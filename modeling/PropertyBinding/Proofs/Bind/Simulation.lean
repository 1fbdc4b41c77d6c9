import PropertyBinding.Proofs.Bind.Matching

/-!
# Binding over stores that answer alike

What two stores have to agree on for binding to come to the same is gathered in
`Session.Agrees`: a relation of the sources in scope, names that binding may come near,
and for these the answers to each question.  Not all targets ask for children, and not all
ask which source is highest, so that these answers may be left open.

From this every target is bound alike, by one case for each shape of target and by
induction on the levels of names below.  The numbers of levels may differ, for the stores
may differ in names that binding never comes to.  Where the handlers answer alike from some
depth on, so that the members of a node are bound alike, the node itself may lie one level
above.
-/

namespace PropertyBinding

variable {γ : Type} {view : Event → Option γ} {low : Nat} {s t : Store}

/-! ## Sources that answer alike -/

/-- Two sessions for which binding comes to the same from any related sources in scope,
at names that are near.  The answers about children are needed only if `children` holds,
and those about sources, and what is left in them, only if `sequences` does. -/
structure Session.Agrees (view : Event → Option γ) (low : Nat) (near : Name → Prop)
    (related : Store → Store → Prop) (children sequences : Prop) (S T : Session) : Prop
    extends S.Alike view near T low where
  near_child : ∀ {n child}, near n → n.IsParentOf child → near child
  get? : ∀ {s t n}, related s t → near n → s.get? n = t.get? n
  resolve : ∀ {s t n p}, related s t → near n → s.get? n = some p →
    S.sources.resolve p.value = T.sources.resolve p.value
  contains : ∀ {s t n}, related s t → near n → s.contains n = t.contains n
  size_le : ∀ {s t n}, related s t → near n → s.contains n = true →
    n.size ≤ S.sources.height ∧ n.size ≤ T.sources.height
  children : children → ∀ {s t n}, related s t → near n → s.children n = t.children n
  below : sequences → ∀ {s t n}, related s t → near n → s.below n = t.below n
  sourceOf? : sequences → ∀ {s t n}, related s t → near n →
    Option.Rel (fun source other => related source other ∧
      ∀ entry : List String → LogEntry,
        view (.log (entry source.sources)) = view (.log (entry other.sources)))
      (s.sourceOf? n) (t.sourceOf? n)

/-- What a target asks about sources, over and above the property under a name and
whether there is something: which children a name has, and which source is highest. -/
def Target.Asks {ρ : Type} (children sequences : Prop) : Target ρ → Prop
  | .list _ => children ∧ sequences
  | .set _ => children ∧ sequences
  | .fixed _ _ => children ∧ sequences
  | .free _ => children ∧ sequences
  | .counted _ .sequence _ => children ∧ sequences
  | .counted _ _ _ => children
  | .map _ _ => children
  | _ => True

theorem Target.asks_true {ρ : Type} (target : Target ρ) : target.Asks True True := by
  cases target with
  | counted label request target => cases request <;> trivial
  | _ => trivial

/-! ### Scalars -/

namespace Binding.Matches

variable {S T : Session} {α : Type} {name : Name} {given : Option Part}

/-- The text for a scalar is the same when the sources have the same property at the name,
and its value resolves to the same. -/
theorem scalar (given : Option Part) (target : String) (same : s.get? name = t.get? name)
    (resolve : ∀ p, s.get? name = some p →
      S.sources.resolve p.value = T.sources.resolve p.value) :
    Matches view low s t (S.scalar name given target) (T.scalar name given target) := by
  cases given with
  | some part => exact .pure part
  | none =>
      apply Matches.look
      rw [← same]
      cases found : s.get? name with
      | none => exact .fail _
      | some property =>
          refine (Matches.use property).bind fun _ => ?_
          rw [← resolve property found]
          cases S.sources.resolve property.value with
          | ok text => exact .pure _
          | error e => exact .fail _

theorem convert {target : String}
    (scalar : Matches view low s t (S.scalar name given target) (T.scalar name given target))
    (conversion : String → Except ConversionReason α) :
    Matches view low s t (S.convert name given target conversion)
      (T.convert name given target conversion) := by
  refine scalar.bind fun part => ?_
  cases conversion part.text with
  | ok a => exact .pure a
  | error reason => exact .fail _

theorem text {target : String}
    (scalar : Matches view low s t (S.scalar name given target) (T.scalar name given target)) :
    Matches view low s t (S.text name given target) (T.text name given target) :=
  scalar.bind fun part => .pure part.text

theorem variant {enumeration : Enumeration}
    (scalar : Matches view low s t (S.scalar name given enumeration.label)
      (T.scalar name given enumeration.label)) :
    Matches view low s t (S.variant name given enumeration) (T.variant name given enumeration) := by
  refine (scalar.convert _).bind fun v => ?_
  by_cases plain : v.content = .none
  · rw [if_pos plain]
    exact .pure _
  · rw [if_neg plain]
    exact .fail _

/-! ### Sequences -/

variable {ρ : Type} {sequence : Sequence ρ} {enter otherEnter : Enter ρ}
  {readParts otherParts : List Part → Binding (List Value)}

theorem delimited
    (scalar : Matches view low s t (S.scalar name given sequence.label)
      (T.scalar name given sequence.label))
    (read : ∀ parts, Matches view low s t (readParts parts) (otherParts parts)) :
    Matches view low s t (S.delimited readParts sequence name given)
      (T.delimited otherParts sequence name given) :=
  scalar.bind fun _ => (read _).bind fun _ => .ofMismatch _

/-- The sources that a sequence is read from have to agree on whether it is written with
commas. -/
theorem sequenceFrom {source other : Store} (found : s.sourceOf? name = some source)
    (foundToo : t.sourceOf? name = some other)
    (logged : ∀ entry : List String → LogEntry,
      view (.log (entry source.sources)) = view (.log (entry other.sources)))
    (same : (source.get? name).isSome = (other.get? name).isSome)
    (delimited : (source.get? name).isSome = true → Matches view (low - 1) s t
      (S.delimited readParts sequence name none) (T.delimited otherParts sequence name none))
    (indexed : Matches view low source other (S.indexed enter sequence name source)
      (T.indexed otherEnter sequence name other)) :
    Matches view (low - 1) s t (S.sequence enter readParts sequence name none)
      (T.sequence otherEnter otherParts sequence name none) := by
  apply Matches.look
  rw [found, foundToo]
  dsimp only
  rw [← same]
  by_cases value : (source.get? name).isSome = true
  · rw [if_pos value, if_pos value]
    exact delimited value
  · rw [if_neg value, if_neg value]
    refine (Matches.log (logged fun sources => ⟨.trace, "binding indexed elements",
      [("name", .text (toString name)),
        ("source", .text ("Some(" ++ Text.quoted (sources.headD "") ++ ")"))]⟩)).bind fun _ => ?_
    exact .scopedTo (.nested indexed)

end Binding.Matches

namespace Session.Agrees

open Binding

variable {near : Name → Prop} {related : Store → Store → Prop} {children sequences : Prop}
  {S T : Session} {name : Name} {ρ : Type} {enter otherEnter : Enter ρ}

theorem scalar (agrees : S.Agrees view low near related children sequences T)
    (inScope : related s t) (there : near name) (given : Option Part) (target : String) :
    Matches view (low - 1) s t (S.scalar name given target) (T.scalar name given target) :=
  .scalar given target (agrees.get? inScope there) fun _ found => agrees.resolve inScope there found

/-! ### Members -/

/-- Binding a target at the children of a name matches, from any related sources that
have something there. -/
def Enters (view : Event → Option γ) (low : Nat) (related : Store → Store → Prop)
    (enter otherEnter : Enter ρ) (name : Name) (target : Target ρ) : Prop :=
  ∀ {s t child}, related s t → name.IsParentOf child → s.contains child = true →
    Matches view (low - 1) s t (enter target child) (otherEnter target child)

theorem elements (agrees : S.Agrees view low near related children sequences T)
    (inScope : related s t) (there : near name) (wanted : List (Nat × Target ρ))
    (holds : ∀ item ∈ wanted, s.contains (name.childAt item.1) = true)
    (entered : ∀ item ∈ wanted, Enters view low related enter otherEnter name item.2) :
    Matches view low s t (S.elements enter name wanted) (T.elements otherEnter name wanted) := by
  induction wanted with
  | nil => exact .pure _
  | cons item rest inductionHypothesis =>
      rcases item with ⟨position, target⟩
      have parent : name.IsParentOf (name.childAt position) := name.isParentOf_push _
      have near := agrees.near_child there parent
      refine (agrees.offer near _).bind fun proceed => ?_
      cases proceed with
      | false => exact .pure _
      | true =>
          have item := entered (position, target) List.mem_cons_self inScope parent
            (holds (position, target) List.mem_cons_self)
          refine (agrees.descend near _ (item.deeper (Nat.sub_le low 1))).bind fun value => ?_
          refine (inductionHypothesis
            (fun item later => holds item (List.mem_cons_of_mem _ later))
            (fun item later => entered item (List.mem_cons_of_mem _ later))).bind fun found => ?_
          exact .pure _

theorem entries (agrees : S.Agrees view low near related children sequences T)
    (inScope : related s t) (there : near name) (key : KeyType) (target : Target ρ)
    (members : List Name)
    (holds : ∀ child ∈ members, name.IsParentOf child ∧ s.contains child = true)
    (entered : Enters view low related enter otherEnter name target) :
    Matches view low s t (S.entries enter key target members)
      (T.entries otherEnter key target members) := by
  induction members with
  | nil => exact .pure []
  | cons child rest inductionHypothesis =>
      have here := holds child List.mem_cons_self
      have near := agrees.near_child there here.1
      have others := inductionHypothesis fun child later =>
        holds child (List.mem_cons_of_mem _ later)
      refine (agrees.offer near _).bind fun proceed => ?_
      cases proceed with
      | false => exact others
      | true =>
          have item := entered inScope here.1 here.2
          refine (Matches.ofMismatch _).bind fun k => ?_
          refine (agrees.descend near _ (item.deeper (Nat.sub_le low 1))).bind fun v => ?_
          exact others.bind fun found => .pure _

theorem fields (agrees : S.Agrees view low near related children sequences T)
    (inScope : related s t) (there : near name) (owner : String)
    (lookups : List (Field ρ × String))
    (entered : ∀ item ∈ lookups, Enters view low related enter otherEnter name item.1.target)
    (found : List (String × Value)) :
    Matches view low s t (S.fields enter owner name found lookups)
      (T.fields otherEnter owner name found lookups) := by
  induction lookups generalizing found with
  | nil => exact .pure found
  | cons item rest inductionHypothesis =>
      rcases item with ⟨field, key⟩
      have parent : name.IsParentOf (name.child key) := name.isParentOf_push _
      have near := agrees.near_child there parent
      have others := inductionHypothesis fun item later =>
        entered item (List.mem_cons_of_mem _ later)
      apply Matches.look
      rw [← agrees.contains inScope near]
      cases holds : s.contains (name.child key) with
      | false => exact others found
      | true =>
          refine (agrees.offer near _).bind fun proceed => ?_
          cases proceed with
          | false => exact others found
          | true =>
              by_cases again : (found.any fun entry => entry.1 == field.label) = true
              · simp only [if_pos again, if_true]
                exact .fail _
              · simp only [if_neg again, if_true]
                have item := entered (field, key) List.mem_cons_self inScope parent holds
                exact (agrees.descend near _ (item.deeper (Nat.sub_le low 1))).bind
                  fun v => others _

/-! ### Nodes -/

theorem mapping (agrees : S.Agrees view low near related children sequences T)
    (inScope : related s t) (there : near name) (asked : children) (label : String) (key : KeyType)
    (target : Target ρ) (make : Nat → List (Key × Value × Nat) → Value)
    (entered : Enters view low related enter otherEnter name target) :
    Matches view (low - 1) s t (S.mapping enter label key target name make)
      (T.mapping otherEnter label key target name make) := by
  apply Matches.look
  rw [← agrees.children asked inScope there]
  refine .forTarget label (.nested ?_)
  refine (agrees.entries inScope there key target _ (fun child member => ?_) entered).bind
    fun found => .pure _
  exact ⟨Store.isParentOf_of_mem_children member, Store.contains_of_mem_children member⟩

theorem record (agrees : S.Agrees view low near related children sequences T)
    (inScope : related s t) (there : near name) (initial : ρ → Value) (type : Record ρ)
    (entered : ∀ field ∈ type.fields, Enters view low related enter otherEnter name field.target) :
    Matches view (low - 1) s t (S.record enter initial type name)
      (T.record otherEnter initial type name) := by
  refine .forTarget type.label (.nested ?_)
  refine (agrees.fields inScope there type.short _ (fun item member => ?_) []).bind fun found => ?_
  · rcases List.mem_flatMap.mp member with ⟨field, listed, keyed⟩
    rcases List.mem_map.mp keyed with ⟨key, _, rfl⟩
    exact entered field listed
  · exact (Matches.ofMismatch _).bind fun fields => .pure _

theorem positions_eq (agrees : S.Agrees view low near related children sequences T)
    (inScope : related s t) (there : near name) (asked : children) :
    positions s name = positions t name := by
  unfold positions
  rw [agrees.children asked inScope there]
  congr 1
  funext position
  exact agrees.contains inScope (agrees.near_child there (name.isParentOf_push _))

theorem beyond_eq (agrees : S.Agrees view low near related children sequences T)
    (inScope : related s t) (there : near name) (asked : children ∧ sequences) (count : Nat) :
    beyond s name count = beyond t name count := by
  unfold beyond
  rw [← agrees.children asked.1 inScope there]
  simp only [List.flatMap_def]
  refine congrArg List.flatten (List.map_congr_left fun child member => ?_)
  have listed := (List.mem_filter.mp member).1
  have near := agrees.near_child there (Store.isParentOf_of_mem_children listed)
  rw [agrees.get? inScope near, agrees.below asked.2 inScope near]

theorem indexed (agrees : S.Agrees view low near related children sequences T)
    (inScope : related s t) (there : near name) (asked : children ∧ sequences)
    (sequence : Sequence ρ)
    (entered : ∀ available, ∀ target ∈ sequence.wanted available,
      Enters view low related enter otherEnter name target) :
    Matches view low s t (S.indexed enter sequence name s)
      (T.indexed otherEnter sequence name t) := by
  unfold Session.indexed
  rw [← agrees.positions_eq inScope there asked.1]
  have zipped : ∀ item ∈ (positions s name).zip (sequence.wanted (positions s name).length),
      item.1 ∈ positions s name ∧ item.2 ∈ sequence.wanted (positions s name).length :=
    fun item member => List.of_mem_zip member
  refine (agrees.elements inScope there _
    (fun item member => Session.contains_of_mem_positions (zipped item member).1)
    (fun item member => entered _ item.2 (zipped item member).2)).bind fun found => ?_
  refine (Matches.ofMismatch _).bind fun value => ?_
  rw [← agrees.beyond_eq inScope there asked]
  dsimp only
  generalize (if found.2 = true then [] else beyond s name found.1.length) = left
  cases left.isEmpty with
  | true => exact .pure value
  | false => exact .fail _

theorem sequence (agrees : S.Agrees view low near related children sequences T)
    (inScope : related s t) (there : near name) (asked : children ∧ sequences)
    {readParts otherParts : List Part → Binding (List Value)} (sequence : Sequence ρ)
    (given : Option Part)
    (read : ∀ parts, Matches view (low - 1) s t (readParts parts) (otherParts parts))
    (entered : ∀ available, ∀ target ∈ sequence.wanted available,
      Enters view low related enter otherEnter name target) :
    Matches view (low - 1) s t (S.sequence enter readParts sequence name given)
      (T.sequence otherEnter otherParts sequence name given) := by
  have delimited : Matches view (low - 1) s t (S.delimited readParts sequence name given)
      (T.delimited otherParts sequence name given) :=
    (agrees.scalar inScope there given _).delimited read
  cases given with
  | some part => exact delimited
  | none =>
      have highest := agrees.sourceOf? asked.2 inScope there
      generalize found : s.sourceOf? name = source at highest
      generalize foundToo : t.sourceOf? name = other at highest
      cases highest with
      | none =>
          apply Matches.look
          rw [found, foundToo]
          exact delimited
      | some same =>
          exact .sequenceFrom found foundToo same.2
            (congrArg Option.isSome (agrees.get? same.1 there)) (fun _ => delimited)
            (agrees.indexed same.1 there asked sequence entered)

/-- A sequence that takes as many elements of one target as there are. -/
theorem growing (agrees : S.Agrees view low near related children sequences T)
    (inScope : related s t) (there : near name) (asked : children ∧ sequences)
    {readParts otherParts : List Part → Binding (List Value)} (sequence : Sequence ρ)
    {target : Target ρ}
    (wanted : ∀ available, sequence.wanted available = .replicate available target)
    (given : Option Part)
    (read : ∀ parts, Matches view (low - 1) s t (readParts parts) (otherParts parts))
    (entered : Enters view low related enter otherEnter name target) :
    Matches view (low - 1) s t (S.sequence enter readParts sequence name given)
      (T.sequence otherEnter otherParts sequence name given) := by
  refine agrees.sequence inScope there asked sequence given read fun available u member => ?_
  rw [wanted] at member
  rw [List.eq_of_mem_replicate member]
  exact entered

theorem free (agrees : S.Agrees view low near related children sequences T)
    (inScope : related s t) (there : near name) (asked : children ∧ sequences) (label : String)
    (given : Option Part) (entered : Enters view low related enter otherEnter name (.free label)) :
    Matches view (low - 1) s t (S.free enter label name given)
      (T.free otherEnter label name given) := by
  apply Matches.look
  rw [← agrees.get? inScope there, ← agrees.children asked.1 inScope there]
  by_cases value : (given.isSome || (s.get? name).isSome) = true
  · rw [if_pos value, if_pos value]
    exact (agrees.scalar inScope there given _).text.map _
  · rw [if_neg value, if_neg value]
    dsimp only
    by_cases empty : (s.children name).isEmpty = true
    · rw [if_pos empty, if_pos empty]
      exact .pure _
    · rw [if_neg empty, if_neg empty]
      by_cases positional : (s.children name).all Name.endsInPosition = true
      · rw [if_pos positional, if_pos positional]
        exact agrees.growing inScope there asked _ (fun _ => rfl) none (fun parts => .pure _)
          entered
      · rw [if_neg positional, if_neg positional]
        exact agrees.mapping inScope there asked.1 label .text _ _ entered

/-! ### All targets -/

variable {declarations : Declarations ρ}

mutual

/-- Binding a target of any shape matches when it does so at the children. -/
theorem read (agrees : S.Agrees view low near related children sequences T)
    (inScope : related s t) (there : near name) (target : Target ρ) (given : Option Part)
    (asks : ∀ u, Target.Occurs declarations u target → u.Asks children sequences)
    (entered : ∀ u, Target.Occurs declarations u target →
      Enters view low related enter otherEnter name u) :
    Matches view (low - 1) s t (S.read declarations enter target name given)
      (T.read declarations otherEnter target name given) := by
  have scalar := agrees.scalar inScope there given
  cases target with
  | truth => exact ((scalar _).convert _).map _
  | whole type => exact ((scalar _).convert _).map _
  | float format => exact ((scalar _).convert _).map _
  | char => exact ((scalar _).convert _).map _
  | text => exact (scalar _).text.map _
  | bytes => exact (scalar _).text.bind fun text => .pure _
  | unit => exact .pure _
  | ignored => exact .pure _
  | variant enumeration => exact (scalar _).variant
  | option target =>
      have inner := agrees.read inScope there target given
        (fun u part => asks u (.option part)) (fun u part => entered u (.option part))
      have answered : ∀ found : Bool, Matches (α := Value) view (low - 1) s t
          (if found = true then .present <$> S.read declarations enter target name given
            else Pure.pure .absent)
          (if found = true then .present <$> T.read declarations otherEnter target name given
            else Pure.pure .absent) := by
        intro found
        cases found with
        | true => exact inner.map _
        | false => exact .pure _
      unfold Session.read
      cases given with
      | some part => exact answered true
      | none =>
          apply Matches.look
          rw [← agrees.contains inScope there]
          exact answered _
  | wrapper label target =>
      exact agrees.read inScope there target given
        (fun u part => asks u (.wrapper part)) (fun u part => entered u (.wrapper part))
  | boxed target =>
      exact agrees.read inScope there target given
        (fun u part => asks u (.boxed part)) (fun u part => entered u (.boxed part))
  | list target =>
      have parts : ∀ part, Matches view (low - 1) s t
          (S.read declarations enter target name (some part))
          (T.read declarations otherEnter target name (some part)) := fun part =>
        agrees.read inScope there target (some part)
          (fun u part => asks u (.list part)) (fun u part => entered u (.list part))
      exact agrees.growing inScope there (asks _ .self) _ (fun _ => rfl) given
        (fun items => .each parts items) (entered target (.list .self))
  | set target =>
      have parts : ∀ part, Matches view (low - 1) s t
          (S.read declarations enter target name (some part))
          (T.read declarations otherEnter target name (some part)) := fun part =>
        agrees.read inScope there target (some part)
          (fun u part => asks u (.set part)) (fun u part => entered u (.set part))
      exact agrees.growing inScope there (asks _ .self) _ (fun _ => rfl) given
        (fun items => .each parts items) (entered target (.set .self))
  | fixed shape targets =>
      exact agrees.sequence inScope there (asks _ .self) _ given
        (fun items => agrees.readEach inScope there targets items
          (fun target member u part => asks u (.fixed member part))
          (fun target member u part => entered u (.fixed member part)))
        fun available target member => entered target (.fixed member .self)
  | map key target =>
      exact agrees.mapping inScope there (asks _ .self) _ key target _ (entered target (.map .self))
  | record r =>
      exact agrees.record inScope there declarations.initial (declarations.record r)
        fun field member => entered field.target (.record member .self)
  | free label =>
      exact agrees.free inScope there (asks _ .self) label given (entered _ .self)
  | counted label request target =>
      cases request with
      | sequence =>
          have parts : ∀ part, Matches view (low - 1) s t
              (S.read declarations enter target name (some part))
              (T.read declarations otherEnter target name (some part)) := fun part =>
            agrees.read inScope there target (some part)
              (fun u part => asks u (.counted part)) (fun u part => entered u (.counted part))
          exact agrees.growing inScope there (asks _ .self) _ (fun _ => rfl) given
            (fun items => .each parts items) (entered target (.counted .self))
      | map =>
          exact agrees.mapping inScope there (asks _ .self) label .text target _
            (entered target (.counted .self))
      | record =>
          exact agrees.mapping inScope there (asks _ .self) label .text target _
            (entered target (.counted .self))
  | hasty label request => exact .forTarget label (.nested (.fail _))

theorem readEach (agrees : S.Agrees view low near related children sequences T)
    (inScope : related s t) (there : near name) (targets : List (Target ρ)) (parts : List Part)
    (asks : ∀ target ∈ targets, ∀ u, Target.Occurs declarations u target →
      u.Asks children sequences)
    (entered : ∀ target ∈ targets, ∀ u, Target.Occurs declarations u target →
      Enters view low related enter otherEnter name u) :
    Matches view (low - 1) s t (S.readEach declarations enter targets name parts)
      (T.readEach declarations otherEnter targets name parts) := by
  cases targets with
  | nil => exact .pure []
  | cons target rest =>
      cases parts with
      | nil => exact .pure []
      | cons part others =>
          refine (agrees.read inScope there target (some part) (asks target List.mem_cons_self)
            (entered target List.mem_cons_self)).bind fun item => ?_
          refine (agrees.readEach inScope there rest others
            (fun target member => asks target (List.mem_cons_of_mem _ member))
            (fun target member => entered target (List.mem_cons_of_mem _ member))).bind
            fun items => ?_
          exact .pure _

end

/-- Down to any two numbers of levels, each enough for the names there are, binding a
target matches. -/
theorem readWithin (agrees : S.Agrees view low near related children sequences T)
    (levels otherLevels : Nat) (inScope : related s t) (there : near name) (target : Target ρ)
    (holds : s.contains name = true)
    (enough : S.sources.height < name.size + levels)
    (enoughToo : T.sources.height < name.size + otherLevels)
    (asks : ∀ u, Target.Occurs declarations u target → u.Asks children sequences) :
    Matches view (low - 1) s t (S.readWithin declarations levels target name)
      (T.readWithin declarations otherLevels target name) := by
  have short := agrees.size_le inScope there holds
  induction levels generalizing s t name target otherLevels with
  | zero => exact absurd enough (Nat.not_lt.mpr short.1)
  | succ levels inductionHypothesis =>
      cases otherLevels with
      | zero => exact absurd enoughToo (Nat.not_lt.mpr short.2)
      | succ otherLevels =>
          refine agrees.read inScope there target none asks fun u part => ?_
          intro s t child inScope parent holds
          have near := agrees.near_child there parent
          refine inductionHypothesis otherLevels inScope near u holds ?_ ?_
            (fun v inner => asks v (inner.trans part)) (agrees.size_le inScope near holds)
          · rw [parent.1]
            omega
          · rw [parent.1]
            omega

/-- The height of each store is enough. -/
theorem readToHeight (agrees : S.Agrees view low near related children sequences T)
    (inScope : related s t) (there : near name) (target : Target ρ)
    (holds : s.contains name = true)
    (asks : ∀ u, Target.Occurs declarations u target → u.Asks children sequences) :
    Matches view (low - 1) s t (S.readWithin declarations (S.sources.height + 1) target name)
      (T.readWithin declarations (T.sources.height + 1) target name) :=
  agrees.readWithin _ _ inScope there target holds
    (Nat.lt_of_lt_of_le (Nat.lt_succ_self _) (Nat.le_add_left _ _))
    (Nat.lt_of_lt_of_le (Nat.lt_succ_self _) (Nat.le_add_left _ _)) asks

end Session.Agrees

/-! ## Binders -/

namespace Binder

open Binding

variable {ρ : Type} {b c : Binder ρ} {target : Target ρ} {near : Name → Prop} {root : Name}

/-- Binders whose handlers answer alike give the same, and bind the same on the way, when
they match below an accepted root of which both have something. -/
theorem bindAt_matches (alike : (b.session target).Alike view near (c.session target))
    (there : near root) (existing : Bool)
    (holds : b.sources.contains root = c.sources.contains root)
    (read : b.sources.contains root = true → Matches view 0 b.sources c.sources
      ((b.session target).readWithin b.declarations (b.sources.height + 1) target root)
      ((c.session target).readWithin c.declarations (c.sources.height + 1) target root)) :
    (b.bindAt target root existing).result = (c.bindAt target root existing).result ∧
      (b.bindAt target root existing).bound = (c.bindAt target root existing).bound ∧
      (b.bindAt target root existing).history.filterMap view =
        (c.bindAt target root existing).history.filterMap view := by
  have labelled : (b.session target).rootType = (c.session target).rootType := alike.rootType
  have accepted : ∀ slot, Matches view 0 b.sources c.sources (b.bindAccepted target root slot)
      (c.bindAccepted target root slot) := by
    intro slot
    unfold bindAccepted
    rw [← holds]
    cases found : b.sources.contains root with
    | true => exact (alike.descend there slot (read found)).map _
    | false => exact (alike.guarded there slot (alike.finish there slot)).bind fun _ => .pure none
  have matched : Matches view 0 b.sources c.sources (b.bindRoot target root existing)
      (c.bindRoot target root existing) := by
    unfold bindRoot
    dsimp only
    rw [← labelled]
    refine (Matches.log rfl).bind fun _ => (alike.offer there _).bind fun proceed => ?_
    cases proceed with
    | false => exact .pure none
    | true =>
        refine (Matches.forTarget _ (accepted _)).bind fun value => ?_
        exact (Matches.log rfl).bind fun _ => .pure value
  have ran := matched (Run.initial b.sources) (Run.initial c.sources) (Nat.zero_le _)
    ⟨rfl, rfl, rfl, rfl, rfl, rfl⟩
  exact ⟨ran.1, ran.2.2.bound, ran.2.2.history⟩

/-- If all events are viewed, the whole outcome is the same. -/
theorem bindAt_eq_of_matches (alike : (b.session target).Alike some near (c.session target))
    (there : near root) (existing : Bool)
    (holds : b.sources.contains root = c.sources.contains root)
    (read : b.sources.contains root = true → Matches some 0 b.sources c.sources
      ((b.session target).readWithin b.declarations (b.sources.height + 1) target root)
      ((c.session target).readWithin c.declarations (c.sources.height + 1) target root)) :
    b.bindAt target root existing = c.bindAt target root existing := by
  have matched := bindAt_matches alike there existing holds read
  rcases ran : b.bindAt target root existing with ⟨result, bound, history⟩
  rcases ranToo : c.bindAt target root existing with ⟨otherResult, otherBound, otherHistory⟩
  rw [ran, ranToo] at matched
  simp only [List.filterMap_some] at matched
  rcases matched with ⟨rfl, rfl, rfl⟩
  rfl

end Binder

end PropertyBinding
