import PropertyBinding.Proofs.Bind.Commas

/-!
# Sequences of a fixed length

A tuple asks for one element after another until each of its targets has one, and then it
stops.  So a sequence that is too short always shows, since the tuple misses an element.  One
that is too long shows only if something looks at what is left.

For elements at positions this is done once all have been bound: a child that denotes a later
position is an error.  For the parts of a value nothing does it.  A value with too many parts
is bound like the value of its first parts, and the other ones are lost.
-/

namespace PropertyBinding

variable {ρ : Type}

namespace Store

/-- Below a name the positions before a number are all there, and no child denotes a later
one. -/
structure Fits (s : Store) (n : Name) (count : Nat) : Prop where
  each : ∀ i < count, s.contains (n.childAt i) = true
  only : ∀ child ∈ s.children n, ¬ IsLate count child

section Sources

variable {s w : Store} {n : Name} {p : Property}

/-- A value of the source that a sequence is read from is the effective one. -/
theorem get?_of_sourceOf? (source : s.sourceOf? n = some w) (found : w.get? n = some p) :
    s.get? n = some p := by
  rcases Option.map_eq_some_iff.mp source with ⟨l, layer, rfl⟩
  rw [get?_single] at found
  exact (layerOf?_eq_some_iff.mp layer).get? found

theorem exists_sourceOf?_of_get? (effective : s.get? n = some p)
    (direct : ∀ w, s.sourceOf? n = some w → (w.get? n).isSome = true) :
    ∃ w, s.sourceOf? n = some w ∧ w.get? n = some p := by
  have there := (s.isSome_sourceOf?_iff n).mpr (contains_of_get? effective)
  rcases Option.isSome_iff_exists.mp there with ⟨w, source⟩
  rcases Option.isSome_iff_exists.mp (direct w source) with ⟨q, found⟩
  have same : q = p :=
    Option.some.inj ((get?_of_sourceOf? source found).symm.trans effective)
  exact ⟨w, source, same ▸ found⟩

end Sources

end Store

namespace Session

variable (S : Session) (declarations : Declarations ρ) (scope : Store)

/-! ## What a sequence of a fixed length is bound from -/

/-- A target takes a value from a part that is handed down to it, or else from what is at a
name, in a run without a veto. -/
def Takes (target : Target ρ) (name : Name) (given : Option Part) (v : Value) : Prop :=
  ∃ run after, run.scope = scope ∧
    S.read declarations (S.readWithin declarations S.sources.height) target name given run =
      (.ok v, after) ∧ after.UnvetoedSince run

/-- Targets take their values from the first parts of a text, of which there are enough. -/
structure FromParts (targets : List (Target ρ)) (name : Name) (whole : Part)
    (items : List Value) : Prop where
  enough : targets.length ≤ (Conversion.parts whole.text).length
  each : List.Forall₂ (fun (piece : Target ρ × String) v =>
    S.Takes declarations scope piece.1 name (some ⟨piece.2, whole.property⟩) v)
    (targets.zip (Conversion.parts whole.text)) items

/-- The items of a sequence of a fixed length come from the elements that its source has, from
the parts of the value there, or from the parts of the text that is handed down. -/
inductive FixedFrom (targets : List (Target ρ)) (name : Name) : Option Part → List Value → Prop
  | elements {w : Store} {items : List Value} (source : scope.sourceOf? name = some w)
      (noValue : w.get? name = none) (fits : w.Fits name targets.length)
      (each : List.Forall₂ (fun (element : Nat × Target ρ) v =>
        S.Binds declarations w element.2 (name.childAt element.1) v)
        ((List.range targets.length).zip targets) items) : FixedFrom targets name none items
  | value {w : Store} {p : Property} {text : String} {items : List Value}
      (source : scope.sourceOf? name = some w) (found : w.get? name = some p)
      (resolved : S.sources.resolve p.value = .ok text)
      (parts : S.FromParts declarations scope targets name ⟨text, p⟩ items) :
      FixedFrom targets name none items
  | given {whole : Part} {items : List Value}
      (parts : S.FromParts declarations scope targets name whole items) :
      FixedFrom targets name (some whole) items

variable {S declarations scope} {targets : List (Target ρ)} {name : Name} {items : List Value}
  {given : Option Part} {run after : Run} {v : Value}

theorem FromParts.length_eq {whole : Part}
    (parts : S.FromParts declarations scope targets name whole items) :
    items.length = targets.length := by
  rw [← parts.each.length_eq, List.length_zip, min_eq_left parts.enough]

/-- There is an item for each target. -/
theorem FixedFrom.length_eq (origin : S.FixedFrom declarations scope targets name given items) :
    items.length = targets.length := by
  cases origin with
  | elements source noValue fits each =>
      rw [← each.length_eq, List.length_zip, List.length_range, min_self]
  | value source found resolved parts => exact parts.length_eq
  | given parts => exact parts.length_eq

/-! ## Elements -/

/-- Where nothing is vetoed, all elements that are wanted are bound. -/
theorem elements_each (draws : scope.Draws S.sources) {wanted : List (Nat × Target ρ)}
    (there : ∀ element ∈ wanted, scope.contains (name.childAt element.1) = true)
    {found : List Value × Bool} (inScope : run.scope = scope)
    (ran : S.elements (S.readWithin declarations S.sources.height) name wanted run =
      (.ok found, after)) (since : after.UnvetoedSince run) :
    found.2 = false ∧ List.Forall₂ (fun element v =>
      S.Binds declarations scope element.2 (name.childAt element.1) v) wanted found.1 := by
  let enter := S.readWithin declarations S.sources.height
  have entered : ∀ target child, S.BindsMember .any scope child (enter target child) :=
    fun target child => S.readWithin_bindsMember _ target child draws
  induction wanted generalizing run found with
  | nil =>
      cases ran
      exact ⟨rfl, .nil⟩
  | cons element rest inductionHypothesis =>
      rcases element with ⟨position, target⟩
      let child := name.childAt position
      have parent : name.IsParentOf child := name.isParentOf_push _
      have here : scope.contains child = true := there (position, target) List.mem_cons_self
      have others := fun element later => there element (List.mem_cons_of_mem _ later)
      let bound (v : Value) : Binding (List Value × Bool) := do
        let found ← S.elements enter name rest
        return (v :: found.1, found.2)
      have opened : S.elements enter name ((position, target) :: rest) =
          (S.offer child (.element position) >>= fun proceed =>
            if proceed = true then
              S.descend child (.element position) (enter target child) >>= bound
            else return ([], true)) := rfl
      have restOrderly : S.Orderly .any .members scope name _
          (S.elements enter name rest) :=
        elements_orderly rest others fun element _ => entered element.2 _
      have boundOrderly : ∀ v, S.Orderly .any .members scope name _ (bound v) :=
        fun v => restOrderly.bind fun found => .pure _
      rcases (entered target child).orderly.visit_parts boundOrderly (.pure _) inScope
        (opened ▸ ran) since
        with ⟨v, before, middle, last, kept, keptToo, ranChild, sinceChild, ranRest, sinceRest⟩
      rcases restOrderly.bind_parts (fun found _ => .pure _) keptToo ranRest sinceRest
        with ⟨foundLater, ended, _, _, ranElements, sinceElements, made, _⟩
      cases made
      -- Below the node of an element there is one level less, and its name is longer by one.
      have enough : S.sources.height < child.size + S.sources.height := by
        rw [parent.1]
        omega
      have ranNode := (readWithin_eq_node draws here enough kept).symm.trans ranChild
      rcases inductionHypothesis others keptToo ranElements sinceElements with ⟨accepted, each⟩
      exact ⟨accepted, .cons ⟨before, middle, kept, ranNode, sinceChild⟩ each⟩

section Assembling

variable {label : String} {shape : FixedShape} {announced : Option Nat} {w : Store} {value : Value}
  {found : List Value × Bool}

theorem ofMismatch_eq_ok {α : Type} {outcome : Except Mismatch α} {a : α}
    (ran : Binding.ofMismatch outcome run = (.ok a, after)) : outcome = .ok a ∧ after = run := by
  cases outcome with
  | error m => cases ran
  | ok b =>
      cases ran
      exact ⟨rfl, rfl⟩

/-- A sequence of a fixed length is a list of at least as many items as it has targets. -/
theorem assemble_fixed_eq_ok
    (made : (Sequence.fixed label shape targets).assemble announced items = .ok v) :
    v = .list items ∧ targets.length ≤ items.length := by
  by_cases short : items.length < targets.length
  · have refused : (Sequence.fixed label shape targets).assemble announced items = .error _ :=
      if_pos short
    rw [refused] at made
    cases made
  · have taken : (Sequence.fixed label shape targets).assemble announced items = .ok _ :=
      if_neg short
    rw [taken] at made
    cases made
    exact ⟨rfl, Nat.le_of_not_lt short⟩

/-- A sequence from the elements of a source has its value, unless something is left over. -/
def close (label : String) (name : Name) (w : Store) (found : List Value × Bool) (value : Value) :
    Binding Value :=
  let left := if found.2 then [] else beyond w name found.1.length
  if left.isEmpty then return value
  else Binding.fail (.here name label none (.unbound left))

theorem close_orderly : S.Orderly .any .members scope name Value
    (close label name w found value) := by
  unfold close
  dsimp only
  generalize (if found.2 = true then [] else beyond w name found.1.length) = left
  split
  · exact .pure value
  · exact .failBare _ _

theorem close_eq_ok (asked : found.2 = false)
    (ran : close label name w found value run = (.ok v, after)) :
    v = value ∧ beyond w name found.1.length = [] := by
  unfold close at ran
  rw [asked] at ran
  simp only [Bool.false_eq_true, if_false] at ran
  split at ran
  · cases ran
    exact ⟨rfl, List.isEmpty_iff.mp ‹_›⟩
  · cases ran

/-- If there are positions enough for some targets, these are at the first ones. -/
theorem zip_positions {count : Nat} (ends : w.EndsAt name count) (enough : targets.length ≤ count) :
    (positions w name).zip targets = (List.range targets.length).zip targets := by
  have cut : (List.range count).zip targets = _ := List.zip_eq_zip_take_min
  rw [List.length_range, min_eq_right enough, List.take_range, min_eq_left enough,
    List.take_length] at cut
  rw [ends.positions_eq, cut]

/-- A sequence of a fixed length that is bound from elements has as many as its source. -/
theorem indexed_fixed (draws : scope.Draws S.sources) (inScope : run.scope = scope)
    (ran : S.indexed (S.readWithin declarations S.sources.height) (.fixed label shape targets) name
      scope run = (.ok v, after)) (since : after.UnvetoedSince run) :
    ∃ items, v = .list items ∧ scope.Fits name targets.length ∧
      List.Forall₂ (fun element v =>
        S.Binds declarations scope element.2 (name.childAt element.1) v)
        ((List.range targets.length).zip targets) items := by
  let enter := S.readWithin declarations S.sources.height
  let kind := Sequence.fixed label shape targets
  let wanted := (positions scope name).zip targets
  have opened : S.indexed enter kind name scope = (S.elements enter name wanted >>= fun found =>
      Binding.ofMismatch (kind.assemble none found.1) >>= close label name scope found) := rfl
  have there : ∀ element ∈ wanted, scope.contains (name.childAt element.1) = true :=
    fun element listed => contains_of_mem_positions (List.of_mem_zip listed).1
  have elements : S.Orderly .any .members scope name _ (S.elements enter name wanted) :=
    elements_orderly wanted there fun element _ => S.readWithin_bindsMember _ element.2 _ draws
  rcases elements.bind_parts (fun found _ => (Orderly.ofMismatch _).bind fun value => close_orderly)
    inScope (opened ▸ ran) since
    with ⟨⟨items, vetoed⟩, middle, _, _, ranElements, sinceElements, ranRest, _⟩
  rcases elements_each draws there inScope ranElements sinceElements with ⟨accepted, each⟩
  rcases Binding.bind_eq_ok ranRest with ⟨value, last, assembles, closes⟩
  rcases ofMismatch_eq_ok assembles with ⟨made, rfl⟩
  have assembled : value = .list items ∧ targets.length ≤ items.length := assemble_fixed_eq_ok made
  have closed : v = value ∧ beyond scope name items.length = [] := close_eq_ok accepted closes
  rcases scope.exists_endsAt name with ⟨count, ends⟩
  have counted : items.length = min count targets.length := by
    have same := each.length_eq
    rw [List.length_zip, ends.positions_eq, List.length_range] at same
    exact same.symm
  have enough : targets.length ≤ count := by omega
  have length : items.length = targets.length := by omega
  have fits : scope.Fits name targets.length :=
    ⟨fun i before => ends.below i (before.trans_le enough),
      Store.beyond_eq_nil_iff.mp (length ▸ closed.2)⟩
  exact ⟨items, closed.1.trans assembled.1, fits, zip_positions ends enough ▸ each⟩

end Assembling

/-! ## Parts -/

section Reading

variable {label : String} {shape : FixedShape} {enter : Enter ρ} {part whole : Part}
  {parts : List Part}

theorem readWithin_enters (levels : Nat) (target : Target ρ) :
    S.Enters .any scope declarations (S.readWithin declarations levels) target name :=
  fun t child _ _ drawn _ => S.readWithin_bindsMember levels t child drawn

/-- Each part is read by the target in the same place, for as long as there are both. -/
theorem readEach_takes (owned : ∀ part ∈ parts, name.Same part.property.name)
    (inScope : run.scope = scope)
    (ran : S.readEach declarations (S.readWithin declarations S.sources.height) targets name parts
      run = (.ok items, after)) (since : after.UnvetoedSince run) :
    List.Forall₂ (fun piece v => S.Takes declarations scope piece.1 name (some piece.2) v)
      (targets.zip parts) items := by
  let enter := S.readWithin declarations S.sources.height
  have draws : scope.Draws scope := .refl scope
  have entered : ∀ target, S.Enters .any scope declarations enter target name :=
    readWithin_enters _
  induction targets generalizing parts run items with
  | nil =>
      cases ran
      exact .nil
  | cons target rest inductionHypothesis =>
      cases parts with
      | nil =>
          cases ran
          exact .nil
      | cons part others =>
          have ownedFirst : ∀ p ∈ some part, name.Same p.property.name := fun p same =>
            owned p (Option.mem_some.mp same ▸ List.mem_cons_self)
          have ownedLater : ∀ p ∈ others, name.Same p.property.name := fun p later =>
            owned p (List.mem_cons_of_mem part later)
          have first : S.Orderly .any .node scope name Value
              (S.read declarations enter target name (some part)) :=
            read_orderly draws target name _ ownedFirst (fun _ _ => trivial) (entered target)
          have later : S.Orderly .any .node scope name _
              (S.readEach declarations enter rest name others) :=
            readEach_orderly draws rest name others ownedLater (fun _ _ _ _ => trivial)
              fun target _ => entered target
          have opened : S.readEach declarations enter (target :: rest) name (part :: others) =
              (S.read declarations enter target name (some part) >>= fun item =>
                S.readEach declarations enter rest name others >>= fun items =>
                  return item :: items) := rfl
          rcases first.bind_parts (fun item _ => later.bind fun items => .pure _) inScope
            (opened ▸ ran) since
            with ⟨item, middle, _, kept, ranFirst, sinceFirst, ranRest, sinceRest⟩
          rcases later.bind_parts (fun items _ => .pure _) kept ranRest sinceRest
            with ⟨items, ended, _, _, ranLater, sinceLater, made, _⟩
          cases made
          exact .cons ⟨run, middle, inScope, ranFirst, sinceFirst⟩
            (inductionHypothesis ownedLater kept ranLater sinceLater)

/-- The text that a scalar is bound from is the part that is handed down, or the value at its
name with its placeholders resolved. -/
theorem scalar_eq_ok (ran : S.scalar name given label run = (.ok whole, after)) :
    given = some whole ∨ given = none ∧ run.scope.get? name = some whole.property ∧
      S.sources.resolve whole.property.value = .ok whole.text := by
  cases given with
  | some part =>
      cases ran
      exact .inl rfl
  | none =>
      rcases Binding.bind_eq_ok ran with ⟨scope, middle, looked, read⟩
      cases looked
      cases found : run.scope.get? name with
      | none =>
          simp only [found] at read
          cases read
      | some p =>
          simp only [found] at read
          rcases Binding.bind_eq_ok read with ⟨_, last, _, ended⟩
          cases resolved : S.sources.resolve p.value with
          | error e =>
              simp only [resolved] at ended
              cases ended
          | ok text =>
              simp only [resolved] at ended
              cases ended
              exact .inr ⟨rfl, rfl, resolved⟩

/-- A sequence of a fixed length that is bound from the parts of a text. -/
theorem delimited_fixed (owned : ∀ part ∈ given, name.Same part.property.name)
    (inScope : run.scope = scope)
    (ran : S.delimited (S.readEach declarations (S.readWithin declarations S.sources.height) targets
      name) (.fixed label shape targets) name given run = (.ok v, after))
    (since : after.UnvetoedSince run) :
    ∃ whole items, v = .list items ∧ S.FromParts declarations scope targets name whole items ∧
      (given = some whole ∨ given = none ∧ scope.get? name = some whole.property ∧
        S.sources.resolve whole.property.value = .ok whole.text) := by
  let readParts := S.readEach declarations (S.readWithin declarations S.sources.height) targets name
  let kind := Sequence.fixed label shape targets
  let split (whole : Part) : List Part :=
    (Conversion.parts whole.text).map fun text => ⟨text, whole.property⟩
  have opened : S.delimited readParts kind name given = (S.scalar name given label >>= fun whole =>
      readParts (split whole) >>= fun items =>
        Binding.ofMismatch (kind.assemble (some (split whole).length) items)) := rfl
  have ownedParts : ∀ whole : Part, name.Same whole.property.name →
      ∀ part ∈ split whole, name.Same part.property.name := by
    intro whole same part listed
    rcases List.mem_map.mp listed with ⟨text, _, rfl⟩
    exact same
  have reads : ∀ whole : Part, name.Same whole.property.name →
      S.Orderly .any .node scope name _ (readParts (split whole)) := fun whole same =>
    readEach_orderly (.refl scope) targets name _ (ownedParts whole same)
      (fun _ _ _ _ => trivial) fun target _ => readWithin_enters _ target
  rcases (scalar_orderly given label).bind_parts
    (fun whole yields => (reads whole (scalar_yields owned yields)).bind fun _ => .ofMismatch _)
    inScope (opened ▸ ran) since
    with ⟨whole, middle, yields, kept, ranScalar, _, ranRest, sinceRest⟩
  have same := scalar_yields owned yields
  rcases (reads whole same).bind_parts (fun items _ => .ofMismatch _) kept ranRest sinceRest
    with ⟨items, last, _, _, ranParts, sinceParts, assembles, _⟩
  rcases ofMismatch_eq_ok assembles with ⟨made, rfl⟩
  rcases assemble_fixed_eq_ok made with ⟨rfl, enough⟩
  have each := readEach_takes (ownedParts whole same) kept ranParts sinceParts
  have fewer : targets.length ≤ (Conversion.parts whole.text).length := by
    have counted := each.length_eq
    rw [List.length_zip, List.length_map] at counted
    omega
  rw [List.zip_map_right, List.forall₂_map_left_iff] at each
  exact ⟨whole, items, rfl, ⟨fewer, each⟩, inScope ▸ scalar_eq_ok ranScalar⟩

/-! ## Reading a sequence -/

/-- A sequence that is read from the elements of its source, without a veto. -/
theorem sequence_reads {kind : Sequence ρ} {readParts : List Part → Binding (List Value)}
    {w : Store} (source : scope.sourceOf? name = some w) (noValue : w.get? name = none)
    (indexed : S.Orderly .any .members w name Value (S.indexed enter kind name w))
    (inScope : run.scope = scope)
    (ran : S.sequence enter readParts kind name none run = (.ok v, after))
    (since : after.UnvetoedSince run) :
    ∃ start last, start.scope = w ∧ S.indexed enter kind name w start = (.ok v, last) ∧
      last.UnvetoedSince start := by
  let entry : LogEntry := ⟨.trace, "binding indexed elements", [("name", .text (toString name)),
    ("source", .text ("Some(" ++ Text.quoted (w.sources.headD "") ++ ")"))]⟩
  have opened : S.sequence enter readParts kind name none run =
      (Binding.log entry >>= fun _ =>
        Binding.scopedTo w (Binding.nested (S.indexed enter kind name w))) run := by
    refine (Binding.scope_bind _ run).trans ?_
    rw [inScope, source]
    dsimp only
    rw [noValue]
    rfl
  have inner : S.Orderly .any .node scope name Value
      (Binding.scopedTo w (Binding.nested (S.indexed enter kind name w))) :=
    .scopedTo source (.nested indexed)
  have logged : S.Orderly .any .node scope name Unit (Binding.log entry) := .log entry
  rcases logged.bind_parts (fun _ _ => inner) inScope (opened ▸ ran) since
    with ⟨_, middle, _, _, _, _, ranScoped, sinceScoped⟩
  rcases Binding.scopedTo_eq_ok ranScoped with ⟨begun, ended, inSource, began, ranNested, stopped⟩
  rcases Binding.nested_eq_ok ranNested with ⟨start, last, same, beganToo, ranIndexed, stoppedToo⟩
  have kept : start.scope = w := same.trans inSource
  exact ⟨start, last, kept, ranIndexed, indexed.unvetoed kept ranIndexed sinceScoped
    (beganToo.trans began) (stoppedToo.trans stopped)⟩

/-- A sequence that is read from the parts of a value. -/
theorem sequence_splits {kind : Sequence ρ} {readParts : List Part → Binding (List Value)}
    (direct : ∀ w, scope.sourceOf? name = some w → (w.get? name).isSome = true)
    (inScope : run.scope = scope) :
    S.sequence enter readParts kind name none run = S.delimited readParts kind name none run := by
  refine (Binding.scope_bind _ run).trans ?_
  rw [inScope]
  cases source : scope.sourceOf? name with
  | none => rfl
  | some w => exact congrFun (if_pos (direct w source)) run

/-- What a sequence of a fixed length is bound from, wherever it is read. -/
theorem Takes.fixedFrom (draws : scope.Draws S.sources)
    (owned : ∀ part ∈ given, name.Same part.property.name)
    (takes : S.Takes declarations scope (.fixed shape targets) name given v) :
    ∃ items, v = .list items ∧ S.FixedFrom declarations scope targets name given items := by
  rcases takes with ⟨run, after, inScope, ran, since⟩
  let enter := S.readWithin declarations S.sources.height
  let readParts := S.readEach declarations enter targets name
  let kind := Sequence.fixed (Target.label declarations (.fixed shape targets)) shape targets
  have opened : S.read declarations enter (.fixed shape targets) name given =
      S.sequence enter readParts kind name given := by
    rw [read]
  rw [opened] at ran
  cases given with
  | some part =>
      have split : S.sequence enter readParts kind name (some part) =
          S.delimited readParts kind name (some part) := rfl
      rw [split] at ran
      rcases delimited_fixed owned inScope ran since
        with ⟨whole, items, rfl, parts, same | ⟨none, _⟩⟩
      · cases same
        exact ⟨items, rfl, .given parts⟩
      · cases none
  | none =>
      by_cases nested : ∃ w, scope.sourceOf? name = some w ∧ w.get? name = none
      · rcases nested with ⟨w, source, noValue⟩
        have drawn := draws.sourceOf? source
        have indexed : S.Orderly .any .members w name Value
            (S.indexed enter kind name w) :=
          indexed_orderly kind fun _ _ target _ _ => S.readWithin_bindsMember _ target _ drawn
        rcases sequence_reads source noValue indexed inScope ran since
          with ⟨start, last, kept, ranIndexed, sinceIndexed⟩
        rcases indexed_fixed drawn kept ranIndexed sinceIndexed with ⟨items, rfl, fits, each⟩
        exact ⟨items, rfl, .elements source noValue fits each⟩
      · have direct : ∀ w, scope.sourceOf? name = some w → (w.get? name).isSome = true :=
          fun w source => Option.isSome_iff_ne_none.mpr fun noValue => nested ⟨w, source, noValue⟩
        rw [sequence_splits direct inScope] at ran
        rcases delimited_fixed owned inScope ran since
          with ⟨whole, items, rfl, parts, impossible | ⟨_, effective, resolved⟩⟩
        · cases impossible
        · rcases Store.exists_sourceOf?_of_get? effective direct with ⟨w, source, found⟩
          exact ⟨items, rfl, .value source found resolved parts⟩

theorem Takes.fixed (draws : scope.Draws S.sources)
    (owned : ∀ part ∈ given, name.Same part.property.name)
    (takes : S.Takes declarations scope (.fixed shape targets) name given v) :
    ∃ items, v = .list items ∧ items.length = targets.length ∧
      S.FixedFrom declarations scope targets name given items := by
  rcases takes.fixedFrom draws owned with ⟨items, made, origin⟩
  exact ⟨items, made, origin.length_eq, origin⟩

variable {w : Store} {p : Property} {text : String}

/-- A source without a value at the name has exactly the elements. -/
theorem FixedFrom.fits (origin : S.FixedFrom declarations scope targets name none items)
    (source : scope.sourceOf? name = some w) (noValue : w.get? name = none) :
    w.Fits name targets.length := by
  cases origin with
  | elements sourceToo _ fits _ => exact Option.some.inj (sourceToo.symm.trans source) ▸ fits
  | value sourceToo found _ _ =>
      cases sourceToo.symm.trans source
      cases noValue.symm.trans found

/-- A value at the name in the source has enough parts. -/
theorem FixedFrom.enough (origin : S.FixedFrom declarations scope targets name none items)
    (source : scope.sourceOf? name = some w) (found : w.get? name = some p)
    (resolved : S.sources.resolve p.value = .ok text) :
    targets.length ≤ (Conversion.parts text).length := by
  cases origin with
  | elements sourceToo noValue _ _ =>
      cases sourceToo.symm.trans source
      cases noValue.symm.trans found
  | value sourceToo foundToo resolvedToo parts =>
      cases sourceToo.symm.trans source
      cases foundToo.symm.trans found
      cases resolvedToo.symm.trans resolved
      exact parts.enough

end Reading

end Session

/-! ## Scalars in one value -/

/-- The values that texts stand for, each for the target in the same place. -/
def Target.ofTexts (targets : List (Target ρ)) (texts : List String) : Option (List Value) :=
  (targets.zip texts).mapM fun piece => piece.1.ofText piece.2

theorem Target.length_ofTexts {targets : List (Target ρ)} {texts : List String}
    {items : List Value} (all : Target.ofTexts targets texts = some items) :
    items.length = min targets.length texts.length := by
  rw [length_of_mapM all, List.length_zip]

namespace Session

open Binding

variable {S : Session} {declarations : Declarations ρ} {scope w : Store} {name : Name}
  {targets : List (Target ρ)} {shape : FixedShape} {enter : Enter ρ} {p : Property}

/-- Scalars are made from the parts in the same places. -/
theorem readEach_makes (scalar : ∀ target ∈ targets, target.Scalar) (texts : List String) :
    Makes scope (S.readEach declarations enter targets name (texts.map fun text => ⟨text, p⟩))
      (Target.ofTexts targets texts) := by
  unfold Target.ofTexts
  induction targets generalizing texts with
  | nil => cases texts <;> exact .pure []
  | cons target rest inductionHypothesis =>
      cases texts with
      | nil => exact .pure []
      | cons text others =>
          have given : ∀ label,
              Makes scope (S.scalar name (some ⟨text, p⟩) label) (some ⟨text, p⟩) :=
            fun _ => .pure _
          have first : Makes scope (S.read declarations enter target name (some ⟨text, p⟩))
              (target.ofText text) :=
            read_makes (scalar target List.mem_cons_self) enter rfl given
          have later :=
            inductionHypothesis (fun t listed => scalar t (List.mem_cons_of_mem _ listed)) others
          rw [List.zip_cons_cons, List.mapM_cons, List.map_cons, readEach]
          exact first.bind fun item _ => later.bind fun items _ => .pure (item :: items)

/-- There is an item for each part that is read, so too few parts make too few items. -/
theorem assemble_fixed_makes {label : String} {announced : Option Nat} {items : List Value}
    {count : Nat} (counted : items.length = min targets.length count) :
    Makes scope (Binding.ofMismatch ((Sequence.fixed label shape targets).assemble announced items))
      (if targets.length ≤ count then some (.list items) else none) := by
  let kind := Sequence.fixed label shape targets
  by_cases enough : targets.length ≤ count
  · have taken : kind.assemble announced items = .ok (.list items) := if_neg (by omega)
    rw [if_pos enough]
    exact taken ▸ .pure _
  · have refused : kind.assemble announced items = .error _ := if_pos (by omega)
    rw [if_neg enough]
    exact refused ▸ .mismatch _

/-- A sequence of scalars of a fixed length is made from the first parts of a value, if there
are enough. -/
theorem fixed_node_makes (scalar : ∀ target ∈ targets, target.Scalar)
    (source : scope.sourceOf? name = some w) (found : w.get? name = some p)
    (plain : '$' ∉ p.value.toList) :
    Makes scope (S.node declarations (.fixed shape targets) name)
      (if targets.length ≤ (Conversion.parts p.value).length then
        (Target.ofTexts targets (Conversion.parts p.value)).map .list
      else none) := by
  let enter := S.readWithin declarations S.sources.height
  let readParts := S.readEach declarations enter targets name
  let kind := Sequence.fixed (Target.label declarations (.fixed shape targets)) shape targets
  let texts := Conversion.parts p.value
  have effective : scope.get? name = some p := Store.get?_of_sourceOf? source found
  have parts : Makes scope (readParts (texts.map fun text => ⟨text, p⟩))
      (Target.ofTexts targets texts) := readEach_makes scalar texts
  have scalars : Makes scope (S.scalar name none kind.label) (some ⟨p.value, p⟩) :=
    .of_gives (scalar_gives effective plain)
  have delimited : Makes scope (S.delimited readParts kind name none) _ :=
    scalars.after (parts.bind fun items all => assemble_fixed_makes (Target.length_ofTexts all))
  have opened : S.node declarations (.fixed shape targets) name =
      S.sequence enter readParts kind name none := read.eq_def ..
  have made : (if targets.length ≤ texts.length then (Target.ofTexts targets texts).map .list
      else none) = (Target.ofTexts targets texts).bind fun items =>
        if targets.length ≤ texts.length then some (Value.list items) else none := by
    split
    · exact Option.map_eq_bind
    · exact (Option.bind_fun_none _).symm
  rw [opened, made]
  intro run inScope
  have direct : ∀ other, scope.sourceOf? name = some other → (other.get? name).isSome = true := by
    intro other same
    cases source.symm.trans same
    exact Option.isSome_of_mem found
  rw [sequence_splits direct inScope]
  exact delimited run inScope

end Session

/-! ## Whole runs -/

namespace Binder

variable {b : Binder ρ} {n : Name} {shape : FixedShape} {targets : List (Target ρ)}
  {existing : Bool}

/-- When a sequence of a fixed length is bound and nothing has been vetoed, there is an item for
each target, and the source of the sequence has what the items are bound from.  If it has no
value at the name, it has an element for each target and no further ones, and otherwise binding
fails.  If it has a value, there are at least as many parts as targets, and otherwise binding
fails.  Parts beyond the targets are passed over.  The same holds wherever such a sequence is
read, at the name of a member or from a part of a value. -/
theorem bindAt_fixed (b : Binder ρ) (shape : FixedShape) (targets : List (Target ρ)) (n : Name)
    (existing : Bool)
    (unvetoed : Unvetoed (callsOf (b.bindAt (.fixed shape targets) n existing).history)) :
    let S := b.session (.fixed shape targets)
    let result := (b.bindAt (.fixed shape targets) n existing).result
    (∀ v, result = .ok (some v) → ∃ items, v = .list items ∧ items.length = targets.length ∧
      S.FixedFrom b.declarations b.sources targets n none items) ∧
    (∀ w, b.sources.sourceOf? n = some w → w.get? n = none → ¬ w.Fits n targets.length →
      ∃ e, result = .error e) ∧
    (∀ w p text, b.sources.sourceOf? n = some w → w.get? n = some p →
      b.sources.resolve p.value = .ok text → (Conversion.parts text).length < targets.length →
        ∃ e, result = .error e) ∧
    ∀ (T : Session) (scope : Store) (name : Name) (given : Option Part) (v : Value),
      scope.Draws T.sources → (∀ part ∈ given, name.Same part.property.name) →
      T.Takes b.declarations scope (.fixed shape targets) name given v →
        ∃ items, v = .list items ∧ items.length = targets.length ∧
          T.FixedFrom b.declarations scope targets name given items := by
  intro S result
  have atRoot : ∀ v, result = .ok (some v) → ∃ items, v = .list items ∧
      items.length = targets.length ∧
        S.FixedFrom b.declarations b.sources targets n none items := by
    intro v bound
    have takes : S.Takes b.declarations b.sources (.fixed shape targets) n none v :=
      bindAt_binds bound unvetoed
    exact takes.fixed (.refl b.sources) fun _ impossible => by cases impossible
  have fails : ∀ w, b.sources.sourceOf? n = some w →
      (∀ items, ¬ S.FixedFrom b.declarations b.sources targets n none items) →
        ∃ e, result = .error e := by
    intro w source none
    have there := (b.sources.isSome_sourceOf?_iff n).mp (Option.isSome_of_mem source)
    rcases bindAt_bound_or_failed there unvetoed with ⟨v, bound⟩ | failed
    · rcases atRoot v bound with ⟨items, _, _, origin⟩
      exact absurd origin (none items)
    · exact failed
  refine ⟨atRoot, fun w source noValue unfit => ?_, fun w p text source found resolved short => ?_,
    fun T scope name given v draws owned takes => takes.fixed draws owned⟩
  · exact fails w source fun items origin => unfit (origin.fits source noValue)
  · exact fails w source fun items origin =>
      Nat.not_le_of_lt short (origin.enough source found resolved)

/-- Two numbers from elements, of which another source has more, and two numbers of which
their own source has one too many. -/
theorem bindAt_fixed_elements :
    let range := Name.root.child "range"
    let origin := Name.root.child "origin"
    let number (name : Name) (value : String) := Property.mk name value ⟨"file", toString name⟩
    let other := Layer.ofList "defaults" [number (range.childAt 2) "8"]
    let layer := Layer.ofList "file" [number (range.childAt 0) "1", number (range.childAt 1) "9",
      number (origin.childAt 0) "1", number (origin.childAt 1) "2", number (origin.childAt 2) "3"]
    let declarations : Declarations Empty := ⟨(nomatch ·), (nomatch ·)⟩
    let b := Binder.mk ⟨[other, layer]⟩ (Provided.chain [.tracing]) declarations
    let targets : List (Target Empty) := [.whole ⟨false, 8⟩, .whole ⟨false, 16⟩]
    let S := b.session (.fixed .tuple targets)
    (∃ items, (b.bindAt (.fixed .tuple targets) range false).result = .ok (some (.list items)) ∧
      items.length = 2 ∧ S.FixedFrom declarations b.sources targets range none items) ∧
      ∃ e, (b.bindAt (.fixed .tuple targets) origin false).result = .error e := by
  intro range origin number other layer declarations b targets S
  have unvetoed : ∀ n, Unvetoed (callsOf (b.bindAt (.fixed .tuple targets) n false).history) :=
    fun n => bindAt_unvetoed (fun _ => rfl) _ n false
  have isBound : (b.bindAt (.fixed .tuple targets) range
      false).result.toOption.join.isSome = true := by decide +kernel
  rcases exists_bound isBound with ⟨v, bound⟩
  rcases bindAt_fixed b .tuple targets range false (unvetoed range) with ⟨atRoot, _⟩
  rcases atRoot v bound with ⟨items, rfl, length, taken⟩
  have highest : Store.Highest b.sources origin layer :=
    ⟨[other], [], rfl, Layer.contains_iff.mp (by decide +kernel), fun _ later => by cases later⟩
  have third : origin.childAt 2 ∈ (Store.single layer).children origin := by decide +kernel
  rcases bindAt_fixed b .tuple targets origin false (unvetoed origin) with ⟨_, fails, _⟩
  refine ⟨⟨items, bound, length, taken⟩, fails _ highest.sourceOf? (by decide +kernel) ?_⟩
  exact fun fits => fits.only _ third ⟨2, by decide +kernel, le_rfl⟩

/-- Under the handler that accepts everything, a sequence of scalars that is written in one
value becomes the list of what its first parts stand for, one for each target.  Binding fails
if there are too few parts or if one of these parts stands for nothing. -/
theorem bindAt_fixed_value {w : Store} {p : Property} (accepting : b.handler = .accepting)
    (scalar : ∀ target ∈ targets, target.Scalar) (source : b.sources.sourceOf? n = some w)
    (found : w.get? n = some p) (plain : '$' ∉ p.value.toList) (existing : Bool) :
    (b.bindAt (.fixed shape targets) n existing).result.toOption =
      if targets.length ≤ (Conversion.parts p.value).length then
        (Target.ofTexts targets (Conversion.parts p.value)).map fun items => some (.list items)
      else none := by
  have there := (b.sources.isSome_sourceOf?_iff n).mp (Option.isSome_of_mem source)
  have node : Binding.Makes b.sources
      ((b.session (.fixed shape targets)).node b.declarations (.fixed shape targets) n) _ :=
    Session.fixed_node_makes scalar source found plain
  rw [bindAt_of_makes accepting there node existing]
  split
  · exact Option.map_map _ _ _
  · rfl

/-- The last of four numbers is lost when three are asked for. -/
theorem tuple_drops_surplus :
    let l := Name.root.child "l"
    let p := Property.mk l "1,2,3,4" ⟨"test", "l"⟩
    let w := Store.single (.ofList "test" [p])
    let declarations : Declarations Empty := ⟨(nomatch ·), (nomatch ·)⟩
    let byte : Target Empty := .whole ⟨false, 8⟩
    let outcome := (Binder.plain w declarations).bindAt (.fixed .tuple [byte, byte, byte]) l false
    w.sourceOf? l = some w ∧ w.get? l = some p ∧ Unvetoed (callsOf outcome.history) ∧
      (Conversion.parts p.value).length = 4 ∧
      outcome.result.toOption =
        some (some (.list [.whole ⟨false, 8⟩ 1, .whole ⟨false, 8⟩ 2, .whole ⟨false, 8⟩ 3])) := by
  intro l p w declarations byte outcome
  have source : w.sourceOf? l = some w := Store.sourceOf?_single (by decide +kernel)
  have found : w.get? l = some p := by decide +kernel
  have scalar : ∀ target ∈ [byte, byte, byte], target.Scalar := by
    intro target listed
    have same : target = byte := by simpa using listed
    exact same ▸ trivial
  have parts : Conversion.parts p.value = ["1", "2", "3", "4"] := by decide +kernel
  have bound : outcome.result.toOption = _ :=
    bindAt_fixed_value rfl scalar source found (by decide) false
  have one : byte.ofText "1" = some (.whole ⟨false, 8⟩ 1) := rfl
  have two : byte.ofText "2" = some (.whole ⟨false, 8⟩ 2) := rfl
  have three : byte.ofText "3" = some (.whole ⟨false, 8⟩ 3) := rfl
  have values : Target.ofTexts [byte, byte, byte] ["1", "2", "3", "4"] =
      some [.whole ⟨false, 8⟩ 1, .whole ⟨false, 8⟩ 2, .whole ⟨false, 8⟩ 3] := by
    simp [Target.ofTexts, one, two, three]
  rw [parts, values] at bound
  rw [parts]
  exact ⟨source, found, bindAt_unvetoed (fun _ => rfl) _ l false, rfl, bound⟩

end Binder
end PropertyBinding
