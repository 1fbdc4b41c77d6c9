import PropertyBinding.Proofs.Store.Under
import PropertyBinding.Proofs.Bind.Simulation

/-!
# A list comes whole from one source

Records and maps are put together from all sources, lists are not.  A list is what the
highest source makes of it that has anything at its name or below: binding it over the
whole store is binding it over a store of this source alone.

The two ways to write a list are read differently.  Elements at positions are read with
the one source in scope, so there both runs have the same in scope, whatever the elements
are.  The parts of a value with commas are read while the whole store is still in scope.
That they agree nevertheless is because the highest source with anything there also has
the effective value, and because scalars are bound to their parts and look no further.
-/

namespace PropertyBinding

/-! ## The highest source -/

namespace Store

variable {s : Store} {l : Layer} {n : Name}

/-- A layer is the highest of a store with a value at a name or below it. -/
def Highest (s : Store) (n : Name) (l : Layer) : Prop :=
  ∃ lower higher, s.layers = lower ++ l :: higher ∧ (∃ p ∈ l.properties, n.Leads p.name) ∧
    ∀ m ∈ higher, ∀ p ∈ m.properties, ¬ n.Leads p.name

theorem layerOf?_eq_some_iff : s.layerOf? n = some l ↔ s.Highest n l := by
  have lacks : ∀ m : Layer, (!m.contains n) = true ↔ ∀ p ∈ m.properties, ¬ n.Leads p.name := by
    intro m
    rw [Bool.not_eq_true', ← Bool.not_eq_true, Layer.contains_iff]
    exact ⟨fun absent p listed leads => absent ⟨p, listed, leads⟩,
      fun absent ⟨p, listed, leads⟩ => absent p listed leads⟩
  unfold layerOf?
  rw [find?_reverse_eq_some_iff, Layer.contains_iff]
  constructor
  · rintro ⟨holds, lower, higher, split, above⟩
    exact ⟨lower, higher, split, holds, fun m listed => (lacks m).mp (above m listed)⟩
  · rintro ⟨lower, higher, split, holds, above⟩
    exact ⟨holds, lower, higher, split, fun m listed => (lacks m).mpr (above m listed)⟩

theorem get?_single (l : Layer) (n : Name) : (single l).get? n = l.get? n := by
  unfold get? single
  cases found : l.get? n <;> simp [found]

/-- A store of one layer is its own source wherever it has anything. -/
theorem sourceOf?_single (there : (single l).contains n = true) :
    (single l).sourceOf? n = some (single l) := by
  have holds : l.contains n = true := by simpa [Store.contains, single] using there
  simp [Store.sourceOf?, layerOf?, single, holds]

theorem contains_single (l : Layer) (n : Name) : (single l).contains n = l.contains n := by
  simp [Store.contains, single]

/-- The last layer of a store is the highest wherever it has anything. -/
theorem highest_concat (lower : List Layer) (there : (single l).contains n = true) :
    Highest ⟨lower ++ [l]⟩ n l :=
  ⟨lower, [], rfl, Layer.contains_iff.mp (contains_single l n ▸ there), List.forall_mem_nil _⟩

/-- A layer under one that has nothing is the highest if it has anything. -/
theorem highest_under {above : Layer} (there : (single l).contains n = true)
    (nothing : ¬ (single above).contains n = true) : Highest ⟨[l, above]⟩ n l := by
  rw [contains_single, Layer.contains_iff] at nothing
  refine ⟨[], [above], rfl, Layer.contains_iff.mp (contains_single l n ▸ there), ?_⟩
  exact List.forall_mem_singleton.mpr fun p listed leads => nothing ⟨p, listed, leads⟩

theorem eq_single_of_sourceOf? {source : Store} (found : (single l).sourceOf? n = some source) :
    source = single l := by
  rcases Option.map_eq_some_iff.mp found with ⟨m, layer, rfl⟩
  have listed : m ∈ [l] := List.mem_reverse.mp (List.mem_of_find?_eq_some layer)
  rw [List.mem_singleton.mp listed]

namespace Highest

theorem mem_layers (highest : s.Highest n l) : l ∈ s.layers := by
  rcases highest with ⟨lower, higher, split, _⟩
  rw [split]
  exact List.mem_append_right lower List.mem_cons_self

theorem draws (highest : s.Highest n l) : (single l).Draws s := by
  intro m listed
  rw [List.mem_singleton.mp listed]
  exact highest.mem_layers

theorem contains (highest : s.Highest n l) : s.contains n = true := by
  have layer := highest.mem_layers
  rcases highest with ⟨_, _, _, ⟨p, listed, leads⟩, _⟩
  exact contains_iff.mpr ⟨p, mem_properties.mpr ⟨l, layer, listed⟩, leads⟩

theorem sourceOf? (highest : s.Highest n l) : s.sourceOf? n = some (single l) := by
  rw [Store.sourceOf?, layerOf?_eq_some_iff.mpr highest, Option.map_some]

theorem single (highest : s.Highest n l) : (single l).Highest n l := by
  rcases highest with ⟨_, _, _, holds, _⟩
  exact ⟨[], [], rfl, holds, fun _ impossible => by cases impossible⟩

/-- A value of the highest source is the effective one. -/
theorem get? (highest : s.Highest n l) {p : Property} (found : l.get? n = some p) :
    s.get? n = some p := by
  rcases highest with ⟨lower, higher, split, _, above⟩
  have nothing : higher.reverse.findSome? (·.get? n) = none := by
    rw [List.findSome?_eq_none_iff]
    intro m listed
    cases foundAbove : m.get? n with
    | none => rfl
    | some q =>
        rcases Layer.get?_eq_some_iff.mp foundAbove with ⟨member, same⟩
        exact absurd same.leads (above m (List.mem_reverse.mp listed) q member)
  have topDown : s.layers.reverse = higher.reverse ++ l :: lower.reverse := by
    simp only [split, List.reverse_append, List.reverse_cons, List.append_assoc,
      List.singleton_append]
  rw [Store.get?, topDown, List.findSome?_append, nothing, Option.none_or, List.findSome?_cons,
    found]

end Highest

end Store

/-! ## Scalars -/

/-- A target that is bound to a text and asks for nothing but this. -/
def Target.Scalar {ρ : Type} : Target ρ → Prop
  | .truth => True
  | .whole _ => True
  | .float _ => True
  | .char => True
  | .text => True
  | .bytes => True
  | .variant _ => True
  | .option target => target.Scalar
  | .wrapper _ target => target.Scalar
  | .boxed target => target.Scalar
  | _ => False

/-- What holds of the scalar targets that convert a text holds of options, wrappers and boxes
around them, and so of all scalar targets. -/
theorem Target.Scalar.induction {ρ : Type} {motive : (target : Target ρ) → target.Scalar → Prop}
    (truth : motive .truth trivial) (whole : ∀ type, motive (.whole type) trivial)
    (float : ∀ format, motive (.float format) trivial) (char : motive .char trivial)
    (text : motive .text trivial) (bytes : motive .bytes trivial)
    (variant : ∀ enumeration, motive (.variant enumeration) trivial)
    (option : ∀ target (scalar : target.Scalar), motive target scalar →
      motive (.option target) scalar)
    (wrapper : ∀ label target (scalar : target.Scalar), motive target scalar →
      motive (.wrapper label target) scalar)
    (boxed : ∀ target (scalar : target.Scalar), motive target scalar →
      motive (.boxed target) scalar) (target : Target ρ) (scalar : target.Scalar) :
    motive target scalar :=
  match target, scalar with
  | .truth, _ => truth
  | .whole type, _ => whole type
  | .float format, _ => float format
  | .char, _ => char
  | .text, _ => text
  | .bytes, _ => bytes
  | .variant enumeration, _ => variant enumeration
  | .option target, scalar => option target scalar
      (induction truth whole float char text bytes variant option wrapper boxed target scalar)
  | .wrapper label target, scalar => wrapper label target scalar
      (induction truth whole float char text bytes variant option wrapper boxed target scalar)
  | .boxed target, scalar => boxed target scalar
      (induction truth whole float char text bytes variant option wrapper boxed target scalar)

open Binding

variable {γ : Type} {view : Event → Option γ} {low : Nat} {ρ : Type} {declarations : Declarations ρ}
  {S T : Session}

/-- What a scalar makes of a part of a value does not depend on the sources. -/
theorem Target.Scalar.read_matches {target : Target ρ} (scalar : target.Scalar) {s t : Store}
    {enter otherEnter : Enter ρ} (name : Name) (part : Part) :
    Matches view low s t (S.read declarations enter target name (some part))
      (T.read declarations otherEnter target name (some part)) := by
  have given : ∀ label, Matches view low s t (S.scalar name (some part) label)
      (T.scalar name (some part) label) := fun _ => .pure part
  induction target, scalar using Target.Scalar.induction with
  | truth => exact ((given _).convert _).map _
  | whole type => exact ((given _).convert _).map _
  | float format => exact ((given _).convert _).map _
  | char => exact ((given _).convert _).map _
  | text => exact (given _).text.map _
  | bytes => exact (given _).text.bind fun text => .pure _
  | variant enumeration => exact (given _).variant
  | option target scalar inner => exact inner.map _
  | wrapper label target scalar inner => exact inner
  | boxed target scalar inner => exact inner

/-! ## Within one source -/

/-- Sessions agree while one source that both have is in scope. -/
theorem Session.agrees_within {l : Layer} {n : Name} (alike : S.Alike view n.Leads T low)
    (draws : (Store.single l).Draws S.sources) (drawsToo : (Store.single l).Draws T.sources)
    (plain : (Store.single l).PlainUnder n) :
    S.Agrees view low n.Leads (fun a b => a = .single l ∧ b = .single l) True True T where
  toAlike := alike
  near_child := fun there parent => there.trans parent.2
  get? := by
    rintro _ _ _ ⟨rfl, rfl⟩ _
    rfl
  resolve := by
    rintro _ _ _ _ ⟨rfl, rfl⟩ there found
    rw [plain.resolve there found, plain.resolve there found]
  contains := by
    rintro _ _ _ ⟨rfl, rfl⟩ _
    rfl
  size_le := by
    rintro _ _ n ⟨rfl, rfl⟩ _ holds
    exact ⟨Store.size_le_height_of_contains (draws.contains holds),
      Store.size_le_height_of_contains (drawsToo.contains holds)⟩
  children := by
    rintro _ _ _ _ ⟨rfl, rfl⟩ _
    rfl
  below := by
    rintro _ _ _ _ ⟨rfl, rfl⟩ _
    rfl
  sourceOf? := by
    rintro _ _ _ n ⟨rfl, rfl⟩ _
    cases found : (Store.single l).sourceOf? n with
    | none => exact .none
    | some source =>
        have same := Store.eq_single_of_sourceOf? found
        exact .some ⟨⟨same, same⟩, fun _ => rfl⟩

/-- Binding a list matches binding it over its source alone. -/
theorem Session.list_matches {l : Layer} {n : Name} {target : Target ρ}
    (highest : S.sources.Highest n l)
    (agrees : S.Agrees view low n.Leads (fun a b => a = .single l ∧ b = .single l) True True T)
    (plain : (Store.single l).PlainUnder n) (element : (l.get? n).isSome = true → target.Scalar) :
    Matches view (low - 1) S.sources (.single l)
      (S.readWithin declarations (S.sources.height + 1) (.list target) n)
      (T.readWithin declarations (T.sources.height + 1) (.list target) n) := by
  have here : n.Leads n := (Name.same_refl n).leads
  refine Matches.sequenceFrom highest.sourceOf? highest.single.sourceOf? (fun _ => rfl) rfl ?_ ?_
  · intro value
    rw [Store.get?_single] at value
    rcases Option.isSome_iff_exists.mp value with ⟨p, found⟩
    have effective := highest.get? found
    have alone : (Store.single l).get? n = some p := (Store.get?_single l n).trans found
    refine Matches.delimited (.scalar none _ (effective.trans alone.symm) fun q same => ?_)
      fun parts => .each (fun part => (element value).read_matches n part) parts
    rw [effective.symm.trans same] at alone
    rw [plain.resolve here alone, plain.resolve here alone]
  · refine agrees.indexed ⟨rfl, rfl⟩ here ⟨trivial, trivial⟩ _ fun available u wanted => ?_
    rw [List.eq_of_mem_replicate wanted]
    intro a b child inScope parent holds
    have below := agrees.near_child here parent
    refine agrees.readWithin _ _ inScope below target holds ?_ ?_ fun u _ => u.asks_true
    · rw [parent.1]
      omega
    · rw [parent.1]
      omega

/-! ## Binders -/

/-- A handler that never looks at the sources. -/
def Handler.Oblivious (handler : Handler) : Prop :=
  ∀ (near : Name → Prop) (s t : Store), handler.Blind near s t

theorem Handler.accepting_oblivious : Handler.accepting.Oblivious :=
  fun _ _ _ => Handler.accepting_blind

theorem Handler.Oblivious.observing {parent : Handler} (oblivious : parent.Oblivious)
    (observer : String) (policy : Policy) :
    (Handler.observing observer policy parent).Oblivious := by
  intro near s t
  rcases oblivious near s t with ⟨started, succeeded, failed, finished⟩
  refine ⟨fun visit there => ?_, fun visit there => ?_, fun visit e there => ?_,
    fun visit there => ?_⟩
  · simp only [Handler.observing, started visit there]
  · simp only [Handler.observing, succeeded visit there]
  · simp only [Handler.observing, failed visit _ there]
  · simp only [Handler.observing, finished visit there]

namespace Binder

/-- Binding a list over a store comes to the same as binding it over its highest source
with anything at the name or below, in every respect: the value or the error, the
properties used, and all that is asked and logged on the way.  Nothing that other sources
have at the name or below it shows through. -/
theorem bindAt_list {s : Store} {l : Layer} {n : Name} (highest : s.Highest n l)
    (plain : (Store.single l).PlainUnder n) {handler : Handler} (oblivious : handler.Oblivious)
    (declarations : Declarations ρ) {target : Target ρ}
    (element : (l.get? n).isSome = true → target.Scalar) (existing : Bool) :
    (Binder.mk s handler declarations).bindAt (.list target) n existing =
      (Binder.mk (.single l) handler declarations).bindAt (.list target) n existing := by
  let b := Binder.mk s handler declarations
  let c := Binder.mk (.single l) handler declarations
  have alike : (b.session (.list target)).Alike some n.Leads (c.session (.list target)) :=
    (oblivious n.Leads s (.single l)).alike _
  have agrees := Session.agrees_within alike highest.draws (.refl _) plain
  apply bindAt_eq_of_matches (b := b) (c := c) agrees.toAlike (Name.same_refl n).leads existing
    (highest.contains.trans highest.single.contains.symm)
  exact fun _ => Session.list_matches highest agrees plain element

/-- A list of records and a list of numbers, of both of which the lower source has more
than the higher one. -/
theorem bindAt_list_servers :
    let servers := Name.root.child "servers"
    let ports := Name.root.child "ports"
    let host (i : Nat) := (servers.childAt i).child "host"
    let file := Layer.ofList "file" [⟨host 0, "a", ⟨"file", "servers[0].host"⟩⟩,
      ⟨(servers.childAt 0).child "port", "80", ⟨"file", "servers[0].port"⟩⟩,
      ⟨host 1, "b", ⟨"file", "servers[1].host"⟩⟩, ⟨ports.childAt 2, "3", ⟨"file", "ports[2]"⟩⟩]
    let override := Layer.ofList "override" [⟨host 0, "c", ⟨"override", "servers[0].host"⟩⟩,
      ⟨ports, "1, 2", ⟨"override", "ports"⟩⟩]
    let declarations : Declarations Unit := ⟨fun _ => ⟨"app::Server", "Server",
      [⟨"host", "host", ["host"], .text, .missing⟩,
        ⟨"port", "port", ["port"], .option (.whole ⟨false, 16⟩), .missing⟩]⟩, fun _ => .unit⟩
    let handler := Handler.observing "observer" ⟨fun visit => visit.depth == 3,
      fun _ _ => none, fun _ => none⟩ .accepting
    Store.Highest ⟨[file, override]⟩ servers override ∧
      Store.Highest ⟨[file, override]⟩ ports override ∧
      (Binder.mk ⟨[file, override]⟩ handler declarations).bindAt (.list (.record ())) servers
          false =
        (Binder.mk (.single override) handler declarations).bindAt (.list (.record ())) servers
          false ∧
      (Binder.mk ⟨[file, override]⟩ handler declarations).bindAt (.list (.whole ⟨false, 16⟩)) ports
          false =
        (Binder.mk (.single override) handler declarations).bindAt (.list (.whole ⟨false, 16⟩))
          ports false := by
  intro servers ports host file override declarations handler
  have oblivious : handler.Oblivious := Handler.accepting_oblivious.observing _ _
  have elements : Store.Highest ⟨[file, override]⟩ servers override :=
    ⟨[file], [], rfl, Layer.contains_iff.mp (by decide +kernel), fun _ later => by cases later⟩
  have commas : Store.Highest ⟨[file, override]⟩ ports override :=
    ⟨[file], [], rfl, Layer.contains_iff.mp (by decide +kernel), fun _ later => by cases later⟩
  have noValue : ¬ (override.get? servers).isSome = true := by decide +kernel
  have scalar : (Target.whole ⟨false, 16⟩ : Target Unit).Scalar := trivial
  refine ⟨elements, commas, ?_, ?_⟩
  · exact bindAt_list elements (by decide +kernel) oblivious declarations
      (fun value => absurd value noValue) false
  · exact bindAt_list commas (by decide +kernel) oblivious declarations (fun _ => scalar) false

end Binder

end PropertyBinding
