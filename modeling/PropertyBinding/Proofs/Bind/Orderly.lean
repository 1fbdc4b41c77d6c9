import PropertyBinding.Bind.Binder
import PropertyBinding.Proofs.Store.Children

/-!
# What binding a node consists of

A target of any shape is bound by few kinds of steps.  At a node binding may look at
the sources in scope, use the property there, fail, read from a single source or go
one level deeper, to the members.  At a member it asks the handler, and if the
member is accepted it is bound as a node of its own and closed.  There is one other
way to go on: the member's key may be refused after the member has been accepted.

Which members a node may have, and which target is bound at each, is seen from its target
alone, and so are the refusals.  `Orderly` says all this once.  That binding a target is
orderly takes one case for each shape of target; what holds of every run is then shown
by induction over the kinds of steps, without looking at targets again.
-/

namespace PropertyBinding

/-! ## Steps one after another -/

namespace Binding

variable {α β : Type}

theorem bind_of_ok {step : Binding α} {next : α → Binding β} {run after : Run} {a : α}
    (ran : step run = (.ok a, after)) : (step >>= next) run = next a after := by
  change bind step next run = next a after
  simp only [bind, ran]

theorem bind_of_error {step : Binding α} {next : α → Binding β} {run after : Run} {e : BindError}
    (ran : step run = (.error e, after)) : (step >>= next) run = (.error e, after) := by
  change bind step next run = (.error e, after)
  simp only [bind, ran]

theorem scope_bind (next : Store → Binding β) (run : Run) :
    (scope >>= next) run = next run.scope run :=
  rfl

theorem ofMismatch_ok_bind (a : α) (next : α → Binding β) :
    ofMismatch (.ok a) >>= next = next a :=
  rfl

theorem ofMismatch_error_bind (m : Mismatch) (next : α → Binding β) :
    ofMismatch (.error m) >>= next = mismatch m :=
  rfl

theorem map_apply (f : α → β) (step : Binding α) (run : Run) :
    (f <$> step) run = ((step run).1.map f, (step run).2) := by
  change bind step (fun a => pure (f a)) run = _
  unfold bind
  rcases step run with ⟨outcome, after⟩
  cases outcome <;> rfl

/-- A step can have a value. -/
def Yields (step : Binding α) (a : α) : Prop :=
  ∃ run after, step run = (.ok a, after)

theorem Yields.of_bind {step : Binding α} {next : α → Binding β} {b : β}
    (yields : (step >>= next).Yields b) : ∃ a, step.Yields a ∧ (next a).Yields b := by
  rcases yields with ⟨run, last, ran⟩
  rcases first : step run with ⟨outcome, middle⟩
  cases outcome with
  | ok a =>
      rw [bind_of_ok first] at ran
      exact ⟨a, ⟨run, middle, first⟩, middle, last, ran⟩
  | error e =>
      rw [bind_of_error first] at ran
      cases ran

end Binding

/-- Making a step for a node, telling the node that it has been bound, and asking whether it
may stand. -/
def Session.closed {α : Type} (S : Session) (name : Name) (slot : Slot) (step : Binding α) :
    Binding α := do
  let a ← step
  S.succeed name slot
  S.finish name slot
  return a

/-! ## Keys that are refused -/

/-- The keys of a record's fields in the order in which they are tried. -/
def Record.lookups {ρ : Type} (type : Record ρ) : List (Field ρ × String) :=
  type.fields.flatMap fun field => field.keys.map fun key => (field, key)

namespace Target

variable {ρ : Type} (declarations : Declarations ρ)

/-- A target is what another is made of, through any number of records. -/
inductive Occurs : Target ρ → Target ρ → Prop
  | self {t : Target ρ} : Occurs t t
  | option {t target : Target ρ} (inner : Occurs t target) : Occurs t (.option target)
  | wrapper {t target : Target ρ} {label : String} (inner : Occurs t target) :
      Occurs t (.wrapper label target)
  | boxed {t target : Target ρ} (inner : Occurs t target) : Occurs t (.boxed target)
  | list {t target : Target ρ} (inner : Occurs t target) : Occurs t (.list target)
  | set {t target : Target ρ} (inner : Occurs t target) : Occurs t (.set target)
  | fixed {t target : Target ρ} {shape : FixedShape} {targets : List (Target ρ)}
      (member : target ∈ targets) (inner : Occurs t target) : Occurs t (.fixed shape targets)
  | map {t target : Target ρ} {key : KeyType} (inner : Occurs t target) :
      Occurs t (.map key target)
  | counted {t target : Target ρ} {label : String} {request : Request} (inner : Occurs t target) :
      Occurs t (.counted label request target)
  | record {t : Target ρ} {name : ρ} {field : Field ρ}
      (member : field ∈ (declarations.record name).fields) (inner : Occurs t field.target) :
      Occurs t (.record name)

variable {declarations} in
theorem Occurs.trans {a b c : Target ρ} (first : Occurs declarations a b)
    (second : Occurs declarations b c) : Occurs declarations a c := by
  induction second with
  | self => exact first
  | option _ inductionHypothesis => exact .option inductionHypothesis
  | wrapper _ inductionHypothesis => exact .wrapper inductionHypothesis
  | boxed _ inductionHypothesis => exact .boxed inductionHypothesis
  | list _ inductionHypothesis => exact .list inductionHypothesis
  | set _ inductionHypothesis => exact .set inductionHypothesis
  | fixed member _ inductionHypothesis => exact .fixed member inductionHypothesis
  | map _ inductionHypothesis => exact .map inductionHypothesis
  | counted _ inductionHypothesis => exact .counted inductionHypothesis
  | record member _ inductionHypothesis => exact .record member inductionHypothesis

/-- Binding a target at a name may bind another one at a member of the name.  What is made of
parts of a value is bound at the name itself, as are options, wrappers and boxes, so it has
the members that it would have there alone. -/
inductive Member : Target ρ → Name → Target ρ → Name → Prop
  | element {target : Target ρ} {name : Name} (position : Nat) :
      Member (.list target) name target (name.childAt position)
  | setElement {target : Target ρ} {name : Name} (position : Nat) :
      Member (.set target) name target (name.childAt position)
  | item {shape : FixedShape} {targets : List (Target ρ)} {target : Target ρ} {name : Name}
      {position : Nat} (listed : targets[position]? = some target) :
      Member (.fixed shape targets) name target (name.childAt position)
  | entry {key : KeyType} {target : Target ρ} {name child : Name}
      (parent : name.IsParentOf child) : Member (.map key target) name target child
  | field {record : ρ} {field : Field ρ} {key : String} {name : Name}
      (listed : (field, key) ∈ (declarations.record record).lookups) :
      Member (.record record) name field.target (name.child key)
  | free {label : String} {name child : Name} (parent : name.IsParentOf child) :
      Member (.free label) name (.free label) child
  | counted {label : String} {request : Request} {target : Target ρ} {name child : Name}
      (parent : name.IsParentOf child) : Member (.counted label request target) name target child
  | option {target t : Target ρ} {name child : Name} (inner : Member target name t child) :
      Member (.option target) name t child
  | wrapper {label : String} {target t : Target ρ} {name child : Name}
      (inner : Member target name t child) : Member (.wrapper label target) name t child
  | boxed {target t : Target ρ} {name child : Name} (inner : Member target name t child) :
      Member (.boxed target) name t child
  | listPart {target t : Target ρ} {name child : Name} (inner : Member target name t child) :
      Member (.list target) name t child
  | setPart {target t : Target ρ} {name child : Name} (inner : Member target name t child) :
      Member (.set target) name t child
  | fixedPart {shape : FixedShape} {targets : List (Target ρ)} {target t : Target ρ}
      {name child : Name} (listed : target ∈ targets) (inner : Member target name t child) :
      Member (.fixed shape targets) name t child
  | countedPart {label : String} {request : Request} {target t : Target ρ} {name child : Name}
      (inner : Member target name t child) : Member (.counted label request target) name t child

/-- The nodes to which binding a target at a root may come, each with its target. -/
inductive Node (whole : Target ρ) (root : Name) : Target ρ → Name → Prop
  | root : Node whole root whole root
  | member {target t : Target ρ} {name child : Name} (inside : Node whole root target name)
      (member : Member declarations target name t child) : Node whole root t child

section

variable {declarations}

theorem Member.isParentOf {target t : Target ρ} {name child : Name}
    (member : Member declarations target name t child) : name.IsParentOf child := by
  induction member with
  | element | setElement | item => exact Name.isParentOf_push _ _
  | field => exact Name.isParentOf_push _ _
  | entry parent | free parent | counted parent => exact parent
  | option _ parent | wrapper _ parent | boxed _ parent | listPart _ parent | setPart _ parent
  | fixedPart _ _ parent | countedPart _ parent => exact parent

/-- A member is bound to what the target is made of. -/
theorem Member.occurs {target t : Target ρ} {name child : Name}
    (member : Member declarations target name t child) : Occurs declarations t target := by
  induction member with
  | element => exact .list .self
  | setElement => exact .set .self
  | item listed => exact .fixed (List.mem_of_getElem? listed) .self
  | entry => exact .map .self
  | field listed =>
      rcases List.mem_flatMap.mp listed with ⟨field, declared, keyed⟩
      rcases List.mem_map.mp keyed with ⟨key, _, same⟩
      cases same
      exact .record declared .self
  | free => exact .self
  | counted => exact .counted .self
  | option _ occurs => exact .option occurs
  | wrapper _ occurs => exact .wrapper occurs
  | boxed _ occurs => exact .boxed occurs
  | listPart _ occurs => exact .list occurs
  | setPart _ occurs => exact .set occurs
  | fixedPart listed _ occurs => exact .fixed listed occurs
  | countedPart _ occurs => exact .counted occurs

theorem Node.trans {whole middle t : Target ρ} {root name child : Name}
    (first : Node declarations whole root middle name)
    (second : Node declarations middle name t child) : Node declarations whole root t child := by
  induction second with
  | root => exact first
  | member _ member inside => exact .member inside member

end

/-- A target refuses a key that a store holds: a map one that is not of its key type,
a record a second key of a field of which another key is there. -/
def Refuses (sources : Store) : Target ρ → Mismatch → Prop
  | .map key _, m =>
    ∃ p ∈ sources.properties, ∃ e ∈ p.name.elements, key.read e.text = .error m
  | .record name, m =>
    ∃ tried field key rest, (declarations.record name).lookups = tried ++ (field, key) :: rest ∧
      m = .duplicateField field.name ∧
      ∃ owner : Name, sources.contains (owner.child key) = true ∧
        ∃ earlier ∈ tried, earlier.1.label = field.label ∧
          sources.contains (owner.child earlier.2) = true
  | _, _ => False

/-- Some map or record that a target is made of refuses a key that a store holds. -/
def MayRefuse (sources : Store) (target : Target ρ) (m : Mismatch) : Prop :=
  ∃ t, Occurs declarations t target ∧ t.Refuses declarations sources m

end Target

/-! ## Sources in scope -/

namespace Store

/-- Nothing is in scope but layers of the sources. -/
def Draws (scope sources : Store) : Prop :=
  scope.layers ⊆ sources.layers

namespace Draws

variable {scope sources source : Store} {n : Name}

theorem refl (sources : Store) : sources.Draws sources :=
  fun _ layer => layer

theorem mem_properties (draws : scope.Draws sources) {p : Property}
    (listed : p ∈ scope.properties) : p ∈ sources.properties := by
  rcases Store.mem_properties.mp listed with ⟨l, layer, member⟩
  exact Store.mem_properties.mpr ⟨l, draws layer, member⟩

theorem contains (draws : scope.Draws sources) (holds : scope.contains n = true) :
    sources.contains n = true := by
  rcases Store.contains_iff.mp holds with ⟨p, listed, leads⟩
  exact Store.contains_iff.mpr ⟨p, draws.mem_properties listed, leads⟩

/-- The source that a sequence is read from is one of the layers. -/
theorem sourceOf? (draws : scope.Draws sources) (found : scope.sourceOf? n = some source) :
    source.Draws sources := by
  rcases Option.map_eq_some_iff.mp found with ⟨l, layer, rfl⟩
  have listed : l ∈ scope.layers := List.mem_reverse.mp (List.mem_of_find?_eq_some layer)
  intro l' member
  rw [List.mem_singleton.mp member]
  exact draws listed

end Draws

end Store

/-! ## Orderly steps -/

/-- Where in a node a step is made: at the node itself or among its members. -/
inductive Place where
  | node
  | members

/-- What may come up while binding: the mismatches with which keys are refused, and the steps
that bind the members, each at its name. -/
structure Rules where
  refused : Mismatch → Prop
  binds : Name → Binding Value → Prop

/-- Only the refusals are of interest. -/
def Rules.refusing (refused : Mismatch → Prop) : Rules :=
  ⟨refused, fun _ _ => True⟩

def Rules.any : Rules :=
  refusing fun _ => True

/-- What binding a node may consist of, with the sources in scope and the name of the
node. -/
inductive Session.Orderly (S : Session) (rules : Rules) :
    Place → Store → Name → (α : Type) → Binding α → Prop
  | pure {place : Place} {scope : Store} {name : Name} {α : Type} (a : α) :
      Orderly S rules place scope name α (Pure.pure a)
  | chain {place : Place} {scope : Store} {name : Name} {α β : Type} {step : Binding α}
      {next : α → Binding β} (first : Orderly S rules place scope name α step)
      (second : ∀ a, step.Yields a → Orderly S rules place scope name β (next a)) :
      Orderly S rules place scope name β (step >>= next)
  | look {place : Place} {scope : Store} {name : Name} {α : Type} {next : Store → Binding α}
      (seen : Orderly S rules place scope name α (next scope)) :
      Orderly S rules place scope name α (Binding.scope >>= next)
  | use {place : Place} {scope : Store} {name : Name} {p : Property}
      (found : scope.get? name = some p) :
      Orderly S rules place scope name Unit (Binding.use p)
  | log {place : Place} {scope : Store} {name : Name} (entry : LogEntry) :
      Orderly S rules place scope name Unit (Binding.log entry)
  | fail {place : Place} {scope : Store} {name : Name} {α : Type} {e : BindError}
      (here : e.located = true → e.name = name)
      (owned : ∀ p, e.property = some p → name.Same p.name) :
      Orderly S rules place scope name α (Binding.fail e)
  | forTarget {scope : Store} {name : Name} {α : Type} {step : Binding α} (target : String)
      (inner : Orderly S rules .node scope name α step) :
      Orderly S rules .node scope name α (Binding.forTarget target step)
  | nested {scope : Store} {name : Name} {α : Type} {step : Binding α}
      (inner : Orderly S rules .members scope name α step) :
      Orderly S rules .node scope name α (Binding.nested step)
  | scopedTo {scope source : Store} {name : Name} {α : Type} {step : Binding α}
      (found : scope.sourceOf? name = some source)
      (inner : Orderly S rules .node source name α step) :
      Orderly S rules .node scope name α (Binding.scopedTo source step)
  | visit {scope : Store} {name child : Name} {slot : Slot} {α : Type} {body : Binding Value}
      {bound : Value → Binding α} {passed : Binding α} (parent : name.IsParentOf child)
      (there : scope.contains child = true) (made : rules.binds child body)
      (inner : Orderly S rules .node scope child Value body)
      (accepted : ∀ b, Orderly S rules .members scope name α (bound b))
      (vetoed : Orderly S rules .members scope name α passed) :
      Orderly S rules .members scope name α (S.offer child slot >>= fun proceed =>
        if proceed = true then S.descend child slot body >>= bound else passed)
  | misfit {scope : Store} {name child : Name} {slot : Slot} {α : Type} {m : Mismatch}
      {passed : Binding α} (parent : name.IsParentOf child)
      (there : scope.contains child = true) (reason : rules.refused m)
      (vetoed : Orderly S rules .members scope name α passed) :
      Orderly S rules .members scope name α (S.offer child slot >>= fun proceed =>
        if proceed = true then Binding.mismatch m else passed)

namespace Session

variable {S : Session} {rules : Rules} {sources scope : Store} {name : Name}

namespace Orderly

variable {place : Place} {α β : Type}

theorem bind {step : Binding α} {next : α → Binding β}
    (first : S.Orderly rules place scope name α step)
    (second : ∀ a, S.Orderly rules place scope name β (next a)) :
    S.Orderly rules place scope name β (step >>= next) :=
  .chain first fun a _ => second a

theorem map {step : Binding α} (f : α → β) (inner : S.Orderly rules place scope name α step) :
    S.Orderly rules place scope name β (f <$> step) :=
  inner.bind fun a => .pure (f a)

theorem mismatch (m : Mismatch) :
    S.Orderly rules place scope name α (Binding.mismatch m) :=
  .fail (fun located => by cases located) fun _ property => by cases property

/-- Failing where the name is known, with a property that goes by this name if with any. -/
theorem failHere (target : String) (property : Option Property) (cause : BindFailure)
    (owned : ∀ p, property = some p → name.Same p.name) :
    S.Orderly rules place scope name α (Binding.fail (.here name target property cause)) :=
  .fail (fun _ => rfl) owned

theorem failBare (target : String) (cause : BindFailure) :
    S.Orderly rules place scope name α (Binding.fail (.here name target none cause)) :=
  failHere target none cause fun _ property => by cases property

theorem ofMismatch (outcome : Except Mismatch α) :
    S.Orderly rules place scope name α (Binding.ofMismatch outcome) := by
  cases outcome with
  | ok a => exact .pure a
  | error m => exact .mismatch m

theorem each {step : α → Binding β} (items : List α)
    (inner : ∀ a ∈ items, S.Orderly rules place scope name β (step a)) :
    S.Orderly rules place scope name (List β) (Binding.each step items) := by
  induction items with
  | nil => exact .pure []
  | cons a rest inductionHypothesis =>
      have others := inductionHypothesis fun a later => inner a (List.mem_cons_of_mem _ later)
      exact (inner a List.mem_cons_self).bind fun b => others.bind fun bs => .pure (b :: bs)

end Orderly

open Orderly

/-! ## Scalars -/

/-- The text for a scalar comes from a property that goes by the name of the scalar. -/
theorem scalar_yields {given : Option Part} {target : String} {part : Part}
    (owned : ∀ part ∈ given, name.Same part.property.name)
    (yields : (S.scalar name given target).Yields part) : name.Same part.property.name := by
  cases given with
  | some whole =>
      rcases yields with ⟨run, after, ran⟩
      cases ran
      exact owned part rfl
  | none =>
      rcases Binding.Yields.of_bind yields with ⟨scope, _, read⟩
      cases found : scope.get? name with
      | none =>
          rw [found] at read
          rcases read with ⟨_, _, impossible⟩
          cases impossible
      | some property =>
          rw [found] at read
          rcases Binding.Yields.of_bind read with ⟨_, _, last⟩
          cases resolved : S.sources.resolve property.value with
          | error e =>
              rw [resolved] at last
              rcases last with ⟨_, _, impossible⟩
              cases impossible
          | ok text =>
              rw [resolved] at last
              rcases last with ⟨_, _, ended⟩
              cases ended
              exact (Store.get?_eq_some_iff.mp found).2

theorem scalar_orderly (given : Option Part) (target : String) :
    S.Orderly rules .node scope name Part (S.scalar name given target) := by
  cases given with
  | some part => exact .pure part
  | none =>
      apply Orderly.look
      cases found : scope.get? name with
      | none => exact failBare target _
      | some property =>
          refine (Orderly.use found).bind fun _ => ?_
          cases S.sources.resolve property.value with
          | ok text => exact .pure _
          | error e =>
              refine failHere target (some property) _ fun p same => ?_
              cases same
              exact (Store.get?_eq_some_iff.mp found).2

theorem convert_orderly {α : Type} (given : Option Part) (target : String)
    (conversion : String → Except ConversionReason α)
    (owned : ∀ part ∈ given, name.Same part.property.name) :
    S.Orderly rules .node scope name α (S.convert name given target conversion) := by
  refine .chain (scalar_orderly given target) fun part yields => ?_
  unfold converted
  cases conversion part.text with
  | ok a => exact .pure a
  | error reason =>
      refine failHere target (some part.property) _ fun p same => ?_
      cases same
      exact scalar_yields owned yields

theorem text_orderly (given : Option Part) (target : String) :
    S.Orderly rules .node scope name String (S.text name given target) :=
  (scalar_orderly given target).bind fun part => .pure part.text

theorem variant_orderly (given : Option Part) (enumeration : Enumeration)
    (owned : ∀ part ∈ given, name.Same part.property.name) :
    S.Orderly rules .node scope name Value (S.variant name given enumeration) := by
  refine (convert_orderly given _ _ owned).bind fun v => ?_
  by_cases plain : v.content = .none
  · rw [if_pos plain]
    exact .pure _
  · rw [if_neg plain]
    exact .mismatch _

/-! ## Members -/

variable {ρ : Type} {enter : Enter ρ}

/-- A step that may bind a member, in an orderly way. -/
structure BindsMember (S : Session) (rules : Rules) (scope : Store) (child : Name)
    (step : Binding Value) : Prop where
  made : rules.binds child step
  orderly : S.Orderly rules .node scope child Value step

theorem elements_orderly (wanted : List (Nat × Target ρ))
    (there : ∀ item ∈ wanted, scope.contains (name.childAt item.1) = true)
    (entered : ∀ item ∈ wanted,
      S.BindsMember rules scope (name.childAt item.1) (enter item.2 (name.childAt item.1))) :
    S.Orderly rules .members scope name (List Value × Bool) (S.elements enter name wanted) := by
  induction wanted with
  | nil => exact .pure _
  | cons item rest inductionHypothesis =>
      rcases item with ⟨position, target⟩
      have bound := entered (position, target) List.mem_cons_self
      unfold elements
      apply Orderly.visit (name.isParentOf_push _) (there (position, target) List.mem_cons_self)
        bound.made bound.orderly
      · intro item
        refine (inductionHypothesis (fun item later => there item (List.mem_cons_of_mem _ later))
          (fun item later => entered item (List.mem_cons_of_mem _ later))).bind fun found => ?_
        exact .pure _
      · exact .pure _

theorem entries_orderly (key : KeyType) (target : Target ρ) (children : List Name)
    (there : ∀ child ∈ children, name.IsParentOf child ∧ scope.contains child = true)
    (fits : ∀ child ∈ children, ∀ m,
      key.read ((child.last?.map (·.text)).getD "") = .error m → rules.refused m)
    (entered : ∀ child ∈ children, S.BindsMember rules scope child (enter target child)) :
    S.Orderly rules .members scope name (List (Key × Value × Nat))
      (S.entries enter key target children) := by
  induction children with
  | nil => exact .pure []
  | cons child rest inductionHypothesis =>
      have here := there child List.mem_cons_self
      have others := inductionHypothesis
        (fun child later => there child (List.mem_cons_of_mem _ later))
        (fun child later => fits child (List.mem_cons_of_mem _ later))
        (fun child later => entered child (List.mem_cons_of_mem _ later))
      cases read : key.read ((child.last?.map (·.text)).getD "") with
      | error m =>
          simp only [entries, read, Binding.ofMismatch_error_bind]
          exact .misfit here.1 here.2 (fits child List.mem_cons_self m read) others
      | ok k =>
          simp only [entries, read, Binding.ofMismatch_ok_bind]
          have bound := entered child List.mem_cons_self
          apply Orderly.visit here.1 here.2 bound.made bound.orderly
          · exact fun v => others.bind fun found => .pure _
          · exact others

/-- The fields bound so far belong to keys that were tried before and found. -/
def Tried (scope : Store) (name : Name) (tried : List (Field ρ × String))
    (found : List (String × Value)) : Prop :=
  ∀ entry ∈ found, ∃ earlier ∈ tried, earlier.1.label = entry.1 ∧
    scope.contains (name.child earlier.2) = true

theorem fields_orderly (owner : String) (tried lookups : List (Field ρ × String))
    (found : List (String × Value)) (before : Tried scope name tried found)
    (fits : ∀ late field key rest, lookups = late ++ (field, key) :: rest →
      scope.contains (name.child key) = true →
      (∃ earlier ∈ tried ++ late, earlier.1.label = field.label ∧
        scope.contains (name.child earlier.2) = true) → rules.refused (.duplicateField field.name))
    (entered : ∀ item ∈ lookups, scope.contains (name.child item.2) = true →
      S.BindsMember rules scope (name.child item.2) (enter item.1.target (name.child item.2))) :
    S.Orderly rules .members scope name (List (String × Value))
      (S.fields enter owner name found lookups) := by
  induction lookups generalizing tried found with
  | nil => exact .pure found
  | cons item rest inductionHypothesis =>
      rcases item with ⟨field, key⟩
      have others : ∀ more, Tried scope name (tried ++ [(field, key)]) more →
          S.Orderly rules .members scope name (List (String × Value))
            (S.fields enter owner name more rest) := by
        intro more beforeMore
        apply inductionHypothesis (tried ++ [(field, key)]) more beforeMore
        · intro late other word tail split holds earlier
          refine fits ((field, key) :: late) other word tail (by rw [split]; rfl) holds ?_
          simpa only [List.append_assoc, List.singleton_append] using earlier
        · exact fun item later => entered item (List.mem_cons_of_mem _ later)
      have kept : Tried scope name (tried ++ [(field, key)]) found := by
        intro entry member
        rcases before entry member with ⟨earlier, listed, same⟩
        exact ⟨earlier, List.mem_append_left _ listed, same⟩
      unfold fields
      apply Orderly.look
      by_cases holds : scope.contains (name.child key) = true
      · rw [if_pos holds]
        by_cases again : found.any (·.1 == field.label) = true
        · simp only [if_pos again]
          rcases List.any_eq_true.mp again with ⟨entry, member, same⟩
          rcases before entry member with ⟨earlier, listed, label, there⟩
          refine .misfit (name.isParentOf_push _) holds (fits [] field key rest rfl holds ?_)
            (others found kept)
          exact ⟨earlier, List.mem_append_left _ listed, label.trans (by simpa using same), there⟩
        · simp only [if_neg again]
          have bound := entered (field, key) List.mem_cons_self holds
          apply Orderly.visit (name.isParentOf_push _) holds bound.made bound.orderly
          · intro v
            apply others
            intro entry member
            rcases List.mem_append.mp member with first | last
            · exact kept entry first
            · rw [List.mem_singleton.mp last]
              exact ⟨(field, key), List.mem_append_right _ (List.mem_singleton_self _), rfl, holds⟩
          · exact others found kept
      · rw [if_neg holds]
        exact others found kept

/-! ## Nodes -/

theorem contains_of_mem_positions {position : Nat} (member : position ∈ positions scope name) :
    scope.contains (name.childAt position) = true :=
  List.all_eq_true.mp List.all_takeWhile position member

/-- The targets wanted by a sequence go to the positions in turn. -/
theorem getElem?_of_mem_zip_positions {wanted : List (Target ρ)} {item : Nat × Target ρ}
    (member : item ∈ (positions scope name).zip wanted) : wanted[item.1]? = some item.2 := by
  rcases List.getElem?_of_mem member with ⟨i, paired⟩
  rcases List.getElem?_zip_eq_some.mp paired with ⟨position, target⟩
  rcases List.getElem?_eq_some_iff.mp position with ⟨within, found⟩
  have counted : positions scope name <+: List.range (scope.children name).length :=
    List.takeWhile_prefix _
  have same : i = item.1 := by
    rw [← found, counted.getElem within, List.getElem_range]
  rwa [← same]

theorem indexed_orderly (sequence : Sequence ρ)
    (entered : ∀ available position target, (sequence.wanted available)[position]? = some target →
      scope.contains (name.childAt position) = true →
        S.BindsMember rules scope (name.childAt position) (enter target (name.childAt position))) :
    S.Orderly rules .members scope name Value (S.indexed enter sequence name scope) := by
  have there : ∀ item ∈ (positions scope name).zip (sequence.wanted (positions scope name).length),
      scope.contains (name.childAt item.1) = true :=
    fun item member => contains_of_mem_positions (List.of_mem_zip member).1
  refine (elements_orderly _ there fun item member =>
    entered _ _ _ (getElem?_of_mem_zip_positions member) (there item member)).bind fun found => ?_
  refine (ofMismatch _).bind fun value => ?_
  dsimp only
  generalize (if found.2 = true then [] else beyond scope name found.1.length) = left
  split
  · exact .pure value
  · exact failBare _ _

/-- The parts of a value belong to the property that the value is from. -/
theorem delimited_orderly {readParts : List Part → Binding (List Value)} (sequence : Sequence ρ)
    (given : Option Part) (owned : ∀ part ∈ given, name.Same part.property.name)
    (read : ∀ parts, (∀ part ∈ parts, name.Same part.property.name) →
      S.Orderly rules .node scope name (List Value) (readParts parts)) :
    S.Orderly rules .node scope name Value (S.delimited readParts sequence name given) := by
  refine .chain (scalar_orderly given sequence.label) fun whole yields => ?_
  refine (read _ fun part member => ?_).bind fun items => ofMismatch _
  rcases List.mem_map.mp member with ⟨text, _, rfl⟩
  exact (scalar_yields owned yields : name.Same whole.property.name)

theorem sequence_orderly {readParts : List Part → Binding (List Value)} (sequence : Sequence ρ)
    (given : Option Part) (owned : ∀ part ∈ given, name.Same part.property.name)
    (read : ∀ parts, (∀ part ∈ parts, name.Same part.property.name) →
      S.Orderly rules .node scope name (List Value) (readParts parts))
    (entered : ∀ source, scope.sourceOf? name = some source → ∀ available position target,
      (sequence.wanted available)[position]? = some target →
      source.contains (name.childAt position) = true →
        S.BindsMember rules source (name.childAt position) (enter target (name.childAt position))) :
    S.Orderly rules .node scope name Value (S.sequence enter readParts sequence name given) := by
  unfold Session.sequence
  by_cases part : given.isSome = true
  · rw [if_pos part]
    exact delimited_orderly sequence given owned read
  · rw [if_neg part]
    apply Orderly.look
    cases found : scope.sourceOf? name with
    | none => exact delimited_orderly sequence given owned read
    | some source =>
        by_cases value : (source.get? name).isSome = true
        · simp only [if_pos value]
          exact delimited_orderly sequence given owned read
        · simp only [if_neg value]
          refine (Orderly.log _).bind fun _ => ?_
          exact .scopedTo found (.nested (indexed_orderly sequence (entered source found)))

/-- A sequence whose elements are all bound to one target. -/
theorem growing_orderly {readParts : List Part → Binding (List Value)} (sequence : Sequence ρ)
    {target : Target ρ}
    (wanted : ∀ available, sequence.wanted available = .replicate available target)
    (given : Option Part) (owned : ∀ part ∈ given, name.Same part.property.name)
    (read : ∀ parts, (∀ part ∈ parts, name.Same part.property.name) →
      S.Orderly rules .node scope name (List Value) (readParts parts))
    (entered : ∀ source, scope.sourceOf? name = some source → ∀ position,
      source.contains (name.childAt position) = true →
        S.BindsMember rules source (name.childAt position)
          (enter target (name.childAt position))) :
    S.Orderly rules .node scope name Value (S.sequence enter readParts sequence name given) := by
  refine sequence_orderly sequence given owned read
    fun source found available position t listed there => ?_
  rw [wanted] at listed
  rw [List.eq_of_mem_replicate (List.mem_of_getElem? listed)]
  exact entered source found position there

theorem exists_element_of_mem_children {child : Name} (member : child ∈ scope.children name) :
    ∃ p ∈ scope.properties, ∃ e ∈ p.name.elements, child.last? = some e := by
  rcases Store.exists_of_mem_children member with ⟨p, listed, above, rfl⟩
  have longer : (p.name.take (name.size + 1)).elements ≠ [] := by
    have size := above.isParentOf_take.1
    intro empty
    rw [Name.size, empty] at size
    cases size
  refine ⟨p, listed, (p.name.take (name.size + 1)).elements.getLast longer, ?_,
    List.getLast?_eq_some_getLast longer⟩
  exact List.mem_of_mem_take (List.getLast_mem longer)

theorem mapping_orderly (label : String) (key : KeyType) (target : Target ρ)
    (make : Nat → List (Key × Value × Nat) → Value)
    (fits : ∀ p ∈ scope.properties, ∀ e ∈ p.name.elements, ∀ m,
      key.read e.text = .error m → rules.refused m)
    (entered : ∀ child, name.IsParentOf child → scope.contains child = true →
      S.BindsMember rules scope child (enter target child)) :
    S.Orderly rules .node scope name Value (S.mapping enter label key target name make) := by
  apply Orderly.look
  refine .forTarget label (.nested ?_)
  refine (entries_orderly key target _ ?_ ?_ ?_).bind fun found => .pure _
  · exact fun child member =>
      ⟨Store.isParentOf_of_mem_children member, Store.contains_of_mem_children member⟩
  · intro child member m read
    rcases exists_element_of_mem_children member with ⟨p, listed, e, element, last⟩
    rw [last] at read
    exact fits p listed e element m read
  · exact fun child member => entered child (Store.isParentOf_of_mem_children member)
      (Store.contains_of_mem_children member)

theorem record_orderly {initial : ρ → Value} (type : Record ρ)
    (fits : ∀ tried field key rest, type.lookups = tried ++ (field, key) :: rest →
      scope.contains (name.child key) = true →
      (∃ earlier ∈ tried, earlier.1.label = field.label ∧
        scope.contains (name.child earlier.2) = true) → rules.refused (.duplicateField field.name))
    (entered : ∀ item ∈ type.lookups, scope.contains (name.child item.2) = true →
      S.BindsMember rules scope (name.child item.2) (enter item.1.target (name.child item.2))) :
    S.Orderly rules .node scope name Value (S.record enter initial type name) := by
  refine .forTarget type.label (.nested ?_)
  refine (fields_orderly type.short [] type.lookups [] (fun entry impossible => by cases impossible)
    (fun late field key rest split => fits late field key rest split) entered).bind
    fun found => ?_
  exact (ofMismatch _).bind fun fields => .pure _

theorem free_orderly (label : String) (given : Option Part) (draws : scope.Draws sources)
    (entered : ∀ source child, source.Draws sources → name.IsParentOf child →
      source.contains child = true →
        S.BindsMember rules source child (enter (.free label) child)) :
    S.Orderly rules .node scope name Value (S.free enter label name given) := by
  apply Orderly.look
  split
  · exact (text_orderly given "string").bind fun text => .pure _
  · dsimp only
    split
    · exact .pure _
    · split
      · exact growing_orderly _ (fun _ => rfl) none (fun _ impossible => by cases impossible)
          (fun parts _ => .pure _) fun source found position there =>
            entered source _ (draws.sourceOf? found) (name.isParentOf_push _) there
      · refine mapping_orderly label .text _ _ (fun p _ e _ m impossible => ?_)
          fun child parent there => entered scope child draws parent there
        cases impossible

theorem countedMap_orderly (label : String) (target : Target ρ)
    (entered : ∀ child, name.IsParentOf child → scope.contains child = true →
      S.BindsMember rules scope child (enter target child)) :
    S.Orderly rules .node scope name Value (S.countedMap enter label target name) :=
  mapping_orderly label .text target _ (fun _ _ _ _ _ impossible => by cases impossible) entered

theorem hasty_orderly (label : String) (request : Request) :
    S.Orderly rules .node scope name Value (Session.hasty label request) :=
  .forTarget label (.nested (.mismatch _))

/-! ## All targets -/

/-- The members that binding a target at a name may have are bound in an orderly way. -/
def Enters (S : Session) (rules : Rules) (sources : Store) (declarations : Declarations ρ)
    (enter : Enter ρ) (target : Target ρ) (name : Name) : Prop :=
  ∀ t child, Target.Member declarations target name t child → ∀ source : Store,
    source.Draws sources → source.contains child = true →
      S.BindsMember rules source child (enter t child)

variable {declarations : Declarations ρ}

/-- What every element of a sequence needs, from the source that the sequence is read from. -/
private theorem Enters.element {target t : Target ρ} {child : Name} {source : Store}
    (entered : S.Enters rules sources declarations enter target name)
    (draws : scope.Draws sources) (found : scope.sourceOf? name = some source)
    (member : Target.Member declarations target name t child)
    (there : source.contains child = true) : S.BindsMember rules source child (enter t child) :=
  entered t child member source (draws.sourceOf? found) there

private theorem owned_some {part : Part} (owned : name.Same part.property.name) :
    ∀ p ∈ some part, name.Same p.property.name := by
  intro p given
  cases given
  exact owned

mutual

/-- Binding a target of any shape is orderly when it is so below. -/
theorem read_orderly (draws : scope.Draws sources) (target : Target ρ) (name : Name)
    (given : Option Part) (owned : ∀ part ∈ given, name.Same part.property.name)
    (fits : ∀ m, target.MayRefuse declarations sources m → rules.refused m)
    (entered : S.Enters rules sources declarations enter target name) :
    S.Orderly rules .node scope name Value (S.read declarations enter target name given) := by
  cases target with
  | truth => exact (convert_orderly given _ _ owned).map _
  | whole type => exact (convert_orderly given _ _ owned).map _
  | float format => exact (convert_orderly given _ _ owned).map _
  | char => exact (convert_orderly given _ _ owned).map _
  | text => exact (text_orderly given _).map _
  | bytes => exact (text_orderly given _).bind fun text => .pure _
  | unit => exact .pure _
  | ignored => exact .pure _
  | variant enumeration => exact variant_orderly given enumeration owned
  | option target =>
      have inner := read_orderly draws target name given owned
        (fun m ⟨t, part, refuses⟩ => fits m ⟨t, .option part, refuses⟩)
        (fun t child member => entered t child (.option member))
      have asked : ∀ there : Bool, S.Orderly rules .node scope name Value
          (if there = true then .present <$> S.read declarations enter target name given
            else Pure.pure .absent) := by
        intro there
        cases there with
        | true => exact inner.map _
        | false => exact .pure _
      unfold read
      cases given with
      | some part => exact asked true
      | none => exact .look (asked _)
  | wrapper label target =>
      exact read_orderly draws target name given owned
        (fun m ⟨t, part, refuses⟩ => fits m ⟨t, .wrapper part, refuses⟩)
        (fun t child member => entered t child (.wrapper member))
  | boxed target =>
      exact read_orderly draws target name given owned
        (fun m ⟨t, part, refuses⟩ => fits m ⟨t, .boxed part, refuses⟩)
        (fun t child member => entered t child (.boxed member))
  | list target =>
      exact growing_orderly _ (fun _ => rfl) given owned
        (fun items owned => .each items fun part member =>
          read_orderly draws target name (some part) (owned_some (owned part member))
            (fun m ⟨t, part, refuses⟩ => fits m ⟨t, .list part, refuses⟩)
            (fun t child member => entered t child (.listPart member)))
        fun source found position there => entered.element draws found (.element position) there
  | set target =>
      exact growing_orderly _ (fun _ => rfl) given owned
        (fun items owned => .each items fun part member =>
          read_orderly draws target name (some part) (owned_some (owned part member))
            (fun m ⟨t, part, refuses⟩ => fits m ⟨t, .set part, refuses⟩)
            (fun t child member => entered t child (.setPart member)))
        fun source found position there => entered.element draws found (.setElement position) there
  | fixed shape targets =>
      exact sequence_orderly _ given owned
        (fun items owned => readEach_orderly draws targets name items owned
          (fun target member m ⟨t, part, refuses⟩ => fits m ⟨t, .fixed member part, refuses⟩)
          (fun target listed t child member => entered t child (.fixedPart listed member)))
        fun source found available position t listed there =>
          entered.element draws found (.item listed) there
  | map key target =>
      apply mapping_orderly _ key target
      · intro p listed e element m read
        exact fits m ⟨.map key target, .self, p, draws.mem_properties listed, e, element, read⟩
      · exact fun child parent there => entered target child (.entry parent) scope draws there
  | record r =>
      apply record_orderly
      · intro tried field key rest split there ⟨earlier, listed, label, again⟩
        exact fits _ ⟨.record r, .self, tried, field, key, rest, split, rfl, name,
          draws.contains there, earlier, listed, label, draws.contains again⟩
      · exact fun item listed there =>
          entered item.1.target _ (.field listed) scope draws there
  | free label =>
      exact free_orderly label given draws fun source child drawn parent there =>
        entered (.free label) child (.free parent) source drawn there
  | counted label request target =>
      have mapped : S.Orderly rules .node scope name Value
          (S.countedMap enter label target name) :=
        countedMap_orderly label target fun child parent there =>
          entered target child (.counted parent) scope draws there
      cases request with
      | sequence =>
          exact growing_orderly _ (fun _ => rfl) given owned
            (fun items owned => .each items fun part member =>
              read_orderly draws target name (some part) (owned_some (owned part member))
                (fun m ⟨t, part, refuses⟩ => fits m ⟨t, .counted part, refuses⟩)
                (fun t child member => entered t child (.countedPart member)))
            fun source found position there =>
              entered.element draws found (.counted (name.isParentOf_push _)) there
      | map => exact mapped
      | record => exact mapped
  | hasty label request => exact hasty_orderly label request

theorem readEach_orderly (draws : scope.Draws sources) (targets : List (Target ρ)) (name : Name)
    (parts : List Part) (owned : ∀ part ∈ parts, name.Same part.property.name)
    (fits : ∀ target ∈ targets, ∀ m, target.MayRefuse declarations sources m → rules.refused m)
    (entered : ∀ target ∈ targets, S.Enters rules sources declarations enter target name) :
    S.Orderly rules .node scope name (List Value)
      (S.readEach declarations enter targets name parts) := by
  cases targets with
  | nil => exact .pure []
  | cons target rest =>
      cases parts with
      | nil => exact .pure []
      | cons part others =>
          have first := owned_some (owned part List.mem_cons_self)
          refine (read_orderly draws target name (some part) first (fits target List.mem_cons_self)
            (entered target List.mem_cons_self)).bind fun item => ?_
          refine (readEach_orderly draws rest name others
            (fun p member => owned p (List.mem_cons_of_mem _ member))
            (fun t member => fits t (List.mem_cons_of_mem _ member))
            (fun t member => entered t (List.mem_cons_of_mem _ member))).bind fun items => ?_
          exact .pure _

end

/-- Binding is orderly down to any number of levels, for every target.  A member lies one level
lower than the node around it, so levels and elements of names add up to the same number. -/
theorem readWithin_orderly (levels : Nat) (target : Target ρ) (name : Name)
    (draws : scope.Draws sources)
    (fits : ∀ m, target.MayRefuse declarations sources m → rules.refused m)
    (binds : ∀ fewer t child, Target.Node declarations target name t child →
      fewer + child.size = levels + name.size → sources.contains child = true →
        rules.binds child (S.readWithin declarations fewer t child)) :
    S.Orderly rules .node scope name Value (S.readWithin declarations levels target name) := by
  induction levels generalizing target name scope with
  | zero => exact .pure _
  | succ levels inductionHypothesis =>
      refine read_orderly draws target name none (fun _ impossible => by cases impossible) fits
        fun t child member source drawn there => ?_
      have node : Target.Node declarations target name t child := .member .root member
      have size : child.size = name.size + 1 := member.isParentOf.1
      refine ⟨binds levels t child node (by omega) (drawn.contains there), ?_⟩
      apply inductionHypothesis t child drawn
      · exact fun m ⟨other, inner, refuses⟩ => fits m ⟨other, inner.trans member.occurs, refuses⟩
      · intro fewer u grandchild below balanced
        exact binds fewer u grandchild (node.trans below) (by omega)

theorem readWithin_bindsMember (levels : Nat) (target : Target ρ) (name : Name)
    (draws : scope.Draws sources) :
    S.BindsMember .any scope name (S.readWithin declarations levels target name) where
  made := trivial
  orderly := readWithin_orderly levels target name draws (fun _ _ => trivial)
    fun _ _ _ _ _ _ => trivial

end Session
end PropertyBinding
