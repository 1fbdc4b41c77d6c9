import PropertyBinding.Bind.Descent

/-!
# Binders

A binder binds targets at names over a store, with a handler that is asked at
every node.  Each call is a run of its own, and its outcome comes with the
history of the run and the properties that were used.
-/

namespace PropertyBinding

variable {ρ : Type}

/-- A store to bind from, a handler to ask, and the record types in use. -/
structure Binder (ρ : Type) where
  sources : Store
  handler : Handler
  declarations : Declarations ρ

/-- What a call gives. -/
structure Outcome (α : Type) where
  result : Except BindError α
  bound : List Property
  history : List Event

namespace Binder

variable (b : Binder ρ)

def plain (sources : Store) (declarations : Declarations ρ) : Binder ρ :=
  ⟨sources, .accepting, declarations⟩

def session (target : Target ρ) : Session :=
  ⟨b.sources, b.handler, target.label b.declarations⟩

/-- Bind the node at the root once it has been accepted.  When nothing is there the
handler is asked once whether that may stand. -/
def bindAccepted (target : Target ρ) (name : Name) (slot : Slot) : Binding (Option Value) :=
  let S := b.session target
  if b.sources.contains name then
    some <$> S.descend name slot
      (S.readWithin b.declarations (b.sources.height + 1) target name)
  else do
    S.guarded name slot (S.finish name slot)
    return none

/-- Bind the node at the root, which is offered like any other. -/
def bindRoot (target : Target ρ) (name : Name) (existing : Bool) : Binding (Option Value) := do
  let S := b.session target
  let slot := Slot.root S.rootType existing
  Binding.log ⟨.debug, "binding",
    [("name", .text (toString name)), ("target", .text S.rootType)]⟩
  if ← S.offer name slot then
    let value ← Binding.forTarget S.rootType (b.bindAccepted target name slot)
    Binding.log ⟨.debug, "binding complete",
      [("name", .text (toString name)), ("bound", .truth value.isSome)]⟩
    return value
  else
    return none

/-- Bind a target at a name. -/
def bindAt (target : Target ρ) (name : Name) (existing : Bool) : Outcome (Option Value) :=
  let (result, run) := b.bindRoot target name existing (Run.initial b.sources)
  ⟨result, run.bound, run.history⟩

def bindText (target : Target ρ) (name : String) (existing : Bool) : Outcome (Option Value) :=
  match Name.parse name with
  | .ok n => b.bindAt target n existing
  | .error e =>
    ⟨.error (.here .root (target.label b.declarations) none (.other e.message)), [], []⟩

/-- Bind the properties under a name.  There is no value if nothing exists there
or the handler vetoes the root. -/
def bind (target : Target ρ) (name : String) : Outcome (Option Value) :=
  b.bindText target name false

/-- Bind the properties under a name, or take an existing value if there is
nothing to bind. -/
def bindOr (target : Target ρ) (name : String) (existing : Value) : Outcome Value :=
  let outcome := b.bindText target name true
  { outcome with result := outcome.result.map (·.getD existing) }

/-- Bind the properties under a name, or take the initial value of the target. -/
def bindOrDefault (target : Target ρ) (name : String) : Outcome Value :=
  b.bindOr target name (target.initial b.declarations.initial)

/-- Bind like `bindOrDefault`, and then validate the value. -/
def bindValidated (target : Target ρ) (validation : Value → List Step) (name : String) :
    Outcome Value :=
  let outcome := b.bindOrDefault target name
  match outcome.result, Name.parse name with
  | .ok value, .ok n =>
    let errors := Step.allErrors (validation value)
    if errors.isEmpty then outcome
    else
      let entry : LogEntry := ⟨.debug, "bound value failed validation",
        [("name", .text (toString n)), ("errors", .count errors.length)]⟩
      { outcome with
        result := .error (.here n (target.label b.declarations) none
          (.validation ⟨n, errors, outcome.bound⟩))
        history := outcome.history ++ [.log entry] }
  | _, _ => outcome

end Binder

/-- The log entries in a history, those of handlers included. -/
def logOf (history : List Event) : List LogEntry :=
  history.flatMap fun
    | .log entry => [entry]
    | .call _ _ notes => notes.filterMap fun
      | .log entry => some entry
      | .seen _ _ _ => none

/-- What observers have noted in a history: who was asked, when, and about what. -/
def seenIn (history : List Event) : List (String × Moment × Visit) :=
  history.flatMap fun
    | .log _ => []
    | .call _ _ notes => notes.filterMap fun
      | .log _ => none
      | .seen observer moment visit => some (observer, moment, visit)

end PropertyBinding
