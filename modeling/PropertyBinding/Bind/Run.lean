import PropertyBinding.Bind.Handler

/-!
# Runs

A run binds one target at one name.  Its state is the depth, the names of the
nodes being bound, the sources in scope and the properties used so far, together
with the history of all that has happened.  `Binding` is a step of a run: it has a
value or an error, and in both cases the state goes on from where it ended.

Three operations change the state for the time of an inner step and put it back
whatever the outcome: `descend` binds a node, `nested` goes one level deeper and
`scopedTo` reads from one source only.
-/

namespace PropertyBinding

/-- A question to the handler, with its answer. -/
inductive Call where
  | start (proceed : Bool)
  | success
  | failure (error answer : BindError)
  | finish (answer : Except BindError Unit)

/-- What happens in a run. -/
inductive Event where
  | call (visit : Visit) (call : Call) (notes : List Note)
  | log (entry : LogEntry)

/-- What stays the same throughout a run. -/
structure Session where
  sources : Store
  handler : Handler
  rootType : String

/-- The state of a run. -/
structure Run where
  depth : Nat
  names : List Name
  scope : Store
  bound : List Property
  history : List Event

def Binding (α : Type) := Run → Except BindError α × Run

namespace Binding

def pure (a : α) : Binding α := fun run => (.ok a, run)

/-- One step after another.  The second is not made if the first fails. -/
def bind (step : Binding α) (next : α → Binding β) : Binding β := fun run =>
  match step run with
  | (.ok a, run) => next a run
  | (.error e, run) => (.error e, run)

instance : Monad Binding where
  pure := pure
  bind := bind

def fail (e : BindError) : Binding α := fun run => (.error e, run)

/-- The step that fails where the name is not known. -/
def mismatch (m : Mismatch) : Binding α :=
  fail (.unlocated (.mismatch m))

def ofMismatch : Except Mismatch α → Binding α
  | .ok a => pure a
  | .error m => mismatch m

/-- Make a step for each of some things, in turn. -/
def each (step : α → Binding β) : List α → Binding (List β)
  | [] => return []
  | a :: rest => do
    let b ← step a
    return b :: (← each step rest)

def scope : Binding Store := fun run => (.ok run.scope, run)

def log (entry : LogEntry) : Binding Unit := fun run =>
  (.ok (), { run with history := run.history ++ [.log entry] })

/-- Note that a property has been used. -/
def use (p : Property) : Binding Unit := fun run =>
  if run.bound.any fun used => used.name.Same p.name then (.ok (), run)
  else (.ok (), { run with bound := run.bound ++ [p] })

def forTarget (target : String) (step : Binding α) : Binding α := fun run =>
  match step run with
  | (.ok a, run) => (.ok a, run)
  | (.error e, run) => (.error (e.withTarget target), run)

/-- Make a step one level deeper. -/
def nested (step : Binding α) : Binding α := fun run =>
  let (outcome, after) := step { run with depth := run.depth + 1 }
  (outcome, { after with depth := after.depth - 1 })

/-- Make a step that reads only from some sources. -/
def scopedTo (scope : Store) (step : Binding α) : Binding α := fun run =>
  let (outcome, after) := step { run with scope }
  (outcome, { after with scope := run.scope })

end Binding

namespace Run

def initial (sources : Store) : Run := ⟨0, [], sources, [], []⟩

def visit (run : Run) (rootType : String) (name : Name) (slot : Slot) : Visit :=
  ⟨name, slot, rootType, run.depth, run.names, run.bound⟩

def noted (run : Run) (visit : Visit) (call : Call) (notes : List Note) : Run :=
  { run with history := run.history ++ [.call visit call notes] }

def enter (run : Run) (name : Name) : Run :=
  { run with names := run.names ++ [name] }

def leave (run : Run) : Run :=
  { run with names := run.names.dropLast }

end Run

namespace Session

variable (S : Session)

/-- Ask whether to bind a node. -/
def offer (name : Name) (slot : Slot) : Binding Bool := fun run =>
  let visit := run.visit S.rootType name slot
  let answer := S.handler.start S.sources visit
  let run := run.noted visit (.start answer.value) answer.notes
  if answer.value then (.ok true, run)
  else
    let entry : LogEntry := ⟨.trace, "bind vetoed",
      [("name", .text (toString name)), ("depth", .count run.depth)]⟩
    (.ok false, { run with history := run.history ++ [.log entry] })

/-- Tell that a node has been bound. -/
def succeed (name : Name) (slot : Slot) : Binding Unit := fun run =>
  let visit := run.visit S.rootType name slot
  (.ok (), run.noted visit .success (S.handler.success S.sources visit))

/-- Ask whether a node may stand as it is. -/
def finish (name : Name) (slot : Slot) : Binding Unit := fun run =>
  let visit := run.visit S.rootType name slot
  let answer := S.handler.finish S.sources visit
  (answer.value, run.noted visit (.finish answer.value) answer.notes)

/-- Ask for the error with which a node fails. -/
def refuse (name : Name) (slot : Slot) (error : BindError) : Binding α := fun run =>
  let visit := run.visit S.rootType name slot
  let error := error.locate name
  let answer := S.handler.failure S.sources visit error
  (.error answer.value, run.noted visit (.failure error answer.value) answer.notes)

/-- Make a step, and let the handler replace its error if it fails. -/
def guarded (name : Name) (slot : Slot) (step : Binding α) : Binding α := fun run =>
  match step run with
  | (.ok a, run) => (.ok a, run)
  | (.error e, run) => S.refuse name slot e run

/-- Bind a node that has been offered, and close it. -/
def descend (name : Name) (slot : Slot) (step : Binding α) : Binding α := fun run =>
  let closed : Binding α := do
    let a ← step
    S.succeed name slot
    S.finish name slot
    return a
  let (outcome, after) := S.guarded name slot closed (run.enter name)
  (outcome, after.leave)

end Session
end PropertyBinding
