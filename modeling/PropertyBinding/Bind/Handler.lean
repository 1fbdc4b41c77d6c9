import PropertyBinding.Bind.Visit
import PropertyBinding.Bind.Error
import PropertyBinding.Log

/-!
# Handlers

A handler is asked at every node that binding visits.  Before the node is bound
it may veto it, after the node has been bound it is told so and may still reject
it, and when binding the node has failed it may replace the error.

Handlers form chains: each has a parent, which it asks in turn, and the last one
accepts everything.  A handler has no state, so it is given by its answers, and a
link of a chain is a function from handlers to handlers.  Besides its answer a
handler may leave notes, which are kept with the history of the run.
-/

namespace PropertyBinding

/-- The moments of a visit at which a handler is asked. -/
inductive Moment where
  | start
  | success
  | failure (error : BindError)
  | finish
deriving DecidableEq, Repr

/-- What a handler leaves behind: a log entry, or that it has been asked. -/
inductive Note where
  | log (entry : LogEntry)
  | seen (observer : String) (moment : Moment) (visit : Visit)
deriving DecidableEq, Repr

/-- An answer with the notes left while it was found. -/
structure Answer (α : Type) where
  value : α
  notes : List Note

/-- A handler, by its answers.  The sources are those that binding reads from. -/
structure Handler where
  start : (sources : Store) → Visit → Answer Bool
  success : (sources : Store) → Visit → List Note
  failure : (sources : Store) → Visit → BindError → Answer BindError
  finish : (sources : Store) → Visit → Answer (Except BindError Unit)

namespace Handler

/-- The handler that accepts everything. -/
def accepting : Handler where
  start _ _ := ⟨true, []⟩
  success _ _ := []
  failure _ _ error := ⟨error, []⟩
  finish _ _ := ⟨.ok (), []⟩

/-- Veto every node below the members of the root. -/
def ignoreNested (parent : Handler) : Handler :=
  { parent with
    start := fun sources visit =>
      if 1 < visit.depth then ⟨false, []⟩ else parent.start sources visit }

/-- The properties below a name that have not been used. -/
def unused (sources : Store) (visit : Visit) : List Property :=
  (sources.below visit.name).filter fun p => !visit.bound.any fun used => used.name.Same p.name

/-- Reject the root when properties below it have not been used. -/
def noUnbound (parent : Handler) : Handler :=
  { parent with
    finish := fun sources visit =>
      let left := if visit.depth = 0 then unused sources visit else []
      if left.isEmpty then parent.finish sources visit
      else ⟨.error (.here visit.name visit.rootType none (.unbound left)), []⟩ }

def traceEntry (message : String) (visit : Visit) (details : List (String × Detail)) : Note :=
  .log ⟨.trace, message,
    [("name", .text (toString visit.name)), ("depth", .count visit.depth)] ++ details⟩

/-- Log every question except the last. -/
def tracing (parent : Handler) : Handler :=
  { parent with
    start := fun sources visit =>
      let answer := parent.start sources visit
      ⟨answer.value, answer.notes ++
        [traceEntry "bind start" visit
          [("owner", .text visit.slot.owner), ("proceed", .truth answer.value)]]⟩
    success := fun sources visit =>
      traceEntry "bind success" visit [] :: parent.success sources visit
    failure := fun sources visit error =>
      let answer := parent.failure sources visit error
      ⟨answer.value,
        traceEntry "bind failure" visit [("cause", .text error.cause.message)] :: answer.notes⟩ }

/-- What an observer decides by itself. -/
structure Policy where
  vetoes : Visit → Bool
  replaces : Visit → BindError → Option BindError
  rejects : Visit → Option BindError

/-- Note every question, and then decide by a policy or ask the parent. -/
def observing (observer : String) (policy : Policy) (parent : Handler) : Handler where
  start sources visit :=
    let answer : Answer Bool :=
      if policy.vetoes visit then ⟨false, []⟩ else parent.start sources visit
    ⟨answer.value, .seen observer .start visit :: answer.notes⟩
  success sources visit :=
    .seen observer .success visit :: parent.success sources visit
  failure sources visit error :=
    let answer := parent.failure sources visit ((policy.replaces visit error).getD error)
    ⟨answer.value, .seen observer (.failure error) visit :: answer.notes⟩
  finish sources visit :=
    let answer : Answer (Except BindError Unit) :=
      match policy.rejects visit with
      | some error => ⟨.error error, []⟩
      | none => parent.finish sources visit
    ⟨answer.value, .seen observer .finish visit :: answer.notes⟩

end Handler

/-- The handlers that come with the library. -/
inductive Provided where
  | ignoreNested
  | noUnbound
  | tracing
deriving DecidableEq, Repr

def Provided.over : Provided → Handler → Handler
  | ignoreNested => Handler.ignoreNested
  | noUnbound => Handler.noUnbound
  | tracing => Handler.tracing

/-- A chain of provided handlers, outermost first. -/
def Provided.chain (links : List Provided) : Handler :=
  links.foldr Provided.over Handler.accepting

end PropertyBinding
