import PropertyBinding.Proofs.Bind.Unbound

/-!
# Chains of handlers

A handler of a chain hears of a node only what the links before it pass on, and it answers
through them.  So a link that passes on every question, and passes back every answer, cannot
be noticed, wherever it stands.  The link that logs is one.  Of the other provided links only
their kinds matter: the first link that limits the depth vetoes what any of them would veto,
and the first link that looks for leftovers rejects what any of them would reject.

Links of other kinds than the provided ones are given by what they do with a question.  Such
a link may put any questions to its parent, as often as it likes, before it answers.  What a
link is asked shows in the history when the link is watched.
-/

namespace PropertyBinding

variable {κ α ρ : Type} {view : Note → Option κ}

/-! ## Handlers that answer alike -/

/-- Two answers of the same value, with the same of the notes that are viewed. -/
structure Answer.Same (view : Note → Option κ) (answer other : Answer α) : Prop where
  value : answer.value = other.value
  notes : answer.notes.filterMap view = other.notes.filterMap view

/-- Two handlers that answer every question in the same way. -/
structure Handler.AnswersAs (view : Note → Option κ) (handler other : Handler) : Prop where
  started : ∀ sources visit,
    (handler.start sources visit).Same view (other.start sources visit)
  succeeded : ∀ sources visit,
    (handler.success sources visit).filterMap view = (other.success sources visit).filterMap view
  failed : ∀ sources visit e,
    (handler.failure sources visit e).Same view (other.failure sources visit e)
  finished : ∀ sources visit,
    (handler.finish sources visit).Same view (other.finish sources visit)

/-- An event without the notes that are not viewed. -/
def Event.through (view : Note → Option κ) : Event → (Visit × Call × List κ) ⊕ LogEntry
  | .call visit asked notes => .inl (visit, asked, notes.filterMap view)
  | .log entry => .inr entry

/-- What an observer has noted, and not what has been logged. -/
def Note.seen? : Note → Option (String × Moment × Visit)
  | .log _ => none
  | .seen observer moment visit => some (observer, moment, visit)

theorem callsOf_congr {history other : List Event}
    (same : history.map (Event.through view) = other.map (Event.through view)) :
    callsOf history = callsOf other := by
  have read : ∀ events : List Event, callsOf events =
      (events.map (Event.through view)).filterMap
        fun event => event.elim (fun call => some (call.1, call.2.1)) fun _ => none := by
    intro events
    rw [callsOf, List.filterMap_map]
    congr 1
    funext event
    cases event <;> rfl
  rw [read, read, same]

theorem seenIn_congr {history other : List Event}
    (same : history.map (Event.through Note.seen?) = other.map (Event.through Note.seen?)) :
    seenIn history = seenIn other := by
  have read : ∀ events : List Event, seenIn events =
      (events.map (Event.through Note.seen?)).flatMap
        fun event => event.elim (fun call => call.2.2) fun _ => [] := by
    intro events
    rw [seenIn, List.flatMap_map]
    congr 1
    funext event
    cases event with
    | log entry => rfl
    | call visit call notes =>
        refine List.filterMap_congr fun note _ => ?_
        cases note <;> rfl
  rw [read, read, same]

namespace Handler.AnswersAs

variable {handler other : Handler}

theorem alike (same : handler.AnswersAs view other) (s : Store) (type : String) :
    Session.Alike (fun event => some (event.through view)) (fun _ => True) ⟨s, handler, type⟩
      ⟨s, other, type⟩ where
  rootType := rfl
  started := fun visit _ _ => by
    have answers := same.started s visit
    exact ⟨answers.value, by simp only [Event.through, answers.value, answers.notes]⟩
  succeeded := fun visit _ _ => by simp only [Event.through, same.succeeded s visit]
  failed := fun visit e _ _ => by
    have answers := same.failed s visit e
    exact ⟨answers.value, by simp only [Event.through, answers.value, answers.notes]⟩
  finished := fun visit _ _ => by
    have answers := same.finished s visit
    exact ⟨answers.value, by simp only [Event.through, answers.value, answers.notes]⟩

/-- Binding with handlers that answer alike comes to the same. -/
theorem bindAt (same : handler.AnswersAs view other) (s : Store) (declarations : Declarations ρ)
    (target : Target ρ) (root : Name) (existing : Bool) :
    let outcome := (Binder.mk s handler declarations).bindAt target root existing
    let otherOutcome := (Binder.mk s other declarations).bindAt target root existing
    outcome.result = otherOutcome.result ∧ outcome.bound = otherOutcome.bound ∧
      outcome.history.map (Event.through view) = otherOutcome.history.map (Event.through view) := by
  intro outcome otherOutcome
  have alike := same.alike s (target.label declarations)
  have agrees := alike.agrees rfl
  have matched : outcome.result = otherOutcome.result ∧ outcome.bound = otherOutcome.bound ∧
      outcome.history.filterMap (fun event => some (event.through view)) =
        otherOutcome.history.filterMap fun event => some (event.through view) :=
    Binder.bindAt_matches alike trivial existing rfl fun there =>
      agrees.readToHeight ⟨rfl, .refl s⟩ trivial target there fun u _ => u.asks_true
  simpa only [List.filterMap_eq_map'] using matched

/-! ## Links -/

theorem provided (same : handler.AnswersAs view other) (link : Provided) :
    (link.over handler).AnswersAs view (link.over other) := by
  cases link with
  | ignoreNested =>
      refine ⟨fun sources visit => ?_, same.succeeded, same.failed, same.finished⟩
      simp only [Provided.over, Handler.ignoreNested]
      split
      · exact ⟨rfl, rfl⟩
      · exact same.started sources visit
  | noUnbound =>
      refine ⟨same.started, same.succeeded, same.failed, fun sources visit => ?_⟩
      simp only [Provided.over, Handler.noUnbound]
      generalize (if visit.depth = 0 then unused sources visit else []) = left
      cases left with
      | nil => exact same.finished sources visit
      | cons p rest => exact ⟨rfl, rfl⟩
  | tracing =>
      refine ⟨fun sources visit => ?_, fun sources visit => ?_, fun sources visit e => ?_,
        same.finished⟩
      · have answers := same.started sources visit
        refine ⟨answers.value, ?_⟩
        simp only [Provided.over, Handler.tracing, List.filterMap_append, answers.notes,
          answers.value]
      · simp only [Provided.over, Handler.tracing, List.filterMap_cons,
          same.succeeded sources visit]
      · have answers := same.failed sources visit e
        refine ⟨answers.value, ?_⟩
        simp only [Provided.over, Handler.tracing, List.filterMap_cons, answers.notes]

end Handler.AnswersAs

/-- The link that logs adds nothing but log entries to what its parent answers. -/
theorem Handler.tracing_answersAs (parent : Handler) :
    (Handler.tracing parent).AnswersAs Note.seen? parent := by
  refine ⟨fun sources visit => ⟨rfl, ?_⟩, fun sources visit => ?_, fun sources visit e => ⟨rfl, ?_⟩,
    fun sources visit => ⟨rfl, rfl⟩⟩
  · simp only [Handler.tracing, List.filterMap_append]
    exact List.append_nil _
  · simp only [Handler.tracing, List.filterMap_cons]
    rfl
  · simp only [Handler.tracing, List.filterMap_cons]
    rfl

/-! ## Links that are not provided -/

/-- What a link does with a question: it puts questions to its parent, and after these it
answers. -/
inductive Reaction (α : Type) where
  | answer (a : α)
  | start (visit : Visit) (next : Bool → Reaction α)
  | success (visit : Visit) (next : Reaction α)
  | failure (visit : Visit) (error : BindError) (next : BindError → Reaction α)
  | finish (visit : Visit) (next : Except BindError Unit → Reaction α)

/-- The answer that a reaction comes to over a parent, with the notes of all that is asked on
the way. -/
def Reaction.over (parent : Handler) (sources : Store) : Reaction α → Answer α
  | .answer a => ⟨a, []⟩
  | .start visit next =>
    let asked := parent.start sources visit
    let answer := (next asked.value).over parent sources
    ⟨answer.value, asked.notes ++ answer.notes⟩
  | .success visit next =>
    let answer := next.over parent sources
    ⟨answer.value, parent.success sources visit ++ answer.notes⟩
  | .failure visit error next =>
    let asked := parent.failure sources visit error
    let answer := (next asked.value).over parent sources
    ⟨answer.value, asked.notes ++ answer.notes⟩
  | .finish visit next =>
    let asked := parent.finish sources visit
    let answer := (next asked.value).over parent sources
    ⟨answer.value, asked.notes ++ answer.notes⟩

/-- A link of any kind, by its reactions. -/
structure CustomLink where
  start : Store → Visit → Reaction Bool
  success : Store → Visit → Reaction Unit
  failure : Store → Visit → BindError → Reaction BindError
  finish : Store → Visit → Reaction (Except BindError Unit)

/-- A custom link over its parent. -/
def CustomLink.over (link : CustomLink) (parent : Handler) : Handler where
  start sources visit := (link.start sources visit).over parent sources
  success sources visit := ((link.success sources visit).over parent sources).notes
  failure sources visit error := (link.failure sources visit error).over parent sources
  finish sources visit := (link.finish sources visit).over parent sources

/-- The link that asks its parent unless it decides by a policy. -/
def CustomLink.deciding (policy : Handler.Policy) : CustomLink where
  start _ visit := if policy.vetoes visit then .answer false else .start visit .answer
  success _ visit := .success visit (.answer ())
  failure _ visit error := .failure visit ((policy.replaces visit error).getD error) .answer
  finish _ visit :=
    match policy.rejects visit with
    | some error => .answer (.error error)
    | none => .finish visit .answer

/-- A handler that notes what it is asked, and answers as another. -/
def Handler.watched (observer : String) (handler : Handler) : Handler where
  start sources visit :=
    let answer := handler.start sources visit
    ⟨answer.value, .seen observer .start visit :: answer.notes⟩
  success sources visit := .seen observer .success visit :: handler.success sources visit
  failure sources visit error :=
    let answer := handler.failure sources visit error
    ⟨answer.value, .seen observer (.failure error) visit :: answer.notes⟩
  finish sources visit :=
    let answer := handler.finish sources visit
    ⟨answer.value, .seen observer .finish visit :: answer.notes⟩

/-- An observer is a link that decides by a policy, and that is watched. -/
theorem CustomLink.deciding_over_watched (observer : String) (policy : Handler.Policy)
    (parent : Handler) :
    ((CustomLink.deciding policy).over parent).watched observer =
      Handler.observing observer policy parent := by
  simp only [CustomLink.over, deciding, Handler.watched, Handler.observing, Reaction.over,
    List.append_nil, Handler.mk.injEq, true_and]
  constructor
  · funext sources visit
    by_cases vetoed : policy.vetoes visit = true
    · simp only [if_pos vetoed, Reaction.over]
    · simp only [if_neg vetoed, Reaction.over, List.append_nil]
  · funext sources visit
    cases policy.rejects visit with
    | some error => rfl
    | none => simp only [Reaction.over, List.append_nil]

/-- A link of a chain, which may be watched. -/
inductive ChainLink where
  | provided (link : Provided)
  | custom (link : CustomLink)
  | watched (observer : String) (link : ChainLink)

def ChainLink.over : ChainLink → Handler → Handler
  | provided link, parent => link.over parent
  | custom link, parent => link.over parent
  | watched observer link, parent => (link.over parent).watched observer

/-- A chain of links of any kind, outermost first. -/
def ChainLink.chain (links : List ChainLink) : Handler :=
  links.foldr ChainLink.over .accepting

namespace Handler.AnswersAs

variable {handler other : Handler}

/-- A reaction meets with the same answers, and so it takes the same course. -/
theorem reaction (same : handler.AnswersAs view other) (sources : Store) (reaction : Reaction α) :
    (reaction.over handler sources).Same view (reaction.over other sources) := by
  induction reaction with
  | answer a => exact ⟨rfl, rfl⟩
  | start visit next inductionHypothesis =>
      have asked := same.started sources visit
      have rest := inductionHypothesis (other.start sources visit).value
      simp only [Reaction.over, asked.value]
      exact ⟨rest.value, by simp only [List.filterMap_append, asked.notes, rest.notes]⟩
  | success visit next inductionHypothesis =>
      refine ⟨inductionHypothesis.value, ?_⟩
      simp only [Reaction.over, List.filterMap_append, same.succeeded sources visit,
        inductionHypothesis.notes]
  | failure visit error next inductionHypothesis =>
      have asked := same.failed sources visit error
      have rest := inductionHypothesis (other.failure sources visit error).value
      simp only [Reaction.over, asked.value]
      exact ⟨rest.value, by simp only [List.filterMap_append, asked.notes, rest.notes]⟩
  | finish visit next inductionHypothesis =>
      have asked := same.finished sources visit
      have rest := inductionHypothesis (other.finish sources visit).value
      simp only [Reaction.over, asked.value]
      exact ⟨rest.value, by simp only [List.filterMap_append, asked.notes, rest.notes]⟩

theorem custom (same : handler.AnswersAs view other) (link : CustomLink) :
    (link.over handler).AnswersAs view (link.over other) :=
  ⟨fun sources visit => same.reaction sources (link.start sources visit),
    fun sources visit => (same.reaction sources (link.success sources visit)).notes,
    fun sources visit e => same.reaction sources (link.failure sources visit e),
    fun sources visit => same.reaction sources (link.finish sources visit)⟩

theorem watched (same : handler.AnswersAs view other) (observer : String) :
    (handler.watched observer).AnswersAs view (other.watched observer) := by
  have noted {α : Type} (note : Note) {answer otherAnswer : Answer α}
      (answers : answer.Same view otherAnswer) :
      Answer.Same view ⟨answer.value, note :: answer.notes⟩
        ⟨otherAnswer.value, note :: otherAnswer.notes⟩ :=
    ⟨answers.value, by simp only [List.filterMap_cons, answers.notes]⟩
  refine ⟨fun sources visit => noted _ (same.started sources visit), fun sources visit => ?_,
    fun sources visit e => noted _ (same.failed sources visit e),
    fun sources visit => noted _ (same.finished sources visit)⟩
  simp only [Handler.watched, List.filterMap_cons, same.succeeded sources visit]

theorem link (same : handler.AnswersAs view other) (link : ChainLink) :
    (link.over handler).AnswersAs view (link.over other) := by
  induction link with
  | provided link => exact same.provided link
  | custom link => exact same.custom link
  | watched observer link inductionHypothesis => exact inductionHypothesis.watched observer

/-- Links in front of handlers that answer alike do not tell them apart. -/
theorem chain (same : handler.AnswersAs view other) (links : List ChainLink) :
    (links.foldr ChainLink.over handler).AnswersAs view (links.foldr ChainLink.over other) := by
  induction links with
  | nil => exact same
  | cons link rest inductionHypothesis => exact inductionHypothesis.link link

end Handler.AnswersAs

/-! ## Provided links in any order -/

namespace Provided

/-- Chains with the same kinds of links that decide differ at most in their notes. -/
theorem chain_answersAs {links others : List Provided}
    (limiting : .ignoreNested ∈ links ↔ .ignoreNested ∈ others)
    (rejecting : .noUnbound ∈ links ↔ .noUnbound ∈ others) :
    (chain links).AnswersAs (fun _ => (none : Option Empty)) (chain others) := by
  have unseen (notes other : List Note) :
      notes.filterMap (fun _ => (none : Option Empty)) = other.filterMap fun _ => none := by
    simp only [List.filterMap_none]
  refine ⟨fun sources visit => ⟨?_, unseen _ _⟩, fun sources visit => unseen _ _,
    fun sources visit e => ⟨?_, unseen _ _⟩, fun sources visit => ⟨?_, unseen _ _⟩⟩
  · rw [start_chain, start_chain]
    simp only [limiting]
  · rw [(chain_candid links).failure, (chain_candid others).failure]
  · rw [finish_chain_eq, finish_chain_eq]
    simp only [rejecting]

end Provided

/-! ## Whole runs -/

namespace Binder

/-- Chains of provided links that agree on which kinds of deciding links occur in them bind
alike: the order of the links does not matter, nor how often they occur.  And whatever links a
chain consists of, the link that logs may be put in anywhere: the run comes to the same, the
chain is asked the same questions, and so is each of its links that is watched. -/
theorem bindAt_chains (s : Store) (declarations : Declarations ρ) (target : Target ρ)
    (root : Name) (existing : Bool) :
    (∀ links others : List Provided,
      (.ignoreNested ∈ links ↔ .ignoreNested ∈ others) →
      (.noUnbound ∈ links ↔ .noUnbound ∈ others) →
      let outcome := (Binder.mk s (Provided.chain links) declarations).bindAt target root existing
      let other := (Binder.mk s (Provided.chain others) declarations).bindAt target root existing
      outcome.result = other.result ∧ outcome.bound = other.bound ∧
        callsOf outcome.history = callsOf other.history) ∧
    ∀ before after : List ChainLink,
      let plain := ChainLink.chain (before ++ after)
      let traced := ChainLink.chain (before ++ .provided .tracing :: after)
      let outcome := (Binder.mk s plain declarations).bindAt target root existing
      let other := (Binder.mk s traced declarations).bindAt target root existing
      other.result = outcome.result ∧ other.bound = outcome.bound ∧
        callsOf other.history = callsOf outcome.history ∧
        seenIn other.history = seenIn outcome.history := by
  constructor
  · intro links others limiting rejecting
    have same := Provided.chain_answersAs limiting rejecting
    rcases same.bindAt s declarations target root existing with ⟨result, bound, history⟩
    exact ⟨result, bound, callsOf_congr history⟩
  · intro before after plain traced
    have unnoticed : traced.AnswersAs Note.seen? plain := by
      simp only [traced, plain, ChainLink.chain, List.foldr_append]
      exact (Handler.tracing_answersAs _).chain before
    rcases unnoticed.bindAt s declarations target root existing with ⟨result, bound, history⟩
    exact ⟨result, bound, callsOf_congr history, seenIn_congr history⟩

/-- A service with a misspelled property, which two chains reject in the same way. -/
theorem bindAt_chains_service :
    let service := Name.root.child "service"
    let port := Property.mk (service.child "port") "80" ⟨"file", "service.port"⟩
    let prot := Property.mk (service.child "prot") "81" ⟨"file", "service.prot"⟩
    let s := Store.empty.push "file" [port, prot]
    let declarations : Declarations Unit := ⟨fun _ => ⟨"app::Service", "Service",
      [⟨"port", "port", ["port"], .whole ⟨false, 16⟩, .missing⟩]⟩, fun _ => .unit⟩
    let links : List Provided := [.noUnbound, .ignoreNested, .noUnbound]
    let others : List Provided := [.ignoreNested, .tracing, .noUnbound]
    let outcome := (Binder.mk s (Provided.chain links) declarations).bindAt (.record ()) service
      false
    let other := (Binder.mk s (Provided.chain others) declarations).bindAt (.record ()) service
      false
    outcome.result = other.result ∧ other.result.isOk = false ∧ other.bound = [port] := by
  intro service port prot s declarations links others outcome other
  have same := (bindAt_chains s declarations (.record ()) service false).1 links others (by decide)
    (by decide)
  have rejected : other.result.isOk = false ∧ other.bound = [port] := by
    decide +kernel
  exact ⟨same.1, rejected⟩

end Binder

end PropertyBinding
