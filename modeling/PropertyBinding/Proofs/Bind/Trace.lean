import PropertyBinding.Proofs.Bind.Orderly

/-!
# What a run asks its handler

The calls of a run form a tree.  What is asked about a node while it is bound are
the calls of its members, one after another; those of a member are a question
whether to bind it, the calls of its own members, and the calls that close it.
`Trace` is that tree, read off the steps of an orderly run together with the depth
and the names that each call has to show.

A run can stop at any place with an error, and then nothing more is asked except
what closes the nodes around it.  Where a key is refused, a member has been started
and is not closed.
-/

namespace PropertyBinding

/-- What the handler has been asked, and what it has answered. -/
def callsOf (history : List Event) : List (Visit × Call) :=
  history.filterMap fun
    | .call visit call _ => some (visit, call)
    | .log _ => none

@[simp] theorem callsOf_append (first second : List Event) :
    callsOf (first ++ second) = callsOf first ++ callsOf second :=
  List.filterMap_append

@[simp] theorem callsOf_log (entry : LogEntry) : callsOf [.log entry] = [] := rfl

@[simp] theorem callsOf_call (visit : Visit) (call : Call) (notes : List Note) :
    callsOf [.call visit call notes] = [(visit, call)] := rfl

/-! ## Traces -/

/-- What a visit shows of the state of the run and of the node. -/
structure Visit.At (visit : Visit) (depth : Nat) (names : List Name) (name : Name) : Prop where
  depth : visit.depth = depth
  names : visit.names = names
  name : visit.name = name

/-- Ask whether a node may stand as it is, and replace the error if it may not. -/
inductive Finishing (depth : Nat) (names : List Name) (name : Name) :
    List (Visit × Call) → Option BindFailure → Prop
  | accepted {visit : Visit} (shown : visit.At depth names name) :
      Finishing depth names name [(visit, .finish (.ok ()))] none
  | rejected {visit again : Visit} {e located answer : BindError}
      (shown : visit.At depth names name) (shownAgain : again.At depth names name) :
      Finishing depth names name
        [(visit, .finish (.error e)), (again, .failure located answer)] (some answer.cause)

/-- Close a node, given how binding it has ended. -/
inductive Closing (depth : Nat) (names : List Name) (name : Name) :
    Option BindFailure → List (Visit × Call) → Option BindFailure → Prop
  | bound {visit : Visit} {calls : List (Visit × Call)} {ending : Option BindFailure}
      (shown : visit.At depth names name) (finishing : Finishing depth names name calls ending) :
      Closing depth names name none ((visit, .success) :: calls) ending
  | failed {visit : Visit} {e answer : BindError} (shown : visit.At depth names name) :
      Closing depth names name (some e.cause) [(visit, .failure e answer)] (some answer.cause)

/-- The calls about the members of a node, and the cause for which the run stops
among them, if it does. -/
inductive Trace (sources : Store) (refused : Mismatch → Prop) :
    Nat → List Name → Name → List (Visit × Call) → Option BindFailure → Prop
  | done {depth : Nat} {names : List Name} {name : Name} :
      Trace sources refused depth names name [] none
  | stop {depth : Nat} {names : List Name} {name : Name} (cause : BindFailure) :
      Trace sources refused depth names name [] (some cause)
  | append {depth : Nat} {names : List Name} {name : Name} {before after : List (Visit × Call)}
      {ending : Option BindFailure} (first : Trace sources refused depth names name before none)
      (second : Trace sources refused depth names name after ending) :
      Trace sources refused depth names name (before ++ after) ending
  | vetoed {depth : Nat} {names : List Name} {name child : Name} {visit : Visit}
      (parent : name.IsParentOf child) (there : sources.contains child = true)
      (shown : visit.At depth names child) :
      Trace sources refused depth names name [(visit, .start false)] none
  | visit {depth : Nat} {names : List Name} {name child : Name} {visit : Visit}
      {inside close : List (Visit × Call)} {bound ending : Option BindFailure}
      (parent : name.IsParentOf child) (there : sources.contains child = true)
      (shown : visit.At depth names child)
      (inner : Trace sources refused (depth + 1) (names ++ [child]) child inside bound)
      (closing : Closing depth (names ++ [child]) child bound close ending) :
      Trace sources refused depth names name ((visit, .start true) :: inside ++ close) ending
  | misfit {depth : Nat} {names : List Name} {name child : Name} {visit : Visit} {m : Mismatch}
      (parent : name.IsParentOf child) (there : sources.contains child = true)
      (shown : visit.At depth names child) (reason : refused m) :
      Trace sources refused depth names name [(visit, .start true)] (some (.mismatch m))

/-! ## Steps of a run -/

theorem BindError.cause_locate (e : BindError) (name : Name) : (e.locate name).cause = e.cause := by
  unfold locate
  split <;> rfl

theorem BindError.cause_withTarget (e : BindError) (target : String) :
    (e.withTarget target).cause = e.cause := by
  unfold withTarget
  split <;> rfl

/-- The cause of an error, if there is one. -/
def ending {α : Type} : Except BindError α → Option BindFailure
  | .ok _ => none
  | .error e => some e.cause

theorem ending_map {α β : Type} (f : α → β) (outcome : Except BindError α) :
    ending (outcome.map f) = ending outcome := by
  cases outcome <;> rfl

/-- A state that differs from an earlier one only by what has been used and by the
history, to which these calls have been added. -/
structure Run.Continues (after before : Run) (calls : List (Visit × Call)) : Prop where
  depth : after.depth = before.depth
  names : after.names = before.names
  scope : after.scope = before.scope
  calls : callsOf after.history = callsOf before.history ++ calls

namespace Run.Continues

variable {first second third : Run} {earlier later : List (Visit × Call)}

theorem refl (run : Run) : run.Continues run [] :=
  ⟨rfl, rfl, rfl, (List.append_nil _).symm⟩

theorem trans (after : third.Continues second later) (before : second.Continues first earlier) :
    third.Continues first (earlier ++ later) := by
  refine ⟨after.depth.trans before.depth, after.names.trans before.names,
    after.scope.trans before.scope, ?_⟩
  rw [after.calls, before.calls, List.append_assoc]

theorem noted (run : Run) (visit : Visit) (call : Call) (notes : List Note) :
    (run.noted visit call notes).Continues run [(visit, call)] := by
  refine ⟨rfl, rfl, rfl, ?_⟩
  simp only [Run.noted, callsOf_append, callsOf_call]

theorem logged (run : Run) (entry : LogEntry) :
    ({ run with history := run.history ++ [.log entry] } : Run).Continues run [] := by
  refine ⟨rfl, rfl, rfl, ?_⟩
  simp only [callsOf_append, callsOf_log]

theorem used (run : Run) (p : Property) : (Binding.use p run).2.Continues run [] := by
  unfold Binding.use
  split
  · exact refl run
  · exact ⟨rfl, rfl, rfl, (List.append_nil _).symm⟩

end Run.Continues

theorem Run.visit_at (run : Run) (rootType : String) (name : Name) (slot : Slot) :
    (run.visit rootType name slot).At run.depth run.names name :=
  ⟨rfl, rfl, rfl⟩

namespace Session

variable {α β : Type} {S : Session} {name child : Name} {slot : Slot}

/-- Asking whether to bind a node changes nothing but the history, where the question stands
with the answer of the handler. -/
theorem offer_eq (S : Session) (name : Name) (slot : Slot) (run : Run) :
    let visit := run.visit S.rootType name slot
    let proceed := (S.handler.start S.sources visit).value
    ∃ middle, S.offer name slot run = (.ok proceed, middle) ∧
      middle.Continues run [(visit, .start proceed)] := by
  intro visit proceed
  have asked :=
    Run.Continues.noted run visit (.start proceed) (S.handler.start S.sources visit).notes
  unfold offer
  cases answered : (S.handler.start S.sources visit).value with
  | true =>
      simp only [proceed, answered] at asked
      simp only [proceed, answered, visit, if_true]
      exact ⟨_, rfl, asked⟩
  | false =>
      simp only [proceed, answered] at asked
      simp only [proceed, answered, visit, Bool.false_eq_true, if_false]
      exact ⟨_, rfl, (Run.Continues.logged _ _).trans asked⟩

theorem offer_continues (S : Session) (name : Name) (slot : Slot) (run : Run) :
    ∃ visit proceed, visit.At run.depth run.names name ∧
      (S.offer name slot run).1 = .ok proceed ∧
      (S.offer name slot run).2.Continues run [(visit, .start proceed)] := by
  rcases S.offer_eq name slot run with ⟨middle, offered, asked⟩
  rw [offered]
  exact ⟨_, _, run.visit_at S.rootType name slot, rfl, asked⟩

theorem refuse_continues {α : Type} (S : Session) (name : Name) (slot : Slot) (e : BindError)
    (run : Run) :
    ∃ visit located answer, visit.At run.depth run.names name ∧ located.cause = e.cause ∧
      (S.refuse (α := α) name slot e run).1 = .error answer ∧
      (S.refuse (α := α) name slot e run).2.Continues run [(visit, .failure located answer)] := by
  exact ⟨_, _, _, run.visit_at S.rootType name slot, e.cause_locate name, rfl,
    Run.Continues.noted _ _ _ _⟩

/-- What has been bound is finished, and fails if it may not stand. -/
theorem guarded_finish_continues (S : Session) (name : Name) (slot : Slot) (run : Run) :
    ∃ calls, Finishing run.depth run.names name calls
        (ending (S.guarded name slot (S.finish name slot) run).1) ∧
      (S.guarded name slot (S.finish name slot) run).2.Continues run calls := by
  have shown := run.visit_at S.rootType name slot
  have asked := Run.Continues.noted run (run.visit S.rootType name slot)
    (.finish (S.handler.finish S.sources (run.visit S.rootType name slot)).value)
    (S.handler.finish S.sources (run.visit S.rootType name slot)).notes
  unfold guarded finish
  cases answered : (S.handler.finish S.sources (run.visit S.rootType name slot)).value with
  | ok done =>
      simp only [answered]
      exact ⟨_, .accepted shown, answered ▸ asked⟩
  | error e =>
      simp only [answered]
      rw [answered] at asked
      rcases refuse_continues (α := Unit) S name slot e
        (run.noted (run.visit S.rootType name slot) (.finish (.error e))
        (S.handler.finish S.sources (run.visit S.rootType name slot)).notes)
        with ⟨again, located, answer, shownAgain, _, refused, continued⟩
      rw [refused]
      exact ⟨_, .rejected shown shownAgain, continued.trans asked⟩

variable {α : Type} {sources : Store} {refused : Mismatch → Prop}

/-- A node that has been bound is told so, and then it has yet to be finished. -/
theorem guarded_of_bound (S : Session) (name : Name) (slot : Slot) {body : Binding α}
    {run middle : Run} {a : α} (ran : body run = (.ok a, middle)) :
    let finished := S.guarded name slot (S.finish name slot) (S.succeed name slot middle).2
    S.guarded name slot (S.closed name slot body) run =
      (finished.1.map fun _ => a, finished.2) := by
  have next : (S.succeed name slot >>= fun _ => S.finish name slot >>= fun _ => Pure.pure a)
      middle = (S.finish name slot >>= fun _ => Pure.pure a) (S.succeed name slot middle).2 :=
    Binding.bind_of_ok rfl
  rcases answered : S.finish name slot (S.succeed name slot middle).2 with ⟨answer, last⟩
  unfold closed
  cases answer with
  | ok done =>
      simp only [guarded, Binding.bind_of_ok ran, next, Binding.bind_of_ok answered, answered]
      rfl
  | error e =>
      simp only [guarded, Binding.bind_of_ok ran, next, Binding.bind_of_error answered, answered]
      rfl

/-- A node that could not be bound fails. -/
theorem guarded_of_failed (S : Session) (name : Name) (slot : Slot) {body : Binding α}
    {run middle : Run} {e : BindError} (ran : body run = (.error e, middle)) :
    S.guarded name slot (S.closed name slot body) run = S.refuse name slot e middle := by
  simp only [guarded, closed, Binding.bind_of_error ran]

/-- What has been bound is told so before it is finished, and what could not be bound
fails. -/
theorem closed_continues (S : Session) (name : Name) (slot : Slot) (body : Binding α)
    {run middle : Run} {outcome : Except BindError α} (ran : body run = (outcome, middle)) :
    ∃ close, Closing middle.depth middle.names name (ending outcome) close
        (ending (S.guarded name slot (S.closed name slot body) run).1) ∧
      (S.guarded name slot (S.closed name slot body) run).2.Continues middle close := by
  cases outcome with
  | error e =>
      rcases refuse_continues (α := α) S name slot e middle
        with ⟨visit, located, answer, shown, cause, refusal, closed⟩
      rw [S.guarded_of_failed name slot ran, refusal]
      refine ⟨_, ?_, closed⟩
      simp only [ending, ← cause]
      exact .failed shown
  | ok a =>
      let told := (S.succeed name slot middle).2
      have telling : told.Continues middle [(middle.visit S.rootType name slot, .success)] :=
        Run.Continues.noted _ _ _ _
      rcases guarded_finish_continues S name slot told with ⟨calls, finishing, finished⟩
      rw [S.guarded_of_bound name slot ran, ending_map]
      exact ⟨_ :: calls, .bound (middle.visit_at _ _ _) finishing, finished.trans telling⟩

/-- A node that has been accepted is entered, bound, closed and left, however binding
it ends. -/
theorem descend_continues (S : Session) (name : Name) (slot : Slot) (body : Binding α) (run : Run)
    (inner : ∃ calls, Trace sources refused (run.depth + 1) (run.names ++ [name]) name calls
        (ending (body (run.enter name)).1) ∧
      (body (run.enter name)).2.Continues (run.enter name) calls) :
    ∃ inside bound close,
      Trace sources refused (run.depth + 1) (run.names ++ [name]) name inside bound ∧
      Closing run.depth (run.names ++ [name]) name bound close
        (ending (S.descend name slot body run).1) ∧
      (S.descend name slot body run).2.Continues run (inside ++ close) := by
  rcases inner with ⟨inside, trace, continued⟩
  rcases ran : body (run.enter name) with ⟨outcome, middle⟩
  rw [ran] at trace continued
  rcases closed_continues S name slot body ran with ⟨close, closing, closed⟩
  have entered := closed.trans continued
  rw [continued.depth, continued.names] at closing
  refine ⟨inside, _, close, trace, closing, entered.depth, ?_, entered.scope, entered.calls⟩
  -- Leaving takes off the name that entering has put on.
  exact (congrArg List.dropLast entered.names).trans List.dropLast_concat

/-- A question whether to bind a node, with one way to go on for each answer. -/
theorem offer_bind (S : Session) (child : Name) (slot : Slot) (accepted passed : Binding α)
    (run : Run) :
    ∃ visit proceed middle, visit.At run.depth run.names child ∧
      middle.Continues run [(visit, .start proceed)] ∧
      (S.offer child slot >>= fun proceed => if proceed = true then accepted else passed) run =
        if proceed = true then accepted middle else passed middle := by
  rcases offer_continues S child slot run with ⟨visit, proceed, shown, answered, asked⟩
  rcases offered : S.offer child slot run with ⟨answer, middle⟩
  rw [offered] at answered asked
  subst answered
  refine ⟨visit, proceed, middle, shown, asked, ?_⟩
  rw [Binding.bind_of_ok offered]
  cases proceed <;> rfl

/-- Passing over a node that has been vetoed. -/
private theorem trace_of_vetoed {name child : Name} {run middle : Run} {visit : Visit}
    {passed : Binding α} (parent : name.IsParentOf child) (there : sources.contains child = true)
    (shown : visit.At run.depth run.names child)
    (asked : middle.Continues run [(visit, .start false)])
    (rest : ∃ calls, Trace sources refused middle.depth middle.names name calls
        (ending (passed middle).1) ∧ (passed middle).2.Continues middle calls) :
    ∃ calls, Trace sources refused run.depth run.names name calls (ending (passed middle).1) ∧
      (passed middle).2.Continues run calls := by
  rcases rest with ⟨after, trace, continued⟩
  rw [asked.depth, asked.names] at trace
  exact ⟨_, (Trace.vetoed parent there shown).append trace, continued.trans asked⟩

/-- Binding a node that has been accepted, and going on from there if that succeeds. -/
private theorem trace_of_accepted {β : Type} {name child : Name} {slot : Slot}
    {run middle : Run} {visit : Visit} {body : Binding β} {bound : β → Binding α}
    (parent : name.IsParentOf child) (there : sources.contains child = true)
    (shown : visit.At run.depth run.names child)
    (asked : middle.Continues run [(visit, .start true)])
    (inner : ∃ calls, Trace sources refused (middle.depth + 1) (middle.names ++ [child]) child calls
        (ending (body (middle.enter child)).1) ∧
      (body (middle.enter child)).2.Continues (middle.enter child) calls)
    (rest : ∀ b last, last.scope = run.scope →
      ∃ calls, Trace sources refused last.depth last.names name calls (ending (bound b last).1) ∧
        (bound b last).2.Continues last calls) :
    ∃ calls, Trace sources refused run.depth run.names name calls
        (ending ((S.descend child slot body >>= bound) middle).1) ∧
      ((S.descend child slot body >>= bound) middle).2.Continues run calls := by
  rcases descend_continues S child slot body middle inner
    with ⟨inside, stopped, close, trace, closing, continued⟩
  rw [asked.depth, asked.names] at trace closing
  have member := Trace.visit parent there shown trace closing
  rcases ran : S.descend child slot body middle with ⟨outcome, last⟩
  rw [ran] at member continued
  have whole := continued.trans asked
  cases outcome with
  | error e =>
      rw [Binding.bind_of_error ran]
      exact ⟨_, member, whole⟩
  | ok b =>
      rcases rest b last whole.scope with ⟨after, traceAfter, continuedAfter⟩
      rw [whole.depth, whole.names] at traceAfter
      rw [Binding.bind_of_ok ran]
      exact ⟨_, member.append traceAfter, continuedAfter.trans whole⟩

/-- The depth of the members, as seen from a place in the node. -/
def membersDepth (place : Place) (depth : Nat) : Nat :=
  match place with
  | .node => depth + 1
  | .members => depth

/-- What an orderly step asks is a trace, and the state is put back however it ends. -/
theorem Orderly.trace {rules : Rules} {place : Place} {scope : Store} {name : Name}
    {step : Binding α} (orderly : S.Orderly rules place scope name α step)
    (draws : scope.Draws sources) (run : Run) (inScope : run.scope = scope) :
    ∃ calls, Trace sources rules.refused (membersDepth place run.depth) run.names name calls
        (ending (step run).1) ∧
      (step run).2.Continues run calls := by
  induction orderly generalizing run with
  | pure a => exact ⟨[], .done, .refl run⟩
  | @chain _ _ _ _ _ step next _ _ firstTrace secondTrace =>
      rcases firstTrace draws run inScope with ⟨before, trace, continued⟩
      rcases ran : step run with ⟨outcome, middle⟩
      rw [ran] at trace continued
      cases outcome with
      | error e =>
          rw [Binding.bind_of_error ran]
          exact ⟨before, trace, continued⟩
      | ok a =>
          rcases secondTrace a ⟨run, middle, ran⟩ draws middle (continued.scope.trans inScope)
            with ⟨after, traceAfter, continuedAfter⟩
          rw [continued.depth, continued.names] at traceAfter
          rw [Binding.bind_of_ok ran]
          exact ⟨before ++ after, trace.append traceAfter, continuedAfter.trans continued⟩
  | look _ seenTrace =>
      rw [Binding.scope_bind, inScope]
      exact seenTrace draws run inScope
  | @use _ _ _ p found =>
      have passed : (Binding.use p run).1 = .ok () := by
        unfold Binding.use
        split <;> rfl
      rw [passed]
      exact ⟨[], .done, .used run p⟩
  | log entry => exact ⟨[], .done, .logged run entry⟩
  | fail _ _ => exact ⟨[], .stop _, .refl run⟩
  | @forTarget _ _ _ step target _ innerTrace =>
      rcases innerTrace draws run inScope with ⟨calls, trace, continued⟩
      refine ⟨calls, ?_⟩
      unfold Binding.forTarget
      rcases ran : step run with ⟨outcome, after⟩
      rw [ran] at trace continued
      cases outcome with
      | ok a => exact ⟨trace, continued⟩
      | error e =>
          refine ⟨?_, continued⟩
          simpa only [ending, e.cause_withTarget] using trace
  | nested _ innerTrace =>
      rcases innerTrace draws { run with depth := run.depth + 1 } inScope
        with ⟨calls, trace, continued⟩
      refine ⟨calls, trace, ?_, continued.names, continued.scope, continued.calls⟩
      exact congrArg (· - 1) continued.depth
  | @scopedTo _ source _ _ _ found _ innerTrace =>
      rcases innerTrace (draws.sourceOf? found) { run with scope := source } rfl
        with ⟨calls, trace, continued⟩
      exact ⟨calls, trace, continued.depth, continued.names, rfl, continued.calls⟩
  | @visit scope name child slot _ body bound passed parent there _ _ _ _ innerTrace acceptedTrace
      vetoedTrace =>
      have below := draws.contains there
      rcases offer_bind S child slot (S.descend child slot body >>= bound) passed run
        with ⟨visit, proceed, middle, shown, asked, offered⟩
      rw [offered]
      have inScopeThen := asked.scope.trans inScope
      cases proceed with
      | false =>
          exact trace_of_vetoed parent below shown asked (vetoedTrace draws middle inScopeThen)
      | true =>
          exact trace_of_accepted parent below shown asked
            (innerTrace draws (middle.enter child) inScopeThen)
            fun b last same => acceptedTrace b draws last (same.trans inScope)
  | @misfit scope name child slot _ m passed parent there reason _ vetoedTrace =>
      have below := draws.contains there
      rcases offer_bind S child slot (Binding.mismatch m) passed run
        with ⟨visit, proceed, middle, shown, asked, offered⟩
      rw [offered]
      cases proceed with
      | false =>
          exact trace_of_vetoed parent below shown asked
            (vetoedTrace draws middle (asked.scope.trans inScope))
      | true => exact ⟨_, .misfit parent below shown reason, asked⟩

end Session

/-! ## Whole runs -/

/-- The calls of a whole run.  The root is offered like any other node, but it is
bound only if there is something to bind, and merely finished otherwise. -/
inductive RootTrace (sources : Store) (refused : Mismatch → Prop) (root : Name) :
    List (Visit × Call) → Prop
  | vetoed {visit : Visit} (shown : visit.At 0 [] root) :
      RootTrace sources refused root [(visit, .start false)]
  | bound {visit : Visit} {inside close : List (Visit × Call)} {bound ending : Option BindFailure}
      (there : sources.contains root = true) (shown : visit.At 0 [] root)
      (inner : Trace sources refused 1 [root] root inside bound)
      (closing : Closing 0 [root] root bound close ending) :
      RootTrace sources refused root ((visit, .start true) :: inside ++ close)
  | absent {visit : Visit} {close : List (Visit × Call)} {ending : Option BindFailure}
      (missing : sources.contains root = false) (shown : visit.At 0 [] root)
      (finishing : Finishing 0 [] root close ending) :
      RootTrace sources refused root ((visit, .start true) :: close)

namespace Binding

variable {α β : Type}

theorem forTarget_snd (target : String) (step : Binding α) (run : Run) :
    (forTarget target step run).2 = (step run).2 := by
  unfold forTarget
  rcases step run with ⟨outcome, after⟩
  cases outcome <;> rfl

/-- A step asks no more than its first part if its second part asks nothing. -/
theorem bind_continues {step : Binding α} {next : α → Binding β} {start run : Run}
    {calls : List (Visit × Call)} (first : (step run).2.Continues start calls)
    (silent : ∀ a after, (next a after).2.Continues after []) :
    ((step >>= next) run).2.Continues start calls := by
  rcases ran : step run with ⟨outcome, after⟩
  rw [ran] at first
  cases outcome with
  | ok a =>
      rw [bind_of_ok ran, ← List.append_nil calls]
      exact (silent a after).trans first
  | error e =>
      rw [bind_of_error ran]
      exact first

end Binding

namespace Binder

variable {ρ : Type} {refused : Mismatch → Prop}

theorem bindAccepted_trace (b : Binder ρ) (target : Target ρ) (root : Name) (slot : Slot)
    (fits : ∀ m, target.MayRefuse b.declarations b.sources m → refused m) {run : Run}
    {visit : Visit} (shown : visit.At 0 [] root) (depth : run.depth = 0) (names : run.names = [])
    (inScope : run.scope = b.sources) :
    ∃ calls, RootTrace b.sources refused root ((visit, .start true) :: calls) ∧
      (b.bindAccepted target root slot run).2.Continues run calls := by
  let S := b.session target
  unfold bindAccepted
  cases there : b.sources.contains root with
  | true =>
      have orderly : S.Orderly (.refusing refused) .node b.sources root Value
          (S.readWithin b.declarations (b.sources.height + 1) target root) :=
        S.readWithin_orderly _ target root (Store.Draws.refl b.sources) fits
          fun _ _ _ _ _ _ => trivial
      rcases S.descend_continues root slot
        _ run (orderly.trace (Store.Draws.refl b.sources) (run.enter root) inScope)
        with ⟨inside, bound, close, trace, closing, continued⟩
      rw [depth, names] at trace closing
      exact ⟨inside ++ close, .bound there shown trace closing,
        Binding.bind_continues continued fun _ after => .refl after⟩
  | false =>
      rcases S.guarded_finish_continues root slot run with ⟨close, finishing, continued⟩
      rw [depth, names] at finishing
      exact ⟨close, .absent there shown finishing,
        Binding.bind_continues continued fun _ after => .refl after⟩

/-- What is left to do once the root has been accepted. -/
def bindOffered (b : Binder ρ) (target : Target ρ) (root : Name) (slot : Slot) :
    Binding (Option Value) := do
  let value ← Binding.forTarget (target.label b.declarations) (b.bindAccepted target root slot)
  Binding.log ⟨.debug, "binding complete",
    [("name", .text (toString root)), ("bound", .truth value.isSome)]⟩
  return value

/-- What is asked about the root is what is asked while it is bound. -/
theorem bindOffered_continues {b : Binder ρ} {target : Target ρ} {root : Name} {slot : Slot}
    {run : Run} {calls : List (Visit × Call)}
    (accepted : (b.bindAccepted target root slot run).2.Continues run calls) :
    (b.bindOffered target root slot run).2.Continues run calls := by
  rw [← Binding.forTarget_snd (target.label b.declarations)] at accepted
  exact Binding.bind_continues accepted fun _ after => .logged after _

/-- A run starts by offering the root, and ends there if the root is vetoed. -/
theorem bindRoot_eq (b : Binder ρ) (target : Target ρ) (root : Name) (existing : Bool) :
    let slot := Slot.root (target.label b.declarations) existing
    ∃ visit middle, visit.At 0 [] root ∧
      let proceed := (b.handler.start b.sources visit).value
      middle.Continues (Run.initial b.sources) [(visit, .start proceed)] ∧
        b.bindRoot target root existing (Run.initial b.sources) =
          if proceed = true then b.bindOffered target root slot middle else (.ok none, middle) := by
  intro slot
  let S := b.session target
  let entry : LogEntry := ⟨.debug, "binding",
    [("name", .text (toString root)), ("target", .text S.rootType)]⟩
  let before : Run := { Run.initial b.sources with history := [.log entry] }
  rcases S.offer_eq root slot before with ⟨middle, offered, asked⟩
  refine ⟨before.visit S.rootType root slot, middle, ⟨rfl, rfl, rfl⟩,
    asked.trans (.logged (Run.initial b.sources) entry), ?_⟩
  have answered : (S.offer root slot >>= fun proceed =>
      if proceed = true then b.bindOffered target root slot else return none) before = _ :=
    Binding.bind_of_ok offered
  exact answered.trans (apply_ite (fun step : Binding (Option Value) => step middle) _ _ _)

theorem bindRoot_offered (b : Binder ρ) (target : Target ρ) (root : Name) (existing : Bool) :
    let slot := Slot.root (target.label b.declarations) existing
    ∃ visit proceed middle, visit.At 0 [] root ∧
      middle.Continues (Run.initial b.sources) [(visit, .start proceed)] ∧
      b.bindRoot target root existing (Run.initial b.sources) =
        if proceed = true then b.bindOffered target root slot middle else (.ok none, middle) := by
  rcases b.bindRoot_eq target root existing with ⟨visit, middle, shown, asked, ran⟩
  exact ⟨visit, _, middle, shown, asked, ran⟩

/-- The run of a binder asks what a trace from the root allows. -/
theorem bindAt_trace (b : Binder ρ) (target : Target ρ) (root : Name) (existing : Bool)
    (fits : ∀ m, target.MayRefuse b.declarations b.sources m → refused m) :
    RootTrace b.sources refused root (callsOf (b.bindAt target root existing).history) := by
  rcases b.bindRoot_offered target root existing
    with ⟨visit, proceed, middle, shown, asked, ran⟩
  have history : (b.bindAt target root existing).history = _ :=
    congrArg (fun ran => ran.2.history) ran
  rw [history]
  cases proceed with
  | false =>
      have calls : callsOf middle.history = [(visit, .start false)] := asked.calls
      rw [if_neg Bool.false_ne_true]
      exact calls ▸ .vetoed shown
  | true =>
      rcases b.bindAccepted_trace target root _ fits shown asked.depth asked.names asked.scope
        with ⟨calls, trace, continued⟩
      have whole := ((bindOffered_continues continued).trans asked).calls
      rw [if_pos rfl, whole]
      exact trace

end Binder
end PropertyBinding
