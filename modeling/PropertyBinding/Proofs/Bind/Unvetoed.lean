import PropertyBinding.Proofs.Bind.Trace

/-!
# Runs in which nothing is vetoed

Members are bound one after another in one run, and each is bound in the state that those
before it have left.  Handlers see this state, so they may veto or reject a member for what
has been bound before.  A veto changes values: a field that is passed over is taken for
missing, and a list ends at an element that is passed over.  What else handlers do does not.
They can make a run fail, but as long as nothing is vetoed an orderly step gives one value for
the sources in scope, in whatever state it is made.

This is shown by induction over the kinds of steps.  Of a run that has succeeded, each part
has succeeded, and if nothing has been vetoed in the run then nothing has been in a part.
-/

namespace PropertyBinding

variable {α β : Type}

/-! ## Runs without a veto -/

/-- No node is vetoed. -/
def Unvetoed (calls : List (Visit × Call)) : Prop :=
  ∀ visit, (visit, .start false) ∉ calls

theorem Unvetoed.append {first second : List (Visit × Call)} (none : Unvetoed first)
    (noneThen : Unvetoed second) : Unvetoed (first ++ second) := by
  intro visit vetoed
  rcases List.mem_append.mp vetoed with early | late
  · exact none visit early
  · exact noneThen visit late

theorem Finishing.unvetoed {depth : Nat} {names : List Name} {name : Name}
    {calls : List (Visit × Call)} {ending : Option BindFailure}
    (finishing : Finishing depth names name calls ending) : Unvetoed calls := by
  intro visit vetoed
  cases finishing with
  | accepted shown => simp at vetoed
  | rejected shown again => simp at vetoed

theorem Closing.unvetoed {depth : Nat} {names : List Name} {name : Name}
    {calls : List (Visit × Call)} {bound ending : Option BindFailure}
    (closing : Closing depth names name bound calls ending) : Unvetoed calls := by
  intro visit vetoed
  cases closing with
  | bound shown finishing =>
      rcases List.mem_cons.mp vetoed with impossible | later
      · cases impossible
      · exact finishing.unvetoed visit later
  | failed shown => simp at vetoed

/-- No node has been vetoed between two states of a run. -/
def Run.UnvetoedSince (after before : Run) : Prop :=
  ∃ calls, after.Continues before calls ∧ Unvetoed calls

namespace Run.UnvetoedSince

variable {before middle after : Run} {earlier later : List (Visit × Call)}

/-- It depends on the calls alone whether something has been vetoed. -/
theorem of_calls (since : after.UnvetoedSince before) {run last : Run}
    (start : callsOf run.history = callsOf before.history)
    (stop : callsOf last.history = callsOf after.history)
    (continued : last.Continues run earlier) : last.UnvetoedSince run := by
  rcases since with ⟨calls, continuedToo, none⟩
  have added := continued.calls
  rw [start, stop, continuedToo.calls] at added
  exact ⟨earlier, continued, List.append_cancel_left added ▸ none⟩

theorem unvetoed (since : after.UnvetoedSince before) (continued : after.Continues before earlier) :
    Unvetoed earlier := by
  rcases since with ⟨calls, continuedToo, none⟩
  have same := continued.calls.symm.trans continuedToo.calls
  rwa [List.append_cancel_left same]

theorem first (since : after.UnvetoedSince before) (asked : middle.Continues before earlier)
    (continued : after.Continues middle later) : middle.UnvetoedSince before :=
  ⟨earlier, asked, fun visit vetoed =>
    since.unvetoed (continued.trans asked) visit (List.mem_append_left _ vetoed)⟩

theorem second (since : after.UnvetoedSince before) (asked : middle.Continues before earlier)
    (continued : after.Continues middle later) : after.UnvetoedSince middle :=
  ⟨later, continued, fun visit vetoed =>
    since.unvetoed (continued.trans asked) visit (List.mem_append_right _ vetoed)⟩

end Run.UnvetoedSince

/-! ## Steps that have succeeded -/

namespace Binding

variable {step : Binding α} {run after : Run} {a : α}

theorem bind_eq_ok {step : Binding α} {next : α → Binding β} {run after : Run} {b : β}
    (ran : (step >>= next) run = (.ok b, after)) :
    ∃ a middle, step run = (.ok a, middle) ∧ next a middle = (.ok b, after) := by
  rcases first : step run with ⟨outcome, middle⟩
  cases outcome with
  | ok a => exact ⟨a, middle, rfl, (bind_of_ok first).symm.trans ran⟩
  | error e =>
      rw [bind_of_error first] at ran
      cases ran

theorem forTarget_eq_ok {target : String} (ran : forTarget target step run = (.ok a, after)) :
    step run = (.ok a, after) := by
  unfold forTarget at ran
  rcases inner : step run with ⟨outcome, last⟩
  rw [inner] at ran
  cases outcome with
  | ok b => exact ran
  | error e => cases ran

theorem nested_eq_ok (ran : nested step run = (.ok a, after)) :
    ∃ start last, start.scope = run.scope ∧ start.history = run.history ∧
      step start = (.ok a, last) ∧ last.history = after.history := by
  unfold nested at ran
  rcases inner : step { run with depth := run.depth + 1 } with ⟨outcome, last⟩
  rw [inner] at ran
  cases ran
  exact ⟨{ run with depth := run.depth + 1 }, last, rfl, rfl, inner, rfl⟩

theorem scopedTo_eq_ok {source : Store} (ran : scopedTo source step run = (.ok a, after)) :
    ∃ start last, start.scope = source ∧ start.history = run.history ∧
      step start = (.ok a, last) ∧ last.history = after.history := by
  unfold scopedTo at ran
  rcases inner : step { run with scope := source } with ⟨outcome, last⟩
  rw [inner] at ran
  cases ran
  exact ⟨{ run with scope := source }, last, rfl, rfl, inner, rfl⟩

end Binding

namespace Session

variable {S : Session} {name child : Name} {slot : Slot}

/-- A node adds to the calls what its members add, and then it is closed. -/
theorem descend_adds (slot : Slot) {body : Binding α} {run : Run} {inside : List (Visit × Call)}
    (inner : (body (run.enter name)).2.Continues (run.enter name) inside) :
    ∃ close, Unvetoed close ∧ (S.descend name slot body run).2.Continues run (inside ++ close) := by
  rcases ran : body (run.enter name) with ⟨outcome, middle⟩
  rw [ran] at inner
  rcases S.closed_continues name slot body ran with ⟨close, closing, closed⟩
  have whole := closed.trans inner
  exact ⟨close, closing.unvetoed, whole.depth,
    (congrArg List.dropLast whole.names).trans List.dropLast_concat, whole.scope, whole.calls⟩

/-- A node that is bound has the value that binding it gives. -/
theorem descend_eq_ok {body : Binding α} {run after : Run} {a : α}
    (ran : S.descend name slot body run = (.ok a, after)) :
    ∃ middle, body (run.enter name) = (.ok a, middle) := by
  have closed : (S.guarded name slot (S.closed name slot body) (run.enter name)).1 = .ok a :=
    congrArg Prod.fst ran
  rcases bound : body (run.enter name) with ⟨outcome, middle⟩
  cases outcome with
  | ok b =>
      rw [S.guarded_of_bound name slot bound] at closed
      dsimp only at closed
      generalize (S.guarded name slot (S.finish name slot) _).1 = finished at closed
      cases finished with
      | ok done =>
          cases closed
          exact ⟨middle, rfl⟩
      | error e => cases closed
  | error e =>
      rw [S.guarded_of_failed name slot bound] at closed
      cases closed

variable {rules : Rules} {place : Place} {scope : Store}

/-- An orderly step adds to the calls, however it ends. -/
theorem Orderly.continues {step : Binding α} (orderly : S.Orderly rules place scope name α step)
    {run : Run} (inScope : run.scope = scope) : ∃ calls, (step run).2.Continues run calls := by
  rcases orderly.trace (Store.Draws.refl scope) run inScope with ⟨calls, _, continued⟩
  exact ⟨calls, continued⟩

/-- A step inside another one, with the same history at both ends. -/
theorem Orderly.unvetoed {step : Binding α} (orderly : S.Orderly rules place scope name α step)
    {run last before after : Run} {outcome : Except BindError α} (inScope : run.scope = scope)
    (ran : step run = (outcome, last)) (since : after.UnvetoedSince before)
    (start : run.history = before.history) (stop : last.history = after.history) :
    last.UnvetoedSince run := by
  rcases orderly.continues inScope with ⟨calls, continued⟩
  rw [ran] at continued
  exact since.of_calls (congrArg callsOf start) (congrArg callsOf stop) continued

/-- Where nothing is vetoed, a node that is offered is accepted. -/
theorem accepted_of_unvetoed {accepted passed : Binding α} {run after : Run}
    {outcome : Except BindError α} (passes : ∀ middle, middle.scope = run.scope →
      ∃ calls, (passed middle).2.Continues middle calls)
    (ran : (S.offer child slot >>= fun proceed => if proceed = true then accepted else passed) run =
      (outcome, after)) (since : after.UnvetoedSince run) :
    ∃ visit middle, middle.Continues run [(visit, .start true)] ∧
      accepted middle = (outcome, after) := by
  rcases S.offer_eq child slot run with ⟨middle, offered, asked⟩
  generalize run.visit S.rootType child slot = visit at offered asked
  generalize (S.handler.start S.sources visit).value = proceed at offered asked
  rw [Binding.bind_of_ok offered] at ran
  cases proceed with
  | true => exact ⟨visit, middle, asked, ran⟩
  | false =>
      rcases passes middle asked.scope with ⟨calls, continued⟩
      have passedRan : passed middle = (outcome, after) := ran
      rw [passedRan] at continued
      exact absurd List.mem_cons_self (since.unvetoed (continued.trans asked) visit)

/-- Two steps of which the first has succeeded, and in which nothing is vetoed. -/
theorem Orderly.bind_parts {step : Binding α} {next : α → Binding β}
    (first : S.Orderly rules place scope name α step)
    (second : ∀ a, step.Yields a → S.Orderly rules place scope name β (next a))
    {run after : Run} {b : β} (inScope : run.scope = scope)
    (ran : (step >>= next) run = (.ok b, after)) (since : after.UnvetoedSince run) :
    ∃ a middle, step.Yields a ∧ middle.scope = scope ∧
      step run = (.ok a, middle) ∧ middle.UnvetoedSince run ∧
      next a middle = (.ok b, after) ∧ after.UnvetoedSince middle := by
  rcases Binding.bind_eq_ok ran with ⟨a, middle, ranFirst, ranSecond⟩
  have yields : step.Yields a := ⟨run, middle, ranFirst⟩
  rcases first.continues inScope with ⟨earlier, asked⟩
  rw [ranFirst] at asked
  have inScopeThen := asked.scope.trans inScope
  rcases (second a yields).continues inScopeThen with ⟨later, continued⟩
  rw [ranSecond] at continued
  exact ⟨a, middle, yields, inScopeThen, ranFirst, since.first asked continued, ranSecond,
    since.second asked continued⟩

/-- A member that has been bound, and what comes after it, when nothing is vetoed. -/
theorem Orderly.visit_parts {body : Binding β} {bound : β → Binding α} {passed : Binding α}
    (inner : S.Orderly rules .node scope child β body)
    (accepted : ∀ b, S.Orderly rules .members scope name α (bound b))
    (vetoed : S.Orderly rules .members scope name α passed) {run after : Run} {a : α}
    (inScope : run.scope = scope)
    (ran : (S.offer child slot >>= fun proceed =>
      if proceed = true then S.descend child slot body >>= bound else passed) run = (.ok a, after))
    (since : after.UnvetoedSince run) :
    ∃ b before middle last, before.scope = scope ∧ last.scope = scope ∧
      body before = (.ok b, middle) ∧ middle.UnvetoedSince before ∧
      bound b last = (.ok a, after) ∧ after.UnvetoedSince last := by
  rcases accepted_of_unvetoed (fun _ same => vetoed.continues (same.trans inScope)) ran since
    with ⟨visit, offered, asked, ranThen⟩
  have inScopeThen := asked.scope.trans inScope
  rcases Binding.bind_eq_ok ranThen with ⟨b, last, ranMember, ranRest⟩
  rcases descend_eq_ok ranMember with ⟨middle, ranBody⟩
  have entered : (offered.enter child).scope = scope := inScopeThen
  rcases inner.continues entered with ⟨inside, continued⟩
  rcases descend_adds slot continued with ⟨close, _, left⟩
  rw [ranMember] at left
  rw [ranBody] at continued
  have leftThen := left.trans asked
  rcases (accepted b).continues (leftThen.scope.trans inScope) with ⟨later, rest⟩
  rw [ranRest] at rest
  have sinceMember := since.first leftThen rest
  refine ⟨b, offered.enter child, middle, last, inScopeThen, leftThen.scope.trans inScope, ranBody,
    ⟨inside, continued, fun visit member => ?_⟩, ranRest, since.second leftThen rest⟩
  exact sinceMember.unvetoed leftThen visit
    (List.mem_append_right _ (List.mem_append_left _ member))

/-! ## The value does not depend on the run -/

/-- Two runs of an orderly step from the same sources in scope, in both of which nothing is
vetoed, give the same value. -/
theorem Orderly.value_unique {step : Binding α}
    (orderly : S.Orderly rules place scope name α step) {run other after otherAfter : Run}
    {a b : α} (inScope : run.scope = scope) (inScopeToo : other.scope = scope)
    (ran : step run = (.ok a, after)) (ranToo : step other = (.ok b, otherAfter))
    (since : after.UnvetoedSince run) (sinceToo : otherAfter.UnvetoedSince other) : a = b := by
  induction orderly generalizing run other after otherAfter with
  | pure c =>
      cases ran
      cases ranToo
      rfl
  | chain first second firstUnique secondUnique =>
      rcases first.bind_parts second inScope ran since
        with ⟨c, middle, yields, kept, ranFirst, sinceFirst, ranSecond, sinceSecond⟩
      rcases first.bind_parts second inScopeToo ranToo sinceToo
        with ⟨d, otherMiddle, _, keptToo, ranFirstToo, sinceFirstToo, ranSecondToo, sinceSecondToo⟩
      have same : c = d :=
        firstUnique inScope inScopeToo ranFirst ranFirstToo sinceFirst sinceFirstToo
      subst same
      exact secondUnique c yields kept keptToo ranSecond ranSecondToo sinceSecond sinceSecondToo
  | look _ seenUnique =>
      rw [Binding.scope_bind, inScope] at ran
      rw [Binding.scope_bind, inScopeToo] at ranToo
      exact seenUnique inScope inScopeToo ran ranToo since sinceToo
  | use _ => rfl
  | log _ => rfl
  | fail _ _ => cases ran
  | forTarget target _ innerUnique =>
      exact innerUnique inScope inScopeToo (Binding.forTarget_eq_ok ran)
        (Binding.forTarget_eq_ok ranToo) since sinceToo
  | nested inner innerUnique =>
      rcases Binding.nested_eq_ok ran with ⟨_, _, sameScope, began, ranInner, ended⟩
      rcases Binding.nested_eq_ok ranToo with ⟨_, _, sameScopeToo, beganToo, ranInnerToo, endedToo⟩
      have kept := sameScope.trans inScope
      have keptToo := sameScopeToo.trans inScopeToo
      exact innerUnique kept keptToo ranInner ranInnerToo
        (inner.unvetoed kept ranInner since began ended)
        (inner.unvetoed keptToo ranInnerToo sinceToo beganToo endedToo)
  | scopedTo found inner innerUnique =>
      rcases Binding.scopedTo_eq_ok ran with ⟨_, _, kept, began, ranInner, ended⟩
      rcases Binding.scopedTo_eq_ok ranToo with ⟨_, _, keptToo, beganToo, ranInnerToo, endedToo⟩
      exact innerUnique kept keptToo ranInner ranInnerToo
        (inner.unvetoed kept ranInner since began ended)
        (inner.unvetoed keptToo ranInnerToo sinceToo beganToo endedToo)
  | visit parent there made inner accepted vetoed innerUnique acceptedUnique vetoedUnique =>
      rcases inner.visit_parts accepted vetoed inScope ran since
        with ⟨c, before, middle, last, kept, keptThen, ranBody, sinceBody, ranRest, sinceRest⟩
      rcases inner.visit_parts accepted vetoed inScopeToo ranToo sinceToo
        with ⟨d, otherBefore, otherMiddle, otherLast, keptToo, keptThenToo, ranBodyToo,
          sinceBodyToo, ranRestToo, sinceRestToo⟩
      have same : c = d := innerUnique kept keptToo ranBody ranBodyToo sinceBody sinceBodyToo
      subst same
      exact acceptedUnique c keptThen keptThenToo ranRest ranRestToo sinceRest sinceRestToo
  | misfit parent there reason vetoed vetoedUnique =>
      rcases accepted_of_unvetoed (fun _ same => vetoed.continues (same.trans inScope)) ran since
        with ⟨_, _, _, impossible⟩
      cases impossible

end Session

/-! ## Handlers that veto nothing -/

namespace Run.UnvetoedSince

variable {before middle after : Run}

theorem silent (continued : after.Continues before []) : after.UnvetoedSince before :=
  ⟨[], continued, fun _ impossible => by cases impossible⟩

theorem trans (later : after.UnvetoedSince middle) (earlier : middle.UnvetoedSince before) :
    after.UnvetoedSince before := by
  rcases earlier with ⟨first, asked, none⟩
  rcases later with ⟨second, continued, noneThen⟩
  exact ⟨first ++ second, continued.trans asked, none.append noneThen⟩

theorem bind {step : Binding α} {next : α → Binding β} {run : Run}
    (first : (step run).2.UnvetoedSince run)
    (second : ∀ a after, step run = (.ok a, after) → after.scope = run.scope →
      (next a after).2.UnvetoedSince after) :
    ((step >>= next) run).2.UnvetoedSince run := by
  rcases ran : step run with ⟨outcome, after⟩
  rw [ran] at first
  cases outcome with
  | ok a =>
      rcases first with ⟨calls, continued, none⟩
      rw [Binding.bind_of_ok ran]
      exact (second a after ran continued.scope).trans ⟨calls, continued, none⟩
  | error e =>
      rw [Binding.bind_of_error ran]
      exact first

end Run.UnvetoedSince

namespace Session

variable {S : Session} {name child : Name} {slot : Slot} {rules : Rules}
  {place : Place} {scope : Store}

theorem descend_unvetoed {body : Binding α} {run : Run}
    (inner : (body (run.enter name)).2.UnvetoedSince (run.enter name)) :
    (S.descend name slot body run).2.UnvetoedSince run := by
  rcases inner with ⟨inside, continued, none⟩
  rcases S.descend_adds slot continued with ⟨close, noneThen, left⟩
  exact ⟨inside ++ close, left, none.append noneThen⟩

theorem offer_unvetoed (accepts : ∀ visit, (S.handler.start S.sources visit).value = true)
    {accepted passed : Binding α} {run : Run}
    (goesOn : ∀ middle, middle.scope = run.scope → (accepted middle).2.UnvetoedSince middle) :
    ((S.offer child slot >>= fun proceed =>
      if proceed = true then accepted else passed) run).2.UnvetoedSince run := by
  rcases S.offer_eq child slot run with ⟨middle, offered, asked⟩
  rw [accepts] at offered asked
  rw [Binding.bind_of_ok offered]
  exact (goesOn middle asked.scope).trans ⟨_, asked, by simp [Unvetoed]⟩

/-- Under a handler that accepts every node, nothing is vetoed. -/
theorem Orderly.unvetoed_of_accepts
    (accepts : ∀ visit, (S.handler.start S.sources visit).value = true) {step : Binding α}
    (orderly : S.Orderly rules place scope name α step) {run : Run} (inScope : run.scope = scope) :
    (step run).2.UnvetoedSince run := by
  induction orderly generalizing run with
  | pure a => exact .silent (.refl run)
  | chain _ _ firstUnvetoed secondUnvetoed =>
      exact (firstUnvetoed inScope).bind fun a after ran same =>
        secondUnvetoed a ⟨run, after, ran⟩ (same.trans inScope)
  | look _ seenUnvetoed =>
      rw [Binding.scope_bind, inScope]
      exact seenUnvetoed inScope
  | @use _ _ _ p found => exact .silent (.used run p)
  | log entry => exact .silent (.logged run entry)
  | fail _ _ => exact .silent (.refl run)
  | forTarget target _ innerUnvetoed =>
      rw [Binding.forTarget_snd]
      exact innerUnvetoed inScope
  | nested _ innerUnvetoed =>
      have deeper : ({ run with depth := run.depth + 1 } : Run).scope = _ := inScope
      rcases innerUnvetoed deeper with ⟨calls, continued, none⟩
      exact ⟨calls, ⟨congrArg (· - 1) continued.depth, continued.names, continued.scope,
        continued.calls⟩, none⟩
  | @scopedTo _ source _ _ _ found _ innerUnvetoed =>
      have inside : ({ run with scope := source } : Run).scope = source := rfl
      rcases innerUnvetoed inside with ⟨calls, continued, none⟩
      exact ⟨calls, ⟨continued.depth, continued.names, rfl, continued.calls⟩, none⟩
  | @visit _ _ child _ _ _ _ _ _ _ _ _ _ _ innerUnvetoed acceptedUnvetoed _ =>
      refine offer_unvetoed accepts fun middle same => ?_
      have entered : (middle.enter child).scope = _ := same.trans inScope
      exact (descend_unvetoed (innerUnvetoed entered)).bind fun b after _ sameThen =>
        acceptedUnvetoed b (sameThen.trans entered)
  | misfit _ _ _ _ _ => exact offer_unvetoed accepts fun middle _ => .silent (.refl middle)

end Session
end PropertyBinding
