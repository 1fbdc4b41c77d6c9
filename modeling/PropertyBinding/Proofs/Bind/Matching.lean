import PropertyBinding.Proofs.Bind.Orderly

/-!
# Two runs side by side

Binding over one store can come to the same as binding over another.  The comparison is
made step by step: two steps match when from matching states they have the same outcome
and end in matching states.  Matching states agree in all but the sources in scope and
what a `view` of their histories leaves out.

Handlers are asked over the whole store, whichever sources are in scope.  What they have
to answer alike is gathered in `Session.Alike`, for names that are `near`: those that
binding comes to.  Handlers may also treat the nodes above some depth each in its own way.
Steps then match from states of this depth on, and as every step ends in the depth in which
it begins, they go on to match.
-/

namespace PropertyBinding

variable {γ : Type} {view : Event → Option γ} {low : Nat} {s t : Store}

/-! ## Matching steps -/

/-- Two states, each over its own sources, that differ in these and in events that are
not viewed. -/
structure Run.Matches (view : Event → Option γ) (s t : Store) (run other : Run) : Prop where
  scope : run.scope = s
  otherScope : other.scope = t
  depth : run.depth = other.depth
  names : run.names = other.names
  bound : run.bound = other.bound
  history : run.history.filterMap view = other.history.filterMap view

namespace Run.Matches

variable {run other : Run}

theorem visit (same : run.Matches view s t other) (rootType : String) (name : Name)
    (slot : Slot) : run.visit rootType name slot = other.visit rootType name slot := by
  simp only [Run.visit, same.depth, same.names, same.bound]

/-- An event on each side, if the view does not tell them apart. -/
theorem append (same : run.Matches view s t other) {event otherEvent : Event}
    (seen : view event = view otherEvent) :
    Run.Matches view s t { run with history := run.history ++ [event] }
      { other with history := other.history ++ [otherEvent] } := by
  refine ⟨same.scope, same.otherScope, same.depth, same.names, same.bound, ?_⟩
  simp only [List.filterMap_append, same.history, List.filterMap_cons, seen]

/-- States over the same sources are equal if all events are viewed. -/
theorem eq (same : Run.Matches some s s run other) : run = other := by
  rcases run with ⟨depth, names, scope, bound, history⟩
  rcases other with ⟨otherDepth, otherNames, otherScope, otherBound, otherHistory⟩
  rcases same with ⟨inScope, inScopeToo, sameDepth, sameNames, sameBound, sameHistory⟩
  simp only [List.filterMap_some] at sameHistory
  cases inScope
  cases inScopeToo
  cases sameDepth
  cases sameNames
  cases sameBound
  cases sameHistory
  rfl

end Run.Matches

namespace Binding

variable {α β : Type}

/-- From matching states, of some depth at least, two steps have the same outcome, and they
end in matching states of the depth in which they began. -/
def Matches (view : Event → Option γ) (low : Nat) (s t : Store) (step other : Binding α) : Prop :=
  ∀ run otherRun, low ≤ run.depth → Run.Matches view s t run otherRun →
    (step run).1 = (other otherRun).1 ∧ (step run).2.depth = run.depth ∧
      Run.Matches view s t (step run).2 (other otherRun).2

namespace Matches

variable {step other : Binding α} {next otherNext : α → Binding β}

theorem deeper {high : Nat} (inner : Matches view low s t step other) (le : low ≤ high) :
    Matches view high s t step other :=
  fun run otherRun deep => inner run otherRun (Nat.le_trans le deep)

/-- Steps over the same sources do the same if all events are viewed. -/
theorem eq (matched : Matches some low s s step other) {run : Run} (deep : low ≤ run.depth)
    (inScope : run.scope = s) : step run = other run := by
  have same := matched run run deep ⟨inScope, inScope, rfl, rfl, rfl, rfl⟩
  exact Prod.ext same.1 same.2.2.eq

theorem pure (a : α) : Matches view low s t (Pure.pure a) (Pure.pure a) :=
  fun _ _ _ same => ⟨rfl, rfl, same⟩

theorem fail (e : BindError) : Matches view low s t (Binding.fail (α := α) e) (Binding.fail e) :=
  fun _ _ _ same => ⟨rfl, rfl, same⟩

theorem ofMismatch (outcome : Except Mismatch α) :
    Matches view low s t (Binding.ofMismatch outcome) (Binding.ofMismatch outcome) := by
  cases outcome with
  | ok a => exact pure a
  | error m => exact fail _

theorem log {entry otherEntry : LogEntry} (seen : view (.log entry) = view (.log otherEntry)) :
    Matches view low s t (Binding.log entry) (Binding.log otherEntry) :=
  fun _ _ _ same => ⟨rfl, rfl, same.append seen⟩

theorem use (p : Property) : Matches view low s t (Binding.use p) (Binding.use p) := by
  intro run otherRun _ same
  unfold Binding.use
  rw [← same.bound]
  by_cases before : (run.bound.any fun used => used.name.Same p.name) = true
  · rw [if_pos before, if_pos before]
    exact ⟨rfl, rfl, same⟩
  · rw [if_neg before, if_neg before]
    exact ⟨rfl, rfl, same.scope, same.otherScope, same.depth, same.names, rfl, same.history⟩

theorem bind (first : Matches view low s t step other)
    (second : ∀ a, Matches view low s t (next a) (otherNext a)) :
    Matches view low s t (step >>= next) (other >>= otherNext) := by
  intro run otherRun deep same
  have matched := first run otherRun deep same
  rcases ran : step run with ⟨outcome, after⟩
  rcases ranToo : other otherRun with ⟨otherOutcome, otherAfter⟩
  rw [ran, ranToo] at matched
  obtain ⟨rfl, back, sameAfter⟩ : outcome = otherOutcome ∧ after.depth = run.depth ∧ _ := matched
  cases outcome with
  | ok a =>
      rw [bind_of_ok ran, bind_of_ok ranToo, ← back]
      exact second a after otherAfter (back ▸ deep) sameAfter
  | error e =>
      rw [bind_of_error ran, bind_of_error ranToo]
      exact ⟨rfl, back, sameAfter⟩

theorem map (f : α → β) (inner : Matches view low s t step other) :
    Matches view low s t (f <$> step) (f <$> other) :=
  inner.bind fun a => pure (f a)

/-- Each step looks at its own sources. -/
theorem look {next otherNext : Store → Binding α}
    (seen : Matches view low s t (next s) (otherNext t)) :
    Matches view low s t (Binding.scope >>= next) (Binding.scope >>= otherNext) := by
  intro run otherRun deep same
  rw [Binding.scope_bind, Binding.scope_bind, same.scope, same.otherScope]
  exact seen run otherRun deep same

theorem forTarget (target : String) (inner : Matches view low s t step other) :
    Matches view low s t (Binding.forTarget target step) (Binding.forTarget target other) := by
  intro run otherRun deep same
  have matched := inner run otherRun deep same
  unfold Binding.forTarget
  rcases ran : step run with ⟨outcome, after⟩
  rcases ranToo : other otherRun with ⟨otherOutcome, otherAfter⟩
  rw [ran, ranToo] at matched
  obtain ⟨rfl, back, sameAfter⟩ : outcome = otherOutcome ∧ after.depth = run.depth ∧ _ := matched
  cases outcome with
  | ok a => exact ⟨rfl, back, sameAfter⟩
  | error e => exact ⟨rfl, back, sameAfter⟩

/-- Steps that match from some depth on may be made from one level above it. -/
theorem nested (inner : Matches view low s t step other) :
    Matches view (low - 1) s t (Binding.nested step) (Binding.nested other) := by
  intro run otherRun deep same
  have matched := inner { run with depth := run.depth + 1 }
    { otherRun with depth := otherRun.depth + 1 } (Nat.le_add_of_sub_le deep)
    ⟨same.scope, same.otherScope, congrArg (· + 1) same.depth, same.names, same.bound,
      same.history⟩
  rcases matched with ⟨outcome, back, after⟩
  exact ⟨outcome, congrArg (· - 1) back, after.scope, after.otherScope,
    congrArg (· - 1) after.depth, after.names, after.bound, after.history⟩

/-- Inner steps that match over some sources match over any around them. -/
theorem scopedTo {source otherSource : Store}
    (inner : Matches view low source otherSource step other) :
    Matches view low s t (Binding.scopedTo source step) (Binding.scopedTo otherSource other) := by
  intro run otherRun deep same
  have matched := inner { run with scope := source } { otherRun with scope := otherSource } deep
    ⟨rfl, rfl, same.depth, same.names, same.bound, same.history⟩
  rcases matched with ⟨outcome, back, after⟩
  exact ⟨outcome, back, same.scope, same.otherScope, after.depth, after.names, after.bound,
    after.history⟩

theorem each {step otherStep : α → Binding β}
    (inner : ∀ a, Matches view low s t (step a) (otherStep a)) (items : List α) :
    Matches view low s t (Binding.each step items) (Binding.each otherStep items) := by
  induction items with
  | nil => exact pure []
  | cons a rest inductionHypothesis =>
      exact (inner a).bind fun b => inductionHypothesis.bind fun bs => pure (b :: bs)

end Matches

end Binding

/-! ## Handlers that answer alike -/

/-- Two answers of the same value, with notes between which the view makes no
difference. -/
structure Answer.Matches {α : Type} (view : Event → Option γ) (visit : Visit) (call : α → Call)
    (answer other : Answer α) : Prop where
  value : answer.value = other.value
  seen : view (.call visit (call answer.value) answer.notes) =
    view (.call visit (call other.value) other.notes)

theorem Answer.Matches.of_eq {α : Type} {visit : Visit} {call : α → Call}
    {answer other : Answer α} (same : answer = other) : answer.Matches view visit call other :=
  same ▸ ⟨rfl, rfl⟩

/-- A handler gives the same answers over two stores, when it is asked about names that
are near. -/
structure Handler.Blind (near : Name → Prop) (s t : Store) (handler : Handler) : Prop where
  started : ∀ visit, near visit.name → handler.start s visit = handler.start t visit
  succeeded : ∀ visit, near visit.name → handler.success s visit = handler.success t visit
  failed : ∀ visit e, near visit.name → handler.failure s visit e = handler.failure t visit e
  finished : ∀ visit, near visit.name → handler.finish s visit = handler.finish t visit

/-- Two sessions whose handlers, each over its own sources, answer alike about names that
are near, from some depth on.  Unless another is given this is the depth of the root. -/
structure Session.Alike (view : Event → Option γ) (near : Name → Prop) (S T : Session)
    (low : Nat := 0) : Prop where
  rootType : S.rootType = T.rootType
  started : ∀ visit, low ≤ visit.depth → near visit.name →
    (S.handler.start S.sources visit).Matches view visit .start (T.handler.start T.sources visit)
  succeeded : ∀ visit, low ≤ visit.depth → near visit.name →
    view (.call visit .success (S.handler.success S.sources visit)) =
      view (.call visit .success (T.handler.success T.sources visit))
  failed : ∀ visit e, low ≤ visit.depth → near visit.name →
    (S.handler.failure S.sources visit e).Matches view visit (.failure e)
      (T.handler.failure T.sources visit e)
  finished : ∀ visit, low ≤ visit.depth → near visit.name →
    (S.handler.finish S.sources visit).Matches view visit .finish
      (T.handler.finish T.sources visit)

theorem Handler.Blind.alike {near : Name → Prop} {handler : Handler}
    (blind : handler.Blind near s t) (rootType : String) :
    Session.Alike view near ⟨s, handler, rootType⟩ ⟨t, handler, rootType⟩ low where
  rootType := rfl
  started := fun visit _ there => .of_eq (blind.started visit there)
  succeeded := fun visit _ there =>
    congrArg (fun notes => view (.call visit .success notes)) (blind.succeeded visit there)
  failed := fun visit e _ there => .of_eq (blind.failed visit e there)
  finished := fun visit _ there => .of_eq (blind.finished visit there)

theorem Handler.accepting_blind {near : Name → Prop} : Handler.accepting.Blind near s t :=
  ⟨fun _ _ => rfl, fun _ _ => rfl, fun _ _ _ => rfl, fun _ _ => rfl⟩

/-- The provided handlers look at what is below a name, if they look at the store at
all. -/
theorem Provided.over_blind {near : Name → Prop}
    (same : ∀ n, near n → s.below n = t.below n) (link : Provided) {parent : Handler}
    (blind : parent.Blind near s t) : (link.over parent).Blind near s t := by
  rcases blind with ⟨started, succeeded, failed, finished⟩
  cases link with
  | ignoreNested =>
      refine ⟨fun visit there => ?_, succeeded, failed, finished⟩
      simp only [Provided.over, Handler.ignoreNested, started visit there]
  | noUnbound =>
      refine ⟨started, succeeded, failed, fun visit there => ?_⟩
      have unused : Handler.unused s visit = Handler.unused t visit := by
        unfold Handler.unused
        rw [same visit.name there]
      simp only [Provided.over, Handler.noUnbound, unused, finished visit there]
  | tracing =>
      refine ⟨fun visit there => ?_, fun visit there => ?_, fun visit error there => ?_, finished⟩
      · simp only [Provided.over, Handler.tracing, started visit there]
      · simp only [Provided.over, Handler.tracing, succeeded visit there]
      · simp only [Provided.over, Handler.tracing, failed visit error there]

theorem Provided.chain_blind {near : Name → Prop}
    (same : ∀ n, near n → s.below n = t.below n) (links : List Provided) :
    (chain links).Blind near s t := by
  induction links with
  | nil => exact Handler.accepting_blind
  | cons link rest inductionHypothesis => exact link.over_blind same inductionHypothesis

namespace Session.Alike

open Binding

variable {near : Name → Prop} {S T : Session} {α : Type} {name : Name}

theorem offer (alike : S.Alike view near T low) (there : near name) (slot : Slot) :
    Matches view low s t (S.offer name slot) (T.offer name slot) := by
  intro run otherRun deep same
  unfold Session.offer
  rw [← alike.rootType, ← same.visit]
  have answers := alike.started (run.visit S.rootType name slot) deep there
  have noted := same.append answers.seen
  rw [← answers.value] at noted
  simp only [← answers.value, Run.noted, ← same.depth]
  cases answered : (S.handler.start S.sources (run.visit S.rootType name slot)).value with
  | true =>
      rw [answered, ← same.depth] at noted
      exact ⟨rfl, rfl, noted⟩
  | false =>
      rw [answered, ← same.depth] at noted
      exact ⟨rfl, rfl, noted.append rfl⟩

theorem succeed (alike : S.Alike view near T low) (there : near name) (slot : Slot) :
    Matches view low s t (S.succeed name slot) (T.succeed name slot) := by
  intro run otherRun deep same
  unfold Session.succeed
  rw [← alike.rootType, ← same.visit]
  exact ⟨rfl, rfl, same.append (alike.succeeded _ deep there)⟩

theorem finish (alike : S.Alike view near T low) (there : near name) (slot : Slot) :
    Matches view low s t (S.finish name slot) (T.finish name slot) := by
  intro run otherRun deep same
  unfold Session.finish
  rw [← alike.rootType, ← same.visit]
  have answers := alike.finished (run.visit S.rootType name slot) deep there
  exact ⟨answers.value, rfl, same.append answers.seen⟩

theorem refuse (alike : S.Alike view near T low) (there : near name) (slot : Slot) (e : BindError) :
    Matches view low s t (S.refuse (α := α) name slot e) (T.refuse name slot e) := by
  intro run otherRun deep same
  unfold Session.refuse
  rw [← alike.rootType, ← same.visit]
  have answers := alike.failed (run.visit S.rootType name slot) (e.locate name) deep there
  exact ⟨congrArg Except.error answers.value, rfl, same.append answers.seen⟩

theorem guarded (alike : S.Alike view near T low) (there : near name) (slot : Slot)
    {step other : Binding α} (inner : Matches view low s t step other) :
    Matches view low s t (S.guarded name slot step) (T.guarded name slot other) := by
  intro run otherRun deep same
  have matched := inner run otherRun deep same
  unfold Session.guarded
  rcases ran : step run with ⟨outcome, after⟩
  rcases ranToo : other otherRun with ⟨otherOutcome, otherAfter⟩
  rw [ran, ranToo] at matched
  obtain ⟨rfl, back, sameAfter⟩ : outcome = otherOutcome ∧ after.depth = run.depth ∧ _ := matched
  cases outcome with
  | ok a => exact ⟨rfl, back, sameAfter⟩
  | error e =>
      have refused := alike.refuse (α := α) there slot e after otherAfter (back ▸ deep) sameAfter
      exact ⟨refused.1, refused.2.1.trans back, refused.2.2⟩

theorem descend (alike : S.Alike view near T low) (there : near name) (slot : Slot)
    {step other : Binding α} (inner : Matches view low s t step other) :
    Matches view low s t (S.descend name slot step) (T.descend name slot other) := by
  intro run otherRun deep same
  have closed := alike.guarded there slot (inner.bind fun a =>
    (alike.succeed there slot).bind fun _ => (alike.finish there slot).bind fun _ => .pure a)
  have matched := closed (run.enter name) (otherRun.enter name) deep
    ⟨same.scope, same.otherScope, same.depth, congrArg (· ++ [name]) same.names, same.bound,
      same.history⟩
  rcases matched with ⟨outcome, back, after⟩
  exact ⟨outcome, back, after.scope, after.otherScope, after.depth,
    congrArg List.dropLast after.names, after.bound, after.history⟩

end Session.Alike

end PropertyBinding
