import PropertyBinding.Proofs.Bind.Placement
import PropertyBinding.Proofs.Bind.Unbound
import PropertyBinding.Proofs.Bind.Unvetoed

/-!
# Nodes and their members

What a target binds to at a name within some sources is the value of any run that binds it
there and in which nothing is vetoed: there is at most one such value.  How many levels of
names a run is prepared for does not matter, so it is the same for a node at the root and for
a member somewhere below.

A node is closed by its handler once it has been bound or has failed, and the handler may then
reject the value or replace the error.  `Settles` says what can come of this.
-/

namespace PropertyBinding

variable {α β ρ : Type}

namespace Session

variable (S : Session) (declarations : Declarations ρ)

/-! ## Binding at a name -/

/-- Bind a target at a name, on as many levels as there are names for. -/
def node (target : Target ρ) (name : Name) : Binding Value :=
  S.readWithin declarations (S.sources.height + 1) target name

/-- A target binds to a value at a name within some sources, in a run without a veto. -/
def Binds (scope : Store) (target : Target ρ) (name : Name) (v : Value) : Prop :=
  ∃ run after, run.scope = scope ∧ S.node declarations target name run = (.ok v, after) ∧
    after.UnvetoedSince run

variable {S declarations} {scope : Store} {target : Target ρ} {name : Name}

theorem node_orderly (S : Session) (declarations : Declarations ρ) (scope : Store)
    (target : Target ρ) (name : Name) : S.Orderly .any .node scope name Value
      (S.node declarations target name) :=
  (S.readWithin_bindsMember _ target name (Store.Draws.refl scope)).orderly

theorem node_continues (S : Session) (declarations : Declarations ρ) (target : Target ρ)
    (name : Name) (run : Run) :
    ∃ calls, (S.node declarations target name run).2.Continues run calls :=
  (S.node_orderly declarations run.scope target name).continues rfl

/-- There is one value that a target binds to at a name. -/
theorem Binds.unique {v w : Value} (binds : S.Binds declarations scope target name v)
    (bindsToo : S.Binds declarations scope target name w) : v = w := by
  rcases binds with ⟨run, after, inScope, ran, since⟩
  rcases bindsToo with ⟨other, otherAfter, inScopeToo, ranToo, sinceToo⟩
  exact (S.node_orderly declarations scope target name).value_unique inScope inScopeToo ran ranToo
    since sinceToo

theorem Binds.iff {v : Value} (binds : S.Binds declarations scope target name v) (w : Value) :
    S.Binds declarations scope target name w ↔ w = v :=
  ⟨fun bindsToo => bindsToo.unique binds, fun same => same ▸ binds⟩

theorem alike_refl (S : Session) : S.Alike some (fun _ => True) S where
  rootType := rfl
  started := fun _ _ _ => .of_eq rfl
  succeeded := fun _ _ _ => rfl
  failed := fun _ _ _ _ => .of_eq rfl
  finished := fun _ _ _ => .of_eq rfl

/-- Any number of levels that is enough for the names there are does the same. -/
theorem readWithin_eq_node {levels : Nat} (draws : scope.Draws S.sources)
    (there : scope.contains name = true) (enough : S.sources.height < name.size + levels)
    {run : Run} (inScope : run.scope = scope) :
    S.readWithin declarations levels target name run = S.node declarations target name run :=
  ((S.alike_refl.agrees rfl).readWithin levels (S.sources.height + 1) ⟨rfl, draws⟩ trivial target
    there enough (by omega) fun u _ => u.asks_true).eq (Nat.zero_le _) inScope

/-! ## Closing -/

variable {slot : Slot}

/-- Only the state in which a node is entered matters for what is bound there. -/
theorem descend_congr {body other : Binding α} {run : Run}
    (same : body (run.enter name) = other (run.enter name)) :
    S.descend name slot body run = S.descend name slot other run := by
  have closed : S.closed name slot body (run.enter name) =
      S.closed name slot other (run.enter name) := by
    unfold Session.closed
    rcases ran : body (run.enter name) with ⟨outcome, middle⟩
    have ranToo := same.symm.trans ran
    cases outcome with
    | ok a => rw [Binding.bind_of_ok ran, Binding.bind_of_ok ranToo]
    | error e => rw [Binding.bind_of_error ran, Binding.bind_of_error ranToo]
  have guarded : S.guarded name slot (S.closed name slot body) (run.enter name) =
      S.guarded name slot (S.closed name slot other) (run.enter name) := by
    unfold Session.guarded
    rw [closed]
  exact congrArg (fun ended => (ended.1, ended.2.leave)) guarded

/-- What becomes of the outcome of a node when it is closed: a value stands or is rejected,
and an error is answered by the handler. -/
inductive Settles (S : Session) (name : Name) : Except BindError α → Except BindError α → Prop
  | stands {visit : Visit} {a : α} (shown : visit.name = name)
      (accepted : (S.handler.finish S.sources visit).value = .ok ()) :
      Settles S name (.ok a) (.ok a)
  | rejected {visit again : Visit} {a : α} {e : BindError} (shown : visit.name = name)
      (shownAgain : again.name = name)
      (rejection : (S.handler.finish S.sources visit).value = .error e) :
      Settles S name (.ok a)
        (.error (S.handler.failure S.sources again (e.locate name)).value)
  | failed {visit : Visit} {e : BindError} (shown : visit.name = name) :
      Settles S name (.error e) (.error (S.handler.failure S.sources visit (e.locate name)).value)

theorem descend_settles {body : Binding α} {run : Run} :
    S.Settles name (body (run.enter name)).1 (S.descend name slot body run).1 := by
  rcases ran : body (run.enter name) with ⟨outcome, middle⟩
  have closed : (S.descend name slot body run).1 =
      (S.guarded name slot (S.closed name slot body) (run.enter name)).1 := rfl
  rw [closed]
  cases outcome with
  | error e =>
      rw [S.guarded_of_failed name slot ran]
      exact .failed rfl
  | ok a =>
      rw [S.guarded_of_bound name slot ran]
      unfold guarded finish
      generalize (S.succeed name slot middle).2 = told
      cases answered : (S.handler.finish S.sources (told.visit S.rootType name slot)).value with
      | ok done =>
          simp only [answered]
          exact .stands (told.visit_at S.rootType name slot).name answered
      | error e =>
          simp only [answered]
          exact .rejected (told.visit_at S.rootType name slot).name rfl answered

/-- Only a value that stands is left as a value. -/
theorem Settles.eq_ok {outcome : Except BindError α} {a : α}
    (settles : S.Settles name outcome (.ok a)) : outcome = .ok a := by
  cases settles
  rfl

end Session

/-! ## Whole runs -/

namespace Binder

variable {b : Binder ρ} {target : Target ρ} {root : Name} {existing : Bool}

/-- Once the root has been accepted, what comes of the run is what becomes of the root. -/
theorem bindOffered_fst (b : Binder ρ) (target : Target ρ) (root : Name) (slot : Slot) (run : Run) :
    (b.bindOffered target root slot run).1 = (b.bindAccepted target root slot run).1.mapError
      fun e => e.withTarget (target.label b.declarations) :=
  (Binding.bind_fst (fun _ _ => rfl) run).trans (Binding.forTarget_fst _ _ run)

/-- A handler that accepts every node vetoes nothing in any run. -/
theorem bindAt_unvetoed (accepts : ∀ visit, (b.handler.start b.sources visit).value = true)
    (target : Target ρ) (root : Name) (existing : Bool) :
    Unvetoed (callsOf (b.bindAt target root existing).history) := by
  let S := b.session target
  rcases b.bindRoot_eq target root existing with ⟨visit, middle, _, asked, ran⟩
  rw [accepts] at asked ran
  have accepted : (b.bindAccepted target root (.root (target.label b.declarations) existing)
      middle).2.UnvetoedSince middle := by
    unfold bindAccepted
    by_cases there : b.sources.contains root = true
    · rw [if_pos there]
      have entered : (middle.enter root).scope = b.sources := asked.scope
      have inner :=
        (S.node_orderly b.declarations b.sources target root).unvetoed_of_accepts accepts entered
      exact (Session.descend_unvetoed inner).bind fun _ after _ _ => .silent (.refl after)
    · rw [if_neg there]
      rcases S.guarded_finish_continues root (.root (target.label b.declarations) existing) middle
        with ⟨close, finishing, continued⟩
      exact Run.UnvetoedSince.bind ⟨close, continued, finishing.unvetoed⟩ fun _ after _ _ =>
        .silent (.refl after)
  rcases accepted with ⟨calls, continued, none⟩
  have history : (b.bindAt target root existing).history = _ :=
    congrArg (fun ran => ran.2.history) ran
  rw [history, if_pos rfl, ((bindOffered_continues continued).trans asked).calls]
  intro visit vetoed
  rcases List.mem_cons.mp vetoed with impossible | later
  · cases impossible
  · exact none visit later

/-- There is a value only of a root at which or below which there is something. -/
theorem contains_of_bound {v : Value}
    (bound : (b.bindAt target root existing).result = .ok (some v)) :
    b.sources.contains root = true := by
  by_contra missing
  rcases b.bindRoot_eq target root existing with ⟨visit, middle, _, _, ran⟩
  have result : (b.bindAt target root existing).result = _ := congrArg Prod.fst ran
  rw [result] at bound
  split at bound
  · let S := b.session target
    let slot := Slot.root (target.label b.declarations) existing
    have finished : (do
        S.guarded root slot (S.finish root slot)
        return none : Binding (Option Value)) middle = _ :=
      Binding.map_apply (fun _ => none) _ middle
    rw [bindOffered_fst, bindAccepted, if_neg missing, finished] at bound
    generalize S.guarded root slot (S.finish root slot) middle = ended at bound
    rcases ended with ⟨answer, after⟩
    cases answer <;> cases bound
  · cases bound

theorem exists_bound (isSome : (b.bindAt target root existing).result.toOption.join.isSome = true) :
    ∃ v, (b.bindAt target root existing).result = .ok (some v) := by
  cases result : (b.bindAt target root existing).result with
  | error e =>
      rw [result] at isSome
      cases isSome
  | ok bound =>
      cases bound with
      | none =>
          rw [result] at isSome
          cases isSome
      | some v => exact ⟨v, rfl⟩

/-- A run in which the root is not vetoed binds the root like any other node. -/
theorem bindAt_node (b : Binder ρ) (target : Target ρ) (root : Name) (existing : Bool)
    (there : b.sources.contains root = true) :
    let outcome := b.bindAt target root existing
    let S := b.session target
    (outcome.result = .ok none ∧ ¬ Unvetoed (callsOf outcome.history)) ∨
      ∃ run inside closed, run.scope = b.sources ∧
        (S.node b.declarations target root run).2.Continues run inside ∧
        (∀ call ∈ inside, call ∈ callsOf outcome.history) ∧
        S.Settles root (S.node b.declarations target root run).1 closed ∧
        outcome.result =
          (closed.map some).mapError (·.withTarget (target.label b.declarations)) := by
  intro outcome S
  rcases b.bindRoot_eq target root existing with ⟨visit, middle, _, asked, ran⟩
  have result : outcome.result = _ := congrArg Prod.fst ran
  have history : outcome.history = _ := congrArg (fun ran => ran.2.history) ran
  generalize (b.handler.start b.sources visit).value = proceed at asked result history
  rw [result, history]
  cases proceed with
  | false =>
      refine .inl ⟨rfl, fun none => none visit ?_⟩
      have calls : callsOf middle.history = [(visit, .start false)] := asked.calls
      exact calls ▸ List.mem_singleton_self _
  | true =>
      let slot := Slot.root (target.label b.declarations) existing
      let step := S.node b.declarations target root
      rcases S.node_continues b.declarations target root (middle.enter root) with ⟨inside, entered⟩
      rcases Session.descend_adds slot entered with ⟨close, _, left⟩
      have accepted : b.bindAccepted target root slot = some <$> S.descend root slot step :=
        if_pos there
      refine .inr ⟨middle.enter root, inside, (S.descend root slot step middle).1, asked.scope,
        entered, fun call member => ?_, Session.descend_settles, ?_⟩
      · have added :
            (b.bindAccepted target root slot middle).2.Continues middle (inside ++ close) := by
          rw [accepted, Binding.map_apply]
          exact left
        rw [if_pos rfl, ((bindOffered_continues added).trans asked).calls]
        exact List.mem_append_right _ (List.mem_append_right _ (List.mem_append_left _ member))
      · rw [if_pos rfl, bindOffered_fst, accepted, Binding.map_apply]

/-- When a target is bound and nothing has been vetoed, it binds at the root to its value. -/
theorem bindAt_binds {v : Value} (bound : (b.bindAt target root existing).result = .ok (some v))
    (unvetoed : Unvetoed (callsOf (b.bindAt target root existing).history)) :
    (b.session target).Binds b.declarations b.sources target root v := by
  let S := b.session target
  rcases b.bindAt_node target root existing (contains_of_bound bound)
    with ⟨none, _⟩ | ⟨run, inside, closed, inScope, continued, included, settles, result⟩
  · cases none.symm.trans bound
  · rw [result] at bound
    cases closed with
    | error e => cases bound
    | ok value =>
        cases bound
        have since : (S.node b.declarations target root run).2.UnvetoedSince run :=
          ⟨inside, continued, fun visit vetoed => unvetoed visit (included _ vetoed)⟩
        exact ⟨run, _, inScope, Prod.ext settles.eq_ok rfl, since⟩

/-- Where there is something and nothing is vetoed, a target is bound or binding fails. -/
theorem bindAt_bound_or_failed (there : b.sources.contains root = true)
    (unvetoed : Unvetoed (callsOf (b.bindAt target root existing).history)) :
    (∃ v, (b.bindAt target root existing).result = .ok (some v)) ∨
      ∃ e, (b.bindAt target root existing).result = .error e := by
  rcases b.bindAt_node target root existing there
    with ⟨_, vetoed⟩ | ⟨run, inside, closed, inScope, continued, included, settles, result⟩
  · exact absurd unvetoed vetoed
  · cases closed with
    | error e => exact .inr ⟨_, result⟩
    | ok v => exact .inl ⟨v, result⟩

end Binder
end PropertyBinding
