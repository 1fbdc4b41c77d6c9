import PropertyBinding.Proofs.Bind.Positions
import PropertyBinding.Proofs.Bind.Turns

/-!
# Lists are bound as far as they go

A list that a source has in elements is bound from the positions 0, 1, 2, ... up to the first
at which the source has nothing.  Which position this is depends on the source alone.  Unless
an element is vetoed, the list is bound by one step for each position before it, and then it
is asked what is left over.  So it ends in one of three ways: with the error of the first
element that fails, with all elements, each with the one value that its target binds to within
the source, or with the properties that lie at later positions.

Elements are found under the canonical numeral of a position, and what is left over is found
by reading numerals.  A numeral with leading zeros is read as a number but does not go by it,
so its element can fall between the two and be lost.
-/

namespace PropertyBinding

variable {α β ρ : Type}

/-! ## One step for each of some things -/

namespace Binding

variable {step : α → Binding β} {items rest : List α} {a : α} {run middle after : Run}
  {e : BindError} {source : Store}

theorem each_cons_of_ok {b : β} (first : step a run = (.ok b, middle)) :
    each step (a :: rest) run =
      ((each step rest middle).1.map (b :: ·), (each step rest middle).2) :=
  (bind_of_ok first).trans (map_apply (b :: ·) _ middle)

theorem each_cons_of_error (first : step a run = (.error e, middle)) :
    each step (a :: rest) run = (.error e, middle) :=
  bind_of_error first

theorem each_continues
    (continues : ∀ a run, run.scope = source → ∃ calls, (step a run).2.Continues run calls)
    (items : List α) (inScope : run.scope = source) :
    ∃ calls, (each step items run).2.Continues run calls := by
  induction items generalizing run with
  | nil => exact ⟨[], .refl run⟩
  | cons a rest inductionHypothesis =>
      rcases continues a run inScope with ⟨calls, continued⟩
      rcases first : step a run with ⟨outcome, middle⟩
      rw [first] at continued
      cases outcome with
      | error e =>
          rw [each_cons_of_error first]
          exact ⟨calls, continued⟩
      | ok b =>
          rcases inductionHypothesis (continued.scope.trans inScope) with ⟨more, continuedThen⟩
          rw [each_cons_of_ok first]
          exact ⟨calls ++ more, continuedThen.trans continued⟩

/-- Each step has been made, in a state that those before it have left. -/
theorem each_eq_ok {values : List β}
    (continues : ∀ a run, run.scope = source → ∃ calls, (step a run).2.Continues run calls)
    (inScope : run.scope = source) (ran : each step items run = (.ok values, after)) :
    List.Forall₂ (fun a b => ∃ before next, before.scope = source ∧
      step a before = (.ok b, next) ∧ (after.UnvetoedSince run → next.UnvetoedSince before))
      items values := by
  induction items generalizing run values with
  | nil =>
      cases ran
      exact .nil
  | cons a rest inductionHypothesis =>
      rcases continues a run inScope with ⟨calls, continued⟩
      rcases first : step a run with ⟨outcome, middle⟩
      rw [first] at continued
      cases outcome with
      | error e =>
          rw [each_cons_of_error first] at ran
          cases ran
      | ok b =>
          have inScopeThen := continued.scope.trans inScope
          rw [each_cons_of_ok first] at ran
          rcases others : each step rest middle with ⟨outcome, last⟩
          rcases each_continues continues rest inScopeThen with ⟨more, continuedThen⟩
          rw [others] at ran continuedThen
          cases outcome with
          | error e => cases ran
          | ok bs =>
              cases ran
              refine .cons ⟨run, middle, inScope, first,
                fun since => since.first continued continuedThen⟩ ?_
              refine (inductionHypothesis inScopeThen others).imp ?_
              rintro c d ⟨before, next, kept, made, unvetoed⟩
              exact ⟨before, next, kept, made, fun since =>
                unvetoed (since.second continued continuedThen)⟩

/-- The steps before the first that fails have been made. -/
theorem each_eq_error (ran : each step items run = (.error e, after)) :
    ∃ before a rest values middle, items = before ++ a :: rest ∧
      each step before run = (.ok values, middle) ∧ step a middle = (.error e, after) := by
  induction items generalizing run with
  | nil => cases ran
  | cons a rest inductionHypothesis =>
      rcases first : step a run with ⟨outcome, middle⟩
      cases outcome with
      | error other =>
          rw [each_cons_of_error first] at ran
          cases ran
          exact ⟨[], a, rest, [], run, rfl, rfl, first⟩
      | ok b =>
          rw [each_cons_of_ok first] at ran
          rcases others : each step rest middle with ⟨outcome, last⟩
          rw [others] at ran
          cases outcome with
          | ok bs => cases ran
          | error other =>
              cases ran
              rcases inductionHypothesis others
                with ⟨before, c, later, values, between, split, made, failed⟩
              refine ⟨a :: before, c, later, b :: values, between, by rw [split]; rfl, ?_, failed⟩
              rw [each_cons_of_ok first, made]
              rfl

end Binding

/-! ## Elements -/

namespace Session

variable {S : Session} {declarations : Declarations ρ} {target : Target ρ} {name : Name}
  {w scope : Store}

/-- Bind the element at a position, whatever is answered when it is offered. -/
def element (S : Session) (declarations : Declarations ρ) (target : Target ρ) (name : Name)
    (position : Nat) : Binding Value := do
  let child := name.childAt position
  let _ ← S.offer child (.element position)
  S.descend child (.element position) (S.node declarations target child)

theorem element_continues (S : Session) (declarations : Declarations ρ) (target : Target ρ)
    (name : Name) (position : Nat) (run : Run) :
    ∃ calls, (S.element declarations target name position run).2.Continues run calls := by
  let child := name.childAt position
  rcases S.offer_eq child (.element position) run with ⟨middle, offered, asked⟩
  rcases S.node_continues declarations target child (middle.enter child) with ⟨inside, continued⟩
  rcases descend_adds (.element position) continued with ⟨close, _, left⟩
  have ran : S.element declarations target name position run = _ := Binding.bind_of_ok offered
  rw [ran]
  exact ⟨_, left.trans asked⟩

/-- An element has the value of its node. -/
theorem element_eq_ok {position : Nat} {run after : Run} {v : Value}
    (ran : S.element declarations target name position run = (.ok v, after)) :
    ∃ inner last, inner.scope = run.scope ∧
      S.node declarations target (name.childAt position) inner = (.ok v, last) ∧
      (after.UnvetoedSince run → last.UnvetoedSince inner) := by
  let child := name.childAt position
  rcases S.offer_eq child (.element position) run with ⟨middle, offered, asked⟩
  have ranMember : S.element declarations target name position run = _ :=
    Binding.bind_of_ok offered
  rw [ranMember] at ran
  rcases descend_eq_ok ran with ⟨last, bound⟩
  rcases S.node_continues declarations target child (middle.enter child) with ⟨inside, continued⟩
  rcases descend_adds (.element position) continued with ⟨close, _, left⟩
  rw [bound] at continued
  rw [ran] at left
  refine ⟨middle.enter child, last, asked.scope, bound, fun since => ⟨inside, continued, ?_⟩⟩
  intro visit vetoed
  exact since.unvetoed (left.trans asked) visit
    (List.mem_append_right _ (List.mem_append_left _ vetoed))

section Elements

variable {enter : Enter ρ} {position : Nat} {rest : List (Nat × Target ρ)} {start middle last : Run}

theorem elements_cons_of_vetoed
    (offered : S.offer (name.childAt position) (.element position) start = (.ok false, middle)) :
    S.elements enter name ((position, target) :: rest) start = (.ok ([], true), middle) :=
  Binding.bind_of_ok offered

theorem elements_cons_of_error {e : BindError}
    (offered : S.offer (name.childAt position) (.element position) start = (.ok true, middle))
    (failed : S.descend (name.childAt position) (.element position)
      (enter target (name.childAt position)) middle = (.error e, last)) :
    S.elements enter name ((position, target) :: rest) start = (.error e, last) :=
  (Binding.bind_of_ok offered).trans (Binding.bind_of_error failed)

theorem elements_cons_of_ok {v : Value}
    (offered : S.offer (name.childAt position) (.element position) start = (.ok true, middle))
    (bound : S.descend (name.childAt position) (.element position)
      (enter target (name.childAt position)) middle = (.ok v, last)) :
    S.elements enter name ((position, target) :: rest) start =
      ((S.elements enter name rest last).1.map fun found => (v :: found.1, found.2),
        (S.elements enter name rest last).2) :=
  (Binding.bind_of_ok offered).trans ((Binding.bind_of_ok bound).trans
    (Binding.map_apply (fun found : List Value × Bool => (v :: found.1, found.2)) _ last))

end Elements

/-- Unless one of them is vetoed, elements are bound one after another. -/
theorem elements_eq (draws : w.Draws S.sources) {wanted : List Nat}
    (there : ∀ i ∈ wanted, w.contains (name.childAt i) = true) {start : Run}
    (inScope : start.scope = w) :
    let ended := S.elements (S.readWithin declarations S.sources.height) name
      (wanted.map fun i => (i, target)) start
    ended = ((·, false) <$> Binding.each (S.element declarations target name) wanted) start ∨
      ∃ visit calls, ended.2.Continues start calls ∧ (visit, .start false) ∈ calls ∧
        name.IsParentOf visit.name := by
  intro ended
  induction wanted generalizing start with
  | nil => exact .inl rfl
  | cons i rest inductionHypothesis =>
      let child := name.childAt i
      have parent : name.IsParentOf child := name.isParentOf_push _
      have enough : S.sources.height < child.size + S.sources.height := by
        rw [parent.1]
        omega
      rcases S.offer_eq child (.element i) start with ⟨middle, offered, asked⟩
      have shown : (start.visit S.rootType child (.element i)).name = child := rfl
      generalize start.visit S.rootType child (.element i) = visit at offered asked shown
      have entered : (middle.enter child).scope = w := asked.scope.trans inScope
      have ranElement : S.element declarations target name i start = _ :=
        Binding.bind_of_ok offered
      cases answered : (S.handler.start S.sources visit).value with
      | false =>
          rw [answered] at offered asked
          have ran : ended = _ := elements_cons_of_vetoed offered
          refine .inr ⟨visit, _, ?_, List.mem_singleton_self _, shown ▸ parent⟩
          rw [ran]
          exact asked
      | true =>
          rw [answered] at offered
          have below : S.readWithin declarations S.sources.height target child
              (middle.enter child) = S.node declarations target child (middle.enter child) :=
            readWithin_eq_node draws (there i List.mem_cons_self) enough entered
          rcases bound : S.descend child (.element i) (S.node declarations target child) middle
            with ⟨outcome, last⟩
          have boundWithin := (descend_congr below).trans bound
          have first := ranElement.trans bound
          cases outcome with
          | error e =>
              have ran : ended = _ := elements_cons_of_error offered boundWithin
              rw [ran, Binding.map_apply, Binding.each_cons_of_error first]
              exact .inl rfl
          | ok v =>
              rcases S.element_continues declarations target name i start with ⟨calls, continued⟩
              rw [first] at continued
              have ran : ended = _ := elements_cons_of_ok offered boundWithin
              rcases inductionHypothesis (fun j later => there j (List.mem_cons_of_mem _ later))
                (continued.scope.trans inScope) with others | ⟨visit, more, later, vetoed, member⟩
              · refine .inl ?_
                rw [ran, others, Binding.map_apply, Binding.map_apply,
                  Binding.each_cons_of_ok first]
                cases (Binding.each (S.element declarations target name) rest last).1 <;> rfl
              · refine .inr ⟨visit, _, ?_, List.mem_append_right calls vetoed, member⟩
                rw [ran]
                exact later.trans continued

/-! ## Lists -/

/-- What is made of elements that have been bound: the list, if nothing is left over.  After a
veto it is not asked what is left over. -/
def gather (declarations : Declarations ρ) (target : Target ρ) (name : Name) (w : Store)
    (found : List Value × Bool) : Binding Value :=
  let left := if found.2 then [] else beyond w name found.1.length
  if left.isEmpty then return .list found.1
  else Binding.fail (.here name (Target.label declarations (.list target)) none (.unbound left))

theorem gather_continues (found : List Value × Bool) (run : Run) :
    (gather declarations target name w found run).2.Continues run [] := by
  unfold gather
  generalize (if found.2 = true then [] else beyond w name found.1.length) = left
  cases left with
  | nil => exact .refl run
  | cons p rest => exact .refl run

theorem gather_of_nothing {items : List Value} (nothing : beyond w name items.length = []) :
    gather declarations target name w (items, false) = return .list items := by
  have empty : (beyond w name items.length).isEmpty = true := List.isEmpty_iff.mpr nothing
  exact if_pos empty

theorem gather_of_left {items : List Value} (left : beyond w name items.length ≠ []) :
    gather declarations target name w (items, false) =
      Binding.fail (.here name (Target.label declarations (.list target)) none
        (.unbound (beyond w name items.length))) := by
  have some : ¬ (beyond w name items.length).isEmpty = true := fun empty =>
    left (List.isEmpty_iff.mp empty)
  exact if_neg some

/-- Bind a list from the elements before a position, one after another. -/
def upTo (S : Session) (declarations : Declarations ρ) (target : Target ρ) (name : Name)
    (w : Store) (count : Nat) : Binding Value := do
  let items ← Binding.each (S.element declarations target name) (List.range count)
  gather declarations target name w (items, false)

/-- Unless an element is vetoed, a list is bound from the elements up to the first position at
which its source has nothing. -/
theorem indexed_eq (draws : w.Draws S.sources) {count : Nat} (ends : w.EndsAt name count)
    {start : Run} (inScope : start.scope = w) :
    let kind := Sequence.growing (Target.label declarations (.list target)) target .list
    let ended := S.indexed (S.readWithin declarations S.sources.height) kind name w start
    ended = S.upTo declarations target name w count start ∨
      ∃ visit calls, ended.2.Continues start calls ∧ (visit, .start false) ∈ calls ∧
        name.IsParentOf visit.name := by
  intro kind ended
  have wanted : (positions w name).zip (kind.wanted (positions w name).length) =
      (List.range count).map fun i => (i, target) := by
    rw [ends.positions_eq]
    exact (congrArg _ List.map_const'.symm).trans List.map_prod_left_eq_zip.symm
  have there : ∀ i ∈ List.range count, w.contains (name.childAt i) = true := fun i within =>
    ends.below i (List.mem_range.mp within)
  have ran : ended = (S.elements (S.readWithin declarations S.sources.height) name
      ((positions w name).zip (kind.wanted (positions w name).length)) >>=
        gather declarations target name w) start := rfl
  rw [wanted] at ran
  rw [ran]
  rcases elements_eq draws there inScope with taken | ⟨visit, calls, continued, vetoed, member⟩
  · refine .inl ?_
    rcases bound : Binding.each (S.element declarations target name) (List.range count) start
      with ⟨outcome, last⟩
    rw [Binding.map_apply, bound] at taken
    cases outcome with
    | error e =>
        have stopped : S.upTo declarations target name w count start = _ :=
          Binding.bind_of_error bound
        exact (Binding.bind_of_error taken).trans stopped.symm
    | ok items =>
        have gathered : S.upTo declarations target name w count start = _ :=
          Binding.bind_of_ok bound
        exact (Binding.bind_of_ok taken).trans gathered.symm
  · exact .inr ⟨visit, calls, Binding.bind_continues continued gather_continues, vetoed, member⟩

/-- A list is read from its source, one level deeper. -/
theorem list_node_reads (declarations : Declarations ρ) (target : Target ρ)
    (found : scope.sourceOf? name = some w) (noValue : w.get? name = none)
    {run : Run} (inScope : run.scope = scope) :
    let kind := Sequence.growing (Target.label declarations (.list target)) target .list
    let ended := S.node declarations (.list target) name run
    ∃ start, start.scope = w ∧ callsOf start.history = callsOf run.history ∧
      let inner := S.indexed (S.readWithin declarations S.sources.height) kind name w start
      ended.1 = inner.1 ∧ ended.2.history = inner.2.history := by
  intro kind ended
  let entry : LogEntry := ⟨.trace, "binding indexed elements", [("name", .text (toString name)),
    ("source", .text ("Some(" ++ Text.quoted (w.sources.headD "") ++ ")"))]⟩
  let start : Run :=
    ⟨run.depth + 1, run.names, w, run.bound, run.history ++ [.log entry]⟩
  refine ⟨start, rfl, by simp only [start, callsOf_append, callsOf_log, List.append_nil], ?_⟩
  have ran : ended = (Binding.log entry >>= fun _ => Binding.scopedTo w (Binding.nested
      (S.indexed (S.readWithin declarations S.sources.height) kind name w))) run := by
    refine (Binding.scope_bind _ run).trans ?_
    rw [inScope, found]
    dsimp only
    rw [noValue]
    rfl
  rw [ran]
  exact ⟨rfl, rfl⟩

/-- A list of which no element is vetoed is bound whole, as far as it goes. -/
theorem list_node_eq (draws : scope.Draws S.sources) (found : scope.sourceOf? name = some w)
    (noValue : w.get? name = none) {count : Nat} (ends : w.EndsAt name count) {run : Run}
    (inScope : run.scope = scope) {inside : List (Visit × Call)}
    (continued : (S.node declarations (.list target) name run).2.Continues run inside)
    (unvetoed : ∀ visit, (visit, .start false) ∈ inside → ¬ name.IsParentOf visit.name) :
    ∃ start, start.scope = w ∧
      (S.node declarations (.list target) name run).1 =
        (S.upTo declarations target name w count start).1 ∧
      (S.upTo declarations target name w count start).2.Continues start inside := by
  rcases list_node_reads declarations target found noValue inScope
    with ⟨start, startScope, began, outcome, ended⟩
  -- Reading adds no calls before the elements, so the list adds the calls of its elements.
  have added : ∀ {last : Run} {calls : List (Visit × Call)}, last.Continues start calls →
      last.history = (S.node declarations (.list target) name run).2.history → calls = inside := by
    intro last calls continuedToo same
    have both := continuedToo.calls
    rw [began, same, continued.calls] at both
    exact (List.append_cancel_left both).symm
  rcases indexed_eq (draws.sourceOf? found) ends startScope
    with same | ⟨visit, calls, continuedToo, vetoed, member⟩
  · rw [same] at outcome ended
    rcases Binding.each_continues (fun i _ _ => S.element_continues declarations target name i _)
      (List.range count) startScope with ⟨calls, bound⟩
    have gathered : (S.upTo declarations target name w count start).2.Continues start calls :=
      Binding.bind_continues bound fun items => gather_continues (items, false)
    exact ⟨start, startScope, outcome, added gathered ended.symm ▸ gathered⟩
  · rw [added continuedToo ended.symm] at vetoed
    exact absurd member (unvetoed visit vetoed)

/-- Elements that have been bound have the values of their nodes. -/
theorem elements_bound {count : Nat} {start last : Run} {items : List Value}
    (inScope : start.scope = w)
    (bound : Binding.each (S.element declarations target name) (List.range count) start =
      (.ok items, last)) :
    List.Forall₂ (fun i value => ∃ run after, run.scope = w ∧
      S.node declarations target (name.childAt i) run = (.ok value, after) ∧
      (last.UnvetoedSince start → after.UnvetoedSince run)) (List.range count) items := by
  have made := Binding.each_eq_ok
    (fun i run _ => S.element_continues declarations target name i run) inScope bound
  refine made.imp fun i value => ?_
  rintro ⟨before, next, kept, ran, unvetoed⟩
  rcases element_eq_ok ran with ⟨run, after, same, ranNode, inner⟩
  exact ⟨run, after, same.trans kept, ranNode, fun since => inner (unvetoed since)⟩

theorem length_elements {count : Nat} {start last : Run} {items : List Value}
    (inScope : start.scope = w)
    (bound : Binding.each (S.element declarations target name) (List.range count) start =
      (.ok items, last)) : items.length = count := by
  have same := (elements_bound inScope bound).length_eq
  rwa [List.length_range, eq_comm] at same

/-- A list that has been bound has all elements before the position, and nothing is left over. -/
theorem upTo_eq_ok {count : Nat} {start after : Run} {v : Value} (inScope : start.scope = w)
    (ran : S.upTo declarations target name w count start = (.ok v, after)) :
    ∃ items, v = .list items ∧
      Binding.each (S.element declarations target name) (List.range count) start =
        (.ok items, after) ∧ beyond w name count = [] := by
  rcases Binding.bind_eq_ok ran with ⟨items, last, bound, gathered⟩
  have length := length_elements inScope bound
  by_cases nothing : beyond w name items.length = []
  · rw [gather_of_nothing nothing] at gathered
    cases gathered
    exact ⟨items, rfl, bound, length ▸ nothing⟩
  · rw [gather_of_left nothing] at gathered
    cases gathered

/-- How binding the elements of a list ends, from a state in which its source is in scope:
at the first element that fails, with the whole list, or with something left over. -/
inductive ListEnds (S : Session) (declarations : Declarations ρ) (target : Target ρ) (name : Name)
    (w : Store) (count : Nat) (start : Run) : Except BindError Value → Prop
  | failed {i : Nat} {values : List Value} {run : Run} {e : BindError} (within : i < count)
      (earlier : Binding.each (S.element declarations target name) (List.range i) start =
        (.ok values, run))
      (fails : (S.element declarations target name i run).1 = .error e) :
      ListEnds S declarations target name w count start (.error e)
  | whole {items : List Value} {run : Run}
      (bound : Binding.each (S.element declarations target name) (List.range count) start =
        (.ok items, run))
      (each : List.Forall₂ (fun i value => ∀ v,
        S.Binds declarations w target (name.childAt i) v ↔ v = value) (List.range count) items)
      (nothing : ∀ child ∈ w.children name, ¬ Store.IsLate count child) :
      ListEnds S declarations target name w count start (.ok (.list items))
  | left {items : List Value} {run : Run} {child : Name} {properties : List Property}
      (bound : Binding.each (S.element declarations target name) (List.range count) start =
        (.ok items, run))
      (listed : child ∈ w.children name) (late : Store.IsLate count child)
      (sorted : properties.Pairwise fun p q => p.name < q.name)
      (all : ∀ p, p ∈ properties ↔ w.get? p.name = some p ∧
        ∃ child ∈ w.children name, Store.IsLate count child ∧ child.Leads p.name) :
      ListEnds S declarations target name w count start
        (.error (.here name (Target.label declarations (.list target)) none (.unbound properties)))

theorem upTo_ends {count : Nat} {start : Run} (inScope : start.scope = w)
    (since : (S.upTo declarations target name w count start).2.UnvetoedSince start) :
    S.ListEnds declarations target name w count start
      (S.upTo declarations target name w count start).1 := by
  let element := S.element declarations target name
  rcases bound : Binding.each element (List.range count) start with ⟨outcome, last⟩
  cases outcome with
  | error e =>
      have ran : S.upTo declarations target name w count start = _ := Binding.bind_of_error bound
      rcases Binding.each_eq_error bound with ⟨before, i, rest, values, run, split, earlier, failed⟩
      -- The positions before the one that fails are those that are smaller.
      rw [List.range_eq_range'] at split
      rcases List.range'_eq_append_iff.mp split with ⟨front, _, rfl, later⟩
      rcases List.range'_eq_cons_iff.mp later.symm with ⟨first, some, _⟩
      rw [Nat.zero_add, Nat.mul_one] at first
      rw [← List.range_eq_range', first] at earlier
      rw [ran]
      exact .failed (by omega) earlier (congrArg Prod.fst failed)
  | ok items =>
      have ran : S.upTo declarations target name w count start = _ := Binding.bind_of_ok bound
      have length := length_elements inScope bound
      rw [ran] at since ⊢
      by_cases nothing : beyond w name items.length = []
      · rw [gather_of_nothing nothing] at since ⊢
        refine .whole bound ((elements_bound inScope bound).imp ?_)
          (Store.beyond_eq_nil_iff.mp (length ▸ nothing))
        rintro i value ⟨run, after, kept, ranNode, unvetoed⟩
        exact Binds.iff ⟨run, after, kept, ranNode, unvetoed since⟩
      · rw [gather_of_left nothing, length] at *
        rcases List.exists_mem_of_ne_nil _ nothing with ⟨p, member⟩
        rcases Store.mem_beyond.mp member with ⟨_, child, listed, late, _⟩
        exact .left bound listed late Store.sorted_beyond fun p => Store.mem_beyond

end Session

/-! ## Whole runs -/

namespace Binder

variable {b : Binder ρ} {w : Store} {n : Name} {target : Target ρ} {existing : Bool}

/-- A run that binds a list from its elements, with no element vetoed. -/
theorem bindAt_list_node (found : b.sources.sourceOf? n = some w) (noValue : w.get? n = none)
    (unvetoed : ∀ visit,
      (visit, .start false) ∈ callsOf (b.bindAt (.list target) n existing).history →
        ¬ n.IsParentOf visit.name) {count : Nat} (ends : w.EndsAt n count) :
    let S := b.session (.list target)
    let outcome := b.bindAt (.list target) n existing
    (outcome.result = .ok none ∧ ¬ Unvetoed (callsOf outcome.history)) ∨
      ∃ start inside closed, start.scope = w ∧
        (S.upTo b.declarations target n w count start).2.Continues start inside ∧
        (∀ call ∈ inside, call ∈ callsOf outcome.history) ∧
        S.Settles n (S.upTo b.declarations target n w count start).1 closed ∧
        outcome.result = (closed.map some).mapError (·.withTarget S.rootType) := by
  intro S outcome
  have there : b.sources.contains n = true :=
    (b.sources.isSome_sourceOf?_iff n).mp (Option.isSome_of_mem found)
  rcases b.bindAt_node (.list target) n existing there
    with vetoed | ⟨run, inside, closed, inScope, continued, included, settles, result⟩
  · exact .inl vetoed
  · rcases Session.list_node_eq (.refl b.sources) found noValue ends inScope continued
      fun visit vetoed => unvetoed visit (included _ vetoed)
      with ⟨start, startScope, same, added⟩
    exact .inr ⟨start, inside, closed, startScope, added, included, same ▸ settles, result⟩

/-- When binding a list from its elements succeeds and no element has been vetoed, the list
ends where the positions do, and no child denotes a later position. -/
theorem bindAt_list_items {v : Value} (found : b.sources.sourceOf? n = some w)
    (noValue : w.get? n = none)
    (bound : (b.bindAt (.list target) n existing).result = .ok (some v))
    (unvetoed : ∀ visit,
      (visit, .start false) ∈ callsOf (b.bindAt (.list target) n existing).history →
        ¬ n.IsParentOf visit.name) :
    ∃ items, v = .list items ∧ w.EndsAt n items.length ∧
      List.Forall₂ (fun i value => ∃ run after, run.scope = w ∧
        (b.session (.list target)).node b.declarations target (n.childAt i) run =
          (.ok value, after)) (List.range items.length) items ∧
      ∀ child ∈ w.children n, ¬ Store.IsLate items.length child := by
  rcases w.exists_endsAt n with ⟨count, ends⟩
  rcases bindAt_list_node found noValue unvetoed ends
    with ⟨none, _⟩ | ⟨start, inside, closed, inScope, continued, included, settles, result⟩
  · cases none.symm.trans bound
  · rw [result] at bound
    cases closed with
    | error e => cases bound
    | ok value =>
        cases bound
        rcases Session.upTo_eq_ok inScope (Prod.ext settles.eq_ok rfl)
          with ⟨items, rfl, made, nothing⟩
        have length := Session.length_elements inScope made
        rw [← length] at ends made nothing
        refine ⟨items, rfl, ends, (Session.elements_bound inScope made).imp ?_,
          Store.beyond_eq_nil_iff.mp nothing⟩
        rintro i value ⟨run, after, kept, ranNode, _⟩
        exact ⟨run, after, kept, ranNode⟩

/-- When binding a list from its elements succeeds and no element has been vetoed, a child
whose last text is a numeral has been bound as an element if and only if the numeral is
written without leading zeros and the number is that of an element.  Every number below the
bound on positions is that of an element, so what is passed over in silence are numerals with
leading zeros and numbers that are too large. -/
theorem bindAt_list_numerals {v : Value} (found : b.sources.sourceOf? n = some w)
    (noValue : w.get? n = none)
    (bound : (b.bindAt (.list target) n existing).result = .ok (some v))
    (unvetoed : ∀ visit,
      (visit, .start false) ∈ callsOf (b.bindAt (.list target) n existing).history →
        ¬ n.IsParentOf visit.name) :
    ∃ items, v = .list items ∧ w.EndsAt n items.length ∧
      List.Forall₂ (fun i value => ∃ run after, run.scope = w ∧
        (b.session (.list target)).node b.declarations target (n.childAt i) run =
          (.ok value, after)) (List.range items.length) items ∧
      ∀ child ∈ w.children n, ∀ e, child.last? = some e →
        Number.allDigits e.text.toList = true →
        ((∃ i < items.length, child.Same (n.childAt i)) ↔
          Number.ofDigits e.text.toList < items.length ∧
            e.text = toString (Number.ofDigits e.text.toList)) ∧
        (Number.ofDigits e.text.toList < Element.positionBound →
          Number.ofDigits e.text.toList < items.length) := by
  rcases bindAt_list_items found noValue bound unvetoed with ⟨items, rfl, ends, each, early⟩
  refine ⟨items, rfl, ends, each, fun child listed e last digits => ?_⟩
  exact ⟨(Store.isParentOf_of_mem_children listed).exists_same_childAt_iff last digits _,
    Store.ofDigits_lt_of_not_late (early child listed) last digits⟩

/-- A list of which the first position is written in two ways. -/
theorem bindAt_list_numerals_zero :
    let l := Name.root.child "l"
    let element (numeral value : String) :=
      Property.mk (l.push (.bracket numeral)) value ⟨"file", "l[" ++ numeral ++ "]"⟩
    let w := Store.single (.ofList "file" [element "0" "a", element "00" "b"])
    let declarations : Declarations Empty := ⟨(nomatch ·), (nomatch ·)⟩
    let outcome := (Binder.plain w declarations).bindAt (.list .text) l false
    ∃ items, outcome.result = .ok (some (.list items)) ∧
      ∀ child ∈ w.children l, ∀ e, child.last? = some e →
        Number.allDigits e.text.toList = true →
        ((∃ i < items.length, child.Same (l.childAt i)) ↔
          Number.ofDigits e.text.toList < items.length ∧
            e.text = toString (Number.ofDigits e.text.toList)) := by
  intro l element w declarations outcome
  have found : w.sourceOf? l = some w := Store.sourceOf?_single (by decide +kernel)
  have unvetoed : Unvetoed (callsOf outcome.history) := bindAt_unvetoed (fun _ => rfl) _ l false
  have isBound : outcome.result.toOption.join.isSome = true := by decide +kernel
  rcases exists_bound isBound with ⟨v, bound⟩
  rcases bindAt_list_numerals found (by decide +kernel) bound
    fun visit vetoed => absurd vetoed (unvetoed visit) with ⟨items, rfl, _, _, numerals⟩
  exact ⟨items, bound, fun child listed e last digits => (numerals child listed e last digits).1⟩

/-- An element whose numeral has a leading zero is passed over, and the list is bound without
it. -/
theorem list_drops_numerals :
    let l := Name.root.child "l"
    let element (numeral value : String) :=
      Property.mk (l.push (.bracket numeral)) value ⟨"test", "l[" ++ numeral ++ "]"⟩
    let w := Store.single (.ofList "test" [element "0" "a", element "00" "b"])
    let declarations : Declarations Empty := ⟨(nomatch ·), (nomatch ·)⟩
    let outcome := (Binder.plain w declarations).bindAt (.list .text) l false
    w.sourceOf? l = some w ∧ Unvetoed (callsOf outcome.history) ∧
      ∃ items, outcome.result = .ok (some (.list items)) ∧
        ∃ child ∈ w.children l, (∃ e, child.last? = some e ∧
          Number.allDigits e.text.toList = true) ∧
          ¬ (∃ i < items.length, child.Same (l.childAt i)) ∧
          ∀ p ∈ outcome.bound, ¬ child.Leads p.name := by
  intro l element w declarations outcome
  have found : w.sourceOf? l = some w := Store.sourceOf?_single (by decide +kernel)
  have unvetoed : Unvetoed (callsOf outcome.history) := bindAt_unvetoed (fun _ => rfl) _ l false
  have one : w.EndsAt l 1 := ⟨by decide +kernel, by decide +kernel⟩
  have dropped : l.push (.bracket "00") ∈ w.children l := by decide +kernel
  have isBound : outcome.result.toOption.join.isSome = true := by decide +kernel
  rcases exists_bound isBound with ⟨v, bound⟩
  rcases bindAt_list_items found (by decide +kernel) bound
    fun visit vetoed => absurd vetoed (unvetoed visit) with ⟨items, rfl, ends, _, _⟩
  refine ⟨found, unvetoed, items, bound, _, dropped, ⟨_, rfl, by decide⟩, ?_, by decide +kernel⟩
  rw [ends.unique one]
  decide +kernel

/-- When nothing is vetoed, a list is bound from the elements before the first position at
which its source has nothing, and the handler closes what comes of this.  It is the error of
the first element that fails, or the list of the values of all elements if no child denotes a
later position, or else the properties at and below such children, in the order of names. -/
theorem bindAt_list_prefix (found : b.sources.sourceOf? n = some w) (noValue : w.get? n = none)
    (target : Target ρ) (existing : Bool)
    (unvetoed : Unvetoed (callsOf (b.bindAt (.list target) n existing).history)) :
    let S := b.session (.list target)
    ∃ count start outcome closed, w.EndsAt n count ∧ start.scope = w ∧
      S.ListEnds b.declarations target n w count start outcome ∧ S.Settles n outcome closed ∧
      (b.bindAt (.list target) n existing).result =
        (closed.map some).mapError (·.withTarget S.rootType) := by
  intro S
  rcases w.exists_endsAt n with ⟨count, ends⟩
  rcases bindAt_list_node found noValue (fun visit vetoed => absurd vetoed (unvetoed visit)) ends
    with ⟨_, vetoed⟩ | ⟨start, inside, closed, inScope, continued, included, settles, result⟩
  · exact absurd unvetoed vetoed
  · have since : (S.upTo b.declarations target n w count start).2.UnvetoedSince start :=
      ⟨inside, continued, fun visit vetoed => unvetoed visit (included _ vetoed)⟩
    exact ⟨count, start, _, closed, ends, inScope, Session.upTo_ends inScope since, settles, result⟩

/-- A list with a gap, of which one element before the gap and one behind it are written with
a dot, while another source has elements that are not looked at. -/
theorem bindAt_list_prefix_gap :
    let ports := Name.root.child "ports"
    let port (name : Name) (value : String) := Property.mk name value ⟨"file", toString name⟩
    let other := Layer.ofList "defaults" [port (ports.childAt 2) "80"]
    let layer := Layer.ofList "file" [port (ports.childAt 0) "81", port (ports.child "1") "82",
      port (ports.child "12") "83", port (ports.childAt 3) "84"]
    let w := Store.single layer
    let declarations : Declarations Empty := ⟨(nomatch ·), (nomatch ·)⟩
    let b := Binder.mk ⟨[other, layer]⟩ (Provided.chain [.tracing, .noUnbound]) declarations
    let S := b.session (.list (.whole ⟨false, 16⟩))
    b.sources.sourceOf? ports = some w ∧
      ∃ start outcome closed, w.EndsAt ports 2 ∧ start.scope = w ∧
        S.ListEnds declarations (.whole ⟨false, 16⟩) ports w 2 start outcome ∧
        S.Settles ports outcome closed ∧
        (b.bindAt (.list (.whole ⟨false, 16⟩)) ports false).result =
          (closed.map some).mapError (·.withTarget S.rootType) := by
  intro ports port other layer w declarations b S
  have highest : Store.Highest b.sources ports layer :=
    ⟨[other], [], rfl, Layer.contains_iff.mp (by decide +kernel), fun _ later => by cases later⟩
  have two : w.EndsAt ports 2 := ⟨by decide +kernel, by decide +kernel⟩
  rcases bindAt_list_prefix highest.sourceOf? (by decide +kernel) (.whole ⟨false, 16⟩) false
    (bindAt_unvetoed (fun _ => rfl) _ ports false)
    with ⟨count, start, outcome, closed, ends, inScope, ended, settles, result⟩
  rw [ends.unique two] at ended
  exact ⟨highest.sourceOf?, start, outcome, closed, two, inScope, ended, settles, result⟩

end Binder
end PropertyBinding
