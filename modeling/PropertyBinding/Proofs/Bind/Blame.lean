import PropertyBinding.Proofs.Bind.Placement

/-!
# Which node an error is about

An error can arise where the name is not known, and then it is given the name of the
innermost node around it.  Another can arise where the name is known, and then it keeps
that name.  On its way out it passes every node that it leaves, and each of them is told
that it has failed.

Both kinds end at the same place because of what a step may fail with: an error that has
a name has that of the node at hand, and a property that it carries goes by this name as
well.  So there are only two ways for a step of a node to fail.  Either no node has
failed yet and the error is without a name or about this node, or the nodes that have
failed so far lie one within another, the innermost is the one that the error is about,
and the outermost is a member of the node at hand.
-/

namespace PropertyBinding

/-! ## Failed nodes -/

/-- The nodes that are told that they have failed, in this order. -/
def failedIn (calls : List (Visit × Call)) : List Name :=
  calls.filterMap fun asked =>
    match asked.2 with
    | .failure _ _ => some asked.1.name
    | _ => none

@[simp] theorem failedIn_append (first second : List (Visit × Call)) :
    failedIn (first ++ second) = failedIn first ++ failedIn second :=
  List.filterMap_append

@[simp] theorem failedIn_start (visit : Visit) (proceed : Bool) :
    failedIn [(visit, .start proceed)] = [] := rfl

@[simp] theorem failedIn_failure (visit : Visit) (e answer : BindError) :
    failedIn [(visit, .failure e answer)] = [visit.name] := rfl

@[simp] theorem failedIn_finish (visit : Visit) (answer : Except BindError Unit) :
    failedIn [(visit, .finish answer)] = [] := rfl

/-- An error is about the first of some nodes, each of which is a member of the next. -/
structure BindError.Blames (e : BindError) (nodes : List Name) : Prop where
  located : e.located = true
  first : nodes.head? = some e.name
  owned : ∀ p, e.property = some p → e.name.Same p.name
  chained : nodes.IsChain fun inner outer => outer.IsParentOf inner

namespace BindError.Blames

variable {e : BindError} {nodes : List Name} {name child : Name}

/-- An error that has passed a member has not passed the node around it yet. -/
theorem around (blames : e.Blames (nodes ++ [child])) (parent : name.IsParentOf child) :
    e.Blames (nodes ++ [child] ++ [name]) := by
  refine ⟨blames.located, ?_, blames.owned, ?_⟩
  · rw [List.head?_append, blames.first, Option.some_or]
  · refine blames.chained.append (List.isChain_singleton name) fun inner last outer first => ?_
    rw [List.getLast?_concat] at last
    cases last
    cases first
    exact parent

theorem withTarget (blames : e.Blames nodes) (target : String) :
    (e.withTarget target).Blames nodes := by
  unfold BindError.withTarget
  split
  · exact ⟨blames.located, blames.first, blames.owned, blames.chained⟩
  · exact blames

/-- The nodes differ: of any two the first lies below the second. -/
theorem pairwise (blames : e.Blames nodes) :
    nodes.Pairwise fun inner outer => outer.IsAncestorOf inner := by
  have step : ∀ a b : Name, b.IsParentOf a → b.IsAncestorOf a :=
    fun a b parent => ⟨by rw [parent.1]; exact Nat.lt_succ_self _, parent.2⟩
  have trans : ∀ a b c : Name, b.IsAncestorOf a → c.IsAncestorOf b → c.IsAncestorOf a :=
    fun a b c inner outer => outer.trans_leads inner.2
  have : Trans (fun inner outer : Name => outer.IsAncestorOf inner)
      (fun inner outer : Name => outer.IsAncestorOf inner)
      (fun inner outer : Name => outer.IsAncestorOf inner) := ⟨fun {a b c} => trans a b c⟩
  exact (blames.chained.imp step).pairwise

/-- The last of the nodes has the error at it or below it. -/
theorem leads (blames : e.Blames (nodes ++ [name])) : name.Leads e.name := by
  have first := blames.first
  cases nodes with
  | nil =>
      cases first
      exact (Name.same_refl e.name).leads
  | cons inner rest =>
      cases first
      have outer : name ∈ rest ++ [name] :=
        List.mem_append_right rest (List.mem_singleton_self name)
      exact (List.rel_of_pairwise_cons blames.pairwise outer).2

end BindError.Blames

/-- How a step of a node can end, and which of the nodes inside have failed by then. -/
inductive StepEnded {α : Type} (name : Name) : Except BindError α → List Name → Prop
  | value (a : α) : StepEnded name (.ok a) []
  | nameless {e : BindError} (unlocated : e.located = false)
      (owned : ∀ p, e.property = some p → name.Same p.name) : StepEnded name (.error e) []
  | named {e : BindError} {failed : List Name} (blames : e.Blames (failed ++ [name])) :
      StepEnded name (.error e) failed

/-- How binding a node can end: it is the last to fail, or no node fails. -/
inductive NodeLeft {α : Type} (name : Name) : Except BindError α → List Name → Prop
  | value (a : α) : NodeLeft name (.ok a) []
  | failed {e : BindError} {inside : List Name} (blames : e.Blames (inside ++ [name])) :
      NodeLeft name (.error e) (inside ++ [name])

section

variable {α β : Type} {name child : Name} {outcome : Except BindError α} {failed : List Name}

theorem StepEnded.eq_nil {a : α} (ended : StepEnded name (.ok a) failed) : failed = [] := by
  cases ended
  rfl

/-- An error stands in for a value of any type. -/
theorem StepEnded.passOn {e : BindError} (ended : StepEnded (α := α) name (.error e) failed) :
    StepEnded (α := β) name (.error e) failed := by
  cases ended with
  | nameless unlocated owned => exact .nameless unlocated owned
  | named blames => exact .named blames

theorem NodeLeft.eq_nil {a : α} (left : NodeLeft name (.ok a) failed) : failed = [] := by
  cases left
  rfl

theorem NodeLeft.map (left : NodeLeft name outcome failed) (f : α → β) :
    NodeLeft name (outcome.map f) failed := by
  cases left with
  | value a => exact .value (f a)
  | failed blames => exact .failed blames

theorem NodeLeft.withTarget (left : NodeLeft name outcome failed) (target : String) :
    NodeLeft name (outcome.mapError fun e => e.withTarget target) failed := by
  cases left with
  | value a => exact .value a
  | failed blames => exact .failed (blames.withTarget target)

theorem StepEnded.here {e : BindError} (here : e.located = true → e.name = name)
    (owned : ∀ p, e.property = some p → name.Same p.name) :
    StepEnded (α := α) name (.error e) [] := by
  cases located : e.located with
  | false => exact .nameless located owned
  | true =>
      have same := here located
      exact .named ⟨located, congrArg some same.symm, same ▸ owned, List.isChain_singleton name⟩

/-- The error with which a node fails. -/
theorem StepEnded.locate {e : BindError} (ended : StepEnded (α := α) name (.error e) failed) :
    (e.locate name).Blames (failed ++ [name]) := by
  cases ended with
  | nameless unlocated owned =>
      have named : e.locate name = { e with name, located := true } := by
        rw [BindError.locate, unlocated, if_neg Bool.false_ne_true]
      rw [named]
      exact ⟨rfl, rfl, owned, List.isChain_singleton name⟩
  | named blames =>
      rw [BindError.locate, if_pos blames.located]
      exact blames

theorem StepEnded.withTarget {e : BindError} (ended : StepEnded (α := α) name (.error e) failed)
    (target : String) : StepEnded (α := α) name (.error (e.withTarget target)) failed := by
  cases ended with
  | nameless unlocated owned =>
      apply StepEnded.nameless
      · rw [BindError.withTarget]
        split <;> exact unlocated
      · rw [BindError.withTarget]
        split <;> exact owned
  | named blames => exact .named (blames.withTarget target)

/-- Binding a member is a step of the node around it. -/
theorem NodeLeft.ended (left : NodeLeft child outcome failed) (parent : name.IsParentOf child) :
    StepEnded name outcome failed := by
  cases left with
  | value a => exact .value a
  | failed blames => exact .named (blames.around parent)

end

/-! ## Accountable steps -/

/-- A handler that leaves errors as they are, and that rejects a node only with an error
about this node. -/
structure Handler.Candid (handler : Handler) : Prop where
  failure : ∀ sources visit e, (handler.failure sources visit e).value = e
  finish : ∀ sources visit e, (handler.finish sources visit).value = .error e →
    e.name = visit.name ∧ e.property = none

theorem Handler.accepting_candid : Handler.accepting.Candid :=
  ⟨fun _ _ _ => rfl, fun _ _ _ impossible => by cases impossible⟩

theorem Provided.over_candid (link : Provided) {parent : Handler} (candid : parent.Candid) :
    (link.over parent).Candid := by
  cases link with
  | ignoreNested => exact ⟨candid.failure, candid.finish⟩
  | tracing => exact ⟨candid.failure, candid.finish⟩
  | noUnbound =>
      refine ⟨candid.failure, fun sources visit e rejected => ?_⟩
      simp only [Provided.over, Handler.noUnbound] at rejected
      generalize (if visit.depth = 0 then Handler.unused sources visit else []) = left at rejected
      cases left with
      | nil => exact candid.finish sources visit e rejected
      | cons p rest =>
          cases rejected
          exact ⟨rfl, rfl⟩

theorem Provided.chain_candid (links : List Provided) : (chain links).Candid := by
  induction links with
  | nil => exact Handler.accepting_candid
  | cons link rest inductionHypothesis => exact link.over_candid inductionHypothesis

variable {α β : Type} {scope : Store} {name child : Name}

/-- With some sources in scope, the calls of a step tell which nodes have failed. -/
def Binding.Accountable (scope : Store) (name : Name) (step : Binding α) : Prop :=
  ∀ run, run.scope = scope → ∃ calls, StepEnded name (step run).1 (failedIn calls) ∧
    (step run).2.Continues run calls

namespace Binding.Accountable

variable {step : Binding α} {next : α → Binding β}

theorem pure (a : α) : Accountable scope name (Pure.pure a) :=
  fun run _ => ⟨[], .value a, .refl run⟩

theorem bind (first : Accountable scope name step)
    (second : ∀ a, step.Yields a → Accountable scope name (next a)) :
    Accountable scope name (step >>= next) := by
  intro run inScope
  rcases first run inScope with ⟨before, ended, continued⟩
  rcases ran : step run with ⟨outcome, middle⟩
  rw [ran] at ended continued
  cases outcome with
  | error e =>
      rw [Binding.bind_of_error ran]
      exact ⟨before, ended.passOn, continued⟩
  | ok a =>
      rcases second a ⟨run, middle, ran⟩ middle (continued.scope.trans inScope)
        with ⟨after, endedAfter, continuedAfter⟩
      rw [Binding.bind_of_ok ran]
      refine ⟨before ++ after, ?_, continuedAfter.trans continued⟩
      rw [failedIn_append, ended.eq_nil, List.nil_append]
      exact endedAfter

end Binding.Accountable

namespace Session

open Binding

variable {S : Session} {rules : Rules} {slot : Slot} {step : Binding α}

theorem succeed_accountable : Accountable scope name (S.succeed name slot) :=
  fun _ _ => ⟨[_], .value (), .noted _ _ _ _⟩

theorem finish_accountable (candid : S.handler.Candid) :
    Accountable scope name (S.finish name slot) := by
  intro run _
  refine ⟨[_], ?_, .noted _ _ _ _⟩
  cases answered : (S.handler.finish S.sources (run.visit S.rootType name slot)).value with
  | ok done =>
      simp only [finish, answered, failedIn_finish]
      exact .value done
  | error e =>
      have about := candid.finish _ _ e answered
      simp only [finish, answered, failedIn_finish]
      refine .here (fun _ => about.1) fun p carried => ?_
      rw [about.2] at carried
      cases carried

/-- When a step of a node fails, so does the node, with the same error. -/
theorem guarded_left (candid : S.handler.Candid) (inner : Accountable scope name step) (run : Run)
    (inScope : run.scope = scope) :
    ∃ calls, NodeLeft name (S.guarded name slot step run).1 (failedIn calls) ∧
      (S.guarded name slot step run).2.Continues run calls := by
  rcases inner run inScope with ⟨before, ended, continued⟩
  unfold guarded
  rcases ran : step run with ⟨outcome, middle⟩
  rw [ran] at ended continued
  cases outcome with
  | ok a =>
      refine ⟨before, ?_, continued⟩
      rw [ended.eq_nil]
      exact .value a
  | error e =>
      refine ⟨_, ?_, (Run.Continues.noted _ _ _ _).trans continued⟩
      simp only [failedIn_append, failedIn_failure, refuse, candid.failure]
      exact .failed ended.locate

theorem descend_left (candid : S.handler.Candid) (inner : Accountable scope name step) (run : Run)
    (inScope : run.scope = scope) :
    ∃ calls, NodeLeft name (S.descend name slot step run).1 (failedIn calls) ∧
      (S.descend name slot step run).2.Continues run calls := by
  have closed : Accountable scope name (S.closed name slot step) :=
    inner.bind fun a _ => succeed_accountable.bind fun _ _ =>
      (finish_accountable candid).bind fun _ _ => .pure a
  rcases guarded_left candid closed (run.enter name) inScope with ⟨calls, left, continued⟩
  refine ⟨calls, left, continued.depth, ?_, continued.scope, continued.calls⟩
  exact (congrArg List.dropLast continued.names).trans List.dropLast_concat

/-- Binding a member, which is what the steps of a node may fail in. -/
theorem descend_accountable (candid : S.handler.Candid) (parent : name.IsParentOf child)
    (inner : Accountable scope child step) :
    Accountable scope name (S.descend child slot step) := by
  intro run inScope
  rcases descend_left candid inner run inScope with ⟨calls, left, continued⟩
  exact ⟨calls, left.ended parent, continued⟩

/-- A member is bound or passed over. -/
theorem offer_accountable {accepted passed : Binding α}
    (bound : Accountable scope name accepted) (vetoed : Accountable scope name passed) :
    Accountable scope name (S.offer child slot >>= fun proceed =>
      if proceed = true then accepted else passed) := by
  intro run inScope
  rcases offer_bind S child slot accepted passed run
    with ⟨visit, proceed, middle, _, asked, offered⟩
  rw [offered]
  have inScopeThen := asked.scope.trans inScope
  have on : ∀ {step : Binding α}, Accountable scope name step →
      ∃ calls, StepEnded name (step middle).1 (failedIn calls) ∧
        (step middle).2.Continues run calls := by
    intro step accountable
    rcases accountable middle inScopeThen with ⟨after, ended, continued⟩
    refine ⟨_, ?_, continued.trans asked⟩
    rw [failedIn_append, failedIn_start, List.nil_append]
    exact ended
  cases proceed with
  | true => exact on bound
  | false => exact on vetoed

/-- An orderly step accounts for every node that fails. -/
theorem Orderly.accountable {place : Place} (candid : S.handler.Candid)
    (orderly : S.Orderly rules place scope name α step) : Accountable scope name step := by
  induction orderly with
  | pure a => exact .pure a
  | chain _ _ firstAccountable secondAccountable => exact firstAccountable.bind secondAccountable
  | look _ seenAccountable =>
      intro run inScope
      rw [Binding.scope_bind, inScope]
      exact seenAccountable run inScope
  | @use _ _ _ p _ =>
      intro run _
      have passed : (Binding.use p run).1 = .ok () := by
        unfold Binding.use
        split <;> rfl
      rw [passed]
      exact ⟨[], .value (), .used run p⟩
  | log entry => exact fun run _ => ⟨[], .value (), .logged run entry⟩
  | fail here owned => exact fun run _ => ⟨[], .here here owned, .refl run⟩
  | @forTarget _ _ _ step target _ innerAccountable =>
      intro run inScope
      rcases innerAccountable run inScope with ⟨calls, ended, continued⟩
      unfold Binding.forTarget
      rcases ran : step run with ⟨outcome, after⟩
      rw [ran] at ended continued
      cases outcome with
      | ok a => exact ⟨calls, ended, continued⟩
      | error e => exact ⟨calls, ended.withTarget target, continued⟩
  | nested _ innerAccountable =>
      intro run inScope
      rcases innerAccountable { run with depth := run.depth + 1 } inScope
        with ⟨calls, ended, continued⟩
      exact ⟨calls, ended, congrArg (· - 1) continued.depth, continued.names, continued.scope,
        continued.calls⟩
  | @scopedTo _ source _ _ _ _ _ innerAccountable =>
      intro run inScope
      rcases innerAccountable { run with scope := source } rfl with ⟨calls, ended, continued⟩
      exact ⟨calls, ended, continued.depth, continued.names, rfl, continued.calls⟩
  | visit parent _ _ _ _ _ innerAccountable acceptedAccountable vetoedAccountable =>
      refine offer_accountable (.bind (descend_accountable candid parent innerAccountable)
        fun b _ => acceptedAccountable b) vetoedAccountable
  | misfit _ _ _ _ vetoedAccountable =>
      refine offer_accountable (fun run _ => ⟨[], .nameless rfl fun _ carried => ?_, .refl run⟩)
        vetoedAccountable
      cases carried

end Session

/-! ## Whole runs -/

namespace Binding

theorem forTarget_fst (target : String) (step : Binding α) (run : Run) :
    (forTarget target step run).1 = (step run).1.mapError fun e => e.withTarget target := by
  unfold forTarget
  rcases step run with ⟨outcome, after⟩
  cases outcome <;> rfl

/-- A step has the outcome of its first part if its second part only passes on the value. -/
theorem bind_fst {step : Binding α} {next : α → Binding α}
    (passes : ∀ a after, (next a after).1 = .ok a) (run : Run) :
    ((step >>= next) run).1 = (step run).1 := by
  rcases ran : step run with ⟨outcome, after⟩
  cases outcome with
  | ok a =>
      rw [bind_of_ok ran]
      exact passes a after
  | error e => rw [bind_of_error ran]

end Binding

theorem BindError.target_withTarget {target : String} (named : target ≠ "") (e : BindError) :
    (e.withTarget target).target ≠ "" := by
  unfold withTarget
  split
  · exact named
  · assumption

namespace Binder

variable {ρ : Type}

/-- The root is left like any other node. -/
theorem bindAccepted_left (b : Binder ρ) (candid : b.handler.Candid) (target : Target ρ)
    (root : Name) (slot : Slot) (run : Run) (inScope : run.scope = b.sources) :
    ∃ calls, NodeLeft root (b.bindAccepted target root slot run).1 (failedIn calls) ∧
      (b.bindAccepted target root slot run).2.Continues run calls := by
  let S := b.session target
  have leaves : S.handler.Candid := candid
  unfold bindAccepted
  by_cases there : b.sources.contains root = true
  · have orderly : S.Orderly .any .node b.sources root Value
        (S.readWithin b.declarations (b.sources.height + 1) target root) :=
      (S.readWithin_bindsMember _ target root (Store.Draws.refl b.sources)).orderly
    rcases Session.descend_left leaves (orderly.accountable leaves) run inScope
      with ⟨calls, left, continued⟩
    rw [if_pos there, Binding.map_apply]
    exact ⟨calls, left.map some, continued⟩
  · rcases Session.guarded_left leaves (Session.finish_accountable leaves) run inScope
      with ⟨calls, left, continued⟩
    have finished : (do
        S.guarded root slot (S.finish root slot)
        return none : Binding (Option Value)) run = _ :=
      Binding.map_apply (fun _ => none) _ run
    rw [if_neg there, finished]
    exact ⟨calls, left.map fun _ => none, continued⟩

/-- A run leaves the root as a node is left, with an error that names a target. -/
theorem bindAt_left (b : Binder ρ) (candid : b.handler.Candid) (target : Target ρ)
    (labelled : target.label b.declarations ≠ "") (root : Name) (existing : Bool) :
    let outcome := b.bindAt target root existing
    NodeLeft root outcome.result (failedIn (callsOf outcome.history)) ∧
      ∀ e, outcome.result = .error e → e.target ≠ "" := by
  rcases b.bindRoot_offered target root existing
    with ⟨visit, proceed, middle, shown, asked, ran⟩
  intro outcome
  have result : outcome.result = _ := congrArg Prod.fst ran
  have history : outcome.history = _ := congrArg (fun ran => ran.2.history) ran
  rw [result, history]
  cases proceed with
  | false =>
      have calls : callsOf middle.history = [(visit, .start false)] := asked.calls
      refine ⟨?_, fun e impossible => by cases impossible⟩
      rw [if_neg Bool.false_ne_true]
      exact calls ▸ .value none
  | true =>
      let type := target.label b.declarations
      let slot := Slot.root type existing
      rcases b.bindAccepted_left candid target root slot middle asked.scope
        with ⟨calls, left, continued⟩
      have whole := ((bindOffered_continues continued).trans asked).calls
      have passed : (b.bindOffered target root slot middle).1 =
          (b.bindAccepted target root slot middle).1.mapError fun e => e.withTarget type :=
        (Binding.bind_fst (fun _ _ => rfl) middle).trans (Binding.forTarget_fst _ _ middle)
      rw [if_pos rfl, whole, failedIn_append, failedIn_append, failedIn_start, List.nil_append,
        passed]
      refine ⟨left.withTarget type, fun e failed => ?_⟩
      generalize (b.bindAccepted target root slot middle).1 = first at failed
      cases first with
      | ok value => cases failed
      | error inner =>
          cases failed
          exact inner.target_withTarget labelled

/-- When binding fails with handlers that are provided, the nodes that are told that they
have failed are those from the one that the error is about up to the root, each once and
the innermost first.  The error names a target, and a property that it carries goes by the
name of that node.  When binding succeeds, no node fails. -/
theorem bindText_error_blames (sources : Store) (links : List Provided)
    (declarations : Declarations ρ) (target : Target ρ) (labelled : target.label declarations ≠ "")
    {text : String} {root : Name} (parsed : Name.parse text = .ok root) (existing : Bool) :
    let b : Binder ρ := ⟨sources, Provided.chain links, declarations⟩
    let outcome := b.bindText target text existing
    let failed := failedIn (callsOf outcome.history)
    (∀ value, outcome.result = .ok value → failed = []) ∧
      ∀ e, outcome.result = .error e →
        failed.head? = some e.name ∧ failed.getLast? = some root ∧
        (failed.IsChain fun inner outer => outer.IsParentOf inner) ∧
        (failed.Pairwise fun inner outer => outer.IsAncestorOf inner) ∧
        root.Leads e.name ∧ e.target ≠ "" ∧ ∀ p, e.property = some p → p.name.Same e.name := by
  intro b outcome failed
  have atRoot : outcome = b.bindAt target root existing := by
    change b.bindText target text existing = _
    rw [bindText, parsed]
  rcases b.bindAt_left (Provided.chain_candid links) target labelled root existing
    with ⟨left, forTarget⟩
  rw [← atRoot] at left forTarget
  constructor
  · intro value bound
    rw [bound] at left
    exact left.eq_nil
  · intro e error
    have named := forTarget e error
    rw [error] at left
    change NodeLeft root (.error e) failed at left
    generalize failed = nodes at left ⊢
    cases left with
    | failed blames =>
        exact ⟨blames.first, List.getLast?_concat, blames.chained, blames.pairwise, blames.leads,
          named, fun p carried => (blames.owned p carried).symm⟩

/-- The second port of a service is no number: three nodes fail. -/
theorem bindText_error_blames_port :
    let service := Name.root.child "service"
    let ports := service.child "ports"
    let sources := Store.empty.push "file"
      [⟨ports.childAt 0, "80", ⟨"file", "service.ports[0]"⟩⟩,
        ⟨ports.childAt 1, "http", ⟨"file", "service.ports[1]"⟩⟩]
    let declarations : Declarations Empty := ⟨(nomatch ·), (nomatch ·)⟩
    let target : Target Empty := .map .text (.list (.whole ⟨false, 16⟩))
    let b : Binder Empty := ⟨sources, Provided.chain [.tracing, .noUnbound], declarations⟩
    let outcome := b.bindText target "service" false
    failedIn (callsOf outcome.history) = [ports.childAt 1, ports, service] ∧
      ∃ e, outcome.result = .error e ∧ e.name = ports.childAt 1 ∧ e.target ≠ "" := by
  intro service ports sources declarations target b outcome
  have failed : failedIn (callsOf outcome.history) = [ports.childAt 1, ports, service] := by
    decide +kernel
  have named : target.label declarations ≠ "" := by decide +kernel
  have parsed : Name.parse "service" = .ok service := by decide +kernel
  have whole := bindText_error_blames sources [.tracing, .noUnbound] declarations target named
    parsed false
  refine ⟨failed, ?_⟩
  cases bound : outcome.result with
  | ok value => exact absurd (failed.symm.trans (whole.1 value bound)) (List.cons_ne_nil _ _)
  | error e =>
      have blamed := whole.2 e bound
      refine ⟨e, rfl, ?_, blamed.2.2.2.2.2.1⟩
      exact (Option.some.inj (blamed.1.symm.trans (congrArg List.head? failed)))

end Binder
end PropertyBinding
