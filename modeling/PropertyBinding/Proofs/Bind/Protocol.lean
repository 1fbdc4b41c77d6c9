import Mathlib.Data.List.Chain
import PropertyBinding.Proofs.Bind.Trace

/-!
# The protocol of calls

A handler may expect that what it is asked is properly nested: a node that it has
accepted is closed exactly once, and before that nothing comes but the members of the
node, nested in the same way.  `Protocol` says so as a grammar of calls.

The expectation fails in one way.  A map reads the key of an entry, and a record
looks whether it has the field already, after the member has been offered.  When the
key is refused then, the run stops, and the nodes around the member fail one after
another, but the member itself is left open.  In the calls this shows as a member
being accepted and the node around it failing at once, which never happens otherwise.
So the protocol is kept exactly by the runs in which no key is refused, and in the
others a single node is left open.
-/

namespace PropertyBinding

/-! ## Properly nested calls -/

/-- The visit is one of a node. -/
structure Visit.Of (visit : Visit) (depth : Nat) (name : Name) : Prop where
  depth : visit.depth = depth
  name : visit.name = name

theorem Visit.At.of {visit : Visit} {depth : Nat} {names : List Name} {name : Name}
    (shown : visit.At depth names name) : visit.Of depth name :=
  ⟨shown.depth, shown.name⟩

/-- A node is finished, or fails because it may not stand. -/
inductive Finished (depth : Nat) (name : Name) : List (Visit × Call) → Prop
  | accepted {visit : Visit} (here : visit.Of depth name) :
      Finished depth name [(visit, .finish (.ok ()))]
  | rejected {visit again : Visit} {e located answer : BindError} (here : visit.Of depth name)
      (hereAgain : again.Of depth name) :
      Finished depth name [(visit, .finish (.error e)), (again, .failure located answer)]

/-- A node is closed once. -/
inductive Closed (depth : Nat) (name : Name) : List (Visit × Call) → Prop
  | bound {visit : Visit} {calls : List (Visit × Call)} (here : visit.Of depth name)
      (finished : Finished depth name calls) : Closed depth name ((visit, .success) :: calls)
  | failed {visit : Visit} {e answer : BindError} (here : visit.Of depth name) :
      Closed depth name [(visit, .failure e answer)]

/-- The calls about members of a node, one member after another. -/
inductive Nested : Nat → Name → List (Visit × Call) → Prop
  | nil {depth : Nat} {name : Name} : Nested depth name []
  | vetoed {depth : Nat} {name child : Name} {visit : Visit} {rest : List (Visit × Call)}
      (parent : name.IsParentOf child) (here : visit.Of depth child)
      (others : Nested depth name rest) : Nested depth name ((visit, .start false) :: rest)
  | node {depth : Nat} {name child : Name} {visit : Visit} {inside close rest : List (Visit × Call)}
      (parent : name.IsParentOf child) (here : visit.Of depth child)
      (inner : Nested (depth + 1) child inside) (closed : Closed depth child close)
      (others : Nested depth name rest) :
      Nested depth name ((visit, .start true) :: inside ++ close ++ rest)

/-- The calls of a run as a handler may expect them. -/
inductive Protocol (sources : Store) (root : Name) : List (Visit × Call) → Prop
  | vetoed {visit : Visit} (here : visit.Of 0 root) : Protocol sources root [(visit, .start false)]
  | bound {visit : Visit} {inside close : List (Visit × Call)}
      (there : sources.contains root = true) (here : visit.Of 0 root)
      (inner : Nested 1 root inside) (closed : Closed 0 root close) :
      Protocol sources root ((visit, .start true) :: inside ++ close)
  | absent {visit : Visit} {close : List (Visit × Call)}
      (missing : sources.contains root = false) (here : visit.Of 0 root)
      (finished : Finished 0 root close) :
      Protocol sources root ((visit, .start true) :: close)

/-! ## Calls with a node left open -/

/-- The calls about a node in which a node is left open.  All that comes after the open
node is that the nodes around it fail. -/
inductive LeftOpen (refused : Mismatch → Prop) : Nat → Name → List (Visit × Call) → Prop
  | member {depth : Nat} {name child : Name} {visit member last : Visit}
      {before : List (Visit × Call)} {e answer : BindError} {m : Mismatch}
      (here : visit.Of depth name) (done : Nested (depth + 1) name before)
      (parent : name.IsParentOf child) (there : member.Of (depth + 1) child)
      (hereAgain : last.Of depth name) (cause : e.cause = .mismatch m) (reason : refused m) :
      LeftOpen refused depth name
        ((visit, .start true) :: before ++ [(member, .start true), (last, .failure e answer)])
  | inner {depth : Nat} {name child : Name} {visit last : Visit}
      {before calls : List (Visit × Call)} {e answer : BindError} (here : visit.Of depth name)
      (done : Nested (depth + 1) name before) (parent : name.IsParentOf child)
      (inside : LeftOpen refused (depth + 1) child calls) (hereAgain : last.Of depth name) :
      LeftOpen refused depth name
        ((visit, .start true) :: before ++ calls ++ [(last, .failure e answer)])

/-- Somewhere a member has been accepted, and at once the node around it fails, for a
mismatch with which a key has been refused. -/
def KeyRefused (refused : Mismatch → Prop) (calls : List (Visit × Call)) : Prop :=
  ∃ before member owner e answer after m,
    calls = before ++ (member, .start true) :: (owner, .failure e answer) :: after ∧
      owner.name.IsParentOf member.name ∧ e.cause = .mismatch m ∧ refused m

/-! ## From traces to nested calls -/

section

variable {sources : Store} {refused : Mismatch → Prop} {depth : Nat} {name child : Name}
  {names : List Name} {calls inside close : List (Visit × Call)} {ending : Option BindFailure}

theorem Nested.append {before after : List (Visit × Call)} (first : Nested depth name before)
    (second : Nested depth name after) : Nested depth name (before ++ after) := by
  induction first with
  | nil => exact second
  | vetoed parent here _ inductionHypothesis =>
      exact .vetoed parent here (inductionHypothesis second)
  | node parent here inner closed _ _ inductionHypothesis =>
      rw [List.append_assoc]
      exact .node parent here inner closed (inductionHypothesis second)

theorem Finishing.finished (finishing : Finishing depth names name calls ending) :
    Finished depth name calls := by
  cases finishing with
  | accepted shown => exact .accepted shown.of
  | rejected shown shownAgain => exact .rejected shown.of shownAgain.of

theorem Closing.closed {bound : Option BindFailure}
    (closing : Closing depth names name bound calls ending) : Closed depth name calls := by
  cases closing with
  | bound shown finishing => exact .bound shown.of finishing.finished
  | failed shown => exact .failed shown.of

/-- What could not be bound is closed by its failure, with the same cause. -/
theorem Closing.of_some {cause : BindFailure}
    (closing : Closing depth names name (some cause) calls ending) :
    ∃ visit e answer, visit.Of depth name ∧ e.cause = cause ∧
      calls = [(visit, .failure e answer)] ∧ ending = some answer.cause := by
  cases closing with
  | failed shown => exact ⟨_, _, _, shown.of, rfl, rfl, rfl⟩

/-- How far the calls about the members of a node have come.  Unless all of them are
nested, the run stops there. -/
inductive Reached (refused : Mismatch → Prop) (depth : Nat) (name : Name) :
    List (Visit × Call) → Option BindFailure → Prop
  | nested {calls : List (Visit × Call)} {ending : Option BindFailure}
      (whole : Nested depth name calls) : Reached refused depth name calls ending
  | member {before : List (Visit × Call)} {child : Name} {member : Visit} {m : Mismatch}
      (done : Nested depth name before) (parent : name.IsParentOf child)
      (there : member.Of depth child) (reason : refused m) :
      Reached refused depth name (before ++ [(member, .start true)]) (some (.mismatch m))
  | leftOpen {before calls : List (Visit × Call)} {child : Name} {cause : BindFailure}
      (done : Nested depth name before) (parent : name.IsParentOf child)
      (inside : LeftOpen refused depth child calls) :
      Reached refused depth name (before ++ calls) (some cause)

/-- A node is nested if its members are, and else a node is left open in it. -/
theorem Reached.nested_or_leftOpen {visit : Visit} {bound : Option BindFailure}
    (here : visit.Of depth child)
    (reached : Reached refused (depth + 1) child inside bound)
    (closing : Closing depth names child bound close ending) :
    (Nested (depth + 1) child inside ∧ Closed depth child close) ∨
      (LeftOpen refused depth child ((visit, .start true) :: inside ++ close) ∧
        ∃ cause, ending = some cause) := by
  cases reached with
  | nested whole => exact Or.inl ⟨whole, closing.closed⟩
  | member done parent there reason =>
      rcases closing.of_some with ⟨last, e, answer, hereAgain, cause, rfl, rfl⟩
      rw [← List.cons_append, List.append_assoc]
      exact Or.inr ⟨.member here done parent there hereAgain cause reason, _, rfl⟩
  | leftOpen done parent within =>
      rcases closing.of_some with ⟨last, e, answer, hereAgain, _, rfl, rfl⟩
      rw [← List.cons_append]
      exact Or.inr ⟨.inner here done parent within hereAgain, _, rfl⟩

theorem Trace.reached (trace : Trace sources refused depth names name calls ending) :
    Reached refused depth name calls ending := by
  induction trace with
  | done => exact .nested .nil
  | stop cause => exact .nested .nil
  | append _ _ firstReached secondReached =>
      cases firstReached with
      | nested first =>
          cases secondReached with
          | nested second => exact .nested (first.append second)
          | member done parent there reason =>
              rw [← List.append_assoc]
              exact .member (first.append done) parent there reason
          | leftOpen done parent within =>
              rw [← List.append_assoc]
              exact .leftOpen (first.append done) parent within
  | vetoed parent _ shown => exact .nested (.vetoed parent shown.of .nil)
  | visit parent _ shown _ closing innerReached =>
      rcases innerReached.nested_or_leftOpen shown.of closing
        with ⟨inner, closed⟩ | ⟨within, cause, rfl⟩
      · rw [← List.append_nil (_ ++ _)]
        exact .nested (.node parent shown.of inner closed .nil)
      · exact @Reached.leftOpen _ _ _ [] _ _ _ .nil parent within
  | misfit parent _ shown reason => exact .member .nil parent shown.of reason

theorem RootTrace.protocol_or_leftOpen {root : Name}
    (trace : RootTrace sources refused root calls) :
    Protocol sources root calls ∨ LeftOpen refused 0 root calls := by
  cases trace with
  | vetoed shown => exact Or.inl (.vetoed shown.of)
  | bound there shown inner closing =>
      rcases inner.reached.nested_or_leftOpen shown.of closing with ⟨nested, closed⟩ | ⟨within, _⟩
      · exact Or.inl (.bound there shown.of nested closed)
      · exact Or.inr within
  | absent missing shown finishing =>
      exact Or.inl (.absent missing shown.of finishing.finished)

/-! ## What tells the two apart -/

/-- Where a node is left open, the node around it fails at once. -/
theorem LeftOpen.keyRefused (leftOpen : LeftOpen refused depth name calls) :
    KeyRefused refused calls := by
  induction leftOpen with
  | member here done parent there hereAgain cause reason =>
      refine ⟨_, _, _, _, _, [], _, rfl, ?_, cause, reason⟩
      rw [hereAgain.name, there.name]
      exact parent
  | @inner _ _ _ visit last before calls e answer _ _ _ _ _ inductionHypothesis =>
      rcases inductionHypothesis
        with ⟨first, member, owner, cause, reply, after, m, rfl, parent, mismatch, reason⟩
      refine ⟨(visit, .start true) :: before ++ first, member, owner, cause, reply,
        after ++ [(last, .failure e answer)], m, ?_, parent, mismatch, reason⟩
      simp only [List.cons_append, List.append_assoc]

/-- A node is accepted. -/
def Call.accepts : Call → Bool
  | .start proceed => proceed
  | _ => false

/-- A node fails. -/
def Call.fails : Call → Bool
  | .failure _ _ => true
  | _ => false

/-- When a node fails at once after one has been accepted, it is that node. -/
def Answered (first second : Visit × Call) : Prop :=
  first.2.accepts = true → second.2.fails = true → second.1.name = first.1.name

instance : DecidableRel Answered := fun first second =>
  inferInstanceAs (Decidable
    (first.2.accepts = true → second.2.fails = true → second.1.name = first.1.name))

theorem answered_of_ne {first second : Visit × Call} (other : first.2 ≠ .start true) :
    Answered first second := by
  rcases first with ⟨visit, call⟩
  intro accepted
  cases call with
  | start proceed =>
      have yes : proceed = true := accepted
      exact absurd (congrArg Call.start yes) other
  | success => cases accepted
  | failure error answer => cases accepted
  | finish answer => cases accepted

theorem answered_of_start {first second : Visit × Call} {proceed : Bool}
    (start : second.2 = .start proceed) : Answered first second := by
  intro _ failed
  rw [start] at failed
  cases failed

theorem answered_of_name {first second : Visit × Call} (same : second.1.name = first.1.name) :
    Answered first second :=
  fun _ _ => same

/-- Calls that fit before any other keep a chain. -/
theorem isChain_append_of_forall {R : Visit × Call → Visit × Call → Prop}
    {before after : List (Visit × Call)} (fits : ∀ c ∈ before, ∀ d, R c d)
    (chain : after.IsChain R) : (before ++ after).IsChain R := by
  induction before with
  | nil => exact chain
  | cons c rest inductionHypothesis =>
      refine List.isChain_cons.mpr ⟨fun d _ => fits c List.mem_cons_self d, ?_⟩
      exact inductionHypothesis fun c later => fits c (List.mem_cons_of_mem _ later)

/-- Calls that close a node: none offers one, and the first is about the node. -/
structure Ends (depth : Nat) (name : Name) (calls : List (Visit × Call)) : Prop where
  others : ∀ c ∈ calls, ∀ proceed, c.2 ≠ .start proceed
  about : ∃ c rest, calls = c :: rest ∧ c.1.Of depth name

theorem Finished.ends (finished : Finished depth name calls) : Ends depth name calls := by
  cases finished with
  | accepted here => exact ⟨by simp, _, _, rfl, here⟩
  | rejected here _ => exact ⟨by simp, _, _, rfl, here⟩

theorem Closed.ends (closed : Closed depth name calls) : Ends depth name calls := by
  cases closed with
  | bound here finished => exact ⟨by simpa using finished.ends.others, _, _, rfl, here⟩
  | failed here => exact ⟨by simp, _, _, rfl, here⟩

/-- The first of some nested calls asks whether to bind a node. -/
theorem Nested.start (nested : Nested depth name calls) :
    calls = [] ∨ ∃ c rest proceed, calls = c :: rest ∧ c.2 = .start proceed := by
  cases nested with
  | nil => exact Or.inl rfl
  | vetoed => exact Or.inr ⟨_, _, false, rfl, rfl⟩
  | node => exact Or.inr ⟨_, _, true, rfl, rfl⟩

/-- A node that has been accepted may stand before any calls. -/
theorem isChain_answered_node {visit : Visit} {after : List (Visit × Call)}
    (here : visit.Of depth name) (nested : Nested (depth + 1) name inside)
    (chained : ∀ after, after.IsChain Answered → (inside ++ after).IsChain Answered)
    (ends : Ends depth name close) (chain : after.IsChain Answered) :
    ((visit, .start true) :: inside ++ close ++ after).IsChain Answered := by
  have closing : (close ++ after).IsChain Answered :=
    isChain_append_of_forall (fun c member d => answered_of_ne (ends.others c member true)) chain
  rw [List.append_assoc, List.cons_append]
  refine List.isChain_cons.mpr ⟨fun c first => ?_, chained _ closing⟩
  rcases nested.start with rfl | ⟨head, rest, proceed, rfl, start⟩
  · rcases ends.about with ⟨head, rest, rfl, about⟩
    cases first
    exact answered_of_name (about.name.trans here.name.symm)
  · cases first
    exact answered_of_start start

theorem Nested.answered (nested : Nested depth name calls) :
    ∀ after, after.IsChain Answered → (calls ++ after).IsChain Answered := by
  induction nested with
  | nil => exact fun _ chain => chain
  | vetoed _ _ _ inductionHypothesis =>
      intro after chain
      exact List.isChain_cons.mpr ⟨fun _ _ => answered_of_ne nofun, inductionHypothesis after chain⟩
  | node _ here inner closed _ innerHypothesis restHypothesis =>
      intro after chain
      rw [List.append_assoc]
      exact isChain_answered_node here inner innerHypothesis closed.ends
        (restHypothesis after chain)

theorem Protocol.answered {root : Name} (protocol : Protocol sources root calls) :
    calls.IsChain Answered := by
  cases protocol with
  | vetoed here => exact List.isChain_singleton _
  | bound _ here inner closed =>
      have chain := isChain_answered_node here inner inner.answered closed.ends List.isChain_nil
      rwa [List.append_nil] at chain
  | absent _ here finished =>
      have chain := isChain_answered_node here .nil (fun _ chain => chain) finished.ends
        List.isChain_nil
      rwa [List.append_nil] at chain

/-- In nested calls no node fails at once after one of its members has been accepted. -/
theorem Protocol.not_keyRefused {root : Name} (protocol : Protocol sources root calls) :
    ¬ KeyRefused refused calls := by
  rintro ⟨before, member, owner, e, answer, after, m, rfl, parent, _, _⟩
  have same : owner.name = member.name :=
    (List.isChain_append_cons_cons.mp protocol.answered).2.1 rfl rfl
  have longer := parent.1
  rw [same] at longer
  exact absurd longer (Nat.ne_of_lt (Nat.lt_succ_self _))

/-! ## Nothing beneath a vetoed node -/

/-- After a node has been vetoed, binding goes on no deeper than there. -/
def PassesOver (first second : Visit × Call) : Prop :=
  first.2 = .start false → second.1.depth ≤ first.1.depth

theorem passesOver_of_ne {first second : Visit × Call} (other : first.2 ≠ .start false) :
    PassesOver first second :=
  fun vetoed => absurd vetoed other

theorem Trace.depth_head (trace : Trace sources refused depth names name calls ending) :
    ∀ c ∈ calls.head?, c.1.depth = depth := by
  induction trace with
  | done => exact fun c impossible => by cases impossible
  | stop cause => exact fun c impossible => by cases impossible
  | @append _ _ _ before _ _ _ _ firstDepth secondDepth =>
      cases before with
      | nil => exact secondDepth
      | cons c rest => exact firstDepth
  | vetoed _ _ shown =>
      intro c first
      cases first
      exact shown.depth
  | visit _ _ shown _ _ _ =>
      intro c first
      cases first
      exact shown.depth
  | misfit _ _ shown _ =>
      intro c first
      cases first
      exact shown.depth

/-- A node that has been accepted may stand before calls that are no deeper. -/
theorem isChain_passesOver_node {visit : Visit} {after : List (Visit × Call)}
    (chained : ∀ after : List (Visit × Call), (∀ c ∈ after.head?, c.1.depth ≤ depth + 1) →
      after.IsChain PassesOver → (inside ++ after).IsChain PassesOver)
    (ends : Ends depth name close) (chain : after.IsChain PassesOver) :
    ((visit, .start true) :: inside ++ close ++ after).IsChain PassesOver := by
  have closing : (close ++ after).IsChain PassesOver :=
    isChain_append_of_forall (fun c member d => passesOver_of_ne (ends.others c member false)) chain
  rw [List.append_assoc, List.cons_append]
  refine List.isChain_cons.mpr ⟨fun _ _ => passesOver_of_ne nofun, chained _ ?_ closing⟩
  rcases ends.about with ⟨head, rest, rfl, about⟩
  intro c first
  cases first
  rw [about.depth]
  exact Nat.le_succ depth

theorem Trace.passesOver (trace : Trace sources refused depth names name calls ending) :
    ∀ after : List (Visit × Call), (∀ c ∈ after.head?, c.1.depth ≤ depth) →
      after.IsChain PassesOver → (calls ++ after).IsChain PassesOver := by
  induction trace with
  | done => exact fun after _ chain => chain
  | stop cause => exact fun after _ chain => chain
  | @append _ _ _ _ calls _ _ second firstHypothesis secondHypothesis =>
      intro after shallow chain
      rw [List.append_assoc]
      refine firstHypothesis _ (fun c first => ?_) (secondHypothesis after shallow chain)
      cases calls with
      | nil => exact shallow c first
      | cons other rest => exact Nat.le_of_eq (second.depth_head c first)
  | vetoed _ _ shown =>
      intro after shallow chain
      refine List.isChain_cons.mpr ⟨fun c first _ => ?_, chain⟩
      rw [shown.depth]
      exact shallow c first
  | visit _ _ _ _ closing innerHypothesis =>
      intro after _ chain
      exact isChain_passesOver_node innerHypothesis closing.closed.ends chain
  | misfit _ _ _ _ =>
      intro after _ chain
      exact List.isChain_cons.mpr ⟨fun _ _ => passesOver_of_ne nofun, chain⟩

theorem RootTrace.passesOver {root : Name} (trace : RootTrace sources refused root calls) :
    calls.IsChain PassesOver := by
  cases trace with
  | vetoed _ => exact List.isChain_singleton _
  | bound _ _ inner closing =>
      rw [← List.append_nil (_ ++ _)]
      exact isChain_passesOver_node inner.passesOver closing.closed.ends List.isChain_nil
  | @absent visit close _ _ _ finishing =>
      have chain : ([(visit, Call.start true)] ++ close ++ []).IsChain PassesOver :=
        isChain_passesOver_node (fun _ _ chain => chain) finishing.finished.ends List.isChain_nil
      rwa [List.append_nil] at chain

end

/-! ## The calls of a binder -/

/-- The calls of a run keep the protocol exactly if no key is refused once its member
has been accepted.  Such a key is one that the target may refuse, given the sources,
and where one is refused a node is left open and all around it fails.  Nothing beneath
a node that has been vetoed is asked about in any run. -/
theorem Binder.calls_nested_iff {ρ : Type} (b : Binder ρ) (target : Target ρ) (root : Name)
    (existing : Bool) :
    let calls := callsOf (b.bindAt target root existing).history
    let refused := target.MayRefuse b.declarations b.sources
    (Protocol b.sources root calls ↔ ¬ KeyRefused refused calls) ∧
      (KeyRefused refused calls → LeftOpen refused 0 root calls) ∧
      ((∀ m, ¬ refused m) → Protocol b.sources root calls) ∧ calls.IsChain PassesOver := by
  intro calls refused
  have trace : RootTrace b.sources refused root calls :=
    b.bindAt_trace target root existing fun _ mayRefuse => mayRefuse
  have nested : ¬ KeyRefused refused calls → Protocol b.sources root calls := by
    intro never
    rcases trace.protocol_or_leftOpen with protocol | leftOpen
    · exact protocol
    · exact absurd leftOpen.keyRefused never
  refine ⟨⟨fun protocol => protocol.not_keyRefused, nested⟩, fun some => ?_, fun fits => ?_,
    trace.passesOver⟩
  · rcases trace.protocol_or_leftOpen with protocol | leftOpen
    · exact absurd some protocol.not_keyRefused
    · exact leftOpen
  · apply nested
    rintro ⟨_, _, _, _, _, _, m, _, _, _, reason⟩
    exact fits m reason

/-- A map with whole numbers for keys refuses the key of its only entry, after the entry
has been accepted. -/
theorem map_leaves_entry_open :
    let sources := Store.empty.push "test"
      [⟨(Name.root.child "m").child "k", "v", ⟨"test", "m.k"⟩⟩]
    let declarations : Declarations Empty := ⟨(nomatch ·), (nomatch ·)⟩
    ¬ Protocol sources (Name.root.child "m")
      (callsOf ((Binder.plain sources declarations).bindAt (.map (.whole ⟨false, 16⟩) .text)
        (Name.root.child "m") false).history) := by
  intro sources declarations protocol
  exact absurd protocol.answered (by decide +kernel)

end PropertyBinding
