import PropertyBinding.Proofs.Bind.Used

/-!
# The ledger of used properties

What a run has used so far is shown to the handler with every question.  It only grows, and
it holds one property for each name at most: a property is put in when it is looked up as a
scalar, unless one of its name is there already.  The property is the effective one even when
a list is read from a single source, for this source is the highest that has anything there.

So a scalar that has been bound from a value of its own can be found in the ledger when its
node is told so, and at every question after that.  A scalar that is a part of a value with
commas is not a node, and the value has been put in for the list.
-/

namespace PropertyBinding

/-! ## What has been used only grows -/

/-- All questions show a part of what has been used, later ones no less than earlier ones, and
no two of the used properties have the same name. -/
structure Ledger (bound : List Property) (history : List Event) : Prop where
  distinct : bound.Pairwise fun p q => ¬ p.name.Same q.name
  shown : ∀ asked ∈ callsOf history, asked.1.bound <+: bound
  growing : (callsOf history).Pairwise fun earlier later => earlier.1.bound <+: later.1.bound

theorem Ledger.first : Ledger [] [] where
  distinct := .nil
  shown := fun _ impossible => by cases impossible
  growing := List.Pairwise.nil

theorem Session.upholds_ledger (S : Session) (rules : Rules) (root : Name) :
    S.Upholds rules root Ledger where
  logged := by
    intro bound history entry ledger
    have same : callsOf (history ++ [.log entry]) = callsOf history := by simp
    exact ⟨ledger.distinct, same ▸ ledger.shown, same ▸ ledger.growing⟩
  asked := by
    intro history visit call notes _ ledger
    have calls : callsOf (history ++ [.call visit call notes]) =
        callsOf history ++ [(visit, call)] := by
      simp
    refine ⟨ledger.distinct, ?_, ?_⟩
    · intro asked member
      rw [calls, List.mem_append, List.mem_singleton] at member
      rcases member with before | rfl
      · exact ledger.shown asked before
      · exact List.prefix_rfl
    · rw [calls, List.pairwise_append]
      refine ⟨ledger.growing, List.pairwise_singleton _ _, fun earlier before later last => ?_⟩
      rw [List.mem_singleton.mp last]
      exact ledger.shown earlier before
  used := by
    intro bound history name depth p _ _ other ledger
    refine ⟨?_, fun asked member => (ledger.shown asked member).trans (List.prefix_append _ _),
      ledger.growing⟩
    rw [List.pairwise_append]
    refine ⟨ledger.distinct, List.pairwise_singleton _ _, fun q before p' last => ?_⟩
    rw [List.mem_singleton.mp last]
    exact other q before

/-! ## Scalars are put in -/

namespace Binding

variable {α β : Type} {scope : Store} {name : Name} {step : Binding α} {next : α → Binding β}

/-- With some sources in scope, a step that asks nothing, and that succeeds at a name under
which something exists only if afterwards a property of this name has been used.  If none had
been before, it is the one in scope. -/
def Fetches (scope : Store) (name : Name) (step : Binding α) : Prop :=
  ∀ run, run.scope = scope → (step run).2.history = run.history ∧
    (scope.contains name = true → ∀ a, (step run).1 = .ok a →
      ∃ p ∈ (step run).2.bound, name.Same p.name ∧ (p ∈ run.bound ∨ scope.get? name = some p))

/-- A step that leaves the run as it is. -/
def Still (step : Binding α) : Prop :=
  ∀ run, (step run).2 = run

theorem Still.pure (a : α) : (Pure.pure a : Binding α).Still :=
  fun _ => rfl

theorem Still.fail (e : BindError) : (Binding.fail e : Binding α).Still :=
  fun _ => rfl

namespace Fetches

theorem bind (fetches : step.Fetches scope name) (still : ∀ a, (next a).Still) :
    (step >>= next).Fetches scope name := by
  intro run inScope
  have fetched := fetches run inScope
  rcases ran : step run with ⟨outcome, middle⟩
  rw [ran] at fetched
  cases outcome with
  | error e =>
      rw [bind_of_error ran]
      exact ⟨fetched.1, fun _ b impossible => by cases impossible⟩
  | ok a =>
      rw [bind_of_ok ran, still a middle]
      exact ⟨fetched.1, fun there _ _ => fetched.2 there a rfl⟩

theorem map (fetches : step.Fetches scope name) (f : α → β) : (f <$> step).Fetches scope name :=
  fetches.bind fun a => .pure (f a)

theorem fail (e : BindError) : (Binding.fail e : Binding α).Fetches scope name :=
  fun _ _ => ⟨rfl, fun _ _ impossible => by cases impossible⟩

theorem look {next : Store → Binding α} (seen : (next scope).Fetches scope name) :
    (Binding.scope >>= next).Fetches scope name := by
  intro run inScope
  rw [scope_bind, inScope]
  exact seen run inScope

/-- The property of a name is used, or one of the same name has been. -/
theorem use {p : Property} (found : scope.get? name = some p) :
    (Binding.use p).Fetches scope name := by
  intro run _
  have same : name.Same p.name := (Store.get?_eq_some_iff.mp found).2
  by_cases before : (run.bound.any fun used => decide (used.name.Same p.name)) = true
  · rcases List.any_eq_true.mp before with ⟨q, member, sameName⟩
    rw [Binding.use, if_pos before]
    exact ⟨rfl, fun _ _ _ =>
      ⟨q, member, same.trans (of_decide_eq_true sameName).symm, Or.inl member⟩⟩
  · rw [Binding.use, if_neg before]
    exact ⟨rfl, fun _ _ _ =>
      ⟨p, List.mem_append_right _ (List.mem_singleton_self p), same, Or.inr found⟩⟩

end Fetches

end Binding

/-- A node that is finished is not told once more that it has been bound. -/
theorem Finishing.success_not_mem {depth : Nat} {names : List Name} {name : Name}
    {calls : List (Visit × Call)} {ending : Option BindFailure}
    (finishing : Finishing depth names name calls ending) (visit : Visit) :
    (visit, .success) ∉ calls := by
  intro told
  cases finishing with
  | accepted shown => simp at told
  | rejected shown shownAgain => simp at told

namespace Session

open Binding

variable {ρ : Type} {S : Session} {scope : Store} {name : Name} {declarations : Declarations ρ}
  {enter : Enter ρ}

theorem scalar_fetches (label : String) : (S.scalar name none label).Fetches scope name := by
  apply Fetches.look
  cases found : scope.get? name with
  | none => exact .fail _
  | some property =>
      refine (Fetches.use found).bind fun _ => ?_
      cases S.sources.resolve property.value with
      | ok text => exact .pure _
      | error e => exact .fail _

theorem convert_fetches {α : Type} (label : String)
    (conversion : String → Except ConversionReason α) :
    (S.convert name none label conversion).Fetches scope name := by
  refine (scalar_fetches label).bind fun part => ?_
  unfold converted
  cases conversion part.text with
  | ok a => exact .pure a
  | error reason => exact .fail _

theorem text_fetches (label : String) : (S.text name none label).Fetches scope name :=
  (scalar_fetches label).map _

/-- A scalar is bound by using the property at its name. -/
theorem read_fetches {target : Target ρ} (scalar : target.Scalar) :
    (S.read declarations enter target name none).Fetches scope name := by
  induction target, scalar using Target.Scalar.induction with
  | truth => exact (convert_fetches _ _).map _
  | whole type => exact (convert_fetches _ _).map _
  | float format => exact (convert_fetches _ _).map _
  | char => exact (convert_fetches _ _).map _
  | text => exact (text_fetches _).map _
  | bytes => exact (text_fetches _).bind fun text => .pure _
  | variant enumeration =>
      refine (convert_fetches _ _).bind fun v => ?_
      by_cases bare : v.content = .none
      · rw [if_pos bare]
        exact .pure _
      · rw [if_neg bare]
        exact .fail _
  | option target scalar inner =>
      -- Of an option nothing is used only if nothing is there.
      apply Fetches.look
      cases there : scope.contains name with
      | true => exact inner.map _
      | false =>
          exact fun _ _ => ⟨rfl, fun holds => absurd (there.symm.trans holds) Bool.false_ne_true⟩
  | wrapper label target scalar inner => exact inner
  | boxed target scalar inner => exact inner

/-- A node is told that it has been bound only if it has, and then in the state in which
binding it has ended. -/
theorem descend_tells {α : Type} (S : Session) (name : Name) (slot : Slot) (body : Binding α)
    (run : Run) :
    let ended := body (run.enter name)
    ∃ calls, callsOf (S.descend name slot body run).2.history = callsOf ended.2.history ++ calls ∧
      ∀ visit, (visit, .success) ∈ calls →
        (∃ a, ended.1 = .ok a) ∧ visit = ended.2.visit S.rootType name slot := by
  intro ended
  have closed : (S.descend name slot body run).2.history =
      (S.guarded name slot (S.closed name slot body) (run.enter name)).2.history := rfl
  rw [closed]
  rcases ran : body (run.enter name) with ⟨outcome, middle⟩
  have same : ended = (outcome, middle) := ran
  rw [same]
  cases outcome with
  | error e =>
      rcases S.refuse_continues (α := α) name slot e middle
        with ⟨visit, located, answer, _, _, _, continued⟩
      rw [S.guarded_of_failed name slot ran]
      exact ⟨_, continued.calls, fun visit told => by simp at told⟩
  | ok a =>
      let told := (S.succeed name slot middle).2
      have telling : told.Continues middle [(middle.visit S.rootType name slot, .success)] :=
        Run.Continues.noted _ _ _ _
      rcases S.guarded_finish_continues name slot told with ⟨calls, finishing, continued⟩
      rw [S.guarded_of_bound name slot ran]
      refine ⟨_, (continued.trans telling).calls, fun visit asked => ⟨⟨a, rfl⟩, ?_⟩⟩
      rcases List.mem_cons.mp asked with first | later
      · exact congrArg Prod.fst first
      · exact absurd later (finishing.success_not_mem visit)

/-- A scalar that has been bound is told so with its property in the ledger. -/
theorem descend_scalar {target : Target ρ} (scalar : target.Scalar) (levels : Nat) (slot : Slot)
    (run : Run) (there : run.scope.contains name = true) :
    ∃ calls,
      callsOf (S.descend name slot (S.readWithin declarations (levels + 1) target name)
        run).2.history = callsOf run.history ++ calls ∧
      ∀ visit, (visit, .success) ∈ calls → visit.name = name ∧
        ∃ p ∈ visit.bound, name.Same p.name ∧
          (p ∈ run.bound ∨ run.scope.get? name = some p) := by
  have fetches : (S.readWithin declarations (levels + 1) target name).Fetches run.scope name :=
    read_fetches scalar
  rcases fetches (run.enter name) rfl with ⟨silent, fetched⟩
  rcases S.descend_tells name slot (S.readWithin declarations (levels + 1) target name) run
    with ⟨calls, added, told⟩
  rw [silent] at added
  refine ⟨calls, added, fun visit asked => ?_⟩
  rcases told visit asked with ⟨⟨v, bound⟩, rfl⟩
  exact ⟨rfl, fetched there v bound⟩

end Session

namespace Target

variable {ρ : Type} {declarations : Declarations ρ} {target t : Target ρ} {root name child : Name}

/-- Nothing is bound below a scalar. -/
theorem Member.not_scalar (member : Member declarations target name t child) :
    ¬ target.Scalar := by
  intro scalar
  induction member with
  | option _ none | wrapper _ none | boxed _ none => exact none scalar
  | element | setElement | item | entry | field | free | counted => exact scalar
  | listPart | setPart | fixedPart | countedPart => exact scalar

/-- In a list of scalars only scalars are bound below the list itself. -/
theorem Node.scalar_of_list (scalar : target.Scalar)
    (node : Node declarations (.list target) root t name) :
    (t = .list target ∧ name = root) ∨ t.Scalar := by
  induction node with
  | root => exact .inl ⟨rfl, rfl⟩
  | member _ member inside =>
      rcases inside with ⟨rfl, rfl⟩ | inner
      · cases member with
        | element => exact .inr scalar
        | listPart inner => exact absurd scalar inner.not_scalar
      · exact absurd inner member.not_scalar

end Target

namespace Binder

variable {ρ : Type}

theorem bindAt_ledger (b : Binder ρ) (target : Target ρ) (root : Name) (existing : Bool) :
    let outcome := b.bindAt target root existing
    Ledger outcome.bound outcome.history :=
  bindAt_upholds ((b.session target).upholds_ledger _ root) existing .first

/-- Where only scalars may be bound, nodes have been told that they have been bound with a
property of their name in the ledger. -/
def ScalarsShown (b : Binder ρ) (target : Target ρ) (root : Name) (history : List Event) : Prop :=
  ∀ visit, (visit, .success) ∈ callsOf history →
    (∀ t, Target.Node b.declarations target root t visit.name → t.Scalar) →
    ∃ p ∈ visit.bound, visit.name.Same p.name

theorem upholds_scalarsShown (b : Binder ρ) (target : Target ρ) (root : Name) :
    (b.session target).Upholds (b.rules target root) root
      fun _ history => b.ScalarsShown target root history where
  logged := by
    intro _ history entry holds visit told
    apply holds visit
    simpa using told
  asked := by
    intro history visit call notes due holds visit' told scalars
    rw [callsOf_append, callsOf_call, List.mem_append, List.mem_singleton] at told
    rcases told with before | same
    · exact holds visit' before scalars
    · cases same
      cases due with
      | success accepted bound =>
          rcases bound with ⟨_, start, v, ⟨levels, t, node, rfl⟩, there, ran, shown⟩
          have fetches : ((b.session target).readWithin b.declarations (levels + 1) t
              visit.name).Fetches start.scope visit.name := Session.read_fetches (scalars t node)
          rcases (fetches start rfl).2 there v ran with ⟨p, used, same, _⟩
          exact ⟨p, shown ▸ used, same⟩
  used := fun _ _ _ holds => holds

/-- What has been used is shown with every question, and at the end of the run: properties of
different names at the root or below it, each as some source has it and as the look-up in all
of them gives it.  What is shown at one question is an initial part of what is shown at every
later one.  When a node at which only scalars may be bound is told that it has been bound, its
property is among those that are shown, and so it is at every later question.  And when a
scalar is bound at a name under which something exists, in whatever state of a run this is
done, then its node is told so with a property of its name among those that are shown: the one
in scope, unless one was among them before. -/
theorem bindAt_shows_used (b : Binder ρ) (target : Target ρ) (root : Name) (existing : Bool) :
    let outcome := b.bindAt target root existing
    let shown := (callsOf outcome.history).map fun asked => asked.1.bound
    (∀ bound ∈ shown ++ [outcome.bound],
      (bound.Pairwise fun p q => ¬ p.name.Same q.name) ∧
        ∀ p ∈ bound, root.Leads p.name ∧ p ∈ b.sources.properties ∧
          b.sources.get? p.name = some p) ∧
    (shown ++ [outcome.bound]).Pairwise (· <+: ·) ∧
    (∀ visit, (visit, .success) ∈ callsOf outcome.history →
      (∀ t, Target.Node b.declarations target root t visit.name → t.Scalar) →
      ∃ p ∈ visit.bound, b.sources.get? visit.name = some p) ∧
    ∀ (S : Session) (declarations : Declarations ρ) (levels : Nat) (t : Target ρ) (name : Name)
      (slot : Slot) (run : Run), t.Scalar → run.scope.contains name = true →
      ∃ calls,
        callsOf (S.descend name slot (S.readWithin declarations (levels + 1) t name)
          run).2.history = callsOf run.history ++ calls ∧
        ∀ visit, (visit, .success) ∈ calls → visit.name = name ∧
          ∃ p ∈ visit.bound, name.Same p.name ∧
            (p ∈ run.bound ∨ run.scope.get? name = some p) := by
  intro outcome shown
  have ledger : Ledger outcome.bound outcome.history := b.bindAt_ledger target root existing
  have initial : ∀ bound ∈ shown, bound <+: outcome.bound := by
    intro bound member
    rcases List.mem_map.mp member with ⟨asked, call, rfl⟩
    exact ledger.shown asked call
  have told : b.ScalarsShown target root outcome.history :=
    bindAt_upholds (b.upholds_scalarsShown target root) existing
      fun _ impossible => by cases impossible
  refine ⟨fun bound member => ?_, ?_, fun visit asked scalars => ?_, ?_⟩
  · have part : bound <+: outcome.bound := by
      rcases List.mem_append.mp member with early | last
      · exact initial bound early
      · exact List.mem_singleton.mp last ▸ List.prefix_rfl
    refine ⟨ledger.distinct.sublist part.sublist, fun p used => ?_⟩
    rcases effective_of_mem_bound (part.subset used) with ⟨effective, leads⟩
    have there := Store.get?_eq_some_iff.mp effective
    exact ⟨leads, Store.mem_of_mem_effective there.1, effective⟩
  · rw [List.pairwise_append]
    refine ⟨List.pairwise_map.mpr ledger.growing, List.pairwise_singleton _ _, ?_⟩
    intro bound member last ended
    rw [List.mem_singleton.mp ended]
    exact initial bound member
  · rcases told visit asked scalars with ⟨p, used, same⟩
    rcases effective_of_mem_bound ((ledger.shown _ asked).subset used) with ⟨effective, _⟩
    exact ⟨p, used, (Store.get?_congr b.sources same).trans effective⟩
  · intro S declarations levels t name slot run scalar there
    exact Session.descend_scalar scalar levels slot run there

/-- An element of a list is a scalar, and at the list itself nothing is used. -/
theorem bindAt_shows_used_ports :
    let ports := Name.root.child "ports"
    let port := Property.mk (ports.childAt 0) "80" ⟨"file", "ports[0]"⟩
    let s := Store.empty.push "file" [port]
    let target : Target Unit := .list (.whole ⟨false, 16⟩)
    let declarations : Declarations Unit := ⟨fun _ => ⟨"app::Server", "Server", []⟩, fun _ => .unit⟩
    let outcome := (Binder.mk s .accepting declarations).bindAt target ports false
    s.get? ports = none ∧
      ∃ visit, (visit, .success) ∈ callsOf outcome.history ∧ visit.name = port.name ∧
        port ∈ visit.bound := by
  intro ports port s target declarations outcome
  have used := bindAt_shows_used (Binder.mk s .accepting declarations) target ports false
  let bound (asked : Visit × Call) : Bool :=
    match asked.2 with
    | .success => decide (asked.1.name = port.name)
    | _ => false
  have told : (callsOf outcome.history).any bound = true := by decide +kernel
  rcases List.any_eq_true.mp told with ⟨⟨visit, call⟩, asked, decided⟩
  cases call with
  | start | failure | finish => cases decided
  | success =>
      have named : visit.name = port.name := of_decide_eq_true decided
      have scalar : (Target.whole ⟨false, 16⟩ : Target Unit).Scalar := trivial
      have scalars : ∀ t, Target.Node declarations target ports t visit.name → t.Scalar := by
        intro t node
        rcases node.scalar_of_list scalar with ⟨_, same⟩ | element
        · exact absurd (same.symm.trans named) (by decide)
        · exact element
      rcases used.2.2.1 visit asked scalars with ⟨p, shown, effective⟩
      have found : s.get? visit.name = some port := named ▸ (by decide +kernel)
      cases effective.symm.trans found
      exact ⟨by decide +kernel, visit, asked, named, shown⟩

end Binder

end PropertyBinding
