import PropertyBinding.Proofs.Bind.Lists
import PropertyBinding.Proofs.Bind.Trace

/-!
# Invariants of runs

A run does three things to what it leaves behind: it logs, it uses a property, and it puts a
question to the handler.  What may be assumed at each of them is the same for every target.
A question shows what has been used so far.  It is about a member of a node that has been
accepted, or about such a node itself, and the depth counts the elements of its name below
the root.  A node is told that it has been bound right after the step that binds it.  A
property is used at a node that has been accepted, and it is the effective one: this holds
at first, when all sources are in scope, and inside a sequence the only source in scope is
the highest that has anything at the name of the sequence or below it, so what it has there
is effective as well.

So a statement about what has been used and what has happened holds of every run if it is
kept by these three.
-/

namespace PropertyBinding

/-! ## Sources in scope -/

namespace Store

variable {s scope sources source : Store} {name n : Name} {l : Layer} {p : Property}

/-- At a name and below it, the properties in scope are effective among the sources. -/
def Shows (scope sources : Store) (name : Name) : Prop :=
  ∀ n p, name.Leads n → scope.get? n = some p → sources.get? n = some p

/-- The highest source with something at a name is so for all names below it at which it
has a property. -/
theorem Highest.below (highest : s.Highest name l) (leads : name.Leads n)
    (found : l.get? n = some p) : s.Highest n l := by
  rcases highest with ⟨lower, higher, split, _, above⟩
  rcases Layer.get?_eq_some_iff.mp found with ⟨member, same⟩
  exact ⟨lower, higher, split, ⟨p, member, same.leads⟩,
    fun m listed q there below => above m listed q there (leads.trans below)⟩

namespace Shows

theorem refl (sources : Store) (name : Name) : sources.Shows sources name :=
  fun _ _ _ found => found

theorem member {child : Name} (shows : scope.Shows sources name) (parent : name.IsParentOf child) :
    scope.Shows sources child :=
  fun n p leads found => shows n p (parent.2.trans leads) found

theorem sourceOf? (shows : scope.Shows sources name)
    (found : scope.sourceOf? name = some source) : source.Shows sources name := by
  rcases Option.map_eq_some_iff.mp found with ⟨l, layer, rfl⟩
  intro n p leads there
  rw [get?_single] at there
  have highest := layerOf?_eq_some_iff.mp layer
  exact shows n p leads ((highest.below leads there).get? there)

end Shows

end Store

/-! ## What a run does -/

/-- A node at some depth below a root that the handler has let be bound. -/
structure Session.Accepted (S : Session) (root name : Name) (depth : Nat) : Prop where
  leads : root.Leads name
  size : name.size = root.size + depth
  proceed : ∃ visit : Visit, visit.name = name ∧ visit.depth = depth ∧
    (S.handler.start S.sources visit).value = true

/-- A step that may bind the node has just succeeded, with something at the node in scope. -/
def Rules.JustBound (rules : Rules) (visit : Visit) : Prop :=
  ∃ step start v, rules.binds visit.name step ∧ start.scope.contains visit.name = true ∧
    (step start).1 = .ok v ∧ visit.bound = (step start).2.bound

/-- The questions that may be put to the handler at a visit. -/
inductive Session.Due (S : Session) (rules : Rules) (root : Name) (visit : Visit) : Call → Prop
  | root (here : visit.name = root) (depth : visit.depth = 0) :
      Due S rules root visit (.start (S.handler.start S.sources visit).value)
  | member {name : Name} {depth : Nat} (around : S.Accepted root name depth)
      (parent : name.IsParentOf visit.name) (below : visit.depth = depth + 1) :
      Due S rules root visit (.start (S.handler.start S.sources visit).value)
  | success (accepted : S.Accepted root visit.name visit.depth) (bound : rules.JustBound visit) :
      Due S rules root visit .success
  | failure (accepted : S.Accepted root visit.name visit.depth) (error answer : BindError) :
      Due S rules root visit (.failure error answer)
  | finish (accepted : S.Accepted root visit.name visit.depth)
      (answer : Except BindError Unit) : Due S rules root visit (.finish answer)

/-- A statement about what has been used and what has happened that is kept by all that a run
does. -/
structure Session.Upholds (S : Session) (rules : Rules) (root : Name)
    (I : List Property → List Event → Prop) : Prop where
  logged : ∀ {bound history} entry, I bound history → I bound (history ++ [.log entry])
  asked : ∀ {history visit call} notes, S.Due rules root visit call → I visit.bound history →
    I visit.bound (history ++ [.call visit call notes])
  used : ∀ {bound history name depth p}, S.Accepted root name depth →
    S.sources.get? name = some p → (∀ q ∈ bound, ¬ q.name.Same p.name) → I bound history →
    I (bound ++ [p]) history

variable {α β : Type} {I : List Property → List Event → Prop} {scope : Store} {depth : Nat}

/-- A step that keeps a statement about what has been used and what has happened, and puts
the scope and the depth back. -/
def Binding.Keeps (I : List Property → List Event → Prop) (scope : Store) (depth : Nat)
    (step : Binding α) : Prop :=
  ∀ run, run.scope = scope → run.depth = depth → I run.bound run.history →
    (step run).2.scope = scope ∧ (step run).2.depth = depth ∧
      I (step run).2.bound (step run).2.history

namespace Binding.Keeps

variable {step : Binding α} {next : α → Binding β}

theorem pure (a : α) : Keeps I scope depth (Pure.pure a) :=
  fun _ inScope atDepth holds => ⟨inScope, atDepth, holds⟩

theorem fail (e : BindError) : Keeps I scope depth (Binding.fail (α := α) e) :=
  fun _ inScope atDepth holds => ⟨inScope, atDepth, holds⟩

theorem bind (first : Keeps I scope depth step)
    (second : ∀ a, step.Yields a → Keeps I scope depth (next a)) :
    Keeps I scope depth (step >>= next) := by
  intro run inScope atDepth holds
  have kept := first run inScope atDepth holds
  rcases ran : step run with ⟨outcome, middle⟩
  rw [ran] at kept
  cases outcome with
  | error e =>
      rw [Binding.bind_of_error ran]
      exact kept
  | ok a =>
      rw [Binding.bind_of_ok ran]
      exact second a ⟨run, middle, ran⟩ middle kept.1 kept.2.1 kept.2.2

theorem forTarget (target : String) (inner : Keeps I scope depth step) :
    Keeps I scope depth (Binding.forTarget target step) := by
  intro run inScope atDepth holds
  rw [Binding.forTarget_snd]
  exact inner run inScope atDepth holds

theorem nested (inner : Keeps I scope (depth + 1) step) :
    Keeps I scope depth (Binding.nested step) := by
  intro run inScope atDepth holds
  rcases inner { run with depth := run.depth + 1 } inScope (congrArg (· + 1) atDepth) holds
    with ⟨inScopeThen, atDepthThen, kept⟩
  exact ⟨inScopeThen, congrArg (· - 1) atDepthThen, kept⟩

theorem scopedTo {source : Store} (inner : Keeps I source depth step) :
    Keeps I scope depth (Binding.scopedTo source step) := by
  intro run inScope atDepth holds
  rcases inner { run with scope := source } rfl atDepth holds with ⟨_, atDepthThen, kept⟩
  exact ⟨inScope, atDepthThen, kept⟩

end Binding.Keeps

namespace Session

open Binding

variable {S : Session} {rules : Rules} {root name child : Name} {slot : Slot} {step : Binding α}

theorem Accepted.root_of_start (visit : Visit) (here : visit.name = root) (depth : visit.depth = 0)
    (proceed : (S.handler.start S.sources visit).value = true) : S.Accepted root root 0 :=
  ⟨(Name.same_refl root).leads, rfl, visit, here, depth, proceed⟩

/-- A member of an accepted node is accepted if the handler proceeds. -/
theorem Accepted.member (around : S.Accepted root name depth) (visit : Visit)
    (parent : name.IsParentOf child) (here : visit.name = child) (below : visit.depth = depth + 1)
    (proceed : (S.handler.start S.sources visit).value = true) :
    S.Accepted root child (depth + 1) := by
  refine ⟨around.leads.trans parent.2, ?_, visit, here, below, proceed⟩
  rw [parent.1, around.size, Nat.add_assoc]

namespace Upholds

variable (upholds : S.Upholds rules root I)

include upholds

theorem log (entry : LogEntry) : Keeps I scope depth (Binding.log entry) :=
  fun _ inScope atDepth holds => ⟨inScope, atDepth, upholds.logged entry holds⟩

theorem use {p : Property} (accepted : S.Accepted root name depth)
    (effective : S.sources.get? name = some p) {level : Nat} :
    Keeps I scope level (Binding.use p) := by
  intro run inScope atLevel holds
  by_cases before : (run.bound.any fun used => decide (used.name.Same p.name)) = true
  · rw [Binding.use, if_pos before]
    exact ⟨inScope, atLevel, holds⟩
  · have other : ∀ q ∈ run.bound, ¬ q.name.Same p.name := fun q member same =>
      before (List.any_eq_true.mpr ⟨q, member, decide_eq_true same⟩)
    rw [Binding.use, if_neg before]
    exact ⟨inScope, atLevel, upholds.used accepted effective other holds⟩

theorem noted {run : Run} {call : Call} (notes : List Note)
    (due : S.Due rules root (run.visit S.rootType name slot) call)
    (holds : I run.bound run.history) :
    let visit := run.visit S.rootType name slot
    I (run.noted visit call notes).bound (run.noted visit call notes).history :=
  upholds.asked notes due holds

/-- Asking whether to bind a node. -/
theorem offer (due : ∀ run : Run, run.depth = depth → let visit := run.visit S.rootType name slot
      S.Due rules root visit (.start (S.handler.start S.sources visit).value)) :
    Keeps I scope depth (S.offer name slot) := by
  intro run inScope atDepth holds
  have asked := upholds.noted (S.handler.start S.sources (run.visit S.rootType name slot)).notes
    (due run atDepth) holds
  unfold Session.offer
  dsimp only
  split
  · exact ⟨inScope, atDepth, asked⟩
  · exact ⟨inScope, atDepth, upholds.logged _ asked⟩

theorem finish (accepted : S.Accepted root name depth) :
    Keeps I scope depth (S.finish name slot) := by
  intro run inScope atDepth holds
  subst atDepth
  exact ⟨inScope, rfl, upholds.noted _ (.finish accepted _) holds⟩

theorem guarded (accepted : S.Accepted root name depth) (inner : Keeps I scope depth step) :
    Keeps I scope depth (S.guarded name slot step) := by
  intro run inScope atDepth holds
  have kept := inner run inScope atDepth holds
  unfold Session.guarded
  rcases ran : step run with ⟨outcome, after⟩
  rw [ran] at kept
  cases outcome with
  | ok a => exact kept
  | error e =>
      rcases kept with ⟨inScopeThen, atDepthThen, holdsThen⟩
      subst atDepthThen
      exact ⟨inScopeThen, rfl, upholds.noted _ (.failure accepted _ _) holdsThen⟩

/-- Making the step that binds a node, and telling the node that it has been bound. -/
theorem closed {body : Binding Value} (accepted : S.Accepted root name depth)
    (made : rules.binds name body) (there : scope.contains name = true)
    (inner : Keeps I scope depth body) : Keeps I scope depth (S.closed name slot body) := by
  intro run inScope atDepth holds
  have kept := inner run inScope atDepth holds
  rcases ran : body run with ⟨outcome, middle⟩
  rw [ran] at kept
  cases outcome with
  | error e =>
      have failed : S.closed name slot body run = (.error e, middle) := Binding.bind_of_error ran
      rw [failed]
      exact kept
  | ok v =>
      rcases kept with ⟨inScopeThen, atDepthThen, holdsThen⟩
      subst atDepthThen
      have bound : rules.JustBound (middle.visit S.rootType name slot) := by
        refine ⟨body, run, v, made, inScope ▸ there, ?_, ?_⟩
        · rw [ran]
        · rw [ran]
          rfl
      have told : I (S.succeed name slot middle).2.bound (S.succeed name slot middle).2.history :=
        upholds.noted _ (.success accepted bound) holdsThen
      have rest : Keeps I scope middle.depth (S.finish name slot >>= fun _ => Pure.pure v) :=
        (upholds.finish accepted).bind fun _ _ => .pure v
      have succeeded : S.closed name slot body run =
          (S.finish name slot >>= fun _ => Pure.pure v) (S.succeed name slot middle).2 :=
        Binding.bind_of_ok ran
      rw [succeeded]
      exact rest _ inScopeThen rfl told

/-- Binding a node that has been accepted, and closing it. -/
theorem descend {body : Binding Value} (accepted : S.Accepted root name depth)
    (made : rules.binds name body) (there : scope.contains name = true)
    (inner : Keeps I scope depth body) : Keeps I scope depth (S.descend name slot body) := by
  have closed : Keeps I scope depth (S.guarded name slot (S.closed name slot body)) :=
    upholds.guarded accepted (upholds.closed accepted made there inner)
  exact fun run => closed (run.enter name)

/-- Asking whether to bind a member, with one way to go on for each answer. -/
theorem offer_bind {accepted passed : Binding α} (around : S.Accepted root name depth)
    (parent : name.IsParentOf child)
    (proceeds : S.Accepted root child (depth + 1) → Keeps I scope (depth + 1) accepted)
    (passes : Keeps I scope (depth + 1) passed) :
    Keeps I scope (depth + 1) (S.offer child slot >>= fun proceed =>
      if proceed = true then accepted else passed) := by
  intro run inScope atDepth holds
  let visit := run.visit S.rootType child slot
  have offering : Keeps I scope (depth + 1) (S.offer child slot) :=
    upholds.offer fun run below => .member around parent below
  have kept := offering run inScope atDepth holds
  rcases S.offer_eq child slot run with ⟨middle, offered, _⟩
  rw [offered] at kept
  rw [Binding.bind_of_ok offered]
  cases answered : (S.handler.start S.sources visit).value with
  | true =>
      have reached : S.Accepted root child (depth + 1) :=
        around.member visit parent rfl atDepth answered
      exact proceeds reached middle kept.1 kept.2.1 kept.2.2
  | false => exact passes middle kept.1 kept.2.1 kept.2.2

end Upholds

/-- What is kept by all that a run does is kept by every orderly step at an accepted node. -/
theorem Orderly.keeps {place : Place} {level : Nat}
    (orderly : S.Orderly rules place scope name α step) (upholds : S.Upholds rules root I)
    (accepted : S.Accepted root name depth) (shows : scope.Shows S.sources name)
    (there : membersDepth place level = depth + 1) : Keeps I scope level step := by
  induction orderly generalizing depth level with
  | pure a => exact .pure a
  | chain _ _ firstKeeps secondKeeps =>
      exact (firstKeeps accepted shows there).bind fun a yields =>
        secondKeeps a yields accepted shows there
  | look _ seenKeeps =>
      intro run inScope
      rw [Binding.scope_bind, inScope]
      exact seenKeeps accepted shows there run inScope
  | use found => exact upholds.use accepted (shows _ _ (Name.same_refl _).leads found)
  | log entry => exact upholds.log entry
  | fail _ _ => exact .fail _
  | forTarget target _ innerKeeps => exact (innerKeeps accepted shows there).forTarget target
  | nested _ innerKeeps => exact (innerKeeps accepted shows there).nested
  | scopedTo found _ innerKeeps =>
      exact (innerKeeps accepted (shows.sourceOf? found) there).scopedTo
  | visit parent holds made _ _ _ innerKeeps acceptedKeeps vetoedKeeps =>
      -- Among the members the depth is theirs, one more than that of the node.
      cases there
      refine upholds.offer_bind accepted parent (fun reached => ?_) (vetoedKeeps accepted shows rfl)
      have bound := innerKeeps reached (shows.member parent) rfl
      exact (upholds.descend reached made holds bound).bind
        fun b _ => acceptedKeeps b accepted shows rfl
  | misfit parent _ _ _ vetoedKeeps =>
      cases there
      exact upholds.offer_bind accepted parent (fun _ => .fail _) (vetoedKeeps accepted shows rfl)

end Session

/-! ## Whole runs -/

namespace Binder

open Binding

variable {ρ : Type} {b : Binder ρ} {target : Target ρ} {root : Name}

/-- The steps that bind the nodes of a run, each by the target that may be bound there. -/
def rules (b : Binder ρ) (target : Target ρ) (root : Name) : Rules where
  refused _ := True
  binds name step := ∃ levels t, Target.Node b.declarations target root t name ∧
    step = (b.session target).readWithin b.declarations (levels + 1) t name

theorem bindAccepted_keeps (upholds : (b.session target).Upholds (b.rules target root) root I)
    (accepted : (b.session target).Accepted root root 0) (slot : Slot) :
    Keeps I b.sources 0 (b.bindAccepted target root slot) := by
  let S := b.session target
  unfold bindAccepted
  by_cases there : b.sources.contains root = true
  · have orderly : S.Orderly (b.rules target root) .node b.sources root Value
        (S.readWithin b.declarations (b.sources.height + 1) target root) := by
      apply S.readWithin_orderly _ target root (Store.Draws.refl b.sources)
      · exact fun _ _ => True.intro
      · intro levels t child node balanced holds
        -- The height of the store bounds the names at which there is something.
        have within := Store.size_le_height_of_contains holds
        rcases Nat.exists_eq_add_of_lt (by omega : 0 < levels) with ⟨fewer, rfl⟩
        exact ⟨fewer, t, node, by rw [Nat.zero_add]⟩
    have inner : Keeps I b.sources 0
        (S.readWithin b.declarations (b.sources.height + 1) target root) :=
      orderly.keeps upholds accepted (.refl _ root) rfl
    rw [if_pos there]
    exact (upholds.descend accepted ⟨b.sources.height, target, .root, rfl⟩ there inner).bind
      fun v _ => .pure _
  · rw [if_neg there]
    exact (upholds.guarded accepted (upholds.finish accepted)).bind fun _ _ => .pure none

/-- What holds at first and is kept by all that a run does holds of what a run has used, and
of all that has happened in it. -/
theorem bindAt_upholds (upholds : (b.session target).Upholds (b.rules target root) root I)
    (existing : Bool)
    (first : I [] []) :
    I (b.bindAt target root existing).bound (b.bindAt target root existing).history := by
  let S := b.session target
  let slot := Slot.root S.rootType existing
  let entry : LogEntry := ⟨.debug, "binding",
    [("name", .text (toString root)), ("target", .text S.rootType)]⟩
  let before : Run := { Run.initial b.sources with history := [.log entry] }
  let visit := before.visit S.rootType root slot
  have offering : Keeps I b.sources 0 (S.offer root slot) :=
    upholds.offer fun run atRoot => .root rfl atRoot
  have kept := offering before rfl rfl (upholds.logged entry first)
  rcases S.offer_eq root slot before with ⟨middle, offered, _⟩
  rw [offered] at kept
  have ran : b.bindRoot target root existing (Run.initial b.sources) =
      (if (S.handler.start S.sources visit).value = true then
        b.bindOffered target root slot else return none) middle :=
    Binding.bind_of_ok offered
  have history : (b.bindAt target root existing).history = _ :=
    congrArg (fun ran => ran.2.history) ran
  have bound : (b.bindAt target root existing).bound = _ := congrArg (fun ran => ran.2.bound) ran
  rw [history, bound]
  cases answered : (S.handler.start S.sources visit).value with
  | false => exact kept.2.2
  | true =>
      have accepted : S.Accepted root root 0 := .root_of_start visit rfl rfl answered
      have inner : Keeps I b.sources 0 (b.bindOffered target root slot) :=
        ((bindAccepted_keeps upholds accepted slot).forTarget _).bind fun value _ =>
          (upholds.log _).bind fun _ _ => .pure value
      exact (inner middle kept.1 kept.2.1 kept.2.2).2.2

end Binder

end PropertyBinding
