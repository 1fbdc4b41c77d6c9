import Mathlib.Data.List.Chain
import PropertyBinding.Proofs.Bind.Trace

/-!
# Where a run stands

A run keeps the depth, the names of the nodes being bound and the sources in scope
apart, and puts each of them back in a different function.  Among the members of a
node the three belong together: there are as many names as the depth says, each is
the parent of the next, and the node itself is the last of them.  `Standing` is this
invariant.  Entering a member keeps it, so it holds along every trace from the root.

What each call shows follows from it.  The depth of a node is the number of elements
by which its name is longer than that of the root, and as something exists at every
node below the root, it is bounded by the height of the store.
-/

namespace PropertyBinding

/-! ## Standing among the members of a node -/

/-- The depth, the names and the node, among the members of the node. -/
structure Standing (root : Name) (depth : Nat) (names : List Name) (name : Name) : Prop where
  length : names.length = depth
  chained : names.IsChain Name.IsParentOf
  last : names.getLast? = some name
  size : name.size + 1 = root.size + depth
  leads : root.Leads name
  atRoot : depth = 1 → name = root

namespace Standing

variable {root name child : Name} {depth : Nat} {names : List Name}

theorem ofRoot (root : Name) : Standing root 1 [root] root :=
  ⟨rfl, List.isChain_singleton root, rfl, rfl, (Name.same_refl root).leads, fun _ => rfl⟩

theorem depth_pos (standing : Standing root depth names name) : 0 < depth := by
  have size := standing.size
  have length := standing.leads.size_le
  omega

/-- Entering a member goes one level deeper. -/
theorem enter (standing : Standing root depth names name) (parent : name.IsParentOf child) :
    Standing root (depth + 1) (names ++ [child]) child := by
  have deep := standing.depth_pos
  constructor
  · rw [List.length_append, standing.length]
    rfl
  · apply List.IsChain.append standing.chained (List.isChain_singleton child)
    intro above last below first
    rw [standing.last] at last
    cases last
    cases first
    exact parent
  · exact List.getLast?_concat
  · have size := standing.size
    rw [parent.1]
    omega
  · exact standing.leads.trans parent.2
  · intro shallow
    omega

end Standing

/-! ## Placed calls -/

/-- What a call shows of the place where it is made.  The root itself is the only node
that may be finished although nothing is there, and it has not been entered then. -/
structure Placed (sources : Store) (root : Name) (visit : Visit) (call : Call) : Prop where
  atRoot : visit.depth = 0 → visit.name = root
  below : visit.depth ≠ 0 → root.IsAncestorOf visit.name ∧ sources.contains visit.name = true
  size : visit.name.size = root.size + visit.depth
  bounded : visit.depth ≤ sources.height - root.size
  chained : visit.names.IsChain Name.IsParentOf
  opening : ∀ proceed, call = .start proceed → visit.names.length = visit.depth
  closing : (∀ proceed, call ≠ .start proceed) →
    if sources.contains root = true then
      visit.names.length = visit.depth + 1 ∧ visit.names.getLast? = some visit.name
    else visit.names = []

section

variable {sources : Store} {root name child : Name} {depth : Nat} {names : List Name}
  {visit : Visit} {call : Call} {calls : List (Visit × Call)}

theorem Finishing.shown {ending : Option BindFailure}
    (finishing : Finishing depth names name calls ending) (member : (visit, call) ∈ calls) :
    visit.At depth names name ∧ ∀ proceed, call ≠ .start proceed := by
  cases finishing with
  | accepted shown =>
      cases List.mem_singleton.mp member
      exact ⟨shown, fun _ impossible => by cases impossible⟩
  | rejected shown shownAgain =>
      rcases List.mem_cons.mp member with first | second
      · cases first
        exact ⟨shown, fun _ impossible => by cases impossible⟩
      · cases List.mem_singleton.mp second
        exact ⟨shownAgain, fun _ impossible => by cases impossible⟩

theorem Closing.shown {bound ending : Option BindFailure}
    (closing : Closing depth names name bound calls ending) (member : (visit, call) ∈ calls) :
    visit.At depth names name ∧ ∀ proceed, call ≠ .start proceed := by
  cases closing with
  | bound shown finishing =>
      rcases List.mem_cons.mp member with first | later
      · cases first
        exact ⟨shown, fun _ impossible => by cases impossible⟩
      · exact finishing.shown later
  | failed shown =>
      cases List.mem_singleton.mp member
      exact ⟨shown, fun _ impossible => by cases impossible⟩

/-- The question whether to bind a member. -/
theorem Standing.placed_start (standing : Standing root depth names name)
    (parent : name.IsParentOf child) (there : sources.contains child = true)
    (shown : visit.At depth names child) (proceed : Bool) :
    Placed sources root visit (.start proceed) := by
  rcases shown with ⟨rfl, rfl, rfl⟩
  have deep := standing.depth_pos
  have size : visit.name.size = root.size + visit.depth := by
    rw [parent.1, standing.size]
  have leads : root.Leads visit.name := standing.leads.trans parent.2
  have high := Store.size_le_height_of_contains there
  constructor
  · intro shallow
    exact absurd shallow (Nat.ne_of_gt deep)
  · exact fun _ => ⟨⟨by omega, leads⟩, there⟩
  · exact size
  · omega
  · exact standing.chained
  · exact fun _ _ => standing.length
  · intro other
    exact absurd rfl (other proceed)

/-- The calls that close a node which has been entered. -/
theorem Standing.placed_close (standing : Standing root (depth + 1) names name)
    (rooted : sources.contains root = true) (there : sources.contains name = true)
    (shown : visit.At depth names name) (other : ∀ proceed, call ≠ .start proceed) :
    Placed sources root visit call := by
  rcases shown with ⟨rfl, rfl, rfl⟩
  have size : visit.name.size = root.size + visit.depth := Nat.succ.inj standing.size
  have high := Store.size_le_height_of_contains there
  constructor
  · intro shallow
    exact standing.atRoot (by rw [shallow])
  · exact fun deep => ⟨⟨by omega, standing.leads⟩, there⟩
  · exact size
  · omega
  · exact standing.chained
  · intro proceed start
    exact absurd start (other proceed)
  · intro _
    rw [if_pos rooted]
    exact ⟨standing.length, standing.last⟩

/-- All calls among the members of a node are placed. -/
theorem Trace.placed {refused : Mismatch → Prop} {ending : Option BindFailure}
    (trace : Trace sources refused depth names name calls ending)
    (rooted : sources.contains root = true) (standing : Standing root depth names name)
    (member : (visit, call) ∈ calls) : Placed sources root visit call := by
  induction trace with
  | done => cases member
  | stop cause => cases member
  | append _ _ firstPlaced secondPlaced =>
      rcases List.mem_append.mp member with before | after
      · exact firstPlaced standing before
      · exact secondPlaced standing after
  | vetoed parent there shown =>
      cases List.mem_singleton.mp member
      exact standing.placed_start parent there shown false
  | visit parent there shown _ closing innerPlaced =>
      have inside := standing.enter parent
      rcases List.mem_cons.mp member with first | later
      · cases first
        exact standing.placed_start parent there shown true
      · rcases List.mem_append.mp later with inner | close
        · exact innerPlaced inside inner
        · rcases closing.shown close with ⟨shownThen, other⟩
          exact inside.placed_close rooted there shownThen other
  | misfit parent there shown _ =>
      cases List.mem_singleton.mp member
      exact standing.placed_start parent there shown true

/-- The question whether to bind the root. -/
theorem placed_root_start (shown : visit.At 0 [] root) (proceed : Bool) :
    Placed sources root visit (.start proceed) := by
  rcases shown with ⟨depth, names, name⟩
  constructor
  · exact fun _ => name
  · exact fun deep => absurd depth deep
  · rw [name, depth]
    rfl
  · rw [depth]
    exact Nat.zero_le _
  · rw [names]
    exact List.isChain_nil
  · intro _ _
    rw [names, depth]
    rfl
  · intro other
    exact absurd rfl (other proceed)

/-- The calls that finish a root under which nothing exists. -/
theorem placed_root_finish (missing : sources.contains root = false) (shown : visit.At 0 [] root)
    (other : ∀ proceed, call ≠ .start proceed) : Placed sources root visit call := by
  have start : Placed sources root visit (.start true) := placed_root_start shown true
  refine ⟨start.atRoot, start.below, start.size, start.bounded, start.chained, ?_, ?_⟩
  · intro proceed impossible
    exact absurd impossible (other proceed)
  · intro _
    rw [missing]
    exact shown.names

theorem RootTrace.placed {refused : Mismatch → Prop}
    (trace : RootTrace sources refused root calls) (member : (visit, call) ∈ calls) :
    Placed sources root visit call := by
  cases trace with
  | vetoed shown =>
      cases List.mem_singleton.mp member
      exact placed_root_start shown false
  | bound there shown inner closing =>
      have standing := Standing.ofRoot root
      rcases List.mem_cons.mp member with first | later
      · cases first
        exact placed_root_start shown true
      · rcases List.mem_append.mp later with inside | close
        · exact inner.placed there standing inside
        · rcases closing.shown close with ⟨shownThen, other⟩
          exact standing.placed_close there there shownThen other
  | absent missing shown finishing =>
      rcases List.mem_cons.mp member with first | later
      · cases first
        exact placed_root_start shown true
      · rcases finishing.shown later with ⟨shownThen, other⟩
        exact placed_root_finish missing shownThen other

end

/-! ## Putting the state back -/

/-- Whatever comes of a step, the depth, the names and the sources in scope are the
same after it as before. -/
def Binding.Restores {α : Type} (step : Binding α) : Prop :=
  ∀ run, (step run).2.depth = run.depth ∧ (step run).2.names = run.names ∧
    (step run).2.scope = run.scope

namespace Session

variable {ρ : Type} (S : Session) (declarations : Declarations ρ)

theorem readWithin_continues (levels : Nat) (target : Target ρ) (name : Name) (run : Run) :
    ∃ calls, Trace run.scope (fun _ => True) (run.depth + 1) run.names name calls
        (ending (S.readWithin declarations levels target name run).1) ∧
      (S.readWithin declarations levels target name run).2.Continues run calls :=
  (S.readWithin_bindsMember levels target name (Store.Draws.refl run.scope)).orderly.trace
    (Store.Draws.refl run.scope) run rfl

theorem readWithin_restores (levels : Nat) (target : Target ρ) (name : Name) :
    (S.readWithin declarations levels target name).Restores := by
  intro run
  rcases S.readWithin_continues declarations levels target name run with ⟨calls, _, continued⟩
  exact ⟨continued.depth, continued.names, continued.scope⟩

theorem offer_restores (name : Name) (slot : Slot) : (S.offer name slot).Restores := by
  intro run
  rcases S.offer_continues name slot run with ⟨visit, proceed, _, _, asked⟩
  exact ⟨asked.depth, asked.names, asked.scope⟩

theorem descend_restores (levels : Nat) (target : Target ρ) (name : Name) (slot : Slot) :
    (S.descend name slot (S.readWithin declarations levels target name)).Restores := by
  intro run
  rcases S.descend_continues name slot (S.readWithin declarations levels target name) run
    (S.readWithin_continues declarations levels target name (run.enter name))
    with ⟨inside, bound, close, _, _, continued⟩
  exact ⟨continued.depth, continued.names, continued.scope⟩

end Session

/-- Every call of a run shows the depth and the names that belong to its node: they say
where the node lies below the root.  Offering a node, binding it once it has been
accepted, and all that is done inside it put the depth, the names and the sources in
scope back to what they were before, however each of them ends. -/
theorem Binder.calls_are_placed {ρ : Type} (b : Binder ρ) (target : Target ρ) (root : Name)
    (existing : Bool) :
    (∀ visit call, (visit, call) ∈ callsOf (b.bindAt target root existing).history →
      Placed b.sources root visit call) ∧
    ∀ (S : Session) (declarations : Declarations ρ) (levels : Nat) (t : Target ρ) (name : Name)
      (slot : Slot), (S.offer name slot).Restores ∧
        (S.descend name slot (S.readWithin declarations levels t name)).Restores ∧
        (S.readWithin declarations levels t name).Restores := by
  constructor
  · intro visit call member
    have trace : RootTrace b.sources (fun _ => True) root _ :=
      b.bindAt_trace target root existing fun _ _ => True.intro
    exact trace.placed member
  · intro S declarations levels t name slot
    exact ⟨S.offer_restores name slot, S.descend_restores declarations levels t name slot,
      S.readWithin_restores declarations levels t name⟩

end PropertyBinding
