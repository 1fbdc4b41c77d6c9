import Mathlib.Data.List.Basic
import Mathlib.Tactic.Choose

/-!
# Depth-first traversals

Documents and validations are trees whose branches have an order.  What is found in such a tree
has an address, the positions of the branches that lead to it from the root.  In a depth-first
traversal everything in one branch comes before anything in a later one, so the addresses come in
lexicographic order.

That a list traverses a tree is said by addresses alone, and not by the recursion that makes the
list: there is one entry for each address at which something is found, and the entries stand in
the order of their addresses.  So nothing is lost, doubled or moved.
-/

namespace PropertyBinding

variable {α β : Type}

/-- The list holds what is found at the addresses of a tree, once each, in their order. -/
def Traverses (found : List Nat → α → Prop) (list : List α) : Prop :=
  ∃ rows : List (List Nat × α), rows.map Prod.snd = list ∧
    rows.Pairwise (fun row later => row.1 < later.1) ∧
    ∀ address a, (address, a) ∈ rows ↔ found address a

namespace Traverses

variable {found other : List Nat → α → Prop} {list : List α}

theorem congr (traverses : Traverses found list)
    (same : ∀ address a, found address a ↔ other address a) : Traverses other list := by
  rcases traverses with ⟨rows, entries, ascending, members⟩
  exact ⟨rows, entries, ascending, fun address a => (members address a).trans (same address a)⟩

theorem mem_iff (traverses : Traverses found list) {a : α} :
    a ∈ list ↔ ∃ address, found address a := by
  rcases traverses with ⟨rows, rfl, _, members⟩
  simp only [List.mem_map, Prod.exists, exists_eq_right, members]

/-- What holds of two entries if one address comes before the other holds of any two in order. -/
theorem pairwise (traverses : Traverses found list) {R : α → α → Prop}
    (ordered : ∀ address a later b, found address a → found later b → address < later → R a b) :
    list.Pairwise R := by
  rcases traverses with ⟨rows, rfl, ascending, members⟩
  rw [List.pairwise_map]
  exact ascending.imp_of_mem fun {row later} listed listedToo before =>
    ordered _ _ _ _ ((members _ _).mp listed) ((members _ _).mp listedToo) before

/-- A tree that is found as a whole. -/
theorem leaf (a : α) : Traverses (fun address b => address = [] ∧ b = a) [a] := by
  refine ⟨[([], a)], rfl, List.pairwise_singleton _ _, fun address b => ?_⟩
  rw [List.mem_singleton, Prod.mk.injEq]

theorem map (traverses : Traverses found list) (f : α → β) :
    Traverses (fun address b => ∃ a, found address a ∧ b = f a) (list.map f) := by
  rcases traverses with ⟨rows, rfl, ascending, members⟩
  refine ⟨rows.map fun row => (row.1, f row.2), ?_, ?_, fun address b => ?_⟩
  · rw [List.map_map, List.map_map]
    rfl
  · rw [List.pairwise_map]
    exact ascending
  · rw [List.mem_map]
    constructor
    · rintro ⟨⟨_, a⟩, member, same⟩
      cases same
      exact ⟨a, (members _ _).mp member, rfl⟩
    · rintro ⟨a, there, rfl⟩
      exact ⟨(address, a), (members _ _).mpr there, rfl⟩

theorem pairwise_zipIdx (branches : List β) (start : Nat) :
    (branches.zipIdx start).Pairwise fun branch later => branch.2 < later.2 := by
  induction branches generalizing start with
  | nil => exact .nil
  | cons b branches inductionHypothesis =>
      rw [List.zipIdx_cons, List.pairwise_cons]
      exact ⟨fun later listed => List.le_snd_of_mem_zipIdx listed, inductionHypothesis (start + 1)⟩

/-- The branches of a tree are traversed one after the other. -/
theorem branches (branches : List β) (found : Nat → β → List Nat → α → Prop)
    (collect : Nat → β → List α)
    (each : ∀ i b, branches[i]? = some b → Traverses (found i b) (collect i b)) :
    Traverses
      (fun address a => ∃ i b rest, branches[i]? = some b ∧ address = i :: rest ∧ found i b rest a)
      (branches.zipIdx.flatMap fun branch => collect branch.2 branch.1) := by
  choose! rows entries ascending members using each
  refine ⟨branches.zipIdx.flatMap fun branch =>
    (rows branch.2 branch.1).map fun row => (branch.2 :: row.1, row.2), ?_, ?_, fun address a => ?_⟩
  · rw [List.map_flatMap]
    refine List.flatMap_congr fun branch listed => ?_
    rw [List.map_map, ← entries _ _ (List.mem_zipIdx_iff_getElem?.mp listed)]
    rfl
  · rw [List.pairwise_flatMap]
    constructor
    · intro branch listed
      rw [List.pairwise_map]
      exact (ascending _ _ (List.mem_zipIdx_iff_getElem?.mp listed)).imp fun before =>
        List.cons_lt_cons_self.mpr before
    · refine (pairwise_zipIdx branches 0).imp fun {branch later} before => ?_
      intro x inFirst y inLater
      rcases List.mem_map.mp inFirst with ⟨row, _, rfl⟩
      rcases List.mem_map.mp inLater with ⟨rowToo, _, rfl⟩
      exact List.cons_lt_cons_iff.mpr (.inl before)
  · rw [List.mem_flatMap]
    constructor
    · rintro ⟨⟨b, i⟩, listed, member⟩
      rcases List.mem_map.mp member with ⟨⟨rest, entry⟩, inside, same⟩
      cases same
      have there := List.mem_zipIdx_iff_getElem?.mp listed
      exact ⟨i, b, rest, there, rfl, (members i b there rest entry).mp inside⟩
    · rintro ⟨i, b, rest, there, rfl, inside⟩
      refine ⟨(b, i), List.mem_zipIdx_iff_getElem?.mpr there, List.mem_map.mpr ⟨(rest, a), ?_, rfl⟩⟩
      exact (members i b there rest a).mpr inside

end Traverses
end PropertyBinding
