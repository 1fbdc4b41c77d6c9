import Mathlib.Data.List.Nodup
import Mathlib.Data.Nat.Find
import PropertyBinding.Proofs.Number.Decimal
import PropertyBinding.Proofs.Bind.Orderly
import PropertyBinding.Proofs.Store.Views

/-!
# Positions among children

The elements of a list are found in two ways.  The list is read by counting, and each
element is looked up under the number that is counted, as it is written.  What is left over
is found among the children, by reading their texts as numbers.

The first view ends at the first number under which there is nothing.  There is one, as
each number under which there is something takes up a child of its own.  The second view
has all that lies at or below a child that denotes a later position, in the order of names.
-/

namespace PropertyBinding

/-! ## Members of a name -/

namespace Name

variable {n m c d : Name} {e f : Element}

theorem leads_push (n : Name) (e : Element) : n.Leads (n.push e) :=
  (n.isParentOf_push e).2

/-- Names of one length that lead to the same name are the same. -/
theorem same_of_leads {a b : Name} (first : a.Leads m) (second : b.Leads m)
    (size : a.size = b.size) : a.Same b := by
  have length : a.key.length = b.key.length := by rw [length_key, length_key, size]
  exact (List.prefix_of_prefix_length_le first second (Nat.le_of_eq length)).eq_of_length length

/-- The key of a member is that of the name and its own last text. -/
theorem IsParentOf.key_eq (parent : n.IsParentOf c) (last : c.last? = some e) :
    c.key = n.key ++ [e.relaxed] := by
  rcases parent.2 with ⟨rest, split⟩
  have length : rest.length = 1 := by
    have whole := congrArg List.length split
    rw [List.length_append, length_key, length_key, parent.1] at whole
    omega
  rcases List.length_eq_one_iff.mp length with ⟨text, rfl⟩
  have lastKey : c.key.getLast? = some e.relaxed := by
    rw [key, List.getLast?_map, ← last?, last, Option.map_some]
  rw [← split, List.getLast?_concat] at lastKey
  rw [← split, Option.some.inj lastKey]

/-- Members of one name are told apart by their last texts. -/
theorem IsParentOf.same_iff (parent : n.IsParentOf c) (parentToo : n.IsParentOf d)
    (last : c.last? = some e) (lastToo : d.last? = some f) :
    c.Same d ↔ e.relaxed = f.relaxed := by
  unfold Same
  rw [parent.key_eq last, parentToo.key_eq lastToo, List.append_right_inj, List.cons.injEq]
  exact and_iff_left rfl

theorem last?_push (n : Name) (e : Element) : (n.push e).last? = some e :=
  List.getLast?_concat

theorem IsParentOf.exists_last? (parent : n.IsParentOf c) : ∃ e, c.last? = some e := by
  have longer : c.elements ≠ [] := by
    intro empty
    have size := parent.1
    rw [Name.size, empty] at size
    cases size
  exact ⟨_, List.getLast?_eq_some_getLast longer⟩

/-- Only one member of a name leads to a given name, up to its spelling. -/
theorem relaxed_eq_of_leads (first : (n.push e).Leads m) (second : (n.push f).Leads m) :
    e.relaxed = f.relaxed :=
  ((n.isParentOf_push e).same_iff (n.isParentOf_push f) (n.last?_push e) (n.last?_push f)).mp
    (same_of_leads first second (by rw [size_push, size_push]))

theorem childAt_leads_inj {i j : Nat} (first : (n.childAt i).Leads m)
    (second : (n.childAt j).Leads m) : i = j :=
  Number.toString_injective (relaxed_eq_of_leads first second)

/-- Of two names of one length, all that lies at the first or below it comes before all that
lies at the second or below it. -/
theorem lt_of_leads {a b : Name} (before : a < b) (size : a.size = b.size) (first : a.Leads c)
    (second : b.Leads d) : c < d := by
  have apart : ¬ a.Leads d := fun leads =>
    (same_of_leads leads second size).not_lt before
  have ahead : a < d := by
    rcases leads_iff.mp second with same | above
    · rw [lt_def] at before ⊢
      rwa [← same]
    · exact lt_trans before above.lt
  rcases leads_iff.mp first with same | above
  · rw [lt_def] at ahead ⊢
    rwa [← same]
  · by_cases less : c < d
    · exact less
    · by_cases greater : d < c
      · exact absurd (above.of_between ahead greater).2 apart
      · exact absurd (above.2.trans (same_of_not_lt less greater).leads) apart

/-- The position that the last element of a name denotes. -/
def position? (n : Name) : Option Nat :=
  n.last?.bind Element.position?

/-- A child goes by the name of a position if its last text is that of the number. -/
theorem IsParentOf.same_childAt_iff (parent : n.IsParentOf c) (last : c.last? = some e) {i : Nat} :
    c.Same (n.childAt i) ↔ e.relaxed = toString i :=
  parent.same_iff (n.isParentOf_push _) last (n.last?_push _)

/-- A child that goes by the name of a position denotes no other. -/
theorem IsParentOf.position?_eq (parent : n.IsParentOf c) {i position : Nat}
    (same : c.Same (n.childAt i)) (denoted : c.position? = some position) : position = i := by
  rcases parent.exists_last? with ⟨e, last⟩
  rw [position?, last, Option.bind_some] at denoted
  exact Element.position?_of_relaxed ((parent.same_childAt_iff last).mp same) denoted

/-- A child whose last text is a numeral goes by the name of a position if the numeral is the
one that the position is written with. -/
theorem IsParentOf.exists_same_childAt_iff (parent : n.IsParentOf c) (last : c.last? = some e)
    (digits : Number.allDigits e.text.toList = true) (count : Nat) :
    (∃ i < count, c.Same (n.childAt i)) ↔
      Number.ofDigits e.text.toList < count ∧
        e.text = toString (Number.ofDigits e.text.toList) := by
  simp only [parent.same_childAt_iff last, Element.relaxed_of_allDigits digits]
  constructor
  · rintro ⟨i, within, written⟩
    rw [written, Number.ofDigits_toString]
    exact ⟨within, rfl⟩
  · rintro ⟨within, written⟩
    exact ⟨_, within, written⟩

end Name

/-! ## Counting -/

namespace Store

variable {s : Store} {n : Name} {count : Nat}

/-- There are at least as many children as positions at which there is something. -/
theorem le_length_children (each : ∀ i < count, s.contains (n.childAt i) = true) :
    count ≤ (s.children n).length := by
  let keys := (List.range count).map fun i => (n.childAt i).key
  have different : keys.Nodup := by
    refine List.pairwise_map.mpr (List.nodup_range.imp fun {i j} apart same => apart ?_)
    have sameName : (n.childAt i).Same (n.childAt j) := same
    exact Name.childAt_leads_inj sameName.leads (Name.same_refl _).leads
  have included : keys ⊆ (s.children n).map Name.key := by
    intro key member
    rcases List.mem_map.mp member with ⟨i, within, rfl⟩
    rcases (s.exists_mem_children_same_iff n _).mpr
      ⟨n.isParentOf_push _, each i (List.mem_range.mp within)⟩ with ⟨child, listed, same⟩
    exact List.mem_map.mpr ⟨child, listed, same⟩
  simpa [keys] using different.length_le_of_subset included

/-- The number of positions from 0 up to the first at which there is nothing. -/
structure EndsAt (s : Store) (n : Name) (count : Nat) : Prop where
  below : ∀ i < count, s.contains (n.childAt i) = true
  stop : ¬ s.contains (n.childAt count) = true

theorem exists_endsAt (s : Store) (n : Name) : ∃ count, s.EndsAt n count := by
  have some : ∃ count, ¬ s.contains (n.childAt count) = true := by
    by_contra none
    have all : ∀ i, s.contains (n.childAt i) = true := fun i =>
      by_contra fun lacks => none ⟨i, lacks⟩
    have more : (s.children n).length + 1 ≤ (s.children n).length :=
      le_length_children fun i _ => all i
    exact Nat.not_succ_le_self _ more
  exact ⟨Nat.find some, fun i early => by_contra (Nat.find_min some early), Nat.find_spec some⟩

theorem EndsAt.unique {other : Nat} (ends : s.EndsAt n count) (endsToo : s.EndsAt n other) :
    count = other := by
  rcases Nat.lt_trichotomy count other with less | same | greater
  · exact absurd (endsToo.below count less) ends.stop
  · exact same
  · exact absurd (ends.below other greater) endsToo.stop

/-- The positions are counted up to the first at which there is nothing.  The children are
sorted by text, but only their number matters. -/
theorem EndsAt.positions_eq (ends : s.EndsAt n count) : positions s n = List.range count := by
  rcases Nat.exists_eq_add_of_le (le_length_children ends.below) with ⟨more, counted⟩
  have found : ∀ i ∈ List.range count, s.contains (n.childAt i) = true := fun i within =>
    ends.below i (List.mem_range.mp within)
  rw [positions, counted, List.range_add, List.takeWhile_append_of_pos found]
  cases more with
  | zero => exact List.append_nil _
  | succ more =>
      rw [List.range_succ_eq_map, List.map_cons, Nat.add_zero, List.takeWhile_cons,
        if_neg ends.stop]
      exact List.append_nil _

/-! ## What is left over -/

/-- A child denotes a position from some number on. -/
def IsLate (count : Nat) (child : Name) : Prop :=
  ∃ position, child.position? = some position ∧ count ≤ position

/-- A child that is not late has a number before the count, unless the number is too large. -/
theorem ofDigits_lt_of_not_late {child : Name} {e : Element} (early : ¬ IsLate count child)
    (last : child.last? = some e) (digits : Number.allDigits e.text.toList = true)
    (small : Number.ofDigits e.text.toList < Element.positionBound) :
    Number.ofDigits e.text.toList < count := by
  by_contra beyond
  have denoted : child.position? = some (Number.ofDigits e.text.toList) := by
    rw [Name.position?, last, Option.bind_some]
    exact Element.position?_eq_some_iff.mpr ⟨digits, rfl, small⟩
  exact early ⟨_, denoted, Nat.le_of_not_lt beyond⟩

theorem mem_late_iff {child : Name} :
    child ∈ (s.children n).filter
        (fun child => (child.last?.bind Element.position?).any (count ≤ ·)) ↔
      child ∈ s.children n ∧ IsLate count child := by
  have denoted : child.last?.bind Element.position? = child.position? := rfl
  rw [List.mem_filter, denoted]
  cases found : child.position? with
  | none => simp [IsLate, found]
  | some position => simp [IsLate, found]

/-- The properties at a name and below it. -/
theorem mem_get?_append_below {p : Property} :
    p ∈ (s.get? n).toList ++ s.below n ↔ s.get? p.name = some p ∧ n.Leads p.name := by
  rw [List.mem_append, Option.mem_toList, get?_eq_some_iff, mem_below,
    ← mem_effective, Name.leads_iff, and_or_left]

/-- What is left over is what lies at or below a child that denotes a later position. -/
theorem mem_beyond {p : Property} : p ∈ beyond s n count ↔ s.get? p.name = some p ∧
    ∃ child ∈ s.children n, IsLate count child ∧ child.Leads p.name := by
  simp only [beyond, List.mem_flatMap, mem_late_iff, mem_get?_append_below]
  exact ⟨fun ⟨child, ⟨listed, late⟩, found, leads⟩ => ⟨found, child, listed, late, leads⟩,
    fun ⟨found, child, listed, late, leads⟩ => ⟨child, ⟨listed, late⟩, found, leads⟩⟩

/-- What is left over is listed in the order of names. -/
theorem sorted_beyond : (beyond s n count).Pairwise fun p q => p.name < q.name := by
  refine List.pairwise_flatMap.mpr ⟨fun child listed => ?_, ?_⟩
  · refine List.pairwise_append.mpr ⟨?_, s.sorted_below child, fun p here q below => ?_⟩
    · cases s.get? child with
      | none => exact List.Pairwise.nil
      | some p => exact List.pairwise_singleton _ p
    · have same : child.Same p.name := (get?_eq_some_iff.mp (Option.mem_toList.mp here)).2
      have before := (mem_below.mp below).2.lt
      rw [Name.lt_def] at before ⊢
      rwa [← same]
  · refine List.Pairwise.imp_of_mem (fun {a b} first second before p here q there => ?_)
      ((s.sorted_children n).filter _)
    have size : a.size = b.size :=
      (isParentOf_of_mem_children (mem_late_iff.mp first).1).1.trans
        (isParentOf_of_mem_children (mem_late_iff.mp second).1).1.symm
    exact Name.lt_of_leads before size (mem_get?_append_below.mp here).2
      (mem_get?_append_below.mp there).2

/-- Nothing is left over if and only if no child denotes a later position. -/
theorem beyond_eq_nil_iff :
    beyond s n count = [] ↔ ∀ child ∈ s.children n, ¬ IsLate count child := by
  constructor
  · intro nothing child listed late
    rcases contains_iff_effective.mp (contains_of_mem_children listed) with ⟨p, effective, leads⟩
    have left : p ∈ beyond s n count :=
      mem_beyond.mpr ⟨mem_effective.mp effective, child, listed, late, leads⟩
    rw [nothing] at left
    cases left
  · intro none
    refine List.eq_nil_iff_forall_not_mem.mpr fun p left => ?_
    rcases mem_beyond.mp left with ⟨_, child, listed, late, _⟩
    exact none child listed late

end Store
end PropertyBinding
