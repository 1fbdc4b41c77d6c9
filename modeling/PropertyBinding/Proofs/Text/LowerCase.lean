import PropertyBinding.Text.LowerCase

/-!
# What lower-casing leaves behind

Lower-casing replaces each character by small ones, and small characters have no small form
other than themselves: no run of the table of capitals moves a letter onto a capital.  So
lower-casing a text twice is lower-casing it once, although the form of a sigma depends on the
letters around it, because there is no capital sigma left to decide about.

All small forms lie at the letter `a` or behind it in the order of code points.  The characters
with a meaning in names, which are the dot, the brackets, the hyphen and the underscore, lie
before it: none of them is lost and none is made.
-/

namespace PropertyBinding
namespace Text

/-! ## The table of capitals -/

namespace CaseRun

variable {run other : CaseRun} {code : Nat}

theorem holds_iff : run.holds code = true ↔
    run.first ≤ code ∧ code ≤ run.last ∧ (code - run.first) % run.step = 0 := by
  simp [holds, and_assoc]

/-- Whether the small letters of a run are seen to be no capitals of another: they lie apart,
or they alternate with them. -/
def clears (run other : CaseRun) : Bool :=
  (run.small + (run.last - run.first)).blt other.first || other.last.blt run.small ||
    (other.step.beq 2 && (run.step.beq 2 || run.first.beq run.last) &&
      ((run.small + other.first) % 2).beq 1)

theorem not_holds_smallOf (clear : run.clears other = true) (held : run.holds code = true) :
    ¬ other.holds (run.smallOf code) = true := by
  rw [holds_iff] at held ⊢
  simp only [clears, Bool.or_eq_true, Bool.and_eq_true, Nat.blt_eq, Nat.beq_eq] at clear
  rw [smallOf]
  rcases clear with (below | above) | ⟨⟨alternating, even⟩, odd⟩
  · omega
  · omega
  · have distance : (code - run.first) % 2 = 0 := by
      rcases even with two | single
      · rw [← two]
        exact held.2.2
      · omega
    rw [alternating]
    omega

end CaseRun

theorem caseRuns_clear : (caseRuns.all fun run => caseRuns.all run.clears) = true := by
  decide +kernel

/-- The small letters of a run begin at `a` or later, are characters, and are neither the
capital sigma nor the dotted capital I, which are not in the table. -/
theorem caseRuns_small : ∀ run ∈ caseRuns, 0x61 ≤ run.small ∧
    (run.small + (run.last - run.first) < 0xD800 ∨
      0xDFFF < run.small ∧ run.small + (run.last - run.first) < 0x110000) ∧
    (run.small + (run.last - run.first) < 0x130 ∨ 0x130 < run.small) ∧
    (run.small + (run.last - run.first) < 0x3A3 ∨ 0x3A3 < run.small) := by
  decide +kernel

/-- The first run is that of the letters `A` to `Z`, and it is the only one in its range. -/
theorem caseRuns_ascii : ∀ run ∈ caseRuns, 0x7F < run.first ∨
    run.first = 0x41 ∧ run.last = 0x5A ∧ run.small = 0x61 := by
  decide +kernel

/-! ## Characters -/

variable {c d : Char} {run : CaseRun}

/-- A character that lower-casing leaves alone wherever it stands. -/
def IsSmall (c : Char) : Prop :=
  c ≠ 'Σ' ∧ smallForm c = [c]

theorem smallForm_of_held (other : c ≠ 'İ')
    (found : caseRuns.find? (·.holds c.toNat) = some run) :
    smallForm c = [Char.ofNat (run.smallOf c.toNat)] := by
  rw [smallForm, if_neg other, found]

theorem smallForm_of_not_held (other : c ≠ 'İ')
    (free : ∀ run ∈ caseRuns, ¬ run.holds c.toNat = true) : smallForm c = [c] := by
  rw [smallForm, if_neg other, List.find?_eq_none.mpr free]

theorem toNat_smallOf (listed : run ∈ caseRuns) {code : Nat} (held : run.holds code = true) :
    (Char.ofNat (run.smallOf code)).toNat = run.smallOf code := by
  have range := (caseRuns_small run listed).2.1
  have within := CaseRun.holds_iff.mp held
  have valid : (run.smallOf code).isValidChar := by
    simp only [Nat.isValidChar, CaseRun.smallOf]
    omega
  rw [Char.ofNat, dif_pos valid]
  rfl

/-- The small letter that a run gives is small. -/
theorem isSmall_smallOf (listed : run ∈ caseRuns) {code : Nat} (held : run.holds code = true) :
    IsSmall (Char.ofNat (run.smallOf code)) := by
  have number := toNat_smallOf listed held
  have within := CaseRun.holds_iff.mp held
  have apart := (caseRuns_small run listed).2.2
  have free : ∀ other ∈ caseRuns, ¬ other.holds (run.smallOf code) = true := by
    intro other otherListed
    apply CaseRun.not_holds_smallOf _ held
    exact List.all_eq_true.mp (List.all_eq_true.mp caseRuns_clear run listed) other otherListed
  have noSigma : run.smallOf code ≠ 0x3A3 := by
    rw [CaseRun.smallOf]
    omega
  have noDotted : run.smallOf code ≠ 0x130 := by
    rw [CaseRun.smallOf]
    omega
  constructor
  · intro sigma
    rw [sigma] at number
    exact noSigma number.symm
  · apply smallForm_of_not_held
    · intro dotted
      rw [dotted] at number
      exact noDotted number.symm
    · rw [number]
      exact free

/-- What a small form consists of: a small letter of the table, a part of the small dotted I, or
the character itself. -/
theorem mem_smallForm (member : d ∈ smallForm c) :
    (∃ run ∈ caseRuns, run.holds c.toNat = true ∧ d = Char.ofNat (run.smallOf c.toNat)) ∨
      (d = 'i' ∨ d = '\u0307') ∨ d = c ∧ smallForm c = [c] := by
  by_cases dotted : c = 'İ'
  · rw [smallForm, if_pos dotted] at member
    exact .inr (.inl (by simpa using member))
  · cases found : caseRuns.find? (·.holds c.toNat) with
    | some run =>
        rw [smallForm_of_held dotted found, List.mem_singleton] at member
        have held : run.holds c.toNat = true := by simpa using List.find?_some found
        exact .inl ⟨run, List.mem_of_find?_eq_some found, held, member⟩
    | none =>
        have same := smallForm_of_not_held dotted (List.find?_eq_none.mp found)
        rw [same, List.mem_singleton] at member
        exact .inr (.inr ⟨member, same⟩)

theorem smallForm_ne_nil (c : Char) : smallForm c ≠ [] := by
  unfold smallForm
  split
  · simp
  · split <;> simp

theorem isSmall_of_mem_smallForm (noSigma : c ≠ 'Σ') (member : d ∈ smallForm c) : IsSmall d := by
  rcases mem_smallForm member with ⟨run, listed, held, rfl⟩ | (rfl | rfl) | ⟨rfl, same⟩
  · exact isSmall_smallOf listed held
  · exact ⟨by decide, by decide +kernel⟩
  · exact ⟨by decide, by decide +kernel⟩
  · exact ⟨noSigma, same⟩

/-- A character before `a` comes from nothing but itself. -/
theorem eq_of_mem_smallForm (member : d ∈ smallForm c) (before : d.toNat < 0x61) : d = c := by
  rcases mem_smallForm member with ⟨run, listed, held, rfl⟩ | (rfl | rfl) | ⟨rfl, _⟩
  · rw [toNat_smallOf listed held, CaseRun.smallOf] at before
    have start := (caseRuns_small run listed).1
    omega
  · exact absurd before (by decide)
  · exact absurd before (by decide)
  · rfl

theorem isUpper_iff : c.val ≥ 'A'.val ∧ c.val ≤ 'Z'.val ↔ 0x41 ≤ c.toNat ∧ c.toNat ≤ 0x5A := by
  rw [ge_iff_le, UInt32.le_iff_toNat_le, UInt32.le_iff_toNat_le]
  rfl

theorem toLower_of_not_upper (lower : ¬ (0x41 ≤ c.toNat ∧ c.toNat ≤ 0x5A)) : c.toLower = c :=
  dif_neg fun upper => lower (isUpper_iff.mp upper)

theorem toNat_toLower (upper : 0x41 ≤ c.toNat ∧ c.toNat ≤ 0x5A) :
    c.toLower.toNat = c.toNat + 32 := by
  have moved : c.toLower = _ := dif_pos (isUpper_iff.mpr upper)
  rw [moved]
  change (c.toNat + 32) % 2 ^ 32 = c.toNat + 32
  omega

/-- In the range of the English letters lower-casing is `Char.toLower`. -/
theorem smallForm_of_ascii (ascii : c.toNat ≤ 0x7F) : smallForm c = [c.toLower] := by
  have other : c ≠ 'İ' := by
    rintro rfl
    exact absurd ascii (by decide)
  cases found : caseRuns.find? (·.holds c.toNat) with
  | some run =>
      have held : run.holds c.toNat = true := by simpa using List.find?_some found
      have listed := List.mem_of_find?_eq_some found
      have within := CaseRun.holds_iff.mp held
      rcases caseRuns_ascii run listed with beyond | ⟨first, last, small⟩
      · omega
      · rw [smallForm_of_held other found, List.singleton_inj, ← Char.toNat_inj,
          toNat_smallOf listed held, toNat_toLower (by omega), CaseRun.smallOf]
        omega
  | none =>
      have free := List.find?_eq_none.mp found
      have letters : (⟨0x41, 0x5A, 1, 0x61⟩ : CaseRun) ∈ caseRuns := List.mem_cons_self
      rw [smallForm_of_not_held other free, toLower_of_not_upper]
      intro upper
      apply free _ letters
      rw [CaseRun.holds_iff]
      exact ⟨upper.1, upper.2, Nat.mod_one _⟩

/-- Characters that differ by case only are the same, or the two forms of an English letter. -/
theorem cases_of_toLower_eq (same : c.toLower = d.toLower) :
    c = d ∨ ((0x41 ≤ c.toNat ∧ c.toNat ≤ 0x5A) ∧ d.toNat = c.toNat + 32) ∨
      ((0x41 ≤ d.toNat ∧ d.toNat ≤ 0x5A) ∧ c.toNat = d.toNat + 32) := by
  by_cases upper : 0x41 ≤ c.toNat ∧ c.toNat ≤ 0x5A <;>
    by_cases upperToo : 0x41 ≤ d.toNat ∧ d.toNat ≤ 0x5A
  · have small := toNat_toLower upper
    rw [same, toNat_toLower upperToo] at small
    exact .inl (Char.toNat_inj.mp (by omega))
  · have small := toNat_toLower upper
    rw [same, toLower_of_not_upper upperToo] at small
    exact .inr (.inl ⟨upper, small⟩)
  · have small := toNat_toLower upperToo
    rw [← same, toLower_of_not_upper upper] at small
    exact .inr (.inr ⟨upperToo, small⟩)
  · rw [toLower_of_not_upper upper, toLower_of_not_upper upperToo] at same
    exact .inl same

/-- Characters that differ by the case of an English letter lie in the range of these letters. -/
theorem ascii_of_toLower_eq (same : c.toLower = d.toLower) (different : c ≠ d) :
    c.toNat ≤ 0x7F ∧ d.toNat ≤ 0x7F := by
  have forms := (cases_of_toLower_eq same).resolve_left different
  omega

/-- The case of an English letter is lost. -/
theorem smallForm_of_toLower_eq (same : c.toLower = d.toLower) : smallForm c = smallForm d := by
  by_cases equal : c = d
  · rw [equal]
  · have ascii := ascii_of_toLower_eq same equal
    rw [smallForm_of_ascii ascii.1, smallForm_of_ascii ascii.2, same]

/-! ## Texts -/

variable {before cs : List Char}

/-- A small character comes from a sigma or from the small form of another character. -/
theorem mem_lowerAfter (member : d ∈ lowerAfter before cs) :
    'Σ' ∈ cs ∧ (d = 'ς' ∨ d = 'σ') ∨ ∃ c ∈ cs, c ≠ 'Σ' ∧ d ∈ smallForm c := by
  induction cs generalizing before with
  | nil => simp [lowerAfter] at member
  | cons c cs inductionHypothesis =>
      rw [lowerAfter, List.mem_append] at member
      rcases member with here | later
      · by_cases sigma : c = 'Σ'
        · left
          subst sigma
          simp only [if_true, List.mem_singleton] at here
          exact ⟨List.mem_cons_self, by split at here <;> simp [here]⟩
        · right
          rw [if_neg sigma] at here
          exact ⟨c, List.mem_cons_self, sigma, here⟩
      · rcases inductionHypothesis later with ⟨sigma, form⟩ | ⟨c, listed, rest⟩
        · exact .inl ⟨List.mem_cons_of_mem _ sigma, form⟩
        · exact .inr ⟨c, List.mem_cons_of_mem _ listed, rest⟩

theorem isSmall_of_mem_lowerAfter (member : d ∈ lowerAfter before cs) : IsSmall d := by
  rcases mem_lowerAfter member with ⟨_, rfl | rfl⟩ | ⟨c, _, noSigma, form⟩
  · exact ⟨by decide, by decide +kernel⟩
  · exact ⟨by decide, by decide +kernel⟩
  · exact isSmall_of_mem_smallForm noSigma form

/-- Lower-casing makes no character before `a`. -/
theorem mem_of_mem_lowerAfter (member : d ∈ lowerAfter before cs) (early : d.toNat < 0x61) :
    d ∈ cs := by
  rcases mem_lowerAfter member with ⟨_, rfl | rfl⟩ | ⟨c, listed, _, form⟩
  · exact absurd early (by decide)
  · exact absurd early (by decide)
  · rw [eq_of_mem_smallForm form early]
    exact listed

theorem lowerAfter_ne_nil (nonempty : cs ≠ []) : lowerAfter before cs ≠ [] := by
  cases cs with
  | nil => exact absurd rfl nonempty
  | cons c cs =>
      intro nothing
      rw [lowerAfter, List.append_eq_nil_iff] at nothing
      by_cases sigma : c = 'Σ'
      · simp [sigma] at nothing
      · rw [if_neg sigma] at nothing
        exact smallForm_ne_nil c nothing.1

/-- Small characters stay as they are, whatever stands around them. -/
theorem lowerAfter_of_small (small : ∀ d ∈ cs, IsSmall d) : lowerAfter before cs = cs := by
  induction cs generalizing before with
  | nil => rfl
  | cons c cs inductionHypothesis =>
      have here := small c List.mem_cons_self
      rw [lowerAfter, if_neg here.1, here.2,
        inductionHypothesis fun d listed => small d (List.mem_cons_of_mem _ listed)]
      rfl

/-- What has been lower-cased once stays as it is. -/
theorem lowerChars_lowerChars (cs : List Char) : lowerChars (lowerChars cs) = lowerChars cs :=
  lowerAfter_of_small fun _ member => isSmall_of_mem_lowerAfter member

end Text
end PropertyBinding
