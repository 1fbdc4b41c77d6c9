import PropertyBinding.Placeholder.Body

/-!
# Balanced braces

The body of a placeholder ends at the brace that closes it, so a text can stand in a
body as it is when its own braces are balanced.  The scan for the end of the body
counts braces one by one; here it is traced back to the counts of whole texts, for a
text that closes no more braces than are open passes through the scan unchanged.
-/

namespace PropertyBinding
namespace Placeholder

/-- No brace is closed that is not open, and in the end none is open. -/
structure Balanced (cs : List Char) : Prop where
  opened : ∀ front, front <+: cs → front.count '}' ≤ front.count '{'
  closed : cs.count '}' = cs.count '{'

instance (cs : List Char) : Decidable (Balanced cs) :=
  decidable_of_iff ((∀ size ≤ cs.length, (cs.take size).count '}' ≤ (cs.take size).count '{') ∧
      cs.count '}' = cs.count '{') <| by
    constructor
    · rintro ⟨opened, closed⟩
      refine ⟨fun front leads => ?_, closed⟩
      rw [List.prefix_iff_eq_take.mp leads]
      exact opened front.length leads.length_le
    · rintro ⟨opened, closed⟩
      exact ⟨fun size _ => opened _ (List.take_prefix size cs), closed⟩

namespace Balanced

theorem of_no_braces {cs : List Char} (noneOpened : '{' ∉ cs) (noneClosed : '}' ∉ cs) :
    Balanced cs := by
  constructor
  · intro front leads
    rw [List.count_eq_zero.mpr fun member => noneClosed (leads.subset member)]
    exact Nat.zero_le _
  · rw [List.count_eq_zero.mpr noneOpened, List.count_eq_zero.mpr noneClosed]

theorem append {first second : List Char} (one : Balanced first) (two : Balanced second) :
    Balanced (first ++ second) := by
  constructor
  · intro front leads
    rcases List.prefix_or_prefix_of_prefix leads (List.prefix_append first second) with
      within | ⟨rest, rfl⟩
    · exact one.opened front within
    · have opened := two.opened rest ((List.prefix_append_right_inj first).mp leads)
      have closed := one.closed
      simp only [List.count_append]
      omega
  · simp only [List.count_append, one.closed, two.closed]

/-- What follows a balanced text in a balanced text is balanced. -/
theorem of_append {first second : List Char} (one : Balanced first)
    (whole : Balanced (first ++ second)) : Balanced second := by
  have firstClosed := one.closed
  constructor
  · intro front leads
    have opened := whole.opened (first ++ front) ((List.prefix_append_right_inj first).mpr leads)
    simp only [List.count_append] at opened
    omega
  · have closed := whole.closed
    simp only [List.count_append] at closed
    omega

end Balanced

/-! ## The end of a body -/

theorem cutBodyWithin_closing (inner : Nat) (cs : List Char) :
    cutBodyWithin (inner + 1) ('}' :: cs) =
      (cutBodyWithin inner cs).map fun (body, rest) => ('}' :: body, rest) :=
  rfl

theorem cutBodyWithin_opening (inner : Nat) (cs : List Char) :
    cutBodyWithin inner ('{' :: cs) =
      (cutBodyWithin (inner + 1) cs).map fun (body, rest) => ('{' :: body, rest) :=
  rfl

theorem cutBodyWithin_of_no_brace (inner : Nat) {c : Char} (notOpening : c ≠ '{')
    (notClosing : c ≠ '}') (cs : List Char) :
    cutBodyWithin inner (c :: cs) =
      (cutBodyWithin inner cs).map fun (body, rest) => (c :: body, rest) := by
  rw [cutBodyWithin.eq_def]
  simp only [if_neg notClosing, if_neg notOpening]

/-- The scan passes over a text that closes no more braces than are open. -/
theorem cutBodyWithin_append {inner : Nat} {cs : List Char}
    (opened : ∀ front, front <+: cs → front.count '}' ≤ inner + front.count '{')
    (after : List Char) :
    cutBodyWithin inner (cs ++ after) =
      (cutBodyWithin (inner + cs.count '{' - cs.count '}') after).map
        fun (body, rest) => (cs ++ body, rest) := by
  induction cs generalizing inner with
  | nil => simp
  | cons c cs inductionHypothesis =>
      have later : ∀ front, front <+: cs →
          (c :: front).count '}' ≤ inner + (c :: front).count '{' :=
        fun front leads => opened (c :: front) (List.cons_prefix_cons.mpr ⟨rfl, leads⟩)
      rw [List.cons_append]
      by_cases closing : c = '}'
      · subst closing
        have open_count (l : List Char) : ('}' :: l).count '{' = l.count '{' :=
          List.count_cons_of_ne (by decide)
        simp only [open_count, List.count_cons_self] at later ⊢
        cases inner with
        | zero => exact absurd (later [] List.nil_prefix) (by simp)
        | succ n =>
            have within : ∀ front, front <+: cs → front.count '}' ≤ n + front.count '{' := by
              intro front leads
              have bound := later front leads
              omega
            rw [cutBodyWithin_closing, inductionHypothesis within, Option.map_map,
              show n + 1 + cs.count '{' - (cs.count '}' + 1) = n + cs.count '{' - cs.count '}' by
                omega]
            rfl
      · have close_count (l : List Char) : (c :: l).count '}' = l.count '}' :=
          List.count_cons_of_ne closing
        simp only [close_count] at later ⊢
        by_cases opening : c = '{'
        · subst opening
          simp only [List.count_cons_self] at later ⊢
          have within : ∀ front, front <+: cs → front.count '}' ≤ inner + 1 + front.count '{' := by
            intro front leads
            have bound := later front leads
            omega
          rw [cutBodyWithin_opening, inductionHypothesis within, Option.map_map,
            Nat.add_right_comm inner 1, ← Nat.add_assoc]
          rfl
        · have open_count (l : List Char) : (c :: l).count '{' = l.count '{' :=
            List.count_cons_of_ne opening
          simp only [open_count] at later ⊢
          rw [cutBodyWithin_of_no_brace inner opening closing, inductionHypothesis later,
            Option.map_map]
          rfl

/-- A balanced body ends at the brace behind it. -/
theorem cutBody_of_balanced {body : List Char} (balanced : Balanced body) (rest : List Char) :
    cutBody (body ++ '}' :: rest) = some (body, rest) := by
  have opened : ∀ front, front <+: body → front.count '}' ≤ 0 + front.count '{' := by
    intro front leads
    rw [Nat.zero_add]
    exact balanced.opened front leads
  rw [cutBody, cutBodyWithin_append opened, balanced.closed, Nat.zero_add, Nat.sub_self]
  simp [cutBodyWithin]

/-- The scan stops at the first brace that closes more than has been opened. -/
theorem count_of_cutBodyWithin {inner : Nat} {cs body rest : List Char}
    (cut : cutBodyWithin inner cs = some (body, rest)) :
    (∀ front, front <+: body → front.count '}' ≤ inner + front.count '{') ∧
      body.count '}' = inner + body.count '{' := by
  induction cs generalizing inner body with
  | nil => cases cut
  | cons c cs inductionHypothesis =>
      -- The front of a longer body is empty, or it starts with the same character.
      have step : ∀ {part : List Char} {less : Nat},
          ((∀ front, front <+: part → front.count '}' ≤ less + front.count '{') ∧
            part.count '}' = less + part.count '{') →
          (∀ l : List Char, (c :: l).count '}' + less + l.count '{' =
            inner + (c :: l).count '{' + l.count '}') →
          (∀ front, front <+: c :: part → front.count '}' ≤ inner + front.count '{') ∧
            (c :: part).count '}' = inner + (c :: part).count '{' := by
        intro part less counted shifted
        refine ⟨fun front leads => ?_, ?_⟩
        · rcases List.prefix_cons_iff.mp leads with rfl | ⟨tail, rfl, within⟩
          · exact Nat.zero_le _
          · have bound := counted.1 tail within
            have shift := shifted tail
            omega
        · have closed := counted.2
          have shift := shifted part
          omega
      by_cases closing : c = '}'
      · subst closing
        have open_count (l : List Char) : ('}' :: l).count '{' = l.count '{' :=
          List.count_cons_of_ne (by decide)
        cases inner with
        | zero =>
            cases cut
            refine ⟨fun front leads => ?_, rfl⟩
            rw [List.prefix_nil.mp leads]
            exact Nat.zero_le _
        | succ n =>
            rw [cutBodyWithin_closing] at cut
            obtain ⟨⟨part, tail⟩, cutPart, same⟩ := Option.map_eq_some_iff.mp cut
            cases same
            refine step (inductionHypothesis cutPart) fun l => ?_
            rw [open_count, List.count_cons_self]
            omega
      · have close_count (l : List Char) : (c :: l).count '}' = l.count '}' :=
          List.count_cons_of_ne closing
        by_cases opening : c = '{'
        · subst opening
          rw [cutBodyWithin_opening] at cut
          obtain ⟨⟨part, tail⟩, cutPart, same⟩ := Option.map_eq_some_iff.mp cut
          cases same
          refine step (inductionHypothesis cutPart) fun l => ?_
          rw [close_count, List.count_cons_self]
          omega
        · have open_count (l : List Char) : (c :: l).count '{' = l.count '{' :=
            List.count_cons_of_ne opening
          rw [cutBodyWithin_of_no_brace inner opening closing] at cut
          obtain ⟨⟨part, tail⟩, cutPart, same⟩ := Option.map_eq_some_iff.mp cut
          cases same
          refine step (inductionHypothesis cutPart) fun l => ?_
          rw [close_count, open_count]
          omega

/-- The body of a placeholder is balanced. -/
theorem balanced_of_cutBody {cs body rest : List Char} (cut : cutBody cs = some (body, rest)) :
    Balanced body := by
  rcases count_of_cutBodyWithin cut with ⟨opened, closed⟩
  simp only [Nat.zero_add] at opened closed
  exact ⟨opened, closed⟩

/-- Where the scan finds no end, the text closes no more braces than are open. -/
theorem count_of_cutBodyWithin_eq_none {inner : Nat} {cs : List Char}
    (missing : cutBodyWithin inner cs = none) : cs.count '}' ≤ inner + cs.count '{' := by
  induction cs generalizing inner with
  | nil => exact Nat.zero_le _
  | cons c cs inductionHypothesis =>
      by_cases closing : c = '}'
      · subst closing
        cases inner with
        | zero => cases missing
        | succ n =>
            rw [cutBodyWithin_closing, Option.map_eq_none_iff] at missing
            have bound := inductionHypothesis missing
            rw [List.count_cons_self, List.count_cons_of_ne (by decide)]
            omega
      · rw [List.count_cons_of_ne closing]
        by_cases opening : c = '{'
        · subst opening
          rw [cutBodyWithin_opening, Option.map_eq_none_iff] at missing
          have bound := inductionHypothesis missing
          rw [List.count_cons_self]
          omega
        · rw [cutBodyWithin_of_no_brace inner opening closing, Option.map_eq_none_iff] at missing
          rw [List.count_cons_of_ne opening]
          exact inductionHypothesis missing

/-! ## The fallback -/

/-- The number of open braces, when one more character is passed over. -/
def depthAfter (depth : Int) (c : Char) : Int :=
  if c = '{' then depth + 1 else if c = '}' then depth - 1 else depth

theorem depthAfter_add_count (depth : Int) (c : Char) (front : List Char) :
    depthAfter depth c + front.count '{' - front.count '}' =
      depth + (c :: front).count '{' - (c :: front).count '}' := by
  unfold depthAfter
  by_cases opening : c = '{'
  · subst opening
    rw [if_pos rfl, List.count_cons_self, List.count_cons_of_ne (by decide)]
    omega
  · rw [if_neg opening, List.count_cons_of_ne opening]
    by_cases closing : c = '}'
    · subst closing
      rw [if_pos rfl, List.count_cons_self]
      omega
    · rw [if_neg closing, List.count_cons_of_ne closing]

/-- A character that is no colon outside all braces becomes part of the key. -/
theorem splitFallbackWithin_of_passed {depth : Int} {c : Char} (passed : ¬ (c = ':' ∧ depth = 0))
    (cs : List Char) :
    splitFallbackWithin depth (c :: cs) =
      (c :: (splitFallbackWithin (depthAfter depth c) cs).1,
        (splitFallbackWithin (depthAfter depth c) cs).2) := by
  rw [splitFallbackWithin, if_neg passed]
  rfl

theorem exists_of_splitFallbackWithin {depth : Int} {c : Char} {cs key : List Char}
    {fallback : Option (List Char)} (passed : ¬ (c = ':' ∧ depth = 0))
    (split : splitFallbackWithin depth (c :: cs) = (key, fallback)) :
    ∃ part, key = c :: part ∧ splitFallbackWithin (depthAfter depth c) cs = (part, fallback) := by
  rw [splitFallbackWithin_of_passed passed] at split
  rcases Prod.mk.inj split with ⟨same, later⟩
  exact ⟨_, same.symm, Prod.ext rfl later⟩

/-- At the colon as many braces have been closed as opened. -/
theorem count_of_splitFallbackWithin {depth : Int} {body key fallback : List Char}
    (split : splitFallbackWithin depth body = (key, some fallback)) :
    depth + key.count '{' = key.count '}' := by
  induction body generalizing depth key with
  | nil => cases split
  | cons c cs inductionHypothesis =>
      by_cases colon : c = ':' ∧ depth = 0
      · rw [splitFallbackWithin, if_pos colon] at split
        cases split
        rw [colon.2]
        rfl
      · rcases exists_of_splitFallbackWithin colon split with ⟨part, rfl, later⟩
        have counted := inductionHypothesis later
        have shifted := depthAfter_add_count depth c part
        omega

theorem balanced_colon : Balanced [':'] :=
  .of_no_braces (by decide) (by decide)

/-- Key and fallback of a balanced body are balanced. -/
theorem balanced_of_splitFallback {body key : List Char} {fallback : Option (List Char)}
    (balanced : Balanced body) (split : splitFallback body = (key, fallback)) :
    Balanced key ∧ ∀ default, fallback = some default → Balanced default := by
  have parts := joinFallback_of_splitFallback split
  cases fallback with
  | none =>
      have whole : key = body := parts
      exact ⟨whole ▸ balanced, fun _ impossible => by cases impossible⟩
  | some fallback =>
      have whole : key ++ ':' :: fallback = body := parts
      have counted := count_of_splitFallbackWithin split
      have first : Balanced key := by
        refine ⟨fun front leads => balanced.opened front ?_, by omega⟩
        exact whole ▸ leads.trans (List.prefix_append key _)
      have second : Balanced ([':'] ++ fallback) := first.of_append (whole ▸ balanced)
      refine ⟨first, fun default same => ?_⟩
      cases same
      exact balanced_colon.of_append second

/-- The search for the colon passes over a key without braces and colons. -/
theorem splitFallbackWithin_append (depth : Int) {key : List Char}
    (plain : ∀ c ∈ key, c ≠ ':' ∧ c ≠ '{' ∧ c ≠ '}') (after : List Char) :
    splitFallbackWithin depth (key ++ after) =
      (key ++ (splitFallbackWithin depth after).1, (splitFallbackWithin depth after).2) := by
  induction key with
  | nil => rfl
  | cons c cs inductionHypothesis =>
      have first := plain c List.mem_cons_self
      have same : depthAfter depth c = depth := by
        rw [depthAfter, if_neg first.2.1, if_neg first.2.2]
      rw [List.cons_append, splitFallbackWithin_of_passed fun colon => first.1 colon.1, same,
        inductionHypothesis fun c later => plain c (List.mem_cons_of_mem _ later)]
      rfl

/-- Splitting undoes joining when the key has neither braces nor colons. -/
theorem splitFallback_joinFallback {key : List Char}
    (plain : ∀ c ∈ key, c ≠ ':' ∧ c ≠ '{' ∧ c ≠ '}') (fallback : Option (List Char)) :
    splitFallback (joinFallback key fallback) = (key, fallback) := by
  cases fallback with
  | none =>
      have split := splitFallbackWithin_append 0 plain []
      rw [List.append_nil] at split
      rw [joinFallback, splitFallback, split, splitFallbackWithin, List.append_nil]
  | some fallback =>
      rw [joinFallback, splitFallback, splitFallbackWithin_append 0 plain, splitFallbackWithin,
        if_pos ⟨rfl, rfl⟩, List.append_nil]

end Placeholder
end PropertyBinding
