import PropertyBinding.Placeholder.Resolver

/-!
# What resolving depends on

Resolving is told how deep to follow references and which keys are being followed.
A finished outcome does not depend on the depth: a greater one gives the same.  A
text that has been found depends on neither: if it is found while some keys are
being followed, the same text is found while only some or none of them are.

The second fact gives each written key one text of its own.  Whether a key can be
resolved may depend on where it is met, but what it resolves to cannot.
-/

namespace PropertyBinding

namespace Resolution

variable {α β : Type}

theorem run_bind_eq_ok {x : Resolution α} {next : α → Resolution β} {b : β} :
    (x >>= next).run = some (.ok b) ↔ ∃ a, x.run = some (.ok a) ∧ (next a).run = some (.ok b) := by
  rw [ExceptT.run_bind]
  rcases x.run with _ | error | a
  · simp
  · simp [pure]
  · simp

theorem run_bind_eq_none {x : Resolution α} {next : α → Resolution β} :
    (x >>= next).run = none ↔ x.run = none ∨ ∃ a, x.run = some (.ok a) ∧ (next a).run = none := by
  rw [ExceptT.run_bind]
  rcases x.run with _ | error | a
  · simp
  · simp [pure]
  · simp

theorem run_bind_eq_error {x : Resolution α} {next : α → Resolution β} {e : PlaceholderError} :
    (x >>= next).run = some (.error e) ↔
      x.run = some (.error e) ∨ ∃ a, x.run = some (.ok a) ∧ (next a).run = some (.error e) := by
  rw [ExceptT.run_bind]
  rcases x.run with _ | error | a
  · simp
  · simp [pure]
  · simp

/-- What one resolution finds the other finds too. -/
def KeptBy (x y : Resolution α) : Prop :=
  ∀ a, x.run = some (.ok a) → y.run = some (.ok a)

/-- If one resolution finishes the other has the same outcome. -/
def ExtendedBy (x y : Resolution α) : Prop :=
  ∀ outcome, x.run = some outcome → y.run = some outcome

theorem KeptBy.refl (x : Resolution α) : x.KeptBy x :=
  fun _ found => found

theorem ExtendedBy.refl (x : Resolution α) : x.ExtendedBy x :=
  fun _ finished => finished

theorem KeptBy.bind {x y : Resolution α} {next other : α → Resolution β} (first : x.KeptBy y)
    (second : ∀ a, (next a).KeptBy (other a)) : (x >>= next).KeptBy (y >>= other) := by
  intro b found
  rcases run_bind_eq_ok.mp found with ⟨a, foundFirst, foundSecond⟩
  exact run_bind_eq_ok.mpr ⟨a, first a foundFirst, second a b foundSecond⟩

theorem ExtendedBy.bind {x y : Resolution α} {next other : α → Resolution β}
    (first : x.ExtendedBy y) (second : ∀ a, (next a).ExtendedBy (other a)) :
    (x >>= next).ExtendedBy (y >>= other) := by
  intro outcome finished
  rw [ExceptT.run_bind] at finished ⊢
  cases inner : x.run with
  | none => simp [inner] at finished
  | some result =>
      rw [first result inner]
      rw [inner] at finished
      cases result with
      | error e => exact finished
      | ok a => exact second a outcome finished

end Resolution

namespace Template

open Resolution

variable {lookup : String → Option String} {follow other : String → String → Resolution (List Char)}
variable {visiting instead : List String}

/-- A key that names a value for which no text is found. -/
def Fruitless (lookup : String → Option String)
    (follow : String → String → Resolution (List Char)) (key : String) : Prop :=
  ∃ value, lookup key = some value ∧ ∀ text, (follow key value).run ≠ some (.ok text)

/-- A reference keeps its text when fewer keys are being followed, or others for which no
text is found. -/
theorem referred_keptBy (followed : ∀ key value, (follow key value).KeptBy (other key value))
    (avoided : ∀ key ∈ instead, key ∈ visiting ∨ Fruitless lookup follow key) (key : String)
    {absent present : Unit → Resolution (List Char)} (kept : (absent ()).KeptBy (present ())) :
    (referred lookup follow visiting key absent).KeptBy
      (referred lookup other instead key present) := by
  intro text found
  unfold referred at found ⊢
  by_cases met : key ∈ visiting
  · rw [if_pos met] at found
    cases found
  · rw [if_neg met] at found
    have new : key ∉ instead := by
      intro member
      rcases avoided key member with before | ⟨value, named, fruitless⟩
      · exact met before
      · exact fruitless text (by simpa [named] using found)
    rw [if_neg new]
    cases named : lookup key with
    | some value => exact followed key value text (by simpa [named] using found)
    | none => exact kept text (by simpa [named] using found)

theorem referred_extendedBy
    (followed : ∀ key value, (follow key value).ExtendedBy (other key value)) (key : String)
    {absent present : Unit → Resolution (List Char)}
    (extended : (absent ()).ExtendedBy (present ())) :
    (referred lookup follow visiting key absent).ExtendedBy
      (referred lookup other visiting key present) := by
  intro outcome finished
  unfold referred at finished ⊢
  by_cases met : key ∈ visiting
  · rw [if_pos met] at finished ⊢
    exact finished
  · rw [if_neg met] at finished ⊢
    cases named : lookup key with
    | some value => exact followed key value outcome (by simpa [named] using finished)
    | none => exact extended outcome (by simpa [named] using finished)

/-- The text of a template depends neither on which keys are being followed, as long as
it is found, nor on what the template is a part of. -/
theorem expand_keptBy (followed : ∀ key value, (follow key value).KeptBy (other key value))
    (avoided : ∀ key ∈ instead, key ∈ visiting ∨ Fruitless lookup follow key)
    (whole around t : Template) :
    (expand lookup follow visiting whole t).KeptBy (expand lookup other instead around t) := by
  induction t generalizing whole around with
  | done => exact .refl _
  | literal c rest restKept => exact (restKept whole around).bind fun after => .refl _
  | escaped rest restKept => exact (restKept whole around).bind fun after => .refl _
  | reference key rest keyKept restKept =>
      refine (keyKept key key).bind fun found => ?_
      refine KeptBy.bind (referred_keptBy followed avoided _ ?_) fun value => ?_
      · intro text impossible
        cases impossible
      · exact (restKept whole around).bind fun after => .refl _
  | referenceOr key fallback rest keyKept fallbackKept restKept =>
      refine (keyKept key key).bind fun found => ?_
      refine KeptBy.bind (referred_keptBy followed avoided _ (fallbackKept _ _)) fun value => ?_
      exact (restKept whole around).bind fun after => .refl _
  | unclosed body =>
      intro text impossible
      cases impossible

/-- A finished outcome does not depend on how deep references may be followed. -/
theorem expand_extendedBy
    (followed : ∀ key value, (follow key value).ExtendedBy (other key value))
    (whole t : Template) :
    (expand lookup follow visiting whole t).ExtendedBy (expand lookup other visiting whole t) := by
  induction t generalizing whole with
  | done => exact .refl _
  | literal c rest restExtended => exact (restExtended whole).bind fun after => .refl _
  | escaped rest restExtended => exact (restExtended whole).bind fun after => .refl _
  | reference key rest keyExtended restExtended =>
      refine (keyExtended key).bind fun found => ?_
      refine ExtendedBy.bind (referred_extendedBy followed _ (.refl _)) fun value => ?_
      exact (restExtended whole).bind fun after => .refl _
  | referenceOr key fallback rest keyExtended fallbackExtended restExtended =>
      refine (keyExtended key).bind fun found => ?_
      refine ExtendedBy.bind (referred_extendedBy followed _ (fallbackExtended _)) fun value => ?_
      exact (restExtended whole).bind fun after => .refl _
  | unclosed body => exact .refl _

end Template

namespace Store

open Resolution

variable (s : Store)

/-- A text that is found while some keys are being followed is found while only some
of them are. -/
theorem resolveWithin_keptBy {depth deeper : Nat} (enough : depth ≤ deeper)
    {visiting fewer : List String} (subset : fewer ⊆ visiting) (value : String) :
    (s.resolveWithin depth visiting value).KeptBy (s.resolveWithin deeper fewer value) := by
  induction depth generalizing deeper visiting fewer value with
  | zero =>
      intro text impossible
      cases impossible
  | succ depth inductionHypothesis =>
      cases deeper with
      | zero => exact absurd enough (Nat.not_succ_le_zero depth)
      | succ deeper =>
          refine Template.expand_keptBy (fun key raw => ?_)
            (fun key member => Or.inl (subset member)) _ _ _
          exact inductionHypothesis (Nat.le_of_succ_le_succ enough)
            (List.cons_subset_cons key subset) raw

/-- One more key may be followed if on the way no text is found for its value. -/
theorem resolveWithin_keptBy_cons {depth : Nat} {key raw : String}
    (named : s.valueOf? key = some raw)
    (fruitless : ∀ less < depth, ∀ text, (s.resolveWithin less [] raw).run ≠ some (.ok text))
    {visiting more : List String} (within : more ⊆ key :: visiting) (value : String) :
    (s.resolveWithin depth visiting value).KeptBy (s.resolveWithin depth more value) := by
  induction depth generalizing visiting more value with
  | zero =>
      intro text impossible
      cases impossible
  | succ depth inductionHypothesis =>
      refine Template.expand_keptBy (fun reference behind => ?_) (fun reference member => ?_) _ _ _
      · have withinToo : reference :: more ⊆ key :: reference :: visiting := by
          intro k member
          rcases List.mem_cons.mp member with rfl | earlier
          · exact List.mem_cons_of_mem _ List.mem_cons_self
          · rcases List.mem_cons.mp (within earlier) with rfl | before
            · exact List.mem_cons_self
            · exact List.mem_cons_of_mem _ (List.mem_cons_of_mem _ before)
        exact inductionHypothesis (fun less below => fruitless less (Nat.lt_succ_of_lt below))
          withinToo behind
      · rcases List.mem_cons.mp (within member) with rfl | before
        · refine Or.inr ⟨raw, named, fun text found => ?_⟩
          apply fruitless depth (Nat.lt_succ_self depth) text
          exact s.resolveWithin_keptBy (Nat.le_refl depth) (List.nil_subset _) raw text found
        · exact Or.inl before

theorem resolveWithin_extendedBy {depth deeper : Nat} (enough : depth ≤ deeper)
    (visiting : List String) (value : String) :
    (s.resolveWithin depth visiting value).ExtendedBy (s.resolveWithin deeper visiting value) := by
  induction depth generalizing deeper visiting value with
  | zero =>
      intro outcome impossible
      cases impossible
  | succ depth inductionHypothesis =>
      cases deeper with
      | zero => exact absurd enough (Nat.not_succ_le_zero depth)
      | succ deeper =>
          refine Template.expand_extendedBy (fun key raw => ?_) _ _
          exact inductionHypothesis (Nat.le_of_succ_le_succ enough) (key :: visiting) raw

end Store
end PropertyBinding
