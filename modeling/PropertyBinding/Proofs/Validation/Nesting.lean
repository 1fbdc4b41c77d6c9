import PropertyBinding.Validation.Basic
import PropertyBinding.Text.Cut
import PropertyBinding.Proofs.Tree.Traversal

/-!
# Validations within validations

A validation is a tree: its leaves are rejections, and a value inside another is validated by
steps of its own.  Each level collects the errors of the levels below it and puts its field in
front of their paths, so an error from deep inside has been rewritten as often as there are
values around it.

Nothing of it shows but the path.  The errors of a validation traverse its rejections depth
first, one for each, and the path of a field is the fields around it and its own, with dots
between them.  Two levels therefore come to one, if its field is the two fields with a dot between.
-/

namespace PropertyBinding

/-- The error as the value around some fields reports it, each inside the one before. -/
def ValidationError.within (fields : List String) : ValidationError → ValidationError
  | field error => field { error with field := Text.join "." (fields ++ [error.field]) }
  | object message => object message

namespace Step

/-- The error that a step reports unless it goes into a value. -/
def rejection? : Step → Option ValidationError
  | reject message => some (.object message)
  | rejectObject => some (.object ValidationError.objectMessage)
  | rejectNull field message => some (.field ⟨field, none, message⟩)
  | rejectValue field value message => some (.field ⟨field, some value, message⟩)
  | nested _ _ => none

/-- At an address in some steps there is a rejection with this error, in a value that stands in
some fields, each inside the one before. -/
inductive RejectsAt : List Step → List Nat → List String → ValidationError → Prop
  | here {steps : List Step} {i : Nat} {step : Step} {error : ValidationError}
      (listed : steps[i]? = some step) (rejects : step.rejection? = some error) :
      RejectsAt steps [i] [] error
  | nested {steps inner : List Step} {i : Nat} {address : List Nat} {field : String}
      {fields : List String} {error : ValidationError}
      (listed : steps[i]? = some (.nested field inner))
      (rejects : RejectsAt inner address fields error) :
      RejectsAt steps (i :: address) (field :: fields) error

variable {steps inner : List Step} {step : Step} {address : List Nat} {field : String}
  {fields : List String} {error reported : ValidationError}

/-! ## One level -/

theorem errors_of_rejection? (rejects : step.rejection? = some error) : step.errors = [error] := by
  cases step with
  | nested field inner => cases rejects
  | _ => exact congrArg (· :: []) (Option.some.inj rejects)

theorem within_nil (error : ValidationError) : error.within [] = error := by
  cases error with
  | field error => simp [ValidationError.within, Text.join]
  | object message => rfl

/-- A value that stands in a field puts the field in front of the fields inside. -/
theorem inField_within (field : String) (fields : List String) (error : ValidationError) :
    (error.within fields).inField field = error.within (field :: fields) := by
  cases error with
  | object message => rfl
  | field error =>
      have joined : Text.join "." (field :: fields ++ [error.field]) =
          field ++ "." ++ Text.join "." (fields ++ [error.field]) := by
        cases fields <;> exact String.intercalate_cons_cons
      rw [ValidationError.within, ValidationError.inField, ValidationError.within, joined]

theorem allErrors_eq (steps : List Step) :
    allErrors steps = steps.zipIdx.flatMap fun branch => branch.1.errors := by
  have each : allErrors steps = steps.flatMap errors := by
    induction steps with
    | nil => rfl
    | cons step steps inductionHypothesis =>
        rw [allErrors, inductionHypothesis, List.flatMap_cons]
  calc allErrors steps = (steps.zipIdx.map Prod.fst).flatMap errors := by
        rw [each, List.zipIdx_map_fst]
    _ = _ := List.flatMap_map Prod.fst errors steps.zipIdx

/-! ## All levels -/

/-- What one step reports: its own rejection, or a rejection in the value that it goes into. -/
def Reported (step : Step) (address : List Nat) (reported : ValidationError) : Prop :=
  (address = [] ∧ step.rejection? = some reported) ∨
    ∃ field inner fields error, step = nested field inner ∧
      RejectsAt inner address fields error ∧ reported = error.within (field :: fields)

theorem exists_rejectsAt_iff :
    (∃ fields error, RejectsAt steps address fields error ∧ reported = error.within fields) ↔
      ∃ i step rest, steps[i]? = some step ∧ address = i :: rest ∧ step.Reported rest reported := by
  constructor
  · rintro ⟨fields, error, rejects, rfl⟩
    cases rejects with
    | here listed rejects => exact ⟨_, _, [], listed, rfl, .inl ⟨rfl, by rwa [within_nil]⟩⟩
    | nested listed rejects => exact ⟨_, _, _, listed, rfl, .inr ⟨_, _, _, _, rfl, rejects, rfl⟩⟩
  · rintro ⟨i, step, rest, listed, rfl,
      ⟨rfl, rejects⟩ | ⟨field, inner, fields, error, rfl, rejects, rfl⟩⟩
    · exact ⟨[], reported, .here listed rejects, (within_nil reported).symm⟩
    · exact ⟨field :: fields, error, .nested listed rejects, rfl⟩

/-- The errors of some steps are those of their rejections, depth first. -/
theorem traverses_allErrors (steps : List Step) :
    Traverses (fun address reported =>
      ∃ fields error, RejectsAt steps address fields error ∧ reported = error.within fields)
      (allErrors steps) := by
  rw [allErrors_eq]
  refine (Traverses.branches steps (fun _ => Reported) (fun _ => errors)
    fun i step listed => ?_).congr fun address reported => exists_rejectsAt_iff.symm
  cases own : step.rejection? with
  | some error =>
      rw [errors_of_rejection? own]
      refine (Traverses.leaf error).congr fun address reported => ?_
      constructor
      · rintro ⟨rfl, rfl⟩
        exact .inl ⟨rfl, own⟩
      · rintro (⟨rfl, same⟩ | ⟨field, inner, _, _, rfl, _⟩)
        · exact ⟨rfl, Option.some.inj (same.symm.trans own)⟩
        · cases own
  | none =>
      cases step with
      | nested field inner =>
          have smaller := List.sizeOf_lt_of_mem (List.mem_of_getElem? listed)
          rw [errors]
          have inside := (traverses_allErrors inner).map (·.inField field)
          refine inside.congr fun address reported => ?_
          constructor
          · rintro ⟨_, ⟨fields, error, rejects, rfl⟩, rfl⟩
            have deeper := inField_within field fields error
            exact .inr ⟨field, inner, fields, error, rfl, rejects, deeper⟩
          · rintro (⟨_, impossible⟩ | ⟨_, _, fields, error, same, rejects, rfl⟩)
            · cases impossible
            · cases same
              exact ⟨_, ⟨fields, error, rejects, rfl⟩, (inField_within field fields error).symm⟩
      | _ => cases own
termination_by sizeOf steps
decreasing_by
  simp only [nested.sizeOf_spec] at smaller
  omega

/-- Two levels come to one. -/
theorem errors_nested_nested (outer field : String) (steps : List Step) :
    (nested outer [nested field steps]).errors = (nested (outer ++ "." ++ field) steps).errors := by
  have levels (error : ValidationError) :
      (error.inField field).inField outer = error.inField (outer ++ "." ++ field) := by
    cases error with
    | field error => simp only [ValidationError.inField, String.append_assoc]
    | object message => rfl
  rw [errors, allErrors, allErrors, List.append_nil, errors, errors, List.map_map]
  exact List.map_congr_left fun error _ => levels error

/-- The errors of a validation are those of its rejections, one for each and depth first: the
path of a field is the fields around it and its own with dots between them, and nothing else
changes.  A value that may be absent is validated as any other if it is there, and else there is
nothing to reject.  What stands in two fields, one in the other, is reported as from the one field
that they make up. -/
theorem allErrors_traverses (steps : List Step) :
    Traverses (fun address reported =>
      ∃ fields error, RejectsAt steps address fields error ∧ reported = error.within fields)
      (allErrors steps) ∧
    (∀ field, (nestedOption field (some steps)).errors = (nested field steps).errors ∧
      (nestedOption field none).errors = []) ∧
    ∀ outer field,
      (nested outer [nested field steps]).errors = (nested (outer ++ "." ++ field) steps).errors :=
  ⟨traverses_allErrors steps, fun _ => ⟨rfl, rfl⟩, fun outer field =>
    errors_nested_nested outer field steps⟩

end Step
end PropertyBinding
