import PropertyBinding.Sample.Types
import PropertyBinding.Validation.Basic

/-!
# Rules of the sample types

What the sample application demands of its values beyond their types.  One of the
types takes its rules from the properties themselves.
-/

namespace PropertyBinding
namespace Sample

/-- The number in a field, or zero. -/
def wholeIn (v : Value) (label : String) : Int :=
  match v.field? label with
  | some (.whole _ n) => n
  | some (.present (.whole _ n)) => n
  | _ => 0

def isPresent (v : Value) (label : String) : Bool :=
  match v.field? label with
  | some .absent | none => false
  | _ => true

/-- The texts in a field that is a list of texts. -/
def textsIn (v : Value) (label : String) : List String :=
  match v.field? label with
  | some (.list items) => items.filterMap fun
    | .text s => some s
    | _ => none
  | _ => []

/-- The entries of a field that is a map of texts. -/
def entriesIn (v : Value) (label : String) : List (String × String) :=
  match v.field? label with
  | some (.entries entries) => entries.filterMap fun
    | (.text key, .text s) => some (key, s)
    | _ => none
  | _ => []

def notNull (v : Value) (label : String) : List Step :=
  if isPresent v label then [] else [.rejectNull label "may not be null"]

/-- A field that has to be at least five. -/
def atLeastFive (v : Value) (label : String) : List Step :=
  let n := wholeIn v label
  if n < 5 then [.rejectValue label (toString n) "at least five"] else []

/-- Two fields, of which the first may not exceed the second. -/
def ordered (v : Value) (low high : String) : List Step :=
  let a := wholeIn v low
  let b := wholeIn v high
  if isPresent v low && b < a then
    [.reject (low ++ " " ++ toString a ++ " exceeds " ++ high ++ " " ++ toString b)]
  else []

theorem sizeOf_field? {v w : Value} {label : String} (h : v.field? label = some w) :
    sizeOf w < sizeOf v := by
  cases v with
  | record fields =>
    obtain ⟨entry, found, rfl⟩ := Option.map_eq_some_iff.mp h
    have smaller := List.sizeOf_lt_of_mem (List.mem_of_find?_eq_some found)
    obtain ⟨name, value⟩ := entry
    simp only [Prod.mk.sizeOf_spec, Value.record.sizeOf_spec] at smaller ⊢
    omega
  | _ => cases h

/-- The rules that a scripted value states about itself, and those of the value
nested in it. -/
def scriptedRules (v : Value) : List Step :=
  (textsIn v "nulls").map (fun name => .rejectNull name "may not be null") ++
    (entriesIn v "values").map (fun (name, s) => .rejectValue name s ("rejected " ++ name)) ++
    (textsIn v "objects").map (fun message =>
      if message = "" then .rejectObject else .reject message) ++
    match _nested : v.field? "nested" with
    | some (.present inner) => [.nestedOption "nested" (some (scriptedRules inner))]
    | _ => [.nestedOption "nested" none]
termination_by sizeOf v
decreasing_by
  have smaller := sizeOf_field? _nested
  simp only [Value.present.sizeOf_spec] at smaller
  omega

def Kind.rules : Kind → Value → List Step
  | fieldProps, v =>
    notNull v "foo" ++ atLeastFive v "value" ++
      [.nested "nested" (((v.field? "nested").map fun inner => notNull inner "bar").getD [])]
  | nestedProps, v => notNull v "bar"
  | objectProps, _ => [.rejectObject]
  | limits, v => atLeastFive v "max" ++ ordered v "min" "max"
  | scripted, v => scriptedRules v
  | _, _ => []

/-- The rules of a target.  An option has those of its value. -/
def rules : SampleTarget → Value → List Step
  | .record kind, v => kind.rules v
  | .option target, .present v => rules target v
  | _, _ => []

end Sample
end PropertyBinding
