import PropertyBinding.Placeholder.Body

/-!
# Templates

A value is read once as a template: characters that stand for themselves, `$$`
for a dollar sign, and placeholders whose keys and fallbacks are templates in
turn.  Nothing is lost in reading, so the text of a template is the text it was
read from.
-/

namespace PropertyBinding

/-- A value with its placeholders found. -/
inductive Template where
  | done
  | literal (c : Char) (rest : Template)
  | escaped (rest : Template)
  | reference (key rest : Template)
  | referenceOr (key fallback rest : Template)
  | unclosed (body : List Char)
deriving DecidableEq, Repr

namespace Template

open Placeholder

def source : Template → List Char
  | done => []
  | literal c rest => c :: rest.source
  | escaped rest => '$' :: '$' :: rest.source
  | reference key rest => '$' :: '{' :: key.source ++ '}' :: rest.source
  | referenceOr key fallback rest =>
    '$' :: '{' :: key.source ++ ':' :: fallback.source ++ '}' :: rest.source
  | unclosed body => '$' :: '{' :: body

def text (t : Template) : String :=
  String.ofList t.source

/-- Read a template.  A dollar sign before any character but `$` and an opening
brace stands for itself. -/
def ofChars : List Char → Template
  | [] => done
  | '$' :: '$' :: cs => escaped (ofChars cs)
  | '$' :: '{' :: cs =>
    match _cut : cutBody cs with
    | none => unclosed cs
    | some (body, rest) =>
      match _split : splitFallback body with
      | (key, none) => reference (ofChars key) (ofChars rest)
      | (key, some fallback) => referenceOr (ofChars key) (ofChars fallback) (ofChars rest)
  | c :: cs => literal c (ofChars cs)
termination_by cs => cs.length
decreasing_by
  all_goals try (simp only [List.length_cons]; omega)
  all_goals
    have whole := congrArg List.length (eq_of_cutBody _cut)
    have parts := congrArg List.length (joinFallback_splitFallback body)
    simp only [_split, joinFallback, List.length_append, List.length_cons] at whole parts ⊢
    omega

def ofText (s : String) : Template :=
  ofChars s.toList

end Template
end PropertyBinding
