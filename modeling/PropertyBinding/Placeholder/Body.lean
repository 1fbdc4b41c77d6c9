/-!
# Bodies of placeholders

A placeholder `${key}` or `${key:fallback}` ends at the brace that closes it, and
braces inside its body may nest.  The fallback starts after the first colon that
stands outside all inner braces, so that a key may itself contain a placeholder
with a fallback.
-/

namespace PropertyBinding
namespace Placeholder

/-- Cut the body off a text that follows an opening brace, where `inner` braces
of the body are still open.  The closing brace is dropped.  There is no body if
the closing brace is missing. -/
def cutBodyWithin (inner : Nat) : List Char → Option (List Char × List Char)
  | [] => none
  | c :: cs =>
    if c = '}' then
      match inner with
      | 0 => some ([], cs)
      | n + 1 => (cutBodyWithin n cs).map fun (body, rest) => (c :: body, rest)
    else
      (cutBodyWithin (if c = '{' then inner + 1 else inner) cs).map
        fun (body, rest) => (c :: body, rest)

/-- Cut the body of a placeholder off the text that follows its opening brace. -/
def cutBody (cs : List Char) : Option (List Char × List Char) :=
  cutBodyWithin 0 cs

/-- The body, the brace and the rest are the text. -/
theorem eq_of_cutBodyWithin {inner : Nat} {cs body rest : List Char}
    (h : cutBodyWithin inner cs = some (body, rest)) : cs = body ++ '}' :: rest := by
  induction cs generalizing inner body with
  | nil => simp [cutBodyWithin] at h
  | cons c cs ih =>
    unfold cutBodyWithin at h
    split at h
    · rename_i brace
      split at h
      · cases h
        simp [brace]
      · obtain ⟨⟨part, tail⟩, cut, same⟩ := Option.map_eq_some_iff.mp h
        cases same
        simp [ih cut]
    · obtain ⟨⟨part, tail⟩, cut, same⟩ := Option.map_eq_some_iff.mp h
      cases same
      simp [ih cut]

theorem eq_of_cutBody {cs body rest : List Char} (h : cutBody cs = some (body, rest)) :
    cs = body ++ '}' :: rest :=
  eq_of_cutBodyWithin h

/-- Split a body into key and fallback, where `depth` is the number of braces
opened less the number closed so far. -/
def splitFallbackWithin (depth : Int) : List Char → List Char × Option (List Char)
  | [] => ([], none)
  | c :: cs =>
    if c = ':' ∧ depth = 0 then ([], some cs)
    else
      let depth := if c = '{' then depth + 1 else if c = '}' then depth - 1 else depth
      let (key, fallback) := splitFallbackWithin depth cs
      (c :: key, fallback)

/-- Split a body at the first colon outside all braces. -/
def splitFallback (body : List Char) : List Char × Option (List Char) :=
  splitFallbackWithin 0 body

/-- Key and fallback, if any, with the colon between them. -/
def joinFallback (key : List Char) : Option (List Char) → List Char
  | none => key
  | some fallback => key ++ ':' :: fallback

theorem joinFallback_splitFallbackWithin (depth : Int) (body : List Char) :
    joinFallback (splitFallbackWithin depth body).1 (splitFallbackWithin depth body).2 = body := by
  induction body generalizing depth with
  | nil => rfl
  | cons c cs ih =>
    unfold splitFallbackWithin
    split
    · rename_i colon
      simp [joinFallback, colon.1]
    · specialize ih (if c = '{' then depth + 1 else if c = '}' then depth - 1 else depth)
      revert ih
      cases (splitFallbackWithin
          (if c = '{' then depth + 1 else if c = '}' then depth - 1 else depth) cs).2 <;>
        simp +contextual [joinFallback]

/-- Key and fallback put together are the body. -/
theorem joinFallback_splitFallback (body : List Char) :
    joinFallback (splitFallback body).1 (splitFallback body).2 = body :=
  joinFallback_splitFallbackWithin 0 body

theorem joinFallback_of_splitFallback {body key : List Char} {fallback : Option (List Char)}
    (split : splitFallback body = (key, fallback)) : joinFallback key fallback = body := by
  rw [← joinFallback_splitFallback body, split]

end Placeholder
end PropertyBinding
