/-!
# Cutting texts

A text is cut at every occurrence of a separator, from left to right, and the
pieces between the cuts are kept, empty ones included.  There is always one
piece more than there are cuts, so joining the pieces with the separator gives
the text back.
-/

namespace PropertyBinding
namespace Text

/-- The rest of `cs` after `lead`, if it starts with it. -/
def afterLead [DecidableEq α] : List α → List α → Option (List α)
  | [], cs => some cs
  | _ :: _, [] => none
  | a :: lead, c :: cs => if a = c then afterLead lead cs else none

theorem afterLead_eq_some [DecidableEq α] {lead cs rest : List α}
    (h : afterLead lead cs = some rest) : cs = lead ++ rest := by
  induction lead generalizing cs with
  | nil => simpa [afterLead] using h
  | cons a lead ih =>
    cases cs with
    | nil => simp [afterLead] at h
    | cons c cs =>
      by_cases same : a = c
      · simp only [afterLead, same, if_true] at h
        simp [same, ih h]
      · simp [afterLead, same] at h

/-- Put a character in front of the first piece. -/
def consFirst (c : α) : List (List α) → List (List α)
  | [] => [[c]]
  | piece :: pieces => (c :: piece) :: pieces

/-- The pieces of a text between the occurrences of one character. -/
def cutAt [DecidableEq α] (separator : α) : List α → List (List α)
  | [] => [[]]
  | c :: cs =>
    if c = separator then [] :: cutAt separator cs
    else consFirst c (cutAt separator cs)

/-- The pieces of a text between the occurrences of a separator, which are
looked for from the left and do not overlap.  The number of characters of a
matched separator still to be passed over is `skip`. -/
def cutAtEach.go [DecidableEq α] (separator : List α) : (skip : Nat) → List α → List (List α)
  | _, [] => [[]]
  | skip + 1, _ :: cs => cutAtEach.go separator skip cs
  | 0, c :: cs =>
    match afterLead separator (c :: cs) with
    | some _ => [] :: cutAtEach.go separator (separator.length - 1) cs
    | none => consFirst c (cutAtEach.go separator 0 cs)

/-- The pieces of a text between the occurrences of a non-empty separator. -/
def cutAtEach [DecidableEq α] (separator cs : List α) : List (List α) :=
  cutAtEach.go separator 0 cs

/-- Join pieces, with a separator between each two. -/
def join (separator : String) (pieces : List String) : String :=
  separator.intercalate pieces

end Text
end PropertyBinding
