import PropertyBinding.Text.CaseTable

/-!
# Lower case

The lower-case form of a text.  Each character is mapped on its own, with one
exception: the capital sigma becomes `ς` at the end of a word and `σ` elsewhere,
so the letters on both sides of it are consulted.  The dotted capital I is the
one character whose small form has two characters.
-/

namespace PropertyBinding
namespace Text

/-- The small form of a character that needs no look at its neighbours. -/
def smallForm (c : Char) : List Char :=
  if c = 'İ' then
    ['i', '\u0307']
  else
    match caseRuns.find? (·.holds c.toNat) with
    | some run => [Char.ofNat (run.smallOf c.toNat)]
    | none => [c]

/-- Whether the nearest character that is not passed over is a cased letter. -/
def meetsCased (cs : List Char) : Bool :=
  match cs.dropWhile isCaseIgnorable with
  | c :: _ => isCased c
  | [] => false

/-- Whether a sigma ends its word: a letter stands before it and none after it.
The text before the sigma is given nearest character first. -/
def endsWord (before after : List Char) : Bool :=
  meetsCased before && !meetsCased after

/-- Lower-case `cs`, which follows the characters `before`, nearest first. -/
def lowerAfter (before : List Char) : List Char → List Char
  | [] => []
  | c :: rest =>
    let small :=
      if c = 'Σ' then [if endsWord before rest then 'ς' else 'σ'] else smallForm c
    small ++ lowerAfter (c :: before) rest

/-- The lower-case form of a sequence of characters. -/
def lowerChars (cs : List Char) : List Char :=
  lowerAfter [] cs

def lower (s : String) : String :=
  String.ofList (lowerChars s.toList)

end Text
end PropertyBinding
