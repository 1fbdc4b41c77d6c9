import PropertyBinding.Text.LowerCase
import PropertyBinding.Number.Whole

/-!
# Elements of property names

A property name is a path of elements.  An element is written either between
dots, and is then kept in lower case, or between brackets, and is then kept as
it stands.  Elements are compared by their *relaxed* text, in which a dotted
element has lost its hyphens and underscores, so that `list-value`, `list_value`
and `listValue` are one element.
-/

namespace PropertyBinding

/-- One element of a property name. -/
structure Element where
  text : String
  bracketed : Bool
deriving DecidableEq, Repr

namespace Element

/-- The element written between dots as `written`. -/
def dotted (written : String) : Element :=
  ⟨Text.lower written, false⟩

/-- The element written between brackets as `written`. -/
def bracket (written : String) : Element :=
  ⟨written, true⟩

/-- A character that separates words and that comparison ignores. -/
def isWordBreak (c : Char) : Bool :=
  c == '-' || c == '_'

/-- The text by which the element is compared. -/
def relaxed (e : Element) : String :=
  if e.bracketed then e.text
  else String.ofList (e.text.toList.filter fun c => !isWordBreak c)

/-- Positions are counted below this bound. -/
def positionBound : Nat := Nat.pow 2 64

/-- The position that the element denotes: its text consists of digits and the
number is below the bound.  A dotted element may denote a position as well as a
bracketed one. -/
def position? (e : Element) : Option Nat :=
  if Number.allDigits e.text.toList then
    let n := Number.ofDigits e.text.toList
    if n < positionBound then some n else none
  else none

/-- A character that ends an element written between dots, or might. -/
def isDelimiter (c : Char) : Bool :=
  c == '.' || c == '[' || c == ']'

/-- The element for a single key, whatever its characters.  Brackets are used
when the key could not stand between dots. -/
def ofKey (key : String) : Element :=
  if key.toList.any isDelimiter then bracket key else dotted key

def ofPosition (n : Nat) : Element :=
  bracket (toString n)

/-- Whether the element is shown in brackets. -/
def showsBrackets (e : Element) : Bool :=
  e.bracketed || e.text.toList.any isDelimiter

/-- The element as it is shown at the front of a name, or behind other elements. -/
def shown (e : Element) (front : Bool) : List Char :=
  if e.showsBrackets then '[' :: e.text.toList ++ [']']
  else if front then e.text.toList
  else '.' :: e.text.toList

end Element
end PropertyBinding
