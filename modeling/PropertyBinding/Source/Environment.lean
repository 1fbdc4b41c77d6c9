import PropertyBinding.Property
import PropertyBinding.Text.Cut

/-!
# Environment variables

Variables become properties by their names.  With the stem `APP` and the
separator `__`, the variable `APP__SERVERS__0__HOST` becomes `servers.0.host`: stem
and separator are taken off, and the rest is cut at every separator.  A piece of
digits alone becomes a bracketed element, any other a dotted one, and so in lower
case.  With an empty stem every variable is taken.  A variable with an empty
piece, or without the stem, is left alone.
-/

namespace PropertyBinding

/-- A text that parts the pieces of a variable's name, and so is not empty. -/
structure Separator where
  chars : List Char
  nonempty : chars ≠ []

namespace Separator

/-- A text as a separator, unless it is empty. -/
def ofText? (s : String) : Option Separator :=
  if h : s.toList ≠ [] then some ⟨s.toList, h⟩ else none

def refusal : String := "separator must not be empty"

end Separator

/-- Variables and the way their names are read. -/
structure Environment where
  stem : List Char
  separator : Separator
  entries : List (String × String)

namespace Environment

/-- The name under which the environment is reported. -/
def sourceName : String := "systemEnvironment"

/-- The element for one piece of a variable's name. -/
def elementOf? (piece : List Char) : Option Element :=
  if piece.isEmpty then none
  else if piece.all Number.isDigit then some (.bracket (String.ofList piece))
  else some (.dotted (String.ofList piece))

/-- The part of a variable's name that gives the property name. -/
def pathOf? (env : Environment) (key : List Char) : Option (List Char) :=
  if env.stem.isEmpty then some key
  else (Text.afterLead env.stem key).bind (Text.afterLead env.separator.chars)

def nameOf? (env : Environment) (key : String) : Option Name := do
  let path ← env.pathOf? key.toList
  let elements ← (Text.cutAtEach env.separator.chars path).mapM elementOf?
  return ⟨elements⟩

def propertyOf? (env : Environment) (key value : String) : Option Property :=
  (env.nameOf? key).map fun name => ⟨name, value, ⟨sourceName, key⟩⟩

/-- The properties of all variables that have one. -/
def properties (env : Environment) : List Property :=
  env.entries.filterMap fun (key, value) => env.propertyOf? key value

/-- The variables that have no property. -/
def unmapped (env : Environment) : List String :=
  (env.entries.map (·.1)).filter fun key => (env.nameOf? key).isNone

end Environment
end PropertyBinding
