import PropertyBinding.Toml.Quoted
import PropertyBinding.Toml.Number
import PropertyBinding.Toml.Tree

/-!
# Statements of a document

A document is a sequence of statements: headers of tables, headers of tables in a
series, and keys with their values.  Lists may run over several lines and may end
with a comma, tables in braces may not.  Lists and tables in braces nest to a
limited depth, and a dotted key has a limited number of parts.
-/

namespace PropertyBinding
namespace Toml

/-- A key in parts, the last of which is kept apart. -/
structure Path where
  parents : List String
  key : String
deriving DecidableEq, Repr

/-- One statement. -/
inductive Statement where
  | assign (path : Path) (item : Item)
  | table (path : Path)
  | series (path : Path)

/-- Nesting and key parts stay below this limit. -/
def nestingLimit : Nat := 80

namespace Scan

def isBareKeyChar (c : Char) : Bool :=
  ('a' ≤ c && c ≤ 'z') || ('A' ≤ c && c ≤ 'Z') || Number.isDigit c || c == '-' || c == '_'

def keyPart : Scan String := do
  match ← peek with
  | some '"' => shortString
  | some '\x27' => shortString
  | _ =>
    let cs ← takeWhile isBareKeyChar
    if cs.isEmpty then failure else return String.ofList cs

/-- Take one part of a key with the blanks around it. -/
def spacedKeyPart : Scan String := do
  spaces
  let part ← keyPart
  spaces
  return part

def path : Scan Path := do
  let first ← spacedKeyPart
  let others ← many do
    if ← optional '.' then some <$> spacedKeyPart else pure none
  let parts := first :: others
  if nestingLimit ≤ parts.length then failure
  return ⟨parts.dropLast, parts.getLast?.getD ""⟩

/-- Skip blanks, comments and line breaks. -/
def blankLines : Scan Unit := do
  spaces
  let _ ← many do
    match ← peek with
    | some '#' =>
      comment
      newline
      spaces
      return some ()
    | some '\r' | some '\n' =>
      newline
      spaces
      return some ()
    | _ => return none

/-- Take the items of a list after its opening bracket, and the closing one. -/
def listRest (item : Scan Item) : Scan (List Item) := do
  let items ← many do
    blankLines
    if (← peek) = some ']' then return none
    let v ← item
    blankLines
    if (← peek) = some ']' then return some v
    char ','
    return some v
  char ']'
  return items

/-- Take a key, its value and the blanks behind it, in braces. -/
def braceEntry (item : Scan Item) : Scan (Path × Item) := do
  let p ← path
  char '='
  spaces
  let v ← item
  spaces
  return (p, v)

/-- Take the entries of a table in braces after its opening brace, and the
closing one. -/
def braceRest (item : Scan Item) : Scan (List (Path × Item)) := do
  spaces
  if ← optional '\x7d' then return []
  let first ← braceEntry item
  let others ← many do
    if ← optional ',' then some <$> braceEntry item else pure none
  char '\x7d'
  return first :: others

/-- Put the entries of a table in braces together. -/
def braceTable (entries : List (Path × Item)) : Scan Item := do
  match entries.foldlM (fun items (p, v) => Items.assign p.parents p.key v items) [] with
  | some items => return .table .closed items
  | none => failure

/-- Take a value that is neither a list nor a table. -/
def scalar : Scan Value := do
  match ← peek with
  | some '"' => .text <$> anyString
  | some '\x27' => .text <$> anyString
  | some 't' =>
    word "true"
    return .truth true
  | some 'f' =>
    word "false"
    return .truth false
  | _ => (.datetime <$> datetime) <|> anyNumber

/-- Take a value in which lists and tables nest to at most the given depth. -/
def value : (depth : Nat) → Scan Item
  | 0 => .value <$> scalar
  | depth + 1 => do
    match ← peek with
    | some '[' =>
      let _ ← next
      .list <$> listRest (value depth)
    | some '\x7b' =>
      let _ ← next
      braceTable (← braceRest (value depth))
    | _ => .value <$> scalar

/-- Take a key and its value, to the end of the line. -/
def assignment : Scan Statement := do
  let p ← path
  char '='
  spaces
  let v ← value (nestingLimit - 1)
  lineRest
  return .assign p v

/-- Take a header after its first bracket, to the end of the line. -/
def header : Scan Statement := do
  if ← optional '[' then
    let p ← path
    word "]]"
    lineRest
    return .series p
  else
    let p ← path
    char ']'
    lineRest
    return .table p

/-- Take a statement or a line without one.  There is nothing to take at the end
of the text. -/
def line : Scan (Option (Option Statement)) := do
  spaces
  match ← peek with
  | none => return none
  | some '#' =>
    comment
    lineEnd
    return some none
  | some '\r' | some '\n' =>
    newline
    return some none
  | some '[' =>
    let _ ← next
    return some (some (← header))
  | _ => return some (some (← assignment))

def statements : Scan (List Statement) := do
  let _ ← optional '\ufeff'
  return (← many line).filterMap id

end Scan
end Toml
end PropertyBinding
