import PropertyBinding.Property
import PropertyBinding.Toml.Value

/-!
# Flattening documents

A document becomes a list of properties, one for each value in it that is neither
a list nor a table.  The property's name is the path to the value: a key for each
table on the way and a position for each list.
-/

namespace PropertyBinding

mutual

/-- The texts at or below a name, with their names. -/
def flatten (name : Name) : Toml.Value → List (Name × String)
  | .table entries => flattenEntries name entries
  | .list items => flattenItems name 0 items
  | .text s => [(name, s)]
  | .whole n => [(name, toString n)]
  | .float bits => [(name, Number.BinaryFormat.double.text bits)]
  | .truth b => [(name, if b then "true" else "false")]
  | .datetime d => [(name, d.text)]

/-- The texts in the entries of a table. -/
def flattenEntries (name : Name) : List (String × Toml.Value) → List (Name × String)
  | [] => []
  | (key, value) :: rest => flatten (name.child key) value ++ flattenEntries name rest

/-- The texts in the items of a list from a position on. -/
def flattenItems (name : Name) (position : Nat) : List Toml.Value → List (Name × String)
  | [] => []
  | item :: rest =>
    flatten (name.childAt position) item ++ flattenItems name (position + 1) rest

end

/-- The properties of a document.  Each refers to its place by its name. -/
def documentProperties (source : String) (entries : Toml.Entries) : List Property :=
  (flattenEntries Name.root entries).map fun (name, value) =>
    ⟨name, value, ⟨source, toString name⟩⟩

end PropertyBinding
