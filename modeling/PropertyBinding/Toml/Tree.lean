import PropertyBinding.Toml.Value

/-!
# Tables under construction

While a document is read, its tables are kept with a note of how they came to
be, because that decides whether they may be extended.  A table that has had a
header of its own is *stated*.  A table that only stands on the path of a header
is *implied*, and a header may still state it.  A table that stands on the path
of a dotted key is *dotted*, and only further dotted keys in the same section
extend it.  A table in braces is *closed*: neither it nor any other value is ever
extended, and a key is never given a value twice.
-/

namespace PropertyBinding
namespace Toml

/-- How a table came to be. -/
inductive TableKind where
  | stated
  | implied
  | dotted
  | closed
deriving DecidableEq, Repr

/-- What a key stands for in a table under construction: a value that is neither
a list nor a table, a list, a table, or a series of tables with headers. -/
inductive Item where
  | value (value : Value)
  | list (items : List Item)
  | table (kind : TableKind) (items : List (String × Item))
  | series (tables : List (List (String × Item)))

/-- The content of a table under construction, in order of appearance. -/
abbrev Items := List (String × Item)

namespace Items

def item? (items : Items) (key : String) : Option Item :=
  (List.find? (fun entry => entry.1 == key) items).map (·.2)

/-- Give a key an item, in the place of the one that it had. -/
def put (items : Items) (key : String) (item : Item) : Items :=
  if items.any (·.1 == key) then
    items.map fun entry => if entry.1 == key then (key, item) else entry
  else items ++ [(key, item)]

def drop (items : Items) (key : String) : Items :=
  items.filter (·.1 != key)

/-- A change of a table, which may be refused and may give something out. -/
abbrev Change (α : Type) := TableKind → Items → Option (α × Items)

/-- Change the table at the end of a path.  Missing tables on the path are added
as tables of the kind `fresh`.  A path leads through the last table of a series,
but not through a list or a closed table, and a path of dotted keys not through a
stated table. -/
def within (fresh : TableKind) (change : Change α) : (path : List String) → Change α
  | [], kind, items => change kind items
  | key :: path, _, items =>
    match items.item? key with
    | none =>
      (within fresh change path fresh []).map fun (a, inner) =>
        (a, items.put key (.table fresh inner))
    | some (.value _) => none
    | some (.list _) => none
    | some (.table kind inner) =>
      if kind = .closed ∨ fresh = .dotted ∧ kind = .stated then none
      else
        (within fresh change path kind inner).map fun (a, inner) =>
          (a, items.put key (.table kind inner))
    | some (.series tables) =>
      tables.getLast?.bind fun last =>
        (within fresh change path .stated last).map fun (a, inner) =>
          (a, items.put key (.series (tables.dropLast ++ [inner])))

/-- Give an item to a dotted key, whose last part is `key`. -/
def assign (path : List String) (key : String) (item : Item) (items : Items) : Option Items :=
  let change : Change Unit := fun kind items =>
    if kind = .dotted ↔ path = [] then none
    else if (items.item? key).isSome then none
    else some ((), items.put key item)
  (within .dotted change path .stated items).map (·.2)

/-- Make way for a table with a header of its own.  What earlier headers have
implied about it is given out, to be extended. -/
def openTable (path : List String) (key : String) (items : Items) : Option (Items × Items) :=
  let change : Change Items := fun _ items =>
    match items.item? key with
    | none => some ([], items)
    | some (.table .implied inner) => some (inner, items.drop key)
    | some _ => none
  within .implied change path .stated items

/-- Put a table with a header of its own into place. -/
def closeTable (path : List String) (key : String) (inner items : Items) : Option Items :=
  let change : Change Unit := fun _ items => some ((), items.put key (.table .stated inner))
  (within .implied change path .stated items).map (·.2)

/-- Make way for one more table of a series. -/
def openSeries (path : List String) (key : String) (items : Items) : Option Items :=
  let change : Change Unit := fun _ items =>
    match items.item? key with
    | none => some ((), items.put key (.series []))
    | some (.series _) => some ((), items)
    | some _ => none
  (within .implied change path .stated items).map (·.2)

/-- Put one more table of a series into place. -/
def closeSeries (path : List String) (key : String) (inner items : Items) : Option Items :=
  let change : Change Unit := fun _ items =>
    match items.item? key with
    | some (.series tables) => some ((), items.put key (.series (tables ++ [inner])))
    | _ => none
  (within .implied change path .stated items).map (·.2)

end Items

end Toml
end PropertyBinding
