import PropertyBinding.Toml.Tree
import PropertyBinding.Toml.Number

/-!
# Finished tables

When all statements of a document have been put together, its tables are finished
from the outermost inwards: their entries come into the order of their keys, and
how the tables came to be is forgotten.

One key is reserved.  A table within the document that starts with it is not a
table at all but a date or time, which the text behind the key spells out.
Nothing else in such a table counts, whatever it is.  Behind another key the
reserved key is like any other, and the table of the whole document may start
with it, too.
-/

namespace PropertyBinding
namespace Toml

/-- The key that makes a table a date or time. -/
def datetimeKey : String := "$__toml_private_datetime"

/-- The item behind the reserved key, if a table starts with that key. -/
def Items.underDatetimeKey? : Items → Option Item
  | (key, item) :: _ => if key = datetimeKey then some item else none
  | [] => none

/-- The date or time that an item spells out. -/
def Item.spelledDatetime? : Item → Option Datetime
  | .value (.text s) => Datetime.ofText? s
  | _ => none

/-- The value that a table within a document stands for, given its finished
entries, which do not count in a date or time. -/
def Items.value? (items : Items) (entries : Option Entries) : Option Value :=
  match items.underDatetimeKey? with
  | some item => item.spelledDatetime?.map .datetime
  | none => entries.map .table

mutual

/-- The finished value of an item.  There is none for a table that starts with the
reserved key and does not spell out a date or time there. -/
def Item.finish : Item → Option Value
  | .value v => some v
  | .list items => (finishList items).map .list
  | .table _ items => Items.value? items (finishItems items)
  | .series tables => (finishSeries tables).map .list

def finishList : List Item → Option (List Value)
  | [] => some []
  | item :: rest => do return (← item.finish) :: (← finishList rest)

/-- The entries of a finished table, in the order of their keys. -/
def finishItems : List (String × Item) → Option Entries
  | [] => some []
  | (key, item) :: rest => do return insertEntry key (← item.finish) (← finishItems rest)

def finishSeries : List (List (String × Item)) → Option (List Value)
  | [] => some []
  | items :: rest => do
    return (← Items.value? items (finishItems items)) :: (← finishSeries rest)

end

/-- The entries of the table of a whole document. -/
def Items.finish (items : Items) : Option Entries :=
  finishItems items

end Toml
end PropertyBinding
