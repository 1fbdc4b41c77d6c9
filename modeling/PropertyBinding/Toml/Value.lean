import PropertyBinding.Toml.Datetime
import PropertyBinding.Number.Shortest

/-!
# Values of configuration documents

A document is a table of values, which are texts, whole numbers, floating-point
numbers, truth values, dates and times, lists, and tables in turn.  The entries
of a table are kept in the order of their keys, character by character.
-/

namespace PropertyBinding
namespace Toml

/-- A value in a document.  A floating-point number is given by the bits of its
64-bit format. -/
inductive Value where
  | text (s : String)
  | whole (n : Int)
  | float (bits : Nat)
  | truth (b : Bool)
  | datetime (d : Datetime)
  | list (items : List Value)
  | table (entries : List (String × Value))
deriving Repr

mutual

/-- Whether two values are equal. -/
def Value.equals : Value → Value → Bool
  | .text s, .text t => s == t
  | .whole n, .whole m => n == m
  | .float bits, .float others => bits == others
  | .truth b, .truth c => b == c
  | .datetime d, .datetime e => decide (d = e)
  | .list items, .list others => equalItems items others
  | .table entries, .table others => equalEntries entries others
  | _, _ => false

def equalItems : List Value → List Value → Bool
  | [], [] => true
  | v :: items, w :: others => v.equals w && equalItems items others
  | _, _ => false

def equalEntries : List (String × Value) → List (String × Value) → Bool
  | [], [] => true
  | (key, v) :: entries, (other, w) :: others =>
    key == other && v.equals w && equalEntries entries others
  | _, _ => false

end

mutual

theorem Value.equals_iff (v w : Value) : v.equals w = true ↔ v = w := by
  cases v with
  | list items => cases w <;> simp [Value.equals, equalItems_iff items]
  | table entries => cases w <;> simp [Value.equals, equalEntries_iff entries]
  | text | whole | float | truth | datetime => cases w <;> simp [Value.equals]

theorem equalItems_iff (items others : List Value) :
    equalItems items others = true ↔ items = others := by
  cases items with
  | nil => cases others <;> simp [equalItems]
  | cons v rest =>
      cases others with
      | nil => simp [equalItems]
      | cons w others => simp [equalItems, v.equals_iff w, equalItems_iff rest]

theorem equalEntries_iff (entries others : List (String × Value)) :
    equalEntries entries others = true ↔ entries = others := by
  match entries, others with
  | [], [] | [], _ :: _ | _ :: _, [] => simp [equalEntries]
  | (key, v) :: rest, (other, w) :: others =>
      simp [equalEntries, v.equals_iff w, equalEntries_iff rest, and_assoc]

end

instance : DecidableEq Value :=
  fun v w => decidable_of_iff _ (v.equals_iff w)

abbrev Entries := List (String × Value)

/-- Put an entry into the place of its key, where it replaces one with the same
key. -/
def insertEntry (key : String) (value : Value) : Entries → Entries
  | [] => [(key, value)]
  | (k, v) :: rest =>
    if key < k then (key, value) :: (k, v) :: rest
    else if k < key then (k, v) :: insertEntry key value rest
    else (key, value) :: rest

/-- The text of a value that is neither a list nor a table. -/
def Value.scalarText? : Value → Option String
  | text s => some s
  | whole n => some (toString n)
  | float bits => some (Number.BinaryFormat.double.text bits)
  | truth b => some (if b then "true" else "false")
  | datetime d => some d.text
  | list _ => none
  | table _ => none

end Toml
end PropertyBinding
