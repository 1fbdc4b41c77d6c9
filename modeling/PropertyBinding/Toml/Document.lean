import PropertyBinding.Toml.Statement
import PropertyBinding.Toml.Finish

/-!
# Documents

Putting the statements of a document together.  Each header starts a section, to
which the keys up to the next header belong.  A section is put into its place
when it is complete, and the keys before the first header belong to the table of
the whole document.
-/

namespace PropertyBinding
namespace Toml

/-- The section being read: whose table its keys go to. -/
inductive Section where
  | top
  | table (path : Path)
  | series (path : Path)
deriving DecidableEq, Repr

/-- A document being read: the sections completed so far, the section being read
and its content. -/
structure Draft where
  items : Items
  current : Section
  content : Items

namespace Draft

def empty : Draft := ⟨[], .top, []⟩

def close (d : Draft) : Option Items :=
  match d.current with
  | .top => some d.content
  | .table p => Items.closeTable p.parents p.key d.content d.items
  | .series p => Items.closeSeries p.parents p.key d.content d.items

def add (d : Draft) : Statement → Option Draft
  | .assign p v =>
    (Items.assign p.parents p.key v d.content).map fun content => ⟨d.items, d.current, content⟩
  | .table p => do
    let (implied, items) ← Items.openTable p.parents p.key (← d.close)
    return ⟨items, .table p, implied⟩
  | .series p => do
    let items ← Items.openSeries p.parents p.key (← d.close)
    return ⟨items, .series p, []⟩

end Draft

def ofStatements (statements : List Statement) : Option Entries := do
  let draft ← statements.foldlM Draft.add Draft.empty
  (← draft.close).finish

/-- Read a document.  A text that is none gives nothing. -/
def parse (s : String) : Option Entries := do
  let (statements, _) ← Scan.statements s.toList
  ofStatements statements

end Toml
end PropertyBinding
