import PropertyBinding.Property

/-!
# Visits

Binding visits the nodes of a target one by one.  A visit says which node it is,
by the name whose properties are bound and by the place in its owner that the
value is for, and how far binding has come: how deep the node lies, which nodes
are being bound around it, and which properties have been used.
-/

namespace PropertyBinding

/-- The place in its owner that a value is for. -/
inductive Member where
  | root
  | field (name : String)
  | element (position : Nat)
  | entry (key : String)
deriving DecidableEq, Repr

/-- What a node is bound into.  The owner of the root is its own type.  The root
may have an existing value to fall back on. -/
structure Slot where
  owner : String
  member : Member
  existing : Bool
deriving DecidableEq, Repr

namespace Slot

def root (type : String) (existing : Bool) : Slot := ⟨type, .root, existing⟩

def field (owner name : String) : Slot := ⟨owner, .field name, false⟩

def element (position : Nat) : Slot := ⟨"sequence", .element position, false⟩

def entry (key : String) : Slot := ⟨"map", .entry key, false⟩

end Slot

/-- A visit of a node.

The depth of the root is zero, and it grows by one from a record, sequence or map
to its members.  The names are those of the nodes being bound, from the root
inwards, and `bound` holds the properties used so far. -/
structure Visit where
  name : Name
  slot : Slot
  rootType : String
  depth : Nat
  names : List Name
  bound : List Property
deriving DecidableEq, Repr

end PropertyBinding
