import PropertyBinding.Store.Layer

/-!
# Stores

A store is a pile of layers.  A layer added later takes precedence over those
added before it, so a look-up goes from the last layer to the first.  The layer
that holds something at or below a name can be taken out as a store of its own:
lists are read from it, because a list is never put together from several
sources.
-/

namespace PropertyBinding

/-- Layers in increasing order of precedence. -/
structure Store where
  layers : List Layer

namespace Store

def empty : Store := ⟨[]⟩

def push (s : Store) (source : String) (properties : List Property) : Store :=
  ⟨s.layers ++ [Layer.ofList source properties]⟩

/-- The names of the sources, lowest precedence first. -/
def sources (s : Store) : List String :=
  s.layers.map (·.source)

def isEmpty (s : Store) : Bool :=
  s.layers.all (·.properties.isEmpty)

/-- The effective property with a name. -/
def get? (s : Store) (n : Name) : Option Property :=
  s.layers.reverse.findSome? (·.get? n)

/-- Whether some layer has a value strictly below a name. -/
def containsBelow (s : Store) (n : Name) : Bool :=
  s.layers.any fun l => !(l.below n).isEmpty

/-- Whether some layer has a value at a name or below it. -/
def contains (s : Store) (n : Name) : Bool :=
  s.layers.any (·.contains n)

/-- The effective properties strictly below a name, in name order. -/
def below (s : Store) (n : Name) : List Property :=
  (s.layers.flatMap (·.below n)).foldl (fun merged p => insertProperty p merged) []

/-- Put a name into its place, unless it is there already. -/
def insertName (n : Name) : List Name → List Name
  | [] => [n]
  | m :: rest =>
    if n < m then n :: m :: rest
    else if m < n then m :: insertName n rest
    else m :: rest

/-- The immediate children of a name, in name order.  Each is spelled as in the
lowest layer that has something at or below it. -/
def children (s : Store) (n : Name) : List Name :=
  (s.layers.flatMap (·.below n)).foldl (fun names p => insertName (p.name.take (n.size + 1)) names)
    []

/-- The highest layer with a value at a name or below it. -/
def layerOf? (s : Store) (n : Name) : Option Layer :=
  s.layers.reverse.find? (·.contains n)

def single (l : Layer) : Store := ⟨[l]⟩

/-- The highest layer with a value at a name or below it, as a store. -/
def sourceOf? (s : Store) (n : Name) : Option Store :=
  (s.layerOf? n).map single

/-- All properties of all layers, in increasing order of precedence. -/
def properties (s : Store) : List Property :=
  s.layers.flatMap (·.properties)

/-- The number of elements of the longest name. -/
def height (s : Store) : Nat :=
  s.properties.foldl (fun longest p => max longest p.name.size) 0

end Store
end PropertyBinding
