import PropertyBinding.Name.Basic

/-!
# Properties

A property is a text value under a name.  It remembers its origin, the source it
was taken from and its key there, exactly as the source spells it, so that a
report can show users what they wrote.
-/

namespace PropertyBinding

/-- Where a value came from. -/
structure Origin where
  source : String
  key : String
deriving DecidableEq, Repr

instance : ToString Origin :=
  ⟨fun o => "\"" ++ o.key ++ "\" from property source \"" ++ o.source ++ "\""⟩

/-- A value together with its name and its origin. -/
structure Property where
  name : Name
  value : String
  origin : Origin
deriving DecidableEq, Repr

end PropertyBinding
