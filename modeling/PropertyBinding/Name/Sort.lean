import PropertyBinding.Name.Basic

/-!
# Sorting names

Names are put in order by their keys.  Different spellings of one name stay in the
order in which they are given, so that the first one can be kept for all of them.
-/

namespace PropertyBinding
namespace Name

def sort (names : List Name) : List Name :=
  names.mergeSort fun a b => !decide (b < a)

/-- The names that differ from the one before, where `previous` stands before the
first. -/
def distinctAfter (previous : Name) : List Name → List Name
  | [] => []
  | n :: rest => if previous.Same n then distinctAfter n rest else n :: distinctAfter n rest

/-- The first of each run of spellings of one name. -/
def distinct : List Name → List Name
  | [] => []
  | n :: rest => n :: distinctAfter n rest

end Name
end PropertyBinding
