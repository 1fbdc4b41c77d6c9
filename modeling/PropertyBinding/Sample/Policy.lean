import PropertyBinding.Bind.Handler

/-!
# Scripted policies

What an observer of the sample application decides is scripted by the names of the
nodes it is about.  A node is picked out by its name as it is shown.
-/

namespace PropertyBinding
namespace Sample

/-- The names of the nodes that a policy vetoes, rejects, rejects without saying
where, and whose errors it replaces. -/
structure Script where
  vetoes : List String
  rejects : List String
  rejectsUnlocated : List String
  replaces : List String
deriving DecidableEq, Repr

namespace Script

/-- Whether a visit is to one of the nodes with some names. -/
def picks (names : List String) (visit : Visit) : Bool :=
  names.contains (toString visit.name)

/-- The error with which a bound node is rejected. -/
def rejection? (s : Script) (visit : Visit) : Option BindError :=
  if picks s.rejects visit then
    some (.here visit.name "finish" none (.other "finish rejected"))
  else if picks s.rejectsUnlocated visit then
    some (.unlocated (.other "finish rejected without a name"))
  else none

/-- The error that takes the place of another. -/
def replacement? (s : Script) (visit : Visit) (error : BindError) : Option BindError :=
  if picks s.replaces visit then
    some (.here visit.name "replaced" none (.other ("replaced " ++ error.message)))
  else none

def policy (s : Script) : Handler.Policy where
  vetoes := picks s.vetoes
  replaces := s.replacement?
  rejects := s.rejection?

end Script
end Sample
end PropertyBinding
