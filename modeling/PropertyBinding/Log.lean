/-!
# Log entries

What the library tells about its work.  An entry has a level, a message and named
details.
-/

namespace PropertyBinding

/-- How much a log entry matters. -/
inductive Level where
  | trace
  | debug
  | error
deriving DecidableEq, Repr

def Level.label : Level → String
  | trace => "TRACE"
  | debug => "DEBUG"
  | error => "ERROR"

/-- A detail of a log entry. -/
inductive Detail where
  | text (s : String)
  | count (n : Nat)
  | truth (b : Bool)
deriving DecidableEq, Repr

/-- A log entry. -/
structure LogEntry where
  level : Level
  message : String
  details : List (String × Detail)
deriving DecidableEq, Repr

end PropertyBinding
