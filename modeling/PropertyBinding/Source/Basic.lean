import PropertyBinding.Source.Environment
import PropertyBinding.Source.File
import PropertyBinding.Source.Flatten
import PropertyBinding.Toml.Document
import PropertyBinding.Name.Parser
import PropertyBinding.Store.Basic
import PropertyBinding.Text.Blank
import PropertyBinding.Log

/-!
# Sources of properties

Properties come from tables in memory, from command lines, from the environment
and from configuration files.  A source supplies its properties in its own order,
or fails.  Loading a list of sources piles their properties up in a store, the
later ones on top, and stops at the first failure.
-/

namespace PropertyBinding

/-- Why a source cannot be loaded. -/
inductive SourceError where
  | fileNotFound (path : String)
  | unreadable (path : String) (failure : ReadFailure)
  | malformed (path : String)
  | invalidName (text : String)
deriving DecidableEq, Repr

def SourceError.message : SourceError → String
  | fileNotFound path => "required config file not found: " ++ path
  | unreadable path failure =>
    "failed to read config file '" ++ path ++ "': " ++ failure.message
  | malformed path => "failed to parse config file '" ++ path ++ "'"
  | invalidName text => InvalidName.message ⟨text⟩

/-- Parse a name, with its refusal as an error of a source. -/
def parseName (s : String) : Except SourceError Name :=
  match Name.parse s with
  | .ok n => .ok n
  | .error e => .error (.invalidName e.text)

/-- A source of properties. -/
inductive Source where
  | table (name : String) (entries : List (String × String))
  | arguments (args : List String)
  | environment (env : Environment)
  | file (path : String) (required : Bool) (content : FileContent)

/-- What loading gives: log entries, and the outcome. -/
structure Loaded (α : Type) where
  log : List LogEntry
  outcome : Except SourceError α

/-! ## Command lines -/

namespace CommandLine

/-- The name under which the command line is reported. -/
def sourceName : String := "commandLineArgs"

/-- The option that an argument gives, as its key and value.  Arguments that do
not start with two hyphens give none. -/
def optionOf? (arg : String) : Option (String × String) :=
  match arg.toList with
  | '-' :: '-' :: cs =>
    some (String.ofList (cs.takeWhile (· != '=')),
      String.ofList ((cs.dropWhile (· != '=')).drop 1))
  | _ => none

/-- The property that an option gives.  Blanks around the key are dropped. -/
def propertyOf (arg key value : String) : Except SourceError Property := do
  let name ← parseName (Text.trim key)
  if name = Name.root then throw (.invalidName arg)
  return ⟨name, value, ⟨sourceName, Text.trim key⟩⟩

/-- The properties of the options before the argument `--`. -/
def properties (args : List String) : Except SourceError (List Property) :=
  let before := args.takeWhile (· != "--")
  (before.filterMap fun arg => (optionOf? arg).map fun (key, value) => (arg, key, value)).mapM
    fun (arg, key, value) => propertyOf arg key value

end CommandLine

/-! ## Files -/

def loadFile (path : String) (required : Bool) (content : FileContent) : Loaded (List Property) :=
  match content.read path with
  | .error failure => ⟨[], .error (.unreadable path failure)⟩
  | .ok none =>
    if required then ⟨[], .error (.fileNotFound path)⟩
    else
      ⟨[⟨.debug, "optional config file not found, skipping", [("path", .text path)]⟩], .ok []⟩
  | .ok (some s) =>
    match Toml.parse s with
    | some entries => ⟨[], .ok (documentProperties path entries)⟩
    | none => ⟨[], .error (.malformed path)⟩

/-! ## Loading -/

namespace Source

def name : Source → String
  | table name _ => name
  | arguments _ => CommandLine.sourceName
  | environment _ => Environment.sourceName
  | file path _ _ => path

def tableProperties (source : String) (entries : List (String × String)) :
    Except SourceError (List Property) :=
  entries.mapM fun (key, value) => do
    return ⟨← parseName key, value, ⟨source, key⟩⟩

def load : Source → Loaded (List Property)
  | table name entries => ⟨[], tableProperties name entries⟩
  | arguments args => ⟨[], CommandLine.properties args⟩
  | environment env =>
    ⟨env.unmapped.map fun key =>
        ⟨.trace, "environment variable not mapped", [("variable", .text key)]⟩,
      .ok env.properties⟩
  | file path required content => loadFile path required content

end Source

namespace Store

def loadOnto (s : Store) : List Source → Loaded Store
  | [] => ⟨[], .ok s⟩
  | source :: rest =>
    let loaded := source.load
    match loaded.outcome with
    | .error e => ⟨loaded.log, .error e⟩
    | .ok properties =>
      let entry : LogEntry := ⟨.debug, "loaded property source",
        [("source", .text source.name), ("properties", .count properties.length)]⟩
      let further := loadOnto (s.push source.name properties) rest
      ⟨loaded.log ++ entry :: further.log, further.outcome⟩

/-- The store of a list of sources, in increasing order of precedence. -/
def load (sources : List Source) : Loaded Store :=
  loadOnto empty sources

end Store
end PropertyBinding
