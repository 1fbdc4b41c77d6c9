import PropertyBinding.Text.Cut

/-!
# Files

What is found where a configuration file should be.  A path is followed from a
directory in which there is nothing but that file, so where no file has been put,
only a path that stays among directories finds something, and a name that no
directory can hold is refused before it is looked for.
-/

namespace PropertyBinding

/-- What has been put where a configuration file should be. -/
inductive FileContent where
  | missing
  | directory
  | text (s : String)
  | bytes (data : ByteArray)

/-- Why the content of a file cannot be read. -/
inductive ReadFailure where
  | directory
  | longName
  | zeroInName
  | notText
deriving DecidableEq, Repr

def ReadFailure.message : ReadFailure → String
  | directory => "Is a directory (os error 21)"
  | longName => "File name too long (os error 36)"
  | zeroInName => "file name contained an unexpected NUL byte"
  | notText => "stream did not contain valid UTF-8"

namespace FilePath

def nameLimit : Nat := 255

def pathLimit : Nat := 4095

/-- The parts of a path that stand for a directory which is there anyway: the empty
part and one dot for the directory reached so far, two dots for the one above it. -/
def directoryParts : List String := ["", ".", ".."]

/-- What stops a reader who follows the parts of a path where nothing has been
put, unless it is the want of a file.  The first part that names something
decides. -/
def obstacle? : List String → Option ReadFailure
  | [] => some .directory
  | part :: rest =>
    if part ∈ directoryParts then obstacle? rest
    else if nameLimit < part.utf8ByteSize then some .longName
    else none

/-- Why a path where nothing has been put cannot be read, unless it is for want of
a file, as with the empty path. -/
def failure? (path : String) : Option ReadFailure :=
  if path.toList.contains '\x00' then some .zeroInName
  else if path.isEmpty then none
  else if pathLimit < path.utf8ByteSize then some .longName
  else obstacle? ((Text.cutAt '/' path.toList).map String.ofList)

end FilePath

/-- The text of a file, or nothing if there is no file. -/
def FileContent.read (path : String) : FileContent → Except ReadFailure (Option String)
  | missing =>
    match FilePath.failure? path with
    | some failure => .error failure
    | none => .ok none
  | directory => .error .directory
  | text s => .ok (some s)
  | bytes data =>
    match String.fromUTF8? data with
    | some s => .ok (some s)
    | none => .error .notText

end PropertyBinding
