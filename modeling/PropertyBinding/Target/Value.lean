import PropertyBinding.Number.Binary

/-!
# Bound values

What binding gives.  A value has the shape of the target it was bound to; a value
bound to a target without a shape of its own is nothing, a text, a sequence or a
mapping.
-/

namespace PropertyBinding

open Number

/-- A key of a map. -/
inductive Key where
  | text (s : String)
  | char (c : Char)
  | variant (index : Nat) (label : String)
deriving DecidableEq, Repr

/-- The order of the keys of a map, all of which are of one type. -/
def Key.before : Key → Key → Bool
  | text s, text t => s < t
  | char c, char d => c < d
  | variant i _, variant j _ => i < j
  | _, _ => false

def Key.compare (k l : Key) : Ordering :=
  if k.before l then .lt else if l.before k then .gt else .eq

/-- A variant of an enumeration: its place there, and the name under which it is
declared.  It is written as this name. -/
structure Choice where
  index : Nat
  label : String
deriving DecidableEq, Repr

instance : Coe Choice String :=
  ⟨Choice.label⟩

/-- A bound value.  A floating-point number is given by its bits. -/
inductive Value where
  | unit
  | truth (b : Bool)
  | whole (type : WholeType) (n : Int)
  | float (format : BinaryFormat) (bits : Nat)
  | char (c : Char)
  | text (s : String)
  | bytes (data : List UInt8)
  | variant (choice : Choice)
  | absent
  | present (value : Value)
  | list (items : List Value)
  | entries (entries : List (Key × Value))
  | record (fields : List (String × Value))
  | sequence (items : List Value)
  | mapping (entries : List (String × Value))
  | announced (counts : List (Option Nat))
deriving Repr

namespace Value

mutual

/-- How two values of one type compare.  Variants have the order of their
enumeration, an absent value comes before all others, and values that are made of
others are compared part by part.  Types whose values have no order are not those
of members of a set. -/
def compare : Value → Value → Ordering
  | truth b, truth c => Ord.compare b c
  | whole _ m, whole _ n => Ord.compare m n
  | char c, char d => Ord.compare c d
  | text s, text t => Ord.compare s t
  | bytes d, bytes e => Ord.compare d e
  | variant a, variant b => Ord.compare a.index b.index
  | absent, present _ => .lt
  | present _, absent => .gt
  | present v, present w => compare v w
  | list vs, list ws => compareItems vs ws
  | entries vs, entries ws => compareEntries vs ws
  | record vs, record ws => compareFields vs ws
  | _, _ => .eq

def compareItems : List Value → List Value → Ordering
  | [], [] => .eq
  | [], _ :: _ => .lt
  | _ :: _, [] => .gt
  | v :: vs, w :: ws => (compare v w).then (compareItems vs ws)

def compareEntries : List (Key × Value) → List (Key × Value) → Ordering
  | [], [] => .eq
  | [], _ :: _ => .lt
  | _ :: _, [] => .gt
  | (k, v) :: vs, (l, w) :: ws => (k.compare l).then ((compare v w).then (compareEntries vs ws))

def compareFields : List (String × Value) → List (String × Value) → Ordering
  | [], [] => .eq
  | [], _ :: _ => .lt
  | _ :: _, [] => .gt
  | (_, v) :: vs, (_, w) :: ws => (compare v w).then (compareFields vs ws)

end

/-- Put a member into its place in a set, unless it is there already. -/
def insertMember (v : Value) : List Value → List Value
  | [] => [v]
  | w :: rest =>
    match v.compare w with
    | .lt => v :: w :: rest
    | .eq => w :: rest
    | .gt => w :: insertMember v rest

/-- The members of a set, each once and in order. -/
def members (items : List Value) : List Value :=
  items.foldl (fun set v => insertMember v set) []

/-- Put an entry into its place in a map, where it replaces one with the same
key. -/
def insertEntry (key : Key) (v : Value) : List (Key × Value) → List (Key × Value)
  | [] => [(key, v)]
  | (k, w) :: rest =>
    if key.before k then (key, v) :: (k, w) :: rest
    else if k.before key then (k, w) :: insertEntry key v rest
    else (k, v) :: rest

/-- The entries of a map, later ones replacing earlier ones. -/
def ofEntries (found : List (Key × Value)) : List (Key × Value) :=
  found.foldl (fun map (k, v) => insertEntry k v map) []

def field? (v : Value) (label : String) : Option Value :=
  match v with
  | record fields => (fields.find? (·.1 == label)).map (·.2)
  | _ => none

end Value
end PropertyBinding
