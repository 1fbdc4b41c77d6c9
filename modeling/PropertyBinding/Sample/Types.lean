import PropertyBinding.Target.Basic

/-!
# Sample types

Record types and wrappers of a sample application, which between them have fields
of every kind: required, optional and with values of their own, renamed and with
other names, recursive, and nested in options, lists and maps.
-/

namespace PropertyBinding
namespace Sample

open Number

/-- The record types of the sample application. -/
inductive Kind where
  | server | nested | app | pool | inner | ports | node | settings | endpoint | registry
  | database | renamed | aliased | collide | wrapped | units | anything | scalars | route
  | site | empty | fieldProps | nestedProps | objectProps | limits | scripted | strict
deriving DecidableEq, Repr

abbrev SampleTarget := Target Kind

/-- The full name of a type of the application. -/
def qualified (short : String) : String :=
  "app::types::" ++ short

/-! ## Scalars and wrappers -/

def unsigned (bits : Nat) : SampleTarget := .whole ⟨false, bits⟩

def signed (bits : Nat) : SampleTarget := .whole ⟨true, bits⟩

def modes : Enumeration where
  label := qualified "Mode"
  variants := [
    ⟨"read-only", "ReadOnly", .none⟩,
    ⟨"read-write", "ReadWrite", .none⟩,
    ⟨"APPEND_ALL", "Append", .none⟩]

/-- A shape, of which only the dot carries nothing. -/
def shapes : Enumeration where
  label := qualified "Shape"
  variants := [
    ⟨"Dot", "Dot", .none⟩,
    ⟨"Circle", "Circle", .single⟩,
    ⟨"Rect", "Rect", .tuple⟩,
    ⟨"Named", "Named", .fields⟩]

def any : SampleTarget := .free (qualified "Any")

def named (short : String) (target : SampleTarget) : SampleTarget :=
  .wrapper (qualified short) target

def pair : SampleTarget :=
  .fixed (.named (qualified "Pair") "Pair") [.text, unsigned 16]

/-- The scalars and wrappers by their short names. -/
def scalars : List (String × SampleTarget) := [
  ("bool", .truth), ("char", .char), ("String", .text), ("()", .unit), ("IgnoredAny", .ignored),
  ("i8", signed 8), ("i16", signed 16), ("i32", signed 32), ("i64", signed 64),
  ("i128", signed 128), ("u8", unsigned 8), ("u16", unsigned 16), ("u32", unsigned 32),
  ("u64", unsigned 64), ("u128", unsigned 128), ("f32", .float .single), ("f64", .float .double),
  ("Mode", .variant modes), ("Shape", .variant shapes), ("Any", any),
  ("Bytes", named "Bytes" .bytes), ("RawBytes", named "RawBytes" .bytes),
  ("Text", named "Text" .text), ("Ident", named "Ident" .text),
  ("Port", named "Port" (unsigned 16)), ("Tags", named "Tags" (.list .text)), ("Pair", pair),
  ("Marker", named "Marker" .unit),
  ("HintedSeq", named "HintedSeq" (.counted (qualified "Hinted") .sequence any)),
  ("HintedMap", named "HintedMap" (.counted (qualified "Hinted") .map any)),
  ("HastyMap", named "HastyMap" (.hasty (qualified "Hinted") .map)),
  ("HastyStruct", named "HastyStruct" (.hasty (qualified "Hinted") .record))]

/-! ## Records -/

/-- A field that is looked up by its own name and has to be there. -/
def field (name : String) (target : SampleTarget) : Field Kind :=
  ⟨name, name, [name], target, .missing⟩

/-- A field that has the initial value of its target when nothing is found. -/
def defaulted (name : String) (target : SampleTarget) : Field Kind :=
  ⟨name, name, [name], target, .initial⟩

/-- An optional field with another name than in the value. -/
def renamedTo (name label : String) (target : SampleTarget) : Field Kind :=
  ⟨label, name, [name], .option target, .missing⟩

def record (short : String) (fields : List (Field Kind)) : Record Kind :=
  ⟨qualified short, short, fields⟩

def Kind.record : Kind → Record Kind
  | server => Sample.record "Server"
      [field "host_name" .text, field "port" (unsigned 16), field "secure" .truth]
  | nested => Sample.record "Nested" [defaulted "value" (.option .text)]
  | app => Sample.record "App"
      [field "name" .text, defaulted "nested" (.record nested), defaulted "list" (.list .text)]
  | pool => Sample.record "Pool" [defaulted "size" (unsigned 32), defaulted "name" .text]
  | inner => Sample.record "Inner" [field "port" (unsigned 16)]
  | ports => Sample.record "Ports" [field "inner" (.record inner)]
  | node => Sample.record "Node"
      [field "name" .text, defaulted "child" (.option (.boxed (.record node))),
        defaulted "children" (.list (.record node)), defaulted "index" (.map .text (.record node))]
  | settings => Sample.record "Settings"
      [field "mode" (.variant modes), field "timeout" (.option (unsigned 64)),
        field "retries" (.option (unsigned 32))]
  | endpoint => Sample.record "Endpoint"
      [field "url" .text,
        { field "weight" (unsigned 16) with fallback := .value (.whole ⟨false, 16⟩ 7) }]
  | registry => Sample.record "Registry"
      [field "endpoints" (.map .text (.record endpoint)), defaulted "labels" (.map .text .text)]
  | database => Sample.record "Database"
      [field "host" .text, field "pool_size" (unsigned 32), field "replicas" (.list .text)]
  | renamed => Sample.record "Renamed"
      [renamedTo "listValue" "list_value" (.list .text), renamedTo "some.key" "dotted" .text,
        renamedTo "Idx[0]" "bracketed" (unsigned 8), renamedTo "type" "kind" .text,
        renamedTo "ÄPFEL-Σ" "unicode" .text]
  | aliased => Sample.record "Aliased"
      [{ field "name" .text with keys := ["name", "title"] },
        { defaulted "number" (signed 32) with keys := ["n", "num", "number"] }]
  | collide => Sample.record "Collide"
      [field "foo_bar" (.option .text), field "foobar" (.option .text)]
  | wrapped => Sample.record "Wrapper"
      [field "port" (named "Port" (unsigned 16)), field "tags" (named "Tags" (.list .text)),
        field "pair" (.option pair)]
  | units => Sample.record "Units"
      [field "marker" (named "Marker" .unit), field "unit" .unit, field "ignored" .ignored,
        defaulted "flag" (.option .unit)]
  | anything => Sample.record "Anything"
      [field "first" (.option any), defaulted "second" any, field "third" (.option (.list any))]
  | scalars => Sample.record "Scalars"
      [defaulted "bool" (.option .truth), defaulted "i8" (.option (signed 8)),
        defaulted "i16" (.option (signed 16)), defaulted "i32" (.option (signed 32)),
        defaulted "i64" (.option (signed 64)), defaulted "i128" (.option (signed 128)),
        defaulted "u8" (.option (unsigned 8)), defaulted "u16" (.option (unsigned 16)),
        defaulted "u32" (.option (unsigned 32)), defaulted "u64" (.option (unsigned 64)),
        defaulted "u128" (.option (unsigned 128)), defaulted "f32" (.option (.float .single)),
        defaulted "f64" (.option (.float .double)), defaulted "char" (.option .char),
        defaulted "string" (.option .text), defaulted "bytes" (.option (named "Bytes" .bytes))]
  | route => Sample.record "Route"
      [field "path" .text, defaulted "methods" (.list (.variant modes))]
  | site => Sample.record "Site"
      [field "hosts" (.list .text), field "routes" (.list (.record route)), field "debug" .truth]
  | empty => Sample.record "Empty" []
  | fieldProps => Sample.record "FieldProps"
      [defaulted "foo" (.option .text), defaulted "value" (signed 32),
        defaulted "nested" (.record nestedProps)]
  | nestedProps => Sample.record "NestedProps" [defaulted "bar" (.option .text)]
  | objectProps => Sample.record "ObjectProps" []
  | limits => Sample.record "Limits"
      [defaulted "max" (unsigned 32), defaulted "min" (.option (unsigned 32))]
  | scripted => Sample.record "Scripted"
      [defaulted "nulls" (.list .text), defaulted "values" (.map .text .text),
        defaulted "objects" (.list .text), defaulted "nested" (.option (.boxed (.record scripted)))]
  | strict => Sample.record "Strict" [field "id" (unsigned 8), defaulted "note" .text]

def kinds : List Kind := [
  .server, .nested, .app, .pool, .inner, .ports, .node, .settings, .endpoint, .registry,
  .database, .renamed, .aliased, .collide, .wrapped, .units, .anything, .scalars, .route,
  .site, .empty, .fieldProps, .nestedProps, .objectProps, .limits, .scripted, .strict]

/-- The initial value of a record type whose records nest to fewer than `levels`
levels outside options, lists and maps. -/
def Kind.initialWithin : (levels : Nat) → Kind → Value
  | 0, _ => .record []
  | levels + 1, kind =>
    .record (kind.record.fields.map fun f =>
      (f.label, f.target.initial (initialWithin levels)))

/-- The declarations of the sample application, whose records nest to two levels at
most. -/
def declarations : Declarations Kind :=
  ⟨Kind.record, Kind.initialWithin 2⟩

def target? (short : String) : Option SampleTarget :=
  match scalars.find? (·.1 == short) with
  | some entry => some entry.2
  | none => (kinds.find? (·.record.short == short)).map .record

end Sample
end PropertyBinding
