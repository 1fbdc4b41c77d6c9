import PropertyBinding.Proofs.Name.Grammar
import PropertyBinding.Proofs.Source.Leaves
import PropertyBinding.Proofs.Text.LowerCase

/-!
# What origins show

An origin is there to point users at what they wrote.  Tables in memory and the environment give
their own keys away with each property, and these are kept.  A document has no such keys.  Its
leaves stand at the ends of paths, and the origin of a leaf shows the name that is made of the
path.

Names are shown in lower case, except for what they have in brackets.  So the path appears in the
spelling of the document if and only if each of its keys is in lower case or needs brackets.  That
no other path looks the same is seen from the text alone: a key between dots ends where the next
dot or bracket stands.
-/

namespace PropertyBinding

open Text

/-! ## Written paths -/

namespace Toml.Turn

/-- The turn in a written path, at the front or behind another turn.  Positions stand in brackets,
and so do keys that could not stand between dots. -/
def written (front : Bool) : Turn → List Char
  | entry key =>
    if key.toList.any Element.isDelimiter then '[' :: key.toList ++ [']']
    else if front then key.toList
    else '.' :: key.toList
  | item position => '[' :: (toString position).toList ++ [']']

/-- A path as it is written, at the front or behind other turns, with each key in its own
spelling. -/
def writtenPath (front : Bool) : List Turn → List Char
  | [] => []
  | turn :: path => turn.written front ++ writtenPath false path

/-- The text of a path, with each key in its own spelling. -/
def spelled (path : List Turn) : String :=
  String.ofList (writtenPath true path)

/-- The turn with its key in lower case, unless it is written in brackets. -/
def lowered : Turn → Turn
  | entry key => if key.toList.any Element.isDelimiter then entry key else entry (lower key)
  | item position => item position

/-- The element to which a turn leads. -/
def element : Turn → Element
  | entry key => .ofKey key
  | item position => .ofPosition position

variable {key : String} {turn : Turn} {path : List Turn} {front : Bool} {rest others : List Char}

theorem any_isDelimiter_lower (plain : key.toList.any Element.isDelimiter = false) :
    (lower key).toList.any Element.isDelimiter = false := by
  rw [lower, String.toList_ofList]
  apply Bool.eq_false_iff.mpr
  intro delimited
  apply Bool.eq_false_iff.mp plain
  rw [Element.any_isDelimiter_iff] at delimited ⊢
  rcases delimited with dot | opened | closed
  · exact .inl (mem_of_mem_lowerAfter dot (by decide))
  · exact .inr (.inl (mem_of_mem_lowerAfter opened (by decide)))
  · exact .inr (.inr (mem_of_mem_lowerAfter closed (by decide)))

/-- The element of a turn is shown as the turn in lower case. -/
theorem shown_element (turn : Turn) (front : Bool) :
    turn.element.shown front = turn.lowered.written front := by
  cases turn with
  | item position => rfl
  | entry key =>
      cases plain : key.toList.any Element.isDelimiter with
      | true => simp [element, Element.ofKey, lowered, written, plain, Element.shown,
          Element.showsBrackets, Element.bracket]
      | false => simp [element, Element.ofKey, lowered, written, plain, Element.shown,
          Element.showsBrackets, Element.dotted, any_isDelimiter_lower plain]

theorem flatMap_shown (path : List Turn) :
    (path.map element).flatMap (·.shown false) = writtenPath false (path.map lowered) := by
  induction path with
  | nil => rfl
  | cons turn path inductionHypothesis =>
      rw [List.map_cons, List.flatMap_cons, List.map_cons, writtenPath, shown_element,
        inductionHypothesis]

/-! ## Reading a spelling off a path -/

theorem resumes_written (path : List Turn) : Name.Resumes (writtenPath false path) := by
  cases path with
  | nil => exact fun c impossible => absurd impossible (by simp [writtenPath])
  | cons turn path =>
      intro c first
      cases turn with
      | item position => exact .inr (Option.some.inj first).symm
      | entry key =>
          rw [writtenPath, written] at first
          by_cases delimited : key.toList.any Element.isDelimiter = true
          · rw [if_pos delimited] at first
            exact .inr (Option.some.inj first).symm
          · rw [if_neg delimited] at first
            exact .inl (Option.some.inj first).symm

/-- What stands between dots is read off the text. -/
theorem eq_of_plain_append {s t : List Char} (plain : s.any Element.isDelimiter = false)
    (plainToo : t.any Element.isDelimiter = false) (resumes : Name.Resumes rest)
    (resumesToo : Name.Resumes others) (same : s ++ rest = t ++ others) : s = t := by
  have inside {text : List Char} (plain : text.any Element.isDelimiter = false) :
      ∀ c ∈ text, Name.isDottedChar c = true := by
    rw [Bool.eq_false_iff, ne_eq, Element.any_isDelimiter_iff, not_or, not_or] at plain
    exact Name.all_isDottedChar plain.1 plain.2.1
  calc s = (s ++ rest).takeWhile Name.isDottedChar :=
        (Name.takeWhile_append_of_stop (inside plain) resumes.stops).symm
    _ = (t ++ others).takeWhile Name.isDottedChar := by rw [same]
    _ = t := Name.takeWhile_append_of_stop (inside plainToo) resumesToo.stops

theorem lowered_eq_of_written (resumes : Name.Resumes rest) (resumesToo : Name.Resumes others)
    (same : turn.lowered.written front ++ rest = turn.written front ++ others) :
    turn.lowered = turn := by
  cases turn with
  | item position => rfl
  | entry key =>
      cases plain : key.toList.any Element.isDelimiter with
      | true => rw [lowered, if_pos plain]
      | false =>
          have small := any_isDelimiter_lower plain
          have keys : (lower key).toList ++ rest = key.toList ++ others := by
            cases front <;> simpa [lowered, written, plain, small] using same
          have equal := eq_of_plain_append small plain resumes resumesToo keys
          rw [lowered, if_neg (Bool.eq_false_iff.mp plain), String.toList_inj.mp equal]

/-- A path looks the same in lower case if and only if all keys between dots are in lower case. -/
theorem writtenPath_lowered_eq_iff :
    writtenPath front (path.map lowered) = writtenPath front path ↔
      ∀ turn ∈ path, turn.lowered = turn := by
  constructor
  · intro same
    induction path generalizing front with
    | nil => exact List.forall_mem_nil _
    | cons turn path inductionHypothesis =>
        rw [List.map_cons, writtenPath, writtenPath] at same
        have first := lowered_eq_of_written (resumes_written _) (resumes_written _) same
        rw [first] at same
        exact List.forall_mem_cons.mpr ⟨first, inductionHypothesis (List.append_cancel_left same)⟩
  · intro unchanged
    rw [List.map_congr_left unchanged, List.map_id']

theorem spelled_lowered_eq_iff (path : List Turn) :
    spelled (path.map lowered) = spelled path ↔ ∀ turn ∈ path, turn.lowered = turn :=
  String.ofList_inj.trans writtenPath_lowered_eq_iff

end Toml.Turn

namespace Name

open Toml (Turn)

theorem elements_along (n : Name) (path : List Turn) :
    (n.along path).elements = n.elements ++ path.map Turn.element := by
  induction path generalizing n with
  | nil => exact (List.append_nil _).symm
  | cons turn path inductionHypothesis =>
      have first : (n.turn turn).elements = n.elements ++ [turn.element] := by
        cases turn <;> rfl
      change ((n.turn turn).along path).elements = _
      rw [inductionHypothesis, first, List.append_assoc]
      rfl

/-- The name made of a path is shown as the path in lower case. -/
theorem shown_along (path : List Turn) :
    (root.along path).shown = Turn.writtenPath true (path.map Turn.lowered) := by
  have elements : (root.along path).elements = path.map Turn.element := elements_along root path
  rw [shown, elements]
  cases path with
  | nil => rfl
  | cons turn path =>
      rw [List.map_cons, List.map_cons, Turn.writtenPath, ← Turn.flatMap_shown,
        ← Turn.shown_element]

end Name

/-! ## Origins -/

open Toml (Turn)

theorem exists_of_tableProperties {source key value : String} {rest : List (String × String)}
    {properties : List Property}
    (loaded : Source.tableProperties source ((key, value) :: rest) = .ok properties) :
    ∃ n later, parseName key = .ok n ∧ Source.tableProperties source rest = .ok later ∧
      properties = ⟨n, value, ⟨source, key⟩⟩ :: later := by
  rw [Source.tableProperties, List.mapM_cons] at loaded
  change (parseName key >>= _) >>= _ = _ at loaded
  cases named : parseName key with
  | error e =>
      rw [named] at loaded
      cases loaded
  | ok n =>
      rw [named] at loaded
      change (Source.tableProperties source rest >>= _) = _ at loaded
      cases further : Source.tableProperties source rest with
      | error e =>
          rw [further] at loaded
          cases loaded
      | ok later =>
          rw [further] at loaded
          cases loaded
          exact ⟨n, later, rfl, rfl, rfl⟩

/-- A table in memory gives each value with its key. -/
theorem tableProperties_origins {source : String} {entries : List (String × String)}
    {properties : List Property} (loaded : Source.tableProperties source entries = .ok properties) :
    properties.map (fun p => (p.origin, p.value)) =
      entries.map fun entry => (⟨source, entry.1⟩, entry.2) := by
  induction entries generalizing properties with
  | nil =>
      cases loaded
      rfl
  | cons entry rest inductionHypothesis =>
      rcases exists_of_tableProperties loaded with ⟨n, later, _, further, rfl⟩
      rw [List.map_cons, List.map_cons, inductionHypothesis further]

/-- The environment gives each variable that has a name. -/
theorem Environment.properties_origins (env : Environment) :
    env.properties.map (fun p => (p.origin, p.value)) =
      (env.entries.filter fun entry => (env.nameOf? entry.1).isSome).map
        fun entry => (⟨sourceName, entry.1⟩, entry.2) := by
  rw [properties, List.map_filterMap, ← List.filterMap_eq_filter, List.map_filterMap]
  congr 1
  funext entry
  cases named : env.nameOf? entry.1 <;> simp [propertyOf?, named, Option.guard]

/-- A document gives each leaf with its path in lower case, which is how the document spells the
path if and only if the keys between dots are in lower case anyway. -/
theorem documentProperties_origins (source : String) (entries : Toml.Entries) :
    Traverses (fun address p => ∃ path, (Toml.Value.table entries).HasLeaf address path p.value ∧
        p.name = Name.root.along path ∧
        p.origin = ⟨source, Turn.spelled (path.map Turn.lowered)⟩ ∧
        (p.origin = ⟨source, Turn.spelled path⟩ ↔ ∀ turn ∈ path, turn.lowered = turn))
      (documentProperties source entries) := by
  have traverses := (traverses_flatten .root (.table entries)).map fun x =>
    (⟨x.1, x.2, ⟨source, toString x.1⟩⟩ : Property)
  rw [flatten] at traverses
  have text (path : List Turn) :
      toString (Name.root.along path) = Turn.spelled (path.map Turn.lowered) :=
    congrArg String.ofList (Name.shown_along path)
  refine traverses.congr fun address p => ?_
  constructor
  · rintro ⟨x, ⟨path, leaf, named⟩, rfl⟩
    have origin : toString x.1 = Turn.spelled (path.map Turn.lowered) := by rw [named, text]
    refine ⟨path, leaf, named, congrArg (Origin.mk source) origin, ?_⟩
    rw [Origin.mk.injEq, and_iff_right rfl, origin]
    exact Turn.spelled_lowered_eq_iff path
  · rintro ⟨path, leaf, named, origin, _⟩
    refine ⟨(p.name, p.value), ⟨path, leaf, named⟩, ?_⟩
    rw [named, text, ← named, ← origin]

namespace Source

/-- A table in memory and the environment show in origins the keys that they were given.  A file
that is there shows the path to each leaf, with the keys between dots in lower case.  That is the
path as the document spells it if and only if these keys are in lower case anyway. -/
theorem load_origins (properties : List Property) :
    (∀ name entries, (table name entries).load.outcome = .ok properties →
      properties.map (fun p => (p.origin, p.value)) =
        entries.map fun entry => (⟨name, entry.1⟩, entry.2)) ∧
    (∀ env, (environment env).load.outcome = .ok properties →
      properties.map (fun p => (p.origin, p.value)) =
        (env.entries.filter fun entry => (env.nameOf? entry.1).isSome).map
          fun entry => (⟨Environment.sourceName, entry.1⟩, entry.2)) ∧
    ∀ path required content, (file path required content).load.outcome = .ok properties →
      content.read path = .ok none ∧ properties = [] ∨
      ∃ text entries, content.read path = .ok (some text) ∧ Toml.parse text = some entries ∧
        Traverses (fun address p => ∃ turns,
          (Toml.Value.table entries).HasLeaf address turns p.value ∧
          p.name = Name.root.along turns ∧
          p.origin = ⟨path, Turn.spelled (turns.map Turn.lowered)⟩ ∧
          (p.origin = ⟨path, Turn.spelled turns⟩ ↔ ∀ turn ∈ turns, turn.lowered = turn))
          properties := by
  refine ⟨fun name entries => tableProperties_origins, fun env loaded => ?_,
    fun path required content loaded => ?_⟩
  · cases loaded
    exact env.properties_origins
  · cases read : content.read path with
    | error failure =>
        simp only [load, loadFile, read] at loaded
        cases loaded
    | ok found =>
        cases found with
        | none =>
            left
            cases required <;> simp only [load, loadFile, read] at loaded <;> cases loaded
            exact ⟨rfl, rfl⟩
        | some text =>
            right
            cases parsed : Toml.parse text with
            | none =>
                simp only [load, loadFile, read, parsed] at loaded
                cases loaded
            | some entries =>
                simp only [load, loadFile, read, parsed] at loaded
                cases loaded
                exact ⟨text, entries, rfl, parsed, documentProperties_origins path entries⟩

/-- Keys in mixed case in memory, in the environment and in a document, where one is in brackets. -/
theorem load_origins_server :
    let text := "\"Max.Size\" = true\n[Server]\nhosts = [\"a\"]\n"
    let underscore : Separator := ⟨['_'], List.cons_ne_nil _ _⟩
    let env : Environment := ⟨['A'], underscore, [("A_Port", "1"), ("Port", "2")]⟩
    (∃ properties, (table "defaults" [("listValue[2]", "world")]).load.outcome = .ok properties ∧
      properties.map (·.origin) = [⟨"defaults", "listValue[2]"⟩]) ∧
    (∃ properties, (environment env).load.outcome = .ok properties ∧
      properties.map (·.origin) = [⟨"systemEnvironment", "A_Port"⟩]) ∧
    ∃ properties, (file "app.toml" true (.text text)).load.outcome = .ok properties ∧
      (∃ p ∈ properties, p.value = "true" ∧ p.origin = ⟨"app.toml", "[Max.Size]"⟩) ∧
      ∃ p ∈ properties, p.value = "a" ∧ p.origin = ⟨"app.toml", "server.hosts[0]"⟩ := by
  intro text underscore env
  let entries : Toml.Entries := [("Max.Size", .truth true),
    ("Server", .table [("hosts", .list [.text "a"])])]
  have fromTable : (table "defaults" [("listValue[2]", "world")]).load.outcome =
      .ok [⟨⟨[.dotted "listValue", .bracket "2"]⟩, "world", ⟨"defaults", "listValue[2]"⟩⟩] := by
    decide +kernel
  have parses : Toml.parse "\"Max.Size\" = true\n[Server]\nhosts = [\"a\"]\n" = some entries := by
    decide +kernel
  have fromFile : (file "app.toml" true (.text text)).load.outcome =
      .ok (documentProperties "app.toml" entries) := by
    simp only [load, loadFile, FileContent.read, text, parses]
  have origins {pairs : List (Origin × String)} {properties : List Property}
      (same : properties.map (fun p => (p.origin, p.value)) = pairs) :
      properties.map (·.origin) = pairs.map (·.1) := by
    rw [← same, List.map_map]
    rfl
  refine ⟨⟨_, fromTable, origins ((load_origins _).1 _ _ fromTable)⟩, ⟨_, rfl, ?_⟩, _, fromFile, ?_⟩
  · rw [origins ((load_origins _).2.1 _ rfl)]
    decide +kernel
  · rcases (load_origins _).2.2 _ _ _ fromFile
      with ⟨absent, _⟩ | ⟨found, others, read, parsed, traverses⟩
    · cases absent
    · cases read
      cases parses.symm.trans parsed
      have leaf {address : List Nat} {turns : List Turn} {value : String}
          (holds : (Toml.Value.table entries).HasLeaf address turns value) :
          (⟨Name.root.along turns, value, ⟨"app.toml", Turn.spelled (turns.map Turn.lowered)⟩⟩ :
            Property) ∈ documentProperties "app.toml" entries := by
        refine traverses.mem_iff.mpr ⟨address, turns, holds, rfl, rfl, ?_⟩
        rw [Origin.mk.injEq, and_iff_right rfl]
        exact Turn.spelled_lowered_eq_iff turns
      have size : (Toml.Value.table entries).HasLeaf [0] [.entry "Max.Size"] "true" :=
        ⟨.truth true, .entry rfl (.self _), rfl⟩
      have host : (Toml.Value.table entries).HasLeaf [1, 0, 0]
          [.entry "Server", .entry "hosts", .item 0] "a" :=
        ⟨.text "a", .entry rfl (.entry rfl (.item rfl (.self _))), rfl⟩
      constructor
      · exact ⟨⟨_, "true", _⟩, leaf size, rfl, by decide +kernel⟩
      · exact ⟨⟨_, "a", _⟩, leaf host, rfl, by decide +kernel⟩

/-- A key of a document is in lower case in the origin of its value. -/
theorem key_not_kept :
    let text := "Port = true\n"
    let entries : Toml.Entries := [("Port", .truth true)]
    Toml.parse text = some entries ∧
      (Toml.Value.table entries).HasLeaf [0] [.entry "Port"] "true" ∧
      Turn.spelled [.entry "Port"] = "Port" ∧
      (file "a.toml" true (.text text)).load.outcome =
        .ok [⟨⟨[.dotted "Port"]⟩, "true", ⟨"a.toml", "port"⟩⟩] := by
  intro text entries
  have parses : Toml.parse "Port = true\n" = some entries := by
    decide +kernel
  refine ⟨parses, ⟨.truth true, .entry rfl (.self _), rfl⟩, ?_, ?_⟩ <;> decide +kernel

end Source
end PropertyBinding
