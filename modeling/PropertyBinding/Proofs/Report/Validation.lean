import PropertyBinding.Report.Analysis
import PropertyBinding.Proofs.Text.Parts
import PropertyBinding.Proofs.Validation.Paths

/-!
# Reports on validation

A report is put together line by line and then loses the blanks at its end, so that it does not
end in a line break.  What is lost may be more than the line break, namely when the reason at the
end has blanks at its own end, or is blank.  Otherwise nothing is lost, and the lines can be read
off the report again: the header, and for each error a blank line and the rows of its block.

The error that is reported lies at the end of a chain, in which each failure is the reason of the
one before.  However long the chain is, it is found, and if the chain ends in another failure
there is no report.
-/

namespace PropertyBinding

/-! ## Lines -/

namespace Text

/-- A text that is not empty and does not end in a blank. -/
def EndsShown (s : String) : Prop :=
  ∃ c, s.toList.getLast? = some c ∧ isBlank c = false

/-- Lines with a line break behind each of them. -/
def ended (lines : List String) : String :=
  String.join (lines.map (· ++ "\n"))

variable {s t last : String} {lines : List String}

theorem EndsShown.append (ends : EndsShown t) (s : String) : EndsShown (s ++ t) := by
  rcases ends with ⟨c, stands, shown⟩
  refine ⟨c, ?_, shown⟩
  rw [String.toList_append, List.getLast?_append, stands, Option.some_or]

theorem EndsShown.join (ends : EndsShown last) (behind : lines.getLast? = some last) :
    EndsShown (join "\n" lines) := by
  induction lines with
  | nil => cases behind
  | cons line lines inductionHypothesis =>
      cases lines with
      | nil =>
          cases behind
          simpa [Text.join] using ends
      | cons next lines =>
          rw [List.getLast?_cons_cons] at behind
          rw [Text.join, String.intercalate_cons_cons]
          exact (inductionHypothesis behind).append _

theorem ended_cons (line : String) (lines : List String) :
    ended (line :: lines) = line ++ "\n" ++ ended lines := by
  rw [ended, List.map_cons, String.join_cons, ended]

theorem ended_append (lines others : List String) :
    ended (lines ++ others) = ended lines ++ ended others := by
  rw [ended, List.map_append, String.join_append, ended, ended]

/-- Between lines that are joined there is a line break, and the last one lacks it. -/
theorem ended_eq_join (nonempty : lines ≠ []) : ended lines = join "\n" lines ++ "\n" := by
  induction lines with
  | nil => exact absurd rfl nonempty
  | cons line lines inductionHypothesis =>
      rw [ended_cons]
      cases lines with
      | nil => simp [ended, Text.join]
      | cons next lines =>
          rw [inductionHypothesis (List.cons_ne_nil _ _), Text.join, Text.join,
            String.intercalate_cons_cons]
          simp only [String.append_assoc]

/-- Of a text that does not end in a blank nothing is lost. -/
theorem EndsShown.trimEnd_append (ends : EndsShown s) : trimEnd (s ++ "\n") = s := by
  rcases ends with ⟨c, stands, shown⟩
  have blank : ∀ d ∈ ['\n'], isBlank d = true := List.forall_mem_singleton.mpr rfl
  have kept : trimEndChars s.toList = s.toList := by
    rcases List.getLast?_eq_some_iff.mp stands with ⟨front, split⟩
    rw [split, trimEndChars, List.reverse_append, List.reverse_singleton, List.singleton_append,
      List.dropWhile_cons_of_neg (by rw [shown]; exact Bool.false_ne_true), List.reverse_cons,
      List.reverse_reverse]
  rw [trimEnd, String.toList_append]
  change String.ofList (trimEndChars (s.toList ++ ['\n'])) = s
  rw [trimEndChars_append blank, kept, String.ofList_toList]

/-- Lines without line breaks of their own are read off again. -/
theorem lines_join (nonempty : lines ≠ []) (unbroken : ∀ line ∈ lines, '\n' ∉ line.toList) :
    (cutAt '\n' (join "\n" lines).toList).map String.ofList = lines := by
  have characters : (join "\n" lines).toList = ['\n'].intercalate (lines.map String.toList) :=
    String.toList_intercalate
  have apart : ∀ piece ∈ lines.map String.toList, '\n' ∉ piece := List.forall_mem_map.mpr unbroken
  rw [characters, cutAt_intercalate (by simpa using nonempty) apart, List.map_map]
  exact (List.map_congr_left fun line _ => String.ofList_toList).trans (List.map_id _)

end Text

/-! ## Blocks -/

namespace Block

/-- What the rows of a block are about, and what they say. -/
def rows (b : Block) : List (String × String) :=
  (b.property.map fun property => ("Property", property)).toList ++
    (b.value.map fun value => ("Value", value)).toList ++
    (b.origin.map fun origin => ("Origin", toString origin)).toList ++ [("Reason", b.reason)]

/-- A row as it is written. -/
def written (row : String × String) : String :=
  "    " ++ row.1 ++ ": " ++ row.2

theorem label_unbroken {b : Block} {row : String × String} (listed : row ∈ b.rows) :
    '\n' ∉ row.1.toList := by
  simp only [rows, List.mem_append, Option.mem_toList, Option.map_eq_some_iff, List.mem_singleton]
    at listed
  rcases listed with ((⟨_, _, rfl⟩ | ⟨_, _, rfl⟩) | ⟨_, _, rfl⟩) | rfl <;> simp

/-- The lines of a block: a blank one and its rows. -/
def lines (rows : List (String × String)) : List String :=
  "" :: rows.map written

theorem text_eq (b : Block) : b.text = Text.ended (lines b.rows) := by
  have row (label content : String) : line label content = written (label, content) ++ "\n" := rfl
  rcases b with ⟨property, value, origin, reason⟩
  cases property <;> cases value <;> cases origin <;>
    simp [text, row, rows, lines, Text.ended, String.append_assoc]

end Block

/-! ## Descriptions -/

namespace BindError

open Text

/-- The lines of a description: the header and those of the blocks. -/
def lines (e : BindError) : List String :=
  e.header :: e.blocks.flatMap fun b => Block.lines b.rows

/-- A description is made of its lines and loses the blanks at its end. -/
theorem description_eq (e : BindError) : e.description = trimEnd (ended e.lines) := by
  have texts (blocks : List Block) : String.join (blocks.map Block.text) =
      ended (blocks.flatMap fun b => Block.lines b.rows) := by
    induction blocks with
    | nil => rfl
    | cons b blocks inductionHypothesis =>
        rw [List.map_cons, String.join_cons, inductionHypothesis, Block.text_eq, List.flatMap_cons,
          ended_append]
  rw [description, texts, lines, ended_cons]

/-- Nothing but the last line break is lost if the last line does not end in a blank. -/
theorem description_eq_join {e : BindError} {last : String} (behind : e.lines.getLast? = some last)
    (ends : EndsShown last) : e.description = join "\n" e.lines := by
  have nonempty : e.lines ≠ [] := List.cons_ne_nil _ _
  rw [description_eq, ended_eq_join nonempty, (ends.join behind).trimEnd_append]

/-- There is no line break in a line if there is none in what is reported. -/
theorem unbroken_of_mem_lines {e : BindError} (header : '\n' ∉ e.header.toList)
    (contents : ∀ b ∈ e.blocks, ∀ row ∈ b.rows, '\n' ∉ row.2.toList) :
    ∀ line ∈ e.lines, '\n' ∉ line.toList := by
  rw [lines, List.forall_mem_cons]
  refine ⟨header, fun line listed => ?_⟩
  rcases List.mem_flatMap.mp listed with ⟨b, member, inside⟩
  rcases List.mem_cons.mp inside with rfl | inside
  · simp
  · rcases List.mem_map.mp inside with ⟨row, shown, rfl⟩
    simp [Block.written, Block.label_unbroken shown, contents b member row shown]

end BindError

/-! ## Validation errors -/

namespace ValidationFailure

variable {f : ValidationFailure} {error : FieldError} {n : Name}

/-- The name that a field error is reported under: the root joined with the path of the field, or
with one more element if the path is no name. -/
def Concerns (f : ValidationFailure) (error : FieldError) (n : Name) : Prop :=
  (∃ path, Name.parse error.field = .ok path ∧ n = f.name.join path) ∨
    (∀ path, Name.parse error.field ≠ .ok path) ∧ n = f.name.child error.field

/-- The rows that a report shows of an error.  There is an origin exactly if a property has been
used under the name of the field, and it is that of the first one. -/
inductive Shows (f : ValidationFailure) : ValidationError → List (String × String) → Prop
  | located {error : FieldError} {n : Name} {before after : List Property} {used : Property}
      (concerns : f.Concerns error n) (split : f.bound = before ++ used :: after)
      (same : used.name.Same n) (first : ∀ other ∈ before, ¬ other.name.Same n) :
      Shows f (.field error) [("Property", toString n), ("Value", error.rejected.getD "null"),
        ("Origin", toString used.origin), ("Reason", error.message)]
  | unlocated {error : FieldError} {n : Name} (concerns : f.Concerns error n)
      (absent : ∀ used ∈ f.bound, ¬ used.name.Same n) :
      Shows f (.field error) [("Property", toString n), ("Value", error.rejected.getD "null"),
        ("Reason", error.message)]
  | object (message : String) : Shows f (.object message) [("Reason", message)]

theorem concerns_iff : f.Concerns error n ↔ f.propertyName error = n := by
  unfold Concerns propertyName
  cases Name.parse error.field with
  | ok path => simp [eq_comm]
  | error e => simp [eq_comm]

theorem originOf?_eq_none_iff : f.originOf? n = none ↔ ∀ used ∈ f.bound, ¬ used.name.Same n := by
  simp [originOf?]

/-- The block of an error has the rows that are shown of it and no others. -/
theorem shows_iff {error : ValidationError} {rows : List (String × String)} :
    f.Shows error rows ↔ rows = (f.block error).rows := by
  constructor
  · intro shows
    cases shows with
    | located concerns split same first =>
        have origin := originOf?_eq_some_iff.mpr ⟨_, _, _, split, same, rfl, first⟩
        simp [block, Block.rows, concerns_iff.mp concerns, origin]
    | unlocated concerns absent =>
        simp [block, Block.rows, concerns_iff.mp concerns, originOf?_eq_none_iff.mpr absent]
    | object message => rfl
  · rintro rfl
    cases error with
    | object message => exact .object message
    | field error =>
        have concerns : f.Concerns error (f.propertyName error) := concerns_iff.mpr rfl
        cases found : f.originOf? (f.propertyName error) with
        | none =>
            have unlocated := Shows.unlocated concerns (originOf?_eq_none_iff.mp found)
            simpa [block, Block.rows, found] using unlocated
        | some origin =>
            rcases originOf?_eq_some_iff.mp found with
              ⟨before, used, after, split, same, rfl, first⟩
            have located := Shows.located concerns split same first
            simpa [block, Block.rows, found] using located

theorem forall₂_shows_iff {errors : List ValidationError} {blocks : List (List (String × String))} :
    List.Forall₂ f.Shows errors blocks ↔ blocks = (errors.map f.block).map Block.rows := by
  induction errors generalizing blocks with
  | nil => simp
  | cons error errors inductionHypothesis =>
      simp only [List.forall₂_cons_left_iff, inductionHypothesis, shows_iff, List.map_cons]
      constructor
      · rintro ⟨_, _, rfl, rfl, rfl⟩
        rfl
      · rintro rfl
        exact ⟨_, _, rfl, rfl, rfl⟩

end ValidationFailure

namespace BindError

open Text

variable {e : BindError} {f : ValidationFailure}

theorem header_of_validation (caused : e.cause = .validation f) :
    e.header = "Binding to target " ++ e.target ++ " failed:" := by
  rw [header, caused]

theorem blocks_of_validation (caused : e.cause = .validation f) :
    e.blocks = f.errors.map f.block := by
  rw [blocks, caused]

/-- The last line of a report on validation shows the last reason, or it is the header. -/
theorem exists_last_line (caused : e.cause = .validation f)
    (shown : ∀ last ∈ f.errors.getLast?, EndsShown last.message) :
    ∃ last, e.lines.getLast? = some last ∧ EndsShown last := by
  rw [lines, header_of_validation caused, blocks_of_validation caused]
  rcases f.errors.eq_nil_or_concat' with none | ⟨front, error, split⟩
  · refine ⟨_, by rw [none]; rfl, ?_⟩
    have colon : EndsShown " failed:" := ⟨':', by decide, by decide⟩
    exact colon.append _
  · have reason : (f.block error).reason = error.message := by
      cases error <;> rfl
    have behind : f.errors.getLast? = some error := by rw [split, List.getLast?_concat]
    refine ⟨Block.written ("Reason", error.message), ?_, (shown error behind).append _⟩
    simp [split, Block.lines, Block.rows, reason, List.getLast?_cons]

end BindError

/-! ## Failures -/

namespace Failure

/-- The failure at the end of a chain of things that could not be created. -/
def innermost : Failure → Failure
  | creation _ reason => reason.innermost
  | failure => failure

/-- The first error of binding among the reasons can only be the innermost of them. -/
theorem bindError?_eq (failure : Failure) :
    failure.bindError? =
      match failure.innermost with
      | bind e => some e
      | _ => none := by
  induction failure with
  | creation target reason inductionHypothesis =>
      rw [innermost, ← inductionHypothesis]
      rfl
  | _ => rfl

/-- A failure whose innermost reason is a validation that found errors is reported, however many
creations have failed around it.  Unless the last reason is empty or ends in a blank, the report
is a header and a block for each error, in the order of the errors and each behind a blank line,
and these lines can be read off it if no text in it has a line break.  A failure whose innermost
reason is not an error of binding is not reported. -/
theorem analyze_validation (failure : Failure) :
    (∀ e f, failure.innermost = .bind e → e.cause = .validation f →
      ∃ description blocks,
        Analyzer.bindFailure.analyze failure =
          some ⟨description, "Update your application's configuration", .bind e⟩ ∧
        (∀ others, List.Forall₂ f.Shows f.errors others ↔ others = blocks) ∧
        ((∀ last ∈ f.errors.getLast?, Text.EndsShown last.message) →
          let lines := ("Binding to target " ++ e.target ++ " failed:") ::
            blocks.flatMap fun rows => "" :: rows.map fun row => "    " ++ row.1 ++ ": " ++ row.2
          description = Text.join "\n" lines ∧
          ('\n' ∉ e.target.toList → (∀ rows ∈ blocks, ∀ row ∈ rows, '\n' ∉ row.2.toList) →
            (Text.cutAt '\n' description.toList).map String.ofList = lines))) ∧
    ((∀ e, failure.innermost ≠ .bind e) → Analyzer.bindFailure.analyze failure = none) := by
  constructor
  · intro e f innermost caused
    have found : failure.bindError? = some e := by rw [bindError?_eq, innermost]
    refine ⟨e.description, e.blocks.map Block.rows, ?_, fun others => ?_, fun shown => ?_⟩
    · simp only [Analyzer.bindFailure, found, Option.map_some]
    · rw [ValidationFailure.forall₂_shows_iff, BindError.blocks_of_validation caused]
    · intro lines
      have header := BindError.header_of_validation caused
      have same : lines = e.lines := by
        simp only [lines, BindError.lines, header, List.flatMap_map]
        rfl
      rcases BindError.exists_last_line caused shown with ⟨last, behind, ends⟩
      have joined := BindError.description_eq_join behind ends
      rw [same]
      refine ⟨joined, fun target contents => ?_⟩
      rw [joined]
      apply Text.lines_join (List.cons_ne_nil _ _)
      apply BindError.unbroken_of_mem_lines
      · simp [header, target]
      · exact List.forall_mem_map.mp contents
  · intro other
    have none : failure.bindError? = none := by
      rw [bindError?_eq]
      split
      · exact absurd ‹_› (other _)
      · rfl
    simp only [Analyzer.bindFailure, none, Option.map_none]

/-- Three errors behind two creations: one of a property, one at a path that is no name, and one
of the value as a whole. -/
theorem analyze_validation_server :
    let name : Name := ⟨[.dotted "server"]⟩
    let errors : List ValidationError :=
      [.field ⟨"port", some "4", "at least five"⟩, .field ⟨"hosts[", none, "required"⟩,
        .object "not valid"]
    let bound : List Property := [⟨⟨[.dotted "Server", .dotted "port"]⟩, "4", ⟨"env", "PORT"⟩⟩]
    let e := BindError.here name "Server" none (.validation ⟨name, errors, bound⟩)
    (∃ description, Analyzer.bindFailure.analyze (.creation "App" (.creation "Pool" (.bind e))) =
        some ⟨description, "Update your application's configuration", .bind e⟩ ∧
      (Text.cutAt '\n' description.toList).map String.ofList =
        ["Binding to target Server failed:",
          "", "    Property: server.port", "    Value: 4",
          "    Origin: \"PORT\" from property source \"env\"", "    Reason: at least five",
          "", "    Property: server[hosts[]", "    Value: null", "    Reason: required",
          "", "    Reason: not valid"]) ∧
    Analyzer.bindFailure.analyze (.creation "App" .missingConfig) = none := by
  intro name errors bound e
  let f : ValidationFailure := ⟨name, errors, bound⟩
  rcases analyze_validation (.creation "App" (.creation "Pool" (.bind e))) with ⟨reported, _⟩
  rcases reported e f rfl rfl with ⟨description, blocks, analysis, only, lines⟩
  have port : f.Shows (.field ⟨"port", some "4", "at least five"⟩) _ :=
    .located (.inl ⟨⟨[.dotted "port"]⟩, by decide +kernel, rfl⟩) (List.nil_append _).symm
      (by decide +kernel) (List.forall_mem_nil _)
  have unread : ∀ path, Name.parse "hosts[" ≠ .ok path := by
    have fails : (Name.parse "hosts[").toOption = none := by decide +kernel
    intro path parses
    rw [parses] at fails
    exact Option.some_ne_none path fails
  have hosts : f.Shows (.field ⟨"hosts[", none, "required"⟩) _ :=
    .unlocated (.inr ⟨unread, rfl⟩) (by decide +kernel)
  have whole : f.Shows (.object "not valid") _ := .object "not valid"
  have shown := (only _).mp (.cons port (.cons hosts (.cons whole .nil)))
  subst shown
  have ends : ∀ last ∈ f.errors.getLast?, Text.EndsShown last.message := by
    rintro last ⟨⟩
    exact ⟨'d', by decide, by decide⟩
  rcases lines ends with ⟨_, read⟩
  refine ⟨⟨description, analysis, ?_⟩, (analyze_validation _).2 fun _ => Failure.noConfusion⟩
  exact (read (by decide +kernel) (by decide +kernel)).trans (by decide +kernel)

end Failure
end PropertyBinding
