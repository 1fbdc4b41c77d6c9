import Mathlib.Data.List.Forall2
import PropertyBinding.Proofs.Store.Views
import PropertyBinding.Source.Basic

/-!
# Which definition counts after loading

Two rules decide which of several properties under one name counts.  Within a source the
later one replaces the earlier, and of several sources the one loaded later hides those
before it.  The first is kept by insertion into a sorted layer, the second by looking at
the layers from the top.  They come to one rule, in which sources are not mentioned: of all
properties, in the order in which the sources supply them, the last one under a name counts.

A source that cannot be loaded leaves no store behind.  Loading ends there, with its error,
and the sources after it are not looked at.
-/

namespace PropertyBinding

/-- A property is the last one of a list that goes by a name. -/
def Property.LastUnder (p : Property) (n : Name) (properties : List Property) : Prop :=
  n.Same p.name ∧ ∃ before after, properties = before ++ p :: after ∧
    ∀ later ∈ after, ¬ n.Same later.name

theorem Property.lastUnder_iff {p : Property} {n : Name} {properties : List Property} :
    p.LastUnder n properties ↔ (properties.reverse.find? fun q => n.Same q.name) = some p := by
  rw [find?_reverse_eq_some_iff, decide_eq_true_iff]
  simp only [LastUnder, Bool.not_eq_true', decide_eq_false_iff_not]

/-- Sources supply these properties, each source its own, in their order. -/
def Source.Supply (sources : List Source) (supplied : List (List Property)) : Prop :=
  List.Forall₂ (fun source properties => source.load.outcome = .ok properties) sources supplied

/-- All sources can be loaded, or there is a first one that cannot. -/
theorem Source.supply_or_fails (sources : List Source) :
    (∃ supplied, Supply sources supplied) ∨
      ∃ before source after supplied e, sources = before ++ source :: after ∧
        Supply before supplied ∧ source.load.outcome = .error e := by
  induction sources with
  | nil => exact .inl ⟨[], .nil⟩
  | cons source rest inductionHypothesis =>
      cases loaded : source.load.outcome with
      | error e => exact .inr ⟨[], source, rest, [], e, rfl, .nil, loaded⟩
      | ok properties =>
          rcases inductionHypothesis
            with ⟨supplied, supply⟩ | ⟨before, failing, after, supplied, e, rfl, supply, fails⟩
          · exact .inl ⟨properties :: supplied, .cons loaded supply⟩
          · exact .inr ⟨source :: before, failing, after, properties :: supplied, e, rfl,
              .cons loaded supply, fails⟩

namespace Store

variable {sources : List Source} {supplied : List (List Property)}

/-- In a layer that is pushed the last property under a name is found first, and what it has
nothing under is found as before. -/
theorem get?_push (s : Store) (source : String) (properties : List Property) (n : Name) :
    (s.push source properties).get? n =
      (properties.reverse.find? fun p => n.Same p.name).or (s.get? n) := by
  rw [get?, get?, push, List.reverse_append, List.reverse_singleton, List.singleton_append,
    List.findSome?_cons, Layer.get?_ofList]
  cases properties.reverse.find? fun p => n.Same p.name <;> rfl

/-- What sources supply is put on top of what a store has. -/
theorem loadOnto_of_supply (supply : Source.Supply sources supplied) (s : Store) :
    ∃ loaded, (s.loadOnto sources).outcome = .ok loaded ∧ ∀ n,
      loaded.get? n = (supplied.flatten.reverse.find? fun p => n.Same p.name).or (s.get? n) := by
  induction supply generalizing s with
  | nil => exact ⟨s, rfl, fun n => rfl⟩
  | @cons source properties rest further supplies _ inductionHypothesis =>
      rcases inductionHypothesis (s.push source.name properties) with ⟨loaded, outcome, found⟩
      refine ⟨loaded, ?_, fun n => ?_⟩
      · simp only [loadOnto, supplies, outcome]
      · rw [found, get?_push, List.flatten_cons, List.reverse_append, List.find?_append,
          Option.or_assoc]

/-- Loading fails as the first source that cannot be loaded. -/
theorem loadOnto_of_failure (supply : Source.Supply sources supplied) {source : Source}
    {e : SourceError} (fails : source.load.outcome = .error e) (after : List Source) (s : Store) :
    (s.loadOnto (sources ++ source :: after)).outcome = .error e := by
  induction supply generalizing s with
  | nil => simp only [List.nil_append, loadOnto, fails]
  | cons supplies _ inductionHypothesis =>
      simp only [List.cons_append, loadOnto, supplies, inductionHypothesis]

/-- When all sources can be loaded there is a store, in which the property under a name is the
last one that goes by this name among all that the sources supply, as it was supplied, and in
which there is none if there is none among them.  Otherwise loading fails with the error of the
first source that cannot be loaded.  One of the two is the case. -/
theorem load_last_definition (sources : List Source) :
    (∀ supplied, Source.Supply sources supplied →
      ∃ s, (load sources).outcome = .ok s ∧ ∀ n,
        (∀ p, s.get? n = some p ↔ p.LastUnder n supplied.flatten) ∧
          (s.get? n = none ↔ ∀ p ∈ supplied.flatten, ¬ n.Same p.name)) ∧
    (∀ before source after supplied e, sources = before ++ source :: after →
      Source.Supply before supplied → source.load.outcome = .error e →
        (load sources).outcome = .error e) ∧
    ((∃ supplied, Source.Supply sources supplied) ∨
      ∃ before source after supplied e, sources = before ++ source :: after ∧
        Source.Supply before supplied ∧ source.load.outcome = .error e) := by
  refine ⟨fun supplied supply => ?_, ?_, Source.supply_or_fails sources⟩
  · rcases loadOnto_of_supply supply empty with ⟨s, outcome, found⟩
    have last : ∀ n, s.get? n = supplied.flatten.reverse.find? fun p => n.Same p.name := fun n =>
      (found n).trans Option.or_none
    refine ⟨s, outcome, fun n => ⟨fun p => ?_, ?_⟩⟩
    · rw [last, Property.lastUnder_iff]
    · simp only [last, List.find?_eq_none, List.mem_reverse, decide_eq_true_iff]
  · rintro before source after supplied e rfl supply fails
    exact loadOnto_of_failure supply fails after empty

/-- One name in six spellings, two of them in a file and two on a command line, and a source
that cannot be loaded. -/
theorem load_last_definition_size :
    let underscore : Separator := ⟨['_'], List.cons_ne_nil _ _⟩
    let defaults := Source.table "defaults" [("maxSize", "1")]
    let file := Source.file "app.toml" true (.text "max-size = 2\nmax_size = 3\n")
    let environment := Source.environment ⟨['A'], underscore, [("A_MAXSIZE", "4")]⟩
    let arguments := Source.arguments ["--Max-Size=5", "run", "--[maxsize]=6"]
    let broken := Source.table "broken" [("max..size", "7")]
    (∃ s, (load [defaults, file, environment, arguments]).outcome = .ok s ∧
      s.get? (Name.root.child "max_size") =
        some ⟨⟨[.bracket "maxsize"]⟩, "6", ⟨"commandLineArgs", "[maxsize]"⟩⟩) ∧
      (load [defaults, broken, environment, .table "other" [("[", "8")]]).outcome =
        .error (.invalidName "max..size") := by
  intro underscore defaults file environment arguments broken
  let size (text value : String) (origin : Origin) : Property := ⟨⟨[.dotted text]⟩, value, origin⟩
  let inTable := [size "maxSize" "1" ⟨"defaults", "maxSize"⟩]
  let inFile := [size "max-size" "2" ⟨"app.toml", "max-size"⟩,
    size "max_size" "3" ⟨"app.toml", "max_size"⟩]
  let inEnvironment := [size "MAXSIZE" "4" ⟨"systemEnvironment", "A_MAXSIZE"⟩]
  let inArguments := [size "Max-Size" "5" ⟨"commandLineArgs", "Max-Size"⟩,
    ⟨⟨[.bracket "maxsize"]⟩, "6", ⟨"commandLineArgs", "[maxsize]"⟩⟩]
  have fromTable : defaults.load.outcome = .ok inTable := by decide +kernel
  have fromFile : file.load.outcome = .ok inFile := by decide +kernel
  have fromEnvironment : environment.load.outcome = .ok inEnvironment := by decide +kernel
  have fromArguments : arguments.load.outcome = .ok inArguments := by decide +kernel
  have supply : Source.Supply [defaults, file, environment, arguments]
      [inTable, inFile, inEnvironment, inArguments] :=
    .cons fromTable (.cons fromFile (.cons fromEnvironment (.cons fromArguments .nil)))
  rcases (load_last_definition _).1 _ supply with ⟨s, outcome, found⟩
  refine ⟨⟨s, outcome, ((found _).1 _).mpr (Property.lastUnder_iff.mpr ?_)⟩, ?_⟩
  · decide +kernel
  · have fails : broken.load.outcome = .error (.invalidName "max..size") := by decide +kernel
    exact (load_last_definition _).2.1 [defaults] broken [environment, .table "other" [("[", "8")]]
      [inTable] _ rfl (.cons fromTable .nil) fails

end Store
end PropertyBinding
