import Mathlib.Data.Nat.Find
import PropertyBinding.Proofs.Placeholder.Braces
import PropertyBinding.Proofs.Placeholder.Termination

/-!
# A placeholder stands for the value it names

A placeholder whose key names a property has the text of that property's value, with
or without a fallback, and one whose key names nothing has that of its fallback.  The
first of these is not plain from the resolver.  The value behind a reference is
resolved while one more key is being followed than when it is resolved on its own, so
it could come out as circular where the value alone has a text.

It cannot.  Take the least depth at which the value has a text.  If the key were met on
the way, its value would be resolved there to less depth, and would have a text at that
depth already.
-/

namespace PropertyBinding

/-! ## Written placeholders -/

namespace Placeholder

/-- A placeholder as it is written. -/
def written (key : String) (fallback : Option String) : String :=
  String.ofList ('$' :: '{' :: joinFallback key.toList (fallback.map String.toList) ++ ['}'])

/-- A key that is read as it stands. -/
def PlainKey (key : String) : Prop :=
  ∀ c ∈ key.toList, c ≠ '$' ∧ c ≠ '{' ∧ c ≠ '}' ∧ c ≠ ':'

instance (key : String) : Decidable (PlainKey key) :=
  List.decidableBAll (fun c => c ≠ '$' ∧ c ≠ '{' ∧ c ≠ '}' ∧ c ≠ ':') key.toList

namespace PlainKey

variable {key : String}

theorem no_dollar (plain : PlainKey key) : '$' ∉ key.toList :=
  fun member => (plain _ member).1 rfl

theorem balanced (plain : PlainKey key) : Balanced key.toList :=
  .of_no_braces (fun member => (plain _ member).2.1 rfl) (fun member => (plain _ member).2.2.1 rfl)

theorem splitFallback (plain : PlainKey key) (fallback : Option (List Char)) :
    splitFallback (joinFallback key.toList fallback) = (key.toList, fallback) := by
  apply splitFallback_joinFallback
  intro c member
  rcases plain c member with ⟨_, opening, closing, colon⟩
  exact ⟨colon, opening, closing⟩

end PlainKey

end Placeholder

namespace Template

open Placeholder

variable {lookup : String → Option String} {follow : String → String → Resolution (List Char)}
  {visiting : List String} {key fallback : String}

/-- A text without dollar signs is read as it stands. -/
theorem expand_of_no_dollar {cs : List Char} (noDollar : '$' ∉ cs) (whole : Template) :
    expand lookup follow visiting whole (ofChars cs) = pure cs := by
  induction cs with
  | nil =>
      rw [ofChars]
      rfl
  | cons c cs inductionHypothesis =>
      have other : c ≠ '$' := fun same => noDollar (same ▸ List.mem_cons_self)
      rw [ofChars_of_ne_dollar other, expand,
        inductionHypothesis fun later => noDollar (List.mem_cons_of_mem c later)]
      rfl

theorem ofText_written_none (plain : PlainKey key) :
    ofText (written key none) = reference (ofText key) done := by
  have cut := cutBody_of_balanced plain.balanced []
  have split := plain.splitFallback none
  rw [joinFallback] at split
  rw [ofText, written, String.toList_ofList]
  refine (ofChars_of_cutBody cut).trans ?_
  rw [split, ofChars, ofText]

theorem ofText_written_some (plain : PlainKey key) (balanced : Balanced fallback.toList) :
    ofText (written key (some fallback)) = referenceOr (ofText key) (ofText fallback) done := by
  have body : Balanced (joinFallback key.toList (some fallback.toList)) :=
    plain.balanced.append (balanced_colon.append balanced)
  rw [ofText, written, String.toList_ofList]
  refine (ofChars_of_cutBody (cutBody_of_balanced body [])).trans ?_
  rw [plain.splitFallback, ofChars, ofText, ofText]

theorem referred_of_some (new : key ∉ visiting) {value : String} (named : lookup key = some value)
    (absent : Unit → Resolution (List Char)) :
    referred lookup follow visiting key absent = follow key value := by
  rw [referred, if_neg new, named]

theorem referred_of_none (new : key ∉ visiting) (unnamed : lookup key = none)
    (absent : Unit → Resolution (List Char)) :
    referred lookup follow visiting key absent = absent () := by
  rw [referred, if_neg new, unnamed]

/-- A placeholder alone stands for what its key refers to. -/
theorem expand_written_none (plain : PlainKey key) (whole : Template) :
    expand lookup follow visiting whole (ofText (written key none)) =
      referred lookup follow visiting key fun _ => throw (.unresolvable key whole.text) := by
  rw [ofText_written_none plain, expand, ofText, expand_of_no_dollar plain.no_dollar]
  simp only [pure_bind, String.ofList_toList, expand, List.append_nil, bind_pure]

theorem expand_written_some (plain : PlainKey key) (balanced : Balanced fallback.toList)
    (whole : Template) :
    expand lookup follow visiting whole (ofText (written key (some fallback))) =
      referred lookup follow visiting key fun _ =>
        expand lookup follow visiting (ofText fallback) (ofText fallback) := by
  rw [ofText_written_some plain balanced, expand, ofText, expand_of_no_dollar plain.no_dollar]
  simp only [pure_bind, String.ofList_toList, expand, List.append_nil, bind_pure]

end Template

namespace Store

open Placeholder Template

variable (s : Store) {key value raw : String}

/-- A text without dollar signs resolves to itself, whatever the store holds. -/
theorem resolve_of_no_dollar (noDollar : '$' ∉ value.toList) : s.resolve value = .ok value := by
  have reached : (s.resolveWithin 1 [] value).run = some (.ok value.toList) := by
    rw [resolveWithin, Template.ofText, expand_of_no_dollar noDollar]
    rfl
  rw [s.resolve_eq_of_finished reached, Except.map, String.ofList_toList]

/-! ## Keys that name a property -/

/-- A key names a property: without the blanks around it, it is a name under which the
property is found, and not the empty one. -/
def Names (key : String) (p : Property) : Prop :=
  ∃ n, Name.parse (Text.trim key) = .ok n ∧ n ≠ Name.root ∧ s.get? n = some p

theorem valueOf?_of_names {s : Store} {p : Property} (names : s.Names key p) :
    s.valueOf? key = some p.value := by
  rcases names with ⟨n, parsed, proper, found⟩
  simp only [valueOf?, parsed, if_neg proper, found, Option.map_some]

theorem valueOf?_of_not_names {s : Store} (nothing : ∀ p, ¬ s.Names key p) :
    s.valueOf? key = none := by
  unfold valueOf?
  cases parsed : Name.parse (Text.trim key) with
  | error e => rfl
  | ok n =>
      by_cases empty : n = Name.root
      · simp only [if_pos empty]
      · simp only [if_neg empty]
        cases found : s.get? n with
        | none => rfl
        | some p => exact absurd ⟨n, parsed, empty, found⟩ (nothing p)

/-- What a key stands for is the value of the property that it names. -/
theorem exists_names_of_valueOf? {s : Store} (named : s.valueOf? key = some raw) :
    ∃ p, s.Names key p ∧ p.value = raw := by
  by_cases names : ∃ p, s.Names key p
  · rcases names with ⟨p, names⟩
    have same := (valueOf?_of_names names).symm.trans named
    exact ⟨p, names, Option.some.inj same⟩
  · rw [valueOf?_of_not_names fun p found => names ⟨p, found⟩] at named
    cases named

/-! ## Outcomes -/

/-- A value resolves to a text when it does so at some depth. -/
theorem resolve_eq_ok_iff {text : String} :
    s.resolve value = .ok text ↔
      ∃ depth, (s.resolveWithin depth [] value).run = some (.ok text.toList) := by
  constructor
  · intro resolved
    cases reached : (s.resolveWithin (s.depthBound value) [] value).run with
    | none => exact absurd reached (s.resolveWithin_depthBound [] value)
    | some outcome =>
        rw [s.resolve_eq_of_finished reached] at resolved
        cases outcome with
        | error e => cases resolved
        | ok found =>
            obtain rfl : String.ofList found = text := Except.ok.inj resolved
            exact ⟨_, by rw [reached, String.toList_ofList]⟩
  · rintro ⟨depth, found⟩
    rw [s.resolve_eq_of_finished found, Except.map, String.ofList_toList]

/-- Values that come to the same at each depth resolve to the same. -/
theorem resolve_congr {other : String}
    (same : ∀ depth, s.resolveWithin depth [] value = s.resolveWithin depth [] other) :
    s.resolve value = s.resolve other := by
  cases reached : (s.resolveWithin (s.depthBound value) [] value).run with
  | none => exact absurd reached (s.resolveWithin_depthBound [] value)
  | some outcome =>
      rw [s.resolve_eq_of_finished reached]
      rw [same] at reached
      rw [s.resolve_eq_of_finished reached]

/-- The text of a value is found whether or not a key that names the value is being
followed. -/
theorem resolveWithin_named_iff (named : s.valueOf? key = some raw) {text : List Char} :
    (∃ depth, (s.resolveWithin depth [key] raw).run = some (.ok text)) ↔
      ∃ depth, (s.resolveWithin depth [] raw).run = some (.ok text) := by
  classical
  constructor
  · rintro ⟨depth, found⟩
    exact ⟨depth, s.resolveWithin_keptBy (Nat.le_refl depth) (List.nil_subset _) raw text found⟩
  · rintro ⟨depth, found⟩
    have somewhere : ∃ depth text, (s.resolveWithin depth [] raw).run = some (.ok text) :=
      ⟨depth, text, found⟩
    -- At the least depth there is nothing to be found for the key on the way.
    have fruitless : ∀ less < Nat.find somewhere, ∀ text,
        (s.resolveWithin less [] raw).run ≠ some (.ok text) :=
      fun less below text early => Nat.find_min somewhere below ⟨text, early⟩
    rcases Nat.find_spec somewhere with ⟨least, first⟩
    have enough : Nat.find somewhere ≤ depth := Nat.find_min' somewhere ⟨text, found⟩
    have same :=
      (s.resolveWithin_keptBy enough (List.Subset.refl _) raw least first).symm.trans found
    rw [Option.some.inj same] at first
    exact ⟨_, s.resolveWithin_keptBy_cons named fruitless (List.Subset.refl _) raw text first⟩

/-- A reference has the text that is found when its key is being followed. -/
theorem resolve_reference_iff {reference : String}
    (refers : ∀ depth, s.resolveWithin (depth + 1) [] reference = s.resolveWithin depth [key] raw)
    {text : String} :
    s.resolve reference = .ok text ↔
      ∃ depth, (s.resolveWithin depth [key] raw).run = some (.ok text.toList) := by
  rw [s.resolve_eq_ok_iff]
  constructor
  · rintro ⟨depth, found⟩
    cases depth with
    | zero => cases found
    | succ depth => exact ⟨depth, by rw [← refers, found]⟩
  · rintro ⟨depth, found⟩
    exact ⟨depth + 1, by rw [refers, found]⟩

/-- A placeholder can be put in the place of the value it names, and the other way round.
With a key that names a property it has a text exactly when the property's value has,
and the same one, whatever fallback is written.  With a key that names none it comes to
what its fallback comes to, and is an error without one.  And a text that is found while
some keys are being followed is found while only some of them are, or none. -/
theorem resolve_written {key fallback : String} (plain : PlainKey key)
    (balanced : Balanced fallback.toList) :
    (∀ p, s.Names key p → ∀ text,
      (s.resolve (written key none) = .ok text ↔ s.resolve p.value = .ok text) ∧
        (s.resolve (written key (some fallback)) = .ok text ↔ s.resolve p.value = .ok text)) ∧
    ((∀ p, ¬ s.Names key p) →
      s.resolve (written key (some fallback)) = s.resolve fallback ∧
        s.resolve (written key none) = .error (.unresolvable key (written key none))) ∧
    ∀ depth deeper, depth ≤ deeper → ∀ visiting fewer, fewer ⊆ visiting → ∀ value text,
      (s.resolveWithin depth visiting value).run = some (.ok text) →
        (s.resolveWithin deeper fewer value).run = some (.ok text) := by
  refine ⟨fun p names text => ?_, fun nothing => ?_, ?_⟩
  · have named := valueOf?_of_names names
    have alone : ∀ depth, s.resolveWithin (depth + 1) [] (written key none) =
        s.resolveWithin depth [key] p.value := fun depth =>
      (expand_written_none plain _).trans (referred_of_some List.not_mem_nil named _)
    have fallingBack : ∀ depth, s.resolveWithin (depth + 1) [] (written key (some fallback)) =
        s.resolveWithin depth [key] p.value := fun depth =>
      (expand_written_some plain balanced _).trans (referred_of_some List.not_mem_nil named _)
    have value : s.resolve p.value = .ok text ↔
        ∃ depth, (s.resolveWithin depth [key] p.value).run = some (.ok text.toList) :=
      s.resolve_eq_ok_iff.trans (s.resolveWithin_named_iff named).symm
    exact ⟨(s.resolve_reference_iff alone).trans value.symm,
      (s.resolve_reference_iff fallingBack).trans value.symm⟩
  · have unnamed := valueOf?_of_not_names nothing
    constructor
    · apply s.resolve_congr
      intro depth
      cases depth with
      | zero => rfl
      | succ depth =>
          exact (expand_written_some plain balanced _).trans
            (referred_of_none List.not_mem_nil unnamed _)
    · have alone : s.resolveWithin 1 [] (written key none) =
          throw (.unresolvable key (written key none)) := by
        refine (expand_written_none plain _).trans ?_
        rw [referred_of_none List.not_mem_nil unnamed, text_ofText]
      exact s.resolve_eq_of_finished (congrArg ExceptT.run alone)
  · intro depth deeper enough visiting fewer subset value text found
    exact s.resolveWithin_keptBy enough subset value text found

/-- A key in another spelling than its property, whose value refers to another one, and
a key that names nothing, both with a fallback that has a placeholder of its own. -/
theorem resolve_written_greeting :
    let s := Store.empty.push "test" [⟨Name.root.child "a", "hello", ⟨"test", "a"⟩⟩,
      ⟨Name.root.child "b", "$\x7ba\x7d world", ⟨"test", "b"⟩⟩]
    let fallback := "$\x7bc:x\x7d"
    PlainKey " B" ∧ PlainKey "c" ∧ Balanced fallback.toList ∧
      s.Names " B" ⟨Name.root.child "b", "$\x7ba\x7d world", ⟨"test", "b"⟩⟩ ∧
      (∀ p, ¬ s.Names "c" p) ∧
      (s.resolve (written " B" (some fallback)) = .ok "hello world" ↔
        s.resolve "$\x7ba\x7d world" = .ok "hello world") ∧
      s.resolve (written "c" (some fallback)) = s.resolve fallback := by
  intro s fallback
  have spelled : PlainKey " B" := by decide
  have other : PlainKey "c" := by decide
  have balanced : Balanced fallback.toList := by decide
  have names : s.Names " B" ⟨Name.root.child "b", "$\x7ba\x7d world", ⟨"test", "b"⟩⟩ :=
    ⟨Name.root.child "b", by decide +kernel, by decide +kernel, by decide +kernel⟩
  have nothing : ∀ p, ¬ s.Names "c" p := by
    rintro p ⟨n, parsed, _, found⟩
    have parsedToo : Name.parse (Text.trim "c") = .ok (Name.root.child "c") := by decide +kernel
    obtain rfl : n = Name.root.child "c" := Except.ok.inj (parsed.symm.trans parsedToo)
    have missing : s.get? (Name.root.child "c") = none := by decide +kernel
    rw [missing] at found
    cases found
  exact ⟨spelled, other, balanced, names, nothing,
    ((s.resolve_written spelled balanced).1 _ names "hello world").2,
    ((s.resolve_written other balanced).2.1 nothing).1⟩

end Store
end PropertyBinding
