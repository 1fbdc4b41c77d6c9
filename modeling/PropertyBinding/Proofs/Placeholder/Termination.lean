import PropertyBinding.Proofs.Placeholder.Independence
import PropertyBinding.Proofs.Placeholder.Reading
import PropertyBinding.Proofs.Store.Lookup

/-!
# References do not nest for ever

Cycles are found by comparing the texts of keys, and infinitely many texts name one
property, so that the number of properties bounds nothing.  What is finite is the
number of places where a key is written.  A key may be put together from other
values, but if it resolves at all it resolves to one text, wherever it is met.  The
keys on the way to a reference are all different, and each is the text of one of
the places, so there are no more of them than places.

As each place is opened by a dollar sign, `depthBound` is such a number, and the
resolver never reaches the end of its depth.
-/

namespace PropertyBinding
namespace Store

open Resolution Template

variable (s : Store)

/-! ## Places where keys are written -/

/-- A written key resolves to a text, while some keys are being followed. -/
def KeyText (t : Template) (text : String) : Prop :=
  ∃ depth visiting whole, (expand s.valueOf? (fun key => s.resolveWithin depth (key :: visiting))
    visiting whole t).run = some (.ok text.toList)

/-- A written key resolves to one text only. -/
theorem KeyText.unique {s : Store} {t : Template} {first second : String}
    (one : s.KeyText t first) (two : s.KeyText t second) : first = second := by
  rcases one with ⟨depth, visiting, whole, found⟩
  rcases two with ⟨depth', visiting', whole', found'⟩
  -- Both are found when nothing is being followed, to a depth that suffices for both.
  have kept : ∀ {d : Nat} {met : List String} {around : Template} {text : String},
      d ≤ max depth depth' →
      (expand s.valueOf? (fun key => s.resolveWithin d (key :: met)) met around t).run =
        some (.ok text.toList) →
      (expand s.valueOf? (fun key => s.resolveWithin (max depth depth') [key]) [] t t).run =
        some (.ok text.toList) := by
    intro d met around text enough found
    refine expand_keptBy (fun key value => ?_) (fun _ impossible => by cases impossible) around t t
      _ found
    exact s.resolveWithin_keptBy enough (List.cons_subset_cons key (List.nil_subset met)) value
  have same := (kept (Nat.le_max_left _ _) found).symm.trans (kept (Nat.le_max_right _ _) found')
  simp only [Option.some.injEq, Except.ok.injEq] at same
  exact String.toList_inj.mp same

open Classical in
/-- The text that a written key resolves to, if it does anywhere. -/
noncomputable def textOf? (t : Template) : Option String :=
  if resolves : ∃ text, s.KeyText t text then some resolves.choose else none

theorem KeyText.textOf?_eq {s : Store} {t : Template} {text : String}
    (resolves : s.KeyText t text) : s.textOf? t = some text := by
  have exists_text : ∃ text, s.KeyText t text := ⟨text, resolves⟩
  rw [textOf?, dif_pos exists_text, exists_text.choose_spec.unique resolves]

/-- There are no more texts of keys than places where keys are written. -/
theorem length_le_of_keyTexts {places : List Template} {texts : List String} (nodup : texts.Nodup)
    (written : ∀ text ∈ texts, ∃ t ∈ places, s.KeyText t text) :
    texts.length ≤ places.length := by
  have listed : texts ⊆ places.filterMap s.textOf? := by
    intro text member
    rcases written text member with ⟨t, place, resolves⟩
    exact List.mem_filterMap.mpr ⟨t, place, resolves.textOf?_eq⟩
  calc texts.length ≤ (places.filterMap s.textOf?).length := nodup.length_le_of_subset listed
    _ ≤ places.length := List.length_filterMap_le _ _

/-- The places where keys are written in the values of a store. -/
def places : List Template :=
  s.properties.flatMap fun p => (ofText p.value).keys

theorem length_places_le (value : String) :
    (ofText value).keys.length + s.places.length < s.depthBound value := by
  have counted : ∀ properties : List Property,
      (ofText value).keys.length +
          (properties.flatMap fun p => (ofText p.value).keys).length ≤
        properties.foldr (fun p total => dollars p.value + total) (dollars value) := by
    have one : ∀ text : String, (ofText text).keys.length ≤ dollars text := by
      intro text
      have bound := length_keys_le (ofText text)
      rwa [ofText, source_ofChars] at bound
    intro properties
    induction properties with
    | nil => exact one value
    | cons p rest inductionHypothesis =>
        have first := one p.value
        simp only [List.flatMap_cons, List.length_append, List.foldr_cons]
        omega
  exact Nat.lt_succ_of_le (counted s.properties)

/-- What a key names is the value of a property. -/
theorem exists_of_valueOf? {key value : String} (named : s.valueOf? key = some value) :
    ∃ p ∈ s.properties, p.value = value := by
  unfold valueOf? at named
  split at named
  · split at named
    · cases named
    · rcases Option.map_eq_some_iff.mp named with ⟨p, found, rfl⟩
      exact ⟨p, mem_of_mem_effective (get?_eq_some_iff.mp found).1, rfl⟩
  · cases named

/-! ## The depth suffices -/

/-- Of the keys being followed, those added last are all different and each is written
in one of some places.  With the depth that is left they make up for all places. -/
structure Followed (places : List Template) (depth : Nat) (added : List String) : Prop where
  nodup : added.Nodup
  written : ∀ text ∈ added, ∃ t ∈ places, s.KeyText t text
  room : places.length ≤ depth + added.length

/-- One more key takes one from the depth, which is there to be taken. -/
theorem Followed.cons {s : Store} {places : List Template} {depth : Nat} {added : List String}
    (followed : s.Followed places depth added) {t : Template} {key : String}
    (new : key ∉ added) (place : t ∈ places) (resolves : s.KeyText t key) :
    ∃ less, depth = less + 1 ∧ s.Followed places less (key :: added) := by
  have nodup : (key :: added).Nodup := List.nodup_cons.mpr ⟨new, followed.nodup⟩
  have written : ∀ text ∈ key :: added, ∃ t ∈ places, s.KeyText t text := by
    intro text member
    rcases List.mem_cons.mp member with rfl | earlier
    · exact ⟨t, place, resolves⟩
    · exact followed.written text earlier
  have few := s.length_le_of_keyTexts nodup written
  have room := followed.room
  rw [List.length_cons] at few
  refine ⟨depth - 1, by omega, nodup, written, ?_⟩
  rw [List.length_cons]
  omega

/-- Expanding a template finishes if following each of its references does. -/
theorem expand_finishes {places : List Template} {depth : Nat} {visiting : List String}
    (following : ∀ t ∈ places, ∀ key value, s.KeyText t key → key ∉ visiting →
      s.valueOf? key = some value → (s.resolveWithin depth (key :: visiting) value).run ≠ none)
    (whole t : Template) (within : t.keys ⊆ places) :
    (expand s.valueOf? (fun key => s.resolveWithin depth (key :: visiting))
      visiting whole t).run ≠ none := by
  have referring : ∀ {key : Template} {found : List Char} {absent : Unit → Resolution (List Char)},
      key ∈ places →
      (expand s.valueOf? (fun key => s.resolveWithin depth (key :: visiting)) visiting key
        key).run = some (.ok found) →
      (absent ()).run ≠ none →
      (referred s.valueOf? (fun key => s.resolveWithin depth (key :: visiting)) visiting
        (String.ofList found) absent).run ≠ none := by
    intro key found absent place resolved finishes
    unfold referred
    by_cases met : String.ofList found ∈ visiting
    · rw [if_pos met]
      exact fun impossible => by cases impossible
    · rw [if_neg met]
      cases named : s.valueOf? (String.ofList found) with
      | none => exact finishes
      | some value =>
          refine following key place _ value ⟨depth, visiting, key, ?_⟩ met named
          rw [resolved, String.toList_ofList]
  induction t generalizing whole with
  | done => exact fun impossible => by cases impossible
  | literal c rest restFinishes =>
      intro unfinished
      rcases run_bind_eq_none.mp unfinished with early | ⟨_, _, impossible⟩
      · exact restFinishes whole within early
      · cases impossible
  | escaped rest restFinishes =>
      intro unfinished
      rcases run_bind_eq_none.mp unfinished with early | ⟨_, _, impossible⟩
      · exact restFinishes whole within early
      · cases impossible
  | reference key rest keyFinishes restFinishes =>
      have parts := List.cons_subset.mp within
      have inner := List.append_subset.mp parts.2
      intro unfinished
      rcases run_bind_eq_none.mp unfinished with early | ⟨found, resolved, unfinished⟩
      · exact keyFinishes key inner.1 early
      rcases run_bind_eq_none.mp unfinished with early | ⟨value, _, unfinished⟩
      · exact referring parts.1 resolved (fun impossible => by cases impossible) early
      rcases run_bind_eq_none.mp unfinished with early | ⟨_, _, impossible⟩
      · exact restFinishes whole inner.2 early
      · cases impossible
  | referenceOr key fallback rest keyFinishes fallbackFinishes restFinishes =>
      have parts := List.cons_subset.mp within
      have inner := List.append_subset.mp parts.2
      have innermost := List.append_subset.mp inner.1
      intro unfinished
      rcases run_bind_eq_none.mp unfinished with early | ⟨found, resolved, unfinished⟩
      · exact keyFinishes key innermost.1 early
      rcases run_bind_eq_none.mp unfinished with early | ⟨value, _, unfinished⟩
      · exact referring parts.1 resolved (fallbackFinishes fallback innermost.2) early
      rcases run_bind_eq_none.mp unfinished with early | ⟨_, _, impossible⟩
      · exact restFinishes whole inner.2 early
      · cases impossible
  | unclosed body => exact fun impossible => by cases impossible

/-- Resolving finishes when there is depth for all places. -/
theorem resolveWithin_finishes {places : List Template} (closed : s.places ⊆ places)
    (before : List String) {depth : Nat} {added : List String}
    (followed : s.Followed places depth added) (value : String)
    (within : (ofText value).keys ⊆ places) :
    (s.resolveWithin (depth + 1) (added ++ before) value).run ≠ none := by
  refine s.expand_finishes (fun t place key raw resolves met named => ?_) _ _ within
  have new : key ∉ added := fun earlier => met (List.mem_append_left _ earlier)
  rcases followed.cons new place resolves with ⟨less, rfl, followedMore⟩
  rcases s.exists_of_valueOf? named with ⟨p, listed, rfl⟩
  refine resolveWithin_finishes closed before followedMore p.value fun t written => closed ?_
  exact List.mem_flatMap.mpr ⟨p, listed, written⟩
termination_by depth

/-- The bound suffices, whatever keys are being followed at the start. -/
theorem resolveWithin_depthBound (visiting : List String) (value : String) :
    (s.resolveWithin (s.depthBound value) visiting value).run ≠ none := by
  have bound := s.length_places_le value
  obtain ⟨depth, equal⟩ : ∃ depth, s.depthBound value = depth + 1 :=
    ⟨s.depthBound value - 1, by omega⟩
  have room : ((ofText value).keys ++ s.places).length ≤ depth + ([] : List String).length := by
    rw [List.length_append, List.length_nil]
    omega
  have followed : s.Followed ((ofText value).keys ++ s.places) depth [] :=
    ⟨List.nodup_nil, fun text impossible => absurd impossible List.not_mem_nil, room⟩
  rw [equal]
  exact s.resolveWithin_finishes (List.subset_append_right _ _) visiting followed value
    (List.subset_append_left _ _)

/-- `resolve` is what resolving comes to at any depth at which it finishes. -/
theorem resolve_eq_of_finished {depth : Nat} {value : String}
    {outcome : Except PlaceholderError (List Char)}
    (finished : (s.resolveWithin depth [] value).run = some outcome) :
    s.resolve value = outcome.map String.ofList := by
  have bound := s.resolveWithin_depthBound [] value
  cases reached : (s.resolveWithin (s.depthBound value) [] value).run with
  | none => exact absurd reached bound
  | some result =>
      have first := s.resolveWithin_extendedBy (Nat.le_max_left depth (s.depthBound value)) [] value
        _ finished
      have second := s.resolveWithin_extendedBy (Nat.le_max_right depth (s.depthBound value)) []
        value _ reached
      obtain rfl : outcome = result := Option.some.inj (first.symm.trans second)
      unfold resolve
      rw [show s.resolveWithin (s.depthBound value) [] value = some outcome from reached]

end Store
end PropertyBinding
