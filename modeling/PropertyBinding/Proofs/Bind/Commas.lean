import PropertyBinding.Proofs.Bind.Giving
import PropertyBinding.Proofs.Bind.Prefixes
import PropertyBinding.Proofs.Source.Flattening
import PropertyBinding.Proofs.Text.Parts

/-!
# Commas and positions write the same lists

A list of scalars can be written in one value, with commas, or element by element, with a
position for each.  The two are bound in different ways.  The parts of a value are handed
down, at the name of the list, and no nodes are visited.  Elements are nodes of their own, and
each looks up its value at its own name in the source of the list.

What a scalar target makes of a text does not depend on where the text comes from.  So both
ways come down to one conversion for each text, from the first to the last, and the list is
bound if all of them succeed.
-/

namespace PropertyBinding

variable {α β γ ρ : Type}

/-! ## Steps that come to the same in all runs -/

/-- In all runs with the same sources in scope the step has the same value or fails, and it
leaves these sources in scope. -/
def Binding.Makes (scope : Store) (step : Binding α) (made : Option α) : Prop :=
  ∀ run, run.scope = scope → (step run).1.toOption = made ∧ (step run).2.scope = scope

namespace Binding.Makes

variable {scope : Store} {step : Binding α} {a : α} {made : Option α}

theorem pure (a : α) : Makes scope (Pure.pure a) (some a) :=
  fun _ inScope => ⟨rfl, inScope⟩

theorem fail (e : BindError) : Makes scope (Binding.fail e : Binding α) none :=
  fun _ inScope => ⟨rfl, inScope⟩

theorem mismatch (m : Mismatch) : Makes scope (Binding.mismatch m : Binding α) none :=
  fun _ inScope => ⟨rfl, inScope⟩

theorem of_gives {texts : List (Name × String)} (gives : Gives scope step a texts) :
    Makes scope step (some a) := by
  intro run inScope
  rcases gives run inScope with ⟨after, ran, kept, _⟩
  rw [ran]
  exact ⟨rfl, kept⟩

theorem bind {next : α → Binding β} {make : α → Option β} (first : Makes scope step made)
    (second : ∀ a, made = some a → Makes scope (next a) (make a)) :
    Makes scope (step >>= next) (made.bind make) := by
  intro run inScope
  rcases ran : step run with ⟨outcome, after⟩
  rcases first run inScope with ⟨same, kept⟩
  rw [ran] at same kept
  subst same
  cases outcome with
  | error e =>
      rw [bind_of_error ran]
      exact ⟨rfl, kept⟩
  | ok a =>
      rw [bind_of_ok ran]
      exact second a rfl after kept

/-- A step after which another one makes something of the value. -/
theorem andThen {next : α → Binding β} {f : α → β} (first : Makes scope step made)
    (second : ∀ a, made = some a → Makes scope (next a) (some (f a))) :
    Makes scope (step >>= next) (made.map f) := by
  have both : Makes scope (step >>= next) (made.bind (some ∘ f)) := first.bind second
  rwa [← Option.map_eq_bind] at both

theorem map (f : α → β) (inner : Makes scope step made) :
    Makes scope (f <$> step) (made.map f) := by
  intro run inScope
  rcases inner run inScope with ⟨same, kept⟩
  rw [map_apply, ← same]
  refine ⟨?_, kept⟩
  cases (step run).1 <;> rfl

/-- A step behind one whose value is known. -/
theorem after {next : α → Binding β} {made : Option β} (first : Makes scope step (some a))
    (second : Makes scope (next a) made) : Makes scope (step >>= next) made := by
  have both : Makes scope (step >>= next) ((some a).bind fun _ => made) :=
    first.bind fun _ same => Option.some.inj same ▸ second
  exact both

theorem look {next : Store → Binding β} {made : Option β}
    (inner : Makes scope (next scope) made) : Makes scope (Binding.scope >>= next) made := by
  intro run inScope
  rw [Binding.scope_bind, inScope]
  exact inner run inScope

/-- One step for each of some things makes all values or fails. -/
theorem each {step : α → Binding β} {make : γ → Option β} {items : List α} {sources : List γ}
    (inner : List.Forall₂ (fun a source => Makes scope (step a) (make source)) items sources) :
    Makes scope (Binding.each step items) (sources.mapM make) := by
  induction inner with
  | nil => exact .pure []
  | cons first _ inductionHypothesis =>
      rw [List.mapM_cons]
      exact first.bind fun b _ => inductionHypothesis.bind fun bs _ => .pure (b :: bs)

end Binding.Makes

theorem length_of_mapM {make : α → Option β} {items : List α} {values : List β}
    (all : items.mapM make = some values) : values.length = items.length := by
  induction items generalizing values with
  | nil =>
      cases all
      rfl
  | cons a rest inductionHypothesis =>
      rw [List.mapM_cons] at all
      rcases Option.bind_eq_some_iff.mp all with ⟨b, _, others⟩
      rcases Option.bind_eq_some_iff.mp others with ⟨bs, later, same⟩
      cases same
      rw [List.length_cons, List.length_cons, inductionHypothesis later]

/-! ## Scalars -/

namespace Target

/-- The value that a text stands for. -/
def ofText : Target ρ → String → Option Value
  | truth, s => (Conversion.truth s).toOption.map .truth
  | whole type, s => (Conversion.whole type s).toOption.map (.whole type)
  | float format, s => (Conversion.float format s).toOption.map (.float format)
  | char, s => (Conversion.char s).toOption.map .char
  | text, s => some (.text s)
  | bytes, s => some (.bytes s.toUTF8.toList)
  | variant enumeration, s => (Conversion.variant enumeration s).toOption.bind fun v =>
      if v.content = .none then some (.variant (enumeration.choice v)) else none
  | option target, s => (ofText target s).map .present
  | wrapper _ target, s => ofText target s
  | boxed target, s => ofText target s
  | _, _ => none

end Target

namespace Session

open Binding

variable {S : Session} {scope : Store} {name : Name} {given : Option Part} {part : Part}
  {declarations : Declarations ρ}

theorem text_makes {label : String} (scalar : Makes scope (S.scalar name given label) (some part)) :
    Makes scope (S.text name given label) (some part.text) :=
  scalar.map Part.text

theorem convert_makes {label : String} {conversion : String → Except ConversionReason α}
    (scalar : Makes scope (S.scalar name given label) (some part)) :
    Makes scope (S.convert name given label conversion) (conversion part.text).toOption := by
  refine scalar.after ?_
  cases conversion part.text with
  | ok a => exact .pure a
  | error reason => exact .fail _

/-- What a scalar target makes of a text does not depend on where the text comes from. -/
theorem read_makes {target : Target ρ} (scalar : target.Scalar) (enter : Enter ρ)
    (there : (given.isSome || scope.contains name) = true)
    (found : ∀ label, Makes scope (S.scalar name given label) (some part)) :
    Makes scope (S.read declarations enter target name given) (target.ofText part.text) := by
  induction target, scalar using Target.Scalar.induction with
  | truth => exact (convert_makes (found _)).map _
  | whole type => exact (convert_makes (found _)).map _
  | float format => exact (convert_makes (found _)).map _
  | char => exact (convert_makes (found _)).map _
  | text => exact (text_makes (found _)).map _
  | bytes => exact (text_makes (found _)).map fun s => Value.bytes s.toUTF8.toList
  | variant enumeration =>
      refine (convert_makes (found _)).bind fun v _ => ?_
      by_cases plain : v.content = .none
      · rw [if_pos plain, if_pos plain]
        exact .pure _
      · rw [if_neg plain, if_neg plain]
        exact .mismatch _
  | option target scalar inner =>
      refine .look ?_
      rw [if_pos there]
      exact inner.map _
  | wrapper label target scalar inner => exact inner
  | boxed target scalar inner => exact inner

/-! ## The two ways -/

/-- Under the handler that accepts everything, the outcome of a node stands. -/
theorem Settles.toOption_eq {outcome closed : Except BindError α}
    (accepting : S.handler = .accepting) (settles : S.Settles name outcome closed) :
    closed.toOption = outcome.toOption := by
  cases settles with
  | stands shown accepted => rfl
  | rejected shown again rejection =>
      rw [accepting] at rejection
      cases rejection
  | failed shown => rfl

theorem descend_makes {slot : Slot} {step : Binding α} {made : Option α}
    (accepting : S.handler = .accepting) (inner : Makes scope step made) :
    Makes scope (S.descend name slot step) made := by
  intro run inScope
  have entered : (run.enter name).scope = scope := inScope
  rcases inner (run.enter name) entered with ⟨same, kept⟩
  refine ⟨(Settles.toOption_eq accepting descend_settles).trans same, ?_⟩
  rcases ran : step (run.enter name) with ⟨outcome, middle⟩
  rw [ran] at kept
  rcases S.closed_continues name slot step ran with ⟨close, _, closed⟩
  exact closed.scope.trans kept

variable {target : Target ρ}

/-- A scalar with a value at its name is made from the value. -/
theorem node_makes (scalar : target.Scalar) {p : Property} (found : scope.get? name = some p)
    (plain : '$' ∉ p.value.toList) :
    Makes scope (S.node declarations target name) (target.ofText p.value) := by
  have there : scope.contains name = true := Store.contains_of_get? found
  exact read_makes scalar _ (Bool.or_eq_true_iff.mpr (.inr there))
    fun label => .of_gives (scalar_gives found plain)

/-- A list in one value is made from the parts of the value. -/
theorem list_node_makes (scalar : target.Scalar) {w : Store}
    (source : scope.sourceOf? name = some w) (whole : (w.get? name).isSome = true)
    {p : Property} (found : scope.get? name = some p)
    (plain : '$' ∉ p.value.toList) :
    Makes scope (S.node declarations (.list target) name)
      (((Conversion.parts p.value).mapM target.ofText).map .list) := by
  let kind := Sequence.growing (Target.label declarations (.list target)) target .list
  let enter := S.readWithin declarations S.sources.height
  let readParts := Binding.each fun part => S.read declarations enter target name (some part)
  -- A part is handed down at the name of the list, and nothing is looked up there.
  have part : ∀ text, Makes scope (S.read declarations enter target name (some ⟨text, p⟩))
      (target.ofText text) := by
    intro text
    have given : ∀ label, Makes scope (S.scalar name (some ⟨text, p⟩) label) (some ⟨text, p⟩) :=
      fun _ => .pure _
    exact read_makes scalar enter rfl given
  have parts : Makes scope (readParts ((Conversion.parts p.value).map fun text => ⟨text, p⟩))
      ((Conversion.parts p.value).mapM target.ofText) :=
    .each (List.forall₂_map_left_iff.mpr (List.forall₂_same.mpr fun text _ => part text))
  have delimited : Makes scope (S.delimited readParts kind name none)
      (((Conversion.parts p.value).mapM target.ofText).map .list) :=
    (Makes.of_gives (scalar_gives found plain)).after
      (parts.andThen fun items _ => .pure (Value.list items))
  have opened : S.node declarations (.list target) name =
      S.sequence enter readParts kind name none := rfl
  rw [opened, sequence]
  simp only [Option.isSome_none, Bool.false_eq_true, if_false]
  refine .look ?_
  simp only [source, whole, if_true]
  exact delimited

/-- An element that is a scalar is made from the value at its position. -/
theorem element_makes (accepting : S.handler = .accepting) (scalar : target.Scalar)
    {position : Nat} {p : Property} (found : scope.get? (name.childAt position) = some p)
    (plain : '$' ∉ p.value.toList) :
    Makes scope (S.element declarations target name position) (target.ofText p.value) := by
  have offered : Makes scope (S.offer (name.childAt position) (.element position)) (some true) :=
    .of_gives (offer_gives accepting _ _)
  exact offered.after (descend_makes accepting (node_makes scalar found plain))

/-- A list from elements is made from the values at its positions. -/
theorem upTo_makes (accepting : S.handler = .accepting) (scalar : target.Scalar)
    {texts : List String} (each : ∀ i t, texts[i]? = some t →
      ∃ p, scope.get? (name.childAt i) = some p ∧ p.value = t) (plain : ∀ t ∈ texts, '$' ∉ t.toList)
    (nothing : beyond scope name texts.length = []) :
    Makes scope (S.upTo declarations target name scope texts.length)
      ((texts.mapM target.ofText).map .list) := by
  have elements : List.Forall₂ (fun i t => Makes scope (S.element declarations target name i)
      (target.ofText t)) (List.range texts.length) texts := by
    refine List.forall₂_iff_get.mpr ⟨List.length_range, fun i _ within => ?_⟩
    rcases each i _ (List.getElem?_eq_getElem within) with ⟨p, found, same⟩
    rw [List.get_eq_getElem, List.getElem_range, List.get_eq_getElem, ← same]
    exact element_makes accepting scalar found (same ▸ plain _ (List.getElem_mem within))
  refine (Makes.each elements).andThen fun items all => ?_
  rw [gather_of_nothing (length_of_mapM all ▸ nothing)]
  exact .pure _

end Session

/-! ## Whole runs -/

namespace Binder

variable {declarations : Declarations ρ} {target : Target ρ}

private theorem toOption_withTarget (closed : Except BindError Value) (type : String) :
    ((closed.map some).mapError (·.withTarget type)).toOption = closed.toOption.map some := by
  cases closed <;> rfl

/-- Under the handler that accepts everything, what the node at the root makes is what binding
makes. -/
theorem bindAt_of_makes {b : Binder ρ} (accepting : b.handler = .accepting) {root : Name}
    {made : Option Value} (there : b.sources.contains root = true)
    (makes : Binding.Makes b.sources ((b.session target).node b.declarations target root) made)
    (existing : Bool) :
    (b.bindAt target root existing).result.toOption = made.map some := by
  have unvetoed : Unvetoed (callsOf (b.bindAt target root existing).history) :=
    bindAt_unvetoed (fun _ => by rw [accepting]; rfl) target root existing
  rcases b.bindAt_node target root existing there
    with ⟨_, vetoed⟩ | ⟨run, inside, closed, inScope, _, _, settles, result⟩
  · exact absurd unvetoed vetoed
  · rw [result, toOption_withTarget, settles.toOption_eq accepting, (makes run inScope).1]

variable {texts pieces : List String}

/-- A source of which the only property is a list that is written with commas. -/
theorem bindAt_commas (scalar : target.Scalar) (n : Name) (nonempty : texts ≠ [])
    (shown : texts ≠ [""]) (trimmed : ∀ t ∈ texts, Text.trim t = t)
    (plainTexts : ∀ t ∈ texts, ',' ∉ t.toList ∧ '$' ∉ t.toList)
    (padded : List.Forall₂ Text.Padded texts pieces) (source : String) (origin : Origin)
    (existing : Bool) :
    let s := Store.empty.push source [⟨n, Text.join "," pieces, origin⟩]
    ((plain s declarations).bindAt (.list target) n existing).result.toOption =
      (texts.mapM target.ofText).map fun items => some (.list items) := by
  intro s
  have carries : s.Carries n [(n, Text.join "," pieces)] := Store.push_carries source _ n
  rcases carries.get?_of_text with ⟨p, found, value⟩
  have there : s.contains n = true := Store.contains_of_get? found
  have plainValue : '$' ∉ p.value.toList := by
    rw [value]
    intro member
    rcases Text.mem_join member with impossible | ⟨piece, listed, inside⟩
    · cases impossible
    · exact Text.not_mem_of_padded rfl (fun t listed => (plainTexts t listed).2) padded piece listed
        inside
  have parts : Conversion.parts p.value = texts := by
    rw [value]
    exact Conversion.parts_join nonempty shown trimmed (fun t listed => (plainTexts t listed).1)
      padded
  have alone : s.sourceOf? n = some s := Store.sourceOf?_single there
  let b := plain s declarations
  have node : Binding.Makes s ((b.session (.list target)).node declarations (.list target) n)
      (((Conversion.parts p.value).mapM target.ofText).map .list) :=
    Session.list_node_makes scalar alone (Option.isSome_of_mem found) found plainValue
  have made : (b.bindAt (.list target) n existing).result.toOption = _ :=
    bindAt_of_makes rfl there node existing
  rw [made, parts, Option.map_map]
  rfl

/-- A list of which the highest source has the elements and nothing else. -/
theorem bindAt_carried (scalar : target.Scalar) {s : Store} {l : Layer} {n : Name}
    (highest : s.Highest n l)
    (carries : (Store.single l).Carries n (flatten n (.list (texts.map .text))))
    (plainTexts : ∀ t ∈ texts, '$' ∉ t.toList) (existing : Bool) :
    ((plain s declarations).bindAt (.list target) n existing).result.toOption =
      (texts.mapM target.ofText).map fun items => some (.list items) := by
  let w := Store.single l
  have full : ∀ m, ∀ item ∈ texts.map Toml.Value.text, flatten m item ≠ [] := by
    intro m item listed
    rcases List.mem_map.mp listed with ⟨t, _, rfl⟩
    exact List.cons_ne_nil _ _
  have ends : w.EndsAt n texts.length := by
    have counted := carries.endsAt full
    rwa [List.length_map] at counted
  have nothing : beyond w n texts.length = [] := by
    have left := carries.beyond_eq_nil
    rwa [List.length_map] at left
  have each : ∀ i t, texts[i]? = some t →
      ∃ p, w.get? (n.childAt i) = some p ∧ p.value = t := by
    intro i t listed
    have item : (texts.map Toml.Value.text)[i]? = some (.text t) := by
      rw [List.getElem?_map, listed, Option.map_some]
    exact (carries.item item).get?_of_text
  let b := plain s declarations
  have unvetoed : Unvetoed (callsOf (b.bindAt (.list target) n existing).history) :=
    bindAt_unvetoed (fun _ => rfl) (.list target) n existing
  rcases bindAt_list_node highest.sourceOf? carries.get?_of_list
    (fun visit vetoed => absurd vetoed (unvetoed visit)) ends
    with ⟨_, vetoed⟩ | ⟨start, _, closed, inScope, _, _, settles, result⟩
  · exact absurd unvetoed vetoed
  · have accepting : (b.session (.list target)).handler = .accepting := rfl
    have elements : Binding.Makes w
        ((b.session (.list target)).upTo b.declarations target n w texts.length)
        ((texts.mapM target.ofText).map .list) :=
      Session.upTo_makes accepting scalar each plainTexts nothing
    have made := (elements start inScope).1
    rw [result, toOption_withTarget, settles.toOption_eq accepting, made, Option.map_map]
    rfl

/-- A source of which the only properties are the elements of a list. -/
theorem bindAt_indexed (scalar : target.Scalar) (n : Name) (nonempty : texts ≠ [])
    (plainTexts : ∀ t ∈ texts, '$' ∉ t.toList) (source : String) (origins : Nat → Origin)
    (existing : Bool) :
    let s := Store.empty.push source (texts.mapIdx fun i t => ⟨n.childAt i, t, origins i⟩)
    ((plain s declarations).bindAt (.list target) n existing).result.toOption =
      (texts.mapM target.ofText).map fun items => some (.list items) := by
  intro s
  have written : (texts.mapIdx fun i t => Property.mk (n.childAt i) t (origins i)).map
      (fun p => (p.name, p.value)) = flatten n (.list (texts.map .text)) := by
    rw [flatten_texts, List.mapIdx_eq_zipIdx_map, List.mapIdx_eq_zipIdx_map, List.map_map]
    rfl
  have carries : s.Carries n (flatten n (.list (texts.map .text))) :=
    written ▸ Store.push_carries source _ n
  have there : s.contains n = true := carries.contains_texts_iff.mpr nonempty
  exact bindAt_carried scalar (Store.highest_concat [] there) carries plainTexts existing

/-- A list of scalars that is written in one value, with commas and any blanks around them,
and one that is written element by element are bound alike: both become the list of what the
texts stand for, or both fail because some text stands for nothing. -/
theorem bindAt_commas_eq_indexed (scalar : target.Scalar) (declarations : Declarations ρ)
    (n : Name) (nonempty : texts ≠ []) (shown : texts ≠ [""])
    (trimmed : ∀ t ∈ texts, Text.trim t = t)
    (plainTexts : ∀ t ∈ texts, ',' ∉ t.toList ∧ '$' ∉ t.toList)
    (padded : List.Forall₂ Text.Padded texts pieces) (source other : String) (origin : Origin)
    (origins : Nat → Origin) (existing : Bool) :
    let commas := Store.empty.push source [⟨n, Text.join "," pieces, origin⟩]
    let indexed := Store.empty.push other (texts.mapIdx fun i t => ⟨n.childAt i, t, origins i⟩)
    let bound (s : Store) :=
      ((plain s declarations).bindAt (.list target) n existing).result.toOption
    bound commas = bound indexed ∧
      bound indexed = (texts.mapM target.ofText).map fun items => some (.list items) := by
  intro commas indexed bound
  have whole : bound commas = (texts.mapM target.ofText).map fun items => some (.list items) :=
    bindAt_commas scalar n nonempty shown trimmed plainTexts padded source origin existing
  have each : bound indexed = (texts.mapM target.ofText).map fun items => some (.list items) :=
    bindAt_indexed scalar n nonempty (fun t listed => (plainTexts t listed).2) other origins
      existing
  exact ⟨whole.trans each.symm, each⟩

/-- Texts of which one is empty, as optional values of a type of their own. -/
theorem bindAt_commas_eq_indexed_tags :
    let tags := Name.root.child "tags"
    let tag : Target Empty := .option (.wrapper "app::Tag" .text)
    let declarations : Declarations Empty := ⟨(nomatch ·), (nomatch ·)⟩
    let commas := Store.empty.push "line"
      [⟨tags, Text.join "," ["a ", " ", "\tc"], ⟨"line", "tags"⟩⟩]
    let indexed := Store.empty.push "file" (["a", "", "c"].mapIdx fun i t =>
      ⟨tags.childAt i, t, ⟨"file", toString (tags.childAt i)⟩⟩)
    let bound (s : Store) :=
      ((plain s declarations).bindAt (.list tag) tags false).result.toOption
    bound commas = bound indexed ∧ bound indexed = some (some (.list
      [.present (.text "a"), .present (.text ""), .present (.text "c")])) := by
  intro tags tag declarations commas indexed bound
  have scalar : tag.Scalar := trivial
  have padded : List.Forall₂ Text.Padded ["a", "", "c"] ["a ", " ", "\tc"] :=
    .cons ⟨[], [' '], List.forall_mem_nil _, List.forall_mem_singleton.mpr rfl, by decide⟩
      (.cons ⟨[' '], [], List.forall_mem_singleton.mpr rfl, List.forall_mem_nil _, by decide⟩
        (.cons ⟨['\t'], [], List.forall_mem_singleton.mpr rfl, List.forall_mem_nil _, by decide⟩
          .nil))
  have both := bindAt_commas_eq_indexed scalar declarations tags (by decide) (by decide)
    (by decide) (by decide) padded "line" "file" ⟨"line", "tags"⟩
    (fun i => ⟨"file", toString (tags.childAt i)⟩) false
  exact ⟨both.1, both.2.trans rfl⟩

end Binder
end PropertyBinding
