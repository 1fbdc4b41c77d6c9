import PropertyBinding.Proofs.Bind.Lists
import PropertyBinding.Proofs.Bind.Positions
import PropertyBinding.Source.Basic

/-!
# What a flattened document leaves in a store

Flattening writes each text of a document under a name that leads to it.  A store *carries*
these texts at a name if it has, at the name and below it, exactly what flattening gives
there.  A store loaded from a document alone carries all of it at the empty name.

What is carried at a name splits up over the members of the name.  Those of a table have
different keys in relaxed form, and those of a list have different positions, so nothing
that is written for one member is found under another.  This is all that binding needs to
know of a document: at a text there is the text, and at a list there are as many children
as items, one at each position, and nothing beyond.
-/

namespace PropertyBinding

/-- A table sets a key to a value: it has an entry for the key, and the keys of all other
entries are different from it in relaxed form. -/
def Toml.Entries.Sets (entries : Toml.Entries) (key : String) (value : Toml.Value) : Prop :=
  ∃ before after, entries = before ++ (key, value) :: after ∧
    ∀ entry ∈ before ++ after, (Element.ofKey entry.1).relaxed ≠ (Element.ofKey key).relaxed

/-! ## Where flattening puts texts -/

theorem mem_flattenEntries {n : Name} {entries : Toml.Entries} {x : Name × String} :
    x ∈ flattenEntries n entries ↔ ∃ entry ∈ entries, x ∈ flatten (n.child entry.1) entry.2 := by
  induction entries with
  | nil => simp [flattenEntries]
  | cons entry rest inductionHypothesis =>
      rw [flattenEntries, List.mem_append, inductionHypothesis]
      simp

theorem mem_flattenItems {n : Name} {start : Nat} {items : List Toml.Value} {x : Name × String} :
    x ∈ flattenItems n start items ↔
      ∃ i item, items[i]? = some item ∧ x ∈ flatten (n.childAt (start + i)) item := by
  induction items generalizing start with
  | nil => simp [flattenItems]
  | cons item rest inductionHypothesis =>
      rw [flattenItems, List.mem_append, inductionHypothesis]
      constructor
      · rintro (first | ⟨i, later, listed, member⟩)
        · exact ⟨0, item, rfl, first⟩
        · exact ⟨i + 1, later, listed, by rwa [Nat.add_right_comm] at member⟩
      · rintro ⟨i, found, listed, member⟩
        cases i with
        | zero => exact Or.inl (Option.some.inj listed ▸ member)
        | succ i => exact Or.inr ⟨i, found, listed, by rwa [Nat.add_right_comm]⟩

theorem flattenEntries_append (n : Name) (front back : Toml.Entries) :
    flattenEntries n (front ++ back) = flattenEntries n front ++ flattenEntries n back := by
  induction front with
  | nil => rfl
  | cons entry rest inductionHypothesis =>
      rw [List.cons_append, flattenEntries, flattenEntries, inductionHypothesis, List.append_assoc]

theorem flattenItems_append (n : Name) (start : Nat) (front back : List Toml.Value) :
    flattenItems n start (front ++ back) =
      flattenItems n start front ++ flattenItems n (start + front.length) back := by
  induction front generalizing start with
  | nil => rfl
  | cons item rest inductionHypothesis =>
      rw [List.cons_append, flattenItems, flattenItems, inductionHypothesis, List.append_assoc,
        List.length_cons, Nat.add_right_comm start 1]
      rfl

/-- A list of texts is flattened to one text at each position. -/
theorem flatten_texts (n : Name) (texts : List String) :
    flatten n (.list (texts.map .text)) = texts.mapIdx fun i t => (n.childAt i, t) := by
  have each : ∀ start, flattenItems n start (texts.map .text) =
      texts.mapIdx fun i t => (n.childAt (start + i), t) := by
    induction texts with
    | nil => exact fun _ => rfl
    | cons t rest inductionHypothesis =>
        intro start
        rw [List.map_cons, flattenItems, inductionHypothesis, List.mapIdx_cons]
        simp only [flatten, List.singleton_append, Nat.add_zero, Nat.add_assoc, Nat.add_comm 1]
  rw [flatten, each 0]
  simp only [Nat.zero_add]

/-- The properties of a document are its texts under their names. -/
theorem map_documentProperties (source : String) (entries : Toml.Entries) :
    (documentProperties source entries).map (fun p => (p.name, p.value)) =
      flatten .root (.table entries) := by
  rw [documentProperties, List.map_map, flatten]
  exact List.map_id _

/-- Whatever is flattened at a name lies at the name or below it. -/
theorem leads_of_mem_flatten {n : Name} {value : Toml.Value} {x : Name × String}
    (member : x ∈ flatten n value) : n.Leads x.1 := by
  match value with
  | .table entries =>
      rcases mem_flattenEntries.mp member with ⟨entry, listed, inner⟩
      exact (n.leads_push _).trans (leads_of_mem_flatten inner)
  | .list items =>
      rcases mem_flattenItems.mp member with ⟨i, item, listed, inner⟩
      exact (n.leads_push _).trans (leads_of_mem_flatten inner)
  | .text _ | .whole _ | .float _ | .truth _ | .datetime _ =>
      rw [List.mem_singleton.mp member]
      exact (Name.same_refl n).leads
termination_by sizeOf value
decreasing_by
  · have smaller := List.sizeOf_lt_of_mem listed
    have part : sizeOf entry.2 < sizeOf entry := by
      cases entry
      simp only [Prod.mk.sizeOf_spec]
      omega
    simp only [Toml.Value.table.sizeOf_spec]
    omega
  · have smaller := List.sizeOf_lt_of_mem (List.mem_of_getElem? listed)
    simp only [Toml.Value.list.sizeOf_spec]
    omega

/-! ## Carrying texts -/

namespace Store

variable {s : Store} {n m c : Name} {texts before after : List (Name × String)}
  {x : Name × String}

/-- At a name and below it the store has these texts and no others.  Of several texts under
one name it has the last. -/
def Carries (s : Store) (n : Name) (texts : List (Name × String)) : Prop :=
  ∀ m, n.Leads m →
    (s.get? m).map (·.value) = (texts.reverse.find? fun x => m.Same x.1).map (·.2)

namespace Carries

/-- What the store has under a name is one of the texts. -/
theorem exists_text (carries : s.Carries n texts) (leads : n.Leads m) {p : Property}
    (found : s.get? m = some p) : ∃ x ∈ texts, m.Same x.1 := by
  have last := carries m leads
  rw [found, Option.map_some, eq_comm, Option.map_eq_some_iff] at last
  rcases last with ⟨x, read, _⟩
  exact ⟨x, List.mem_reverse.mp (List.mem_of_find?_eq_some read),
    by simpa using List.find?_some read⟩

theorem contains_iff (carries : s.Carries n texts) (leads : n.Leads m) :
    s.contains m = true ↔ ∃ x ∈ texts, m.Leads x.1 := by
  rw [contains_iff_effective]
  constructor
  · rintro ⟨p, effective, below⟩
    rcases carries.exists_text (leads.trans below) (mem_effective.mp effective)
      with ⟨x, member, same⟩
    exact ⟨x, member, below.trans same.leads⟩
  · rintro ⟨x, member, below⟩
    have found := carries x.1 (leads.trans below)
    cases last : texts.reverse.find? fun y => x.1.Same y.1 with
    | none =>
        exact absurd (decide_eq_true (Name.same_refl x.1))
          (List.find?_eq_none.mp last x (List.mem_reverse.mpr member))
    | some y =>
        rw [last, Option.map_some, Option.map_eq_some_iff] at found
        rcases found with ⟨p, there, _⟩
        rcases get?_eq_some_iff.mp there with ⟨effective, same⟩
        exact ⟨p, effective, below.trans same.leads⟩

/-- Texts that do not lie below a name do not matter there. -/
theorem part (carries : s.Carries n (before ++ texts ++ after)) (leads : n.Leads c)
    (others : ∀ x ∈ before ++ after, ¬ c.Leads x.1) : s.Carries c texts := by
  intro m below
  have nothing : ∀ list : List (Name × String), (∀ x ∈ list, x ∈ before ++ after) →
      (list.reverse.find? fun x => m.Same x.1) = none := by
    intro list included
    rw [List.find?_eq_none]
    intro x member same
    have leadsToo := (of_decide_eq_true same : m.Same x.1).leads
    exact others x (included x (List.mem_reverse.mp member)) (below.trans leadsToo)
  rw [carries m (leads.trans below), List.reverse_append, List.reverse_append, List.find?_append,
    List.find?_append, nothing after fun _ => List.mem_append_right before,
    nothing before fun _ => List.mem_append_left after, Option.none_or, Option.or_none]

/-- A store that carries a single text at a name has it there. -/
theorem get?_of_text {text : String} (carries : s.Carries n [(n, text)]) :
    ∃ p, s.get? n = some p ∧ p.value = text := by
  have found := carries n (Name.same_refl n).leads
  simp only [List.reverse_singleton, List.find?_singleton, Name.same_refl, decide_true, if_true,
    Option.map_some, Option.map_eq_some_iff] at found
  exact found

/-! ## Tables -/

/-- What a table sets one of its keys to is carried by the child for the key. -/
theorem set {entries : Toml.Entries} {key : String} {value : Toml.Value}
    (carries : s.Carries n (flatten n (.table entries))) (sets : entries.Sets key value) :
    s.Carries (n.child key) (flatten (n.child key) value) := by
  rcases sets with ⟨front, back, split, others⟩
  have whole : flatten n (.table entries) =
      flattenEntries n front ++ flatten (n.child key) value ++ flattenEntries n back := by
    rw [flatten, split, flattenEntries_append, flattenEntries, List.append_assoc]
  rw [whole] at carries
  refine carries.part (n.leads_push _) fun x member leads => ?_
  rw [← flattenEntries_append] at member
  rcases mem_flattenEntries.mp member with ⟨entry, other, inner⟩
  exact others entry other (Name.relaxed_eq_of_leads (leads_of_mem_flatten inner) leads)

/-- What a table holds under one of its keys is carried by the child for the key, if no
other key is equal to it in relaxed form. -/
theorem entry {entries : Toml.Entries} {key : String} {value : Toml.Value}
    (carries : s.Carries n (flatten n (.table entries))) (listed : (key, value) ∈ entries)
    (apart : (entries.map fun entry => (Element.ofKey entry.1).relaxed).Nodup) :
    s.Carries (n.child key) (flatten (n.child key) value) := by
  rcases List.append_of_mem listed with ⟨front, back, split⟩
  refine carries.set ⟨front, back, split, fun entry other same => ?_⟩
  rw [split, List.map_append, List.map_cons, List.nodup_middle, ← List.map_append] at apart
  exact (List.nodup_cons.mp apart).1 (List.mem_map.mpr ⟨entry, other, same⟩)

/-! ## Lists -/

variable {items : List Toml.Value}

/-- Each item of a list is carried by the child for its position. -/
theorem item (carries : s.Carries n (flatten n (.list items))) {i : Nat} {item : Toml.Value}
    (listed : items[i]? = some item) : s.Carries (n.childAt i) (flatten (n.childAt i) item) := by
  rcases List.getElem?_eq_some_iff.mp listed with ⟨within, rfl⟩
  have front : (items.take i).length = i := List.length_take_of_le (Nat.le_of_lt within)
  have whole : flatten n (.list items) = flattenItems n 0 (items.take i) ++
      flatten (n.childAt i) items[i] ++ flattenItems n (i + 1) (items.drop (i + 1)) := by
    calc flatten n (.list items)
        = flattenItems n 0 (items.take i ++ items[i] :: items.drop (i + 1)) := by
          rw [← List.drop_eq_getElem_cons within, List.take_append_drop, flatten]
      _ = _ := by
          rw [flattenItems_append, flattenItems, front, Nat.zero_add, List.append_assoc]
  rw [whole] at carries
  refine carries.part (n.leads_push _) fun x member leads => ?_
  rcases List.mem_append.mp member with early | late
  · rcases mem_flattenItems.mp early with ⟨j, item, there, inner⟩
    have before := (List.getElem?_eq_some_iff.mp there).1
    have same := Name.childAt_leads_inj (leads_of_mem_flatten inner) leads
    omega
  · rcases mem_flattenItems.mp late with ⟨j, item, there, inner⟩
    have same := Name.childAt_leads_inj (leads_of_mem_flatten inner) leads
    omega

/-- Where a list is, there are texts only below its positions. -/
theorem exists_position (carries : s.Carries n (flatten n (.list items))) (leads : n.Leads m)
    (there : s.contains m = true) :
    ∃ i item x, items[i]? = some item ∧ (n.childAt i).Leads x ∧ m.Leads x := by
  rcases (carries.contains_iff leads).mp there with ⟨x, member, below⟩
  rcases mem_flattenItems.mp member with ⟨i, item, listed, inner⟩
  rw [Nat.zero_add] at inner
  exact ⟨i, item, x.1, listed, leads_of_mem_flatten inner, below⟩

/-- Where a list of texts is, there is something unless the list is empty. -/
theorem contains_texts_iff {values : List String}
    (carries : s.Carries n (flatten n (.list (values.map .text)))) :
    s.contains n = true ↔ values ≠ [] := by
  constructor
  · intro there empty
    rcases carries.exists_position (Name.same_refl n).leads there with ⟨i, item, _, listed, _⟩
    rw [empty] at listed
    cases listed
  · intro nonempty
    have some : flatten n (.list (values.map .text)) ≠ [] := by
      rw [flatten_texts]
      exact fun nothing => nonempty (List.mapIdx_eq_nil_iff.mp nothing)
    rcases List.exists_mem_of_ne_nil _ some with ⟨x, member⟩
    exact (carries.contains_iff (Name.same_refl n).leads).mpr
      ⟨x, member, leads_of_mem_flatten member⟩

/-- There is nothing at the name of a list itself. -/
theorem get?_of_list (carries : s.Carries n (flatten n (.list items))) : s.get? n = none := by
  have found := carries n (Name.same_refl n).leads
  have nothing : ((flatten n (.list items)).reverse.find? fun x => n.Same x.1) = none := by
    rw [List.find?_eq_none]
    intro x member same
    rcases mem_flattenItems.mp (List.mem_reverse.mp member) with ⟨i, item, _, inner⟩
    have longer := (leads_of_mem_flatten inner).size_le
    have equal := (of_decide_eq_true same : n.Same x.1).size
    rw [Name.childAt, Name.size_push] at longer
    omega
  rw [nothing, Option.map_none, Option.map_eq_none_iff] at found
  exact found

/-- There is something at each position of a list. -/
theorem contains_childAt_iff (carries : s.Carries n (flatten n (.list items)))
    (full : ∀ n, ∀ item ∈ items, flatten n item ≠ []) (i : Nat) :
    s.contains (n.childAt i) = true ↔ i < items.length := by
  constructor
  · intro there
    rcases carries.exists_position (n.leads_push _) there with ⟨j, item, x, listed, first, second⟩
    rw [← Name.childAt_leads_inj first second]
    exact (List.getElem?_eq_some_iff.mp listed).1
  · intro within
    have listed : items[i]? = some items[i] := List.getElem?_eq_getElem within
    rcases List.exists_mem_of_ne_nil _ (full (n.childAt i) _ (List.getElem_mem within))
      with ⟨x, member⟩
    exact ((carries.item listed).contains_iff (Name.same_refl _).leads).mpr
      ⟨x, member, leads_of_mem_flatten member⟩

/-- The positions of a list end where its items do. -/
theorem endsAt (carries : s.Carries n (flatten n (.list items)))
    (full : ∀ n, ∀ item ∈ items, flatten n item ≠ []) : s.EndsAt n items.length where
  below := fun i within => (carries.contains_childAt_iff full i).mpr within
  stop := fun there => Nat.lt_irrefl _ ((carries.contains_childAt_iff full _).mp there)

/-- Nothing is left of a list beyond its items, since a child that denotes a position denotes
that of an item. -/
theorem beyond_eq_nil (carries : s.Carries n (flatten n (.list items))) :
    beyond s n items.length = [] := by
  refine beyond_eq_nil_iff.mpr fun child member ⟨position, denoted, late⟩ => ?_
  have parent := isParentOf_of_mem_children member
  rcases carries.exists_position parent.2 (contains_of_mem_children member)
    with ⟨i, item, x, listed, first, second⟩
  have same : child.Same (n.childAt i) :=
    Name.same_of_leads second first (parent.1.trans (n.isParentOf_push _).1.symm)
  have within := (List.getElem?_eq_some_iff.mp listed).1
  have equal := parent.position?_eq same denoted
  omega

end Carries

/-! ## Loading -/

/-- The store of a document and nothing else. -/
def ofDocument (source : String) (entries : Toml.Entries) : Store :=
  empty.push source (documentProperties source entries)

/-- Loading a file that holds a document gives the store of the document. -/
theorem load_ofDocument {path text : String} {required : Bool} {content : FileContent}
    {entries : Toml.Entries} (reads : content.read path = .ok (some text))
    (parses : Toml.parse text = some entries) :
    (load [.file path required content]).outcome = .ok (ofDocument path entries) := by
  simp only [load, loadOnto, Source.load, loadFile, reads, parses]
  rfl

theorem empty_push (source : String) (properties : List Property) :
    empty.push source properties = single (.ofList source properties) := rfl

/-- A store of one source carries its properties. -/
theorem push_carries (source : String) (properties : List Property) (n : Name) :
    (empty.push source properties).Carries n (properties.map fun p => (p.name, p.value)) := by
  intro m _
  rw [empty_push, get?_single, Layer.get?_ofList, ← List.map_reverse, List.find?_map,
    Option.map_map]
  rfl

/-- A document is carried by its store. -/
theorem ofDocument_carries (source : String) (entries : Toml.Entries) :
    (ofDocument source entries).Carries .root (flatten .root (.table entries)) := by
  have pushed := push_carries source (documentProperties source entries) .root
  rwa [map_documentProperties] at pushed

end Store
end PropertyBinding
