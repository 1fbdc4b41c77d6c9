import PropertyBinding.Proofs.Source.Flattening
import PropertyBinding.Proofs.Source.Loading
import PropertyBinding.Proofs.Tree.Traversal

/-!
# The leaves of a document

A document is flattened to a list in which its tables and lists do not appear any more.  Still
each of its leaves can be told from all others: the list traverses the leaves in the order in
which they stand in the document, and the name of each is made of the turns that lead to it.

The names need not be different, since keys are compared in relaxed form.  They are if no table
has two keys that are equal in this form.  Where the ways to two leaves part they do so in one
table or one list, at two keys or at two positions, and so at different elements.  That a key may
look like a position does no harm, because no table is a list.  Then no name lies below another
either, and the last property under a name is the only one.
-/

namespace PropertyBinding

namespace Toml

/-- A turn on the way into a document: to the entry under a key, or to the item at a position. -/
inductive Turn where
  | entry (key : String)
  | item (position : Nat)

namespace Value

/-- A value has a part at an address, which consists of the positions of the branches taken, and
these are the turns that lead there. -/
inductive Holds : Value → List Nat → List Turn → Value → Prop
  | self (value : Value) : Holds value [] [] value
  | entry {entries : Entries} {i : Nat} {key : String} {value part : Value} {address : List Nat}
      {path : List Turn} (listed : entries[i]? = some (key, value))
      (holds : Holds value address path part) :
      Holds (.table entries) (i :: address) (.entry key :: path) part
  | item {items : List Value} {i : Nat} {item part : Value} {address : List Nat}
      {path : List Turn} (listed : items[i]? = some item) (holds : Holds item address path part) :
      Holds (.list items) (i :: address) (.item i :: path) part

/-- At an address there is a leaf, which is neither a table nor a list, with this text. -/
def HasLeaf (value : Value) (address : List Nat) (path : List Turn) (text : String) : Prop :=
  ∃ leaf, value.Holds address path leaf ∧ leaf.scalarText? = some text

/-- No table in the value has two keys that are equal in relaxed form. -/
def KeysApart (value : Value) : Prop :=
  ∀ address path entries, value.Holds address path (.table entries) →
    (entries.map fun entry => (Element.ofKey entry.1).relaxed).Nodup

variable {value : Value} {entries : Entries} {items : List Value} {address addressToo : List Nat}
  {path pathToo : List Turn} {text textToo : String} {n : Name}

/-! ## Leaves of tables, of lists and of other values -/

theorem hasLeaf_table : (table entries).HasLeaf address path text ↔
    ∃ i entry rest further, entries[i]? = some entry ∧ address = i :: rest ∧
      path = .entry entry.1 :: further ∧ entry.2.HasLeaf rest further text := by
  constructor
  · rintro ⟨leaf, holds, reads⟩
    cases holds with
    | self => cases reads
    | entry listed holds => exact ⟨_, _, _, _, listed, rfl, rfl, leaf, holds, reads⟩
  · rintro ⟨i, entry, rest, further, listed, rfl, rfl, leaf, holds, reads⟩
    exact ⟨leaf, .entry listed holds, reads⟩

theorem hasLeaf_list : (list items).HasLeaf address path text ↔
    ∃ i item rest further, items[i]? = some item ∧ address = i :: rest ∧
      path = .item i :: further ∧ item.HasLeaf rest further text := by
  constructor
  · rintro ⟨leaf, holds, reads⟩
    cases holds with
    | self => cases reads
    | item listed holds => exact ⟨_, _, _, _, listed, rfl, rfl, leaf, holds, reads⟩
  · rintro ⟨i, item, rest, further, listed, rfl, rfl, leaf, holds, reads⟩
    exact ⟨leaf, .item listed holds, reads⟩

theorem hasLeaf_of_scalarText? (scalar : value.scalarText? = some textToo) :
    value.HasLeaf address path text ↔ address = [] ∧ path = [] ∧ text = textToo := by
  constructor
  · rintro ⟨leaf, holds, reads⟩
    cases holds with
    | self => exact ⟨rfl, rfl, Option.some.inj (reads.symm.trans scalar)⟩
    | _ => cases scalar
  · rintro ⟨rfl, rfl, rfl⟩
    exact ⟨value, .self value, scalar⟩

/-! ## Keys that are apart -/

theorem keysApart_table : (table entries).KeysApart ↔
    (entries.map fun entry => (Element.ofKey entry.1).relaxed).Nodup ∧
      ∀ entry ∈ entries, entry.2.KeysApart := by
  constructor
  · intro apart
    refine ⟨apart [] [] entries (.self _), fun entry member address path inner holds => ?_⟩
    rcases List.getElem?_of_mem member with ⟨i, listed⟩
    exact apart (i :: address) (.entry entry.1 :: path) inner (.entry listed holds)
  · rintro ⟨apart, each⟩ address path inner holds
    cases holds with
    | self => exact apart
    | entry listed holds => exact each _ (List.mem_of_getElem? listed) _ _ _ holds

theorem keysApart_list : (list items).KeysApart ↔ ∀ item ∈ items, item.KeysApart := by
  constructor
  · intro apart item member address path inner holds
    rcases List.getElem?_of_mem member with ⟨i, listed⟩
    exact apart (i :: address) (.item i :: path) inner (.item listed holds)
  · intro each address path inner holds
    cases holds with
    | item listed holds => exact each _ (List.mem_of_getElem? listed) _ _ _ holds

theorem keysApart_of_scalarText? (scalar : value.scalarText? = some text) : value.KeysApart := by
  intro address path inner holds
  cases holds with
  | self => cases scalar
  | _ => cases scalar

end Value
end Toml

/-! ## Names of leaves -/

namespace Name

variable {n : Name} {value : Toml.Value} {address later : List Nat} {path pathToo : List Toml.Turn}
  {text textToo : String}

/-- The name to which a turn leads from a name. -/
def turn (n : Name) : Toml.Turn → Name
  | .entry key => n.child key
  | .item position => n.childAt position

/-- The name to which a path leads from a name. -/
def along (n : Name) (path : List Toml.Turn) : Name :=
  path.foldl turn n

theorem leads_along (n : Name) (path : List Toml.Turn) : n.Leads (n.along path) := by
  induction path generalizing n with
  | nil => exact (same_refl n).leads
  | cons turn path inductionHypothesis =>
      refine Leads.trans ?_ (inductionHypothesis (n.turn turn))
      cases turn <;> exact n.leads_push _

/-- The name of a leaf does not lead to the name of any other. -/
theorem not_leads_along (apart : value.KeysApart) (leaf : value.HasLeaf address path text)
    (other : value.HasLeaf later pathToo textToo) (different : address ≠ later) :
    ¬ (n.along path).Leads (n.along pathToo) := by
  rcases leaf with ⟨leaf, holds, reads⟩
  induction holds generalizing n later pathToo with
  | self value =>
      rcases (Toml.Value.hasLeaf_of_scalarText? reads).mp other with ⟨rfl, _⟩
      exact absurd rfl different
  | @entry entries i key value leaf address path listed holds inductionHypothesis =>
      rcases Toml.Value.hasLeaf_table.mp other with
        ⟨j, entry, rest, further, listedToo, rfl, rfl, inside⟩
      rcases Toml.Value.keysApart_table.mp apart with ⟨keys, each⟩
      intro leads
      have toEntry : (n.child entry.1).Leads ((n.child entry.1).along further) := leads_along _ _
      have toEntryToo : (n.child key).Leads ((n.child entry.1).along further) :=
        (leads_along _ path).trans leads
      have same := relaxed_eq_of_leads toEntryToo toEntry
      have position : i = j := by
        have within := (List.getElem?_eq_some_iff.mp listed).1
        apply (List.getElem?_inj (by rwa [List.length_map]) keys).mp
        rw [List.getElem?_map, List.getElem?_map, listed, listedToo, Option.map_some,
          Option.map_some, same]
      subst position
      cases listed.symm.trans listedToo
      exact inductionHypothesis (each _ (List.mem_of_getElem? listed)) inside
        (fun equal => different (congrArg _ equal)) reads leads
  | @item items i item leaf address path listed holds inductionHypothesis =>
      rcases Toml.Value.hasLeaf_list.mp other with
        ⟨j, item, rest, further, listedToo, rfl, rfl, inside⟩
      intro leads
      have toItem : (n.childAt j).Leads ((n.childAt j).along further) := leads_along _ _
      have toItemToo : (n.childAt i).Leads ((n.childAt j).along further) :=
        (leads_along _ path).trans leads
      have position := childAt_leads_inj toItemToo toItem
      subst position
      cases listed.symm.trans listedToo
      have each := Toml.Value.keysApart_list.mp apart
      exact inductionHypothesis (each _ (List.mem_of_getElem? listed)) inside
        (fun equal => different (congrArg _ equal)) reads leads

end Name

/-- At an address there is a leaf with this text, and its path leads from the name to this one. -/
def Toml.Value.HasLeafUnder (n : Name) (value : Toml.Value) (address : List Nat)
    (x : Name × String) : Prop :=
  ∃ path, value.HasLeaf address path x.2 ∧ x.1 = n.along path

/-! ## Flattening -/

theorem flatten_table (n : Name) (entries : Toml.Entries) :
    flatten n (.table entries) =
      entries.zipIdx.flatMap fun branch => flatten (n.child branch.1.1) branch.1.2 := by
  have each : ∀ start, flattenEntries n entries =
      (entries.zipIdx start).flatMap fun branch => flatten (n.child branch.1.1) branch.1.2 := by
    induction entries with
    | nil => exact fun _ => rfl
    | cons entry rest inductionHypothesis =>
        intro start
        rw [flattenEntries, List.zipIdx_cons, List.flatMap_cons, inductionHypothesis (start + 1)]
  rw [flatten, each 0]

theorem flatten_list (n : Name) (items : List Toml.Value) :
    flatten n (.list items) =
      items.zipIdx.flatMap fun branch => flatten (n.childAt branch.2) branch.1 := by
  have each : ∀ start, flattenItems n start items =
      (items.zipIdx start).flatMap fun branch => flatten (n.childAt branch.2) branch.1 := by
    induction items with
    | nil => exact fun _ => rfl
    | cons item rest inductionHypothesis =>
        intro start
        rw [flattenItems, List.zipIdx_cons, List.flatMap_cons, inductionHypothesis (start + 1)]
  rw [flatten, each 0]

theorem flatten_of_scalarText? {value : Toml.Value} {text : String}
    (scalar : value.scalarText? = some text) (n : Name) : flatten n value = [(n, text)] := by
  cases value with
  | list | table => cases scalar
  | _ => exact congrArg (fun text => [(n, text)]) (Option.some.inj scalar)

/-- Flattening a value gives its leaves, depth first, each under the name to which its path
leads. -/
theorem traverses_flatten (n : Name) (value : Toml.Value) :
    Traverses (value.HasLeafUnder n) (flatten n value) := by
  cases scalar : value.scalarText? with
  | some text =>
      rw [flatten_of_scalarText? scalar]
      refine (Traverses.leaf (n, text)).congr fun address x => ?_
      simp only [Toml.Value.HasLeafUnder, Toml.Value.hasLeaf_of_scalarText? scalar]
      constructor
      · rintro ⟨rfl, rfl⟩
        exact ⟨[], ⟨rfl, rfl, rfl⟩, rfl⟩
      · rintro ⟨_, ⟨rfl, rfl, same⟩, named⟩
        exact ⟨rfl, Prod.ext named same⟩
  | none =>
      cases value with
      | table entries =>
          rw [flatten_table]
          refine (Traverses.branches entries (fun _ entry => entry.2.HasLeafUnder (n.child entry.1))
            (fun _ entry => flatten (n.child entry.1) entry.2) fun i entry listed =>
              traverses_flatten (n.child entry.1) entry.2).congr fun address x => ?_
          simp only [Toml.Value.HasLeafUnder, Toml.Value.hasLeaf_table]
          constructor
          · rintro ⟨i, entry, rest, listed, rfl, path, leaf, named⟩
            exact ⟨_, ⟨i, entry, rest, path, listed, rfl, rfl, leaf⟩, named⟩
          · rintro ⟨_, ⟨i, entry, rest, path, listed, rfl, rfl, leaf⟩, named⟩
            exact ⟨i, entry, rest, listed, rfl, path, leaf, named⟩
      | list items =>
          rw [flatten_list]
          refine (Traverses.branches items (fun i item => item.HasLeafUnder (n.childAt i))
            (fun i item => flatten (n.childAt i) item) fun i item listed =>
              traverses_flatten (n.childAt i) item).congr fun address x => ?_
          simp only [Toml.Value.HasLeafUnder, Toml.Value.hasLeaf_list]
          constructor
          · rintro ⟨i, item, rest, listed, rfl, path, leaf, named⟩
            exact ⟨_, ⟨i, item, rest, path, listed, rfl, rfl, leaf⟩, named⟩
          · rintro ⟨_, ⟨i, item, rest, path, listed, rfl, rfl, leaf⟩, named⟩
            exact ⟨i, item, rest, listed, rfl, path, leaf, named⟩
      | _ => cases scalar
termination_by sizeOf value
decreasing_by
  · have smaller := List.sizeOf_lt_of_mem (List.mem_of_getElem? listed)
    simp only [Toml.Value.list.sizeOf_spec]
    omega
  · have smaller := List.sizeOf_lt_of_mem (List.mem_of_getElem? listed)
    have part : sizeOf entry.2 < sizeOf entry := by
      cases entry
      simp only [Prod.mk.sizeOf_spec]
      omega
    simp only [Toml.Value.table.sizeOf_spec]
    omega

/-! ## Properties -/

variable {entries : Toml.Entries}

/-- The properties of a document are its leaves, depth first. -/
theorem traverses_documentProperties (source : String) (entries : Toml.Entries) :
    Traverses ((Toml.Value.table entries).HasLeafUnder .root)
      ((documentProperties source entries).map fun p => (p.name, p.value)) := by
  rw [map_documentProperties]
  exact traverses_flatten .root (.table entries)

/-- If keys are apart the names of two leaves do not lead to each other. -/
theorem pairwise_documentProperties (source : String)
    (apart : (Toml.Value.table entries).KeysApart) :
    (documentProperties source entries).Pairwise fun p q =>
      ¬ p.name.Leads q.name ∧ ¬ q.name.Leads p.name := by
  have texts : ((documentProperties source entries).map fun p => (p.name, p.value)).Pairwise
      fun x y => ¬ x.1.Leads y.1 ∧ ¬ y.1.Leads x.1 := by
    apply (traverses_documentProperties source entries).pairwise
    rintro address x later y ⟨path, leaf, named⟩ ⟨pathToo, leafToo, namedToo⟩ before
    have different : address ≠ later := fun same => List.lt_irrefl later (same ▸ before)
    rw [named, namedToo]
    exact ⟨Name.not_leads_along apart leaf leafToo different,
      Name.not_leads_along apart leafToo leaf different.symm⟩
  exact List.pairwise_map.mp texts

namespace Store

/-- A property that is the only one under its name among those pushed is found. -/
theorem get?_push_of_mem (s : Store) {properties : List Property} {p : Property}
    (single : properties.Pairwise fun p q => ¬ p.name.Same q.name) (listed : p ∈ properties) :
    (s.push source properties).get? p.name = some p := by
  rcases List.append_of_mem listed with ⟨before, after, rfl⟩
  have later := (List.pairwise_cons.mp (List.pairwise_append.mp single).2.1).1
  have last : p.LastUnder p.name (before ++ p :: after) :=
    ⟨Name.same_refl p.name, before, after, rfl, later⟩
  rw [get?_push, Property.lastUnder_iff.mp last, Option.some_or]

end Store

/-- A file that can be read gives a property for each leaf of its document and no others, depth
first, with the text of the leaf and under the name made of its path.  If no table has two keys
that are equal in relaxed form, no two of these names are the same and none lies below another.
When the properties are pushed on top of a store, each leaf is found under its name. -/
theorem documentProperties_leaves (source : String) (entries : Toml.Entries) :
    let document := Toml.Value.table entries
    let properties := documentProperties source entries
    (∀ required content text, FileContent.read source content = .ok (some text) →
      Toml.parse text = some entries →
        (Source.file source required content).load.outcome = .ok properties) ∧
    Traverses (fun address x => ∃ path, document.HasLeaf address path x.2 ∧
      x.1 = Name.root.along path) (properties.map fun p => (p.name, p.value)) ∧
    (document.KeysApart →
      properties.Pairwise (fun p q => ¬ p.name.Same q.name ∧ ¬ p.name.IsAncestorOf q.name ∧
        ¬ q.name.IsAncestorOf p.name) ∧
      ∀ (s : Store) address path text, document.HasLeaf address path text →
        ∃ p ∈ properties, p.name = Name.root.along path ∧ p.value = text ∧
          (s.push source properties).get? (Name.root.along path) = some p) := by
  intro document properties
  have traverses := traverses_documentProperties source entries
  refine ⟨fun required content text reads parses => ?_, traverses, fun apart => ?_⟩
  · simp only [Source.load, loadFile, reads, parses, properties]
  · have names := pairwise_documentProperties source apart
    have single : properties.Pairwise fun p q => ¬ p.name.Same q.name :=
      names.imp fun others same => others.1 same.leads
    refine ⟨names.imp fun others => ⟨fun same => others.1 same.leads,
      fun below => others.1 below.2, fun below => others.2 below.2⟩, ?_⟩
    intro s address path text leaf
    have listed : (Name.root.along path, text) ∈ properties.map fun p => (p.name, p.value) :=
      traverses.mem_iff.mpr ⟨address, path, leaf, rfl⟩
    rcases List.mem_map.mp listed with ⟨p, member, same⟩
    rcases Prod.mk.inj same with ⟨named, read⟩
    rw [← named]
    exact ⟨p, member, rfl, read, s.get?_push_of_mem single member⟩

open Toml.Value in
/-- A document with a list in a list, an empty list, and a key that looks like a position. -/
theorem documentProperties_leaves_hosts :
    let text := "hosts = [\"a\", [\"b\"], []]\n[server]\n1 = true\n"
    let hosts : Toml.Value := .list [.text "a", .list [.text "b"], .list []]
    let entries : Toml.Entries := [("hosts", hosts), ("server", .table [("1", .truth true)])]
    let properties := documentProperties "app.toml" entries
    Toml.parse text = some entries ∧ (Toml.Value.table entries).KeysApart ∧
      (Source.file "app.toml" true (.text text)).load.outcome = .ok properties ∧
      properties.Pairwise (fun p q => ¬ p.name.Same q.name) ∧
      ∃ p ∈ properties, p.value = "b" ∧ (Store.empty.push "app.toml" properties).get?
        ⟨[.dotted "hosts", .bracket "1", .bracket "0"]⟩ = some p := by
  intro text hosts entries properties
  have parses : Toml.parse "hosts = [\"a\", [\"b\"], []]\n[server]\n1 = true\n" = some entries := by
    decide +kernel
  have scalar {value : Toml.Value} {text : String} := @keysApart_of_scalarText? value text
  have inner : (list [.text "b"]).KeysApart :=
    keysApart_list.mpr (List.forall_mem_singleton.mpr (scalar rfl))
  have empty : (list []).KeysApart := keysApart_list.mpr (by simp)
  have first : hosts.KeysApart := keysApart_list.mpr (List.forall_mem_cons.mpr
    ⟨scalar rfl, List.forall_mem_cons.mpr ⟨inner, List.forall_mem_singleton.mpr empty⟩⟩)
  have server : (table [("1", truth true)]).KeysApart :=
    keysApart_table.mpr ⟨by decide, List.forall_mem_singleton.mpr (scalar rfl)⟩
  have apart : (Toml.Value.table entries).KeysApart :=
    keysApart_table.mpr ⟨by decide +kernel, List.forall_mem_cons.mpr
      ⟨first, List.forall_mem_singleton.mpr server⟩⟩
  have leaf : (Toml.Value.table entries).HasLeaf [0, 1, 0] [.entry "hosts", .item 1, .item 0] "b" :=
    ⟨.text "b", .entry rfl (.item rfl (.item rfl (.self _))), rfl⟩
  rcases documentProperties_leaves "app.toml" entries with ⟨loads, _, names⟩
  rcases names apart with ⟨others, found⟩
  rcases found Store.empty _ _ _ leaf with ⟨p, listed, _, read, there⟩
  exact ⟨parses, apart, loads true (.text text) text rfl parses, others.imp fun both => both.1,
    p, listed, read, there⟩
end PropertyBinding
