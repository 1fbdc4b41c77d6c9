import PropertyBinding.Proofs.Bind.Giving
import PropertyBinding.Proofs.Bind.Used
import PropertyBinding.Proofs.Source.Flattening

/-!
# Binding undoes flattening

A document is flattened to properties by one recursion and bound to a value by another.
They meet only in names, in a store that is sorted by text, where position 10 comes before
position 2 and where keys are compared in relaxed form.  Still, what is bound to a target
that mirrors a document is the document again, value for value: a table is bound to the
record of its entries and a list to the list of its items, in their order and to the last.

That a document is mirrored is a relation between target, document and value, with one
case for each shape.  Binding goes down level by level with the names, so that it gives the
value is shown for one node, with what is known of its members, and then by induction on
the levels.
-/

namespace PropertyBinding

variable {ρ : Type} {declarations : Declarations ρ}

/-! ## Targets that mirror documents -/

namespace Target

/-- A field of a record, with what a document has for it and the value that this is. -/
structure Row (ρ : Type) where
  field : Field ρ
  written : Toml.Value
  value : Value

namespace Row

/-- The entry of the document, under the name of the field. -/
def entry (row : Row ρ) : String × Toml.Value := (row.field.name, row.written)

/-- The field as it is bound. -/
def bound (row : Row ρ) : String × Value := (row.field.label, row.value)

end Row

/-- The target has the shape of a value in a document, and this is the value that it stands
for.  Texts are without placeholders, numbers in the range of their type, and lists and
tables not empty.  The items of a list are all of one shape.  The fields of a record have
exactly the keys of the table as their names, in whatever order, and no two keys are equal
in relaxed form. -/
inductive Mirrors (declarations : Declarations ρ) : Target ρ → Toml.Value → Value → Prop
  | text {s : String} (plain : '$' ∉ s.toList) : Mirrors declarations .text (.text s) (.text s)
  | whole {type : Number.WholeType} {n : Int} (low : type.smallest ≤ n) (high : n ≤ type.largest) :
      Mirrors declarations (.whole type) (.whole n) (.whole type n)
  | truth (b : Bool) : Mirrors declarations .truth (.truth b) (.truth b)
  | list {target : Target ρ} {items : List (Toml.Value × Value)} (nonempty : items ≠ [])
      (each : ∀ item ∈ items, Mirrors declarations target item.1 item.2) :
      Mirrors declarations (.list target) (.list (items.map (·.1))) (.list (items.map (·.2)))
  | record {r : ρ} {rows : List (Row ρ)} {entries : Toml.Entries} (nonempty : rows ≠ [])
      (fields : (declarations.record r).fields = rows.map (·.field))
      (keys : ∀ row ∈ rows, row.field.keys = [row.field.name])
      (labels : (rows.map (·.field.label)).Nodup)
      (content : entries.Perm (rows.map Row.entry))
      (apart : (entries.map fun entry => (Element.ofKey entry.1).relaxed).Nodup)
      (each : ∀ row ∈ rows, Mirrors declarations row.field.target row.written row.value) :
      Mirrors declarations (.record r) (.table entries) (.record (rows.map Row.bound))

/-- What is mirrored holds some text. -/
theorem Mirrors.flatten_ne_nil {target : Target ρ} {written : Toml.Value} {value : Value}
    (mirrors : target.Mirrors declarations written value) (n : Name) : flatten n written ≠ [] := by
  induction mirrors generalizing n with
  | text plain => exact List.cons_ne_nil _ _
  | whole low high => exact List.cons_ne_nil _ _
  | truth b => exact List.cons_ne_nil _ _
  | @list target items nonempty each eachFull =>
      cases items with
      | nil => exact absurd rfl nonempty
      | cons item rest =>
          exact List.append_ne_nil_of_left_ne_nil (eachFull item List.mem_cons_self _) _
  | @record r rows entries nonempty fields keys labels content apart each eachFull =>
      rcases List.exists_mem_of_ne_nil rows nonempty with ⟨row, listed⟩
      have present : row.entry ∈ entries := content.mem_iff.mpr (List.mem_map_of_mem listed)
      rcases List.exists_mem_of_ne_nil _ (eachFull row listed (n.child row.field.name))
        with ⟨x, member⟩
      exact List.ne_nil_of_mem (mem_flattenEntries.mpr ⟨row.entry, present, member⟩)

/-- Something is there where a mirrored value is carried. -/
theorem Mirrors.contains {target : Target ρ} {written : Toml.Value} {value : Value} {s : Store}
    {n : Name} (mirrors : target.Mirrors declarations written value)
    (carries : s.Carries n (flatten n written)) : s.contains n = true := by
  rcases List.exists_mem_of_ne_nil _ (mirrors.flatten_ne_nil n) with ⟨x, member⟩
  exact (carries.contains_iff (Name.same_refl n).leads).mpr
    ⟨x, member, leads_of_mem_flatten member⟩

end Target

/-! ## Members -/

namespace Session

open Binding Target

variable {S : Session} {scope : Store} {enter : Enter ρ} {n : Name}

/-- Elements are given in order if each of them is. -/
theorem elements_gives (accepting : S.handler = .accepting) {target : Target ρ} (start : Nat)
    {items : List (Toml.Value × Value)}
    (each : ∀ i item, items[i]? = some item → Gives scope (enter target (n.childAt (start + i)))
      item.2 (flatten (n.childAt (start + i)) item.1)) :
    Gives scope (S.elements enter n
        ((List.range' start items.length).zip (List.replicate items.length target)))
      (items.map (·.2), false) (flattenItems n start (items.map (·.1))) := by
  induction items generalizing start with
  | nil => exact .pure _
  | cons item rest inductionHypothesis =>
      simp only [List.length_cons, List.range'_succ, List.replicate_succ, List.zip_cons_cons,
        elements, List.map_cons, flattenItems]
      have first : Gives scope (enter target (n.childAt start)) item.2
          (flatten (n.childAt start) item.1) := each 0 item rfl
      have others := inductionHypothesis (start + 1) fun i later listed => by
        have given := each (i + 1) later listed
        rwa [← Nat.add_assoc, Nat.add_right_comm] at given
      refine (offer_gives accepting _ _).bind ?_
      exact (descend_gives accepting first).bind (others.andThen (.pure _))

/-- Fields are given in order if something is there for each of them. -/
theorem fields_gives (accepting : S.handler = .accepting) (owner : String)
    (found : List (String × Value)) {rows : List (Row ρ)}
    (labels : (found.map (·.1) ++ rows.map (·.field.label)).Nodup)
    (there : ∀ row ∈ rows, scope.contains (n.child row.field.name) = true)
    (each : ∀ row ∈ rows, Gives scope (enter row.field.target (n.child row.field.name)) row.value
      (flatten (n.child row.field.name) row.written)) :
    Gives scope
      (S.fields enter owner n found (rows.map fun row => (row.field, row.field.name)))
      (found ++ rows.map Row.bound) (flattenEntries n (rows.map Row.entry)) := by
  induction rows generalizing found with
  | nil =>
      rw [List.map_nil, List.map_nil, List.append_nil]
      exact .pure found
  | cons row rest inductionHypothesis =>
      have new : (found.any fun entry => entry.1 == row.field.label) = false := by
        rw [List.any_eq_false]
        intro entry listed same
        exact (List.nodup_append.mp labels).2.2 _ (List.mem_map_of_mem listed) _
          List.mem_cons_self (beq_iff_eq.mp same)
      have labelsThen : ((found ++ [row.bound]).map (·.1) ++ rest.map (·.field.label)).Nodup := by
        simpa [Row.bound] using labels
      have others := inductionHypothesis (found ++ [row.bound]) labelsThen
        (fun later listed => there later (List.mem_cons_of_mem _ listed))
        (fun later listed => each later (List.mem_cons_of_mem _ listed))
      rw [List.append_assoc] at others
      simp only [List.map_cons, fields, flattenEntries, Row.entry]
      refine .look ?_
      rw [if_pos (there row List.mem_cons_self)]
      refine (offer_gives accepting _ _).bind ?_
      rw [if_pos rfl, new, if_neg Bool.false_ne_true]
      exact (descend_gives accepting (each row List.mem_cons_self)).bind others

/-- Each field of which a value has been found has this value. -/
theorem complete_of_mem (initial : ρ → Value) {rows : List (Row ρ)}
    (labels : (rows.map (·.field.label)).Nodup) {row : Row ρ} (listed : row ∈ rows) :
    Field.complete initial (rows.map Row.bound) row.field = .ok row.bound := by
  unfold Field.complete
  cases found : (rows.map Row.bound).find? (·.1 == row.field.label) with
  | none =>
      have absent := List.find?_eq_none.mp found row.bound (List.mem_map_of_mem listed)
      exact absurd (beq_self_eq_true row.field.label) absent
  | some entry =>
      rcases List.mem_map.mp (List.mem_of_find?_eq_some found) with ⟨other, listedToo, rfl⟩
      have same : other.bound.1 = row.field.label := by simpa using List.find?_some found
      rw [List.inj_on_of_nodup_map labels listedToo listed same]

theorem mapM_complete (initial : ρ → Value) {rows : List (Row ρ)}
    (labels : (rows.map (·.field.label)).Nodup) :
    (rows.map (·.field)).mapM (Field.complete initial (rows.map Row.bound)) =
      .ok (rows.map Row.bound) := by
  have each : ∀ part : List (Row ρ), (∀ row ∈ part, row ∈ rows) →
      (part.map (·.field)).mapM (Field.complete initial (rows.map Row.bound)) =
        .ok (part.map Row.bound) := by
    intro part
    induction part with
    | nil => exact fun _ => rfl
    | cons row rest inductionHypothesis =>
        intro within
        rw [List.map_cons, List.mapM_cons, complete_of_mem initial labels
          (within row List.mem_cons_self),
          inductionHypothesis fun later listed => within later (List.mem_cons_of_mem _ listed)]
        rfl
  exact each rows fun _ listed => listed

/-- A record is given by its fields. -/
theorem record_gives (accepting : S.handler = .accepting) {type : Record ρ} {rows : List (Row ρ)}
    {entries : Toml.Entries} (initial : ρ → Value)
    (fields : type.fields = rows.map (·.field))
    (keys : ∀ row ∈ rows, row.field.keys = [row.field.name])
    (labels : (rows.map (·.field.label)).Nodup) (content : entries.Perm (rows.map Row.entry))
    (there : ∀ row ∈ rows, scope.contains (n.child row.field.name) = true)
    (each : ∀ row ∈ rows, Gives scope (enter row.field.target (n.child row.field.name)) row.value
      (flatten (n.child row.field.name) row.written)) :
    Gives scope (S.record enter initial type n) (.record (rows.map Row.bound))
      (flatten n (.table entries)) := by
  have lookups : type.fields.flatMap (fun field => field.keys.map fun key => (field, key)) =
      rows.map fun row => (row.field, row.field.name) := by
    rw [fields, List.flatMap_map, List.map_eq_flatMap]
    exact List.flatMap_congr fun row listed => by rw [keys row listed, List.map_singleton]
  have found := fields_gives accepting type.short [] labels there each
  -- Fields are tried in the order of the record, which need not be that of the table.
  have included : flatten n (.table entries) ⊆ flattenEntries n (rows.map Row.entry) := by
    intro x member
    rcases mem_flattenEntries.mp member with ⟨entry, listed, inner⟩
    exact mem_flattenEntries.mpr ⟨entry, content.mem_iff.mp listed, inner⟩
  unfold record
  refine .forTarget _ (.nested ?_)
  simp only [lookups]
  refine (found.mono included).andThen ?_
  rw [List.nil_append, fields, mapM_complete initial labels]
  exact .pure _

/-! ## Nodes -/

/-- What converts the text at a name gives its value. -/
theorem convert_text_gives {α : Type} {a : α} {text label : String}
    {conversion : String → Except ConversionReason α} (carries : scope.Carries n [(n, text)])
    (plain : '$' ∉ text.toList) (converts : conversion text = .ok a) :
    Gives scope (S.convert n none label conversion) a [(n, text)] := by
  rcases carries.get?_of_text with ⟨p, found, rfl⟩
  exact convert_gives found plain converts

section

variable {target : Target ρ} {items : List (Toml.Value × Value)}

/-- The elements of a list are given as a whole, and nothing is left beyond them. -/
theorem indexed_gives (accepting : S.handler = .accepting) (label : String)
    (carries : scope.Carries n (flatten n (.list (items.map (·.1)))))
    (full : ∀ n, ∀ item ∈ items.map (·.1), flatten n item ≠ [])
    (each : ∀ i item, items[i]? = some item → Gives scope (enter target (n.childAt i)) item.2
      (flatten (n.childAt i) item.1)) :
    Gives scope (S.indexed enter (.growing label target .list) n scope)
      (.list (items.map (·.2))) (flatten n (.list (items.map (·.1)))) := by
  have elements : Gives scope (S.elements enter n
      ((List.range' 0 items.length).zip (List.replicate items.length target)))
      (items.map (·.2), false) (flattenItems n 0 (items.map (·.1))) :=
    elements_gives accepting 0 fun i item listed => by
      rw [Nat.zero_add]
      exact each i item listed
  have left : beyond scope n (items.map (·.2)).length = [] := by
    have none := carries.beyond_eq_nil
    rwa [List.length_map] at none ⊢
  rw [← List.range_eq_range'] at elements
  unfold indexed
  simp only [(carries.endsAt full).positions_eq, List.length_map, List.length_range,
    Sequence.growing]
  refine elements.andThen ?_
  simp only [ofMismatch_ok_bind, left, Bool.false_eq_true, if_false, List.isEmpty_nil, if_true]
  exact .pure _

end

variable {l : Layer}

/-- A sequence of which there is only one source is bound from its elements. -/
theorem sequence_gives {readParts : List Part → Binding (List Value)} {kind : Sequence ρ}
    {value : Value} {texts : List (Name × String)} (there : (Store.single l).contains n = true)
    (noValue : (Store.single l).get? n = none)
    (elements : Gives (.single l) (S.indexed enter kind n (.single l)) value texts) :
    Gives (.single l) (S.sequence enter readParts kind n none) value texts := by
  have found := Store.sourceOf?_single there
  unfold sequence
  simp only [Option.isSome_none, Bool.false_eq_true, if_false]
  refine .look ?_
  simp only [found, noValue, Option.isSome_none, Bool.false_eq_true, if_false]
  exact (Gives.log _).bind (.scopedTo (.nested elements))

variable {target : Target ρ} {written : Toml.Value} {value : Value}

/-- Binding at a name gives what is written there. -/
theorem read_gives (accepting : S.handler = .accepting)
    (mirrors : target.Mirrors declarations written value)
    (carries : (Store.single l).Carries n (flatten n written))
    (enters : ∀ {target written value child}, target.Mirrors declarations written value →
      n.IsParentOf child → (Store.single l).Carries child (flatten child written) →
      Gives (.single l) (enter target child) value (flatten child written)) :
    Gives (.single l) (S.read declarations enter target n none) value (flatten n written) := by
  cases mirrors with
  | text plain =>
      rcases carries.get?_of_text with ⟨p, found, rfl⟩
      exact (text_gives found plain).map _
  | @whole type m low high =>
      have plain : '$' ∉ (toString m).toList := by
        intro member
        rcases Number.eq_or_isDigit_of_mem_toString_int member with minus | digit
        · cases minus
        · cases digit
      exact (convert_text_gives carries plain (Conversion.whole_toString low high)).map _
  | truth b =>
      have plain : '$' ∉ (if b then "true" else "false").toList := by cases b <;> decide
      exact (convert_text_gives carries plain (Conversion.truth_toString b)).map _
  | @list target items nonempty each =>
      have full : ∀ n, ∀ item ∈ items.map (·.1), flatten n item ≠ [] := by
        intro n item listed
        rcases List.mem_map.mp listed with ⟨pair, member, rfl⟩
        exact (each pair member).flatten_ne_nil n
      have there := (Mirrors.list nonempty each).contains carries
      refine sequence_gives there carries.get?_of_list
        (indexed_gives accepting _ carries full fun i item listed => ?_)
      have listedToo : (items.map (·.1))[i]? = some item.1 := by
        rw [List.getElem?_map, listed, Option.map_some]
      exact enters (each item (List.mem_of_getElem? listed)) (n.isParentOf_push _)
        (carries.item listedToo)
  | @record r rows entries nonempty fields keys labels content apart each =>
      have carried : ∀ row ∈ rows, (Store.single l).Carries (n.child row.field.name)
          (flatten (n.child row.field.name) row.written) := fun row listed =>
        carries.entry (content.mem_iff.mpr (List.mem_map_of_mem listed)) apart
      exact record_gives accepting declarations.initial fields keys labels content
        (fun row listed => (each row listed).contains (carried row listed))
        (fun row listed => enters (each row listed) (n.isParentOf_push _) (carried row listed))

/-- Binding within enough levels gives what is written. -/
theorem readWithin_gives (accepting : S.handler = .accepting) {levels : Nat}
    (mirrors : target.Mirrors declarations written value)
    (carries : (Store.single l).Carries n (flatten n written))
    (enough : (Store.single l).height < n.size + levels) :
    Gives (.single l) (S.readWithin declarations levels target n) value (flatten n written) := by
  induction levels generalizing target written value n with
  | zero =>
      -- Something is there, so the name is no longer than the store is high.
      have within := Store.size_le_height_of_contains (mirrors.contains carries)
      omega
  | succ levels inductionHypothesis =>
      refine read_gives accepting mirrors carries fun {_ _ _ child} inner parent carried => ?_
      exact inductionHypothesis inner carried (by rw [parent.1]; omega)

end Session

/-! ## Whole runs -/

namespace Binder

variable {l : Layer} {target : Target ρ} {written : Toml.Value} {value : Value} {root : Name}

/-- What the step at the root gives is what binding gives. -/
theorem bindAt_of_gives {b : Binder ρ} {existing : Bool} {bound : Option Value}
    {texts : List (Name × String)}
    (given : Binding.Gives b.sources (b.bindRoot target root existing) bound texts) :
    (b.bindAt target root existing).result = .ok bound ∧
      ∀ x ∈ texts, ∃ p ∈ (b.bindAt target root existing).bound, x.1.Same p.name := by
  rcases given (Run.initial b.sources) rfl with ⟨after, ran, _, _, each⟩
  unfold bindAt
  rw [ran]
  exact ⟨rfl, each⟩

theorem bindRoot_gives (mirrors : target.Mirrors declarations written value)
    (carries : (Store.single l).Carries root (flatten root written)) (existing : Bool) :
    Binding.Gives (.single l) ((plain (.single l) declarations).bindRoot target root existing)
      (some value) (flatten root written) := by
  let b := plain (.single l) declarations
  let slot := Slot.root (target.label declarations) existing
  have accepting : (b.session target).handler = .accepting := rfl
  have enough : (Store.single l).height < root.size + ((Store.single l).height + 1) := by omega
  have accepted : Binding.Gives (.single l) (b.bindAccepted target root slot) (some value)
      (flatten root written) := by
    have node := Session.readWithin_gives accepting mirrors carries enough
    unfold bindAccepted
    rw [show b.sources.contains root = true from mirrors.contains carries, if_pos rfl]
    exact (Session.descend_gives accepting node).map some
  unfold bindRoot
  refine (Binding.Gives.log _).bind ((Session.offer_gives accepting _ _).bind ?_)
  rw [if_pos rfl]
  exact (accepted.forTarget _).andThen ((Binding.Gives.log _).andThen (.pure _))

/-- In a store of one layer, binding that uses a property under each of the texts of the
store uses all its properties. -/
theorem mem_bound_of_carries {b : Binder ρ} {existing : Bool} {texts : List (Name × String)}
    (alone : b.sources = .single l) (carries : (Store.single l).Carries .root texts)
    (used : ∀ x ∈ texts, ∃ p ∈ (b.bindAt target root existing).bound, x.1.Same p.name)
    {p : Property} (listed : p ∈ (Store.single l).properties) :
    p ∈ (b.bindAt target root existing).bound := by
  have own : (Store.single l).get? p.name = some p := by
    rcases Store.mem_properties.mp listed with ⟨m, layer, member⟩
    rw [List.mem_singleton.mp layer] at member
    rw [Store.get?_single]
    exact Layer.get?_eq_some_iff.mpr ⟨member, Name.same_refl _⟩
  rcases carries.exists_text List.nil_prefix own with ⟨x, given, same⟩
  rcases used x given with ⟨q, bound, sameToo⟩
  have effective := (effective_of_mem_bound bound).1
  rw [alone, ← Store.get?_congr _ (same.trans sameToo), own] at effective
  rwa [Option.some.inj effective]

/-- Binding a document to a target that mirrors it gives the document back.  The file that
holds the document loads to its store, binding at the empty name gives its value, and no
property is left unused. -/
theorem bindText_document {entries : Toml.Entries}
    (mirrors : target.Mirrors declarations (.table entries) value) (source : String)
    (existing : Bool) :
    let s := Store.ofDocument source entries
    let outcome := (plain s declarations).bindText target "" existing
    (∀ required content text, content.read source = .ok (some text) →
        Toml.parse text = some entries →
        (Store.load [.file source required content]).outcome = .ok s) ∧
      outcome.result = .ok (some value) ∧ ∀ p ∈ s.properties, p ∈ outcome.bound := by
  intro s outcome
  have carries : s.Carries .root (flatten .root (.table entries)) :=
    Store.ofDocument_carries source entries
  have given := bindAt_of_gives (b := plain s declarations)
    (bindRoot_gives mirrors carries existing)
  exact ⟨fun _ _ _ => Store.load_ofDocument, given.1,
    fun p listed => mem_bound_of_carries rfl carries given.2 listed⟩

/-- A document with a key that has a dot in it, a list of more than ten numbers and a list of
tables.  The record has its fields in another order than the table. -/
theorem bindText_document_site :
    let long : Number.WholeType := ⟨true, 64⟩
    let declarations : Declarations Bool := ⟨fun
      | true => ⟨"app::Site", "Site", [⟨"counts", "a.b", ["a.b"], .list (.whole long), .missing⟩,
          ⟨"on", "On-Line", ["On-Line"], .truth, .missing⟩,
          ⟨"servers", "servers", ["servers"], .list (.record false), .missing⟩]⟩
      | false => ⟨"app::Server", "Server", [⟨"host", "host", ["host"], .text, .missing⟩]⟩,
      fun _ => .unit⟩
    let counts : List Int := [-1, 0, 1, 2, 3, 4, 5, 6, 7, 8, 9, 10]
    let entries : Toml.Entries := [("On-Line", .truth true), ("a.b", .list (counts.map .whole)),
      ("servers", .list [.table [("host", .text "a")], .table [("host", .text "b")]])]
    let s := Store.ofDocument "app.toml" entries
    let outcome := (plain s declarations).bindText (.record true) "" false
    outcome.result = .ok (some (.record [("counts", .list (counts.map (.whole long))),
        ("on", .truth true),
        ("servers", .list [.record [("host", .text "a")], .record [("host", .text "b")]])])) ∧
      ∀ p ∈ s.properties, p ∈ outcome.bound := by
  intro long declarations counts entries s outcome
  have inRange : ∀ n ∈ counts, long.smallest ≤ n ∧ n ≤ long.largest := by decide
  have numbers : Target.Mirrors declarations (.list (.whole long)) (.list (counts.map .whole))
      (.list (counts.map (.whole long))) := by
    refine @Target.Mirrors.list _ _ _ (counts.map fun n => (.whole n, .whole long n)) (by decide) ?_
    intro item member
    rcases List.mem_map.mp member with ⟨n, listed, rfl⟩
    exact .whole (inRange n listed).1 (inRange n listed).2
  have server : ∀ host : String, '$' ∉ host.toList → Target.Mirrors declarations (.record false)
      (.table [("host", .text host)]) (.record [("host", .text host)]) := by
    intro host plain
    refine @Target.Mirrors.record _ _ false
      [⟨⟨"host", "host", ["host"], .text, .missing⟩, .text host, .text host⟩] _
      (List.cons_ne_nil _ _) rfl ?_ (List.nodup_singleton _) (.refl _) (List.nodup_singleton _) ?_
    · exact List.forall_mem_singleton.mpr rfl
    · exact List.forall_mem_singleton.mpr (.text plain)
  have servers : Target.Mirrors declarations (.list (.record false))
      (.list [.table [("host", .text "a")], .table [("host", .text "b")]])
      (.list [.record [("host", .text "a")], .record [("host", .text "b")]]) := by
    refine @Target.Mirrors.list _ _ _
      [(.table [("host", .text "a")], .record [("host", .text "a")]),
        (.table [("host", .text "b")], .record [("host", .text "b")])] (List.cons_ne_nil _ _) ?_
    exact List.forall_mem_cons.mpr ⟨server "a" (by decide),
      List.forall_mem_singleton.mpr (server "b" (by decide))⟩
  have site : Target.Mirrors declarations (.record true) (.table entries)
      (.record [("counts", .list (counts.map (.whole long))), ("on", .truth true),
        ("servers", .list [.record [("host", .text "a")], .record [("host", .text "b")]])]) := by
    refine @Target.Mirrors.record _ _ true
      [⟨⟨"counts", "a.b", ["a.b"], .list (.whole long), .missing⟩, .list (counts.map .whole),
          .list (counts.map (.whole long))⟩,
        ⟨⟨"on", "On-Line", ["On-Line"], .truth, .missing⟩, .truth true, .truth true⟩,
        ⟨⟨"servers", "servers", ["servers"], .list (.record false), .missing⟩,
          .list [.table [("host", .text "a")], .table [("host", .text "b")]],
          .list [.record [("host", .text "a")], .record [("host", .text "b")]]⟩] _
      (List.cons_ne_nil _ _) rfl ?_ (by decide) (.swap _ _ _) (by decide +kernel) ?_
    · exact List.forall_mem_cons.mpr ⟨rfl, List.forall_mem_cons.mpr ⟨rfl,
        List.forall_mem_singleton.mpr rfl⟩⟩
    · exact List.forall_mem_cons.mpr ⟨numbers, List.forall_mem_cons.mpr ⟨.truth true,
        List.forall_mem_singleton.mpr servers⟩⟩
  exact (bindText_document site "app.toml" false).2
end Binder
end PropertyBinding
