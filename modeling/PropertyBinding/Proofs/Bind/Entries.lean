import Mathlib.Data.List.Dedup
import Mathlib.Data.String.Basic
import PropertyBinding.Proofs.Bind.Positions
import PropertyBinding.Proofs.Bind.Turns

/-!
# The entries of a map and the children of its name

A map has an entry for each child of its name.  But children are told apart by their relaxed
texts, and entries by the texts as they are.  The two differ for a child that is written in
brackets and one that is written with a dot: `[a-b]` and `.a-b` are different children, since
only the second one loses its hyphen in the comparison, and both give the key `a-b`.

So entries can be fewer than children, and of two children with one text the entry of the
later one stays.  That is all that can be lost.  Two children that are written in the same
way have different texts.
-/

namespace PropertyBinding

variable {ρ : Type}

/-! ## Maps from texts -/

namespace Value

variable {map found : List (Key × Value)} {word t : String} {v w : Value} {entry : Key × Value}

/-- The entries of a map from texts, each text once and in order. -/
structure Texts (map : List (Key × Value)) : Prop where
  text : ∀ entry ∈ map, ∃ word, entry.1 = .text word
  sorted : map.Pairwise fun first second => first.1.before second.1 = true

namespace Texts

theorem nil : Texts [] :=
  ⟨fun _ impossible => absurd impossible List.not_mem_nil, .nil⟩

theorem tail (texts : Texts (entry :: map)) : Texts map :=
  ⟨fun other later => texts.text other (List.mem_cons_of_mem _ later), texts.sorted.of_cons⟩

/-- Behind a text there are only later texts. -/
theorem later (texts : Texts ((.text t, w) :: map)) (listed : entry ∈ map) :
    ∃ word, entry.1 = .text word ∧ t < word := by
  rcases texts.text entry (List.mem_cons_of_mem _ listed) with ⟨word, key⟩
  have before := (List.pairwise_cons.mp texts.sorted).1 entry listed
  rw [key] at before
  exact ⟨word, key, of_decide_eq_true before⟩

theorem apart (texts : Texts ((.text t, w) :: map)) (before : word ≤ t) (listed : entry ∈ map) :
    entry.1 ≠ .text word := by
  rcases texts.later listed with ⟨later, key, after⟩
  intro same
  rw [key] at same
  cases same
  exact not_lt_of_ge before after

end Texts

section Insertion

variable {rest : List (Key × Value)}

theorem insertEntry_of_lt (before : word < t) :
    insertEntry (.text word) v ((.text t, w) :: rest) =
      (.text word, v) :: (.text t, w) :: rest :=
  if_pos (decide_eq_true before)

theorem insertEntry_of_gt (after : t < word) :
    insertEntry (.text word) v ((.text t, w) :: rest) =
      (.text t, w) :: insertEntry (.text word) v rest := by
  have passed : ¬ (Key.text word).before (.text t) = true := fun before =>
    String.lt_irrefl _ (String.lt_trans after (of_decide_eq_true before))
  exact (if_neg passed).trans (if_pos (decide_eq_true after))

theorem insertEntry_same (word : String) (v w : Value) (rest : List (Key × Value)) :
    insertEntry (.text word) v ((.text word, w) :: rest) = (.text word, v) :: rest := by
  have still : ¬ (Key.text word).before (.text word) = true := fun before =>
    String.lt_irrefl _ (of_decide_eq_true before)
  exact (if_neg still).trans (if_neg still)

/-- An entry replaces the one with the same key. -/
theorem mem_insertEntry (texts : Texts map) :
    entry ∈ insertEntry (.text word) v map ↔
      entry = (.text word, v) ∨ entry ∈ map ∧ entry.1 ≠ .text word := by
  induction map with
  | nil => simp [insertEntry]
  | cons first rest inductionHypothesis =>
      rcases first with ⟨key, w⟩
      rcases texts.text _ List.mem_cons_self with ⟨t, rfl⟩
      rcases lt_trichotomy word t with before | rfl | after
      · have apart : entry ∈ (.text t, w) :: rest → entry.1 ≠ .text word := by
          intro listed
          rcases List.mem_cons.mp listed with rfl | behind
          · exact fun same => before.ne' (Key.text.inj same)
          · exact texts.apart before.le behind
        rw [insertEntry_of_lt before, List.mem_cons]
        exact or_congr_right (iff_self_and.mpr apart)
      · have apart : entry ∈ rest → entry.1 ≠ .text word := texts.apart le_rfl
        have head : entry = (.text word, w) → entry.1 = .text word := congrArg Prod.fst
        rw [insertEntry_same, List.mem_cons, List.mem_cons]
        tauto
      · have head : entry = (.text t, w) → entry.1 ≠ .text word := by
          rintro rfl same
          exact after.ne (Key.text.inj same)
        rw [insertEntry_of_gt after, List.mem_cons, inductionHypothesis texts.tail, List.mem_cons]
        tauto

theorem Texts.insertEntry (texts : Texts map) (word : String) (v : Value) :
    Texts (Value.insertEntry (.text word) v map) := by
  refine ⟨fun entry listed => ?_, ?_⟩
  · rcases (mem_insertEntry texts).mp listed with rfl | ⟨earlier, _⟩
    · exact ⟨word, rfl⟩
    · exact texts.text entry earlier
  · induction map with
    | nil => exact List.pairwise_singleton _ _
    | cons first rest inductionHypothesis =>
        rcases first with ⟨key, w⟩
        rcases texts.text _ List.mem_cons_self with ⟨t, rfl⟩
        rcases lt_trichotomy word t with before | rfl | after
        · rw [insertEntry_of_lt before]
          refine List.pairwise_cons.mpr ⟨fun entry listed => ?_, texts.sorted⟩
          rcases List.mem_cons.mp listed with rfl | behind
          · exact decide_eq_true before
          · rcases texts.later behind with ⟨later, key, after⟩
            rw [key]
            exact decide_eq_true (before.trans after)
        · rw [insertEntry_same]
          exact List.pairwise_cons.mpr (List.pairwise_cons.mp texts.sorted)
        · rw [insertEntry_of_gt after]
          refine List.pairwise_cons.mpr ⟨fun entry listed => ?_, inductionHypothesis texts.tail⟩
          rcases (mem_insertEntry texts.tail).mp listed with rfl | ⟨behind, _⟩
          · exact decide_eq_true after
          · exact (List.pairwise_cons.mp texts.sorted).1 entry behind

end Insertion

theorem ofEntries_concat (found : List (Key × Value)) (key : Key) (v : Value) :
    ofEntries (found ++ [(key, v)]) = insertEntry key v (ofEntries found) :=
  List.foldl_concat _ _ _ _

theorem Texts.ofEntries (text : ∀ entry ∈ found, ∃ word, entry.1 = .text word) :
    Texts (Value.ofEntries found) := by
  induction found using List.reverseRecOn with
  | nil => exact .nil
  | append_singleton earlier last inductionHypothesis =>
      rcases text last (List.mem_append_right _ List.mem_cons_self) with ⟨word, key⟩
      rcases last with ⟨_, v⟩
      cases key
      rw [ofEntries_concat]
      exact (inductionHypothesis fun entry listed =>
        text entry (List.mem_append_left _ listed)).insertEntry word v

/-- Of the entries with one key the last one stays. -/
theorem mem_ofEntries (text : ∀ entry ∈ found, ∃ word, entry.1 = .text word) :
    entry ∈ ofEntries found ↔ ∃ before after, found = before ++ entry :: after ∧
      ∀ later ∈ after, later.1 ≠ entry.1 := by
  induction found using List.reverseRecOn with
  | nil => simp [ofEntries]
  | append_singleton earlier last inductionHypothesis =>
      rcases text last (List.mem_append_right _ List.mem_cons_self) with ⟨word, key⟩
      rcases last with ⟨_, v⟩
      cases key
      have textEarlier : ∀ entry ∈ earlier, ∃ word, entry.1 = .text word := fun entry listed =>
        text entry (List.mem_append_left _ listed)
      rw [ofEntries_concat, mem_insertEntry (.ofEntries textEarlier),
        inductionHypothesis textEarlier]
      constructor
      · rintro (rfl | ⟨⟨before, after, rfl, apart⟩, different⟩)
        · exact ⟨earlier, [], rfl, fun later impossible => absurd impossible List.not_mem_nil⟩
        · refine ⟨before, after ++ [(.text word, v)], by simp, fun later listed => ?_⟩
          rcases List.mem_append.mp listed with first | final
          · exact apart later first
          · rw [List.mem_singleton.mp final]
            exact different.symm
      · rintro ⟨before, after, split, apart⟩
        rcases List.eq_nil_or_concat' after with rfl | ⟨middle, final, rfl⟩
        · exact .inl (List.cons.inj (List.append_inj' split rfl).2).1.symm
        · have whole : before ++ entry :: (middle ++ [final]) =
              (before ++ entry :: middle) ++ [final] := by simp
          have parts := List.append_inj' (split.trans whole) rfl
          cases parts.2
          have different := apart (.text word, v) (List.mem_append_right _ List.mem_cons_self)
          exact .inr ⟨⟨before, middle, parts.1, fun later listed =>
            apart later (List.mem_append_left _ listed)⟩, different.symm⟩

/-- A map has as many entries as there are different keys. -/
theorem length_ofEntries (text : ∀ entry ∈ found, ∃ word, entry.1 = .text word) :
    (ofEntries found).length = (found.map Prod.fst).dedup.length := by
  have texts := Texts.ofEntries text
  have different : ((ofEntries found).map Prod.fst).Nodup := by
    refine List.pairwise_map.mpr (texts.sorted.imp_of_mem fun {a b} first _ before same => ?_)
    rcases texts.text a first with ⟨word, key⟩
    rw [← same, key] at before
    exact String.lt_irrefl word (of_decide_eq_true before)
  have members : ∀ key, key ∈ (ofEntries found).map Prod.fst ↔
      key ∈ (found.map Prod.fst).dedup := by
    intro key
    rw [List.mem_dedup]
    constructor
    · intro listed
      rcases List.mem_map.mp listed with ⟨entry, member, rfl⟩
      rcases (mem_ofEntries text).mp member with ⟨before, after, rfl, _⟩
      exact List.mem_map_of_mem (by simp)
    · intro listed
      rcases List.mem_map.mp listed with ⟨entry, member, rfl⟩
      -- The last entry with the key is the one that has stayed.
      cases last : found.reverse.find? (·.1 == entry.1) with
      | none =>
          have missing := List.find?_eq_none.mp last entry (List.mem_reverse.mpr member)
          exact absurd (beq_self_eq_true _) missing
      | some stays =>
          rcases find?_reverse_eq_some_iff.mp last with ⟨same, before, after, split, apart⟩
          refine List.mem_map.mpr ⟨stays, (mem_ofEntries text).mpr ⟨before, after, split, ?_⟩,
            eq_of_beq same⟩
          intro later behind equal
          rw [eq_of_beq same] at equal
          simpa [equal] using apart later behind
  have permuted := (List.perm_ext_iff_of_nodup different (List.nodup_dedup _)).mpr members
  rw [← permuted.length_eq, List.length_map]

theorem length_ofEntries_eq_iff (text : ∀ entry ∈ found, ∃ word, entry.1 = .text word) :
    (ofEntries found).length = found.length ↔ (found.map Prod.fst).Nodup := by
  have keys : (found.map Prod.fst).length = found.length := List.length_map _
  rw [length_ofEntries text, ← keys, ← List.dedup_eq_self]
  exact ⟨(List.dedup_sublist _).eq_of_length, congrArg List.length⟩

end Value

/-! ## Texts of children -/

/-- The text of the last element, as it is written. -/
def Name.word (n : Name) : String :=
  (n.last?.map (·.text)).getD ""

theorem Name.word_of_last? {n : Name} {e : Element} (last : n.last? = some e) :
    n.word = e.text := by
  rw [word, last, Option.map_some, Option.getD_some]

/-- Members of one name that are written in the same way and with the same text are one. -/
theorem Name.IsParentOf.same_of_word {n c d : Name} {e f : Element} (parent : n.IsParentOf c)
    (parentToo : n.IsParentOf d) (last : c.last? = some e) (lastToo : d.last? = some f)
    (text : e.text = f.text) (written : e.bracketed = f.bracketed) : c.Same d :=
  (parent.same_iff parentToo last lastToo).mpr
    (by rw [Element.relaxed, Element.relaxed, text, written])

/-- The entries that children give with the values bound at them. -/
def Value.ofRows (rows : List (Name × Value)) : List (Key × Value) :=
  Value.ofEntries (rows.map fun row => (.text row.1.word, row.2))

section Rows

variable {rows : List (Name × Value)}

private theorem text_of_row (rows : List (Name × Value)) :
    ∀ entry ∈ rows.map fun row => (Key.text row.1.word, row.2), ∃ word, entry.1 = .text word := by
  intro entry listed
  rcases List.mem_map.mp listed with ⟨row, _, rfl⟩
  exact ⟨row.1.word, rfl⟩

theorem Value.sorted_ofRows :
    (Value.ofRows rows).Pairwise fun first second => first.1.before second.1 = true :=
  (Value.Texts.ofEntries (text_of_row rows)).sorted

/-- Of the children with one text the last one counts. -/
theorem Value.mem_ofRows {key : Key} {value : Value} :
    (key, value) ∈ Value.ofRows rows ↔ ∃ before child after,
      rows = before ++ (child, value) :: after ∧ key = .text child.word ∧
        ∀ later ∈ after, later.1.word ≠ child.word := by
  rw [Value.ofRows, Value.mem_ofEntries (text_of_row rows)]
  constructor
  · rintro ⟨before, after, split, last⟩
    rcases List.map_eq_append_iff.mp split with ⟨early, rest, zipped, rfl, others⟩
    rcases List.map_eq_cons_iff.mp others with ⟨⟨child, own⟩, late, rfl, same, rfl⟩
    cases same
    exact ⟨early, child, late, zipped, rfl, fun later listed equal =>
      last _ (List.mem_map_of_mem listed) (congrArg Key.text equal)⟩
  · rintro ⟨before, child, after, rfl, rfl, last⟩
    refine ⟨_, _, List.map_append, fun later listed equal => ?_⟩
    rcases List.mem_map.mp listed with ⟨row, behind, rfl⟩
    exact last row behind (Key.text.inj equal)

theorem Value.length_ofRows_eq_iff (rows : List (Name × Value)) :
    (Value.ofRows rows).length = rows.length ↔ (rows.map fun row => row.1.word).Nodup := by
  have counted := Value.length_ofEntries_eq_iff (text_of_row rows)
  rw [List.length_map, List.map_map] at counted
  have words : rows.map (Prod.fst ∘ fun row => (Key.text row.1.word, row.2)) =
      (rows.map fun row => row.1.word).map Key.text := by
    rw [List.map_map]
    rfl
  rw [words, List.nodup_map_iff fun _ _ => Key.text.inj] at counted
  exact counted

end Rows

namespace Store

variable {s : Store} {n : Name}

/-- No child in brackets has the same text as one with a dot. -/
def TextsApart (s : Store) (n : Name) : Prop :=
  ∀ c ∈ s.children n, ∀ d ∈ s.children n, ∀ e f, c.last? = some e → d.last? = some f →
    e.bracketed = true → f.bracketed = false → e.text ≠ f.text

/-- Children have different texts, unless one in brackets has the text of one with a dot. -/
theorem nodup_words_iff : ((s.children n).map Name.word).Nodup ↔ s.TextsApart n := by
  constructor
  · intro different c listed d listedToo e f last lastToo brackets dot same
    have word : c.word = d.word := by
      rw [Name.word_of_last? last, Name.word_of_last? lastToo, same]
    rw [List.inj_on_of_nodup_map different listed listedToo word, lastToo] at last
    cases last
    rw [brackets] at dot
    cases dot
  · intro apart
    refine List.pairwise_map.mpr ((s.sorted_children n).imp_of_mem ?_)
    intro c d listed listedToo before word
    have parent := isParentOf_of_mem_children listed
    have parentToo := isParentOf_of_mem_children listedToo
    rcases parent.exists_last? with ⟨e, last⟩
    rcases parentToo.exists_last? with ⟨f, lastToo⟩
    rw [Name.word_of_last? last, Name.word_of_last? lastToo] at word
    -- If one is in brackets and the other one is not, they are not apart, in either order.
    have oneWay : e.bracketed = f.bracketed := by
      cases brackets : e.bracketed <;> cases bracketsToo : f.bracketed
      · rfl
      · exact absurd word.symm (apart d listedToo c listed f e lastToo last bracketsToo brackets)
      · exact absurd word (apart c listed d listedToo e f last lastToo brackets bracketsToo)
      · rfl
    exact (parent.same_of_word parentToo last lastToo word oneWay).not_lt before

/-- There are as many entries as children if and only if no text is that of two children. -/
theorem length_ofRows_eq_iff {values : List Value} (size : (s.children n).length = values.length) :
    (Value.ofRows ((s.children n).zip values)).length = (s.children n).length ↔
      s.TextsApart n := by
  have front : ((s.children n).zip values).map Prod.fst = s.children n :=
    List.map_fst_zip (Nat.le_of_eq size)
  have words : ((s.children n).zip values).map (fun row => row.1.word) =
      (s.children n).map Name.word := by
    conv_rhs => rw [← front, List.map_map]
    rfl
  have rows : ((s.children n).zip values).length = (s.children n).length := by
    rw [← List.length_map Prod.fst, front]
  have counted := Value.length_ofRows_eq_iff ((s.children n).zip values)
  rwa [words, rows, nodup_words_iff] at counted

end Store

/-! ## Binding entries -/

namespace Session

variable {S : Session} {declarations : Declarations ρ} {target : Target ρ} {name : Name}
  {scope : Store}

/-- Each child gives an entry under its text, with the value that is bound at the child. -/
theorem entries_bound (draws : scope.Draws S.sources) {children : List Name}
    (members : ∀ child ∈ children, name.IsParentOf child ∧ scope.contains child = true)
    {run after : Run} {found : List (Key × Value × Nat)} (inScope : run.scope = scope)
    (ran : S.entries (S.readWithin declarations S.sources.height) .text target children run =
      (.ok found, after)) (since : after.UnvetoedSince run) :
    ∃ values, List.Forall₂ (fun child value => S.Binds declarations scope target child value)
        children values ∧
      found.map (fun (k, v, _) => (k, v)) =
        (children.zip values).map fun row => (.text row.1.word, row.2) := by
  let enter := S.readWithin declarations S.sources.height
  have entered : ∀ child, S.BindsMember .any scope child (enter target child) :=
    fun child => S.readWithin_bindsMember _ target child draws
  induction children generalizing run found with
  | nil =>
      cases ran
      exact ⟨[], .nil, rfl⟩
  | cons child rest inductionHypothesis =>
      have here := members child List.mem_cons_self
      have others := fun later listed => members later (List.mem_cons_of_mem child listed)
      let bound (v : Value) : Binding (List (Key × Value × Nat)) := do
        let found ← S.entries enter .text target rest
        return (.text child.word, v, rest.length) :: found
      have opened : S.entries enter .text target (child :: rest) =
          (S.offer child (.entry child.word) >>= fun proceed =>
            if proceed = true then
              S.descend child (.entry child.word) (enter target child) >>= bound
            else S.entries enter .text target rest) := rfl
      have restOrderly : S.Orderly .any .members scope name _
          (S.entries enter .text target rest) :=
        entries_orderly .text target rest others (fun _ _ _ _ => trivial)
          fun later _ => entered later
      have boundOrderly : ∀ v, S.Orderly .any .members scope name _ (bound v) :=
        fun v => restOrderly.bind fun found => .pure _
      rcases (entered child).orderly.visit_parts boundOrderly restOrderly inScope
        (opened ▸ ran) since
        with ⟨v, before, middle, last, kept, keptToo, ranChild, sinceChild, ranRest, sinceRest⟩
      rcases restOrderly.bind_parts (fun found _ => .pure _) keptToo ranRest sinceRest
        with ⟨foundLater, ended, _, _, ranEntries, sinceEntries, made, _⟩
      cases made
      -- Below the node of a child there is one level less, and its name is longer by one element.
      have enough : S.sources.height < child.size + S.sources.height := by
        rw [here.1.1]
        omega
      have ranNode := (readWithin_eq_node draws here.2 enough kept).symm.trans ranChild
      rcases inductionHypothesis others keptToo ranEntries sinceEntries with ⟨values, each, rows⟩
      exact ⟨v :: values, .cons ⟨before, middle, kept, ranNode, sinceChild⟩ each,
        congrArg ((Key.text child.word, v) :: ·) rows⟩

/-- A map that is bound has the entries that the children of its name give. -/
theorem map_node_bound (draws : scope.Draws S.sources) {run after : Run} {v : Value}
    (inScope : run.scope = scope)
    (ran : S.node declarations (.map .text target) name run = (.ok v, after))
    (since : after.UnvetoedSince run) :
    ∃ values, List.Forall₂ (fun child value => S.Binds declarations scope target child value)
        (scope.children name) values ∧
      v = .entries (Value.ofRows ((scope.children name).zip values)) := by
  let enter := S.readWithin declarations S.sources.height
  have looked : S.node declarations (.map .text target) name run =
      Binding.forTarget (Target.label declarations (.map .text target)) (Binding.nested (do
        let found ← S.entries enter .text target (run.scope.children name)
        return .entries (Value.ofEntries (found.map fun (k, v, _) => (k, v))))) run := rfl
  rw [looked, inScope] at ran
  rcases Binding.nested_eq_ok (Binding.forTarget_eq_ok ran)
    with ⟨start, last, sameScope, began, ranBody, ended⟩
  rcases Binding.bind_eq_ok ranBody with ⟨found, stop, ranEntries, made⟩
  cases made
  have members : ∀ child ∈ scope.children name,
      name.IsParentOf child ∧ scope.contains child = true := fun child listed =>
    ⟨Store.isParentOf_of_mem_children listed, Store.contains_of_mem_children listed⟩
  have orderly : S.Orderly .any .members scope name _
      (S.entries enter .text target (scope.children name)) :=
    entries_orderly .text target _ members (fun _ _ _ _ => trivial) fun child _ =>
      S.readWithin_bindsMember _ target child draws
  have kept := sameScope.trans inScope
  have sinceEntries := orderly.unvetoed kept ranEntries since began ended
  rcases entries_bound draws members kept ranEntries sinceEntries with ⟨values, each, rows⟩
  exact ⟨values, each, congrArg (fun found => Value.entries (Value.ofEntries found)) rows⟩

end Session

/-! ## Whole runs -/

namespace Binder

variable {b : Binder ρ} {n : Name} {target : Target ρ} {existing : Bool}

/-- When binding a map from texts succeeds and nothing has been vetoed, each child has been
bound, and the map has the entries that the children give. -/
theorem bindAt_map_rows {v : Value}
    (bound : (b.bindAt (.map .text target) n existing).result = .ok (some v))
    (unvetoed : Unvetoed (callsOf (b.bindAt (.map .text target) n existing).history)) :
    ∃ values, List.Forall₂ (fun child value =>
        (b.session (.map .text target)).Binds b.declarations b.sources target child value)
        (b.sources.children n) values ∧
      v = .entries (Value.ofRows ((b.sources.children n).zip values)) := by
  rcases bindAt_binds bound unvetoed with ⟨run, after, inScope, ran, since⟩
  exact Session.map_node_bound (.refl b.sources) inScope ran since

/-- When binding a map from texts succeeds and nothing has been vetoed, each child of the name
has been bound, and the map has the value of each child under the text of the child, except
that of children with one text the last one counts.  So there are as many entries as children
if and only if no child in brackets has the same text as a child with a dot. -/
theorem bindAt_map_entries {v : Value}
    (bound : (b.bindAt (.map .text target) n existing).result = .ok (some v))
    (unvetoed : Unvetoed (callsOf (b.bindAt (.map .text target) n existing).history)) :
    let S := b.session (.map .text target)
    let children := b.sources.children n
    ∃ values entries, v = .entries entries ∧
      List.Forall₂ (fun child value => ∀ w,
        S.Binds b.declarations b.sources target child w ↔ w = value) children values ∧
      entries.Pairwise (fun first second => first.1.before second.1 = true) ∧
      (∀ key value, (key, value) ∈ entries ↔ ∃ before child after,
        children.zip values = before ++ (child, value) :: after ∧ key = .text child.word ∧
          ∀ later ∈ after, later.1.word ≠ child.word) ∧
      (entries.length = children.length ↔ b.sources.TextsApart n) := by
  intro S children
  rcases bindAt_map_rows bound unvetoed with ⟨values, each, rfl⟩
  exact ⟨values, _, rfl, each.imp fun _ _ binds => binds.iff, Value.sorted_ofRows,
    fun key value => Value.mem_ofRows, Store.length_ofRows_eq_iff each.length_eq⟩

/-- Children from two sources, of which one is written like an index and keeps its hyphen. -/
theorem bindAt_map_entries_limits :
    let limits := Name.root.child "limits"
    let limit (name : Name) (value : String) := Property.mk name value ⟨"file", toString name⟩
    let sources : Store := ⟨[
      .ofList "defaults" [limit (limits.child "max-age") "1", limit (limits.child "size") "2"],
      .ofList "file" [limit (limits.push (.bracket "Max-Age")) "3"]]⟩
    let declarations : Declarations Empty := ⟨(nomatch ·), (nomatch ·)⟩
    let b := Binder.mk sources (Provided.chain [.tracing, .noUnbound]) declarations
    let S := b.session (.map .text (.whole ⟨false, 8⟩))
    ∃ values entries, (b.bindAt (.map .text (.whole ⟨false, 8⟩)) limits false).result =
        .ok (some (.entries entries)) ∧
      List.Forall₂ (fun child value => ∀ w,
        S.Binds declarations sources (.whole ⟨false, 8⟩) child w ↔ w = value)
        (sources.children limits) values ∧
      (entries.length = (sources.children limits).length ↔ sources.TextsApart limits) := by
  intro limits limit sources declarations b S
  have unvetoed :
      Unvetoed (callsOf (b.bindAt (.map .text (.whole ⟨false, 8⟩)) limits false).history) :=
    bindAt_unvetoed (fun _ => rfl) _ limits false
  have isBound : (b.bindAt (.map .text (.whole ⟨false, 8⟩)) limits
      false).result.toOption.join.isSome = true := by decide +kernel
  rcases exists_bound isBound with ⟨v, bound⟩
  rcases bindAt_map_entries bound unvetoed with ⟨values, entries, rfl, each, _, _, counted⟩
  exact ⟨values, entries, bound, each, counted⟩

/-- Two children with one text give one entry. -/
theorem map_loses_entry :
    let m := Name.root.child "m"
    let w := Store.single (.ofList "test"
      [⟨m.child "a-b", "1", ⟨"test", "m.a-b"⟩⟩, ⟨m.push (.bracket "a-b"), "2", ⟨"test", "m[a-b]"⟩⟩])
    let declarations : Declarations Empty := ⟨(nomatch ·), (nomatch ·)⟩
    let outcome := (Binder.plain w declarations).bindAt (.map .text (.whole ⟨false, 8⟩)) m false
    Unvetoed (callsOf outcome.history) ∧ (w.children m).length = 2 ∧
      ∃ entries, outcome.result = .ok (some (.entries entries)) ∧ entries.length ≠ 2 := by
  intro m w declarations outcome
  have unvetoed : Unvetoed (callsOf outcome.history) := bindAt_unvetoed (fun _ => rfl) _ m false
  have isBound : outcome.result.toOption.join.isSome = true := by decide +kernel
  have two : (w.children m).length = 2 := by decide +kernel
  have brackets : m.push (.bracket "a-b") ∈ w.children m := by decide +kernel
  have dot : m.child "a-b" ∈ w.children m := by decide +kernel
  rcases exists_bound isBound with ⟨v, bound⟩
  rcases bindAt_map_rows bound unvetoed with ⟨values, each, rfl⟩
  refine ⟨unvetoed, two, _, bound, fun whole => ?_⟩
  have apart := (Store.length_ofRows_eq_iff each.length_eq).mp (whole.trans two.symm)
  exact apart _ brackets _ dot _ _ rfl rfl rfl (by decide +kernel) (by decide +kernel)

end Binder
end PropertyBinding
