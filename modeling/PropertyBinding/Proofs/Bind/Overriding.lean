import PropertyBinding.Proofs.Bind.Documents
import PropertyBinding.Proofs.Bind.Commas
import PropertyBinding.Proofs.Name.Grammar

/-!
# Lists in files that are loaded one after another

Of two files the later one takes precedence, and a list is taken whole from one file.  So a
list in the later file replaces the one in the earlier file, whatever their lengths: no
element of a longer list in the earlier file shows behind the last element of the later one.

There is one exception.  Files are flattened to properties before they are put on top of each
other, and an empty list is flattened to none.  So a file cannot set a key to the empty list,
and where the later file tries to, the list of the earlier file is bound.
-/

namespace PropertyBinding

variable {ρ : Type}

/-! ## Bare keys -/

/-- A key that is written in a document without quotes. -/
def Toml.IsBareKey (key : String) : Prop :=
  key.toList ≠ [] ∧ key.toList.all Toml.Scan.isBareKeyChar = true

instance (key : String) : Decidable (Toml.IsBareKey key) :=
  inferInstanceAs (Decidable (key.toList ≠ [] ∧ key.toList.all Toml.Scan.isBareKeyChar = true))

namespace Name

/-- A text without delimiters is read as one element between dots. -/
theorem parse_of_undelimited {key : String} (nonempty : key.toList ≠ [])
    (plain : ¬ key.toList.any Element.isDelimiter = true) :
    parse key = .ok (root.child key) := by
  have element : Element.ofKey key = .dotted key := if_neg plain
  rw [Element.any_isDelimiter_iff, not_or, not_or] at plain
  rcases plain with ⟨undotted, unopened, _⟩
  rw [parse_eq_ok_iff]
  refine ⟨[.dotted key.toList nonempty undotted unopened], by simp [written, Segment.front], ?_⟩
  rw [child, element]
  simp [ofSegments, Segment.element, push, root]

end Name

theorem Toml.IsBareKey.parse {key : String} (bare : Toml.IsBareKey key) :
    Name.parse key = .ok (Name.root.child key) := by
  apply Name.parse_of_undelimited bare.1
  have letters := List.all_eq_true.mp bare.2
  rw [Element.any_isDelimiter_iff]
  rintro (dot | opened | closed)
  · cases letters '.' dot
  · cases letters '[' opened
  · cases letters ']' closed

/-! ## Two files -/

/-- Loading two files one after the other gives a store with a layer for each document. -/
theorem Store.load_documents {path other text textToo : String} {required requiredToo : Bool}
    {content contentToo : FileContent} {earlier later : Toml.Entries}
    (reads : content.read path = .ok (some text)) (parses : Toml.parse text = some earlier)
    (readsToo : contentToo.read other = .ok (some textToo))
    (parsesToo : Toml.parse textToo = some later) :
    (load [.file path required content, .file other requiredToo contentToo]).outcome =
      .ok ((ofDocument path earlier).push other (documentProperties other later)) := by
  simp only [load, loadOnto, Source.load, loadFile, reads, parses, readsToo, parsesToo]
  rfl

namespace Binder

variable {b : Binder ρ} {target : Target ρ} {declarations : Declarations ρ} {n : Name}
  {key : String} {xs ys : List String}

/-- Where there is nothing, there is no value under the handler that accepts everything. -/
theorem bindAt_missing (accepting : b.handler = .accepting)
    (nothing : ¬ b.sources.contains n = true) (target : Target ρ) (existing : Bool) :
    (b.bindAt target n existing).result = .ok none := by
  let S := b.session target
  let slot := Slot.root (target.label b.declarations) existing
  have acceptingToo : S.handler = .accepting := accepting
  have guarded : Binding.Gives b.sources (S.guarded n slot (S.finish n slot)) () [] := by
    intro run inScope
    rcases Session.finish_gives acceptingToo n slot run inScope with ⟨after, ran, rest⟩
    refine ⟨after, ?_, rest⟩
    rw [Session.guarded, ran]
  have accepted : Binding.Gives b.sources (b.bindAccepted target n slot) none [] := by
    unfold bindAccepted
    rw [if_neg nothing]
    exact guarded.andThen (.pure none)
  have root : Binding.Gives b.sources (b.bindRoot target n existing) none [] := by
    unfold bindRoot
    refine (Binding.Gives.log _).bind ((Session.offer_gives acceptingToo _ _).bind ?_)
    rw [if_pos rfl]
    exact (accepted.forTarget _).andThen ((Binding.Gives.log _).andThen (.pure _))
  exact (bindAt_of_gives root).1

/-- Binding with a default takes what is bound, or the initial value if there is nothing. -/
theorem bindOrDefault_of_bindAt (parsed : Name.parse key = .ok n) {bound : Option Value}
    (made : (b.bindAt target n true).result.toOption = some bound) :
    (b.bindOrDefault target key).result =
      .ok (bound.getD (target.initial b.declarations.initial)) := by
  have read : b.bindText target key true = b.bindAt target n true := by
    rw [bindText, parsed]
  cases result : (b.bindAt target n true).result with
  | error e =>
      rw [result] at made
      cases made
  | ok v =>
      rw [result] at made
      cases made
      rw [bindOrDefault, bindOr, read, result]
      rfl

/-- A list of texts without placeholders that the highest source has is bound as it is. -/
theorem bindOrDefault_highest {s : Store} {l : Layer} {texts : List String}
    (parsed : Name.parse key = .ok n) (nonempty : texts ≠ [])
    (highest : (Store.single l).contains n = true → s.Highest n l)
    (carries : (Store.single l).Carries n (flatten n (.list (texts.map .text))))
    (plainTexts : ∀ t ∈ texts, '$' ∉ t.toList) :
    ((plain s declarations).bindOrDefault (.list .text) key).result =
      .ok (.list (texts.map .text)) := by
  have there := carries.contains_texts_iff.mpr nonempty
  have made : texts.mapM (Target.text : Target ρ).ofText = some (texts.map .text) :=
    List.mapM_pure
  have scalar : (Target.text : Target ρ).Scalar := trivial
  have bound : ((plain s declarations).bindAt (.list .text) n true).result.toOption = _ :=
    bindAt_carried scalar (highest there) carries plainTexts true
  rw [made, Option.map_some] at bound
  exact bindOrDefault_of_bindAt parsed bound

/-- Of two layers with nothing but a list at a name, the upper one decides unless its list is
empty. -/
theorem bindOrDefault_layers {lower upper : Layer} (parsed : Name.parse key = .ok n)
    (below : ys = [] → (Store.single lower).Carries n (flatten n (.list (xs.map .text))))
    (above : (Store.single upper).Carries n (flatten n (.list (ys.map .text))))
    (plainTexts : ∀ t ∈ xs ++ ys, '$' ∉ t.toList) :
    ((plain ⟨[lower, upper]⟩ declarations).bindOrDefault (.list .text) key).result =
      .ok (.list ((if ys = [] then xs else ys).map .text)) := by
  by_cases replaced : ys = []
  · rw [if_pos replaced]
    have nothing : ¬ (Store.single upper).contains n = true := fun there =>
      above.contains_texts_iff.mp there replaced
    by_cases shows : xs = []
    · have nothingToo : ¬ (Store.single lower).contains n = true := fun there =>
        (below replaced).contains_texts_iff.mp there shows
      have missing : ¬ (Store.mk [lower, upper]).contains n = true := by
        rw [Store.contains_single] at nothing nothingToo
        simp [Store.contains, nothing, nothingToo]
      rw [shows]
      exact bindOrDefault_of_bindAt parsed
        (congrArg Except.toOption (bindAt_missing rfl missing (.list .text) true))
    · exact bindOrDefault_highest parsed shows (Store.highest_under · nothing) (below replaced)
        fun t listed => plainTexts t (List.mem_append_left ys listed)
  · rw [if_neg replaced]
    exact bindOrDefault_highest parsed replaced (Store.highest_concat [lower]) above
      fun t listed => plainTexts t (List.mem_append_right xs listed)

/-- Two files set a bare key to lists of texts without placeholders.  Loading the files one
after the other gives a store in which the later one takes precedence, and what is bound at the
key is the list of the later file, whatever the lengths of the two.  Only if this list is empty
the list of the earlier file is bound, since an empty list leaves nothing in the store. -/
theorem bindOrDefault_overridden (declarations : Declarations ρ) (bare : Toml.IsBareKey key)
    {earlier later : Toml.Entries} (sets : ys = [] → earlier.Sets key (.list (xs.map .text)))
    (resets : later.Sets key (.list (ys.map .text))) (plainTexts : ∀ t ∈ xs ++ ys, '$' ∉ t.toList)
    (path other : String) :
    let s := (Store.ofDocument path earlier).push other (documentProperties other later)
    (∀ required requiredToo content contentToo text textToo,
        content.read path = .ok (some text) → Toml.parse text = some earlier →
        contentToo.read other = .ok (some textToo) → Toml.parse textToo = some later →
        (Store.load [.file path required content, .file other requiredToo contentToo]).outcome =
          .ok s) ∧
      ((plain s declarations).bindOrDefault (.list .text) key).result =
        .ok (.list ((if ys = [] then xs else ys).map .text)) :=
  ⟨fun _ _ _ _ _ _ => Store.load_documents, bindOrDefault_layers bare.parse
    (fun empty => (Store.ofDocument_carries path earlier).set (sets empty))
    ((Store.ofDocument_carries other later).set resets) plainTexts⟩

/-- A longer list in the earlier file, next to another key. -/
theorem bindOrDefault_overridden_hosts :
    let base := Source.file "base.toml" true
      (.text "hosts = [\"a\", \"b\", \"c\"]\nname = \"x\"\n")
    let override := Source.file "local.toml" false (.text "hosts = [\"d\"]\n")
    let declarations : Declarations Empty := ⟨(nomatch ·), (nomatch ·)⟩
    ∃ s, (Store.load [base, override]).outcome = .ok s ∧
      ((plain s declarations).bindOrDefault (.list .text) "hosts").result =
        .ok (.list [.text "d"]) := by
  intro base override declarations
  let earlier : Toml.Entries :=
    [("hosts", .list (["a", "b", "c"].map .text)), ("name", .text "x")]
  let later : Toml.Entries := [("hosts", .list (["d"].map .text))]
  have parses : Toml.parse "hosts = [\"a\", \"b\", \"c\"]\nname = \"x\"\n" = some earlier := by
    decide +kernel
  have parsesToo : Toml.parse "hosts = [\"d\"]\n" = some later := by decide +kernel
  have sets : ["d"] = [] → earlier.Sets "hosts" (.list (["a", "b", "c"].map .text)) :=
    fun empty => absurd empty (List.cons_ne_nil _ _)
  have resets : later.Sets "hosts" (.list (["d"].map .text)) := ⟨[], [], rfl, List.forall_mem_nil _⟩
  have bare : Toml.IsBareKey "hosts" := by decide
  rcases bindOrDefault_overridden declarations bare sets resets (by decide) "base.toml" "local.toml"
    with ⟨loads, bound⟩
  exact ⟨_, loads true false _ _ _ _ rfl parses rfl parsesToo, bound⟩

/-- A later file may set a key to the empty list and leave the list of the earlier file to be
bound, or set it to a list and have a value under another spelling of the key. -/
theorem later_list_not_bound :
    let base := Source.file "a.toml" true (.text "k = [\"a\"]\n")
    let empty := Source.file "b.toml" true (.text "k = []\n")
    let double := Source.file "b.toml" true (.text "K = \"x\"\nk = [\"b\"]\n")
    let declarations : Declarations Empty := ⟨(nomatch ·), (nomatch ·)⟩
    let bound (s : Store) := ((plain s declarations).bindOrDefault (.list .text) "k").result
    (∃ s, (Store.load [base, empty]).outcome = .ok s ∧ bound s = .ok (.list [.text "a"])) ∧
      ∃ s, (Store.load [base, double]).outcome = .ok s ∧ bound s = .ok (.list [.text "x"]) := by
  intro base empty double declarations bound
  let k := Name.root.child "k"
  let earlier : Toml.Entries := [("k", .list (["a"].map .text))]
  let nothing : Toml.Entries := [("k", .list (([] : List String).map .text))]
  let spellings : Toml.Entries := [("K", .text "x"), ("k", .list (["b"].map .text))]
  have parses : Toml.parse "k = [\"a\"]\n" = some earlier := by decide +kernel
  have parsesEmpty : Toml.parse "k = []\n" = some nothing := by decide +kernel
  have parsesDouble : Toml.parse "K = \"x\"\nk = [\"b\"]\n" = some spellings := by decide +kernel
  have bare : Toml.IsBareKey "k" := by decide
  refine ⟨⟨_, Store.load_documents rfl parses rfl parsesEmpty, ?_⟩,
    ⟨_, Store.load_documents rfl parses rfl parsesDouble, ?_⟩⟩
  · have below : (Store.ofDocument "a.toml" earlier).Carries k
        (flatten k (.list (["a"].map .text))) :=
      (Store.ofDocument_carries "a.toml" earlier).set ⟨[], [], rfl, List.forall_mem_nil _⟩
    have above : (Store.ofDocument "b.toml" nothing).Carries k
        (flatten k (.list (([] : List String).map .text))) :=
      (Store.ofDocument_carries "b.toml" nothing).set ⟨[], [], rfl, List.forall_mem_nil _⟩
    exact bindOrDefault_layers bare.parse (fun _ => below) above (by decide)
  · let s := (Store.ofDocument "a.toml" earlier).push "b.toml"
      (documentProperties "b.toml" spellings)
    let w := Store.ofDocument "b.toml" spellings
    let p := Property.mk (Name.root.child "K") "x" ⟨"b.toml", "k"⟩
    let b := plain s declarations
    have there : w.contains k = true := by decide +kernel
    have highest :=
      Store.highest_concat [.ofList "a.toml" (documentProperties "a.toml" earlier)] there
    have found : w.get? k = some p := by decide +kernel
    have effective : s.get? k = some p := by decide +kernel
    have scalar : (Target.text : Target Empty).Scalar := trivial
    have made : Binding.Makes s ((b.session (.list .text)).node declarations (.list .text) k)
        (((Conversion.parts p.value).mapM (Target.text : Target Empty).ofText).map .list) :=
      Session.list_node_makes scalar highest.sourceOf? (Option.isSome_of_mem found) effective
        (by decide)
    have parts : Conversion.parts p.value = ["x"] := by decide +kernel
    rw [parts] at made
    have result : (b.bindAt (.list .text) k true).result.toOption = _ :=
      bindAt_of_makes rfl highest.contains made true
    exact bindOrDefault_of_bindAt bare.parse (result.trans rfl)

end Binder
end PropertyBinding
