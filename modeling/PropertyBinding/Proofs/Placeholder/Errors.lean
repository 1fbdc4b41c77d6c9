import PropertyBinding.Proofs.Placeholder.Fragments
import PropertyBinding.Proofs.Placeholder.Substitution

/-!
# Errors of placeholders are genuine

An error of resolving may come from far away: from a key inside a key, from a fallback,
or from a value behind several references.  It says something about the store all the
same.  A key that cannot be resolved names no property, and a placeholder that is not
closed is one of the value itself or of a property's whole value, because keys and
fallbacks are complete.

That a circle is one needs an argument.  A key is reported when it is met again while
its value is being resolved, and some keys around it are being followed then.  Resolved
on its own the value passes the same way until it comes to the key, which is not being
followed this time, and follows it.  There it resolves the value once more, to less
depth.  If less depth only ever leads into a circle or to no end, so does this one; and
following more keys can make no other difference than that a circle is found earlier.
-/

namespace PropertyBinding

namespace Resolution

variable {α β : Type} {x y : Resolution α}

/-- Where both finish, the other finds what the one finds. -/
def Confirms (x y : Resolution α) : Prop :=
  ∀ a, x.run = some (.ok a) → ∀ outcome, y.run = some outcome → outcome = .ok a

theorem KeptBy.confirms {z : Resolution α} (kept : x.KeptBy z) (extended : y.ExtendedBy z) :
    x.Confirms y := by
  intro a found outcome finished
  exact Option.some.inj ((extended outcome finished).symm.trans (kept a found))

/-- If the resolution finishes, it has met a key again. -/
def Circles (x : Resolution α) : Prop :=
  ∀ outcome, x.run = some outcome → ∃ key, outcome = .error (.circular key)

theorem circles_none : Circles (none : Resolution α) :=
  fun _ finished => by cases finished

theorem circles_throw (key : String) :
    Circles (throw (.circular key) : Resolution α) := by
  intro outcome finished
  cases finished
  exact ⟨key, rfl⟩

theorem Circles.bind (circles : x.Circles) (next : α → Resolution β) : (x >>= next).Circles := by
  intro outcome finished
  rw [ExceptT.run_bind] at finished
  cases first : x.run with
  | none => simp [first] at finished
  | some result =>
      rcases circles result first with ⟨key, rfl⟩
      rw [first] at finished
      cases finished
      exact ⟨key, rfl⟩

/-- A step that can only find `a` leads into a circle if going on from `a` does. -/
theorem Circles.of_bind {a : α} (found : ∀ outcome, x.run = some outcome → outcome = .ok a)
    {next : α → Resolution β} (circles : (next a).Circles) : (x >>= next).Circles := by
  intro outcome finished
  rw [ExceptT.run_bind] at finished
  cases first : x.run with
  | none => simp [first] at finished
  | some result =>
      rw [first, found result first] at finished
      exact circles outcome finished

/-- Where the other finishes, it has the same outcome or has met a key again. -/
def ClosesOn (x y : Resolution α) : Prop :=
  ∀ outcome, y.run = some outcome →
    x.run = some outcome ∨ ∃ key, outcome = .error (.circular key)

theorem ClosesOn.refl (x : Resolution α) : x.ClosesOn x :=
  fun _ finished => Or.inl finished

theorem ClosesOn.bind {next other : α → Resolution β} (first : x.ClosesOn y)
    (second : ∀ a, (next a).ClosesOn (other a)) : (x >>= next).ClosesOn (y >>= other) := by
  intro outcome finished
  rw [ExceptT.run_bind] at finished ⊢
  cases inner : y.run with
  | none => simp [inner] at finished
  | some result =>
      rw [inner] at finished
      cases result with
      | error e =>
          obtain rfl : Except.error e = outcome := Option.some.inj finished
          rcases first _ inner with same | ⟨key, circular⟩
          · exact Or.inl (by rw [same]; rfl)
          · cases circular
            exact Or.inr ⟨key, rfl⟩
      | ok a =>
          rcases first _ inner with same | ⟨key, impossible⟩
          · rw [same]
            exact second a outcome finished
          · cases impossible

theorem Circles.of_closesOn (circles : x.Circles) (closes : x.ClosesOn y) : y.Circles := by
  intro outcome finished
  rcases closes outcome finished with same | circular
  · exact circles outcome same
  · exact circular

end Resolution

namespace Template

open Resolution

variable {lookup : String → Option String} {follow other : String → String → Resolution (List Char)}
  {visiting fewer : List String} {e : PlaceholderError}

/-! ## Where errors are raised -/

/-- How an error arises when a part of `whole` is expanded: here, or from the value
behind a reference. -/
inductive Raised (lookup : String → Option String)
    (follow : String → String → Resolution (List Char)) (visiting : List String)
    (whole t : Template) : PlaceholderError → Prop
  | unresolvable {key value : String} (unnamed : lookup key = none) :
      Raised lookup follow visiting whole t (.unresolvable key value)
  | circular {key : String} (met : key ∈ visiting) :
      Raised lookup follow visiting whole t (.circular key)
  | unclosed (broken : ¬ t.Complete) : Raised lookup follow visiting whole t (.unclosed whole.text)
  | followed {key value : String} {e : PlaceholderError} (named : lookup key = some value)
      (failed : (follow key value).run = some (.error e)) : Raised lookup follow visiting whole t e

/-- An error of the rest of a template is one of the template. -/
theorem Raised.of_rest {whole t rest : Template}
    (raised : Raised lookup follow visiting whole rest e)
    (complete : t.Complete → rest.Complete) : Raised lookup follow visiting whole t e := by
  cases raised with
  | unresolvable unnamed => exact .unresolvable unnamed
  | circular met => exact .circular met
  | unclosed broken => exact .unclosed fun whole => broken (complete whole)
  | followed named failed => exact .followed named failed

/-- An error of a complete part is one of any template. -/
theorem Raised.of_part {whole t around part : Template}
    (raised : Raised lookup follow visiting around part e) (complete : part.Complete) :
    Raised lookup follow visiting whole t e := by
  cases raised with
  | unresolvable unnamed => exact .unresolvable unnamed
  | circular met => exact .circular met
  | unclosed broken => exact absurd complete broken
  | followed named failed => exact .followed named failed

theorem raised_of_referred {whole t : Template} {key : String}
    {absent : Unit → Resolution (List Char)}
    (missing : lookup key = none → (absent ()).run = some (.error e) →
      Raised lookup follow visiting whole t e)
    (failed : (referred lookup follow visiting key absent).run = some (.error e)) :
    Raised lookup follow visiting whole t e := by
  unfold referred at failed
  by_cases met : key ∈ visiting
  · rw [if_pos met] at failed
    cases failed
    exact .circular met
  · rw [if_neg met] at failed
    cases named : lookup key with
    | some value => exact .followed named (by simpa [named] using failed)
    | none => exact missing named (by simpa [named] using failed)

/-- Each error of an expansion is raised in one of these ways. -/
theorem raised_of_expand {whole t : Template} (parts : t.PartsComplete)
    (failed : (expand lookup follow visiting whole t).run = some (.error e)) :
    Raised lookup follow visiting whole t e := by
  induction t generalizing whole e with
  | done => cases failed
  | literal c rest inductionHypothesis =>
      rcases run_bind_eq_error.mp failed with early | ⟨_, _, impossible⟩
      · exact (inductionHypothesis parts early).of_rest id
      · cases impossible
  | escaped rest inductionHypothesis =>
      rcases run_bind_eq_error.mp failed with early | ⟨_, _, impossible⟩
      · exact (inductionHypothesis parts early).of_rest id
      · cases impossible
  | reference key rest keyHypothesis restHypothesis =>
      rcases run_bind_eq_error.mp failed with early | ⟨found, _, failed⟩
      · exact (keyHypothesis parts.1.partsComplete early).of_part parts.1
      rcases run_bind_eq_error.mp failed with early | ⟨value, _, failed⟩
      · refine raised_of_referred (fun unnamed thrown => ?_) early
        cases thrown
        exact .unresolvable unnamed
      rcases run_bind_eq_error.mp failed with early | ⟨_, _, impossible⟩
      · exact (restHypothesis parts.2 early).of_rest And.right
      · cases impossible
  | referenceOr key fallback rest keyHypothesis fallbackHypothesis restHypothesis =>
      rcases run_bind_eq_error.mp failed with early | ⟨found, _, failed⟩
      · exact (keyHypothesis parts.1.partsComplete early).of_part parts.1
      rcases run_bind_eq_error.mp failed with early | ⟨value, _, failed⟩
      · refine raised_of_referred (fun _ failedToo => ?_) early
        exact (fallbackHypothesis parts.2.1.partsComplete failedToo).of_part parts.2.1
      rcases run_bind_eq_error.mp failed with early | ⟨_, _, impossible⟩
      · exact (restHypothesis parts.2.2 early).of_rest fun complete => complete.2.2
      · cases impossible
  | unclosed body =>
      cases failed
      exact .unclosed id

/-! ## Following more keys -/

/-- Following more keys makes no other difference to an expansion than a circle. -/
theorem expand_closesOn (followed : ∀ key value, (follow key value).ClosesOn (other key value))
    (subset : fewer ⊆ visiting) (whole t : Template) :
    (expand lookup follow fewer whole t).ClosesOn (expand lookup other visiting whole t) := by
  have referring : ∀ (key : String) {absent present : Unit → Resolution (List Char)},
      (absent ()).ClosesOn (present ()) → (referred lookup follow fewer key absent).ClosesOn
        (referred lookup other visiting key present) := by
    intro key absent present closes
    unfold referred
    by_cases met : key ∈ visiting
    · rw [if_pos met]
      exact fun outcome finished => Or.inr (circles_throw key outcome finished)
    · rw [if_neg met, if_neg fun earlier => met (subset earlier)]
      cases lookup key with
      | some value => exact followed key value
      | none => exact closes
  induction t generalizing whole with
  | done => exact .refl _
  | literal c rest restCloses => exact (restCloses whole).bind fun after => .refl _
  | escaped rest restCloses => exact (restCloses whole).bind fun after => .refl _
  | reference key rest keyCloses restCloses =>
      refine (keyCloses key).bind fun found => ?_
      refine ClosesOn.bind (referring _ (.refl _)) fun value => ?_
      exact (restCloses whole).bind fun after => .refl _
  | referenceOr key fallback rest keyCloses fallbackCloses restCloses =>
      refine (keyCloses key).bind fun found => ?_
      refine ClosesOn.bind (referring _ (fallbackCloses fallback)) fun value => ?_
      exact (restCloses whole).bind fun after => .refl _
  | unclosed body => exact .refl _

end Template

namespace Store

open Placeholder Resolution Template

variable (s : Store) {value key raw : String} {depth less : Nat} {visiting fewer : List String}

/-- Following more keys makes no other difference than a circle. -/
theorem resolveWithin_closesOn (depth : Nat) (subset : fewer ⊆ visiting) (value : String) :
    (s.resolveWithin depth fewer value).ClosesOn (s.resolveWithin depth visiting value) := by
  induction depth generalizing fewer visiting value with
  | zero => exact .refl _
  | succ depth inductionHypothesis =>
      refine expand_closesOn (fun key raw => ?_) subset _ _
      exact inductionHypothesis (List.cons_subset_cons key subset) raw

/-! ## Circles -/

/-- Resolving to less depth, while fewer keys are being followed, retraces a resolution
that ends in a circle at a key: it circles behind that key, which it follows, and behind
every reference behind which the other ends. -/
structure Retraces (key : String) (depth less : Nat) (visiting fewer : List String) : Prop where
  subset : fewer ⊆ visiting
  again : ∃ raw, s.valueOf? key = some raw ∧ (s.resolveWithin less (key :: fewer) raw).Circles
  behind : ∀ k raw, (s.resolveWithin depth (k :: visiting) raw).run =
    some (.error (.circular key)) → (s.resolveWithin less (k :: fewer) raw).Circles

namespace Retraces

variable {s}

theorem referred (retraces : s.Retraces key depth less visiting fewer) {found : String}
    {absent present : Unit → Resolution (List Char)}
    (missing : (absent ()).run = some (.error (.circular key)) → (present ()).Circles)
    (circular : (Template.referred s.valueOf? (fun k => s.resolveWithin depth (k :: visiting))
      visiting found absent).run = some (.error (.circular key))) :
    (Template.referred s.valueOf? (fun k => s.resolveWithin less (k :: fewer)) fewer found
      present).Circles := by
  unfold Template.referred at circular ⊢
  by_cases earlier : found ∈ fewer
  · rw [if_pos earlier]
    exact circles_throw found
  · rw [if_neg earlier]
    by_cases met : found ∈ visiting
    · -- This is where the circle closes, and where the key is followed instead.
      rw [if_pos met] at circular
      cases circular
      rcases retraces.again with ⟨raw, named, circles⟩
      rw [named]
      exact circles
    · rw [if_neg met] at circular
      cases named : s.valueOf? found with
      | some raw => exact retraces.behind found raw (by simpa [named] using circular)
      | none => exact missing (by simpa [named] using circular)

theorem expand (retraces : s.Retraces key depth less visiting fewer) (whole around t : Template)
    (circular : (Template.expand s.valueOf? (fun k => s.resolveWithin depth (k :: visiting))
      visiting whole t).run = some (.error (.circular key))) :
    (Template.expand s.valueOf? (fun k => s.resolveWithin less (k :: fewer)) fewer around
      t).Circles := by
  -- What is found on the way is the same on both sides, as both find it to enough depth.
  have kept : ∀ k raw, (s.resolveWithin depth (k :: visiting) raw).KeptBy
      (s.resolveWithin (max depth less) (k :: fewer) raw) := fun k raw =>
    s.resolveWithin_keptBy (Nat.le_max_left _ _) (List.cons_subset_cons k retraces.subset) raw
  have extended : ∀ k raw, (s.resolveWithin less (k :: fewer) raw).ExtendedBy
      (s.resolveWithin (max depth less) (k :: fewer) raw) := fun k raw =>
    s.resolveWithin_extendedBy (Nat.le_max_right _ _) (k :: fewer) raw
  have avoided : ∀ k ∈ fewer, k ∈ visiting ∨ Fruitless s.valueOf?
      (fun k => s.resolveWithin depth (k :: visiting)) k :=
    fun k member => Or.inl (retraces.subset member)
  have expanding : ∀ whole around t : Template,
      (Template.expand s.valueOf? (fun k => s.resolveWithin depth (k :: visiting)) visiting whole
          t).Confirms
        (Template.expand s.valueOf? (fun k => s.resolveWithin less (k :: fewer)) fewer around t) :=
    fun whole around t =>
      (expand_keptBy kept avoided whole around t).confirms (expand_extendedBy extended around t)
  have referring : ∀ (found : String) {absent present : Unit → Resolution (List Char)}
      {z : Resolution (List Char)}, (absent ()).KeptBy z → (present ()).ExtendedBy z →
      (Template.referred s.valueOf? (fun k => s.resolveWithin depth (k :: visiting)) visiting found
          absent).Confirms
        (Template.referred s.valueOf? (fun k => s.resolveWithin less (k :: fewer)) fewer found
          present) := by
    intro found absent present z keptToo extendedToo
    have found_kept : (Template.referred s.valueOf? (fun k => s.resolveWithin depth (k :: visiting))
        visiting found absent).KeptBy (Template.referred s.valueOf?
          (fun k => s.resolveWithin (max depth less) (k :: fewer)) fewer found fun _ => z) :=
      referred_keptBy kept avoided found keptToo
    exact found_kept.confirms (referred_extendedBy extended found extendedToo)
  induction t generalizing whole around with
  | done => cases circular
  | literal c rest inductionHypothesis =>
      rcases run_bind_eq_error.mp circular with early | ⟨_, _, impossible⟩
      · exact (inductionHypothesis whole around early).bind _
      · cases impossible
  | escaped rest inductionHypothesis =>
      rcases run_bind_eq_error.mp circular with early | ⟨_, _, impossible⟩
      · exact (inductionHypothesis whole around early).bind _
      · cases impossible
  | reference name rest nameHypothesis restHypothesis =>
      rcases run_bind_eq_error.mp circular with early | ⟨found, resolved, circular⟩
      · exact (nameHypothesis name name early).bind _
      refine Circles.of_bind (expanding name name name found resolved) ?_
      rcases run_bind_eq_error.mp circular with early | ⟨text, referredTo, circular⟩
      · refine (retraces.referred (fun thrown => ?_) early).bind _
        cases thrown
      have unresolved : KeptBy (throw (.unresolvable (String.ofList found) whole.text))
          (throw (.unresolvable (String.ofList found) around.text) : Resolution (List Char)) :=
        fun a impossible => by cases impossible
      refine Circles.of_bind (referring _ unresolved (.refl _) text referredTo) ?_
      rcases run_bind_eq_error.mp circular with early | ⟨_, _, impossible⟩
      · exact (restHypothesis whole around early).bind _
      · cases impossible
  | referenceOr name fallback rest nameHypothesis fallbackHypothesis restHypothesis =>
      rcases run_bind_eq_error.mp circular with early | ⟨found, resolved, circular⟩
      · exact (nameHypothesis name name early).bind _
      refine Circles.of_bind (expanding name name name found resolved) ?_
      rcases run_bind_eq_error.mp circular with early | ⟨text, referredTo, circular⟩
      · exact (retraces.referred (fallbackHypothesis fallback fallback) early).bind _
      refine Circles.of_bind (referring _ (expand_keptBy kept avoided _ fallback fallback)
        (expand_extendedBy extended fallback fallback) text referredTo) ?_
      rcases run_bind_eq_error.mp circular with early | ⟨_, _, impossible⟩
      · exact (restHypothesis whole around early).bind _
      · cases impossible
  | unclosed body => cases circular

end Retraces

/-- Once a circle has been found at a key, whatever led to it circles when fewer keys are
being followed, as long as the key's own value does so to all depths below. -/
theorem resolveWithin_circles (named : s.valueOf? key = some raw) {bound : Nat}
    (below : ∀ less < bound, (s.resolveWithin less [] raw).Circles) (enough : less ≤ bound)
    (subset : fewer ⊆ visiting) (value : String)
    (circular : (s.resolveWithin depth visiting value).run = some (.error (.circular key))) :
    (s.resolveWithin less fewer value).Circles := by
  induction depth generalizing less visiting fewer value with
  | zero => cases circular
  | succ depth inductionHypothesis =>
      cases less with
      | zero => exact circles_none
      | succ less =>
          have more := s.resolveWithin_closesOn less (List.nil_subset (key :: fewer)) raw
          have retraces : s.Retraces key depth less visiting fewer :=
            { subset := subset
              again := ⟨raw, named, (below less enough).of_closesOn more⟩
              behind := fun k behind => inductionHypothesis (Nat.le_of_succ_le enough)
                (List.cons_subset_cons k subset) behind }
          exact retraces.expand _ _ _ circular

/-- A key that is found in a circle while it is being followed stands for a value that
leads into a circle on its own. -/
theorem circles_of_circular (named : s.valueOf? key = some raw)
    (circular : (s.resolveWithin depth visiting raw).run = some (.error (.circular key)))
    (less : Nat) : (s.resolveWithin less [] raw).Circles := by
  induction less using Nat.strong_induction_on with
  | _ less inductionHypothesis =>
      exact s.resolveWithin_circles named inductionHypothesis (Nat.le_refl less)
        (List.nil_subset visiting) raw circular

/-! ## What errors say -/

/-- What an error says of the store while some keys are being followed. -/
def Reports (visiting : List String) (value : String) : PlaceholderError → Prop
  | .unresolvable key _ => s.valueOf? key = none
  | .circular key => key ∈ visiting ∨ ∃ raw depth before, s.valueOf? key = some raw ∧
      (s.resolveWithin depth before raw).run = some (.error (.circular key))
  | .unclosed whole =>
    (whole = value ∨ ∃ p ∈ s.effective, p.value = whole) ∧ LeavesOpen whole.toList

theorem resolveWithin_reports {e : PlaceholderError}
    (failed : (s.resolveWithin depth visiting value).run = some (.error e)) :
    s.Reports visiting value e := by
  induction depth generalizing visiting value with
  | zero => cases failed
  | succ depth inductionHypothesis =>
      cases raised_of_expand (partsComplete_ofChars value.toList) failed with
      | unresolvable unnamed => exact unnamed
      | circular met => exact Or.inl met
      | unclosed broken =>
          rw [text_ofText]
          exact ⟨Or.inl rfl, leavesOpen_of_not_complete broken⟩
      | @followed key raw _ named failedThere =>
          have reports := inductionHypothesis failedThere
          cases e with
          | unresolvable name whole => exact reports
          | circular name =>
              rcases reports with met | inside
              · rcases List.mem_cons.mp met with rfl | before
                · exact Or.inr ⟨raw, depth, _, named, failedThere⟩
                · exact Or.inl before
              · exact Or.inr inside
          | unclosed whole =>
              rcases reports with ⟨rfl | other, leavesOpen⟩
              · rcases exists_names_of_valueOf? named with ⟨p, ⟨_, _, _, effective⟩, rfl⟩
                exact ⟨Or.inr ⟨p, (get?_eq_some_iff.mp effective).1, rfl⟩, leavesOpen⟩
              · exact ⟨Or.inr other, leavesOpen⟩

/-- An error is found at some depth. -/
theorem exists_of_resolve_eq_error {e : PlaceholderError} (failed : s.resolve value = .error e) :
    (s.resolveWithin (s.depthBound value) [] value).run = some (.error e) := by
  cases reached : (s.resolveWithin (s.depthBound value) [] value).run with
  | none => exact absurd reached (s.resolveWithin_depthBound [] value)
  | some outcome =>
      rw [s.resolve_eq_of_finished reached] at failed
      cases outcome with
      | ok text => cases failed
      | error other =>
          cases failed
          rfl

/-- A value that never leads anywhere but into a circle is reported as circular. -/
theorem resolve_of_circles (circles : ∀ depth, (s.resolveWithin depth [] value).Circles) :
    ∃ key, s.resolve value = .error (.circular key) := by
  cases reached : (s.resolveWithin (s.depthBound value) [] value).run with
  | none => exact absurd reached (s.resolveWithin_depthBound [] value)
  | some outcome =>
      rcases circles _ outcome reached with ⟨key, rfl⟩
      exact ⟨key, s.resolve_eq_of_finished reached⟩

/-- What an error of resolving a value claims is so.  A key that is reported as not
resolvable names no property.  One that is reported as circular names a property, whose
value is circular when it is resolved on its own.  A text that is reported as not closed
is the value or the whole value of a property, and opens a placeholder without closing
it. -/
def Genuine (value : String) : PlaceholderError → Prop
  | .unresolvable key _ => ∀ p, ¬ s.Names key p
  | .circular key => ∃ p, s.Names key p ∧ ∃ again, s.resolve p.value = .error (.circular again)
  | .unclosed whole =>
    (whole = value ∨ ∃ p ∈ s.effective, p.value = whole) ∧ LeavesOpen whole.toList

/-- Every error of resolving is genuine, however far behind the value it arises. -/
theorem resolve_error_genuine {e : PlaceholderError} (failed : s.resolve value = .error e) :
    s.Genuine value e := by
  have reports := s.resolveWithin_reports (s.exists_of_resolve_eq_error failed)
  cases e with
  | unresolvable key whole =>
      intro p names
      have named := (valueOf?_of_names names).symm.trans reports
      cases named
  | circular key =>
      rcases reports with met | ⟨raw, depth, before, named, circular⟩
      · cases met
      · rcases exists_names_of_valueOf? named with ⟨p, names, rfl⟩
        exact ⟨p, names, s.resolve_of_circles (s.circles_of_circular named circular)⟩
  | unclosed whole => exact reports

/-- Behind a reference: a key that is put together and names nothing, a circle that is
entered from outside and closed under another spelling, and a value that breaks off, in a
fallback's key. -/
theorem resolve_error_genuine_behind :
    let s := Store.empty.push "test" [⟨Name.root.child "in", "$\x7bfirst\x7d", ⟨"test", "in"⟩⟩,
      ⟨Name.root.child "first", "$\x7bsecond\x7d", ⟨"test", "first"⟩⟩,
      ⟨Name.root.child "second", "$\x7b FIRST\x7d", ⟨"test", "second"⟩⟩,
      ⟨Name.root.child "open", "$$ $\x7bfirst", ⟨"test", "open"⟩⟩]
    s.Genuine "$\x7bno$\x7bx:ne\x7d\x7d" (.unresolvable "none" "$\x7bno$\x7bx:ne\x7d\x7d") ∧
      s.Genuine "$\x7bin\x7d" (.circular "second") ∧
      s.Genuine "$\x7bx:$\x7b$\x7bopen\x7d\x7d\x7d" (.unclosed "$$ $\x7bfirst") := by
  intro s
  exact ⟨s.resolve_error_genuine (by decide +kernel), s.resolve_error_genuine (by decide +kernel),
    s.resolve_error_genuine (by decide +kernel)⟩

end Store
end PropertyBinding
