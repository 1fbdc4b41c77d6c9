import PropertyBinding.Proofs.Placeholder.Termination

/-!
# Resolving with one list of keys

The resolver hands the keys being followed down to each call, so that there is
nothing to put back.  Here all calls share one list instead.  A key is put in front
of the list before its value is resolved and taken off afterwards, whatever the
outcome, and every call counts: that on a key, that on a fallback and that on the
value behind a reference.

Both ways come to the same.  The shared list never holds a key twice, each call
leaves it as it found it, and calls nest no more deeply than `callBound` says.  Of
the two factors of this bound one is for the references on the way and the other
for the keys and fallbacks inside one value, each of which is shorter than what it
stands in.
-/

namespace PropertyBinding

/-- The keys being followed, innermost first, and all that they have been so far. -/
structure Visiting where
  keys : List String
  past : List (List String)

namespace Visiting

/-- Begin to follow a key. -/
def push (v : Visiting) (key : String) : Visiting :=
  ⟨key :: v.keys, v.past ++ [key :: v.keys]⟩

/-- Leave the key that was followed last. -/
def pop (v : Visiting) : Visiting :=
  ⟨v.keys.tail, v.past ++ [v.keys.tail]⟩

end Visiting

/-- A step of resolving with a shared list.  There is no outcome when calls nest more
deeply than they may. -/
def Shared (α : Type) :=
  Visiting → Option (Except PlaceholderError α × Visiting)

namespace Shared

variable {α β : Type}

/-- The step that does nothing. -/
def pure (a : α) : Shared α := fun v => some (.ok a, v)

/-- One step after another.  The second is not made if the first fails. -/
def bind (step : Shared α) (next : α → Shared β) : Shared β := fun v =>
  match step v with
  | some (.ok a, v) => next a v
  | some (.error e, v) => some (.error e, v)
  | none => none

instance : Monad Shared where
  pure := pure
  bind := bind

theorem bind_of_ok {step : Shared α} {next : α → Shared β} {v after : Visiting} {a : α}
    (ran : step v = some (.ok a, after)) : (step >>= next) v = next a after := by
  change bind step next v = next a after
  simp only [bind, ran]

theorem bind_of_error {step : Shared α} {next : α → Shared β} {v after : Visiting}
    {e : PlaceholderError} (ran : step v = some (.error e, after)) :
    (step >>= next) v = some (.error e, after) := by
  change bind step next v = some (.error e, after)
  simp only [bind, ran]

/-- The step that fails. -/
def fail (e : PlaceholderError) : Shared α := fun v => some (.error e, v)

/-- Make a step while a key is being followed. -/
def following (key : String) (step : Shared α) : Shared α := fun v =>
  (step (v.push key)).map fun (outcome, after) => (outcome, after.pop)

/-- The value of a reference whose key has been found. -/
def refer (lookup : String → Option String) (call : Template → Shared (List Char))
    (key : String) (absent : Unit → Shared (List Char)) : Shared (List Char) := fun v =>
  if key ∈ v.keys then some (.error (.circular key), v)
  else
    match lookup key with
    | some value => following key (call (Template.ofText value)) v
    | none => absent () v

/-- Expand a template that is a part of `whole`, with a call for each key and each
fallback. -/
def expand (lookup : String → Option String) (call : Template → Shared (List Char))
    (whole : Template) : Template → Shared (List Char)
  | .done => return []
  | .literal c rest => do
    let after ← expand lookup call whole rest
    return c :: after
  | .escaped rest => do
    let after ← expand lookup call whole rest
    return '$' :: after
  | .reference key rest => do
    let key := String.ofList (← call key)
    let value ← refer lookup call key fun _ => fail (.unresolvable key whole.text)
    let after ← expand lookup call whole rest
    return value ++ after
  | .referenceOr key fallback rest => do
    let key := String.ofList (← call key)
    let value ← refer lookup call key fun _ => call fallback
    let after ← expand lookup call whole rest
    return value ++ after
  | .unclosed _ => fail (.unclosed whole.text)

/-- From any list of keys the step has one outcome.  It leaves the list as it was, and
no list on the way holds a key twice. -/
def Settles (step : Shared α) (keys : List String) (outcome : Except PlaceholderError α) : Prop :=
  ∀ past, ∃ added, step ⟨keys, past⟩ = some (outcome, ⟨keys, past ++ added⟩) ∧
    (keys.Nodup → ∀ list ∈ added, list.Nodup)

/-- The step settles for each outcome of a resolution. -/
def Follows (step : Shared α) (resolution : Resolution α) (keys : List String) : Prop :=
  ∀ outcome, resolution.run = some outcome → step.Settles keys outcome

theorem settles_of_unchanged {step : Shared α} {keys : List String}
    {outcome : Except PlaceholderError α} (unchanged : ∀ v, step v = some (outcome, v)) :
    step.Settles keys outcome := by
  intro past
  refine ⟨[], ?_, fun _ list impossible => absurd impossible List.not_mem_nil⟩
  rw [unchanged, List.append_nil]

theorem pure_follows (a : α) (keys : List String) :
    (Pure.pure a : Shared α).Follows (Pure.pure a) keys := by
  intro outcome finished
  cases finished
  exact settles_of_unchanged fun _ => rfl

theorem fail_follows (e : PlaceholderError) (keys : List String) :
    (fail e : Shared α).Follows (throw e) keys := by
  intro outcome finished
  cases finished
  exact settles_of_unchanged fun _ => rfl

theorem Settles.bind {step : Shared α} {next : α → Shared β} {keys : List String} {a : α}
    {outcome : Except PlaceholderError β} (first : step.Settles keys (.ok a))
    (second : (next a).Settles keys outcome) : (step >>= next).Settles keys outcome := by
  intro past
  rcases first past with ⟨early, ran, distinct⟩
  rcases second (past ++ early) with ⟨late, ranNext, distinctNext⟩
  refine ⟨early ++ late, ?_, fun nodup list member => ?_⟩
  · rw [bind_of_ok ran, ranNext, List.append_assoc]
  · rcases List.mem_append.mp member with before | behind
    · exact distinct nodup list before
    · exact distinctNext nodup list behind

theorem Settles.bind_error {step : Shared α} {next : α → Shared β} {keys : List String}
    {e : PlaceholderError} (failed : step.Settles keys (.error e)) :
    (step >>= next).Settles keys (.error e) := by
  intro past
  rcases failed past with ⟨added, ran, distinct⟩
  exact ⟨added, bind_of_error ran, distinct⟩

theorem Follows.bind {step : Shared α} {next : α → Shared β} {keys : List String}
    {resolution : Resolution α} {continued : α → Resolution β}
    (first : step.Follows resolution keys)
    (second : ∀ a, (next a).Follows (continued a) keys) :
    (step >>= next).Follows (resolution >>= continued) keys := by
  intro outcome finished
  rw [ExceptT.run_bind] at finished
  cases inner : resolution.run with
  | none => simp [inner] at finished
  | some result =>
      rw [inner] at finished
      cases result with
      | error e =>
          cases finished
          exact (first _ inner).bind_error
      | ok a => exact (first _ inner).bind (second a outcome finished)

/-- Following a key that is not in the list yet puts the list back. -/
theorem Settles.following {step : Shared α} {keys : List String} {key : String}
    {outcome : Except PlaceholderError α} (settles : step.Settles (key :: keys) outcome)
    (new : key ∉ keys) : (following key step).Settles keys outcome := by
  intro past
  rcases settles (past ++ [key :: keys]) with ⟨added, ran, distinct⟩
  refine ⟨[key :: keys] ++ added ++ [keys], ?_, fun nodup list member => ?_⟩
  · simp only [Shared.following, Visiting.push, ran, Option.map_some, Visiting.pop,
      List.tail_cons, List.append_assoc]
  · have nodupMore : (key :: keys).Nodup := List.nodup_cons.mpr ⟨new, nodup⟩
    rcases List.mem_append.mp member with earlier | last
    · rcases List.mem_append.mp earlier with first | inner
      · rw [List.mem_singleton.mp first]
        exact nodupMore
      · exact distinct nodupMore list inner
    · rw [List.mem_singleton.mp last]
      exact nodup

theorem refer_follows {lookup : String → Option String} {call : Template → Shared (List Char)}
    {follow : String → String → Resolution (List Char)} {keys : List String} {key : String}
    {absent : Unit → Shared (List Char)} {missing : Unit → Resolution (List Char)}
    (called : ∀ value, lookup key = some value → key ∉ keys →
      (call (Template.ofText value)).Follows (follow key value) (key :: keys))
    (absentToo : (absent ()).Follows (missing ()) keys) :
    (refer lookup call key absent).Follows (Template.referred lookup follow keys key missing)
      keys := by
  intro outcome finished past
  unfold Template.referred at finished
  unfold refer
  by_cases met : key ∈ keys
  · rw [if_pos met] at finished
    cases finished
    exact ⟨[], by rw [if_pos met, List.append_nil], fun _ list impossible =>
      absurd impossible List.not_mem_nil⟩
  · rw [if_neg met] at finished
    rw [if_neg met]
    cases named : lookup key with
    | some value =>
        have settles := called value named met outcome (by simpa [named] using finished)
        exact settles.following met past
    | none => exact absentToo outcome (by simpa [named] using finished) past

/-- Expanding with calls follows the expansion, if the calls do. -/
theorem expand_follows {lookup : String → Option String} {call : Template → Shared (List Char)}
    {follow : String → String → Resolution (List Char)} {keys : List String} {size : Nat}
    (called : ∀ t : Template, t.source.length < size →
      (call t).Follows (Template.expand lookup follow keys t t) keys)
    (calledBehind : ∀ key value, lookup key = some value → key ∉ keys →
      (call (Template.ofText value)).Follows (follow key value) (key :: keys))
    (whole t : Template) (within : t.source.length ≤ size) :
    (expand lookup call whole t).Follows (Template.expand lookup follow keys whole t) keys := by
  induction t generalizing whole with
  | done => exact pure_follows [] keys
  | literal c rest restFollows =>
      have shorter : rest.source.length ≤ size := Nat.le_of_succ_le within
      exact (restFollows whole shorter).bind fun after => pure_follows _ keys
  | escaped rest restFollows =>
      have shorter : rest.source.length ≤ size := Nat.le_of_succ_le (Nat.le_of_succ_le within)
      exact (restFollows whole shorter).bind fun after => pure_follows _ keys
  | reference key rest _ restFollows =>
      simp only [Template.source, List.length_cons, List.length_append] at within
      refine (called key (by omega)).bind fun found => ?_
      refine Follows.bind (refer_follows (calledBehind _) (fail_follows _ keys)) fun value => ?_
      exact (restFollows whole (by omega)).bind fun after => pure_follows _ keys
  | referenceOr key fallback rest _ _ restFollows =>
      simp only [Template.source, List.length_cons, List.length_append] at within
      refine (called key (by omega)).bind fun found => ?_
      refine Follows.bind (refer_follows (calledBehind _) (called fallback (by omega)))
        fun value => ?_
      exact (restFollows whole (by omega)).bind fun after => pure_follows _ keys
  | unclosed body => exact fail_follows _ keys

end Shared

namespace Store

open Shared

/-- Resolve a template with a shared list, where calls may nest to less than the given
depth. -/
def resolveShared (s : Store) : (calls : Nat) → Template → Shared (List Char)
  | 0, _ => fun _ => none
  | calls + 1, t => Shared.expand s.valueOf? (s.resolveShared calls) t t

/-- The number of characters of the longest value. -/
def longestValue (s : Store) : Nat :=
  s.properties.foldr (fun p longest => max p.value.length longest) 0

/-- The greatest depth to which calls nest when a value is resolved. -/
def callBound (s : Store) (value : String) : Nat :=
  s.depthBound value * (s.longestValue + 1) + value.length + 1

variable (s : Store)

theorem length_le_longestValue {p : Property} (listed : p ∈ s.properties) :
    p.value.length ≤ s.longestValue := by
  unfold longestValue
  generalize s.properties = properties at listed
  induction properties with
  | nil => cases listed
  | cons q rest inductionHypothesis =>
      rw [List.foldr_cons]
      rcases List.mem_cons.mp listed with rfl | later
      · exact Nat.le_max_left _ _
      · exact Nat.le_trans (inductionHypothesis later) (Nat.le_max_right _ _)

/-- A shared list comes to what handing down the keys comes to.  References may be
followed to less than `depth`, and each takes as many calls as the longest value has
characters, and one more. -/
theorem resolveShared_follows {depth calls : Nat} (keys : List String) (t : Template)
    (enough : depth * (s.longestValue + 1) + t.source.length < calls) :
    (s.resolveShared calls t).Follows
      (Template.expand s.valueOf? (fun key => s.resolveWithin depth (key :: keys)) keys t t)
      keys := by
  induction calls generalizing depth keys t with
  | zero => exact absurd enough (Nat.not_lt_zero _)
  | succ calls inductionHypothesis =>
      apply expand_follows _ _ t t (Nat.le_refl t.source.length)
      · intro inner shorter
        exact inductionHypothesis keys inner (by omega)
      · intro key value named new
        cases depth with
        | zero =>
            intro outcome impossible
            cases impossible
        | succ depth =>
            rcases s.exists_of_valueOf? named with ⟨p, listed, rfl⟩
            have bound := s.length_le_longestValue listed
            have length : (Template.ofText p.value).source.length = p.value.length := by
              rw [Template.ofText, Template.source_ofChars, String.length_toList]
            rw [Nat.succ_mul] at enough
            exact @inductionHypothesis depth (key :: keys) (Template.ofText p.value) (by omega)

/-- Resolving settles within the bound, from any keys. -/
theorem resolveShared_settles (value : String) (keys : List String) :
    ∃ outcome, (s.resolveWithin (s.depthBound value) keys value).run = some outcome ∧
      (s.resolveShared (s.callBound value) (Template.ofText value)).Settles keys outcome := by
  cases reached : (s.resolveWithin (s.depthBound value) keys value).run with
  | none => exact absurd reached (s.resolveWithin_depthBound keys value)
  | some outcome =>
      refine ⟨outcome, rfl, ?_⟩
      obtain ⟨depth, equal⟩ : ∃ depth, s.depthBound value = depth + 1 := ⟨_, rfl⟩
      have length : (Template.ofText value).source.length = value.length := by
        rw [Template.ofText, Template.source_ofChars, String.length_toList]
      apply @resolveShared_follows s depth _ keys (Template.ofText value)
      · rw [callBound, equal, Nat.succ_mul]
        omega
      · rw [equal] at reached
        exact reached

/-- Resolving a value always ends.  Calls nest at most as deeply as the bound that is
computed from the store and the value, in circles of whatever spelling, through keys
that are put together and through fallbacks.  From any keys being followed the list
of keys ends as it began and never holds a key twice, and from none the outcome is
the one that `resolve` gives. -/
theorem resolution_ends (value : String) :
    (∀ keys, ∃ outcome,
      (s.resolveShared (s.callBound value) (Template.ofText value)).Settles keys outcome) ∧
    ∃ outcome,
      (s.resolveShared (s.callBound value) (Template.ofText value)).Settles [] outcome ∧
        s.resolve value = outcome.map String.ofList := by
  constructor
  · intro keys
    rcases s.resolveShared_settles value keys with ⟨outcome, _, settles⟩
    exact ⟨outcome, settles⟩
  · rcases s.resolveShared_settles value [] with ⟨outcome, finished, settles⟩
    exact ⟨outcome, settles, s.resolve_eq_of_finished finished⟩

end Store
end PropertyBinding
