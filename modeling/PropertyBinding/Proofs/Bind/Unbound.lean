import PropertyBinding.Proofs.Bind.Blame
import PropertyBinding.Proofs.Bind.Used

/-!
# What a strict handler adds

A chain of handlers rejects leftovers once there is a link in it that does so.  Such a link
knows the root by its depth, and it knows what is left over by what has been used so far.
All other questions it hands on.  So two runs, one with the link and one without, are the
same run until the root is finished: below the root there is no visit of its depth.

Only there do the answers differ, and by then all that the run is going to use has been
used.  What the link finds left are the effective properties below the root without those
that the run has used.
-/

namespace PropertyBinding

/-! ## Chains with and without a link that rejects leftovers -/

/-- Two handlers that differ in nothing but how nodes are finished. -/
structure Handler.SameButFinish (handler other : Handler) : Prop where
  start : handler.start = other.start
  success : handler.success = other.success
  failure : handler.failure = other.failure

namespace Provided

variable {links before after : List Provided} {parent other : Handler}

theorem over_sameButFinish (link : Provided) (same : parent.SameButFinish other) :
    (link.over parent).SameButFinish (link.over other) := by
  rcases same with ⟨start, success, failure⟩
  cases link with
  | ignoreNested =>
      exact ⟨by simp only [Provided.over, Handler.ignoreNested, start], success, failure⟩
  | noUnbound => exact ⟨start, success, failure⟩
  | tracing =>
      exact ⟨by simp only [Provided.over, Handler.tracing, start],
        by simp only [Provided.over, Handler.tracing, success],
        by simp only [Provided.over, Handler.tracing, failure]⟩

/-- A link that rejects leftovers changes nothing before a node is finished. -/
theorem chain_noUnbound_sameButFinish (before after : List Provided) :
    (chain (before ++ .noUnbound :: after)).SameButFinish (chain (before ++ after)) := by
  induction before with
  | nil => exact ⟨rfl, rfl, rfl⟩
  | cons link rest inductionHypothesis => exact link.over_sameButFinish inductionHypothesis

/-- Links other than those that reject leftovers finish a node as the handlers behind them. -/
theorem finish_over {link : Provided} (other : link ≠ .noUnbound) (parent : Handler) :
    (link.over parent).finish = parent.finish := by
  cases link with
  | ignoreNested => rfl
  | noUnbound => exact absurd rfl other
  | tracing => rfl

/-- A chain rejects leftovers if one of its links does. -/
theorem finish_chain_eq (links : List Provided) :
    (chain links).finish =
      if .noUnbound ∈ links then (Handler.noUnbound .accepting).finish
      else Handler.accepting.finish := by
  induction links with
  | nil => rfl
  | cons link rest inductionHypothesis =>
      by_cases strict : link = .noUnbound
      · subst strict
        rw [if_pos List.mem_cons_self]
        funext sources visit
        simp only [chain, List.foldr_cons, Provided.over, Handler.noUnbound]
        -- What the first link has not found left over, the others do not find either.
        generalize left : (if visit.depth = 0 then Handler.unused sources visit else []) = unused
        cases unused with
        | cons p more => rfl
        | nil =>
            refine (congrFun (congrFun inductionHypothesis sources) visit).trans ?_
            split
            · simp only [Handler.noUnbound, left]
            · rfl
      · have member : Provided.noUnbound ∈ link :: rest ↔ Provided.noUnbound ∈ rest := by
          rw [List.mem_cons, or_iff_right (Ne.symm strict)]
        refine (finish_over strict _).trans (inductionHypothesis.trans ?_)
        simp only [member]

/-- A chain limits the depth if one of its links does. -/
theorem start_chain (links : List Provided) (sources : Store) (visit : Visit) :
    ((chain links).start sources visit).value =
      !(decide (.ignoreNested ∈ links) && decide (1 < visit.depth)) := by
  induction links with
  | nil => rfl
  | cons link rest inductionHypothesis =>
      cases link with
      | ignoreNested =>
          by_cases deep : 1 < visit.depth
          · simp [chain, Provided.over, Handler.ignoreNested, deep]
          · have passed : ((chain (.ignoreNested :: rest)).start sources visit) =
              (chain rest).start sources visit := if_neg deep
            rw [passed, inductionHypothesis]
            simp [deep]
      | noUnbound =>
          have passed : (chain (.noUnbound :: rest)).start = (chain rest).start := rfl
          rw [passed, inductionHypothesis]
          simp
      | tracing =>
          have passed : ((chain (.tracing :: rest)).start sources visit).value =
            ((chain rest).start sources visit).value := rfl
          rw [passed, inductionHypothesis]
          simp

/-- The root is accepted by every chain. -/
theorem start_chain_of_root (links : List Provided) (sources : Store) {visit : Visit}
    (atRoot : visit.depth = 0) : ((chain links).start sources visit).value = true := by
  rw [start_chain, atRoot]
  simp

end Provided

/-- A handler that does as another but rejects leftovers, where the other accepts every node
and leaves errors as they are. -/
structure Handler.StrictOver (strict plain : Handler) : Prop extends
    strict.SameButFinish plain where
  candid : plain.Candid
  accepts : plain.finish = fun _ _ => ⟨.ok (), []⟩
  rejects : strict.finish = (Handler.noUnbound .accepting).finish

theorem Provided.chain_strictOver {before after : List Provided}
    (absent : .noUnbound ∉ before ++ after) :
    (chain (before ++ .noUnbound :: after)).StrictOver (chain (before ++ after)) where
  toSameButFinish := chain_noUnbound_sameButFinish before after
  candid := chain_candid _
  accepts := (finish_chain_eq _).trans (if_neg absent)
  rejects := (finish_chain_eq _).trans (if_pos (List.mem_append_right _ List.mem_cons_self))

/-! ## The same run below the root -/

section

variable {strict plain : Handler} {s : Store} {type : String} {name : Name} {slot : Slot} {α : Type}

namespace Session

theorem offer_congr (same : strict.SameButFinish plain) :
    (Session.mk s strict type).offer name slot = (Session.mk s plain type).offer name slot := by
  funext run
  simp only [offer, same.start]

theorem succeed_congr (same : strict.SameButFinish plain) :
    (Session.mk s strict type).succeed name slot = (Session.mk s plain type).succeed name slot := by
  funext run
  simp only [succeed, same.success]

theorem refuse_congr (same : strict.SameButFinish plain) (e : BindError) :
    (Session.mk s strict type).refuse (α := α) name slot e =
      (Session.mk s plain type).refuse name slot e := by
  funext run
  simp only [refuse, same.failure]

/-- Sessions over the same sources agree as soon as their handlers answer alike. -/
theorem Alike.agrees {γ : Type} {view : Event → Option γ} {low : Nat} {S T : Session}
    (alike : S.Alike view (fun _ => True) T low) (same : S.sources = T.sources) :
    S.Agrees view low (fun _ => True) (fun a b => a = b ∧ a.Draws S.sources) True True T where
  toAlike := alike
  near_child := fun _ _ => trivial
  get? := by
    rintro _ _ _ ⟨rfl, _⟩ _
    rfl
  resolve := by
    intro _ _ _ _ _ _ _
    rw [same]
  contains := by
    rintro _ _ _ ⟨rfl, _⟩ _
    rfl
  size_le := by
    rintro _ _ n ⟨rfl, draws⟩ _ holds
    have short := Store.size_le_height_of_contains (draws.contains holds)
    exact ⟨short, same ▸ short⟩
  children := by
    rintro _ _ _ _ ⟨rfl, _⟩ _
    rfl
  below := by
    rintro _ _ _ _ ⟨rfl, _⟩ _
    rfl
  sourceOf? := by
    rintro _ a _ n ⟨rfl, draws⟩ _
    cases found : a.sourceOf? n with
    | none => exact .none
    | some source => exact .some ⟨⟨rfl, draws.sourceOf? found⟩, fun _ => rfl⟩

end Session

namespace Handler.StrictOver

/-- Leftovers are looked for at the root only. -/
theorem finish_eq (tightens : strict.StrictOver plain) (sources : Store) {visit : Visit}
    (below : 1 ≤ visit.depth) : strict.finish sources visit = plain.finish sources visit := by
  rw [tightens.rejects, tightens.accepts]
  simp only [noUnbound, if_neg (Nat.ne_of_gt below)]
  rfl

theorem alike (tightens : strict.StrictOver plain) (s : Store) (type : String) :
    Session.Alike some (fun _ => True) ⟨s, strict, type⟩ ⟨s, plain, type⟩ 1 where
  rootType := rfl
  started := fun visit _ _ => .of_eq (by rw [tightens.start])
  succeeded := fun visit _ _ => by rw [tightens.success]
  failed := fun visit e _ _ => .of_eq (by rw [tightens.failure])
  finished := fun visit below _ => .of_eq (tightens.finish_eq s below)

/-- Binding a target to a root goes the same way until the root is to be closed. -/
theorem readWithin_eq {ρ : Type} (tightens : strict.StrictOver plain) (type : String)
    (declarations : Declarations ρ) (target : Target ρ) (holds : s.contains name = true) (run : Run)
    (inScope : run.scope = s) :
    (Session.mk s strict type).readWithin declarations (s.height + 1) target name run =
      (Session.mk s plain type).readWithin declarations (s.height + 1) target name run := by
  have agrees := (tightens.alike s type).agrees rfl
  exact (agrees.readToHeight ⟨rfl, .refl s⟩ trivial target holds fun u _ => u.asks_true).eq
    (Nat.zero_le _) inScope

end Handler.StrictOver

end

/-! ## Closing the root -/

/-- The properties below a name of which none with the same name has been used. -/
def Store.leftover (s : Store) (root : Name) (bound : List Property) : List Property :=
  (s.below root).filter fun p => !bound.any fun used => used.name.Same p.name

/-- How a run that rejects leftovers ends, given how one ends that does not. -/
inductive Tightened {α : Type} (s : Store) (root : Name) (type : String) :
    Except BindError α × Run → Except BindError α × Run → Prop
  | failed (e : BindError) (after : Run) : Tightened s root type (.error e, after) (.error e, after)
  | nothingLeft (a : α) {after : Run} (nothing : s.leftover root after.bound = []) :
      Tightened s root type (.ok a, after) (.ok a, after)
  | rejected (a : α) {after rejecting : Run} (bound : rejecting.bound = after.bound)
      (left : s.leftover root after.bound ≠ []) :
      Tightened s root type (.ok a, after)
        (.error (.here root type none (.unbound (s.leftover root after.bound))), rejecting)

section

variable {strict plain : Handler} {s : Store} {root : Name} {type : String} {slot : Slot}
  {α β : Type} {ended endedStrictly : Except BindError α × Run}

namespace Tightened

theorem outcome (tightened : Tightened s root type ended endedStrictly) :
    (∀ e, ended.1 = .error e → endedStrictly.1 = .error e) ∧
      ∀ a, ended.1 = .ok a →
        (s.leftover root ended.2.bound = [] → endedStrictly.1 = .ok a) ∧
        (s.leftover root ended.2.bound ≠ [] → endedStrictly.1 =
          .error (.here root type none (.unbound (s.leftover root ended.2.bound)))) := by
  cases tightened with
  | failed e after =>
      exact ⟨fun _ same => same, fun _ impossible => by cases impossible⟩
  | nothingLeft a nothing =>
      exact ⟨fun _ same => same, fun _ same => ⟨fun _ => same, fun left => absurd nothing left⟩⟩
  | rejected a bound left =>
      refine ⟨fun _ impossible => ?_, fun _ _ => ⟨fun nothing => absurd nothing left, fun _ => rfl⟩⟩
      cases impossible

/-- Going on with steps that succeed and use nothing. -/
theorem bind {step stricter : Binding α} {next : α → Binding β} {run : Run}
    (tightened : Tightened s root type (step run) (stricter run))
    (passes : ∀ a run, ∃ b after, next a run = (.ok b, after) ∧ after.bound = run.bound) :
    Tightened s root type ((step >>= next) run) ((stricter >>= next) run) := by
  rcases ran : step run with ⟨outcome, after⟩
  rcases ranToo : stricter run with ⟨strictOutcome, strictAfter⟩
  rw [ran, ranToo] at tightened
  cases tightened with
  | failed e =>
      rw [Binding.bind_of_error ran, Binding.bind_of_error ranToo]
      exact .failed e after
  | nothingLeft a nothing =>
      rw [Binding.bind_of_ok ran, Binding.bind_of_ok ranToo]
      rcases passes a after with ⟨b, last, passed, bound⟩
      rw [passed]
      exact .nothingLeft b (bound ▸ nothing)
  | rejected a bound left =>
      rw [Binding.bind_of_ok ran, Binding.bind_of_error ranToo]
      rcases passes a after with ⟨b, last, passed, kept⟩
      rw [passed, ← kept]
      exact .rejected b (bound.trans kept.symm) (kept ▸ left)

theorem forTarget {step stricter : Binding α} {run : Run}
    (tightened : Tightened s root type (step run) (stricter run)) :
    Tightened s root type (Binding.forTarget type step run)
      (Binding.forTarget type stricter run) := by
  unfold Binding.forTarget
  generalize step run = ended at tightened
  generalize stricter run = endedStrictly at tightened
  cases tightened with
  | failed e after => exact .failed _ after
  | nothingLeft a nothing => exact .nothingLeft a nothing
  | @rejected a after _ bound left =>
      have named : (BindError.here root type none
          (.unbound (s.leftover root after.bound))).withTarget type =
            .here root type none (.unbound (s.leftover root after.bound)) := by
        unfold BindError.withTarget
        split <;> rfl
      dsimp only
      rw [named]
      exact .rejected a bound left

theorem map (tightened : Tightened s root type ended endedStrictly) (f : α → β) :
    Tightened s root type (ended.1.map f, ended.2) (endedStrictly.1.map f, endedStrictly.2) := by
  cases tightened with
  | failed e after => exact .failed e after
  | nothingLeft a nothing => exact .nothingLeft (f a) nothing
  | rejected a bound left => exact .rejected (f a) bound left

theorem leave (tightened : Tightened s root type ended endedStrictly) :
    Tightened s root type (ended.1, ended.2.leave) (endedStrictly.1, endedStrictly.2.leave) := by
  cases tightened with
  | failed e after => exact .failed e after.leave
  | nothingLeft a nothing => exact .nothingLeft a nothing
  | @rejected a after rejecting bound left =>
      exact @rejected _ _ _ _ a after.leave rejecting.leave bound left

end Tightened

namespace Handler.StrictOver

/-- At the root a strict handler rejects what is left over. -/
theorem finish_root (tightens : strict.StrictOver plain) {run : Run} (atRoot : run.depth = 0) :
    strict.finish s (run.visit type root slot) =
      if s.leftover root run.bound = [] then ⟨.ok (), []⟩
      else ⟨.error (.here root type none (.unbound (s.leftover root run.bound))), []⟩ := by
  let visit := run.visit type root slot
  have unused : (if visit.depth = 0 then unused s visit else []) = s.leftover root run.bound :=
    if_pos atRoot
  rw [tightens.rejects]
  simp only [noUnbound, visit, unused, List.isEmpty_iff]
  rfl

/-- Where the root is finished the two runs part, if they do. -/
theorem finish_tightened (tightens : strict.StrictOver plain) {run : Run} (atRoot : run.depth = 0) :
    let S := Session.mk s plain type
    let T := Session.mk s strict type
    Tightened s root type (S.guarded root slot (S.finish root slot) run)
      (T.guarded root slot (T.finish root slot) run) := by
  intro S T
  have accepted : S.guarded root slot (S.finish root slot) run =
      (.ok (), run.noted (run.visit type root slot) (.finish (.ok ())) []) := by
    simp only [Session.guarded, Session.finish, S, tightens.accepts]
  have answer : strict.finish s (run.visit type root slot) = _ := tightens.finish_root atRoot
  rw [accepted]
  by_cases nothing : s.leftover root run.bound = []
  · rw [if_pos nothing] at answer
    simp only [Session.guarded, Session.finish, T, answer]
    exact .nothingLeft () nothing
  · rw [if_neg nothing] at answer
    simp only [Session.guarded, Session.finish, T, answer, Session.refuse, tightens.failure,
      tightens.candid.failure]
    exact .rejected () rfl nothing

/-- The root is bound in the same way, and closed more strictly. -/
theorem descend_tightened (tightens : strict.StrictOver plain) {body strictBody : Binding α}
    {run : Run} (restores : body.Restores)
    (same : strictBody (run.enter root) = body (run.enter root)) (atRoot : run.depth = 0) :
    Tightened s root type ((Session.mk s plain type).descend root slot body run)
      ((Session.mk s strict type).descend root slot strictBody run) := by
  let S := Session.mk s plain type
  let T := Session.mk s strict type
  suffices closed : Tightened s root type
      (S.guarded root slot (S.closed root slot body) (run.enter root))
      (T.guarded root slot (T.closed root slot strictBody) (run.enter root)) from closed.leave
  have depth := (restores (run.enter root)).1
  rcases ran : body (run.enter root) with ⟨outcome, middle⟩
  rw [ran] at depth
  have ranToo := same.trans ran
  cases outcome with
  | error e =>
      rw [S.guarded_of_failed _ _ ran, T.guarded_of_failed _ _ ranToo,
        Session.refuse_congr tightens.toSameButFinish]
      exact .failed _ _
  | ok a =>
      rw [S.guarded_of_bound _ _ ran, T.guarded_of_bound _ _ ranToo,
        Session.succeed_congr tightens.toSameButFinish]
      have told : (S.succeed root slot middle).2.depth = 0 := depth.trans atRoot
      exact (tightens.finish_tightened told).map fun _ => a

end Handler.StrictOver

end

/-! ## Whole runs -/

theorem Store.leftover_eq {s : Store} {bound : List Property}
    (effective : ∀ p ∈ bound, s.get? p.name = some p) (root : Name) :
    s.leftover root bound =
      s.effective.filter fun p => decide (root.IsAncestorOf p.name ∧ p ∉ bound) := by
  rw [leftover, below_eq_filter, List.filter_filter]
  refine List.filter_congr fun p listed => ?_
  have there : s.get? p.name = some p := mem_effective.mp listed
  have used : (bound.any fun q => decide (q.name.Same p.name)) = true ↔ p ∈ bound := by
    rw [List.any_eq_true]
    constructor
    · rintro ⟨q, member, same⟩
      have found := effective q member
      rw [s.get?_congr (of_decide_eq_true same), there] at found
      cases found
      exact member
    · exact fun member => ⟨p, member, decide_eq_true (Name.same_refl p.name)⟩
  rw [Bool.eq_iff_iff, Bool.and_eq_true, Bool.not_eq_true', ← Bool.not_eq_true, used,
    decide_eq_true_iff, decide_eq_true_iff]
  exact And.comm

namespace Binder

variable {ρ : Type} {strict plain : Handler}

theorem bindAccepted_tightened (tightens : strict.StrictOver plain) (s : Store)
    (declarations : Declarations ρ) (target : Target ρ) (root : Name) (slot : Slot) {run : Run}
    (atRoot : run.depth = 0) (inScope : run.scope = s) :
    Tightened s root (target.label declarations)
      ((Binder.mk s plain declarations).bindAccepted target root slot run)
      ((Binder.mk s strict declarations).bindAccepted target root slot run) := by
  unfold bindAccepted
  by_cases there : s.contains root = true
  · rw [if_pos there, if_pos there]
    have same := tightens.readWithin_eq (target.label declarations) declarations target there
      (run.enter root) inScope
    have restores := (Session.mk s plain (target.label declarations)).readWithin_restores
      declarations (s.height + 1) target root
    exact (tightens.descend_tightened restores same atRoot).bind
      fun a after => ⟨some a, after, rfl, rfl⟩
  · rw [if_neg there, if_neg there]
    exact (tightens.finish_tightened atRoot).bind fun _ after => ⟨none, after, rfl, rfl⟩

theorem bindRoot_tightened (tightens : strict.StrictOver plain)
    (accepts : ∀ sources visit, visit.depth = 0 → (plain.start sources visit).value = true)
    (s : Store) (declarations : Declarations ρ) (target : Target ρ) (root : Name)
    (existing : Bool) :
    Tightened s root (target.label declarations)
      ((Binder.mk s plain declarations).bindRoot target root existing (Run.initial s))
      ((Binder.mk s strict declarations).bindRoot target root existing (Run.initial s)) := by
  let type := target.label declarations
  let S := Session.mk s plain type
  let T := Session.mk s strict type
  let slot := Slot.root type existing
  let first : Run := ⟨0, [], s, [], [.log ⟨.debug, "binding",
    [("name", .text (toString root)), ("target", .text type)]⟩]⟩
  let visit := first.visit type root slot
  let middle := first.noted visit (.start true) (plain.start s visit).notes
  have offered : S.offer root slot first = (.ok true, middle) := by
    have answer : (plain.start s (first.visit type root slot)).value = true := accepts s _ rfl
    simp only [Session.offer, S, answer, if_true]
    rfl
  have offeredToo : T.offer root slot first = (.ok true, middle) := by
    rw [Session.offer_congr tightens.toSameButFinish]
    exact offered
  have ran : (Binder.mk s plain declarations).bindRoot target root existing (Run.initial s) =
      (Binder.mk s plain declarations).bindOffered target root slot middle :=
    Binding.bind_of_ok offered
  have ranToo : (Binder.mk s strict declarations).bindRoot target root existing (Run.initial s) =
      (Binder.mk s strict declarations).bindOffered target root slot middle :=
    Binding.bind_of_ok offeredToo
  rw [ran, ranToo]
  exact (bindAccepted_tightened tightens s declarations target root slot rfl rfl).forTarget.bind
    fun value after => ⟨value, _, rfl, rfl⟩

/-- Binding with a link that rejects leftovers, anywhere in a chain of other links, fails as
binding without it fails, and comes to the same when nothing is left over.  Otherwise it
fails at the root, for the target of the root, and lists what is left over: the effective
properties below the root that have not been used, in the order of their names. -/
theorem bindAt_noUnbound {before after : List Provided} (absent : .noUnbound ∉ before ++ after)
    (s : Store) (declarations : Declarations ρ) (target : Target ρ) (root : Name)
    (existing : Bool) :
    let links := Provided.chain (before ++ after)
    let stricter := Provided.chain (before ++ .noUnbound :: after)
    let outcome := (Binder.mk s links declarations).bindAt target root existing
    let strictOutcome := (Binder.mk s stricter declarations).bindAt target root existing
    let left := s.effective.filter fun p => decide (root.IsAncestorOf p.name ∧ p ∉ outcome.bound)
    (∀ e, outcome.result = .error e → strictOutcome.result = .error e) ∧
      (∀ value, outcome.result = .ok value →
        (left = [] → strictOutcome.result = .ok value) ∧
        (left ≠ [] → strictOutcome.result =
          .error (.here root (target.label declarations) none (.unbound left)))) ∧
      (∀ p, p ∈ left ↔
        s.get? p.name = some p ∧ root.IsAncestorOf p.name ∧ p ∉ outcome.bound) ∧
      left.Pairwise fun p q => p.name < q.name := by
  intro links stricter outcome strictOutcome left
  have tightens : stricter.StrictOver links := Provided.chain_strictOver absent
  have tightened := bindRoot_tightened tightens (fun _ _ => Provided.start_chain_of_root _ _) s
    declarations target root existing
  have same : s.leftover root outcome.bound = left :=
    Store.leftover_eq (fun p used => (effective_of_mem_bound used).1) root
  have ended : (∀ e, outcome.result = .error e → strictOutcome.result = .error e) ∧
      ∀ value, outcome.result = .ok value →
        (s.leftover root outcome.bound = [] → strictOutcome.result = .ok value) ∧
        (s.leftover root outcome.bound ≠ [] → strictOutcome.result =
          .error (.here root (target.label declarations) none
            (.unbound (s.leftover root outcome.bound)))) :=
    tightened.outcome
  rw [same] at ended
  refine ⟨ended.1, ended.2, fun p => ?_, s.sorted_effective.filter _⟩
  rw [List.mem_filter, decide_eq_true_iff, Store.mem_effective]

/-- A service with a misspelled property, which is left over. -/
theorem bindAt_noUnbound_service :
    let service := Name.root.child "service"
    let port := Property.mk (service.child "port") "80" ⟨"file", "service.port"⟩
    let prot := Property.mk (service.child "prot") "81" ⟨"file", "service.prot"⟩
    let s := Store.empty.push "file" [port, prot]
    let declarations : Declarations Unit := ⟨fun _ => ⟨"app::Service", "Service",
      [⟨"port", "port", ["port"], .whole ⟨false, 16⟩, .missing⟩]⟩, fun _ => .unit⟩
    let plain := Provided.chain ([.tracing] ++ [.ignoreNested])
    let strict := Provided.chain ([.tracing] ++ .noUnbound :: [.ignoreNested])
    ((Binder.mk s plain declarations).bindAt (.record ()) service false).result.isOk = true ∧
      ((Binder.mk s strict declarations).bindAt (.record ()) service false).result =
        .error (.here service "app::Service" none (.unbound [prot])) := by
  intro service port prot s declarations plain strict
  have bound : ((Binder.mk s plain declarations).bindAt (.record ()) service false).result.isOk =
      true := by
    decide +kernel
  have left : (s.effective.filter fun p => decide (service.IsAncestorOf p.name ∧
      p ∉ ((Binder.mk s plain declarations).bindAt (.record ()) service false).bound)) =
        [prot] := by
    decide +kernel
  have absent : Provided.noUnbound ∉ [.tracing] ++ [.ignoreNested] := by decide
  have strictly := bindAt_noUnbound absent s declarations (.record ()) service false
  refine ⟨bound, ?_⟩
  cases ended : ((Binder.mk s plain declarations).bindAt (.record ()) service false).result with
  | error e =>
      rw [ended] at bound
      cases bound
  | ok value =>
      have rejected := (strictly.2.1 value ended).2
      rw [left] at rejected
      exact rejected (List.cons_ne_nil _ _)

end Binder

end PropertyBinding
