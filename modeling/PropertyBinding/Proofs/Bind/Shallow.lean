import PropertyBinding.Proofs.Bind.Chains
import PropertyBinding.Proofs.Bind.Invariants

/-!
# Limited depth

The link that limits the depth sees nothing of a node but how deep it lies.  It vetoes the
members of the members of the root, and since nothing is offered that does not belong to an
accepted node, nothing further down is ever reached.  What is used has the name of an
accepted node, so it stands at the root or at a member of it.
-/

namespace PropertyBinding

/-- A call that may be made under a limited depth: deeper than the members of the root there
is nothing but vetoes, and these go one level down. -/
def Call.Shallow (visit : Visit) (call : Call) : Prop :=
  visit.depth ≤ 2 ∧ (1 < visit.depth → call = .start false)

theorem Call.shallow_of_le {visit : Visit} (call : Call) (shallow : visit.depth ≤ 1) :
    call.Shallow visit :=
  ⟨Nat.le_succ_of_le shallow, fun deep => absurd deep (Nat.not_lt.mpr shallow)⟩

/-- All calls are shallow, and what has been used stands at the root or at its members. -/
structure StaysShallow (root : Name) (bound : List Property) (history : List Event) : Prop where
  calls : ∀ visit call, (visit, call) ∈ callsOf history → call.Shallow visit
  bound : ∀ p ∈ bound, root.Same p.name ∨ root.IsParentOf p.name

theorem StaysShallow.first (root : Name) : StaysShallow root [] [] :=
  ⟨fun _ _ impossible => by simp [callsOf] at impossible, fun _ impossible => by simp at impossible⟩

/-- A handler under which nothing is accepted beyond the members of the root. -/
def Handler.Limits (handler : Handler) : Prop :=
  ∀ sources visit, (handler.start sources visit).value = true → visit.depth ≤ 1

theorem Provided.chain_limits {links : List Provided} (limiting : .ignoreNested ∈ links) :
    (chain links).Limits := by
  intro sources visit proceed
  rw [start_chain, decide_eq_true limiting, Bool.true_and, Bool.not_eq_true',
    decide_eq_false_iff_not] at proceed
  exact Nat.not_lt.mp proceed

namespace Handler.Limits

variable {S : Session} {rules : Rules} {root name : Name} {depth : Nat} {visit : Visit}
  {call : Call}

theorem depth_le (limits : S.handler.Limits) (accepted : S.Accepted root name depth) :
    depth ≤ 1 := by
  rcases accepted.proceed with ⟨visit, _, rfl, proceed⟩
  exact limits S.sources visit proceed

/-- A question is shallow, or it is about a member of a member of the root, which is vetoed. -/
theorem shallow (limits : S.handler.Limits) (due : S.Due rules root visit call) :
    call.Shallow visit := by
  cases due with
  | root here atRoot => exact Call.shallow_of_le _ (atRoot ▸ Nat.zero_le 1)
  | member around parent below =>
      have shallow := limits.depth_le around
      refine ⟨by omega, fun deep => ?_⟩
      cases proceed : (S.handler.start S.sources visit).value with
      | false => rfl
      | true => exact absurd deep (Nat.not_lt.mpr (limits S.sources visit proceed))
  | success accepted _ => exact Call.shallow_of_le _ (limits.depth_le accepted)
  | failure accepted error answer => exact Call.shallow_of_le _ (limits.depth_le accepted)
  | finish accepted answer => exact Call.shallow_of_le _ (limits.depth_le accepted)

/-- An accepted node is the root or a member of it. -/
theorem near (limits : S.handler.Limits) (accepted : S.Accepted root name depth) :
    root.Same name ∨ root.IsParentOf name := by
  have shallow := limits.depth_le accepted
  rcases Name.leads_iff.mp accepted.leads with same | above
  · exact Or.inl same
  · have size := accepted.size
    have shorter := above.1
    exact Or.inr ⟨by omega, above.2⟩

theorem upholds (limits : S.handler.Limits) : S.Upholds rules root (StaysShallow root) where
  logged := by
    intro bound history entry stays
    refine ⟨fun visit call asked => stays.calls visit call ?_, stays.bound⟩
    simpa using asked
  asked := by
    intro history visit call notes due stays
    refine ⟨fun visit' call' asked => ?_, stays.bound⟩
    rw [callsOf_append, callsOf_call, List.mem_append, List.mem_singleton] at asked
    rcases asked with before | same
    · exact stays.calls visit' call' before
    · cases same
      exact limits.shallow due
  used := by
    intro bound history name depth p accepted effective _ stays
    refine ⟨stays.calls, fun q member => ?_⟩
    rcases List.mem_append.mp member with before | new
    · exact stays.bound q before
    · have same : name.Same p.name := (Store.get?_eq_some_iff.mp effective).2
      rw [List.mem_singleton.mp new]
      rcases limits.near accepted with here | parent
      · exact Or.inl (here.trans same)
      · exact Or.inr ⟨same.size.symm.trans parent.1, parent.2.trans same.leads⟩

end Handler.Limits

namespace Binder

variable {ρ : Type}

/-- A chain of provided links in which some link limits the depth stays near the root: below
the members of the root nodes are offered and vetoed, one level down, and nothing else is asked
about them; and what is used stands at the root or one element below it. -/
theorem bindAt_stays_shallow {links : List Provided} (limiting : .ignoreNested ∈ links)
    (s : Store) (declarations : Declarations ρ) (target : Target ρ) (root : Name)
    (existing : Bool) :
    let outcome := (Binder.mk s (Provided.chain links) declarations).bindAt target root existing
    (∀ visit call, (visit, call) ∈ callsOf outcome.history →
      visit.depth ≤ 2 ∧ (1 < visit.depth → call = .start false)) ∧
    ∀ p ∈ outcome.bound, root.Same p.name ∨ root.IsParentOf p.name := by
  intro outcome
  let b := Binder.mk s (Provided.chain links) declarations
  have limits : (b.session target).handler.Limits := Provided.chain_limits limiting
  have stays : StaysShallow root outcome.bound outcome.history :=
    bindAt_upholds limits.upholds existing (.first root)
  exact ⟨stays.calls, stays.bound⟩

/-- A service with limits, which are members of a member: they are offered and not used. -/
theorem bindAt_stays_shallow_limits :
    let service := Name.root.child "service"
    let limits := service.child "limits"
    let port := Property.mk (service.child "port") "80" ⟨"file", "service.port"⟩
    let rate := Property.mk (limits.child "rate") "5" ⟨"file", "service.limits.rate"⟩
    let s := Store.empty.push "file" [port, rate]
    let whole : Target Bool := .whole ⟨false, 16⟩
    let declarations : Declarations Bool := ⟨fun nested => if nested
      then ⟨"app::Limits", "Limits", [⟨"rate", "rate", ["rate"], whole, .initial⟩]⟩
      else ⟨"app::Service", "Service", [⟨"port", "port", ["port"], whole, .missing⟩,
        ⟨"limits", "limits", ["limits"], .record true, .missing⟩]⟩, fun _ => .unit⟩
    let handler := Provided.chain [.noUnbound, .ignoreNested]
    let outcome := (Binder.mk s handler declarations).bindAt (.record false) service false
    (callsOf outcome.history).map (·.1.depth) = [0, 1, 1, 1, 1, 2, 1, 1, 0, 0, 0] ∧
      (∀ visit call, (visit, call) ∈ callsOf outcome.history → 1 < visit.depth →
        call = .start false) ∧
      outcome.bound = [port] := by
  intro service limits port rate s whole declarations handler outcome
  have limiting : Provided.ignoreNested ∈ [Provided.noUnbound, .ignoreNested] := by decide
  have stays := bindAt_stays_shallow limiting s declarations (.record false) service false
  refine ⟨by decide +kernel, fun visit call asked => (stays.1 visit call asked).2, ?_⟩
  decide +kernel

end Binder

end PropertyBinding
