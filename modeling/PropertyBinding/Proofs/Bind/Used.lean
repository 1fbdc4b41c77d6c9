import PropertyBinding.Proofs.Bind.Invariants

/-!
# What binding uses

A scalar uses the property under its name, as the sources in scope have it, and this is the
effective one.  So what has been used tells what has been left: a property is used exactly if
one of the same name is.
-/

namespace PropertyBinding

/-- What has been used is effective, and lies at a name or below it. -/
def Store.EffectiveBelow (sources : Store) (root : Name) (bound : List Property) : Prop :=
  ∀ p ∈ bound, sources.get? p.name = some p ∧ root.Leads p.name

theorem Session.upholds_effective (S : Session) (rules : Rules) (root : Name) :
    S.Upholds rules root fun bound _ => S.sources.EffectiveBelow root bound where
  logged _ effective := effective
  asked _ _ effective := effective
  used := by
    intro bound _ name depth p accepted found _ effective q member
    rcases List.mem_append.mp member with before | new
    · exact effective q before
    · have same : name.Same p.name := (Store.get?_eq_some_iff.mp found).2
      rw [List.mem_singleton.mp new, ← Store.get?_congr S.sources same]
      exact ⟨found, accepted.leads.trans same.leads⟩

/-- The properties that a run has used are effective, and lie at its root or below. -/
theorem Binder.effective_of_mem_bound {ρ : Type} {b : Binder ρ} {target : Target ρ} {root : Name}
    {existing : Bool} {p : Property} (used : p ∈ (b.bindAt target root existing).bound) :
    b.sources.get? p.name = some p ∧ root.Leads p.name := by
  have effective : b.sources.EffectiveBelow root (b.bindAt target root existing).bound :=
    bindAt_upholds ((b.session target).upholds_effective _ root) existing
      fun _ impossible => by cases impossible
  exact effective p used

end PropertyBinding
