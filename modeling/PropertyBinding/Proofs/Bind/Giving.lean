import PropertyBinding.Proofs.Bind.Orderly
import PropertyBinding.Proofs.Placeholder.Substitution

/-!
# Steps that give a value

What a step gives is said of all runs with the same sources in scope: the step succeeds
with a certain value, leaves these sources in scope, forgets no property that has been
used, and uses one under each of certain names.  So a step that gives a value cannot fail.

Under the handler that accepts everything, the steps of which binding consists give what
their parts give.  In particular, members are offered and closed without being changed.
-/

namespace PropertyBinding

variable {α β : Type} {scope source : Store} {a : α} {b : β} {texts more : List (Name × String)}

/-- The step succeeds with a value, and uses a property for each of some texts. -/
def Binding.Gives (scope : Store) (step : Binding α) (a : α) (texts : List (Name × String)) :
    Prop :=
  ∀ run, run.scope = scope → ∃ after, step run = (.ok a, after) ∧ after.scope = scope ∧
    run.bound ⊆ after.bound ∧ ∀ x ∈ texts, ∃ p ∈ after.bound, x.1.Same p.name

namespace Binding.Gives

variable {step : Binding α} {next : α → Binding β}

/-- A step that changes neither the sources in scope nor what has been used. -/
theorem of_idle (idle : ∀ run, ∃ after, step run = (.ok a, after) ∧ after.scope = run.scope ∧
    after.bound = run.bound) : Gives scope step a [] := by
  intro run inScope
  rcases idle run with ⟨after, ran, kept, used⟩
  refine ⟨after, ran, kept.trans inScope, ?_, fun x impossible => by cases impossible⟩
  rw [used]
  exact List.Subset.refl _

theorem pure (a : α) : Gives scope (Pure.pure a) a [] :=
  of_idle fun run => ⟨run, rfl, rfl, rfl⟩

theorem log (entry : LogEntry) : Gives scope (Binding.log entry) () [] :=
  of_idle fun _ => ⟨_, rfl, rfl, rfl⟩

theorem use {n : Name} {p : Property} (same : n.Same p.name) (text : String) :
    Gives scope (Binding.use p) () [(n, text)] := by
  intro run inScope
  unfold Binding.use
  by_cases known : (run.bound.any fun used => used.name.Same p.name) = true
  · rw [if_pos known]
    refine ⟨run, rfl, inScope, List.Subset.refl _, fun x member => ?_⟩
    rcases List.any_eq_true.mp known with ⟨q, listed, equal⟩
    rw [List.mem_singleton.mp member]
    exact ⟨q, listed, same.trans (of_decide_eq_true equal).symm⟩
  · rw [if_neg known]
    refine ⟨_, rfl, inScope, List.subset_append_left _ _, fun x member => ?_⟩
    rw [List.mem_singleton.mp member]
    exact ⟨p, List.mem_append_right _ (List.mem_singleton_self p), same⟩

theorem bind (first : Gives scope step a texts) (second : Gives scope (next a) b more) :
    Gives scope (step >>= next) b (texts ++ more) := by
  intro run inScope
  rcases first run inScope with ⟨middle, ran, kept, used, given⟩
  rcases second middle kept with ⟨after, ranThen, keptThen, usedThen, givenThen⟩
  refine ⟨after, (bind_of_ok ran).trans ranThen, keptThen, List.Subset.trans used usedThen,
    fun x member => ?_⟩
  rcases List.mem_append.mp member with early | late
  · rcases given x early with ⟨p, listed, same⟩
    exact ⟨p, usedThen listed, same⟩
  · exact givenThen x late

theorem mono (given : Gives scope step a texts) (fewer : more ⊆ texts) :
    Gives scope step a more := by
  intro run inScope
  rcases given run inScope with ⟨after, ran, kept, used, each⟩
  exact ⟨after, ran, kept, used, fun x member => each x (fewer member)⟩

/-- A step after which no further texts are needed. -/
theorem andThen (first : Gives scope step a texts) (second : Gives scope (next a) b []) :
    Gives scope (step >>= next) b texts := by
  have both := first.bind second
  rwa [List.append_nil] at both

theorem map (f : α → β) (inner : Gives scope step a texts) :
    Gives scope (f <$> step) (f a) texts := by
  intro run inScope
  rcases inner run inScope with ⟨after, ran, rest⟩
  refine ⟨after, ?_, rest⟩
  rw [map_apply, ran]
  rfl

/-- Looking at the sources in scope. -/
theorem look {next : Store → Binding β} (inner : Gives scope (next scope) b texts) :
    Gives scope (Binding.scope >>= next) b texts := by
  intro run inScope
  rw [Binding.scope_bind, inScope]
  exact inner run inScope

theorem forTarget (target : String) (inner : Gives scope step a texts) :
    Gives scope (Binding.forTarget target step) a texts := by
  intro run inScope
  rcases inner run inScope with ⟨after, ran, rest⟩
  refine ⟨after, ?_, rest⟩
  rw [Binding.forTarget, ran]

theorem nested (inner : Gives scope step a texts) : Gives scope (Binding.nested step) a texts := by
  intro run inScope
  rcases inner { run with depth := run.depth + 1 } inScope with ⟨after, ran, rest⟩
  refine ⟨{ after with depth := after.depth - 1 }, ?_, rest⟩
  rw [Binding.nested, ran]

theorem scopedTo (inner : Gives source step a texts) :
    Gives scope (Binding.scopedTo source step) a texts := by
  intro run inScope
  rcases inner { run with scope := source } rfl with ⟨after, ran, _, rest⟩
  refine ⟨{ after with scope := run.scope }, ?_, inScope, rest⟩
  rw [Binding.scopedTo, ran]

end Binding.Gives

/-! ## Under the handler that accepts everything -/

namespace Session

open Binding

variable {S : Session} {name : Name} {slot : Slot} {step : Binding α}

theorem offer_gives (accepting : S.handler = .accepting) (name : Name) (slot : Slot) :
    Gives scope (S.offer name slot) true [] := by
  refine .of_idle fun run => ?_
  unfold offer
  rw [accepting]
  exact ⟨_, rfl, rfl, rfl⟩

theorem succeed_gives (S : Session) (name : Name) (slot : Slot) :
    Gives scope (S.succeed name slot) () [] :=
  .of_idle fun _ => ⟨_, rfl, rfl, rfl⟩

theorem finish_gives (accepting : S.handler = .accepting) (name : Name) (slot : Slot) :
    Gives scope (S.finish name slot) () [] := by
  refine .of_idle fun run => ?_
  unfold finish
  rw [accepting]
  exact ⟨_, rfl, rfl, rfl⟩

/-- A node that has been bound stands. -/
theorem descend_gives (accepting : S.handler = .accepting) (inner : Gives scope step a texts) :
    Gives scope (S.descend name slot step) a texts := by
  have closed : Gives scope (S.closed name slot step) a texts :=
    inner.andThen <| (S.succeed_gives name slot).andThen <|
      (finish_gives accepting name slot).andThen (.pure a)
  intro run inScope
  rcases closed (run.enter name) inScope with ⟨after, ran, rest⟩
  have passed : S.guarded name slot (S.closed name slot step) (run.enter name) =
      (.ok a, after) := by
    rw [guarded, ran]
  exact ⟨after.leave, congrArg (fun ended => (ended.1, ended.2.leave)) passed, rest⟩

/-! ## Scalars -/

/-- A text without placeholders is read as it is, and is used. -/
theorem scalar_gives {p : Property} {target : String} (found : scope.get? name = some p)
    (plain : '$' ∉ p.value.toList) :
    Gives scope (S.scalar name none target) ⟨p.value, p⟩ [(name, p.value)] := by
  have same : name.Same p.name := (Store.get?_eq_some_iff.mp found).2
  unfold scalar
  refine .look ?_
  simp only [found, S.sources.resolve_of_no_dollar plain]
  exact (Gives.use same p.value).andThen (.pure _)

theorem text_gives {p : Property} {target : String} (found : scope.get? name = some p)
    (plain : '$' ∉ p.value.toList) :
    Gives scope (S.text name none target) p.value [(name, p.value)] :=
  (scalar_gives found plain).andThen (.pure p.value)

theorem convert_gives {p : Property} {target : String}
    {conversion : String → Except ConversionReason α} (found : scope.get? name = some p)
    (plain : '$' ∉ p.value.toList) (converts : conversion p.value = .ok a) :
    Gives scope (S.convert name none target conversion) a [(name, p.value)] := by
  refine (scalar_gives found plain).andThen ?_
  rw [converts]
  exact .pure a

end Session
end PropertyBinding
