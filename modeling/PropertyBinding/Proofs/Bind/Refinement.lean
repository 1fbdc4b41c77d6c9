import PropertyBinding.Proofs.Store.Merged
import PropertyBinding.Proofs.Bind.Simulation

/-!
# Binding from layers and from one layer

Binding asks its store what is under a name, whether something is there, what the
children are and what a placeholder stands for.  The effective properties decide all
of this, except that children can be spelled in a way that no effective property
uses.  So two stores with the same effective properties give the same value or the
same error, and in the same run: each call shows the same visit and has the same
answer.

The targets that bind sequences are left out, for they read from one layer and have to
depend on how properties are spread over layers.
-/

namespace PropertyBinding

/-! ## Targets that do not ask for layers -/

/-- Binding a target of this kind does not depend on how properties are spread over
layers, or does so only by the spelling of children.  Targets that can be bound as
sequences are left out, and so are those that are for looking at the binding itself. -/
def Target.Mergeable {ρ : Type} (uniform : Prop) : Target ρ → Prop
  | .list _ => False
  | .set _ => False
  | .fixed _ _ => False
  | .free _ => False
  | .counted _ _ _ => False
  | .hasty _ _ => False
  | .map _ _ => uniform
  | _ => True

/-- All that a target is made of is mergeable. -/
def Target.MergeableThroughout {ρ : Type} (declarations : Declarations ρ) (uniform : Prop)
    (target : Target ρ) : Prop :=
  ∀ t, Target.Occurs declarations t target → t.Mergeable uniform

theorem Target.Mergeable.asks {ρ : Type} {uniform : Prop} {target : Target ρ}
    (mergeable : target.Mergeable uniform) : target.Asks uniform False := by
  cases target with
  | list target => exact mergeable.elim
  | set target => exact mergeable.elim
  | fixed shape targets => exact mergeable.elim
  | free label => exact mergeable.elim
  | counted label request target => exact mergeable.elim
  | map key target => exact mergeable
  | _ => trivial

/-! ## Sessions over the same effective properties -/

/-- Sessions over stores with the same effective properties agree, as far as binding does
not ask for sources. -/
theorem Session.agrees_of_effective {S T : Session} {uniform : Prop}
    (same : S.sources.effective = T.sources.effective) (alike : S.Alike some (fun _ => True) T)
    (children : uniform → ∀ n, S.sources.children n = T.sources.children n) :
    S.Agrees some 0 (fun _ => True) (fun a b => a = S.sources ∧ b = T.sources) uniform False T where
  toAlike := alike
  near_child := fun _ _ => trivial
  get? := by
    rintro _ _ n ⟨rfl, rfl⟩ _
    exact Store.get?_of_effective same n
  resolve := fun _ _ _ => Store.resolve_of_effective same _
  contains := by
    rintro _ _ n ⟨rfl, rfl⟩ _
    exact Store.contains_of_effective same n
  size_le := by
    rintro _ _ n ⟨rfl, rfl⟩ _ holds
    have short := Store.size_le_height_of_contains holds
    exact ⟨short, Store.height_of_effective same ▸ short⟩
  children := by
    rintro asked _ _ n ⟨rfl, rfl⟩ _
    exact children asked n
  below := fun asked => asked.elim
  sourceOf? := fun asked => asked.elim

/-! ## Binders -/

namespace Binder

variable {ρ : Type}

/-- Binders over stores with the same effective properties give the same outcome, and
ask their handlers the same on the way. -/
theorem bindAt_of_effective {s t : Store} (same : s.effective = t.effective) {handler : Handler}
    (blind : handler.Blind (fun _ => True) s t) (declarations : Declarations ρ)
    (target : Target ρ) (root : Name) (existing : Bool) {uniform : Prop}
    (children : uniform → ∀ n, s.children n = t.children n)
    (mergeable : target.MergeableThroughout declarations uniform) :
    (Binder.mk s handler declarations).bindAt target root existing =
      (Binder.mk t handler declarations).bindAt target root existing := by
  let b := Binder.mk s handler declarations
  let c := Binder.mk t handler declarations
  have agrees := Session.agrees_of_effective (S := b.session target) (T := c.session target)
    same (blind.alike _) children
  have holds : s.contains root = t.contains root := Store.contains_of_effective same root
  exact bindAt_eq_of_matches (b := b) (c := c) agrees.toAlike trivial existing holds
    fun found => agrees.readToHeight ⟨rfl, rfl⟩ trivial target found
      fun u part => (mergeable u part).asks

/-- Binding from all layers comes to the same as binding from the one layer in which
they are merged: the value or the error is the same, and so are the properties used
and all calls on the way, whichever of the provided handlers are asked. -/
theorem bindAt_merged (s : Store) (source : String) (links : List Provided)
    (declarations : Declarations ρ) (target : Target ρ) (root : Name) (existing : Bool)
    (mergeable : target.MergeableThroughout declarations s.UniformlySpelled) :
    (∀ n, (s.merged source).get? n = s.get? n) ∧
      (Binder.mk s (Provided.chain links) declarations).bindAt target root existing =
        (Binder.mk (s.merged source) (Provided.chain links) declarations).bindAt target root
          existing := by
  have same := (s.effective_merged source).symm
  refine ⟨s.get?_merged source, ?_⟩
  have blind : (Provided.chain links).Blind (fun _ => True) s (s.merged source) :=
    Provided.chain_blind (fun n _ => Store.below_of_effective same n) links
  exact bindAt_of_effective same blind declarations target root existing
    (fun uniform => Store.children_of_effective same uniform (uniform.merged source)) mergeable

/-- A record with an optional number and a map, over two layers of which the second
overrides a part of the first. -/
theorem bindAt_merged_settings :
    let app := Name.root.child "app"
    let labels := app.child "labels"
    let s := (Store.empty.push "defaults" [⟨app.child "port", "80", ⟨"defaults", "app.port"⟩⟩,
      ⟨labels.child "slot", "80", ⟨"defaults", "app.labels.slot"⟩⟩]).push "override"
        [⟨app.child "port", "80${app.labels.slot}", ⟨"override", "app.port"⟩⟩,
          ⟨labels.child "tier", "web", ⟨"override", "app.labels.tier"⟩⟩]
    let declarations : Declarations Unit := ⟨fun _ => ⟨"app::Settings", "Settings",
      [⟨"port", "port", ["port"], .option (.whole ⟨false, 16⟩), .missing⟩,
        ⟨"labels", "labels", ["labels"], .map .text .text, .initial⟩]⟩, fun _ => .unit⟩
    s.UniformlySpelled ∧
      (Binder.mk s (Provided.chain [.noUnbound, .tracing]) declarations).bindAt (.record ()) app
          false =
        (Binder.mk (s.merged "merged") (Provided.chain [.noUnbound, .tracing]) declarations).bindAt
          (.record ()) app false := by
  intro app labels s declarations
  have uniform : s.UniformlySpelled := by decide +kernel
  have mergeable : (Target.record ()).MergeableThroughout declarations s.UniformlySpelled := by
    intro t part
    cases part with
    | self => trivial
    | record member inner =>
        rcases List.mem_cons.mp member with rfl | later
        · cases inner with
          | self => trivial
          | option inner =>
              cases inner
              trivial
        · cases List.mem_singleton.mp later
          cases inner with
          | self => exact uniform
          | map inner =>
              cases inner
              trivial
  exact ⟨uniform, (bindAt_merged s "merged" _ declarations _ app false mergeable).2⟩

end Binder

end PropertyBinding
