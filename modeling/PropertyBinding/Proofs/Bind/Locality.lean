import PropertyBinding.Proofs.Store.Under
import PropertyBinding.Proofs.Bind.Simulation
import PropertyBinding.Proofs.Bind.Trace

/-!
# Binding looks only at its root and below

Which values are bound at a root, which errors are found and what is asked on the way
depends on nothing but what the sources have at the root and below it.  Other properties
may change, and so may sources that have nothing there.

Three things could tell of properties elsewhere.  A placeholder could refer to one, so
values with dollar signs are left out.  The handlers are asked over the whole store, but
the provided ones only ask for what is below the node.  And the number of levels to which
binding descends is taken from the whole store, but it is enough in either store for the
names that both have.
-/

namespace PropertyBinding

/-- What is seen of an event when only calls matter. -/
def Event.call? : Event → Option (Visit × Call)
  | .call visit asked _ => some (visit, asked)
  | .log _ => none

theorem callsOf_eq_filterMap (history : List Event) :
    callsOf history = history.filterMap Event.call? :=
  rfl

/-- Sources taken out of two stores, which have the same at a name and below it. -/
structure Store.Corresponds (root : Name) (s t a b : Store) : Prop where
  draws : a.Draws s
  drawsToo : b.Draws t
  same : a.under root = b.under root

theorem Store.Draws.plainUnder {scope sources : Store} {root : Name} (draws : scope.Draws sources)
    (plain : sources.PlainUnder root) : scope.PlainUnder root :=
  fun p listed => plain p (draws.mem_properties listed)

namespace Store.Corresponds

variable {root n : Name} {s t a b : Store}

theorem size_le (corresponds : Corresponds root s t a b) (there : root.Leads n)
    (holds : a.contains n = true) : n.size ≤ s.height ∧ n.size ≤ t.height := by
  have holdsToo : b.contains n = true := contains_of_under corresponds.same there ▸ holds
  exact ⟨size_le_height_of_contains (corresponds.draws.contains holds),
    size_le_height_of_contains (corresponds.drawsToo.contains holdsToo)⟩

theorem sourceOf? (corresponds : Corresponds root s t a b) (there : root.Leads n) :
    Option.Rel (Corresponds root s t) (a.sourceOf? n) (b.sourceOf? n) := by
  have highest := sourceOf?_of_under corresponds.same there
  generalize found : a.sourceOf? n = source at highest ⊢
  generalize foundToo : b.sourceOf? n = other at highest ⊢
  cases highest with
  | none => exact .none
  | some same =>
      exact .some ⟨corresponds.draws.sourceOf? found, corresponds.drawsToo.sourceOf? foundToo, same⟩

end Store.Corresponds

/-- Sessions over stores that have the same under a root agree at the root and below it,
when logs are not viewed. -/
theorem Session.agrees_of_under {S T : Session} {root : Name}
    (alike : S.Alike Event.call? root.Leads T) (plain : S.sources.PlainUnder root) :
    S.Agrees Event.call? 0 root.Leads (Store.Corresponds root S.sources T.sources) True True T where
  toAlike := alike
  near_child := fun there parent => there.trans parent.2
  get? := fun corresponds there => Store.get?_of_under corresponds.same there
  resolve := by
    intro a b n p corresponds there found
    have drawn := corresponds.draws.plainUnder plain
    rw [drawn.resolve there found, drawn.resolve there found]
  contains := fun corresponds there => Store.contains_of_under corresponds.same there
  size_le := Store.Corresponds.size_le
  children := fun _ _ _ _ corresponds there => Store.children_of_under corresponds.same there
  below := fun _ _ _ _ corresponds there => Store.below_of_under corresponds.same there
  sourceOf? := by
    intro _ a b n corresponds there
    have highest := corresponds.sourceOf? there
    generalize a.sourceOf? n = source at highest ⊢
    generalize b.sourceOf? n = other at highest ⊢
    cases highest with
    | none => exact .none
    | some same => exact .some ⟨same, fun _ => rfl⟩

namespace Binder

variable {ρ : Type}

/-- Over two stores whose sources have the same properties at a root and below it, source
by source, binding at the root gives the same value or the same error.  It uses the same
properties and asks the same of whichever provided handlers there are. -/
theorem bindAt_local {s t : Store} {root : Name} (same : s.under root = t.under root)
    (plain : s.PlainUnder root) (links : List Provided) (declarations : Declarations ρ)
    (target : Target ρ) (existing : Bool) :
    let first := (Binder.mk s (Provided.chain links) declarations).bindAt target root existing
    let second := (Binder.mk t (Provided.chain links) declarations).bindAt target root existing
    first.result = second.result ∧ first.bound = second.bound ∧
      callsOf first.history = callsOf second.history := by
  let b := Binder.mk s (Provided.chain links) declarations
  let c := Binder.mk t (Provided.chain links) declarations
  have here : root.Leads root := (Name.same_refl root).leads
  have blind : (Provided.chain links).Blind root.Leads s t :=
    Provided.chain_blind (fun n there => Store.below_of_under same there) links
  have agrees := Session.agrees_of_under (S := b.session target) (T := c.session target)
    (blind.alike _) plain
  simp only [callsOf_eq_filterMap]
  apply bindAt_matches (b := b) (c := c) agrees.toAlike here existing
    (Store.contains_of_under same here)
  intro holds
  exact agrees.readToHeight ⟨.refl s, .refl t, same⟩ here target holds fun u _ => u.asks_true

/-- A record with a number and a list, once beside a property that refers to the number
and once between sources that hold other properties. -/
theorem bindAt_local_service :
    let app := Name.root.child "app"
    let other := Name.root.child "other"
    let port := Property.mk (app.child "port") "80" ⟨"file", "app.port"⟩
    let host := Property.mk ((app.child "hosts").childAt 0) "a" ⟨"override", "app.hosts[0]"⟩
    let s := (Store.empty.push "file" [port, ⟨other, "${app.port}", ⟨"file", "other"⟩⟩]).push
      "override" [host]
    let t := (((Store.empty.push "below" []).push "file" [port]).push "between"
      [⟨other.child "name", "x", ⟨"between", "other.name"⟩⟩]).push "above" [host]
    let declarations : Declarations Unit := ⟨fun _ => ⟨"app::Service", "Service",
      [⟨"port", "port", ["port"], .whole ⟨false, 16⟩, .missing⟩,
        ⟨"hosts", "hosts", ["hosts"], .list .text, .initial⟩]⟩, fun _ => .unit⟩
    s.under app = t.under app ∧ s.PlainUnder app ∧
      ((Binder.mk s (Provided.chain [.noUnbound, .tracing]) declarations).bindAt (.record ()) app
          false).result =
        ((Binder.mk t (Provided.chain [.noUnbound, .tracing]) declarations).bindAt (.record ()) app
          false).result := by
  intro app other port host s t declarations
  have same : s.under app = t.under app := by decide +kernel
  have plain : s.PlainUnder app := by decide +kernel
  exact ⟨same, plain, (bindAt_local same plain _ declarations _ false).1⟩

end Binder

end PropertyBinding
