import Mathlib.Logic.Equiv.Basic

/-!
# Exclusive ownership

Holders hold resources, each holding carries a tag, and a holding is backed by what the state
says about the resource (`held`). `Owned` is the invariant: one holder at most for a resource,
every holding backed. A step either renames the holders and drops holdings (`Owned.transfer`),
or lets one holder take a resource that was free (`Owned.acquire`).

A holder may hold several resources, and the tag tells what for.
-/

namespace Ownership

variable {Holder Resource Tag : Type} {holds holds' : Holder → Resource → Tag → Prop}
  {held held' : Resource → Tag → Prop}

structure Owned (holds : Holder → Resource → Tag → Prop) (held : Resource → Tag → Prop) :
    Prop where
  exclusive : ∀ {h h' x t t'}, holds h x t → holds h' x t' → h = h'
  backed : ∀ {h x t}, holds h x t → held x t

/-- Every holding after the step was one before it, under the old name of its holder. -/
theorem Owned.transfer (hO : Owned holds held) {f : Holder → Holder}
    (hf : Function.Injective f) (hsub : ∀ h x t, holds' h x t → holds (f h) x t)
    (hheld : ∀ h x t, holds' h x t → held x t → held' x t) : Owned holds' held' where
  exclusive := fun hh hh' => hf (hO.exclusive (hsub _ _ _ hh) (hsub _ _ _ hh'))
  backed := fun hh => hheld _ _ _ hh (hO.backed (hsub _ _ _ hh))

/-- One resource that nobody held gets a holder. -/
theorem Owned.acquire (hO : Owned holds held) (h₀ : Holder) (x₀ : Resource) (t₀ : Tag)
    (hsub : ∀ h x t, holds' h x t → holds h x t ∨ h = h₀ ∧ x = x₀ ∧ t = t₀)
    (hfree : ∀ t, ¬ held x₀ t) (hnew : held' x₀ t₀)
    (hheld : ∀ h x t, holds' h x t → held x t → held' x t) : Owned holds' held' where
  exclusive := fun {h h' x t t'} hh hh' => by
    rcases hsub _ _ _ hh with hold | ⟨rfl, rfl, rfl⟩
    · rcases hsub _ _ _ hh' with hold' | ⟨rfl, rfl, rfl⟩
      · exact hO.exclusive hold hold'
      · exact absurd (hO.backed hold) (hfree _)
    · rcases hsub _ _ _ hh' with hold' | ⟨rfl, -, -⟩
      · exact absurd (hO.backed hold') (hfree _)
      · rfl
  backed := fun hh => by
    rcases hsub _ _ _ hh with hold | ⟨-, rfl, rfl⟩
    · exact hheld _ _ _ hh (hO.backed hold)
    · exact hnew

end Ownership
