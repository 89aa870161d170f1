import Mathlib.Data.List.Sort

/-!
# Sorted lists and what holds from some element on

`above` is a test that, once an element of a sorted list passes it, all later elements pass.

The elements that pass are therefore the tail of the list, and counting them tells where it begins.
-/

namespace Sorted

variable {α : Type} {r : α → α → Prop} {above : α → Bool} {l : List α}

/-- Dropping from the front is filtering. -/
theorem dropWhile_eq_filter (hup : ∀ x y, r x y → above x → above y) (hl : l.Pairwise r) :
    l.dropWhile (fun x => !above x) = l.filter above := by
  induction l with
  | nil => rfl
  | cons a l ih =>
    obtain ⟨ha, hl⟩ := List.pairwise_cons.mp hl
    -- the first element that passes is where the dropping stops, and all behind it pass
    cases habove : above a with
    | false =>
      rw [List.dropWhile_cons_of_pos (by simp [habove]),
        List.filter_cons_of_neg (by simp [habove]), ih hl]
    | true =>
      have hall : ∀ x ∈ l, above x = true := fun x hx => hup a x (ha x hx) habove
      rw [List.dropWhile_cons_of_neg (by simp [habove]), List.filter_cons_of_pos habove,
        List.filter_eq_self.mpr hall]

/-- **Order statistics by counting**: the element at a position passes the test exactly when as many
elements pass it as there are from that position on. -/
theorem above_getElem_iff (hup : ∀ x y, r x y → above x → above y) (hl : l.Pairwise r) {i : Nat}
    (hi : i < l.length) : above l[i] = true ↔ l.length - i ≤ l.countP above := by
  induction l generalizing i with
  | nil => exact absurd hi (Nat.not_lt_zero i)
  | cons a l ih =>
    obtain ⟨ha, hl⟩ := List.pairwise_cons.mp hl
    have hall : above a = true → l.countP above = l.length := fun h =>
      List.countP_eq_length.mpr fun x hx => hup a x (ha x hx) h
    have hle : l.countP above ≤ l.length := List.countP_le_length
    cases i with
    | zero =>
      -- the first element passes exactly when all do
      rw [List.getElem_cons_zero, List.countP_cons, List.length_cons]
      cases habove : above a with
      | false => simp; omega
      | true => simp [hall habove]
    | succ i =>
      -- the head only counts when everything behind it does
      have hi' : i < l.length := Nat.lt_of_succ_lt_succ hi
      rw [List.getElem_cons_succ, ih hl hi', List.countP_cons, List.length_cons]
      cases habove : above a with
      | false => simp
      | true =>
        rw [hall habove]
        simp only [if_true]
        omega

end Sorted
