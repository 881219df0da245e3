import Mathlib

/-! Families of values over an index type, changed at one index at a time, and counts in
lists that lose an element. -/
namespace AmazonRay.Families
open Finset List

section

variable {κ α : Type} [DecidableEq κ]

def adjust (k : κ) (f : α → α) (g : κ → α) : κ → α := Function.update g k (f (g k))

variable (k : κ) (f : α → α) (g : κ → α)

@[simp] lemma adjust_self : adjust k f g k = f (g k) := Function.update_self ..

lemma adjust_apply (x : κ) : adjust k f g x = if x = k then f (g x) else g x := by
  unfold adjust
  rw [Function.update_apply]
  by_cases hx : x = k
  · rw [if_pos hx, if_pos hx, hx]
  · rw [if_neg hx, if_neg hx]

@[simp] lemma adjust_of_ne {x : κ} (hx : x ≠ k) : adjust k f g x = g x := Function.update_of_ne hx ..

lemma sum_adjust {M : Type} [AddCommMonoid M] [Fintype κ] (F : α → M) :
    (∑ x, F (adjust k f g x)) + F (g k) = (∑ x, F (g x)) + F (f (g k)) := by
  have hrest : ∑ x ∈ univ.erase k, F (adjust k f g x) = ∑ x ∈ univ.erase k, F (g x) := by
    refine sum_congr rfl fun x hx => ?_
    rw [adjust_of_ne k f g (ne_of_mem_erase hx)]
  rw [← sum_erase_add _ _ (mem_univ k), ← sum_erase_add _ (fun x => F (g x)) (mem_univ k), hrest, adjust_self]
  exact add_right_comm _ _ _

lemma sum_adjust₂ {ι M : Type} [DecidableEq ι] [Fintype κ] [Fintype ι] [AddCommMonoid M] [IsCancelAdd M] (i : ι)
    (h : ι → κ → α) (F : α → M) :
    (∑ y, ∑ x, F (adjust i (adjust k f) h y x)) + F (h i k) = (∑ y, ∑ x, F (h y x)) + F (f (h i k)) := by
  have houter := sum_adjust i (adjust k f) h fun row => ∑ x, F (row x)
  have hinner := sum_adjust k f (h i) F
  refine add_right_cancel (b := ∑ x, F (h i x)) ?_
  calc ((∑ y, ∑ x, F (adjust i (adjust k f) h y x)) + F (h i k)) + ∑ x, F (h i x)
      = ((∑ y, ∑ x, F (h y x)) + ∑ x, F (adjust k f (h i) x)) + F (h i k) := by rw [add_right_comm, houter]
    _ = ((∑ y, ∑ x, F (h y x)) + F (f (h i k))) + ∑ x, F (h i x) := by
        rw [add_assoc, hinner, add_assoc, add_comm (F (f (h i k)))]

end

lemma countP_eraseIdx {α : Type} {l : List α} {i : ℕ} {a : α} (h : l[i]? = some a) (q : α → Bool) :
    l.countP q = (l.eraseIdx i).countP q + if q a then 1 else 0 := by
  obtain ⟨hi, ha⟩ := List.getElem?_eq_some_iff.mp h
  have hperm := (getElem_cons_eraseIdx_perm hi).countP_eq q
  rw [← hperm, countP_cons, ha]

lemma exists_countP_eraseP {α : Type} {l : List α} {p : α → Bool} {b : α} (hb : b ∈ l) (hp : p b = true) :
    ∃ a ∈ l, p a = true ∧ ∀ q : α → Bool, l.countP q = (l.eraseP p).countP q + if q a then 1 else 0 := by
  obtain ⟨a, l₁, l₂, -, ha, hl, he⟩ := exists_of_eraseP hb hp
  refine ⟨a, hl ▸ mem_append_right _ mem_cons_self, ha, fun q => ?_⟩
  rw [he, hl, countP_append, countP_append, countP_cons, add_assoc]

end AmazonRay.Families
