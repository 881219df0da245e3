import Mathlib

/-! Finitely supported amounts with executable operations. No key of the support has the amount zero. -/
namespace AmazonRay.Amounts
open Finset

variable {κ : Type} [DecidableEq κ] (a b cap : κ →₀ ℕ)

def single (k : κ) (n : ℕ) : κ →₀ ℕ where
  support := if n = 0 then ∅ else {k}
  toFun x := if x = k then n else 0
  mem_support_toFun x := by
    by_cases h : n = 0 <;> simp [h]

def add : κ →₀ ℕ where
  support := a.support ∪ b.support
  toFun k := a k + b k
  mem_support_toFun k := by
    simp only [Finset.mem_union, Finsupp.mem_support_iff]
    omega

def sub : κ →₀ ℕ where
  support := a.support.filter fun k => b k < a k
  toFun k := a k - b k
  mem_support_toFun k := by
    simp only [Finset.mem_filter, Finsupp.mem_support_iff]
    omega

def addUpTo : κ →₀ ℕ where
  support := a.support ∪ (b.support ∩ cap.support)
  toFun k := if k ∈ b.support ∩ cap.support then min (a k + b k) (cap k) else a k
  mem_support_toFun k := by
    by_cases h : k ∈ b.support ∩ cap.support
    · simp only [Finset.mem_union, h, or_true, if_true, true_iff]
      simp only [Finset.mem_inter, Finsupp.mem_support_iff] at h
      omega
    · simp only [Finset.mem_union, h, or_false, if_false, Finsupp.mem_support_iff]

def override (keys : Finset κ) (f : κ → ℕ) : κ →₀ ℕ where
  support := (a.support \ keys) ∪ keys.filter fun k => f k ≠ 0
  toFun k := if k ∈ keys then f k else a k
  mem_support_toFun k := by
    by_cases h : k ∈ keys <;> simp [h]

lemma override_apply (keys : Finset κ) (f : κ → ℕ) (k : κ) : override a keys f k = if k ∈ keys then f k else a k := rfl

lemma addUpTo_apply_of_le {k : κ} (h : a k + b k ≤ cap k) : addUpTo a b cap k = a k + b k := by
  show (if k ∈ b.support ∩ cap.support then min (a k + b k) (cap k) else a k) = a k + b k
  by_cases hk : k ∈ b.support ∩ cap.support
  · rw [if_pos hk, min_eq_left h]
  · rw [if_neg hk]
    simp only [mem_inter, Finsupp.mem_support_iff] at hk
    omega

end AmazonRay.Amounts
