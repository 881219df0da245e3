import AmazonRay.Lib.Families

/-! Lookups in finite maps, in the form the case splits use, and sums over their
entries. -/
namespace AmazonRay.Table
open List AList

variable {κ α : Type} [DecidableEq κ] {t : AList fun _ : κ => α}

lemma lookup_insert (t : AList fun _ : κ => α) (k x : κ) (a : α) :
    (t.insert k a).lookup x = if x = k then some a else t.lookup x := by
  by_cases h : x = k
  · subst h
    rw [AList.lookup_insert, if_pos rfl]
  · rw [lookup_insert_ne h, if_neg h]

lemma lookup_erase (t : AList fun _ : κ => α) (k x : κ) :
    (t.erase k).lookup x = if x = k then none else t.lookup x := by
  by_cases h : x = k
  · subst h
    rw [AList.lookup_erase, if_pos rfl]
  · rw [lookup_erase_ne h, if_neg h]

lemma mem_of_lookup {k : κ} {a : α} (h : t.lookup k = some a) : k ∈ t := lookup_isSome.mp (Option.isSome_of_mem h)

lemma lookup_of_insert {k x : κ} {a b : α} (h : (t.insert k a).lookup x = some b) :
    x = k ∧ b = a ∨ x ≠ k ∧ t.lookup x = some b := by
  rw [lookup_insert] at h
  by_cases hx : x = k
  · rw [if_pos hx] at h
    exact .inl ⟨hx, (Option.some.inj h).symm⟩
  · rw [if_neg hx] at h
    exact .inr ⟨hx, h⟩

lemma lookup_of_erase {k x : κ} {b : α} (h : (t.erase k).lookup x = some b) : x ≠ k ∧ t.lookup x = some b := by
  rw [lookup_erase] at h
  by_cases hx : x = k
  · rw [if_pos hx] at h
    cases h
  · rw [if_neg hx] at h
    exact ⟨hx, h⟩

lemma lookup_eraseOrInsert (t : AList fun _ : κ => α) (c : Prop) [Decidable c] (k x : κ) (a : α) :
    (if c then t.erase k else t.insert k a).lookup x =
      if x = k then (if c then none else some a) else t.lookup x := by
  by_cases hc : c
  · rw [if_pos hc, if_pos hc, lookup_erase]
  · rw [if_neg hc, if_neg hc, lookup_insert]

lemma getD_insert {β : Type} (f : α → β) (z : β) (t : AList fun _ : κ => α) (k x : κ) (a : α) :
    (((t.insert k a).lookup x).map f).getD z = if x = k then f a else ((t.lookup x).map f).getD z := by
  rw [lookup_insert]
  by_cases hx : x = k
  · rw [if_pos hx, if_pos hx]
    rfl
  · rw [if_neg hx, if_neg hx]

lemma getD_erase {β : Type} (f : α → β) (z : β) (t : AList fun _ : κ => α) (k x : κ) :
    (((t.erase k).lookup x).map f).getD z = if x = k then z else ((t.lookup x).map f).getD z := by
  rw [lookup_erase]
  by_cases hx : x = k
  · rw [if_pos hx, if_pos hx]
    rfl
  · rw [if_neg hx, if_neg hx]

lemma mem_entries_iff {t : AList fun _ : κ => α} {k : κ} {a : α} :
    (⟨k, a⟩ : Sigma fun _ : κ => α) ∈ t.entries ↔ t.lookup k = some a :=
  (mem_dlookup_iff t.nodupKeys).symm

lemma eq_empty (h : ∀ k, t.lookup k = none) : t = ∅ := by
  refine ext (eq_nil_iff_forall_not_mem.mpr fun e he => ?_)
  have := h e.1
  rw [mem_entries_iff.mp he] at this
  cases this

/-- A fold over a map, seen through what only the step of one key changes. -/
lemma view_foldl {τ γ β : Type} {f : τ → (Σ _ : κ, β) → τ} {v : τ → γ} {k : κ} {g : β → γ → γ}
    (hother : ∀ t e, k ≠ e.1 → v (f t e) = v t) (hown : ∀ t b, v (f t ⟨k, b⟩) = g b (v t))
    (l : List (Σ _ : κ, β)) (hl : l.NodupKeys) (t : τ) :
    v (l.foldl f t) = (l.dlookup k).elim (v t) fun b => g b (v t) := by
  induction l generalizing t with
  | nil => rfl
  | cons e l ih =>
    obtain ⟨hnot, hl⟩ := nodupKeys_cons.mp hl
    rw [foldl_cons, ih hl]
    by_cases hk : k = e.1
    · subst hk
      rw [dlookup_eq_none.mpr hnot, dlookup_cons_eq]
      exact hown t e.2
    · rw [dlookup_cons_ne _ _ hk, hother t e hk]

lemma lookup_foldl {β : Type} {f : AList (fun _ : κ => α) → (Σ _ : κ, β) → AList fun _ : κ => α}
    {g : κ → β → Option α → Option α} (hother : ∀ t e k, k ≠ e.1 → (f t e).lookup k = t.lookup k)
    (hown : ∀ t e, (f t e).lookup e.1 = g e.1 e.2 (t.lookup e.1)) (l : List (Σ _ : κ, β)) (hl : l.NodupKeys)
    (t : AList fun _ : κ => α) (k : κ) :
    (l.foldl f t).lookup k = (l.dlookup k).elim (t.lookup k) fun b => g k b (t.lookup k) :=
  view_foldl (fun t e => hother t e k) (fun t b => hown t ⟨k, b⟩) l hl t

section

variable {ι : Type} [DecidableEq ι] (tables : ι → AList fun _ : κ => α)

lemma lookup_adjust_insert (i j : ι) (k x : κ) (a : α) :
    (Families.adjust i (·.insert k a) tables j).lookup x = if j = i ∧ x = k then some a else (tables j).lookup x := by
  rw [Families.adjust_apply]
  by_cases hj : j = i
  · rw [if_pos hj, lookup_insert]
    simp [hj]
  · rw [if_neg hj, if_neg fun h => hj h.1]

lemma lookup_adjust_erase (i j : ι) (k x : κ) :
    (Families.adjust i (·.erase k) tables j).lookup x = if j = i ∧ x = k then none else (tables j).lookup x := by
  rw [Families.adjust_apply]
  by_cases hj : j = i
  · rw [if_pos hj, lookup_erase]
    simp [hj]
  · rw [if_neg hj, if_neg fun h => hj h.1]

variable {tables}

lemma lookup_of_adjust_insert {i j : ι} {k x : κ} {a b : α}
    (h : (Families.adjust i (·.insert k a) tables j).lookup x = some b) :
    (j = i ∧ x = k ∧ b = a) ∨ (tables j).lookup x = some b := by
  rw [lookup_adjust_insert] at h
  split at h
  case isTrue hjx => exact .inl ⟨hjx.1, hjx.2, (Option.some.inj h).symm⟩
  · exact .inr h

lemma lookup_of_adjust_erase {i j : ι} {k x : κ} {b : α}
    (h : (Families.adjust i (·.erase k) tables j).lookup x = some b) : (tables j).lookup x = some b := by
  rw [lookup_adjust_erase] at h
  split at h
  · cases h
  · exact h

end

variable {M : Type} [AddCommMonoid M]

def total (f : κ → α → M) (t : AList fun _ : κ => α) : M := (t.entries.map fun e => f e.1 e.2).sum

variable {f g : κ → α → M} {k : κ} {a b : α}

lemma total_insert (f : κ → α → M) (t : AList fun _ : κ => α) (k : κ) (a : α) :
    total f (t.insert k a) = f k a + total f (t.erase k) := by
  rw [total, entries_insert, map_cons, sum_cons]
  rfl

lemma total_of_lookup (h : t.lookup k = some a) : total f t = f k a + total f (t.erase k) := by
  have hmem : k ∈ t.entries.keys := mem_keys_of_mem (mem_entries_iff.mpr h)
  obtain ⟨b, l₁, l₂, _, hl, he⟩ := exists_of_kerase hmem
  have hb : t.lookup k = some b := mem_entries_iff.mp (hl ▸ by simp)
  obtain rfl : a = b := Option.some.inj (h.symm.trans hb)
  have herase : (t.erase k).entries = l₁ ++ l₂ := he
  simp only [total, herase, hl, map_append, map_cons, sum_append, sum_cons]
  exact add_left_comm _ _ _

lemma total_erase_of_lookup_none (h : t.lookup k = none) : total f (t.erase k) = total f t := by
  have hmem : k ∉ t.entries.keys := lookup_eq_none.mp h
  have herase : (t.erase k).entries = t.entries := kerase_of_notMem_keys hmem
  rw [total, herase, total]

lemma total_congr (h : ∀ k a, t.lookup k = some a → f k a = g k a) : total f t = total g t := by
  refine congrArg sum (map_congr_left fun e he => ?_)
  exact h e.1 e.2 (mem_entries_iff.mp he)

lemma total_eq_zero (h : ∀ k a, t.lookup k = some a → f k a = 0) : total f t = 0 := by
  rw [total_congr h, total]
  simp

omit [DecidableEq κ] in
lemma total_indicator (q : κ → α → Bool) (t : AList fun _ : κ => α) :
    total (fun k a => if q k a then 1 else 0) t = t.entries.countP fun e => q e.1 e.2 := by
  rw [total]
  induction t.entries with
  | nil => rfl
  | cons e l ih => rw [map_cons, sum_cons, countP_cons, ih, add_comm]

omit [DecidableEq κ] in
lemma total_filter (p : κ → α → Bool) (f : κ → α → M) (t : AList fun _ : κ => α) :
    total (fun k a => if p k a then f k a else 0) t =
      ((t.entries.filter fun e => p e.1 e.2).map fun e => f e.1 e.2).sum := by
  rw [total]
  induction t.entries with
  | nil => rfl
  | cons e l ih =>
    by_cases hp : p e.1 e.2 = true
    · simp [hp, ih]
    · simp [hp, ih]

end AmazonRay.Table
