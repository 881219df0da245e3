import Mathlib

/-! `ReplayBuffer.add`: slots are reused in a circle that ends at the capacity. The statistics are left out. -/
namespace AmazonRay.Rllib
open List

structure ReplayBuffer (α : Type) where
  storage : List α := []
  nextIdx : ℕ := 0
  numTimestepsAddedWrap : ℕ := 0

variable {α : Type} (count : α → ℕ) (capacity : ℕ)

def ReplayBuffer.add (b : ReplayBuffer α) (item : α) : ReplayBuffer α :=
  let storage := if b.storage.length ≤ b.nextIdx then b.storage ++ [item] else b.storage.set b.nextIdx item
  let added := b.numTimestepsAddedWrap + count item
  if capacity ≤ added then { storage } else { storage, nextIdx := b.nextIdx + 1, numTimestepsAddedWrap := added }

/-- The stored items are the latest. Without the newest they have fewer timesteps than the capacity. -/
def Fifo (added storage : List α) : Prop :=
  ∃ latest, latest <:+ added ∧ storage.Perm latest ∧ (latest.dropLast.map count).sum < capacity

/-- The last full circle and the items added since. -/
structure Circle (added last new : List α) (b : ReplayBuffer α) : Prop where
  latest : last ++ new <:+ added
  storage : b.storage = new ++ last.drop new.length
  nextIdx : b.nextIdx = new.length
  timesteps : b.numTimestepsAddedWrap = (new.map count).sum
  new_lt : (new.map count).sum < capacity
  last_lt : (last.dropLast.map count).sum < capacity
  full : last = [] ∨ capacity ≤ (last.map count).sum

/-- No item has more timesteps than one before it. -/
abbrev Shrinking (items : List α) : Prop := items.Pairwise fun x y => count y ≤ count x

variable {count capacity} {items added last new : List α} {b : ReplayBuffer α} {x : α}

lemma sum_le_of_sublist {l l' : List α} (h : l <+ l') : (l.map count).sum ≤ (l'.map count).sum :=
  (h.map count).sum_le_sum fun _ _ => Nat.zero_le _

/-- As many items later on have at most as many timesteps. -/
lemma Shrinking.sum_take_drop_le (h : Shrinking count items) (j n : ℕ) :
    (((items.drop j).take n).map count).sum ≤ ((items.take n).map count).sum := by
  induction j generalizing items with
  | zero => exact le_rfl
  | succ j ih =>
    cases items with
    | nil => exact le_rfl
    | cons x items =>
      refine (ih (pairwise_cons.mp h).2).trans ?_
      cases n with
      | zero => exact le_rfl
      | succ n =>
        rw [take_succ_cons, take_add_one, map_append, sum_append, map_cons, sum_cons, add_comm]
        refine Nat.add_le_add_right ?_ _
        cases hn : items[n]? with
        | none => simp
        | some y => simpa using (pairwise_cons.mp h).1 y (mem_of_getElem? hn)

lemma Circle.storage_add (h : Circle count capacity added last new b) :
    (if b.storage.length ≤ b.nextIdx then b.storage ++ [x] else b.storage.set b.nextIdx x) =
      (new ++ [x]) ++ last.drop (new ++ [x]).length := by
  rw [h.storage, h.nextIdx, length_append, length_append, length_singleton]
  cases hlast : last.drop new.length with
  | nil => simp [drop_eq_nil_iff.mp hlast |>.trans (Nat.le_succ _)]
  | cons y rest =>
    have hrest : last.drop (new.length + 1) = rest := by rw [← drop_drop, hlast, drop_one, tail_cons]
    simp [hrest]

/-- A circle of smaller items is at least as long as the one before, so that every slot is reused. -/
lemma Circle.length_le (h : Circle count capacity added last new b) (hlast : Shrinking count (last ++ (new ++ [x])))
    (hfull : capacity ≤ ((new ++ [x]).map count).sum) : last.length ≤ (new ++ [x]).length := by
  by_contra! hlong
  have hlater := hlast.sum_take_drop_le last.length (new ++ [x]).length
  rw [drop_left, take_length, take_append_of_le_length hlong.le] at hlater
  have hfront : last.take (new ++ [x]).length <+ last.dropLast := by
    rw [dropLast_eq_take]
    exact (take_sublist_take_left (by omega))
  exact absurd (hfull.trans (hlater.trans (sum_le_of_sublist hfront))) (not_le.mpr h.last_lt)

lemma Circle.add (h : Circle count capacity added last new b) (hx : last ≠ [] → Shrinking count (last ++ (new ++ [x]))) :
    ∃ last' new', Circle count capacity (added ++ [x]) last' new' (b.add count capacity x) := by
  have hadded : b.numTimestepsAddedWrap + count x = ((new ++ [x]).map count).sum := by
    rw [h.timesteps, map_append, sum_append, map_singleton, sum_singleton]
  obtain ⟨older, rfl⟩ := h.latest
  unfold ReplayBuffer.add
  rw [h.storage_add, hadded, h.nextIdx]
  by_cases hfull : capacity ≤ ((new ++ [x]).map count).sum
  · rw [if_pos hfull]
    have hlong : last.length ≤ (new ++ [x]).length := by
      rcases eq_or_ne last [] with rfl | hne
      · exact Nat.zero_le _
      · exact h.length_le (hx hne) hfull
    refine ⟨new ++ [x], [], ⟨older ++ last, by simp⟩, ?_, rfl, rfl, h.new_lt.pos, ?_, .inr hfull⟩
    · simpa using hlong
    · rw [dropLast_concat]
      exact h.new_lt
  · rw [if_neg hfull]
    exact ⟨last, new ++ [x], ⟨older, by simp⟩, rfl, by simp, rfl, not_le.mp hfull, h.last_lt, h.full⟩

lemma Circle.sum_lt (h : Circle count capacity added last new b)
    (hlast : last ≠ [] → new ≠ [] → Shrinking count (last ++ new)) :
    ((last.drop new.length ++ new).dropLast.map count).sum < capacity := by
  rcases eq_or_ne new [] with rfl | hnew
  · simpa using h.last_lt
  rcases le_or_gt last.length new.length with hle | hlt
  · rw [drop_eq_nil_of_le hle, nil_append]
    exact (sum_le_of_sublist (dropLast_sublist new)).trans_lt h.new_lt
  · have hshift := (hlast (ne_nil_of_length_pos (Nat.zero_lt_of_lt hlt)) hnew).sum_take_drop_le new.length
      (last.length - 1)
    rw [drop_append_of_le_length hlt.le, take_append_of_le_length (Nat.sub_le _ 1), ← dropLast_eq_take] at hshift
    have hdrop : (last.drop new.length ++ new).dropLast = (last.drop new.length ++ new).take (last.length - 1) := by
      rw [dropLast_eq_take, length_append, length_drop, Nat.sub_add_cancel hlt.le]
    rw [hdrop]
    exact hshift.trans_lt h.last_lt

/-- A full circle has reached the capacity, so that the sizes matter from then on. -/
lemma shrinking_of_full (hfull : capacity ≤ (last.map count).sum) (hitems : last ++ new <:+ items)
    (hsizes : capacity ≤ (items.map count).sum → Shrinking count (items ++ [x])) :
    Shrinking count (last ++ (new ++ [x])) := by
  have hreached : capacity ≤ (items.map count).sum :=
    hfull.trans (sum_le_of_sublist ((sublist_append_left last new).trans hitems.sublist))
  rw [← append_assoc]
  exact (hsizes hreached).sublist (hitems.sublist.append_right [x])

/-- The stored items are the latest if the buffer has not wrapped around before the last addition, or no item is larger
than one before it. -/
theorem replay_buffer_fifo (hcapacity : 1 ≤ capacity)
    (hsizes : capacity ≤ (added.dropLast.map count).sum → Shrinking count added) :
    Fifo count capacity added (added.foldl (ReplayBuffer.add count capacity) {}).storage := by
  have hcircle : ∃ last new, Circle count capacity added last new (added.foldl (ReplayBuffer.add count capacity) {}) := by
    induction added using reverseRecOn with
    | nil => exact ⟨[], [], nil_suffix, rfl, rfl, rfl, hcapacity, hcapacity, .inl rfl⟩
    | append_singleton added x ih =>
      rw [dropLast_concat] at hsizes
      obtain ⟨last, new, h⟩ := ih fun hfull =>
        (hsizes (hfull.trans (sum_le_of_sublist (dropLast_sublist added)))).sublist (sublist_append_left _ _)
      rw [foldl_concat]
      exact h.add fun hlast => shrinking_of_full (h.full.resolve_left hlast) h.latest hsizes
  obtain ⟨last, new, h⟩ := hcircle
  have hlatest : last.drop new.length ++ new <:+ added :=
    IsSuffix.trans ⟨last.take new.length, by rw [← append_assoc, take_append_drop]⟩ h.latest
  refine ⟨_, hlatest, h.storage ▸ perm_append_comm, h.sum_lt fun hlast hnew => ?_⟩
  obtain ⟨earlier, x, rfl⟩ := (eq_nil_or_concat new).resolve_left hnew
  obtain ⟨older, rfl⟩ := h.latest
  rw [concat_eq_append, ← append_assoc, ← append_assoc, dropLast_concat] at hsizes
  exact concat_eq_append ▸ shrinking_of_full (h.full.resolve_left hlast) ⟨older, (append_assoc _ _ _).symm⟩ hsizes

theorem replay_buffer_fifo_pairs : Fifo id 4 [2, 2, 1] ([2, 2, 1].foldl (ReplayBuffer.add id 4) {}).storage :=
  replay_buffer_fifo (by decide) (by decide)

/-- Five items with their timesteps. -/
def growing : List (ℕ × ℕ) := [(0, 1), (1, 1), (2, 1), (3, 3), (4, 3)]

/-- The last two items share a slot, and two that were added before them stay. -/
theorem growing_items_not_fifo :
    (growing.foldl (ReplayBuffer.add Prod.snd 3) {}).storage = [(4, 3), (1, 1), (2, 1)] ∧
      ¬Fifo Prod.snd 3 growing (growing.foldl (ReplayBuffer.add Prod.snd 3) {}).storage := by
  have hnone : ∀ latest ∈ tails growing, ¬[(4, 3), (1, 1), (2, 1)].Perm latest := by decide
  refine ⟨by decide, ?_⟩
  rintro ⟨latest, hlatest, hperm, -⟩
  exact hnone latest ((mem_tails _ _).mpr hlatest) hperm

end AmazonRay.Rllib
