import Mathlib

/-! A log says which handles were acquired and released. Slots keep the handles that are out; one with `0` keeps none.
-/
namespace AmazonRay.Handles
open List Function

inductive Event where
  | acquired (h : ℕ)
  | released (h : ℕ)
  deriving DecidableEq, Repr

def record (out : List ℕ) : Event → List ℕ
  | .acquired h => h :: out
  | .released h => out.filter (· ≠ h)

def outstanding (log : List Event) : List ℕ := log.foldl record []

def Sound (log : List Event) : Prop :=
  ∀ before h after, log = before ++ .released h :: after → h ∈ outstanding before

variable {log : List Event} {e : Event} {h : ℕ}

lemma outstanding_concat (log : List Event) (e : Event) : outstanding (log ++ [e]) = record (outstanding log) e :=
  foldl_append

lemma sound_nil : Sound [] := by
  intro before h after heq
  cases before <;> cases heq

lemma sound_concat : Sound (log ++ [e]) ↔ Sound log ∧ ∀ h, e = .released h → h ∈ outstanding log := by
  constructor
  · intro hsound
    constructor
    · intro before h after heq
      refine hsound before h (after ++ [e]) ?_
      rw [heq, append_assoc, cons_append]
    · intro h he
      exact hsound log h [] (he ▸ rfl)
  · rintro ⟨hsound, hlast⟩ before h after heq
    rcases eq_nil_or_concat after with rfl | ⟨after, last, rfl⟩
    · obtain ⟨rfl, hsingle⟩ := append_inj' heq rfl
      exact hlast h (singleton_inj.mp hsingle)
    · rw [concat_eq_append, ← cons_append, ← append_assoc] at heq
      obtain ⟨rfl, -⟩ := append_inj' heq rfl
      exact hsound before h after rfl

variable {κ : Type} {slots : κ → ℕ} {next : ℕ} {k : κ}

/-- The slots keep the handles that are out, one each. -/
structure Kept (slots : κ → ℕ) (next : ℕ) (log : List Event) : Prop where
  sound : Sound log
  kept : ∀ h, h ∈ outstanding log ↔ h ≠ 0 ∧ ∃ k, slots k = h
  distinct : ∀ k k', slots k = slots k' → slots k ≠ 0 → k = k'
  fresh : ∀ k, slots k < next

lemma Kept.pos (hkept : Kept slots next log) (k : κ) : 0 < next := Nat.zero_lt_of_lt (hkept.fresh k)

lemma kept_nil : Kept (fun _ : κ => 0) 1 [] where
  sound := sound_nil
  kept _ := ⟨nofun, fun hkept => absurd hkept.2.choose_spec.symm hkept.1⟩
  distinct _ _ _ hne := absurd rfl hne
  fresh _ := Nat.one_pos

variable [DecidableEq κ]

variable (hkept : Kept slots next log)
include hkept

lemma Kept.acquire (hk : slots k = 0) : Kept (update slots k next) (next + 1) (log ++ [.acquired next]) where
  sound := sound_concat.mpr ⟨hkept.sound, nofun⟩
  kept h := by
    have hne : next ≠ 0 := Nat.pos_iff_ne_zero.mp (hkept.pos k)
    rw [outstanding_concat, record, mem_cons, hkept.kept]
    constructor
    · rintro (rfl | ⟨h0, j, rfl⟩)
      · exact ⟨hne, k, update_self k _ slots⟩
      · have hj : j ≠ k := fun hj => h0 (hj ▸ hk)
        exact ⟨h0, j, update_of_ne hj next slots⟩
    · rintro ⟨h0, j, rfl⟩
      by_cases hj : j = k
      · subst hj
        exact .inl (update_self j next slots)
      · rw [update_of_ne hj] at h0 ⊢
        exact .inr ⟨h0, j, rfl⟩
  distinct j j' heq hne := by
    by_cases hj : j = k <;> by_cases hj' : j' = k
    · exact hj.trans hj'.symm
    · rw [hj, update_self, update_of_ne hj'] at heq
      exact absurd heq (Nat.ne_of_gt (hkept.fresh j'))
    · rw [hj', update_self, update_of_ne hj] at heq
      exact absurd heq (Nat.ne_of_lt (hkept.fresh j))
    · rw [update_of_ne hj] at heq hne
      rw [update_of_ne hj'] at heq
      exact hkept.distinct j j' heq hne
  fresh j := by
    by_cases hj : j = k
    · rw [hj, update_self]
      exact Nat.lt_succ_self next
    · rw [update_of_ne hj]
      exact Nat.lt_succ_of_lt (hkept.fresh j)

lemma Kept.release (hk : slots k ≠ 0) : Kept (update slots k 0) next (log ++ [.released (slots k)]) where
  sound := by
    refine sound_concat.mpr ⟨hkept.sound, fun h he => ?_⟩
    cases he
    exact (hkept.kept _).mpr ⟨hk, k, rfl⟩
  kept h := by
    rw [outstanding_concat, record, mem_filter, hkept.kept, decide_eq_true_eq]
    constructor
    · rintro ⟨⟨h0, j, rfl⟩, hother⟩
      have hj : j ≠ k := fun hj => hother (hj ▸ rfl)
      exact ⟨h0, j, update_of_ne hj 0 slots⟩
    · rintro ⟨h0, j, rfl⟩
      by_cases hj : j = k
      · rw [hj, update_self] at h0
        exact absurd rfl h0
      · rw [update_of_ne hj] at h0 ⊢
        exact ⟨⟨h0, j, rfl⟩, fun heq => hj (hkept.distinct j k heq h0)⟩
  distinct j j' heq hne := by
    by_cases hj : j = k
    · rw [hj, update_self] at hne
      exact absurd rfl hne
    · by_cases hj' : j' = k
      · rw [hj', update_self] at heq
        exact absurd heq hne
      · rw [update_of_ne hj] at heq hne
        rw [update_of_ne hj'] at heq
        exact hkept.distinct j j' heq hne
  fresh j := by
    by_cases hj : j = k
    · rw [hj, update_self]
      exact hkept.pos k
    · rw [update_of_ne hj]
      exact hkept.fresh j

lemma Kept.replace (hk : slots k ≠ 0) :
    Kept (update slots k next) (next + 1) (log ++ [.acquired next] ++ [.released (slots k)]) := by
  have hswapped := (hkept.release hk).acquire (update_self k 0 slots)
  rw [update_idem] at hswapped
  have hne : next ≠ slots k := Nat.ne_of_gt (hkept.fresh k)
  refine ⟨?_, fun h => ?_, hswapped.distinct, hswapped.fresh⟩
  · refine sound_concat.mpr ⟨sound_concat.mpr ⟨hkept.sound, nofun⟩, fun h he => ?_⟩
    cases he
    rw [outstanding_concat]
    exact mem_cons_of_mem _ ((hkept.kept _).mpr ⟨hk, k, rfl⟩)
  · refine Iff.trans ?_ (hswapped.kept h)
    rw [outstanding_concat, outstanding_concat, outstanding_concat, outstanding_concat, record, record, record, record,
      filter_cons, if_pos (decide_eq_true hne)]

end AmazonRay.Handles
