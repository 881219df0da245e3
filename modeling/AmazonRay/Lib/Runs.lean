import AmazonRay.Lib.Program

/-! A system is given by the programs of its steps. A run takes allowed steps, and ends with the first that is stopped.
-/
namespace AmazonRay.Program

variable {ε σ ι α β : Type} {run : ι → EStateM ε σ Unit} {Allowed : ι → σ → Prop} {start s t : σ} {x : EStateM ε σ α} {ops : List ι} {f : σ → β}

inductive Reaches (run : ι → EStateM ε σ Unit) (Allowed : ι → σ → Prop) (start : σ) : σ → Prop
  | start : Reaches run Allowed start start
  | step {s t : σ} {op : ι} : Reaches run Allowed start s → Allowed op s → run op s = .ok () t →
    Reaches run Allowed start t

/-- What the start has and every allowed step keeps holds in every state of a run. -/
lemma Reaches.invariant {I : σ → Prop} {E : ε → σ → Prop} (h₀ : I start)
    (hstep : ∀ op s, Allowed op s → I s → Triple (· = s) (run op) (fun _ => I) E)
    (h : Reaches run Allowed start s) : I s := by
  induction h with
  | start => exact h₀
  | step _ ha hrun ih => exact (hstep _ _ ha ih).returned rfl hrun

/-- The state after the steps, if they are all allowed and return. -/
def runAll (run : ι → EStateM ε σ Unit) (Allowed : ι → σ → Prop) [∀ op s, Decidable (Allowed op s)] :
    List ι → σ → Option σ
  | [], s => some s
  | op :: ops, s =>
    if Allowed op s then
      match run op s with
      | .ok _ t => runAll run Allowed ops t
      | .error _ _ => none
    else none

lemma Reaches.runAll [∀ op s, Decidable (Allowed op s)]
    (h : Reaches run Allowed start s) (hr : Program.runAll run Allowed ops s = some t) :
    Reaches run Allowed start t := by
  induction ops generalizing s with
  | nil =>
    cases hr
    exact h
  | cons op ops ih =>
    unfold Program.runAll at hr
    split at hr
    case isFalse => cases hr
    case isTrue ha =>
      split at hr
      case h_1 _ u hu => exact ih (h.step ha hu) hr
      · cases hr

lemma exists_reaches [∀ op s, Decidable (Allowed op s)] {v : β} (h : (runAll run Allowed ops start).map f = some v) :
    ∃ s, Reaches run Allowed start s ∧ f s = v := by
  obtain ⟨s, hs, hv⟩ := Option.map_eq_some_iff.mp h
  exact ⟨s, Reaches.start.runAll hs, hv⟩

lemma exists_after [∀ op s, Decidable (Allowed op s)] {P : σ → Prop} (ops : List ι) (f : σ → β) (v : β)
    (h : (runAll run Allowed ops start).map f = some v) (hP : ∀ s, Reaches run Allowed start s → f s = v → P s) :
    ∃ s, Reaches run Allowed start s ∧ P s := by
  obtain ⟨s, hs, hv⟩ := exists_reaches h
  exact ⟨s, hs, hP s hs hv⟩

def outcome (x : EStateM ε σ α) (s : σ) : Option σ :=
  match x s with
  | .ok _ t => some t
  | .error _ _ => none

lemma exists_outcome {v : β} (h : (outcome x s).map f = some v) : ∃ a t, x s = .ok a t ∧ f t = v := by
  obtain ⟨t, ht, hv⟩ := Option.map_eq_some_iff.mp h
  unfold outcome at ht
  split at ht
  case h_1 a u hu =>
    cases ht
    exact ⟨a, t, hu, hv⟩
  · cases ht

def returnedValue (x : EStateM ε σ α) (s : σ) : Option α :=
  match x s with
  | .ok a _ => some a
  | .error _ _ => none

lemma exists_returnedValue {a : α} (h : returnedValue x s = some a) : ∃ t, x s = .ok a t := by
  unfold returnedValue at h
  split at h
  case h_1 b u hu =>
    cases h
    exact ⟨u, hu⟩
  · cases h

section

variable {apply : σ → ι → σ} {I : σ → Prop} {K : σ → ι → Prop}

lemma throughout (h₀ : I start)
    (hstep : ∀ done op, done ++ [op] <+: ops → I (done.foldl apply start) → I (apply (done.foldl apply start) op)) :
    ∀ done, done <+: ops → I (done.foldl apply start) := by
  intro done
  induction done using List.reverseRecOn with
  | nil => exact fun _ => h₀
  | append_singleton done op ih =>
    intro hprefix
    rw [List.foldl_concat]
    exact hstep done op hprefix (ih ((List.prefix_append done [op]).trans hprefix))

/-- If a step keeps the invariant just under a condition, the invariant holds throughout a
run just if every step meets the condition. -/
lemma throughout_iff (h₀ : I start)
    (hstep : ∀ (done : List ι) op, I (done.foldl apply start) →
      (I (apply (done.foldl apply start) op) ↔ K (done.foldl apply start) op)) :
    (∀ done, done <+: ops → I (done.foldl apply start)) ↔
      ∀ done op, done ++ [op] <+: ops → K (done.foldl apply start) op := by
  constructor
  · intro h done op hprefix
    have hafter := h _ hprefix
    rw [List.foldl_concat] at hafter
    exact (hstep done op (h done ((List.prefix_append done [op]).trans hprefix))).mp hafter
  · intro h
    exact throughout h₀ fun done op hprefix hbefore => (hstep done op hbefore).mpr (h done op hprefix)

lemma along_nil : ∀ done op, done ++ [op] <+: [] → K (done.foldl apply start) op :=
  fun _ _ hprefix => absurd (List.prefix_nil.mp hprefix) (by simp)

lemma along_cons {op : ι} (h : K start op)
    (hops : ∀ done next, done ++ [next] <+: ops → K (done.foldl apply (apply start op)) next) :
    ∀ done next, done ++ [next] <+: op :: ops → K (done.foldl apply start) next := by
  intro done next hprefix
  cases done with
  | nil =>
    obtain ⟨rfl, -⟩ := List.cons_prefix_cons.mp hprefix
    exact h
  | cons first done =>
    obtain ⟨rfl, hrest⟩ := List.cons_prefix_cons.mp hprefix
    exact hops done next hrest

end

end AmazonRay.Program
