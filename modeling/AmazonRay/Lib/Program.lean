import Mathlib

/-! Programs over a state that a failed check may stop. The state reached so far survives the stop. -/
namespace AmazonRay.Program

variable {ε σ α β ι : Type} {R : σ → σ → Prop} {x : EStateM ε σ α} {E : ε → Prop}

def onlyIf (c : Prop) [Decidable c] (x : EStateM ε σ Unit) : EStateM ε σ Unit :=
  if c then x else pure ()

/-- A check of the program: it stops the run when the condition fails. -/
def check (e : ε) (c : Prop) [Decidable c] : EStateM ε σ Unit :=
  if c then pure () else throw e

def final (x : EStateM ε σ α) (s : σ) : σ :=
  match x s with
  | .ok _ t => t
  | .error _ t => t

def stopped (x : EStateM ε σ α) (s : σ) : Option ε :=
  match x s with
  | .ok _ _ => none
  | .error e _ => some e

/-- A program of a component, whose checks are some of those of the whole. -/
def within {τ ε' : Type} (view : σ → τ) (put : τ → σ → σ) (stop : ε' → ε) (x : EStateM ε' τ α) :
    EStateM ε σ α := fun s =>
  match x (view s) with
  | .ok a t => .ok a (put t s)
  | .error e t => .error (stop e) (put t s)

/-- From `P` the program returns in `Q`, or is stopped in `E`. -/
def Triple (P : σ → Prop) (x : EStateM ε σ α) (Q : α → σ → Prop) (E : ε → σ → Prop) : Prop :=
  ∀ s, P s → match x s with
    | .ok a t => Q a t
    | .error e t => E e t

abbrev Partly (P : σ → Prop) (x : EStateM ε σ α) (Q : α → σ → Prop) : Prop := Triple P x Q fun _ _ => True

abbrev Completes (s : σ) (x : EStateM ε σ α) (Q : α → σ → Prop) : Prop := Triple (fun t => t = s) x Q fun _ _ => False

abbrev Yields (s : σ) (x : EStateM ε σ α) (Q : α → σ → Prop) : Prop := Partly (fun t => t = s) x Q

section

variable {P P' : σ → Prop} {Q Q' : α → σ → Prop} {R : β → σ → Prop} {E E' : ε → σ → Prop}

variable {c : Prop} {x : EStateM ε σ α} {f : Unit → EStateM ε σ β} {e : ε} {s t : σ} {a : α}

section

variable (h : Triple P x Q E)
include h

lemma Triple.conseq (hP : ∀ s, P' s → P s)
    (hQ : ∀ a s, Q a s → Q' a s) (hE : ∀ e s, E e s → E' e s) : Triple P' x Q' E' := by
  intro s hs
  have hx := h s (hP s hs)
  revert hx
  cases x s with
  | ok a t => exact hQ a t
  | error e t => exact hE e t

lemma Triple.pre (hP : ∀ s, P' s → P s) : Triple P' x Q E := h.conseq hP (fun _ _ hq => hq) (fun _ _ he => he)

lemma Triple.post (hQ : ∀ a s, Q a s → Q' a s) : Triple P x Q' E := h.conseq (fun _ hp => hp) hQ (fun _ _ he => he)

lemma Triple.weaken (hE : ∀ e s, E e s → E' e s) : Triple P x Q E' := h.conseq (fun _ hs => hs) (fun _ _ hs => hs) hE

end

lemma Triple.given (h : c → Triple P x Q E) : Triple (fun s => P s ∧ c) x Q E := fun s hs => h hs.2 s hs.1

lemma Triple.chosen {P : ι → σ → Prop} (h : ∀ i, Triple (P i) x Q E) :
    Triple (fun s => ∃ i, P i s) x Q E := fun s ⟨i, hs⟩ => h i s hs

lemma Triple.each (h : ∀ s, P s → Triple (· = s) x Q E) : Triple P x Q E := fun s hs => h s hs s rfl

lemma Triple.anyhow (hQ : ∀ a s, Q a s) (hE : ∀ e s, E e s) :
    Triple P x Q E := by
  intro s _
  cases x s with
  | ok a t => exact hQ a t
  | error e t => exact hE e t

lemma Triple.and (h : Triple P x Q E) (h' : Triple P' x Q' E') :
    Triple (fun s => P s ∧ P' s) x (fun a s => Q a s ∧ Q' a s) E := by
  intro s hs
  have h₁ := h s hs.1
  have h₂ := h' s hs.2
  revert h₁ h₂
  cases x s with
  | ok => exact fun h₁ h₂ => ⟨h₁, h₂⟩
  | error => exact fun h₁ _ => h₁

lemma Triple.bind {f : α → EStateM ε σ β}
    (hx : Triple P x Q E) (hf : ∀ a, Triple (Q a) (f a) R E) : Triple P (x >>= f) R E := by
  intro s hs
  have h := hx s hs
  change match EStateM.bind x f s with
    | .ok a t => R a t
    | .error e t => E e t
  unfold EStateM.bind
  revert h
  cases x s with
  | ok a t => exact fun h => hf a t h
  | error => exact id

lemma Triple.seq {x : EStateM ε σ Unit} {Q : Unit → σ → Prop}
    (hx : Triple P x Q E) (hf : Triple (Q ()) (f ()) R E) : Triple P (x >>= f) R E := .bind hx fun _ => hf

/-- What a triple says of a run that returned, and of one that was stopped. -/
lemma Triple.returned (h : Triple P x Q E) (hs : P s) (hx : x s = .ok a t) : Q a t := by
  have := h s hs
  rwa [hx] at this

lemma Triple.stopped (h : Triple P x Q E) (hs : P s) (hx : stopped x s = some e) : ∃ t, E e t := by
  have hr := h s hs
  unfold Program.stopped at hx
  revert hr hx
  cases x s with
  | ok => exact nofun
  | error e' t => exact fun hx hr => ⟨t, Option.some.inj hx ▸ hr⟩

lemma Triple.returns (h : Triple P x Q fun _ _ => False) (hs : P s) : ∃ a t, x s = .ok a t ∧ Q a t := by
  have hr := h s hs
  revert hr
  cases x s with
  | ok a t => exact fun hr => ⟨a, t, rfl, hr⟩
  | error => exact fun hr => hr.elim

lemma Triple.stops (h : Triple P x (fun _ _ => False) E) {s : σ} (hs : P s) :
    ∃ e t, Program.stopped x s = some e ∧ E e t := by
  have hr := h s hs
  unfold Program.stopped
  revert hr
  cases x s with
  | ok => exact fun hr => hr.elim
  | error e t => exact fun hr => ⟨e, t, rfl, hr⟩

lemma Triple.pure (h : ∀ s, P s → Q a s) : Triple P (Pure.pure a : EStateM ε σ α) Q E := fun s hs => h s hs

lemma Triple.skip : Triple (Q a) (Pure.pure a : EStateM ε σ α) Q E := .pure fun _ h => h

lemma Triple.throw (h : ∀ s, P s → E e s) : Triple P (MonadExcept.throw e : EStateM ε σ α) Q E := fun s hs => h s hs

lemma Triple.get {Q : σ → σ → Prop} (h : ∀ s, P s → Q s s) :
    Triple P (MonadState.get : EStateM ε σ σ) Q E := fun s hs => h s hs

lemma Triple.read {f : σ → EStateM ε σ β} (h : ∀ s, P s → Triple (· = s) (f s) R E) :
    Triple P (MonadState.get >>= f) R E := by
  refine .bind (.get (Q := fun a s => a = s ∧ P s) fun s hs => ⟨rfl, hs⟩) fun a => ?_
  rintro s ⟨rfl, hs⟩
  exact h a hs a rfl

lemma Triple.set {Q : PUnit → σ → Prop} (h : ∀ s, P s → Q ⟨⟩ t) :
    Triple P (MonadStateOf.set t : EStateM ε σ PUnit) Q E := fun s hs => h s hs

lemma Triple.update {Q : PUnit → σ → Prop} {g : σ → σ} (h : ∀ s, P s → Q ⟨⟩ (g s)) :
    Triple P (modify g : EStateM ε σ PUnit) Q E := fun s hs => h s hs

section

variable {s : σ} {g : σ → σ}

lemma Triple.done {a : α} (h : Q a s) : Triple (· = s) (Pure.pure a : EStateM ε σ α) Q E := .pure fun _ ht => ht ▸ h

lemma Triple.seen {f : σ → EStateM ε σ β} (h : Triple (· = s) (f s) R E) :
    Triple (· = s) (MonadState.get >>= f) R E := .read fun _ ht => ht ▸ h

lemma Triple.updated {Q : PUnit → σ → Prop} (h : Q ⟨⟩ (g s)) :
    Triple (· = s) (modify g : EStateM ε σ PUnit) Q E := .update fun _ ht => ht ▸ h

lemma Triple.modified {f : PUnit → EStateM ε σ β} (h : Triple (fun t => t = g s) (f ⟨⟩) R E) :
    Triple (· = s) (modify g >>= f) R E := .bind (.updated rfl) fun _ => h

/-- The call of a program, followed from each of the states it may return in. -/
lemma Triple.call {x : EStateM ε σ α} {f : α → EStateM ε σ β} (hx : Triple P x Q E)
    (hf : ∀ a t, Q a t → Triple (· = t) (f a) R E) : Triple P (x >>= f) R E :=
  .bind hx fun a => .each (hf a)

end

lemma Triple.within {τ ε' : Type} {view : σ → τ} {put : τ → σ → σ} {stop : ε' → ε}
    {x : EStateM ε' τ α} (h : ∀ s, P s → Triple (fun t => t = view s) x (fun a t => Q a (put t s))
      fun e t => E (stop e) (put t s)) : Triple P (within view put stop x) Q E := by
  intro s hs
  have hx := h s hs (view s) rfl
  unfold Program.within
  revert hx
  cases x (view s) <;> exact id

lemma Triple.ite [Decidable c] {y : EStateM ε σ α} (hx : c → Triple P x Q E) (hy : ¬ c → Triple P y Q E) :
    Triple P (if c then x else y) Q E := by
  by_cases hc : c
  · simpa only [if_pos hc] using hx hc
  · simpa only [if_neg hc] using hy hc

lemma Triple.onlyIf [Decidable c] {x : EStateM ε σ Unit} {Q : Unit → σ → Prop}
    (hx : c → Triple P x Q E) (hn : ¬ c → ∀ s, P s → Q () s) : Triple P (onlyIf c x) Q E :=
  .ite hx fun hc => .pure (hn hc)

lemma Triple.check [Decidable c] {Q : Unit → σ → Prop} (hc : c → ∀ s, P s → Q () s) (hn : ¬ c → ∀ s, P s → E e s) :
    Triple P (check e c : EStateM ε σ Unit) Q E :=
  .ite (fun h => .pure (hc h)) fun h => .throw (hn h)

lemma Triple.checked [Decidable c] (hn : ¬ c → ∀ s, P s → E e s) :
    Triple P (Program.check e c : EStateM ε σ Unit) (fun _ s => P s ∧ c) E :=
  .check (fun hc _ hs => ⟨hs, hc⟩) hn

lemma Triple.tested [Decidable c] (hn : ∀ s, P s → E e s) :
    Triple P (Program.check e c : EStateM ε σ Unit) (fun _ => P) E :=
  .check (fun _ _ hs => hs) fun _ => hn

lemma Triple.testing [Decidable c] (h : Partly P (f ()) R) :
    Partly P (Program.check e c >>= f) R := .seq (.tested fun _ _ => trivial) h

lemma Triple.passed [Decidable c] (hc : c) : Triple P (Program.check e c : EStateM ε σ Unit) (fun _ => P) E :=
  .check (fun _ _ hs => hs) fun hn => absurd hc hn

lemma Triple.passing [Decidable c] (hc : c) (h : Triple P (f ()) R E) : Triple P (Program.check e c >>= f) R E :=
  .bind (.passed hc) fun _ => h

lemma Triple.when [Decidable c] {x : EStateM ε σ Unit} {Q : Unit → σ → Prop}
    (hx : c → Triple (· = s) x Q E) (hn : ¬ c → Q () s) :
    Triple (· = s) (Program.onlyIf c x) Q E := .onlyIf hx fun hc _ ht => ht ▸ hn hc

/-- A loop, with an invariant over the part of the list still to be done. -/
lemma Triple.forM {f : ι → EStateM ε σ Unit} {I : List ι → σ → Prop}
    (hf : ∀ i l, Triple (I (i :: l)) (f i) (fun _ => I l) E) (l : List ι) :
    Triple (I l) (l.forM f) (fun _ => I []) E := by
  induction l with
  | nil => exact .pure fun _ h => h
  | cons i l ih => exact .bind (hf i l) fun _ => ih

lemma Triple.forM_mem {f : ι → EStateM ε σ Unit} {l : List ι} (hf : ∀ i ∈ l, Triple P (f i) (fun _ => P) E) :
    Triple P (l.forM f) (fun _ => P) E := by
  induction l with
  | nil => exact .pure fun _ h => h
  | cons i l ih => exact .bind (hf i List.mem_cons_self) fun _ => ih fun j hj => hf j (List.mem_cons_of_mem i hj)

lemma Triple.foldlM {f : β → ι → EStateM ε σ β} {I : List ι → β → σ → Prop}
    (hf : ∀ b i l, Triple (I (i :: l) b) (f b i) (fun b' => I l b') E) (l : List ι) (b : β) :
    Triple (I l b) (l.foldlM f b) (fun b' => I [] b') E := by
  induction l generalizing b with
  | nil => exact .pure fun _ h => h
  | cons i l ih => exact .bind (hf b i l) fun b' => ih b'

/-- An invariant of the elements that are done. -/
lemma Triple.foldlM_done {f : β → ι → EStateM ε σ β} {I : List ι → β → σ → Prop} {l : List ι}
    (hf : ∀ b done i rest, l = done ++ i :: rest → Triple (I done b) (f b i) (fun b' => I (done ++ [i]) b') E) (b : β) :
    Triple (I [] b) (l.foldlM f b) (fun b' => I l b') E := by
  have hrest : ∀ rest done b, l = done ++ rest → Triple (I done b) (rest.foldlM f b) (fun b' => I l b') E := by
    intro rest
    induction rest with
    | nil =>
      intro done b hl
      rw [List.append_nil] at hl
      exact .pure fun _ h => hl ▸ h
    | cons i rest ih =>
      exact fun done b hl => .bind (hf b done i rest hl) fun b' => ih _ b' (hl.trans (List.append_cons _ _ _))
  exact hrest l [] b rfl

lemma notMem_of_nodup {l done rest : List ι} {i : ι} (hl : l.Nodup) (hdone : l = done ++ i :: rest) : i ∉ done := by
  subst hdone
  exact fun hmem => (List.nodup_append.mp hl).2.2 i hmem i List.mem_cons_self rfl

end

/-- Whatever the outcome, the program moves the state along the relation. -/
def Moves (R : σ → σ → Prop) (x : EStateM ε σ α) : Prop := ∀ s, R s (final x s)

section

variable {R : σ → σ → Prop} {x : EStateM ε σ α}

lemma moves_of_triple (h : ∀ s, Triple (· = s) x (fun _ t => R s t) (fun _ t => R s t)) : Moves R x := by
  intro s
  have hx := h s s rfl
  unfold final
  revert hx
  cases x s <;> exact id

lemma Moves.update {g : σ → σ} (h : ∀ s, R s (g s)) : Moves R (modify g : EStateM ε σ PUnit) := h

/-- What the program can do at most is added to what is proved of it. -/
lemma Triple.frame {P : σ → Prop} {Q : α → σ → Prop} {E : ε → σ → Prop} (h : Triple P x Q E) (hR : Moves R x) :
    Triple P x (fun a t => Q a t ∧ ∃ s, P s ∧ R s t) E := by
  intro s hs
  have hx := h s hs
  have hm := hR s
  unfold final at hm
  revert hx hm
  cases x s with
  | ok => exact fun hx hm => ⟨hx, s, hs, hm⟩
  | error => exact fun hx _ => hx

variable [IsPreorder σ R]

lemma Moves.bind {f : α → EStateM ε σ β} (hx : Moves R x) (hf : ∀ a, Moves R (f a)) : Moves R (x >>= f) := by
  intro s
  have h := hx s
  change R s (match EStateM.bind x f s with
    | .ok _ t => t
    | .error _ t => t)
  unfold EStateM.bind
  unfold final at h
  cases hxs : x s with
  | ok a t =>
    rw [hxs] at h
    exact trans_of R h (hf a t)
  | error =>
    rw [hxs] at h
    exact h

lemma Moves.skip (hx : ∀ s, final x s = s) :
    Moves R x := fun s => by
  rw [hx s]
  exact refl_of R s

end

/-- A property of programs that composes. -/
structure Composes (K : (α : Type) → EStateM ε σ α → Prop) : Prop where
  pure : ∀ {α : Type} (a : α), K α (pure a)
  bind : ∀ {α β : Type} {x : EStateM ε σ α} {f : α → EStateM ε σ β},
    K α x → (∀ a, K β (f a)) → K β (x >>= f)

namespace Composes

variable {K : (α : Type) → EStateM ε σ α → Prop} {x : EStateM ε σ α}

lemma ite (_ : Composes K) [Decidable c] {y : EStateM ε σ α} (hx : c → K α x)
    (hy : ¬ c → K α y) : K α (if c then x else y) := by
  by_cases hc : c
  · simpa only [if_pos hc] using hx hc
  · simpa only [if_neg hc] using hy hc

variable (h : Composes K)
include h

lemma seq {y : EStateM ε σ β} (hx : K α x) (hy : K β y) : K β (x >>= fun _ => y) := h.bind hx fun _ => hy

lemma onlyIf [Decidable c] {x : EStateM ε σ Unit}
    (hx : c → K Unit x) : K Unit (onlyIf c x) := h.ite hx fun _ => h.pure ()

lemma forM {f : ι → EStateM ε σ Unit} (hf : ∀ i, K Unit (f i)) (l : List ι) : K PUnit (l.forM f) := by
  induction l with
  | nil => exact h.pure ()
  | cons i l ih => exact h.bind (hf i) fun _ => ih

lemma foldlM {f : β → ι → EStateM ε σ β} (hf : ∀ b i, K β (f b i)) (l : List ι) (b : β) : K β (l.foldlM f b) := by
  induction l generalizing b with
  | nil => exact h.pure b
  | cons i l ih => exact h.bind (hf b i) fun b' => ih b'

end Composes

/-- What a program keeps, and how it may be stopped while it holds. -/
lemma composes_triple (P : σ → Prop) (E : ε → σ → Prop) :
    Composes fun α (x : EStateM ε σ α) => Triple P x (fun _ => P) E where
  pure _ := .pure fun _ h => h
  bind hx hf := .bind hx hf

lemma composes_moves (R : σ → σ → Prop) [IsPreorder σ R] : Composes fun α (x : EStateM ε σ α) => Moves R x where
  pure _ := Moves.skip fun _ => rfl
  bind := Moves.bind

/-- A run that returns moves the state along the relation; others are stopped by checks of the given kind. -/
def Steps (R : σ → σ → Prop) (E : ε → Prop) (x : EStateM ε σ α) : Prop :=
  ∀ s, Triple (fun t => t = s) x (fun _ t => R s t) fun e _ => E e

lemma Steps.mono {R' : σ → σ → Prop} {E' : ε → Prop} (h : Steps R E x)
    (hR : ∀ s t, R s t → R' s t) (hE : ∀ e, E e → E' e) : Steps R' E' x :=
  fun s => (h s).conseq (fun _ ht => ht) (fun _ t => hR s t) fun e _ => hE e

/-- A property that the relation carries along holds after the program. -/
lemma Steps.triple {P : σ → Prop} {Q : α → σ → Prop} (h : Steps R E x) (hQ : ∀ s a t, P s → R s t → Q a t) :
    Triple P x Q fun e _ => E e :=
  fun s hs => (h s).post (fun a t => hQ s a t hs) s rfl

lemma composes_steps (R : σ → σ → Prop) [IsPreorder σ R] (E : ε → Prop) :
    Composes fun α (x : EStateM ε σ α) => Steps R E x where
  pure _ s := .pure fun _ ht => ht ▸ refl_of R s
  bind hx hf s := .bind (hx s) fun a => (hf a).triple fun _ _ _ hs ht => trans_of R hs ht

end AmazonRay.Program
