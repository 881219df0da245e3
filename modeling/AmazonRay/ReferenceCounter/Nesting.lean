import AmazonRay.ReferenceCounter.Shrinking

/-! The two-way index between outer and inner objects, and when it holds. -/
namespace AmazonRay.ReferenceCounter
open Program Reference

variable {τ : Type} {r' r : Reference}

def Reference.containers (r : Reference) : Bool → List ObjectID
  | true => r.containedInOwned
  | false => r.containedInBorrowedIds

/-- The steps under which the index is kept. The out-of-scope branch does not run again for an entry that it has
un-nested, nor are its borrowers collected. Nothing is put under an object kept only for its lineage, a lineage release
never reaches an object being released, and a borrowed id is popped only while pinned for the task. Under `strict`, a
lineage release never takes the last reference of an owned object that cannot be reconstructed while it is pinned or
contains ids. -/
def Event.Regular (strict pinning : Bool) : Event → Prop
  | .unnest _ _ _ again => again = false
  | .collect _ again => again = false
  | .nest _ ref => ¬ (ref.outOfScope pinning = true ∧ 0 < ref.lineageRefCount)
  | .releaseArgument id ref releasing => id ∉ releasing ∧
      (strict = true → ref.ownedByUs = true → ref.isReconstructable = false →
        ref.onDelete = false ∧ ref.contains = [])
  | .pop _ none => True
  | .pop _ (some ref) => 0 < ref.localRefCount
  | .erase _ _ _ => True

/-- An object that leaves the scope is counted by the ids in it, and outer objects have entries. Under `strict`, an
erased entry is unpinned and its nesting uncounted. -/
def Event.Sound (strict : Bool) : Event → Prop
  | .unnest id ref table _ =>
      (∀ y ∈ ref.contains, ∀ inner, table.lookup y = some inner →
        id ∈ inner.containers ref.ownedByUs) ∧
      ∀ y inner, table.lookup y = some inner → ∀ x ∈ inner.containedInBorrowedIds,
        table.lookup x ≠ none
  | .erase id ref rest => strict = true → ref.onDelete = false ∧
      ∀ y inner, rest.lookup y = some inner →
        id ∉ inner.containedInOwned ∧ id ∉ inner.containedInBorrowedIds
  | _ => True

instance (strict pinning : Bool) (e : Event) : Decidable (e.Regular strict pinning) := by
  unfold Event.Regular
  split <;> infer_instance

def State.Regular (strict pinning : Bool) (s : State τ) : Prop :=
  ∀ e ∈ s.history, e.Regular strict pinning

instance (strict pinning : Bool) (s : State τ) : Decidable (s.Regular strict pinning) :=
  inferInstanceAs (Decidable (∀ e ∈ s.history, e.Regular strict pinning))

def State.Sound (strict : Bool) (s : State τ) : Prop := ∀ e ∈ s.history, e.Sound strict

/-- How far the releases in progress have come: the calls on the stack, those that have left the scope, the ids still
linked to an entry whose links change, and the entry about to be deleted. -/
structure Progress where
  stack : List ObjectID := []
  leaving : List ObjectID := []
  links : ObjectID → Option (List ObjectID) := fun _ => none
  due : Option ObjectID := none

def Progress.linked (p : Progress) (x : ObjectID) (r : Reference) : List ObjectID :=
  (p.links x).getD r.contains

/-- Whoever names an outer object is listed by it, on the side the object belongs to; the owned side under `strict`
only. -/
def Listed (strict : Bool) (s : State τ) : Prop :=
  ∀ side, (strict = true ∨ side = false) → ∀ y i, s.refs.lookup y = some i →
    ∀ x ∈ i.containers side, ∃ r, s.refs.lookup x = some r ∧ r.ownedByUs = side ∧ y ∈ r.contains

def Free (strict : Bool) (id : ObjectID) (s : State τ) : Prop :=
  ∀ side, (strict = true ∨ side = false) → ∀ y i, s.refs.lookup y = some i →
    id ∉ i.containers side

/-- The index in a state, given the releases in progress. -/
structure Nesting (strict pinning : Bool) (p : Progress) (s : State τ) : Prop where
  stack : s.releasing = p.stack
  tracked : p.leaving ⊆ p.stack
  nodup : ∀ x r, s.refs.lookup x = some r → r.contains.Nodup
  listed : Listed strict s
  nested : ∀ x r, s.refs.lookup x = some r → ∀ y ∈ p.linked x r,
    (p.links x = none → (x, y) ∉ s.unnested) → ∃ i, s.refs.lookup y = some i ∧ x ∈ i.containers r.ownedByUs
  kept : ∀ x r, s.refs.lookup x = some r → p.due ≠ some x → x ∉ p.leaving →
    r.outOfScope pinning = true → 0 < r.lineageRefCount →
    pinning = true ∧ r.onDelete = false ∧ Free strict x s
  held : ∀ x ∈ p.leaving, ∃ r, s.refs.lookup x = some r ∧ r.outOfScope pinning = true

/-- A triple about runs whose steps so far were all regular. -/
def Spec (strict pinning : Bool) {α : Type} (P : State τ → Prop) (x : RefM τ α)
    (Q : α → State τ → Prop) : Prop :=
  Triple (fun s => s.Regular strict pinning → s.Sound strict ∧ P s) x
    (fun a s => s.Regular strict pinning → s.Sound strict ∧ Q a s)
    (fun e s => s.Regular strict pinning → s.Sound strict ∧ e.isNesting = false)

section

variable {strict pinning : Bool} {α β ι : Type} {P P' : State τ → Prop} {Q Q' : α → State τ → Prop} {x : RefM τ α} {id : ObjectID} {c : Prop} {R : β → State τ → Prop} {f : ι → RefM τ Unit} {e : Check} {I : State τ → Prop} {l : List ι}

lemma Spec.pre (h : Spec strict pinning P x Q) (hP : ∀ s, P' s → P s) :
    Spec strict pinning P' x Q := Triple.pre h fun s hs hr => ⟨(hs hr).1, hP s (hs hr).2⟩

lemma Spec.post (h : Spec strict pinning P x Q) (hQ : ∀ a s, Q a s → Q' a s) :
    Spec strict pinning P x Q' := Triple.post h fun a s hs hr => ⟨(hs hr).1, hQ a s (hs hr).2⟩

lemma Spec.bind {f : α → RefM τ β} (hx : Spec strict pinning P x Q) (hf : ∀ a, Spec strict pinning (Q a) (f a) R) :
    Spec strict pinning P (x >>= f) R := Triple.bind hx hf

lemma Spec.seq {x : RefM τ Unit} {f : Unit → RefM τ β} {Q : Unit → State τ → Prop}
    (hx : Spec strict pinning P x Q) (hf : Spec strict pinning (Q ()) (f ()) R) :
    Spec strict pinning P (x >>= f) R := .bind hx fun _ => hf

lemma Spec.pure {a : α} (h : ∀ s, P s → Q a s) : Spec strict pinning P (Pure.pure a : RefM τ α) Q :=
  Triple.pure fun s hs hr => ⟨(hs hr).1, h s (hs hr).2⟩

lemma Spec.throw (h : e.isNesting = false ∨ ∀ s, ¬ P s) : Spec strict pinning P (MonadExcept.throw e : RefM τ α) Q :=
  Triple.throw fun s hs hr => ⟨(hs hr).1, h.elim id fun h => absurd (hs hr).2 (h s)⟩

lemma Spec.modify {g : State τ → State τ} {Q : PUnit → State τ → Prop}
    (hh : ∀ s, (g s).history = s.history) (h : ∀ s, P s → Q ⟨⟩ (g s)) :
    Spec strict pinning P (modify g : RefM τ PUnit) Q := by
  refine .update fun s hs hr => ?_
  simp only [State.Regular, State.Sound, hh] at hs hr ⊢
  exact ⟨(hs hr).1, h s (hs hr).2⟩

lemma Spec.ite [Decidable c] {y : RefM τ α} (hx : c → Spec strict pinning P x Q)
    (hy : ¬ c → Spec strict pinning P y Q) : Spec strict pinning P (if c then x else y) Q :=
  Triple.ite hx hy

lemma Spec.onlyIf [Decidable c] {x : RefM τ Unit} {Q : Unit → State τ → Prop}
    (hx : c → Spec strict pinning P x Q) (hn : ¬ c → ∀ s, P s → Q () s) :
    Spec strict pinning P (Program.onlyIf c x) Q :=
  .ite hx fun hc => .pure (hn hc)

lemma Spec.check [Decidable c] {Q : Unit → State τ → Prop}
    (hc : c → ∀ s, P s → Q () s) (he : e.isNesting = false ∨ ∀ s, P s → c) :
    Spec strict pinning P (Program.check e c) Q :=
  .ite (fun h => .pure (hc h)) fun hn => .throw (he.imp_right fun he s hs => hn (he s hs))

lemma Spec.check_keep [Decidable c] (he : e.isNesting = false) :
    Spec strict pinning P (Program.check e c) fun _ => P := .check (fun _ _ h => h) (.inl he)

lemma Spec.forM {I : List ι → State τ → Prop}
    (hf : ∀ i l, Spec strict pinning (I (i :: l)) (f i) fun _ => I l) (l : List ι) :
    Spec strict pinning (I l) (l.forM f) fun _ => I [] := by
  induction l with
  | nil => exact .pure fun _ h => h
  | cons i l ih => exact .seq (hf i l) ih

lemma Spec.forM_mem (hf : ∀ i ∈ l, Spec strict pinning I (f i) fun _ => I) :
    Spec strict pinning I (l.forM f) fun _ => I := by
  induction l with
  | nil => exact .pure fun _ h => h
  | cons i l ih =>
    obtain ⟨hi, hl⟩ := List.forall_mem_cons.mp hf
    exact .seq hi (ih hl)

lemma Spec.foldlM_mem {f : β → ι → RefM τ β} (hf : ∀ i ∈ l, ∀ b, Spec strict pinning I (f b i) fun _ => I) (b : β) :
    Spec strict pinning I (l.foldlM f b) fun _ => I := by
  induction l generalizing b with
  | nil => exact .pure fun _ h => h
  | cons i l ih =>
    obtain ⟨hi, hl⟩ := List.forall_mem_cons.mp hf
    exact .bind (hi b) fun b' => ih hl b'

lemma Spec.get {Q : State τ → State τ → Prop} (h : ∀ s, P s → Q s s) :
    Spec strict pinning P (MonadState.get : RefM τ (State τ)) Q :=
  Triple.get fun s hs hr => ⟨(hs hr).1, h s (hs hr).2⟩

lemma Spec.find {Q : Option Reference → State τ → Prop}
    (h : ∀ s, P s → Q (s.refs.lookup id) s) : Spec strict pinning P (find id) Q :=
  triple_find fun s hs hr => ⟨(hs hr).1, h s (hs hr).2⟩

lemma Spec.deref {Q : Reference → State τ → Prop} (h : ∀ s ref, P s → s.refs.lookup id = some ref → Q ref s) :
    Spec strict pinning P (deref id) Q :=
  triple_deref (fun s ref hs href hr => ⟨(hs hr).1, h s ref (hs hr).2 href⟩) fun _ hs _ hr => ⟨(hs hr).1, rfl⟩

lemma Spec.update {f : Reference → Reference} {Q : Unit → State τ → Prop}
    (h : ∀ s ref, P s → s.refs.lookup id = some ref → Q () (s.withEntry id (f ref))) :
    Spec strict pinning P (update id f) Q :=
  triple_update (fun s ref hs href hr => ⟨(hs hr).1, h s ref (hs hr).2 href⟩) fun _ hs _ hr => ⟨(hs hr).1, rfl⟩

lemma Spec.findOrEmplace {Q : Reference → State τ → Prop} (h : ∀ s ref, P s → s.refs.lookup id = some ref → Q ref s)
    (hn : ∀ s, P s → s.refs.lookup id = none → Q {} (s.withEntry id {})) :
    Spec strict pinning P (findOrEmplace id) Q :=
  triple_findOrEmplace (fun s ref hs href hr => ⟨(hs hr).1, h s ref (hs hr).2 href⟩)
    fun s hs hnone hr => ⟨(hs hr).1, hn s (hs hr).2 hnone⟩

lemma Spec.record {e : State τ → Event} {Q : Unit → State τ → Prop}
    (he : ∀ s, P s → (e s).Regular strict pinning → (e s).Sound strict)
    (h : ∀ s, P s → (e s).Regular strict pinning → Q () { s with history := e s :: s.history }) :
    Spec strict pinning P (record e) Q := by
  refine Triple.update fun s hs hr => ?_
  have hc := hs fun e' he' => hr e' (List.mem_cons_of_mem _ he')
  have hreg := hr _ List.mem_cons_self
  exact ⟨List.forall_mem_cons.mpr ⟨he s hc.2 hreg, hc.1⟩, h s hc.2 hreg⟩

lemma Spec.frame {F : State τ → Prop} (h : Spec strict pinning P x Q)
    (hm : Moves (Shrinks pinning) x) (hF : ∀ s t, Shrinks pinning s t → F s → F t) :
    Spec strict pinning (fun s => P s ∧ F s) x (fun a s => Q a s ∧ F s) := by
  intro s hs
  have hx := h s fun hr => ⟨(hs hr).1, (hs hr).2.1⟩
  have hm := hm s
  unfold final at hm
  revert hx hm
  cases x s with
  | ok a t =>
    intro hx hm hr
    have hrs : s.Regular strict pinning := fun e he => hr e (hm.history.subset he)
    exact ⟨(hx hr).1, (hx hr).2, hF s t hm (hs hrs).2.2⟩
  | error e t => exact fun hx _ => hx

lemma Spec.fact (hm : Moves (Shrinks pinning) x)
    (h : c → Spec strict pinning P x Q) : Spec strict pinning (fun s => P s ∧ c) x Q := by
  by_cases hc : c
  · exact (h hc).pre fun _ hs => hs.1
  · intro s hs
    have hm := hm s
    have hr : ∀ t : State τ, s.history <:+ t.history → ¬ t.Regular strict pinning :=
      fun t ht hr => hc (hs fun e he => hr e (ht.subset he)).2.2
    unfold final at hm
    revert hm
    cases x s <;> exact fun hm h => absurd h (hr _ hm.history)

lemma Spec.exists [Nonempty ι] {P : ι → State τ → Prop}
    (h : ∀ i, Spec strict pinning (P i) x Q) : Spec strict pinning (fun s => ∃ i, P i s) x Q := by
  intro s hs
  by_cases hr : s.Regular strict pinning
  · obtain ⟨hsound, i, hi⟩ := hs hr
    exact h i s fun _ => ⟨hsound, hi⟩
  · exact h (Classical.arbitrary ι) s fun hr' => absurd hr' hr

lemma Spec.named (h : ∀ s₀, Spec strict pinning (fun s => P s ∧ s = s₀) x Q) :
    Spec strict pinning P x Q := fun s hs => h s s fun hr => ⟨(hs hr).1, (hs hr).2, rfl⟩

end

lemma Reference.links_eq (h : r.links = r'.links) :
    r.ownedByUs = r'.ownedByUs ∧ r.contains = r'.contains ∧ r.containedInOwned = r'.containedInOwned ∧
      r.containedInBorrowedIds = r'.containedInBorrowedIds := by
  simpa only [links, Prod.mk.injEq] using h

lemma Reference.containers_eq (h : r.links = r'.links) (owned : Bool) : r.containers owned = r'.containers owned := by
  cases owned with
  | true => exact (links_eq h).2.2.1
  | false => exact (links_eq h).2.2.2

def SameBy {α : Type} (read : Reference → α) (s t : State τ) : Prop :=
  ∀ x, (t.refs.lookup x).map read = (s.refs.lookup x).map read

section

variable {α : Type} {read : Reference → α} {s t : State τ} {x : ObjectID} {r : Reference}

instance : IsPreorder (State τ) (SameBy read) where
  refl _ _ := rfl
  trans _ _ _ h h' x := (h' x).trans (h x)

lemma SameBy.forward (h : SameBy read s t) (hx : s.refs.lookup x = some r) :
    ∃ r', t.refs.lookup x = some r' ∧ read r' = read r := by
  have hm := h x
  rw [hx] at hm
  exact Option.map_eq_some_iff.mp hm

lemma SameBy.backward (h : SameBy read s t) (hx : t.refs.lookup x = some r) :
    ∃ r', s.refs.lookup x = some r' ∧ read r = read r' := by
  have hm := h x
  rw [hx] at hm
  obtain ⟨r', hx', hr⟩ := Option.map_eq_some_iff.mp hm.symm
  exact ⟨r', hx', hr.symm⟩

lemma sameBy_withEntry {id : ObjectID} {r' : Reference} (hx : s.refs.lookup id = some r)
    (hr : read r' = read r) : SameBy read s (s.withEntry id r') := by
  intro x
  rw [State.withEntry_lookup]
  split
  case isTrue h => rw [h, hx, Option.map_some, Option.map_some, hr]
  · rfl

end

def Reference.core (r : Reference) :
    (Bool × List ObjectID × List ObjectID × List ObjectID) × Nat × Nat :=
  (r.links, r.localRefCount, r.submittedTaskRefCount)

lemma Reference.core_eq (h : r.core = r'.core) : r.links = r'.links ∧ r.refCount = r'.refCount := by
  simp only [core, Prod.mk.injEq] at h
  obtain ⟨hl, hn, hs⟩ := h
  exact ⟨hl, by simp only [refCount, (links_eq hl).2.2.1, hn, hs]⟩

structure SameCore (s t : State τ) : Prop where
  entries : SameBy Reference.core s t
  unnested : t.unnested = s.unnested

instance : IsPreorder (State τ) SameCore where
  refl _ := ⟨refl_of _ _, rfl⟩
  trans _ _ _ h h' := ⟨trans_of _ h.entries h'.entries, h'.unnested.trans h.unnested⟩

variable {strict pinning : Bool} {p : Progress} {s t : State τ} {id : ObjectID}

lemma Listed.mono (h : Listed strict s) (old : ∀ y a, t.refs.lookup y = some a → ∃ b, s.refs.lookup y = some b ∧
      ∀ side, a.containers side ⊆ b.containers side)
    (new : ∀ x b, s.refs.lookup x = some b → ∃ a, t.refs.lookup x = some a ∧
      a.ownedByUs = b.ownedByUs ∧ b.contains ⊆ a.contains) : Listed strict t := by
  intro side hs y a hy x hx
  obtain ⟨b, hb, hsub⟩ := old y a hy
  obtain ⟨q, hq, hqo, hqc⟩ := h side hs y b hb x (hsub side hx)
  obtain ⟨q', hq', ho, hc⟩ := new x q hq
  exact ⟨q', hq', ho.trans hqo, hc hqc⟩

lemma Free.mono (h : Free strict id s) (old : ∀ y a, t.refs.lookup y = some a → ∃ b, s.refs.lookup y = some b ∧
      ∀ side, a.containers side ⊆ b.containers side) : Free strict id t := by
  intro side hs y a hy hid
  obtain ⟨b, hb, hsub⟩ := old y a hy
  exact h side hs y b hb (hsub side hid)

lemma SameBy.old {y : ObjectID} {a : Reference} (hc : SameBy links s t) (hy : t.refs.lookup y = some a) :
    ∃ b, s.refs.lookup y = some b ∧ ∀ side, a.containers side ⊆ b.containers side := by
  obtain ⟨b, hb, hl⟩ := hc.backward hy
  exact ⟨b, hb, fun side => (containers_eq hl side) ▸ .refl _⟩

variable (h : Nesting strict pinning p s)
include h

lemma Nesting.of_sameLinks (hc : SameBy links s t) (hst : t.releasing = s.releasing) (hu : s.unnested ⊆ t.unnested)
    (hk : ∀ x r, t.refs.lookup x = some r → p.due ≠ some x → x ∉ p.leaving →
      r.outOfScope pinning = true → 0 < r.lineageRefCount →
      pinning = true ∧ r.onDelete = false ∧ Free strict x s)
    (hh : ∀ x ∈ p.leaving, ∃ r, t.refs.lookup x = some r ∧ r.outOfScope pinning = true) :
    Nesting strict pinning p t := by
  refine ⟨hst.trans h.stack, h.tracked, ?_, h.listed.mono (fun _ _ => hc.old) ?_, ?_, ?_, hh⟩
  · intro x r hx
    obtain ⟨r', hx', hr⟩ := hc.backward hx
    exact (links_eq hr).2.1 ▸ h.nodup x r' hx'
  · intro x r hx
    obtain ⟨r', hr', he⟩ := hc.forward hx
    exact ⟨r', hr', (links_eq he).1, (links_eq he).2.1 ▸ .refl _⟩
  · intro x r hx y hy hun
    obtain ⟨r', hx', hr⟩ := hc.backward hx
    have hl : p.linked x r = p.linked x r' := by
      simp only [Progress.linked, (links_eq hr).2.1]
    obtain ⟨i, hi, hm⟩ := h.nested x r' hx' y (hl ▸ hy) fun hn hmem => hun hn (hu hmem)
    obtain ⟨i', hi', he⟩ := hc.forward hi
    refine ⟨i', hi', ?_⟩
    rwa [(links_eq hr).1, containers_eq he]
  · intro x r hx hd hxl ho hlin
    obtain ⟨hp, hdel, hfree⟩ := hk x r hx hd hxl ho hlin
    exact ⟨hp, hdel, hfree.mono fun _ _ => hc.old⟩

lemma Nesting.congr (hr : ∀ x, t.refs.lookup x = s.refs.lookup x) (hst : t.releasing = s.releasing)
    (hu : s.unnested ⊆ t.unnested) : Nesting strict pinning p t := by
  refine h.of_sameLinks (fun x => by rw [hr]) hst hu ?_ ?_
  · intro x r hx
    exact h.kept x r (hr x ▸ hx)
  · intro x hx
    rw [hr x]
    exact h.held x hx

lemma Nesting.withEntry (hx : s.refs.lookup id = some r) (hr : r'.links = r.links)
    (hk : p.due ≠ some id → id ∉ p.leaving → r'.outOfScope pinning = true →
      0 < r'.lineageRefCount → pinning = true ∧ r'.onDelete = false ∧ Free strict id s)
    (hh : id ∈ p.leaving → r.outOfScope pinning = true → r'.outOfScope pinning = true) :
    Nesting strict pinning p (s.withEntry id r') := by
  refine h.of_sameLinks (sameBy_withEntry hx hr) rfl (.refl _) ?_ ?_
  · intro x r₀ hx₀
    rcases Table.lookup_of_insert hx₀ with ⟨rfl, rfl⟩ | ⟨-, hx₀⟩
    · exact hk
    · exact h.kept x r₀ hx₀
  · intro x hxl
    obtain ⟨r₀, hx₀, ho⟩ := h.held x hxl
    rw [State.withEntry_lookup]
    split
    case isTrue he =>
      rw [he, hx] at hx₀
      cases hx₀
      exact ⟨r', rfl, hh (he ▸ hxl) ho⟩
    · exact ⟨r₀, hx₀, ho⟩

end AmazonRay.ReferenceCounter
