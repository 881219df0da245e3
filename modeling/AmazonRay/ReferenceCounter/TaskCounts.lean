import AmazonRay.ReferenceCounter.Shrinking

/-! The calls outside `TaskManager` leave the counts of tasks alone, but for the
lineage they release. -/
namespace AmazonRay.ReferenceCounter
open Program State

variable {τ : Type}

def State.taskCounts (s : State τ) (id : ObjectID) : Nat × Nat :=
  (s.refs.lookup id).elim (0, 0) Reference.taskCounts

def State.submitted (s : State τ) (id : ObjectID) : Nat := (s.taskCounts id).1

def State.lineageRefs (s : State τ) (id : ObjectID) : Nat := (s.taskCounts id).2

variable {id : ObjectID} {r : Reference} {count : Reference → Reference} {s : State τ}

section

variable (h : s.refs.lookup id = some r)
include h

lemma State.taskCounts_of_lookup
 : s.taskCounts id = r.taskCounts := by
  rw [taskCounts, h, Option.elim_some]

lemma State.submitted_of_lookup
 : s.submitted id = r.submittedTaskRefCount := by
  rw [submitted, taskCounts_of_lookup h, Reference.taskCounts]

lemma State.lineageRefs_of_lookup
 : s.lineageRefs id = r.lineageRefCount := by
  rw [lineageRefs, taskCounts_of_lookup h, Reference.taskCounts]

end

lemma State.taskCounts_withEntry (s : State τ) (id x : ObjectID) (r : Reference) :
    (s.withEntry id r).taskCounts x = if x = id then r.taskCounts else s.taskCounts x := by
  rw [taskCounts, withEntry_lookup]
  split <;> rfl

/-- Counts and the state behind the callback are the same. Without lineage pinning an entry may go while it has lineage
references. -/
structure Quiet (pinning : Bool) (s t : State τ) : Prop where
  submitted : ∀ x, t.submitted x = s.submitted x
  lineageRefs : pinning = true → ∀ x, t.lineageRefs x = s.lineageRefs x
  lineage : t.lineage = s.lineage

section

variable {pinning : Bool} {s t : State τ}

lemma Quiet.of_counts (hc : ∀ x, t.taskCounts x = s.taskCounts x) (hl : t.lineage = s.lineage) :
    Quiet pinning s t :=
  ⟨fun x => congrArg Prod.fst (hc x), fun _ x => congrArg Prod.snd (hc x), hl⟩

lemma Quiet.of_refs (hr : t.refs = s.refs) (hl : t.lineage = s.lineage) : Quiet pinning s t :=
  .of_counts (fun x => by rw [taskCounts, taskCounts, hr]) hl

lemma Quiet.withEntry (h : s.taskCounts id = r.taskCounts) : Quiet pinning s (s.withEntry id r) := by
  refine .of_counts (fun x => ?_) rfl
  rw [taskCounts_withEntry]
  split
  case isTrue he => rw [he, h]
  · rfl

lemma Quiet.erased (hx : s.refs.lookup id = some r) (hd : r.shouldDelete pinning = true) (n : Nat) :
    Quiet pinning s { s.eraseEntry id r with shutdowns := n } := by
  obtain ⟨hout, hlin⟩ := Reference.shouldDelete_iff.mp hd
  have hsub := (Reference.refCount_eq_zero.mp (Reference.outOfScope_iff.mp hout).1).2.1
  have same : ∀ x, x ≠ id → taskCounts { s.eraseEntry id r with shutdowns := n } x = s.taskCounts x := by
    intro x hne
    rw [taskCounts, eraseEntry, Table.lookup_erase, if_neg hne, taskCounts]
  have gone : taskCounts { s.eraseEntry id r with shutdowns := n } id = (0, 0) := by
    rw [taskCounts, eraseEntry, Table.lookup_erase, if_pos rfl, Option.elim_none]
  refine ⟨fun x => ?_, fun hp x => ?_, rfl⟩
  · by_cases he : x = id
    · rw [he, State.submitted, gone, State.submitted_of_lookup hx, hsub]
    · rw [State.submitted, same x he, State.submitted]
  · by_cases he : x = id
    · rw [he, State.lineageRefs, gone, State.lineageRefs_of_lookup hx, hlin hp]
    · rw [State.lineageRefs, same x he, State.lineageRefs]

instance (pinning : Bool) : IsPreorder (State τ) (Quiet pinning) where
  refl _ := ⟨fun _ => rfl, fun _ _ => rfl, rfl⟩
  trans _ _ _ h₁ h₂ := ⟨fun x => (h₂.submitted x).trans (h₁.submitted x),
    fun hp x => (h₂.lineageRefs hp x).trans (h₁.lineageRefs hp x), h₂.lineage.trans h₁.lineage⟩

end

variable {cfg : Config τ} {R : State τ → State τ → Prop} [IsPreorder (State τ) R] {E : Check → Prop}

lemma readLogic_steps (hE : ∀ e : Check, e.ofTasks = false → E e) :
    ReadLogic (fun e => !e.ofTasks) fun α (x : RefM τ α) => Steps R E x where
  toComposes := composes_steps R E
  throw he _ := .throw fun _ _ => hE _ (by simpa using he)
  get s := .get fun _ ht => ht ▸ refl_of R s

variable (hq : ∀ s t, Quiet cfg.lineagePinningEnabled s t → R s t)
  (hE : ∀ e : Check, e.ofTasks = false → E e)
include hq

omit [IsPreorder (State τ) R] in
lemma steps_modify {g : State τ → State τ} (hr : ∀ s, (g s).refs = s.refs)
    (hl : ∀ s, (g s).lineage = s.lineage) : Steps R E (modify g : RefM τ PUnit) :=
  fun _ => .update fun t ht => ht ▸ hq _ _ (Quiet.of_refs (hr t) (hl t))

lemma steps_findOrEmplace (id : ObjectID) : Steps R E (findOrEmplace (τ := τ) id) := by
  refine fun s => triple_findOrEmplace ?_ ?_
  · rintro t ref rfl _
    exact refl_of R t
  · rintro t rfl hn
    refine hq _ _ (Quiet.withEntry ?_)
    rw [taskCounts, hn]
    rfl

include hE

omit [IsPreorder (State τ) R] in
lemma steps_update {f : Reference → Reference}
    (hf : ∀ r, (f r).taskCounts = r.taskCounts) : Steps R E (update (τ := τ) id f) := by
  refine fun s => triple_update ?_ ?_
  · rintro t ref rfl hr
    exact hq _ _ (Quiet.withEntry ((taskCounts_of_lookup hr).trans (hf ref).symm))
  · exact fun _ _ _ => hE _ rfl

lemma steps_setNestedRefInUseRecursive (depth : Nat) (id : ObjectID) :
    Steps R E (setNestedRefInUseRecursive (τ := τ) depth id) := by
  have h := readLogic_steps (R := R) hE
  exact h.setNestedRefInUse rfl rfl rfl (fun id => steps_update hq hE fun _ => rfl) depth id

lemma steps_addUse (hc : ∀ r, (count r).taskCounts = r.taskCounts) : Steps R E (addUse cfg id count) := by
  have h := readLogic_steps (R := R) hE
  refine h.bind (h.deref rfl) fun before => h.seq (steps_update hq hE hc) ?_
  exact h.bind (h.deref rfl) fun after =>
    h.onlyIf fun _ => steps_setNestedRefInUseRecursive hq hE _ id

omit [IsPreorder (State τ) R] in
lemma steps_eraseReference (id : ObjectID) : Steps R E (eraseReference cfg id) := by
  refine fun s => triple_eraseReference ?_ ?_ ?_
  · rintro t ref rfl hr hd n
    exact hq _ _ (Quiet.erased hr hd n)
  · exact fun _ _ _ => hE _ rfl
  · exact fun _ _ _ _ => hE _ rfl

variable (hrel : ∀ depth id, Steps R E (releaseLineageReferences cfg depth id))

lemma clearingLogic_steps : ClearingLogic cfg.lineagePinningEnabled fun α (x : RefM τ α) => Steps R E x where
  toReadLogic := readLogic_steps hE
  trim hg := steps_modify hq (fun s => (hg s).refs) fun s => (hg s).lineage
  update _ hc := steps_update hq hE hc

include hrel

lemma deletionLogic_steps : DeletionLogic cfg fun α (x : RefM τ α) => Steps R E x where
  toClearingLogic := clearingLogic_steps hq hE
  eraseReference := steps_eraseReference hq hE
  releaseLineageReferences := hrel

lemma steps_removeUse {collect : Bool}
    (hc : ∀ r, (count r).taskCounts = r.taskCounts) : Steps R E (removeUse cfg collect id count) := by
  have h := deletionLogic_steps hq hE hrel
  refine h.seq (steps_update hq hE hc) (h.bind (h.deref rfl) fun _ => ?_)
  exact h.onlyIf fun _ => h.deleteReferenceInternal collect _ id

omit [IsPreorder (State τ) R] hrel in
lemma steps_emplaceOwned {ref : Reference} (hc : ref.taskCounts = (0, 0)) :
    Steps R E (emplaceOwned (τ := τ) id ref) := by
  refine fun s => .bind (triple_find (Q := fun o t => t = s ∧ s.refs.lookup id = o)
    fun t ht => ⟨ht, ht ▸ rfl⟩) fun o => ?_
  refine .seq (.check (Q := fun _ t => t = s ∧ s.refs.lookup id = none)
    (fun ho t ht => ⟨ht.1, ho ▸ ht.2⟩) fun _ _ _ => hE _ rfl) (.update ?_)
  rintro t ⟨rfl, hn⟩
  refine hq _ _ (Quiet.withEntry (Eq.trans ?_ hc.symm))
  rw [taskCounts, hn]
  rfl

lemma entryLogic_steps : EntryLogic cfg fun α (x : RefM τ α) => Steps R E x := by
  have h := deletionLogic_steps hq hE hrel
  refine
    { toComposes := h.toComposes
      throw := fun he => h.throw (Bool.and_eq_true_iff.mp he).2
      get := h.get
      modify := fun hg => steps_modify hq (fun s => (hg s).refs) fun s => (hg s).lineage
      findOrEmplace := steps_findOrEmplace hq
      update := fun hf => steps_update hq hE hf.taskCounts
      nestOwned := ?_ }
  intro id innerIds
  refine h.found (h.pure ()) fun _ => ?_
  refine h.seq (h.check rfl) (h.seq (h.record _) ?_)
  refine h.seq (steps_update hq hE fun _ => rfl) ?_
  refine h.seq (h.forM (fun innerId => ?_) innerIds) ?_
  · apply h.seq (steps_findOrEmplace hq innerId)
    exact steps_addUse hq hE fun _ => rfl
  · exact steps_modify hq (fun _ => rfl) fun _ => rfl

lemma callLogic_steps : CallLogic cfg fun α (x : RefM τ α) => Steps R E x := by
  have h := deletionLogic_steps hq hE hrel
  have hentry := entryLogic_steps hq hE hrel
  refine
    { toEntryLogic := hentry
      addOwnedObject := hentry.addOwnedObject (fun _ hc => steps_emplaceOwned hq hE hc)
        fun _ => steps_modify hq (fun _ => rfl) fun _ => rfl
      setNestedRefInUseRecursive := steps_setNestedRefInUseRecursive hq hE
      addLocal := fun _ => steps_addUse hq hE fun _ => rfl
      removeLocal := fun _ _ => steps_removeUse hq hE hrel fun _ => rfl
      nestBorrowed := ?_
      deleteReferenceInternal := fun collect => h.deleteReferenceInternal collect _
      dropBorrower := fun id addr => h.seq (steps_update hq hE fun _ => rfl) (h.deleteReferenceInternal false _ id)
      reportRefRemoved := fun id => h.seq (h.handleRefRemoved cfg id) (h.deleteReferenceInternal false _ id)
      popBorrowed := ?_
      setDeleteCallback := ?_
      releaseLineageReferences := hrel _ }
  · intro id outerId
    refine h.found (h.pure ()) fun _ => ?_
    refine h.onlyIf fun _ => h.seq (h.record _) ?_
    refine h.seq (steps_update hq hE fun _ => rfl) ?_
    refine h.seq (steps_update hq hE fun _ => rfl) ?_
    refine h.seq (steps_modify hq (fun _ => rfl) fun _ => rfl) ?_
    exact h.bind (h.deref rfl) fun ref =>
      h.onlyIf fun _ => steps_setNestedRefInUseRecursive hq hE _ id
  · intro refs id
    apply h.seq (h.record _)
    refine h.bind (h.getAndClearLocalBorrowersInternal false _ id refs) fun popped => ?_
    apply h.seq (h.check rfl)
    cases popped.2.lookup id with
    | none => exact h.pure _
    | some => exact h.pure _
  · intro id
    refine h.found (h.pure false) fun _ => ?_
    refine h.ite (fun _ => h.pure false) fun _ => h.bind h.get fun s => ?_
    refine h.ite (fun _ => h.pure false) fun _ => ?_
    exact h.seq (steps_update hq hE fun _ => rfl) (h.pure true)

end AmazonRay.ReferenceCounter
