import AmazonRay.ReferenceCounter.Calls

/-! What a deletion can do to the table at most. -/
namespace AmazonRay.ReferenceCounter
open Program List Reference

variable {τ : Type} {pinning : Bool} {s t : State τ}

/-- Before and after a deletion: no use, link or mark is added, local and submitted references are kept, and what was
out of scope stays so. -/
structure Reference.Shrinks (pinning : Bool) (r r' : Reference) : Prop where
  ownedByUs : r'.ownedByUs = r.ownedByUs
  localRefCount : r'.localRefCount = r.localRefCount
  submittedTaskRefCount : r'.submittedTaskRefCount = r.submittedTaskRefCount
  contains : r'.contains = r.contains
  containedInOwned : r'.containedInOwned ⊆ r.containedInOwned
  containedInBorrowedIds : r'.containedInBorrowedIds ⊆ r.containedInBorrowedIds
  lineageRefCount : r'.lineageRefCount ≤ r.lineageRefCount
  onDelete : r'.onDelete = true → r.onDelete = true
  outOfScope : r.outOfScope pinning = true → r'.outOfScope pinning = true

lemma Reference.Shrinks.refl (pinning : Bool) (r : Reference) : r.Shrinks pinning r :=
  ⟨rfl, rfl, rfl, rfl, .refl _, .refl _, le_rfl, id, id⟩

lemma Reference.Shrinks.trans {r r' r'' : Reference}
    (h : r.Shrinks pinning r') (h' : r'.Shrinks pinning r'') : r.Shrinks pinning r'' where
  ownedByUs := h'.ownedByUs.trans h.ownedByUs
  localRefCount := h'.localRefCount.trans h.localRefCount
  submittedTaskRefCount := h'.submittedTaskRefCount.trans h.submittedTaskRefCount
  contains := h'.contains.trans h.contains
  containedInOwned := List.Subset.trans h'.containedInOwned h.containedInOwned
  containedInBorrowedIds := List.Subset.trans h'.containedInBorrowedIds h.containedInBorrowedIds
  lineageRefCount := le_trans h'.lineageRefCount h.lineageRefCount
  onDelete hd := h.onDelete (h'.onDelete hd)
  outOfScope ho := h'.outOfScope (h.outOfScope ho)

/-- Before and after a deletion. Only an entry without local and submitted references is erased, and leaves the eviction
list. -/
structure Shrinks (pinning : Bool) (s t : State τ) : Prop where
  entry : ∀ x r', t.refs.lookup x = some r' →
    ∃ r, s.refs.lookup x = some r ∧ r.Shrinks pinning r'
  erased : ∀ x r, s.refs.lookup x = some r → t.refs.lookup x = none →
    r.localRefCount = 0 ∧ r.submittedTaskRefCount = 0
  listed : t.reconstructableOwnedObjects.Sublist s.reconstructableOwnedObjects
  present : ∀ x ∈ t.reconstructableOwnedObjects, s.refs.lookup x ≠ none → t.refs.lookup x ≠ none
  history : s.history <:+ t.history

instance (pinning : Bool) : IsPreorder (State τ) (Shrinks pinning) where
  refl s := ⟨fun x r h => ⟨r, h, Reference.Shrinks.refl pinning r⟩,
    fun x r h hn => absurd (h.symm.trans hn) (Option.some_ne_none r), .refl _,
    fun _ _ h => h, List.suffix_refl _⟩
  trans s t u h h' := by
    refine ⟨?_, ?_, h'.listed.trans h.listed, ?_, h.history.trans h'.history⟩
    · intro x r'' hx
      obtain ⟨r', hx', hr'⟩ := h'.entry x r'' hx
      obtain ⟨r, hx, hr⟩ := h.entry x r' hx'
      exact ⟨r, hx, hr.trans hr'⟩
    · intro x r hx hn
      cases ht : t.refs.lookup x with
      | none => exact h.erased x r hx ht
      | some r' =>
        obtain ⟨r₀, hx₀, hr⟩ := h.entry x r' ht
        rw [hx] at hx₀
        cases hx₀
        have he := h'.erased x r' ht hn
        exact ⟨hr.localRefCount ▸ he.1, hr.submittedTaskRefCount ▸ he.2⟩
    · intro x hx hs
      exact h'.present x hx (h.present x (h'.listed.subset hx) hs)

/-- Objects may leave the list. -/
structure Trims (s t : State τ) : Prop where
  refs : t.refs = s.refs
  lineage : t.lineage = s.lineage
  listed : t.reconstructableOwnedObjects.Sublist s.reconstructableOwnedObjects
  history : s.history <:+ t.history

lemma Trims.of_eq (hr : t.refs = s.refs) (hl : t.lineage = s.lineage)
    (ho : t.reconstructableOwnedObjects = s.reconstructableOwnedObjects)
    (hh : t.history = s.history) : Trims s t :=
  ⟨hr, hl, ho ▸ .refl _, hh ▸ suffix_refl _⟩

lemma shrinks_of_refs (hr : t.refs = s.refs) (hl : t.reconstructableOwnedObjects.Sublist s.reconstructableOwnedObjects)
    (hh : s.history <:+ t.history) : Shrinks pinning s t := by
  refine ⟨?_, ?_, hl, ?_, hh⟩
  · intro x r' hx
    exact ⟨r', hr ▸ hx, Reference.Shrinks.refl pinning r'⟩
  · intro x r hx hn
    rw [hr, hx] at hn
    cases hn
  · intro x _ hs
    rwa [hr]

lemma moves_shrinks_update {id : ObjectID} {f : Reference → Reference}
    (hf : ∀ r : Reference, r.Shrinks pinning (f r)) : Moves (Shrinks pinning) (update (τ := τ) id f) := by
  refine moves_update fun s ref href => ⟨?_, ?_, .refl _, ?_, suffix_refl _⟩
  · intro x r' hx
    rw [State.withEntry_lookup] at hx
    by_cases h : x = id
    · subst h
      rw [if_pos rfl] at hx
      cases hx
      exact ⟨ref, href, hf ref⟩
    · rw [if_neg h] at hx
      exact ⟨r', hx, Reference.Shrinks.refl pinning r'⟩
  · intro x r hx hn
    rw [State.withEntry_lookup] at hn
    by_cases h : x = id
    · rw [if_pos h] at hn
      cases hn
    · rw [if_neg h, hx] at hn
      cases hn
  · intro x _ hs
    rw [State.withEntry_lookup]
    by_cases h : x = id
    · rw [if_pos h]
      exact Option.some_ne_none _
    · rwa [if_neg h]

section

variable (pinning : Bool) (r : Reference)

lemma Reference.shrinks_clear : r.Shrinks pinning { r with borrowers := [], storedInObjects := [] } := by
  refine { Shrinks.refl pinning r with outOfScope := ?_ }
  simp only [outOfScope_iff]
  exact fun h => ⟨h.1, h.2.1, h.2.2.1, trivial, trivial, h.2.2.2.2.2⟩

lemma Reference.shrinks_reported : r.Shrinks pinning { r with hasNestedRefsToReport := false } := by
  refine { Shrinks.refl pinning r with outOfScope := ?_ }
  simp only [outOfScope_iff]
  exact fun h => ⟨h.1, h.2.1, trivial, h.2.2.2⟩

lemma Reference.shrinks_notified : r.Shrinks pinning { r with onRefRemoved := false } := { Shrinks.refl pinning r with }

lemma Reference.shrinks_unpinned : r.Shrinks pinning r.unpinned :=
  { Shrinks.refl pinning r with onDelete := fun h => absurd h Bool.false_ne_true }

lemma Reference.shrinks_unlinkOwned (id : ObjectID) :
    r.Shrinks pinning { r with containedInOwned := r.containedInOwned.filter (· ≠ id) } := by
  refine { Shrinks.refl pinning r with containedInOwned := filter_subset_self _, outOfScope := ?_ }
  simp only [outOfScope_iff, refCount_eq_zero]
  rintro ⟨⟨hl, hs, hc⟩, h⟩
  exact ⟨⟨hl, hs, by rw [hc, filter_nil]⟩, h⟩

lemma Reference.shrinks_unlinkBorrowed (id : ObjectID) : r.Shrinks pinning
      { r with containedInBorrowedIds := r.containedInBorrowedIds.filter (· ≠ id) } := by
  refine { Shrinks.refl pinning r with containedInBorrowedIds := filter_subset_self _, outOfScope := ?_ }
  simp only [outOfScope_iff]
  rintro ⟨hr, hb, h⟩
  exact ⟨hr, by rw [hb, filter_nil], h⟩

lemma Reference.shrinks_dropLineageRef : r.Shrinks pinning r.dropLineageRef := by
  refine { Shrinks.refl pinning r with lineageRefCount := Nat.sub_le _ _, outOfScope := ?_ }
  simp only [outOfScope_iff, Bool.eq_false_iff, ne_eq, hasLineageReferences_iff]
  rintro ⟨hr, hb, hn, hw, hs, hl⟩
  exact ⟨hr, hb, hn, hw, hs, fun h => hl ⟨h.1, h.2.1, h.2.2.1, lt_of_lt_of_le h.2.2.2 (Nat.sub_le _ _)⟩⟩

lemma Reference.outOfScope_of_dropLineageRef {pinning : Bool} {r : Reference}
    (h : r.dropLineageRef.outOfScope pinning = true) : r.outOfScope pinning = true ∨
      r.ownedByUs = true ∧ r.isReconstructable = false ∧ r.dropLineageRef.lineageRefCount = 0 := by
  obtain ⟨hr, hb, hn, hw, hs, hl⟩ := outOfScope_iff.mp h
  by_cases hlin : r.hasLineageReferences pinning = true
  · obtain ⟨hp, ho, hrec, _⟩ := hasLineageReferences_iff.mp hlin
    refine .inr ⟨ho, hrec, Nat.eq_zero_of_not_pos fun hpos => Bool.eq_false_iff.mp hl ?_⟩
    exact hasLineageReferences_iff.mpr ⟨hp, ho, hrec, hpos⟩
  · exact .inl (outOfScope_iff.mpr ⟨hr, hb, hn, hw, hs, Bool.eq_false_iff.mpr hlin⟩)

lemma Reference.shrinks_markEvicted : r.Shrinks pinning (r.markEvicted pinning) := by
  unfold markEvicted
  split
  case isTrue h =>
    refine { Shrinks.refl pinning r with outOfScope := ?_ }
    rw [h.1]
    exact fun h => absurd h Bool.false_ne_true
  · exact Reference.Shrinks.refl pinning r

end

/-- A property that composes and that the steps of a deletion outside the lineage have. -/
structure ClearingLogic (pinning : Bool) (K : (α : Type) → RefM τ α → Prop) : Prop
    extends ReadLogic (fun e => !e.ofTasks) K where
  trim : ∀ {g : State τ → State τ}, (∀ s, Trims s (g s)) → K PUnit (modify g)
  update : ∀ {id f}, (∀ r : Reference, r.Shrinks pinning (f r)) →
    (∀ r, (f r).taskCounts = r.taskCounts) → K Unit (update id f)

namespace ClearingLogic

variable {pinning : Bool} {K : (α : Type) → RefM τ α → Prop} (h : ClearingLogic pinning K)
include h

lemma quiet {g : State τ → State τ} (hg : ∀ s, (g s).refs = s.refs ∧ (g s).lineage = s.lineage ∧
    (g s).reconstructableOwnedObjects = s.reconstructableOwnedObjects ∧ (g s).history = s.history) :
    K PUnit (modify g) :=
  h.trim fun s => Trims.of_eq (hg s).1 (hg s).2.1 (hg s).2.2.1 (hg s).2.2.2

lemma record (e : State τ → Event) : K Unit (record e) := h.trim fun _ => ⟨rfl, rfl, .refl _, suffix_cons _ _⟩

lemma getAndClearLocalBorrowersInternal (forRefRemoved : Bool) (depth : Nat) (id : ObjectID)
    (borrowedRefs : ReferenceTable) : K (Bool × ReferenceTable)
      (getAndClearLocalBorrowersInternal forRefRemoved depth id borrowedRefs) := by
  induction depth generalizing id borrowedRefs with
  | zero => exact h.throw rfl
  | succ depth ih =>
    refine h.found (h.pure _) fun _ => ?_
    refine h.ite (fun _ => h.pure _) fun _ => h.seq (h.record _) ?_
    refine h.seq (h.onlyIf fun _ => h.update (shrinks_clear pinning) fun _ => rfl) ?_
    refine h.bind (h.foldlM (fun refs contained => ?_) _ _) fun refs => ?_
    · exact h.bind (ih contained refs) fun _ => h.pure _
    · exact h.seq (h.update (shrinks_reported pinning) fun _ => rfl) (h.pure _)

lemma handleRefRemoved (cfg : Config τ) (id : ObjectID) : K Unit (handleRefRemoved cfg id) :=
  h.bind (h.getAndClearLocalBorrowersInternal true _ id ∅) fun _ => h.quiet fun _ => ⟨rfl, rfl, rfl, rfl⟩

lemma notifyRefRemoved (cfg : Config τ) (id : ObjectID) : K Unit (notifyRefRemoved cfg id) := by
  refine h.bind (h.deref rfl) fun ref => h.onlyIf fun _ => h.seq (h.handleRefRemoved cfg id) ?_
  exact h.update (shrinks_notified pinning) fun _ => rfl

lemma unlink (id innerId : ObjectID) (inner : Reference) : K Unit (unlink id innerId inner) := by
  refine h.bind (h.deref rfl) fun ref => h.ite (fun _ => ?_) fun _ => ?_
  · exact h.seq (h.check rfl) (h.update (fun r => shrinks_unlinkOwned pinning r id) fun _ => rfl)
  · exact h.seq (h.check rfl) (h.update (fun r => shrinks_unlinkBorrowed pinning r id) fun _ => rfl)

lemma releasePlasmaObject (id : ObjectID) : K Unit (releasePlasmaObject id) := by
  refine h.bind (h.deref rfl) fun ref => h.seq (h.onlyIf fun _ => ?_) ?_
  · exact h.quiet fun _ => ⟨rfl, rfl, rfl, rfl⟩
  · exact h.update (shrinks_unpinned pinning) fun _ => rfl

lemma leaveScope {deleteInner : ObjectID → RefM τ Unit} (hd : ∀ x, K Unit (deleteInner x))
    (collect : Bool) (id : ObjectID) (ref : Reference) :
    K Unit (leaveScope deleteInner collect id ref) := by
  refine h.seq (h.record _) (h.seq (h.forM (fun innerId => ?_) _) ?_)
  · exact h.found (h.pure ()) fun inner => h.seq (h.unlink id innerId inner) (hd innerId)
  refine h.seq (h.releasePlasmaObject id) (h.seq (h.onlyIf fun _ => ?_) ?_)
  · exact h.quiet fun _ => ⟨rfl, rfl, rfl, rfl⟩
  refine h.seq (h.trim fun _ => ?_) ?_
  · exact ⟨rfl, rfl, filter_sublist, suffix_refl _⟩
  · exact h.quiet fun _ => ⟨rfl, rfl, rfl, rfl⟩

end ClearingLogic

/-- The same with the steps of a release: callback, drop of a lineage reference and erasure. -/
structure ReleaseLogic (cfg : Config τ) (K : (α : Type) → RefM τ α → Prop) : Prop
    extends ClearingLogic cfg.lineagePinningEnabled K where
  callOnLineageReleased : ∀ id ownedByUs,
    K (Int × List ObjectID) (callOnLineageReleased cfg id ownedByUs)
  dropLineageRef : ∀ id, K Unit (ReferenceCounter.update id Reference.dropLineageRef)
  eraseReference : ∀ id, K Unit (eraseReference cfg id)

namespace ReleaseLogic

variable {cfg : Config τ} {K : (α : Type) → RefM τ α → Prop} (h : ReleaseLogic cfg K)
include h

lemma releaseArgument {release : ObjectID → RefM τ Int} (hr : ∀ id, K Int (release id))
    (bytes : Int) (id : ObjectID) : K Int (releaseArgument cfg release bytes id) := by
  refine h.found (h.pure bytes) fun arg => ?_
  refine h.ite (fun _ => h.pure bytes) fun _ => h.seq (h.dropLineageRef id) ?_
  refine h.bind (h.deref rfl) fun arg => h.ite (fun _ => h.pure bytes) fun _ => ?_
  refine h.seq (h.check rfl) (h.seq (h.record _) (h.seq ?_ ?_))
  · exact h.quiet fun _ => ⟨rfl, rfl, rfl, rfl⟩
  refine h.bind (hr id) fun evicted => h.seq (h.eraseReference id) (h.seq ?_ (h.pure _))
  exact h.quiet fun _ => ⟨rfl, rfl, rfl, rfl⟩

lemma releaseLineageReferences (depth : Nat) (id : ObjectID) : K Int (releaseLineageReferences cfg depth id) := by
  induction depth generalizing id with
  | zero => exact h.throw rfl
  | succ depth ih =>
    refine h.bind (h.deref rfl) fun ref => h.bind (h.callOnLineageReleased id _) fun released => ?_
    exact h.foldlM (h.releaseArgument ih) _ _

end ReleaseLogic

/-- The steps of a deletion, with the release of the lineage as one of them. -/
structure DeletionLogic (cfg : Config τ) (K : (α : Type) → RefM τ α → Prop) : Prop
    extends ClearingLogic cfg.lineagePinningEnabled K where
  eraseReference : ∀ id, K Unit (eraseReference cfg id)
  releaseLineageReferences : ∀ depth id, K Int (releaseLineageReferences cfg depth id)

lemma DeletionLogic.deleteReferenceInternal {cfg : Config τ} {K : (α : Type) → RefM τ α → Prop}
    (h : DeletionLogic cfg K) (collect : Bool) (depth : Nat) (id : ObjectID) :
    K Unit (deleteReferenceInternal cfg collect depth id) := by
  induction depth generalizing id with
  | zero => exact h.throw rfl
  | succ depth ih =>
    refine h.seq ?_ (h.seq (h.notifyRefRemoved cfg id) ?_)
    · exact h.quiet fun _ => ⟨rfl, rfl, rfl, rfl⟩
    refine h.bind (h.deref rfl) fun ref => h.seq (h.onlyIf fun _ => ?_) ?_
    · exact h.leaveScope ih collect id ref
    refine h.bind (h.deref rfl) fun ref => h.seq (h.onlyIf fun _ => ?_) ?_
    · exact h.seq (h.releaseLineageReferences depth id) (h.eraseReference id)
    · exact h.quiet fun _ => ⟨rfl, rfl, rfl, rfl⟩

variable (cfg : Config τ)

lemma clearingLogic_shrinks (pinning : Bool) :
    ClearingLogic pinning fun α (x : RefM τ α) => Moves (Shrinks pinning) x where
  toComposes := composes_moves _
  throw _ := Moves.skip fun _ => rfl
  get := Moves.skip fun _ => rfl
  trim hg := Moves.update fun s => shrinks_of_refs (hg s).refs (hg s).listed (hg s).history
  update hf _ := moves_shrinks_update hf

lemma moves_shrinks_eraseReference (id : ObjectID) :
    Moves (Shrinks cfg.lineagePinningEnabled) (eraseReference cfg id) := by
  refine moves_of_triple fun s => triple_eraseReference ?_ ?_ ?_
  · rintro s ref rfl href hd n
    have hz := refCount_eq_zero.mp (outOfScope_iff.mp (shouldDelete_iff.mp hd).1).1
    refine ⟨?_, ?_, filter_sublist, ?_, suffix_cons _ _⟩
    · intro x r' hx
      rw [State.eraseEntry] at hx
      obtain ⟨-, hx⟩ := Table.lookup_of_erase hx
      exact ⟨r', hx, Reference.Shrinks.refl _ r'⟩
    · intro x r hx hn
      rw [State.eraseEntry, Table.lookup_erase] at hn
      split at hn
      case isTrue h =>
        rw [h, href] at hx
        cases hx
        exact ⟨hz.1, hz.2.1⟩
      · rw [hx] at hn; cases hn
    · intro x hx hs
      have hne : x ≠ id := by simpa using (mem_filter.mp hx).2
      rwa [State.eraseEntry, Table.lookup_erase, if_neg hne]
  · rintro t rfl _
    exact refl_of _ t
  · rintro t ref rfl _
    exact refl_of _ t

lemma moves_shrinks_callOnLineageReleased (id : ObjectID) (ownedByUs : Bool) :
    Moves (Shrinks cfg.lineagePinningEnabled) (callOnLineageReleased cfg id ownedByUs) := by
  unfold callOnLineageReleased
  split
  · refine Moves.bind (Moves.skip fun _ => rfl) fun s => ?_
    refine Moves.bind (Moves.update fun _ => ?_) fun _ => ?_
    · exact shrinks_of_refs rfl (.refl _) (suffix_refl _)
    · exact Moves.bind (moves_shrinks_update (shrinks_markEvicted _)) fun _ => Moves.skip fun _ => rfl
  · exact Moves.skip fun _ => rfl

lemma releaseLogic_shrinks : ReleaseLogic cfg fun α (x : RefM τ α) => Moves (Shrinks cfg.lineagePinningEnabled) x where
  toClearingLogic := clearingLogic_shrinks _
  callOnLineageReleased := moves_shrinks_callOnLineageReleased cfg
  dropLineageRef _ := moves_shrinks_update (shrinks_dropLineageRef _)
  eraseReference := moves_shrinks_eraseReference cfg

lemma moves_shrinks_releaseLineageReferences (depth : Nat) (id : ObjectID) :
    Moves (Shrinks cfg.lineagePinningEnabled) (releaseLineageReferences cfg depth id) :=
  (releaseLogic_shrinks cfg).releaseLineageReferences depth id

lemma deletionLogic_shrinks :
    DeletionLogic cfg fun α (x : RefM τ α) => Moves (Shrinks cfg.lineagePinningEnabled) x where
  toClearingLogic := clearingLogic_shrinks _
  eraseReference := moves_shrinks_eraseReference cfg
  releaseLineageReferences := moves_shrinks_releaseLineageReferences cfg

lemma moves_shrinks_deleteReferenceInternal (collect : Bool) (depth : Nat) (id : ObjectID) :
    Moves (Shrinks cfg.lineagePinningEnabled) (deleteReferenceInternal cfg collect depth id) :=
  (deletionLogic_shrinks cfg).deleteReferenceInternal collect depth id

end AmazonRay.ReferenceCounter
