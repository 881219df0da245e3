import AmazonRay.ReferenceCounter.Shrinking

/-! The objects in the index of owned objects have owned entries. -/
namespace AmazonRay.ReferenceCounter
open Program

variable {τ : Type} {S : List ObjectID} {id : ObjectID}

def State.Owned (s : State τ) (x : ObjectID) : Prop :=
  ∃ r, s.refs.lookup x = some r ∧ r.ownedByUs = true

/-- The objects in the index, and those of `S` that are about to enter it, are owned. -/
def State.Indexed (S : List ObjectID) (s : State τ) : Prop :=
  ∀ x, x ∈ s.reconstructableOwnedObjects ∨ x ∈ S → s.Owned x

abbrev KeepsIndex (S : List ObjectID) {α : Type} (x : RefM τ α) : Prop :=
  Triple (State.Indexed S) x (fun _ => State.Indexed S) fun _ _ => True

variable {count : Reference → Reference} {s t : State τ} {r' : Reference} {pinning : Bool}

lemma State.Indexed.mono (h : s.Indexed S) (hr : t.refs = s.refs)
    (hi : t.reconstructableOwnedObjects ⊆ s.reconstructableOwnedObjects) : t.Indexed S := by
  intro x hx
  obtain ⟨r, hr', ho⟩ := h x (hx.imp_left fun hm => hi hm)
  exact ⟨r, hr ▸ hr', ho⟩

lemma State.Indexed.withEntry (h : s.Indexed S)
    (ho : ∀ r, s.refs.lookup id = some r → r.ownedByUs = true → r'.ownedByUs = true) :
    (s.withEntry id r').Indexed S := by
  intro x hx
  obtain ⟨r, hr, howned⟩ := h x hx
  by_cases hid : x = id
  · subst hid
    exact ⟨r', s.withEntry_self x r', ho r hr howned⟩
  · exact ⟨r, (s.withEntry_ne r' hid).trans hr, howned⟩

lemma State.Indexed.shrinks (h : s.Indexed [])
    (hst : Shrinks pinning s t) : t.Indexed [] := by
  rintro x (hx | hx)
  · obtain ⟨r, hr, ho⟩ := h x (.inl (hst.listed.subset hx))
    have hne := hst.present x hx (hr ▸ Option.some_ne_none r)
    obtain ⟨r', hr'⟩ := Option.ne_none_iff_exists'.mp hne
    obtain ⟨r₀, hr₀, hshrinks⟩ := hst.entry x r' hr'
    rw [hr] at hr₀
    cases hr₀
    exact ⟨r', hr', hshrinks.ownedByUs.trans ho⟩
  · cases hx

lemma Reference.ownedByUs_of_links {r : Reference} (h : r'.links = r.links) :
    r'.ownedByUs = r.ownedByUs := congrArg Prod.fst h

variable {cfg : Config τ}

lemma readLogic_index (S : List ObjectID) (checks : Check → Bool) :
    ReadLogic checks fun α (x : RefM τ α) => KeepsIndex S x where
  toComposes := composes_triple _ _
  throw _ := .throw fun _ _ => trivial
  get := .get fun _ hs => hs

lemma keepsIndex_modify {g : State τ → State τ} (hr : ∀ s, (g s).refs = s.refs)
    (hi : ∀ s, (g s).reconstructableOwnedObjects ⊆ s.reconstructableOwnedObjects) :
    KeepsIndex S (modify g : RefM τ PUnit) := .update fun s hs => hs.mono (hr s) (hi s)

lemma keepsIndex_update {f : Reference → Reference}
    (hf : ∀ r, (f r).ownedByUs = r.ownedByUs) : KeepsIndex S (update (τ := τ) id f) := by
  refine triple_update (fun s ref hs hr => hs.withEntry fun r hr' ho => ?_) fun _ _ _ => trivial
  rw [hr] at hr'
  cases hr'
  exact (hf ref).trans ho

lemma keepsIndex_findOrEmplace (id : ObjectID) : KeepsIndex S (findOrEmplace (τ := τ) id) := by
  refine triple_findOrEmplace (fun _ _ hs _ => hs) fun s hs hn => hs.withEntry fun r hr => ?_
  rw [hn] at hr
  cases hr

lemma keepsIndex_setNestedRefInUseRecursive (depth : Nat) (id : ObjectID) :
    KeepsIndex S (setNestedRefInUseRecursive (τ := τ) depth id) := by
  have h := readLogic_index (τ := τ) S fun _ => true
  exact h.setNestedRefInUse rfl rfl rfl (fun id => keepsIndex_update fun _ => rfl) depth id

lemma keepsIndex_addUse (hf : ∀ r, (count r).ownedByUs = r.ownedByUs) : KeepsIndex S (addUse cfg id count) := by
  have h := readLogic_index (τ := τ) S fun _ => true
  refine h.bind (h.deref rfl) fun _ => h.seq (keepsIndex_update hf) ?_
  exact h.bind (h.deref rfl) fun _ => h.onlyIf fun _ => keepsIndex_setNestedRefInUseRecursive _ id

lemma keepsIndex_nestOwned (id : ObjectID) (innerIds : List ObjectID) :
    KeepsIndex S (nestOwned cfg id innerIds) := by
  have h := readLogic_index (τ := τ) S fun _ => true
  refine h.found (h.pure ()) fun _ => ?_
  refine h.seq (h.check rfl) (h.seq ?_ ?_)
  · exact keepsIndex_modify (fun _ => rfl) fun _ => .refl _
  refine h.seq (keepsIndex_update fun _ => rfl) ?_
  refine h.seq (h.forM (fun innerId => ?_) innerIds) ?_
  · refine h.seq (keepsIndex_findOrEmplace innerId) ?_
    exact keepsIndex_addUse fun _ => rfl
  · exact keepsIndex_modify (fun _ => rfl) fun _ => .refl _

lemma entryLogic_index (S : List ObjectID) (cfg : Config τ) :
    EntryLogic cfg fun α (x : RefM τ α) => KeepsIndex S x where
  toReadLogic := readLogic_index S _
  modify hg := keepsIndex_modify (fun s => (hg s).refs) fun s => (hg s).index
  findOrEmplace := keepsIndex_findOrEmplace
  update hf := keepsIndex_update fun r => Reference.ownedByUs_of_links (hf.links r)
  nestOwned := keepsIndex_nestOwned

lemma keepsIndex_addOwnedObject (id : ObjectID) (innerIds : List ObjectID)
    (ownerAddress : WorkerAddress) (objectSize : Int) (isReconstructable : Bool)
    (pinnedAtRayletId : Option NodeID) :
    KeepsIndex [] (addOwnedObject cfg id innerIds ownerAddress objectSize isReconstructable pinnedAtRayletId) := by
  have h := entryLogic_index [id] cfg
  refine .bind (Q := fun _ => State.Indexed [id]) ?_ fun _ => ?_
  · refine .bind (triple_find (Q := fun o s => s.Indexed [] ∧ s.refs.lookup id = o)
      fun s hs => ⟨hs, rfl⟩) fun o => ?_
    refine .seq (.check (Q := fun _ s => s.Indexed [] ∧ s.refs.lookup id = none)
      (fun ho s hs => ⟨hs.1, ho ▸ hs.2⟩) fun _ _ _ => trivial) (.update ?_)
    rintro s ⟨hs, hn⟩ x hx
    by_cases hid : x = id
    · subst hid
      exact ⟨_, s.withEntry_self x _, rfl⟩
    · obtain ⟨r, hr, ho⟩ := hs x (.inl (hx.resolve_right (mt List.mem_singleton.mp hid)))
      exact ⟨r, (s.withEntry_ne _ hid).trans hr, ho⟩
  refine .post (Q := fun _ => State.Indexed [id]) ?_ fun _ s hs x hx =>
    hs x (hx.imp_right nofun)
  refine h.seq (h.onlyIf fun _ => h.addNestedObjectIdsInternal id innerIds _) ?_
  refine h.seq (h.forM h.addObjectLocationInternal _) (h.bind h.get fun s => ?_)
  refine h.seq (h.check rfl) (.update fun s hs x hx => hs x ?_)
  exact hx.elim List.mem_append.mp .inr

lemma keepsIndex_of_moves {α : Type} {x : RefM τ α}
    (h : Moves (Shrinks pinning) x) : KeepsIndex [] x := by
  have hx := (Triple.frame (P := State.Indexed []) (Q := fun _ _ => True) (E := fun _ _ => True)
    (fun s _ => by cases x s <;> trivial) h)
  refine hx.post fun _ t ht => ?_
  obtain ⟨_, s, hs, hst⟩ := ht
  exact hs.shrinks hst

lemma keepsIndex_removeUse {collect : Bool} (hf : ∀ r, (count r).ownedByUs = r.ownedByUs) :
    KeepsIndex [] (removeUse cfg collect id count) := by
  have h := readLogic_index (τ := τ) [] fun _ => true
  refine h.seq (keepsIndex_update hf) (h.bind (h.deref rfl) fun _ => h.onlyIf fun _ => ?_)
  exact keepsIndex_of_moves (moves_shrinks_deleteReferenceInternal cfg collect _ id)

lemma keepsIndex_nestBorrowed (id outerId : ObjectID) : KeepsIndex S (nestBorrowed cfg id outerId) := by
  have h := readLogic_index (τ := τ) S fun _ => true
  refine h.found (h.pure ()) fun _ => ?_
  refine h.onlyIf fun _ => h.seq ?_ (h.seq (keepsIndex_update fun _ => rfl) ?_)
  · exact keepsIndex_modify (fun _ => rfl) fun _ => .refl _
  refine h.seq (keepsIndex_update fun _ => rfl) (h.seq ?_ ?_)
  · exact keepsIndex_modify (fun _ => rfl) fun _ => .refl _
  exact h.bind (h.deref rfl) fun _ => h.onlyIf fun _ => keepsIndex_setNestedRefInUseRecursive _ id

lemma keepsIndex_popBorrowed (refs : ReferenceTable) (id : ObjectID) :
    KeepsIndex [] (popBorrowed cfg refs id) := by
  have h := readLogic_index (τ := τ) [] fun _ => true
  have hc := clearingLogic_shrinks (τ := τ) cfg.lineagePinningEnabled
  refine h.seq (keepsIndex_of_moves (hc.record _)) ?_
  refine h.bind (keepsIndex_of_moves (hc.getAndClearLocalBorrowersInternal false _ id refs))
    fun popped => h.seq (h.check rfl) ?_
  cases popped.2.lookup id with
  | none => exact h.pure _
  | some ref => exact h.pure _

lemma keepsIndex_setDeleteCallback (id : ObjectID) : KeepsIndex S (setDeleteCallback cfg id) := by
  have h := readLogic_index (τ := τ) S fun _ => true
  refine h.found (h.pure false) fun _ => ?_
  refine h.ite (fun _ => h.pure false) fun _ => h.bind h.get fun s => ?_
  refine h.ite (fun _ => h.pure false) fun _ => ?_
  exact h.seq (keepsIndex_update fun _ => rfl) (h.pure true)

lemma callLogic_index (cfg : Config τ) : CallLogic cfg fun α (x : RefM τ α) => KeepsIndex [] x := by
  have h := readLogic_index (τ := τ) [] fun _ => true
  have hdelete := fun collect id => keepsIndex_of_moves
    (moves_shrinks_deleteReferenceInternal cfg collect cfg.stackDepth id)
  have hc := clearingLogic_shrinks (τ := τ) cfg.lineagePinningEnabled
  exact
    { toEntryLogic := entryLogic_index [] cfg
      addOwnedObject := keepsIndex_addOwnedObject
      setNestedRefInUseRecursive := keepsIndex_setNestedRefInUseRecursive
      addLocal := fun _ => keepsIndex_addUse fun _ => rfl
      removeLocal := fun _ _ => keepsIndex_removeUse fun _ => rfl
      nestBorrowed := keepsIndex_nestBorrowed
      deleteReferenceInternal := hdelete
      dropBorrower := fun id _ => h.bind (keepsIndex_update fun _ => rfl) fun _ => hdelete false id
      reportRefRemoved := fun id =>
        h.bind (keepsIndex_of_moves (hc.handleRefRemoved cfg id)) fun _ => hdelete false id
      popBorrowed := keepsIndex_popBorrowed
      setDeleteCallback := keepsIndex_setDeleteCallback
      releaseLineageReferences := fun id =>
        keepsIndex_of_moves (moves_shrinks_releaseLineageReferences cfg _ id) }

lemma taskCallLogic_index (cfg : Config τ) : TaskCallLogic cfg fun α (x : RefM τ α) => KeepsIndex [] x where
  toCallLogic := callLogic_index cfg
  countZero := .throw fun _ _ => trivial
  resubmittedMissing := .throw fun _ _ => trivial
  addSubmitted _ := keepsIndex_addUse fun _ => rfl
  addResubmitted _ := keepsIndex_addUse fun _ => rfl
  removeSubmitted _ _ := keepsIndex_removeUse fun _ => rfl

end AmazonRay.ReferenceCounter
