import AmazonRay.ReferenceCounter.NestingSteps

/-! Every operation keeps the index of nested objects, in regular runs. -/
namespace AmazonRay.ReferenceCounter
open Program List State Reference Keeps

variable {τ : Type} {strict : Bool} {cfg : Config τ} {id : ObjectID} {outerId : ObjectID} {pinning : Bool} {s : State τ} {l : List ObjectID} {r : Reference} (inner : List ObjectID)

lemma mem_insertAll {x : ObjectID} : x ∈ inner.foldl (fun l i => l.insert i) l ↔ x ∈ l ∨ x ∈ inner := by
  induction inner generalizing l with
  | nil => simp
  | cons i inner ih =>
    rw [foldl_cons, ih, mem_insert_iff, mem_cons]
    tauto

lemma nodup_insertAll (h : l.Nodup) : (inner.foldl (fun l i => l.insert i) l).Nodup := by
  induction inner generalizing l with
  | nil => exact h
  | cons i inner ih => exact ih (h.insert)

/-- While ids are put under an owned object: contents not yet linked are to come or were un-nested. -/
structure PuttingUnder (strict : Bool) (cfg : Config τ) (id : ObjectID)
    (innerIds contents rem l : List ObjectID) (s : State τ) : Prop where
  nesting : Nesting strict cfg.lineagePinningEnabled (Progress.nesting {} id l) s
  linked : ∀ y ∈ contents, y ∈ l ∨ y ∈ rem ∨ (id, y) ∈ s.unnested ∧ y ∉ innerIds
  listed : ∀ y ∈ rem, y ∈ contents
  outer : ∃ r, s.refs.lookup id = some r ∧ r.ownedByUs = true ∧ r.contains = contents ∧
    ¬ (r.outOfScope cfg.lineagePinningEnabled = true ∧ 0 < r.lineageRefCount)

lemma Reference.putInOwned_inScope (pinning : Bool) (outer : ObjectID) (r : Reference) :
    (r.putInOwned outer).outOfScope pinning = false := by
  refine outOfScope_of_refCount fun hz => ?_
  have hm : outer ∈ (r.putInOwned outer).containedInOwned := mem_insert_self
  rw [(refCount_eq_zero.mp hz).2.2] at hm
  exact not_mem_nil hm

lemma spec_putUnder (id innerId : ObjectID) (innerIds contents rem l : List ObjectID) :
    Spec strict cfg.lineagePinningEnabled (PuttingUnder strict cfg id innerIds contents (innerId :: rem) l) (do
        let _ ← findOrEmplace innerId
        addUse cfg innerId (putInOwned id))
      (fun _ => PuttingUnder strict cfg id innerIds contents rem (innerId :: l)) := by
  let I := PuttingUnder strict cfg id innerIds contents (innerId :: rem) l
  refine .bind (.findOrEmplace (fun _ _ h _ => h) ?_) fun _ => ?_
  · intro s h hn
    obtain ⟨r, hr, ho⟩ := h.outer
    have hne : innerId ≠ id := by
      rintro rfl
      rw [hn] at hr
      cases hr
    refine ⟨h.nesting.emplace hn (Function.update_of_ne hne _ _) rfl
      (by intro side; cases side <;> rfl) rfl, h.linked, h.listed, r, ?_, ho⟩
    rwa [withEntry_ne s _ hne.symm]
  -- The outer entry and the lists are not touched by the report of nested uses.
  refine .post (spec_addUse cfg (F := fun s => (∃ r, s.refs.lookup id = some r ∧
    r.ownedByUs = true ∧ r.contains = contents ∧
    ¬ (r.outOfScope cfg.lineagePinningEnabled = true ∧ 0 < r.lineageRefCount)) ∧
    (∀ y ∈ contents, y ∈ innerId :: l ∨ y ∈ rem ∨ (id, y) ∈ s.unnested ∧ y ∉ innerIds) ∧
    ∀ y ∈ rem, y ∈ contents) ?_ (Progress.nesting {} id (innerId :: l)) rfl innerId _ ?_)
    fun _ s h => ⟨h.1, h.2.2.1, h.2.2.2, h.2.1⟩
  · rintro s t hst ⟨⟨r, hr, ho, hc, hsc⟩, hl, hrem⟩
    refine ⟨?_, hst.unnested ▸ hl, hrem⟩
    rcases hst.entries id with hx | ⟨r', hr', hx⟩
    · exact ⟨r, hx.trans hr, ho, hc, hsc⟩
    · rw [hr] at hr'
      cases hr'
      exact ⟨_, hx, ho, hc, fun h => nomatch (outOfScope_iff.mp h.1).2.2.1⟩
  · intro s i h hi
    obtain ⟨r, hr, ho, hc, hsc⟩ := h.outer
    have hmem : innerId ∈ r.contains := hc ▸ h.listed innerId mem_cons_self
    refine ⟨h.nesting.link rfl hr hsc hmem hi rfl rfl ?_, ?_, ?_, fun y hy => h.listed y (mem_cons_of_mem _ hy)⟩
    · intro side x
      cases side <;> simp [containers, putInOwned, ho, or_comm]
    · by_cases he : innerId = id
      · subst he
        rw [hi] at hr
        cases hr
        exact ⟨_, withEntry_self s _ _, ho, hc, fun h => Bool.eq_false_iff.mp (putInOwned_inScope _ _ i) h.1⟩
      · exact ⟨r, by rwa [withEntry_ne s _ (Ne.symm he)], ho, hc, hsc⟩
    · intro y hy
      rcases h.linked y hy with hl | hl | hl
      · exact .inl (mem_cons_of_mem _ hl)
      · rcases mem_cons.mp hl with rfl | hl
        · exact .inl mem_cons_self
        · exact .inr (.inl hl)
      · exact .inr (.inr hl)

lemma keeps_nestOwned (id : ObjectID) (innerIds : List ObjectID) : Keeps strict cfg (nestOwned cfg id innerIds) := by
  let N := Nesting strict cfg.lineagePinningEnabled {} (τ := τ)
  refine Spec.bind (.find (Q := fun o s => N s ∧ s.refs.lookup id = o) fun s h => ⟨h, rfl⟩) fun o => ?_
  cases o with
  | none => exact .pure fun s h => h.1
  | some ref =>
    refine .seq (.check (Q := fun _ s => (N s ∧ s.refs.lookup id = some ref) ∧
      ref.ownedByUs = true) (fun hc s h => ⟨h, hc⟩) (.inl rfl)) ?_
    refine .seq (.record (Q := fun _ s => (N s ∧ s.refs.lookup id = some ref) ∧
      ref.ownedByUs = true ∧ ¬ (ref.outOfScope cfg.lineagePinningEnabled = true ∧
        0 < ref.lineageRefCount)) (fun _ _ _ => trivial) ?_) ?_
    · exact fun s h hreg => ⟨⟨h.1.1.congr (fun _ => rfl) rfl (.refl _), h.1.2⟩, h.2, hreg⟩
    let contents := innerIds.foldl (fun l i => l.insert i) ref.contains
    refine .seq (.update (Q := fun _ s => ∃ l, PuttingUnder strict cfg id innerIds contents innerIds l s) ?_) ?_
    · rintro s r ⟨⟨h, hr⟩, ho, hreg⟩ hx
      rw [hr] at hx
      cases hx
      -- Of the contents so far, those that were not un-nested are linked.
      refine ⟨ref.contains.filter fun y => (id, y) ∉ s.unnested, h.extend rfl rfl hr rfl
        (fun side => by cases side <;> rfl) ?_ ?_ ?_ hreg, ?_, ?_, _, withEntry_self s _ _, ho,
        rfl, hreg⟩
      · exact fun x hx => (mem_insertAll innerIds).mpr (.inl hx)
      · exact nodup_insertAll innerIds (h.nodup id ref hr)
      · exact fun y hy => by simpa using mem_filter.mp hy
      · intro y hy
        by_cases hin : y ∈ innerIds
        · exact .inr (.inl hin)
        · have hy := ((mem_insertAll innerIds).mp hy).resolve_right hin
          by_cases hu : (id, y) ∈ s.unnested
          · exact .inr (.inr ⟨hu, hin⟩)
          · exact .inl (mem_filter.mpr ⟨hy, by simpa using hu⟩)
      · exact fun y hy => (mem_insertAll innerIds).mpr (.inr hy)
    refine .seq (.forM (I := fun rem s => ∃ l, PuttingUnder strict cfg id innerIds contents
      rem l s) (fun innerId rem => .exists fun l => .post
        (spec_putUnder id innerId innerIds contents rem l) fun _ s h => ⟨_, h⟩) innerIds) ?_
    refine .modify (fun _ => rfl) ?_
    rintro s ⟨l, h⟩
    obtain ⟨r, hr, _, hc, _⟩ := h.outer
    exact h.nesting.close rfl hr fun y hy => (h.linked y (hc ▸ hy)).imp_right fun h => h.resolve_left not_mem_nil

lemma keeps_emplaceOwned (id : ObjectID) (ref : Reference) (hl : ref.links = (true, [], [], []))
    (hc : ref.taskCounts = (0, 0)) : Keeps strict cfg (emplaceOwned id ref) := by
  let N := Nesting strict cfg.lineagePinningEnabled {} (τ := τ)
  simp only [links, taskCounts, Prod.mk.injEq] at hl hc
  refine Spec.bind (.find (Q := fun o s => N s ∧ s.refs.lookup id = o) fun s h => ⟨h, rfl⟩) fun o => ?_
  refine .seq (.check (Q := fun _ s => N s ∧ s.refs.lookup id = none) (fun ho s h => ⟨h.1, ho ▸ h.2⟩) (.inl rfl)) ?_
  refine .modify (fun _ => rfl) fun s h => h.1.emplace h.2 rfl hl.2.1 (fun side => ?_) hc.2
  cases side with
  | true => exact hl.2.2.1
  | false => exact hl.2.2.2

def PutUnder (strict pinning : Bool) (id outerId : ObjectID) (s : State τ) : Prop :=
  ∃ l r, Nesting strict pinning (Progress.nesting {} outerId l) s ∧
    s.refs.lookup outerId = some r ∧
    ∀ y ∈ r.contains, y ∈ l ∨ (outerId, y) ∈ s.unnested ∧ y ∉ [id]

lemma PutUnder.congr {t : State τ}
    (h : PutUnder strict pinning id outerId s) (hr : ∀ x, t.refs.lookup x = s.refs.lookup x)
    (hst : t.releasing = s.releasing) (hu : t.unnested = s.unnested) :
    PutUnder strict pinning id outerId t := by
  obtain ⟨l, r, hn, hx, hc⟩ := h
  exact ⟨l, r, hn.congr hr hst (hu ▸ .refl _), (hr outerId).trans hx, hu ▸ hc⟩

lemma Nesting.nestBorrowed {outer ref : Reference} (h : Nesting strict pinning {} s)
    (ho : s.refs.lookup outerId = some outer) (hown : outer.ownedByUs = false)
    (hreg : ¬ (outer.outOfScope pinning = true ∧ 0 < outer.lineageRefCount))
    (hx : (s.withEntry outerId (outer.addContained [id])).refs.lookup id = some ref) :
    PutUnder strict pinning id outerId ((s.withEntry outerId (outer.addContained [id])).withEntry id
      (ref.putInBorrowed outerId)) := by
  have hnd := nodup_insertAll [id] (h.nodup outerId outer ho)
  have h₁ : Nesting strict pinning (Progress.nesting {} outerId
      (outer.contains.filter fun y => (outerId, y) ∉ s.unnested))
      (s.withEntry outerId (outer.addContained [id])) :=
    h.extend rfl rfl ho rfl (fun side => by cases side <;> rfl) (fun x hx => (mem_insertAll [id]).mpr (.inl hx)) hnd
      (fun y hy => by simpa using mem_filter.mp hy) hreg
  have hmem : id ∈ (outer.addContained [id]).contains := (mem_insertAll [id]).mpr (.inr mem_cons_self)
  have hlink : ∀ side x, x ∈ (ref.putInBorrowed outerId).containers side ↔
      x ∈ ref.containers side ∨ x = outerId ∧ side = outer.ownedByUs := fun side x => by
    cases side <;> simp [containers, putInBorrowed, hown, or_comm]
  have h₂ : Nesting strict pinning (Progress.nesting {} outerId
      (id :: outer.contains.filter fun y => (outerId, y) ∉ s.unnested))
      ((s.withEntry outerId (outer.addContained [id])).withEntry id (ref.putInBorrowed outerId)) :=
    h₁.link rfl (withEntry_self s _ _) hreg hmem hx rfl rfl hlink
  -- The outer entry after both updates, which are one when it is put under itself.
  have hout : ∃ r, ((s.withEntry outerId (outer.addContained [id])).withEntry id
      (ref.putInBorrowed outerId)).refs.lookup outerId = some r ∧
      r.contains = (outer.addContained [id]).contains := by
    by_cases he : outerId = id
    · subst he
      rw [withEntry_self] at hx
      cases hx
      exact ⟨_, withEntry_self _ _ _, rfl⟩
    · exact ⟨_, (withEntry_ne _ _ he).trans (withEntry_self s _ _), rfl⟩
  obtain ⟨r, hr, hc⟩ := hout
  refine ⟨_, r, h₂, hr, fun y hy => ?_⟩
  rw [hc] at hy
  by_cases hyid : y = id
  · exact .inl (mem_cons.mpr (.inl hyid))
  · have hold := ((mem_insertAll [id]).mp hy).resolve_right fun h => hyid (mem_singleton.mp h)
    by_cases hu : (outerId, y) ∈ s.unnested
    · exact .inr ⟨hu, fun h => hyid (mem_singleton.mp h)⟩
    · exact .inl (mem_cons_of_mem _ (mem_filter.mpr ⟨hold, by simpa using hu⟩))

lemma keeps_nestBorrowed (id outerId : ObjectID) : Keeps strict cfg (nestBorrowed cfg id outerId) := by
  let N := Nesting strict cfg.lineagePinningEnabled {} (τ := τ)
  refine Spec.bind (.find (Q := fun o s => N s ∧ s.refs.lookup outerId = o) fun s h => ⟨h, rfl⟩) fun o => ?_
  cases o with
  | none => exact .pure fun s h => h.1
  | some outer =>
    refine .onlyIf (fun hown => ?_) fun _ s h => h.1
    refine .seq (.record (Q := fun _ s => (N s ∧ s.refs.lookup outerId = some outer) ∧
      ¬ (outer.outOfScope cfg.lineagePinningEnabled = true ∧ 0 < outer.lineageRefCount))
      (fun _ _ _ => trivial) fun s h hreg => ⟨⟨h.1.congr (fun _ => rfl) rfl (.refl _), h.2⟩, hreg⟩) ?_
    refine .seq (.update (Q := fun _ s => ∃ s₀ ref, ((N s₀ ∧
      s₀.refs.lookup outerId = some outer) ∧ ¬ (outer.outOfScope cfg.lineagePinningEnabled = true ∧
      0 < outer.lineageRefCount)) ∧ s₀.refs.lookup id = some ref ∧
      s = s₀.withEntry id (ref.putInBorrowed outerId)) ?_) ?_
    · exact fun s ref h href => ⟨s, ref, h, href, rfl⟩
    refine .seq (.update (Q := fun _ => PutUnder strict cfg.lineagePinningEnabled id outerId) ?_) ?_
    · rintro _ o ⟨s, ref, ⟨⟨h, ho⟩, hreg⟩, href, rfl⟩ hx
      by_cases he : outerId = id
      · subst he
        rw [ho] at href
        cases href
        rw [withEntry_self] at hx
        cases hx
        refine (h.nestBorrowed ho hown hreg (withEntry_self s _ _)).congr (fun x => ?_) rfl rfl
        simp only [withEntry_lookup]
        split <;> rfl
      · rw [withEntry_ne s _ he, ho] at hx
        cases hx
        refine (h.nestBorrowed ho hown hreg ((withEntry_ne s _ (Ne.symm he)).trans href)).congr (fun x => ?_) rfl rfl
        simp only [withEntry_lookup]
        by_cases hxo : x = outerId
        · rw [if_pos hxo, if_pos hxo, if_neg (hxo ▸ he)]
        · rw [if_neg hxo, if_neg hxo]
    refine .seq (.modify (Q := fun _ => N) (fun _ => rfl) ?_) ?_
    · rintro s ⟨l, r, h, hr, hc⟩
      exact h.close rfl hr hc
    exact Keeps.bind Keeps.deref fun r => Keeps.onlyIf fun _ => Keeps.setNestedRefInUseRecursive

lemma keeps_dropBorrower (id : ObjectID) (borrowerAddr : WorkerAddress) :
    Keeps strict cfg (dropBorrower cfg id borrowerAddr) := by
  refine Spec.seq (.update (Q := fun _ =>
    Nesting strict cfg.lineagePinningEnabled { due := some id }) fun s r h hr => ?_) ?_
  · exact (h.makeDue rfl id).withEntry hr rfl (fun hd => absurd rfl hd) fun hl => absurd hl not_mem_nil
  · exact (spec_deleteReferenceInternal cfg false _).2 {} id ⟨rfl, fun _ h => absurd rfl h, fun _ h => h⟩ not_mem_nil

lemma keeps_reportRefRemoved (id : ObjectID) : Keeps strict cfg (reportRefRemoved cfg id) := by
  refine Spec.bind ?_ fun _ => (spec_deleteReferenceInternal cfg false _).2 {} id
      ⟨rfl, fun _ h => absurd rfl h, fun _ h => h⟩ not_mem_nil
  exact .pre (spec_handleRefRemoved cfg { due := some id } (fun _ h => absurd rfl h) id
    not_mem_nil rfl) fun s h => h.makeDue rfl id

lemma keeps_popBorrowed (borrowedRefs : ReferenceTable) (id : ObjectID) :
    Keeps strict cfg (popBorrowed cfg borrowedRefs id) := by
  let N := Nesting strict cfg.lineagePinningEnabled {} (τ := τ)
  refine Spec.seq (.record (Q := fun _ s => N s ∧ Anchored {} id s) (fun _ _ _ => trivial) ?_) ?_
  · intro s h hreg
    refine ⟨h.congr (fun _ => rfl) rfl (.refl _), not_mem_nil, .inr fun r hr hz => ?_⟩
    rw [show s.refs.lookup id = some r from hr] at hreg
    exact absurd (refCount_eq_zero.mp hz).1 hreg.ne'
  refine .bind (Q := fun _ => N) ?_ fun popped => ?_
  · refine .named fun s₀ => ?_
    refine .post (.pre (spec_getAndClearLocalBorrowersInternal false {}
      (fun _ h => absurd rfl h) s₀ _ id borrowedRefs) ?_) fun _ s h => h.1
    rintro s ⟨h, rfl⟩
    exact ⟨h.1, refl_of _ s, h.2⟩
  refine bind (check rfl) fun _ => ?_
  cases popped.2.lookup id with
  | none => exact pure _
  | some ref => exact pure _

lemma keeps_setDeleteCallback (id : ObjectID) : Keeps strict cfg (setDeleteCallback cfg id) := by
  let N := Nesting strict cfg.lineagePinningEnabled {} (τ := τ)
  refine Spec.bind (.find (Q := fun o s => N s ∧ s.refs.lookup id = o) fun s h => ⟨h, rfl⟩) fun o => ?_
  cases o with
  | none => exact .pure fun s h => h.1
  | some ref =>
    refine .ite (fun _ => .pure fun s h => h.1) fun hscope => ?_
    refine .bind (.get (Q := fun _ s => N s ∧ s.refs.lookup id = some ref) fun s h => h) fun s₁ => ?_
    refine .ite (fun _ => .pure fun s h => h.1) fun _ => ?_
    refine .bind (.update ?_) fun _ => .pure fun _ h => h
    rintro s r ⟨h, hr⟩ hx
    rw [hr] at hx
    cases hx
    -- An object kept only for its lineage is turned down before.
    refine h.withEntry_le hr rfl rfl fun ho hlin => ?_
    exfalso
    have hdel : ref.shouldDelete cfg.lineagePinningEnabled = true := by
      simpa [show ref.outOfScope cfg.lineagePinningEnabled = true from ho] using hscope
    have hpin := (h.kept id ref hr (Option.some_ne_none id).symm not_mem_nil ho hlin).1
    exact absurd ((shouldDelete_iff.mp hdel).2 hpin) hlin.ne'

lemma keeps_update {f : Reference → Reference} (hf : Harmless cfg.lineagePinningEnabled f) :
    Keeps strict cfg (update id f) := by
  refine Keeps.update hf.links fun r ho hlin => ?_
  obtain ⟨hout, hd⟩ := hf.scope r ho hlin
  have hcounts := hf.taskCounts r
  simp only [taskCounts, Prod.mk.injEq] at hcounts
  exact ⟨hout, hcounts.2 ▸ hlin, hd⟩

lemma Reference.refCount_pos_of_local (h : 0 < r.localRefCount) : r.refCount ≠ 0 :=
  fun hz => absurd (refCount_eq_zero.mp hz).1 h.ne'

lemma Reference.refCount_pos_of_submitted (h : 0 < r.submittedTaskRefCount) : r.refCount ≠ 0 :=
  fun hz => absurd (refCount_eq_zero.mp hz).2.1 h.ne'

lemma entryLogic_keeps (strict : Bool) (cfg : Config τ) : EntryLogic cfg fun _ x => Keeps strict cfg x where
  pure := pure
  bind := bind
  throw he := throw (by simpa using (Bool.and_eq_true_iff.mp he).1)
  get := get
  modify hg := modify (fun s => (hg s).history) (fun s => (hg s).refs)
    (fun s => (hg s).releasing) fun s => (hg s).unnested
  findOrEmplace _ := Keeps.findOrEmplace
  update := keeps_update
  nestOwned := keeps_nestOwned

lemma callLogic_keeps (strict : Bool) (cfg : Config τ) : CallLogic cfg fun _ x => Keeps strict cfg x where
  toEntryLogic := entryLogic_keeps strict cfg
  addOwnedObject := (entryLogic_keeps strict cfg).addOwnedObject (keeps_emplaceOwned _ _)
    fun _ => modify (fun _ => rfl) (fun _ => rfl) (fun _ => rfl) fun _ => rfl
  setNestedRefInUseRecursive _ _ := Keeps.setNestedRefInUseRecursive
  addLocal _ := Keeps.addUse (fun _ => rfl) fun r => refCount_pos_of_local (Nat.succ_pos r.localRefCount)
  removeLocal _ _ := Keeps.removeUse fun _ => rfl
  nestBorrowed := keeps_nestBorrowed
  deleteReferenceInternal _ _ := Keeps.deleteReferenceInternal
  dropBorrower := keeps_dropBorrower
  reportRefRemoved := keeps_reportRefRemoved
  popBorrowed := keeps_popBorrowed
  setDeleteCallback := keeps_setDeleteCallback
  releaseLineageReferences id := spec_releaseLineageReferences cfg _ {} id rfl

lemma taskCallLogic_keeps (strict : Bool) (cfg : Config τ) : TaskCallLogic cfg fun _ x => Keeps strict cfg x where
  toCallLogic := callLogic_keeps strict cfg
  countZero := throw rfl
  resubmittedMissing := throw rfl
  addSubmitted _ := Keeps.addUse (fun _ => rfl) fun r =>
    refCount_pos_of_submitted (Nat.succ_pos r.submittedTaskRefCount)
  addResubmitted _ := Keeps.addUse (fun _ => rfl) fun r =>
    refCount_pos_of_submitted (Nat.succ_pos r.submittedTaskRefCount)
  removeSubmitted _ _ := Keeps.removeUse fun _ => rfl

lemma keeps_run (op : Op) : Keeps strict cfg (op.run cfg) := (taskCallLogic_keeps strict cfg).run op

end AmazonRay.ReferenceCounter
