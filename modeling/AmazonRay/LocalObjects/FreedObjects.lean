import AmazonRay.LocalObjects.Programs

/-! Freed objects of a `LocalObjectManager`: a released object waits in the queue unless a failed spill pins it again.
-/
namespace AmazonRay.LocalObjects
open Program List AList Manager

namespace Manager

def Forgotten (m : Manager) : Prop :=
  ∀ id ∈ m.released, id ∉ m.pinnedObjects ∧ id ∉ m.objectsPendingSpill ∧ id ∉ m.spilledObjectsUrl

structure Queued (pinned pending : AList fun _ : ObjectID => PinnedObject) (urls : AList fun _ : ObjectID => Url)
    (queue : List ObjectID) (id : ObjectID) : Prop where
  unpinned : id ∉ pinned
  pending : id ∈ pending → id ∈ queue
  spilled : id ∈ urls → id ∈ queue

def Waits (m : Manager) : Prop :=
  ∀ id ∈ m.released, Queued m.pinnedObjects m.objectsPendingSpill m.spilledObjectsUrl m.spilledObjectPendingDelete id

lemma Waits.forgotten {m : Manager} (h : m.Waits) (hqueue : m.spilledObjectPendingDelete = []) : m.Forgotten := by
  intro id hid
  have hq := h id hid
  have hnone : id ∉ m.spilledObjectPendingDelete := by
    rw [hqueue]
    exact not_mem_nil
  exact ⟨hq.unpinned, fun hp => hnone (hq.pending hp), fun hs => hnone (hq.spilled hs)⟩

section

variable {m : Manager} {id : ObjectID} {object : PinnedObject}

variable (h : m.Waits)
include h

lemma Waits.setPending (hid : m.pinnedObjects.lookup id = some object) : (m.setPending id object).Waits := by
  intro x hx
  have hq := h x hx
  have hne : x ≠ id := by
    rintro rfl
    exact hq.unpinned (lookup_isSome.mp (Option.isSome_of_mem hid))
  refine ⟨fun hp => hq.unpinned ((mem_erase).mp hp).2, fun hp => ?_, hq.spilled⟩
  exact hq.pending (((mem_insert _).mp hp).resolve_left hne)

lemma Waits.unpin (id : ObjectID) : (m.unpin id).Waits := by
  intro x hx
  rcases mem_cons.mp hx with rfl | hx
  · refine ⟨fun hp => (mem_erase.mp hp).1 rfl, fun _ => ?_, fun _ => ?_⟩
    · exact mem_append_right _ (mem_singleton_self x)
    · exact mem_append_right _ (mem_singleton_self x)
  · have hq := h x hx
    refine ⟨fun hp => hq.unpinned (mem_erase.mp hp).2, fun hp => ?_, fun hs => ?_⟩
    · exact mem_append_left _ (hq.pending hp)
    · exact mem_append_left _ (hq.spilled hs)

lemma Waits.pin (id : ObjectID) (object : PinnedObject) (size : UInt64) : Waits { m with
    pinnedObjectsSize := size
    pinnedObjects := emplace id object m.pinnedObjects
    released := m.released.filter (· ≠ id) } := by
  intro x hx
  obtain ⟨hx, hne⟩ := mem_filter.mp hx
  have hq := h x hx
  refine ⟨fun hp => ?_, hq.pending, hq.spilled⟩
  exact hq.unpinned ((mem_emplace.mp hp).resolve_left (of_decide_eq_true hne))

lemma Waits.restored (hid : id ∉ m.released) (object : PinnedObject) : (m.restored id object).Waits := by
  intro x hx
  have hq := h x hx
  have hne : x ≠ id := by
    rintro rfl
    exact hid hx
  refine ⟨fun hp => ?_, fun hp => ?_, hq.spilled⟩
  · exact hq.unpinned ((mem_emplace.mp hp).resolve_left hne)
  · exact hq.pending (mem_erase.mp hp).2

lemma Waits.spilledAt {spilled : ObjectID × Url} (hid : spilled.1 ∈ m.objectsPendingSpill)
    (base : Url) (object : PinnedObject) : (m.spilledAt spilled base object).Waits := by
  intro x hx
  have hq := h x hx
  refine ⟨hq.unpinned, fun hp => hq.pending (mem_erase.mp hp).2, fun hs => ?_⟩
  rcases mem_emplace.mp hs with rfl | hs
  · exact hq.pending hid
  · exact hq.spilled hs

lemma Waits.dropped (id : ObjectID) (base : Url) (count : UInt64) : (m.dropped id base count).Waits := by
  intro x hx
  have hq := h x hx
  exact ⟨hq.unpinned, hq.pending, fun hs => hq.spilled (mem_erase.mp hs).2⟩

lemma Waits.pop {queue : List ObjectID} (hqueue : m.spilledObjectPendingDelete = id :: queue)
    (hpending : id ∉ m.objectsPendingSpill) (hspilled : id ∉ m.spilledObjectsUrl) :
    Waits { m with spilledObjectPendingDelete := queue } := by
  intro x hx
  have hq := h x hx
  have hrest (hne : x ≠ id) (hmem : x ∈ m.spilledObjectPendingDelete) : x ∈ queue := by
    rw [hqueue] at hmem
    exact (mem_cons.mp hmem).resolve_left hne
  refine ⟨hq.unpinned, fun hp => hrest ?_ (hq.pending hp), fun hs => hrest ?_ (hq.spilled hs)⟩
  · rintro rfl
    exact hpending hp
  · rintro rfl
    exact hspilled hs

end

lemma closed_waits : Closed Waits where
  setPending _ _ _ h hid := h.setPending hid
  unpin _ id h := h.unpin id
  spills _ _ _ _ h := h
  call _ _ h _ := h
  free _ _ h := h

def Unreleased (ids : List ObjectID) (m : Manager) : Prop := ∀ id ∈ ids, id ∉ m.released

lemma waits_onSpillReply (request : SpillRequest) (reply : Option (List Url)) :
    Keeps (fun m => m.Waits ∧ m.Unreleased (request.objectsToSpill.drop (reply.getD []).length))
      (onSpillReply request reply) := by
  refine keeps_onSpillReply (fun _ _ h _ => h) (fun _ h => h) (fun id hid m object h _ => ?_)
    fun m spilled base object h _ hobject => ?_
  · exact ⟨h.1.restored (h.2 id hid) object, h.2⟩
  · exact ⟨h.1.spilledAt (lookup_isSome.mp (Option.isSome_of_mem hobject)) base object, h.2⟩

lemma keeps_processDeletes (maxBatchSize : ℕ) (queue : List ObjectID) (urlsToDelete : List Url) :
    Partly (fun m => m.Waits ∧ m.spilledObjectPendingDelete = queue)
      (processDeletes maxBatchSize queue urlsToDelete) fun _ => Waits := by
  induction queue generalizing urlsToDelete with
  | nil => exact .pure fun _ h => h.1
  | cons id queue ih =>
    refine .read fun m h => .ite (fun hc => ?_) fun _ => .done h.1
    refine .call (triple_dropSpilled id urlsToDelete) fun urls t ht => ?_
    refine .bind (.updated ?_) fun _ => ih urls
    obtain ⟨hnone, rfl, -⟩ | ⟨url, base, count, -, -, -, rfl, -⟩ := ht
    · exact ⟨h.1.pop h.2 hc.2 (lookup_eq_none.mp hnone), rfl⟩
    · exact ⟨(h.1.dropped id base count).pop h.2 hc.2 fun hs => (mem_erase.mp hs).1 rfl, rfl⟩

lemma keeps_processSpilledObjectsDeleteQueue (maxBatchSize : ℕ) :
    Keeps Waits (processSpilledObjectsDeleteQueue maxBatchSize) := by
  refine .read fun m h => .bind ((keeps_processDeletes _ _ _).pre ?_) fun urls => ?_
  · rintro t rfl
    exact ⟨h, rfl⟩
  · exact (keeps_composes Waits).onlyIf fun _ => .update fun _ h => h

def Leaks (id : ObjectID) (m : Manager) : Prop := id ∈ m.released ∧ id ∈ m.pinnedObjects

lemma Leaks.restored {m : Manager} {id : ObjectID} (h : Leaks id m) (x : ObjectID) (object : PinnedObject) :
    Leaks id (m.restored x object) := ⟨h.1, mem_emplace.mpr (.inr h.2)⟩

lemma leaks_restoreAll {ids : List ObjectID} {id : ObjectID} (hid : id ∈ ids) :
    Partly (fun m => id ∈ m.released) (ids.forM restorePinned) fun _ => Leaks id := by
  induction ids with
  | nil => cases hid
  | cons x ids ih =>
    by_cases hx : id = x
    · subst hx
      refine .bind (.each fun m hm => (triple_restorePinned id).post ?_) fun _ =>
        .forM_mem fun y _ => .each fun m hm => (triple_restorePinned y).post ?_
      · rintro _ _ ⟨object, -, rfl⟩
        exact ⟨hm, mem_emplace.mpr (.inl rfl)⟩
      · rintro _ _ ⟨object, -, rfl⟩
        exact hm.restored y object
    · refine .bind (.each fun m hm => (triple_restorePinned x).post ?_) fun _ => ih ((mem_cons.mp hid).resolve_left hx)
      rintro _ _ ⟨object, -, rfl⟩
      exact hm

lemma leaks_onSpillReply {request : SpillRequest} {reply : Option (List Url)} {id : ObjectID}
    (hid : id ∈ request.objectsToSpill.drop (reply.getD []).length) :
    Partly (fun m => id ∈ m.released) (onSpillReply request reply) fun _ => Leaks id := by
  refine .bind (Q := fun _ m => id ∈ m.released) (.update fun _ h => h) fun _ => ?_
  refine .testing (.seq (leaks_restoreAll hid) ?_)
  refine .seq (.forM_mem fun spilled _ => .each fun m hm => ?_) (keeps_answer (fun _ _ h _ => h) _ _)
  apply (triple_onObjectSpilled spilled).post
  rintro _ _ ⟨base, object, -, -, rfl⟩
  exact hm

def NoSpillOutstanding (m : Manager) : Prop := m.waitingSpills = [] ∧ m.sentSpills = []

end Manager

/-- A reply does not leave out an object that was released while it was being spilled. -/
def Op.SpillsReleased : Op → Manager → Prop
  | .spillReply i reply, m =>
    ∀ request ∈ m.sentSpills[i]?, m.Unreleased (request.objectsToSpill.drop (reply.getD []).length)
  | _, _ => True

lemma waits_run (config : Config) (op : Op) {m : Manager} (hop : op.SpillsReleased m) (h : m.Waits) :
    Yields m (op.run config) fun _ => Manager.Waits := by
  have hkeeps {x : ManagerM Unit} (hx : Manager.Keeps Manager.Waits x) :
      Yields m x fun _ => Manager.Waits := hx.pre fun _ ht => ht ▸ h
  have hclosed := closed_waits
  cases op with
  | pinObjects => exact hkeeps (keeps_pinObjects _ _ fun m id size hm => hm.pin id _ _)
  | spillObjects => exact hkeeps (hclosed.spillObjectsInternal _ _)
  | spillObjectsOfSize choice numBytes =>
    refine hkeeps (.bind (hclosed.spillObjectsOfSize config choice numBytes) fun _ => ?_)
    exact (keeps_composes _).pure ()
  | spillObjectUptoMaxThroughput => exact hkeeps (hclosed.spillObjectUptoMaxThroughput config _)
  | spillWorkerPopped i => exact hkeeps (hclosed.spillWorkerPopped i)
  | spillReply i reply =>
    apply Triple.seen
    split
    · exact .done h
    case h_2 request hrequest =>
      refine .bind (.updated ?_) fun _ => (waits_onSpillReply request reply).post fun _ _ ht => ht.1
      exact ⟨h, hop request hrequest⟩
  | releaseFreedObject id =>
    exact hkeeps (hclosed.toIndifferent.releaseFreedObject id (fun _ hm => hm) keeps_processSpilledObjectsDeleteQueue)
  | flushFreeObjects => exact hkeeps (hclosed.toIndifferent.flushFreeObjects keeps_processSpilledObjectsDeleteQueue)

lemma leaks_run {config : Config} {op : Op} {m t : Manager} (hop : ¬op.SpillsReleased m)
    (hrun : op.run config m = .ok () t) : ∃ id ∈ t.released, id ∈ t.pinnedObjects := by
  cases op with
  | spillReply i reply =>
    unfold Op.SpillsReleased at hop
    simp only [Manager.Unreleased, not_forall, not_not] at hop
    obtain ⟨request, hrequest, id, hid, hreleased⟩ := hop
    have hleaks : Yields m (spillReply i reply) fun _ => Manager.Leaks id := by
      apply Triple.seen
      rw [hrequest]
      exact .bind (.updated hreleased) fun _ => leaks_onSpillReply hid
    exact ⟨id, hleaks.returned rfl hrun⟩
  | _ => exact absurd trivial hop

variable {config : Config} {bytes : UInt64} {m : Manager}

/-- While no reply leaves out an object that was released during its spill, the released objects are
forgotten once nothing is being spilled and the queue is empty; a reply that does pins one of them. -/
theorem freed_objects_forgotten
    (h : Reaches (Op.run config) Op.SpillsReleased { numBytesPendingSpill := bytes } m) :
    (m.NoSpillOutstanding → m.spilledObjectPendingDelete = [] → m.Forgotten) ∧
      ∀ (op : Op) (t : Manager), op.run config m = .ok () t → ¬op.SpillsReleased m → ∃ id ∈ t.released, id ∈ t.pinnedObjects := by
  constructor
  · intro _ hqueue
    have hwaits : m.Waits := by
      refine h.invariant (E := fun _ _ => True) (fun id hid => absurd hid not_mem_nil) fun op s hop hs => ?_
      exact waits_run config op hop hs
    exact hwaits.forgotten hqueue
  · intro op t hrun hop
    exact leaks_run hop hrun

instance (op : Op) (m : Manager) : Decidable (op.SpillsReleased m) := by
  cases op <;> (simp only [Op.SpillsReleased, Manager.Unreleased]; infer_instance)

def smallNode : Config where
  freeObjectsPeriodMs := 1000
  freeObjectsBatchSize := 100
  minSpillingSize := 0
  maxActiveWorkers := 1
  maxFusedObjectCount := 10

/-- An object is freed during its spill, which succeeds. -/
theorem freed_objects_forgotten_spilled :
    ∃ m, Reaches (Op.run smallNode) Op.SpillsReleased { numBytesPendingSpill := 0 } m ∧
      m.released = [⟨0, 1⟩] ∧ m.Forgotten := by
  refine exists_after [.pinObjects [(⟨0, 1⟩, some 8)] ⟨0, 0⟩, .spillObjects [⟨0, 1⟩] none, .spillWorkerPopped 0,
        .releaseFreedObject ⟨0, 1⟩, .spillReply 0 (some [['f', '?', 'o', '=', '0']]), .flushFreeObjects]
    (fun m => (m.released, m.waitingSpills, m.sentSpills,
          m.spilledObjectPendingDelete)) ([⟨0, 1⟩], [], [], [])
    (by decide +kernel) fun _ hm hv => ?_
  simp only [Prod.mk.injEq] at hv
  exact ⟨hv.1, (freed_objects_forgotten hm).1 ⟨hv.2.1, hv.2.2.1⟩ hv.2.2.2⟩

/-- An object is freed during its spill, which fails. -/
theorem failed_spill_pins_freed :
    ∃ m, Reaches (Op.run smallNode) (fun _ _ => True) { numBytesPendingSpill := 0 } m ∧
      m.NoSpillOutstanding ∧ m.spilledObjectPendingDelete = [] ∧ ¬m.Forgotten := by
  refine exists_after [.pinObjects [(⟨0, 1⟩, some 8)] ⟨0, 0⟩, .spillObjects [⟨0, 1⟩] none, .spillWorkerPopped 0,
        .releaseFreedObject ⟨0, 1⟩, .spillReply 0 none, .flushFreeObjects]
    (fun m => (m.released, m.waitingSpills, m.sentSpills,
          m.spilledObjectPendingDelete, decide (⟨0, 1⟩ ∈ m.pinnedObjects))) ([⟨0, 1⟩], [], [], [], true)
    (by decide +kernel) fun _ _ hv => ?_
  simp only [Prod.mk.injEq, decide_eq_true_eq] at hv
  obtain ⟨hreleased, hwaiting, hsent, hqueue, hpinned⟩ := hv
  refine ⟨⟨hwaiting, hsent⟩, hqueue, fun hforgotten => ?_⟩
  exact (hforgotten ⟨0, 1⟩ (hreleased ▸ mem_singleton_self _)).1 hpinned

end AmazonRay.LocalObjects
