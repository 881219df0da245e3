import AmazonRay.ReferenceCounter.Rules

/-! What is shown of the pieces of the calls, and composes, holds of every call. -/
namespace AmazonRay.ReferenceCounter
open Program Reference

variable {τ : Type}

def Reference.links (r : Reference) : Bool × List ObjectID × List ObjectID × List ObjectID :=
  (r.ownedByUs, r.contains, r.containedInOwned, r.containedInBorrowedIds)

def Reference.taskCounts (r : Reference) : Nat × Nat := (r.submittedTaskRefCount, r.lineageRefCount)

structure Harmless (pinning : Bool) (f : Reference → Reference) : Prop where
  links : ∀ r, (f r).links = r.links
  taskCounts : ∀ r, (f r).taskCounts = r.taskCounts
  scope : ∀ r, (f r).outOfScope pinning = true → 0 < (f r).lineageRefCount →
    r.outOfScope pinning = true ∧ ((f r).onDelete = true → r.onDelete = true)

variable {id : ObjectID}

lemma Harmless.silent {pinning : Bool} {f : Reference → Reference}
    (hf : ∀ r, (f r).links = r.links ∧ (f r).taskCounts = r.taskCounts ∧ (f r).outOfScope pinning = r.outOfScope pinning)
    (hd : ∀ r, (f r).onDelete = true → r.onDelete = true) : Harmless pinning f :=
  ⟨fun r => (hf r).1, fun r => (hf r).2.1, fun r h _ => ⟨(hf r).2.2 ▸ h, hd r⟩⟩

lemma Reference.addBorrower_inScope (pinning : Bool) (addr : WorkerAddress) (r : Reference) :
    (r.addBorrower addr).outOfScope pinning = false := by
  refine Bool.eq_false_iff.mpr fun ho => ?_
  have hm : addr ∈ (r.addBorrower addr).borrowers := List.mem_insert_self
  rw [(outOfScope_iff.mp ho).2.2.2.1] at hm
  exact List.not_mem_nil hm

lemma harmless_addBorrower (pinning : Bool) (addr : WorkerAddress) : Harmless pinning (addBorrower addr) :=
  ⟨fun _ => rfl, fun _ => rfl, fun r ho =>
    absurd ho (Bool.eq_false_iff.mp (addBorrower_inScope pinning addr r))⟩

/-- What only some steps change is the same, and the index of owned objects has not grown. -/
structure SameBooks (s t : State τ) : Prop where
  refs : t.refs = s.refs
  lineage : t.lineage = s.lineage
  releasing : t.releasing = s.releasing
  unnested : t.unnested = s.unnested
  history : t.history = s.history
  index : t.reconstructableOwnedObjects ⊆ s.reconstructableOwnedObjects

def Check.ofTaskManager : Check → Bool
  | .taskAlreadyAdded | .resubmitRetriesLeft | .completeUnknownTask | .retryUnknownTask
  | .retryNotPending | .retryRetriesLeft | .failUnknownTask | .failNotPending | .dependencyNull
  | .dependenciesNotFound => true
  | _ => false

def Check.ofTasks : Check → Bool
  | .submittedTaskRefCountZero | .resubmittedMissing => true
  | e => e.ofTaskManager

def Check.isNesting : Check → Bool
  | .containedInOwnedMissing | .containedInBorrowedMissing | .nestedOuterMissing => true
  | _ => false

/-- A property that composes and that reading the table and failing a given check have. -/
structure ReadLogic (checks : Check → Bool) (K : (α : Type) → RefM τ α → Prop) : Prop
    extends Composes K where
  throw : ∀ {α : Type} {e : Check}, checks e = true → K α (throw e)
  get : K (State τ) get

namespace ReadLogic

variable {checks : Check → Bool} {K : (α : Type) → RefM τ α → Prop} (h : ReadLogic checks K)
include h

lemma check {e : Check} {c : Prop} [Decidable c] (he : checks e = true) :
    K Unit (Program.check e c) := h.ite (fun _ => h.pure ()) fun _ => h.throw he

lemma find : K (Option Reference) (find id) := h.bind h.get fun _ => h.pure _

lemma found {f : Option Reference → RefM τ α} (hnone : K α (f none)) (hsome : ∀ ref, K α (f (some ref))) :
    K α (ReferenceCounter.find id >>= f) := by
  refine h.bind h.find fun o => ?_
  cases o with
  | none => exact hnone
  | some => exact hsome _

lemma deref (he : checks .danglingIterator = true) : K Reference (deref id) := by
  exact h.found (h.throw he) fun ref => h.pure ref

lemma setNestedRefInUse (hs : checks .stackOverflow = true) (hd : checks .danglingIterator = true)
    (hn : checks .nestedOuterMissing = true)
    (hu : ∀ id, K Unit (update id fun outer => { outer with hasNestedRefsToReport := true }))
    (depth : Nat) (id : ObjectID) : K Unit (setNestedRefInUseRecursive depth id) := by
  induction depth generalizing id with
  | zero => exact h.throw hs
  | succ depth ih =>
    refine h.bind (h.deref hd) fun inner => h.forM (fun outerId => h.bind h.find fun o => ?_) _
    cases o with
    | none => exact h.throw hn
    | some => exact h.onlyIf fun _ => h.seq (hu outerId) (ih outerId)

end ReadLogic

/-- A property that composes and that the changes of single entries have. -/
structure EntryLogic (cfg : Config τ) (K : (α : Type) → RefM τ α → Prop) : Prop
    extends ReadLogic (fun e => !e.isNesting && !e.ofTasks) K where
  modify : ∀ {g : State τ → State τ}, (∀ s, SameBooks s (g s)) → K PUnit (modify g)
  findOrEmplace : ∀ id, K Reference (findOrEmplace id)
  update : ∀ {id f}, Harmless cfg.lineagePinningEnabled f → K Unit (update id f)
  nestOwned : ∀ id innerIds, K Unit (nestOwned cfg id innerIds)

namespace EntryLogic

variable {cfg : Config τ} {K : (α : Type) → RefM τ α → Prop} (h : EntryLogic cfg K)
include h

lemma send (m : Outgoing) : K Unit (send m) := h.modify fun _ => ⟨rfl, rfl, rfl, rfl, rfl, .refl _⟩

lemma pushToLocationSubscribers : K Unit (pushToLocationSubscribers id) := h.bind (h.deref rfl) fun _ => h.send _

lemma addObjectLocationInternal (nodeId : NodeID) : K Unit (addObjectLocationInternal id nodeId) := by
  refine h.bind (h.deref rfl) fun _ => h.onlyIf fun _ => h.seq (h.update ?_) h.pushToLocationSubscribers
  exact .silent (fun _ => ⟨rfl, rfl, rfl⟩) fun _ hd => hd

lemma waitForRefRemoved (addr : WorkerAddress) (containedIn : ObjectID) :
    K Unit (waitForRefRemoved id addr containedIn) :=
  h.bind (h.deref rfl) fun _ => h.seq (h.check rfl) (h.send _)

lemma addInnerOfForeign (id : ObjectID) (ownerAddress : WorkerAddress) (innerId : ObjectID) :
    K Unit (addInnerOfForeign id ownerAddress innerId) := by
  refine h.bind (h.findOrEmplace innerId) fun inner => h.ite (fun _ => ?_) fun _ => ?_
  · exact h.onlyIf fun _ => h.seq (h.update (harmless_addBorrower _ _)) (h.waitForRefRemoved _ _)
  · refine h.seq (h.check rfl) (h.update ⟨fun _ => rfl, fun _ => rfl, fun r ho => ?_⟩)
    exact nomatch (outOfScope_iff.mp ho).2.2.2.2.1

lemma addNestedObjectIdsInternal (id : ObjectID) (innerIds : List ObjectID) (ownerAddress : WorkerAddress) :
    K Unit (addNestedObjectIdsInternal cfg id innerIds ownerAddress) :=
  h.seq (h.check rfl) (h.ite (fun _ => h.nestOwned id innerIds) fun _ =>
    h.forM (h.addInnerOfForeign id ownerAddress) innerIds)

lemma addOwnedObject (he : ∀ {id ref}, ref.links = (true, [], [], []) → ref.taskCounts = (0, 0) →
      K Unit (emplaceOwned id ref))
    (hi : ∀ id, K PUnit (modifyThe (State τ) fun s =>
      { s with reconstructableOwnedObjects := s.reconstructableOwnedObjects ++ [id] }))
    (id : ObjectID) (innerIds : List ObjectID) (ownerAddress : WorkerAddress) (objectSize : Int)
    (isReconstructable : Bool) (pinnedAtRayletId : Option NodeID) :
    K Unit (addOwnedObject cfg id innerIds ownerAddress objectSize isReconstructable pinnedAtRayletId) := by
  apply h.seq (he rfl rfl)
  refine h.seq (h.onlyIf fun _ => h.addNestedObjectIdsInternal id innerIds _) ?_
  apply h.seq (h.forM h.addObjectLocationInternal _)
  exact h.bind h.get fun s => h.seq (h.check rfl) (hi id)

end EntryLogic

/-- A property that composes and that the pieces of the calls have. -/
structure CallLogic (cfg : Config τ) (K : (α : Type) → RefM τ α → Prop) : Prop
    extends EntryLogic cfg K where
  addOwnedObject : ∀ id innerIds ownerAddress objectSize isReconstructable pinnedAtRayletId,
    K Unit (addOwnedObject cfg id innerIds ownerAddress objectSize isReconstructable
      pinnedAtRayletId)
  setNestedRefInUseRecursive : ∀ depth id, K Unit (setNestedRefInUseRecursive depth id)
  addLocal : ∀ id, K Unit (addUse cfg id Reference.addLocal)
  removeLocal : ∀ collect id, K Unit (removeUse cfg collect id Reference.removeLocal)
  nestBorrowed : ∀ id outerId, K Unit (nestBorrowed cfg id outerId)
  deleteReferenceInternal : ∀ collect id,
    K Unit (deleteReferenceInternal cfg collect cfg.stackDepth id)
  dropBorrower : ∀ id addr, K Unit (dropBorrower cfg id addr)
  reportRefRemoved : ∀ id, K Unit (reportRefRemoved cfg id)
  popBorrowed : ∀ refs id, K ReferenceTable (popBorrowed cfg refs id)
  setDeleteCallback : ∀ id, K Bool (setDeleteCallback cfg id)
  releaseLineageReferences : ∀ id, K Int (releaseLineageReferences cfg cfg.stackDepth id)

namespace CallLogic

variable {cfg : Config τ} {K : (α : Type) → RefM τ α → Prop} (h : CallLogic cfg K)
include h

lemma releasePlasmaObject : K Unit (releasePlasmaObject id) := by
  refine h.bind (h.deref rfl) fun _ => h.seq (h.onlyIf fun _ => h.modify ?_) (h.update ?_)
  · exact fun _ => ⟨rfl, rfl, rfl, rfl, rfl, .refl _⟩
  · exact .silent (fun _ => ⟨rfl, rfl, rfl⟩) nofun

lemma addLocalReference (id : ObjectID) : K Unit (addLocalReference cfg id) :=
  h.onlyIf fun _ => h.seq (h.findOrEmplace id) (h.addLocal id)

lemma removeLocalReferenceInternal (collect : Bool) (id : ObjectID) :
    K Unit (removeLocalReferenceInternal cfg collect id) := by
  refine h.seq (h.check rfl) (h.bind h.find fun o => ?_)
  cases o with
  | none => exact h.pure ()
  | some => exact h.onlyIf fun _ => h.removeLocal collect id

lemma releaseAllLocalReferences : K Unit (releaseAllLocalReferences cfg) := by
  refine h.bind h.get fun s => h.forM (fun id => h.bind h.find fun o => ?_) _
  cases o with
  | none => exact h.pure ()
  | some => exact h.forM (h.removeLocalReferenceInternal false) _

lemma removeOwnedObject (id : ObjectID) : K Unit (removeOwnedObject cfg id) := by
  exact h.found (h.throw rfl) fun _ => h.seq (h.check rfl) (h.deleteReferenceInternal false id)

lemma addBorrowedObjectInternal (id outerId : ObjectID) (ownerAddress : WorkerAddress) (monitoring : Bool) :
    K Bool (addBorrowedObjectInternal cfg id outerId ownerAddress monitoring) := by
  refine h.seq (h.findOrEmplace id) (h.seq (h.update ?_) ?_)
  · exact .silent (fun _ => ⟨rfl, rfl, rfl⟩) fun _ hd => hd
  refine h.seq (h.onlyIf fun _ => h.nestBorrowed id outerId) (h.bind (h.deref rfl) fun _ => ?_)
  exact h.seq (h.onlyIf fun _ => h.deleteReferenceInternal false id) (h.pure true)

lemma addBorrowers (addrs : List WorkerAddress) : K (List WorkerAddress) (addBorrowers id addrs) := by
  refine h.bind (h.deref rfl) fun ref => h.seq (h.update ⟨fun _ => rfl, fun _ => rfl, ?_⟩) (h.pure _)
  intro r ho _
  rw [outOfScope_iff] at ho ⊢
  exact ⟨⟨ho.1, ho.2.1, ho.2.2.1, (List.append_eq_nil_iff.mp ho.2.2.2.1).1, ho.2.2.2.2⟩, fun hd => hd⟩

lemma mergeRemoteBorrowers (workerAddr : WorkerAddress) (borrowedRefs : ReferenceTable) (depth : Nat) (id : ObjectID) :
    K Unit (mergeRemoteBorrowers cfg workerAddr borrowedRefs depth id) := by
  induction depth generalizing id with
  | zero => exact h.throw rfl
  | succ depth ih =>
    unfold ReferenceCounter.mergeRemoteBorrowers
    cases borrowedRefs.lookup id with
    | none => exact h.pure ()
    | some borrowerRef =>
      refine h.seq (h.findOrEmplace id) (h.bind (h.addBorrowers _) fun new => ?_)
      refine h.seq (h.forM (fun outerId => ?_) _) ?_
      · cases borrowerRef.ownerAddress with
        | none => exact h.throw rfl
        | some ownerAddress =>
          exact h.seq (h.addBorrowedObjectInternal id outerId ownerAddress false) (h.pure ())
      refine h.bind (h.deref rfl) fun ref => h.seq (h.ite (fun _ => ?_) fun _ => ?_) ?_
      · exact h.forM (fun addr => h.waitForRefRemoved addr _) _
      · exact h.setNestedRefInUseRecursive _ id
      refine h.seq (h.forM (fun stored => ?_) _) (h.forM ih _)
      exact h.addNestedObjectIdsInternal stored.1 [id] stored.2

lemma cleanupBorrowersOnRefRemoved (newBorrowerRefs : ReferenceTable) (id : ObjectID) (borrowerAddr : WorkerAddress) :
    K Unit (cleanupBorrowersOnRefRemoved cfg newBorrowerRefs id borrowerAddr) := by
  apply h.seq (h.mergeRemoteBorrowers borrowerAddr newBorrowerRefs _ id)
  exact h.found (h.throw rfl) fun _ => h.seq (h.check rfl) (h.dropBorrower id borrowerAddr)

lemma setRefRemovedCallback (id containedIn : ObjectID) : K Unit (setRefRemovedCallback cfg id containedIn) := by
  apply h.seq (h.findOrEmplace id)
  refine h.seq (h.onlyIf fun _ => h.addNestedObjectIdsInternal _ _ _) ?_
  refine h.bind (h.deref rfl) fun ref => h.ite (fun _ => h.reportRefRemoved id) fun _ => h.update ?_
  exact .silent (fun _ => ⟨rfl, rfl, rfl⟩) fun _ hd => hd

lemma popAndClearLocalBorrowers (borrowedIds : List ObjectID) :
    K ReferenceTableProto (popAndClearLocalBorrowers cfg borrowedIds) := by
  refine h.bind (h.foldlM h.popBorrowed borrowedIds ∅) fun borrowedRefs => ?_
  refine h.seq (h.forM (fun id => h.bind h.find fun o => ?_) borrowedIds) (h.pure _)
  cases o with
  | none => exact h.pure ()
  | some => exact h.onlyIf fun _ => h.removeLocal true id

lemma freePlasmaObjects (ids : List ObjectID) : K Unit (freePlasmaObjects ids) := by
  refine h.forM (fun id => h.bind h.find fun o => ?_) ids
  cases o with
  | none => exact h.pure ()
  | some =>
    refine h.seq (h.modify ?_) (h.onlyIf fun _ => h.releasePlasmaObject)
    exact fun _ => ⟨rfl, rfl, rfl, rfl, rfl, .refl _⟩

lemma resetObjectsOnRemovedNode (rayletId : NodeID) : K (List ObjectID) (resetObjectsOnRemovedNode rayletId) := by
  refine h.bind h.get fun s => h.foldlM (fun lost id => h.bind h.find fun o => ?_) _ _
  cases o with
  | none => exact h.pure lost
  | some =>
    exact h.ite (fun _ => h.seq h.releasePlasmaObject (h.pure _)) fun _ => h.pure lost

lemma updateObjectPinnedAtRaylet (id : ObjectID) (rayletId : NodeID) :
    K Unit (updateObjectPinnedAtRaylet cfg id rayletId) := by
  refine h.found (h.pure ()) fun _ => ?_
  refine h.bind h.get fun s => h.onlyIf fun _ => h.seq (h.check rfl) ?_
  refine h.onlyIf fun _ => h.seq (h.update ?_) (h.addObjectLocationInternal rayletId)
  exact .silent (fun _ => ⟨rfl, rfl, rfl⟩) fun _ hd => hd

lemma updateObjectSize (id : ObjectID) (objectSize : Int) : K Unit (updateObjectSize id objectSize) := by
  refine h.found (h.pure ()) fun _ => ?_
  refine h.seq (h.update ?_) h.pushToLocationSubscribers
  exact .silent (fun _ => ⟨rfl, rfl, rfl⟩) fun _ hd => hd

lemma addObjectLocation (id : ObjectID) (nodeId : NodeID) : K Bool (addObjectLocation id nodeId) := by
  exact h.found (h.pure false) fun _ => h.seq (h.addObjectLocationInternal nodeId) (h.pure true)

lemma removeObjectLocation (id : ObjectID) (nodeId : NodeID) : K Bool (removeObjectLocation id nodeId) := by
  refine h.found (h.pure false) fun _ => ?_
  refine h.seq (h.update ?_) (h.seq h.pushToLocationSubscribers (h.pure true))
  exact .silent (fun _ => ⟨rfl, rfl, rfl⟩) fun _ hd => hd

lemma handleObjectSpilled (id : ObjectID) (spilledUrl : String) (spilledNodeId : NodeID) (size : Int) (release : Bool) :
    K Bool (handleObjectSpilled id spilledUrl spilledNodeId size release) := by
  refine h.found (h.pure false) fun _ => ?_
  refine h.seq (h.update ?_) (h.seq h.pushToLocationSubscribers ?_)
  · exact .silent (fun _ => ⟨rfl, rfl, rfl⟩) fun _ hd => hd
  · exact h.seq (h.onlyIf fun _ => h.releasePlasmaObject) (h.pure true)

lemma reportLocalityData (id : ObjectID) (locations : List NodeID) (objectSize : Nat) :
    K Bool (reportLocalityData id locations objectSize) := by
  refine h.found (h.pure false) fun _ => ?_
  refine h.seq (h.check rfl) (h.seq (h.update ?_) (h.pure true))
  exact .silent (fun _ => ⟨rfl, rfl, rfl⟩) fun _ hd => hd

lemma addBorrowerAddress (id : ObjectID) (borrowerAddress : WorkerAddress) :
    K Unit (addBorrowerAddress cfg id borrowerAddress) := by
  refine h.found (h.throw rfl) fun _ => ?_
  refine h.seq (h.check rfl) (h.seq (h.check rfl) ?_)
  exact h.onlyIf fun _ => h.seq (h.update (harmless_addBorrower _ _)) (h.waitForRefRemoved _ _)

lemma publishObjectLocationSnapshot (id : ObjectID) : K Unit (publishObjectLocationSnapshot id) := by
  exact h.found (h.send _) fun _ => h.pushToLocationSubscribers

lemma drainAndShutdown : K Unit (drainAndShutdown) := by
  refine h.modify fun s => ?_
  split <;> exact ⟨rfl, rfl, rfl, rfl, rfl, .refl _⟩

lemma evictFront (id : ObjectID) : K Int (evictFront cfg id) := by
  refine h.seq (h.modify ?_) (h.bind h.find fun _ => h.seq (h.check rfl) ?_)
  · exact fun s => ⟨rfl, rfl, rfl, rfl, rfl, (List.tail_suffix _).subset⟩
  · exact h.releaseLineageReferences id

lemma evictLineage (minBytesToEvict : Int) : K Int (evictLineage cfg minBytesToEvict) := by
  have loop : ∀ turns bytes, K Int (evictLoop cfg minBytesToEvict turns bytes) := by
    intro turns
    induction turns with
    | zero => exact fun bytes => h.pure bytes
    | succ turns ih =>
      intro bytes
      refine h.bind h.get fun s => ?_
      cases s.reconstructableOwnedObjects with
      | nil => exact h.pure bytes
      | cons id =>
        exact h.ite (fun _ => h.bind (h.evictFront id) fun evicted => ih _) fun _ => h.pure bytes
  exact h.bind h.get fun s => loop _ 0

end CallLogic

def OrdinaryCall (cfg : Config τ) {α : Type} (x : RefM τ α) : Prop :=
  ∀ K : (α : Type) → RefM τ α → Prop, CallLogic cfg K → K α x

lemma CallLogic.run {cfg : Config τ} {K : (α : Type) → RefM τ α → Prop} (h : CallLogic cfg K)
    (op : Op) (hop : op.ofTasks = false) : K Unit (op.run cfg) := by
  cases op with
  | updateSubmittedTaskReferences => cases hop
  | updateResubmittedTaskReferences => cases hop
  | updateFinishedTaskReferences => cases hop
  | addOwnedObject id innerIds ownerAddress objectSize isReconstructable pinned =>
    exact h.addOwnedObject id innerIds ownerAddress objectSize isReconstructable pinned
  | removeOwnedObject => exact h.removeOwnedObject _
  | addBorrowedObject id outerId ownerAddress monitoring =>
    exact h.seq (h.addBorrowedObjectInternal id outerId ownerAddress monitoring) (h.pure ())
  | addNestedObjectIds id innerIds ownerAddress =>
    exact h.addNestedObjectIdsInternal id innerIds ownerAddress
  | addLocalReference => exact h.addLocalReference _
  | removeLocalReference => exact h.onlyIf fun _ => h.removeLocalReferenceInternal true _
  | releaseAllLocalReferences => exact h.releaseAllLocalReferences
  | popAndClearLocalBorrowers borrowedIds =>
    exact h.seq (h.popAndClearLocalBorrowers borrowedIds) (h.pure ())
  | cleanupBorrowersOnRefRemoved newBorrowerRefs id borrowerAddr =>
    exact h.cleanupBorrowersOnRefRemoved newBorrowerRefs id borrowerAddr
  | setRefRemovedCallback => exact h.setRefRemovedCallback _ _
  | addBorrowerAddress => exact h.addBorrowerAddress _ _
  | freePlasmaObjects => exact h.freePlasmaObjects _
  | setDeleteCallback => exact h.seq (h.setDeleteCallback _) (h.pure ())
  | resetObjectsOnRemovedNode rayletId =>
    exact h.seq (h.resetObjectsOnRemovedNode rayletId) (h.pure ())
  | updateObjectPinnedAtRaylet => exact h.updateObjectPinnedAtRaylet _ _
  | updateObjectSize => exact h.updateObjectSize _ _
  | addObjectLocation id nodeId =>
    exact h.seq (h.addObjectLocation id nodeId) (h.pure ())
  | removeObjectLocation id nodeId =>
    exact h.seq (h.removeObjectLocation id nodeId) (h.pure ())
  | handleObjectSpilled id spilledUrl spilledNodeId size release =>
    exact h.seq (h.handleObjectSpilled id spilledUrl spilledNodeId size release) (h.pure ())
  | reportLocalityData id locations objectSize =>
    exact h.seq (h.reportLocalityData id locations objectSize) (h.pure ())
  | publishObjectLocationSnapshot => exact h.publishObjectLocationSnapshot _
  | drainAndShutdown => exact h.drainAndShutdown
  | evictLineage => exact h.seq (h.evictLineage _) (h.pure ())

/-- The same with the pieces of the calls that count references of tasks. -/
structure TaskCallLogic (cfg : Config τ) (K : (α : Type) → RefM τ α → Prop) : Prop
    extends CallLogic cfg K where
  countZero : K Unit (MonadExcept.throw .submittedTaskRefCountZero)
  resubmittedMissing : K Unit (MonadExcept.throw .resubmittedMissing)
  addSubmitted : ∀ id, K Unit (addUse cfg id Reference.addSubmitted)
  addResubmitted : ∀ id, K Unit (addUse cfg id Reference.addResubmitted)
  removeSubmitted : ∀ releaseLineage id,
    K Unit (removeUse cfg true id (Reference.removeSubmitted releaseLineage))

namespace TaskCallLogic

variable {cfg : Config τ} {K : (α : Type) → RefM τ α → Prop} (h : TaskCallLogic cfg K) (argumentIds : List ObjectID) (releaseLineage : Bool)
include h

lemma removeSubmittedTaskReferences (argumentIds : List ObjectID) :
    K Unit (removeSubmittedTaskReferences cfg releaseLineage argumentIds) := by
  induction argumentIds with
  | nil => exact h.pure ()
  | cons id argumentIds ih =>
    refine h.found (h.pure ()) fun _ => ?_
    refine h.seq (h.ite (fun _ => h.pure ()) fun _ => h.countZero) ?_
    exact h.seq (h.removeSubmitted releaseLineage id) ih

lemma updateSubmittedTaskReferences (add remove : List ObjectID) :
    K Unit (updateSubmittedTaskReferences cfg add remove) := by
  refine h.seq (h.forM (fun id => ?_) add) (h.removeSubmittedTaskReferences true remove)
  exact h.seq (h.findOrEmplace id) (h.addSubmitted id)

lemma updateResubmittedTaskReferences : K Unit (updateResubmittedTaskReferences cfg argumentIds) := by
  refine h.forM (fun id => h.bind h.find fun o => h.seq ?_ (h.addResubmitted id)) argumentIds
  exact h.ite (fun _ => h.pure ()) fun _ => h.resubmittedMissing

lemma updateFinishedTaskReferences (workerAddr : WorkerAddress) (borrowedRefs : ReferenceTableProto) :
    K Unit (updateFinishedTaskReferences cfg argumentIds releaseLineage workerAddr borrowedRefs) := by
  refine h.seq (h.onlyIf fun _ => h.check rfl) ?_
  apply h.seq (h.forM (h.mergeRemoteBorrowers workerAddr _ _) argumentIds)
  exact h.removeSubmittedTaskReferences releaseLineage argumentIds

lemma run (op : Op) : K Unit (op.run cfg) := by
  by_cases hop : op.ofTasks = false
  · exact h.toCallLogic.run op hop
  · cases op with
    | updateSubmittedTaskReferences => exact h.updateSubmittedTaskReferences _ _
    | updateResubmittedTaskReferences argumentIds =>
      exact h.updateResubmittedTaskReferences argumentIds
    | updateFinishedTaskReferences argumentIds releaseLineage workerAddr borrowedRefs =>
      exact h.updateFinishedTaskReferences argumentIds releaseLineage workerAddr borrowedRefs
    | _ => exact absurd rfl hop

end TaskCallLogic
end AmazonRay.ReferenceCounter
