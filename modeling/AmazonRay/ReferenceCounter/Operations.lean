import AmazonRay.ReferenceCounter.Reference

/-! The operations of `ReferenceCounter`, as state programs over its table. -/
namespace AmazonRay.ReferenceCounter
open Program

variable {τ : Type}

def find (id : ObjectID) : RefM τ (Option Reference) := do
  pure ((← get).refs.lookup id)

def deref (id : ObjectID) : RefM τ Reference := do
  match (← find id) with
  | some ref => pure ref
  | none => throw .danglingIterator

def insert (id : ObjectID) (ref : Reference) : RefM τ Unit :=
  modify fun s => { s with refs := s.refs.insert id ref }

def update (id : ObjectID) (f : Reference → Reference) : RefM τ Unit := do
  let ref ← deref id
  insert id (f ref)

def findOrEmplace (id : ObjectID) : RefM τ Reference := do
  match (← find id) with
  | some ref => pure ref
  | none => do
    insert id {}
    pure {}

def record (e : State τ → Event) : RefM τ Unit :=
  modify fun s => { s with history := e s :: s.history }

def send (m : Outgoing) : RefM τ Unit := modify fun s => { s with outbox := s.outbox ++ [m] }

def enter (id : ObjectID) : RefM τ Unit := modify fun s => { s with releasing := id :: s.releasing }

def leave : RefM τ Unit := modify fun s => { s with releasing := s.releasing.tail }

def State.hasUnnested (s : State τ) (id : ObjectID) (ref : Reference) : Bool :=
  ref.contains.any fun y => decide ((id, y) ∈ s.unnested)

def markUnnested (id : ObjectID) (innerIds : List ObjectID) : RefM τ Unit :=
  modify fun s => { s with unnested := innerIds.map (id, ·) ++ s.unnested }

def markNested (id : ObjectID) (innerIds : List ObjectID) : RefM τ Unit :=
  modify fun s => { s with
    unnested := s.unnested.filter fun link => ¬ (link.1 = id ∧ link.2 ∈ innerIds) }

def pushToLocationSubscribers (id : ObjectID) : RefM τ Unit := do
  let ref ← deref id
  send (.objectLocations id ref)

def addObjectLocationInternal (id : ObjectID) (nodeId : NodeID) : RefM τ Unit := do
  let ref ← deref id
  onlyIf (nodeId ∉ ref.locations) do
    update id fun ref => { ref with locations := ref.locations.insert nodeId }
    pushToLocationSubscribers id

def Reference.unpinned (ref : Reference) : Reference :=
  { ref with onDelete := false, pinnedAtRayletId := none }

def releasePlasmaObject (id : ObjectID) : RefM τ Unit := do
  let ref ← deref id
  onlyIf (ref.onDelete = true) (modify fun s => { s with onDeleteCalls := s.onDeleteCalls ++ [id] })
  update id Reference.unpinned

def dropReconstructable (id : ObjectID) : RefM τ Unit :=
  modify fun s =>
    { s with reconstructableOwnedObjects := s.reconstructableOwnedObjects.filter (· ≠ id) }

def setNestedRefInUseRecursive : Nat → ObjectID → RefM τ Unit
  | 0, _ => throw .stackOverflow
  | depth + 1, innerId => do
    let inner ← deref innerId
    inner.containedInBorrowedIds.forM fun outerId => do
      match (← find outerId) with
      | none => throw .nestedOuterMissing
      | some outer => onlyIf (outer.hasNestedRefsToReport = false) do
          update outerId fun outer => { outer with hasNestedRefsToReport := true }
          setNestedRefInUseRecursive depth outerId

/-- Count one more use. An inner object that comes into use by it has to be reported with the objects it is nested in.
-/
def addUse (cfg : Config τ) (id : ObjectID) (count : Reference → Reference) : RefM τ Unit := do
  let before ← deref id
  update id count
  let after ← deref id
  onlyIf (before.refCount = 0 ∧ 0 < after.refCount) (setNestedRefInUseRecursive cfg.stackDepth id)

/-- Returns whether the entry exists, and adds the borrowed entries met. -/
def getAndClearLocalBorrowersInternal (forRefRemoved : Bool) :
    Nat → ObjectID → ReferenceTable → RefM τ (Bool × ReferenceTable)
  | 0, _, _ => throw .stackOverflow
  | depth + 1, id, borrowedRefs => do
    match (← find id) with
    | none => pure (false, borrowedRefs)
    | some ref =>
      if ref.ownedByUs then pure (true, borrowedRefs) else do
        record fun s => .collect id (s.hasUnnested id ref)
        let reported : Bool := forRefRemoved || !ref.foreignOwnerAlreadyMonitoring
        onlyIf (reported = true)
          (update id fun ref => { ref with borrowers := [], storedInObjects := [] })
        let borrowedRefs := if reported = true ∧ id ∉ borrowedRefs then borrowedRefs.insert id ref
          else borrowedRefs
        let borrowedRefs ← ref.contains.foldlM (fun refs containedId => do
          let popped ← getAndClearLocalBorrowersInternal forRefRemoved depth containedId refs
          pure popped.2) borrowedRefs
        update id fun ref => { ref with hasNestedRefsToReport := false }
        pure (true, borrowedRefs)

def handleRefRemoved (cfg : Config τ) (id : ObjectID) : RefM τ Unit := do
  let popped ← getAndClearLocalBorrowersInternal true cfg.stackDepth id ∅
  send (.refRemoved id (referenceTableToProto popped.2))

def shutdownIfNeeded : RefM τ Unit :=
  modify fun s => { s with
    shutdowns := if s.shutdownHook && s.refs.entries.isEmpty then s.shutdowns + 1 else s.shutdowns }

def State.eraseEntry (s : State τ) (id : ObjectID) (ref : Reference) : State τ :=
  { s with
    reconstructableOwnedObjects := s.reconstructableOwnedObjects.filter (· ≠ id)
    freedObjects := s.freedObjects.filter (· ≠ id)
    refs := s.refs.erase id
    history := .erase id ref (s.refs.erase id) :: s.history }

def eraseReference (cfg : Config τ) (id : ObjectID) : RefM τ Unit := do
  let ref ← deref id
  check .eraseInUse (ref.shouldDelete cfg.lineagePinningEnabled = true)
  modify fun s => s.eraseEntry id ref
  shutdownIfNeeded

/-- The object is still in scope and was reconstructable with its lineage. -/
def Reference.markEvicted (pinning : Bool) (ref : Reference) : Reference :=
  if ref.outOfScope pinning = false ∧ ref.isReconstructable = true then
    { ref with lineageEvicted := true, isReconstructable := false }
  else ref

def callOnLineageReleased (cfg : Config τ) (id : ObjectID) (ownedByUs : Bool) :
    RefM τ (Int × List ObjectID) :=
  match cfg.onLineageReleased, ownedByUs with
  | some onLineageReleased, true => do
    let released := onLineageReleased id (← get).lineage
    modify fun s => { s with lineage := released.2.2 }
    update id (Reference.markEvicted cfg.lineagePinningEnabled)
    pure (released.1, released.2.1)
  | _, _ => pure (0, [])

def Reference.dropLineageRef (ref : Reference) : Reference :=
  { ref with lineageRefCount := ref.lineageRefCount - 1 }

/-- One argument of a released task. With its last lineage reference it is released in turn and erased; its value is
taken to be released. -/
def releaseArgument (cfg : Config τ) (release : ObjectID → RefM τ Int) (bytes : Int)
    (argumentId : ObjectID) : RefM τ Int := do
  match (← find argumentId) with
  | none => pure bytes
  | some arg =>
    if arg.lineageRefCount = 0 then pure bytes else do
      update argumentId Reference.dropLineageRef
      let arg ← deref argumentId
      if arg.shouldDelete cfg.lineagePinningEnabled = false then pure bytes else do
        check .lineageWithRefRemovedCallback (arg.onRefRemoved = false)
        record fun s => .releaseArgument argumentId arg s.releasing
        enter argumentId
        let evicted ← release argumentId
        eraseReference cfg argumentId
        leave
        pure (bytes + evicted)

/-- Returns the bytes evicted. -/
def releaseLineageReferences (cfg : Config τ) : Nat → ObjectID → RefM τ Int
  | 0, _ => throw .stackOverflow
  | depth + 1, id => do
    let ref ← deref id
    let released ← callOnLineageReleased cfg id ref.ownedByUs
    released.2.foldlM (releaseArgument cfg (releaseLineageReferences cfg depth)) released.1

def notifyRefRemoved (cfg : Config τ) (id : ObjectID) : RefM τ Unit := do
  let ref ← deref id
  onlyIf (ref.refCount = 0 ∧ ref.onRefRemoved = true) do
    handleRefRemoved cfg id
    update id fun ref => { ref with onRefRemoved := false }

def unlink (id innerId : ObjectID) (inner : Reference) : RefM τ Unit := do
  let ref ← deref id
  if ref.ownedByUs then do
    check .containedInOwnedMissing (id ∈ inner.containedInOwned)
    update innerId fun inner =>
      { inner with containedInOwned := inner.containedInOwned.filter (· ≠ id) }
  else do
    check .containedInBorrowedMissing (id ∈ inner.containedInBorrowedIds)
    update innerId fun inner =>
      { inner with containedInBorrowedIds := inner.containedInBorrowedIds.filter (· ≠ id) }

def unnestInner (deleteInner : ObjectID → RefM τ Unit) (id innerId : ObjectID) : RefM τ Unit := do
  match (← find innerId) with
  | none => pure ()
  | some inner => do
    unlink id innerId inner
    deleteInner innerId

/-- The branch of a deletion for an object whose value can be unpinned. -/
def leaveScope (deleteInner : ObjectID → RefM τ Unit) (collect : Bool) (id : ObjectID)
    (ref : Reference) : RefM τ Unit := do
  record fun s => .unnest id ref s.refs (s.hasUnnested id ref)
  ref.contains.forM (unnestInner deleteInner id)
  releasePlasmaObject id
  onlyIf (collect = true) (modify fun s => { s with deleted := s.deleted ++ [id] })
  dropReconstructable id
  markUnnested id ref.contains

/-- `collect` tells whether the caller passed a vector of deleted ids. -/
def deleteReferenceInternal (cfg : Config τ) (collect : Bool) : Nat → ObjectID → RefM τ Unit
  | 0, _ => throw .stackOverflow
  | depth + 1, id => do
    enter id
    notifyRefRemoved cfg id
    let ref ← deref id
    onlyIf (ref.outOfScope cfg.lineagePinningEnabled = true)
      (leaveScope (deleteReferenceInternal cfg collect depth) collect id ref)
    let ref ← deref id
    onlyIf (ref.shouldDelete cfg.lineagePinningEnabled = true) do
      let _ ← releaseLineageReferences cfg depth id
      eraseReference cfg id
    leave

/-- Drop one use of an entry and try to delete it when no use is left. -/
def removeUse (cfg : Config τ) (collect : Bool) (id : ObjectID) (count : Reference → Reference) :
    RefM τ Unit := do
  update id count
  let ref ← deref id
  onlyIf (ref.refCount = 0) (deleteReferenceInternal cfg collect cfg.stackDepth id)

def Reference.addLocal (ref : Reference) : Reference :=
  { ref with localRefCount := ref.localRefCount + 1 }

def Reference.removeLocal (ref : Reference) : Reference :=
  { ref with localRefCount := ref.localRefCount - 1 }

def addLocalReference (cfg : Config τ) (id : ObjectID) : RefM τ Unit :=
  onlyIf (id.isNil = false) do
    let _ ← findOrEmplace id
    addUse cfg id Reference.addLocal

def removeLocalReferenceInternal (cfg : Config τ) (collect : Bool) (id : ObjectID) :
    RefM τ Unit := do
  check .nilObjectId (id.isNil = false)
  match (← find id) with
  | none => pure ()
  | some ref =>
    onlyIf (0 < ref.localRefCount) (removeUse cfg collect id Reference.removeLocal)

def removeLocalReference (cfg : Config τ) (id : ObjectID) : RefM τ Unit :=
  onlyIf (id.isNil = false) (removeLocalReferenceInternal cfg true id)

def releaseAllLocalReferences (cfg : Config τ) : RefM τ Unit := do
  (← get).refs.keys.forM fun id => do
    match (← find id) with
    | none => pure ()
    | some ref => (List.replicate ref.localRefCount id).forM (removeLocalReferenceInternal cfg false)

def addObjectLocation (id : ObjectID) (nodeId : NodeID) : RefM τ Bool := do
  match (← find id) with
  | none => pure false
  | some _ => do
    addObjectLocationInternal id nodeId
    pure true

def removeObjectLocation (id : ObjectID) (nodeId : NodeID) : RefM τ Bool := do
  match (← find id) with
  | none => pure false
  | some _ => do
    update id fun ref => { ref with locations := ref.locations.filter (· ≠ nodeId) }
    pushToLocationSubscribers id
    pure true

/-- Only the owner waits for borrowers. -/
def waitForRefRemoved (id : ObjectID) (addr : WorkerAddress) (containedIn : ObjectID) :
    RefM τ Unit := do
  let ref ← deref id
  check .waitNotOwned (ref.ownedByUs = true)
  send (.waitForRefRemoved id addr containedIn)

def Reference.addBorrower (addr : WorkerAddress) (ref : Reference) : Reference :=
  { ref with borrowers := ref.borrowers.insert addr }

def Reference.addContained (ids : List ObjectID) (ref : Reference) : Reference :=
  { ref with contains := ids.foldl (fun l i => l.insert i) ref.contains }

def Reference.putInOwned (outer : ObjectID) (ref : Reference) : Reference :=
  { ref with containedInOwned := ref.containedInOwned.insert outer }

def Reference.putInBorrowed (outer : ObjectID) (ref : Reference) : Reference :=
  { ref with containedInBorrowedIds := ref.containedInBorrowedIds.insert outer }

def addInnerOfForeign (id : ObjectID) (ownerAddress : WorkerAddress) (innerId : ObjectID) :
    RefM τ Unit := do
  let inner ← findOrEmplace innerId
  if inner.ownedByUs then
    onlyIf (ownerAddress ∉ inner.borrowers) do
      update innerId (Reference.addBorrower ownerAddress)
      waitForRefRemoved innerId ownerAddress id
  else do
    check .storedInTwice (id ∉ inner.storedInObjects.map Prod.fst)
    update innerId fun inner =>
      { inner with storedInObjects := (id, ownerAddress) :: inner.storedInObjects }

def nestOwned (cfg : Config τ) (id : ObjectID) (innerIds : List ObjectID) : RefM τ Unit := do
  match (← find id) with
  | none => pure ()
  | some ref => do
    check .outerNotOwned (ref.ownedByUs = true)
    record fun _ => .nest id ref
    update id (Reference.addContained innerIds)
    innerIds.forM fun innerId => do
      let _ ← findOrEmplace innerId
      addUse cfg innerId (Reference.putInOwned id)
    markNested id innerIds

def addNestedObjectIdsInternal (cfg : Config τ) (id : ObjectID) (innerIds : List ObjectID)
    (ownerAddress : WorkerAddress) : RefM τ Unit := do
  check .nestedOwnerNil (ownerAddress.workerId ≠ WorkerID.nil)
  if ownerAddress.workerId = cfg.rpcAddress.workerId then nestOwned cfg id innerIds
  else innerIds.forM (addInnerOfForeign id ownerAddress)

def addNestedObjectIds (cfg : Config τ) (id : ObjectID) (innerIds : List ObjectID)
    (ownerAddress : WorkerAddress) : RefM τ Unit :=
  addNestedObjectIdsInternal cfg id innerIds ownerAddress

def emplaceOwned (id : ObjectID) (ref : Reference) : RefM τ Unit := do
  check .ownedObjectExists ((← find id) = none)
  insert id ref

def addOwnedObject (cfg : Config τ) (id : ObjectID) (innerIds : List ObjectID)
    (ownerAddress : WorkerAddress) (objectSize : Int) (isReconstructable : Bool)
    (pinnedAtRayletId : Option NodeID) : RefM τ Unit := do
  emplaceOwned id
    { ownedByUs := true, ownerAddress := some ownerAddress, objectSize := objectSize,
      isReconstructable := isReconstructable, pinnedAtRayletId := pinnedAtRayletId }
  onlyIf (innerIds ≠ []) (addNestedObjectIdsInternal cfg id innerIds cfg.rpcAddress)
  pinnedAtRayletId.toList.forM (addObjectLocationInternal id)
  check .reconstructableIndexTaken (id ∉ (← get).reconstructableOwnedObjects)
  modify fun s =>
    { s with reconstructableOwnedObjects := s.reconstructableOwnedObjects ++ [id] }

def removeOwnedObject (cfg : Config τ) (id : ObjectID) : RefM τ Unit := do
  match (← find id) with
  | none => throw .removeNonexistentOwned
  | some ref => do
    check .removeOwnedInUse (ref.refCount = 0)
    deleteReferenceInternal cfg false cfg.stackDepth id

def nestBorrowed (cfg : Config τ) (id outerId : ObjectID) : RefM τ Unit := do
  match (← find outerId) with
  | none => pure ()
  | some outer => onlyIf (outer.ownedByUs = false) do
      record fun _ => .nest outerId outer
      update id (Reference.putInBorrowed outerId)
      update outerId (Reference.addContained [id])
      markNested outerId [id]
      let ref ← deref id
      onlyIf (0 < ref.refCount) (setNestedRefInUseRecursive cfg.stackDepth id)

def addBorrowedObjectInternal (cfg : Config τ) (id outerId : ObjectID)
    (ownerAddress : WorkerAddress) (foreignOwnerAlreadyMonitoring : Bool) : RefM τ Bool := do
  let _ ← findOrEmplace id
  update id fun ref => { ref with
    ownerAddress := some ownerAddress
    foreignOwnerAlreadyMonitoring :=
      ref.foreignOwnerAlreadyMonitoring || foreignOwnerAlreadyMonitoring }
  onlyIf (outerId.isNil = false) (nestBorrowed cfg id outerId)
  let ref ← deref id
  onlyIf (ref.refCount = 0) (deleteReferenceInternal cfg false cfg.stackDepth id)
  pure true

def addBorrowedObject (cfg : Config τ) (id outerId : ObjectID) (ownerAddress : WorkerAddress)
    (foreignOwnerAlreadyMonitoring : Bool) : RefM τ Bool :=
  addBorrowedObjectInternal cfg id outerId ownerAddress foreignOwnerAlreadyMonitoring

def updateObjectSize (id : ObjectID) (objectSize : Int) : RefM τ Unit := do
  match (← find id) with
  | none => pure ()
  | some _ => do
    update id fun ref => { ref with objectSize := objectSize }
    pushToLocationSubscribers id

def getOwner (id : ObjectID) : RefM τ (Option WorkerAddress) := do
  match (← find id) with
  | none => pure none
  | some ref => pure ref.ownerAddress

def Reference.addSubmitted (ref : Reference) : Reference :=
  { ref with
    submittedTaskRefCount := ref.submittedTaskRefCount + 1
    lineageRefCount := ref.lineageRefCount + 1 }

def Reference.addResubmitted (ref : Reference) : Reference :=
  { ref with submittedTaskRefCount := ref.submittedTaskRefCount + 1 }

def Reference.removeSubmitted (releaseLineage : Bool) (ref : Reference) : Reference :=
  { ref with
    submittedTaskRefCount := ref.submittedTaskRefCount - 1
    lineageRefCount := if releaseLineage then ref.lineageRefCount - 1 else ref.lineageRefCount }

/-- A missing entry ends the loop. -/
def removeSubmittedTaskReferences (cfg : Config τ) (releaseLineage : Bool) :
    List ObjectID → RefM τ Unit
  | [] => pure ()
  | argumentId :: argumentIds => do
    match (← find argumentId) with
    | none => pure ()
    | some ref => do
      check .submittedTaskRefCountZero (0 < ref.submittedTaskRefCount)
      removeUse cfg true argumentId (Reference.removeSubmitted releaseLineage)
      removeSubmittedTaskReferences cfg releaseLineage argumentIds

def updateSubmittedTaskReferences (cfg : Config τ) (argumentIdsToAdd argumentIdsToRemove :
    List ObjectID) : RefM τ Unit := do
  argumentIdsToAdd.forM fun argumentId => do
    let _ ← findOrEmplace argumentId
    addUse cfg argumentId Reference.addSubmitted
  removeSubmittedTaskReferences cfg true argumentIdsToRemove

def updateResubmittedTaskReferences (cfg : Config τ) (argumentIds : List ObjectID) :
    RefM τ Unit :=
  argumentIds.forM fun argumentId => do
    check .resubmittedMissing ((← find argumentId) ≠ none)
    addUse cfg argumentId Reference.addResubmitted

def addBorrowers (id : ObjectID) (addrs : List WorkerAddress) : RefM τ (List WorkerAddress) := do
  let ref ← deref id
  let new := addrs.dedup.filter (· ∉ ref.borrowers)
  update id fun ref => { ref with borrowers := ref.borrowers ++ new }
  pure new

/-- Merge what a borrower reports about an id, and about the ids inside it. -/
def mergeRemoteBorrowers (cfg : Config τ) (workerAddr : WorkerAddress)
    (borrowedRefs : ReferenceTable) : Nat → ObjectID → RefM τ Unit
  | 0, _ => throw .stackOverflow
  | depth + 1, id => do
    match borrowedRefs.lookup id with
    | none => pure ()
    | some borrowerRef => do
      let _ ← findOrEmplace id
      let newBorrowers ← addBorrowers id
        ((if 0 < borrowerRef.refCount then [workerAddr] else []) ++ borrowerRef.borrowers)
      borrowerRef.containedInBorrowedIds.forM fun outerId => do
        match borrowerRef.ownerAddress with
        | none => throw .mergedOwnerUnknown
        | some ownerAddress => do
          let _ ← addBorrowedObjectInternal cfg id outerId ownerAddress false
          pure ()
      let ref ← deref id
      (if ref.ownedByUs then
        newBorrowers.forM fun addr => waitForRefRemoved id addr ObjectID.nil
      else setNestedRefInUseRecursive cfg.stackDepth id)
      borrowerRef.storedInObjects.forM fun stored =>
        addNestedObjectIdsInternal cfg stored.1 [id] stored.2
      borrowerRef.contains.forM (mergeRemoteBorrowers cfg workerAddr borrowedRefs depth)

def updateFinishedTaskReferences (cfg : Config τ) (argumentIds : List ObjectID)
    (releaseLineage : Bool) (workerAddr : WorkerAddress) (borrowedRefs : ReferenceTableProto) :
    RefM τ Unit := do
  let refs := referenceTableFromProto borrowedRefs
  onlyIf (refs.entries ≠ []) (check .borrowerNil (workerAddr.workerId ≠ WorkerID.nil))
  argumentIds.forM (mergeRemoteBorrowers cfg workerAddr refs cfg.stackDepth)
  removeSubmittedTaskReferences cfg releaseLineage argumentIds

def dropBorrower (cfg : Config τ) (id : ObjectID) (borrowerAddr : WorkerAddress) : RefM τ Unit := do
  update id fun ref => { ref with borrowers := ref.borrowers.filter (· ≠ borrowerAddr) }
  deleteReferenceInternal cfg false cfg.stackDepth id

def cleanupBorrowersOnRefRemoved (cfg : Config τ) (newBorrowerRefs : ReferenceTable)
    (id : ObjectID) (borrowerAddr : WorkerAddress) : RefM τ Unit := do
  mergeRemoteBorrowers cfg borrowerAddr newBorrowerRefs cfg.stackDepth id
  match (← find id) with
  | none => throw .cleanupMissing
  | some ref => do
    check .cleanupNotBorrower (borrowerAddr ∈ ref.borrowers)
    dropBorrower cfg id borrowerAddr

def reportRefRemoved (cfg : Config τ) (id : ObjectID) : RefM τ Unit := do
  handleRefRemoved cfg id
  deleteReferenceInternal cfg false cfg.stackDepth id

def setRefRemovedCallback (cfg : Config τ) (id containedIn : ObjectID) : RefM τ Unit := do
  let _ ← findOrEmplace id
  onlyIf (containedIn.isNil = false)
    (addNestedObjectIdsInternal cfg containedIn [id] cfg.rpcAddress)
  let ref ← deref id
  if ref.refCount = 0 then reportRefRemoved cfg id
  else update id fun ref => { ref with onRefRemoved := true }

/-- The entry less the local reference that pinned it for the task; the `size_t` wraps below zero. -/
def popBorrowed (cfg : Config τ) (borrowedRefs : ReferenceTable) (id : ObjectID) :
    RefM τ ReferenceTable := do
  record fun s => .pop id (s.refs.lookup id)
  let popped ← getAndClearLocalBorrowersInternal false cfg.stackDepth id borrowedRefs
  check .borrowedIdMissing (popped.1 = true)
  match popped.2.lookup id with
  | none => pure popped.2
  | some ref => pure (popped.2.insert id
      { ref with localRefCount := (ref.localRefCount + (2 ^ 64 - 1)) % 2 ^ 64 })

def popAndClearLocalBorrowers (cfg : Config τ) (borrowedIds : List ObjectID) :
    RefM τ ReferenceTableProto := do
  let borrowedRefs ← borrowedIds.foldlM (popBorrowed cfg) ∅
  borrowedIds.forM fun id => do
    match (← find id) with
    | none => pure ()
    | some ref =>
      onlyIf (0 < ref.localRefCount) (removeUse cfg true id Reference.removeLocal)
  pure (referenceTableToProto borrowedRefs)

def freePlasmaObjects (ids : List ObjectID) : RefM τ Unit :=
  ids.forM fun id => do
    match (← find id) with
    | none => pure ()
    | some ref => do
      modify fun s => { s with freedObjects := s.freedObjects.insert id }
      onlyIf (ref.ownedByUs = true) (releasePlasmaObject id)

def setDeleteCallback (cfg : Config τ) (id : ObjectID) : RefM τ Bool := do
  match (← find id) with
  | none => pure false
  | some ref =>
    if ref.outOfScope cfg.lineagePinningEnabled && !ref.shouldDelete cfg.lineagePinningEnabled then
      pure false
    else if id ∈ (← get).freedObjects then pure false
    else do
      update id fun ref => { ref with onDelete := true }
      pure true

def resetObjectsOnRemovedNode (rayletId : NodeID) : RefM τ (List ObjectID) := do
  (← get).refs.keys.foldlM (fun lost id => do
    match (← find id) with
    | none => pure lost
    | some ref =>
      if ref.pinnedAtRayletId.getD NodeID.nil = rayletId then do
        releasePlasmaObject id
        pure (lost ++ [id])
      else pure lost) []

def updateObjectPinnedAtRaylet (cfg : Config τ) (id : ObjectID) (rayletId : NodeID) :
    RefM τ Unit := do
  match (← find id) with
  | none => pure ()
  | some ref =>
    onlyIf (id ∉ (← get).freedObjects) do
      check .pinnedNotOwned (ref.ownedByUs = true)
      onlyIf (ref.outOfScope cfg.lineagePinningEnabled = false) do
        update id fun ref => { ref with pinnedAtRayletId := some rayletId }
        addObjectLocationInternal id rayletId

def handleObjectSpilled (id : ObjectID) (spilledUrl : String) (spilledNodeId : NodeID)
    (size : Int) (release : Bool) : RefM τ Bool := do
  match (← find id) with
  | none => pure false
  | some _ => do
    update id fun ref => { ref with
      spilled := true
      spilledUrl := if spilledUrl = "" then ref.spilledUrl else spilledUrl
      spilledNodeId := if spilledNodeId = NodeID.nil then ref.spilledNodeId else spilledNodeId
      objectSize := if 0 < size then size else ref.objectSize }
    pushToLocationSubscribers id
    onlyIf (release = true) (releasePlasmaObject id)
    pure true

def reportLocalityData (id : ObjectID) (locations : List NodeID) (objectSize : Nat) :
    RefM τ Bool := do
  match (← find id) with
  | none => pure false
  | some ref => do
    check .localityOfOwned (ref.ownedByUs = false)
    update id fun ref => { ref with
      locations := locations.foldl (fun l n => l.insert n) ref.locations
      objectSize := if 0 < objectSize then objectSize else ref.objectSize }
    pure true

def addBorrowerAddress (cfg : Config τ) (id : ObjectID) (borrowerAddress : WorkerAddress) :
    RefM τ Unit := do
  match (← find id) with
  | none => throw .borrowerAddressMissing
  | some ref => do
    check .borrowerAddressNotOwned (ref.ownedByUs = true)
    check .borrowerIsOwner (borrowerAddress.workerId ≠ cfg.rpcAddress.workerId)
    onlyIf (borrowerAddress ∉ ref.borrowers) do
      update id (Reference.addBorrower borrowerAddress)
      waitForRefRemoved id borrowerAddress ObjectID.nil

def publishObjectLocationSnapshot (id : ObjectID) : RefM τ Unit := do
  match (← find id) with
  | none => send (.objectLocationsLost id)
  | some _ => pushToLocationSubscribers id

def drainAndShutdown : RefM τ Unit :=
  modify fun s => if s.refs.entries = [] then { s with shutdowns := s.shutdowns + 1 }
    else { s with shutdownHook := true }

/-- One turn of an eviction: the first object is popped and its lineage released. -/
def evictFront (cfg : Config τ) (id : ObjectID) : RefM τ Int := do
  modify fun s => { s with reconstructableOwnedObjects := s.reconstructableOwnedObjects.tail }
  check .evictMissing ((← find id) ≠ none)
  releaseLineageReferences cfg cfg.stackDepth id

/-- The loop of an eviction. The list only shrinks: its first length bounds the turns. -/
def evictLoop (cfg : Config τ) (minBytesToEvict : Int) : Nat → Int → RefM τ Int
  | 0, bytes => pure bytes
  | turns + 1, bytes => do
    match (← get).reconstructableOwnedObjects with
    | [] => pure bytes
    | id :: _ =>
      if bytes < minBytesToEvict then do
        let evicted ← evictFront cfg id
        evictLoop cfg minBytesToEvict turns (bytes + evicted)
      else pure bytes

def evictLineage (cfg : Config τ) (minBytesToEvict : Int) : RefM τ Int := do
  evictLoop cfg minBytesToEvict (← get).reconstructableOwnedObjects.length 0

inductive Op where
  | addOwnedObject (id : ObjectID) (innerIds : List ObjectID) (ownerAddress : WorkerAddress)
      (objectSize : Int) (isReconstructable : Bool) (pinnedAtRayletId : Option NodeID)
  | removeOwnedObject (id : ObjectID)
  | addBorrowedObject (id outerId : ObjectID) (ownerAddress : WorkerAddress)
      (foreignOwnerAlreadyMonitoring : Bool)
  | addNestedObjectIds (id : ObjectID) (innerIds : List ObjectID) (ownerAddress : WorkerAddress)
  | addLocalReference (id : ObjectID)
  | removeLocalReference (id : ObjectID)
  | releaseAllLocalReferences
  | updateSubmittedTaskReferences (argumentIdsToAdd argumentIdsToRemove : List ObjectID)
  | updateResubmittedTaskReferences (argumentIds : List ObjectID)
  | updateFinishedTaskReferences (argumentIds : List ObjectID) (releaseLineage : Bool)
      (workerAddr : WorkerAddress) (borrowedRefs : ReferenceTableProto)
  | popAndClearLocalBorrowers (borrowedIds : List ObjectID)
  | cleanupBorrowersOnRefRemoved (newBorrowerRefs : ReferenceTable) (id : ObjectID)
      (borrowerAddr : WorkerAddress)
  | setRefRemovedCallback (id containedIn : ObjectID)
  | addBorrowerAddress (id : ObjectID) (borrowerAddress : WorkerAddress)
  | freePlasmaObjects (ids : List ObjectID)
  | setDeleteCallback (id : ObjectID)
  | resetObjectsOnRemovedNode (rayletId : NodeID)
  | updateObjectPinnedAtRaylet (id : ObjectID) (rayletId : NodeID)
  | updateObjectSize (id : ObjectID) (objectSize : Int)
  | addObjectLocation (id : ObjectID) (nodeId : NodeID)
  | removeObjectLocation (id : ObjectID) (nodeId : NodeID)
  | handleObjectSpilled (id : ObjectID) (spilledUrl : String) (spilledNodeId : NodeID)
      (size : Int) (release : Bool)
  | reportLocalityData (id : ObjectID) (locations : List NodeID) (objectSize : Nat)
  | publishObjectLocationSnapshot (id : ObjectID)
  | drainAndShutdown
  | evictLineage (minBytesToEvict : Int)

/-- The calls that count the references of tasks, which `TaskManager` makes. -/
def Op.ofTasks : Op → Bool
  | .updateSubmittedTaskReferences _ _ | .updateResubmittedTaskReferences _
  | .updateFinishedTaskReferences _ _ _ _ => true
  | _ => false

def Op.run (cfg : Config τ) : Op → RefM τ Unit
  | .addOwnedObject id innerIds ownerAddress objectSize isReconstructable pinnedAtRayletId =>
    ReferenceCounter.addOwnedObject cfg id innerIds ownerAddress objectSize isReconstructable
      pinnedAtRayletId
  | .removeOwnedObject id => ReferenceCounter.removeOwnedObject cfg id
  | .addBorrowedObject id outerId ownerAddress monitoring => do
    let _ ← ReferenceCounter.addBorrowedObject cfg id outerId ownerAddress monitoring
    pure ()
  | .addNestedObjectIds id innerIds ownerAddress =>
    ReferenceCounter.addNestedObjectIds cfg id innerIds ownerAddress
  | .addLocalReference id => ReferenceCounter.addLocalReference cfg id
  | .removeLocalReference id => ReferenceCounter.removeLocalReference cfg id
  | .releaseAllLocalReferences => ReferenceCounter.releaseAllLocalReferences cfg
  | .updateSubmittedTaskReferences add remove =>
    ReferenceCounter.updateSubmittedTaskReferences cfg add remove
  | .updateResubmittedTaskReferences argumentIds =>
    ReferenceCounter.updateResubmittedTaskReferences cfg argumentIds
  | .updateFinishedTaskReferences argumentIds releaseLineage workerAddr borrowedRefs =>
    ReferenceCounter.updateFinishedTaskReferences cfg argumentIds releaseLineage workerAddr
      borrowedRefs
  | .popAndClearLocalBorrowers borrowedIds => do
    let _ ← ReferenceCounter.popAndClearLocalBorrowers cfg borrowedIds
    pure ()
  | .cleanupBorrowersOnRefRemoved newBorrowerRefs id borrowerAddr =>
    ReferenceCounter.cleanupBorrowersOnRefRemoved cfg newBorrowerRefs id borrowerAddr
  | .setRefRemovedCallback id containedIn =>
    ReferenceCounter.setRefRemovedCallback cfg id containedIn
  | .addBorrowerAddress id borrowerAddress =>
    ReferenceCounter.addBorrowerAddress cfg id borrowerAddress
  | .freePlasmaObjects ids => ReferenceCounter.freePlasmaObjects ids
  | .setDeleteCallback id => do
    let _ ← ReferenceCounter.setDeleteCallback cfg id
    pure ()
  | .resetObjectsOnRemovedNode rayletId => do
    let _ ← ReferenceCounter.resetObjectsOnRemovedNode rayletId
    pure ()
  | .updateObjectPinnedAtRaylet id rayletId =>
    ReferenceCounter.updateObjectPinnedAtRaylet cfg id rayletId
  | .updateObjectSize id objectSize => ReferenceCounter.updateObjectSize id objectSize
  | .addObjectLocation id nodeId => do
    let _ ← ReferenceCounter.addObjectLocation id nodeId
    pure ()
  | .removeObjectLocation id nodeId => do
    let _ ← ReferenceCounter.removeObjectLocation id nodeId
    pure ()
  | .handleObjectSpilled id spilledUrl spilledNodeId size release => do
    let _ ← ReferenceCounter.handleObjectSpilled id spilledUrl spilledNodeId size release
    pure ()
  | .reportLocalityData id locations objectSize => do
    let _ ← ReferenceCounter.reportLocalityData id locations objectSize
    pure ()
  | .publishObjectLocationSnapshot id => ReferenceCounter.publishObjectLocationSnapshot id
  | .drainAndShutdown => ReferenceCounter.drainAndShutdown
  | .evictLineage minBytesToEvict => do
    let _ ← ReferenceCounter.evictLineage cfg minBytesToEvict
    pure ()

end AmazonRay.ReferenceCounter
