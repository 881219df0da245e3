import AmazonRay.Ids
import AmazonRay.Lib.Runs
import AmazonRay.Lib.Table

/-! `PullManager`: bundles of objects are requested in three queues, and pulled as far as the memory goes. -/
namespace AmazonRay.PullManager
open Program

/-- The checks of the source; `loopBound` would stop a loop that does not end. -/
inductive Check where
  | objectSizesMissing
  | objectPullRequest
  | nextRequestId
  | lastRequest
  | unknownRequest
  | unknownBundle
  | objectIsLocal
  | chosenSelf
  | pinnedObjectsSize
  | loopBound
  deriving DecidableEq, Repr

inductive BundlePriority where
  | getRequest
  | waitRequest
  | taskArgs
  deriving DecidableEq, Repr

structure ObjectReference where
  objectId : ObjectID
  ownerAddress : WorkerAddress
  deriving DecidableEq, Repr

/-- Times are in milliseconds. -/
structure ObjectPullRequest where
  clientLocations : List NodeID := []
  spilledUrl : String := ""
  spilledNodeId : NodeID := NodeID.nil
  nextPullTime : Int
  numRetries : Nat := 0
  objectSizeSet : Bool := false
  objectSize : Nat := 0
  bundleRequestIds : List Nat := []
  deriving DecidableEq, Repr

structure PullBundleRequest where
  objects : List ObjectReference
  numObjectSizesMissing : Nat
  deriving DecidableEq, Repr

def PullBundleRequest.ids (b : PullBundleRequest) : List ObjectID := b.objects.map ObjectReference.objectId

/-- The requests of one priority by id, with the highest id that is being pulled. -/
structure Queue where
  bundles : List (Nat × PullBundleRequest) := []
  highest : Nat := 0
  deriving DecidableEq, Repr

/-- The world around the manager is read and changed by the callbacks only. `pinObject` returns the size of what it
pinned, and `random` an index below its argument. -/
structure Callbacks (W : Type) where
  selfNodeId : NodeID
  pullTimeoutMs : Nat
  objectIsLocal : W → ObjectID → Bool
  getTime : W → Int
  getLocallySpilledObjectUrl : W → ObjectID → String
  sendPullRequest : ObjectID → NodeID → W → W
  cancelPullRequest : ObjectID → W → W
  restoreSpilledObject : ObjectID → String → W → W
  pinObject : ObjectID → W → Option Nat × W
  random : Nat → W → Nat × W

structure State (W : Type) where
  world : W
  numBytesAvailable : Int
  nextReqId : Nat := 1
  queues : BundlePriority → Queue := fun _ => {}
  numBytesBeingPulled : Int := 0
  numActiveBundles : Int := 0
  objectPullRequests : AList fun _ : ObjectID => ObjectPullRequest := ∅
  activeObjectPullRequests : AList fun _ : ObjectID => List Nat := ∅
  pinnedObjects : AList fun _ : ObjectID => Nat := ∅
  pinnedObjectsSize : Int := 0

abbrev PullM (W : Type) := EStateM Check (State W)

section

def Queue.find (q : Queue) (id : Nat) : Option PullBundleRequest :=
  (q.bundles.find? (·.1 = id)).map Prod.snd

def Queue.put (q : Queue) (id : Nat) (b : PullBundleRequest) : Queue :=
  { q with bundles := q.bundles.map fun e => if e.1 = id then (id, b) else e }

def Queue.nextRequest (q : Queue) : Option (Nat × PullBundleRequest) :=
  match q.bundles.dropWhile (·.1 ≠ q.highest) with
  | [] => q.bundles.head?
  | _ :: rest => rest.head?

/-- The pointer once the request is not pulled: a request before it, if there is one. -/
def Queue.highestWithout (q : Queue) (id : Nat) : Nat :=
  if q.highest = id then ((q.bundles.takeWhile (·.1 ≠ id)).getLast?).elim 0 Prod.fst else q.highest

variable {W : Type}

def State.remainingQuota (m : State W) : Int :=
  m.numBytesAvailable - (m.numBytesBeingPulled - m.pinnedObjectsSize)

def State.withQueue (m : State W) (p : BundlePriority) (q : Queue) : State W :=
  { m with queues := Function.update m.queues p q }

def State.withRequest (m : State W) (id : ObjectID) (r : ObjectPullRequest) : State W :=
  { m with objectPullRequests := m.objectPullRequests.insert id r }

def findRequest (id : ObjectID) : PullM W ObjectPullRequest := do
  match (← get).objectPullRequests.lookup id with
  | some r => pure r
  | none => throw .objectPullRequest

/-- The queue that holds the request; it is looked for in the order of the priorities. -/
def State.queueOf (m : State W) (id : Nat) : Option (BundlePriority × PullBundleRequest) :=
  [.getRequest, .waitRequest, .taskArgs].findSome? fun p => ((m.queues p).find id).map (p, ·)

def registerObjectSize (p : BundlePriority) (id : Nat) (b : PullBundleRequest) : PullM W Unit := do
  check .objectSizesMissing (0 < b.numObjectSizesMissing)
  modify fun m => m.withQueue p ((m.queues p).put id { b with
    numObjectSizesMissing := b.numObjectSizesMissing - 1 })

end

section

variable {W : Type} (cb : Callbacks W)

def changeWorld (f : W → W) : PullM W Unit := modify fun m => { m with world := f m.world }

def resetRetryTimer (id : ObjectID) : PullM W Unit := do
  let m ← get
  match m.objectPullRequests.lookup id with
  | none => pure ()
  | some r => set (m.withRequest id { r with nextPullTime := cb.getTime m.world, numRetries := 0 })

def updateRetryTimer (id : ObjectID) (r : ObjectPullRequest) : PullM W Unit :=
  modify fun m => m.withRequest id { r with
    nextPullTime := cb.getTime m.world + cb.pullTimeoutMs * 2 ^ r.numRetries
    numRetries := min (r.numRetries + 1) 10 }

/-- Returns `false` if the object was pinned by this call. -/
def tryPinObject (id : ObjectID) : PullM W Bool := do
  let m ← get
  match m.pinnedObjects.lookup id with
  | some _ => pure true
  | none => do
    let pinned := cb.pinObject id m.world
    changeWorld fun _ => pinned.2
    match pinned.1 with
    | none => pure true
    | some size => do
      modify fun m => { m with
        pinnedObjects := m.pinnedObjects.insert id size
        pinnedObjectsSize := m.pinnedObjectsSize + size }
      pure false

def unpinObject (id : ObjectID) : PullM W Unit := do
  modify fun m => { m with
    pinnedObjects := m.pinnedObjects.erase id
    pinnedObjectsSize := m.pinnedObjectsSize - ((m.pinnedObjects.lookup id).getD 0 : Nat) }
  let m ← get
  check .pinnedObjectsSize (m.pinnedObjects.entries = [] → m.pinnedObjectsSize = 0)

/-- Returns whether a request was sent. The manager's own node is taken from the list, and another one is chosen. -/
def pullFromRandomLocation (id : ObjectID) : PullM W Bool := do
  let m ← get
  match m.objectPullRequests.lookup id with
  | none => pure false
  | some r =>
    if r.clientLocations = [] then
      if r.spilledNodeId ≠ NodeID.nil ∧ r.spilledNodeId ≠ cb.selfNodeId then do
        changeWorld (cb.sendPullRequest id r.spilledNodeId)
        pure true
      else pure false
    else do
      check .objectIsLocal (cb.objectIsLocal m.world id = false)
      if r.clientLocations = [cb.selfNodeId] then pure false
      else do
        let chosen := cb.random r.clientLocations.length m.world
        let index := chosen.1 % r.clientLocations.length
        changeWorld fun _ => chosen.2
        let nodeId := r.clientLocations.getD index NodeID.nil
        (if nodeId = cb.selfNodeId then do
          let others := (r.clientLocations.set index (r.clientLocations.getLastD NodeID.nil)).dropLast
          modify fun m => m.withRequest id { r with clientLocations := others }
          let nodeId := others.getD (index % others.length) NodeID.nil
          check .chosenSelf (nodeId ≠ cb.selfNodeId)
          changeWorld (cb.sendPullRequest id nodeId)
        else changeWorld (cb.sendPullRequest id nodeId))
        pure true

/-- A spilled copy is restored here only if it is on this node or outside of all nodes. -/
def restoreUrl (m : State W) (id : ObjectID) (r : ObjectPullRequest) : String :=
  let url := cb.getLocallySpilledObjectUrl m.world id
  if url = "" ∧ r.spilledNodeId = NodeID.nil then r.spilledUrl else url

def tryToMakeObjectLocal (id : ObjectID) : PullM W Unit := do
  let m ← get
  onlyIf (cb.objectIsLocal m.world id = false ∧ (m.activeObjectPullRequests.lookup id).isSome) do
    let r ← findRequest id
    onlyIf (r.nextPullTime ≤ cb.getTime m.world) do
      let didPull ← pullFromRandomLocation cb id
      let m ← get
      let r ← findRequest id
      (if didPull then updateRetryTimer cb id r
      else
        let url := restoreUrl cb m id r
        onlyIf (url ≠ "") do
          updateRetryTimer cb id r
          changeWorld (cb.restoreSpilledObject id url))

def tick : PullM W Unit := do
  (← get).activeObjectPullRequests.keys.forM (tryToMakeObjectLocal cb)

def pinNewObjectIfNeeded (id : ObjectID) : PullM W Unit := do
  onlyIf ((← get).activeObjectPullRequests.lookup id).isSome do
    let _ ← tryPinObject cb id
    pure ()

end

section

variable {W : Type} (cb : Callbacks W)

def bytesToPull (ids : List ObjectID) : PullM W Int :=
  ids.foldlM (fun bytes id => do
    if ((← get).activeObjectPullRequests.lookup id).isNone then do
      let r ← findRequest id
      pure (bytes + r.objectSize)
    else pure bytes) 0

def nextRequestBundleSize (p : BundlePriority) : PullM W Int := do
  match ((← get).queues p).nextRequest with
  | none => pure 0
  | some (_, b) => if 0 < b.numObjectSizesMissing then pure 0 else bytesToPull b.ids

def activateObject (reqId : Nat) (objectsToPull : List ObjectID) (id : ObjectID) :
    PullM W (List ObjectID) := do
  let m ← get
  let active := m.activeObjectPullRequests.lookup id
  set { m with activeObjectPullRequests :=
    m.activeObjectPullRequests.insert id ((active.getD []).insert reqId) }
  if active.isNone then do
    let _ ← tryPinObject cb id
    resetRetryTimer cb id
    pure (objectsToPull ++ [id])
  else pure objectsToPull

/-- Returns whether a request was activated, with the objects to pull. -/
def activateNextPullBundleRequest (p : BundlePriority) (respectQuota : Bool)
    (objectsToPull : List ObjectID) : PullM W (Bool × List ObjectID) := do
  match ((← get).queues p).nextRequest with
  | none => pure (false, objectsToPull)
  | some (reqId, b) =>
    if 0 < b.numObjectSizesMissing then pure (false, objectsToPull)
    else do
      let bytes ← bytesToPull b.ids
      let m ← get
      if respectQuota ∧ 1 ≤ m.numActiveBundles ∧ m.remainingQuota < bytes then
        pure (false, objectsToPull)
      else do
        modify fun m => { m with numBytesBeingPulled := m.numBytesBeingPulled + bytes }
        let objectsToPull ← b.ids.foldlM (activateObject cb reqId) objectsToPull
        check .nextRequestId (((← get).queues p).highest < reqId)
        modify fun m => { m.withQueue p { m.queues p with highest := reqId } with
          numActiveBundles := m.numActiveBundles + 1 }
        pure (true, objectsToPull)

def deactivateObject (reqId : Nat) (objectsToCancel : List ObjectID) (id : ObjectID) :
    PullM W (List ObjectID) := do
  let m ← get
  match m.activeObjectPullRequests.lookup id with
  | none => pure objectsToCancel
  | some reqs =>
    if reqId ∈ reqs then do
      let left := reqs.filter (· ≠ reqId)
      if left = [] then do
        let r ← findRequest id
        modify fun m => { m with
          numBytesBeingPulled := m.numBytesBeingPulled - r.objectSize
          activeObjectPullRequests := m.activeObjectPullRequests.erase id }
        unpinObject id
        pure (objectsToCancel.insert id)
      else do
        set { m with activeObjectPullRequests := m.activeObjectPullRequests.insert id left }
        pure objectsToCancel
    else pure objectsToCancel

def deactivatePullBundleRequest (p : BundlePriority) (reqId : Nat) (b : PullBundleRequest)
    (objectsToCancel : List ObjectID) : PullM W (List ObjectID) := do
  let objectsToCancel ← b.ids.foldlM (deactivateObject reqId) objectsToCancel
  modify fun m => { m.withQueue p { m.queues p with highest := (m.queues p).highestWithout reqId } with
    numActiveBundles := m.numActiveBundles - 1 }
  pure objectsToCancel

def deactivateUntilMarginAvailable (p : BundlePriority) (retainMin quotaMargin : Int) :
    Nat → List ObjectID → PullM W (List ObjectID)
  | 0, _ => throw .loopBound
  | bound + 1, objectsToCancel => do
    let m ← get
    if m.remainingQuota < quotaMargin ∧ (m.queues p).highest ≠ 0 ∧ retainMin < m.numActiveBundles then
      match (m.queues p).find (m.queues p).highest with
      | none => throw .lastRequest
      | some b => do
        let objectsToCancel ← deactivatePullBundleRequest p (m.queues p).highest b objectsToCancel
        deactivateUntilMarginAvailable p retainMin quotaMargin bound objectsToCancel
    else pure objectsToCancel

structure Collected where
  objectsToPull : List ObjectID := []
  objectsToCancel : List ObjectID := []

/-- More than the number of requests: no loop over them is longer. -/
def loopBound (p : BundlePriority) : PullM W Nat := do
  pure (((← get).queues p).bundles.length + 1)

def deactivateFor (p : BundlePriority) (retainMin quotaMargin : Int) (c : Collected) :
    PullM W Collected := do
  let objectsToCancel ← deactivateUntilMarginAvailable p retainMin quotaMargin (← loopBound p)
    c.objectsToCancel
  pure { c with objectsToCancel }

/-- The loop over the requests of one priority, each after space was made for it. -/
def activateRequests (p : BundlePriority) (respectQuota : Bool)
    (makeSpace : Collected → PullM W Collected) : Nat → Collected → PullM W Collected
  | 0, _ => throw .loopBound
  | bound + 1, c => do
    let c ← makeSpace c
    let activated ← activateNextPullBundleRequest cb p respectQuota c.objectsToPull
    let c := { c with objectsToPull := activated.2 }
    if activated.1 then activateRequests p respectQuota makeSpace bound c else pure c

def activateEach (p : BundlePriority) (respectQuota : Bool) (makeSpace : Collected → PullM W Collected)
    (c : Collected) : PullM W Collected := do
  activateRequests cb p respectQuota makeSpace (← loopBound p) c

/-- Requests of the priorities `below` are deactivated for the next request. -/
def makeSpaceFor (p : BundlePriority) (below : List BundlePriority) (c : Collected) : PullM W Collected := do
  let marginRequired ← nextRequestBundleSize p
  below.foldlM (fun c p' => deactivateFor p' 0 marginRequired c) c

/-- Nothing is done if there are no requests of that priority. -/
def activateAll (p : BundlePriority) (below : List BundlePriority) (respectQuota : Bool) (c : Collected) :
    PullM W Collected := do
  if ((← get).queues p).bundles = [] then pure c
  else activateEach cb p respectQuota (makeSpaceFor p below) c

def updatePullsBasedOnAvailableMemory (numBytesAvailable : Int) : PullM W Unit := do
  modify fun m => { m with numBytesAvailable }
  let c ← activateAll cb .getRequest [.taskArgs, .waitRequest] false {}
  let c ← activateAll cb .waitRequest [.taskArgs] true c
  let c ← activateEach cb .taskArgs true pure c
  let c ← deactivateFor .taskArgs 1 0 c
  let c ← deactivateFor .waitRequest 1 0 c
  c.objectsToCancel.forM fun id => changeWorld (cb.cancelPullRequest id)
  c.objectsToPull.forM fun id => onlyIf (id ∉ c.objectsToCancel) (tryToMakeObjectLocal cb id)

end

variable {W : Type} (cb : Callbacks W)

def deduplicate (refs : List ObjectReference) : List ObjectReference :=
  refs.foldl (fun seen ref =>
    if ref.objectId ∈ seen.map ObjectReference.objectId then seen else seen ++ [ref]) []

def requestObject (p : BundlePriority) (reqId : Nat) (objectsToLocate : List ObjectReference)
    (ref : ObjectReference) : PullM W (List ObjectReference) := do
  let m ← get
  match m.objectPullRequests.lookup ref.objectId with
  | none => do
    set (m.withRequest ref.objectId { nextPullTime := cb.getTime m.world, bundleRequestIds := [reqId] })
    pure (objectsToLocate ++ [ref])
  | some r => do
    onlyIf (r.objectSizeSet = true) (((m.queues p).find reqId).toList.forM (registerObjectSize p reqId))
    modify fun m => m.withRequest ref.objectId { r with bundleRequestIds := r.bundleRequestIds.insert reqId }
    pure objectsToLocate

/-- Returns the id and the objects to locate. A new request comes last in its queue, since its id is the highest. -/
def pull (refs : List ObjectReference) (p : BundlePriority) : PullM W (Nat × List ObjectReference) := do
  let deduplicated := deduplicate refs
  let m ← get
  let reqId := m.nextReqId
  set { m.withQueue p { m.queues p with bundles := (m.queues p).bundles ++
      [(reqId, { objects := deduplicated, numObjectSizesMissing := deduplicated.length })] } with
    nextReqId := reqId + 1 }
  let objectsToLocate ← deduplicated.foldlM (requestObject cb p reqId) []
  updatePullsBasedOnAvailableMemory cb (← get).numBytesAvailable
  pure (reqId, objectsToLocate)

def releaseObject (reqId : Nat) (canceled : List ObjectID) (id : ObjectID) : PullM W (List ObjectID) := do
  let m ← get
  match m.objectPullRequests.lookup id with
  | none => pure canceled
  | some r =>
    let left := r.bundleRequestIds.filter (· ≠ reqId)
    if left = [] then do
      set { m with objectPullRequests := m.objectPullRequests.erase id }
      pure (canceled ++ [id])
    else do
      set (m.withRequest id { r with bundleRequestIds := left })
      pure canceled

/-- Returns the objects whose locations are not needed any more. -/
def cancelPull (reqId : Nat) : PullM W (List ObjectID) := do
  let m ← get
  match m.queueOf reqId with
  | none => throw .unknownRequest
  | some (p, b) => do
    onlyIf (reqId ≤ (m.queues p).highest) do
      let objectsToCancel ← deactivatePullBundleRequest p reqId b []
      objectsToCancel.forM fun id => changeWorld (cb.cancelPullRequest id)
    let canceled ← b.ids.foldlM (releaseObject reqId) []
    modify fun m => m.withQueue p { m.queues p with
      bundles := (m.queues p).bundles.filter (·.1 ≠ reqId) }
    updatePullsBasedOnAvailableMemory cb (← get).numBytesAvailable
    pure canceled

def registerIn (reqId : Nat) : PullM W Unit := do
  match (← get).queueOf reqId with
  | none => throw .unknownBundle
  | some (p, b) => registerObjectSize p reqId b

/-- The nodes are a set, in the order of iteration. The size is taken from the first notice. -/
def onLocationChange (id : ObjectID) (clientIds : { l : List NodeID // l.Nodup }) (spilledUrl : String)
    (spilledNodeId : NodeID) (objectSize : Nat) : PullM W Unit := do
  let m ← get
  match m.objectPullRequests.lookup id with
  | none => pure ()
  | some r => do
    let r := { r with clientLocations := clientIds.val, spilledUrl, spilledNodeId }
    (if r.objectSizeSet then set (m.withRequest id r)
    else do
      set (m.withRequest id { r with objectSize, objectSizeSet := true })
      r.bundleRequestIds.forM registerIn
      updatePullsBasedOnAvailableMemory cb (← get).numBytesAvailable)
    tryToMakeObjectLocal cb id

end AmazonRay.PullManager
