import AmazonRay.Ids
import AmazonRay.Lib.Program

/-! `LocalObjectManager`: primary copies are pinned, spilled, and deleted when their owner frees them. -/
namespace AmazonRay.LocalObjects
open Program

abbrev Url := List Char

inductive Check where
  | freedObjectUnknown
  | spillingObjectMissing
  | tooManyUrls
  | unspilledObjectMissing
  | spilledObjectMissing
  | baseUrlMissing
  /-- The exception of `substr` on a query without `=`. -/
  | queryMalformed
  | urlRefCountMissing
  deriving DecidableEq, Repr

/-- The base of a URL with offset, as `ParseURL` finds it. -/
def parseURL (url : Url) : Except Check Url :=
  if '?' ∈ url then
    if ((url.dropWhile (· ≠ '?')).tail.splitOn '&').all (fun token => '=' ∈ token) then
      .ok (url.takeWhile (· ≠ '?'))
    else .error .queryMalformed
  else .error .baseUrlMissing

structure Config where
  objectSpillingConfigEmpty : Bool := false
  freeObjectsPeriodMs : ℤ
  freeObjectsBatchSize : ℕ
  minSpillingSize : ℤ
  maxActiveWorkers : ℤ
  maxFusedObjectCount : ℤ

structure PinnedObject where
  size : UInt64
  ownerAddress : WorkerAddress
  deriving DecidableEq

inductive Status where
  | ok
  | invalid (message : String)
  | rpcFailed
  deriving DecidableEq, Repr

structure SpillRequest where
  objectsToSpill : List ObjectID
  callback : Option ℕ
  deriving DecidableEq, Repr

inductive Call where
  | onObjectsFreed (ids : List ObjectID)
  | deleteSpilledObjects (urls : List Url)
  | addSpilledUrl (id : ObjectID) (url : Url) (size : UInt64) (owner : WorkerAddress)
  | spillCallback (callback : ℕ) (status : Status)
  deriving DecidableEq

structure Manager where
  pinnedObjects : AList fun _ : ObjectID => PinnedObject := ∅
  pinnedObjectsSize : UInt64 := 0
  objectsPendingSpill : AList fun _ : ObjectID => PinnedObject := ∅
  objectsToFree : List ObjectID := []
  /-- Not set by the constructor. -/
  numBytesPendingSpill : UInt64
  spilledObjectPendingDelete : List ObjectID := []
  spilledObjectsUrl : AList fun _ : ObjectID => Url := ∅
  urlRefCount : AList fun _ : Url => UInt64 := ∅
  numActiveWorkers : ℤ := 0
  /-- The requests that wait for a spill worker, and those that were sent to one. -/
  waitingSpills : List SpillRequest := []
  sentSpills : List SpillRequest := []
  calls : List Call := []
  /-- The objects released since they were last pinned, which the manager never reads. -/
  released : List ObjectID := []

abbrev ManagerM := EStateM Check Manager

namespace Manager

def emplace {κ α : Type} [DecidableEq κ] (k : κ) (a : α) (t : AList fun _ : κ => α) : AList fun _ : κ => α :=
  if k ∈ t then t else t.insert k a

def call (c : Call) : ManagerM Unit := modify fun m => { m with calls := m.calls ++ [c] }

def answer (callback : Option ℕ) (status : Status) : ManagerM Unit :=
  match callback with
  | none => pure ()
  | some id => call (.spillCallback id status)

def pinObject (owner : WorkerAddress) (object : ObjectID × Option UInt64) : ManagerM Unit :=
  match object.2 with
  | none => pure ()
  | some size => modify fun m => { m with
      pinnedObjectsSize := m.pinnedObjectsSize + size
      pinnedObjects := emplace object.1 ⟨size, owner⟩ m.pinnedObjects
      released := m.released.filter (· ≠ object.1) }

/-- An object without a size was evicted before it could be pinned. -/
def pinObjects (objects : List (ObjectID × Option UInt64)) (owner : WorkerAddress) : ManagerM Unit :=
  objects.forM (pinObject owner)

def setPending (id : ObjectID) (object : PinnedObject) (m : Manager) : Manager := { m with
  numBytesPendingSpill := m.numBytesPendingSpill + object.size
  objectsPendingSpill := m.objectsPendingSpill.insert id object
  pinnedObjectsSize := m.pinnedObjectsSize - object.size
  pinnedObjects := m.pinnedObjects.erase id }

/-- The objects to spill, or none once one of them is not a primary copy. -/
def chooseObjects : List ObjectID → List ObjectID → ManagerM (Option (List ObjectID))
  | [], chosen => pure (some chosen)
  | id :: ids, chosen => do
    let m ← get
    match m.pinnedObjects.lookup id with
    | some object => do
      modify (setPending id object)
      chooseObjects ids (chosen ++ [id])
    | none => if id ∈ m.objectsPendingSpill then chooseObjects ids chosen else pure none

def spillObjectsInternal (ids : List ObjectID) (callback : Option ℕ) : ManagerM Unit := do
  match ← chooseObjects ids [] with
  | none => answer callback (.invalid "Requested spill for object that is not marked as the primary copy.")
  | some [] => answer callback (.invalid "All objects are already being spilled.")
  | some (id :: rest) => modify fun m => { m with waitingSpills := m.waitingSpills ++ [⟨id :: rest, callback⟩] }

def spillObjects (ids : List ObjectID) (callback : Option ℕ) : ManagerM Unit := spillObjectsInternal ids callback

/-- What the manager does not decide: the order of the hash map and which objects no worker uses. -/
structure SpillChoice where
  order : List ObjectID → List ObjectID
  perm : ∀ ids, (order ids).Perm ids
  isPlasmaObjectSpillable : ObjectID → Bool

def objectsOfSize (config : Config) (choice : SpillChoice) (numBytes : ℤ)
    (pinned : AList fun _ : ObjectID => PinnedObject) : List ObjectID → ℤ → ℤ → List ObjectID
  | [], _, _ => []
  | id :: ids, bytes, counts =>
    if bytes ≤ numBytes ∧ counts < config.maxFusedObjectCount then
      if choice.isPlasmaObjectSpillable id then
        id :: objectsOfSize config choice numBytes pinned ids
          (bytes + ((pinned.lookup id).elim 0 fun object => object.size.toNat)) (counts + 1)
      else objectsOfSize config choice numBytes pinned ids bytes (counts + 1)
    else []

def spillObjectsOfSize (config : Config) (choice : SpillChoice) (numBytes : ℤ) : ManagerM Bool := do
  if config.objectSpillingConfigEmpty then pure false
  else
    let m ← get
    match objectsOfSize config choice numBytes m.pinnedObjects (choice.order m.pinnedObjects.keys) 0 0 with
    | [] => pure false
    | id :: rest => do
      spillObjectsInternal (id :: rest) none
      pure true

/-- The rounds of `SpillObjectUptoMaxThroughput`. Each takes a pinned object away. -/
def spillRounds (config : Config) (choices : ℕ → SpillChoice) : ℕ → ManagerM Unit
  | 0 => pure ()
  | rounds + 1 => do
    if ← spillObjectsOfSize config (choices rounds) config.minSpillingSize then
      modify fun m => { m with numActiveWorkers := m.numActiveWorkers + 1 }
      let m ← get
      if m.numActiveWorkers < config.maxActiveWorkers then spillRounds config choices rounds else pure ()
    else pure ()

def spillObjectUptoMaxThroughput (config : Config) (choices : ℕ → SpillChoice) : ManagerM Unit := do
  let m ← get
  onlyIf (config.objectSpillingConfigEmpty = false) (spillRounds config choices (m.pinnedObjects.keys.length + 1))

def sendSpill (request : SpillRequest) : ManagerM Unit := do
  let m ← get
  check .spillingObjectMissing (∀ id ∈ request.objectsToSpill, id ∈ m.objectsPendingSpill)
  modify fun m => { m with sentSpills := m.sentSpills ++ [request] }

def spillWorkerPopped (i : ℕ) : ManagerM Unit := do
  match (← get).waitingSpills[i]? with
  | none => pure ()
  | some request => do
    modify fun m => { m with waitingSpills := m.waitingSpills.eraseIdx i }
    sendSpill request

def restorePinned (id : ObjectID) : ManagerM Unit := do
  match (← get).objectsPendingSpill.lookup id with
  | none => throw .unspilledObjectMissing
  | some object => modify fun m => { m with
      pinnedObjectsSize := m.pinnedObjectsSize + object.size
      numBytesPendingSpill := m.numBytesPendingSpill - object.size
      pinnedObjects := emplace id object m.pinnedObjects
      objectsPendingSpill := m.objectsPendingSpill.erase id }

def parse (url : Url) : ManagerM Url :=
  match parseURL url with
  | .ok base => pure base
  | .error e => throw e

def onObjectSpilled (spilled : ObjectID × Url) : ManagerM Unit := do
  let base ← parse spilled.2
  modify fun m => { m with
    urlRefCount := m.urlRefCount.insert base (((m.urlRefCount.lookup base).getD 0) + 1)
    spilledObjectsUrl := emplace spilled.1 spilled.2 m.spilledObjectsUrl }
  match (← get).objectsPendingSpill.lookup spilled.1 with
  | none => throw .spilledObjectMissing
  | some object => do
    modify fun m => { m with
      numBytesPendingSpill := m.numBytesPendingSpill - object.size
      objectsPendingSpill := m.objectsPendingSpill.erase spilled.1 }
    call (.addSpilledUrl spilled.1 spilled.2 object.size object.ownerAddress)

/-- The callback of a spill request: the URLs in the order of the request, or none when it failed. -/
def onSpillReply (request : SpillRequest) (reply : Option (List Url)) : ManagerM Unit := do
  modify fun m => { m with numActiveWorkers := m.numActiveWorkers - 1 }
  let urls := reply.getD []
  check .tooManyUrls (urls.length ≤ request.objectsToSpill.length)
  (request.objectsToSpill.drop urls.length).forM restorePinned
  (request.objectsToSpill.zip urls).forM onObjectSpilled
  answer request.callback (if reply.isSome then .ok else .rpcFailed)

def spillReply (i : ℕ) (reply : Option (List Url)) : ManagerM Unit := do
  match (← get).sentSpills[i]? with
  | none => pure ()
  | some request => do
    modify fun m => { m with sentSpills := m.sentSpills.eraseIdx i }
    onSpillReply request reply

def dropSpilled (id : ObjectID) (urlsToDelete : List Url) : ManagerM (List Url) := do
  match (← get).spilledObjectsUrl.lookup id with
  | none => pure urlsToDelete
  | some url => do
    let base ← parse url
    match (← get).urlRefCount.lookup base with
    | none => throw .urlRefCountMissing
    | some count => do
      modify fun m => { m with
        urlRefCount := if count - 1 = 0 then m.urlRefCount.erase base else m.urlRefCount.insert base (count - 1)
        spilledObjectsUrl := m.spilledObjectsUrl.erase id }
      pure (if count - 1 = 0 then urlsToDelete ++ [url] else urlsToDelete)

def processDeletes (maxBatchSize : ℕ) : List ObjectID → List Url → ManagerM (List Url)
  | [], urlsToDelete => pure urlsToDelete
  | id :: queue, urlsToDelete => do
    let m ← get
    if urlsToDelete.length < maxBatchSize ∧ id ∉ m.objectsPendingSpill then
      let urlsToDelete ← dropSpilled id urlsToDelete
      modify fun m => { m with spilledObjectPendingDelete := queue }
      processDeletes maxBatchSize queue urlsToDelete
    else pure urlsToDelete

def processSpilledObjectsDeleteQueue (maxBatchSize : ℕ) : ManagerM Unit := do
  let m ← get
  let urlsToDelete ← processDeletes maxBatchSize m.spilledObjectPendingDelete []
  onlyIf (urlsToDelete ≠ []) (call (.deleteSpilledObjects urlsToDelete))

def flushFreeObjects (config : Config) : ManagerM Unit := do
  let m ← get
  onlyIf (m.objectsToFree ≠ []) do
    call (.onObjectsFreed m.objectsToFree)
    modify fun m => { m with objectsToFree := [] }
  processSpilledObjectsDeleteQueue (config.freeObjectsBatchSize % 2 ^ 32)

def unpin (id : ObjectID) (m : Manager) : Manager := { m with
  spilledObjectPendingDelete := m.spilledObjectPendingDelete ++ [id]
  pinnedObjectsSize := m.pinnedObjectsSize - ((m.pinnedObjects.lookup id).elim 0 PinnedObject.size)
  pinnedObjects := m.pinnedObjects.erase id
  released := id :: m.released }

def releaseFreedObject (config : Config) (id : ObjectID) : ManagerM Unit := do
  let m ← get
  check .freedObjectUnknown (id ∈ m.pinnedObjects ∨ id ∈ m.spilledObjectsUrl ∨ id ∈ m.objectsPendingSpill)
  modify (unpin id)
  onlyIf (0 ≤ config.freeObjectsPeriodMs) (modify fun m => { m with objectsToFree := m.objectsToFree ++ [id] })
  let m ← get
  onlyIf (m.objectsToFree.length = config.freeObjectsBatchSize ∨ config.freeObjectsPeriodMs = 0)
    (flushFreeObjects config)

end Manager

inductive Op where
  | pinObjects (objects : List (ObjectID × Option UInt64)) (owner : WorkerAddress)
  | spillObjects (ids : List ObjectID) (callback : Option ℕ)
  | spillObjectsOfSize (choice : Manager.SpillChoice) (numBytes : ℤ)
  | spillObjectUptoMaxThroughput (choices : ℕ → Manager.SpillChoice)
  | spillWorkerPopped (i : ℕ)
  | spillReply (i : ℕ) (reply : Option (List Url))
  | releaseFreedObject (id : ObjectID)
  | flushFreeObjects

def Op.run (config : Config) : Op → ManagerM Unit
  | .pinObjects objects owner => Manager.pinObjects objects owner
  | .spillObjects ids callback => Manager.spillObjects ids callback
  | .spillObjectsOfSize choice numBytes => discard (Manager.spillObjectsOfSize config choice numBytes)
  | .spillObjectUptoMaxThroughput choices => Manager.spillObjectUptoMaxThroughput config choices
  | .spillWorkerPopped i => Manager.spillWorkerPopped i
  | .spillReply i reply => Manager.spillReply i reply
  | .releaseFreedObject id => Manager.releaseFreedObject config id
  | .flushFreeObjects => Manager.flushFreeObjects config

end AmazonRay.LocalObjects
