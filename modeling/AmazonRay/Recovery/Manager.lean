import AmazonRay.TaskManager.Operations

/-! `ObjectRecoveryManager`: a lost object is pinned where a copy is left, or its task is executed again. The lookup of
`CoreWorker` answers at once, another may answer later. -/
namespace AmazonRay.Recovery
open Program TaskManager

/-- The checks on the set of recoveries, on the result of `RecoverObject`, and those of the worker. -/
inductive Check where
  | worker (e : ReferenceCounter.Check)
  | notPendingRecovery
  | recoverObject
  deriving DecidableEq, Repr

inductive ErrorType where
  | objectLost
  | objectUnreconstructable
  | objectUnreconstructableLineageEvicted
  | objectUnreconstructableMaxAttemptsExceeded
  deriving DecidableEq, Repr

/-- An entry of the memory store: a value, the mark that the value is in plasma, or an
error. -/
inductive StoredObject where
  | value
  | inPlasma
  | error (reason : ErrorType)
  deriving DecidableEq, Repr

structure PinRequest where
  objectId : ObjectID
  nodeId : NodeID
  otherLocations : List NodeID
  deriving DecidableEq, Repr

structure Failure where
  objectId : ObjectID
  reason : ErrorType
  pinObject : Bool
  deriving DecidableEq, Repr

/-- The memory store with the recoveries that wait in it, the set of recoveries, and the calls: `pinRequests`
are unanswered, `failures` are those of `recovery_failure_callback_`. -/
structure Manager where
  objects : AList fun _ : ObjectID => StoredObject := ∅
  asyncGetRequests : List ObjectID := []
  objectsPendingRecovery : List ObjectID := []
  pinRequests : List PinRequest := []
  failures : List Failure := []

structure System where
  worker : Worker
  manager : Manager

/-- `nodeAlive` are the nodes that the cache of the GCS client shows as alive. -/
structure RecoveryConfig where
  worker : WorkerConfig
  nodeAlive : NodeID → Bool
  putSmallObjectInMemoryStore : Bool

abbrev RecoverM := EStateM Check System

def ofWorker {α : Type} (x : WorkerM α) : RecoverM α :=
  within System.worker (fun w s => { s with worker := w }) Check.worker x

def modifyManager (f : Manager → Manager) : RecoverM Unit :=
  modify fun s => { s with manager := f s.manager }

def recoveryComplete (id : ObjectID) : RecoverM Unit := do
  check .notPendingRecovery (id ∈ (← get).manager.objectsPendingRecovery)
  modifyManager fun m => { m with
    objectsPendingRecovery := m.objectsPendingRecovery.filter (· ≠ id) }

def getAsync (id : ObjectID) : RecoverM Unit := do
  match (← get).manager.objects.lookup id with
  | some _ => recoveryComplete id
  | none => modifyManager fun m => { m with asyncGetRequests := m.asyncGetRequests ++ [id] }

/-- An object without a reference is not stored; the callbacks run in any case. -/
def putObject (id : ObjectID) (object : StoredObject) : RecoverM Unit := do
  let s ← get
  match s.manager.objects.lookup id with
  | some _ => pure ()
  | none => do
    modifyManager fun m => { m with
      asyncGetRequests := m.asyncGetRequests.filter (· ≠ id)
      objects := if (s.worker.refs.lookup id).isSome then m.objects.insert id object else m.objects }
    (s.manager.asyncGetRequests.filter (· = id)).forM recoveryComplete

def deleteObjects (ids : List ObjectID) : RecoverM Unit :=
  modifyManager fun m => { m with objects := ids.foldl (fun t id => t.erase id) m.objects }

variable (cfg : RecoveryConfig)

/-- `recovery_failure_callback_`. An error that is put in plasma is marked in the memory
store. -/
def recoveryFailure (id : ObjectID) (reason : ErrorType) (pinObject : Bool) : RecoverM Unit := do
  modifyManager fun m => { m with failures := m.failures ++ [{ objectId := id, reason, pinObject }] }
  putObject id (if cfg.putSmallObjectInMemoryStore then .error reason else .inPlasma)

def isPinnedOrSpilled (ref : ReferenceCounter.Reference) : Bool :=
  decide (ref.pinnedAtRayletId.getD NodeID.nil ≠ NodeID.nil) || ref.spilled

/-- Returns whether the object is known and owned. A recovery is not started twice. -/
def recoverObject (objectLookup : ObjectID → RecoverM Unit) (id : ObjectID) : RecoverM Bool := do
  match (← get).worker.refs.lookup id with
  | none => pure false
  | some ref =>
    if ref.ownedByUs then do
      let pending := decide (id ∈ (← get).manager.objectsPendingRecovery)
      onlyIf (isPinnedOrSpilled ref = false ∧ pending = false) do
        modifyManager fun m => { m with objectsPendingRecovery := id :: m.objectsPendingRecovery }
        getAsync id
        objectLookup id
      pure true
    else pure false

section

variable (recover : ObjectID → RecoverM Bool)

/-- The dependencies that `ResubmitTask` reports: none if the task is pending. -/
def resubmittedDeps (t : Tasks) (id : TaskID) : List ObjectID :=
  match t.submissibleTasks.lookup id with
  | none => []
  | some entry => if entry.pending then [] else (t.messages id).argDependencies

/-- A dependency that cannot be recovered is failed, but not pinned. -/
def recoverDependency (id : ObjectID) : RecoverM Unit := do
  let recovered ← recover id
  onlyIf (recovered = false) (recoveryFailure cfg id .objectUnreconstructable false)

def isObjectReconstructable (w : Worker) (id : ObjectID) : Bool :=
  cfg.worker.counter.lineagePinningEnabled &&
    (w.refs.lookup id).any ReferenceCounter.Reference.isReconstructable

def isLineageEvicted (w : Worker) (id : ObjectID) : Bool :=
  cfg.worker.counter.lineagePinningEnabled &&
    (w.refs.lookup id).any ReferenceCounter.Reference.lineageEvicted

def reconstructObject (id : ObjectID) : RecoverM Unit := do
  let w := (← get).worker
  if isObjectReconstructable cfg w id then do
    let taskDeps := resubmittedDeps w.lineage id.taskId
    let resubmitted ← ofWorker (resubmitTask cfg.worker id.taskId)
    if resubmitted then taskDeps.forM (recoverDependency cfg recover)
    else recoveryFailure cfg id .objectUnreconstructableMaxAttemptsExceeded true
  else recoveryFailure cfg id (if isLineageEvicted cfg w id then
    .objectUnreconstructableLineageEvicted else .objectLost) true

/-- The last location is tried first. -/
def pinOrReconstructObject (id : ObjectID) (locations : List NodeID) : RecoverM Unit :=
  match locations.getLast? with
  | some nodeId => modifyManager fun m => { m with
      pinRequests := m.pinRequests ++
        [{ objectId := id, nodeId, otherLocations := locations.dropLast }] }
  | none => reconstructObject cfg recover id

end

def liveLocations (w : Worker) (id : ObjectID) : List NodeID :=
  ((w.refs.lookup id).elim [] ReferenceCounter.Reference.locations).filter cfg.nodeAlive

/-- The callback of the lookup runs inside of it, and so do the recoveries of the dependencies; the first
argument is what is left of the stack. -/
def recoverNow : Nat → ObjectID → RecoverM Bool
  | 0 => recoverObject fun _ => throw (.worker .stackOverflow)
  | depth + 1 => recoverObject fun id => do
    pinOrReconstructObject cfg (recoverNow depth) id (liveLocations cfg (← get).worker id)

def onNodeRemoved (nodeId : NodeID) : RecoverM Unit := do
  let lostObjects ← ofWorker (ReferenceCounter.resetObjectsOnRemovedNode nodeId)
  deleteObjects lostObjects
  lostObjects.forM fun id => do
    let _ ← recoverNow cfg cfg.worker.stackDepth id
    pure ()

def postedRecovery (id : ObjectID) : RecoverM Unit := do
  let recovered ← recoverNow cfg cfg.worker.stackDepth id
  check .recoverObject (recovered = true)

end AmazonRay.Recovery
