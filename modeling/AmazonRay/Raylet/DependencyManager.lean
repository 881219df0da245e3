import AmazonRay.Ids
import AmazonRay.Lib.Program

/-! `DependencyManager`: the objects that the queued tasks and the workers of a node
need there. -/
namespace AmazonRay.Raylet
open Program

inductive Check where
  | dependenciesRequestedTwice
  | dependenciesNotQueued
  | dependencyNotRequired
  | blockedTaskNotQueued
  | blockedTaskNotPulled
  | objectNotLocal
  | objectAlreadyLocal
  | dependentTaskMissing
  | waitRequestMissing
  | waitedObjectMissing
  | requestedObjectMissing
  | waitingTaskIndexed
  | infeasibleQueueEmpty
  | noRunningTask
  | dispatchShapeMissing
  | dispatchWorkMissing
  | unexpectedPopStatus
  | workerAlreadyLeased
  | nodeInfoMissing
  | argumentNotPinned
  | argumentPinCountZero
  deriving DecidableEq, Repr

structure ObjectReference where
  objectId : ObjectID
  ownerAddress : WorkerAddress := ⟨0, 0⟩
  deriving DecidableEq, Repr

inductive BundlePriority where
  | getRequest
  | waitRequest
  | taskArgs
  deriving DecidableEq, Repr

inductive PullCall where
  | pull (id : Nat) (requests : List ObjectReference) (prio : BundlePriority)
  | cancelPull (id : Nat)
  deriving DecidableEq, Repr

structure ObjectDependencies where
  dependentTasks : List TaskID := []
  dependentGetRequests : List WorkerID := []
  dependentWaitRequests : List WorkerID := []
  waitRequestId : Nat := 0
  ownerAddress : WorkerAddress
  deriving DecidableEq, Repr

def ObjectDependencies.empty (e : ObjectDependencies) : Bool :=
  e.dependentTasks.isEmpty && e.dependentGetRequests.isEmpty && e.dependentWaitRequests.isEmpty

structure TaskDependencies where
  dependencies : List ObjectID
  numMissingDependencies : Nat
  pullRequestId : Nat := 0
  deriving DecidableEq, Repr

structure DependencyManager where
  queuedTaskRequests : AList fun _ : TaskID => TaskDependencies := ∅
  getRequests : AList fun _ : WorkerID => List ObjectID × Nat := ∅
  waitRequests : AList fun _ : WorkerID => List ObjectID := ∅
  requiredObjects : AList fun _ : ObjectID => ObjectDependencies := ∅
  localObjects : List ObjectID := []
  /-- The next id that the object manager gives to a pull. -/
  nextPullId : Nat := 1
  pulls : List PullCall := []

abbrev DependencyM := EStateM Check DependencyManager

namespace DependencyManager

def require (d : DependencyManager) (ref : ObjectReference)
    (f : ObjectDependencies → ObjectDependencies) : DependencyManager :=
  let entry := (d.requiredObjects.lookup ref.objectId).getD { ownerAddress := ref.ownerAddress }
  { d with requiredObjects := d.requiredObjects.insert ref.objectId (f entry) }

def pull (requests : List ObjectReference) (prio : BundlePriority) : DependencyM Nat := do
  let id := (← get).nextPullId
  modify fun d => { d with nextPullId := id + 1, pulls := d.pulls ++ [.pull id requests prio] }
  pure id

def cancelPull (id : Nat) : DependencyM Unit :=
  modify fun d => { d with pulls := d.pulls ++ [.cancelPull id] }

def findRequired (e : Check) (id : ObjectID) : DependencyM ObjectDependencies := do
  match (← get).requiredObjects.lookup id with
  | some entry => pure entry
  | none => throw e

/-- Store the entry, or stop tracking an object that nobody needs. -/
def removeObjectIfNotNeeded (id : ObjectID) (entry : ObjectDependencies) : DependencyM Unit :=
  if entry.empty then do
    onlyIf (0 < entry.waitRequestId) (cancelPull entry.waitRequestId)
    modify fun d => { d with requiredObjects := d.requiredObjects.erase id }
  else modify fun d => { d with requiredObjects := d.requiredObjects.insert id entry }

def waitForObject (workerId : WorkerID) (ref : ObjectReference) : DependencyM Unit := do
  let d ← get
  let request := (d.waitRequests.lookup workerId).getD []
  onlyIf (ref.objectId ∉ d.localObjects ∧ ref.objectId ∉ request) do
    modify fun d => { d with waitRequests := d.waitRequests.insert workerId (ref.objectId :: request) }
    modify fun d => d.require ref fun entry =>
      { entry with dependentWaitRequests := entry.dependentWaitRequests.insert workerId }
    let entry ← findRequired .requestedObjectMissing ref.objectId
    onlyIf (entry.waitRequestId = 0) do
      let id ← pull [ref] .waitRequest
      modify fun d => d.require ref fun entry => { entry with waitRequestId := id }

/-- An object that is local already is not waited for. -/
def startOrUpdateWaitRequest (workerId : WorkerID) (requiredObjects : List ObjectReference) :
    DependencyM Unit :=
  requiredObjects.forM (waitForObject workerId)

def cancelWaitRequest (workerId : WorkerID) : DependencyM Unit := do
  match (← get).waitRequests.lookup workerId with
  | none => pure ()
  | some request => do
    request.forM fun id => do
      let entry ← findRequired .requestedObjectMissing id
      removeObjectIfNotNeeded id { entry with
        dependentWaitRequests := entry.dependentWaitRequests.filter (· ≠ workerId) }
    modify fun d => { d with waitRequests := d.waitRequests.erase workerId }

/-- Returns whether the object is new in the request. -/
def getObject (workerId : WorkerID) (modified : Bool) (ref : ObjectReference) :
    DependencyM Bool := do
  let request := ((← get).getRequests.lookup workerId).getD ([], 0)
  if ref.objectId ∈ request.1 then pure modified else do
    modify fun d =>
      { d with getRequests := d.getRequests.insert workerId (ref.objectId :: request.1, request.2) }
    modify fun d => d.require ref fun entry =>
      { entry with dependentGetRequests := entry.dependentGetRequests.insert workerId }
    pure true

/-- The new pull starts before the old one is canceled. An entry is made when there is none. -/
def startOrUpdateGetRequest (workerId : WorkerID) (requiredObjects : List ObjectReference) :
    DependencyM Unit := do
  modify fun d =>
    { d with
      getRequests := d.getRequests.insert workerId ((d.getRequests.lookup workerId).getD ([], 0)) }
  let modified ← requiredObjects.foldlM (getObject workerId) false
  onlyIf (modified = true) do
    let request := ((← get).getRequests.lookup workerId).getD ([], 0)
    let refs ← request.1.foldlM (fun refs id => do
      let entry ← findRequired .requestedObjectMissing id
      pure (refs ++ [⟨id, entry.ownerAddress⟩])) []
    let id ← pull refs .getRequest
    onlyIf (request.2 ≠ 0) (cancelPull request.2)
    modify fun d => { d with getRequests := d.getRequests.insert workerId (request.1, id) }

def cancelGetRequest (workerId : WorkerID) : DependencyM Unit := do
  match (← get).getRequests.lookup workerId with
  | none => pure ()
  | some request => do
    cancelPull request.2
    request.1.forM fun id => do
      let entry ← findRequired .requestedObjectMissing id
      removeObjectIfNotNeeded id { entry with
        dependentGetRequests := entry.dependentGetRequests.filter (· ≠ workerId) }
    modify fun d => { d with getRequests := d.getRequests.erase workerId }

def setTask (taskId : TaskID) (entry : TaskDependencies) : DependencyM Unit :=
  modify fun d => { d with queuedTaskRequests := d.queuedTaskRequests.insert taskId entry }

/-- There is no pull for a task without dependencies. -/
def pullDependencies (requiredObjects : List ObjectReference) : DependencyM Nat :=
  if requiredObjects = [] then pure 0 else pull requiredObjects .taskArgs

/-- Returns whether all dependencies are local. -/
def requestTaskDependencies (taskId : TaskID) (requiredObjects : List ObjectReference) :
    DependencyM Bool := do
  let deduped := (requiredObjects.map ObjectReference.objectId).dedup
  check .dependenciesRequestedTwice ((← get).queuedTaskRequests.lookup taskId = none)
  setTask taskId { dependencies := deduped, numMissingDependencies := deduped.length }
  requiredObjects.forM fun ref => modify fun d => d.require ref fun entry =>
    { entry with dependentTasks := entry.dependentTasks.insert taskId }
  let missing := (deduped.filter (· ∉ (← get).localObjects)).length
  let pullRequestId ← pullDependencies requiredObjects
  setTask taskId { dependencies := deduped, numMissingDependencies := missing, pullRequestId }
  pure (decide (missing = 0))

def removeTaskDependencies (taskId : TaskID) : DependencyM Unit := do
  match (← get).queuedTaskRequests.lookup taskId with
  | none => throw .dependenciesNotQueued
  | some task => do
    onlyIf (0 < task.pullRequestId) (cancelPull task.pullRequestId)
    task.dependencies.forM fun id => do
      let entry ← findRequired .dependencyNotRequired id
      removeObjectIfNotNeeded id
        { entry with dependentTasks := entry.dependentTasks.filter (· ≠ taskId) }
    modify fun d => { d with queuedTaskRequests := d.queuedTaskRequests.erase taskId }

/-- Counts one dependency more or less, in a `size_t`. Adds the task if it is selected. -/
def recountTask (count : Nat → Nat) (selected : Nat → Bool) (ids : List TaskID) (taskId : TaskID) :
    DependencyM (List TaskID) := do
  match (← get).queuedTaskRequests.lookup taskId with
  | none => throw .dependentTaskMissing
  | some task => do
    setTask taskId { task with numMissingDependencies := count task.numMissingDependencies }
    pure (if selected task.numMissingDependencies then ids ++ [taskId] else ids)

/-- Returns the tasks that were ready to run. -/
def handleObjectMissing (id : ObjectID) : DependencyM (List TaskID) := do
  check .objectNotLocal (id ∈ (← get).localObjects)
  modify fun d => { d with localObjects := d.localObjects.filter (· ≠ id) }
  match (← get).requiredObjects.lookup id with
  | none => pure []
  | some entry => entry.dependentTasks.foldlM (recountTask (· + 1) (· == 0)) []

def waitedObjectLocal (id : ObjectID) (workerId : WorkerID) : DependencyM Unit := do
  match (← get).waitRequests.lookup workerId with
  | none => throw .waitRequestMissing
  | some request => do
    check .waitedObjectMissing (id ∈ request)
    let request := request.filter (· ≠ id)
    modify fun d =>
      { d with
        waitRequests := if request = [] then d.waitRequests.erase workerId
          else d.waitRequests.insert workerId request }

/-- Returns the tasks that are now ready to run. -/
def handleObjectLocal (id : ObjectID) : DependencyM (List TaskID) := do
  check .objectAlreadyLocal (id ∉ (← get).localObjects)
  modify fun d => { d with localObjects := id :: d.localObjects }
  match (← get).requiredObjects.lookup id with
  | none => pure []
  | some entry => do
    let ready ← entry.dependentTasks.foldlM
      (recountTask (fun n => (n + (2 ^ 64 - 1)) % 2 ^ 64) (· == 1)) []
    entry.dependentWaitRequests.forM (waitedObjectLocal id)
    onlyIf (0 < entry.waitRequestId) (cancelPull entry.waitRequestId)
    removeObjectIfNotNeeded id { entry with dependentWaitRequests := [], waitRequestId := 0 }
    pure ready

/-- `active` says whether the pull with the id makes progress. -/
def taskDependenciesBlocked (active : Nat → Bool) (taskId : TaskID) : DependencyM Bool := do
  match (← get).queuedTaskRequests.lookup taskId with
  | none => throw .blockedTaskNotQueued
  | some task => do
    check .blockedTaskNotPulled (task.pullRequestId ≠ 0)
    pure (!active task.pullRequestId)

end DependencyManager

inductive DependencyOp where
  | startOrUpdateWaitRequest (workerId : WorkerID) (requiredObjects : List ObjectReference)
  | cancelWaitRequest (workerId : WorkerID)
  | startOrUpdateGetRequest (workerId : WorkerID) (requiredObjects : List ObjectReference)
  | cancelGetRequest (workerId : WorkerID)
  | handleObjectMissing (id : ObjectID)
  | handleObjectLocal (id : ObjectID)
  deriving DecidableEq, Repr

def DependencyOp.run : DependencyOp → DependencyM Unit
  | .startOrUpdateWaitRequest workerId refs => DependencyManager.startOrUpdateWaitRequest workerId refs
  | .cancelWaitRequest workerId => DependencyManager.cancelWaitRequest workerId
  | .startOrUpdateGetRequest workerId refs => DependencyManager.startOrUpdateGetRequest workerId refs
  | .cancelGetRequest workerId => DependencyManager.cancelGetRequest workerId
  | .handleObjectMissing id => do
    let _ ← DependencyManager.handleObjectMissing id
    pure ()
  | .handleObjectLocal id => do
    let _ ← DependencyManager.handleObjectLocal id
    pure ()

end AmazonRay.Raylet
