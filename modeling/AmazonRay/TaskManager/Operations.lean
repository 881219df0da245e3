import AmazonRay.Lib.Runs
import AmazonRay.TaskManager.Tasks

/-! The operations of `TaskManager` and of `LocalDependencyResolver`. -/
namespace AmazonRay.TaskManager
open Program ReferenceCounter

def getTasks : WorkerM Tasks := do
  pure (← get).lineage

def modifyTasks (f : Tasks → Tasks) : WorkerM Unit :=
  modify fun s => { s with lineage := f s.lineage }

def findTask (e : Check) (id : TaskID) : WorkerM TaskEntry := do
  match (← getTasks).submissibleTasks.lookup id with
  | some entry => pure entry
  | none => throw e

def output (o : Output) : WorkerM Unit :=
  modifyTasks fun t => { t with outputs := t.outputs ++ [o] }

def Tasks.giveToRetry (t : Tasks) (id : TaskID) (delay : Bool) : Tasks :=
  { t with
    outputs := t.outputs ++ [.retryTask id delay]
    toSubmit := id :: t.toSubmit }

def retryTask (id : TaskID) (delay : Bool) : WorkerM Unit :=
  modifyTasks fun t => t.giveToRetry id delay

def Tasks.addTask (t : Tasks) (spec : TaskSpec) (maxRetries : Int) : Tasks :=
  { t with
    submissibleTasks := t.submissibleTasks.insert spec.taskId
      { numRetriesLeft := maxRetries, reconstructableReturnIds := spec.trackedReturnIds }
    messages := Function.update t.messages spec.taskId spec
    numPendingTasks := t.numPendingTasks + 1
    toSubmit := spec.taskId :: t.toSubmit
    added := (spec.taskId, maxRetries) :: t.added }

def addPendingTask (cfg : WorkerConfig) (callerAddress : WorkerAddress) (spec : TaskSpec)
    (maxRetries : Int) : WorkerM Unit := do
  updateSubmittedTaskReferences cfg.counter spec.dependencies []
  spec.ownedReturnIds.forM fun id =>
    addOwnedObject cfg.counter id [] callerAddress (-1) (maxRetries ≠ 0) none
  check .taskAlreadyAdded ((← getTasks).submissibleTasks.lookup spec.taskId = none)
  modifyTasks fun t => t.addTask spec maxRetries

def Tasks.markResubmitted (t : Tasks) (id : TaskID) (entry : TaskEntry) : Tasks :=
  { t with
    submissibleTasks := t.submissibleTasks.insert id { entry with
      pending := true
      lineageFootprintBytes := 0
      numRetriesLeft := if 0 < entry.numRetriesLeft then entry.numRetriesLeft - 1
        else entry.numRetriesLeft }
    numPendingTasks := t.numPendingTasks + 1
    totalLineageFootprintBytes := t.totalLineageFootprintBytes - entry.lineageFootprintBytes }

/-- A pending task is left alone: the spec read afterwards is then the empty one. -/
def resubmitTask (cfg : WorkerConfig) (id : TaskID) : WorkerM Bool := do
  match (← getTasks).submissibleTasks.lookup id with
  | none => pure false
  | some entry =>
    if entry.pending then pure true else do
      modifyTasks fun t => t.markResubmitted id entry
      check .resubmitRetriesLeft (0 < entry.numRetriesLeft ∨ entry.numRetriesLeft = -1)
      let spec := (← getTasks).messages id
      onlyIf (spec.argDependencies ≠ [])
        (updateResubmittedTaskReferences cfg.counter spec.argDependencies)
      onlyIf (spec.isActorTask = true)
        (updateResubmittedTaskReferences cfg.counter spec.actorCreationDummyObjectId)
      retryTask id false
      pure true

def drainAndShutdown : WorkerM Unit :=
  modifyTasks fun t => if 0 < t.numPendingTasks then { t with shutdownHook := true }
    else { t with shutdowns := t.shutdowns + 1 }

def shutdownIfNeeded : WorkerM Unit :=
  modifyTasks fun t => if t.shutdownHook ∧ t.numPendingTasks = 0 then
    { t with shutdownHook := false, shutdowns := t.shutdowns + 1 } else t

def removeFinishedTaskReferences (cfg : WorkerConfig) (spec : TaskSpec) (releaseLineage : Bool)
    (borrowerAddr : WorkerAddress) (borrowedRefs : ReferenceTableProto) : WorkerM Unit :=
  updateFinishedTaskReferences cfg.counter spec.dependencies releaseLineage borrowerAddr borrowedRefs

structure ReturnObject where
  objectId : ObjectID
  size : Int := 0
  inPlasma : Bool := false
  nestedInlinedRefs : List ObjectID := []
  deriving DecidableEq, Repr

structure PushTaskReply where
  returnObjects : List ReturnObject := []
  borrowedRefs : ReferenceTableProto := []
  deriving DecidableEq, Repr

/-- An object returned in plasma is pinned there, or recovered if its node died. -/
def storeInPlasma (cfg : WorkerConfig) (rayletId : NodeID) (nodeAlive : Bool) (id : ObjectID) :
    WorkerM Unit :=
  if nodeAlive then do
    updateObjectPinnedAtRaylet cfg.counter id rayletId
    output (.putInMemory id true)
  else output (.reconstructObject id)

/-- One object of a reply. Adds the ids returned directly; one that an earlier execution put in plasma is put there
again. -/
def handleReturnObject (cfg : WorkerConfig) (workerAddr : WorkerAddress) (nodeAlive : Bool)
    (storeInPlasmaIds : List ObjectID) (directReturnIds : List ObjectID) (object : ReturnObject) :
    WorkerM (List ObjectID) := do
  updateObjectSize object.objectId object.size
  let direct := !object.inPlasma && decide (object.objectId ∉ storeInPlasmaIds)
  (if object.inPlasma then storeInPlasma cfg workerAddr.rayletId nodeAlive object.objectId
  else output (if direct then .putInMemory object.objectId false
    else .putInLocalPlasma object.objectId))
  let owner ← getOwner object.objectId
  onlyIf (object.nestedInlinedRefs ≠ []) (owner.toList.forM
    (addNestedObjectIds cfg.counter object.objectId object.nestedInlinedRefs))
  pure (if direct then directReturnIds ++ [object.objectId] else directReturnIds)

def TaskEntry.finished (entry : TaskEntry) (directReturnIds : List ObjectID) : TaskEntry :=
  { entry with
    reconstructableReturnIds := entry.reconstructableReturnIds.filter (· ∉ directReturnIds)
    numSuccessfulExecutions := entry.numSuccessfulExecutions + 1
    pending := false }

/-- A finished task can run again if it has retries left and a plasma object in use. -/
def TaskEntry.retryable (entry : TaskEntry) : Bool :=
  decide (entry.numRetriesLeft ≠ 0) && !entry.reconstructableReturnIds.isEmpty

def Tasks.retain (t : Tasks) (id : TaskID) (entry : TaskEntry) (bytes : Nat) : Tasks :=
  { t with
    submissibleTasks := t.submissibleTasks.insert id { entry with lineageFootprintBytes := bytes }
    numPendingTasks := t.numPendingTasks - 1
    totalLineageFootprintBytes := t.totalLineageFootprintBytes + bytes }

def Tasks.forget (t : Tasks) (id : TaskID) : Tasks :=
  { t with
    submissibleTasks := t.submissibleTasks.erase id
    numPendingTasks := t.numPendingTasks - 1 }

def Tasks.finish (cfg : WorkerConfig) (t : Tasks) (id : TaskID) (entry : TaskEntry) : Tasks :=
  if entry.retryable then t.retain id entry (cfg.byteSizeLong (t.messages id)) else t.forget id

/-- At least half of the lineage goes when it exceeds the limit. -/
def Tasks.minLineageBytesToEvict (cfg : WorkerConfig) (t : Tasks) : Int :=
  if cfg.maxLineageBytes < t.totalLineageFootprintBytes then
    t.totalLineageFootprintBytes - cfg.maxLineageBytes.tdiv 2 else 0

def completePendingTask (cfg : WorkerConfig) (id : TaskID) (reply : PushTaskReply)
    (workerAddr : WorkerAddress) (nodeAlive : Bool) : WorkerM Unit := do
  let entry ← findTask .completeUnknownTask id
  let storeInPlasmaIds := if 0 < entry.numSuccessfulExecutions then entry.reconstructableReturnIds
    else []
  let directReturnIds ← reply.returnObjects.foldlM
    (handleReturnObject cfg workerAddr nodeAlive storeInPlasmaIds) []
  let entry ← findTask .completeUnknownTask id
  let finished := entry.finished directReturnIds
  modifyTasks fun t => t.finish cfg id finished
  let t ← getTasks
  let minBytes := if finished.retryable then t.minLineageBytesToEvict cfg else 0
  removeFinishedTaskReferences cfg (t.messages id) (!finished.retryable) workerAddr reply.borrowedRefs
  onlyIf (0 < minBytes) do
    let _ ← evictLineage cfg.counter minBytes
    pure ()
  shutdownIfNeeded

def TaskEntry.useRetry (entry : TaskEntry) : TaskEntry :=
  { entry with numRetriesLeft := if 0 < entry.numRetriesLeft then entry.numRetriesLeft - 1
      else entry.numRetriesLeft }

/-- Returns whether the task is retried. -/
def retryTaskIfPossible (id : TaskID) : WorkerM Bool := do
  let entry ← findTask .retryUnknownTask id
  check .retryNotPending (entry.pending = true)
  check .retryRetriesLeft
    (0 < entry.numRetriesLeft ∨ entry.numRetriesLeft = 0 ∨ entry.numRetriesLeft = -1)
  modifyTasks fun t => t.withEntry id entry.useRetry
  onlyIf (entry.numRetriesLeft ≠ 0) (retryTask id true)
  pure (decide (entry.numRetriesLeft ≠ 0))

def markPendingTaskFailed (spec : TaskSpec) : WorkerM Unit :=
  (spec.returnIds spec.numReturns).forM fun id => output (.putError id)

/-- Returns whether the task is retried. A failed task borrows nothing, with an empty worker address. -/
def pendingTaskFailed (cfg : WorkerConfig) (id : TaskID) (immediatelyMarkObjectFail : Bool) :
    WorkerM Bool := do
  let willRetry ← retryTaskIfPossible id
  let entry ← findTask .failUnknownTask id
  check .failNotPending (entry.pending = true)
  onlyIf (willRetry = false) do
    modifyTasks fun t => t.forget id
    let spec := (← getTasks).messages id
    removeFinishedTaskReferences cfg spec true ⟨WorkerID.nil, NodeID.nil⟩ []
    onlyIf (immediatelyMarkObjectFail = true) (markPendingTaskFailed spec)
  shutdownIfNeeded
  pure willRetry

def markTaskCanceled (id : TaskID) : WorkerM Bool := do
  match (← getTasks).submissibleTasks.lookup id with
  | none => pure false
  | some entry => do
    modifyTasks fun t => t.withEntry id { entry with numRetriesLeft := 0 }
    pure true

def TaskSpec.localDependencies (spec : TaskSpec) : AList fun _ : ObjectID => Option RayObject :=
  spec.args.foldl (fun deps arg => match arg with
    | .byReference id => deps.insert id none
    | .byValue _ => deps) ∅

def TaskSpec.actorDependencies (cfg : WorkerConfig) (isActorInRegistering : ActorID → Bool)
    (spec : TaskSpec) : List ActorID :=
  spec.args.flatMap fun arg => match arg with
    | .byReference _ => []
    | .byValue nestedInlinedRefs =>
      (nestedInlinedRefs.filterMap cfg.toActorID).filter isActorInRegistering

def resolveDependencies (cfg : WorkerConfig) (isActorInRegistering : ActorID → Bool)
    (id : TaskID) : WorkerM Unit := do
  let spec := (← getTasks).messages id
  let local' := spec.localDependencies
  let actors := spec.actorDependencies cfg isActorInRegistering
  if local'.entries = [] ∧ actors = [] then output (.resolved id true)
  else modifyTasks fun t => { t with resolving := t.resolving ++
    [{ task := id, localDependencies := local', objDependenciesRemaining := local'.entries.length,
       actorDependenciesRemaining := actors.length }] }

def submitTask (cfg : WorkerConfig) (isActorInRegistering : ActorID → Bool) (id : TaskID) :
    WorkerM Unit := do
  modifyTasks fun t => { t with toSubmit := t.toSubmit.erase id }
  resolveDependencies cfg isActorInRegistering id

/-- The argument after inlining, the id that was inlined and the ids in its value. -/
def TaskArg.inline (deps : AList fun _ : ObjectID => Option RayObject) (arg : TaskArg) :
    TaskArg × List ObjectID × List ObjectID :=
  match arg with
  | .byValue _ => (arg, [], [])
  | .byReference id => match deps.lookup id with
    | some (some object) => if object.isInPlasmaError then (arg, [], [])
      else (.byValue object.nestedRefs, [id], object.nestedRefs)
    | _ => (arg, [], [])

def TaskArg.isNull (deps : AList fun _ : ObjectID => Option RayObject) : TaskArg → Bool
  | .byValue _ => false
  | .byReference id => deps.lookup id = some none

def TaskArg.isDependency (deps : AList fun _ : ObjectID => Option RayObject) : TaskArg → Bool
  | .byValue _ => false
  | .byReference id => (deps.lookup id).isSome

def Tasks.inlineArgs (t : Tasks) (id : TaskID)
    (deps : AList fun _ : ObjectID => Option RayObject) : Tasks :=
  { t with messages := Function.update t.messages id { t.messages id with
      args := (t.messages id).args.map fun arg => (arg.inline deps).1 } }

/-- Returns the ids that were inlined, once for each argument, and the ids in their
values. -/
def inlineDependencies (deps : AList fun _ : ObjectID => Option RayObject) (id : TaskID) :
    WorkerM (List ObjectID × List ObjectID) := do
  let args := ((← getTasks).messages id).args
  check .dependencyNull (∀ arg ∈ args, arg.isNull deps = false)
  modifyTasks fun t => t.inlineArgs id deps
  check .dependenciesNotFound
    (deps.entries.length ≤ (args.filter fun arg => arg.isDependency deps).length)
  pure (args.flatMap fun arg => (arg.inline deps).2.1, args.flatMap fun arg => (arg.inline deps).2.2)

def onTaskDependenciesInlined (cfg : WorkerConfig)
    (inlinedDependencyIds containedIds : List ObjectID) : WorkerM Unit :=
  updateSubmittedTaskReferences cfg.counter containedIds inlinedDependencyIds

def TaskState.fetched (state : TaskState) (id : ObjectID) (object : RayObject) : TaskState :=
  { state with
    localDependencies := state.localDependencies.insert id (some object)
    objDependenciesRemaining := state.objDependenciesRemaining - 1 }

def TaskState.registered (state : TaskState) (ok : Bool) : TaskState :=
  { state with
    actorDependenciesRemaining := state.actorDependenciesRemaining - 1
    ok := state.ok && ok }

def putState (i : Nat) (state : TaskState) : WorkerM Unit :=
  modifyTasks fun t => { t with resolving := t.resolving.set i state }

def complete (state : TaskState) : WorkerM Unit :=
  onlyIf (state.actorDependenciesRemaining = 0 ∧ state.objDependenciesRemaining = 0)
    (output (.resolved state.task state.ok))

def fetchDependency (cfg : WorkerConfig) (i : Nat) (state : TaskState) : WorkerM Unit := do
  putState i state
  onlyIf (state.objDependenciesRemaining = 0) do
    let inlined ← inlineDependencies state.localDependencies state.task
    onlyIf (inlined.1 ≠ []) (onTaskDependenciesInlined cfg inlined.1 inlined.2)
    complete state

/-- The callback of the memory store. The last object of a task inlines its
arguments. -/
def dependencyFetched (cfg : WorkerConfig) (i : Nat) (id : ObjectID) (object : RayObject) :
    WorkerM Unit := do
  (← getTasks).resolving[i]?.toList.forM fun state => fetchDependency cfg i (state.fetched id object)

def actorRegistered (i : Nat) (ok : Bool) : WorkerM Unit := do
  (← getTasks).resolving[i]?.toList.forM fun state => do
    putState i (state.registered ok)
    complete (state.registered ok)

/-- The steps of a worker, with what comes from the outside as arguments. -/
inductive WorkerOp where
  | addPendingTask (callerAddress : WorkerAddress) (spec : TaskSpec) (maxRetries : Int)
  | submitTask (id : TaskID) (isActorInRegistering : ActorID → Bool)
  | dependencyFetched (i : Nat) (id : ObjectID) (object : RayObject)
  | actorRegistered (i : Nat) (ok : Bool)
  | completePendingTask (id : TaskID) (reply : PushTaskReply) (workerAddr : WorkerAddress)
      (nodeAlive : Bool)
  | retryTaskIfPossible (id : TaskID)
  | pendingTaskFailed (id : TaskID) (immediatelyMarkObjectFail : Bool)
  | resubmitTask (id : TaskID)
  | markTaskCanceled (id : TaskID)
  | drainAndShutdown
  | counter (op : Op)

def WorkerOp.run (cfg : WorkerConfig) : WorkerOp → WorkerM Unit
  | .addPendingTask callerAddress spec maxRetries =>
    TaskManager.addPendingTask cfg callerAddress spec maxRetries
  | .submitTask id isActorInRegistering => TaskManager.submitTask cfg isActorInRegistering id
  | .dependencyFetched i id object => TaskManager.dependencyFetched cfg i id object
  | .actorRegistered i ok => TaskManager.actorRegistered i ok
  | .completePendingTask id reply workerAddr nodeAlive =>
    TaskManager.completePendingTask cfg id reply workerAddr nodeAlive
  | .retryTaskIfPossible id => do
    let _ ← TaskManager.retryTaskIfPossible id
    pure ()
  | .pendingTaskFailed id immediatelyMarkObjectFail => do
    let _ ← TaskManager.pendingTaskFailed cfg id immediatelyMarkObjectFail
    pure ()
  | .resubmitTask id => do
    let _ ← TaskManager.resubmitTask cfg id
    pure ()
  | .markTaskCanceled id => do
    let _ ← TaskManager.markTaskCanceled id
    pure ()
  | .drainAndShutdown => TaskManager.drainAndShutdown
  | .counter op => op.run cfg.counter

def Tasks.isTaskPending (t : Tasks) (id : TaskID) : Bool :=
  (t.submissibleTasks.lookup id).any TaskEntry.pending

/-- What the callers see to: a task id is used once, an attempt is submitted once, an awaited object arrives once, and
an attempt of a pending task ends once. -/
def WorkerOp.Enabled (t : Tasks) : WorkerOp → Prop
  | .addPendingTask _ spec maxRetries => spec.taskId ∉ t.added.map Prod.fst ∧ -1 ≤ maxRetries
  | .submitTask id _ => id ∈ t.toSubmit
  | .dependencyFetched i id _ =>
    (t.resolving[i]?.any fun state => state.localDependencies.lookup id = some none) = true
  | .actorRegistered i _ =>
    (t.resolving[i]?.any fun state => 0 < state.actorDependenciesRemaining) = true
  | .completePendingTask id _ _ _ | .retryTaskIfPossible id | .pendingTaskFailed id _ =>
    t.isTaskPending id = true
  | .resubmitTask _ | .markTaskCanceled _ | .drainAndShutdown => True
  | .counter op => op.ofTasks = false

instance (t : Tasks) (op : WorkerOp) : Decidable (op.Enabled t) := by
  cases op <;> (unfold WorkerOp.Enabled; infer_instance)

/-- The states of the runs whose steps are enabled and allowed. -/
abbrev Reachable (cfg : WorkerConfig) (Allowed : WorkerOp → Worker → Prop) : Worker → Prop :=
  Reaches (WorkerOp.run cfg) (fun op s => op.Enabled s.lineage ∧ Allowed op s) { lineage := {} }

end AmazonRay.TaskManager
