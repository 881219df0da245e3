import AmazonRay.Raylet.DependencyManager

/-! `ClusterTaskManager`: the lease requests of a node, in the queues between their
arrival and their reply. -/
namespace AmazonRay.Raylet
open Program

abbrev SchedulingClass := Nat

abbrev WorkID := Nat

abbrev TaskResourceInstances := Nat

structure RayTask where
  taskId : TaskID
  schedulingClass : SchedulingClass := 0
  dependencies : List ObjectReference := []
  callerAddress : WorkerAddress := ⟨0, 0⟩
  isDetachedActor : Bool := false
  deriving DecidableEq, Repr

inductive WorkStatus where
  | waiting
  | waitingForWorker
  | cancelled
  deriving DecidableEq, Repr

inductive UnscheduledWorkCause where
  | waitingForResourceAcquisition
  | waitingForAvailablePlasmaMemory
  | waitingForResourcesAvailable
  | workerNotFoundJobConfigNotExist
  | workerNotFoundRegistrationTimeout
  | workerNotFoundRateLimited
  deriving DecidableEq, Repr

inductive PopWorkerStatus where
  | ok
  | jobConfigMissing
  | tooManyStartingWorkerProcesses
  | workerPendingRegistration
  | runtimeEnvCreationFailed
  deriving DecidableEq, Repr

inductive LeaseReply where
  | granted (worker : WorkerID)
  | rejected
  | retryAt (node : NodeID)
  | canceled (runtimeEnvSetupFailed : Bool)
  deriving DecidableEq, Repr

structure Work where
  task : RayTask
  grantOrReject : Bool := false
  allocatedInstances : Option TaskResourceInstances := none
  status : WorkStatus := .waiting
  cause : UnscheduledWorkCause := .waitingForResourceAcquisition
  /-- The calls of the reply callback. -/
  replies : List LeaseReply := []
  deriving DecidableEq, Repr

/-- The answer of the scheduling policy. That there is no node for an actor without resources when all are dead is not
reported as infeasible. -/
inductive Answer where
  | infeasible
  | noNode
  | node (id : NodeID)
  deriving DecidableEq, Repr

/-- What the manager asks of the other components of the node. -/
structure Cluster (ρ : Type) where
  selfNodeId : NodeID
  maxPinnedTaskArgumentsBytes : Nat
  getBestSchedulableNode : ρ → RayTask → (requiresObjectStoreMemory forceSpillback : Bool) → Answer × ρ
  isLocallySchedulable : ρ → RayTask → Bool
  allocateLocalTaskResources : ρ → RayTask → Option (TaskResourceInstances × ρ)
  allocateRemoteTaskResources : ρ → NodeID → RayTask → ρ
  releaseWorkerResources : ρ → Option TaskResourceInstances → ρ
  isOwnerAlive : ρ → WorkerAddress → Bool
  hasNodeInfo : ρ → NodeID → Bool
  /-- The sizes of the arguments in the object store, unless the request fails. -/
  getTaskArguments : ρ → Option (ObjectID → Option Nat)
  pullRequestActive : ρ → Nat → Bool
  /-- The value of `is_infeasible` where `GetBestSchedulableNode` does not set it. -/
  indeterminate : ρ → Bool
  /-- The order in which the hash maps are traversed. -/
  order : ρ → List SchedulingClass → List SchedulingClass
  order_perm : ∀ r l, (order r l).Perm l

/-- The pinned objects lie in one store, so that their sizes and the sum of them do not overflow a `size_t`. -/
structure TaskArguments where
  executingTaskArgs : AList fun _ : TaskID => List ObjectID := ∅
  /-- The size of an argument and the number of tasks that depend on it. -/
  pinnedTaskArguments : AList fun _ : ObjectID => Nat × Nat := ∅
  pinnedTaskArgumentsBytes : Nat := 0

inductive PinResult where
  | pinned
  | argsMissing
  | overMemory
  deriving DecidableEq, Repr

namespace TaskArguments

def pinArgument (a : TaskArguments) (arg : ObjectID × Nat) : TaskArguments :=
  match a.pinnedTaskArguments.lookup arg.1 with
  | some (size, count) =>
    { a with pinnedTaskArguments := a.pinnedTaskArguments.insert arg.1 (size, count + 1) }
  | none =>
    { a with
      pinnedTaskArguments := a.pinnedTaskArguments.insert arg.1 (arg.2, 1)
      pinnedTaskArgumentsBytes := a.pinnedTaskArgumentsBytes + arg.2 }

/-- A task that is executing already is not pinned again. -/
def pinTaskArgs (taskId : TaskID) (args : List (ObjectID × Nat)) (a : TaskArguments) : TaskArguments :=
  match a.executingTaskArgs.lookup taskId with
  | some _ => a
  | none =>
    args.foldl pinArgument
      { a with executingTaskArgs := a.executingTaskArgs.insert taskId (args.map Prod.fst) }

def releaseArgument (arg : ObjectID) : EStateM Check TaskArguments Unit := do
  match (← get).pinnedTaskArguments.lookup arg with
  | none => throw .argumentNotPinned
  | some (size, count) => do
    check .argumentPinCountZero (0 < count)
    modify fun a =>
      if count = 1 then
        { a with
          pinnedTaskArguments := a.pinnedTaskArguments.erase arg
          pinnedTaskArgumentsBytes := a.pinnedTaskArgumentsBytes - size }
      else { a with pinnedTaskArguments := a.pinnedTaskArguments.insert arg (size, count - 1) }

def releaseTaskArgs (taskId : TaskID) : EStateM Check TaskArguments Unit := do
  match (← get).executingTaskArgs.lookup taskId with
  | none => pure ()
  | some args => do
    args.forM releaseArgument
    modify fun a => { a with executingTaskArgs := a.executingTaskArgs.erase taskId }

/-- `sizes` comes from the object store. A task that is over the limit by itself is let through. -/
def pinTaskArgsIfMemoryAvailable (maxBytes : Nat) (sizes : Option (ObjectID → Option Nat))
    (taskId : TaskID) (deps : List ObjectID) : EStateM Check TaskArguments PinResult := do
  match if deps = [] then some [] else sizes.bind fun size =>
      deps.mapM fun dep => (size dep).map fun n => (dep, n) with
  | none => pure .argsMissing
  | some args => do
    modify (pinTaskArgs taskId args)
    if maxBytes ≠ 0 ∧ (args.map Prod.snd).sum ≤ maxBytes ∧
        maxBytes < (← get).pinnedTaskArgumentsBytes then do
      releaseTaskArgs taskId
      pure .overMemory
    else pure .pinned

end TaskArguments

abbrev WorkQueues := AList fun _ : SchedulingClass => List WorkID

/-- A dispatch queue that is moved to the infeasible ones: its tasks, whether its class has a queue there or waits to be
scheduled, and whether one of its works waits for a worker. -/
structure DispatchMove where
  tasks : List RayTask
  taken : Bool
  awaiting : Bool
  deriving DecidableEq, Repr

structure Lease where
  taskId : TaskID
  allocatedInstances : Option TaskResourceInstances
  deriving DecidableEq, Repr

structure State (ρ : Type) where
  tasksToSchedule : WorkQueues := ∅
  tasksToDispatch : WorkQueues := ∅
  infeasibleTasks : WorkQueues := ∅
  waitingTaskQueue : List WorkID := []
  waitingTasksIndex : AList fun _ : TaskID => WorkID := ∅
  works : WorkID → Work := fun _ => { task := { taskId := 0 } }
  numWorks : Nat := 0
  arguments : TaskArguments := {}
  leasedWorkers : AList fun _ : WorkerID => Lease := ∅
  dependencies : DependencyManager := {}
  cluster : ρ
  /-- The works for which the worker pool has a callback to run. -/
  popRequests : List WorkID := []
  announced : List RayTask := []
  /-- The works given up because their owner was found dead. -/
  ownerDead : List WorkID := []
  /-- The works of queues that were assigned to. -/
  overwritten : List WorkID := []
  dispatchMoves : List DispatchMove := []
  /-- The tasks for which a runtime environment could not be made. -/
  runtimeEnvFailures : List RayTask := []

abbrev ManagerM (ρ : Type) := EStateM Check (State ρ)

namespace WorkQueues

def queue (t : WorkQueues) (c : SchedulingClass) : List WorkID := (t.lookup c).getD []

def pushBack (t : WorkQueues) (c : SchedulingClass) (w : WorkID) : WorkQueues :=
  t.insert c (t.queue c ++ [w])

def remove (t : WorkQueues) (c : SchedulingClass) (w : WorkID) : WorkQueues :=
  if (t.queue c).erase w = [] then t.erase c else t.insert c ((t.queue c).erase w)

end WorkQueues

namespace ClusterTaskManager

variable {ρ : Type} (cfg : Cluster ρ)

def dependencyManager {α : Type} (x : DependencyM α) : ManagerM ρ α :=
  within State.dependencies (fun d s => { s with dependencies := d }) id x

def taskArguments {α : Type} (x : EStateM Check TaskArguments α) : ManagerM ρ α :=
  within State.arguments (fun a s => { s with arguments := a }) id x

def updateWork (w : WorkID) (f : Work → Work) : ManagerM ρ Unit :=
  modify fun s => { s with works := Function.update s.works w (f (s.works w)) }

def getTask (w : WorkID) : ManagerM ρ RayTask := do
  pure ((← get).works w).task

def reply (w : WorkID) (r : LeaseReply) : ManagerM ρ Unit :=
  updateWork w fun work => { work with replies := work.replies ++ [r] }

def setStateWaiting (w : WorkID) (cause : UnscheduledWorkCause) : ManagerM ρ Unit :=
  updateWork w fun work => { work with status := .waiting, cause }

def releaseTaskArgs (taskId : TaskID) : ManagerM ρ Unit :=
  taskArguments (TaskArguments.releaseTaskArgs taskId)

def releaseAllocated (allocated : Option TaskResourceInstances) : ManagerM ρ Unit :=
  modify fun s => { s with cluster := cfg.releaseWorkerResources s.cluster allocated }

def removeDependencies (task : RayTask) : ManagerM ρ Unit :=
  onlyIf (task.dependencies ≠ [])
    (dependencyManager (DependencyManager.removeTaskDependencies task.taskId))

def ownerFailed (s : State ρ) (task : RayTask) : Bool :=
  !task.isDetachedActor && !cfg.isOwnerAlive s.cluster task.callerAddress

/-- A work that asks to be granted or rejected takes the local node if it can. -/
def getBestSchedulableNode (w : WorkID) (requiresObjectStoreMemory forceSpillback : Bool) :
    ManagerM ρ Answer := do
  let s ← get
  let work := s.works w
  if work.grantOrReject ∧ ¬ forceSpillback ∧ cfg.isLocallySchedulable s.cluster work.task then
    pure (.node cfg.selfNodeId)
  else do
    let answer := cfg.getBestSchedulableNode s.cluster work.task requiresObjectStoreMemory forceSpillback
    set { s with cluster := answer.2 }
    pure answer.1

def spillback (node : NodeID) (w : WorkID) : ManagerM ρ Unit := do
  let work := (← get).works w
  if work.grantOrReject then reply w .rejected
  else do
    modify fun s =>
      { s with cluster := cfg.allocateRemoteTaskResources s.cluster node work.task }
    check .nodeInfoMissing (cfg.hasNodeInfo (← get).cluster node)
    reply w (.retryAt node)

def pushDispatch (c : SchedulingClass) (w : WorkID) : ManagerM ρ Unit :=
  modify fun s => { s with tasksToDispatch := s.tasksToDispatch.pushBack c w }

/-- The index of the waiting queue has one work for each task. -/
def addWaiting (taskId : TaskID) (w : WorkID) (front : Bool) : ManagerM ρ Unit := do
  modify fun s =>
    { s with
      waitingTaskQueue := if front then w :: s.waitingTaskQueue else s.waitingTaskQueue ++ [w] }
  check .waitingTaskIndexed ((← get).waitingTasksIndex.lookup taskId = none)
  modify fun s => { s with waitingTasksIndex := s.waitingTasksIndex.insert taskId w }

/-- Returns whether the work can be dispatched. -/
def waitForTaskArgsRequests (w : WorkID) : ManagerM ρ Bool := do
  let task ← getTask w
  if task.dependencies ≠ [] then do
    let argsReady ← dependencyManager
      (DependencyManager.requestTaskDependencies task.taskId task.dependencies)
    if argsReady then do
      pushDispatch task.schedulingClass w
      pure true
    else do
      addWaiting task.taskId w false
      pure false
  else do
    pushDispatch task.schedulingClass w
    pure true

/-- A queue that is not infeasible any more replaces the one waiting to be scheduled. -/
def moveToSchedule (c : SchedulingClass) : ManagerM ρ Unit :=
  modify fun s =>
    { s with
      overwritten := s.overwritten ++ s.tasksToSchedule.queue c
      tasksToSchedule := s.tasksToSchedule.insert c (s.infeasibleTasks.queue c)
      infeasibleTasks := s.infeasibleTasks.erase c }

def tryInfeasibleQueue (c : SchedulingClass) : ManagerM ρ Unit := do
  match (← get).infeasibleTasks.lookup c with
  | none => pure ()
  | some [] => throw .infeasibleQueueEmpty
  | some (w :: _) => do
    let answer ← getBestSchedulableNode cfg w false false
    match answer with
    | .infeasible => pure ()
    | .noNode => do
      let s ← get
      onlyIf (cfg.indeterminate s.cluster = false) (moveToSchedule c)
    | .node _ => moveToSchedule c

def tryLocalInfeasibleTaskScheduling : ManagerM ρ Unit := do
  let s ← get
  (cfg.order s.cluster s.infeasibleTasks.keys).forM (tryInfeasibleQueue cfg)

def scheduleWork (node : NodeID) (w : WorkID) : ManagerM ρ Unit :=
  if node = cfg.selfNodeId then do
    let _ ← waitForTaskArgsRequests w
    pure ()
  else spillback cfg node w

/-- Schedules a queue from its front. Returns whether the class was found infeasible. -/
def scheduleQueue (c : SchedulingClass) : List WorkID → ManagerM ρ Bool
  | [] => pure false
  | w :: rest => do
    let answer ← getBestSchedulableNode cfg w false false
    match answer with
    | .infeasible => pure true
    | .noNode => pure false
    | .node node => do
      scheduleWork cfg node w
      modify fun s => { s with tasksToSchedule := s.tasksToSchedule.insert c rest }
      scheduleQueue c rest

def dropEmptySchedule (c : SchedulingClass) : ManagerM ρ Unit :=
  modify fun s =>
    { s with
      tasksToSchedule :=
        if s.tasksToSchedule.queue c = [] then s.tasksToSchedule.erase c else s.tasksToSchedule }

/-- The queue replaces the infeasible one of the class; its first task is announced. -/
def moveToInfeasible (c : SchedulingClass) : ManagerM ρ Unit :=
  modify fun s =>
    { s with
      announced := s.announced ++ ((s.tasksToSchedule.queue c).take 1).map fun w => (s.works w).task
      overwritten := s.overwritten ++ s.infeasibleTasks.queue c
      infeasibleTasks := s.infeasibleTasks.insert c (s.tasksToSchedule.queue c)
      tasksToSchedule := s.tasksToSchedule.erase c }

def scheduleClass (c : SchedulingClass) : ManagerM ρ Unit := do
  let isInfeasible ← scheduleQueue cfg c ((← get).tasksToSchedule.queue c)
  if isInfeasible then do
    check .infeasibleQueueEmpty ((← get).tasksToSchedule.queue c ≠ [])
    moveToInfeasible c
  else dropEmptySchedule c

def schedulePendingTasks : ManagerM ρ Unit := do
  tryLocalInfeasibleTaskScheduling cfg
  let s ← get
  (cfg.order s.cluster s.tasksToSchedule.keys).forM (scheduleClass cfg)

/-- What becomes of the work at the iterator of a dispatch queue. -/
inductive DispatchStep where
  | next
  | erase
  | stop (isInfeasible : Bool)
  deriving DecidableEq, Repr

def dispatchElsewhere (w : WorkID) (task : RayTask) : ManagerM ρ DispatchStep := do
  releaseTaskArgs task.taskId
  let answer ← getBestSchedulableNode cfg w false false
  match answer with
  | .infeasible => do
    setStateWaiting w .waitingForResourcesAvailable
    pure (.stop true)
  | .noNode => do
    setStateWaiting w .waitingForResourcesAvailable
    pure (.stop false)
  | .node node =>
    if node = cfg.selfNodeId then do
      setStateWaiting w .waitingForResourcesAvailable
      pure (.stop false)
    else do
      spillback cfg node w
      removeDependencies task
      pure .erase

def popWorker (w : WorkID) (allocated : TaskResourceInstances) (r : ρ) : ManagerM ρ Unit := do
  modify fun s => { s with cluster := r }
  updateWork w fun work =>
    { work with allocatedInstances := some allocated, status := .waitingForWorker }
  modify fun s => { s with popRequests := s.popRequests ++ [w] }

def dispatchPinned (w : WorkID) (task : RayTask) : ManagerM ρ DispatchStep := do
  let s ← get
  if ownerFailed cfg s task then do
    removeDependencies task
    releaseTaskArgs task.taskId
    modify fun s => { s with ownerDead := s.ownerDead ++ [w] }
    pure .erase
  else match cfg.allocateLocalTaskResources s.cluster task with
    | none => dispatchElsewhere cfg w task
    | some (allocated, r) => do
      popWorker w allocated r
      pure .next

def dispatchWork (w : WorkID) : ManagerM ρ DispatchStep := do
  let s ← get
  let task := (s.works w).task
  if (s.works w).status = .waitingForWorker then pure .next
  else do
    let result ← taskArguments (TaskArguments.pinTaskArgsIfMemoryAvailable
      cfg.maxPinnedTaskArgumentsBytes (cfg.getTaskArguments s.cluster) task.taskId
      (task.dependencies.map ObjectReference.objectId))
    match result with
    | .argsMissing => do
      -- The waiting queue is spilled from its end.
      addWaiting task.taskId w true
      pure .erase
    | .overMemory => do
      let a := (← get).arguments
      check .noRunningTask (a.executingTaskArgs.keys ≠ [] ∧ a.pinnedTaskArguments.keys ≠ [])
      setStateWaiting w .waitingForAvailablePlasmaMemory
      pure .next
    | .pinned => dispatchPinned cfg w task

/-- The loop over a dispatch queue; `passed` is before the iterator. Returns whether the class is infeasible. -/
def dispatchQueue (c : SchedulingClass) (passed : List WorkID) : List WorkID → ManagerM ρ Bool
  | [] => pure false
  | w :: rest => do
    let step ← dispatchWork cfg w
    match step with
    | .next => dispatchQueue c (passed ++ [w]) rest
    | .erase => do
      modify fun s => { s with tasksToDispatch := s.tasksToDispatch.insert c (passed ++ rest) }
      dispatchQueue c passed rest
    | .stop isInfeasible => pure isInfeasible

/-- The queue replaces the infeasible one of the class. -/
def moveDispatchToInfeasible (c : SchedulingClass) : ManagerM ρ Unit :=
  modify fun s =>
    { s with
      dispatchMoves := s.dispatchMoves ++
        [{ tasks := (s.tasksToDispatch.queue c).map fun w => (s.works w).task
           taken := decide (s.infeasibleTasks.lookup c ≠ none ∨ s.tasksToSchedule.lookup c ≠ none)
           awaiting := (s.tasksToDispatch.queue c).any fun w => (s.works w).status = .waitingForWorker }]
      overwritten := s.overwritten ++ s.infeasibleTasks.queue c
      infeasibleTasks := s.infeasibleTasks.insert c (s.tasksToDispatch.queue c)
      tasksToDispatch := s.tasksToDispatch.erase c }

def dropEmptyDispatch (c : SchedulingClass) : ManagerM ρ Unit :=
  modify fun s =>
    { s with
      tasksToDispatch :=
        if s.tasksToDispatch.queue c = [] then s.tasksToDispatch.erase c else s.tasksToDispatch }

def dispatchClass (c : SchedulingClass) : ManagerM ρ Unit := do
  let isInfeasible ← dispatchQueue cfg c [] ((← get).tasksToDispatch.queue c)
  if isInfeasible then moveDispatchToInfeasible c else dropEmptyDispatch c

def dispatchScheduledTasksToWorkers : ManagerM ρ Unit := do
  let s ← get
  (cfg.order s.cluster s.tasksToDispatch.keys).forM (dispatchClass cfg)

def spillWaiting (node : NodeID) (w : WorkID) (task : RayTask) (rest : List WorkID) :
    ManagerM ρ Unit := do
  spillback cfg node w
  removeDependencies task
  modify fun s =>
    { s with
      waitingTasksIndex := s.waitingTasksIndex.erase task.taskId
      waitingTaskQueue := rest.reverse }

/-- The waiting queue from its end; the loop stops at a task that stays. -/
def spillFromEnd : List WorkID → ManagerM ρ Unit
  | [] => pure ()
  | w :: rest => do
    let task ← getTask w
    let active := cfg.pullRequestActive (← get).cluster
    let forceSpillback ← dependencyManager
      (DependencyManager.taskDependenciesBlocked active task.taskId)
    let answer ← getBestSchedulableNode cfg w true forceSpillback
    match answer with
    | .infeasible => pure ()
    | .noNode => pure ()
    | .node node =>
      if node = cfg.selfNodeId then pure ()
      else do
        spillWaiting cfg node w task rest
        spillFromEnd rest

def spillWaitingTasks : ManagerM ρ Unit := do
  spillFromEnd cfg (← get).waitingTaskQueue.reverse

def scheduleAndDispatchTasks : ManagerM ρ Unit := do
  schedulePendingTasks cfg
  dispatchScheduledTasksToWorkers cfg
  spillWaitingTasks cfg

def newWork (task : RayTask) (grantOrReject : Bool) : ManagerM ρ Unit :=
  modify fun s =>
    let c := task.schedulingClass
    let w := s.numWorks
    { s with
      works := Function.update s.works w { task, grantOrReject }
      numWorks := w + 1
      infeasibleTasks := if s.infeasibleTasks.lookup c ≠ none then s.infeasibleTasks.pushBack c w
        else s.infeasibleTasks
      tasksToSchedule := if s.infeasibleTasks.lookup c ≠ none then s.tasksToSchedule
        else s.tasksToSchedule.pushBack c w }

def queueAndScheduleTask (task : RayTask) (grantOrReject : Bool) : ManagerM ρ Unit := do
  newWork task grantOrReject
  scheduleAndDispatchTasks cfg

def eraseWaiting (taskId : TaskID) (w : WorkID) : ManagerM ρ Unit :=
  modify fun s =>
    { s with
      waitingTaskQueue := s.waitingTaskQueue.erase w
      waitingTasksIndex := s.waitingTasksIndex.erase taskId }

def taskUnblocked (taskId : TaskID) : ManagerM ρ Unit := do
  match (← get).waitingTasksIndex.lookup taskId with
  | none => pure ()
  | some w => do
    let task ← getTask w
    pushDispatch task.schedulingClass w
    eraseWaiting taskId w

def tasksUnblocked (readyIds : List TaskID) : ManagerM ρ Unit :=
  onlyIf (readyIds ≠ []) do
    readyIds.forM taskUnblocked
    scheduleAndDispatchTasks cfg

def findTask (s : State ρ) (t : WorkQueues) (taskId : TaskID) : Option (SchedulingClass × WorkID) :=
  (cfg.order s.cluster t.keys).findSome? fun c =>
    ((t.queue c).find? fun w => (s.works w).task.taskId = taskId).map fun w => (c, w)

def replyCancelled (w : WorkID) (runtimeEnvSetupFailed : Bool) : ManagerM ρ Unit :=
  reply w (.canceled runtimeEnvSetupFailed)

def cancelDispatch (taskId : TaskID) (c : SchedulingClass) (w : WorkID)
    (runtimeEnvSetupFailed : Bool) : ManagerM ρ Unit := do
  let work := (← get).works w
  replyCancelled w runtimeEnvSetupFailed
  onlyIf (work.status = .waitingForWorker) do
    releaseAllocated cfg work.allocatedInstances
    releaseTaskArgs taskId
  removeDependencies work.task
  updateWork w fun work => { work with status := .cancelled }
  modify fun s => { s with tasksToDispatch := s.tasksToDispatch.remove c w }

def cancelWaiting (taskId : TaskID) (runtimeEnvSetupFailed : Bool) : ManagerM ρ Bool := do
  match (← get).waitingTasksIndex.lookup taskId with
  | none => pure false
  | some w => do
    let task ← getTask w
    replyCancelled w runtimeEnvSetupFailed
    removeDependencies task
    eraseWaiting taskId w
    pure true

def cancelTask (taskId : TaskID) (runtimeEnvSetupFailed : Bool) : ManagerM ρ Bool := do
  let s ← get
  match findTask cfg s s.tasksToSchedule taskId with
  | some (c, w) => do
    replyCancelled w runtimeEnvSetupFailed
    modify fun s => { s with tasksToSchedule := s.tasksToSchedule.remove c w }
    pure true
  | none =>
    match findTask cfg s s.tasksToDispatch taskId with
    | some (c, w) => do
      cancelDispatch cfg taskId c w runtimeEnvSetupFailed
      pure true
    | none =>
      match findTask cfg s s.infeasibleTasks taskId with
      | some (c, w) => do
        replyCancelled w runtimeEnvSetupFailed
        modify fun s => { s with infeasibleTasks := s.infeasibleTasks.remove c w }
        pure true
      | none => cancelWaiting taskId runtimeEnvSetupFailed

def eraseFromDispatchQueue (c : SchedulingClass) (w : WorkID) : ManagerM ρ Unit := do
  let t := (← get).tasksToDispatch
  check .dispatchShapeMissing (t.lookup c ≠ none)
  modify fun s => { s with tasksToDispatch := s.tasksToDispatch.remove c w }
  check .dispatchWorkMissing (w ∈ t.queue c)

def dispatch (worker : WorkerID) (w : WorkID) : ManagerM ρ Unit := do
  let s ← get
  let work := s.works w
  check .workerAlreadyLeased (s.leasedWorkers.lookup worker = none)
  modify fun s =>
    { s with
      leasedWorkers := s.leasedWorkers.insert worker
        { taskId := work.task.taskId, allocatedInstances := work.allocatedInstances } }
  reply w (.granted worker)

def releaseWork (w : WorkID) (task : RayTask) : ManagerM ρ Unit := do
  releaseAllocated cfg ((← get).works w).allocatedInstances
  updateWork w fun work => { work with allocatedInstances := none }
  releaseTaskArgs task.taskId

def PopWorkerStatus.cause : PopWorkerStatus → Option UnscheduledWorkCause
  | .jobConfigMissing => some .workerNotFoundJobConfigNotExist
  | .tooManyStartingWorkerProcesses => some .workerNotFoundRateLimited
  | .workerPendingRegistration => some .workerNotFoundRegistrationTimeout
  | .ok => none
  | .runtimeEnvCreationFailed => none

/-- No worker was popped. Where the runtime environment could not be made, the dependencies are removed again after
`CancelTask`. -/
def emptyWorkerPopped (w : WorkID) (task : RayTask) (status : PopWorkerStatus) :
    ManagerM ρ Unit :=
  if status = .runtimeEnvCreationFailed then do
    let _ ← cancelTask cfg task.taskId true
    modify fun s => { s with runtimeEnvFailures := s.runtimeEnvFailures ++ [task] }
    removeDependencies task
  else match PopWorkerStatus.cause status with
    | some cause => setStateWaiting w cause
    | none => throw .unexpectedPopStatus

/-- Returns whether the worker is used. -/
def poppedWorkerHandler (w : WorkID) (worker : Option WorkerID) (status : PopWorkerStatus) :
    ManagerM ρ Bool := do
  let s ← get
  let task := (s.works w).task
  if (s.works w).status = .cancelled then pure false
  else match worker with
    | none => do
      releaseWork cfg w task
      emptyWorkerPopped cfg w task status
      pure false
    | some worker =>
      if ownerFailed cfg s task then do
        releaseWork cfg w task
        modify fun s => { s with ownerDead := s.ownerDead ++ [w] }
        eraseFromDispatchQueue task.schedulingClass w
        removeDependencies task
        pure false
      else do
        dispatch worker w
        eraseFromDispatchQueue task.schedulingClass w
        removeDependencies task
        pure true

def taskFinished (worker : WorkerID) : ManagerM ρ Unit := do
  match (← get).leasedWorkers.lookup worker with
  | none => pure ()
  | some lease => do
    releaseTaskArgs lease.taskId
    releaseAllocated cfg lease.allocatedInstances

end ClusterTaskManager

inductive ManagerOp (ρ : Type) where
  | queueAndScheduleTask (task : RayTask) (grantOrReject : Bool)
  | scheduleAndDispatchTasks
  | tasksUnblocked (readyIds : List TaskID)
  | cancelTask (taskId : TaskID)
  | poppedWorker (work : WorkID) (worker : Option WorkerID) (status : PopWorkerStatus)
  | taskFinished (worker : WorkerID)
  | workerReturned (worker : WorkerID)
  | clusterChanged (r : ρ)
  | dependencies (op : DependencyOp)

/-- A callback is run once for each request of a worker. -/
def ManagerOp.Enabled {ρ : Type} (s : State ρ) : ManagerOp ρ → Prop
  | .poppedWorker work _ _ => work ∈ s.popRequests
  | _ => True

instance {ρ : Type} (s : State ρ) (op : ManagerOp ρ) : Decidable (op.Enabled s) := by
  cases op <;> (unfold ManagerOp.Enabled; infer_instance)

def ManagerOp.run {ρ : Type} (cfg : Cluster ρ) : ManagerOp ρ → ManagerM ρ Unit
  | .queueAndScheduleTask task grantOrReject =>
    ClusterTaskManager.queueAndScheduleTask cfg task grantOrReject
  | .scheduleAndDispatchTasks => ClusterTaskManager.scheduleAndDispatchTasks cfg
  | .tasksUnblocked readyIds => ClusterTaskManager.tasksUnblocked cfg readyIds
  | .cancelTask taskId => do
    let _ ← ClusterTaskManager.cancelTask cfg taskId false
    pure ()
  | .poppedWorker work worker status => do
    modify fun s => { s with popRequests := s.popRequests.erase work }
    let _ ← ClusterTaskManager.poppedWorkerHandler cfg work worker status
    pure ()
  | .taskFinished worker => ClusterTaskManager.taskFinished cfg worker
  | .workerReturned worker =>
    modify fun s => { s with leasedWorkers := s.leasedWorkers.erase worker }
  | .clusterChanged r => modify fun s => { s with cluster := r }
  | .dependencies op => ClusterTaskManager.dependencyManager op.run

end AmazonRay.Raylet
