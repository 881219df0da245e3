import AmazonRay.TaskManager.Attempts

/-! `CoreWorkerDirectTaskSubmitter`: leases, pushed tasks, and the outcomes reported to `TaskManager`. -/
namespace AmazonRay.TaskSubmitter
open Program TaskManager

abbrev SchedulingKey := Nat

abbrev LeaseID := Nat

inductive Check where
  | taskManager (e : ReferenceCounter.Check)
  | activeWorkerUnknown
  | workerAlreadyActive
  | noActiveWorker
  | leaseClientMissing
  | tasksInFlight
  | workerStealing
  | victimUnknown
  | victimSchedulingKey
  | victimTasksInFlight
  | stealingDisabled
  | thiefUnknown
  | thiefNotStealing
  | stolenTaskUnknown
  | tooManyLeaseRequests
  | noTaskInFlight
  | totalTasksInFlightZero
  | rejectedNotSpillback
  | redirectedSpillback
  | taskAlreadyCancelled
  | rayletFailed
  deriving DecidableEq, Repr

/-- A default entry has no lease client. -/
structure LeaseEntry where
  leaseClient : Bool := false
  leaseExpirationTime : Int := 0
  tasksInFlight : Nat := 0
  currentlyStealing : Bool := false
  schedulingKey : SchedulingKey := 0
  deriving DecidableEq, Repr

structure SchedulingKeyEntry where
  pendingLeaseRequests : List LeaseID := []
  taskQueue : List TaskID := []
  activeWorkers : List WorkerAddress := []
  totalTasksInFlight : Nat := 0
  deriving DecidableEq, Repr

namespace SchedulingKeyEntry

def canDelete (e : SchedulingKeyEntry) : Bool :=
  e.pendingLeaseRequests.isEmpty && e.taskQueue.isEmpty && e.activeWorkers.isEmpty &&
    decide (e.totalTasksInFlight = 0)

def allPipelinesToWorkersFull (max : Nat) (e : SchedulingKeyEntry) : Bool :=
  decide (e.activeWorkers.length * max ≤ e.totalTasksInFlight)

def stealableTasks (e : SchedulingKeyEntry) : Bool :=
  decide (e.activeWorkers.length < e.totalTasksInFlight)

end SchedulingKeyEntry

structure LeaseRequest where
  id : LeaseID
  schedulingKey : SchedulingKey
  isSpillback : Bool
  deriving DecidableEq, Repr

structure Push where
  addr : WorkerAddress
  schedulingKey : SchedulingKey
  taskId : TaskID
  deriving DecidableEq, Repr

structure StealRequest where
  schedulingKey : SchedulingKey
  thief : WorkerAddress
  deriving DecidableEq, Repr

structure SubmitterConfig where
  worker : WorkerConfig
  maxTasksInFlightPerWorker : Nat
  maxPendingLeaseRequests : Nat
  leaseTimeoutMs : Int
  /-- The scheduling class, the dependencies and the runtime environment of a task. -/
  schedulingKey : TaskSpec → SchedulingKey
  retryExceptions : TaskSpec → Bool
  /-- The order in which the hash set of active workers is traversed. -/
  order : List WorkerAddress → List WorkerAddress
  order_perm : ∀ l, (order l).Perm l

structure Submitter where
  workerToLeaseEntry : AList fun _ : WorkerAddress => LeaseEntry := ∅
  schedulingKeyEntries : AList fun _ : SchedulingKey => SchedulingKeyEntry := ∅
  executingTasks : AList fun _ : TaskID => WorkerAddress := ∅
  cancelledTasks : List TaskID := []
  currentTimeMs : Int := 0
  nextLeaseId : LeaseID := 0
  leaseRequests : List LeaseRequest := []
  cancelLeaseRequests : List SchedulingKey := []
  pushes : List Push := []
  stealRequests : List StealRequest := []
  /-- The workers that were asked for tasks. -/
  victims : List WorkerAddress := []
  cancelRequests : List TaskID := []
  cancelRetries : List TaskID := []
  creations : List TaskID := []
  returned : List (WorkerAddress × Bool) := []
  /-- The outcomes reported to `TaskManager`, and whether the task was pending then. -/
  outcomes : List (TaskID × Bool) := []

structure System where
  worker : Worker
  submitter : Submitter

abbrev SubmitM := EStateM Check System

namespace Submitter

def lease (s : Submitter) (addr : WorkerAddress) : LeaseEntry :=
  (s.workerToLeaseEntry.lookup addr).getD {}

def entry (s : Submitter) (key : SchedulingKey) : SchedulingKeyEntry :=
  (s.schedulingKeyEntries.lookup key).getD {}

def setLease (s : Submitter) (addr : WorkerAddress) (e : LeaseEntry) : Submitter :=
  { s with workerToLeaseEntry := s.workerToLeaseEntry.insert addr e }

def setEntry (s : Submitter) (key : SchedulingKey) (e : SchedulingKeyEntry) : Submitter :=
  { s with schedulingKeyEntries := s.schedulingKeyEntries.insert key e }

end Submitter

def taskManager {α : Type} (x : WorkerM α) : SubmitM α :=
  within System.worker (fun w s => { s with worker := w }) Check.taskManager x

def modifySubmitter (f : Submitter → Submitter) : SubmitM Unit :=
  modify fun s => { s with submitter := f s.submitter }

/-- `operator[]` makes an entry when there is none. -/
def findLease (addr : WorkerAddress) : SubmitM LeaseEntry := do
  modifySubmitter fun s => s.setLease addr (s.lease addr)
  pure ((← get).submitter.lease addr)

def findEntry (key : SchedulingKey) : SubmitM SchedulingKeyEntry := do
  modifySubmitter fun s => s.setEntry key (s.entry key)
  pure ((← get).submitter.entry key)

def updateLease (addr : WorkerAddress) (f : LeaseEntry → LeaseEntry) : SubmitM Unit :=
  modifySubmitter fun s => s.setLease addr (f (s.lease addr))

def updateEntry (key : SchedulingKey) (f : SchedulingKeyEntry → SchedulingKeyEntry) : SubmitM Unit :=
  modifySubmitter fun s => s.setEntry key (f (s.entry key))

def dropEntryIfDone (key : SchedulingKey) : SubmitM Unit :=
  modifySubmitter fun s =>
    if (s.entry key).canDelete then
      { s with schedulingKeyEntries := s.schedulingKeyEntries.erase key } else s

variable (cfg : SubmitterConfig)

def recordOutcome (id : TaskID) : SubmitM Unit :=
  modify fun s => { s with submitter := { s.submitter with
    outcomes := s.submitter.outcomes ++ [(id, s.worker.lineage.isTaskPending id)] } }

def failPendingTask (id : TaskID) : SubmitM Unit := do
  recordOutcome id
  let _ ← taskManager (pendingTaskFailed cfg.worker id true)
  pure ()

def finishPendingTask (id : TaskID) (reply : PushTaskReply) (addr : WorkerAddress) (nodeAlive : Bool) :
    SubmitM Unit := do
  recordOutcome id
  taskManager (completePendingTask cfg.worker id reply addr nodeAlive)

/-- One request to cancel for each lease that is asked for, unless it may be of use. -/
def cancelWorkerLeaseIfNeeded (key : SchedulingKey) : SubmitM Unit := do
  let entry ← findEntry key
  onlyIf (entry.taskQueue = [] ∧ entry.stealableTasks = false)
    (modifySubmitter fun s =>
      { s with cancelLeaseRequests := s.cancelLeaseRequests ++ entry.pendingLeaseRequests.map fun _ => key })

/-- The request has the id of a task that was made up for it. -/
def requestWorkerLease (key : SchedulingKey) (isSpillback : Bool) : SubmitM Unit :=
  modifySubmitter fun s =>
    { s.setEntry key { s.entry key with
        pendingLeaseRequests := (s.entry key).pendingLeaseRequests ++ [s.nextLeaseId] } with
      nextLeaseId := s.nextLeaseId + 1
      leaseRequests := s.leaseRequests ++ [{ id := s.nextLeaseId, schedulingKey := key, isSpillback }] }

def requestNewWorkerIfNeeded (key : SchedulingKey) (isSpillback : Bool) : SubmitM Unit := do
  let entry ← findEntry key
  if entry.pendingLeaseRequests.length = cfg.maxPendingLeaseRequests then pure ()
  else do
    check .tooManyLeaseRequests (entry.pendingLeaseRequests.length < cfg.maxPendingLeaseRequests)
    if entry.allPipelinesToWorkersFull cfg.maxTasksInFlightPerWorker = false ∧
        cfg.maxTasksInFlightPerWorker = 1 then pure ()
    else if entry.taskQueue = [] then
      if entry.stealableTasks then requestWorkerLease key isSpillback else dropEntryIfDone key
    else if entry.taskQueue.length ≤ entry.pendingLeaseRequests.length then pure ()
    else requestWorkerLease key isSpillback

def addWorkerLeaseClient (addr : WorkerAddress) (key : SchedulingKey) : SubmitM Unit := do
  modifySubmitter fun s =>
    match s.workerToLeaseEntry.lookup addr with
    | some _ => s
    | none => s.setLease addr
      { leaseClient := true, leaseExpirationTime := s.currentTimeMs + cfg.leaseTimeoutMs,
        schedulingKey := key }
  let entry ← findEntry key
  check .workerAlreadyActive (addr ∉ entry.activeWorkers)
  updateEntry key fun e => { e with activeWorkers := addr :: e.activeWorkers }
  check .noActiveWorker (((← get).submitter.entry key).activeWorkers ≠ [])

def returnWorker (addr : WorkerAddress) (wasError : Bool) (key : SchedulingKey) : SubmitM Unit := do
  let entry ← findEntry key
  check .noActiveWorker (entry.activeWorkers ≠ [])
  let lease ← findLease addr
  check .leaseClientMissing (lease.leaseClient = true)
  check .tasksInFlight (lease.tasksInFlight = 0)
  check .workerStealing (lease.currentlyStealing = false)
  updateEntry key fun e => { e with activeWorkers := e.activeWorkers.erase addr }
  dropEntryIfDone key
  modifySubmitter fun s =>
    { s with
      returned := s.returned ++ [(addr, wasError)]
      workerToLeaseEntry := s.workerToLeaseEntry.erase addr }

def betterVictim (thief victim candidate : WorkerAddress) : SubmitM WorkerAddress := do
  let candidateEntry ← findLease candidate
  check .victimUnknown ((← get).submitter.workerToLeaseEntry.lookup victim ≠ none)
  let victimEntry ← findLease victim
  pure (if victim.workerId = thief.workerId ∨
      (victimEntry.tasksInFlight < candidateEntry.tasksInFlight ∧ candidate.workerId ≠ thief.workerId)
    then candidate else victim)

def checkVictim (key : SchedulingKey) (total : Nat) (thief victim : WorkerAddress) :
    SubmitM (Option WorkerAddress) :=
  if victim.workerId = thief.workerId then pure none
  else do
    let victimEntry ← findLease victim
    check .victimSchedulingKey (victimEntry.schedulingKey = key)
    check .victimTasksInFlight (victimEntry.tasksInFlight ≤ total)
    pure (if victimEntry.tasksInFlight / 2 < 1 then none else some victim)

def findOptimalVictimForStealing (key : SchedulingKey) (thief : WorkerAddress) :
    SubmitM (Option WorkerAddress) := do
  let entry ← findEntry key
  if entry.activeWorkers.length ≤ 1 ∨ entry.stealableTasks = false then pure none
  else match cfg.order entry.activeWorkers with
    | [] => pure none
    | first :: others => do
      let victim ← (first :: others).foldlM (betterVictim thief) first
      checkVictim key entry.totalTasksInFlight thief victim

def setWorkerIsStealing (addr : WorkerAddress) : SubmitM Unit := do
  check .workerStealing (((← get).submitter.lease addr).currentlyStealing = false)
  updateLease addr fun e => { e with currentlyStealing := true }

def setWorkerDoneStealing (addr : WorkerAddress) : SubmitM Unit := do
  check .thiefNotStealing (((← get).submitter.lease addr).currentlyStealing = true)
  updateLease addr fun e => { e with currentlyStealing := false }

def stealTasks (key : SchedulingKey) (thief victim : WorkerAddress) : SubmitM Unit := do
  check .stealingDisabled (1 < cfg.maxTasksInFlightPerWorker)
  check .victimUnknown ((← get).submitter.workerToLeaseEntry.lookup victim ≠ none)
  setWorkerIsStealing thief
  modifySubmitter fun s =>
    { s with
      stealRequests := s.stealRequests ++ [{ schedulingKey := key, thief }]
      victims := s.victims ++ [victim] }

def stealTasksOrReturnWorker (thief : WorkerAddress) (wasError : Bool) (key : SchedulingKey) :
    SubmitM Unit := do
  let entry ← findLease thief
  check .leaseClientMissing (entry.leaseClient = true)
  check .tasksInFlight (entry.tasksInFlight = 0)
  check .workerStealing (entry.currentlyStealing = false)
  if wasError ∨ entry.leaseExpirationTime < (← get).submitter.currentTimeMs then
    returnWorker thief wasError key
  else do
    let victim ← findOptimalVictimForStealing cfg key thief
    match victim with
    | none => do
      onlyIf (1 < cfg.maxTasksInFlightPerWorker) (cancelWorkerLeaseIfNeeded key)
      returnWorker thief wasError key
    | some victim => stealTasks cfg key thief victim

def pushNormalTask (addr : WorkerAddress) (key : SchedulingKey) (id : TaskID) : SubmitM Unit := do
  updateLease addr fun e => { e with tasksInFlight := e.tasksInFlight + 1 }
  check .noActiveWorker (((← get).submitter.entry key).activeWorkers ≠ [])
  updateEntry key fun e => { e with totalTasksInFlight := e.totalTasksInFlight + 1 }
  modifySubmitter fun s =>
    { s with
      executingTasks := match s.executingTasks.lookup id with
        | some _ => s.executingTasks
        | none => s.executingTasks.insert id addr
      pushes := s.pushes ++ [{ addr, schedulingKey := key, taskId := id }] }

def pushTasks (addr : WorkerAddress) (key : SchedulingKey) : List TaskID → SubmitM Unit
  | [] => pure ()
  | id :: rest => do
    let s ← get
    onlyIf ((s.submitter.lease addr).tasksInFlight ≠ cfg.maxTasksInFlightPerWorker) do
      pushNormalTask addr key id
      updateEntry key fun e => { e with taskQueue := rest }
      pushTasks addr key rest

def onWorkerIdle (addr : WorkerAddress) (key : SchedulingKey) (wasError : Bool) : SubmitM Unit := do
  let lease ← findLease addr
  onlyIf (lease.leaseClient = true) do
    let entry ← findEntry key
    (if wasError ∨ lease.leaseExpirationTime < (← get).submitter.currentTimeMs ∨
        (entry.taskQueue = [] ∧ lease.currentlyStealing = false) then do
      check .noActiveWorker (entry.activeWorkers ≠ [])
      onlyIf (lease.tasksInFlight = 0) (stealTasksOrReturnWorker cfg addr wasError key)
    else do
      pushTasks cfg addr key entry.taskQueue
      onlyIf (cfg.maxTasksInFlightPerWorker = 1) (cancelWorkerLeaseIfNeeded key))
    requestNewWorkerIfNeeded cfg key false

/-- The first active worker whose pipeline is not full gets the new task. -/
def pushToActiveWorker (key : SchedulingKey) : List WorkerAddress → SubmitM Unit
  | [] => pure ()
  | addr :: rest => do
    check .activeWorkerUnknown ((← get).submitter.workerToLeaseEntry.lookup addr ≠ none)
    let lease ← findLease addr
    if lease.tasksInFlight ≠ cfg.maxTasksInFlightPerWorker then onWorkerIdle cfg addr key false
    else pushToActiveWorker key rest

def queueTask (id : TaskID) : SubmitM Unit := do
  let key := cfg.schedulingKey ((← get).worker.lineage.messages id)
  updateEntry key fun e => { e with taskQueue := e.taskQueue ++ [id] }
  let entry := (← get).submitter.entry key
  onlyIf (entry.allPipelinesToWorkersFull cfg.maxTasksInFlightPerWorker = false)
    (pushToActiveWorker cfg key (cfg.order entry.activeWorkers))
  requestNewWorkerIfNeeded cfg key false

/-- The callback of the resolver. A task that was cancelled meanwhile fails. -/
def dependenciesResolved (id : TaskID) (ok : Bool) : SubmitM Unit := do
  if ok = false then failPendingTask cfg id
  else if ((← get).worker.lineage.messages id).type = .actorCreationTask then
    modifySubmitter fun s => { s with creations := s.creations ++ [id] }
  else if id ∈ (← get).submitter.cancelledTasks then do
    modifySubmitter fun s => { s with cancelledTasks := s.cancelledTasks.filter (· ≠ id) }
    failPendingTask cfg id
  else queueTask cfg id

inductive LeaseReply where
  | failed (rayletFailed : Bool)
  | runtimeEnvSetupFailed
  | canceled
  | rejected
  | granted (addr : WorkerAddress)
  | redirected
  deriving DecidableEq, Repr

def failQueue (key : SchedulingKey) : List TaskID → SubmitM Unit
  | [] => pure ()
  | id :: rest => do
    let spec := (← get).worker.lineage.messages id
    taskManager (markPendingTaskFailed spec)
    updateEntry key fun e => { e with taskQueue := rest }
    failQueue key rest

def handleLeaseReply (r : LeaseRequest) (reply : LeaseReply) : SubmitM Unit := do
  let key := r.schedulingKey
  modifySubmitter fun s => { s with leaseRequests := s.leaseRequests.erase r }
  updateEntry key fun e => { e with pendingLeaseRequests := e.pendingLeaseRequests.erase r.id }
  match reply with
  | .runtimeEnvSetupFailed => do
    failQueue key ((← get).submitter.entry key).taskQueue
    dropEntryIfDone key
  | .canceled => requestNewWorkerIfNeeded cfg key false
  | .rejected => do
    check .rejectedNotSpillback (r.isSpillback = true)
    requestNewWorkerIfNeeded cfg key false
  | .granted addr => do
    addWorkerLeaseClient cfg addr key
    check .noActiveWorker (((← get).submitter.entry key).activeWorkers ≠ [])
    onWorkerIdle cfg addr key false
  | .redirected => do
    check .redirectedSpillback (r.isSpillback = false)
    requestNewWorkerIfNeeded cfg key true
  | .failed rayletFailed => do
    check .rayletFailed (rayletFailed = false)
    requestNewWorkerIfNeeded cfg key false

structure PushOutcome where
  ok : Bool := true
  workerExiting : Bool := false
  taskStolen : Bool := false
  isApplicationLevelError : Bool := false
  reply : PushTaskReply := {}
  nodeAlive : Bool := true
  deriving DecidableEq, Repr

def countReply (p : Push) : SubmitM Unit := do
  modifySubmitter fun s =>
    { s with pushes := s.pushes.erase p, executingTasks := s.executingTasks.erase p.taskId }
  let lease ← findLease p.addr
  check .noTaskInFlight (0 < lease.tasksInFlight)
  updateLease p.addr fun e => { e with tasksInFlight := e.tasksInFlight - 1 }
  let entry ← findEntry p.schedulingKey
  check .noActiveWorker (entry.activeWorkers ≠ [])
  check .totalTasksInFlightZero (1 ≤ entry.totalTasksInFlight)
  updateEntry p.schedulingKey fun e => { e with totalTasksInFlight := e.totalTasksInFlight - 1 }

/-- A worker that exits is not returned to the raylet. -/
def forgetWorker (addr : WorkerAddress) (key : SchedulingKey) : SubmitM Unit := do
  modifySubmitter fun s => { s with workerToLeaseEntry := s.workerToLeaseEntry.erase addr }
  updateEntry key fun e => { e with activeWorkers := e.activeWorkers.erase addr }
  dropEntryIfDone key

def handleOutcome (p : Push) (o : PushOutcome) : SubmitM Unit :=
  if o.ok = false then failPendingTask cfg p.taskId
  else do
    let spec := (← get).worker.lineage.messages p.taskId
    if cfg.retryExceptions spec ∧ o.isApplicationLevelError then do
      let retried ← taskManager (retryTaskIfPossible p.taskId)
      onlyIf (retried = false) (finishPendingTask cfg p.taskId o.reply p.addr o.nodeAlive)
    else finishPendingTask cfg p.taskId o.reply p.addr o.nodeAlive

def handlePushReply (p : Push) (o : PushOutcome) : SubmitM Unit := do
  countReply p
  if o.workerExiting then do
    forgetWorker p.addr p.schedulingKey
    handleOutcome cfg p o
  else onlyIf (o.taskStolen = false) do
    onWorkerIdle cfg p.addr p.schedulingKey (!o.ok)
    handleOutcome cfg p o

def requeueStolen (key : SchedulingKey) (id : TaskID) : SubmitM Unit := do
  check .stolenTaskUnknown ((← get).worker.lineage.submissibleTasks.lookup id ≠ none)
  modifySubmitter fun s => { s with executingTasks := s.executingTasks.erase id }
  updateEntry key fun e => { e with taskQueue := id :: e.taskQueue }

def handleStealReply (r : StealRequest) (ok : Bool) (stolen : List TaskID) : SubmitM Unit := do
  modifySubmitter fun s => { s with stealRequests := s.stealRequests.erase r }
  check .thiefUnknown ((← get).submitter.workerToLeaseEntry.lookup r.thief ≠ none)
  setWorkerDoneStealing r.thief
  stolen.forM (requeueStolen r.schedulingKey)
  onWorkerIdle cfg r.thief r.schedulingKey (!ok)

/-- A task without a worker to cancel it at: its dependencies are not resolved. -/
def cancelExecuting (id : TaskID) (key : SchedulingKey) (hasClient : Bool) : SubmitM Unit := do
  check .taskAlreadyCancelled (id ∉ (← get).submitter.cancelledTasks)
  modifySubmitter fun s => { s with cancelledTasks := id :: s.cancelledTasks }
  match (← get).submitter.executingTasks.lookup id with
  | none => dropEntryIfDone key
  | some _ =>
    if hasClient then modifySubmitter fun s => { s with cancelRequests := s.cancelRequests ++ [id] }
    else pure ()

def cancelKnownTask (id : TaskID) (hasClient : Bool) : SubmitM Unit := do
  let key := cfg.schedulingKey ((← get).worker.lineage.messages id)
  let entry ← findEntry key
  if id ∈ entry.taskQueue then do
    updateEntry key fun e => { e with taskQueue := e.taskQueue.erase id }
    onlyIf (entry.taskQueue.erase id = []) (cancelWorkerLeaseIfNeeded key)
    failPendingTask cfg id
  else cancelExecuting id key hasClient

def cancelTask (id : TaskID) (hasClient : Bool) : SubmitM Unit := do
  if id ∈ (← get).submitter.cancelledTasks then pure ()
  else do
    let known ← taskManager (markTaskCanceled id)
    onlyIf (known = true) (cancelKnownTask cfg id hasClient)

/-- The cancellation is tried again when the worker could not do it and there is a
timer. -/
def handleCancelReply (id : TaskID) (ok attemptSucceeded hasTimer : Bool) : SubmitM Unit :=
  modifySubmitter fun s =>
    { s with
      cancelRequests := s.cancelRequests.erase id
      cancelledTasks := s.cancelledTasks.filter (· ≠ id)
      cancelRetries := if ok && !attemptSucceeded && hasTimer then s.cancelRetries ++ [id]
        else s.cancelRetries }

def handleActorCreated (id : TaskID) (ok : Bool) (reply : PushTaskReply) (addr : WorkerAddress)
    (nodeAlive : Bool) : SubmitM Unit := do
  modifySubmitter fun s => { s with creations := s.creations.erase id }
  if ok then finishPendingTask cfg id reply addr nodeAlive else failPendingTask cfg id

def handleCancelLeaseReply (key : SchedulingKey) (ok success : Bool) : SubmitM Unit := do
  modifySubmitter fun s => { s with cancelLeaseRequests := s.cancelLeaseRequests.erase key }
  onlyIf (ok = true ∧ success = false) (cancelWorkerLeaseIfNeeded key)

def runWorker (op : WorkerOp) : SubmitM Unit := do
  let before := (← get).worker.lineage.outputs.length
  taskManager (op.run cfg.worker)
  let outputs := (← get).worker.lineage.outputs.drop before
  (resolutions outputs).forM fun r => dependenciesResolved cfg r.1 r.2

inductive SubmitterOp where
  | worker (op : WorkerOp)
  | leaseReply (r : LeaseRequest) (reply : LeaseReply)
  | cancelLeaseReply (key : SchedulingKey) (ok success : Bool)
  | pushReply (p : Push) (o : PushOutcome)
  | stealReply (r : StealRequest) (ok : Bool) (stolen : List TaskID)
  | cancelTask (id : TaskID) (hasClient : Bool)
  | cancelReply (id : TaskID) (ok attemptSucceeded hasTimer : Bool)
  | cancelRetry (id : TaskID) (hasClient : Bool)
  | actorCreated (id : TaskID) (ok : Bool) (reply : PushTaskReply) (addr : WorkerAddress)
      (nodeAlive : Bool)
  | timePasses (ms : Nat)

def SubmitterOp.run (cfg : SubmitterConfig) : SubmitterOp → SubmitM Unit
  | .worker op => runWorker cfg op
  | .leaseReply r reply => handleLeaseReply cfg r reply
  | .cancelLeaseReply key ok success => handleCancelLeaseReply key ok success
  | .pushReply p o => handlePushReply cfg p o
  | .stealReply r ok stolen => handleStealReply cfg r ok stolen
  | .cancelTask id hasClient => TaskSubmitter.cancelTask cfg id hasClient
  | .cancelReply id ok attemptSucceeded hasTimer => handleCancelReply id ok attemptSucceeded hasTimer
  | .cancelRetry id hasClient => do
    modifySubmitter fun s => { s with cancelRetries := s.cancelRetries.erase id }
    TaskSubmitter.cancelTask cfg id hasClient
  | .actorCreated id ok reply addr nodeAlive => handleActorCreated cfg id ok reply addr nodeAlive
  | .timePasses ms => modifySubmitter fun s => { s with currentTimeMs := s.currentTimeMs + ms }

/-- Actor tasks have a submitter of their own. -/
def ofNormalTasks : WorkerOp → Bool
  | .addPendingTask _ spec _ => !spec.isActorTask
  | _ => true

/-- A reply answers a request. A leased worker is not granted again, only a request to another raylet is rejected and
only one to the first redirected, and tasks are stolen from a worker that was asked. -/
def SubmitterOp.Enabled (s : System) : SubmitterOp → Prop
  | .worker op => op.Enabled s.worker.lineage ∧ op.ofSubmitter = false ∧ ofNormalTasks op = true
  | .leaseReply r reply => r ∈ s.submitter.leaseRequests ∧
    match reply with
    | .rejected => r.isSpillback = true
    | .redirected => r.isSpillback = false
    | .granted addr => (s.submitter.lease addr).leaseClient = false
    | _ => True
  | .cancelLeaseReply key _ _ => key ∈ s.submitter.cancelLeaseRequests
  | .pushReply p o => p ∈ s.submitter.pushes ∧
    (o.taskStolen = true → o.ok = true ∧ p.addr ∈ s.submitter.victims) ∧
    (o.workerExiting = true → o.ok = true ∧ o.taskStolen = false)
  | .stealReply r ok stolen => r ∈ s.submitter.stealRequests ∧ (ok = false → stolen = [])
  | .cancelReply id _ _ _ => id ∈ s.submitter.cancelRequests
  | .cancelRetry id _ => id ∈ s.submitter.cancelRetries
  | .actorCreated id _ _ _ _ => id ∈ s.submitter.creations
  | .cancelTask _ _ | .timePasses _ => True

instance (s : System) (op : SubmitterOp) : Decidable (op.Enabled s) :=
  match op with
  | .worker op => inferInstanceAs (Decidable (op.Enabled s.worker.lineage ∧
      op.ofSubmitter = false ∧ ofNormalTasks op = true))
  | .leaseReply r reply =>
    match reply with
    | .rejected => inferInstanceAs (Decidable (r ∈ s.submitter.leaseRequests ∧ r.isSpillback = true))
    | .redirected => inferInstanceAs (Decidable (r ∈ s.submitter.leaseRequests ∧ r.isSpillback = false))
    | .granted addr => inferInstanceAs (Decidable (r ∈ s.submitter.leaseRequests ∧
        (s.submitter.lease addr).leaseClient = false))
    | .failed _ | .runtimeEnvSetupFailed | .canceled =>
      inferInstanceAs (Decidable (r ∈ s.submitter.leaseRequests ∧ True))
  | .cancelLeaseReply key _ _ => inferInstanceAs (Decidable (key ∈ s.submitter.cancelLeaseRequests))
  | .pushReply p o => inferInstanceAs (Decidable (p ∈ s.submitter.pushes ∧
      (o.taskStolen = true → o.ok = true ∧ p.addr ∈ s.submitter.victims) ∧
      (o.workerExiting = true → o.ok = true ∧ o.taskStolen = false)))
  | .stealReply r ok stolen =>
    inferInstanceAs (Decidable (r ∈ s.submitter.stealRequests ∧ (ok = false → stolen = [])))
  | .cancelReply id _ _ _ => inferInstanceAs (Decidable (id ∈ s.submitter.cancelRequests))
  | .cancelRetry id _ => inferInstanceAs (Decidable (id ∈ s.submitter.cancelRetries))
  | .actorCreated id _ _ _ _ => inferInstanceAs (Decidable (id ∈ s.submitter.creations))
  | .cancelTask _ _ | .timePasses _ => .isTrue trivial

end AmazonRay.TaskSubmitter
