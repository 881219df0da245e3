import AmazonRay.ActorSubmitter.Queues
import AmazonRay.TaskManager.Submissions

/-! `CoreWorkerDirectActorTaskSubmitter`: the tasks sent to each actor, over the connections made as it restarts. -/
namespace AmazonRay.ActorSubmitter
open Program TaskManager

inductive Check where
  | taskManager (e : ReferenceCounter.Check)
  | unknownActor
  | alreadyQueued
  | notQueued
  | noWorkerId
  | actorCounter
  | numRestarts
  deriving DecidableEq, Repr

inductive ActorState where
  | dependenciesUnready
  | pendingCreation
  | alive
  | restarting
  | dead
  deriving DecidableEq, Repr

structure Address where
  worker : WorkerAddress
  ipAddress : Nat
  port : Nat
  deriving DecidableEq, Repr

structure KillActorRequest where
  forceKill : Bool
  noRestart : Bool
  deriving DecidableEq, Repr

/-- The callback of a push: whether the task is to be skipped, and where it went. -/
structure Callback where
  taskSkipped : Bool
  addr : Address
  deriving DecidableEq, Repr

/-- The state kept for an actor. `sent` are the numbers pushed to the present client, `numSubmitted` the tasks submitted
without retries. -/
structure ClientQueue where
  state : ActorState := .dependenciesUnready
  numRestarts : Int := -1
  rpcClient : Option Address := none
  workerId : Option WorkerID := none
  actorSubmitQueue : SequentialActorSubmitQueue := {}
  waitForDeathInfoTasks : List (Int × TaskID) := []
  pendingForceKill : Option KillActorRequest := none
  inflightTaskCallbacks : AList fun _ : TaskID => Callback := ∅
  sent : List Nat := []
  numSubmitted : Nat := 0

structure Push where
  actorId : ActorID
  taskId : TaskID
  sequenceNumber : Nat
  skipQueue : Bool
  deriving DecidableEq, Repr

/-- The fields of an actor task that its handle sets. No two tasks of an actor have the same counter. -/
structure ActorConfig where
  worker : WorkerConfig
  actorId : TaskID → ActorID
  actorCounter : TaskID → Nat
  counter_inj : ∀ x y, actorId x = actorId y → actorCounter x = actorCounter y → x = y
  timeoutMsTaskWaitForDeathInfo : Int
  /-- The order in which the hash map of callbacks is traversed. -/
  order : List (TaskID × Callback) → List (TaskID × Callback)
  order_perm : ∀ l, (order l).Perm l

/-- `results` has a task once for every `CompletePendingTask`, and for every time its returns are marked as failed. -/
structure Submitter where
  clientQueues : AList fun _ : ActorID => ClientQueue := ∅
  currentTimeMs : Int := 0
  pushes : List Push := []
  killRequests : List (Address × KillActorRequest) := []
  results : List TaskID := []

structure System where
  worker : Worker
  submitter : Submitter

abbrev SubmitM := EStateM Check System

def taskManager {α : Type} (x : WorkerM α) : SubmitM α :=
  within System.worker (fun w s => { s with worker := w }) Check.taskManager x

def modifySubmitter (f : Submitter → Submitter) : SubmitM Unit :=
  modify fun s => { s with submitter := f s.submitter }

def findQueue (actor : ActorID) : SubmitM ClientQueue := do
  match (← get).submitter.clientQueues.lookup actor with
  | some q => pure q
  | none => throw .unknownActor

def putQueue (actor : ActorID) (q : ClientQueue) : SubmitM Unit :=
  modifySubmitter fun s => { s with clientQueues := s.clientQueues.insert actor q }

variable (cfg : ActorConfig)

def recordResult (id : TaskID) : SubmitM Unit :=
  modifySubmitter fun s => { s with results := s.results ++ [id] }

def failPendingTask (id : TaskID) (immediatelyMarkObjectFail : Bool) : SubmitM Bool := do
  let willRetry ← taskManager (pendingTaskFailed cfg.worker id immediatelyMarkObjectFail)
  onlyIf (willRetry = false ∧ immediatelyMarkObjectFail = true) (recordResult id)
  pure willRetry

def markFailed (id : TaskID) : SubmitM Unit := do
  let spec := (← get).worker.lineage.messages id
  taskManager (markPendingTaskFailed spec)
  recordResult id

def finishPendingTask (id : TaskID) (reply : PushTaskReply) (addr : Address) (nodeAlive : Bool) :
    SubmitM Unit := do
  taskManager (completePendingTask cfg.worker id reply addr.worker nodeAlive)
  recordResult id

/-- A callback that is registered for the task stays. -/
def ClientQueue.push (q : ClientQueue) (id : TaskID) (callback : Callback) (sequenceNumber : Nat) :
    ClientQueue :=
  { q with
    inflightTaskCallbacks := match q.inflightTaskCallbacks.lookup id with
      | some _ => q.inflightTaskCallbacks
      | none => q.inflightTaskCallbacks.insert id callback
    sent := q.sent ++ [sequenceNumber] }

def pushActorTask (actor : ActorID) (addr : Address) (id : TaskID) (skipExecution skipQueue : Bool) :
    SubmitM Unit := do
  let q ← findQueue actor
  check .actorCounter (q.actorSubmitQueue.callerStartsAt ≤ cfg.actorCounter id)
  let sequenceNumber := cfg.actorCounter id - q.actorSubmitQueue.callerStartsAt
  putQueue actor (q.push id { taskSkipped := skipExecution, addr } sequenceNumber)
  modifySubmitter fun s =>
    { s with pushes := s.pushes ++ [{ actorId := actor, taskId := id, sequenceNumber, skipQueue }] }

/-- The loop over the tasks that can be sent; it ends at the latest with the queue. -/
def sendTasks (actor : ActorID) (addr : Address) : Nat → SubmitM Unit
  | 0 => pure ()
  | n + 1 => do
    let q ← findQueue actor
    match q.actorSubmitQueue.popNextTaskToSend with
    | none => pure ()
    | some ((id, skipQueue), rest) => do
      putQueue actor { q with actorSubmitQueue := rest }
      check .noWorkerId (q.workerId ≠ none)
      pushActorTask cfg actor addr id false skipQueue
      sendTasks actor addr n

def sendPendingTasks (actor : ActorID) : SubmitM Unit := do
  let q ← findQueue actor
  match q.rpcClient with
  | none => pure ()
  | some addr => do
    putQueue actor { q with pendingForceKill := none }
    modifySubmitter fun s =>
      { s with killRequests := s.killRequests ++ (q.pendingForceKill.map fun r => (addr, r)).toList }
    sendTasks cfg actor addr q.actorSubmitQueue.requests.length

def resendOutOfOrderTasks (actor : ActorID) : SubmitM Unit := do
  let q ← findQueue actor
  match q.rpcClient with
  | none => pure ()
  | some addr => do
    check .noWorkerId (q.workerId ≠ none)
    let (tasks, rest) := q.actorSubmitQueue.popAllOutOfOrderCompletedTasks
    putQueue actor { q with actorSubmitQueue := rest }
    tasks.forM fun p => pushActorTask cfg actor addr p.2 true true

def markTaskCompleted (actor : ActorID) (id : TaskID) : SubmitM Unit := do
  let q ← findQueue actor
  putQueue actor { q with
    actorSubmitQueue := q.actorSubmitQueue.markTaskCompleted (cfg.actorCounter id) id }

def waitForDeathInfo (actor : ActorID) (id : TaskID) : SubmitM Unit := do
  let q ← findQueue actor
  let timeout := (← get).submitter.currentTimeMs + cfg.timeoutMsTaskWaitForDeathInfo
  putQueue actor { q with waitForDeathInfoTasks := q.waitForDeathInfoTasks ++ [(timeout, id)] }

def networkError (actor : ActorID) (id : TaskID) : SubmitM Unit := do
  let q ← findQueue actor
  let immediatelyMarkObjectFail := decide (q.state = .dead)
  let willRetry ← failPendingTask cfg id immediatelyMarkObjectFail
  onlyIf (willRetry = false) do
    onlyIf (immediatelyMarkObjectFail = false) (waitForDeathInfo cfg actor id)
    markTaskCompleted cfg actor id

abbrev PushAnswer := Option (PushTaskReply × Bool)

def replyCallback (actor : ActorID) (id : TaskID) (callback : Callback) (answer : PushAnswer) :
    SubmitM Unit :=
  if callback.taskSkipped then markTaskCompleted cfg actor id
  else match answer with
    | some (reply, nodeAlive) => do
      finishPendingTask cfg id reply callback.addr nodeAlive
      markTaskCompleted cfg actor id
    | none => networkError cfg actor id

/-- The callback of the RPC. A task that is not in flight has been failed before. -/
def handlePushReply (p : Push) (answer : PushAnswer) : SubmitM Unit := do
  modifySubmitter fun s => { s with pushes := s.pushes.erase p }
  let q ← findQueue p.actorId
  match q.inflightTaskCallbacks.lookup p.taskId with
  | none => pure ()
  | some callback => do
    putQueue p.actorId { q with inflightTaskCallbacks := q.inflightTaskCallbacks.erase p.taskId }
    replyCallback cfg p.actorId p.taskId callback answer

def failInflightTasks (actor : ActorID) (callbacks : List (TaskID × Callback)) : SubmitM Unit :=
  callbacks.forM fun c => replyCallback cfg actor c.1 c.2 none

def ClientQueue.inflight (q : ClientQueue) : List (TaskID × Callback) :=
  q.inflightTaskCallbacks.entries.map fun e => (e.1, e.2)

def ClientQueue.disconnect (q : ClientQueue) : ClientQueue :=
  { q with
    rpcClient := none
    workerId := none
    pendingForceKill := none
    inflightTaskCallbacks := ∅ }

def ClientQueue.die (q : ClientQueue) : ClientQueue :=
  { q.disconnect with state := .dead, actorSubmitQueue := q.actorSubmitQueue.clearAllTasks.2 }

def ClientQueue.restart (q : ClientQueue) (numRestarts : Int) : ClientQueue :=
  { q.disconnect with state := .restarting, numRestarts := numRestarts }

def ClientQueue.connect (q : ClientQueue) (address : Address) (numRestarts : Int) : ClientQueue :=
  { q with
    numRestarts := numRestarts
    state := .alive
    workerId := some address.worker.workerId
    rpcClient := some address
    actorSubmitQueue := q.actorSubmitQueue.onClientConnected
    sent := [] }

def ClientQueue.skipsConnection (q : ClientQueue) (address : Address) (numRestarts : Int) : Bool :=
  decide (numRestarts < q.numRestarts) ||
    q.rpcClient.any (fun a => a.ipAddress == address.ipAddress && a.port == address.port) ||
    decide (q.state = .dead)

def connectActor (actor : ActorID) (address : Address) (numRestarts : Int) : SubmitM Unit := do
  let q ← findQueue actor
  if q.skipsConnection address numRestarts then pure ()
  else do
    let inflight := if q.rpcClient.isSome then cfg.order q.inflight else []
    putQueue actor ((if q.rpcClient.isSome then q.disconnect else q).connect address numRestarts)
    resendOutOfOrderTasks cfg actor
    sendPendingTasks cfg actor
    failInflightTasks cfg actor inflight

def cancelTask (id : TaskID) : SubmitM Unit := do
  let _ ← taskManager (markTaskCanceled id)
  let _ ← failPendingTask cfg id true
  pure ()

/-- The tasks that waited for the cause of the death stay in the list. -/
def failAll (actor : ActorID) (q : ClientQueue) : SubmitM Unit := do
  putQueue actor q.die
  q.actorSubmitQueue.clearAllTasks.1.forM (cancelTask cfg)
  q.waitForDeathInfoTasks.forM fun p => markFailed p.2

def disconnectActor (actor : ActorID) (numRestarts : Int) (dead : Bool) : SubmitM Unit := do
  let q ← findQueue actor
  check .numRestarts (dead = true ∨ 0 < numRestarts)
  if numRestarts ≤ q.numRestarts ∧ dead = false then pure ()
  else do
    (if dead then failAll cfg actor q
    else if q.state = .dead then putQueue actor q.disconnect
    else putQueue actor (q.restart numRestarts))
    failInflightTasks cfg actor (cfg.order q.inflight)

def ClientQueue.timedOut (q : ClientQueue) (now : Int) : List (Int × TaskID) :=
  q.waitForDeathInfoTasks.takeWhile fun p => p.1 < now

def ClientQueue.dropTimedOut (q : ClientQueue) (now : Int) : ClientQueue :=
  { q with waitForDeathInfoTasks := q.waitForDeathInfoTasks.dropWhile fun p => p.1 < now }

def checkTimeoutTasks : SubmitM Unit := do
  let s ← get
  let now := s.submitter.currentTimeMs
  s.submitter.clientQueues.entries.forM fun e => do
    let q ← findQueue e.1
    putQueue e.1 (q.dropTimedOut now)
    (q.timedOut now).forM fun p => markFailed p.2

def addActorQueueIfNotExists (actor : ActorID) : SubmitM Unit :=
  modifySubmitter fun s => match s.clientQueues.lookup actor with
    | some _ => s
    | none => { s with clientQueues := s.clientQueues.insert actor {} }

def ClientQueue.requestKill (q : ClientQueue) (forceKill noRestart : Bool) : ClientQueue :=
  { q with pendingForceKill := some (match q.pendingForceKill with
      | none => { forceKill, noRestart }
      | some r => if forceKill then { forceKill := true, noRestart := noRestart || r.noRestart }
        else r) }

def killActor (actor : ActorID) (forceKill noRestart : Bool) : SubmitM Unit := do
  let q ← findQueue actor
  putQueue actor (q.requestKill forceKill noRestart)
  sendPendingTasks cfg actor

/-- The callback of the resolver. The task may have been taken out of the queue. -/
def dependenciesResolved (id : TaskID) (ok : Bool) : SubmitM Unit := do
  let actor := cfg.actorId id
  let q ← findQueue actor
  match q.actorSubmitQueue.get? (cfg.actorCounter id) with
  | none => pure ()
  | some r =>
    if ok then do
      putQueue actor { q with
        actorSubmitQueue := q.actorSubmitQueue.markDependencyResolved (cfg.actorCounter id) }
      sendPendingTasks cfg actor
    else do
      putQueue actor { q with
        actorSubmitQueue := q.actorSubmitQueue.markDependencyFailed (cfg.actorCounter id) }
      let _ ← failPendingTask cfg r.task true
      pure ()

def runWorker (op : WorkerOp) : SubmitM Unit := do
  let before := (← get).worker.lineage.outputs.length
  taskManager (op.run cfg.worker)
  let outputs := (← get).worker.lineage.outputs.drop before
  (resolutions outputs).forM fun r => dependenciesResolved cfg r.1 r.2

def submitTask (id : TaskID) (isActorInRegistering : ActorID → Bool) : SubmitM Unit := do
  let actor := cfg.actorId id
  let q ← findQueue actor
  if q.state = .dead then do
    taskManager (modifyTasks fun t => { t with toSubmit := t.toSubmit.erase id })
    cancelTask cfg id
  else do
    check .alreadyQueued (q.actorSubmitQueue.contains (cfg.actorCounter id) = false)
    putQueue actor { q with
      actorSubmitQueue := q.actorSubmitQueue.emplace (cfg.actorCounter id) id
      numSubmitted := max q.numSubmitted (cfg.actorCounter id + 1) }
    runWorker cfg (.submitTask id isActorInRegistering)

inductive SubmitterOp where
  | worker (op : WorkerOp)
  | addActorQueueIfNotExists (actor : ActorID)
  | submitTask (id : TaskID) (isActorInRegistering : ActorID → Bool)
  | connectActor (actor : ActorID) (address : Address) (numRestarts : Int)
  | disconnectActor (actor : ActorID) (numRestarts : Int) (dead : Bool)
  | pushReply (p : Push) (answer : PushAnswer)
  | killActor (actor : ActorID) (forceKill noRestart : Bool)
  | checkTimeoutTasks
  | timePasses (ms : Nat)

def SubmitterOp.run (cfg : ActorConfig) : SubmitterOp → SubmitM Unit
  | .worker op => runWorker cfg op
  | .addActorQueueIfNotExists actor => ActorSubmitter.addActorQueueIfNotExists actor
  | .submitTask id isActorInRegistering => ActorSubmitter.submitTask cfg id isActorInRegistering
  | .connectActor actor address numRestarts =>
    ActorSubmitter.connectActor cfg actor address numRestarts
  | .disconnectActor actor numRestarts dead =>
    ActorSubmitter.disconnectActor cfg actor numRestarts dead
  | .pushReply p answer => handlePushReply cfg p answer
  | .killActor actor forceKill noRestart => ActorSubmitter.killActor cfg actor forceKill noRestart
  | .checkTimeoutTasks => ActorSubmitter.checkTimeoutTasks
  | .timePasses ms => modifySubmitter fun s => { s with currentTimeMs := s.currentTimeMs + ms }

/-- The steps that the submitter does not make itself. Recovery of lost objects and tasks that are not of an actor are
left out. -/
def ofActorTasks : WorkerOp → Bool
  | .addPendingTask _ spec _ => spec.isActorTask
  | .dependencyFetched _ _ _ | .actorRegistered _ _ | .drainAndShutdown | .counter _ => true
  | _ => false

def System.numSubmitted (s : System) (actor : ActorID) : Nat :=
  (s.submitter.clientQueues.lookup actor).elim 0 ClientQueue.numSubmitted

/-- The tasks of an actor are submitted in the order of their counters, retries again. A reply answers a request. -/
def SubmitterOp.Enabled (cfg : ActorConfig) (s : System) : SubmitterOp → Prop
  | .worker op => op.Enabled s.worker.lineage ∧ ofActorTasks op = true
  | .submitTask id _ => id ∈ s.worker.lineage.toSubmit ∧
    cfg.actorCounter id ≤ s.numSubmitted (cfg.actorId id)
  | .pushReply p _ => p ∈ s.submitter.pushes
  | _ => True

instance (cfg : ActorConfig) (s : System) (op : SubmitterOp) : Decidable (op.Enabled cfg s) := by
  cases op <;> (unfold SubmitterOp.Enabled; infer_instance)

def System.start : System := { worker := { lineage := {} }, submitter := {} }

def exampleActor : ActorConfig where
  worker := exampleWorker
  actorId _ := 0
  actorCounter id := id
  counter_inj _ _ _ h := h
  timeoutMsTaskWaitForDeathInfo := 10
  order l := l
  order_perm _ := List.Perm.refl _

def exampleTask (id : TaskID) : TaskSpec :=
  { taskId := id, type := .actorTask ⟨100, 1⟩, numReturns := 2 }

def submitExample (id : TaskID) (maxRetries : Int) : List SubmitterOp :=
  [.worker (.addPendingTask ⟨0, 0⟩ (exampleTask id) maxRetries), .submitTask id fun _ => false]

def exampleAddress (port : Nat) : Address := { worker := ⟨port, 0⟩, ipAddress := 0, port }

end AmazonRay.ActorSubmitter
