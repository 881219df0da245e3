import AmazonRay.Ids
import AmazonRay.Lib.Families
import AmazonRay.Lib.Program

/-! `WorkerPool`: the worker processes of a node, from their start to the idle and I/O pools. The states of the
languages are maps. -/
namespace AmazonRay.WorkerPool
open Program Families

abbrev JobID := ℕ
abbrev StartupToken := ℕ
abbrev Pid := ℕ
abbrev CallbackID := ℕ

inductive Language where
  | python
  | java
  | cpp
  deriving DecidableEq, Repr

instance : Fintype Language := ⟨{.python, .java, .cpp}, fun language => by cases language <;> decide⟩

inductive IOType where
  | spill
  | restore
  deriving DecidableEq, Repr

inductive WorkerType where
  | worker
  | io (type : IOType)
  deriving DecidableEq, Repr

inductive PopWorkerStatus where
  | ok
  | jobConfigMissing
  | tooManyStartingWorkerProcesses
  | workerPendingRegistration
  | runtimeEnvCreationFailed
  deriving DecidableEq, Repr

inductive Check where
  | languageUnsupported
  | spillingNotConfigured
  | actorTask
  | workerOfOtherJob
  | notIOWorker
  | workerNotRegistered
  | idleMapSize
  | runningBelowPendingExit
  | runningBelowProcess
  | rpcClientMissing
  | noRunningWorker
  /-- `front` of an empty list, which has no defined behaviour. -/
  | frontOfEmptyList
  | workerNotPendingExit
  deriving DecidableEq, Repr

structure Worker where
  workerId : WorkerID
  language : Language
  workerType : WorkerType := .worker
  assignedJobId : JobID := 0
  runtimeEnvHash : ℤ := 0
  startupToken : StartupToken
  shimPid : Pid
  pid : Pid
  deriving DecidableEq, Repr

structure TaskSpec where
  taskId : TaskID
  language : Language
  jobId : JobID
  isActorTask : Bool := false
  /-- An actor creation task with dynamic worker options. -/
  dynamicOptions : Bool := false
  hasRuntimeEnv : Bool := false
  runtimeEnvHash : ℤ := 0
  deriving DecidableEq, Repr

structure Config where
  languages : List Language
  languages_nodup : languages.Nodup := by decide
  maximumStartupConcurrency : ℤ
  numWorkersSoftLimit : ℕ
  idleWorkerKillingTimeThresholdMs : ℤ
  maxIoWorkers : ℕ
  objectSpillingConfigEmpty : Bool := false
  /-- The process that the operating system starts for a token. -/
  pidOf : StartupToken → Pid

structure StartingWorkerProcessInfo where
  numWorkers : ℤ
  numStartingWorkers : ℤ
  workerType : WorkerType
  proc : Pid
  deriving DecidableEq, Repr

structure TaskWaitingForWorkerInfo where
  taskId : TaskID
  callback : CallbackID
  deriving DecidableEq, Repr

structure IOWorkerState where
  idleIoWorkers : List Worker := []
  pendingIoTasks : List CallbackID := []
  registeredIoWorkers : List Worker := []
  numStartingIoWorkers : ℤ := 0

/-- A call of `PopWorkerCallbackInternal` that was posted to the event loop. -/
structure PostedCallback where
  callback : CallbackID
  worker : Option Worker
  status : PopWorkerStatus
  deriving DecidableEq, Repr

structure RuntimeEnvRequest where
  spec : TaskSpec
  callback : CallbackID
  deriving DecidableEq, Repr

/-- What happened to the callbacks of `PopWorker` and the workers, with whether a worker given to a callback was
registered then. -/
inductive Event where
  | invoked (callback : CallbackID) (worker : Option (Worker × Bool)) (status : PopWorkerStatus) (used : Bool)
  | pushed (worker : Worker)
  deriving DecidableEq, Repr

structure Pool where
  idleDedicatedWorkers : Language → AList fun _ : TaskID => Worker := fun _ => ∅
  idle : Language → List Worker := fun _ => []
  registeredWorkers : Language → List Worker := fun _ => []
  pendingDisconnectionWorkers : Language → List Worker := fun _ => []
  startingWorkerProcesses : Language → AList fun _ : StartupToken => StartingWorkerProcessInfo := fun _ => ∅
  /-- `starting_dedicated_workers_to_tasks` at `true`, `starting_workers_to_tasks` at `false`. -/
  startingWorkersToTasks : Bool → Language → AList fun _ : Pid => TaskWaitingForWorkerInfo := fun _ _ => ∅
  io : Language → IOType → IOWorkerState := fun _ _ => {}
  idleOfAllLanguages : List (Worker × ℤ) := []
  idleOfAllLanguagesMap : AList fun _ : Worker => ℤ := ∅
  pendingExitIdleWorkers : AList fun _ : WorkerID => Worker := ∅
  /-- `num_java_workers_per_process` of the jobs that are known. -/
  allJobs : AList fun _ : JobID => ℕ := ∅
  finishedJobs : List JobID := []
  workerStartupTokenCounter : StartupToken := 0
  /-- The workers with an RPC client, and those that are marked dead. -/
  connected : List Worker := []
  dead : List Worker := []
  nextCallback : CallbackID := 0
  posted : List PostedCallback := []
  runtimeEnvRequests : List RuntimeEnvRequest := []
  exitRequests : List Worker := []
  /-- The events so far, the latest first. -/
  log : List Event := []
  /-- The I/O tasks that got a worker, the latest first. -/
  ioLog : List (CallbackID × Worker) := []
  /-- The workers registered so far, which the pool never reads. -/
  known : List Worker := []

abbrev PoolM := EStateM Check Pool

namespace Pool

def supported (config : Config) (language : Language) : PoolM Unit :=
  check .languageUnsupported (language ∈ config.languages)

def startingWorkers (p : Pool) (language : Language) (workerType : WorkerType) : ℤ :=
  (((p.startingWorkerProcesses language).entries.filter (·.2.workerType = workerType)).map
    (·.2.numStartingWorkers)).sum

def modifyIoState (language : Language) (type : IOType) (f : IOWorkerState → IOWorkerState) (p : Pool) : Pool :=
  { p with io := adjust language (adjust type f) p.io }

/-- The process gets its token, and an I/O process is counted. -/
def addStarting (config : Config) (language : Language) (workerType : WorkerType) (numWorkers : ℤ) (p : Pool) : Pool :=
  let token := p.workerStartupTokenCounter
  let started := { p with
    startingWorkerProcesses := adjust language
      (·.insert token ⟨numWorkers, numWorkers, workerType, config.pidOf token⟩) p.startingWorkerProcesses
    workerStartupTokenCounter := token + 1 }
  match workerType with
  | .worker => started
  | .io type => started.modifyIoState language type fun s => { s with numStartingIoWorkers := s.numStartingIoWorkers + 1 }

def startWorkerProcess (config : Config) (language : Language) (workerType : WorkerType) (jobId : JobID)
    (dynamicOptions : Bool) : PoolM (Except PopWorkerStatus Pid) := do
  let p ← get
  if workerType = .worker ∧ jobId ∉ p.allJobs then pure (.error .jobConfigMissing)
  else do
    supported config language
    if config.maximumStartupConcurrency ≤ p.startingWorkers language workerType then
      pure (.error .tooManyStartingWorkerProcesses)
    else do
      check .spillingNotConfigured (workerType = .worker ∨ config.objectSpillingConfigEmpty = false)
      let workersToStart : ℤ :=
        if dynamicOptions = false ∧ language = .java then ((p.allJobs.lookup jobId).getD 1 : ℕ) else 1
      modify (addStarting config language workerType workersToStart)
      pure (.ok (config.pidOf p.workerStartupTokenCounter))

/-- The loop of `TryStartIOWorkers`, which ends at the first process that is not started. -/
def startIOWorkers (config : Config) (type : IOType) : ℕ → PoolM Unit
  | 0 => pure ()
  | expected + 1 => do
    match ← startWorkerProcess config .python (.io type) 0 false with
    | .error _ => pure ()
    | .ok _ => startIOWorkers config type expected

def tryStartIOWorkersOf (config : Config) (language : Language) (type : IOType) : PoolM Unit :=
  onlyIf (language = .python) do
    supported config language
    let s := (← get).io language type
    let maxWorkersToStart := config.maxIoWorkers - (s.numStartingIoWorkers + s.registeredIoWorkers.length)
    onlyIf (s.idleIoWorkers.length < s.pendingIoTasks.length)
      (startIOWorkers config type
        (min ((s.pendingIoTasks.length : ℤ) - s.idleIoWorkers.length) maxWorkersToStart).toNat)

def tryStartIOWorkers (config : Config) (language : Language) : PoolM Unit := do
  tryStartIOWorkersOf config language .restore
  tryStartIOWorkersOf config language .spill

def invoke (callback : CallbackID) (worker : Option Worker) (status : PopWorkerStatus) (used : Bool) : PoolM Unit :=
  modify fun p => { p with
    log := .invoked callback (worker.map fun w => (w, decide (w ∈ p.registeredWorkers w.language))) status used :: p.log }

def post (callback : CallbackID) (worker : Option Worker) (status : PopWorkerStatus) : PoolM Unit :=
  modify fun p => { p with posted := p.posted ++ [⟨callback, worker, status⟩] }

/-- The task whose callback was found, and whether it used the worker. -/
def invokePopWorkerCallbackForProcess (dedicated : Bool) (language : Language) (proc : Pid) (worker : Option Worker)
    (status : PopWorkerStatus) (answers : CallbackID → Bool) : PoolM (Option (TaskID × Bool)) := do
  match ((← get).startingWorkersToTasks dedicated language).lookup proc with
  | none => pure none
  | some info => do
    invoke info.callback worker status (answers info.callback)
    modify fun p => { p with
      startingWorkersToTasks := adjust dedicated (adjust language (·.erase proc)) p.startingWorkersToTasks }
    pure (some (info.taskId, answers info.callback))

def addIdle (worker : Worker) (now : ℤ) (p : Pool) : Pool := { p with
  idle := adjust worker.language (·.insert worker) p.idle
  idleOfAllLanguages := p.idleOfAllLanguages ++ [(worker, now)]
  idleOfAllLanguagesMap := p.idleOfAllLanguagesMap.insert worker now }

def pushWorker (config : Config) (now : ℤ) (answers : CallbackID → Bool) (worker : Worker) : PoolM Unit := do
  modify fun p => { p with log := .pushed worker :: p.log }
  supported config worker.language
  match ← invokePopWorkerCallbackForProcess true worker.language worker.shimPid (some worker) .ok answers with
  | some (taskId, used) =>
    onlyIf (used = false) (modify fun p => { p with
      idleDedicatedWorkers := adjust worker.language (·.insert taskId worker) p.idleDedicatedWorkers })
  | none => do
    let found ← invokePopWorkerCallbackForProcess false worker.language worker.shimPid (some worker) .ok answers
    onlyIf (found.all (·.2 = false)) (modify (addIdle worker now))

def popWorkerCallbackInternal (config : Config) (now : ℤ) (answers : CallbackID → Bool) (call : PostedCallback) :
    PoolM Unit := do
  invoke call.callback call.worker call.status (answers call.callback)
  match call.worker with
  | none => pure ()
  | some worker => onlyIf (answers call.callback = false) (pushWorker config now answers worker)

def runPosted (config : Config) (now : ℤ) (answers : CallbackID → Bool) (i : ℕ) : PoolM Unit := do
  match (← get).posted[i]? with
  | none => pure ()
  | some call => do
    modify fun p => { p with posted := p.posted.eraseIdx i }
    popWorkerCallbackInternal config now answers call

/-- A worker registers; `portFree` says whether there is a port for it. -/
def registerWorker (config : Config) (worker : Worker) (portFree : Bool) : PoolM Unit := do
  supported config worker.language
  let p ← get
  onlyIf (worker.startupToken ∈ p.startingWorkerProcesses worker.language ∧ portFree = true)
    (modify fun p => { p with
      registeredWorkers := adjust worker.language (·.insert worker) p.registeredWorkers
      known := worker :: p.known })

def countStarted (config : Config) (worker : Worker) : PoolM Unit := do
  match ((← get).startingWorkerProcesses worker.language).lookup worker.startupToken with
  | none => pure ()
  | some info =>
    if info.numStartingWorkers - 1 = 0 then do
      modify fun p => { p with
        startingWorkerProcesses := adjust worker.language (·.erase worker.startupToken) p.startingWorkerProcesses }
      tryStartIOWorkers config worker.language
    else modify fun p => { p with
        startingWorkerProcesses := adjust worker.language
          (·.insert worker.startupToken { info with numStartingWorkers := info.numStartingWorkers - 1 })
          p.startingWorkerProcesses }

def onWorkerStarted (config : Config) (worker : Worker) : PoolM Unit := do
  supported config worker.language
  countStarted config worker
  match worker.workerType with
  | .worker => pure ()
  | .io type => modify (modifyIoState worker.language type fun s => { s with
      registeredIoWorkers := s.registeredIoWorkers.insert worker
      numStartingIoWorkers := s.numStartingIoWorkers - 1 })

/-- The process is given up, and an I/O process is no longer counted. -/
def dropStarting (language : Language) (token : StartupToken) (workerType : WorkerType) (p : Pool) : Pool :=
  let dropped := { p with
    startingWorkerProcesses := adjust language (·.erase token) p.startingWorkerProcesses }
  match workerType with
  | .worker => dropped
  | .io type => dropped.modifyIoState language type fun s => { s with numStartingIoWorkers := s.numStartingIoWorkers - 1 }

def startupTimeout (config : Config) (answers : CallbackID → Bool) (language : Language) (token : StartupToken) :
    PoolM Unit := do
  supported config language
  match ((← get).startingWorkerProcesses language).lookup token with
  | none => pure ()
  | some info => do
    let found ← invokePopWorkerCallbackForProcess true language info.proc none .workerPendingRegistration answers
    onlyIf (found = none)
      (discard (invokePopWorkerCallbackForProcess false language info.proc none .workerPendingRegistration answers))
    modify (dropStarting language token info.workerType)
    tryStartIOWorkers config language

def serveIoTask (callback : CallbackID) (worker : Worker) : PoolM Unit :=
  modify fun p => { p with ioLog := (callback, worker) :: p.ioLog }

def pushIOWorkerInternal (config : Config) (worker : Worker) (type : IOType) : PoolM Unit := do
  check .notIOWorker (worker.workerType ≠ .worker)
  supported config .python
  match ((← get).io .python type).pendingIoTasks with
  | [] => modify (modifyIoState .python type fun s => { s with idleIoWorkers := s.idleIoWorkers ++ [worker] })
  | callback :: rest => do
    modify (modifyIoState .python type fun s => { s with pendingIoTasks := rest })
    serveIoTask callback worker

def popIOWorkerInternal (config : Config) (type : IOType) (callback : CallbackID) : PoolM Unit := do
  supported config .python
  match ((← get).io .python type).idleIoWorkers with
  | [] => do
    modify (modifyIoState .python type fun s => { s with pendingIoTasks := s.pendingIoTasks ++ [callback] })
    tryStartIOWorkersOf config .python type
  | worker :: rest => do
    modify (modifyIoState .python type fun s => { s with idleIoWorkers := rest })
    serveIoTask callback worker

def pushSpillWorker (config : Config) (worker : Worker) : PoolM Unit := pushIOWorkerInternal config worker .spill
def pushRestoreWorker (config : Config) (worker : Worker) : PoolM Unit := pushIOWorkerInternal config worker .restore
def popSpillWorker (config : Config) (callback : CallbackID) : PoolM Unit := popIOWorkerInternal config .spill callback
def popRestoreWorker (config : Config) (callback : CallbackID) : PoolM Unit :=
  popIOWorkerInternal config .restore callback

def pushDeleteWorker (config : Config) (worker : Worker) : PoolM Unit := do
  check .notIOWorker (worker.workerType ≠ .worker)
  if worker.workerType = .io .restore then pushRestoreWorker config worker else pushSpillWorker config worker

def popDeleteWorker (config : Config) (callback : CallbackID) : PoolM Unit := do
  supported config .python
  let p ← get
  if (p.io .python .restore).idleIoWorkers.length < (p.io .python .spill).idleIoWorkers.length then
    popSpillWorker config callback
  else popRestoreWorker config callback

/-- The worker started for the task waits for it under the process. -/
def startWorkerProcessFn (config : Config) (spec : TaskSpec) (callback : CallbackID) : PoolM Unit := do
  match ← startWorkerProcess config spec.language .worker spec.jobId spec.dynamicOptions with
  | .ok proc => modify fun p => { p with
      startingWorkersToTasks := adjust spec.dynamicOptions
        (adjust spec.language (·.insert proc ⟨spec.taskId, callback⟩)) p.startingWorkersToTasks }
  | .error status => post callback none status

def startOrCreateEnv (config : Config) (spec : TaskSpec) (callback : CallbackID) : PoolM Unit :=
  if spec.hasRuntimeEnv then
    modify fun p => { p with runtimeEnvRequests := p.runtimeEnvRequests ++ [⟨spec, callback⟩] }
  else startWorkerProcessFn config spec callback

def runtimeEnvReply (config : Config) (answers : CallbackID → Bool) (i : ℕ) (successful : Bool) : PoolM Unit := do
  match (← get).runtimeEnvRequests[i]? with
  | none => pure ()
  | some request => do
    modify fun p => { p with runtimeEnvRequests := p.runtimeEnvRequests.eraseIdx i }
    if successful then startWorkerProcessFn config request.spec request.callback
    else invoke request.callback none .runtimeEnvCreationFailed (answers request.callback)

def Usable (p : Pool) (spec : TaskSpec) (worker : Worker) : Prop :=
  spec.language = worker.language ∧ worker.assignedJobId = spec.jobId ∧
    worker ∉ p.pendingDisconnectionWorkers spec.language ∧ worker ∉ p.dead ∧
    worker.workerId ∉ p.pendingExitIdleWorkers ∧ spec.runtimeEnvHash = worker.runtimeEnvHash

instance (p : Pool) (spec : TaskSpec) (worker : Worker) : Decidable (p.Usable spec worker) :=
  inferInstanceAs (Decidable (_ ∧ _ ∧ _ ∧ _ ∧ _ ∧ _))

/-- The most recently pushed of the idle workers that can run the task. -/
def findIdle (p : Pool) (spec : TaskSpec) : Option Worker :=
  (p.idleOfAllLanguages.reverse.find? fun e => p.Usable spec e.1).map Prod.fst

def removeIdle (language : Language) (worker : Worker) (p : Pool) : Pool := { p with
  idle := adjust language (·.erase worker) p.idle
  idleOfAllLanguages := p.idleOfAllLanguages.eraseP (·.1 = worker)
  idleOfAllLanguagesMap := p.idleOfAllLanguagesMap.erase worker }

def postWorker (spec : TaskSpec) (callback : CallbackID) (worker : Worker) : PoolM Unit := do
  check .workerOfOtherJob (worker.assignedJobId = spec.jobId)
  post callback (some worker) .ok

def popWorker (config : Config) (spec : TaskSpec) : PoolM Unit := do
  let callback := (← get).nextCallback
  modify fun p => { p with nextCallback := callback + 1 }
  supported config spec.language
  check .actorTask (spec.isActorTask = false)
  let p ← get
  if spec.dynamicOptions then
    match (p.idleDedicatedWorkers spec.language).lookup spec.taskId with
    | some worker => do
      modify fun p => { p with
        idleDedicatedWorkers := adjust spec.language (·.erase spec.taskId) p.idleDedicatedWorkers }
      postWorker spec callback worker
    | none => startOrCreateEnv config spec callback
  else
    match p.findIdle spec with
    | some worker => do
      modify (removeIdle spec.language worker)
      postWorker spec callback worker
    | none => startOrCreateEnv config spec callback

/-- The processes of `PrestartWorkers`, and the initial workers of the first job. -/
def startWorkerProcesses (config : Config) (language : Language) (jobId : JobID) : ℕ → PoolM Unit
  | 0 => pure ()
  | n + 1 => do
    discard (startWorkerProcess config language .worker jobId false)
    startWorkerProcesses config language jobId n

def prestartWorkers (config : Config) (spec : TaskSpec) (backlogSize numAvailableCpus : ℤ) : PoolM Unit :=
  onlyIf (spec.dynamicOptions = false ∧ spec.hasRuntimeEnv = false) do
    supported config spec.language
    let p ← get
    let numUsableWorkers : ℤ := (p.idle spec.language).length +
      ((p.startingWorkerProcesses spec.language).entries.map (·.2.numStartingWorkers)).sum
    startWorkerProcesses config spec.language spec.jobId
      (min numAvailableCpus backlogSize - numUsableWorkers).toNat

def removeWorker (worker : Worker) (p : Pool) : Pool := { p with
  registeredWorkers := adjust worker.language (·.erase worker) p.registeredWorkers
  pendingDisconnectionWorkers := adjust worker.language (·.erase worker) p.pendingDisconnectionWorkers
  idleOfAllLanguages := p.idleOfAllLanguages.eraseP (·.1 = worker)
  idleOfAllLanguagesMap :=
    if ∃ e ∈ p.idleOfAllLanguages, e.1 = worker then p.idleOfAllLanguagesMap.erase worker else p.idleOfAllLanguagesMap
  idle := adjust worker.language (·.erase worker) p.idle }

def disconnectWorker (config : Config) (worker : Worker) (intendedExit : Bool) : PoolM Unit := do
  supported config worker.language
  let p ← get
  check .workerNotRegistered (worker ∈ p.registeredWorkers worker.language)
  modify (removeWorker worker)
  onlyIf (intendedExit = false) (modify fun p => { p with
    pendingDisconnectionWorkers := adjust worker.language
      (· ∪ (p.registeredWorkers worker.language).filter (·.pid = worker.pid)) p.pendingDisconnectionWorkers })

def allRegistered (config : Config) (p : Pool) : List Worker := config.languages.flatMap p.registeredWorkers

def getWorkersByProcess (config : Config) (p : Pool) (pid : Pid) : List Worker :=
  (p.allRegistered config).filter (·.pid = pid)

def running (config : Config) (p : Pool) : List Worker :=
  (p.allRegistered config).filter fun w => w ∈ p.connected ∧ w ∉ p.dead ∧ w.workerType = .worker

def idleSince (worker : Worker) : PoolM ℤ := do
  match (← get).idleOfAllLanguagesMap.lookup worker with
  | some time => pure time
  | none => do
    modify fun p => { p with idleOfAllLanguagesMap := p.idleOfAllLanguagesMap.insert worker 0 }
    pure 0

/-- All workers of the process have been idle for a while. -/
def canBeKilled (config : Config) (now : ℤ) (language : Language) : List Worker → PoolM Bool
  | [] => pure true
  | worker :: rest => do
    if worker ∉ (← get).idle language then pure false
    else
      let time ← idleSince worker
      if now - time < config.idleWorkerKillingTimeThresholdMs then pure false
      else canBeKilled config now language rest

def exitWorker (language : Language) (runningSize : ℕ) (worker : Worker) : PoolM ℕ := do
  let p ← get
  if worker ∈ p.dead then do
    modify fun p => { p with idle := adjust language (·.erase worker) p.idle }
    pure runningSize
  else do
    modify fun p => { p with pendingExitIdleWorkers :=
      if worker.workerId ∈ p.pendingExitIdleWorkers then p.pendingExitIdleWorkers
      else p.pendingExitIdleWorkers.insert worker.workerId worker }
    check .rpcClientMissing (worker ∈ p.connected)
    check .noRunningWorker (0 < runningSize)
    modify fun p => { p with exitRequests := p.exitRequests ++ [worker] }
    pure (runningSize - 1)

/-- The workers of the process are asked to exit if all are idle; none when the function returns. -/
def killProcess (config : Config) (now : ℤ) (worker : Worker) (runningSize : ℕ) : PoolM (Option ℕ) := do
  let p ← get
  let workers := p.getWorkersByProcess config worker.pid
  if ← canBeKilled config now worker.language workers then do
    check .runningBelowProcess (workers.length ≤ runningSize)
    if runningSize - workers.length < config.numWorkersSoftLimit ∧ worker.assignedJobId ∉ p.finishedJobs then
      pure none
    else do
      let left ← workers.foldlM (exitWorker worker.language) runningSize
      pure (some left)
  else pure (some runningSize)

/-- The loop over the idle workers. It is false when the function returns from within. -/
def killIdleWorkers (config : Config) (now : ℤ) : List (Worker × ℤ) → ℕ → PoolM Bool
  | [], _ => pure true
  | (worker, time) :: rest, runningSize => do
    let p ← get
    if runningSize ≤ config.numWorkersSoftLimit ∧ worker.assignedJobId ∉ p.finishedJobs then pure true
    else if worker.workerId ∈ p.pendingExitIdleWorkers then killIdleWorkers config now rest runningSize
    else if now - time < config.idleWorkerKillingTimeThresholdMs then pure true
    else if worker ∈ p.dead then killIdleWorkers config now rest runningSize
    else do
      supported config worker.language
      if worker.startupToken ∈ p.startingWorkerProcesses worker.language then
        killIdleWorkers config now rest runningSize
      else do
        match ← killProcess config now worker runningSize with
        | none => pure false
        | some left => killIdleWorkers config now rest left

def rebuildIdle (p : Pool) : Pool :=
  let alive := p.idleOfAllLanguages.filter (·.1 ∉ p.dead)
  { p with
    idleOfAllLanguages := alive
    idleOfAllLanguagesMap := alive.foldl (fun t e => if e.1 ∈ t then t else t.insert e.1 e.2) ∅ }

def checkIdleMap : PoolM Unit := do
  let p ← get
  check .idleMapSize (p.idleOfAllLanguages.length = p.idleOfAllLanguagesMap.keys.length)

def tryKillingIdleWorkers (config : Config) (now : ℤ) : PoolM Unit := do
  checkIdleMap
  let p ← get
  check .runningBelowPendingExit (p.pendingExitIdleWorkers.keys.length ≤ (p.running config).length)
  if ← killIdleWorkers config now p.idleOfAllLanguages
      ((p.running config).length - p.pendingExitIdleWorkers.keys.length) then do
    modify rebuildIdle
    checkIdleMap
  else pure ()

def rotateIdle : PoolM Unit := do
  match (← get).idleOfAllLanguages with
  | [] => throw .frontOfEmptyList
  | e :: rest => do
    modify fun p => { p with idleOfAllLanguages := rest ++ [e] }
    checkIdleMap

def markDead (config : Config) (worker : Worker) : PoolM Unit := do
  supported config worker.language
  modify fun p => { p with
    idle := adjust worker.language (·.erase worker) p.idle
    dead := p.dead.insert worker }

/-- The callback of an exit request; `refused` is a reply without success. -/
def onExitReply (config : Config) (worker : Worker) (refused : Bool) : PoolM Unit := do
  (if refused then rotateIdle else markDead config worker)
  let p ← get
  check .workerNotPendingExit (worker.workerId ∈ p.pendingExitIdleWorkers)
  modify fun p => { p with pendingExitIdleWorkers := p.pendingExitIdleWorkers.erase worker.workerId }

def exitReply (config : Config) (i : ℕ) (refused : Bool) : PoolM Unit := do
  match (← get).exitRequests[i]? with
  | none => pure ()
  | some worker => do
    modify fun p => { p with exitRequests := p.exitRequests.eraseIdx i }
    onExitReply config worker refused

def handleWorkerAvailable (config : Config) (now : ℤ) (answers : CallbackID → Bool) (worker : Worker) : PoolM Unit :=
  match worker.workerType with
  | .io .spill => pushSpillWorker config worker
  | .io .restore => pushRestoreWorker config worker
  | .worker => pushWorker config now answers worker

/-- `ProcessAnnounceWorkerPortMessage`: the worker is connected to and becomes available. -/
def announceWorkerPort (config : Config) (now : ℤ) (answers : CallbackID → Bool) (worker : Worker) : PoolM Unit := do
  modify fun p => { p with connected := p.connected.insert worker }
  onWorkerStarted config worker
  handleWorkerAvailable config now answers worker

end Pool

/-- `answers` says which callbacks use the worker they are given, and `now` is the time. -/
inductive Op where
  | jobStarted (jobId : JobID) (numJavaWorkersPerProcess : ℕ)
  | jobFinished (jobId : JobID)
  | startWorkerProcess (language : Language) (jobId : JobID)
  | prestartWorkers (spec : TaskSpec) (backlogSize numAvailableCpus : ℤ)
  | registerWorker (worker : Worker) (portFree : Bool)
  | announceWorkerPort (now : ℤ) (answers : CallbackID → Bool) (worker : Worker)
  | startupTimeout (answers : CallbackID → Bool) (language : Language) (token : StartupToken)
  | pushWorker (now : ℤ) (answers : CallbackID → Bool) (worker : Worker)
  | popWorker (spec : TaskSpec)
  | runPosted (now : ℤ) (answers : CallbackID → Bool) (i : ℕ)
  | runtimeEnvReply (answers : CallbackID → Bool) (i : ℕ) (successful : Bool)
  | disconnectWorker (worker : Worker) (intendedExit : Bool)
  | tryKillingIdleWorkers (now : ℤ)
  | exitReply (i : ℕ) (refused : Bool)
  | popSpillWorker (callback : CallbackID)
  | popRestoreWorker (callback : CallbackID)
  | popDeleteWorker (callback : CallbackID)
  | pushSpillWorker (worker : Worker)
  | pushRestoreWorker (worker : Worker)
  | pushDeleteWorker (worker : Worker)

def Op.run (config : Config) : Op → PoolM Unit
  | .jobStarted jobId numJavaWorkersPerProcess =>
    modify fun p => { p with allJobs := p.allJobs.insert jobId numJavaWorkersPerProcess }
  | .jobFinished jobId => modify fun p => { p with finishedJobs := p.finishedJobs.insert jobId }
  | .startWorkerProcess language jobId => Pool.startWorkerProcesses config language jobId 1
  | .prestartWorkers spec backlogSize numAvailableCpus => Pool.prestartWorkers config spec backlogSize numAvailableCpus
  | .registerWorker worker portFree => Pool.registerWorker config worker portFree
  | .announceWorkerPort now answers worker => Pool.announceWorkerPort config now answers worker
  | .startupTimeout answers language token => Pool.startupTimeout config answers language token
  | .pushWorker now answers worker => Pool.pushWorker config now answers worker
  | .popWorker spec => Pool.popWorker config spec
  | .runPosted now answers i => Pool.runPosted config now answers i
  | .runtimeEnvReply answers i successful => Pool.runtimeEnvReply config answers i successful
  | .disconnectWorker worker intendedExit => Pool.disconnectWorker config worker intendedExit
  | .tryKillingIdleWorkers now => Pool.tryKillingIdleWorkers config now
  | .exitReply i refused => Pool.exitReply config i refused
  | .popSpillWorker callback => Pool.popSpillWorker config callback
  | .popRestoreWorker callback => Pool.popRestoreWorker config callback
  | .popDeleteWorker callback => Pool.popDeleteWorker config callback
  | .pushSpillWorker worker => Pool.pushSpillWorker config worker
  | .pushRestoreWorker worker => Pool.pushRestoreWorker config worker
  | .pushDeleteWorker worker => Pool.pushDeleteWorker config worker

end AmazonRay.WorkerPool
