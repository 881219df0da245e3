import AmazonRay.ReferenceCounter.Operations

/-! The tasks a worker has submitted: specs, entries of `TaskManager`, and dependencies being resolved. -/
namespace AmazonRay.TaskManager
open ReferenceCounter

/-- An argument is an object, or a value with the ids serialized in it. -/
inductive TaskArg where
  | byReference (id : ObjectID)
  | byValue (nestedInlinedRefs : List ObjectID)
  deriving DecidableEq, Repr

inductive TaskType where
  | normalTask
  | actorCreationTask
  | actorTask (actorCreationDummyObjectId : ObjectID)
  deriving DecidableEq, Repr

structure TaskSpec where
  taskId : TaskID
  type : TaskType := .normalTask
  args : List TaskArg := []
  numReturns : Nat := 1
  deriving DecidableEq, Repr

def TaskArg.dependencies : TaskArg → List ObjectID
  | .byReference id => [id]
  | .byValue nestedInlinedRefs => nestedInlinedRefs

def TaskSpec.argDependencies (spec : TaskSpec) : List ObjectID :=
  spec.args.flatMap TaskArg.dependencies

def TaskSpec.actorCreationDummyObjectId (spec : TaskSpec) : List ObjectID :=
  match spec.type with
  | .actorTask id => [id]
  | _ => []

def TaskSpec.isActorTask (spec : TaskSpec) : Bool := !spec.actorCreationDummyObjectId.isEmpty

/-- The arguments, the ids inside them, and the actor of an actor task. -/
def TaskSpec.dependencies (spec : TaskSpec) : List ObjectID :=
  spec.argDependencies ++ spec.actorCreationDummyObjectId

def TaskSpec.returnIds (spec : TaskSpec) (numReturns : Nat) : List ObjectID :=
  (List.range numReturns).map fun i => ⟨spec.taskId, i + 1⟩

/-- The last return of an actor task is a dummy object and is not tracked. -/
def TaskSpec.trackedReturnIds (spec : TaskSpec) : List ObjectID :=
  spec.returnIds (if spec.isActorTask then spec.numReturns - 1 else spec.numReturns)

/-- The returns of an actor creation task are not entered as owned objects. -/
def TaskSpec.ownedReturnIds (spec : TaskSpec) : List ObjectID :=
  if spec.type = .actorCreationTask then [] else spec.trackedReturnIds

/-- An entry of `submissible_tasks_`. Its spec is the message of the task. -/
structure TaskEntry where
  numRetriesLeft : Int
  numSuccessfulExecutions : Nat := 0
  pending : Bool := true
  reconstructableReturnIds : List ObjectID
  lineageFootprintBytes : Int := 0
  deriving DecidableEq, Repr

/-- A value from the memory store; the mark of an object in plasma is not inlined. -/
structure RayObject where
  isInPlasmaError : Bool := false
  nestedRefs : List ObjectID := []
  deriving DecidableEq, Repr

/-- A task whose dependencies are being resolved. An object is `none` until it is
fetched. -/
structure TaskState where
  task : TaskID
  localDependencies : AList fun _ : ObjectID => Option RayObject
  objDependenciesRemaining : Nat
  actorDependenciesRemaining : Nat
  ok : Bool := true

/-- The calls into other components: retry, reconstruction of an object, the two stores, and the callback of a resolved
task. -/
inductive Output where
  | retryTask (id : TaskID) (delay : Bool)
  | reconstructObject (id : ObjectID)
  | putInLocalPlasma (id : ObjectID)
  | putInMemory (id : ObjectID) (inPlasma : Bool)
  | putError (id : ObjectID)
  | resolved (id : TaskID) (ok : Bool)
  deriving DecidableEq, Repr

/-- `TaskManager` and `LocalDependencyResolver`. The copies of a spec share one message, found under the task id.
`toSubmit` are attempts given and not submitted, `added` the tasks with their `max_retries`, `released` the finished
tasks forgotten. -/
structure Tasks where
  submissibleTasks : AList fun _ : TaskID => TaskEntry := ∅
  messages : TaskID → TaskSpec := fun id => { taskId := id }
  numPendingTasks : Int := 0
  totalLineageFootprintBytes : Int := 0
  shutdownHook : Bool := false
  shutdowns : Nat := 0
  toSubmit : List TaskID := []
  resolving : List TaskState := []
  outputs : List Output := []
  added : List (TaskID × Int) := []
  released : List TaskSpec := []

def Tasks.withEntry (t : Tasks) (id : TaskID) (entry : TaskEntry) : Tasks :=
  { t with submissibleTasks := t.submissibleTasks.insert id entry }

/-- The bytes of lineage released and, if the task is forgotten, its arguments. -/
def Tasks.removeLineageReference (id : ObjectID) (t : Tasks) : Int × List ObjectID × Tasks :=
  match t.submissibleTasks.lookup id.taskId with
  | none => (0, [], t)
  | some entry =>
    let entry := { entry with
      reconstructableReturnIds := entry.reconstructableReturnIds.filter (· ≠ id) }
    if entry.reconstructableReturnIds = [] ∧ entry.pending = false then
      let total := t.totalLineageFootprintBytes - entry.lineageFootprintBytes
      (total - t.totalLineageFootprintBytes, (t.messages id.taskId).argDependencies,
        { t with
          submissibleTasks := t.submissibleTasks.erase id.taskId
          totalLineageFootprintBytes := total
          released := t.messages id.taskId :: t.released })
    else (0, [], t.withEntry id.taskId entry)

/-- What a worker is set up with. The size of a serialized spec is never zero. -/
structure WorkerConfig where
  rpcAddress : WorkerAddress
  lineagePinningEnabled : Bool
  stackDepth : Nat
  maxLineageBytes : Int
  byteSizeLong : TaskSpec → Nat
  byteSizeLong_pos : ∀ spec, 0 < byteSizeLong spec
  /-- `ObjectID::IsActorID` and `ObjectID::ToActorID`. -/
  toActorID : ObjectID → Option ActorID

def WorkerConfig.counter (cfg : WorkerConfig) : Config Tasks where
  rpcAddress := cfg.rpcAddress
  lineagePinningEnabled := cfg.lineagePinningEnabled
  onLineageReleased := some Tasks.removeLineageReference
  stackDepth := cfg.stackDepth

abbrev WorkerM := RefM Tasks

abbrev Worker := State Tasks

end AmazonRay.TaskManager
