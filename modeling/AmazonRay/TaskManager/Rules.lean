import AmazonRay.ReferenceCounter.Releases
import AmazonRay.TaskManager.Operations

namespace AmazonRay.TaskManager
open Program ReferenceCounter

variable {cfg : WorkerConfig} {P : Worker → Prop} {E : Check → Worker → Prop}

variable {J : Tasks → Prop} {K : (α : Type) → WorkerM α → Prop}

lemma triple_getTasks {Q : Tasks → Worker → Prop} (h : ∀ s, P s → Q s.lineage s) :
    Triple P getTasks Q E := fun s hs => h s hs

lemma triple_readTasks : Triple P getTasks (fun t s => P s ∧ t = s.lineage) E := triple_getTasks fun _ hs => ⟨hs, rfl⟩

lemma onTasks {α : Type} {f : Tasks → WorkerM α} {Q : α → Worker → Prop}
    (h : ∀ t, Triple (fun s => P s ∧ t = s.lineage) (f t) Q E) : Triple P (getTasks >>= f) Q E :=
  .bind triple_readTasks h

lemma triple_seeTasks : Triple P getTasks (fun _ => P) E := triple_getTasks fun _ hs => hs

lemma triple_modifyTasks {Q : Unit → Worker → Prop} {f : Tasks → Tasks}
    (h : ∀ s, P s → Q () { s with lineage := f s.lineage }) : Triple P (modifyTasks f) Q E :=
  fun s hs => h s hs

lemma triple_findTask {Q : TaskEntry → Worker → Prop} {e : Check} {id : TaskID}
    (h : ∀ s entry, P s → s.lineage.submissibleTasks.lookup id = some entry → Q entry s)
    (hn : ∀ s, P s → s.lineage.submissibleTasks.lookup id = none → E e s) :
    Triple P (findTask e id) Q E := by
  refine onTasks fun t => ?_
  cases ht : t.submissibleTasks.lookup id with
  | none => exact .throw fun s hs => hn s hs.1 (hs.2 ▸ ht)
  | some => exact .pure fun s hs => h s _ hs.1 (hs.2 ▸ ht)

def Output.isRetryOf (id : TaskID) : Output → Bool
  | .retryTask x _ => x == id
  | _ => false

def Output.resolution : Output → Option (TaskID × Bool)
  | .resolved id ok => some (id, ok)
  | _ => none

def Stable (J : Tasks → Prop) : Prop := ∀ id t, J t → J (t.removeLineageReference id).2.2

lemma Stable.released (hJ : Stable J) {a b : Tasks} (h : cfg.counter.Released a b) (ha : J a) : J b := by
  induction h with
  | refl => exact ha
  | tail _ hstep ih =>
    obtain ⟨f, hf, id, rfl⟩ := hstep
    obtain rfl : Tasks.removeLineageReference = f := Option.some.inj hf
    exact hJ id _ ih

lemma Stable.triple (hJ : Stable J) {α : Type} {x : WorkerM α}
    {E : Check → Prop} (h : Steps (LineageStep cfg.counter) E x) :
    Triple (fun s => J s.lineage) x (fun _ s => J s.lineage) fun e _ => E e :=
  h.triple fun _ _ _ hs hst => hJ.released hst hs

lemma triple_lineageStep (hJ : Stable J) {α : Type} {x : WorkerM α}
    {F : Check → Prop} (h : Steps (LineageStep cfg.counter) F x) :
    Partly (fun s => J s.lineage) x fun _ s => J s.lineage :=
  (hJ.triple h).weaken fun _ _ _ => trivial

lemma stable_and {K : Tasks → Prop} (hJ : Stable J) (hK : Stable K) :
    Stable fun t => J t ∧ K t := fun id t h => ⟨hJ id t h.1, hK id t h.2⟩

/-- A property that composes and that ordinary calls and outputs have, other than the retries and the resolved tasks. -/
structure ReplyLogic (cfg : WorkerConfig) (K : (α : Type) → WorkerM α → Prop) : Prop
    extends Composes K where
  call : ∀ {α : Type} {x : WorkerM α}, OrdinaryCall cfg.counter x → K α x
  output : ∀ o : Output, (∀ id, o.isRetryOf id = false) → o.resolution = none → K Unit (output o)

lemma ReplyLogic.handleReturnObject (h : ReplyLogic cfg K)
    (workerAddr : WorkerAddress) (nodeAlive : Bool) (storeInPlasmaIds directReturnIds : List ObjectID)
    (object : ReturnObject) : K (List ObjectID)
      (handleReturnObject cfg workerAddr nodeAlive storeInPlasmaIds directReturnIds object) := by
  refine h.seq (h.call fun K hc => hc.updateObjectSize _ _) ?_
  refine h.seq (h.ite (fun _ => h.ite (fun _ => ?_) fun _ => ?_) fun _ => ?_) ?_
  · exact h.seq (h.call fun K hc => hc.updateObjectPinnedAtRaylet _ _) (h.output _ (fun _ => rfl) rfl)
  · exact h.output _ (fun _ => rfl) rfl
  · refine h.output _ (fun id => ?_) ?_ <;> split <;> rfl
  refine h.bind (h.call fun K hc => hc.bind hc.find fun o => ?_) fun owner => ?_
  · cases o <;> exact hc.pure _
  refine h.seq (h.onlyIf fun _ => h.call fun K hc => ?_) (h.pure _)
  exact hc.forM (hc.addNestedObjectIdsInternal _ _) _

lemma ReplyLogic.markPendingTaskFailed (h : ReplyLogic cfg K) (spec : TaskSpec) : K Unit (markPendingTaskFailed spec) :=
  h.forM (fun _ => h.output _ (fun _ => rfl) rfl) _

/-- A property that composes and that every change of the tasks and every call into the counter has. -/
structure WorkerLogic (cfg : WorkerConfig) (K : (α : Type) → WorkerM α → Prop) : Prop
    extends Composes K where
  throw : ∀ {α : Type} (e : Check), K α (MonadExcept.throw e)
  getTasks : K Tasks getTasks
  modifyTasks : ∀ f, K Unit (modifyTasks f)
  taskCall : ∀ {α : Type} {x : WorkerM α}, (∀ K, TaskCallLogic cfg.counter K → K α x) → K α x

namespace WorkerLogic

variable {K : (α : Type) → WorkerM α → Prop} (h : WorkerLogic cfg K) (id : TaskID)
include h

lemma toReplyLogic : ReplyLogic cfg K where
  toComposes := h.toComposes
  call hx := h.taskCall fun K hK => hx K hK.toCallLogic
  output _ _ _ := h.modifyTasks _

lemma check {e : Check} {c : Prop} [Decidable c] : K Unit (check e c) := h.ite (fun _ => h.pure ()) fun _ => h.throw e

lemma findTask (e : Check) (id : TaskID) : K TaskEntry (findTask e id) := by
  refine h.bind h.getTasks fun t => ?_
  cases t.submissibleTasks.lookup id with
  | none => exact h.throw e
  | some => exact h.pure _

lemma addPendingTask (callerAddress : WorkerAddress) (spec : TaskSpec) (maxRetries : Int) :
    K Unit (addPendingTask cfg callerAddress spec maxRetries) := by
  refine h.seq (h.taskCall fun K hK => hK.updateSubmittedTaskReferences _ _) ?_
  refine h.seq (h.taskCall fun K hK => hK.forM (fun id => hK.addOwnedObject id _ _ _ _ _) _) ?_
  exact h.bind h.getTasks fun _ => h.seq h.check (h.modifyTasks _)

lemma resubmitTask : K Bool (resubmitTask cfg id) := by
  refine h.bind h.getTasks fun t => ?_
  cases t.submissibleTasks.lookup id with
  | none => exact h.pure false
  | some =>
    refine h.ite (fun _ => h.pure true) fun _ => h.seq (h.modifyTasks _) ?_
    refine h.seq h.check (h.bind h.getTasks fun t => ?_)
    have hcall := fun ids => h.taskCall fun K hK => hK.updateResubmittedTaskReferences ids
    refine h.seq (h.onlyIf fun _ => hcall _) (h.seq (h.onlyIf fun _ => hcall _) ?_)
    exact h.seq (h.modifyTasks _) (h.pure true)

lemma completePendingTask (reply : PushTaskReply) (workerAddr : WorkerAddress)
    (nodeAlive : Bool) : K Unit (completePendingTask cfg id reply workerAddr nodeAlive) := by
  refine h.bind (h.findTask _ id) fun entry => ?_
  refine h.bind (h.foldlM (h.toReplyLogic.handleReturnObject _ _ _) _ _) fun direct => ?_
  refine h.bind (h.findTask _ id) fun entry => h.seq (h.modifyTasks _) ?_
  refine h.bind h.getTasks fun t => h.seq ?_ (h.seq (h.onlyIf fun _ => ?_) (h.modifyTasks _))
  · exact h.taskCall fun K hK => hK.updateFinishedTaskReferences _ _ _ _
  · exact h.seq (h.taskCall fun K hK => hK.evictLineage _) (h.pure ())

lemma retryTaskIfPossible : K Bool (retryTaskIfPossible id) := by
  refine h.bind (h.findTask _ id) fun entry => h.seq h.check (h.seq h.check ?_)
  refine h.seq (h.modifyTasks _) (h.seq (h.onlyIf fun _ => ?_) (h.pure _))
  exact h.modifyTasks _

lemma pendingTaskFailed (immediatelyMarkObjectFail : Bool) :
    K Bool (pendingTaskFailed cfg id immediatelyMarkObjectFail) := by
  refine h.bind (h.retryTaskIfPossible id) fun willRetry => h.bind (h.findTask _ id) fun entry => ?_
  refine h.seq h.check (h.seq (h.onlyIf fun _ => ?_) (h.seq (h.modifyTasks _) (h.pure willRetry)))
  refine h.seq (h.modifyTasks _) (h.bind h.getTasks fun t => h.seq ?_ ?_)
  · exact h.taskCall fun K hK => hK.updateFinishedTaskReferences _ _ _ _
  · exact h.onlyIf fun _ => h.toReplyLogic.markPendingTaskFailed _

lemma markTaskCanceled : K Bool (markTaskCanceled id) := by
  refine h.bind h.getTasks fun t => ?_
  cases t.submissibleTasks.lookup id with
  | none => exact h.pure false
  | some => exact h.seq (h.modifyTasks _) (h.pure true)

lemma submitTask (isActorInRegistering : ActorID → Bool) (id : TaskID) :
    K Unit (submitTask cfg isActorInRegistering id) := by
  refine h.seq (h.modifyTasks _) (h.bind h.getTasks fun t => ?_)
  exact h.ite (fun _ => h.modifyTasks _) fun _ => h.modifyTasks _

lemma dependencyFetched (i : Nat) (id : ObjectID) (object : RayObject) :
    K Unit (dependencyFetched cfg i id object) := by
  refine h.bind h.getTasks fun t => h.forM (fun state => h.seq (h.modifyTasks _) ?_) _
  refine h.onlyIf fun _ => h.bind ?_ fun inlined => h.seq (h.onlyIf fun _ => ?_) ?_
  · refine h.bind h.getTasks fun _ => h.seq h.check (h.seq (h.modifyTasks _) ?_)
    exact h.seq h.check (h.pure _)
  · exact h.taskCall fun K hK => hK.updateSubmittedTaskReferences _ _
  · exact h.onlyIf fun _ => h.modifyTasks _

lemma run (op : WorkerOp) : K Unit (op.run cfg) := by
  cases op with
  | addPendingTask callerAddress spec maxRetries =>
    exact h.addPendingTask callerAddress spec maxRetries
  | submitTask => exact h.submitTask _ _
  | dependencyFetched i => exact h.dependencyFetched i _ _
  | actorRegistered =>
    refine h.bind h.getTasks fun t => h.forM (fun state => h.seq (h.modifyTasks _) ?_) _
    exact h.onlyIf fun _ => h.modifyTasks _
  | completePendingTask id reply workerAddr nodeAlive =>
    exact h.completePendingTask id reply workerAddr nodeAlive
  | retryTaskIfPossible => exact h.seq (h.retryTaskIfPossible _) (h.pure ())
  | pendingTaskFailed id immediatelyMarkObjectFail =>
    exact h.seq (h.pendingTaskFailed id immediatelyMarkObjectFail) (h.pure ())
  | resubmitTask => exact h.seq (h.resubmitTask _) (h.pure ())
  | markTaskCanceled => exact h.seq (h.markTaskCanceled _) (h.pure ())
  | drainAndShutdown =>
    unfold WorkerOp.run TaskManager.drainAndShutdown
    exact h.modifyTasks _
  | counter => exact h.taskCall fun K hK => hK.run _

end WorkerLogic

def exampleWorker : WorkerConfig where
  rpcAddress := ⟨0, 0⟩
  lineagePinningEnabled := true
  stackDepth := 8
  maxLineageBytes := 1000
  byteSizeLong _ := 1
  byteSizeLong_pos _ := Nat.one_pos
  toActorID _ := none

end AmazonRay.TaskManager
