import AmazonRay.TaskManager.Coherence

/-! The retry state of `TaskManager` is coherent as long as only pending tasks are canceled. -/
namespace AmazonRay.TaskManager
open Program ReferenceCounter Tasks

variable {strict : Bool} {cfg : WorkerConfig} {o : Output} {t : Tasks} {e : Check} (id : TaskID)

def MayStop (strict : Bool) (e : Check) (_ : Worker) : Prop :=
  strict = true → e ≠ .resubmitRetriesLeft

abbrev KeepsCoherent (strict : Bool) {α : Type} (x : WorkerM α) : Prop :=
  Triple (fun s => s.lineage.Coherent strict) x (fun _ s => s.lineage.Coherent strict)
    (MayStop strict)

lemma mayStop_of_ofTaskManager (he : e.ofTaskManager = false) (s : Worker) :
    MayStop strict e s := by
  rintro _ rfl
  cases he

lemma triple_counter {J : Tasks → Prop} (hJ : Stable J) {α : Type} {x : WorkerM α}
    (h : Steps (LineageStep cfg.counter) (fun e => e.ofTaskManager = false) x) :
    Triple (fun s => J s.lineage) x (fun _ s => J s.lineage) (MayStop strict) :=
  (hJ.triple h).weaken fun _ s he => mayStop_of_ofTaskManager he s

lemma keepsCoherent_modifyTasks {f : Tasks → Tasks} (h : ∀ t : Tasks, t.Coherent strict → (f t).Coherent strict) :
    KeepsCoherent strict (modifyTasks f) := triple_modifyTasks fun s hs => h s.lineage hs

lemma Tasks.Coherent.output (h : t.Coherent strict) (ho : ∀ id, o.isRetryOf id = false) :
    Tasks.Coherent strict { t with outputs := t.outputs ++ [o] } := by
  refine h.of_same rfl rfl rfl rfl fun id => ?_
  rw [retries, List.countP_append, retries]
  simp [ho id]

lemma keepsCoherent_output (ho : ∀ id, o.isRetryOf id = false) :
    KeepsCoherent strict (output o) := keepsCoherent_modifyTasks fun _ h => h.output ho

lemma keepsCoherent_shutdownIfNeeded : KeepsCoherent strict shutdownIfNeeded := by
  refine keepsCoherent_modifyTasks fun t h => ?_
  split
  · exact h.of_same rfl rfl rfl rfl fun _ => rfl
  · exact h

lemma triple_addPendingTask (callerAddress : WorkerAddress) (spec : TaskSpec) (maxRetries : Int)
    (hmax : -1 ≤ maxRetries) :
    Triple (fun s => s.lineage.Coherent strict ∧ spec.taskId ∉ s.lineage.added.map Prod.fst)
      (addPendingTask cfg callerAddress spec maxRetries) (fun _ s => s.lineage.Coherent strict)
      (MayStop strict) := by
  have hc := callLogic_lineage cfg.counter
  have hJ := stable_and (stable_coherent strict) (stable_notAdded spec.taskId)
  refine .seq (triple_counter hJ ((taskCallLogic_lineage _).updateSubmittedTaskReferences _ _)) ?_
  refine .seq (triple_counter hJ (hc.forM (fun id => hc.addOwnedObject id _ _ _ _ _) _)) ?_
  refine onTasks fun t => ?_
  refine .seq (.checked fun _ _ _ _ => by decide) (triple_modifyTasks ?_)
  rintro s ⟨⟨hs, rfl⟩, hn⟩
  exact hs.1.addTask hs.2 hn hmax

abbrev CoherentPending (strict : Bool) (id : TaskID) (s : Worker) : Prop :=
  s.lineage.Coherent strict ∧ s.lineage.isTaskPending id = true

lemma triple_completePendingTask (reply : PushTaskReply) (workerAddr : WorkerAddress) (nodeAlive : Bool) :
    Triple (CoherentPending strict id)
      (completePendingTask cfg id reply workerAddr nodeAlive)
      (fun _ s => s.lineage.Coherent strict) (MayStop strict) := by
  have hc := callLogic_lineage cfg.counter
  have hJ := stable_and (stable_coherent strict) (stable_isTaskPending id)
  have hK : ReplyLogic cfg fun α x => Triple (CoherentPending strict id) x
      (fun _ => CoherentPending strict id)
      (MayStop strict) :=
    { toComposes := composes_triple _ _
      call := fun hx => triple_counter hJ (hx _ hc)
      output := fun o ho _ => triple_modifyTasks fun s hs => ⟨hs.1.output ho, hs.2⟩ }
  refine .bind (triple_findTask (fun _ _ hs _ => hs) fun _ _ _ _ => by decide) fun entry => ?_
  refine .bind (hK.foldlM (hK.handleReturnObject _ _ _) _ _) fun direct => ?_
  refine .bind (triple_findTask (Q := fun e s => s.lineage.Coherent strict ∧
    s.lineage.submissibleTasks.lookup id = some e ∧ e.pending = true) (fun s e hs he => ?_)
    fun _ _ _ _ => by decide) fun entry => ?_
  · obtain ⟨e', he', hp⟩ := isTaskPending_iff.mp hs.2
    obtain rfl : e = e' := Option.some.inj (he.symm.trans he')
    exact ⟨hs.1, he, hp⟩
  refine .seq (triple_modifyTasks (Q := fun _ s => s.lineage.Coherent strict)
    fun s hs => hs.1.finish hs.2.1 hs.2.2 direct) ?_
  have hcoh := composes_triple (fun s : Worker => s.lineage.Coherent strict) (MayStop strict)
  refine hcoh.bind triple_seeTasks fun t => ?_
  refine hcoh.seq (triple_counter (stable_coherent strict)
    ((taskCallLogic_lineage _).updateFinishedTaskReferences _ _ _ _)) ?_
  refine hcoh.seq (hcoh.onlyIf fun _ => ?_) keepsCoherent_shutdownIfNeeded
  exact triple_counter (stable_coherent strict) (hc.seq (hc.evictLineage _) (hc.pure ()))

lemma Tasks.Coherent.credit (h : t.Coherent strict) {id : TaskID} {e : TaskEntry}
    (he : t.submissibleTasks.lookup id = some e) (hl : e.numRetriesLeft ≠ 0) :
    t.Credit id (if 0 < e.numRetriesLeft then e.numRetriesLeft - 1 else e.numRetriesLeft) := by
  intro n hn h0
  have hb := h.budget id n hn h0
  rw [retriesLeft_of_lookup he] at hb
  split <;> omega

lemma triple_retryTaskIfPossible :
    Triple (CoherentPending strict id) (retryTaskIfPossible id)
      (fun _ => CoherentPending strict id)
      (MayStop strict) := by
  refine .bind (triple_findTask (Q := fun e s => s.lineage.Coherent strict ∧
    s.lineage.submissibleTasks.lookup id = some e) (fun _ _ hs he => ⟨hs.1, he⟩)
    fun _ _ _ _ => by decide) fun e => ?_
  refine .seq (.checked fun _ _ _ _ => by decide) ?_
  refine .seq (.checked fun _ _ _ _ => by decide) ?_
  refine .seq (triple_modifyTasks (Q := fun _ s => s.lineage.Coherent strict ∧
    s.lineage.PendingWith id e.useRetry.numRetriesLeft ∧
    (e.numRetriesLeft ≠ 0 → s.lineage.Credit id e.useRetry.numRetriesLeft))
    ?_) ?_
  · rintro s ⟨⟨⟨hs, he⟩, hp⟩, _⟩
    refine ⟨hs.useRetry he hp, ⟨e.useRetry, ?_, hp, rfl⟩, hs.credit he⟩
    rw [withEntry, Table.lookup_insert, if_pos rfl]
  have hpend : ∀ (t : Tasks) left, t.PendingWith id left → t.isTaskPending id = true := by
    rintro t _ ⟨e', he', hp', _⟩
    exact isTaskPending_iff.mpr ⟨e', he', hp'⟩
  refine .bind (.onlyIf (fun hl => triple_modifyTasks fun s hs => ?_)
    fun _ s hs => ⟨hs.1, hpend _ _ hs.2.1⟩) fun _ => .skip
  exact ⟨hs.1.giveToRetry true hs.2.1 (hs.2.2 hl), hpend _ _ hs.2.1⟩

lemma replyLogic_coherent (strict : Bool) (cfg : WorkerConfig) : ReplyLogic cfg fun _ x => KeepsCoherent strict x where
  toComposes := composes_triple _ _
  call hx := triple_counter (stable_coherent strict) (hx _ (callLogic_lineage cfg.counter))
  output _ ho _ := keepsCoherent_output ho

lemma triple_pendingTaskFailed (immediatelyMarkObjectFail : Bool) :
    Triple (CoherentPending strict id)
      (pendingTaskFailed cfg id immediatelyMarkObjectFail)
      (fun _ s => s.lineage.Coherent strict) (MayStop strict) := by
  have h := replyLogic_coherent strict cfg
  refine .bind (triple_retryTaskIfPossible id) fun willRetry => ?_
  refine .bind (triple_findTask (fun _ _ hs _ => hs) fun _ _ _ _ => by decide) fun e => ?_
  refine .seq (.checked fun _ _ _ _ => by decide) ?_
  refine .bind (.onlyIf (fun _ => ?_) fun _ _ hs => hs.1.1) fun _ =>
    h.seq keepsCoherent_shutdownIfNeeded (h.pure willRetry)
  refine .bind (triple_modifyTasks fun s hs => hs.1.1.forget hs.1.2) fun _ => h.bind triple_seeTasks fun t => ?_
  refine h.seq (triple_counter (stable_coherent strict)
    ((taskCallLogic_lineage _).updateFinishedTaskReferences _ _ _ _)) ?_
  exact h.onlyIf fun _ => h.markPendingTaskFailed _

lemma keepsCoherent_resubmitTask : KeepsCoherent strict (resubmitTask cfg id) := by
  refine onTasks fun t => ?_
  cases he : t.submissibleTasks.lookup id with
  | none => exact .pure fun _ hs => hs.1
  | some e =>
    refine .ite (fun _ => .pure fun _ hs => hs.1) fun hp => ?_
    have hp : e.pending = false := Bool.eq_false_iff.mpr hp
    let left := if 0 < e.numRetriesLeft then e.numRetriesLeft - 1 else e.numRetriesLeft
    let J : Tasks → Prop := fun t => (t.Coherent strict ∧ t.PendingWith id left) ∧ t.Credit id left
    have hJ : Stable J := stable_and (stable_and (stable_coherent strict) (stable_pendingWith id left))
      (stable_credit id left)
    refine .seq (triple_modifyTasks (Q := fun _ s => (s.lineage.Coherent strict ∧
      s.lineage.PendingWith id left) ∧ (e.numRetriesLeft ≠ 0 → s.lineage.Credit id left) ∧
      (strict = true → e.numRetriesLeft ≠ 0) ∧ -1 ≤ e.numRetriesLeft) ?_) ?_
    · rintro s ⟨hs, rfl⟩
      have hok := (hs.entries id e he).1
      refine ⟨⟨hs.markResubmitted he hp, { e with
        pending := true, lineageFootprintBytes := 0, numRetriesLeft := left }, ?_, rfl, rfl⟩,
        hs.credit he, fun hstrict => hok.retryable hstrict hp, hok.left⟩
      rw [markResubmitted, Table.lookup_insert, if_pos rfl]
    refine .seq (.check (Q := fun _ s => J s.lineage) (fun hl s hs => ?_) fun hl s hs hstrict => ?_) ?_
    · exact ⟨hs.1, hs.2.1 (by omega)⟩
    · have := hs.2.2.1 hstrict
      omega
    have h := composes_triple (fun s : Worker => J s.lineage) (MayStop strict)
    refine .bind (triple_getTasks (Q := fun _ s => J s.lineage) fun _ hs => hs) fun t => ?_
    refine .seq (h.onlyIf fun _ => triple_counter hJ ((taskCallLogic_lineage _).updateResubmittedTaskReferences _)) ?_
    refine .seq (h.onlyIf fun _ => triple_counter hJ ((taskCallLogic_lineage _).updateResubmittedTaskReferences _)) ?_
    refine .bind (triple_modifyTasks fun s hs => ?_) fun _ => .skip
    exact hs.1.1.giveToRetry false hs.1.2 hs.2

lemma triple_markTaskCanceled : Triple (fun s => s.lineage.Coherent strict ∧ (strict = true →
        (s.lineage.submissibleTasks.lookup id).all TaskEntry.pending = true))
      (markTaskCanceled id) (fun _ s => s.lineage.Coherent strict) (MayStop strict) := by
  refine onTasks fun t => ?_
  cases he : t.submissibleTasks.lookup id with
  | none => exact .pure fun _ hs => hs.1.1
  | some e =>
    refine .bind (triple_modifyTasks ?_) fun _ => .skip
    rintro s ⟨hs, rfl⟩
    refine hs.1.cancel he fun hstrict => ?_
    have hall := hs.2 hstrict
    rwa [he] at hall

lemma keepsCoherent_check {c : Prop} [Decidable c] (he : e ≠ .resubmitRetriesLeft) :
    KeepsCoherent strict (check e c) := .check (fun _ _ hs => hs) fun _ _ _ _ => he

lemma keepsCoherent_getTasks : KeepsCoherent strict getTasks := triple_seeTasks

lemma keepsCoherent_submitTask (isActorInRegistering : ActorID → Bool) (id : TaskID) :
    KeepsCoherent strict (submitTask cfg isActorInRegistering id) := by
  have h := replyLogic_coherent strict cfg
  refine h.seq (keepsCoherent_modifyTasks fun t ht => ?_) ?_
  · exact ht.of_same rfl rfl rfl rfl fun _ => rfl
  refine h.bind keepsCoherent_getTasks fun t => h.ite (fun _ => keepsCoherent_output fun _ => rfl) fun _ => ?_
  exact keepsCoherent_modifyTasks fun t ht => ht.of_same rfl rfl rfl rfl fun _ => rfl

lemma keepsCoherent_complete (state : TaskState) : KeepsCoherent strict (complete state) :=
  (composes_triple _ _).onlyIf fun _ => keepsCoherent_output fun _ => rfl

lemma keepsCoherent_putState (i : Nat) (state : TaskState) : KeepsCoherent strict (putState i state) :=
  keepsCoherent_modifyTasks fun _ ht => ht.of_same rfl rfl rfl rfl fun _ => rfl

lemma keepsCoherent_dependencyFetched (i : Nat) (id : ObjectID) (object : RayObject) :
    KeepsCoherent strict (dependencyFetched cfg i id object) := by
  have h := replyLogic_coherent strict cfg
  refine h.bind keepsCoherent_getTasks fun t => h.forM (fun state => ?_) _
  refine h.seq (keepsCoherent_putState i _) (h.onlyIf fun _ => h.bind ?_ fun inlined => ?_)
  · refine h.bind keepsCoherent_getTasks fun t => ?_
    refine h.seq (keepsCoherent_check (by decide)) (h.seq ?_ ?_)
    · exact keepsCoherent_modifyTasks fun _ ht => ht.of_same rfl rfl rfl rfl fun _ => rfl
    · exact h.seq (keepsCoherent_check (by decide)) (h.pure _)
  refine h.seq (h.onlyIf fun _ => ?_) (keepsCoherent_complete _)
  exact triple_counter (stable_coherent strict) ((taskCallLogic_lineage _).updateSubmittedTaskReferences _ _)

lemma keepsCoherent_actorRegistered (i : Nat) (ok : Bool) : KeepsCoherent strict (actorRegistered i ok) := by
  have h := composes_triple (fun s : Worker => s.lineage.Coherent strict) (MayStop strict)
  refine h.bind keepsCoherent_getTasks fun t => h.forM (fun state => ?_) _
  exact h.seq (keepsCoherent_putState i _) (keepsCoherent_complete _)

lemma keepsCoherent_drainAndShutdown : KeepsCoherent strict drainAndShutdown := by
  refine keepsCoherent_modifyTasks fun t h => ?_
  split <;> exact h.of_same rfl rfl rfl rfl fun _ => rfl

def CancelsPending (op : WorkerOp) (s : Worker) : Prop :=
  match op with
  | .markTaskCanceled id => (s.lineage.submissibleTasks.lookup id).all TaskEntry.pending = true
  | _ => True

instance (op : WorkerOp) (s : Worker) : Decidable (CancelsPending op s) := by
  induction op using WorkerOp.casesOn <;> (unfold CancelsPending; infer_instance)

lemma triple_run_coherent (op : WorkerOp) : Triple (fun s => s.lineage.Coherent strict ∧ op.Enabled s.lineage ∧
        (strict = true → CancelsPending op s))
      (op.run cfg) (fun _ s => s.lineage.Coherent strict) (MayStop strict) := by
  have h := replyLogic_coherent strict cfg
  cases op with
  | addPendingTask callerAddress spec maxRetries =>
    by_cases hmax : -1 ≤ maxRetries
    · exact (triple_addPendingTask callerAddress spec maxRetries hmax).pre fun _ hs => ⟨hs.1, hs.2.1.1⟩
    · exact fun s hs => absurd hs.2.1.2 hmax
  | submitTask id isActorInRegistering =>
    exact (keepsCoherent_submitTask isActorInRegistering id).pre fun _ hs => hs.1
  | dependencyFetched i id object =>
    exact (keepsCoherent_dependencyFetched i id object).pre fun _ hs => hs.1
  | actorRegistered i ok => exact (keepsCoherent_actorRegistered i ok).pre fun _ hs => hs.1
  | completePendingTask id reply workerAddr nodeAlive =>
    exact (triple_completePendingTask id reply workerAddr nodeAlive).pre fun _ hs => ⟨hs.1, hs.2.1⟩
  | retryTaskIfPossible id =>
    exact .bind ((triple_retryTaskIfPossible id).pre fun _ hs => ⟨hs.1, hs.2.1⟩) fun _ => .pure fun _ hs => hs.1
  | pendingTaskFailed id immediatelyMarkObjectFail =>
    exact .bind ((triple_pendingTaskFailed id immediatelyMarkObjectFail).pre
      fun _ hs => ⟨hs.1, hs.2.1⟩) fun _ => h.pure ()
  | resubmitTask id =>
    exact .bind ((keepsCoherent_resubmitTask id).pre fun _ hs => hs.1) fun _ => h.pure ()
  | markTaskCanceled id =>
    exact .bind ((triple_markTaskCanceled id).pre fun _ hs => ⟨hs.1, hs.2.2⟩) fun _ => h.pure ()
  | drainAndShutdown => exact keepsCoherent_drainAndShutdown.pre fun _ hs => hs.1
  | counter op =>
    by_cases hop : op.ofTasks = false
    · exact (h.call fun K hc => hc.run op hop).pre fun _ hs => hs.1
    · exact fun s hs => absurd hs.2.1 hop

lemma coherent_initial : Tasks.Coherent strict {} := by
  refine ⟨rfl, rfl, fun id e he => ?_, fun id e he => ?_, fun _ _ => rfl, fun id n hn => ?_⟩
  · cases he
  · cases he
  · cases hn

lemma Reachable.coherent {Allowed : WorkerOp → Worker → Prop} {s : Worker}
    (hA : ∀ op s, Allowed op s → strict = true → CancelsPending op s)
    (h : Reachable cfg Allowed s) : s.lineage.Coherent strict := by
  refine h.invariant (I := fun s => s.lineage.Coherent strict) coherent_initial fun op s hop hs =>
    (triple_run_coherent op).pre fun _ ht => ?_
  exact ht ▸ ⟨hs, hop.1, hA op s hop.2⟩

/-- The retry state of `TaskManager`, in every run that cancels only pending tasks. -/
theorem retryState_of_cancelsPending (cfg : WorkerConfig) (s : Worker)
    (h : Reachable cfg CancelsPending s) :
    (∀ id e, s.lineage.submissibleTasks.lookup id = some e → e.pending = false →
      e.numRetriesLeft ≠ 0 ∧ e.reconstructableReturnIds ≠ []) ∧
    (∀ op : WorkerOp, op.Enabled s.lineage → CancelsPending op s →
      stopped (op.run cfg) s ≠ some .resubmitRetriesLeft) ∧
    s.lineage.numPendingTasks =
      (s.lineage.submissibleTasks.entries.filter fun e => e.2.pending).length ∧
    s.lineage.totalLineageFootprintBytes =
      ((s.lineage.submissibleTasks.entries.filter fun e => !e.2.pending).map
        fun e => e.2.lineageFootprintBytes).sum ∧
    ∀ id n, (id, n) ∈ s.lineage.added → 0 ≤ n → (s.lineage.retries id : Int) ≤ n := by
  have hc : s.lineage.Coherent true := h.coherent fun _ _ ha _ => ha
  refine ⟨fun id e he hp => ?_, fun op hen hal hstop => ?_, ?_, ?_, fun id n hn h0 => ?_⟩
  · obtain ⟨hok, _⟩ := hc.entries id e he
    exact ⟨hok.retryable rfl hp, (hok.finished hp).1⟩
  · obtain ⟨_, hne⟩ := (triple_run_coherent op).stopped ⟨hc, hen, fun _ => hal⟩ hstop
    exact hne rfl rfl
  · have hsum := Table.total_filter (fun _ (e : TaskEntry) => e.pending) (fun _ _ => (1 : Int))
      s.lineage.submissibleTasks
    refine hc.pendingTasks.trans (hsum.trans ?_)
    simp
  · refine hc.lineageBytes.trans (Eq.trans ?_ (Table.total_filter
      (fun _ (e : TaskEntry) => !e.pending) (fun _ e => e.lineageFootprintBytes) _))
    refine Table.total_congr fun _ e _ => ?_
    cases hp : e.pending <;> simp [TaskEntry.lineageBytes, hp]
  · obtain ⟨hleft, hle⟩ := hc.budget id n hn h0
    omega

def finishedTask : List WorkerOp :=
  [.addPendingTask ⟨0, 0⟩ { taskId := 1 } 1, .counter (.addLocalReference ⟨1, 1⟩),
    .submitTask 1 fun _ => false,
    .completePendingTask 1 { returnObjects := [{ objectId := ⟨1, 1⟩, inPlasma := true }] } ⟨1, 0⟩ true]

/-- The finished task is canceled and keeps its entry with no retries left, so that
the recovery of its object fails the check of `ResubmitTask`. -/
theorem canceledFinishedTask_check_fails : ∃ s, Reachable exampleWorker (fun _ _ => True) s ∧
    (s.lineage.submissibleTasks.lookup 1).map
      (fun e => (e.pending, e.numRetriesLeft)) = some (false, 0) ∧
    stopped ((WorkerOp.resubmitTask 1).run exampleWorker) s = some .resubmitRetriesLeft := by
  refine exists_after (finishedTask ++ [.markTaskCanceled 1])
    (fun s => ((s.lineage.submissibleTasks.lookup 1).map (fun e => (e.pending, e.numRetriesLeft)),
      stopped ((WorkerOp.resubmitTask 1).run exampleWorker) s))
    (some (false, 0), some .resubmitRetriesLeft) (by decide +kernel) fun s _ heq => ?_
  exact ⟨congrArg Prod.fst heq, congrArg Prod.snd heq⟩

theorem resubmittedTask_retried_once : ∃ s, Reachable exampleWorker CancelsPending s ∧
    s.lineage.retries 1 = 1 ∧ (s.lineage.retries 1 : Int) ≤ 1 := by
  refine exists_after (finishedTask ++ [.resubmitTask 1]) (fun s => (s.lineage.retries 1, s.lineage.added))
    (1, [(1, 1)]) (by decide +kernel) fun s hs heq => ?_
  have hadded : s.lineage.added = [(1, 1)] := congrArg Prod.snd heq
  refine ⟨congrArg Prod.fst heq, ?_⟩
  exact (retryState_of_cancelsPending exampleWorker s hs).2.2.2.2 1 1
    (hadded ▸ List.mem_singleton.mpr rfl) (by decide)

end AmazonRay.TaskManager
