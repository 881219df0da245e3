import AmazonRay.TaskManager.Balance
import AmazonRay.TaskManager.Coherence

/-! If arguments are inlined only for tasks that count, the references of tasks are conserved. -/
namespace AmazonRay.TaskManager
open Program ReferenceCounter Table Function Tasks List

section

variable {lin : Bool} {t : Tasks} {id : TaskID} {e : TaskEntry} {o : ObjectID}

def Tasks.usesOf (lin : Bool) (t : Tasks) (id : TaskID) (o : ObjectID) : Nat :=
  if lin then 0 else (t.messages id).dependencies.count o

variable {e' : TaskEntry}

lemma Tasks.uses_addTask {spec : TaskSpec} (maxRetries : Int) (hnone : t.submissibleTasks.lookup spec.taskId = none) :
    (t.addTask spec maxRetries).uses lin o = t.uses lin o + spec.dependencies.count o := by
  rw [uses, addTask, total_insert, total_erase_of_lookup_none hnone]
  dsimp only
  rw [update_self, Bool.or_true, if_pos rfl, Nat.add_comm]
  refine congrArg (· + _) (total_congr fun k a hk => ?_)
  have hne : k ≠ spec.taskId := by
    rintro rfl
    cases hnone.symm.trans hk
  rw [update_of_ne hne]

variable (he : t.submissibleTasks.lookup id = some e)
include he

lemma Tasks.uses_markResubmitted (hp : e.pending = false) :
    (t.markResubmitted id e).uses lin o = t.uses lin o + t.usesOf lin id o := by
  rw [uses, markResubmitted, total_insert, uses, total_of_lookup he, usesOf]
  cases lin <;> simp [hp, Nat.add_comm]

lemma Tasks.uses_withEntry (hp : e'.pending = e.pending) : (t.withEntry id e').uses lin o = t.uses lin o := by
  rw [uses, withEntry, total_insert, uses, total_of_lookup he, hp]

lemma Tasks.uses_forget (hp : e.pending = true) :
    (t.forget id).uses lin o + (t.messages id).dependencies.count o = t.uses lin o := by
  rw [uses, forget, uses, total_of_lookup he, hp, Bool.or_true, if_pos rfl, Nat.add_comm]

lemma Tasks.uses_finish {cfg : WorkerConfig} (hp : e.pending = true) (hp' : e'.pending = false) :
    ((t.finish cfg id e').uses lin o : Int) +
      due lin (!e'.retryable) (t.messages id).dependencies o = t.uses lin o := by
  unfold finish due
  cases hr : e'.retryable with
  | false =>
    rw [← t.uses_forget he hp]
    simp
  | true =>
    simp only [if_true]
    rw [uses, retain, total_insert, uses, total_of_lookup he]
    cases lin <;> simp [hp, hp', Int.add_comm]

end

section

variable {lin : Bool} {deps : AList fun _ : ObjectID => Option RayObject} {id : TaskID} {t : Tasks}

lemma count_inline (deps : AList fun _ : ObjectID => Option RayObject) (args : List TaskArg) (o : ObjectID) :
    ((args.map fun arg => (arg.inline deps).1).flatMap TaskArg.dependencies).count o +
        (args.flatMap fun arg => (arg.inline deps).2.1).count o =
      (args.flatMap TaskArg.dependencies).count o + (args.flatMap fun arg => (arg.inline deps).2.2).count o := by
  induction args with
  | nil => rfl
  | cons arg args ih =>
    have harg : (arg.inline deps).1.dependencies.count o + (arg.inline deps).2.1.count o =
        arg.dependencies.count o + (arg.inline deps).2.2.count o := by
      unfold TaskArg.inline
      split
      · rfl
      · split
        · split
          · rfl
          · simp only [TaskArg.dependencies]
            omega
        · rfl
    simp only [map_cons, flatMap_cons, count_append]
    omega

lemma inline_of_nil {arg : TaskArg}
    (h : (arg.inline deps).2.1 = []) : (arg.inline deps).1 = arg ∧ (arg.inline deps).2.2 = [] := by
  revert h
  unfold TaskArg.inline
  split
  · exact fun _ => ⟨rfl, rfl⟩
  · split
    · split
      · exact fun _ => ⟨rfl, rfl⟩
      · exact nofun
    · exact fun _ => ⟨rfl, rfl⟩

/-- The task counts: it is submissible, and pending where only pending tasks count. -/
def Tasks.countsTask (lin : Bool) (t : Tasks) (id : TaskID) : Bool :=
  (t.submissibleTasks.lookup id).any fun e => lin || e.pending

lemma Tasks.countsTask_iff : t.countsTask lin id = true ↔
    ∃ e, t.submissibleTasks.lookup id = some e ∧ (lin || e.pending) = true := by
  rw [countsTask]
  cases t.submissibleTasks.lookup id with
  | none => simp
  | some e => simp

def Tasks.inlinedIds (t : Tasks) (deps : AList fun _ : ObjectID => Option RayObject) (id : TaskID) :
    List ObjectID := (t.messages id).args.flatMap fun arg => (arg.inline deps).2.1

def Tasks.containedIds (t : Tasks) (deps : AList fun _ : ObjectID => Option RayObject)
    (id : TaskID) : List ObjectID := (t.messages id).args.flatMap fun arg => (arg.inline deps).2.2

lemma Tasks.inline_of_inlinedIds_nil
    (h : t.inlinedIds deps id = []) : t.inlineArgs id deps = t ∧ t.containedIds deps id = [] := by
  have hall : ∀ arg ∈ (t.messages id).args, (arg.inline deps).1 = arg ∧ (arg.inline deps).2.2 = [] :=
    fun arg harg => inline_of_nil (flatMap_eq_nil_iff.mp h arg harg)
  have hargs : ((t.messages id).args.map fun arg => (arg.inline deps).1) = (t.messages id).args :=
    (map_congr_left fun arg harg => (hall arg harg).1).trans (map_id _)
  refine ⟨?_, flatMap_eq_nil_iff.mpr fun arg harg => (hall arg harg).2⟩
  rw [inlineArgs, hargs]
  have hsame : update t.messages id (t.messages id) = t.messages := update_eq_self _ _
  cases t
  simp only [hsame]

lemma Tasks.uses_inlineArgs (h : t.inlinedIds deps id ≠ [] → t.countsTask lin id = true) (o : ObjectID) :
    (t.inlineArgs id deps).uses lin o + (t.inlinedIds deps id).count o =
      t.uses lin o + (t.containedIds deps id).count o := by
  by_cases hnil : t.inlinedIds deps id = []
  · obtain ⟨hsame, hcontained⟩ := inline_of_inlinedIds_nil hnil
    rw [hsame, hnil, hcontained]
  obtain ⟨e, he, hcount⟩ := countsTask_iff.mp (h hnil)
  have hrest : total (fun k a => if lin || a.pending then
      ((t.inlineArgs id deps).messages k).dependencies.count o else 0) (t.submissibleTasks.erase id) =
      total (fun k a => if lin || a.pending then (t.messages k).dependencies.count o else 0)
        (t.submissibleTasks.erase id) := by
    refine total_congr fun k a hk => ?_
    have hne : k ≠ id := by
      rintro rfl
      rw [lookup_erase, if_pos rfl] at hk
      cases hk
    have hmsg : (t.inlineArgs id deps).messages k = t.messages k := update_of_ne hne _ _
    rw [hmsg]
  have hself : ((t.inlineArgs id deps).messages id).dependencies.count o +
      (t.inlinedIds deps id).count o = (t.messages id).dependencies.count o +
      (t.containedIds deps id).count o := by
    have hargs := count_inline deps (t.messages id).args o
    have hmsg : (t.inlineArgs id deps).messages id = { t.messages id with
        args := (t.messages id).args.map fun arg => (arg.inline deps).1 } := update_self _ _ _
    rw [hmsg]
    simp only [TaskSpec.dependencies, TaskSpec.argDependencies, TaskSpec.actorCreationDummyObjectId,
      count_append, inlinedIds, containedIds]
    omega
  rw [uses, uses, total_of_lookup he]
  change total _ t.submissibleTasks + _ = _
  rw [total_of_lookup he, hrest, if_pos hcount, if_pos hcount]
  omega

end

section

variable {lin : Bool} {cfg : WorkerConfig} {d d' : ObjectID → Int} {s : Worker}

lemma Balanced.tasks (h : Balanced lin d s) {t : Tasks} (hrel : t.released = s.lineage.released)
    (hu : ∀ o, (s.lineage.uses lin o : Int) + d o = t.uses lin o + d' o) :
    Balanced lin d' { s with lineage := t } := by
  intro hreg o
  have hsame : lin = true → s.lineage.Regular := fun hl spec hspec => hreg hl spec (hrel ▸ hspec)
  exact (h hsame o).trans (hu o)

lemma Balanced.withTaskEntry (h : Balanced lin d s) {id : TaskID} {e : TaskEntry}
    (he : s.lineage.submissibleTasks.lookup id = some e) (hp : e'.pending = e.pending) :
    Balanced lin d { s with lineage := s.lineage.withEntry id e' } :=
  h.tasks rfl fun o => by rw [uses_withEntry he hp]

lemma triple_modify_same {f : Tasks → Tasks} (hr : ∀ t, (f t).released = t.released)
    (hu : ∀ t o, (f t).uses lin o = t.uses lin o) :
    BalancedTo lin (Balanced lin d) (modifyTasks f) d :=
  triple_modifyTasks fun _ hs => hs.tasks (hr _) fun o => by rw [hu]

lemma triple_output_balanced (o : Output) :
    BalancedTo lin (Balanced lin d) (output o) d :=
  triple_modify_same (fun _ => rfl) fun _ _ => rfl

lemma triple_shutdownIfNeeded : BalancedTo lin (Balanced lin d) shutdownIfNeeded d := by
  refine triple_modify_same (fun t => ?_) fun t o => ?_ <;> split <;> rfl

lemma mayFail_of_ofTaskManager {e : Check} (he : e.ofTaskManager = true) (s : Worker) :
    MayFail lin e s := by
  rintro _ rfl
  cases he

lemma balanced_retryTaskIfPossible (id : TaskID) : Triple (Balanced lin d) (retryTaskIfPossible id)
      (fun _ s => Balanced lin d s ∧ s.lineage.isTaskPending id = true) (MayFail lin) := by
  refine .bind (triple_findTask (Q := fun e s => Balanced lin d s ∧
    s.lineage.submissibleTasks.lookup id = some e) (fun _ _ hs he => ⟨hs, he⟩)
    fun s _ _ => mayFail_of_ofTaskManager rfl s) fun e => ?_
  refine .seq (.checked fun _ s _ => mayFail_of_ofTaskManager rfl s) ?_
  refine .seq (.checked fun _ s _ => mayFail_of_ofTaskManager rfl s) ?_
  refine .seq (triple_modifyTasks (Q := fun _ s => Balanced lin d s ∧ s.lineage.isTaskPending id = true) ?_) ?_
  · rintro s ⟨⟨⟨hs, he⟩, hp⟩, _⟩
    refine ⟨hs.withTaskEntry he rfl, ?_⟩
    refine isTaskPending_iff.mpr ⟨e.useRetry, ?_, hp⟩
    rw [withEntry, lookup_insert, if_pos rfl]
  refine .bind (.onlyIf (fun _ => triple_modifyTasks fun s hs => ?_) fun _ _ hs => hs) fun _ => .skip
  exact ⟨hs.1.tasks rfl fun _ => rfl, hs.2⟩

lemma balanced_markTaskCanceled (id : TaskID) :
    BalancedTo lin (Balanced lin d) (markTaskCanceled id) d := by
  refine onTasks fun t => ?_
  cases he : t.submissibleTasks.lookup id with
  | none => exact .pure fun _ hs => hs.1
  | some e =>
    refine .bind (triple_modifyTasks ?_) fun _ => .skip
    rintro s ⟨hs, rfl⟩
    exact hs.withTaskEntry he rfl

lemma balanced_submitTask (isActorInRegistering : ActorID → Bool) (id : TaskID) :
    BalancedTo lin (Balanced lin d) (submitTask cfg isActorInRegistering id) d := by
  have h := composes_triple (Balanced lin d) (MayFail lin)
  refine h.seq (triple_modify_same (fun _ => rfl) fun _ _ => rfl) ?_
  refine h.bind triple_seeTasks fun t => h.ite (fun _ => ?_) fun _ => ?_
  · exact triple_output_balanced _
  · exact triple_modify_same (fun _ => rfl) fun _ _ => rfl

lemma balanced_complete (state : TaskState) :
    BalancedTo lin (Balanced lin d) (complete state) d :=
  (composes_triple _ _).onlyIf fun _ => triple_output_balanced _

lemma balanced_actorRegistered (i : Nat) (ok : Bool) :
    BalancedTo lin (Balanced lin d) (actorRegistered i ok) d := by
  have h := composes_triple (Balanced lin d) (MayFail lin)
  refine h.bind triple_seeTasks fun t => h.forM (fun state => ?_) _
  exact h.seq (triple_modify_same (fun _ => rfl) fun _ _ => rfl) (balanced_complete _)

lemma balanced_drainAndShutdown : BalancedTo lin (Balanced lin d) drainAndShutdown d := by
  refine triple_modify_same (fun t => ?_) fun t o => ?_ <;> split <;> rfl

lemma balanced_inlineDependencies (deps : AList fun _ : ObjectID => Option RayObject) (id : TaskID) :
    Triple (fun s => Balanced lin (fun _ => 0) s ∧ (s.lineage.inlinedIds deps id ≠ [] →
        s.lineage.countsTask lin id = true)) (inlineDependencies deps id)
      (fun inlined s => Balanced lin (fun o => inlined.1.count o - inlined.2.count o) s ∧
        (inlined.1 = [] → inlined.2 = [])) (MayFail lin) := by
  refine onTasks fun t => ?_
  refine .seq (.checked fun _ s _ => mayFail_of_ofTaskManager rfl s) ?_
  refine .seq (triple_modifyTasks (Q := fun _ s => Balanced lin
    (fun o => (t.inlinedIds deps id).count o - (t.containedIds deps id).count o) s) ?_) ?_
  · rintro s ⟨⟨⟨hs, hcounts⟩, rfl⟩, _⟩
    refine hs.tasks rfl fun o => ?_
    have := s.lineage.uses_inlineArgs hcounts o
    omega
  refine .seq (.checked fun _ s _ => mayFail_of_ofTaskManager rfl s) ?_
  exact .pure fun s hs => ⟨hs.1, fun hnil => (inline_of_inlinedIds_nil hnil).2⟩

variable (hpin : lin = true → cfg.lineagePinningEnabled = true)
include hpin

lemma replyLogic_balanced (hd : ∀ o, 0 ≤ d o) : ReplyLogic cfg fun _ x =>
    BalancedTo lin (Balanced lin d) x d where
  toComposes := composes_triple _ _
  call hx := triple_call hpin hd hx
  output o _ _ := triple_output_balanced o

lemma balanced_addPendingTask (callerAddress : WorkerAddress) (spec : TaskSpec) (maxRetries : Int) :
    BalancedTo lin (Balanced lin fun _ => 0) (addPendingTask cfg callerAddress spec maxRetries) fun _ => 0 := by
  have hnonneg : ∀ o, (0 : Int) ≤ spec.dependencies.count o := fun o => Int.natCast_nonneg _
  refine .seq ((triple_updateSubmittedTaskReferences
    hpin hnonneg spec.dependencies []).pre fun s hs => hs.congr fun o => by simp) ?_
  refine .seq (triple_call hpin hnonneg fun K h => h.forM (fun id => h.addOwnedObject id _ _ _ _ _) _) ?_
  refine onTasks fun t => ?_
  refine .seq (.checked fun _ s _ => mayFail_of_ofTaskManager rfl s) ?_
  refine triple_modifyTasks ?_
  rintro s ⟨⟨hs, rfl⟩, hnone⟩
  refine hs.tasks rfl fun o => ?_
  rw [uses_addTask maxRetries hnone]
  omega

lemma balanced_removeFinished {ids : List ObjectID} (releaseLineage : Bool)
    (workerAddr : WorkerAddress) (borrowedRefs : ReferenceTableProto) :
    BalancedTo lin (Balanced lin (due lin releaseLineage ids))
      (updateFinishedTaskReferences cfg.counter ids releaseLineage workerAddr borrowedRefs) fun _ => 0 :=
  (triple_updateFinishedTaskReferences hpin (fun _ => Int.le_refl 0) ids
    releaseLineage workerAddr borrowedRefs).pre fun s hs => hs.congr fun o => by simp

lemma balanced_completePendingTask (id : TaskID) (reply : PushTaskReply)
    (workerAddr : WorkerAddress) (nodeAlive : Bool) :
    BalancedTo lin (fun s => Balanced lin (fun _ => 0) s ∧ s.lineage.isTaskPending id = true)
      (completePendingTask cfg id reply workerAddr nodeAlive) fun _ => 0 := by
  have hzero := replyLogic_balanced hpin fun _ => Int.le_refl 0
  have houtput : ∀ o, Triple (fun s : Worker => s.lineage.isTaskPending id = true) (output o)
      (fun _ s => s.lineage.isTaskPending id = true) (MayFail lin) :=
    fun o => triple_modifyTasks fun _ hs => hs
  have hK : ReplyLogic cfg fun _ x => Triple
      (fun s => Balanced lin (fun _ => 0) s ∧ s.lineage.isTaskPending id = true) x
      (fun _ s => Balanced lin (fun _ => 0) s ∧ s.lineage.isTaskPending id = true) (MayFail lin) :=
    { toComposes := composes_triple _ _
      call := fun hx => (hzero.call hx).and
        ((stable_isTaskPending id).triple (hx _ (callLogic_lineage cfg.counter)))
      output := fun o ho hr => (hzero.output o ho hr).and (houtput o) }
  refine .bind (triple_findTask (fun _ _ hs _ => hs) fun s _ _ => mayFail_of_ofTaskManager rfl s) fun entry => ?_
  refine .bind (hK.foldlM (hK.handleReturnObject _ _ _) _ _) fun direct => ?_
  refine .bind (triple_findTask (Q := fun e s => Balanced lin (fun _ => 0) s ∧
    s.lineage.submissibleTasks.lookup id = some e ∧ e.pending = true) (fun s e hs he => ?_)
    fun s _ _ => mayFail_of_ofTaskManager rfl s) fun entry => ?_
  · obtain ⟨e', he', hp⟩ := isTaskPending_iff.mp hs.2
    obtain rfl : e = e' := Option.some.inj (he.symm.trans he')
    exact ⟨hs.1, he, hp⟩
  refine .seq (triple_modifyTasks (Q := fun _ s => Balanced lin
    (due lin (!(entry.finished direct).retryable) (s.lineage.messages id).dependencies) s)
    fun s hs => ?_) ?_
  · have hmsg : (s.lineage.finish cfg id (entry.finished direct)).messages = s.lineage.messages := by
      unfold finish
      split <;> rfl
    refine hs.1.tasks ?_ fun o => ?_
    · unfold finish
      split <;> rfl
    · rw [hmsg, uses_finish hs.2.1 hs.2.2 rfl, add_zero]
  refine onTasks fun t => ?_
  refine .seq ((balanced_removeFinished hpin (!(entry.finished direct).retryable) workerAddr
    reply.borrowedRefs).pre fun s hs => ?_) ?_
  · obtain ⟨hs, rfl⟩ := hs
    exact hs
  refine hzero.seq (hzero.onlyIf fun _ => hzero.call fun K h => ?_) triple_shutdownIfNeeded
  exact h.seq (h.evictLineage _) (h.pure ())

lemma balanced_pendingTaskFailed (id : TaskID) (immediatelyMarkObjectFail : Bool) :
    BalancedTo lin (Balanced lin fun _ => 0) (pendingTaskFailed cfg id immediatelyMarkObjectFail) fun _ => 0 := by
  have h := replyLogic_balanced hpin fun _ => Int.le_refl 0
  refine .bind (balanced_retryTaskIfPossible id) fun willRetry => ?_
  refine .bind (triple_findTask (fun _ _ hs _ => hs) fun s _ _ => mayFail_of_ofTaskManager rfl s) fun e => ?_
  refine .seq (.checked fun _ s _ => mayFail_of_ofTaskManager rfl s) ?_
  refine .bind (.onlyIf (fun _ => ?_) fun _ _ hs => hs.1.1) fun _ => h.seq triple_shutdownIfNeeded (h.pure willRetry)
  refine .seq (triple_modifyTasks (Q := fun _ s => Balanced lin
    (due lin true (s.lineage.messages id).dependencies) s) fun s hs => ?_) ?_
  · obtain ⟨e', he', hp⟩ := isTaskPending_iff.mp hs.1.2
    refine hs.1.1.tasks rfl fun o => ?_
    rw [← uses_forget he' hp]
    simp [due, forget]
  refine onTasks fun t => ?_
  refine .seq ((balanced_removeFinished hpin true _ []).pre fun s hs => ?_)
    (h.onlyIf fun _ => h.markPendingTaskFailed _)
  obtain ⟨hs, rfl⟩ := hs
  exact hs

lemma balanced_resubmitTask (id : TaskID) :
    BalancedTo lin (Balanced lin fun _ => 0) (resubmitTask cfg id) fun _ => 0 := by
  refine onTasks fun t => ?_
  cases he : t.submissibleTasks.lookup id with
  | none => exact .pure fun _ hs => hs.1
  | some e =>
    refine .ite (fun _ => .pure fun _ hs => hs.1) fun hp => ?_
    refine .seq (triple_modifyTasks (Q := fun _ s => Balanced lin
      (fun o => - (s.lineage.usesOf lin id o : Int)) s) ?_) ?_
    · rintro s ⟨hs, rfl⟩
      refine hs.tasks rfl fun o => ?_
      rw [uses_markResubmitted he (Bool.eq_false_iff.mpr hp)]
      simp [usesOf, markResubmitted]
    refine .seq (.checked fun _ s _ => mayFail_of_ofTaskManager rfl s) ?_
    refine onTasks fun t => ?_
    -- The arguments are paid first, then the actor.
    refine .seq (.onlyIf (Q := fun _ => Balanced lin fun o => 0 - if lin then 0 else
      ((t.messages id).actorCreationDummyObjectId.count o : Int)) (fun _ => ?_) fun hnil s hs => ?_)
      ?_
    · refine (triple_updateResubmittedTaskReferences hpin _).pre ?_
      rintro s ⟨⟨hs, _⟩, rfl⟩
      refine hs.congr fun o => ?_
      cases lin <;> simp [usesOf, TaskSpec.dependencies]
      omega
    · obtain ⟨⟨hs, _⟩, rfl⟩ := hs
      refine hs.congr fun o => ?_
      have hargs := not_not.mp hnil
      cases lin <;> simp [usesOf, TaskSpec.dependencies, hargs]
    refine .seq (.onlyIf (fun _ => triple_updateResubmittedTaskReferences hpin _)
      fun hactor s hs => hs.congr fun o => ?_) ?_
    · have hnil : (t.messages id).actorCreationDummyObjectId = [] := by
        simpa [TaskSpec.isActorTask] using hactor
      simp [hnil]
    · exact .seq (triple_modify_same (fun _ => rfl) fun _ _ => rfl) (.pure fun _ hs => hs)

lemma balanced_dependencyFetched (i : Nat) (id : ObjectID) (object : RayObject) :
    BalancedTo lin (fun s => Balanced lin (fun _ => 0) s ∧ ∀ state ∈ s.lineage.resolving[i]?,
        (state.fetched id object).objDependenciesRemaining = 0 →
        s.lineage.inlinedIds (state.fetched id object).localDependencies state.task ≠ [] →
        s.lineage.countsTask lin state.task = true)
      (dependencyFetched cfg i id object) fun _ => 0 := by
  refine onTasks fun t => ?_
  cases hi : t.resolving[i]? with
  | none => exact .pure fun _ hs => hs.1.1
  | some state =>
    refine .bind ?_ fun _ => .skip
    refine .seq (triple_modifyTasks (Q := fun _ s => Balanced lin (fun _ => 0) s ∧
      ((state.fetched id object).objDependenciesRemaining = 0 →
        s.lineage.inlinedIds (state.fetched id object).localDependencies state.task ≠ [] →
        s.lineage.countsTask lin state.task = true)) ?_) ?_
    · rintro s ⟨⟨hs, hcond⟩, rfl⟩
      exact ⟨hs.tasks rfl fun _ => rfl, hcond state hi⟩
    refine .onlyIf (fun hrem => ?_) fun _ _ hs => hs.1
    refine .bind ((balanced_inlineDependencies _ state.task).pre fun s hs => ⟨hs.1, hs.2 hrem⟩) fun inlined => ?_
    refine .bind (.onlyIf (fun _ => ?_) fun hnil s hs => ?_) fun _ => balanced_complete _
    · refine (triple_updateSubmittedTaskReferences hpin (fun _ => Int.le_refl 0) inlined.2
        inlined.1).pre fun s hs => hs.1.congr fun o => by simp
    · have hnil := not_not.mp hnil
      exact hs.1.congr fun o => by simp [hnil, hs.2 hnil]

def InlinesCounted (lin : Bool) (op : WorkerOp) (s : Worker) : Prop :=
  match op with
  | .dependencyFetched i id object => ∀ state ∈ s.lineage.resolving[i]?,
      (state.fetched id object).objDependenciesRemaining = 0 →
      s.lineage.inlinedIds (state.fetched id object).localDependencies state.task ≠ [] →
      s.lineage.countsTask lin state.task = true
  | _ => True

lemma balanced_run (op : WorkerOp) :
    BalancedTo lin (fun s => Balanced lin (fun _ => 0) s ∧ op.Enabled s.lineage ∧ InlinesCounted lin op s)
      (op.run cfg) fun _ => 0 := by
  have h := replyLogic_balanced hpin fun _ => Int.le_refl 0
  cases op with
  | addPendingTask callerAddress spec maxRetries =>
    exact (balanced_addPendingTask hpin callerAddress spec maxRetries).pre fun _ hs => hs.1
  | submitTask id isActorInRegistering =>
    exact (balanced_submitTask isActorInRegistering id).pre fun _ hs => hs.1
  | dependencyFetched i id object =>
    exact (balanced_dependencyFetched hpin i id object).pre fun _ hs => ⟨hs.1, hs.2.2⟩
  | actorRegistered i ok => exact (balanced_actorRegistered i ok).pre fun _ hs => hs.1
  | completePendingTask id reply workerAddr nodeAlive =>
    exact (balanced_completePendingTask hpin id reply workerAddr nodeAlive).pre fun _ hs => ⟨hs.1, hs.2.1⟩
  | retryTaskIfPossible id =>
    exact .bind ((balanced_retryTaskIfPossible id).pre fun _ hs => hs.1) fun _ => .pure fun _ hs => hs.1
  | pendingTaskFailed id immediatelyMarkObjectFail =>
    exact .bind ((balanced_pendingTaskFailed hpin id immediatelyMarkObjectFail).pre fun _ hs => hs.1) fun _ => h.pure ()
  | resubmitTask id =>
    exact .bind ((balanced_resubmitTask hpin id).pre fun _ hs => hs.1) fun _ => h.pure ()
  | markTaskCanceled id =>
    exact .bind ((balanced_markTaskCanceled id).pre fun _ hs => hs.1) fun _ => h.pure ()
  | drainAndShutdown => exact balanced_drainAndShutdown.pre fun _ hs => hs.1
  | counter op =>
    by_cases hop : op.ofTasks = false
    · exact (h.call fun K hc => hc.run op hop).pre fun _ hs => hs.1
    · exact fun s hs => absurd hs.2.1 hop

lemma Reachable.balanced (h : Reachable cfg (InlinesCounted lin) s) : Balanced lin (fun _ => 0) s := by
  refine h.invariant (fun _ _ => rfl) fun op s hop hs => (balanced_run hpin op).pre fun _ ht => ?_
  exact ht ▸ ⟨hs, hop⟩

end

instance (lin : Bool) (op : WorkerOp) (s : Worker) : Decidable (InlinesCounted lin op s) := by
  induction op using WorkerOp.casesOn <;> (unfold InlinesCounted; infer_instance)

end AmazonRay.TaskManager
