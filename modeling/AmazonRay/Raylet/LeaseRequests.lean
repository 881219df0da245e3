import AmazonRay.Raylet.LeaseCalls

/-! The lease requests over whole runs: none is lost or answered twice, unless a dispatch queue turns infeasible. -/
namespace AmazonRay.Raylet
open Program ClusterTaskManager List

variable {ρ : Type} {cfg : Cluster ρ} {s : State ρ} {w : WorkID}

def ManagerOp.Distinct (s : State ρ) : ManagerOp ρ → Prop
  | .queueAndScheduleTask task _ => ∀ w < s.numWorks, (s.works w).task.taskId ≠ task.taskId
  | _ => True

instance (s : State ρ) (op : ManagerOp ρ) : Decidable (op.Distinct s) := by
  induction op using ManagerOp.casesOn <;> (unfold ManagerOp.Distinct; infer_instance)

def InOrder (tracked : Prop) (s : State ρ) : Prop :=
  ∃ b : Roster, b.tracked = tracked ∧ Balanced b s

lemma inOrder_initial (tracked : Prop) (r : ρ) : InOrder tracked { cluster := r } := by
  refine ⟨⟨tracked, 0, fun _ => { taskId := 0 }, fun _ _ h => absurd h (Nat.not_lt_zero _)⟩, rfl, ?_⟩
  refine ⟨fun _ => rfl, rfl, fun x => ?_, nofun, fun _ => ⟨rfl, fun _ => .inl rfl⟩,
    fun _ _ => ⟨DependencyManager.tracked_start, fun _ h => absurd h (Nat.not_lt_zero _), fun _ h => absurd rfl h⟩,
    fun _ => ⟨nodup_nil, nofun, nofun, nofun⟩⟩
  simp [Queues.places, Queues.held, State.queues, State.closed, WorkQueues.count, Table.total]

lemma inOrder_run {tracked : Prop} {op : ManagerOp ρ} (he : op.Enabled s) (hd : tracked → op.Distinct s)
    (h : InOrder tracked s) : Triple (· = s) (op.run cfg) (fun _ => InOrder tracked) (Stops tracked) := by
  obtain ⟨b, rfl, h⟩ := h
  have hkeep : Accounted b (op.run cfg) → Triple (· = s) (op.run cfg) (fun _ => InOrder b.tracked) (Stops b.tracked) :=
    fun hop => hop.conseq (fun _ ht => ht ▸ h) (fun _ _ ht => ⟨b, rfl, ht⟩) fun _ _ he => he
  have hc := composes_accounted (ρ := ρ) b
  cases op with
  | queueAndScheduleTask task grantOrReject =>
    have hnew : b.tracked → ∀ x < b.numWorks, (b.task x).taskId ≠ task.taskId := by
      intro htr x hx
      rw [← h.task x]
      exact hd htr x (h.numWorks.symm ▸ hx)
    refine .seq ((triple_newWork task grantOrReject hnew).pre fun _ ht => ht ▸ h) ?_
    exact accounted_scheduleAndDispatchTasks.post fun _ _ ht => ⟨b.extend task hnew, rfl, ht⟩
  | scheduleAndDispatchTasks => exact hkeep accounted_scheduleAndDispatchTasks
  | tasksUnblocked => exact hkeep (accounted_tasksUnblocked _)
  | cancelTask => exact hkeep (hc.seq (accounted_cancelTask _ _) (hc.pure ()))
  | poppedWorker work worker status =>
    exact (triple_poppedWorker h he worker status).post fun _ _ ht => ⟨b, rfl, ht⟩
  | taskFinished => exact hkeep (accounted_of_unnoticed (unnoticed_taskFinished _))
  | workerReturned => exact hkeep (accounted_of_unnoticed (unnoticed_modify fun s => { refl_of Silent s with }))
  | clusterChanged => exact hkeep (accounted_of_unnoticed (unnoticed_modify fun s => { refl_of Silent s with }))
  | dependencies => exact hkeep (accounted_dependencies _)

lemma InOrder.stops {tracked : Prop} {op : ManagerOp ρ} {err : Check} {t : State ρ} (h : InOrder tracked s)
    (he : op.Enabled s) (hd : tracked → op.Distinct s) (hrun : op.run cfg s = .error err t) : Stops tracked err t := by
  have hstop : Triple (· = s) (op.run cfg) _ _ := inOrder_run he hd h
  have hfinal := hstop s rfl
  rwa [hrun] at hfinal

/-- The work is in one queue and not answered, or in none and answered once, unless its owner was found dead. -/
def State.Kept (s : State ρ) (w : WorkID) : Prop :=
  (s.queues.places w = 1 ∧ (s.works w).replies = []) ∨
    (s.queues.places w = 0 ∧ ((s.works w).replies.length = 1 ∨ w ∈ s.ownerDead))

lemma InOrder.kept {tracked : Prop} (h : InOrder tracked s) (hm : s.MovesApart) (hw : w < s.numWorks) : s.Kept w := by
  obtain ⟨b, _, hb⟩ := h
  have htally := hb.tally w
  rw [if_pos (hb.numWorks ▸ hw), ite_self, State.closed, (hb.apart hm).1, count_nil] at htally
  have hdead : 0 < s.ownerDead.count w ↔ w ∈ s.ownerDead := count_pos_iff
  have hnil : (s.works w).replies = [] ↔ (s.works w).replies.length = 0 := length_eq_zero_iff.symm
  rw [State.Kept, hnil, ← hdead]
  omega

lemma inOrder_reaches {tracked : Prop} {A : ManagerOp ρ → State ρ → Prop} {r : ρ}
    (h : Reaches (ManagerOp.run cfg) A { cluster := r } s) (he : ∀ op s, A op s → op.Enabled s)
    (hd : tracked → ∀ op s, A op s → op.Distinct s) : InOrder tracked s :=
  h.invariant (inOrder_initial tracked r) fun op t ha ht => inOrder_run (he op t ha) (fun htr => hd htr op t ha) ht

/-- In every run that moves a dispatch queue only to a class without another queue, and while none of its works waits
for a worker. A call that a check stops has not answered a work twice either. -/
theorem reaches_kept (cfg : Cluster ρ) (r : ρ) (s : State ρ)
    (h : Reaches (ManagerOp.run cfg) (fun op s => op.Enabled s) { cluster := r } s) :
    (s.MovesApart → ∀ w < s.numWorks, s.Kept w) ∧
    ∀ op : ManagerOp ρ, op.Enabled s → ∀ err t, op.run cfg s = .error err t →
      t.MovesApart → ∀ w, (t.works w).replies.length ≤ 1 := by
  have hin : InOrder False s := inOrder_reaches h (fun _ _ he => he) fun hf => hf.elim
  exact ⟨fun hm w hw => hin.kept hm hw, fun op he err t hrun => (hin.stops he (fun hf => hf.elim) hrun).2⟩

/-- A node on which a task runs when it is free; all tasks are of one shape. -/
inductive Load where
  | free
  | busy
  | infeasible
  deriving DecidableEq, Repr

def exampleCluster : Cluster Load where
  selfNodeId := 1
  maxPinnedTaskArgumentsBytes := 0
  getBestSchedulableNode load _ _ _ := (if load = .infeasible then .infeasible else .node 1, load)
  isLocallySchedulable _ _ := false
  allocateLocalTaskResources load _ := if load = .free then some (0, load) else none
  allocateRemoteTaskResources load _ _ := load
  releaseWorkerResources load _ := load
  isOwnerAlive _ _ := true
  hasNodeInfo _ _ := true
  getTaskArguments _ := some fun _ => some 1
  pullRequestActive _ _ := true
  indeterminate _ := false
  order _ l := l
  order_perm _ _ := .refl _

def firstPopped : ManagerM Load Unit := ManagerOp.run exampleCluster (.poppedWorker 0 (some 7) .ok)

/-- The first task waits for resources when its shape turns infeasible, and its queue replaces
the one of the second, which is never answered. Or the first waits for a worker when its queue
is moved. It is cancelled there, and the worker that arrives is leased to it as well. -/
theorem infeasibleQueue_overwritten :
    (∃ s, Reaches (ManagerOp.run exampleCluster) (fun op s => op.Enabled s) { cluster := .busy } s ∧
      ∃ w < s.numWorks, ¬ s.Kept w) ∧
    ∃ s, Reaches (ManagerOp.run exampleCluster) (fun op s => op.Enabled s) { cluster := .free } s ∧
      (0 : WorkID) ∈ s.popRequests ∧ stopped firstPopped s = some .dispatchShapeMissing ∧
      ((final firstPopped s).works 0).replies.length = 2 := by
  constructor
  · refine exists_after [.queueAndScheduleTask { taskId := 1 } false, .clusterChanged .infeasible,
          .queueAndScheduleTask { taskId := 2 } false]
      (fun s => (s.numWorks, s.queues.places 1, (s.works 1).replies, s.ownerDead)) (2, 0, [], [])
      (by decide +kernel) fun _ _ hv => ?_
    simp only [Prod.mk.injEq] at hv
    obtain ⟨hnum, hplaces, hreplies, hdead⟩ := hv
    refine ⟨1, by omega, ?_⟩
    simp [State.Kept, hplaces, hreplies, hdead]
  · refine exists_after [.queueAndScheduleTask { taskId := 1 } false, .clusterChanged .busy,
          .queueAndScheduleTask { taskId := 2 } false, .clusterChanged .infeasible, .scheduleAndDispatchTasks,
          .cancelTask 1]
      (fun s => (decide ((0 : WorkID) ∈ s.popRequests), stopped firstPopped s,
        ((final firstPopped s).works 0).replies.length)) (true, some .dispatchShapeMissing, 2)
      (by decide +kernel) fun s _ hv => ?_
    simpa only [Prod.mk.injEq, decide_eq_true_iff] using hv

/-- A task is granted a worker, and another one waits for the next. -/
theorem grantedTask_kept :
    ∃ s, Reaches (ManagerOp.run exampleCluster) (fun op s => op.Enabled s) { cluster := .free } s ∧
      s.MovesApart ∧ s.numWorks = 2 ∧ ∀ w < s.numWorks, s.Kept w := by
  refine exists_after [.queueAndScheduleTask { taskId := 1 } false, .poppedWorker 0 (some 7) .ok,
        .queueAndScheduleTask { taskId := 2 } false]
    (fun s => (s.numWorks, s.dispatchMoves)) (2, [])
    (by decide +kernel) fun s hs hv => ?_
  simp only [Prod.mk.injEq] at hv
  have hm : s.MovesApart := by simp [State.MovesApart, hv.2]
  exact ⟨hm, hv.1, (reaches_kept exampleCluster .free s hs).1 hm⟩

lemma exists_queue_of_count {t : WorkQueues} (h : 0 < t.count w) : ∃ c, w ∈ t.queue c := by
  by_contra hno
  have hzero : t.count w = 0 := by
    refine Table.total_eq_zero fun c q hc => ?_
    exact count_eq_zero_of_not_mem fun hw => hno ⟨c, WorkQueues.mem_of_lookup hc ▸ hw⟩
  omega

def State.Queued (s : State ρ) (w : WorkID) : Prop :=
  w ∈ s.waitingTaskQueue ∨ ∃ c, w ∈ s.tasksToDispatch.queue c

lemma queued_iff_held : s.Queued w ↔ 0 < s.queues.held w := by
  constructor
  · rintro (hw | ⟨c, hw⟩)
    · exact held_of_waiting hw
    · exact held_of_dispatch hw
  · intro hpos
    by_cases hw : 0 < s.waitingTaskQueue.count w
    · exact .inl (count_pos_iff.mp hw)
    · exact .inr (exists_queue_of_count (by
        change 0 < s.tasksToDispatch.count w + s.waitingTaskQueue.count w at hpos
        omega))

/-- In every run in which no dispatch queue with dependencies is moved, and no runtime
environment fails for a task with dependencies. -/
theorem reaches_registered (cfg : Cluster ρ) (r : ρ) (s : State ρ)
    (h : Reaches (ManagerOp.run cfg) (fun op s => op.Enabled s ∧ op.Distinct s) { cluster := r } s) :
    (s.Orderly → ∀ id, s.dependencies.Registered id ↔
      ∃ w, s.Queued w ∧ (s.works w).task.dependencies ≠ [] ∧ (s.works w).task.taskId = id) ∧
    ∀ op : ManagerOp ρ, op.Enabled s → op.Distinct s → ∀ err t, op.run cfg s = .error err t →
      t.Orderly → ¬ err.OfDependencies := by
  have hin : InOrder True s := inOrder_reaches h (fun _ _ ha => ha.1) fun _ _ _ ha => ha.2
  constructor
  · obtain ⟨b, htr, hb⟩ := hin
    intro ho id
    have hsync := hb.synced (htr ▸ trivial) ho
    constructor
    · intro hreg
      obtain ⟨w, hw, hd, hid⟩ := hsync.owned id hreg
      have hheld := hsync.held w hw hd
      rw [hid, if_pos hreg, ite_self] at hheld
      refine ⟨w, queued_iff_held.mpr (by omega), ?_⟩
      rw [hb.task w]
      exact ⟨hd, hid⟩
    · rintro ⟨w, hw, hd, hid⟩
      rw [hb.task w] at hd hid
      have hpos := queued_iff_held.mp hw
      have hlt := (hb.zero w).of_held hpos
      exact hid ▸ (hb.zero w).registered (htr ▸ trivial) ho hlt hd (by omega)
  · intro op he hd err t hrun
    exact (hin.stops he (fun _ => hd) hrun).1 trivial

def argumentTask : RayTask := { taskId := 1, dependencies := [{ objectId := ⟨7, 1⟩ }] }

/-- The argument is local, so the task goes to a dispatch queue. When the shape turns
infeasible and feasible again its dependencies are requested once more; and when its
runtime environment cannot be made they are removed twice. -/
theorem argumentTask_checks_fail :
    (∃ s, Reaches (ManagerOp.run exampleCluster) (fun op s => op.Enabled s ∧ op.Distinct s)
        { cluster := .busy } s ∧
      stopped (ManagerOp.run exampleCluster .scheduleAndDispatchTasks) s =
        some .dependenciesRequestedTwice) ∧
    ∃ s, Reaches (ManagerOp.run exampleCluster) (fun op s => op.Enabled s ∧ op.Distinct s)
        { cluster := .free } s ∧ (0 : WorkID) ∈ s.popRequests ∧
      stopped (ManagerOp.run exampleCluster (.poppedWorker 0 none .runtimeEnvCreationFailed)) s =
        some .dependenciesNotQueued := by
  have hmoved : (runAll (ManagerOp.run exampleCluster) (fun op s => op.Enabled s ∧ op.Distinct s)
      [.dependencies (.handleObjectLocal ⟨7, 1⟩), .queueAndScheduleTask argumentTask false,
        .clusterChanged .infeasible, .scheduleAndDispatchTasks, .clusterChanged .busy]
      { cluster := .busy }).map
      (stopped (ManagerOp.run exampleCluster .scheduleAndDispatchTasks)) =
      some (some .dependenciesRequestedTwice) := by decide +kernel
  have hpopped : (runAll (ManagerOp.run exampleCluster) (fun op s => op.Enabled s ∧ op.Distinct s)
      [.dependencies (.handleObjectLocal ⟨7, 1⟩), .queueAndScheduleTask argumentTask false]
      { cluster := .free }).map (fun s => (decide ((0 : WorkID) ∈ s.popRequests), stopped
        (ManagerOp.run exampleCluster (.poppedWorker 0 none .runtimeEnvCreationFailed)) s)) =
      some (true, some .dependenciesNotQueued) := by decide +kernel
  refine ⟨exists_reaches hmoved, ?_⟩
  obtain ⟨s, hs, hv⟩ := exists_reaches hpopped
  rw [Prod.mk.injEq, decide_eq_true_iff] at hv
  exact ⟨s, hs, hv.1, hv.2⟩

/-- While the task waits for a worker its dependencies are registered. -/
theorem argumentTask_registered :
    ∃ s, Reaches (ManagerOp.run exampleCluster) (fun op s => op.Enabled s ∧ op.Distinct s)
        { cluster := .free } s ∧ s.Orderly ∧ s.dependencies.Registered 1 ∧
      ∃ w, s.Queued w ∧ (s.works w).task.dependencies ≠ [] ∧ (s.works w).task.taskId = 1 := by
  refine exists_after [.dependencies (.handleObjectLocal ⟨7, 1⟩), .queueAndScheduleTask argumentTask false]
    (fun s => (s.dispatchMoves, s.runtimeEnvFailures,
        decide (s.dependencies.Registered 1))) ([], [], true)
    (by decide +kernel) fun s hs hv => ?_
  simp only [Prod.mk.injEq, decide_eq_true_iff] at hv
  have ho : s.Orderly := by simp [State.Orderly, hv.1, hv.2.1]
  exact ⟨ho, hv.2.2, ((reaches_registered exampleCluster .free s hs).1 ho 1).mp hv.2.2⟩

end AmazonRay.Raylet
