import AmazonRay.TaskManager.BalancedRuns

/-! The references of tasks in every run of a worker: those of submitted tasks, and
those of the lineage. -/
namespace AmazonRay.TaskManager
open Program ReferenceCounter

def Tasks.pendingUses (t : Tasks) (o : ObjectID) : Nat := t.uses false o

def Tasks.submissibleUses (t : Tasks) (o : ObjectID) : Nat := t.uses true o

def InlinesPending : WorkerOp → Worker → Prop := InlinesCounted false

def InlinesSubmissible : WorkerOp → Worker → Prop := InlinesCounted true

instance (op : WorkerOp) (s : Worker) : Decidable (InlinesPending op s) :=
  inferInstanceAs (Decidable (InlinesCounted false op s))

instance (op : WorkerOp) (s : Worker) : Decidable (InlinesSubmissible op s) :=
  inferInstanceAs (Decidable (InlinesCounted true op s))

/-- The counts of submitted tasks, in every run that inlines the arguments of
pending tasks only. -/
theorem submittedReferences_of_inlinesPending (cfg : WorkerConfig) (s : Worker)
    (h : Reachable cfg InlinesPending s) :
    (∀ o, s.submitted o = s.lineage.pendingUses o) ∧
    (∀ op : WorkerOp, op.Enabled s.lineage → InlinesPending op s →
      stopped (op.run cfg) s ≠ some .submittedTaskRefCountZero) ∧
    ((∀ id e, s.lineage.submissibleTasks.lookup id = some e → e.pending = false) →
      ∀ o, s.submitted o = 0) := by
  have hpin : false = true → cfg.lineagePinningEnabled = true := nofun
  have hb : Balanced false (fun _ => 0) s := Reachable.balanced hpin h
  have hcount : ∀ o, s.submitted o = s.lineage.pendingUses o := fun o => by
    have ho := hb nofun o
    rw [metered_false, add_zero] at ho
    exact Int.ofNat.inj ho
  refine ⟨hcount, fun op hen hal hstop => ?_, fun hnone o => ?_⟩
  · obtain ⟨_, hne⟩ := (balanced_run hpin op).stopped ⟨hb, hen, hal⟩ hstop
    exact hne rfl rfl
  · rw [hcount]
    rw [Tasks.pendingUses, Tasks.uses]
    exact Table.total_eq_zero fun id e he => by simp [hnone id e he]

/-- The lineage references, in every run that inlines the arguments of submissible
tasks only and forgets no actor task with its lineage. -/
theorem lineageReferences_of_inlinesSubmissible (cfg : WorkerConfig)
    (hpin : cfg.lineagePinningEnabled = true) (s : Worker) (h : Reachable cfg InlinesSubmissible s)
    (hreg : ∀ spec ∈ s.lineage.released, spec.isActorTask = false) :
    (∀ o, s.lineageRefs o = s.lineage.submissibleUses o) ∧
    (s.lineage.submissibleTasks.entries = [] → ∀ o, s.lineageRefs o = 0) := by
  have hb : Balanced true (fun _ => 0) s := Reachable.balanced (fun _ => hpin) h
  have hcount : ∀ o, s.lineageRefs o = s.lineage.submissibleUses o := fun o => by
    have ho := hb (fun _ => hreg) o
    rw [metered_true, add_zero] at ho
    exact Int.ofNat.inj ho
  refine ⟨hcount, fun hnone o => ?_⟩
  rw [hcount, Tasks.submissibleUses, Tasks.uses, Table.total, hnone]
  rfl

/-- An object still to be returned is the argument of an actor task. The actor dies first, so `DisconnectActor` cancels
and fails the actor task, and its dependencies are resolved afterwards. -/
def diedActor : List WorkerOp :=
  [.addPendingTask ⟨0, 0⟩ { taskId := 1 } 0, .counter (.addLocalReference ⟨1, 1⟩),
    .submitTask 1 fun _ => false,
    .addPendingTask ⟨0, 0⟩
      { taskId := 2, type := .actorTask ⟨9, 1⟩, args := [.byReference ⟨1, 1⟩], numReturns := 2 } 0,
    .submitTask 2 fun _ => false, .markTaskCanceled 2, .pendingTaskFailed 2 true,
    .completePendingTask 1 { returnObjects := [{ objectId := ⟨1, 1⟩ }] } ⟨1, 0⟩ true]

/-- The inlining takes a reference off the object that the task has given back. -/
theorem diedActor_check_fails : ∃ s, Reachable exampleWorker (fun _ _ => True) s ∧
    (WorkerOp.dependencyFetched 0 ⟨1, 1⟩ {}).Enabled s.lineage ∧
    stopped ((WorkerOp.dependencyFetched 0 ⟨1, 1⟩ {}).run exampleWorker) s =
      some .submittedTaskRefCountZero := by
  refine exists_after diedActor (fun s => (decide ((WorkerOp.dependencyFetched 0 ⟨1, 1⟩ {}).Enabled s.lineage),
      stopped ((WorkerOp.dependencyFetched 0 ⟨1, 1⟩ {}).run exampleWorker) s))
    (true, some .submittedTaskRefCountZero) (by decide +kernel) fun s _ heq => ?_
  exact ⟨of_decide_eq_true (congrArg Prod.fst heq), congrArg Prod.snd heq⟩

/-- A value with an id in it is inlined in both arguments of a pending task. -/
def inlinedArgument : List WorkerOp :=
  [.addPendingTask ⟨0, 0⟩ { taskId := 1 } 0, .counter (.addLocalReference ⟨1, 1⟩),
    .counter (.addLocalReference ⟨5, 1⟩), .submitTask 1 fun _ => false,
    .addPendingTask ⟨0, 0⟩
      { taskId := 2, args := [.byReference ⟨1, 1⟩, .byReference ⟨1, 1⟩] } 1,
    .submitTask 2 fun _ => false,
    .completePendingTask 1 { returnObjects := [{ objectId := ⟨1, 1⟩ }] } ⟨1, 0⟩ true,
    .dependencyFetched 0 ⟨1, 1⟩ { nestedRefs := [⟨5, 1⟩] }]

theorem inlinedArgument_submitted : ∃ s, Reachable exampleWorker InlinesPending s ∧
    s.lineage.pendingUses ⟨5, 1⟩ = 2 ∧ s.submitted ⟨5, 1⟩ = 2 := by
  refine exists_after inlinedArgument (fun s => s.lineage.pendingUses ⟨5, 1⟩) 2 (by decide +kernel) fun s hs huses => ?_
  refine ⟨huses, ?_⟩
  rw [(submittedReferences_of_inlinesPending exampleWorker s hs).1, huses]

/-- An actor task returns an object in plasma that then goes out of scope. -/
def actorTaskReleased : List WorkerOp :=
  [.addPendingTask ⟨0, 0⟩ { taskId := 2, type := .actorTask ⟨9, 1⟩, numReturns := 2 } 1,
    .counter (.addLocalReference ⟨2, 1⟩), .submitTask 2 fun _ => false,
    .completePendingTask 2 { returnObjects := [{ objectId := ⟨2, 1⟩, inPlasma := true }] } ⟨1, 0⟩ true,
    .counter (.removeLocalReference ⟨2, 1⟩)]

/-- The lineage reference of the actor creation dummy object is never given back. -/
theorem actorTaskReleased_keeps_lineage :
    ∃ s, Reachable exampleWorker (fun _ _ => True) s ∧
      s.lineage.submissibleTasks.entries.length = 0 ∧ s.lineageRefs ⟨9, 1⟩ = 1 := by
  refine exists_after actorTaskReleased (fun s => (s.lineage.submissibleTasks.entries.length, s.lineageRefs ⟨9, 1⟩))
    (0, 1) (by decide +kernel) fun s _ heq => ?_
  exact ⟨congrArg Prod.fst heq, congrArg Prod.snd heq⟩

theorem inlinedArgument_lineage : ∃ s, Reachable exampleWorker InlinesSubmissible s ∧
    s.lineage.submissibleUses ⟨5, 1⟩ = 2 ∧ s.lineageRefs ⟨5, 1⟩ = 2 := by
  refine exists_after inlinedArgument (fun s => (s.lineage.submissibleUses ⟨5, 1⟩,
      decide (∀ spec ∈ s.lineage.released, spec.isActorTask = false)))
    (2, true) (by decide +kernel) fun s hs heq => ?_
  have huses : s.lineage.submissibleUses ⟨5, 1⟩ = 2 := congrArg Prod.fst heq
  refine ⟨huses, ?_⟩
  rw [(lineageReferences_of_inlinesSubmissible exampleWorker rfl s hs
    (of_decide_eq_true (congrArg Prod.snd heq))).1, huses]

end AmazonRay.TaskManager
