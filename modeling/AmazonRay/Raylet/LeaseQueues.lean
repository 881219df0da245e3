import AmazonRay.Raylet.QueueMoves

/-! Every call to `ClusterTaskManager` keeps the accounts of the lease requests. -/
namespace AmazonRay.Raylet

section

variable {ρ : Type} {b : Roster} {w : WorkID} {s : State ρ} {c : SchedulingClass}

lemma Books.lt_numWorks (h : Books b w 0 0 s) (hw : 0 < s.queues.places w) : w < b.numWorks := by
  have ht := h.tally w
  by_contra hn
  rw [if_neg hn, if_pos rfl] at ht
  omega

lemma Books.of_schedule (h : Books b w 0 0 s) (hw : w ∈ s.tasksToSchedule.queue c) :
    w < b.numWorks ∧ s.queues.held w = 0 ∧ 0 < s.queues.places w := by
  have hpos := WorkQueues.count_pos hw
  have ht := h.tally w
  have hplaces : s.queues.places w = s.tasksToSchedule.count w + s.infeasibleTasks.count w + s.queues.held w := rfl
  have hlt := h.lt_numWorks (by omega)
  rw [if_pos hlt, if_pos rfl] at ht
  exact ⟨hlt, by omega, by omega⟩

lemma places_of_held {q : Queues} (hw : 0 < q.held w) : 0 < q.places w := lt_of_lt_of_le hw (Nat.le_add_left _ _)

lemma Books.of_held (h : Books b w 0 0 s) (hw : 0 < s.queues.held w) : w < b.numWorks :=
  h.lt_numWorks (places_of_held hw)

lemma held_of_dispatch (hw : w ∈ s.tasksToDispatch.queue c) : 0 < s.queues.held w :=
  lt_of_lt_of_le (WorkQueues.count_pos hw) (Nat.le_add_right _ _)

lemma held_of_waiting (hw : w ∈ s.waitingTaskQueue) : 0 < s.queues.held w :=
  lt_of_lt_of_le (List.count_pos_iff.mpr hw) (Nat.le_add_left _ _)

lemma Books.of_index (h : Books b w 0 0 s) {taskId : TaskID} (hid : s.waitingTasksIndex.lookup taskId = some w) :
    w ∈ s.waitingTaskQueue ∧ (b.task w).taskId = taskId ∧ w < b.numWorks ∧ 0 < s.queues.held w := by
  obtain ⟨hmem, htask⟩ := h.index taskId w hid
  have hheld := held_of_waiting hmem
  exact ⟨hmem, htask, h.of_held hheld, hheld⟩

end

namespace ClusterTaskManager
open Program WorkQueues Unnoticed

variable {ρ : Type} {cfg : Cluster ρ} {b : Roster} {w : WorkID} {q : Queues} {s : State ρ} {K : Prop} (c : SchedulingClass)

lemma Balanced.at (h : Balanced b s) (w : WorkID) : ∀ t, t = s → At s.MovesApart s.queues b w 0 0 t := by
  rintro _ rfl
  exact ⟨h.zero w, rfl, fun hm => ⟨hm, Int.natCast_nonneg _⟩⟩

lemma Balanced.stops (h : Balanced b s) {err : Check} (herr : ¬ err.OfDependencies) : Stops b.tracked err s :=
  Books.stops h (fun _ => Int.natCast_nonneg _) fun _ _ => herr

/-- What keeps the accounts, at any moment between two moves. -/
abbrev Accounted (b : Roster) {α : Type} (x : ManagerM ρ α) : Prop :=
  Triple (Balanced b) x (fun _ => Balanced b) (Stops b.tracked)

lemma composes_accounted (b : Roster) : Composes fun α (x : ManagerM ρ α) => Accounted b x := composes_triple _ _

lemma accounted_of_unnoticed {α : Type} {x : ManagerM ρ α} (h : Unnoticed x) : Accounted b x :=
  .each fun s hs => (h s).conseq (fun _ ht => ht) (fun _ _ ht => ht.books hs)
    fun _ _ ht => Balanced.stops (ht.1.books hs) ht.2

lemma accounted_get : Accounted b (get : ManagerM ρ (State ρ)) := accounted_of_unnoticed unnoticed_get

lemma accounted_tryInfeasibleQueue : Accounted b (tryInfeasibleQueue cfg c) := by
  refine .read fun s hs => ?_
  have hat := Balanced.at hs 0
  match hc : s.infeasibleTasks.lookup c with
  | none => exact .pure fun t ht => (hat t ht).1
  | some [] => exact .throw fun t ht => Balanced.stops (hat t ht).1 (by decide)
  | some (w :: _) =>
    have hmove : Balances b (At s.MovesApart s.queues b 0 0 0) (moveToSchedule c : ManagerM ρ Unit) := by
      refine triple_moveToSchedule.pre fun t ht => ⟨ht.1, fun hnone => ?_⟩
      have hsame : t.infeasibleTasks = s.infeasibleTasks := congrArg Queues.infeasible ht.2
      rw [hsame, hc] at hnone
      cases hnone
    refine .bind ((unnoticed_getBestSchedulableNode w false false).triple.pre hat) fun answer => ?_
    cases answer with
    | infeasible => exact .pure fun _ ht => ht.1
    | noNode =>
      refine .bind (triple unnoticed_get) fun r => ?_
      exact .onlyIf (fun _ => hmove) fun _ _ ht => ht.1
    | node _ => exact hmove

lemma triple_waitForTaskArgsRequests (hw : w < b.numWorks) (hq : q.held w = 0) :
    Triple (At K q b w 0 0) (waitForTaskArgsRequests w : ManagerM ρ Bool)
      (fun _ s => ∃ q', At K q' b w 1 0 s ∧ q'.schedule = q.schedule) (Stops b.tracked) := by
  refine .bind (triple_getTask w) fun task => .given ?_
  rintro rfl
  refine .ite (fun hd => ?_) fun hd => ?_
  · refine .bind (triple_requestTaskDependencies hw hd hq) fun ready => ?_
    refine .ite (fun _ => ?_) fun _ => ?_
    · exact .seq (triple_pushDispatch rfl) (.pure fun _ ht => ⟨_, ht, rfl⟩)
    · exact .seq (triple_addWaiting rfl false) (.pure fun _ ht => ⟨_, ht, rfl⟩)
  · refine .seq (triple_pushDispatch rfl) (.pure fun _ ht => ?_)
    exact ⟨_, { ht with books := ht.1.free (not_not.mp hd) }, rfl⟩

lemma triple_scheduleWork (hw : w < b.numWorks) (hq : q.held w = 0) (hplaces : 0 < q.places w) (node : NodeID) :
    Triple (At K q b w 0 0) (scheduleWork cfg node w)
      (fun _ s => ∃ q', At K q' b w 1 0 s ∧ q'.schedule = q.schedule) (Stops b.tracked) := by
  refine .ite (fun _ => ?_) fun _ => (triple_spillback (fun _ => by omega) node).post fun _ _ ht => ⟨q, ht, rfl⟩
  exact .bind (triple_waitForTaskArgsRequests hw hq) fun _ => .pure fun _ ht => ht

lemma triple_scheduleQueue (l : List WorkID) :
    Balances b (fun s => Balanced b s ∧ s.tasksToSchedule.queue c = l) (scheduleQueue cfg c l) := by
  induction l with
  | nil => exact .pure fun _ hs => hs.1
  | cons w rest ih =>
    rintro s ⟨hs, hl⟩
    have hmem : w ∈ s.tasksToSchedule.queue c := hl ▸ List.mem_cons_self
    obtain ⟨hw, hheld, hplaces⟩ := (hs.zero w).of_schedule hmem
    suffices h : Balances b (At s.MovesApart s.queues b w 0 0) (scheduleQueue cfg c (w :: rest)) from h s (hs.at w s rfl)
    refine .bind (unnoticed_getBestSchedulableNode w false false).triple fun answer => ?_
    cases answer with
    | infeasible => exact .pure fun _ ht => ht.1.zero 0
    | noNode => exact .pure fun _ ht => ht.1.zero 0
    | node node =>
      refine .seq (triple_scheduleWork hw hheld hplaces node) ?_
      refine .bind ?_ fun _ => ih
      refine .chosen fun q' => .given fun hq' => ?_
      have hl' : q'.schedule.queue c = w :: rest := hq' ▸ hl
      refine (triple_popSchedule hl').post fun _ u hu => ⟨hu.1.zero 0, ?_⟩
      have hsched : u.tasksToSchedule = q'.schedule.insert c rest := congrArg Queues.schedule hu.2
      rw [hsched, queue_insert, if_pos rfl]

lemma accounted_scheduleClass : Accounted b (scheduleClass cfg c) := by
  refine .read fun s hs => ?_
  refine .bind ((triple_scheduleQueue c _).pre ?_) fun isInfeasible => ?_
  · rintro _ rfl
    exact ⟨hs, rfl⟩
  refine .ite (fun _ => .read fun t ht => ?_) fun _ => triple_dropEmptySchedule
  refine .bind (.check (fun hne _ hu => ?_) fun _ _ hu => Balanced.stops (hu ▸ ht) (by decide))
    fun _ => triple_moveToInfeasible
  rw [hu]
  exact ⟨ht, hne⟩

lemma accounted_schedulePendingTasks : Accounted b (schedulePendingTasks cfg) := by
  have h := composes_accounted (ρ := ρ) b
  refine h.seq ?_ (h.bind accounted_get fun s => h.forM accounted_scheduleClass _)
  exact h.bind accounted_get fun s => h.forM accounted_tryInfeasibleQueue _

/-- After one step the work is owed to the accounts when it leaves the queue. -/
def Dispatched (K : Prop) (b : Roster) (w : WorkID) (t : WorkQueues) (step : DispatchStep) (s : State ρ) : Prop :=
  ∃ q, (match step with
    | .erase => At K q b w 1 1 s ∧ (K → w ∉ q.popRequests)
    | .next => At K q b w 0 0 s
    | .stop _ => At K q b w 0 0 s) ∧ q.dispatch = t

lemma triple_dispatchElsewhere (hw : w < b.numWorks) (hq : 0 < q.held w) (hasked : K → w ∉ q.popRequests) :
    Triple (At K q b w 0 0) (dispatchElsewhere cfg w (b.task w)) (Dispatched K b w q.dispatch) (Stops b.tracked) := by
  have hstay : ∀ isInfeasible, Triple (At K q b w 0 0) (do
      setStateWaiting w .waitingForResourcesAvailable
      pure (.stop isInfeasible) : ManagerM ρ DispatchStep) (Dispatched K b w q.dispatch) (Stops b.tracked) :=
    fun _ => .bind (triple_setStateWaiting hasked _) fun _ => .pure fun _ ht => ⟨_, ht, rfl⟩
  have hplaces := places_of_held hq
  refine .bind (unnoticed_releaseTaskArgs _).triple fun _ =>
    .bind (unnoticed_getBestSchedulableNode w false false).triple fun answer => ?_
  cases answer with
  | infeasible => exact hstay true
  | noNode => exact hstay false
  | node node =>
    refine .ite (fun _ => hstay false) fun _ => ?_
    refine .seq (triple_spillback (fun _ => by omega) node) ?_
    refine .seq (triple_removeDependencies hw (by omega)) ?_
    exact .pure fun _ ht => ⟨q, ⟨ht, hasked⟩, rfl⟩

lemma triple_dispatchPinned (hw : w < b.numWorks) (hq : 0 < q.held w) (hasked : K → w ∉ q.popRequests)
    (hclass : K → w ∈ q.dispatch.queue (b.task w).schedulingClass) :
    Triple (At K q b w 0 0) (dispatchPinned cfg w (b.task w)) (Dispatched K b w q.dispatch) (Stops b.tracked) := by
  have hplaces := places_of_held hq
  refine .read fun s hs => .ite (fun _ => ?_) fun _ => ?_
  · refine .seq ((triple_removeDependencies hw (by omega)).pre fun _ ht => ht ▸ hs) ?_
    refine .bind (unnoticed_releaseTaskArgs _).triple fun _ => ?_
    exact .seq (triple_ownerDead fun _ => by omega) (.pure fun _ ht => ⟨q, ⟨ht, hasked⟩, rfl⟩)
  · cases cfg.allocateLocalTaskResources s.cluster (b.task w) with
    | none => exact (triple_dispatchElsewhere hw hq hasked).pre fun _ ht => ht ▸ hs
    | some allocation =>
      refine .seq ((triple_popWorker hasked hclass _ _).pre fun _ ht => ht ▸ hs) ?_
      exact .pure fun _ ht => ⟨_, ht, rfl⟩

lemma triple_dispatchWork (hw : w < b.numWorks) (hq : 0 < q.held w)
    (hasked : K → q.status w ≠ .waitingForWorker → w ∉ q.popRequests)
    (hclass : K → w ∈ q.dispatch.queue (b.task w).schedulingClass) :
    Triple (At K q b w 0 0) (dispatchWork cfg w) (Dispatched K b w q.dispatch) (Stops b.tracked) := by
  refine .read fun s hs => .ite (fun _ => .pure fun _ ht => ?_) fun hstatus => ?_
  · exact ⟨q, ht ▸ hs, rfl⟩
  have hasked : K → w ∉ q.popRequests := fun hk => hasked hk fun heq =>
    hstatus ((congrFun (congrArg Queues.status hs.queues) w).trans heq)
  rw [hs.1.task w]
  refine .bind ((unnoticed_pinTaskArgs _ _ _ _).triple.pre fun _ ht => ht ▸ hs) fun result => ?_
  cases result with
  | argsMissing =>
    exact .seq (triple_addWaiting rfl true) (.pure fun _ ht => ⟨_, ⟨ht, hasked⟩, rfl⟩)
  | overMemory =>
    refine .bind (triple unnoticed_get) fun _ =>
      .seq (triple (unnoticed_check (by decide))) (.bind (triple_setStateWaiting hasked _) fun _ => ?_)
    exact .pure fun _ ht => ⟨_, ht, rfl⟩
  | pinned => exact triple_dispatchPinned hw hq hasked hclass

/-- A work of a dispatch queue that does not wait for a worker has no callback in the worker pool. -/
lemma Balanced.asked (hs : Balanced b s) (hm : s.MovesApart) (hw : 0 < s.queues.places w)
    (hstatus : s.queues.status w ≠ .waitingForWorker) : w ∉ s.queues.popRequests := by
  intro hmem
  rcases (hs.awaited hm).waits w hmem with hcancelled | hwait
  · have hclosed := (hs.awaited hm).cancelled w hcancelled
    have htally := (hs.zero w).tally w
    rw [if_pos rfl] at htally
    split at htally <;> omega
  · exact hstatus hwait.1

lemma triple_dispatchQueue (passed l : List WorkID) :
    Balances b (fun s => Balanced b s ∧ s.tasksToDispatch.queue c = passed ++ l)
      (dispatchQueue cfg c passed l) := by
  induction l generalizing passed with
  | nil => exact .pure fun _ hs => hs.1
  | cons w rest ih =>
    rintro s ⟨hs, hl⟩
    have hmem : w ∈ s.tasksToDispatch.queue c := by simp [hl]
    have hheld := held_of_dispatch hmem
    have hw := (hs.zero w).of_held hheld
    suffices h : Balances b (At s.MovesApart s.queues b w 0 0) (dispatchQueue cfg c passed (w :: rest)) from h s (hs.at w s rfl)
    have hclass (hm : s.MovesApart) : w ∈ s.queues.dispatch.queue (b.task w).schedulingClass := by
      rw [(hs.awaited hm).classes c w hmem]
      exact hmem
    refine .bind (triple_dispatchWork hw hheld (fun hm => Balanced.asked hs hm (places_of_held hheld)) hclass)
      fun step => .chosen fun q' => .given fun hq' => ?_
    have hl' : q'.dispatch.queue c = passed ++ w :: rest := hq' ▸ hl
    cases step with
    | next =>
      refine (ih (passed ++ [w])).pre fun t ht => ⟨ht.1.zero 0, ?_⟩
      have hdisp : t.tasksToDispatch = q'.dispatch := congrArg Queues.dispatch ht.2
      rw [hdisp, hl', List.append_assoc]
      rfl
    | erase =>
      refine .given fun hasked => .seq (triple_eraseDispatch hl' hasked) ((ih passed).pre fun t ht => ⟨ht.1.zero 0, ?_⟩)
      have hdisp : t.tasksToDispatch = q'.dispatch.insert c (passed ++ rest) := congrArg Queues.dispatch ht.2
      rw [hdisp, queue_insert, if_pos rfl]
    | stop isInfeasible => exact .pure fun _ ht => ht.1.zero 0

lemma accounted_dispatchScheduledTasksToWorkers : Accounted b (dispatchScheduledTasksToWorkers cfg) := by
  have h := composes_accounted (ρ := ρ) b
  refine h.bind accounted_get fun s => h.forM (fun c => ?_) _
  refine .read fun t ht => ?_
  refine .bind ((triple_dispatchQueue c [] _).pre ?_) fun isInfeasible =>
    h.ite (fun _ => triple_moveDispatchToInfeasible) fun _ => triple_dropEmptyDispatch
  rintro _ rfl
  exact ⟨ht, rfl⟩

lemma triple_spillFromEnd (l : List WorkID) :
    Balances b (fun s => Balanced b s ∧ s.waitingTaskQueue = l.reverse) (spillFromEnd cfg l) := by
  induction l with
  | nil => exact .pure fun _ hs => hs.1
  | cons w rest ih =>
    rintro s ⟨hs, hl⟩
    have hheld : 0 < s.queues.held w := held_of_waiting (by simp [hl])
    have hw := (hs.zero w).of_held hheld
    have hplaces := places_of_held hheld
    suffices h : Balances b (At s.MovesApart s.queues b w 0 0) (spillFromEnd cfg (w :: rest)) from h s (hs.at w s rfl)
    refine .bind (triple_getTask w) fun task => .given ?_
    rintro rfl
    refine .bind (triple unnoticed_get) fun _ => .bind (unnoticed_taskDependenciesBlocked _ _).triple fun _ =>
        .bind (unnoticed_getBestSchedulableNode w true _).triple fun answer => ?_
    cases answer with
    | infeasible => exact .pure fun _ ht => ht.1.zero 0
    | noNode => exact .pure fun _ ht => ht.1.zero 0
    | node node =>
      refine .ite (fun _ => .pure fun _ ht => ht.1.zero 0) fun _ => ?_
      refine .bind ?_ fun _ => ih
      refine .seq (triple_spillback (fun _ => by omega) node) (.seq (triple_removeDependencies hw (by omega)) ?_)
      have hperm : s.queues.waiting.Perm (w :: rest.reverse) := by
        change s.waitingTaskQueue.Perm _
        rw [hl, List.reverse_cons]
        exact List.perm_append_comm
      refine (triple_leaveWaiting (fun t ht => ?_) hperm).post fun _ u hu => ⟨hu.1.zero 0, ?_⟩
      · rw [← ht]
        rfl
      · exact congrArg Queues.waiting hu.2

lemma accounted_spillWaitingTasks : Accounted b (spillWaitingTasks cfg) := by
  refine .read fun s hs => (triple_spillFromEnd _).pre ?_
  rintro _ rfl
  exact ⟨hs, (List.reverse_reverse _).symm⟩

lemma accounted_scheduleAndDispatchTasks : Accounted b (scheduleAndDispatchTasks cfg) := by
  have h := composes_accounted (ρ := ρ) b
  exact h.seq accounted_schedulePendingTasks
    (h.seq accounted_dispatchScheduledTasksToWorkers accounted_spillWaitingTasks)

end ClusterTaskManager
end AmazonRay.Raylet
