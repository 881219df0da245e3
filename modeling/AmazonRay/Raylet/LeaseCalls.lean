import AmazonRay.Raylet.LeaseQueues

/-! The calls to `ClusterTaskManager`: new lease requests, cancellation, and workers
that are popped. -/
namespace AmazonRay.Raylet
open Function Unnoticed Nat List

section

variable {ρ : Type} {b : Roster}

def Roster.extend (b : Roster) (task : RayTask)
    (hnew : b.tracked → ∀ x < b.numWorks, (b.task x).taskId ≠ task.taskId) : Roster where
  tracked := b.tracked
  numWorks := b.numWorks + 1
  task := Function.update b.task b.numWorks task
  distinct htr x hx y hy heq := by
    have hold : ∀ z < b.numWorks, Function.update b.task b.numWorks task z = b.task z :=
      fun z hz => Function.update_of_ne (Nat.ne_of_lt hz) ..
    have hlast : Function.update b.task b.numWorks task b.numWorks = task := Function.update_self ..
    rcases Nat.lt_succ_iff_lt_or_eq.mp hx with hx' | rfl <;>
      rcases Nat.lt_succ_iff_lt_or_eq.mp hy with hy' | rfl
    · rw [hold x hx', hold y hy'] at heq
      exact b.distinct htr x hx' y hy' heq
    · rw [hold x hx', hlast] at heq
      exact absurd heq (hnew htr x hx')
    · rw [hold y hy', hlast] at heq
      exact absurd heq.symm (hnew htr y hy')
    · rfl

lemma Roster.extend_task {task : RayTask}
    {hnew : b.tracked → ∀ x < b.numWorks, (b.task x).taskId ≠ task.taskId} {x : WorkID}
    (hx : x < b.numWorks) : (b.extend task hnew).task x = b.task x :=
  update_of_ne hx.ne ..

lemma Awaited.extend {task : RayTask} {hnew : b.tracked → ∀ x < b.numWorks, (b.task x).taskId ≠ task.taskId}
    {popRequests : List WorkID} {status status' : WorkID → WorkStatus} {dispatch : WorkQueues}
    {closed closed' : WorkID → Nat} (h : Awaited b popRequests status dispatch closed)
    (hclosed : ∀ x, 0 < closed x → x < b.numWorks) (hdispatch : ∀ c, ∀ x ∈ dispatch.queue c, x < b.numWorks)
    (hstatus : ∀ x ≠ b.numWorks, status' x = status x) (hfresh : status' b.numWorks ≠ .cancelled)
    (hle : ∀ x, closed x ≤ closed' x) : Awaited (b.extend task hnew) popRequests status' dispatch closed' where
  nodup := h.nodup
  waits x hx := by
    rcases h.waits x hx with hcancelled | ⟨hwait, hmem⟩
    · have hlt := hclosed x (h.cancelled x hcancelled)
      exact .inl ((hstatus x hlt.ne).trans hcancelled)
    · have hlt := hdispatch _ x hmem
      rw [hstatus x hlt.ne, Roster.extend_task hlt]
      exact .inr ⟨hwait, hmem⟩
  classes c x hx := (congrArg RayTask.schedulingClass (Roster.extend_task (hdispatch c x hx))).trans (h.classes c x hx)
  cancelled x hx := by
    by_cases heq : x = b.numWorks
    · exact absurd (heq ▸ hx) hfresh
    · exact (h.cancelled x (hstatus x heq ▸ hx)).trans_le (hle x)

end

namespace ClusterTaskManager
open Program WorkQueues

variable {ρ : Type} {cfg : Cluster ρ} {b : Roster} {w : WorkID} {q : Queues} {s : State ρ} {c : SchedulingClass} {taskId : TaskID} {K : Prop}

lemma Balanced.unmade (h : Balanced b s) {x : WorkID} (hx : ¬ x < b.numWorks) :
    s.queues.places x = 0 ∧ s.closed x = 0 := by
  have ht := h.tally x
  rw [if_neg hx, ite_self] at ht
  omega

lemma triple_newWork (task : RayTask) (grantOrReject : Bool)
    (hnew : b.tracked → ∀ x < b.numWorks, (b.task x).taskId ≠ task.taskId) :
    Triple (Balanced b) (newWork task grantOrReject : ManagerM ρ Unit)
      (fun _ => Balanced (b.extend task hnew)) (Stops b.tracked) := by
  refine .update fun s h => ?_
  obtain ⟨hplaces, hclosed⟩ := Balanced.unmade h (lt_irrefl b.numWorks)
  have hlt x : (if x < (b.extend task hnew).numWorks then 1 else 0 : Int) =
      (if x < b.numWorks then 1 else 0) + unit b.numWorks x := by
    change (if x < b.numWorks + 1 then 1 else 0 : Int) = _
    unfold unit
    rcases lt_trichotomy x b.numWorks with hx | hx | hx
    · simp [hx, lt_succ_of_lt hx, Nat.ne_of_lt hx]
    · simp [hx]
    · simp [not_lt_of_gt hx, not_lt_of_ge (succ_le_of_lt hx), ne_of_gt hx]
  have hreplies x : (update s.works b.numWorks { task, grantOrReject } x).replies.length =
      (s.works x).replies.length := by
    rw [update_apply]
    split
    case isTrue heq =>
      subst heq
      unfold State.closed at hclosed
      change 0 = _
      omega
    · rfl
  refine ⟨fun x => ?_, ?_, fun x => ?_, fun id x hid => ?_, fun hm => ?_, fun htr ho => ?_, fun hm => ?_⟩
  · simp only [Roster.extend, h.numWorks, update_apply]
    split
    · rfl
    · exact h.task x
  · exact congrArg (· + 1) h.numWorks
  · have htally := h.tally x
    simp only [Queues.places, Queues.held, State.queues, State.closed, h.numWorks, hreplies, hlt] at htally ⊢
    split
    · rw [count_pushBack]
      omega
    · rw [count_pushBack]
      omega
  · obtain ⟨hmem, htask⟩ := h.index id x hid
    have hx : x < b.numWorks := (h.zero x).of_held (held_of_waiting hmem)
    exact ⟨hmem, (Roster.extend_task hx).symm ▸ htask⟩
  · obtain ⟨hover, hkeys⟩ := h.apart hm
    refine ⟨hover, fun c => ?_⟩
    simp only [pushBack]
    split
    case isTrue hsome =>
      refine (hkeys c).imp id fun hc => ?_
      have hne : c ≠ task.schedulingClass := fun heq => hsome (heq ▸ hc)
      rw [Table.lookup_insert, if_neg hne, hc]
    case isFalse hnone =>
      rw [Table.lookup_insert]
      split
      case isTrue heq => exact .inr (heq ▸ not_not.mp hnone)
      · exact hkeys c
  · have hsync := h.synced htr ho
    refine ⟨hsync.tracked, fun x hx hd => ?_, fun id hid => ?_⟩
    · rcases Nat.lt_succ_iff_lt_or_eq.mp hx with hx' | rfl
      · rw [Roster.extend_task hx'] at hd ⊢
        exact hsync.held x hx' hd
      · have htask : (b.extend task hnew).task b.numWorks = task := update_self ..
        have hnot : ¬ s.dependencies.Registered task.taskId := by
          intro hreg
          obtain ⟨y, hy, _, heq⟩ := hsync.owned _ hreg
          exact hnew htr y hy heq
        rw [htask, if_neg hnot, ite_self]
        unfold Queues.places at hplaces
        change (s.queues.held b.numWorks : Int) = 0
        omega
    · obtain ⟨x, hx, hd, hid⟩ := hsync.owned id hid
      refine ⟨x, lt_succ_of_lt hx, ?_, ?_⟩
      · rwa [Roster.extend_task hx]
      · rwa [Roster.extend_task hx]
  · refine (h.awaited hm).extend (fun x hx => ?_) (fun c x hx => (h.zero x).of_held (held_of_dispatch hx))
      (fun x hx => ?_) ?_ fun x => ?_
    · by_contra hlt
      exact hx.ne' (Balanced.unmade h hlt).2
    · simp only [State.queues, h.numWorks, update_of_ne hx]
    · simp [State.queues, h.numWorks]
    · simp only [State.closed, h.numWorks, hreplies, le_refl]

lemma findTask_some {t : WorkQueues} (h : findTask cfg s t taskId = some (c, w)) : w ∈ t.queue c := by
  obtain ⟨c', _, hc'⟩ := exists_of_findSome?_eq_some h
  obtain ⟨x, hx, heq⟩ := Option.map_eq_some_iff.mp hc'
  cases heq
  exact mem_of_find?_eq_some hx

lemma triple_eraseWaiting (hw : w ∈ q.waiting) {d e : Int} : Triple (At K q b w d e) (eraseWaiting (b.task w).taskId w : ManagerM ρ Unit)
      (fun _ => Books b w (d - 1) (e - 1)) (Stops b.tracked) := by
  refine (triple_leaveWaiting (fun t ht => ?_) (perm_cons_erase hw)).post fun _ _ ht => ht.1
  rw [← ht]
  rfl

lemma accounted_taskUnblocked (taskId : TaskID) : Accounted b (taskUnblocked taskId : ManagerM ρ Unit) := by
  refine .read fun s hs => ?_
  cases hid : s.waitingTasksIndex.lookup taskId with
  | none => exact .pure fun _ ht => ht ▸ hs
  | some w =>
    obtain ⟨hmem, rfl, _, _⟩ := (hs.zero w).of_index hid
    refine .bind ((triple_getTask w).pre (Balanced.at hs w)) fun task => .given ?_
    rintro rfl
    refine .seq (triple_pushDispatch rfl) ?_
    exact (triple_eraseWaiting hmem).post fun _ _ ht => ht.zero 0

lemma accounted_cancelDispatch (hs : Balanced b s) (hw : w ∈ s.tasksToDispatch.queue c) (runtimeEnvSetupFailed : Bool) :
    Balances b (· = s) (cancelDispatch cfg taskId c w runtimeEnvSetupFailed) := by
  have hheld := held_of_dispatch hw
  have hlt := (hs.zero w).of_held hheld
  have hplaces := places_of_held hheld
  refine .seen ?_
  refine .seq ((triple_reply (fun _ => by omega) _).pre (Balanced.at hs w)) ?_
  have h := composes_unnoticed (ρ := ρ)
  refine .seq (triple (h.onlyIf fun _ => h.seq (unnoticed_releaseAllocated _) (unnoticed_releaseTaskArgs _))) ?_
  rw [hs.task w]
  refine .seq (triple_removeDependencies hlt (by omega)) ?_
  refine .seq (triple_updateStatus (fun _ => ⟨rfl, rfl, rfl⟩) fun _ _ hclosed ha => ha.restatus (fun _ => rfl) fun _ => ?_) ?_
  · -- The work was in one place and not closed, so that it is closed by the reply.
    have htally := (hs.zero w).tally w
    rw [if_pos hlt] at htally hclosed
    rw [if_pos rfl] at htally
    omega
  exact (triple_removeDispatch hw fun _ _ => update_self ..).post fun _ _ ht => ht.1.zero 0

lemma accounted_cancelWaiting (taskId : TaskID) (runtimeEnvSetupFailed : Bool) :
    Accounted b (cancelWaiting taskId runtimeEnvSetupFailed : ManagerM ρ Bool) := by
  refine .read fun s hs => ?_
  cases hid : s.waitingTasksIndex.lookup taskId with
  | none => exact .pure fun _ ht => ht ▸ hs
  | some w =>
    obtain ⟨hmem, rfl, hlt, hheld⟩ := (hs.zero w).of_index hid
    have hplaces := places_of_held hheld
    refine .bind ((triple_getTask w).pre (Balanced.at hs w)) fun task => .given ?_
    rintro rfl
    refine .seq (triple_reply (fun _ => by omega) _) ?_
    refine .seq (triple_removeDependencies hlt (by omega)) ?_
    refine .seq (triple_eraseWaiting hmem) ?_
    exact .pure fun _ ht => ht.zero 0

lemma accounted_cancelTask (taskId : TaskID) (runtimeEnvSetupFailed : Bool) :
    Accounted b (cancelTask cfg taskId runtimeEnvSetupFailed) := by
  refine .read fun s hs => ?_
  have hreply : ∀ w, 0 < s.tasksToSchedule.count w + s.infeasibleTasks.count w →
      Triple (· = s) (replyCancelled w runtimeEnvSetupFailed : ManagerM ρ Unit)
      (fun _ => At s.MovesApart s.queues b w 1 0) (Stops b.tracked) := by
    intro w hw
    have hplaces : 0 < s.queues.places w := hw.trans_le (Nat.le_add_right _ _)
    exact .pre (triple_reply (fun _ => by exact_mod_cast hplaces) _) (Balanced.at hs w)
  match h₁ : findTask cfg s s.tasksToSchedule taskId with
  | some (c, w) =>
    have hpos := count_pos (findTask_some h₁)
    refine .seq (hreply w (by omega)) (.seq (triple_removeSchedule (findTask_some h₁)) ?_)
    exact .pure fun _ ht => ht.1.zero 0
  | none =>
    match h₂ : findTask cfg s s.tasksToDispatch taskId with
    | some (c, w) =>
      refine .seq (accounted_cancelDispatch hs (findTask_some h₂) _) ?_
      exact .pure fun _ ht => ht
    | none =>
      match h₃ : findTask cfg s s.infeasibleTasks taskId with
      | some (c, w) =>
        have hpos := count_pos (findTask_some h₃)
        refine .seq (hreply w (by omega)) (.seq (triple_removeInfeasible (findTask_some h₃)) ?_)
        exact .pure fun _ ht => ht.1.zero 0
      | none =>
        refine (accounted_cancelWaiting taskId _).pre ?_
        rintro _ rfl
        exact hs

lemma triple_leaveDispatch (hq : ∀ c, w ∈ q.dispatch.queue c → w < b.numWorks) (hasked : K → w ∉ q.popRequests)
    (hin : K → w ∈ q.dispatch.queue c) (dispatched : Bool) :
    Balances b (At K q b w 1 0) (do
      eraseFromDispatchQueue c w
      removeDependencies (b.task w)
      pure dispatched : ManagerM ρ Bool) := by
  refine .bind (Q := fun _ s => (∃ q', At K q' b w 0 (-1) s) ∧ w < b.numWorks) ?_ fun _ =>
    .given fun hw => .chosen fun q' => ?_
  · refine .read fun s hs => ?_
    have hsame : s.tasksToDispatch = q.dispatch := congrArg Queues.dispatch hs.2
    refine .seq (.check (Q := fun _ t => t = s) (fun _ _ ht => ht)
      fun _ t ht => At.stops (show At K q b w 1 0 t from ht ▸ hs) fun _ _ => by decide) ?_
    by_cases hmem : w ∈ s.tasksToDispatch.queue c
    · have hmem' : w ∈ q.dispatch.queue c := hsame ▸ hmem
      refine .seq ((triple_removeDispatch hmem' fun hk hw => absurd hw (hasked hk)).pre fun _ ht => ht ▸ hs) ?_
      exact .check (fun _ _ ht => ⟨⟨_, ht⟩, hq c hmem'⟩) fun hn => absurd hmem hn
    · -- The work was moved while it waited for this worker.
      have hmoved : ¬ s.MovesApart := fun hm => hmem (hsame ▸ hin (hs.apart hm).1)
      refine .seq (.update (Q := fun _ t => ¬ t.MovesApart) fun _ ht => ht ▸ hmoved) ?_
      exact .check (fun h => absurd h hmem) fun _ _ ht => ⟨fun _ _ => by decide, fun hm => absurd hm ht⟩
  · refine .seq (triple_removeDependencies hw (by omega)) ?_
    exact .pure fun _ ht => ht.1.zero 0

lemma triple_dispatch (hd : K → 0 < q.places w) (worker : WorkerID) :
    Triple (At K q b w 0 0) (dispatch worker w : ManagerM ρ Unit) (fun _ => At K q b w 1 0) (Stops b.tracked) := by
  refine .bind (triple unnoticed_get) fun s => ?_
  refine .seq (triple (unnoticed_check (by decide))) ?_
  refine .seq (triple (unnoticed_modify fun _ => ?_)) (triple_reply (fun hk => by exact_mod_cast hd hk) _)
  exact { refl_of Silent _ with }

lemma accounted_runtimeEnvFailed (task : RayTask) : Accounted b (do
    modify fun s => { s with runtimeEnvFailures := s.runtimeEnvFailures ++ [task] }
    removeDependencies task : ManagerM ρ Unit) := by
  refine .bind (Q := fun _ s => Balanced b s ∧ task ∈ s.runtimeEnvFailures) ?_ fun _ => ?_
  · refine .update fun s h => ⟨⟨h.task, h.numWorks, h.tally, h.index, h.apart, fun htr ho => ?_, h.awaited⟩, ?_⟩
    · exact h.synced htr ⟨ho.1, fun t ht => ho.2 t (mem_append_left _ ht)⟩
    · exact mem_append_right _ (mem_singleton.mpr rfl)
  · refine .onlyIf (fun hd => .within ?_) fun _ _ hs => hs.1
    rintro s ⟨h, hmem⟩
    have hnot : ¬ s.Orderly := fun ho => hd (ho.2 task hmem)
    exact .anyhow (fun _ _ => h.redepend fun _ ho => absurd ho hnot) fun _ _ =>
      ⟨fun _ ho => absurd ho hnot, fun _ => h.replies (Int.natCast_nonneg _)⟩

lemma triple_emptyWorkerPopped (hasked : K → w ∉ q.popRequests) (task : RayTask) (status : PopWorkerStatus) :
    Balances b (At K q b w 0 0) (emptyWorkerPopped cfg w task status) := by
  have h := composes_accounted (ρ := ρ) b
  refine .ite (fun _ => ?_) fun _ => ?_
  · exact (h.seq (accounted_cancelTask _ _) (accounted_runtimeEnvFailed task)).pre fun _ ht => ht.1.zero 0
  cases PopWorkerStatus.cause status with
  | some cause => exact (triple_setStateWaiting hasked cause).post fun _ _ ht => ht.1.zero 0
  | none => exact .throw fun _ ht => ht.stops fun _ _ => by decide

/-- The callback of a work has left the worker pool, and the work is cancelled or in the dispatch queue of its class. -/
def Called (b : Roster) (w : WorkID) (s : State ρ) : Prop :=
  Balanced b s ∧ (s.MovesApart → w ∉ s.popRequests ∧
    ((s.works w).status = .cancelled ∨ w ∈ s.tasksToDispatch.queue (b.task w).schedulingClass))

lemma triple_poppedWorkerHandler (w : WorkID) (worker : Option WorkerID) (status : PopWorkerStatus) :
    Balances b (Called b w) (poppedWorkerHandler cfg w worker status) := by
  refine .read fun s hcalled => ?_
  obtain ⟨hs, hready⟩ := hcalled
  have hat := Balanced.at hs w
  have hlt : ∀ c, w ∈ s.queues.dispatch.queue c → w < b.numWorks :=
    fun c hc => (hs.zero w).of_held (held_of_dispatch hc)
  refine .ite (fun _ => .pure fun t ht => ht ▸ hs) fun hstatus => ?_
  have hasked (hm : s.MovesApart) : w ∉ s.queues.popRequests := (hready hm).1
  have hin (hm : s.MovesApart) : w ∈ s.queues.dispatch.queue (b.task w).schedulingClass :=
    (hready hm).2.resolve_left hstatus
  have hplaces (hm : s.MovesApart) : 0 < s.queues.places w := places_of_held (held_of_dispatch (hin hm))
  rw [hs.task w]
  cases worker with
  | none =>
    refine .seq ((unnoticed_releaseWork w _).triple.pre hat) ?_
    exact .seq (triple_emptyWorkerPopped hasked _ status) (.pure fun _ ht => ht)
  | some worker =>
    refine .ite (fun _ => ?_) fun _ => ?_
    · refine .seq ((unnoticed_releaseWork w _).triple.pre hat) ?_
      exact .seq (triple_ownerDead fun hm => by exact_mod_cast hplaces hm) (triple_leaveDispatch hlt hasked hin _)
    · exact .seq ((triple_dispatch hplaces worker).pre hat) (triple_leaveDispatch hlt hasked hin _)

/-- The callback is taken out of the worker pool and run. -/
lemma triple_poppedWorker (hs : Balanced b s) (hw : w ∈ s.popRequests) (worker : Option WorkerID)
    (status : PopWorkerStatus) : Balances b (· = s) (ManagerOp.run cfg (.poppedWorker w worker status)) := by
  refine .bind (Q := fun _ => Called b w) (.update ?_) fun _ =>
    .bind (triple_poppedWorkerHandler w worker status) fun _ => .pure fun _ ht => ht
  rintro _ rfl
  constructor
  · refine Books.refile hs { Refiled.refl _ with } (fun _ => rfl) (fun _ => rfl) hs.index fun _ ha => ?_
    exact ⟨ha.nodup.erase w, fun x hx => ha.waits x (mem_of_mem_erase hx), ha.classes, ha.cancelled⟩
  · intro hm
    have ha := hs.awaited hm
    exact ⟨ha.nodup.not_mem_erase, (ha.waits w hw).imp_right And.right⟩

lemma accounted_tasksUnblocked (readyIds : List TaskID) : Accounted b (tasksUnblocked cfg readyIds) := by
  have h := composes_accounted (ρ := ρ) b
  exact h.onlyIf fun _ => h.seq (h.forM accounted_taskUnblocked readyIds) accounted_scheduleAndDispatchTasks

lemma unnoticed_taskFinished (worker : WorkerID) : Unnoticed (taskFinished cfg worker) := by
  have h := composes_unnoticed (ρ := ρ)
  refine h.bind unnoticed_get fun s => ?_
  cases s.leasedWorkers.lookup worker with
  | none => exact h.pure ()
  | some lease =>
    exact h.seq (unnoticed_releaseTaskArgs _) (unnoticed_releaseAllocated _)

lemma accounted_dependencies (op : DependencyOp) : Accounted b (dependencyManager op.run : ManagerM ρ Unit) := by
  refine .within fun s hs => ?_
  by_cases hc : b.tracked ∧ s.Orderly
  · obtain ⟨htracked, hheld, hown⟩ := hs.synced hc.1 hc.2
    refine (DependencyManager.tracked_run htracked op).conseq (fun _ ht => ht) (fun _ m hm => hs.redepend fun _ _ => ?_)
      fun c m he => ⟨fun _ _ => ?_, fun _ => hs.replies (Int.natCast_nonneg _)⟩
    · refine ⟨hm.1, fun x hx hd => ?_, fun id hid => hown id ((hm.2 id).mp hid)⟩
      rw [hheld x hx hd]
      simp only [hm.2]
    · rcases he with rfl | rfl <;> decide
  · exact .anyhow (fun _ m => hs.redepend fun htr ho => absurd ⟨htr, ho⟩ hc) fun _ _ =>
      ⟨fun htr ho => absurd ⟨htr, ho⟩ hc, fun _ => hs.replies (Int.natCast_nonneg _)⟩

end ClusterTaskManager
end AmazonRay.Raylet
