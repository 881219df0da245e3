import AmazonRay.Raylet.Bookkeeping

/-! What the single moves of `ClusterTaskManager` do to the accounts. -/
namespace AmazonRay.Raylet.ClusterTaskManager
open Program WorkQueues List Table Function Queues State Unnoticed

variable {ρ : Type} {cfg : Cluster ρ} {b : Roster} {w : WorkID} {d e : Int} {q : Queues} {K : Prop} (x : WorkID)

lemma composes_unnoticed : Composes fun α (x : ManagerM ρ α) => Unnoticed x where
  pure _ s := .pure fun _ ht => ht ▸ refl_of Silent s
  bind hx hf s := .call (hx s) fun a t ht => (hf a t).conseq (fun _ hu => hu) (fun _ _ hu => trans_of Silent ht hu)
    fun _ _ hu => ⟨trans_of Silent ht hu.1, hu.2⟩

lemma unnoticed_modify {g : State ρ → State ρ} (h : ∀ s, Silent s (g s)) : Unnoticed (modify g : ManagerM ρ PUnit) := by
  refine fun s => .update ?_
  rintro _ rfl
  exact h _

lemma unnoticed_get : Unnoticed (get : ManagerM ρ (State ρ)) := by
  refine fun s => .get ?_
  rintro _ rfl
  exact refl_of Silent _

lemma unnoticed_check {err : Check} (he : ¬ err.OfDependencies) {c : Prop} [Decidable c] :
    Unnoticed (check err c : ManagerM ρ Unit) :=
  composes_unnoticed.ite (fun _ => composes_unnoticed.pure _) fun _ s => .throw fun _ ht => ⟨ht ▸ refl_of Silent s, he⟩

lemma update_field {β : Type} (field : Work → β) {works : WorkID → Work} {new : Work} (h : field new = field (works w))
    (x : WorkID) : field (update works w new x) = field (works x) := by
  by_cases hx : x = w
  · rw [hx, update_self, h]
  · rw [update_of_ne hx]

lemma unnoticed_updateWork {f : Work → Work}
    (hf : ∀ work, (f work).task = work.task ∧ (f work).replies = work.replies ∧ (f work).status = work.status) :
    Unnoticed (updateWork x f : ManagerM ρ Unit) := by
  refine unnoticed_modify fun s => ⟨?_, update_field Work.task (hf _).1, update_field Work.replies (hf _).2.1,
    rfl, rfl, rfl, rfl, rfl, rfl⟩
  exact congrArg (Queues.mk _ _ _ _ _ _) (funext (update_field Work.status (hf _).2.2))

lemma unnoticed_taskArguments {α : Type} {x : EStateM Check TaskArguments α}
    (h : Triple (fun _ => True) x (fun _ _ => True) fun err _ => ¬ err.OfDependencies) :
    Unnoticed (taskArguments x : ManagerM ρ α) := by
  refine fun s => .within ?_
  rintro _ rfl
  exact h.conseq (fun _ _ => trivial) (fun _ _ _ => { refl_of Silent _ with })
    fun _ _ he => ⟨{ refl_of Silent _ with }, he⟩

lemma triple_releaseTaskArgs (taskId : TaskID) :
    Triple (fun _ => True) (TaskArguments.releaseTaskArgs taskId) (fun _ _ => True)
      fun err _ => ¬ err.OfDependencies := by
  have h := composes_triple (fun _ : TaskArguments => True) fun err _ => ¬ Check.OfDependencies err
  refine h.bind (.get fun _ _ => trivial) fun a => ?_
  cases a.executingTaskArgs.lookup taskId with
  | none => exact h.pure ()
  | some args =>
    refine h.seq (h.forM (fun arg => ?_) args) (.update fun _ _ => trivial)
    refine h.bind (.get fun _ _ => trivial) fun a => ?_
    cases a.pinnedTaskArguments.lookup arg with
    | none => exact .throw fun _ _ => by decide
    | some _ =>
      refine h.seq (.check (fun _ _ _ => trivial) fun _ _ _ => by decide) ?_
      exact .update fun _ _ => trivial

lemma unnoticed_releaseTaskArgs (taskId : TaskID) : Unnoticed (releaseTaskArgs taskId : ManagerM ρ Unit) :=
  unnoticed_taskArguments (triple_releaseTaskArgs taskId)

lemma unnoticed_pinTaskArgs (maxBytes : Nat) (sizes : Option (ObjectID → Option Nat))
    (taskId : TaskID) (deps : List ObjectID) :
    Unnoticed (taskArguments (TaskArguments.pinTaskArgsIfMemoryAvailable maxBytes sizes taskId deps) :
      ManagerM ρ PinResult) := by
  have h := composes_triple (fun _ : TaskArguments => True) fun err _ => ¬ Check.OfDependencies err
  refine unnoticed_taskArguments ?_
  unfold TaskArguments.pinTaskArgsIfMemoryAvailable
  split
  · exact h.pure _
  · refine h.seq (.update fun _ _ => trivial) ?_
    refine h.bind (.get fun _ _ => trivial) fun _ => ?_
    exact h.ite (fun _ => h.seq (triple_releaseTaskArgs taskId) (h.pure _)) fun _ => h.pure _

lemma unnoticed_releaseAllocated (allocated : Option TaskResourceInstances) :
    Unnoticed (releaseAllocated cfg allocated) := unnoticed_modify fun s => { refl_of Silent s with }

lemma unnoticed_getBestSchedulableNode (requiresObjectStoreMemory forceSpillback : Bool) :
    Unnoticed (getBestSchedulableNode cfg x requiresObjectStoreMemory forceSpillback) := by
  refine fun _ => .read ?_
  rintro s rfl
  refine .ite (fun _ => .pure ?_) fun _ => .bind (.set ?_) fun _ => .skip
  · rintro _ rfl
    exact refl_of Silent _
  · rintro _ rfl
    exact { refl_of Silent _ with }

lemma unnoticed_releaseWork (task : RayTask) : Unnoticed (releaseWork cfg x task) := by
  have h := composes_unnoticed (ρ := ρ)
  exact h.bind unnoticed_get fun _ => h.seq (unnoticed_releaseAllocated _)
    (h.seq (unnoticed_updateWork x fun _ => ⟨rfl, rfl, rfl⟩) (unnoticed_releaseTaskArgs _))

lemma unnoticed_taskDependenciesBlocked (active : Nat → Bool) (taskId : TaskID) :
    Unnoticed (dependencyManager (DependencyManager.taskDependenciesBlocked active taskId) : ManagerM ρ Bool) := by
  refine fun _ => .within ?_
  rintro s rfl
  have hsilent : ∀ m, m = s.dependencies → Silent s { s with dependencies := m } := by
    rintro _ rfl
    exact refl_of Silent _
  apply Triple.seen
  cases s.dependencies.queuedTaskRequests.lookup taskId with
  | none => exact .throw fun m hm => ⟨hsilent m hm, by decide⟩
  | some task =>
    refine .bind (.check (fun _ _ ht => ht) fun _ m hm => ⟨hsilent m hm, by decide⟩) fun _ => .pure fun m hm => hsilent m hm

lemma triple_getTask : Triple (At K q b w d e) (getTask x : ManagerM ρ RayTask)
    (fun task s => At K q b w d e s ∧ task = b.task x) (Stops b.tracked) := by
  refine .read fun s hs => .pure ?_
  rintro _ rfl
  exact ⟨hs, hs.1.task x⟩

lemma triple_reply (hd : K → d < q.places w) (r : LeaseReply) : Triple (At K q b w d e) (reply w r : ManagerM ρ Unit)
    (fun _ => At K q b w (d + 1) e) (Stops b.tracked) := by
  refine .update ?_
  rintro s ⟨h, rfl, hapart⟩
  let work : Work := { s.works w with replies := (s.works w).replies ++ [r] }
  let t : State ρ := { s with works := update s.works w work }
  have hreplies x : (t.works x).replies.length = (s.works x).replies.length + unit w x := by
    unfold unit
    by_cases hx : x = w
    · rw [hx, show t.works w = work from update_self .., if_pos rfl]
      exact length_append
    · rw [show t.works x = s.works x from update_of_ne hx .., if_neg hx]
      rfl
  have hclosed x : t.closed x = s.closed x + unit w x := by
    change (t.works x).replies.length + s.ownerDead.count x + s.overwritten.count x = _
    rw [hreplies, closed]
    omega
  have hqueues : t.queues = s.queues := congrArg (Queues.mk _ _ _ _ _ _) (funext (update_field Work.status rfl))
  refine ⟨h.refile { Refiled.refl s with task := update_field Work.task rfl } (fun x => ?_)
    (fun _ => by rw [hqueues]) h.index fun _ ha => ?_, hqueues, fun hm => ⟨(hapart hm).1, hd (hapart hm).1⟩⟩
  · rw [hclosed, hqueues, debt_add]
    omega
  · rw [hqueues]
    exact ha.mono fun x => by rw [hclosed]; exact Nat.le_add_right _ _

lemma triple_ownerDead (hd : K → d < q.places w) : Triple (At K q b w d e)
    (modify fun s => { s with ownerDead := s.ownerDead ++ [w] } : ManagerM ρ Unit)
    (fun _ => At K q b w (d + 1) e) (Stops b.tracked) := by
  refine .update ?_
  rintro s ⟨h, rfl, hapart⟩
  let t : State ρ := { s with ownerDead := s.ownerDead ++ [w] }
  have hclosed x : t.closed x = s.closed x + unit w x := by
    simp only [t, closed, count_append, count_cons, count_nil]
    omega
  refine ⟨h.refile { Refiled.refl s with } (fun x => ?_)
    (fun _ => rfl) h.index fun _ ha => ha.mono fun x => by rw [hclosed]; exact Nat.le_add_right _ _, rfl,
    fun hm => ⟨(hapart hm).1, hd (hapart hm).1⟩⟩
  have hqueues : t.queues = s.queues := rfl
  rw [hclosed, hqueues, debt_add]
  omega

lemma triple_updateStatus {f : Work → Work} {status : WorkStatus}
    (hf : ∀ work, (f work).task = work.task ∧ (f work).replies = work.replies ∧ (f work).status = status)
    (hawaited : K → ∀ closed : WorkID → Nat, (q.places w + closed w : Int) = (if w < b.numWorks then 1 else 0) + d →
      q.Awaits b closed → Awaited b q.popRequests (update q.status w status) q.dispatch closed) :
    Triple (At K q b w d e) (updateWork w f : ManagerM ρ Unit)
      (fun _ => At K { q with status := update q.status w status } b w d e) (Stops b.tracked) := by
  refine .update ?_
  rintro s ⟨h, rfl, hapart⟩
  let t : State ρ := { s with works := update s.works w (f (s.works w)) }
  have hclosed : t.closed = s.closed := by
    funext x
    exact congrArg (fun replies => replies.length + s.ownerDead.count x + s.overwritten.count x)
      (update_field Work.replies (hf _).2.1 x)
  have hqueues : t.queues = { s.queues with status := update s.queues.status w status } := by
    refine congrArg (Queues.mk _ _ _ _ _ _) (funext fun x => ?_)
    rw [← (hf (s.works w)).2.2]
    exact apply_update (fun _ => Work.status) s.works w _ x
  have htally := h.tally w
  rw [if_pos rfl] at htally
  refine ⟨h.refile { Refiled.refl s with task := update_field Work.task (hf _).1 }
    (fun x => ?_) (fun _ => by rw [hqueues]; rfl) h.index fun hm ha => ?_, hqueues, hapart⟩
  · rw [hclosed, hqueues]
    rfl
  · rw [hclosed, hqueues]
    exact hawaited (hapart hm).1 _ htally ha

lemma triple_setStateWaiting (hw : K → w ∉ q.popRequests) (cause : UnscheduledWorkCause) :
    Triple (At K q b w d e) (setStateWaiting w cause : ManagerM ρ Unit)
      (fun _ => At K { q with status := update q.status w .waiting } b w d e) (Stops b.tracked) :=
  triple_updateStatus (fun _ => ⟨rfl, rfl, rfl⟩) fun hk _ _ ha => ha.restatus (fun h => absurd h (hw hk)) nofun

lemma triple_spillback (hd : K → d < q.places w) (node : NodeID) : Triple (At K q b w d e) (spillback cfg node w)
    (fun _ => At K q b w (d + 1) e) (Stops b.tracked) := by
  refine .read fun s hs => .ite (fun _ => ?_) fun _ => ?_
  · exact (triple_reply hd _).pre fun _ ht => ht ▸ hs
  · refine .seq ((triple (unnoticed_modify fun _ => ?_)).pre fun _ ht => ht ▸ hs)
      (.bind (triple unnoticed_get) fun _ => .seq (triple (unnoticed_check (by decide))) (triple_reply hd _))
    exact { refl_of Silent _ with }

lemma triple_removeDependencies (hw : w < b.numWorks) (he : e < q.held w) :
    Triple (At K q b w d e) (removeDependencies (b.task w) : ManagerM ρ Unit)
      (fun _ => At K q b w d (e + 1)) (Stops b.tracked) := by
  refine .onlyIf (fun hd => .within ?_) fun hd s hs => { hs with books := hs.1.free (not_not.mp hd) }
  rintro s ⟨hs, rfl, hapart⟩
  by_cases hc : b.tracked ∧ s.Orderly
  · obtain ⟨htr, ho⟩ := hc
    have hreg := hs.registered htr ho hw hd he
    have hsync := hs.synced htr ho
    refine (DependencyManager.tracked_removeTaskDependencies hsync.tracked hreg).conseq
      (fun _ ht => ht) (fun _ m hm => ⟨hs.redepend fun _ _ => ?_, rfl, hapart⟩) fun _ _ hf => hf.elim
    refine hsync.change htr hw hd hm.1 (fun id hid => ?_) ?_
    · simp [DependencyManager.Registered, hm.2.1, hid]
    · rw [if_pos hreg, if_neg, zero_add, add_comm]
      simp [DependencyManager.Registered, hm.2.1]
  · have hat : At K s.queues b w d _ s := ⟨hs, rfl, hapart⟩
    exact .anyhow (fun _ => hat.untracked hc) fun _ m =>
      At.stops (e := 0) (hat.untracked hc m) fun htr ho => absurd ⟨htr, ho⟩ hc

lemma triple_requestTaskDependencies (hw : w < b.numWorks) (hd : (b.task w).dependencies ≠ []) (hq : q.held w = 0) :
    Triple (At K q b w d 0) (dependencyManager (DependencyManager.requestTaskDependencies
      (b.task w).taskId (b.task w).dependencies) : ManagerM ρ Bool)
      (fun _ => At K q b w d (-1)) (Stops b.tracked) := by
  refine .within ?_
  rintro s ⟨hs, rfl, hapart⟩
  by_cases hc : b.tracked ∧ s.Orderly
  · obtain ⟨htr, ho⟩ := hc
    have hsync := hs.synced htr ho
    have hreg : ¬ s.dependencies.Registered (b.task w).taskId := by
      intro hreg
      have hh := hsync.held w hw hd
      rw [if_pos hreg, if_pos rfl, hq] at hh
      exact absurd hh (by decide)
    refine (DependencyManager.tracked_requestTaskDependencies hsync.tracked hreg _).conseq
      (fun _ ht => ht) (fun _ m hm => ⟨hs.redepend fun _ _ => ?_, rfl, hapart⟩) fun _ _ hf => hf.elim
    obtain ⟨hm, -, pullRequestId, htasks⟩ := hm
    refine hsync.change htr hw hd hm (fun id hid => ?_) ?_
    · simp [DependencyManager.Registered, htasks, hid]
    · rw [if_neg hreg, if_pos]
      · rfl
      · simp [DependencyManager.Registered, htasks]
  · have hat : At K s.queues b w d _ s := ⟨hs, rfl, hapart⟩
    exact .anyhow (fun _ => hat.untracked hc) fun _ m =>
      At.stops (e := 0) (hat.untracked hc m) fun htr ho => absurd ⟨htr, ho⟩ hc

section

variable {c : SchedulingClass} {taskId : TaskID} {g : State ρ → State ρ} {rest : List WorkID}

lemma triple_requeue (f : Queues → Queues) (hg : ∀ s, g s = s.requeue (f s.queues)) {d' e' : Int}
    (hplaces : ∀ x, ((f q).places x : Int) + (if x = w then d else 0) = q.places x + if x = w then d' else 0)
    (hheld : ∀ x, ((f q).held x : Int) + (if x = w then e else 0) = q.held x + if x = w then e' else 0)
    (hindex : (∀ id x, q.index.lookup id = some x → x ∈ q.waiting ∧ (b.task x).taskId = id) →
      ∀ id x, (f q).index.lookup id = some x → x ∈ (f q).waiting ∧ (b.task x).taskId = id)
    (hschedule : ∀ c, q.schedule.lookup c = none → (f q).schedule.lookup c = none)
    (hinfeasible : ∀ c, q.infeasible.lookup c = none → (f q).infeasible.lookup c = none)
    (hawaited : K → ∀ closed, q.Awaits b closed → (f q).Awaits b closed) :
    Triple (At K q b w d e) (modify g : ManagerM ρ PUnit) (fun _ => At K (f q) b w d' e') (Stops b.tracked) := by
  refine .update fun s hs => ?_
  rw [hg, hs.2]
  exact hs.requeue hplaces hheld (hindex hs.index) hschedule hinfeasible fun hk => hawaited hk _

lemma triple_pushDispatch (hc : (b.task w).schedulingClass = c) :
    Triple (At K q b w d e) (pushDispatch c w : ManagerM ρ Unit)
      (fun _ => At K { q with dispatch := q.dispatch.pushBack c w } b w (d + 1) (e + 1)) (Stops b.tracked) := by
  refine triple_requeue (fun q => { q with dispatch := q.dispatch.pushBack c w }) (fun _ => rfl)
    (fun x => ?_) (fun x => ?_) id (fun _ hc => hc) (fun _ hc => hc) fun _ _ ha => ha.grow (fun c' => ?_) fun c' x hx => ?_
  · simp only [places, held, count_pushBack, debt_add]
    omega
  · simp only [held, count_pushBack, debt_add]
    omega
  · rw [pushBack, queue_insert]
    split
    case isTrue heq => exact heq ▸ subset_append_left _ _
    · exact Subset.refl _
  · rw [pushBack, queue_insert] at hx
    split at hx
    case isTrue heq =>
      refine (mem_append.mp hx).imp (fun hx => heq ▸ hx) fun hx => ?_
      rw [mem_singleton.mp hx, hc, heq]
    · exact .inl hx

lemma triple_addWaiting (hid : (b.task w).taskId = taskId) (front : Bool) :
    Triple (At K q b w d e) (addWaiting taskId w front : ManagerM ρ Unit) (fun _ => At K { q with
        waiting := if front then w :: q.waiting else q.waiting ++ [w]
        index := q.index.insert taskId w } b w (d + 1) (e + 1)) (Stops b.tracked) := by
  let waiting : Queues → List WorkID := fun q =>
    if front then w :: q.waiting else q.waiting ++ [w]
  have hcount x : (waiting q).count x = q.waiting.count x + unit w x := by
    cases front <;> simp [waiting, count_cons, count_append]
  have hmem x : x ∈ q.waiting ∨ x = w → x ∈ waiting q := by
    cases front <;> simp [waiting, or_comm]
  refine .bind (triple_requeue (fun q => { q with waiting := waiting q }) (fun _ => rfl)
      (fun x => ?_) (fun x => ?_) (fun h id x hidx => ?_) (fun _ hc => hc) (fun _ hc => hc) fun _ _ ha => ha) fun _ =>
      .bind (triple unnoticed_get) fun _ =>
      .seq (triple (unnoticed_check (by decide)))
        (triple_requeue (fun q => { q with index := q.index.insert taskId w }) (fun _ => rfl)
          (fun _ => rfl) (fun _ => rfl) (fun h id x hidx => ?_) (fun _ hc => hc) (fun _ hc => hc) fun _ _ ha => ha)
  · simp only [places, held, hcount, debt_add]
    omega
  · simp only [held, hcount, debt_add]
    omega
  · exact ⟨hmem x (.inl (h id x hidx).1), (h id x hidx).2⟩
  · rw [lookup_insert] at hidx
    split at hidx
    case isTrue heq =>
      cases hidx
      exact ⟨hmem w (.inr rfl), heq ▸ hid⟩
    · exact h id x hidx

/-- A work leaves the queues of the works that are not yet scheduled. -/
lemma triple_unqueue (schedule infeasible : Queues → WorkQueues)
    (hg : ∀ s, g s = { s with tasksToSchedule := schedule s.queues, infeasibleTasks := infeasible s.queues })
    (hcount : ∀ x, (schedule q).count x + (infeasible q).count x + unit w x =
      q.schedule.count x + q.infeasible.count x)
    (hschedule : ∀ c, q.schedule.lookup c = none → (schedule q).lookup c = none)
    (hinfeasible : ∀ c, q.infeasible.lookup c = none → (infeasible q).lookup c = none) :
    Triple (At K q b w d e) (modify g : ManagerM ρ Unit)
      (fun _ => At K { q with schedule := schedule q, infeasible := infeasible q } b w (d - 1) e)
      (Stops b.tracked) := by
  refine triple_requeue (fun q => { q with schedule := schedule q, infeasible := infeasible q }) hg
    (fun x => ?_) (fun _ => rfl) id hschedule hinfeasible fun _ _ ha => ha
  have := hcount x
  simp only [places, held, debt_sub]
  omega

lemma triple_popSchedule (hq : q.schedule.queue c = w :: rest) : Triple (At K q b w d e)
      (modify fun s => { s with tasksToSchedule := s.tasksToSchedule.insert c rest } : ManagerM ρ Unit)
      (fun _ => At K { q with schedule := q.schedule.insert c rest } b w (d - 1) e) (Stops b.tracked) := by
  refine triple_unqueue (fun q => q.schedule.insert c rest) Queues.infeasible (fun _ => rfl) (fun x => ?_)
    (fun _ hc => lookup_insert_none (hq ▸ cons_ne_nil _ _) hc) fun _ hc => hc
  have hcount := count_insert q.schedule c rest x
  rw [hq, count_cons] at hcount
  omega

lemma triple_eraseDispatch {passed : List WorkID} (hq : q.dispatch.queue c = passed ++ w :: rest)
    (hw : K → w ∉ q.popRequests) :
    Triple (At K q b w d e)
      (modify fun s => { s with tasksToDispatch := s.tasksToDispatch.insert c (passed ++ rest) } : ManagerM ρ Unit)
      (fun _ => At K { q with dispatch := q.dispatch.insert c (passed ++ rest) } b w (d - 1) (e - 1))
      (Stops b.tracked) := by
  have hcount x : WorkQueues.count (q.dispatch.insert c (passed ++ rest)) x + unit w x =
      q.dispatch.count x := by
    have hi := count_insert q.dispatch c (passed ++ rest) x
    rw [hq, count_append, count_append, count_cons] at hi
    omega
  refine triple_requeue (fun q => { q with dispatch := q.dispatch.insert c (passed ++ rest) })
    (fun _ => rfl) (fun x => ?_) (fun x => ?_) id (fun _ hc => hc) (fun _ hc => hc) fun hk _ ha =>
      ha.shrink (w := w) (fun c' x hx => ?_) (fun c' x hx hne => ?_) fun hmem => absurd hmem (hw hk)
  · have := hcount x
    simp only [places, held, debt_sub]
    omega
  · have := hcount x
    simp only [held, debt_sub]
    omega
  · rw [queue_insert] at hx
    split at hx
    case isTrue heq =>
      rw [heq, hq]
      exact (mem_append.mp hx).elim (mem_append_left _) fun hx => mem_append_right _ (mem_cons_of_mem _ hx)
    · exact hx
  · rw [queue_insert]
    split
    case isTrue heq =>
      rw [heq, hq] at hx
      exact mem_append.mpr ((mem_append.mp hx).imp_right fun hx => mem_of_ne_of_mem hne hx)
    · exact hx

lemma triple_removeSchedule (hq : w ∈ q.schedule.queue c) : Triple (At K q b w d e)
    (modify fun s => { s with tasksToSchedule := s.tasksToSchedule.remove c w } : ManagerM ρ Unit)
    (fun _ => At K { q with schedule := q.schedule.remove c w } b w (d - 1) e) (Stops b.tracked) :=
  triple_unqueue (fun q => q.schedule.remove c w) Queues.infeasible (fun _ => rfl)
    (fun x => by rw [← count_remove hq x]; omega) (fun _ hc => lookup_remove_none hq hc) fun _ hc => hc

lemma triple_removeInfeasible (hq : w ∈ q.infeasible.queue c) : Triple (At K q b w d e)
    (modify fun s => { s with infeasibleTasks := s.infeasibleTasks.remove c w } : ManagerM ρ Unit)
    (fun _ => At K { q with infeasible := q.infeasible.remove c w } b w (d - 1) e) (Stops b.tracked) :=
  triple_unqueue Queues.schedule (fun q => q.infeasible.remove c w) (fun _ => rfl)
    (fun x => by rw [← count_remove hq x]; omega) (fun _ hc => hc) fun _ hc => lookup_remove_none hq hc

lemma triple_removeDispatch (hq : w ∈ q.dispatch.queue c) (hw : K → w ∈ q.popRequests → q.status w = .cancelled) :
    Triple (At K q b w d e)
    (modify fun s => { s with tasksToDispatch := s.tasksToDispatch.remove c w } : ManagerM ρ Unit)
    (fun _ => At K { q with dispatch := q.dispatch.remove c w } b w (d - 1) (e - 1)) (Stops b.tracked) := by
  refine triple_requeue (fun q => { q with dispatch := q.dispatch.remove c w }) (fun _ => rfl)
    (fun x => ?_) (fun x => ?_) id (fun _ hc => hc) (fun _ hc => hc) fun hk _ ha =>
      ha.shrink (fun c' x hx => ?_) (fun c' x hx hne => ?_) (hw hk)
  · have := count_remove hq x
    simp only [places, held, debt_sub]
    omega
  · have := count_remove hq x
    simp only [held, debt_sub]
    omega
  · rw [queue_remove] at hx
    split at hx
    case isTrue heq => exact heq ▸ mem_of_mem_erase hx
    · exact hx
  · rw [queue_remove]
    split
    case isTrue heq => exact (mem_erase_of_ne hne).mpr (heq ▸ hx)
    · exact hx

lemma triple_popWorker (hw : K → w ∉ q.popRequests) (hclass : K → w ∈ q.dispatch.queue (b.task w).schedulingClass)
    (allocated : TaskResourceInstances) (r : ρ) : Triple (At K q b w d e) (popWorker w allocated r)
      (fun _ => At K { q with status := update q.status w .waitingForWorker, popRequests := q.popRequests ++ [w] }
        b w d e) (Stops b.tracked) := by
  refine .seq (triple (unnoticed_modify fun s => { refl_of Silent s with })) ?_
  refine .seq (triple_updateStatus (fun _ => ⟨rfl, rfl, rfl⟩)
    fun hk _ _ ha => ha.restatus (fun h => absurd h (hw hk)) nofun) ?_
  refine triple_requeue (fun q => { q with popRequests := q.popRequests ++ [w] }) (fun _ => rfl) (fun _ => rfl)
    (fun _ => rfl) id (fun _ hc => hc) (fun _ hc => hc) fun hk _ ha => { ha with nodup := ?_, waits := fun x hx => ?_ }
  · exact nodup_append.mpr ⟨ha.nodup, nodup_singleton w, fun x hx y hy => by
      rw [mem_singleton.mp hy]
      exact ne_of_mem_of_not_mem hx (hw hk)⟩
  · rcases mem_append.mp hx with hx | hx
    · exact ha.waits x hx
    · rw [mem_singleton.mp hx]
      exact .inr ⟨update_self .., hclass hk⟩

lemma triple_leaveWaiting {waiting : List WorkID}
    (hg : ∀ s, s.queues = q → g s = s.requeue { q with waiting, index := q.index.erase (b.task w).taskId })
    (hperm : q.waiting.Perm (w :: waiting)) :
    Triple (At K q b w d e) (modify g : ManagerM ρ Unit)
      (fun _ => At K { q with waiting, index := q.index.erase (b.task w).taskId } b w (d - 1) (e - 1))
      (Stops b.tracked) := by
  have hcount x : q.waiting.count x = waiting.count x + unit w x := by
    rw [hperm.count_eq x, count_cons]
  refine .update fun s hs => ?_
  rw [hg s hs.2]
  refine hs.requeue (fun x => ?_) (fun x => ?_) (fun id x hidx => ?_) (fun _ hc => hc) (fun _ hc => hc) fun _ ha => ha
  · simp only [places, held, hcount, debt_sub]
    omega
  · simp only [held, hcount, debt_sub]
    omega
  · obtain ⟨hne, hidx⟩ := lookup_of_erase hidx
    obtain ⟨hmem, hid⟩ := hs.index id x hidx
    have hxw : x ≠ w := fun heq => hne (heq ▸ hid.symm)
    exact ⟨mem_of_ne_of_mem hxw (hperm.mem_iff.mp hmem), hid⟩

end

variable {c : SchedulingClass}

abbrev Balanced (b : Roster) (s : State ρ) : Prop := Books b 0 0 0 s

abbrev Balances (b : Roster) {α : Type} (P : State ρ → Prop) (x : ManagerM ρ α) : Prop :=
  Triple P x (fun _ => Balanced b) (Stops b.tracked)

lemma queue_of_none {t : WorkQueues} (h : t.lookup c = none) : t.queue c = [] := by
  rw [WorkQueues.queue, h]
  rfl

lemma count_moved (t t' : WorkQueues) (c : SchedulingClass) (x : WorkID) :
    WorkQueues.count (t.insert c (t'.queue c)) x + WorkQueues.count (t'.erase c) x + (t.queue c).count x =
      t.count x + t'.count x := by
  have hinsert := count_insert t c (t'.queue c) x
  have herase := count_erase t' c x
  omega

lemma apart_moved {t t' : WorkQueues} (h : ∀ c, t.lookup c = none ∨ t'.lookup c = none) (hc : t'.lookup c ≠ none)
    (q : List WorkID) :
    t.queue c = [] ∧ ∀ c', AList.lookup c' (t.insert c q) = none ∨ AList.lookup c' (t'.erase c) = none := by
  refine ⟨queue_of_none ((h c).resolve_right hc), fun c' => ?_⟩
  rw [lookup_insert, lookup_erase]
  by_cases hcc : c' = c
  · exact .inr (if_pos hcc)
  · rw [if_neg hcc, if_neg hcc]
    exact h c'

/-- Works go from one kind of queue to the other, and the queue they replace is lost. -/
lemma Balanced.move {s : State ρ} (h : Balanced b s) {schedule infeasible : WorkQueues} {lost : List WorkID}
    {announced : List RayTask} (hcount : ∀ x, schedule.count x + infeasible.count x + lost.count x =
      s.tasksToSchedule.count x + s.infeasibleTasks.count x)
    (hapart : (∀ c, s.tasksToSchedule.lookup c = none ∨ s.infeasibleTasks.lookup c = none) →
      lost = [] ∧ ∀ c, schedule.lookup c = none ∨ infeasible.lookup c = none) :
    Balanced b { s with
      tasksToSchedule := schedule, infeasibleTasks := infeasible, announced := announced
      overwritten := s.overwritten ++ lost } := by
  refine ⟨h.task, h.numWorks, fun x => ?_, h.index, fun hm => ?_, fun htr ho =>
    { h.synced htr ho with held := (h.synced htr ho).held }, fun hm => (h.awaited hm).mono fun x => ?_⟩
  · have htally := h.tally x
    have := hcount x
    simp only [places, held, queues, closed, count_append] at htally ⊢
    omega
  · obtain ⟨hover, hkeys⟩ := h.apart hm
    obtain ⟨hlost, hkeys⟩ := hapart hkeys
    refine ⟨?_, hkeys⟩
    change s.overwritten ++ lost = []
    rw [hover, hlost]
    rfl
  · simp only [closed, count_append]
    omega

lemma triple_moveToSchedule : Balances b (fun s => Balanced b s ∧ s.infeasibleTasks.lookup c ≠ none)
    (moveToSchedule c : ManagerM ρ Unit) := by
  refine .update ?_
  rintro s ⟨h, hc⟩
  exact Balanced.move h (count_moved _ _ c) fun hkeys => apart_moved hkeys hc _

lemma triple_moveToInfeasible : Balances b (fun s => Balanced b s ∧ s.tasksToSchedule.queue c ≠ [])
    (moveToInfeasible c : ManagerM ρ Unit) := by
  refine .update ?_
  rintro s ⟨h, hc⟩
  refine Balanced.move h (fun x => ?_) fun hkeys => ?_
  · have hmoved := count_moved s.infeasibleTasks s.tasksToSchedule c x
    omega
  · obtain ⟨hlost, hmoved⟩ := apart_moved (fun c => (hkeys c).symm) (lookup_ne_none hc) _
    exact ⟨hlost, fun c' => (hmoved c').symm⟩

lemma triple_moveDispatchToInfeasible : Balances b (Balanced b)
    (moveDispatchToInfeasible c : ManagerM ρ Unit) := by
  refine .update fun s h => ⟨h.task, h.numWorks, fun x => ?_, h.index, fun hm => ?_, fun htr ho => ?_,
    fun hm => ?_⟩
  · have h₁ := h.tally x
    have h₂ := count_insert s.infeasibleTasks c (s.tasksToDispatch.queue c) x
    have h₃ := count_erase s.tasksToDispatch c x
    simp only [places, held, queues, closed, count_append] at h₁ ⊢
    omega
  · obtain ⟨hover, hkeys⟩ := h.apart fun m hmem => hm m (mem_append_left _ hmem)
    have hfree := (hm _ (mem_append_right _ (mem_singleton.mpr rfl))).1
    rw [decide_eq_false_iff_not, not_or, not_not, not_not] at hfree
    constructor
    · change s.overwritten ++ _ = []
      rw [hover, queue_of_none hfree.1]
      rfl
    · intro c'
      rw [lookup_insert]
      by_cases hcc : c' = c
      · exact .inl (hcc ▸ hfree.2)
      · rw [if_neg hcc]
        exact hkeys c'
  · have hsync := h.synced htr ⟨fun m hmem => ho.1 m (mem_append_left _ hmem), ho.2⟩
    refine { hsync with held := fun x hx hd => ?_ }
    -- The works of the queue have no dependencies.
    have hnot : x ∉ s.tasksToDispatch.queue c := by
      intro hmem
      have := ho.1 _ (mem_append_right _ (mem_singleton.mpr rfl)) (s.works x).task (mem_map.mpr ⟨x, hmem, rfl⟩)
      exact hd (h.task x ▸ this)
    have hcount := count_erase s.tasksToDispatch c x
    rw [count_eq_zero_of_not_mem hnot] at hcount
    have hheld := hsync.held x hx hd
    simp only [held, queues] at hheld ⊢
    omega
  · -- None of the works of the queue waits for a worker.
    have hnone := (hm _ (mem_append_right _ (mem_singleton.mpr rfl))).2
    have ha : s.queues.Awaits b (closed { s with overwritten := s.overwritten ++ s.infeasibleTasks.queue c }) := by
      refine (h.awaited fun m hmem => hm m (mem_append_left _ hmem)).mono fun x => ?_
      simp only [closed, count_append]
      omega
    refine ⟨ha.nodup, fun x hx => (ha.waits x hx).imp_right fun hwait => ⟨hwait.1, ?_⟩, fun c' x hx => ?_, ha.cancelled⟩
    · change x ∈ WorkQueues.queue (s.tasksToDispatch.erase c) _
      rw [queue_erase, if_neg]
      · exact hwait.2
      · intro hclass
        exact any_eq_false.mp hnone x (hclass ▸ hwait.2) (decide_eq_true hwait.1)
    · change x ∈ WorkQueues.queue (s.tasksToDispatch.erase c) _ at hx
      rw [queue_erase] at hx
      split at hx
      · cases hx
      · exact ha.classes c' x hx

lemma triple_dropEmptySchedule : Balances b (Balanced b) (dropEmptySchedule c : ManagerM ρ Unit) := by
  refine .update fun s h => ?_
  by_cases hq : s.tasksToSchedule.queue c = []
  · simp only [if_pos hq]
    refine h.refile ⟨fun _ => rfl, rfl, rfl, rfl, rfl, rfl, fun c' hc' => ?_, fun _ hc' => hc'⟩
      (fun x => ?_) (fun _ => rfl) h.index fun _ ha => ha
    · rw [lookup_erase, hc', ite_self]
    · have hcount := count_erase s.tasksToSchedule c x
      rw [hq, count_nil] at hcount
      simp only [places, held, queues, closed]
      omega
  · simp only [if_neg hq]
    exact h

lemma triple_dropEmptyDispatch : Balances b (Balanced b) (dropEmptyDispatch c : ManagerM ρ Unit) := by
  refine .update fun s h => ?_
  by_cases hq : s.tasksToDispatch.queue c = []
  · have hcount x : WorkQueues.count (s.tasksToDispatch.erase c) x = s.tasksToDispatch.count x := by
      have := count_erase s.tasksToDispatch c x
      rw [hq, count_nil] at this
      omega
    simp only [if_pos hq]
    refine h.refile { Refiled.refl s with }
      (fun x => ?_) (fun x => ?_) h.index fun _ ha => ?_
    · simp only [places, held, queues, closed, hcount]
    · simp only [held, queues, hcount]
    · have hqueue c' : WorkQueues.queue (s.tasksToDispatch.erase c) c' = s.tasksToDispatch.queue c' := by
        rw [queue_erase]
        split
        case isTrue heq => rw [heq, hq]
        · rfl
      exact ha.grow (fun c' => (hqueue c').symm ▸ Subset.refl _) fun c' x hx => .inl (hqueue c' ▸ hx)
  · simp only [if_neg hq]
    exact h

end AmazonRay.Raylet.ClusterTaskManager
