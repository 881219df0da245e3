import AmazonRay.TaskSubmitter.Accounts
import AmazonRay.TaskSubmitter.LeaseRuns

/-! With one task in flight to a worker at most, none is left pending unless a runtime environment fails. -/
namespace AmazonRay.TaskSubmitter
open Program TaskManager List Submitter

def more (d : TaskID → Int) (id : TaskID) (x : TaskID) : Int := d x + if x = id then 1 else 0

def less (d : TaskID → Int) (id : TaskID) (x : TaskID) : Int := d x - if x = id then 1 else 0

section

variable {cfg : SubmitterConfig} {d : TaskID → Int} {k : SchedulingKey} {q rest : List TaskID} {id : TaskID}

variable {E : Check → System → Prop} {P : List TaskID → Prop}

lemma accounted_setQueue {d' : TaskID → Int} {g : List TaskID → List TaskID}
     (hg : ∀ q, P q → ∀ x, ((g q).count x : Int) + d' x = q.count x + d x) :
    Triple (fun s => Accounted d s ∧ P (s.submitter.entry k).taskQueue)
      (updateEntry k fun e => { e with taskQueue := g e.taskQueue }) (fun _ => Accounted d') E := by
  refine accounted_modify (P := fun s => P (s.entry k).taskQueue) (fun s hP x => ?_) fun s => ?_
  · have hq := queued_setEntry s k { s.entry k with taskQueue := g (s.entry k).taskQueue } x
    have hx := hg _ hP x
    simp only [attempts, setEntry] at hq ⊢
    omega
  · exact ⟨.refl _, rfl, rfl, rfl⟩

lemma accounted_append (k : SchedulingKey) (id : TaskID) :
    Triple (Accounted (more d id)) (updateEntry k fun e => { e with taskQueue := e.taskQueue ++ [id] })
      (fun _ => Accounted d) E := by
  refine (accounted_setQueue (g := fun q => q ++ [id]) (P := fun _ => True) fun q _ x => ?_).pre fun _ hs => ⟨hs, trivial⟩
  rw [count_append, more]
  by_cases hid : x = id
  · simp [hid]
    omega
  · simp [hid, Ne.symm hid]

lemma accounted_erase (k : SchedulingKey) (id : TaskID) :
    Triple (fun s => Accounted d s ∧ id ∈ (s.submitter.entry k).taskQueue)
      (updateEntry k fun e => { e with taskQueue := e.taskQueue.erase id })
      (fun _ => Accounted (more d id)) E := by
  refine accounted_setQueue (g := fun q => q.erase id) fun q hm x => ?_
  have hpos := count_pos_iff.mpr hm
  rw [count_erase, more]
  by_cases hid : x = id
  · subst hid
    simp
    omega
  · simp [hid, Ne.symm hid]

def Waiting (d : TaskID → Int) (k : SchedulingKey) (q : List TaskID) (s : System) : Prop :=
  Accounted d s ∧ (s.submitter.entry k).taskQueue = q

lemma queue_of_keeps {x : SubmitM Unit} (h : KeepsAccounts d x)
    (hq : ∀ s, ((final x s).submitter.entry k).taskQueue = (s.submitter.entry k).taskQueue) :
    Tells (fun s => Accounted d s ∧ P (s.submitter.entry k).taskQueue) x
      (fun _ s => Accounted d s ∧ P (s.submitter.entry k).taskQueue) := by
  have hm : Moves (fun s t : System => (t.submitter.entry k).taskQueue = (s.submitter.entry k).taskQueue) x := hq
  refine ((h.pre fun s (hs : Accounted d s ∧ P (s.submitter.entry k).taskQueue) => hs.1).frame hm).post fun _ t ht => ?_
  obtain ⟨hacc, s, hs, hst⟩ := ht
  exact ⟨hacc, hst ▸ hs.2⟩

lemma entry_setEntry_queue (s : Submitter) {e : SchedulingKeyEntry} (he : e.taskQueue = (s.entry k).taskQueue) :
    ((s.setEntry k e).entry k).taskQueue = (s.entry k).taskQueue := by
  rw [entry_setEntry, Function.update_self, he]

lemma waiting_pushNormalTask (a : WorkerAddress) :
    Tells (Waiting d k q) (pushNormalTask a k id) (fun _ => Waiting (less d id) k q) := by
  refine .seq (queue_of_keeps (P := (· = q)) (keeps_updateLease a _) fun _ => rfl) ?_
  refine .read fun s hs => .bind (Q := fun _ => Waiting d k q) ?_ fun _ => ?_
  · exact (Triple.tested fun _ hs => hs.1.told).pre fun t ht => ht ▸ hs
  refine .seq (queue_of_keeps (P := (· = q)) (keeps_updateEntry k fun _ => rfl) fun s => entry_setEntry_queue _ rfl) ?_
  refine (Triple.frame (Q := fun _ => Accounted (less d id))
    (R := fun s t => (t.submitter.entry k).taskQueue = (s.submitter.entry k).taskQueue)
    (accounted_modify (P := fun s => (s.entry k).taskQueue = q) (fun s _ x => ?_) fun s => ?_) fun _ => rfl).post ?_
  · by_cases hid : x = id
    · simp [attempts, queued, less, hid]
      omega
    · simp [attempts, queued, less, hid, Ne.symm hid]
  · exact ⟨.refl _, rfl, rfl, rfl⟩
  · rintro _ t ⟨hacc, s, hs, hst⟩
    exact ⟨hacc, hst.trans hs.2⟩

lemma waiting_pushTasks (a : WorkerAddress) (queue : List TaskID) :
    Tells (Waiting d k queue) (pushTasks cfg a k queue) (fun _ => Accounted d) := by
  induction queue with
  | nil => exact .pure fun _ hs => hs.1
  | cons id rest ih =>
    refine .read fun s hs => .onlyIf (fun _ => ?_) fun _ t ht => ht ▸ hs.1
    refine .seq ((waiting_pushNormalTask a).pre fun t ht => ht ▸ hs) ?_
    refine .bind ?_ fun _ => ih
    have hpop : Tells (Waiting (less d id) k (id :: rest)) (updateEntry k fun e => { e with taskQueue := rest })
        (fun _ => Accounted d) := by
      refine accounted_setQueue (g := fun _ => rest) (P := fun q => q = id :: rest) fun q hq x => ?_
      rw [hq, count_cons, less]
      by_cases hid : x = id
      · simp [hid]
      · simp [hid, Ne.symm hid]
    intro t ht
    refine ⟨hpop t ht, ?_⟩
    rw [entry_setEntry, Function.update_self]

lemma waiting_findEntry (k : SchedulingKey) : Tells (Accounted d) (findEntry k)
    (fun e => Waiting d k e.taskQueue) :=
  .seq (keeps_neutral fun s => neutral_setEntry s rfl) (.read fun s hs => .pure fun t ht => by
      subst ht
      exact ⟨hs, rfl⟩)

variable (hmax : cfg.maxTasksInFlightPerWorker = 1)
include hmax

lemma keeps_onWorkerIdle (a : WorkerAddress)
    (k : SchedulingKey) (wasError : Bool) : KeepsAccounts d (onWorkerIdle cfg a k wasError) := by
  have h := composes_accounts d
  refine h.bind (keeps_findLease a) fun lease => h.onlyIf fun _ => ?_
  refine .bind (waiting_findEntry k) fun e => .read fun s hs => ?_
  refine .bind (.pre (.ite (fun _ => ?_) fun _ => ?_)
    fun t ht => ht ▸ hs) fun _ => keeps_requestNewWorkerIfNeeded k false
  · refine (h.seq keeps_check ?_).pre fun _ hs => hs.1
    exact h.onlyIf fun _ => keeps_stealTasksOrReturnWorker hmax a wasError k
  · refine .seq (waiting_pushTasks a e.taskQueue) ?_
    exact h.onlyIf fun _ => keeps_cancelWorkerLeaseIfNeeded k

lemma keeps_pushToActiveWorker (k : SchedulingKey)
    (workers : List WorkerAddress) : KeepsAccounts d (pushToActiveWorker cfg k workers) := by
  have h := composes_accounts d
  induction workers with
  | nil => exact h.pure ()
  | cons a rest ih =>
    refine h.bind keeps_get fun _ => h.seq keeps_check (h.bind (keeps_findLease a) fun _ => ?_)
    exact h.ite (fun _ => keeps_onWorkerIdle hmax a k false) fun _ => ih

lemma accounted_queueTask (id : TaskID) :
    Tells (Accounted (more d id)) (queueTask cfg id) (fun _ => Accounted d) := by
  have h := composes_accounts d
  refine .bind keeps_get fun s => .seq (accounted_append _ id) ?_
  refine h.bind keeps_get fun s => h.seq (h.onlyIf fun _ => ?_) (keeps_requestNewWorkerIfNeeded _ false)
  exact keeps_pushToActiveWorker hmax _ _

end

section

variable {cfg : SubmitterConfig} {d : TaskID → Int} {id : TaskID} {s : System}

section

variable (h : Accounted d s)
include h

lemma Accounted.congr {d' : TaskID → Int} (hd : ∀ x, d' x = d x) : Accounted d' s := (funext hd : d' = d) ▸ h

lemma Accounted.pending {x : TaskID} (hx : 1 ≤ s.submitter.attempts x + d x) :
    s.worker.lineage.isTaskPending x = true := by
  have hh := h.handed x
  rw [Tasks.handed] at hh
  cases hp : s.worker.lineage.isTaskPending x with
  | true => rfl
  | false =>
    simp only [hp, Bool.false_eq_true, if_false] at hh
    omega

lemma Accounted.one (x : TaskID) : s.submitter.attempts x + d x ≤ 1 := by
  have hh := h.handed x
  rw [Tasks.handed] at hh
  split at hh <;> omega

/-- The actors that are being created stay pending while another task is reported on. -/
def System.watch (s : System) (silent : Prop) : Watch where
  before := s.worker.lineage.outputs
  tracked := True
  silent := silent
  kept y := if y ∈ s.submitter.creations then some .actorCreationTask else none

lemma Accounted.watched (hd : ∀ y, 0 ≤ d y) (silent : Prop) :
    Attempts (s.watch silent) s.worker.lineage.handed s.worker.lineage := by
  refine ⟨fun _ => h.counted, fun y type hy => ?_, [], by simp [System.watch], fun _ => rfl, by simp [resolutions]⟩
  obtain ⟨hm, rfl⟩ : y ∈ s.submitter.creations ∧ TaskType.actorCreationTask = type := by
    simpa [System.watch] using hy
  have hpos := count_pos_iff.mpr hm
  have := hd y
  refine ⟨h.pending ?_, h.creations y hm⟩
  rw [attempts]
  omega

end

lemma accounted_taskManager {α : Type} {x : WorkerM α} {f : α → TaskID → Int} (hd : ∀ y, 0 ≤ d y)
    (hx : ∀ (w : Watch) (a : TaskID → Int), (∀ y, 1 ≤ d y → w.kept y = none) →
      Partly (fun t => Attempts w a t.lineage ∧ ∀ y, 1 ≤ d y → t.lineage.isTaskPending y = true) x
        (fun r t => Attempts w (fun y => a y + f r y - d y) t.lineage)) :
    Tells (Accounted d) (taskManager x) (fun r => Accounted (f r)) := by
  refine .within fun s hs => ?_
  refine (hx (s.watch True) s.worker.lineage.handed fun y hy => ?_).conseq ?_ (fun r t ht => ?_) fun _ _ _ => hs.told
  · refine if_neg fun hm => ?_
    have hone := hs.one y
    have hpos := count_pos_iff.mpr hm
    rw [attempts] at hone
    omega
  · rintro t rfl
    exact ⟨hs.watched hd True, fun y hy => hs.pending (by omega)⟩
  · obtain ⟨new, _, hnil, hh⟩ := ht.handed
    refine ⟨ht.counted trivial, fun y => ?_, fun y hm => (ht.kept y _ (if_pos hm)).2, hs.peaceful, hs.told⟩
    have hy := hh y
    rw [hnil trivial] at hy
    have := hs.handed y
    simp only [map_nil, count_nil] at hy
    dsimp only
    omega

lemma accounted_recordOutcome (hid : 1 ≤ d id) : Triple (Accounted d) (recordOutcome id) (fun _ => Accounted d) E := by
  refine .update fun s hs => ⟨hs.counted, hs.handed, hs.creations, hs.peaceful, ?_⟩
  intro o ho
  rcases mem_append.mp ho with ho | ho
  · exact hs.told o ho
  · rw [mem_singleton.mp ho]
    exact hs.pending (by omega)

lemma ends_eq (a : TaskID → Int) : (fun y => a y + d y - more d id y) = Function.update a id (a id - 1) := by
  funext y
  rw [more, Function.update_apply]
  split
  case isTrue hy => rw [hy]; omega
  · omega

variable (hd : ∀ y, 0 ≤ d y) (id : TaskID)
include hd

lemma more_self : 1 ≤ more d id id ∧ ∀ y, 0 ≤ more d id y := by
  have := hd id
  refine ⟨by simp [more]; omega, fun y => ?_⟩
  have := hd y
  rw [more]
  split <;> omega

lemma accounted_failPendingTask :
    Tells (Accounted (more d id)) (failPendingTask cfg id) (fun _ => Accounted d) := by
  obtain ⟨hid, hmore⟩ := more_self hd id
  refine .seq (accounted_recordOutcome hid) (.bind (accounted_taskManager hmore fun w a hk => ?_) fun _ => .pure fun _ hs => hs)
  rw [ends_eq]
  exact (attempts_pendingTaskFailed (hk id hid) true).pre fun _ ht => ht.1

lemma accounted_finishPendingTask (reply : PushTaskReply) (addr : WorkerAddress) (nodeAlive : Bool) :
    Tells (Accounted (more d id)) (finishPendingTask cfg id reply addr nodeAlive) (fun _ => Accounted d) := by
  obtain ⟨hid, hmore⟩ := more_self hd id
  refine .seq (accounted_recordOutcome hid) (accounted_taskManager hmore fun w a hk => ?_)
  rw [ends_eq]
  exact (attempts_completePendingTask (hk id hid) reply addr nodeAlive).pre fun _ ht => ⟨ht.1, ht.2 id hid⟩

lemma accounted_handleOutcome (p : Push) (o : PushOutcome) :
    Tells (Accounted (more d p.taskId)) (handleOutcome cfg p o) (fun _ => Accounted d) := by
  have hfinish : Tells (Accounted (more d p.taskId)) (finishPendingTask cfg p.taskId o.reply p.addr
      o.nodeAlive) (fun _ => Accounted d) :=
    accounted_finishPendingTask hd _ _ _ _
  refine .ite (fun _ => accounted_failPendingTask hd p.taskId) fun _ => .bind keeps_get fun s => ?_
  refine .ite (fun _ => ?_) fun _ => hfinish
  refine .bind (accounted_taskManager (f := fun retried => if retried then d else more d p.taskId)
    (more_self hd _).2 fun w a hk => ?_) fun retried => ?_
  · refine ((attempts_retryTaskIfPossible p.taskId).conseq (fun _ ht => ht.1) (fun r t ht => ?_) fun _ _ h => h)
    cases r with
    | true => simpa [ends_eq] using ht.1
    | false => simpa using ht.1
  · refine .onlyIf (fun hr => ?_) fun hr s hs => ?_
    · rw [hr]
      exact hfinish
    · rwa [if_pos (by simpa using hr)] at hs

end

section

variable {cfg : SubmitterConfig} {d : TaskID → Int}

lemma accounted_dependenciesResolved (hmax : cfg.maxTasksInFlightPerWorker = 1) (hd : ∀ y, 0 ≤ d y)
    (id : TaskID) (ok : Bool) : Tells (Accounted (more d id)) (dependenciesResolved cfg id ok)
      (fun _ => Accounted d) := by
  have hfail : Tells (Accounted (more d id)) (failPendingTask cfg id) (fun _ => Accounted d) := accounted_failPendingTask hd id
  refine .ite (fun _ => hfail) fun _ => .read fun s hs => .ite (fun hc => ?_) fun _ => ?_
  · refine .update fun t ht => ?_
    subst ht
    refine ⟨hs.counted, fun x => ?_, fun x hx => ?_, hs.peaceful, hs.told⟩
    · have hx := hs.handed x
      simp only [more, attempts, queued, count_append] at hx ⊢
      by_cases hid : x = id
      · simp [hid] at hx ⊢
        omega
      · simp [hid, Ne.symm hid] at hx ⊢
        omega
    · rcases mem_append.mp hx with hx | hx
      · exact hs.creations x hx
      · exact mem_singleton.mp hx ▸ hc
  refine .pre (.bind keeps_get fun s => ?_) fun t ht => ht ▸ hs
  refine .ite (fun _ => ?_) fun _ => accounted_queueTask hmax id
  exact .seq (keeps_neutral fun s => { Neutral.refl s with }) hfail

def inList (l : List (TaskID × Bool)) (x : TaskID) : Int := (l.map Prod.fst).count x

lemma inList_cons (r : TaskID × Bool) (l : List (TaskID × Bool)) (x : TaskID) :
    inList (r :: l) x = more (inList l) r.1 x := by
  rw [inList, map_cons, count_cons, more, inList]
  by_cases hr : x = r.1
  · simp [hr]
  · simp [hr, Ne.symm hr]

lemma accounted_runWorker (hmax : cfg.maxTasksInFlightPerWorker = 1) (op : WorkerOp) (hop : op.ofSubmitter = false) :
    Tells (fun s => Accounted (fun _ => 0) s ∧ op.Enabled s.worker.lineage) (runWorker cfg op)
      (fun _ => Accounted fun _ => 0) := by
  refine .read fun s ⟨hs, hen⟩ => ?_
  refine .seq (.within (Q := fun _ t => Accounted (inList (resolutions
    (t.worker.lineage.outputs.drop s.worker.lineage.outputs.length))) t) ?_) ?_
  · rintro t rfl
    refine (attempts_run op hop fun _ => ⟨id, trivial⟩).conseq (P := fun u => Attempts (t.watch False)
      t.worker.lineage.handed u.lineage ∧ op.Enabled u.lineage) ?_ (fun _ u hu => ?_) fun _ _ _ => hs.told
    · rintro u rfl
      exact ⟨hs.watched (fun _ => Int.le_refl 0) False, hen⟩
    · obtain ⟨new, hnew, _, hh⟩ := hu.handed
      refine ⟨hu.counted trivial, fun x => ?_, fun x hm => (hu.kept x _ (if_pos hm)).2, hs.peaceful, hs.told⟩
      have hx := hh x
      rw [hs.handed x] at hx
      rw [hnew, System.watch, drop_left, inList, hx, Int.add_zero]
  refine .read fun t ht => ?_
  refine ((Triple.forM (I := fun l => Accounted (inList l)) (fun r l => ?_) _).pre
    fun u hu => hu ▸ ht).post fun _ _ hs => hs.congr fun _ => rfl
  refine (accounted_dependenciesResolved hmax (fun y => Int.natCast_nonneg _) r.1 r.2).pre
    fun u hu => hu.congr fun x => (inList_cons r l x).symm

lemma keeps_cancelTask (id : TaskID) (hasClient : Bool) (hd : ∀ y, 0 ≤ d y) :
    KeepsAccounts d (cancelTask cfg id hasClient) := by
  have h := composes_accounts d
  refine h.bind keeps_get fun s => h.ite (fun _ => h.pure ()) fun _ => ?_
  refine h.bind (accounted_taskManager hd fun w a hk => ?_) fun known => h.onlyIf fun _ => ?_
  · refine (attempts_markTaskCanceled id).conseq (fun _ ht => ht.1) (fun _ t ht => ?_) fun _ _ h => h
    simpa using ht
  refine h.bind keeps_get fun s => .bind (waiting_findEntry _) fun e => .ite (fun hm => ?_) fun _ => ?_
  · refine .seq ((accounted_erase _ id).pre fun t ht => ⟨ht.1, ht.2 ▸ hm⟩) ?_
    refine .seq ((composes_accounts _).onlyIf fun _ => keeps_cancelWorkerLeaseIfNeeded _) ?_
    exact accounted_failPendingTask hd id
  · refine (h.bind keeps_get fun s => h.seq keeps_check (h.seq (keeps_neutral fun _ => ?_)
      (h.bind keeps_get fun s => ?_))).pre fun _ hs => hs.1
    · exact { Neutral.refl _ with }
    cases s.submitter.executingTasks.lookup id with
    | none => exact keeps_dropEntryIfDone _
    | some _ =>
      exact h.ite (fun _ => keeps_neutral fun s => { Neutral.refl s with }) fun _ => h.pure ()

lemma accounted_handleLeaseReply (hmax : cfg.maxTasksInFlightPerWorker = 1) (r : LeaseRequest) (reply : LeaseReply) :
    Tells (fun s => Accounted d s ∧ (reply = .runtimeEnvSetupFailed →
        (s.submitter.entry r.schedulingKey).taskQueue = []))
      (handleLeaseReply cfg r reply) (fun _ => Accounted d) := by
  have h := composes_accounts d
  have hrequest : ∀ isSpillback, KeepsAccounts d
      (requestNewWorkerIfNeeded cfg r.schedulingKey isSpillback) := keeps_requestNewWorkerIfNeeded _
  refine .seq (queue_of_keeps (P := fun q => reply = .runtimeEnvSetupFailed → q = [])
    (keeps_neutral fun s => { Neutral.refl s with }) fun _ => rfl) ?_
  refine .seq (queue_of_keeps (P := fun q => reply = .runtimeEnvSetupFailed → q = [])
    (keeps_updateEntry r.schedulingKey fun _ => rfl) fun _ => entry_setEntry_queue _ rfl) ?_
  cases reply with
  | runtimeEnvSetupFailed =>
    refine .read fun s hs => ?_
    rw [hs.2 rfl]
    exact (h.seq (h.pure ()) (keeps_dropEntryIfDone _)).pre fun t ht => ht ▸ hs.1
  | canceled => exact (hrequest false).pre fun _ hs => hs.1
  | rejected => exact (h.seq keeps_check (hrequest false)).pre fun _ hs => hs.1
  | granted addr =>
    refine (h.seq (keeps_addWorkerLeaseClient addr _) (h.bind keeps_get fun _ =>
      h.seq keeps_check (keeps_onWorkerIdle hmax addr _ false))).pre fun _ hs => hs.1
  | redirected => exact (h.seq keeps_check (hrequest true)).pre fun _ hs => hs.1
  | failed => exact (h.seq keeps_check (hrequest false)).pre fun _ hs => hs.1

lemma accounted_countReply (p : Push) : Tells (fun s => Accounted d s ∧ p ∈ s.submitter.pushes) (countReply p)
      (fun _ => Accounted (more d p.taskId)) := by
  have h := composes_accounts (more d p.taskId)
  refine .bind (Q := fun _ => Accounted (more d p.taskId)) (accounted_modify
    (P := fun s => p ∈ s.pushes) (fun s hp x => ?_) fun s => ?_) fun _ => ?_
  · simp only [attempts, queued, countP_erase, more]
    by_cases hid : x = p.taskId
    · have hpos : 0 < s.pushes.countP (·.taskId = p.taskId) := countP_pos_iff.mpr ⟨p, hp, by simp⟩
      simp [hid, hp]
      omega
    · simp [hid, Ne.symm hid]
  · exact ⟨.refl _, rfl, rfl, rfl⟩
  refine h.bind (keeps_findLease _) fun _ => h.seq keeps_check ?_
  refine h.seq (keeps_updateLease _ _) (h.bind (keeps_findEntry _) fun _ => ?_)
  refine h.seq keeps_check (h.seq keeps_check ?_)
  exact keeps_updateEntry _ fun _ => rfl

lemma accounted_handlePushReply (hmax : cfg.maxTasksInFlightPerWorker = 1) (hd : ∀ y, 0 ≤ d y)
    (p : Push) (o : PushOutcome) (hst : o.taskStolen = false) :
    Tells (fun s => Accounted d s ∧ p ∈ s.submitter.pushes) (handlePushReply cfg p o)
      (fun _ => Accounted d) := by
  have h := composes_accounts (more d p.taskId)
  refine .seq (accounted_countReply p) (.ite (fun _ => .bind ?_ fun _ =>
    accounted_handleOutcome hd p o) fun _ => .onlyIf (fun _ => ?_) fun hn => absurd hst hn)
  · refine h.seq (keeps_neutral fun s => { Neutral.refl s with }) ?_
    exact h.seq (keeps_updateEntry _ fun _ => rfl) (keeps_dropEntryIfDone _)
  · exact .seq (keeps_onWorkerIdle hmax _ _ _) (accounted_handleOutcome hd p o)

lemma accounted_handleActorCreated (hd : ∀ y, 0 ≤ d y) (id : TaskID) (ok : Bool)
    (reply : PushTaskReply) (addr : WorkerAddress) (nodeAlive : Bool) :
    Tells (fun s => Accounted d s ∧ id ∈ s.submitter.creations)
      (handleActorCreated cfg id ok reply addr nodeAlive) (fun _ => Accounted d) := by
  refine .seq (accounted_modify (P := fun s => id ∈ s.creations) (fun s hm x => ?_) fun s => ?_)
      (.ite (fun _ => accounted_finishPendingTask hd id reply addr nodeAlive) fun _ => accounted_failPendingTask hd id)
  · have hpos := count_pos_iff.mpr hm
    simp only [attempts, queued, count_erase, more]
    by_cases hid : x = id
    · simp [hid]
      omega
    · simp [hid, Ne.symm hid]
  · exact ⟨erase_subset, rfl, rfl, rfl⟩

end

def SubmitterOp.EnvReady (s : System) : SubmitterOp → Prop
  | .leaseReply r .runtimeEnvSetupFailed => (s.submitter.entry r.schedulingKey).taskQueue = []
  | _ => True

instance (s : System) (op : SubmitterOp) : Decidable (op.EnvReady s) :=
  match op with
  | .leaseReply r .runtimeEnvSetupFailed =>
    inferInstanceAs (Decidable ((s.submitter.entry r.schedulingKey).taskQueue = []))
  | .leaseReply _ (.failed _) | .leaseReply _ .canceled | .leaseReply _ .rejected
  | .leaseReply _ (.granted _) | .leaseReply _ .redirected | .worker _ | .cancelLeaseReply _ _ _
  | .pushReply _ _ | .stealReply _ _ _ | .cancelTask _ _ | .cancelReply _ _ _ _ | .cancelRetry _ _
  | .actorCreated _ _ _ _ _ | .timePasses _ => .isTrue trivial

variable {cfg : SubmitterConfig} {s : System}

lemma accounted_start : Accounted (fun _ => 0) System.start :=
  ⟨nofun, fun _ => rfl, nofun, ⟨rfl, rfl⟩, nofun⟩

lemma accounted_run (hmax : cfg.maxTasksInFlightPerWorker = 1) (op : SubmitterOp)
    (h : Accounted (fun _ => 0) s) (hen : op.Enabled s) (hready : op.EnvReady s) :
    Tells (· = s) (op.run cfg) (fun _ => Accounted fun _ => 0) := by
  have hd : ∀ y : TaskID, (0 : Int) ≤ (fun _ => 0) y := fun _ => Int.le_refl 0
  have hc := composes_accounts fun _ => 0
  have hkeep : ∀ {x : SubmitM Unit}, KeepsAccounts (fun _ => 0) x → Tells (· = s) x
      (fun _ => Accounted fun _ => 0) := fun hx => hx.pre fun t ht => ht ▸ h
  cases op with
  | worker => exact (accounted_runWorker hmax _ hen.2.1).pre fun t ht => ht ▸ ⟨h, hen.1⟩
  | leaseReply r reply =>
    refine (accounted_handleLeaseReply hmax r reply).pre fun t ht => ht ▸ ⟨h, ?_⟩
    rintro rfl
    exact hready
  | cancelLeaseReply key =>
    refine hkeep (hc.seq (keeps_neutral fun s => { Neutral.refl s with }) ?_)
    exact hc.onlyIf fun _ => keeps_cancelWorkerLeaseIfNeeded key
  | pushReply p o =>
    have hst : o.taskStolen = false := by
      cases hs : o.taskStolen with
      | false => rfl
      | true =>
        have hv := (hen.2.1 hs).2
        rw [h.peaceful.2] at hv
        cases hv
    exact (accounted_handlePushReply hmax hd p o hst).pre fun t ht => ht ▸ ⟨h, hen.1⟩
  | stealReply =>
    have hr := hen.1
    rw [h.peaceful.1] at hr
    cases hr
  | cancelTask => exact hkeep (keeps_cancelTask _ _ hd)
  | cancelReply id ok attemptSucceeded hasTimer =>
    exact hkeep (x := handleCancelReply id ok attemptSucceeded hasTimer)
      (keeps_neutral fun s => { Neutral.refl s with })
  | cancelRetry id hasClient =>
    exact hkeep (hc.seq (keeps_neutral fun s => { Neutral.refl s with }) (keeps_cancelTask id hasClient hd))
  | actorCreated id ok reply addr nodeAlive =>
    exact (accounted_handleActorCreated hd id ok reply addr nodeAlive).pre fun t ht => ht ▸ ⟨h, hen⟩
  | timePasses ms =>
    exact hkeep (x := modifySubmitter fun s => { s with currentTimeMs := s.currentTimeMs + ms })
      (keeps_neutral fun s => { Neutral.refl s with })

/-- Nothing is under way: no dependency, lease, push or cancellation is waited for, and no attempt or task is left to
submit. -/
structure System.Quiescent (s : System) : Prop where
  resolving : ∀ state ∈ s.worker.lineage.resolving, state.unresolved = false
  toSubmit : s.worker.lineage.toSubmit = []
  leaseRequests : s.submitter.leaseRequests = []
  pushes : s.submitter.pushes = []
  cancelRequests : s.submitter.cancelRequests = []
  taskQueue : ∀ k, (s.submitter.entry k).taskQueue = []

lemma Accounted.quiescent (h : Accounted (fun _ => 0) s) (hq : s.Quiescent) {id : TaskID}
    (hp : s.worker.lineage.isTaskPending id = true) :
    (s.worker.lineage.messages id).type = .actorCreationTask := by
  have hh := h.handed id
  have hun : s.worker.lineage.unresolved id = 0 := countP_eq_zero.mpr fun state hm => by simp [hq.resolving state hm]
  have hqueued : s.submitter.queued id = 0 := by
    refine Table.total_eq_zero fun k e he => ?_
    have hk := hq.taskQueue k
    rw [entry, he] at hk
    rw [show e.taskQueue = [] from hk]
    rfl
  rw [Tasks.handed, hun, hq.toSubmit, attempts, hqueued, hq.pushes, hp] at hh
  refine h.creations id (count_pos_iff.mp ?_)
  simp at hh
  omega

/-- In every run in which a runtime environment fails only when no task waits for it. -/
theorem reaches_settled (cfg : SubmitterConfig) (hmax : cfg.maxTasksInFlightPerWorker = 1) (s : System)
    (h : Reaches (SubmitterOp.run cfg) (fun op s => op.Enabled s ∧ op.EnvReady s) System.start s) :
    (s.Quiescent → ∀ id, (s.worker.lineage.messages id).type = .normalTask →
      s.worker.lineage.isTaskPending id = false) ∧
    (∀ o ∈ s.submitter.outcomes, o.2 = true) ∧
    ∀ op, SubmitterOp.Enabled s op → op.EnvReady s →
      ∀ o ∈ (final (op.run cfg) s).submitter.outcomes, o.2 = true := by
  have hs : Accounted (fun _ => 0) s := h.invariant accounted_start
    fun op t hop ht => accounted_run hmax op ht hop.1 hop.2
  refine ⟨fun hq id hn => Bool.eq_false_iff.mpr fun hp => ?_, hs.told, fun op hen hready => ?_⟩
  · rw [hs.quiescent hq hp] at hn
    cases hn
  · have hrun := accounted_run hmax op hs hen hready s rfl
    unfold final
    revert hrun
    cases op.run cfg s with
    | ok => exact fun ht => ht.told
    | error => exact id

def singleSubmitter : SubmitterConfig := { exampleSubmitter with maxTasksInFlightPerWorker := 1 }

/-- How much there is of what a quiescent system has nothing of. -/
def System.underWay (s : System) : Nat :=
  s.worker.lineage.resolving.length + s.worker.lineage.toSubmit.length + s.submitter.leaseRequests.length +
    s.submitter.pushes.length + s.submitter.cancelRequests.length + s.submitter.schedulingKeyEntries.entries.length

lemma System.quiescent_of_underWay (h : s.underWay = 0) : s.Quiescent := by
  simp only [underWay, Nat.add_eq_zero_iff, length_eq_zero_iff] at h
  obtain ⟨⟨⟨⟨⟨hresolving, hsubmit⟩, hleases⟩, hpushes⟩, hcancels⟩, hentries⟩ := h
  refine ⟨fun state hm => ?_, hsubmit, hleases, hpushes, hcancels, fun k => ?_⟩
  · rw [hresolving] at hm
    cases hm
  · rw [entry]
    cases hk : s.submitter.schedulingKeyEntries.lookup k with
    | none => rfl
    | some =>
      have hm := Table.mem_entries_iff.mpr hk
      rw [hentries] at hm
      cases hm

/-- The runtime environment of the only task fails. The task leaves the queue, and stays
pending. -/
theorem failedEnvironment_leaves_pending :
    ∃ s, Reaches (SubmitterOp.run singleSubmitter) (fun op s => op.Enabled s) System.start s ∧
      s.Quiescent ∧ (s.worker.lineage.messages 1).type = .normalTask ∧
      s.worker.lineage.isTaskPending 1 = true := by
  refine exists_after [.worker (.addPendingTask ⟨0, 0⟩ { taskId := 1 } 0), .worker (.submitTask 1 fun _ => false),
        .leaseReply ⟨0, 0, false⟩ .runtimeEnvSetupFailed]
    (fun s => (s.underWay, decide ((s.worker.lineage.messages 1).type = .normalTask),
        s.worker.lineage.isTaskPending 1)) (0, true, true)
    (by decide +kernel) fun s _ hv => ?_
  simp only [Prod.mk.injEq, decide_eq_true_eq] at hv
  exact ⟨s.quiescent_of_underWay hv.1, hv.2⟩

/-- A task is pushed to a worker and answered. -/
theorem answeredTask_settled :
    ∃ s, Reaches (SubmitterOp.run singleSubmitter) (fun op s => op.Enabled s ∧ op.EnvReady s)
        System.start s ∧ s.submitter.outcomes = [(1, true)] ∧ s.Quiescent ∧
      ∀ id, (s.worker.lineage.messages id).type = .normalTask → s.worker.lineage.isTaskPending id = false := by
  refine exists_after [.worker (.addPendingTask ⟨0, 0⟩ { taskId := 1 } 0), .worker (.submitTask 1 fun _ => false),
        .leaseReply ⟨0, 0, false⟩ (.granted ⟨7, 0⟩), .pushReply ⟨⟨7, 0⟩, 0, 1⟩ {}]
    (fun s => (s.submitter.outcomes, s.underWay)) ([(1, true)], 0)
    (by decide +kernel) fun s hs hv => ?_
  obtain ⟨houtcomes, hnone⟩ := Prod.mk.inj hv
  have hquiescent := s.quiescent_of_underWay hnone
  exact ⟨houtcomes, hquiescent, (reaches_settled singleSubmitter rfl s hs).1 hquiescent⟩

end AmazonRay.TaskSubmitter
