import AmazonRay.TaskSubmitter.Leases

/-! The leases over whole runs of the submitter. -/
namespace AmazonRay.TaskSubmitter
open Program TaskManager Submitter List Ledger

section

variable {cfg : SubmitterConfig} {calm : Prop} {L : Ledger} {a : WorkerAddress} {e : LeaseEntry}
  {k : SchedulingKey}

variable {E : Check → System → Prop} {p : Push}

lemma Sound.cancelled (h : Sound cfg calm L) (c : List TaskID) :
    Sound cfg calm { L with cancelledTasks := c } := ⟨h.1.congr rfl rfl rfl rfl, h.2⟩

lemma at_unseen {f : Submitter → Submitter} (h : ∀ s : Submitter, (f s).ledger = s.ledger) :
    Triple (At L) (modifySubmitter f) (fun _ => At L) E :=
  at_modify (fun _ h => h) fun s hs => (h s).trans hs

lemma at_recordOutcome (id : TaskID) : Triple (At L) (recordOutcome id) (fun _ => At L) E := .update fun _ hs => hs

lemma at_failPendingTask (id : TaskID) :
    Triple (At L) (failPendingTask cfg id) (fun _ => At L) fun err _ => err.foreign = true :=
  .seq (at_recordOutcome id) (.bind at_taskManager fun _ => .pure fun _ hs => hs)

lemma at_finishPendingTask (id : TaskID) (reply : PushTaskReply) (addr : WorkerAddress)
    (nodeAlive : Bool) : Triple (At L) (finishPendingTask cfg id reply addr nodeAlive) (fun _ => At L)
      fun err _ => err.foreign = true :=
  .seq (at_recordOutcome id) at_taskManager

lemma at_handleOutcome (p : Push) (o : PushOutcome) :
    Triple (At L) (handleOutcome cfg p o) (fun _ => At L) fun err _ => err.foreign = true := by
  have hfinish : Triple (At L) (finishPendingTask cfg p.taskId o.reply p.addr o.nodeAlive)
      (fun _ => At L) fun err _ => err.foreign = true := at_finishPendingTask _ _ _ _
  refine .ite (fun _ => at_failPendingTask p.taskId) fun _ => at_read_bind fun s _ => ?_
  refine .ite (fun _ => .bind at_taskManager fun retried => ?_) fun _ => hfinish
  exact .onlyIf (fun _ => hfinish) fun _ _ hs => hs

lemma sound_pushToActiveWorker (h : Sound cfg calm L) (hc : calm) (workers : List WorkerAddress)
    (hw : ∀ v ∈ workers, L.keyOf v = some k) :
    KeepsSound cfg calm L (pushToActiveWorker cfg k workers) := by
  induction workers with
  | nil => exact .pure h.at
  | cons v rest ih =>
    obtain ⟨hv, hrest⟩ := forall_mem_cons.mp hw
    obtain ⟨f, hf, hk⟩ := exists_lease hv
    refine at_read_bind fun s hs => at_check_bind (lookup_of_ledger hs hf) ?_
    refine at_findLease_bind hf (.ite (fun _ => ?_) fun _ => ih hrest)
    exact sound_onWorkerIdle h hf hk false fun hst h0 => ⟨rfl, h.2 hc v f hf hst h0⟩

lemma sound_queueTask (h : Sound cfg calm L) (hc : calm) (id : TaskID) : KeepsSound cfg calm L (queueTask cfg id) := by
  refine at_read_bind fun s _ => .seq (at_updateEntry _) (at_read_bind fun s hs => ?_)
  generalize cfg.schedulingKey _ = k at hs ⊢
  have h' := h.setQueue (k := k) ((L.entry k).taskQueue ++ [id])
  refine KeepsSound.after (.onlyIf (fun _ => ?_) fun _ => h'.at) fun _ L' h' => sound_requestNewWorkerIfNeeded h' false
  rw [entry_of_ledger hs]
  exact sound_pushToActiveWorker h' hc _ fun v hv => (h'.1.activeWorkers k v).mp ((cfg.order_perm _).mem_iff.mp hv)

lemma sound_dependenciesResolved (h : Sound cfg calm L) (hc : calm) (id : TaskID) (ok : Bool) :
    KeepsSound cfg calm L (dependenciesResolved cfg id ok) := by
  refine .ite (fun _ => (at_failPendingTask id).post fun _ => h.at) fun _ => ?_
  refine at_read_bind fun s _ => .ite (fun _ => ?_) fun _ => at_read_bind fun s _ => ?_
  · exact at_modify h.at fun _ hs => hs
  refine .ite (fun _ => ?_) fun _ => sound_queueTask h hc id
  refine .bind (at_modify (M := { L with cancelledTasks := L.cancelledTasks.filter (· ≠ id) })
    (fun _ h => h) fun s hs => ?_) fun _ => (at_failPendingTask id).post fun _ => (h.cancelled _).at
  exact hs ▸ rfl

lemma sound_runWorker (op : WorkerOp) (hop : op.ofSubmitter = false)
    (hc : op.resolves = true → calm) {s : System} (h : Sound cfg calm s.submitter.ledger)
    (hen : op.Enabled s.worker.lineage) :
    Triple (· = s) (runWorker cfg op) (fun _ t => Sound cfg calm t.submitter.ledger)
      fun err _ => err.foreign = true := by
  refine .read fun s' hs' => ?_
  subst hs'
  by_cases hr : op.resolves = true
  · refine .seq ((at_taskManager (L := s'.submitter.ledger)).pre fun t ht => ht ▸ rfl) (at_read_bind fun t _ => ?_)
    refine ((composes_triple (fun t : System => Sound cfg calm t.submitter.ledger) _).forM (fun r => ?_) _).pre h.at
    exact fun t ht => sound_dependenciesResolved ht (hc hr) r.1 r.2 t rfl
  · have hsilent : Yields s'.worker (op.run cfg.worker)
        fun _ t => resolutions (t.lineage.outputs.drop s'.worker.lineage.outputs.length) = [] := by
      let w : Watch := ⟨s'.worker.lineage.outputs, False, True, fun _ => none⟩
      have hrun : Partly (fun t => Attempts w s'.worker.lineage.handed t.lineage ∧
          op.Enabled t.lineage) (op.run cfg.worker)
          fun _ t => Attempts w s'.worker.lineage.handed t.lineage :=
        attempts_run op hop fun hr' => absurd hr' hr
      refine hrun.conseq ?_ ?_ fun _ _ h => h
      · rintro t rfl
        exact ⟨⟨False.elim, nofun, [], by simp [w], fun _ => rfl, by simp [resolutions]⟩, hen⟩
      · rintro _ t ⟨_, _, new, hnew, hnil, _⟩
        rw [hnew, drop_left]
        exact hnil trivial
    refine .seq (.within (Q := fun _ t => t.submitter = s'.submitter ∧
      resolutions (t.worker.lineage.outputs.drop s'.worker.lineage.outputs.length) = []) ?_)
      ?_
    · rintro t rfl
      exact (hsilent.conseq (fun _ h => h) (fun _ _ h => ⟨rfl, h⟩) fun _ _ _ => rfl)
    · refine .read fun t ht => ?_
      dsimp only
      rw [ht.2]
      refine .pure fun u hu => ?_
      rw [hu, ht.1]
      exact h

section

variable (h : Sound cfg calm L)
include h

lemma sound_failQueue (queue : List TaskID) : KeepsSound cfg calm L (failQueue k queue) := by
  induction queue generalizing L with
  | nil => exact .pure h.at
  | cons id rest ih =>
    refine at_read_bind fun s _ => .seq at_taskManager ?_
    exact .seq (at_updateEntry _) (ih (h.setQueue rest))

lemma Sound.grant (hl : L.leases a = none) (hc : e.leaseClient = true)
    (hn : e.tasksInFlight = 0) (hs : e.currentlyStealing = false) : Sound cfg calm (L.grant a e) := by
  refine ⟨h.1.grant hl hc hn hs, fun hcalm x f hx hf h0 => ?_⟩
  by_cases hxa : x = a
  · have hfe : e = f := by simpa [Ledger.grant, hxa] using hx
    rw [← hfe, hs] at hf
    cases hf
  · exact h.2 hcalm x f (by simpa [Ledger.grant, hxa] using hx) hf h0

def newLease (cfg : SubmitterConfig) (L : Ledger) (k : SchedulingKey) : LeaseEntry :=
  { leaseClient := true, leaseExpirationTime := L.now + cfg.leaseTimeoutMs, schedulingKey := k }

lemma at_addWorkerLeaseClient (hl : L.leases a = none) : Triple (At L) (addWorkerLeaseClient cfg a k)
      (fun _ => At (L.grant a (newLease cfg L k))) E := by
  have hnew := h.1.not_active hl k
  refine at_modify_bind (M := L.setLease a (some (newLease cfg L k))) (fun s hs => ?_) ?_
  · subst hs
    have hl : s.workerToLeaseEntry.lookup a = none := hl
    rw [hl]
    exact ledger_setLease _
  refine at_findEntry_bind (at_check_bind hnew (.seq (at_updateEntry _) ?_))
  refine at_read_bind fun s hs => .passed ?_
  rw [entry_of_ledger hs]
  simp [Ledger.setEntry]

lemma sound_grantedLease (hl : L.leases a = none) : KeepsSound cfg calm L (do
      addWorkerLeaseClient cfg a k
      check .noActiveWorker (((← get).submitter.entry k).activeWorkers ≠ [])
      onWorkerIdle cfg a k false) := by
  have h' : Sound cfg calm (L.grant a (newLease cfg L k)) := h.grant hl rfl rfl rfl
  refine .seq (at_addWorkerLeaseClient h hl) (at_read_bind fun s hs => ?_)
  refine at_check_bind ?_ (sound_onWorkerIdle h' (Function.update_self ..) rfl false (nomatch ·))
  rw [entry_of_ledger hs]
  simp [grant, newLease]

lemma sound_handleLeaseReply (r : LeaseRequest) (reply : LeaseReply) (hok : match reply with
      | .rejected => r.isSpillback = true
      | .redirected => r.isSpillback = false
      | .granted addr => L.leases addr = none
      | _ => True) : KeepsSound cfg calm L (handleLeaseReply cfg r reply) := by
  refine .seq (at_unseen fun _ => rfl) (.seq (at_updateEntry _) ?_)
  have h' : Sound cfg calm (L.setEntry r.schedulingKey { L.entry r.schedulingKey with
      pendingLeaseRequests := (L.entry r.schedulingKey).pendingLeaseRequests.erase r.id }) :=
    ⟨h.1.setEntry rfl rfl (erase_sublist.length_le.trans (h.1.pendingLeaseRequests _)), h.2⟩
  have hrequest := fun isSpillback => sound_requestNewWorkerIfNeeded h' (k := r.schedulingKey) isSpillback
  cases reply with
  | runtimeEnvSetupFailed =>
    refine at_read_bind fun s _ => KeepsSound.after (sound_failQueue h' _) fun _ L' h' => ?_
    exact at_dropEntryIfDone.post fun _ => h'.at
  | canceled => exact hrequest false
  | rejected => exact at_check_bind hok (hrequest false)
  | granted => exact sound_grantedLease h' hok
  | redirected => exact at_check_bind hok (hrequest true)
  | failed =>
    exact .seq (.tested fun _ _ => rfl) (hrequest false)

lemma sound_handleCancelLeaseReply (ok success : Bool) : KeepsSound cfg calm L (handleCancelLeaseReply k ok success) :=
  .seq (at_unseen fun _ => rfl) (.onlyIf (fun _ => at_cancelWorkerLeaseIfNeeded.post fun _ => h.at) fun _ => h.at)

end

lemma Ledger.Exact.lease_of_push {max limit : Nat} (h : L.Exact max limit)
    (hp : p ∈ L.pushes) : ∃ e, L.leases p.addr = some e ∧ e.schedulingKey = p.schedulingKey ∧ 0 < e.tasksInFlight := by
  obtain ⟨e, he, hk⟩ := exists_lease (h.pushed p hp)
  refine ⟨e, he, hk, ?_⟩
  rw [(h.tasksInFlight _ e he).1]
  exact countP_pos_iff.mpr ⟨p, hp, by simp⟩

lemma at_countReply (h : Sound cfg calm L) (hp : p ∈ L.pushes) (hl : L.leases p.addr = some e) :
    Triple (At L) (countReply p) (fun _ => At (L.answer p e)) E := by
  obtain ⟨f, hf, hk, hpos⟩ := h.1.lease_of_push hp
  obtain rfl : f = e := Option.some.inj (hf.symm.trans hl)
  have hactive := ne_nil_of_mem ((h.1.activeWorkers _ _).mpr (h.1.pushed p hp))
  have htotal : 1 ≤ (L.entry p.schedulingKey).totalTasksInFlight := by
    rw [h.1.totalTasksInFlight]
    exact countP_pos_iff.mpr ⟨p, hp, by simp⟩
  let L₁ : Ledger := { L with pushes := L.pushes.erase p }
  have hl₁ : L₁.leases p.addr = some f := hl
  refine at_modify_bind (M := L₁) (fun s hs => by subst hs; rfl) ?_
  refine at_findLease_bind hl₁ (at_check_bind hpos (.seq (at_updateLease hl₁ _) ?_))
  refine at_findEntry_bind (at_check_bind hactive (at_check_bind htotal ?_))
  exact (at_updateEntry _).post fun _ _ hs => hs

lemma at_forgetWorker : Triple (At L) (forgetWorker a k) (fun _ => At (L.drop a k)) E := by
  refine at_modify_bind (M := L.setLease a none) (fun s hs => ?_) ?_
  · rw [ledger_eraseLease, hs]
  · exact .seq (at_updateEntry _) (at_dropEntryIfDone.post fun _ _ hs => hs)

lemma Sound.answer (h : Sound cfg False L) (hp : p ∈ L.pushes)
    (hl : L.leases p.addr = some e) : Sound cfg False (L.answer p e) :=
  ⟨h.1.answer hp hl, False.elim⟩

lemma sound_handlePushReply (h : Sound cfg False L) (hp : p ∈ L.pushes) (o : PushOutcome)
    (hl : L.leases p.addr = some e)
    (hexit : o.workerExiting = true → e.tasksInFlight = 1 ∧ e.currentlyStealing = false)
    (hidle : o.workerExiting = false → o.taskStolen = false → e.currentlyStealing = true →
      o.ok = false ∨ e.leaseExpirationTime < L.now → 1 < e.tasksInFlight) :
    KeepsSound cfg False L (handlePushReply cfg p o) := by
  obtain ⟨f, hf, hk, hpos⟩ := h.1.lease_of_push hp
  obtain rfl : f = e := Option.some.inj (hf.symm.trans hl)
  have h' := h.answer hp hl
  have hl' : (L.answer p f).leases p.addr = some { f with tasksInFlight := f.tasksInFlight - 1 } :=
    Function.update_self ..
  refine .seq (at_countReply h hp hl) (.ite (fun hex => ?_) fun hex => ?_)
  · obtain ⟨hone, hs⟩ := hexit hex
    refine .seq at_forgetWorker ((at_handleOutcome p o).post fun _ => ?_)
    exact (h'.drop hl' hk (by dsimp only; omega) hs).at
  · refine .onlyIf (fun hst => ?_) fun _ => h'.at
    refine KeepsSound.after (sound_onWorkerIdle h' hl' hk _ fun hs h0 => ?_) fun _ L' h' =>
      (at_handleOutcome p o).post fun _ => h'.at
    have hbad := fun hbad => hidle (Bool.eq_false_iff.mpr hex) hst hs hbad
    dsimp only at h0
    refine ⟨?_, Int.not_lt.mp fun hlt => ?_⟩
    · cases hok : o.ok with
      | true => rfl
      | false =>
        have := hbad (.inl hok)
        omega
    · have := hbad (.inr hlt)
      omega

lemma triple_requeueStolen {w : Worker} {leases : WorkerAddress → Option LeaseEntry} {now : Int}
    {id : TaskID} (hid : w.lineage.submissibleTasks.lookup id ≠ none) :
    Triple (fun t => (Sound cfg calm t.submitter.ledger ∧ t.submitter.ledger.leases = leases ∧
        t.submitter.ledger.now = now) ∧ t.worker = w) (requeueStolen k id)
      (fun _ t => (Sound cfg calm t.submitter.ledger ∧ t.submitter.ledger.leases = leases ∧
        t.submitter.ledger.now = now) ∧ t.worker = w) E := by
  refine .read fun s hs => .seq (.passed (hs.2 ▸ hid)) ?_
  refine .seq (.update (Q := fun _ t => t.submitter.ledger = s.submitter.ledger ∧
    t.worker = w) ?_) (.update fun t ht => ⟨?_, ht.2⟩)
  · rintro t rfl
    exact ⟨rfl, hs.2⟩
  · have hset : (t.submitter.setEntry k { t.submitter.entry k with
        taskQueue := id :: (t.submitter.entry k).taskQueue }).ledger =
        s.submitter.ledger.setEntry k { s.submitter.ledger.entry k with
          taskQueue := id :: (s.submitter.ledger.entry k).taskQueue } := by
      rw [ledger_setEntry, ht.1, entry_of_ledger ht.1]
    rw [hset]
    exact ⟨hs.1.1.setQueue _, hs.1.2⟩

lemma sound_handleStealReply (h : Sound cfg False L) {r : StealRequest} (hr : r ∈ L.stealRequests)
    (ok : Bool) (stolen : List TaskID) {s : System} (hs : At L s)
    (hstolen : ∀ id ∈ stolen, s.worker.lineage.submissibleTasks.lookup id ≠ none) :
    Triple (· = s) (handleStealReply cfg r ok stolen)
      (fun _ t => Sound cfg False t.submitter.ledger) fun err _ => err.foreign = true := by
  obtain ⟨e, he, hk⟩ := exists_lease (h.1.thieves r hr)
  have hst := h.1.stealing_of_mem hr he
  have h' : Sound cfg False (L.doneStealing r e) := ⟨h.1.doneStealing hr he, False.elim⟩
  let w := s.worker
  have hL : ∀ t : System, At { L with stealRequests := L.stealRequests.erase r } t ∧ t.worker = w →
      t.submitter.workerToLeaseEntry.lookup r.thief ≠ none ∧
      (t.submitter.lease r.thief) = e := fun t ht =>
    ⟨lookup_of_ledger ht.1 he, lease_of_ledger ht.1 he⟩
  refine .seq (.update (Q := fun _ t => At { L with stealRequests := L.stealRequests.erase r } t ∧ t.worker = w) ?_) ?_
  · rintro t rfl
    refine ⟨?_, rfl⟩
    exact congrArg (fun L => ({ L with stealRequests := L.stealRequests.erase r } : Ledger)) hs
  refine .read fun t ht => .seq (.passed (hL t ht).1) ?_
  refine .seq (.read (R := fun _ t => At (L.doneStealing r e) t ∧ t.worker = w) ?_) ?_
  · rintro u rfl
    refine .seq (.passed ((hL u ht).2.symm ▸ hst)) (.update ?_)
    rintro v rfl
    refine ⟨(ledger_setLease _).trans ?_, ht.2⟩
    rw [ht.1, (hL v ht).2]
    rfl
  refine .seq ((Triple.forM (I := fun rest t => ((Sound cfg False t.submitter.ledger ∧
    t.submitter.ledger.leases = (L.doneStealing r e).leases ∧ t.submitter.ledger.now = L.now) ∧
    t.worker = w) ∧ ∀ id ∈ rest, w.lineage.submissibleTasks.lookup id ≠ none)
    (fun id rest => .given fun hrest => ?_) stolen).pre fun t ht => ?_) ?_
  · obtain ⟨hid, hrest⟩ := forall_mem_cons.mp hrest
    exact (triple_requeueStolen hid).post fun _ t ht => ⟨ht, hrest⟩
  · exact ⟨⟨ht.1.symm ▸ ⟨h', rfl, rfl⟩, ht.2⟩, hstolen⟩
  · intro t ht
    obtain ⟨⟨⟨hsound, hleases, hnow⟩, _⟩, _⟩ := ht
    have hl : t.submitter.ledger.leases r.thief = some { e with currentlyStealing := false } := by
      rw [hleases]
      exact Function.update_self ..
    exact sound_onWorkerIdle hsound hl hk _ (nomatch ·) t rfl

lemma sound_cancelTask (h : Sound cfg calm L) (id : TaskID) (hasClient : Bool) :
    KeepsSound cfg calm L (cancelTask cfg id hasClient) := by
  refine at_read_bind fun s hs => .ite (fun _ => .pure h.at) fun hid => ?_
  have hid : id ∉ L.cancelledTasks := fun hm => hid (by subst hs; exact hm)
  refine .bind at_taskManager fun known => .onlyIf (fun _ => ?_) fun _ => h.at
  refine at_read_bind fun s _ => at_findEntry_bind (.ite (fun _ => ?_) fun _ => ?_)
  · refine .seq (at_updateEntry _) ?_
    refine .seq (.onlyIf (fun _ => at_cancelWorkerLeaseIfNeeded) fun _ _ hs => hs) ?_
    exact (at_failPendingTask id).post fun _ => (h.setQueue _).at
  · refine at_read_bind fun s hs => at_check_bind (by subst hs; exact hid) ?_
    have h' := h.cancelled (id :: L.cancelledTasks)
    refine at_modify_bind (M := { L with cancelledTasks := id :: L.cancelledTasks })
      (fun s hs => hs ▸ rfl) (at_read_bind fun s _ => ?_)
    cases s.submitter.executingTasks.lookup id with
    | none => exact at_dropEntryIfDone.post fun _ => h'.at
    | some _ => exact .ite (fun _ => at_modify h'.at fun _ hs => hs) fun _ => .pure h'.at

lemma sound_handleCancelReply (h : Sound cfg calm L) (id : TaskID) (ok attemptSucceeded hasTimer : Bool) :
    KeepsSound cfg calm L (handleCancelReply id ok attemptSucceeded hasTimer) := by
  refine at_modify (M := { L with cancelledTasks := L.cancelledTasks.filter (· ≠ id) })
    (h.cancelled _).at fun s hs => ?_
  subst hs
  rfl

end

/-- A worker that exits has no other task and does not steal. One that waits for stolen tasks has another task when it
is returned for an error or an expired lease. The stolen tasks are known. -/
def SubmitterOp.Undisturbed (s : System) : SubmitterOp → Prop
  | .worker op => op.resolves = true → ∀ x ∈ s.submitter.workerToLeaseEntry.entries,
    x.2.currentlyStealing = true → x.2.tasksInFlight = 0 →
      s.submitter.currentTimeMs ≤ x.2.leaseExpirationTime
  | .pushReply p o =>
    (o.workerExiting = true → (s.submitter.lease p.addr).tasksInFlight = 1 ∧
      (s.submitter.lease p.addr).currentlyStealing = false) ∧
    (o.workerExiting = false → o.taskStolen = false →
      (s.submitter.lease p.addr).currentlyStealing = true →
      o.ok = false ∨ (s.submitter.lease p.addr).leaseExpirationTime < s.submitter.currentTimeMs →
      1 < (s.submitter.lease p.addr).tasksInFlight)
  | .stealReply _ _ stolen =>
    ∀ id ∈ stolen, s.worker.lineage.submissibleTasks.lookup id ≠ none
  | _ => True

instance (s : System) (op : SubmitterOp) : Decidable (op.Undisturbed s) := by
  cases op <;> (unfold SubmitterOp.Undisturbed; infer_instance)

def System.start : System := { worker := { lineage := {} }, submitter := {} }

variable {cfg : SubmitterConfig}

lemma sound_start : Sound cfg False System.start.submitter.ledger := by
  refine ⟨⟨nofun, fun k a => ?_, fun _ => nodup_nil, nofun,
    nofun, fun _ => rfl, fun _ => Nat.zero_le _, nofun,
    nofun⟩, False.elim⟩
  exact ⟨nofun, nofun⟩

lemma sound_run (op : SubmitterOp) {s : System} (h : Sound cfg False s.submitter.ledger)
    (hen : op.Enabled s) (hok : op.Undisturbed s) :
    Triple (· = s) (op.run cfg) (fun _ t => Sound cfg False t.submitter.ledger) fun err _ => err.foreign = true := by
  have hat : ∀ {x : SubmitM Unit}, KeepsSound cfg False s.submitter.ledger x →
      Triple (· = s) x (fun _ t => Sound cfg False t.submitter.ledger)
        fun err _ => err.foreign = true := fun hx => hx.pre fun t ht => ht ▸ rfl
  cases op with
  | worker op =>
    have hcalm : Sound cfg (op.resolves = true) s.submitter.ledger :=
      ⟨h.1, fun hr a e hl => hok hr ⟨a, e⟩ (Table.mem_entries_iff.mpr hl)⟩
    exact (sound_runWorker op hen.2.1 id hcalm hen.1).post fun _ t ht => ⟨ht.1, False.elim⟩
  | leaseReply r reply =>
    refine hat (sound_handleLeaseReply h r reply ?_)
    cases reply with
    | granted addr =>
      cases hl : s.submitter.ledger.leases addr with
      | none => exact hl
      | some e =>
        have hclient : (s.submitter.lease addr).leaseClient = false := hen.2
        rw [lease_of_ledger rfl hl] at hclient
        exact absurd ((h.1.leaseClient addr e hl).symm.trans hclient) (nomatch ·)
    | rejected => exact hen.2
    | redirected => exact hen.2
    | failed => trivial
    | runtimeEnvSetupFailed => trivial
    | canceled => trivial
  | cancelLeaseReply => exact hat (sound_handleCancelLeaseReply h _ _)
  | pushReply p o =>
    obtain ⟨e, hl, _⟩ := h.1.lease_of_push hen.1
    have hlease := lease_of_ledger rfl hl
    rw [SubmitterOp.Undisturbed, hlease] at hok
    exact hat (sound_handlePushReply h hen.1 o hl hok.1 hok.2)
  | stealReply => exact sound_handleStealReply h hen.1 _ _ rfl hok
  | cancelTask => exact hat (sound_cancelTask h _ _)
  | cancelReply id ok attemptSucceeded hasTimer =>
    exact hat (sound_handleCancelReply h id ok attemptSucceeded hasTimer)
  | cancelRetry id hasClient =>
    exact hat (.seq (at_unseen fun _ => rfl) (sound_cancelTask h id hasClient))
  | actorCreated id ok reply addr nodeAlive =>
    refine hat (.seq (at_unseen fun _ => rfl) (.ite (fun _ => ?_) fun _ => ?_))
    · exact (at_finishPendingTask id reply addr nodeAlive).post fun _ => h.at
    · exact (at_failPendingTask id).post fun _ => h.at
  | timePasses =>
    refine .update ?_
    rintro t rfl
    exact ⟨h.1.congr rfl rfl rfl rfl, False.elim⟩

/-- The active workers of a key are those leased for it, and tasks in flight are the unanswered pushes. -/
structure Submitter.Exact (cfg : SubmitterConfig) (s : Submitter) : Prop where
  activeWorkers : ∀ k a, a ∈ (s.entry k).activeWorkers ↔
    ∃ e, s.workerToLeaseEntry.lookup a = some e ∧ e.schedulingKey = k
  nodup : ∀ k, (s.entry k).activeWorkers.Nodup
  totalTasksInFlight : ∀ k, (s.entry k).totalTasksInFlight =
    ((s.entry k).activeWorkers.map fun a => (s.lease a).tasksInFlight).sum
  tasksInFlight : ∀ a e, s.workerToLeaseEntry.lookup a = some e →
    e.tasksInFlight = s.pushes.countP (·.addr = a) ∧ e.tasksInFlight ≤ cfg.maxTasksInFlightPerWorker
  pendingLeaseRequests : ∀ k, (s.entry k).pendingLeaseRequests.length ≤ cfg.maxPendingLeaseRequests

lemma Sound.exact {calm : Prop} {s : Submitter} (h : Sound cfg calm s.ledger) : s.Exact cfg where
  activeWorkers k a := (h.1.activeWorkers k a).trans Option.map_eq_some_iff
  nodup := h.1.nodup
  totalTasksInFlight k := by
    refine (h.1.sum_tasksInFlight k).trans (congrArg sum (map_congr_left fun a _ => ?_))
    rw [lease]
    change (s.workerToLeaseEntry.lookup a).elim 0 _ = _
    cases s.workerToLeaseEntry.lookup a <;> rfl
  tasksInFlight := h.1.tasksInFlight
  pendingLeaseRequests := h.1.pendingLeaseRequests

def exampleSubmitter : SubmitterConfig where
  worker := exampleWorker
  maxTasksInFlightPerWorker := 2
  maxPendingLeaseRequests := 10
  leaseTimeoutMs := 1000
  schedulingKey _ := 0
  retryExceptions _ := false
  order l := l
  order_perm _ := .refl _

/-- The books in every run whose steps leave the workers undisturbed. -/
theorem reaches_exact (cfg : SubmitterConfig) (s : System)
    (h : Reaches (SubmitterOp.run cfg) (fun op s => op.Enabled s ∧ op.Undisturbed s) System.start s) :
    s.submitter.Exact cfg ∧ ∀ op err, SubmitterOp.Enabled s op → op.Undisturbed s →
      stopped (op.run cfg) s = some err → err.foreign = true := by
  have hs : Sound cfg False s.submitter.ledger := h.invariant
    (I := fun s => Sound cfg False s.submitter.ledger) sound_start fun op t hop ht =>
      sound_run op ht hop.1 hop.2
  refine ⟨hs.exact, fun op err hen hok hstop => ?_⟩
  obtain ⟨_, herr⟩ := (sound_run op hs hen hok).stopped rfl hstop
  exact herr

def twoTasksPushed : List SubmitterOp :=
  [.worker (.addPendingTask ⟨0, 0⟩ { taskId := 1 } 0), .worker (.submitTask 1 fun _ => false),
    .worker (.addPendingTask ⟨0, 0⟩ { taskId := 2 } 0), .worker (.submitTask 2 fun _ => false),
    .leaseReply ⟨0, 0, false⟩ (.granted ⟨7, 0⟩)]

/-- The worker answers the first task with the news that it exits, and its entry is erased.
The answer to the second one finds no task in flight. -/
theorem exitingWorker_check_fails :
    ∃ s, Reaches (SubmitterOp.run exampleSubmitter) (fun op s => op.Enabled s) System.start s ∧
      ∃ op, SubmitterOp.Enabled s op ∧
        stopped (op.run exampleSubmitter) s = some .noTaskInFlight := by
  let reply : SubmitterOp := .pushReply ⟨⟨7, 0⟩, 0, 2⟩ {}
  refine exists_after (twoTasksPushed ++ [.pushReply ⟨⟨7, 0⟩, 0, 1⟩ { workerExiting := true }])
    (fun s => (decide (reply.Enabled s), stopped (reply.run exampleSubmitter) s)) (true, some .noTaskInFlight)
    (by decide +kernel) fun _ _ hv => ?_
  obtain ⟨hen, hstop⟩ := Prod.mk.inj hv
  exact ⟨reply, of_decide_eq_true hen, hstop⟩

/-- Two tasks are in flight to a worker, and one of them is answered. -/
theorem twoTasksPushed_exact :
    ∃ s, Reaches (SubmitterOp.run exampleSubmitter) (fun op s => op.Enabled s ∧ op.Undisturbed s)
        System.start s ∧ (s.submitter.entry 0).totalTasksInFlight = 1 ∧
      s.submitter.Exact exampleSubmitter := by
  refine exists_after (twoTasksPushed ++ [.pushReply ⟨⟨7, 0⟩, 0, 1⟩ {}])
    (fun s => (s.submitter.entry 0).totalTasksInFlight) 1
    (by decide +kernel) fun s hs hv => ?_
  exact ⟨hv, (reaches_exact exampleSubmitter s hs).1⟩

end AmazonRay.TaskSubmitter
