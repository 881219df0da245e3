import AmazonRay.TaskSubmitter.Submitter

/-! The attempts of the submitter: each is queued, pushed, or an actor being created, until its outcome is reported. -/
namespace AmazonRay.TaskSubmitter
open Program TaskManager Submitter

def Submitter.queued (s : Submitter) (x : TaskID) : Nat :=
  Table.total (fun _ e => e.taskQueue.count x) s.schedulingKeyEntries

def Submitter.attempts (s : Submitter) (x : TaskID) : Nat :=
  s.queued x + s.pushes.countP (·.taskId = x) + s.creations.count x

def Submitter.Told (s : Submitter) : Prop := ∀ o ∈ s.outcomes, o.2 = true

/-- Every attempt that was handed over is here, up to those in hand. -/
structure Accounted (d : TaskID → Int) (s : System) : Prop where
  counted : ∀ state ∈ s.worker.lineage.resolving, state.Counted
  handed : ∀ x, s.worker.lineage.handed x = s.submitter.attempts x + d x
  creations : ∀ x ∈ s.submitter.creations, (s.worker.lineage.messages x).type = .actorCreationTask
  peaceful : s.submitter.stealRequests = [] ∧ s.submitter.victims = []
  told : s.submitter.Told

abbrev Tells {α : Type} (P : System → Prop) (x : SubmitM α) (Q : α → System → Prop) : Prop :=
  Triple P x Q fun _ s => s.submitter.Told

abbrev KeepsAccounts (d : TaskID → Int) {α : Type} (x : SubmitM α) : Prop :=
  Triple (Accounted d) x (fun _ => Accounted d) fun _ s => s.submitter.Told

section

variable {d d' : TaskID → Int} {s t : Submitter} {k : SchedulingKey}

/-- No account changes. -/
structure Neutral (s t : Submitter) : Prop where
  queued : ∀ x, t.queued x = s.queued x
  pushes : t.pushes = s.pushes
  creations : t.creations = s.creations
  stealRequests : t.stealRequests = s.stealRequests
  victims : t.victims = s.victims
  outcomes : t.outcomes = s.outcomes

lemma Neutral.refl (s : Submitter) : Neutral s s := ⟨fun _ => rfl, rfl, rfl, rfl, rfl, rfl⟩

variable {f : Submitter → Submitter}

lemma queued_setEntry (s : Submitter) (k : SchedulingKey) (e : SchedulingKeyEntry) (x : TaskID) :
    (s.setEntry k e).queued x + (s.entry k).taskQueue.count x = s.queued x + e.taskQueue.count x := by
  rw [queued, setEntry, Table.total_insert, entry, queued]
  cases hk : s.schedulingKeyEntries.lookup k with
  | none =>
    rw [Table.total_erase_of_lookup_none hk]
    simp
    omega
  | some f =>
    rw [Table.total_of_lookup hk]
    simp
    omega

lemma neutral_setEntry (s : Submitter) {k : SchedulingKey} {e : SchedulingKeyEntry}
    (he : e.taskQueue = (s.entry k).taskQueue) : Neutral s (s.setEntry k e) := by
  refine ⟨fun x => ?_, rfl, rfl, rfl, rfl, rfl⟩
  have := queued_setEntry s k e x
  rw [he] at this
  omega

lemma neutral_eraseEntry (h : (s.entry k).canDelete = true) :
    Neutral s { s with schedulingKeyEntries := s.schedulingKeyEntries.erase k } := by
  refine ⟨fun x => ?_, rfl, rfl, rfl, rfl, rfl⟩
  have hqueue : (s.entry k).taskQueue = [] := by
    simp only [SchedulingKeyEntry.canDelete, Bool.and_eq_true, List.isEmpty_iff] at h
    exact h.1.1.2
  rw [queued, queued]
  rw [entry] at hqueue
  cases hk : s.schedulingKeyEntries.lookup k with
  | none => exact Table.total_erase_of_lookup_none hk
  | some f =>
    rw [hk] at hqueue
    rw [Table.total_of_lookup hk, show f.taskQueue = [] from hqueue]
    simp

end

variable {d d' : TaskID → Int} {α : Type} (k : SchedulingKey) (a : WorkerAddress)

lemma accounted_modify {P : Submitter → Prop}
    (hx : ∀ s, P s → ∀ x, ((f s).attempts x : Int) + d' x = s.attempts x + d x)
    (hs : ∀ s, (f s).creations ⊆ s.creations ∧ (f s).stealRequests = s.stealRequests ∧
      (f s).victims = s.victims ∧ (f s).outcomes = s.outcomes) {E : Check → System → Prop} :
    Triple (fun s => Accounted d s ∧ P s.submitter) (modifySubmitter f) (fun _ => Accounted d') E := by
  refine .update fun s ⟨h, hP⟩ => ?_
  obtain ⟨hcr, hst, hv, ho⟩ := hs s.submitter
  refine ⟨h.counted, fun x => ?_, fun x hm => h.creations x (hcr hm), ?_, ?_⟩
  · have := hx s.submitter hP x
    have := h.handed x
    dsimp only
    omega
  · dsimp only
    rw [hst, hv]
    exact h.peaceful
  · dsimp only [Submitter.Told]
    rw [ho]
    exact h.told

lemma keeps_neutral (h : ∀ s, Neutral s (f s)) : KeepsAccounts d (modifySubmitter f) := by
  refine (accounted_modify (P := fun _ => True) (fun s _ x => ?_) fun s => ?_).pre fun _ hs => ⟨hs, trivial⟩
  · rw [attempts, (h s).queued, (h s).pushes, (h s).creations]
    rfl
  · exact ⟨(h s).creations ▸ .refl _, (h s).stealRequests, (h s).victims, (h s).outcomes⟩

lemma composes_accounts (d : TaskID → Int) : Composes fun _ x => KeepsAccounts d x := composes_triple _ _

lemma keeps_get : KeepsAccounts d (get : SubmitM System) := .get fun _ hs => hs

lemma keeps_check {e : Check} {c : Prop} [Decidable c] : KeepsAccounts d (check e c) := .tested fun _ hs => hs.told

lemma keeps_findLease : KeepsAccounts d (findLease a) := by
  have h := composes_accounts d
  exact h.seq (keeps_neutral fun s => { Neutral.refl s with }) (h.bind keeps_get fun _ => h.pure _)

lemma keeps_updateLease (f : LeaseEntry → LeaseEntry) : KeepsAccounts d (updateLease a f) :=
  keeps_neutral fun s => { Neutral.refl s with }

lemma keeps_findEntry : KeepsAccounts d (findEntry k) := by
  have h := composes_accounts d
  exact h.seq (keeps_neutral fun s => neutral_setEntry s rfl) (h.bind keeps_get fun _ => h.pure _)

lemma keeps_updateEntry {f : SchedulingKeyEntry → SchedulingKeyEntry}
    (hf : ∀ e, (f e).taskQueue = e.taskQueue) : KeepsAccounts d (updateEntry k f) :=
  keeps_neutral fun s => neutral_setEntry s (hf _)

lemma keeps_dropEntryIfDone : KeepsAccounts d (dropEntryIfDone k) := by
  refine keeps_neutral fun s => ?_
  split
  case isTrue hd => exact neutral_eraseEntry hd
  · exact { Neutral.refl s with }

variable {cfg : SubmitterConfig} (isSpillback : Bool)

lemma keeps_cancelWorkerLeaseIfNeeded : KeepsAccounts d (cancelWorkerLeaseIfNeeded k) := by
  have h := composes_accounts d
  exact h.bind (keeps_findEntry k) fun e => h.onlyIf fun _ => keeps_neutral fun s => { Neutral.refl s with }

lemma keeps_requestWorkerLease : KeepsAccounts d (requestWorkerLease k isSpillback) := by
  refine keeps_neutral fun s => ?_
  have hn := neutral_setEntry s (e := { s.entry k with
    pendingLeaseRequests := (s.entry k).pendingLeaseRequests ++ [s.nextLeaseId] }) rfl
  exact ⟨hn.queued, rfl, rfl, rfl, rfl, rfl⟩

lemma keeps_requestNewWorkerIfNeeded : KeepsAccounts d (requestNewWorkerIfNeeded cfg k isSpillback) := by
  have h := composes_accounts d
  have hrequest := keeps_requestWorkerLease (d := d) k isSpillback
  refine h.bind (keeps_findEntry k) fun e => h.ite (fun _ => h.pure ()) fun _ => ?_
  refine h.seq keeps_check (h.ite (fun _ => h.pure ()) fun _ => h.ite (fun _ => ?_) fun _ => ?_)
  · exact h.ite (fun _ => hrequest) fun _ => keeps_dropEntryIfDone k
  · exact h.ite (fun _ => h.pure ()) fun _ => hrequest

lemma keeps_addWorkerLeaseClient (k : SchedulingKey) : KeepsAccounts d (addWorkerLeaseClient cfg a k) := by
  have h := composes_accounts d
  refine h.seq (keeps_neutral fun s => ?_) (h.bind (keeps_findEntry k) fun _ => ?_)
  · split <;> exact { Neutral.refl s with }
  · refine h.seq keeps_check (h.seq (keeps_updateEntry k fun _ => rfl) ?_)
    exact h.bind keeps_get fun _ => keeps_check

lemma keeps_returnWorker (wasError : Bool) (k : SchedulingKey) : KeepsAccounts d (returnWorker a wasError k) := by
  have h := composes_accounts d
  refine h.bind (keeps_findEntry k) fun _ => h.seq keeps_check (h.bind (keeps_findLease a) fun _ => ?_)
  refine h.seq keeps_check (h.seq keeps_check (h.seq keeps_check ?_))
  refine h.seq (keeps_updateEntry k fun _ => rfl) (h.seq (keeps_dropEntryIfDone k) ?_)
  exact keeps_neutral fun s => { Neutral.refl s with }

lemma keeps_findOptimalVictimForStealing (thief : WorkerAddress) :
    KeepsAccounts d (findOptimalVictimForStealing cfg k thief) := by
  have h := composes_accounts d
  refine h.bind (keeps_findEntry k) fun e => h.ite (fun _ => h.pure none) fun _ => ?_
  cases cfg.order e.activeWorkers with
  | nil => exact h.pure none
  | cons first others =>
    refine h.bind (h.foldlM (fun v c => ?_) (first :: others) first) fun v => ?_
    · refine h.bind (keeps_findLease c) fun _ => h.bind keeps_get fun _ => h.seq keeps_check ?_
      exact h.bind (keeps_findLease v) fun _ => h.pure _
    · refine h.ite (fun _ => h.pure none) fun _ => h.bind (keeps_findLease v) fun _ => ?_
      exact h.seq keeps_check (h.seq keeps_check (h.pure _))

lemma keeps_stealTasksOrReturnWorker (hmax : cfg.maxTasksInFlightPerWorker = 1) (a : WorkerAddress)
    (wasError : Bool) (k : SchedulingKey) :
    KeepsAccounts d (stealTasksOrReturnWorker cfg a wasError k) := by
  have h := composes_accounts d
  refine h.bind (keeps_findLease a) fun _ => h.seq keeps_check (h.seq keeps_check ?_)
  refine h.seq keeps_check (h.bind keeps_get fun _ => h.ite (fun _ => ?_) fun _ => ?_)
  · exact keeps_returnWorker a wasError k
  refine h.bind (keeps_findOptimalVictimForStealing k a) fun v => ?_
  cases v with
  | none =>
    exact h.seq (h.onlyIf fun _ => keeps_cancelWorkerLeaseIfNeeded k) (keeps_returnWorker a wasError k)
  | some v =>
    refine .bind (Q := fun _ _ => False) (.check (fun hlt => ?_) fun _ s hs => hs.told) fun _ s hs => hs.elim
    exact absurd hmax hlt.ne'

end AmazonRay.TaskSubmitter
