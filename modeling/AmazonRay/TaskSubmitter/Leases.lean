import AmazonRay.TaskSubmitter.Ledger

/-! The submitter keeps its leases as the ledger does, while workers exit and leases expire only when nothing else is
under way. -/
namespace AmazonRay.TaskSubmitter
open Program TaskManager Function Ledger

def Submitter.ledger (s : Submitter) : Ledger where
  leases a := s.workerToLeaseEntry.lookup a
  entry k := s.entry k
  pushes := s.pushes
  stealRequests := s.stealRequests
  cancelledTasks := s.cancelledTasks
  now := s.currentTimeMs

def At (L : Ledger) (s : System) : Prop := s.submitter.ledger = L

/-- The checks of other components, and the exit when the raylet has failed. -/
def Check.foreign : Check → Bool
  | .taskManager _ | .rayletFailed => true
  | _ => false

section

variable {s : Submitter} {L : Ledger} {a : WorkerAddress} {e : LeaseEntry} {k : SchedulingKey}

variable {f : Submitter → Submitter}

lemma Submitter.lease_of_ledger (h : s.ledger = L) (hl : L.leases a = some e) : s.lease a = e := by
  subst h
  have hl : s.workerToLeaseEntry.lookup a = some e := hl
  rw [Submitter.lease, hl]
  rfl

lemma Submitter.lookup_of_ledger (h : s.ledger = L) (hl : L.leases a = some e) :
    s.workerToLeaseEntry.lookup a ≠ none := by
  subst h
  have hl : s.workerToLeaseEntry.lookup a = some e := hl
  simp [hl]

lemma Submitter.entry_of_ledger (h : s.ledger = L) (k : SchedulingKey) : s.entry k = L.entry k := by
  subst h
  rfl

lemma Submitter.entry_setEntry (f : SchedulingKeyEntry) : (s.setEntry k f).entry = update s.entry k f := by
  funext x
  rw [Submitter.entry, Submitter.setEntry, Table.lookup_insert, update_apply]
  split <;> rfl

lemma ledger_setLease (e : LeaseEntry) : (s.setLease a e).ledger = s.ledger.setLease a (some e) := by
  have hl : (fun x => (s.workerToLeaseEntry.insert a e).lookup x) =
      update (fun x => s.workerToLeaseEntry.lookup x) a (some e) := by
    funext x
    rw [Table.lookup_insert, update_apply]
  rw [Submitter.ledger, Submitter.setLease, hl]
  rfl

lemma ledger_eraseLease : Submitter.ledger { s with
    workerToLeaseEntry := s.workerToLeaseEntry.erase a } = s.ledger.setLease a none := by
  have hl : (fun x => (s.workerToLeaseEntry.erase a).lookup x) =
      update (fun x => s.workerToLeaseEntry.lookup x) a none := by
    funext x
    rw [Table.lookup_erase, update_apply]
  rw [Submitter.ledger, hl]
  rfl

lemma ledger_setEntry (f : SchedulingKeyEntry) : (s.setEntry k f).ledger = s.ledger.setEntry k f := by
  rw [Submitter.ledger, Submitter.entry_setEntry]
  rfl

lemma SchedulingKeyEntry.eq_default_of_canDelete {f : SchedulingKeyEntry} (h : f.canDelete = true) : f = {} := by
  cases f
  simpa [SchedulingKeyEntry.canDelete, and_assoc] using h

lemma ledger_eraseEntry (h : (s.entry k).canDelete = true) :
    Submitter.ledger { s with schedulingKeyEntries := s.schedulingKeyEntries.erase k } = s.ledger := by
  have he x : ((s.schedulingKeyEntries.erase k).lookup x).getD {} = s.entry x := by
    rw [Table.lookup_erase]
    split
    case isTrue hx => rw [hx, SchedulingKeyEntry.eq_default_of_canDelete h]; rfl
    · rfl
  exact congrArg (fun f => ({ s.ledger with entry := f } : Ledger)) (funext he)

end

section

variable {α : Type} {L M : Ledger} {a : WorkerAddress} {e : LeaseEntry} {k : SchedulingKey}
  {Q : α → System → Prop} {E : Check → System → Prop} {g : Unit → SubmitM α}

lemma at_modify {R : Unit → System → Prop}
    (hR : ∀ s, At M s → R () s) (h : ∀ s : Submitter, s.ledger = L → (f s).ledger = M) :
    Triple (At L) (modifySubmitter f) R E := .update fun s hs => hR _ (h s.submitter hs)

lemma at_modify_bind (h : ∀ s : Submitter, s.ledger = L → (f s).ledger = M) (hg : Triple (At M) (g ()) Q E) :
    Triple (At L) (modifySubmitter f >>= g) Q E := .bind (at_modify (fun _ h => h) h) fun _ => hg

lemma at_read_bind {f : System → SubmitM α} (h : ∀ s, At L s → Triple (At L) (f s) Q E) :
    Triple (At L) (get >>= f) Q E := .read fun s hs => (h s hs).pre fun _ ht => ht ▸ hs

lemma at_check_bind {err : Check} {c : Prop} [Decidable c] (hc : c)
    (hg : Triple (At L) (g ()) Q E) : Triple (At L) (check err c >>= g) Q E :=
  .seq (.passed hc) hg

lemma at_findLease_bind {g : LeaseEntry → SubmitM α} (h : L.leases a = some e)
    (hg : Triple (At L) (g e) Q E) : Triple (At L) (findLease a >>= g) Q E := by
  have hsame : ∀ s : Submitter, s.ledger = L → (s.setLease a (s.lease a)).ledger = L := by
    intro s hs
    rw [ledger_setLease, Submitter.lease_of_ledger hs h, hs, setLease, ← h, update_eq_self]
  have hfind : Triple (At L) (findLease a) (fun r s => At L s ∧ r = e) E :=
    .bind (at_modify (fun _ h => h) hsame) fun _ => .read fun s hs =>
      .pure fun t ht => ⟨ht ▸ hs, Submitter.lease_of_ledger hs h⟩
  exact .bind hfind fun r => .given fun hr => hr ▸ hg

lemma at_findEntry_bind {g : SchedulingKeyEntry → SubmitM α} (hg : Triple (At L) (g (L.entry k)) Q E) :
    Triple (At L) (findEntry k >>= g) Q E := by
  have hsame : ∀ s : Submitter, s.ledger = L → (s.setEntry k (s.entry k)).ledger = L := by
    intro s hs
    rw [ledger_setEntry, Submitter.entry_of_ledger hs, hs, setEntry, update_eq_self]
  have hfind : Triple (At L) (findEntry k) (fun r s => At L s ∧ r = L.entry k) E :=
    .bind (at_modify (fun _ h => h) hsame) fun _ => .read fun s hs =>
      .pure fun t ht => ⟨ht ▸ hs, Submitter.entry_of_ledger hs k⟩
  exact .bind hfind fun r => .given fun hr => hr ▸ hg

lemma at_updateLease (h : L.leases a = some e) (f : LeaseEntry → LeaseEntry) :
    Triple (At L) (updateLease a f) (fun _ => At (L.setLease a (some (f e)))) E := by
  refine at_modify (fun _ h => h) fun s hs => ?_
  rw [ledger_setLease, Submitter.lease_of_ledger hs h, hs]

lemma at_updateEntry (f : SchedulingKeyEntry → SchedulingKeyEntry) :
    Triple (At L) (updateEntry k f) (fun _ => At (L.setEntry k (f (L.entry k)))) E := by
  refine at_modify (fun _ h => h) fun s hs => ?_
  rw [ledger_setEntry, Submitter.entry_of_ledger hs, hs]

lemma at_dropEntryIfDone : Triple (At L) (dropEntryIfDone k) (fun _ => At L) E := by
  refine at_modify (fun _ h => h) fun s hs => ?_
  split
  case isTrue hd => exact (ledger_eraseEntry hd).trans hs
  · exact hs

lemma at_taskManager {x : WorkerM α} : Triple (At L) (taskManager x) (fun _ => At L) fun err _ => err.foreign = true :=
  .within fun _ hs => .anyhow (fun _ _ => hs) fun _ _ => rfl

end

variable {cfg : SubmitterConfig} {calm : Prop} {L : Ledger} {a : WorkerAddress} {e : LeaseEntry}
  {k : SchedulingKey} {E : Check → System → Prop} {victim : WorkerAddress}

/-- The ledger is exact and, where that is asked for, calm. -/
def Sound (cfg : SubmitterConfig) (calm : Prop) (L : Ledger) : Prop :=
  L.Exact cfg.maxTasksInFlightPerWorker cfg.maxPendingLeaseRequests ∧ (calm → L.Calm)

/-- The program keeps the ledger sound, and no check of the submitter stops it. -/
abbrev KeepsSound (cfg : SubmitterConfig) (calm : Prop) (L : Ledger) {α : Type} (x : SubmitM α) : Prop :=
  Triple (At L) x (fun _ s => Sound cfg calm s.submitter.ledger) fun err _ => err.foreign = true

lemma Sound.at (h : Sound cfg calm L) (s : System) (hs : At L s) : Sound cfg calm s.submitter.ledger := hs.symm ▸ h

lemma KeepsSound.after {α β : Type} {x : SubmitM α} {f : α → SubmitM β} (hx : KeepsSound cfg calm L x)
    (hf : ∀ r L', Sound cfg calm L' → KeepsSound cfg calm L' (f r)) : KeepsSound cfg calm L (x >>= f) :=
  .bind hx fun r s hs => hf r _ hs s rfl

lemma Sound.setQueue (h : Sound cfg calm L) (q : List TaskID) :
    Sound cfg calm (L.setEntry k { L.entry k with taskQueue := q }) :=
  ⟨h.1.setEntry rfl rfl (h.1.pendingLeaseRequests k), h.2⟩

lemma sound_requestNewWorkerIfNeeded (h : Sound cfg calm L) (isSpillback : Bool) :
    KeepsSound cfg calm L (requestNewWorkerIfNeeded cfg k isSpillback) := by
  refine at_findEntry_bind (.ite (fun _ => .pure h.at) fun hne => ?_)
  have hlt := Nat.lt_of_le_of_ne (h.1.pendingLeaseRequests k) hne
  have hrequest : KeepsSound cfg calm L (requestWorkerLease k isSpillback) := by
    refine .update fun s hs => ?_
    subst hs
    have hset : Sound cfg calm (s.submitter.setEntry k { s.submitter.entry k with
        pendingLeaseRequests := (s.submitter.entry k).pendingLeaseRequests ++
          [s.submitter.nextLeaseId] }).ledger := by
      rw [ledger_setEntry]
      refine ⟨h.1.setEntry rfl rfl ?_, h.2⟩
      rw [List.length_append]
      exact hlt
    exact hset
  refine at_check_bind hlt (.ite (fun _ => .pure h.at) fun _ => ?_)
  refine .ite (fun _ => .ite (fun _ => hrequest) fun _ => ?_) fun _ => ?_
  · exact at_dropEntryIfDone.post fun _ => h.at
  · exact .ite (fun _ => .pure h.at) fun _ => hrequest

lemma at_cancelWorkerLeaseIfNeeded : Triple (At L) (cancelWorkerLeaseIfNeeded k) (fun _ => At L) E :=
  at_findEntry_bind (.onlyIf (fun _ => at_modify (fun _ h => h) fun _ hs => hs) fun _ _ hs => hs)

lemma Sound.activeWorkers_ne_nil (h : Sound cfg calm L) (hl : L.leases a = some e) (hk : e.schedulingKey = k) :
    (L.entry k).activeWorkers ≠ [] := List.ne_nil_of_mem ((h.1.activeWorkers k a).mpr (hk ▸ keyOf_of_lease hl))

lemma at_returnWorker (h : Sound cfg calm L) (hl : L.leases a = some e) (hk : e.schedulingKey = k)
    (hn : e.tasksInFlight = 0) (hs : e.currentlyStealing = false) (wasError : Bool) :
    Triple (At L) (returnWorker a wasError k) (fun _ => At (L.drop a k)) E := by
  have hactive := h.activeWorkers_ne_nil hl hk
  refine at_findEntry_bind (at_check_bind hactive (at_findLease_bind hl ?_))
  refine at_check_bind (h.1.leaseClient a e hl) (at_check_bind hn (at_check_bind hs ?_))
  refine .seq (at_updateEntry _) (.seq at_dropEntryIfDone ?_)
  refine at_modify (fun _ h => h) fun s hs => ?_
  exact ledger_eraseLease.trans (congrArg (setLease · a none) hs)

lemma Sound.drop (h : Sound cfg calm L) (hl : L.leases a = some e) (hk : e.schedulingKey = k)
    (hn : e.tasksInFlight = 0) (hs : e.currentlyStealing = false) : Sound cfg calm (L.drop a k) := by
  refine ⟨h.1.drop hl hk hn hs, fun hc x f hx hf h0 => h.2 hc x f ?_ hf h0⟩
  by_cases hxa : x = a
  · simp [Ledger.drop, hxa] at hx
  · simpa [Ledger.drop, hxa] using hx

lemma at_betterVictim {thief candidate : WorkerAddress}
    (hv : L.keyOf victim = some k) (hc : L.keyOf candidate = some k) :
    Triple (At L) (betterVictim thief victim candidate) (fun r s => At L s ∧ L.keyOf r = some k) E := by
  obtain ⟨f, hf, _⟩ := exists_lease hv
  obtain ⟨g, hg, _⟩ := exists_lease hc
  refine at_findLease_bind hg (at_read_bind fun s hs => ?_)
  refine at_check_bind (Submitter.lookup_of_ledger hs hf) (at_findLease_bind hf ?_)
  refine .pure fun s hs => ⟨hs, ?_⟩
  split
  · exact hc
  · exact hv

variable (h : Sound cfg calm L)
include h

lemma at_findOptimalVictimForStealing (thief : WorkerAddress) :
    Triple (At L) (findOptimalVictimForStealing cfg k thief) (fun r s => At L s ∧
      ∀ v, r = some v → ∃ f, L.leases v = some f ∧ 1 < f.tasksInFlight) E := by
  have hnone : Triple (At L) (pure none : SubmitM (Option WorkerAddress)) (fun r s => At L s ∧
      ∀ v, r = some v → ∃ f, L.leases v = some f ∧ 1 < f.tasksInFlight) E :=
    .pure fun _ hs => ⟨hs, nofun⟩
  refine at_findEntry_bind (.ite (fun _ => hnone) fun _ => ?_)
  have horder : ∀ v ∈ cfg.order (L.entry k).activeWorkers, L.keyOf v = some k :=
    fun v hv => (h.1.activeWorkers k v).mp ((cfg.order_perm _).mem_iff.mp hv)
  cases hl : cfg.order (L.entry k).activeWorkers with
  | nil => exact hnone
  | cons first others =>
    rw [hl] at horder
    refine .bind ((Triple.foldlM (I := fun rest v s => At L s ∧ (L.keyOf v = some k ∧
      ∀ x ∈ rest, L.keyOf x = some k)) (fun v x rest => .given fun hrest => ?_)
      (first :: others) first).pre fun s hs => ⟨hs, horder first List.mem_cons_self, horder⟩) fun v => ?_
    · obtain ⟨hx, hrest'⟩ := List.forall_mem_cons.mp hrest.2
      exact (at_betterVictim hrest.1 hx).post fun r s hr => ⟨hr.1, hr.2, hrest'⟩
    refine .given fun hv => .ite (fun _ => hnone) fun _ => ?_
    obtain ⟨f, hf, hkey⟩ := exists_lease hv.1
    have htotal : f.tasksInFlight ≤ (L.entry k).totalTasksInFlight := by
      rw [(h.1.tasksInFlight v f hf).1, h.1.totalTasksInFlight]
      refine List.countP_mono_left fun p hp hpv => ?_
      have hpk := h.1.pushed p hp
      rw [of_decide_eq_true hpv, hv.1] at hpk
      simpa using (Option.some.inj hpk).symm
    refine at_findLease_bind hf (at_check_bind hkey (at_check_bind htotal ?_))
    refine .pure fun s hs => ⟨hs, fun x hx => ?_⟩
    split at hx
    · cases hx
    case isFalse hmany =>
      cases hx
      exact ⟨f, hf, by omega⟩

variable (hl : L.leases a = some e)
include hl

lemma at_stealTasks {f : LeaseEntry} (hs : e.currentlyStealing = false) (hv : L.leases victim = some f)
    (hf : 1 < f.tasksInFlight) :
    Triple (At L) (stealTasks cfg k a victim) (fun _ => At (L.steal a e k)) E := by
  have hmax : 1 < cfg.maxTasksInFlightPerWorker := lt_of_lt_of_le hf (h.1.tasksInFlight victim f hv).2
  refine at_check_bind hmax (at_read_bind fun s hs' => ?_)
  refine at_check_bind (Submitter.lookup_of_ledger hs' hv) ?_
  have hset : Triple (At L) (setWorkerIsStealing a)
      (fun _ => At (L.setLease a (some { e with currentlyStealing := true }))) E := by
    refine at_read_bind fun s hs' => at_check_bind ?_ (at_updateLease hl _)
    rw [Submitter.lease_of_ledger hs' hl]
    exact hs
  refine .seq hset (at_modify (fun _ h => h) fun s hs' => ?_)
  exact congrArg (fun L => ({ L with
    stealRequests := L.stealRequests ++ [{ schedulingKey := k, thief := a }] } : Ledger)) hs'

lemma Sound.steal (hk : e.schedulingKey = k) (hs : e.currentlyStealing = false) (hexp : L.now ≤ e.leaseExpirationTime) :
    Sound cfg calm (L.steal a e k) := by
  refine ⟨h.1.steal hl hk hs, fun hc x f hx hf h0 => ?_⟩
  by_cases hxa : x = a
  · have hfe : { e with currentlyStealing := true } = f := by simpa [Ledger.steal, hxa] using hx
    exact hfe ▸ hexp
  · exact h.2 hc x f (by simpa [Ledger.steal, hxa] using hx) hf h0

lemma sound_stealTasksOrReturnWorker
    (hk : e.schedulingKey = k) (hn : e.tasksInFlight = 0) (hs : e.currentlyStealing = false)
    (wasError : Bool) : KeepsSound cfg calm L (stealTasksOrReturnWorker cfg a wasError k) := by
  have hreturn : KeepsSound cfg calm L (returnWorker a wasError k) :=
    (at_returnWorker h hl hk hn hs wasError).post fun _ => (h.drop hl hk hn hs).at
  refine at_findLease_bind hl (at_check_bind (h.1.leaseClient a e hl) (at_check_bind hn ?_))
  refine at_check_bind hs (at_read_bind fun s hs' => .ite (fun _ => hreturn) fun hok => ?_)
  have hexp : L.now ≤ e.leaseExpirationTime := by
    have hnow : s.submitter.currentTimeMs = L.now := congrArg now hs'
    rw [← hnow]
    exact Int.not_lt.mp fun hlt => hok (.inr hlt)
  refine .bind (at_findOptimalVictimForStealing h a) fun r => .given fun hr => ?_
  cases r with
  | none =>
    exact .seq (.onlyIf (fun _ => at_cancelWorkerLeaseIfNeeded) fun _ _ hs => hs) hreturn
  | some v =>
    obtain ⟨f, hf, hmany⟩ := hr v rfl
    exact (at_stealTasks h hl hs hf hmany).post fun _ => (h.steal hl hk hs hexp).at

lemma Sound.push (hk : e.schedulingKey = k) (hroom : e.tasksInFlight ≠ cfg.maxTasksInFlightPerWorker) (x : TaskID) :
    Sound cfg calm (L.push a e k x) := by
  refine ⟨h.1.push hl hk hroom x, fun hc y f hy hf h0 => ?_⟩
  by_cases hya : y = a
  · have hfe : { e with tasksInFlight := e.tasksInFlight + 1 } = f := by
      simpa [Ledger.push, hya] using hy
    rw [← hfe] at h0
    exact absurd h0 (Nat.succ_ne_zero _)
  · exact h.2 hc y f (by simpa [Ledger.push, hya] using hy) hf h0

lemma at_pushNormalTask (hk : e.schedulingKey = k) (x : TaskID) :
    Triple (At L) (pushNormalTask a k x) (fun _ => At (L.push a e k x)) E := by
  have hactive := h.activeWorkers_ne_nil hl hk
  refine .seq (at_updateLease hl _) (at_read_bind fun s hs => ?_)
  refine at_check_bind ((Submitter.entry_of_ledger hs k).symm ▸ hactive) ?_
  refine .seq (at_updateEntry _) (at_modify (fun _ h => h) fun s hs => ?_)
  exact congrArg (fun L => ({ L with
    pushes := L.pushes ++ [{ addr := a, schedulingKey := k, taskId := x }] } : Ledger)) hs

lemma sound_pushTasks (hk : e.schedulingKey = k)
    (queue : List TaskID) : KeepsSound cfg calm L (pushTasks cfg a k queue) := by
  induction queue generalizing L e with
  | nil => exact .pure h.at
  | cons x rest ih =>
    refine at_read_bind fun s hs => .onlyIf (fun hroom => ?_) fun _ => h.at
    rw [Submitter.lease_of_ledger hs hl] at hroom
    refine .seq (at_pushNormalTask h hl hk x) (.seq (at_updateEntry _) ?_)
    exact ih ((h.push hl hk hroom x).setQueue rest) (update_self ..) hk

lemma sound_onWorkerIdle (hk : e.schedulingKey = k)
    (wasError : Bool) (hsteal : e.currentlyStealing = true → e.tasksInFlight = 0 →
      wasError = false ∧ L.now ≤ e.leaseExpirationTime) :
    KeepsSound cfg calm L (onWorkerIdle cfg a k wasError) := by
  have hactive := h.activeWorkers_ne_nil hl hk
  refine at_findLease_bind hl (.onlyIf (fun _ => at_findEntry_bind ?_) fun _ => h.at)
  refine at_read_bind fun s hs => KeepsSound.after (.ite (fun hidle => ?_) fun _ => ?_)
    fun _ L' h' => sound_requestNewWorkerIfNeeded h' false
  · refine at_check_bind hactive (.onlyIf (fun hn => ?_) fun _ => h.at)
    refine sound_stealTasksOrReturnWorker h hl hk hn ?_ wasError
    cases hst : e.currentlyStealing with
    | false => rfl
    | true =>
      obtain ⟨hok, hexp⟩ := hsteal hst hn
      have hnow : s.submitter.currentTimeMs = L.now := congrArg now hs
      rw [hnow] at hidle
      rcases hidle with herr | hlt | hq
      · rw [hok] at herr
        cases herr
      · omega
      · rw [hst] at hq
        cases hq.2
  · refine KeepsSound.after (sound_pushTasks h hl hk _) fun _ L' h' => ?_
    refine .onlyIf (fun _ => ?_) fun _ => h'.at
    exact at_cancelWorkerLeaseIfNeeded.post fun _ => h'.at

end AmazonRay.TaskSubmitter
