import AmazonRay.TaskSubmitter.Submitter

/-! The leases of a submitter as an account: the workers, their tasks, and what is still to be answered. -/
namespace AmazonRay.TaskSubmitter
open List Function

/-- The two tables of the submitter as functions, and the requests that are not answered. -/
structure Ledger where
  leases : WorkerAddress → Option LeaseEntry
  entry : SchedulingKey → SchedulingKeyEntry
  pushes : List Push
  stealRequests : List StealRequest
  cancelledTasks : List TaskID
  now : Int

namespace Ledger

def keyOf (L : Ledger) (a : WorkerAddress) : Option SchedulingKey := (L.leases a).map (·.schedulingKey)

structure Exact (max limit : Nat) (L : Ledger) : Prop where
  leaseClient : ∀ a e, L.leases a = some e → e.leaseClient = true
  activeWorkers : ∀ k a, a ∈ (L.entry k).activeWorkers ↔ L.keyOf a = some k
  nodup : ∀ k, (L.entry k).activeWorkers.Nodup
  tasksInFlight : ∀ a e, L.leases a = some e →
    e.tasksInFlight = L.pushes.countP (·.addr = a) ∧ e.tasksInFlight ≤ max
  pushed : ∀ p ∈ L.pushes, L.keyOf p.addr = some p.schedulingKey
  totalTasksInFlight : ∀ k, (L.entry k).totalTasksInFlight = L.pushes.countP (·.schedulingKey = k)
  pendingLeaseRequests : ∀ k, (L.entry k).pendingLeaseRequests.length ≤ limit
  stealing : ∀ a e, L.leases a = some e →
    L.stealRequests.countP (·.thief = a) = e.currentlyStealing.toNat
  thieves : ∀ r ∈ L.stealRequests, L.keyOf r.thief = some r.schedulingKey

/-- No worker that steals with nothing in flight has an expired lease. -/
def Calm (L : Ledger) : Prop :=
  ∀ a e, L.leases a = some e → e.currentlyStealing = true → e.tasksInFlight = 0 →
    L.now ≤ e.leaseExpirationTime

def setLease (L : Ledger) (a : WorkerAddress) (e : Option LeaseEntry) : Ledger :=
  { L with leases := Function.update L.leases a e }

def setEntry (L : Ledger) (k : SchedulingKey) (e : SchedulingKeyEntry) : Ledger :=
  { L with entry := Function.update L.entry k e }

variable {max limit : Nat} {L L' : Ledger} {a : WorkerAddress} {k : SchedulingKey}
  {e e' : LeaseEntry}

lemma keyOf_of_lease (h : L.leases a = some e) : L.keyOf a = some e.schedulingKey := by
  rw [keyOf, h]
  rfl

lemma exists_lease (h : L.keyOf a = some k) : ∃ e, L.leases a = some e ∧ e.schedulingKey = k :=
  Option.map_eq_some_iff.mp h

lemma keyOf_update (h : L.leases a = some e) (hl : L'.leases = update L.leases a (some e'))
    (hk : e'.schedulingKey = e.schedulingKey) (x : WorkerAddress) : L'.keyOf x = L.keyOf x := by
  rw [keyOf, hl, update_apply]
  split
  case isTrue hx => rw [hx, keyOf_of_lease h, ← hk]; rfl
  · rfl

section

variable (h : L.Exact max limit)
include h

lemma Exact.congr (hl : L'.leases = L.leases) (he : L'.entry = L.entry)
    (hp : L'.pushes = L.pushes) (hs : L'.stealRequests = L.stealRequests) : L'.Exact max limit := by
  obtain ⟨_, _, _, _, _, _⟩ := L'
  subst hl he hp hs
  exact ⟨h.leaseClient, h.activeWorkers, h.nodup, h.tasksInFlight, h.pushed, h.totalTasksInFlight,
    h.pendingLeaseRequests, h.stealing, h.thieves⟩

lemma Exact.setEntry {f : SchedulingKeyEntry} (ha : f.activeWorkers = (L.entry k).activeWorkers)
    (ht : f.totalTasksInFlight = (L.entry k).totalTasksInFlight)
    (hp : f.pendingLeaseRequests.length ≤ limit) : (L.setEntry k f).Exact max limit := by
  have hf : ∀ (x : SchedulingKey), ((L.setEntry k f).entry x).activeWorkers = (L.entry x).activeWorkers ∧
      ((L.setEntry k f).entry x).totalTasksInFlight = (L.entry x).totalTasksInFlight ∧
      ((L.setEntry k f).entry x).pendingLeaseRequests.length ≤ limit := by
    intro x
    simp only [Ledger.setEntry, update_apply]
    split
    case isTrue hx => exact hx ▸ ⟨ha, ht, hp⟩
    · exact ⟨rfl, rfl, h.pendingLeaseRequests x⟩
  constructor
  case leaseClient => exact h.leaseClient
  case activeWorkers => exact fun x y => by rw [(hf x).1]; exact h.activeWorkers x y
  case nodup => exact fun x => (hf x).1 ▸ h.nodup x
  case tasksInFlight => exact h.tasksInFlight
  case pushed => exact h.pushed
  case totalTasksInFlight => exact fun x => (hf x).2.1.trans (h.totalTasksInFlight x)
  case pendingLeaseRequests => exact fun x => (hf x).2.2
  case stealing => exact h.stealing
  case thieves => exact h.thieves

lemma Exact.update (hl : L.leases a = some e) (hl' : L'.leases = update L.leases a (some e'))
    (hsame : e'.schedulingKey = e.schedulingKey ∧ e'.leaseClient = e.leaseClient)
    (hentry : ∀ x, (L'.entry x).activeWorkers = (L.entry x).activeWorkers ∧
      (L'.entry x).pendingLeaseRequests = (L.entry x).pendingLeaseRequests)
    (hpushed : ∀ p ∈ L'.pushes, L.keyOf p.addr = some p.schedulingKey)
    (hflight : e'.tasksInFlight = L'.pushes.countP (·.addr = a) ∧ e'.tasksInFlight ≤ max)
    (hothers : ∀ x ≠ a, L'.pushes.countP (·.addr = x) = L.pushes.countP (·.addr = x))
    (htotal : ∀ x, (L'.entry x).totalTasksInFlight = L'.pushes.countP (·.schedulingKey = x))
    (hsteal : L'.stealRequests.countP (·.thief = a) = e'.currentlyStealing.toNat)
    (hsteals : ∀ x ≠ a, L'.stealRequests.countP (·.thief = x) = L.stealRequests.countP (·.thief = x))
    (hthieves : ∀ r ∈ L'.stealRequests, L.keyOf r.thief = some r.schedulingKey) :
    L'.Exact max limit := by
  have hkey := keyOf_update hl hl' hsame.1
  have hlease : ∀ x f, L'.leases x = some f → (x = a ∧ f = e') ∨ (x ≠ a ∧ L.leases x = some f) := by
    intro x f hx
    rw [hl', update_apply] at hx
    split at hx
    case isTrue ha => exact .inl ⟨ha, (Option.some.inj hx).symm⟩
    case isFalse ha => exact .inr ⟨ha, hx⟩
  constructor
  case leaseClient =>
    intro x f hx
    rcases hlease x f hx with ⟨rfl, rfl⟩ | ⟨_, hx⟩
    · exact hsame.2.trans (h.leaseClient x e hl)
    · exact h.leaseClient x f hx
  case activeWorkers =>
    intro x y
    rw [(hentry x).1, hkey]
    exact h.activeWorkers x y
  case nodup => exact fun x => (hentry x).1 ▸ h.nodup x
  case tasksInFlight =>
    intro x f hx
    rcases hlease x f hx with ⟨rfl, rfl⟩ | ⟨hne, hx⟩
    · exact hflight
    · rw [hothers x hne]
      exact h.tasksInFlight x f hx
  case pushed => exact fun p hp => (hkey _).trans (hpushed p hp)
  case totalTasksInFlight => exact htotal
  case pendingLeaseRequests => exact fun x => (hentry x).2 ▸ h.pendingLeaseRequests x
  case stealing =>
    intro x f hx
    rcases hlease x f hx with ⟨rfl, rfl⟩ | ⟨hne, hx⟩
    · exact hsteal
    · rw [hsteals x hne]
      exact h.stealing x f hx
  case thieves => exact fun r hr => (hkey _).trans (hthieves r hr)

def push (L : Ledger) (a : WorkerAddress) (e : LeaseEntry) (k : SchedulingKey) (x : TaskID) : Ledger :=
  { L with
    leases := Function.update L.leases a (some { e with tasksInFlight := e.tasksInFlight + 1 })
    entry := Function.update L.entry k { L.entry k with
      totalTasksInFlight := (L.entry k).totalTasksInFlight + 1 }
    pushes := L.pushes ++ [{ addr := a, schedulingKey := k, taskId := x }] }

lemma Exact.push (hl : L.leases a = some e) (hk : e.schedulingKey = k)
    (hroom : e.tasksInFlight ≠ max) (x : TaskID) : (L.push a e k x).Exact max limit := by
  obtain ⟨hcount, hle⟩ := h.tasksInFlight a e hl
  refine h.update hl rfl ⟨rfl, rfl⟩ (fun y => ?_) (fun p hp => ?_) ⟨?_, ?_⟩ (fun y hy => ?_)
    (fun y => ?_) (h.stealing a e hl) (fun _ _ => rfl) h.thieves
  · by_cases hy : y = k <;> simp [Ledger.push, hy]
  · rcases mem_append.mp hp with hp | hp
    · exact h.pushed p hp
    · rw [mem_singleton.mp hp, keyOf_of_lease hl, hk]
  · simp [Ledger.push, countP_append, hcount]
  · dsimp only
    omega
  · simp [Ledger.push, countP_append, Ne.symm hy]
  · by_cases hy : y = k
    · subst hy
      simp [Ledger.push, countP_append, h.totalTasksInFlight]
    · simp [Ledger.push, countP_append, h.totalTasksInFlight, hy, Ne.symm hy]

def answer (L : Ledger) (p : Push) (e : LeaseEntry) : Ledger :=
  { L with
    leases := Function.update L.leases p.addr (some { e with tasksInFlight := e.tasksInFlight - 1 })
    entry := Function.update L.entry p.schedulingKey { L.entry p.schedulingKey with
      totalTasksInFlight := (L.entry p.schedulingKey).totalTasksInFlight - 1 }
    pushes := L.pushes.erase p }

lemma Exact.answer {p : Push} (hp : p ∈ L.pushes) (hl : L.leases p.addr = some e) : (L.answer p e).Exact max limit := by
  obtain ⟨hcount, hle⟩ := h.tasksInFlight _ e hl
  refine h.update hl rfl ⟨rfl, rfl⟩ (fun y => ?_) (fun q hq => h.pushed q (mem_of_mem_erase hq))
    ⟨?_, ?_⟩ (fun y hy => ?_) (fun y => ?_) (h.stealing _ e hl) (fun _ _ => rfl) h.thieves
  · by_cases hy : y = p.schedulingKey <;> simp [Ledger.answer, hy]
  · simp [Ledger.answer, countP_erase, hp, hcount]
  · dsimp only
    omega
  · simp [Ledger.answer, countP_erase, Ne.symm hy]
  · by_cases hy : y = p.schedulingKey
    · subst hy
      simp [Ledger.answer, countP_erase, hp, h.totalTasksInFlight]
    · simp [Ledger.answer, countP_erase, h.totalTasksInFlight, hy, Ne.symm hy]

def steal (L : Ledger) (a : WorkerAddress) (e : LeaseEntry) (k : SchedulingKey) : Ledger :=
  { L with
    leases := Function.update L.leases a (some { e with currentlyStealing := true })
    stealRequests := L.stealRequests ++ [{ schedulingKey := k, thief := a }] }

lemma Exact.steal (hl : L.leases a = some e) (hk : e.schedulingKey = k)
    (hs : e.currentlyStealing = false) : (L.steal a e k).Exact max limit := by
  refine h.update hl rfl ⟨rfl, rfl⟩ (fun y => ⟨rfl, rfl⟩) h.pushed (h.tasksInFlight a e hl)
    (fun _ _ => rfl) h.totalTasksInFlight ?_ (fun y hy => ?_) fun r hr => ?_
  · simp [Ledger.steal, countP_append, h.stealing a e hl, hs]
  · simp [Ledger.steal, countP_append, Ne.symm hy]
  · rcases mem_append.mp hr with hr | hr
    · exact h.thieves r hr
    · rw [mem_singleton.mp hr, keyOf_of_lease hl, hk]

def doneStealing (L : Ledger) (r : StealRequest) (e : LeaseEntry) : Ledger :=
  { L with
    leases := Function.update L.leases r.thief (some { e with currentlyStealing := false })
    stealRequests := L.stealRequests.erase r }

lemma Exact.stealing_of_mem {r : StealRequest} (hr : r ∈ L.stealRequests)
    (hl : L.leases r.thief = some e) : e.currentlyStealing = true := by
  have hcount := h.stealing _ e hl
  have hpos : 0 < L.stealRequests.countP (·.thief = r.thief) := countP_pos_iff.mpr ⟨r, hr, by simp⟩
  cases hs : e.currentlyStealing with
  | true => rfl
  | false =>
    rw [hcount, hs] at hpos
    exact absurd hpos (Nat.lt_irrefl 0)

lemma Exact.doneStealing {r : StealRequest} (hr : r ∈ L.stealRequests)
    (hl : L.leases r.thief = some e) : (L.doneStealing r e).Exact max limit := by
  refine h.update hl rfl ⟨rfl, rfl⟩ (fun y => ⟨rfl, rfl⟩) h.pushed (h.tasksInFlight _ e hl)
    (fun _ _ => rfl) h.totalTasksInFlight ?_ (fun y hy => ?_)
    fun q hq => h.thieves q (mem_of_mem_erase hq)
  · simp [Ledger.doneStealing, countP_erase, hr, h.stealing _ e hl, h.stealing_of_mem hr hl]
  · simp [Ledger.doneStealing, countP_erase, Ne.symm hy]

lemma Exact.changed {o : Option LeaseEntry} (hl' : L'.leases = Function.update L.leases a o)
    (hsame : L'.pushes = L.pushes ∧ L'.stealRequests = L.stealRequests)
    (hpushes : ∀ p ∈ L.pushes, p.addr ≠ a) (hthieves : ∀ r ∈ L.stealRequests, r.thief ≠ a)
    (ho : ∀ e, o = some e → e.leaseClient = true ∧ e.tasksInFlight = 0 ∧ e.currentlyStealing = false)
    (hactive : ∀ x y, y ∈ (L'.entry x).activeWorkers ↔
      if y = a then o.map (·.schedulingKey) = some x else y ∈ (L.entry x).activeWorkers)
    (hnodup : ∀ x, (L'.entry x).activeWorkers.Nodup)
    (hentry : ∀ x, (L'.entry x).totalTasksInFlight = (L.entry x).totalTasksInFlight ∧
      (L'.entry x).pendingLeaseRequests = (L.entry x).pendingLeaseRequests) :
    L'.Exact max limit := by
  have hlease : ∀ x f, L'.leases x = some f → (x = a ∧ o = some f) ∨ (x ≠ a ∧ L.leases x = some f) := by
    intro x f hx
    rw [hl', update_apply] at hx
    split at hx
    case isTrue ha => exact .inl ⟨ha, hx⟩
    case isFalse ha => exact .inr ⟨ha, hx⟩
  have hkey : ∀ x ≠ a, L'.keyOf x = L.keyOf x := by
    intro x hx
    rw [keyOf, hl', update_of_ne hx]
    rfl
  constructor
  case leaseClient =>
    intro x f hx
    rcases hlease x f hx with ⟨_, hx⟩ | ⟨_, hx⟩
    · exact (ho f hx).1
    · exact h.leaseClient x f hx
  case activeWorkers =>
    intro x y
    rw [hactive]
    split
    case isTrue hy => rw [keyOf, hl', hy, update_self]
    case isFalse hy => rw [hkey y hy, h.activeWorkers]
  case nodup => exact hnodup
  case tasksInFlight =>
    intro x f hx
    rw [hsame.1]
    rcases hlease x f hx with ⟨rfl, hx⟩ | ⟨_, hx⟩
    · have hzero : L.pushes.countP (·.addr = x) = 0 := countP_eq_zero.mpr fun p hp => by simpa using hpushes p hp
      rw [(ho f hx).2.1]
      exact ⟨hzero.symm, Nat.zero_le _⟩
    · exact h.tasksInFlight x f hx
  case pushed =>
    rw [hsame.1]
    exact fun p hp => (hkey _ (hpushes p hp)).trans (h.pushed p hp)
  case totalTasksInFlight =>
    rw [hsame.1]
    exact fun x => (hentry x).1.trans (h.totalTasksInFlight x)
  case pendingLeaseRequests => exact fun x => (hentry x).2 ▸ h.pendingLeaseRequests x
  case stealing =>
    intro x f hx
    rw [hsame.2]
    rcases hlease x f hx with ⟨rfl, hx⟩ | ⟨_, hx⟩
    · rw [(ho f hx).2.2]
      exact countP_eq_zero.mpr fun r hr => by simpa using hthieves r hr
    · exact h.stealing x f hx
  case thieves =>
    rw [hsame.2]
    exact fun r hr => (hkey _ (hthieves r hr)).trans (h.thieves r hr)

def grant (L : Ledger) (a : WorkerAddress) (e : LeaseEntry) : Ledger :=
  { L with
    leases := Function.update L.leases a (some e)
    entry := Function.update L.entry e.schedulingKey { L.entry e.schedulingKey with
      activeWorkers := a :: (L.entry e.schedulingKey).activeWorkers } }

lemma Exact.not_active (hl : L.leases a = none) (k : SchedulingKey) : a ∉ (L.entry k).activeWorkers := by
  intro ha
  have hk := (h.activeWorkers k a).mp ha
  rw [keyOf, hl] at hk
  cases hk

lemma Exact.grant (hl : L.leases a = none) (hc : e.leaseClient = true)
    (hn : e.tasksInFlight = 0) (hs : e.currentlyStealing = false) : (L.grant a e).Exact max limit := by
  have hkey : L.keyOf a = none := by rw [keyOf, hl]; rfl
  have hactive := h.not_active hl
  refine h.changed rfl ⟨rfl, rfl⟩ ?_ ?_ ?_ (fun x y => ?_) (fun x => ?_) fun x => ?_
  · rintro p hp rfl
    exact nomatch hkey.symm.trans (h.pushed p hp)
  · rintro r hr rfl
    exact nomatch hkey.symm.trans (h.thieves r hr)
  · rintro f hf
    cases hf
    exact ⟨hc, hn, hs⟩
  · by_cases hx : x = e.schedulingKey
    · by_cases hy : y = a <;> simp [Ledger.grant, hx, hy]
    · by_cases hy : y = a <;> simp [Ledger.grant, hx, hy, Ne.symm hx, hactive]
  · by_cases hx : x = e.schedulingKey
    · simp [Ledger.grant, hx, hactive, h.nodup]
    · simp [Ledger.grant, hx, h.nodup]
  · by_cases hx : x = e.schedulingKey <;> simp [Ledger.grant, hx]

def drop (L : Ledger) (a : WorkerAddress) (k : SchedulingKey) : Ledger :=
  { L with
    leases := Function.update L.leases a none
    entry := Function.update L.entry k { L.entry k with
      activeWorkers := (L.entry k).activeWorkers.erase a } }

lemma Exact.drop (hl : L.leases a = some e) (hk : e.schedulingKey = k)
    (hn : e.tasksInFlight = 0) (hs : e.currentlyStealing = false) : (L.drop a k).Exact max limit := by
  have hkey := keyOf_of_lease hl
  have hpushes := countP_eq_zero.mp ((h.tasksInFlight a e hl).1.symm.trans hn)
  have hthieves := countP_eq_zero.mp ((h.stealing a e hl).trans (congrArg Bool.toNat hs))
  refine h.changed rfl ⟨rfl, rfl⟩ (fun p hp => by simpa using hpushes p hp)
    (fun r hr => by simpa using hthieves r hr) nofun (fun x y => ?_) (fun x => ?_)
    fun x => ?_
  · by_cases hx : x = k
    · by_cases hy : y = a <;> simp [Ledger.drop, hx, hy, (h.nodup k).mem_erase_iff]
    · by_cases hy : y = a
      · have hne : a ∉ (L.entry x).activeWorkers := fun ha =>
          hx (Option.some.inj (((h.activeWorkers x a).mp ha).symm.trans hkey) |>.trans hk)
        simp [Ledger.drop, hx, hy, hne]
      · simp [Ledger.drop, hx, hy]
  · by_cases hx : x = k
    · simpa [Ledger.drop, hx] using (h.nodup k).erase a
    · simp [Ledger.drop, hx, h.nodup]
  · by_cases hx : x = k <;> simp [Ledger.drop, hx]

end

lemma sum_indicator {α : Type} [DecidableEq α] {l : List α} (h : l.Nodup) (x : α) :
    (l.map fun y => if x = y then 1 else 0).sum = if x ∈ l then 1 else 0 := by
  induction l with
  | nil => simp
  | cons y l ih =>
    obtain ⟨hy, hl⟩ := nodup_cons.mp h
    rw [map_cons, sum_cons, ih hl]
    by_cases hx : x = y
    · subst hx
      simp [hy]
    · simp [hx]

lemma Exact.sum_tasksInFlight (h : L.Exact max limit) (k : SchedulingKey) : (L.entry k).totalTasksInFlight =
      ((L.entry k).activeWorkers.map fun a => (L.leases a).elim 0 (·.tasksInFlight)).sum := by
  have hcount : ∀ pushes : List Push, (∀ p ∈ pushes, p.addr ∈ (L.entry k).activeWorkers ↔ p.schedulingKey = k) →
      pushes.countP (·.schedulingKey = k) =
        ((L.entry k).activeWorkers.map fun a => pushes.countP (·.addr = a)).sum := by
    intro pushes hp
    induction pushes with
    | nil => simp
    | cons p pushes ih =>
      simp only [countP_cons, sum_map_add, decide_eq_true_eq, sum_indicator (h.nodup k),
        hp p mem_cons_self, ih fun q hq => hp q (mem_cons_of_mem _ hq)]
  rw [h.totalTasksInFlight, hcount L.pushes fun p hp => ?_]
  · congr 1
    refine map_congr_left fun a ha => ?_
    obtain ⟨e, he, _⟩ := exists_lease ((h.activeWorkers k a).mp ha)
    rw [he, Option.elim_some, (h.tasksInFlight a e he).1]
  · rw [h.activeWorkers, h.pushed p hp, Option.some.injEq]

end Ledger

end AmazonRay.TaskSubmitter
