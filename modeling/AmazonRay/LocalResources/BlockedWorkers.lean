import AmazonRay.PlacementGroupResources.Instances
import AmazonRay.ResourceReports.Reports

/-! A worker that blocks gives its CPUs to other tasks, and takes them back even if none are left. -/
namespace AmazonRay.LocalResources
open Program PlacementGroupResources List Option Table Int

def cpu : ResourceName := .original "CPU"

structure Worker where
  allocatedInstances : Option TaskResourceInstances := none
  lifetimeAllocatedInstances : Option TaskResourceInstances := none
  blocked : Bool := false

structure State where
  resources : NodeResourceInstances
  workers : AList fun _ : WorkerID => Worker := ∅

inductive Check where
  | cpuOverflow
  | instanceCountMismatch
  deriving DecidableEq, Repr

abbrev WorkerM := EStateM Check State

def throughDouble (amount : ℤ) : ℤ := ResourceReports.fixedPoint (ResourceReports.toDouble amount)

def cpuInstances (allocation : TaskResourceInstances) : List ℤ := (allocation.lookup cpu).getD []

def clearCPUInstances (allocation : TaskResourceInstances) : TaskResourceInstances := allocation.erase cpu

/-- What `AddAvailableResourceInstances` returns: what is left over above the totals. -/
def overflow (c : ResourceInstanceCapacities) (instances : List ℤ) : List ℤ :=
  (List.range instances.length).map fun i => max 0 (c.available.getD i 0 + instances.getD i 0 - c.total.getD i 0)

def subtractInstance (allowGoingNegative : Bool) (available amount : ℤ) : ℤ :=
  if available < 0 then if allowGoingNegative then available - amount else available
  else if available - amount < 0 ∧ allowGoingNegative = false then 0 else available - amount

def subtractAvailable (c : ResourceInstanceCapacities) (instances : List ℤ) (allowGoingNegative : Bool) :
    ResourceInstanceCapacities :=
  { c with available := c.available.zipWith (subtractInstance allowGoingNegative) instances }

def addCPUResourceInstances (instances : List ℤ) : WorkerM (List ℤ) := do
  let s ← get
  if instances = [] then pure [] else do
    set { s with resources := freeInstances s.resources ⟨cpu, instances⟩ }
    pure (overflow ((s.resources.lookup cpu).getD {}) instances)

def subtractCPUResourceInstances (instances : List ℤ) (allowGoingNegative : Bool) : WorkerM Unit := do
  let s ← get
  let c := (s.resources.lookup cpu).getD {}
  onlyIf (instances ≠ []) do
    check .instanceCountMismatch (instances.length = c.available.length)
    set { s with resources := s.resources.insert cpu (subtractAvailable c instances allowGoingNegative) }

def State.worker (s : State) (id : WorkerID) : Worker := (s.workers.lookup id).getD {}

def setWorker (id : WorkerID) (w : Worker) : WorkerM Unit :=
  modify fun s => { s with workers := s.workers.insert id w }

def dispatch (id : WorkerID) (actorCreation : Bool) (request : ResourceRequest) : WorkerM Unit := do
  let s ← get
  match allocateTaskResourceInstances request s.resources with
  | (none, resources) => set { s with resources }
  | (some allocation, resources) => do
    set { s with resources }
    setWorker id (if actorCreation then { s.worker id with lifetimeAllocatedInstances := some allocation }
      else { s.worker id with allocatedInstances := some allocation })

/-- The CPUs of a blocked worker are released already. -/
def releaseAllocation (blocked : Bool) (allocation : TaskResourceInstances) : WorkerM Unit := do
  let allocation := if blocked then clearCPUInstances allocation else allocation
  onlyIf (isEmptyAllocation allocation = false)
    (modify fun s => { s with resources := freeTaskResourceInstances s.resources allocation })

def releaseWorkerResources (id : WorkerID) : WorkerM Unit := do
  let w := (← get).worker id
  match w.allocatedInstances with
  | some allocation => do
    releaseAllocation w.blocked allocation
    setWorker id { w with allocatedInstances := none }
  | none =>
    match w.lifetimeAllocatedInstances with
    | some allocation => do
      releaseAllocation w.blocked allocation
      setWorker id { w with lifetimeAllocatedInstances := none }
    | none => pure ()

def releaseCpuResourcesFromUnblockedWorker (id : WorkerID) : WorkerM Bool := do
  let w := (← get).worker id
  match w.blocked, w.allocatedInstances with
  | false, some allocation =>
    if cpuInstances allocation = [] then pure false else do
      let left ← addCPUResourceInstances ((cpuInstances allocation).map throughDouble)
      check .cpuOverflow (∀ amount ∈ left, amount = 0)
      setWorker id { w with blocked := true }
      pure true
  | _, _ => pure false

/-- The CPUs may go below zero. -/
def returnCpuResourcesToBlockedWorker (id : WorkerID) : WorkerM Bool := do
  let w := (← get).worker id
  match w.blocked, w.allocatedInstances with
  | true, some allocation =>
    if cpuInstances allocation = [] then pure false else do
      subtractCPUResourceInstances ((cpuInstances allocation).map throughDouble) true
      setWorker id { w with blocked := false }
      pure true
  | _, _ => pure false

inductive WorkerOp where
  | dispatch (id : WorkerID) (actorCreation : Bool) (request : ResourceRequest)
  | releaseCpuResourcesFromUnblockedWorker (id : WorkerID)
  | returnCpuResourcesToBlockedWorker (id : WorkerID)
  | releaseWorkerResources (id : WorkerID)

def WorkerOp.run : WorkerOp → WorkerM Unit
  | .dispatch id actorCreation request => LocalResources.dispatch id actorCreation request
  | .releaseCpuResourcesFromUnblockedWorker id => discard (LocalResources.releaseCpuResourcesFromUnblockedWorker id)
  | .returnCpuResourcesToBlockedWorker id => discard (LocalResources.returnCpuResourcesToBlockedWorker id)
  | .releaseWorkerResources id => LocalResources.releaseWorkerResources id

/-- A task is dispatched to a worker that is not leased, and has no resources. -/
def WorkerOp.Allowed : WorkerOp → State → Prop
  | .dispatch id _ _, s =>
    (s.worker id).allocatedInstances.isNone ∧ (s.worker id).lifetimeAllocatedInstances.isNone
  | _, _ => True

/-- The worker of a new task is not marked blocked, and what a blocked one gives up is not changed by the way through a
`double`. -/
def WorkerOp.KeepsCpus : WorkerOp → State → Prop
  | .dispatch id _ _, s => (s.worker id).blocked = false
  | .releaseCpuResourcesFromUnblockedWorker id, s =>
    ∀ allocation ∈ (s.worker id).allocatedInstances, ∀ amount ∈ cpuInstances allocation, throughDouble amount = amount
  | _, _ => True

section

variable {s : State} {id : WorkerID} {l : NodeResourceInstances} {count : Nat} {w : Worker}

def Worker.cpuAt (w : Worker) (i : Nat) : ℤ :=
  if w.blocked then 0
  else w.allocatedInstances.elim 0 (amountAt · cpu i) + w.lifetimeAllocatedInstances.elim 0 (amountAt · cpu i)

def State.heldAt (s : State) (i : Nat) : ℤ := Table.total (fun _ w => w.cpuAt i) s.workers

def cpuCount (l : NodeResourceInstances) : Nat := ((l.lookup cpu).getD {}).available.length

structure CpuAllocation (count : Nat) (a : TaskResourceInstances) : Prop where
  nonneg : ∀ i, 0 ≤ amountAt a cpu i
  length : ∀ instances, a.lookup cpu = some instances → instances.length = count

structure Worker.Coherent (count : Nat) (w : Worker) : Prop where
  allocated : ∀ a, w.allocatedInstances = some a → CpuAllocation count a
  lifetime : ∀ a, w.lifetimeAllocatedInstances = some a → CpuAllocation count a
  single : w.allocatedInstances = none ∨ w.lifetimeAllocatedInstances = none
  blocked : w.blocked = true → w.lifetimeAllocatedInstances = none ∧
    ∀ a, w.allocatedInstances = some a → ∀ amount ∈ cpuInstances a, throughDouble amount = amount

structure Balanced (s : State) : Prop where
  sum : ∀ i, availableAt s.resources cpu i + s.heldAt i = totalAt s.resources cpu i
  workers : ∀ id w, s.workers.lookup id = some w → w.Coherent (cpuCount s.resources)

lemma coherent_idle (count : Nat) : Worker.Coherent count {} :=
  ⟨nofun, nofun, .inl rfl, nofun⟩

lemma coherent_task {a : TaskResourceInstances} {blocked : Bool} (ha : CpuAllocation count a)
    (hexact : blocked = true → ∀ amount ∈ cpuInstances a, throughDouble amount = amount) :
    Worker.Coherent count { allocatedInstances := some a, blocked } := by
  refine ⟨fun b hb => ?_, nofun, .inr rfl, fun hblocked => ⟨rfl, fun b hb => ?_⟩⟩
  · cases hb
    exact ha
  · cases hb
    exact hexact hblocked

lemma cpuAt_task (a : TaskResourceInstances) (blocked : Bool) (i : Nat) :
    Worker.cpuAt { allocatedInstances := some a, blocked } i = if blocked then 0 else amountAt a cpu i := by
  rw [Worker.cpuAt, elim_some, elim_none, add_zero]

lemma Balanced.worker (h : Balanced s) (id : WorkerID) : (s.worker id).Coherent (cpuCount s.resources) := by
  unfold State.worker
  cases hw : s.workers.lookup id with
  | none => exact coherent_idle _
  | some w => exact h.workers id w hw

lemma Worker.Coherent.cpuAt_nonneg (h : w.Coherent count) (i : Nat) : 0 ≤ w.cpuAt i := by
  have hpart : ∀ o : Option TaskResourceInstances, (∀ a, o = some a → CpuAllocation count a) →
      0 ≤ o.elim 0 (amountAt · cpu i) := by
    intro o ho
    cases o with
    | none => exact le_refl 0
    | some a => exact (ho a rfl).nonneg i
  unfold Worker.cpuAt
  split
  · exact le_refl 0
  · exact add_nonneg (hpart _ h.allocated) (hpart _ h.lifetime)

lemma heldAt_eq (s : State) (id : WorkerID) (i : Nat) :
    s.heldAt i = (s.worker id).cpuAt i + total (fun _ w => w.cpuAt i) (s.workers.erase id) := by
  unfold State.worker
  cases hw : s.workers.lookup id with
  | none =>
    rw [total_erase_of_lookup_none hw]
    exact (zero_add _).symm
  | some => exact total_of_lookup hw

variable (h : Balanced s)
include h

lemma Balanced.rest_nonneg (id : WorkerID) (i : Nat) : 0 ≤ total (fun _ w => w.cpuAt i) (s.workers.erase id) := by
  apply sum_nonneg
  intro amount hmem
  obtain ⟨e, he, rfl⟩ := mem_map.mp hmem
  have hlookup := mem_entries_iff.mp he
  obtain ⟨-, hlookup⟩ := lookup_of_erase hlookup
  exact (h.workers e.1 e.2 hlookup).cpuAt_nonneg i

lemma Balanced.exchange
    (hcount : cpuCount l = cpuCount s.resources) (htotal : totalAt l cpu = totalAt s.resources cpu)
    (hw : w.Coherent (cpuCount s.resources))
    (hsum : ∀ i, availableAt l cpu i + w.cpuAt i = availableAt s.resources cpu i + (s.worker id).cpuAt i) :
    Balanced { resources := l, workers := s.workers.insert id w } := by
  refine ⟨fun i => ?_, fun x v hv => ?_⟩
  · have hbefore := h.sum i
    have hstep := hsum i
    rw [heldAt_eq s id] at hbefore
    rw [State.heldAt, total_insert, htotal]
    dsimp only
    omega
  · rw [lookup_insert] at hv
    rw [hcount]
    by_cases hx : x = id
    · rw [if_pos hx] at hv
      cases hv
      exact hw
    · rw [if_neg hx] at hv
      exact h.workers x v hv

lemma Balanced.held_le (id : WorkerID) (i : Nat) :
    availableAt s.resources cpu i + (s.worker id).cpuAt i ≤ totalAt s.resources cpu i := by
  have hsum := h.sum i
  have hrest := h.rest_nonneg id i
  rw [heldAt_eq s id] at hsum
  omega

lemma Balanced.available_le (i : Nat) : availableAt s.resources cpu i ≤ totalAt s.resources cpu i := by
  have hle := h.held_le 0 i
  have hown := (h.worker 0).cpuAt_nonneg i
  omega

lemma Balanced.resources (hl : l.lookup cpu = s.resources.lookup cpu) : Balanced { s with resources := l } := by
  refine ⟨fun i => ?_, fun id w hw => ?_⟩
  · have hsum := h.sum i
    rw [availableAt, totalAt] at hsum ⊢
    rw [hl]
    exact hsum
  · have hworker := h.workers id w hw
    rw [cpuCount] at hworker ⊢
    rw [hl]
    exact hworker

end

section

variable {s : State} {id : WorkerID} {a : TaskResourceInstances} {l : NodeResourceInstances} {instances : List ℤ} {c : ResourceInstanceCapacities}

lemma cpuCount_of_drawn {l' : NodeResourceInstances} (h : Drawn (l.lookup cpu) (l'.lookup cpu) (a.lookup cpu)) :
    cpuCount l' = cpuCount l ∧ ∀ instances, a.lookup cpu = some instances → instances.length = cpuCount l := by
  unfold cpuCount
  generalize l.lookup cpu = before at h ⊢
  generalize l'.lookup cpu = after at h ⊢
  generalize a.lookup cpu = taken at h ⊢
  cases h with
  | kept => exact ⟨rfl, nofun⟩
  | taken hsplit hafter htaken =>
    refine ⟨hafter, fun instances h => ?_⟩
    cases h
    exact htaken

lemma balanced_dispatch (h : Balanced s) {actorCreation : Bool} {request : ResourceRequest}
    (hallocated : (s.worker id).allocatedInstances = none) (hlifetime : (s.worker id).lifetimeAllocatedInstances = none)
    (hblocked : (s.worker id).blocked = false) :
    Completes s (dispatch id actorCreation request) fun _ => Balanced := by
  refine .seen ?_
  obtain ⟨a, l, heq, hdraws, -⟩ | ⟨l, heq, -⟩ := allocateTaskResourceInstances_spec request s.resources
  · rw [heq]
    refine .seq (.set (Q := fun _ t => t = { s with resources := l }) fun _ _ => rfl) (.update ?_)
    rintro t rfl
    obtain ⟨hcount, hlength⟩ := cpuCount_of_drawn (drawn_allocate heq cpu)
    have ha : CpuAllocation (cpuCount s.resources) a := ⟨fun i => hdraws.taken cpu i, hlength⟩
    have hidle : s.worker id = {} := by
      generalize s.worker id = w at hallocated hlifetime hblocked
      cases w
      cases hallocated
      cases hlifetime
      cases hblocked
      rfl
    refine h.exchange hcount (congrFun hdraws.total cpu) ?_ fun i => ?_
    · rw [hidle]
      cases actorCreation with
      | false => exact coherent_task ha nofun
      | true =>
        refine ⟨nofun, fun b hb => ?_, .inl rfl, nofun⟩
        cases hb
        exact ha
    · have hnone : Worker.cpuAt {} i = 0 := rfl
      rw [hidle, hnone, add_zero, ← hdraws.available cpu i]
      cases actorCreation with
      | false => exact congrArg _ (add_zero _)
      | true => exact congrArg _ (zero_add _)
  · rw [heq]
    refine .set fun _ _ => h.resources ?_
    exact lookup_allocate_failed heq fun _ => h.available_le

lemma length_addAvailable
    (h : instances.length = c.available.length) : (c.addAvailable instances).available.length = c.available.length := by
  simp [ResourceInstanceCapacities.addAvailable, h]

lemma cpuCount_free (h : ∀ instances, a.lookup cpu = some instances → instances.length = cpuCount l) :
    cpuCount (freeTaskResourceInstances l a) = cpuCount l := by
  unfold cpuCount at h ⊢
  rw [lookup_freeTaskResourceInstances]
  cases ha : a.lookup cpu with
  | none => rfl
  | some instances =>
    have hlength := h instances ha
    cases hc : l.lookup cpu with
    | none => rfl
    | some =>
      rw [hc] at hlength
      exact length_addAvailable hlength

/-- The allocation of a worker is given back, without the CPUs of a blocked one. -/
structure Released (s : State) (amount : Nat → ℤ) (t : State) : Prop where
  workers : t.workers = s.workers
  count : cpuCount t.resources = cpuCount s.resources
  total : totalAt t.resources cpu = totalAt s.resources cpu
  available : ∀ i, availableAt t.resources cpu i = availableAt s.resources cpu i + amount i

lemma released_of_lookup (hl : l.lookup cpu = s.resources.lookup cpu) :
    Released s (fun _ => 0) { s with resources := l } := by
  refine ⟨rfl, ?_, ?_, fun i => ?_⟩
  · rw [cpuCount, hl, cpuCount]
  · funext i
    rw [totalAt, hl, totalAt]
  · rw [availableAt, hl, availableAt, add_zero]

lemma released_releaseAllocation {blocked : Bool} (ha : CpuAllocation (cpuCount s.resources) a)
    (hle : blocked = false → ∀ i, availableAt s.resources cpu i + amountAt a cpu i ≤ totalAt s.resources cpu i) :
    Completes s (releaseAllocation blocked a) fun _ => Released s fun i => if blocked then 0 else amountAt a cpu i := by
  cases blocked with
  | true =>
    refine .onlyIf (fun _ => .updated ?_) ?_
    · refine released_of_lookup ((lookup_freeTaskResourceInstances _ _ cpu).trans ?_)
      rw [if_pos rfl, clearCPUInstances, AList.lookup_erase]
      rfl
    · rintro - t rfl
      exact released_of_lookup rfl
  | false =>
    refine .onlyIf (fun _ => .updated ?_) ?_
    · exact ⟨rfl, cpuCount_free ha.length, congrFun (totalAt_free _ _) cpu,
        fun i => availableAt_free (hle rfl i) (ha.nonneg i)⟩
    · rintro hempty t rfl
      refine ⟨rfl, rfl, rfl, fun i => ?_⟩
      rw [if_neg Bool.false_ne_true, amountAt_of_isEmpty (Bool.not_eq_false _ ▸ hempty), add_zero]

lemma balanced_releaseOnly (h : Balanced s) (ha : CpuAllocation (cpuCount s.resources) a)
    (hcpu : ∀ i, (s.worker id).cpuAt i = if (s.worker id).blocked then 0 else amountAt a cpu i) :
    Completes s (do
        releaseAllocation (s.worker id).blocked a
        setWorker id { blocked := (s.worker id).blocked })
      fun _ => Balanced := by
  refine .seq (released_releaseAllocation ha fun hblocked i => ?_) (.update fun t ht => ?_)
  · have hle := h.held_le id i
    rwa [hcpu, if_neg (hblocked ▸ Bool.false_ne_true)] at hle
  · rw [ht.workers]
    refine h.exchange ht.count ht.total ?_ fun i => ?_
    · exact ⟨nofun, nofun, .inl rfl, fun _ => ⟨rfl, nofun⟩⟩
    · have hnone : Worker.cpuAt { blocked := (s.worker id).blocked } i = 0 := ite_self 0
      rw [ht.available, hcpu, hnone, add_zero]

lemma balanced_releaseWorkerResources (h : Balanced s) : Completes s (releaseWorkerResources id) fun _ => Balanced := by
  refine .seen ?_
  have hw := h.worker id
  dsimp only
  -- a worker has at most one of the two allocations
  cases hallocated : (s.worker id).allocatedInstances with
  | some a =>
    have hlifetime := hw.single.resolve_left fun hnone => (nomatch hallocated.symm.trans hnone)
    rw [hlifetime]
    refine balanced_releaseOnly h (hw.allocated a hallocated) fun i => ?_
    rw [Worker.cpuAt, hallocated, hlifetime, elim_some, elim_none, add_zero]
  | none =>
    cases hlifetime : (s.worker id).lifetimeAllocatedInstances with
    | none => exact .done h
    | some a =>
      refine balanced_releaseOnly h (hw.lifetime a hlifetime) fun i => ?_
      rw [Worker.cpuAt, hallocated, hlifetime, elim_some, elim_none, zero_add]

lemma map_throughDouble (h : ∀ amount ∈ instances, throughDouble amount = amount) :
    instances.map throughDouble = instances :=
  (map_congr_left h).trans (map_id instances)

lemma getD_cpuInstances (a : TaskResourceInstances) (i : Nat) : (cpuInstances a).getD i 0 = amountAt a cpu i := by
  unfold cpuInstances amountAt
  cases a.lookup cpu <;> rfl

lemma availableAt_eq (l : NodeResourceInstances) (i : Nat) :
    availableAt l cpu i = ((l.lookup cpu).getD {}).available.getD i 0 := by
  unfold availableAt
  cases l.lookup cpu <;> rfl

lemma totalAt_eq (l : NodeResourceInstances) (i : Nat) : totalAt l cpu i = ((l.lookup cpu).getD {}).total.getD i 0 := by
  unfold totalAt
  cases l.lookup cpu <;> rfl

lemma CpuAllocation.length_cpuInstances {count : Nat} (h : CpuAllocation count a)
    (hne : cpuInstances a ≠ []) : (cpuInstances a).length = count := by
  unfold cpuInstances at hne ⊢
  cases ha : a.lookup cpu with
  | none =>
    rw [ha] at hne
    exact absurd rfl hne
  | some => exact h.length _ ha

lemma overflow_eq_zero
    (h : ∀ i, c.available.getD i 0 + instances.getD i 0 ≤ c.total.getD i 0) : ∀ amount ∈ overflow c instances, amount = 0 := by
  intro amount hmem
  obtain ⟨i, -, rfl⟩ := mem_map.mp hmem
  have hi := h i
  exact max_eq_left (by omega)

lemma cpuCount_freeInstances (h : instances.length = cpuCount l) :
    cpuCount (freeInstances l ⟨cpu, instances⟩) = cpuCount l := by
  unfold cpuCount at h ⊢
  rw [show (freeInstances l ⟨cpu, instances⟩).lookup cpu = _ from lookup_freeInstances l ⟨cpu, instances⟩]
  cases hc : l.lookup cpu with
  | none => rfl
  | some =>
    rw [hc] at h
    exact length_addAvailable h

lemma balanced_releaseCpu (h : Balanced s)
    (hexact : ∀ a ∈ (s.worker id).allocatedInstances, ∀ amount ∈ cpuInstances a, throughDouble amount = amount) :
    Completes s (releaseCpuResourcesFromUnblockedWorker id) fun _ => Balanced := by
  refine .seen ?_
  have hw := h.worker id
  have hle := h.held_le id
  dsimp only
  cases hblocked : (s.worker id).blocked with
  | true => exact .done h
  | false =>
    cases hallocated : (s.worker id).allocatedInstances with
    | none => exact .done h
    | some a =>
      refine .ite (fun _ => .done h) fun hne => ?_
      have hlifetime := hw.single.resolve_left fun hnone => (nomatch hallocated.symm.trans hnone)
      have ha := hw.allocated a hallocated
      rw [hlifetime]
      have hcpu i : (s.worker id).cpuAt i = (cpuInstances a).getD i 0 := by
        rw [Worker.cpuAt, hblocked, hallocated, hlifetime, elim_some, elim_none, add_zero, getD_cpuInstances]
        rfl
      rw [map_throughDouble (hexact a hallocated)]
      refine .bind (Q := fun left t => (∀ amount ∈ left, amount = 0) ∧
        t = { s with resources := freeInstances s.resources ⟨cpu, cpuInstances a⟩ }) ?_ fun left => .bind
          (.check (fun _ t ht => ht.2) fun hn t ht => hn ht.1) fun _ => .bind (.updated ?_) fun _ => .skip
      · refine .read ?_
        rintro s rfl
        refine .ite (fun hnil => absurd hnil hne) fun _ => .bind (.set fun _ _ => rfl) fun _ =>
            .pure fun t ht => ⟨overflow_eq_zero fun i => ?_, ht⟩
        rw [← availableAt_eq, ← totalAt_eq, ← hcpu]
        exact hle i
      · refine h.exchange (cpuCount_freeInstances (ha.length_cpuInstances hne))
          (congrFun (totalAt_freeInstances _ _) cpu) (coherent_task ha fun _ => hexact a hallocated) fun i => ?_
        have hfree := availableAt_freeInstances (e := ⟨cpu, cpuInstances a⟩)
          (by rw [← hcpu]; exact hle i) (by rw [getD_cpuInstances]; exact ha.nonneg i)
        rw [cpuAt_task, if_pos rfl, add_zero, hcpu]
        exact hfree

lemma subtractInstance_true (available amount : ℤ) : subtractInstance true available amount = available - amount := by
  unfold subtractInstance
  split
  · rfl
  · rw [if_neg fun h => (nomatch h.2)]

lemma getD_zipWith_sub {available : List ℤ} (h : instances.length = available.length) (i : Nat) :
    (available.zipWith (subtractInstance true) instances).getD i 0 = available.getD i 0 - instances.getD i 0 := by
  by_cases hi : i < available.length
  · rw [getD_eq_getElem _ _ (by simp [hi, h]), getElem_zipWith, subtractInstance_true,
      getD_eq_getElem _ _ hi, getD_eq_getElem _ _ (h ▸ hi)]
  · rw [getD_eq_default _ _ (by simp; omega), getD_eq_default _ _ (by omega), getD_eq_default _ _ (by omega)]
    rfl

lemma balanced_returnCpu (h : Balanced s) : Completes s (returnCpuResourcesToBlockedWorker id) fun _ => Balanced := by
  refine .seen ?_
  have hw := h.worker id
  dsimp only
  cases hblocked : (s.worker id).blocked with
  | false => exact .done h
  | true =>
    cases hallocated : (s.worker id).allocatedInstances with
    | none => exact .done h
    | some a =>
      refine .ite (fun _ => .done h) fun hne => ?_
      obtain ⟨hlifetime, hexact⟩ := hw.blocked hblocked
      have ha := hw.allocated a hallocated
      have hlength : (cpuInstances a).length = ((s.resources.lookup cpu).getD {}).available.length :=
        ha.length_cpuInstances hne
      let l := s.resources.insert cpu (subtractAvailable ((s.resources.lookup cpu).getD {}) (cpuInstances a) true)
      rw [map_throughDouble (hexact a hallocated), hlifetime]
      refine .bind (Q := fun _ t => t = { s with resources := l }) ?_ fun _ => .bind (.updated ?_) fun _ => .skip
      · refine .read ?_
        rintro s rfl
        refine .onlyIf (fun _ => .bind (Q := fun _ t => t = s) (.check (fun _ t ht => ht)
          fun hn => absurd hlength hn) fun _ => .set fun _ _ => rfl) fun hnil => absurd hne hnil
      · refine h.exchange ?_ ?_ (coherent_task ha nofun) fun i => ?_
        · rw [cpuCount, AList.lookup_insert, getD_some, cpuCount]
          simp [subtractAvailable, hlength]
        · funext i
          rw [totalAt_eq, AList.lookup_insert, totalAt_eq]
          rfl
        · have hbefore : (s.worker id).cpuAt i = 0 := by
            rw [Worker.cpuAt, hblocked]
            rfl
          rw [cpuAt_task, if_neg Bool.false_ne_true, ← getD_cpuInstances, hbefore, availableAt_eq, AList.lookup_insert, getD_some, availableAt_eq, subtractAvailable]
          rw [getD_zipWith_sub hlength]
          omega

end

variable {s : State}

lemma balanced_run (op : WorkerOp) (ha : op.Allowed s) (hk : op.KeepsCpus s) (h : Balanced s) :
    Completes s op.run fun _ => Balanced := by
  cases op with
  | dispatch =>
    exact balanced_dispatch h (isNone_iff_eq_none.mp ha.1) (isNone_iff_eq_none.mp ha.2) hk
  | releaseCpuResourcesFromUnblockedWorker =>
    exact .bind (balanced_releaseCpu h hk) fun _ => .pure fun _ ht => ht
  | returnCpuResourcesToBlockedWorker =>
    exact .bind (balanced_returnCpu h) fun _ => .pure fun _ ht => ht
  | releaseWorkerResources => exact balanced_releaseWorkerResources h

/-- In every state of such a run the CPUs are available or held by a worker that is not
blocked, and no check stops the next step. -/
theorem cpus_accounted {l : NodeResourceInstances} (hl : ∀ i, availableAt l cpu i = totalAt l cpu i)
    (h : Reaches WorkerOp.run (fun op s => op.Allowed s ∧ op.KeepsCpus s) { resources := l } s) :
    (∀ i, totalAt s.resources cpu i = availableAt s.resources cpu i + s.heldAt i) ∧
    (∀ i, availableAt s.resources cpu i ≤ totalAt s.resources cpu i) ∧
    ∀ op : WorkerOp, op.Allowed s → op.KeepsCpus s → ∃ t, op.run s = .ok () t := by
  have hstart : Balanced { resources := l } := ⟨fun i => (add_zero _).trans (hl i), nofun⟩
  have hbalanced : Balanced s := h.invariant hstart
    fun op s ha hs => balanced_run op ha.1 ha.2 hs
  refine ⟨fun i => (hbalanced.sum i).symm, hbalanced.available_le, fun op ha hk => ?_⟩
  obtain ⟨_, t, hrun, -⟩ := (balanced_run op ha hk hbalanced).returns rfl
  exact ⟨t, hrun⟩

instance (op : WorkerOp) (s : State) : Decidable (op.Allowed s) := by
  cases op <;> (unfold WorkerOp.Allowed; infer_instance)

instance (op : WorkerOp) (s : State) : Decidable (op.KeepsCpus s) := by
  cases op <;> (unfold WorkerOp.KeepsCpus; infer_instance)

def cpus (amount : ℤ) : NodeResourceInstances :=
  (∅ : NodeResourceInstances).insert cpu { total := [amount], available := [amount] }

def cpuRequest (amount : ℤ) : ResourceRequest := (∅ : ResourceRequest).insert cpu amount

/-- The only CPU is lent to a second worker, and the first one goes on. -/
theorem cpus_accounted_negative :
    ∃ s, Reaches WorkerOp.run (fun op s => op.Allowed s ∧ op.KeepsCpus s) { resources := cpus one } s ∧
      availableAt s.resources cpu 0 = -one ∧
      totalAt s.resources cpu 0 = availableAt s.resources cpu 0 + s.heldAt 0 := by
  refine exists_after [.dispatch 1 false (cpuRequest one), .releaseCpuResourcesFromUnblockedWorker 1,
        .dispatch 2 false (cpuRequest one), .returnCpuResourcesToBlockedWorker 1]
    (fun s => availableAt s.resources cpu 0) (-one)
    (by decide +kernel) fun _ hs havailable => ?_
  have hstart : ∀ i, availableAt (cpus one) cpu i = totalAt (cpus one) cpu i := fun _ => rfl
  exact ⟨havailable, (cpus_accounted hstart hs).1 0⟩

/-- Three units of a CPU become two on their way through a `double`. -/
theorem blocked_cpu_truncated :
    ∃ s, Reaches WorkerOp.run WorkerOp.Allowed { resources := cpus one } s ∧ totalAt s.resources cpu 0 = one ∧
      availableAt s.resources cpu 0 + s.heldAt 0 = one - 1 := by
  refine exists_after [.dispatch 1 false (cpuRequest 3), .releaseCpuResourcesFromUnblockedWorker 1]
    (fun s => (totalAt s.resources cpu 0, availableAt s.resources cpu 0 + s.heldAt 0)) (one, one - 1)
    (by decide +kernel) fun _ _ hv => ?_
  exact ⟨congrArg Prod.fst hv, congrArg Prod.snd hv⟩

end AmazonRay.LocalResources
