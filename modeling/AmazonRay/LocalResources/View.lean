import AmazonRay.LocalResources.BlockedWorkers

/-! The view that a scheduler has of its node, beside the instances from which the allocator takes. -/
namespace AmazonRay.LocalResources
open Program PlacementGroupResources List Table
open ResourceReports (ResourceCapacity PredefinedResource)

structure LocalView where
  predefined : PredefinedResource → ResourceCapacity := fun _ => {}
  custom : AList fun _ : ResourceName => ResourceCapacity := ∅

structure Scheduler where
  resources : NodeResourceInstances
  view : LocalView

abbrev SchedulerM := EStateM Check Scheduler

namespace Scheduler

def initResourceInstances (total : ℤ) (unitInstances : Bool) : ResourceInstanceCapacities :=
  let instances := if unitInstances then List.replicate (total / one).toNat one else [total]
  { total := instances, available := instances }

def predefinedName (p : PredefinedResource) : ResourceName := .original p.label

def init (totals : AList fun _ : ResourceName => ℤ) (unit : ResourceName → Bool) : Scheduler where
  resources := totals.entries.foldl
    (fun l e => if 0 < e.2 then l.insert e.1 (initResourceInstances e.2 (unit e.1)) else l) ∅
  view := {
    predefined := fun p =>
      let total := (totals.lookup (predefinedName p)).getD 0
      { total, available := total }
    custom := totals.entries.foldl
      (fun t e => if e.1.isPredefined then t else t.insert e.1 { total := e.2, available := e.2 }) ∅ }

def capacityOf (c : ResourceInstanceCapacities) : ResourceCapacity :=
  { total := c.total.sum, available := c.available.sum }

def updateCustom (t : AList fun _ : ResourceName => ResourceCapacity)
    (e : Σ _ : ResourceName, ResourceInstanceCapacities) : AList fun _ : ResourceName => ResourceCapacity :=
  if e.1.isPredefined then t else t.insert e.1 (capacityOf e.2)

def updateView (s : Scheduler) : Scheduler :=
  { s with view := {
      predefined := fun p => capacityOf ((s.resources.lookup (predefinedName p)).getD {})
      custom := s.resources.entries.foldl updateCustom s.view.custom } }

def allocateLocalTaskResources (request : ResourceRequest) : SchedulerM Bool := do
  let s ← get
  match allocateTaskResourceInstances request s.resources with
  | (none, resources) => do
    set { s with resources }
    pure false
  | (some _, resources) => do
    set (updateView { s with resources })
    pure true

def releaseWorkerResources (allocation : TaskResourceInstances) : SchedulerM Unit :=
  onlyIf (isEmptyAllocation allocation = false)
    (modify fun s => updateView { s with resources := freeTaskResourceInstances s.resources allocation })

def addCPUResourceInstances (instances : List ℤ) : SchedulerM Unit :=
  onlyIf (instances ≠ [])
    (modify fun s => updateView { s with resources := freeInstances s.resources ⟨cpu, instances⟩ })

/-- The CPUs may go below zero. -/
def subtractCPUResourceInstances (instances : List ℤ) : SchedulerM Unit := do
  let s ← get
  let c := (s.resources.lookup cpu).getD {}
  onlyIf (instances ≠ []) do
    check .instanceCountMismatch (instances.length = c.available.length)
    set (updateView { s with resources := s.resources.insert cpu (subtractAvailable c instances true) })

def demand (request : ResourceRequest) (p : PredefinedResource) : ℤ := (request.lookup (predefinedName p)).getD 0

/-- `IsSchedulable` for the local node, whose pull manager does not count. -/
def isSchedulable (request : ResourceRequest) (view : LocalView) : Bool :=
  (PredefinedResource.all.all fun p => demand request p ≤ (view.predefined p).available) &&
    request.entries.all fun e => e.1.isPredefined || (view.custom.lookup e.1).any (e.2 ≤ ·.available)

end Scheduler

inductive SchedulerOp where
  | allocateLocalTaskResources (request : ResourceRequest)
  | releaseWorkerResources (allocation : TaskResourceInstances)
  | addCPUResourceInstances (instances : List ℤ)
  | subtractCPUResourceInstances (instances : List ℤ)

def SchedulerOp.run : SchedulerOp → SchedulerM Unit
  | .allocateLocalTaskResources request => discard (Scheduler.allocateLocalTaskResources request)
  | .releaseWorkerResources allocation => Scheduler.releaseWorkerResources allocation
  | .addCPUResourceInstances instances => Scheduler.addCPUResourceInstances instances
  | .subtractCPUResourceInstances instances => Scheduler.subtractCPUResourceInstances instances

def OneAmount (instances : List ℤ) : Prop := instances.length ≤ 1 ∧ ∀ amount ∈ instances, 0 ≤ amount

/-- What is given back or taken is what a task was allocated, or less. -/
def SchedulerOp.Allowed : SchedulerOp → Scheduler → Prop
  | .releaseWorkerResources allocation, _ => ∀ e ∈ allocation.entries, OneAmount e.2
  | .addCPUResourceInstances instances, _ => OneAmount instances
  | .subtractCPUResourceInstances instances, _ => OneAmount instances
  | .allocateLocalTaskResources _, _ => True

section

variable {l : NodeResourceInstances} {a : TaskResourceInstances}

def Met (l : NodeResourceInstances) (e : Σ _ : ResourceName, ℤ) : Prop :=
  match l.lookup e.1 with
  | none => e.1.isPredefined = true ∧ e.2 ≤ 0
  | some c => 0 < e.2 → e.2 ≤ c.available.sum

def Single (l : NodeResourceInstances) : Prop :=
  ∀ x c, l.lookup x = some c → ∃ total available, c = { total := [total], available := [available] }

variable {instances : List ℤ}

lemma Met.congr {l' : NodeResourceInstances} {e : Σ _ : ResourceName, ℤ} (h : l'.lookup e.1 = l.lookup e.1) :
    Met l' e ↔ Met l e := by
  unfold Met
  rw [h]

lemma allocateEach_success (hl : Single l) (request : List (Σ _ : ResourceName, ℤ)) (hkeys : request.NodupKeys) :
    (allocateEach request l a).1 = true ↔ ∀ e ∈ request, Met l e := by
  induction request generalizing l a with
  | nil => exact ⟨(by simp), fun _ => rfl⟩
  | cons e request ih =>
    obtain ⟨x, amount⟩ := e
    obtain ⟨hx, hkeys⟩ := nodupKeys_cons.mp hkeys
    rw [forall_mem_cons]
    unfold allocateEach
    cases hc : l.lookup x with
    | none =>
      have hmet : Met l ⟨x, amount⟩ ↔ x.isPredefined = true ∧ amount ≤ 0 := by
        unfold Met
        rw [hc]
      rw [hmet]
      by_cases hskip : x.isPredefined = true ∧ amount ≤ 0
      · rw [if_pos hskip, ih hl hkeys]
        exact (and_iff_right hskip).symm
      · rw [if_neg hskip]
        exact ⟨(by simp), fun hf => absurd hf.1 hskip⟩
    | some c =>
      obtain ⟨total, available, rfl⟩ := hl x c hc
      have hmet : Met l ⟨x, amount⟩ ↔ (0 < amount → amount ≤ available) := by
        unfold Met
        rw [hc]
        simp
      dsimp only
      rw [hmet]
      by_cases hpos : 0 < amount
      · rw [if_pos hpos, allocateResourceInstances]
        by_cases hle : amount ≤ available
        · rw [if_pos hle]
          rw [if_pos rfl, ih ?_ hkeys]
          · refine Iff.trans (forall₂_congr fun e he => Met.congr ?_) (and_iff_right fun _ => hle).symm
            rw [lookup_insert, if_neg (ne_of_mem_of_not_mem (mem_keys_of_mem he) hx)]
          · intro y c hy
            rcases lookup_of_insert hy with ⟨-, rfl⟩ | ⟨-, hy⟩
            · exact ⟨total, available - amount, rfl⟩
            · exact hl y c hy
        · rw [if_neg hle]
          exact ⟨(by simp), fun hf => absurd (hf.1 hpos) hle⟩
      · rw [if_neg hpos, ih hl hkeys]
        exact (and_iff_right fun h => absurd h hpos).symm

def Fits (l : NodeResourceInstances) (request : ResourceRequest) : Prop := ∀ e ∈ request.entries, Met l e

lemma allocate_isSome_iff (hl : Single l) (request : ResourceRequest) :
    (allocateTaskResourceInstances request l).1.isSome ↔ Fits l request := by
  rw [Fits, ← allocateEach_success hl request.entries request.nodupKeys]
  unfold allocateTaskResourceInstances
  generalize allocateEach request.entries l ∅ = r
  obtain ⟨success, l', a⟩ := r
  cases success with
  | true => exact ⟨fun _ => rfl, fun _ => rfl⟩
  | false => exact ⟨nofun, nofun⟩

end

section

variable {s : Scheduler} {l : NodeResourceInstances} {x : ResourceName} {c : ResourceInstanceCapacities}

/-- One instance with no more than its total. Only the CPU may be below zero. -/
def Sound (x : ResourceName) (c : ResourceInstanceCapacities) : Prop :=
  ∃ total available, c = { total := [total], available := [available] } ∧ available ≤ total ∧ (x ≠ cpu → 0 ≤ available)

def AllSound (l : NodeResourceInstances) : Prop := ∀ x c, l.lookup x = some c → Sound x c

lemma AllSound.single (h : AllSound l) : Single l := by
  intro x c hc
  obtain ⟨total, available, heq, -⟩ := h x c hc
  exact ⟨total, available, heq⟩

lemma AllSound.insert (h : AllSound l) (hc : Sound x c) : AllSound (l.insert x c) := by
  intro y d hd
  rcases lookup_of_insert hd with ⟨hy, rfl⟩ | ⟨-, hd⟩
  · exact hy ▸ hc
  · exact h y d hd

lemma Sound.addAvailable (h : Sound x c) (hone : OneAmount instances) : Sound x (c.addAvailable instances) := by
  obtain ⟨total, available, rfl, hle, hpos⟩ := h
  obtain ⟨hlength, hnonneg⟩ := hone
  match instances with
  | [] => exact ⟨total, available, rfl, hle, hpos⟩
  | [amount] =>
    have hamount := hnonneg amount mem_cons_self
    refine ⟨total, min (available + amount) total, rfl, min_le_right _ _, fun hx => ?_⟩
    have havailable := hpos hx
    exact le_min (by omega) (by omega)
  | _ :: _ :: _ => exact absurd hlength (by simp)

lemma Sound.drawn {after taken : List ℤ} (h : Sound x c) (hsplit : Split c.available after taken)
    (hafter : after.length = c.available.length) : Sound x { c with available := after } := by
  obtain ⟨total, available, rfl, hle, hpos⟩ := h
  obtain ⟨rest, rfl⟩ := length_eq_one_iff.mp hafter
  have hsum := hsplit.sum 0
  have htaken := hsplit.taken 0
  have hnonneg := hsplit.after 0
  rw [getD_cons_zero] at hsum hnonneg
  rw [getD_cons_zero] at hsum hnonneg
  exact ⟨total, rest, rfl, by omega, fun hx => hnonneg (hpos hx)⟩

lemma Sound.subtractAvailable (h : Sound cpu c) (hlength : instances.length = c.available.length)
    (hnonneg : ∀ amount ∈ instances, 0 ≤ amount) : Sound cpu (subtractAvailable c instances true) := by
  obtain ⟨total, available, rfl, hle, -⟩ := h
  obtain ⟨amount, rfl⟩ := length_eq_one_iff.mp hlength
  have hamount := hnonneg amount mem_cons_self
  refine ⟨total, available - amount, ?_, by omega, fun hx => absurd rfl hx⟩
  rw [LocalResources.subtractAvailable, zipWith_cons_cons, subtractInstance_true]
  rfl

/-- The view has the instances' sums. -/
structure Synced (s : Scheduler) : Prop where
  sound : AllSound s.resources
  predefined : ∀ p, (s.view.predefined p).available =
    ((s.resources.lookup (Scheduler.predefinedName p)).getD {}).available.sum
  custom : ∀ x, x.isPredefined = false → (s.view.custom.lookup x).map ResourceCapacity.available =
    (s.resources.lookup x).map fun c => c.available.sum

lemma Synced.congr (h : Synced s) (hl : ∀ x, l.lookup x = s.resources.lookup x) : Synced { s with resources := l } := by
  refine ⟨fun x c hc => h.sound x c (hl x ▸ hc), fun p => ?_, fun x hx => ?_⟩
  · dsimp only
    rw [hl]
    exact h.predefined p
  · dsimp only
    rw [hl]
    exact h.custom x hx

lemma Synced.updateView (h : Synced s) (hl : AllSound l) (hkeys : ∀ x, l.lookup x = none → s.resources.lookup x = none) :
    Synced (Scheduler.updateView { s with resources := l }) := by
  refine ⟨hl, fun p => rfl, fun x hx => ?_⟩
  have hlookup : (l.entries.foldl Scheduler.updateCustom s.view.custom).lookup x =
      (l.lookup x).elim (s.view.custom.lookup x) fun c => some (Scheduler.capacityOf c) := by
    refine (lookup_foldl (g := fun k (c : ResourceInstanceCapacities) o =>
      if k.isPredefined then o else some (Scheduler.capacityOf c)) (fun t e k hk => ?_) (fun t e => ?_) l.entries l.nodupKeys
        s.view.custom x).trans ?_
    · unfold Scheduler.updateCustom
      split
      · rfl
      · exact AList.lookup_insert_ne hk
    · unfold Scheduler.updateCustom
      split
      · rfl
      · exact AList.lookup_insert t
    · rw [hx]
      rfl
  apply (congrArg (Option.map ResourceCapacity.available) hlookup).trans
  cases hc : l.lookup x with
  | none =>
    apply (h.custom x hx).trans
    rw [hkeys x hc]
    exact (congrArg _ hc).symm
  | some c => exact (congrArg (Option.map fun c : ResourceInstanceCapacities => c.available.sum) hc).symm

end

section

variable {s : Scheduler}

lemma AllSound.available_le {l : NodeResourceInstances} (h : AllSound l) (x : ResourceName) (i : ℕ) :
    availableAt l x i ≤ totalAt l x i := by
  unfold availableAt totalAt
  cases hc : l.lookup x with
  | none => exact Int.le_refl 0
  | some c =>
    obtain ⟨total, available, rfl, hle, -⟩ := h x c hc
    cases i with
    | zero => exact hle
    | succ => exact Int.le_refl 0

variable (h : Synced s)
include h

lemma synced_allocate (request : ResourceRequest) :
    Yields s (Scheduler.allocateLocalTaskResources request) fun _ => Synced := by
  refine .seen ?_
  cases hrun : allocateTaskResourceInstances request s.resources with
  | mk result l =>
    cases result with
    | none =>
      refine .bind (.set fun _ _ => h.congr fun x => ?_) fun _ => .skip
      exact lookup_allocate_failed hrun fun _ => h.sound.available_le x
    | some a =>
      refine .bind (.set fun _ _ => h.updateView (fun x c hc => ?_) fun x hx => ?_) fun _ => .skip
      · have hdrawn := drawn_allocate hrun x
        have hsound := h.sound x
        rw [hc] at hdrawn
        generalize s.resources.lookup x = before at hdrawn hsound
        generalize a.lookup x = taken at hdrawn
        cases hdrawn with
        | kept => exact hsound c rfl
        | taken hsplit hafter => exact (hsound _ rfl).drawn hsplit hafter
      · have hdrawn := drawn_allocate hrun x
        rw [hx] at hdrawn
        generalize s.resources.lookup x = before at hdrawn ⊢
        generalize a.lookup x = taken at hdrawn
        cases hdrawn with
        | kept => rfl

lemma synced_release {allocation : TaskResourceInstances} (hone : ∀ e ∈ allocation.entries, OneAmount e.2) :
    Yields s (Scheduler.releaseWorkerResources allocation) fun _ => Synced := by
  refine .onlyIf (fun _ => .updated ?_) fun _ t ht => ht ▸ h
  refine h.updateView (fun x c hc => ?_) fun x hx => ?_
  · rw [lookup_freeTaskResourceInstances] at hc
    cases ha : allocation.lookup x with
    | none =>
      rw [ha] at hc
      exact h.sound x c hc
    | some instances =>
      rw [ha] at hc
      obtain ⟨d, hd, rfl⟩ := Option.map_eq_some_iff.mp hc
      exact (h.sound x d hd).addAvailable (hone ⟨x, instances⟩ (mem_entries_iff.mpr ha))
  · rw [lookup_freeTaskResourceInstances] at hx
    cases ha : allocation.lookup x with
    | none =>
      rw [ha] at hx
      exact hx
    | some =>
      rw [ha] at hx
      exact Option.map_eq_none_iff.mp hx

lemma synced_addCpus (hone : OneAmount instances) :
    Yields s (Scheduler.addCPUResourceInstances instances) fun _ => Synced := by
  refine .onlyIf (fun _ => .updated ?_) fun _ t ht => ht ▸ h
  have hown := lookup_freeInstances s.resources ⟨cpu, instances⟩
  refine h.updateView (fun x c hc => ?_) fun x hx => ?_
  · by_cases hxc : x = cpu
    · subst hxc
      rw [show (freeInstances s.resources ⟨cpu, instances⟩).lookup cpu = _ from hown] at hc
      obtain ⟨d, hd, rfl⟩ := Option.map_eq_some_iff.mp hc
      exact (h.sound cpu d hd).addAvailable hone
    · rw [lookup_freeInstances_of_ne hxc] at hc
      exact h.sound x c hc
  · by_cases hxc : x = cpu
    · subst hxc
      rw [show (freeInstances s.resources ⟨cpu, instances⟩).lookup cpu = _ from hown] at hx
      exact Option.map_eq_none_iff.mp hx
    · rwa [lookup_freeInstances_of_ne hxc] at hx

lemma synced_subtractCpus (hone : OneAmount instances) :
    Yields s (Scheduler.subtractCPUResourceInstances instances) fun _ => Synced := by
  refine .seen ?_
  refine .onlyIf (fun hne => .seq (.checked fun _ _ _ => trivial) (.set fun t ht => ?_)) fun _ t ht => ht ▸ h
  cases hc : s.resources.lookup cpu with
  | none =>
    rw [hc] at ht
    exact absurd (eq_nil_of_length_eq_zero ht.2) hne
  | some c =>
    rw [hc] at ht
    refine h.updateView (h.sound.insert ((h.sound cpu c hc).subtractAvailable ht.2 hone.2)) fun x hx => ?_
    rw [lookup_insert] at hx
    by_cases hxc : x = cpu
    · rw [if_pos hxc] at hx
      cases hx
    · rwa [if_neg hxc] at hx

end

section

variable {s : Scheduler} {request : ResourceRequest} {p : PredefinedResource} {x : ResourceName} {amount : ℤ}

lemma isPredefined_iff : x.isPredefined = true ↔ ∃ p, x = Scheduler.predefinedName p := by
  constructor
  · intro h
    cases x with
    | original name =>
      have hmem : name ∈ predefinedLabels := of_decide_eq_true h
      simp only [predefinedLabels, mem_cons, not_mem_nil, or_false] at hmem
      rcases hmem with rfl | rfl | rfl | rfl
      · exact ⟨.cpu, rfl⟩
      · exact ⟨.mem, rfl⟩
      · exact ⟨.gpu, rfl⟩
      · exact ⟨.objectStoreMem, rfl⟩
    | wildcard => cases h
    | indexed => cases h
  · rintro ⟨p, rfl⟩
    cases p <;> decide

variable (h : Synced s)
include h

lemma Synced.available_nonneg (hp : p ≠ .cpu) : 0 ≤ (s.view.predefined p).available := by
  rw [h.predefined]
  cases hc : s.resources.lookup (Scheduler.predefinedName p) with
  | none => exact Int.le_refl 0
  | some c =>
    obtain ⟨total, available, rfl, -, hpos⟩ := h.sound _ c hc
    have hne : Scheduler.predefinedName p ≠ cpu := by
      cases p with
      | cpu => exact absurd rfl hp
      | mem => decide
      | gpu => decide
      | objectStoreMem => decide
    simpa using hpos hne

lemma met_predefined :
    Met s.resources ⟨Scheduler.predefinedName p, amount⟩ ↔ (0 < amount → amount ≤ (s.view.predefined p).available) := by
  unfold Met
  rw [h.predefined]
  cases s.resources.lookup (Scheduler.predefinedName p) with
  | none =>
    refine ⟨fun hmet hpos => absurd hmet.2 (not_le.mpr hpos), fun hmet => ⟨isPredefined_iff.mpr ⟨p, rfl⟩, ?_⟩⟩
    by_contra hpos
    exact hpos (hmet (not_le.mp hpos))
  | some => exact Iff.rfl

lemma met_custom (hx : x.isPredefined = false) (hamount : 0 ≤ amount) :
    Met s.resources ⟨x, amount⟩ ↔ (s.view.custom.lookup x).any (amount ≤ ·.available) = true := by
  have hview := h.custom x hx
  unfold Met
  cases hc : s.resources.lookup x with
  | none =>
    rw [hc] at hview
    rw [Option.map_eq_none_iff.mp hview]
    rw [hx]
    exact ⟨fun hf => (nomatch hf.1), nofun⟩
  | some c =>
    rw [hc] at hview
    obtain ⟨capacity, hcapacity, hsum⟩ := Option.map_eq_some_iff.mp hview
    obtain ⟨total, available, rfl, -, hpos⟩ := h.sound x c hc
    have hne : x ≠ cpu := by
      rintro rfl
      cases hx
    have hnonneg := hpos hne
    rw [hcapacity, Option.any_some, decide_eq_true_eq, hsum]
    simp only [sum_cons, sum_nil, Int.add_zero]
    omega

lemma isSchedulable_iff (hrequest : ∀ e ∈ request.entries, 0 ≤ e.2) :
    Scheduler.isSchedulable request s.view = true ↔ Fits s.resources request ∧
      (0 ≤ (s.view.predefined .cpu).available ∨ 0 < Scheduler.demand request .cpu) := by
  have hdemand p : 0 ≤ Scheduler.demand request p := by
    unfold Scheduler.demand
    cases hp : request.lookup (Scheduler.predefinedName p) with
    | none => exact Int.le_refl 0
    | some => exact hrequest ⟨_, _⟩ (mem_entries_iff.mpr hp)
  have hmember : ∀ e ∈ request.entries, ∀ p, e.1 = Scheduler.predefinedName p → e.2 = Scheduler.demand request p := by
    intro e he p hp
    rw [Scheduler.demand, ← hp, mem_entries_iff.mp he]
    rfl
  rw [Scheduler.isSchedulable, Bool.and_eq_true, all_eq_true, all_eq_true]
  constructor
  · rintro ⟨hpredefined, hcustom⟩
    have hle : ∀ p, Scheduler.demand request p ≤ (s.view.predefined p).available :=
      fun p => of_decide_eq_true (hpredefined p (by cases p <;> decide))
    refine ⟨fun e he => ?_, ?_⟩
    · by_cases hx : e.1.isPredefined = true
      · obtain ⟨p, hp⟩ := isPredefined_iff.mp hx
        obtain ⟨x, amount⟩ := e
        cases hp
        refine (met_predefined h).mpr fun _ => ?_
        rw [show amount = _ from hmember _ he p rfl]
        exact hle p
      · apply (met_custom h (Bool.not_eq_true _ ▸ hx) (hrequest e he)).mpr
        exact ((Bool.or_eq_true _ _).mp (hcustom e he)).resolve_left hx
    · have hcpu := hle .cpu
      have hpos := hdemand .cpu
      omega
  · rintro ⟨hfits, hcpu⟩
    refine ⟨fun p _ => decide_eq_true ?_, fun e he => (Bool.or_eq_true _ _).mpr ?_⟩
    · by_cases hpos : 0 < Scheduler.demand request p
      · have hlookup : request.lookup (Scheduler.predefinedName p) = some (Scheduler.demand request p) := by
          unfold Scheduler.demand at hpos ⊢
          cases hp : request.lookup (Scheduler.predefinedName p) with
          | none =>
            rw [hp] at hpos
            exact absurd hpos (Int.lt_irrefl 0)
          | some => rfl
        exact (met_predefined h).mp (hfits _ (mem_entries_iff.mpr hlookup)) hpos
      · by_cases hp : p = .cpu
        · subst hp
          have havailable := hcpu.resolve_right hpos
          omega
        · have havailable := h.available_nonneg hp
          omega
    · by_cases hx : e.1.isPredefined = true
      · exact .inl hx
      · exact .inr ((met_custom h (Bool.not_eq_true _ ▸ hx) (hrequest e he)).mp (hfits e he))

end

section

variable {totals : AList fun _ : ResourceName => ℤ} {unit : ResourceName → Bool} {s : Scheduler}

def SingleInstance (totals : AList fun _ : ResourceName => ℤ) (unit : ResourceName → Bool) : Prop :=
  ∀ e ∈ totals.entries, 0 ≤ e.2 ∧ (e.2 = 0 → e.1.isPredefined = true) ∧
    (0 < e.2 → (Scheduler.initResourceInstances e.2 (unit e.1)).total.length = 1)

def WholeUnits (totals : AList fun _ : ResourceName => ℤ) (unit : ResourceName → Bool) : Prop :=
  ∀ e ∈ totals.entries, unit e.1 = true → one ∣ e.2

lemma initResourceInstances_eq {total : ℤ} {split : Bool}
    (hlength : (Scheduler.initResourceInstances total split).total.length = 1) (hwhole : split = true → one ∣ total) :
    Scheduler.initResourceInstances total split = { total := [total], available := [total] } := by
  cases split with
  | false => rfl
  | true =>
    have hcount : (total / one).toNat = 1 := by
      simpa [Scheduler.initResourceInstances] using hlength
    obtain ⟨k, rfl⟩ := hwhole rfl
    have hk : one * k = one := by
      rw [Int.mul_ediv_cancel_left _ (by decide)] at hcount
      rw [show k = 1 by omega, Int.mul_one]
    rw [hk]
    rfl

lemma synced_init (hsingle : SingleInstance totals unit) (hwhole : WholeUnits totals unit) :
    Synced (Scheduler.init totals unit) := by
  have hresources x : (Scheduler.init totals unit).resources.lookup x = (totals.lookup x).elim none fun total =>
      if 0 < total then some (Scheduler.initResourceInstances total (unit x)) else none := by
    refine lookup_foldl (g := fun k total o => if 0 < total then
      some (Scheduler.initResourceInstances total (unit k)) else o) (fun t e k hk => ?_) (fun t e => ?_) totals.entries
        totals.nodupKeys ∅ x
    · split
      · exact AList.lookup_insert_ne hk
      · rfl
    · split
      · exact AList.lookup_insert t
      · rfl
  have hcustom : ∀ x, x.isPredefined = false → (Scheduler.init totals unit).view.custom.lookup x =
      (totals.lookup x).elim none fun total => some { total, available := total } := by
    intro x hx
    refine (lookup_foldl (g := fun k total o => if k.isPredefined then o else
      some ({ total, available := total } : ResourceCapacity)) (fun t e k hk => ?_) (fun t e => ?_) totals.entries
        totals.nodupKeys ∅ x).trans ?_
    · split
      · rfl
      · exact AList.lookup_insert_ne hk
    · split
      · rfl
      · exact AList.lookup_insert t
    · rw [hx]
      rfl
  have hone : ∀ x total, totals.lookup x = some total → 0 < total →
      (Scheduler.init totals unit).resources.lookup x = some { total := [total], available := [total] } := by
    intro x total hx hpos
    have hmem := mem_entries_iff.mpr hx
    rw [hresources, hx, Option.elim_some, if_pos hpos]
    exact congrArg some (initResourceInstances_eq ((hsingle _ hmem).2.2 hpos) (hwhole _ hmem))
  refine ⟨fun x c hc => ?_, fun p => ?_, fun x hx => ?_⟩
  · cases hx : totals.lookup x with
    | none =>
      rw [hresources, hx] at hc
      cases hc
    | some total =>
      by_cases hpos : 0 < total
      · rw [hone x total hx hpos] at hc
        cases hc
        exact ⟨total, total, rfl, le_refl total, fun _ => hpos.le⟩
      · rw [hresources, hx, Option.elim_some, if_neg hpos] at hc
        cases hc
  · have hview : ((Scheduler.init totals unit).view.predefined p).available =
        (totals.lookup (Scheduler.predefinedName p)).getD 0 := rfl
    rw [hview]
    cases hx : totals.lookup (Scheduler.predefinedName p) with
    | none =>
      rw [hresources, hx]
      rfl
    | some total =>
      by_cases hpos : 0 < total
      · rw [hone _ total hx hpos]
        simp
      · have hzero : total = 0 := by
          have hnonneg := (hsingle _ (mem_entries_iff.mpr hx)).1
          dsimp only at hnonneg
          omega
        rw [hresources, hx, Option.elim_some, if_neg hpos, hzero]
        rfl
  · rw [hcustom x hx]
    cases hlookup : totals.lookup x with
    | none =>
      rw [hresources, hlookup]
      rfl
    | some total =>
      have hentry := hsingle _ (mem_entries_iff.mpr hlookup)
      have hpos : 0 < total := by
        refine lt_of_le_of_ne hentry.1 fun hzero => ?_
        rw [hentry.2.1 hzero.symm] at hx
        cases hx
      rw [hone x total hlookup hpos]
      simp

lemma synced_run (op : SchedulerOp) (ha : op.Allowed s) (h : Synced s) : Yields s op.run fun _ => Synced := by
  cases op with
  | allocateLocalTaskResources request =>
    exact .bind (synced_allocate h request) fun _ => .pure fun _ ht => ht
  | releaseWorkerResources => exact synced_release h ha
  | addCPUResourceInstances => exact synced_addCpus h ha
  | subtractCPUResourceInstances => exact synced_subtractCpus h ha

/-- The policy and the allocator agree on a request exactly if CPUs are not below zero, or
the request demands some, or it cannot be allocated anyway. -/
theorem schedulable_iff_allocated (hsingle : SingleInstance totals unit) (hwhole : WholeUnits totals unit)
    (h : Reaches SchedulerOp.run SchedulerOp.Allowed (Scheduler.init totals unit) s) {request : ResourceRequest}
    (hrequest : ∀ e ∈ request.entries, 0 ≤ e.2) :
    (Scheduler.isSchedulable request s.view = (allocateTaskResourceInstances request s.resources).1.isSome) ↔
      0 ≤ (s.view.predefined .cpu).available ∨ 0 < Scheduler.demand request .cpu ∨ ¬Fits s.resources request := by
  have hsynced : Synced s := h.invariant (synced_init hsingle hwhole)
    fun op s ha hs => synced_run op ha hs
  rw [Bool.eq_iff_iff, isSchedulable_iff hsynced hrequest, allocate_isSome_iff hsynced.sound.single]
  tauto

instance (instances : List ℤ) : Decidable (OneAmount instances) := inferInstanceAs (Decidable (_ ∧ _))

instance (op : SchedulerOp) (s : Scheduler) : Decidable (op.Allowed s) := by
  cases op <;> (unfold SchedulerOp.Allowed; infer_instance)

instance (totals : AList fun _ : ResourceName => ℤ) (unit : ResourceName → Bool) :
    Decidable (SingleInstance totals unit) :=
  inferInstanceAs (Decidable (∀ e ∈ totals.entries, _))

instance (totals : AList fun _ : ResourceName => ℤ) (unit : ResourceName → Bool) : Decidable (WholeUnits totals unit) :=
  inferInstanceAs (Decidable (∀ e ∈ totals.entries, _))

def oneCpu : AList fun _ : ResourceName => ℤ := (∅ : AList fun _ : ResourceName => ℤ).insert cpu one

/-- The CPU of a blocked worker is taken by another one, and the first goes on. -/
def lentCpu : List SchedulerOp :=
  [.allocateLocalTaskResources (cpuRequest one), .addCPUResourceInstances [one],
    .allocateLocalTaskResources (cpuRequest one), .subtractCPUResourceInstances [one]]

/-- A task that needs nothing cannot be scheduled on a node that can run it. -/
theorem empty_request_refused :
    ∃ s, Reaches SchedulerOp.run SchedulerOp.Allowed (Scheduler.init oneCpu fun _ => false) s ∧
      Scheduler.isSchedulable ∅ s.view = false ∧ (allocateTaskResourceInstances ∅ s.resources).1.isSome = true := by
  refine exists_after lentCpu
    (fun s => (Scheduler.isSchedulable ∅ s.view, (allocateTaskResourceInstances ∅ s.resources).1.isSome)) (false, true)
    (by decide +kernel) fun _ _ hv => ?_
  exact ⟨congrArg Prod.fst hv, congrArg Prod.snd hv⟩

/-- A demand for the CPU that is below zero is refused by both. -/
theorem schedulable_iff_allocated_lent :
    ∃ s, Reaches SchedulerOp.run SchedulerOp.Allowed (Scheduler.init oneCpu fun _ => false) s ∧
      (s.view.predefined .cpu).available = -one ∧ Scheduler.isSchedulable (cpuRequest one) s.view =
        (allocateTaskResourceInstances (cpuRequest one) s.resources).1.isSome := by
  refine exists_after lentCpu (fun s => (s.view.predefined .cpu).available) (-one) (by decide +kernel) fun _ hs hv => ?_
  refine ⟨hv, (schedulable_iff_allocated (by decide) (by decide) hs (by decide)).mpr (.inr (.inl ?_))⟩
  decide

end

/-- An allocation takes exactly what is demanded from what is available, and one that is refused
leaves the resources as they were. -/
theorem allocation_exact (s : Scheduler) (request : ResourceRequest)
    (hle : ∀ x i, availableAt s.resources x i ≤ totalAt s.resources x i) (hrequest : ∀ e ∈ request.entries, 0 ≤ e.2) :
    ∃ success t, Scheduler.allocateLocalTaskResources request s = .ok success t ∧
      (success = true → ∃ a, allocateTaskResourceInstances request s.resources = (some a, t.resources) ∧
        (∀ e ∈ request.entries, ((a.lookup e.1).getD []).sum = e.2 ∧ ∀ amount ∈ (a.lookup e.1).getD [], 0 ≤ amount) ∧
        (∀ x, Drawn (s.resources.lookup x) (t.resources.lookup x) (a.lookup x)) ∧
        ∀ x ∉ request.keys, a.lookup x = none) ∧
      (success = false → ∀ x, t.resources.lookup x = s.resources.lookup x) := by
  refine Triple.returns (.seen ?_) rfl
  cases hrun : allocateTaskResourceInstances request s.resources with
  | mk allocation resources =>
  cases allocation with
  | none =>
    refine .bind (.set fun _ _ => rfl) fun _ => .done ⟨nofun, fun _ x => ?_⟩
    exact lookup_allocate_failed hrun fun _ => hle x
  | some a =>
    refine .bind (.set fun _ _ => rfl) fun _ => .done ⟨fun _ => ⟨a, rfl, fun e he => ?_, drawn_allocate hrun, fun x hx => ?_⟩,
      nofun⟩
    · have hsum := sum_allocateEach request.entries request.nodupKeys (l := s.resources) (a := ∅) (fun _ _ => rfl)
      rw [allocateEach_of_some hrun] at hsum
      exact ⟨hsum rfl he (hrequest e he), (drawn_allocate hrun e.1).nonneg⟩
    · have hnone := lookup_allocateEach (l := s.resources) (a := ∅) request.entries hx
      rwa [allocateEach_of_some hrun] at hnone

def threeGpus : Scheduler := Scheduler.init ((∅ : AList fun _ : ResourceName => ℤ).insert (.original "GPU") (3 * one))
  fun _ => true

def someGpus : ResourceRequest := (∅ : ResourceRequest).insert (.original "GPU") 25000

/-- Two and a half of three unit instances are demanded. -/
theorem allocation_exact_gpus : ∃ t, Scheduler.allocateLocalTaskResources someGpus threeGpus = .ok true t ∧ ∃ a,
    allocateTaskResourceInstances someGpus threeGpus.resources = (some a, t.resources) ∧
      a.lookup (.original "GPU") = some [one, one, 5000] ∧ ((a.lookup (.original "GPU")).getD []).sum = 25000 := by
  have hle x i : availableAt threeGpus.resources x i ≤ totalAt threeGpus.resources x i := by
    have hresources : threeGpus.resources =
        (∅ : NodeResourceInstances).insert (.original "GPU") (Scheduler.initResourceInstances (3 * one) true) := rfl
    rw [availableAt, totalAt, hresources, lookup_insert]
    split <;> rfl
  obtain ⟨success, t, hrun, hmet, -⟩ := allocation_exact threeGpus someGpus hle (by decide +kernel)
  have hvalue : returnedValue (Scheduler.allocateLocalTaskResources someGpus) threeGpus = some true := by decide +kernel
  obtain ⟨u, hu⟩ := exists_returnedValue hvalue
  cases hrun.symm.trans hu
  obtain ⟨a, ha, hsum, -⟩ := hmet rfl
  have hgpus : (allocateTaskResourceInstances someGpus threeGpus.resources).1.map (·.lookup (.original "GPU")) =
      some (some [one, one, 5000]) := by decide +kernel
  rw [ha] at hgpus
  exact ⟨t, hrun, a, ha, Option.some.inj hgpus, (hsum ⟨.original "GPU", 25000⟩ (by decide +kernel)).1⟩

end AmazonRay.LocalResources
