import AmazonRay.Gcs.ResourceTable

/-! What a node offers while its resources change, and which report on its normal tasks is kept. -/
namespace AmazonRay.Gcs
open Amounts Program List

inductive NodeOp where
  | acquire (resources : ResourceSet)
  | release (resources : ResourceSet)
  | addResource (resources : ResourceSet)
  | updateResourceCapacity (name : String) (capacity : ℕ)
  | deleteResource (name : String)

section

variable (fixed : FixedPointOfDouble) {node : SchedulingResources}

def NodeOp.apply (node : SchedulingResources) : NodeOp → SchedulingResources
  | .acquire d => { node with available := node.available.subtractResources d }
  | .release d => { node with available := node.available.addResourcesCapacityConstrained d node.total }
  | .addResource d => { node with total := node.total.addResources d, available := node.available.addResources d }
  | .updateResourceCapacity name capacity =>
    Gcs.updateResourceCapacity fixed node (single name (10000 * capacity))
  | .deleteResource name => Gcs.deleteResource node [name]

/-- The checks of `SubtractResourcesStrict` need a subset of what is available. -/
def NodeOp.Allowed (node : SchedulingResources) : NodeOp → Prop
  | .acquire d => d.isSubset node.available = true
  | .updateResourceCapacity _ capacity => 1 ≤ capacity
  | _ => True

def SchedulingResources.Covered (node : SchedulingResources) : Prop := ∀ r, node.available r ≤ node.total r

/-- An update changes what is available as it changes the total, cut off at zero. -/
def NodeOp.Exact (node : SchedulingResources) : NodeOp → Prop
  | .updateResourceCapacity name capacity =>
    let after := (NodeOp.updateResourceCapacity name capacity).apply fixed node
    after.available name = node.available name + after.total name - node.total name
  | _ => True

/-- An update leaves something available, or nothing was. -/
def NodeOp.LeavesSome (node : SchedulingResources) : NodeOp → Prop
  | .updateResourceCapacity name capacity =>
    node.available name = 0 ∨ node.total name < node.available name + 10000 * capacity
  | _ => True

def runNode (node : SchedulingResources) (ops : List NodeOp) : SchedulingResources := ops.foldl (NodeOp.apply fixed) node

variable {fixed} {name : String} {capacity : ℕ}

lemma updated (h : 1 ≤ capacity) (r : String) :
    let after := (NodeOp.updateResourceCapacity name capacity).apply fixed node
    after.total r = (if r = name then 10000 * capacity else node.total r) ∧
      after.available r = if r = name then addOrUpdate (node.available r) (if 0 < node.total r then
        node.available r + 10000 * capacity - node.total r else 10000 * capacity) else node.available r := by
  have hkeys : (single name (10000 * capacity)).support = {name} := if_neg (by omega)
  have hnew : newCapacity fixed (single name (10000 * capacity) name) = 10000 * capacity := by
    simp [single, newCapacity, fixed.whole]
  have hpos : 0 < 10000 * capacity := by omega
  simp only [NodeOp.apply, updateResourceCapacity, override_apply, hkeys, Finset.mem_singleton]
  by_cases hr : r = name
  · subst hr
    simp only [if_true, hnew, addOrUpdate, if_pos hpos, and_self]
  · simp only [if_neg hr, and_self]

lemma NodeOp.exact_iff (hnode : node.Covered) {op : NodeOp} (ha : op.Allowed node) :
    op.Exact fixed node ↔ op.LeavesSome node := by
  cases op with
  | updateResourceCapacity name =>
    have hle := hnode name
    simp only [Exact, LeavesSome, (updated ha _).1, (updated ha _).2, if_true, addOrUpdate]
    simp only [Allowed] at ha
    by_cases htotal : 0 < node.total name
    · rw [if_pos htotal]
      split <;> omega
    · rw [if_neg htotal, if_pos (by omega)]
      omega
  | acquire => exact Iff.rfl
  | release => exact Iff.rfl
  | addResource => exact Iff.rfl
  | deleteResource => exact Iff.rfl

lemma NodeOp.covered_apply (hnode : node.Covered) {op : NodeOp} (ha : op.Allowed node) (hleaves : op.LeavesSome node) :
    (op.apply fixed node).Covered := by
  intro r
  have hle := hnode r
  cases op with
  | acquire => exact (Nat.sub_le _ _).trans hle
  | release d =>
    show (if r ∈ d.support ∩ node.total.support then min (node.available r + d r) (node.total r) else node.available r) ≤ _
    split
    · exact min_le_right _ _
    · exact hle
  | addResource => exact Nat.add_le_add_right hle _
  | updateResourceCapacity name =>
    rw [(updated ha r).1, (updated ha r).2]
    by_cases hr : r = name
    · subst hr
      simp only [if_true, addOrUpdate]
      simp only [LeavesSome] at hleaves
      split <;> split <;> omega
    · rw [if_neg hr, if_neg hr]
      exact hle
  | deleteResource =>
    simp only [apply, Gcs.deleteResource, override_apply]
    split
    · exact Nat.le_refl 0
    · exact hle

def tenCpus : SchedulingResources := ⟨single "CPU" 100000, single "CPU" 100000, 0⟩

def takeTwo : NodeOp := .acquire (single "CPU" 20000)

end

def ResourceSet.isEqual (a b : ResourceSet) : Bool := a.isSubset b && b.isSubset a

lemma ResourceSet.isEqual_iff {a b : ResourceSet} : a.isEqual b = true ↔ a = b := by
  unfold isEqual
  rw [Bool.and_eq_true, isSubset_iff, isSubset_iff]
  constructor
  · intro h
    ext r
    exact Nat.le_antisymm (h.1 r) (h.2 r)
  · rintro rfl
    exact ⟨fun _ => Nat.le_refl _, fun _ => Nat.le_refl _⟩

structure NormalTaskReport where
  resources : ResourceSet
  changed : Bool := true
  timestamp : ℤ

structure NormalTasks where
  cluster : Cluster
  latest : NodeID → ℤ := fun _ => 0

/-- `UpdateNodeNormalTaskResources`. The timestamp is kept only with resources that differ. -/
def updateNodeNormalTaskResources (nodeId : NodeID) (s : NormalTasks) (report : NormalTaskReport) : NormalTasks :=
  match s.cluster.lookup nodeId with
  | none => s
  | some node =>
    if report.changed = true ∧ s.latest nodeId < report.timestamp ∧ report.resources.isEqual node.normalTasks = false then
      { cluster := s.cluster.insert nodeId { node with normalTasks := report.resources }
        latest := Function.update s.latest nodeId report.timestamp }
    else s

def receiveReports (nodeId : NodeID) (s : NormalTasks) (reports : List NormalTaskReport) : NormalTasks :=
  reports.foldl (updateNodeNormalTaskResources nodeId) s

def NormalTasks.stored (s : NormalTasks) (nodeId : NodeID) : Option ResourceSet :=
  (s.cluster.lookup nodeId).map SchedulingResources.normalTasks

section

variable {n : NodeID} {s : NormalTasks} {a : ResourceSet} {report : NormalTaskReport} {reports : List NormalTaskReport}

lemma update_of_stale (ha : s.stored n = some a) (h : report.timestamp ≤ s.latest n ∨ report.resources = a) :
    updateNodeNormalTaskResources n s report = s := by
  obtain ⟨node, hnode, rfl⟩ := Option.map_eq_some_iff.mp ha
  simp only [updateNodeNormalTaskResources, hnode]
  refine if_neg fun hnew => ?_
  rcases h with hold | hsame
  · exact absurd hnew.2.1 (not_lt.mpr hold)
  · exact absurd (ResourceSet.isEqual_iff.mpr hsame) (Bool.not_eq_true _ ▸ hnew.2.2)

lemma update_of_new (ha : s.stored n = some a) (hchanged : report.changed = true) (hnew : s.latest n < report.timestamp)
    (hne : report.resources ≠ a) :
    (updateNodeNormalTaskResources n s report).stored n = some report.resources ∧
      (updateNodeNormalTaskResources n s report).latest n = report.timestamp := by
  obtain ⟨node, hnode, rfl⟩ := Option.map_eq_some_iff.mp ha
  have hdiffers := Bool.eq_false_iff.mpr fun h => hne (ResourceSet.isEqual_iff.mp h)
  simp only [updateNodeNormalTaskResources, hnode]
  rw [if_pos ⟨hchanged, hnew, hdiffers⟩]
  simp [NormalTasks.stored]

lemma latest_lt_and_stored {t : ℤ} (hlatest : s.latest n < t) (ha : s.stored n = some a)
    (h : ∀ report ∈ reports, report.changed = true ∧ report.timestamp < t) :
    (receiveReports n s reports).latest n < t ∧ ∃ b, (receiveReports n s reports).stored n = some b := by
  induction reports generalizing s a with
  | nil => exact ⟨hlatest, a, ha⟩
  | cons report reports ih =>
    have hrest := fun r hr => h r (mem_cons_of_mem _ hr)
    by_cases hstale : report.timestamp ≤ s.latest n ∨ report.resources = a
    · have hstep := update_of_stale ha hstale
      simp only [receiveReports, foldl_cons, hstep]
      exact ih hlatest ha hrest
    · rw [not_or, not_le] at hstale
      obtain ⟨hstored, htime⟩ := update_of_new ha (h report mem_cons_self).1 hstale.1 hstale.2
      exact ih (htime ▸ (h report mem_cons_self).2) hstored hrest

lemma receive_of_stale (ha : s.stored n = some a)
    (h : ∀ report ∈ reports, report.timestamp ≤ s.latest n ∨ report.resources = a) : receiveReports n s reports = s := by
  induction reports with
  | nil => rfl
  | cons report reports ih =>
    rw [forall_mem_cons] at h
    simp only [receiveReports, foldl_cons, update_of_stale ha h.1]
    exact ih h.2

end

/-- The report with the greatest timestamp is kept if other resources were stored when it
came, or if no report after it is both newer than the timestamp stored then and different. -/
theorem newest_normal_task_report_kept (n : NodeID) (s : NormalTasks) (hliving : (s.cluster.lookup n).isSome)
    (hlatest : s.latest n = 0) (before after : List NormalTaskReport) (newest : NormalTaskReport)
    (hchanged : ∀ report ∈ before ++ newest :: after, report.changed = true) (hpositive : 0 < newest.timestamp)
    (hnewest : ∀ report ∈ before ++ after, report.timestamp < newest.timestamp)
    (hkept : (receiveReports n s before).stored n ≠ some newest.resources ∨
      ∀ report ∈ after, report.timestamp ≤ (receiveReports n s before).latest n ∨
        report.resources = newest.resources) :
    (receiveReports n s (before ++ newest :: after)).stored n = some newest.resources := by
  obtain ⟨node, hnode⟩ := Option.isSome_iff_exists.mp hliving
  have hstored : s.stored n = some node.normalTasks := by rw [NormalTasks.stored, hnode]; rfl
  obtain ⟨hlt, b, hb⟩ := latest_lt_and_stored (hlatest ▸ hpositive) hstored
    fun report hr => ⟨hchanged report (mem_append_left _ hr), hnewest report (mem_append_left _ hr)⟩
  have hsplit : receiveReports n s (before ++ newest :: after) =
      receiveReports n (updateNodeNormalTaskResources n (receiveReports n s before) newest) after :=
    foldl_append.trans rfl
  rw [hsplit]
  by_cases hsame : newest.resources = b
  · rw [update_of_stale hb (Or.inr hsame), receive_of_stale hb, hb, hsame]
    exact hsame ▸ hkept.resolve_left fun hne => hne (hsame ▸ hb)
  · obtain ⟨hnow, htime⟩ := update_of_new hb (hchanged newest (by simp)) hlt hsame
    rw [receive_of_stale hnow, hnow]
    exact fun report hr => Or.inl (htime ▸ (hnewest report (mem_append_right _ hr)).le)

def idleNode : NormalTasks := { cluster := (∅ : Cluster).insert 1 ⟨0, 0, 0⟩ }

def usesCpus (cpus : ℕ) (timestamp : ℤ) : NormalTaskReport := { resources := single "CPU" (10000 * cpus), timestamp }

/-- The report of time 3 repeats what that of time 1 said, so that of time 2 is kept. -/
theorem repeated_report_overtaken :
    ((receiveReports 1 idleNode [usesCpus 1 1, usesCpus 1 3, usesCpus 2 2]).stored 1).map (· "CPU") = some 20000 := by
  decide +kernel

theorem later_report_kept :
    (receiveReports 1 idleNode [usesCpus 1 1, usesCpus 2 3, usesCpus 1 2]).stored 1 =
      some (single "CPU" 20000) := by
  refine newest_normal_task_report_kept 1 idleNode (by decide +kernel) rfl [usesCpus 1 1] [usesCpus 1 2]
    (usesCpus 2 3) (by simp [usesCpus]) (by decide) (by simp [usesCpus]) (Or.inl fun h => ?_)
  exact absurd (congrArg (Option.map (· "CPU")) h) (by decide +kernel)

end AmazonRay.Gcs
