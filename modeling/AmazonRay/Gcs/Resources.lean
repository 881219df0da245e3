import AmazonRay.Ids
import AmazonRay.Lib.Amounts
import AmazonRay.Lib.Program
import AmazonRay.Lib.Table
import AmazonRay.Scheduling.FixedPoint

/-! `ResourceSet`, `SchedulingResources` and the resources of the nodes in the
`GcsResourceManager`. -/
namespace AmazonRay.Gcs
open Program

/-- Amounts in units of 1/10000. The sets of a node hold no resource of amount zero. -/
abbrev ResourceSet := String →₀ ℕ

namespace ResourceSet

def isEmpty (a : ResourceSet) : Bool := a.support = ∅

def isSubset (a b : ResourceSet) : Bool := ∀ r ∈ a.support, a r ≤ b r

/-- `ResourceSet::SubtractResources`: what goes below zero is deleted. -/
def subtractResources (a b : ResourceSet) : ResourceSet := Amounts.sub a b

def addResources (a b : ResourceSet) : ResourceSet := Amounts.add a b

def addResourcesCapacityConstrained (a b total : ResourceSet) : ResourceSet := Amounts.addUpTo a b total

lemma isSubset_iff {a b : ResourceSet} : a.isSubset b = true ↔ ∀ r, a r ≤ b r := by
  unfold isSubset
  rw [decide_eq_true_iff]
  refine forall_congr' fun r => ⟨fun h => ?_, fun h _ => h⟩
  by_cases hr : r ∈ a.support
  · exact h hr
  · rw [Finsupp.notMem_support_iff.mp hr]
    exact Nat.zero_le _

end ResourceSet

/-- The `ResourceSet` of a demand, which keeps the label of an amount that is truncated to zero. -/
structure Demand where
  amounts : ResourceSet
  labels : Finset String
  support_subset : amounts.support ⊆ labels

namespace Demand

instance : CoeFun Demand fun _ => String → ℕ := ⟨fun d => d.amounts⟩

lemma apply_of_notMem {d : Demand} {r : String} (hr : r ∉ d.labels) : d r = 0 :=
  Finsupp.notMem_support_iff.mp fun hmem => hr (d.support_subset hmem)

/-- `ResourceSet(resource_map)` for a map with one entry. -/
def ofDouble (label : String) (amount : ℚ) : Demand where
  amounts := Amounts.single label (Scheduling.FixedPoint.scaled amount).toNat
  labels := {label}
  support_subset r hr := by
    by_contra hne
    exact Finsupp.mem_support_iff.mp hr (if_neg (mt Finset.mem_singleton.mpr hne))

def addResources (a b : Demand) : Demand where
  amounts := a.amounts.addResources b.amounts
  labels := a.labels ∪ b.labels
  support_subset := Finset.union_subset_union a.support_subset b.support_subset

def empty : Demand := ⟨0, ∅, Finset.Subset.refl _⟩

/-- No amount of the demand is truncated to zero. -/
def Exact (d : Demand) : Prop := ∀ r ∈ d.labels, d r ≠ 0

end Demand

/-- `resources_load_` is left out: the scheduler does not read it. -/
structure SchedulingResources where
  total : ResourceSet
  available : ResourceSet
  normalTasks : ResourceSet

abbrev Cluster := AList fun _ : NodeID => SchedulingResources

/-- The checks of the source; `loopBound` would stop a loop that does not end. -/
inductive ResourceCheck where
  | unknownNode
  | unknownResource
  | negativeCapacity
  | acquireResources
  | releaseResources
  | loopBound
  deriving DecidableEq, Repr

abbrev ClusterM := EStateM ResourceCheck Cluster

def acquire (nodeId : NodeID) (node : SchedulingResources) (required : Demand) : ClusterM Unit := do
  check .unknownResource (required.labels ⊆ node.available.support)
  check .negativeCapacity (∀ r ∈ required.labels, required r ≤ node.available r)
  modify fun c => c.insert nodeId { node with available := node.available.subtractResources required.amounts }

/-- A node that is not found is dead, and nothing is acquired from it. -/
def acquireResources (nodeId : NodeID) (required : Demand) : ClusterM Bool := do
  match (← get).lookup nodeId with
  | none => pure true
  | some node =>
    if required.amounts.isSubset node.available then do
      acquire nodeId node required
      pure true
    else pure false

def releaseResources (nodeId : NodeID) (acquired : Demand) : ClusterM Bool := do
  let c ← get
  match c.lookup nodeId with
  | none => pure true
  | some node => do
    set (c.insert nodeId { node with
      available := node.available.addResourcesCapacityConstrained acquired.amounts node.total })
    pure true

variable {c c₀ t : Cluster} {n : NodeID} {d : Demand} {r : String} {node : SchedulingResources}

def Cluster.total (c : Cluster) (n : NodeID) (r : String) : ℕ := (c.lookup n).elim 0 fun node => node.total r

def Cluster.available (c : Cluster) (n : NodeID) (r : String) : ℕ :=
  (c.lookup n).elim 0 fun node => node.available r

def Cluster.normalTasks (c : Cluster) (n : NodeID) (r : String) : ℕ :=
  (c.lookup n).elim 0 fun node => node.normalTasks r

structure SameNodes (c t : Cluster) : Prop where
  isSome : ∀ n, (t.lookup n).isSome = (c.lookup n).isSome
  total : t.total = c.total
  normalTasks : t.normalTasks = c.normalTasks

instance : IsPreorder Cluster SameNodes where
  refl _ := ⟨fun _ => rfl, rfl, rfl⟩
  trans _ _ _ h h' := ⟨fun n => (h'.isSome n).trans (h.isSome n), h'.total.trans h.total,
    h'.normalTasks.trans h.normalTasks⟩

lemma sameNodes_insert (h : c.lookup n = some node) (a : ResourceSet) :
    SameNodes c (c.insert n { node with available := a }) := by
  have hkeep : ∀ {β : Type} (f : Option SchedulingResources → β) (x : NodeID),
      f (some { node with available := a }) = f (some node) →
        f ((c.insert n { node with available := a }).lookup x) = f (c.lookup x) := by
    intro β f x hf
    rw [Table.lookup_insert]
    by_cases hx : x = n
    · rw [if_pos hx, hx, h, hf]
    · rw [if_neg hx]
  refine ⟨fun x => hkeep Option.isSome x rfl, ?_, ?_⟩
  · funext x r
    exact hkeep (fun o => o.elim 0 fun node => node.total r) x rfl
  · funext x r
    exact hkeep (fun o => o.elim 0 fun node => node.normalTasks r) x rfl

lemma available_insert (c : Cluster) (n x : NodeID) (a : ResourceSet) (r : String) :
    Cluster.available (c.insert n { node with available := a }) x r = if x = n then a r else c.available x r := by
  rw [Cluster.available, Table.lookup_insert, Cluster.available]
  by_cases hx : x = n
  · rw [if_pos hx, if_pos hx]
    rfl
  · rw [if_neg hx, if_neg hx]

/-- The demand was taken from what is available on the node. -/
structure Taken (n : NodeID) (d : Demand) (c t : Cluster) : Prop extends SameNodes c t where
  available : ∀ x r, t.available x r + (if x = n then d r else 0) = c.available x r

/-- A label that the node does not have stops the program. -/
lemma taken_acquireResources {K : Prop} (hn : (c.lookup n).isSome)
    (hlabels : K → (∀ r, d r ≤ c.available n r) → ∀ r ∈ d.labels, c.available n r ≠ 0) :
    Triple (· = c) (acquireResources n d) (fun acquired t =>
      (acquired = true ∧ Taken n d c t) ∨ acquired = false ∧ (∃ r, c.available n r < d r) ∧ t = c) fun _ _ => ¬ K := by
  refine .seen ?_
  obtain ⟨node, hnode⟩ := Option.isSome_iff_exists.mp hn
  have havail r : c.available n r = node.available r := by
    rw [Cluster.available, hnode]
    rfl
  simp only [havail] at hlabels ⊢
  rw [hnode]
  refine .ite (fun hsub => ?_) fun hsub => .pure fun t ht => .inr ⟨rfl, ?_, ht⟩
  case refine_2 =>
    have hnot : ¬∀ r, d r ≤ node.available r := fun hle => hsub (ResourceSet.isSubset_iff.mpr hle)
    push Not at hnot
    exact hnot
  have hle := ResourceSet.isSubset_iff.mp hsub
  refine .bind ?_ fun _ => .pure fun t ht => .inl ⟨rfl, ht⟩
  refine .seq (.check (Q := fun _ t => t = c) (fun _ _ ht => ht) fun hnot _ _ hk => hnot fun r hr => ?_)
    (.seq (.passed fun r _ => hle r) (.updated ?_))
  · exact Finsupp.mem_support_iff.mpr (hlabels hk hle r hr)
  · refine ⟨sameNodes_insert hnode _, fun x r => ?_⟩
    rw [available_insert]
    by_cases hx : x = n
    · rw [if_pos hx, if_pos hx, hx, havail]
      exact Nat.sub_add_cancel (hle r)
    · rw [if_neg hx, if_neg hx, Nat.add_zero]

lemma released_releaseResources (n : NodeID) (d : Demand) (c : Cluster) :
    Completes c (releaseResources n d) fun released t => released = true ∧ SameNodes c t ∧
      ((∀ r, c.available n r + d r ≤ c.total n r) → Taken n d t c) := by
  refine .seen ?_
  cases hnode : c.lookup n with
  | none =>
    refine .done ?_
    refine ⟨rfl, refl_of SameNodes c, fun hle => ⟨refl_of SameNodes c, fun x r => ?_⟩⟩
    have hzero := hle r
    rw [Cluster.total, hnode, Option.elim_none] at hzero
    by_cases hx : x = n
    · rw [if_pos hx]
      omega
    · rw [if_neg hx]
      rfl
  | some node =>
    have hsame := sameNodes_insert hnode (node.available.addResourcesCapacityConstrained d.amounts node.total)
    have hback : SameNodes (c.insert n { node with
        available := node.available.addResourcesCapacityConstrained d.amounts node.total }) c :=
      ⟨fun x => (hsame.isSome x).symm, hsame.total.symm, hsame.normalTasks.symm⟩
    refine .seq (.set (Q := fun _ t => t = c.insert n { node with
        available := node.available.addResourcesCapacityConstrained d.amounts node.total }) fun _ _ => rfl)
      (.pure ?_)
    rintro t rfl
    refine ⟨rfl, hsame, fun hle => ⟨hback, fun x r => ?_⟩⟩
    rw [available_insert]
    by_cases hx : x = n
    · subst hx
      have hle := hle r
      rw [Cluster.available, Cluster.total, hnode] at hle
      rw [if_pos rfl, if_pos rfl, Cluster.available, hnode]
      exact (Amounts.addUpTo_apply_of_le _ _ _ hle).symm
    · rw [if_neg hx, if_neg hx, Nat.add_zero]

end AmazonRay.Gcs
