import AmazonRay.Gcs.Resources
import AmazonRay.Lib.Runs

/-! The totals of the `GcsResourceManager`, the `NodeResourceTable`, and how a restarted GCS rebuilds them. -/
namespace AmazonRay.Gcs
open Table Option Cluster Amounts

/-- Capacities as doubles, in units of 1/10000. -/
abbrev ResourceMap := String →₀ ℕ

/-- What is used of the `FixedPoint` of a double: that it is exact for whole numbers. -/
structure FixedPointOfDouble where
  units : ℕ → ℕ
  whole : ∀ n, units (10000 * n) = 10000 * n

section

variable (fixed : FixedPointOfDouble)

/-- `UpdateResourceCapacity` takes the capacity as an `int64_t`. -/
def newCapacity (capacity : ℕ) : ℕ := fixed.units (10000 * (capacity / 10000))

/-- `AddOrUpdateResource` changes nothing for a capacity of zero. -/
def addOrUpdate (current capacity : ℕ) : ℕ := if 0 < capacity then capacity else current

/-- `SchedulingResources::UpdateResourceCapacity` for each resource; they do not affect each other. -/
def updateResourceCapacity (node : SchedulingResources) (changed : ResourceMap) : SchedulingResources :=
  { node with
    total := Amounts.override node.total changed.support fun r =>
      addOrUpdate (node.total r) (newCapacity fixed (changed r))
    available := Amounts.override node.available changed.support fun r =>
      addOrUpdate (node.available r)
        (if 0 < node.total r then node.available r + newCapacity fixed (changed r) - node.total r
        else newCapacity fixed (changed r)) }

def deleteResource (node : SchedulingResources) (names : List String) : SchedulingResources :=
  { node with
    total := Amounts.override node.total names.toFinset fun _ => 0
    available := Amounts.override node.available names.toFinset fun _ => 0 }

def SchedulingResources.ofRecord (record : ResourceMap) : SchedulingResources :=
  let resources : ResourceSet := Amounts.override 0 record.support fun r => fixed.units (record r)
  { total := resources, available := resources, normalTasks := 0 }

def onNodeAdd (c : Cluster) (nodeId : NodeID) (record : ResourceMap) : Cluster :=
  match c.lookup nodeId with
  | some _ => c
  | none => c.insert nodeId (.ofRecord fixed record)

end

structure Stored where
  cluster : Cluster := ∅
  nodeTable : AList fun _ : NodeID => ResourceMap := ∅
  nodeResourceTable : AList fun _ : NodeID => ResourceMap := ∅

section

variable (fixed : FixedPointOfDouble)

/-- The map that is stored has the totals, and the capacities of the request as they are. -/
def handleUpdateResources (s : Stored) (nodeId : NodeID) (changed : ResourceMap) : Stored :=
  match s.cluster.lookup nodeId with
  | none => s
  | some node =>
    let node := updateResourceCapacity fixed node changed
    { s with
      cluster := s.cluster.insert nodeId node
      nodeResourceTable := s.nodeResourceTable.insert nodeId (Amounts.override node.total changed.support changed) }

def handleDeleteResources (s : Stored) (nodeId : NodeID) (names : List String) : Stored :=
  match s.cluster.lookup nodeId with
  | none => s
  | some node =>
    let node := deleteResource node names
    { s with
      cluster := s.cluster.insert nodeId node
      nodeResourceTable := s.nodeResourceTable.insert nodeId
        (Amounts.override node.total names.toFinset fun _ => 0) }

def restoreResources (c : Cluster) (e : Σ _ : NodeID, ResourceMap) : Cluster :=
  match c.lookup e.1 with
  | none => c
  | some node => c.insert e.1 (updateResourceCapacity fixed node e.2)

/-- `GcsResourceManager::Initialize`, on the stored records of the living nodes and the stored maps. -/
def initializeResources (nodeTable nodeResourceTable : AList fun _ : NodeID => ResourceMap) : Cluster :=
  nodeResourceTable.entries.foldl (restoreResources fixed)
    (nodeTable.entries.foldl (fun c e => onNodeAdd fixed c e.1 e.2) ∅)

abbrev NodeRecords := NodeID → ResourceMap

inductive ResourceOp where
  | onNodeAdd (nodeId : NodeID)
  | handleUpdateResources (nodeId : NodeID) (changed : ResourceMap)
  | handleDeleteResources (nodeId : NodeID) (names : List String)

variable (record : NodeRecords)

/-- The record of a node is stored before the manager learns of the node. -/
def ResourceOp.apply (s : Stored) : ResourceOp → Stored
  | .onNodeAdd n => { s with
      cluster := Gcs.onNodeAdd fixed s.cluster n (record n), nodeTable := s.nodeTable.insert n (record n) }
  | .handleUpdateResources n changed => Gcs.handleUpdateResources fixed s n changed
  | .handleDeleteResources n names => Gcs.handleDeleteResources s n names

def runResources (ops : List ResourceOp) : Stored := ops.foldl (ResourceOp.apply fixed record) {}

end

section

variable {fixed : FixedPointOfDouble} {record : NodeRecords} {s : Stored} {n : NodeID}

variable {node old : SchedulingResources}

lemma lookup_onNodeAdd (c : Cluster) (n x : NodeID) (record : ResourceMap) : (onNodeAdd fixed c n record).lookup x =
      if x = n then some ((c.lookup n).getD (.ofRecord fixed record)) else c.lookup x := by
  unfold onNodeAdd
  cases hn : c.lookup n with
  | none => exact lookup_insert _ _ _ _
  | some =>
    by_cases hx : x = n
    · rw [if_pos hx, hx, hn, getD_some]
    · rw [if_neg hx]

lemma lookup_restoreResources (c : Cluster) (e : Σ _ : NodeID, ResourceMap) (x : NodeID) :
    (restoreResources fixed c e).lookup x =
      if x = e.1 then (c.lookup x).map fun node => updateResourceCapacity fixed node e.2 else c.lookup x := by
  unfold restoreResources
  cases hn : c.lookup e.1 with
  | none =>
    by_cases hx : x = e.1
    · rw [if_pos hx, hx, hn, map_none]
    · rw [if_neg hx]
  | some =>
    rw [lookup_insert]
    by_cases hx : x = e.1
    · rw [if_pos hx, if_pos hx, hx, hn, map_some]
    · rw [if_neg hx, if_neg hx]

lemma lookup_initializeResources (nodes resources : AList fun _ : NodeID => ResourceMap) (n : NodeID) :
    (initializeResources fixed nodes resources).lookup n = (nodes.lookup n).map fun record =>
        (resources.lookup n).elim (.ofRecord fixed record) (updateResourceCapacity fixed (.ofRecord fixed record)) := by
  have hnodes : (nodes.entries.foldl (fun c e => onNodeAdd fixed c e.1 e.2) ∅).lookup n =
      (nodes.lookup n).map (SchedulingResources.ofRecord fixed) := by
    rw [lookup_foldl (g := fun _ record node => some (node.getD (.ofRecord fixed record)))
      (fun c e k hk => by rw [lookup_onNodeAdd, if_neg hk]) (fun c e => by rw [lookup_onNodeAdd, if_pos rfl])
      nodes.entries nodes.nodupKeys]
    show (nodes.lookup n).elim _ _ = _
    cases nodes.lookup n <;> rfl
  rw [initializeResources, lookup_foldl
    (g := fun _ resources node => node.map fun node => updateResourceCapacity fixed node resources)
    (fun c e k hk => by rw [lookup_restoreResources, if_neg hk])
    (fun c e => by rw [lookup_restoreResources, if_pos rfl]) resources.entries resources.nodupKeys, hnodes]
  show (resources.lookup n).elim _ _ = _
  cases nodes.lookup n <;> cases resources.lookup n <;> rfl

/-- What a restart makes of a capacity in the record and one in the stored map. -/
def restoredTotal (recorded stored : ℕ) : ℕ := if 10000 ≤ stored then 10000 * (stored / 10000) else recorded

/-- The stored capacity is a whole number, or a part of one that the record has too. -/
def Restorable (recorded stored : ℕ) : Prop :=
  (10000 ≤ stored ∧ 10000 ∣ stored) ∨ (stored < 10000 ∧ stored = recorded)

instance (recorded stored : ℕ) : Decidable (Restorable recorded stored) :=
  inferInstanceAs (Decidable (_ ∨ _))

lemma restoredTotal_eq_iff {recorded stored : ℕ} : restoredTotal recorded stored = stored ↔ Restorable recorded stored := by
  unfold restoredTotal Restorable
  by_cases h : 10000 ≤ stored
  · rw [if_pos h]
    omega
  · rw [if_neg h]
    omega

lemma newCapacity_eq (capacity : ℕ) : newCapacity fixed capacity = 10000 * (capacity / 10000) := fixed.whole _

lemma total_updateResourceCapacity (node : SchedulingResources) (changed : ResourceMap) (r : String) :
    (updateResourceCapacity fixed node changed).total r = restoredTotal (node.total r) (changed r) := by
  unfold updateResourceCapacity restoredTotal
  rw [override_apply, addOrUpdate, newCapacity_eq]
  by_cases hr : changed r = 0
  · rw [if_neg (Finsupp.notMem_support_iff.mpr hr), hr, if_neg (by decide)]
  · rw [if_pos (Finsupp.mem_support_iff.mpr hr)]
    by_cases hle : 10000 ≤ changed r
    · rw [if_pos hle, if_pos (by omega)]
    · rw [if_neg hle, if_neg (by omega)]

lemma total_ofRecord (record : ResourceMap) (r : String) :
    (SchedulingResources.ofRecord fixed record).total r = fixed.units (record r) := by
  show override 0 record.support _ r = _
  rw [override_apply]
  by_cases hr : record r = 0
  · rw [if_neg (Finsupp.notMem_support_iff.mpr hr), hr]
    exact (fixed.whole 0).symm
  · rw [if_pos (Finsupp.mem_support_iff.mpr hr)]

/-- The totals are those of the stored maps, and a restarted manager has the same nodes and totals. -/
structure Durable (fixed : FixedPointOfDouble) (s : Stored) : Prop where
  stored : ∀ n m, (s.cluster.lookup n).isSome → s.nodeResourceTable.lookup n = some m →
    ∀ r, s.cluster.total n r = m r
  nodes : ∀ n, ((initializeResources fixed s.nodeTable s.nodeResourceTable).lookup n).isSome =
    (s.cluster.lookup n).isSome
  restored : ∀ n r, (initializeResources fixed s.nodeTable s.nodeResourceTable).total n r = s.cluster.total n r

structure Tabled (fixed : FixedPointOfDouble) (record : NodeRecords) (s : Stored) : Prop where
  records : ∀ n, s.nodeTable.lookup n = (s.cluster.lookup n).map fun _ => record n
  known : ∀ n, s.cluster.lookup n = none → s.nodeResourceTable.lookup n = none
  unwritten : ∀ n node, s.cluster.lookup n = some node → s.nodeResourceTable.lookup n = none →
    ∀ r, node.total r = fixed.units (record n r)

lemma Tabled.lookup_initialize (h : Tabled fixed record s) (n : NodeID) :
    (initializeResources fixed s.nodeTable s.nodeResourceTable).lookup n =
      (s.cluster.lookup n).map fun _ => (s.nodeResourceTable.lookup n).elim (.ofRecord fixed (record n))
        (updateResourceCapacity fixed (.ofRecord fixed (record n))) := by
  rw [lookup_initializeResources, h.records, map_map]
  rfl

lemma Tabled.durable_iff (h : Tabled fixed record s) :
    Durable fixed s ↔ ∀ n m, s.nodeResourceTable.lookup n = some m →
      ∀ r, s.cluster.total n r = m r ∧ Restorable (fixed.units (record n r)) (m r) := by
  have hrestored : ∀ n m r, s.nodeResourceTable.lookup n = some m →
      (initializeResources fixed s.nodeTable s.nodeResourceTable).total n r =
        restoredTotal (fixed.units (record n r)) (m r) := by
    intro n m r hm
    cases hn : s.cluster.lookup n with
    | none => exact absurd (h.known n hn) (by rw [hm]; exact some_ne_none m)
    | some =>
      rw [Cluster.total, h.lookup_initialize, hn, hm, map_some, elim_some, elim_some,
        total_updateResourceCapacity, total_ofRecord]
  constructor
  · intro hdurable n m hm r
    have hn : (s.cluster.lookup n).isSome := by
      by_contra hnone
      rw [h.known n (not_isSome_iff_eq_none.mp hnone)] at hm
      cases hm
    have hstored := hdurable.stored n m hn hm r
    refine ⟨hstored, restoredTotal_eq_iff.mp ?_⟩
    rw [← hrestored n m r hm, hdurable.restored, hstored]
  · intro hmaps
    refine ⟨fun n m _ hm r => (hmaps n m hm r).1, fun n => ?_, fun n r => ?_⟩
    · rw [h.lookup_initialize, isSome_map]
    · cases hm : s.nodeResourceTable.lookup n with
      | some m =>
        obtain ⟨htotal, hrestorable⟩ := hmaps n m hm r
        rw [hrestored n m r hm, htotal]
        exact restoredTotal_eq_iff.mpr hrestorable
      | none =>
        rw [Cluster.total, h.lookup_initialize, hm, Cluster.total]
        cases hn : s.cluster.lookup n with
        | none => rfl
        | some node =>
          rw [map_some, elim_some, elim_none, elim_some, total_ofRecord]
          exact (h.unwritten n node hn hm r).symm

end

section

variable {fixed : FixedPointOfDouble} {record : NodeRecords} {s : Stored} {n : NodeID}

def Stored.write (s : Stored) (n : NodeID) (node : SchedulingResources) (m : ResourceMap) : Stored :=
  { s with cluster := s.cluster.insert n node, nodeResourceTable := s.nodeResourceTable.insert n m }

lemma Tabled.write {m : ResourceMap} (h : Tabled fixed record s)
    (hn : s.cluster.lookup n = some old) : Tabled fixed record (s.write n node m) := by
  refine ⟨fun x => ?_, fun x hx => ?_, fun x new hx hm => ?_⟩
  · show s.nodeTable.lookup x = ((s.cluster.insert n node).lookup x).map _
    rw [h.records, lookup_insert]
    by_cases hxn : x = n
    · rw [if_pos hxn, hxn, hn]
      rfl
    · rw [if_neg hxn]
  · replace hx : (s.cluster.insert n node).lookup x = none := hx
    show (s.nodeResourceTable.insert n m).lookup x = none
    rw [lookup_insert] at hx ⊢
    by_cases hxn : x = n
    · rw [if_pos hxn] at hx
      cases hx
    · rw [if_neg hxn] at hx ⊢
      exact h.known x hx
  · replace hx : (s.cluster.insert n node).lookup x = some new := hx
    replace hm : (s.nodeResourceTable.insert n m).lookup x = none := hm
    rw [lookup_insert] at hx hm
    by_cases hxn : x = n
    · rw [if_pos hxn] at hm
      cases hm
    · rw [if_neg hxn] at hx hm
      exact h.unwritten x new hx hm

lemma Tabled.durable_write_iff {m : ResourceMap} (h : Tabled fixed record s)
    (hdurable : Durable fixed s) (hn : s.cluster.lookup n = some old) :
    Durable fixed (s.write n node m) ↔ ∀ r, node.total r = m r ∧ Restorable (fixed.units (record n r)) (m r) := by
  have htotal x r : (s.write n node m).cluster.total x r = if x = n then node.total r else s.cluster.total x r := by
    show total (s.cluster.insert n node) x r = _
    rw [Cluster.total, lookup_insert, Cluster.total]
    by_cases hx : x = n
    · rw [if_pos hx, if_pos hx, elim_some]
    · rw [if_neg hx, if_neg hx]
  have htable : ∀ x, (s.write n node m).nodeResourceTable.lookup x =
      if x = n then some m else s.nodeResourceTable.lookup x := fun x => lookup_insert _ _ _ _
  rw [(h.write hn).durable_iff]
  constructor
  · intro hmaps r
    have hr := hmaps n m (by rw [htable, if_pos rfl]) r
    rw [htotal, if_pos rfl] at hr
    exact hr
  · intro hr x m' hm' r
    rw [htable] at hm'
    rw [htotal]
    by_cases hx : x = n
    · rw [if_pos hx] at hm' ⊢
      cases hm'
      rw [hx]
      exact hr r
    · rw [if_neg hx] at hm' ⊢
      exact h.durable_iff.mp hdurable x m' hm' r

/-- Each capacity of an update is at least one or the total already, and the stored map can be restored over the record
of the node. -/
def ResourceOp.Keeps (fixed : FixedPointOfDouble) (record : NodeRecords) (s : Stored) : ResourceOp → Prop
  | .onNodeAdd _ => True
  | .handleUpdateResources n changed => (s.cluster.lookup n).isSome →
    (∀ r ∈ changed.support, 10000 ≤ changed r ∨ s.cluster.total n r = changed r) ∧
      ∀ r, Restorable (fixed.units (record n r)) (if r ∈ changed.support then changed r else s.cluster.total n r)
  | .handleDeleteResources n names => (s.cluster.lookup n).isSome →
    ∀ r, Restorable (fixed.units (record n r)) (if r ∈ names then 0 else s.cluster.total n r)

lemma tabled_apply (h : Tabled fixed record s) (op : ResourceOp) : Tabled fixed record (op.apply fixed record s) := by
  cases op with
  | onNodeAdd n =>
    refine ⟨fun x => ?_, fun x hx => ?_, fun x node hx hm => ?_⟩
    · show (s.nodeTable.insert n (record n)).lookup x = ((onNodeAdd fixed s.cluster n (record n)).lookup x).map _
      rw [lookup_insert, lookup_onNodeAdd]
      by_cases hxn : x = n
      · rw [if_pos hxn, if_pos hxn, map_some, hxn]
      · rw [if_neg hxn, if_neg hxn, h.records]
    · replace hx : (onNodeAdd fixed s.cluster n (record n)).lookup x = none := hx
      rw [lookup_onNodeAdd] at hx
      by_cases hxn : x = n
      · rw [if_pos hxn] at hx
        cases hx
      · rw [if_neg hxn] at hx
        exact h.known x hx
    · replace hx : (onNodeAdd fixed s.cluster n (record n)).lookup x = some node := hx
      rw [lookup_onNodeAdd] at hx
      by_cases hxn : x = n
      · subst hxn
        rw [if_pos rfl] at hx
        intro r
        cases hold : s.cluster.lookup x with
        | none =>
          rw [hold] at hx
          cases hx
          exact total_ofRecord _ _
        | some old =>
          rw [hold] at hx
          cases hx
          exact h.unwritten x old hold hm r
      · rw [if_neg hxn] at hx
        exact h.unwritten x node hx hm
  | handleUpdateResources n changed =>
    show Tabled fixed record (handleUpdateResources fixed s n changed)
    unfold handleUpdateResources
    cases hn : s.cluster.lookup n with
    | none => exact h
    | some => exact h.write hn
  | handleDeleteResources n names =>
    show Tabled fixed record (handleDeleteResources s n names)
    unfold handleDeleteResources
    cases hn : s.cluster.lookup n with
    | none => exact h
    | some => exact h.write hn

lemma durable_onNodeAdd (h : Tabled fixed record s) (hdurable : Durable fixed s) (n : NodeID) :
    Durable fixed ((ResourceOp.onNodeAdd n).apply fixed record s) := by
  refine (tabled_apply h (.onNodeAdd n)).durable_iff.mpr fun x m hm r => ?_
  obtain ⟨htotal, hrestorable⟩ := h.durable_iff.mp hdurable x m hm r
  refine ⟨?_, hrestorable⟩
  show total (onNodeAdd fixed s.cluster n (record n)) x r = m r
  rw [← htotal, Cluster.total, lookup_onNodeAdd, Cluster.total]
  by_cases hx : x = n
  · subst hx
    rw [if_pos rfl]
    cases hold : s.cluster.lookup x with
    | some => rfl
    | none =>
      -- a node without totals has no map in the table
      replace hm : s.nodeResourceTable.lookup x = some m := hm
      rw [h.known x hold] at hm
      cases hm
  · rw [if_neg hx]

lemma durable_update_iff (changed : ResourceMap) (h : Tabled fixed record s)
    (hdurable : Durable fixed s) (hn : s.cluster.lookup n = some node) :
    Durable fixed (handleUpdateResources fixed s n changed) ↔
      (∀ r ∈ changed.support, 10000 ≤ changed r ∨ node.total r = changed r) ∧
        ∀ r, Restorable (fixed.units (record n r)) (if r ∈ changed.support then changed r else node.total r) := by
  have htotal : ∀ r, (updateResourceCapacity fixed node changed).total r = restoredTotal (node.total r) (changed r) :=
    total_updateResourceCapacity node changed
  have hmap r : override (updateResourceCapacity fixed node changed).total changed.support changed r =
      if r ∈ changed.support then changed r else node.total r := by
    rw [override_apply, htotal]
    by_cases hr : r ∈ changed.support
    · rw [if_pos hr, if_pos hr]
    · rw [if_neg hr, if_neg hr, Finsupp.notMem_support_iff.mp hr]
      rfl
  have hwrite : handleUpdateResources fixed s n changed = s.write n (updateResourceCapacity fixed node changed)
      (override (updateResourceCapacity fixed node changed).total changed.support changed) := by
    rw [handleUpdateResources, hn]
    rfl
  rw [hwrite, h.durable_write_iff hdurable hn]
  constructor
  · intro hr
    refine ⟨fun r hmem => ?_, fun r => ?_⟩
    · have heq := (hr r).1
      rw [hmap, if_pos hmem, htotal, restoredTotal] at heq
      by_cases hle : 10000 ≤ changed r
      · exact .inl hle
      · rw [if_neg hle] at heq
        exact .inr heq
    · rw [← hmap]
      exact (hr r).2
  · rintro ⟨hlow, hrestorable⟩ r
    rw [hmap, htotal]
    refine ⟨?_, hrestorable r⟩
    have hr := hrestorable r
    by_cases hmem : r ∈ changed.support
    · rw [if_pos hmem] at hr ⊢
      rw [restoredTotal]
      obtain ⟨hle, hdvd⟩ | ⟨hlt, -⟩ := hr
      · rw [if_pos hle]
        omega
      · rw [if_neg (by omega)]
        exact (hlow r hmem).resolve_left (by omega)
    · rw [if_neg hmem, Finsupp.notMem_support_iff.mp hmem]
      rfl

lemma durable_delete_iff (names : List String) (h : Tabled fixed record s)
    (hdurable : Durable fixed s) (hn : s.cluster.lookup n = some node) :
    Durable fixed (handleDeleteResources s n names) ↔
      ∀ r, Restorable (fixed.units (record n r)) (if r ∈ names then 0 else node.total r) := by
  have htotal r : (deleteResource node names).total r = if r ∈ names then 0 else node.total r := by
    rw [deleteResource, override_apply]
    exact if_congr List.mem_toFinset rfl rfl
  have hmap r : override (deleteResource node names).total names.toFinset (fun _ => 0) r =
      if r ∈ names then 0 else node.total r := by
    rw [override_apply, htotal]
    by_cases hr : r ∈ names
    · rw [if_pos hr, if_pos (List.mem_toFinset.mpr hr)]
    · rw [if_neg hr, if_neg (List.mem_toFinset.not.mpr hr)]
  have hwrite : handleDeleteResources s n names = s.write n (deleteResource node names)
      (override (deleteResource node names).total names.toFinset fun _ => 0) := by
    rw [handleDeleteResources, hn]
    rfl
  rw [hwrite, h.durable_write_iff hdurable hn]
  constructor
  · intro hr r
    rw [← hmap]
    exact (hr r).2
  · intro hr r
    rw [hmap, htotal]
    exact ⟨rfl, hr r⟩

lemma durable_apply_iff (h : Tabled fixed record s) (hdurable : Durable fixed s) (op : ResourceOp) :
    Durable fixed (op.apply fixed record s) ↔ op.Keeps fixed record s := by
  have hsome : ∀ {n : NodeID} {node : SchedulingResources}, s.cluster.lookup n = some node →
      ∀ r, s.cluster.total n r = node.total r := by
    intro n node hn r
    rw [Cluster.total, hn, elim_some]
  cases op with
  | onNodeAdd n => exact iff_of_true (durable_onNodeAdd h hdurable n) trivial
  | handleUpdateResources n changed =>
    show Durable fixed (handleUpdateResources fixed s n changed) ↔ (_ → _)
    cases hn : s.cluster.lookup n with
    | none =>
      rw [handleUpdateResources, hn]
      exact iff_of_true hdurable (by simp)
    | some =>
      rw [durable_update_iff changed h hdurable hn]
      simp [hsome hn]
  | handleDeleteResources n names =>
    show Durable fixed (handleDeleteResources s n names) ↔ (_ → _)
    cases hn : s.cluster.lookup n with
    | none =>
      rw [handleDeleteResources, hn]
      exact iff_of_true hdurable (by simp)
    | some =>
      rw [durable_delete_iff names h hdurable hn]
      simp [hsome hn]

lemma runResources_concat (ops : List ResourceOp) (op : ResourceOp) :
    runResources fixed record (ops ++ [op]) = op.apply fixed record (runResources fixed record ops) := by
  rw [runResources, List.foldl_append]
  rfl

lemma tabled_run (ops : List ResourceOp) : Tabled fixed record (runResources fixed record ops) := by
  induction ops using List.reverseRecOn with
  | nil => exact ⟨fun _ => rfl, fun _ _ => rfl, nofun⟩
  | append_singleton ops op ih =>
    rw [runResources_concat]
    exact tabled_apply ih op

end

def exactUnits : FixedPointOfDouble := ⟨id, fun _ => rfl⟩

def twoCpus : NodeRecords := fun _ => Amounts.single "CPU" 20000

def fractionAdded : List ResourceOp := [.onNodeAdd 1, .handleUpdateResources 1 (Amounts.single "slot" 15000)]

def cpuDeleted : List ResourceOp := [.onNodeAdd 1, .handleDeleteResources 1 ["CPU"]]

end AmazonRay.Gcs
