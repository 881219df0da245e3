import AmazonRay.Ids
import AmazonRay.Lib.Runs
import AmazonRay.Lib.Table
import AmazonRay.Scheduling.FixedPoint

/-! How a raylet reports its resources, how the GCS broadcasts the reports, and how another raylet applies them. -/
namespace AmazonRay.ResourceReports
open Program

/-- `FixedPoint::Double`. The amount is in units of 1/10000. -/
def toDouble (units : ℤ) : ℚ := Binary64.nearest ((units : ℚ) / 10000)

/-- `FixedPoint(double)` of an amount, which is not negative. -/
def fixedPoint (d : ℚ) : ℤ := Scheduling.FixedPoint.scaled d

structure ResourceCapacity where
  total : ℤ := 0
  available : ℤ := 0
  deriving DecidableEq, Repr

inductive PredefinedResource where
  | cpu
  | mem
  | gpu
  | objectStoreMem
  deriving DecidableEq, Repr

namespace PredefinedResource

def all : List PredefinedResource := [cpu, mem, gpu, objectStoreMem]

def label : PredefinedResource → String
  | cpu => "CPU"
  | mem => "memory"
  | gpu => "GPU"
  | objectStoreMem => "object_store_memory"

def ofLabel (name : String) : Option PredefinedResource :=
  if name = "CPU" then some cpu
  else if name = "GPU" then some gpu
  else if name = "object_store_memory" then some objectStoreMem
  else if name = "memory" then some mem
  else none

end PredefinedResource

structure NodeResources where
  predefined : PredefinedResource → ResourceCapacity := fun _ => {}
  custom : AList fun _ : String => ResourceCapacity := ∅
  objectPullsQueued : Bool := false

namespace NodeResources

def capacity (node : NodeResources) (name : String) : ResourceCapacity :=
  match PredefinedResource.ofLabel name with
  | some p => node.predefined p
  | none => (node.custom.lookup name).getD {}

def capacities (node : NodeResources) : List (Σ _ : String, ResourceCapacity) :=
  PredefinedResource.all.map (fun p => ⟨p.label, node.predefined p⟩) ++ node.custom.entries

def WellNamed (node : NodeResources) : Prop := ∀ name ∈ node.custom.keys, PredefinedResource.ofLabel name = none

instance (node : NodeResources) : Decidable node.WellNamed :=
  inferInstanceAs (Decidable (∀ name ∈ node.custom.keys, _))

end NodeResources

abbrev Doubles := AList fun _ : String => ℚ

instance : DecidableEq Doubles := fun a b => decidable_of_iff (a.entries = b.entries) AList.ext_iff.symm

structure ResourcesData where
  resourcesTotal : Doubles := ∅
  resourcesAvailable : Doubles := ∅
  resourcesAvailableChanged : Bool := false
  objectPullsQueued : Bool := false
  resourceLoadChanged : Bool := false
  shouldGlobalGc : Bool := false
  deriving DecidableEq

def addResource (available : Doubles) (node : NodeResources) (e : Σ _ : String, ℚ) : NodeResources :=
  let capacity : ResourceCapacity :=
    { total := fixedPoint e.2, available := (available.lookup e.1).elim 0 fixedPoint }
  match PredefinedResource.ofLabel e.1 with
  | some p => { node with predefined := Function.update node.predefined p capacity }
  | none => { node with custom := node.custom.insert e.1 capacity }

def resourceMapToNodeResources (total available : Doubles) : NodeResources :=
  total.entries.foldl (addResource available) {}

/-- What the raylet reads at a poll; the callbacks need not be set. -/
structure LocalUsage where
  usedObjectStoreMemory : Option ℚ := none
  pullManagerAtCapacity : Option Bool := none
  resourceLoadChanged : Bool := false
  shouldGlobalGc : Bool := false

/-- The resources at a poll: object store memory is available if it is not used. -/
def currentResources (usage : LocalUsage) (node : NodeResources) : NodeResources :=
  match usage.usedObjectStoreMemory with
  | none => node
  | some used =>
    let memory := node.predefined .objectStoreMem
    { node with
      predefined := Function.update node.predefined .objectStoreMem
        { memory with available := fixedPoint (Binary64.nearest (toDouble memory.total - used)) } }

/-- Only what differs from the last report is reported, and availability only if positive. -/
def reportCapacity (last : NodeResources) (data : ResourcesData) (e : Σ _ : String, ResourceCapacity) :
    ResourcesData :=
  let data := if e.2.available ≠ (last.capacity e.1).available ∧ 0 < e.2.available then
      { data with
        resourcesAvailableChanged := true
        resourcesAvailable := data.resourcesAvailable.insert e.1 (toDouble e.2.available) }
    else data
  if e.2.total ≠ (last.capacity e.1).total then
    { data with resourcesTotal := data.resourcesTotal.insert e.1 (toDouble e.2.total) }
  else data

def reportPulls (usage : LocalUsage) (last : NodeResources) (data : ResourcesData) : ResourcesData :=
  match usage.pullManagerAtCapacity with
  | none => data
  | some queued =>
    if last.objectPullsQueued ≠ queued then
      { data with objectPullsQueued := queued, resourcesAvailableChanged := true }
    else data

/-- `ClusterResourceScheduler::FillResourceUsage`; `light` is
`enable_light_weight_resource_report`. -/
def fillResourceUsage (light : Bool) (usage : LocalUsage) (resources last : NodeResources) : ResourcesData :=
  let data := reportPulls usage last (resources.capacities.foldl (reportCapacity last) {})
  if light then data else { data with resourcesAvailableChanged := true }

/-- `NodeManager::FillResourceReport`. The last usage that the GCS client knows stays empty, so the last report is made
from it every time. -/
def fillResourceReport (light : Bool) (usage : LocalUsage) (node : NodeResources) : ResourcesData :=
  let data := fillResourceUsage light usage (currentResources usage node) (resourceMapToNodeResources ∅ ∅)
  { data with resourceLoadChanged := usage.resourceLoadChanged, shouldGlobalGc := usage.shouldGlobalGc }

/-- The buffer in `GcsResourceManager::UpdateFromResourceReport`. -/
def updateFromResourceReport (buffer : AList fun _ : NodeID => ResourcesData) (nodeId : NodeID)
    (data : ResourcesData) : AList fun _ : NodeID => ResourcesData :=
  if data.shouldGlobalGc ∨ data.resourcesTotal.entries ≠ [] ∨ data.resourcesAvailableChanged ∨
      data.resourceLoadChanged then buffer.insert nodeId data
  else buffer

/-- How many reports a broadcast takes, if there are changes to be sent before them. -/
def broadcastCount (maxBatch changes size : ℕ) : ℕ := min maxBatch size - changes

/-- The loop of `GetResourceUsageBatchForBroadcast`, in the order of the hash map: `count` starts at the number of the
changes, and is compared with both bounds. -/
def takeReports (maxBatch size : ℕ) (count : ℕ) :
    List (Σ _ : NodeID, ResourcesData) → List (Σ _ : NodeID, ResourcesData) × List (Σ _ : NodeID, ResourcesData)
  | [] => ([], [])
  | report :: reports =>
    if count < maxBatch ∧ count < size then
      let rest := takeReports maxBatch size (count + 1) reports
      (report :: rest.1, rest.2)
    else ([], report :: reports)

/-- The batch, and the reports that stay in `resources_buffer_`. -/
def getResourceUsageBatchForBroadcast {Change : Type} (maxBatch : ℕ) (changes : List Change)
    (reports : List (Σ _ : NodeID, ResourcesData)) :
    List (Change ⊕ ResourcesData) × List (Σ _ : NodeID, ResourcesData) :=
  let taken := takeReports maxBatch reports.length changes.length reports
  (changes.map .inl ++ taken.1.map fun report => .inr report.2, taken.2)

lemma takeReports_eq (maxBatch size count : ℕ) (reports : List (Σ _ : NodeID, ResourcesData)) :
    takeReports maxBatch size count reports =
      (reports.take (broadcastCount maxBatch count size), reports.drop (broadcastCount maxBatch count size)) := by
  induction reports generalizing count with
  | nil => simp [takeReports]
  | cons report reports ih =>
    unfold takeReports
    split
    · have hnext : broadcastCount maxBatch count size = broadcastCount maxBatch (count + 1) size + 1 := by
        unfold broadcastCount
        omega
      simp [ih, hnext]
    · have hnone : broadcastCount maxBatch count size = 0 := by
        unfold broadcastCount
        omega
      simp [hnone]

/-- All changes are sent, and no report is lost. The reports fill what the changes leave of
the batch exactly if there are no changes or no reports, or a batch of either alone. -/
theorem broadcast_fills_batch_iff {Change : Type} (maxBatch : ℕ) (changes : List Change)
    (reports : List (Σ _ : NodeID, ResourcesData)) :
    ∃ taken left, getResourceUsageBatchForBroadcast maxBatch changes reports =
        (changes.map .inl ++ taken.map fun report => .inr report.2, left) ∧ taken ++ left = reports ∧
      (taken.length = min reports.length (maxBatch - changes.length) ↔
        changes = [] ∨ reports = [] ∨ maxBatch ≤ changes.length ∨ maxBatch ≤ reports.length) := by
  have hsplit := takeReports_eq maxBatch reports.length changes.length reports
  refine ⟨_, _, rfl, ?_, ?_⟩
  · rw [hsplit]
    exact List.take_append_drop _ _
  · rw [hsplit, List.length_take, broadcastCount, ← List.length_eq_zero_iff, ← List.length_eq_zero_iff]
    omega

/-- One change keeps the only report out of a batch of ten. -/
theorem change_keeps_report_out :
    getResourceUsageBatchForBroadcast 10 [()] [⟨1, {}⟩] = ([.inl ()], [⟨1, {}⟩]) := rfl

def updateTotals (view node : NodeResources) : NodeResources :=
  { view with
    predefined := fun p => { view.predefined p with total := (node.predefined p).total }
    custom := node.custom.entries.foldl (fun custom e =>
      custom.insert e.1 { (custom.lookup e.1).getD {} with total := e.2.total }) view.custom }

def updateAvailable (view node : NodeResources) : NodeResources :=
  { view with
    predefined := fun p => { view.predefined p with available := (node.predefined p).available }
    custom := node.custom.entries.foldl (fun custom e =>
      custom.insert e.1 { (custom.lookup e.1).getD {} with available := e.2.available }) view.custom }

/-- `ClusterResourceScheduler::UpdateNode`, for a node that is known. -/
def updateNode (view : NodeResources) (data : ResourcesData) : NodeResources :=
  let node := resourceMapToNodeResources data.resourcesTotal data.resourcesAvailable
  let view := if data.resourcesTotal.entries ≠ [] then updateTotals view node else view
  if data.resourcesAvailableChanged then
    { updateAvailable view node with objectPullsQueued := data.objectPullsQueued }
  else view

structure Config where
  reporter : NodeID
  light : Bool := true
  maxBatch : ℕ

/-- `polled` are the resources of the last poll, `changes` counts the messages of `resources_buffer_proto_`, and
`channel` has the reports that were sent. -/
structure State where
  resources : NodeResources
  polled : Option NodeResources := none
  buffer : AList fun _ : NodeID => ResourcesData := ∅
  changes : ℕ := 0
  channel : List (List (Σ _ : NodeID, ResourcesData)) := []
  view : NodeResources

inductive ReportOp where
  | changeResources (resources : NodeResources)
  | poll (usage : LocalUsage)
  | otherReport (nodeId : NodeID) (data : ResourcesData)
  | otherChange
  | broadcast (order : List (Σ _ : NodeID, ResourcesData))
  | receive

variable (cfg : Config)

def applyBatch (view : NodeResources) (batch : List (Σ _ : NodeID, ResourcesData)) : NodeResources :=
  batch.foldl (fun view e => if e.1 = cfg.reporter then updateNode view e.2 else view) view

def ReportOp.apply (s : State) : ReportOp → State
  | .changeResources resources => { s with resources }
  | .poll usage => { s with
      polled := some (currentResources usage s.resources)
      buffer := updateFromResourceReport s.buffer cfg.reporter (fillResourceReport cfg.light usage s.resources) }
  | .otherReport nodeId data => { s with buffer := updateFromResourceReport s.buffer nodeId data }
  | .otherChange => { s with changes := s.changes + 1 }
  | .broadcast order =>
    let batch := order.take (broadcastCount cfg.maxBatch s.changes order.length)
    { s with
      changes := 0
      buffer := batch.foldl (fun buffer e => buffer.erase e.1) s.buffer
      channel := s.channel ++ [batch] }
  | .receive =>
    match s.channel with
    | [] => s
    | batch :: rest => { s with channel := rest, view := applyBatch cfg s.view batch }

def ReportOp.run (op : ReportOp) : EStateM Empty State Unit := modify fun s => op.apply cfg s

/-- A broadcast goes through the buffer in the order of the hash map. -/
def ReportOp.Enabled (s : State) : ReportOp → Prop
  | .changeResources resources => resources.WellNamed
  | .otherReport nodeId _ => nodeId ≠ cfg.reporter
  | .broadcast order => order.Perm s.buffer.entries
  | _ => True

instance (op : ReportOp) (s : State) : Decidable (op.Enabled cfg s) := by
  unfold ReportOp.Enabled
  cases op <;> infer_instance

def State.outstanding (s : State) : List ResourcesData :=
  (s.channel.flatten.filter fun e => e.1 = cfg.reporter).map Sigma.snd ++ (s.buffer.lookup cfg.reporter).toList

def Converged (node view : NodeResources) : Prop :=
  ∀ e ∈ node.capacities, 0 < e.2.total →
    view.capacity e.1 = { total := e.2.total, available := max 0 e.2.available }

/-- Something is available or the report is complete anyway, and no amount is changed by its way through a double. -/
def ReportOp.ReportsAll (s : State) : ReportOp → Prop
  | .poll usage =>
    ((∃ e ∈ (currentResources usage s.resources).capacities, 0 < e.2.available) ∨
      usage.pullManagerAtCapacity = some true ∨ cfg.light = false) ∧
    ∀ e ∈ (currentResources usage s.resources).capacities, 0 < e.2.total →
      fixedPoint (toDouble e.2.total) = e.2.total ∧
        (0 < e.2.available → fixedPoint (toDouble e.2.available) = e.2.available)
  | _ => True

instance (op : ReportOp) (s : State) : Decidable (op.ReportsAll cfg s) := by
  unfold ReportOp.ReportsAll
  cases op <;> infer_instance

end AmazonRay.ResourceReports
