import AmazonRay.Gcs.Resources

/-! `GcsResourceScheduler`: the nodes for a list of demands, by one of four greedy
algorithms. -/
namespace AmazonRay.Gcs
open Program

inductive SchedulingResultStatus where
  | infeasible
  | failed
  | success
  deriving DecidableEq, Repr

inductive SchedulingType where
  | spread
  | strictSpread
  | pack
  | strictPack
  deriving DecidableEq, Repr

abbrev SchedulingResult := SchedulingResultStatus × List NodeID

/-- The order in which sets of nodes are iterated, which may differ each time. -/
structure IterationOrder where
  order : ℕ → List NodeID → List NodeID
  perm : ∀ k l, (order k l).Perm l

def calculate (requested available : ℕ) : ℚ :=
  if available < requested then -1 else ((available - requested : ℕ) : ℚ) / available

def SchedulingResources.actualAvailable (node : SchedulingResources) : ResourceSet :=
  if node.normalTasks.isEmpty then node.available else node.available.subtractResources node.normalTasks

def score (required : Demand) (node : SchedulingResources) : ℚ :=
  let available := node.actualAvailable
  if ∀ r ∈ required.labels, r ∈ available.support ∧ 0 ≤ calculate (required r) (available r) then
    ∑ r ∈ required.labels, calculate (required r) (available r)
  else -1

/-- The first of the nodes with the highest score, if that is not negative. -/
def getBestNode (required : Demand) (candidateNodes : List NodeID) : ClusterM (Option NodeID) := do
  let best ← candidateNodes.foldlM (fun (best : Option (NodeID × ℚ)) nodeId => do
    match (← get).lookup nodeId with
    | none => throw .unknownNode
    | some node =>
      let nodeScore := score required node
      pure (if best.all (·.2 < nodeScore) then some (nodeId, nodeScore) else best)) none
  pure (best.bind fun b => if 0 ≤ b.2 then some b.1 else none)

variable (o : IterationOrder)

def filterCandidateNodes (c : Cluster) (nodeFilter : NodeID → Bool) : List NodeID := c.keys.filter nodeFilter

def strictSpreadLoop : List Demand → List NodeID → List NodeID → ClusterM (List NodeID)
  | [], _, resultNodes => pure resultNodes
  | required :: rest, candidateNodes, resultNodes => do
    match ← getBestNode required (o.order resultNodes.length candidateNodes) with
    | some nodeId => strictSpreadLoop rest (candidateNodes.erase nodeId) (resultNodes ++ [nodeId])
    | none => pure resultNodes

def strictSpreadSchedule (requiredResourcesList : List Demand) (candidateNodes : List NodeID) :
    ClusterM SchedulingResult := do
  if candidateNodes.length < requiredResourcesList.length then pure (.infeasible, [])
  else do
    let resultNodes ← strictSpreadLoop o requiredResourcesList candidateNodes []
    if resultNodes.length ≠ requiredResourcesList.length then pure (.failed, [])
    else pure (.success, resultNodes)

/-- If a search for packing fails, some nodes may be nil. -/
def releaseTemporarilyDeductedResources (requiredResourcesList : List Demand) (nodes : List NodeID) :
    ClusterM Unit :=
  (nodes.zip requiredResourcesList).forM fun x => onlyIf (x.1 ≠ NodeID.nil) do
    check .releaseResources ((← releaseResources x.1 x.2) = true)

structure SpreadState where
  candidateNodes : List NodeID
  selectedNodes : List NodeID := []
  resultNodes : List NodeID := []

/-- A node that was selected before is used again only when no other one is left. -/
def spreadLoop : List Demand → SpreadState → ClusterM (List NodeID)
  | [], s => pure s.resultNodes
  | required :: rest, s => do
    match ← getBestNode required (o.order (2 * s.resultNodes.length) s.candidateNodes) with
    | some nodeId => do
      check .acquireResources ((← acquireResources nodeId required) = true)
      spreadLoop rest { candidateNodes := s.candidateNodes.erase nodeId
                        selectedNodes := s.selectedNodes ++ [nodeId]
                        resultNodes := s.resultNodes ++ [nodeId] }
    | none => do
      match ← getBestNode required (o.order (2 * s.resultNodes.length + 1) s.selectedNodes) with
      | some nodeId => do
        check .acquireResources ((← acquireResources nodeId required) = true)
        spreadLoop rest { s with resultNodes := s.resultNodes ++ [nodeId] }
      | none => pure s.resultNodes

def spreadSchedule (requiredResourcesList : List Demand) (candidateNodes : List NodeID) :
    ClusterM SchedulingResult := do
  let resultNodes ← spreadLoop o requiredResourcesList { candidateNodes }
  releaseTemporarilyDeductedResources requiredResourcesList resultNodes
  if resultNodes.length ≠ requiredResourcesList.length then pure (.failed, [])
  else pure (.success, resultNodes)

def strictPackSchedule (requiredResourcesList : List Demand) (candidateNodes : List NodeID) :
    ClusterM SchedulingResult := do
  let requiredResources := requiredResourcesList.foldl Demand.addResources .empty
  if (← get).entries.any fun e => requiredResources.amounts.isSubset e.2.total then do
    let resultNodes := match ← getBestNode requiredResources (o.order 0 candidateNodes) with
      | some nodeId => List.replicate requiredResourcesList.length nodeId
      | none => []
    if resultNodes = [] then pure (.failed, []) else pure (.success, resultNodes)
  else pure (.infeasible, [])

/-- Puts more demands on the node; returns the nodes of all demands and those that are left. -/
def packOnNode (nodeId : NodeID) :
    List (ℕ × Demand) → List NodeID → ClusterM (List NodeID × List (ℕ × Demand))
  | [], resultNodes => pure (resultNodes, [])
  | (index, required) :: rest, resultNodes => do
    if ← acquireResources nodeId required then packOnNode nodeId rest (resultNodes.set index nodeId)
    else do
      let (resultNodes, left) ← packOnNode nodeId rest resultNodes
      pure (resultNodes, (index, required) :: left)

structure PackState where
  candidateNodes : List NodeID
  left : List (ℕ × Demand)
  resultNodes : List NodeID

/-- Each round takes the first demand, and is the `bound`th from the last that there can be. -/
def packLoop (bound : ℕ) (s : PackState) : ClusterM PackState :=
  match s.left, bound with
  | [], _ => pure s
  | _ :: _, 0 => throw .loopBound
  | (index, required) :: rest, bound + 1 => do
    match ← getBestNode required (o.order bound s.candidateNodes) with
    | none => pure s
    | some nodeId => do
      check .acquireResources ((← acquireResources nodeId required) = true)
      let (resultNodes, left) ← packOnNode nodeId rest (s.resultNodes.set index nodeId)
      packLoop bound { candidateNodes := s.candidateNodes.erase nodeId, left, resultNodes }

def packSchedule (requiredResourcesList : List Demand) (candidateNodes : List NodeID) :
    ClusterM SchedulingResult := do
  let s ← packLoop o requiredResourcesList.length
    { candidateNodes
      left := requiredResourcesList.zipIdx.map Prod.swap
      resultNodes := List.replicate requiredResourcesList.length NodeID.nil }
  releaseTemporarilyDeductedResources requiredResourcesList s.resultNodes
  if s.left ≠ [] then pure (.failed, []) else pure (.success, s.resultNodes)

/-- `SortRequiredResources` leaves the list as it is. -/
def schedule (requiredResourcesList : List Demand) (schedulingType : SchedulingType)
    (nodeFilter : NodeID → Bool) : ClusterM SchedulingResult := do
  let candidateNodes := filterCandidateNodes (← get) nodeFilter
  if candidateNodes = [] then pure (.infeasible, [])
  else match schedulingType with
    | .spread => spreadSchedule o requiredResourcesList candidateNodes
    | .strictSpread => strictSpreadSchedule o requiredResourcesList candidateNodes
    | .pack => packSchedule o requiredResourcesList candidateNodes
    | .strictPack => strictPackSchedule o requiredResourcesList candidateNodes

end AmazonRay.Gcs
