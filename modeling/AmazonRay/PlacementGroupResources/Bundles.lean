import AmazonRay.Lib.Runs
import AmazonRay.PlacementGroupResources.Instances

/-! `NewPlacementGroupResourceManager`: the two-phase commit of bundles on a node, and their
return. -/
namespace AmazonRay.PlacementGroupResources
open Program

def bundleLabel : String := "bundle"

/-- Whether a bundle is only reserved. -/
inductive CommitState where
  | prepared
  | committed
  deriving DecidableEq, Repr

/-- A bundle on the node, with the instances that `PrepareBundle` allocated to it. -/
structure BundleTransactionState where
  state : CommitState
  resources : TaskResourceInstances

/-- The resources of the node and the bundles on it. -/
structure State where
  resources : NodeResourceInstances
  bundles : AList fun _ : BundleID => BundleTransactionState := ∅

inductive Check where
  | unknownResource
  deriving DecidableEq, Repr

abbrev BundleM := EStateM Check State

abbrev BundleResources := BundleID → AList fun _ : String => ℤ

variable (required : BundleResources)

def requiredResources (id : BundleID) : ResourceRequest :=
  ((required id).entries.map fun e => (⟨.original e.1, e.2⟩ : Σ _ : ResourceName, ℤ)).toAList

def resourceLabels (id : BundleID) (name : String) (amount : ℤ) : List (Σ _ : ResourceName, ℤ) :=
  [⟨.indexed name id.1 id.2, amount⟩, ⟨.wildcard name id.1, amount⟩]

/-- `GetFormattedResources`. A demand for a resource `bundle` is overwritten. -/
def formattedResources (id : BundleID) : ResourceRequest :=
  List.toAList (resourceLabels id bundleLabel (1000 * one) ++
    ((required id).entries.filter fun e => e.1 ≠ bundleLabel).flatMap fun e => resourceLabels id e.1 e.2)

def allocateBundle (id : BundleID) : BundleM Bool := do
  let s ← get
  match allocateTaskResourceInstances (requiredResources required id) s.resources with
  | (none, l) => do
    set { s with resources := l }
    pure false
  | (some resources, l) => do
    set { s with resources := l, bundles := s.bundles.insert id { state := .prepared, resources } }
    pure true

def getInstances (allocated : TaskResourceInstances) (name : String) : BundleM (List ℤ) :=
  match allocated.lookup (.original name) with
  | some instances => pure instances
  | none => if name ∈ predefinedLabels then pure [] else throw .unknownResource

/-- A formatted resource gets the instances that were allocated of the original one. -/
def addFormattedResource (allocated : TaskResourceInstances) (e : Σ _ : ResourceName, ℤ) : BundleM Unit := do
  if e.1.getOriginal = bundleLabel then
    modify fun s => { s with resources := addLocalResourceInstances s.resources e.1 [e.2] }
  else do
    let instances ← getInstances allocated e.1.getOriginal
    modify fun s => { s with resources := addLocalResourceInstances s.resources e.1 instances }

def commitBundle (id : BundleID) : BundleM Unit := do
  let s ← get
  match s.bundles.lookup id with
  | none => pure ()
  | some b => onlyIf (b.state = .prepared) do
    set { s with bundles := s.bundles.insert id { b with state := .committed } }
    (formattedResources required id).entries.forM (addFormattedResource b.resources)

/-- The bundle is committed first, so that all bundles are returned in one way. -/
def releaseBundle (id : BundleID) (b : BundleTransactionState) : BundleM Unit := do
  onlyIf (b.state = .prepared) (commitBundle required id)
  onlyIf (isEmptyAllocation b.resources = false)
    (modify fun s => { s with resources := freeTaskResourceInstances s.resources b.resources })

def deleteIfEmpty (name : ResourceName) : BundleM Unit :=
  modify fun s => { s with
    resources := if isAvailableResourceEmpty s.resources name then s.resources.erase name else s.resources }

/-- What was added for the bundle is taken back by an allocation. -/
def returnBundle (id : BundleID) : BundleM Unit := do
  match (← get).bundles.lookup id with
  | none => pure ()
  | some b => do
    releaseBundle required id b
    modify fun s => { s with
      resources := (allocateTaskResourceInstances (formattedResources required id) s.resources).2 }
    (formattedResources required id).keys.forM deleteIfEmpty
    modify fun s => { s with bundles := s.bundles.erase id }

/-- A bundle that is only prepared is returned and prepared anew. -/
def prepareBundle (id : BundleID) : BundleM Bool := do
  match (← get).bundles.lookup id with
  | none => allocateBundle required id
  | some b =>
    if b.state = .committed then pure true
    else do
      returnBundle required id
      allocateBundle required id

end AmazonRay.PlacementGroupResources
