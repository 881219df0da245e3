import AmazonRay.Ids
import AmazonRay.Lib.Program

/-! The reference table of a worker and the messages made from it. Hash sets are duplicate-free lists. -/
namespace AmazonRay.ReferenceCounter

/-- One entry of `object_id_refs_`. A callback is kept as whether it is set. -/
structure Reference where
  objectSize : Int := -1
  ownedByUs : Bool := false
  foreignOwnerAlreadyMonitoring : Bool := false
  ownerAddress : Option WorkerAddress := none
  pinnedAtRayletId : Option NodeID := none
  locations : List NodeID := []
  isReconstructable : Bool := false
  localRefCount : Nat := 0
  submittedTaskRefCount : Nat := 0
  containedInOwned : List ObjectID := []
  containedInBorrowedIds : List ObjectID := []
  contains : List ObjectID := []
  hasNestedRefsToReport : Bool := false
  borrowers : List WorkerAddress := []
  storedInObjects : List (ObjectID × WorkerAddress) := []
  lineageRefCount : Nat := 0
  lineageEvicted : Bool := false
  spilled : Bool := false
  spilledUrl : String := ""
  spilledNodeId : NodeID := NodeID.nil
  onDelete : Bool := false
  onRefRemoved : Bool := false
  deriving DecidableEq, Repr

abbrev ReferenceTable := AList (fun _ : ObjectID => Reference)

def Reference.refCount (r : Reference) : Nat :=
  r.localRefCount + r.submittedTaskRefCount + r.containedInOwned.length

def Reference.hasLineageReferences (pinning : Bool) (r : Reference) : Bool :=
  pinning && r.ownedByUs && !r.isReconstructable && decide (0 < r.lineageRefCount)

def Reference.outOfScope (pinning : Bool) (r : Reference) : Bool :=
  !(decide (0 < r.refCount) || !r.containedInBorrowedIds.isEmpty || r.hasNestedRefsToReport ||
    !r.borrowers.isEmpty || !r.storedInObjects.isEmpty || r.hasLineageReferences pinning)

def Reference.shouldDelete (pinning : Bool) (r : Reference) : Bool :=
  if pinning then r.outOfScope pinning && r.lineageRefCount == 0 else r.outOfScope pinning

variable {r : Reference} {pinning : Bool}

lemma Reference.refCount_eq_zero : r.refCount = 0 ↔
    r.localRefCount = 0 ∧ r.submittedTaskRefCount = 0 ∧ r.containedInOwned = [] := by
  simp only [Reference.refCount, Nat.add_eq_zero_iff, List.length_eq_zero_iff, and_assoc]

lemma Reference.outOfScope_iff : r.outOfScope pinning = true ↔ r.refCount = 0 ∧ r.containedInBorrowedIds = [] ∧
      r.hasNestedRefsToReport = false ∧ r.borrowers = [] ∧ r.storedInObjects = [] ∧
      r.hasLineageReferences pinning = false := by
  simp [Reference.outOfScope, and_assoc]

lemma Reference.hasLineageReferences_iff : r.hasLineageReferences pinning = true ↔
      pinning = true ∧ r.ownedByUs = true ∧ r.isReconstructable = false ∧ 0 < r.lineageRefCount := by
  simp [Reference.hasLineageReferences, and_assoc]

lemma Reference.shouldDelete_iff : r.shouldDelete pinning = true ↔
      r.outOfScope pinning = true ∧ (pinning = true → r.lineageRefCount = 0) := by
  cases pinning <;> simp [Reference.shouldDelete]

/-- `rpc::ObjectReferenceCount`: what a borrower reports about one id. -/
structure ReferenceCountProto where
  ownerAddress : Option WorkerAddress
  hasLocalRef : Bool
  borrowers : List WorkerAddress
  storedInObjects : List (ObjectID × WorkerAddress)
  containedInBorrowedIds : List ObjectID
  contains : List ObjectID
  deriving DecidableEq, Repr

abbrev ReferenceTableProto := List (ObjectID × ReferenceCountProto)

def Reference.toProto (r : Reference) : ReferenceCountProto where
  ownerAddress := r.ownerAddress
  hasLocalRef := decide (0 < r.refCount)
  borrowers := r.borrowers
  storedInObjects := r.storedInObjects
  containedInBorrowedIds := r.containedInBorrowedIds
  contains := r.contains

/-- A missing owner address reads as the empty message, whose worker id is nil. -/
def Reference.fromProto (p : ReferenceCountProto) : Reference where
  ownerAddress := some (p.ownerAddress.getD ⟨WorkerID.nil, 0⟩)
  localRefCount := if p.hasLocalRef then 1 else 0
  borrowers := p.borrowers.dedup
  storedInObjects := p.storedInObjects
  contains := p.contains.dedup
  containedInBorrowedIds := p.containedInBorrowedIds.dedup

def referenceTableToProto (table : ReferenceTable) : ReferenceTableProto :=
  table.entries.map fun e => (e.1, e.2.toProto)

/-- `emplace` keeps the first entry of an id. -/
def referenceTableFromProto (proto : ReferenceTableProto) : ReferenceTable :=
  proto.foldl (fun t e => match t.lookup e.1 with
    | some _ => t
    | none => t.insert e.1 (Reference.fromProto e.2)) ∅

/-- The checks that stop the process: those of `ReferenceCounter`, of `TaskManager` and of the resolver.
`danglingIterator` is a use of an erased entry, `stackOverflow` a recursion deeper than the stack. -/
inductive Check where
  | danglingIterator
  | stackOverflow
  | ownedObjectExists
  | reconstructableIndexTaken
  | removeNonexistentOwned
  | removeOwnedInUse
  | containedInOwnedMissing
  | containedInBorrowedMissing
  | nilObjectId
  | nestedOuterMissing
  | resubmittedMissing
  | borrowerNil
  | submittedTaskRefCountZero
  | lineageWithRefRemovedCallback
  | eraseInUse
  | evictMissing
  | pinnedNotOwned
  | borrowedIdMissing
  | mergedOwnerUnknown
  | cleanupMissing
  | cleanupNotBorrower
  | waitNotOwned
  | nestedOwnerNil
  | outerNotOwned
  | storedInTwice
  | borrowerAddressMissing
  | borrowerAddressNotOwned
  | borrowerIsOwner
  | localityOfOwned
  | taskAlreadyAdded
  | resubmitRetriesLeft
  | completeUnknownTask
  | retryUnknownTask
  | retryNotPending
  | retryRetriesLeft
  | failUnknownTask
  | failNotPending
  | dependencyNull
  | dependenciesNotFound
  deriving DecidableEq, Repr

/-- Messages to the publisher and the subscriber. An update of locations carries the entry it is filled from. -/
inductive Outgoing where
  | objectLocations (id : ObjectID) (ref : Reference)
  | objectLocationsLost (id : ObjectID)
  | refRemoved (id : ObjectID) (borrowedRefs : ReferenceTableProto)
  | waitForRefRemoved (id : ObjectID) (borrower : WorkerAddress) (containedIn : ObjectID)
  deriving DecidableEq, Repr

/-- What the history records: an out-of-scope branch begins (with the table), the borrowers of an id are collected, an
id is put under an outer object, an argument loses its last lineage reference (with the releases in progress), a
borrowed id is popped, an entry is erased (with the table left). `again`: an id was un-nested before and not put under
again. -/
inductive Event where
  | unnest (id : ObjectID) (ref : Reference) (table : ReferenceTable) (again : Bool)
  | collect (id : ObjectID) (again : Bool)
  | nest (outer : ObjectID) (ref : Reference)
  | releaseArgument (id : ObjectID) (ref : Reference) (releasing : List ObjectID)
  | pop (id : ObjectID) (ref : Option Reference)
  | erase (id : ObjectID) (ref : Reference) (rest : ReferenceTable)

/-- `τ` is the state behind `on_lineage_released_`. No operation depends on `releasing`, `unnested` and `history`. -/
structure State (τ : Type) where
  refs : ReferenceTable := ∅
  freedObjects : List ObjectID := []
  reconstructableOwnedObjects : List ObjectID := []
  shutdownHook : Bool := false
  shutdowns : Nat := 0
  outbox : List Outgoing := []
  onDeleteCalls : List ObjectID := []
  deleted : List ObjectID := []
  lineage : τ
  releasing : List ObjectID := []
  unnested : List (ObjectID × ObjectID) := []
  history : List Event := []

/-- The callback returns the bytes released and the arguments released. -/
structure Config (τ : Type) where
  rpcAddress : WorkerAddress
  lineagePinningEnabled : Bool
  onLineageReleased : Option (ObjectID → τ → Int × List ObjectID × τ)
  stackDepth : Nat

abbrev RefM (τ : Type) := EStateM Check (State τ)

end AmazonRay.ReferenceCounter
