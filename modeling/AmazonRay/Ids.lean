import Mathlib

/-! Identifiers and addresses. Binary identifiers are numbers; an object id carries the id of the task that creates it.
-/
namespace AmazonRay

abbrev TaskID := Nat
abbrev WorkerID := Nat
abbrev NodeID := Nat
abbrev ActorID := Nat
abbrev PlacementGroupID := Nat

abbrev BundleID := PlacementGroupID × Nat

/-- `ObjectID::FromIndex(task_id, index)`. -/
structure ObjectID where
  taskId : TaskID
  index : Nat
  deriving DecidableEq, Repr

/-- All bytes of the nil id are set: 24 bytes of task id and 4 of index. -/
def ObjectID.nil : ObjectID := ⟨2 ^ 192 - 1, 2 ^ 32 - 1⟩

def ObjectID.isNil (id : ObjectID) : Bool := id == ObjectID.nil

/-- The 28 bytes of a nil worker id, and of a nil node id. -/
def WorkerID.nil : WorkerID := 2 ^ 224 - 1

def NodeID.nil : NodeID := 2 ^ 224 - 1

/-- `rpc::WorkerAddress` and `rpc::Address`, without the ip address and the port, which decide nothing. -/
structure WorkerAddress where
  workerId : WorkerID
  rayletId : NodeID
  deriving DecidableEq, Repr

end AmazonRay
