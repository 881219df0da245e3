import AmazonRay.Lib.Runs
import AmazonRay.LocalObjects.Manager

/-! What the programs of a `LocalObjectManager` do, and what the longer ones keep. -/
namespace AmazonRay.LocalObjects.Manager
open Program

def restored (id : ObjectID) (object : PinnedObject) (m : Manager) : Manager := { m with
  pinnedObjectsSize := m.pinnedObjectsSize + object.size
  numBytesPendingSpill := m.numBytesPendingSpill - object.size
  pinnedObjects := emplace id object m.pinnedObjects
  objectsPendingSpill := m.objectsPendingSpill.erase id }

def spilledAt (spilled : ObjectID × Url) (base : Url) (object : PinnedObject) (m : Manager) : Manager := { m with
  urlRefCount := m.urlRefCount.insert base (((m.urlRefCount.lookup base).getD 0) + 1)
  spilledObjectsUrl := emplace spilled.1 spilled.2 m.spilledObjectsUrl
  numBytesPendingSpill := m.numBytesPendingSpill - object.size
  objectsPendingSpill := m.objectsPendingSpill.erase spilled.1
  calls := m.calls ++ [.addSpilledUrl spilled.1 spilled.2 object.size object.ownerAddress] }

def dropped (id : ObjectID) (base : Url) (count : UInt64) (m : Manager) : Manager := { m with
  urlRefCount := if count - 1 = 0 then m.urlRefCount.erase base else m.urlRefCount.insert base (count - 1)
  spilledObjectsUrl := m.spilledObjectsUrl.erase id }

lemma mem_emplace {κ α : Type} [DecidableEq κ] {k x : κ} {a : α} {t : AList fun _ : κ => α} :
    x ∈ emplace k a t ↔ x = k ∨ x ∈ t := by
  unfold emplace
  split
  case isTrue hk =>
    constructor
    · exact .inr
    · rintro (rfl | hx)
      · exact hk
      · exact hx
  · exact AList.mem_insert t

section

variable {m : Manager}

lemma triple_restorePinned (id : ObjectID) : Yields m (restorePinned id)
      fun _ t => ∃ object, m.objectsPendingSpill.lookup id = some object ∧ t = m.restored id object := by
  apply Triple.seen
  split
  · exact .throw fun _ _ => trivial
  case h_2 object hobject => exact .updated ⟨object, hobject, rfl⟩

lemma triple_parse (url : Url) : Yields m (parse url) fun base t => parseURL url = .ok base ∧ t = m := by
  unfold parse
  split
  case h_1 base hbase => exact .done ⟨hbase, rfl⟩
  · exact .throw fun _ _ => trivial

lemma triple_onObjectSpilled (spilled : ObjectID × Url) : Yields m (onObjectSpilled spilled)
      fun _ t => ∃ base object, parseURL spilled.2 = .ok base ∧
        m.objectsPendingSpill.lookup spilled.1 = some object ∧ t = m.spilledAt spilled base object := by
  refine .call (triple_parse spilled.2) ?_
  rintro base _ ⟨hbase, rfl⟩
  refine .modified (.seen ?_)
  split
  · exact .throw fun _ _ => trivial
  case h_2 object hobject => exact .modified (.updated ⟨base, object, hbase, hobject, rfl⟩)

lemma triple_dropSpilled (id : ObjectID) (urlsToDelete : List Url) : Yields m (dropSpilled id urlsToDelete)
      fun urls t => (m.spilledObjectsUrl.lookup id = none ∧ t = m ∧ urls = urlsToDelete) ∨
        ∃ url base count, m.spilledObjectsUrl.lookup id = some url ∧ parseURL url = .ok base ∧
          m.urlRefCount.lookup base = some count ∧ t = m.dropped id base count ∧
          urls = if count - 1 = 0 then urlsToDelete ++ [url] else urlsToDelete := by
  apply Triple.seen
  split
  case h_1 hnone => exact .done (Or.inl ⟨hnone, rfl, rfl⟩)
  case h_2 url hurl =>
    refine .call (triple_parse url) ?_
    rintro base _ ⟨hbase, rfl⟩
    apply Triple.seen
    split
    · exact .throw fun _ _ => trivial
    case h_2 count hcount =>
      exact .modified (.done (.inr ⟨url, base, count, hurl, hbase, hcount, rfl, rfl⟩))

end

def Keeps (P : Manager → Prop) {α : Type} (x : ManagerM α) : Prop := Triple P x (fun _ => P) fun _ _ => True

variable {P Q : Manager → Prop}

lemma keeps_composes (P : Manager → Prop) : Composes fun _ x => Keeps P x := composes_triple P fun _ _ => True

lemma keeps_get : Keeps P get := .get fun _ h => h

lemma keeps_pinObjects (owner : WorkerAddress) (objects : List (ObjectID × Option UInt64))
    (hpin : ∀ m id size, P m → P { m with
      pinnedObjectsSize := m.pinnedObjectsSize + size
      pinnedObjects := emplace id ⟨size, owner⟩ m.pinnedObjects
      released := m.released.filter (· ≠ id) }) : Keeps P (pinObjects objects owner) := by
  refine (keeps_composes P).forM (fun object => ?_) objects
  unfold pinObject
  split
  · exact (keeps_composes P).pure ()
  · exact .update fun m h => hpin m _ _ h

lemma keeps_chooseObjects (hset : ∀ m id object, P m → m.pinnedObjects.lookup id = some object →
    P (m.setPending id object)) (ids chosen : List ObjectID) : Keeps P (chooseObjects ids chosen) := by
  induction ids generalizing chosen with
  | nil => exact (keeps_composes P).pure _
  | cons id ids ih =>
    refine .read fun m h => ?_
    split
    case h_1 object hobject => exact .bind (.updated (hset m id object h hobject)) fun _ => ih _
    · exact .ite (fun _ => (ih chosen).pre fun _ ht => ht ▸ h) fun _ => .done h

def deletedBy : Call → List Url
  | .deleteSpilledObjects urls => urls
  | _ => []

section

variable (hcall : ∀ m c, P m → deletedBy c = [] → P { m with calls := m.calls ++ [c] })
include hcall

lemma keeps_answer (callback : Option ℕ) (status : Status) : Keeps P (answer callback status) := by
  cases callback with
  | none => exact (keeps_composes P).pure ()
  | some id => exact .update fun m hm => hcall m _ hm rfl

lemma keeps_onSpillReply {request : SpillRequest} {reply : Option (List Url)} {R : Manager → Prop}
    (hactive : ∀ m, R m → P { m with numActiveWorkers := m.numActiveWorkers - 1 })
    (hrestore : ∀ id ∈ request.objectsToSpill.drop (reply.getD []).length, ∀ m object, P m →
      m.objectsPendingSpill.lookup id = some object → P (m.restored id object))
    (hspilled : ∀ m spilled base object, P m → parseURL spilled.2 = .ok base →
      m.objectsPendingSpill.lookup spilled.1 = some object → P (m.spilledAt spilled base object)) :
    Partly R (onSpillReply request reply) fun _ => P := by
  refine .bind (Q := fun _ => P) (.update hactive) fun _ => ?_
  refine .seq (.tested fun _ _ => trivial) ?_
  refine .seq (.forM_mem fun id hid => ?_) ?_
  · refine .each fun m hm => (triple_restorePinned id).post ?_
    rintro _ _ ⟨object, hobject, rfl⟩
    exact hrestore id hid m object hm hobject
  refine .seq ((keeps_composes P).forM (fun spilled => ?_) _) (keeps_answer hcall _ _)
  refine .each fun m hm => (triple_onObjectSpilled spilled).post ?_
  rintro _ _ ⟨base, object, hbase, hobject, rfl⟩
  exact hspilled m spilled base object hm hbase hobject

end

/-- The property depends neither on the calls made nor on the objects to free, and objects may be unpinned. -/
structure Indifferent (P : Manager → Prop) : Prop where
  call : ∀ m c, P m → deletedBy c = [] → P { m with calls := m.calls ++ [c] }
  free : ∀ m ids, P m → P { m with objectsToFree := ids }
  unpin : ∀ m id, P m → P (m.unpin id)

/-- Pinned objects may also be spilled. -/
structure Closed (P : Manager → Prop) : Prop extends Indifferent P where
  setPending : ∀ m id object, P m → m.pinnedObjects.lookup id = some object → P (m.setPending id object)
  spills : ∀ m active waiting sent, P m →
    P { m with numActiveWorkers := active, waitingSpills := waiting, sentSpills := sent }

namespace Indifferent

lemma flushFreeObjects (h : Indifferent P) {config : Config}
    (hprocess : ∀ n, Partly P (processSpilledObjectsDeleteQueue n) (fun _ => Q)) :
    Partly P (flushFreeObjects config) fun _ => Q := by
  refine .bind keeps_get fun m => .seq ((keeps_composes P).onlyIf fun _ => ?_) (hprocess _)
  refine (keeps_composes P).seq (.update fun m hm => h.call m _ hm rfl) ?_
  exact .update fun m hm => h.free m [] hm

lemma releaseFreedObject (h : Indifferent P) {config : Config} (id : ObjectID) (hPQ : ∀ m, P m → Q m)
    (hprocess : ∀ n, Partly P (processSpilledObjectsDeleteQueue n) (fun _ => Q)) :
    Partly P (releaseFreedObject config id) fun _ => Q := by
  refine .bind keeps_get fun m => .testing ?_
  refine .bind (Q := fun _ => P) (.update fun m hm => h.unpin m id hm) fun _ => ?_
  refine .seq ((keeps_composes P).onlyIf fun _ => .update fun m hm => h.free m _ hm) ?_
  exact .bind keeps_get fun m => .onlyIf (fun _ => h.flushFreeObjects hprocess) fun _ => hPQ

end Indifferent

namespace Closed

lemma spillObjectsInternal (h : Closed P) (ids : List ObjectID) (callback : Option ℕ) :
    Keeps P (spillObjectsInternal ids callback) := by
  refine .bind (keeps_chooseObjects h.setPending ids []) fun chosen => ?_
  split
  · exact keeps_answer h.call _ _
  · exact keeps_answer h.call _ _
  · exact .update fun m hm => h.spills m _ _ _ hm

lemma spillObjectsOfSize (h : Closed P) (config : Config) (choice : SpillChoice) (numBytes : ℤ) :
    Keeps P (spillObjectsOfSize config choice numBytes) := by
  refine (keeps_composes P).ite (fun _ => (keeps_composes P).pure _) fun _ => ?_
  refine .bind keeps_get fun m => ?_
  split
  · exact (keeps_composes P).pure _
  · exact (keeps_composes P).seq (h.spillObjectsInternal _ _) ((keeps_composes P).pure _)

lemma spillRounds (h : Closed P) (config : Config) (choices : ℕ → SpillChoice) (rounds : ℕ) :
    Keeps P (spillRounds config choices rounds) := by
  induction rounds with
  | zero => exact (keeps_composes P).pure ()
  | succ rounds ih =>
    refine .bind (h.spillObjectsOfSize _ _ _) fun spilled => ?_
    refine (keeps_composes P).ite (fun _ => ?_) fun _ => (keeps_composes P).pure ()
    refine (keeps_composes P).seq (.update fun m hm => h.spills m _ _ _ hm) ?_
    refine .bind keeps_get fun m => ?_
    exact (keeps_composes P).ite (fun _ => ih) fun _ => (keeps_composes P).pure ()

lemma spillObjectUptoMaxThroughput (h : Closed P) (config : Config) (choices : ℕ → SpillChoice) :
    Keeps P (spillObjectUptoMaxThroughput config choices) :=
  .bind keeps_get fun _ => (keeps_composes P).onlyIf fun _ => h.spillRounds _ _ _

lemma spillWorkerPopped (h : Closed P) (i : ℕ) : Keeps P (spillWorkerPopped i) := by
  refine .bind keeps_get fun m => ?_
  split
  · exact (keeps_composes P).pure ()
  · refine (keeps_composes P).seq (.update fun m hm => h.spills m _ _ _ hm) ?_
    refine .bind keeps_get fun m => ?_
    refine .seq (.tested fun _ _ => trivial) ?_
    exact .update fun m hm => h.spills m _ _ _ hm

end Closed

end AmazonRay.LocalObjects.Manager
