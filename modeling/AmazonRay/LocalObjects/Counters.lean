import AmazonRay.Lib.Table
import AmazonRay.LocalObjects.FreedObjects

/-! The counters of a `LocalObjectManager`. A pinned object is in no other table if no known one is pinned again. -/
namespace AmazonRay.LocalObjects
open Program List Table Manager Nat

namespace Manager

def sizes (t : AList fun _ : ObjectID => PinnedObject) : UInt64 := Table.total (fun _ object => object.size) t

def numUrlsAt (base : Url) (m : Manager) : ℕ :=
  m.spilledObjectsUrl.entries.countP fun e => parseURL e.2 = .ok base

def refCount (n : ℕ) : Option UInt64 := if n = 0 then none else some (UInt64.ofNat n)

def numKnown (m : Manager) : ℕ :=
  m.pinnedObjects.entries.length + m.objectsPendingSpill.entries.length + m.spilledObjectsUrl.entries.length

def deletedUrls (m : Manager) : List Url := m.calls.flatMap deletedBy

structure CountersMatch (m : Manager) : Prop where
  pinned : m.pinnedObjectsSize = sizes m.pinnedObjects
  pending : m.numBytesPendingSpill = sizes m.objectsPendingSpill
  urls : ∀ base, m.urlRefCount.lookup base = refCount (m.numUrlsAt base)

/-- The files deleted between the states are those whose count has fallen to zero. -/
def DeletesUncounted (m t : Manager) : Prop :=
  ∃ urls, t.deletedUrls = m.deletedUrls ++ urls ∧ (urls.map parseURL).Nodup ∧
    (∀ url ∈ urls, ∃ base, parseURL url = .ok base) ∧
    ∀ base, .ok base ∈ urls.map parseURL ↔ base ∈ m.urlRefCount ∧ base ∉ t.urlRefCount

structure Counted (m : Manager) : Prop extends CountersMatch m where
  pinnedOnly : ∀ id ∈ m.pinnedObjects, id ∉ m.objectsPendingSpill ∧ id ∉ m.spilledObjectsUrl
  pendingOnly : ∀ id ∈ m.objectsPendingSpill, id ∉ m.spilledObjectsUrl
  few : m.numKnown < 2 ^ 64

section

variable {κ α M : Type} [DecidableEq κ] [AddCommMonoid M] {t : AList fun _ : κ => α} {k : κ} {a : α} (f : κ → α → M)

lemma emplace_of_notMem (h : k ∉ t) (a : α) : emplace k a t = t.insert k a := if_neg h

lemma total_insert_new (h : k ∉ t) (a : α) : total f (t.insert k a) = f k a + total f t := by
  rw [total_insert, total_erase_of_lookup_none (AList.lookup_eq_none.mpr h)]

omit [DecidableEq κ] in
lemma length_eq_total (t : AList fun _ : κ => α) : t.entries.length = total (fun _ _ => 1) t := by
  simp [total]

lemma length_erase (h : t.lookup k = some a) : (t.erase k).entries.length + 1 = t.entries.length := by
  rw [length_eq_total, length_eq_total t, total_of_lookup h, add_comm]

lemma length_insert_new (h : k ∉ t) (a : α) : (t.insert k a).entries.length = t.entries.length + 1 := by
  rw [length_eq_total, total_insert_new _ h, length_eq_total, add_comm]

lemma length_erase_le (t : AList fun _ : κ => α) (k : κ) : (t.erase k).entries.length ≤ t.entries.length := by
  cases h : t.lookup k with
  | none => exact (kerase_of_notMem_keys (AList.lookup_eq_none.mp h) ▸ le_rfl)
  | some => exact le_of_lt (lt_of_succ_le (length_erase h).le)

end

variable {m : Manager} {id : ObjectID} {object : PinnedObject} {base : Url} {t : Manager} {count : UInt64}

lemma numUrlsAt_eq_total (base : Url) (m : Manager) : m.numUrlsAt base =
    total (fun _ url => if parseURL url = .ok base then 1 else 0) m.spilledObjectsUrl := by
  rw [numUrlsAt, ← total_indicator fun _ url => decide (parseURL url = .ok base)]
  simp

namespace Counted

section

variable (h : m.Counted)
include h

lemma pin (hnew : id ∉ m.pinnedObjects ∧ id ∉ m.objectsPendingSpill ∧ id ∉ m.spilledObjectsUrl)
    (hfew : m.numKnown + 1 < 2 ^ 64) (object : PinnedObject) (released : List ObjectID) : Counted { m with
      pinnedObjectsSize := m.pinnedObjectsSize + object.size
      pinnedObjects := emplace id object m.pinnedObjects
      released } := by
  refine ⟨⟨?_, h.pending, h.urls⟩, fun x hx => ?_, h.pendingOnly, ?_⟩
  · rw [sizes, emplace_of_notMem hnew.1, total_insert_new _ hnew.1, h.pinned, add_comm]
    rfl
  · rcases mem_emplace.mp hx with rfl | hx
    · exact hnew.2
    · exact h.pinnedOnly x hx
  · simp only [numKnown, emplace_of_notMem hnew.1, length_insert_new hnew.1] at hfew ⊢
    omega

lemma setPending (hid : m.pinnedObjects.lookup id = some object) : (m.setPending id object).Counted := by
  have hnot := h.pinnedOnly id (mem_of_lookup hid)
  refine ⟨⟨?_, ?_, h.urls⟩, fun x hx => ?_, fun x hx => ?_, ?_⟩
  · simp only [Manager.setPending, h.pinned, sizes, total_of_lookup hid, add_sub_cancel_left]
  · simp only [Manager.setPending, h.pending, sizes, total_insert_new _ hnot.1, add_comm]
  · obtain ⟨hne, hx⟩ := AList.mem_erase.mp hx
    exact ⟨fun hp => (h.pinnedOnly x hx).1 (((AList.mem_insert _).mp hp).resolve_left hne), (h.pinnedOnly x hx).2⟩
  · rcases (AList.mem_insert _).mp hx with rfl | hx
    · exact hnot.2
    · exact h.pendingOnly x hx
  · have := h.few
    have := length_erase hid
    simp only [numKnown, Manager.setPending, length_insert_new hnot.1] at *
    omega

lemma restored (hid : m.objectsPendingSpill.lookup id = some object) : (m.restored id object).Counted := by
  have hmem := mem_of_lookup hid
  have hnot : id ∉ m.pinnedObjects := fun hp => (h.pinnedOnly id hp).1 hmem
  refine ⟨⟨?_, ?_, h.urls⟩, fun x hx => ?_, fun x hx => h.pendingOnly x (AList.mem_erase.mp hx).2, ?_⟩
  · simp only [Manager.restored, h.pinned, sizes, emplace_of_notMem hnot, total_insert_new _ hnot, add_comm]
  · simp only [Manager.restored, h.pending, sizes, total_of_lookup hid, add_sub_cancel_left]
  · rcases mem_emplace.mp hx with rfl | hx
    · exact ⟨fun hp => (AList.mem_erase.mp hp).1 rfl, h.pendingOnly x hmem⟩
    · exact ⟨fun hp => (h.pinnedOnly x hx).1 (AList.mem_erase.mp hp).2, (h.pinnedOnly x hx).2⟩
  · have := h.few
    have := length_erase hid
    simp only [numKnown, Manager.restored, emplace_of_notMem hnot, length_insert_new hnot] at *
    omega

lemma unpin (id : ObjectID) : (m.unpin id).Counted := by
  refine ⟨⟨?_, h.pending, h.urls⟩, fun x hx => h.pinnedOnly x (AList.mem_erase.mp hx).2, h.pendingOnly, ?_⟩
  · cases hid : m.pinnedObjects.lookup id with
    | none => simp [Manager.unpin, h.pinned, sizes, hid, total_erase_of_lookup_none hid]
    | some => simp [Manager.unpin, h.pinned, sizes, hid, total_of_lookup hid]
  · have := h.few
    have := length_erase_le m.pinnedObjects id
    simp only [numKnown, Manager.unpin] at *
    omega

lemma numUrlsAt_lt (base : Url) : m.numUrlsAt base < 2 ^ 64 := by
  have hle : m.numUrlsAt base ≤ m.spilledObjectsUrl.entries.length := countP_le_length
  have := h.few
  simp only [numKnown] at this
  omega

lemma spilledAt {spilled : ObjectID × Url} (hbase : parseURL spilled.2 = .ok base)
    (hid : m.objectsPendingSpill.lookup spilled.1 = some object) : (m.spilledAt spilled base object).Counted := by
  have hmem := mem_of_lookup hid
  have hnot := h.pendingOnly spilled.1 hmem
  have hcount b : (m.spilledAt spilled base object).numUrlsAt b = (if base = b then 1 else 0) + m.numUrlsAt b := by
    rw [numUrlsAt_eq_total, numUrlsAt_eq_total, Manager.spilledAt, emplace_of_notMem hnot, total_insert_new _ hnot, hbase]
    simp
  refine ⟨⟨h.pinned, ?_, fun b => ?_⟩, fun x hx => ?_, fun x hx hs => ?_, ?_⟩
  · simp [Manager.spilledAt, h.pending, sizes, total_of_lookup hid]
  · rw [hcount, Manager.spilledAt, lookup_insert]
    by_cases hb : b = base
    · subst hb
      rw [if_pos rfl, if_pos rfl, h.urls]
      by_cases hzero : m.numUrlsAt b = 0
      · simp [refCount, hzero]
      · simp [refCount, hzero, UInt64.ofNat_add, add_comm]
    · rw [if_neg hb, if_neg (Ne.symm hb), zero_add, h.urls]
  · refine ⟨fun hp => (h.pinnedOnly x hx).1 (AList.mem_erase.mp hp).2, fun hs => ?_⟩
    rcases mem_emplace.mp hs with rfl | hs
    · exact (h.pinnedOnly _ hx).1 hmem
    · exact (h.pinnedOnly x hx).2 hs
  · obtain ⟨hne, hx⟩ := AList.mem_erase.mp hx
    exact h.pendingOnly x hx ((mem_emplace.mp hs).resolve_left hne)
  · have := h.few
    have := length_erase hid
    simp only [numKnown, Manager.spilledAt, emplace_of_notMem hnot, length_insert_new hnot] at *
    omega

end

variable {url : Url} {count : UInt64}

lemma sub_one_eq_zero (h : m.Counted) (hcount : m.urlRefCount.lookup base = some count) :
    count - 1 = 0 ↔ m.numUrlsAt base = 1 := by
  rw [h.urls, refCount] at hcount
  split at hcount
  · cases hcount
  · cases hcount
    have hlt := h.numUrlsAt_lt base
    constructor
    · intro hone
      have := congrArg UInt64.toNat (sub_eq_zero.mp hone)
      simp only [UInt64.toNat_ofNat', mod_eq_of_lt hlt] at this
      exact this
    · intro hone
      rw [hone]
      decide

lemma dropped (h : m.Counted) (hurl : m.spilledObjectsUrl.lookup id = some url) (hbase : parseURL url = .ok base)
    (hcount : m.urlRefCount.lookup base = some count) : (m.dropped id base count).Counted := by
  have hnum b : m.numUrlsAt b = (if base = b then 1 else 0) + (m.dropped id base count).numUrlsAt b := by
    rw [numUrlsAt_eq_total, numUrlsAt_eq_total, total_of_lookup hurl, hbase]
    simp [Manager.dropped]
  have hlookup b : (m.dropped id base count).urlRefCount.lookup b =
      if b = base then (if m.numUrlsAt base = 1 then none else some (count - 1)) else m.urlRefCount.lookup b := by
    simp only [Manager.dropped, lookup_eraseOrInsert, h.sub_one_eq_zero hcount]
  refine ⟨⟨h.pinned, h.pending, fun b => ?_⟩, fun x hx => ?_, fun x hx hs => ?_, ?_⟩
  · rw [hlookup]
    have hb' := hnum b
    by_cases hb : b = base
    · subst hb
      rw [if_pos rfl] at hb' ⊢
      by_cases hone : m.numUrlsAt b = 1
      · rw [if_pos hone, refCount, if_pos]
        exact add_left_cancel (hb'.symm.trans hone)
      · generalize (m.dropped id b count).numUrlsAt b = n at hb' ⊢
        rw [h.urls, refCount, if_neg (by omega), hb'] at hcount
        rw [if_neg hone, refCount, if_neg (by omega), ← Option.some.inj hcount]
        simp [UInt64.ofNat_add]
    · rw [if_neg hb, h.urls, hb', if_neg (Ne.symm hb), zero_add]
  · exact ⟨(h.pinnedOnly x hx).1, fun hs => (h.pinnedOnly x hx).2 (AList.mem_erase.mp hs).2⟩
  · exact h.pendingOnly x hx (AList.mem_erase.mp hs).2
  · have := h.few
    have := length_erase hurl
    simp only [numKnown, Manager.dropped] at *
    omega

end Counted

lemma closed_counted {R : Manager → Prop} (hR : ∀ m t, R m → t.deletedUrls = m.deletedUrls →
    t.urlRefCount = m.urlRefCount → R t) : Closed fun m => m.Counted ∧ R m where
  setPending m _ _ h hid := ⟨h.1.setPending hid, hR m _ h.2 rfl rfl⟩
  unpin m id h := ⟨h.1.unpin id, hR m _ h.2 rfl rfl⟩
  spills m _ _ _ h := ⟨{ h.1 with }, hR m _ h.2 rfl rfl⟩
  call m c h hc := ⟨{ h.1 with }, hR m _ h.2 (by simp [deletedUrls, hc]) rfl⟩
  free m _ h := ⟨{ h.1 with }, hR m _ h.2 rfl rfl⟩

def KeepsFiles (m t : Manager) : Prop :=
  t.deletedUrls = m.deletedUrls ∧ ∀ base ∈ m.urlRefCount, base ∈ t.urlRefCount

lemma KeepsFiles.deletesUncounted (h : KeepsFiles m t) : DeletesUncounted m t := by
  refine ⟨[], by rw [h.1, append_nil], nodup_nil, nofun, fun base => ?_⟩
  constructor
  · intro hbase
    cases hbase
  · intro hbase
    exact absurd (h.2 base hbase.1) hbase.2

lemma closed_keepsFiles (m : Manager) : Closed fun t => t.Counted ∧ KeepsFiles m t :=
  closed_counted fun _ _ ht hdeleted hcounts => ⟨hdeleted.trans ht.1, hcounts ▸ ht.2⟩

lemma counted_spillReply (m : Manager) (i : ℕ) (reply : Option (List Url)) :
    Keeps (fun t => t.Counted ∧ KeepsFiles m t) (spillReply i reply) := by
  refine .bind keeps_get fun t => ?_
  split
  · exact (keeps_composes _).pure ()
  · have hclosed := closed_keepsFiles m
    refine (keeps_composes _).seq (.update fun t ht => hclosed.spills t _ _ _ ht) ?_
    refine keeps_onSpillReply hclosed.call (fun t ht => hclosed.spills t _ _ _ ht) (fun id _ t object ht hid => ?_)
      fun t spilled base object ht hbase hid => ?_
    · exact ⟨ht.1.restored hid, ht.2⟩
    · refine ⟨ht.1.spilledAt hbase hid, ?_, fun b hb => (AList.mem_insert _).mpr (.inr (ht.2.2 b hb))⟩
      simpa [deletedUrls, spilledAt, deletedBy] using ht.2.1

def pinnedIds (objects : List (ObjectID × Option UInt64)) : List ObjectID :=
  objects.filterMap fun object => object.2.map fun _ => object.1

def Unknown (id : ObjectID) (m : Manager) : Prop :=
  id ∉ m.pinnedObjects ∧ id ∉ m.objectsPendingSpill ∧ id ∉ m.spilledObjectsUrl

structure Pinnable (ids : List ObjectID) (m : Manager) : Prop where
  distinct : ids.Nodup
  unknown : ∀ id ∈ ids, m.Unknown id
  few : m.numKnown + ids.length < 2 ^ 64

lemma counted_pinObjects (m : Manager) (objects : List (ObjectID × Option UInt64)) (owner : WorkerAddress) :
    Partly (fun t => (t.Counted ∧ KeepsFiles m t) ∧ t.Pinnable (pinnedIds objects)) (pinObjects objects owner)
      fun _ t => t.Counted ∧ KeepsFiles m t := by
  refine (Triple.forM (I := fun rest t => (t.Counted ∧ KeepsFiles m t) ∧ t.Pinnable (pinnedIds rest))
    (fun object rest => ?_) objects).post fun _ _ ht => ht.1
  unfold pinObject
  split
  case h_1 hnone => exact .pure fun t ht => ⟨ht.1, by simpa [pinnedIds, hnone] using ht.2⟩
  case h_2 size hsize =>
    refine .update fun t ht => ?_
    have hids : pinnedIds (object :: rest) = object.1 :: pinnedIds rest := by simp [pinnedIds, hsize]
    have hp := hids ▸ ht.2
    obtain ⟨hnot, hrest⟩ := nodup_cons.mp hp.distinct
    have hnew := hp.unknown object.1 mem_cons_self
    have hfew := hp.few
    rw [length_cons] at hfew
    refine ⟨⟨ht.1.1.pin hnew (by omega) ⟨size, owner⟩ _, ht.1.2⟩, hrest, fun id hid => ?_, ?_⟩
    · obtain ⟨hpinned, hother⟩ := hp.unknown id (mem_cons_of_mem _ hid)
      refine ⟨fun hm => ?_, hother⟩
      rcases mem_emplace.mp hm with rfl | hm
      · exact hnot hid
      · exact hpinned hm
    · simp only [numKnown, emplace_of_notMem hnew.1, length_insert_new hnew.1] at hfew ⊢
      omega

/-- Files lose their objects one by one, and the URLs of the empty ones are collected. -/
structure Dropping (m : Manager) (urls : List Url) (t : Manager) : Prop where
  deleted : t.deletedUrls = m.deletedUrls
  counts : ∀ base ∈ t.urlRefCount, base ∈ m.urlRefCount
  distinct : (urls.map parseURL).Nodup
  parses : ∀ url ∈ urls, ∃ base, parseURL url = .ok base
  urls : ∀ base, .ok base ∈ urls.map parseURL ↔ base ∈ m.urlRefCount ∧ base ∉ t.urlRefCount

lemma mem_dropped (hcount : m.urlRefCount.lookup base = some count) (b : Url) :
    b ∈ (m.dropped id base count).urlRefCount ↔ b ∈ m.urlRefCount ∧ ¬(b = base ∧ count - 1 = 0) := by
  have hmem := mem_of_lookup hcount
  unfold dropped
  by_cases hzero : count - 1 = 0
  · simp only [hzero, if_true, AList.mem_erase, and_true]
    exact and_comm
  · simp only [hzero, if_false, AList.mem_insert, and_false, not_false_eq_true, and_true, or_iff_right_iff_imp]
    rintro rfl
    exact hmem

lemma Dropping.dropped {urls : List Url} {url : Url} (h : Dropping m urls t)
    (hbase : parseURL url = .ok base) (hcount : t.urlRefCount.lookup base = some count) (id : ObjectID) :
    Dropping m (if count - 1 = 0 then urls ++ [url] else urls) (t.dropped id base count) := by
  have hmem := mem_of_lookup hcount
  have hold := h.urls
  refine ⟨h.deleted, fun b hb => h.counts b ((mem_dropped hcount b).mp hb).1, ?_, fun url' hurl => ?_, fun b => ?_⟩
  · split
    · have hnot : .ok base ∉ urls.map parseURL := fun hb => ((hold base).mp hb).2 hmem
      simpa [hbase, nodup_append, h.distinct] using hnot
    · exact h.distinct
  · split at hurl
    · rcases mem_append.mp hurl with hurl | hurl
      · exact h.parses url' hurl
      · exact ⟨base, mem_singleton.mp hurl ▸ hbase⟩
    · exact h.parses url' hurl
  · rw [mem_dropped hcount]
    have hb := hold b
    split
    case isTrue hzero =>
      rw [map_append, mem_append, hb]
      simp only [map_cons, map_nil, mem_singleton, hbase, Except.ok.injEq, hzero, and_true]
      constructor
      · rintro (hb | rfl)
        · exact ⟨hb.1, fun ht => hb.2 ht.1⟩
        · exact ⟨h.counts b hmem, fun ht => ht.2 rfl⟩
      · rintro ⟨hm, ht⟩
        by_cases hbt : b ∈ t.urlRefCount
        · exact .inr (not_not.mp fun hne => ht ⟨hbt, hne⟩)
        · exact .inl ⟨hm, hbt⟩
    case isFalse hzero => simp [hb, hzero]

lemma triple_processDeletes (m : Manager) (maxBatchSize : ℕ) (queue : List ObjectID) (urls : List Url) :
    Partly (fun t => t.Counted ∧ Dropping m urls t) (processDeletes maxBatchSize queue urls)
      fun urls t => t.Counted ∧ Dropping m urls t := by
  induction queue generalizing urls with
  | nil => exact .pure fun _ ht => ht
  | cons id queue ih =>
    refine .read fun t ht => .ite (fun _ => ?_) fun _ => .done ht
    refine .call (triple_dropSpilled id urls) fun urls' u hu => ?_
    refine .bind (.updated ?_) fun _ => ih urls'
    obtain ⟨-, rfl, rfl⟩ | ⟨url, base, count, hurl, hbase, hcount, rfl, rfl⟩ := hu
    · exact ⟨{ ht.1 with }, { ht.2 with }⟩
    · exact ⟨{ ht.1.dropped hurl hbase hcount with }, { ht.2.dropped hbase hcount id with }⟩

def SameFiles (m t : Manager) : Prop := t.deletedUrls = m.deletedUrls ∧ t.urlRefCount = m.urlRefCount

lemma closed_sameFiles (m : Manager) : Closed fun t => t.Counted ∧ SameFiles m t :=
  closed_counted fun _ _ ht hdeleted hcounts => ⟨hdeleted.trans ht.1, hcounts.trans ht.2⟩

lemma SameFiles.dropping (h : SameFiles m t) : Dropping m [] t := by
  refine ⟨h.1, fun b hb => h.2 ▸ hb, nodup_nil, nofun, fun b => ?_⟩
  rw [h.2]
  simp

lemma triple_processSpilledObjectsDeleteQueue (m : Manager) (maxBatchSize : ℕ) :
    Partly (fun t => t.Counted ∧ SameFiles m t) (processSpilledObjectsDeleteQueue maxBatchSize)
      fun _ t => t.Counted ∧ DeletesUncounted m t := by
  refine .bind keeps_get fun s => ?_
  refine .call ((triple_processDeletes m maxBatchSize _ []).pre fun t ht => ⟨ht.1, ht.2.dropping⟩) fun urls t ht => ?_
  obtain ⟨hcounted, hdropping⟩ := ht
  refine .when (fun _ => .updated ⟨{ hcounted with }, urls, ?_, hdropping.distinct, hdropping.parses, hdropping.urls⟩) fun hnil => ?_
  · simpa [deletedUrls, deletedBy] using hdropping.deleted
  · obtain rfl : urls = [] := not_not.mp hnil
    exact ⟨hcounted, [], by simp [hdropping.deleted], hdropping.distinct, hdropping.parses, hdropping.urls⟩

end Manager

def Op.PinsUnknown : Op → Manager → Prop
  | .pinObjects objects _, m => m.Pinnable (Manager.pinnedIds objects)
  | _, _ => True

lemma counted_run (config : Config) (op : Op) {m : Manager} (hop : op.PinsUnknown m) (h : m.Counted) :
    Yields m (op.run config) fun _ t => t.Counted ∧ m.DeletesUncounted t := by
  have hfiles : m.Counted ∧ m.KeepsFiles m := ⟨h, rfl, fun _ hb => hb⟩
  have hsame : m.Counted ∧ m.SameFiles m := ⟨h, rfl, rfl⟩
  have hclosed := closed_keepsFiles m
  have hkeeps {x : ManagerM Unit} (hx : Manager.Keeps (fun t => t.Counted ∧ m.KeepsFiles t) x) :
      Yields m x fun _ t => t.Counted ∧ m.DeletesUncounted t :=
    hx.conseq (fun _ ht => ht ▸ hfiles) (fun _ _ ht => ⟨ht.1, ht.2.deletesUncounted⟩) fun _ _ he => he
  cases op with
  | pinObjects objects owner =>
    have hpins := And.intro hfiles (show m.Pinnable (pinnedIds objects) from hop)
    exact (counted_pinObjects m objects owner).conseq (fun _ ht => ht ▸ hpins)
      (fun _ _ ht => ⟨ht.1, ht.2.deletesUncounted⟩) fun _ _ he => he
  | spillObjects => exact hkeeps (hclosed.spillObjectsInternal _ _)
  | spillObjectsOfSize choice numBytes =>
    refine hkeeps (.bind (hclosed.spillObjectsOfSize config choice numBytes) fun _ => ?_)
    exact (keeps_composes _).pure ()
  | spillObjectUptoMaxThroughput => exact hkeeps (hclosed.spillObjectUptoMaxThroughput config _)
  | spillWorkerPopped i => exact hkeeps (hclosed.spillWorkerPopped i)
  | spillReply i => exact hkeeps (counted_spillReply m i _)
  | releaseFreedObject id =>
    refine ((closed_sameFiles m).toIndifferent.releaseFreedObject id (fun t ht => ⟨ht.1, ?_⟩)
      (triple_processSpilledObjectsDeleteQueue m)).pre fun _ ht => ht ▸ hsame
    exact Manager.KeepsFiles.deletesUncounted ⟨ht.2.1, fun b hb => ht.2.2 ▸ hb⟩
  | flushFreeObjects =>
    exact ((closed_sameFiles m).toIndifferent.flushFreeObjects (triple_processSpilledObjectsDeleteQueue m)).pre
      fun _ ht => ht ▸ hsame

variable {config : Config} {m : Manager}

/-- While no known object is pinned again and the number of bytes starts at zero, the counters are read
off the tables, and the files deleted in a step are those whose count falls to zero in it. -/
theorem counters_match (h : Reaches (Op.run config) Op.PinsUnknown { numBytesPendingSpill := 0 } m) :
    m.CountersMatch ∧ ∀ (op : Op) (t : Manager), op.PinsUnknown m → op.run config m = .ok () t → m.DeletesUncounted t := by
  have hcounted : m.Counted := by
    refine h.invariant ?_ fun op s hop hs => (counted_run config op hop hs).post fun _ _ ht => ht.1
    refine ⟨⟨rfl, rfl, fun _ => rfl⟩, fun id hid => absurd hid (AList.notMem_empty id),
      fun id hid => absurd hid (AList.notMem_empty id), ?_⟩
    decide
  refine ⟨hcounted.toCountersMatch, fun op t hop hrun => ?_⟩
  exact ((counted_run config op hop hcounted).returned rfl hrun).2

instance (id : ObjectID) (m : Manager) : Decidable (m.Unknown id) := by
  unfold Manager.Unknown
  infer_instance

instance (ids : List ObjectID) (m : Manager) : Decidable (m.Pinnable ids) :=
  decidable_of_iff (ids.Nodup ∧ (∀ id ∈ ids, m.Unknown id) ∧ m.numKnown + ids.length < 2 ^ 64)
    ⟨fun h => ⟨h.1, h.2.1, h.2.2⟩, fun h => ⟨h.distinct, h.unknown, h.few⟩⟩

instance (op : Op) (m : Manager) : Decidable (op.PinsUnknown m) := by
  induction op using Op.casesOn <;> (unfold Op.PinsUnknown; infer_instance)

/-- Two objects are spilled to one file, and released one after the other. -/
theorem counters_match_fused :
    ∃ m, Reaches (Op.run smallNode) Op.PinsUnknown { numBytesPendingSpill := 0 } m ∧
      m.spilledObjectsUrl.keys = [⟨0, 2⟩] ∧ m.CountersMatch := by
  refine exists_after [.pinObjects [(⟨0, 1⟩, some 8), (⟨0, 2⟩, some 4)] ⟨0, 0⟩, .spillObjects [⟨0, 1⟩, ⟨0, 2⟩] none, .spillWorkerPopped 0,
        .spillReply 0 (some [['f', '?', 'o', '=', '0'], ['f', '?', 'o', '=', '8']]), .releaseFreedObject ⟨0, 1⟩,
        .flushFreeObjects]
    (fun m => m.spilledObjectsUrl.keys)
    [⟨0, 2⟩] (by decide +kernel) fun _ hm hv => ?_
  exact ⟨hv, (counters_match hm).1⟩

/-- An object is pinned twice. -/
theorem pinned_twice_miscounted :
    ∃ m, Reaches (Op.run smallNode) (fun _ _ => True) { numBytesPendingSpill := 0 } m ∧
      m.pinnedObjectsSize = 16 ∧ Manager.sizes m.pinnedObjects = 8 := by
  refine exists_after [.pinObjects [(⟨0, 1⟩, some 8)] ⟨0, 0⟩, .pinObjects [(⟨0, 1⟩, some 8)] ⟨0, 0⟩]
    (fun m => (m.pinnedObjectsSize, Manager.sizes m.pinnedObjects)) (16, 8)
    (by decide +kernel) fun _ _ hv => ?_
  exact ⟨(Prod.mk.inj hv).1, (Prod.mk.inj hv).2⟩

end AmazonRay.LocalObjects
