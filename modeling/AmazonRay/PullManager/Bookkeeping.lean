import AmazonRay.PullManager.Requests

/-! The counters and indexes of the manager say what the requests and the pointers into the queues say. -/
namespace AmazonRay.PullManager
open Program List Option

section

variable {q : Queue} {id : Nat} {e : Nat × PullBundleRequest}

def Queue.active (q : Queue) : List (Nat × PullBundleRequest) := q.bundles.filter (·.1 ≤ q.highest)

/-- Ids are positive and grow, and the pointer is null or the id of a request. -/
structure Queue.Ordered (q : Queue) : Prop where
  sorted : q.bundles.Pairwise fun e e' => e.1 < e'.1
  positive : ∀ e ∈ q.bundles, 0 < e.1
  pointer : q.highest = 0 ∨ ∃ e ∈ q.bundles, e.1 = q.highest

variable {R : ObjectID → Nat → Prop}

lemma Queue.Ordered.split (h : q.Ordered) (he : e ∈ q.bundles) :
    ∃ before after, q.bundles = before ++ e :: after ∧ (∀ x ∈ before, x.1 < e.1) ∧ ∀ x ∈ after, e.1 < x.1 := by
  obtain ⟨before, after, hsplit⟩ := append_of_mem he
  have hsorted := h.sorted
  rw [hsplit, pairwise_append] at hsorted
  refine ⟨before, after, hsplit, fun x hx => hsorted.2.2 x hx e mem_cons_self, ?_⟩
  exact fun x hx => (pairwise_cons.mp hsorted.2.1).1 x hx

lemma Queue.Ordered.eq_of_id_eq (h : q.Ordered) {e' : Nat × PullBundleRequest} (he : e ∈ q.bundles)
    (he' : e' ∈ q.bundles) (hid : e'.1 = e.1) : e' = e := by
  obtain ⟨before, after, hsplit, hbefore, hafter⟩ := h.split he
  rw [hsplit, mem_append, mem_cons] at he'
  rcases he' with hx | hx | hx
  · exact absurd hid (hbefore e' hx).ne
  · exact hx
  · exact absurd hid (hafter e' hx).ne'

lemma Queue.Ordered.find_eq_some (h : q.Ordered) {b : PullBundleRequest} :
    q.find id = some b ↔ (id, b) ∈ q.bundles := by
  unfold Queue.find
  constructor
  · intro hfind
    obtain ⟨e, he, rfl⟩ := map_eq_some_iff.mp hfind
    have hid : e.1 = id := of_decide_eq_true (find?_some he :)
    exact hid ▸ mem_of_find?_eq_some he
  · intro hmem
    cases hfind : q.bundles.find? (·.1 = id) with
    | none => exact absurd (decide_eq_true rfl) (find?_eq_none.mp hfind (id, b) hmem)
    | some e =>
      have hid : e.1 = id := of_decide_eq_true (find?_some hfind :)
      rw [h.eq_of_id_eq hmem (mem_of_find?_eq_some hfind) hid, map_some]

lemma Queue.at_highest (q : Queue) {rest : List (Nat × PullBundleRequest)}
    (h : q.bundles.dropWhile (·.1 ≠ q.highest) = e :: rest) :
    e.1 = q.highest ∧ q.bundles.takeWhile (·.1 ≠ q.highest) ++ e :: rest = q.bundles := by
  have hhead := head_dropWhile_not (fun x : Nat × PullBundleRequest => decide (x.1 ≠ q.highest))
    (by rw [h]; exact cons_ne_nil _ _)
  simp only [h, head_cons] at hhead
  exact ⟨not_not.mp (of_decide_eq_false hhead), h ▸ takeWhile_append_dropWhile⟩

variable (h : q.Ordered)
include h

lemma Queue.Ordered.nextRequest (hn : q.nextRequest = some e) :
    ∃ before after, q.bundles = before ++ e :: after ∧ (∀ x ∈ before, x.1 ≤ q.highest) ∧
      q.highest < e.1 ∧ ∀ x ∈ after, e.1 < x.1 := by
  unfold Queue.nextRequest at hn
  split at hn
  case h_1 hnil =>
    -- no request has the id of the pointer, so that the pointer is null
    have hnull : q.highest = 0 := by
      refine h.pointer.resolve_right ?_
      rintro ⟨x, hx, hxid⟩
      have hne := dropWhile_eq_nil_iff.mp hnil x hx
      exact of_decide_eq_true hne hxid
    obtain ⟨after, hsplit⟩ : ∃ after, q.bundles = e :: after := by
      cases hb : q.bundles with
      | nil =>
        rw [hb] at hn
        cases hn
      | cons x l =>
        rw [hb] at hn
        cases hn
        exact ⟨l, rfl⟩
    have hsorted := h.sorted
    rw [hsplit] at hsorted
    refine ⟨[], after, hsplit, nofun, ?_, (pairwise_cons.mp hsorted).1⟩
    rw [hnull]
    exact h.positive e (hsplit ▸ mem_cons_self)
  case h_2 y rest hrest =>
    obtain ⟨hy, hsplit⟩ := q.at_highest hrest
    obtain ⟨after, rfl⟩ : ∃ after, rest = e :: after := by
      cases rest with
      | nil => cases hn
      | cons x l =>
        cases hn
        exact ⟨l, rfl⟩
    have hsorted := h.sorted
    rw [← hsplit, pairwise_append, pairwise_cons, pairwise_cons] at hsorted
    refine ⟨q.bundles.takeWhile (·.1 ≠ q.highest) ++ [y], after, ?_, fun x hx => ?_, ?_, hsorted.2.1.2.1⟩
    · rw [append_assoc]
      exact hsplit.symm
    · rcases mem_append.mp hx with hx | hx
      · exact hy ▸ (hsorted.2.2 x hx y mem_cons_self).le
      · rw [mem_singleton.mp hx, hy]
    · exact hy ▸ hsorted.2.1.1 e mem_cons_self

lemma Queue.Ordered.le_highest (hn : q.nextRequest = none) (he : e ∈ q.bundles) : e.1 ≤ q.highest := by
  unfold Queue.nextRequest at hn
  split at hn
  · rw [head?_eq_none_iff.mp hn] at he
    cases he
  case h_2 y rest hdrop =>
    obtain rfl := head?_eq_none_iff.mp hn
    obtain ⟨hy, hsplit⟩ := q.at_highest hdrop
    have hsorted := h.sorted
    rw [← hsplit, pairwise_append] at hsorted
    rw [← hsplit] at he
    rcases mem_append.mp he with he | he
    · exact hy ▸ (hsorted.2.2 e he y mem_cons_self).le
    · rw [mem_singleton.mp he, hy]

lemma Queue.Ordered.highestWithout (he : e ∈ q.bundles) :
    (∀ x ∈ q.bundles, x.1 ≠ e.1 → (x.1 ≤ q.highestWithout e.1 ↔ x.1 ≤ q.highest)) ∧
      (q.highest = e.1 → q.highestWithout e.1 < e.1) ∧
      (q.highestWithout e.1 = 0 ∨ ∃ x ∈ q.bundles, x.1 ≠ e.1 ∧ x.1 = q.highestWithout e.1) := by
  unfold Queue.highestWithout
  by_cases hlast : q.highest = e.1
  · obtain ⟨before, after, hsplit, hbefore, hafter⟩ := h.split he
    have htake : q.bundles.takeWhile (·.1 ≠ e.1) = before := by
      rw [hsplit, takeWhile_append_of_pos fun x hx => decide_eq_true (hbefore x hx).ne]
      simp
    rw [if_pos hlast, htake, hlast]
    cases hb : before.getLast? with
    | none =>
      rw [getLast?_eq_none_iff.mp hb] at hsplit
      refine ⟨fun x hx hne => ?_, fun _ => h.positive e he, .inl rfl⟩
      rw [hsplit, nil_append, mem_cons] at hx
      have hgt := hafter x (hx.resolve_left fun hxe => hne (congrArg Prod.fst hxe))
      have hpos := h.positive e he
      simp only [elim_none]
      omega
    | some y =>
      have hy : y ∈ before := mem_of_getLast? hb
      have hyb : y ∈ q.bundles := hsplit ▸ mem_append_left _ hy
      refine ⟨fun x hx hne => ?_, fun _ => hbefore y hy, .inr ⟨y, hyb, (hbefore y hy).ne, rfl⟩⟩
      have hsorted := h.sorted
      rw [hsplit] at hx hsorted
      rcases mem_append.mp hx with hx | hx
      · have hxy : x.1 ≤ y.1 := by
          obtain ⟨init, rfl⟩ := getLast?_eq_some_iff.mp hb
          rw [pairwise_append, pairwise_append] at hsorted
          rcases mem_append.mp hx with hx | hx
          · exact (hsorted.1.2.2 x hx y mem_cons_self).le
          · exact (congrArg Prod.fst (mem_singleton.mp hx)).le
        have hxe := hbefore x hx
        exact ⟨fun _ => hxe.le, fun _ => hxy⟩
      · have hgt := hafter x ((mem_cons.mp hx).resolve_left fun hxe => hne (congrArg Prod.fst hxe))
        have hye := hbefore y hy
        simp only [elim_some]
        omega
  · rw [if_neg hlast]
    refine ⟨fun _ _ _ => Iff.rfl, fun hl => absurd hl hlast, h.pointer.imp_right ?_⟩
    rintro ⟨x, hx, hxid⟩
    exact ⟨x, hx, fun hxe => hlast (hxid.symm.trans hxe), hxid⟩

lemma Queue.Ordered.length_filter_ne (he : e ∈ q.active) :
    (q.active.filter (·.1 ≠ e.1)).length + 1 = q.active.length := by
  obtain ⟨before, after, hsplit, hbefore, hafter⟩ := h.split (mem_filter.mp he).1
  have hle : e.1 ≤ q.highest := of_decide_eq_true (mem_filter.mp he).2
  have hkeep : ∀ l : List (Nat × PullBundleRequest), (∀ x ∈ l, x.1 ≠ e.1) → l.filter (·.1 ≠ e.1) = l :=
    fun l hl => filter_eq_self.mpr fun x hx => decide_eq_true (hl x hx)
  have hactive : q.active = before.filter (·.1 ≤ q.highest) ++ e :: after.filter (·.1 ≤ q.highest) := by
    rw [Queue.active, hsplit, filter_append, filter_cons_of_pos (by simpa using hle)]
  rw [hactive, filter_append, filter_cons_of_neg (by simp), hkeep, hkeep]
  · simp only [length_append, length_cons]
    omega
  · exact fun x hx => (hafter x (mem_filter.mp hx).1).ne'
  · exact fun x hx => (hbefore x (mem_filter.mp hx).1).ne

end

section

variable {W : Type} {m t : State W}

def State.sizeSet (m : State W) (o : ObjectID) : Bool :=
  (m.objectPullRequests.lookup o).any ObjectPullRequest.objectSizeSet

def State.sizeOf (m : State W) (o : ObjectID) : Nat :=
  (m.objectPullRequests.lookup o).elim 0 ObjectPullRequest.objectSize

def State.requestIds (m : State W) (o : ObjectID) : List Nat :=
  (m.objectPullRequests.lookup o).elim [] ObjectPullRequest.bundleRequestIds

def State.activeIds (m : State W) (o : ObjectID) : List Nat :=
  (m.activeObjectPullRequests.lookup o).getD []

structure Registered (m : State W) : Prop where
  ordered : ∀ p, (m.queues p).Ordered
  next : 0 < m.nextReqId
  fresh : ∀ p, ∀ e ∈ (m.queues p).bundles, e.1 < m.nextReqId
  apart : ∀ p p' e e', e ∈ (m.queues p).bundles → e' ∈ (m.queues p').bundles → e.1 = e'.1 → p = p'
  distinct : ∀ p, ∀ e ∈ (m.queues p).bundles, e.2.ids.Nodup
  missing : ∀ p, ∀ e ∈ (m.queues p).bundles,
    e.2.numObjectSizesMissing = e.2.ids.countP fun o => !m.sizeSet o
  requests : ∀ o id, id ∈ m.requestIds o ↔ ∃ p, ∃ e ∈ (m.queues p).bundles, e.1 = id ∧ o ∈ e.2.ids
  listed : ∀ o r, m.objectPullRequests.lookup o = some r →
    r.bundleRequestIds ≠ [] ∧ r.bundleRequestIds.Nodup ∧ r.clientLocations.Nodup

/-- The objects being pulled, for which requests, with their sizes; `extra` bytes are counted beside. -/
structure Tracks (m : State W) (R : ObjectID → Nat → Prop) (extra : Int) : Prop where
  active : ∀ o id, id ∈ m.activeIds o ↔ R o id
  nonempty : ∀ o ids, m.activeObjectPullRequests.lookup o = some ids → ids ≠ []
  bytes : m.numBytesBeingPulled =
    Table.total (fun o _ => (m.sizeOf o : Int)) m.activeObjectPullRequests + extra
  pinned : ∀ o, (m.pinnedObjects.lookup o).isSome → (m.activeObjectPullRequests.lookup o).isSome
  pinnedSize : m.pinnedObjectsSize = Table.total (fun _ (size : Nat) => (size : Int)) m.pinnedObjects

def Covers (A : BundlePriority → List (Nat × PullBundleRequest)) (o : ObjectID) (id : Nat) : Prop :=
  ∃ p, ∃ e ∈ A p, e.1 = id ∧ o ∈ e.2.ids

def countAll (A : BundlePriority → List (Nat × PullBundleRequest)) : Int :=
  (A .getRequest).length + (A .waitRequest).length + (A .taskArgs).length

/-- The requests of the lists are exactly those that are being pulled. -/
structure Pulling (m : State W) (A : BundlePriority → List (Nat × PullBundleRequest)) : Prop where
  tracks : Tracks m (Covers A) 0
  count : m.numActiveBundles = countAll A
  sized : ∀ p, ∀ e ∈ A p, e.2.numObjectSizesMissing = 0

def State.active (m : State W) (p : BundlePriority) : List (Nat × PullBundleRequest) :=
  (m.queues p).active

def State.requests (m : State W) (p : BundlePriority) : List (Nat × List ObjectID) :=
  (m.queues p).bundles.map fun e => (e.1, e.2.ids)

structure Exact (m : State W) : Prop where
  registered : Registered m
  pulling : Pulling m m.active

end

variable {W : Type} {m t u : State W} {o : ObjectID}

def ObjectPullRequest.facts (r : ObjectPullRequest) : Bool × Nat × List Nat :=
  (r.objectSizeSet, r.objectSize, r.bundleRequestIds)

structure SameRequests (m t : State W) : Prop where
  bundles : ∀ p, (t.queues p).bundles = (m.queues p).bundles
  nextReqId : t.nextReqId = m.nextReqId
  facts : ∀ o, (t.objectPullRequests.lookup o).map ObjectPullRequest.facts =
    (m.objectPullRequests.lookup o).map ObjectPullRequest.facts
  locations : (∀ o r, m.objectPullRequests.lookup o = some r → r.clientLocations.Nodup) →
    ∀ o r, t.objectPullRequests.lookup o = some r → r.clientLocations.Nodup

structure Kept (m t : State W) : Prop extends SameRequests m t where
  queues : t.queues = m.queues
  numActive : t.numActiveBundles = m.numActiveBundles

structure Untouched (m t : State W) : Prop extends Kept m t where
  bytes : t.numBytesBeingPulled = m.numBytesBeingPulled
  active : t.activeObjectPullRequests = m.activeObjectPullRequests
  pinned : t.pinnedObjects = m.pinnedObjects
  pinnedSize : t.pinnedObjectsSize = m.pinnedObjectsSize

/-- What is pulled and pinned is the same. -/
structure SamePulls (m t : State W) : Prop where
  numActive : t.numActiveBundles = m.numActiveBundles
  bytes : t.numBytesBeingPulled = m.numBytesBeingPulled
  active : t.activeObjectPullRequests = m.activeObjectPullRequests
  pinned : t.pinnedObjects = m.pinnedObjects
  pinnedSize : t.pinnedObjectsSize = m.pinnedObjectsSize

instance : IsPreorder (State W) SameRequests where
  refl _ := ⟨fun _ => rfl, rfl, fun _ => rfl, id⟩
  trans _ _ _ h h' := ⟨fun p => (h'.bundles p).trans (h.bundles p), h'.nextReqId.trans h.nextReqId,
    fun o => (h'.facts o).trans (h.facts o), fun hl => h'.locations (h.locations hl)⟩

instance : IsPreorder (State W) Kept where
  refl m := ⟨refl_of SameRequests m, rfl, rfl⟩
  trans _ _ _ h h' := ⟨trans_of SameRequests h.toSameRequests h'.toSameRequests,
    h'.queues.trans h.queues, h'.numActive.trans h.numActive⟩

instance : IsPreorder (State W) Untouched where
  refl m := ⟨refl_of Kept m, rfl, rfl, rfl, rfl⟩
  trans _ _ _ h h' := ⟨trans_of Kept h.toKept h'.toKept, h'.bytes.trans h.bytes, h'.active.trans h.active,
    h'.pinned.trans h.pinned, h'.pinnedSize.trans h.pinnedSize⟩

section

variable (h : SameRequests m t)
include h

lemma SameRequests.sizeSet : t.sizeSet = m.sizeSet := by
  funext o
  have hf := congrArg (Option.any Prod.fst) (h.facts o)
  rwa [Option.any_map, Option.any_map] at hf

lemma SameRequests.sizeOf : t.sizeOf = m.sizeOf := by
  funext o
  have hf := congrArg (fun x => x.elim 0 fun f : Bool × Nat × List Nat => f.2.1) (h.facts o)
  rwa [elim_map, elim_map] at hf

lemma SameRequests.requestIds : t.requestIds = m.requestIds := by
  funext o
  have hf := congrArg (fun x => x.elim [] fun f : Bool × Nat × List Nat => f.2.2) (h.facts o)
  rwa [elim_map, elim_map] at hf

lemma SameRequests.requests : t.requests = m.requests := by
  funext p
  rw [State.requests, h.bundles]
  rfl

lemma SameRequests.isSome (o : ObjectID) :
    (t.objectPullRequests.lookup o).isSome = (m.objectPullRequests.lookup o).isSome := by
  have hf := congrArg Option.isSome (h.facts o)
  rwa [isSome_map, isSome_map] at hf

lemma Registered.same (hm : Registered m)
    (hp : ∀ p, (t.queues p).highest = 0 ∨ ∃ e ∈ (t.queues p).bundles, e.1 = (t.queues p).highest) :
    Registered t := by
  constructor
  · intro p
    refine ⟨?_, ?_, hp p⟩
    · rw [h.bundles p]
      exact (hm.ordered p).sorted
    · rw [h.bundles p]
      exact (hm.ordered p).positive
  · exact h.nextReqId ▸ hm.next
  · intro p e he
    rw [h.nextReqId]
    exact hm.fresh p e (h.bundles p ▸ he)
  · intro p p' e e' he he'
    exact hm.apart p p' e e' (h.bundles p ▸ he) (h.bundles p' ▸ he')
  · intro p e he
    exact hm.distinct p e (h.bundles p ▸ he)
  · intro p e he
    rw [h.sizeSet]
    exact hm.missing p e (h.bundles p ▸ he)
  · intro o id
    simp only [h.requestIds, h.bundles]
    exact hm.requests o id
  · intro o r hr
    obtain ⟨r', hr', hfacts⟩ := map_eq_some_iff.mp ((h.facts o).symm.trans (congrArg _ hr))
    have hids : r'.bundleRequestIds = r.bundleRequestIds := congrArg (fun f => f.2.2) hfacts
    have hlisted := hm.listed o r' hr'
    exact ⟨hids ▸ hlisted.1, hids ▸ hlisted.2.1, h.locations (fun o r hr => (hm.listed o r hr).2.2) o r hr⟩

end

lemma Registered.kept (hm : Registered m) (h : Kept m t) : Registered t := by
  refine hm.same h.toSameRequests fun p => ?_
  rw [h.queues]
  exact (hm.ordered p).pointer

lemma Tracks.same {extra : Int} (hm : Tracks m R extra) (hb : t.numBytesBeingPulled = m.numBytesBeingPulled)
    (ha : t.activeObjectPullRequests = m.activeObjectPullRequests) (hp : t.pinnedObjects = m.pinnedObjects)
    (hps : t.pinnedObjectsSize = m.pinnedObjectsSize)
    (hs : ∀ o, (m.activeObjectPullRequests.lookup o).isSome → t.sizeOf o = m.sizeOf o) : Tracks t R extra := by
  constructor
  · intro o id
    rw [State.activeIds, ha]
    exact hm.active o id
  · rw [ha]
    exact hm.nonempty
  · rw [hb, ha, hm.bytes]
    refine congrArg (· + extra) (Table.total_congr fun o ids ho => ?_)
    rw [hs o (by rw [ho]; rfl)]
  · rw [hp, ha]
    exact hm.pinned
  · rw [hps, hp]
    exact hm.pinnedSize

lemma Tracks.untouched {extra : Int} (hm : Tracks m R extra) (h : Untouched m t) : Tracks t R extra :=
  hm.same h.bytes h.active h.pinned h.pinnedSize fun o _ => congrFun h.sizeOf o

lemma Pulling.untouched {A : BundlePriority → List (Nat × PullBundleRequest)} (hm : Pulling m A)
    (h : Untouched m t) : Pulling t A :=
  ⟨hm.tracks.untouched h, h.numActive.trans hm.count, hm.sized⟩

lemma Exact.untouched (hm : Exact m) (h : Untouched m t) : Exact t := by
  refine ⟨hm.registered.kept h.toKept, ?_⟩
  have hactive : t.active = m.active := by
    funext p
    rw [State.active, h.queues, State.active]
  rw [hactive]
  exact hm.pulling.untouched h

lemma untouched_withRequest {r r' : ObjectPullRequest} (hr : m.objectPullRequests.lookup o = some r)
    (hf : r'.facts = r.facts) (hl : r.clientLocations.Nodup → r'.clientLocations.Nodup) :
    Untouched m (m.withRequest o r') := by
  refine ⟨⟨⟨fun _ => rfl, rfl, fun x => ?_, fun h x r'' hx => ?_⟩, rfl, rfl⟩, rfl, rfl, rfl, rfl⟩
  · show ((m.objectPullRequests.insert o r').lookup x).map _ = _
    rw [Table.lookup_insert]
    by_cases hx : x = o
    · rw [if_pos hx, hx, hr, map_some, map_some, hf]
    · rw [if_neg hx]
  · change (m.objectPullRequests.insert o r').lookup x = some r'' at hx
    rcases Table.lookup_of_insert hx with ⟨-, rfl⟩ | ⟨-, hx⟩
    · exact hl (h o r hr)
    · exact h x r'' hx

end AmazonRay.PullManager
