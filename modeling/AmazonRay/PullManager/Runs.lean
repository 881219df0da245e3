import AmazonRay.PullManager.Sizes

/-! Runs of the manager with a caller, which locates just the objects of its requests. -/
namespace AmazonRay.PullManager
open Program List State

section

variable {W : Type}

/-- The manager and its caller, with its live requests and the objects that it was told to locate. -/
structure Client (W : Type) where
  manager : State W
  live : List (Nat × List ObjectReference) := []
  located : Finset ObjectID := ∅

def Client.start (world : W) (numBytesAvailable : Int) : Client W :=
  { manager := { world, numBytesAvailable } }

inductive PullOp where
  | pull (refs : List ObjectReference) (priority : BundlePriority)
  | cancelPull (reqId : Nat)
  | onLocationChange (id : ObjectID) (clientIds : { l : List NodeID // l.Nodup }) (spilledUrl : String)
      (spilledNodeId : NodeID) (objectSize : Nat)
  | updatePulls (numBytesAvailable : Int)
  | pinNewObjectIfNeeded (id : ObjectID)
  | resetRetryTimer (id : ObjectID)
  | tick

def PullOp.Enabled : PullOp → Client W → Prop
  | .cancelPull reqId, s => reqId ∈ s.live.map Prod.fst
  | _, _ => True

instance (op : PullOp) (s : Client W) : Decidable (op.Enabled s) := by
  cases op <;> (unfold PullOp.Enabled; infer_instance)

def onManager {α : Type} (x : PullM W α) : EStateM Check (Client W) α :=
  within Client.manager (fun m s => { s with manager := m }) id x

def PullOp.run (cb : Callbacks W) : PullOp → EStateM Check (Client W) Unit
  | .pull refs p => do
    let r ← onManager (PullManager.pull cb refs p)
    modify fun s => { s with
      live := s.live ++ [(r.1, refs)]
      located := s.located ∪ (r.2.map ObjectReference.objectId).toFinset }
  | .cancelPull reqId => do
    let canceled ← onManager (PullManager.cancelPull cb reqId)
    modify fun s => { s with
      live := s.live.filter (·.1 ≠ reqId)
      located := s.located \ canceled.toFinset }
  | .onLocationChange id clientIds spilledUrl spilledNodeId objectSize =>
    onManager (PullManager.onLocationChange cb id clientIds spilledUrl spilledNodeId objectSize)
  | .updatePulls n => onManager (updatePullsBasedOnAvailableMemory cb n)
  | .pinNewObjectIfNeeded id => onManager (PullManager.pinNewObjectIfNeeded cb id)
  | .resetRetryTimer id => onManager (PullManager.resetRetryTimer cb id)
  | .tick => onManager (PullManager.tick cb)

end

section

variable {W : Type} {cb : Callbacks W} {s : Client W} {m t : State W} {o : ObjectID}

/-- The requests of the caller are those of the manager. -/
structure Served (s : Client W) : Prop where
  exact : Exact s.manager
  live : ∀ id refs, (id, refs) ∈ s.live → ∃ p ids, (id, ids) ∈ s.manager.requests p ∧
    ∀ o, o ∈ ids ↔ o ∈ refs.map ObjectReference.objectId
  complete : ∀ p, ∀ x ∈ s.manager.requests p, x.1 ∈ s.live.map Prod.fst
  located : ∀ o, o ∈ s.located ↔ ∃ p, ∃ x ∈ s.manager.requests p, o ∈ x.2

variable {p : BundlePriority} {ids : List ObjectID} {id : Nat}

lemma served_start (world : W) (numBytesAvailable : Int) : Served (Client.start world numBytesAvailable) := by
  have hactive : (Client.start world numBytesAvailable).manager.active = fun _ => [] := rfl
  refine ⟨⟨⟨fun _ => ⟨List.Pairwise.nil, nofun, .inl rfl⟩, Nat.one_pos,
    nofun, nofun, nofun,
    nofun, fun o id => ?_, nofun⟩, ?_⟩, nofun,
    nofun, fun o => ?_⟩
  · exact ⟨nofun, fun ⟨_, _, he, _⟩ => (nomatch he)⟩
  · rw [hactive]
    refine ⟨⟨fun o id => ?_, nofun, rfl, nofun, rfl⟩, rfl,
      nofun⟩
    exact ⟨nofun, fun ⟨_, _, he, _⟩ => (nomatch he)⟩
  · exact ⟨fun ho => absurd ho (Finset.notMem_empty o), fun ⟨_, _, hx, _⟩ => (nomatch hx)⟩

lemma Served.same (hs : Served s) (ht : Exact t) (h : t.requests = s.manager.requests) :
    Served { s with manager := t } := by
  refine ⟨ht, ?_, ?_, ?_⟩
  · intro id refs hid
    rw [h]
    exact hs.live id refs hid
  · intro p x hx
    rw [h] at hx
    exact hs.complete p x hx
  · intro o
    rw [h]
    exact hs.located o

lemma Registered.isSome_iff (hm : Registered m) (o : ObjectID) :
    (m.objectPullRequests.lookup o).isSome ↔ ∃ p, ∃ x ∈ m.requests p, o ∈ x.2 := by
  constructor
  · intro ho
    obtain ⟨r, hr⟩ := Option.isSome_iff_exists.mp ho
    obtain ⟨id, hid⟩ := exists_mem_of_ne_nil _ (hm.listed o r hr).1
    have hrequest : id ∈ m.requestIds o := by
      rw [requestIds, hr]
      exact hid
    obtain ⟨p, e, he, -, hoe⟩ := (hm.requests o id).mp hrequest
    exact ⟨p, _, mem_map_of_mem he, hoe⟩
  · rintro ⟨p, x, hx, hox⟩
    obtain ⟨e, he, rfl⟩ := mem_map.mp hx
    exact Option.isSome_iff_ne_none.mpr (hm.request_ne_none he hox)

lemma Registered.objects_unique (hm : Registered m) {p' : BundlePriority} {x x' : Nat × List ObjectID}
    (hx : x ∈ m.requests p) (hx' : x' ∈ m.requests p') (hid : x.1 = x'.1) : x.2 = x'.2 := by
  obtain ⟨e, he, rfl⟩ := mem_map.mp hx
  obtain ⟨e', he', rfl⟩ := mem_map.mp hx'
  obtain rfl := hm.apart p p' e e' he he' hid
  rw [(hm.ordered p).eq_of_id_eq he' he hid]

lemma served_onManager {α : Type} {x : PullM W α} (hs : Served s)
    (hx : Completes s.manager x (fun _ t => Exact t ∧ t.requests = s.manager.requests)) :
    Completes s (onManager x) fun _ => Served := by
  refine .within ?_
  rintro s' rfl
  exact hx.post fun _ t ht => hs.same ht.1 ht.2

lemma served_untouched {α : Type} {x : PullM W α} (hs : Served s)
    (hx : Completes s.manager x (fun _ t => Untouched s.manager t)) :
    Completes s (onManager x) fun _ => Served :=
  served_onManager hs (hx.post fun _ _ ht => ⟨hs.exact.untouched ht, ht.requests⟩)

/-- The objects that are to be located are those that were in no request. -/
structure Pulled (m : State W) (refs : List ObjectReference) (p : BundlePriority)
    (r : Nat × List ObjectReference) (u : State W) : Prop where
  exact : Exact u
  reqId : r.1 = m.nextReqId
  nodup : (r.2.map ObjectReference.objectId).Nodup
  toLocate : ∀ o, o ∈ r.2.map ObjectReference.objectId ↔
    o ∈ refs.map ObjectReference.objectId ∧ ¬∃ p, ∃ x ∈ m.requests p, o ∈ x.2
  requests : ∀ p' x, x ∈ u.requests p' ↔
    x ∈ m.requests p' ∨ p' = p ∧ x = (m.nextReqId, (deduplicate refs).map ObjectReference.objectId)

lemma pulled_pull (refs : List ObjectReference) (p : BundlePriority) (hm : Exact m) :
    Completes m (pull cb refs p) (Pulled m refs p) := by
  obtain ⟨hnodup, hmem⟩ := deduplicate_spec refs
  refine (triple_pull refs p hm).post ?_
  rintro ⟨reqId, toLocate⟩ u ⟨hu, hid, rfl, t, ht, hsame⟩
  refine ⟨hu, hid, hnodup.sublist (filter_sublist.map _), fun o => ?_, fun p' x => ?_⟩
  · rw [← hmem, ← hm.registered.isSome_iff, Bool.not_eq_true, Option.isSome_eq_false_iff]
    constructor
    · intro ho
      obtain ⟨ref, href, rfl⟩ := mem_map.mp ho
      obtain ⟨href, hnone⟩ := mem_filter.mp href
      exact ⟨mem_map_of_mem href, hnone⟩
    · rintro ⟨ho, hnone⟩
      obtain ⟨ref, href, rfl⟩ := mem_map.mp ho
      exact mem_map_of_mem (mem_filter.mpr ⟨href, hnone⟩)
  · rw [hsame.requests, requests, requests, mem_map, mem_map]
    constructor
    · rintro ⟨e, he, rfl⟩
      refine ((ht.mem_bundles p' e).mp he).imp (fun he => ⟨e, he, rfl⟩) ?_
      rintro ⟨hp, rfl⟩
      exact ⟨hp, rfl⟩
    · rintro (⟨e, he, rfl⟩ | ⟨hp, rfl⟩)
      · exact ⟨e, (ht.mem_bundles p' e).mpr (.inl he), rfl⟩
      · exact ⟨_, (ht.mem_bundles p' _).mpr (.inr ⟨hp, rfl⟩), rfl⟩

/-- The objects that need not be located are those in no other request. -/
structure Withdrawn (m : State W) (id : Nat) (ids canceled : List ObjectID) (u : State W) : Prop where
  exact : Exact u
  nodup : canceled.Nodup
  canceled : ∀ o, o ∈ canceled ↔ o ∈ ids ∧ ∀ p, ∀ x ∈ m.requests p, o ∈ x.2 → x.1 = id
  requests : ∀ p x, x ∈ u.requests p ↔ x ∈ m.requests p ∧ x.1 ≠ id

lemma withdrawn_cancelPull (hm : Exact m) (hreq : (id, ids) ∈ m.requests p) :
    Completes m (cancelPull cb id) (Withdrawn m id ids) := by
  obtain ⟨⟨id, b⟩, he, heq⟩ := mem_map.mp hreq
  cases heq
  refine (triple_cancelPull hm he).post ?_
  rintro canceled u ⟨hu, rfl, t, ht, hsame⟩
  refine ⟨hu, (hm.registered.distinct p _ he).filter _, fun o => ?_, fun p' x => ?_⟩
  · rw [mem_filter]
    refine and_congr_right fun ho => ?_
    obtain ⟨r, hr⟩ := Option.ne_none_iff_exists'.mp (hm.registered.request_ne_none he ho)
    have hids : m.requestIds o = r.bundleRequestIds := by
      rw [requestIds, hr]
      rfl
    have hnone : (released id r).isNone = true ↔ ∀ id' ∈ m.requestIds o, id' = id := by
      rw [hids, released]
      by_cases hall : r.bundleRequestIds.filter (· ≠ id) = []
      · rw [if_pos hall]
        simpa [filter_eq_nil_iff] using hall
      · rw [if_neg hall]
        simpa [filter_eq_nil_iff] using hall
    rw [hr, Option.any_some, hnone]
    constructor
    · intro hall p' x hx hox
      obtain ⟨e, he', rfl⟩ := mem_map.mp hx
      exact hall e.1 ((hm.registered.requests o e.1).mpr ⟨p', e, he', rfl, hox⟩)
    · intro hall id' hid'
      obtain ⟨p', e, he', rfl, hoe⟩ := (hm.registered.requests o id').mp hid'
      exact hall p' _ (mem_map_of_mem he') hoe
  · rw [hsame.requests, requests, requests, mem_map, mem_map]
    constructor
    · rintro ⟨e, he', rfl⟩
      obtain ⟨he', hne⟩ := (ht.mem_bundles hm.registered he p' e).mp he'
      exact ⟨⟨e, he', rfl⟩, hne⟩
    · rintro ⟨⟨e, he', rfl⟩, hne⟩
      exact ⟨e, (ht.mem_bundles hm.registered he p' e).mpr ⟨he', hne⟩, rfl⟩

lemma Served.pulled {refs : List ObjectReference} {r : Nat × List ObjectReference}
    (hs : Served s) (h : Pulled s.manager refs p r t) :
    Served ⟨t, s.live ++ [(r.1, refs)], s.located ∪ (r.2.map ObjectReference.objectId).toFinset⟩ := by
  have hmem := (deduplicate_spec refs).2
  have hnew : (r.1, (deduplicate refs).map ObjectReference.objectId) ∈ t.requests p :=
    (h.requests p _).mpr (.inr ⟨rfl, by rw [h.reqId]⟩)
  refine ⟨h.exact, fun id refs' hid => ?_, fun p' x hx => ?_, fun o => ?_⟩
  · rcases mem_append.mp hid with hid | hid
    · obtain ⟨p', ids, hids, hiff⟩ := hs.live id refs' hid
      exact ⟨p', ids, (h.requests p' _).mpr (.inl hids), hiff⟩
    · cases mem_singleton.mp hid
      exact ⟨p, _, hnew, hmem⟩
  · rw [map_append, mem_append]
    refine ((h.requests p' x).mp hx).imp (hs.complete p' x) ?_
    rintro ⟨-, rfl⟩
    exact mem_singleton.mpr h.reqId.symm
  · rw [Finset.mem_union, hs.located, mem_toFinset, h.toLocate, ← hmem]
    constructor
    · rintro (⟨p', x, hx, hox⟩ | ⟨ho, -⟩)
      · exact ⟨p', x, (h.requests p' x).mpr (.inl hx), hox⟩
      · exact ⟨p, _, hnew, ho⟩
    · rintro ⟨p', x, hx, hox⟩
      refine or_iff_not_imp_left.mpr fun hnot => ⟨?_, hnot⟩
      rcases (h.requests p' x).mp hx with hx | ⟨-, rfl⟩
      · exact absurd ⟨p', x, hx, hox⟩ hnot
      · exact hox

lemma Served.withdrawn {canceled : List ObjectID} (hs : Served s)
    (he : (id, ids) ∈ s.manager.requests p) (h : Withdrawn s.manager id ids canceled t) :
    Served ⟨t, s.live.filter (·.1 ≠ id), s.located \ canceled.toFinset⟩ := by
  refine ⟨h.exact, fun id' refs hid => ?_, fun p' x hx => ?_, fun o => ?_⟩
  · obtain ⟨hid, hne⟩ := mem_filter.mp hid
    obtain ⟨p', ids', hids', hiff⟩ := hs.live id' refs hid
    exact ⟨p', ids', (h.requests p' _).mpr ⟨hids', of_decide_eq_true hne⟩, hiff⟩
  · obtain ⟨hx, hne⟩ := (h.requests p' x).mp hx
    obtain ⟨y, hy, hyx⟩ := mem_map.mp (hs.complete p' x hx)
    exact mem_map.mpr ⟨y, mem_filter.mpr ⟨hy, decide_eq_true (hyx ▸ hne)⟩, hyx⟩
  · rw [Finset.mem_sdiff, hs.located, mem_toFinset, h.canceled]
    constructor
    · rintro ⟨⟨p', x, hx, hox⟩, hnot⟩
      by_cases hne : x.1 = id
      · -- the object is in the canceled request, and in another one
        have ho : o ∈ ids := by
          rwa [hs.exact.registered.objects_unique hx he hne] at hox
        push Not at hnot
        obtain ⟨p'', y, hy, hoy, hyne⟩ := hnot ho
        exact ⟨p'', y, (h.requests p'' y).mpr ⟨hy, hyne⟩, hoy⟩
      · exact ⟨p', x, (h.requests p' x).mpr ⟨hx, hne⟩, hox⟩
    · rintro ⟨p', x, hx, hox⟩
      obtain ⟨hx, hne⟩ := (h.requests p' x).mp hx
      exact ⟨⟨p', x, hx, hox⟩, fun hall => hne (hall.2 p' x hx hox)⟩

lemma untouched_tick (hm : Exact m) : Completes m (tick cb) fun _ t => Untouched m t := by
  refine .seen ?_
  exact untouched_forM _ hm.wanted (fun o r hr => (hm.registered.listed o r hr).2.2)
    fun o _ hw hl => untouched_tryToMakeObjectLocal o hw hl

lemma exact_pinNewObjectIfNeeded (o : ObjectID) (hm : Exact m) :
    Completes m (pinNewObjectIfNeeded cb o) fun _ t => Exact t ∧ t.requests = m.requests := by
  refine .seen ?_
  refine .onlyIf (fun ho => ?_) ?_
  case refine_2 =>
    rintro - t rfl
    exact ⟨hm, rfl⟩
  have hneeded := (hm.pulling.tracks.isSome_iff o).mp ho
  have hstart : ∀ t, t = m → Kept m t ∧ Tracks t (Covers m.active) 0 := by
    rintro t rfl
    exact ⟨refl_of Kept t, hm.pulling.tracks⟩
  refine .bind ((tracks_tryPinObject o hneeded).pre hstart) fun _ => .pure ?_
  rintro t ⟨hk, ht⟩
  have hactive : t.active = m.active := by
    funext p
    rw [active, hk.queues]
    rfl
  refine ⟨⟨hm.registered.kept hk, ?_⟩, hk.requests⟩
  rw [hactive]
  exact ⟨ht, hk.numActive.trans hm.pulling.count, hm.pulling.sized⟩

lemma served_run (op : PullOp) (hs : Served s) (hop : op.Enabled s) : Completes s (op.run cb) fun _ => Served := by
  cases op with
  | pull refs p =>
    refine .bind (Q := fun r u => ∃ t, u = { s with manager := t } ∧ Pulled s.manager refs p r t)
      (.within ?_) fun r => .update ?_
    · rintro s' rfl
      exact (pulled_pull refs p hs.exact).post fun r t ht => ⟨t, rfl, ht⟩
    · rintro u ⟨t, rfl, ht⟩
      exact hs.pulled ht
  | cancelPull reqId =>
    obtain ⟨⟨id, refs⟩, hlive, rfl⟩ := mem_map.mp hop
    obtain ⟨p, ids, hids, -⟩ := hs.live id refs hlive
    refine .bind (Q := fun r u => ∃ t, u = { s with manager := t } ∧ Withdrawn s.manager id ids r t)
      (.within ?_) fun r => .update ?_
    · rintro s' rfl
      exact (withdrawn_cancelPull hs.exact hids).post fun r t ht => ⟨t, rfl, ht⟩
    · rintro u ⟨t, rfl, ht⟩
      exact hs.withdrawn hids ht
  | onLocationChange o clientIds spilledUrl spilledNodeId objectSize =>
    exact served_onManager hs (triple_onLocationChange o clientIds spilledUrl spilledNodeId objectSize hs.exact)
  | updatePulls n =>
    refine served_onManager hs ((settles_update n s.manager hs.exact).post fun _ _ ht => ?_)
    exact ⟨ht.exact, ht.same.requests⟩
  | pinNewObjectIfNeeded o => exact served_onManager hs (exact_pinNewObjectIfNeeded o hs.exact)
  | resetRetryTimer o => exact served_untouched hs (untouched_resetRetryTimer o s.manager)
  | tick => exact served_untouched hs (untouched_tick hs.exact)

lemma served_of_reaches {w : W} {n : Int}
    (h : Reaches (PullOp.run cb) PullOp.Enabled (Client.start w n) s) : Served s :=
  h.invariant (served_start w n) fun op _ hop hs => served_run op hs hop

end

section

variable {W : Type} {cb : Callbacks W} {s : Client W} {m : State W}

structure Bookkeeping (m : State W) : Prop where
  highest : ∀ p, (m.queues p).highest = 0 ∨ (m.queues p).highest ∈ (m.queues p).bundles.map Prod.fst
  active : ∀ o reqs, m.activeObjectPullRequests.lookup o = some reqs → reqs ≠ [] ∧
    ∀ id, id ∈ reqs ↔ ∃ p, ∃ e ∈ m.active p, e.1 = id ∧ o ∈ e.2.ids
  inactive : ∀ o, m.activeObjectPullRequests.lookup o = none → ∀ p, ∀ e ∈ m.active p, o ∉ e.2.ids
  numActiveBundles : m.numActiveBundles =
    (m.active .getRequest).length + (m.active .waitRequest).length + (m.active .taskArgs).length
  numBytesBeingPulled : m.numBytesBeingPulled =
    Table.total (fun o _ => (m.sizeOf o : Int)) m.activeObjectPullRequests
  sizeSet : ∀ o, (m.activeObjectPullRequests.lookup o).isSome → m.sizeSet o
  pinned : ∀ o, (m.pinnedObjects.lookup o).isSome → (m.activeObjectPullRequests.lookup o).isSome
  pinnedObjectsSize : m.pinnedObjectsSize = Table.total (fun _ (size : Nat) => (size : Int)) m.pinnedObjects
  numObjectSizesMissing : ∀ p, ∀ e ∈ (m.queues p).bundles,
    e.2.numObjectSizesMissing = e.2.ids.countP fun o => !m.sizeSet o

lemma Exact.bookkeeping (hm : Exact m) : Bookkeeping m := by
  have htracks := hm.pulling.tracks
  constructor
  · intro p
    exact (hm.registered.ordered p).pointer.imp_right mem_map.mpr
  · intro o reqs hreqs
    refine ⟨htracks.nonempty o reqs hreqs, fun id => ?_⟩
    have hiff := htracks.active o id
    rwa [activeIds, hreqs] at hiff
  · intro o hnone p e he hoe
    have hsome := (htracks.isSome_iff o).mpr ⟨e.1, p, e, he, rfl, hoe⟩
    rw [hnone] at hsome
    cases hsome
  · exact hm.pulling.count
  · rw [htracks.bytes, add_zero]
  · intro o ho
    obtain ⟨id, p, e, he, -, hoe⟩ := (htracks.isSome_iff o).mp ho
    have hzero := hm.pulling.sized p e he
    rw [hm.registered.missing p e (mem_filter.mp he).1, countP_eq_zero] at hzero
    simpa using hzero o hoe
  · exact htracks.pinned
  · exact htracks.pinnedSize
  · exact hm.registered.missing

/-- The bookkeeping is exact in every state of a run, and no check stops the next step. -/
theorem bookkeeping_of_reaches {w : W} {n : Int}
    (h : Reaches (PullOp.run cb) PullOp.Enabled (Client.start w n) s) :
    Bookkeeping s.manager ∧ ∀ op : PullOp, op.Enabled s → ∃ t, op.run cb s = .ok () t := by
  have hs := served_of_reaches h
  refine ⟨hs.exact.bookkeeping, fun op hop => ?_⟩
  obtain ⟨_, t, ht, -⟩ := (served_run op hs hop).returns rfl
  exact ⟨t, ht⟩

def exampleCallbacks : Callbacks Unit where
  selfNodeId := 1
  pullTimeoutMs := 1000
  objectIsLocal _ _ := false
  getTime _ := 0
  getLocallySpilledObjectUrl _ _ := ""
  sendPullRequest _ _ w := w
  cancelPullRequest _ w := w
  restoreSpilledObject _ _ w := w
  pinObject _ w := (some 8, w)
  random _ w := (0, w)

def exampleReference (index : Nat) : ObjectReference := ⟨⟨0, index⟩, ⟨0, 0⟩⟩

/-- Two requests with an object in common; sizes become known, and the first request is canceled while it is being
pulled. -/
def exampleRun : List PullOp :=
  [.pull [exampleReference 0, exampleReference 1, exampleReference 0] .taskArgs,
    .pull [exampleReference 1] .getRequest,
    .onLocationChange ⟨0, 0⟩ ⟨[1, 2], by decide⟩ "" 2 8,
    .onLocationChange ⟨0, 1⟩ ⟨[2], by decide⟩ "" 2 8,
    .tick, .updatePulls 64, .cancelPull 1]

theorem exampleRun_bookkeeping :
    ∃ s, Reaches (PullOp.run exampleCallbacks) PullOp.Enabled (Client.start () 32) s ∧
      s.manager.numActiveBundles = 1 ∧ Bookkeeping s.manager := by
  refine exists_after exampleRun (fun s => s.manager.numActiveBundles) 1 (by decide +kernel) fun _ hs hactive => ?_
  exact ⟨hactive, (bookkeeping_of_reaches hs).1⟩

end

section

variable {W : Type} {cb : Callbacks W} {s : Client W}

/-- The objects that the caller locates are those of its requests. A new request gives it
objects that it does not locate yet, and a canceled one objects that it does. -/
theorem located_of_reaches {w : W} {n : Int}
    (h : Reaches (PullOp.run cb) PullOp.Enabled (Client.start w n) s) :
    (∀ o, o ∈ s.located ↔ ∃ r ∈ s.live, o ∈ r.2.map ObjectReference.objectId) ∧
      (∀ refs p r t, pull cb refs p s.manager = .ok r t →
        (r.2.map ObjectReference.objectId).Nodup ∧ ∀ ref ∈ r.2, ref.objectId ∉ s.located) ∧
      ∀ reqId canceled t, reqId ∈ s.live.map Prod.fst → cancelPull cb reqId s.manager = .ok canceled t →
        canceled.Nodup ∧ ∀ o ∈ canceled, o ∈ s.located := by
  have hs := served_of_reaches h
  refine ⟨fun o => ?_, fun refs p r t hpull => ?_, fun reqId canceled t hlive hcancel => ?_⟩
  · rw [hs.located]
    constructor
    · rintro ⟨p, x, hx, hox⟩
      obtain ⟨⟨id, refs⟩, hr, hid⟩ := mem_map.mp (hs.complete p x hx)
      obtain ⟨p', ids, hids, hiff⟩ := hs.live id refs hr
      have heq : ids = x.2 := hs.exact.registered.objects_unique hids hx hid
      exact ⟨_, hr, (hiff o).mp (heq ▸ hox)⟩
    · rintro ⟨⟨id, refs⟩, hr, ho⟩
      obtain ⟨p, ids, hids, hiff⟩ := hs.live id refs hr
      exact ⟨p, _, hids, (hiff o).mpr ho⟩
  · have hr := (pulled_pull refs p hs.exact).returned rfl hpull
    refine ⟨hr.nodup, fun ref href => ?_⟩
    rw [hs.located]
    exact ((hr.toLocate _).mp (mem_map_of_mem href)).2
  · obtain ⟨⟨id, refs⟩, hmem, rfl⟩ := mem_map.mp hlive
    obtain ⟨p, ids, hids, -⟩ := hs.live id refs hmem
    have hr := (withdrawn_cancelPull hs.exact hids).returned rfl hcancel
    refine ⟨hr.nodup, fun o ho => ?_⟩
    rw [hs.located]
    exact ⟨p, _, hids, ((hr.canceled o).mp ho).1⟩

theorem exampleRun_located :
    ∃ s, Reaches (PullOp.run exampleCallbacks) PullOp.Enabled (Client.start () 32) s ∧
      s.live.length = 1 ∧ ∀ o, o ∈ s.located ↔ ∃ r ∈ s.live, o ∈ r.2.map ObjectReference.objectId := by
  refine exists_after exampleRun (fun s => s.live.length) 1 (by decide +kernel) fun _ hs hlive => ?_
  exact ⟨hlive, (located_of_reaches hs).1⟩

end

section

variable {W : Type} {cb : Callbacks W} {s : Client W} {o : ObjectID} {r : ObjectPullRequest}

def ObjectPullRequest.Elsewhere (cb : Callbacks W) (r : ObjectPullRequest) : Prop :=
  (∃ n ∈ r.clientLocations, n ≠ cb.selfNodeId) ∨ r.spilledNodeId ≠ NodeID.nil ∧ r.spilledNodeId ≠ cb.selfNodeId

/-- The object was spilled on another node, and only this node is listed among its locations. -/
def ObjectPullRequest.Stale (cb : Callbacks W) (r : ObjectPullRequest) : Prop :=
  r.clientLocations = [cb.selfNodeId] ∧ r.spilledNodeId ≠ NodeID.nil ∧ r.spilledNodeId ≠ cb.selfNodeId

lemma Unasked.elsewhere_iff (h : Unasked cb r) : r.Elsewhere cb ↔ r.Stale cb := by
  rcases h with hself | ⟨hempty, hspilled⟩
  · simp [ObjectPullRequest.Elsewhere, ObjectPullRequest.Stale, hself]
  · simp only [ObjectPullRequest.Elsewhere, ObjectPullRequest.Stale, hempty]
    tauto

lemma Asked.elsewhere {m t : State W} (h : Asked cb m o r t) : r.Elsewhere cb := by
  obtain ⟨n, w, hne, hn | ⟨rfl, hnil⟩, -⟩ := h
  · exact .inl ⟨n, hn, hne⟩
  · exact .inr ⟨hnil, hne⟩

/-- An object that is due is asked for at one other node that is known to have it, or else restored. This
fails exactly for one that was spilled on another node while only this node is listed among its locations: then nobody
is asked, and at most a copy on this node is restored. -/
theorem tryToMakeObjectLocal_source {w : W} {n : Int}
    (hs : Reaches (PullOp.run cb) PullOp.Enabled (Client.start w n) s) (now : W)
    (hr : s.manager.objectPullRequests.lookup o = some r) (hlocal : cb.objectIsLocal now o = false)
    (hactive : (s.manager.activeObjectPullRequests.lookup o).isSome) (htime : r.nextPullTime ≤ cb.getTime now) :
    let m := { s.manager with world := now }
    ∃ t, tryToMakeObjectLocal cb o m = .ok () t ∧
      (¬r.Stale cb → (r.Elsewhere cb → Asked cb m o r t) ∧ (¬r.Elsewhere cb →
        cb.getLocallySpilledObjectUrl now o ≠ "" ∨ r.spilledUrl ≠ "" ∧ r.spilledNodeId = NodeID.nil →
          t.world = cb.restoreSpilledObject o (restoreUrl cb m o r) now)) ∧
      (r.Stale cb → r.Elsewhere cb ∧ t.world = if cb.getLocallySpilledObjectUrl now o = "" then now
        else cb.restoreSpilledObject o (cb.getLocallySpilledObjectUrl now o) now) := by
  intro m
  have hexact := (served_of_reaches hs).exact
  have hm : Wanted m := hexact.wanted
  have htry : Completes m (tryToMakeObjectLocal cb o) _ :=
    triple_tryToMakeObjectLocal o hm fun o r hr => (hexact.registered.listed o r hr).2.2
  obtain ⟨_, t, hrun, -, ht⟩ := htry.returns rfl
  refine ⟨t, hrun, ?_⟩
  rcases ht r hr hlocal hactive htime with ⟨hknown, hasked⟩ | ⟨hunasked, hworld⟩
  · refine ⟨fun _ => ⟨fun _ => hasked, fun hnot => absurd hasked.elsewhere hnot⟩, fun hstale => ?_⟩
    exact absurd (.inl hstale.1) hknown
  · refine ⟨fun hstale => ⟨fun helse => ?_, fun _ hurl => ?_⟩, fun hstale => ⟨hunasked.elsewhere_iff.mpr hstale, ?_⟩⟩
    · exact absurd (hunasked.elsewhere_iff.mp helse) hstale
    · refine hworld.trans (if_neg ?_)
      show (if cb.getLocallySpilledObjectUrl now o = "" ∧ r.spilledNodeId = NodeID.nil then r.spilledUrl
        else cb.getLocallySpilledObjectUrl now o) ≠ ""
      split <;> tauto
    · have hurl : restoreUrl cb m o r = cb.getLocallySpilledObjectUrl now o := if_neg fun h => hstale.2.1 h.2
      rw [hworld, hurl]

/-- A world that records the nodes that are asked; each request takes a second. -/
def recordingCallbacks : Callbacks (List NodeID) where
  selfNodeId := 1
  pullTimeoutMs := 1000
  objectIsLocal _ _ := false
  getTime asked := 1000 * asked.length
  getLocallySpilledObjectUrl _ _ := ""
  sendPullRequest _ n asked := n :: asked
  cancelPullRequest _ asked := asked
  restoreSpilledObject _ _ asked := asked
  pinObject _ asked := (none, asked)
  random _ asked := (0, asked)

lemma exists_pulled (ops : List PullOp) {v : List NodeID × NodeID × Int} {asked : List NodeID}
    (h : (runAll (PullOp.run recordingCallbacks) PullOp.Enabled ops (Client.start [] 32)).map (fun s =>
      ((s.manager.objectPullRequests.lookup ⟨0, 0⟩).map fun r => (r.clientLocations, r.spilledNodeId, r.nextPullTime),
        (s.manager.activeObjectPullRequests.lookup ⟨0, 0⟩).isSome,
        (final (tryToMakeObjectLocal recordingCallbacks ⟨0, 0⟩) s.manager).world)) = some (some v, true, asked)) :
    ∃ s r, Reaches (PullOp.run recordingCallbacks) PullOp.Enabled (Client.start [] 32) s ∧
      s.manager.objectPullRequests.lookup ⟨0, 0⟩ = some r ∧
      (r.clientLocations, r.spilledNodeId, r.nextPullTime) = v ∧
      (s.manager.activeObjectPullRequests.lookup ⟨0, 0⟩).isSome ∧
      (final (tryToMakeObjectLocal recordingCallbacks ⟨0, 0⟩) s.manager).world = asked := by
  obtain ⟨s, hs, hv⟩ := exists_reaches h
  rw [Prod.mk.injEq, Prod.mk.injEq] at hv
  obtain ⟨r, hr, hrv⟩ := Option.map_eq_some_iff.mp hv.1
  exact ⟨s, r, hs, hr, hrv, hv.2.1, hv.2.2⟩

theorem tryToMakeObjectLocal_source_second :
    ∃ s r t, Reaches (PullOp.run recordingCallbacks) PullOp.Enabled (Client.start [] 32) s ∧
      s.manager.objectPullRequests.lookup ⟨0, 0⟩ = some r ∧ r.clientLocations = [2] ∧
      Asked recordingCallbacks { s.manager with world := [2, 2] } ⟨0, 0⟩ r t := by
  obtain ⟨s, r, hs, hr, hv, hactive, -⟩ := exists_pulled (v := ([2], NodeID.nil, 2000))
    [.pull [exampleReference 0] .getRequest, .onLocationChange ⟨0, 0⟩ ⟨[1, 2], by decide⟩ "" NodeID.nil 8]
    (show _ = some (_, _, [2]) by decide +kernel)
  obtain ⟨hloc, hspilled, htime⟩ := by simpa only [Prod.mk.injEq] using hv
  obtain ⟨t, -, hasked, -⟩ := tryToMakeObjectLocal_source hs [2, 2] hr rfl hactive (by rw [htime]; decide)
  refine ⟨s, r, t, hs, hr, hloc, (hasked fun h => ?_).1 (.inl ⟨2, by rw [hloc]; decide, by decide⟩)⟩
  exact absurd (hloc.symm.trans h.1) (by decide)

/-- The object was spilled on node 2, and only this node is listed: nobody is asked. -/
theorem stale_location_not_asked :
    ∃ s r, Reaches (PullOp.run recordingCallbacks) PullOp.Enabled (Client.start [] 32) s ∧
      s.manager.objectPullRequests.lookup ⟨0, 0⟩ = some r ∧ r.Elsewhere recordingCallbacks ∧
      (s.manager.activeObjectPullRequests.lookup ⟨0, 0⟩).isSome ∧ r.nextPullTime ≤ 0 ∧
      (final (tryToMakeObjectLocal recordingCallbacks ⟨0, 0⟩) s.manager).world = [] := by
  obtain ⟨s, r, hs, hr, hv, hactive, hworld⟩ := exists_pulled (v := ([1], 2, 0))
    [.pull [exampleReference 0] .getRequest, .onLocationChange ⟨0, 0⟩ ⟨[1], by decide⟩ "url" 2 8]
    (show _ = some (_, _, []) by decide +kernel)
  obtain ⟨-, hspilled, htime⟩ := by simpa only [Prod.mk.injEq] using hv
  exact ⟨s, r, hs, hr, .inr (by rw [hspilled]; decide), hactive, htime.le, hworld⟩

end

variable {W : Type} {cb : Callbacks W} {s : Client W} {m : State W}

lemma Exact.active_of_stuck (hm : Exact m) {p : BundlePriority} (hstuck : Stuck p m) {x : Nat × PullBundleRequest}
    (hx : x ∈ (m.queues p).bundles) (hsized : ∀ y ∈ (m.queues p).bundles, y.1 ≤ x.1 → ∀ o ∈ y.2.ids, m.sizeSet o = true) :
    x ∈ m.active p := by
  have hordered := hm.registered.ordered p
  refine mem_filter.mpr ⟨hx, decide_eq_true (Nat.le_of_not_lt fun hlt => ?_)⟩
  cases hn : (m.queues p).nextRequest with
  | none => exact absurd (hordered.le_highest hn hx) (Nat.not_le.mpr hlt)
  | some e =>
    obtain ⟨before, after, hsplit, hbefore, -, hafter⟩ := hordered.nextRequest hn
    have heb : e ∈ (m.queues p).bundles := hsplit ▸ mem_append_right _ mem_cons_self
    have hle : e.1 ≤ x.1 := by
      rcases mem_append.mp (hsplit ▸ hx) with hx | hx
      · exact absurd (hbefore x hx) (Nat.not_le.mpr hlt)
      · rcases mem_cons.mp hx with rfl | hx
        · exact le_rfl
        · exact (hafter x hx).le
    have hmissing := hstuck e hn
    rw [hm.registered.missing p e heb, countP_pos_iff] at hmissing
    obtain ⟨o, ho, hunset⟩ := hmissing
    simp [hsized e heb hle o ho] at hunset

/-- After an update the quota is kept, unless one request or only those of gets are active, and every get is
active whose objects and those of the gets before it have known sizes. -/
theorem update_admits {w : W} {n : Int} (hs : Reaches (PullOp.run cb) PullOp.Enabled (Client.start w n) s)
    (numBytesAvailable : Int) : ∃ t, updatePullsBasedOnAvailableMemory cb numBytesAvailable s.manager = .ok () t ∧
      (0 ≤ t.remainingQuota ∨ countAll t.active ≤ 1 ∨ ∀ p, p ≠ .getRequest → t.active p = []) ∧
      ∀ x ∈ (t.queues .getRequest).bundles, (∀ y ∈ (t.queues .getRequest).bundles, y.1 ≤ x.1 →
        ∀ o ∈ y.2.ids, t.sizeSet o = true) → x ∈ t.active .getRequest := by
  have hupdate : Completes s.manager (updatePullsBasedOnAvailableMemory cb numBytesAvailable) _ :=
    admitted_update numBytesAvailable (served_of_reaches hs).exact
  obtain ⟨_, t, hrun, ht⟩ := hupdate.returns rfl
  have hexact := ht.moved.exact
  refine ⟨t, hrun, ?_, fun x hx hsized => hexact.active_of_stuck ht.stuck hx hsized⟩
  rw [← hexact.pulling.count]
  refine ht.quota.imp_right (Or.imp_right fun hnull p hp => ?_)
  have hp : (t.queues p).highest = 0 := by
    cases p with
    | getRequest => exact absurd rfl hp
    | waitRequest => exact hnull.2
    | taskArgs => exact hnull.1
  refine filter_eq_nil_iff.mpr fun e he => ?_
  have hpos := (hexact.registered.ordered p).positive e he
  rw [hp, decide_eq_true_iff]
  omega

theorem update_admits_example :
    ∃ s t, Reaches (PullOp.run exampleCallbacks) PullOp.Enabled (Client.start () 32) s ∧
      updatePullsBasedOnAvailableMemory exampleCallbacks 4 s.manager = .ok () t ∧
      (0 ≤ t.remainingQuota ∨ countAll t.active ≤ 1 ∨ ∀ p, p ≠ .getRequest → t.active p = []) := by
  have hrun : (runAll (PullOp.run exampleCallbacks) PullOp.Enabled exampleRun (Client.start () 32)).map
      (fun s => s.live.length) = some 1 := by decide +kernel
  obtain ⟨s, hs, -⟩ := exists_reaches hrun
  obtain ⟨t, ht, hquota, -⟩ := update_admits hs 4
  exact ⟨s, t, hs, ht, hquota⟩

end AmazonRay.PullManager
