import AmazonRay.PullManager.Requesting

/-! The first notice of the size of an object is counted in each request for it. -/
namespace AmazonRay.PullManager
open Program List Function State

variable {W : Type} {cb : Callbacks W} {m t : State W} {p : BundlePriority} {e : Nat × PullBundleRequest}
  {o : ObjectID} {r r' : ObjectPullRequest} {done : List Nat}

def sizedIn (done : List Nat) (e : Nat × PullBundleRequest) : Nat × PullBundleRequest :=
  if e.1 ∈ done then (e.1, { e.2 with numObjectSizesMissing := e.2.numObjectSizesMissing - 1 }) else e

@[simp] lemma sizedIn_fst (done : List Nat) (e : Nat × PullBundleRequest) : (sizedIn done e).1 = e.1 := by
  unfold sizedIn
  split <;> rfl

@[simp] lemma sizedIn_ids (done : List Nat) (e : Nat × PullBundleRequest) : (sizedIn done e).2.ids = e.2.ids := by
  unfold sizedIn
  split <;> rfl

/-- An object has got its size, and the requests `done` know it. -/
structure Sized (m : State W) (o : ObjectID) (r' : ObjectPullRequest) (done : List Nat) (t : State W) : Prop
    extends SamePulls m t where
  queues : ∀ p, t.queues p = { m.queues p with bundles := (m.queues p).bundles.map (sizedIn done) }
  requests : t.objectPullRequests = m.objectPullRequests.insert o r'
  nextReqId : t.nextReqId = m.nextReqId

lemma Sized.queueOf (h : Sized m o r' done t) {id : Nat} (hid : id ∉ done) : t.queueOf id = m.queueOf id := by
  have hfind p : (t.queues p).find id = (m.queues p).find id := by
    unfold Queue.find
    rw [h.queues]
    have hcomp : ((fun e : Nat × PullBundleRequest => decide (e.1 = id)) ∘ sizedIn done) =
        fun e => decide (e.1 = id) := by
      funext e
      simp
    rw [find?_map, hcomp]
    cases hf : (m.queues p).bundles.find? (·.1 = id) with
    | none => rfl
    | some e =>
      have heid : e.1 = id := of_decide_eq_true (find?_some hf :)
      rw [Option.map_some, sizedIn, if_neg (heid ▸ hid)]
  unfold State.queueOf
  simp only [hfind]

lemma Registered.mem_iff (hm : Registered m) (hr : m.objectPullRequests.lookup o = some r)
    (he : e ∈ (m.queues p).bundles) : e.1 ∈ r.bundleRequestIds ↔ o ∈ e.2.ids := by
  have hiff := hm.requests o e.1
  rw [requestIds, hr, Option.elim_some] at hiff
  rw [hiff]
  constructor
  · rintro ⟨p', x, hx, hid, ho⟩
    obtain rfl := hm.apart p' p x e hx he hid
    rwa [(hm.ordered p').eq_of_id_eq he hx hid] at ho
  · exact fun ho => ⟨p, e, he, rfl, ho⟩

lemma sized_registerIn (hm : Registered m) (hr : m.objectPullRequests.lookup o = some r)
    (hsize : r.objectSizeSet = false) {id : Nat} (hid : id ∈ r.bundleRequestIds) (hnot : id ∉ done) :
    Triple (fun t => Sized m o r' done t) (registerIn id) (fun _ t => Sized m o r' (done ++ [id]) t)
      fun _ _ => False := by
  have hmem := (hm.requests o id).mp (by rw [requestIds, hr]; exact hid)
  obtain ⟨p, e, he, rfl, ho⟩ := hmem
  refine .read fun t ht => ?_
  rw [ht.queueOf hnot, hm.queueOf_eq_some.mpr he]
  have hpos : 0 < e.2.numObjectSizesMissing := by
    rw [hm.missing p e he]
    refine countP_pos_iff.mpr ⟨o, ho, ?_⟩
    rw [sizeSet, hr, Option.any_some, hsize]
    rfl
  refine .seq (.passed hpos) (.updated ?_)
  refine { ht with queues := fun p' => ?_ }
  show update t.queues p _ p' = _
  by_cases hp : p' = p
  · subst hp
    rw [update_self, Queue.put, ht.queues]
    rw [map_map]
    refine congrArg (fun l => Queue.mk l _) (map_congr_left fun x hx => ?_)
    rw [comp_apply, sizedIn_fst]
    by_cases hxe : x.1 = e.1
    · rw [(hm.ordered p').eq_of_id_eq he hx hxe, if_pos rfl, sizedIn, if_pos (by simp)]
    · rw [if_neg hxe]
      simp [sizedIn, hxe]
  · rw [update_of_ne hp, ht.queues]
    refine congrArg (fun l => Queue.mk l _) (map_congr_left fun x hx => ?_)
    have hxe : x.1 ≠ e.1 := fun h => hp (hm.apart p' p x e hx he h)
    simp [sizedIn, hxe]

lemma sized_forM (r' : ObjectPullRequest) (hm : Registered m) (hr : m.objectPullRequests.lookup o = some r)
    (hsize : r.objectSizeSet = false) :
    Triple (fun t => Sized m o r' [] t) (r.bundleRequestIds.forM registerIn)
      (fun _ t => Sized m o r' r.bundleRequestIds t) fun _ _ => False := by
  have hnodup := (hm.listed o r hr).2.1
  refine (Triple.forM (I := fun l t => ∃ done, Sized m o r' done t ∧ r.bundleRequestIds = done ++ l) (fun id l => ?_)
    r.bundleRequestIds).conseq (fun t ht => ⟨[], ht, rfl⟩) ?_ fun _ _ h => h
  · refine .chosen fun done => .given fun hdone => ?_
    have hid : id ∈ r.bundleRequestIds := by simp [hdone]
    refine (sized_registerIn hm hr hsize hid (notMem_of_nodup hnodup hdone)).post fun _ t ht => ⟨done ++ [id], ht, ?_⟩
    rw [hdone, append_assoc]
    rfl
  · rintro _ t ⟨done, ht, hdone⟩
    rw [append_nil] at hdone
    rw [hdone]
    exact ht

section

variable (hm : Registered m) (hr : m.objectPullRequests.lookup o = some r) (hsize : r.objectSizeSet = false)
  (h : Sized m o r' r.bundleRequestIds t) (hset : r'.objectSizeSet = true)
  (hids : r'.bundleRequestIds = r.bundleRequestIds)
include hm hr hsize h hset hids

omit hm hids hr hsize in
lemma Sized.sizeSet (x : ObjectID) : t.sizeSet x = if x = o then true else m.sizeSet x := by
  rw [State.sizeSet, h.requests, Table.lookup_insert, State.sizeSet]
  by_cases hx : x = o
  · rw [if_pos hx, if_pos hx]
    exact hset
  · rw [if_neg hx, if_neg hx]

omit hm hset hsize in
lemma Sized.requestIds : t.requestIds = m.requestIds := by
  funext x
  rw [State.requestIds, h.requests, Table.lookup_insert, State.requestIds]
  by_cases hx : x = o
  · rw [if_pos hx, hx, hr]
    exact hids
  · rw [if_neg hx]

omit hids in
lemma Sized.missing (he : e ∈ (m.queues p).bundles) :
    (sizedIn r.bundleRequestIds e).2.numObjectSizesMissing = e.2.ids.countP fun x => !t.sizeSet x := by
  have hiff := hm.mem_iff hr he
  have hnodup := hm.distinct p e he
  have hmissing := hm.missing p e he
  unfold sizedIn
  by_cases ho : o ∈ e.2.ids
  · obtain ⟨before, after, hsplit⟩ := append_of_mem ho
    have hcount : ∀ l : List ObjectID, o ∉ l → (l.countP fun x => !t.sizeSet x) = l.countP fun x => !m.sizeSet x := by
      intro l hl
      refine countP_congr fun x hx => ?_
      rw [h.sizeSet hset, if_neg (ne_of_mem_of_not_mem hx hl)]
    rw [hsplit, nodup_append, nodup_cons] at hnodup
    have hbefore : o ∉ before := fun hx => hnodup.2.2 o hx o mem_cons_self rfl
    have hold : (!m.sizeSet o) = true := by
      rw [State.sizeSet, hr, Option.any_some, hsize]
      rfl
    have hnew : (!t.sizeSet o) = false := by
      rw [h.sizeSet hset, if_pos rfl]
      rfl
    rw [if_pos (hiff.mpr ho)]
    rw [hmissing, hsplit, countP_append, countP_append, countP_cons, countP_cons, hold, hnew,
      hcount before hbefore, hcount after hnodup.2.1.1]
    simp
  · rw [if_neg fun hid => ho (hiff.mp hid), hmissing]
    refine countP_congr fun x hx => ?_
    rw [h.sizeSet hset, if_neg (ne_of_mem_of_not_mem hx ho)]

lemma Sized.registered (hl : r'.clientLocations.Nodup) : Registered t := by
  have hmem : ∀ p x, x ∈ (t.queues p).bundles → ∃ e ∈ (m.queues p).bundles, sizedIn r.bundleRequestIds e = x := by
    intro p x hx
    rw [h.queues] at hx
    exact mem_map.mp hx
  constructor
  · intro p
    have hordered := hm.ordered p
    rw [h.queues]
    refine ⟨?_, fun x hx => ?_, hordered.pointer.imp_right ?_⟩
    · refine pairwise_map.mpr (hordered.sorted.imp fun hlt => ?_)
      rw [sizedIn_fst, sizedIn_fst]
      exact hlt
    · obtain ⟨e, he, rfl⟩ := mem_map.mp hx
      rw [sizedIn_fst]
      exact hordered.positive e he
    · rintro ⟨e, he, hid⟩
      exact ⟨_, mem_map_of_mem he, (sizedIn_fst _ e).trans hid⟩
  · exact h.nextReqId ▸ hm.next
  · intro p x hx
    obtain ⟨e, he, rfl⟩ := hmem p x hx
    rw [sizedIn_fst, h.nextReqId]
    exact hm.fresh p e he
  · intro p₁ p₂ x x' hx hx' hid
    obtain ⟨e, he, rfl⟩ := hmem p₁ x hx
    obtain ⟨e', he', rfl⟩ := hmem p₂ x' hx'
    rw [sizedIn_fst, sizedIn_fst] at hid
    exact hm.apart p₁ p₂ e e' he he' hid
  · intro p x hx
    obtain ⟨e, he, rfl⟩ := hmem p x hx
    rw [sizedIn_ids]
    exact hm.distinct p e he
  · intro p x hx
    obtain ⟨e, he, rfl⟩ := hmem p x hx
    rw [sizedIn_ids]
    exact h.missing hm hr hsize hset he
  · intro x id
    rw [h.requestIds hr hids, hm.requests]
    constructor
    · rintro ⟨p, e, he, hid, hx⟩
      refine ⟨p, sizedIn r.bundleRequestIds e, ?_, (sizedIn_fst _ e).trans hid, ?_⟩
      · rw [h.queues]
        exact mem_map_of_mem he
      · rwa [sizedIn_ids]
    · rintro ⟨p, x', hx', hid, hx⟩
      obtain ⟨e, he, rfl⟩ := hmem p x' hx'
      rw [sizedIn_fst] at hid
      rw [sizedIn_ids] at hx
      exact ⟨p, e, he, hid, hx⟩
  · intro x r₀ hr₀
    rw [h.requests] at hr₀
    rcases Table.lookup_of_insert hr₀ with ⟨-, rfl⟩ | ⟨-, hr₀⟩
    · have hlisted := hm.listed o r hr
      exact ⟨hids ▸ hlisted.1, hids ▸ hlisted.2.1, hl⟩
    · exact hm.listed x r₀ hr₀

end

lemma Exact.not_active (hm : Exact m) (hr : m.objectPullRequests.lookup o = some r)
    (hsize : r.objectSizeSet = false) (he : e ∈ m.active p) : o ∉ e.2.ids := by
  intro ho
  have hzero := hm.pulling.sized p e he
  rw [hm.registered.missing p e (mem_filter.mp he).1, countP_eq_zero] at hzero
  refine hzero o ho ?_
  rw [sizeSet, hr, Option.any_some, hsize]
  rfl

lemma Sized.exact (hm : Exact m) (hr : m.objectPullRequests.lookup o = some r)
    (hsize : r.objectSizeSet = false) (h : Sized m o r' r.bundleRequestIds t) (hset : r'.objectSizeSet = true)
    (hids : r'.bundleRequestIds = r.bundleRequestIds) (hl : r'.clientLocations.Nodup) : Exact t := by
  refine ⟨h.registered hm.registered hr hsize hset hids hl, ?_⟩
  have hactive : t.active = m.active := by
    funext p
    rw [State.active, Queue.active, h.queues]
    have hcomp : ((fun e : Nat × PullBundleRequest => decide (e.1 ≤ (m.queues p).highest)) ∘
        sizedIn r.bundleRequestIds) = fun e => decide (e.1 ≤ (m.queues p).highest) := by
      funext e
      simp
    rw [filter_map, hcomp]
    refine (map_congr_left fun e he => ?_).trans (map_id _)
    refine if_neg fun hid => hm.not_active hr hsize he ?_
    exact (hm.registered.mem_iff hr (mem_filter.mp he).1).mp hid
  rw [hactive]
  refine ⟨hm.pulling.tracks.same h.bytes h.active h.pinned h.pinnedSize fun x hx => ?_,
    h.numActive.trans hm.pulling.count, hm.pulling.sized⟩
  obtain ⟨id, p, e, he, -, hxe⟩ := (hm.pulling.tracks.isSome_iff x).mp hx
  have hne : x ≠ o := fun hxo => hm.not_active hr hsize he (hxo ▸ hxe)
  rw [State.sizeOf, h.requests, Table.lookup_insert, if_neg hne, State.sizeOf]

lemma Sized.requests_eq (h : Sized m o r' done t) : t.requests = m.requests := by
  funext p
  rw [State.requests, h.queues, State.requests, map_map]
  refine map_congr_left fun e _ => ?_
  rw [comp_apply, sizedIn_fst, sizedIn_ids]

lemma triple_onLocationChange (o : ObjectID) (clientIds : { l : List NodeID // l.Nodup })
    (spilledUrl : String) (spilledNodeId : NodeID) (objectSize : Nat) (hm : Exact m) :
    Completes m (onLocationChange cb o clientIds spilledUrl spilledNodeId objectSize)
      fun _ t => Exact t ∧ t.requests = m.requests := by
  refine .seen ?_
  cases hr : m.objectPullRequests.lookup o with
  | none =>
    exact .done ⟨hm, rfl⟩
  | some r =>
    have hlocal : Triple (fun t => Exact t ∧ t.requests = m.requests) (tryToMakeObjectLocal cb o)
        (fun _ t => Exact t ∧ t.requests = m.requests) fun _ _ => False := by
      intro t ht
      refine (settles_tryToMakeObjectLocal o t ht.1).post (fun _ u hu => ?_) t rfl
      exact ⟨hu.exact, hu.same.requests.trans ht.2⟩
    refine .bind (.ite (fun hset => ?_) fun hset => ?_) fun _ => hlocal
    · have hu : Untouched m (m.withRequest o { r with clientLocations := clientIds.val, spilledUrl, spilledNodeId }) :=
        untouched_withRequest hr rfl fun _ => clientIds.2
      exact .set fun _ _ => ⟨hm.untouched hu, hu.requests⟩
    · have hset := Bool.eq_false_iff.mpr hset
      have hsized := sized_forM { r with
        clientLocations := clientIds.val, spilledUrl, spilledNodeId, objectSize, objectSizeSet := true }
        hm.registered hr hset
      refine .bind (.set fun _ _ => ?_) fun _ => .seq hsized (.read fun t ht => ?_)
      · refine ⟨⟨rfl, rfl, rfl, rfl, rfl⟩, fun p => ?_, rfl, rfl⟩
        have hid : sizedIn [] = id := funext fun e => if_neg not_mem_nil
        rw [hid, map_id]
        rfl
      · have hexact := ht.exact hm hr hset rfl rfl clientIds.2
        exact (settles_update _ t hexact).post fun _ u hu => ⟨hu.exact, hu.same.requests.trans ht.requests_eq⟩

end AmazonRay.PullManager
