import AmazonRay.PullManager.Activation

/-! New requests and canceled requests keep the bookkeeping exact. -/
namespace AmazonRay.PullManager
open Program List Function State ObjectReference ObjectPullRequest

section

variable {W : Type} {cb : Callbacks W} {m t : State W} {p : BundlePriority} {refs : List ObjectReference}
  {done : List ObjectID}

def requested (cb : Callbacks W) (m : State W) (o : ObjectID) : ObjectPullRequest :=
  match m.objectPullRequests.lookup o with
  | none => { nextPullTime := cb.getTime m.world, bundleRequestIds := [m.nextReqId] }
  | some r => { r with bundleRequestIds := r.bundleRequestIds.insert m.nextReqId }

def newRequest (m : State W) (refs : List ObjectReference) (done : List ObjectID) : Nat × PullBundleRequest :=
  (m.nextReqId, ⟨refs, refs.length - done.countP m.sizeSet⟩)

/-- A new request is in its queue, and is known to the first `done` of its objects. -/
structure Requested (cb : Callbacks W) (m : State W) (p : BundlePriority) (refs : List ObjectReference)
    (done : List ObjectID) (t : State W) : Prop extends SamePulls m t where
  queues : t.queues = Function.update m.queues p { m.queues p with
    bundles := (m.queues p).bundles ++ [newRequest m refs done] }
  lookup : ∀ o, t.objectPullRequests.lookup o =
    if o ∈ done then some (requested cb m o) else m.objectPullRequests.lookup o
  nextReqId : t.nextReqId = m.nextReqId + 1
  world : t.world = m.world

variable {o : ObjectID}

section

variable (h : Requested cb m p refs done t) (p' : BundlePriority)
include h

lemma Requested.sizes (o : ObjectID) : t.sizeSet o = m.sizeSet o ∧ t.sizeOf o = m.sizeOf o := by
  rw [State.sizeSet, State.sizeOf, h.lookup, State.sizeSet, State.sizeOf]
  by_cases ho : o ∈ done
  · rw [if_pos ho, requested]
    cases m.objectPullRequests.lookup o <;> exact ⟨rfl, rfl⟩
  · rw [if_neg ho]
    exact ⟨rfl, rfl⟩

lemma Requested.requestIds (o : ObjectID) (id : Nat) :
    id ∈ t.requestIds o ↔ id ∈ m.requestIds o ∨ o ∈ done ∧ id = m.nextReqId := by
  rw [State.requestIds, h.lookup, State.requestIds]
  by_cases ho : o ∈ done
  · rw [if_pos ho, requested]
    cases m.objectPullRequests.lookup o with
    | none => simp [ho]
    | some r => simp [ho, or_comm]
  · simp [ho]

lemma Requested.mem_bundles (e : Nat × PullBundleRequest) : e ∈ (t.queues p').bundles ↔ e ∈ (m.queues p').bundles ∨
      p' = p ∧ e = newRequest m refs done := by
  rw [h.queues]
  by_cases hp : p' = p
  · subst hp
    simp
  · simp [hp]

lemma Requested.highest : (t.queues p').highest = (m.queues p').highest := by
  rw [h.queues]
  by_cases hp : p' = p
  · subst hp
    rw [update_self]
  · rw [update_of_ne hp]

lemma Requested.ordered (hm : Registered m) (p' : BundlePriority) : (t.queues p').Ordered := by
  have hordered := hm.ordered p'
  by_cases hp : p' = p
  · subst hp
    have hbundles : (t.queues p').bundles = (m.queues p').bundles ++ [newRequest m refs done] := by
      rw [h.queues, update_self]
    constructor
    · rw [hbundles, pairwise_append]
      refine ⟨hordered.sorted, pairwise_singleton _ _, fun e he e' he' => ?_⟩
      rw [mem_singleton.mp he']
      exact hm.fresh p' e he
    · intro e he
      rcases (h.mem_bundles p' e).mp he with he | ⟨-, rfl⟩
      · exact hordered.positive e he
      · exact hm.next
    · rw [h.highest]
      exact hordered.pointer.imp_right fun ⟨e, he, hid⟩ => ⟨e, (h.mem_bundles p' e).mpr (.inl he), hid⟩
  · rw [h.queues, update_of_ne hp]
    exact hordered

end

lemma Requested.registered (hm : Registered m) (hrefs : (refs.map objectId).Nodup)
    (h : Requested cb m p refs (refs.map objectId) t) : Registered t := by
  constructor
  · exact h.ordered hm
  · rw [h.nextReqId]
    exact Nat.succ_pos _
  · intro p' e he
    rw [h.nextReqId]
    rcases (h.mem_bundles p' e).mp he with he | ⟨-, rfl⟩
    · exact Nat.lt_succ_of_lt (hm.fresh p' e he)
    · exact Nat.lt_succ_self _
  · intro p₁ p₂ e e' he he' hid
    rcases (h.mem_bundles p₁ e).mp he with he | ⟨hp, rfl⟩
    · rcases (h.mem_bundles p₂ e').mp he' with he' | ⟨hp', rfl⟩
      · exact hm.apart p₁ p₂ e e' he he' hid
      · exact absurd hid (hm.fresh p₁ e he).ne
    · rcases (h.mem_bundles p₂ e').mp he' with he' | ⟨hp', rfl⟩
      · exact absurd hid (hm.fresh p₂ e' he').ne'
      · rw [hp, hp']
  · intro p' e he
    rcases (h.mem_bundles p' e).mp he with he | ⟨-, rfl⟩
    · exact hm.distinct p' e he
    · exact hrefs
  · intro p' e he
    rw [funext fun o => (h.sizes o).1]
    rcases (h.mem_bundles p' e).mp he with he | ⟨-, rfl⟩
    · exact hm.missing p' e he
    · have hlen := length_eq_countP_add_countP (l := refs.map objectId) m.sizeSet
      rw [length_map] at hlen
      have hnot : (refs.map objectId).countP (fun o => !m.sizeSet o) =
          (refs.map objectId).countP (fun o => decide ¬ m.sizeSet o = true) :=
        countP_congr fun o _ => by simp
      show refs.length - _ = (refs.map objectId).countP _
      omega
  · intro o id
    rw [h.requestIds, hm.requests]
    constructor
    · rintro (⟨p', e, he, hid⟩ | ⟨ho, rfl⟩)
      · exact ⟨p', e, (h.mem_bundles p' e).mpr (.inl he), hid⟩
      · exact ⟨p, _, (h.mem_bundles p _).mpr (.inr ⟨rfl, rfl⟩), rfl, ho⟩
    · rintro ⟨p', e, he, hid⟩
      rcases (h.mem_bundles p' e).mp he with he | ⟨-, rfl⟩
      · exact .inl ⟨p', e, he, hid⟩
      · exact .inr ⟨hid.2, hid.1.symm⟩
  · intro o r hr
    rw [h.lookup] at hr
    by_cases ho : o ∈ refs.map objectId
    · rw [if_pos ho, requested] at hr
      cases hold : m.objectPullRequests.lookup o with
      | none =>
        rw [hold] at hr
        cases hr
        exact ⟨cons_ne_nil _ _, nodup_singleton _, nodup_nil⟩
      | some r' =>
        rw [hold] at hr
        cases hr
        obtain ⟨-, hnodup, hlocations⟩ := hm.listed o r' hold
        exact ⟨ne_nil_of_mem mem_insert_self, hnodup.insert, hlocations⟩
    · rw [if_neg ho] at hr
      exact hm.listed o r hr

lemma Requested.exact (hm : Exact m) (hrefs : (refs.map objectId).Nodup)
    (h : Requested cb m p refs (refs.map objectId) t) : Exact t := by
  refine ⟨h.registered hm.registered hrefs, ?_⟩
  have hactive : t.active = m.active := by
    funext p'
    have hnew : (m.queues p').highest < m.nextReqId := by
      rcases (hm.registered.ordered p').pointer with hzero | ⟨e, he, hid⟩
      · rw [hzero]
        exact hm.registered.next
      · exact hid ▸ hm.registered.fresh p' e he
    rw [State.active, Queue.active, h.highest, State.active, Queue.active, h.queues]
    by_cases hp : p' = p
    · subst hp
      rw [update_self]
      rw [filter_append, filter_cons_of_neg (by simpa [newRequest] using hnew), filter_nil, append_nil]
    · rw [update_of_ne hp]
  rw [hactive]
  refine ⟨?_, h.numActive.trans hm.pulling.count, hm.pulling.sized⟩
  exact hm.pulling.tracks.same h.bytes h.active h.pinned h.pinnedSize fun o _ => (h.sizes o).2

lemma Requested.add (h : Requested cb m p refs done t) (hsize : m.sizeSet o = false) :
    Requested cb m p refs (done ++ [o]) (t.withRequest o (requested cb m o)) := by
  refine { h with queues := ?_, lookup := fun x => ?_ }
  · show t.queues = _
    rw [h.queues, newRequest, newRequest, countP_append, countP_singleton, hsize]
    rfl
  · show (t.objectPullRequests.insert o _).lookup x = _
    rw [Table.lookup_insert, h.lookup]
    by_cases hx : x = o
    · simp [hx]
    · simp [hx]

lemma requested_register (hm : Registered m) (h : Requested cb m p refs done t)
    (hlt : done.countP m.sizeSet < refs.length) (hsize : m.sizeSet o = true) :
    Completes t (((t.queues p).find m.nextReqId).toList.forM (registerObjectSize p m.nextReqId))
      fun _ u => Requested cb m p refs (done ++ [o]) (u.withRequest o (requested cb m o)) := by
  have hmem : newRequest m refs done ∈ (t.queues p).bundles := (h.mem_bundles p _).mpr (.inr ⟨rfl, rfl⟩)
  have hfind : (t.queues p).find m.nextReqId = some (newRequest m refs done).2 := (h.ordered hm p).find_eq_some.mpr hmem
  rw [hfind]
  refine .bind (.seq (.passed (Nat.sub_pos_of_lt hlt)) (.update ?_)) fun _ => .skip
  rintro u rfl
  refine { h with queues := ?_, lookup := fun x => ?_ }
  · show update u.queues p _ = _
    rw [h.queues, update_idem, update_self]
    refine congrArg (update m.queues p) ?_
    have hcount : refs.length - done.countP m.sizeSet - 1 = refs.length - (done ++ [o]).countP m.sizeSet := by
      rw [countP_append, countP_singleton, hsize]
      exact Nat.sub_sub _ _ _
    have hold : (m.queues p).bundles.map (fun e => if e.1 = m.nextReqId then
        newRequest m refs (done ++ [o]) else e) = (m.queues p).bundles := by
      refine (map_congr_left fun e he => ?_).trans (map_id _)
      exact if_neg (hm.fresh p e he).ne
    unfold Queue.put
    dsimp only [newRequest] at hold ⊢
    rw [hcount, map_append, hold, map_cons, if_pos rfl, map_nil]
  · show (u.objectPullRequests.insert o _).lookup x = _
    rw [Table.lookup_insert, h.lookup]
    by_cases hx : x = o
    · simp [hx]
    · simp [hx]

lemma requested_foldlM (hm : Registered m) (hrefs : (refs.map objectId).Nodup) :
    Triple (fun t => Requested cb m p refs [] t) (refs.foldlM (requestObject cb p m.nextReqId) [])
      (fun toLocate t => Requested cb m p refs (refs.map objectId) t ∧
        toLocate = refs.filter fun ref => (m.objectPullRequests.lookup ref.objectId).isNone)
      fun _ _ => False := by
  refine (Triple.foldlM_done (I := fun done acc t => Requested cb m p refs (done.map objectId) t ∧
      acc = done.filter fun ref => (m.objectPullRequests.lookup ref.objectId).isNone)
    (fun acc done ref l hdone => ?_) []).pre fun t ht => ⟨ht, rfl⟩
  refine .read fun t ht => ?_
  obtain ⟨ht, hacc⟩ := ht
  have hnot : ref.objectId ∉ done.map objectId :=
    notMem_of_nodup hrefs (by rw [hdone, map_append, map_cons])
  have hlookup := ht.lookup ref.objectId
  rw [if_neg hnot] at hlookup
  rw [hlookup]
  cases hr : m.objectPullRequests.lookup ref.objectId with
  | none =>
    have hsize : m.sizeSet ref.objectId = false := by rw [sizeSet, hr]; rfl
    have hadd := ht.add hsize
    rw [requested, hr] at hadd
    refine .seq (.set (Q := fun _ u => Requested cb m p refs
      ((done ++ [ref]).map objectId) u) fun _ _ => ?_) (.pure fun u hu => ?_)
    · rw [map_append, ht.world]
      exact hadd
    · refine ⟨hu, ?_⟩
      rw [hacc, filter_append, filter_cons_of_pos (by rw [hr]; rfl), filter_nil]
  | some r =>
    dsimp only
    have hreq : requested cb m ref.objectId =
        { r with bundleRequestIds := r.bundleRequestIds.insert m.nextReqId } := by rw [requested, hr]
    have hfilter : acc = ((done ++ [ref]).filter fun ref => (m.objectPullRequests.lookup ref.objectId).isNone) := by
      rw [hacc, filter_append, filter_cons_of_neg (by rw [hr]; exact Bool.false_ne_true), filter_nil, append_nil]
    rw [← hreq]
    refine .bind (.onlyIf (fun hset => ?_) fun hset => ?_)
        fun _ => .bind (.update fun u hu => hu) fun _ => .pure fun u hu => ⟨hu, hfilter⟩
    · rw [map_append]
      refine requested_register hm ht ?_ (by rw [sizeSet, hr]; exact hset)
      have hle := countP_le_length (p := m.sizeSet) (l := done.map objectId)
      rw [length_map] at hle
      rw [hdone, length_append, length_cons]
      omega
    · rintro u rfl
      rw [map_append]
      refine ht.add ?_
      rw [sizeSet, hr]
      exact Bool.eq_false_iff.mpr hset

lemma deduplicate_spec (refs : List ObjectReference) : ((deduplicate refs).map objectId).Nodup ∧ ∀ o,
      o ∈ (deduplicate refs).map objectId ↔ o ∈ refs.map objectId := by
  have hloop : ∀ (l seen : List ObjectReference), (seen.map objectId).Nodup →
      ((l.foldl (fun seen ref => if ref.objectId ∈ seen.map objectId then seen
        else seen ++ [ref]) seen).map objectId).Nodup ∧ ∀ o,
      o ∈ (l.foldl (fun seen ref => if ref.objectId ∈ seen.map objectId then seen
        else seen ++ [ref]) seen).map objectId ↔
        o ∈ seen.map objectId ∨ o ∈ l.map objectId := by
    intro l
    induction l with
    | nil => exact fun seen hseen => ⟨hseen, fun o => by simp⟩
    | cons ref l ih =>
      intro seen hseen
      rw [foldl_cons]
      by_cases hmem : ref.objectId ∈ seen.map objectId
      · rw [if_pos hmem]
        refine ⟨(ih seen hseen).1, fun o => ?_⟩
        rw [(ih seen hseen).2, map_cons, mem_cons]
        constructor
        · exact fun h => h.imp_right .inr
        · rintro (h | rfl | h)
          exacts [.inl h, .inl hmem, .inr h]
      · rw [if_neg hmem]
        have hnodup : ((seen ++ [ref]).map objectId).Nodup := by
          rw [map_append, map_cons, map_nil, ← concat_eq_append]
          exact hseen.concat hmem
        refine ⟨(ih _ hnodup).1, fun o => ?_⟩
        rw [(ih _ hnodup).2, map_append, mem_append, map_cons, mem_cons, or_assoc]
        simp
  obtain ⟨hnodup, hmem⟩ := hloop refs [] nodup_nil
  exact ⟨hnodup, fun o => (hmem o).trans (by simp)⟩

lemma triple_pull (refs : List ObjectReference) (p : BundlePriority) (hm : Exact m) :
    Completes m (pull cb refs p) fun r u => Exact u ∧ r.1 = m.nextReqId ∧
      r.2 = ((deduplicate refs).filter fun ref => (m.objectPullRequests.lookup ref.objectId).isNone) ∧
      ∃ t, Requested cb m p (deduplicate refs) ((deduplicate refs).map objectId) t ∧
        SameRequests t u := by
  have hnodup := (deduplicate_spec refs).1
  refine .seen ?_
  refine .bind (.set fun _ _ => ?_) fun _ => .bind (requested_foldlM hm.registered hnodup) fun toLocate => ?_
  · exact ⟨⟨rfl, rfl, rfl, rfl, rfl⟩, rfl, fun o => by simp [withQueue], rfl, rfl⟩
  refine .given fun hto => .read fun t ht => ?_
  refine .seq (settles_update _ t (ht.exact hm hnodup)) (.pure fun u hu => ?_)
  exact ⟨hu.exact, rfl, hto, t, ht, hu.same⟩

end

variable {W : Type} {cb : Callbacks W} {m t u : State W} {p : BundlePriority} {e : Nat × PullBundleRequest} {b : PullBundleRequest} {id : Nat}

lemma Registered.queueOf_eq_some (hm : Registered m) : m.queueOf id = some (p, b) ↔ (id, b) ∈ (m.queues p).bundles := by
  have hfind : ∀ p' b', (m.queues p').find id = some b' ↔ (id, b') ∈ (m.queues p').bundles :=
    fun p' b' => (hm.ordered p').find_eq_some
  constructor
  · intro h
    obtain ⟨p', -, hp'⟩ := exists_of_findSome?_eq_some h
    obtain ⟨b', hb', heq⟩ := Option.map_eq_some_iff.mp hp'
    cases heq
    exact (hfind p b).mp hb'
  · intro hmem
    cases hq : m.queueOf id with
    | none =>
      have hall := findSome?_eq_none_iff.mp hq p (by cases p <;> simp)
      rw [(hfind p b).mpr hmem] at hall
      cases hall
    | some x =>
      obtain ⟨p', -, hp'⟩ := exists_of_findSome?_eq_some hq
      obtain ⟨b', hb', rfl⟩ := Option.map_eq_some_iff.mp hp'
      have hb' := (hfind p' b').mp hb'
      obtain rfl := hm.apart p' p _ _ hb' hmem rfl
      cases (hm.ordered p').eq_of_id_eq hmem hb' rfl
      rfl

def released (reqId : Nat) (r : ObjectPullRequest) : Option ObjectPullRequest :=
  if r.bundleRequestIds.filter (· ≠ reqId) = [] then none
  else some { r with bundleRequestIds := r.bundleRequestIds.filter (· ≠ reqId) }

lemma released_congr {x y : Option ObjectPullRequest} (reqId : Nat) (h : x.map facts = y.map facts) :
    (x.bind (released reqId)).map facts = (y.bind (released reqId)).map facts ∧
      (x.any fun r => (released reqId r).isNone) = y.any fun r => (released reqId r).isNone := by
  cases x with
  | none =>
    cases y with
    | none => exact ⟨rfl, rfl⟩
    | some r => cases h
  | some r =>
    cases y with
    | none => cases h
    | some r' =>
      have hfacts : r.facts = r'.facts := Option.some.inj h
      have hids : r.bundleRequestIds = r'.bundleRequestIds := congrArg (fun f => f.2.2) hfacts
      rw [Option.bind_some, Option.bind_some, Option.any_some, Option.any_some, released, released, hids]
      split
      · exact ⟨rfl, rfl⟩
      · refine ⟨?_, rfl⟩
        rw [Option.map_some, Option.map_some]
        simp only [facts, Prod.mk.injEq] at hfacts ⊢
        rw [hfacts.1, hfacts.2.1]

/-- The first `done` objects do not know the request any more. -/
structure Released (reqId : Nat) (m : State W) (done : List ObjectID) (t : State W) : Prop extends SamePulls m t where
  queues : t.queues = m.queues
  lookup : ∀ o, t.objectPullRequests.lookup o =
    if o ∈ done then (m.objectPullRequests.lookup o).bind (released reqId)
    else m.objectPullRequests.lookup o
  nextReqId : t.nextReqId = m.nextReqId

lemma released_foldlM (reqId : Nat) (ids : List ObjectID) (hids : ids.Nodup) :
    Completes m (ids.foldlM (releaseObject reqId) [])
      fun canceled t => Released reqId m ids t ∧ canceled = ids.filter fun o =>
        (m.objectPullRequests.lookup o).any fun r => (released reqId r).isNone := by
  refine (Triple.foldlM_done (I := fun done acc t => Released reqId m done t ∧ acc = done.filter fun o =>
      (m.objectPullRequests.lookup o).any fun r => (released reqId r).isNone) (fun acc done o l hdone => ?_) []).pre
    fun _ ht => ht ▸ ⟨⟨⟨rfl, rfl, rfl, rfl, rfl⟩, rfl, fun o => by simp, rfl⟩, rfl⟩
  refine .read fun t ht => ?_
  obtain ⟨ht, hacc⟩ := ht
  have hnot := notMem_of_nodup hids hdone
  have hlookup := ht.lookup o
  rw [if_neg hnot] at hlookup
  -- one more object, whatever becomes of its request
  have hstep : ∀ requests, (∀ x, requests.lookup x = if x = o then
      (m.objectPullRequests.lookup o).bind (released reqId) else t.objectPullRequests.lookup x) →
      Released reqId m (done ++ [o]) { t with objectPullRequests := requests } := by
    intro requests hreq
    refine { ht with lookup := fun x => ?_ }
    rw [hreq, ht.lookup]
    by_cases hx : x = o
    · subst hx
      simp
    · simp [hx]
  rw [hlookup]
  cases hr : m.objectPullRequests.lookup o with
  | none =>
    refine .done ?_
    refine ⟨hstep t.objectPullRequests fun x => ?_, ?_⟩
    · by_cases hx : x = o
      · rw [if_pos hx, hx, hlookup, hr]
        rfl
      · rw [if_neg hx]
    · rw [hacc, filter_append, filter_cons_of_neg (by rw [hr]; exact Bool.false_ne_true), filter_nil, append_nil]
  | some r =>
    refine .ite (fun hleft => ?_) fun hleft => ?_
    · have hrel : released reqId r = none := if_pos hleft
      refine .bind (.set fun _ _ => ?_) fun _ => .pure fun u hu => ⟨hu, ?_⟩
      · refine hstep _ fun x => ?_
        rw [Table.lookup_erase, hr, Option.bind_some, hrel]
      · rw [hacc, filter_append, filter_cons_of_pos (by rw [hr, Option.any_some, hrel]; rfl), filter_nil]
    · have hrel : released reqId r = some _ := if_neg hleft
      refine .bind (.set fun _ _ => ?_) fun _ => .pure fun u hu => ⟨hu, ?_⟩
      · refine hstep _ fun x => ?_
        rw [Table.lookup_insert, hr, Option.bind_some, hrel]
      · rw [hacc, filter_append, filter_cons_of_neg
          (by rw [hr, Option.any_some, hrel]; exact Bool.false_ne_true), filter_nil, append_nil]

structure Canceled (m : State W) (p : BundlePriority) (e : Nat × PullBundleRequest) (u : State W) : Prop where
  queues : u.queues = Function.update m.queues p
    { bundles := (m.queues p).bundles.filter (·.1 ≠ e.1), highest := (m.queues p).highestWithout e.1 }
  lookup : ∀ o, (u.objectPullRequests.lookup o).map ObjectPullRequest.facts =
    (if o ∈ e.2.ids then (m.objectPullRequests.lookup o).bind (released e.1)
      else m.objectPullRequests.lookup o).map ObjectPullRequest.facts
  locations : ∀ o r, u.objectPullRequests.lookup o = some r → r.clientLocations.Nodup
  nextReqId : u.nextReqId = m.nextReqId

section

variable (hm : Registered m) (he : e ∈ (m.queues p).bundles) (h : Canceled m p e u)
include hm he h

lemma Canceled.mem_bundles (p' : BundlePriority) (x : Nat × PullBundleRequest) :
    x ∈ (u.queues p').bundles ↔ x ∈ (m.queues p').bundles ∧ x.1 ≠ e.1 := by
  rw [h.queues]
  by_cases hp : p' = p
  · subst hp
    rw [update_self, mem_filter, decide_eq_true_iff]
  · rw [update_of_ne hp]
    exact ⟨fun hx => ⟨hx, fun hid => hp (hm.apart p' p x e hx he hid)⟩, fun hx => hx.1⟩

lemma Canceled.lookup_of_mem {p' : BundlePriority} {x : Nat × PullBundleRequest}
    (hx : x ∈ (u.queues p').bundles) (ho : o ∈ x.2.ids) : u.sizeSet o = m.sizeSet o ∧ u.sizeOf o = m.sizeOf o := by
  obtain ⟨hx, hne⟩ := (h.mem_bundles hm he p' x).mp hx
  have hmem := (hm.requests o x.1).mpr ⟨p', x, hx, rfl, ho⟩
  have hfacts : (u.objectPullRequests.lookup o).map (fun r => (r.objectSizeSet, r.objectSize)) =
      (m.objectPullRequests.lookup o).map fun r => (r.objectSizeSet, r.objectSize) := by
    have hlookup := congrArg (Option.map fun f : Bool × Nat × List Nat => (f.1, f.2.1)) (h.lookup o)
    rw [Option.map_map, Option.map_map] at hlookup
    refine hlookup.trans ?_
    cases hr : m.objectPullRequests.lookup o with
    | none =>
      rw [Option.bind_none, ite_self]
      rfl
    | some r =>
      rw [requestIds, hr, Option.elim_some] at hmem
      have hleft : r.bundleRequestIds.filter (· ≠ e.1) ≠ [] := ne_nil_of_mem (mem_filter.mpr ⟨hmem, decide_eq_true hne⟩)
      rw [Option.bind_some, released, if_neg hleft]
      split <;> rfl
  constructor
  · have hset := congrArg (Option.any Prod.fst) hfacts
    rwa [Option.any_map, Option.any_map] at hset
  · have hsize := congrArg (fun x => x.elim 0 fun f : Bool × Nat => f.2) hfacts
    rwa [Option.elim_map, Option.elim_map] at hsize

lemma Canceled.requestIds (o : ObjectID) (id : Nat) : id ∈ u.requestIds o ↔ id ∈ m.requestIds o ∧ id ≠ e.1 := by
  have hlookup := congrArg (fun x => x.elim [] fun f : Bool × Nat × List Nat => f.2.2) (h.lookup o)
  rw [Option.elim_map, Option.elim_map] at hlookup
  have hids : u.requestIds o = ((if o ∈ e.2.ids then (m.objectPullRequests.lookup o).bind (released e.1)
      else m.objectPullRequests.lookup o).elim [] bundleRequestIds) := hlookup
  have hwas := hm.requests o e.1
  rw [hids, State.requestIds]
  by_cases ho : o ∈ e.2.ids
  · rw [if_pos ho]
    cases hr : m.objectPullRequests.lookup o with
    | none => simp
    | some r =>
      rw [Option.bind_some, released, Option.elim_some]
      by_cases hleft : r.bundleRequestIds.filter (· ≠ e.1) = []
      · rw [if_pos hleft]
        refine ⟨fun hf => absurd hf not_mem_nil, fun hid => ?_⟩
        exact absurd (mem_filter.mpr ⟨hid.1, decide_eq_true hid.2⟩) (hleft ▸ not_mem_nil)
      · rw [if_neg hleft, Option.elim_some, mem_filter, decide_eq_true_iff]
  · rw [if_neg ho]
    refine ⟨fun hid => ⟨hid, ?_⟩, fun hid => hid.1⟩
    rintro rfl
    obtain ⟨p', x, hx, hxid, hox⟩ := hwas.mp hid
    have hp := hm.apart p' p x e hx he hxid
    subst hp
    rw [(hm.ordered p').eq_of_id_eq he hx hxid] at hox
    exact ho hox

lemma Canceled.registered : Registered u := by
  have hmem := h.mem_bundles hm he
  constructor
  · intro p'
    have hordered := hm.ordered p'
    by_cases hp : p' = p
    · subst hp
      rw [h.queues, update_self]
      refine ⟨hordered.sorted.filter _, fun x hx => hordered.positive x (mem_filter.mp hx).1, ?_⟩
      refine (hordered.highestWithout he).2.2.imp_right ?_
      rintro ⟨x, hx, hne, hid⟩
      exact ⟨x, mem_filter.mpr ⟨hx, decide_eq_true hne⟩, hid⟩
    · rw [h.queues, update_of_ne hp]
      exact hordered
  · exact h.nextReqId ▸ hm.next
  · intro p' x hx
    rw [h.nextReqId]
    exact hm.fresh p' x ((hmem p' x).mp hx).1
  · intro p₁ p₂ x x' hx hx'
    exact hm.apart p₁ p₂ x x' ((hmem p₁ x).mp hx).1 ((hmem p₂ x').mp hx').1
  · intro p' x hx
    exact hm.distinct p' x ((hmem p' x).mp hx).1
  · intro p' x hx
    rw [hm.missing p' x ((hmem p' x).mp hx).1]
    refine countP_congr fun o ho => ?_
    rw [(h.lookup_of_mem hm he hx ho).1]
  · intro o id
    rw [h.requestIds hm he, hm.requests]
    constructor
    · rintro ⟨⟨p', x, hx, rfl, ho⟩, hne⟩
      exact ⟨p', x, (hmem p' x).mpr ⟨hx, hne⟩, rfl, ho⟩
    · rintro ⟨p', x, hx, rfl, ho⟩
      obtain ⟨hx, hne⟩ := (hmem p' x).mp hx
      exact ⟨⟨p', x, hx, rfl, ho⟩, hne⟩
  · intro o r hr
    have hlookup := h.lookup o
    rw [hr, Option.map_some] at hlookup
    obtain ⟨r', hr', hfacts⟩ := Option.map_eq_some_iff.mp hlookup.symm
    have hids : r'.bundleRequestIds = r.bundleRequestIds := congrArg (fun f => f.2.2) hfacts
    rw [← hids, ← and_assoc]
    refine ⟨?_, h.locations o r hr⟩
    by_cases ho : o ∈ e.2.ids
    · rw [if_pos ho] at hr'
      obtain ⟨r₀, hr₀, hrel⟩ := Option.bind_eq_some_iff.mp hr'
      unfold released at hrel
      split at hrel
      · cases hrel
      case isFalse hleft =>
        cases hrel
        exact ⟨hleft, (hm.listed o r₀ hr₀).2.1.filter _⟩
    · rw [if_neg ho] at hr'
      exact ⟨(hm.listed o r' hr').1, (hm.listed o r' hr').2.1⟩

end

lemma Canceled.exact (hm : Registered m) (he : e ∈ (m.queues p).bundles) (h : Canceled m p e u)
    (ht : Pulling t (update m.active p ((m.active p).filter (·.1 ≠ e.1)))) (hs : SameRequests m t)
    (hn : u.numActiveBundles = t.numActiveBundles) (hb : u.numBytesBeingPulled = t.numBytesBeingPulled)
    (ha : u.activeObjectPullRequests = t.activeObjectPullRequests) (hp : u.pinnedObjects = t.pinnedObjects)
    (hps : u.pinnedObjectsSize = t.pinnedObjectsSize) : Exact u := by
  refine ⟨h.registered hm he, ?_⟩
  obtain ⟨hothers, -, -⟩ := (hm.ordered p).highestWithout he
  have hactive : u.active = update m.active p ((m.active p).filter (·.1 ≠ e.1)) := by
    funext p'
    by_cases hp : p' = p
    · subst hp
      rw [update_self, active, h.queues, update_self]
      unfold active Queue.active
      rw [filter_filter, filter_filter]
      refine filter_congr fun x hx => ?_
      by_cases hxe : x.1 = e.1
      · simp [hxe]
      · simp [hxe, hothers x hx hxe]
    · rw [update_of_ne hp, active, h.queues, update_of_ne hp, active]
  rw [← hactive] at ht
  refine ⟨ht.tracks.same hb ha hp hps fun o ho => ?_, hn.trans ht.count, ht.sized⟩
  -- an object that is still pulled is pulled for another request
  obtain ⟨id, p', x, hx, -, hox⟩ := (ht.tracks.isSome_iff o).mp ho
  rw [hs.sizeOf]
  exact (h.lookup_of_mem hm he (mem_filter.mp hx).1 hox).2

lemma triple_cancelPull (hm : Exact m) (he : (id, b) ∈ (m.queues p).bundles) :
    Completes m (cancelPull cb id) fun canceled u => Exact u ∧
      canceled = (b.ids.filter fun o => (m.objectPullRequests.lookup o).any fun r => (released id r).isNone) ∧
      ∃ t, Canceled m p (id, b) t ∧ SameRequests t u := by
  refine .seen ?_
  rw [hm.registered.queueOf_eq_some.mpr he]
  -- whether it was active or not, what is pulled is then pulled for other requests
  refine .bind (Q := fun _ t => SameRequests m t ∧ t.queues = update m.queues p
      { m.queues p with highest := (m.queues p).highestWithout id } ∧
      Pulling t (update m.active p ((m.active p).filter (·.1 ≠ id))))
    (.onlyIf (fun hle => ?_) fun hle => ?_) fun _ => ?_
  · refine .bind (pulling_deactivate hm (mem_filter.mpr ⟨he, decide_eq_true hle⟩) []) fun acc => ?_
    refine (composes_triple _ fun (_ : Check) _ => False).forM (fun o => ?_) acc
    refine (untouched_changeWorld _).triple ?_
    rintro t _ u ⟨hs, hq, ht⟩ hu
    exact ⟨trans_of SameRequests hs hu.toSameRequests, hu.queues.trans hq, ht.untouched hu⟩
  · rintro t rfl
    have hhighest : (t.queues p).highestWithout id = (t.queues p).highest := if_neg fun h => hle h.ge
    have hfilter : (t.active p).filter (·.1 ≠ id) = t.active p := by
      refine filter_eq_self.mpr fun x hx => decide_eq_true ?_
      have := of_decide_eq_true (mem_filter.mp hx).2
      omega
    refine ⟨refl_of SameRequests t, ?_, ?_⟩
    · rw [hhighest]
      exact (update_eq_self p t.queues).symm
    · rw [hfilter, update_eq_self]
      exact hm.pulling
  · intro t ht
    obtain ⟨hs, hq, ht⟩ := ht
    refine Triple.bind (released_foldlM id b.ids (hm.registered.distinct p _ he)) (fun canceled => ?_) t rfl
    refine .given fun hcanceled => ?_
    refine .seq (.update (Q := fun _ u => Canceled m p (id, b) u ∧ Exact u) ?_) (.read fun u hu => ?_)
    · intro u hu
      have hc : Canceled m p (id, b) (u.withQueue p { u.queues p with
          bundles := (u.queues p).bundles.filter (·.1 ≠ id) }) := by
        refine ⟨?_, fun o => ?_, fun o r hr => ?_, hu.nextReqId.trans hs.nextReqId⟩
        · show update u.queues p _ = _
          rw [hu.queues, hq, update_idem, update_self]
        · show (u.objectPullRequests.lookup o).map _ = _
          rw [hu.lookup]
          by_cases ho : o ∈ b.ids
          · rw [if_pos ho, if_pos ho]
            exact (released_congr id (hs.facts o)).1
          · rw [if_neg ho, if_neg ho]
            exact hs.facts o
        · have hlocations := hs.locations fun o r hr => (hm.registered.listed o r hr).2.2
          change u.objectPullRequests.lookup o = some r at hr
          rw [hu.lookup] at hr
          by_cases ho : o ∈ b.ids
          · rw [if_pos ho] at hr
            obtain ⟨r₀, hr₀, hrel⟩ := Option.bind_eq_some_iff.mp hr
            unfold released at hrel
            split at hrel
            · cases hrel
            · cases hrel
              exact hlocations o r₀ hr₀
          · rw [if_neg ho] at hr
            exact hlocations o r hr
      exact ⟨hc, hc.exact hm.registered he ht hs hu.numActive hu.bytes hu.active hu.pinned hu.pinnedSize⟩
    · refine .seq (settles_update _ u hu.2) (.pure fun w hw => ?_)
      refine ⟨hw.exact, hcanceled.trans (filter_congr fun o _ => ?_), u, hu.1, hw.same⟩
      exact (released_congr id (hs.facts o)).2

end AmazonRay.PullManager
