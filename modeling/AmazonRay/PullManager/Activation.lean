import AmazonRay.PullManager.Bookkeeping

/-! Requests are activated and deactivated with all that counts them. -/
namespace AmazonRay.PullManager
open Program List Table Function State

section

variable {W : Type} {cb : Callbacks W} {m : State W} {o : ObjectID}

variable {l : List (Nat × PullBundleRequest)} {ps ps' : List BundlePriority} {α : Type}
    {makeSpace : Collected → PullM W Collected} {l : List NodeID} {x d : NodeID}

lemma untouched_changeWorld (f : W → W) : Steps Untouched (fun _ => False) (changeWorld f : PullM W Unit) := by
  refine fun m => .update ?_
  rintro _ rfl
  exact ⟨⟨⟨fun _ => rfl, rfl, fun _ => rfl, id⟩, rfl, rfl⟩, rfl, rfl, rfl, rfl⟩

lemma untouched_resetRetryTimer (o : ObjectID) : Steps Untouched (fun _ => False) (resetRetryTimer cb o) := by
  refine fun m => .read fun t ht => ?_
  subst ht
  cases hr : t.objectPullRequests.lookup o with
  | none => exact .pure fun u hu => hu ▸ refl_of Untouched t
  | some => exact .set fun _ _ => untouched_withRequest hr rfl id

lemma triple_findRequest {P : State W → Prop} {Q : ObjectPullRequest → State W → Prop}
    {E : Check → State W → Prop} (h : ∀ t r, P t → t.objectPullRequests.lookup o = some r → Q r t)
    (hn : ∀ t, P t → t.objectPullRequests.lookup o ≠ none) : Triple P (findRequest o) Q E := by
  refine .read fun t ht => ?_
  cases hr : t.objectPullRequests.lookup o with
  | none => exact absurd hr (hn t ht)
  | some r =>
    apply Triple.done
    exact h _ r ht hr

lemma nodup_swap_dropLast {i : Nat} (hl : l.Nodup) (hi : i < l.length) (hx : l.getD i d = x) :
    ((l.set i (l.getLastD d)).dropLast).Nodup ∧ x ∉ (l.set i (l.getLastD d)).dropLast ∧
      (l.set i (l.getLastD d)).dropLast.length + 1 = l.length ∧ (l.set i (l.getLastD d)).dropLast ⊆ l := by
  obtain ⟨before, after, rfl, rfl⟩ : ∃ before after, l = before ++ x :: after ∧ before.length = i := by
    refine ⟨l.take i, l.drop (i + 1), ?_, length_take_of_le hi.le⟩
    rw [← hx, getD_eq_getElem?_getD, getElem?_eq_getElem hi, Option.getD_some,
      ← drop_eq_getElem_cons hi, take_append_drop]
  rcases eq_nil_or_concat after with rfl | ⟨init, y, rfl⟩
  · have hset : ((before ++ [x]).set before.length ((before ++ [x]).getLastD d)).dropLast = before := by
      simp
    rw [hset]
    exact ⟨(nodup_append.mp hl).1, notMem_of_nodup hl rfl, by simp, subset_append_left _ _⟩
  · have hlast : (before ++ x :: init.concat y).getLastD d = y := by
      rw [concat_eq_append, ← cons_append, ← append_assoc, getLastD_concat]
    have hset : ((before ++ x :: init.concat y).set before.length
        ((before ++ x :: init.concat y).getLastD d)).dropLast = before ++ y :: init := by
      rw [hlast, set_append_right _ _ le_rfl, Nat.sub_self, set_cons_zero,
        concat_eq_append, ← cons_append, ← append_assoc, dropLast_concat]
    have hperm : (x :: (before ++ y :: init)).Perm (before ++ x :: init.concat y) := by
      apply perm_middle.symm.trans
      refine List.Perm.append_left before (List.Perm.cons x ?_)
      rw [concat_eq_append]
      exact (perm_append_singleton y init).symm
    have hnodup := nodup_cons.mp (hperm.nodup_iff.mpr hl)
    rw [hset]
    refine ⟨hnodup.2, hnodup.1, ?_, fun y hy => hperm.subset (mem_cons_of_mem x hy)⟩
    rw [← hperm.length_eq, length_cons]

lemma swap_dropLast_other {i : Nat} (hl : l.Nodup) (hi : i < l.length)
    (hx : l.getD i d = x) (hne : l ≠ [x]) (j : Nat) :
    let others := (l.set i (l.getLastD d)).dropLast
    others.getD (j % others.length) d ≠ x ∧ others.getD (j % others.length) d ∈ l := by
  intro others
  obtain ⟨-, hnot, hlength, hsub⟩ := nodup_swap_dropLast hl hi hx
  have hpos : 0 < others.length := by
    refine Nat.pos_of_ne_zero fun hzero => hne ?_
    obtain ⟨y, rfl⟩ := length_eq_one_iff.mp (hzero ▸ hlength).symm
    obtain rfl : i = 0 := Nat.lt_one_iff.mp hi
    rw [← hx]
    rfl
  have hmem : others.getD (j % others.length) d ∈ others := by
    rw [getD_eq_getElem?_getD, getElem?_eq_getElem (Nat.mod_lt j hpos)]
    exact getElem_mem _
  exact ⟨fun h => hnot (h ▸ hmem), hsub hmem⟩

def Rested (m t : State W) : Prop := Untouched m t ∧ t.numBytesAvailable = m.numBytesAvailable

def Asked (cb : Callbacks W) (m : State W) (o : ObjectID) (r : ObjectPullRequest) (t : State W) : Prop :=
  ∃ nodeId w, nodeId ≠ cb.selfNodeId ∧ (nodeId ∈ r.clientLocations ∨ nodeId = r.spilledNodeId ∧ nodeId ≠ NodeID.nil) ∧
    (w = m.world ∨ w = (cb.random r.clientLocations.length m.world).2) ∧ t.world = cb.sendPullRequest o nodeId w

/-- No other node is known to have the object, or only the one where it was spilled. -/
def Unasked (cb : Callbacks W) (r : ObjectPullRequest) : Prop :=
  r.clientLocations = [cb.selfNodeId] ∨
    r.clientLocations = [] ∧ (r.spilledNodeId = NodeID.nil ∨ r.spilledNodeId = cb.selfNodeId)

lemma untouched_world (m : State W) (w : W) : Untouched m { m with world := w } :=
  ⟨⟨⟨fun _ => rfl, rfl, fun _ => rfl, id⟩, rfl, rfl⟩, rfl, rfl, rfl, rfl⟩

lemma triple_pullFromRandomLocation {r : ObjectPullRequest} (hr : m.objectPullRequests.lookup o = some r)
    (hloc : r.clientLocations.Nodup) (hlocal : cb.objectIsLocal m.world o = false) :
    Completes m (pullFromRandomLocation cb o) fun didPull t => Rested m t ∧
      (didPull = true → ¬Unasked cb r ∧ Asked cb m o r t) ∧ (didPull = false → t = m ∧ Unasked cb r) := by
  refine .seen ?_
  rw [hr]
  refine .ite (fun hempty => .ite (fun hspilled => ?_) fun hnot => .done ?_) fun hne => ?_
  · refine .modified (.done ⟨⟨untouched_world m _, rfl⟩, fun _ => ⟨?_, ?_⟩, nofun⟩)
    · rintro (hself | ⟨-, hnot⟩)
      · cases hempty.symm.trans hself
      · exact hnot.elim hspilled.1 hspilled.2
    · exact ⟨_, _, hspilled.2, .inr ⟨rfl, hspilled.1⟩, .inl rfl, rfl⟩
  · refine ⟨⟨refl_of Untouched m, rfl⟩, nofun, fun _ => ⟨rfl, .inr ⟨hempty, ?_⟩⟩⟩
    tauto
  refine .passing hlocal (.ite (fun hself => .done ?_) fun hself => .modified ?_)
  · exact ⟨⟨refl_of Untouched m, rfl⟩, nofun, fun _ => ⟨rfl, .inl hself⟩⟩
  have hindex := Nat.mod_lt (cb.random r.clientLocations.length m.world).1 (length_pos_iff.mpr hne)
  refine .bind (Q := fun _ t => Rested m t ∧ Asked cb m o r t) (.ite (fun hchosen => ?_) fun hother => .updated ?_)
    fun _ => .pure fun t ht => ⟨ht.1, fun _ => ⟨fun hnot => hnot.elim hself fun h => hne h.1, ht.2⟩, nofun⟩
  · -- the own node is not among the others, and there is another one
    obtain ⟨hnodup, -⟩ := nodup_swap_dropLast hloc hindex hchosen
    obtain ⟨hne, hmem⟩ := swap_dropLast_other hloc hindex hchosen hself
      ((cb.random r.clientLocations.length m.world).1 % r.clientLocations.length)
    refine .modified (.passing hne (.updated ⟨⟨?_, rfl⟩, _, _, hne, .inl hmem, .inr rfl, rfl⟩))
    refine trans_of Untouched (b := m.withRequest o _) ?_ (untouched_world _ _)
    exact untouched_withRequest hr rfl fun _ => hnodup
  · refine ⟨⟨untouched_world m _, rfl⟩, _, _, hother, .inl ?_, .inr rfl, rfl⟩
    rw [getD_eq_getElem?_getD, getElem?_eq_getElem hindex]
    exact getElem_mem _

def Wanted (m : State W) : Prop :=
  ∀ o, (m.activeObjectPullRequests.lookup o).isSome → m.objectPullRequests.lookup o ≠ none

lemma Wanted.untouched {t : State W} (hm : Wanted m) (h : Untouched m t) : Wanted t := by
  intro o ho
  rw [h.active] at ho
  rw [← Option.isSome_iff_ne_none, h.isSome]
  exact Option.isSome_iff_ne_none.mpr (hm o ho)

lemma triple_tryToMakeObjectLocal (o : ObjectID) (hw : Wanted m)
    (hloc : ∀ o r, m.objectPullRequests.lookup o = some r → r.clientLocations.Nodup) :
    Completes m (tryToMakeObjectLocal cb o) fun _ t => Rested m t ∧ ∀ r, m.objectPullRequests.lookup o = some r →
      cb.objectIsLocal m.world o = false → (m.activeObjectPullRequests.lookup o).isSome →
      r.nextPullTime ≤ cb.getTime m.world → ¬Unasked cb r ∧ Asked cb m o r t ∨ Unasked cb r ∧ t.world =
        if restoreUrl cb m o r = "" then m.world else cb.restoreSpilledObject o (restoreUrl cb m o r) m.world := by
  refine .seen (.when (fun hc => ?_) fun hnot => ⟨⟨refl_of Untouched m, rfl⟩, fun r _ hlocal hactive =>
    absurd ⟨hlocal, hactive⟩ hnot⟩)
  obtain ⟨r, hr⟩ := Option.ne_none_iff_exists'.mp (hw o hc.2)
  have hfind : ∀ t, Untouched m t → t.objectPullRequests.lookup o ≠ none := by
    intro t ht
    rw [← Option.isSome_iff_ne_none, ht.isSome, hr]
    rfl
  refine .call (triple_findRequest (Q := fun r' t => r' = r ∧ t = m) ?_ fun t ht => hfind t (ht ▸ refl_of Untouched m)) ?_
  · rintro t r' rfl hr'
    exact ⟨Option.some.inj (hr'.symm.trans hr), rfl⟩
  rintro r' t ⟨rfl, rfl⟩
  refine .when (fun htime => ?_) fun hnot => ⟨⟨refl_of Untouched t, rfl⟩, fun r' hr' _ _ htime => ?_⟩
  · refine .call (triple_pullFromRandomLocation hr (hloc o _ hr) hc.1) fun didPull u hu => .seen ?_
    refine .call (triple_findRequest (Q := fun r v => v = u ∧ u.objectPullRequests.lookup o = some r) ?_
      fun v hv => hfind v (hv ▸ hu.1.1)) fun r v hv => ?_
    · rintro v r rfl hr
      exact ⟨rfl, hr⟩
    obtain ⟨rfl, hr'⟩ := hv
    refine .ite (fun hpulled => .updated ⟨⟨?_, hu.1.2⟩, fun r₀ hr₀ _ _ _ => .inl ?_⟩) fun hnot => ?_
    · apply trans_of Untouched hu.1.1
      exact untouched_withRequest hr' rfl id
    · obtain rfl := Option.some.inj (hr.symm.trans hr₀)
      exact hu.2.1 hpulled
    · obtain ⟨rfl, hunasked⟩ := hu.2.2 (eq_false_of_ne_true hnot)
      obtain rfl := Option.some.inj (hr.symm.trans hr')
      refine .when (fun hurl => .modified (.updated ⟨⟨?_, rfl⟩, fun r₀ hr₀ _ _ _ => .inr ?_⟩)) fun hurl =>
        ⟨⟨refl_of Untouched v, rfl⟩, fun r₀ hr₀ _ _ _ => .inr ?_⟩
      · refine trans_of Untouched ?_ (untouched_world _ _)
        exact untouched_withRequest hr rfl id
      · obtain rfl := Option.some.inj (hr.symm.trans hr₀)
        exact ⟨hunasked, (if_neg hurl).symm⟩
      · obtain rfl := Option.some.inj (hr.symm.trans hr₀)
        exact ⟨hunasked, (if_pos (not_not.mp hurl)).symm⟩
  · exact absurd (Option.some.inj (hr.symm.trans hr') ▸ htime) hnot

lemma untouched_tryToMakeObjectLocal (o : ObjectID) (hw : Wanted m)
    (hloc : ∀ o r, m.objectPullRequests.lookup o = some r → r.clientLocations.Nodup) :
    Completes m (tryToMakeObjectLocal cb o) fun _ t => Untouched m t :=
  (triple_tryToMakeObjectLocal o hw hloc).post fun _ _ h => h.1.1

lemma untouched_forM {f : ObjectID → PullM W Unit} (l : List ObjectID) (hw : Wanted m)
    (hloc : ∀ o r, m.objectPullRequests.lookup o = some r → r.clientLocations.Nodup)
    (hf : ∀ o m, Wanted m → (∀ o r, m.objectPullRequests.lookup o = some r → r.clientLocations.Nodup) →
      Completes m (f o) (fun _ t => Untouched m t)) :
    Completes m (l.forM f) fun _ t => Untouched m t := by
  refine ((composes_triple (Untouched m) fun (_ : Check) _ => False).forM (fun o => ?_) l).pre
    fun t ht => ht ▸ refl_of Untouched m
  intro t ht
  exact (hf o t (hw.untouched ht) (ht.locations hloc)).post (fun _ u hu => trans_of Untouched ht hu) t rfl

end

section

variable {W : Type} {cb : Callbacks W} {m t : State W} {R : ObjectID → Nat → Prop} {extra : Int}
  {o : ObjectID} {reqId : Nat} {known : Bool}

lemma Tracks.isSome_iff (h : Tracks t R extra) (o : ObjectID) :
    (t.activeObjectPullRequests.lookup o).isSome ↔ ∃ id, R o id := by
  cases ho : t.activeObjectPullRequests.lookup o with
  | none =>
    refine ⟨fun hf => Bool.noConfusion hf, fun ⟨id, hid⟩ => ?_⟩
    have hmem := (h.active o id).mpr hid
    rw [activeIds, ho] at hmem
    cases hmem
  | some ids =>
    refine ⟨fun _ => ?_, fun _ => rfl⟩
    obtain ⟨id, hid⟩ := exists_mem_of_ne_nil ids (h.nonempty o ids ho)
    refine ⟨id, (h.active o id).mp ?_⟩
    rw [activeIds, ho]
    exact hid

lemma Tracks.congr {R' : ObjectID → Nat → Prop} {extra' : Int} (h : Tracks t R extra)
    (hR : ∀ o id, R' o id ↔ R o id) (he : extra' = extra) : Tracks t R' extra' :=
  ⟨fun o id => (h.active o id).trans (hR o id).symm, h.nonempty, he ▸ h.bytes, h.pinned, h.pinnedSize⟩

lemma tracks_tryPinObject (o : ObjectID) (ho : ∃ id, R o id) :
    Triple (fun t => Kept m t ∧ Tracks t R extra) (tryPinObject cb o)
      (fun _ t => Kept m t ∧ Tracks t R extra) fun _ _ => False := by
  refine .read fun t ht => ?_
  obtain ⟨hk, ht⟩ := ht
  cases hp : t.pinnedObjects.lookup o with
  | some =>
    apply Triple.done
    exact ⟨hk, ht⟩
  | none =>
    refine .bind (Q := fun _ u => Kept m u ∧ Tracks u R extra ∧ u.pinnedObjects.lookup o = none)
      ((untouched_changeWorld _ t).post fun _ u hu => ?_) fun _ => ?_
    · refine ⟨trans_of Kept hk hu.toKept, ht.untouched hu, ?_⟩
      rw [hu.pinned, hp]
    cases (cb.pinObject o t.world).1 with
    | none => exact .pure fun u hu => ⟨hu.1, hu.2.1⟩
    | some size =>
      refine .bind (.update ?_) fun _ => .skip
      rintro u ⟨hku, hu, hpu⟩
      refine ⟨⟨⟨hku.bundles, hku.nextReqId, hku.facts, hku.locations⟩, hku.queues, hku.numActive⟩, hu.active, hu.nonempty, hu.bytes,
        fun x hx => ?_, ?_⟩
      · change ((u.pinnedObjects.insert o size).lookup x).isSome at hx
        rw [lookup_insert] at hx
        by_cases hxo : x = o
        · rw [hxo]
          exact (hu.isSome_iff o).mpr ho
        · rw [if_neg hxo] at hx
          exact hu.pinned x hx
      · show u.pinnedObjectsSize + size = total _ (u.pinnedObjects.insert o size)
        rw [total_insert, total_erase_of_lookup_none hpu, hu.pinnedSize]
        exact add_comm _ _

lemma Tracks.put (h : Tracks t R extra) {ids : List Nat} (hids : ids ≠ []) (hknown : known = true ↔ ∃ id, R o id) :
    Tracks { t with activeObjectPullRequests := t.activeObjectPullRequests.insert o ids }
      (fun x id => if x = o then id ∈ ids else R x id)
      (extra - if known then 0 else (t.sizeOf o : Int)) := by
  have hlookup : ∀ x, (t.activeObjectPullRequests.insert o ids).lookup x =
      if x = o then some ids else t.activeObjectPullRequests.lookup x :=
    fun x => lookup_insert _ _ x _
  constructor
  · intro x id
    unfold activeIds
    rw [hlookup]
    by_cases hx : x = o
    · rw [if_pos hx, if_pos hx, Option.getD_some]
    · rw [if_neg hx, if_neg hx]
      exact h.active x id
  · intro x l hx
    rw [hlookup] at hx
    by_cases hxo : x = o
    · rw [if_pos hxo] at hx
      cases hx
      exact hids
    · rw [if_neg hxo] at hx
      exact h.nonempty x l hx
  · have htotal : total (fun o _ => (t.sizeOf o : Int)) (t.activeObjectPullRequests.insert o ids) =
        total (fun o _ => (t.sizeOf o : Int)) t.activeObjectPullRequests +
          if known then 0 else (t.sizeOf o : Int) := by
      rw [total_insert]
      cases ho : t.activeObjectPullRequests.lookup o with
      | none =>
        have hk : known = false := by
          rw [Bool.eq_false_iff]
          intro hk
          have hsome := (h.isSome_iff o).mpr (hknown.mp hk)
          rw [ho] at hsome
          cases hsome
        rw [total_erase_of_lookup_none ho, hk]
        exact add_comm _ _
      | some =>
        have hk : known = true := hknown.mpr ((h.isSome_iff o).mp (by rw [ho]; rfl))
        rw [total_of_lookup ho, hk]
        exact (add_zero _).symm
    have hbytes := h.bytes
    show t.numBytesBeingPulled = total (fun o _ => (t.sizeOf o : Int)) _ + _
    rw [htotal]
    omega
  · intro x hx
    rw [hlookup]
    by_cases hxo : x = o
    · rw [if_pos hxo]
      rfl
    · rw [if_neg hxo]
      exact h.pinned x hx
  · exact h.pinnedSize

lemma tracks_activateObject (o : ObjectID) (reqId : Nat) (objectsToPull : List ObjectID)
    (hknown : known = true ↔ ∃ id, R o id) :
    Triple (fun t => Kept m t ∧ Tracks t R extra) (activateObject cb reqId objectsToPull o)
      (fun _ t => Kept m t ∧ Tracks t (fun x id => R x id ∨ x = o ∧ id = reqId)
        (extra - if known then 0 else (m.sizeOf o : Int))) fun _ _ => False := by
  refine .read fun t ht => ?_
  obtain ⟨hk, ht⟩ := ht
  refine .bind (.set fun _ _ => ?_) fun _ => .ite (fun _ => ?_) fun _ => .skip
  · rw [← hk.sizeOf]
    refine ⟨⟨⟨hk.bundles, hk.nextReqId, hk.facts, hk.locations⟩, hk.queues, hk.numActive⟩, ?_⟩
    refine (ht.put (ne_nil_of_mem mem_insert_self) hknown).congr (fun x id => ?_) rfl
    by_cases hx : x = o
    · rw [if_pos hx, hx, mem_insert_iff, ← ht.active o id]
      simp [activeIds, or_comm]
    · rw [if_neg hx]
      simp [hx]
  · refine .bind (tracks_tryPinObject o ⟨reqId, .inr ⟨rfl, rfl⟩⟩) fun _ => ?_
    refine .bind ((untouched_resetRetryTimer o).triple fun u _ v hu huv => ?_) fun _ => .skip
    exact ⟨trans_of Kept hu.1 huv.toKept, hu.2.untouched huv⟩

lemma Tracks.drop (h : Tracks t R extra) (ho : (t.activeObjectPullRequests.lookup o).isSome)
    (honly : ∀ id, R o id → id = reqId) :
    Tracks { t with
        numBytesBeingPulled := t.numBytesBeingPulled - t.sizeOf o
        activeObjectPullRequests := t.activeObjectPullRequests.erase o
        pinnedObjects := t.pinnedObjects.erase o
        pinnedObjectsSize := t.pinnedObjectsSize - ((t.pinnedObjects.lookup o).getD 0 : Nat) }
      (fun x id => R x id ∧ ¬ (x = o ∧ id = reqId)) extra := by
  have hlookup : ∀ x, (t.activeObjectPullRequests.erase o).lookup x =
      if x = o then none else t.activeObjectPullRequests.lookup x := fun x => lookup_erase _ _ x
  constructor
  · intro x id
    unfold activeIds
    rw [hlookup]
    by_cases hx : x = o
    · rw [if_pos hx, hx]
      refine ⟨fun hf => absurd hf not_mem_nil, fun hid => absurd ⟨rfl, honly id hid.1⟩ hid.2⟩
    · rw [if_neg hx]
      simp only [hx, false_and, not_false_eq_true, and_true]
      exact h.active x id
  · intro x l hx
    rw [hlookup] at hx
    by_cases hxo : x = o
    · rw [if_pos hxo] at hx
      cases hx
    · rw [if_neg hxo] at hx
      exact h.nonempty x l hx
  · obtain ⟨ids, hids⟩ := Option.isSome_iff_exists.mp ho
    have hbytes := h.bytes
    rw [total_of_lookup hids] at hbytes
    show t.numBytesBeingPulled - t.sizeOf o =
      total (fun o _ => (t.sizeOf o : Int)) (t.activeObjectPullRequests.erase o) + extra
    omega
  · intro x hx
    rw [lookup_erase] at hx
    rw [hlookup]
    by_cases hxo : x = o
    · rw [if_pos hxo] at hx
      cases hx
    · rw [if_neg hxo] at hx ⊢
      exact h.pinned x hx
  · have hsize := h.pinnedSize
    cases hp : t.pinnedObjects.lookup o with
    | none =>
      rw [total_erase_of_lookup_none hp, hsize]
      exact sub_zero _
    | some =>
      rw [total_of_lookup hp] at hsize
      simp only [Option.getD_some]
      omega

lemma tracks_deactivateObject (o : ObjectID) (reqId : Nat) (objectsToCancel : List ObjectID)
    (hreq : m.objectPullRequests.lookup o ≠ none) :
    Triple (fun t => Kept m t ∧ Tracks t R extra) (deactivateObject reqId objectsToCancel o)
      (fun _ t => Kept m t ∧ Tracks t (fun x id => R x id ∧ ¬ (x = o ∧ id = reqId)) extra)
      fun _ _ => False := by
  refine .read fun t ht => ?_
  obtain ⟨hk, ht⟩ := ht
  have hids := ht.active o
  have hsame : (∀ id, R o id → id ≠ reqId) → Tracks t (fun x id => R x id ∧ ¬ (x = o ∧ id = reqId)) extra := by
    intro hne
    refine ht.congr (fun x id => ⟨fun h => h.1, fun h => ⟨h, ?_⟩⟩) rfl
    rintro ⟨rfl, hid⟩
    exact hne id h hid
  unfold activeIds at hids
  cases ho : t.activeObjectPullRequests.lookup o with
  | none =>
    rw [ho] at hids
    apply Triple.done
    exact ⟨hk, hsame fun id hid => absurd ((hids id).mpr hid) not_mem_nil⟩
  | some =>
    rw [ho, Option.getD_some] at hids
    refine .ite (fun hmem => .ite (fun hleft => ?_) fun hleft => ?_) fun hmem => .pure ?_
    · have honly : ∀ id, R o id → id = reqId := by
        intro id hid
        by_contra hne
        exact not_mem_nil (hleft ▸ mem_filter.mpr ⟨(hids id).mpr hid, decide_eq_true hne⟩)
      have hsome : (t.activeObjectPullRequests.lookup o).isSome := by rw [ho]; rfl
      refine .bind (triple_findRequest (Q := fun r u => u = t ∧ t.sizeOf o = r.objectSize) ?_ ?_)
        fun r => .given fun hr => ?_
      · rintro _ r rfl hr
        exact ⟨rfl, by rw [State.sizeOf, hr, Option.elim_some]⟩
      · rintro _ rfl
        rw [← Option.isSome_iff_ne_none, hk.isSome]
        exact Option.isSome_iff_ne_none.mpr hreq
      · have hdrop := ht.drop hsome honly
        refine .seq (.update (Q := fun _ u => u = { t with
          numBytesBeingPulled := t.numBytesBeingPulled - t.sizeOf o
          activeObjectPullRequests := t.activeObjectPullRequests.erase o }) ?_) ?_
        · rintro _ rfl
          rw [hr]
        refine .bind (.seq (.update (Q := fun _ u => Kept m u ∧
          Tracks u (fun x id => R x id ∧ ¬ (x = o ∧ id = reqId)) extra) ?_) ?_) fun _ => .skip
        · rintro _ rfl
          exact ⟨⟨⟨hk.bundles, hk.nextReqId, hk.facts, hk.locations⟩, hk.queues, hk.numActive⟩, hdrop⟩
        · refine .read fun u hu => ?_
          refine .check (fun _ v hv => hv ▸ hu) fun hc => absurd (fun hnil => ?_) hc
          rw [hu.2.pinnedSize, total, hnil]
          rfl
    · refine .bind (.set fun _ _ => ?_) fun _ => .skip
      refine ⟨⟨⟨hk.bundles, hk.nextReqId, hk.facts, hk.locations⟩, hk.queues, hk.numActive⟩, ?_⟩
      have hknown : true = true ↔ ∃ id, R o id := ⟨fun _ => ⟨reqId, (hids reqId).mp hmem⟩, fun _ => rfl⟩
      refine (ht.put hleft hknown).congr (fun x id => ?_) (by simp)
      by_cases hx : x = o
      · rw [if_pos hx, hx, mem_filter, hids]
        simp
      · rw [if_neg hx]
        simp [hx]
    · rintro _ rfl
      exact ⟨hk, hsame fun id hid heq => hmem (heq ▸ (hids id).mpr hid)⟩

end

section

variable {W : Type} {cb : Callbacks W} {m t : State W} {A : BundlePriority → List (Nat × PullBundleRequest)}
  {p : BundlePriority} {e : Nat × PullBundleRequest} {R : ObjectID → Nat → Prop} (ids : List ObjectID)

def State.bytesFor (m : State W) (ids : List ObjectID) : Int :=
  (ids.map fun o => if (m.activeObjectPullRequests.lookup o).isSome then 0 else (m.sizeOf o : Int)).sum

lemma triple_bytesToPull (hreq : ∀ o ∈ ids, m.objectPullRequests.lookup o ≠ none) :
    Completes m (bytesToPull ids) fun bytes t => t = m ∧ bytes = m.bytesFor ids := by
  refine (Triple.foldlM (I := fun l bytes t => t = m ∧ (∀ o ∈ l, o ∈ ids) ∧ bytes + m.bytesFor l = m.bytesFor ids)
    (fun bytes o l => ?_) ids 0).conseq (fun t ht => ⟨ht, fun _ h => h, zero_add _⟩)
    (fun bytes t ht => ⟨ht.1, (add_zero bytes).symm.trans ht.2.2⟩) fun _ _ h => h
  refine .read fun t ht => ?_
  obtain ⟨rfl, hl, hb⟩ := ht
  have hl' : ∀ x ∈ l, x ∈ ids := fun x hx => hl x (mem_cons_of_mem _ hx)
  have hcons : t.bytesFor (o :: l) = (if (t.activeObjectPullRequests.lookup o).isSome then 0
      else (t.sizeOf o : Int)) + t.bytesFor l := by
    rw [bytesFor, map_cons, sum_cons]
    rfl
  rw [hcons] at hb
  refine .ite (fun hnone => ?_) fun hsome => .done ?_
  · rw [Option.isNone_iff_eq_none] at hnone
    rw [hnone] at hb
    refine .bind (triple_findRequest (Q := fun r u => u = t ∧ (t.sizeOf o : Int) = r.objectSize)
      ?_ fun u hu => hu ▸ hreq o (hl o mem_cons_self)) fun r => .pure ?_
    · rintro _ r rfl hr
      exact ⟨rfl, by rw [State.sizeOf, hr, Option.elim_some]⟩
    · rintro u ⟨hu, hr⟩
      refine ⟨hu, hl', ?_⟩
      rw [← hr, add_assoc]
      exact hb
  · rw [Option.isNone_iff_eq_none, ← ne_eq, ← Option.isSome_iff_ne_none] at hsome
    rw [hsome, if_pos rfl, zero_add] at hb
    exact ⟨rfl, hl', hb⟩

lemma Registered.request_ne_none (hm : Registered m) (he : e ∈ (m.queues p).bundles) {o : ObjectID}
    (ho : o ∈ e.2.ids) : m.objectPullRequests.lookup o ≠ none := by
  intro hnone
  have hmem := (hm.requests o e.1).mpr ⟨p, e, he, rfl, ho⟩
  rw [requestIds, hnone] at hmem
  exact not_mem_nil hmem

lemma tracks_activateObjects (hids : ids.Nodup) (hm : Tracks m R 0) (reqId : Nat) (objectsToPull : List ObjectID) :
    Triple (fun t => Kept m t ∧ Tracks t R (m.bytesFor ids)) (ids.foldlM (activateObject cb reqId) objectsToPull)
      (fun _ t => Kept m t ∧ Tracks t (fun x id => R x id ∨ x ∈ ids ∧ id = reqId) 0) fun _ _ => False := by
  refine (Triple.foldlM_done (I := fun done _ t => Kept m t ∧ Tracks t (fun x id => R x id ∨ x ∈ done ∧ id = reqId)
      (m.bytesFor ids - m.bytesFor done)) (fun acc done o l hdone => ?_) objectsToPull).conseq
    (fun t ht => ⟨ht.1, ht.2.congr (by simp) (by simp [bytesFor])⟩)
    (fun _ t ht => ⟨ht.1, ht.2.congr (by simp) (by simp)⟩) fun _ _ h => h
  have hnot := notMem_of_nodup hids hdone
  have hknown : (m.activeObjectPullRequests.lookup o).isSome = true ↔ ∃ id, R o id ∨ o ∈ done ∧ id = reqId := by
    rw [hm.isSome_iff o]
    simp [hnot]
  apply (tracks_activateObject o reqId acc hknown).post
  rintro _ t ⟨hk, ht⟩
  refine ⟨hk, ht.congr (fun x id => ?_) ?_⟩
  · rw [mem_append, mem_singleton, or_and_right, or_assoc]
  · simp [bytesFor]
    omega

lemma tracks_deactivateObjects
    (hreq : ∀ o ∈ ids, m.objectPullRequests.lookup o ≠ none) (reqId : Nat) (objectsToCancel : List ObjectID) :
    Triple (fun t => Kept m t ∧ Tracks t R 0) (ids.foldlM (deactivateObject reqId) objectsToCancel)
      (fun _ t => Kept m t ∧ Tracks t (fun x id => R x id ∧ ¬ (x ∈ ids ∧ id = reqId)) 0) fun _ _ => False := by
  refine (Triple.foldlM_done (I := fun done _ t => Kept m t ∧
      Tracks t (fun x id => R x id ∧ ¬ (x ∈ done ∧ id = reqId)) 0)
    (fun acc done o l hdone => ?_) objectsToCancel).pre fun t ht => ⟨ht.1, ht.2.congr (by simp) rfl⟩
  have ho : o ∈ ids := by simp [hdone]
  apply (tracks_deactivateObject o reqId acc (hreq o ho)).post
  rintro _ t ⟨hk, ht⟩
  refine ⟨hk, ht.congr (fun x id => ?_) rfl⟩
  rw [mem_append, mem_singleton]
  tauto

lemma Covers.update {o : ObjectID} {id : Nat} : Covers (update A p l) o id ↔
      (∃ p', p' ≠ p ∧ ∃ e ∈ A p', e.1 = id ∧ o ∈ e.2.ids) ∨ ∃ e ∈ l, e.1 = id ∧ o ∈ e.2.ids := by
  constructor
  · rintro ⟨p', e, he, hid⟩
    by_cases hp : p' = p
    · subst hp
      rw [update_self] at he
      exact .inr ⟨e, he, hid⟩
    · rw [update_of_ne hp] at he
      exact .inl ⟨p', hp, e, he, hid⟩
  · rintro (⟨p', hp, e, he, hid⟩ | ⟨e, he, hid⟩)
    · exact ⟨p', e, by rwa [update_of_ne hp], hid⟩
    · exact ⟨p, e, by rwa [update_self], hid⟩

lemma countAll_update : countAll (update A p l) + (A p).length = countAll A + l.length := by
  cases p <;> simp [countAll, update] <;> omega

lemma pulling_deactivate (hm : Exact m) (he : e ∈ m.active p) (objectsToCancel : List ObjectID) :
    Completes m (deactivatePullBundleRequest p e.1 e.2 objectsToCancel) fun _ t => SameRequests m t ∧
        t.queues = update m.queues p { m.queues p with highest := (m.queues p).highestWithout e.1 } ∧
        Pulling t (update m.active p ((m.active p).filter (·.1 ≠ e.1))) := by
  have heb : e ∈ (m.queues p).bundles := (mem_filter.mp he).1
  have hloop := tracks_deactivateObjects (R := Covers m.active) e.2.ids
    (fun o ho => hm.registered.request_ne_none heb ho) e.1 objectsToCancel
  refine .bind (hloop.pre ?_) fun acc => .bind (.update ?_) fun _ => .skip
  · rintro _ rfl
    exact ⟨refl_of Kept _, hm.pulling.tracks⟩
  rintro t ⟨hk, ht⟩
  have hordered := hm.registered.ordered p
  refine ⟨⟨fun p' => ?_, hk.nextReqId, hk.facts, hk.locations⟩, ?_, ?_, ?_, fun p' x hx => ?_⟩
  · show (update t.queues p _ p').bundles = _
    rw [hk.queues]
    by_cases hp : p' = p
    · subst hp
      rw [update_self]
    · rw [update_of_ne hp]
  · show update t.queues p _ = _
    rw [hk.queues]
  · refine (Tracks.congr { ht with } (fun o id => ?_) rfl)
    rw [Covers.update]
    constructor
    · rintro (⟨p', hp, x, hx, rfl, ho⟩ | ⟨x, hx, rfl, ho⟩)
      · refine ⟨⟨p', x, hx, rfl, ho⟩, fun h => hp ?_⟩
        exact hm.registered.apart p' p x e (mem_filter.mp hx).1 heb h.2
      · rw [mem_filter, decide_eq_true_iff] at hx
        exact ⟨⟨p, x, hx.1, rfl, ho⟩, fun h => hx.2 h.2⟩
    · rintro ⟨⟨p', x, hx, rfl, ho⟩, hnot⟩
      by_cases hp : p' = p
      · subst hp
        refine .inr ⟨x, mem_filter.mpr ⟨hx, decide_eq_true fun hid => hnot ⟨?_, hid⟩⟩, rfl, ho⟩
        rw [← hordered.eq_of_id_eq heb (mem_filter.mp hx).1 hid]
        exact ho
      · exact .inl ⟨p', hp, x, hx, rfl, ho⟩
  · show t.numActiveBundles - 1 = _
    have hlen := hordered.length_filter_ne he
    have hcount := countAll_update (A := m.active) (p := p) (l := (m.active p).filter (·.1 ≠ e.1))
    have hall := hk.numActive.trans hm.pulling.count
    unfold active at hcount hall ⊢
    omega
  · apply hm.pulling.sized p' x
    by_cases hp : p' = p
    · subst hp
      rw [update_self] at hx
      exact (mem_filter.mp hx).1
    · rwa [update_of_ne hp] at hx

lemma Queue.Ordered.active_next {q : Queue} (h : q.Ordered) (hn : q.nextRequest = some e) :
    e ∈ q.bundles ∧ q.highest < e.1 ∧ Queue.active { q with highest := e.1 } = q.active ++ [e] := by
  obtain ⟨before, after, hsplit, hbefore, hlt, hafter⟩ := h.nextRequest hn
  have hall : ∀ b, q.highest ≤ b → before.filter (·.1 ≤ b) = before := fun b hb =>
    filter_eq_self.mpr fun x hx => decide_eq_true ((hbefore x hx).trans hb)
  have hnone : ∀ b, b ≤ e.1 → after.filter (·.1 ≤ b) = [] := fun b hb => filter_eq_nil_iff.mpr fun x hx => by
      have := hafter x hx
      simp only [decide_eq_true_eq]
      omega
  refine ⟨by simp [hsplit], hlt, ?_⟩
  unfold Queue.active
  rw [hsplit]
  rw [filter_append, filter_append, hall _ hlt.le, hall _ le_rfl,
    filter_cons_of_pos (by simp), filter_cons_of_neg (by simpa using hlt), hnone _ le_rfl,
    hnone _ hlt.le, append_nil]

lemma exact_advance (hm : Exact m) (hn : (m.queues p).nextRequest = some e)
    (hsized : e.2.numObjectSizesMissing = 0) (hk : Kept m t)
    (ht : Tracks t (fun x id => Covers m.active x id ∨ x ∈ e.2.ids ∧ id = e.1) 0) :
    let u : State W := { t.withQueue p { t.queues p with highest := e.1 } with
      numActiveBundles := t.numActiveBundles + 1 }
    SameRequests m u ∧ Exact u ∧ (∀ p', p' ≠ p → u.queues p' = m.queues p') ∧
      (u.active p).length = (m.active p).length + 1 := by
  intro u
  obtain ⟨heb, hlt, hnext⟩ := (hm.registered.ordered p).active_next hn
  have hp : u.queues p = { m.queues p with highest := e.1 } := by
    show update t.queues p _ p = _
    rw [update_self, hk.queues]
  have hother : ∀ p', p' ≠ p → u.queues p' = m.queues p' := by
    intro p' hne
    show update t.queues p _ p' = _
    rw [update_of_ne hne, hk.queues]
  have hactive : u.active = update m.active p (m.active p ++ [e]) := by
    funext p'
    by_cases hne : p' = p
    · subst hne
      rw [update_self, active, hp]
      exact hnext
    · rw [update_of_ne hne, active, hother p' hne, active]
  have hsame : SameRequests m u := by
    refine ⟨fun p' => ?_, hk.nextReqId, hk.facts, hk.locations⟩
    by_cases hne : p' = p
    · rw [hne, hp]
    · rw [hother p' hne]
  refine ⟨hsame, ⟨hm.registered.same hsame fun p' => ?_, ?_⟩, hother, ?_⟩
  · by_cases hne : p' = p
    · rw [hne, hp]
      exact .inr ⟨e, heb, rfl⟩
    · rw [hother p' hne]
      exact (hm.registered.ordered p').pointer
  · rw [hactive]
    refine ⟨Tracks.congr { ht with } (fun o id => ?_) rfl, ?_, fun p' x hx => ?_⟩
    · rw [Covers.update]
      constructor
      · rintro (⟨p', hne, x, hx, hid⟩ | ⟨x, hx, hid⟩)
        · exact .inl ⟨p', x, hx, hid⟩
        · rcases mem_append.mp hx with hx | hx
          · exact .inl ⟨p, x, hx, hid⟩
          · rw [mem_singleton.mp hx] at hid
            exact .inr ⟨hid.2, hid.1.symm⟩
      · rintro (⟨p', x, hx, hid⟩ | ⟨ho, rfl⟩)
        · by_cases hne : p' = p
          · exact .inr ⟨x, mem_append_left _ (hne ▸ hx), hid⟩
          · exact .inl ⟨p', hne, x, hx, hid⟩
        · exact .inr ⟨e, mem_append_right _ (mem_singleton.mpr rfl), rfl, ho⟩
    · show t.numActiveBundles + 1 = _
      have hcount := countAll_update (A := m.active) (p := p) (l := m.active p ++ [e])
      have hall := hk.numActive.trans hm.pulling.count
      rw [length_append, length_singleton] at hcount
      omega
    · by_cases hne : p' = p
      · subst hne
        rw [update_self] at hx
        rcases mem_append.mp hx with hx | hx
        · exact hm.pulling.sized p' x hx
        · rw [mem_singleton.mp hx]
          exact hsized
      · rw [update_of_ne hne] at hx
        exact hm.pulling.sized p' x hx
  · rw [hactive, update_self, length_append, length_singleton]

/-- There is no next request, or it has an object of unknown size. -/
def Stuck (p : BundlePriority) (m : State W) : Prop :=
  ∀ e, (m.queues p).nextRequest = some e → 0 < e.2.numObjectSizesMissing

lemma exact_activateNext (hm : Exact m) (p : BundlePriority) (respectQuota : Bool) (acc : List ObjectID) :
    Completes m (activateNextPullBundleRequest cb p respectQuota acc)
      fun r t => SameRequests m t ∧ Exact t ∧ (∀ p', p' ≠ p → t.queues p' = m.queues p') ∧
        (r.1 = true → (t.active p).length = (m.active p).length + 1) ∧
        (r.1 = false → respectQuota = false → Stuck p t) := by
  have hsame : (respectQuota = false → Stuck p m) → ∀ t, t = m → SameRequests m t ∧ Exact t ∧
      (∀ p', p' ≠ p → t.queues p' = m.queues p') ∧
      (false = true → (t.active p).length = (m.active p).length + 1) ∧
      (false = false → respectQuota = false → Stuck p t) := by
    rintro hstuck t rfl
    exact ⟨refl_of SameRequests t, hm, fun _ _ => rfl, fun hf => Bool.noConfusion hf, fun _ => hstuck⟩
  have hordered := hm.registered.ordered p
  refine .seen ?_
  cases hn : (m.queues p).nextRequest with
  | none => exact .pure (hsame fun _ e he => by rw [hn] at he; cases he)
  | some e =>
    obtain ⟨heb, hlt, hactive⟩ := hordered.active_next hn
    have hreq : ∀ o ∈ e.2.ids, m.objectPullRequests.lookup o ≠ none := fun o ho => hm.registered.request_ne_none heb ho
    refine .ite (fun hmissing => .pure (hsame fun _ e' he' => ?_)) fun hmissing => ?_
    · rw [hn] at he'
      exact Option.some.inj he' ▸ hmissing
    refine .bind (triple_bytesToPull e.2.ids hreq) fun bytes => .given fun hbytes => ?_
    refine .read fun v hv => .ite (fun hquota => .pure fun t ht =>
      hsame (fun hr => absurd (hr ▸ hquota.1) Bool.false_ne_true) t (ht.trans hv)) fun _ => ?_
    subst hv
    -- the bytes are counted first, then the objects one by one
    refine .seq (.update (Q := fun _ t => Kept v t ∧ Tracks t (Covers v.active) (v.bytesFor e.2.ids)) ?_) ?_
    · rintro _ rfl
      have ht := hm.pulling.tracks
      refine ⟨⟨⟨fun _ => rfl, rfl, fun _ => rfl, id⟩, rfl, rfl⟩, ht.active, ht.nonempty, ?_, ht.pinned, ht.pinnedSize⟩
      have hb := ht.bytes
      rw [add_zero] at hb
      rw [hbytes, hb]
      rfl
    refine .bind (tracks_activateObjects e.2.ids (hm.registered.distinct p e heb) hm.pulling.tracks
      e.1 acc) fun acc => ?_
    refine .read fun t ht => ?_
    obtain ⟨hk, ht⟩ := ht
    refine .seq (.passed (hk.queues ▸ hlt)) (.seq (.update
      (Q := fun _ t => SameRequests v t ∧ Exact t ∧ (∀ p', p' ≠ p → t.queues p' = v.queues p') ∧
        (t.active p).length = (v.active p).length + 1) ?_) (.pure fun _ h => ⟨h.1, h.2.1, h.2.2.1, fun _ => h.2.2.2, nofun⟩))
    rintro t rfl
    exact exact_advance hm hn (by omega) hk ht

lemma exact_deactivateLast (hm : Exact m) (he : e ∈ (m.queues p).bundles)
    (hlast : (m.queues p).highest = e.1) (acc : List ObjectID) :
    Completes m (deactivatePullBundleRequest p e.1 e.2 acc)
      fun _ t => SameRequests m t ∧ Exact t ∧ (∀ p', p' ≠ p → t.queues p' = m.queues p') ∧
        (t.active p).length + 1 = (m.active p).length := by
  have hordered := hm.registered.ordered p
  have hmem : e ∈ m.active p := mem_filter.mpr ⟨he, decide_eq_true hlast.ge⟩
  apply (pulling_deactivate hm hmem acc).post
  rintro _ t ⟨hsame, hqueues, hpulling⟩
  obtain ⟨hothers, hbelow, hpointer⟩ := hordered.highestWithout he
  have hactive : t.active = update m.active p ((m.active p).filter (·.1 ≠ e.1)) := by
    funext p'
    by_cases hne : p' = p
    · subst hne
      rw [update_self, active, hqueues, update_self]
      unfold active Queue.active
      rw [filter_filter]
      refine filter_congr fun x hx => ?_
      by_cases hxe : x.1 = e.1
      · have := hbelow hlast
        simp [hxe, this]
      · simp [hxe, hothers x hx hxe]
    · rw [update_of_ne hne, active, hqueues, update_of_ne hne, active]
  refine ⟨hsame, ⟨hm.registered.same hsame fun p' => ?_, hactive ▸ hpulling⟩, fun p' hne => ?_, ?_⟩
  · rw [hqueues]
    by_cases hne : p' = p
    · subst hne
      rw [update_self]
      refine hpointer.imp_right ?_
      rintro ⟨x, hx, _, hid⟩
      exact ⟨x, hx, hid⟩
    · rw [update_of_ne hne]
      exact (hm.registered.ordered p').pointer
  · rw [hqueues, update_of_ne hne]
  · rw [hactive, update_self]
    exact hordered.length_filter_ne hmem

end

variable {W : Type} {cb : Callbacks W} {m : State W} {t u : State W} (p : BundlePriority) (below : List BundlePriority) (numBytesAvailable : Int) (respectQuota : Bool)

/-- The requests are the same, and what is not of the given priorities is not moved. -/
structure Moved (ps : List BundlePriority) (m t : State W) : Prop where
  same : SameRequests m t
  exact : Exact t
  others : ∀ p, p ∉ ps → t.queues p = m.queues p

def Over (p : BundlePriority) (retainMin quotaMargin : Int) (m : State W) : Prop :=
  m.remainingQuota < quotaMargin ∧ (m.queues p).highest ≠ 0 ∧ retainMin < m.numActiveBundles

lemma moved_deactivateUntil (retainMin quotaMargin : Int) (bound : Nat) (m : State W)
    (hm : Exact m) (hbound : (m.active p).length < bound) (acc : List ObjectID) :
    Completes m (deactivateUntilMarginAvailable p retainMin quotaMargin bound acc) fun _ t => Moved [p] m t ∧
      ¬Over p retainMin quotaMargin t ∧ (¬Over p retainMin quotaMargin m → t = m) := by
  induction bound generalizing m acc with
  | zero => exact absurd hbound (Nat.not_lt_zero _)
  | succ bound ih =>
    refine .seen ?_
    refine .ite (fun hc => ?_) fun hnot => .done ⟨⟨refl_of SameRequests m, hm, fun _ _ => rfl⟩, hnot, fun _ => rfl⟩
    have hordered := hm.registered.ordered p
    obtain ⟨e, he, hlast⟩ := hordered.pointer.resolve_left hc.2.1
    have hfind : (m.queues p).find (m.queues p).highest = some e.2 := by
      rw [← hlast]
      exact hordered.find_eq_some.mpr he
    rw [hfind, ← hlast]
    refine .bind (exact_deactivateLast hm he hlast.symm acc) fun acc t ht => ?_
    obtain ⟨hsame, ht, hothers, hlen⟩ := ht
    refine (ih t ht (by omega) acc).post (fun _ v ⟨hv, hend, _⟩ => ?_) t rfl
    refine ⟨⟨trans_of SameRequests hsame hv.same, hv.exact, fun p' hp' => ?_⟩, hend, fun hnot => absurd hc hnot⟩
    exact (hv.others p' hp').trans (hothers p' fun h => hp' (mem_singleton.mpr h))

lemma triple_loopBound {f : Nat → PullM W α} {Q : α → State W → Prop}
    (hf : Completes m (f ((m.queues p).bundles.length + 1)) Q) : Completes m (loopBound p >>= f) Q := by
  refine .bind (Q := fun bound t => t = m ∧ bound = (m.queues p).bundles.length + 1) (.seen (.done ⟨rfl, rfl⟩))
    fun bound => .given ?_
  rintro rfl
  exact hf

lemma moved_deactivateFor (retainMin quotaMargin : Int) (c : Collected) (hm : Exact m) :
    Completes m (deactivateFor p retainMin quotaMargin c) fun _ t => Moved [p] m t ∧
      ¬Over p retainMin quotaMargin t ∧ (¬Over p retainMin quotaMargin m → t = m) := by
  refine triple_loopBound p (.bind (moved_deactivateUntil p retainMin quotaMargin _ m hm ?_ _) fun _ => .pure fun _ ht => ht)
  exact Nat.lt_succ_of_le (length_filter_le _ _)

lemma Moved.refl (ps : List BundlePriority) (hm : Exact m) : Moved ps m m :=
  ⟨refl_of SameRequests m, hm, fun _ _ => rfl⟩

lemma Moved.trans (h : Moved ps m t) (h' : Moved ps t u) :
    Moved ps m u :=
  ⟨trans_of SameRequests h.same h'.same, h'.exact, fun p hp => (h'.others p hp).trans (h.others p hp)⟩

lemma Moved.mono (h : Moved ps m t) (hps : ∀ p ∈ ps, p ∈ ps') :
    Moved ps' m t := ⟨h.same, h.exact, fun p hp => h.others p fun hmem => hp (hps p hmem)⟩

/-- A program that moves only those priorities, whatever it returns. -/
def Moves (ps : List BundlePriority) {α : Type} (x : PullM W α) : Prop :=
  ∀ m, Exact m → Triple (fun t => t = m) x (fun _ t => Moved ps m t) fun _ _ => False

lemma Moves.mono {x : PullM W α} (h : Moves ps x)
    (hps : ∀ p ∈ ps, p ∈ ps') : Moves ps' x := fun m hm => (h m hm).post fun _ _ ht => ht.mono hps

lemma composes_moves (ps : List BundlePriority) : Composes fun α (x : PullM W α) => Moves ps x where
  pure _ m hm := .pure (by
    rintro _ rfl
    exact Moved.refl ps hm)
  bind hx hf m hm := .bind (hx m hm) fun a t ht => (hf a t ht.exact).post (fun _ _ hu => ht.trans hu) t rfl

lemma moves_activateRequests (hp : p ∉ ps)
    (hspace : ∀ c, Moves ps (makeSpace c)) (bound : Nat) (m : State W) (hm : Exact m)
    (hbound : (m.queues p).bundles.length < bound + (m.active p).length) (c : Collected) :
    Completes m (activateRequests cb p respectQuota makeSpace bound c) fun _ t => Moved (p :: ps) m t ∧
      (respectQuota = false → Stuck p t) := by
  induction bound generalizing m c with
  | zero =>
    have hle : (m.active p).length ≤ (m.queues p).bundles.length := length_filter_le _ _
    omega
  | succ bound ih =>
    refine .bind (hspace c m hm) fun c t ht => ?_
    have hqueue := ht.others p hp
    have hstep : Moved (p :: ps) m t := ht.mono fun _ => mem_cons_of_mem p
    refine Triple.bind (exact_activateNext ht.exact p respectQuota c.objectsToPull) (fun r => ?_) t rfl
    refine .ite (fun hr u hu => ?_) fun hr => .pure fun u hu => ?_
    · obtain ⟨hsame, hu, hothers, hlen, -⟩ := hu
      have hlen := hlen hr
      have hbundles := hsame.bundles p
      refine (ih u hu ?_ _).post (fun _ v hv =>
        ⟨hstep.trans (Moved.trans ⟨hsame, hu, fun p' hp' => ?_⟩ hv.1), hv.2⟩) u rfl
      · have hactive : t.active p = m.active p := by rw [active, hqueue, active]
        rw [hbundles, hqueue, hlen, hactive]
        omega
      · exact hothers p' fun h => hp' (h ▸ mem_cons_self)
    · obtain ⟨hsame, hu, hothers, -, hstuck⟩ := hu
      refine ⟨hstep.trans ⟨hsame, hu, fun p' hp' => ?_⟩, hstuck (eq_false_of_ne_true hr)⟩
      exact hothers p' fun h => hp' (h ▸ mem_cons_self)

lemma moves_deactivateAll (quotaMargin : Int) (below : List BundlePriority) (c : Collected) :
    Moves below (below.foldlM (fun c p => deactivateFor p 0 quotaMargin c) c : PullM W Collected) := by
  induction below generalizing c with
  | nil => exact (composes_moves []).pure c
  | cons p below ih =>
    have hfirst : Moves [p] (deactivateFor p 0 quotaMargin c : PullM W Collected) :=
      fun m hm => (moved_deactivateFor p 0 quotaMargin c hm).post fun _ _ ht => ht.1
    refine (composes_moves (p :: below)).bind (hfirst.mono fun p' hp' => ?_) fun c =>
      (ih c).mono fun _ => mem_cons_of_mem p
    exact mem_singleton.mp hp' ▸ mem_cons_self

lemma moves_makeSpaceFor (c : Collected) : Moves below (makeSpaceFor p below c : PullM W Collected) := by
  intro m hm
  refine .bind (Q := fun _ t => t = m) ?_ fun margin => ?_
  · refine .read fun u hu => ?_
    subst hu
    cases hn : (u.queues p).nextRequest with
    | none => exact .pure fun _ ht => ht
    | some e =>
      refine .ite (fun _ => .pure fun _ ht => ht) fun _ => ?_
      have heb := ((hm.registered.ordered p).active_next hn).1
      exact (triple_bytesToPull e.2.ids fun o ho => hm.registered.request_ne_none heb ho).post fun _ _ ht => ht.1
  · exact moves_deactivateAll margin below c m hm

lemma moved_activateEach (hp : p ∉ ps) (hspace : ∀ c, Moves ps (makeSpace c)) (c : Collected) (hm : Exact m) :
    Completes m (activateEach cb p respectQuota makeSpace c) fun _ t => Moved (p :: ps) m t ∧
      (respectQuota = false → Stuck p t) :=
  triple_loopBound p (moves_activateRequests p respectQuota hp hspace _ m hm (by omega) c)

lemma moved_activateAll (hp : p ∉ below) (respectQuota : Bool) (c : Collected) (hm : Exact m) :
    Completes m (activateAll cb p below respectQuota c) fun _ t => Moved (p :: below) m t ∧
      (respectQuota = false → Stuck p t) := by
  refine .seen (.ite (fun hempty => .done ⟨Moved.refl _ hm, fun _ e he => ?_⟩) fun _ => ?_)
  · have heb := ((hm.registered.ordered p).active_next he).1
    rw [hempty] at heb
    cases heb
  · exact moved_activateEach p respectQuota hp (moves_makeSpaceFor p below) c hm

lemma Exact.wanted (hm : Exact m) : Wanted m := by
  intro o ho
  obtain ⟨id, p, e, he, -, hmem⟩ := (hm.pulling.tracks.isSome_iff o).mp ho
  exact hm.registered.request_ne_none (mem_filter.mp he).1 hmem

lemma Exact.moved (hm : Exact m) (h : Untouched m t) : Moved ps m t :=
  ⟨h.toSameRequests, hm.untouched h, fun p _ => congrFun h.queues p⟩

/-- After an update no request of a get could be activated, and the quota is kept unless one request or only those of
gets are active. -/
structure Admitted (m t : State W) : Prop where
  moved : Moved [.getRequest, .waitRequest, .taskArgs] m t
  stuck : Stuck .getRequest t
  quota : 0 ≤ t.remainingQuota ∨ t.numActiveBundles ≤ 1 ∨
    (t.queues .taskArgs).highest = 0 ∧ (t.queues .waitRequest).highest = 0

lemma Admitted.rested (h : Admitted m t) (hu : Rested t u) : Admitted m u := by
  obtain ⟨hu, havailable⟩ := hu
  refine ⟨h.moved.trans (h.moved.exact.moved hu), ?_, ?_⟩
  · rw [Stuck, hu.queues]
    exact h.stuck
  · rw [remainingQuota, havailable, hu.bytes, hu.pinnedSize, hu.numActive, hu.queues]
    exact h.quota

lemma admitted_update (hm : Exact m) :
    Completes m (updatePullsBasedOnAvailableMemory cb numBytesAvailable) fun _ t => Admitted m t := by
  have h₀ : Untouched m { m with numBytesAvailable } :=
    ⟨⟨⟨fun _ => rfl, rfl, fun _ => rfl, id⟩, rfl, rfl⟩, rfl, rfl, rfl, rfl⟩
  have hpure : ∀ c, Moves [] (pure c : PullM W Collected) := (composes_moves []).pure
  refine .modified (.call (moved_activateAll .getRequest [.taskArgs, .waitRequest] (by decide) false {}
    (hm.untouched h₀)) fun c t₁ h₁ => ?_)
  refine .call (moved_activateAll .waitRequest [.taskArgs] (by decide) true c h₁.1.exact) fun c t₂ h₂ => ?_
  refine .call (moved_activateEach .taskArgs true not_mem_nil hpure c h₂.1.exact) fun c t₃ h₃ => ?_
  refine .call (moved_deactivateFor .taskArgs 1 0 c h₃.1.exact) fun c t₄ h₄ => ?_
  refine .call (moved_deactivateFor .waitRequest 1 0 c h₄.1.exact) fun c t₅ h₅ => ?_
  have hrest : Admitted m t₅ := by
    have hall : ∀ {ps} {t u : State W}, Moved ps t u → Moved [.getRequest, .waitRequest, .taskArgs] t u :=
      fun h => h.mono fun p _ => by cases p <;> simp
    refine ⟨?_, ?_, ?_⟩
    · refine (hm.moved h₀).trans ((hall h₁.1).trans ((hall h₂.1).trans ?_))
      exact (hall h₃.1).trans ((hall h₄.1).trans (hall h₅.1))
    · -- the queue of the gets is as the first loop left it
      rw [Stuck, h₅.1.others _ (by decide), h₄.1.others _ (by decide), h₃.1.others _ (by decide),
        h₂.1.others _ (by decide)]
      exact h₁.2 rfl
    · have htask := congrArg Queue.highest (h₅.1.others .taskArgs (by decide))
      have hover := h₄.2.1
      by_cases hwait : Over .waitRequest 1 0 t₄
      · have hend := h₅.2.1
        unfold Over at hover hwait hend
        omega
      · obtain rfl := h₅.2.2 hwait
        unfold Over at hover hwait
        omega
  have h := composes_triple (Admitted m) fun (_ : Check) _ => False
  refine .pre (h.seq (h.forM (fun id => .update fun t ht => ?_) _)
    (h.forM (fun id => h.onlyIf fun _ => .each fun t ht => ?_) _)) ?_
  · exact ht.rested ⟨untouched_world t _, rfl⟩
  case refine_3 =>
    rintro _ rfl
    exact hrest
  exact (triple_tryToMakeObjectLocal id ht.moved.exact.wanted fun o r hr =>
    (ht.moved.exact.registered.listed o r hr).2.2).post fun _ _ hu => ht.rested hu.1

abbrev Settles {α : Type} (x : PullM W α) : Prop := Moves [.getRequest, .waitRequest, .taskArgs] x

lemma settles_tryToMakeObjectLocal (o : ObjectID) : Settles (tryToMakeObjectLocal cb o) := fun _ hm =>
  (untouched_tryToMakeObjectLocal o hm.wanted fun o r hr => (hm.registered.listed o r hr).2.2).post fun _ _ => hm.moved

lemma settles_update : Settles (updatePullsBasedOnAvailableMemory cb numBytesAvailable) :=
  fun _ hm => (admitted_update numBytesAvailable hm).post fun _ _ h => h.moved

end AmazonRay.PullManager
