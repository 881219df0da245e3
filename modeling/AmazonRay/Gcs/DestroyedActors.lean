import AmazonRay.Ids
import AmazonRay.Lib.Runs

/-! The destroyed actors in the `GcsActorManager`: a map, and a list of its keys in the order of destruction. -/
namespace AmazonRay.Gcs
open List Program

abbrev JobID := Nat

/-- What the ids and creation tasks say, and `maximum_gcs_destroyed_actor_cached_count`. -/
structure ActorConfig where
  limit : ℕ
  jobId : ActorID → JobID
  isDetached : ActorID → Bool

/-- `order` has all actors that were destroyed, and is not part of the code's state. -/
structure ActorCache where
  registeredActors : Finset ActorID
  destroyedActors : Finset ActorID := ∅
  sortedDestroyedActorList : List (ActorID × ℤ) := []
  order : List ActorID := []

def ActorCache.evict (limit : ℕ) (c : ActorCache) : ActorCache :=
  if limit ≤ c.destroyedActors.card then
    match c.sortedDestroyedActorList with
    | [] => c
    | oldest :: rest => { c with
        destroyedActors := c.destroyedActors.erase oldest.1, sortedDestroyedActorList := rest }
  else c

def addDestroyedActorToCache (limit : ℕ) (c : ActorCache) (actorId : ActorID) (timestamp : ℤ) : ActorCache :=
  let c := c.evict limit
  if actorId ∈ c.destroyedActors then c
  else { c with
    destroyedActors := insert actorId c.destroyedActors
    sortedDestroyedActorList := c.sortedDestroyedActorList ++ [(actorId, timestamp)] }

/-- `found` says whether the table has any actor of the job. -/
inductive ActorOp where
  | destroyActor (actorId : ActorID) (now : ℤ)
  | onJobFinished (jobId : JobID) (found : Bool)

def ActorOp.apply (cfg : ActorConfig) (c : ActorCache) : ActorOp → ActorCache
  | .destroyActor actorId now =>
    if actorId ∈ c.registeredActors then
      { addDestroyedActorToCache cfg.limit c actorId now with
        registeredActors := c.registeredActors.erase actorId
        order := c.order ++ [actorId] }
    else c
  | .onJobFinished jobId found =>
    if found then
      { c with destroyedActors := c.destroyedActors.filter fun id => ¬(cfg.jobId id = jobId ∧ cfg.isDetached id = false) }
    else c

def runActors (cfg : ActorConfig) (registered : Finset ActorID) (ops : List ActorOp) : ActorCache :=
  ops.foldl (ActorOp.apply cfg) { registeredActors := registered }

def ActorCache.ids (c : ActorCache) : List ActorID := c.sortedDestroyedActorList.map Prod.fst

structure ActorCache.Mirrored (limit : ℕ) (c : ActorCache) : Prop where
  bounded : c.destroyedActors.card ≤ limit
  ids : ∀ id, id ∈ c.ids ↔ id ∈ c.destroyedActors
  ordered : c.ids <+ c.order
  nodup : c.order.Nodup

/-- The map does not lose an actor when a job is finished. -/
def ActorOp.ErasesNone (cfg : ActorConfig) (c : ActorCache) : ActorOp → Prop
  | .onJobFinished jobId true => ∀ id ∈ c.destroyedActors, cfg.jobId id = jobId → cfg.isDetached id = true
  | _ => True

variable {cfg : ActorConfig} {c : ActorCache} {limit : ℕ}

lemma ActorCache.Mirrored.evict (h : c.Mirrored limit) (hlimit : 1 ≤ limit) :
    (c.evict limit).Mirrored limit ∧ (c.evict limit).destroyedActors.card < limit ∧ (c.evict limit).order = c.order := by
  unfold ActorCache.evict
  by_cases hfull : limit ≤ c.destroyedActors.card
  · rw [if_pos hfull]
    obtain ⟨id, hid⟩ := Finset.card_pos.mp (hlimit.trans hfull)
    cases hlist : c.sortedDestroyedActorList with
    | nil =>
      have hmem := (h.ids id).mpr hid
      rw [ActorCache.ids, hlist] at hmem
      cases hmem
    | cons oldest rest =>
      have hids : c.ids = oldest.1 :: rest.map Prod.fst := by rw [ActorCache.ids, hlist]; rfl
      have hdistinct := nodup_cons.mp (hids ▸ h.ordered.nodup h.nodup)
      have hcard := Finset.card_erase_lt_of_mem ((h.ids oldest.1).mp (hids ▸ mem_cons_self))
      have hlt := hcard.trans_le h.bounded
      refine ⟨⟨hlt.le, fun x => ?_, ((sublist_cons_self _ _).trans (hids ▸ h.ordered)), h.nodup⟩, hlt, rfl⟩
      have hx := h.ids x
      rw [hids, mem_cons] at hx
      rw [Finset.mem_erase, ← hx]
      constructor
      · exact fun hmem => ⟨fun heq => hdistinct.1 (heq ▸ hmem), Or.inr hmem⟩
      · exact fun hmem => hmem.2.resolve_left hmem.1
  · rw [if_neg hfull]
    exact ⟨h, not_le.mp hfull, rfl⟩

lemma ActorCache.Mirrored.destroyed (h : c.Mirrored limit) (hlimit : 1 ≤ limit) {actorId : ActorID} {now : ℤ}
    (hnew : actorId ∉ c.order) (registered : Finset ActorID) :
    ({ addDestroyedActorToCache limit c actorId now with
      registeredActors := registered, order := c.order ++ [actorId] } : ActorCache).Mirrored limit := by
  obtain ⟨hevict, hroom, horder⟩ := h.evict hlimit
  have hout : actorId ∉ (c.evict limit).destroyedActors := fun hmem =>
    hnew (horder ▸ hevict.ordered.subset ((hevict.ids _).mpr hmem))
  simp only [addDestroyedActorToCache, if_neg hout]
  refine ⟨?_, fun id => ?_, ?_, ?_⟩
  · rw [Finset.card_insert_of_notMem hout]
    exact hroom
  · have hid := hevict.ids id
    simp only [ActorCache.ids] at hid
    simp only [ActorCache.ids, map_append, map_cons, map_nil, mem_append, mem_singleton, Finset.mem_insert, hid]
    exact or_comm
  · simp only [ActorCache.ids, map_append, map_cons, map_nil]
    exact (horder ▸ hevict.ordered).append (Sublist.refl _)
  · show (c.order ++ [actorId]).Nodup
    rw [← concat_eq_append]
    exact h.nodup.concat hnew

lemma mirrored_finished_iff (h : c.Mirrored limit) (jobId : JobID) (found : Bool) :
    ((ActorOp.onJobFinished jobId found).apply cfg c).Mirrored limit ↔
      (ActorOp.onJobFinished jobId found).ErasesNone cfg c := by
  cases found with
  | false => exact iff_of_true h trivial
  | true =>
    simp only [ActorOp.apply, ActorOp.ErasesNone, if_true]
    constructor
    · intro hafter id hid hjob
      have hkept := (hafter.ids id).mp ((h.ids id).mpr hid)
      simpa [hjob] using (Finset.mem_filter.mp hkept).2
    · intro hnone
      rw [Finset.filter_true_of_mem fun id hid hlost => by simp [hnone id hid hlost.1] at hlost]
      exact h

lemma not_registered_of_destroyed (cfg : ActorConfig) (registered : Finset ActorID) (ops : List ActorOp) :
    ∀ id ∈ (runActors cfg registered ops).order, id ∉ (runActors cfg registered ops).registeredActors := by
  refine throughout (I := fun c : ActorCache => ∀ id ∈ c.order, id ∉ c.registeredActors)
    (fun _ hid => absurd hid not_mem_nil) (fun done op _ h => ?_) ops (prefix_refl ops)
  cases op with
  | destroyActor =>
    simp only [ActorOp.apply]
    split
    · intro id hid
      rw [Finset.mem_erase, not_and]
      intro hne
      exact h id ((mem_append.mp hid).resolve_right fun hlast => hne (mem_singleton.mp hlast))
    · exact h
  | onJobFinished =>
    simp only [ActorOp.apply]
    split
    · exact h
    · exact h

/-- The map and the list of the destroyed actors are bounded and have the same actors, in
the order of their destruction, as long as no finished job takes actors out of the map. -/
theorem destroyed_actors_mirrored_throughout_iff (cfg : ActorConfig) (hlimit : 1 ≤ cfg.limit)
    (registered : Finset ActorID) (ops : List ActorOp) :
    (∀ done, done <+: ops → (runActors cfg registered done).Mirrored cfg.limit) ↔
      ∀ done op, done ++ [op] <+: ops → op.ErasesNone cfg (runActors cfg registered done) := by
  have hstart : (runActors cfg registered []).Mirrored cfg.limit :=
    ⟨Nat.zero_le _, fun _ => Iff.rfl, Sublist.refl _, nodup_nil⟩
  refine throughout_iff hstart fun done op h => ?_
  cases op with
  | destroyActor =>
    refine iff_of_true ?_ trivial
    simp only [ActorOp.apply]
    split
    case isTrue hregistered =>
      exact h.destroyed hlimit (fun hid => not_registered_of_destroyed cfg registered done _ hid hregistered) _
    · exact h
  | onJobFinished => exact mirrored_finished_iff h _ _

def threeActors : ActorConfig := { limit := 1, jobId := fun id => if id = 1 then 1 else 2, isDetached := fun _ => false }

/-- The job of the first actor is finished. Its id is evicted in place of the second one. -/
theorem finished_job_unbounds_cache :
    (runActors threeActors {1, 2, 3}
      [.destroyActor 1 0, .onJobFinished 1 true, .destroyActor 2 1, .destroyActor 3 2]).destroyedActors = {2, 3} := by
  decide +kernel

theorem second_actor_evicts_first :
    (runActors threeActors {1, 2} [.destroyActor 1 0, .destroyActor 2 1]).Mirrored 1 := by
  refine (destroyed_actors_mirrored_throughout_iff threeActors (by decide) {1, 2} _).mpr ?_ _ (prefix_refl _)
  exact along_cons trivial (along_cons trivial along_nil)

end AmazonRay.Gcs
