import AmazonRay.Recovery.Facts

/-! Which objects of a removed node are then being recovered, or have a spilled copy elsewhere. -/
namespace AmazonRay.Recovery
open Program ReferenceCounter TaskManager List

section

variable {τ : Type} {nodeId : NodeID}

def atNode (nodeId : NodeID) (ref : Reference) : Bool :=
  decide (ref.pinnedAtRayletId.getD NodeID.nil = nodeId)

def resetAt (nodeId : NodeID) (ref : Reference) : Reference :=
  if atNode nodeId ref then ref.unpinned else ref

variable {ref : Reference} {E : ReferenceCounter.Check → State τ → Prop} {id : ObjectID} {done lost : List ObjectID} {s t : State τ}

lemma triple_releasePlasmaObject {P : State τ → Prop} {Q : Unit → State τ → Prop}
    (hid : ∀ s, P s → s.refs.lookup id = some ref)
    (hq : ∀ s t : State τ, P s → t.refs = s.refs.insert id ref.unpinned → t.lineage = s.lineage → Q () t) :
    Triple P (releasePlasmaObject id) Q E := by
  have hpresent : ∀ s, P s → s.refs.lookup id = none → False := by
    intro s hs hnone
    rw [hid s hs] at hnone
    cases hnone
  refine .bind (triple_deref (fun _ _ hs _ => hs) fun s hs hnone => (hpresent s hs hnone).elim) fun r => ?_
  refine .seq (.onlyIf (Q := fun _ t => ∃ s, P s ∧ t.refs = s.refs ∧ t.lineage = s.lineage)
    (fun _ => .update fun s hs => ⟨s, hs, rfl, rfl⟩) fun _ s hs => ⟨s, hs, rfl, rfl⟩) (triple_update ?_ ?_)
  · rintro t r' ⟨s, hs, ht, hl⟩ hr
    rw [ht, hid s hs] at hr
    cases hr
    exact hq s _ hs (congrArg (·.insert id ref.unpinned) ht) hl
  · rintro t ⟨s, hs, ht, -⟩ hnone
    exact (hpresent s hs (ht ▸ hnone)).elim

/-- What the loop over the table has done with the first part of the keys. -/
structure ResetUpTo (nodeId : NodeID) (s : State τ) (done lost : List ObjectID) (t : State τ) : Prop where
  lost : ∀ x, x ∈ lost ↔ x ∈ done ∧ (s.refs.lookup x).any (atNode nodeId) = true
  refs : ∀ x, t.refs.lookup x =
    if x ∈ done then (s.refs.lookup x).map (resetAt nodeId) else s.refs.lookup x
  lineage : t.lineage = s.lineage

lemma ResetUpTo.keep (h : ResetUpTo nodeId s done lost t) (hid : s.refs.lookup id = some ref)
    (hn : atNode nodeId ref = false) : ResetUpTo nodeId s (done ++ [id]) lost t := by
  refine ⟨?_, ?_, h.lineage⟩
  · intro x
    rw [h.lost, mem_append, mem_singleton]
    refine ⟨fun hx => ⟨.inl hx.1, hx.2⟩, fun hx => ⟨hx.1.resolve_right fun hxid => ?_, hx.2⟩⟩
    rw [hxid, hid, Option.any_some, hn] at hx
    exact Bool.false_ne_true hx.2
  · intro x
    rw [h.refs x]
    by_cases hx : x = id
    · have hsame : Option.map (resetAt nodeId) (some ref) = some ref := by simp [resetAt, hn]
      rw [hx, hid, hsame, ite_self, ite_self]
    · simp [hx]

lemma ResetUpTo.reset {u : State τ} (h : ResetUpTo nodeId s done lost t) (hid : s.refs.lookup id = some ref)
    (hn : atNode nodeId ref = true) (hu : u.refs = t.refs.insert id ref.unpinned)
    (hl : u.lineage = t.lineage) : ResetUpTo nodeId s (done ++ [id]) (lost ++ [id]) u := by
  refine ⟨?_, ?_, hl.trans h.lineage⟩
  · intro x
    rw [mem_append, h.lost, mem_append, mem_singleton]
    constructor
    · rintro (hx | rfl)
      · exact ⟨.inl hx.1, hx.2⟩
      · exact ⟨.inr rfl, by rw [hid, Option.any_some, hn]⟩
    · rintro ⟨hx | rfl, hat⟩
      · exact .inl ⟨hx, hat⟩
      · exact .inr rfl
  · intro x
    rw [hu, Table.lookup_insert, h.refs x]
    by_cases hx : x = id
    · rw [if_pos hx, hx, hid, if_pos (by simp)]
      simp [resetAt, hn]
    · simp [hx]

lemma triple_resetObjectsOnRemovedNode (nodeId : NodeID) (s : State τ) :
    Triple (· = s) (resetObjectsOnRemovedNode nodeId) (fun lost t => ResetUpTo nodeId s s.refs.keys lost t) E := by
  refine .read fun s' hs' => ?_
  subst hs'
  refine (Triple.foldlM_done (I := ResetUpTo nodeId s') (fun lost done id l hkeys => ?_) []).pre ?_
  · have hfresh := notMem_of_nodup s'.refs.keys_nodup hkeys
    refine .bind (triple_find (Q := fun o t => ResetUpTo nodeId s' done lost t ∧ o = t.refs.lookup id)
      fun t ht => ⟨ht, rfl⟩) fun o => ?_
    refine .pre (.given (c := o = s'.refs.lookup id ∧ o ≠ none) (P := ResetUpTo nodeId s' done lost) fun hc => ?_) ?_
    · obtain ⟨ho, hne⟩ := hc
      cases o with
      | none => exact absurd rfl hne
      | some =>
        refine .ite (fun hat => ?_) fun hat => ?_
        · refine .bind (triple_releasePlasmaObject (fun t ht => ?_) fun t u ht hu hl =>
              ht.reset ho.symm (decide_eq_true hat) hu hl) fun _ => .pure fun _ ht => ht
          rw [ht.refs, if_neg hfresh, ← ho]
        · exact .pure fun t ht => ht.keep ho.symm (decide_eq_false hat)
    · rintro t ⟨ht, ho⟩
      rw [ht.refs, if_neg hfresh] at ho
      refine ⟨ht, ho, fun hnone => ?_⟩
      have hmem : id ∈ s'.refs.keys := by simp [hkeys]
      exact AList.lookup_eq_none.mp (ho.symm.trans hnone) hmem
  · rintro _ rfl
    exact ⟨fun x => by simp, fun x => by simp, rfl⟩

end

/-- No copy of the object is left, and the task that created it cannot be executed again. -/
def Unrecoverable (cfg : RecoveryConfig) (w : Worker) (id : ObjectID) : Prop :=
  liveLocations cfg w id = [] ∧ ¬ (isObjectReconstructable cfg w id = true ∧
    (w.lineage.submissibleTasks.lookup id.taskId).isSome = true)

def Recoverable (cfg : RecoveryConfig) (w : Worker) (id : ObjectID) : Prop :=
  (∃ f, facts w id = some f ∧ f.ownedByUs = true ∧ f.pinnedOrSpilled = false) ∧
    ¬ Unrecoverable cfg w id

section

variable {cfg : RecoveryConfig} {s t u : System} {id x : ObjectID} {w w' : Worker}

lemma Unrecoverable.congr (hf : facts w' = facts w)
    (hk : ∀ x, (w'.lineage.submissibleTasks.lookup x).isSome = (w.lineage.submissibleTasks.lookup x).isSome) :
    Unrecoverable cfg w' id ↔ Unrecoverable cfg w id := by
  rw [Unrecoverable, Unrecoverable, liveLocations_eq, liveLocations_eq, isObjectReconstructable_eq,
    isObjectReconstructable_eq, hf, hk]

lemma Recoverable.congr (hf : facts w' = facts w)
    (hk : ∀ x, (w'.lineage.submissibleTasks.lookup x).isSome = (w.lineage.submissibleTasks.lookup x).isSome) :
    Recoverable cfg w' id ↔ Recoverable cfg w id := by
  rw [Recoverable, Recoverable, Unrecoverable.congr hf hk, hf]

lemma Recoverable.owned (h : Recoverable cfg w id) : Owned w id := by
  obtain ⟨⟨f, hf, ho, -⟩, -⟩ := h
  exact ⟨f, hf, ho⟩

/-- The recoveries of owned objects only grow, and neither an error nor a pending recovery comes to the wrong object. -/
structure Grown (cfg : RecoveryConfig) (s t : System) : Prop where
  facts : facts t.worker = facts s.worker
  known : ∀ x, (t.worker.lineage.submissibleTasks.lookup x).isSome =
    (s.worker.lineage.submissibleTasks.lookup x).isSome
  pending : ∀ x, Owned s.worker x → x ∈ s.manager.objectsPendingRecovery →
    x ∈ t.manager.objectsPendingRecovery
  fresh : ∀ x, Owned s.worker x → x ∈ t.manager.objectsPendingRecovery →
    x ∈ s.manager.objectsPendingRecovery ∨ Recoverable cfg s.worker x
  objects : ∀ x, Owned s.worker x → t.manager.objects.lookup x ≠ none →
    s.manager.objects.lookup x ≠ none ∨ Unrecoverable cfg s.worker x

instance : IsPreorder System (Grown cfg) where
  refl _ := ⟨rfl, fun _ => rfl, fun _ _ h => h, fun _ _ => .inl, fun _ _ => .inl⟩
  trans s t u h h' := by
    have howned : ∀ x, Owned s.worker x → Owned t.worker x := by
      rintro x ⟨f, hf, ho⟩
      exact ⟨f, (congrFun h.facts x).trans hf, ho⟩
    have hun : ∀ x, Unrecoverable cfg t.worker x ↔ Unrecoverable cfg s.worker x :=
      fun x => Unrecoverable.congr h.facts h.known
    refine ⟨h'.facts.trans h.facts, fun x => (h'.known x).trans (h.known x),
      fun x hx hp => h'.pending x (howned x hx) (h.pending x hx hp), fun x hx hp => ?_, fun x hx hp => ?_⟩
    · rcases h'.fresh x (howned x hx) hp with hp | hn
      · exact h.fresh x hx hp
      · exact .inr ((Recoverable.congr h.facts h.known).mp hn)
    · rcases h'.objects x (howned x hx) hp with hp | hn
      · exact h.objects x hx hp
      · exact .inr ((hun x).mp hn)

lemma grown_recoveryFailure (reason : ErrorType) (pinObject : Bool) (s : System)
    (hid : ¬ Owned s.worker id) : Yields s (recoveryFailure cfg id reason pinObject) fun _ t => Grown cfg s t := by
  apply (triple_recoveryFailure cfg id reason pinObject s).post
  rintro _ t ⟨_, ht, rfl⟩
  have hne : ∀ x, Owned s.worker x → x ≠ id := fun x hx h => hid (h ▸ hx)
  refine ⟨congrArg _ ht.worker, fun x => ?_, fun x hx => ?_, fun x hx hp => ?_, fun x hx hp => ?_⟩
  · rw [ht.worker]
  · exact (ht.others x (hne x hx)).mpr
  · exact .inl ((ht.others x (hne x hx)).mp hp)
  · rw [ht.objects x (hne x hx)] at hp
    exact .inl hp

structure Recovered (cfg : RecoveryConfig) (id : ObjectID) (s : System) (recovered : Bool) (t : System) :
    Prop where
  grown : Grown cfg s t
  refused : recovered = false → ¬ Owned s.worker id
  started : Recoverable cfg s.worker id → s.manager.objects.lookup id = none →
    id ∈ t.manager.objectsPendingRecovery

variable {recover : ObjectID → RecoverM Bool}

section

variable (hrec : ∀ id s, Yields s (recover id)
      (fun recovered t => Recovered cfg id s recovered t))
include hrec

lemma grown_recoverDependency (id : ObjectID) :
    Steps (Grown cfg) (fun _ => True) (recoverDependency cfg recover id) := by
  refine fun s => .bind (hrec id s) fun recovered => .onlyIf (fun hrefused t ht => ?_) fun _ _ ht => ht.grown
  have hid : ¬ Owned t.worker id := by
    rintro ⟨f, hf, ho⟩
    exact ht.refused hrefused ⟨f, (congrFun ht.grown.facts id).symm.trans hf, ho⟩
  exact (grown_recoveryFailure _ _ t hid).post (fun _ u hu => trans_of (Grown cfg) ht.grown hu) t rfl

lemma grown_reconstructObject (s : System) (hrecon : isObjectReconstructable cfg s.worker id = true)
    (hknown : (s.worker.lineage.submissibleTasks.lookup id.taskId).isSome = true) :
    Yields s (reconstructObject cfg recover id) fun _ t => Grown cfg s t := by
  refine .seen ?_
  rw [if_pos hrecon]
  refine .bind (Q := fun known t => known = true ∧ Grown cfg s t) (.within ?_) fun known => ?_
  · rintro s rfl
    apply (triple_resubmitTask cfg.worker id.taskId s.worker).post
    rintro known w ⟨hf, hl, rfl⟩
    refine ⟨hknown, hf, fun x => ?_, fun _ _ h => h, fun _ _ => .inl, fun _ _ => .inl⟩
    rw [hl, isSome_resubmitted]
  · refine .ite (fun _ => ?_) fun hk => fun t ht => absurd ht.1 hk
    have hloop := (composes_steps (ε := Check) (Grown cfg) fun _ => True).forM
      (grown_recoverDependency hrec) (resubmittedDeps s.worker.lineage id.taskId)
    exact hloop.triple fun t _ v ht htv => trans_of (Grown cfg) ht.2 htv

end

lemma failed_reconstructObject (s : System) (hid : ¬ (isObjectReconstructable cfg s.worker id = true ∧
      (s.worker.lineage.submissibleTasks.lookup id.taskId).isSome = true)) :
    Yields s (reconstructObject cfg recover id) fun _ t => ∃ u : System,
      Stored id u t ∧ facts u.worker = facts s.worker ∧
      u.worker.lineage = s.worker.lineage ∧ u.manager.objects = s.manager.objects ∧
      u.manager.objectsPendingRecovery = s.manager.objectsPendingRecovery ∧
      u.manager.asyncGetRequests = s.manager.asyncGetRequests := by
  refine .seen ?_
  refine .ite (fun hrecon => ?_) fun _ => ?_
  · refine .bind (Q := fun known t => known = false ∧ facts t.worker = facts s.worker ∧
      t.worker.lineage = s.worker.lineage ∧ t.manager = s.manager) (.within ?_) fun known => ?_
    · rintro s rfl
      apply (triple_resubmitTask cfg.worker id.taskId s.worker).post
      rintro known w ⟨hf, hl, rfl⟩
      have hnone : s.worker.lineage.submissibleTasks.lookup id.taskId = none :=
        Option.not_isSome_iff_eq_none.mp fun hk => hid ⟨hrecon, hk⟩
      refine ⟨by rw [hnone]; rfl, hf, hl.trans ?_, rfl⟩
      rw [resubmitted, hnone]
    · refine .ite (fun hk => fun t ht => ?_) fun _ => fun t ht => ?_
      · rw [ht.1] at hk
        cases hk
      · refine (triple_recoveryFailure cfg id _ _ t).post ?_ t rfl
        rintro _ v ⟨_, hv, rfl⟩
        have hm : t.manager = s.manager := ht.2.2.2
        exact ⟨_, hv, ht.2.1, ht.2.2.1, by rw [← hm], by rw [← hm], by rw [← hm]⟩
  · apply (triple_recoveryFailure cfg id _ _ s).post
    rintro _ v ⟨_, hv, rfl⟩
    exact ⟨_, hv, rfl, rfl, rfl, rfl, rfl⟩

/-- The recovery has been entered; a value in the store ends it at once. -/
structure Begun (id : ObjectID) (s t : System) : Prop where
  worker : t.worker = s.worker
  objects : t.manager.objects = s.manager.objects
  others : ∀ x, x ≠ id → (x ∈ t.manager.objectsPendingRecovery ↔ x ∈ s.manager.objectsPendingRecovery)
  waiting : s.manager.objects.lookup id = none →
    id ∈ t.manager.objectsPendingRecovery ∧ id ∈ t.manager.asyncGetRequests
  ended : s.manager.objects.lookup id ≠ none → id ∉ t.manager.objectsPendingRecovery

lemma begun_getAsync (s : System) : Partly (fun t => t = { s with manager := { s.manager with
        objectsPendingRecovery := id :: s.manager.objectsPendingRecovery } })
      (getAsync id) fun _ t => Begun id s t := by
  refine .read fun u hu => ?_
  subst hu
  cases hid : s.manager.objects.lookup id with
  | some =>
    apply (triple_recoveryComplete id _).post
    rintro _ _ rfl
    refine ⟨rfl, rfl, fun x hx => ?_, fun h => ?_, fun _ => ?_⟩
    · simp [System.without, hx]
    · rw [hid] at h
      cases h
    · simp [System.without]
  | none =>
    apply triple_modifyManager
    rintro _ rfl
    refine ⟨rfl, rfl, fun x hx => ?_, fun _ => ⟨mem_cons_self, ?_⟩, fun h => absurd hid h⟩
    · simp [hx]
    · exact mem_append_right _ (mem_singleton.mpr rfl)

lemma Begun.grown (h : Begun id s t) (hid : Recoverable cfg s.worker id)
    (hnot : id ∉ s.manager.objectsPendingRecovery) : Grown cfg s t := by
  refine ⟨congrArg _ h.worker, fun x => by rw [h.worker], fun x _ hx => ?_, fun x _ hx => ?_, fun x _ hx => ?_⟩
  · exact (h.others x fun hxid => hnot (hxid ▸ hx)).mpr hx
  · by_cases hxid : x = id
    · exact .inr (hxid ▸ hid)
    · exact .inl ((h.others x hxid).mp hx)
  · exact .inl (h.objects ▸ hx)

lemma recovered_lookup (hrec : ∀ id s, Yields s (recover id) (fun recovered t => Recovered cfg id s recovered t))
    (hid : ∃ f, facts s.worker id = some f ∧ f.ownedByUs = true ∧ f.pinnedOrSpilled = false)
    (hnot : id ∉ s.manager.objectsPendingRecovery) :
    Partly (Begun id s) (do
        pinOrReconstructObject cfg recover id (liveLocations cfg (← get).worker id))
      fun _ t => Recovered cfg id s true t := by
  refine .read fun u hu => ?_
  have hgoal : ∀ t, Grown cfg s t → (Recoverable cfg s.worker id → s.manager.objects.lookup id = none →
      id ∈ t.manager.objectsPendingRecovery) → Recovered cfg id s true t :=
    fun t h h' => ⟨h, fun hf => Bool.noConfusion hf, h'⟩
  unfold pinOrReconstructObject
  rw [hu.worker]
  cases hloc : (liveLocations cfg s.worker id).getLast? with
  | some =>
    have hr : Recoverable cfg s.worker id := by
      refine ⟨hid, fun hn => ?_⟩
      rw [hn.1] at hloc
      cases hloc
    apply triple_modifyManager
    rintro _ rfl
    have hg := hu.grown hr hnot
    refine hgoal _ { hg with } fun _ hstore => ?_
    exact (hu.waiting hstore).1
  | none =>
    have hloc : liveLocations cfg s.worker id = [] := getLast?_eq_none_iff.mp hloc
    by_cases hagain : isObjectReconstructable cfg u.worker id = true ∧
        (u.worker.lineage.submissibleTasks.lookup id.taskId).isSome = true
    · have hr : Recoverable cfg s.worker id := ⟨hid, fun hn => hn.2 (hu.worker ▸ hagain)⟩
      refine (grown_reconstructObject hrec u hagain.1 hagain.2).post fun _ t ht => ?_
      refine hgoal t (trans_of (Grown cfg) (hu.grown hr hnot) ht) fun _ hstore => ?_
      obtain ⟨f, hf, ho, -⟩ := hid
      exact ht.pending id ⟨f, hu.worker ▸ hf, ho⟩ (hu.waiting hstore).1
    · have hn : Unrecoverable cfg s.worker id := ⟨hloc, hu.worker ▸ hagain⟩
      apply (failed_reconstructObject u hagain).post
      rintro _ t ⟨v, hv, hfacts, hlineage, hobjects, hpending, hgets⟩
      have hgone : id ∉ t.manager.objectsPendingRecovery := by
        intro hmem
        obtain ⟨hmem, hwhy⟩ := hv.pending.mp hmem
        rw [hpending] at hmem
        rw [hobjects, hgets, hu.objects] at hwhy
        by_cases hstore : s.manager.objects.lookup id = none
        · exact hwhy.elim (fun h => h hstore) fun h => h (hu.waiting hstore).2
        · exact hu.ended hstore hmem
      have hothers : ∀ x, x ≠ id → (x ∈ t.manager.objectsPendingRecovery ↔ x ∈ s.manager.objectsPendingRecovery) := by
        intro x hx
        rw [hv.others x hx, hpending, hu.others x hx]
      refine hgoal t ⟨?_, fun x => ?_, fun x _ hx => ?_, fun x _ hx => ?_, fun x _ hx => ?_⟩ fun hr => absurd hn hr.2
      · rw [hv.worker, hfacts, hu.worker]
      · rw [hv.worker, hlineage, hu.worker]
      · exact (hothers x fun hxid => hnot (hxid ▸ hx)).mpr hx
      · exact .inl ((hothers x fun hxid => hgone (hxid ▸ hx)).mp hx)
      · by_cases hxid : x = id
        · exact .inr (hxid ▸ hn)
        · rw [hv.objects x hxid, hobjects, hu.objects] at hx
          exact .inl hx

lemma recovered_recoverObject {objectLookup : ObjectID → RecoverM Unit}
    (hlookup : ∀ id s, (∃ f, facts s.worker id = some f ∧ f.ownedByUs = true ∧ f.pinnedOrSpilled = false) →
      id ∉ s.manager.objectsPendingRecovery → Partly (Begun id s) (objectLookup id)
        (fun _ t => Recovered cfg id s true t)) (id : ObjectID) (s : System) :
    Yields s (recoverObject objectLookup id) fun recovered t => Recovered cfg id s recovered t := by
  refine .seen ?_
  cases hid : s.worker.refs.lookup id with
  | none =>
    have hno : facts s.worker id = none := by rw [facts, hid]; rfl
    refine .done ?_
    refine ⟨refl_of (Grown cfg) _, fun _ howned => ?_, fun hr => ?_⟩
    · obtain ⟨f, hf, -⟩ := howned
      rw [hno] at hf
      cases hf
    · obtain ⟨⟨f, hf, -⟩, -⟩ := hr
      rw [hno] at hf
      cases hf
  | some ref =>
    have hf : facts s.worker id = some (factsOf ref) := facts_of_lookup hid
    refine .ite (fun howned => ?_) fun howned => .done ?_
    · refine .read fun v hv => ?_
      subst hv
      refine .bind (.onlyIf (fun hc => ?_) fun hc => ?_) fun _ => .skip
      · refine .bind (triple_modifyManager ?_) fun _ =>
            .seq (begun_getAsync v) (hlookup id v ⟨_, hf, howned, hc.1⟩ (of_decide_eq_false hc.2))
        rintro _ rfl
        rfl
      · rintro v rfl
        refine ⟨refl_of (Grown cfg) _, fun h => Bool.noConfusion h, fun hr _ => ?_⟩
        obtain ⟨⟨f, hf', -, hlost⟩, -⟩ := hr
        cases hf.symm.trans hf'
        exact by_contra fun hp => hc ⟨hlost, decide_eq_false hp⟩
    · refine ⟨refl_of (Grown cfg) _, fun _ h => ?_, fun hr => ?_⟩
      · obtain ⟨f, hf', ho⟩ := h
        cases hf.symm.trans hf'
        exact howned ho
      · obtain ⟨⟨f, hf', ho, -⟩, -⟩ := hr
        cases hf.symm.trans hf'
        exact absurd ho howned

lemma recovered_recoverNow (depth : Nat) : ∀ id s, Yields s (recoverNow cfg depth id)
    fun recovered t => Recovered cfg id s recovered t := by
  induction depth with
  | zero => exact recovered_recoverObject fun _ _ _ _ => .throw fun _ _ => trivial
  | succ depth ih => exact recovered_recoverObject fun _ _ => recovered_lookup ih

lemma grown_recoverAll (depth : Nat) (lost : List ObjectID) (s : System)
    (hstore : ∀ x ∈ lost, Recoverable cfg s.worker x → s.manager.objects.lookup x = none) :
    Yields s (lost.forM fun id => do
        let _ ← recoverNow cfg depth id
        pure ())
      fun _ t => Grown cfg s t ∧ ∀ x ∈ lost, Recoverable cfg s.worker x → x ∈ t.manager.objectsPendingRecovery := by
  induction lost generalizing s with
  | nil =>
    exact .done ⟨refl_of (Grown cfg) s, nofun⟩
  | cons id lost ih =>
    refine .bind (Q := fun _ t => ∃ recovered, Recovered cfg id s recovered t)
      (.bind (recovered_recoverNow depth id s) fun recovered => .pure fun _ ht => ⟨recovered, ht⟩) ?_
    rintro _ u ⟨recovered, hu⟩
    have hsame : ∀ x, Recoverable cfg u.worker x ↔ Recoverable cfg s.worker x :=
      fun x => Recoverable.congr hu.grown.facts hu.grown.known
    have hstill : ∀ x ∈ lost, Recoverable cfg u.worker x → u.manager.objects.lookup x = none := by
      intro x hx hr
      have hr := (hsame x).mp hr
      by_contra hne
      rcases hu.grown.objects x hr.owned hne with hne | hn
      · exact hne (hstore x (mem_cons_of_mem _ hx) hr)
      · exact hr.2 hn
    refine (ih u hstill).post (fun _ t ht => ⟨trans_of (Grown cfg) hu.grown ht.1, fun x hx hr => ?_⟩) u rfl
    rcases mem_cons.mp hx with rfl | hx
    · have hbegun := hu.started hr (hstore x mem_cons_self hr)
      exact ht.1.pending x ((hsame x).mpr hr).owned hbegun
    · exact ht.2 x hx ((hsame x).mpr hr)

end

def PrimaryAt (pinning : Bool) (nodeId : NodeID) (s : System) (id : ObjectID) (ref : Reference) : Prop :=
  s.worker.refs.lookup id = some ref ∧ ref.ownedByUs = true ∧ ref.outOfScope pinning = false ∧
    ref.pinnedAtRayletId = some nodeId

def Kept (nodeId : NodeID) (t : System) (id : ObjectID) : Prop :=
  id ∈ t.manager.objectsPendingRecovery ∨ ∃ ref, t.worker.refs.lookup id = some ref ∧
    ref.spilled = true ∧ ref.spilledNodeId ≠ nodeId

lemma lookup_deleteObjects (ids : List ObjectID) (t : AList fun _ : ObjectID => StoredObject)
    (x : ObjectID) : (ids.foldl (fun t id => t.erase id) t).lookup x =
      if x ∈ ids then none else t.lookup x := by
  induction ids generalizing t with
  | nil => rfl
  | cons id ids ih =>
    rw [foldl_cons, ih, Table.lookup_erase]
    by_cases hx : x = id
    · simp [hx]
    · simp [hx]

lemma triple_onNodeRemoved (cfg : RecoveryConfig) (nodeId : NodeID) (s : System) :
    Yields s (onNodeRemoved cfg nodeId) fun _ t => ∃ u : Worker,
      (∀ x, u.refs.lookup x = (s.worker.refs.lookup x).map (resetAt nodeId)) ∧
      u.lineage = s.worker.lineage ∧ facts t.worker = facts u ∧
      ∀ x, (s.worker.refs.lookup x).any (atNode nodeId) = true → Owned u x → (x ∈ t.manager.objectsPendingRecovery ↔
          x ∈ s.manager.objectsPendingRecovery ∨ Recoverable cfg u x) := by
  refine .bind (Q := fun lost t => t.manager = s.manager ∧
    ResetUpTo nodeId s.worker s.worker.refs.keys lost t.worker) (.within ?_) fun lost => ?_
  · rintro _ rfl
    exact (triple_resetObjectsOnRemovedNode nodeId _).post fun _ _ ht => ⟨rfl, ht⟩
  refine .bind (triple_modifyManager (Q := fun _ t =>
    (t.manager.objectsPendingRecovery = s.manager.objectsPendingRecovery ∧
      ∀ x ∈ lost, t.manager.objects.lookup x = none) ∧
    ResetUpTo nodeId s.worker s.worker.refs.keys lost t.worker) fun t ht => ⟨⟨?_, fun x hx => ?_⟩, ht.2⟩)
    fun _ u hu => ?_
  · show t.manager.objectsPendingRecovery = _
    rw [ht.1]
  · exact (lookup_deleteObjects lost _ x).trans (if_pos hx)
  · obtain ⟨⟨hp, hstore⟩, hreset⟩ := hu
    refine (grown_recoverAll _ lost u fun x hx _ => hstore x hx).post
      (fun _ t ht => ⟨u.worker, fun x => ?_, hreset.lineage, ht.1.facts, fun x hx howned => ?_⟩) u rfl
    · rw [hreset.refs]
      split
      · rfl
      case isFalse hx =>
        rw [AList.lookup_eq_none.mpr hx]
        rfl
    · have hlost : x ∈ lost := by
        obtain ⟨ref, href, -⟩ := (Option.any_eq_true _ _).mp hx
        exact (hreset.lost x).mpr ⟨Table.mem_of_lookup href, hx⟩
      rw [← hp]
      exact ⟨ht.1.fresh x howned, fun h => h.elim (ht.1.pending x howned) (ht.2 x hlost)⟩

/-- Every object whose primary copy was on the node is kept, exactly if each of them is
being recovered already, has its spilled copy elsewhere, or can be recovered and has none. -/
theorem onNodeRemoved_keeps_iff {cfg : RecoveryConfig} {nodeId : NodeID} {s t : System}
    (hrun : onNodeRemoved cfg nodeId s = .ok () t) :
    (∀ id ref, PrimaryAt cfg.worker.counter.lineagePinningEnabled nodeId s id ref → Kept nodeId t id) ↔
      ∀ id ref, PrimaryAt cfg.worker.counter.lineagePinningEnabled nodeId s id ref →
        id ∈ s.manager.objectsPendingRecovery ∨ (ref.spilled = true ∧ ref.spilledNodeId ≠ nodeId) ∨
          (ref.spilled = false ∧ ¬ Unrecoverable cfg s.worker id) := by
  obtain ⟨u, hrefs, hlineage, hfacts, hpending⟩ := (triple_onNodeRemoved cfg nodeId s).returned rfl hrun
  refine forall_congr' fun id => forall_congr' fun ref => imp_congr_right fun hprimary => ?_
  obtain ⟨hid, howned, -, hpinned⟩ := hprimary
  have hat : atNode nodeId ref = true := decide_eq_true (by rw [hpinned, Option.getD_some])
  have hreset : u.refs.lookup id = some ref.unpinned := by
    rw [hrefs, hid, Option.map_some, resetAt, if_pos hat]
  have hu := facts_of_lookup hreset
  -- without its pin the object has the same other copies and the same creating task
  have hun : Unrecoverable cfg u id ↔ Unrecoverable cfg s.worker id := by
    rw [Unrecoverable, Unrecoverable, liveLocations, liveLocations, isObjectReconstructable,
      isObjectReconstructable, hreset, hid, hlineage]
    rfl
  have hrecoverable : Recoverable cfg u id ↔ ref.spilled = false ∧ ¬ Unrecoverable cfg s.worker id := by
    rw [Recoverable, hun, hu]
    simp [factsOf, Reference.unpinned, howned, isPinnedOrSpilled]
  have hrecovered := hpending id (by rw [hid, Option.any_some, hat]) ⟨_, hu, howned⟩
  obtain ⟨r, hr, hrf⟩ := Option.map_eq_some_iff.mp ((congrFun hfacts id).trans hu)
  have hspilled : r.spilled = ref.spilled := congrArg Facts.spilled hrf
  have hnode : r.spilledNodeId = ref.spilledNodeId := congrArg Facts.spilledNodeId hrf
  have helsewhere : (∃ r, t.worker.refs.lookup id = some r ∧ r.spilled = true ∧ r.spilledNodeId ≠ nodeId) ↔
      ref.spilled = true ∧ ref.spilledNodeId ≠ nodeId := by
    simp [hr, hspilled, hnode]
  rw [Kept, hrecovered, helsewhere, hrecoverable, or_assoc]
  exact or_congr_right or_comm

def spilledInPlace : List Op :=
  [.addOwnedObject ⟨0, 1⟩ [] ⟨0, 0⟩ 8 true (some 1), .addLocalReference ⟨0, 1⟩,
    .handleObjectSpilled ⟨0, 1⟩ "file" 1 8 false]

/-- When the node is removed, the object is neither recovered nor kept elsewhere. -/
theorem spilledInPlace_given_up :
    ∃ s t id ref, Reaches (fun op : Op => op.run exampleRecovery.worker.counter) (fun _ _ => True)
      { lineage := {} } s.worker ∧ onNodeRemoved exampleRecovery 1 s = .ok () t ∧
      PrimaryAt exampleRecovery.worker.counter.lineagePinningEnabled 1 s id ref ∧ ¬ Kept 1 t id := by
  have hrun : (runAll (fun op : Op => op.run exampleRecovery.worker.counter) (fun _ _ => True) spilledInPlace
      ({ lineage := {} } : Worker)).map (fun w => ((w.refs.lookup ⟨0, 1⟩).map fun ref =>
          (ref.ownedByUs, ref.outOfScope true, ref.pinnedAtRayletId),
        (outcome (onNodeRemoved exampleRecovery 1) { worker := w, manager := {} }).map fun t =>
          (t.manager.objectsPendingRecovery, (t.worker.refs.lookup ⟨0, 1⟩).map Reference.spilledNodeId))) =
      some (some (true, false, some 1), some ([], some 1)) := by decide +kernel
  obtain ⟨w, hw, hv⟩ := exists_reaches hrun
  simp only [Prod.mk.injEq] at hv
  obtain ⟨ref, href, hfields⟩ := Option.map_eq_some_iff.mp hv.1
  obtain ⟨⟨⟩, t, ht, hafter⟩ := exists_outcome hv.2
  simp only [Prod.mk.injEq] at hfields hafter
  obtain ⟨howned, hscope, hpinned⟩ := hfields
  refine ⟨_, t, ⟨0, 1⟩, ref, hw, ht, ⟨href, howned, hscope, hpinned⟩, ?_⟩
  rintro (hrecovered | ⟨r, hr, -, hne⟩)
  · rw [hafter.1] at hrecovered
    cases hrecovered
  · rw [hr] at hafter
    exact hne (Option.some.inj hafter.2)

def copiedElsewhere : List Op :=
  [.addOwnedObject ⟨0, 1⟩ [] ⟨0, 0⟩ 8 true (some 1), .addLocalReference ⟨0, 1⟩,
    .addObjectLocation ⟨0, 1⟩ 2]

theorem copiedElsewhere_kept :
    ∃ s t, onNodeRemoved exampleRecovery 1 s = .ok () t ∧ (∃ id ref,
      PrimaryAt exampleRecovery.worker.counter.lineagePinningEnabled 1 s id ref) ∧
      ∀ id ref, PrimaryAt exampleRecovery.worker.counter.lineagePinningEnabled 1 s id ref →
        Kept 1 t id := by
  have hrun : (runAll (fun op : Op => op.run exampleRecovery.worker.counter) (fun _ _ => True) copiedElsewhere
      ({ lineage := {} } : Worker)).map (fun w => ((w.refs.lookup ⟨0, 1⟩).map fun ref =>
          (ref.ownedByUs && !ref.outOfScope true && !ref.spilled, ref.pinnedAtRayletId),
        decide (w.refs.keys = [⟨0, 1⟩] ∧ liveLocations exampleRecovery w ⟨0, 1⟩ = [2]),
        (outcome (onNodeRemoved exampleRecovery 1) { worker := w, manager := {} }).map fun t =>
          t.manager.objectsPendingRecovery)) =
      some (some (true, some 1), true, some [⟨0, 1⟩]) := by decide +kernel
  obtain ⟨w, -, hv⟩ := exists_reaches hrun
  simp only [Prod.mk.injEq] at hv
  obtain ⟨hv, hplaces, hafter⟩ := hv
  obtain ⟨hkeys, hlocations⟩ := of_decide_eq_true hplaces
  obtain ⟨ref, href, hfields⟩ := Option.map_eq_some_iff.mp hv
  obtain ⟨⟨⟩, t, ht, -⟩ := exists_outcome hafter
  simp only [Prod.mk.injEq, Bool.and_eq_true, Bool.not_eq_true'] at hfields
  obtain ⟨⟨⟨howned, hscope⟩, hspilled⟩, hpinned⟩ := hfields
  refine ⟨_, t, ht, ⟨⟨0, 1⟩, ref, href, howned, hscope, hpinned⟩, (onNodeRemoved_keeps_iff ht).mpr ?_⟩
  rintro id r ⟨hid, -⟩
  have hmem : id ∈ w.refs.keys := Table.mem_of_lookup hid
  rw [hkeys, mem_singleton] at hmem
  subst hmem
  cases href.symm.trans hid
  refine .inr (.inr ⟨hspilled, fun hn => ?_⟩)
  cases hlocations.symm.trans hn.1

end AmazonRay.Recovery
