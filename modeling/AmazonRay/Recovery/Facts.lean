import AmazonRay.Recovery.Manager
import AmazonRay.TaskManager.Rules

/-! What a recovery reads of the reference table, and what executing a task again does
to it: nothing. -/
namespace AmazonRay.Recovery
open Program ReferenceCounter TaskManager

structure Facts where
  ownedByUs : Bool
  pinnedOrSpilled : Bool
  locations : List NodeID
  isReconstructable : Bool
  spilled : Bool
  spilledNodeId : NodeID

def factsOf (ref : Reference) : Facts where
  ownedByUs := ref.ownedByUs
  pinnedOrSpilled := isPinnedOrSpilled ref
  locations := ref.locations
  isReconstructable := ref.isReconstructable
  spilled := ref.spilled
  spilledNodeId := ref.spilledNodeId

def facts (w : Worker) (id : ObjectID) : Option Facts := (w.refs.lookup id).map factsOf

variable {id : ObjectID} {w : Worker} {ref : Reference} (cfg : RecoveryConfig)

lemma facts_of_lookup (h : w.refs.lookup id = some ref) : facts w id = some (factsOf ref) := by
  rw [facts, h, Option.map_some]

def Owned (w : Worker) (id : ObjectID) : Prop := ∃ f, facts w id = some f ∧ f.ownedByUs = true

lemma owned_iff : Owned w id ↔ ∃ ref, w.refs.lookup id = some ref ∧ ref.ownedByUs = true := by
  simp [Owned, facts, factsOf]

lemma liveLocations_eq (w : Worker) (id : ObjectID) :
    liveLocations cfg w id = ((facts w id).elim [] Facts.locations).filter cfg.nodeAlive := by
  rw [liveLocations, facts]
  cases w.refs.lookup id <;> rfl

lemma isObjectReconstructable_eq (w : Worker) (id : ObjectID) : isObjectReconstructable cfg w id =
      (cfg.worker.counter.lineagePinningEnabled && (facts w id).any Facts.isReconstructable) := by
  rw [isObjectReconstructable, facts]
  cases w.refs.lookup id <;> rfl

lemma facts_withEntry {ref' : Reference} (h : w.refs.lookup id = some ref) (hr : factsOf ref' = factsOf ref) :
    facts (w.withEntry id ref') = facts w := by
  funext x
  rw [facts, State.withEntry_lookup]
  split
  case isTrue hx => rw [hx, facts_of_lookup h, Option.map_some, hr]
  · rfl

structure Unmoved (w w' : Worker) : Prop where
  facts : facts w' = facts w
  lineage : w'.lineage = w.lineage

instance : IsPreorder Worker Unmoved where
  refl _ := ⟨rfl, rfl⟩
  trans _ _ _ h h' := ⟨h'.facts.trans h.facts, h'.lineage.trans h.lineage⟩

lemma unmoved_update (id : ObjectID) {f : Reference → Reference}
    (hf : ∀ r, factsOf (f r) = factsOf r) : Steps Unmoved (fun _ => True) (update (τ := Tasks) id f) := by
  refine fun w => triple_update ?_ fun _ _ _ => trivial
  rintro _ ref rfl href
  exact ⟨facts_withEntry href (hf ref), rfl⟩

lemma unmoved_setNestedRefInUseRecursive (depth : Nat) (id : ObjectID) :
    Steps Unmoved (fun _ => True) (setNestedRefInUseRecursive (τ := Tasks) depth id) := by
  have h := readLogic_steps (τ := Tasks) (R := Unmoved) fun _ _ => trivial
  exact h.setNestedRefInUse rfl rfl rfl (fun id => unmoved_update id fun _ => rfl) depth id

lemma unmoved_updateResubmittedTaskReferences (cfg : WorkerConfig) (ids : List ObjectID) :
    Steps Unmoved (fun _ => True) (updateResubmittedTaskReferences cfg.counter ids) := by
  have h := readLogic_steps (τ := Tasks) (R := Unmoved) fun _ _ => trivial
  refine h.forM (fun id => h.bind h.find fun _ => h.seq ?_ ?_) _
  · exact fun w => .check (fun _ _ ht => ht ▸ refl_of Unmoved w) fun _ _ _ => trivial
  · refine h.bind (h.deref rfl) fun _ => h.seq (unmoved_update id fun _ => rfl) ?_
    exact h.bind (h.deref rfl) fun _ => h.onlyIf fun _ => unmoved_setNestedRefInUseRecursive _ id

def resubmitted (t : Tasks) (id : TaskID) : Tasks :=
  match t.submissibleTasks.lookup id with
  | none => t
  | some entry => if entry.pending then t else (t.markResubmitted id entry).giveToRetry id false

lemma triple_resubmitTask (cfg : WorkerConfig) (id : TaskID) (w : Worker) :
    Yields w (resubmitTask cfg id) fun known u => facts u = facts w ∧ u.lineage = resubmitted w.lineage id ∧
      known = (w.lineage.submissibleTasks.lookup id).isSome := by
  refine .bind (triple_getTasks (Q := fun t u => u = w ∧ t = w.lineage) fun u hu => ⟨hu, hu ▸ rfl⟩)
    fun t => .given fun ht => ?_
  rw [ht, resubmitted]
  cases he : w.lineage.submissibleTasks.lookup id with
  | none =>
    exact .done ⟨rfl, rfl, rfl⟩
  | some entry =>
    refine .ite (fun hp => .done ⟨rfl, by simp [hp], rfl⟩) fun hp => ?_
    · let Marked : Worker → Prop := fun u => facts u = facts w ∧ u.lineage = w.lineage.markResubmitted id entry
      have hcall : ∀ (c : Prop) [Decidable c] ids, Partly Marked
          (onlyIf c (updateResubmittedTaskReferences cfg.counter ids)) fun _ => Marked := by
        intro c _ ids
        refine .onlyIf (fun _ => ?_) fun _ _ hu => hu
        exact (unmoved_updateResubmittedTaskReferences cfg ids).triple
          fun _ _ _ hs hst => ⟨hst.facts.trans hs.1, hst.lineage.trans hs.2⟩
      refine .seq (triple_modifyTasks (Q := fun _ => Marked) ?_) (.testing
          (.bind (triple_getTasks (Q := fun _ => Marked) fun _ hu => hu) fun t => ?_))
      · rintro _ rfl
        exact ⟨rfl, rfl⟩
      · refine .seq (hcall _ _) (.seq (hcall _ _) (.bind (triple_modifyTasks fun u hu => ?_) fun _ => .skip))
        refine ⟨hu.1, ?_, rfl⟩
        dsimp only
        rw [if_neg hp, hu.2]

lemma isSome_resubmitted (t : Tasks) (id x : TaskID) :
    ((resubmitted t id).submissibleTasks.lookup x).isSome = (t.submissibleTasks.lookup x).isSome := by
  unfold resubmitted
  cases he : t.submissibleTasks.lookup id with
  | none => rfl
  | some entry =>
    dsimp only
    split
    · rfl
    · show ((t.submissibleTasks.insert id _).lookup x).isSome = _
      rw [Table.lookup_insert]
      split
      case isTrue hx =>
        rw [hx, he]
        rfl
      · rfl

lemma triple_modifyManager {P : System → Prop} {Q : Unit → System → Prop} {f : Manager → Manager}
    {E : Check → System → Prop} (h : ∀ s, P s → Q () { s with manager := f s.manager }) :
    Triple P (modifyManager f) Q E := .update h

structure Stored (id : ObjectID) (s t : System) : Prop where
  worker : t.worker = s.worker
  objects : ∀ x, x ≠ id → t.manager.objects.lookup x = s.manager.objects.lookup x
  others : ∀ x, x ≠ id →
    (x ∈ t.manager.objectsPendingRecovery ↔ x ∈ s.manager.objectsPendingRecovery)
  pending : id ∈ t.manager.objectsPendingRecovery ↔ id ∈ s.manager.objectsPendingRecovery ∧
    (s.manager.objects.lookup id ≠ none ∨ id ∉ s.manager.asyncGetRequests)
  calls : t.manager.pinRequests = s.manager.pinRequests ∧ t.manager.failures = s.manager.failures

def System.without (s : System) (id : ObjectID) : System :=
  { s with manager := { s.manager with
      objectsPendingRecovery := s.manager.objectsPendingRecovery.filter (· ≠ id) } }

lemma triple_recoveryComplete (id : ObjectID) (s : System) :
    Yields s (recoveryComplete id) fun _ t => t = s.without id := by
  refine .read fun t ht => .testing (triple_modifyManager ?_)
  rintro _ rfl
  rw [← ht]
  rfl

lemma triple_recoveriesComplete (l : List ObjectID) (hl : ∀ x ∈ l, x = id) (s : System) :
    Yields s (l.forM recoveryComplete) fun _ t => t = if l = [] then s else s.without id := by
  induction l generalizing s with
  | nil => exact .pure fun _ ht => ht
  | cons x l ih =>
    have hx : x = id := hl x List.mem_cons_self
    subst hx
    refine .seq (triple_recoveryComplete x s) ?_
    refine (ih (fun y hy => hl y (List.mem_cons_of_mem _ hy)) (s.without x)).post fun _ t ht => ?_
    rw [ht, if_neg (List.cons_ne_nil _ _)]
    split
    · rfl
    · simp [System.without, List.filter_filter]

lemma triple_putObject (id : ObjectID) (object : StoredObject) (s : System) :
    Yields s (putObject id object) fun _ t => Stored id s t := by
  refine .seen ?_
  cases hid : s.manager.objects.lookup id with
  | some o =>
    refine .pure ?_
    rintro _ rfl
    refine ⟨rfl, fun _ _ => rfl, fun _ _ => Iff.rfl, ⟨fun h => ⟨h, .inl ?_⟩, fun h => h.1⟩, rfl, rfl⟩
    rw [hid]
    exact Option.some_ne_none _
  | none =>
    let placed : System := { s with manager := { s.manager with
      asyncGetRequests := s.manager.asyncGetRequests.filter (· ≠ id)
      objects := if (s.worker.refs.lookup id).isSome then s.manager.objects.insert id object
        else s.manager.objects } }
    have hobjects : ∀ x, x ≠ id → placed.manager.objects.lookup x = s.manager.objects.lookup x := by
      intro x hx
      show (if (s.worker.refs.lookup id).isSome then s.manager.objects.insert id object
        else s.manager.objects).lookup x = _
      split
      · rw [Table.lookup_insert, if_neg hx]
      · rfl
    have hcallbacks := triple_recoveriesComplete (s.manager.asyncGetRequests.filter (· = id))
      (fun x hx => of_decide_eq_true (List.mem_filter.mp hx).2) placed
    refine .seq (triple_modifyManager (Q := fun _ t => t = placed) ?_) (hcallbacks.post fun _ t ht => ?_)
    · rintro _ rfl
      rfl
    have hnil : s.manager.asyncGetRequests.filter (· = id) = [] ↔ id ∉ s.manager.asyncGetRequests := by
      rw [List.filter_eq_nil_iff]
      exact ⟨fun h hmem => h id hmem (decide_eq_true rfl), fun h x hx hxid => h (of_decide_eq_true hxid ▸ hx)⟩
    rw [ht]
    by_cases hget : id ∈ s.manager.asyncGetRequests
    · rw [if_neg fun h => hnil.mp h hget]
      refine ⟨rfl, hobjects, fun x hx => ?_, ?_, rfl, rfl⟩
      · simp [System.without, placed, hx]
      · simp [System.without, hget, hid]
    · rw [if_pos (hnil.mpr hget)]
      refine ⟨rfl, hobjects, fun _ _ => Iff.rfl, ?_, rfl, rfl⟩
      simp [placed, hget]

lemma triple_recoveryFailure (id : ObjectID) (reason : ErrorType) (pinObject : Bool) (s : System) :
    Yields s (recoveryFailure cfg id reason pinObject)
      fun _ t => ∃ u : System, Stored id u t ∧ u = { s with manager := { s.manager with
        failures := s.manager.failures ++ [{ objectId := id, reason, pinObject }] } } := by
  refine .seq (triple_modifyManager (Q := fun _ t => t = { s with manager := { s.manager with
    failures := s.manager.failures ++ [{ objectId := id, reason, pinObject }] } }) ?_) ?_
  · rintro _ rfl
    rfl
  · exact (triple_putObject id _ _).post fun _ t ht => ⟨_, ht, rfl⟩

def exampleRecovery : RecoveryConfig where
  worker := exampleWorker
  nodeAlive nodeId := nodeId ≠ 1
  putSmallObjectInMemoryStore := true

end AmazonRay.Recovery
