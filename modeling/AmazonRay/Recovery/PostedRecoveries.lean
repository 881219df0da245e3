import AmazonRay.Recovery.Facts

/-! The recoveries that a reply posts when its node has died, and when their check passes. -/
namespace AmazonRay.Recovery
open Program ReferenceCounter TaskManager

def postedId : Output → Option ObjectID
  | .reconstructObject id => some id
  | _ => none

def posted (w : Worker) : List ObjectID := w.lineage.outputs.filterMap postedId

def plasmaReturns (objects : List ReturnObject) : List ObjectID :=
  (objects.filter ReturnObject.inPlasma).map ReturnObject.objectId

section

variable {cfg : WorkerConfig} {ids : List ObjectID}

lemma stable_outputs (ids : List ObjectID) : Stable fun t => t.outputs.filterMap postedId = ids := by
  intro o t h
  have hframe : (t.removeLineageReference o).2.2.outputs = t.outputs := by
    unfold Tasks.removeLineageReference
    split
    · rfl
    · dsimp only
      split <;> rfl
  rw [hframe, h]

lemma posted_call {α : Type} {x : WorkerM α} {F : ReferenceCounter.Check → Prop}
    (h : Steps (LineageStep cfg.counter) F x) :
    Partly (fun w => posted w = ids) x fun _ w => posted w = ids :=
  triple_lineageStep (stable_outputs ids) h

lemma posted_output (o : Output) :
    Partly (fun w => posted w = ids) (output o) fun _ w => posted w = ids ++ (postedId o).toList := by
  refine triple_modifyTasks ?_
  rintro w rfl
  unfold posted
  cases ho : postedId o with
  | none => simp [ho]
  | some id => simp [ho]

lemma posted_handleReturnObject (workerAddr : WorkerAddress) (storeInPlasmaIds direct : List ObjectID)
    (object : ReturnObject) :
    Partly (fun w => posted w = ids) (handleReturnObject cfg workerAddr false storeInPlasmaIds direct object)
      fun _ w => posted w = ids ++ plasmaReturns [object] := by
  have hc := callLogic_lineage cfg.counter
  refine .seq (posted_call (hc.updateObjectSize _ _)) ?_
  refine .bind (Q := fun _ w => posted w = ids ++ plasmaReturns [object]) (.ite (fun hp => ?_) fun hp => ?_) fun _ => ?_
  · refine (posted_output (.reconstructObject object.objectId)).post fun _ w hw => ?_
    rw [hw]
    simp [plasmaReturns, hp, postedId]
  · refine (posted_output _).post fun _ w hw => ?_
    rw [hw]
    split <;> simp [plasmaReturns, hp, postedId]
  · refine .bind (posted_call (hc.bind hc.find fun o => ?_)) fun owner => ?_
    · cases o <;> exact hc.pure _
    refine .bind (.onlyIf (fun _ => ?_) fun _ _ hw => hw) fun _ => .skip
    exact posted_call (hc.forM (hc.addNestedObjectIdsInternal _ _) _)

lemma posted_completePendingTask (id : TaskID) (reply : PushTaskReply) (workerAddr : WorkerAddress) :
    Partly (fun w => posted w = ids) (completePendingTask cfg id reply workerAddr false)
      fun _ w => posted w = ids ++ plasmaReturns reply.returnObjects := by
  have hc := callLogic_lineage cfg.counter
  refine .bind (triple_findTask (fun _ _ hw _ => hw) fun _ _ _ => trivial) fun entry => ?_
  refine .bind (Q := fun _ w => posted w = ids ++ plasmaReturns reply.returnObjects) ?_ fun direct => ?_
  · refine (Triple.foldlM_done (I := fun done _ w => posted w = ids ++ plasmaReturns done)
      (fun direct done object _ _ => ?_) []).pre fun w hw => hw.trans (List.append_nil ids).symm
    refine (posted_handleReturnObject workerAddr _ direct object).post fun _ w hw => ?_
    rw [hw]
    simp [plasmaReturns]
  · refine .bind (triple_findTask (fun _ _ hw _ => hw) fun _ _ _ => trivial) fun entry => ?_
    refine .bind (triple_modifyTasks fun w hw => ?_) fun _ => .bind (triple_getTasks (Q := fun _ w =>
        posted w = ids ++ plasmaReturns reply.returnObjects) fun _ hw => hw) fun t => ?_
    · rw [← hw]
      unfold posted Tasks.finish
      split <;> rfl
    refine .seq (posted_call ((taskCallLogic_lineage _).updateFinishedTaskReferences _ _ _ _))
      (.seq (.onlyIf (Q := fun _ w =>
        posted w = ids ++ plasmaReturns reply.returnObjects) (fun _ => ?_) fun _ _ hw => hw) ?_)
    · exact .bind (posted_call (hc.evictLineage _)) fun _ => .pure fun _ hw => hw
    · refine triple_modifyTasks fun w hw => ?_
      rw [← hw]
      split <;> rfl

end

section

variable {cfg : RecoveryConfig} (id : ObjectID)

/-- The check on the result of `RecoverObject` is not inside of it. -/
abbrev Unchecked {α : Type} (x : RecoverM α) : Prop :=
  Triple (fun _ => True) x (fun _ _ => True) fun e _ => e ≠ .recoverObject

lemma composes_unchecked : Composes fun α (x : RecoverM α) => Unchecked x := composes_triple _ _

lemma unchecked_modifyManager (f : Manager → Manager) : Unchecked (modifyManager f) :=
  triple_modifyManager fun _ _ => trivial

lemma unchecked_get : Unchecked (get : RecoverM System) := .get fun _ _ => trivial

lemma unchecked_recoveryComplete : Unchecked (recoveryComplete id) :=
  composes_unchecked.bind unchecked_get fun _ => composes_unchecked.bind
    (.check (fun _ _ _ => trivial) fun _ _ _ => Check.noConfusion) fun _ => unchecked_modifyManager _

lemma unchecked_getAsync : Unchecked (getAsync id) := by
  refine composes_unchecked.bind unchecked_get fun s => ?_
  cases s.manager.objects.lookup id with
  | some o => exact unchecked_recoveryComplete id
  | none => exact unchecked_modifyManager _

lemma unchecked_recoveryFailure (reason : ErrorType) (pinObject : Bool) :
    Unchecked (recoveryFailure cfg id reason pinObject) := by
  have h := composes_unchecked
  refine h.seq (unchecked_modifyManager _) (h.bind unchecked_get fun s => ?_)
  cases s.manager.objects.lookup id with
  | some o => exact h.pure ()
  | none =>
    exact h.seq (unchecked_modifyManager _) (h.forM unchecked_recoveryComplete _)

lemma unchecked_pinOrReconstructObject {recover : ObjectID → RecoverM Bool}
    (hrec : ∀ id, Unchecked (recover id)) (id : ObjectID) (locations : List NodeID) :
    Unchecked (pinOrReconstructObject cfg recover id locations) := by
  have h := composes_unchecked
  unfold pinOrReconstructObject
  cases locations.getLast? with
  | some nodeId => exact unchecked_modifyManager _
  | none =>
    refine h.bind unchecked_get fun s => h.ite (fun _ => h.bind ?_ fun known => ?_) fun _ =>
      unchecked_recoveryFailure id _ _
    · exact .within fun _ _ => .anyhow (fun _ _ => trivial) fun _ _ => Check.noConfusion
    · refine h.ite (fun _ => h.forM (fun x => ?_) _) fun _ => unchecked_recoveryFailure id _ _
      exact h.bind (hrec x) fun _ => h.onlyIf fun _ => unchecked_recoveryFailure x _ _

lemma unchecked_recoverObject {objectLookup : ObjectID → RecoverM Unit}
    (hlookup : ∀ id, Unchecked (objectLookup id)) (id : ObjectID) :
    Unchecked (recoverObject objectLookup id) := by
  have h := composes_unchecked
  refine h.bind unchecked_get fun s => ?_
  cases s.worker.refs.lookup id with
  | none => exact h.pure false
  | some ref =>
    refine h.ite (fun _ => h.bind unchecked_get fun t => h.seq (h.onlyIf fun _ => ?_) (h.pure true))
      fun _ => h.pure false
    exact h.seq (unchecked_modifyManager _) (h.seq (unchecked_getAsync id) (hlookup id))

lemma unchecked_recoverNow (depth : Nat) : ∀ id, Unchecked (recoverNow cfg depth id) := by
  induction depth with
  | zero => exact unchecked_recoverObject fun _ => .throw fun _ _ => Check.noConfusion
  | succ depth ih =>
    exact unchecked_recoverObject fun id => composes_unchecked.bind unchecked_get fun _ =>
      unchecked_pinOrReconstructObject ih id _

lemma triple_recoverObject (objectLookup : ObjectID → RecoverM Unit) (id : ObjectID) (s : System) :
    Triple (· = s) (recoverObject objectLookup id)
      (fun recovered _ => recovered = true ↔ Owned s.worker id) fun _ _ => Owned s.worker id := by
  refine .seen ?_
  cases hid : s.worker.refs.lookup id with
  | none =>
    refine .pure fun _ _ => ⟨fun hf => Bool.noConfusion hf, ?_⟩
    rintro ⟨f, hf, -⟩
    rw [facts, hid] at hf
    cases hf
  | some ref =>
    have hf := facts_of_lookup hid
    refine .ite (fun howned => ?_) fun howned => .pure fun _ _ => ?_
    · have howned : Owned s.worker id := ⟨_, hf, howned⟩
      refine .bind (.get (Q := fun _ _ => True) fun _ _ => trivial) fun v => ?_
      refine .seq (.anyhow (fun _ _ => trivial) fun _ _ => howned) ?_
      exact .pure fun _ _ => ⟨fun _ => howned, fun _ => rfl⟩
    · refine ⟨fun hf => Bool.noConfusion hf, ?_⟩
      rintro ⟨f, hf', ho⟩
      cases hf.symm.trans hf'
      exact absurd ho howned

lemma postedRecovery_passes_iff (s : System) :
    stopped (postedRecovery cfg id) s ≠ some .recoverObject ↔ Owned s.worker id := by
  obtain ⟨objectLookup, hnow⟩ : ∃ objectLookup, recoverNow cfg cfg.worker.stackDepth = recoverObject objectLookup := by
    cases cfg.worker.stackDepth <;> exact ⟨_, rfl⟩
  have hresult : Triple (· = s) (recoverNow cfg cfg.worker.stackDepth id)
      (fun recovered _ => recovered = true ↔ Owned s.worker id) fun _ _ => Owned s.worker id := by
    rw [hnow]
    exact triple_recoverObject objectLookup id s
  constructor
  · intro hpass
    by_contra hno
    have hfail : Triple (· = s) (postedRecovery cfg id) (fun _ _ => False) fun e _ => e = .recoverObject := by
      refine .bind (hresult.weaken fun _ _ h => absurd h hno) fun recovered => ?_
      exact .check (fun hc _ hr => hno (hr.mp hc)) fun _ _ _ => rfl
    obtain ⟨_, _, hstop, rfl⟩ := hfail.stops rfl
    exact hpass hstop
  · intro howned hstop
    have hpass : Triple (fun t => True ∧ t = s) (postedRecovery cfg id) (fun _ _ => True)
        fun e _ => e ≠ .recoverObject := by
      refine .bind ((unchecked_recoverNow _ id).and hresult) fun recovered => ?_
      exact .check (fun _ _ _ => trivial) fun hc _ hr => absurd (hr.2.mpr howned) hc
    obtain ⟨_, hne⟩ := hpass.stopped ⟨trivial, rfl⟩ hstop
    exact hne rfl

end

/-- The reply of a task whose node has died posts a recovery for each object in plasma.
After any calls of the reference counter, the check of a recovery passes exactly if the
object is still in the table and owned. -/
theorem plasmaReturns_recovered_iff {cfg : RecoveryConfig} {s s₁ s₂ : Worker} {id : TaskID}
    {reply : PushTaskReply} {workerAddr : WorkerAddress}
    (hreply : completePendingTask cfg.worker id reply workerAddr false s = .ok () s₁)
    (hops : Reaches (fun op : Op => op.run cfg.worker.counter) (fun _ _ => True) s₁ s₂) :
    posted s₂ = posted s ++ plasmaReturns reply.returnObjects ∧
      ∀ manager, ∀ o ∈ plasmaReturns reply.returnObjects,
        (stopped (postedRecovery cfg o) { worker := s₂, manager } ≠ some .recoverObject ↔
          ∃ ref, s₂.refs.lookup o = some ref ∧ ref.ownedByUs = true) := by
  refine ⟨?_, fun manager o _ => (postedRecovery_passes_iff o _).trans owned_iff⟩
  have hposted := (posted_completePendingTask id reply workerAddr).returned rfl hreply
  refine Reaches.invariant (I := fun w => posted w = _) (E := fun _ _ => True) hposted
    (fun op w _ hw => ?_) hops
  exact (posted_call ((taskCallLogic_lineage cfg.worker.counter).run op)).pre fun _ h => h ▸ hw

def submittedTask : List WorkerOp :=
  [.addPendingTask ⟨0, 0⟩ { taskId := 1 } 1, .counter (.addLocalReference ⟨1, 1⟩),
    .submitTask 1 fun _ => false]

def plasmaReply : PushTaskReply := { returnObjects := [{ objectId := ⟨1, 1⟩, inPlasma := true }] }

/-- What is seen after the reply to the submitted task. -/
def afterReply {α : Type} (f : Worker → α) : Option (Option α) :=
  (runAll (WorkerOp.run exampleRecovery.worker) (fun op s => op.Enabled s.lineage ∧ True) submittedTask
    { lineage := {} }).map fun s =>
      (outcome (completePendingTask exampleRecovery.worker 1 plasmaReply ⟨1, 0⟩ false) s).map f

/-- The reference goes out of scope between the reply and the posted recovery. -/
theorem droppedReturn_fails_check :
    ∃ s s₁ s₂, Reachable exampleRecovery.worker (fun _ _ => True) s ∧
      completePendingTask exampleRecovery.worker 1 plasmaReply ⟨1, 0⟩ false s = .ok () s₁ ∧
      Reaches (fun op : Op => op.run exampleRecovery.worker.counter) (fun _ _ => True) s₁ s₂ ∧
      ⟨1, 1⟩ ∈ plasmaReturns plasmaReply.returnObjects ∧
      stopped (postedRecovery exampleRecovery ⟨1, 1⟩) { worker := s₂, manager := {} } =
        some .recoverObject := by
  have hrun : afterReply (fun s₁ => (runAll (fun op : Op => op.run exampleRecovery.worker.counter) (fun _ _ => True)
      [.removeLocalReference ⟨1, 1⟩] s₁).map fun s₂ =>
        stopped (postedRecovery exampleRecovery ⟨1, 1⟩) { worker := s₂, manager := {} }) =
      some (some (some (some .recoverObject))) := by decide +kernel
  obtain ⟨s, hs, hrun⟩ := exists_reaches hrun
  obtain ⟨⟨⟩, s₁, hreply, hrun⟩ := exists_outcome hrun
  obtain ⟨s₂, hops, hstop⟩ := exists_reaches hrun
  exact ⟨s, s₁, s₂, hs, hreply, hops, by decide, hstop⟩

theorem heldReturn_passes_check :
    ∃ s s₁, completePendingTask exampleRecovery.worker 1 plasmaReply ⟨1, 0⟩ false s = .ok () s₁ ∧
      posted s₁ = posted s ++ [⟨1, 1⟩] ∧
      stopped (postedRecovery exampleRecovery ⟨1, 1⟩) { worker := s₁, manager := {} } ≠
        some .recoverObject := by
  have hrun : afterReply (fun s₁ => (s₁.refs.lookup ⟨1, 1⟩).map Reference.ownedByUs) = some (some (some true)) := by
    decide +kernel
  obtain ⟨s, -, hrun⟩ := exists_reaches hrun
  obtain ⟨⟨⟩, s₁, hreply, hrun⟩ := exists_outcome hrun
  obtain ⟨hposted, hpass⟩ := plasmaReturns_recovered_iff hreply .start
  refine ⟨s, s₁, hreply, hposted, (hpass {} ⟨1, 1⟩ (by decide)).mpr ?_⟩
  exact Option.map_eq_some_iff.mp hrun

end AmazonRay.Recovery
