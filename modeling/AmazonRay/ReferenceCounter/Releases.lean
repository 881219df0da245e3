import AmazonRay.ReferenceCounter.TaskCounts

/-! The calls reach the state behind the lineage callback only through the callback. -/
namespace AmazonRay.ReferenceCounter
open Program

variable {τ : Type} {s t : State τ} {cfg : Config τ}

def Config.Released (cfg : Config τ) : τ → τ → Prop :=
  Relation.ReflTransGen fun a b => ∃ f ∈ cfg.onLineageReleased, ∃ id, b = (f id a).2.2

/-- The counts of submitted tasks are the same, and lineage was at most released. -/
structure Apart (cfg : Config τ) (s t : State τ) : Prop where
  submitted : ∀ x, t.submitted x = s.submitted x
  lineage : cfg.Released s.lineage t.lineage

instance (cfg : Config τ) : IsPreorder (State τ) (Apart cfg) where
  refl _ := ⟨fun _ => rfl, .refl⟩
  trans _ _ _ h₁ h₂ :=
    ⟨fun x => (h₂.submitted x).trans (h₁.submitted x), h₁.lineage.trans h₂.lineage⟩

lemma Quiet.apart (h : Quiet cfg.lineagePinningEnabled s t) :
    Apart cfg s t := ⟨h.submitted, h.lineage ▸ .refl⟩

lemma Apart.withEntry {id : ObjectID} {r r' : Reference}
    (hr : s.refs.lookup id = some r) (h : r'.submittedTaskRefCount = r.submittedTaskRefCount) :
    Apart cfg s (s.withEntry id r') := by
  refine ⟨fun x => ?_, .refl⟩
  rw [State.submitted, State.taskCounts_withEntry]
  split
  case isTrue he => rw [he, State.submitted_of_lookup hr, Reference.taskCounts, h]
  · rfl

section

variable {cfg : Config τ}

lemma steps_apart_update {id : ObjectID} {f : Reference → Reference}
    (hf : ∀ r, (f r).submittedTaskRefCount = r.submittedTaskRefCount) :
    Steps (Apart cfg) (fun e => e.ofTasks = false) (update id f) := by
  refine fun s => triple_update ?_ fun _ _ _ => rfl
  rintro t ref rfl hr
  exact Apart.withEntry hr (hf ref)

lemma steps_callOnLineageReleased (id : ObjectID) (owned : Bool) :
    Steps (Apart cfg) (fun e => e.ofTasks = false) (callOnLineageReleased cfg id owned) := by
  have h := readLogic_steps (R := Apart cfg) fun _ he => he
  unfold callOnLineageReleased
  cases hf : cfg.onLineageReleased with
  | none => exact h.pure _
  | some f =>
    cases owned with
    | false => exact h.pure _
    | true =>
      refine fun s => .bind (.get (Q := fun b t => b = s ∧ t = s) fun _ ht => ⟨ht, ht⟩) fun b => ?_
      refine .seq (.update (Q := fun _ t => Apart cfg s t) ?_) ?_
      · rintro t ⟨rfl, rfl⟩
        exact ⟨fun _ => rfl, .single ⟨f, hf, id, rfl⟩⟩
      refine (h.seq (steps_apart_update fun r => ?_) (h.pure _)).triple fun _ _ _ h₁ h₂ => trans_of (Apart cfg) h₁ h₂
      unfold Reference.markEvicted
      split <;> rfl

lemma releaseLogic_apart (cfg : Config τ) :
    ReleaseLogic cfg fun α (x : RefM τ α) => Steps (Apart cfg) (fun e => e.ofTasks = false) x where
  toClearingLogic := clearingLogic_steps (fun _ _ => Quiet.apart) fun _ he => he
  callOnLineageReleased := steps_callOnLineageReleased
  dropLineageRef _ := steps_apart_update fun _ => rfl
  eraseReference := steps_eraseReference (fun _ _ => Quiet.apart) fun _ he => he

end

/-- Lineage was at most released, whatever became of the counts. -/
def LineageStep (cfg : Config τ) (s t : State τ) : Prop := cfg.Released s.lineage t.lineage

instance (cfg : Config τ) : IsPreorder (State τ) (LineageStep cfg) where
  refl _ := Relation.ReflTransGen.refl
  trans _ _ _ h₁ h₂ := Relation.ReflTransGen.trans h₁ h₂

variable {cfg : Config τ}

lemma Check.ofTaskManager_of_ofTasks {e : Check} (h : e.ofTasks = false) : e.ofTaskManager = false := by
  cases e with
  | submittedTaskRefCountZero => cases h
  | resubmittedMissing => cases h
  | _ => exact h

lemma Quiet.lineageStep (h : Quiet cfg.lineagePinningEnabled s t) :
    LineageStep cfg s t := h.apart.lineage

lemma steps_lineage_update (id : ObjectID) (f : Reference → Reference) :
    Steps (LineageStep cfg) (fun e => e.ofTaskManager = false) (update id f) := by
  refine fun s => triple_update ?_ fun _ _ _ => rfl
  rintro t ref rfl _
  exact Relation.ReflTransGen.refl

lemma steps_lineage_releaseLineageReferences (depth : Nat) (id : ObjectID) :
    Steps (LineageStep cfg) (fun e => e.ofTaskManager = false) (releaseLineageReferences cfg depth id) :=
  ((releaseLogic_apart cfg).releaseLineageReferences depth id).mono (fun _ _ h => h.lineage)
    fun _ => Check.ofTaskManager_of_ofTasks

lemma callLogic_lineage (cfg : Config τ) : CallLogic cfg fun α (x : RefM τ α) =>
    Steps (LineageStep cfg) (fun e => e.ofTaskManager = false) x :=
  callLogic_steps (fun _ _ => Quiet.lineageStep) (fun _ => Check.ofTaskManager_of_ofTasks)
    steps_lineage_releaseLineageReferences

lemma steps_lineage_removeUse (collect : Bool) (id : ObjectID) (count : Reference → Reference) :
    Steps (LineageStep cfg) (fun e => e.ofTaskManager = false) (removeUse cfg collect id count) := by
  have h := callLogic_lineage cfg
  refine h.seq (steps_lineage_update id count) (h.bind (h.deref rfl) fun _ => ?_)
  exact h.onlyIf fun _ => h.deleteReferenceInternal collect id

lemma steps_lineage_addUse (id : ObjectID) (count : Reference → Reference) :
    Steps (LineageStep cfg) (fun e => e.ofTaskManager = false) (addUse cfg id count) := by
  have h := callLogic_lineage cfg
  refine h.bind (h.deref rfl) fun _ => h.seq (steps_lineage_update id count) ?_
  exact h.bind (h.deref rfl) fun _ => h.onlyIf fun _ => h.setNestedRefInUseRecursive _ id

lemma taskCallLogic_lineage (cfg : Config τ) : TaskCallLogic cfg fun α (x : RefM τ α) =>
    Steps (LineageStep cfg) (fun e => e.ofTaskManager = false) x where
  toCallLogic := callLogic_lineage cfg
  countZero _ := .throw fun _ _ => rfl
  resubmittedMissing _ := .throw fun _ _ => rfl
  addSubmitted id := steps_lineage_addUse id _
  addResubmitted id := steps_lineage_addUse id _
  removeSubmitted _ id := steps_lineage_removeUse true id _

end AmazonRay.ReferenceCounter
