import AmazonRay.TaskManager.Rules

/-! The uses of an object by tasks are counted in its entry and listed by the specs. The two are compared up to a debt.
`lin` chooses the lineage references, of every submissible task, or the submitted ones, of the pending. -/
namespace AmazonRay.TaskManager
open Program ReferenceCounter Option Reference

def meter (lin : Bool) (r : Reference) : Nat :=
  if lin then r.lineageRefCount else r.submittedTaskRefCount

def metered (lin : Bool) (s : Worker) (o : ObjectID) : Nat := (s.refs.lookup o).elim 0 (meter lin)

def Tasks.uses (lin : Bool) (t : Tasks) (o : ObjectID) : Nat :=
  Table.total (fun id e => if lin || e.pending then (t.messages id).dependencies.count o else 0)
    t.submissibleTasks

def Tasks.Regular (t : Tasks) : Prop := ∀ spec ∈ t.released, spec.isActorTask = false

/-- The counts agree up to the debt. -/
def Balanced (lin : Bool) (debt : ObjectID → Int) (s : Worker) : Prop :=
  (lin = true → s.lineage.Regular) →
    ∀ o, (metered lin s o : Int) = s.lineage.uses lin o + debt o

section

variable {lin : Bool} {d d' : ObjectID → Int} {s t : Worker} {id : ObjectID} {r : Reference}

variable {count : Reference → Reference} {pinning : Bool}

lemma metered_true (s : Worker) (o : ObjectID) : metered true s o = s.lineageRefs o := by
  rw [metered, State.lineageRefs, State.taskCounts]
  cases s.refs.lookup o <;> rfl

lemma metered_false (s : Worker) (o : ObjectID) : metered false s o = s.submitted o := by
  rw [metered, State.submitted, State.taskCounts]
  cases s.refs.lookup o <;> rfl

lemma metered_of_lookup (h : s.refs.lookup id = some r) : metered lin s id = meter lin r := by
  rw [metered, h, elim_some]

lemma metered_of_lookup_none (h : s.refs.lookup id = none) : metered lin s id = 0 := by
  rw [metered, h, elim_none]

lemma metered_withEntry (x : ObjectID) :
    metered lin (s.withEntry id r) x = if x = id then meter lin r else metered lin s x := by
  rw [metered, State.withEntry_lookup]
  split <;> rfl

lemma Balanced.congr (h : Balanced lin d s) (hd : ∀ o, d' o = d o) : Balanced lin d' s := by
  intro hreg o
  rw [hd]
  exact h hreg o

lemma Balanced.of_metered (h : Balanced lin d s) (hm : ∀ o, metered lin t o = metered lin s o)
    (hl : t.lineage = s.lineage) : Balanced lin d t := by
  intro hreg o
  rw [hl] at hreg
  rw [hm, hl]
  exact h hreg o

lemma Balanced.withEntry (h : Balanced lin d s) {n : Int}
    (hn : (lin = true → s.lineage.Regular) → (meter lin r : Int) = metered lin s id + n)
    (hd : ∀ o, d' o = d o + if o = id then n else 0) : Balanced lin d' (s.withEntry id r) := by
  intro hreg o
  have ho := h hreg o
  have hn := hn hreg
  rw [metered_withEntry, hd]
  change _ = (s.lineage.uses lin o : Int) + _
  by_cases hid : o = id
  · subst hid
    rw [if_pos rfl, if_pos rfl]
    omega
  · rw [if_neg hid, if_neg hid]
    omega

/-- Every debt that is not negative stays as it is. -/
def Kept (lin : Bool) (s t : Worker) : Prop :=
  ∀ d : ObjectID → Int, (∀ o, 0 ≤ d o) → Balanced lin d s → Balanced lin d t

instance : IsPreorder Worker (Kept lin) where
  refl _ _ _ h := h
  trans _ _ _ h₁ h₂ d hd h := h₂ d hd (h₁ d hd h)

lemma Balanced.quiet (hpin : lin = true → pinning = true)
    (hb : Balanced lin d s) (h : Quiet pinning s t) : Balanced lin d t := by
  refine hb.of_metered (fun o => ?_) h.lineage
  cases lin with
  | false => rw [metered_false, metered_false, h.submitted]
  | true => rw [metered_true, metered_true, h.lineageRefs (hpin rfl)]

lemma kept_of_quiet (hpin : lin = true → pinning = true)
    (h : Quiet pinning s t) : Kept lin s t := fun _ _ hb => hb.quiet hpin h

end

section

variable {lin : Bool} {s : Worker}

lemma TaskSpec.dependencies_of_not_actor {spec : TaskSpec} (h : spec.isActorTask = false) :
    spec.dependencies = spec.argDependencies := by
  have hnil : spec.actorCreationDummyObjectId = [] := by simpa [TaskSpec.isActorTask] using h
  rw [TaskSpec.dependencies, hnil, List.append_nil]

lemma Tasks.uses_removeLineageReference (lin : Bool) (t : Tasks) (x o : ObjectID)
    (hreg : lin = true → (t.removeLineageReference x).2.2.Regular) :
    (t.removeLineageReference x).2.2.uses lin o +
      (if lin then (t.removeLineageReference x).2.1.count o else 0) = t.uses lin o := by
  revert hreg
  unfold Tasks.removeLineageReference
  cases he : t.submissibleTasks.lookup x.taskId with
  | none => simp
  | some e =>
    dsimp only
    rw [Tasks.uses, Tasks.uses, Table.total_of_lookup he]
    split
    case isTrue hr =>
      intro hreg
      cases lin with
      | false => simp [hr.2]
      | true =>
        have hspec := hreg rfl (t.messages x.taskId) List.mem_cons_self
        rw [TaskSpec.dependencies_of_not_actor hspec]
        simp only [Bool.true_or, if_true]
        exact Nat.add_comm _ _
    · intro _
      simp [Tasks.withEntry, Table.total_insert]

lemma Tasks.released_removeLineageReference (t : Tasks) (x : ObjectID) :
    t.released <:+ (t.removeLineageReference x).2.2.released := by
  unfold Tasks.removeLineageReference
  split
  · exact List.suffix_refl _
  · dsimp only
    split
    · exact List.suffix_cons _ _
    · exact List.suffix_refl _

lemma stable_uses_false (o : ObjectID) (n : Nat) : Stable fun t => t.uses false o = n := by
  intro x t h
  have := t.uses_removeLineageReference false x o nofun
  simp only [Bool.false_eq_true, if_false, Nat.add_zero] at this
  exact this.trans h

lemma kept_of_apart {cfg : WorkerConfig} {t : Worker} (h : Apart cfg.counter s t) :
    Kept false s t := by
  intro d _ hb _ o
  have huses := (stable_uses_false o _).released h.lineage rfl
  rw [metered_false, h.submitted, huses, ← metered_false]
  exact hb nofun o

def MayFail (lin : Bool) (e : Check) (_ : Worker) : Prop :=
  lin = false → e ≠ .submittedTaskRefCountZero

abbrev BalancedTo (lin : Bool) {α : Type} (P : Worker → Prop) (x : WorkerM α) (d : ObjectID → Int) : Prop :=
  Triple P x (fun _ => Balanced lin d) (MayFail lin)

variable {cfg : WorkerConfig} {d : ObjectID → Int}

lemma triple_callOnLineageReleased (id : ObjectID) (owned : Bool) :
    Triple (Balanced true d) (callOnLineageReleased cfg.counter id owned)
      (fun released => Balanced true fun o => d o + released.2.count o) (MayFail true) := by
  cases owned with
  | false => exact .pure fun _ hs => hs.congr fun o => by simp
  | true =>
    refine .bind (.get (Q := fun b s => Balanced true d s ∧ b = s) fun _ hs => ⟨hs, rfl⟩) fun b => ?_
    refine .seq (.update (Q := fun _ => Balanced true fun o =>
      d o + (b.lineage.removeLineageReference id).2.1.count o) ?_) ?_
    · rintro s ⟨hs, rfl⟩ hreg o
      have huses := b.lineage.uses_removeLineageReference true id o hreg
      have hsame : b.lineage.Regular := fun spec hspec => hreg rfl spec <| by
        exact (b.lineage.released_removeLineageReference id).subset hspec
      have ho := hs (fun _ => hsame) o
      simp only [if_true] at huses
      change (metered true b o : Int) = ((b.lineage.removeLineageReference id).2.2.uses true o : Int) + _
      rw [ho, ← huses]
      push_cast
      omega
    refine .bind (triple_update (fun s r hs hr => ?_) nofun) fun _ => .skip
    refine hs.withEntry (n := 0) (fun _ => ?_) fun o => by simp
    rw [metered_of_lookup hr]
    unfold markEvicted
    split <;> simp [meter]

lemma Balanced.owed {id : ObjectID} (h : Balanced lin d s) (hreg : lin = true → s.lineage.Regular) (hd : 0 < d id) :
    ∃ r, s.refs.lookup id = some r ∧ 0 < meter lin r := by
  have ho := h hreg id
  cases hr : s.refs.lookup id with
  | none =>
    rw [metered_of_lookup_none hr] at ho
    omega
  | some r =>
    rw [metered_of_lookup hr] at ho
    exact ⟨r, rfl, by omega⟩

lemma triple_releaseArgument (hpin : cfg.lineagePinningEnabled = true) {release : ObjectID → WorkerM Int}
    (hrel : ∀ id (d : ObjectID → Int), (∀ o, 0 ≤ d o) →
      Triple (Balanced true d) (release id) (fun _ => Balanced true d) (MayFail true))
    (hd : ∀ o, 0 ≤ d o) (bytes : Int) (id : ObjectID) (ids : List ObjectID) :
    Triple (Balanced true fun o => d o + (id :: ids).count o) (releaseArgument cfg.counter release bytes id)
      (fun _ => Balanced true fun o => d o + ids.count o) (MayFail true) := by
  have hquiet : ∀ s t, Quiet cfg.counter.lineagePinningEnabled s t → Kept true s t :=
    fun _ _ => kept_of_quiet fun _ => hpin
  have hkeep : ∀ {α : Type} {x : WorkerM α}, Steps (Kept true) (fun _ => True) x →
      Triple (Balanced true fun o => d o + ids.count o) x
        (fun _ => Balanced true fun o => d o + ids.count o) (MayFail true) := fun hx =>
    (hx.triple fun _ _ _ hs hst => hst _ (fun o => by have := hd o; omega) hs).weaken nofun
  have hc := clearingLogic_steps hquiet fun _ _ => trivial
  have owed : ∀ s : Worker, Balanced true (fun o => d o + (id :: ids).count o) s →
      s.lineage.Regular → ∃ r, s.refs.lookup id = some r ∧ 0 < r.lineageRefCount := by
    intro s hs hreg
    refine hs.owed (fun _ => hreg) ?_
    have := hd id
    rw [List.count_cons_self]
    omega
  refine .bind (triple_find (Q := fun o s => Balanced true
    (fun o => d o + (id :: ids).count o) s ∧ s.refs.lookup id = o) fun _ hs => ⟨hs, rfl⟩) fun o => ?_
  cases o with
  | none =>
    refine .pure fun s hs hreg => ?_
    obtain ⟨r, hr, _⟩ := owed s hs.1 (hreg rfl)
    exact nomatch hs.2.symm.trans hr
  | some arg =>
    refine .ite (fun hz => .pure fun s hs hreg => ?_) fun hz => ?_
    · obtain ⟨r, hr, hpos⟩ := owed s hs.1 (hreg rfl)
      rw [some.inj (hs.2.symm.trans hr)] at hz
      omega
    refine .seq (triple_update (Q := fun _ => Balanced true fun o => d o + ids.count o)
      (fun s r hs hr => hs.1.withEntry (n := -1) (fun _ => ?_) fun o => ?_) nofun) ?_
    · obtain rfl := some.inj (hs.2.symm.trans hr)
      rw [metered_of_lookup hr]
      simp only [meter, dropLineageRef, if_true]
      omega
    · by_cases ho : o = id
      · subst ho
        rw [List.count_cons_self, if_pos rfl]
        omega
      · rw [List.count_cons_of_ne (Ne.symm ho), if_neg ho]
        omega
    have hB := composes_triple (Balanced true fun o => d o + ids.count o) (MayFail true)
    refine hB.bind (hkeep (hc.deref rfl)) fun arg => hB.ite (fun _ => hB.pure bytes) fun _ => ?_
    refine hB.seq (hkeep (hc.check rfl)) (hB.seq (hkeep (hc.record _)) ?_)
    refine hB.seq (hkeep (steps_modify hquiet (fun _ => rfl) fun _ => rfl)) ?_
    refine hB.bind (hrel id _ fun o => by have := hd o; omega) fun evicted => ?_
    refine hB.seq (hkeep (steps_eraseReference hquiet (fun _ _ => trivial) id)) ?_
    exact hB.seq (hkeep (steps_modify hquiet (fun _ => rfl) fun _ => rfl)) (hB.pure _)

lemma triple_releaseLineageReferences (hpin : cfg.lineagePinningEnabled = true) (depth : Nat)
    (id : ObjectID) (d : ObjectID → Int) (hd : ∀ o, 0 ≤ d o) :
    Triple (Balanced true d) (releaseLineageReferences cfg.counter depth id)
      (fun _ => Balanced true d) (MayFail true) := by
  induction depth generalizing id d with
  | zero => exact .throw nofun
  | succ depth ih =>
    refine .bind (triple_deref (fun _ _ hs _ => hs) nofun) fun ref => ?_
    refine .bind (triple_callOnLineageReleased id _) fun released => ?_
    refine (Triple.foldlM (I := fun ids _ => Balanced true fun o => d o + ids.count o)
      (fun bytes x ids => ?_) released.2 released.1).post fun _ _ hs => hs.congr fun o => by simp
    exact triple_releaseArgument hpin ih hd bytes x ids

end

variable {lin : Bool} {cfg : WorkerConfig} {d : ObjectID → Int}
  (hpin : lin = true → cfg.lineagePinningEnabled = true)
include hpin

lemma steps_kept_releaseLineageReferences (depth : Nat) (id : ObjectID) :
    Steps (Kept lin) (fun e => lin = false → e ≠ .submittedTaskRefCountZero)
      (releaseLineageReferences cfg.counter depth id) := by
  cases lin with
  | false =>
    refine ((releaseLogic_apart cfg.counter).releaseLineageReferences depth id).mono
      (fun _ _ h => kept_of_apart h) fun e he _ => ?_
    rintro rfl
    cases he
  | true =>
    intro s s' hs'
    subst hs'
    have h := fun d hd => triple_releaseLineageReferences (hpin rfl) depth id d hd s'
    revert h
    cases releaseLineageReferences cfg.counter depth id s' with
    | ok bytes t => exact fun h d hd hs => h d hd hs
    | error e t => exact nofun

lemma callLogic_kept : CallLogic cfg.counter fun α (x : WorkerM α) =>
    Steps (Kept lin) (fun e => lin = false → e ≠ .submittedTaskRefCountZero) x := by
  refine callLogic_steps (fun _ _ => kept_of_quiet hpin) (fun e he _ => ?_) (steps_kept_releaseLineageReferences hpin)
  rintro rfl
  cases he

lemma triple_call (hd : ∀ o, 0 ≤ d o) {α : Type} {x : WorkerM α} (hx : OrdinaryCall cfg.counter x) :
    BalancedTo lin (Balanced lin d) x d :=
  (hx _ (callLogic_kept hpin)).triple fun _ _ _ hs hst => hst d hd hs

lemma triple_quiet {α : Type} {x : WorkerM α}
    (hx : Steps (Quiet cfg.lineagePinningEnabled) (fun e => e.ofTasks = false) x) :
    BalancedTo lin (Balanced lin d) x d := by
  refine (hx.triple fun _ _ _ hs hst => hs.quiet hpin hst).weaken fun e _ he _ => ?_
  rintro rfl
  cases he

lemma triple_addUse {d' : ObjectID → Int} {id : ObjectID} {n : Int}
    (hc : ∀ r, (meter lin (count r) : Int) = meter lin r + n)
    (hd : ∀ o, d' o = d o + if o = id then n else 0) :
    BalancedTo lin (Balanced lin d) (addUse cfg.counter id count) d' := by
  have hq : ∀ s t : Worker, Quiet cfg.counter.lineagePinningEnabled s t →
      Quiet cfg.lineagePinningEnabled s t := fun _ _ h => h
  have h := readLogic_steps (R := Quiet (τ := Tasks) cfg.lineagePinningEnabled) (fun e (he : e.ofTasks = false) => he)
  refine .bind (triple_quiet hpin (h.deref rfl)) fun _ => ?_
  refine .bind (triple_update (fun s r hs hr => ?_) fun _ _ _ _ => by decide) fun _ => triple_quiet hpin ?_
  · refine hs.withEntry (fun _ => ?_) hd
    rw [metered_of_lookup hr]
    exact hc r
  · refine h.bind (h.deref rfl) fun _ => h.onlyIf fun _ => ?_
    exact steps_setNestedRefInUseRecursive hq (fun _ he => he) _ id

lemma triple_forM_addUse {n : Int}
    (hc : ∀ r, (meter lin (count r) : Int) = meter lin r + n) {α : Type} {f : ObjectID → WorkerM α}
    (hf : ∀ id (d : ObjectID → Int), BalancedTo lin (Balanced lin d) (f id) d) (ids : List ObjectID) :
    BalancedTo lin (Balanced lin fun o => d o - n * ids.count o)
      (ids.forM fun id => f id >>= fun _ => addUse cfg.counter id count) d := by
  refine (Triple.forM (I := fun l => Balanced lin fun o => d o - n * l.count o)
    (fun id l => ?_) ids).post fun _ _ hs => hs.congr fun o => by simp
  refine .bind (hf id _) fun _ => triple_addUse hpin hc fun o => ?_
  by_cases ho : o = id
  · subst ho
    rw [List.count_cons_self, if_pos rfl]
    push_cast
    rw [Int.mul_add, Int.mul_one]
    omega
  · rw [List.count_cons_of_ne (Ne.symm ho), if_neg ho, add_zero]

lemma triple_updateResubmittedTaskReferences (ids : List ObjectID) :
    BalancedTo lin (Balanced lin fun o => d o - if lin then 0 else (ids.count o : Int))
      (updateResubmittedTaskReferences cfg.counter ids) d := by
  have hc : ∀ r : Reference, (meter lin r.addResubmitted : Int) = meter lin r + if lin then 0 else 1 := by
    intro r
    cases lin <;> simp [meter, addResubmitted]
  have hf : ∀ id (d : ObjectID → Int), BalancedTo lin (Balanced lin d)
      (do check .resubmittedMissing ((← find id) ≠ none)) d := fun id d => .bind
    (triple_find fun _ hs => hs) fun o => .check (fun _ _ hs => hs) fun _ _ _ _ => by decide
  refine (triple_forM_addUse hpin hc hf ids).pre fun s hs => hs.congr fun o => ?_
  cases lin <;> simp

def due (lin releaseLineage : Bool) (ids : List ObjectID) (o : ObjectID) : Int :=
  if lin && !releaseLineage then 0 else ids.count o

omit hpin in
lemma due_nonneg (releaseLineage : Bool) (ids : List ObjectID) (o : ObjectID) : 0 ≤ due lin releaseLineage ids o := by
  unfold due
  split <;> omega

variable (hd : ∀ o, 0 ≤ d o)
include hd

lemma triple_removeUse_submitted (releaseLineage : Bool) (id : ObjectID) (ids : List ObjectID) :
    BalancedTo lin (Balanced lin fun o => d o + due lin releaseLineage (id :: ids) o)
      (removeUse cfg.counter true id (removeSubmitted releaseLineage)) fun o => d o + due lin releaseLineage ids o := by
  have hnonneg : ∀ o, 0 ≤ d o + due lin releaseLineage ids o := fun o => Int.add_nonneg (hd o) (due_nonneg _ _ _)
  refine .seq (triple_update (Q := fun _ => Balanced lin fun o =>
    d o + due lin releaseLineage ids o) (fun s r hs hr => ?_) fun _ _ _ _ => by decide) ?_
  · by_cases hskip : (lin && !releaseLineage) = true
    · obtain ⟨rfl, hrl⟩ := Bool.and_eq_true_iff.mp hskip
      refine hs.withEntry (n := 0) (fun _ => ?_) fun o => ?_
      · rw [metered_of_lookup hr]
        have hrl : releaseLineage = false := by simpa using hrl
        simp [meter, removeSubmitted, hrl]
      · simp only [due, if_pos hskip, ite_self, add_zero]
    · have hcount : ∀ (l : List ObjectID) o, due lin releaseLineage l o = l.count o := fun l o => by
        rw [due, if_neg hskip]
      simp only [hcount] at hs ⊢
      refine hs.withEntry (n := -1) (fun hreg => ?_) fun o => ?_
      · have howed : 0 < d id + (id :: ids).count id := by
          have := hd id
          rw [List.count_cons_self]
          omega
        obtain ⟨r', hr', hpos⟩ := hs.owed hreg howed
        obtain rfl := some.inj (hr.symm.trans hr')
        rw [metered_of_lookup hr]
        cases lin with
        | false =>
          simp only [meter, removeSubmitted, Bool.false_eq_true, if_false] at hpos ⊢
          omega
        | true =>
          have hrl : releaseLineage = true := by simpa using hskip
          simp only [meter, removeSubmitted, if_true, hrl] at hpos ⊢
          omega
      · by_cases ho : o = id
        · subst ho
          rw [List.count_cons_self, if_pos rfl]
          omega
        · rw [List.count_cons_of_ne (Ne.symm ho), if_neg ho]
          omega
  · exact triple_call hpin hnonneg fun K h => h.bind (h.deref rfl) fun _ =>
      h.onlyIf fun _ => h.deleteReferenceInternal true id

lemma triple_removeSubmittedTaskReferences (releaseLineage : Bool) (ids : List ObjectID) :
    BalancedTo lin (Balanced lin fun o => d o + due lin releaseLineage ids o)
      (removeSubmittedTaskReferences cfg.counter releaseLineage ids) d := by
  induction ids with
  | nil => exact .pure fun _ hs => hs.congr fun o => by simp [due]
  | cons id ids ih =>
    refine .bind (triple_find (Q := fun o s => Balanced lin
      (fun o => d o + due lin releaseLineage (id :: ids) o) s ∧ s.refs.lookup id = o)
      fun _ hs => ⟨hs, rfl⟩) fun o => ?_
    have owed : ∀ s : Worker, Balanced lin (fun o => d o + due lin releaseLineage (id :: ids) o) s →
        (lin = true → s.lineage.Regular) → (lin && !releaseLineage) = false →
        ∃ r, s.refs.lookup id = some r ∧ 0 < meter lin r := by
      intro s hs hreg hskip
      refine hs.owed hreg ?_
      have := hd id
      rw [due, if_neg (by simp [hskip]), List.count_cons_self]
      omega
    cases o with
    | none =>
      refine .pure fun s hs => ?_
      by_cases hskip : (lin && !releaseLineage) = true
      · exact hs.1.congr fun o => by simp [due, hskip]
      · intro hreg
        obtain ⟨r, hr, _⟩ := owed s hs.1 hreg (Bool.eq_false_iff.mpr hskip)
        exact nomatch hs.2.symm.trans hr
    | some ref =>
      refine .seq (.check (Q := fun _ => Balanced lin fun o =>
        d o + due lin releaseLineage (id :: ids) o) (fun _ _ hs => hs.1) fun hz s hs hlin => ?_)
        ?_
      · subst hlin
        obtain ⟨r, hr, hpos⟩ := owed s hs.1 nofun rfl
        rw [some.inj (hs.2.symm.trans hr)] at hz
        exact absurd hpos hz
      · exact .seq (triple_removeUse_submitted hpin hd releaseLineage id ids) ih

lemma triple_updateSubmittedTaskReferences (add remove : List ObjectID) :
    BalancedTo lin (Balanced lin fun o => d o + remove.count o - add.count o)
      (updateSubmittedTaskReferences cfg.counter add remove) d := by
  have hc : ∀ r : Reference, (meter lin r.addSubmitted : Int) = meter lin r + 1 := by
    intro r
    cases lin <;> simp [meter, addSubmitted]
  have hq : ∀ s t : Worker, Quiet cfg.counter.lineagePinningEnabled s t →
    Quiet cfg.lineagePinningEnabled s t := fun _ _ h => h
  have hf : ∀ id (d : ObjectID → Int), BalancedTo lin (Balanced lin d) (findOrEmplace id) d := fun id d =>
    triple_quiet hpin (steps_findOrEmplace hq id)
  have hadd := triple_forM_addUse (d := fun o => d o + remove.count o) hpin hc hf add
  refine .seq (hadd.pre fun s (hs : Balanced lin (fun o => d o + remove.count o -
    add.count o) s) => hs.congr fun o => by simp) ?_
  refine (triple_removeSubmittedTaskReferences hpin hd true remove).pre fun s hs => ?_
  refine Balanced.congr hs fun o => ?_
  cases lin <;> simp [due]

lemma triple_updateFinishedTaskReferences (ids : List ObjectID)
    (releaseLineage : Bool) (workerAddr : WorkerAddress) (borrowedRefs : ReferenceTableProto) :
    BalancedTo lin (Balanced lin fun o => d o + due lin releaseLineage ids o)
      (updateFinishedTaskReferences cfg.counter ids releaseLineage workerAddr borrowedRefs) d := by
  have hnonneg : ∀ o, 0 ≤ d o + due lin releaseLineage ids o := fun o => Int.add_nonneg (hd o) (due_nonneg _ _ _)
  refine .seq (triple_call hpin hnonneg fun K h => h.onlyIf fun _ => h.check rfl) ?_
  refine .seq (triple_call hpin hnonneg fun K h => h.forM (h.mergeRemoteBorrowers workerAddr _ _) ids) ?_
  exact triple_removeSubmittedTaskReferences hpin hd releaseLineage ids

end AmazonRay.TaskManager
