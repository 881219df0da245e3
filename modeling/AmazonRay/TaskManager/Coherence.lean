import AmazonRay.TaskManager.Rules

/-! The retry state of `TaskManager`: what its entries and counters say of each other. -/
namespace AmazonRay.TaskManager
open Program ReferenceCounter Table Tasks List TaskEntry Bool

def TaskEntry.pendingOne (e : TaskEntry) : Int := if e.pending then 1 else 0

def TaskEntry.lineageBytes (e : TaskEntry) : Int := if e.pending then 0 else e.lineageFootprintBytes

def Tasks.retries (t : Tasks) (id : TaskID) : Nat := t.outputs.countP (Output.isRetryOf id)

def Tasks.retriesLeft (t : Tasks) (id : TaskID) : Int :=
  (t.submissibleTasks.lookup id).elim 0 TaskEntry.numRetriesLeft

/-- `strict` asks that a finished task can be resubmitted. -/
structure TaskEntry.Coherent (strict : Bool) (e : TaskEntry) : Prop where
  finished : e.pending = false → e.reconstructableReturnIds ≠ [] ∧ 0 < e.lineageFootprintBytes
  retryable : strict = true → e.pending = false → e.numRetriesLeft ≠ 0
  left : -1 ≤ e.numRetriesLeft

structure Tasks.Coherent (strict : Bool) (t : Tasks) : Prop where
  pendingTasks : t.numPendingTasks = Table.total (fun _ e => e.pendingOne) t.submissibleTasks
  lineageBytes : t.totalLineageFootprintBytes =
    Table.total (fun _ e => e.lineageBytes) t.submissibleTasks
  entries : ∀ id e, t.submissibleTasks.lookup id = some e →
    e.Coherent strict ∧ id ∈ t.added.map Prod.fst
  returns : ∀ id e, t.submissibleTasks.lookup id = some e →
    ∀ x ∈ e.reconstructableReturnIds, x.taskId = id
  unused : ∀ id, id ∉ t.added.map Prod.fst → t.retries id = 0
  budget : ∀ id n, (id, n) ∈ t.added → 0 ≤ n → 0 ≤ t.retriesLeft id ∧
    t.retries id + t.retriesLeft id ≤ n

section

variable {strict : Bool} {t t' : Tasks} {id : TaskID} {e e' : TaskEntry}

lemma Tasks.retriesLeft_of_lookup (h : t.submissibleTasks.lookup id = some e) :
    t.retriesLeft id = e.numRetriesLeft := by
  rw [retriesLeft, h, Option.elim_some]

lemma Tasks.retries_of_outputs (h : t'.outputs = t.outputs) (id : TaskID) : t'.retries id = t.retries id := by
  rw [retries, h, retries]

lemma Tasks.Coherent.of_same (h : t.Coherent strict)
    (ht : t'.submissibleTasks = t.submissibleTasks) (hp : t'.numPendingTasks = t.numPendingTasks)
    (hb : t'.totalLineageFootprintBytes = t.totalLineageFootprintBytes) (ha : t'.added = t.added)
    (ho : ∀ id, t'.retries id = t.retries id) : t'.Coherent strict := by
  have hleft : ∀ id, t'.retriesLeft id = t.retriesLeft id := fun id => by
    rw [retriesLeft, ht, retriesLeft]
  refine ⟨by rw [hp, ht]; exact h.pendingTasks, by rw [hb, ht]; exact h.lineageBytes, ?_, ?_, ?_, ?_⟩
  · rw [ht, ha]
    exact h.entries
  · rw [ht]
    exact h.returns
  · intro id
    rw [ha, ho]
    exact h.unused id
  · intro id n
    rw [ha, ho, hleft]
    exact h.budget id n

lemma Tasks.Coherent.replace (h : t.Coherent strict) (he : t.submissibleTasks.lookup id = some e)
    (ht : t'.submissibleTasks = t.submissibleTasks.insert id e') (ha : t'.added = t.added)
    (ho : t'.outputs = t.outputs)
    (hp : t'.numPendingTasks + e.pendingOne = t.numPendingTasks + e'.pendingOne)
    (hb : t'.totalLineageFootprintBytes + e.lineageBytes = t.totalLineageFootprintBytes + e'.lineageBytes)
    (hok : e'.Coherent strict)
    (hids : e'.reconstructableReturnIds ⊆ e.reconstructableReturnIds)
    (hleft : 0 ≤ e.numRetriesLeft → 0 ≤ e'.numRetriesLeft ∧ e'.numRetriesLeft ≤ e.numRetriesLeft) :
    t'.Coherent strict := by
  have hlookup : ∀ x, t'.submissibleTasks.lookup x =
      if x = id then some e' else t.submissibleTasks.lookup x := fun x => by
    rw [ht, lookup_insert]
  refine ⟨?_, ?_, ?_, ?_, ?_, ?_⟩
  · have h1 := h.pendingTasks
    rw [total_of_lookup he] at h1
    rw [ht, total_insert]
    omega
  · have h1 := h.lineageBytes
    rw [total_of_lookup he] at h1
    rw [ht, total_insert]
    omega
  · intro x e₁ hx
    rw [hlookup] at hx
    rw [ha]
    split at hx
    case isTrue hid =>
      cases hx
      exact ⟨hok, hid ▸ (h.entries id e he).2⟩
    · exact h.entries x e₁ hx
  · intro x e₁ hx y hy
    rw [hlookup] at hx
    split at hx
    case isTrue hid =>
      cases hx
      exact (h.returns id e he y (hids hy)).trans hid.symm
    · exact h.returns x e₁ hx y hy
  · intro x
    rw [ha, retries_of_outputs ho]
    exact h.unused x
  · intro x n hx hn
    rw [ha] at hx
    obtain ⟨h0, hle⟩ := h.budget x n hx hn
    rw [retries_of_outputs ho]
    by_cases hid : x = id
    · subst hid
      rw [retriesLeft_of_lookup he] at h0 hle
      have hnew : t'.retriesLeft x = e'.numRetriesLeft := retriesLeft_of_lookup (by rw [hlookup, if_pos rfl])
      rw [hnew]
      have := hleft h0
      omega
    · rw [retriesLeft, hlookup, if_neg hid]
      exact ⟨h0, hle⟩

lemma Tasks.Coherent.remove (h : t.Coherent strict) (he : t.submissibleTasks.lookup id = some e)
    (ht : t'.submissibleTasks = t.submissibleTasks.erase id) (ha : t'.added = t.added)
    (ho : t'.outputs = t.outputs) (hp : t'.numPendingTasks + e.pendingOne = t.numPendingTasks)
    (hb : t'.totalLineageFootprintBytes + e.lineageBytes = t.totalLineageFootprintBytes) :
    t'.Coherent strict := by
  have hlookup : ∀ x, t'.submissibleTasks.lookup x =
      if x = id then none else t.submissibleTasks.lookup x := fun x => by
    rw [ht, lookup_erase]
  refine ⟨?_, ?_, ?_, ?_, ?_, ?_⟩
  · have h1 := h.pendingTasks
    rw [total_of_lookup he] at h1
    rw [ht]
    omega
  · have h1 := h.lineageBytes
    rw [total_of_lookup he] at h1
    rw [ht]
    omega
  · intro x e₁ hx
    rw [hlookup] at hx
    rw [ha]
    split at hx
    · cases hx
    · exact h.entries x e₁ hx
  · intro x e₁ hx
    rw [hlookup] at hx
    split at hx
    · cases hx
    · exact h.returns x e₁ hx
  · intro x
    rw [ha, retries_of_outputs ho]
    exact h.unused x
  · intro x n hx hn
    rw [ha] at hx
    obtain ⟨h0, hle⟩ := h.budget x n hx hn
    rw [retries_of_outputs ho, retriesLeft, hlookup]
    split
    · rw [Option.elim_none]
      omega
    · exact ⟨h0, hle⟩

end

lemma stable_coherent (strict : Bool) : Stable (Tasks.Coherent strict) := by
  intro x t h
  unfold removeLineageReference
  cases he : t.submissibleTasks.lookup x.taskId with
  | none => exact h
  | some e =>
    have hok := (h.entries _ e he).1
    dsimp only
    split
    case isTrue hr =>
      refine h.remove he rfl rfl rfl ?_ ?_
      · simp only [pendingOne, hr.2, false_eq_true, if_false, add_zero]
      · simp only [lineageBytes, hr.2, false_eq_true, if_false]
        omega
    case isFalse hr =>
      refine h.replace he rfl rfl rfl rfl rfl ⟨fun hp => ⟨fun hn => hr ⟨hn, hp⟩, ?_⟩, ?_, hok.left⟩
        (filter_subset_self _) fun h0 => ⟨h0, le_rfl⟩
      · exact (hok.finished hp).2
      · exact hok.retryable

lemma Tasks.removeLineageReference_frame (x : ObjectID) (t : Tasks) : (t.removeLineageReference x).2.2.added = t.added ∧
    (t.removeLineageReference x).2.2.outputs = t.outputs ∧
    (t.removeLineageReference x).2.2.messages = t.messages := by
  unfold removeLineageReference
  split
  · exact ⟨rfl, rfl, rfl⟩
  · dsimp only
    split <;> exact ⟨rfl, rfl, rfl⟩

lemma stable_notAdded (id : TaskID) : Stable fun t => id ∉ t.added.map Prod.fst := by
  intro x t h
  rw [(t.removeLineageReference_frame x).1]
  exact h

lemma Tasks.removeLineageReference_lookup {t : Tasks} {id : TaskID} {e : TaskEntry} (x : ObjectID)
    (h : t.submissibleTasks.lookup id = some e) (hp : e.pending = true) :
    ∃ ids, (t.removeLineageReference x).2.2.submissibleTasks.lookup id =
      some { e with reconstructableReturnIds := ids } := by
  unfold removeLineageReference
  cases he : t.submissibleTasks.lookup x.taskId with
  | none => exact ⟨_, h⟩
  | some e₁ =>
    dsimp only
    split
    case isTrue hr =>
      have hne : id ≠ x.taskId := by
        rintro rfl
        rw [h] at he
        cases he
        rw [hp] at hr
        cases hr.2
      rw [lookup_erase, if_neg hne]
      exact ⟨_, h⟩
    · rw [withEntry, lookup_insert]
      split
      case isTrue hid =>
        subst hid
        rw [h] at he
        cases he
        exact ⟨_, rfl⟩
      · exact ⟨_, h⟩

def Tasks.PendingWith (id : TaskID) (left : Int) (t : Tasks) : Prop :=
  ∃ e, t.submissibleTasks.lookup id = some e ∧ e.pending = true ∧ e.numRetriesLeft = left

lemma Tasks.isTaskPending_iff {t : Tasks} {id : TaskID} : t.isTaskPending id = true ↔
    ∃ e, t.submissibleTasks.lookup id = some e ∧ e.pending = true := by
  rw [isTaskPending]
  cases t.submissibleTasks.lookup id with
  | none => simp
  | some e => simp

lemma stable_pendingWith (id : TaskID) (left : Int) : Stable (Tasks.PendingWith id left) := by
  rintro x t ⟨e, he, hp, hl⟩
  obtain ⟨ids, hids⟩ := t.removeLineageReference_lookup x he hp
  exact ⟨_, hids, hp, hl⟩

lemma stable_isTaskPending (id : TaskID) : Stable fun t => t.isTaskPending id = true := by
  intro x t h
  obtain ⟨e, he, hp⟩ := isTaskPending_iff.mp h
  obtain ⟨ids, hids⟩ := t.removeLineageReference_lookup x he hp
  exact isTaskPending_iff.mpr ⟨_, hids, hp⟩

def Tasks.Credit (id : TaskID) (left : Int) (t : Tasks) : Prop :=
  ∀ n, (id, n) ∈ t.added → 0 ≤ n → t.retries id + 1 + left ≤ n

lemma stable_credit (id : TaskID) (left : Int) : Stable (Tasks.Credit id left) := by
  intro x t h n hn
  obtain ⟨ha, ho, _⟩ := t.removeLineageReference_frame x
  rw [retries_of_outputs ho]
  rw [ha] at hn
  exact h n hn

variable {strict : Bool} {cfg : WorkerConfig} {t : Tasks} {id : TaskID} {e : TaskEntry}

lemma TaskSpec.taskId_of_mem_trackedReturnIds {spec : TaskSpec} {x : ObjectID}
    (h : x ∈ spec.trackedReturnIds) : x.taskId = spec.taskId := by
  obtain ⟨i, _, rfl⟩ := mem_map.mp h
  rfl

variable (h : t.Coherent strict)
include h

lemma Tasks.Coherent.addTask {spec : TaskSpec} {maxRetries : Int} (hnew : spec.taskId ∉ t.added.map Prod.fst)
    (hnone : t.submissibleTasks.lookup spec.taskId = none) (hmax : -1 ≤ maxRetries) :
    (t.addTask spec maxRetries).Coherent strict := by
  have hlookup : ∀ x, (t.addTask spec maxRetries).submissibleTasks.lookup x =
      if x = spec.taskId then some { numRetriesLeft := maxRetries, reconstructableReturnIds := spec.trackedReturnIds }
      else t.submissibleTasks.lookup x := fun x => by
    rw [Tasks.addTask, lookup_insert]
  refine ⟨?_, ?_, ?_, ?_, ?_, ?_⟩
  · rw [Tasks.addTask, total_insert, total_erase_of_lookup_none hnone]
    simp only [TaskEntry.pendingOne, if_true]
    have := h.pendingTasks
    simp only [TaskEntry.pendingOne] at this
    omega
  · rw [Tasks.addTask, total_insert, total_erase_of_lookup_none hnone]
    simp only [TaskEntry.lineageBytes, if_true, zero_add]
    exact h.lineageBytes
  · intro x e hx
    rw [hlookup] at hx
    split at hx
    case isTrue hid =>
      cases hx
      exact ⟨⟨(nomatch ·), fun _ => (nomatch ·), hmax⟩, hid ▸ mem_cons_self⟩
    · obtain ⟨hok, hmem⟩ := h.entries x e hx
      exact ⟨hok, mem_cons_of_mem _ hmem⟩
  · intro x e hx y hy
    rw [hlookup] at hx
    split at hx
    case isTrue hid =>
      cases hx
      exact (TaskSpec.taskId_of_mem_trackedReturnIds hy).trans hid.symm
    · exact h.returns x e hx y hy
  · intro x hx
    exact h.unused x fun hm => hx (mem_cons_of_mem _ hm)
  · intro x n hx hn
    have hret : (t.addTask spec maxRetries).retries x = t.retries x := rfl
    rw [hret, retriesLeft, hlookup]
    rcases mem_cons.mp hx with heq | hmem
    · obtain ⟨rfl, rfl⟩ := Prod.mk.inj heq
      rw [if_pos rfl, h.unused _ hnew, Option.elim_some]
      dsimp only
      omega
    · have hne : x ≠ spec.taskId := fun he => hnew (he ▸ mem_map_of_mem hmem)
      rw [if_neg hne]
      exact h.budget x n hmem hn

lemma Tasks.Coherent.giveToRetry {left : Int} (delay : Bool) (hp : t.PendingWith id left) (hc : t.Credit id left) :
    (t.giveToRetry id delay).Coherent strict := by
  obtain ⟨e, he, _, rfl⟩ := hp
  have hret x : (t.giveToRetry id delay).retries x = t.retries x + if x = id then 1 else 0 := by
    rw [Tasks.retries, Tasks.giveToRetry, countP_append, Tasks.retries]
    by_cases hx : x = id
    · simp [Output.isRetryOf, hx]
    · simp [Output.isRetryOf, hx, Ne.symm hx]
  refine ⟨h.pendingTasks, h.lineageBytes, h.entries, h.returns, ?_, ?_⟩
  · intro x hx
    have hne : x ≠ id := fun heq => hx (heq ▸ (h.entries id e he).2)
    rw [hret, if_neg hne]
    exact h.unused x hx
  · intro x n hx hn
    obtain ⟨h0, hle⟩ := h.budget x n hx hn
    refine ⟨h0, ?_⟩
    rw [hret]
    by_cases heq : x = id
    · subst heq
      have := hc n hx hn
      have hleft : (t.giveToRetry x delay).retriesLeft x = e.numRetriesLeft := retriesLeft_of_lookup he
      rw [hleft, if_pos rfl]
      omega
    · rw [if_neg heq]
      exact hle

lemma Tasks.Coherent.markResubmitted (he : t.submissibleTasks.lookup id = some e) (hp : e.pending = false) :
    (t.markResubmitted id e).Coherent strict := by
  have hok := (h.entries id e he).1
  refine h.replace he rfl rfl rfl ?_ ?_ ⟨(nomatch ·), fun _ => (nomatch ·), ?_⟩ (.refl _) ?_
  · simp [Tasks.markResubmitted, TaskEntry.pendingOne, hp]
  · simp only [Tasks.markResubmitted, TaskEntry.lineageBytes, hp, false_eq_true, if_false, if_true]
    omega
  · have := hok.left
    dsimp only
    split <;> omega
  · dsimp only
    split <;> omega

lemma Tasks.Coherent.finish (he : t.submissibleTasks.lookup id = some e) (hp : e.pending = true)
    (directReturnIds : List ObjectID) :
    (t.finish cfg id (e.finished directReturnIds)).Coherent strict := by
  have hok := (h.entries id e he).1
  unfold Tasks.finish
  split
  case isTrue hr =>
    obtain ⟨hleft, hids⟩ := and_eq_true_iff.mp hr
    refine h.replace he rfl rfl rfl ?_ ?_ ⟨fun _ => ⟨?_, ?_⟩, fun _ _ => ?_, hok.left⟩
      (filter_subset_self _) fun h0 => ⟨h0, le_rfl⟩
    · simp [retain, pendingOne, finished, hp]
    · simp [retain, TaskEntry.lineageBytes, TaskEntry.finished, hp]
    · simpa using hids
    · exact Int.natCast_pos.mpr (cfg.byteSizeLong_pos _)
    · exact of_decide_eq_true hleft
  · refine h.remove he rfl rfl rfl ?_ ?_
    · simp [forget, pendingOne, hp]
    · simp [forget, TaskEntry.lineageBytes, hp]

lemma Tasks.Coherent.forget (hp : t.isTaskPending id = true) : (t.forget id).Coherent strict := by
  obtain ⟨e, he, hp⟩ := isTaskPending_iff.mp hp
  refine h.remove he rfl rfl rfl ?_ ?_
  · simp [Tasks.forget, pendingOne, hp]
  · simp [Tasks.forget, TaskEntry.lineageBytes, hp]

variable (he : t.submissibleTasks.lookup id = some e)
include he

lemma Tasks.Coherent.useRetry (hp : e.pending = true) : (t.withEntry id e.useRetry).Coherent strict := by
  have hok := (h.entries id e he).1
  have hpend : e.useRetry.pending = true := hp
  refine h.replace he rfl rfl rfl rfl rfl ⟨?_, ?_, ?_⟩ (.refl _) ?_
  · exact fun hf => absurd (hf.symm.trans hpend) false_ne_true
  · exact fun _ hf => absurd (hf.symm.trans hpend) false_ne_true
  · have := hok.left
    simp only [TaskEntry.useRetry]
    split <;> omega
  · simp only [TaskEntry.useRetry]
    split <;> omega

lemma Tasks.Coherent.cancel (hp : strict = true → e.pending = true) :
    (t.withEntry id { e with numRetriesLeft := 0 }).Coherent strict := by
  have hok := (h.entries id e he).1
  refine h.replace he rfl rfl rfl rfl rfl ⟨hok.finished, fun hs hf => ?_, (by decide : (-1 : Int) ≤ 0)⟩
    (.refl _) fun h0 => ⟨Int.le_refl 0, h0⟩
  exact absurd (hf.symm.trans (hp hs)) false_ne_true

end AmazonRay.TaskManager
