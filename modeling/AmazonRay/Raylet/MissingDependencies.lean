import AmazonRay.Raylet.DependencyIndex

/-! The missing dependencies that `DependencyManager` counts, and the tasks that become ready or stop being so. -/
namespace AmazonRay.Raylet
open Program List

namespace DependencyManager

variable {d t : DependencyManager} {o : ObjectID} {ids : List TaskID}

def Lists (d : DependencyManager) : Lister → ObjectID → Prop
  | .task taskId, o => ∃ e, d.queuedTaskRequests.lookup taskId = some e ∧ o ∈ e.dependencies
  | .getRequest workerId, o => ∃ request, d.getRequests.lookup workerId = some request ∧ o ∈ request.1
  | .waitRequest workerId, o => ∃ request, d.waitRequests.lookup workerId = some request ∧ o ∈ request

lemma lists_iff (d : DependencyManager) (l : Lister) (o : ObjectID) : d.Lists l o ↔ o ∈ d.listOf l := by
  cases l with
  | task x => cases hx : d.queuedTaskRequests.lookup x <;> simp [Lists, listOf, hx]
  | getRequest w => cases hw : d.getRequests.lookup w <;> simp [Lists, listOf, hw]
  | waitRequest w => cases hw : d.waitRequests.lookup w <;> simp [Lists, listOf, hw]

def missingCount (d : DependencyManager) (taskId : TaskID) : Option ℕ :=
  (d.queuedTaskRequests.lookup taskId).map TaskDependencies.numMissingDependencies

/-- The dependencies of a task that are not local are counted. -/
structure CountsMissing (localObjects : List ObjectID) (e : TaskDependencies) : Prop where
  missing : e.numMissingDependencies = (e.dependencies.filter (· ∉ localObjects)).length
  length : e.dependencies.length < 2 ^ 64

structure Coherent (d : DependencyManager) : Prop extends Tracked d where
  missing : ∀ x e, d.queuedTaskRequests.lookup x = some e → CountsMissing d.localObjects e

lemma coherent_start : Coherent {} := ⟨tracked_start, nofun⟩

lemma Coherent.congr (h : Coherent d) (ht : Tracked t) (hsame : SameTasks d t) : Coherent t := by
  refine ⟨ht, ?_⟩
  rw [hsame.tasks, hsame.localObjects]
  exact h.missing

lemma countP_missing (local₁ local₂ : List ObjectID) {o : ObjectID} (ho : o ∉ local₁) (ho' : o ∈ local₂)
    (hother : ∀ x, x ≠ o → (x ∈ local₂ ↔ x ∈ local₁)) (deps : List ObjectID) :
    (deps.filter (· ∉ local₁)).length = (deps.filter (· ∉ local₂)).length + deps.count o := by
  induction deps with
  | nil => rfl
  | cons x deps ih =>
    by_cases hx : x = o
    · subst hx
      rw [filter_cons_of_pos (by simpa using ho), filter_cons_of_neg (by simpa using ho'),
        count_cons_self, length_cons, ih]
      rfl
    · rw [count_cons_of_ne hx]
      by_cases hmem : x ∈ local₁
      · rw [filter_cons_of_neg (by simpa using hmem), filter_cons_of_neg (by simpa using (hother x hx).mpr hmem)]
        exact ih
      · rw [filter_cons_of_pos (by simpa using hmem),
          filter_cons_of_pos (by simpa using mt (hother x hx).mp hmem), length_cons, length_cons, ih]
        omega

lemma Coherent.count_eq (h : Coherent d) (o : ObjectID) {x : TaskID} {e : TaskDependencies}
    (hx : d.queuedTaskRequests.lookup x = some e) : e.dependencies.count o = if o ∈ e.dependencies then 1 else 0 := by
  have hnodup := h.nodup (.task x)
  simp only [listOf, hx, Option.map_some, Option.getD_some] at hnodup
  by_cases ho : o ∈ e.dependencies
  · rw [if_pos ho, count_eq_one_of_mem hnodup ho]
  · rw [if_neg ho, count_eq_zero.mpr ho]

section

variable {count : ℕ → ℕ} {selected : ℕ → Bool}

lemma Coherent.recounted (h : Coherent d) (ht : Tracked t) (hrecounts : Recounts count selected o d ids t)
    (hcount : ∀ e, CountsMissing d.localObjects e → e.dependencies.count o = (if o ∈ e.dependencies then 1 else 0) →
      (recounted count o e).numMissingDependencies = (e.dependencies.filter (· ∉ t.localObjects)).length) : Coherent t := by
  refine ⟨ht, fun x e he => ?_⟩
  rw [hrecounts.tasks] at he
  obtain ⟨e', he', rfl⟩ := Option.map_eq_some_iff.mp he
  have hdependencies : (DependencyManager.recounted count o e').dependencies = e'.dependencies := by
    unfold DependencyManager.recounted
    split <;> rfl
  refine ⟨?_, ?_⟩
  · rw [hdependencies]
    exact hcount e' (h.missing x e' he') (h.count_eq o he')
  · rw [hdependencies]
    exact (h.missing x e' he').length

lemma Recounts.mem_iff (hrecounts : Recounts count selected o d ids t) {p q : ℕ → Prop}
    (hselected : ∀ x e, d.queuedTaskRequests.lookup x = some e →
      (o ∈ e.dependencies ∧ selected e.numMissingDependencies = true ↔
        p e.numMissingDependencies ∧ q (DependencyManager.recounted count o e).numMissingDependencies)) (x : TaskID) :
    x ∈ ids ↔ (∃ n, p n ∧ d.missingCount x = some n) ∧ ∃ n, q n ∧ t.missingCount x = some n := by
  rw [hrecounts.mem, missingCount, missingCount, hrecounts.tasks]
  cases he : d.queuedTaskRequests.lookup x with
  | none => simp
  | some e => simpa using hselected x e he

end

lemma coherent_handleObjectMissing (h : Coherent d) (ho : o ∈ d.localObjects) :
    Completes d (handleObjectMissing o) fun ids t => Coherent t ∧ ids.Nodup ∧
      ∀ x, x ∈ ids ↔ d.missingCount x = some 0 ∧ ∃ n, n ≠ 0 ∧ t.missingCount x = some n := by
  refine (tracked_handleObjectMissing h.toTracked o).conseq (fun _ ht => ht) ?_ fun _ _ he => he.2 ho
  rintro ids t ⟨ht, hlocal, hrecounts⟩
  have hmissing : ∀ e : TaskDependencies, (e.dependencies.filter (· ∉ d.localObjects.filter (· ≠ o))).length =
      (e.dependencies.filter (· ∉ d.localObjects)).length + e.dependencies.count o := by
    intro e
    refine countP_missing _ _ (by simp) ho (fun x hx => ?_) e.dependencies
    simp [hx]
  refine ⟨h.recounted ht hrecounts fun e he hcount => ?_, hrecounts.nodup, fun x => ?_⟩
  · rw [hlocal, hmissing, hcount, ← he.missing, DependencyManager.recounted]
    split <;> rfl
  · have hmem := hrecounts.mem_iff (p := (· = 0)) (q := (· ≠ 0)) (fun x e _ => ?_) x
    · simpa using hmem
    · by_cases hdep : o ∈ e.dependencies <;> simp [DependencyManager.recounted, hdep]

lemma coherent_handleObjectLocal (h : Coherent d) (ho : o ∉ d.localObjects) :
    Completes d (handleObjectLocal o) fun ids t => Coherent t ∧ ids.Nodup ∧
      ∀ x, x ∈ ids ↔ (∃ n, n ≠ 0 ∧ d.missingCount x = some n) ∧ t.missingCount x = some 0 := by
  refine (tracked_handleObjectLocal h.toTracked o).conseq (fun _ ht => ht) ?_ fun _ _ he => ho he.2
  rintro ids t ⟨ht, hlocal, hrecounts⟩
  have hmissing : ∀ e : TaskDependencies, (e.dependencies.filter (· ∉ d.localObjects)).length =
      (e.dependencies.filter (· ∉ o :: d.localObjects)).length + e.dependencies.count o := by
    intro e
    refine countP_missing _ _ ho mem_cons_self (fun x hx => ?_) e.dependencies
    rw [mem_cons]
    exact or_iff_right hx
  -- the counter of a task that depends on the object is positive, so that it does not wrap around
  have hcounted : ∀ e : TaskDependencies, CountsMissing d.localObjects e →
      e.dependencies.count o = (if o ∈ e.dependencies then 1 else 0) →
      (o ∈ e.dependencies → e.numMissingDependencies ≠ 0) ∧
      (DependencyManager.recounted (fun n => (n + (2 ^ 64 - 1)) % 2 ^ 64) o e).numMissingDependencies =
        e.numMissingDependencies - (if o ∈ e.dependencies then 1 else 0) := by
    intro e he hcount
    have hle : (e.dependencies.filter (· ∉ d.localObjects)).length ≤ e.dependencies.length := length_filter_le _ _
    have hlength := he.length
    have hsum := hmissing e
    rw [hcount, ← he.missing] at hsum
    rw [← he.missing] at hle
    unfold DependencyManager.recounted
    by_cases hdep : o ∈ e.dependencies
    · simp only [hdep, if_true] at hsum ⊢
      omega
    · simp [hdep]
  refine ⟨h.recounted ht hrecounts fun e he hcount => ?_, hrecounts.nodup, fun x => ?_⟩
  · have hsum := hmissing e
    rw [← he.missing, hcount] at hsum
    rw [hlocal, (hcounted e he hcount).2]
    omega
  · have hmem := hrecounts.mem_iff (p := (· ≠ 0)) (q := (· = 0)) (fun x e he => ?_) x
    · simpa using hmem
    · obtain ⟨hpos, hcount⟩ := hcounted e (h.missing x e he) (h.count_eq o he)
      by_cases hdep : o ∈ e.dependencies
      · have := hpos hdep
        simp only [hdep, if_true, true_and, beq_iff_eq] at hcount ⊢
        omega
      · simp only [hdep, if_false, false_and, false_iff] at hcount ⊢
        omega

end DependencyManager

inductive DependencyCall where
  | requestTaskDependencies (taskId : TaskID) (requiredObjects : List ObjectReference)
  | removeTaskDependencies (taskId : TaskID)
  | other (op : DependencyOp)
  deriving DecidableEq, Repr

def DependencyCall.run : DependencyCall → DependencyM Unit
  | .requestTaskDependencies taskId refs => discard (DependencyManager.requestTaskDependencies taskId refs)
  | .removeTaskDependencies taskId => DependencyManager.removeTaskDependencies taskId
  | .other op => op.run

/-- Dependencies are requested once per task, and objects come and go in turn. A vector has fewer than `2 ^ 64`
elements. -/
def DependencyCall.Allowed : DependencyCall → DependencyManager → Prop
  | .requestTaskDependencies taskId refs, d => d.queuedTaskRequests.lookup taskId = none ∧ refs.length < 2 ^ 64
  | .removeTaskDependencies taskId, d => d.queuedTaskRequests.lookup taskId ≠ none
  | .other (.handleObjectLocal o), d => o ∉ d.localObjects
  | .other (.handleObjectMissing o), d => o ∈ d.localObjects
  | .other _, _ => True

open DependencyManager

variable {d : DependencyManager}

lemma coherent_run (call : DependencyCall) (ha : call.Allowed d) (h : Coherent d) :
    Completes d call.run fun _ => Coherent := by
  have hd := h.toTracked
  have hsame : ∀ t, Tracked t ∧ SameTasks d t → Coherent t := fun t ht => h.congr ht.1 ht.2
  cases call with
  | requestTaskDependencies taskId refs =>
    refine .bind (tracked_requestTaskDependencies hd (not_not.mpr ha.1) refs) fun _ => .pure ?_
    rintro t ⟨ht, hlocal, id, htasks⟩
    refine ⟨ht, fun x e he => ?_⟩
    rw [htasks] at he
    rcases Table.lookup_of_insert he with ⟨-, rfl⟩ | ⟨-, he⟩
    · refine ⟨by rw [hlocal], (dedup_sublist _).length_le.trans_lt ?_⟩
      rw [length_map]
      exact ha.2
    · exact hlocal ▸ h.missing x e he
  | removeTaskDependencies taskId =>
    refine (tracked_removeTaskDependencies hd ha).post ?_
    rintro _ t ⟨ht, htasks, hlocal⟩
    refine ⟨ht, fun x e he => ?_⟩
    rw [htasks] at he
    obtain ⟨-, he⟩ := Table.lookup_of_erase he
    exact hlocal ▸ h.missing x e he
  | other op =>
    cases op with
    | startOrUpdateWaitRequest w refs => exact (tracked_startOrUpdateWaitRequest hd w refs).post fun _ => hsame
    | cancelWaitRequest w => exact (tracked_cancelWaitRequest hd w).post fun _ => hsame
    | startOrUpdateGetRequest w refs => exact (tracked_startOrUpdateGetRequest hd w refs).post fun _ => hsame
    | cancelGetRequest w => exact (tracked_cancelGetRequest hd w).post fun _ => hsame
    | handleObjectMissing o =>
      exact .bind (coherent_handleObjectMissing h ha) fun _ => .pure fun _ ht => ht.1
    | handleObjectLocal o =>
      exact .bind (coherent_handleObjectLocal h ha) fun _ => .pure fun _ ht => ht.1

lemma reaches_coherent (h : Reaches DependencyCall.run DependencyCall.Allowed {} d) :
    Coherent d :=
  h.invariant coherent_start fun call _ ha hs => coherent_run call ha hs

structure DependencyManager.Exact (d : DependencyManager) : Prop where
  required : ∀ o, (d.requiredObjects.lookup o).isSome ↔ ∃ l, d.Lists l o
  listers : ∀ o e, d.requiredObjects.lookup o = some e → e.Distinct ∧ ∀ l, e.Lists l ↔ d.Lists l o
  missing : ∀ t e, d.queuedTaskRequests.lookup t = some e →
    e.dependencies.Nodup ∧ e.numMissingDependencies = (e.dependencies.filter (· ∉ d.localObjects)).length

lemma DependencyManager.Coherent.exact (h : Coherent d) : d.Exact := by
  refine ⟨fun o => ?_, fun o e he => ?_, fun t e he => ⟨?_, (h.missing t e he).missing⟩⟩
  · simp only [lists_iff]
    cases he : d.requiredObjects.lookup o with
    | none => simp [h.indexed.not_mem he]
    | some e => simp [(h.indexed.entry he).1]
  · simp only [lists_iff]
    exact (h.indexed.entry he).2
  · have hnodup := h.nodup (.task t)
    rwa [DependencyManager.listOf, he] at hnodup

/-- In every state of a run the index is exact, no check stops the next call, and the
tasks that become ready or stop being ready are returned. -/
theorem dependencies_exact {d : DependencyManager} (h : Reaches DependencyCall.run DependencyCall.Allowed {} d) :
    d.Exact ∧ (∀ call : DependencyCall, call.Allowed d → ∃ t, call.run d = .ok () t) ∧
    (∀ o ∉ d.localObjects, ∃ ids t, handleObjectLocal o d = .ok ids t ∧ ids.Nodup ∧
      ∀ x, x ∈ ids ↔ (∃ n, n ≠ 0 ∧ d.missingCount x = some n) ∧ t.missingCount x = some 0) ∧
    ∀ o ∈ d.localObjects, ∃ ids t, handleObjectMissing o d = .ok ids t ∧ ids.Nodup ∧
      ∀ x, x ∈ ids ↔ d.missingCount x = some 0 ∧ ∃ n, n ≠ 0 ∧ t.missingCount x = some n := by
  have hc := reaches_coherent h
  refine ⟨hc.exact, fun call ha => ?_, fun o ho => ?_, fun o ho => ?_⟩
  · obtain ⟨_, t, hrun, _⟩ := (coherent_run call ha hc).returns rfl
    exact ⟨t, hrun⟩
  · obtain ⟨ids, t, hrun, _, hids⟩ := (coherent_handleObjectLocal hc ho).returns rfl
    exact ⟨ids, t, hrun, hids⟩
  · obtain ⟨ids, t, hrun, _, hids⟩ := (coherent_handleObjectMissing hc ho).returns rfl
    exact ⟨ids, t, hrun, hids⟩

instance (call : DependencyCall) (d : DependencyManager) : Decidable (call.Allowed d) := by
  unfold DependencyCall.Allowed
  split <;> infer_instance

/-- A task and two workers ask for an object, which then comes. -/
theorem dependencies_exact_arrival :
    ∃ d, Reaches DependencyCall.run DependencyCall.Allowed {} d ∧ d.missingCount 1 = some 0 ∧ d.Exact := by
  refine exists_after [.requestTaskDependencies 1 [⟨⟨0, 1⟩, ⟨0, 0⟩⟩, ⟨⟨0, 1⟩, ⟨0, 0⟩⟩], .other (.startOrUpdateGetRequest 5 [⟨⟨0, 1⟩, ⟨0, 0⟩⟩]),
        .other (.startOrUpdateWaitRequest 6 [⟨⟨0, 1⟩, ⟨0, 0⟩⟩]), .other (.handleObjectLocal ⟨0, 1⟩)]
    (·.missingCount 1)
    (some 0) (by decide +kernel) fun _ hd hcount => ?_
  exact ⟨hcount, (dependencies_exact hd).1⟩

end AmazonRay.Raylet
