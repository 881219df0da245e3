import AmazonRay.TaskManager.Coherence

/-! The attempt of a pending task waits to be submitted, or for its dependencies, or was
handed to a submitter. -/
namespace AmazonRay.TaskManager
open Program ReferenceCounter List Function Tasks Table

def resolutions (outputs : List Output) : List (TaskID × Bool) := outputs.filterMap Output.resolution

def TaskState.unresolved (state : TaskState) : Bool :=
  !decide (state.actorDependenciesRemaining = 0 ∧ state.objDependenciesRemaining = 0)

def TaskState.Counted (state : TaskState) : Prop :=
  state.objDependenciesRemaining =
    Table.total (fun _ o => if o = none then 1 else 0) state.localDependencies

def Tasks.unresolved (t : Tasks) (x : TaskID) : Nat :=
  t.resolving.countP fun state => decide (state.task = x) && state.unresolved

def Tasks.handed (t : Tasks) (x : TaskID) : Int :=
  (if t.isTaskPending x then 1 else 0) - t.toSubmit.count x - t.unresolved x

/-- What is watched: the outputs before, whether the dependencies are counted, whether nothing is resolved, and tasks
that stay pending. -/
structure Watch where
  before : List Output
  tracked : Prop
  silent : Prop
  kept : TaskID → Option TaskType

/-- The attempts of the submitters are those of `a` and those resolved meanwhile. -/
structure Attempts (w : Watch) (a : TaskID → Int) (t : Tasks) : Prop where
  counted : w.tracked → ∀ state ∈ t.resolving, state.Counted
  kept : ∀ x type, w.kept x = some type → t.isTaskPending x = true ∧ (t.messages x).type = type
  handed : ∃ new, t.outputs = w.before ++ new ∧ (w.silent → resolutions new = []) ∧
    ∀ x, t.handed x = a x + ((resolutions new).map Prod.fst).count x

section

variable {w : Watch} {a a' : TaskID → Int} {t t' : Tasks} {id : TaskID}
  {e : TaskEntry}

lemma Tasks.isTaskPending_insert (h : t'.submissibleTasks = t.submissibleTasks.insert id e) (x : TaskID) :
    t'.isTaskPending x = if x = id then e.pending else t.isTaskPending x := by
  rw [isTaskPending, h, lookup_insert]
  split <;> rfl

lemma Tasks.isTaskPending_erase (h : t'.submissibleTasks = t.submissibleTasks.erase id) (x : TaskID) :
    t'.isTaskPending x = if x = id then false else t.isTaskPending x := by
  rw [isTaskPending, h, lookup_erase]
  split <;> rfl

lemma Tasks.isTaskPending_of_lookup (h : t.submissibleTasks.lookup id = some e) : t.isTaskPending id = e.pending := by
  rw [isTaskPending, h]
  rfl

section

variable (h : Attempts w a t)
include h

lemma Attempts.moved (ho : t'.outputs = t.outputs) (hc : w.tracked → ∀ state ∈ t'.resolving, state.Counted)
    (hk : ∀ x, (w.kept x).isSome → t.isTaskPending x = true →
      t'.isTaskPending x = true ∧ (t'.messages x).type = (t.messages x).type)
    (hx : ∀ x, t'.handed x - t.handed x = a' x - a x) : Attempts w a' t' := by
  obtain ⟨new, hnew, hs, hh⟩ := h.handed
  refine ⟨hc, fun x type hkept => ?_, new, ho.trans hnew, hs, fun x => ?_⟩
  · obtain ⟨hp, ht⟩ := h.kept x type hkept
    exact (hk x (Option.isSome_of_mem hkept) hp).imp_right fun hm => hm.trans ht
  have := hx x
  have := hh x
  omega

lemma Attempts.same (ho : t'.outputs = t.outputs) (hr : t'.resolving = t.resolving) (hs : t'.toSubmit = t.toSubmit)
    (hp : ∀ x, t'.isTaskPending x = t.isTaskPending x)
    (hm : ∀ x, (t'.messages x).type = (t.messages x).type) : Attempts w a t' := by
  refine h.moved ho (hr ▸ h.counted) (fun x _ hx => ⟨(hp x).trans hx, hm x⟩) fun x => ?_
  rw [Tasks.handed, Tasks.handed, Tasks.unresolved, Tasks.unresolved, hp, hs, hr]
  omega

lemma Attempts.entries (ho : t'.outputs = t.outputs) (hr : t'.resolving = t.resolving)
    (hk : ∀ x, (w.kept x).isSome → t.isTaskPending x = true →
      t'.isTaskPending x = true ∧ (t'.messages x).type = (t.messages x).type)
    (hx : ∀ x, (if t'.isTaskPending x then 1 else 0 : Int) - t'.toSubmit.count x =
        (if t.isTaskPending x then 1 else 0) - t.toSubmit.count x + (a' x - a x)) :
    Attempts w a' t' := by
  refine h.moved ho (hr ▸ h.counted) hk fun x => ?_
  have := hx x
  rw [Tasks.handed, Tasks.handed, Tasks.unresolved, Tasks.unresolved, hr]
  omega

lemma Attempts.wrote {o : Output} (ho : o.resolution = none) : Attempts w a { t with outputs := t.outputs ++ [o] } := by
  obtain ⟨new, hnew, hs, hh⟩ := h.handed
  have hres : resolutions (new ++ [o]) = resolutions new := by simp [resolutions, ho]
  refine ⟨h.counted, h.kept, new ++ [o], ?_, ?_, ?_⟩
  · rw [hnew, append_assoc]
  · rw [hres]
    exact hs
  · rw [hres]
    exact hh

end

lemma Attempts.resolved (h : Attempts w (update a id (a id + 1)) t) (hs : ¬ w.silent) (ok : Bool) :
    Attempts w a { t with outputs := t.outputs ++ [.resolved id ok] } := by
  obtain ⟨new, hnew, _, hh⟩ := h.handed
  have hres : resolutions (new ++ [.resolved id ok]) = resolutions new ++ [(id, ok)] := by
    simp [resolutions, Output.resolution]
  refine ⟨h.counted, h.kept, new ++ [.resolved id ok], ?_, fun h => absurd h hs, fun x => ?_⟩
  · rw [hnew, append_assoc]
  · have hx : Tasks.handed { t with outputs := t.outputs ++ [.resolved id ok] } x = t.handed x := rfl
    rw [hx, hh x, hres, map_append, count_append, update_apply]
    by_cases hid : x = id
    · subst hid
      simp
      omega
    · simp [hid, Ne.symm hid]

lemma Attempts.ended (h : Attempts w a t) (hn : w.kept id = none) (hp : t.isTaskPending id = true)
    (hx : ∀ x, t'.isTaskPending x = if x = id then false else t.isTaskPending x)
    (ho : t'.outputs = t.outputs) (hr : t'.resolving = t.resolving) (hs : t'.toSubmit = t.toSubmit)
    (hm : t'.messages = t.messages) : Attempts w (update a id (a id - 1)) t' := by
  refine h.entries ho hr (fun x hk hp => ?_) fun x => ?_
  · rw [hx, hm, if_neg (by rintro rfl; rw [hn] at hk; cases hk)]
    exact ⟨hp, rfl⟩
  rw [hx, hs, update_apply]
  by_cases hid : x = id
  · subst hid
    simp [hp]
    omega
  · simp [hid]

lemma Tasks.isTaskPending_removeLineageReference (o : ObjectID) (t : Tasks) (x : TaskID) :
    (t.removeLineageReference o).2.2.isTaskPending x = t.isTaskPending x := by
  unfold removeLineageReference
  cases he : t.submissibleTasks.lookup o.taskId with
  | none => rfl
  | some e =>
    dsimp only
    have hpending := isTaskPending_of_lookup he
    split
    case isTrue hr =>
      rw [isTaskPending_erase rfl x]
      split
      case isTrue hid => rw [hid, hpending, hr.2]
      · rfl
    · rw [isTaskPending_insert rfl x]
      split
      case isTrue hid => rw [hid, hpending]
      · rfl

lemma Tasks.removeLineageReference_same (o : ObjectID) (t : Tasks) :
    let u := (t.removeLineageReference o).2.2
    u.outputs = t.outputs ∧ u.resolving = t.resolving ∧ u.toSubmit = t.toSubmit ∧ u.added = t.added ∧
      u.messages = t.messages := by
  unfold removeLineageReference
  split
  · exact ⟨rfl, rfl, rfl, rfl, rfl⟩
  · dsimp only
    split <;> exact ⟨rfl, rfl, rfl, rfl, rfl⟩

lemma stable_attempts (w : Watch) (a : TaskID → Int) : Stable (Attempts w a) := by
  intro o t h
  obtain ⟨houtputs, hresolving, htoSubmit, -, hmessages⟩ := removeLineageReference_same o t
  exact h.same houtputs hresolving htoSubmit (isTaskPending_removeLineageReference o t) fun x => by rw [hmessages]

lemma Attempts.addTask (h : Attempts w a t) {spec : TaskSpec} (maxRetries : Int)
    (hn : t.submissibleTasks.lookup spec.taskId = none) :
    Attempts w a (t.addTask spec maxRetries) := by
  have hp : t.isTaskPending spec.taskId = false := by rw [isTaskPending, hn]; rfl
  refine h.entries rfl rfl (fun x _ hx => ?_) fun x => ?_
  · have hne : x ≠ spec.taskId := by
      rintro rfl
      rw [hp] at hx
      cases hx
    rw [isTaskPending_insert rfl x, if_neg hne]
    exact ⟨hx, congrArg TaskSpec.type (update_of_ne hne _ _)⟩
  rw [Tasks.isTaskPending_insert rfl x, Tasks.addTask, count_cons]
  by_cases hx : x = spec.taskId
  · subst hx
    simp [hp]
  · simp [hx, Ne.symm hx]

lemma Attempts.markResubmitted (h : Attempts w a t)
    (he : t.submissibleTasks.lookup id = some e) (hp : e.pending = false) :
    Attempts w (update a id (a id + 1)) (t.markResubmitted id e) := by
  refine h.entries rfl rfl (fun x _ hx => ⟨?_, rfl⟩) fun x => ?_
  · rw [isTaskPending_insert rfl x]
    split
    · rfl
    · exact hx
  rw [Tasks.isTaskPending_insert rfl x, Tasks.markResubmitted, update_apply]
  by_cases hx : x = id
  · subst hx
    simp [isTaskPending_of_lookup he, hp]
    omega
  · simp [hx]

lemma Attempts.giveToRetry (h : Attempts w (update a id (a id + 1)) t)
    (delay : Bool) : Attempts w a (t.giveToRetry id delay) := by
  refine Attempts.wrote (t := { t with toSubmit := id :: t.toSubmit }) (h.entries rfl rfl
    (fun _ _ hx => ⟨hx, rfl⟩) fun x => ?_) rfl
  have hp : isTaskPending { t with toSubmit := id :: t.toSubmit } x = t.isTaskPending x := rfl
  rw [hp, count_cons, update_apply]
  by_cases hx : x = id
  · subst hx
    simp
    omega
  · simp [hx, Ne.symm hx]

lemma Attempts.withEntry (h : Attempts w a t) {e' : TaskEntry}
    (he : t.submissibleTasks.lookup id = some e) (hp : e'.pending = e.pending) :
    Attempts w a (t.withEntry id e') := by
  refine h.same rfl rfl rfl (fun x => ?_) fun _ => rfl
  rw [isTaskPending_insert rfl x]
  split
  case isTrue hx => rw [hx, isTaskPending_of_lookup he, hp]
  · rfl

lemma Attempts.submitted (h : Attempts w a t) (hm : id ∈ t.toSubmit) :
    Attempts w (update a id (a id + 1)) { t with toSubmit := t.toSubmit.erase id } := by
  refine h.entries rfl rfl (fun _ _ hx => ⟨hx, rfl⟩) fun x => ?_
  have hp : isTaskPending { t with toSubmit := t.toSubmit.erase id } x = t.isTaskPending x := rfl
  rw [hp, count_erase, update_apply]
  by_cases hx : x = id
  · subst hx
    have := count_pos_iff.mpr hm
    simp
    omega
  · simp [hx, Ne.symm hx]

lemma Attempts.resolving (h : Attempts w (update a id (a id + 1)) t)
    {state : TaskState} (hid : state.task = id) (hu : state.unresolved = true) (hc : state.Counted) :
    Attempts w a { t with resolving := t.resolving ++ [state] } := by
  refine h.moved rfl ?_ (fun _ _ hx => ⟨hx, rfl⟩) fun x => ?_
  · intro htr other hm
    rcases mem_append.mp hm with hm | hm
    · exact h.counted htr other hm
    · exact mem_singleton.mp hm ▸ hc
  · have hp : Tasks.isTaskPending { t with resolving := t.resolving ++ [state] } x = t.isTaskPending x := rfl
    simp only [Tasks.handed, Tasks.unresolved, hp, countP_append, update_apply]
    by_cases hx : x = id
    · subst hx
      simp [hid, hu]
    · simp [hx, Ne.symm hx, hid]

lemma Attempts.putState (h : Attempts w a t) {i : Nat} {state state' : TaskState}
    (hi : t.resolving[i]? = some state) (hu : state.unresolved = true) (hid : state'.task = state.task)
    (hc : w.tracked → state'.Counted) :
    Attempts w (if state'.unresolved then a else update a state'.task (a state'.task + 1))
      { t with resolving := t.resolving.set i state' } := by
  obtain ⟨hlt, hget⟩ := List.getElem?_eq_some_iff.mp hi
  refine h.moved rfl ?_ (fun _ _ hx => ⟨hx, rfl⟩) fun x => ?_
  · intro htr other hm
    rcases mem_or_eq_of_mem_set hm with hm | rfl
    · exact h.counted htr other hm
    · exact hc htr
  · have hp : Tasks.isTaskPending { t with resolving := t.resolving.set i state' } x =
      t.isTaskPending x := rfl
    have hpos : (decide (state.task = x) && state.unresolved) = true →
        0 < t.resolving.countP fun state => decide (state.task = x) && state.unresolved :=
      fun hx => countP_pos_iff.mpr ⟨state, mem_of_getElem? hi, hx⟩
    simp only [Tasks.handed, Tasks.unresolved, hp, countP_set hlt, hget, hid, hu,
      Bool.and_true, decide_eq_true_eq] at hpos ⊢
    by_cases hx : state.task = x
    · have := hpos hx
      cases hu' : state'.unresolved
      · simp [hx]
        omega
      · simp [hx]
        omega
    · cases hu' : state'.unresolved <;> simp [hx, Ne.symm hx]

end

variable {cfg : WorkerConfig} {w : Watch} {a : TaskID → Int} {id : ObjectID}

abbrev KeepsAttempts (w : Watch) (a : TaskID → Int) {α : Type}
    (x : WorkerM α) : Prop :=
  Triple (fun s => Attempts w a s.lineage) x
    (fun _ s => Attempts w a s.lineage) fun _ _ => True

lemma attempts_modifyTasks {a' : TaskID → Int} {f : Tasks → Tasks} (h : ∀ t, Attempts w a t → Attempts w a' (f t)) :
    Partly (fun s => Attempts w a s.lineage) (modifyTasks f) fun _ s => Attempts w a' s.lineage :=
  triple_modifyTasks fun s hs => h s.lineage hs

lemma attempts_shutdownIfNeeded : KeepsAttempts w a shutdownIfNeeded := by
  refine attempts_modifyTasks fun t h => ?_
  split
  · exact h.same rfl rfl rfl (fun _ => rfl) fun _ => rfl
  · exact h

lemma TaskSpec.lookup_localDependencies (spec : TaskSpec) {o : Option RayObject}
    (h : spec.localDependencies.lookup id = some o) : o = none := by
  have hdeps : ∀ id o, (∅ : AList fun _ : ObjectID => Option RayObject).lookup id = some o → o = none := by simp
  unfold localDependencies at h
  generalize (∅ : AList fun _ : ObjectID => Option RayObject) = deps at h hdeps
  generalize spec.args = args at h
  induction args generalizing deps with
  | nil => exact hdeps id o h
  | cons arg args ih =>
    refine ih _ (fun id o ho => ?_) h
    cases arg with
    | byValue _ => exact hdeps id o ho
    | byReference x =>
      rw [lookup_insert] at ho
      split at ho
      · exact (Option.some.inj ho).symm
      · exact hdeps id o ho

lemma TaskState.Counted.fetched {state : TaskState} (h : state.Counted)
    (hid : state.localDependencies.lookup id = some none) (object : RayObject) :
    state.unresolved = true ∧ (state.fetched id object).Counted := by
  have htotal := total_of_lookup (f := fun _ o => if o = none then 1 else 0) hid
  rw [TaskState.Counted, htotal] at h
  refine ⟨?_, ?_⟩
  · simp [TaskState.unresolved, h]
  · rw [TaskState.Counted, TaskState.fetched, total_insert]
    simp [h]

lemma replyLogic_attempts (cfg : WorkerConfig) (w : Watch) (a : TaskID → Int) :
    ReplyLogic cfg fun _ x => KeepsAttempts w a x where
  toComposes := composes_triple _ _
  call hx := triple_lineageStep (stable_attempts w a) (hx _ (callLogic_lineage cfg.counter))
  output _ _ ho := attempts_modifyTasks fun _ h => h.wrote ho

lemma attempts_addPendingTask (callerAddress : WorkerAddress) (spec : TaskSpec) (maxRetries : Int) :
    KeepsAttempts w a (addPendingTask cfg callerAddress spec maxRetries) := by
  have hc := callLogic_lineage cfg.counter
  have hJ := stable_attempts w a
  refine .seq (triple_lineageStep hJ ((taskCallLogic_lineage _).updateSubmittedTaskReferences _ _)) ?_
  refine .seq (triple_lineageStep hJ (hc.forM (fun id => hc.addOwnedObject id _ _ _ _ _) _)) (onTasks fun t => ?_)
  refine .seq (.checked fun _ _ _ => trivial) (triple_modifyTasks ?_)
  rintro s ⟨⟨hs, rfl⟩, hn⟩
  exact hs.addTask maxRetries hn

lemma attempts_submitTask (hs : ¬ w.silent) (isActorInRegistering : ActorID → Bool) (id : TaskID) :
    Partly (fun s => Attempts w a s.lineage ∧ id ∈ s.lineage.toSubmit)
      (submitTask cfg isActorInRegistering id) fun _ s => Attempts w a s.lineage := by
  refine .seq (triple_modifyTasks (Q := fun _ s => Attempts w (update a id (a id + 1)) s.lineage)
    fun s hs => hs.1.submitted hs.2) (onTasks fun t => ?_)
  refine .ite (fun _ => ?_) fun hn => ?_
  · exact (attempts_modifyTasks fun _ h => h.resolved hs true).pre fun _ hs => hs.1
  · refine (attempts_modifyTasks fun _ h => h.resolving rfl ?_ ?_).pre fun _ hs => hs.1
    · simp only [TaskState.unresolved, Bool.not_eq_true', decide_eq_false_iff_not, length_eq_zero_iff]
      exact fun h => hn ⟨h.2, h.1⟩
    · rw [TaskState.Counted, total_congr (g := fun _ _ => 1) fun _ _ ho => by
        rw [(t.messages id).lookup_localDependencies ho, if_pos rfl]]
      simp [total]

lemma attempts_complete (hs : ¬ w.silent) (state : TaskState) :
    Partly (fun s => Attempts w (if state.unresolved then a else
        update a state.task (a state.task + 1)) s.lineage)
      (complete state) fun _ s => Attempts w a s.lineage := by
  refine .onlyIf (fun h => ?_) fun h s hs => ?_
  · have hu : state.unresolved = false := by simp [TaskState.unresolved, h]
    rw [hu]
    exact attempts_modifyTasks fun t ht => ht.resolved hs state.ok
  · have hu : state.unresolved = true := by simpa [TaskState.unresolved, ← not_and_or] using h
    rwa [hu] at hs

lemma attempts_inlineDependencies (deps : AList fun _ : ObjectID => Option RayObject) (id : TaskID) :
    KeepsAttempts w a (inlineDependencies deps id) := by
  have h := composes_triple (fun s : Worker => Attempts w a s.lineage) fun (_ : Check) _ => True
  refine h.bind triple_seeTasks fun t => ?_
  refine h.bind (.tested fun _ _ => trivial) fun _ => h.seq ?_ ?_
  · refine attempts_modifyTasks fun t ht => ht.same rfl rfl rfl (fun _ => rfl) fun x => ?_
    simp only [inlineArgs, update_apply]
    split
    case isTrue hx => rw [hx]
    · rfl
  · exact h.bind (.tested fun _ _ => trivial) fun _ => h.pure _

lemma attempts_dependencyFetched (hs : ¬ w.silent) (htr : w.tracked) (i : Nat) (id : ObjectID) (object : RayObject) :
    Partly (fun s => Attempts w a s.lineage ∧
        (s.lineage.resolving[i]?.any fun state => state.localDependencies.lookup id = some none) = true)
      (dependencyFetched cfg i id object) fun _ s => Attempts w a s.lineage := by
  refine onTasks fun t => ?_
  cases hi : t.resolving[i]? with
  | none => exact .pure fun s hs => hs.1.1
  | some state =>
    refine .bind (.bind (Q := fun _ s => Attempts w (if (state.fetched id object).unresolved then a else
        update a state.task (a state.task + 1)) s.lineage) ?_ fun _ => ?_) fun _ =>
      .skip
    · refine triple_modifyTasks ?_
      rintro s ⟨⟨hs, hany⟩, rfl⟩
      rw [hi] at hany
      obtain ⟨hu, hc⟩ := (hs.counted htr state (mem_of_getElem? hi)).fetched (of_decide_eq_true hany) object
      exact hs.putState hi hu rfl fun _ => hc
    refine .onlyIf (fun _ => ?_) fun hne s hs => ?_
    · refine .bind (attempts_inlineDependencies _ _) fun inlined => ?_
      refine .bind (.onlyIf (fun _ => ?_) fun _ _ hs => hs) fun _ => attempts_complete hs (state.fetched id object)
      exact triple_lineageStep (stable_attempts _ _) ((taskCallLogic_lineage _).updateSubmittedTaskReferences _ _)
    · have hu : (state.fetched id object).unresolved = true := by simp [TaskState.unresolved, hne]
      rwa [if_pos hu] at hs

lemma attempts_actorRegistered (hs : ¬ w.silent) (i : Nat) (ok : Bool) : Partly (fun s => Attempts w a s.lineage ∧
        (s.lineage.resolving[i]?.any fun state => 0 < state.actorDependenciesRemaining) = true)
      (actorRegistered i ok) fun _ s => Attempts w a s.lineage := by
  refine onTasks fun t => ?_
  cases hi : t.resolving[i]? with
  | none => exact .pure fun s hs => hs.1.1
  | some state =>
    refine .seq (.bind (triple_modifyTasks ?_) fun _ =>
      attempts_complete hs (state.registered ok)) (.pure fun _ hs => hs)
    rintro s ⟨⟨hs, hany⟩, rfl⟩
    rw [hi] at hany
    have hpos : 0 < state.actorDependenciesRemaining := of_decide_eq_true hany
    have hu : state.unresolved = true := by simp [TaskState.unresolved, Nat.ne_of_gt hpos]
    exact hs.putState hi hu rfl fun htr => hs.counted htr state (mem_of_getElem? hi)

lemma attempts_resubmitTask (id : TaskID) : KeepsAttempts w a (resubmitTask cfg id) := by
  refine onTasks fun t => ?_
  cases he : t.submissibleTasks.lookup id with
  | none => exact .pure fun _ hs => hs.1
  | some e =>
    refine .ite (fun _ => .pure fun _ hs => hs.1) fun hp => ?_
    let a' := update a id (a id + 1)
    have h := composes_triple (fun s : Worker => Attempts w a' s.lineage) fun (_ : Check) _ => True
    have hcall := fun ids => triple_lineageStep (stable_attempts w a')
      ((taskCallLogic_lineage cfg.counter).updateResubmittedTaskReferences ids)
    refine .seq (triple_modifyTasks (Q := fun _ s => Attempts w a' s.lineage) ?_) ?_
    · rintro s ⟨hs, rfl⟩
      exact hs.markResubmitted he (Bool.eq_false_iff.mpr hp)
    refine .testing ?_
    refine .bind (triple_getTasks (Q := fun _ s => Attempts w a' s.lineage) fun _ hs => hs) fun t => ?_
    refine .seq (h.onlyIf fun _ => hcall _) ?_
    refine .seq (h.onlyIf fun _ => hcall _) ?_
    exact .seq (attempts_modifyTasks fun t ht => ht.giveToRetry false) (.pure fun _ hs => hs)

lemma attempts_retryTaskIfPossible (id : TaskID) :
    Partly (fun s => Attempts w a s.lineage) (retryTaskIfPossible id) fun retried s => Attempts w
        (if retried then update a id (a id - 1) else a) s.lineage ∧
        s.lineage.isTaskPending id = true := by
  refine .bind (triple_findTask (Q := fun e s => Attempts w a s.lineage ∧
    s.lineage.submissibleTasks.lookup id = some e) (fun _ _ hs he => ⟨hs, he⟩)
    fun _ _ _ => trivial) fun e => ?_
  refine .seq (.checked fun _ _ _ => trivial) ?_
  refine .testing ?_
  refine .seq (triple_modifyTasks (Q := fun _ s => Attempts w a s.lineage ∧ s.lineage.isTaskPending id = true) ?_) ?_
  · rintro s ⟨⟨hs, he⟩, hp⟩
    refine ⟨hs.withEntry he rfl, ?_⟩
    rw [isTaskPending_insert rfl id, if_pos rfl]
    exact hp
  refine .seq (.onlyIf (Q := fun _ s => Attempts w
    (if e.numRetriesLeft ≠ 0 then update a id (a id - 1) else a) s.lineage ∧
    s.lineage.isTaskPending id = true) (fun hl => triple_modifyTasks fun s hs => ?_) fun hl s hs => ?_)
    (.pure fun s hs => by simpa using hs)
  · rw [if_pos hl]
    refine ⟨Attempts.giveToRetry ?_ true, hs.2⟩
    simpa using hs.1
  · rw [if_neg hl]
    exact hs

lemma attempts_markTaskCanceled (id : TaskID) : KeepsAttempts w a (markTaskCanceled id) := by
  refine onTasks fun t => ?_
  cases he : t.submissibleTasks.lookup id with
  | none => exact .pure fun _ hs => hs.1
  | some e =>
    refine .bind (triple_modifyTasks ?_) fun _ => .skip
    rintro s ⟨hs, rfl⟩
    exact hs.withEntry he rfl

lemma attempts_completePendingTask {id : TaskID} (hn : w.kept id = none) (reply : PushTaskReply)
    (workerAddr : WorkerAddress) (nodeAlive : Bool) :
    Partly (fun s => Attempts w a s.lineage ∧ s.lineage.isTaskPending id = true)
      (completePendingTask cfg id reply workerAddr nodeAlive)
      fun _ s => Attempts w (update a id (a id - 1)) s.lineage := by
  have hc := callLogic_lineage cfg.counter
  have hK : ReplyLogic cfg fun α x => Triple (fun s => Attempts w a s.lineage ∧ s.lineage.isTaskPending id = true) x
      (fun _ s => Attempts w a s.lineage ∧ s.lineage.isTaskPending id = true)
      fun _ _ => True :=
    { toComposes := composes_triple _ _
      call := fun hx => triple_lineageStep (stable_and (stable_attempts w a) (stable_isTaskPending id)) (hx _ hc)
      output := fun _ _ ho => triple_modifyTasks fun s hs => ⟨hs.1.wrote ho, hs.2⟩ }
  refine .bind (triple_findTask (fun _ _ hs _ => hs) fun _ _ _ => trivial) fun entry => ?_
  refine .bind (hK.foldlM (hK.handleReturnObject _ _ _) _ _) fun direct => ?_
  refine .bind (triple_findTask (fun _ _ hs _ => hs) fun _ _ _ => trivial) fun entry => ?_
  have h := replyLogic_attempts cfg w (update a id (a id - 1))
  refine .bind (triple_modifyTasks fun s hs => ?_) fun _ => h.bind triple_seeTasks fun t => ?_
  · unfold finish
    split
    · exact hs.1.ended hn hs.2 (isTaskPending_insert (e := { entry.finished direct with
        lineageFootprintBytes := cfg.byteSizeLong (s.lineage.messages id) }) rfl) rfl rfl rfl rfl
    · exact hs.1.ended hn hs.2 (isTaskPending_erase rfl) rfl rfl rfl rfl
  refine h.seq (triple_lineageStep (stable_attempts _ _)
    ((taskCallLogic_lineage _).updateFinishedTaskReferences _ _ _ _)) ?_
  refine h.seq (h.onlyIf fun _ => h.call fun K hK => ?_) attempts_shutdownIfNeeded
  exact hK.seq (hK.evictLineage _) (hK.pure ())

lemma attempts_pendingTaskFailed {id : TaskID} (hn : w.kept id = none) (immediatelyMarkObjectFail : Bool) :
    Partly (fun s => Attempts w a s.lineage) (pendingTaskFailed cfg id immediatelyMarkObjectFail)
      fun _ s => Attempts w (update a id (a id - 1)) s.lineage := by
  have h := replyLogic_attempts cfg w (update a id (a id - 1))
  refine .bind (attempts_retryTaskIfPossible id) fun willRetry => ?_
  refine .bind (triple_findTask (fun _ _ hs _ => hs) fun _ _ _ => trivial) fun e => ?_
  refine .testing ?_
  refine .bind (.onlyIf (fun hr => ?_) fun hr s hs => ?_) fun _ => h.seq attempts_shutdownIfNeeded (h.pure willRetry)
  · rw [hr]
    refine .bind (triple_modifyTasks fun s hs => ?_) fun _ => h.bind triple_seeTasks fun t => ?_
    · exact hs.1.ended hn hs.2 (isTaskPending_erase rfl) rfl rfl rfl rfl
    refine h.seq (triple_lineageStep (stable_attempts _ _)
      ((taskCallLogic_lineage _).updateFinishedTaskReferences _ _ _ _)) ?_
    exact h.onlyIf fun _ => h.markPendingTaskFailed _
  · rw [if_pos (by simpa using hr)] at hs
    exact hs.1

lemma attempts_drainAndShutdown : KeepsAttempts w a drainAndShutdown := by
  refine attempts_modifyTasks fun t h => ?_
  split <;> exact h.same rfl rfl rfl (fun _ => rfl) fun _ => rfl

def WorkerOp.resolves : WorkerOp → Bool
  | .submitTask _ _ | .dependencyFetched _ _ _ | .actorRegistered _ _ => true
  | _ => false

def WorkerOp.ofSubmitter : WorkerOp → Bool
  | .completePendingTask _ _ _ _ | .retryTaskIfPossible _ | .pendingTaskFailed _ _
  | .markTaskCanceled _ => true
  | _ => false

lemma attempts_run (op : WorkerOp) (hop : op.ofSubmitter = false) (hs : op.resolves = true → ¬ w.silent ∧ w.tracked) :
    Partly (fun s => Attempts w a s.lineage ∧ op.Enabled s.lineage) (op.run cfg) fun _ s => Attempts w a s.lineage := by
  have h := replyLogic_attempts cfg w a
  cases op with
  | addPendingTask callerAddress spec maxRetries =>
    exact (attempts_addPendingTask callerAddress spec maxRetries).pre fun _ hs => hs.1
  | submitTask id isActorInRegistering =>
    exact attempts_submitTask (hs rfl).1 isActorInRegistering id
  | dependencyFetched i id object =>
    exact attempts_dependencyFetched (hs rfl).1 (hs rfl).2 i id object
  | actorRegistered i ok =>
    exact attempts_actorRegistered (hs rfl).1 i ok
  | resubmitTask id =>
    exact .bind ((attempts_resubmitTask id).pre fun _ hs => hs.1) fun _ => h.pure ()
  | drainAndShutdown => exact attempts_drainAndShutdown.pre fun _ hs => hs.1
  | counter op =>
    by_cases hop : op.ofTasks = false
    · exact (h.call fun K hc => hc.run op hop).pre fun _ hs => hs.1
    · exact fun s hs => absurd hs.2 hop
  | completePendingTask _ _ _ _ => cases hop
  | retryTaskIfPossible _ => cases hop
  | pendingTaskFailed _ _ => cases hop
  | markTaskCanceled _ => cases hop

end AmazonRay.TaskManager
