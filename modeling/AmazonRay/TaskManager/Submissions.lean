import AmazonRay.TaskManager.Attempts

/-! What a submitter sees of `TaskManager`: pending tasks with their retries, attempts, and dependencies being resolved.
-/
namespace AmazonRay.TaskManager
open Program ReferenceCounter Function Tasks

def Tasks.attempt (t : Tasks) (id : TaskID) : Option Int :=
  (t.submissibleTasks.lookup id).bind fun e => if e.pending then some e.numRetriesLeft else none

structure Submissions where
  attempt : TaskID → Option Int
  toSubmit : List TaskID
  resolving : List TaskState
  added : List TaskID
  /-- The tasks resolved since the view was taken. -/
  resolved : List (TaskID × Bool) := []

structure Tasks.Shows (before : List Output) (v : Submissions) (t : Tasks) : Prop where
  attempt : t.attempt = v.attempt
  toSubmit : t.toSubmit = v.toSubmit
  resolving : t.resolving = v.resolving
  added : t.added.map Prod.fst = v.added
  outputs : ∃ new, t.outputs = before ++ new ∧ resolutions new = v.resolved

def Tasks.submissions (t : Tasks) : Submissions where
  attempt := t.attempt
  toSubmit := t.toSubmit
  resolving := t.resolving
  added := t.added.map Prod.fst

lemma Tasks.shows_submissions (t : Tasks) : t.Shows t.outputs t.submissions :=
  ⟨rfl, rfl, rfl, rfl, [], (List.append_nil _).symm, rfl⟩

def useRetry (left : Int) : Int := if 0 < left then left - 1 else left

def Submissions.fail (v : Submissions) (id : TaskID) (left : Int) : Submissions :=
  if left = 0 then { v with attempt := Function.update v.attempt id none }
  else { v with
    attempt := Function.update v.attempt id (some (useRetry left))
    toSubmit := id :: v.toSubmit }

def Submissions.resolve (v : Submissions) (id : TaskID) (ok : Bool) : Submissions :=
  { v with resolved := v.resolved ++ [(id, ok)] }

def Submissions.put (v : Submissions) (i : Nat) (state : TaskState) : Submissions :=
  let v := { v with resolving := v.resolving.set i state }
  if state.unresolved then v else v.resolve state.task state.ok

lemma Submissions.toSubmit_put (v : Submissions) (i : Nat) (state : TaskState) :
    (v.put i state).toSubmit = v.toSubmit := by
  unfold Submissions.put
  split <;> rfl

section

variable {before : List Output} {v : Submissions} {t t' : Tasks} {id : TaskID} {e : TaskEntry}

lemma Tasks.attempt_of_lookup (h : t.submissibleTasks.lookup id = some e) :
    t.attempt id = if e.pending then some e.numRetriesLeft else none := by
  rw [attempt, h]
  rfl

lemma Tasks.attempt_of_pending (h : t.submissibleTasks.lookup id = some e)
    (hp : e.pending = true) : t.attempt id = some e.numRetriesLeft := by
  rw [attempt_of_lookup h, if_pos hp]

lemma Tasks.attempt_insert (h : t'.submissibleTasks = t.submissibleTasks.insert id e) : t'.attempt =
      update t.attempt id (if e.pending then some e.numRetriesLeft else none) := by
  funext x
  rw [attempt, h, Table.lookup_insert, update_apply]
  split <;> rfl

lemma Tasks.attempt_erase (h : t'.submissibleTasks = t.submissibleTasks.erase id) :
    t'.attempt = update t.attempt id none := by
  funext x
  rw [attempt, h, Table.lookup_erase, update_apply]
  split <;> rfl

lemma Tasks.attempt_removeLineageReference (o : ObjectID) (t : Tasks) :
    (t.removeLineageReference o).2.2.attempt = t.attempt := by
  unfold removeLineageReference
  cases he : t.submissibleTasks.lookup o.taskId with
  | none => rfl
  | some e =>
    dsimp only
    have hattempt := attempt_of_lookup he
    split
    case isTrue hr =>
      rw [attempt_erase rfl, update_eq_self_iff, hattempt, hr.2]
      rfl
    · rw [attempt_insert rfl, update_eq_self_iff]
      exact hattempt.symm

lemma stable_shows (before : List Output) (v : Submissions) : Stable (Tasks.Shows before v) := by
  intro o t h
  obtain ⟨houtputs, hresolving, htoSubmit, hadded, -⟩ := removeLineageReference_same o t
  constructor
  · rw [attempt_removeLineageReference]
    exact h.attempt
  · rw [htoSubmit]
    exact h.toSubmit
  · rw [hresolving]
    exact h.resolving
  · rw [hadded]
    exact h.added
  · rw [houtputs]
    exact h.outputs

variable (h : t.Shows before v)
include h

lemma Tasks.Shows.wrote {o : Output} (ho : o.resolution = none) :
    Tasks.Shows before v { t with outputs := t.outputs ++ [o] } := by
  obtain ⟨new, hnew, hr⟩ := h.outputs
  refine ⟨h.attempt, h.toSubmit, h.resolving, h.added, new ++ [o], ?_, ?_⟩
  · rw [hnew, List.append_assoc]
  · rw [← hr]
    simp [resolutions, ho]

lemma Tasks.Shows.resolved (id : TaskID) (ok : Bool) :
    Tasks.Shows before (v.resolve id ok) { t with outputs := t.outputs ++ [.resolved id ok] } := by
  obtain ⟨new, hnew, hr⟩ := h.outputs
  refine ⟨h.attempt, h.toSubmit, h.resolving, h.added, new ++ [.resolved id ok], ?_, ?_⟩
  · rw [hnew, List.append_assoc]
  · rw [Submissions.resolve, ← hr]
    simp [resolutions, Output.resolution]

lemma Tasks.Shows.entries {a : TaskID → Option Int}
    (hp : t'.attempt = a) (ho : t'.outputs = t.outputs) (hr : t'.resolving = t.resolving)
    (hs : t'.toSubmit = t.toSubmit) (ha : t'.added = t.added) :
    t'.Shows before { v with attempt := a } := by
  constructor
  · exact hp
  · exact hs.trans h.toSubmit
  · exact hr.trans h.resolving
  · rw [ha]
    exact h.added
  · rw [ho]
    exact h.outputs

lemma Tasks.Shows.giveBack (hp : e.pending = true) (hl : e.numRetriesLeft ≠ 0) :
    ((t.withEntry id e.useRetry).giveToRetry id true).Shows before (v.fail id e.numRetriesLeft) := by
  have hentry : (t.withEntry id e.useRetry).Shows before
      { v with attempt := update v.attempt id (some (useRetry e.numRetriesLeft)) } := by
    refine h.entries ?_ rfl rfl rfl rfl
    rw [attempt_insert rfl, h.attempt, if_pos (show e.useRetry.pending = true from hp)]
    rfl
  rw [Submissions.fail, if_neg hl]
  obtain ⟨new, hnew, hr⟩ := hentry.outputs
  refine ⟨hentry.attempt, congrArg (id :: ·) hentry.toSubmit, hentry.resolving, hentry.added,
    new ++ [.retryTask id true], ?_, ?_⟩
  · rw [← List.append_assoc, ← hnew]
    rfl
  · rw [← hr]
    simp [resolutions, Output.resolution]

lemma Tasks.Shows.forget (id : TaskID) : (t.forget id).Shows before { v with attempt := update v.attempt id none } := by
  refine h.entries ?_ rfl rfl rfl rfl
  rw [attempt_erase rfl, h.attempt]

lemma Tasks.Shows.finish (cfg : WorkerConfig) (hp : e.pending = false) :
    (t.finish cfg id e).Shows before { v with attempt := update v.attempt id none } := by
  unfold Tasks.finish
  split
  · refine h.entries ?_ rfl rfl rfl rfl
    rw [attempt_insert rfl, h.attempt]
    simp [hp]
  · exact h.forget id

end

variable {cfg : WorkerConfig} {before : List Output} {v u : Submissions} (id : TaskID)

/-- The view moves from `v` to what the result says; how it is stopped does not matter. -/
abbrev Turns (before : List Output) (v : Submissions) {α : Type} (x : WorkerM α)
    (v' : α → Submissions) : Prop :=
  Triple (fun s => s.lineage.Shows before v) x (fun a s => s.lineage.Shows before (v' a))
    fun _ _ => True

lemma turns_call {α : Type} {x : WorkerM α} {F : Check → Prop}
    (h : Steps (LineageStep cfg.counter) F x) : Turns before v x fun _ => v :=
  triple_lineageStep (stable_shows before v) h

lemma turns_modifyTasks {f : Tasks → Tasks} (h : ∀ t, t.Shows before v → (f t).Shows before u) :
    Turns before v (modifyTasks f) fun _ => u :=
  triple_modifyTasks fun s hs => h s.lineage hs

lemma triple_readShown : Partly (fun s => s.lineage.Shows before v) getTasks
    fun t s => s.lineage.Shows before v ∧ t.Shows before v :=
  triple_getTasks fun _ hs => ⟨hs, hs⟩

lemma replyLogic_shows (cfg : WorkerConfig) (before : List Output) (v : Submissions) :
    ReplyLogic cfg fun _ x => Turns before v x fun _ => v where
  toComposes := composes_triple _ _
  call hx := turns_call (hx _ (callLogic_lineage cfg.counter))
  output _ _ ho := turns_modifyTasks fun _ h => h.wrote ho

lemma turns_shutdownIfNeeded : Turns before v shutdownIfNeeded fun _ => v := by
  refine turns_modifyTasks fun t h => ?_
  split
  · exact h.entries h.attempt rfl rfl rfl rfl
  · exact h

lemma turns_addPendingTask (callerAddress : WorkerAddress) (spec : TaskSpec) (maxRetries : Int) :
    Turns before v (addPendingTask cfg callerAddress spec maxRetries) fun _ => { v with
      attempt := update v.attempt spec.taskId (some maxRetries)
      toSubmit := spec.taskId :: v.toSubmit
      added := spec.taskId :: v.added } := by
  have hc := callLogic_lineage cfg.counter
  refine .seq (turns_call ((taskCallLogic_lineage _).updateSubmittedTaskReferences _ _)) ?_
  refine .seq (turns_call (hc.forM (fun id => hc.addOwnedObject id _ _ _ _ _) _))
    (.bind triple_readShown fun t => .given fun _ => ?_)
  refine .testing (turns_modifyTasks fun t h => ?_)
  constructor
  · rw [attempt_insert rfl, h.attempt]
    rfl
  · exact congrArg (spec.taskId :: ·) h.toSubmit
  · exact h.resolving
  · exact congrArg (spec.taskId :: ·) h.added
  · exact h.outputs

lemma turns_submitTask (isActorInRegistering : ActorID → Bool) (id : TaskID) :
    Partly (fun s => s.lineage.Shows before v) (submitTask cfg isActorInRegistering id) fun _ s =>
        s.lineage.Shows before ({ v with toSubmit := v.toSubmit.erase id }.resolve id true) ∨
        ∃ state : TaskState, state.ok = true ∧ s.lineage.Shows before { v with
          toSubmit := v.toSubmit.erase id
          resolving := v.resolving ++ [state] } := by
  refine .seq (turns_modifyTasks (u := { v with toSubmit := v.toSubmit.erase id })
    fun t h => ?_) (.bind triple_readShown fun t => .given fun _ => ?_)
  · exact ⟨h.attempt, congrArg (·.erase id) h.toSubmit, h.resolving, h.added, h.outputs⟩
  refine .ite (fun _ => ?_) fun _ => ?_
  · exact triple_modifyTasks fun s hs => .inl (hs.resolved id true)
  · refine triple_modifyTasks fun s hs => .inr ⟨_, ?_, hs.attempt, hs.toSubmit,
      congrArg (· ++ _) hs.resolving, hs.added, hs.outputs⟩
    rfl

lemma turns_putState (i : Nat) (state : TaskState) :
    Turns before v (putState i state) fun _ => { v with resolving := v.resolving.set i state } := by
  refine turns_modifyTasks fun t h => ?_
  exact ⟨h.attempt, h.toSubmit, congrArg (·.set i state) h.resolving, h.added, h.outputs⟩

lemma turns_complete (state : TaskState) : Turns before v (complete state) fun _ =>
      if state.unresolved then v else v.resolve state.task state.ok := by
  refine .onlyIf (fun h => ?_) fun h s hs => ?_
  · rw [if_neg (by simp [TaskState.unresolved, h])]
    exact turns_modifyTasks fun t ht => ht.resolved state.task state.ok
  · rw [if_pos (by simpa [TaskState.unresolved, ← not_and_or] using h)]
    exact hs

lemma turns_inlineDependencies (deps : AList fun _ : ObjectID => Option RayObject) (id : TaskID) :
    Turns before v (inlineDependencies deps id) fun _ => v := by
  have h := composes_triple (fun s : Worker => s.lineage.Shows before v) fun (_ : Check) _ => True
  refine h.bind triple_seeTasks fun t => ?_
  refine h.bind (.tested fun _ _ => trivial) fun _ => h.seq ?_ ?_
  · exact turns_modifyTasks fun t ht => ht.entries ht.attempt rfl rfl rfl rfl
  · exact h.bind (.tested fun _ _ => trivial) fun _ => h.pure _

lemma turns_dependencyFetched (i : Nat) (id : ObjectID) (object : RayObject) :
    Turns before v (dependencyFetched cfg i id object) fun _ =>
      (v.resolving[i]?).elim v fun state => v.put i (state.fetched id object) := by
  refine .bind triple_readShown fun t => .given fun ht => ?_
  rw [ht.resolving]
  cases v.resolving[i]? with
  | none => exact .pure fun s hs => hs
  | some state =>
    refine .bind (.seq (turns_putState i _) ?_) fun _ => .skip
    refine .onlyIf (fun _ => ?_) fun hne s hs => ?_
    · refine .bind (turns_inlineDependencies _ _) fun inlined => ?_
      refine .bind (.onlyIf (fun _ => ?_) fun _ _ hs => hs) fun _ => turns_complete (state.fetched id object)
      exact turns_call ((taskCallLogic_lineage cfg.counter).updateSubmittedTaskReferences _ _)
    · have hu : (state.fetched id object).unresolved = true := by simp [TaskState.unresolved, hne]
      rw [Option.elim_some, Submissions.put, if_pos hu]
      exact hs

lemma turns_actorRegistered (i : Nat) (ok : Bool) : Turns before v (actorRegistered i ok) fun _ =>
      (v.resolving[i]?).elim v fun state => v.put i (state.registered ok) := by
  refine .bind triple_readShown fun t => .given fun ht => ?_
  rw [ht.resolving]
  cases v.resolving[i]? with
  | none => exact .pure fun s hs => hs
  | some state =>
    exact .seq (.seq (turns_putState i _) (turns_complete (state.registered ok))) (.pure fun _ hs => hs)

lemma turns_markTaskCanceled : Turns before v (markTaskCanceled id) fun _ =>
      { v with attempt := update v.attempt id ((v.attempt id).map fun _ => 0) } := by
  refine .bind triple_readShown fun t => .given fun ht => ?_
  have hid := congrFun ht.attempt id
  cases he : t.submissibleTasks.lookup id with
  | none =>
    rw [attempt, he, Option.bind_none] at hid
    rw [← hid, Option.map_none, hid, update_eq_self]
    exact .pure fun _ hs => hs
  | some e =>
    rw [attempt_of_lookup he] at hid
    refine .seq (turns_modifyTasks fun u hu => ?_) (.pure fun _ hs => hs)
    refine hu.entries ?_ rfl rfl rfl rfl
    rw [attempt_insert rfl, hu.attempt, ← hid]
    split <;> rfl

lemma turns_completePendingTask (reply : PushTaskReply) (workerAddr : WorkerAddress) (nodeAlive : Bool) :
    Turns before v (completePendingTask cfg id reply workerAddr nodeAlive) fun _ =>
      { v with attempt := update v.attempt id none } := by
  have h := replyLogic_shows cfg before v
  have h' := replyLogic_shows cfg before { v with attempt := update v.attempt id none }
  refine .bind (triple_findTask (fun _ _ hs _ => hs) fun _ _ _ => trivial) fun entry => ?_
  refine .bind (h.foldlM (h.handleReturnObject _ _ _) _ _) fun direct => ?_
  refine .bind (triple_findTask (fun _ _ hs _ => hs) fun _ _ _ => trivial) fun entry => ?_
  refine .seq (turns_modifyTasks fun t ht => ht.finish cfg rfl) (h'.bind triple_seeTasks fun t => ?_)
  refine h'.seq (turns_call ((taskCallLogic_lineage _).updateFinishedTaskReferences _ _ _ _)) ?_
  refine h'.seq (h'.onlyIf fun _ => h'.call fun K hK => ?_) turns_shutdownIfNeeded
  exact hK.seq (hK.evictLineage _) (hK.pure ())

lemma turns_retryTaskIfPossible : Partly (fun s => s.lineage.Shows before v) (retryTaskIfPossible id)
      fun retried s => ∃ left, v.attempt id = some left ∧ retried = decide (left ≠ 0) ∧
        s.lineage.Shows before (if left = 0 then v else v.fail id left) := by
  refine .bind (triple_findTask (Q := fun e s => s.lineage.Shows before v ∧
    (e.pending = true → v.attempt id = some e.numRetriesLeft)) (fun s e hs he => ⟨hs, fun hp => ?_⟩)
    fun _ _ _ => trivial) fun e => ?_
  · rw [← hs.attempt, attempt_of_pending he hp]
  refine .seq (.checked fun _ _ _ => trivial) (.given fun hp => ?_)
  refine .given fun hleft => .testing ?_
  have hattempt := hleft hp
  by_cases hl : e.numRetriesLeft = 0
  · refine .seq (turns_modifyTasks (u := v) fun t ht => ?_) ?_
    · have hsame : v.attempt = update v.attempt id (some e.useRetry.numRetriesLeft) := by
        rw [eq_comm, update_eq_self_iff, hattempt, TaskEntry.useRetry, hl]
        rfl
      refine ht.entries ?_ rfl rfl rfl rfl
      rw [attempt_insert rfl, if_pos (show e.useRetry.pending = true from hp), ht.attempt, ← hsame]
    refine .seq (.onlyIf (Q := fun _ s => s.lineage.Shows before v)
      (fun hne => absurd hl hne) fun _ _ hs => hs) (.pure fun s hs => ⟨0, hl ▸ hattempt, by simp [hl], ?_⟩)
    rw [if_pos rfl]
    exact hs
  · refine .seq (triple_modifyTasks (Q := fun _ s => ∃ t : Tasks, t.Shows before v ∧
      s.lineage = t.withEntry id e.useRetry) fun s hs => ⟨_, hs, rfl⟩) ?_
    refine .seq (.onlyIf (fun _ => triple_modifyTasks (Q := fun _ s =>
      s.lineage.Shows before (v.fail id e.numRetriesLeft)) ?_) fun hn => absurd hl hn)
      (.pure fun s hs => ⟨_, hattempt, rfl, ?_⟩)
    · rintro s ⟨t, ht, hs⟩
      rw [hs]
      exact ht.giveBack hp hl
    · rw [if_neg hl]
      exact hs

lemma turns_pendingTaskFailed (immediatelyMarkObjectFail : Bool) :
    Partly (fun s => s.lineage.Shows before v) (pendingTaskFailed cfg id immediatelyMarkObjectFail)
      fun willRetry s => ∃ left, v.attempt id = some left ∧ willRetry = decide (left ≠ 0) ∧
        s.lineage.Shows before (v.fail id left) := by
  refine .bind (turns_retryTaskIfPossible id) fun willRetry => .chosen fun left => ?_
  refine .pre (.given (c := v.attempt id = some left ∧ willRetry = decide (left ≠ 0))
    fun hleft => ?_) fun s hs => ⟨hs.2.2, hs.1, hs.2.1⟩
  have h := replyLogic_shows cfg before (v.fail id left)
  refine .bind (triple_findTask (fun _ _ hs _ => hs) fun _ _ _ => trivial) fun e => ?_
  refine .testing ?_
  refine .bind ?_ fun _ => .seq turns_shutdownIfNeeded (.pure fun s hs => ⟨left, hleft.1, hleft.2, hs⟩)
  by_cases hl : left = 0
  · refine .onlyIf (fun _ => ?_) fun hr => absurd (by rw [hleft.2, hl]; rfl) hr
    rw [if_pos hl]
    refine .seq (turns_modifyTasks fun t ht => ht.forget id) ?_
    rw [Submissions.fail, if_pos hl] at h ⊢
    refine h.bind triple_seeTasks fun t => ?_
    refine h.seq (turns_call ((taskCallLogic_lineage _).updateFinishedTaskReferences _ _ _ _)) ?_
    exact h.onlyIf fun _ => h.markPendingTaskFailed _
  · refine .onlyIf (fun hr => ?_) fun _ s hs => ?_
    · rw [hleft.2] at hr
      exact absurd (of_decide_eq_false hr) (not_not.mpr hl)
    · rw [if_neg hl] at hs
      exact hs

lemma turns_drainAndShutdown : Turns before v drainAndShutdown fun _ => v := by
  refine turns_modifyTasks fun t h => ?_
  split <;> exact h.entries h.attempt rfl rfl rfl rfl

lemma turns_markPendingTaskFailed (spec : TaskSpec) : Turns before v (markPendingTaskFailed spec) fun _ => v :=
  (composes_triple _ _).forM (fun _ => turns_modifyTasks fun _ h => h.wrote rfl) _

end AmazonRay.TaskManager
