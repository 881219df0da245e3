import AmazonRay.ActorSubmitter.Rules

/-! A callback that is registered waits for a reply that is outstanding. -/
namespace AmazonRay.ActorSubmitter
open Program TaskManager

def Awaited (s : System) : Prop :=
  ∀ actor q x callback, s.queue actor = some q → q.inflightTaskCallbacks.lookup x = some callback →
    ∃ p ∈ s.submitter.pushes, p.actorId = actor ∧ p.taskId = x

def ClientQueue.Within (q' q : ClientQueue) : Prop :=
  ∀ x callback, q'.inflightTaskCallbacks.lookup x = some callback →
    ∃ old, q.inflightTaskCallbacks.lookup x = some old

section

variable {s t : System} {actor : ActorID} {q q' : ClientQueue}

lemma ClientQueue.Within.of_eq (h : q'.inflightTaskCallbacks = q.inflightTaskCallbacks) :
    q'.Within q := fun _ callback hx => ⟨callback, h ▸ hx⟩

lemma ClientQueue.Within.of_empty (h : q'.inflightTaskCallbacks = ∅) : q'.Within q := by
  intro x callback hx
  rw [h] at hx
  cases hx

lemma Awaited.withQueue (h : Awaited s) (hq : s.queue actor = some q) (hw : q'.Within q) :
    Awaited (s.withQueue actor q') := by
  intro a r x callback hr hx
  rw [System.queue_withQueue] at hr
  split at hr
  case isTrue ha =>
    cases hr
    obtain ⟨old, hold⟩ := hw x callback hx
    exact ha ▸ h actor q x old hq hold
  · exact h a r x callback hr hx

lemma Awaited.same (h : Awaited s) (hq : t.submitter.clientQueues = s.submitter.clientQueues)
    (hp : t.submitter.pushes = s.submitter.pushes) : Awaited t := by
  intro a r x callback hr hx
  rw [System.queue, hq] at hr
  rw [hp]
  exact h a r x callback hr hx

end

variable {cfg : ActorConfig} {actor : ActorID} {id : TaskID}

lemma awaited_taskManager {α : Type} (x : WorkerM α) : Keeps Awaited (taskManager x) :=
  .within fun _ hs => .anyhow (fun _ _ => hs.same rfl rfl) fun _ _ => trivial

lemma awaited_modifySubmitter {f : Submitter → Submitter}
    (hq : ∀ s, (f s).clientQueues = s.clientQueues) (hp : ∀ s, (f s).pushes = s.pushes) :
    Keeps Awaited (modifySubmitter f) :=
  triple_modifySubmitter fun s hs => hs.same (hq s.submitter) (hp s.submitter)

lemma awaited_putQueue {q q' : ClientQueue} (hw : q'.Within q) :
    Partly (fun s => Awaited s ∧ s.queue actor = some q) (putQueue actor q') fun _ => Awaited :=
  triple_putQueue fun _ hs => hs.1.withQueue hs.2 hw

lemma composes_awaited : Composes fun α (x : SubmitM α) => Keeps Awaited x := composes_triple Awaited _

lemma awaited_failPendingTask (immediatelyMarkObjectFail : Bool) :
    Keeps Awaited (failPendingTask cfg id immediatelyMarkObjectFail) := by
  have hc := composes_awaited
  refine hc.bind (awaited_taskManager _) fun willRetry => hc.seq (hc.onlyIf fun _ => ?_) (hc.pure _)
  exact awaited_modifySubmitter (fun _ => rfl) fun _ => rfl

lemma awaited_markFailed (id : TaskID) : Keeps Awaited (markFailed id) := by
  have hc := composes_awaited
  refine hc.bind (.get fun _ hs => hs) fun s => hc.seq (awaited_taskManager _) ?_
  exact awaited_modifySubmitter (fun _ => rfl) fun _ => rfl

lemma awaited_pushActorTask (addr : Address) (skipExecution skipQueue : Bool) :
    Keeps Awaited (pushActorTask cfg actor addr id skipExecution skipQueue) := by
  refine onQueue fun q => .testing
    (.seq (triple_putQueue (Q := fun _ t => ∃ s, Awaited s ∧ s.queue actor = some q ∧ t = s.withQueue actor _)
      fun s hs => ⟨s, hs.1, hs.2, rfl⟩) (triple_modifySubmitter ?_))
  rintro _ ⟨s, hs, hq, rfl⟩ a r x callback hr hx
  replace hr : (s.withQueue actor _).queue a = some r := hr
  rw [System.queue_withQueue] at hr
  split at hr
  case isTrue ha =>
    cases hr
    rw [ClientQueue.lookup_push] at hx
    split at hx
    case isTrue hxid => exact ⟨_, List.mem_append_right _ (List.mem_singleton.mpr rfl), ha.symm, hxid.symm⟩
    · obtain ⟨p, hp, hpx⟩ := hs actor q x callback hq hx
      exact ⟨p, List.mem_append_left _ hp, ha ▸ hpx⟩
  · obtain ⟨p, hp, hpx⟩ := hs a r x callback hr hx
    exact ⟨p, List.mem_append_left _ hp, hpx⟩

lemma awaited_sendTasks (addr : Address) (n : Nat) : Keeps Awaited (sendTasks cfg actor addr n) := by
  induction n with
  | zero => exact .pure fun _ hs => hs
  | succ n ih =>
    refine onQueue fun q => ?_
    cases q.actorSubmitQueue.popNextTaskToSend with
    | none => exact .pure fun _ hs => hs.1
    | some =>
      refine .seq (awaited_putQueue (.of_eq rfl)) (.testing ?_)
      exact .seq (awaited_pushActorTask addr false _) ih

lemma awaited_sendPendingTasks : Keeps Awaited (sendPendingTasks cfg actor) := by
  refine onQueue fun q => ?_
  cases q.rpcClient with
  | none => exact .pure fun _ hs => hs.1
  | some addr =>
    exact .seq (awaited_putQueue (.of_eq rfl)) (.bind
      (awaited_modifySubmitter (fun _ => rfl) fun _ => rfl) fun _ => awaited_sendTasks addr _)

lemma awaited_resendOutOfOrderTasks : Keeps Awaited (resendOutOfOrderTasks cfg actor) := by
  refine onQueue fun q => ?_
  cases q.rpcClient with
  | none => exact .pure fun _ hs => hs.1
  | some addr =>
    refine .testing (.seq (awaited_putQueue (.of_eq rfl)) ?_)
    exact composes_awaited.forM (fun p => awaited_pushActorTask addr true true) _

lemma awaited_markTaskCompleted : Keeps Awaited (markTaskCompleted cfg actor id) :=
  onQueue fun _ => awaited_putQueue (.of_eq rfl)

lemma awaited_networkError : Keeps Awaited (networkError cfg actor id) := by
  have hc := composes_awaited
  refine hc.bind (triple_findQueue.post fun _ _ hs => hs.1) fun q =>
    hc.bind (awaited_failPendingTask _) fun willRetry => hc.onlyIf fun _ => hc.bind
      (hc.onlyIf fun _ => ?_) fun _ => awaited_markTaskCompleted
  refine onQueue fun q => .read fun s hs => triple_putQueue ?_
  rintro _ rfl
  exact hs.1.withQueue hs.2 (.of_eq rfl)

lemma awaited_replyCallback (callback : Callback) (answer : PushAnswer) :
    Keeps Awaited (replyCallback cfg actor id callback answer) := by
  have hc := composes_awaited
  refine .ite (fun _ => awaited_markTaskCompleted) fun _ => ?_
  cases answer with
  | none => exact awaited_networkError
  | some =>
    refine hc.seq (hc.seq (awaited_taskManager _) ?_) awaited_markTaskCompleted
    exact awaited_modifySubmitter (fun _ => rfl) fun _ => rfl

lemma awaited_handlePushReply (p : Push) (answer : PushAnswer) : Keeps Awaited (handlePushReply cfg p answer) := by
  refine .seq (triple_modifySubmitter (Q := fun _ t => ∃ s, Awaited s ∧
    t = { s with submitter := { s.submitter with pushes := s.submitter.pushes.erase p } })
    fun s hs => ⟨s, hs, rfl⟩) (onQueue fun q => ?_)
  have hother : ∀ s : System, Awaited s → ∀ a r x callback, s.queue a = some r →
      r.inflightTaskCallbacks.lookup x = some callback → (a = p.actorId → x ≠ p.taskId) →
      ∃ p' ∈ s.submitter.pushes.erase p, p'.actorId = a ∧ p'.taskId = x := by
    intro s hs a r x callback hr hx hne
    obtain ⟨p', hp, ha, hpx⟩ := hs a r x callback hr hx
    refine ⟨p', (List.mem_erase_of_ne fun h => ?_).mpr hp, ha, hpx⟩
    exact hne (ha.symm.trans (congrArg Push.actorId h)) (hpx.symm.trans (congrArg Push.taskId h))
  cases hcallback : q.inflightTaskCallbacks.lookup p.taskId with
  | none =>
    refine .pure ?_
    rintro _ ⟨⟨s, hs, rfl⟩, hq⟩ a r x callback hr hx
    refine hother s hs a r x callback hr hx fun ha hxp => ?_
    have hrq : r = q := Option.some.inj (hr.symm.trans (ha ▸ hq))
    rw [hrq, hxp, hcallback] at hx
    cases hx
  | some callback =>
    refine .bind (triple_putQueue ?_) fun _ => awaited_replyCallback _ _
    rintro _ ⟨⟨s, hs, rfl⟩, hq⟩ a r x callback hr hx
    rw [System.queue_withQueue] at hr
    split at hr
    case isTrue ha =>
      cases hr
      obtain ⟨hxp, hx⟩ := Table.lookup_of_erase hx
      exact hother s hs a q x callback (ha ▸ hq) hx fun _ => hxp
    case isFalse ha => exact hother s hs a r x callback hr hx fun h => absurd h ha

lemma awaited_failInflightTasks (callbacks : List (TaskID × Callback)) :
    Keeps Awaited (failInflightTasks cfg actor callbacks) :=
  composes_awaited.forM (fun c : TaskID × Callback => awaited_replyCallback c.2 none) _

lemma awaited_connectActor (address : Address) (numRestarts : Int) :
    Keeps Awaited (connectActor cfg actor address numRestarts) := by
  refine onQueue fun q => .ite (fun _ => .pure fun _ hs => hs.1) fun _ => ?_
  refine .seq (awaited_putQueue ?_) (.seq awaited_resendOutOfOrderTasks
    (.seq awaited_sendPendingTasks (awaited_failInflightTasks _)))
  cases q.rpcClient with
  | none => exact .of_eq rfl
  | some => exact .of_empty rfl

lemma awaited_cancelTask (id : TaskID) : Keeps Awaited (cancelTask cfg id) :=
  .bind (awaited_taskManager _) fun _ => .bind (awaited_failPendingTask true) fun _ => .pure fun _ hs => hs

lemma awaited_disconnectActor (numRestarts : Int) (dead : Bool) :
    Keeps Awaited (disconnectActor cfg actor numRestarts dead) := by
  have hc := composes_awaited
  refine onQueue fun q => .testing ?_
  refine .ite (fun _ => .pure fun _ hs => hs.1) fun _ =>
    .bind (.ite (fun _ => ?_) fun _ => .ite (fun _ => ?_) fun _ => ?_) fun _ => awaited_failInflightTasks _
  · exact .seq (awaited_putQueue (.of_empty rfl)) (hc.bind
      (hc.forM awaited_cancelTask _) fun _ => hc.forM (fun p : Int × TaskID => awaited_markFailed p.2) _)
  · exact awaited_putQueue (.of_empty rfl)
  · exact awaited_putQueue (.of_empty rfl)

lemma awaited_checkTimeoutTasks : Keeps Awaited checkTimeoutTasks := by
  have hc := composes_awaited
  refine hc.bind (.get fun _ hs => hs) fun s => hc.forM (fun e => ?_) _
  exact onQueue fun q => .seq (awaited_putQueue (.of_eq rfl))
    (hc.forM (fun p : Int × TaskID => awaited_markFailed p.2) _)

lemma awaited_addActorQueueIfNotExists : Keeps Awaited (addActorQueueIfNotExists actor) := by
  refine triple_modifySubmitter fun s hs => ?_
  cases hq : s.submitter.clientQueues.lookup actor with
  | some => exact hs
  | none =>
    intro a r x callback hr hx
    rw [System.queue] at hr
    rcases Table.lookup_of_insert hr with ⟨-, rfl⟩ | ⟨-, hr⟩
    · cases hx
    · exact hs a r x callback hr hx

lemma awaited_dependenciesResolved (id : TaskID) (ok : Bool) : Keeps Awaited (dependenciesResolved cfg id ok) := by
  refine onQueue fun q => ?_
  cases q.actorSubmitQueue.get? (cfg.actorCounter id) with
  | none => exact .pure fun _ hs => hs.1
  | some =>
    refine .ite (fun _ => ?_) fun _ => ?_
    · exact .seq (awaited_putQueue (.of_eq rfl)) awaited_sendPendingTasks
    · exact .seq (awaited_putQueue (.of_eq rfl)) (.bind (awaited_failPendingTask true) fun _ => .pure fun _ hs => hs)

lemma awaited_runWorker (op : WorkerOp) : Keeps Awaited (runWorker cfg op) := by
  have hc := composes_awaited
  refine hc.bind (.get fun _ hs => hs) fun _ => hc.seq (awaited_taskManager _)
    (hc.bind (.get fun _ hs => hs) fun _ => ?_)
  exact hc.forM (fun r : TaskID × Bool => awaited_dependenciesResolved r.1 r.2) _

lemma awaited_submitTask (id : TaskID) (isActorInRegistering : ActorID → Bool) :
    Keeps Awaited (submitTask cfg id isActorInRegistering) := by
  refine onQueue fun q => .ite (fun _ => ?_) fun _ => ?_
  · exact .seq ((awaited_taskManager _).pre fun _ hs => hs.1) (awaited_cancelTask id)
  · exact .testing (.seq (awaited_putQueue (.of_eq rfl)) (awaited_runWorker _))

lemma awaited_run (op : SubmitterOp) : Keeps Awaited (op.run cfg) := by
  cases op with
  | worker => exact awaited_runWorker _
  | addActorQueueIfNotExists => exact awaited_addActorQueueIfNotExists
  | submitTask => exact awaited_submitTask _ _
  | connectActor => exact awaited_connectActor _ _
  | disconnectActor => exact awaited_disconnectActor _ _
  | pushReply p => exact awaited_handlePushReply p _
  | killActor =>
    exact onQueue fun q => .seq (awaited_putQueue (.of_eq rfl)) awaited_sendPendingTasks
  | checkTimeoutTasks => exact awaited_checkTimeoutTasks
  | timePasses => exact awaited_modifySubmitter (fun _ => rfl) fun _ => rfl

end AmazonRay.ActorSubmitter
