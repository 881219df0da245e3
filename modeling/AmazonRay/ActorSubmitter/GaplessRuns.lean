import AmazonRay.ActorSubmitter.Replies
import AmazonRay.ActorSubmitter.Sequence

/-! The numbers sent on a connection have no hole, so the receiving queue does not wait in vain. -/
namespace AmazonRay.ActorSubmitter
open Program TaskManager

/-- At most one task was resolved, and one that failed has retries left. -/
def Settles (v : Submissions) : Prop :=
  v.resolved = [] ∨ ∃ id ok, v.resolved = [(id, ok)] ∧ (ok = false → v.attempt id ≠ some 0)

def FailsRetried (t : Tasks) (state : TaskState) : Prop :=
  state.unresolved = false → state.ok = false → t.attempt state.task ≠ some 0

def RetriesUnresolved (t : Tasks) : WorkerOp → Prop
  | .dependencyFetched i id object => ∀ state ∈ t.resolving[i]?, FailsRetried t (state.fetched id object)
  | .actorRegistered i ok => ∀ state ∈ t.resolving[i]?, FailsRetried t (state.registered ok)
  | _ => True

section

variable {cfg : ActorConfig} {hand : List TaskID} {actor : ActorID} {id : TaskID} {s t : System}

lemma sequenced_failPendingTask (immediatelyMarkObjectFail : Bool) :
    Partly (fun s => Sequenced cfg (id :: hand) s ∧ s.worker.lineage.attempt id ≠ some 0)
      (failPendingTask cfg id immediatelyMarkObjectFail) fun _ => Sequenced cfg hand := by
  rintro s ⟨hs, hne⟩
  refine (failPendingTask_failed id immediatelyMarkObjectFail s).post (fun willRetry t ht => ?_) s rfl
  have hseq := ht.sequenced hs
  rwa [ht.retried hne, if_pos rfl] at hseq

lemma sequenced_dependenciesResolved (id : TaskID) (ok : Bool) :
    Partly (fun s => Sequenced cfg [] s ∧ (ok = false → s.worker.lineage.attempt id ≠ some 0))
      (dependenciesResolved cfg id ok) fun _ => Sequenced cfg [] := by
  refine onQueue fun q => ?_
  cases hr : q.actorSubmitQueue.get? (cfg.actorCounter id) with
  | none => exact .pure fun _ hs => hs.1.1
  | some r =>
    have hmem : r ∈ q.actorSubmitQueue.requests := List.mem_of_find?_eq_some hr
    have hnumber : r.sequenceNo = cfg.actorCounter id := by simpa using List.find?_some hr
    refine .ite (fun _ => ?_) fun hok => ?_
    · refine .bind (triple_putQueue fun s hs => ?_) fun _ => sequenced_sendPendingTasks.post fun _ _ hs => hs.1
      exact ⟨hs.1.1.update hs.2 rfl (fun h => h) fun _ hn => hn.markDependencyResolved _, nofun⟩
    by_cases hdead : q.state = .dead
    · refine .bind (triple_putQueue fun s hs => ?_) fun _ => .bind ((grows_failPendingTask r.task true).triple
          fun t _ u ht (htu : Grows t u) => htu.sequenced ht) fun _ => .pure fun _ hs => hs
      exact hs.1.1.update hs.2 rfl (fun h => h) fun halive => absurd hdead halive
    · refine .bind (triple_putQueue fun s hs => ?_) fun _ =>
        .bind (sequenced_failPendingTask true) fun _ => .pure fun _ hs => hs
      obtain ⟨⟨hs, hretry⟩, hq⟩ := hs
      -- no other task of the actor has the number
      have hn := (hs _ q hq).2 hdead
      have htask : r.task = id := cfg.counter_inj _ _ (hn.requests r hmem).1.1 ((hn.requests r hmem).2.trans hnumber)
      rw [htask]
      refine ⟨hs.take hq rfl (fun h => h) fun _ hn => ⟨rfl, hn.markDependencyFailed _⟩, ?_⟩
      exact hretry (Bool.eq_false_iff.mpr hok)

abbrev SettledFrom (cfg : ActorConfig) (s t : System) : Prop :=
  Sequenced cfg [] t ∧ ∃ v, Settles v ∧ t.worker.lineage.Shows s.worker.lineage.outputs v

lemma sequenced_runWorker {P : System → Prop} {op : WorkerOp}
    (h : ∀ s, P s → Yields s (taskManager (op.run cfg.worker)) (fun _ => SettledFrom cfg s)) :
    Partly P (runWorker cfg op) fun _ => Sequenced cfg [] := by
  refine .read fun s hs => .seq (h s hs) (.read fun t ht => ?_)
  obtain ⟨hseq, v, hv, hshows⟩ := ht
  obtain ⟨new, hnew, hresolved⟩ := hshows.outputs
  rw [hnew, List.drop_left]
  dsimp only
  rw [hresolved]
  rcases hv with hnone | ⟨id, ok, hone, hretry⟩
  · rw [hnone]
    exact .done hseq
  · rw [hone]
    refine .seq ((sequenced_dependenciesResolved id ok).pre ?_) (.pure fun _ h => h)
    rintro _ rfl
    rw [hshows.attempt]
    exact ⟨hseq, hretry⟩

lemma settles_put {t : Tasks} {i : Nat} {state : TaskState} (h : FailsRetried t state) :
    Settles (t.submissions.put i state) := by
  unfold Submissions.put
  split
  · exact .inl rfl
  case isFalse hu => exact .inr ⟨_, _, rfl, h (Bool.eq_false_iff.mpr hu)⟩

lemma sequenced_worker (op : WorkerOp) (hactor : ofActorTasks op = true) (hs : Sequenced cfg [] s)
    (hop : op.Enabled s.worker.lineage) (hretry : RetriesUnresolved s.worker.lineage op) :
    Yields s (taskManager (op.run cfg.worker)) fun _ => SettledFrom cfg s := by
  let v := s.worker.lineage.submissions
  have hturn : ∀ {x : WorkerM Unit} {f : Submissions → Submissions},
      (∀ before v, Turns before v x fun _ => f v) → v.toSubmit ⊆ (f v).toSubmit → Settles (f v) →
      Yields s (taskManager x) fun _ => SettledFrom cfg s := by
    intro x f hx hsub hv
    apply triple_turns hx
    rintro _ rfl _ w hw
    refine ⟨hs.outside rfl fun actor c hc => ?_, _, hv, hw⟩
    obtain ⟨y, hy, hactor⟩ := hc
    refine ⟨y, hy.imp_left fun hy => ?_, hactor⟩
    rw [hw.toSubmit]
    exact hsub hy
  have hsame : ∀ {x : WorkerM Unit}, (∀ before v, Turns before v x fun _ => v) →
      Yields s (taskManager x) fun _ => SettledFrom cfg s :=
    fun hx => hturn hx (.refl _) (.inl rfl)
  have hresolver : ∀ {x : WorkerM Unit} {i : Nat} {g : TaskState → TaskState},
      (∀ before v, Turns before v x fun _ => (v.resolving[i]?).elim v fun state => v.put i (g state)) →
      (∀ state ∈ s.worker.lineage.resolving[i]?, FailsRetried s.worker.lineage (g state)) →
      Yields s (taskManager x) fun _ => SettledFrom cfg s := by
    intro x i g hx hg
    have hput : v.toSubmit ⊆ ((v.resolving[i]?).elim v fun state => v.put i (g state)).toSubmit ∧
        Settles ((v.resolving[i]?).elim v fun state => v.put i (g state)) := by
      cases hi : v.resolving[i]? with
      | none => exact ⟨.refl _, .inl rfl⟩
      | some state =>
        refine ⟨?_, settles_put (hg state hi)⟩
        rw [Option.elim_some, Submissions.toSubmit_put]
        exact .refl _
    exact hturn hx hput.1 hput.2
  cases op with
  | addPendingTask callerAddress spec maxRetries =>
    exact hturn (fun before v => turns_addPendingTask callerAddress spec maxRetries)
      (List.subset_cons_self _ _) (.inl rfl)
  | dependencyFetched i id object =>
    exact hresolver (fun before v => turns_dependencyFetched i id object) hretry
  | actorRegistered i ok =>
    exact hresolver (fun before v => turns_actorRegistered i ok) hretry
  | drainAndShutdown => exact hsame fun before v => turns_drainAndShutdown
  | counter op =>
    exact hsame fun before v => (replyLogic_shows cfg.worker before v).call fun K hc => hc.run op hop
  | submitTask => cases hactor
  | completePendingTask => cases hactor
  | retryTaskIfPossible => cases hactor
  | pendingTaskFailed => cases hactor
  | resubmitTask => cases hactor
  | markTaskCanceled => cases hactor

lemma Sequenced.submit (h : Sequenced cfg hand s) (hq : t.submitter.clientQueues = s.submitter.clientQueues)
    (hsub : t.worker.lineage.toSubmit = s.worker.lineage.toSubmit.erase id)
    (hwait : ∀ q, s.queue (cfg.actorId id) = some q → q.state ≠ .dead → q.Waiting (cfg.actorCounter id)) :
    Sequenced cfg hand t := by
  intro actor q hactor
  rw [System.queue, hq] at hactor
  obtain ⟨hdead, hnumbered⟩ := h actor q hactor
  refine ⟨hdead, fun hstate => (hnumbered hstate).narrow fun c hc => ?_⟩
  obtain ⟨x, hx, rfl, rfl⟩ := hc
  by_cases hxid : x = id
  · exact .inr (hxid ▸ hwait q (hxid ▸ hactor) hstate)
  · refine .inl ⟨x, hx.imp_left fun hx => ?_, rfl, rfl⟩
    rw [hsub]
    exact (List.mem_erase_of_ne hxid).mpr hx

lemma sequenced_submitTask (id : TaskID) (isActorInRegistering : ActorID → Bool) :
    Partly (fun s => Sequenced cfg [] s ∧ cfg.actorCounter id ≤ s.numSubmitted (cfg.actorId id))
      (submitTask cfg id isActorInRegistering) fun _ => Sequenced cfg [] := by
  refine onQueue fun q => .ite (fun hdead => ?_) fun halive => ?_
  · refine .bind (triple_turns (f := fun v => { v with toSubmit := v.toSubmit.erase id })
      (fun before v => turns_modifyTasks fun t h => ?_) fun s hs _ w hw => ?_) fun _ =>
        (grows_cancelTask id).triple fun t _ u ht (htu : Grows t u) => htu.sequenced ht
    · exact ⟨h.attempt, congrArg (·.erase id) h.toSubmit, h.resolving, h.added, h.outputs⟩
    · refine hs.1.1.submit rfl hw.toSubmit fun r hr hne => ?_
      rw [hs.2] at hr
      cases hr
      exact absurd hdead hne
  · refine .testing (.seq (triple_putQueue
      (Q := fun _ s => Sequenced cfg [] s ∧ ∀ q, s.queue (cfg.actorId id) = some q →
        q.Waiting (cfg.actorCounter id)) fun s hs => ⟨?_, fun r hr => ?_⟩) (sequenced_runWorker fun s hs => ?_))
    · obtain ⟨⟨hseq, hle⟩, hq⟩ := hs
      rw [System.numSubmitted, ← System.queue, hq] at hle
      refine hseq.update hq rfl (fun h => h) fun _ hn => hn.emplace rfl hle
    · rw [System.queue_withQueue, if_pos rfl] at hr
      cases hr
      exact ⟨_, (List.mem_orderedInsert _).mpr (.inl rfl), rfl⟩
    · refine triple_taskManager (V := fun v _ v' => v'.toSubmit = v.toSubmit.erase id ∧
        (v'.resolved = v.resolved ∨ v'.resolved = v.resolved ++ [(id, true)]))
        (fun before v => (turns_submitTask isActorInRegistering id).post ?_) ?_
      · rintro _ s (hs | ⟨state, -, hs⟩)
        · refine ⟨_, ⟨?_, .inr ?_⟩, hs⟩ <;> rfl
        · refine ⟨_, ⟨?_, .inl ?_⟩, hs⟩ <;> rfl
      · rintro _ rfl _ v' w ⟨hsub, hresolved⟩ hw
        refine ⟨hs.1.submit rfl (hw.toSubmit.trans hsub) fun q hq _ => hs.2 q hq, v', ?_, hw⟩
        rcases hresolved with hnone | hone
        · exact .inl hnone
        · exact .inr ⟨id, true, hone, (by simp)⟩

end

/-- The tasks in flight on a connection that is replaced are retried, and so are those whose dependencies fail. -/
def SubmitterOp.Recoverable (s : System) : SubmitterOp → Prop
  | .worker op => RetriesUnresolved s.worker.lineage op
  | .connectActor actor address numRestarts => ∀ q ∈ s.queue actor,
    q.skipsConnection address numRestarts = false → q.rpcClient ≠ none → q.Repeated s.worker.lineage
  | _ => True

instance (t : Tasks) (state : TaskState) : Decidable (FailsRetried t state) :=
  inferInstanceAs (Decidable (_ → _ → _))

instance (t : Tasks) (op : WorkerOp) : Decidable (RetriesUnresolved t op) := by
  induction op using WorkerOp.casesOn <;> (unfold RetriesUnresolved; infer_instance)

instance (q : ClientQueue) (t : Tasks) : Decidable (q.Repeated t) :=
  decidable_of_iff (∀ e ∈ q.inflight, e.2.taskSkipped = false ∧ t.attempt e.1 ≠ some 0)
    ⟨fun h x callback hx => h (x, callback) (ClientQueue.mem_inflight.mpr hx),
      fun h e he => h e.1 e.2 (ClientQueue.mem_inflight.mp he)⟩

instance (s : System) (op : SubmitterOp) : Decidable (op.Recoverable s) := by
  induction op using SubmitterOp.casesOn <;> (unfold SubmitterOp.Recoverable; infer_instance)

lemma sequenced_run {cfg : ActorConfig} (op : SubmitterOp) {s : System}
    (hop : op.Enabled cfg s ∧ op.Recoverable s) (hs : Sequenced cfg [] s) :
    Yields s (op.run cfg) fun _ => Sequenced cfg [] := by
  have hkeep : ∀ {x : SubmitM Unit}, Keeps (Sequenced cfg []) x → Yields s x fun _ => Sequenced cfg [] :=
    fun hx => hx.pre fun _ ht => ht ▸ hs
  cases op with
  | worker op =>
    apply sequenced_runWorker
    rintro _ rfl
    exact sequenced_worker op hop.1.2 hs hop.1.1 hop.2
  | addActorQueueIfNotExists => exact hkeep sequenced_addActorQueueIfNotExists
  | submitTask id isActorInRegistering =>
    apply (sequenced_submitTask id isActorInRegistering).pre
    rintro _ rfl
    exact ⟨hs, hop.1.2⟩
  | connectActor actor address numRestarts =>
    apply (sequenced_connectActor address numRestarts).pre
    rintro _ rfl
    exact ⟨hs, hop.2⟩
  | disconnectActor => exact hkeep (sequenced_disconnectActor _ _)
  | pushReply p => exact hkeep (sequenced_handlePushReply p _)
  | killActor => exact hkeep (sequenced_killActor _ _)
  | checkTimeoutTasks => exact hkeep sequenced_checkTimeoutTasks
  | timePasses =>
    unfold SubmitterOp.run
    exact hkeep (triple_modifySubmitter fun t ht => ht)

/-- Nothing more will be sent by itself: no reply is outstanding, no retry is scheduled, and the queue is empty. -/
def System.Quiescent (cfg : ActorConfig) (s : System) (actor : ActorID) (q : ClientQueue) : Prop :=
  (∀ p ∈ s.submitter.pushes, p.actorId ≠ actor) ∧
  (∀ id ∈ s.worker.lineage.toSubmit, cfg.actorId id = actor → q.numSubmitted ≤ cfg.actorCounter id) ∧
  q.actorSubmitQueue.requests = []

instance (cfg : ActorConfig) (s : System) (actor : ActorID) (q : ClientQueue) :
    Decidable (s.Quiescent cfg actor q) := inferInstanceAs (Decidable (_ ∧ _ ∧ _))

/-- In a run that can recover, the numbers sent on a connection are the first ones, and the
queue that receives them does not wait for another. -/
theorem sent_gapless {cfg : ActorConfig} {s : System} {actor : ActorID} {q : ClientQueue}
    (h : Reaches (SubmitterOp.run cfg) (fun op s => op.Enabled cfg s ∧ op.Recoverable s)
      System.start s) (hq : s.queue actor = some q) (hrpc : q.rpcClient ≠ none)
    (hquiet : s.Quiescent cfg actor q) :
    (∃ n, ∀ k, k ∈ q.sent ↔ k < n) ∧ ∀ arrivals : List Arrival,
      (∀ k, k ∈ arrivals.filterMap Arrival.seqNo? ↔ k ∈ q.sent) →
      (ActorSchedulingQueue.handleAll arrivals).waitTimer = false := by
  have hs : Sequenced cfg [] s := by
    refine h.invariant (fun actor q hq => ?_) fun op s hop hs => sequenced_run op hop hs
    cases hq
  have hawaited : Awaited s := by
    refine h.invariant (fun actor q x callback hq => ?_) fun op s _ hs =>
      (awaited_run op).pre fun _ ht => ht ▸ hs
    cases hq
  obtain ⟨hpushes, hretries, hempty⟩ := hquiet
  have hn := (hs actor q hq).2 fun hdead => hrpc ((hs actor q hq).1 hdead).1
  have hflying : q.inflightTaskCallbacks = ∅ := by
    refine Table.eq_empty fun x => ?_
    cases hx : q.inflightTaskCallbacks.lookup x with
    | none => rfl
    | some callback =>
      obtain ⟨p, hp, hactor, -⟩ := hawaited actor q x callback hq hx
      exact absurd hactor (hpushes p hp)
  have hsent := hn.gapless (fun c hc hout => ?_) hempty hflying
  · refine ⟨⟨_, hsent⟩, fun arrivals harrivals => ?_⟩
    exact not_waiting_of_gapless fun k => (harrivals k).trans (hsent k)
  · obtain ⟨x, hx | hx, hactor, rfl⟩ := hout
    · exact absurd hc (Nat.not_lt.mpr (hretries x hx hactor))
    · cases hx

/-- The actor restarts, and the notice of its end is missed: the task in flight fails after the new connection is
numbered. -/
def missedDisconnect (maxRetries : Int) : List SubmitterOp :=
  [.addActorQueueIfNotExists 0] ++ submitExample 0 maxRetries ++
    [.connectActor 0 (exampleAddress 1) 0, .connectActor 0 (exampleAddress 2) 1]

def exampleReply (id : TaskID) (sequenceNumber : Nat) (skipQueue : Bool) : SubmitterOp :=
  .pushReply { actorId := 0, taskId := id, sequenceNumber, skipQueue } none

/-- The first number on the new connection is never sent, and the receiving queue waits for it. -/
theorem missedDisconnect_leaves_hole :
    ∃ s q, Reaches (SubmitterOp.run exampleActor) (fun op s => op.Enabled exampleActor s)
      System.start s ∧ s.queue 0 = some q ∧ q.rpcClient = some (exampleAddress 2) ∧
      s.Quiescent exampleActor 0 q ∧ s.worker.lineage.resolving.length = 0 ∧ q.sent = [1] ∧
      (ActorSchedulingQueue.handleAll [.request 1 (-1) false]).waitTimer = true := by
  have hrun : (runAll (SubmitterOp.run exampleActor) (fun op s => op.Enabled exampleActor s)
      (missedDisconnect 0 ++ submitExample 1 0 ++ [exampleReply 0 0 false, exampleReply 1 1 false])
      System.start).map (fun s => (s.queue 0).any fun q => q.rpcClient = some (exampleAddress 2) ∧
        s.Quiescent exampleActor 0 q ∧ s.worker.lineage.resolving.length = 0 ∧ q.sent = [1]) =
      some true := by decide +kernel
  obtain ⟨s, hs, hany⟩ := exists_reaches hrun
  obtain ⟨q, hq, hquiet⟩ := (Option.any_eq_true _ _).mp hany
  obtain ⟨hrpc, hquiet, hresolving, hsent⟩ := of_decide_eq_true hquiet
  exact ⟨s, q, hs, hq, hrpc, hquiet, hresolving, hsent, by decide +kernel⟩

/-- With a retry left, the task takes its number on the new connection. -/
theorem missedDisconnect_retried_gapless :
    ∃ s q, Reaches (SubmitterOp.run exampleActor)
      (fun op s => op.Enabled exampleActor s ∧ op.Recoverable s) System.start s ∧
      s.queue 0 = some q ∧ q.rpcClient ≠ none ∧ s.Quiescent exampleActor 0 q ∧ q.sent = [0, 1] ∧
      ((∃ n, ∀ k, k ∈ q.sent ↔ k < n) ∧ ∀ arrivals : List Arrival,
        (∀ k, k ∈ arrivals.filterMap Arrival.seqNo? ↔ k ∈ q.sent) →
        (ActorSchedulingQueue.handleAll arrivals).waitTimer = false) := by
  have hrun : (runAll (SubmitterOp.run exampleActor)
      (fun op s => op.Enabled exampleActor s ∧ op.Recoverable s)
      (missedDisconnect 1 ++ [.submitTask 0 fun _ => false] ++ submitExample 1 0 ++
        [exampleReply 0 0 false, exampleReply 0 0 true, exampleReply 1 1 true]) System.start).map
      (fun s => (s.queue 0).any fun q => q.rpcClient ≠ none ∧ s.Quiescent exampleActor 0 q ∧
        q.sent = [0, 1]) = some true := by decide +kernel
  obtain ⟨s, hs, hany⟩ := exists_reaches hrun
  obtain ⟨q, hq, hquiet⟩ := (Option.any_eq_true _ _).mp hany
  obtain ⟨hrpc, hquiet, hsent⟩ := of_decide_eq_true hquiet
  exact ⟨s, q, hs, hq, hrpc, hquiet, hsent, sent_gapless hs hq hrpc hquiet⟩

end AmazonRay.ActorSubmitter
