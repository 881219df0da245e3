import AmazonRay.ActorSubmitter.Numbering

/-! Reconnecting leaves no hole in the numbers, if the tasks in flight and those whose dependencies fail are retried. -/
namespace AmazonRay.ActorSubmitter
open Program TaskManager List System ClientQueue

def System.outside (cfg : ActorConfig) (s : System) (hand : List TaskID) (actor : ActorID) (c : Nat) :
    Prop :=
  ∃ x, (x ∈ s.worker.lineage.toSubmit ∨ x ∈ hand) ∧ cfg.actorId x = actor ∧ cfg.actorCounter x = c

def ClientQueue.Closed (q : ClientQueue) : Prop :=
  q.rpcClient = none ∧ q.inflightTaskCallbacks = ∅

def InOrder (cfg : ActorConfig) (hand : List TaskID) (s : System) (actor : ActorID) (q : ClientQueue) :
    Prop :=
  (q.state = .dead → q.Closed) ∧ (q.state ≠ .dead → Numbered cfg actor (s.outside cfg hand actor) q)

/-- `hand` are the tasks that a program has taken out of the queues. -/
def Sequenced (cfg : ActorConfig) (hand : List TaskID) (s : System) : Prop :=
  ∀ actor q, s.queue actor = some q → InOrder cfg hand s actor q

section

variable {cfg : ActorConfig} {hand hand' : List TaskID} {s t : System} {actor : ActorID}
  {q q' : ClientQueue} {id : TaskID}

lemma System.outside_cons {c : Nat} : s.outside cfg (id :: hand) actor c ↔
      s.outside cfg hand actor c ∨ cfg.actorId id = actor ∧ cfg.actorCounter id = c := by
  constructor
  · rintro ⟨x, hx | hx, hactor⟩
    · exact .inl ⟨x, .inl hx, hactor⟩
    rcases mem_cons.mp hx with rfl | hx
    · exact .inr hactor
    · exact .inl ⟨x, .inr hx, hactor⟩
  · rintro (⟨x, hx, hactor⟩ | hactor)
    · exact ⟨x, hx.imp_right (mem_cons_of_mem _), hactor⟩
    · exact ⟨id, .inr mem_cons_self, hactor⟩

lemma Sequenced.withQueue (h : Sequenced cfg hand s)
    (ho : ∀ x c, x ≠ actor → s.outside cfg hand x c → s.outside cfg hand' x c)
    (hq : InOrder cfg hand' s actor q') : Sequenced cfg hand' (s.withQueue actor q') := by
  intro x r hr
  rw [queue_withQueue] at hr
  split at hr
  case isTrue hx =>
    cases hr
    exact hx ▸ hq
  case isFalse hx =>
    obtain ⟨hdead, hnumbered⟩ := h x r hr
    exact ⟨hdead, fun hs => (hnumbered hs).mono fun c hc => ho x c hx hc⟩

lemma Sequenced.update (h : Sequenced cfg hand s) (hq : s.queue actor = some q)
    (hstate : q'.state = q.state) (hclosed : q.Closed → q'.Closed)
    (hn : q.state ≠ .dead → Numbered cfg actor (s.outside cfg hand actor) q →
      Numbered cfg actor (s.outside cfg hand actor) q') : Sequenced cfg hand (s.withQueue actor q') := by
  obtain ⟨hdead, hnumbered⟩ := h actor q hq
  refine h.withQueue (fun _ _ _ hc => hc) ⟨?_, ?_⟩
  · rw [hstate]
    exact fun hs => hclosed (hdead hs)
  · rw [hstate]
    exact fun hs => hn hs (hnumbered hs)

lemma Sequenced.take (h : Sequenced cfg hand s) (hq : s.queue actor = some q)
    (hstate : q'.state = q.state) (hclosed : q.Closed → q'.Closed)
    (hn : q.state ≠ .dead → Numbered cfg actor (s.outside cfg hand actor) q → cfg.actorId id = actor ∧
      Numbered cfg actor (fun c => s.outside cfg hand actor c ∨ c = cfg.actorCounter id) q') :
    Sequenced cfg (id :: hand) (s.withQueue actor q') := by
  obtain ⟨hdead, hnumbered⟩ := h actor q hq
  refine h.withQueue (fun _ _ _ hc => outside_cons.mpr (.inl hc)) ⟨?_, ?_⟩
  · rw [hstate]
    exact fun hs => hclosed (hdead hs)
  · rw [hstate]
    intro hs
    obtain ⟨hid, hn⟩ := hn hs (hnumbered hs)
    refine hn.mono fun c hc => outside_cons.mpr (hc.imp_right fun hc => ⟨hid, hc.symm⟩)

lemma Sequenced.give (h : Sequenced cfg (id :: hand) s) (hq : s.queue actor = some q)
    (hid : cfg.actorId id = actor) (hstate : q'.state = q.state) (hclosed : q.Closed → q'.Closed)
    (hn : q.state ≠ .dead → Numbered cfg actor (fun c => s.outside cfg hand actor c ∨ c = cfg.actorCounter id) q →
      Numbered cfg actor (s.outside cfg hand actor) q') : Sequenced cfg hand (s.withQueue actor q') := by
  obtain ⟨hdead, hnumbered⟩ := h actor q hq
  refine h.withQueue (fun x c hx hc => ?_) ⟨?_, ?_⟩
  · exact (outside_cons.mp hc).resolve_right fun hc => hx (hc.1.symm.trans hid)
  · rw [hstate]
    exact fun hs => hclosed (hdead hs)
  · rw [hstate]
    refine fun hs => hn hs ((hnumbered hs).mono fun c hc => ?_)
    exact (outside_cons.mp hc).imp_right fun hc => hc.2.symm

lemma Sequenced.outside (h : Sequenced cfg hand s) (hq : t.submitter.clientQueues = s.submitter.clientQueues)
    (ho : ∀ x c, s.outside cfg hand x c → t.outside cfg hand' x c) : Sequenced cfg hand' t := by
  intro x r hr
  rw [queue, hq] at hr
  obtain ⟨hdead, hnumbered⟩ := h x r hr
  exact ⟨hdead, fun hs => (hnumbered hs).mono (ho x)⟩

end

def Owned (cfg : ActorConfig) (actor : ActorID) (x : TaskID) (s : System) : Prop :=
  cfg.actorId x = actor ∧
    ∀ q, s.queue actor = some q → q.state ≠ .dead → cfg.actorCounter x < q.numSubmitted

def SentOn (cfg : ActorConfig) (actor : ActorID) (x : TaskID) (s : System) : Prop :=
  ∀ q, s.queue actor = some q → q.state ≠ .dead →
    q.actorSubmitQueue.callerStartsAt ≤ cfg.actorCounter x →
    cfg.actorCounter x - q.actorSubmitQueue.callerStartsAt ∈ q.sent

/-- Where the queue of the actor stands is not changed, and no attempt but the one of the task. -/
structure Framed (actor : ActorID) (id : TaskID) (s t : System) : Prop where
  queue : ∀ q', t.queue actor = some q' → ∃ q, s.queue actor = some q ∧ q'.state = q.state ∧
    q'.numSubmitted = q.numSubmitted ∧ q'.sent = q.sent ∧
    q'.actorSubmitQueue.callerStartsAt = q.actorSubmitQueue.callerStartsAt
  attempt : ∀ x, x ≠ id → t.worker.lineage.attempt x = s.worker.lineage.attempt x

section

variable {cfg : ActorConfig} {s t : System} {actor : ActorID} {id x : TaskID} {q : ClientQueue}

lemma owned_withQueue (hx : cfg.actorId x = actor) (hq : q.state ≠ .dead → cfg.actorCounter x < q.numSubmitted) :
    Owned cfg actor x (s.withQueue actor q) := by
  refine ⟨hx, fun r hr => ?_⟩
  rw [queue_withQueue, if_pos rfl] at hr
  cases hr
  exact hq

lemma sentOn_withQueue (hq : q.state ≠ .dead → q.actorSubmitQueue.callerStartsAt ≤ cfg.actorCounter x →
      cfg.actorCounter x - q.actorSubmitQueue.callerStartsAt ∈ q.sent) :
    SentOn cfg actor x (s.withQueue actor q) := by
  intro r hr
  rw [queue_withQueue, if_pos rfl] at hr
  cases hr
  exact hq

instance (actor : ActorID) (id : TaskID) : IsPreorder System (Framed actor id) where
  refl s := ⟨fun q hq => ⟨q, hq, rfl, rfl, rfl, rfl⟩, fun _ _ => rfl⟩
  trans s t u hst htu := by
    refine ⟨fun q'' hq'' => ?_, fun x hx => (htu.attempt x hx).trans (hst.attempt x hx)⟩
    obtain ⟨q', hq', h₁, h₂, h₃, h₄⟩ := htu.queue q'' hq''
    obtain ⟨q, hq, h₁', h₂', h₃', h₄'⟩ := hst.queue q' hq'
    exact ⟨q, hq, h₁.trans h₁', h₂.trans h₂', h₃.trans h₃', h₄.trans h₄'⟩

lemma Framed.owned (h : Framed actor id s t) (hs : Owned cfg actor x s) : Owned cfg actor x t := by
  refine ⟨hs.1, fun q' hq' hstate => ?_⟩
  obtain ⟨q, hq, h₁, h₂, -, -⟩ := h.queue q' hq'
  rw [h₂]
  exact hs.2 q hq (h₁ ▸ hstate)

lemma Framed.sentOn (h : Framed actor id s t) (hs : SentOn cfg actor x s) : SentOn cfg actor x t := by
  intro q' hq' hstate
  obtain ⟨q, hq, h₁, -, h₃, h₄⟩ := h.queue q' hq'
  rw [h₃, h₄]
  exact hs q hq (h₁ ▸ hstate)

structure Failed (id : TaskID) (s : System) (willRetry : Bool) (t : System) : Prop where
  queues : t.submitter.clientQueues = s.submitter.clientQueues
  retried : s.worker.lineage.attempt id ≠ some 0 → willRetry = true
  toSubmit : t.worker.lineage.toSubmit =
    if willRetry then id :: s.worker.lineage.toSubmit else s.worker.lineage.toSubmit
  attempt : ∀ x, x ≠ id → t.worker.lineage.attempt x = s.worker.lineage.attempt x

lemma failPendingTask_failed (id : TaskID) (immediatelyMarkObjectFail : Bool) (s : System) :
    Yields s (failPendingTask cfg id immediatelyMarkObjectFail) fun willRetry t => Failed id s willRetry t := by
  refine .bind (triple_taskManager (V := fun v willRetry v' =>
      ∃ left, v.attempt id = some left ∧ willRetry = decide (left ≠ 0) ∧ v' = v.fail id left)
      (fun before v => (turns_pendingTaskFailed id immediatelyMarkObjectFail).post ?_) ?_)
    fun willRetry => .bind (.onlyIf (fun _ => triple_modifySubmitter fun t ht => ?_) fun _ _ ht => ht) fun _ => .skip
  · rintro willRetry s ⟨left, hleft, hretry, hs⟩
    exact ⟨_, ⟨left, hleft, hretry, rfl⟩, hs⟩
  · rintro _ rfl willRetry _ w ⟨left, hleft, rfl, rfl⟩ hw
    refine ⟨rfl, fun hne => ?_, hw.toSubmit.trans ?_, fun x hx => ?_⟩
    · exact decide_eq_true fun h => hne (h ▸ hleft)
    · unfold Submissions.fail
      by_cases hl : left = 0
      · simp [hl, Tasks.submissions]
      · simp [hl, Tasks.submissions]
    · rw [hw.attempt, Submissions.fail]
      split <;> exact Function.update_of_ne hx _ _
  · exact { ht with }

lemma Failed.framed {willRetry : Bool} (h : Failed id s willRetry t) : Framed actor id s t := by
  refine ⟨fun q hq => ⟨q, ?_, rfl, rfl, rfl, rfl⟩, h.attempt⟩
  rwa [queue, h.queues] at hq

end

variable {cfg : ActorConfig} {hand : List TaskID} {actor : ActorID} {id : TaskID} {q : ClientQueue} {s t : System} (addr : Address) (callbacks : List (TaskID × Callback)) (x : TaskID) (skipExecution : Bool)

lemma Failed.sequenced {willRetry : Bool} (h : Failed id s willRetry t) (hs : Sequenced cfg (id :: hand) s) :
    Sequenced cfg (if willRetry then hand else id :: hand) t := by
  refine hs.outside h.queues fun x c hc => ?_
  cases willRetry with
  | true =>
    have hsub : t.worker.lineage.toSubmit = id :: s.worker.lineage.toSubmit := h.toSubmit
    obtain ⟨y, hy, hactor⟩ := hc
    refine ⟨y, ?_, hactor⟩
    rw [hsub]
    rcases hy with hy | hy
    · exact .inl (mem_cons_of_mem _ hy)
    · rcases mem_cons.mp hy with rfl | hy
      · exact .inl mem_cons_self
      · exact .inr hy
  | false =>
    have hsub : t.worker.lineage.toSubmit = s.worker.lineage.toSubmit := h.toSubmit
    obtain ⟨y, hy, hactor⟩ := hc
    exact ⟨y, hsub ▸ hy, hactor⟩

lemma sequenced_markTaskCompleted :
    Partly (fun s => Sequenced cfg (id :: hand) s ∧ Owned cfg actor id s ∧ SentOn cfg actor id s)
      (markTaskCompleted cfg actor id) fun _ => Sequenced cfg hand := by
  refine onQueue fun q => triple_putQueue fun s hs => ?_
  obtain ⟨⟨hs, howned, hsent⟩, hq⟩ := hs
  refine hs.give hq howned.1 rfl (fun h => h) fun hstate hn => ?_
  exact hn.complete ⟨howned.1, howned.2 q hq hstate⟩ (hsent q hq hstate)

lemma framed_update {q' : ClientQueue} (hq : s.queue actor = some q)
    (h : q'.state = q.state ∧ q'.numSubmitted = q.numSubmitted ∧ q'.sent = q.sent ∧
      q'.actorSubmitQueue.callerStartsAt = q.actorSubmitQueue.callerStartsAt) :
    Framed actor id s (s.withQueue actor q') := by
  refine ⟨fun r hr => ?_, fun _ _ => rfl⟩
  rw [queue_withQueue, if_pos rfl] at hr
  cases hr
  exact ⟨q, hq, h⟩

lemma steps_markTaskCompleted : Steps (Framed actor id) (fun _ => True) (markTaskCompleted cfg actor x) := by
  intro s
  refine onQueue fun q => triple_putQueue ?_
  rintro _ ⟨rfl, hq⟩
  exact framed_update hq ⟨rfl, rfl, rfl, rfl⟩

lemma sequenced_waitForDeathInfo : Keeps (Sequenced cfg hand) (waitForDeathInfo cfg actor x) := by
  refine onQueue fun q => .read fun s hs => triple_putQueue ?_
  rintro _ rfl
  exact hs.1.update hs.2 rfl id fun _ hn => hn.same rfl rfl rfl rfl rfl

lemma steps_waitForDeathInfo : Steps (Framed actor id) (fun _ => True) (waitForDeathInfo cfg actor x) := by
  intro s
  refine onQueue fun q => .read fun t ht => triple_putQueue ?_
  obtain ⟨rfl, hq⟩ := ht
  rintro _ rfl
  exact framed_update hq ⟨rfl, rfl, rfl, rfl⟩

lemma steps_networkError (id : TaskID) : Steps (Framed actor id) (fun _ => True) (networkError cfg actor id) := by
  have hc := composes_steps (ε := Check) (Framed actor id) fun _ => True
  refine hc.bind (fun s => ?_) fun q => hc.bind (fun s => ?_) fun willRetry => ?_
  · refine triple_findQueue.post ?_
    rintro _ _ ⟨rfl, -⟩
    exact refl_of (Framed actor id) _
  · exact (failPendingTask_failed id _ s).post fun _ _ h => h.framed
  · exact hc.onlyIf fun _ => hc.seq (hc.onlyIf fun _ => steps_waitForDeathInfo id) (steps_markTaskCompleted id)

lemma sequenced_networkError : Partly (fun s => Sequenced cfg (id :: hand) s ∧ Owned cfg actor id s ∧
        (SentOn cfg actor id s ∨ s.worker.lineage.attempt id ≠ some 0))
      (networkError cfg actor id) fun _ => Sequenced cfg hand := by
  refine onQueue fun q => ?_
  refine .bind (Q := fun willRetry t => Sequenced cfg (if willRetry then hand else id :: hand) t ∧
    (willRetry = false → Owned cfg actor id t ∧ SentOn cfg actor id t)) (fun s hs => ?_)
    fun willRetry => .onlyIf (fun hr => ?_) fun hr s hs => ?_
  · refine (failPendingTask_failed id _ s).post (fun willRetry t ht => ?_) s rfl
    obtain ⟨⟨hseq, howned, hsent⟩, -⟩ := hs
    refine ⟨ht.sequenced hseq, fun hr => ⟨ht.framed.owned howned, ht.framed.sentOn ?_⟩⟩
    refine hsent.resolve_right fun hne => ?_
    rw [ht.retried hne] at hr
    cases hr
  · subst hr
    refine .bind (.onlyIf (fun _ => ?_) fun _ s hs => ⟨hs.1, hs.2 rfl⟩) fun _ => sequenced_markTaskCompleted
    refine .pre (P := fun s => Sequenced cfg (id :: hand) s ∧
      (Owned cfg actor id s ∧ SentOn cfg actor id s)) ?_ fun s hs => ⟨hs.1, hs.2 rfl⟩
    exact (sequenced_waitForDeathInfo id).and ((steps_waitForDeathInfo id).triple
      fun s _ t hs (hst : Framed actor id s t) => ⟨hst.owned hs.1, hst.sentOn hs.2⟩)
  · rw [if_pos (by simpa using hr)] at hs
    exact hs.1

lemma steps_replyCallback (id : TaskID) (callback : Callback) :
    Steps (Framed actor id) (fun _ => True) (replyCallback cfg actor id callback none) :=
  (composes_steps (Framed actor id) fun _ => True).ite (fun _ => steps_markTaskCompleted id) fun _ =>
    steps_networkError id

lemma sequenced_replyCallback (callback : Callback) (answer : PushAnswer) :
    Partly (fun s => Sequenced cfg (id :: hand) s ∧ Owned cfg actor id s ∧ (SentOn cfg actor id s ∨
        callback.taskSkipped = false ∧ answer = none ∧ s.worker.lineage.attempt id ≠ some 0))
      (replyCallback cfg actor id callback answer) fun _ => Sequenced cfg hand := by
  refine .ite (fun hskip => ?_) fun hskip => ?_
  · refine sequenced_markTaskCompleted.pre fun s hs => ⟨hs.1, hs.2.1, hs.2.2.resolve_right ?_⟩
    rintro ⟨h, -⟩
    rw [hskip] at h
    cases h
  · cases answer with
    | none => exact sequenced_networkError.pre fun s hs => ⟨hs.1, hs.2.1, hs.2.2.imp_right fun h => h.2.2⟩
    | some a =>
      refine .bind (.bind (triple_turns
          (fun before v => turns_completePendingTask id a.1 _ _) fun s hs _ w hw => ?_) fun _ =>
            triple_modifySubmitter fun s hs => hs) fun _ => sequenced_markTaskCompleted
      have hsent : SentOn cfg actor id s := hs.2.2.resolve_right fun h => (nomatch h.2.1)
      refine ⟨hs.1.outside rfl fun x c => ?_, hs.2.1, hsent⟩
      rintro ⟨y, hy, hactor⟩
      refine ⟨y, hy.imp_left fun hy => ?_, hactor⟩
      rw [hw.toSubmit]
      exact hy

lemma sequenced_handlePushReply (p : Push) (answer : PushAnswer) :
    Keeps (Sequenced cfg hand) (handlePushReply cfg p answer) := by
  refine .seq (triple_modifySubmitter (Q := fun _ => Sequenced cfg hand) fun s hs => hs) (onQueue fun q => ?_)
  cases hx : q.inflightTaskCallbacks.lookup p.taskId with
  | none => exact .pure fun _ hs => hs.1
  | some callback =>
    refine .bind (triple_putQueue fun s hs => ?_) fun _ => sequenced_replyCallback callback answer
    obtain ⟨hdead, hnumbered⟩ := hs.1 p.actorId q hs.2
    have halive : q.state ≠ .dead := fun h => by
      rw [(hdead h).2] at hx
      cases hx
    have hn := hnumbered halive
    have hsub := hn.inflight _ _ hx
    refine ⟨hs.1.take hs.2 rfl (fun h => absurd h ?_) fun _ hn => ⟨hsub.1, hn.eraseCallback _⟩, ?_, ?_⟩
    · rintro ⟨-, hempty⟩
      rw [hempty] at hx
      cases hx
    · exact owned_withQueue hsub.1 fun _ => hsub.2
    · exact .inl (sentOn_withQueue fun _ hle => hn.sent _ hle (.inr ⟨p.taskId, callback, hx, rfl⟩))

/-- There is a connection, and the tasks in hand are those of the actor. -/
structure Sending (cfg : ActorConfig) (actor : ActorID) (hand : List TaskID) (s : System) : Prop where
  sequenced : Sequenced cfg hand s
  online : ∀ q, s.queue actor = some q → q.rpcClient ≠ none
  owned : ∀ x ∈ hand, Owned cfg actor x s

lemma Sending.withQueue (h : Sequenced cfg hand (s.withQueue actor q))
    (hrpc : q.rpcClient ≠ none) (ho : ∀ x ∈ hand, q.Submitted cfg actor x) :
    Sending cfg actor hand (s.withQueue actor q) := by
  refine ⟨h, fun r hr => ?_, fun x hx => owned_withQueue (ho x hx).1 fun _ => (ho x hx).2⟩
  rw [queue_withQueue, if_pos rfl] at hr
  cases hr
  exact hrpc

lemma Sending.queue (h : Sending cfg actor hand s)
    (hq : s.queue actor = some q) : q.rpcClient ≠ none ∧ q.state ≠ .dead ∧
      (∀ x ∈ hand, q.Submitted cfg actor x) ∧ Numbered cfg actor (s.outside cfg hand actor) q := by
  have hrpc := h.online q hq
  have halive : q.state ≠ .dead := fun hd => hrpc ((h.sequenced actor q hq).1 hd).1
  exact ⟨hrpc, halive, fun x hx => ⟨(h.owned x hx).1, (h.owned x hx).2 q hq halive⟩, (h.sequenced actor q hq).2 halive⟩

lemma sending_pushActorTask (skipQueue : Bool) : Partly (Sending cfg actor (id :: hand))
      (pushActorTask cfg actor addr id skipExecution skipQueue) fun _ => Sending cfg actor hand := by
  refine onQueue fun q => .seq (.checked fun _ _ _ => trivial)
    (.seq (triple_putQueue (Q := fun _ => Sending cfg actor hand) ?_) (triple_modifySubmitter fun s hs => { hs with }))
  rintro s ⟨⟨hs, hq⟩, hle⟩
  obtain ⟨hrpc, -, howned, -⟩ := hs.queue hq
  have hid := howned id mem_cons_self
  refine Sending.withQueue (hs.sequenced.give hq hid.1 rfl (fun h => absurd h.1 hrpc) fun _ hn => ?_)
    hrpc fun x hx => howned x (mem_cons_of_mem _ hx)
  exact hn.push hid hrpc hle _

lemma sending_sendTasks (n : Nat) : Keeps (Sending cfg actor hand) (sendTasks cfg actor addr n) := by
  induction n with
  | zero => exact .pure fun _ hs => hs
  | succ n ih =>
    refine onQueue fun q => ?_
    cases hpop : q.actorSubmitQueue.popNextTaskToSend with
    | none => exact .pure fun _ hs => hs.1
    | some p =>
      obtain ⟨⟨id, skipQueue⟩, rest⟩ := p
      refine .bind (triple_putQueue ?_) fun _ => .testing (.seq (sending_pushActorTask addr false skipQueue) ih)
      rintro s ⟨hs, hq⟩
      obtain ⟨hrpc, -, howned, hn⟩ := hs.queue hq
      have hsub := (hn.pop hpop).2
      refine Sending.withQueue (hs.sequenced.take hq rfl (fun h => h) fun _ hn =>
        ⟨hsub.1, (hn.pop hpop).1⟩) hrpc fun x hx => ?_
      rcases mem_cons.mp hx with rfl | hx
      · exact hsub
      · exact howned x hx

lemma sequenced_sendPendingTasks : Partly (fun s => Sequenced cfg hand s ∧ ∀ x ∈ hand, Owned cfg actor x s)
      (sendPendingTasks cfg actor)
      fun _ s => Sequenced cfg hand s ∧ ∀ x ∈ hand, Owned cfg actor x s := by
  refine onQueue fun q => ?_
  cases hrpc : q.rpcClient with
  | none => exact .pure fun _ hs => hs.1
  | some addr =>
    refine .seq (triple_putQueue (Q := fun _ => Sending cfg actor hand) ?_) (.bind (triple_modifySubmitter
        fun s hs => { hs with }) fun _ => (sending_sendTasks addr _).post fun _ _ hs => ⟨hs.sequenced, hs.owned⟩)
    rintro s ⟨⟨hseq, howned⟩, hq⟩
    have hne : q.rpcClient ≠ none := fun h => by rw [h] at hrpc; cases hrpc
    have halive : q.state ≠ .dead := fun hd => hne ((hseq actor q hq).1 hd).1
    refine Sending.withQueue (hseq.update hq rfl (fun h => absurd h.1 hne) fun _ hn =>
      hn.same rfl rfl rfl rfl hrpc.symm) (nomatch ·) fun x hx => ⟨(howned x hx).1, (howned x hx).2 q hq halive⟩

lemma sequenced_resendOutOfOrderTasks (hand : List TaskID)
    (hidle : q.inflightTaskCallbacks = ∅) (address : Address) (numRestarts : Int) :
    Partly (fun s => ∃ u, Sequenced cfg hand u ∧ s = u.withQueue actor (q.connect address numRestarts) ∧
        Numbered cfg actor (u.outside cfg hand actor) q ∧ ∀ x ∈ hand, q.Submitted cfg actor x)
      (resendOutOfOrderTasks cfg actor)
      fun _ s => Sequenced cfg hand s ∧ ∀ x ∈ hand, Owned cfg actor x s := by
  let tasks := q.actorSubmitQueue.outOfOrderCompletedTasks
  refine onQueue fun r => ?_
  rintro s ⟨⟨u, hu, rfl, hn, howned⟩, hq⟩
  rw [queue_withQueue, if_pos rfl] at hq
  cases hq
  refine Triple.bind (.tested fun _ _ => trivial) (fun _ => .seq (triple_putQueue (Q := fun _ =>
      Sending cfg actor (tasks.map Prod.snd ++ hand)) ?_) ?_) _ rfl
  · rintro _ rfl
    have houtside : ∀ x c, u.outside cfg hand x c → u.outside cfg (tasks.map Prod.snd ++ hand) x c :=
      fun x c ⟨y, hy, hactor⟩ => ⟨y, hy.imp_right (mem_append_right _), hactor⟩
    rw [withQueue_withQueue]
    refine Sending.withQueue (hu.withQueue (fun x c _ => houtside x c) ⟨nofun, fun _ => ?_⟩)
      (nomatch ·) fun x hx => ?_
    · refine (hn.connect hidle address numRestarts).mono fun c hc => ?_
      rcases hc with hc | hc
      · exact houtside actor c hc
      · obtain ⟨p, hp, rfl⟩ := mem_map.mp hc
        exact ⟨p.2, .inr (mem_append_left _ (mem_map_of_mem hp)), (hn.completed p hp).1.1, (hn.completed p hp).2⟩
    · rcases mem_append.mp hx with hx | hx
      · obtain ⟨p, hp, rfl⟩ := mem_map.mp hx
        exact (hn.completed p hp).1
      · exact howned x hx
  · have h := Triple.forM (I := fun l => Sending cfg actor (l.map Prod.snd ++ hand)) (fun p l => sending_pushActorTask address true true) tasks
    exact h.post fun _ _ hs => ⟨hs.sequenced, hs.owned⟩

abbrev Returned (cfg : ActorConfig) (actor : ActorID) (s : System) (c : TaskID × Callback) : Prop :=
  Owned cfg actor c.1 s ∧ (SentOn cfg actor c.1 s ∨ c.2.taskSkipped = false ∧ s.worker.lineage.attempt c.1 ≠ some 0)

lemma sequenced_failInflightTasks (hnodup : (callbacks.map Prod.fst).Nodup) :
    Partly (fun s => Sequenced cfg (callbacks.map Prod.fst ++ hand) s ∧ ∀ c ∈ callbacks,
        Returned cfg actor s c)
      (failInflightTasks cfg actor callbacks) fun _ => Sequenced cfg hand := by
  refine (Triple.forM (I := fun l s => Sequenced cfg (l.map Prod.fst ++ hand) s ∧
      (l.map Prod.fst).Nodup ∧ ∀ c ∈ l, Returned cfg actor s c) (fun c l => ?_) callbacks).conseq
    (fun s hs => ⟨hs.1, hnodup, hs.2⟩) (fun _ _ hs => hs.1) fun _ _ h => h
  have hstep : Steps (Framed actor c.1) (fun _ => True) (replyCallback cfg actor c.1 c.2 none) :=
    steps_replyCallback c.1 c.2
  have hothers := hstep.triple
    (P := fun s => (c.1 ∉ l.map Prod.fst ∧ (l.map Prod.fst).Nodup) ∧ ∀ c ∈ l, Returned cfg actor s c)
    (Q := fun _ s => (l.map Prod.fst).Nodup ∧ ∀ c ∈ l, Returned cfg actor s c)
    fun s _ t hs (hst : Framed actor c.1 s t) => ⟨hs.1.2, fun c' hc' => ?_⟩
  · refine ((sequenced_replyCallback c.2 none).and hothers).pre fun s hs => ?_
    obtain ⟨hseq, hnodup, hcs⟩ := hs
    obtain ⟨howned, hsafe⟩ := hcs c mem_cons_self
    exact ⟨⟨hseq, howned, hsafe.imp_right fun h => ⟨h.1, rfl, h.2⟩⟩, nodup_cons.mp hnodup,
      fun c' hc' => hcs c' (mem_cons_of_mem _ hc')⟩
  · obtain ⟨howned, hsafe⟩ := hs.2 c' hc'
    have hne : c'.1 ≠ c.1 := fun h => hs.1.1 (h ▸ mem_map_of_mem hc')
    refine ⟨hst.owned howned, hsafe.imp hst.sentOn fun h => ⟨h.1, ?_⟩⟩
    rw [hst.attempt _ hne]
    exact h.2

abbrev KeepsWorker {α : Type} (x : SubmitM α) : Prop := Steps (fun s t : System => t.worker = s.worker) (fun _ => True) x

lemma steps_pushActorTask (skipQueue : Bool) : KeepsWorker (pushActorTask cfg actor addr id skipExecution skipQueue) := by
  intro s
  refine onQueue fun q => .testing (.bind (triple_putQueue ?_) fun _ => triple_modifySubmitter fun t ht => ht)
  rintro _ ⟨rfl, -⟩
  rfl

instance : IsPreorder System fun s t => t.worker = s.worker where
  refl _ := rfl
  trans _ _ _ hst htu := htu.trans hst

lemma composes_keepsWorker : Composes fun _ (x : SubmitM _) => KeepsWorker x := composes_steps _ _

lemma steps_findQueue : KeepsWorker (findQueue actor) := fun _ => triple_findQueue.post fun _ _ ht => congrArg worker ht.1

lemma steps_putQueue (q : ClientQueue) : KeepsWorker (putQueue actor q) :=
  fun _ => triple_putQueue fun t ht => show t.worker = _ from congrArg worker ht

lemma steps_sendTasks (n : Nat) :
    KeepsWorker (sendTasks cfg actor addr n) := by
  have hc := composes_keepsWorker
  induction n with
  | zero => exact hc.pure ()
  | succ n ih =>
    refine hc.bind steps_findQueue fun q => ?_
    cases q.actorSubmitQueue.popNextTaskToSend with
    | none => exact hc.pure ()
    | some p =>
      refine hc.seq (steps_putQueue _) (hc.seq (fun s => .check (fun _ _ ht =>
        congrArg worker ht) fun _ _ _ => trivial) ?_)
      exact hc.seq (steps_pushActorTask addr false _) ih

lemma steps_sendPendingTasks :
    KeepsWorker (sendPendingTasks cfg actor) := by
  have hc := composes_keepsWorker
  refine hc.bind steps_findQueue fun q => ?_
  cases q.rpcClient with
  | none => exact hc.pure ()
  | some addr =>
    exact hc.seq (steps_putQueue _) (hc.seq (fun _ => triple_modifySubmitter fun t ht =>
      show t.worker = _ from congrArg worker ht) (steps_sendTasks addr _))

lemma steps_resendOutOfOrderTasks :
    KeepsWorker (resendOutOfOrderTasks cfg actor) := by
  have hc := composes_keepsWorker
  refine hc.bind steps_findQueue fun q => ?_
  cases q.rpcClient with
  | none => exact hc.pure ()
  | some addr =>
    refine hc.seq (fun s => .check (fun _ _ ht => congrArg worker ht) fun _ _ _ => trivial)
      (hc.seq (steps_putQueue _) (hc.forM (fun p => ?_) _))
    exact steps_pushActorTask addr true true

/-- The tasks in flight on the old connection are not skipped, and have retries left. -/
def ClientQueue.Repeated (q : ClientQueue) (t : Tasks) : Prop :=
  ∀ x callback, q.inflightTaskCallbacks.lookup x = some callback →
    callback.taskSkipped = false ∧ t.attempt x ≠ some 0

lemma mem_order_inflight {c : TaskID × Callback} (h : c ∈ cfg.order q.inflight) :
    q.inflightTaskCallbacks.lookup c.1 = some c.2 :=
  mem_inflight.mp ((cfg.order_perm q.inflight).mem_iff.mp h)

lemma nodup_order_inflight (q : ClientQueue) : ((cfg.order q.inflight).map Prod.fst).Nodup := by
  refine ((cfg.order_perm q.inflight).map Prod.fst).nodup_iff.mpr ?_
  have hkeys : q.inflight.map Prod.fst = q.inflightTaskCallbacks.keys := by
    rw [inflight, map_map]
    rfl
  rw [hkeys]
  exact AList.keys_nodup _

lemma outside_of_flying {c : Nat}
    (hn : ∀ x callback, q.inflightTaskCallbacks.lookup x = some callback → cfg.actorId x = actor)
    (h : q.Flying cfg c) :
    s.outside cfg ((cfg.order q.inflight).map Prod.fst) actor c := by
  obtain ⟨x, callback, hx, hc⟩ := h
  have hmem := (cfg.order_perm q.inflight).mem_iff.mpr (mem_inflight.mpr hx)
  exact ⟨x, .inr (mem_map_of_mem hmem), hn x callback hx, hc⟩

lemma Sequenced.mono {hand' : List TaskID} (h : Sequenced cfg hand s)
    (hh : ∀ x ∈ hand, x ∈ hand') : Sequenced cfg hand' s :=
  h.outside rfl fun _ _ ⟨y, hy, hactor⟩ => ⟨y, hy.imp_right (hh y), hactor⟩

lemma sequenced_reconnect (hidle : q.inflightTaskCallbacks = ∅) (hnodup : (callbacks.map Prod.fst).Nodup)
    (address : Address) (numRestarts : Int) :
    Partly (fun s => Sequenced cfg (callbacks.map Prod.fst) s ∧
        Numbered cfg actor (s.outside cfg (callbacks.map Prod.fst) actor) q ∧ ∀ c ∈ callbacks,
          q.Submitted cfg actor c.1 ∧ c.2.taskSkipped = false ∧ s.worker.lineage.attempt c.1 ≠ some 0)
      (do
        putQueue actor (q.connect address numRestarts)
        resendOutOfOrderTasks cfg actor
        sendPendingTasks cfg actor
        failInflightTasks cfg actor callbacks) fun _ => Sequenced cfg [] := by
  let ids := callbacks.map Prod.fst
  let Retried : System → Prop := fun s => ∀ c ∈ callbacks,
    c.2.taskSkipped = false ∧ s.worker.lineage.attempt c.1 ≠ some 0
  have hkeep : ∀ {x : SubmitM Unit}, KeepsWorker x →
      Partly Retried x fun _ => Retried := fun hx =>
    hx.triple fun s _ t hs (hst : t.worker = s.worker) => by simpa only [Retried, hst] using hs
  refine .bind (triple_putQueue ?_) fun _ =>
    .seq ((sequenced_resendOutOfOrderTasks ids hidle address numRestarts).and (hkeep steps_resendOutOfOrderTasks))
    (.seq (sequenced_sendPendingTasks.and (hkeep steps_sendPendingTasks))
      ((sequenced_failInflightTasks callbacks hnodup).pre ?_))
  · rintro s ⟨hs, hn, hc⟩
    refine ⟨⟨s, hs, rfl, hn, fun x hx => ?_⟩, fun c hm => (hc c hm).2⟩
    obtain ⟨c, hm, rfl⟩ := mem_map.mp hx
    exact (hc c hm).1
  · rintro s ⟨⟨hs, howned⟩, hretried⟩
    refine ⟨(append_nil ids).symm ▸ hs, fun c hm => ?_⟩
    exact ⟨howned c.1 (mem_map_of_mem hm), .inr (hretried c hm)⟩

lemma sequenced_connectActor (address : Address) (numRestarts : Int) :
    Partly (fun s => Sequenced cfg [] s ∧ ∀ q, s.queue actor = some q →
        q.skipsConnection address numRestarts = false → q.rpcClient ≠ none → q.Repeated s.worker.lineage)
      (connectActor cfg actor address numRestarts) fun _ => Sequenced cfg [] := by
  refine onQueue fun q => .ite (fun _ => .pure fun _ hs => hs.1.1) fun hskip => ?_
  have hskip := Bool.eq_false_iff.mpr hskip
  have halive : q.state ≠ .dead := fun h => by simp [skipsConnection, h] at hskip
  cases hrpc : q.rpcClient with
  | none =>
    rintro s ⟨⟨hs, -⟩, hq⟩
    have hn := (hs actor q hq).2 halive
    exact sequenced_reconnect [] (hn.idle hrpc) nodup_nil address numRestarts s ⟨hs, hn, nofun⟩
  | some old =>
    rintro s ⟨⟨hs, hrepeated⟩, hq⟩
    have hn := (hs actor q hq).2 halive
    refine sequenced_reconnect (cfg.order q.inflight) rfl
      (nodup_order_inflight q) address numRestarts s ⟨hs.mono nofun, ?_, fun c hc => ?_⟩
    · refine hn.disconnect.mono fun c hc => ?_
      rcases hc with ⟨x, hx, hactor⟩ | hc
      · exact ⟨x, hx.imp_right (nomatch ·), hactor⟩
      · exact outside_of_flying (fun x cb hx => (hn.inflight x cb hx).1) hc
    · have hx := mem_order_inflight hc
      exact ⟨hn.inflight _ _ hx, hrepeated q hq hskip (fun h => by rw [h] at hrpc; cases hrpc) _ _ hx⟩

/-- The queues stay, and no attempt that is to be submitted is lost. -/
structure Grows (s t : System) : Prop where
  queues : t.submitter.clientQueues = s.submitter.clientQueues
  toSubmit : s.worker.lineage.toSubmit ⊆ t.worker.lineage.toSubmit

instance : IsPreorder System Grows where
  refl _ := ⟨rfl, .refl _⟩
  trans _ _ _ hst htu := ⟨htu.queues.trans hst.queues, List.Subset.trans hst.toSubmit htu.toSubmit⟩

lemma Grows.sequenced (h : Grows s t) (hs : Sequenced cfg hand s) :
    Sequenced cfg hand t :=
  hs.outside h.queues fun _ _ ⟨y, hy, hactor⟩ => ⟨y, hy.imp_left fun hy => h.toSubmit hy, hactor⟩

lemma grows_failPendingTask (id : TaskID) (immediatelyMarkObjectFail : Bool) :
    Steps Grows (fun _ => True) (failPendingTask cfg id immediatelyMarkObjectFail) := by
  refine fun s => (failPendingTask_failed id immediatelyMarkObjectFail s).post fun willRetry t ht => ⟨ht.queues, ?_⟩
  rw [ht.toSubmit]
  split
  · exact subset_cons_self _ _
  · exact .refl _

lemma grows_turns {α : Type} {x : WorkerM α} {f : Submissions → Submissions}
    (hx : ∀ before v, Turns before v x fun _ => f v) (hf : ∀ v, (f v).toSubmit = v.toSubmit) :
    Steps Grows (fun _ => True) (taskManager x) := by
  refine fun s => triple_turns hx ?_
  rintro _ rfl _ w hw
  refine ⟨rfl, ?_⟩
  rw [hw.toSubmit, hf]
  exact .refl _

lemma grows_cancelTask (id : TaskID) : Steps Grows (fun _ => True) (cancelTask cfg id) := by
  have hc := composes_steps (ε := Check) Grows fun _ => True
  refine hc.seq (grows_turns (fun before v => turns_markTaskCanceled id) fun _ => rfl) ?_
  exact hc.seq (grows_failPendingTask id true) (hc.pure ())

lemma grows_markFailed (id : TaskID) : Steps Grows (fun _ => True) (markFailed id) := by
  have hc := composes_steps (ε := Check) Grows fun _ => True
  refine hc.bind (fun s => .get fun _ ht => ht ▸ refl_of Grows s) fun s => ?_
  refine hc.bind (grows_turns (fun before v => turns_markPendingTaskFailed _)
    fun _ => rfl) fun _ => fun s => triple_modifySubmitter ?_
  rintro _ rfl
  exact ⟨rfl, .refl _⟩

lemma sequenced_failAll : Partly (Sequenced cfg hand) (failAll cfg actor q)
      fun _ s => Sequenced cfg hand s ∧ ∀ r, s.queue actor = some r → r.state = .dead := by
  have hc := composes_steps (ε := Check) Grows fun _ => True
  refine .seq (triple_putQueue (Q := fun _ s => Sequenced cfg hand s ∧
    ∀ r, s.queue actor = some r → r.state = .dead) fun s hs => ⟨?_, fun r hr => ?_⟩)
      ((hc.seq (hc.forM grows_cancelTask _) (hc.forM (fun p : Int × TaskID =>
        grows_markFailed p.2) _)).triple fun s _ t hs (hst : Grows s t) => ⟨hst.sequenced hs.1, ?_⟩)
  · exact hs.withQueue (fun _ _ _ h => h) ⟨fun _ => ⟨rfl, rfl⟩, fun h => absurd rfl h⟩
  · rw [queue_withQueue, if_pos rfl] at hr
    cases hr
    rfl
  · intro r hr
    rw [queue, hst.queues] at hr
    exact hs.2 r hr

lemma sequenced_disconnectActor (numRestarts : Int) (dead : Bool) :
    Keeps (Sequenced cfg []) (disconnectActor cfg actor numRestarts dead) := by
  refine onQueue fun q => .testing ?_
  refine .ite (fun _ => .pure fun _ hs => hs.1) fun _ => ?_
  let callbacks := cfg.order q.inflight
  -- the callbacks of a queue that is in order are those of its actor
  have hactor : ∀ s, Sequenced cfg [] s → s.queue actor = some q → ∀ c ∈ callbacks,
      cfg.actorId c.1 = actor ∧ q.state ≠ .dead := by
    intro s hs hq c hc
    have hx := mem_order_inflight hc
    have halive : q.state ≠ .dead := fun h => by
      rw [((hs actor q hq).1 h).2] at hx
      cases hx
    exact ⟨(((hs actor q hq).2 halive).inflight _ _ hx).1, halive⟩
  have hdead : ∀ s, Sequenced cfg [] s → (∀ c ∈ callbacks, cfg.actorId c.1 = actor) →
      (∀ r, s.queue actor = some r → r.state = .dead) → Sequenced cfg (callbacks.map Prod.fst ++ []) s ∧
      ∀ c ∈ callbacks, Returned cfg actor s c := by
    intro s hs hactor hd
    refine ⟨hs.mono nofun, fun c hc => ⟨⟨hactor c hc, ?_⟩, .inl ?_⟩⟩
    · exact fun r hr hne => absurd (hd r hr) hne
    · exact fun r hr hne => absurd (hd r hr) hne
  refine .bind ?_ fun _ => sequenced_failInflightTasks callbacks (nodup_order_inflight q)
  refine .ite (fun _ => ?_) fun _ => .ite (fun hstate => ?_) fun hstate => ?_
  · rintro s ⟨hs, hq⟩
    have hfail : Partly (Sequenced cfg []) (failAll cfg actor q)
        fun _ s => Sequenced cfg [] s ∧ ∀ r, s.queue actor = some r → r.state = .dead := sequenced_failAll
    refine hfail.post (fun _ t ht => ?_) s hs
    exact hdead t ht.1 (fun c hc => (hactor s hs hq c hc).1) ht.2
  · refine triple_putQueue fun s hs => hdead _ (hs.1.withQueue (fun _ _ _ h => h)
      ⟨fun _ => ⟨rfl, rfl⟩, fun h => absurd hstate h⟩) (fun c hc => (hactor s hs.1 hs.2 c hc).1) ?_
    intro r hr
    rw [queue_withQueue, if_pos rfl] at hr
    cases hr
    exact hstate
  · refine triple_putQueue fun s hs => ?_
    have hn := (hs.1 actor q hs.2).2 hstate
    refine ⟨hs.1.withQueue (fun x c _ => fun ⟨y, hy, h⟩ => ⟨y, hy.imp_right (nomatch ·), h⟩)
      ⟨nofun, fun _ => ?_⟩, fun c hc => ⟨?_, .inl ?_⟩⟩
    · have hrestart : Numbered cfg actor (fun c => s.outside cfg [] actor c ∨ q.Flying cfg c)
          (q.restart numRestarts) := hn.disconnect.same rfl rfl rfl rfl rfl
      refine hrestart.mono fun c hc => ?_
      rw [append_nil]
      rcases hc with ⟨x, hx, hactor⟩ | hc
      · exact ⟨x, hx.imp_right (nomatch ·), hactor⟩
      · exact outside_of_flying (fun x cb hx => (hn.inflight x cb hx).1) hc
    · have hsub := hn.inflight _ _ (mem_order_inflight hc)
      exact owned_withQueue hsub.1 fun _ => hsub.2
    · exact sentOn_withQueue fun _ hle => hn.sent _ hle (.inr ⟨c.1, c.2, mem_order_inflight hc, rfl⟩)

lemma sequenced_checkTimeoutTasks : Keeps (Sequenced cfg hand) checkTimeoutTasks := by
  refine .read fun s hs => .pre ?_ fun _ h => h ▸ hs
  have hc := composes_steps (ε := Check) Grows fun _ => True
  refine (composes_triple (Sequenced cfg hand) _).forM (fun e => ?_) _
  refine onQueue fun q => .bind (triple_putQueue fun s hs => ?_) fun _ => (hc.forM (fun p : Int × TaskID =>
      grows_markFailed p.2) _).triple fun s _ t hs (hst : Grows s t) => hst.sequenced hs
  exact hs.1.update hs.2 rfl id fun _ hn => hn.same rfl rfl rfl rfl rfl

lemma sequenced_addActorQueueIfNotExists : Keeps (Sequenced cfg hand) (addActorQueueIfNotExists actor) := by
  refine triple_modifySubmitter fun s hs => ?_
  cases hq : s.submitter.clientQueues.lookup actor with
  | some q => exact hs
  | none =>
    have hempty : InOrder cfg hand s actor {} := ⟨nofun, fun _ => numbered_empty⟩
    exact hs.withQueue (fun _ _ _ h => h) hempty

lemma sequenced_killActor (forceKill noRestart : Bool) :
    Keeps (Sequenced cfg []) (killActor cfg actor forceKill noRestart) := by
  refine onQueue fun q => .bind (triple_putQueue fun s hs => ?_) fun _ =>
    sequenced_sendPendingTasks.post fun _ _ hs => hs.1
  exact ⟨hs.1.update hs.2 rfl id fun _ hn => hn.same rfl rfl rfl rfl rfl, nofun⟩

end AmazonRay.ActorSubmitter
