import AmazonRay.ActorSubmitter.Rules

/-! Every actor task has at most one result, and one that waits for the cause of the death has none. -/
namespace AmazonRay.ActorSubmitter
open Program TaskManager List Table Function System ClientQueue SequentialActorSubmitQueue Int

def unit (id x : TaskID) : Int := if x = id then 1 else 0

def Callback.attempts (c : Callback) : Int := if c.taskSkipped then 0 else 1

def handed (callbacks : List (TaskID × Callback)) (x : TaskID) : Int :=
  (callbacks.map fun c => if x = c.1 then c.2.attempts else 0).sum

/-- The attempts of the task in the queue: not sent, or in flight. -/
def ClientQueue.held (q : ClientQueue) (x : TaskID) : Int :=
  (q.actorSubmitQueue.requests.map Request.task).count x +
    (q.inflightTaskCallbacks.lookup x).elim 0 Callback.attempts

def ClientQueue.owed (q : ClientQueue) (x : TaskID) : Int :=
  if q.state = .dead then 0 else (q.waitForDeathInfoTasks.map Prod.snd).count x

structure Books where
  held : TaskID → Int
  owed : TaskID → Int
  results : List TaskID

def pendingOne (v : Submissions) (x : TaskID) : Int := if (v.attempt x).isSome then 1 else 0

/-- `d` are attempts and `e` results that a program has in hand. -/
structure Balanced (d e : TaskID → Int) (v : Submissions) (b : Books) : Prop where
  held : ∀ x, b.held x + v.toSubmit.count x + d x ≤ pendingOne v x
  once : ∀ x, b.results.count x + pendingOne v x + b.owed x + e x ≤ if x ∈ v.added then 1 else 0

def System.books (s : System) : Books where
  held x := Table.total (fun _ q => q.held x) s.submitter.clientQueues
  owed x := Table.total (fun _ q => q.owed x) s.submitter.clientQueues
  results := s.submitter.results

def Accounts (d e : TaskID → Int) (s : System) : Prop :=
  Balanced d e s.worker.lineage.submissions s.books

section

variable {d d' e e' : TaskID → Int} {v v' : Submissions} {b b' : Books} {s : System}
  {actor : ActorID} {q q' : ClientQueue} {id : TaskID}

variable {f : ActorID → ClientQueue → Int} {left : Int}

lemma Callback.attempts_nonneg (c : Callback) : 0 ≤ c.attempts := by
  unfold Callback.attempts
  split <;> omega

lemma ClientQueue.held_nonneg (q : ClientQueue) (x : TaskID) : 0 ≤ q.held x := by
  unfold held
  cases q.inflightTaskCallbacks.lookup x with
  | none => exact add_nonneg (natCast_nonneg _) le_rfl
  | some c => exact add_nonneg (natCast_nonneg _) c.attempts_nonneg

lemma ClientQueue.owed_nonneg (q : ClientQueue) (x : TaskID) : 0 ≤ q.owed x := by
  unfold owed
  split <;> omega

lemma total_nonneg (hf : ∀ a q, 0 ≤ f a q) (t : AList fun _ : ActorID => ClientQueue) : 0 ≤ total f t := by
  refine sum_nonneg fun n hn => ?_
  obtain ⟨e, _, rfl⟩ := mem_map.mp hn
  exact hf _ _

lemma Accounts.nonneg (x : TaskID) : 0 ≤ s.books.held x ∧ 0 ≤ s.books.owed x :=
  ⟨total_nonneg (fun _ q => q.held_nonneg x) _, total_nonneg (fun _ q => q.owed_nonneg x) _⟩

lemma total_withQueue (h : s.queue actor = some q) (q' : ClientQueue) :
    total f (s.withQueue actor q').submitter.clientQueues =
      total f s.submitter.clientQueues + (f actor q' - f actor q) := by
  rw [withQueue, total_insert, total_of_lookup h]
  omega

lemma Accounts.withQueue (h : Accounts d e s) (hq : s.queue actor = some q)
    (hd : ∀ x, q'.held x + d' x ≤ q.held x + d x) (he : ∀ x, q'.owed x + e' x ≤ q.owed x + e x) :
    Accounts d' e' (s.withQueue actor q') := by
  constructor
  · intro x
    have h₁ := h.held x
    have h₂ := hd x
    have h₃ := total_withQueue (f := fun _ q => q.held x) hq q'
    simp only [books] at h₁ ⊢
    rw [h₃]
    refine le_trans ?_ h₁
    show _ + (s.worker.lineage.submissions.toSubmit.count x : Int) + _ ≤ _
    omega
  · intro x
    have h₁ := h.once x
    have h₂ := he x
    have h₃ := total_withQueue (f := fun _ q => q.owed x) hq q'
    simp only [books] at h₁ ⊢
    rw [h₃]
    refine le_trans ?_ h₁
    show (s.submitter.results.count x : Int) + pendingOne s.worker.lineage.submissions x + _ + _ ≤ _
    omega

lemma Accounts.sameQueue (h : Accounts d e s) (hq : s.queue actor = some q)
    (hd : ∀ x, q'.held x = q.held x) (he : ∀ x, q'.owed x = q.owed x) :
    Accounts d e (s.withQueue actor q') :=
  h.withQueue hq (fun x => by rw [hd]) fun x => by rw [he]

lemma ClientQueue.owed_of_ne_dead (h : q.state ≠ .dead) (x : TaskID) :
    q.owed x = (q.waitForDeathInfoTasks.map Prod.snd).count x := if_neg h

lemma ClientQueue.owed_of_dead (h : q.state = .dead) (x : TaskID) : q.owed x = 0 := if_pos h

lemma count_cons_unit (l : List TaskID) (id x : TaskID) : ((id :: l).count x : Int) = l.count x + unit id x := by
  rw [count_cons, unit]
  by_cases hx : x = id
  · simp [hx]
  · simp [hx, Ne.symm hx]

lemma count_concat_unit (l : List TaskID) (id x : TaskID) : ((l ++ [id]).count x : Int) = l.count x + unit id x := by
  rw [← count_cons_unit, (perm_append_singleton id l).count_eq]

lemma pendingOne_ended (h : v.attempt id = some left) (x : TaskID) :
    pendingOne { v with attempt := update v.attempt id none } x = pendingOne v x - unit id x := by
  simp only [pendingOne, unit, update_apply]
  by_cases hx : x = id
  · simp [hx, h]
  · simp [hx]

lemma pendingOne_again (h : v.attempt id = some left) (left' : Int) (x : TaskID) :
    pendingOne { v with attempt := update v.attempt id (some left') } x = pendingOne v x := by
  simp only [pendingOne, update_apply]
  by_cases hx : x = id
  · simp [hx, h]
  · simp [hx]

lemma pendingOne_canceled (id x : TaskID) :
    pendingOne { v with attempt := update v.attempt id ((v.attempt id).map fun _ => 0) } x =
      pendingOne v x := by
  simp only [pendingOne, update_apply]
  by_cases hx : x = id
  · simp [hx]
  · simp [hx]

lemma Balanced.samePending (h : Balanced d e v b) (hp : ∀ x, pendingOne v' x = pendingOne v x)
    (hs : v'.toSubmit = v.toSubmit) (ha : v'.added = v.added) : Balanced d e v' b := by
  constructor
  · intro x
    rw [hp, hs]
    exact h.held x
  · intro x
    rw [hp, ha]
    exact h.once x

lemma Balanced.record (h : Balanced d (fun x => e x + unit id x) v b) :
    Balanced d e v { b with results := b.results ++ [id] } := by
  refine ⟨h.held, fun x => ?_⟩
  have := h.once x
  rw [count_concat_unit]
  dsimp only at *
  omega

lemma Balanced.ended (h : Balanced (fun x => d x + unit id x) e v b) (hleft : v.attempt id = some left) :
    Balanced d (fun x => e x + unit id x) { v with attempt := update v.attempt id none } b := by
  constructor
  · intro x
    have := h.held x
    rw [pendingOne_ended hleft]
    dsimp only
    omega
  · intro x
    have := h.once x
    rw [pendingOne_ended hleft]
    dsimp only
    omega

lemma Balanced.fail (h : Balanced (fun x => d x + unit id x) e v b) (hleft : v.attempt id = some left) :
    Balanced d (if left = 0 then fun x => e x + unit id x else e) (v.fail id left) b := by
  unfold Submissions.fail
  split
  · exact h.ended hleft
  · constructor
    · intro x
      have := h.held x
      have hp := pendingOne_again hleft (useRetry left) x
      rw [pendingOne] at hp ⊢
      rw [count_cons_unit, hp]
      omega
    · intro x
      have := h.once x
      have hp := pendingOne_again hleft (useRetry left) x
      rw [pendingOne] at hp ⊢
      rw [hp]
      exact this

lemma Balanced.submit (h : Balanced (fun x => d x - unit id x) e v b) (hid : id ∈ v.toSubmit) :
    Balanced d e { v with toSubmit := v.toSubmit.erase id } b := by
  refine ⟨fun x => ?_, h.once⟩
  have hheld := h.held x
  have hcount : ((v.toSubmit.erase id).count x : Int) + unit id x = v.toSubmit.count x := by
    rw [← count_cons_unit, (perm_cons_erase hid).count_eq]
  have hp : pendingOne { v with toSubmit := v.toSubmit.erase id } x = pendingOne v x := rfl
  rw [hp]
  dsimp only
  omega

lemma Balanced.add (h : Balanced d e v b) (hn : id ∉ v.added) (hb : 0 ≤ b.owed id) (he : 0 ≤ e id) (maxRetries : Int) :
    Balanced d e { v with
      attempt := update v.attempt id (some maxRetries)
      toSubmit := id :: v.toSubmit
      added := id :: v.added } b := by
  have hzero := h.once id
  rw [if_neg hn] at hzero
  have hp : 0 ≤ pendingOne v id := by unfold pendingOne; split <;> omega
  have hnew : ∀ x, pendingOne { v with
      attempt := update v.attempt id (some maxRetries)
      toSubmit := id :: v.toSubmit
      added := id :: v.added } x = pendingOne v x + unit id x := fun x => by
    simp only [pendingOne, unit, update_apply] at hp hzero ⊢
    by_cases hx : x = id
    · subst hx
      simp only [if_true, Option.isSome_some]
      omega
    · simp [hx]
  constructor
  · intro x
    have := h.held x
    rw [hnew, count_cons_unit]
    omega
  · intro x
    have := h.once x
    rw [hnew, unit]
    by_cases hx : x = id
    · subst hx
      simp only [if_true, mem_cons_self]
      omega
    · simpa [hx] using this

lemma Balanced.attempt (h : Balanced (fun x => d x + unit id x) e v b) (hb : 0 ≤ b.held id)
    (hd : 0 ≤ d id) : ∃ left, v.attempt id = some left := by
  have := h.held id
  cases hv : v.attempt id with
  | some left => exact ⟨left, rfl⟩
  | none =>
    simp only [pendingOne, hv, unit] at this
    simp at this
    omega

lemma Accounts.shown {w : Worker} {v' : Submissions} {before : List Output}
    (hw : w.lineage.Shows before v') (h : Balanced d e v' s.books) :
    Accounts d e { s with worker := w } := by
  obtain ⟨hattempt, hsubmit, -, hadded, -⟩ := hw
  constructor
  · intro x
    have := h.held x
    simp only [pendingOne, ← hattempt, ← hsubmit] at this
    exact this
  · intro x
    have := h.once x
    simp only [pendingOne, ← hattempt, ← hadded] at this
    exact this

lemma ClientQueue.held_push (q : ClientQueue) (id : TaskID) (callback : Callback) (n : Nat) (x : TaskID) :
    (q.push id callback n).held x ≤ q.held x + if x = id then callback.attempts else 0 := by
  unfold held push
  dsimp only
  cases hq : q.inflightTaskCallbacks.lookup id with
  | some =>
    have := callback.attempts_nonneg
    dsimp only
    split <;> omega
  | none =>
    rw [lookup_insert]
    split
    case isTrue hx =>
      rw [hx, hq, Option.elim_some, Option.elim_none]
      omega
    · omega

lemma ClientQueue.held_eraseCallback (q : ClientQueue) {callback : Callback}
    (h : q.inflightTaskCallbacks.lookup id = some callback) (x : TaskID) :
    held { q with inflightTaskCallbacks := q.inflightTaskCallbacks.erase id } x +
      (if x = id then callback.attempts else 0) = q.held x := by
  unfold held
  rw [lookup_erase]
  split
  case isTrue hx =>
    rw [hx, h]
    simp
  · dsimp only
    omega

lemma handed_inflight (q : ClientQueue) (x : TaskID) :
    handed q.inflight x = (q.inflightTaskCallbacks.lookup x).elim 0 Callback.attempts := by
  have htotal : handed q.inflight x = total (fun k c => if x = k then c.attempts else 0) q.inflightTaskCallbacks := by
    rw [handed, inflight, map_map]
    rfl
  rw [htotal]
  cases hx : q.inflightTaskCallbacks.lookup x with
  | none =>
    refine total_eq_zero fun k c hk => if_neg ?_
    rintro rfl
    rw [hx] at hk
    cases hk
  | some =>
    rw [total_of_lookup hx, if_pos rfl, total_eq_zero, add_zero]
    · rfl
    · intro k c' hk
      obtain ⟨hne, hk⟩ := lookup_of_erase hk
      exact if_neg hne.symm

lemma ClientQueue.held_disconnect (q : ClientQueue) (x : TaskID) :
    q.disconnect.held x + handed q.inflight x = q.held x := by
  rw [handed_inflight]
  simp [held, disconnect]

lemma handed_order (cfg : ActorConfig) (callbacks : List (TaskID × Callback)) (x : TaskID) :
    handed (cfg.order callbacks) x = handed callbacks x :=
  ((cfg.order_perm callbacks).map _).sum_eq

lemma ClientQueue.timedOut_append (q : ClientQueue) (now : Int) :
    q.timedOut now ++ (q.dropTimedOut now).waitForDeathInfoTasks = q.waitForDeathInfoTasks :=
  takeWhile_append_dropWhile

lemma ClientQueue.dropTimedOut_eq_self {now : Int} (h : q.timedOut now = []) : q.dropTimedOut now = q := by
  have happend : q.waitForDeathInfoTasks.dropWhile (fun p => p.1 < now) = q.waitForDeathInfoTasks := by
    have := q.timedOut_append now
    rwa [h] at this
  rw [dropTimedOut, happend]

lemma ClientQueue.owed_dropTimedOut {now : Int} (h : q.state = .dead → q.timedOut now = []) (x : TaskID) :
    (q.dropTimedOut now).owed x + ((q.timedOut now).map Prod.snd).count x = q.owed x := by
  by_cases hdead : q.state = .dead
  · rw [dropTimedOut_eq_self (h hdead), h hdead]
    simp
  · rw [owed_of_ne_dead hdead, owed_of_ne_dead (q := q.dropTimedOut now) hdead,
      ← q.timedOut_append now, map_append, count_append]
    omega

lemma popNextTaskToSend_requests {sq rest : SequentialActorSubmitQueue} {skipQueue : Bool}
    (h : sq.popNextTaskToSend = some ((id, skipQueue), rest)) :
    sq.requests.map Request.task = id :: rest.requests.map Request.task := by
  unfold popNextTaskToSend at h
  split at h
  · cases h
  case h_2 head tail hr =>
    split at h
    · cases h
      rw [hr]
      rfl
    · cases h

end

section

variable {cfg : ActorConfig} {d e : TaskID → Int} {actor : ActorID} (id : TaskID)

lemma accounts_modifySubmitter {f : Submitter → Submitter}
    (hq : ∀ s, (f s).clientQueues = s.clientQueues) (hr : ∀ s, (f s).results = s.results) :
    Keeps (Accounts d e) (modifySubmitter f) := by
  refine triple_modifySubmitter fun s hs => ?_
  have hbooks : books { s with submitter := f s.submitter } = s.books := by
    simp only [books, hq, hr]
  rw [Accounts, hbooks]
  exact hs

lemma accounts_recordResult : Partly (Accounts d fun x => e x + unit id x) (recordResult id) fun _ => Accounts d e :=
  triple_modifySubmitter fun _ hs => Balanced.record hs

lemma accounts_failPendingTask (immediatelyMarkObjectFail : Bool) :
    Partly (Accounts (fun x => d x + unit id x) e) (failPendingTask cfg id immediatelyMarkObjectFail)
      fun willRetry => Accounts d (if willRetry = false ∧ immediatelyMarkObjectFail = false then
        fun x => e x + unit id x else e) := by
  refine .bind (Q := fun willRetry => Accounts d (if willRetry = false then
    fun x => e x + unit id x else e)) (triple_taskManager (V := fun v willRetry v' =>
      ∃ left, v.attempt id = some left ∧ willRetry = decide (left ≠ 0) ∧ v' = v.fail id left)
    (fun before v => (turns_pendingTaskFailed id immediatelyMarkObjectFail).post ?_) ?_) fun willRetry => ?_
  · rintro willRetry s ⟨left, hleft, hretry, hs⟩
    exact ⟨_, ⟨left, hleft, hretry, rfl⟩, hs⟩
  · rintro s hs willRetry _ w ⟨left, hleft, rfl, rfl⟩ hw
    apply Accounts.shown hw
    simpa using Balanced.fail hs hleft
  refine .bind (.onlyIf (fun h => ?_) fun h s hs => ?_) fun _ => .skip
  · rw [if_pos h.1, if_neg (by simp [h.2])]
    exact accounts_recordResult id
  · have hiff : willRetry = false ∧ immediatelyMarkObjectFail = false ↔ willRetry = false := by
      cases willRetry <;> cases immediatelyMarkObjectFail <;> simp_all
    rw [if_congr hiff rfl rfl]
    exact hs

lemma accounts_markFailed : Partly (Accounts d fun x => e x + unit id x) (markFailed id) fun _ => Accounts d e := by
  refine .bind (.get fun _ hs => hs) fun s => .bind (triple_turns
      (fun before v => turns_markPendingTaskFailed _) fun _ hs _ w hw => ?_) fun _ =>
      accounts_recordResult id
  exact Accounts.shown hw hs

lemma accounts_finishPendingTask (hd : ∀ x, 0 ≤ d x) (id : TaskID) (reply : PushTaskReply)
    (addr : Address) (nodeAlive : Bool) :
    Partly (Accounts (fun x => d x + unit id x) e) (finishPendingTask cfg id reply addr nodeAlive)
      fun _ => Accounts d e := by
  refine .bind (triple_turns (fun before v => turns_completePendingTask id reply _ _)
    fun s hs _ w hw => ?_) fun _ => accounts_recordResult id
  obtain ⟨left, hleft⟩ := Balanced.attempt hs (Accounts.nonneg id).1 (hd id)
  exact Accounts.shown hw (Balanced.ended hs hleft)

lemma accounts_pushActorTask (addr : Address) (id : TaskID) (skipExecution skipQueue : Bool) :
    Partly (Accounts (fun x => d x + if skipExecution then 0 else unit id x) e)
      (pushActorTask cfg actor addr id skipExecution skipQueue) fun _ => Accounts d e := by
  refine onQueue fun q => .testing ?_
  refine .bind (triple_putQueue fun s hs => ?_) fun _ => accounts_modifySubmitter (fun _ => rfl) fun _ => rfl
  refine hs.1.withQueue hs.2 (fun x => ?_) fun _ => le_rfl
  have := q.held_push id { taskSkipped := skipExecution, addr }
    (cfg.actorCounter id - q.actorSubmitQueue.callerStartsAt) x
  cases skipExecution
  · simp only [Callback.attempts, unit] at this ⊢
    simp at this ⊢
    omega
  · simp only [Callback.attempts] at this ⊢
    simp at this ⊢
    omega

lemma accounts_sendTasks (addr : Address) (n : Nat) : Keeps (Accounts d e) (sendTasks cfg actor addr n) := by
  induction n with
  | zero => exact .pure fun _ hs => hs
  | succ n ih =>
    refine onQueue fun q => ?_
    cases hpop : q.actorSubmitQueue.popNextTaskToSend with
    | none => exact .pure fun _ hs => hs.1
    | some p =>
      obtain ⟨⟨id, skipQueue⟩, rest⟩ := p
      refine .seq (triple_putQueue (Q := fun _ => Accounts (fun x => d x + unit id x) e) fun s hs => ?_) (.testing
          (.seq (accounts_pushActorTask addr id false skipQueue) ih))
      refine hs.1.withQueue hs.2 (fun x => ?_) fun _ => le_rfl
      simp only [held, popNextTaskToSend_requests hpop, count_cons_unit]
      omega

lemma accounts_sendPendingTasks : Keeps (Accounts d e) (sendPendingTasks cfg actor) := by
  refine onQueue fun q => ?_
  cases q.rpcClient with
  | none => exact .pure fun _ hs => hs.1
  | some addr =>
    refine .bind (triple_putQueue fun s hs => ?_) fun _ =>
      .seq (accounts_modifySubmitter (fun _ => rfl) fun _ => rfl) (accounts_sendTasks addr _)
    exact hs.1.sameQueue hs.2 (fun _ => rfl) fun _ => rfl

lemma accounts_resendOutOfOrderTasks : Keeps (Accounts d e) (resendOutOfOrderTasks cfg actor) := by
  refine onQueue fun q => ?_
  cases q.rpcClient with
  | none => exact .pure fun _ hs => hs.1
  | some addr =>
    refine .testing (.bind (triple_putQueue fun s hs => ?_) fun _ =>
        (composes_triple (Accounts d e) _).forM (fun p => ?_) _)
    · exact hs.1.sameQueue hs.2 (fun _ => rfl) fun _ => rfl
    · exact (accounts_pushActorTask addr p.2 true true).pre fun s hs => by simpa using hs

lemma accounts_markTaskCompleted : Keeps (Accounts d e) (markTaskCompleted cfg actor id) :=
  onQueue fun _ => triple_putQueue fun _ hs => hs.1.sameQueue hs.2 (fun _ => rfl) fun _ => rfl

lemma accounts_waitForDeathInfo :
    Partly (Accounts d fun x => e x + unit id x) (waitForDeathInfo cfg actor id) fun _ => Accounts d e := by
  refine onQueue fun q => .read fun s hs => triple_putQueue ?_
  rintro _ rfl
  refine hs.1.withQueue hs.2 (fun _ => le_rfl) fun x => ?_
  dsimp only [owed]
  split
  · have : (0 : Int) ≤ unit id x := by unfold unit; split <;> omega
    omega
  · rw [map_append, map_singleton, count_concat_unit]
    dsimp only
    omega

lemma accounts_networkError :
    Partly (Accounts (fun x => d x + unit id x) e) (networkError cfg actor id) fun _ => Accounts d e := by
  refine onQueue fun q => ?_
  refine .bind ((accounts_failPendingTask id _).pre fun _ hs => hs.1) fun willRetry => ?_
  refine .onlyIf (fun hr => ?_) fun hr s hs => ?_
  · refine .bind (.onlyIf (fun hi => ?_) fun hi s hs => ?_) fun _ => accounts_markTaskCompleted id
    · rw [if_pos ⟨hr, hi⟩]
      exact accounts_waitForDeathInfo id
    · rwa [if_neg fun h => hi h.2] at hs
  · rwa [if_neg fun h => hr h.1] at hs

section

variable (hd : ∀ x, 0 ≤ d x)
include hd

lemma accounts_replyCallback (id : TaskID) (callback : Callback) (answer : PushAnswer) :
    Partly (Accounts (fun x => d x + if x = id then callback.attempts else 0) e)
      (replyCallback cfg actor id callback answer) fun _ => Accounts d e := by
  refine .ite (fun hs => ?_) fun hs => ?_
  · refine (accounts_markTaskCompleted id).pre fun s h => ?_
    simpa [Callback.attempts, hs] using h
  · have hunit : (fun x => d x + if x = id then callback.attempts else 0) = fun x => d x + unit id x := by
      funext x
      simp [Callback.attempts, hs, unit]
    rw [hunit]
    cases answer with
    | none => exact accounts_networkError id
    | some a =>
      exact .seq (accounts_finishPendingTask hd id a.1 callback.addr a.2) (accounts_markTaskCompleted id)

lemma accounts_handlePushReply (p : Push) (answer : PushAnswer) :
    Keeps (Accounts d e) (handlePushReply cfg p answer) := by
  refine .seq (accounts_modifySubmitter (fun _ => rfl) fun _ => rfl) (onQueue fun q => ?_)
  cases hq : q.inflightTaskCallbacks.lookup p.taskId with
  | none => exact .pure fun _ hs => hs.1
  | some callback =>
    refine .bind (triple_putQueue fun s hs => ?_) fun _ => accounts_replyCallback hd p.taskId callback answer
    refine hs.1.withQueue hs.2 (fun x => ?_) fun _ => le_rfl
    have := q.held_eraseCallback hq x
    omega

lemma accounts_failInflightTasks (callbacks : List (TaskID × Callback)) :
    Partly (Accounts (fun x => d x + handed callbacks x) e) (failInflightTasks cfg actor callbacks)
      fun _ => Accounts d e := by
  have hnonneg : ∀ l x, 0 ≤ d x + handed l x := fun l x => by
    refine add_nonneg (hd x) (sum_nonneg fun n hn => ?_)
    obtain ⟨c, _, rfl⟩ := mem_map.mp hn
    split
    · exact c.2.attempts_nonneg
    · exact le_rfl
  refine (Triple.forM (I := fun l => Accounts (fun x => d x + handed l x) e) (fun c l => ?_) callbacks).post
    fun _ s hs => by simpa [handed] using hs
  refine (accounts_replyCallback (hnonneg l) c.1 c.2 none).pre fun s hs => ?_
  have hcons : (fun x => d x + handed (c :: l) x) =
      fun x => d x + handed l x + if x = c.1 then c.2.attempts else 0 := by
    funext x
    rw [handed, map_cons, sum_cons, handed]
    omega
  rwa [hcons] at hs

lemma accounts_connectActor (address : Address) (numRestarts : Int) :
    Keeps (Accounts d e) (connectActor cfg actor address numRestarts) := by
  refine onQueue fun q => .ite (fun _ => .pure fun _ hs => hs.1) fun hskip => ?_
  have halive : q.state ≠ .dead := fun h => hskip (by simp [skipsConnection, h])
  let inflight := if q.rpcClient.isSome then cfg.order q.inflight else []
  refine .bind (triple_putQueue fun s hs => ?_) fun _ => .seq accounts_resendOutOfOrderTasks
      (.seq accounts_sendPendingTasks (accounts_failInflightTasks hd inflight))
  refine hs.1.withQueue hs.2 (fun x => ?_) fun x => ?_
  · have hconnect : ∀ q : ClientQueue, (q.connect address numRestarts).held x = q.held x := fun _ => rfl
    have := q.held_disconnect x
    simp only [inflight, hconnect]
    split
    · rw [handed_order]
      omega
    · simp [handed]
  · have hconnect : ∀ q : ClientQueue, (q.connect address numRestarts).state ≠ .dead :=
      fun _ h => ActorState.noConfusion h
    rw [owed_of_ne_dead halive, owed_of_ne_dead (hconnect _)]
    split <;> exact le_rfl

end

lemma accounts_cancelTask :
    Partly (Accounts (fun x => d x + unit id x) e) (cancelTask cfg id) fun _ => Accounts d e := by
  refine .bind (triple_turns (fun before v => turns_markTaskCanceled id) fun s hs _ w hw => ?_) fun _ =>
      .bind (accounts_failPendingTask id true) fun _ => .pure fun _ hs => by simpa using hs
  exact Accounts.shown hw (Balanced.samePending hs (pendingOne_canceled id) rfl rfl)

lemma accounts_cancelTasks (tasks : List TaskID) :
    Partly (Accounts (fun x => d x + tasks.count x) e) (tasks.forM (cancelTask cfg)) fun _ => Accounts d e := by
  refine (Triple.forM (I := fun l => Accounts (fun x => d x + l.count x) e) (fun id l => ?_) tasks).post
    fun _ s hs => by simpa using hs
  refine (accounts_cancelTask id).pre fun s hs => ?_
  simpa only [count_cons_unit, ← add_assoc] using hs

lemma accounts_markAllFailed (tasks : List (Int × TaskID)) :
    Partly (Accounts d fun x => e x + (tasks.map Prod.snd).count x)
      (tasks.forM fun p => markFailed p.2) fun _ => Accounts d e := by
  refine (Triple.forM (I := fun l => Accounts d fun x => e x + (l.map Prod.snd).count x) (fun p l => ?_) tasks).post
    fun _ s hs => by simpa using hs
  refine (accounts_markFailed p.2).pre fun s hs => ?_
  simpa only [map_cons, count_cons_unit, ← add_assoc] using hs

lemma accounts_failAll {q : ClientQueue} (hq : q.state ≠ .dead ∨ q.waitForDeathInfoTasks = []) :
    Partly (fun s => Accounts d e s ∧ s.queue actor = some q) (failAll cfg actor q)
      fun _ => Accounts (fun x => d x + handed q.inflight x) e := by
  let tasks := q.actorSubmitQueue.requests.map Request.task
  let waiting := q.waitForDeathInfoTasks.map Prod.snd
  refine .seq (triple_putQueue (Q := fun _ => Accounts
    (fun x => d x + handed q.inflight x + tasks.count x) fun x => e x + waiting.count x)
    fun s hs => ?_) (.seq (accounts_cancelTasks tasks) (accounts_markAllFailed q.waitForDeathInfoTasks))
  refine hs.1.withQueue hs.2 (fun x => ?_) fun x => ?_
  · have hdie : q.die.held x + tasks.count x = q.disconnect.held x := by
      simp [held, die, disconnect, tasks, clearAllTasks]
    have := q.held_disconnect x
    omega
  · rw [owed_of_dead rfl]
    rcases hq with hq | hq
    · rw [owed_of_ne_dead hq]
      simp only [waiting]
      omega
    · have := q.owed_nonneg x
      simp only [waiting, hq]
      simpa using this

lemma accounts_disconnectActor (hd : ∀ x, 0 ≤ d x) (numRestarts : Int) (dead : Bool) :
    Partly (fun s => Accounts d e s ∧ (dead = true → ∀ q, s.queue actor = some q →
        q.state ≠ .dead ∨ q.waitForDeathInfoTasks = []))
      (disconnectActor cfg actor numRestarts dead) fun _ => Accounts d e := by
  refine onQueue fun q => .testing ?_
  refine .ite (fun _ => .pure fun _ hs => hs.1.1) fun _ => ?_
  refine .bind ?_ fun _ => accounts_failInflightTasks hd _
  simp only [handed_order]
  refine .ite (fun hdead => ?_) fun _ => .ite (fun _ => ?_) fun hstate => ?_
  · refine fun s hs => accounts_failAll (hs.1.2 hdead q hs.2) s ⟨hs.1.1, hs.2⟩
  · refine triple_putQueue fun s hs => hs.1.1.withQueue hs.2 (fun x => ?_) fun _ => le_rfl
    have := q.held_disconnect x
    omega
  · refine triple_putQueue fun s hs => hs.1.1.withQueue hs.2 (fun x => ?_) fun x => ?_
    · have hrestart : (q.restart numRestarts).held x = q.disconnect.held x := rfl
      have := q.held_disconnect x
      omega
    · rw [owed_of_ne_dead hstate]
      exact le_rfl

def Unexpired (now : Int) (s : System) : Prop :=
  ∀ actor q, s.queue actor = some q → q.state = .dead → q.timedOut now = []

lemma unexpired_markFailed (now : Int) (id : TaskID) : Keeps (Unexpired now) (markFailed id) := by
  refine .read fun s hs => ?_
  refine .bind (triple_turns
    (fun before v => turns_markPendingTaskFailed _) ?_) fun _ => triple_modifySubmitter fun _ hs => hs
  rintro _ rfl _ w _
  exact hs

lemma accounts_checkTimeoutTasks :
    Partly (fun s => Accounts d e s ∧ Unexpired s.submitter.currentTimeMs s) checkTimeoutTasks
      fun _ => Accounts d e := by
  refine .read fun s hs => ?_
  refine .pre (P := fun s' => Accounts d e s' ∧ Unexpired s.submitter.currentTimeMs s') ?_ fun _ h => h ▸ hs
  refine .post ((composes_triple _ _).forM (fun a => ?_) _) fun _ _ h => h.1
  refine onQueue fun q => ?_
  refine .bind (triple_putQueue fun s' hs' => ⟨?_, ?_⟩) fun _ =>
      (accounts_markAllFailed _).and ((composes_triple _ _).forM (fun p : Int × TaskID => unexpired_markFailed _ p.2) _)
  · refine hs'.1.1.withQueue hs'.2 (fun _ => le_rfl) fun x => ?_
    have := owed_dropTimedOut (hs'.1.2 a.1 q hs'.2) x
    omega
  · intro actor' q' hq' hdead
    rw [queue_withQueue] at hq'
    split at hq'
    case isFalse => exact hs'.1.2 actor' q' hq' hdead
    · cases hq'
      have hnone := hs'.1.2 a.1 q hs'.2 hdead
      rw [dropTimedOut_eq_self hnone]
      exact hnone

lemma accounts_addActorQueueIfNotExists : Keeps (Accounts d e) (addActorQueueIfNotExists actor) := by
  refine triple_modifySubmitter fun s hs => ?_
  cases hq : s.submitter.clientQueues.lookup actor with
  | some => exact hs
  | none =>
    have hnew : ∀ f : ActorID → ClientQueue → Int, f actor {} = 0 →
        total f (s.submitter.clientQueues.insert actor {}) = total f s.submitter.clientQueues := fun f hf => by
      rw [total_insert, total_erase_of_lookup_none hq, hf, zero_add]
    have hbooks : books { s with submitter := { s.submitter with
        clientQueues := s.submitter.clientQueues.insert actor {} } } = s.books := by
      simp only [books]
      congr 1
      · funext x
        exact hnew _ rfl
      · funext x
        exact hnew _ rfl
    show Balanced d e _ (books { s with submitter := { s.submitter with
      clientQueues := s.submitter.clientQueues.insert actor {} } })
    rw [hbooks]
    exact hs

lemma accounts_killActor (forceKill noRestart : Bool) :
    Keeps (Accounts d e) (killActor cfg actor forceKill noRestart) :=
  onQueue fun _ => .bind (triple_putQueue fun _ hs =>
    hs.1.sameQueue hs.2 (fun _ => rfl) fun _ => rfl) fun _ => accounts_sendPendingTasks

lemma count_filter_requests {requests : List Request} {r : Request} (hr : r ∈ requests) {n : Nat}
    (hn : r.sequenceNo = n) (x : TaskID) :
    ((requests.filter fun r => r.sequenceNo ≠ n).map Request.task).count x + unit r.task x ≤
      (requests.map Request.task).count x := by
  have hperm := ((filter_append_perm (fun r : Request => decide (r.sequenceNo ≠ n)) requests).map
    Request.task).count_eq x
  have hmem : r ∈ requests.filter fun r => !decide (r.sequenceNo ≠ n) := by simp [hr, hn]
  rw [map_append, count_append] at hperm
  unfold unit
  split
  case isTrue hx =>
    have : 0 < ((requests.filter fun r => !decide (r.sequenceNo ≠ n)).map Request.task).count x :=
      count_pos_iff.mpr (mem_map.mpr ⟨r, hmem, hx.symm⟩)
    omega
  · omega

lemma accounts_dependenciesResolved (ok : Bool) : Keeps (Accounts d e) (dependenciesResolved cfg id ok) := by
  refine onQueue fun q => ?_
  cases hr : q.actorSubmitQueue.get? (cfg.actorCounter id) with
  | none => exact .pure fun _ hs => hs.1
  | some r =>
    refine .ite (fun _ => ?_) fun _ => ?_
    · refine .bind (triple_putQueue fun s hs => ?_) fun _ => accounts_sendPendingTasks
      refine hs.1.sameQueue hs.2 (fun x => ?_) fun _ => rfl
      have htasks : ((q.actorSubmitQueue.markDependencyResolved (cfg.actorCounter id)).requests.map
          Request.task) = q.actorSubmitQueue.requests.map Request.task := by
        rw [markDependencyResolved, map_map]
        refine map_congr_left fun r _ => ?_
        simp only [comp_apply]
        split <;> rfl
      simp only [held, htasks]
    · refine .seq (triple_putQueue (Q := fun _ => Accounts (fun x => d x + unit r.task x) e)
        fun s hs => hs.1.withQueue hs.2 (fun x => ?_) fun _ => le_rfl)
          (.bind (accounts_failPendingTask r.task true) fun _ => .pure fun _ hs => by
            simpa using hs)
      have := count_filter_requests (mem_of_find?_eq_some hr) (by simpa using find?_some hr) x
      simp only [held, markDependencyFailed]
      omega

lemma accounts_runWorker {P : System → Prop} {op : WorkerOp}
    (h : Partly P (taskManager (op.run cfg.worker)) (fun _ => Accounts d e)) :
    Partly P (runWorker cfg op) fun _ => Accounts d e := by
  refine .read fun s hs => .seq (h.pre fun _ ht => ht ▸ hs) (.read fun t ht => .pre ?_ fun _ hu => hu ▸ ht)
  exact (composes_triple (Accounts d e) _).forM (fun r : TaskID × Bool => accounts_dependenciesResolved r.1 r.2) _

lemma accounts_worker (hd : ∀ x, 0 ≤ e x) (op : WorkerOp) (hop : ofActorTasks op = true) :
    Partly (fun s => Accounts d e s ∧ op.Enabled s.worker.lineage) (taskManager (op.run cfg.worker))
      fun _ => Accounts d e := by
  have hsame : ∀ {x : WorkerM Unit}, (∀ before v, Turns before v x fun _ => v) →
      Partly (fun s => Accounts d e s ∧ op.Enabled s.worker.lineage) (taskManager x) fun _ => Accounts d e :=
    fun hx => triple_turns hx fun _ hs _ _ hw => Accounts.shown hw hs.1
  have hput : ∀ (v : Submissions) (i : Nat) (state : TaskState) (b : Books), Balanced d e v b →
      Balanced d e (v.put i state) b := by
    intro v i state b h
    unfold Submissions.put
    split <;> exact ⟨h.held, h.once⟩
  cases op with
  | addPendingTask callerAddress spec maxRetries =>
    refine triple_turns (fun before v => turns_addPendingTask callerAddress spec maxRetries)
      fun s hs _ w hw => Accounts.shown hw ?_
    exact Balanced.add hs.1 hs.2.1 (Accounts.nonneg spec.taskId).2 (hd spec.taskId) maxRetries
  | dependencyFetched i id object =>
    refine triple_turns (fun before v => turns_dependencyFetched i id object) fun s hs _ w hw => Accounts.shown hw ?_
    cases s.worker.lineage.submissions.resolving[i]? with
    | none => exact hs.1
    | some => exact hput _ i _ _ hs.1
  | actorRegistered i ok =>
    refine triple_turns (fun before v => turns_actorRegistered i ok) fun s hs _ w hw => Accounts.shown hw ?_
    cases s.worker.lineage.submissions.resolving[i]? with
    | none => exact hs.1
    | some => exact hput _ i _ _ hs.1
  | drainAndShutdown => exact hsame fun before v => turns_drainAndShutdown
  | counter op =>
    by_cases hop : op.ofTasks = false
    · exact hsame fun before v => (replyLogic_shows cfg.worker before v).call fun K hc => hc.run op hop
    · exact fun s hs => absurd hs.2 hop
  | submitTask => cases hop
  | completePendingTask => cases hop
  | retryTaskIfPossible => cases hop
  | pendingTaskFailed => cases hop
  | resubmitTask => cases hop
  | markTaskCanceled => cases hop

lemma accounts_submitTask (isActorInRegistering : ActorID → Bool) :
    Partly (fun s => Accounts d e s ∧ id ∈ s.worker.lineage.toSubmit)
      (submitTask cfg id isActorInRegistering) fun _ => Accounts d e := by
  refine onQueue fun q => .ite (fun _ => ?_) fun _ => ?_
  · refine .bind (triple_turns (f := fun v => { v with toSubmit := v.toSubmit.erase id })
      (fun before v => turns_modifyTasks fun t h => ?_) fun s hs _ w hw => ?_) fun _ => accounts_cancelTask id
    · exact ⟨h.attempt, congrArg (·.erase id) h.toSubmit, h.resolving, h.added, h.outputs⟩
    · refine Accounts.shown hw (Balanced.submit ?_ hs.1.2)
      simpa only [Int.add_sub_cancel, Accounts] using hs.1.1
  · refine .testing ?_
    refine .seq (triple_putQueue (Q := fun _ s => Accounts (fun x => d x - unit id x) e s ∧
      id ∈ s.worker.lineage.toSubmit) fun s hs => ⟨?_, hs.1.2⟩) (accounts_runWorker ?_)
    · refine hs.1.1.withQueue hs.2 (fun x => ?_) fun _ => le_rfl
      have hperm := (((q.actorSubmitQueue.requests.perm_orderedInsert (fun r r' => r.sequenceNo ≤ r'.sequenceNo)
        { sequenceNo := cfg.actorCounter id, task := id }).map Request.task).count_eq x)
      simp only [held, emplace, hperm, map_cons, count_cons_unit]
      omega
    · refine triple_taskManager (V := fun v _ v' =>
        v'.attempt = v.attempt ∧ v'.added = v.added ∧ v'.toSubmit = v.toSubmit.erase id)
        (fun before v => (turns_submitTask isActorInRegistering id).post ?_) ?_
      · rintro _ s (hs | ⟨state, -, hs⟩)
        · refine ⟨_, ⟨?_, ?_, ?_⟩, hs⟩ <;> rfl
        · refine ⟨_, ⟨?_, ?_, ?_⟩, hs⟩ <;> rfl
      · rintro s ⟨hs, hid⟩ _ v' w ⟨hattempt, hadded, hsubmit⟩ hw
        refine Accounts.shown hw ((Balanced.submit hs hid).samePending (fun x => ?_) hsubmit hadded)
        rw [pendingOne, hattempt]
        rfl

end

/-- No step goes again over the tasks that wait for the cause of the death of a dead actor. -/
def SubmitterOp.SparesDead (s : System) : SubmitterOp → Prop
  | .disconnectActor actor _ dead => dead = true → ∀ q, s.queue actor = some q →
    q.state ≠ .dead ∨ q.waitForDeathInfoTasks = []
  | .checkTimeoutTasks => Unexpired s.submitter.currentTimeMs s
  | _ => True

instance (s : System) (op : SubmitterOp) : Decidable (op.SparesDead s) :=
  match op with
  | .disconnectActor actor _ dead =>
    decidable_of_iff (dead = true → (s.queue actor).all (fun q =>
      decide (q.state ≠ .dead ∨ q.waitForDeathInfoTasks = [])) = true)
      (imp_congr_right fun _ => by simp [Option.all_eq_true])
  | .checkTimeoutTasks =>
    decidable_of_iff (∀ e ∈ s.submitter.clientQueues.entries, e.2.state = .dead →
      e.2.timedOut s.submitter.currentTimeMs = [])
      ⟨fun h actor q hq => h ⟨actor, q⟩ (Table.mem_entries_iff.mpr hq),
        fun h e he => h e.1 e.2 (Table.mem_entries_iff.mp he)⟩
  | .worker _ | .addActorQueueIfNotExists _ | .submitTask _ _ | .connectActor _ _ _ | .pushReply _ _
  | .killActor _ _ _ | .timePasses _ => .isTrue trivial

lemma accounts_run {cfg : ActorConfig} (op : SubmitterOp) {s : System}
    (hop : op.Enabled cfg s ∧ op.SparesDead s) (hs : Accounts 0 0 s) :
    Yields s (op.run cfg) fun _ => Accounts 0 0 := by
  have hzero : ∀ x : TaskID, 0 ≤ (0 : TaskID → Int) x := fun _ => le_rfl
  have hkeep : ∀ {x : SubmitM Unit}, Keeps (Accounts 0 0) x → Yields s x fun _ => Accounts 0 0 :=
    fun hx => hx.pre fun _ ht => ht ▸ hs
  cases op with
  | worker op =>
    apply (accounts_runWorker (accounts_worker hzero op hop.1.2)).pre
    rintro _ rfl
    exact ⟨hs, hop.1.1⟩
  | addActorQueueIfNotExists => exact hkeep accounts_addActorQueueIfNotExists
  | submitTask id isActorInRegistering =>
    apply (accounts_submitTask id isActorInRegistering).pre
    rintro _ rfl
    exact ⟨hs, hop.1.1⟩
  | connectActor actor address numRestarts =>
    exact hkeep (accounts_connectActor hzero address numRestarts)
  | disconnectActor actor numRestarts dead =>
    apply (accounts_disconnectActor hzero numRestarts dead).pre
    rintro _ rfl
    exact ⟨hs, hop.2⟩
  | pushReply p => exact hkeep (accounts_handlePushReply hzero p _)
  | killActor => exact hkeep (accounts_killActor _ _)
  | checkTimeoutTasks =>
    apply accounts_checkTimeoutTasks.pre
    rintro _ rfl
    exact ⟨hs, hop.2⟩
  | timePasses => exact hkeep (accounts_modifySubmitter (fun _ => rfl) fun _ => rfl)

lemma accounts_start : Accounts 0 0 start := by
  constructor
  · intro x
    exact le_rfl
  · intro x
    simp [books, start, pendingOne, Tasks.submissions, Tasks.attempt, total]

/-- In a run that spares the dead actors, a task has at most one result. -/
theorem results_count_le_one {cfg : ActorConfig} {s : System}
    (h : Reaches (SubmitterOp.run cfg) (fun op s => op.Enabled cfg s ∧ op.SparesDead s)
      System.start s) (id : TaskID) : s.submitter.results.count id ≤ 1 := by
  have hs : Accounts 0 0 s := h.invariant accounts_start fun op s hop hs => accounts_run op hop hs
  have honce := hs.once id
  have howed := (Accounts.nonneg (s := s) id).2
  have hp : 0 ≤ pendingOne s.worker.lineage.submissions id := by unfold pendingOne; split <;> omega
  have hle : (if id ∈ s.worker.lineage.submissions.added then 1 else 0 : Int) ≤ 1 := by
    split <;> omega
  have hresults : (s.books.results.count id : Int) ≤ 1 := by
    simp only [Pi.zero_apply] at honce
    omega
  exact_mod_cast hresults

/-- The task is pushed, its connection breaks, and then the actor is found to be dead. -/
def brokenConnection : List SubmitterOp :=
  [.addActorQueueIfNotExists 0] ++ submitExample 0 0 ++
    [.connectActor 0 (exampleAddress 1) 0,
      .pushReply { actorId := 0, taskId := 0, sequenceNumber := 0, skipQueue := false } none,
      .disconnectActor 0 0 true]

/-- The task fails when the actor is found to be dead, and once more when its time is over. -/
theorem deadActor_fails_task_twice :
    ∃ s, Reaches (SubmitterOp.run exampleActor) (fun op s => op.Enabled exampleActor s)
      System.start s ∧ s.submitter.results.count 0 = 2 := by
  have hrun : (runAll (SubmitterOp.run exampleActor) (fun op s => op.Enabled exampleActor s)
      (brokenConnection ++ [.timePasses 100, .checkTimeoutTasks]) System.start).map
      (fun s => s.submitter.results.count 0) = some 2 := by decide +kernel
  exact exists_reaches hrun

theorem brokenConnection_one_result :
    ∃ s, Reaches (SubmitterOp.run exampleActor)
      (fun op s => op.Enabled exampleActor s ∧ op.SparesDead s) System.start s ∧
      s.submitter.results.count 0 = 1 ∧ ∀ id, s.submitter.results.count id ≤ 1 := by
  refine exists_after brokenConnection
    (fun s => s.submitter.results.count 0) 1
    (by decide +kernel) fun _ hs hcount => ?_
  exact ⟨hcount, results_count_le_one hs⟩

end AmazonRay.ActorSubmitter
