import AmazonRay.ActorSubmitter.Queues

/-! `SequentialActorSubmitQueue` over all its calls: which task is popped, and how far the replies have come. -/
namespace AmazonRay.ActorSubmitter
open List SequentialActorSubmitQueue

def SequentialActorSubmitQueue.waiting (q : SequentialActorSubmitQueue) : List Nat := q.requests.map Request.sequenceNo

/-- A queue after `n` submissions, with the numbers that were popped and those that failed. -/
inductive Popping : Nat → List Nat → List Nat → SequentialActorSubmitQueue → Prop
  | start : Popping 0 [] [] {}
  | emplace (task : TaskID) (h : Popping n popped failed q) : Popping (n + 1) popped failed (q.emplace n task)
  | retry (task : TaskID) (h : Popping n popped failed q) (hk : k ∈ popped) (hnew : k ∉ q.waiting) :
      Popping n popped failed (q.emplace k task)
  | resolved (k : Nat) (h : Popping n popped failed q) : Popping n popped failed (q.markDependencyResolved k)
  | failed (h : Popping n popped failed q) (hk : k ∈ q.waiting) : Popping n popped (k :: failed) (q.markDependencyFailed k)
  | popped (h : Popping n popped failed q) (hr : q.requests = r :: rest)
      (hpop : q.popNextTaskToSend = some (sent, q')) : Popping n (r.sequenceNo :: popped) failed q'

/-- Every number submitted is popped, failed or waits. None waits for the first time before one that was popped, or that
failed. -/
structure Passed (n : Nat) (popped failed waiting : List Nat) : Prop where
  ordered : waiting.Pairwise (· < ·)
  submitted : ∀ k, k ∈ popped ∨ k ∈ failed ∨ k ∈ waiting ↔ k < n
  earlier : ∀ k ∈ popped, ∀ j < k, j ∈ popped ∨ j ∈ failed
  fresh : ∀ k ∈ waiting, k ∈ failed → k ∈ popped

/-- There is no number if the check of the counter fails. -/
def SequentialActorSubmitQueue.getSequenceNumber (q : SequentialActorSubmitQueue) (actorCounter : Nat) : Option Nat :=
  if q.callerStartsAt ≤ actorCounter then some (actorCounter - q.callerStartsAt) else none

/-- A queue after some replies: the numbers ever completed, and those not handed out since. -/
inductive Replied : Set Nat → Set Nat → SequentialActorSubmitQueue → Prop
  | start : Replied ∅ ∅ {}
  | completed (n : Nat) (task : TaskID) (h : Replied ever done q) (hn : n ∉ done) :
      Replied (insert n ever) (insert n done) (q.markTaskCompleted n task)
  | connected (h : Replied ever done q) : Replied ever done q.onClientConnected
  | handedOut (h : Replied ever done q) : Replied ever { n ∈ done | n ∉ q.popAllOutOfOrderCompletedTasks.1.map Prod.fst }
      q.popAllOutOfOrderCompletedTasks.2

/-- The reply position is before the tasks that were completed out of order. -/
structure Frontier (done : Set Nat) (q : SequentialActorSubmitQueue) : Prop where
  completed : ∀ c, q.Completed c ↔ c ∈ done
  ordered : q.outOfOrderCompletedTasks.Pairwise fun p p' => p.1 < p'.1
  above : ∀ p ∈ q.outOfOrderCompletedTasks, q.nextTaskReplyPosition < p.1
  starts : q.callerStartsAt ≤ q.nextTaskReplyPosition

variable {n k : Nat} {popped failed : List Nat} {q : SequentialActorSubmitQueue} {ever done : Set Nat}

lemma mem_waiting_emplace {j : Nat} {task : TaskID} : j ∈ (q.emplace k task).waiting ↔ j = k ∨ j ∈ q.waiting := by
  simp [waiting, emplace, eq_comm]

lemma ordered_waiting_emplace (h : q.waiting.Pairwise (· < ·)) (hk : k ∉ q.waiting) (task : TaskID) :
    (q.emplace k task).waiting.Pairwise (· < ·) :=
  pairwise_map.mpr (pairwise_orderedInsert (pairwise_map.mp h) fun r hr heq => hk (mem_map.mpr ⟨r, hr, heq⟩))

lemma popNextTaskToSend_eq {r : Request} {rest : List Request} (hr : q.requests = r :: rest) : q.popNextTaskToSend =
    if r.sequenceNo ≤ q.nextSendPosition ∧ r.dependencyResolved = true then
      some ((r.task, decide (r.sequenceNo < q.nextSendPosition)),
        { q with requests := rest, nextSendPosition := q.nextSendPosition + 1 }) else none := by
  rw [popNextTaskToSend, hr]

lemma Popping.passed (h : Popping n popped failed q) :
    Passed n popped failed q.waiting ∧ q.nextSendPosition = popped.length := by
  induction h with
  | start => exact ⟨⟨.nil, by simp [waiting], by simp, by simp [waiting]⟩, rfl⟩
  | @emplace n popped failed q task _ ih =>
    obtain ⟨⟨hord, hsub, hearlier, hfresh⟩, hnext⟩ := ih
    have hn : n ∉ q.waiting := fun hmem => lt_irrefl n ((hsub n).mp (.inr (.inr hmem)))
    refine ⟨⟨ordered_waiting_emplace hord hn task, fun k => ?_, hearlier, fun k hk hf => ?_⟩, hnext⟩
    · rw [mem_waiting_emplace, Nat.lt_succ_iff_lt_or_eq, ← hsub]
      tauto
    · rcases mem_waiting_emplace.mp hk with rfl | hk
      · exact absurd ((hsub k).mp (.inr (.inl hf))) (lt_irrefl k)
      · exact hfresh k hk hf
  | @retry n popped failed q j task _ hj hnew ih =>
    obtain ⟨⟨hord, hsub, hearlier, hfresh⟩, hnext⟩ := ih
    refine ⟨⟨ordered_waiting_emplace hord hnew task, fun k => ?_, hearlier, fun k hk hf => ?_⟩, hnext⟩
    · rw [mem_waiting_emplace, ← hsub]
      grind
    · rcases mem_waiting_emplace.mp hk with rfl | hk
      · exact hj
      · exact hfresh k hk hf
  | @resolved n popped failed q k _ ih =>
    have hwaiting : (q.markDependencyResolved k).waiting = q.waiting := by
      unfold waiting markDependencyResolved
      rw [map_map]
      refine map_congr_left fun r _ => ?_
      rw [Function.comp_apply]
      split <;> rfl
    rw [hwaiting]
    exact ih
  | @failed n popped failed q j _ hj ih =>
    obtain ⟨⟨hord, hsub, hearlier, hfresh⟩, hnext⟩ := ih
    have hwaiting : (q.markDependencyFailed j).waiting = q.waiting.filter (· ≠ j) := by
      rw [waiting, waiting, filter_map]
      rfl
    rw [hwaiting]
    refine ⟨⟨hord.filter _, fun k => ?_, fun k hk i hi => ?_, fun k hk hf => ?_⟩, hnext⟩
    · rw [← hsub, mem_cons, mem_filter, decide_eq_true_iff]
      grind
    · exact (hearlier k hk i hi).imp_right (mem_cons_of_mem j)
    · rw [mem_filter, decide_eq_true_iff] at hk
      exact hfresh k hk.1 ((mem_cons.mp hf).resolve_left hk.2)
  | @popped n popped failed q r rest sent q' _ hr hpop ih =>
    obtain ⟨⟨hord, hsub, hearlier, hfresh⟩, hnext⟩ := ih
    rw [popNextTaskToSend_eq hr] at hpop
    split at hpop
    case isFalse => cases hpop
    · obtain ⟨-, rfl⟩ := Prod.mk.inj (Option.some.inj hpop)
      rw [waiting, hr, map_cons] at hord hsub hfresh
      rw [pairwise_cons] at hord
      refine ⟨⟨hord.2, fun k => ?_, fun k hk j hj => ?_, fun k hk hf => ?_⟩, congrArg Nat.succ hnext⟩
      · rw [← hsub]
        simp only [mem_cons, waiting]
        tauto
      · rcases mem_cons.mp hk with rfl | hk
        · have hj' := (hsub j).mpr (hj.trans ((hsub _).mp (.inr (.inr mem_cons_self))))
          have hnot : j ∉ rest.map Request.sequenceNo := fun hmem => lt_asymm hj (hord.1 j hmem)
          grind
        · exact (hearlier k hk j hj).imp_left (mem_cons_of_mem _)
      · exact mem_cons_of_mem _ (hfresh k (mem_cons_of_mem _ hk) hf)

lemma mem_iff_lt_length {l : List Nat} (hl : l.Nodup) (hdown : ∀ k ∈ l, ∀ j < k, j ∈ l) (k : Nat) :
    k ∈ l ↔ k < l.length := by
  constructor
  · intro hk
    have hsub : range (k + 1) ⊆ l := fun j hj => by
      rcases Nat.lt_succ_iff_lt_or_eq.mp (mem_range.mp hj) with hj | rfl
      · exact hdown k hk j hj
      · exact hk
    have hle := (subperm_of_subset nodup_range hsub).length_le
    rwa [length_range] at hle
  · intro hlt
    by_contra hk
    have hsub : l ⊆ range k := fun j hj => by
      rw [mem_range]
      by_contra hle
      exact hk ((eq_or_lt_of_le (not_lt.mp hle)).elim (fun he => he ▸ hj) (hdown j hj k))
    have hle := (subperm_of_subset hl hsub).length_le
    rw [length_range] at hle
    omega

/-- Tasks are popped for the first time in the order of their numbers. If none was popped twice and none failed before
it was popped, the first task is popped when it is its turn, and is marked if it was popped before. -/
theorem popNextTaskToSend_in_order {r : Request} {rest : List Request} (h : Popping n popped failed q)
    (hr : q.requests = r :: rest) : (r.sequenceNo ∉ popped → ∀ k ∈ popped, k < r.sequenceNo) ∧
      (popped.Nodup → failed ⊆ popped → r.dependencyResolved = true →
        ((∀ k < r.sequenceNo, k ∈ popped ∨ k ∈ failed) → q.popNextTaskToSend.isSome) ∧
        ∀ sent q', q.popNextTaskToSend = some (sent, q') → sent = (r.task, decide (r.sequenceNo ∈ popped))) := by
  obtain ⟨⟨hord, hsub, hearlier, hfresh⟩, hnext⟩ := h.passed
  have hwaits : r.sequenceNo ∈ q.waiting := by
    rw [waiting, hr]
    exact mem_cons_self
  refine ⟨fun hnew k hk => ?_, fun honce hfailed hresolved => ?_⟩
  · by_contra hle
    rcases eq_or_lt_of_le (not_lt.mp hle) with rfl | hlt
    · exact hnew hk
    · exact hnew ((hearlier k hk _ hlt).elim id (hfresh _ hwaits))
  · have hiff := mem_iff_lt_length honce fun k hk j hj => (hearlier k hk j hj).elim id fun hf => hfailed hf
    rw [popNextTaskToSend_eq hr, hnext]
    refine ⟨fun hturn => ?_, fun sent q' hpop => ?_⟩
    · have hle : r.sequenceNo ≤ popped.length := by
        by_contra hlt
        have hmem := (hturn popped.length (not_le.mp hlt)).elim id fun hf => hfailed hf
        exact lt_irrefl _ ((hiff _).mp hmem)
      rw [if_pos ⟨hle, hresolved⟩]
      rfl
    · split at hpop
      case isFalse => cases hpop
      · rw [← (Prod.mk.inj (Option.some.inj hpop)).1, decide_eq_decide.mpr (hiff r.sequenceNo)]

/-- The first task was popped, and comes back before the second one. -/
theorem popNextTaskToSend_in_order_retry :
    ∃ n q, Popping n [0] [] q ∧ q.popNextTaskToSend.map Prod.fst = some (10, true) ∧ q.popNextTaskToSend.isSome := by
  have h : Popping _ _ _ _ := .resolved 0 (.retry (k := 0) 10
    (.popped (.resolved 0 (.emplace 11 (.emplace 10 .start))) rfl rfl) (by decide) (by decide))
  exact ⟨_, _, h, rfl, ((popNextTaskToSend_in_order h rfl).2 (by decide) (nil_subset _) rfl).1 nofun⟩

/-- The first task fails before it is sent. The second one is never sent. -/
theorem popNextTaskToSend_stalls : ∃ n failed q r rest, Popping n [] failed q ∧ q.requests = r :: rest ∧
    r.dependencyResolved = true ∧ (∀ k < r.sequenceNo, k ∈ failed) ∧ q.popNextTaskToSend = none := by
  refine ⟨_, _, _, _, _, .resolved 1 (.failed (k := 0) (.emplace 11 (.emplace 10 .start)) ?_), rfl, rfl, ?_, rfl⟩
  · decide
  · decide

lemma advance_above (position : Nat) {tasks : List (Nat × TaskID)} (hord : tasks.Pairwise fun p p' => p.1 < p'.1)
    (hle : ∀ p ∈ tasks, position ≤ p.1) : position ≤ (advance position tasks).1 ∧
      ∀ p ∈ (advance position tasks).2, (advance position tasks).1 < p.1 := by
  induction tasks generalizing position with
  | nil => exact ⟨le_rfl, nofun⟩
  | cons p rest ih =>
    rw [pairwise_cons] at hord
    unfold advance
    split
    case isTrue hp =>
      obtain ⟨hmono, habove⟩ := ih (position + 1) hord.2 fun p' hp' => hp ▸ hord.1 p' hp'
      exact ⟨Nat.le_of_succ_le hmono, habove⟩
    case isFalse hp =>
      have hlt : position < p.1 := lt_of_le_of_ne (hle p mem_cons_self) (Ne.symm hp)
      refine ⟨le_rfl, fun p' hp' => ?_⟩
      rcases mem_cons.mp hp' with rfl | hp'
      · exact hlt
      · exact hlt.trans (hord.1 p' hp')

lemma Frontier.markTaskCompleted (h : Frontier done q) (hn : n ∉ done) (task : TaskID) :
    Frontier (insert n done) (q.markTaskCompleted n task) := by
  rw [← h.completed, Completed, not_or] at hn
  have hinsert : insertCompleted q.outOfOrderCompletedTasks n task =
      q.outOfOrderCompletedTasks.orderedInsert (fun p p' => p.1 ≤ p'.1) (n, task) := if_neg hn.2
  have hord : (insertCompleted q.outOfOrderCompletedTasks n task).Pairwise fun p p' => p.1 < p'.1 := by
    rw [hinsert]
    exact pairwise_orderedInsert h.ordered fun p hp heq => hn.2 (mem_map.mpr ⟨p, hp, heq⟩)
  obtain ⟨hmono, habove⟩ := advance_above q.nextTaskReplyPosition hord fun p hp => by
    rw [hinsert, mem_orderedInsert] at hp
    rcases hp with rfl | hp
    · exact not_lt.mp hn.1
    · exact (h.above p hp).le
  refine ⟨fun c => ?_, hord.sublist (advance_suffix _ _).sublist, habove, h.starts.trans hmono⟩
  rw [completed_markTaskCompleted, h.completed, Set.mem_insert_iff]

lemma Replied.frontier (h : Replied ever done q) : Frontier done q := by
  induction h with
  | start => exact ⟨by simp [Completed], .nil, (by simp), le_rfl⟩
  | completed n task _ hn ih => exact ih.markTaskCompleted hn task
  | connected _ ih => exact ⟨ih.completed, ih.ordered, ih.above, le_rfl⟩
  | @handedOut _ done q _ ih =>
    refine ⟨fun c => ?_, .nil, by simp [SequentialActorSubmitQueue.popAllOutOfOrderCompletedTasks], ih.starts⟩
    rw [Set.mem_sep_iff, ← ih.completed]
    constructor
    · rintro (hlt | hmem)
      · refine ⟨.inl hlt, fun hc => ?_⟩
        obtain ⟨p, hp, rfl⟩ := mem_map.mp hc
        exact lt_asymm hlt (ih.above p hp)
      · cases hmem
    · exact fun hc => .inl (hc.1.resolve_right hc.2)

/-- The reply position is the least number that is not completed, where a task that was handed out is not completed
until it is again. -/
theorem reply_frontier (h : Replied ever done q) : IsLeast { n | n ∉ done } q.nextTaskReplyPosition ∧
      (∀ n, n ∈ q.outOfOrderCompletedTasks.map Prod.fst ↔ n ∈ done ∧ q.nextTaskReplyPosition < n) ∧
      ∀ n ∉ done, ∃ k, q.getSequenceNumber n = some k ∧
        ∀ n' ∉ done, n < n' → ∃ k', q.getSequenceNumber n' = some k' ∧ k < k' := by
  obtain ⟨hcompleted, -, habove, hstarts⟩ := h.frontier
  have hkeys (n : Nat) (hn : n ∈ q.outOfOrderCompletedTasks.map Prod.fst) : q.nextTaskReplyPosition < n := by
    obtain ⟨p, hp, rfl⟩ := mem_map.mp hn
    exact habove p hp
  have hle (n : Nat) (hn : n ∉ done) : q.nextTaskReplyPosition ≤ n := by
    by_contra hlt
    exact hn ((hcompleted n).mp (.inl (not_le.mp hlt)))
  have hnumber (n : Nat) (hn : n ∉ done) : q.getSequenceNumber n = some (n - q.callerStartsAt) :=
    if_pos (hstarts.trans (hle n hn))
  refine ⟨⟨fun hdone => ?_, hle⟩, fun n => ?_, fun n hn => ⟨_, hnumber n hn, fun n' hn' hlt => ⟨_, hnumber n' hn', ?_⟩⟩⟩
  · exact ((hcompleted _).mpr hdone).elim (lt_irrefl _) fun hmem => lt_irrefl _ (hkeys _ hmem)
  · rw [← hcompleted]
    exact ⟨fun hn => ⟨.inr hn, hkeys n hn⟩, fun hn => hn.1.resolve_left (lt_asymm hn.2)⟩
  · have := hle n hn
    omega

theorem reply_frontier_second : ∃ ever done q, Replied ever done q ∧ q.outOfOrderCompletedTasks = [(1, 1)] ∧
    IsLeast { n | n ∉ done } q.nextTaskReplyPosition := by
  have h : Replied _ _ _ := .completed 1 1 .start (Set.notMem_empty 1)
  exact ⟨_, _, _, h, rfl, (reply_frontier h).1⟩

/-- The second task is completed and handed out, then the first one is completed: the position is at the second. -/
theorem reply_position_completed : ∃ ever done q, Replied ever done q ∧ q.nextTaskReplyPosition ∈ ever := by
  refine ⟨_, _, _, .completed 0 0 (.handedOut (.completed 1 1 .start (Set.notMem_empty 1))) ?_, ?_⟩
  · simp
  · exact .inr (.inl rfl)

end AmazonRay.ActorSubmitter
