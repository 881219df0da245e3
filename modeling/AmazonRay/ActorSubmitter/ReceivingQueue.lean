import AmazonRay.ActorSubmitter.Queues
import AmazonRay.Lib.Runs

/-! What becomes of the requests that arrive at a worker. -/
namespace AmazonRay.ActorSubmitter
open List ActorSchedulingQueue

def ActorSchedulingQueue.numbers (q : ActorSchedulingQueue) : List Nat := q.pendingActorTasks.map InboundRequest.seqNo

/-- Each request is then pending, accepted or cancelled, and those accepted now come after the others in the order of
their numbers. -/
structure Answers (requests : List Nat) (q t : ActorSchedulingQueue) (accepted cancelled : List Nat) : Prop where
  accepts : t.accepted = q.accepted ++ accepted
  cancels : t.cancelled = q.cancelled ++ cancelled
  requests : requests.Perm (t.numbers ++ accepted ++ cancelled)
  next : q.nextSeqNo ≤ t.nextSeqNo
  ordered : accepted.Pairwise (· < ·)
  between : ∀ k ∈ accepted, q.nextSeqNo ≤ k ∧ k < t.nextSeqNo

variable {q t : ActorSchedulingQueue}

lemma acceptInOrder_eq (next : Nat) (tasks : List InboundRequest) :
    (acceptInOrder next tasks).1 = range' next (acceptInOrder next tasks).1.length ∧ tasks.map InboundRequest.seqNo =
      (acceptInOrder next tasks).1 ++ (acceptInOrder next tasks).2.map InboundRequest.seqNo := by
  induction tasks generalizing next with
  | nil => exact ⟨rfl, rfl⟩
  | cons r rest ih =>
    unfold acceptInOrder
    split
    case isTrue hr =>
      obtain ⟨hrange, hmap⟩ := ih (next + 1)
      rw [length_cons, range'_succ, ← hrange, map_cons, hmap, hr.1]
      exact ⟨rfl, rfl⟩
    · exact ⟨rfl, rfl⟩

lemma answers_scheduleRequests (haccepted : t.accepted = q.accepted) (hcancelled : t.cancelled = q.cancelled)
    (hnext : q.nextSeqNo ≤ t.nextSeqNo) : ∃ accepted cancelled, Answers t.numbers q t.scheduleRequests accepted cancelled := by
  obtain ⟨hrange, hmap⟩ := acceptInOrder_eq t.nextSeqNo (t.pendingActorTasks.dropWhile fun r => r.seqNo < t.nextSeqNo)
  refine ⟨_, _, congrArg (· ++ _) haccepted, congrArg (· ++ _) hcancelled, ?_, Nat.le_add_right_of_le hnext,
    hrange ▸ pairwise_lt_range', fun k hk => ?_⟩
  · have hsplit := congrArg (map InboundRequest.seqNo) (takeWhile_append_dropWhile
      (p := fun r => r.seqNo < t.nextSeqNo) (l := t.pendingActorTasks))
    rw [map_append, hmap] at hsplit
    exact (Perm.of_eq hsplit.symm).trans (perm_append_comm.trans (perm_append_comm.append_right _))
  · rw [hrange, mem_range'_1] at hk
    exact ⟨hnext.trans hk.1, hk.2⟩

/-- The requests of a step: one with the number of a pending one takes its place. -/
def ActorSchedulingQueue.offered (q : ActorSchedulingQueue) (a : Arrival) : List Nat :=
  a.seqNo?.elim q.numbers fun k => k :: q.numbers.filter (· ≠ k)

lemma answers_handle (q : ActorSchedulingQueue) (a : Arrival) :
    ∃ accepted cancelled, Answers (q.offered a) q (q.handle a) accepted cancelled := by
  cases a with
  | request seqNo processed hasDependencies =>
    have hskip : (q.skipTo processed).accepted = q.accepted ∧ (q.skipTo processed).cancelled = q.cancelled ∧
        q.nextSeqNo ≤ (q.skipTo processed).nextSeqNo ∧ (q.skipTo processed).pendingActorTasks = q.pendingActorTasks := by
      unfold skipTo
      split
      · exact ⟨rfl, rfl, by dsimp only; omega, rfl⟩
      · exact ⟨rfl, rfl, le_rfl, rfl⟩
    obtain ⟨haccepted, hcancelled, hnext, hpending⟩ := hskip
    obtain ⟨accepted, cancelled, h⟩ := answers_scheduleRequests
      (t := (q.skipTo processed).insert ⟨seqNo, hasDependencies⟩) haccepted hcancelled hnext
    refine ⟨accepted, cancelled, { h with requests := .trans ?_ h.requests }⟩
    rw [numbers, ActorSchedulingQueue.insert, hpending]
    refine .trans ?_ ((perm_orderedInsert _ _ _).map _).symm
    rw [map_cons, offered, numbers, Arrival.seqNo?, Option.elim_some, filter_map]
    rfl
  | dependenciesSatisfied seqNo =>
    rw [handle, markDependenciesSatisfied]
    split
    · obtain ⟨accepted, cancelled, h⟩ := answers_scheduleRequests rfl rfl le_rfl
      refine ⟨accepted, cancelled, { h with requests := .trans (.of_eq ?_) h.requests }⟩
      rw [offered, numbers, numbers, map_map]
      refine map_congr_left fun r _ => ?_
      rw [Function.comp_apply]
      split <;> rfl
    · exact ⟨[], [], by simp, by simp, by simp [offered, Arrival.seqNo?], le_rfl, .nil, (by simp)⟩
  | waitTimeout =>
    exact ⟨[], _, (append_nil _).symm, rfl, .refl _, (le_foldl_max _ _).1, .nil, (by simp)⟩

lemma accepted_handleAll (arrivals : List Arrival) : (handleAll arrivals).accepted.Pairwise (· < ·) ∧
    ∀ k ∈ (handleAll arrivals).accepted, k < (handleAll arrivals).nextSeqNo := by
  induction arrivals using reverseRecOn with
  | nil => exact ⟨.nil, nofun⟩
  | append_singleton arrivals a ih =>
    obtain ⟨accepted, cancelled, h⟩ := answers_handle (handleAll arrivals) a
    rw [handleAll, foldl_concat, ← handleAll, h.accepts]
    refine ⟨pairwise_append.mpr ⟨ih.1, h.ordered, fun k hk k' hk' => (ih.2 k hk).trans_le (h.between k' hk').1⟩, fun k hk => ?_⟩
    exact (mem_append.mp hk).elim (fun hk => (ih.2 k hk).trans_le h.next) fun hk => (h.between k hk).2

/-- Each request that arrived is pending, or was accepted or cancelled, and only one of these once. -/
def ActorSchedulingQueue.Accounts (q : ActorSchedulingQueue) (arrived : List Nat) : Prop :=
  arrived.Perm (q.numbers ++ q.accepted ++ q.cancelled)

/-- A step loses a request just if it takes the place of a pending one. -/
lemma ActorSchedulingQueue.Accounts.handle_iff {arrived : List Nat} (hq : q.Accounts arrived) (a : Arrival) :
    (q.handle a).Accounts (arrived ++ a.seqNo?.toList) ↔ ∀ k, a.seqNo? = some k → k ∉ q.numbers := by
  obtain ⟨accepted, cancelled, h⟩ := answers_handle q a
  have hafter : ((q.handle a).numbers ++ (q.handle a).accepted ++ (q.handle a).cancelled).Perm
      (q.offered a ++ (q.accepted ++ q.cancelled)) := by
    rw [h.accepts, h.cancels]
    refine .trans ?_ (h.requests.append_right _).symm
    simp only [perm_iff_count, count_append]
    omega
  have hbefore : (arrived ++ a.seqNo?.toList).Perm (q.numbers ++ a.seqNo?.toList ++ (q.accepted ++ q.cancelled)) := by
    refine (hq.append_right _).trans ?_
    simp only [perm_iff_count, count_append]
    omega
  rw [Accounts, (hbefore.congr_left _), (hafter.congr_right _), perm_append_right_iff, offered]
  cases a.seqNo? with
  | none => simp
  | some k =>
    rw [Option.elim_some, Option.toList_some, (perm_append_singleton k _).congr_left, perm_cons]
    constructor
    · rintro hperm _ ⟨⟩ hmem
      exact absurd (hperm.subset hmem) (by simp)
    · intro hfresh
      have hkeep : q.numbers.filter (· ≠ k) = q.numbers :=
        filter_eq_self.mpr fun x hx => decide_eq_true fun heq => hfresh k rfl (heq ▸ hx)
      rw [hkeep]

lemma filterMap_seqNo_append (done : List Arrival) (a : Arrival) :
    (done ++ [a]).filterMap Arrival.seqNo? = done.filterMap Arrival.seqNo? ++ a.seqNo?.toList := by
  cases a <;> simp [Arrival.seqNo?]

/-- The numbers that are accepted grow. Throughout a run each request that arrived is pending, accepted or cancelled,
and only one of these once, if and only if no request arrives with the number of a pending one. -/
theorem answered_once (arrivals : List Arrival) : (handleAll arrivals).accepted.Pairwise (· < ·) ∧
    ((∀ done, done <+: arrivals → (done.filterMap Arrival.seqNo?).Perm
        ((handleAll done).numbers ++ (handleAll done).accepted ++ (handleAll done).cancelled)) ↔
      ∀ done a, done ++ [a] <+: arrivals → ∀ k, a.seqNo? = some k → k ∉ (handleAll done).numbers) := by
  have hstep done (a : Arrival) : handleAll (done ++ [a]) = (handleAll done).handle a := by
    rw [handleAll, foldl_concat, ← handleAll]
  refine ⟨(accepted_handleAll arrivals).1, fun h done a hprefix => ?_, fun h done => ?_⟩
  · have hdone : (handleAll done).Accounts _ := h done ((prefix_append done [a]).trans hprefix)
    rw [← hdone.handle_iff, ← filterMap_seqNo_append, ← hstep]
    exact h _ hprefix
  · induction done using reverseRecOn with
    | nil => exact fun _ => .nil
    | append_singleton done a ih =>
      intro hprefix
      rw [hstep, filterMap_seqNo_append]
      exact (Accounts.handle_iff (ih ((prefix_append done [a]).trans hprefix)) a).mpr (h done a hprefix)

/-- A request that arrives twice: the first one is forgotten. -/
theorem overwritten_not_answered : (handleAll [.request 1 (-1) false, .request 1 (-1) false]).numbers = [1] ∧
    (handleAll [.request 1 (-1) false, .request 1 (-1) false]).accepted = [] ∧
    (handleAll [.request 1 (-1) false, .request 1 (-1) false]).cancelled = [] := by decide

/-- The numbers up to the next one are accepted, and the others that arrived are pending. -/
structure InTurn (arrived : List Nat) (q : ActorSchedulingQueue) : Prop where
  accepted : q.accepted = range q.nextSeqNo
  cancelled : q.cancelled = []
  pending : ∀ k ∈ q.numbers, q.nextSeqNo ≤ k
  perm : (q.accepted ++ q.numbers).Perm arrived
  timer : q.waitTimer = q.pendingActorTasks.head?.any InboundRequest.canExecute

/-- The client of a request has seen replies only of what was accepted. -/
def Arrival.Timely (q : ActorSchedulingQueue) : Arrival → Prop
  | .request _ clientProcessedUpTo _ => clientProcessedUpTo < q.nextSeqNo
  | .dependenciesSatisfied _ => True
  | .waitTimeout => False

lemma inTurn_scheduleRequests {arrived : List Nat} (haccepted : q.accepted = range q.nextSeqNo)
    (hcancelled : q.cancelled = []) (hpending : ∀ k ∈ q.numbers, q.nextSeqNo ≤ k) (hord : q.numbers.Pairwise (· < ·))
    (hperm : (q.accepted ++ q.numbers).Perm arrived) : InTurn arrived q.scheduleRequests := by
  have hle : ∀ r ∈ q.pendingActorTasks, q.nextSeqNo ≤ r.seqNo := fun r hr => hpending _ (mem_map_of_mem hr)
  have hdrop : q.pendingActorTasks.dropWhile (fun r => r.seqNo < q.nextSeqNo) = q.pendingActorTasks :=
    dropWhile_eq_self_iff.mpr fun hpos => by simpa using hle _ (getElem_mem hpos)
  have htake : q.pendingActorTasks.takeWhile (fun r => r.seqNo < q.nextSeqNo) = [] :=
    takeWhile_eq_nil_iff.mpr fun hpos => by simpa using hle _ (getElem_mem hpos)
  obtain ⟨hrange, hmap⟩ := acceptInOrder_eq q.nextSeqNo q.pendingActorTasks
  rw [ActorSchedulingQueue.scheduleRequests, hdrop, htake]
  rw [numbers, hmap] at hpending hord hperm
  refine ⟨?_, by simp [hcancelled], fun k hk => ?_, by rwa [append_assoc], rfl⟩
  · rw [haccepted, hrange, length_range', range_eq_range', range_eq_range', ← range'_append_1, zero_add]
  · by_contra! hlt
    have hmem : k ∈ (acceptInOrder q.nextSeqNo q.pendingActorTasks).1 := by
      rw [hrange, mem_range'_1]
      exact ⟨hpending k (mem_append_right _ hk), hlt⟩
    exact ((pairwise_append.mp hord).2.2 k hmem k hk).false

lemma InTurn.handle {arrived : List Nat} (h : InTurn arrived q) {P : Nat → Prop} (hw : q.Waits P) {a : Arrival}
    (ha : a.Timely q) (hnew : (arrived ++ a.seqNo?.toList).Nodup) :
    InTurn (arrived ++ a.seqNo?.toList) (q.handle a) := by
  cases a with
  | request k processed hasDependencies =>
    have hk : k ∉ arrived := fun hk => disjoint_of_nodup_append hnew hk (mem_singleton_self k)
    rw [← h.perm.mem_iff, mem_append, h.accepted, mem_range, not_or, not_lt] at hk
    have hnumbers : (q.insert ⟨k, hasDependencies⟩).numbers.Perm (k :: q.numbers) := by
      have hothers : q.pendingActorTasks.filter (fun other => other.seqNo ≠ k) = q.pendingActorTasks :=
        filter_eq_self.mpr fun r hr => decide_eq_true fun heq => hk.2 (heq ▸ mem_map_of_mem hr)
      rw [numbers, ActorSchedulingQueue.insert, hothers]
      exact (perm_orderedInsert _ _ _).map _
    rw [ActorSchedulingQueue.handle, add, skipTo, if_neg (not_le_of_gt ha)]
    refine inTurn_scheduleRequests h.accepted h.cancelled (fun j hj => ?_) (pairwise_map.mpr (hw.insert _).ordered) ?_
    · exact (mem_cons.mp (hnumbers.subset hj)).elim (fun heq => heq ▸ hk.1) (h.pending j)
    · exact (hnumbers.append_left _).trans (perm_middle.trans ((h.perm.cons k).trans (perm_append_singleton k _).symm))
  | dependenciesSatisfied k =>
    simp only [Arrival.seqNo?, Option.toList_none, append_nil]
    rw [ActorSchedulingQueue.handle, markDependenciesSatisfied]
    split
    · have hnumbers : (q.pendingActorTasks.map fun r => if r.seqNo = k then { r with hasPendingDependencies := false }
          else r).map InboundRequest.seqNo = q.numbers := by
        rw [numbers, map_map]
        refine map_congr_left fun r _ => ?_
        rw [Function.comp_apply]
        split <;> rfl
      refine inTurn_scheduleRequests h.accepted h.cancelled ?_ ?_ ?_ <;> rw [numbers, hnumbers]
      · exact h.pending
      · exact pairwise_map.mpr hw.ordered
      · exact h.perm
    · exact h
  | waitTimeout => exact ha.elim

/-- The requests may arrive in any order: they are accepted in the order of their numbers, each once. None is cancelled,
and only a missing request or an argument that is not there keeps one back. -/
theorem accepted_in_order {arrivals : List Arrival} (honce : (arrivals.filterMap Arrival.seqNo?).Nodup)
    (htimely : ∀ done a, done ++ [a] <+: arrivals → a.Timely (handleAll done)) :
    let q := handleAll arrivals
    (∃ n, q.accepted = range n) ∧ q.cancelled = [] ∧
      (q.accepted ++ q.numbers).Perm (arrivals.filterMap Arrival.seqNo?) ∧
      ((∀ r ∈ q.pendingActorTasks, r.canExecute = true) → ∀ n, range n ⊆ arrivals.filterMap Arrival.seqNo? →
        range n ⊆ q.accepted) := by
  have hall : InTurn (arrivals.filterMap Arrival.seqNo?) (handleAll arrivals) := by
    induction arrivals using reverseRecOn with
    | nil => exact ⟨rfl, rfl, fun _ hk => absurd hk not_mem_nil, .nil, rfl⟩
    | append_singleton done a ih =>
      rw [filterMap_seqNo_append] at honce ⊢
      rw [handleAll, foldl_concat]
      exact (ih honce.of_append_left fun d b hd => htimely d b (hd.trans (prefix_append _ _))).handle
        (waits_handleAll done).1 (htimely done a prefix_rfl) honce
  refine ⟨⟨_, hall.accepted⟩, hall.cancelled, hall.perm, fun hexec n hn k hk => ?_⟩
  by_contra hnot
  rw [hall.accepted, mem_range, not_lt] at hnot
  have hmem := hall.perm.mem_iff.mpr (hn (mem_range.mpr (hnot.trans_lt (mem_range.mp hk))))
  rw [mem_append, hall.accepted, mem_range, or_iff_right (lt_irrefl _)] at hmem
  obtain ⟨r, hr, hnext⟩ := mem_map.mp hmem
  -- the first pending request could execute, so it comes after a gap
  obtain ⟨first, rest, hpending⟩ := exists_cons_of_ne_nil (ne_nil_of_mem hr)
  have htimer := hall.timer
  rw [hpending, head?_cons, Option.any_some, hexec first (hpending ▸ mem_cons_self)] at htimer
  obtain ⟨hwaits, htimed⟩ := waits_handleAll arrivals
  obtain ⟨_, _, heq, hgap⟩ := htimed htimer
  cases hpending.symm.trans heq
  have hord := hwaits.ordered
  rw [hpending, pairwise_cons] at hord
  rcases mem_cons.mp (hpending ▸ hr) with rfl | hr
  · omega
  · have := hord.1 r hr
    omega

/-- The second request arrives first, and the first one waits for an argument. -/
theorem accepted_in_order_swapped :
    [0, 1] ⊆ (handleAll [.request 1 (-1) false, .request 0 (-1) true, .dependenciesSatisfied 0]).accepted := by
  refine (accepted_in_order (by decide) ?_).2.2.2 (by decide) 2 (by decide)
  have hearlier : (-1 : ℤ) < 0 := by decide
  exact Program.along_cons hearlier (Program.along_cons hearlier (Program.along_cons trivial Program.along_nil))

inductive RequestCallback
  | accept
  | reject
  | steal

/-- `head` is taken by `ScheduleRequests` and not accepted yet. The other fields record what arrived, the callbacks, and
what `CancelTaskIfFound` found. -/
structure NormalSchedulingQueue (ρ : Type) where
  pending : List ρ := []
  head : Option ρ := none
  added : List ρ := []
  invoked : List (ρ × RequestCallback) := []
  removed : List ρ := []

namespace NormalSchedulingQueue

inductive Call (ρ : Type)
  | add (r : ρ)
  | steal
  | cancelTaskIfFound (taskId : TaskID)
  | popHead
  | acceptHead

variable {ρ : Type} (q : NormalSchedulingQueue ρ)

def add (r : ρ) : NormalSchedulingQueue ρ :=
  { q with pending := q.pending ++ [r], added := r :: q.added }

/-- The loop of `Steal`. There is no result if its check fails. -/
def stealTail : Nat → NormalSchedulingQueue ρ → Option (NormalSchedulingQueue ρ)
  | 0, q => some q
  | n + 1, q => do
    let tail ← q.pending.getLast?
    stealTail n { q with pending := q.pending.dropLast, invoked := (tail, .steal) :: q.invoked }

def steal : Option (NormalSchedulingQueue ρ) :=
  if q.pending.length ≤ 1 then some q else stealTail (q.pending.length / 2) q

def requests : List ρ := q.pending ++ q.head.toList ++ q.invoked.map Prod.fst ++ q.removed

lemma stealTail_append {q : NormalSchedulingQueue ρ} {kept stolen : List ρ} (h : q.pending = kept ++ stolen) :
    stealTail stolen.length q = some { q with pending := kept, invoked := stolen.map (·, .steal) ++ q.invoked } := by
  induction stolen using reverseRecOn generalizing q with
  | nil =>
    obtain rfl := h.trans (append_nil _)
    rfl
  | append_singleton stolen tail ih =>
    rw [← append_assoc] at h
    rw [length_append, length_singleton, stealTail, h]
    simp [ih]

lemma steal_eq : ∃ kept stolen, q.pending = kept ++ stolen ∧ stolen.length = q.pending.length / 2 ∧
    q.steal = some { q with pending := kept, invoked := stolen.map (·, .steal) ++ q.invoked } := by
  let half := q.pending.length / 2
  have hloop : q.steal = stealTail half q := by
    unfold steal
    split
    · rw [show half = 0 by omega, stealTail]
    · rfl
  have hsplit := (take_append_drop (q.pending.length - half) q.pending).symm
  have hlength : (q.pending.drop (q.pending.length - half)).length = half := by
    rw [length_drop]
    omega
  have htail := stealTail_append hsplit
  rw [hlength] at htail
  exact ⟨_, _, hsplit, hlength, hloop.trans htail⟩

variable [DecidableEq ρ]

/-- The last request of the task is removed. No callback is invoked. -/
def cancelTaskIfFound (task : ρ → TaskID) (taskId : TaskID) : NormalSchedulingQueue ρ :=
  match q.pending.reverse.find? (task · = taskId) with
  | none => q
  | some r => { q with pending := (q.pending.reverse.erase r).reverse, removed := r :: q.removed }

/-- A turn of `ScheduleRequests`: the head is taken under the lock and accepted later. -/
def run (task : ρ → TaskID) (q : NormalSchedulingQueue ρ) : Call ρ → Option (NormalSchedulingQueue ρ)
  | .add r => some (q.add r)
  | .steal => q.steal
  | .cancelTaskIfFound taskId => some (q.cancelTaskIfFound task taskId)
  | .popHead => match q.head, q.pending with
    | none, r :: rest => some { q with head := r, pending := rest }
    | _, _ => some q
  | .acceptHead => match q.head with
    | none => some q
    | some r => some { q with head := none, invoked := (r, .accept) :: q.invoked }

lemma requests_run {q : NormalSchedulingQueue ρ} (task : ρ → TaskID) (call : Call ρ) (h : q.requests.Perm q.added) :
    ∃ t, q.run task call = some t ∧ t.requests.Perm t.added := by
  cases call with
  | add r =>
    refine ⟨_, rfl, .trans ?_ (h.cons r)⟩
    simp [requests, add]
  | steal =>
    obtain ⟨kept, stolen, hq, -, hsteal⟩ := q.steal_eq
    refine ⟨_, hsteal, .trans ?_ h⟩
    simp only [requests, hq, map_append, map_map, append_assoc, Function.comp_def, map_id']
    exact (perm_append_comm_assoc _ _ _).append_left _
  | cancelTaskIfFound taskId =>
    refine ⟨_, rfl, ?_⟩
    unfold cancelTaskIfFound
    split
    · exact h
    case h_2 r hr =>
      have hpending : (r :: (q.pending.reverse.erase r).reverse).Perm q.pending :=
        ((reverse_perm _).cons r).trans ((perm_cons_erase (mem_of_find?_eq_some hr)).symm.trans (reverse_perm _))
      exact (perm_middle.trans (((hpending.append_right _).append_right _).append_right _)).trans h
  | popHead =>
    simp only [run]
    split
    case h_1 r rest hhead hpending =>
      refine ⟨_, rfl, .trans ?_ h⟩
      simp [requests, hhead, hpending]
    · exact ⟨q, rfl, h⟩
  | acceptHead =>
    simp only [run]
    split
    · exact ⟨q, rfl, h⟩
    case h_2 r hr => exact ⟨_, rfl, by simpa [requests, hr] using h⟩

/-- No check fails, and what arrived is in the queue, taken, answered by one callback or removed by `CancelTaskIfFound`.
So each request that left the queue has one callback if and only if none was removed. `Steal` takes the second half of
the queue. -/
theorem pushed_answered_once (task : ρ → TaskID) (calls : List (Call ρ)) : ∃ q, calls.foldlM (run task) {} = some q ∧
    q.requests.Perm q.added ∧
    ((q.pending ++ q.head.toList ++ q.invoked.map Prod.fst).Perm q.added ↔ q.removed = []) ∧ ∃ kept stolen, q.pending = kept ++ stolen ∧ stolen.length = q.pending.length / 2 ∧
      q.steal = some { q with pending := kept, invoked := stolen.map (·, .steal) ++ q.invoked } := by
  suffices h : ∃ q, calls.foldlM (run task) {} = some q ∧ q.requests.Perm q.added by
    obtain ⟨q, hq, hrequests⟩ := h
    refine ⟨q, hq, hrequests, ⟨fun hall => ?_, fun hnone => ?_⟩, q.steal_eq⟩
    · simpa [requests] using (hrequests.trans hall.symm).length_eq
    · rwa [requests, hnone, append_nil] at hrequests
  induction calls using reverseRecOn with
  | nil => exact ⟨_, rfl, .nil⟩
  | append_singleton calls call ih =>
    obtain ⟨q, hq, hrequests⟩ := ih
    obtain ⟨t, ht, hrequests⟩ := requests_run task call hrequests
    exact ⟨t, by simp [hq, ht], hrequests⟩

/-- A task is cancelled in the queue. -/
theorem cancelled_not_answered : ([.add 7, .cancelTaskIfFound 7].foldlM (run id) {}).map
    (fun q : NormalSchedulingQueue TaskID => (q.added, q.pending, q.head, q.invoked)) = some ([7], [], none, []) := rfl

end NormalSchedulingQueue

end AmazonRay.ActorSubmitter
