import AmazonRay.Ids

/-! The stream of tasks to an actor: `SequentialActorSubmitQueue` numbers them, `ActorSchedulingQueue` runs them in
order. -/
namespace AmazonRay.ActorSubmitter
open List

/-- A task that waits to be sent, under its actor counter. -/
structure Request where
  sequenceNo : Nat
  task : TaskID
  dependencyResolved : Bool := false
  deriving DecidableEq, Repr

/-- The two maps are lists in the order of their keys. -/
structure SequentialActorSubmitQueue where
  requests : List Request := []
  nextSendPosition : Nat := 0
  callerStartsAt : Nat := 0
  nextTaskReplyPosition : Nat := 0
  outOfOrderCompletedTasks : List (Nat × TaskID) := []
  deriving DecidableEq, Repr

def advance : Nat → List (Nat × TaskID) → Nat × List (Nat × TaskID)
  | position, [] => (position, [])
  | position, (sequenceNo, task) :: rest =>
    if sequenceNo = position then advance (position + 1) rest
    else (position, (sequenceNo, task) :: rest)

namespace SequentialActorSubmitQueue

def get? (q : SequentialActorSubmitQueue) (sequenceNo : Nat) : Option Request :=
  q.requests.find? fun r => r.sequenceNo = sequenceNo

def contains (q : SequentialActorSubmitQueue) (sequenceNo : Nat) : Bool := (q.get? sequenceNo).isSome

def emplace (q : SequentialActorSubmitQueue) (sequenceNo : Nat) (task : TaskID) :
    SequentialActorSubmitQueue :=
  { q with requests :=
      q.requests.orderedInsert (fun r r' => r.sequenceNo ≤ r'.sequenceNo) { sequenceNo, task } }

def markDependencyFailed (q : SequentialActorSubmitQueue) (sequenceNo : Nat) :
    SequentialActorSubmitQueue :=
  { q with requests := q.requests.filter fun r => r.sequenceNo ≠ sequenceNo }

def markDependencyResolved (q : SequentialActorSubmitQueue) (sequenceNo : Nat) :
    SequentialActorSubmitQueue :=
  { q with requests := q.requests.map fun r =>
      if r.sequenceNo = sequenceNo then { r with dependencyResolved := true } else r }

def clearAllTasks (q : SequentialActorSubmitQueue) : List TaskID × SequentialActorSubmitQueue :=
  (q.requests.map Request.task, { q with requests := [] })

/-- The task, and whether it was sent before and is to skip the queue. The position moves on in both cases. -/
def popNextTaskToSend (q : SequentialActorSubmitQueue) :
    Option ((TaskID × Bool) × SequentialActorSubmitQueue) :=
  match q.requests with
  | [] => none
  | head :: rest =>
    if head.sequenceNo ≤ q.nextSendPosition ∧ head.dependencyResolved = true then
      some ((head.task, decide (head.sequenceNo < q.nextSendPosition)),
        { q with requests := rest, nextSendPosition := q.nextSendPosition + 1 })
    else none

def popAllOutOfOrderCompletedTasks (q : SequentialActorSubmitQueue) :
    List (Nat × TaskID) × SequentialActorSubmitQueue :=
  (q.outOfOrderCompletedTasks, { q with outOfOrderCompletedTasks := [] })

def onClientConnected (q : SequentialActorSubmitQueue) : SequentialActorSubmitQueue :=
  { q with callerStartsAt := q.nextTaskReplyPosition }

/-- A task that is already there is not replaced. -/
def insertCompleted (tasks : List (Nat × TaskID)) (sequenceNo : Nat) (task : TaskID) :
    List (Nat × TaskID) :=
  if sequenceNo ∈ tasks.map Prod.fst then tasks
  else tasks.orderedInsert (fun p p' => p.1 ≤ p'.1) (sequenceNo, task)

def markTaskCompleted (q : SequentialActorSubmitQueue) (sequenceNo : Nat) (task : TaskID) :
    SequentialActorSubmitQueue :=
  let advanced := advance q.nextTaskReplyPosition
    (insertCompleted q.outOfOrderCompletedTasks sequenceNo task)
  { q with nextTaskReplyPosition := advanced.1, outOfOrderCompletedTasks := advanced.2 }

def Completed (q : SequentialActorSubmitQueue) (c : Nat) : Prop :=
  c < q.nextTaskReplyPosition ∨ c ∈ q.outOfOrderCompletedTasks.map Prod.fst

end SequentialActorSubmitQueue

open SequentialActorSubmitQueue

variable {n : Nat} {task : TaskID}

lemma completed_advance (position : Nat) (tasks : List (Nat × TaskID)) (c : Nat) :
    (c < (advance position tasks).1 ∨ c ∈ (advance position tasks).2.map Prod.fst) ↔
      c < position ∨ c ∈ tasks.map Prod.fst := by
  induction tasks generalizing position with
  | nil => rfl
  | cons p rest ih =>
    unfold advance
    split
    case isTrue h =>
      rw [ih, map_cons, mem_cons, h, Nat.lt_succ_iff_lt_or_eq, or_assoc]
    · rfl

lemma mem_insertCompleted {tasks : List (Nat × TaskID)} {c : Nat} :
    c ∈ (insertCompleted tasks n task).map Prod.fst ↔ c = n ∨ c ∈ tasks.map Prod.fst := by
  unfold insertCompleted
  split
  case isTrue h =>
    refine ⟨.inr, ?_⟩
    rintro (rfl | hc)
    · exact h
    · exact hc
  · simp [mem_map, mem_orderedInsert, eq_comm]

lemma SequentialActorSubmitQueue.completed_markTaskCompleted (q : SequentialActorSubmitQueue)
    (n : Nat) (task : TaskID) (c : Nat) :
    (q.markTaskCompleted n task).Completed c ↔ c = n ∨ q.Completed c := by
  rw [Completed, markTaskCompleted, completed_advance, mem_insertCompleted, Completed]
  exact or_left_comm

lemma advance_suffix (position : Nat) (tasks : List (Nat × TaskID)) : (advance position tasks).2 <:+ tasks := by
  induction tasks generalizing position with
  | nil => exact suffix_rfl
  | cons p rest ih =>
    unfold advance
    split
    · exact (ih _).trans (suffix_cons p rest)
    · exact suffix_rfl

lemma SequentialActorSubmitQueue.mem_markTaskCompleted {q : SequentialActorSubmitQueue} {p : Nat × TaskID}
    (h : p ∈ (q.markTaskCompleted n task).outOfOrderCompletedTasks) :
    p = (n, task) ∨ p ∈ q.outOfOrderCompletedTasks := by
  have hp := (advance_suffix _ _).subset h
  unfold insertCompleted at hp
  split at hp
  · exact .inr hp
  · exact (mem_orderedInsert _).mp hp

structure InboundRequest where
  seqNo : Nat
  hasPendingDependencies : Bool
  deriving DecidableEq, Repr

def InboundRequest.canExecute (r : InboundRequest) : Bool := !r.hasPendingDependencies

/-- Pending tasks are in the order of their numbers. `accepted` and `cancelled` are the calls of `Accept` and `Cancel`.
-/
structure ActorSchedulingQueue where
  nextSeqNo : Nat := 0
  pendingActorTasks : List InboundRequest := []
  waitTimer : Bool := false
  accepted : List Nat := []
  cancelled : List Nat := []
  deriving DecidableEq, Repr

def acceptInOrder : Nat → List InboundRequest → List Nat × List InboundRequest
  | _, [] => ([], [])
  | next, r :: rest =>
    if r.seqNo = next ∧ r.canExecute = true then
      (next :: (acceptInOrder (next + 1) rest).1, (acceptInOrder (next + 1) rest).2)
    else ([], r :: rest)

namespace ActorSchedulingQueue

def scheduleRequests (q : ActorSchedulingQueue) : ActorSchedulingQueue :=
  let stale := q.pendingActorTasks.takeWhile fun r => r.seqNo < q.nextSeqNo
  let inOrder := acceptInOrder q.nextSeqNo
    (q.pendingActorTasks.dropWhile fun r => r.seqNo < q.nextSeqNo)
  { nextSeqNo := q.nextSeqNo + inOrder.1.length
    pendingActorTasks := inOrder.2
    waitTimer := inOrder.2.head?.any InboundRequest.canExecute
    accepted := q.accepted ++ inOrder.1
    cancelled := q.cancelled ++ stale.map InboundRequest.seqNo }

def skipTo (q : ActorSchedulingQueue) (clientProcessedUpTo : Int) : ActorSchedulingQueue :=
  if (q.nextSeqNo : Int) ≤ clientProcessedUpTo then
    { q with nextSeqNo := (clientProcessedUpTo + 1).toNat } else q

def insert (q : ActorSchedulingQueue) (r : InboundRequest) : ActorSchedulingQueue :=
  let others := q.pendingActorTasks.filter fun other => other.seqNo ≠ r.seqNo
  { q with pendingActorTasks := others.orderedInsert (fun r r' => r.seqNo ≤ r'.seqNo) r }

def add (q : ActorSchedulingQueue) (seqNo : Nat) (clientProcessedUpTo : Int)
    (hasDependencies : Bool) : ActorSchedulingQueue :=
  ((q.skipTo clientProcessedUpTo).insert
    { seqNo, hasPendingDependencies := hasDependencies }).scheduleRequests

def markDependenciesSatisfied (q : ActorSchedulingQueue) (seqNo : Nat) : ActorSchedulingQueue :=
  if seqNo ∈ q.pendingActorTasks.map InboundRequest.seqNo then
    scheduleRequests { q with pendingActorTasks := q.pendingActorTasks.map fun r =>
      if r.seqNo = seqNo then { r with hasPendingDependencies := false } else r }
  else q

def onSequencingWaitTimeout (q : ActorSchedulingQueue) : ActorSchedulingQueue :=
  { q with
    nextSeqNo := q.pendingActorTasks.foldl (fun next r => max next (r.seqNo + 1)) q.nextSeqNo
    pendingActorTasks := []
    waitTimer := false
    cancelled := q.cancelled ++ q.pendingActorTasks.map InboundRequest.seqNo }

end ActorSchedulingQueue

inductive Arrival where
  | request (seqNo : Nat) (clientProcessedUpTo : Int) (hasDependencies : Bool)
  | dependenciesSatisfied (seqNo : Nat)
  | waitTimeout
  deriving DecidableEq, Repr

def ActorSchedulingQueue.handle (q : ActorSchedulingQueue) : Arrival → ActorSchedulingQueue
  | .request seqNo clientProcessedUpTo hasDependencies =>
    q.add seqNo clientProcessedUpTo hasDependencies
  | .dependenciesSatisfied seqNo => q.markDependenciesSatisfied seqNo
  | .waitTimeout => q.onSequencingWaitTimeout

def ActorSchedulingQueue.handleAll (arrivals : List Arrival) : ActorSchedulingQueue :=
  arrivals.foldl ActorSchedulingQueue.handle {}

def Arrival.seqNo? : Arrival → Option Nat
  | .request seqNo _ _ => some seqNo
  | _ => none

/-- The numbers that arrived are below the next one or pending. -/
structure ActorSchedulingQueue.Waits (q : ActorSchedulingQueue) (arrived : Nat → Prop) : Prop where
  ordered : q.pendingActorTasks.Pairwise fun r r' => r.seqNo < r'.seqNo
  pending : ∀ r ∈ q.pendingActorTasks, arrived r.seqNo
  passed : ∀ k, arrived k → k < q.nextSeqNo ∨ k ∈ q.pendingActorTasks.map InboundRequest.seqNo

/-- The timer runs only for a gap before the first pending task. -/
def ActorSchedulingQueue.Timed (q : ActorSchedulingQueue) : Prop :=
  q.waitTimer = true → ∃ r rest, q.pendingActorTasks = r :: rest ∧ q.nextSeqNo < r.seqNo

variable {arrived : Nat → Prop} {q : ActorSchedulingQueue} {tasks : List InboundRequest} {r : InboundRequest}
  {next k : Nat}

lemma acceptInOrder_suffix (next : Nat) (tasks : List InboundRequest) : (acceptInOrder next tasks).2 <:+ tasks := by
  induction tasks generalizing next with
  | nil => exact suffix_rfl
  | cons r rest ih =>
    unfold acceptInOrder
    split
    · exact (ih _).trans (suffix_cons r rest)
    · exact suffix_rfl

lemma mem_acceptInOrder (next : Nat) (tasks : List InboundRequest) (h : k ∈ tasks.map InboundRequest.seqNo) :
    k < next + (acceptInOrder next tasks).1.length ∨ k ∈ (acceptInOrder next tasks).2.map InboundRequest.seqNo := by
  induction tasks generalizing next with
  | nil => exact .inr h
  | cons r rest ih =>
    unfold acceptInOrder
    split
    case isFalse => exact .inr h
    case isTrue hr =>
      rw [length_cons]
      rcases mem_cons.mp h with rfl | hk
      · omega
      · exact (ih (next + 1) hk).imp_left fun hlt => by omega

lemma acceptInOrder_head {rest : List InboundRequest} (next : Nat)
    (tasks : List InboundRequest) (hord : tasks.Pairwise fun r r' => r.seqNo < r'.seqNo)
    (hle : ∀ r ∈ tasks, next ≤ r.seqNo) (h : (acceptInOrder next tasks).2 = r :: rest)
    (hr : r.canExecute = true) : next + (acceptInOrder next tasks).1.length < r.seqNo := by
  induction tasks generalizing next with
  | nil => cases h
  | cons r' rest' ih =>
    rw [pairwise_cons] at hord
    unfold acceptInOrder at h ⊢
    split at h
    case isTrue hr' =>
      rw [if_pos hr']
      have := ih (next + 1) hord.2 (fun x hx => hr'.1 ▸ hord.1 x hx) h
      rw [length_cons]
      omega
    case isFalse hr' =>
      rw [if_neg hr']
      obtain ⟨rfl, rfl⟩ := cons.inj h
      have hne : r'.seqNo ≠ next := fun he => hr' ⟨he, hr⟩
      have := hle r' mem_cons_self
      rw [length_nil]
      omega

lemma le_of_mem_dropWhile (hord : tasks.Pairwise fun r r' => r.seqNo < r'.seqNo) (h : r ∈ tasks.dropWhile fun r => r.seqNo < next) : next ≤ r.seqNo := by
  induction tasks with
  | nil => cases h
  | cons r' rest ih =>
    rw [pairwise_cons] at hord
    rw [dropWhile_cons] at h
    split at h
    · exact ih hord.2 h
    case isFalse hn =>
      have hle : next ≤ r'.seqNo := by simpa using hn
      rcases mem_cons.mp h with rfl | hr
      · exact hle
      · exact hle.trans (hord.1 r hr).le

lemma lt_or_mem_dropWhile (next : Nat) (h : k ∈ tasks.map InboundRequest.seqNo) :
    k < next ∨ k ∈ (tasks.dropWhile fun r => r.seqNo < next).map InboundRequest.seqNo := by
  rw [← takeWhile_append_dropWhile (l := tasks), map_append, mem_append] at h
  refine h.imp_left fun hk => ?_
  obtain ⟨r, hr, rfl⟩ := mem_map.mp hk
  have hall := all_takeWhile (p := fun r : InboundRequest => decide (r.seqNo < next)) (l := tasks)
  exact of_decide_eq_true (all_eq_true.mp hall r hr)

lemma ActorSchedulingQueue.Waits.scheduleRequests (h : q.Waits arrived) :
    q.scheduleRequests.Waits arrived ∧ q.scheduleRequests.Timed := by
  have hsuffix := (acceptInOrder_suffix q.nextSeqNo
    (q.pendingActorTasks.dropWhile fun r => r.seqNo < q.nextSeqNo)).sublist.trans (dropWhile_sublist _)
  refine ⟨⟨h.ordered.sublist hsuffix, fun r hr => h.pending r (hsuffix.subset hr), ?_⟩, ?_⟩
  · intro k hk
    rcases h.passed k hk with hlt | hmem
    · exact .inl (Nat.lt_add_right _ hlt)
    rcases lt_or_mem_dropWhile q.nextSeqNo hmem with hlt | hmem
    · exact .inl (Nat.lt_add_right _ hlt)
    · exact mem_acceptInOrder _ _ hmem
  · intro ht
    obtain ⟨r, hr, hexec⟩ := (Option.any_eq_true _ _).mp ht
    obtain ⟨rest, hrest⟩ := head?_eq_some_iff.mp hr
    exact ⟨r, rest, hrest, acceptInOrder_head _ _ (h.ordered.sublist (dropWhile_sublist _))
      (fun _ hm => le_of_mem_dropWhile h.ordered hm) hrest hexec⟩

lemma ActorSchedulingQueue.Waits.skipTo (h : q.Waits arrived) (clientProcessedUpTo : Int) :
    (q.skipTo clientProcessedUpTo).Waits arrived := by
  unfold ActorSchedulingQueue.skipTo
  split
  case isFalse => exact h
  case isTrue hle =>
    refine ⟨h.ordered, h.pending, fun k hk => (h.passed k hk).imp_left fun hlt => ?_⟩
    show k < (clientProcessedUpTo + 1).toNat
    omega

lemma pairwise_orderedInsert {α : Type} {key : α → Nat} {l : List α} {a : α}
    (hord : l.Pairwise fun b b' => key b < key b') (hne : ∀ b ∈ l, key b ≠ key a) :
    (l.orderedInsert (fun b b' => key b ≤ key b') a).Pairwise fun b b' => key b < key b' := by
  induction l with
  | nil => exact pairwise_singleton _ _
  | cons b rest ih =>
    rw [pairwise_cons] at hord
    have hhead := hne b mem_cons_self
    rw [orderedInsert_cons]
    split
    case isTrue hle =>
      refine pairwise_cons.mpr ⟨fun x hx => ?_, pairwise_cons.mpr hord⟩
      rcases mem_cons.mp hx with rfl | hx
      · omega
      · have := hord.1 x hx
        omega
    case isFalse hlt =>
      refine pairwise_cons.mpr ⟨fun x hx => ?_, ih hord.2 fun x hx => hne x (mem_cons_of_mem _ hx)⟩
      rcases (mem_orderedInsert _).mp hx with rfl | hx
      · omega
      · exact hord.1 x hx

lemma ActorSchedulingQueue.Waits.insert (h : q.Waits arrived) (r : InboundRequest) :
    (q.insert r).Waits fun k => k = r.seqNo ∨ arrived k := by
  have hmem : ∀ x : InboundRequest, x ∈ (q.insert r).pendingActorTasks ↔
      x = r ∨ x ∈ q.pendingActorTasks ∧ x.seqNo ≠ r.seqNo := by
    intro x
    simp [ActorSchedulingQueue.insert, mem_orderedInsert]
  refine ⟨?_, fun x hx => ?_, fun k hk => ?_⟩
  · refine pairwise_orderedInsert (h.ordered.filter _) fun r' hr' => ?_
    simpa using (mem_filter.mp hr').2
  · rcases (hmem x).mp hx with rfl | hx
    · exact .inl rfl
    · exact .inr (h.pending x hx.1)
  · by_cases hr : k = r.seqNo
    · exact .inr (mem_map.mpr ⟨r, (hmem r).mpr (.inl rfl), hr.symm⟩)
    rcases h.passed k (hk.resolve_left hr) with hlt | hk
    · exact .inl hlt
    · obtain ⟨x, hx, rfl⟩ := mem_map.mp hk
      exact .inr (mem_map.mpr ⟨x, (hmem x).mpr (.inr ⟨hx, hr⟩), rfl⟩)

lemma le_foldl_max (next : Nat) (tasks : List InboundRequest) :
    next ≤ tasks.foldl (fun next r => max next (r.seqNo + 1)) next ∧ ∀ k ∈ tasks.map InboundRequest.seqNo,
        k < tasks.foldl (fun next r => max next (r.seqNo + 1)) next := by
  induction tasks generalizing next with
  | nil => exact ⟨le_rfl, nofun⟩
  | cons r rest ih =>
    obtain ⟨hle, hlt⟩ := ih (max next (r.seqNo + 1))
    refine ⟨(le_max_left _ _).trans hle, fun k hk => ?_⟩
    rcases mem_cons.mp hk with rfl | hk
    · exact lt_of_lt_of_le (Nat.lt_succ_self _) ((le_max_right _ _).trans hle)
    · exact hlt k hk

lemma ActorSchedulingQueue.Waits.handle (h : q.Waits arrived) (ht : q.Timed) (a : Arrival) :
    (q.handle a).Waits (fun k => a.seqNo? = some k ∨ arrived k) ∧ (q.handle a).Timed := by
  cases a with
  | request seqNo clientProcessedUpTo hasDependencies =>
    have hinsert := (h.skipTo clientProcessedUpTo).insert { seqNo, hasPendingDependencies := hasDependencies }
    obtain ⟨hw, ht'⟩ := hinsert.scheduleRequests
    refine ⟨⟨hw.ordered, fun r hr => ?_, fun k hk => ?_⟩, ht'⟩
    · exact (hw.pending r hr).imp_left fun he => congrArg some he.symm
    · exact hw.passed k (hk.imp_left fun he => (Option.some.inj he).symm)
  | dependenciesSatisfied seqNo =>
    have hw : q.Waits fun k => (Arrival.dependenciesSatisfied seqNo).seqNo? = some k ∨ arrived k :=
      ⟨h.ordered, fun r hr => .inr (h.pending r hr), fun k hk => h.passed k (hk.resolve_left (nomatch ·))⟩
    show (q.markDependenciesSatisfied seqNo).Waits _ ∧ (q.markDependenciesSatisfied seqNo).Timed
    unfold ActorSchedulingQueue.markDependenciesSatisfied
    split
    case isFalse => exact ⟨hw, ht⟩
    · refine ActorSchedulingQueue.Waits.scheduleRequests ⟨?_, ?_, ?_⟩
      · refine hw.ordered.map _ fun r r' hlt => ?_
        split <;> split <;> exact hlt
      · intro r hr
        obtain ⟨r', hr', rfl⟩ := mem_map.mp hr
        split <;> exact hw.pending r' hr'
      · intro k hk
        rw [map_map]
        refine (hw.passed k hk).imp_right fun hm => ?_
        obtain ⟨r, hr, rfl⟩ := mem_map.mp hm
        refine mem_map.mpr ⟨r, hr, ?_⟩
        simp only [Function.comp_apply]
        split <;> rfl
  | waitTimeout =>
    refine ⟨⟨List.Pairwise.nil, nofun, fun k hk => .inl ?_⟩, nofun⟩
    obtain ⟨hle, hlt⟩ := le_foldl_max q.nextSeqNo q.pendingActorTasks
    rcases h.passed k (hk.resolve_left (nomatch ·)) with hk | hk
    · exact lt_of_lt_of_le hk hle
    · exact hlt k hk

lemma waits_handleAll (arrivals : List Arrival) :
    (ActorSchedulingQueue.handleAll arrivals).Waits (fun k => k ∈ arrivals.filterMap Arrival.seqNo?) ∧
      (ActorSchedulingQueue.handleAll arrivals).Timed := by
  induction arrivals using reverseRecOn with
  | nil =>
    exact ⟨⟨List.Pairwise.nil, nofun, nofun⟩, nofun⟩
  | append_singleton arrivals a ih =>
    have hfold : ActorSchedulingQueue.handleAll (arrivals ++ [a]) =
        (ActorSchedulingQueue.handleAll arrivals).handle a := by
      simp [ActorSchedulingQueue.handleAll]
    obtain ⟨hw, ht⟩ := ih.1.handle ih.2 a
    have hiff k : k ∈ (arrivals ++ [a]).filterMap Arrival.seqNo? ↔
        a.seqNo? = some k ∨ k ∈ arrivals.filterMap Arrival.seqNo? := by
      simp [filterMap_append, or_comm, mem_filterMap]
    rw [hfold]
    refine ⟨⟨hw.ordered, fun r hr => (hiff _).mpr (hw.pending r hr), fun k hk => ?_⟩, ht⟩
    exact hw.passed k ((hiff k).mp hk)

lemma not_waiting_of_gapless {arrivals : List Arrival} (h : ∀ k, k ∈ arrivals.filterMap Arrival.seqNo? ↔ k < n) :
    (ActorSchedulingQueue.handleAll arrivals).waitTimer = false := by
  obtain ⟨hw, ht⟩ := waits_handleAll arrivals
  by_contra htimer
  obtain ⟨r, rest, hpending, hlt⟩ := ht (by simpa using htimer)
  -- the number that is waited for arrived, so it would be pending before the first
  have hr : r.seqNo < n := (h _).mp (hw.pending r (hpending ▸ mem_cons_self))
  have hord := hw.ordered
  rw [hpending, pairwise_cons] at hord
  rcases hw.passed _ ((h _).mpr (hlt.trans hr)) with hself | hmem
  · exact lt_irrefl _ hself
  rw [hpending, map_cons, mem_cons] at hmem
  rcases hmem with he | hmem
  · omega
  · obtain ⟨x, hx, he⟩ := mem_map.mp hmem
    have := hord.1 x hx
    omega

end AmazonRay.ActorSubmitter
