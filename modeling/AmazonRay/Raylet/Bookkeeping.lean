import AmazonRay.Raylet.DependencyIndex
import AmazonRay.Raylet.ClusterTaskManager

/-! The accounts of the lease requests: where each of them is, and whose dependencies are registered. -/
namespace AmazonRay.Raylet
open Program

namespace WorkQueues

variable {t : WorkQueues} {c : SchedulingClass} {w x : WorkID}

def count (t : WorkQueues) (x : WorkID) : Nat := Table.total (fun _ q => q.count x) t

variable {q : List WorkID} {m : DependencyManager} {c' : SchedulingClass}

lemma count_erase (t : WorkQueues) (c : SchedulingClass) (x : WorkID) :
    WorkQueues.count (t.erase c) x + (t.queue c).count x = t.count x := by
  unfold count queue
  cases h : t.lookup c with
  | none => simp [Table.total_erase_of_lookup_none h]
  | some q =>
    rw [Table.total_of_lookup h, add_comm]
    rfl

lemma count_insert (t : WorkQueues) (c : SchedulingClass) (q : List WorkID) (x : WorkID) :
    WorkQueues.count (t.insert c q) x + (t.queue c).count x = t.count x + q.count x := by
  rw [← count_erase t c x, count, Table.total_insert, ← count]
  omega

def unit (w x : WorkID) : Nat := if x = w then 1 else 0

lemma debt_add (w x : WorkID) (d : Int) : (if x = w then d + 1 else 0) = (if x = w then d else 0) + unit w x := by
  unfold unit
  split <;> simp

lemma debt_sub (w x : WorkID) (d : Int) : (if x = w then d - 1 else 0) = (if x = w then d else 0) - unit w x := by
  unfold unit
  split <;> simp

lemma count_cons (w x : WorkID) (q : List WorkID) : (w :: q).count x = q.count x + unit w x := by
  rw [List.count_cons, unit]
  simp [eq_comm (a := w)]

lemma count_pushBack (t : WorkQueues) (c : SchedulingClass) (w x : WorkID) :
    (t.pushBack c w).count x = t.count x + unit w x := by
  have h := count_insert t c (t.queue c ++ [w]) x
  rw [List.count_append, count_cons, List.count_nil] at h
  unfold pushBack
  omega

lemma count_erase_mem (h : w ∈ q) (x : WorkID) : (q.erase w).count x + unit w x = q.count x := by
  rw [(List.perm_cons_erase h).count_eq x, count_cons]

lemma count_remove (h : w ∈ t.queue c) (x : WorkID) : (t.remove c w).count x + unit w x = t.count x := by
  have hq := count_erase_mem h x
  unfold remove
  split
  case isTrue hnil =>
    have he := count_erase t c x
    rw [hnil, List.count_nil] at hq
    omega
  · have hi := count_insert t c ((t.queue c).erase w) x
    omega

lemma count_queue_le (t : WorkQueues) (c : SchedulingClass) (x : WorkID) : (t.queue c).count x ≤ t.count x := by
  have := count_erase t c x
  omega

lemma count_pos (h : w ∈ t.queue c) : 0 < t.count w := lt_of_lt_of_le (List.count_pos_iff.mpr h) (count_queue_le t c w)

lemma mem_of_lookup (h : t.lookup c = some q) : t.queue c = q := by
  rw [queue, h]
  rfl

lemma lookup_ne_none (h : t.queue c ≠ []) : t.lookup c ≠ none := by
  intro hnone
  rw [queue, hnone] at h
  exact h rfl

lemma lookup_insert_none (h : t.queue c ≠ []) (hc' : t.lookup c' = none) : AList.lookup c' (t.insert c q) = none := by
  have hne : c' ≠ c := fun heq => lookup_ne_none h (heq ▸ hc')
  rw [Table.lookup_insert, if_neg hne, hc']

lemma lookup_remove_none (h : w ∈ t.queue c) (hc' : t.lookup c' = none) : AList.lookup c' (t.remove c w) = none := by
  unfold remove
  split
  · rw [Table.lookup_erase, hc', ite_self]
  · exact lookup_insert_none (List.ne_nil_of_mem h) hc'

lemma queue_insert (t : WorkQueues) (c c' : SchedulingClass) (q : List WorkID) :
    WorkQueues.queue (t.insert c q) c' = if c' = c then q else t.queue c' := by
  unfold queue
  rw [Table.lookup_insert]
  split <;> rfl

lemma queue_erase (t : WorkQueues) (c c' : SchedulingClass) :
    WorkQueues.queue (t.erase c) c' = if c' = c then [] else t.queue c' := by
  unfold queue
  rw [Table.lookup_erase]
  split <;> rfl

lemma queue_remove (t : WorkQueues) (c c' : SchedulingClass) (w : WorkID) :
    WorkQueues.queue (t.remove c w) c' = if c' = c then (t.queue c).erase w else t.queue c' := by
  unfold remove
  split
  case isTrue hnil => rw [queue_erase, hnil]
  · exact queue_insert t c c' _

end WorkQueues

/-- The places of the works, the callbacks of the worker pool and what the works wait for. -/
structure Queues where
  schedule : WorkQueues
  dispatch : WorkQueues
  infeasible : WorkQueues
  waiting : List WorkID
  index : AList fun _ : TaskID => WorkID
  popRequests : List WorkID
  status : WorkID → WorkStatus

def Queues.held (q : Queues) (x : WorkID) : Nat := q.dispatch.count x + q.waiting.count x

def Queues.places (q : Queues) (x : WorkID) : Nat :=
  q.schedule.count x + q.infeasible.count x + q.held x

variable {ρ : Type}

def State.queues (s : State ρ) : Queues :=
  ⟨s.tasksToSchedule, s.tasksToDispatch, s.infeasibleTasks, s.waitingTaskQueue, s.waitingTasksIndex, s.popRequests,
    fun x => (s.works x).status⟩

def State.closed (s : State ρ) (x : WorkID) : Nat :=
  (s.works x).replies.length + s.ownerDead.count x + s.overwritten.count x

/-- A queue is moved from the dispatch queues only to a class that has no other queue, and while none of its works waits
for a worker. -/
def State.MovesApart (s : State ρ) : Prop := ∀ m ∈ s.dispatchMoves, m.taken = false ∧ m.awaiting = false

/-- Tasks that were in a moved queue, or without a runtime environment, have no dependencies. -/
def State.Orderly (s : State ρ) : Prop :=
  (∀ m ∈ s.dispatchMoves, ∀ t ∈ m.tasks, t.dependencies = []) ∧
    ∀ t ∈ s.runtimeEnvFailures, t.dependencies = []

/-- The works made so far. Their task ids are distinct where dependencies are tracked. -/
structure Roster where
  tracked : Prop
  numWorks : Nat
  task : WorkID → RayTask
  distinct : tracked → ∀ w < numWorks, ∀ x < numWorks, (task w).taskId = (task x).taskId → w = x

/-- A work with dependencies is registered as often as held, up to a debt `e` at `w`. -/
structure Synced (b : Roster) (w : WorkID) (e : Int) (q : Queues) (m : DependencyManager) : Prop where
  tracked : m.Tracked
  held : ∀ x < b.numWorks, (b.task x).dependencies ≠ [] → (q.held x : Int) =
    (if m.Registered (b.task x).taskId then 1 else 0) + if x = w then e else 0
  owned : ∀ id, m.Registered id → ∃ x < b.numWorks, (b.task x).dependencies ≠ [] ∧
    (b.task x).taskId = id

/-- The worker pool has one callback for a work, which is cancelled or waits in the dispatch queue of its class. -/
structure Awaited (b : Roster) (popRequests : List WorkID) (status : WorkID → WorkStatus) (dispatch : WorkQueues)
    (closed : WorkID → Nat) : Prop where
  nodup : popRequests.Nodup
  waits : ∀ x ∈ popRequests, status x = .cancelled ∨
    status x = .waitingForWorker ∧ x ∈ dispatch.queue (b.task x).schedulingClass
  classes : ∀ c, ∀ x ∈ dispatch.queue c, (b.task x).schedulingClass = c
  cancelled : ∀ x, status x = .cancelled → 0 < closed x

abbrev Queues.Awaits (q : Queues) (b : Roster) (closed : WorkID → Nat) : Prop :=
  Awaited b q.popRequests q.status q.dispatch closed

namespace Awaited

variable {b : Roster} {popRequests : List WorkID} {status : WorkID → WorkStatus} {dispatch dispatch' : WorkQueues}
  {closed closed' : WorkID → Nat} {w : WorkID} (h : Awaited b popRequests status dispatch closed)
include h

lemma mono (hle : ∀ x, closed x ≤ closed' x) : Awaited b popRequests status dispatch closed' :=
  { h with cancelled := fun x hx => (h.cancelled x hx).trans_le (hle x) }

lemma grow (hsub : ∀ c, dispatch.queue c ⊆ dispatch'.queue c)
    (hnew : ∀ c, ∀ x ∈ dispatch'.queue c, x ∈ dispatch.queue c ∨ (b.task x).schedulingClass = c) :
    Awaited b popRequests status dispatch' closed :=
  { h with
    waits := fun x hx => (h.waits x hx).imp_right fun hw => ⟨hw.1, hsub _ hw.2⟩
    classes := fun c x hx => (hnew c x hx).elim (h.classes c x) id }

lemma shrink (hsub : ∀ c, dispatch'.queue c ⊆ dispatch.queue c)
    (hkeep : ∀ c, ∀ x ∈ dispatch.queue c, x ≠ w → x ∈ dispatch'.queue c)
    (hw : w ∈ popRequests → status w = .cancelled) : Awaited b popRequests status dispatch' closed where
  nodup := h.nodup
  waits x hx := by
    by_cases hxw : x = w
    · exact .inl (hxw ▸ hw (hxw ▸ hx))
    · exact (h.waits x hx).imp_right fun hwait => ⟨hwait.1, hkeep _ x hwait.2 hxw⟩
  classes c x hx := h.classes c x (hsub c hx)
  cancelled := h.cancelled

lemma restatus {new : WorkStatus} (hw : w ∈ popRequests → new = .cancelled) (hnew : new = .cancelled → 0 < closed w) :
    Awaited b popRequests (Function.update status w new) dispatch closed where
  nodup := h.nodup
  waits x hx := by
    by_cases hxw : x = w
    · exact .inl (hxw ▸ (Function.update_self ..).trans (hw (hxw ▸ hx)))
    · rw [Function.update_of_ne hxw]
      exact h.waits x hx
  classes := h.classes
  cancelled x hx := by
    by_cases hxw : x = w
    · rw [hxw, Function.update_self] at hx
      exact hxw ▸ hnew hx
    · rw [Function.update_of_ne hxw] at hx
      exact h.cancelled x hx

end Awaited

/-- Each work is in one place or closed once, up to a debt `d` at the work `w`. -/
structure Books (b : Roster) (w : WorkID) (d e : Int) (s : State ρ) : Prop where
  task : ∀ x, (s.works x).task = b.task x
  numWorks : s.numWorks = b.numWorks
  tally : ∀ x, (s.queues.places x + s.closed x : Int) =
    (if x < b.numWorks then 1 else 0) + if x = w then d else 0
  index : ∀ id x, s.waitingTasksIndex.lookup id = some x →
    x ∈ s.waitingTaskQueue ∧ (b.task x).taskId = id
  apart : s.MovesApart → s.overwritten = [] ∧
    ∀ c, s.tasksToSchedule.lookup c = none ∨ s.infeasibleTasks.lookup c = none
  synced : b.tracked → s.Orderly → Synced b w e s.queues s.dependencies
  awaited : s.MovesApart → s.queues.Awaits b s.closed

def Check.OfDependencies (e : Check) : Prop :=
  e = .dependenciesRequestedTwice ∨ e = .dependenciesNotQueued ∨ e = .dependencyNotRequired

instance (e : Check) : Decidable e.OfDependencies := inferInstanceAs (Decidable (_ ∨ _))

/-- A call that is stopped has not answered a work twice. -/
def Stops (tracked : Prop) (e : Check) (s : State ρ) : Prop :=
  (tracked → s.Orderly → ¬ e.OfDependencies) ∧ (s.MovesApart → ∀ x, (s.works x).replies.length ≤ 1)

variable {b : Roster} {w : WorkID} {d d' e e' : Int} {s t : State ρ} {q : Queues} {m' : DependencyManager}

/-- Only the queues, the answers and the statuses of works differ, and no class gets a queue. -/
structure Refiled (s t : State ρ) : Prop where
  task : ∀ x, (t.works x).task = (s.works x).task
  numWorks : t.numWorks = s.numWorks
  dependencies : t.dependencies = s.dependencies
  dispatchMoves : t.dispatchMoves = s.dispatchMoves
  runtimeEnvFailures : t.runtimeEnvFailures = s.runtimeEnvFailures
  overwritten : t.overwritten = s.overwritten
  schedule : ∀ c, s.tasksToSchedule.lookup c = none → t.tasksToSchedule.lookup c = none
  infeasible : ∀ c, s.infeasibleTasks.lookup c = none → t.infeasibleTasks.lookup c = none

lemma Refiled.refl (s : State ρ) : Refiled s s :=
  ⟨fun _ => rfl, rfl, rfl, rfl, rfl, rfl, fun _ hc => hc, fun _ hc => hc⟩

lemma Refiled.orderly (h : Refiled s t) (ht : t.Orderly) : s.Orderly := by
  unfold State.Orderly at ht ⊢
  rwa [h.dispatchMoves, h.runtimeEnvFailures] at ht

lemma Refiled.movesApart (h : Refiled s t) (ht : t.MovesApart) : s.MovesApart := by
  unfold State.MovesApart at ht ⊢
  rwa [h.dispatchMoves] at ht

lemma Books.refile (h : Books b w d e s) (hr : Refiled s t)
    (htally : ∀ x, (t.queues.places x + t.closed x : Int) + (if x = w then d else 0) =
      s.queues.places x + s.closed x + if x = w then d' else 0)
    (hheld : ∀ x, (t.queues.held x : Int) + (if x = w then e else 0) = s.queues.held x + if x = w then e' else 0)
    (hindex : ∀ id x, t.waitingTasksIndex.lookup id = some x →
      x ∈ t.waitingTaskQueue ∧ (b.task x).taskId = id)
    (hawaited : t.MovesApart → s.queues.Awaits b s.closed → t.queues.Awaits b t.closed) : Books b w d' e' t where
  task x := (hr.task x).trans (h.task x)
  numWorks := hr.numWorks.trans h.numWorks
  tally x := by
    have h₁ := h.tally x
    have h₂ := htally x
    omega
  index := hindex
  apart ht := by
    obtain ⟨hover, hkeys⟩ := h.apart (hr.movesApart ht)
    exact ⟨hr.overwritten.trans hover, fun c => (hkeys c).imp (hr.schedule c) (hr.infeasible c)⟩
  synced htr ho := by
    obtain ⟨hl, hh, hown⟩ := h.synced htr (hr.orderly ho)
    rw [← hr.dependencies] at hl hh hown
    refine ⟨hl, fun x hx hd => ?_, hown⟩
    have h₁ := hh x hx hd
    have h₂ := hheld x
    omega
  awaited ht := hawaited ht (h.awaited (hr.movesApart ht))

/-- Nothing differs that the accounts speak of. -/
structure Silent (s t : State ρ) : Prop where
  queues : t.queues = s.queues
  task : ∀ x, (t.works x).task = (s.works x).task
  replies : ∀ x, (t.works x).replies = (s.works x).replies
  numWorks : t.numWorks = s.numWorks
  dependencies : t.dependencies = s.dependencies
  ownerDead : t.ownerDead = s.ownerDead
  overwritten : t.overwritten = s.overwritten
  dispatchMoves : t.dispatchMoves = s.dispatchMoves
  runtimeEnvFailures : t.runtimeEnvFailures = s.runtimeEnvFailures

instance : IsPreorder (State ρ) Silent where
  refl _ := ⟨rfl, fun _ => rfl, fun _ => rfl, rfl, rfl, rfl, rfl, rfl, rfl⟩
  trans _ _ _ h₁ h₂ := ⟨h₂.queues.trans h₁.queues, fun x => (h₂.task x).trans (h₁.task x),
    fun x => (h₂.replies x).trans (h₁.replies x), h₂.numWorks.trans h₁.numWorks,
    h₂.dependencies.trans h₁.dependencies, h₂.ownerDead.trans h₁.ownerDead,
    h₂.overwritten.trans h₁.overwritten, h₂.dispatchMoves.trans h₁.dispatchMoves,
    h₂.runtimeEnvFailures.trans h₁.runtimeEnvFailures⟩

lemma Silent.refiled (h : Silent s t) : Refiled s t where
  task := h.task
  numWorks := h.numWorks
  dependencies := h.dependencies
  dispatchMoves := h.dispatchMoves
  runtimeEnvFailures := h.runtimeEnvFailures
  overwritten := h.overwritten
  schedule c hc := (congrArg (fun q : Queues => q.schedule.lookup c) h.queues).trans hc
  infeasible c hc := (congrArg (fun q : Queues => q.infeasible.lookup c) h.queues).trans hc

lemma Silent.books (h : Silent s t) (hs : Books b w d e s) : Books b w d e t := by
  have hclosed : t.closed = s.closed := by
    funext x
    rw [State.closed, State.closed, h.replies, h.ownerDead, h.overwritten]
  refine hs.refile h.refiled (fun x => ?_) (fun x => ?_) (fun id x hid => ?_) fun _ ha => by rwa [h.queues, hclosed]
  · rw [h.queues, hclosed]
  · rw [h.queues]
  · have hidx : t.waitingTasksIndex = s.waitingTasksIndex := congrArg Queues.index h.queues
    have hwait : t.waitingTaskQueue = s.waitingTaskQueue := congrArg Queues.waiting h.queues
    rw [hwait]
    exact hs.index id x (hidx ▸ hid)

/-- The books while a call works on `w`. Where all moves were apart, `K` is known, and `w` is owed no more than it is in
places. -/
structure At (K : Prop) (q : Queues) (b : Roster) (w : WorkID) (d e : Int) (s : State ρ) : Prop where
  books : Books b w d e s
  queues : s.queues = q
  apart : s.MovesApart → K ∧ d ≤ q.places w

lemma Books.replies (h : Books b w d e s) (hd : d ≤ s.queues.places w) (x : WorkID) : (s.works x).replies.length ≤ 1 := by
  have htally := h.tally x
  unfold State.closed at htally
  by_cases hx : x = w
  · subst hx
    rw [if_pos rfl] at htally
    split at htally <;> omega
  · rw [if_neg hx] at htally
    split at htally <;> omega

lemma Books.stops (h : Books b w d e s) (hd : s.MovesApart → d ≤ s.queues.places w) {err : Check}
    (herr : b.tracked → s.Orderly → ¬ err.OfDependencies) : Stops b.tracked err s :=
  ⟨herr, fun hm => h.replies (hd hm)⟩

lemma At.stops {K : Prop} (h : At K q b w d e s) {err : Check} (herr : b.tracked → s.Orderly → ¬ err.OfDependencies) :
    Stops b.tracked err s := h.books.stops (fun hm => h.queues.symm ▸ (h.apart hm).2) herr

/-- Also a program that is stopped leaves the accounts as they are. -/
def Unnoticed {α : Type} (x : ManagerM ρ α) : Prop :=
  ∀ s, Triple (· = s) x (fun _ t => Silent s t) fun e t => Silent s t ∧ ¬ e.OfDependencies

lemma Unnoticed.triple {α : Type} {x : ManagerM ρ α} {K : Prop} (h : Unnoticed x) :
    Triple (At K q b w d e) x (fun _ => At K q b w d e) (Stops b.tracked) := by
  have hkeep : ∀ {s t : State ρ}, At K q b w d e s → Silent s t → At K q b w d e t := fun hs ht =>
    ⟨ht.books hs.books, ht.queues.trans hs.queues, fun hm => hs.apart (ht.refiled.movesApart hm)⟩
  exact .each fun s hs => (h s).conseq (fun _ ht => ht) (fun _ _ ht => hkeep hs ht)
    fun _ _ ht => (hkeep hs ht.1).stops fun _ _ => ht.2

lemma Books.free (h : Books b w d e s) (hd : (b.task w).dependencies = []) : Books b w d e' s := { h with
    synced := fun htr ho => by
      obtain ⟨hl, hh, hown⟩ := h.synced htr ho
      refine ⟨hl, fun x hx hdx => ?_, hown⟩
      have hne : x ≠ w := fun heq => hdx (heq ▸ hd)
      rw [hh x hx hdx, if_neg hne, if_neg hne] }

lemma Books.zero (h : Books b w 0 0 s) (x : WorkID) : Books b x 0 0 s := { h with
    tally := fun y => by simpa using h.tally y
    synced := fun htr ho =>
      { h.synced htr ho with held := fun y hy hd => by simpa using (h.synced htr ho).held y hy hd } }

lemma Books.registered (h : Books b w d e s) (htr : b.tracked) (ho : s.Orderly)
    (hw : w < b.numWorks) (hd : (b.task w).dependencies ≠ []) (he : e < s.queues.held w) :
    s.dependencies.Registered (b.task w).taskId := by
  have hh := (h.synced htr ho).held w hw hd
  by_contra hn
  rw [if_neg hn, if_pos rfl] at hh
  omega

lemma Books.redepend (h : Books b w d e s) (hm : b.tracked → s.Orderly → Synced b w e' s.queues m) :
    Books b w d e' { s with dependencies := m } where
  task := h.task
  numWorks := h.numWorks
  tally := h.tally
  index := h.index
  apart := h.apart
  synced := hm
  awaited := h.awaited

lemma At.untracked {K : Prop} (h : At K q b w d e s) (hc : ¬(b.tracked ∧ s.Orderly)) (m : DependencyManager) :
    At K q b w d e' { s with dependencies := m } :=
  ⟨h.books.redepend fun htr ho => absurd ⟨htr, ho⟩ hc, h.queues, h.apart⟩

/-- Only the task of `w` is registered or removed. -/
lemma Synced.change (h : Synced b w e s.queues m) (htr : b.tracked) (hw : w < b.numWorks)
    (hd : (b.task w).dependencies ≠ []) (hl : m'.Tracked)
    (hm : ∀ id, id ≠ (b.task w).taskId → (m'.Registered id ↔ m.Registered id))
    (he : (if m'.Registered (b.task w).taskId then 1 else 0) + e' =
      (if m.Registered (b.task w).taskId then 1 else 0) + e) : Synced b w e' s.queues m' := by
  refine ⟨hl, fun x hx hdx => ?_, fun id hid => ?_⟩
  · rw [h.held x hx hdx]
    by_cases hxw : x = w
    · rw [hxw, if_pos rfl, if_pos rfl, he]
    · have hne : (b.task x).taskId ≠ (b.task w).taskId := fun heq => hxw (b.distinct htr x hx w hw heq)
      simp only [if_neg hxw, hm _ hne]
  · by_cases hw' : id = (b.task w).taskId
    · exact ⟨w, hw, hd, hw'.symm⟩
    · exact h.owned id ((hm id hw').mp hid)

def State.requeue (s : State ρ) (q : Queues) : State ρ :=
  { s with
    tasksToSchedule := q.schedule
    tasksToDispatch := q.dispatch
    infeasibleTasks := q.infeasible
    waitingTaskQueue := q.waiting
    waitingTasksIndex := q.index
    popRequests := q.popRequests
    works := fun x => { s.works x with status := q.status x } }

lemma At.requeue {K : Prop} {q' : Queues} (h : At K q b w d e s)
    (hplaces : ∀ x, (q'.places x : Int) + (if x = w then d else 0) = q.places x + if x = w then d' else 0)
    (hheld : ∀ x, (q'.held x : Int) + (if x = w then e else 0) = q.held x + if x = w then e' else 0)
    (hindex : ∀ id x, q'.index.lookup id = some x → x ∈ q'.waiting ∧ (b.task x).taskId = id)
    (hschedule : ∀ c, q.schedule.lookup c = none → q'.schedule.lookup c = none)
    (hinfeasible : ∀ c, q.infeasible.lookup c = none → q'.infeasible.lookup c = none)
    (hawaited : K → q.Awaits b s.closed → q'.Awaits b s.closed) : At K q' b w d' e' (s.requeue q') := by
  obtain ⟨h, rfl, hapart⟩ := h
  refine ⟨h.refile ⟨fun _ => rfl, rfl, rfl, rfl, rfl, rfl, hschedule, hinfeasible⟩ (fun x => ?_) hheld hindex
    fun hm ha => hawaited (hapart hm).1 ha, rfl, fun hm => ⟨(hapart hm).1, ?_⟩⟩
  · have hp := hplaces x
    have hclosed : (s.requeue q').closed x = s.closed x := rfl
    have hqueues : (s.requeue q').queues = q' := rfl
    rw [hclosed, hqueues]
    omega
  · have hp := hplaces w
    have hle := (hapart hm).2
    rw [if_pos rfl, if_pos rfl] at hp
    omega

lemma At.index {K : Prop} (h : At K q b w d e s) :
    ∀ id x, q.index.lookup id = some x → x ∈ q.waiting ∧ (b.task x).taskId = id := by
  obtain ⟨h, rfl, -⟩ := h
  exact h.index

end AmazonRay.Raylet
