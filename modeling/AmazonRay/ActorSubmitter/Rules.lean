import AmazonRay.ActorSubmitter.Submitter

/-! Rules for the programs of the submitter. How a run is stopped does not matter here. -/
namespace AmazonRay.ActorSubmitter
open Program TaskManager

variable {P : System → Prop} {actor : ActorID} {q : ClientQueue}

abbrev Keeps (P : System → Prop) {α : Type} (x : SubmitM α) : Prop :=
  Triple P x (fun _ => P) fun _ _ => True

def System.queue (s : System) (actor : ActorID) : Option ClientQueue :=
  s.submitter.clientQueues.lookup actor

def System.withQueue (s : System) (actor : ActorID) (q : ClientQueue) : System :=
  { s with submitter := { s.submitter with clientQueues := s.submitter.clientQueues.insert actor q } }

variable {Q : Unit → System → Prop}

lemma System.queue_withQueue (s : System) (actor x : ActorID) (q : ClientQueue) :
    (s.withQueue actor q).queue x = if x = actor then some q else s.queue x :=
  Table.lookup_insert _ _ _ _

lemma System.withQueue_withQueue (s : System) (actor : ActorID) (q q' : ClientQueue) :
    (s.withQueue actor q).withQueue actor q' = s.withQueue actor q' := by
  simp [System.withQueue]

lemma ClientQueue.lookup_push (q : ClientQueue) (id : TaskID) (callback : Callback) (n : Nat)
    (x : TaskID) : (q.push id callback n).inflightTaskCallbacks.lookup x =
      if x = id then some ((q.inflightTaskCallbacks.lookup id).getD callback)
      else q.inflightTaskCallbacks.lookup x := by
  unfold ClientQueue.push
  cases hid : q.inflightTaskCallbacks.lookup id with
  | some old =>
    show q.inflightTaskCallbacks.lookup x = _
    split
    case isTrue hx => rw [hx, hid, Option.getD_some]
    · rfl
  | none => exact Table.lookup_insert _ _ _ _

lemma triple_findQueue : Partly P (findQueue actor) fun q s => P s ∧ s.queue actor = some q := by
  refine .read fun s hs => ?_
  cases hq : s.submitter.clientQueues.lookup actor with
  | none => exact .throw fun _ _ => trivial
  | some q =>
    apply Triple.done
    exact ⟨hs, hq⟩

lemma onQueue {α : Type} {g : ClientQueue → SubmitM α} {Q : α → System → Prop}
    (h : ∀ q, Partly (fun s => P s ∧ s.queue actor = some q) (g q) Q) : Partly P (findQueue actor >>= g) Q :=
  .bind triple_findQueue h

lemma triple_putQueue (h : ∀ s, P s → Q () (s.withQueue actor q)) : Partly P (putQueue actor q) Q := .update h

lemma triple_modifySubmitter {f : Submitter → Submitter} (h : ∀ s, P s → Q () { s with submitter := f s.submitter }) :
    Partly P (modifySubmitter f) Q := .update h

lemma triple_taskManager {α : Type} {Q : α → System → Prop} {x : WorkerM α} {V : Submissions → α → Submissions → Prop}
    (hx : ∀ before v, Partly (fun s => s.lineage.Shows before v) x
      (fun a s => ∃ v', V v a v' ∧ s.lineage.Shows before v'))
    (h : ∀ s, P s → ∀ a v' (w : Worker), V s.worker.lineage.submissions a v' →
      w.lineage.Shows s.worker.lineage.outputs v' → Q a { s with worker := w }) :
    Partly P (taskManager x) Q := by
  refine .within fun s hs => ?_
  refine (hx s.worker.lineage.outputs s.worker.lineage.submissions).conseq ?_ ?_ fun _ _ _ => trivial
  · rintro _ rfl
    exact Tasks.shows_submissions _
  · rintro a w ⟨v', hv, hw⟩
    exact h s hs a v' w hv hw

lemma triple_turns {α : Type} {Q : α → System → Prop} {x : WorkerM α}
    {f : Submissions → Submissions} (hx : ∀ before v, Turns before v x fun _ => f v)
    (h : ∀ s, P s → ∀ a (w : Worker), w.lineage.Shows s.worker.lineage.outputs (f s.worker.lineage.submissions) →
      Q a { s with worker := w }) : Partly P (taskManager x) Q :=
  triple_taskManager (fun before v => (hx before v).post fun _ _ hs => ⟨_, rfl, hs⟩)
    fun s hs a _ w hv hw => h s hs a w (hv ▸ hw)

end AmazonRay.ActorSubmitter
