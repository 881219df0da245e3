import AmazonRay.WorkerPool.Pool

/-! The changes that the longer programs of the pool are made of: a property that composes and holds of them holds of
the programs. -/
namespace AmazonRay.WorkerPool
open Program Pool

/-- A property that composes and does not depend on what is read or checked. -/
structure Elementary (K : (α : Type) → PoolM α → Prop) : Prop extends Composes K where
  get : K Pool get
  check : ∀ (e : Check) (c : Prop) [Decidable c], K Unit (check e c)

namespace Elementary

variable {K : (α : Type) → PoolM α → Prop} {config : Config}

section

variable (h : Elementary K)
include h

lemma startIOWorkers {type : IOType} (hstart : K _ (startWorkerProcess config .python (.io type) 0 false)) (n : ℕ) :
    K Unit (startIOWorkers config type n) := by
  induction n with
  | zero => exact h.pure ()
  | succ n ih =>
    apply h.bind hstart
    intro result
    cases result with
    | error status => exact h.pure ()
    | ok proc => exact ih

section

variable (hstart : ∀ type, K _ (startWorkerProcess config .python (.io type) 0 false)) (language : Language)
include hstart

lemma tryStartIOWorkersOf (type : IOType) : K Unit (tryStartIOWorkersOf config language type) := by
  apply h.onlyIf
  intro _
  apply h.seq (h.check _ _)
  apply h.bind h.get
  intro p
  exact h.onlyIf fun _ => h.startIOWorkers (hstart type) _

lemma tryStartIOWorkers : K Unit (tryStartIOWorkers config language) :=
  h.seq (h.tryStartIOWorkersOf hstart language .restore) (h.tryStartIOWorkersOf hstart language .spill)

end

variable (hstart : ∀ language jobId, K _ (startWorkerProcess config language .worker jobId false))
include hstart

lemma startWorkerProcesses (language : Language)
    (jobId : JobID) (n : ℕ) : K Unit (startWorkerProcesses config language jobId n) := by
  induction n with
  | zero => exact h.pure ()
  | succ n ih => exact h.seq (h.seq (hstart language jobId) (h.pure ())) ih

lemma prestartWorkers (spec : TaskSpec)
    (backlogSize cpus : ℤ) : K Unit (prestartWorkers config spec backlogSize cpus) := by
  apply h.onlyIf
  intro _
  apply h.seq (h.check _ _)
  exact h.bind h.get fun p => h.startWorkerProcesses hstart _ _ _

end

section

variable (h : Elementary K) (hio : ∀ type f, K PUnit (modify (modifyIoState .python type f)))
  (hserve : ∀ callback w, K Unit (serveIoTask callback w))
include h hio hserve

lemma pushIOWorkerInternal (w : Worker) (type : IOType) : K Unit (pushIOWorkerInternal config w type) := by
  apply h.seq (h.check _ _)
  apply h.seq (h.check _ _)
  apply h.bind h.get
  intro p
  split
  · exact hio _ _
  · exact h.seq (hio _ _) (hserve _ _)

lemma pushDeleteWorker (w : Worker) : K Unit (pushDeleteWorker config w) := by
  apply h.seq (h.check _ _)
  apply h.ite
  · intro _
    exact h.pushIOWorkerInternal hio hserve w .restore
  · intro _
    exact h.pushIOWorkerInternal hio hserve w .spill

lemma popIOWorkerInternal (hstart : ∀ type, K _ (startWorkerProcess config .python (.io type) 0 false))
    (type : IOType) (callback : CallbackID) : K Unit (popIOWorkerInternal config type callback) := by
  apply h.seq (h.check _ _)
  apply h.bind h.get
  intro p
  split
  · exact h.seq (hio _ _) (h.tryStartIOWorkersOf hstart _ _)
  · exact h.seq (hio _ _) (hserve _ _)

end

lemma popDeleteWorker (h : Elementary K) (hpop : ∀ type callback, K Unit (Pool.popIOWorkerInternal config type callback))
    (callback : CallbackID) : K Unit (popDeleteWorker config callback) := by
  apply h.seq (h.check _ _)
  apply h.bind h.get
  intro p
  exact h.ite (fun _ => hpop .spill callback) fun _ => hpop .restore callback

/-- The loop only touches the idle workers of each language, the times and the exit requests. -/
def KeepsBooks (K : (α : Type) → PoolM α → Prop) : Prop :=
  ∀ f : Pool → Pool, (∀ p, ∃ idle map pending exits, f p = { p with
    idle := idle, idleOfAllLanguagesMap := map, pendingExitIdleWorkers := pending, exitRequests := exits }) →
      K PUnit (modify f)

variable (h : Elementary K) (hbooks : KeepsBooks K) (now : ℤ) (language : Language)
include h hbooks

lemma canBeKilled (workers : List Worker) : K Bool (canBeKilled config now language workers) := by
  induction workers with
  | nil => exact h.pure _
  | cons w workers ih =>
    have hsince : K ℤ (idleSince w) := by
      apply h.bind h.get
      intro p
      split
      · exact h.pure _
      · exact h.seq (hbooks _ fun p => ⟨_, _, _, _, rfl⟩) (h.pure _)
    apply h.bind h.get
    intro p
    apply h.ite fun _ => h.pure _
    intro _
    exact h.bind hsince fun time => h.ite (fun _ => h.pure _) fun _ => ih

lemma exitWorker (runningSize : ℕ) (w : Worker) : K ℕ (exitWorker language runningSize w) := by
  apply h.bind h.get
  intro p
  apply h.ite
  · intro _
    exact h.seq (hbooks _ fun p => ⟨_, _, _, _, rfl⟩) (h.pure _)
  · intro _
    apply h.bind (hbooks _ fun p => ⟨_, _, _, _, rfl⟩)
    intro _
    apply h.seq (h.check _ _)
    apply h.seq (h.check _ _)
    exact h.seq (hbooks _ fun p => ⟨_, _, _, _, rfl⟩) (h.pure _)

lemma killProcess (w : Worker) (runningSize : ℕ) : K (Option ℕ) (killProcess config now w runningSize) := by
  apply h.bind h.get
  intro p
  apply h.bind (h.canBeKilled hbooks now _ _)
  intro killed
  refine h.ite (fun _ => ?_) fun _ => h.pure _
  apply h.seq (h.check _ _)
  apply h.ite fun _ => h.pure _
  intro _
  exact h.bind (h.foldlM (h.exitWorker hbooks _) _ _) fun _ => h.pure _

lemma killIdleWorkers (workers : List (Worker × ℤ)) (runningSize : ℕ) :
    K Bool (killIdleWorkers config now workers runningSize) := by
  induction workers generalizing runningSize with
  | nil => exact h.pure _
  | cons e workers ih =>
    apply h.bind h.get
    intro p
    apply h.ite fun _ => h.pure _
    intro _
    apply h.ite fun _ => ih _
    intro _
    apply h.ite fun _ => h.pure _
    intro _
    apply h.ite fun _ => ih _
    intro _
    apply h.seq (h.check _ _)
    apply h.ite fun _ => ih _
    intro _
    apply h.bind (h.killProcess hbooks now e.1 runningSize)
    intro left
    cases left with
    | none => exact h.pure _
    | some left => exact ih left

end Elementary

variable {V α : Type} {view : Pool → V}

/-- The program leaves a part of the pool as it is; any check may stop it. -/
def Leaves (view : Pool → V) (x : PoolM α) : Prop :=
  ∀ v, Triple (fun p => view p = v) x (fun _ p => view p = v) fun _ _ => True

lemma leaves_elementary (view : Pool → V) : Elementary fun _ x => Leaves view x where
  pure _ _ := .pure fun _ h => h
  bind hx hf v := .bind (hx v) fun a => hf a v
  get _ := .get fun _ h => h
  check _ _ _ _ := .tested fun _ _ => trivial

lemma leaves_update {f : Pool → Pool} (hf : ∀ p, view (f p) = view p) : Leaves view (modify f) :=
  fun _ => .update fun p h => (hf p).trans h

lemma Leaves.keeps {x : PoolM α} (hx : Leaves view x) (I : V → Prop) :
    Partly (fun p => I (view p)) x fun _ p => I (view p) := by
  refine .each fun p h => (hx (view p)).conseq ?_ (fun _ t ht => ?_) fun _ _ _ => trivial
  · intro t ht
    rw [ht]
  · rw [ht]
    exact h

end AmazonRay.WorkerPool
