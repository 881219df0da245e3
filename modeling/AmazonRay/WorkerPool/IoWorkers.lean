import AmazonRay.WorkerPool.PopRequests

/-! The I/O workers: how many are starting, which are registered and idle, and the tasks that wait. -/
namespace AmazonRay.WorkerPool
open Program Families List Table

structure IoPart where
  io : Language → IOType → IOWorkerState
  starting : Language → AList fun _ : StartupToken => StartingWorkerProcessInfo
  counter : StartupToken
  registered : Language → List Worker
  given : List (CallbackID × Worker)

def Pool.ioPart (p : Pool) : IoPart :=
  ⟨p.io, p.startingWorkerProcesses, p.workerStartupTokenCounter, p.registeredWorkers, p.ioLog⟩

/-- One type of I/O workers, with the connected workers and the number of processes that should be counted as starting.
-/
structure Kept (config : Config) (type : IOType) (registered : List Worker) (processes : ℤ) (s : IOWorkerState) : Prop where
  count : s.numStartingIoWorkers = processes
  bound : s.numStartingIoWorkers + s.registeredIoWorkers.length ≤ config.maxIoWorkers
  connected : ∀ w ∈ s.registeredIoWorkers, w ∈ registered
  typed : ∀ w ∈ s.registeredIoWorkers, w.workerType = .io type
  idle : ∀ w ∈ s.idleIoWorkers, w ∈ s.registeredIoWorkers
  queues : s.pendingIoTasks = [] ∨ s.idleIoWorkers = []

section

variable {config : Config} {type : IOType} {registered : List Worker} {n : ℤ} {s : IOWorkerState} {w : Worker}

variable {language : Language} {token : StartupToken} {info : StartingWorkerProcessInfo}

variable (h : Kept config type registered n s)
include h

lemma Kept.start (hroom : s.numStartingIoWorkers + s.registeredIoWorkers.length < config.maxIoWorkers) :
    Kept config type registered (n + 1) { s with numStartingIoWorkers := s.numStartingIoWorkers + 1 } := by
  refine ⟨?_, ?_, h.connected, h.typed, h.idle, h.queues⟩
  · have hcount := h.count
    dsimp only
    omega
  · dsimp only
    omega

lemma Kept.drop :
    Kept config type registered (n + -1) { s with numStartingIoWorkers := s.numStartingIoWorkers - 1 } := by
  have hbound := h.bound
  refine ⟨?_, ?_, h.connected, h.typed, h.idle, h.queues⟩
  · have hcount := h.count
    dsimp only
    omega
  · dsimp only
    omega

lemma Kept.register (hw : w ∈ registered) (htype : w.workerType = .io type) :
    Kept config type registered (n + -1) { s with
      registeredIoWorkers := s.registeredIoWorkers.insert w
      numStartingIoWorkers := s.numStartingIoWorkers - 1 } := by
  have hbound := h.bound
  have hlength : (s.registeredIoWorkers.insert w).length ≤ s.registeredIoWorkers.length + 1 := by
    rw [length_insert]
    split <;> omega
  refine ⟨?_, ?_, fun x hx => ?_, fun x hx => ?_, fun x hx => mem_insert_of_mem (h.idle x hx), h.queues⟩
  · have hcount := h.count
    dsimp only
    omega
  · dsimp only
    omega
  · rcases mem_insert_iff.mp hx with rfl | hx
    · exact hw
    · exact h.connected x hx
  · rcases mem_insert_iff.mp hx with rfl | hx
    · exact htype
    · exact h.typed x hx

lemma Kept.queue {idle : List Worker} {pending : List CallbackID}
    (hidle : ∀ w ∈ idle, w ∈ s.registeredIoWorkers) (hqueues : pending = [] ∨ idle = []) :
    Kept config type registered n { s with idleIoWorkers := idle, pendingIoTasks := pending } :=
  ⟨h.count, h.bound, h.connected, h.typed, hidle, hqueues⟩

lemma Kept.mono {registered' : List Worker}
    (hsub : ∀ w ∈ s.registeredIoWorkers, w ∈ registered → w ∈ registered') : Kept config type registered' n s :=
  ⟨h.count, h.bound, fun w hw => hsub w hw (h.connected w hw), h.typed, h.idle, h.queues⟩

end

def ofType (type : IOType) (info : StartingWorkerProcessInfo) : ℕ := if info.workerType = .io type then 1 else 0

namespace IoPart

def processes (v : IoPart) (type : IOType) : ℕ := Table.total (fun _ => ofType type) (v.starting .python)

/-- The counts of the I/O workers, with `extra` ones that have no process. -/
structure Counted (config : Config) (extra : IOType → ℤ) (v : IoPart) : Prop where
  fresh : ∀ l token info, (v.starting l).lookup token = some info → token < v.counter
  single : ∀ l token info type, (v.starting l).lookup token = some info → info.workerType = .io type →
    l = .python ∧ info.numStartingWorkers = 1
  kept : ∀ type, Kept config type (v.registered .python) (v.processes type + extra type) (v.io .python type)
  given : ∀ e ∈ v.given, ∀ type, e.2.workerType = .io type → e.2 ∈ (v.io .python type).registeredIoWorkers

variable {config : Config} {extra : IOType → ℤ} {v : IoPart}

lemma Counted.congr {extra' : IOType → ℤ} (h : Counted config extra v) (hextra : ∀ type, extra type = extra' type) :
    Counted config extra' v := by
  obtain rfl : extra = extra' := funext hextra
  exact h

lemma Counted.modify (h : Counted config extra v) (type : IOType) {f : IOWorkerState → IOWorkerState} {d : ℤ}
    (hf : ∀ n, Kept config type (v.registered .python) n (v.io .python type) →
      Kept config type (v.registered .python) (n + d) (f (v.io .python type)))
    (hmem : ∀ w ∈ (v.io .python type).registeredIoWorkers, w ∈ (f (v.io .python type)).registeredIoWorkers) :
    Counted config (fun t => extra t + if t = type then d else 0) { v with io := adjust .python (adjust type f) v.io } := by
  have hstate (t : IOType) : adjust .python (adjust type f) v.io .python t =
      if t = type then f (v.io .python t) else v.io .python t := by rw [adjust_self, adjust_apply]
  refine ⟨h.fresh, h.single, fun t => ?_, fun e he t hio => ?_⟩
  · dsimp only
    rw [hstate, ← add_assoc]
    by_cases ht : t = type
    · subst ht
      rw [if_pos rfl, if_pos rfl]
      exact hf _ (h.kept t)
    · rw [if_neg ht, if_neg ht, add_zero]
      exact h.kept t
  · dsimp only
    rw [hstate]
    by_cases ht : t = type
    · subst ht
      rw [if_pos rfl]
      exact hmem _ (h.given e he t hio)
    · rw [if_neg ht]
      exact h.given e he t hio

lemma processes_start (hnone : (v.starting .python).lookup v.counter = none) (language : Language)
    (info : StartingWorkerProcessInfo) (type : IOType) (counter : StartupToken)
    (hlanguage : info.workerType = .io type → language = .python) :
    processes { v with starting := adjust language (·.insert v.counter info) v.starting, counter := counter } type =
      v.processes type + ofType type info := by
  unfold processes
  dsimp only
  by_cases hl : language = .python
  · subst hl
    rw [adjust_self, total_insert, total_erase_of_lookup_none hnone, add_comm]
  · have hzero : ofType type info = 0 := if_neg fun htype => hl (hlanguage htype)
    rw [adjust_of_ne _ _ _ (Ne.symm hl), hzero, add_zero]

variable (h : Counted config extra v)
include h

lemma Counted.start (language : Language) (info : StartingWorkerProcessInfo)
    (hinfo : ∀ type, info.workerType = .io type → language = .python ∧ info.numStartingWorkers = 1) :
    Counted config (fun type => extra type - ofType type info) { v with
      starting := adjust language (·.insert v.counter info) v.starting
      counter := v.counter + 1 } := by
  have hnone (l : Language) : (v.starting l).lookup v.counter = none := by
    rw [Option.eq_none_iff_forall_ne_some]
    intro x hx
    exact lt_irrefl _ (h.fresh l _ x hx)
  refine ⟨fun l token x hx => ?_, fun l token x type hx htype => ?_, fun type => ?_, h.given⟩
  · rcases lookup_of_adjust_insert hx with ⟨-, rfl, -⟩ | hx
    · exact Nat.lt_succ_self _
    · exact Nat.lt_succ_of_lt (h.fresh l token x hx)
  · rcases lookup_of_adjust_insert hx with ⟨rfl, -, rfl⟩ | hx
    · exact hinfo type htype
    · exact h.single l token x type hx htype
  · rw [processes_start (hnone .python) language info type _ fun htype => (hinfo type htype).1]
    have hkept := h.kept type
    rwa [show ((v.processes type + ofType type info : ℕ) : ℤ) + (extra type - ofType type info) =
      v.processes type + extra type by push_cast; omega]

lemma Counted.finish (hinfo : (v.starting language).lookup token = some info) :
    Counted config (fun type => extra type + ofType type info) { v with
      starting := adjust language (·.erase token) v.starting } := by
  refine ⟨fun l t x hx => h.fresh l t x (lookup_of_adjust_erase hx),
    fun l t x type hx => h.single l t x type (lookup_of_adjust_erase hx), fun type => ?_, h.given⟩
  have hprocesses : v.processes type =
      processes { v with starting := adjust language (·.erase token) v.starting } type + ofType type info := by
    unfold processes
    dsimp only
    by_cases hl : language = .python
    · subst hl
      rw [adjust_self, total_of_lookup hinfo, add_comm]
    · have hzero : ofType type info = 0 := if_neg fun htype => hl (h.single language token info type hinfo htype).1
      rw [adjust_of_ne _ _ _ (Ne.symm hl), hzero, add_zero]
  have hkept := h.kept type
  rw [hprocesses] at hkept
  rwa [show ((processes { v with starting := adjust language (·.erase token) v.starting } type : ℕ) : ℤ) +
    (extra type + ofType type info) = (processes { v with starting := adjust language (·.erase token) v.starting } type +
      ofType type info : ℕ) + extra type by push_cast; omega]

lemma Counted.countDown (hinfo : (v.starting language).lookup token = some info)
    (htype : info.workerType = .worker) (n : ℤ) : Counted config extra { v with
      starting := adjust language (·.insert token { info with numStartingWorkers := n }) v.starting } := by
  refine ⟨fun l t x hx => ?_, fun l t x type hx hio => ?_, fun type => ?_, h.given⟩
  · rcases lookup_of_adjust_insert hx with ⟨rfl, rfl, -⟩ | hx
    · exact h.fresh l t info hinfo
    · exact h.fresh l t x hx
  · rcases lookup_of_adjust_insert hx with ⟨-, -, rfl⟩ | hx
    · rw [show _ = WorkerType.worker from htype] at hio
      cases hio
    · exact h.single l t x type hx hio
  · have hprocesses : processes { v with
        starting := adjust language (·.insert token { info with numStartingWorkers := n }) v.starting } type =
          v.processes type := by
      unfold processes
      dsimp only
      by_cases hl : language = .python
      · subst hl
        rw [adjust_self, total_insert, total_of_lookup hinfo]
        rfl
      · rw [adjust_of_ne _ _ _ (Ne.symm hl)]
    rw [hprocesses]
    exact h.kept type

lemma Counted.connect {registered : Language → List Worker}
    (hsub : ∀ type, ∀ w ∈ (v.io .python type).registeredIoWorkers, w ∈ v.registered .python → w ∈ registered .python) :
    Counted config extra { v with registered := registered } :=
  ⟨h.fresh, h.single, fun type => (h.kept type).mono (hsub type), h.given⟩

lemma Counted.give {type : IOType} {w : Worker} (hw : w ∈ (v.io .python type).registeredIoWorkers) (c : CallbackID) :
    Counted config extra { v with given := (c, w) :: v.given } := by
  refine ⟨h.fresh, h.single, h.kept, fun e he t ht => ?_⟩
  rcases mem_cons.mp he with rfl | he
  · obtain rfl : type = t := WorkerType.io.inj (((h.kept type).typed w hw).symm.trans ht)
    exact hw
  · exact h.given e he t ht

end IoPart

namespace Pool
open IoPart

variable {config : Config} {extra : IOType → ℤ} {registered : Language → List Worker} {p : Pool} {w : Worker} (type : IOType) (now : ℤ) (answers : CallbackID → Bool) (spec : TaskSpec) (callback : CallbackID)

def CountedIn (config : Config) (extra : IOType → ℤ) (registered : Language → List Worker) (p : Pool) : Prop :=
  Counted config extra p.ioPart ∧ p.registeredWorkers = registered

/-- The program keeps the counts of the I/O workers; any check may stop it. -/
def Counting {α : Type} (config : Config) (x : PoolM α) : Prop :=
  ∀ extra registered, Triple (CountedIn config extra registered) x (fun _ => CountedIn config extra registered)
    fun _ _ => True

lemma counting_composes : Composes fun _ x => Counting config x where
  pure _ extra registered := .pure fun _ h => h
  bind hx hf extra registered := .bind (hx extra registered) fun a => hf a extra registered

def Still {α : Type} (x : PoolM α) : Prop := Leaves Pool.ioPart x

lemma still_elementary : Elementary fun _ x => Still x := leaves_elementary Pool.ioPart

lemma still_update {f : Pool → Pool} (hf : ∀ p, (f p).ioPart = p.ioPart) : Still (modify f) := leaves_update hf

lemma Still.counting {α : Type} {x : PoolM α} (hx : Still x) : Counting config x := by
  intro extra registered
  exact hx.keeps fun v => Counted config extra v ∧ v.registered = registered

lemma counting_elementary : Elementary fun _ x => Counting config x where
  toComposes := counting_composes
  get := still_elementary.get.counting
  check _ _ _ := (still_elementary.check _ _).counting

lemma counted_addStarting_worker (h : CountedIn config extra registered p) (language : Language)
    (numWorkers : ℤ) : CountedIn config extra registered (p.addStarting config language .worker numWorkers) := by
  refine ⟨(h.1.start language ⟨numWorkers, numWorkers, .worker, config.pidOf p.workerStartupTokenCounter⟩
    nofun).congr fun type => ?_, h.2⟩
  exact sub_zero (extra type)

lemma counted_addStarting_io {type : IOType} (h : CountedIn config extra registered p)
    (hroom : (p.io .python type).numStartingIoWorkers + (p.io .python type).registeredIoWorkers.length <
      config.maxIoWorkers) : CountedIn config extra registered (p.addStarting config .python (.io type) 1) := by
  have hcounted := h.1.modify type
    (f := fun s => { s with numStartingIoWorkers := s.numStartingIoWorkers + 1 }) (fun n hn => hn.start hroom) fun _ hw => hw
  refine ⟨(hcounted.start .python ⟨1, 1, .io type, config.pidOf p.workerStartupTokenCounter⟩
    fun t _ => ⟨rfl, rfl⟩).congr fun t => ?_, h.2⟩
  by_cases ht : t = type
  · subst ht
    simp [ofType]
  · have hne : ¬WorkerType.io type = .io t := fun heq => ht (WorkerType.io.inj heq).symm
    simp [ofType, ht, hne]

lemma counting_startWorkerProcess (language : Language) (jobId : JobID) (dynamicOptions : Bool) :
    Counting config (startWorkerProcess config language .worker jobId dynamicOptions) := by
  have h := @counting_elementary config
  refine h.bind h.get fun p => ?_
  refine h.ite (fun _ => h.pure _) fun _ => ?_
  apply h.seq (h.check _ _)
  refine h.ite (fun _ => h.pure _) fun _ => ?_
  apply h.seq (h.check _ _)
  refine h.seq (fun _ _ => .update fun t ht => ?_) (h.pure _)
  exact counted_addStarting_worker ht language _

def Room (config : Config) (type : IOType) (n : ℕ) (p : Pool) : Prop :=
  (p.io .python type).numStartingIoWorkers + (p.io .python type).registeredIoWorkers.length + n ≤ config.maxIoWorkers

lemma counted_startIOWorkers (expected : ℕ) :
    Partly (fun p => CountedIn config extra registered p ∧ p.Room config type expected) (startIOWorkers config type expected)
      fun _ => CountedIn config extra registered := by
  induction expected with
  | zero => exact .pure fun _ h => h.1
  | succ expected ih =>
    refine .bind (Q := fun _ p => CountedIn config extra registered p ∧ p.Room config type expected) ?_ fun result => ?_
    · have hless {p : Pool} (h : p.Room config type (expected + 1)) : p.Room config type expected := by
        unfold Room at h ⊢
        omega
      refine .read fun p h => .ite (fun _ => .done ⟨h.1, hless h.2⟩) fun _ => ?_
      refine .testing (.ite (fun _ => .done ⟨h.1, hless h.2⟩) fun _ => ?_)
      refine .testing ?_
      refine .bind (.updated ?_) fun _ => .skip
      have hroom := h.2
      unfold Room at hroom
      refine ⟨counted_addStarting_io h.1 (by omega), ?_⟩
      have hio : (p.addStarting config .python (.io type) 1).io .python type =
          { p.io .python type with numStartingIoWorkers := (p.io .python type).numStartingIoWorkers + 1 } := by
        unfold addStarting modifyIoState
        dsimp only
        rw [adjust_self, adjust_self]
      have hgoal : (p.addStarting config .python (.io type) 1).Room config type expected := by
        unfold Room
        rw [hio]
        dsimp only
        omega
      exact hgoal
    · cases result with
      | error => exact .pure fun _ h => h.1
      | ok => exact ih

lemma counting_tryStartIOWorkersOf (language : Language) (type : IOType) :
    Counting config (tryStartIOWorkersOf config language type) := by
  refine counting_composes.onlyIf fun hl => ?_
  subst hl
  refine counting_composes.bind (counting_elementary.check _ _) fun _ => fun extra registered => .read fun p h => ?_
  refine .onlyIf (fun _ => (counted_startIOWorkers type _).pre ?_) fun _ => ?_
  · rintro t rfl
    refine ⟨h, ?_⟩
    have hbound := (h.1.kept type).bound
    have hbound : (t.io .python type).numStartingIoWorkers + (t.io .python type).registeredIoWorkers.length ≤
      config.maxIoWorkers := hbound
    unfold Room
    omega
  · rintro t rfl
    exact h

lemma counting_tryStartIOWorkers (language : Language) : Counting config (tryStartIOWorkers config language) :=
  counting_composes.seq (counting_tryStartIOWorkersOf language .restore) (counting_tryStartIOWorkersOf language .spill)

/-- A worker that counts as starting although its process is gone. -/
def plusWorker (extra : IOType → ℤ) (w : Worker) (type : IOType) : ℤ :=
  extra type + if w.workerType = .io type then 1 else 0

def StillStarting (p : Pool) (w : Worker) : Prop :=
  w.workerType ≠ .worker → w.startupToken ∈ p.startingWorkerProcesses w.language

lemma exists_lookup_of_stillStarting (h : p.StillStarting w) (hw : w.workerType ≠ .worker) :
    ∃ info, (p.startingWorkerProcesses w.language).lookup w.startupToken = some info :=
  Option.isSome_iff_exists.mp (AList.lookup_isSome.mpr (h hw))

lemma counted_countStarted (w : Worker) :
    Partly (fun p => CountedIn config extra registered p ∧ p.TypeMatches w ∧ p.StillStarting w) (countStarted config w)
      fun _ => CountedIn config (plusWorker extra w) registered := by
  refine .read fun p h => ?_
  obtain ⟨hcounted, htype, hstarting⟩ := h
  split
  case h_1 hnone =>
    have hworker : w.workerType = .worker := by
      by_contra hw
      obtain ⟨info, hinfo⟩ := exists_lookup_of_stillStarting hstarting hw
      rw [hnone] at hinfo
      cases hinfo
    refine .done ?_
    refine ⟨hcounted.1.congr fun type => ?_, hcounted.2⟩
    rw [plusWorker, hworker, if_neg nofun, add_zero]
  case h_2 info hinfo =>
    refine .ite (fun _ => ?_) fun hmore => .updated ?_
    · refine .bind (.updated ?_) fun _ => counting_tryStartIOWorkers w.language _ _
      refine ⟨(hcounted.1.finish hinfo).congr fun type => ?_, hcounted.2⟩
      rw [plusWorker, ofType, htype info hinfo]
      split <;> rfl
    · have hworker : info.workerType = .worker := by
        cases hio : info.workerType with
        | worker => rfl
        | io type =>
          have hone := (hcounted.1.single _ _ info type hinfo hio).2
          omega
      refine ⟨(hcounted.1.countDown hinfo hworker _).congr fun type => ?_, hcounted.2⟩
      rw [plusWorker, ← htype info hinfo, hworker, if_neg nofun, add_zero]

/-- An I/O worker that has started is one of those that are registered. -/
def Registers (p : Pool) (w : Worker) : Prop :=
  ∀ type, w.workerType = .io type → w ∈ (p.io .python type).registeredIoWorkers

lemma counted_onWorkerStarted (hw : w ∈ registered w.language) :
    Partly (fun p => CountedIn config extra registered p ∧ p.TypeMatches w ∧ p.StillStarting w) (onWorkerStarted config w)
      fun _ p => CountedIn config extra registered p ∧ p.Registers w := by
  refine .testing (.each fun p h => ?_)
  have hpython (hio : w.workerType ≠ .worker) : w.language = .python := by
    obtain ⟨info, hinfo⟩ := exists_lookup_of_stillStarting h.2.2 hio
    cases htype : w.workerType with
    | worker => exact absurd htype hio
    | io => exact (h.1.1.single _ _ info _ hinfo ((h.2.1 info hinfo).trans htype)).1
  refine .bind (Q := fun _ => CountedIn config (plusWorker extra w) registered) ((counted_countStarted w).pre ?_)
    fun _ => ?_
  · rintro t rfl
    exact h
  split
  case h_1 htype =>
    refine .pure fun t ht => ⟨⟨ht.1.congr fun type => ?_, ht.2⟩, fun type hio => ?_⟩
    · rw [plusWorker, htype, if_neg nofun, add_zero]
    · rw [htype] at hio
      cases hio
  case h_2 type htype =>
    have hlanguage : w.language = .python := hpython (by rw [htype]; exact nofun)
    refine .update fun t ht => ?_
    rw [hlanguage]
    have hw : w ∈ t.ioPart.registered .python := by
      have : t.ioPart.registered = registered := ht.2
      rw [this]
      exact hlanguage ▸ hw
    refine ⟨⟨(ht.1.modify type (fun n hn => hn.register hw htype) fun _ => mem_insert_of_mem).congr fun t' => ?_, ht.2⟩, fun t' ht' => ?_⟩
    · rw [plusWorker, htype]
      by_cases htt : t' = type
      · rw [htt, if_pos rfl, if_pos rfl, add_neg_cancel_right]
      · rw [if_neg htt, if_neg fun heq => htt (WorkerType.io.inj heq).symm, add_zero, add_zero]
    · obtain rfl := WorkerType.io.inj (htype.symm.trans ht')
      unfold modifyIoState
      dsimp only
      rw [adjust_self, adjust_self]
      exact mem_insert_self

lemma still_invokePopWorkerCallbackForProcess (dedicated : Bool) (language : Language) (proc : Pid)
    (worker : Option Worker) (status : PopWorkerStatus) (answers : CallbackID → Bool) :
    Still (invokePopWorkerCallbackForProcess dedicated language proc worker status answers) := by
  have h := still_elementary
  refine h.bind h.get fun p => ?_
  split
  · exact h.pure _
  · refine h.seq (still_update fun _ => rfl) ?_
    exact h.seq (still_update fun _ => rfl) (h.pure _)

lemma counted_dropStarting
    (h : CountedIn config extra registered p) (hinfo : (p.startingWorkerProcesses language).lookup token = some info) :
    CountedIn config extra registered (p.dropStarting language token info.workerType) := by
  have hfinished := h.1.finish hinfo
  cases htype : info.workerType with
  | worker =>
    refine ⟨hfinished.congr fun type => ?_, h.2⟩
    rw [ofType, htype, if_neg nofun]
    exact add_zero _
  | io type =>
    obtain ⟨rfl, -⟩ := h.1.single language token info type hinfo htype
    refine ⟨(hfinished.modify type (fun n hn => hn.drop) fun _ hw => hw).congr fun t => ?_, h.2⟩
    rw [ofType, htype]
    by_cases ht : t = type
    · rw [ht, if_pos rfl, if_pos rfl]
      exact add_neg_cancel_right _ _
    · rw [if_neg ht, if_neg fun heq => ht (WorkerType.io.inj heq).symm, add_zero]
      exact add_zero _

lemma counting_startupTimeout (language : Language) (token : StartupToken) :
    Counting config (startupTimeout config answers language token) := by
  have hk := still_elementary
  refine counting_composes.bind (counting_elementary.check _ _) fun _ => fun extra registered => .read fun p h => ?_
  split
  · exact .done h
  case h_2 info hinfo =>
    refine .bind ((still_invokePopWorkerCallbackForProcess _ _ _ _ _ _ p.ioPart).pre ?_) fun found => ?_
    · rintro t rfl
      rfl
    refine .bind (Q := fun _ t => t.ioPart = p.ioPart) ?_ fun _ => ?_
    · refine hk.onlyIf (fun _ => ?_) p.ioPart
      exact hk.seq (still_invokePopWorkerCallbackForProcess _ _ _ _ _ _) (hk.pure ())
    · refine .bind (.update fun t ht => ?_) fun _ => counting_tryStartIOWorkers language _ _
      apply counted_dropStarting ⟨by rw [ht]; exact h.1, (congrArg IoPart.registered ht).trans h.2⟩
      rw [show t.startingWorkerProcesses = p.startingWorkerProcesses from congrArg IoPart.starting ht]
      exact hinfo

lemma counted_queue (f : IOWorkerState → IOWorkerState) (h : CountedIn config extra registered p)
    (hf : ∀ n, Kept config type (p.registeredWorkers .python) n (p.io .python type) →
      Kept config type (p.registeredWorkers .python) n (f (p.io .python type)))
    (hmem : (f (p.io .python type)).registeredIoWorkers = (p.io .python type).registeredIoWorkers) :
    CountedIn config extra registered (p.modifyIoState .python type f) ∧
      ((p.modifyIoState .python type f).io .python type).registeredIoWorkers = (p.io .python type).registeredIoWorkers := by
  refine ⟨⟨(h.1.modify type (d := 0) (fun n hn => ?_) ?_).congr fun t => ?_, h.2⟩, ?_⟩
  · rw [add_zero]
    exact hf n hn
  · exact fun _ hw => hmem.symm ▸ hw
  · rw [ite_self, add_zero]
  · unfold modifyIoState
    dsimp only
    rw [adjust_self, adjust_self, hmem]

lemma counted_serveIoTask (w : Worker) :
    Partly (fun p => CountedIn config extra registered p ∧ w ∈ (p.io .python type).registeredIoWorkers)
      (serveIoTask callback w) fun _ => CountedIn config extra registered :=
  .update fun _ h => ⟨h.1.1.give h.2 callback, h.1.2⟩

lemma counted_pushIOWorkerInternal (w : Worker) (type : IOType) :
    Partly (fun p => CountedIn config extra registered p ∧ w ∈ (p.io .python type).registeredIoWorkers)
      (pushIOWorkerInternal config w type) fun _ => CountedIn config extra registered := by
  refine .testing ?_
  refine .testing (.read fun p h => ?_)
  split
  case h_1 hpending =>
    refine .updated ?_
    refine (counted_queue type _ h.1 (fun n hn => hn.queue (fun x hx => ?_) (.inl hpending)) rfl).1
    rcases mem_append.mp hx with hx | hx
    · exact hn.idle x hx
    · exact mem_singleton.mp hx ▸ h.2
  case h_2 callback rest hpending =>
    refine .bind (.updated ?_) fun _ => counted_serveIoTask type callback w
    have hqueue := counted_queue type (fun s => { s with pendingIoTasks := rest }) h.1 (fun n hn => hn.queue hn.idle
      (.inr (hn.queues.resolve_left (by rw [hpending]; exact cons_ne_nil _ _)))) rfl
    exact ⟨hqueue.1, hqueue.2 ▸ h.2⟩

lemma counting_popIOWorkerInternal : Counting config (popIOWorkerInternal config type callback) := by
  refine counting_composes.bind (counting_elementary.check _ _) fun _ => fun extra registered => .read fun p h => ?_
  split
  case h_1 hidle =>
    refine .bind (.updated ?_) fun _ => counting_tryStartIOWorkersOf .python type extra registered
    exact (counted_queue type _ h (fun n hn => hn.queue hn.idle (.inr hidle)) rfl).1
  case h_2 w rest hidle =>
    refine .bind (.updated ?_) fun _ => counted_serveIoTask type callback w
    have hsub (x : Worker) (hx : x ∈ w :: rest) : x ∈ (p.io .python type).registeredIoWorkers :=
      (h.1.kept type).idle x (hidle.symm ▸ hx)
    have hqueue := counted_queue type (fun s => { s with idleIoWorkers := rest }) h (fun n hn => hn.queue
      (fun x hx => hsub x (mem_cons_of_mem w hx))
      (.inl (hn.queues.resolve_right (by rw [hidle]; exact cons_ne_nil _ _)))) rfl
    exact ⟨hqueue.1, hqueue.2 ▸ hsub w mem_cons_self⟩

lemma counted_pushDeleteWorker (w : Worker) :
    Partly (fun p => CountedIn config extra registered p ∧ p.Registers w ∧ w.workerType ≠ .worker)
      (pushDeleteWorker config w) fun _ => CountedIn config extra registered := by
  refine .testing (.ite (fun hrestore => ?_) fun hother => ?_)
  · exact (counted_pushIOWorkerInternal w .restore).pre fun p h => ⟨h.1, h.2.1 .restore hrestore⟩
  · refine (counted_pushIOWorkerInternal w .spill).pre fun p h => ⟨h.1, h.2.1 .spill ?_⟩
    cases htype : w.workerType with
    | worker => exact absurd htype h.2.2
    | io type =>
      cases type with
      | spill => rfl
      | restore => exact absurd htype hother

lemma still_pushWorker (w : Worker) : Still (pushWorker config now answers w) := by
  have h := still_elementary
  refine h.seq (still_update fun _ => rfl) (h.seq (h.check _ _) ?_)
  refine h.bind (still_invokePopWorkerCallbackForProcess _ _ _ _ _ _) fun found => ?_
  cases found with
  | some => exact h.onlyIf fun _ => still_update fun _ => rfl
  | none =>
    refine h.bind (still_invokePopWorkerCallbackForProcess _ _ _ _ _ _) fun found => ?_
    exact h.onlyIf fun _ => still_update fun _ => rfl

lemma still_runPosted (i : ℕ) : Still (runPosted config now answers i) := by
  have h := still_elementary
  refine h.bind h.get fun p => ?_
  split
  · exact h.pure ()
  · refine h.seq (still_update fun _ => rfl) (h.seq (still_update fun _ => rfl) ?_)
    split
    · exact h.pure ()
    · exact h.onlyIf fun _ => still_pushWorker now answers _

lemma counting_startWorkerProcessFn : Counting config (startWorkerProcessFn config spec callback) := by
  refine counting_composes.bind (counting_startWorkerProcess _ _ _) fun result => ?_
  cases result with
  | ok => exact (still_update fun _ => rfl).counting
  | error => exact (still_update fun _ => rfl).counting

lemma counting_startOrCreateEnv : Counting config (startOrCreateEnv config spec callback) :=
  counting_composes.ite (fun _ => (still_update fun _ => rfl).counting) fun _ => counting_startWorkerProcessFn spec callback

lemma counting_runtimeEnvReply (i : ℕ) (successful : Bool) :
    Counting config (runtimeEnvReply config answers i successful) := by
  have h := @counting_elementary config
  refine h.bind h.get fun p => ?_
  split
  · exact h.pure ()
  · refine h.bind (still_update fun _ => rfl).counting fun _ => ?_
    exact h.ite (fun _ => counting_startWorkerProcessFn _ _) fun _ => (still_update fun _ => rfl).counting

lemma counting_popWorker : Counting config (popWorker config spec) := by
  have h := @counting_elementary config
  have hpost (callback : CallbackID) (w : Worker) : Counting config (postWorker spec callback w) :=
    h.seq (h.check _ _) ((still_update fun _ => rfl).counting)
  refine h.bind h.get fun p₀ => ?_
  refine h.bind (still_update fun _ => rfl).counting fun _ => ?_
  apply h.seq (h.check _ _)
  apply h.seq (h.check _ _)
  refine h.bind h.get fun p => h.ite (fun _ => ?_) fun _ => ?_
  · split
    · exact h.bind (still_update fun _ => rfl).counting fun _ => hpost _ _
    · exact counting_startOrCreateEnv spec _
  · split
    · exact h.bind (still_update fun _ => rfl).counting fun _ => hpost _ _
    · exact counting_startOrCreateEnv spec _

lemma still_keepsBooks : Elementary.KeepsBooks fun _ x => Still x := by
  intro f hf
  apply still_update
  intro p
  obtain ⟨idle, map, pending, exits, hp⟩ := hf p
  rw [hp]
  rfl

lemma still_checkIdleMap : Still checkIdleMap := still_elementary.bind still_elementary.get fun _ => still_elementary.check _ _

lemma still_tryKillingIdleWorkers : Still (tryKillingIdleWorkers config now) := by
  have h := still_elementary
  refine h.seq still_checkIdleMap (h.bind h.get fun p => ?_)
  refine h.seq (h.check _ _) (h.bind (h.killIdleWorkers still_keepsBooks now _ _) fun finished => ?_)
  refine h.ite (fun _ => ?_) fun _ => h.pure ()
  exact h.seq (still_update fun _ => rfl) still_checkIdleMap

lemma still_exitReply (i : ℕ) (refused : Bool) : Still (exitReply config i refused) := by
  have h := still_elementary
  refine h.bind h.get fun p => ?_
  split
  · exact h.pure ()
  · refine h.seq (still_update fun _ => rfl) ?_
    refine h.seq (h.ite (fun _ => ?_) fun _ => ?_) ?_
    · refine h.bind h.get fun p => ?_
      split
      · exact fun _ => .throw fun _ _ => trivial
      · exact h.seq (still_update fun _ => rfl) still_checkIdleMap
    · exact h.seq (h.check _ _) (still_update fun _ => rfl)
    · refine h.bind h.get fun p => ?_
      exact h.seq (h.check _ _) (still_update fun _ => rfl)

lemma counted_handleWorkerAvailable (w : Worker) :
    Partly (fun p => CountedIn config extra registered p ∧ p.Registers w) (handleWorkerAvailable config now answers w)
      fun _ => CountedIn config extra registered := by
  unfold handleWorkerAvailable
  split
  case h_1 htype => exact (counted_pushIOWorkerInternal w .spill).pre fun p h => ⟨h.1, h.2 .spill htype⟩
  case h_2 htype => exact (counted_pushIOWorkerInternal w .restore).pre fun p h => ⟨h.1, h.2 .restore htype⟩
  case h_3 => exact ((still_pushWorker now answers w).counting extra registered).pre fun p h => h.1

lemma counted_announceWorkerPort (hw : w ∈ registered w.language) :
    Partly (fun p => CountedIn config extra registered p ∧ p.TypeMatches w ∧ p.StillStarting w)
      (announceWorkerPort config now answers w) fun _ => CountedIn config extra registered := by
  refine .bind (.update fun p h => ?_) fun _ => .seq (counted_onWorkerStarted hw)
    (counted_handleWorkerAvailable now answers w)
  exact h

lemma counted_registerWorker (w : Worker) (portFree : Bool) :
    Partly (fun p => Counted config extra p.ioPart) (registerWorker config w portFree)
      fun _ p => Counted config extra p.ioPart := by
  refine .testing (.read fun p h => ?_)
  refine .onlyIf (fun _ => .updated ?_) fun _ => ?_
  · refine h.connect fun type x _ hx => ?_
    dsimp only
    rw [adjust_apply]
    split
    · exact mem_insert_of_mem hx
    · exact hx
  · rintro t rfl
    exact h

lemma counted_disconnectWorker (w : Worker) (intendedExit : Bool) :
    Partly (fun p => Counted config extra p.ioPart ∧ ∀ type, w ∉ (p.io .python type).registeredIoWorkers)
      (disconnectWorker config w intendedExit) fun _ p => Counted config extra p.ioPart := by
  refine .testing (.read fun p h => ?_)
  refine .testing ?_
  refine .bind (.update ?_) fun _ => .onlyIf (fun _ => .update fun _ h => h) fun _ _ h => h
  rintro t rfl
  refine h.1.connect fun type x hx hregistered => ?_
  have hne : x ≠ w := by
    rintro rfl
    exact h.2 type hx
  unfold removeWorker
  dsimp only
  rw [adjust_apply]
  split
  · exact (mem_erase_of_ne hne).mpr hregistered
  · exact hregistered

def Gave (p : Pool) (w : Worker) : Prop := ∃ e ∈ p.ioLog, e.2 = w

lemma counted_pushGiven (h : Counted config extra p.ioPart) (hw : p.Gave w) : p.Registers w := by
  obtain ⟨e, he, rfl⟩ := hw
  exact h.given e he

end Pool

/-- I/O workers are returned by the tasks they were given to, to their type. -/
def Op.ReturnsGiven : Op → Pool → Prop
  | .pushSpillWorker w, p => p.Gave w ∧ w.workerType = .io .spill
  | .pushRestoreWorker w, p => p.Gave w ∧ w.workerType = .io .restore
  | .pushDeleteWorker w, p => p.Gave w ∧ w.workerType ≠ .worker
  | _, _ => True

/-- No I/O process times out before its worker announces its port, and an I/O worker that did so stays connected. -/
def Op.IoWorkersStay : Op → Pool → Prop
  | .announceWorkerPort _ _ w, p => p.StillStarting w
  | .disconnectWorker w _, p => ∀ type, w ∉ (p.io .python type).registeredIoWorkers
  | _, _ => True

open Pool in
lemma counted_run {config : Config} (op : Op) {p : Pool} (hop : op.AsNodeManager config p ∧ op.ReturnsGiven p)
    (hstay : op.IoWorkersStay p) (h : IoPart.Counted config (fun _ => 0) p.ioPart) :
    Yields p (op.run config) fun _ t => IoPart.Counted config (fun _ => 0) t.ioPart := by
  have hk := @counting_elementary config
  have hcounted : CountedIn config (fun _ => 0) p.registeredWorkers p := ⟨h, rfl⟩
  have hpre {P : Pool → Prop} {x : PoolM Unit} (hp : P p)
      (hx : Partly P x (fun _ => CountedIn config (fun _ => 0) p.registeredWorkers)) :
      Yields p x fun _ t => IoPart.Counted config (fun _ => 0) t.ioPart := by
    refine hx.conseq ?_ (fun _ _ ht => ht.1) fun _ _ _ => trivial
    rintro t rfl
    exact hp
  have hing {x : PoolM Unit} (hx : Counting config x) := hpre hcounted (hx _ _)
  have hgiven {w : Worker} (hw : p.Gave w) := counted_pushGiven h hw
  cases op with
  | jobStarted => exact hing (still_update fun _ => rfl).counting
  | jobFinished => exact hing (still_update fun _ => rfl).counting
  | startWorkerProcess language jobId =>
    exact hing (hk.startWorkerProcesses (fun _ _ => counting_startWorkerProcess _ _ _) language jobId 1)
  | prestartWorkers spec backlogSize cpus =>
    exact hing (hk.prestartWorkers (fun _ _ => counting_startWorkerProcess _ _ _) spec backlogSize cpus)
  | registerWorker w portFree =>
    apply (counted_registerWorker w portFree).pre
    rintro t rfl
    exact h
  | announceWorkerPort now answers =>
    obtain ⟨⟨hregistered, -, -, htype⟩, -⟩ := hop
    exact hpre ⟨hcounted, htype, hstay⟩ (counted_announceWorkerPort now answers hregistered)
  | startupTimeout => exact hing (counting_startupTimeout _ _ _)
  | pushWorker now answers w => exact hing (still_pushWorker _ _ w).counting
  | popWorker => exact hing (counting_popWorker _)
  | runPosted now answers i => exact hing (still_runPosted _ _ i).counting
  | runtimeEnvReply answers i => exact hing (counting_runtimeEnvReply _ i _)
  | disconnectWorker w intendedExit =>
    apply (counted_disconnectWorker w intendedExit).pre
    rintro t rfl
    exact ⟨h, hstay⟩
  | tryKillingIdleWorkers => exact hing (still_tryKillingIdleWorkers _).counting
  | exitReply i => exact hing (still_exitReply i _).counting
  | popSpillWorker => exact hing (counting_popIOWorkerInternal .spill _)
  | popRestoreWorker => exact hing (counting_popIOWorkerInternal .restore _)
  | popDeleteWorker callback =>
    exact hing (hk.popDeleteWorker counting_popIOWorkerInternal callback)
  | pushSpillWorker w =>
    exact hpre ⟨hcounted, hgiven hop.2.1 .spill hop.2.2⟩ (counted_pushIOWorkerInternal w .spill)
  | pushRestoreWorker w =>
    exact hpre ⟨hcounted, hgiven hop.2.1 .restore hop.2.2⟩ (counted_pushIOWorkerInternal w .restore)
  | pushDeleteWorker w => exact hpre ⟨hcounted, hgiven hop.2.1, hop.2.2⟩ (counted_pushDeleteWorker w)

lemma counted_start (config : Config) : IoPart.Counted config (fun _ => 0) (Pool.ioPart {}) where
  fresh _ _ _ h := nomatch h
  single _ _ _ _ h := nomatch h
  kept _ := ⟨rfl, Int.natCast_nonneg _, nofun, nofun, nofun, .inl rfl⟩
  given _ h := nomatch h

/-- The workers of one I/O type are counted: processes that start, within the limit, and connected workers; no task
waits while one is idle. -/
structure Pool.KeepsIo (config : Config) (p : Pool) (type : IOType) : Prop where
  starting : (p.io .python type).numStartingIoWorkers =
    (p.startingWorkerProcesses .python).entries.countP fun e => e.2.workerType = .io type
  limit : (p.io .python type).numStartingIoWorkers + (p.io .python type).registeredIoWorkers.length ≤ config.maxIoWorkers
  registered : ∀ w ∈ (p.io .python type).registeredIoWorkers, w ∈ p.registeredWorkers .python
  idle : ∀ w ∈ (p.io .python type).idleIoWorkers, w ∈ p.registeredWorkers .python
  queues : (p.io .python type).pendingIoTasks = [] ∨ (p.io .python type).idleIoWorkers = []

variable {config : Config} {p : Pool}

theorem io_workers_counted (h : Reaches (Op.run config)
      (fun op p => (op.AsNodeManager config p ∧ op.ReturnsGiven p) ∧ op.IoWorkersStay p) {} p) (type : IOType) :
    p.KeepsIo config type := by
  have hcounted : IoPart.Counted config (fun _ => 0) p.ioPart :=
    h.invariant (I := fun p => IoPart.Counted config (fun _ => 0) p.ioPart) (counted_start config)
      fun op _ hop hs => counted_run op hop.1 hop.2 hs
  have hkept := hcounted.kept type
  refine ⟨?_, hkept.bound, hkept.connected, fun w hw => hkept.connected w (hkept.idle w hw), hkept.queues⟩
  have hprocesses : (p.ioPart.processes type : ℕ) =
      (p.startingWorkerProcesses .python).entries.countP fun e => e.2.workerType = .io type := by
    rw [← total_indicator fun _ (info : StartingWorkerProcessInfo) => decide (info.workerType = .io type)]
    simp only [decide_eq_true_eq]
    rfl
  rw [← hprocesses, ← add_zero (p.ioPart.processes type : ℤ)]
  exact hkept.count

instance (p : Pool) (w : Worker) : Decidable (p.Gave w) := inferInstanceAs (Decidable (∃ e ∈ p.ioLog, e.2 = w))

instance (op : Op) (p : Pool) : Decidable (op.ReturnsGiven p) := by
  induction op using Op.casesOn <;> (unfold Op.ReturnsGiven; infer_instance)

instance (p : Pool) (w : Worker) : Decidable (p.StillStarting w) :=
  inferInstanceAs (Decidable (w.workerType ≠ .worker → w.startupToken ∈ p.startingWorkerProcesses w.language))

instance : Fintype IOType := ⟨{.spill, .restore}, fun type => by cases type <;> decide⟩

instance (op : Op) (p : Pool) : Decidable (op.IoWorkersStay p) := by
  induction op using Op.casesOn <;> (unfold Op.IoWorkersStay; infer_instance)

def spillWorker : Worker := ⟨1, .python, .io .spill, 0, 0, 0, 100, 100⟩

/-- A process is started for a spill task. Its worker is given to the task and returned. -/
theorem io_workers_counted_returned :
    ∃ p, Reaches (Op.run smallPool)
        (fun op p => (op.AsNodeManager smallPool p ∧ op.ReturnsGiven p) ∧ op.IoWorkersStay p) {} p ∧
      (p.io .python .spill).idleIoWorkers = [spillWorker] ∧ p.KeepsIo smallPool .spill := by
  refine exists_after [.popSpillWorker 0, .registerWorker spillWorker true, .announceWorkerPort 0 (fun _ => true) spillWorker,
        .pushSpillWorker spillWorker]
    (fun p => (p.io .python .spill).idleIoWorkers)
    [spillWorker] (by decide +kernel) fun _ hp hv => ?_
  exact ⟨hv, io_workers_counted hp .spill⟩

/-- A spill worker that disconnects stays among the registered ones. When the process of a worker times out between
its registration and its announcement, the worker is counted down twice, and the process started in its place is not
counted. -/
theorem io_workers_miscounted :
    (∃ p, Reaches (Op.run smallPool) (fun op p => op.AsNodeManager smallPool p ∧ op.ReturnsGiven p) {} p ∧
      spillWorker ∈ (p.io .python .spill).registeredIoWorkers ∧ spillWorker ∉ p.registeredWorkers .python) ∧
    ∃ p, Reaches (Op.run smallPool) (fun op p => op.AsNodeManager smallPool p ∧ op.ReturnsGiven p) {} p ∧
      (p.io .python .spill).numStartingIoWorkers = 0 ∧
      ((p.startingWorkerProcesses .python).entries.countP fun e => e.2.workerType = .io .spill) = 1 := by
  have hgone : (runAll (Op.run smallPool) (fun op p => op.AsNodeManager smallPool p ∧ op.ReturnsGiven p)
      [.popSpillWorker 0, .registerWorker spillWorker true, .announceWorkerPort 0 (fun _ => true) spillWorker,
        .disconnectWorker spillWorker true] {}).map (fun p =>
          (decide (spillWorker ∈ (p.io .python .spill).registeredIoWorkers),
            decide (spillWorker ∈ p.registeredWorkers .python))) = some (true, false) := by
    decide +kernel
  have htimeout : (runAll (Op.run smallPool) (fun op p => op.AsNodeManager smallPool p ∧ op.ReturnsGiven p)
      [.popSpillWorker 0, .registerWorker spillWorker true, .startupTimeout (fun _ => true) .python 0,
        .announceWorkerPort 0 (fun _ => true) spillWorker] {}).map (fun p =>
          ((p.io .python .spill).numStartingIoWorkers,
            (p.startingWorkerProcesses .python).entries.countP fun e => e.2.workerType = .io .spill)) =
      some (0, 1) := by
    decide +kernel
  obtain ⟨p, hp, hv⟩ := exists_reaches hgone
  obtain ⟨q, hq, hw⟩ := exists_reaches htimeout
  simp only [Prod.mk.injEq, decide_eq_true_eq, decide_eq_false_iff_not] at hv hw
  exact ⟨⟨p, hp, hv⟩, q, hq, hw⟩

end AmazonRay.WorkerPool
