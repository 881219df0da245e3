import AmazonRay.WorkerPool.Requests

/-! Every request of `PopWorker` is answered once. -/
namespace AmazonRay.WorkerPool
open Program Families Requests List

namespace Pool

variable {config : Config} {held : List CallbackID} {hand : List Worker} {exempt : Language → Pid → Prop}

/-- What a program must do to the requests; any check may stop it. -/
def ServesTo {α : Type} (config : Config) (held : List CallbackID) (hand : List Worker) (exempt : Language → Pid → Prop)
    (x : PoolM α) (held' : List CallbackID) (hand' : List Worker) (exempt' : Language → Pid → Prop) : Prop :=
  Triple (fun p => Serves config held hand exempt p.requests) x
    (fun _ p => Serves config held' hand' exempt' p.requests) fun _ _ => True

def Serving {α : Type} (config : Config) (x : PoolM α) : Prop :=
  ∀ held hand exempt, ServesTo config held hand exempt x held hand exempt

variable {w : Worker} {p : Pool} {f : Pool → Pool}

lemma serving_composes : Composes fun _ x => Serving config x where
  pure _ held hand exempt := .pure fun _ h => h
  bind hx hf held hand exempt := .bind (hx held hand exempt) fun a => hf a held hand exempt

lemma serving_elementary : Elementary fun _ x => Serving config x where
  toComposes := serving_composes
  get _ _ _ := .get fun _ h => h
  check _ _ _ _ _ _ := .tested fun _ _ => trivial

lemma serving_update (hf : ∀ p, (f p).requests = p.requests) : Serving config (modify f) := by
  intro held hand exempt
  refine .update fun p h => ?_
  rw [hf p]
  exact h

lemma serves_addStarting (h : Serves config held hand exempt p.requests) (language : Language)
    (workerType : WorkerType) (numWorkers : ℤ) :
    Serves config held hand exempt (p.addStarting config language workerType numWorkers).requests := by
  have hstart := h.start language numWorkers workerType
  cases workerType with
  | worker => exact hstart
  | io => exact hstart

lemma lookup_addStarting (p : Pool) (language : Language) (workerType : WorkerType) (numWorkers : ℤ) :
    ((p.addStarting config language workerType numWorkers).startingWorkerProcesses language).lookup
      p.workerStartupTokenCounter =
        some ⟨numWorkers, numWorkers, workerType, config.pidOf p.workerStartupTokenCounter⟩ := by
  have hlookup : (adjust language (·.insert p.workerStartupTokenCounter
      ⟨numWorkers, numWorkers, workerType, config.pidOf p.workerStartupTokenCounter⟩) p.startingWorkerProcesses
        language).lookup p.workerStartupTokenCounter =
          some ⟨numWorkers, numWorkers, workerType, config.pidOf p.workerStartupTokenCounter⟩ := by
    rw [adjust_self]
    exact AList.lookup_insert _
  cases workerType with
  | worker => exact hlookup
  | io => exact hlookup

def Fresh (language : Language) (workerType : WorkerType) (p : Pool) (proc : Pid) : Prop :=
  (∃ token process, (p.startingWorkerProcesses language).lookup token = some process ∧ process.proc = proc ∧
    process.workerType = workerType) ∧ ∀ d, (p.startingWorkersToTasks d language).lookup proc = none

section

variable (hpid : Function.Injective config.pidOf) (language : Language) (workerType : WorkerType)
include hpid

lemma serves_startWorkerProcess (jobId : JobID) (dynamicOptions : Bool) :
    Partly (fun p => Serves config held hand exempt p.requests)
      (startWorkerProcess config language workerType jobId dynamicOptions)
      fun result p => Serves config held hand exempt p.requests ∧
        ∀ proc, result = .ok proc → Fresh language workerType p proc := by
  refine .read fun p h => .ite (fun _ => .done ⟨h, nofun⟩) fun _ => ?_
  refine .testing (.ite (fun _ => .done ⟨h, nofun⟩) fun _ => ?_)
  refine .testing ?_
  refine .bind (Q := fun _ t => Serves config held hand exempt t.requests ∧
    Fresh language workerType t (config.pidOf p.workerStartupTokenCounter)) (.updated ?_) fun _ => .pure ?_
  · refine ⟨serves_addStarting h language workerType _, ⟨_, _, lookup_addStarting p language workerType _, rfl, rfl⟩, fun d => ?_⟩
    rw [Option.eq_none_iff_forall_ne_some]
    intro info hinfo
    have hold : (p.startingWorkersToTasks d language).lookup (config.pidOf p.workerStartupTokenCounter) = some info := by
      cases workerType with
      | worker => exact hinfo
      | io => exact hinfo
    obtain ⟨token, htoken, hproc⟩ := h.linked.keyed d language _ info hold
    exact htoken.ne (hpid hproc).symm
  · intro t ht
    refine ⟨ht.1, fun proc hproc => ?_⟩
    cases hproc
    exact ht.2

lemma serving_startWorkerProcess (jobId : JobID) (dynamicOptions : Bool) :
    Serving config (startWorkerProcess config language workerType jobId dynamicOptions) :=
  fun _ _ _ => (serves_startWorkerProcess hpid language workerType jobId dynamicOptions).post fun _ _ h => h.1

lemma serving_tryStartIOWorkers : Serving config (tryStartIOWorkers config language) :=
  serving_elementary.tryStartIOWorkers (fun _ => serving_startWorkerProcess hpid _ _ _ _) language

end

def Unawaited (looked : List Bool) (language : Language) (proc : Pid) (p : Pool) : Prop :=
  ∀ d ∈ looked, (p.startingWorkersToTasks d language).lookup proc = none

def handAfter (hand : List Worker) (worker : Option Worker) : Option (TaskID × Bool) → List Worker
  | none => worker.toList ++ hand
  | some (_, used) => if used then hand else worker.toList ++ hand

lemma unawaited_of_take {dedicated : Bool} {language : Language} {proc : Pid}
    {info : TaskWaitingForWorkerInfo} (h : Linked config exempt p.requests)
    (hinfo : (p.startingWorkersToTasks dedicated language).lookup proc = some info) (looked : List Bool) :
    Unawaited looked language proc { p with
      startingWorkersToTasks := adjust dedicated (adjust language (·.erase proc)) p.startingWorkersToTasks } := by
  intro d _
  dsimp only
  rw [lookup_adjust₂]
  by_cases hd : d = dedicated
  · rw [if_pos ⟨hd, rfl⟩, Table.lookup_erase, if_pos rfl]
  · rw [if_neg fun hc => hd hc.1]
    have hother := h.separate language proc
    cases d with
    | true =>
      obtain rfl : dedicated = false := by simpa using Ne.symm hd
      exact hother.resolve_right fun hnone => by
        rw [show p.requests.waiting = p.startingWorkersToTasks from rfl, hinfo] at hnone
        cases hnone
    | false =>
      obtain rfl : dedicated = true := by simpa using Ne.symm hd
      exact hother.resolve_left fun hnone => by
        rw [show p.requests.waiting = p.startingWorkersToTasks from rfl, hinfo] at hnone
        cases hnone

lemma handAfter_none (found : Option (TaskID × Bool)) : handAfter hand none found = hand := by
  cases found with
  | none => rfl
  | some => exact ite_self hand

variable (config held hand exempt) in
lemma serves_invokePopWorkerCallbackForProcess (dedicated : Bool) (looked : List Bool) (language : Language)
    (proc : Pid) (worker : Option Worker) (status : PopWorkerStatus) (answers : CallbackID → Bool) :
    Partly (fun p => Serves config held (worker.toList ++ hand) exempt p.requests ∧ p.Unawaited looked language proc)
      (invokePopWorkerCallbackForProcess dedicated language proc worker status answers)
      fun found p => Serves config held (handAfter hand worker found) exempt p.requests ∧
        p.Unawaited (if found = none then dedicated :: looked else [true, false]) language proc := by
  refine .read fun p h => ?_
  split
  case h_1 hnone =>
    refine .done ?_
    refine ⟨h.1, fun d hd => ?_⟩
    rcases mem_cons.mp hd with rfl | hd
    · exact hnone
    · exact h.2 d hd
  case h_2 info hinfo =>
    have htaken := (h.1.takeWaiting hinfo).invoke (fun w => decide (w ∈ p.registeredWorkers w.language)) status
      (answers info.callback)
    have hnone := unawaited_of_take h.1.linked hinfo [true, false]
    refine .bind (Q := fun _ t => t = { p with
      log := .invoked info.callback (worker.map fun w => (w, decide (w ∈ p.registeredWorkers w.language))) status
        (answers info.callback) :: p.log }) (.updated ?_) fun _ => ?_
    · rfl
    refine .bind (.update ?_) fun _ => .skip
    rintro t rfl
    exact ⟨htaken, hnone⟩

def nobody (_ : Language) (_ : Pid) : Prop := False

/-- The place of the worker that is pushed may be one that callbacks waited for. -/
def ofWorker (w : Worker) (language : Language) (proc : Pid) : Prop := language = w.language ∧ proc = w.shimPid

lemma serves_settle (h : Serves config held hand (ofWorker w) p.requests)
    (hnone : p.Unawaited [true, false] w.language w.shimPid) : Serves config held hand nobody p.requests := by
  refine h.settle fun l proc hex => .inr fun d => ?_
  obtain ⟨rfl, rfl⟩ := hex
  exact hnone d (by cases d <;> decide)

lemma serves_addIdle (h : Serves config held (w :: hand) exempt p.requests) (now : ℤ) :
    Serves config held hand exempt (p.addIdle w now).requests :=
  h.place (h.placed.move (moved_putIdle hand w now))

lemma serves_pushWorker (now : ℤ) (answers : CallbackID → Bool) (w : Worker) :
    Partly (fun p => Serves config held (w :: hand) (ofWorker w) { p.requests with log := .pushed w :: p.log })
      (pushWorker config now answers w) fun _ p => Serves config held hand nobody p.requests := by
  refine .bind (Q := fun _ p => Serves config held (w :: hand) (ofWorker w) p.requests)
    (.update fun _ h => h) fun _ => ?_
  refine .testing ?_
  refine .bind ((serves_invokePopWorkerCallbackForProcess config held hand _ true [] w.language w.shimPid (some w) .ok answers).pre
    fun p h => ⟨h, nofun⟩) fun found => ?_
  cases found with
  | some result =>
    obtain ⟨taskId, used⟩ := result
    refine .onlyIf (fun hused => .update fun p h => ?_) fun hused p h => ?_
    · subst hused
      exact serves_settle (h.1.place (h.1.placed.move (moved_putDedicated hand w w.language taskId))) h.2
    · obtain rfl : used = true := by simpa using hused
      exact serves_settle h.1 h.2
  | none =>
    refine .bind (serves_invokePopWorkerCallbackForProcess config held hand _ false [true] w.language w.shimPid
      (some w) .ok answers) fun found => .onlyIf (fun hused => .update fun p h => ?_) fun hused p h => ?_
    · have hidle : Serves config held (w :: hand) (ofWorker w) p.requests ∧
          p.Unawaited [true, false] w.language w.shimPid := by
        cases found with
        | none => exact ⟨h.1, fun d hd => h.2 d (by cases d <;> decide)⟩
        | some result =>
          obtain ⟨taskId, used⟩ := result
          obtain rfl : used = false := by simpa using hused
          exact h
      exact serves_settle (serves_addIdle hidle.1 now) hidle.2
    · cases found with
      | none => exact absurd rfl hused
      | some result =>
        obtain ⟨taskId, used⟩ := result
        obtain rfl : used = true := by simpa using hused
        exact serves_settle h.1 h.2

lemma serves_popWorkerCallbackInternal (now : ℤ) (answers : CallbackID → Bool) (call : PostedCallback) :
    ServesTo config (call.callback :: held) (call.worker.toList ++ hand) nobody
      (popWorkerCallbackInternal config now answers call) held hand nobody := by
  obtain ⟨callback, worker, status⟩ := call
  refine .bind (Q := fun _ p => Serves config held (if answers callback then hand else
    worker.toList ++ hand) nobody p.requests) (.update fun p h => h.invoke _ _ _) fun _ => ?_
  cases worker with
  | none =>
    refine .pure fun p h => ?_
    simpa using h
  | some w =>
    refine .onlyIf (fun hused => (serves_pushWorker now answers w).pre fun p h => ?_) fun hused p h => ?_
    · rw [hused] at h
      exact (h.pushed w).weaken _
    · have hused : answers callback = true := by simpa using hused
      rw [hused] at h
      exact h

lemma serves_runPosted (now : ℤ) (answers : CallbackID → Bool) (i : ℕ) :
    ServesTo config held hand nobody (runPosted config now answers i) held hand nobody := by
  refine .read fun p h => ?_
  split
  · exact .done h
  case h_2 call hcall =>
    refine .bind (.updated ?_) fun _ => serves_popWorkerCallbackInternal now answers call
    exact h.takePosted hcall

lemma serving_registerWorker (w : Worker) (portFree : Bool) : Serving config (registerWorker config w portFree) := by
  have h := @serving_elementary config
  apply h.seq (h.check _ _)
  refine h.bind h.get fun p => ?_
  exact h.onlyIf fun _ => serving_update fun _ => rfl

def TypeMatches (p : Pool) (w : Worker) : Prop :=
  ∀ info, (p.startingWorkerProcesses w.language).lookup w.startupToken = some info → info.workerType = w.workerType

/-- The process of a worker that has started may be gone. -/
def ofStarted (w : Worker) (language : Language) (proc : Pid) : Prop := w.workerType = .worker ∧ ofWorker w language proc

section

variable (hpid : Function.Injective config.pidOf)
include hpid

lemma serves_countStarted (hshim : w.shimPid = config.pidOf w.startupToken) :
    Partly (fun p => Serves config held hand nobody p.requests ∧ p.TypeMatches w) (countStarted config w)
      fun _ p => Serves config held hand (ofStarted w) p.requests := by
  refine .read fun p h => ?_
  split
  · exact .done (h.1.weaken _)
  case h_2 info hinfo =>
    refine .ite (fun _ => ?_) fun _ => .update ?_
    · refine .bind (.updated ?_) fun _ => serving_tryStartIOWorkers hpid w.language _ _ _
      refine ⟨h.1.owed, h.1.linked.finish _ (fun _ _ hex => hex.elim) fun process hprocess htype => ?_,
        h.1.placed.elsewhere⟩
      refine ⟨(h.2 process hprocess).symm.trans htype, rfl, ?_⟩
      exact (h.1.linked.started _ _ process hprocess).2.trans hshim.symm
    · rintro t rfl
      exact ⟨h.1.owed, (h.1.weaken (ofStarted w)).linked.countDown hinfo _, h.1.placed.elsewhere⟩

lemma serves_onWorkerStarted (hshim : w.shimPid = config.pidOf w.startupToken) :
    Partly (fun p => Serves config held hand nobody p.requests ∧ p.TypeMatches w) (onWorkerStarted config w)
      fun _ p => Serves config held hand (ofStarted w) p.requests := by
  refine .testing ?_
  refine .seq (serves_countStarted hpid hshim) ?_
  split
  · exact .pure fun _ ht => ht
  · exact .update fun _ ht => ht

lemma serves_startupTimeout (answers : CallbackID → Bool) (language : Language) (token : StartupToken) :
    ServesTo config held hand nobody (startupTimeout config answers language token) held hand nobody := by
  refine .testing (.read fun p h => ?_)
  split
  · exact .done h
  case h_2 info hinfo =>
    have hproc := (h.linked.started language token info hinfo).2
    refine .bind ((serves_invokePopWorkerCallbackForProcess config held hand nobody true [] language info.proc none
      .workerPendingRegistration answers).pre ?_) fun found => ?_
    · rintro t rfl
      exact ⟨h, nofun⟩
    refine .bind (Q := fun _ t => Serves config held hand nobody (Pool.requests t) ∧
      t.Unawaited [true, false] language info.proc) ?_ fun _ => ?_
    · rw [handAfter_none]
      refine .onlyIf (fun hfound => ?_) fun hfound t ht => ?_
      · subst hfound
        refine .bind (serves_invokePopWorkerCallbackForProcess config held hand nobody false [true] language
          info.proc none .workerPendingRegistration answers) fun found' => .pure fun t ht => ?_
        rw [handAfter_none] at ht
        refine ⟨ht.1, fun d _ => ht.2 d ?_⟩
        cases found' <;> cases d <;> simp
      · rw [if_neg hfound] at ht
        exact ht
    · refine .bind (.update fun t ht => ?_) fun _ => serving_tryStartIOWorkers hpid language _ _ _
      have hfinished : Serves config held hand nobody { t.requests with
          starting := adjust language (·.erase token) t.requests.starting } := by
        refine ⟨ht.1.owed, ?_, ht.1.placed.elsewhere⟩
        refine (ht.1.linked.finish (fun l proc => l = language ∧ proc = info.proc) (fun _ _ hex => hex.elim)
          fun process hprocess _ => ⟨rfl, ?_⟩).settle fun l proc hex => .inr fun d => ?_
        · exact (ht.1.linked.started language token process hprocess).2.trans hproc.symm
        · obtain ⟨rfl, rfl⟩ := hex
          exact ht.2 d (by cases d <;> decide)
      unfold dropStarting
      split
      · exact hfinished
      · exact hfinished

end

lemma serving_pushIOWorkerInternal (w : Worker) (type : IOType) : Serving config (pushIOWorkerInternal config w type) :=
  serving_elementary.pushIOWorkerInternal (fun _ _ => serving_update fun _ => rfl) (fun _ _ => serving_update fun _ => rfl) w type

section

variable (hpid : Function.Injective config.pidOf)
include hpid

lemma serving_popIOWorkerInternal (type : IOType) (callback : CallbackID) :
    Serving config (popIOWorkerInternal config type callback) :=
  serving_elementary.popIOWorkerInternal (fun _ _ => serving_update fun _ => rfl)
    (fun _ _ => serving_update fun _ => rfl) (fun _ => serving_startWorkerProcess hpid _ _ _ _) type callback

lemma serves_announceWorkerPort (now : ℤ) (answers : CallbackID → Bool) (hshim : w.shimPid = config.pidOf w.startupToken) :
    Partly (fun p => Serves config held hand nobody p.requests ∧ p.TypeMatches w ∧ w ∉ p.connected)
      (announceWorkerPort config now answers w) fun _ p => Serves config held hand nobody p.requests := by
  refine .bind (Q := fun _ p => Serves config held (w :: hand) nobody (Pool.requests p) ∧ p.TypeMatches w)
    (.update fun p h => ⟨h.1.place (h.1.placed.connect h.2.2), h.2.1⟩) fun _ => ?_
  refine .seq (serves_onWorkerStarted hpid hshim) ?_
  have hio (hw : w.workerType ≠ .worker) (type : IOType) :
      Partly (fun p => Serves config held (w :: hand) (ofStarted w) (Pool.requests p)) (pushIOWorkerInternal config w type)
        fun _ p => Serves config held hand nobody p.requests := by
    refine (serving_pushIOWorkerInternal w type held (w :: hand) (ofStarted w)).post fun _ p h => ?_
    exact ⟨h.owed, h.linked.settle fun l proc hex => absurd hex.1 hw, h.placed.drop⟩
  unfold handleWorkerAvailable
  split
  case h_1 htype => exact hio (by rw [htype]; exact nofun) .spill
  case h_2 htype => exact hio (by rw [htype]; exact nofun) .restore
  case h_3 =>
    refine (serves_pushWorker now answers w).pre fun p h => (h.pushed w).settle fun l proc hex => .inl hex.2

lemma serves_startWorkerProcessFn (spec : TaskSpec) (callback : CallbackID) :
    ServesTo config (callback :: held) hand nobody (startWorkerProcessFn config spec callback) held hand nobody := by
  refine .bind (serves_startWorkerProcess hpid spec.language .worker spec.jobId spec.dynamicOptions) fun result => ?_
  cases result with
  | ok proc =>
    refine .update fun p h => ?_
    obtain ⟨⟨token, process, htoken, rfl, htype⟩, hfree⟩ := h.2 proc rfl
    exact h.1.wait htoken htype hfree
  | error => exact .update fun p h => h.1.postNone _

lemma serves_startOrCreateEnv (spec : TaskSpec) (callback : CallbackID) :
    ServesTo config (callback :: held) hand nobody (startOrCreateEnv config spec callback) held hand nobody :=
  .ite (fun _ => .update fun _ h => h.request spec) fun _ => serves_startWorkerProcessFn hpid spec callback

lemma serves_runtimeEnvReply (answers : CallbackID → Bool) (i : ℕ) (successful : Bool) :
    ServesTo config held hand nobody (runtimeEnvReply config answers i successful) held hand nobody := by
  refine .read fun p h => ?_
  split
  · exact .done h
  case h_2 request hrequest =>
    refine .bind (Q := fun _ t => Serves config (request.callback :: held) hand nobody (Pool.requests t))
      (.updated (h.takeRequest hrequest)) fun _ => ?_
    refine .ite (fun _ => serves_startWorkerProcessFn hpid _ _) fun _ => .update fun t ht => ?_
    exact ⟨ht.owed.invoke _ _ _, ht.linked.elsewhere, ht.placed.invokeNone _ _ _⟩

end

lemma serves_postWorker (spec : TaskSpec) (callback : CallbackID) (w : Worker) :
    ServesTo config (callback :: held) (w :: hand) nobody (postWorker spec callback w) held hand nobody :=
  .testing (.update fun _ h => h.postWorker .ok)

lemma mem_idle_of_findIdle {spec : TaskSpec} (h : p.findIdle spec = some w) :
    w ∈ p.idleOfAllLanguages.map Prod.fst := by
  obtain ⟨e, he, rfl⟩ := Option.map_eq_some_iff.mp h
  exact mem_map_of_mem (mem_reverse.mp (mem_of_find?_eq_some he))

lemma serves_popWorker (hpid : Function.Injective config.pidOf) (spec : TaskSpec) :
    ServesTo config held hand nobody (popWorker config spec) held hand nobody := by
  refine .read fun p₀ h₀ => ?_
  refine .bind (Q := fun _ t => Serves config (p₀.nextCallback :: held) hand nobody (Pool.requests t))
    (.updated h₀.takeCallback) fun _ => ?_
  refine .testing ?_
  refine .testing (.read fun p h => ?_)
  have hpre : ∀ t, t = p → Serves config (p₀.nextCallback :: held) hand nobody t.requests := by
    rintro t rfl
    exact h
  refine .ite (fun _ => ?_) fun _ => ?_
  · split
    case h_1 w hw =>
      refine .bind (.updated ?_) fun _ => serves_postWorker spec p₀.nextCallback w
      exact h.place (h.placed.move (moved_takeDedicated hand hw))
    · exact (serves_startOrCreateEnv hpid spec _).pre hpre
  · split
    case h_1 w hw =>
      refine .bind (.updated ?_) fun _ => serves_postWorker spec p₀.nextCallback w
      exact h.place (h.placed.move (moved_takeIdle hand (mem_idle_of_findIdle hw)))
    · exact (serves_startOrCreateEnv hpid spec _).pre hpre

lemma serving_subperm (hf : ∀ p, (f p).requests = { p.requests with idle := (f p).idleOfAllLanguages })
    (hidle : ∀ p, (f p).idleOfAllLanguages.Subperm p.idleOfAllLanguages) : Serving config (modify f) := by
  intro held hand exempt
  refine .update fun p h => ?_
  rw [hf p]
  exact h.place (h.placed.subperm (hidle p))

lemma serving_disconnectWorker (w : Worker) (intendedExit : Bool) :
    Serving config (disconnectWorker config w intendedExit) := by
  have h := @serving_elementary config
  apply h.seq (h.check _ _)
  refine h.bind h.get fun p => ?_
  apply h.seq (h.check _ _)
  refine h.seq (serving_subperm (fun _ => rfl) fun p => eraseP_sublist.subperm) ?_
  exact h.onlyIf fun _ => serving_update fun _ => rfl

lemma serving_keepsBooks : Elementary.KeepsBooks fun _ x => Serving config x := by
  intro f hf
  apply serving_update
  intro p
  obtain ⟨idle, map, pending, exits, hp⟩ := hf p
  rw [hp]
  rfl

lemma serving_checkIdleMap : Serving config checkIdleMap :=
  serving_composes.bind serving_elementary.get fun _ => serving_elementary.check _ _

lemma serving_tryKillingIdleWorkers (now : ℤ) : Serving config (tryKillingIdleWorkers config now) := by
  have h := @serving_elementary config
  refine h.seq serving_checkIdleMap (h.bind h.get fun p => ?_)
  apply h.seq (h.check _ _)
  refine h.bind (h.killIdleWorkers serving_keepsBooks now _ _) fun finished => ?_
  refine h.ite (fun _ => ?_) fun _ => h.pure ()
  exact h.seq (serving_subperm (fun _ => rfl) fun p => filter_sublist.subperm) serving_checkIdleMap

lemma serving_rotateIdle : Serving config rotateIdle := by
  intro held hand exempt
  refine .read fun p h => ?_
  split
  · exact .throw fun _ _ => trivial
  case h_2 e rest hlist =>
    refine .bind (.updated ?_) fun _ => serving_checkIdleMap held hand exempt
    refine h.place (h.placed.subperm ?_)
    exact (perm_append_singleton e rest).subperm.trans (hlist ▸ List.Subperm.refl _)

lemma serving_exitReply (i : ℕ) (refused : Bool) : Serving config (exitReply config i refused) := by
  have h := @serving_elementary config
  refine h.bind h.get fun p => ?_
  split
  · exact h.pure ()
  · refine h.seq (serving_update fun _ => rfl) ?_
    refine h.seq (h.ite (fun _ => serving_rotateIdle) fun _ => ?_) ?_
    · exact h.seq (h.check _ _) (serving_update fun _ => rfl)
    · refine h.bind h.get fun p => ?_
      exact h.seq (h.check _ _) (serving_update fun _ => rfl)

def Outside (p : Pool) (w : Worker) : Prop :=
  (∀ e ∈ p.idleOfAllLanguages, e.1 ≠ w) ∧ (∀ call ∈ p.posted, call.worker ≠ some w) ∧
    ∀ language taskId, (p.idleDedicatedWorkers language).lookup taskId ≠ some w

lemma Outside.places (h : p.Outside w) : p.requests.places w = 0 := places_eq_zero h.1 h.2.1 h.2.2

end Pool

/-- A worker announces its port once, under the process it was started with, and the node manager pushes workers that it
was given. -/
def Op.AsNodeManager (config : Config) : Op → Pool → Prop
  | .announceWorkerPort _ _ w, p =>
    w ∈ p.registeredWorkers w.language ∧ w ∉ p.connected ∧ w.shimPid = config.pidOf w.startupToken ∧ p.TypeMatches w
  | .pushWorker _ _ w, p => w ∈ p.connected ∧ p.Outside w
  | _, _ => True

open Pool in
lemma serves_run {config : Config} (hpid : Function.Injective config.pidOf) (op : Op) {p : Pool}
    (hop : op.AsNodeManager config p) (h : Serves config [] [] nobody p.requests) :
    Yields p (op.run config) fun _ t => Serves config [] [] nobody t.requests := by
  have hk := @serving_elementary config
  have hto {x : PoolM Unit} (hx : ServesTo config [] [] nobody x [] [] nobody) :
      Yields p x fun _ t => Serves config [] [] nobody t.requests := by
    apply hx.pre
    rintro t rfl
    exact h
  have hing {x : PoolM Unit} (hx : Serving config x) :
      Yields p x fun _ t => Serves config [] [] nobody t.requests := hto (hx _ _ _)
  cases op with
  | jobStarted => exact hing (serving_update fun _ => rfl)
  | jobFinished => exact hing (serving_update fun _ => rfl)
  | startWorkerProcess =>
    exact hing (hk.startWorkerProcesses (fun _ _ => serving_startWorkerProcess hpid _ _ _ _) _ _ 1)
  | prestartWorkers spec =>
    exact hing (hk.prestartWorkers (fun _ _ => serving_startWorkerProcess hpid _ _ _ _) spec _ _)
  | registerWorker w => exact hing (serving_registerWorker w _)
  | announceWorkerPort now answers =>
    obtain ⟨-, hconnected, hshim, htype⟩ := hop
    apply (serves_announceWorkerPort hpid now answers hshim).pre
    rintro t rfl
    exact ⟨h, htype, hconnected⟩
  | startupTimeout => exact hto (serves_startupTimeout hpid _ _ _)
  | pushWorker now answers w =>
    apply (serves_pushWorker now answers w).pre
    rintro t rfl
    have hpushed := h.pushed w
    refine (⟨hpushed.owed, hpushed.linked, hpushed.placed.take ?_ (fun hheld => hheld.1 rfl) hop.1⟩ :
      Serves config [] [w] nobody _).weaken _
    exact hop.2.places
  | popWorker => exact hto (serves_popWorker hpid _)
  | runPosted now answers i => exact hto (serves_runPosted _ _ i)
  | runtimeEnvReply answers i => exact hto (serves_runtimeEnvReply hpid _ i _)
  | disconnectWorker w => exact hing (serving_disconnectWorker w _)
  | tryKillingIdleWorkers => exact hing (serving_tryKillingIdleWorkers _)
  | exitReply i => exact hing (serving_exitReply i _)
  | popSpillWorker => exact hing (serving_popIOWorkerInternal hpid .spill _)
  | popRestoreWorker => exact hing (serving_popIOWorkerInternal hpid .restore _)
  | popDeleteWorker callback =>
    exact hing (hk.popDeleteWorker (serving_popIOWorkerInternal hpid) callback)
  | pushSpillWorker w => exact hing (serving_pushIOWorkerInternal w .spill)
  | pushRestoreWorker w => exact hing (serving_pushIOWorkerInternal w .restore)
  | pushDeleteWorker w =>
    exact hing (hk.pushDeleteWorker (fun _ _ => serving_update fun _ => rfl) (fun _ _ => serving_update fun _ => rfl) w)

lemma serves_start (config : Config) : Serves config [] [] Pool.nobody (Pool.requests {}) where
  owed c := rfl
  linked := ⟨nofun, nofun, fun _ _ => .inl rfl, nofun⟩
  placed := ⟨fun _ => Nat.zero_le 1, fun _ h => absurd h (lt_irrefl 0), fun _ h => h.elim, trivial⟩

namespace Pool

def invocations (p : Pool) (c : CallbackID) : ℕ := p.log.countP (Event.Invokes c)

def Awaits (p : Pool) (c : CallbackID) : Prop :=
  (∃ call ∈ p.posted, call.callback = c) ∨ (∃ request ∈ p.runtimeEnvRequests, request.callback = c) ∨
    ∃ language token process dedicated info, (p.startingWorkerProcesses language).lookup token = some process ∧
      (p.startingWorkersToTasks dedicated language).lookup process.proc = some info ∧ info.callback = c

lemma awaits_of_waits {config : Config} {p : Pool} {c : CallbackID} (hlinked : Linked config nobody p.requests)
    (h : p.requests.waits c ≠ 0) : p.Awaits c := by
  have hsum : p.requests.waits c = p.posted.countP (·.callback = c) + p.runtimeEnvRequests.countP (·.callback = c) +
      ∑ dedicated, ∑ language, Table.total (indicator c) (p.startingWorkersToTasks dedicated language) := rfl
  by_contra hnot
  refine h (hsum.trans ?_)
  have hposted : p.posted.countP (·.callback = c) = 0 := by
    refine countP_eq_zero.mpr fun call hcall hc => hnot (.inl ⟨call, hcall, of_decide_eq_true hc⟩)
  have henvs : p.runtimeEnvRequests.countP (·.callback = c) = 0 := by
    refine countP_eq_zero.mpr fun request hrequest hc => hnot (.inr (.inl ⟨request, hrequest, ?_⟩))
    exact of_decide_eq_true hc
  have htables : ∑ dedicated, ∑ language, Table.total (indicator c) (p.startingWorkersToTasks dedicated language) = 0 := by
    refine Finset.sum_eq_zero fun d _ => Finset.sum_eq_zero fun l _ => Table.total_eq_zero fun proc info hinfo => ?_
    refine if_neg fun hc => hnot (.inr (.inr ?_))
    rcases hlinked.linked d l proc info hinfo with hex | ⟨token, process, htoken, rfl, -⟩
    · exact hex.elim
    · exact ⟨l, token, process, d, info, htoken, hinfo, hc⟩
  rw [hposted, henvs, htables]

end Pool

variable {config : Config} {p : Pool}

/-- Every callback of `PopWorker` is invoked at most once, waits somewhere until it is, and is given a worker that no
other callback has. -/
theorem pop_requests_answered (hpid : Function.Injective config.pidOf)
    (h : Reaches (Op.run config) (Op.AsNodeManager config) {} p) :
    (∀ c, p.invocations c ≤ 1) ∧ (∀ c < p.nextCallback, p.invocations c = 0 → p.Awaits c) ∧ Exclusive p.log := by
  have hserves : Serves config [] [] Pool.nobody p.requests :=
    h.invariant (I := fun p => Serves config [] [] Pool.nobody p.requests) (serves_start config)
      fun op _ hop hs => serves_run hpid op hop hs
  have howed (c : CallbackID) : p.requests.waits c + p.invocations c = if c < p.nextCallback then 1 else 0 := hserves.owed c
  refine ⟨fun c => ?_, fun c hc hzero => ?_, hserves.placed.exclusive⟩
  · have hle : p.requests.waits c + p.invocations c ≤ 1 := by
      rw [howed c]
      split <;> decide
    omega
  · apply Pool.awaits_of_waits hserves.linked
    have hone := howed c
    rw [if_pos hc] at hone
    omega

instance (p : Pool) (w : Worker) : Decidable (p.Outside w) :=
  decidable_of_iff ((∀ e ∈ p.idleOfAllLanguages, e.1 ≠ w) ∧ (∀ call ∈ p.posted, call.worker ≠ some w) ∧
    ∀ language, ∀ e ∈ (p.idleDedicatedWorkers language).entries, e.2 ≠ w) <| by
      refine and_congr_right fun _ => and_congr_right fun _ => forall_congr' fun language => ⟨fun h taskId hw => ?_, fun h e he => ?_⟩
      · exact h ⟨taskId, w⟩ (Table.mem_entries_iff.mpr hw) rfl
      · rintro rfl
        exact h e.1 (Table.mem_entries_iff.mp he)

instance (p : Pool) (w : Worker) : Decidable (p.TypeMatches w) :=
  inferInstanceAs (Decidable (∀ info ∈ (p.startingWorkerProcesses w.language).lookup w.startupToken, _))

instance (op : Op) (p : Pool) : Decidable (op.AsNodeManager config p) := by
  cases op <;> (unfold Op.AsNodeManager; infer_instance)

def smallPool : Config where
  languages := [.python, .java]
  maximumStartupConcurrency := 4
  numWorkersSoftLimit := 0
  idleWorkerKillingTimeThresholdMs := 10
  maxIoWorkers := 1
  pidOf token := 100 + token

lemma smallPool_pidOf_injective : Function.Injective smallPool.pidOf := fun _ _ h => Nat.add_left_cancel h

/-- A Java process of two workers is started for a task. The first worker that registers is handed to it, and a
second task gets the other one. -/
theorem pop_requests_answered_java :
    ∃ p, Reaches (Op.run smallPool) (Op.AsNodeManager smallPool) {} p ∧ p.invocations 0 = 1 ∧ p.invocations 1 = 1 ∧
      (∀ c < p.nextCallback, p.invocations c = 0 → p.Awaits c) ∧ Exclusive p.log := by
  let first : Worker := ⟨1, .java, .worker, 0, 0, 0, 100, 100⟩
  let second : Worker := ⟨2, .java, .worker, 0, 0, 0, 100, 100⟩
  refine exists_after [.jobStarted 0 2, .popWorker ⟨7, .java, 0, false, false, false, 0⟩, .registerWorker first true,
        .registerWorker second true, .announceWorkerPort 0 (fun _ => true) first,
        .announceWorkerPort 1 (fun _ => true) second, .popWorker ⟨8, .java, 0, false, false, false, 0⟩,
        .runPosted 2 (fun _ => true) 0]
    (fun p => (p.invocations 0, p.invocations 1)) (1, 1)
    (by decide +kernel) fun _ hp hv => ?_
  simp only [Prod.mk.injEq] at hv
  exact ⟨hv.1, hv.2, (pop_requests_answered smallPool_pidOf_injective hp).2⟩

end AmazonRay.WorkerPool
