import AmazonRay.Lib.Runs
import AmazonRay.Lib.Table
import AmazonRay.WorkerPool.Programs

/-! The requests of `PopWorker`: a callback waits in one place until it is invoked, and workers come from one place. -/
namespace AmazonRay.WorkerPool
open Program Families List Table Option Nat

def Event.Invokes (c : CallbackID) : Event → Bool
  | .invoked callback _ _ _ => callback = c
  | .pushed _ => false

def Held (w : Worker) : List Event → Prop
  | [] => False
  | .invoked _ (some (x, _)) _ used :: log => if x = w then used = true else Held w log
  | .invoked _ none _ _ :: log => Held w log
  | .pushed x :: log => x ≠ w ∧ Held w log

def Exclusive : List Event → Prop
  | [] => True
  | .invoked _ (some (w, _)) _ _ :: log => ¬Held w log ∧ Exclusive log
  | .invoked _ none _ _ :: log => Exclusive log
  | .pushed _ :: log => Exclusive log

structure Requests where
  posted : List PostedCallback
  envs : List RuntimeEnvRequest
  waiting : Bool → Language → AList fun _ : Pid => TaskWaitingForWorkerInfo
  starting : Language → AList fun _ : StartupToken => StartingWorkerProcessInfo
  counter : StartupToken
  idle : List (Worker × ℤ)
  dedicated : Language → AList fun _ : TaskID => Worker
  connected : List Worker
  nextCallback : CallbackID
  log : List Event

def Pool.requests (p : Pool) : Requests where
  posted := p.posted
  envs := p.runtimeEnvRequests
  waiting := p.startingWorkersToTasks
  starting := p.startingWorkerProcesses
  counter := p.workerStartupTokenCounter
  idle := p.idleOfAllLanguages
  dedicated := p.idleDedicatedWorkers
  connected := p.connected
  nextCallback := p.nextCallback
  log := p.log

namespace Requests

def invocations (r : Requests) (c : CallbackID) : ℕ := r.log.countP (Event.Invokes c)

def indicator (c : CallbackID) (_ : Pid) (info : TaskWaitingForWorkerInfo) : ℕ := if info.callback = c then 1 else 0

def waits (r : Requests) (c : CallbackID) : ℕ :=
  r.posted.countP (·.callback = c) + r.envs.countP (·.callback = c) +
    ∑ dedicated, ∑ language, Table.total (indicator c) (r.waiting dedicated language)

/-- Every callback waits once or was invoked once, but for those in hand. -/
def Owed (held : List CallbackID) (r : Requests) : Prop :=
  ∀ c, r.waits c + r.invocations c + held.count c = if c < r.nextCallback then 1 else 0

section

variable {r : Requests} {held : List CallbackID} {c : CallbackID} {language : Language} {dedicated : Bool} {proc : Pid}

lemma Owed.invoke (h : Owed (c :: held) r) (worker : Option (Worker × Bool)) (status : PopWorkerStatus)
    (used : Bool) : Owed held { r with log := .invoked c worker status used :: r.log } := by
  intro x
  have hx := h x
  simp only [invocations, waits, count_cons, countP_cons, Event.Invokes, beq_iff_eq, decide_eq_true_eq] at hx ⊢
  omega

lemma Owed.push (h : Owed held r) (w : Worker) : Owed held { r with log := .pushed w :: r.log } := by
  intro x
  have hx := h x
  simp only [invocations, waits, countP_cons, Event.Invokes] at hx ⊢
  exact hx

lemma Owed.post (h : Owed (c :: held) r) (worker : Option Worker) (status : PopWorkerStatus) :
    Owed held { r with posted := r.posted ++ [⟨c, worker, status⟩] } := by
  intro x
  have hx := h x
  simp only [invocations, waits, count_cons, countP_append, countP_singleton, beq_iff_eq, decide_eq_true_eq] at hx ⊢
  omega

lemma Owed.takePosted {i : ℕ} {call : PostedCallback} (h : Owed held r) (hi : r.posted[i]? = some call) :
    Owed (call.callback :: held) { r with posted := r.posted.eraseIdx i } := by
  intro x
  have hx := h x
  simp only [invocations, waits, count_cons, countP_eraseIdx hi, beq_iff_eq, decide_eq_true_eq] at hx ⊢
  omega

lemma Owed.request (h : Owed (c :: held) r) (spec : TaskSpec) : Owed held { r with envs := r.envs ++ [⟨spec, c⟩] } := by
  intro x
  have hx := h x
  simp only [invocations, waits, count_cons, countP_append, countP_singleton, beq_iff_eq, decide_eq_true_eq] at hx ⊢
  omega

lemma Owed.takeRequest {i : ℕ} {request : RuntimeEnvRequest} (h : Owed held r) (hi : r.envs[i]? = some request) :
    Owed (request.callback :: held) { r with envs := r.envs.eraseIdx i } := by
  intro x
  have hx := h x
  simp only [invocations, waits, count_cons, countP_eraseIdx hi, beq_iff_eq, decide_eq_true_eq] at hx ⊢
  omega

lemma Owed.wait {taskId : TaskID} (h : Owed (c :: held) r)
    (hfree : (r.waiting dedicated language).lookup proc = none) : Owed held { r with
      waiting := adjust dedicated (adjust language (·.insert proc ⟨taskId, c⟩)) r.waiting } := by
  intro x
  have hx := h x
  have hsum := sum_adjust₂ language (·.insert proc ⟨taskId, c⟩) dedicated r.waiting (total (indicator x))
  have hone : indicator x proc ⟨taskId, c⟩ = if c = x then 1 else 0 := rfl
  rw [total_insert, total_erase_of_lookup_none hfree, hone] at hsum
  simp only [invocations, waits, count_cons, beq_iff_eq] at hx ⊢
  omega

lemma Owed.takeWaiting {info : TaskWaitingForWorkerInfo}
    (h : Owed held r) (hinfo : (r.waiting dedicated language).lookup proc = some info) :
    Owed (info.callback :: held) { r with
      waiting := adjust dedicated (adjust language (·.erase proc)) r.waiting } := by
  intro x
  have hx := h x
  have hsum := sum_adjust₂ language (·.erase proc) dedicated r.waiting (total (indicator x))
  have hone : indicator x proc info = if info.callback = x then 1 else 0 := rfl
  rw [total_of_lookup hinfo, hone] at hsum
  simp only [invocations, waits, count_cons, beq_iff_eq] at hx ⊢
  omega

lemma Owed.take (h : Owed held r) : Owed (r.nextCallback :: held) { r with nextCallback := r.nextCallback + 1 } := by
  intro x
  have hx := h x
  simp only [invocations, waits, count_cons, beq_iff_eq] at hx ⊢
  rcases lt_trichotomy x r.nextCallback with hlt | rfl | hlt
  · rw [if_pos hlt] at hx
    rw [if_neg hlt.ne', if_pos (lt_succ_of_lt hlt)]
    omega
  · rw [if_neg (lt_irrefl _)] at hx
    rw [if_pos rfl, if_pos (lt_succ_self _)]
    omega
  · rw [if_neg hlt.not_gt] at hx
    rw [if_neg hlt.ne, if_neg (not_lt.mpr hlt)]
    omega

end

/-- Callbacks that wait for a process wait under a starting one, but for the exempt ones. -/
structure Linked (config : Config) (exempt : Language → Pid → Prop) (r : Requests) : Prop where
  started : ∀ l token info, (r.starting l).lookup token = some info → token < r.counter ∧ info.proc = config.pidOf token
  keyed : ∀ d l proc info, (r.waiting d l).lookup proc = some info → ∃ token < r.counter, proc = config.pidOf token
  separate : ∀ l proc, (r.waiting true l).lookup proc = none ∨ (r.waiting false l).lookup proc = none
  linked : ∀ d l proc info, (r.waiting d l).lookup proc = some info → exempt l proc ∨
    ∃ token process, (r.starting l).lookup token = some process ∧ process.proc = proc ∧ process.workerType = .worker

section

variable {config : Config} {exempt : Language → Pid → Prop} {r : Requests} {token : StartupToken} {language : Language} {exempt' : Language → Pid → Prop} {process : StartingWorkerProcessInfo}

section

variable (h : Linked config exempt r)
include h

lemma Linked.restart {starting : Language → AList fun _ : StartupToken =>
    StartingWorkerProcessInfo} {counter : StartupToken} (hcounter : r.counter ≤ counter)
    (hstarted : ∀ l token info, (starting l).lookup token = some info → token < counter ∧ info.proc = config.pidOf token)
    (hkept : ∀ l token info, (r.starting l).lookup token = some info → info.workerType = .worker →
      exempt' l info.proc ∨ ∃ info', (starting l).lookup token = some info' ∧ info'.proc = info.proc ∧
        info'.workerType = .worker) (hexempt : ∀ l proc, exempt l proc → exempt' l proc) :
    Linked config exempt' { r with starting := starting, counter := counter } where
  started := hstarted
  keyed d l proc info hinfo := by
    obtain ⟨token, htoken, hproc⟩ := h.keyed d l proc info hinfo
    exact ⟨token, htoken.trans_le hcounter, hproc⟩
  separate := h.separate
  linked d l proc info hinfo := by
    rcases h.linked d l proc info hinfo with hex | ⟨token, process, htoken, hproc, htype⟩
    · exact .inl (hexempt l proc hex)
    · subst hproc
      rcases hkept l token process htoken htype with hex | ⟨process', htoken', hproc', htype'⟩
      · exact .inl hex
      · exact .inr ⟨token, process', htoken', hproc', htype'⟩

lemma Linked.start (language : Language) (numWorkers : ℤ) (workerType : WorkerType) : Linked config exempt { r with
      starting := adjust language (·.insert r.counter ⟨numWorkers, numWorkers, workerType, config.pidOf r.counter⟩)
        r.starting
      counter := r.counter + 1 } := by
  refine h.restart (le_succ _) (fun l token info hinfo => ?_) (fun l token info hinfo htype => ?_) fun _ _ hex => hex
  · rcases lookup_of_adjust_insert hinfo with ⟨-, rfl, rfl⟩ | hinfo
    · exact ⟨lt_succ_self _, rfl⟩
    · obtain ⟨htoken, hproc⟩ := h.started l token info hinfo
      exact ⟨lt_succ_of_lt htoken, hproc⟩
  · refine .inr ⟨info, ?_, rfl, htype⟩
    rw [lookup_adjust_insert, if_neg]
    · exact hinfo
    · rintro ⟨-, rfl⟩
      exact (lt_irrefl _ (h.started l _ info hinfo).1).elim

lemma Linked.finish (exempt' : Language → Pid → Prop) (hexempt : ∀ l proc, exempt l proc → exempt' l proc)
    (hown : ∀ info, (r.starting language).lookup token = some info → info.workerType = .worker →
      exempt' language info.proc) :
    Linked config exempt' { r with starting := adjust language (·.erase token) r.starting } := by
  refine h.restart le_rfl (fun l x info hinfo => ?_) (fun l x info hinfo htype => ?_) hexempt
  · exact h.started l x info (lookup_of_adjust_erase hinfo)
  · by_cases hx : l = language ∧ x = token
    · obtain ⟨rfl, rfl⟩ := hx
      exact .inl (hown info hinfo htype)
    · refine .inr ⟨info, ?_, rfl, htype⟩
      rw [lookup_adjust_erase, if_neg hx]
      exact hinfo

lemma Linked.countDown (htoken : (r.starting language).lookup token = some process) (n : ℤ) :
    Linked config exempt { r with
      starting := adjust language (·.insert token { process with numStartingWorkers := n }) r.starting } := by
  refine h.restart le_rfl (fun l x info hinfo => ?_) (fun l x info hinfo htype => ?_) fun _ _ hex => hex
  · rcases lookup_of_adjust_insert hinfo with ⟨rfl, rfl, rfl⟩ | hinfo
    · exact h.started l x process htoken
    · exact h.started l x info hinfo
  · by_cases hx : l = language ∧ x = token
    · obtain ⟨rfl, rfl⟩ := hx
      obtain rfl := some.inj (htoken.symm.trans hinfo)
      refine .inr ⟨{ process with numStartingWorkers := n }, ?_, rfl, htype⟩
      rw [lookup_adjust_insert, if_pos ⟨rfl, rfl⟩]
    · refine .inr ⟨info, ?_, rfl, htype⟩
      rw [lookup_adjust_insert, if_neg hx]
      exact hinfo

end

lemma lookup_adjust₂ (f : AList (fun _ : Pid => TaskWaitingForWorkerInfo) → AList fun _ : Pid => TaskWaitingForWorkerInfo)
    (waiting : Bool → Language → AList fun _ : Pid => TaskWaitingForWorkerInfo) (d d' : Bool) (l l' : Language) :
    adjust d (adjust l f) waiting d' l' = if d' = d ∧ l' = l then f (waiting d' l') else waiting d' l' := by
  rw [adjust_apply]
  by_cases hd : d' = d
  · rw [if_pos hd, adjust_apply]
    simp [hd]
  · rw [if_neg hd, if_neg fun h => hd h.1]

variable (h : Linked config exempt r)
include h

lemma Linked.take (dedicated : Bool) (language : Language) (proc : Pid) : Linked config exempt { r with
      waiting := adjust dedicated (adjust language (·.erase proc)) r.waiting } := by
  have hsub (d : Bool) (l : Language) (x : Pid) (info : TaskWaitingForWorkerInfo)
      (hinfo : (adjust dedicated (adjust language (·.erase proc)) r.waiting d l).lookup x = some info) :
      (r.waiting d l).lookup x = some info := by
    rw [lookup_adjust₂] at hinfo
    split at hinfo
    · obtain ⟨-, hinfo⟩ := lookup_of_erase hinfo
      exact hinfo
    · exact hinfo
  have hnone (d : Bool) (l : Language) (x : Pid) (hx : (r.waiting d l).lookup x = none) :
      (adjust dedicated (adjust language (·.erase proc)) r.waiting d l).lookup x = none := by
    rw [eq_none_iff_forall_ne_some]
    intro info hinfo
    rw [hsub d l x info hinfo] at hx
    cases hx
  refine ⟨h.started, fun d l x info hinfo => h.keyed d l x info (hsub d l x info hinfo), fun l x => ?_,
    fun d l x info hinfo => h.linked d l x info (hsub d l x info hinfo)⟩
  exact (h.separate l x).imp (hnone true l x) (hnone false l x)

lemma Linked.wait {dedicated : Bool} (info : TaskWaitingForWorkerInfo)
    (htoken : (r.starting language).lookup token = some process) (htype : process.workerType = .worker)
    (hfree : ∀ d, (r.waiting d language).lookup process.proc = none) : Linked config exempt { r with
      waiting := adjust dedicated (adjust language (·.insert process.proc info)) r.waiting } := by
  have hlookup (d : Bool) (l : Language) (x : Pid) :
      (adjust dedicated (adjust language (·.insert process.proc info)) r.waiting d l).lookup x =
        if (d = dedicated ∧ l = language) ∧ x = process.proc then some info else (r.waiting d l).lookup x := by
    rw [lookup_adjust₂]
    by_cases hdl : d = dedicated ∧ l = language
    · rw [if_pos hdl, lookup_insert]
      simp [hdl]
    · rw [if_neg hdl, if_neg fun hc => hdl hc.1]
  refine ⟨h.started, fun d l x i hi => ?_, fun l x => ?_, fun d l x i hi => ?_⟩
  · rw [hlookup] at hi
    split at hi
    case isTrue hnew =>
      obtain ⟨hlt, hproc⟩ := h.started language token process htoken
      exact ⟨token, hlt, hnew.2.trans hproc⟩
    · exact h.keyed d l x i hi
  · simp only [hlookup]
    by_cases hx : l = language ∧ x = process.proc
    · obtain ⟨rfl, rfl⟩ := hx
      cases dedicated with
      | true =>
        refine .inr ?_
        rw [if_neg fun hc => (nomatch hc.1.1)]
        exact hfree false
      | false =>
        refine .inl ?_
        rw [if_neg fun hc => (nomatch hc.1.1)]
        exact hfree true
    · have hne (d : Bool) : ¬((d = dedicated ∧ l = language) ∧ x = process.proc) := fun hc => hx ⟨hc.1.2, hc.2⟩
      rw [if_neg (hne true), if_neg (hne false)]
      exact h.separate l x
  · rw [hlookup] at hi
    split at hi
    case isTrue hnew =>
      obtain ⟨⟨-, rfl⟩, rfl⟩ := hnew
      exact .inr ⟨token, process, htoken, rfl, htype⟩
    · exact h.linked d l x i hi

lemma Linked.elsewhere {posted : List PostedCallback} {envs : List RuntimeEnvRequest}
    {idle : List (Worker × ℤ)} {dedicated : Language → AList fun _ : TaskID => Worker} {connected : List Worker}
    {nextCallback : CallbackID} {log : List Event} : Linked config exempt { r with
      posted := posted, envs := envs, idle := idle, dedicated := dedicated, connected := connected,
      nextCallback := nextCallback, log := log } := { h with }

lemma Linked.settle (hex : ∀ l proc, exempt l proc → exempt' l proc ∨ ∀ d, (r.waiting d l).lookup proc = none) :
    Linked config exempt' r := by
  refine ⟨h.started, h.keyed, h.separate, fun d l proc info hinfo => ?_⟩
  rcases h.linked d l proc info hinfo with hx | hprocess
  · rcases hex l proc hx with hx' | hnone
    · exact .inl hx'
    · rw [hnone d] at hinfo
      cases hinfo
  · exact .inr hprocess

end

def holds (w : Worker) (_ : TaskID) (x : Worker) : ℕ := if x = w then 1 else 0

def places (r : Requests) (w : Worker) : ℕ :=
  r.idle.countP (·.1 = w) + r.posted.countP (·.worker = some w) + ∑ language, Table.total (holds w) (r.dedicated language)

lemma places_eq_zero {r : Requests} {w : Worker} (hidle : ∀ e ∈ r.idle, e.1 ≠ w)
    (hposted : ∀ call ∈ r.posted, call.worker ≠ some w)
    (hdedicated : ∀ language taskId, (r.dedicated language).lookup taskId ≠ some w) : r.places w = 0 := by
  have hidle : r.idle.countP (·.1 = w) = 0 := countP_eq_zero.mpr fun e he => decide_eq_true_iff.not.mpr (hidle e he)
  have hposted : r.posted.countP (·.worker = some w) = 0 :=
    countP_eq_zero.mpr fun call hcall => decide_eq_true_iff.not.mpr (hposted call hcall)
  have hdedicated : ∑ language, total (holds w) (r.dedicated language) = 0 := by
    refine Finset.sum_eq_zero fun language _ => total_eq_zero fun taskId x hx => if_neg ?_
    rintro rfl
    exact hdedicated language taskId hx
  rw [places, hidle, hposted, hdedicated]

/-- Every worker is in one place or in hand, where no callback has it. -/
structure Placed (hand : List Worker) (r : Requests) : Prop where
  once : ∀ w, r.places w + hand.count w ≤ 1
  free : ∀ w, 0 < r.places w + hand.count w → ¬Held w r.log ∧ w ∈ r.connected
  holders : ∀ w, Held w r.log → w ∈ r.connected
  exclusive : Exclusive r.log

section

variable {r : Requests} {hand hand' : List Worker} {w : Worker} {idle : List (Worker × ℤ)}

def Moved (hand' : List Worker) (r' : Requests) (hand : List Worker) (r : Requests) : Prop :=
  ∀ x, r'.places x + hand'.count x ≤ r.places x + hand.count x

lemma Placed.move (h : Placed hand r) {posted : List PostedCallback}
    {dedicated : Language → AList fun _ : TaskID => Worker}
    (hle : Moved hand' { r with posted := posted, idle := idle, dedicated := dedicated } hand r) :
    Placed hand' { r with posted := posted, idle := idle, dedicated := dedicated } where
  once x := (hle x).trans (h.once x)
  free x hx := h.free x (hx.trans_le (hle x))
  holders := h.holders
  exclusive := h.exclusive

lemma Placed.elsewhere (h : Placed hand r) {envs : List RuntimeEnvRequest}
    {waiting : Bool → Language → AList fun _ : Pid => TaskWaitingForWorkerInfo}
    {starting : Language → AList fun _ : StartupToken => StartingWorkerProcessInfo} {counter : StartupToken}
    {nextCallback : CallbackID} : Placed hand { r with
      envs := envs, waiting := waiting, starting := starting, counter := counter, nextCallback := nextCallback } :=
  { h with }

lemma moved_takeIdle (hand : List Worker) (hw : w ∈ r.idle.map Prod.fst) :
    Moved (w :: hand) { r with idle := r.idle.eraseP (·.1 = w) } hand r := by
  intro x
  obtain ⟨e, he, rfl⟩ := mem_map.mp hw
  obtain ⟨a, -, ha, hcount⟩ := exists_countP_eraseP (p := fun a => decide (a.1 = e.1)) he (decide_eq_true rfl)
  have ha : a.1 = e.1 := of_decide_eq_true ha
  simp only [places, hcount, ha, count_cons, beq_iff_eq, decide_eq_true_eq]
  omega

lemma moved_subperm (hand : List Worker) (hidle : idle.Subperm r.idle) : Moved hand { r with idle := idle } hand r := by
  intro x
  have hle := hidle.countP_le fun e => decide (e.1 = x)
  simp only [places]
  omega

lemma Placed.subperm (h : Placed hand r) (hidle : idle.Subperm r.idle) :
    Placed hand { r with idle := idle } := h.move (moved_subperm hand hidle)

lemma moved_putIdle (hand : List Worker) (w : Worker) (now : ℤ) :
    Moved hand { r with idle := r.idle ++ [(w, now)] } (w :: hand) r := by
  intro x
  simp only [places, countP_append, countP_singleton, count_cons, beq_iff_eq, decide_eq_true_eq]
  omega

lemma moved_takePosted (hand : List Worker) {i : ℕ} {call : PostedCallback} (hi : r.posted[i]? = some call) :
    Moved (call.worker.toList ++ hand) { r with posted := r.posted.eraseIdx i } hand r := by
  intro x
  simp only [places, countP_eraseIdx hi, count_append, decide_eq_true_eq]
  cases call.worker with
  | none =>
    simp only [toList_none, count_nil, reduceCtorEq, if_false]
    omega
  | some w =>
    simp only [toList_some, count_singleton, some.injEq, beq_iff_eq]
    omega

lemma moved_putPosted (hand : List Worker) (w : Worker) (c : CallbackID) (status : PopWorkerStatus) :
    Moved hand { r with posted := r.posted ++ [⟨c, some w, status⟩] } (w :: hand) r := by
  intro x
  simp only [places, countP_append, countP_singleton, count_cons, some.injEq, beq_iff_eq, decide_eq_true_eq]
  omega

lemma moved_postNone (hand : List Worker) (c : CallbackID) (status : PopWorkerStatus) :
    Moved hand { r with posted := r.posted ++ [⟨c, none, status⟩] } hand r := by
  intro x
  simp only [places, countP_append, countP_singleton, reduceCtorEq, decide_false, Bool.false_eq_true, if_false]
  omega

lemma moved_takeDedicated (hand : List Worker) {language : Language} {taskId : TaskID}
    (hw : (r.dedicated language).lookup taskId = some w) :
    Moved (w :: hand) { r with dedicated := adjust language (·.erase taskId) r.dedicated } hand r := by
  intro x
  have hsum := sum_adjust language (·.erase taskId) r.dedicated (total (holds x))
  have hone : holds x taskId w = if w = x then 1 else 0 := rfl
  rw [total_of_lookup hw, hone] at hsum
  simp only [places, count_cons, beq_iff_eq]
  omega

lemma moved_putDedicated (hand : List Worker) (w : Worker) (language : Language) (taskId : TaskID) :
    Moved hand { r with dedicated := adjust language (·.insert taskId w) r.dedicated } (w :: hand) r := by
  intro x
  have hsum := sum_adjust language (·.insert taskId w) r.dedicated (total (holds x))
  have hone : holds x taskId w = if w = x then 1 else 0 := rfl
  have hle : total (holds x) ((r.dedicated language).erase taskId) ≤ total (holds x) (r.dedicated language) := by
    cases hold : (r.dedicated language).lookup taskId with
    | none => rw [total_erase_of_lookup_none hold]
    | some old =>
      rw [total_of_lookup hold]
      exact le_add_left _ _
  rw [total_insert, hone] at hsum
  simp only [places, count_cons, beq_iff_eq]
  omega

lemma Placed.pushed (h : Placed hand r) (w : Worker) : Placed hand { r with log := .pushed w :: r.log } where
  once := h.once
  free x hx := ⟨fun hheld => (h.free x hx).1 hheld.2, (h.free x hx).2⟩
  holders x hheld := h.holders x hheld.2
  exclusive := h.exclusive

lemma Placed.take (h : Placed hand r) (hzero : r.places w + hand.count w = 0) (hheld : ¬Held w r.log)
    (hw : w ∈ r.connected) : Placed (w :: hand) r := by
  have hcount (x : Worker) (hx : w ≠ x) : (w :: hand).count x = hand.count x := count_cons_of_ne hx
  refine ⟨fun x => ?_, fun x hx => ?_, h.holders, h.exclusive⟩
  · by_cases hx : w = x
    · subst hx
      rw [count_cons_self]
      omega
    · rw [hcount x hx]
      exact h.once x
  · by_cases hxw : w = x
    · subst hxw
      exact ⟨hheld, hw⟩
    · rw [hcount x hxw] at hx
      exact h.free x hx

lemma Placed.invokeNone (h : Placed hand r) (c : CallbackID) (status : PopWorkerStatus) (used : Bool) :
    Placed hand { r with log := .invoked c none status used :: r.log } :=
  { h with }

lemma Placed.invoke (h : Placed (w :: hand) r) (c : CallbackID) (registered : Bool) (status : PopWorkerStatus)
    (used : Bool) : Placed (if used then hand else w :: hand)
      { r with log := .invoked c (some (w, registered)) status used :: r.log } := by
  have hpos : 0 < r.places w + (w :: hand).count w := by
    rw [count_cons_self]
    omega
  obtain ⟨hfree, hconnected⟩ := h.free w hpos
  have hle (x : Worker) : (if used then hand else w :: hand).count x ≤ (w :: hand).count x := by
    cases used with
    | true => exact (sublist_cons_self w hand).count_le x
    | false => exact le_rfl
  refine ⟨fun x => (Nat.add_le_add_left (hle x) _).trans (h.once x), fun x hx => ?_, fun x hheld => ?_,
    hfree, h.exclusive⟩
  · obtain ⟨hnot, hx'⟩ := h.free x (hx.trans_le (Nat.add_le_add_left (hle x) _))
    refine ⟨fun hheld => ?_, hx'⟩
    by_cases hwx : w = x
    · -- a used worker is in no place
      subst hwx
      rw [Held, if_pos rfl] at hheld
      subst hheld
      have honce := h.once w
      rw [count_cons_self] at honce
      simp only [if_true] at hx
      have hx : 0 < r.places w + hand.count w := hx
      omega
    · rw [Held, if_neg hwx] at hheld
      exact hnot hheld
  · by_cases hwx : w = x
    · exact hwx ▸ hconnected
    · rw [Held, if_neg hwx] at hheld
      exact h.holders x hheld

lemma Placed.connect (h : Placed hand r) (hw : w ∉ r.connected) :
    Placed (w :: hand) { r with connected := r.connected.insert w } := by
  have hplaced : Placed hand { r with connected := r.connected.insert w } :=
    ⟨h.once, fun x hx => ⟨(h.free x hx).1, mem_insert_of_mem (h.free x hx).2⟩,
      fun x hheld => mem_insert_of_mem (h.holders x hheld), h.exclusive⟩
  refine hplaced.take ?_ (fun hheld => hw (h.holders w hheld)) mem_insert_self
  by_contra hpos
  exact hw (h.free w (Nat.pos_of_ne_zero hpos)).2

lemma Placed.drop (h : Placed (w :: hand) r) : Placed hand r where
  once x := (Nat.add_le_add_left ((sublist_cons_self w hand).count_le x) _).trans (h.once x)
  free x hx := h.free x (hx.trans_le (Nat.add_le_add_left ((sublist_cons_self w hand).count_le x) _))
  holders := h.holders
  exclusive := h.exclusive

end

/-- Callbacks and workers are in place, but for those in hand and the exempt processes. -/
structure Serves (config : Config) (held : List CallbackID) (hand : List Worker) (exempt : Language → Pid → Prop)
    (r : Requests) : Prop where
  owed : Owed held r
  linked : Linked config exempt r
  placed : Placed hand r

variable {config : Config} {held : List CallbackID} {hand : List Worker} {exempt : Language → Pid → Prop} {r : Requests}
  {c : CallbackID} {w : Worker} {language : Language} {dedicated : Bool}

lemma Serves.start (h : Serves config held hand exempt r) (language : Language) (numWorkers : ℤ)
    (workerType : WorkerType) : Serves config held hand exempt { r with
      starting := adjust language (·.insert r.counter ⟨numWorkers, numWorkers, workerType, config.pidOf r.counter⟩)
        r.starting
      counter := r.counter + 1 } :=
  ⟨h.owed, h.linked.start language numWorkers workerType, h.placed.elsewhere⟩

lemma Serves.settle {exempt' : Language → Pid → Prop} (h : Serves config held hand exempt r)
    (hex : ∀ l proc, exempt l proc → exempt' l proc ∨ ∀ d, (r.waiting d l).lookup proc = none) :
    Serves config held hand exempt' r := ⟨h.owed, h.linked.settle hex, h.placed⟩

lemma Serves.invoke {worker : Option Worker} (h : Serves config (c :: held) (worker.toList ++ hand) exempt r)
    (registered : Worker → Bool) (status : PopWorkerStatus) (used : Bool) :
    Serves config held (if used then hand else worker.toList ++ hand) exempt
      { r with log := .invoked c (worker.map fun w => (w, registered w)) status used :: r.log } := by
  refine ⟨h.owed.invoke _ status used, h.linked.elsewhere, ?_⟩
  cases worker with
  | none =>
    have hplaced := h.placed.invokeNone c status used
    cases used with
    | true => exact hplaced
    | false => exact hplaced
  | some w => exact h.placed.invoke c (registered w) status used

lemma Serves.pushed (h : Serves config held hand exempt r) (w : Worker) :
    Serves config held hand exempt { r with log := .pushed w :: r.log } :=
  ⟨h.owed.push w, h.linked.elsewhere, h.placed.pushed w⟩

lemma Serves.postNone (h : Serves config (c :: held) hand exempt r) (status : PopWorkerStatus) :
    Serves config held hand exempt { r with posted := r.posted ++ [⟨c, none, status⟩] } :=
  ⟨h.owed.post none status, h.linked.elsewhere, h.placed.move (moved_postNone hand c status)⟩

lemma Serves.postWorker (h : Serves config (c :: held) (w :: hand) exempt r) (status : PopWorkerStatus) :
    Serves config held hand exempt { r with posted := r.posted ++ [⟨c, some w, status⟩] } :=
  ⟨h.owed.post (some w) status, h.linked.elsewhere, h.placed.move (moved_putPosted hand w c status)⟩

lemma Serves.takePosted {i : ℕ} {call : PostedCallback} (h : Serves config held hand exempt r)
    (hi : r.posted[i]? = some call) : Serves config (call.callback :: held) (call.worker.toList ++ hand) exempt
      { r with posted := r.posted.eraseIdx i } :=
  ⟨h.owed.takePosted hi, h.linked.elsewhere, h.placed.move (moved_takePosted hand hi)⟩

lemma Serves.request (h : Serves config (c :: held) hand exempt r) (spec : TaskSpec) :
    Serves config held hand exempt { r with envs := r.envs ++ [⟨spec, c⟩] } :=
  ⟨h.owed.request spec, h.linked.elsewhere, h.placed.elsewhere⟩

lemma Serves.takeRequest {i : ℕ} {request : RuntimeEnvRequest} (h : Serves config held hand exempt r)
    (hi : r.envs[i]? = some request) : Serves config (request.callback :: held) hand exempt
      { r with envs := r.envs.eraseIdx i } :=
  ⟨h.owed.takeRequest hi, h.linked.elsewhere, h.placed.elsewhere⟩

lemma Serves.wait {token : StartupToken}
    {process : StartingWorkerProcessInfo} {taskId : TaskID} (h : Serves config (c :: held) hand exempt r)
    (htoken : (r.starting language).lookup token = some process) (htype : process.workerType = .worker)
    (hfree : ∀ d, (r.waiting d language).lookup process.proc = none) : Serves config held hand exempt { r with
      waiting := adjust dedicated (adjust language (·.insert process.proc ⟨taskId, c⟩)) r.waiting } :=
  ⟨h.owed.wait (hfree dedicated), h.linked.wait _ htoken htype hfree, h.placed.elsewhere⟩

lemma Serves.takeWaiting {proc : Pid} {info : TaskWaitingForWorkerInfo}
    (h : Serves config held hand exempt r) (hinfo : (r.waiting dedicated language).lookup proc = some info) :
    Serves config (info.callback :: held) hand exempt { r with
      waiting := adjust dedicated (adjust language (·.erase proc)) r.waiting } :=
  ⟨h.owed.takeWaiting hinfo, h.linked.take dedicated language proc, h.placed.elsewhere⟩

lemma Serves.takeCallback (h : Serves config held hand exempt r) :
    Serves config (r.nextCallback :: held) hand exempt { r with nextCallback := r.nextCallback + 1 } :=
  ⟨h.owed.take, h.linked.elsewhere, h.placed.elsewhere⟩

lemma Serves.weaken (h : Serves config held hand (fun _ _ => False) r) (exempt : Language → Pid → Prop) :
    Serves config held hand exempt r :=
  h.settle fun _ _ hex => hex.elim

lemma Serves.place {hand' : List Worker} {idle : List (Worker × ℤ)}
    {dedicated : Language → AList fun _ : TaskID => Worker} {connected : List Worker} (h : Serves config held hand exempt r)
    (hplaced : Placed hand' { r with idle := idle, dedicated := dedicated, connected := connected }) :
    Serves config held hand' exempt { r with idle := idle, dedicated := dedicated, connected := connected } :=
  ⟨h.owed, h.linked.elsewhere, hplaced⟩

end Requests
end AmazonRay.WorkerPool
