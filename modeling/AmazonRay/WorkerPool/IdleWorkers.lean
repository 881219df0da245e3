import AmazonRay.WorkerPool.IdlePart

/-! The idle workers over whole runs, and when the checks on them and on exit replies pass. -/
namespace AmazonRay.WorkerPool
open Program Families Requests IdlePart List Table

namespace Pool

variable {config : Config} {hand : List Worker}

/-- What a program must do to the workers in hand; any check may stop it. -/
def SoundTo {α : Type} (config : Config) (hand : List Worker) (x : PoolM α) (hand' : List Worker) : Prop :=
  Triple (fun p => Sound config hand p.idlePart) x (fun _ p => Sound config hand' p.idlePart) fun _ _ => True

def Quiet {α : Type} (x : PoolM α) : Prop := Leaves Pool.idlePart x

variable {workers : List Worker} (w : Worker) (language : Language)

lemma quiet_elementary : Elementary fun _ x => Quiet x := leaves_elementary Pool.idlePart

lemma quiet_update {f : Pool → Pool} (hf : ∀ p, (f p).idlePart = p.idlePart) : Quiet (modify f) := leaves_update hf

lemma Quiet.sound {α : Type} {x : PoolM α} (hx : Quiet x) : SoundTo config hand x hand := hx.keeps (Sound config hand)

lemma quiet_startWorkerProcess (workerType : WorkerType) (jobId : JobID) (dynamicOptions : Bool) :
    Quiet (startWorkerProcess config language workerType jobId dynamicOptions) := by
  have h := quiet_elementary
  have hadd (numWorkers : ℤ) : Quiet (modify (addStarting config language workerType numWorkers)) := by
    apply quiet_update
    intro p
    cases workerType with
    | worker => rfl
    | io => rfl
  apply h.bind h.get
  intro p
  apply h.ite fun _ => h.pure _
  intro _
  apply h.seq (h.check _ _)
  apply h.ite fun _ => h.pure _
  intro _
  apply h.seq (h.check _ _)
  exact h.seq (hadd _) (h.pure _)

lemma quiet_tryStartIOWorkers : Quiet (tryStartIOWorkers config language) :=
  quiet_elementary.tryStartIOWorkers (fun _ => quiet_startWorkerProcess _ _ _ _) language

lemma quiet_onWorkerStarted : Quiet (onWorkerStarted config w) := by
  have h := quiet_elementary
  apply h.seq (h.check _ _)
  apply h.bind
  · apply h.bind h.get
    intro p
    split
    · exact h.pure ()
    · apply h.ite
      · intro _
        exact h.seq (quiet_update fun _ => rfl) (quiet_tryStartIOWorkers w.language)
      · intro _
        exact quiet_update fun _ => rfl
  · intro _
    cases w.workerType with
    | worker => exact h.pure ()
    | io => exact quiet_update fun _ => rfl

lemma quiet_pushIOWorkerInternal (type : IOType) : Quiet (pushIOWorkerInternal config w type) :=
  quiet_elementary.pushIOWorkerInternal (fun _ _ => quiet_update fun _ => rfl) (fun _ _ => quiet_update fun _ => rfl) w type

lemma quiet_popIOWorkerInternal (type : IOType) (callback : CallbackID) :
    Quiet (popIOWorkerInternal config type callback) :=
  quiet_elementary.popIOWorkerInternal (fun _ _ => quiet_update fun _ => rfl) (fun _ _ => quiet_update fun _ => rfl)
    (fun _ => quiet_startWorkerProcess _ _ _ _) type callback

variable (config hand) in
lemma sound_invoke (c : CallbackID) (worker : Option Worker) (status : PopWorkerStatus) (used : Bool) :
    SoundTo config (worker.toList ++ hand) (invoke c worker status used)
      (if used then hand else worker.toList ++ hand) := by
  apply Triple.update
  intro p h
  cases worker with
  | none =>
    have hinvoked := h.invokeNone c status used
    cases used with
    | true => exact hinvoked
    | false => exact hinvoked
  | some w => exact h.invoke c (fun hw => decide_eq_true hw) status used

variable (config hand) in
lemma sound_invokePopWorkerCallbackForProcess (dedicated : Bool) (language : Language) (proc : Pid)
    (worker : Option Worker) (status : PopWorkerStatus) (answers : CallbackID → Bool) :
    Partly (fun p => Sound config (worker.toList ++ hand) p.idlePart)
      (invokePopWorkerCallbackForProcess dedicated language proc worker status answers)
      fun found p => Sound config (handAfter hand worker found) p.idlePart := by
  refine .read fun p h => ?_
  split
  · apply Triple.pure
    rintro t rfl
    exact h
  case h_2 info hinfo =>
    refine .seq ((sound_invoke config hand info.callback worker status (answers info.callback)).pre ?_) ?_
    · rintro t rfl
      exact h
    · exact .seq (Quiet.sound (quiet_update fun _ => rfl)) (.pure fun _ ht => ht)

lemma sound_pushWorker (now : ℤ) (answers : CallbackID → Bool) (w : Worker) :
    Partly (fun p => Sound config (w :: hand) { p.idlePart with log := .pushed w :: p.log })
      (pushWorker config now answers w) fun _ p => Sound config hand p.idlePart := by
  refine .bind (Q := fun _ p => Sound config (w :: hand) (idlePart p)) (.update fun p h => h) fun _ => ?_
  refine .testing ?_
  refine .bind (sound_invokePopWorkerCallbackForProcess config hand true w.language w.shimPid (some w) .ok answers) fun found => ?_
  cases found with
  | some result =>
    obtain ⟨taskId, used⟩ := result
    cases used with
    | true => exact .pure fun p h => h
    | false => exact .update fun p h => h.move (moved_putDedicated hand w w.language taskId)
  | none =>
    refine .bind (sound_invokePopWorkerCallbackForProcess config hand false w.language w.shimPid (some w) .ok answers) fun found => ?_
    cases found with
    | none => exact .update fun p h => h.putIdle now
    | some result =>
      obtain ⟨taskId, used⟩ := result
      cases used with
      | true => exact .pure fun p h => h
      | false => exact .update fun p h => h.putIdle now

lemma sound_popWorkerCallbackInternal (now : ℤ) (answers : CallbackID → Bool) (call : PostedCallback) :
    SoundTo config (call.worker.toList ++ hand) (popWorkerCallbackInternal config now answers call) hand := by
  obtain ⟨callback, worker, status⟩ := call
  refine .seq (sound_invoke config hand callback worker status (answers callback)) ?_
  cases worker with
  | none =>
    apply Triple.pure
    intro p h
    simpa using h
  | some w =>
    cases answers callback with
    | true => exact .pure fun p h => h
    | false => exact (sound_pushWorker now answers w).pre fun p h => h.pushed w

lemma sound_runPosted (now : ℤ) (answers : CallbackID → Bool) (i : ℕ) :
    SoundTo config hand (runPosted config now answers i) hand := by
  refine .read fun p h => ?_
  split
  · apply Triple.pure
    rintro t rfl
    exact h
  case h_2 call hcall =>
    refine .bind (.updated ?_) fun _ => sound_popWorkerCallbackInternal now answers call
    exact h.move (moved_takePosted hand hcall)

lemma sound_startupTimeout (answers : CallbackID → Bool) (language : Language) (token : StartupToken) :
    SoundTo config hand (startupTimeout config answers language token) hand := by
  refine .testing (.read fun p h => ?_)
  split
  · apply Triple.pure
    rintro t rfl
    exact h
  case h_2 info hinfo =>
    refine .bind (Q := fun _ t => Sound config hand (idlePart t)) ?_ fun found => ?_
    · refine (sound_invokePopWorkerCallbackForProcess config hand true language info.proc none
        .workerPendingRegistration answers).conseq ?_ (fun found t ht => ?_) fun _ _ h => h
      · rintro t rfl
        exact h
      · rwa [handAfter_none] at ht
    refine .bind (Q := fun _ t => Sound config hand (idlePart t)) ?_ fun _ => ?_
    · refine .onlyIf (fun _ => ?_) fun _ t ht => ht
      refine .bind (sound_invokePopWorkerCallbackForProcess config hand false language info.proc none
        .workerPendingRegistration answers) fun found => .pure fun t ht => ?_
      rwa [handAfter_none] at ht
    · refine .seq (Quiet.sound (quiet_update fun t => ?_)) ((quiet_tryStartIOWorkers language).sound)
      cases info.workerType with
      | worker => rfl
      | io => rfl

lemma sound_registerWorker (portFree : Bool) (w : Worker) :
    Partly (fun p => Sound config hand p.idlePart ∧ ∀ x ∈ p.known, x.workerId ≠ w.workerId)
      (registerWorker config w portFree) fun _ p => Sound config hand p.idlePart := by
  refine .seq (.checked fun _ _ _ => trivial) (.given fun hlanguage => ?_)
  refine .read fun p h => .onlyIf (fun _ => .updated (h.1.register hlanguage h.2)) fun _ => ?_
  · rintro t rfl
    exact h.1

lemma sound_announceWorkerPort (now : ℤ) (answers : CallbackID → Bool) (w : Worker) :
    Partly (fun p => Sound config hand p.idlePart ∧ w ∈ p.registeredWorkers w.language ∧ w ∉ p.connected)
      (announceWorkerPort config now answers w) fun _ p => Sound config hand p.idlePart := by
  unfold announceWorkerPort handleWorkerAvailable
  have hio (type : IOType) :
      Partly (fun p => Sound config hand p.idlePart ∧ w ∈ p.registeredWorkers w.language ∧ w ∉ p.connected) (do
        modify fun p => { p with connected := p.connected.insert w }
        onWorkerStarted config w
        pushIOWorkerInternal config w type) fun _ p => Sound config hand p.idlePart := by
    refine .bind (Q := fun _ p => Sound config hand (idlePart p)) (.update fun p h => h.1.connect h.2.2) fun _ => ?_
    exact .bind (quiet_onWorkerStarted w).sound fun _ => (quiet_pushIOWorkerInternal w type).sound
  cases htype : w.workerType with
  | io type =>
    cases type with
    | spill => exact hio .spill
    | restore => exact hio .restore
  | worker =>
    refine .bind (Q := fun _ p => Sound config (w :: hand) (idlePart p))
      (.update fun p h => h.1.takeConnected h.2.2 h.2.1 htype) fun _ => ?_
    exact .bind (quiet_onWorkerStarted w).sound fun _ => (sound_pushWorker now answers w).pre fun p h => h.pushed w

lemma sound_startWorkerProcessFn (spec : TaskSpec) (callback : CallbackID) :
    SoundTo config hand (startWorkerProcessFn config spec callback) hand := by
  refine .bind (quiet_startWorkerProcess _ _ _ _).sound fun result => ?_
  cases result with
  | ok => exact (quiet_update fun _ => rfl).sound
  | error => exact .update fun p h => h.move (moved_postNone hand callback _)

lemma sound_startOrCreateEnv (spec : TaskSpec) (callback : CallbackID) :
    SoundTo config hand (startOrCreateEnv config spec callback) hand :=
  .ite (fun _ => (quiet_update fun _ => rfl).sound) fun _ => sound_startWorkerProcessFn spec callback

lemma sound_runtimeEnvReply (answers : CallbackID → Bool) (i : ℕ) (successful : Bool) :
    SoundTo config hand (runtimeEnvReply config answers i successful) hand := by
  refine .bind quiet_elementary.get.sound fun p => ?_
  split
  · exact .pure fun _ h => h
  case h_2 request hrequest =>
    refine .seq (Quiet.sound (quiet_update fun _ => rfl)) ?_
    exact .ite (fun _ => sound_startWorkerProcessFn _ _) fun _ => .update fun p h => h.invokeNone _ _ _

lemma sound_postWorker (spec : TaskSpec) (callback : CallbackID) (w : Worker) :
    SoundTo config (w :: hand) (postWorker spec callback w) hand :=
  .testing (.update fun p h => h.move (moved_putPosted hand w callback .ok))

lemma usable_of_findIdle {p : Pool} {spec : TaskSpec} {w : Worker} (h : p.findIdle spec = some w) : p.Usable spec w := by
  obtain ⟨e, he, rfl⟩ := Option.map_eq_some_iff.mp h
  have husable := find?_some he
  exact of_decide_eq_true husable

lemma sound_popWorker (spec : TaskSpec) : SoundTo config hand (popWorker config spec) hand := by
  refine .bind quiet_elementary.get.sound fun p₀ => ?_
  refine .seq (Quiet.sound (quiet_update fun _ => rfl)) ?_
  refine .testing ?_
  refine .testing (.read fun p h => ?_)
  have hpre : ∀ t, t = p → Sound config hand t.idlePart := by
    rintro t rfl
    exact h
  refine .ite (fun _ => ?_) fun _ => ?_
  · split
    case h_1 w hw =>
      refine .bind (.updated ?_) fun _ => sound_postWorker spec p₀.nextCallback w
      exact h.move (moved_takeDedicated hand hw)
    · exact (sound_startOrCreateEnv spec _).pre hpre
  · split
    case h_1 w hw =>
      refine .bind (.updated ?_) fun _ => sound_postWorker spec p₀.nextCallback w
      obtain ⟨hlanguage, -, -, hdead, hpending, -⟩ := usable_of_findIdle hw
      have htaken := h.takeIdle (mem_idle_of_findIdle hw) hdead hpending
      rw [← hlanguage] at htaken
      exact htaken
    · exact (sound_startOrCreateEnv spec _).pre hpre

def Unclaimed (p : Pool) (w : Worker) : Prop :=
  (∀ call ∈ p.posted, call.worker ≠ some w) ∧ ∀ language taskId, (p.idleDedicatedWorkers language).lookup taskId ≠ some w

lemma sound_disconnectWorker (intendedExit : Bool) :
    Partly (fun p => Sound config [] p.idlePart ∧ p.Unclaimed w) (disconnectWorker config w intendedExit)
      fun _ p => Sound config [] p.idlePart := by
  refine .testing (.read fun p h => ?_)
  refine .testing ?_
  refine .bind (.update ?_) fun _ => .onlyIf (fun _ => (quiet_update fun _ => rfl).sound) fun _ _ ht => ht
  rintro t rfl
  refine h.1.remove (places_eq_zero (fun e he => ?_) h.2.1 h.2.2) fun x => ?_
  · rintro rfl
    exact (h.1.mem_erase_list.mp (mem_map_of_mem he)).1 rfl
  · unfold removeWorker
    split
    · exact AList.mem_erase
    case isFalse hnone =>
      constructor
      · intro hx
        refine ⟨?_, hx⟩
        rintro rfl
        exact hnone (mem_map.mp ((h.1.mapped x).mp hx))
      · exact And.right

section

variable {p : Pool} {idle : List (Worker × ℤ)} {n : ℕ} {w : Worker} (now : ℤ) (language : Language)

section

variable (h : Sound config hand p.idlePart)
include h

lemma mem_allRegistered (hw : w ∈ p.registeredWorkers w.language) :
    w ∈ p.allRegistered config := mem_flatMap.mpr ⟨w.language, (h.known hw).2, hw⟩

lemma nodup_allRegistered : (p.allRegistered config).Nodup := by
  refine nodup_flatMap.mpr ⟨fun l _ => h.registry.nodup l, config.languages_nodup.imp fun hne x hx hy => hne ?_⟩
  exact (h.registry.own _ x hx).1.symm.trans (h.registry.own _ x hy).1

lemma mem_running (hw : w ∈ p.idleOfAllLanguages.map Prod.fst) (hdead : w ∉ p.dead) : w ∈ p.running config := by
  obtain ⟨hregistered, hconnected, htype⟩ := h.of_mem_list hw
  exact mem_filter.mpr ⟨mem_allRegistered h hregistered, decide_eq_true ⟨hconnected, hdead, htype⟩⟩

end

def asked (p : Pool) : List Worker := p.pendingExitIdleWorkers.entries.map (·.2)

lemma mem_asked : w ∈ p.asked ↔ ∃ id, p.pendingExitIdleWorkers.lookup id = some w := by
  constructor
  · intro hw
    obtain ⟨e, he, rfl⟩ := mem_map.mp hw
    exact ⟨e.1, mem_entries_iff.mp he⟩
  · rintro ⟨id, hid⟩
    exact mem_map.mpr ⟨⟨id, w⟩, mem_entries_iff.mpr hid, rfl⟩

lemma nodup_asked (h : Sound config hand p.idlePart) : p.asked.Nodup := by
  have hids : p.asked.map Worker.workerId = p.pendingExitIdleWorkers.keys := by
    unfold asked
    rw [map_map]
    apply map_congr_left
    intro e he
    exact (h.pending e.1 e.2 (mem_entries_iff.mp he)).1
  apply List.Nodup.of_map Worker.workerId
  rw [hids]
  exact p.pendingExitIdleWorkers.nodupKeys

lemma length_asked : p.asked.length = p.pendingExitIdleWorkers.keys.length := by
  unfold asked AList.keys keys
  rw [length_map, length_map]

def Askable (p : Pool) (w : Worker) : Prop :=
  w ∈ p.idleOfAllLanguages.map Prod.fst ∧ w ∉ p.dead ∧ w.workerId ∉ p.pendingExitIdleWorkers

def AskedRegistered (p : Pool) : Prop :=
  ∀ id w, p.pendingExitIdleWorkers.lookup id = some w → w ∈ p.registeredWorkers w.language

lemma length_le_running (h : Sound config hand p.idlePart) (hregistered : p.AskedRegistered)
    (hnodup : workers.Nodup) (hask : ∀ x ∈ workers, p.Askable x) :
    workers.length + p.pendingExitIdleWorkers.keys.length ≤ (p.running config).length := by
  have hall : (workers ++ p.asked).Nodup := by
    refine nodup_append.mpr ⟨hnodup, nodup_asked h, fun a ha b hb hab => ?_⟩
    obtain ⟨id, hid⟩ := mem_asked.mp hb
    have hown := (h.pending id b hid).1
    subst hab hown
    exact (hask a ha).2.2 (mem_of_lookup hid)
  have hsub : workers ++ p.asked ⊆ p.running config := by
    intro x hx
    rcases mem_append.mp hx with hx | hx
    · exact mem_running h (hask x hx).1 (hask x hx).2.1
    · obtain ⟨id, hid⟩ := mem_asked.mp hx
      obtain ⟨-, -, -, hlive, hlist⟩ := h.pending id x hid
      exact mem_running h (hlist (hregistered id x hid)) hlive
  have hlength := (hall.subperm hsub).length_le
  rwa [length_append, length_asked] at hlength

/-- The loop over the idle workers: `n` of the running workers were not asked to exit. -/
structure Killing (config : Config) (idle : List (Worker × ℤ)) (n : ℕ) (p : Pool) : Prop where
  sound : Sound config [] p.idlePart
  list : p.idleOfAllLanguages = idle
  count : n + p.pendingExitIdleWorkers.keys.length = (p.running config).length
  registered : p.AskedRegistered

lemma Killing.length_le (h : Killing config idle n p) (hnodup : workers.Nodup)
    (hask : ∀ x ∈ workers, p.Askable x) : workers.length ≤ n := by
  have hle := length_le_running h.sound h.registered hnodup hask
  have hcount := h.count
  omega

def ask (w : Worker) (p : Pool) : Pool := { p with
  pendingExitIdleWorkers := p.pendingExitIdleWorkers.insert w.workerId w
  exitRequests := p.exitRequests ++ [w] }

lemma Killing.ask (h : Killing config idle (n + 1) p) (hw : p.Askable w) : Killing config idle n (p.ask w) where
  sound := h.sound.ask hw.1 hw.2.1 hw.2.2
  list := h.list
  count := by
    have hkeys : (p.pendingExitIdleWorkers.insert w.workerId w).keys.length =
        p.pendingExitIdleWorkers.keys.length + 1 := by
      rw [AList.keys_insert, length_cons, erase_of_not_mem hw.2.2]
    have hcount := h.count
    change n + (p.pendingExitIdleWorkers.insert w.workerId w).keys.length = (p.running config).length
    omega
  registered id x hx := by
    rcases lookup_of_insert hx with ⟨-, rfl⟩ | ⟨-, hx⟩
    · exact (h.sound.of_mem_list hw.1).1
    · exact h.registered id x hx

lemma triple_exitWorker (h : Killing config idle n p) (hw : p.Askable w) :
    Completes p (exitWorker language n w) fun left t => t = p.ask w ∧ left + 1 = n := by
  have hpos : 1 ≤ n := by
    refine h.length_le (nodup_singleton w) fun x hx => ?_
    exact mem_singleton.mp hx ▸ hw
  refine .seen ?_
  refine .ite (fun hdead => absurd hdead hw.2.1) fun _ => ?_
  refine .bind (Q := fun _ s => s = { p with
    pendingExitIdleWorkers := p.pendingExitIdleWorkers.insert w.workerId w }) (.updated ?_) fun _ => ?_
  · rw [if_neg hw.2.2]
  refine .seq (.passed (h.sound.of_mem_list hw.1).2.1) ?_
  refine .passing hpos ?_
  refine .bind (Q := fun _ s => s = p.ask w) (.updated ?_) fun _ => .pure ?_
  · rfl
  · intro s hs
    exact ⟨hs, Nat.sub_add_cancel hpos⟩

lemma triple_exitWorkers (h : Killing config idle n p) (hnodup : workers.Nodup) (hask : ∀ x ∈ workers, p.Askable x) :
    Completes p (workers.foldlM (exitWorker language) n) fun left t => Killing config idle left t ∧
        ∀ id, id ∈ t.pendingExitIdleWorkers ↔ id ∈ p.pendingExitIdleWorkers ∨ ∃ x ∈ workers, x.workerId = id := by
  induction workers generalizing n p with
  | nil =>
    apply Triple.pure
    rintro t rfl
    exact ⟨h, fun id => by simp⟩
  | cons w workers ih =>
    rw [nodup_cons] at hnodup
    have hw := hask w mem_cons_self
    refine .bind (triple_exitWorker language h hw) fun left => .given fun hleft => ?_
    subst hleft
    have hknown (x : Worker) (hx : x ∈ w :: workers) : x ∈ p.known :=
      (h.sound.known (h.sound.of_mem_list (hask x hx).1).1).1
    refine (ih (h.ask hw) hnodup.2 fun x hx => ?_).post fun left t ht => ⟨ht.1, fun id => ?_⟩
    · obtain ⟨hlist, hdead, hpending⟩ := hask x (mem_cons_of_mem w hx)
      refine ⟨hlist, hdead, fun hmem => ?_⟩
      rcases AList.mem_insert _ |>.mp hmem with hid | hmem
      · have hxw := h.sound.registry.ids x (hknown x (mem_cons_of_mem w hx)) w (hknown w mem_cons_self) hid
        exact hnodup.1 (hxw ▸ hx)
      · exact hpending hmem
    · rw [ht.2 id]
      change id ∈ p.pendingExitIdleWorkers.insert w.workerId w ∨ _ ↔ _
      rw [AList.mem_insert]
      simp only [mem_cons, exists_eq_or_imp]
      constructor
      · rintro ((rfl | hid) | hid)
        · exact .inr (.inl rfl)
        · exact .inl hid
        · exact .inr (.inr hid)
      · rintro (hid | rfl | hid)
        · exact .inl (.inr hid)
        · exact .inl (.inl rfl)
        · exact .inr hid

/-- The idle workers of a process were all asked to exit, or none of them was. -/
def AskedTogether (p : Pool) : Prop :=
  ∀ e ∈ p.idleOfAllLanguages, ∀ e' ∈ p.idleOfAllLanguages, e.1.pid = e'.1.pid →
    e.1.workerId ∈ p.pendingExitIdleWorkers → e'.1.workerId ∈ p.pendingExitIdleWorkers

lemma triple_canBeKilled (h : Sound config [] p.idlePart) (workers : List Worker) :
    Completes p (canBeKilled config now language workers)
      fun killed t => t = p ∧ (killed = true → ∀ x ∈ workers, x ∈ p.idle language) := by
  induction workers with
  | nil =>
    apply Triple.pure
    intro t ht
    exact ⟨ht, nofun⟩
  | cons w workers ih =>
    have hno : ∀ t, t = p → t = p ∧ (false = true → ∀ x ∈ w :: workers, x ∈ p.idle language) :=
      fun t ht => ⟨ht, nofun⟩
    refine .seen ?_
    refine .ite (fun _ => .pure hno) fun hw => ?_
    have hw : w ∈ p.idle language := not_not.mp hw
    have hmap : w ∈ p.idleOfAllLanguagesMap := (h.mapped w).mpr ((h.sets language).2 w hw).2.1
    refine .bind (Q := fun _ s => s = p) ?_ fun time => ?_
    · refine .read fun s hs => ?_
      subst hs
      split
      · exact .pure fun _ hs => hs
      case h_2 hnone => exact absurd hmap (AList.lookup_eq_none.mp hnone)
    · refine .ite (fun _ => .pure hno) fun _ => ih.post fun killed s hs => ⟨hs.1, fun hkilled x hx => ?_⟩
      rcases mem_cons.mp hx with rfl | hx
      · exact hw
      · exact hs.2 hkilled x hx

lemma triple_killProcess (h : Killing config idle n p) (htogether : p.AskedTogether)
    (hlist : w ∈ p.idleOfAllLanguages.map Prod.fst) (hpending : w.workerId ∉ p.pendingExitIdleWorkers) :
    Completes p (killProcess config now w n)
      fun result t => ∃ left, (∀ m, result = some m → m = left) ∧ Killing config idle left t ∧ t.AskedTogether := by
  refine .seen ?_
  refine .bind (triple_canBeKilled now w.language h.sound _) fun killed => .given fun hidle => ?_
  refine .ite (fun hkilled => ?_) fun _ => .pure ?_
  case refine_2 =>
    intro s hs
    subst hs
    exact ⟨n, fun m hm => (Option.some.inj hm).symm, h, htogether⟩
  have hidle := hidle hkilled
  -- all workers of the process are idle and none was asked yet
  have hask (x : Worker) (hx : x ∈ p.getWorkersByProcess config w.pid) : p.Askable x := by
    obtain ⟨-, hlistx, hlive⟩ := (h.sound.sets w.language).2 x (hidle x hx)
    refine ⟨hlistx, hlive, fun hmem => hpending ?_⟩
    obtain ⟨e, he, rfl⟩ := mem_map.mp hlistx
    obtain ⟨e', he', rfl⟩ := mem_map.mp hlist
    exact htogether e he e' he' (of_decide_eq_true (mem_filter.mp hx).2) hmem
  have hnodup : (p.getWorkersByProcess config w.pid).Nodup := (nodup_allRegistered h.sound).filter _
  refine .seq (.passed (h.length_le hnodup hask)) ?_
  refine .ite (fun _ => .pure ?_) fun _ => ?_
  · intro s hs
    subst hs
    exact ⟨n, nofun, h, htogether⟩
  refine .bind (triple_exitWorkers w.language h hnodup hask) fun left => .pure fun s hs => ?_
  refine ⟨left, fun m hm => (Option.some.inj hm).symm, hs.1, fun e he e' he' hpid hmem => ?_⟩
  have hsame : s.idleOfAllLanguages = p.idleOfAllLanguages := hs.1.list.trans h.list.symm
  rw [hsame] at he he'
  have hregistered {e : Worker × ℤ} (he : e ∈ p.idleOfAllLanguages) : e.1 ∈ p.registeredWorkers e.1.language :=
    (h.sound.of_mem_list (mem_map_of_mem he)).1
  rw [hs.2] at hmem ⊢
  rcases hmem with hmem | ⟨x, hx, hid⟩
  · exact .inl (htogether e he e' he' hpid hmem)
  · refine .inr ⟨e'.1, ?_, rfl⟩
    have hxregistered := (h.sound.of_mem_list (hask x hx).1).1
    obtain rfl : x = e.1 :=
      h.sound.registry.ids x (h.sound.known hxregistered).1 e.1 (h.sound.known (hregistered he)).1 hid
    refine mem_filter.mpr ⟨mem_allRegistered h.sound (hregistered he'), decide_eq_true ?_⟩
    exact hpid.symm.trans (of_decide_eq_true (mem_filter.mp hx).2)

variable (idle) in
lemma triple_killIdleWorkers {workers : List (Worker × ℤ)} (hsub : ∀ e ∈ workers, e ∈ idle) :
    Triple (fun p => Killing config idle n p ∧ p.AskedTogether) (killIdleWorkers config now workers n)
      (fun _ p => Sound config [] p.idlePart) fun _ _ => False := by
  induction workers generalizing n with
  | nil => exact .pure fun p h => h.1.sound
  | cons e workers ih =>
    have hrest (m : ℕ) := ih (n := m) fun x hx => hsub x (mem_cons_of_mem e hx)
    refine .read fun p h => ?_
    have hskip : Completes p (killIdleWorkers config now workers n) fun _ p => Sound config [] p.idlePart := by
      refine (hrest n).pre fun t ht => ?_
      subst ht
      exact h
    have hstop (b : Bool) : Completes p (pure b : PoolM Bool) fun _ p => Sound config [] p.idlePart := by
      apply Triple.pure
      intro t ht
      subst ht
      exact h.1.sound
    refine .ite (fun _ => hstop true) fun _ => .ite (fun _ => hskip) fun hpending => ?_
    refine .ite (fun _ => hstop true) fun _ => .ite (fun _ => hskip) fun _ => ?_
    have hlist : e.1 ∈ p.idleOfAllLanguages.map Prod.fst := by
      rw [h.1.list]
      exact mem_map_of_mem (hsub e mem_cons_self)
    have hsupported := (h.1.sound.known (h.1.sound.of_mem_list hlist).1).2
    refine .seq (.passed hsupported) (.ite (fun _ => hskip) fun _ => ?_)
    refine Triple.bind (triple_killProcess now h.1 h.2 hlist hpending) fun result => ?_
    cases result with
    | none =>
      apply Triple.pure
      rintro t ⟨left, -, hkilling, -⟩
      exact hkilling.sound
    | some m =>
      refine (hrest m).pre ?_
      rintro t ⟨left, hleft, hkilling, htogether⟩
      obtain rfl := hleft m rfl
      exact ⟨hkilling, htogether⟩

lemma triple_checkIdleMap (h : Sound config hand p.idlePart) : Completes p checkIdleMap fun _ t => t = p := by
  refine .seen ?_
  exact .passed h.length_eq

lemma triple_tryKillingIdleWorkers :
    Triple (fun p => Sound config [] p.idlePart ∧ p.AskedRegistered ∧ p.AskedTogether) (tryKillingIdleWorkers config now)
      (fun _ p => Sound config [] p.idlePart) fun _ _ => False := by
  refine .each fun p h => .seq (triple_checkIdleMap h.1) (.read fun t ht => ?_)
  subst ht
  have hle : t.pendingExitIdleWorkers.keys.length ≤ (t.running config).length := by
    have hrunning := length_le_running h.1 h.2.1 nodup_nil nofun
    rwa [length_nil, zero_add] at hrunning
  refine .passing hle ?_
  refine .bind ((triple_killIdleWorkers t.idleOfAllLanguages now fun e he => he).pre ?_) fun finished => ?_
  · intro s hs
    subst hs
    exact ⟨⟨h.1, rfl, Nat.sub_add_cancel hle, h.2.1⟩, h.2.2⟩
  · refine .ite (fun _ => ?_) fun _ => .pure fun s hs => hs
    refine .bind (Q := fun _ s => Sound config [] (idlePart s)) (.update fun s hs => hs.rebuild) fun _ => ?_
    refine .each fun s hs => (triple_checkIdleMap hs).post fun _ u hu => ?_
    subst hu
    exact hs

end

lemma triple_exitReply (i : ℕ) (refused : Bool) :
    Triple (fun p => Sound config [] p.idlePart ∧ (refused = true → p.idleOfAllLanguages ≠ [])) (exitReply config i refused)
      (fun _ p => Sound config [] p.idlePart) fun _ _ => False := by
  refine .read fun p h => ?_
  split
  · apply Triple.pure
    intro t ht
    subst ht
    exact h.1
  case h_2 w hw =>
    have hanswered := h.1.answer hw
    have hexits : w ∈ p.exitRequests := mem_of_getElem? hw
    have hlookup : p.pendingExitIdleWorkers.lookup w.workerId = some w := (h.1.exits.2 w).mp hexits
    have hpending : w.workerId ∈ p.pendingExitIdleWorkers := mem_of_lookup hlookup
    obtain ⟨hknown, hconnected, hlive, hlist⟩ := h.1.of_exits hexits
    refine .bind (Q := fun _ t => t = { p with exitRequests := p.exitRequests.eraseIdx i }) (.update ?_) fun _ => ?_
    · rintro t rfl
      rfl
    -- the worker stays pending until the end of the reply
    refine .bind (Q := fun _ t => w.workerId ∈ t.pendingExitIdleWorkers ∧
      Sound config [] { idlePart t with pending := t.pendingExitIdleWorkers.erase w.workerId }) ?_ fun _ => ?_
    · refine .ite (fun hrefused => ?_) fun _ => ?_
      · refine .read fun t ht => ?_
        subst ht
        split
        case h_1 hempty => exact absurd hempty (h.2 hrefused)
        case h_2 e rest hcons =>
          have hperm : (rest ++ [e]).Perm p.idleOfAllLanguages := by
            rw [hcons]
            exact perm_append_singleton e rest
          have hrotated := hanswered.perm hperm
          refine .bind (Q := fun _ t => t = { p with
            exitRequests := p.exitRequests.eraseIdx i, idleOfAllLanguages := rest ++ [e] }) (.update ?_) fun _ => ?_
          · rintro t rfl
            rfl
          refine .read fun t ht => ?_
          subst ht
          refine (Triple.passed hrotated.length_eq).post fun _ t ht => ?_
          subst ht
          exact ⟨hpending, hrotated⟩
      · refine .seq (.passed (h.1.registry.supported w hknown)) (.update ?_)
        intro t ht
        subst ht
        refine ⟨hpending, hanswered.markDead ?_ hconnected hlist⟩
        exact AList.lookup_erase _ _
    · refine .read fun t ht => .seq (.passed ht.1) (.update fun s hs => ?_)
      subst hs
      exact ht.2

end Pool

/-- Workers register under their own ids, and those pushed are registered and have not agreed to exit. -/
def Op.OfRegistered : Op → Pool → Prop
  | .registerWorker w _, p => ∀ x ∈ p.known, x.workerId ≠ w.workerId
  | .pushWorker _ _ w, p => w ∈ p.registeredWorkers w.language ∧ w.workerType = .worker ∧ w ∉ p.dead
  | _, _ => True

/-- A worker about to be handed out or kept for a task stays connected. Idle workers are killed when those asked to exit
are registered, and those of a process were asked together. One that refuses to exit finds an idle worker. -/
def Op.KeepsIdle : Op → Pool → Prop
  | .disconnectWorker w _, p => p.Unclaimed w
  | .tryKillingIdleWorkers _, p => p.AskedRegistered ∧ p.AskedTogether
  | .exitReply _ refused, p => refused = true → p.idleOfAllLanguages ≠ []
  | _, _ => True

open Pool in
lemma sound_run {config : Config} (op : Op) {p : Pool} (hop : op.AsNodeManager config p ∧ op.OfRegistered p)
    (hkeeps : op.KeepsIdle p) (h : Sound config [] p.idlePart) :
    Yields p (op.run config) fun _ t => Sound config [] t.idlePart := by
  have hk := quiet_elementary
  have hto {P : Pool → Prop} {E : Check → Pool → Prop} {x : PoolM Unit}
      (hx : Triple P x (fun _ t => Sound config [] t.idlePart) E) (hp : P p) :
      Yields p x fun _ t => Sound config [] t.idlePart := by
    refine hx.conseq ?_ (fun _ _ ht => ht) fun _ _ _ => trivial
    rintro t rfl
    exact hp
  have hquiet {x : PoolM Unit} (hx : Quiet x) := hto hx.sound h
  cases op with
  | jobStarted => exact hquiet (quiet_update fun _ => rfl)
  | jobFinished => exact hquiet (quiet_update fun _ => rfl)
  | startWorkerProcess language jobId =>
    exact hquiet (hk.startWorkerProcesses (fun _ _ => quiet_startWorkerProcess _ _ _ _) language jobId 1)
  | prestartWorkers spec backlogSize cpus =>
    exact hquiet (hk.prestartWorkers (fun _ _ => quiet_startWorkerProcess _ _ _ _) spec backlogSize cpus)
  | registerWorker w => exact hto (sound_registerWorker _ w) ⟨h, hop.2⟩
  | announceWorkerPort now answers w => exact hto (sound_announceWorkerPort _ _ w) ⟨h, hop.1.1, hop.1.2.1⟩
  | startupTimeout => exact hto (sound_startupTimeout _ _ _) h
  | pushWorker now answers w =>
    obtain ⟨⟨hconnected, houtside⟩, hregistered, htype, hdead⟩ := hop
    refine hto (sound_pushWorker now answers w) ((h.pushed w).take ?_ (fun hheld => hheld.1 rfl) hconnected hregistered
      htype hdead)
    exact houtside.places
  | popWorker => exact hto (sound_popWorker _) h
  | runPosted now answers i => exact hto (sound_runPosted _ _ i) h
  | runtimeEnvReply answers i => exact hto (sound_runtimeEnvReply _ i _) h
  | disconnectWorker w => exact hto (sound_disconnectWorker w _) ⟨h, hkeeps⟩
  | tryKillingIdleWorkers => exact hto (triple_tryKillingIdleWorkers _) ⟨h, hkeeps⟩
  | exitReply i => exact hto (triple_exitReply i _) ⟨h, hkeeps⟩
  | popSpillWorker => exact hquiet (quiet_popIOWorkerInternal .spill _)
  | popRestoreWorker => exact hquiet (quiet_popIOWorkerInternal .restore _)
  | popDeleteWorker => exact hquiet (hk.popDeleteWorker quiet_popIOWorkerInternal _)
  | pushSpillWorker w => exact hquiet (quiet_pushIOWorkerInternal w .spill)
  | pushRestoreWorker w => exact hquiet (quiet_pushIOWorkerInternal w .restore)
  | pushDeleteWorker w =>
    exact hquiet (hk.pushDeleteWorker (fun _ _ => quiet_update fun _ => rfl) (fun _ _ => quiet_update fun _ => rfl) w)

lemma sound_start (config : Config) : Sound config [] (Pool.idlePart {}) where
  placed := ⟨fun _ => Nat.zero_le 1, fun _ h => absurd h (lt_irrefl 0), fun _ h => h.elim, trivial⟩
  available _ h := absurd h (lt_irrefl 0)
  alive _ h := nomatch h
  mapped _ := ⟨nofun, nofun⟩
  sets _ := ⟨nodup_nil, nofun⟩
  pending _ _ h := nomatch h
  exits := ⟨nodup_nil, fun _ => ⟨nofun, nofun⟩⟩
  registry := ⟨fun _ => nodup_nil, nofun, nofun, nofun⟩
  dead _ h := nomatch h
  handed _ _ _ _ _ h := nomatch h

/-- The list and the map have the same workers, each once, which are registered as are those that callbacks were handed.
-/
structure Pool.IdleConsistent (p : Pool) : Prop where
  nodup : (p.idleOfAllLanguages.map Prod.fst).Nodup
  same : ∀ w, w ∈ p.idleOfAllLanguagesMap ↔ w ∈ p.idleOfAllLanguages.map Prod.fst
  registered : ∀ w ∈ p.idleOfAllLanguages.map Prod.fst, w ∈ p.registeredWorkers w.language
  handed : ∀ c w registered status used, .invoked c (some (w, registered)) status used ∈ p.log → registered = true

variable {config : Config} {p : Pool}

/-- The idle list and its map agree. -/
theorem idle_workers_consistent (h : Reaches (Op.run config)
      (fun op p => (op.AsNodeManager config p ∧ op.OfRegistered p) ∧ op.KeepsIdle p) {} p) :
    p.IdleConsistent ∧
    (∀ now, (Op.tryKillingIdleWorkers now).KeepsIdle p → ∃ t, Pool.tryKillingIdleWorkers config now p = .ok () t) ∧
    ∀ i refused, (Op.exitReply i refused).KeepsIdle p → ∃ t, Pool.exitReply config i refused p = .ok () t := by
  have hsound : Sound config [] p.idlePart :=
    h.invariant (I := fun p => Sound config [] (Pool.idlePart p)) (sound_start config)
      fun op _ hop hs => sound_run op hop.1 hop.2 hs
  refine ⟨⟨hsound.nodup_list, hsound.mapped, fun w hw => (hsound.of_mem_list hw).1, hsound.handed⟩, ?_, ?_⟩
  · intro now hkeeps
    obtain ⟨_, t, ht, -⟩ := (Pool.triple_tryKillingIdleWorkers now).returns ⟨hsound, hkeeps⟩
    exact ⟨t, ht⟩
  · intro i refused hkeeps
    obtain ⟨_, t, ht, -⟩ := (Pool.triple_exitReply i refused).returns ⟨hsound, hkeeps⟩
    exact ⟨t, ht⟩

instance (p : Pool) (w : Worker) : Decidable (p.Unclaimed w) :=
  decidable_of_iff ((∀ call ∈ p.posted, call.worker ≠ some w) ∧
    ∀ language, ∀ e ∈ (p.idleDedicatedWorkers language).entries, e.2 ≠ w) <| by
      refine and_congr_right fun _ => forall_congr' fun language => ⟨fun h taskId hw => ?_, fun h e he => ?_⟩
      · exact h ⟨taskId, w⟩ (mem_entries_iff.mpr hw) rfl
      · rintro rfl
        exact h e.1 (mem_entries_iff.mp he)

instance (p : Pool) : Decidable p.AskedRegistered :=
  decidable_of_iff (∀ e ∈ p.pendingExitIdleWorkers.entries, e.2 ∈ p.registeredWorkers e.2.language)
    ⟨fun h id w hw => h ⟨id, w⟩ (mem_entries_iff.mpr hw), fun h e he => h e.1 e.2 (mem_entries_iff.mp he)⟩

instance (p : Pool) : Decidable p.AskedTogether :=
  inferInstanceAs (Decidable (∀ e ∈ p.idleOfAllLanguages, ∀ e' ∈ p.idleOfAllLanguages, e.1.pid = e'.1.pid →
    e.1.workerId ∈ p.pendingExitIdleWorkers → e'.1.workerId ∈ p.pendingExitIdleWorkers))

instance (op : Op) (p : Pool) : Decidable (op.OfRegistered p) := by
  induction op using Op.casesOn <;> (unfold Op.OfRegistered; infer_instance)

instance (op : Op) (p : Pool) : Decidable (op.KeepsIdle p) := by
  induction op using Op.casesOn <;> (unfold Op.KeepsIdle; infer_instance)

def pythonWorker : Worker := ⟨1, .python, .worker, 0, 0, 0, 100, 100⟩

/-- The worker of the first process is started and becomes idle at time 0. -/
def startPython : List Op :=
  [.jobStarted 0 2, .startWorkerProcess .python 0, .registerWorker pythonWorker true,
    .announceWorkerPort 0 (fun _ => true) pythonWorker]

/-- An idle worker is asked to exit and refuses. -/
theorem idle_workers_consistent_refused :
    ∃ p, Reaches (Op.run smallPool)
        (fun op p => (op.AsNodeManager smallPool p ∧ op.OfRegistered p) ∧ op.KeepsIdle p) {} p ∧
      p.idleOfAllLanguages = [(pythonWorker, 0)] ∧ p.pendingExitIdleWorkers.keys = [] ∧ p.IdleConsistent := by
  refine exists_after (startPython ++ [.tryKillingIdleWorkers 100, .exitReply 0 true])
    (fun p => (p.idleOfAllLanguages, p.pendingExitIdleWorkers.keys)) ([(pythonWorker, 0)], [])
    (by decide +kernel) fun _ hp hv => ?_
  simp only [Prod.mk.injEq] at hv
  exact ⟨hv.1, hv.2, (idle_workers_consistent hp).1⟩

/-- A worker that disconnects while the call that hands it out is posted is handed out all the same, and becomes idle
again when it is refused. A worker that disconnects before its exit reply is counted as one that runs, and so is a
worker that was asked to exit while another of its process has refused. -/
theorem idle_workers_inconsistent :
    (∃ p, Reaches (Op.run smallPool) (fun op p => op.AsNodeManager smallPool p ∧ op.OfRegistered p) {} p ∧
      p.idleOfAllLanguages = [(pythonWorker, 1)] ∧ pythonWorker ∉ p.registeredWorkers .python ∧
      .invoked 0 (some (pythonWorker, false)) .ok false ∈ p.log) ∧
    (∃ p, Reaches (Op.run smallPool) (fun op p => op.AsNodeManager smallPool p ∧ op.OfRegistered p) {} p ∧
      stopped (Pool.tryKillingIdleWorkers smallPool 200) p = some .runningBelowPendingExit) ∧
    ∃ p, Reaches (Op.run smallPool) (fun op p => op.AsNodeManager smallPool p ∧ op.OfRegistered p) {} p ∧
      stopped (Pool.tryKillingIdleWorkers smallPool 200) p = some .runningBelowProcess := by
  let first : Worker := ⟨1, .java, .worker, 0, 0, 0, 100, 100⟩
  let second : Worker := ⟨2, .java, .worker, 0, 0, 0, 100, 100⟩
  have hposted : (runAll (Op.run smallPool) (fun op p => op.AsNodeManager smallPool p ∧ op.OfRegistered p)
      (startPython ++ [.popWorker ⟨7, .python, 0, false, false, false, 0⟩, .disconnectWorker pythonWorker false,
        .runPosted 1 (fun _ => false) 0]) {}).map (fun p => (p.idleOfAllLanguages,
          decide (pythonWorker ∈ p.registeredWorkers .python),
          decide (.invoked 0 (some (pythonWorker, false)) .ok false ∈ p.log))) =
      some ([(pythonWorker, 1)], false, true) := by
    decide +kernel
  have hexit : (runAll (Op.run smallPool) (fun op p => op.AsNodeManager smallPool p ∧ op.OfRegistered p)
      (startPython ++ [.tryKillingIdleWorkers 100, .disconnectWorker pythonWorker true]) {}).map
        (fun p => stopped (Pool.tryKillingIdleWorkers smallPool 200) p) = some (some .runningBelowPendingExit) := by
    decide +kernel
  have hprocess : (runAll (Op.run smallPool) (fun op p => op.AsNodeManager smallPool p ∧ op.OfRegistered p)
      [.jobStarted 0 2, .startWorkerProcess .java 0, .registerWorker first true, .registerWorker second true,
        .announceWorkerPort 0 (fun _ => true) first, .announceWorkerPort 0 (fun _ => true) second,
        .tryKillingIdleWorkers 100, .exitReply 0 true] {}).map
        (fun p => stopped (Pool.tryKillingIdleWorkers smallPool 200) p) = some (some .runningBelowProcess) := by
    decide +kernel
  obtain ⟨p, hp, hv⟩ := exists_reaches hposted
  simp only [Prod.mk.injEq, decide_eq_true_eq, decide_eq_false_iff_not] at hv
  exact ⟨⟨p, hp, hv⟩, exists_reaches hexit, exists_reaches hprocess⟩

end AmazonRay.WorkerPool
