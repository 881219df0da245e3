import AmazonRay.ActorSubmitter.Rules

/-! The numbers of the tasks of one queue: every task is completed, waits, is in flight or is outside. -/
namespace AmazonRay.ActorSubmitter
open TaskManager List SequentialActorSubmitQueue Nat

variable {cfg : ActorConfig} {actor : ActorID} {out out' : Nat → Prop} {q q' : ClientQueue}
  {id : TaskID} {c : Nat}

def ClientQueue.Waiting (q : ClientQueue) (c : Nat) : Prop :=
  ∃ r ∈ q.actorSubmitQueue.requests, r.sequenceNo = c

def ClientQueue.Flying (cfg : ActorConfig) (q : ClientQueue) (c : Nat) : Prop :=
  ∃ x callback, q.inflightTaskCallbacks.lookup x = some callback ∧ cfg.actorCounter x = c

def ClientQueue.Submitted (cfg : ActorConfig) (actor : ActorID) (q : ClientQueue) (x : TaskID) : Prop :=
  cfg.actorId x = actor ∧ cfg.actorCounter x < q.numSubmitted

/-- `out` are the counters of the tasks outside of the queue. -/
structure Numbered (cfg : ActorConfig) (actor : ActorID) (out : Nat → Prop) (q : ClientQueue) :
    Prop where
  covered : ∀ c < q.numSubmitted,
    q.actorSubmitQueue.Completed c ∨ q.Waiting c ∨ q.Flying cfg c ∨ out c
  requests : ∀ r ∈ q.actorSubmitQueue.requests,
    q.Submitted cfg actor r.task ∧ cfg.actorCounter r.task = r.sequenceNo
  inflight : ∀ x callback, q.inflightTaskCallbacks.lookup x = some callback → q.Submitted cfg actor x
  completed : ∀ p ∈ q.actorSubmitQueue.outOfOrderCompletedTasks,
    q.Submitted cfg actor p.2 ∧ cfg.actorCounter p.2 = p.1
  sent : ∀ c, q.actorSubmitQueue.callerStartsAt ≤ c →
    q.actorSubmitQueue.Completed c ∨ q.Flying cfg c → c - q.actorSubmitQueue.callerStartsAt ∈ q.sent
  bound : ∀ k ∈ q.sent, q.actorSubmitQueue.callerStartsAt + k < q.numSubmitted
  idle : q.rpcClient = none → q.inflightTaskCallbacks = ∅

lemma numbered_empty : Numbered cfg actor out {} := by
  refine ⟨fun _ hc => absurd hc (not_lt_zero _), nofun, nofun,
    nofun, ?_, nofun, fun _ => rfl⟩
  rintro c - ((h | h) | ⟨_, _, h, -⟩)
  · exact absurd h (not_lt_zero _)
  · cases h
  · cases h

section

variable (h : Numbered cfg actor out q)
include h

lemma Numbered.gapless (hout : ∀ c < q.numSubmitted, ¬ out c)
    (hwaiting : q.actorSubmitQueue.requests = []) (hflying : q.inflightTaskCallbacks = ∅) (k : Nat) :
    k ∈ q.sent ↔ k < q.numSubmitted - q.actorSubmitQueue.callerStartsAt := by
  constructor
  · intro hk
    have := h.bound k hk
    omega
  · intro hk
    let c := q.actorSubmitQueue.callerStartsAt + k
    have hc : c < q.numSubmitted := by simp only [c]; omega
    have hcompleted : q.actorSubmitQueue.Completed c := by
      rcases h.covered c hc with hdone | ⟨r, hr, -⟩ | ⟨x, callback, hx, -⟩ | ho
      · exact hdone
      · rw [hwaiting] at hr
        cases hr
      · rw [hflying] at hx
        cases hx
      · exact absurd ho (hout c hc)
    have hsent := h.sent c (le_add_right _ _) (.inl hcompleted)
    rwa [Nat.add_sub_cancel_left] at hsent

lemma Numbered.narrow (ho : ∀ c, out c → out' c ∨ q.Waiting c) : Numbered cfg actor out' q := by
  refine { h with covered := fun c hc => ?_ }
  rcases h.covered c hc with hdone | hwait | hf | hout
  · exact .inl hdone
  · exact .inr (.inl hwait)
  · exact .inr (.inr (.inl hf))
  · rcases ho c hout with hout | hwait
    · exact .inr (.inr (.inr hout))
    · exact .inr (.inl hwait)

lemma Numbered.mono (ho : ∀ c, out c → out' c) : Numbered cfg actor out' q := h.narrow fun c hc => .inl (ho c hc)

lemma Numbered.same (hs : q'.actorSubmitQueue = q.actorSubmitQueue)
    (hi : q'.inflightTaskCallbacks = q.inflightTaskCallbacks) (hsent : q'.sent = q.sent)
    (hn : q'.numSubmitted = q.numSubmitted) (hr : q'.rpcClient = q.rpcClient) :
    Numbered cfg actor out q' := by
  obtain ⟨hcov, hreq, hinf, hcom, hse, hb, hidle⟩ := h
  simp only [ClientQueue.Waiting, ClientQueue.Flying, ClientQueue.Submitted] at *
  rw [← hs, ← hi, ← hn] at hcov
  constructor
  · exact hcov
  all_goals simp only [ClientQueue.Flying, ClientQueue.Submitted, hs, hi, hsent, hn, hr]
  · exact hreq
  · exact hinf
  · exact hcom
  · exact hse
  · exact hb
  · exact hidle

lemma Numbered.pop {rest : SequentialActorSubmitQueue}
    {skipQueue : Bool} (hpop : q.actorSubmitQueue.popNextTaskToSend = some ((id, skipQueue), rest)) :
    Numbered cfg actor (fun c => out c ∨ c = cfg.actorCounter id)
      { q with actorSubmitQueue := rest } ∧ q.Submitted cfg actor id := by
  unfold popNextTaskToSend at hpop
  split at hpop
  · cases hpop
  case h_2 head tail hr =>
    split at hpop
    case isFalse => cases hpop
    · cases hpop
      obtain ⟨hsub, hcounter⟩ := h.requests head (hr ▸ mem_cons_self)
      refine ⟨{ h with covered := fun c hc => ?_, requests := fun r hm => ?_ }, hsub⟩
      · rcases h.covered c hc with hdone | ⟨r, hm, hrc⟩ | hfly | ho
        · exact .inl hdone
        · rw [hr] at hm
          rcases mem_cons.mp hm with rfl | hm
          · exact .inr (.inr (.inr (.inr (hrc.symm.trans hcounter.symm))))
          · exact .inr (.inl ⟨r, hm, hrc⟩)
        · exact .inr (.inr (.inl hfly))
        · exact .inr (.inr (.inr (.inl ho)))
      · exact h.requests r (hr ▸ mem_cons_of_mem _ hm)

end

section

variable (h : Numbered cfg actor (fun c => out c ∨ c = cfg.actorCounter id) q)
include h

lemma Numbered.push (hid : q.Submitted cfg actor id) (hrpc : q.rpcClient ≠ none)
    (hle : q.actorSubmitQueue.callerStartsAt ≤ cfg.actorCounter id) (callback : Callback) :
    Numbered cfg actor out (q.push id callback (cfg.actorCounter id - q.actorSubmitQueue.callerStartsAt)) := by
  have hlookup := q.lookup_push id callback (cfg.actorCounter id - q.actorSubmitQueue.callerStartsAt)
  have hfly : (q.push id callback (cfg.actorCounter id - q.actorSubmitQueue.callerStartsAt)).Flying
      cfg (cfg.actorCounter id) := ⟨id, _, (hlookup id).trans (if_pos rfl), rfl⟩
  have hflying : ∀ c, q.Flying cfg c →
      (q.push id callback (cfg.actorCounter id - q.actorSubmitQueue.callerStartsAt)).Flying cfg c := by
    rintro c ⟨x, cb, hx, hc⟩
    by_cases hxid : x = id
    · exact hc ▸ hxid ▸ hfly
    · exact ⟨x, cb, by rw [hlookup, if_neg hxid, hx], hc⟩
  refine ⟨fun c hc => ?_, h.requests, fun x cb hx => ?_, h.completed, fun c hc hsent => ?_,
    fun k hk => ?_, fun hnone => absurd hnone hrpc⟩
  · rcases h.covered c hc with hdone | hwait | hf | ho | rfl
    · exact .inl hdone
    · exact .inr (.inl hwait)
    · exact .inr (.inr (.inl (hflying c hf)))
    · exact .inr (.inr (.inr ho))
    · exact .inr (.inr (.inl hfly))
  · rw [hlookup] at hx
    split at hx
    case isTrue hxid => exact hxid ▸ hid
    · exact h.inflight x cb hx
  · refine mem_append.mpr ?_
    rcases hsent with hdone | ⟨x, cb, hx, rfl⟩
    · exact .inl (h.sent c hc (.inl hdone))
    · rw [hlookup] at hx
      split at hx
      case isTrue hxid => exact .inr (mem_singleton.mpr (hxid ▸ rfl))
      · exact .inl (h.sent _ hc (.inr ⟨x, cb, hx, rfl⟩))
  · rcases mem_append.mp hk with hk | hk
    · exact h.bound k hk
    · rw [mem_singleton.mp hk]
      show q.actorSubmitQueue.callerStartsAt + _ < q.numSubmitted
      have := hid.2
      omega

lemma Numbered.complete
    (hid : q.Submitted cfg actor id) (hsent : q.actorSubmitQueue.callerStartsAt ≤ cfg.actorCounter id →
      cfg.actorCounter id - q.actorSubmitQueue.callerStartsAt ∈ q.sent) :
    Numbered cfg actor out { q with
      actorSubmitQueue := q.actorSubmitQueue.markTaskCompleted (cfg.actorCounter id) id } := by
  have hcompleted := q.actorSubmitQueue.completed_markTaskCompleted (cfg.actorCounter id) id
  refine { h with covered := fun c hc => ?_, completed := fun p hp => ?_, sent := fun c hc hx => ?_ }
  · rw [hcompleted]
    rcases h.covered c hc with hdone | hwait | hf | ho | rfl
    · exact .inl (.inr hdone)
    · exact .inr (.inl hwait)
    · exact .inr (.inr (.inl hf))
    · exact .inr (.inr (.inr ho))
    · exact .inl (.inl rfl)
  · rcases mem_markTaskCompleted hp with rfl | hp
    · exact ⟨hid, rfl⟩
    · exact h.completed p hp
  · rw [hcompleted] at hx
    rcases hx with (rfl | hdone) | hf
    · exact hsent hc
    · exact h.sent c hc (.inl hdone)
    · exact h.sent c hc (.inr hf)

end

lemma Numbered.eraseCallback (h : Numbered cfg actor out q) (id : TaskID) :
    Numbered cfg actor (fun c => out c ∨ c = cfg.actorCounter id)
      { q with inflightTaskCallbacks := q.inflightTaskCallbacks.erase id } := by
  have hflying : ∀ {x callback}, (q.inflightTaskCallbacks.erase id).lookup x = some callback →
      x ≠ id ∧ q.inflightTaskCallbacks.lookup x = some callback := by
    intro x callback hx
    obtain ⟨hne, hx⟩ := Table.lookup_of_erase hx
    exact ⟨hne, hx⟩
  refine ⟨fun c hc => ?_, h.requests, fun x cb hx => h.inflight x cb (hflying hx).2, h.completed,
    fun c hc hs => h.sent c hc (hs.imp_right ?_), h.bound, fun hnone => ?_⟩
  · rcases h.covered c hc with hdone | hwait | ⟨x, cb, hx, hxc⟩ | ho
    · exact .inl hdone
    · exact .inr (.inl hwait)
    · by_cases hxid : x = id
      · exact .inr (.inr (.inr (.inr (hxid ▸ hxc.symm))))
      · exact .inr (.inr (.inl ⟨x, cb, by rw [Table.lookup_erase, if_neg hxid, hx], hxc⟩))
    · exact .inr (.inr (.inr (.inl ho)))
  · rintro ⟨x, cb, hx, hxc⟩
    exact ⟨x, cb, (hflying hx).2, hxc⟩
  · have hempty := h.idle hnone
    rw [hempty]
    rfl

lemma ClientQueue.mem_inflight {x : TaskID} {callback : Callback} :
    (x, callback) ∈ q.inflight ↔ q.inflightTaskCallbacks.lookup x = some callback := by
  rw [← Table.mem_entries_iff, ClientQueue.inflight, mem_map]
  constructor
  · rintro ⟨e, he, heq⟩
    cases heq
    exact he
  · exact fun h => ⟨_, h, rfl⟩

variable (h : Numbered cfg actor out q)
include h

lemma Numbered.disconnect : Numbered cfg actor (fun c => out c ∨ q.Flying cfg c) q.disconnect := by
  have hnone : ∀ {c}, ¬ q.disconnect.Flying cfg c := by
    rintro c ⟨x, cb, hx, -⟩
    cases hx
  refine ⟨fun c hc => ?_, h.requests, nofun, h.completed,
    fun c hc hs => h.sent c hc (hs.imp_right fun hf => absurd hf hnone), h.bound, fun _ => rfl⟩
  rcases h.covered c hc with hdone | hwait | hf | ho
  · exact .inl hdone
  · exact .inr (.inl hwait)
  · exact .inr (.inr (.inr (.inr hf)))
  · exact .inr (.inr (.inr (.inl ho)))

lemma Numbered.connect (hidle : q.inflightTaskCallbacks = ∅) (address : Address) (numRestarts : Int) :
    Numbered cfg actor (fun c => out c ∨ c ∈ q.actorSubmitQueue.outOfOrderCompletedTasks.map Prod.fst)
      { q.connect address numRestarts with
        actorSubmitQueue := q.actorSubmitQueue.onClientConnected.popAllOutOfOrderCompletedTasks.2 } := by
  refine ⟨fun c hc => ?_, h.requests, h.inflight, nofun, fun c hc hs => ?_,
    nofun, nofun⟩
  · rcases h.covered c hc with (hlt | hmem) | hwait | hf | ho
    · exact .inl (.inl hlt)
    · exact .inr (.inr (.inr (.inr hmem)))
    · exact .inr (.inl hwait)
    · exact .inr (.inr (.inl hf))
    · exact .inr (.inr (.inr (.inl ho)))
  · -- what is completed is below the position at which the connection starts
    rcases hs with (hlt | hmem) | ⟨x, cb, hx, -⟩
    · exact absurd hlt (not_lt.mpr hc)
    · cases hmem
    · change q.inflightTaskCallbacks.lookup x = some cb at hx
      rw [hidle] at hx
      cases hx

lemma Numbered.emplace (hid : cfg.actorId id = actor) (hle : cfg.actorCounter id ≤ q.numSubmitted) :
    Numbered cfg actor out { q with
      actorSubmitQueue := q.actorSubmitQueue.emplace (cfg.actorCounter id) id
      numSubmitted := max q.numSubmitted (cfg.actorCounter id + 1) } := by
  have hmem : ∀ r, r ∈ (q.actorSubmitQueue.emplace (cfg.actorCounter id) id).requests ↔
      r = { sequenceNo := cfg.actorCounter id, task := id } ∨ r ∈ q.actorSubmitQueue.requests :=
    fun r => mem_orderedInsert _
  have hsub : ∀ {x}, q.Submitted cfg actor x → cfg.actorId x = actor ∧
      cfg.actorCounter x < max q.numSubmitted (cfg.actorCounter id + 1) :=
    fun hx => ⟨hx.1, lt_of_lt_of_le hx.2 (le_max_left _ _)⟩
  refine ⟨fun c hc => ?_, fun r hr => ?_, fun x cb hx => hsub (h.inflight x cb hx), fun p hp =>
    ⟨hsub (h.completed p hp).1, (h.completed p hp).2⟩, h.sent, fun k hk =>
    lt_of_lt_of_le (h.bound k hk) (le_max_left _ _), h.idle⟩
  · by_cases hcid : c = cfg.actorCounter id
    · exact .inr (.inl ⟨_, (hmem _).mpr (.inl rfl), hcid.symm⟩)
    have hlt : c < q.numSubmitted := by
      have : c < max q.numSubmitted (cfg.actorCounter id + 1) := hc
      omega
    rcases h.covered c hlt with hdone | ⟨r, hr, hrc⟩ | hf | ho
    · exact .inl hdone
    · exact .inr (.inl ⟨r, (hmem r).mpr (.inr hr), hrc⟩)
    · exact .inr (.inr (.inl hf))
    · exact .inr (.inr (.inr ho))
  · rcases (hmem r).mp hr with rfl | hr
    · exact ⟨⟨hid, lt_of_lt_of_le (lt_succ_self _) (le_max_right _ _)⟩, rfl⟩
    · exact ⟨hsub (h.requests r hr).1, (h.requests r hr).2⟩

lemma Numbered.markDependencyFailed (n : Nat) : Numbered cfg actor (fun c => out c ∨ c = n) { q with
      actorSubmitQueue := q.actorSubmitQueue.markDependencyFailed n } := by
  refine { h with covered := fun c hc => ?_, requests := fun r hr => ?_ }
  · rcases h.covered c hc with hdone | ⟨r, hr, hrc⟩ | hf | ho
    · exact .inl hdone
    · by_cases hn : c = n
      · exact .inr (.inr (.inr (.inr hn)))
      · exact .inr (.inl ⟨r, mem_filter.mpr ⟨hr, by simpa [hrc] using hn⟩, hrc⟩)
    · exact .inr (.inr (.inl hf))
    · exact .inr (.inr (.inr (.inl ho)))
  · exact h.requests r (mem_filter.mp hr).1

lemma Numbered.markDependencyResolved (n : Nat) : Numbered cfg actor out { q with
      actorSubmitQueue := q.actorSubmitQueue.markDependencyResolved n } := by
  refine { h with covered := fun c hc => ?_, requests := fun r hr => ?_ }
  · rcases h.covered c hc with hdone | ⟨r, hr, hrc⟩ | hf | ho
    · exact .inl hdone
    · refine .inr (.inl ⟨_, mem_map.mpr ⟨r, hr, rfl⟩, ?_⟩)
      split <;> exact hrc
    · exact .inr (.inr (.inl hf))
    · exact .inr (.inr (.inr ho))
  · obtain ⟨r', hr', rfl⟩ := mem_map.mp hr
    split <;> exact h.requests r' hr'

end AmazonRay.ActorSubmitter
