import AmazonRay.Serve.LongPoll

/-! A `LongPollClient` and its host, among other clients. Shutdown is left out. -/
namespace AmazonRay.Serve.LongPoll
open Function

/-- `updates` are those of a reply that are still to be applied. -/
inductive Phase (κ ω : Type) where
  | polling
  | waiting (call : ℕ)
  | replied (updates : List (κ × ℤ × Option ω))

/-- `objects` are the snapshots of the host. `callbacks` has the keys and the ids of the updates, the latest first. -/
structure Session (κ ω : Type) where
  host : Host κ := {}
  objects : κ → Option ω := fun _ => none
  snapshotIds : κ → ℤ := fun _ => -1
  objectSnapshots : κ → Option ω := fun _ => none
  callbacks : List (κ × ℤ) := []
  phase : Phase κ ω := .polling

inductive SessionOp (κ ω : Type) where
  | listenForChange
  | notifyChanged (random : ℕ) (key : κ) (object : ω)
  | changed (key : κ)
  | timedOut
  | processUpdate
  | otherListens (keysToSnapshotIds : List (κ × ℤ))
  | otherReturns (call : ℕ)

namespace Session

variable {κ ω : Type} {keys : { l : List κ // l.Nodup }} {s : Session κ ω}

def clientOutdatedKeys (s : Session κ ω) (keys : List κ) : List (κ × ℤ × Option ω) :=
  keys.filterMap fun k => ((s.host.snapshotIds k).filter (· ≠ s.snapshotIds k)).map fun id => (k, id, s.objects k)

/-- The updates that are not applied yet are newer than what the client has. -/
def InPhase (s : Session κ ω) (keys : List κ) : Phase κ ω → Prop
  | .polling => True
  | .waiting call => call < s.host.numCalls ∧ (s.host.calls call).watched = keys ∧
      (∀ k ∈ (s.host.calls call).set, ∃ id, s.host.snapshotIds k = some id ∧ s.snapshotIds k < id) ∧
      ∀ k ∈ keys, k ∉ (s.host.calls call).set → ∀ id, s.host.snapshotIds k = some id → id = s.snapshotIds k
  | .replied updates => (updates.map Prod.fst).Nodup ∧ ∀ u ∈ updates, s.snapshotIds u.1 < u.2.1 ∧
      ∃ id, s.host.snapshotIds u.1 = some id ∧ u.2.1 ≤ id ∧ (u.2.1 = id → u.2.2 = s.objects u.1)

structure Consistent (keys : { l : List κ // l.Nodup }) (s : Session κ ω) : Prop where
  stored : s.host.Stored
  unknown : ∀ k, s.host.snapshotIds k = none → s.snapshotIds k = -1
  behind : ∀ k id, s.host.snapshotIds k = some id →
    s.snapshotIds k ≤ id ∧ (s.snapshotIds k = id → s.objectSnapshots k = s.objects k)
  phase : s.InPhase keys s.phase
  ordered : s.callbacks.Pairwise fun later earlier => later.1 = earlier.1 → earlier.2 < later.2
  passed : ∀ c ∈ s.callbacks, c.2 ≤ s.snapshotIds c.1

lemma Consistent.withHost (h : Consistent keys s) {host : Host κ} (hstored : host.Stored)
    (hids : host.snapshotIds = s.host.snapshotIds) (hnum : s.host.numCalls ≤ host.numCalls)
    (hcalls : ∀ c < s.host.numCalls, (host.calls c).watched = (s.host.calls c).watched ∧
      (host.calls c).set = (s.host.calls c).set) : Consistent keys { s with host } := by
  refine ⟨hstored, hids ▸ h.unknown, hids ▸ h.behind, ?_, h.ordered, h.passed⟩
  have hphase := h.phase
  cases hp : s.phase with
  | polling => trivial
  | replied updates =>
    rw [hp] at hphase
    exact ⟨hphase.1, by simpa only [hids] using hphase.2⟩
  | waiting call =>
    rw [hp] at hphase
    obtain ⟨hlt, hwatched, hset, hunset⟩ := hphase
    obtain ⟨hwatched', hset'⟩ := hcalls call hlt
    refine ⟨hlt.trans_le hnum, hwatched'.trans hwatched, ?_, ?_⟩ <;> simpa only [hids, hset']

lemma Consistent.finish (h : Consistent keys s) (call : ℕ) :
    Consistent keys { s with host := s.host.finish call } := by
  refine h.withHost (h.stored.finish call) rfl le_rfl fun c _ => ?_
  by_cases hc : c = call <;> simp [Host.finish, hc]

variable [DecidableEq κ]

def step (keys : { l : List κ // l.Nodup }) (s : Session κ ω) : SessionOp κ ω → Session κ ω
  | .listenForChange => match s.phase with
    | .polling =>
      let updates := s.clientOutdatedKeys keys
      { s with
        host := s.host.listenForChange (keys.1.map fun k => (k, s.snapshotIds k))
        phase := if updates.isEmpty then .waiting s.host.numCalls else .replied updates }
    | _ => s
  | .notifyChanged random key object =>
    { s with host := s.host.notifyChanged random key, objects := update s.objects key (some object) }
  | .changed key => match s.phase, s.host.snapshotIds key with
    | .waiting call, some id =>
      if key ∈ (s.host.calls call).set then
        { s with host := s.host.finish call, phase := .replied [(key, id, s.objects key)] }
      else s
    | _, _ => s
  | .timedOut => match s.phase with
    | .waiting call => { s with host := s.host.finish call, phase := .polling }
    | _ => s
  | .processUpdate => match s.phase with
    | .replied (u :: updates) =>
      { s with
        snapshotIds := update s.snapshotIds u.1 u.2.1
        objectSnapshots := update s.objectSnapshots u.1 u.2.2
        callbacks := (u.1, u.2.1) :: s.callbacks
        -- the next poll is made when the last callback is completed
        phase := if updates.isEmpty then .polling else .replied updates }
    | _ => s
  | .otherListens ids => { s with host := s.host.listenForChange ids }
  | .otherReturns call => { s with host := s.host.finish call }

lemma snapshotIds_listenForChange (host : Host κ) (ids : List (κ × ℤ)) :
    (host.listenForChange ids).snapshotIds = host.snapshotIds := by
  unfold Host.listenForChange
  split <;> rfl

lemma Consistent.listen (h : Consistent keys s) (ids : List (κ × ℤ)) :
    Consistent keys { s with host := s.host.listenForChange ids } := by
  refine h.withHost (h.stored.listenForChange ids) (snapshotIds_listenForChange _ _) ?_ fun c hc => ?_ <;>
    unfold Host.listenForChange <;> split
  all_goals simp [update_of_ne, Nat.ne_of_lt, *]

lemma Consistent.notifyChanged (h : Consistent keys s) (random : ℕ) (key : κ) (object : ω) :
    Consistent keys (s.step keys (.notifyChanged random key object)) := by
  have hnew : s.snapshotIds key < (s.host.snapshotIds key).getD random + 1 := by
    cases hid : s.host.snapshotIds key with
    | none => simp [h.unknown key hid]
    | some id => exact Int.lt_add_one_of_le (h.behind key id hid).1
  refine ⟨h.stored.notifyChanged random key, fun k hk => ?_, fun k id hk => ?_, ?_, h.ordered, h.passed⟩
  · by_cases hkey : k = key
    · simp [step, Host.notifyChanged, hkey] at hk
    · exact h.unknown k (by simpa [step, Host.notifyChanged, hkey] using hk)
  · by_cases hkey : k = key
    · subst hkey
      simp only [step, Host.notifyChanged, update_self, Option.some.injEq] at hk ⊢
      omega
    · simpa [step, hkey] using h.behind k id (by simpa [step, Host.notifyChanged, hkey] using hk)
  · have hphase := h.phase
    cases hp : s.phase with
    | polling => simp [step, hp, InPhase]
    | replied updates =>
      rw [hp] at hphase
      simp only [step, hp]
      refine ⟨hphase.1, fun u hu => ⟨(hphase.2 u hu).1, ?_⟩⟩
      obtain ⟨-, id, hid, hle, hobject⟩ := hphase.2 u hu
      by_cases hkey : u.1 = key
      · subst hkey
        exact ⟨id + 1, by simp [Host.notifyChanged, hid], by omega, by omega⟩
      · exact ⟨id, by simpa [Host.notifyChanged, hkey] using hid, hle, by simpa [hkey] using hobject⟩
    | waiting call =>
      rw [hp] at hphase
      obtain ⟨hlt, hwatched, hset, hunset⟩ := hphase
      simp only [step, hp]
      have hset' k : k ∈ ((s.host.notifyChanged random key).calls call).set ↔
          k ∈ (s.host.calls call).set ∨ k = key ∧ key ∈ keys.1 := by
        have hevent := h.stored key call
        simp only [Host.notifyChanged]
        split <;> grind [Host.Unset]
      refine ⟨hlt, by rw [Host.notifyChanged]; grind, fun k hk => ?_, fun k hk hnot id hid => ?_⟩
      · by_cases hkey : k = key
        · subst hkey
          exact ⟨_, update_self k _ _, hnew⟩
        · simpa [Host.notifyChanged, hkey] using hset k (by simpa [hset', hkey] using hk)
      · rw [hset', not_or] at hnot
        have hkey : k ≠ key := fun heq => hnot.2 ⟨heq, heq ▸ hk⟩
        exact hunset k hk hnot.1 id (by simpa [Host.notifyChanged, hkey] using hid)

lemma Consistent.listenForChange (h : Consistent keys s) : Consistent keys (s.step keys .listenForChange) := by
  rw [step]
  split
  case h_2 => exact h
  refine { h.listen _ with phase := ?_ }
  by_cases hempty : s.clientOutdatedKeys keys = []
  · have hcurrent : ∀ k ∈ keys.1, ∀ id, s.host.snapshotIds k = some id → id = s.snapshotIds k := by
      intro k hk id hid
      by_contra hne
      simpa [hid, hne] using List.filterMap_eq_nil_iff.mp hempty k hk
    rw [hempty, Host.listenForChange, if_neg (by simpa using hcurrent)]
    exact ⟨Nat.lt_succ_self _, by simp [comp_def], by simp, fun k hk _ id hid => hcurrent k hk id hid⟩
  · simp only [List.isEmpty_iff, if_neg hempty]
    refine ⟨?_, fun u hu => ?_⟩
    · rw [clientOutdatedKeys, List.map_filterMap]
      exact keys.2.filterMap (by simp +contextual)
    · obtain ⟨k, hk, hu⟩ := List.mem_filterMap.mp hu
      obtain ⟨id, hfilter, rfl⟩ := Option.map_eq_some_iff.mp hu
      obtain ⟨hid, hne⟩ := Option.filter_eq_some_iff.mp hfilter
      refine ⟨(h.behind k id hid).1.lt_of_ne (Ne.symm (by simpa using hne)), id, ?_, le_rfl, fun _ => rfl⟩
      rwa [snapshotIds_listenForChange]

lemma Consistent.processUpdate (h : Consistent keys s) : Consistent keys (s.step keys .processUpdate) := by
  rw [step]
  split
  case h_2 => exact h
  case h_1 u updates hp =>
  have hphase := h.phase
  rw [hp] at hphase
  obtain ⟨hnodup, hupdates⟩ := hphase
  obtain ⟨hlt, id, hid, hle, hobject⟩ := hupdates u (.head _)
  refine ⟨h.stored, fun k hk => ?_, fun k n hk => ?_, ?_, ?_, fun c hc => ?_⟩
  · have hkey : k ≠ u.1 := fun heq => by simp [heq, hid] at hk
    simpa [hkey] using h.unknown k hk
  · by_cases hkey : k = u.1
    · subst hkey
      cases hid.symm.trans hk
      simpa using ⟨hle, hobject⟩
    · simpa [hkey] using h.behind k n hk
  · split
    · trivial
    · rw [List.map_cons, List.nodup_cons] at hnodup
      refine ⟨hnodup.2, fun v hv => ?_⟩
      have hne : v.1 ≠ u.1 := fun heq => hnodup.1 (heq ▸ List.mem_map_of_mem hv)
      simpa [hne] using hupdates v (.tail _ hv)
  · exact List.pairwise_cons.mpr ⟨fun c hc heq => (h.passed c hc).trans_lt (heq ▸ hlt), h.ordered⟩
  · rcases List.mem_cons.mp hc with rfl | hc
    · simp
    · by_cases hkey : c.1 = u.1
      · simpa [hkey] using (h.passed c hc).trans (hkey ▸ hlt.le)
      · simpa [hkey] using h.passed c hc

lemma Consistent.step (h : Consistent keys s) (op : SessionOp κ ω) : Consistent keys (s.step keys op) := by
  cases op with
  | listenForChange => exact h.listenForChange
  | notifyChanged random key object => exact h.notifyChanged random key object
  | changed key =>
    rw [Session.step]
    split
    case h_2 => exact h
    case h_1 call id hp hid =>
    split
    case isFalse => exact h
    case isTrue hset =>
    have hphase := h.phase
    rw [hp] at hphase
    obtain ⟨id', hid', hlt⟩ := hphase.2.2.1 key hset
    cases hid.symm.trans hid'
    refine { h.finish call with phase := ⟨List.nodup_singleton _, fun u hu => ?_⟩ }
    cases List.mem_singleton.mp hu
    exact ⟨hlt, id, hid, le_rfl, fun _ => rfl⟩
  | timedOut =>
    rw [Session.step]
    split
    case h_2 => exact h
    case h_1 call hp => exact { h.finish call with phase := trivial }
  | processUpdate => exact h.processUpdate
  | otherListens ids => exact h.listen ids
  | otherReturns call => exact h.finish call

variable (keys) (ops : List (SessionOp κ ω))

lemma consistent_run : Consistent keys (ops.foldl (Session.step keys) {}) := by
  induction ops using List.reverseRecOn with
  | nil => constructor <;> simp [Host.Stored, Host.Unset, InPhase]
  | append_singleton ops op ih =>
    rw [List.foldl_concat]
    exact ih.step op

/-- While its call waits, the client lacks the present object of a key exactly if the event of the key is set, so no
update is lost. -/
theorem outdated_iff_set {call : ℕ} {key : κ} {id : ℤ}
    (hcall : (ops.foldl (Session.step keys) {}).phase = .waiting call) (hkey : key ∈ keys.1)
    (hid : (ops.foldl (Session.step keys) {}).host.snapshotIds key = some id) :
    let s := ops.foldl (Session.step keys) {}
    (s.snapshotIds key ≠ id ↔ key ∈ (s.host.calls call).set) ∧
      (s.snapshotIds key = id → s.objectSnapshots key = s.objects key) := by
  have h := consistent_run keys ops
  have hphase := h.phase
  rw [hcall] at hphase
  refine ⟨⟨fun hne => ?_, fun hset => ?_⟩, (h.behind key id hid).2⟩
  · by_contra hunset
    exact hne (hphase.2.2.2 key hkey hunset id hid).symm
  · obtain ⟨id', hid', hlt⟩ := hphase.2.2.1 key hset
    cases hid.symm.trans hid'
    exact hlt.ne

/-- The object comes with the first reply, and changes while the next call waits. -/
theorem outdated_iff_set_notified :
    let s : Session ℕ ℕ := [.notifyChanged 0 7 1, .listenForChange, .processUpdate, .listenForChange,
      .notifyChanged 0 7 2].foldl (Session.step ⟨[7], by decide⟩) {}
    s.snapshotIds 7 ≠ 2 ↔ 7 ∈ (s.host.calls 0).set :=
  (outdated_iff_set ⟨[7], by decide⟩ _ rfl (by decide) rfl).1

/-- No callback gets an object that is older than one that it got before, or the same again. -/
theorem callbacks_increase : (ops.foldl (Session.step keys) {}).callbacks.Pairwise
    fun later earlier => later.1 = earlier.1 → earlier.2 < later.2 := (consistent_run keys ops).ordered

end Session
end AmazonRay.Serve.LongPoll
