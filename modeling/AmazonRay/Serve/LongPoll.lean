import Mathlib

/-! `LongPollHost`, with the calls of `listen_for_change` that have waited. The objects and the replies are left out. -/
namespace AmazonRay.Serve.LongPoll
open Function List

/-- A call that has registered an event for each key it watches. -/
structure Call (κ : Type) where
  watched : List κ := []
  set : List κ := []
  waiting : Bool := true

/-- An event is known by its key and its call. -/
structure Host (κ : Type) where
  snapshotIds : κ → Option ℤ := fun _ => none
  notifierEvents : κ → List ℕ := fun _ => []
  calls : ℕ → Call κ := fun _ => {}
  numCalls : ℕ := 0

inductive HostOp (κ : Type) where
  | listenForChange (keysToSnapshotIds : List (κ × ℤ))
  | notifyChanged (random : ℤ) (key : κ)
  | changed (call : ℕ)
  | timedOut (call : ℕ)

variable {κ : Type} {h : Host κ}

namespace Host

def Unset (h : Host κ) (call : ℕ) (key : κ) : Prop :=
  call < h.numCalls ∧ key ∈ (h.calls call).watched ∧ key ∉ (h.calls call).set

/-- The stored events are the unset ones, those of finished calls too. -/
def Stored (h : Host κ) : Prop := ∀ key call, call ∈ h.notifierEvents key ↔ h.Unset call key

/-- The end of a call. It leaves the events as they are. -/
def finish (h : Host κ) (call : ℕ) : Host κ :=
  { h with calls := update h.calls call { h.calls call with waiting := false } }

lemma Stored.finish (hs : h.Stored) (call : ℕ) : (h.finish call).Stored := by
  intro key c
  have hc := hs key c
  by_cases heq : c = call
  · subst heq
    simpa [Host.finish, Unset] using hc
  · simpa [Host.finish, Unset, heq] using hc

/-- The key changes in the course of the operations. -/
def Notified (key : κ) (ops : List (HostOp κ)) : Prop := ∃ random, .notifyChanged random key ∈ ops

/-- The operations end the call: by its timeout, or after a change of one of its keys. -/
def Ended (call : ℕ) (keys : List κ) (ops : List (HostOp κ)) : Prop :=
  .timedOut call ∈ ops ∨ ∃ before after, ops = before ++ .changed call :: after ∧ ∃ key ∈ keys, Notified key before

/-- No key is outdated, so that the call waits. -/
def Registers (h : Host κ) (ids : List (κ × ℤ)) : Prop := ¬∃ k ∈ ids, ∃ id ∈ h.snapshotIds k.1, id ≠ k.2

/-- What becomes of a call: the events of its keys are set by their changes, and it waits until it is ended. -/
structure Follows (call : ℕ) (keys : List κ) (ops : List (HostOp κ)) (h : Host κ) : Prop where
  registered : call < h.numCalls
  watched : (h.calls call).watched = keys
  set : ∀ key, key ∈ (h.calls call).set ↔ key ∈ keys ∧ Notified key ops
  waiting : (h.calls call).waiting = true ↔ ¬Ended call keys ops

variable {call : ℕ} {keys : List κ} {ops : List (HostOp κ)} {ids : List (κ × ℤ)}

lemma notified_concat (key : κ) (op : HostOp κ) :
    Notified key (ops ++ [op]) ↔ Notified key ops ∨ ∃ random, op = .notifyChanged random key := by
  simp only [Notified, mem_append, mem_singleton, exists_or, eq_comm]

lemma ended_concat (op : HostOp κ) : Ended call keys (ops ++ [op]) ↔
    Ended call keys ops ∨ op = .timedOut call ∨ op = .changed call ∧ ∃ key ∈ keys, Notified key ops := by
  constructor
  · rintro (htimeout | ⟨before, after, hops, hkey⟩)
    · rcases mem_append.mp htimeout with hmem | hmem
      · exact .inl (.inl hmem)
      · exact .inr (.inl (mem_singleton.mp hmem).symm)
    · rcases eq_nil_or_concat after with rfl | ⟨after, last, rfl⟩
      · obtain ⟨rfl, hop⟩ := append_inj' hops rfl
        exact .inr (.inr ⟨(List.cons.inj hop).1, hkey⟩)
      · rw [concat_eq_append, ← cons_append, ← append_assoc] at hops
        exact .inl (.inr ⟨before, after, (append_inj' hops rfl).1, hkey⟩)
  · rintro ((htimeout | ⟨before, after, rfl, hkey⟩) | rfl | ⟨rfl, hkey⟩)
    · exact .inl (mem_append_left _ htimeout)
    · exact .inr ⟨before, after ++ [op], by simp, hkey⟩
    · exact .inl (by simp)
    · exact .inr ⟨ops, [], rfl, hkey⟩

/-- The end of a call, which leaves the other calls and the events as they are. -/
lemma Follows.finish (hf : Follows call keys ops h) {op : HostOp κ} {c : ℕ}
    (hop : op = .timedOut c ∨ op = .changed c ∧ (h.calls c).set ≠ []) :
    Follows call keys (ops ++ [op]) (h.finish c) := by
  have hset key : Notified key (ops ++ [op]) ↔ Notified key ops := by
    rw [notified_concat, or_iff_left]
    rintro ⟨random, rfl⟩
    rcases hop with hop | ⟨hop, -⟩ <;> cases hop
  have hkeys (h' : (h.calls call).set ≠ []) : ∃ key ∈ keys, Notified key ops := by
    obtain ⟨key, hkey⟩ := exists_mem_of_ne_nil _ h'
    exact ⟨key, (hf.set key).mp hkey⟩
  by_cases hc : c = call
  · subst hc
    refine ⟨hf.registered, by simpa [Host.finish] using hf.watched, fun key => ?_, ?_⟩
    · simpa [Host.finish, hset] using hf.set key
    · have hended : Ended c keys (ops ++ [op]) :=
        (ended_concat op).mpr (.inr (hop.imp_right fun h => ⟨h.1, hkeys h.2⟩))
      simp [Host.finish, hended]
  · have hcall : (h.finish c).calls call = h.calls call := update_of_ne (Ne.symm hc) _ _
    refine ⟨hf.registered, hcall ▸ hf.watched, fun key => ?_, ?_⟩
    · rw [hcall, hset, hf.set]
    · rw [hcall, hf.waiting, ended_concat, or_iff_left]
      rintro (rfl | ⟨rfl, -⟩) <;> simp [Ne.symm hc] at hop

variable [DecidableEq κ]

/-- The call up to its `await`. -/
def listenForChange (h : Host κ) (keysToSnapshotIds : List (κ × ℤ)) : Host κ :=
  if ∃ k ∈ keysToSnapshotIds, ∃ id ∈ h.snapshotIds k.1, id ≠ k.2 then h else
    let watched := keysToSnapshotIds.map Prod.fst
    { h with
      notifierEvents := fun k => if k ∈ watched then h.numCalls :: h.notifierEvents k else h.notifierEvents k
      calls := update h.calls h.numCalls { watched }
      numCalls := h.numCalls + 1 }

def notifyChanged (h : Host κ) (random : ℤ) (key : κ) : Host κ :=
  { h with
    snapshotIds := update h.snapshotIds key (some ((h.snapshotIds key).getD random + 1))
    notifierEvents := update h.notifierEvents key []
    calls := fun c =>
      if c ∈ h.notifierEvents key then { h.calls c with set := key :: (h.calls c).set } else h.calls c }

def step (h : Host κ) : HostOp κ → Host κ
  | .listenForChange ids => h.listenForChange ids
  | .notifyChanged random key => h.notifyChanged random key
  | .changed call => if (h.calls call).set ≠ [] then h.finish call else h
  | .timedOut call => h.finish call

lemma Stored.listenForChange (hs : h.Stored) (ids : List (κ × ℤ)) : (h.listenForChange ids).Stored := by
  unfold Host.listenForChange
  split
  · exact hs
  · intro key call
    have hcall := hs key call
    by_cases hnew : call = h.numCalls
    · by_cases hkey : key ∈ ids.map Prod.fst <;> simp_all [Unset]
    · by_cases hkey : key ∈ ids.map Prod.fst <;> simp_all [Unset] <;> omega

lemma Stored.notifyChanged (hs : h.Stored) (random : ℤ) (key : κ) : (h.notifyChanged random key).Stored := by
  intro k call
  have hkey := hs key call
  have hk := hs k call
  by_cases heq : k = key
  · subst heq
    by_cases hmem : call ∈ h.notifierEvents k <;> simp_all [Host.notifyChanged, Unset]
  · by_cases hmem : call ∈ h.notifierEvents key <;> simp_all [Host.notifyChanged, Unset]

lemma Stored.step (hs : h.Stored) (op : HostOp κ) : (h.step op).Stored := by
  cases op with
  | listenForChange ids => exact hs.listenForChange ids
  | notifyChanged random key => exact hs.notifyChanged random key
  | changed call =>
    rw [Host.step]
    split
    · exact hs.finish call
    · exact hs
  | timedOut call => exact hs.finish call

lemma Stored.run (hs : h.Stored) (ops : List (HostOp κ)) : (ops.foldl Host.step h).Stored := by
  induction ops generalizing h with
  | nil => exact hs
  | cons op ops ih => exact ih (hs.step op)

lemma Follows.listenForChange (hf : Follows call keys ops h) (ids : List (κ × ℤ)) :
    Follows call keys (ops ++ [.listenForChange ids]) (h.listenForChange ids) := by
  have hset key : Notified key (ops ++ [.listenForChange ids]) ↔ Notified key ops := by simp [notified_concat]
  have hended : Ended call keys (ops ++ [.listenForChange ids]) ↔ Ended call keys ops := by simp [ended_concat]
  unfold Host.listenForChange
  split
  · exact ⟨hf.registered, hf.watched, fun key => (hf.set key).trans (by rw [hset]), hf.waiting.trans (by rw [hended])⟩
  · have hcall c : update h.calls h.numCalls c call = h.calls call := update_of_ne hf.registered.ne _ _
    refine ⟨Nat.lt_succ_of_lt hf.registered, ?_, fun key => ?_, ?_⟩ <;> dsimp only <;> rw [hcall]
    · exact hf.watched
    · rw [hset, hf.set]
    · rw [hended, hf.waiting]

lemma Follows.notifyChanged (hf : Follows call keys ops h) (hs : h.Stored) (random : ℤ) (key : κ) :
    Follows call keys (ops ++ [.notifyChanged random key]) (h.notifyChanged random key) := by
  have hstored := hs key call
  rw [Unset, hf.watched, and_iff_right hf.registered] at hstored
  have hended : Ended call keys (ops ++ [.notifyChanged random key]) ↔ Ended call keys ops := by simp [ended_concat]
  refine ⟨hf.registered, ?_, fun k => ?_, ?_⟩ <;> simp only [Host.notifyChanged]
  · split <;> exact hf.watched
  · rw [notified_concat, and_or_left, ← hf.set]
    by_cases hk : k = key
    · subst hk
      have hnow : ∃ r, HostOp.notifyChanged random k = .notifyChanged r k := ⟨random, rfl⟩
      split <;> simp only [mem_cons, hnow] <;> tauto
    · split <;> simp [hk, Ne.symm hk]
  · rw [hended, ← hf.waiting]
    split <;> rfl

lemma Follows.step (hf : Follows call keys ops h) (hs : h.Stored) (op : HostOp κ) :
    Follows call keys (ops ++ [op]) (h.step op) := by
  cases op with
  | listenForChange ids => exact hf.listenForChange ids
  | notifyChanged random key => exact hf.notifyChanged hs random key
  | timedOut c => exact hf.finish (.inl rfl)
  | changed c =>
    rw [Host.step]
    split
    case isTrue hset => exact hf.finish (.inr ⟨rfl, hset⟩)
    case isFalse hset =>
      refine ⟨hf.registered, hf.watched, fun key => ?_, ?_⟩
      · simpa [notified_concat] using hf.set key
      · rw [hf.waiting, ended_concat, or_iff_left]
        rintro (hop | ⟨hop, key, hkey, hnotified⟩) <;> cases hop
        exact hset (ne_nil_of_mem ((hf.set key).mpr ⟨hkey, hnotified⟩))

lemma Follows.run (hs : h.Stored) (hf : Follows call keys [] h) (ops : List (HostOp κ)) :
    Follows call keys ops (ops.foldl Host.step h) := by
  induction ops using List.reverseRecOn with
  | nil => exact hf
  | append_singleton ops op ih =>
    rw [foldl_concat]
    exact ih.step (hs.run ops) op

/-- A call that registers is followed from then on. -/
lemma follows_of_registers (hs : h.Stored) (hids : h.Registers ids) (after : List (HostOp κ)) :
    Follows h.numCalls (ids.map Prod.fst) after (after.foldl Host.step (h.step (.listenForChange ids))) := by
  refine Follows.run (hs.step _) ?_ after
  rw [Host.step, Host.listenForChange, if_neg hids]
  exact ⟨Nat.lt_succ_self _, by simp, by simp [Notified], by simp [Ended]⟩

lemma exists_registers (hcall : call < (ops.foldl Host.step {}).numCalls) : ∃ before ids after,
    ops = before ++ .listenForChange ids :: after ∧ (before.foldl Host.step {}).Registers ids ∧
      (before.foldl Host.step {}).numCalls = call := by
  induction ops using List.reverseRecOn with
  | nil => exact absurd hcall (Nat.not_lt_zero call)
  | append_singleton ops op ih =>
    by_cases hearlier : call < (ops.foldl Host.step {}).numCalls
    · obtain ⟨before, ids, after, rfl, hids, hnum⟩ := ih hearlier
      exact ⟨before, ids, after ++ [op], by simp, hids, hnum⟩
    · rw [foldl_concat] at hcall
      cases op with
      | listenForChange ids =>
        rw [Host.step, Host.listenForChange] at hcall
        split at hcall
        · exact absurd hcall hearlier
        case isFalse hids => exact ⟨ops, ids, [], rfl, hids, by dsimp only at hcall; omega⟩
      | notifyChanged random key => exact absurd hcall hearlier
      | timedOut c => exact absurd hcall hearlier
      | changed c =>
        rw [Host.step] at hcall
        split at hcall <;> exact absurd hcall hearlier

/-- The stored events are those of the waiting calls if and only if each key of each call that was ended has changed
since the call was made. -/
theorem notifier_events_of_waiting (ops : List (HostOp κ)) :
    let h := ops.foldl step {}
    (∀ key call, call ∈ h.notifierEvents key ↔ (h.calls call).waiting ∧ h.Unset call key) ↔
      ∀ before ids after, ops = before ++ .listenForChange ids :: after → (before.foldl step {}).Registers ids →
        Ended (before.foldl step {}).numCalls (ids.map Prod.fst) after →
        ∀ key ∈ ids.map Prod.fst, Notified key after := by
  intro h
  have hstart : Stored ({} : Host κ) := fun _ _ => by simp [Unset]
  have hs : h.Stored := hstart.run ops
  have hfollows {before after : List (HostOp κ)} {ids : List (κ × ℤ)} (hops : ops = before ++ .listenForChange ids :: after)
      (hids : (before.foldl step {}).Registers ids) :
      Follows (before.foldl step {}).numCalls (ids.map Prod.fst) after h := by
    have hf := follows_of_registers (hstart.run before) hids after
    rwa [← foldl_cons (f := step), ← foldl_append, ← hops] at hf
  constructor
  · intro hwaiting before ids after hops hids hended key hkey
    have hf := hfollows hops hids
    by_contra hnot
    have hunset : h.Unset (before.foldl step {}).numCalls key :=
      ⟨hf.registered, hf.watched ▸ hkey, fun hset => hnot ((hf.set key).mp hset).2⟩
    exact hf.waiting.mp ((hwaiting key _).mp ((hs key _).mpr hunset)).1 hended
  · intro hchanged key call
    rw [hs key call]
    refine ⟨fun hunset => ⟨?_, hunset⟩, And.right⟩
    obtain ⟨before, ids, after, hops, hids, rfl⟩ := exists_registers hunset.1
    have hf := hfollows hops hids
    refine hf.waiting.mpr fun hended => hunset.2.2 ((hf.set key).mpr ?_)
    have hkey : key ∈ ids.map Prod.fst := hf.watched ▸ hunset.2.1
    exact ⟨hkey, hchanged before ids after hops hids hended key hkey⟩

/-- A call that times out leaves its event. -/
theorem timed_out_event_stays :
    let h : Host ℕ := [.listenForChange [(7, -1)], .timedOut 0].foldl step {}
    h.notifierEvents 7 = [0] ∧ ∀ call < h.numCalls, (h.calls call).waiting = false := by
  decide

end Host
end AmazonRay.Serve.LongPoll
