import AmazonRay.Lib.Runs

/-! The replica set of a Serve router: queries in flight by description, and replicas asked in turn. -/
namespace AmazonRay.Serve
open Program List

structure RunningReplicaInfo where
  deploymentName : String
  replicaTag : String
  actorHandle : ℕ
  maxConcurrentQueries : ℤ
  deriving DecidableEq

/-- The replicas are the keys of `in_flight_queries`; the iterator yields its first element next. What was sent and what
is finished is not part of the code's state. -/
structure ReplicaSet where
  replicas : List RunningReplicaInfo
  inFlightQueries : RunningReplicaInfo → Finset ℕ
  replicaIterator : List RunningReplicaInfo
  nextRef : ℕ
  sent : Finset (ℕ × String)
  finished : Finset ℕ

inductive Raised
  | stopIteration

abbrev RouterM := EStateM Raised ReplicaSet

namespace ReplicaSet

def initial : ReplicaSet := ⟨[], fun _ => ∅, [], 0, ∅, ∅⟩

def unfinished (s : ReplicaSet) (tag : String) : Finset (ℕ × String) :=
  s.sent.filter fun e => e.2 = tag ∧ e.1 ∉ s.finished

/-- `handle_request.remote`, with the new reference added to those in flight. -/
def send (s : ReplicaSet) (replica : RunningReplicaInfo) : ReplicaSet :=
  { s with
    inFlightQueries := Function.update s.inFlightQueries replica (insert s.nextRef (s.inFlightQueries replica))
    nextRef := s.nextRef + 1
    sent := insert (s.nextRef, replica.replicaTag) s.sent }

def Overloaded (s : ReplicaSet) (replica : RunningReplicaInfo) : Prop :=
  replica.maxConcurrentQueries ≤ (s.inFlightQueries replica).card

instance (s : ReplicaSet) (replica : RunningReplicaInfo) : Decidable (s.Overloaded replica) :=
  inferInstanceAs (Decidable (_ ≤ _))

/-- `update_running_replicas`; `shuffled` is the order that the shuffle gives the replicas. -/
def updateRunningReplicas (running shuffled : List RunningReplicaInfo) (s : ReplicaSet) : ReplicaSet :=
  let added := running.dedup.filter (· ∉ s.replicas)
  let removed := s.replicas.filter (· ∉ running)
  let replicas := s.replicas.filter (· ∈ running) ++ added
  { s with
    replicas := replicas
    inFlightQueries := fun replica => if replica ∈ s.replicas then s.inFlightQueries replica else ∅
    replicaIterator :=
      if added = [] ∧ removed = [] then s.replicaIterator
      else if shuffled.Perm replicas then shuffled else replicas }

def drainCompletedObjectRefs (s : ReplicaSet) : ReplicaSet :=
  { s with inFlightQueries := fun replica => s.inFlightQueries replica \ s.finished }

end ReplicaSet

open ReplicaSet

/-- The loop of `_try_assign_replica`, with the rounds that are left. -/
def tryAssign : ℕ → RouterM (Option RunningReplicaInfo)
  | 0 => pure none
  | rounds + 1 => do
    let s ← get
    match s.replicaIterator with
    | [] => throw .stopIteration
    | replica :: rest =>
      set { s with replicaIterator := rest ++ [replica] }
      if s.Overloaded replica then tryAssign rounds
      else
        modify (·.send replica)
        return some replica

/-- `_try_assign_replica`: the replica that was asked, if one was. -/
def tryAssignReplica : RouterM (Option RunningReplicaInfo) := do
  let s ← get
  tryAssign s.replicas.length

/-- What runs between two awaits of `assign_replica`, and what happens meanwhile. -/
inductive Op
  | tryAssignReplica
  | drainCompletedObjectRefs
  | updateRunningReplicas (running shuffled : List RunningReplicaInfo)
  | finish (query : ℕ)

def run : Op → RouterM Unit
  | .tryAssignReplica => do let _ ← tryAssignReplica
  | .drainCompletedObjectRefs => modify (·.drainCompletedObjectRefs)
  | .updateRunningReplicas running shuffled => modify (·.updateRunningReplicas running shuffled)
  | .finish query => modify fun s => { s with finished := insert query s.finished }

/-- A list has one description per replica. It enters only when no query of the replica is unfinished. -/
def Op.Regular : Op → ReplicaSet → Prop
  | .updateRunningReplicas running _, s =>
    (∀ a ∈ running, ∀ b ∈ running, a.replicaTag = b.replicaTag → a = b) ∧
      ∀ r ∈ running, r ∉ s.replicas → s.unfinished r.replicaTag = ∅
  | _, _ => True

variable {s : ReplicaSet} {asked : Option RunningReplicaInfo} {t : ReplicaSet} {r : RunningReplicaInfo}

/-- An attempt asks in turn, and sends to a replica that is not overloaded or finds none. -/
def Attempted (s : ReplicaSet) (asked : Option RunningReplicaInfo) (t : ReplicaSet) : Prop :=
  ∃ order, order.Perm s.replicaIterator ∧ match asked with
    | none => (∀ r ∈ s.replicaIterator, s.Overloaded r) ∧ t = { s with replicaIterator := order }
    | some r => r ∈ s.replicaIterator ∧ ¬s.Overloaded r ∧ t = send { s with replicaIterator := order } r

lemma triple_tryAssign {todo asked : List RunningReplicaInfo} (hiterator : s.replicaIterator = todo ++ asked)
    (hasked : ∀ r ∈ asked, s.Overloaded r) :
    Completes s (tryAssign todo.length) (Attempted s) := by
  induction todo generalizing s asked with
  | nil =>
    refine .done ⟨s.replicaIterator, .refl _, ?_, rfl⟩
    rwa [hiterator]
  | cons replica todo ih =>
    refine .seen ?_
    rw [hiterator, cons_append]
    refine .bind (Q := fun _ t => t = { s with replicaIterator := todo ++ asked ++ [replica] })
      (.set fun _ _ => rfl) fun _ => ?_
    have horder : (todo ++ asked ++ [replica]).Perm s.replicaIterator := by
      rw [hiterator, cons_append]
      exact perm_append_singleton _ _
    refine .ite (fun hoverloaded => ?_) fun hfree => ?_
    · have hrest := ih (s := { s with replicaIterator := todo ++ asked ++ [replica] }) (append_assoc _ _ _)
        fun r hr => ?_
      · refine hrest.post fun result t ⟨order, hperm, hresult⟩ => ⟨order, hperm.trans horder, ?_⟩
        cases result with
        | none => exact ⟨fun r hr => hresult.1 r (horder.mem_iff.mpr hr), hresult.2⟩
        | some => exact ⟨horder.mem_iff.mp hresult.1, hresult.2⟩
      · rcases mem_append.mp hr with hr | hr
        · exact hasked r hr
        · exact mem_singleton.mp hr ▸ hoverloaded
    · refine .modified (.done ⟨_, horder, ?_, hfree, rfl⟩)
      rw [hiterator]
      exact mem_cons_self

def Cycles (s : ReplicaSet) : Prop := s.replicaIterator.Perm s.replicas

lemma triple_tryAssignReplica (h : Cycles s) : Completes s tryAssignReplica (Attempted s) := by
  refine .seen ?_
  rw [← h.length_eq]
  exact triple_tryAssign (append_nil _).symm fun r hr => by cases hr

lemma Attempted.cycles (h : Attempted s asked t) (hs : Cycles s) : Cycles t := by
  obtain ⟨order, horder, hresult⟩ := h
  cases asked with
  | none =>
    obtain ⟨-, rfl⟩ := hresult
    exact horder.trans hs
  | some =>
    obtain ⟨-, -, rfl⟩ := hresult
    exact horder.trans hs

lemma Cycles.update (h : Cycles s) (running shuffled : List RunningReplicaInfo) :
    Cycles (s.updateRunningReplicas running shuffled) := by
  unfold Cycles updateRunningReplicas
  dsimp only
  split
  case isTrue hsame =>
    have hall : s.replicas.filter (· ∈ running) = s.replicas := by
      rw [filter_eq_self]
      intro r hr
      by_contra hout
      have hremoved := filter_eq_nil_iff.mp hsame.2 r hr
      simp_all
    rw [hsame.1, hall, append_nil]
    exact h
  · split
    case isTrue hperm => exact hperm
    · exact .refl _

lemma cycles_initial : Cycles initial := List.Perm.nil

lemma cycles_of_reaches {Allowed : Op → ReplicaSet → Prop} (h : Reaches run Allowed initial s) : Cycles s := by
  refine h.invariant (E := fun _ _ => True) cycles_initial fun op t _ ht => ?_
  cases op with
  | tryAssignReplica =>
    refine .bind ((triple_tryAssignReplica ht).weaken fun _ _ _ => trivial) fun asked => .pure fun u hu => hu.cycles ht
  | drainCompletedObjectRefs => exact .updated ht
  | updateRunningReplicas => exact .updated (ht.update _ _)
  | finish => exact .updated ht

/-- Every unfinished query of a replica in the list is among those in flight of its one description. -/
structure Tracked (s : ReplicaSet) : Prop where
  cycles : Cycles s
  distinct : ∀ a ∈ s.replicas, ∀ b ∈ s.replicas, a.replicaTag = b.replicaTag → a = b
  inFlight : ∀ e ∈ s.sent, e.1 ∉ s.finished → ∀ r ∈ s.replicas, r.replicaTag = e.2 → e.1 ∈ s.inFlightQueries r

lemma Tracked.card_unfinished_le (h : Tracked s) (hr : r ∈ s.replicas) :
    (s.unfinished r.replicaTag).card ≤ (s.inFlightQueries r).card := by
  refine Finset.card_le_card_of_injOn Prod.fst ?_ ?_
  · intro e he
    obtain ⟨hsent, htag, hopen⟩ := Finset.mem_filter.mp he
    exact h.inFlight e hsent hopen r hr htag.symm
  · intro e he e' he' heq
    have htag := (Finset.mem_filter.mp he).2.1
    have htag' := (Finset.mem_filter.mp he').2.1
    exact Prod.ext heq (htag.trans htag'.symm)

lemma Tracked.card_unfinished_send (h : Tracked s) (hr : r ∈ s.replicas)
    (hfree : ¬s.Overloaded r) : ((s.send r).unfinished r.replicaTag).card ≤ r.maxConcurrentQueries := by
  have hsub : (s.send r).unfinished r.replicaTag ⊆ insert (s.nextRef, r.replicaTag) (s.unfinished r.replicaTag) := by
    intro e he
    obtain ⟨hsent, hopen⟩ := Finset.mem_filter.mp he
    rcases Finset.mem_insert.mp hsent with rfl | hsent
    · exact Finset.mem_insert_self _ _
    · exact Finset.mem_insert_of_mem (Finset.mem_filter.mpr ⟨hsent, hopen⟩)
  have hcard := (Finset.card_le_card hsub).trans (Finset.card_insert_le _ _)
  have hle := h.card_unfinished_le hr
  unfold Overloaded at hfree
  omega

lemma Tracked.attempted (h : Tracked s) (ht : Attempted s asked t) : Tracked t := by
  have hcycles := ht.cycles h.cycles
  obtain ⟨order, -, hresult⟩ := ht
  cases asked with
  | none =>
    obtain ⟨-, rfl⟩ := hresult
    exact ⟨hcycles, h.distinct, h.inFlight⟩
  | some r =>
    obtain ⟨hr, -, rfl⟩ := hresult
    refine ⟨hcycles, h.distinct, ?_⟩
    intro e he hopen x hx htag
    rcases Finset.mem_insert.mp he with rfl | he
    · cases h.distinct x hx r (h.cycles.mem_iff.mp hr) htag
      simp [send]
    · have hin := h.inFlight e he hopen x hx htag
      by_cases hxr : x = r
      · subst hxr
        simp [send, hin]
      · simpa [send, Function.update_of_ne hxr] using hin

lemma Tracked.update (h : Tracked s) {running shuffled : List RunningReplicaInfo}
    (hregular : (Op.updateRunningReplicas running shuffled).Regular s) :
    Tracked (s.updateRunningReplicas running shuffled) := by
  have hmem {r : RunningReplicaInfo} (hr : r ∈ (s.updateRunningReplicas running shuffled).replicas) : r ∈ running := by
    rcases mem_append.mp hr with hr | hr
    · exact of_decide_eq_true (mem_filter.mp hr).2
    · exact mem_dedup.mp (mem_filter.mp hr).1
  refine ⟨h.cycles.update running shuffled, fun a ha b hb => hregular.1 a (hmem ha) b (hmem hb), ?_⟩
  intro e he hopen r hr htag
  have hold : r ∈ s.replicas := by
    by_contra henters
    have hnone := hregular.2 r (hmem hr) henters
    exact Finset.notMem_empty e (hnone ▸ Finset.mem_filter.mpr ⟨he, htag.symm, hopen⟩)
  simpa [updateRunningReplicas, hold] using h.inFlight e he hopen r hold htag

lemma tracked_of_reaches (h : Reaches run Op.Regular initial s) : Tracked s := by
  refine h.invariant (E := fun _ _ => True) ⟨cycles_initial, ?_, ?_⟩ fun op t hop ht => ?_
  · intro a ha
    cases ha
  · intro e he
    cases he
  cases op with
  | tryAssignReplica =>
    refine .bind ((triple_tryAssignReplica ht.cycles).weaken fun _ _ _ => trivial) fun asked => .pure fun u hu => ht.attempted hu
  | drainCompletedObjectRefs =>
    refine .updated ⟨ht.cycles, ht.distinct, fun e he hopen r hr htag => ?_⟩
    exact Finset.mem_sdiff.mpr ⟨ht.inFlight e he hopen r hr htag, hopen⟩
  | updateRunningReplicas => exact .updated (ht.update hop)
  | finish =>
    exact .updated ⟨ht.cycles, ht.distinct, fun e he hopen =>
      ht.inFlight e he fun hdone => hopen (Finset.mem_insert_of_mem hdone)⟩

/-- An attempt sends to a replica of the current list that is within its limit with the new query,
and fails only when every replica has as many entries as its limit. -/
theorem attempts_within_limits (s : ReplicaSet) (hs : Reaches run (fun _ _ => True) initial s) :
    (∃ asked t, tryAssignReplica s = .ok asked t ∧
      (asked = none → ∀ r ∈ s.replicas, r.maxConcurrentQueries ≤ (s.inFlightQueries r).card)) ∧
    (Reaches run Op.Regular initial s → ∀ r t, tryAssignReplica s = .ok (some r) t →
      r ∈ t.replicas ∧ (t.unfinished r.replicaTag).card ≤ r.maxConcurrentQueries) := by
  refine ⟨?_, fun hs r t hrun => ?_⟩
  · have hcycles := cycles_of_reaches hs
    obtain ⟨asked, t, hrun, order, -, hresult⟩ := (triple_tryAssignReplica hcycles).returns rfl
    refine ⟨asked, t, hrun, ?_⟩
    rintro rfl r hr
    exact hresult.1 r (hcycles.mem_iff.mpr hr)
  · have htracked := tracked_of_reaches hs
    obtain ⟨order, -, hr, hfree, rfl⟩ := (triple_tryAssignReplica htracked.cycles).returned rfl hrun
    have hmem := htracked.cycles.mem_iff.mp hr
    exact ⟨hmem, htracked.card_unfinished_send hmem hfree⟩

def replica : RunningReplicaInfo := ⟨"d", "d#a", 0, 1⟩

theorem attempts_within_limits_replica : ∃ s, Reaches run Op.Regular initial s ∧ ∃ t,
    tryAssignReplica s = .ok (some replica) t ∧ (t.unfinished replica.replicaTag).card ≤ replica.maxConcurrentQueries := by
  have hregular : Op.Regular (.updateRunningReplicas [replica] [replica]) initial := ⟨by simp, by simp [initial, unfinished]⟩
  have hstep : run (.updateRunningReplicas [replica] [replica]) initial = .ok () _ := rfl
  have hs := Reaches.start.step hregular hstep
  have hrun : tryAssignReplica (initial.updateRunningReplicas [replica] [replica]) = .ok (some replica)
      (send { initial.updateRunningReplicas [replica] [replica] with replicaIterator := [replica] } replica) := rfl
  exact ⟨_, hs, _, hrun, ((attempts_within_limits _ (.step .start trivial hstep)).2 hs _ _ hrun).2⟩

/-- A replica that leaves the list and comes back is asked again while its query runs. -/
theorem returning_replica_overloaded : ∃ s, Reaches run (fun _ _ => True) initial s ∧
    replica ∈ s.replicas ∧ (s.unfinished replica.replicaTag).card = 2 := by
  refine exists_after [.updateRunningReplicas [replica] [replica], .tryAssignReplica,
      .updateRunningReplicas [] [], .updateRunningReplicas [replica] [replica], .tryAssignReplica]
    (fun s => (s.replicas, (s.unfinished replica.replicaTag).card)) ([replica], 2)
    (by decide +kernel) fun s _ hseen => ?_
  obtain ⟨hreplicas, hcard⟩ := Prod.ext_iff.mp hseen
  have hreplicas : s.replicas = [replica] := hreplicas
  exact ⟨hreplicas ▸ mem_singleton_self replica, hcard⟩

end AmazonRay.Serve
