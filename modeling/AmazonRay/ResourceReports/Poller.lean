import AmazonRay.Ids
import AmazonRay.Lib.Runs

/-! `GcsResourceReportPoller`: which node is asked for its report next. -/
namespace AmazonRay.ResourceReports
open List Program

/-- The address is left out. -/
structure PullState where
  nodeId : NodeID
  nextPullTime : ℤ

structure PollerConfig where
  maxConcurrentPulls : ℕ
  pollPeriodMs : ℕ

/-- `nodes` are the keys of `nodes_`. The requests without a processed reply, the nodes ever added and the last time are
not part of the code's state. -/
structure Poller where
  nodes : Finset NodeID := ∅
  toPullQueue : List PullState := []
  inflightPulls : ℕ := 0
  requests : List PullState := []
  added : Finset NodeID := ∅
  now : ℤ

/-- The loop of `TryPullResourceReport`. -/
def pullDue (cfg : PollerConfig) : List PullState → Poller → Poller
  | [], s => { s with toPullQueue := [] }
  | toPull :: queue, s =>
    if s.inflightPulls < cfg.maxConcurrentPulls ∧ toPull.nextPullTime ≤ s.now then
      pullDue cfg queue (if toPull.nodeId ∈ s.nodes then
        { s with inflightPulls := s.inflightPulls + 1, requests := s.requests ++ [toPull] } else s)
    else { s with toPullQueue := toPull :: queue }

def tryPullResourceReport (cfg : PollerConfig) (s : Poller) (now : ℤ) : Poller := pullDue cfg s.toPullQueue { s with now }

inductive PollerOp where
  | handleNodeAdded (nodeId : NodeID)
  | handleNodeRemoved (nodeId : NodeID)
  | tryPullResourceReport
  | nodeResourceReportReceived (i : ℕ)

/-- A call, and the time at which it is made. -/
def PollerOp.apply (cfg : PollerConfig) (s : Poller) (call : PollerOp × ℤ) : Poller :=
  match call with
  | (.handleNodeAdded nodeId, now) => { s with
      nodes := insert nodeId s.nodes, toPullQueue := ⟨nodeId, now⟩ :: s.toPullQueue, added := insert nodeId s.added, now }
  | (.handleNodeRemoved nodeId, now) => { s with nodes := s.nodes.erase nodeId, now }
  | (.tryPullResourceReport, now) => ResourceReports.tryPullResourceReport cfg s now
  | (.nodeResourceReportReceived i, now) =>
    match s.requests[i]? with
    | none => s
    | some state => { s with
        inflightPulls := s.inflightPulls - 1
        toPullQueue := s.toPullQueue ++ [{ state with nextPullTime := now + cfg.pollPeriodMs }]
        requests := s.requests.eraseIdx i
        now }

def Poller.states (s : Poller) (id : NodeID) : ℕ := (s.toPullQueue ++ s.requests).countP fun state => state.nodeId = id

/-- The clock does not go back, an added node is new, and a reply is to a request. -/
def PollerOp.Allowed (s : Poller) (call : PollerOp × ℤ) : Prop :=
  s.now ≤ call.2 ∧ match call.1 with
    | .handleNodeAdded nodeId => nodeId ∉ s.added
    | .nodeResourceReportReceived i => i < s.requests.length
    | _ => True

def runPoller (cfg : PollerConfig) (start : ℤ) (calls : List (PollerOp × ℤ)) : Poller :=
  calls.foldl (PollerOp.apply cfg) { now := start }

structure Poller.Sound (cfg : PollerConfig) (s : Poller) : Prop where
  once : ∀ id ∈ s.nodes, s.states id = 1
  known : ∀ a ∈ s.toPullQueue ++ s.requests, a.nodeId ∈ s.added
  counted : s.inflightPulls = s.requests.length
  bounded : s.inflightPulls ≤ cfg.maxConcurrentPulls
  ordered : s.toPullQueue.Pairwise fun a b => a.nextPullTime ≤ b.nextPullTime ∨ a.nextPullTime ≤ s.now
  soon : ∀ a ∈ s.toPullQueue, a.nextPullTime ≤ s.now + cfg.pollPeriodMs

/-- No node that is due is left, unless no more pulls can be made. -/
def Poller.Drained (cfg : PollerConfig) (s : Poller) : Prop :=
  ∀ a ∈ s.toPullQueue, a.nextPullTime ≤ s.now → s.inflightPulls = cfg.maxConcurrentPulls

variable {cfg : PollerConfig} {s : Poller}

lemma Poller.Sound.later (h : s.Sound cfg) {now : ℤ} (hnow : s.now ≤ now) : ({ s with now } : Poller).Sound cfg :=
  { h with
    ordered := h.ordered.imp fun hab => hab.imp_right fun ha => ha.trans hnow
    soon := fun a ha => (h.soon a ha).trans (by simpa using hnow) }

lemma Poller.Sound.pullDue {queue : List PullState} (h : ({ s with toPullQueue := queue } : Poller).Sound cfg) :
    (pullDue cfg queue s).Sound cfg ∧ (pullDue cfg queue s).Drained cfg := by
  induction queue generalizing s with
  | nil => exact ⟨h, fun _ ha => absurd ha not_mem_nil⟩
  | cons toPull queue ih =>
    obtain ⟨hfirst, hordered⟩ := pairwise_cons.mp h.ordered
    have hsoon := fun a ha => h.soon a (mem_cons_of_mem _ ha)
    unfold ResourceReports.pullDue
    by_cases hpull : s.inflightPulls < cfg.maxConcurrentPulls ∧ toPull.nextPullTime ≤ s.now
    · rw [if_pos hpull]
      by_cases hnode : toPull.nodeId ∈ s.nodes
      · rw [if_pos hnode]
        refine ih ⟨fun id hid => ?_, fun a ha => h.known a ?_, ?_, hpull.1, hordered, hsoon⟩
        · rw [← h.once id hid]
          simp only [Poller.states, countP_append, countP_cons, countP_nil]
          omega
        · simp only [mem_append, mem_cons, not_mem_nil] at ha ⊢
          tauto
        · simpa using h.counted
      · rw [if_neg hnode]
        refine ih { h with
          once := fun id hid => ?_, known := fun a ha => h.known a (mem_cons_of_mem _ ha), ordered := hordered, soon := hsoon }
        rw [← h.once id hid]
        have hne : toPull.nodeId ≠ id := fun heq => hnode (heq ▸ hid)
        simp [Poller.states, hne]
    · rw [if_neg hpull]
      refine ⟨h, fun a ha hdue => ?_⟩
      by_contra hroom
      have hlater := fun hnow => hpull ⟨lt_of_le_of_ne h.bounded hroom, hnow⟩
      rcases mem_cons.mp ha with rfl | ha
      · exact hlater hdue
      · exact hlater ((hfirst a ha).elim (fun hle => hle.trans hdue) id)

lemma Poller.Sound.apply (h : s.Sound cfg) {call : PollerOp × ℤ} (ha : PollerOp.Allowed s call) :
    (PollerOp.apply cfg s call).Sound cfg := by
  obtain ⟨op, now⟩ := call
  obtain ⟨hnow : s.now ≤ now, ha⟩ := ha
  have hlater := h.later hnow
  cases op with
  | handleNodeAdded nodeId =>
    have hnew : s.states nodeId = 0 := countP_eq_zero.mpr fun a hmem heq => ha (of_decide_eq_true heq ▸ h.known a hmem)
    refine { hlater with
      once := fun id hid => ?_
      known := forall_mem_cons.mpr ⟨Finset.mem_insert_self _ _, fun a ha => Finset.mem_insert_of_mem (h.known a ha)⟩
      ordered := pairwise_cons.mpr ⟨fun _ _ => Or.inr (le_refl now), hlater.ordered⟩
      soon := forall_mem_cons.mpr ⟨Int.le_add_of_nonneg_right (Int.natCast_nonneg _), hlater.soon⟩ }
    have hcount : (PollerOp.apply cfg s (.handleNodeAdded nodeId, now)).states id =
        s.states id + if nodeId = id then 1 else 0 := by simp [Poller.states, PollerOp.apply, countP_cons]
    rw [hcount]
    rcases Finset.mem_insert.mp hid with rfl | hid
    · rw [hnew, if_pos rfl]
    · have hone := h.once id hid
      rw [if_neg fun heq => by simp [heq, hone] at hnew, hone]
  | handleNodeRemoved nodeId => exact { hlater with once := fun id hid => h.once id (Finset.mem_of_mem_erase hid) }
  | tryPullResourceReport => exact hlater.pullDue.1
  | nodeResourceReportReceived i =>
    have hi : i < s.requests.length := ha
    simp only [PollerOp.apply, getElem?_eq_getElem hi]
    refine ⟨fun id hid => ?_, fun a hmem => ?_, ?_, (Nat.sub_le _ _).trans h.bounded, ?_, ?_⟩
    · have hperm := (getElem_cons_eraseIdx_perm hi).countP_eq fun state => state.nodeId = id
      rw [← h.once id hid]
      simp only [Poller.states, countP_append, ← hperm, countP_cons, countP_nil]
      omega
    · simp only [mem_append, mem_singleton, or_assoc] at hmem
      rcases hmem with hmem | rfl | hmem
      · exact h.known a (mem_append_left _ hmem)
      · exact h.known s.requests[i] (mem_append_right _ (getElem_mem hi))
      · exact h.known a (mem_append_right _ (mem_of_mem_eraseIdx hmem))
    · rw [length_eraseIdx_of_lt hi, h.counted]
    · refine pairwise_append.mpr ⟨hlater.ordered, pairwise_singleton _ _, fun a hmem b hb => Or.inl ?_⟩
      rw [mem_singleton.mp hb]
      exact hlater.soon a hmem
    · intro a hmem
      rcases mem_append.mp hmem with hmem | hlast
      · exact hlater.soon a hmem
      · rw [mem_singleton.mp hlast]

/-- Every node waits for its next pull or is in flight, once; the pulls in flight are counted
and bounded; and `TryPullResourceReport` leaves no node that is due unless it must. -/
theorem poller_loses_no_node (cfg : PollerConfig) (start : ℤ) (calls : List (PollerOp × ℤ))
    (hallowed : ∀ done call, done ++ [call] <+: calls → PollerOp.Allowed (runPoller cfg start done) call) :
    ∀ done, done <+: calls → (runPoller cfg start done).Sound cfg ∧
      ∀ now, (runPoller cfg start done).now ≤ now →
        (tryPullResourceReport cfg (runPoller cfg start done) now).Drained cfg := by
  intro done hdone
  have hsound : (runPoller cfg start done).Sound cfg := by
    refine throughout ?_ (fun done call hprefix h => ?_) done hdone
    · exact ⟨fun _ hid => absurd hid (Finset.notMem_empty _), fun _ ha => absurd ha not_mem_nil, rfl, Nat.zero_le _, Pairwise.nil, fun _ ha => absurd ha not_mem_nil⟩
    · exact h.apply (hallowed done call hprefix)
  exact ⟨hsound, fun now hnow => (hsound.later hnow).pullDue.2⟩

/-- A node is added and polled. -/
theorem polled_node_sound :
    (runPoller ⟨1, 100⟩ 0 [(.handleNodeAdded 1, 0), (.tryPullResourceReport, 5)]).Sound ⟨1, 100⟩ := by
  refine (poller_loses_no_node ⟨1, 100⟩ 0 _ ?_ _ (prefix_refl _)).1
  exact along_cons ⟨le_refl 0, by decide⟩ (along_cons ⟨by decide, trivial⟩ along_nil)

end AmazonRay.ResourceReports
