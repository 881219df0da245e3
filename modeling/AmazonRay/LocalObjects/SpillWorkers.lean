import AmazonRay.LocalObjects.FreedObjects

/-! The spill workers: only `SpillObjectUptoMaxThroughput` counts one up, and every reply counts one down. -/
namespace AmazonRay.LocalObjects
open Program List Manager AList

namespace Manager

def isSpillingInProgress (m : Manager) : Bool := 0 < m.numActiveWorkers

def numOutstanding (m : Manager) : ℕ := m.waitingSpills.length + m.sentSpills.length

def ActiveMatches (m : Manager) : Prop := m.numActiveWorkers = m.numOutstanding

def SameSpills (m t : Manager) : Prop :=
  t.numActiveWorkers = m.numActiveWorkers ∧ t.waitingSpills = m.waitingSpills ∧ t.sentSpills = m.sentSpills

variable {m t : Manager} (config : Config) (choice : SpillChoice) (ids : List ObjectID) (maxBatchSize : ℕ)

lemma SameSpills.activeMatches (h : SameSpills m t) (hm : m.ActiveMatches) : t.ActiveMatches := by
  rw [ActiveMatches, numOutstanding, h.1, h.2.1, h.2.2]
  exact hm

/-- Objects of a request are chosen: all are pinned or being spilled, and one is pinned. -/
def Chooses (ids : List ObjectID) (m : Manager) : Prop :=
  (∀ id ∈ ids, id ∈ m.pinnedObjects ∨ id ∈ m.objectsPendingSpill) ∧ ∃ id ∈ ids, id ∈ m.pinnedObjects

instance (ids : List ObjectID) (m : Manager) : Decidable (Chooses ids m) :=
  inferInstanceAs (Decidable (_ ∧ _))

lemma known_setPending {id : ObjectID} (hid : id ∈ m.pinnedObjects) (object : PinnedObject) (x : ObjectID) :
    (x ∈ (m.setPending id object).pinnedObjects ∨ x ∈ (m.setPending id object).objectsPendingSpill) ↔
      x ∈ m.pinnedObjects ∨ x ∈ m.objectsPendingSpill := by
  by_cases hx : x = id
  · subst hx
    simp [setPending, hid]
  · simp [setPending, hx]

lemma triple_chooseObjects (chosen : List ObjectID) : Completes m (chooseObjects ids chosen)
      fun r t => SameSpills m t ∧ ((∃ id rest, r = some (id :: rest)) ↔
        (∀ id ∈ ids, id ∈ m.pinnedObjects ∨ id ∈ m.objectsPendingSpill) ∧
          (chosen ≠ [] ∨ ∃ id ∈ ids, id ∈ m.pinnedObjects)) := by
  induction ids generalizing m chosen with
  | nil =>
    refine .done ⟨⟨rfl, rfl, rfl⟩, ?_⟩
    cases chosen <;> simp
  | cons id ids ih =>
    apply Triple.seen
    split
    case h_1 object hobject =>
      have hid : id ∈ m.pinnedObjects := lookup_isSome.mp (Option.isSome_of_mem hobject)
      refine .modified ((ih (chosen ++ [id])).post ?_)
      rintro r t ⟨hsame, hr⟩
      refine ⟨hsame, ?_⟩
      simp only [known_setPending hid] at hr
      simp [hr, hid]
    case h_2 hnone =>
      have hid : id ∉ m.pinnedObjects := lookup_eq_none.mp hnone
      refine .ite (fun hpending => ?_) fun hpending => .done ⟨⟨rfl, rfl, rfl⟩, ?_⟩
      · apply (ih chosen).post
        rintro r t ⟨hsame, hr⟩
        exact ⟨hsame, by simp [hr, hid, hpending]⟩
      · simp [hid, hpending]

lemma objectsOfSize_sublist (numBytes : ℤ)
    (pinned : AList fun _ : ObjectID => PinnedObject) (ids : List ObjectID) (bytes counts : ℤ) :
    (objectsOfSize config choice numBytes pinned ids bytes counts).Sublist ids := by
  induction ids generalizing bytes counts with
  | nil => exact List.Sublist.refl []
  | cons id ids ih =>
    unfold objectsOfSize
    split
    · split
      · exact (ih _ _).cons_cons id
      · exact (ih _ _).cons id
    · exact nil_sublist _

def Enqueued (m t : Manager) : Prop :=
  t.numActiveWorkers = m.numActiveWorkers ∧ t.sentSpills = m.sentSpills ∧
    ∃ request, t.waitingSpills = m.waitingSpills ++ [request]

lemma triple_spillObjectsInternal (callback : Option ℕ) : Yields m (spillObjectsInternal ids callback)
      fun _ t => if Chooses ids m then Enqueued m t else SameSpills m t := by
  refine .call ((triple_chooseObjects ids []).weaken fun _ _ he => he.elim) ?_
  rintro chosen t ⟨hsame, hchosen⟩
  have hanswer (status : Status) (hnot : ¬∃ id rest, chosen = some (id :: rest)) : Yields t (answer callback status)
        fun _ u => if Chooses ids m then Enqueued m u else SameSpills m u := by
    have hids : ¬Chooses ids m := fun h => hnot (hchosen.mpr ⟨h.1, .inr h.2⟩)
    simp only [if_neg hids]
    exact (keeps_answer (fun _ _ h _ => h) _ _).pre fun _ hu => hu ▸ hsame
  split
  · exact hanswer _ (by simp)
  · exact hanswer _ (by simp)
  case h_3 id rest =>
    obtain ⟨hknown, hpinned⟩ := hchosen.mp ⟨id, rest, rfl⟩
    have hids : Chooses ids m := ⟨hknown, hpinned.resolve_left fun h => h rfl⟩
    simp only [if_pos hids]
    exact .updated ⟨hsame.1, hsame.2.2, ⟨id :: rest, callback⟩, by rw [← hsame.2.1]⟩

def found (config : Config) (choice : SpillChoice) (numBytes : ℤ) (m : Manager) : List ObjectID :=
  if config.objectSpillingConfigEmpty then []
  else objectsOfSize config choice numBytes m.pinnedObjects (choice.order m.pinnedObjects.keys) 0 0

lemma mem_pinnedObjects_of_mem_objectsOfSize {config : Config} {choice : SpillChoice} {numBytes bytes counts : ℤ}
    {x : ObjectID} (hx : x ∈ objectsOfSize config choice numBytes m.pinnedObjects (choice.order m.pinnedObjects.keys)
      bytes counts) : x ∈ m.pinnedObjects := by
  have hmem := (objectsOfSize_sublist config choice numBytes m.pinnedObjects _ bytes counts).subset hx
  exact mem_keys.mpr ((choice.perm m.pinnedObjects.keys).mem_iff.mp hmem)

lemma triple_spillObjectsOfSize (numBytes : ℤ) : Yields m (spillObjectsOfSize config choice numBytes)
      fun spilled t => if spilled then Enqueued m t ∧ found config choice numBytes m ≠ []
        else SameSpills m t ∧ found config choice numBytes m = [] := by
  refine .ite (fun hempty => .done ⟨⟨rfl, rfl, rfl⟩, if_pos hempty⟩) fun hconfig => .seen ?_
  split
  case h_1 hnone => exact .done ⟨⟨rfl, rfl, rfl⟩, (if_neg hconfig).trans hnone⟩
  case h_2 id rest hids =>
    have hpinned (x : ObjectID) (hx : x ∈ id :: rest) : x ∈ m.pinnedObjects :=
      mem_pinnedObjects_of_mem_objectsOfSize (hids ▸ hx)
    have hchosen : Chooses (id :: rest) m :=
      ⟨fun x hx => .inl (hpinned x hx), id, mem_cons_self, hpinned id mem_cons_self⟩
    refine .seq (triple_spillObjectsInternal (id :: rest) none) (.pure fun t ht => ?_)
    rw [if_pos hchosen] at ht
    refine ⟨ht, ?_⟩
    rw [found, if_neg hconfig, hids]
    exact cons_ne_nil id rest

lemma activeMatches_spillRounds (choices : ℕ → SpillChoice) (rounds : ℕ) :
    Keeps ActiveMatches (spillRounds config choices rounds) := by
  induction rounds with
  | zero => exact (keeps_composes _).pure ()
  | succ rounds ih =>
    refine .each fun m hm => .call (triple_spillObjectsOfSize _ _ _) fun spilled t ht => ?_
    cases spilled with
    | false => exact .done (SameSpills.activeMatches ht.1 hm)
    | true =>
      obtain ⟨⟨hactive, hsent, request, hwaiting⟩, -⟩ := ht
      refine .bind (Q := fun _ => ActiveMatches) (.updated ?_) fun _ => ?_
      · simp only [ActiveMatches, numOutstanding, hactive, hsent, hwaiting, length_append, length_singleton] at hm ⊢
        omega
      · exact (keeps_composes _).bind keeps_get fun _ => (keeps_composes _).ite (fun _ => ih) fun _ => (keeps_composes _).pure ()

lemma activeMatches_spillWorkerPopped (i : ℕ) : Keeps ActiveMatches (spillWorkerPopped i) := by
  refine .read fun m hm => ?_
  split
  · exact .done hm
  case h_2 request hrequest =>
    refine .modified (.seen (.testing (.updated ?_)))
    obtain ⟨hi, -⟩ := List.getElem?_eq_some_iff.mp hrequest
    simp only [ActiveMatches, numOutstanding, length_eraseIdx_of_lt hi, length_append, length_singleton] at hm ⊢
    omega

lemma activeMatches_spillReply (i : ℕ) (reply : Option (List Url)) : Keeps ActiveMatches (spillReply i reply) := by
  refine .read fun m hm => ?_
  split
  · exact .done hm
  case h_2 request hrequest =>
    obtain ⟨hi, -⟩ := List.getElem?_eq_some_iff.mp hrequest
    refine .modified (keeps_onSpillReply (fun _ _ h _ => h) ?_ (fun _ _ _ _ h _ => h) fun _ _ _ _ h _ _ => h)
    rintro t rfl
    simp only [ActiveMatches, numOutstanding, length_eraseIdx_of_lt hi] at hm ⊢
    omega

lemma indifferent_activeMatches : Indifferent ActiveMatches where
  call _ _ h _ := h
  free _ _ h := h
  unpin _ _ h := h

lemma activeMatches_processDeletes (queue : List ObjectID) (urls : List Url) :
    Keeps ActiveMatches (processDeletes maxBatchSize queue urls) := by
  induction queue generalizing urls with
  | nil => exact (keeps_composes _).pure _
  | cons id queue ih =>
    refine .read fun m hm => .ite (fun _ => ?_) fun _ => .done hm
    refine .call (triple_dropSpilled id urls) fun urls' t ht => .bind (.updated ?_) fun _ => ih urls'
    obtain ⟨-, rfl, -⟩ | ⟨_, _, _, -, -, -, rfl, -⟩ := ht
    · exact hm
    · exact hm

lemma activeMatches_processSpilledObjectsDeleteQueue :
    Keeps ActiveMatches (processSpilledObjectsDeleteQueue maxBatchSize) := by
  refine .bind keeps_get fun m => ?_
  refine .bind (activeMatches_processDeletes _ _ _) fun urls => ?_
  exact (keeps_composes _).onlyIf fun _ => .update fun _ h => h

lemma Enqueued.not_activeMatches (h : Enqueued m t) (hm : m.ActiveMatches) : ¬t.ActiveMatches := by
  obtain ⟨hactive, hsent, request, hwaiting⟩ := h
  simp only [ActiveMatches, numOutstanding, hactive, hsent, hwaiting, length_append, length_singleton] at hm ⊢
  omega

end Manager

/-- Only `SpillObjectUptoMaxThroughput` hands over a request: the others find no object to spill. -/
def Op.HandsOverCounted (config : Config) : Op → Manager → Prop
  | .spillObjects ids _, m => ¬m.Chooses ids
  | .spillObjectsOfSize choice numBytes, m => m.found config choice numBytes = []
  | _, _ => True

lemma activeMatches_run (config : Config) (op : Op) {m : Manager} (h : m.ActiveMatches) :
    Yields m (op.run config) fun _ t => t.ActiveMatches ↔ op.HandsOverCounted config m := by
  have hkeeps {x : ManagerM Unit} (hx : Manager.Keeps Manager.ActiveMatches x) :
      Yields m x fun _ t => t.ActiveMatches ↔ True :=
    hx.conseq (fun _ ht => ht ▸ h) (fun _ _ ht => iff_of_true ht trivial) fun _ _ he => he
  cases op with
  | pinObjects => exact hkeeps (keeps_pinObjects _ _ fun _ _ _ hm => hm)
  -- a request that is handed over outside the rounds is not counted
  | spillObjects ids callback =>
    refine (triple_spillObjectsInternal ids callback).post fun _ t ht => ?_
    by_cases hids : m.Chooses ids
    · rw [if_pos hids] at ht
      exact iff_of_false (ht.not_activeMatches h) fun hnot => hnot hids
    · rw [if_neg hids] at ht
      exact iff_of_true (ht.activeMatches h) hids
  | spillObjectsOfSize choice numBytes =>
    refine .bind (triple_spillObjectsOfSize config choice numBytes) fun spilled => .pure fun t ht => ?_
    cases spilled with
    | false => exact iff_of_true (ht.1.activeMatches h) ht.2
    | true => exact iff_of_false (ht.1.not_activeMatches h) ht.2
  | spillObjectUptoMaxThroughput =>
    refine hkeeps (.bind keeps_get fun _ => ?_)
    exact (keeps_composes _).onlyIf fun _ => activeMatches_spillRounds _ _ _
  | spillWorkerPopped i => exact hkeeps (activeMatches_spillWorkerPopped i)
  | spillReply i => exact hkeeps (activeMatches_spillReply i _)
  | releaseFreedObject id =>
    exact hkeeps (indifferent_activeMatches.releaseFreedObject id (fun _ hm => hm)
      activeMatches_processSpilledObjectsDeleteQueue)
  | flushFreeObjects =>
    exact hkeeps (indifferent_activeMatches.flushFreeObjects activeMatches_processSpilledObjectsDeleteQueue)

variable {config : Config} {bytes : UInt64} {m : Manager}

/-- While no explicit request is handed over, the number of active workers is that of the outstanding
spills; one that is handed over makes it wrong. -/
theorem active_workers_outstanding
    (h : Reaches (Op.run config) (Op.HandsOverCounted config) { numBytesPendingSpill := bytes } m) :
    m.numActiveWorkers = m.numOutstanding ∧ 0 ≤ m.numActiveWorkers ∧ (m.isSpillingInProgress ↔ 0 < m.numOutstanding) ∧
      ∀ (op : Op) (t : Manager), op.run config m = .ok () t → ¬op.HandsOverCounted config m →
        t.numActiveWorkers ≠ t.numOutstanding := by
  have hstart : Manager.ActiveMatches { numBytesPendingSpill := bytes } := rfl
  have hm : m.ActiveMatches := h.invariant hstart fun op s hop hs =>
    (activeMatches_run config op hs).post fun _ _ ht => ht.mpr hop
  have heq : m.numActiveWorkers = m.numOutstanding := hm
  refine ⟨heq, by omega, ?_, fun op t hrun hop ht => ?_⟩
  · rw [isSpillingInProgress, decide_eq_true_iff]
    omega
  · exact hop (((activeMatches_run config op hm).returned rfl hrun).mp ht)

instance (op : Op) (m : Manager) : Decidable (op.HandsOverCounted smallNode m) := by
  induction op using Op.casesOn <;> (unfold Op.HandsOverCounted; infer_instance)

/-- An object is spilled to make room. -/
theorem active_workers_outstanding_spill :
    ∃ m, Reaches (Op.run smallNode) (Op.HandsOverCounted smallNode) { numBytesPendingSpill := 0 } m ∧
      m.numActiveWorkers = 1 ∧ m.numOutstanding = 1 := by
  refine exists_after [.pinObjects [(⟨0, 1⟩, some 8)] ⟨0, 0⟩, .spillObjectUptoMaxThroughput fun _ => ⟨id, fun _ => .refl _, fun _ => true⟩,
        .spillWorkerPopped 0]
    (fun m => m.numActiveWorkers)
    1 (by decide +kernel) fun _ hm hv => ?_
  have heq := (active_workers_outstanding hm).1
  exact ⟨hv, by omega⟩

/-- The owner requests the spill of an object, which succeeds. -/
theorem explicit_spill_negative :
    ∃ m, Reaches (Op.run smallNode) (fun _ _ => True) { numBytesPendingSpill := 0 } m ∧
      m.numActiveWorkers = -1 ∧ m.numOutstanding = 0 := by
  refine exists_after [.pinObjects [(⟨0, 1⟩, some 8)] ⟨0, 0⟩, .spillObjects [⟨0, 1⟩] (some 0), .spillWorkerPopped 0,
        .spillReply 0 (some [['f', '?', 'o', '=', '0']])]
    (fun m => (m.numActiveWorkers, m.numOutstanding)) (-1, 0)
    (by decide +kernel) fun _ _ hv => ?_
  exact ⟨(Prod.mk.inj hv).1, (Prod.mk.inj hv).2⟩

end AmazonRay.LocalObjects
