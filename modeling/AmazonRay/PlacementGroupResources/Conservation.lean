import AmazonRay.PlacementGroupResources.Bundles

/-! What is available of the node's own resources and what the bundles were allocated makes up the totals. -/
namespace AmazonRay.PlacementGroupResources
open Program Table State List

variable {required : BundleResources} {id : BundleID} {s t : State}

section

variable {name : String}

variable {l l' : NodeResourceInstances} {a : TaskResourceInstances} {extra : ℤ} {b : BundleTransactionState}

lemma mem_keys_toAList (l : List (Σ _ : ResourceName, ℤ)) (x : ResourceName) : x ∈ (l.toAList).keys ↔ x ∈ l.keys := by
  rw [← AList.mem_keys, ← AList.lookup_isSome, AList.lookup_to_alist, dlookup_isSome]

lemma original_notMem_formattedResources : .original name ∉ (formattedResources required id).keys := by
  have hlabels other amount : .original name ∉ (resourceLabels id other amount).keys := by
    simp [resourceLabels, keys]
  intro h
  rw [formattedResources, mem_keys_toAList, keys, map_append, mem_append, map_flatMap, mem_flatMap] at h
  rcases h with h | ⟨e, -, h⟩
  · exact hlabels _ _ h
  · exact hlabels _ _ h

/-- An allocation has no negative amount, and only resources that the bundle demands. -/
structure BundleAllocation (required : BundleResources) (id : BundleID) (a : TaskResourceInstances) : Prop where
  nonneg : ∀ x i, 0 ≤ amountAt a x i
  names : ∀ x, x ∉ (requiredResources required id).keys → a.lookup x = none

lemma triple_getInstances (a : TaskResourceInstances) (name : String) (P : State → Prop) :
    Partly P (getInstances a name)
      fun instances t => P t ∧ ∀ i, instances.getD i 0 = amountAt a (.original name) i := by
  unfold getInstances amountAt
  cases a.lookup (.original name) with
  | some instances => exact .pure fun t ht => ⟨ht, fun _ => rfl⟩
  | none => exact .ite (fun _ => .pure fun t ht => ⟨ht, fun _ => rfl⟩) fun _ => .throw fun _ _ => trivial

def State.allocatedAt (s : State) (name : String) (i : Nat) : ℤ :=
  Table.total (fun _ b => amountAt b.resources (.original name) i) s.bundles

structure Conserving (required : BundleResources) (s : State) : Prop where
  sum : ∀ name i, availableAt s.resources (.original name) i + s.allocatedAt name i =
    totalAt s.resources (.original name) i
  bundles : ∀ id b, s.bundles.lookup id = some b → BundleAllocation required id b.resources

def SameOriginals (l l' : NodeResourceInstances) : Prop := ∀ name, l'.lookup (.original name) = l.lookup (.original name)

lemma SameOriginals.availableAt (h : SameOriginals l l') (name : String) (i : Nat) :
    availableAt l' (.original name) i = availableAt l (.original name) i := by
  rw [PlacementGroupResources.availableAt, h name, PlacementGroupResources.availableAt]

lemma SameOriginals.totalAt (h : SameOriginals l l') (name : String) (i : Nat) :
    totalAt l' (.original name) i = totalAt l (.original name) i := by
  rw [PlacementGroupResources.totalAt, h name, PlacementGroupResources.totalAt]

lemma allocatedAt_nonneg (h : ∀ id b, s.bundles.lookup id = some b → BundleAllocation required id b.resources)
    (name : String) (i : Nat) : 0 ≤ s.allocatedAt name i := by
  apply sum_nonneg
  intro amount hmem
  obtain ⟨e, he, rfl⟩ := mem_map.mp hmem
  exact (h e.1 e.2 (mem_entries_iff.mp he)).nonneg _ i

lemma Conserving.available_le (h : Conserving required s) (name : String) (i : Nat) :
    availableAt s.resources (.original name) i ≤ totalAt s.resources (.original name) i := by
  have hsum := h.sum name i
  have hallocated := allocatedAt_nonneg h.bundles name i
  omega

lemma conserving_allocateBundle (required : BundleResources) (id : BundleID) :
    Partly (fun s => Conserving required s ∧ s.bundles.lookup id = none) (allocateBundle required id)
      fun _ => Conserving required := by
  refine .read ?_
  rintro s ⟨h, hnone⟩
  obtain ⟨a, l, heq, hdraws, hnames⟩ | ⟨l, heq, htotal, havailable⟩ :=
    allocateTaskResourceInstances_spec (requiredResources required id) s.resources
  · rw [heq]
    refine .bind (.set fun _ _ => ⟨fun name i => ?_, fun x b hb => ?_⟩) fun _ => .skip
    · have hsum := h.sum name i
      have hdrawn := hdraws.available (.original name) i
      have hadded := total_insert (fun _ b => amountAt b.resources (.original name) i) s.bundles id
        { state := .prepared, resources := a }
      rw [total_erase_of_lookup_none hnone] at hadded
      rw [allocatedAt, hadded, hdraws.total]
      rw [allocatedAt] at hsum
      dsimp only
      omega
    · rcases lookup_of_insert hb with ⟨hx, rfl⟩ | ⟨-, hb⟩
      · exact hx ▸ ⟨hdraws.taken, hnames⟩
      · exact h.bundles x b hb
  · rw [heq]
    refine .bind (.set fun _ _ => ⟨fun name i => ?_, h.bundles⟩) fun _ => .skip
    rw [havailable _ i (h.available_le name i), htotal]
    exact h.sum name i

/-- The bundle is in the table with its allocation, and `extra` is available beside. -/
structure Releasing (required : BundleResources) (id : BundleID) (a : TaskResourceInstances) (extra : ℤ) (s : State) :
    Prop where
  sum : ∀ name i, availableAt s.resources (.original name) i + s.allocatedAt name i =
    totalAt s.resources (.original name) i + extra * amountAt a (.original name) i
  bundles : ∀ id b, s.bundles.lookup id = some b → BundleAllocation required id b.resources
  known : (s.bundles.lookup id).map BundleTransactionState.resources = some a

lemma Releasing.resources (h : Releasing required id a extra s) (hl : SameOriginals s.resources l) :
    Releasing required id a extra { s with resources := l } := by
  refine ⟨fun name i => ?_, h.bundles, h.known⟩
  rw [hl.availableAt, hl.totalAt]
  exact h.sum name i

lemma sameOriginals_addLocalResourceInstances (l : NodeResourceInstances) {x : ResourceName} (instances : List ℤ)
    (hx : ∀ name, .original name ≠ x) : SameOriginals l (addLocalResourceInstances l x instances) := by
  intro name
  rw [addLocalResourceInstances, lookup_insert, if_neg (hx name)]

lemma releasing_addFormattedResource (e : Σ _ : ResourceName, ℤ)
    (he : e.1 ∈ (formattedResources required id).keys) (b : TaskResourceInstances) :
    Partly (Releasing required id a extra) (addFormattedResource b e) fun _ => Releasing required id a extra := by
  have hx : ∀ name, .original name ≠ e.1 := fun name hname => original_notMem_formattedResources (hname ▸ he)
  refine .ite (fun _ => .update fun t ht => ?_) fun _ => .bind (triple_getInstances b _ _)
    fun instances => .update fun t ht => ?_
  · exact ht.resources (sameOriginals_addLocalResourceInstances _ _ hx)
  · exact ht.1.resources (sameOriginals_addLocalResourceInstances _ _ hx)

lemma Releasing.commit (h : Releasing required id a extra s) (hb : s.bundles.lookup id = some b) :
    Releasing required id a extra { s with bundles := s.bundles.insert id { b with state := .committed } } := by
  refine ⟨fun name i => ?_, fun x c hc => ?_, ?_⟩
  · have hsum := h.sum name i
    rw [allocatedAt, total_of_lookup hb] at hsum
    rw [allocatedAt, total_insert]
    exact hsum
  · rcases lookup_of_insert hc with ⟨hx, rfl⟩ | ⟨-, hc⟩
    · exact hx ▸ h.bundles id b hb
    · exact h.bundles x c hc
  · have hknown := h.known
    rw [hb] at hknown
    rw [AList.lookup_insert]
    exact hknown

lemma releasing_commitBundle :
    Partly (Releasing required id a extra) (commitBundle required id) fun _ => Releasing required id a extra := by
  refine .read fun s hs => ?_
  cases hb : s.bundles.lookup id with
  | none =>
    exact .done hs
  | some b =>
    refine .onlyIf (fun _ => .bind (.set fun _ _ =>
      hs.commit hb) fun _ => .forM_mem fun e he => ?_) fun _ t ht => ht ▸ hs
    exact releasing_addFormattedResource e (mem_keys_of_mem he) b.resources

lemma conserving_iff_releasing (hknown : (s.bundles.lookup id).map BundleTransactionState.resources = some a) :
    Conserving required s ↔ Releasing required id a 0 s := by
  refine ⟨fun h => ⟨fun name i => ?_, h.bundles, hknown⟩, fun h => ⟨fun name i => ?_, h.bundles⟩⟩
  · rw [Int.zero_mul, Int.add_zero]
    exact h.sum name i
  · have hsum := h.sum name i
    rwa [Int.zero_mul, Int.add_zero] at hsum

lemma releasing_free (h : Releasing required id a 0 s) :
    Releasing required id a 1 { s with resources := freeTaskResourceInstances s.resources a } := by
  obtain ⟨b, hb, rfl⟩ := Option.map_eq_some_iff.mp h.known
  refine ⟨fun name i => ?_, h.bundles, h.known⟩
  have hsum := h.sum name i
  have hamount := (h.bundles id b hb).nonneg (.original name) i
  have hrest : 0 ≤ total (fun _ b => amountAt b.resources (.original name) i) (s.bundles.erase id) := by
    have hothers (x : BundleID) (c : BundleTransactionState) (hc : (s.bundles.erase id).lookup x = some c) :
        BundleAllocation required x c.resources := by
      obtain ⟨-, hc⟩ := lookup_of_erase hc
      exact h.bundles x c hc
    exact allocatedAt_nonneg (s := { s with bundles := s.bundles.erase id }) hothers name i
  have hallocated : s.allocatedAt name i = amountAt b.resources (.original name) i +
      total (fun _ b => amountAt b.resources (.original name) i) (s.bundles.erase id) := total_of_lookup hb
  have hfree : availableAt (freeTaskResourceInstances s.resources b.resources) (.original name) i =
      availableAt s.resources (.original name) i + amountAt b.resources (.original name) i :=
    availableAt_free (by omega) hamount
  have hsame : allocatedAt { s with resources := freeTaskResourceInstances s.resources b.resources } name i =
      s.allocatedAt name i := rfl
  rw [hsame, hfree, totalAt_free]
  omega

lemma releasing_releaseBundle : Partly (Releasing required id b.resources 0) (releaseBundle required id b)
      fun _ => Releasing required id b.resources 1 := by
  refine .seq (.onlyIf (fun _ => releasing_commitBundle) fun _ t ht => ht) ?_
  refine .onlyIf (fun _ => .update fun t ht => releasing_free ht) fun hempty t ht => ?_
  have hzero := amountAt_of_isEmpty (Bool.not_eq_false _ ▸ hempty)
  refine ⟨fun name i => ?_, ht.bundles, ht.known⟩
  have hsum := ht.sum name i
  rw [hzero, Int.mul_zero] at hsum ⊢
  exact hsum

lemma Releasing.erase (h : Releasing required id a 1 s) :
    Conserving required { s with bundles := s.bundles.erase id } := by
  obtain ⟨b, hb, rfl⟩ := Option.map_eq_some_iff.mp h.known
  refine ⟨fun name i => ?_, fun x c hc => ?_⟩
  · have hsum := h.sum name i
    have hallocated : s.allocatedAt name i = amountAt b.resources (.original name) i +
        allocatedAt { s with bundles := s.bundles.erase id } name i := total_of_lookup hb
    dsimp only
    omega
  · obtain ⟨-, hc⟩ := lookup_of_erase hc
    exact h.bundles x c hc

lemma releasing_deleteIfEmpty (x : ResourceName) (hx : x ∈ (formattedResources required id).keys) :
    Partly (Releasing required id a extra) (deleteIfEmpty x) fun _ => Releasing required id a extra := by
  refine .update fun t ht => ht.resources fun name => ?_
  split
  · have hne : .original name ≠ x := fun hname => original_notMem_formattedResources (hname ▸ hx)
    rw [lookup_erase, if_neg hne]
  · rfl

lemma conserving_returnBundle : Partly (Conserving required) (returnBundle required id)
      fun _ t => Conserving required t ∧ t.bundles.lookup id = none := by
  refine .read fun s hs => ?_
  cases hb : s.bundles.lookup id with
  | none =>
    exact .done ⟨hs, hb⟩
  | some b =>
    have hknown : (s.bundles.lookup id).map BundleTransactionState.resources = some b.resources := by
      rw [hb]
      rfl
    refine .seq (releasing_releaseBundle.pre fun t ht => ht ▸ (conserving_iff_releasing hknown).mp hs)
      (.seq (.update (Q := fun _ => Releasing required id b.resources 1) fun t ht => ?_) ?_)
    · exact ht.resources fun name => lookup_allocate_of_notMem _ original_notMem_formattedResources
    · refine .seq (.forM_mem fun x hx => releasing_deleteIfEmpty x hx) (.update fun t ht => ?_)
      exact ⟨ht.erase, AList.lookup_erase id t.bundles⟩

lemma conserving_prepareBundle :
    Partly (Conserving required) (prepareBundle required id) fun _ => Conserving required := by
  refine .read fun s hs => ?_
  cases hb : s.bundles.lookup id with
  | none =>
    refine (conserving_allocateBundle required id).pre ?_
    rintro t rfl
    exact ⟨hs, hb⟩
  | some b =>
    refine .ite (fun _ => .done hs) fun _ => ?_
    exact .seq (conserving_returnBundle.pre fun t ht => ht ▸ hs) (conserving_allocateBundle required id)

lemma conserving_commitBundle :
    Partly (Conserving required) (commitBundle required id) fun _ => Conserving required := by
  refine .each fun s hs => ?_
  cases hb : s.bundles.lookup id with
  | none =>
    refine .seen ?_
    rw [hb]
    exact .done hs
  | some b =>
    have hknown : (s.bundles.lookup id).map BundleTransactionState.resources = some b.resources := by
      rw [hb]
      rfl
    refine releasing_commitBundle.conseq (fun t ht => ht ▸ (conserving_iff_releasing hknown).mp hs) (fun _ t ht => ?_)
      fun _ _ _ => trivial
    exact (conserving_iff_releasing ht.known).mpr ht

end

/-- The bundles of a node, and the keys of `bundle_spec_map_`. -/
structure Manager where
  node : State
  specs : List BundleID := []

abbrev ManagerM := EStateM Check Manager

def onNode {α : Type} (x : BundleM α) : ManagerM α := within Manager.node (fun node m => { m with node }) (fun e => e) x

/-- `PrepareBundle`, with the specification kept of a bundle that was allocated. -/
def prepareAndKeep (required : BundleResources) (id : BundleID) : ManagerM Bool := do
  let committed := ((← get).node.bundles.lookup id).any (·.state = .committed)
  let prepared ← onNode (prepareBundle required id)
  onlyIf (prepared = true ∧ committed = false) (modify fun m => { m with specs := m.specs.insert id })
  pure prepared

/-- Goes through the bundles in the given order. -/
def returnUnusedBundle (required : BundleResources) (inUse order : List BundleID) : ManagerM Unit :=
  order.forM fun id => onlyIf (id ∉ inUse) do
    onNode (returnBundle required id)
    modify fun m => { m with specs := m.specs.erase id }

inductive BundleMessage where
  | prepareBundle (id : BundleID)
  | commitBundle (id : BundleID)
  | returnBundle (id : BundleID)
  | returnUnusedBundle (inUse order : List BundleID)
  deriving DecidableEq, Repr

def BundleMessage.run (required : BundleResources) : BundleMessage → ManagerM Unit
  | .prepareBundle id => discard (prepareAndKeep required id)
  | .commitBundle id => onNode (PlacementGroupResources.commitBundle required id)
  | .returnBundle id => onNode (PlacementGroupResources.returnBundle required id)
  | .returnUnusedBundle inUse order => PlacementGroupResources.returnUnusedBundle required inUse order

/-- A map is gone through in some order. -/
def BundleMessage.Allowed : BundleMessage → Manager → Prop
  | .returnUnusedBundle _ order, m => order.Perm m.specs
  | _, _ => True

lemma conserving_onNode {α : Type} {x : BundleM α} (h : Partly (Conserving required) x (fun _ => Conserving required)) :
    Partly (fun m => Conserving required m.node) (onNode x) fun _ m => Conserving required m.node :=
  .within fun _ hm => h.pre fun _ hs => hs ▸ hm

lemma conserving_run (message : BundleMessage) :
    Partly (fun m => Conserving required m.node) (message.run required) fun _ m => Conserving required m.node := by
  cases message with
  | prepareBundle id =>
    refine .bind (.read fun s hs => .bind ((conserving_onNode conserving_prepareBundle).pre ?_)
      fun prepared => .bind (Q := fun _ m => Conserving required m.node) ?_ fun _ => .pure fun _ hm => hm)
        fun _ => .skip
    · rintro m rfl
      exact hs
    · exact .onlyIf (fun _ => .update fun m hm => hm) fun _ m hm => hm
  | commitBundle id => exact conserving_onNode conserving_commitBundle
  | returnBundle id => exact conserving_onNode (conserving_returnBundle.post fun _ _ ht => ht.1)
  | returnUnusedBundle inUse order =>
    refine .forM_mem fun id _ => .onlyIf (fun _ => ?_) fun _ m hm => hm
    exact .seq (conserving_onNode (conserving_returnBundle.post fun _ _ ht => ht.1)) (.update fun m hm => hm)

def Unallocated (l : NodeResourceInstances) : Prop := ∀ e ∈ l.entries, e.2.available = e.2.total

instance (l : NodeResourceInstances) : Decidable (Unallocated l) :=
  inferInstanceAs (Decidable (∀ e ∈ l.entries, e.2.available = e.2.total))

lemma conserving_start (hl : Unallocated l) : Conserving required { resources := l } := by
  refine ⟨fun name i => ?_, fun id b hb => ?_⟩
  · have hnone : allocatedAt { resources := l } name i = 0 := rfl
    rw [hnone, Int.add_zero, availableAt, totalAt]
    cases hc : l.lookup (.original name) with
    | none => rfl
    | some c => exact congrArg (·.getD i 0) (hl ⟨_, c⟩ (mem_entries_iff.mpr hc))
  · cases hb

lemma unchanged_prepareBundle (h : Conserving required s)
    (hnew : ∀ b, s.bundles.lookup id = some b → b.state ≠ .prepared) :
    Yields s (prepareBundle required id)
      fun prepared t => prepared = false → ∀ x, t.resources.lookup x = s.resources.lookup x := by
  refine .seen ?_
  cases hb : s.bundles.lookup id with
  | none =>
    refine .read ?_
    rintro s rfl
    cases hrun : allocateTaskResourceInstances (requiredResources required id) s.resources with
    | mk result l =>
      cases result with
      | none =>
        refine .seq (.set (Q := fun _ t => t = { s with resources := l }) fun _ _ => rfl) (.pure ?_)
        rintro t rfl - x
        refine lookup_allocate_failed hrun fun hy i => ?_
        rw [requiredResources, mem_keys_toAList] at hy
        obtain ⟨amount, he⟩ := exists_of_mem_keys hy
        obtain ⟨e, -, he⟩ := mem_map.mp he
        cases he
        exact h.available_le e.1 i
      | some a =>
        exact .seq (.set (Q := fun _ _ => True) fun _ _ => trivial) (.pure (by simp))
  | some b =>
    refine .ite (fun _ => .pure (by simp)) fun hstate => ?_
    have hprepared := hnew b hb
    cases hb' : b.state with
    | prepared => exact absurd hb' hprepared
    | committed => exact absurd hb' hstate

/-- The resources of the node are conserved, and a bundle that cannot be prepared leaves
them alone. -/
theorem originals_conserved {l : NodeResourceInstances} (hl : Unallocated l) {m : Manager}
    (h : Reaches (BundleMessage.run required) BundleMessage.Allowed { node := { resources := l } } m) :
    (∀ name i, availableAt m.node.resources (.original name) i + m.node.allocatedAt name i =
      totalAt m.node.resources (.original name) i) ∧
    ∀ id t, (∀ b, m.node.bundles.lookup id = some b → b.state ≠ .prepared) →
      prepareAndKeep required id m = .ok false t → ∀ x, t.node.resources.lookup x = m.node.resources.lookup x := by
  have hconserving : Conserving required m.node := h.invariant (I := fun m => Conserving required m.node) (conserving_start hl) fun message m _ hm => (conserving_run message).pre fun t ht => ht ▸ hm
  refine ⟨hconserving.sum, fun id t hnew hrun => ?_⟩
  have hprepare : Triple (fun u => u = m) (prepareAndKeep required id)
      (fun prepared u => prepared = false → ∀ x, u.node.resources.lookup x = m.node.resources.lookup x)
        fun _ _ => True := by
    refine .read ?_
    rintro m rfl
    refine .bind (.within ?_) fun prepared => .bind
          (.onlyIf (fun _ => .update fun u hu => hu) fun _ u hu => hu) fun _ => .skip
    rintro m rfl
    exact unchanged_prepareBundle hconserving hnew
  exact hprepare.returned rfl hrun rfl

instance (message : BundleMessage) (m : Manager) : Decidable (message.Allowed m) := by
  cases message <;> (unfold BundleMessage.Allowed; infer_instance)

def twoCpus : NodeResourceInstances :=
  (∅ : NodeResourceInstances).insert (.original "CPU") { total := [2 * one], available := [2 * one] }

def oneCpuEach : BundleResources := fun _ => (∅ : AList fun _ : String => ℤ).insert "CPU" one

/-- A bundle is prepared twice and committed, another one is only prepared, and unused ones
are returned. -/
theorem originals_conserved_unused :
    ∃ m, Reaches (BundleMessage.run oneCpuEach) BundleMessage.Allowed { node := { resources := twoCpus } } m ∧
      m.node.allocatedAt "CPU" 0 = one ∧ availableAt m.node.resources (.original "CPU") 0 + m.node.allocatedAt "CPU" 0 =
        totalAt m.node.resources (.original "CPU") 0 := by
  refine exists_after [.prepareBundle (0, 0), .prepareBundle (0, 0), .commitBundle (0, 0), .prepareBundle (0, 1),
        .returnUnusedBundle [(0, 0)] [(0, 1), (0, 0)]]
    (fun m => m.node.allocatedAt "CPU" 0) one
    (by decide +kernel) fun _ hm hallocated => ?_
  exact ⟨hallocated, (originals_conserved (by decide) hm).1 "CPU" 0⟩

end AmazonRay.PlacementGroupResources
