import AmazonRay.Gcs.Packing
import AmazonRay.Lib.Runs

/-! The placements that the scheduler returns are valid but for packing beside normal tasks and for nothing on no nodes.
Packing is stopped by a demand whose amount is truncated to zero. -/
namespace AmazonRay.Gcs
open Program List Cluster

variable {o : IterationOrder} {c t : Cluster} {candidates : List NodeID} {demands : List Demand}

section

/-- A search leaves the nodes as they were, and the demands that it placed were available. -/
structure Scheduled (c : Cluster) (candidates : List NodeID) (demands : List Demand) (result : SchedulingResult)
    (t : Cluster) : Prop where
  same : SameNodes c t
  restored : Capped c → NodeID.nil ∉ candidates → t.available = c.available
  length : result.1 = .success → result.2.length = demands.length
  subset : result.2 ⊆ candidates
  available : ∀ n r, load (demands.zip result.2) n r ≤ c.available n r

variable {placed : List (Demand × NodeID)} {nodeFilter : NodeID → Bool} {schedulingType : SchedulingType} (o : IterationOrder)

lemma Held.load_le (h : Held c placed t) (n : NodeID) (r : String) : load placed n r ≤ c.available n r := by
  have := h.available n r
  omega

lemma Held.restored (h : Held c [] t) : t.available = c.available := by
  funext n r
  have := h.available n r
  rwa [load, filter_nil, map_nil, sum_nil, Nat.add_zero] at this

lemma Within.load_le (h : Within c placed) (n : NodeID) (r : String) :
    load placed n r ≤ c.available n r := (h n r).trans (Nat.sub_le _ _)

lemma within_zip_nil (c : Cluster) (demands : List Demand) : Within c (demands.zip []) := by
  intro n r
  rw [zip_nil_right]
  exact Nat.zero_le _

lemma Scheduled.nothing {status : SchedulingResultStatus} (hstatus : status ≠ .success) (hsame : SameNodes c t)
    (hrestored : Capped c ∧ NodeID.nil ∉ candidates → t.available = c.available) :
    Scheduled c candidates demands (status, []) t :=
  ⟨hsame, fun hcap hnil => hrestored ⟨hcap, hnil⟩, fun h => absurd h hstatus, nil_subset _,
    (within_zip_nil c demands).load_le⟩

lemma triple_strictSpreadSchedule (demands : List Demand) (hknown : ∀ n ∈ candidates, (c.lookup n).isSome) (hnodup : candidates.Nodup) :
    Completes c (strictSpreadSchedule o demands candidates) fun result t =>
      Scheduled c candidates demands result t ∧ Within c (demands.zip result.2) ∧ result.2.Nodup ∧
      (result.1 = .infeasible → candidates.length < demands.length) := by
  have hnothing : ∀ status, status ≠ .success → (status = .infeasible → candidates.length < demands.length) →
      ∀ t, t = c → Scheduled c candidates demands (status, []) t ∧ Within c (demands.zip []) ∧ ([] : List NodeID).Nodup ∧
      (status = .infeasible → candidates.length < demands.length) := by
    rintro status hstatus hinf t rfl
    exact ⟨.nothing hstatus (refl_of SameNodes t) fun _ => rfl, within_zip_nil t demands, nodup_nil, hinf⟩
  refine .ite (fun hlt => .pure (hnothing _ (by decide) fun _ => hlt)) fun _ => ?_
  refine .bind (triple_strictSpreadLoop demands candidates [] hknown hnodup) fun nodes => .given fun hnodes => ?_
  obtain ⟨more, rfl, hmore, hsub, hfits⟩ := hnodes
  refine .ite (fun _ => .pure (hnothing _ (by decide) nofun)) fun hlength => .pure ?_
  rintro t rfl
  have hwithin := within_of_nodup hmore hfits
  exact ⟨⟨refl_of SameNodes t, fun _ _ => rfl, fun _ => not_not.mp hlength, hsub, hwithin.load_le⟩, hwithin, hmore,
    nofun⟩

lemma triple_spreadSchedule (demands : List Demand) (hknown : ∀ n ∈ candidates, (c.lookup n).isSome) :
    Completes c (spreadSchedule o demands candidates) fun result t =>
      Scheduled c candidates demands result t ∧ Within c (demands.zip result.2) ∧ result.1 ≠ .infeasible := by
  have hstart : Spread c candidates ([] ++ demands) [] c := by
    refine ⟨?_, within_zip_nil c demands, Nat.zero_le _, nil_subset _⟩
    rw [zip_nil_right]
    exact Held.start c
  refine .bind (triple_spreadLoop demands [] { candidateNodes := candidates } hknown rfl (.refl _)
    (nil_subset _) hstart) fun nodes t ht => ?_
  rw [nil_append] at ht
  have hrelease : SameNodes c t ∧ (Capped c ∧ NodeID.nil ∉ candidates → Held c (placedOf (nodes.zip demands)) t) := by
    refine ⟨ht.held.toSameNodes, fun hk => ?_⟩
    have hall : (nodes.zip demands).filter (·.1 ≠ NodeID.nil) = nodes.zip demands := filter_eq_self.mpr fun x hx =>
        decide_eq_true (ne_of_mem_of_not_mem (ht.subset (of_mem_zip hx).1) hk.2)
    rw [placedOf, hall, zip_swap]
    exact ht.held
  refine Triple.bind (released_forM (nodes.zip demands) And.left) (fun _ u hu => ?_) t hrelease
  have hrestored : Capped c ∧ NodeID.nil ∉ candidates → u.available = c.available := fun hk => (hu.2 hk).restored
  refine Triple.ite (fun _ => .pure ?_) (fun hlength => .pure ?_) u rfl
  · rintro v rfl
    exact ⟨.nothing (by decide) hu.1 hrestored, within_zip_nil c demands, by decide⟩
  · rintro v rfl
    exact ⟨⟨hu.1, fun hcap hnil => hrestored ⟨hcap, hnil⟩, fun _ => not_not.mp hlength, ht.subset,
      ht.held.load_le⟩, ht.within, (by simp)⟩

lemma foldl_addResources_apply (a : Demand) (r : String) :
    demands.foldl Demand.addResources a r = a r + (demands.map (· r)).sum := by
  induction demands generalizing a with
  | nil => rfl
  | cons d demands ih =>
    rw [foldl_cons, ih, map_cons, sum_cons, ← Nat.add_assoc]
    rfl

lemma load_zip_of_all_eq {n : NodeID} {nodes : List NodeID} (hlength : nodes.length = demands.length)
    (hall : ∀ x ∈ nodes, x = n) (x : NodeID) (r : String) :
    load (demands.zip nodes) x r = if x = n then (demands.map (· r)).sum else 0 := by
  by_cases hx : x = n
  · have hkeep : (demands.zip nodes).filter (·.2 = x) = demands.zip nodes :=
      filter_eq_self.mpr fun y hy => decide_eq_true ((hall y.2 (of_mem_zip hy).2).trans hx.symm)
    have hmap : (demands.zip nodes).map (fun y => y.1 r) = demands.map (· r) := by
      rw [← Function.comp_def (fun d : Demand => d r) Prod.fst, ← map_map, map_fst_zip hlength.ge]
    rw [if_pos hx, load, hkeep, hmap]
  · rw [if_neg hx, load_eq_zero]
    exact fun y hy hyx => hx (hyx.symm.trans (hall y.2 (of_mem_zip hy).2))

lemma triple_strictPackSchedule (demands : List Demand) (hknown : ∀ n ∈ candidates, (c.lookup n).isSome) :
    Completes c (strictPackSchedule o demands candidates) fun result t =>
      Scheduled c candidates demands result t ∧ Within c (demands.zip result.2) ∧
      (∀ n ∈ result.2, ∀ n' ∈ result.2, n = n') ∧
      (result.1 = .infeasible → ∀ n node, c.lookup n = some node → ∃ r, node.total r < (demands.map (· r)).sum) := by
  have hsum r : demands.foldl Demand.addResources .empty r = (demands.map (· r)).sum := by
    rw [foldl_addResources_apply]
    exact Nat.zero_add _
  refine .seen ?_
  refine .ite (fun _ => ?_) fun hnone => .done ?_
  · refine .bind (fits_getBestNode (o.perm 0 candidates) hknown) fun best => .given fun hbest => ?_
    have hfailed : Scheduled c candidates demands (.failed, []) c :=
      .nothing (by decide) (refl_of SameNodes c) fun _ => rfl
    refine .ite (fun _ => .pure ?_) fun hne => .pure ?_
    · rintro t rfl
      exact ⟨hfailed, within_zip_nil t demands, nofun, nofun⟩
    · rintro t rfl
      cases best with
      | none => exact absurd rfl hne
      | some n =>
        obtain ⟨hn, hfits⟩ := hbest n rfl
        have hlength := length_replicate (n := demands.length) (a := n)
        have hall : ∀ x ∈ replicate demands.length n, x = n := fun x hx => eq_of_mem_replicate hx
        have hwithin : Within t (demands.zip (replicate demands.length n)) := by
          intro x r
          rw [load_zip_of_all_eq hlength hall]
          by_cases hx : x = n
          · rw [if_pos hx, ← hsum, hx]
            exact (hfits r).1
          · rw [if_neg hx]
            exact Nat.zero_le _
        refine ⟨⟨refl_of SameNodes t, fun _ _ => rfl, fun _ => hlength, fun x hx => ?_, hwithin.load_le⟩, hwithin,
          fun x hx y hy => (hall x hx).trans (hall y hy).symm, nofun⟩
        exact hall x hx ▸ hn
  · refine ⟨.nothing (by decide) (refl_of SameNodes c) fun _ => rfl, within_zip_nil c demands,
      nofun, fun _ n node hnode => ?_⟩
    by_contra hall
    push Not at hall
    refine hnone (any_eq_true.mpr ⟨⟨n, node⟩, Table.mem_entries_iff.mpr hnode, ?_⟩)
    refine ResourceSet.isSubset_iff.mpr fun r => ?_
    rw [hsum]
    exact hall r

lemma triple_packSchedule (demands : List Demand) (hknown : ∀ n ∈ candidates, (c.lookup n).isSome) :
    Triple (· = c) (packSchedule o demands candidates) (fun result t =>
      Scheduled c candidates demands result t ∧ result.1 ≠ .infeasible ∧
      ((∀ n r, c.normalTasks n r ≠ 0 → ∀ d ∈ demands.tail, d r = 0) → Within c (demands.zip result.2)))
      fun _ _ => ¬ ∀ d ∈ demands.tail, d.Exact := by
  have hbound : (demands.zipIdx.map Prod.swap).length ≤ demands.length := by
    rw [length_map, length_zipIdx]
  have hexact : (∀ d ∈ demands.tail, d.Exact) → ∀ x ∈ (demands.zipIdx.map Prod.swap).tail, x.2.Exact := by
    intro h x hx
    rw [← map_tail] at hx
    obtain ⟨⟨d, i⟩, hmem, rfl⟩ := mem_map.mp hx
    refine h d ?_
    cases demands with
    | nil => cases hmem
    | cons _ _ => exact fst_mem_of_mem_zipIdx hmem
  refine .bind (packed_packLoop demands.length _ hknown (List.Subset.refl candidates) hbound hexact
    (Packed.start c candidates demands)) fun s t ht => ?_
  obtain ⟨placed, ht, hfirst⟩ := ht
  rw [nil_append] at ht
  have hrelease : SameNodes c t ∧
      (Capped c ∧ NodeID.nil ∉ candidates → Held c (placedOf (s.resultNodes.zip demands)) t) :=
    ⟨ht.held.toSameNodes, fun hk => ht.held.perm (ht.placedOf_perm hk.2).symm⟩
  refine Triple.bind ((released_forM (s.resultNodes.zip demands) And.left).weaken fun _ _ => False.elim)
    (fun _ u hu => ?_) t hrelease
  have hrestored : Capped c ∧ NodeID.nil ∉ candidates → u.available = c.available := fun hk => (hu.2 hk).restored
  refine Triple.ite (fun _ => .pure ?_) (fun hleft => .pure ?_) u rfl
  · rintro v rfl
    exact ⟨.nothing (by decide) hu.1 hrestored, by decide, fun _ => within_zip_nil c demands⟩
  · rintro v rfl
    rw [not_not.mp hleft] at ht
    exact ⟨⟨hu.1, fun hcap hnil => hrestored ⟨hcap, hnil⟩, fun _ => ht.length, ht.nodes_subset,
      (ht.held.perm ht.zip_perm_of_left.symm).load_le⟩, nofun, ht.within hfirst⟩

end

section

def OfType : SchedulingType → List NodeID → Prop
  | .strictSpread, nodes => nodes.Nodup
  | .strictPack, nodes => ∀ n ∈ nodes, ∀ n' ∈ nodes, n = n'
  | .spread, _ => True
  | .pack, _ => True

/-- Demands are placed on candidates where they fit; if they are called infeasible, no candidates have enough in total.
-/
structure ValidPlacement (c : Cluster) (candidates : List NodeID) (demands : List Demand)
    (schedulingType : SchedulingType) (result : SchedulingResult) : Prop where
  success : result.1 = .success → result.2.length = demands.length ∧ result.2 ⊆ candidates ∧
    Within c (demands.zip result.2) ∧ OfType schedulingType result.2
  infeasible : result.1 = .infeasible → ¬∃ nodes : List NodeID, nodes.length = demands.length ∧ nodes ⊆ candidates ∧
    OfType schedulingType nodes ∧ ∀ n r, load (demands.zip nodes) n r ≤ c.total n r

lemma isSome_of_mem_filterCandidateNodes : ∀ n ∈ filterCandidateNodes c nodeFilter, (c.lookup n).isSome :=
  fun _ hn => AList.lookup_isSome.mpr (AList.mem_keys.mpr (mem_filter.mp hn).1)

lemma filterCandidateNodes_nodup (c : Cluster) (nodeFilter : NodeID → Bool) :
    (filterCandidateNodes c nodeFilter).Nodup := c.keys_nodup.filter nodeFilter

lemma not_exists_of_length_lt (h : candidates.length < demands.length) : ¬∃ nodes : List NodeID,
    nodes.length = demands.length ∧ nodes ⊆ candidates ∧ OfType .strictSpread nodes ∧
      ∀ n r, load (demands.zip nodes) n r ≤ c.total n r := by
  rintro ⟨nodes, hlength, hsub, hnodup, -⟩
  have hle := (hnodup.subperm hsub).length_le
  omega

lemma not_exists_of_total_lt (hdemands : demands ≠ []) (hknown : ∀ n ∈ candidates, (c.lookup n).isSome)
    (h : ∀ n node, c.lookup n = some node → ∃ r, node.total r < (demands.map (· r)).sum) :
    ¬∃ nodes : List NodeID, nodes.length = demands.length ∧ nodes ⊆ candidates ∧ OfType .strictPack nodes ∧
      ∀ n r, load (demands.zip nodes) n r ≤ c.total n r := by
  rintro ⟨nodes, hlength, hsub, hall, htotal⟩
  obtain ⟨n, hn⟩ : ∃ n, n ∈ nodes := by
    refine exists_mem_of_ne_nil nodes fun hnil => hdemands ?_
    rw [hnil] at hlength
    exact length_eq_zero_iff.mp hlength.symm
  obtain ⟨node, hnode⟩ := Option.isSome_iff_exists.mp (hknown n (hsub hn))
  obtain ⟨r, hr⟩ := h n node hnode
  have hle := htotal n r
  rw [load_zip_of_all_eq hlength (fun x hx => hall x hx n hn), if_pos rfl, total, hnode] at hle
  exact absurd hr (not_lt.mpr hle)

lemma validPlacement_of_empty (h : candidates = []) :
    ValidPlacement c candidates demands schedulingType (.infeasible, []) ↔ (demands = [] → candidates ≠ []) := by
  refine ⟨fun hvalid => ?_, fun hne => ⟨nofun, ?_⟩⟩
  · rintro rfl
    exact absurd ⟨[], rfl, nil_subset _, by cases schedulingType <;> simp [OfType], by simp [load]⟩
      (hvalid.infeasible rfl)
  · rintro - ⟨nodes, hlength, hsub, -⟩
    rw [h] at hsub
    rw [subset_nil.mp hsub] at hlength
    exact hne (length_eq_zero_iff.mp hlength.symm) h

lemma triple_schedule (o : IterationOrder) (c : Cluster) (demands : List Demand) (schedulingType : SchedulingType)
    (nodeFilter : NodeID → Bool) :
    Triple (· = c) (schedule o demands schedulingType nodeFilter) (fun result t =>
      Scheduled c (filterCandidateNodes c nodeFilter) demands result t ∧
      ((schedulingType = .pack → ∀ n r, c.normalTasks n r ≠ 0 → ∀ d ∈ demands.tail, d r = 0) →
        (ValidPlacement c (filterCandidateNodes c nodeFilter) demands schedulingType result ↔
          (demands = [] → filterCandidateNodes c nodeFilter ≠ []))))
      fun _ _ => schedulingType = .pack ∧ ¬ ∀ d ∈ demands.tail, d.Exact := by
  have hknown : ∀ n ∈ filterCandidateNodes c nodeFilter, (c.lookup n).isSome := isSome_of_mem_filterCandidateNodes
  refine .seen (.ite (fun hcand => .done ⟨.nothing (by decide) (refl_of SameNodes c) fun _ => rfl,
    fun _ => validPlacement_of_empty hcand⟩) fun hcand => ?_)
  have hiff : ∀ {result}, ValidPlacement c (filterCandidateNodes c nodeFilter) demands schedulingType result →
      (ValidPlacement c (filterCandidateNodes c nodeFilter) demands schedulingType result ↔
        (demands = [] → filterCandidateNodes c nodeFilter ≠ [])) := fun h => iff_of_true h fun _ => hcand
  cases schedulingType with
  | spread =>
    refine (triple_spreadSchedule o demands hknown).conseq (fun _ ht => ht) ?_ fun _ _ => False.elim
    rintro result t ⟨hs, hwithin, hinf⟩
    exact ⟨hs, fun _ => hiff ⟨fun hsucc => ⟨hs.length hsucc, hs.subset, hwithin, trivial⟩, fun h => absurd h hinf⟩⟩
  | strictSpread =>
    refine (triple_strictSpreadSchedule o demands hknown (filterCandidateNodes_nodup c nodeFilter)).conseq
      (fun _ ht => ht) ?_ fun _ _ => False.elim
    rintro result t ⟨hs, hwithin, hnodup, hinf⟩
    exact ⟨hs, fun _ => hiff ⟨fun hsucc => ⟨hs.length hsucc, hs.subset, hwithin, hnodup⟩,
      fun h => not_exists_of_length_lt (hinf h)⟩⟩
  | pack =>
    refine (triple_packSchedule o demands hknown).conseq (fun _ ht => ht) ?_ fun _ _ he => ⟨rfl, he⟩
    rintro result t ⟨hs, hinf, hwithin⟩
    exact ⟨hs, fun hnormal => hiff ⟨fun hsucc => ⟨hs.length hsucc, hs.subset, hwithin (hnormal rfl), trivial⟩,
      fun h => absurd h hinf⟩⟩
  | strictPack =>
    refine (triple_strictPackSchedule o demands hknown).conseq (fun _ ht => ht) ?_ fun _ _ => False.elim
    rintro result t ⟨hs, hwithin, hall, hinf⟩
    refine ⟨hs, fun _ => hiff ⟨fun hsucc => ⟨hs.length hsucc, hs.subset, hwithin, hall⟩, fun h => ?_⟩⟩
    -- an empty list of demands would fit on any node
    have hne : demands ≠ [] := by
      rintro rfl
      obtain ⟨n, hn⟩ := exists_mem_of_ne_nil _ hcand
      obtain ⟨node, hnode⟩ := Option.isSome_iff_exists.mp (hknown n hn)
      obtain ⟨r, hr⟩ := hinf h n node hnode
      exact absurd hr (Nat.not_lt_zero _)
    exact not_exists_of_total_lt hne hknown (hinf h)

def exampleOrder : IterationOrder := ⟨fun _ l => l, fun _ l => .refl l⟩

def cpus (n : ℕ) : ResourceSet := Amounts.single "CPU" (10000 * n)

def busyNode : Cluster := (∅ : Cluster).insert 1
  { total := (cpus 4).addResources (Amounts.single "GPU" 10000),
    available := (cpus 4).addResources (Amounts.single "GPU" 10000), normalTasks := cpus 2 }

end

def oneNode : Cluster := (∅ : Cluster).insert 1 { total := cpus 4, available := cpus 4, normalTasks := 0 }

lemma capped_oneNode : Capped oneNode := by
  intro x r
  rw [available, total, oneNode, Table.lookup_insert]
  split <;> rfl

end AmazonRay.Gcs
