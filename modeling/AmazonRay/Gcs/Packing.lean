import AmazonRay.Gcs.Searches

/-! The search for packing. The scorer chooses the node of the first demand, and others follow it if they are within what
is available there. -/
namespace AmazonRay.Gcs
open Program List

variable {o : IterationOrder} {c c₀ t : Cluster} {n : NodeID} {d : Demand} {known nodes : List NodeID}
  {demands : List Demand} {placed : List ((ℕ × Demand) × NodeID)} {left : List (ℕ × Demand)}

section

def packedDemands (placed : List ((ℕ × Demand) × NodeID)) : List (Demand × NodeID) :=
  placed.map fun x => (x.1.2, x.2)

/-- The demands of the list are placed on nodes or left, and what is placed is taken from the nodes. -/
structure Packed (c₀ : Cluster) (known : List NodeID) (demands : List Demand)
    (placed : List ((ℕ × Demand) × NodeID)) (left : List (ℕ × Demand)) (nodes : List NodeID)
    (t : Cluster) : Prop where
  perm : (placed.map Prod.fst ++ left).Perm (demands.zipIdx.map Prod.swap)
  node : ∀ x ∈ placed, nodes[x.1.1]? = some x.2
  rest : ∀ x ∈ left, nodes[x.1]? = some NodeID.nil
  length : nodes.length = demands.length
  subset : ∀ x ∈ placed, x.2 ∈ known
  held : Held c₀ (packedDemands placed) t

lemma Packed.perm_left {left' : List (ℕ × Demand)} (h : Packed c₀ known demands placed left nodes t)
    (hp : left.Perm left') : Packed c₀ known demands placed left' nodes t :=
  ⟨(hp.symm.append_left _).trans h.perm, h.node, fun x hx => h.rest x (hp.mem_iff.mpr hx), h.length, h.subset, h.held⟩

lemma Packed.indices_nodup (h : Packed c₀ known demands placed left nodes t) :
    ((placed.map Prod.fst ++ left).map Prod.fst).Nodup := by
  refine (h.perm.map Prod.fst).nodup_iff.mpr ?_
  rw [map_map, show Prod.fst ∘ Prod.swap = (Prod.snd : Demand × ℕ → ℕ) from rfl, zipIdx_map_snd]
  exact nodup_range'

lemma Packed.take {i : ℕ} (h : Packed c₀ known demands placed ((i, d) :: left) nodes c) (hn : n ∈ known)
    (ht : Taken n d c t) :
    Packed c₀ known demands (placed ++ [((i, d), n)]) left (nodes.set i n) t := by
  have hnodup := h.indices_nodup
  rw [map_append, map_cons, nodup_append, nodup_cons] at hnodup
  have hi : i < nodes.length := (List.getElem?_eq_some_iff.mp (h.rest _ mem_cons_self)).1
  constructor
  · rw [map_append, append_assoc]
    exact h.perm
  · intro x hx
    rcases mem_append.mp hx with hx | hx
    · have hne : i ≠ x.1.1 := fun hix => hnodup.2.2 x.1.1 (mem_map_of_mem (mem_map_of_mem hx)) i mem_cons_self hix.symm
      rw [List.getElem?_set_ne hne]
      exact h.node x hx
    · cases mem_singleton.mp hx
      exact List.getElem?_set_self hi
  · intro x hx
    have hne : i ≠ x.1 := fun hix => hnodup.2.1.1 (mem_map.mpr ⟨x, hx, hix.symm⟩)
    rw [List.getElem?_set_ne hne]
    exact h.rest x (mem_cons_of_mem _ hx)
  · rw [length_set]
    exact h.length
  · intro x hx
    rcases mem_append.mp hx with hx | hx
    · exact h.subset x hx
    · cases mem_singleton.mp hx
      exact hn
  · rw [packedDemands, map_append]
    exact h.held.take ht

lemma Packed.start (c : Cluster) (known : List NodeID) (demands : List Demand) :
    Packed c known demands [] (demands.zipIdx.map Prod.swap) (replicate demands.length NodeID.nil) c := by
  refine ⟨.refl _, nofun, fun x hx => ?_, length_replicate, nofun, Held.start c⟩
  obtain ⟨⟨d, i⟩, hmem, rfl⟩ := mem_map.mp hx
  have hi : i < demands.length := by
    have hlt := snd_lt_of_mem_zipIdx hmem
    rwa [Nat.add_zero] at hlt
  exact getElem?_replicate_of_lt hi

lemma zip_eq_map_zipIdx {nodes : List NodeID} {demands : List Demand} (h : nodes.length = demands.length) :
    nodes.zip demands = (demands.zipIdx.map Prod.swap).map fun x => (nodes.getD x.1 NodeID.nil, x.2) := by
  refine ext_getElem (by simp [h]) fun i hi hi' => ?_
  have hn : i < nodes.length := (length_zip ▸ hi : i < min _ _).trans_le (min_le_left _ _)
  simp [hn]

lemma Packed.zip_perm (h : Packed c₀ known demands placed left nodes t) :
    (nodes.zip demands).Perm (placed.map (fun x => (x.2, x.1.2)) ++ left.map fun x => (NodeID.nil, x.2)) := by
  rw [zip_eq_map_zipIdx h.length]
  refine (h.perm.map _).symm.trans ?_
  rw [map_append, map_map]
  refine List.Perm.of_eq (congrArg₂ _ (map_congr_left fun x hx => ?_) (map_congr_left fun x hx => ?_))
  · rw [Function.comp_apply, getD_eq_getElem?_getD, h.node x hx]
    rfl
  · rw [getD_eq_getElem?_getD, h.rest x hx]
    rfl

lemma Packed.placedOf_perm (h : Packed c₀ known demands placed left nodes t) (hnil : NodeID.nil ∉ known) :
    (placedOf (nodes.zip demands)).Perm (packedDemands placed) := by
  refine ((h.zip_perm.filter _).map _).trans (List.Perm.of_eq ?_)
  rw [filter_append, filter_eq_self.mpr, filter_eq_nil_iff.mpr, append_nil, map_map]
  · rfl
  · intro x hx
    obtain ⟨y, -, rfl⟩ := mem_map.mp hx
    simp
  · intro x hx
    obtain ⟨y, hy, rfl⟩ := mem_map.mp hx
    exact decide_eq_true (ne_of_mem_of_not_mem (h.subset y hy) hnil)

variable (h : Packed c₀ known demands placed [] nodes t)
include h

lemma Packed.zip_perm_of_left : (demands.zip nodes).Perm (packedDemands placed) := by
  have hperm := h.zip_perm.map Prod.swap
  rwa [zip_swap, map_nil, append_nil, map_map] at hperm

lemma Packed.nodes_subset : nodes ⊆ known := by
  intro n hn
  have hlen : nodes.length ≤ demands.length := h.length.le
  rw [← map_fst_zip hlen] at hn
  obtain ⟨x, hx, rfl⟩ := mem_map.mp hn
  have hx := h.zip_perm.mem_iff.mp hx
  rw [map_nil, append_nil] at hx
  obtain ⟨y, hy, rfl⟩ := mem_map.mp hx
  exact h.subset y hy

end

lemma load_of_amounts_eq_zero {l : List (Demand × NodeID)} {r : String} (h : ∀ x ∈ l, x.1 r = 0) (n : NodeID) :
    load l n r = 0 := by
  refine sum_eq_zero fun k hk => ?_
  obtain ⟨x, hx, rfl⟩ := mem_map.mp hk
  exact h x (mem_filter.mp hx).1

/-- Normal tasks matter only to the demands that follow another one, if these ask for the same resources. -/
lemma Packed.within (h : Packed c known demands placed [] nodes t)
    (hfirst : ∀ y ys, placed = y :: ys → (demands.zipIdx.map Prod.swap).head? = some y.1 ∧ Fits c y.2 y.1.2)
    (hnormal : ∀ n r, c.normalTasks n r ≠ 0 → ∀ d ∈ demands.tail, d r = 0) : Within c (demands.zip nodes) := by
  intro n r
  rw [load_perm h.zip_perm_of_left]
  by_cases htasks : c.normalTasks n r = 0
  · have := h.held.available n r
    omega
  · cases placed with
    | nil => exact Nat.zero_le _
    | cons y ys =>
      obtain ⟨⟨i, first⟩, m⟩ := y
      obtain ⟨hhead, hfits⟩ := hfirst _ ys rfl
      cases demands with
      | nil => cases hhead
      | cons d demands =>
        obtain ⟨rfl, rfl⟩ := Prod.mk.inj (Option.some.inj hhead)
        have hperm : (ys.map Prod.fst).Perm ((demands.zipIdx 1).map Prod.swap) := by
          have hperm := h.perm
          rw [append_nil] at hperm
          exact hperm.cons_inv
        have hrest : load (packedDemands ys) n r = 0 := by
          refine load_of_amounts_eq_zero (fun x hx => ?_) n
          obtain ⟨y', hy', rfl⟩ := mem_map.mp hx
          obtain ⟨⟨d', i⟩, hmem, heq⟩ := mem_map.mp (hperm.mem_iff.mp (mem_map_of_mem hy'))
          have hd' := hnormal n r htasks d' (fst_mem_of_mem_zipIdx hmem)
          rw [← heq]
          exact hd'
        have hfit := (hfits r).1
        rw [packedDemands, map_cons, ← singleton_append, load_append, ← packedDemands, hrest, load_singleton]
        by_cases hn : n = m
        · rw [if_pos hn, hn]
          exact hfit
        · rw [if_neg hn]
          exact Nat.zero_le _

variable {K : Prop}

lemma packed_packOnNode (rest skipped : List (ℕ × Demand)) (hn : n ∈ known) (hsome : (c.lookup n).isSome)
    (hexact : K → ∀ x ∈ rest, x.2.Exact) (h : Packed c₀ known demands placed (skipped ++ rest) nodes c) :
    Triple (· = c) (packOnNode n rest nodes) (fun r t => r.2.Sublist rest ∧ ∃ more,
      Packed c₀ known demands (placed ++ more) (skipped ++ r.2) r.1 t) fun _ _ => ¬ K := by
  induction rest generalizing c placed skipped nodes with
  | nil =>
    refine .done ⟨.refl _, [], ?_⟩
    rwa [append_nil placed]
  | cons x rest ih =>
    obtain ⟨i, d⟩ := x
    have hrest : K → ∀ x ∈ rest, x.2.Exact := fun hk x hx => hexact hk x (mem_cons_of_mem _ hx)
    have hlabels : K → (∀ r, d r ≤ c.available n r) → ∀ r ∈ d.labels, c.available n r ≠ 0 := by
      intro hk hle r hr hzero
      have hzero : d r = 0 := Nat.le_zero.mp (hzero ▸ hle r)
      exact hexact hk (i, d) mem_cons_self r hr hzero
    refine .bind (taken_acquireResources hsome hlabels) fun acquired => ?_
    rintro t (⟨rfl, ht⟩ | ⟨rfl, -, rfl⟩)
    · have htaken := (h.perm_left perm_middle).take hn ht
      refine ((ih skipped ((ht.isSome n).trans hsome) hrest htaken).post ?_) t rfl
      rintro r u ⟨hsub, more, hu⟩
      refine ⟨hsub.cons _, ((i, d), n) :: more, ?_⟩
      rwa [append_assoc] at hu
    · have hskip : Packed c₀ known demands placed ((skipped ++ [(i, d)]) ++ rest) nodes t := by
        rwa [append_assoc]
      refine (Triple.bind (ih (skipped ++ [(i, d)]) hsome hrest hskip) fun p => .pure ?_) t rfl
      rintro u ⟨hsub, more, hu⟩
      refine ⟨hsub.cons_cons _, more, ?_⟩
      rwa [append_assoc] at hu

/-- Each round begins with a demand that fits on its node; a demand with a label that its node does not have can only be
one of those that follow. -/
lemma packed_packLoop (bound : ℕ) (s : PackState) (hknown : ∀ n ∈ known, (c₀.lookup n).isSome)
    (hcandidates : s.candidateNodes ⊆ known) (hbound : s.left.length ≤ bound)
    (hexact : K → ∀ x ∈ s.left.tail, x.2.Exact) (h : Packed c₀ known demands placed s.left s.resultNodes c) :
    Triple (· = c) (packLoop o bound s) (fun s' t => ∃ placed',
      Packed c₀ known demands (placed ++ placed') s'.left s'.resultNodes t ∧
      ∀ y ys, placed' = y :: ys → s.left.head? = some y.1 ∧ Fits c y.2 y.1.2) fun _ _ => ¬ K := by
  induction bound generalizing s c placed with
  | zero =>
    have hleft := length_eq_zero_iff.mp (Nat.le_zero.mp hbound)
    unfold packLoop
    rw [hleft]
    exact .done ⟨[], by rwa [append_nil], nofun⟩
  | succ bound ih =>
    have hsome : ∀ n ∈ known, (c.lookup n).isSome := fun n hn => (h.held.isSome n).trans (hknown n hn)
    obtain ⟨candidateNodes, left, resultNodes⟩ := s
    cases left with
    | nil => exact .done ⟨[], by rwa [append_nil], nofun⟩
    | cons x rest =>
      obtain ⟨i, d⟩ := x
      refine .bind ((fits_getBestNode (o.perm bound candidateNodes) fun n hn => hsome n (hcandidates hn)).weaken
        fun _ _ => False.elim) fun best => .given fun hbest => ?_
      cases best with
      | none => exact .done ⟨[], by rwa [append_nil], nofun⟩
      | some n =>
        obtain ⟨hn, hfits⟩ := hbest n rfl
        have hn := hcandidates hn
        refine .bind (taken_acquireBest (hsome n hn) hfits) fun acquired => .given fun hacq =>
          .bind (.passed hacq) fun _ t ht => ?_
        refine Triple.bind (packed_packOnNode rest [] hn ((ht.isSome n).trans (hsome n hn)) hexact (h.take hn ht))
          (fun p u hu => ?_) t rfl
        obtain ⟨hsub, more, hu⟩ := hu
        have hnext := ih { candidateNodes := candidateNodes.erase n, left := p.2, resultNodes := p.1 }
          (fun x hx => hcandidates (mem_of_mem_erase hx))
          (hsub.length_le.trans (Nat.le_of_succ_le_succ hbound))
          (fun hk x hx => hexact hk x (hsub.subset (mem_of_mem_tail hx))) hu
        refine hnext.post (fun s' v hv => ?_) u rfl
        obtain ⟨placed', hv, -⟩ := hv
        refine ⟨((i, d), n) :: (more ++ placed'), ?_, fun y ys hy => ?_⟩
        · simpa using hv
        · cases hy
          exact ⟨rfl, hfits⟩

end AmazonRay.Gcs
