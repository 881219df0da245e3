import AmazonRay.Gcs.ResourceScheduler

/-! What the searches take from the nodes: the demands that were placed account for what is not available. -/
namespace AmazonRay.Gcs
open Program List

section

variable {c t : Cluster} {n : NodeID} {d : Demand} {node : SchedulingResources}

variable {l : List NodeID}

lemma calculate_nonneg_iff {requested available : ℕ} : 0 ≤ calculate requested available ↔ requested ≤ available := by
  unfold calculate
  by_cases h : available < requested
  · rw [if_pos h]
    exact ⟨fun hneg => absurd hneg (by decide), fun hle => absurd hle (not_le.mpr h)⟩
  · rw [if_neg h]
    exact ⟨fun _ => not_lt.mp h, fun _ => div_nonneg (Nat.cast_nonneg _) (Nat.cast_nonneg _)⟩

lemma actualAvailable_apply (node : SchedulingResources) (r : String) :
    node.actualAvailable r = node.available r - node.normalTasks r := by
  unfold SchedulingResources.actualAvailable
  by_cases h : node.normalTasks.isEmpty = true
  · have hzero : node.normalTasks r = 0 := by
      have hempty : node.normalTasks.support = ∅ := of_decide_eq_true h
      exact Finsupp.notMem_support_iff.mp (hempty ▸ Finset.notMem_empty r)
    rw [if_pos h, hzero, Nat.sub_zero]
  · rw [if_neg h]
    rfl

lemma score_nonneg_iff : 0 ≤ score d node ↔ ∀ r, d r ≤ node.available r - node.normalTasks r ∧
    (r ∈ d.labels → node.available r - node.normalTasks r ≠ 0) := by
  have hfits : (∀ r ∈ d.labels, r ∈ node.actualAvailable.support ∧ 0 ≤ calculate (d r) (node.actualAvailable r)) ↔
      ∀ r, d r ≤ node.available r - node.normalTasks r ∧
        (r ∈ d.labels → node.available r - node.normalTasks r ≠ 0) := by
    refine forall_congr' fun r => ?_
    rw [calculate_nonneg_iff, Finsupp.mem_support_iff, actualAvailable_apply]
    by_cases hr : r ∈ d.labels
    · simp only [hr, true_implies]
      exact and_comm
    · simp [hr, Demand.apply_of_notMem hr]
  unfold score
  rw [← hfits]
  by_cases h : ∀ r ∈ d.labels, r ∈ node.actualAvailable.support ∧ 0 ≤ calculate (d r) (node.actualAvailable r)
  · rw [if_pos h]
    exact ⟨fun _ => h, fun _ => Finset.sum_nonneg fun r hr => (h r hr).2⟩
  · rw [if_neg h]
    exact ⟨fun hneg => absurd hneg (by decide), fun h' => absurd h' h⟩

def Cluster.score (c : Cluster) (d : Demand) (n : NodeID) : ℚ := (c.lookup n).elim 0 (Gcs.score d)

/-- The demand is within what normal tasks leave on the node, which has all of its labels. -/
def Fits (c : Cluster) (n : NodeID) (d : Demand) : Prop := ∀ r, d r ≤ c.available n r - c.normalTasks n r ∧
  (r ∈ d.labels → c.available n r - c.normalTasks n r ≠ 0)

lemma clusterScore_nonneg_iff (hn : (c.lookup n).isSome) : 0 ≤ c.score d n ↔ Fits c n d := by
  obtain ⟨node, hnode⟩ := Option.isSome_iff_exists.mp hn
  unfold Cluster.score Fits Cluster.available Cluster.normalTasks
  rw [hnode]
  exact score_nonneg_iff

def bestOf (f : NodeID → ℚ) (l : List NodeID) : Option NodeID :=
  (l.foldl (fun (best : Option (NodeID × ℚ)) n => if best.all (·.2 < f n) then some (n, f n) else best) none).bind
    fun b => if 0 ≤ b.2 then some b.1 else none

lemma bestOf_eq_some {f : NodeID → ℚ} (h : bestOf f l = some n) : n ∈ l ∧ 0 ≤ f n := by
  have hloop : ∀ (l : List NodeID) (best : Option (NodeID × ℚ)) (b : NodeID × ℚ),
      l.foldl (fun (best : Option (NodeID × ℚ)) n => if best.all (·.2 < f n) then some (n, f n) else best) best =
        some b → best = some b ∨ b.1 ∈ l ∧ b.2 = f b.1 := by
    intro l
    induction l with
    | nil => exact fun best b hb => .inl hb
    | cons x l ih =>
      intro best b hb
      rw [foldl_cons] at hb
      rcases ih _ b hb with hb | ⟨hmem, hscore⟩
      · by_cases hx : best.all (·.2 < f x) = true
        · rw [if_pos hx] at hb
          cases hb
          exact .inr ⟨mem_cons_self, rfl⟩
        · rw [if_neg hx] at hb
          exact .inl hb
      · exact .inr ⟨mem_cons_of_mem x hmem, hscore⟩
  obtain ⟨b, hb, hn⟩ := Option.bind_eq_some_iff.mp h
  by_cases hpos : 0 ≤ b.2
  · rw [if_pos hpos] at hn
    cases hn
    rcases hloop l none b hb with hb | ⟨hmem, hscore⟩
    · cases hb
    · exact ⟨hmem, hscore ▸ hpos⟩
  · rw [if_neg hpos] at hn
    cases hn

lemma triple_getBestNode (hl : ∀ n ∈ l, (c.lookup n).isSome) :
    Completes c (getBestNode d l) fun b t => t = c ∧ b = bestOf (c.score d) l := by
  refine .bind ((Triple.foldlM (I := fun rest best t => t = c ∧ (∀ n ∈ rest, (c.lookup n).isSome) ∧
      rest.foldl (fun (best : Option (NodeID × ℚ)) n =>
        if best.all (·.2 < c.score d n) then some (n, c.score d n) else best) best =
      l.foldl (fun (best : Option (NodeID × ℚ)) n =>
        if best.all (·.2 < c.score d n) then some (n, c.score d n) else best) none)
    (fun best n rest => ?_) l none).pre fun t ht => ⟨ht, hl, rfl⟩) fun best => .pure ?_
  · refine .read fun t ht => ?_
    obtain ⟨rfl, hknown, hbest⟩ := ht
    obtain ⟨node, hnode⟩ := Option.isSome_iff_exists.mp (hknown n mem_cons_self)
    have hscore : t.score d n = score d node := by
      rw [Cluster.score, hnode]
      rfl
    rw [hnode]
    refine .done ?_
    refine ⟨rfl, fun x hx => hknown x (mem_cons_of_mem n hx), ?_⟩
    rw [← hbest, foldl_cons, hscore]
  · rintro t ⟨ht, -, hbest⟩
    refine ⟨ht, ?_⟩
    rw [bestOf, ← hbest]
    rfl

lemma fits_getBestNode {l' : List NodeID} (hperm : l'.Perm l) (hl : ∀ n ∈ l, (c.lookup n).isSome) :
    Completes c (getBestNode d l') fun b t => t = c ∧ ∀ n, b = some n → n ∈ l ∧ Fits c n d := by
  refine (triple_getBestNode fun n hn => hl n (hperm.mem_iff.mp hn)).post ?_
  rintro b t ⟨ht, rfl⟩
  refine ⟨ht, fun n hn => ?_⟩
  obtain ⟨hmem, hscore⟩ := bestOf_eq_some hn
  have hmem := hperm.mem_iff.mp hmem
  exact ⟨hmem, (clusterScore_nonneg_iff (hl n hmem)).mp hscore⟩

end

variable {c c₀ t : Cluster} {n : NodeID} {d : Demand} {placed placed' : List (Demand × NodeID)}

def load (placed : List (Demand × NodeID)) (n : NodeID) (r : String) : ℕ :=
  ((placed.filter (·.2 = n)).map fun x => x.1 r).sum

lemma load_append (placed placed' : List (Demand × NodeID)) (n : NodeID) (r : String) :
    load (placed ++ placed') n r = load placed n r + load placed' n r := by
  rw [load, filter_append, map_append, sum_append]
  rfl

lemma load_singleton (x : NodeID) (r : String) : load [(d, n)] x r = if x = n then d r else 0 := by
  by_cases h : x = n
  · simp [load, h]
  · simp [load, h, Ne.symm h]

lemma load_perm (h : placed.Perm placed') (n : NodeID) (r : String) : load placed n r = load placed' n r :=
  ((h.filter _).map _).sum_eq

/-- What is not available any more is what the demands that were placed have taken. -/
structure Held (c₀ : Cluster) (placed : List (Demand × NodeID)) (c : Cluster) : Prop extends SameNodes c₀ c where
  available : ∀ n r, c.available n r + load placed n r = c₀.available n r

lemma Held.start (c : Cluster) : Held c [] c := ⟨refl_of SameNodes c, fun _ _ => rfl⟩

lemma Held.take (h : Held c₀ placed c) (ht : Taken n d c t) : Held c₀ (placed ++ [(d, n)]) t := by
  refine ⟨trans_of SameNodes h.toSameNodes ht.toSameNodes, fun x r => ?_⟩
  rw [load_append, load_singleton]
  have h₁ := h.available x r
  have h₂ := ht.available x r
  omega

lemma Held.perm (h : Held c₀ placed c) (hp : placed.Perm placed') : Held c₀ placed' c :=
  ⟨h.toSameNodes, fun x r => load_perm hp x r ▸ h.available x r⟩

lemma Held.give (h : Held c₀ ((d, n) :: placed) c) (ht : Taken n d t c) : Held c₀ placed t := by
  refine ⟨⟨fun x => (ht.isSome x).symm.trans (h.isSome x), ht.total.symm.trans h.total,
    ht.normalTasks.symm.trans h.normalTasks⟩, fun x r => ?_⟩
  have h₁ := h.available x r
  have h₂ := ht.available x r
  rw [← singleton_append, load_append, load_singleton] at h₁
  omega

def Capped (c : Cluster) : Prop := ∀ n r, c.available n r ≤ c.total n r

def placedOf (l : List (NodeID × Demand)) : List (Demand × NodeID) :=
  (l.filter (·.1 ≠ NodeID.nil)).map Prod.swap

lemma released_forM {K : Prop} (l : List (NodeID × Demand)) (hcap : K → Capped c₀) :
    Triple (fun t => SameNodes c₀ t ∧ (K → Held c₀ (placedOf l) t)) (l.forM fun x => onlyIf (x.1 ≠ NodeID.nil) do
        check .releaseResources ((← releaseResources x.1 x.2) = true))
      (fun _ t => SameNodes c₀ t ∧ (K → Held c₀ [] t)) fun _ _ => False := by
  refine .forM (I := fun l t => SameNodes c₀ t ∧ (K → Held c₀ (placedOf l) t))
    (fun x l => .onlyIf (fun hx => ?_) fun hx t ht => ?_) l
  · intro t ht
    refine Triple.bind (released_releaseResources x.1 x.2 t) (fun released => .check (fun _ u hu => ?_)
      fun hn u hu => hn hu.1) t rfl
    obtain ⟨-, hsame, htaken⟩ := hu
    refine ⟨trans_of SameNodes ht.1 hsame, fun hk => ?_⟩
    have hheld := ht.2 hk
    rw [placedOf, filter_cons_of_pos (by simpa using hx), map_cons] at hheld
    refine hheld.give (htaken fun r => ?_)
    have h₁ := hheld.available x.1 r
    have h₂ := hcap hk x.1 r
    rw [← singleton_append, load_append, Prod.swap, load_singleton, if_pos rfl] at h₁
    rw [hheld.total]
    omega
  · rwa [placedOf, filter_cons_of_neg (by simpa using hx)] at ht

def Within (c₀ : Cluster) (placed : List (Demand × NodeID)) : Prop :=
  ∀ n r, load placed n r ≤ c₀.available n r - c₀.normalTasks n r

lemma Within.take (hw : Within c₀ placed) (h : Held c₀ placed c) (hf : Fits c n d) :
    Within c₀ (placed ++ [(d, n)]) := by
  intro x r
  rw [load_append, load_singleton]
  have h₁ := h.available x r
  have h₂ := hw x r
  by_cases hx : x = n
  · subst hx
    have h₃ := (hf r).1
    rw [h.normalTasks] at h₃
    rw [if_pos rfl]
    omega
  · rw [if_neg hx]
    omega

end AmazonRay.Gcs
