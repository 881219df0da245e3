import AmazonRay.Gcs.Loads

/-! The searches of the scheduler: the nodes that they return and the demands that fit on
them. -/
namespace AmazonRay.Gcs
open Program List

variable {o : IterationOrder} {c c₀ t : Cluster} {n : NodeID} {d : Demand}

section

variable {demands : List Demand}

lemma load_eq_zero {placed : List (Demand × NodeID)} (h : ∀ x ∈ placed, x.2 ≠ n) (r : String) :
    load placed n r = 0 := by
  rw [load, filter_eq_nil_iff.mpr fun x hx => by simpa using h x hx]
  rfl

lemma within_of_nodup {nodes : List NodeID} (hnodup : nodes.Nodup)
    (hfits : ∀ x ∈ demands.zip nodes, Fits c x.2 x.1) : Within c (demands.zip nodes) := by
  induction demands generalizing nodes with
  | nil => exact fun x r => Nat.zero_le _
  | cons d demands ih =>
    cases nodes with
    | nil => exact fun x r => Nat.zero_le _
    | cons n nodes =>
      obtain ⟨hn, hnodup⟩ := nodup_cons.mp hnodup
      have hrest := ih hnodup fun x hx => hfits x (mem_cons_of_mem _ hx)
      intro x r
      rw [zip_cons_cons, ← singleton_append, load_append, load_singleton]
      by_cases hx : x = n
      · subst hx
        have hother : ∀ y ∈ demands.zip nodes, y.2 ≠ x := fun y hy => ne_of_mem_of_not_mem (of_mem_zip hy).2 hn
        rw [if_pos rfl, load_eq_zero hother, Nat.add_zero]
        exact (hfits (d, x) mem_cons_self r).1
      · rw [if_neg hx, Nat.zero_add]
        exact hrest x r

lemma triple_strictSpreadLoop (demands : List Demand) (candidateNodes resultNodes : List NodeID)
    (hknown : ∀ n ∈ candidateNodes, (c.lookup n).isSome) (hnodup : candidateNodes.Nodup) :
    Completes c (strictSpreadLoop o demands candidateNodes resultNodes)
      fun result t => t = c ∧ ∃ more, result = resultNodes ++ more ∧ more.Nodup ∧ more ⊆ candidateNodes ∧
        ∀ x ∈ demands.zip more, Fits c x.2 x.1 := by
  have hstop : ∀ t, t = c → t = c ∧ ∃ more, resultNodes = resultNodes ++ more ∧ more.Nodup ∧
      more ⊆ candidateNodes ∧ ∀ x ∈ demands.zip more, Fits c x.2 x.1 := fun t ht =>
    ⟨ht, [], (append_nil _).symm, nodup_nil, nil_subset _, by simp⟩
  induction demands generalizing candidateNodes resultNodes with
  | nil => exact .pure hstop
  | cons d demands ih =>
    refine .bind (fits_getBestNode (o.perm _ _) hknown) fun best => .given fun hbest => ?_
    cases best with
    | none => exact .pure hstop
    | some n =>
      obtain ⟨hn, hfits⟩ := hbest n rfl
      refine (ih (candidateNodes.erase n) (resultNodes ++ [n])
        (fun x hx => hknown x (mem_of_mem_erase hx)) (hnodup.erase n) fun t ht => ?_).post ?_
      · exact ⟨ht, [], (append_nil _).symm, nodup_nil, nil_subset _, by simp⟩
      · rintro result t ⟨ht, more, rfl, hmore, hsub, hall⟩
        refine ⟨ht, n :: more, append_assoc _ _ _, nodup_cons.mpr ⟨fun hmem => ?_, hmore⟩, ?_, ?_⟩
        · exact (hnodup.mem_erase_iff.mp (hsub hmem)).1 rfl
        · exact cons_subset.mpr ⟨hn, fun x hx => mem_of_mem_erase (hsub hx)⟩
        · intro x hx
          rcases mem_cons.mp hx with rfl | hx
          · exact hfits
          · exact hall x hx

end

/-- The first demands, each on a known node. -/
structure Spread (c₀ : Cluster) (known : List NodeID) (demands : List Demand) (nodes : List NodeID)
    (t : Cluster) : Prop where
  held : Held c₀ (demands.zip nodes) t
  within : Within c₀ (demands.zip nodes)
  length : nodes.length ≤ demands.length
  subset : nodes ⊆ known

lemma Spread.take {known : List NodeID} {rest : List Demand} {nodes : List NodeID}
    (h : Spread c₀ known (demands ++ d :: rest) nodes c) (hlength : nodes.length = demands.length)
    (hn : n ∈ known) (hfits : Fits c n d) (ht : Taken n d c t) :
    Spread c₀ known ((demands ++ [d]) ++ rest) (nodes ++ [n]) t := by
  have hzip : ∀ l : List Demand, (demands ++ l).zip nodes = demands.zip nodes := by
    intro l
    rw [← append_nil nodes, zip_append hlength.symm, append_nil, zip_nil_right, append_nil]
  have hzip' : ((demands ++ [d]) ++ rest).zip (nodes ++ [n]) = demands.zip nodes ++ [(d, n)] := by
    rw [append_assoc, zip_append hlength.symm]
    simp
  obtain ⟨hheld, hwithin, -, hsub⟩ := h
  rw [hzip] at hheld hwithin
  refine ⟨hzip'.symm ▸ hheld.take ht, hzip'.symm ▸ hwithin.take hheld hfits, ?_, ?_⟩
  · simp only [length_append, hlength, length_singleton]
    omega
  · exact append_subset.mpr ⟨hsub, cons_subset.mpr ⟨hn, nil_subset _⟩⟩

/-- A node that the scorer chose has the labels of the demand. -/
lemma taken_acquireBest {E : ResourceCheck → Cluster → Prop} (hn : (c.lookup n).isSome) (hfits : Fits c n d) :
    Triple (· = c) (acquireResources n d) (fun acquired t => Taken n d c t ∧ acquired = true) E := by
  have hlabels : ∀ r ∈ d.labels, c.available n r ≠ 0 := fun r hr hzero => (hfits r).2 hr (by omega)
  refine (taken_acquireResources (K := True) hn fun _ _ => hlabels).conseq (fun _ ht => ht) (fun acquired t ht => ?_)
    fun _ _ hnot => (hnot trivial).elim
  rcases ht with ⟨hacq, ht⟩ | ⟨-, ⟨r, hr⟩, -⟩
  · exact ⟨ht, hacq⟩
  · have hle := (hfits r).1
    omega

lemma triple_spreadLoop {known : List NodeID} (rest : List Demand) (demands : List Demand)
    (s : SpreadState) (hknown : ∀ n ∈ known, (c₀.lookup n).isSome) (hlength : s.resultNodes.length = demands.length)
    (hcandidates : s.candidateNodes ⊆ known) (hselected : s.selectedNodes ⊆ known)
    (h : Spread c₀ known (demands ++ rest) s.resultNodes c) :
    Completes c (spreadLoop o rest s) fun result t => Spread c₀ known (demands ++ rest) result t := by
  induction rest generalizing demands s c with
  | nil =>
    exact .done h
  | cons d rest ih =>
    have hsome : ∀ n ∈ known, (c.lookup n).isSome := fun n hn => (h.held.isSome n).trans (hknown n hn)
    have hstep : ∀ s' : SpreadState, ∀ n ∈ known, Fits c n d → s'.candidateNodes ⊆ known → s'.selectedNodes ⊆ known →
        s'.resultNodes = s.resultNodes ++ [n] →
        Completes c (do
          check .acquireResources ((← acquireResources n d) = true)
          spreadLoop o rest s') fun result t => Spread c₀ known (demands ++ d :: rest) result t := by
      intro s' n hn hfits hcand hsel hresult
      refine .bind (taken_acquireBest (hsome n hn) hfits) fun acquired => .given fun hacq =>
        .bind (.passed hacq) fun _ t ht => ?_
      have hnext := h.take hlength hn hfits ht
      rw [← hresult] at hnext
      have hloop := ih (demands ++ [d]) s' (by simp [hresult, hlength]) hcand hsel hnext t rfl
      rwa [append_assoc] at hloop
    refine .bind (fits_getBestNode (o.perm _ _) fun n hn => hsome n (hcandidates hn)) fun best => .given fun hbest => ?_
    cases best with
    | some n =>
      obtain ⟨hn, hfits⟩ := hbest n rfl
      refine hstep _ n (hcandidates hn) hfits (fun x hx => hcandidates (mem_of_mem_erase hx)) ?_ rfl
      exact append_subset.mpr ⟨hselected, cons_subset.mpr ⟨hcandidates hn, nil_subset _⟩⟩
    | none =>
      refine .bind (fits_getBestNode (o.perm _ _) fun n hn => hsome n (hselected hn)) fun best => .given fun hbest => ?_
      cases best with
      | some n =>
        obtain ⟨hn, hfits⟩ := hbest n rfl
        exact hstep _ n (hselected hn) hfits hcandidates hselected rfl
      | none =>
        exact .done h

end AmazonRay.Gcs
