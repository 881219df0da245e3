import AmazonRay.Ids
import AmazonRay.Lib.Table

/-! Resource instances in the `ClusterResourceScheduler`: how demands are allocated on them, and freed. -/
namespace AmazonRay.PlacementGroupResources
open List Table Option Int

/-- The names of `FormatPlacementGroupResource`, and those of the node's resources. -/
inductive ResourceName where
  | original (name : String)
  | wildcard (name : String) (group : PlacementGroupID)
  | indexed (name : String) (group : PlacementGroupID) (index : Nat)
  deriving DecidableEq, Repr

def ResourceName.getOriginal : ResourceName → String
  | .original name | .wildcard name _ | .indexed name _ _ => name

/-- The resources of `PredefinedResources`, whose instances are listed even if there are none. -/
def predefinedLabels : List String := ["CPU", "memory", "GPU", "object_store_memory"]

def ResourceName.isPredefined : ResourceName → Bool
  | .original name => name ∈ predefinedLabels
  | _ => false

/-- Amounts are in units of 1/10000. -/
def one : ℤ := 10000

structure ResourceInstanceCapacities where
  total : List ℤ := []
  available : List ℤ := []
  deriving DecidableEq, Repr

abbrev NodeResourceInstances := AList fun _ : ResourceName => ResourceInstanceCapacities

abbrev TaskResourceInstances := AList fun _ : ResourceName => List ℤ

abbrev ResourceRequest := AList fun _ : ResourceName => ℤ

/-- Full instances are taken while the demand is at least one. Returns what remains of it, what is available then and
what was taken. -/
def takeUnits : ℤ → List ℤ → ℤ × List ℤ × List ℤ
  | remaining, [] => (remaining, [], [])
  | remaining, a :: available =>
    if remaining < one then (remaining, a :: available, 0 :: available.map fun _ => 0)
    else if a = one then
      let (left, available, allocation) := takeUnits (remaining - one) available
      (left, 0 :: available, one :: allocation)
    else
      let (left, available, allocation) := takeUnits remaining available
      (left, a :: available, 0 :: allocation)

def bestFit (remaining : ℤ) : List ℤ → Nat → Option (Nat × ℤ) → Option (Nat × ℤ)
  | [], _, best => best
  | a :: available, i, best =>
    bestFit remaining available (i + 1)
      (if remaining ≤ a ∧ best.all (a - remaining < ·.2) then some (i, a - remaining) else best)

/-- Returns whether the demand was met, what is available then and what was allocated. -/
def allocateResourceInstances (demand : ℤ) (available : List ℤ) : Bool × List ℤ × List ℤ :=
  match available with
  | [a] => if demand ≤ a then (true, [a - demand], [demand]) else (false, [a], [0])
  | available =>
    let (remaining, available, allocation) := takeUnits demand available
    if one ≤ remaining then (false, available, allocation)
    else if 0 < remaining then
      match bestFit remaining available 0 none with
      | none => (false, available, allocation)
      | some (i, _) => (true, available.set i (available.getD i 0 - remaining), allocation.set i remaining)
    else (true, available, allocation)

/-- `AddAvailableResourceInstances`: no instance gets more than its total. -/
def ResourceInstanceCapacities.addAvailable (c : ResourceInstanceCapacities) (instances : List ℤ) :
    ResourceInstanceCapacities :=
  { c with available := (List.range (max c.available.length instances.length)).map fun i =>
    if i < instances.length then min (c.available.getD i 0 + instances.getD i 0) (c.total.getD i 0)
    else c.available.getD i 0 }

def addInstances (l instances : List ℤ) : List ℤ :=
  (List.range (max l.length instances.length)).map fun i => l.getD i 0 + instances.getD i 0

def freeInstances (l : NodeResourceInstances) (e : Σ _ : ResourceName, List ℤ) : NodeResourceInstances :=
  match l.lookup e.1 with
  | none => l
  | some c => l.insert e.1 (c.addAvailable e.2)

def freeTaskResourceInstances (l : NodeResourceInstances) (allocation : TaskResourceInstances) :
    NodeResourceInstances := allocation.entries.foldl freeInstances l

/-- Goes on until a demand is not met, or the node lacks the resource, unless it is a predefined one of which nothing is
demanded. -/
def allocateEach : List (Σ _ : ResourceName, ℤ) → NodeResourceInstances → TaskResourceInstances →
    Bool × NodeResourceInstances × TaskResourceInstances
  | [], l, allocation => (true, l, allocation)
  | ⟨name, demand⟩ :: rest, l, allocation =>
    match l.lookup name with
    | none => if name.isPredefined ∧ demand ≤ 0 then allocateEach rest l allocation else (false, l, allocation)
    | some c =>
      if 0 < demand then
        let (success, available, instances) := allocateResourceInstances demand c.available
        let l := l.insert name { c with available }
        let allocation := allocation.insert name instances
        if success then allocateEach rest l allocation else (false, l, allocation)
      else allocateEach rest l allocation

/-- `AllocateTaskResourceInstances`: if a demand is not met, what was allocated is freed. -/
def allocateTaskResourceInstances (request : ResourceRequest) (l : NodeResourceInstances) :
    Option TaskResourceInstances × NodeResourceInstances :=
  let (success, l, allocation) := allocateEach request.entries l ∅
  if success then (some allocation, l) else (none, freeTaskResourceInstances l allocation)

def addLocalResourceInstances (l : NodeResourceInstances) (name : ResourceName) (instances : List ℤ) :
    NodeResourceInstances :=
  let c := (l.lookup name).getD {}
  l.insert name { total := addInstances c.total instances, available := addInstances c.available instances }

def isAvailableResourceEmpty (l : NodeResourceInstances) (name : ResourceName) : Bool :=
  (l.lookup name).all fun c => c.available.sum ≤ 0

def isEmptyAllocation (allocation : TaskResourceInstances) : Bool :=
  allocation.entries.all fun e => e.2.all (· = 0)

section

variable {l l' : NodeResourceInstances} {a : TaskResourceInstances} {name : ResourceName} {i : Nat} (remaining : ℤ) (before : List ℤ)

def availableAt (l : NodeResourceInstances) (name : ResourceName) (i : Nat) : ℤ :=
  (l.lookup name).elim 0 fun c => c.available.getD i 0

def totalAt (l : NodeResourceInstances) (name : ResourceName) (i : Nat) : ℤ :=
  (l.lookup name).elim 0 fun c => c.total.getD i 0

def amountAt (a : TaskResourceInstances) (name : ResourceName) (i : Nat) : ℤ :=
  (a.lookup name).elim 0 fun instances => instances.getD i 0

lemma getD_addAvailable {c : ResourceInstanceCapacities} {instances : List ℤ}
    (h : c.available.getD i 0 + instances.getD i 0 ≤ c.total.getD i 0) :
    (c.addAvailable instances).available.getD i 0 = c.available.getD i 0 + instances.getD i 0 := by
  unfold ResourceInstanceCapacities.addAvailable
  by_cases hi : i < max c.available.length instances.length
  · rw [getD_eq_getElem _ _ (by simpa using hi), getElem_map, getElem_range]
    by_cases hlt : i < instances.length
    · rw [if_pos hlt, min_eq_left h]
    · rw [if_neg hlt, getD_eq_default instances _ (by omega), add_zero]
  · rw [getD_eq_default _ _ (by simpa using hi), getD_eq_default _ _ (by omega),
      getD_eq_default _ _ (by omega), add_zero]

/-- What is available was split, and no instance got less than nothing. -/
structure Split (before after taken : List ℤ) : Prop where
  sum : ∀ i, after.getD i 0 + taken.getD i 0 = before.getD i 0
  taken : ∀ i, 0 ≤ taken.getD i 0
  after : ∀ i, 0 ≤ before.getD i 0 → 0 ≤ after.getD i 0

lemma Split.refl : Split before before (before.map fun _ => 0) := by
  have hzero i : (before.map fun _ => (0 : ℤ)).getD i 0 = 0 := by
    by_cases hi : i < before.length
    · rw [getD_eq_getElem _ _ (by simpa using hi), getElem_map]
    · rw [getD_eq_default _ _ (by simpa using hi)]
  exact ⟨fun i => by rw [hzero, add_zero], fun i => (hzero i).ge, fun i h => h⟩

lemma Split.cons {before after taken : List ℤ} {b a x : ℤ} (h : Split before after taken) (hsum : a + x = b)
    (hx : 0 ≤ x) (ha : 0 ≤ b → 0 ≤ a) : Split (b :: before) (a :: after) (x :: taken) := by
  refine ⟨fun i => ?_, fun i => ?_, fun i => ?_⟩ <;> cases i with
  | zero => assumption
  | succ i => first | exact h.sum i | exact h.taken i | exact h.after i

lemma split_takeUnits : Split before (takeUnits remaining before).2.1 (takeUnits remaining before).2.2 := by
  induction before generalizing remaining with
  | nil => exact Split.refl []
  | cons b before ih =>
    unfold takeUnits
    by_cases hlt : remaining < one
    · rw [if_pos hlt]
      exact (Split.refl before).cons (add_zero b) (le_refl 0) id
    · rw [if_neg hlt]
      by_cases hb : b = one
      · rw [if_pos hb]
        exact (ih _).cons (by rw [hb, zero_add]) (by decide) fun _ => le_refl 0
      · rw [if_neg hb]
        exact (ih _).cons (add_zero b) (le_refl 0) id

lemma length_takeUnits :
    (takeUnits remaining before).2.1.length = before.length ∧ (takeUnits remaining before).2.2.length = before.length := by
  induction before generalizing remaining with
  | nil => exact ⟨rfl, rfl⟩
  | cons b before ih =>
    unfold takeUnits
    by_cases hlt : remaining < one
    · simp [hlt]
    · by_cases hb : b = one <;> simp [hlt, hb, ih]

lemma takeUnits_taken (i : Nat) :
    (takeUnits remaining before).2.2.getD i 0 = 0 ∨ (takeUnits remaining before).2.1.getD i 0 = 0 := by
  induction before generalizing remaining i with
  | nil => exact .inl rfl
  | cons b before ih =>
    unfold takeUnits
    by_cases hlt : remaining < one
    · rw [if_pos hlt]
      have hsplit := (Split.refl (b :: before)).sum i
      exact .inl (by simpa using hsplit)
    · rw [if_neg hlt]
      by_cases hb : b = one
      · rw [if_pos hb]
        cases i with
        | zero => exact .inr rfl
        | succ i => exact ih _ i
      · rw [if_neg hb]
        cases i with
        | zero => exact .inl rfl
        | succ i => exact ih _ i

lemma bestFit_eq_some {remaining : ℤ} {l : List ℤ} {best : Option (Nat × ℤ)} {fit : Nat × ℤ}
    (h : bestFit remaining l i best = some fit) :
    best = some fit ∨ ∃ j, fit.1 = i + j ∧ j < l.length ∧ remaining ≤ l.getD j 0 := by
  induction l generalizing i best with
  | nil => exact .inl h
  | cons a l ih =>
    rcases ih h with hbest | ⟨j, hj, hlt, hle⟩
    · split at hbest
      case isTrue hfit =>
        cases hbest
        exact .inr ⟨0, rfl, Nat.succ_pos _, hfit.1⟩
      · exact .inl hbest
    · exact .inr ⟨j + 1, by omega, Nat.succ_lt_succ hlt, hle⟩

lemma getD_set (l : List ℤ) (hi : i < l.length) (x : ℤ) (j : Nat) :
    (l.set i x).getD j 0 = if j = i then x else l.getD j 0 := by
  rw [getD_eq_getElem?_getD, getD_eq_getElem?_getD]
  by_cases hj : j = i
  · rw [if_pos hj, hj, getElem?_set_self hi]
    rfl
  · rw [if_neg hj, getElem?_set_ne (Ne.symm hj)]

lemma split_allocateResourceInstances {demand : ℤ} (hdemand : 0 < demand) (before : List ℤ) :
    Split before (allocateResourceInstances demand before).2.1 (allocateResourceInstances demand before).2.2 := by
  unfold allocateResourceInstances
  split
  case h_1 a =>
    by_cases h : demand ≤ a
    · rw [if_pos h]
      exact (Split.refl []).cons (by omega) hdemand.le fun _ => by omega
    · rw [if_neg h]
      exact Split.refl [a]
  · have hsplit := split_takeUnits demand before
    have hlength := length_takeUnits demand before
    have htaken := takeUnits_taken demand before
    generalize takeUnits demand before = taken at hsplit hlength htaken
    obtain ⟨remaining, after, allocation⟩ := taken
    dsimp only at hsplit hlength htaken ⊢
    by_cases hone : one ≤ remaining
    · rw [if_pos hone]
      exact hsplit
    · rw [if_neg hone]
      by_cases hpos : 0 < remaining
      · rw [if_pos hpos]
        cases hfit : bestFit remaining after 0 none with
        | none => exact hsplit
        | some fit =>
          obtain hnone | ⟨j, hj, hlt, hle⟩ := bestFit_eq_some hfit
          · cases hnone
          · rw [Nat.zero_add] at hj
            subst hj
            have hsum := hsplit.sum fit.1
            have hzero : allocation.getD fit.1 0 = 0 := (htaken fit.1).resolve_right fun h => by omega
            refine ⟨fun i => ?_, fun i => ?_, fun i hi => ?_⟩
            · rw [getD_set after hlt, getD_set allocation (by omega)]
              by_cases hi : i = fit.1
              · rw [if_pos hi, if_pos hi, hi]
                omega
              · rw [if_neg hi, if_neg hi]
                exact hsplit.sum i
            · rw [getD_set allocation (by omega)]
              by_cases hi : i = fit.1
              · rw [if_pos hi]
                exact hpos.le
              · rw [if_neg hi]
                exact hsplit.taken i
            · rw [getD_set after hlt]
              by_cases hif : i = fit.1
              · rw [if_pos hif]
                omega
              · rw [if_neg hif]
                exact hsplit.after i hi
      · rw [if_neg hpos]
        exact hsplit

end

section

variable {l l' l'' : NodeResourceInstances} {a : TaskResourceInstances} {name : ResourceName} {e : Σ _ : ResourceName, List ℤ} (entries : List (Σ _ : ResourceName, List ℤ)) (request : List (Σ _ : ResourceName, ℤ))

/-- The allocation was taken from what was available. -/
structure Draws (l l' : NodeResourceInstances) (a : TaskResourceInstances) : Prop where
  total : totalAt l' = totalAt l
  available : ∀ name i, availableAt l' name i + amountAt a name i = availableAt l name i
  taken : ∀ name i, 0 ≤ amountAt a name i
  nonneg : ∀ name i, 0 ≤ availableAt l name i → 0 ≤ availableAt l' name i

lemma Draws.start (l : NodeResourceInstances) : Draws l l ∅ :=
  ⟨rfl, fun _ _ => add_zero _, fun _ _ => le_refl 0, fun _ _ h => h⟩

lemma Draws.step {c : ResourceInstanceCapacities} {after taken : List ℤ} (h : Draws l l' a)
    (hname : a.lookup name = none) (hc : l'.lookup name = some c) (hsplit : Split c.available after taken) :
    Draws l (l'.insert name { c with available := after }) (a.insert name taken) := by
  have hcurrent i : availableAt l' name i = c.available.getD i 0 := by
    rw [availableAt, hc]
    rfl
  have hamount i : amountAt a name i = 0 := by
    rw [amountAt, hname]
    rfl
  refine ⟨?_, fun x i => ?_, fun x i => ?_, fun x i hx => ?_⟩
  · rw [← h.total]
    funext x i
    rw [totalAt, lookup_insert, totalAt]
    by_cases hx : x = name
    · rw [if_pos hx, hx, hc]
      rfl
    · rw [if_neg hx]
  · rw [availableAt, amountAt, lookup_insert, lookup_insert]
    by_cases hx : x = name
    · subst hx
      rw [if_pos rfl, if_pos rfl, ← h.available, hamount, add_zero, hcurrent]
      exact hsplit.sum i
    · rw [if_neg hx, if_neg hx]
      exact h.available x i
  · rw [amountAt, lookup_insert]
    by_cases hx : x = name
    · rw [if_pos hx]
      exact hsplit.taken i
    · rw [if_neg hx]
      exact h.taken x i
  · rw [availableAt, lookup_insert]
    have hle := h.nonneg x i hx
    by_cases hxn : x = name
    · subst hxn
      rw [if_pos rfl]
      exact hsplit.after i (hcurrent i ▸ hle)
    · rw [if_neg hxn]
      exact hle

lemma draws_allocateEach (hkeys : request.NodupKeys) (h : Draws l l' a) (hnone : ∀ e ∈ request, a.lookup e.1 = none) :
    Draws l (allocateEach request l' a).2.1 (allocateEach request l' a).2.2 := by
  induction request generalizing l' a with
  | nil => exact h
  | cons e request ih =>
    obtain ⟨name, demand⟩ := e
    obtain ⟨hname, hkeys⟩ := nodupKeys_cons.mp hkeys
    unfold allocateEach
    cases hc : l'.lookup name with
    | none =>
      dsimp only
      split
      · exact ih hkeys h fun e he => hnone e (mem_cons_of_mem _ he)
      · exact h
    | some c =>
      by_cases hpos : 0 < demand
      · have hstep := h.step (hnone _ mem_cons_self) hc (split_allocateResourceInstances hpos c.available)
        dsimp only
        rw [if_pos hpos]
        generalize allocateResourceInstances demand c.available = r at hstep ⊢
        obtain ⟨success, after, instances⟩ := r
        cases success with
        | false => exact hstep
        | true =>
          refine ih hkeys hstep fun e he => ?_
          rw [lookup_insert, if_neg (ne_of_mem_of_not_mem (mem_keys_of_mem he) hname)]
          exact hnone e (mem_cons_of_mem _ he)
      · dsimp only
        rw [if_neg hpos]
        exact ih hkeys h fun e he => hnone e (mem_cons_of_mem _ he)

lemma totalAt_freeInstances (l : NodeResourceInstances) (e : Σ _ : ResourceName, List ℤ) :
    totalAt (freeInstances l e) = totalAt l := by
  unfold freeInstances
  cases hc : l.lookup e.1 with
  | none => rfl
  | some =>
    funext x i
    rw [totalAt, lookup_insert, totalAt]
    by_cases hx : x = e.1
    · rw [if_pos hx, hx, hc]
      rfl
    · rw [if_neg hx]

lemma availableAt_freeInstances_of_ne (h : name ≠ e.1) : availableAt (freeInstances l e) name = availableAt l name := by
  unfold freeInstances
  cases hc : l.lookup e.1 with
  | none => rfl
  | some =>
    funext i
    rw [availableAt, lookup_insert, if_neg h, availableAt]

lemma lookup_allocateEach
    (hname : name ∉ request.keys) : (allocateEach request l a).2.2.lookup name = a.lookup name := by
  induction request generalizing l a with
  | nil => rfl
  | cons e request ih =>
    obtain ⟨x, demand⟩ := e
    obtain ⟨hx, hname⟩ := not_or.mp (mem_cons.not.mp hname)
    unfold allocateEach
    cases l.lookup x with
    | none =>
      dsimp only
      split
      · exact ih hname
      · rfl
    | some c =>
      dsimp only
      by_cases hpos : 0 < demand
      · rw [if_pos hpos]
        generalize allocateResourceInstances demand c.available = r
        obtain ⟨success, after, instances⟩ := r
        have hinsert : (a.insert x instances).lookup name = a.lookup name := by
          rw [lookup_insert, if_neg hx]
        cases success with
        | false => exact hinsert
        | true => exact (ih hname).trans hinsert
      · rw [if_neg hpos]
        exact ih hname

lemma availableAt_freeInstances {i : Nat}
    (hle : availableAt l e.1 i + e.2.getD i 0 ≤ totalAt l e.1 i) (hnonneg : 0 ≤ e.2.getD i 0) :
    availableAt (freeInstances l e) e.1 i = availableAt l e.1 i + e.2.getD i 0 := by
  unfold freeInstances
  cases hc : l.lookup e.1 with
  | none =>
    rw [availableAt, totalAt, hc, elim_none, elim_none] at hle
    rw [availableAt, hc, elim_none]
    omega
  | some =>
    rw [availableAt, totalAt, hc] at hle
    rw [availableAt, lookup_insert, if_pos rfl, availableAt, hc]
    exact getD_addAvailable hle

lemma totalAt_foldl_freeInstances (l : NodeResourceInstances) :
    totalAt (entries.foldl freeInstances l) = totalAt l := by
  induction entries generalizing l with
  | nil => rfl
  | cons e entries ih => exact (ih _).trans (totalAt_freeInstances l e)

lemma availableAt_foldl_freeInstances (hkeys : entries.NodupKeys) {i : Nat}
    (hle : availableAt l name i + (entries.dlookup name).elim 0 (·.getD i 0) ≤ totalAt l name i)
    (hnonneg : 0 ≤ (entries.dlookup name).elim 0 (·.getD i 0)) :
    availableAt (entries.foldl freeInstances l) name i =
      availableAt l name i + (entries.dlookup name).elim 0 (·.getD i 0) := by
  induction entries generalizing l with
  | nil => exact (add_zero _).symm
  | cons e entries ih =>
    obtain ⟨hname, hkeys⟩ := nodupKeys_cons.mp hkeys
    rw [foldl_cons]
    by_cases hx : name = e.1
    · -- the resource is freed now, and not later
      subst hx
      have hlater : entries.dlookup e.1 = none := dlookup_eq_none.mpr hname
      rw [dlookup_cons_eq, elim_some] at hle hnonneg ⊢
      have hstep := availableAt_freeInstances hle hnonneg
      have hrest := ih hkeys (l := freeInstances l e)
      rw [hlater, elim_none, add_zero, totalAt_freeInstances, hstep] at hrest
      exact hrest hle (le_refl 0)
    · rw [dlookup_cons_ne _ _ hx] at hle hnonneg ⊢
      have hrest := ih hkeys (l := freeInstances l e)
      rw [availableAt_freeInstances_of_ne hx, totalAt_freeInstances] at hrest
      exact hrest hle hnonneg

lemma availableAt_free {i : Nat}
    (hle : availableAt l name i + amountAt a name i ≤ totalAt l name i) (hnonneg : 0 ≤ amountAt a name i) :
    availableAt (freeTaskResourceInstances l a) name i = availableAt l name i + amountAt a name i :=
  availableAt_foldl_freeInstances a.entries a.nodupKeys hle hnonneg

lemma totalAt_free (l : NodeResourceInstances) (a : TaskResourceInstances) :
    totalAt (freeTaskResourceInstances l a) = totalAt l := totalAt_foldl_freeInstances a.entries l

lemma allocateTaskResourceInstances_spec (request : ResourceRequest) (l : NodeResourceInstances) :
    (∃ a l', allocateTaskResourceInstances request l = (some a, l') ∧ Draws l l' a ∧
      ∀ name, name ∉ request.keys → a.lookup name = none) ∨
      ∃ l', allocateTaskResourceInstances request l = (none, l') ∧ totalAt l' = totalAt l ∧
        ∀ name i, availableAt l name i ≤ totalAt l name i → availableAt l' name i = availableAt l name i := by
  have hdraws := draws_allocateEach request.entries request.nodupKeys (Draws.start l) fun _ _ => rfl
  have hnone : ∀ name, name ∉ request.keys → (allocateEach request.entries l ∅).2.2.lookup name = none :=
    fun name hname => lookup_allocateEach request.entries hname
  unfold allocateTaskResourceInstances
  generalize allocateEach request.entries l ∅ = r at hdraws hnone
  obtain ⟨success, l', a⟩ := r
  cases success with
  | true => exact .inl ⟨a, l', rfl, hdraws, hnone⟩
  | false =>
    refine .inr ⟨_, rfl, (totalAt_free l' a).trans hdraws.total, fun name i hle => ?_⟩
    rw [availableAt_free _ (hdraws.taken name i)]
    · exact hdraws.available name i
    · rw [hdraws.total, hdraws.available]
      exact hle

end

section

variable {l : NodeResourceInstances} {a : TaskResourceInstances} {x : ResourceName} {l' : NodeResourceInstances} {request : ResourceRequest}

lemma lookup_freeInstances (l : NodeResourceInstances) (e : Σ _ : ResourceName, List ℤ) :
    (freeInstances l e).lookup e.1 = (l.lookup e.1).map (·.addAvailable e.2) := by
  unfold freeInstances
  cases hc : l.lookup e.1 with
  | none => exact hc
  | some => exact AList.lookup_insert l

lemma lookup_freeInstances_of_ne {e : Σ _ : ResourceName, List ℤ} (h : x ≠ e.1) :
    (freeInstances l e).lookup x = l.lookup x := by
  unfold freeInstances
  cases l.lookup e.1 with
  | none => rfl
  | some => exact AList.lookup_insert_ne h

lemma lookup_freeTaskResourceInstances (l : NodeResourceInstances) (a : TaskResourceInstances) (x : ResourceName) :
    (freeTaskResourceInstances l a).lookup x =
      (a.lookup x).elim (l.lookup x) fun instances => (l.lookup x).map (·.addAvailable instances) :=
  lookup_foldl (g := fun _ (instances : List ℤ) c => c.map fun c => ResourceInstanceCapacities.addAvailable c instances)
    (fun _ _ _ h => lookup_freeInstances_of_ne h) lookup_freeInstances a.entries a.nodupKeys l x

/-- One resource while a request is allocated: it is as before, or a part of it was taken. -/
inductive Drawn : Option ResourceInstanceCapacities → Option ResourceInstanceCapacities → Option (List ℤ) → Prop
  | kept (c : Option ResourceInstanceCapacities) : Drawn c c none
  | taken {c : ResourceInstanceCapacities} {after taken : List ℤ} (split : Split c.available after taken)
    (after_length : after.length = c.available.length) (taken_length : taken.length = c.available.length) :
    Drawn (some c) (some { c with available := after }) (some taken)

lemma length_allocateResourceInstances (demand : ℤ) (before : List ℤ) :
    (allocateResourceInstances demand before).2.1.length = before.length ∧
      (allocateResourceInstances demand before).2.2.length = before.length := by
  unfold allocateResourceInstances
  split
  · split <;> exact ⟨rfl, rfl⟩
  · have hlength := length_takeUnits demand before
    generalize takeUnits demand before = taken at hlength
    obtain ⟨remaining, after, allocation⟩ := taken
    dsimp only
    split
    · exact hlength
    · split
      · split
        · exact hlength
        · exact ⟨(length_set ..).trans hlength.1, (length_set ..).trans hlength.2⟩
      · exact hlength

lemma drawn_allocateEach (request : List (Σ _ : ResourceName, ℤ)) (hkeys : request.NodupKeys)
    {l l' : NodeResourceInstances} (h : ∀ x, Drawn (l.lookup x) (l'.lookup x) (a.lookup x))
    (hnone : ∀ e ∈ request, a.lookup e.1 = none) (x : ResourceName) :
    Drawn (l.lookup x) ((allocateEach request l' a).2.1.lookup x) ((allocateEach request l' a).2.2.lookup x) := by
  induction request generalizing l' a with
  | nil => exact h x
  | cons e request ih =>
    obtain ⟨name, demand⟩ := e
    obtain ⟨hname, hkeys⟩ := nodupKeys_cons.mp hkeys
    have hrest : ∀ e ∈ request, a.lookup e.1 = none := fun e he => hnone e (mem_cons_of_mem _ he)
    unfold allocateEach
    cases hc : l'.lookup name with
    | none =>
      dsimp only
      split
      · exact ih hkeys h hrest
      · exact h x
    | some c =>
      dsimp only
      by_cases hpos : 0 < demand
      · rw [if_pos hpos]
        have hsplit := split_allocateResourceInstances hpos c.available
        have hlength := length_allocateResourceInstances demand c.available
        generalize allocateResourceInstances demand c.available = r at hsplit hlength ⊢
        obtain ⟨success, after, instances⟩ := r
        have hbefore : l.lookup name = some c := by
          have hdrawn := h name
          rw [hnone _ mem_cons_self, hc] at hdrawn
          generalize hl : l.lookup name = before at hdrawn
          cases hdrawn with
          | kept => rfl
        have hstep : ∀ y, Drawn (l.lookup y) ((l'.insert name { c with available := after }).lookup y)
            ((a.insert name instances).lookup y) := by
          intro y
          rw [lookup_insert, lookup_insert]
          by_cases hy : y = name
          · rw [if_pos hy, if_pos hy, hy, hbefore]
            exact .taken hsplit hlength.1 hlength.2
          · rw [if_neg hy, if_neg hy]
            exact h y
        cases success with
        | false => exact hstep x
        | true =>
          refine ih hkeys hstep fun e he => ?_
          rw [lookup_insert, if_neg (ne_of_mem_of_not_mem (mem_keys_of_mem he) hname)]
          exact hrest e he
      · rw [if_neg hpos]
        exact ih hkeys h hrest

lemma addAvailable_split {c : ResourceInstanceCapacities} {after taken : List ℤ} (hsplit : Split c.available after taken)
    (hafter : after.length = c.available.length) (htaken : taken.length = c.available.length)
    (hle : ∀ i, c.available.getD i 0 ≤ c.total.getD i 0) :
    ResourceInstanceCapacities.addAvailable { c with available := after } taken = c := by
  obtain ⟨total, available⟩ := c
  unfold ResourceInstanceCapacities.addAvailable
  congr 1
  refine ext_getElem (by simp [hafter, htaken]) fun i hi hi' => ?_
  have hlt : i < taken.length := htaken ▸ hi'
  rw [getElem_map, getElem_range, if_pos hlt, hsplit.sum, min_eq_left (hle i)]
  exact getD_eq_getElem _ _ hi'

lemma lookup_allocate_of_notMem (request : ResourceRequest) (hx : x ∉ request.keys) :
    (allocateTaskResourceInstances request l).2.lookup x = l.lookup x := by
  have hdrawn := drawn_allocateEach request.entries request.nodupKeys (l := l) (a := ∅) (fun x => .kept _)
    (fun _ _ => rfl) x
  have hnone := lookup_allocateEach (l := l) (a := ∅) request.entries hx
  unfold allocateTaskResourceInstances
  generalize allocateEach request.entries l ∅ = r at hdrawn hnone
  obtain ⟨success, l', a⟩ := r
  have hkept : l'.lookup x = l.lookup x := by
    rw [show a.lookup x = none from hnone] at hdrawn
    generalize l.lookup x = before at hdrawn
    generalize l'.lookup x = now at hdrawn
    cases hdrawn with
    | kept => rfl
  cases success with
  | true => exact hkept
  | false =>
    apply (lookup_freeTaskResourceInstances l' a x).trans
    rw [show a.lookup x = none from hnone]
    exact hkept

section

variable (h : allocateTaskResourceInstances request l = (some a, l'))
include h

lemma allocateEach_of_some : allocateEach request.entries l ∅ = (true, l', a) := by
  unfold allocateTaskResourceInstances at h
  generalize allocateEach request.entries l ∅ = r at h ⊢
  obtain ⟨success, l'', a'⟩ := r
  cases success with
  | true =>
    cases h
    rfl
  | false => cases h

lemma drawn_allocate (x : ResourceName) : Drawn (l.lookup x) (l'.lookup x) (a.lookup x) := by
  have hdrawn := drawn_allocateEach request.entries request.nodupKeys (l := l) (a := ∅) (fun x => .kept _)
    (fun _ _ => rfl) x
  rwa [allocateEach_of_some h] at hdrawn

end

lemma lookup_allocate_failed (h : allocateTaskResourceInstances request l = (none, l'))
    (hle : x ∈ request.keys → ∀ i, availableAt l x i ≤ totalAt l x i) : l'.lookup x = l.lookup x := by
  by_cases hx : x ∈ request.keys
  · have hdrawn := drawn_allocateEach request.entries request.nodupKeys (l := l) (a := ∅) (fun x => .kept _)
      (fun _ _ => rfl) x
    unfold allocateTaskResourceInstances at h
    generalize allocateEach request.entries l ∅ = r at hdrawn h
    obtain ⟨success, l'', a⟩ := r
    cases success with
    | true => cases h
    | false =>
      cases h
      rw [lookup_freeTaskResourceInstances]
      have hbelow := hle hx
      unfold availableAt totalAt at hbelow
      generalize l.lookup x = before at hdrawn hbelow ⊢
      generalize l''.lookup x = now at hdrawn ⊢
      generalize a.lookup x = taken at hdrawn ⊢
      cases hdrawn with
      | kept => rfl
      | taken hsplit hafter htaken => exact congrArg some (addAvailable_split hsplit hafter htaken hbelow)
  · have hkept := lookup_allocate_of_notMem (l := l) request hx
    rwa [h] at hkept

lemma amountAt_of_isEmpty {a : TaskResourceInstances} (h : isEmptyAllocation a = true) (x : ResourceName) (i : Nat) :
    amountAt a x i = 0 := by
  unfold amountAt
  cases hx : a.lookup x with
  | none => rfl
  | some instances =>
    have hzero := all_eq_true.mp h ⟨x, instances⟩ (mem_entries_iff.mpr hx)
    rw [elim_some]
    by_cases hi : i < instances.length
    · rw [getD_eq_getElem _ _ hi]
      exact of_decide_eq_true (all_eq_true.mp hzero _ (getElem_mem hi))
    · exact getD_eq_default _ _ (Nat.le_of_not_lt hi)

end

lemma sum_takeUnits {remaining : ℤ} (h : 0 ≤ remaining) (before : List ℤ) : 0 ≤ (takeUnits remaining before).1 ∧
      (takeUnits remaining before).2.2.sum + (takeUnits remaining before).1 = remaining := by
  induction before generalizing remaining with
  | nil => exact ⟨h, zero_add _⟩
  | cons b before ih =>
    unfold takeUnits
    by_cases hlt : remaining < one
    · simpa [hlt] using h
    · by_cases hb : b = one
      · have hrest := ih (show 0 ≤ remaining - one by omega)
        rw [if_neg hlt, if_pos hb]
        generalize takeUnits (remaining - one) before = rest at hrest ⊢
        obtain ⟨left, available, allocation⟩ := rest
        simp only [sum_cons] at hrest ⊢
        omega
      · simpa [hlt, hb] using ih h

lemma sum_allocateResourceInstances {demand : ℤ} (hdemand : 0 < demand) (before : List ℤ)
    (h : (allocateResourceInstances demand before).1 = true) :
    (allocateResourceInstances demand before).2.2.sum = demand := by
  unfold allocateResourceInstances at h ⊢
  split at h
  case h_1 a =>
    split at h
    case isTrue hle => simp [hle]
    · cases h
  · obtain ⟨hleft, hsum⟩ := sum_takeUnits hdemand.le before
    have hlength := length_takeUnits demand before
    have htaken := takeUnits_taken demand before
    generalize takeUnits demand before = taken at *
    obtain ⟨remaining, after, allocation⟩ := taken
    dsimp only at *
    split at h
    · cases h
    case isFalse hone =>
      rw [if_neg hone]
      split at h
      case isTrue hpos =>
        rw [if_pos hpos]
        cases hfit : bestFit remaining after 0 none with
        | none => simp [hfit] at h
        | some fit =>
          obtain hnone | ⟨j, hj, hlt, hle⟩ := bestFit_eq_some hfit
          · cases hnone
          · have hi : fit.1 < allocation.length := by omega
            have hzero : allocation.getD fit.1 0 = 0 :=
              (htaken fit.1).resolve_right fun h => by rw [hj, Nat.zero_add] at h; omega
            rw [getD_eq_getElem _ _ hi] at hzero
            simp only [sum_set', hi, dif_pos, hzero]
            omega
      case isFalse hpos =>
        rw [if_neg hpos]
        show allocation.sum = demand
        omega

lemma sum_allocateEach (request : List (Σ _ : ResourceName, ℤ)) (hkeys : request.NodupKeys)
    {l : NodeResourceInstances} {a : TaskResourceInstances} (hnone : ∀ e ∈ request, a.lookup e.1 = none)
    (h : (allocateEach request l a).1 = true) {e : Σ _ : ResourceName, ℤ} (he : e ∈ request) (hnonneg : 0 ≤ e.2) :
    (((allocateEach request l a).2.2.lookup e.1).getD []).sum = e.2 := by
  induction request generalizing l a with
  | nil => cases he
  | cons x request ih =>
    obtain ⟨name, demand⟩ := x
    obtain ⟨hname, hkeys⟩ := nodupKeys_cons.mp hkeys
    have hrest : ∀ e ∈ request, a.lookup e.1 = none := fun e he => hnone e (mem_cons_of_mem _ he)
    have hzero : ¬0 < demand → e = ⟨name, demand⟩ → ∀ l', (((allocateEach request l' a).2.2.lookup e.1).getD []).sum = e.2 := by
      rintro hpos rfl l'
      rw [lookup_allocateEach request hname, hnone _ mem_cons_self]
      have hdemand : 0 ≤ demand := hnonneg
      show 0 = demand
      omega
    unfold allocateEach at h ⊢
    cases hc : l.lookup name with
    | none =>
      simp only [hc] at h ⊢
      split at h
      case isFalse => cases h
      case isTrue hskip =>
        rw [if_pos hskip]
        rcases mem_cons.mp he with rfl | he
        · exact hzero (by omega) rfl l
        · exact ih hkeys hrest h he
    | some c =>
      simp only [hc] at h ⊢
      by_cases hpos : 0 < demand
      · rw [if_pos hpos] at h ⊢
        have hsum := sum_allocateResourceInstances hpos c.available
        generalize allocateResourceInstances demand c.available = r at h hsum ⊢
        obtain ⟨success, after, instances⟩ := r
        cases success with
        | false => cases h
        | true =>
          rcases mem_cons.mp he with rfl | he
          · refine (congrArg (fun o => (getD o []).sum) (lookup_allocateEach request hname)).trans ?_
            rw [AList.lookup_insert]
            exact hsum rfl
          · refine ih hkeys (fun e he => ?_) h he
            rw [lookup_insert, if_neg (ne_of_mem_of_not_mem (mem_keys_of_mem he) hname)]
            exact hrest e he
      · rw [if_neg hpos] at h ⊢
        rcases mem_cons.mp he with rfl | he
        · exact hzero hpos rfl l
        · exact ih hkeys hrest h he

lemma Drawn.nonneg {before after : Option ResourceInstanceCapacities} {taken : Option (List ℤ)}
    (h : Drawn before after taken) : ∀ amount ∈ taken.getD [], 0 ≤ amount := by
  intro amount hamount
  cases h with
  | kept => cases hamount
  | taken hsplit _ _ =>
    obtain ⟨i, hi, rfl⟩ := mem_iff_getElem.mp hamount
    exact getD_eq_getElem _ 0 hi ▸ hsplit.taken i

end AmazonRay.PlacementGroupResources
