import AmazonRay.ReferenceCounter.Index
import AmazonRay.TaskManager.RetryState

/-! An eviction counts the bytes it releases as negative, so it stops only when the index is empty. -/
namespace AmazonRay.TaskManager
open Program ReferenceCounter Tasks TaskEntry Int

variable {cfg : WorkerConfig}

def footprint (s : Worker) : Int := s.lineage.totalLineageFootprintBytes

def popFronts (cfg : WorkerConfig) : Nat → WorkerM Unit
  | 0 => pure ()
  | n + 1 => do
    match (← get).reconstructableOwnedObjects with
    | [] => pure ()
    | id :: _ => do
      let _ ← evictFront cfg.counter id
      popFronts cfg n

/-- The eviction pops the objects it takes to release the bytes, or all, and returns the bytes released. -/
def EvictsExactly (cfg : WorkerConfig) (minBytesToEvict : Int) (s : Worker) : Prop :=
  ∃ n bytes t, evictLineage cfg.counter minBytesToEvict s = .ok bytes t ∧
    popFronts cfg n s = .ok () t ∧
    (∀ m < n, ∀ u, popFronts cfg m s = .ok () u → footprint s - footprint u < minBytesToEvict) ∧
    (minBytesToEvict ≤ footprint s - footprint t ∨ t.reconstructableOwnedObjects = []) ∧
    bytes = footprint s - footprint t

def Tasks.Evictable (t : Tasks) (index : List ObjectID) (id : TaskID) : Prop :=
  ∃ e, t.submissibleTasks.lookup id = some e ∧ e.pending = false ∧
    e.reconstructableReturnIds ⊆ index

section

variable {t : Tasks} {x : ObjectID}

def Tasks.Forgets (t : Tasks) (x : ObjectID) : Prop :=
  ∃ e, t.submissibleTasks.lookup x.taskId = some e ∧ e.pending = false ∧
    ∀ y ∈ e.reconstructableReturnIds, y = x

def TaskEntry.without (x : ObjectID) (id : TaskID) (e : TaskEntry) : TaskEntry :=
  if id = x.taskId then
    { e with reconstructableReturnIds := e.reconstructableReturnIds.filter (· ≠ x) } else e

variable {strict : Bool} {rest : List ObjectID}

lemma Tasks.removeLineageReference_kept (h : ¬ t.Forgets x) :
    (t.removeLineageReference x).1 = 0 ∧ (t.removeLineageReference x).2.1 = [] ∧
    (t.removeLineageReference x).2.2.totalLineageFootprintBytes = t.totalLineageFootprintBytes ∧
    ∀ id, (t.removeLineageReference x).2.2.submissibleTasks.lookup id =
      (t.submissibleTasks.lookup id).map (without x id) := by
  unfold removeLineageReference
  cases he : t.submissibleTasks.lookup x.taskId with
  | none =>
    refine ⟨rfl, rfl, rfl, fun id => ?_⟩
    by_cases hid : id = x.taskId
    · rw [hid, he, Option.map_none]
    · have hw : without x id = fun e => e := funext fun e => if_neg hid
      rw [hw]
      exact Option.map_id'.symm
  | some e =>
    have hne : ¬ ((e.reconstructableReturnIds.filter (· ≠ x)) = [] ∧ e.pending = false) := by
      rintro ⟨hnil, hp⟩
      refine h ⟨e, he, hp, fun y hy => ?_⟩
      by_contra hyx
      have hmem : y ∈ e.reconstructableReturnIds.filter (· ≠ x) := List.mem_filter.mpr ⟨hy, decide_eq_true hyx⟩
      rw [hnil] at hmem
      cases hmem
    dsimp only
    rw [if_neg hne]
    refine ⟨rfl, rfl, rfl, fun id => ?_⟩
    rw [withEntry, Table.lookup_insert]
    by_cases hid : id = x.taskId
    · rw [if_pos hid, hid, he, Option.map_some, without, if_pos rfl]
    · have hw : without x id = fun e => e := funext fun e => if_neg hid
      rw [if_neg hid, hw]
      exact Option.map_id'.symm

lemma Tasks.Coherent.removeLineageReference_bytes (h : t.Coherent strict) (x : ObjectID) :
    (t.removeLineageReference x).2.2.totalLineageFootprintBytes =
      t.totalLineageFootprintBytes + (t.removeLineageReference x).1 ∧
    (t.removeLineageReference x).1 ≤ 0 := by
  unfold removeLineageReference
  cases he : t.submissibleTasks.lookup x.taskId with
  | none => exact ⟨(add_zero _).symm, le_refl 0⟩
  | some e =>
    dsimp only
    split
    case isTrue hr =>
      have hpos := (((h.entries _ e he).1).finished hr.2).2
      dsimp only
      constructor <;> omega
    · exact ⟨(add_zero _).symm, le_refl 0⟩

lemma Tasks.Coherent.removeLineageReference_forgets (h : t.Coherent strict)
    (hf : t.Forgets x) : (t.removeLineageReference x).2.2.totalLineageFootprintBytes <
      t.totalLineageFootprintBytes := by
  obtain ⟨e, he, hp, hall⟩ := hf
  have hnil : e.reconstructableReturnIds.filter (· ≠ x) = [] := by
    refine List.filter_eq_nil_iff.mpr fun y hy => ?_
    simpa using hall y hy
  have hpos := (((h.entries _ e he).1).finished hp).2
  unfold removeLineageReference
  rw [he]
  dsimp only
  rw [if_pos ⟨hnil, hp⟩]
  dsimp only
  omega

lemma Tasks.Evictable.kept {id : TaskID}
    (h : t.Evictable (x :: rest) id) (hc : t.Coherent strict) (hk : ¬ t.Forgets x) :
    (t.removeLineageReference x).2.2.Evictable rest id := by
  obtain ⟨e, he, hp, hsub⟩ := h
  refine ⟨e.without x id, ?_, ?_, ?_⟩
  · rw [(removeLineageReference_kept hk).2.2.2, he, Option.map_some]
  · unfold without
    split <;> exact hp
  intro y hy
  unfold without at hy
  by_cases hid : id = x.taskId
  · rw [if_pos hid] at hy
    obtain ⟨hy, hne⟩ := List.mem_filter.mp hy
    exact (List.mem_cons.mp (hsub hy)).resolve_left (of_decide_eq_true hne)
  · rw [if_neg hid] at hy
    refine (List.mem_cons.mp (hsub hy)).resolve_left fun hyx => hid ?_
    rw [← hc.returns id e he y hy, hyx]

lemma Tasks.not_forgets_of_not_evictable {index : List ObjectID}
    (h : ∀ id, ¬ t.Evictable index id) (hx : x ∈ index) : ¬ t.Forgets x := by
  rintro ⟨e, he, hp, hall⟩
  exact h _ ⟨e, he, hp, fun y hy => hall y hy ▸ hx⟩

lemma Tasks.not_evictable_kept (h : ∀ id, ¬ t.Evictable (x :: rest) id) (id : TaskID) :
    ¬ (t.removeLineageReference x).2.2.Evictable rest id := by
  have hk := not_forgets_of_not_evictable h List.mem_cons_self
  rintro ⟨e', he', hp, hsub⟩
  rw [(removeLineageReference_kept hk).2.2.2] at he'
  obtain ⟨e, he, rfl⟩ := Option.map_eq_some_iff.mp he'
  refine h id ⟨e, he, ?_, fun y hy => ?_⟩
  · unfold without at hp
    split at hp <;> exact hp
  by_cases hyx : y = x
  · exact hyx ▸ List.mem_cons_self
  refine List.mem_cons_of_mem _ (hsub ?_)
  unfold without
  split
  · exact List.mem_filter.mpr ⟨hy, decide_eq_true hyx⟩
  · exact hy

end

def Tasks.Foot (bytes : Int) (t : Tasks) : Prop :=
  t.Coherent false ∧ t.totalLineageFootprintBytes = bytes

lemma stable_footprint_le (bytes : Int) : Stable fun t => t.Coherent false ∧ t.totalLineageFootprintBytes ≤ bytes := by
  rintro x t ⟨hc, hle⟩
  obtain ⟨heq, hneg⟩ := hc.removeLineageReference_bytes x
  exact ⟨stable_coherent false x t hc, by omega⟩

def SameLineage (s t : Worker) : Prop := t.lineage = s.lineage

instance : IsPreorder Worker SameLineage where
  refl _ := rfl
  trans _ _ _ h₁ h₂ := h₂.trans h₁

lemma triple_foot_of_sameLineage {bytes : Int} {α : Type} {x : WorkerM α} (h : Steps SameLineage (fun _ => True) x) :
    Partly (fun s => s.lineage.Foot bytes) x fun _ s => s.lineage.Foot bytes :=
  h.triple fun s _ t hs hst => by rw [hst]; exact hs

lemma triple_foot_callOnLineageReleased (bytes : Int) (id : ObjectID) (owned : Bool) :
    Partly (fun s => s.lineage.Foot bytes) (callOnLineageReleased cfg.counter id owned)
      fun released s => s.lineage.Foot (bytes + released.1) ∧ released.1 ≤ 0 := by
  cases owned with
  | false => exact .pure fun s hs => ⟨(add_zero bytes).symm ▸ hs, le_refl 0⟩
  | true =>
    refine .bind (.get (Q := fun b s => s.lineage.Foot bytes ∧ b = s) fun s hs => ⟨hs, rfl⟩) fun b => ?_
    let released := b.lineage.removeLineageReference id
    let J : Worker → Prop := fun s => s.lineage.Foot (bytes + released.1) ∧ released.1 ≤ 0
    refine .seq (.update (Q := fun _ => J) ?_) ?_
    · rintro s ⟨hs, rfl⟩
      obtain ⟨heq, hneg⟩ := hs.1.removeLineageReference_bytes id
      exact ⟨⟨stable_coherent false id _ hs.1, hs.2 ▸ heq⟩, hneg⟩
    exact .bind (triple_update (fun s _ hs _ => hs) fun _ _ _ => trivial) fun _ => .skip

lemma steps_sameLineage_update (id : ObjectID) (f : Reference → Reference) :
    Steps SameLineage (fun _ => True) (update id f) := by
  refine fun s => triple_update ?_ fun _ _ _ => trivial
  rintro t _ rfl _
  rfl

lemma triple_foot_releaseArgument {release : ObjectID → WorkerM Int}
    (hr : ∀ bytes id, Partly (fun s => s.lineage.Foot bytes) (release id)
      (fun evicted s => s.lineage.Foot (bytes + evicted) ∧ evicted ≤ 0))
    (start bytes : Int) (id : ObjectID) :
    Partly (fun s => s.lineage.Foot (start + bytes) ∧ bytes ≤ 0) (releaseArgument cfg.counter release bytes id)
      fun total s => s.lineage.Foot (start + total) ∧ total ≤ 0 := by
  have hq : ∀ s t, Quiet cfg.counter.lineagePinningEnabled s t → SameLineage s t := fun _ _ h => h.lineage
  have h := clearingLogic_steps hq fun _ _ => trivial
  by_cases hneg : bytes ≤ 0
  case neg => exact fun s hs => absurd hs.2 hneg
  refine .pre ?_ fun _ hs => hs.1
  have done : Partly (fun s : Worker => s.lineage.Foot (start + bytes)) (pure bytes : WorkerM Int)
      fun total s => s.lineage.Foot (start + total) ∧ total ≤ 0 :=
    .pure fun _ hs => ⟨hs, hneg⟩
  refine .bind (triple_foot_of_sameLineage h.find) fun o => ?_
  cases o with
  | none => exact done
  | some arg =>
    refine .ite (fun _ => done) fun _ => ?_
    refine .seq (triple_foot_of_sameLineage (steps_sameLineage_update id _)) ?_
    refine .bind (triple_foot_of_sameLineage (h.deref rfl)) fun arg => .ite (fun _ => done) fun _ => ?_
    refine .seq (triple_foot_of_sameLineage (h.check rfl)) ?_
    refine .seq (triple_foot_of_sameLineage (h.record _)) ?_
    refine .seq (triple_foot_of_sameLineage (h.quiet fun _ => ⟨rfl, rfl, rfl, rfl⟩)) ?_
    refine .bind (hr _ id) fun evicted => ?_
    by_cases hev : evicted ≤ 0
    case neg => exact fun s hs => absurd hs.2 hev
    refine .pre ?_ fun _ hs => hs.1
    refine .seq (triple_foot_of_sameLineage (steps_eraseReference hq (fun _ _ => trivial) id)) ?_
    refine .seq (triple_foot_of_sameLineage (h.quiet fun _ => ⟨rfl, rfl, rfl, rfl⟩)) ?_
    refine .pure fun s hs => ⟨?_, by omega⟩
    rw [← add_assoc]
    exact hs

lemma triple_foot_releaseLineageReferences (depth : Nat) (bytes : Int) (id : ObjectID) :
    Partly (fun s => s.lineage.Foot bytes) (releaseLineageReferences cfg.counter depth id)
      fun evicted s => s.lineage.Foot (bytes + evicted) ∧ evicted ≤ 0 := by
  induction depth generalizing bytes id with
  | zero => exact .throw fun _ _ => trivial
  | succ depth ih =>
    refine .bind (triple_deref (fun _ _ hs _ => hs) fun _ _ _ => trivial) fun ref => ?_
    refine .bind (triple_foot_callOnLineageReleased bytes id ref.ownedByUs) fun released => ?_
    exact .foldlM (I := fun _ total (s : Worker) => s.lineage.Foot (bytes + total) ∧ total ≤ 0)
      (fun total arg _ => triple_foot_releaseArgument ih bytes total arg) _ _

section

variable {s : Worker} {id : ObjectID} {rest : List ObjectID}

lemma triple_evictFront (bytes : Int) (n : Nat) (id : ObjectID) :
    Partly (fun s => s.lineage.Foot bytes ∧ s.reconstructableOwnedObjects.length ≤ n + 1) (evictFront cfg.counter id)
      fun evicted s => (s.lineage.Foot (bytes + evicted) ∧ evicted ≤ 0) ∧ s.reconstructableOwnedObjects.length ≤ n := by
  let P : Worker → Prop := fun s => s.lineage.Foot bytes ∧ s.reconstructableOwnedObjects.length ≤ n
  refine .seq (.update (Q := fun _ => P) fun s hs => ⟨hs.1, ?_⟩) ?_
  · rw [List.length_tail]
    omega
  refine .bind (triple_find (Q := fun _ => P) fun _ hs => hs) fun o => ?_
  refine .seq (.check (Q := fun _ => P) (fun _ _ hs => hs) fun _ _ _ => trivial) ?_
  have hrel : Partly P (releaseLineageReferences cfg.counter cfg.stackDepth id)
      fun evicted s => s.lineage.Foot (bytes + evicted) ∧ evicted ≤ 0 :=
    (triple_foot_releaseLineageReferences cfg.stackDepth bytes id).pre fun _ hs => hs.1
  refine (hrel.frame (moves_shrinks_releaseLineageReferences cfg.counter _ id)).post fun _ t ht => ⟨ht.1, ?_⟩
  obtain ⟨_, s, hs, hst⟩ := ht
  exact Nat.le_trans hst.listed.length_le hs.2

lemma triple_evictFront_callback {Q : Int → Worker → Prop} {E : Check → Worker → Prop}
    (hdepth : 0 < cfg.stackDepth) (hi : s.Indexed [])
    (hs : s.reconstructableOwnedObjects = id :: rest)
    (hrest : ∀ depth, Triple (fun t => t.reconstructableOwnedObjects = rest ∧
        t.lineage = (s.lineage.removeLineageReference id).2.2)
      ((s.lineage.removeLineageReference id).2.1.foldlM
        (releaseArgument cfg.counter (releaseLineageReferences cfg.counter depth))
        (s.lineage.removeLineageReference id).1) Q E) :
    Triple (· = s) (evictFront cfg.counter id) Q E := by
  obtain ⟨r, hr, ho⟩ := hi id (.inl (hs ▸ List.mem_cons_self))
  let popped : Worker := { s with reconstructableOwnedObjects := rest }
  refine .seq (.update (Q := fun _ t => t = popped) ?_) ?_
  · rintro t rfl
    rw [hs, List.tail_cons]
  refine .bind (triple_find (Q := fun o t => o = some r ∧ t = popped) ?_) fun o => ?_
  · rintro t rfl
    exact ⟨hr, rfl⟩
  refine .seq (.check (Q := fun _ t => t = popped) (fun _ _ ht => ht.2) ?_) ?_
  · rintro hn t ⟨rfl, _⟩
    exact absurd (Option.some_ne_none r) hn
  obtain ⟨depth, hd⟩ : ∃ depth, cfg.counter.stackDepth = depth + 1 := Nat.exists_eq_succ_of_ne_zero hdepth.ne'
  rw [hd]
  refine .bind (triple_deref (Q := fun ref t => ref = r ∧ t = popped) ?_ ?_) fun ref => ?_
  · rintro t ref rfl hr'
    exact ⟨Option.some.inj (hr'.symm.trans hr), rfl⟩
  · rintro t rfl hn
    exact absurd (hr.symm.trans hn) (Option.some_ne_none r)
  rintro _ ⟨rfl, rfl⟩
  rw [ho]
  let released := s.lineage.removeLineageReference id
  refine Triple.bind (P := fun t => t = popped) (Q := fun out t => out = (released.1, released.2.1) ∧
    t.reconstructableOwnedObjects = rest ∧ t.lineage = released.2.2) ?_ (fun out => ?_) popped rfl
  · refine .bind (.get (Q := fun b t => b = popped ∧ t = popped) fun t ht => ⟨ht, ht⟩) fun b => ?_
    let Q : Worker → Prop := fun t => b = popped ∧ t.reconstructableOwnedObjects = rest ∧ t.lineage = released.2.2
    refine .seq (.update (Q := fun _ t => t.refs = s.refs ∧ Q t) ?_) ?_
    · rintro t ⟨rfl, rfl⟩
      exact ⟨rfl, rfl, rfl, rfl⟩
    refine .seq (triple_update (Q := fun _ => Q) (fun t _ ht _ => ht.2) ?_) ?_
    · rintro t ⟨hrefs, _⟩ hn
      rw [hrefs, hr] at hn
      cases hn
    · refine .pure ?_
      rintro t ⟨rfl, ht⟩
      exact ⟨rfl, ht⟩
  · rintro t ⟨rfl, ht⟩
    exact hrest depth t ht

lemma evictFront_kept (hdepth : 0 < cfg.stackDepth) (hi : s.Indexed [])
    (hs : s.reconstructableOwnedObjects = id :: rest) (hk : ¬ s.lineage.Forgets id) :
    ∃ t, evictFront cfg.counter id s = .ok 0 t ∧ t.reconstructableOwnedObjects = rest ∧
      t.lineage = (s.lineage.removeLineageReference id).2.2 := by
  obtain ⟨hbytes, hargs, _⟩ := removeLineageReference_kept hk
  have hrun : Completes s (evictFront cfg.counter id)
      fun evicted t => evicted = 0 ∧ t.reconstructableOwnedObjects = rest ∧
        t.lineage = (s.lineage.removeLineageReference id).2.2 := by
    refine triple_evictFront_callback hdepth hi hs fun depth => ?_
    rw [hbytes, hargs]
    exact .pure fun t ht => ⟨rfl, ht⟩
  obtain ⟨evicted, t, hx, rfl, ht⟩ := hrun.returns rfl
  exact ⟨t, hx, ht⟩

lemma triple_evictFront_forgets (hdepth : 0 < cfg.stackDepth) (hi : s.Indexed [])
    (hs : s.reconstructableOwnedObjects = id :: rest) (hc : s.lineage.Coherent false)
    (hf : s.lineage.Forgets id) :
    Yields s (evictFront cfg.counter id) fun _ t => footprint t < footprint s := by
  refine triple_evictFront_callback hdepth hi hs fun depth => ?_
  have h := releaseLogic_apart cfg.counter
  have hsteps := h.foldlM (h.releaseArgument (h.releaseLineageReferences depth))
    (s.lineage.removeLineageReference id).2.1 (s.lineage.removeLineageReference id).1
  have hlineage : Steps (LineageStep cfg.counter) (fun _ => True) _ :=
    hsteps.mono (fun _ _ h => h.lineage) fun _ _ => trivial
  have hle := stable_footprint_le (s.lineage.removeLineageReference id).2.2.totalLineageFootprintBytes
  refine (hle.triple hlineage).conseq (fun t ht => ?_) (fun _ t ht => ?_) fun _ _ _ => trivial
  · rw [ht.2]
    exact ⟨stable_coherent false id _ hc, le_rfl⟩
  · exact lt_of_le_of_lt ht.2 (hc.removeLineageReference_forgets hf)

end

section

lemma triple_evictLoop (minBytesToEvict start : Int) (turns : Nat) (bytes : Int) :
    Partly (fun s => (s.lineage.Foot (start + bytes) ∧ bytes ≤ 0) ∧ s.reconstructableOwnedObjects.length ≤ turns)
      (evictLoop cfg.counter minBytesToEvict turns bytes)
      fun total s => footprint s = start + total ∧ total ≤ 0 ∧
        (0 < minBytesToEvict → s.reconstructableOwnedObjects = []) := by
  induction turns generalizing bytes with
  | zero =>
    refine .pure fun s hs => ⟨hs.1.1.2, hs.1.2, fun _ => ?_⟩
    exact List.length_eq_zero_iff.mp (Nat.le_zero.mp hs.2)
  | succ turns ih =>
    refine .bind (.get (Q := fun b s => ((s.lineage.Foot (start + bytes) ∧ bytes ≤ 0) ∧
      s.reconstructableOwnedObjects.length ≤ turns + 1) ∧ b = s) fun s hs => ⟨hs, rfl⟩) fun b => ?_
    cases hb : b.reconstructableOwnedObjects with
    | nil =>
      refine .pure ?_
      rintro s ⟨hs, rfl⟩
      exact ⟨hs.1.1.2, hs.1.2, fun _ => hb⟩
    | cons id rest =>
      refine .ite (fun _ => ?_) fun hmin => .pure fun s hs =>
        ⟨hs.1.1.1.2, hs.1.1.2, fun hpos => absurd (lt_of_le_of_lt hs.1.1.2 hpos) hmin⟩
      by_cases hneg : bytes ≤ 0
      case neg => exact fun s hs => absurd hs.1.1.2 hneg
      refine .bind ((triple_evictFront (start + bytes) turns id).pre fun s hs =>
        ⟨hs.1.1.1, hs.1.2⟩) fun evicted => (ih (bytes + evicted)).pre fun s hs => ?_
      exact ⟨⟨add_assoc start bytes evicted ▸ hs.1.1, by have := hs.1.2; omega⟩, hs.2⟩

structure Evicting (s : Worker) : Prop where
  indexed : s.Indexed []
  coherent : s.lineage.Coherent false

lemma triple_evictFront_evicting (id : ObjectID) : Partly Evicting (evictFront cfg.counter id) fun _ => Evicting := by
  have hi := (callLogic_index cfg.counter).evictFront id
  have hc := (stable_coherent false).triple ((callLogic_lineage cfg.counter).evictFront id)
  refine (hi.and hc).conseq (fun s hs => ⟨hs.indexed, hs.coherent⟩) (fun _ s hs => ⟨hs.1, hs.2⟩) fun _ _ _ => trivial

def FallenOr (bytes : Int) (id : TaskID) (s : Worker) : Prop :=
  footprint s < bytes ∨
    footprint s = bytes ∧ s.lineage.Evictable s.reconstructableOwnedObjects id

section

variable (hdepth : 0 < cfg.stackDepth)
include hdepth

lemma triple_evictFront_fallenOr (bytes : Int) (id : TaskID) (x : ObjectID) (rest : List ObjectID) :
    Partly (fun s => Evicting s ∧ FallenOr bytes id s ∧ s.reconstructableOwnedObjects = x :: rest)
      (evictFront cfg.counter x) fun _ s => FallenOr bytes id s := by
  rintro s ⟨hs, hor, hlist⟩
  rcases hor with hlt | ⟨heq, hev⟩
  · have hle := (stable_footprint_le (footprint s)).triple ((callLogic_lineage cfg.counter).evictFront x)
    exact hle.conseq (fun _ ht => ht) (fun _ t ht => .inl (lt_of_le_of_lt ht.2 hlt))
      (fun _ _ _ => trivial) s ⟨hs.coherent, le_rfl⟩
  · by_cases hf : s.lineage.Forgets x
    · refine (triple_evictFront_forgets hdepth hs.indexed hlist hs.coherent hf).post (fun _ t ht => .inl ?_) s rfl
      exact heq ▸ ht
    · obtain ⟨t, hx, ht, hlin⟩ := evictFront_kept hdepth hs.indexed hlist hf
      rw [hx]
      refine .inr ⟨?_, ?_⟩
      · rw [footprint, hlin, (removeLineageReference_kept hf).2.2.1]
        exact heq
      · rw [ht, hlin]
        exact (hlist ▸ hev : s.lineage.Evictable (x :: rest) id).kept hs.coherent hf

lemma triple_popFronts_fallenOr (bytes : Int) (id : TaskID) (n : Nat) :
    Partly (fun s => Evicting s ∧ FallenOr bytes id s) (popFronts cfg n)
      fun _ s => Evicting s ∧ FallenOr bytes id s := by
  induction n with
  | zero => exact .pure fun _ hs => hs
  | succ n ih =>
    refine .bind (.get (Q := fun b s => (Evicting s ∧ FallenOr bytes id s) ∧ b = s) fun s hs => ⟨hs, rfl⟩) fun b => ?_
    cases hb : b.reconstructableOwnedObjects with
    | nil => exact .pure fun _ hs => hs.1
    | cons x rest =>
      refine .bind (((triple_evictFront_evicting x).and
        (triple_evictFront_fallenOr hdepth bytes id x rest)).pre ?_) fun _ => ih
      rintro s ⟨hs, rfl⟩
      exact ⟨hs.1, hs.1, hs.2, hb⟩

lemma evictFront_idle {s : Worker} {x : ObjectID} {rest : List ObjectID} (hi : s.Indexed [])
    (hno : ∀ id, ¬ s.lineage.Evictable s.reconstructableOwnedObjects id)
    (hs : s.reconstructableOwnedObjects = x :: rest) :
    ∃ t, evictFront cfg.counter x s = .ok 0 t ∧ t.Indexed [] ∧
      (∀ id, ¬ t.lineage.Evictable t.reconstructableOwnedObjects id) ∧
      t.reconstructableOwnedObjects = rest ∧ footprint t = footprint s := by
  rw [hs] at hno
  have hk := not_forgets_of_not_evictable hno List.mem_cons_self
  obtain ⟨t, hx, ht, hlin⟩ := evictFront_kept hdepth hi hs hk
  refine ⟨t, hx, ((callLogic_index cfg.counter).evictFront x).returned hi hx, ?_, ht, ?_⟩
  · rw [ht, hlin]
    exact not_evictable_kept hno
  · rw [footprint, hlin]
    exact (removeLineageReference_kept hk).2.2.1

end

section

variable {s t : Worker} {n : Nat} {x : ObjectID} {rest : List ObjectID} {bytes evicted : Int}
  {minBytesToEvict : Int}

lemma popFronts_of_nil (hs : s.reconstructableOwnedObjects = []) : popFronts cfg (n + 1) s = .ok () s := by
  simp only [popFronts, bind, EStateM.bind, get, getThe, MonadStateOf.get, EStateM.get, hs]
  rfl

lemma popFronts_of_cons (hs : s.reconstructableOwnedObjects = x :: rest)
    (hx : evictFront cfg.counter x s = .ok evicted t) :
    popFronts cfg (n + 1) s = popFronts cfg n t := by
  simp only [popFronts, bind, EStateM.bind, get, getThe, MonadStateOf.get, EStateM.get, hs, hx]

lemma evictLoop_of_cons (hs : s.reconstructableOwnedObjects = x :: rest)
    (hlt : bytes < minBytesToEvict) (hx : evictFront cfg.counter x s = .ok evicted t) :
    evictLoop cfg.counter minBytesToEvict (n + 1) bytes s =
      evictLoop cfg.counter minBytesToEvict n (bytes + evicted) t := by
  simp only [evictLoop, bind, EStateM.bind, get, getThe, MonadStateOf.get, EStateM.get, hs, if_pos hlt, hx]

lemma evictLoop_of_le (hle : minBytesToEvict ≤ bytes) :
    evictLoop cfg.counter minBytesToEvict n bytes s = .ok bytes s := by
  cases n with
  | zero => rfl
  | succ n =>
    simp only [evictLoop, bind, EStateM.bind, get, getThe, MonadStateOf.get, EStateM.get]
    cases s.reconstructableOwnedObjects with
    | nil => rfl
    | cons x rest =>
      simp only [if_neg (not_lt.mpr hle)]
      rfl

end

lemma popFronts_idle (hdepth : 0 < cfg.stackDepth) (n : Nat) {s : Worker} (hi : s.Indexed [])
    (hno : ∀ id, ¬ s.lineage.Evictable s.reconstructableOwnedObjects id) :
    ∃ t, popFronts cfg n s = .ok () t ∧ footprint t = footprint s := by
  induction n generalizing s with
  | zero => exact ⟨s, rfl, rfl⟩
  | succ n ih =>
    cases hs : s.reconstructableOwnedObjects with
    | nil => exact ⟨s, popFronts_of_nil hs, rfl⟩
    | cons x rest =>
      obtain ⟨t, hx, hti, htno, _, hfoot⟩ := evictFront_idle hdepth hi hno hs
      obtain ⟨u, hu, hfoot'⟩ := ih hti htno
      exact ⟨u, (popFronts_of_cons hs hx).trans hu, hfoot'.trans hfoot⟩

lemma evictLoop_idle {minBytesToEvict : Int} (hdepth : 0 < cfg.stackDepth)
    (hmin : 0 < minBytesToEvict) (n : Nat) {s : Worker} (hi : s.Indexed [])
    (hno : ∀ id, ¬ s.lineage.Evictable s.reconstructableOwnedObjects id)
    (hn : s.reconstructableOwnedObjects.length = n) :
    ∃ t, evictLoop cfg.counter minBytesToEvict n 0 s = .ok 0 t ∧ popFronts cfg n s = .ok () t ∧
      t.reconstructableOwnedObjects = [] := by
  induction n generalizing s with
  | zero => exact ⟨s, rfl, rfl, List.length_eq_zero_iff.mp hn⟩
  | succ n ih =>
    cases hs : s.reconstructableOwnedObjects with
    | nil =>
      rw [hs] at hn
      cases hn
    | cons x rest =>
      obtain ⟨t, hx, hti, htno, ht, _⟩ := evictFront_idle hdepth hi hno hs
      rw [hs] at hn
      obtain ⟨u, hu, hpop, hnil⟩ := ih hti htno (ht ▸ Nat.succ.inj hn)
      exact ⟨u, (evictLoop_of_cons hs hmin hx).trans hu, (popFronts_of_cons hs hx).trans hpop, hnil⟩

end

lemma workerLogic_index (cfg : WorkerConfig) : WorkerLogic cfg fun α (x : WorkerM α) => KeepsIndex [] x where
  toComposes := composes_triple _ _
  throw _ := .throw fun _ _ => trivial
  getTasks := triple_seeTasks
  modifyTasks _ := triple_modifyTasks fun _ hs => hs
  taskCall hx := hx _ (taskCallLogic_index cfg.counter)

lemma Reachable.evicting {Allowed : WorkerOp → Worker → Prop} {s : Worker}
    (h : Reachable cfg Allowed s) : Evicting s := by
  refine ⟨?_, h.coherent fun _ _ _ => (nomatch ·)⟩
  refine h.invariant ?_ fun op s _ hs => ((workerLogic_index cfg).run op).pre fun _ ht => ht ▸ hs
  rintro x (hx | hx) <;> cases hx

/-- An eviction does what is asked only if it is asked for nothing, or there is no
finished task whose returns are all in the index, and so nothing to release. -/
theorem evictsExactly_iff (cfg : WorkerConfig) (hdepth : 0 < cfg.stackDepth) (s : Worker)
    (h : Reachable cfg (fun _ _ => True) s) (minBytesToEvict : Int) (hmin : 0 ≤ minBytesToEvict) :
    EvictsExactly cfg minBytesToEvict s ↔ minBytesToEvict = 0 ∨
      ∀ id, ¬ s.lineage.Evictable s.reconstructableOwnedObjects id := by
  obtain ⟨hi, hc⟩ := h.evicting
  constructor
  · rintro ⟨n, bytes, t, hrun, hpop, _, _, hbytes⟩
    refine or_iff_not_imp_left.mpr fun hne id hev => ?_
    have hloop := (triple_evictLoop minBytesToEvict (footprint s) _ 0).returned
      ⟨⟨⟨hc, (add_zero (footprint s)).symm⟩, le_refl 0⟩, le_rfl⟩ hrun
    obtain ⟨hfoot, _, hnil⟩ := hloop
    have hend := (triple_popFronts_fallenOr hdepth (footprint s) id n).returned
      ⟨⟨hi, hc⟩, .inr ⟨rfl, hev⟩⟩ hpop
    obtain ⟨⟨_, hct⟩, hlt | ⟨_, e, he, hp, hsub⟩⟩ := hend
    · omega
    · rw [hnil (by omega)] at hsub
      exact (((hct.entries id e he).1).finished hp).1 (List.subset_nil.mp hsub)
  · intro hor
    by_cases hzero : minBytesToEvict = 0
    · refine ⟨0, 0, s, ?_, rfl, fun m hm => absurd hm (Nat.not_lt_zero m), .inl ?_, ?_⟩
      · exact evictLoop_of_le (le_of_eq hzero)
      · omega
      · omega
    · have hno := hor.resolve_left hzero
      have hpos : 0 < minBytesToEvict := by omega
      obtain ⟨t, hrun, hpop, hnil⟩ := evictLoop_idle hdepth hpos _ hi hno rfl
      have hfoot : ∀ m u, popFronts cfg m s = .ok () u → footprint u = footprint s := by
        intro m u hu
        obtain ⟨u', hu', hfoot⟩ := popFronts_idle hdepth m hi hno
        rw [hu] at hu'
        cases hu'
        exact hfoot
      refine ⟨_, 0, t, hrun, hpop, fun m _ u hu => ?_, .inr hnil, ?_⟩
      · have := hfoot m u hu
        omega
      · have := hfoot _ t hpop
        omega

/-- Two tasks return an object in plasma, and are kept for their lineage. -/
def finishedTasks : List WorkerOp :=
  finishedTask ++
    [.addPendingTask ⟨0, 0⟩ { taskId := 2 } 1, .counter (.addLocalReference ⟨2, 1⟩),
      .submitTask 2 fun _ => false,
      .completePendingTask 2 { returnObjects := [{ objectId := ⟨2, 1⟩, inPlasma := true }] } ⟨1, 0⟩
        true]

def evictionOutcome (cfg : WorkerConfig) (minBytesToEvict : Int) (s : Worker) :
    Option (Int × Int × List ObjectID) :=
  match evictLineage cfg.counter minBytesToEvict s with
  | .ok bytes t => some (bytes, footprint t, t.reconstructableOwnedObjects)
  | .error _ _ => none

/-- One byte is asked for, and the first object would release it. Both are popped, and
the two bytes released are returned as `-2`. -/
theorem finishedTasks_evicts_everything : ∃ s, Reachable exampleWorker (fun _ _ => True) s ∧
    s.reconstructableOwnedObjects = [⟨1, 1⟩, ⟨2, 1⟩] ∧ footprint s = 2 ∧
    evictionOutcome exampleWorker 1 s = some (-2, 0, []) ∧ ¬ EvictsExactly exampleWorker 1 s := by
  refine exists_after finishedTasks
    (fun s => (s.reconstructableOwnedObjects, footprint s, evictionOutcome exampleWorker 1 s))
    ([⟨1, 1⟩, ⟨2, 1⟩], 2, some (-2, 0, [])) (by decide +kernel) fun s _ heq => ?_
  obtain ⟨hindex, heq⟩ := Prod.mk.inj heq
  obtain ⟨hfoot, hev⟩ := Prod.mk.inj heq
  refine ⟨hindex, hfoot, hev, ?_⟩
  rintro ⟨n, bytes, t, hrun, _, _, _, hbytes⟩
  rw [evictionOutcome, hrun] at hev
  obtain ⟨hb, ht⟩ := Prod.mk.inj (Option.some.inj hev)
  have := (Prod.mk.inj ht).1
  omega

/-- A task that is still pending releases nothing, and its object is popped. -/
theorem pendingTask_evictsExactly : ∃ s, Reachable exampleWorker (fun _ _ => True) s ∧
    s.reconstructableOwnedObjects = [⟨1, 1⟩] ∧ EvictsExactly exampleWorker 1 s := by
  refine exists_after (finishedTask.take 3)
    (fun s => (s.reconstructableOwnedObjects, s.lineage.submissibleTasks.entries.all fun e => e.2.pending))
    ([⟨1, 1⟩], true) (by decide +kernel) fun s hs heq => ?_
  obtain ⟨hindex, hall⟩ := Prod.mk.inj heq
  refine ⟨hindex, ?_⟩
  refine (evictsExactly_iff exampleWorker (by decide) s hs 1 (by decide)).mpr (.inr fun id => ?_)
  rintro ⟨e, he, hp, _⟩
  have hpend := List.all_eq_true.mp hall ⟨id, e⟩ (Table.mem_entries_iff.mpr he)
  exact absurd (hp.symm.trans hpend) Bool.false_ne_true

end AmazonRay.TaskManager
