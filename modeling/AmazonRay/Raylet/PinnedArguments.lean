import AmazonRay.Lib.Runs
import AmazonRay.Lib.Table
import AmazonRay.Raylet.ClusterTaskManager

/-! The arguments pinned for the executing tasks are counted, and stay within the limit together. -/
namespace AmazonRay.Raylet
open Program List Table Nat

/-- Requests to pin and to release the arguments of a task. `available`: the objects in the store, unless the request to
it fails. -/
inductive ArgumentOp where
  | pinTaskArgs (available : Option (ObjectID → Bool)) (taskId : TaskID) (deps : List ObjectID)
  | releaseTaskArgs (taskId : TaskID)

namespace TaskArguments

variable {size : ObjectID → ℕ} {occ : ObjectID → ℕ} {maxBytes : ℕ} {a a' : TaskArguments} {taskId : TaskID}
  {deps : List ObjectID} {available : Option (ObjectID → Bool)}

def sizesOf (size : ObjectID → ℕ) (available : Option (ObjectID → Bool)) : Option (ObjectID → Option ℕ) :=
  available.map fun has o => if has o then some (size o) else none

def occurrences (a : TaskArguments) (o : ObjectID) : ℕ := Table.total (fun _ l => l.count o) a.executingTaskArgs

/-- The pinned arguments are those that occur, with sizes and numbers of occurrences. -/
structure CountedBy (size occ : ObjectID → ℕ) (a : TaskArguments) : Prop where
  entry : ∀ o, a.pinnedTaskArguments.lookup o = if occ o = 0 then none else some (size o, occ o)
  bytes : a.pinnedTaskArgumentsBytes = Table.total (fun o _ => size o) a.pinnedTaskArguments

variable {o : ObjectID}

lemma CountedBy.pinArgument (h : CountedBy size occ a) (o : ObjectID) :
    CountedBy size (fun x => occ x + if x = o then 1 else 0) (a.pinArgument (o, size o)) := by
  have hentry := h.entry o
  unfold TaskArguments.pinArgument
  by_cases ho : occ o = 0
  · rw [if_pos ho] at hentry
    rw [hentry]
    refine ⟨fun x => ?_, ?_⟩
    · rw [lookup_insert]
      by_cases hx : x = o
      · rw [if_pos hx, if_pos hx, hx, ho, if_neg (by decide)]
      · rw [if_neg hx, if_neg hx]
        exact h.entry x
    · rw [total_insert, total_erase_of_lookup_none hentry, add_comm, h.bytes]
  · rw [if_neg ho] at hentry
    rw [hentry]
    refine ⟨fun x => ?_, ?_⟩
    · rw [lookup_insert]
      by_cases hx : x = o
      · rw [if_pos hx, if_pos hx, hx, if_neg (succ_ne_zero _)]
      · rw [if_neg hx, if_neg hx]
        exact h.entry x
    · rw [total_insert, ← total_of_lookup (f := fun o _ => size o) hentry]
      exact h.bytes

lemma executingTaskArgs_pinArgument (a : TaskArguments) (arg : ObjectID × ℕ) :
    (a.pinArgument arg).executingTaskArgs = a.executingTaskArgs := by
  unfold TaskArguments.pinArgument
  split <;> rfl

lemma bytes_pinArgument_le (a : TaskArguments) (arg : ObjectID × ℕ) :
    (a.pinArgument arg).pinnedTaskArgumentsBytes ≤ a.pinnedTaskArgumentsBytes + arg.2 := by
  unfold TaskArguments.pinArgument
  split
  · exact le_add_right _ _
  · exact le_rfl

lemma CountedBy.pinArguments (h : CountedBy size occ a) (deps : List ObjectID) :
    CountedBy size (fun x => occ x + deps.count x) ((deps.map fun o => (o, size o)).foldl TaskArguments.pinArgument a) := by
  induction deps generalizing a occ with
  | nil => exact h
  | cons o deps ih =>
    have hstep := ih (h.pinArgument o)
    have hcount : (fun x => occ x + (if x = o then 1 else 0) + deps.count x) = fun x => occ x + (o :: deps).count x := by
      funext x
      rw [count_cons, add_assoc, add_comm (if x = o then 1 else 0)]
      simp [@eq_comm _ x o]
    rw [hcount] at hstep
    exact hstep

lemma executingTaskArgs_pinArguments (a : TaskArguments) (args : List (ObjectID × ℕ)) :
    (args.foldl TaskArguments.pinArgument a).executingTaskArgs = a.executingTaskArgs := by
  induction args generalizing a with
  | nil => rfl
  | cons arg args ih => exact (ih _).trans (executingTaskArgs_pinArgument a arg)

lemma bytes_pinArguments_le (a : TaskArguments) (args : List (ObjectID × ℕ)) :
    (args.foldl TaskArguments.pinArgument a).pinnedTaskArgumentsBytes ≤
      a.pinnedTaskArgumentsBytes + (args.map Prod.snd).sum := by
  induction args generalizing a with
  | nil => exact le_rfl
  | cons arg args ih =>
    have hrest := ih (a.pinArgument arg)
    have hfirst := bytes_pinArgument_le a arg
    rw [map_cons, sum_cons, foldl_cons]
    omega

lemma CountedBy.congr {occ' : ObjectID → ℕ} (h : CountedBy size occ a) (hocc : ∀ o, occ o = occ' o) :
    CountedBy size occ' a := funext hocc ▸ h

lemma triple_releaseArgument (occ : ObjectID → ℕ) (hpos : 0 < occ o) :
    Triple (fun t => CountedBy size occ t ∧ t.executingTaskArgs = a.executingTaskArgs) (releaseArgument o)
      (fun _ t => CountedBy size (fun x => occ x - if x = o then 1 else 0) t ∧
        t.executingTaskArgs = a.executingTaskArgs) fun _ _ => False := by
  refine .read fun t ht => ?_
  obtain ⟨hc, hexec⟩ := ht
  have hentry := hc.entry o
  rw [if_neg (by omega)] at hentry
  rw [hentry]
  refine .seq (.passed hpos) (.updated ?_)
  have htotal := total_of_lookup (f := fun o (_ : ℕ × ℕ) => size o) hentry
  have hbytes := hc.bytes
  by_cases hone : occ o = 1
  · rw [if_pos hone]
    refine ⟨⟨fun x => ?_, ?_⟩, hexec⟩
    · rw [lookup_erase]
      by_cases hx : x = o
      · rw [if_pos hx, if_pos hx, hx, hone, if_pos rfl]
      · rw [if_neg hx, if_neg hx]
        exact hc.entry x
    · dsimp only
      omega
  · rw [if_neg hone]
    refine ⟨⟨fun x => ?_, ?_⟩, hexec⟩
    · rw [lookup_insert]
      by_cases hx : x = o
      · rw [if_pos hx, if_pos hx, hx, if_neg (by omega)]
      · rw [if_neg hx, if_neg hx]
        exact hc.entry x
    · rw [total_insert, ← htotal]
      exact hbytes

lemma triple_releaseArguments (size occ : ObjectID → ℕ) (a : TaskArguments) (deps : List ObjectID) :
    Triple (fun t => CountedBy size (fun x => occ x + deps.count x) t ∧ t.executingTaskArgs = a.executingTaskArgs)
      (deps.forM releaseArgument)
      (fun _ t => CountedBy size occ t ∧ t.executingTaskArgs = a.executingTaskArgs) fun _ _ => False := by
  refine (Triple.forM (I := fun l t => CountedBy size (fun x => occ x + l.count x) t ∧
    t.executingTaskArgs = a.executingTaskArgs) (fun o l => ?_) deps).post fun _ t ht => ht
  refine (triple_releaseArgument (fun x => occ x + (o :: l).count x) ?_).post fun _ t ht =>
    ⟨ht.1.congr fun x => ?_, ht.2⟩
  · rw [count_cons_self]
    exact succ_pos _
  · rw [count_cons]
    by_cases hx : x = o
    · simp [hx]
    · simp [hx, Ne.symm hx]

/-- The pinned arguments are those of the executing tasks. -/
def Counted (size : ObjectID → ℕ) (a : TaskArguments) : Prop := CountedBy size a.occurrences a

lemma counted_start (size : ObjectID → ℕ) : Counted size {} := ⟨fun _ => rfl, rfl⟩

lemma Counted.pinTaskArgs (h : Counted size a) (hnew : a.executingTaskArgs.lookup taskId = none)
    (deps : List ObjectID) : Counted size (a.pinTaskArgs taskId (deps.map fun o => (o, size o))) := by
  have hstart : CountedBy size a.occurrences { a with
      executingTaskArgs := a.executingTaskArgs.insert taskId ((deps.map fun o => (o, size o)).map Prod.fst) } :=
    ⟨h.entry, h.bytes⟩
  have hpinned := hstart.pinArguments deps
  unfold TaskArguments.pinTaskArgs
  rw [hnew]
  refine hpinned.congr fun o => ?_
  rw [occurrences, occurrences, executingTaskArgs_pinArguments, total_insert,
    total_erase_of_lookup_none hnew, map_map, add_comm]
  simp only [Function.comp_def, map_id']

lemma executingTaskArgs_pinTaskArgs (hnew : a.executingTaskArgs.lookup taskId = none) (deps : List ObjectID)
    (x : TaskID) : (a.pinTaskArgs taskId (deps.map fun o => (o, size o))).executingTaskArgs.lookup x =
      if x = taskId then some deps else a.executingTaskArgs.lookup x := by
  unfold TaskArguments.pinTaskArgs
  rw [hnew, executingTaskArgs_pinArguments, lookup_insert, map_map]
  simp only [Function.comp_def, map_id']

lemma pinTaskArgs_of_executing {l : List ObjectID} (h : a.executingTaskArgs.lookup taskId = some l)
    (args : List (ObjectID × ℕ)) : a.pinTaskArgs taskId args = a := by
  unfold TaskArguments.pinTaskArgs
  rw [h]

lemma triple_releaseTaskArgs (h : Counted size a) (taskId : TaskID) :
    Completes a (releaseTaskArgs taskId) fun _ t => Counted size t ∧
      ∀ x, t.executingTaskArgs.lookup x = if x = taskId then none else a.executingTaskArgs.lookup x := by
  refine .seen ?_
  cases htask : a.executingTaskArgs.lookup taskId with
  | none =>
    refine .done ?_
    refine ⟨h, fun x => ?_⟩
    by_cases hx : x = taskId
    · rw [if_pos hx, hx, htask]
    · rw [if_neg hx]
  | some l =>
    have hsplit : ∀ o, a.occurrences o = total (fun _ l => l.count o) (a.executingTaskArgs.erase taskId) +
        l.count o := fun o => (total_of_lookup htask).trans (add_comm _ _)
    refine .seq ((triple_releaseArguments size
      (fun o => total (fun _ l => l.count o) (a.executingTaskArgs.erase taskId)) a l).pre ?_) (.update ?_)
    · rintro u rfl
      exact ⟨h.congr hsplit, rfl⟩
    · rintro u ⟨hu, hexec⟩
      have herase : u.executingTaskArgs.erase taskId = a.executingTaskArgs.erase taskId := by rw [hexec]
      refine ⟨⟨fun o => ?_, hu.bytes⟩, fun x => ?_⟩
      · rw [occurrences]
        rw [herase]
        exact hu.entry o
      · dsimp only
        rw [herase, lookup_erase]

lemma mapM_sizesOf {has : ObjectID → Bool} {args : List (ObjectID × ℕ)}
    (h : (deps.mapM fun dep => ((if has dep then some (size dep) else none : Option ℕ).map fun n => (dep, n))) = some args) :
    args = deps.map fun o => (o, size o) := by
  induction deps generalizing args with
  | nil =>
    cases h
    rfl
  | cons o deps ih =>
    rw [mapM_cons] at h
    obtain ⟨first, hfirst, h⟩ := Option.bind_eq_some_iff.mp h
    obtain ⟨rest, hrest, h⟩ := Option.bind_eq_some_iff.mp h
    cases h
    rw [ih hrest, map_cons]
    obtain ⟨n, hn, rfl⟩ := Option.map_eq_some_iff.mp hfirst
    by_cases hhas : has o = true
    · rw [if_pos hhas] at hn
      rw [Option.some.inj hn]
    · rw [if_neg hhas] at hn
      cases hn

inductive Pins (size : ObjectID → ℕ) (maxBytes : ℕ) (taskId : TaskID) (deps : List ObjectID) (a : TaskArguments) :
    PinResult → TaskArguments → Prop
  | argsMissing : Pins size maxBytes taskId deps a .argsMissing a
  | pinned (hcounted : Counted size (a.pinTaskArgs taskId (deps.map fun o => (o, size o))))
      (hfits : maxBytes ≠ 0 → (deps.map size).sum ≤ maxBytes →
        (a.pinTaskArgs taskId (deps.map fun o => (o, size o))).pinnedTaskArgumentsBytes ≤ maxBytes) :
      Pins size maxBytes taskId deps a .pinned (a.pinTaskArgs taskId (deps.map fun o => (o, size o)))
  | overMemory {t : TaskArguments} (hcounted : Counted size t) (hown : (deps.map size).sum ≤ maxBytes)
      (hover : maxBytes < (a.pinTaskArgs taskId (deps.map fun o => (o, size o))).pinnedTaskArgumentsBytes)
      (hothers : ∀ x, t.executingTaskArgs.lookup x = if x = taskId then none else a.executingTaskArgs.lookup x) :
      Pins size maxBytes taskId deps a .overMemory t

lemma triple_pinTaskArgsIfMemoryAvailable (h : Counted size a) (maxBytes : ℕ) (available : Option (ObjectID → Bool))
    (taskId : TaskID) (deps : List ObjectID) :
    Completes a (pinTaskArgsIfMemoryAvailable maxBytes (sizesOf size available) taskId deps)
      fun r t => Pins size maxBytes taskId deps a r t := by
  unfold pinTaskArgsIfMemoryAvailable
  split
  · exact .done .argsMissing
  case h_2 args hargs =>
    obtain rfl : args = deps.map fun o => (o, size o) := by
      by_cases hdeps : deps = []
      · rw [if_pos hdeps] at hargs
        cases hargs
        rw [hdeps, map_nil]
      · rw [if_neg hdeps] at hargs
        obtain ⟨f, hf, hargs⟩ := Option.bind_eq_some_iff.mp hargs
        obtain ⟨has, -, rfl⟩ := Option.map_eq_some_iff.mp hf
        exact mapM_sizesOf hargs
    have hcounted : Counted size (a.pinTaskArgs taskId (deps.map fun o => (o, size o))) := by
      cases htask : a.executingTaskArgs.lookup taskId with
      | none => exact h.pinTaskArgs htask deps
      | some => rwa [pinTaskArgs_of_executing htask]
    have hsum : ((deps.map fun o => (o, size o)).map Prod.snd).sum = (deps.map size).sum := by
      rw [map_map, Function.comp_def]
    have hexec : ∀ x, x ≠ taskId → (a.pinTaskArgs taskId (deps.map fun o => (o, size o))).executingTaskArgs.lookup x =
        a.executingTaskArgs.lookup x := by
      intro x hx
      cases htask : a.executingTaskArgs.lookup taskId with
      | none => rw [executingTaskArgs_pinTaskArgs htask, if_neg hx]
      | some => rw [pinTaskArgs_of_executing htask]
    refine .seq (.update (Q := fun _ t => t = a.pinTaskArgs taskId (deps.map fun o => (o, size o))) ?_)
      (.read fun t ht => ?_)
    · rintro t rfl
      rfl
    subst ht
    rw [hsum]
    refine .ite (fun hover => ?_) fun hfits => .pure ?_
    · refine .seq (triple_releaseTaskArgs hcounted taskId) (.pure fun t ht => ?_)
      refine .overMemory ht.1 hover.2.1 hover.2.2 fun x => (ht.2 x).trans ?_
      by_cases hx : x = taskId
      · rw [if_pos hx, if_pos hx]
      · rw [if_neg hx, if_neg hx, hexec x hx]
    · rintro t rfl
      exact .pinned hcounted fun hmax hown => Nat.le_of_not_lt fun hlt => hfits ⟨hmax, hown, hlt⟩

/-- The arguments of the executing tasks that are within the limit by themselves. -/
def argumentsWithinLimit (size : ObjectID → ℕ) (maxBytes : ℕ) (a : TaskArguments) : Finset ObjectID :=
  ((a.executingTaskArgs.entries.filter fun e => (e.2.map size).sum ≤ maxBytes).flatMap fun e => e.2).toFinset

lemma mem_argumentsWithinLimit : o ∈ a.argumentsWithinLimit size maxBytes ↔
    ∃ x l, a.executingTaskArgs.lookup x = some l ∧ (l.map size).sum ≤ maxBytes ∧ o ∈ l := by
  simp only [argumentsWithinLimit, mem_toFinset, mem_flatMap, mem_filter, decide_eq_true_eq]
  constructor
  · rintro ⟨e, ⟨he, hown⟩, ho⟩
    exact ⟨e.1, e.2, mem_entries_iff.mp he, hown, ho⟩
  · rintro ⟨x, l, hl, hown, ho⟩
    exact ⟨⟨x, l⟩, ⟨mem_entries_iff.mpr hl, hown⟩, ho⟩

def Bounded (size : ObjectID → ℕ) (maxBytes : ℕ) (a : TaskArguments) : Prop :=
  maxBytes ≠ 0 → ∑ o ∈ a.argumentsWithinLimit size maxBytes, size o ≤ maxBytes

lemma Bounded.mono (h : Bounded size maxBytes a)
    (hsub : a'.argumentsWithinLimit size maxBytes ⊆ a.argumentsWithinLimit size maxBytes) :
    Bounded size maxBytes a' := fun hmax => (Finset.sum_le_sum_of_subset hsub).trans (h hmax)

lemma occurrences_pos_iff : 0 < a.occurrences o ↔ ∃ x l, a.executingTaskArgs.lookup x = some l ∧ o ∈ l := by
  constructor
  · intro hpos
    by_contra hnone
    push Not at hnone
    refine absurd (total_eq_zero fun x l hl => ?_) (pos_iff_ne_zero.mp hpos)
    exact count_eq_zero.mpr (hnone x l hl)
  · rintro ⟨x, l, hl, ho⟩
    rw [occurrences, total_of_lookup hl]
    exact Nat.add_pos_left (count_pos_iff.mpr ho) _

lemma Counted.mem_keys_iff (h : Counted size a) : o ∈ a.pinnedTaskArguments.keys ↔ 0 < a.occurrences o := by
  rw [← AList.mem_keys, ← AList.lookup_isSome, h.entry o]
  by_cases hocc : a.occurrences o = 0
  · rw [if_pos hocc, hocc]
    exact ⟨nofun, fun hf => absurd hf (lt_irrefl 0)⟩
  · rw [if_neg hocc]
    exact ⟨fun _ => pos_of_ne_zero hocc, fun _ => rfl⟩

lemma Counted.bytes_eq (h : Counted size a) :
    a.pinnedTaskArgumentsBytes = ∑ o ∈ a.pinnedTaskArguments.keys.toFinset, size o := by
  rw [sum_toFinset _ a.pinnedTaskArguments.keys_nodup, h.bytes, total]
  show _ = ((a.pinnedTaskArguments.entries.map Sigma.fst).map size).sum
  rw [map_map]
  rfl

lemma Counted.bounded_of_bytes_le (h : Counted size a) (hbytes : a.pinnedTaskArgumentsBytes ≤ maxBytes) :
    Bounded size maxBytes a := by
  intro _
  refine (Finset.sum_le_sum_of_subset fun o ho => ?_).trans (h.bytes_eq ▸ hbytes)
  obtain ⟨x, l, hl, -, ho⟩ := mem_argumentsWithinLimit.mp ho
  exact mem_toFinset.mpr (h.mem_keys_iff.mpr (occurrences_pos_iff.mpr ⟨x, l, hl, ho⟩))

lemma bounded_of_others (h : Bounded size maxBytes a)
    (hothers : ∀ x, a'.executingTaskArgs.lookup x = if x = taskId then none else a.executingTaskArgs.lookup x) :
    Bounded size maxBytes a' := by
  refine h.mono fun o ho => ?_
  obtain ⟨x, l, hl, hown, ho⟩ := mem_argumentsWithinLimit.mp ho
  rw [hothers x] at hl
  by_cases hx : x = taskId
  · rw [if_pos hx] at hl
    cases hl
  · rw [if_neg hx] at hl
    exact mem_argumentsWithinLimit.mpr ⟨x, l, hl, hown, ho⟩

variable (h : Counted size a)
include h

lemma Pins.invariant {r : PinResult} (hpins : Pins size maxBytes taskId deps a r a')
    (hbound : Bounded size maxBytes a) : Counted size a' ∧ Bounded size maxBytes a' := by
  cases hpins with
  | argsMissing => exact ⟨h, hbound⟩
  | overMemory hcounted hown hover hothers => exact ⟨hcounted, bounded_of_others hbound hothers⟩
  | pinned hcounted hfits =>
    refine ⟨hcounted, fun hmax => ?_⟩
    cases htask : a.executingTaskArgs.lookup taskId with
    | some l =>
      rw [pinTaskArgs_of_executing htask]
      exact hbound hmax
    | none =>
      by_cases hown : (deps.map size).sum ≤ maxBytes
      · exact hcounted.bounded_of_bytes_le (hfits hmax hown) hmax
      · -- the new task is not one of those within the limit
        refine hbound.mono (fun o ho => ?_) hmax
        obtain ⟨x, l, hl, hle, ho⟩ := mem_argumentsWithinLimit.mp ho
        rw [executingTaskArgs_pinTaskArgs htask] at hl
        by_cases hx : x = taskId
        · rw [if_pos hx] at hl
          cases hl
          exact absurd hle hown
        · rw [if_neg hx] at hl
          exact mem_argumentsWithinLimit.mpr ⟨x, l, hl, hle, ho⟩

lemma Counted.nonempty_iff : (a.executingTaskArgs.keys ≠ [] ∧ a.pinnedTaskArguments.keys ≠ []) ↔
      ∃ x l, a.executingTaskArgs.lookup x = some l ∧ l ≠ [] := by
  constructor
  · rintro ⟨-, hpinned⟩
    obtain ⟨o, ho⟩ := exists_mem_of_ne_nil _ hpinned
    obtain ⟨x, l, hl, ho⟩ := occurrences_pos_iff.mp (h.mem_keys_iff.mp ho)
    exact ⟨x, l, hl, ne_nil_of_mem ho⟩
  · rintro ⟨x, l, hl, hne⟩
    obtain ⟨o, ho⟩ := exists_mem_of_ne_nil l hne
    have hx : x ∈ a.executingTaskArgs.keys :=
      AList.mem_keys.mp (Table.mem_of_lookup hl)
    exact ⟨ne_nil_of_mem hx, ne_nil_of_mem (h.mem_keys_iff.mpr (occurrences_pos_iff.mpr ⟨x, l, hl, ho⟩))⟩

lemma exists_executing_of_over (hnew : a.executingTaskArgs.lookup taskId = none)
    (hown : (deps.map size).sum ≤ maxBytes)
    (hover : maxBytes < (a.pinTaskArgs taskId (deps.map fun o => (o, size o))).pinnedTaskArgumentsBytes) :
    ∃ x l, a.executingTaskArgs.lookup x = some l ∧ l ≠ [] := by
  have hle := bytes_pinArguments_le { a with
    executingTaskArgs := a.executingTaskArgs.insert taskId ((deps.map fun o => (o, size o)).map Prod.fst) }
    (deps.map fun o => (o, size o))
  unfold TaskArguments.pinTaskArgs at hover
  rw [hnew] at hover
  have hsum : ((deps.map fun o => (o, size o)).map Prod.snd).sum = (deps.map size).sum := by
    rw [map_map, Function.comp_def]
  have hbytes : a.pinnedTaskArgumentsBytes ≠ 0 := by
    dsimp only at hover hle
    omega
  apply h.nonempty_iff.mp
  have hpinned : a.pinnedTaskArguments.keys ≠ [] := by
    intro hnil
    apply hbytes
    rw [h.bytes_eq, hnil]
    rfl
  obtain ⟨o, ho⟩ := exists_mem_of_ne_nil _ hpinned
  obtain ⟨x, l, hl, ho⟩ := occurrences_pos_iff.mp (h.mem_keys_iff.mp ho)
  exact h.nonempty_iff.mpr ⟨x, l, hl, ne_nil_of_mem ho⟩

lemma nonempty_of_overMemory_iff (hpins : Pins size maxBytes taskId deps a .overMemory a') :
    (a'.executingTaskArgs.keys ≠ [] ∧ a'.pinnedTaskArguments.keys ≠ []) ↔
      (a.executingTaskArgs.lookup taskId ≠ none → ∃ x l, x ≠ taskId ∧ a.executingTaskArgs.lookup x = some l ∧ l ≠ []) := by
  cases hpins with | overMemory hcounted hown hover hothers =>
  rw [hcounted.nonempty_iff]
  constructor
  · rintro ⟨x, l, hl, hne⟩ -
    rw [hothers x] at hl
    by_cases hx : x = taskId
    · rw [if_pos hx] at hl
      cases hl
    · rw [if_neg hx] at hl
      exact ⟨x, l, hx, hl, hne⟩
  · intro hother
    obtain ⟨x, l, hx, hl, hne⟩ : ∃ x l, x ≠ taskId ∧ a.executingTaskArgs.lookup x = some l ∧ l ≠ [] := by
      cases htask : a.executingTaskArgs.lookup taskId with
      | some l => exact hother (htask ▸ Option.some_ne_none l)
      | none =>
        obtain ⟨x, l, hl, hne⟩ := exists_executing_of_over h htask hown hover
        refine ⟨x, l, fun hx => ?_, hl, hne⟩
        rw [hx, htask] at hl
        cases hl
    exact ⟨x, l, by rw [hothers x, if_neg hx, hl], hne⟩

end TaskArguments

open TaskArguments

def ArgumentOp.run (size : ObjectID → ℕ) (maxBytes : ℕ) : ArgumentOp → EStateM Check TaskArguments Unit
  | .pinTaskArgs available taskId deps =>
    discard (pinTaskArgsIfMemoryAvailable maxBytes (sizesOf size available) taskId deps)
  | .releaseTaskArgs taskId => TaskArguments.releaseTaskArgs taskId

lemma counted_bounded_run {size : ObjectID → ℕ} {maxBytes : ℕ} {a : TaskArguments} (op : ArgumentOp)
    (h : Counted size a ∧ Bounded size maxBytes a) :
    Completes a (op.run size maxBytes) fun _ t => Counted size t ∧ Bounded size maxBytes t := by
  cases op with
  | pinTaskArgs available taskId deps =>
    refine .bind (triple_pinTaskArgsIfMemoryAvailable h.1 maxBytes available taskId deps) fun r => ?_
    exact .pure fun t hpins => hpins.invariant h.1 h.2
  | releaseTaskArgs taskId =>
    exact (triple_releaseTaskArgs h.1 taskId).post fun _ t ht => ⟨ht.1, bounded_of_others h.2 ht.2⟩

lemma reaches_counted_bounded {size : ObjectID → ℕ} {maxBytes : ℕ} {a : TaskArguments}
    (h : Reaches (ArgumentOp.run size maxBytes) (fun _ _ => True) {} a) :
    Counted size a ∧ Bounded size maxBytes a := by
  refine h.invariant (I := fun a => Counted size a ∧ Bounded size maxBytes a) ?_
    fun op s _ hs => counted_bounded_run op hs
  exact ⟨counted_start size, (counted_start size).bounded_of_bytes_le (zero_le _)⟩

/-- Pinned arguments are counted, and bounded by the limit but for the tasks that are over
it by themselves. A request that fails for lack of memory leaves some just if its task is
not the only one that is executing with arguments. -/
theorem pinned_arguments_exact (size : ObjectID → ℕ) (maxBytes : ℕ) {a : TaskArguments}
    (h : Reaches (ArgumentOp.run size maxBytes) (fun _ _ => True) {} a) :
    (∀ o, a.pinnedTaskArguments.lookup o = if a.occurrences o = 0 then none else some (size o, a.occurrences o)) ∧
    a.pinnedTaskArgumentsBytes = ∑ o ∈ a.pinnedTaskArguments.keys.toFinset, size o ∧
    (maxBytes ≠ 0 → ∑ o ∈ a.argumentsWithinLimit size maxBytes, size o ≤ maxBytes) ∧
    ∀ available taskId deps a',
      pinTaskArgsIfMemoryAvailable maxBytes (sizesOf size available) taskId deps a = .ok .overMemory a' →
      ((a'.executingTaskArgs.keys ≠ [] ∧ a'.pinnedTaskArguments.keys ≠ []) ↔
        (a.executingTaskArgs.lookup taskId ≠ none →
          ∃ x l, x ≠ taskId ∧ a.executingTaskArgs.lookup x = some l ∧ l ≠ [])) := by
  obtain ⟨hcounted, hbounded⟩ := reaches_counted_bounded h
  refine ⟨hcounted.entry, hcounted.bytes_eq, hbounded, fun available taskId deps a' hrun => ?_⟩
  have hpins := (triple_pinTaskArgsIfMemoryAvailable hcounted maxBytes available taskId deps).returned rfl hrun
  exact nonempty_of_overMemory_iff hcounted hpins

def exampleSize (o : ObjectID) : ℕ := if o.index = 1 then 100 else 10

/-- A task that is over the limit by itself is let through, and the next one is not. -/
theorem pinned_arguments_exact_oversize :
    ∃ a a', Reaches (ArgumentOp.run exampleSize 50) (fun _ _ => True) {} a ∧
      pinTaskArgsIfMemoryAvailable 50 (sizesOf exampleSize (some fun _ => true)) 2 [⟨0, 2⟩] a = .ok .overMemory a' ∧
      a'.executingTaskArgs.keys ≠ [] ∧ a'.pinnedTaskArguments.keys ≠ [] := by
  have hrun : (runAll (ArgumentOp.run exampleSize 50) (fun _ _ => True)
      [.pinTaskArgs (some fun _ => true) 1 [⟨0, 1⟩]] {}).map (fun a =>
        (returnedValue (pinTaskArgsIfMemoryAvailable 50 (sizesOf exampleSize (some fun _ => true)) 2 [⟨0, 2⟩]) a,
          a.executingTaskArgs.lookup 2)) = some (some .overMemory, none) := by decide +kernel
  obtain ⟨a, ha, hv⟩ := exists_reaches hrun
  obtain ⟨hresult, hnew⟩ := Prod.mk.inj hv
  obtain ⟨a', ha'⟩ := exists_returnedValue hresult
  exact ⟨a, a', ha, ha', ((pinned_arguments_exact exampleSize 50 ha).2.2.2 _ _ _ _ ha').mpr fun h => absurd hnew h⟩

/-- The same task comes again with a smaller argument while it is executing, and its
arguments are released. -/
theorem repeated_task_leaves_nothing :
    ∃ a a', Reaches (ArgumentOp.run exampleSize 50) (fun _ _ => True) {} a ∧
      pinTaskArgsIfMemoryAvailable 50 (sizesOf exampleSize (some fun _ => true)) 1 [⟨0, 2⟩] a = .ok .overMemory a' ∧
      a'.executingTaskArgs.keys = [] ∧ a'.pinnedTaskArguments.keys = [] := by
  have hrun : (runAll (ArgumentOp.run exampleSize 50) (fun _ _ => True)
      [.pinTaskArgs (some fun _ => true) 1 [⟨0, 1⟩]] {}).map (fun a =>
        match pinTaskArgsIfMemoryAvailable 50 (sizesOf exampleSize (some fun _ => true)) 1 [⟨0, 2⟩] a with
        | .ok r a' => some (r, a'.executingTaskArgs.keys, a'.pinnedTaskArguments.keys)
        | .error _ _ => none) = some (some (.overMemory, [], [])) := by decide +kernel
  obtain ⟨a, ha, hv⟩ := exists_reaches hrun
  split at hv
  case h_1 r a' ha' =>
    obtain ⟨rfl, hkeys⟩ := Prod.mk.inj (Option.some.inj hv)
    obtain ⟨hexecuting, hpinned⟩ := Prod.mk.inj hkeys
    exact ⟨a, a', ha, ha', hexecuting, hpinned⟩
  · cases hv

end AmazonRay.Raylet
