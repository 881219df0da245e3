import AmazonRay.ReferenceCounter.NestingOperations

/-! What holds of nested objects in every run of a `ReferenceCounter`. -/
namespace AmazonRay.ReferenceCounter
open Program

variable {τ : Type}

/-- The state after the calls, or after the check that ended them. -/
def reach (cfg : Config τ) (ops : List Op) (lineage : τ) : State τ :=
  final (ops.forM (Op.run cfg)) { lineage := lineage }

def State.ErasesClean (s : State τ) : Prop :=
  ∀ id ref rest, Event.erase id ref rest ∈ s.history → ref.onDelete = false ∧
    ∀ y inner, rest.lookup y = some inner →
      id ∉ inner.containedInOwned ∧ id ∉ inner.containedInBorrowedIds

/-- Every object that left the scope was counted by the ids in it, and contained ids had entries. -/
def State.UnnestsLinked (s : State τ) : Prop :=
  ∀ id ref table again, Event.unnest id ref table again ∈ s.history →
    (∀ y ∈ ref.contains, ∀ inner, table.lookup y = some inner →
      id ∈ if ref.ownedByUs then inner.containedInOwned else inner.containedInBorrowedIds) ∧
    ∀ y inner, table.lookup y = some inner → ∀ x ∈ inner.containedInBorrowedIds,
      table.lookup x ≠ none

lemma nesting_initial (strict pinning : Bool) (lineage : τ) : Nesting strict pinning {} { lineage := lineage } := by
  have empty : ∀ x (r : Reference), (∅ : ReferenceTable).lookup x ≠ some r := by
    intro x r hx
    rw [AList.lookup_empty] at hx
    cases hx
  exact ⟨rfl, fun _ h => h, fun x r hx => absurd hx (empty x r),
    fun _ _ y i hy => absurd hy (empty y i), fun x r hx => absurd hx (empty x r),
    fun x r hx => absurd hx (empty x r), fun _ h => absurd h List.not_mem_nil⟩

lemma reach_outcome (strict : Bool) (cfg : Config τ) (ops : List Op) (lineage : τ)
    (h : (reach cfg ops lineage).Regular strict cfg.lineagePinningEnabled) :
    (reach cfg ops lineage).Sound strict ∧
      (∀ e, stopped (ops.forM (Op.run cfg)) { lineage := lineage } = some e → e.isNesting = false) ∧
      (stopped (ops.forM (Op.run cfg)) { lineage := lineage } = none →
        Nesting strict cfg.lineagePinningEnabled {} (reach cfg ops lineage)) := by
  have hk : Keeps strict cfg (ops.forM (Op.run cfg)) := Keeps.forM keeps_run ops
  have hrun := hk { lineage := lineage } fun _ =>
    ⟨fun _ he => absurd he List.not_mem_nil, nesting_initial strict _ lineage⟩
  revert h
  unfold reach final stopped
  revert hrun
  cases ops.forM (Op.run cfg) { lineage := lineage } with
  | ok _ t =>
    intro hrun h
    refine ⟨(hrun h).1, ?_, fun _ => (hrun h).2⟩
    rintro e ⟨⟩
  | error e t =>
    intro hrun h
    refine ⟨(hrun h).1, ?_, ?_⟩
    · rintro _ ⟨⟩
      exact (hrun h).2
    · rintro ⟨⟩

/-- In a regular run no entry is erased while its value is pinned or its nesting
is counted, whatever the lineage callback returns. -/
theorem erasesClean_of_regular (cfg : Config τ) (ops : List Op) (lineage : τ)
    (h : (reach cfg ops lineage).Regular true cfg.lineagePinningEnabled) :
    (reach cfg ops lineage).ErasesClean :=
  fun _ _ _ he => (reach_outcome true cfg ops lineage h).1 _ he rfl

/-- In a regular run the checks on nested objects never fail. -/
theorem nestingChecks_hold_of_regular (cfg : Config τ) (ops : List Op) (lineage : τ)
    (h : (reach cfg ops lineage).Regular false cfg.lineagePinningEnabled) :
    (∀ e, stopped (ops.forM (Op.run cfg)) { lineage := lineage } = some e →
      e ≠ .containedInOwnedMissing ∧ e ≠ .containedInBorrowedMissing ∧ e ≠ .nestedOuterMissing) ∧
    (reach cfg ops lineage).UnnestsLinked ∧
    (stopped (ops.forM (Op.run cfg)) { lineage := lineage } = none →
      ∀ y inner, (reach cfg ops lineage).refs.lookup y = some inner →
        ∀ x ∈ inner.containedInBorrowedIds, (reach cfg ops lineage).refs.lookup x ≠ none) := by
  obtain ⟨hsound, hstop, hend⟩ := reach_outcome false cfg ops lineage h
  refine ⟨fun e he => ?_, fun id ref table again he => ?_, fun hn y inner hy x hx => ?_⟩
  · have hne := hstop e he
    refine ⟨?_, ?_, ?_⟩ <;> rintro rfl <;> exact nomatch hne
  · obtain ⟨hlinked, houter⟩ := hsound _ he
    refine ⟨fun y hy inner hi => ?_, houter⟩
    have hm := hlinked y hy inner hi
    cases hown : ref.ownedByUs with
    | true =>
      rw [hown] at hm
      exact hm
    | false =>
      rw [hown] at hm
      exact hm
  · obtain ⟨r, hr, _⟩ := (hend hn).listed false (.inr rfl) y inner hy x hx
    rw [hr]
    exact Option.some_ne_none r

/-- A worker that keeps lineage: task 2 was given the object made by task 1. -/
def pinningWorker : Config Unit where
  rpcAddress := ⟨0, 0⟩
  lineagePinningEnabled := true
  onLineageReleased := some fun id _ => if id = ⟨2, 1⟩ then (0, [⟨1, 1⟩], ()) else (0, [], ())
  stackDepth := 8

/-- A put object is the argument of a task whose return can be reconstructed. The value goes out of scope before the
return does. -/
def putArgument : List Op :=
  [.addOwnedObject ⟨1, 1⟩ [] ⟨0, 0⟩ 1 false none, .addLocalReference ⟨1, 1⟩,
    .setDeleteCallback ⟨1, 1⟩, .updateSubmittedTaskReferences [⟨1, 1⟩] [],
    .addOwnedObject ⟨2, 1⟩ [] ⟨0, 0⟩ 1 true none, .addLocalReference ⟨2, 1⟩,
    .updateFinishedTaskReferences [⟨1, 1⟩] false ⟨1, 0⟩ [], .removeLocalReference ⟨1, 1⟩,
    .removeLocalReference ⟨2, 1⟩]

/-- The entry is erased by the release of its lineage with the value still
pinned: `on_delete` is set and was never called. -/
theorem putArgument_erased_pinned : ¬ (reach pinningWorker putArgument ()).ErasesClean := by
  intro h
  have hany : (reach pinningWorker putArgument ()).history.any (fun e => match e with
      | .erase _ ref _ => ref.onDelete
      | _ => false) = true := by decide +kernel
  obtain ⟨e, he, hd⟩ := List.any_eq_true.mp hany
  cases e with
  | erase id ref rest => exact absurd hd (Bool.eq_false_iff.mp (h id ref rest he).1)
  | unnest => cases hd
  | collect => cases hd
  | nest => cases hd
  | releaseArgument => cases hd
  | pop => cases hd

/-- The argument can be reconstructed and contains an id. It leaves the scope with its last use and is kept for the
lineage until then. -/
def taskArgument : List Op :=
  [.addOwnedObject ⟨3, 1⟩ [] ⟨0, 0⟩ 1 false none,
    .addOwnedObject ⟨1, 1⟩ [⟨3, 1⟩] ⟨0, 0⟩ 1 true none, .addLocalReference ⟨1, 1⟩,
    .setDeleteCallback ⟨1, 1⟩, .updateSubmittedTaskReferences [⟨1, 1⟩] [],
    .addOwnedObject ⟨2, 1⟩ [] ⟨0, 0⟩ 1 true none, .addLocalReference ⟨2, 1⟩,
    .updateFinishedTaskReferences [⟨1, 1⟩] false ⟨1, 0⟩ [], .removeLocalReference ⟨1, 1⟩,
    .removeLocalReference ⟨2, 1⟩]

theorem taskArgument_erased_clean :
    (reach pinningWorker taskArgument ()).Regular true true ∧
    (reach pinningWorker taskArgument ()).refs.keys = [] ∧
    (reach pinningWorker taskArgument ()).ErasesClean :=
  ⟨by decide +kernel, by decide +kernel,
    erasesClean_of_regular pinningWorker taskArgument () (by decide +kernel)⟩

/-- An object with an id in it is kept for its lineage, used again and dropped. -/
def usedAgain : List Op :=
  [.addOwnedObject ⟨3, 1⟩ [] ⟨0, 0⟩ 1 false none, .addLocalReference ⟨3, 1⟩,
    .addOwnedObject ⟨1, 1⟩ [⟨3, 1⟩] ⟨0, 0⟩ 1 true none, .addLocalReference ⟨1, 1⟩,
    .updateSubmittedTaskReferences [⟨1, 1⟩] [],
    .updateFinishedTaskReferences [⟨1, 1⟩] false ⟨1, 0⟩ [], .removeLocalReference ⟨1, 1⟩,
    .updateResubmittedTaskReferences [⟨1, 1⟩],
    .updateFinishedTaskReferences [⟨1, 1⟩] false ⟨1, 0⟩ []]

/-- The out-of-scope branch runs a second time and does not find the link. -/
theorem usedAgain_check_fails :
    stopped (usedAgain.forM (Op.run pinningWorker)) { lineage := () } =
      some .containedInOwnedMissing := by
  decide +kernel

theorem taskArgument_checks_hold :
    (reach pinningWorker taskArgument ()).Regular false true ∧
    stopped (taskArgument.forM (Op.run pinningWorker)) { lineage := () } = none ∧
    (reach pinningWorker taskArgument ()).UnnestsLinked :=
  ⟨by decide +kernel, by decide +kernel,
    (nestingChecks_hold_of_regular pinningWorker taskArgument () (by decide +kernel)).2.1⟩

end AmazonRay.ReferenceCounter
