import AmazonRay.LocalObjects.Programs

/-! A spill that is refused. The objects of a request leave the pinned ones while the list is still being checked. -/
namespace AmazonRay.LocalObjects
open Program List Manager AList

namespace Manager

/-- The manager holds the primary copy of the object. -/
def Primary (m : Manager) (id : ObjectID) : Prop := id ∈ m.pinnedObjects ∨ id ∈ m.objectsPendingSpill

/-- No pinned object stands before the first one that is not a primary copy. -/
def RefusedFirst (m : Manager) (ids : List ObjectID) : Prop :=
  ∀ front id rest, ids = front ++ id :: rest → (∀ x ∈ front, m.Primary x) → ¬m.Primary id →
    ∀ x ∈ front, x ∉ m.pinnedObjects

/-- The two tables and their sizes are the same. -/
structure SameObjects (m t : Manager) : Prop where
  pinnedObjects : t.pinnedObjects = m.pinnedObjects
  objectsPendingSpill : t.objectsPendingSpill = m.objectsPendingSpill
  pinnedObjectsSize : t.pinnedObjectsSize = m.pinnedObjectsSize
  numBytesPendingSpill : t.numBytesPendingSpill = m.numBytesPendingSpill

variable {m : Manager} {id x : ObjectID} {object : PinnedObject} {ids front rest chosen : List ObjectID}

lemma primary_setPending (hid : id ∈ m.pinnedObjects) : (m.setPending id object).Primary x ↔ m.Primary x := by
  by_cases hx : x = id
  · subst hx
    simp [Primary, setPending, hid]
  · simp [Primary, setPending, hx]

/-- The objects before the one that is refused are no longer pinned. -/
lemma chooseObjects_refused (hfront : ∀ x ∈ front, m.Primary x) (hid : ¬m.Primary id) :
    Completes m (chooseObjects (front ++ id :: rest) chosen) fun result t =>
      result = none ∧ t.waitingSpills = m.waitingSpills ∧
        (∀ x, x ∈ t.pinnedObjects ↔ x ∈ m.pinnedObjects ∧ x ∉ front) ∧
        ((∀ x ∈ front, x ∉ m.pinnedObjects) → t = m) := by
  induction front generalizing m chosen with
  | nil =>
    rw [Primary, not_or] at hid
    refine .seen ?_
    rw [lookup_eq_none.mpr hid.1]
    exact .ite (fun hpending => absurd hpending hid.2) fun _ => .done ⟨rfl, rfl, by simp, fun _ => rfl⟩
  | cons y front ih =>
    have hrest x (hx : x ∈ front) : m.Primary x := hfront x (mem_cons_of_mem y hx)
    refine .seen ?_
    cases hlookup : m.pinnedObjects.lookup y with
    | some object =>
      have hy : y ∈ m.pinnedObjects := lookup_isSome.mp (Option.isSome_of_mem hlookup)
      refine .modified ((ih (fun x hx => (primary_setPending hy).mpr (hrest x hx))
        (mt (primary_setPending hy).mp hid)).post ?_)
      rintro result t ⟨hnone, hwaiting, hpinned, -⟩
      refine ⟨hnone, hwaiting, fun x => ?_, fun hnot => absurd hy (hnot y mem_cons_self)⟩
      rw [hpinned, setPending, mem_erase, mem_cons, not_or]
      tauto
    | none =>
      have hy : y ∉ m.pinnedObjects := lookup_eq_none.mp hlookup
      have hpending : y ∈ m.objectsPendingSpill := (hfront y mem_cons_self).resolve_left hy
      refine .ite (fun _ => (ih hrest hid).post ?_) fun hnot => absurd hpending hnot
      rintro result t ⟨hnone, hwaiting, hpinned, hsame⟩
      refine ⟨hnone, hwaiting, fun x => ?_, fun hnot => hsame fun x hx => hnot x (mem_cons_of_mem y hx)⟩
      have hne : x ∈ m.pinnedObjects → x ≠ y := fun hx heq => hy (heq ▸ hx)
      rw [hpinned, mem_cons, not_or]
      tauto

/-- If all are primary copies, a request is made unless none of them is pinned. -/
lemma chooseObjects_accepted (hids : ∀ x ∈ ids, m.Primary x) :
    Completes m (chooseObjects ids chosen) fun result t =>
      (∃ x l, result = some (x :: l) ∧ t.waitingSpills = m.waitingSpills) ∨ (result = some [] ∧ chosen = [] ∧ t = m) := by
  induction ids generalizing m chosen with
  | nil =>
    refine .done ?_
    cases chosen with
    | nil => exact .inr ⟨rfl, rfl, rfl⟩
    | cons x l => exact .inl ⟨x, l, rfl, rfl⟩
  | cons y ids ih =>
    have hrest x (hx : x ∈ ids) : m.Primary x := hids x (mem_cons_of_mem y hx)
    refine .seen ?_
    cases hlookup : m.pinnedObjects.lookup y with
    | some object =>
      have hy : y ∈ m.pinnedObjects := lookup_isSome.mp (Option.isSome_of_mem hlookup)
      refine .modified ((ih fun x hx => (primary_setPending hy).mpr (hrest x hx)).post ?_)
      rintro result t (hsome | ⟨-, hempty, -⟩)
      · exact .inl hsome
      · exact absurd hempty (append_ne_nil_of_right_ne_nil _ (cons_ne_nil _ _))
    | none =>
      have hpending : y ∈ m.objectsPendingSpill := (hids y mem_cons_self).resolve_left (lookup_eq_none.mp hlookup)
      exact .ite (fun _ => ih hrest) fun hnot => absurd hpending hnot

/-- The list is accepted as a whole, or there is a first object that is refused. -/
lemma primary_or_refused (m : Manager) (ids : List ObjectID) : (∀ x ∈ ids, m.Primary x) ∨
    ∃ front id rest, ids = front ++ id :: rest ∧ (∀ x ∈ front, m.Primary x) ∧ ¬m.Primary id := by
  induction ids with
  | nil => exact .inl (by simp)
  | cons y ids ih =>
    by_cases hy : m.Primary y
    · rcases ih with hall | ⟨front, id, rest, rfl, hfront, hid⟩
      · exact .inl (forall_mem_cons.mpr ⟨hy, hall⟩)
      · exact .inr ⟨y :: front, id, rest, rfl, forall_mem_cons.mpr ⟨hy, hfront⟩, hid⟩
    · exact .inr ⟨[], y, ids, rfl, by simp, hy⟩

/-- There is only one first object that is refused. -/
lemma refusedFirst_append (hfront : ∀ x ∈ front, m.Primary x) (hid : ¬m.Primary id) :
    m.RefusedFirst (front ++ id :: rest) ↔ ∀ x ∈ front, x ∉ m.pinnedObjects := by
  refine ⟨fun h => h front id rest rfl hfront hid, fun h front' id' rest' hids hfront' hid' => ?_⟩
  have hsame : front = front' := by
    rcases append_eq_append_iff.mp hids with ⟨l, rfl, hl⟩ | ⟨l, rfl, hl⟩
    all_goals
      cases l with
      | nil => simp
      | cons y l =>
        obtain ⟨rfl, -⟩ := cons.inj hl
        simp_all
  exact hsame ▸ h

end Manager

/-- A spill that sends no request changes nothing if and only if no pinned object stands before the first one that is
not a primary copy. -/
theorem refused_spill_unchanged (m : Manager) (ids : List ObjectID) (callback : ℕ) :
    ∃ t, spillObjects ids (some callback) m = .ok () t ∧
      ((t.waitingSpills = m.waitingSpills → m.SameObjects t) ↔ m.RefusedFirst ids) := by
  have hspill : Completes m (spillObjects ids (some callback)) fun _ t =>
      (t.waitingSpills = m.waitingSpills → m.SameObjects t) ↔ m.RefusedFirst ids := by
    rcases m.primary_or_refused ids with hall | ⟨front, id, rest, rfl, hfront, hid⟩
    · have hrefused : m.RefusedFirst ids := by
        rintro front id rest rfl - hid
        exact absurd (hall id (by simp)) hid
      refine .call (chooseObjects_accepted hall) fun result u hu => ?_
      rcases hu with ⟨x, l, rfl, hwaiting⟩ | ⟨rfl, -, rfl⟩
      · refine .updated ⟨fun _ => hrefused, fun _ hsame => ?_⟩
        simp [hwaiting] at hsame
      · exact .updated ⟨fun _ => hrefused, fun _ _ => ⟨rfl, rfl, rfl, rfl⟩⟩
    · rw [refusedFirst_append hfront hid]
      refine .call (chooseObjects_refused hfront hid) fun result u hu => ?_
      obtain ⟨rfl, hwaiting, hpinned, hsame⟩ := hu
      refine .updated ⟨fun h x hx hmem => ?_, fun h _ => ?_⟩
      · rw [← (h hwaiting).pinnedObjects] at hmem
        exact ((hpinned x).mp hmem).2 hx
      · rw [hsame h]
        exact ⟨rfl, rfl, rfl, rfl⟩
  obtain ⟨_, t, hrun, ht⟩ := hspill.returns rfl
  exact ⟨t, hrun, ht⟩

def onePinned : Manager :=
  { numBytesPendingSpill := 0, pinnedObjectsSize := 8, pinnedObjects := (∅ : AList _).insert ⟨0, 1⟩ ⟨8, ⟨0, 0⟩⟩ }

/-- An object that is refused leaves the one before it among those being spilled. -/
theorem refused_spill_strands : ∃ t, spillObjects [⟨0, 1⟩, ⟨0, 2⟩] (some 0) onePinned = .ok () t ∧
    t.calls = [.spillCallback 0 (.invalid "Requested spill for object that is not marked as the primary copy.")] ∧
    t.waitingSpills = [] ∧ t.pinnedObjects ≠ onePinned.pinnedObjects := by
  refine ⟨_, rfl, rfl, rfl, fun h => ?_⟩
  exact absurd (congrArg AList.keys h) (by decide +kernel)

end AmazonRay.LocalObjects
