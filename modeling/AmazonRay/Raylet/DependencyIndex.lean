import AmazonRay.Lib.Runs
import AmazonRay.Lib.Table
import AmazonRay.Raylet.DependencyManager

/-! The index of `DependencyManager`: the required objects are those that a task or a
worker lists. -/
namespace AmazonRay.Raylet
open Program List Table Function ObjectReference

inductive Lister where
  | task (taskId : TaskID)
  | getRequest (workerId : WorkerID)
  | waitRequest (workerId : WorkerID)
  deriving DecidableEq, Repr

namespace ObjectDependencies

variable {e : ObjectDependencies}

def Lists (e : ObjectDependencies) : Lister → Prop
  | .task taskId => taskId ∈ e.dependentTasks
  | .getRequest workerId => workerId ∈ e.dependentGetRequests
  | .waitRequest workerId => workerId ∈ e.dependentWaitRequests

structure Distinct (e : ObjectDependencies) : Prop where
  tasks : e.dependentTasks.Nodup
  getRequests : e.dependentGetRequests.Nodup
  waitRequests : e.dependentWaitRequests.Nodup

lemma empty_iff (e : ObjectDependencies) : e.empty = true ↔ ∀ l, ¬e.Lists l := by
  simp only [ObjectDependencies.empty, Bool.and_eq_true, List.isEmpty_iff, eq_nil_iff_forall_not_mem]
  constructor
  · rintro ⟨⟨htasks, hgets⟩, hwaits⟩ l
    cases l with
    | task t => exact htasks t
    | getRequest w => exact hgets w
    | waitRequest w => exact hwaits w
  · intro hnone
    exact ⟨⟨fun t => hnone (.task t), fun w => hnone (.getRequest w)⟩, fun w => hnone (.waitRequest w)⟩

def addLister (e : ObjectDependencies) : Lister → ObjectDependencies
  | .task taskId => { e with dependentTasks := e.dependentTasks.insert taskId }
  | .getRequest workerId => { e with dependentGetRequests := e.dependentGetRequests.insert workerId }
  | .waitRequest workerId => { e with dependentWaitRequests := e.dependentWaitRequests.insert workerId }

def removeLister (e : ObjectDependencies) : Lister → ObjectDependencies
  | .task taskId => { e with dependentTasks := e.dependentTasks.filter (· ≠ taskId) }
  | .getRequest workerId => { e with dependentGetRequests := e.dependentGetRequests.filter (· ≠ workerId) }
  | .waitRequest workerId => { e with dependentWaitRequests := e.dependentWaitRequests.filter (· ≠ workerId) }

lemma lists_addLister (e : ObjectDependencies) (l x : Lister) : (e.addLister l).Lists x ↔ x = l ∨ e.Lists x := by
  cases l <;> cases x <;> simp [addLister, Lists]

lemma lists_removeLister (e : ObjectDependencies) (l x : Lister) : (e.removeLister l).Lists x ↔ x ≠ l ∧ e.Lists x := by
  cases l <;> cases x <;> simp [removeLister, Lists, and_comm]

lemma Distinct.addLister (h : e.Distinct) (l : Lister) : (e.addLister l).Distinct := by
  cases l with
  | task t => exact { h with tasks := h.tasks.insert }
  | getRequest w => exact { h with getRequests := h.getRequests.insert }
  | waitRequest w => exact { h with waitRequests := h.waitRequests.insert }

lemma Distinct.removeLister (h : e.Distinct) (l : Lister) : (e.removeLister l).Distinct := by
  cases l with
  | task t => exact { h with tasks := h.tasks.filter _ }
  | getRequest w => exact { h with getRequests := h.getRequests.filter _ }
  | waitRequest w => exact { h with waitRequests := h.waitRequests.filter _ }

end ObjectDependencies

section

variable {lists lists' : Lister → List ObjectID} {r : AList fun _ : ObjectID => ObjectDependencies} {o : ObjectID}
  {e : ObjectDependencies} {l : Lister}

def EntryOf (P : Lister → Prop) : Option ObjectDependencies → Prop
  | none => ∀ l, ¬P l
  | some e => (∃ l, P l) ∧ e.Distinct ∧ ∀ l, e.Lists l ↔ P l

def IndexedBy (lists : Lister → List ObjectID) (r : AList fun _ : ObjectID => ObjectDependencies) : Prop :=
  ∀ o, EntryOf (fun l => o ∈ lists l) (r.lookup o)

lemma EntryOf.congr {P P' : Lister → Prop} {entry : Option ObjectDependencies} (h : EntryOf P entry)
    (hP : ∀ l, P' l ↔ P l) : EntryOf P' entry := by
  have heq : P' = P := funext fun l => propext (hP l)
  rwa [heq]

section

variable (h : IndexedBy lists r)
include h

lemma IndexedBy.entry (he : r.lookup o = some e) : (∃ l, o ∈ lists l) ∧ e.Distinct ∧ ∀ l, e.Lists l ↔ o ∈ lists l := by
  have hentry := h o
  rwa [he] at hentry

lemma IndexedBy.not_mem (he : r.lookup o = none) (l : Lister) : o ∉ lists l := by
  have hentry := h o
  rw [he] at hentry
  exact hentry l

lemma IndexedBy.entry_getD (o : ObjectID) (address : WorkerAddress) :
    ((r.lookup o).getD { ownerAddress := address }).Distinct ∧
      ∀ l, ((r.lookup o).getD { ownerAddress := address }).Lists l ↔ o ∈ lists l := by
  cases he : r.lookup o with
  | none =>
    refine ⟨⟨nodup_nil, nodup_nil, nodup_nil⟩, fun l => iff_of_false ?_ (h.not_mem he l)⟩
    cases l <;> exact not_mem_nil
  | some e => exact (h.entry he).2

section

variable (hother : ∀ x l, x ≠ o → (x ∈ lists' l ↔ x ∈ lists l))
include hother

lemma IndexedBy.store (hown : ∀ l, e.Lists l ↔ o ∈ lists' l) (hdistinct : e.Distinct) :
    IndexedBy lists' (if e.empty then r.erase o else r.insert o e) := by
  intro x
  rw [lookup_eraseOrInsert]
  by_cases hx : x = o
  · subst hx
    rw [if_pos rfl]
    by_cases he : e.empty = true
    · rw [if_pos he]
      exact fun l hl => e.empty_iff.mp he l ((hown l).mpr hl)
    · rw [if_neg he]
      rw [e.empty_iff] at he
      push Not at he
      obtain ⟨l, hl⟩ := he
      exact ⟨⟨l, (hown l).mp hl⟩, hdistinct, hown⟩
  · rw [if_neg hx]
    exact (h x).congr fun l => hother x l hx

lemma IndexedBy.insert (hown : ∀ l, e.Lists l ↔ o ∈ lists' l) (hdistinct : e.Distinct) (hl : o ∈ lists' l) :
    IndexedBy lists' (r.insert o e) := by
  have hne : ¬e.empty = true := fun he => e.empty_iff.mp he l ((hown l).mpr hl)
  have hstore := h.store hother hown hdistinct
  rwa [if_neg hne] at hstore

end

lemma IndexedBy.add (l : Lister) (o : ObjectID) (address : WorkerAddress) : IndexedBy (update lists l (o :: lists l))
      (r.insert o (((r.lookup o).getD { ownerAddress := address }).addLister l)) := by
  obtain ⟨hdistinct, hlists⟩ := h.entry_getD o address
  refine h.insert (l := l) (fun x k hx => ?_) (fun k => ?_) (hdistinct.addLister l) ?_
  · by_cases hk : k = l <;> simp [hk, hx]
  · rw [ObjectDependencies.lists_addLister, hlists]
    by_cases hk : k = l <;> simp [hk]
  · simp

end

lemma IndexedBy.remove {rest : List ObjectID} (h : IndexedBy (update lists l (o :: rest)) r)
    (ho : o ∉ rest) (he : r.lookup o = some e) :
    IndexedBy (update lists l rest)
      (if (e.removeLister l).empty then r.erase o else r.insert o (e.removeLister l)) := by
  obtain ⟨-, hdistinct, hlists⟩ := h.entry he
  refine h.store (fun x k hx => ?_) (fun k => ?_) (hdistinct.removeLister l)
  · by_cases hk : k = l <;> simp [hk, hx]
  · rw [ObjectDependencies.lists_removeLister, hlists]
    by_cases hk : k = l <;> simp [hk, ho]

end

namespace DependencyManager

variable {d t u : DependencyManager} {taskId : TaskID} {workerId : WorkerID} {l : Lister} {o : ObjectID} {objects : List ObjectID} {e : ObjectDependencies} {ref : ObjectReference} (lists : Lister → List ObjectID)

def listOf (d : DependencyManager) : Lister → List ObjectID
  | .task taskId => ((d.queuedTaskRequests.lookup taskId).map TaskDependencies.dependencies).getD []
  | .getRequest workerId => ((d.getRequests.lookup workerId).map Prod.fst).getD []
  | .waitRequest workerId => (d.waitRequests.lookup workerId).getD []

lemma listOf_insertTask (d : DependencyManager) (taskId : TaskID) (e : TaskDependencies) :
    { d with queuedTaskRequests := d.queuedTaskRequests.insert taskId e }.listOf =
      update d.listOf (.task taskId) e.dependencies := by
  funext l
  cases l <;> simp [listOf, update_apply, getD_insert]

lemma listOf_eraseTask (d : DependencyManager) (taskId : TaskID) :
    { d with queuedTaskRequests := d.queuedTaskRequests.erase taskId }.listOf = update d.listOf (.task taskId) [] := by
  funext l
  cases l <;> simp [listOf, update_apply, getD_erase]

lemma listOf_insertGet (d : DependencyManager) (workerId : WorkerID) (request : List ObjectID × ℕ) :
    { d with getRequests := d.getRequests.insert workerId request }.listOf =
      update d.listOf (.getRequest workerId) request.1 := by
  funext l
  cases l <;> simp [listOf, update_apply, getD_insert]

lemma listOf_eraseGet (d : DependencyManager) (workerId : WorkerID) :
    { d with getRequests := d.getRequests.erase workerId }.listOf = update d.listOf (.getRequest workerId) [] := by
  funext l
  cases l <;> simp [listOf, update_apply, getD_erase]

lemma listOf_insertWait (d : DependencyManager) (workerId : WorkerID) (request : List ObjectID) :
    { d with waitRequests := d.waitRequests.insert workerId request }.listOf =
      update d.listOf (.waitRequest workerId) request := by
  funext l
  cases l with
  | waitRequest w => by_cases hw : w = workerId <;> simp [listOf, lookup_insert, hw]
  | _ => simp [listOf]

lemma listOf_eraseWait (d : DependencyManager) (workerId : WorkerID) :
    { d with waitRequests := d.waitRequests.erase workerId }.listOf = update d.listOf (.waitRequest workerId) [] := by
  funext l
  cases l with
  | waitRequest w => by_cases hw : w = workerId <;> simp [listOf, lookup_erase, hw]
  | _ => simp [listOf]

lemma listOf_getRequest (d : DependencyManager) (workerId : WorkerID) :
    d.listOf (.getRequest workerId) = ((d.getRequests.lookup workerId).getD ([], 0)).1 := by
  simp only [listOf]
  cases d.getRequests.lookup workerId <;> rfl

structure SameTasks (d t : DependencyManager) : Prop where
  tasks : t.queuedTaskRequests = d.queuedTaskRequests
  localObjects : t.localObjects = d.localObjects

structure SameRequests (d t : DependencyManager) : Prop extends SameTasks d t where
  getRequests : t.getRequests = d.getRequests
  waitRequests : t.waitRequests = d.waitRequests

lemma SameTasks.refl (d : DependencyManager) : SameTasks d d := ⟨rfl, rfl⟩

lemma SameTasks.trans (h : SameTasks d t) (h' : SameTasks t u) : SameTasks d u :=
  ⟨h'.tasks.trans h.tasks, h'.localObjects.trans h.localObjects⟩

lemma SameRequests.refl (d : DependencyManager) : SameRequests d d := ⟨.refl d, rfl, rfl⟩

lemma SameRequests.trans (h : SameRequests d t) (h' : SameRequests t u) : SameRequests d u :=
  ⟨h.toSameTasks.trans h'.toSameTasks, h'.getRequests.trans h.getRequests, h'.waitRequests.trans h.waitRequests⟩

lemma SameRequests.listOf (h : SameRequests d t) : t.listOf = d.listOf := by
  funext l
  cases l <;> simp [DependencyManager.listOf, h.tasks, h.getRequests, h.waitRequests]

structure Tracked (d : DependencyManager) : Prop where
  indexed : IndexedBy d.listOf d.requiredObjects
  nodup : ∀ l, (d.listOf l).Nodup

lemma tracked_start : Tracked {} := by
  have hnone l : ({} : DependencyManager).listOf l = [] := by
    cases l <;> rfl
  constructor
  · intro o l
    simp [hnone]
  · simp [hnone]

lemma Tracked.congr (h : Tracked d) (hlists : t.listOf = d.listOf) (hindexed : IndexedBy d.listOf t.requiredObjects) :
    Tracked t := by
  constructor
  · rwa [hlists]
  · rw [hlists]
    exact h.nodup

section

variable {α : Type} {Q : α → DependencyManager → Prop} {E : Check → DependencyManager → Prop}

lemma triple_findRequired {c : Check} {f : ObjectDependencies → DependencyM α}
    (hnone : d.requiredObjects.lookup o = none → E c d)
    (hsome : ∀ e, d.requiredObjects.lookup o = some e → Triple (· = d) (f e) Q E) :
    Triple (· = d) (findRequired c o >>= f) Q E := by
  refine .call (Q := fun e t => d.requiredObjects.lookup o = some e ∧ t = d) (.seen ?_) ?_
  · cases he : d.requiredObjects.lookup o with
    | none => exact .throw fun t ht => ht ▸ hnone he
    | some e => exact .done ⟨rfl, rfl⟩
  · rintro e t ⟨he, rfl⟩
    exact hsome e he

lemma triple_pull {requests : List ObjectReference} {prio : BundlePriority} {f : ℕ → DependencyM α}
    (h : Triple (fun t => t = { d with
      nextPullId := d.nextPullId + 1, pulls := d.pulls ++ [.pull d.nextPullId requests prio] }) (f d.nextPullId) Q E) :
    Triple (· = d) (pull requests prio >>= f) Q E := by
  refine .call (Q := fun id t => id = d.nextPullId ∧ t = { d with
    nextPullId := d.nextPullId + 1, pulls := d.pulls ++ [.pull d.nextPullId requests prio] }) ?_ ?_
  · exact .seen (.modified (.done ⟨rfl, rfl⟩))
  · rintro _ _ ⟨rfl, rfl⟩
    exact h

lemma stored_removeObjectIfNotNeeded (o : ObjectID) (e : ObjectDependencies) (d : DependencyManager) :
    Completes d (removeObjectIfNotNeeded o e) fun _ t => SameRequests d t ∧
      t.requiredObjects = if e.empty then d.requiredObjects.erase o else d.requiredObjects.insert o e := by
  refine .ite (fun he => ?_) fun he => .updated ⟨⟨⟨rfl, rfl⟩, rfl, rfl⟩, (if_neg he).symm⟩
  refine .bind (Q := fun _ t => SameRequests d t ∧ t.requiredObjects = d.requiredObjects) ?_ fun _ =>
    .update fun t ht => ⟨{ ht.1 with }, by rw [if_pos he, ← ht.2]⟩
  exact .when (fun _ => .updated ⟨⟨⟨rfl, rfl⟩, rfl, rfl⟩, rfl⟩) fun _ => ⟨.refl d, rfl⟩

end

lemma triple_removeListers (c : Check) (hnodup : objects.Nodup) :
    Triple (fun t => SameRequests d t ∧ IndexedBy (update lists l objects) t.requiredObjects) (objects.forM fun o => do
        let entry ← findRequired c o
        removeObjectIfNotNeeded o (entry.removeLister l))
      (fun _ t => SameRequests d t ∧ IndexedBy (update lists l []) t.requiredObjects) fun _ _ => False := by
  refine ((Triple.forM (I := fun rest t => SameRequests d t ∧ rest.Nodup ∧
    IndexedBy (update lists l rest) t.requiredObjects) (fun o rest => .each ?_) objects).pre
    fun t ht => ⟨ht.1, hnodup, ht.2⟩).post fun _ t ht => ⟨ht.1, ht.2.2⟩
  rintro t ⟨hsame, hnodup, hindexed⟩
  obtain ⟨ho, hrest⟩ := nodup_cons.mp hnodup
  refine triple_findRequired (fun hnone => hindexed.not_mem hnone l (by simp)) fun e he => ?_
  refine (stored_removeObjectIfNotNeeded o (e.removeLister l) t).post fun _ u hu => ⟨hsame.trans hu.1, hrest, ?_⟩
  rw [hu.2]
  exact hindexed.remove ho he

section

variable (h : Tracked d) (workerId : WorkerID) (refs : List ObjectReference)
include h

lemma Tracked.cancel (hobjects : d.listOf l = objects) (c : Check)
    {g : DependencyManager → DependencyManager} (hlists : ∀ t, (g t).listOf = update t.listOf l [])
    (hrequired : ∀ t, (g t).requiredObjects = t.requiredObjects) :
    Triple (fun t => SameRequests d t ∧ t.requiredObjects = d.requiredObjects) (do
        objects.forM fun o => do
          let entry ← findRequired c o
          removeObjectIfNotNeeded o (entry.removeLister l)
        modify g)
      (fun _ t => Tracked t ∧ ∃ u, SameRequests d u ∧ t = g u) fun _ _ => False := by
  refine .seq ((triple_removeListers (d := d) d.listOf c (hobjects ▸ h.nodup l)).pre ?_) (.update ?_)
  · rintro t ⟨hsame, hr⟩
    rw [hr, ← hobjects, update_eq_self]
    exact ⟨hsame, h.indexed⟩
  · rintro t ⟨hsame, hindexed⟩
    refine ⟨⟨?_, fun x => ?_⟩, t, hsame, rfl⟩
    · rwa [hlists, hrequired, hsame.listOf]
    · rw [hlists, hsame.listOf, update_apply]
      split
      · exact nodup_nil
      · exact h.nodup x

lemma tracked_cancelWaitRequest : Completes d (cancelWaitRequest workerId) fun _ t => Tracked t ∧ SameTasks d t := by
  refine .seen ?_
  cases hrequest : d.waitRequests.lookup workerId with
  | none => exact .done ⟨h, .refl d⟩
  | some request =>
    have hlist : d.listOf (.waitRequest workerId) = request := by simp [listOf, hrequest]
    refine ((h.cancel hlist .requestedObjectMissing (fun t => t.listOf_eraseWait workerId) fun _ => rfl).pre ?_).post ?_
    · rintro t rfl
      exact ⟨.refl t, rfl⟩
    · rintro _ t ⟨ht, u, hu, rfl⟩
      exact ⟨ht, hu.tasks, hu.localObjects⟩

lemma tracked_cancelGetRequest : Completes d (cancelGetRequest workerId) fun _ t => Tracked t ∧ SameTasks d t := by
  refine .seen ?_
  cases hrequest : d.getRequests.lookup workerId with
  | none => exact .done ⟨h, .refl d⟩
  | some request =>
    have hlist : d.listOf (.getRequest workerId) = request.1 := by simp [listOf, hrequest]
    refine .modified (((h.cancel hlist .requestedObjectMissing (fun t => t.listOf_eraseGet workerId)
      fun _ => rfl).pre ?_).post ?_)
    · rintro t rfl
      exact ⟨⟨⟨rfl, rfl⟩, rfl, rfl⟩, rfl⟩
    · rintro _ t ⟨ht, u, hu, rfl⟩
      exact ⟨ht, hu.tasks, hu.localObjects⟩

def Registered (d : DependencyManager) (taskId : TaskID) : Prop :=
  d.queuedTaskRequests.lookup taskId ≠ none

instance (d : DependencyManager) (taskId : TaskID) : Decidable (d.Registered taskId) :=
  inferInstanceAs (Decidable (_ ≠ none))

lemma tracked_removeTaskDependencies (hqueued : d.Registered taskId) :
    Completes d (removeTaskDependencies taskId) fun _ t => Tracked t ∧
      t.queuedTaskRequests = d.queuedTaskRequests.erase taskId ∧ t.localObjects = d.localObjects := by
  obtain ⟨task, htask⟩ := Option.ne_none_iff_exists'.mp hqueued
  have hlist : d.listOf (.task taskId) = task.dependencies := by simp [listOf, htask]
  refine .seen ?_
  rw [htask]
  refine .bind (.when ?_ ?_)
    fun _ => (h.cancel hlist .dependencyNotRequired (fun t => t.listOf_eraseTask taskId) fun _ => rfl).post ?_
  · exact fun _ => .updated ⟨⟨⟨rfl, rfl⟩, rfl, rfl⟩, rfl⟩
  · exact fun _ => ⟨.refl d, rfl⟩
  · rintro _ t ⟨ht, u, hu, rfl⟩
    exact ⟨ht, by rw [hu.tasks], hu.localObjects⟩

lemma Tracked.list (hnew : ref.objectId ∉ d.listOf l)
    (hlists : t.listOf = update d.listOf l (ref.objectId :: d.listOf l))
    (hrequired : t.requiredObjects = (d.require ref (·.addLister l)).requiredObjects) : Tracked t := by
  constructor
  · rw [hlists, hrequired]
    exact h.indexed.add l ref.objectId ref.ownerAddress
  · intro x
    rw [hlists, update_apply]
    split
    · exact nodup_cons.mpr ⟨hnew, h.nodup l⟩
    · exact h.nodup x

lemma Tracked.setWaitRequestId (he : d.requiredObjects.lookup ref.objectId = some e) (id : ℕ) :
    Tracked (d.require ref fun entry => { entry with waitRequestId := id }) := by
  obtain ⟨⟨l, hl⟩, hdistinct, hlists⟩ := h.indexed.entry he
  have hentry : (d.requiredObjects.lookup ref.objectId).getD { ownerAddress := ref.ownerAddress } = e := by
    rw [he, Option.getD_some]
  refine h.congr (funext fun l => by cases l <;> rfl) (h.indexed.insert (fun _ _ _ => Iff.rfl) (fun x => ?_) ?_ hl)
  · refine Iff.trans ?_ (hlists x)
    rw [hentry]
    cases x <;> exact Iff.rfl
  · rw [hentry]
    exact { hdistinct with }

lemma tracked_waitForObject (ref : ObjectReference) :
    Completes d (waitForObject workerId ref) fun _ t => Tracked t ∧ SameTasks d t := by
  refine .seen (.when (fun hnew => .modified (.call (.updated (Q := fun _ t => Tracked t ∧
    SameTasks d t ∧ t.requiredObjects.lookup ref.objectId ≠ none) ⟨?_, ⟨rfl, rfl⟩, ?_⟩) fun _ t ht => ?_))
      fun _ => ⟨h, .refl d⟩)
  · exact h.list hnew.2 (d.listOf_insertWait workerId _) rfl
  · simp [require]
  · obtain ⟨htracked, hsame, hfound⟩ := ht
    refine triple_findRequired (fun hnone => hfound hnone) fun e he => .when (fun _ => triple_pull
      (.updated ⟨Tracked.setWaitRequestId (e := e) ?_ ?_ _, hsame.trans ⟨rfl, rfl⟩⟩)) fun _ => ⟨htracked, hsame⟩
    · exact htracked.congr rfl htracked.indexed
    · exact he

lemma tracked_startOrUpdateWaitRequest :
    Completes d (startOrUpdateWaitRequest workerId refs) fun _ t => Tracked t ∧ SameTasks d t := by
  refine (Triple.forM (I := fun _ t => Tracked t ∧ SameTasks d t) (fun ref _ => .each fun t ht => ?_) refs).pre ?_
  · exact (tracked_waitForObject ht.1 workerId ref).post fun _ u hu => ⟨hu.1, ht.2.trans hu.2⟩
  · rintro t rfl
    exact ⟨h, .refl t⟩

lemma tracked_getObject (modified : Bool) (ref : ObjectReference) :
    Completes d (getObject workerId modified ref) fun _ t => Tracked t ∧ SameTasks d t := by
  refine .seen (.ite (fun _ => .done ⟨h, .refl d⟩) fun hnew => .modified (.modified
    (.done ⟨h.list (l := .getRequest workerId) ?_ ?_ rfl, rfl, rfl⟩)))
  · rwa [listOf_getRequest]
  · rw [listOf_getRequest]
    exact d.listOf_insertGet workerId _

lemma Tracked.setGetRequest (id : ℕ) : Tracked { d with
      getRequests := d.getRequests.insert workerId (((d.getRequests.lookup workerId).getD ([], 0)).1, id) } := by
  refine h.congr ?_ h.indexed
  rw [listOf_insertGet, ← listOf_getRequest, update_eq_self]

lemma triple_requestedRefs {c : Check} (hobjects : ∀ o ∈ objects, o ∈ d.listOf l) (refs : List ObjectReference) :
    Completes d (objects.foldlM (fun refs id => do
      let entry ← findRequired c id
      pure (refs ++ [⟨id, entry.ownerAddress⟩])) refs) fun _ t => t = d := by
  induction objects generalizing refs with
  | nil => exact .done rfl
  | cons o objects ih =>
    refine .bind (triple_findRequired (fun hnone => ?_) fun e _ => .done rfl)
      fun refs => ih (fun x hx => hobjects x (mem_cons_of_mem o hx)) refs
    exact h.indexed.not_mem hnone l (hobjects o mem_cons_self)

lemma tracked_startOrUpdateGetRequest :
    Completes d (startOrUpdateGetRequest workerId refs) fun _ t => Tracked t ∧ SameTasks d t := by
  refine .modified (.call ((Triple.foldlM (I := fun _ _ t => Tracked t ∧ SameTasks d t)
    (fun modified ref _ => .each fun t ht => ?_) refs false).pre ?_) fun modified t ht => .when (fun _ => ?_)
      fun _ => ht)
  · exact (tracked_getObject ht.1 workerId modified ref).post fun _ u hu => ⟨hu.1, ht.2.trans hu.2⟩
  · rintro t rfl
    exact ⟨h.setGetRequest workerId _, rfl, rfl⟩
  refine .seen (.bind (triple_requestedRefs (l := .getRequest workerId) ht.1 (fun o ho => ?_) [])
    fun refs => triple_pull ?_)
  · rwa [listOf_getRequest]
  have hset := ht.1.setGetRequest workerId t.nextPullId
  refine .bind (Q := fun _ u => (SameTasks t u ∧ u.requiredObjects = t.requiredObjects) ∧
    u.getRequests = t.getRequests ∧ u.waitRequests = t.waitRequests) (.when (fun _ => .updated ?_) fun _ => ?_)
      fun _ => .update fun u hu => ?_
  · exact ⟨⟨⟨rfl, rfl⟩, rfl⟩, rfl, rfl⟩
  · exact ⟨⟨⟨rfl, rfl⟩, rfl⟩, rfl, rfl⟩
  · obtain ⟨⟨htasks, hrequired⟩, hgets, hwaits⟩ := hu
    refine ⟨hset.congr ?_ (hrequired ▸ hset.indexed), ht.2.trans ⟨htasks.tasks, htasks.localObjects⟩⟩
    funext l
    cases l <;> simp [listOf, htasks.tasks, hgets, hwaits]

end

lemma indexed_forM_require (objects : List ObjectID)
    (h : IndexedBy (update lists (.task taskId) objects) d.requiredObjects) (refs : List ObjectReference) :
    Completes d (refs.forM fun ref => modify fun d => d.require ref fun entry =>
        { entry with dependentTasks := entry.dependentTasks.insert taskId } : DependencyM Unit)
      fun _ t => SameRequests d t ∧ IndexedBy (update lists (.task taskId)
        (refs.reverse.map objectId ++ objects)) t.requiredObjects := by
  induction refs generalizing d objects with
  | nil => exact .done ⟨.refl d, h⟩
  | cons ref refs ih =>
    have hadd := h.add (.task taskId) ref.objectId ref.ownerAddress
    rw [update_self, update_idem] at hadd
    refine .modified ((ih _ hadd).post fun _ t ht => ⟨{ ht.1 with }, ?_⟩)
    simpa using ht.2

lemma tracked_requestTaskDependencies (h : Tracked d) (hnew : ¬d.Registered taskId) (refs : List ObjectReference) :
    Completes d (requestTaskDependencies taskId refs) fun _ t => Tracked t ∧
      t.localObjects = d.localObjects ∧ ∃ pullRequestId, t.queuedTaskRequests = d.queuedTaskRequests.insert taskId
        { dependencies := (refs.map objectId).dedup
          numMissingDependencies := ((refs.map objectId).dedup.filter (· ∉ d.localObjects)).length
          pullRequestId } := by
  have hnone := not_not.mp hnew
  have hlist : d.listOf (.task taskId) = [] := by simp [listOf, hnone]
  refine .seen (.passing hnone (.modified (.call (indexed_forM_require d.listOf [] ?_ refs) fun _ t ht => .seen ?_)))
  · rw [← hlist, update_eq_self]
    exact h.indexed
  obtain ⟨hsame, hindexed⟩ := ht
  refine .call (Q := fun _ u => SameRequests t u ∧ u.requiredObjects = t.requiredObjects) (.ite
    (fun _ => .done ⟨.refl t, rfl⟩) fun _ => .seen (.modified (.done ⟨⟨⟨rfl, rfl⟩, rfl, rfl⟩, rfl⟩)))
      fun id u hu => .modified (.done ?_)
  have hsame' := hsame.trans hu.1
  have hlists : ∀ e, { u with queuedTaskRequests := u.queuedTaskRequests.insert taskId e }.listOf =
      update d.listOf (.task taskId) e.dependencies := by
    intro e
    rw [listOf_insertTask, hsame'.listOf, listOf_insertTask, update_idem]
  refine ⟨⟨?_, fun x => ?_⟩, hsame'.localObjects, id, ?_⟩
  · rw [hlists, hu.2]
    refine fun o => (hindexed o).congr fun l => ?_
    by_cases hl : l = .task taskId <;> simp [hl]
  · rw [hlists, update_apply]
    split
    · exact nodup_dedup _
    · exact h.nodup x
  · rw [hsame'.tasks, AList.insert_insert, hsame.localObjects]
def recounted (count : ℕ → ℕ) (o : ObjectID) (e : TaskDependencies) : TaskDependencies :=
  if o ∈ e.dependencies then { e with numMissingDependencies := count e.numMissingDependencies } else e

/-- The tasks that depend on the object are recounted, and the selected ones returned. -/
structure Recounts (count : ℕ → ℕ) (selected : ℕ → Bool) (o : ObjectID) (d : DependencyManager) (ids : List TaskID)
    (t : DependencyManager) : Prop where
  tasks : ∀ x, t.queuedTaskRequests.lookup x = (d.queuedTaskRequests.lookup x).map (recounted count o)
  nodup : ids.Nodup
  mem : ∀ x, x ∈ ids ↔ ∃ e, d.queuedTaskRequests.lookup x = some e ∧ o ∈ e.dependencies ∧
    selected e.numMissingDependencies = true

section

variable {count : ℕ → ℕ} {selected : ℕ → Bool} {ids : List TaskID}

lemma triple_recountTasks (acc : List TaskID) (hnodup : ids.Nodup) (hqueued : ∀ x ∈ ids, d.Registered x) :
    Completes d (ids.foldlM (recountTask count selected) acc) fun out t =>
      t = { d with queuedTaskRequests := t.queuedTaskRequests } ∧
      (∀ x, t.queuedTaskRequests.lookup x = if x ∈ ids then (d.queuedTaskRequests.lookup x).map fun e =>
        { e with numMissingDependencies := count e.numMissingDependencies } else d.queuedTaskRequests.lookup x) ∧
      out = acc ++ ids.filter fun x => (d.queuedTaskRequests.lookup x).any (selected ·.numMissingDependencies) := by
  induction ids generalizing d acc with
  | nil => exact .done ⟨rfl, fun _ => rfl, (append_nil acc).symm⟩
  | cons i ids ih =>
    obtain ⟨hi, hnodup⟩ := nodup_cons.mp hnodup
    obtain ⟨e, he⟩ := Option.ne_none_iff_exists'.mp (hqueued i mem_cons_self)
    have hne : ∀ x ∈ ids, x ≠ i := fun x hx hxi => hi (hxi ▸ hx)
    refine .call (Q := fun out t => out = (if selected e.numMissingDependencies then acc ++ [i] else acc) ∧
      t = { d with queuedTaskRequests := (d.queuedTaskRequests.insert i
        { e with numMissingDependencies := count e.numMissingDependencies }) }) (.seen ?_) ?_
    · rw [he]
      exact .modified (.done ⟨rfl, rfl⟩)
    rintro _ _ ⟨rfl, rfl⟩
    refine (ih _ hnodup fun x hx => ?_).post fun out t ht => ⟨?_, fun x => ?_, ?_⟩
    · rw [Registered, lookup_insert, if_neg (hne x hx)]
      exact hqueued x (mem_cons_of_mem i hx)
    · rw [ht.1]
    · rw [ht.2.1, lookup_insert]
      by_cases hx : x = i
      · subst hx
        simp [hi, he]
      · simp [hx]
    · have hsame : ∀ x ∈ ids, ((d.queuedTaskRequests.insert i
          { e with numMissingDependencies := count e.numMissingDependencies }).lookup x).any
            (selected ·.numMissingDependencies) =
          (d.queuedTaskRequests.lookup x).any (selected ·.numMissingDependencies) := by
        intro x hx
        rw [lookup_insert, if_neg (hne x hx)]
      rw [ht.2.2, filter_congr hsame]
      by_cases hs : selected e.numMissingDependencies = true <;> simp [hs, he]

lemma recounts_of (hnodup : ids.Nodup) (hids : ∀ x, x ∈ ids ↔ o ∈ d.listOf (.task x))
    (htasks : ∀ x, t.queuedTaskRequests.lookup x = if x ∈ ids then (d.queuedTaskRequests.lookup x).map fun e =>
        { e with numMissingDependencies := count e.numMissingDependencies } else d.queuedTaskRequests.lookup x) :
    Recounts count selected o d
      (ids.filter fun x => (d.queuedTaskRequests.lookup x).any (selected ·.numMissingDependencies)) t := by
  have hmem : ∀ x e, d.queuedTaskRequests.lookup x = some e → (x ∈ ids ↔ o ∈ e.dependencies) := by
    intro x e he
    simp [hids, listOf, he]
  refine ⟨fun x => ?_, hnodup.filter _, fun x => ?_⟩
  · rw [htasks]
    cases he : d.queuedTaskRequests.lookup x with
    | none => simp
    | some e => by_cases ho : o ∈ e.dependencies <;> simp [hmem x e he, ho, recounted]
  · rw [mem_filter]
    cases he : d.queuedTaskRequests.lookup x with
    | none => simp
    | some e => simp [hmem x e he]

lemma Recounts.listOf_task (h : Recounts count selected o d ids t) (x : TaskID) :
    t.listOf (.task x) = d.listOf (.task x) := by
  have hdependencies : TaskDependencies.dependencies ∘ recounted count o = TaskDependencies.dependencies := by
    funext e
    simp only [comp, recounted]
    split <;> rfl
  rw [listOf, listOf, h.tasks, Option.map_map, hdependencies]

lemma Recounts.registered (h : Recounts count selected o d ids t) (x : TaskID) : t.Registered x ↔ d.Registered x := by
  simp [Registered, h.tasks]

end

lemma Tracked.queued (h : Tracked d) (he : d.requiredObjects.lookup o = some e) :
    ∀ x ∈ e.dependentTasks, d.Registered x := by
  intro x hx hnone
  have hlisted := ((h.indexed.entry he).2.2 (.task x)).mp hx
  simp [listOf, hnone] at hlisted

lemma tracked_handleObjectMissing (h : Tracked d) (o : ObjectID) :
    Triple (· = d) (handleObjectMissing o) (fun ids t => Tracked t ∧
      t.localObjects = d.localObjects.filter (· ≠ o) ∧ Recounts (· + 1) (· == 0) o d ids t)
      fun c _ => c = .objectNotLocal ∧ o ∉ d.localObjects := by
  refine .seen (.seq (.checked fun ho _ _ => ⟨rfl, ho⟩) (.given fun _ => .modified (.seen ?_)))
  cases he : d.requiredObjects.lookup o with
  | none =>
    refine .done ⟨h.congr rfl h.indexed, rfl, recounts_of nodup_nil (fun x => ?_) fun _ => rfl⟩
    simp [h.indexed.not_mem he]
  | some e =>
    obtain ⟨-, hdistinct, hlists⟩ := h.indexed.entry he
    refine (triple_recountTasks [] hdistinct.tasks ?_).conseq (fun t ht => ht) ?_ fun _ _ hf => hf.elim
    · exact h.queued he
    rintro ids t ⟨hframe, htasks, rfl⟩
    have hrecounts : Recounts (· + 1) (· == 0) o d _ t := recounts_of hdistinct.tasks (fun x => hlists (.task x)) htasks
    refine ⟨h.congr (funext fun l => ?_) (by rw [hframe]; exact h.indexed), by rw [hframe], hrecounts⟩
    cases l with
    | task x => exact hrecounts.listOf_task x
    | getRequest w => rw [hframe, listOf, listOf]
    | waitRequest w => rw [hframe, listOf, listOf]

lemma triple_waitedObjectLocal {workers : List WorkerID} (hnodup : workers.Nodup)
    (hworkers : ∀ w ∈ workers, o ∈ d.listOf (.waitRequest w)) :
    Completes d (workers.forM (waitedObjectLocal o)) fun _ t =>
      t = { d with waitRequests := t.waitRequests } ∧ ∀ w, t.listOf (.waitRequest w) =
        if w ∈ workers then (d.listOf (.waitRequest w)).filter (· ≠ o) else d.listOf (.waitRequest w) := by
  induction workers generalizing d with
  | nil => exact .done ⟨rfl, fun _ => rfl⟩
  | cons w workers ih =>
    obtain ⟨hw, hnodup⟩ := nodup_cons.mp hnodup
    have ho := hworkers w mem_cons_self
    refine .call (Q := fun _ t => t = { d with waitRequests := t.waitRequests } ∧
      t.listOf = update d.listOf (.waitRequest w) ((d.listOf (.waitRequest w)).filter (· ≠ o)))
      (.seen ?_) ?_
    · cases hrequest : d.waitRequests.lookup w with
      | none => simp [listOf, hrequest] at ho
      | some request =>
        have hlist : d.listOf (.waitRequest w) = request := by simp [listOf, hrequest]
        refine .passing (hlist ▸ ho) (.updated ⟨rfl, ?_⟩)
        rw [hlist]
        by_cases hnil : request.filter (· ≠ o) = []
        · rw [if_pos hnil, hnil]
          exact d.listOf_eraseWait w
        · rw [if_neg hnil]
          exact d.listOf_insertWait w _
    rintro _ t ⟨hframe, hlists⟩
    have hother : ∀ x, x ≠ w → t.listOf (.waitRequest x) = d.listOf (.waitRequest x) := by
      intro x hx
      simp [hlists, hx]
    refine (ih hnodup fun x hx => ?_).post fun _ u hu => ⟨?_, fun x => ?_⟩
    · rw [hother x fun hxw => hw (hxw ▸ hx)]
      exact hworkers x (mem_cons_of_mem w hx)
    · rw [hu.1, hframe]
    · rw [hu.2]
      by_cases hx : x = w
      · simp [hx, hw, hlists]
      · simp [hx, hother x hx]

lemma Tracked.arrive (h : Tracked d) (he : d.requiredObjects.lookup o = some e)
    (htasks : ∀ x, t.listOf (.task x) = d.listOf (.task x)) (hgets : t.getRequests = d.getRequests)
    (hwaits : ∀ w, t.listOf (.waitRequest w) = (d.listOf (.waitRequest w)).filter (· ≠ o))
    (hrequired : t.requiredObjects =
      if ({ e with dependentWaitRequests := [], waitRequestId := 0 } : ObjectDependencies).empty
        then d.requiredObjects.erase o
        else d.requiredObjects.insert o { e with dependentWaitRequests := [], waitRequestId := 0 }) : Tracked t := by
  obtain ⟨-, hdistinct, hlists⟩ := h.indexed.entry he
  have hgets : ∀ w, t.listOf (.getRequest w) = d.listOf (.getRequest w) := fun w => by rw [listOf, hgets, listOf]
  refine ⟨hrequired ▸ h.indexed.store (fun x l hx => ?_) (fun l => ?_) ⟨hdistinct.tasks, hdistinct.getRequests, .nil⟩,
    fun l => ?_⟩
  · cases l <;> simp [htasks, hgets, hwaits, hx]
  · cases l with
    | task x => exact htasks x ▸ hlists (.task x)
    | getRequest w => exact hgets w ▸ hlists (.getRequest w)
    | waitRequest w => simp [hwaits, ObjectDependencies.Lists]
  · cases l with
    | task x => exact htasks x ▸ h.nodup _
    | getRequest w => exact hgets w ▸ h.nodup _
    | waitRequest w => exact hwaits w ▸ (h.nodup _).filter _

lemma tracked_handleObjectLocal (h : Tracked d) (o : ObjectID) :
    Triple (· = d) (handleObjectLocal o) (fun ids t => Tracked t ∧ t.localObjects = o :: d.localObjects ∧
      Recounts (fun n => (n + (2 ^ 64 - 1)) % 2 ^ 64) (· == 1) o d ids t)
      fun c _ => c = .objectAlreadyLocal ∧ o ∈ d.localObjects := by
  refine .seen (.seq (.checked fun ho _ _ => ⟨rfl, not_not.mp ho⟩) (.given fun _ => .modified (.seen ?_)))
  cases he : d.requiredObjects.lookup o with
  | none =>
    refine .done ⟨h.congr rfl h.indexed, rfl, recounts_of nodup_nil (fun x => ?_) fun _ => rfl⟩
    simp [h.indexed.not_mem he]
  | some e =>
    obtain ⟨-, hdistinct, hlists⟩ := h.indexed.entry he
    refine .call ((triple_recountTasks [] hdistinct.tasks ?_).weaken fun _ _ hf => hf.elim) ?_
    · exact h.queued he
    rintro ids t ⟨hframe, htasks, rfl⟩
    have hrecounts : Recounts (fun n => (n + (2 ^ 64 - 1)) % 2 ^ 64) (· == 1) o d _ t :=
      recounts_of hdistinct.tasks (fun x => hlists (.task x)) htasks
    have hwaiting w : t.listOf (.waitRequest w) = d.listOf (.waitRequest w) := by
      rw [hframe, listOf, listOf]
    refine .call ((triple_waitedObjectLocal hdistinct.waitRequests fun w hw => ?_).weaken fun _ _ hf => hf.elim) ?_
    · rw [hwaiting]
      exact (hlists (.waitRequest w)).mp hw
    rintro _ u ⟨hframe', hwaits⟩
    have hwaits w : u.listOf (.waitRequest w) = (d.listOf (.waitRequest w)).filter (· ≠ o) := by
      rw [hwaits, hwaiting]
      by_cases hw : w ∈ e.dependentWaitRequests
      · rw [if_pos hw]
      · rw [if_neg hw, filter_eq_self.mpr]
        exact fun x hx => decide_eq_true fun hxo => hw ((hlists (.waitRequest w)).mpr (hxo ▸ hx))
    refine .call (Q := fun _ v => SameRequests u v ∧ v.requiredObjects = u.requiredObjects) (.when
      (fun _ => .updated ⟨⟨⟨rfl, rfl⟩, rfl, rfl⟩, rfl⟩) fun _ => ⟨.refl u, rfl⟩) fun _ v hv => ?_
    refine .seq ((stored_removeObjectIfNotNeeded o _ v).weaken fun _ _ hf => hf.elim) (.pure fun w hw => ?_)
    have hsame := hv.1.trans hw.1
    have htasks : w.queuedTaskRequests = t.queuedTaskRequests := by rw [hsame.tasks, hframe']
    have hrecounts : Recounts (fun n => (n + (2 ^ 64 - 1)) % 2 ^ 64) (· == 1) o d _ w :=
      { hrecounts with tasks := htasks ▸ hrecounts.tasks }
    refine ⟨h.arrive he hrecounts.listOf_task ?_ (fun x => hsame.listOf ▸ hwaits x) ?_, ?_, hrecounts⟩
    · rw [hsame.getRequests, hframe', hframe]
    · rw [hw.2, hv.2, hframe', hframe]
    · rw [hsame.localObjects, hframe', hframe]

lemma tracked_run (h : Tracked d) (op : DependencyOp) :
    Triple (· = d) op.run (fun _ t => Tracked t ∧ ∀ x, t.Registered x ↔ d.Registered x)
      fun c _ => c = .objectNotLocal ∨ c = .objectAlreadyLocal := by
  have hsame : ∀ t, Tracked t ∧ SameTasks d t → Tracked t ∧ ∀ x, t.Registered x ↔ d.Registered x := by
    intro t ht
    simp [Registered, ht.1, ht.2.tasks]
  cases op with
  | startOrUpdateWaitRequest w refs =>
    exact (tracked_startOrUpdateWaitRequest h w refs).conseq (fun _ ht => ht) (fun _ => hsame) fun _ _ hf => hf.elim
  | cancelWaitRequest w =>
    exact (tracked_cancelWaitRequest h w).conseq (fun _ ht => ht) (fun _ => hsame) fun _ _ hf => hf.elim
  | startOrUpdateGetRequest w refs =>
    exact (tracked_startOrUpdateGetRequest h w refs).conseq (fun _ ht => ht) (fun _ => hsame) fun _ _ hf => hf.elim
  | cancelGetRequest w =>
    exact (tracked_cancelGetRequest h w).conseq (fun _ ht => ht) (fun _ => hsame) fun _ _ hf => hf.elim
  | handleObjectMissing o =>
    exact .bind ((tracked_handleObjectMissing h o).weaken fun _ _ he => .inl he.1)
      fun _ => .pure fun _ ht => ⟨ht.1, ht.2.2.registered⟩
  | handleObjectLocal o =>
    exact .bind ((tracked_handleObjectLocal h o).weaken fun _ _ he => .inr he.1)
      fun _ => .pure fun _ ht => ⟨ht.1, ht.2.2.registered⟩

end DependencyManager
end AmazonRay.Raylet
