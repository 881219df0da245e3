import AmazonRay.Lib.Handles
import AmazonRay.Raylet.MissingDependencies

/-! The pulls of a `DependencyManager`: each is stored until it is canceled, and only a
stored one is canceled. -/
namespace AmazonRay.Raylet
open Program Handles Table Function

inductive PullSlot where
  | task (taskId : TaskID)
  | getRequest (workerId : WorkerID)
  | waitRequest (objectId : ObjectID)
  deriving DecidableEq, Repr

def PullCall.event : PullCall → Event
  | .pull id _ _ => .acquired id
  | .cancelPull id => .released id

namespace DependencyManager

def pullIds (d : DependencyManager) : PullSlot → ℕ
  | .task taskId => ((d.queuedTaskRequests.lookup taskId).map TaskDependencies.pullRequestId).getD 0
  | .getRequest workerId => ((d.getRequests.lookup workerId).map Prod.snd).getD 0
  | .waitRequest o => ((d.requiredObjects.lookup o).map ObjectDependencies.waitRequestId).getD 0

def events (d : DependencyManager) : List Event := d.pulls.map PullCall.event

def Holds (slots : PullSlot → ℕ) (d : DependencyManager) : Prop := Kept slots d.nextPullId d.events

variable {d t : DependencyManager} {slots : PullSlot → ℕ} {k : PullSlot}

variable {r : Option PullSlot} {workerId : WorkerID} {id : ℕ} {c : Check} (count : ℕ → ℕ) (selected : ℕ → Bool)

lemma pullIds_insertTask (d : DependencyManager) (taskId : TaskID) (e : TaskDependencies) :
    { d with queuedTaskRequests := d.queuedTaskRequests.insert taskId e }.pullIds =
      update d.pullIds (.task taskId) e.pullRequestId := by
  funext k
  cases k <;> simp [pullIds, update_apply, getD_insert]

lemma pullIds_eraseTask (d : DependencyManager) (taskId : TaskID) :
    { d with queuedTaskRequests := d.queuedTaskRequests.erase taskId }.pullIds = update d.pullIds (.task taskId) 0 := by
  funext k
  cases k <;> simp [pullIds, update_apply, getD_erase]

lemma pullIds_insertGet (d : DependencyManager) (workerId : WorkerID) (request : List ObjectID × ℕ) :
    { d with getRequests := d.getRequests.insert workerId request }.pullIds =
      update d.pullIds (.getRequest workerId) request.2 := by
  funext k
  cases k <;> simp [pullIds, update_apply, getD_insert]

lemma pullIds_eraseGet (d : DependencyManager) (workerId : WorkerID) :
    { d with getRequests := d.getRequests.erase workerId }.pullIds = update d.pullIds (.getRequest workerId) 0 := by
  funext k
  cases k <;> simp [pullIds, update_apply, getD_erase]

lemma pullIds_insertRequired (d : DependencyManager) (o : ObjectID) (e : ObjectDependencies) :
    { d with requiredObjects := d.requiredObjects.insert o e }.pullIds =
      update d.pullIds (.waitRequest o) e.waitRequestId := by
  funext k
  cases k <;> simp [pullIds, update_apply, getD_insert]

lemma pullIds_eraseRequired (d : DependencyManager) (o : ObjectID) :
    { d with requiredObjects := d.requiredObjects.erase o }.pullIds = update d.pullIds (.waitRequest o) 0 := by
  funext k
  cases k <;> simp [pullIds, update_apply, getD_erase]

lemma waitRequestId_removeLister (e : ObjectDependencies) (l : Lister) :
    (e.removeLister l).waitRequestId = e.waitRequestId := by
  cases l <;> rfl

lemma pullIds_require (d : DependencyManager) (ref : ObjectReference) (l : Lister) :
    (d.require ref (·.addLister l)).pullIds = d.pullIds := by
  apply (d.pullIds_insertRequired ref.objectId _).trans
  rw [update_eq_self_iff, pullIds]
  cases d.requiredObjects.lookup ref.objectId <;> cases l <;> rfl

lemma Holds.pull (h : Holds slots d) (hk : slots k = 0) (requests : List ObjectReference) (prio : BundlePriority) :
    Holds (update slots k d.nextPullId)
      { d with nextPullId := d.nextPullId + 1, pulls := d.pulls ++ [.pull d.nextPullId requests prio] } := by
  have hkept := Kept.acquire h hk
  unfold Holds events
  rwa [List.map_append]

lemma Holds.cancel (h : Holds slots d) (hk : slots k = id) (hid : id ≠ 0) :
    Holds (update slots k 0) { d with pulls := d.pulls ++ [.cancelPull id] } := by
  subst hk
  have hkept := Kept.release h hid
  unfold Holds events
  rwa [List.map_append]

lemma Holds.replace (h : Holds slots d) (hk : slots k = id) (hid : id ≠ 0) (requests : List ObjectReference)
    (prio : BundlePriority) :
    Holds (update slots k d.nextPullId) { d with
        nextPullId := d.nextPullId + 1
        pulls := d.pulls ++ [.pull d.nextPullId requests prio] ++ [.cancelPull id] } := by
  subst hk
  have hkept := Kept.replace h hid
  unfold Holds events
  rwa [List.map_append, List.map_append]

def withdrawn (r : Option PullSlot) (slots : PullSlot → ℕ) (k : PullSlot) : ℕ := if r = some k then 0 else slots k

lemma withdrawn_none (slots : PullSlot → ℕ) : withdrawn none slots = slots := by
  funext k
  exact if_neg nofun

lemma withdrawn_some (k : PullSlot) (slots : PullSlot → ℕ) : withdrawn (some k) slots = update slots k 0 := by
  funext x
  rw [withdrawn, update_apply]
  simp only [Option.some.injEq, eq_comm]

lemma withdrawn_update (hr : r ≠ some k) (slots : PullSlot → ℕ) (id : ℕ) :
    withdrawn r (update slots k id) = update (withdrawn r slots) k id := by
  funext x
  by_cases hx : x = k
  · rw [hx, update_self, withdrawn, if_neg hr, update_self]
  · rw [update_of_ne hx, withdrawn, withdrawn, update_of_ne hx]

def HoldsBut (r : Option PullSlot) (d : DependencyManager) : Prop := Holds (withdrawn r d.pullIds) d

lemma holds_removeObjectIfNotNeeded {o : ObjectID} {e : ObjectDependencies} (hr : r ≠ some (.waitRequest o)) :
    Triple (fun t => HoldsBut r t ∧ t.pullIds (.waitRequest o) = e.waitRequestId) (removeObjectIfNotNeeded o e)
      (fun _ => HoldsBut r) fun _ _ => False := by
  have hread : ∀ t : DependencyManager, withdrawn r t.pullIds (.waitRequest o) = t.pullIds (.waitRequest o) :=
    fun t => if_neg hr
  refine .ite (fun he => ?_) fun he => .update fun t ht => ?_
  · refine .bind (Q := fun _ t => Holds (update (withdrawn r t.pullIds) (.waitRequest o) 0) t) ?_ fun _ =>
      .update fun t ht => ?_
    · refine .onlyIf (fun hid => .update fun t ht => ?_) fun hid t ht => ?_
      · exact ht.1.cancel ((hread t).trans ht.2) (Nat.pos_iff_ne_zero.mp hid)
      · have hzero : withdrawn r t.pullIds (.waitRequest o) = 0 := (hread t).trans (ht.2.trans (Nat.eq_zero_of_not_pos hid))
        rw [update_eq_self_iff.mpr hzero.symm]
        exact ht.1
    · rw [← withdrawn_update hr, ← pullIds_eraseRequired] at ht
      exact ht
  · have hsame := t.pullIds_insertRequired o e
    rw [update_eq_self_iff.mpr ht.2.symm] at hsame
    have hholds := ht.1
    rw [HoldsBut, ← hsame] at hholds
    exact hholds

lemma holds_removeListers (hr : ∀ o, r ≠ some (.waitRequest o)) (l : Lister)
    (objects : List ObjectID) (d : DependencyManager) :
    Partly (fun t => HoldsBut r t ∧ SameRequests d t) (objects.forM fun o => do
        let entry ← findRequired c o
        removeObjectIfNotNeeded o (entry.removeLister l))
      fun _ t => HoldsBut r t ∧ SameRequests d t := by
  refine (composes_triple _ _).forM (fun o => .each fun t ht => triple_findRequired (fun _ => trivial) fun e he => ?_)
    objects
  have hid : t.pullIds (.waitRequest o) = (e.removeLister l).waitRequestId := by
    simp [pullIds, he, waitRequestId_removeLister]
  refine (((holds_removeObjectIfNotNeeded (hr o)).and (stored_removeObjectIfNotNeeded o (e.removeLister l) t)).conseq
    (fun u hu => ⟨hu ▸ ⟨ht.1, hid⟩, hu⟩) (fun _ u hu => ?_) fun _ _ _ => trivial)
  exact ⟨hu.1, ht.2.trans hu.2.1⟩

def GetsPulled (d : DependencyManager) : Prop :=
  ∀ workerId request, d.getRequests.lookup workerId = some request → (request.2 = 0 ↔ request.1 = [])

/-- Every pull has its request. -/
structure PullsKept (d : DependencyManager) : Prop where
  holds : Holds d.pullIds d
  gets : GetsPulled d

lemma pullsKept_start : PullsKept {} := by
  refine ⟨?_, nofun⟩
  have hnone : ({} : DependencyManager).pullIds = fun _ => 0 := by
    funext k
    cases k <;> rfl
  rw [hnone]
  exact kept_nil

structure SamePulls (d t : DependencyManager) : Prop where
  ids : t.pullIds = d.pullIds
  next : t.nextPullId = d.nextPullId
  pulls : t.pulls = d.pulls
  gets : ∀ w, t.getRequests.lookup w = d.getRequests.lookup w

lemma SamePulls.refl (d : DependencyManager) : SamePulls d d := ⟨rfl, rfl, rfl, fun _ => rfl⟩

lemma SamePulls.trans {u : DependencyManager} (h : SamePulls d t) (h' : SamePulls t u) : SamePulls d u :=
  ⟨h'.ids.trans h.ids, h'.next.trans h.next, h'.pulls.trans h.pulls, fun w => (h'.gets w).trans (h.gets w)⟩

lemma Holds.congr (h : Holds slots d) (hnext : t.nextPullId = d.nextPullId) (hpulls : t.pulls = d.pulls) :
    Holds slots t := by
  rw [Holds, events, hnext, hpulls]
  exact h

lemma PullsKept.congr (hd : PullsKept d) (h : SamePulls d t) : PullsKept t := by
  constructor
  · rw [h.ids]
    exact hd.holds.congr h.next h.pulls
  · intro w request hw
    exact hd.gets w request ((h.gets w).symm.trans hw)

lemma GetsPulled.erase (h : GetsPulled d) (workerId : WorkerID) :
    GetsPulled { d with getRequests := d.getRequests.erase workerId } := by
  intro w request hw
  obtain ⟨-, hw⟩ := lookup_of_erase hw
  exact h w request hw

lemma triple_giveUp {g : DependencyManager → DependencyManager}
    (hr : ∀ o, r ≠ some (.waitRequest o)) (l : Lister) (objects : List ObjectID)
    (hg : ∀ t, HoldsBut r t → SameRequests d t → PullsKept (g t)) :
    Partly (fun t => HoldsBut r t ∧ SameRequests d t) (do
        objects.forM fun o => do
          let entry ← findRequired c o
          removeObjectIfNotNeeded o (entry.removeLister l)
        modify g)
      fun _ => PullsKept :=
  .seq (holds_removeListers hr l objects d) (.update fun t ht => hg t ht.1 ht.2)

lemma GetsPulled.congr (h : GetsPulled d) (ht : t.getRequests = d.getRequests) : GetsPulled t := by
  rwa [GetsPulled, ht]

lemma Holds.withdraw (h : Holds d.pullIds d) (hk : d.pullIds k = id) :
    Yields d (onlyIf (0 < id) (cancelPull id)) fun _ t => HoldsBut (some k) t ∧ SameRequests d t := by
  refine .when (fun hid => .updated ⟨?_, ⟨⟨rfl, rfl⟩, rfl, rfl⟩⟩) fun hid => ⟨?_, .refl d⟩
  · rw [HoldsBut, withdrawn_some]
    exact h.cancel hk (Nat.pos_iff_ne_zero.mp hid)
  · rw [HoldsBut, withdrawn_some, update_eq_self_iff.mpr (hk.trans (Nat.eq_zero_of_not_pos hid)).symm]
    exact h

lemma pullsKept_cancelWaitRequest (h : PullsKept d) (workerId : WorkerID) :
    Yields d (cancelWaitRequest workerId) fun _ => PullsKept := by
  refine .seen ?_
  cases d.waitRequests.lookup workerId with
  | none => exact .done h
  | some request =>
    refine (triple_giveUp (r := none) (d := d) nofun (.waitRequest workerId) request fun t hholds hsame => ?_).pre ?_
    · rw [HoldsBut, withdrawn_none] at hholds
      exact ⟨hholds, h.gets.congr hsame.getRequests⟩
    · rintro t rfl
      refine ⟨?_, .refl t⟩
      rw [HoldsBut, withdrawn_none]
      exact h.holds

lemma pullsKept_cancelGetRequest (h : PullsKept d) (hobjects : (d.getRequests.lookup workerId).map Prod.fst ≠ some []) :
    Yields d (cancelGetRequest workerId) fun _ => PullsKept := by
  refine .seen ?_
  cases hrequest : d.getRequests.lookup workerId with
  | none => exact .done h
  | some request =>
    have hslot : d.pullIds (.getRequest workerId) = request.2 := by simp [pullIds, hrequest]
    refine .modified ((triple_giveUp (r := some (.getRequest workerId)) (d := d) nofun (.getRequest workerId)
      request.1 fun t hholds hsame => ?_).pre ?_)
    · rw [HoldsBut, withdrawn_some, ← pullIds_eraseGet] at hholds
      exact ⟨hholds, (h.gets.congr hsame.getRequests).erase workerId⟩
    · rintro t rfl
      refine ⟨?_, ⟨⟨rfl, rfl⟩, rfl, rfl⟩⟩
      rw [HoldsBut, withdrawn_some]
      exact h.holds.cancel hslot fun hid => hobjects (by
        rw [hrequest, Option.map_some, (h.gets workerId request hrequest).mp hid])

lemma pullsKept_removeTaskDependencies (h : PullsKept d) (taskId : TaskID) :
    Yields d (removeTaskDependencies taskId) fun _ => PullsKept := by
  refine .seen ?_
  cases htask : d.queuedTaskRequests.lookup taskId with
  | none => exact .throw fun _ _ => trivial
  | some task =>
    have hslot : d.pullIds (.task taskId) = task.pullRequestId := by simp [pullIds, htask]
    refine .seq (h.holds.withdraw hslot) (triple_giveUp (r := some (.task taskId)) nofun (.task taskId)
      task.dependencies fun t hholds hsame => ?_)
    rw [HoldsBut, withdrawn_some, ← pullIds_eraseTask] at hholds
    exact ⟨hholds, h.gets.congr hsame.getRequests⟩

lemma samePulls_require (d : DependencyManager) (ref : ObjectReference) (l : Lister) :
    SamePulls d (d.require ref (·.addLister l)) :=
  ⟨d.pullIds_require ref l, rfl, rfl, fun _ => rfl⟩

lemma pullsKept_waitForObject (h : PullsKept d) (workerId : WorkerID) (ref : ObjectReference) :
    Yields d (waitForObject workerId ref) fun _ => PullsKept := by
  refine .seen (.when (fun _ => .modified (.call (.updated ?_)
    fun _ t ht => triple_findRequired (fun _ => trivial) fun e he => .when (fun hid => triple_pull
      (.updated ?_)) fun _ => ht)) fun _ => h)
  · refine PullsKept.congr ?_ (samePulls_require _ ref (.waitRequest workerId))
    exact h.congr ⟨rfl, rfl, rfl, fun _ => rfl⟩
  · refine ⟨?_, ht.gets⟩
    rw [require, pullIds_insertRequired]
    refine ht.holds.pull ?_ [ref] .waitRequest
    simpa [pullIds, he] using hid

lemma pullsKept_startOrUpdateWaitRequest (h : PullsKept d) (workerId : WorkerID) (refs : List ObjectReference) :
    Yields d (startOrUpdateWaitRequest workerId refs) fun _ => PullsKept := by
  refine ((composes_triple PullsKept fun _ _ => True).forM (fun ref t ht => ?_) refs).pre fun t ht => ht ▸ h
  exact pullsKept_waitForObject ht workerId ref t rfl

/-- The get request of a worker while objects are added to it: no pull is made yet. -/
structure Extends (workerId : WorkerID) (modified : Bool) (d t : DependencyManager) : Prop where
  ids : t.pullIds = d.pullIds
  next : t.nextPullId = d.nextPullId
  pulls : t.pulls = d.pulls
  other : ∀ w, w ≠ workerId → t.getRequests.lookup w = d.getRequests.lookup w
  same : modified = false → t.getRequests.lookup workerId = d.getRequests.lookup workerId
  objects : modified = true → ((t.getRequests.lookup workerId).getD ([], 0)).1 ≠ []

lemma extends_getObject (workerId : WorkerID) (modified : Bool) (ref : ObjectReference) (d : DependencyManager) :
    Triple (Extends workerId modified d) (getObject workerId modified ref) (fun m => Extends workerId m d)
      fun _ _ => False := by
  refine .each fun t ht => .seen (.ite (fun _ => .done ht) fun _ => .modified
    (.modified (.done ⟨?_, ht.next, ht.pulls, fun w hw => ?_, nofun, fun _ => ?_⟩)))
  · apply (pullIds_require _ ref (.getRequest workerId)).trans
    rw [pullIds_insertGet, ← ht.ids, update_eq_self_iff, pullIds]
    cases t.getRequests.lookup workerId <;> rfl
  · simp only [require]
    rw [lookup_insert, if_neg hw]
    exact ht.other w hw
  · simp [require]

lemma PullsKept.insertGet (h : PullsKept d) (workerId : WorkerID) : PullsKept { d with
      getRequests := d.getRequests.insert workerId ((d.getRequests.lookup workerId).getD ([], 0)) } := by
  refine ⟨?_, fun w request hw => ?_⟩
  · have hsame : update d.pullIds (.getRequest workerId) ((d.getRequests.lookup workerId).getD ([], 0)).2 =
        d.pullIds := by
      rw [update_eq_self_iff, pullIds]
      cases d.getRequests.lookup workerId <;> rfl
    rw [pullIds_insertGet, hsame]
    exact h.holds
  · rcases lookup_of_insert hw with ⟨-, rfl⟩ | ⟨-, hw⟩
    · cases hlookup : d.getRequests.lookup workerId with
      | none => exact ⟨fun _ => rfl, fun _ => rfl⟩
      | some => exact h.gets workerId _ hlookup
    · exact h.gets w request hw

lemma PullsKept.repull (h : PullsKept d) (ht : Extends workerId true d t) {pulls : List PullCall}
    (hpulls : Kept (update t.pullIds (.getRequest workerId) t.nextPullId) (t.nextPullId + 1)
      (pulls.map PullCall.event)) :
    PullsKept { t with
      nextPullId := t.nextPullId + 1
      pulls
      getRequests := t.getRequests.insert workerId
        (((t.getRequests.lookup workerId).getD ([], 0)).1, t.nextPullId) } := by
  refine ⟨?_, fun w request hw => ?_⟩
  · have hids := pullIds_insertGet { t with nextPullId := t.nextPullId + 1, pulls } workerId
      (((t.getRequests.lookup workerId).getD ([], 0)).1, t.nextPullId)
    rw [hids]
    exact hpulls
  · rw [lookup_insert] at hw
    by_cases hworker : w = workerId
    · rw [if_pos hworker] at hw
      cases hw
      have hpos := Kept.pos h.holds (.getRequest workerId)
      rw [← ht.next] at hpos
      exact ⟨fun hid => absurd hid hpos.ne', fun hobjects => absurd hobjects (ht.objects rfl)⟩
    · rw [if_neg hworker, ht.other w hworker] at hw
      exact h.gets w request hw

lemma pullsKept_startOrUpdateGetRequest (h : PullsKept d) (workerId : WorkerID) (refs : List ObjectReference) :
    Yields d (startOrUpdateGetRequest workerId refs) fun _ => PullsKept := by
  refine .call (.updated (Q := fun _ => PullsKept) (h.insertGet workerId)) fun _ s hs => ?_
  refine .call ((Triple.foldlM (I := fun _ m => Extends workerId m s) (fun m ref rest => ?_) refs false).pre ?_)
    fun m t ht => .when (fun hm => .seen ?_) fun hm => ?_
  · exact (extends_getObject workerId m ref s).weaken fun _ _ _ => trivial
  · rintro t rfl
    exact ⟨rfl, rfl, rfl, fun _ _ => rfl, fun _ => rfl, nofun⟩
  · subst hm
    have hslot : t.pullIds (.getRequest workerId) = ((t.getRequests.lookup workerId).getD ([], 0)).2 := by
      rw [pullIds]
      cases t.getRequests.lookup workerId <;> rfl
    have hholds : Holds t.pullIds t := by
      rw [ht.ids]
      exact hs.holds.congr ht.next ht.pulls
    refine .bind ((composes_triple (· = t) fun _ _ => True).foldlM (fun refs id => ?_) _ _) fun refs =>
      triple_pull (.bind (Q := fun _ u => ∃ pulls, u = { t with nextPullId := t.nextPullId + 1, pulls } ∧
        Kept (update t.pullIds (.getRequest workerId) t.nextPullId) (t.nextPullId + 1)
          (pulls.map PullCall.event)) (.when (fun hold => .updated ?_) fun hold => ?_) fun _ => .update ?_)
    · exact triple_findRequired (fun _ => trivial) fun e _ => .done rfl
    · exact ⟨_, rfl, hholds.replace hslot hold refs .getRequest⟩
    · exact ⟨_, rfl, hholds.pull (hslot.trans (not_not.mp hold)) refs .getRequest⟩
    · rintro u ⟨pulls, rfl, hkept⟩
      exact hs.repull ht hkept
  · refine hs.congr ⟨ht.ids, ht.next, ht.pulls, fun w => ?_⟩
    by_cases hw : w = workerId
    · exact hw ▸ ht.same (Bool.not_eq_true m ▸ hm)
    · exact ht.other w hw

lemma pullsKept_requestTaskDependencies (h : PullsKept d) (taskId : TaskID) (refs : List ObjectReference) :
    Yields d (requestTaskDependencies taskId refs) fun _ => PullsKept := by
  refine .seen (.seq (.checked fun _ _ _ => trivial) (.given fun hnew => ?_))
  have hzero : d.pullIds (.task taskId) = 0 := by simp [pullIds, hnew]
  refine .modified (.call ((composes_triple (SamePulls d) fun _ _ => True).forM (fun ref => .update
    fun t ht => ht.trans (t.samePulls_require ref (.task taskId))) refs |>.pre ?_) fun _ t ht => .seen ?_)
  · rintro t rfl
    refine ⟨?_, rfl, rfl, fun _ => rfl⟩
    rw [pullIds_insertTask, update_eq_self_iff.mpr hzero.symm]
  have hkept := h.congr ht
  have hslot : t.pullIds (.task taskId) = 0 := ht.ids ▸ hzero
  refine .bind (Q := fun id u => Holds (update u.pullIds (.task taskId) id) u ∧ u.GetsPulled)
    (.ite (fun _ => .done ⟨?_, hkept.gets⟩) fun _ => .seen (.modified (.done ⟨?_, hkept.gets⟩)))
      fun id => .bind (.update fun u hu => ⟨?_, hu.2⟩) fun _ => .skip
  · rw [update_eq_self_iff.mpr hslot.symm]
    exact hkept.holds
  · exact hkept.holds.pull hslot refs .taskArgs
  · rw [pullIds_insertTask]
    exact hu.1

lemma samePulls_recountTask (ids : List TaskID) (taskId : TaskID) (d : DependencyManager) :
    Partly (SamePulls d) (recountTask count selected ids taskId) fun _ => SamePulls d := by
  refine .each fun t ht => .seen ?_
  cases htask : t.queuedTaskRequests.lookup taskId with
  | none => exact .throw fun _ _ => trivial
  | some =>
    refine .modified (.done (ht.trans ⟨?_, rfl, rfl, fun _ => rfl⟩))
    rw [pullIds_insertTask, update_eq_self_iff, pullIds, htask]
    rfl

lemma samePulls_recountTasks (ids acc : List TaskID) :
    Yields d (ids.foldlM (recountTask count selected) acc) fun _ => SamePulls d :=
  ((composes_triple (SamePulls d) fun _ _ => True).foldlM (fun acc taskId => samePulls_recountTask _ _ acc taskId d)
    ids acc).pre fun _ ht => ht ▸ SamePulls.refl d

lemma pullsKept_handleObjectMissing (h : PullsKept d) (o : ObjectID) :
    Yields d (handleObjectMissing o) fun _ => PullsKept := by
  refine .seen (.testing (.modified (.seen ?_)))
  have hkept : PullsKept { d with localObjects := d.localObjects.filter (· ≠ o) } := h.congr ⟨rfl, rfl, rfl, fun _ => rfl⟩
  cases d.requiredObjects.lookup o with
  | none => exact .done hkept
  | some e => exact (samePulls_recountTasks _ _ e.dependentTasks []).post fun _ t ht => hkept.congr ht

lemma samePulls_waitedObjectLocal (o : ObjectID) (workerId : WorkerID) (d : DependencyManager) :
    Partly (SamePulls d) (waitedObjectLocal o workerId) fun _ => SamePulls d := by
  refine .each fun t ht => .seen ?_
  cases t.waitRequests.lookup workerId with
  | none => exact .throw fun _ _ => trivial
  | some =>
    refine .testing (.updated ?_)
    exact ht.trans ⟨rfl, rfl, rfl, fun _ => rfl⟩

lemma pullsKept_handleObjectLocal (h : PullsKept d) (o : ObjectID) :
    Yields d (handleObjectLocal o) fun _ => PullsKept := by
  refine .seen (.testing (.modified (.seen ?_)))
  have hkept : PullsKept { d with localObjects := o :: d.localObjects } := h.congr ⟨rfl, rfl, rfl, fun _ => rfl⟩
  cases ho : d.requiredObjects.lookup o with
  | none => exact .done hkept
  | some e =>
    refine .bind (samePulls_recountTasks _ _ e.dependentTasks []) fun _ => .call
      ((composes_triple _ fun _ _ => True).forM (fun workerId => samePulls_waitedObjectLocal o workerId _) _) fun _ t ht => ?_
    have hkept := hkept.congr ht
    have hslot : t.pullIds (.waitRequest o) = e.waitRequestId := by
      rw [ht.ids]
      simp [pullIds, ho]
    refine .bind (Q := fun _ u => HoldsBut (some (.waitRequest o)) u ∧ u.GetsPulled) ((hkept.holds.withdraw hslot).post
      fun _ u hu => ⟨hu.1, hkept.gets.congr hu.2.getRequests⟩) fun _ => .bind ?_ fun _ => .skip
    refine .ite (fun _ => .bind (Q := fun _ u => HoldsBut (some (.waitRequest o)) u ∧ u.GetsPulled)
      (.onlyIf (fun hid => absurd hid (Nat.lt_irrefl 0)) fun _ _ hu => hu) fun _ => .update fun u hu => ⟨?_, hu.2⟩) fun _ => .update fun u hu => ⟨?_, hu.2⟩
    · rw [pullIds_eraseRequired, ← withdrawn_some]
      exact hu.1
    · rw [pullIds_insertRequired, ← withdrawn_some]
      exact hu.1

/-- Only pulls that are out are canceled, and the pulls that are out are the stored ones. -/
structure PullsExact (d : DependencyManager) : Prop where
  sound : Sound d.events
  stored : ∀ id, id ∈ outstanding d.events ↔ id ≠ 0 ∧ ∃ slot, d.pullIds slot = id

lemma PullsKept.exact (h : PullsKept d) : PullsExact d := ⟨h.holds.sound, h.holds.kept⟩

lemma not_sound_cancelGetRequest (h : PullsKept d) {request : List ObjectID × ℕ} (hrequest : d.getRequests.lookup workerId = some request) (hobjects : request.1 = []) :
    Yields d (cancelGetRequest workerId) fun _ t => ¬Sound t.events := by
  have hid : request.2 = 0 := (h.gets workerId request hrequest).mpr hobjects
  refine .seen ?_
  rw [hrequest]
  refine .seq (.update (Q := fun _ d => ¬Sound d.events) ?_) (.bind ?_ fun _ => .update fun u hu => hu)
  · rintro u rfl hsound
    rw [events, List.map_append] at hsound
    have hmem := (sound_concat.mp hsound).2 _ rfl
    exact ((h.holds.kept _).mp hmem).1 hid
  · rw [hobjects]
    exact .pure fun u hu => hu

end DependencyManager

open DependencyManager

def DependencyCall.CancelsPulled : DependencyCall → DependencyManager → Prop
  | .other (.cancelGetRequest workerId), d => (d.getRequests.lookup workerId).map Prod.fst ≠ some []
  | _, _ => True

lemma pullsKept_run {d : DependencyManager} (call : DependencyCall) (hc : call.CancelsPulled d) (h : PullsKept d) :
    Yields d call.run fun _ => PullsKept := by
  cases call with
  | requestTaskDependencies taskId refs =>
    exact .bind (pullsKept_requestTaskDependencies h taskId refs) fun _ => .pure fun _ ht => ht
  | removeTaskDependencies => exact pullsKept_removeTaskDependencies h _
  | other op =>
    cases op with
    | startOrUpdateWaitRequest w => exact pullsKept_startOrUpdateWaitRequest h w _
    | cancelWaitRequest w => exact pullsKept_cancelWaitRequest h w
    | startOrUpdateGetRequest w => exact pullsKept_startOrUpdateGetRequest h w _
    | cancelGetRequest => exact pullsKept_cancelGetRequest h hc
    | handleObjectMissing o => exact .bind (pullsKept_handleObjectMissing h o) fun _ => .pure fun _ ht => ht
    | handleObjectLocal o => exact .bind (pullsKept_handleObjectLocal h o) fun _ => .pure fun _ ht => ht

/-- In every state of a run in which no get request without objects is canceled, the
pulls are exact, and they stay so after the next call exactly if it is no such one. -/
theorem pulls_exact {d : DependencyManager} (h : Reaches DependencyCall.run DependencyCall.CancelsPulled {} d) :
    d.PullsExact ∧ ∀ call t, DependencyCall.run call d = .ok () t → (t.PullsExact ↔ call.CancelsPulled d) := by
  have hkept : PullsKept d := h.invariant pullsKept_start
    fun call _ hc hs => pullsKept_run call hc hs
  refine ⟨hkept.exact, fun call t hrun => ⟨fun hexact => ?_, fun hc => ?_⟩⟩
  · unfold DependencyCall.CancelsPulled
    split
    · intro hnone
      obtain ⟨request, hrequest, hobjects⟩ := Option.map_eq_some_iff.mp hnone
      exact (not_sound_cancelGetRequest hkept hrequest hobjects).returned rfl hrun hexact.sound
    · trivial
  · exact ((pullsKept_run call hc hkept).returned rfl hrun).exact

instance (call : DependencyCall) (d : DependencyManager) : Decidable (call.CancelsPulled d) := by
  unfold DependencyCall.CancelsPulled
  split <;> infer_instance

/-- A get request grows, and its pull is replaced. -/
theorem pulls_exact_replaced :
    ∃ d, Reaches DependencyCall.run DependencyCall.CancelsPulled {} d ∧ d.pullIds (.getRequest 5) = 2 ∧ d.PullsExact := by
  refine exists_after [.other (.startOrUpdateGetRequest 5 [⟨⟨0, 1⟩, ⟨0, 0⟩⟩]), .other (.startOrUpdateGetRequest 5 [⟨⟨0, 2⟩, ⟨0, 0⟩⟩])]
    (·.pullIds (.getRequest 5))
    2 (by decide +kernel) fun _ hd hid => ?_
  exact ⟨hid, (pulls_exact hd).1⟩

/-- A worker asks for no object and gives its request up. -/
theorem empty_get_cancels_nothing :
    ∃ d, Reaches DependencyCall.run (fun _ _ => True) {} d ∧ d.pulls = [.cancelPull 0] ∧ ¬d.PullsExact := by
  refine exists_after [.other (.startOrUpdateGetRequest 5 []), .other (.cancelGetRequest 5)]
    DependencyManager.pulls [.cancelPull 0]
    (by decide +kernel) fun _ _ hpulls => ?_
  refine ⟨hpulls, fun hexact => ?_⟩
  have hsound := hexact.sound
  rw [events, hpulls] at hsound
  exact (nomatch (hsound [] 0 [] rfl))

end AmazonRay.Raylet
