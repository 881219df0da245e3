import AmazonRay.WorkerPool.PopRequests

/-! The idle workers as a part of the pool: list, map, the set of each language, and those asked to exit. -/
namespace AmazonRay.WorkerPool
open Program Families Requests List Table Prod

structure IdlePart where
  posted : List PostedCallback
  list : List (Worker × ℤ)
  map : AList fun _ : Worker => ℤ
  sets : Language → List Worker
  dedicated : Language → AList fun _ : TaskID => Worker
  registered : Language → List Worker
  pending : AList fun _ : WorkerID => Worker
  exits : List Worker
  connected : List Worker
  dead : List Worker
  known : List Worker
  log : List Event

def Pool.idlePart (p : Pool) : IdlePart where
  posted := p.posted
  list := p.idleOfAllLanguages
  map := p.idleOfAllLanguagesMap
  sets := p.idle
  dedicated := p.idleDedicatedWorkers
  registered := p.registeredWorkers
  pending := p.pendingExitIdleWorkers
  exits := p.exitRequests
  connected := p.connected
  dead := p.dead
  known := p.known
  log := p.log

variable {list : List (Worker × ℤ)} {x : Worker} {w : Worker}

lemma mem_fst_iff : w ∈ list.map fst ↔ 0 < list.countP (·.1 = w) := by
  simp [countP_pos_iff]

lemma countP_eraseP_fst (h : list.countP (·.1 = w) ≤ 1) (x : Worker) :
    (list.eraseP (·.1 = w)).countP (·.1 = x) = if x = w then 0 else list.countP (·.1 = x) := by
  by_cases hw : w ∈ list.map fst
  · obtain ⟨e, he, rfl⟩ := mem_map.mp hw
    obtain ⟨a, -, ha, hcount⟩ := exists_countP_eraseP (p := fun a => decide (a.1 = e.1)) he (decide_eq_true rfl)
    have ha : a.1 = e.1 := of_decide_eq_true ha
    have hx := hcount fun b => decide (b.1 = x)
    simp only [decide_eq_true_eq, ha] at hx
    by_cases hxe : x = e.1
    · subst hxe
      rw [if_pos rfl] at hx ⊢
      omega
    · rw [if_neg (Ne.symm hxe)] at hx
      rw [if_neg hxe]
      omega
  · have hnone : ∀ a ∈ list, ¬decide (a.1 = w) = true := by
      intro a ha haw
      exact hw (of_decide_eq_true haw ▸ mem_map_of_mem ha)
    rw [eraseP_of_forall_not hnone]
    by_cases hxw : x = w
    · rw [if_pos hxw, hxw]
      exact countP_eq_zero.mpr hnone
    · rw [if_neg hxw]

lemma mem_eraseP_fst (h : list.countP (·.1 = w) ≤ 1) :
    x ∈ (list.eraseP (·.1 = w)).map fst ↔ x ≠ w ∧ x ∈ list.map fst := by
  rw [mem_fst_iff, mem_fst_iff, countP_eraseP_fst h]
  by_cases hx : x = w
  · simp [hx]
  · simp [hx]

/-- The registered workers are known, each under an id of its own. -/
structure Registry (config : Config) (registered : Language → List Worker) (known : List Worker) : Prop where
  nodup : ∀ l, (registered l).Nodup
  own : ∀ l, ∀ w ∈ registered l, w.language = l ∧ w ∈ known
  supported : ∀ w ∈ known, w.language ∈ config.languages
  ids : ∀ w ∈ known, ∀ x ∈ known, w.workerId = x.workerId → w = x

section

variable {config : Config} {registered : Language → List Worker} {known : List Worker} {w : Worker}

variable (h : Registry config registered known)
include h

lemma Registry.register (hw : w.language ∈ config.languages) (hfresh : ∀ x ∈ known, x.workerId ≠ w.workerId) :
    Registry config (adjust w.language (·.insert w) registered) (w :: known) where
  nodup l := by
    rw [adjust_apply]
    split
    · exact (h.nodup l).insert
    · exact h.nodup l
  own l x hx := by
    rw [adjust_apply] at hx
    split at hx
    case isTrue hl =>
      rcases mem_insert_iff.mp hx with rfl | hx
      · exact ⟨hl.symm, mem_cons_self⟩
      · exact ⟨(h.own l x hx).1, mem_cons_of_mem w (h.own l x hx).2⟩
    · exact ⟨(h.own l x hx).1, mem_cons_of_mem w (h.own l x hx).2⟩
  supported x hx := by
    rcases mem_cons.mp hx with rfl | hx
    · exact hw
    · exact h.supported x hx
  ids x hx y hy hid := by
    rcases mem_cons.mp hx, mem_cons.mp hy with ⟨rfl | hxk, rfl | hyk⟩
    · rfl
    · exact absurd hid.symm (hfresh y hyk)
    · exact absurd hid (hfresh x hxk)
    · exact h.ids x hxk y hyk hid

lemma Registry.mem_remove :
    x ∈ adjust w.language (·.erase w) registered x.language ↔ x ≠ w ∧ x ∈ registered x.language := by
  rw [adjust_apply]
  split
  · exact (h.nodup _).mem_erase_iff
  case isFalse hl =>
    constructor
    · intro hx
      refine ⟨?_, hx⟩
      rintro rfl
      exact hl rfl
    · exact And.right

lemma Registry.remove : Registry config (adjust w.language (·.erase w) registered) known where
  nodup l := by
    rw [adjust_apply]
    split
    · exact (h.nodup l).erase w
    · exact h.nodup l
  own l x hx := by
    rw [adjust_apply] at hx
    split at hx
    · exact h.own l x (mem_of_mem_erase hx)
    · exact h.own l x hx
  supported := h.supported
  ids := h.ids

end

namespace IdlePart

/-- The places of the workers, for which the rest of the requests does not matter. -/
def requests (v : IdlePart) : Requests where
  posted := v.posted
  envs := []
  waiting _ _ := ∅
  starting _ := ∅
  counter := 0
  idle := v.list
  dedicated := v.dedicated
  connected := v.connected
  nextCallback := 0
  log := v.log

/-- The idle workers are consistent, but for the workers in hand. -/
structure Sound (config : Config) (hand : List Worker) (v : IdlePart) : Prop where
  placed : Placed hand v.requests
  available : ∀ w, 0 < v.requests.places w + hand.count w → w ∈ v.registered w.language ∧ w.workerType = .worker
  /-- A dead worker is at most in the list. -/
  alive : ∀ w ∈ v.dead, v.requests.places w + hand.count w ≤ v.list.countP (·.1 = w)
  mapped : ∀ w, w ∈ v.map ↔ w ∈ v.list.map Prod.fst
  sets : ∀ l, (v.sets l).Nodup ∧ ∀ w ∈ v.sets l, w.language = l ∧ w ∈ v.list.map Prod.fst ∧ w ∉ v.dead
  pending : ∀ id w, v.pending.lookup id = some w → w.workerId = id ∧ w ∈ v.known ∧ w ∈ v.connected ∧ w ∉ v.dead ∧
    (w ∈ v.registered w.language → w ∈ v.list.map Prod.fst)
  exits : v.exits.Nodup ∧ ∀ w, w ∈ v.exits ↔ v.pending.lookup w.workerId = some w
  registry : Registry config v.registered v.known
  dead : ∀ w ∈ v.dead, w ∈ v.connected
  handed : ∀ c w registered status used, .invoked c (some (w, registered)) status used ∈ v.log → registered = true

variable {config : Config} {hand hand' : List Worker} {v : IdlePart} {w : Worker}

lemma places_requests (v : IdlePart) (w : Worker) : v.requests.places w = v.list.countP (·.1 = w) +
    v.posted.countP (·.worker = some w) + ∑ language, total (holds w) (v.dedicated language) := rfl

lemma Sound.once (h : Sound config hand v) (w : Worker) : v.list.countP (·.1 = w) + hand.count w ≤ 1 := by
  have honce := h.placed.once w
  have hsum := v.places_requests w
  omega

lemma Sound.of_mem_list (h : Sound config hand v) (hw : w ∈ v.list.map fst) :
    w ∈ v.registered w.language ∧ w ∈ v.connected ∧ w.workerType = .worker := by
  have hpos : 0 < v.requests.places w + hand.count w := by
    have hsum := v.places_requests w
    have hcount := mem_fst_iff.mp hw
    omega
  exact ⟨(h.available w hpos).1, (h.placed.free w hpos).2, (h.available w hpos).2⟩

lemma Sound.of_hand (h : Sound config (w :: hand) v) :
    w ∈ v.registered w.language ∧ w ∉ v.list.map fst ∧ w ∉ v.dead := by
  have hone : (w :: hand).count w = hand.count w + 1 := count_cons_self
  have honce := h.once w
  refine ⟨(h.available w (by omega)).1, fun hw => ?_, fun hw => ?_⟩
  · have hcount := mem_fst_iff.mp hw
    omega
  · have halive := h.alive w hw
    omega

lemma Sound.known (h : Sound config hand v) (hw : w ∈ v.registered w.language) :
    w ∈ v.known ∧ w.language ∈ config.languages := by
  have hknown := (h.registry.own w.language w hw).2
  exact ⟨hknown, h.registry.supported w hknown⟩

lemma Sound.move (h : Sound config hand v) {posted : List PostedCallback}
    {dedicated : Language → AList fun _ : TaskID => Worker}
    (hle : Moved hand' { v.requests with posted := posted, dedicated := dedicated } hand v.requests) :
    Sound config hand' { v with posted := posted, dedicated := dedicated } := { h with
  placed := h.placed.move hle
  available x hx := h.available x (hx.trans_le (hle x))
  alive x hx := (hle x).trans (h.alive x hx) }

lemma Sound.invoke {registered : Bool} (h : Sound config (w :: hand) v) (c : CallbackID)
    (hregistered : w ∈ v.registered w.language → registered = true) (status : PopWorkerStatus) (used : Bool) :
    Sound config (if used then hand else w :: hand)
      { v with log := .invoked c (some (w, registered)) status used :: v.log } := by
  have hle : Moved (if used then hand else w :: hand)
      (requests { v with log := .invoked c (some (w, registered)) status used :: v.log }) (w :: hand) v.requests := by
    intro x
    apply Nat.add_le_add_left
    cases used with
    | true => exact (sublist_cons_self w hand).count_le x
    | false => exact le_rfl
  exact { h with
    placed := h.placed.invoke c registered status used
    available := fun x hx => h.available x (hx.trans_le (hle x))
    alive := fun x hx => (hle x).trans (h.alive x hx)
    handed := fun c' x r s u hmem => by
      rcases mem_cons.mp hmem with heq | hmem
      · cases heq
        exact hregistered h.of_hand.1
      · exact h.handed c' x r s u hmem }

section

variable (h : Sound config hand v)
include h

lemma Sound.invokeNone (c : CallbackID) (status : PopWorkerStatus) (used : Bool) :
    Sound config hand { v with log := .invoked c none status used :: v.log } := { h with
  placed := h.placed.invokeNone c status used
  handed c' x r s u hmem := h.handed c' x r s u ((mem_cons.mp hmem).resolve_left nofun) }

lemma Sound.pushed (w : Worker) : Sound config hand { v with log := .pushed w :: v.log } := { h with
  placed := h.placed.pushed w
  handed c' x r s u hmem := h.handed c' x r s u ((mem_cons.mp hmem).resolve_left nofun) }

lemma Sound.relist {map : AList fun _ : Worker => ℤ} (hmoved : Moved hand' { v.requests with idle := list } hand v.requests)
    (halive : ∀ x ∈ v.dead, places { v.requests with idle := list } x + hand'.count x ≤ list.countP (·.1 = x))
    (hmapped : ∀ x, x ∈ map ↔ x ∈ list.map fst) (hmem : ∀ x ∈ v.list.map fst, x ∉ v.dead → x ∈ list.map fst) :
    Sound config hand' { v with list := list, map := map } := { h with
  placed := h.placed.move hmoved
  available x hx := h.available x (hx.trans_le (hmoved x))
  alive := halive
  mapped := hmapped
  sets l := by
    refine ⟨(h.sets l).1, fun x hx => ?_⟩
    obtain ⟨hl, hlist, hlive⟩ := (h.sets l).2 x hx
    exact ⟨hl, hmem x hlist hlive, hlive⟩
  pending id x hx := by
    obtain ⟨hid, hknown, hconnected, hlive, hlist⟩ := h.pending id x hx
    exact ⟨hid, hknown, hconnected, hlive, fun hregistered => hmem x (hlist hregistered) hlive⟩ }

lemma Sound.mem_erase_set {l : Language} (hx : x ∈ adjust w.language (·.erase w) v.sets l) : x ∈ v.sets l ∧ x ≠ w := by
  rw [adjust_apply] at hx
  split at hx
  · exact ((h.sets l).1.mem_erase_iff.mp hx).symm
  case isFalse hl =>
    refine ⟨hx, ?_⟩
    rintro rfl
    exact hl ((h.sets l).2 x hx).1.symm

lemma Sound.list_once (w : Worker) : v.list.countP (·.1 = w) ≤ 1 := (Nat.le_add_right _ _).trans (h.once w)

lemma Sound.mem_erase_list :
    x ∈ (v.list.eraseP (·.1 = w)).map fst ↔ x ≠ w ∧ x ∈ v.list.map fst := mem_eraseP_fst (h.list_once w)

lemma Sound.erase_sets (l : Language) : (adjust w.language (·.erase w) v.sets l).Nodup ∧
    ∀ x ∈ adjust w.language (·.erase w) v.sets l,
      x.language = l ∧ x ∈ (v.list.eraseP (·.1 = w)).map fst ∧ x ∉ v.dead := by
  constructor
  · rw [adjust_apply]
    split
    · exact (h.sets l).1.erase w
    · exact (h.sets l).1
  · intro x hx
    obtain ⟨hset, hne⟩ := h.mem_erase_set hx
    obtain ⟨hl, hlist, hlive⟩ := (h.sets l).2 x hset
    exact ⟨hl, h.mem_erase_list.mpr ⟨hne, hlist⟩, hlive⟩

lemma Sound.erase_alive (hx : x ∈ v.dead) (hne : x ≠ w)
    (hle : Moved hand' { v.requests with idle := v.list.eraseP (·.1 = w) } hand v.requests) :
    places { v.requests with idle := v.list.eraseP (·.1 = w) } x + hand'.count x ≤
      (v.list.eraseP (·.1 = w)).countP (·.1 = x) := by
  have hcount : (v.list.eraseP (·.1 = w)).countP (·.1 = x) = v.list.countP (·.1 = x) := by
    rw [countP_eraseP_fst (h.list_once w), if_neg hne]
  exact ((hle x).trans (h.alive x hx)).trans_eq hcount.symm

lemma Sound.takeIdle (hw : w ∈ v.list.map fst) (hdead : w ∉ v.dead)
    (hpending : w.workerId ∉ v.pending) : Sound config (w :: hand) { v with
      list := v.list.eraseP (·.1 = w), map := v.map.erase w, sets := adjust w.language (·.erase w) v.sets } := by
  have hmoved := moved_takeIdle (r := v.requests) hand hw
  exact { h with
    placed := h.placed.move hmoved
    available := fun x hx => h.available x (hx.trans_le (hmoved x))
    alive := fun x hx => h.erase_alive hx (fun hxw => hdead (hxw ▸ hx)) hmoved
    mapped := fun x => by rw [AList.mem_erase, h.mapped, h.mem_erase_list]
    sets := h.erase_sets
    pending := fun id x hx => by
      obtain ⟨hid, hknown, hconnected, hlive, hlist⟩ := h.pending id x hx
      refine ⟨hid, hknown, hconnected, hlive, fun hregistered => h.mem_erase_list.mpr ⟨?_, hlist hregistered⟩⟩
      rintro rfl
      exact hpending (hid ▸ mem_of_lookup hx) }

end

lemma Sound.putIdle (h : Sound config (w :: hand) v) (now : ℤ) : Sound config hand { v with
    list := v.list ++ [(w, now)], map := v.map.insert w now, sets := adjust w.language (·.insert w) v.sets } := by
  have hmoved := moved_putIdle (r := v.requests) hand w now
  obtain ⟨-, hnot, hdead⟩ := h.of_hand
  have hmem (x : Worker) : x ∈ (v.list ++ [(w, now)]).map fst ↔ x = w ∨ x ∈ v.list.map fst := by
    simp [or_comm]
  have hcount (x : Worker) : v.list.countP (·.1 = x) ≤ (v.list ++ [(w, now)]).countP (·.1 = x) := by
    rw [countP_append]
    exact Nat.le_add_right _ _
  have hlisted : Sound config hand { v with list := v.list ++ [(w, now)], map := v.map.insert w now } :=
    h.relist hmoved (fun x hx => ((hmoved x).trans (h.alive x hx)).trans (hcount x))
      (fun x => by rw [AList.mem_insert, h.mapped, hmem]) fun x hx _ => (hmem x).mpr (.inr hx)
  exact { hlisted with
    sets := fun l => by
      dsimp only
      rw [adjust_apply]
      split
      case isTrue hl =>
        refine ⟨(hlisted.sets l).1.insert, fun x hx => ?_⟩
        rcases mem_insert_iff.mp hx with rfl | hx
        · exact ⟨hl.symm, (hmem x).mpr (.inl rfl), hdead⟩
        · exact (hlisted.sets l).2 x hx
      · exact hlisted.sets l }

section

variable (h : Sound config hand v)
include h

lemma Sound.register (hw : w.language ∈ config.languages)
    (hfresh : ∀ x ∈ v.known, x.workerId ≠ w.workerId) : Sound config hand { v with
      registered := adjust w.language (·.insert w) v.registered, known := w :: v.known } := by
  have hkeep (x : Worker) (hx : x ∈ v.registered x.language) :
      x ∈ adjust w.language (·.insert w) v.registered x.language := by
    rw [adjust_apply]
    split
    · exact mem_insert_of_mem hx
    · exact hx
  exact { h with
    available := fun x hx => ⟨hkeep x (h.available x hx).1, (h.available x hx).2⟩
    pending := fun id x hx => by
      obtain ⟨hid, hknown, hconnected, hlive, hlist⟩ := h.pending id x hx
      refine ⟨hid, mem_cons_of_mem w hknown, hconnected, hlive, fun hregistered => hlist ?_⟩
      dsimp only at hregistered
      rw [adjust_apply] at hregistered
      split at hregistered
      · refine (mem_insert_iff.mp hregistered).resolve_left ?_
        rintro rfl
        exact hfresh x hknown rfl
      · exact hregistered
    registry := h.registry.register hw hfresh }

lemma Sound.take (hzero : v.requests.places w + hand.count w = 0) (hheld : ¬Held w v.log)
    (hconnected : w ∈ v.connected) (hregistered : w ∈ v.registered w.language) (htype : w.workerType = .worker)
    (hdead : w ∉ v.dead) : Sound config (w :: hand) v := by
  have hcount (x : Worker) (hx : w ≠ x) : (w :: hand).count x = hand.count x := count_cons_of_ne hx
  exact { h with
    placed := h.placed.take hzero hheld hconnected
    available := fun x hx => by
      by_cases hxw : w = x
      · exact hxw ▸ ⟨hregistered, htype⟩
      · rw [hcount x hxw] at hx
        exact h.available x hx
    alive := fun x hx => by
      have hxw : w ≠ x := by
        rintro rfl
        exact hdead hx
      rw [hcount x hxw]
      exact h.alive x hx }

lemma Sound.connect (hw : w ∉ v.connected) : Sound config hand { v with connected := v.connected.insert w } := { h with
  placed := (h.placed.connect hw).drop
  pending id x hx := by
    obtain ⟨hid, hknown, hconnected, hrest⟩ := h.pending id x hx
    exact ⟨hid, hknown, mem_insert_of_mem hconnected, hrest⟩
  dead x hx := mem_insert_of_mem (h.dead x hx) }

lemma Sound.takeConnected (hw : w ∉ v.connected) (hregistered : w ∈ v.registered w.language)
    (htype : w.workerType = .worker) : Sound config (w :: hand) { v with connected := v.connected.insert w } := by
  have hzero : v.requests.places w + hand.count w = 0 := by
    by_contra hpos
    exact hw (h.placed.free w (Nat.pos_of_ne_zero hpos)).2
  refine (h.connect hw).take hzero (fun hheld => hw (h.placed.holders w hheld)) mem_insert_self hregistered htype ?_
  exact fun hdead => hw (h.dead w hdead)

end

lemma Sound.remove (h : Sound config [] v) {map : AList fun _ : Worker => ℤ}
    (hnowhere : places { v.requests with idle := v.list.eraseP (·.1 = w) } w = 0)
    (hmap : ∀ x, x ∈ map ↔ x ≠ w ∧ x ∈ v.map) : Sound config [] { v with
      registered := adjust w.language (·.erase w) v.registered
      list := v.list.eraseP (·.1 = w), map := map, sets := adjust w.language (·.erase w) v.sets } := by
  have hmoved := moved_subperm (r := v.requests) [] (eraseP_sublist (p := fun e => decide (e.1 = w))).subperm
  exact { h with
    placed := h.placed.move hmoved
    available := fun x hx => by
      have hne : x ≠ w := by
        rintro rfl
        exact absurd hnowhere hx.ne'
      have hold := h.available x (hx.trans_le (hmoved x))
      exact ⟨h.registry.mem_remove.mpr ⟨hne, hold.1⟩, hold.2⟩
    alive := fun x hx => by
      by_cases hxw : x = w
      · subst hxw
        exact hnowhere.trans_le (Nat.zero_le _)
      · exact h.erase_alive hx hxw hmoved
    mapped := fun x => by rw [hmap, h.mapped, h.mem_erase_list]
    sets := h.erase_sets
    pending := fun id x hx => by
      obtain ⟨hid, hknown, hconnected, hlive, hlist⟩ := h.pending id x hx
      refine ⟨hid, hknown, hconnected, hlive, fun hregistered => ?_⟩
      obtain ⟨hne, hregistered⟩ := h.registry.mem_remove.mp hregistered
      exact h.mem_erase_list.mpr ⟨hne, hlist hregistered⟩
    registry := h.registry.remove }

section

variable (h : Sound config hand v)
include h

lemma Sound.ask (hw : w ∈ v.list.map fst) (hdead : w ∉ v.dead) (hpending : w.workerId ∉ v.pending) :
    Sound config hand { v with pending := v.pending.insert w.workerId w, exits := v.exits ++ [w] } := by
  obtain ⟨hregistered, hconnected, -⟩ := h.of_mem_list hw
  have hnone : v.pending.lookup w.workerId = none := AList.lookup_eq_none.mpr hpending
  have hnot : w ∉ v.exits := by
    intro hmem
    rw [(h.exits.2 w).mp hmem] at hnone
    cases hnone
  exact { h with
    pending := fun id x hx => by
      rcases lookup_of_insert hx with ⟨hid, rfl⟩ | ⟨-, hx⟩
      · exact ⟨hid.symm, (h.known hregistered).1, hconnected, hdead, fun _ => hw⟩
      · exact h.pending id x hx
    exits := by
      refine ⟨nodup_append.mpr ⟨h.exits.1, nodup_singleton w, ?_⟩, fun x => ?_⟩
      · intro a ha b hb hab
        exact hnot (mem_singleton.mp hb ▸ hab ▸ ha)
      · rw [mem_append, mem_singleton, h.exits.2 x, lookup_insert]
        by_cases hid : x.workerId = w.workerId
        · rw [if_pos hid, hid, hnone]
          constructor
          · rintro (hx | rfl)
            · cases hx
            · rfl
          · intro hx
            exact .inr (Option.some.inj hx).symm
        · rw [if_neg hid]
          constructor
          · rintro (hx | rfl)
            · exact hx
            · exact absurd rfl hid
          · exact .inl }

lemma Sound.answer {i : ℕ} (hi : v.exits[i]? = some w) :
    Sound config hand { v with pending := v.pending.erase w.workerId, exits := v.exits.eraseIdx i } := by
  obtain ⟨hlt, hget⟩ := List.getElem?_eq_some_iff.mp hi
  have hperm := getElem_cons_eraseIdx_perm hlt
  rw [hget] at hperm
  have hnodup := nodup_cons.mp (hperm.nodup_iff.mpr h.exits.1)
  have hmem (x : Worker) : x ∈ v.exits.eraseIdx i ↔ x ≠ w ∧ x ∈ v.exits := by
    rw [← hperm.mem_iff, mem_cons]
    constructor
    · intro hx
      refine ⟨?_, .inr hx⟩
      rintro rfl
      exact hnodup.1 hx
    · rintro ⟨hne, hx⟩
      exact hx.resolve_left hne
  have hw : v.pending.lookup w.workerId = some w := (h.exits.2 w).mp (mem_of_getElem? hi)
  exact { h with
    pending := fun id x hx => by
      obtain ⟨-, hx⟩ := lookup_of_erase hx
      exact h.pending id x hx
    exits := by
      refine ⟨hnodup.2, fun x => ?_⟩
      rw [hmem, h.exits.2 x, lookup_erase]
      by_cases hid : x.workerId = w.workerId
      · rw [if_pos hid, hid, hw]
        constructor
        · rintro ⟨hne, hx⟩
          exact absurd (Option.some.inj hx).symm hne
        · intro hx
          cases hx
      · rw [if_neg hid]
        constructor
        · exact And.right
        · intro hx
          refine ⟨?_, hx⟩
          rintro rfl
          exact hid rfl }

lemma Sound.of_exits (hw : w ∈ v.exits) : w ∈ v.known ∧ w ∈ v.connected ∧ w ∉ v.dead ∧
    (w ∈ v.registered w.language → w ∈ v.list.map fst) :=
  (h.pending w.workerId w ((h.exits.2 w).mp hw)).2

lemma Sound.perm (hperm : list.Perm v.list) : Sound config hand { v with list := list } := by
  have hmem (x : Worker) : x ∈ list.map fst ↔ x ∈ v.list.map fst := (hperm.map fst).mem_iff
  have hmoved := moved_subperm (r := v.requests) hand hperm.subperm
  refine h.relist hmoved (fun x hx => ?_) (fun x => by rw [h.mapped, hmem]) fun x hx _ => (hmem x).mpr hx
  have hcount : list.countP (·.1 = x) = v.list.countP (·.1 = x) := hperm.countP_eq _
  exact ((hmoved x).trans (h.alive x hx)).trans_eq hcount.symm

end

lemma Sound.markDead (h : Sound config [] v) (hpending : v.pending.lookup w.workerId = none)
    (hconnected : w ∈ v.connected) (hlist : w ∈ v.registered w.language → w ∈ v.list.map fst) :
    Sound config [] { v with sets := adjust w.language (·.erase w) v.sets, dead := v.dead.insert w } := { h with
  alive x hx := by
    rcases mem_insert_iff.mp hx with rfl | hx
    · by_cases hplaces : 0 < v.requests.places x + ([] : List Worker).count x
      · have hcount := mem_fst_iff.mp (hlist (h.available x hplaces).1)
        exact (h.placed.once x).trans hcount
      · exact (Nat.eq_zero_of_not_pos hplaces).trans_le (Nat.zero_le _)
    · exact h.alive x hx
  sets l := by
    refine ⟨(h.erase_sets l).1, fun x hx => ?_⟩
    obtain ⟨hset, hne⟩ := h.mem_erase_set hx
    obtain ⟨hl, hlist, hlive⟩ := (h.sets l).2 x hset
    exact ⟨hl, hlist, fun hdead => (mem_insert_iff.mp hdead).elim hne hlive⟩
  pending id x hx := by
    obtain ⟨hid, hknown, hconnected, hlive, hlist⟩ := h.pending id x hx
    refine ⟨hid, hknown, hconnected, fun hdead => ?_, hlist⟩
    rcases mem_insert_iff.mp hdead with rfl | hdead
    · subst hid
      rw [hpending] at hx
      cases hx
    · exact hlive hdead
  dead x hx := by
    rcases mem_insert_iff.mp hx with rfl | hx
    · exact hconnected
    · exact h.dead x hx }

lemma mem_foldl_insert (list : List (Worker × ℤ)) (t : AList fun _ : Worker => ℤ) (x : Worker) :
    x ∈ list.foldl (fun t e => if e.1 ∈ t then t else t.insert e.1 e.2) t ↔ x ∈ t ∨ x ∈ list.map fst := by
  induction list generalizing t with
  | nil => simp
  | cons e list ih =>
    rw [foldl_cons, ih, map_cons, mem_cons]
    by_cases he : e.1 ∈ t
    · rw [if_pos he]
      constructor
      · exact Or.imp_right .inr
      · rintro (hx | rfl | hx)
        · exact .inl hx
        · exact .inl he
        · exact .inr hx
    · rw [if_neg he, AList.mem_insert, or_assoc, or_left_comm]

variable (h : Sound config hand v)
include h

lemma Sound.rebuild : Sound config hand { v with
    list := v.list.filter (·.1 ∉ v.dead)
    map := (v.list.filter (·.1 ∉ v.dead)).foldl (fun t e => if e.1 ∈ t then t else t.insert e.1 e.2) ∅ } := by
  have hmoved := moved_subperm (r := v.requests) hand (filter_sublist (p := fun e => decide (e.1 ∉ v.dead))).subperm
  have hmem (x : Worker) (hx : x ∈ v.list.map fst) (hlive : x ∉ v.dead) :
      x ∈ (v.list.filter (·.1 ∉ v.dead)).map fst := by
    obtain ⟨e, he, rfl⟩ := mem_map.mp hx
    exact mem_map_of_mem (mem_filter.mpr ⟨he, decide_eq_true hlive⟩)
  refine h.relist hmoved (fun x hx => ?_) (fun x => ?_) hmem
  · -- a dead worker was in the list only
    have hbefore := h.alive x hx
    have hplaces := v.places_requests x
    have hafter := places_requests { v with list := v.list.filter (·.1 ∉ v.dead) } x
    change places { v.requests with idle := v.list.filter (·.1 ∉ v.dead) } x = _ at hafter
    dsimp only at hafter ⊢
    omega
  · rw [mem_foldl_insert]
    simp

lemma Sound.nodup_list : (v.list.map fst).Nodup := by
  rw [nodup_iff_count_le_one]
  intro x
  refine le_of_eq_of_le ?_ (h.list_once x)
  rw [count, countP_map]
  apply countP_congr
  intro e _
  simp

lemma Sound.length_eq : v.list.length = v.map.keys.length := by
  have hperm : (v.list.map fst).Perm v.map.keys :=
    (perm_ext_iff_of_nodup h.nodup_list v.map.nodupKeys).mpr fun x => (h.mapped x).symm
  rw [← hperm.length_eq, length_map]

end IdlePart
end AmazonRay.WorkerPool
