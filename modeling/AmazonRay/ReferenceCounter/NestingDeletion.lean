import AmazonRay.ReferenceCounter.Nesting

/-! A deletion keeps the index of nested objects, in regular runs. -/
namespace AmazonRay.ReferenceCounter
open Program List Function Option State Reference Progress Bool

variable {τ : Type} {strict pinning : Bool} {p : Progress} {s : State τ} {id : ObjectID}

variable {r r' : Reference} {l rest : List ObjectID} {y : ObjectID} {t : State τ} {i' i : Reference} {id x : ObjectID}

lemma State.hasUnnested_eq_false : s.hasUnnested id r = false ↔ ∀ y ∈ r.contains, (id, y) ∉ s.unnested := by
  simp [hasUnnested]

/-- The entry has not left the scope: it is about to be deleted or is in use. -/
def Anchored (p : Progress) (id : ObjectID) (s : State τ) : Prop :=
  id ∉ p.leaving ∧ (p.due = some id ∨
    ∀ r, s.refs.lookup id = some r → r.refCount = 0 → r.containedInBorrowedIds ≠ [])

lemma Anchored.of_sameCore (h : Anchored p id s) (hc : SameCore s t) :
    Anchored p id t := by
  refine ⟨h.1, h.2.imp_right fun h r hr hz => ?_⟩
  obtain ⟨r', hr', he⟩ := hc.entries.backward hr
  obtain ⟨hl, hn⟩ := core_eq he
  exact (links_eq hl).2.2.2 ▸ h r' hr' (hn ▸ hz)

lemma Nesting.cleared (h : Nesting strict pinning p s)
    (ha : Anchored p id s) (hx : s.refs.lookup id = some r) (hr : r'.core = r.core)
    (hsh : r.Shrinks pinning r') : Nesting strict pinning p (s.withEntry id r') := by
  obtain ⟨hl, hn⟩ := core_eq hr
  obtain ⟨_, _, _, hb⟩ := links_eq hl
  refine h.withEntry hx hl ?_ fun _ => hsh.outOfScope
  intro hd _ ho _
  obtain ⟨hz, hbn, _⟩ := outOfScope_iff.mp ho
  rcases ha.2 with ha | ha
  · exact absurd ha hd
  · exact absurd (hb ▸ hbn) (ha r hx (hn ▸ hz))

lemma Nesting.anchored_inner {inner : ObjectID}
    (h : Nesting strict pinning p s) (hp : ∀ x, p.links x ≠ none → x ∈ p.leaving)
    (hx : s.refs.lookup id = some r) (hl : id ∉ p.leaving) (ho : r.ownedByUs = false)
    (hi : inner ∈ r.contains) (hu : (id, inner) ∉ s.unnested) : Anchored p inner s := by
  have hn : p.links id = none := not_not.mp fun hn => hl (hp id hn)
  obtain ⟨i, hinner, hm⟩ := h.nested id r hx inner (by rwa [linked, hn]) fun _ => hu
  have hb : id ∈ i.containedInBorrowedIds := by rwa [ho] at hm
  refine ⟨fun hleft => ?_, .inr fun i' hi' _ hnil => ?_⟩
  · obtain ⟨i', hi', hout⟩ := h.held inner hleft
    rw [hinner] at hi'
    cases hi'
    rw [(outOfScope_iff.mp hout).2.1] at hb
    exact not_mem_nil hb
  · rw [hinner] at hi'
    cases hi'
    rw [hnil] at hb
    exact not_mem_nil hb

lemma spec_getAndClearLocalBorrowersInternal (forRefRemoved : Bool) (p : Progress)
    (hp : ∀ x, p.links x ≠ none → x ∈ p.leaving) (s₀ : State τ) (depth : Nat) (id : ObjectID)
    (borrowedRefs : ReferenceTable) :
    Spec strict pinning (fun s => Nesting strict pinning p s ∧ SameCore s₀ s ∧ Anchored p id s)
      (getAndClearLocalBorrowersInternal forRefRemoved depth id borrowedRefs)
      (fun _ s => Nesting strict pinning p s ∧ SameCore s₀ s) := by
  induction depth generalizing id borrowedRefs s₀ with
  | zero => exact .throw (.inl rfl)
  | succ depth ih =>
    refine .named fun s₁ => ?_
    -- The entry read first tells, through its core, what the loop goes over.
    let I (ref : Reference) (s : State τ) : Prop := Nesting strict pinning p s ∧ SameCore s₁ s ∧
      SameCore s₀ s₁ ∧ Anchored p id s₁ ∧ s₁.refs.lookup id = some ref
    have step : ∀ (ref : Reference) (f : Reference → Reference), (∀ r, (f r).core = r.core) →
        (∀ r : Reference, r.Shrinks pinning (f r)) →
        Spec strict pinning (fun s => I ref s ∧ ∀ y ∈ ref.contains, (id, y) ∉ s₁.unnested)
          (update id f) fun _ s => I ref s ∧ ∀ y ∈ ref.contains, (id, y) ∉ s₁.unnested := by
      intro ref f hf hsh
      refine .update ?_
      rintro s r ⟨⟨hn, hc, h₀, ha, href⟩, hu⟩ hr
      exact ⟨⟨hn.cleared (ha.of_sameCore hc) hr (hf r) (hsh r),
        trans_of _ hc ⟨sameBy_withEntry hr (hf r), rfl⟩, h₀, ha, href⟩, hu⟩
    refine .bind (.find (Q := fun o s => (Nesting strict pinning p s ∧ SameCore s₀ s) ∧
      ∀ ref, o = some ref → I ref s) ?_) fun o => ?_
    · rintro s ⟨hs, rfl⟩
      exact ⟨⟨hs.1, hs.2.1⟩, fun ref href => ⟨hs.1, refl_of _ s, hs.2.1, hs.2.2, href⟩⟩
    cases o with
    | none => exact .pure fun s hs => hs.1
    | some ref =>
      refine .ite (fun _ => .pure fun s hs => hs.1) fun hown => ?_
      have hown : ref.ownedByUs = false := eq_false_iff.mpr hown
      let J (s : State τ) : Prop := I ref s ∧ ∀ y ∈ ref.contains, (id, y) ∉ s₁.unnested
      refine .seq (.record (Q := fun _ => J) (fun _ _ _ => trivial) ?_) ?_
      · intro s hs hreg
        obtain ⟨hn, hc, hrest⟩ := hs.2 ref rfl
        exact ⟨⟨hn.congr (fun _ => rfl) rfl (.refl _), ⟨hc.entries, hc.unnested⟩, hrest⟩,
          hc.unnested ▸ hasUnnested_eq_false.mp hreg⟩
      refine .seq (.onlyIf (fun _ => step ref _ (fun _ => rfl) (shrinks_clear pinning)) fun _ _ h => h) ?_
      refine .bind (Q := fun _ => J) ?_ fun refs => ?_
      · refine .foldlM_mem (fun contained hmem refs => ?_) _
        refine .bind (.pre (.post ((ih s₁ contained refs).frame
          (F := fun _ => (SameCore s₀ s₁ ∧ Anchored p id s₁ ∧ s₁.refs.lookup id = some ref) ∧
            ∀ y ∈ ref.contains, (id, y) ∉ s₁.unnested)
          ((clearingLogic_shrinks pinning).getAndClearLocalBorrowersInternal _ _ _ _)
          fun _ _ _ h => h) ?_) ?_)
          fun _ => .pure fun _ h => h
        · rintro _ s ⟨⟨hn, hc⟩, hF, hu⟩
          exact ⟨⟨hn, hc, hF⟩, hu⟩
        · rintro s ⟨⟨hn, hc, h₀, ha, href⟩, hu⟩
          obtain ⟨r, hr, he⟩ := hc.entries.forward href
          obtain ⟨ho, hcont, _⟩ := links_eq (core_eq he).1
          have hinner := hn.anchored_inner hp hr ha.1 (ho.trans hown) (hcont ▸ hmem) (hc.unnested ▸ hu contained hmem)
          exact ⟨⟨hn, hc, hinner⟩, ⟨h₀, ha, href⟩, hu⟩
      · exact .seq (step ref _ (fun _ => rfl) (shrinks_reported pinning))
          (.pure fun s hs => ⟨hs.1.1, trans_of _ hs.1.2.2.1 hs.1.2.1⟩)

def Progress.push (p : Progress) (id : ObjectID) (l : List ObjectID) : Progress :=
  { p with leaving := id :: p.leaving, links := Function.update p.links id (some l) }

/-- Between two deletions: none is due, and only entries on the stack that have left the scope have links of their own.
-/
structure Progress.Settled (p : Progress) : Prop where
  due : p.due = none
  links : ∀ x, p.links x ≠ none → x ∈ p.leaving
  tracked : p.leaving ⊆ p.stack

lemma Progress.Settled.enter (h : p.Settled) (id : ObjectID) : Progress.Settled { p with stack := id :: p.stack } :=
  ⟨h.due, h.links, fun _ hx => mem_cons_of_mem _ (h.tracked hx)⟩

lemma Progress.Settled.push (h : p.Settled) (hst : id ∈ p.stack) (l : List ObjectID) : (p.push id l).Settled := by
  refine ⟨h.due, fun x hx => ?_, cons_subset.mpr ⟨hst, h.tracked⟩⟩
  by_cases he : x = id
  · exact he ▸ mem_cons_self
  · simp only [Progress.push, update_of_ne he] at hx
    exact mem_cons_of_mem _ (h.links x hx)

lemma Progress.push_linked (p : Progress) (id : ObjectID) (l : List ObjectID) (r : Reference) :
    (p.push id l).linked id r = l := by
  simp [linked, push]

lemma Progress.push_linked_ne (p : Progress) (l : List ObjectID)
    (r : Reference) (h : x ≠ id) : (p.push id l).linked x r = p.linked x r := by
  simp only [linked, push, update_of_ne h]

lemma Progress.push_links (p : Progress) (id : ObjectID) (l : List ObjectID) :
    (p.push id l).links id = some l := update_self _ _ _

lemma Progress.push_links_ne (p : Progress) (l : List ObjectID) (h : x ≠ id) :
    (p.push id l).links x = p.links x := update_of_ne h _ _

lemma Nesting.containers_nil (h : r.outOfScope pinning = true) (owned : Bool) : r.containers owned = [] := by
  have hs := outOfScope_iff.mp h
  cases owned with
  | true => exact (refCount_eq_zero.mp hs.1).2.2
  | false => exact hs.2.1

lemma Nesting.push {d : Option ObjectID}
    (h : Nesting strict pinning { p with due := d } s) (hd : ∀ x, d = some x → x = id)
    (hst : id ∈ p.stack) (hx : s.refs.lookup id = some r) (ho : r.outOfScope pinning = true)
    (hl : l ⊆ p.linked id r) (hu : ∀ y ∈ l, (id, y) ∉ s.unnested) :
    Nesting strict pinning (p.push id l) s where
  stack := h.stack
  tracked := cons_subset.mpr ⟨hst, h.tracked⟩
  nodup := h.nodup
  listed := h.listed
  nested x r' hx' y hy hun := by
    by_cases he : x = id
    · subst he
      rw [hx] at hx'
      cases hx'
      rw [push_linked] at hy
      exact h.nested x r hx y (hl hy) fun _ => hu y hy
    · rw [push_linked_ne p l r' he] at hy
      exact h.nested x r' hx' y hy fun hn => hun (by rwa [push_links_ne p l he])
  kept x r' hx' _ hn := by
    exact h.kept x r' hx' (fun he => ne_of_not_mem_cons hn (hd x he)) (not_mem_of_not_mem_cons hn)
  held x hxl := by
    rcases mem_cons.mp hxl with rfl | hxl
    · exact ⟨r, hx, ho⟩
    · exact h.held x hxl

lemma Nesting.makeDue (h : Nesting strict pinning p s) (hp : p.due = none) (id : ObjectID) :
    Nesting strict pinning { p with due := some id } s :=
  ⟨h.stack, h.tracked, h.nodup, h.listed, h.nested,
    fun x r hx _ => h.kept x r hx (by rw [hp]; exact (some_ne_none x).symm), h.held⟩

lemma Nesting.settle (h : Nesting strict pinning { p with due := some id } s)
    (hx : s.refs.lookup id = some r) (ho : r.outOfScope pinning = false) :
    Nesting strict pinning p s := by
  refine ⟨h.stack, h.tracked, h.nodup, h.listed, h.nested, ?_, h.held⟩
  intro x r' hx' _ hn hout hlin
  by_cases he : x = id
  · rw [he, hx] at hx'
    cases hx'
    exact absurd hout (eq_false_iff.mp ho)
  · exact h.kept x r' hx' (fun hd => he (some.inj hd).symm) hn hout hlin

lemma Nesting.pop (h : Nesting strict pinning (p.push id l) s)
    (hl : p.links id = none) (hx : s.refs.lookup id = some r) (hp : pinning = true)
    (hd : r.onDelete = false) (hfree : Free strict id s)
    (hc : ∀ y ∈ r.contains, (id, y) ∈ s.unnested) : Nesting strict pinning p s where
  stack := h.stack
  tracked := (cons_subset.mp h.tracked).2
  nodup := h.nodup
  listed := h.listed
  nested x r' hx' y hy hun := by
    by_cases he : x = id
    · subst he
      rw [hx] at hx'
      cases hx'
      rw [linked, hl, getD_none] at hy
      exact absurd (hc y hy) (hun hl)
    · exact h.nested x r' hx' y (by rwa [push_linked_ne p l r' he]) fun hn => hun (by rwa [push_links_ne p l he] at hn)
  kept x r' hx' hdue hn ho hlin := by
    by_cases he : x = id
    · subst he
      rw [hx] at hx'
      cases hx'
      exact ⟨hp, hd, hfree⟩
    · exact h.kept x r' hx' hdue (not_mem_cons_of_ne_of_not_mem he hn) ho hlin
  held x hxl := h.held x (mem_cons_of_mem _ hxl)

lemma Nesting.erased (h : Nesting strict pinning (p.push id l) s) (hid : id ∉ p.leaving)
    (hx : s.refs.lookup id = some r) (ho : r.outOfScope pinning = true)
    (hfree : Free strict id s) (n : Nat) :
    Nesting strict pinning p { s.eraseEntry id r with shutdowns := n } := by
  have old : ∀ x i, (s.refs.erase id).lookup x = some i → x ≠ id ∧ s.refs.lookup x = some i := by
    intro x i hi
    obtain ⟨hne, hi⟩ := Table.lookup_of_erase hi
    exact ⟨hne, hi⟩
  have new : ∀ x i, x ≠ id → s.refs.lookup x = some i → (s.refs.erase id).lookup x = some i := by
    intro x i he hi
    rwa [Table.lookup_erase, if_neg he]
  refine ⟨h.stack, (cons_subset.mp h.tracked).2, ?_, ?_, ?_, ?_, ?_⟩
  · exact fun x i hi => h.nodup x i (old x i hi).2
  · intro side hs y i hi x hxi
    obtain ⟨r', hr', hm⟩ := h.listed side hs y i (old y i hi).2 x hxi
    exact ⟨r', new x r' (fun he => hfree side hs y i (old y i hi).2 (he ▸ hxi)) hr', hm⟩
  · intro x r' hr' y hy hun
    obtain ⟨hne, hr'⟩ := old x r' hr'
    obtain ⟨i, hi, hm⟩ := h.nested x r' hr' y (by rwa [push_linked_ne p l r' hne])
      fun hn => hun (by rwa [push_links_ne p l hne] at hn)
    refine ⟨i, new y i ?_ hi, hm⟩
    rintro rfl
    rw [hx] at hi
    cases hi
    rw [Nesting.containers_nil ho] at hm
    exact not_mem_nil hm
  · intro x r' hr' hd hn ho' hlin
    obtain ⟨hp, hdel, hfree'⟩ := h.kept x r' (old x r' hr').2 hd
      (not_mem_cons_of_ne_of_not_mem (old x r' hr').1 hn) ho' hlin
    exact ⟨hp, hdel, hfree'.mono fun y a ha => ⟨a, (old y a ha).2, fun _ => .refl _⟩⟩
  · intro x hxl
    obtain ⟨r', hr', ho'⟩ := h.held x (mem_cons_of_mem _ hxl)
    exact ⟨r', new x r' (fun he => hid (he ▸ hxl)) hr', ho'⟩

lemma Nesting.unlinked (h : Nesting strict pinning (p.push id (y :: rest)) s) (hrest : y ∉ rest)
    (hp : p.due = none) (hx : s.refs.lookup id = some r) (hy : s.refs.lookup y = some i)
    (ho : i'.ownedByUs = i.ownedByUs) (hc : i'.contains = i.contains)
    (hm : ∀ owned x, x ∈ i'.containers owned ↔ x ∈ i.containers owned ∧ ¬ (x = id ∧ owned = r.ownedByUs)) :
    Nesting strict pinning { p.push id rest with due := some y } (s.withEntry y i') := by
  have hout : ∀ x ∈ id :: p.leaving, x ≠ y := by
    rintro x hxl rfl
    obtain ⟨i₀, hi₀, hsc⟩ := h.held x hxl
    obtain ⟨i₁, hi₁, hmem⟩ := h.nested id r hx x
      (by rw [push_linked]; exact mem_cons_self) fun hn => nomatch p.push_links _ _ ▸ hn
    rw [hi₁] at hi₀
    cases hi₀
    rw [Nesting.containers_nil hsc] at hmem
    exact not_mem_nil hmem
  -- Ownership and contents are those of the old entries, and no link is added.
  have old : ∀ x a, (s.withEntry y i').refs.lookup x = some a → ∃ b, s.refs.lookup x = some b ∧
      a.ownedByUs = b.ownedByUs ∧ a.contains = b.contains ∧
      ∀ owned, a.containers owned ⊆ b.containers owned := by
    intro x a ha
    rcases Table.lookup_of_insert ha with ⟨rfl, rfl⟩ | ⟨-, ha⟩
    · exact ⟨i, hy, ho, hc, fun owned z hz => ((hm owned z).mp hz).1⟩
    · exact ⟨a, ha, rfl, rfl, fun _ _ hz => hz⟩
  have new : ∀ x b, s.refs.lookup x = some b → ∃ a, (s.withEntry y i').refs.lookup x = some a ∧
      a.ownedByUs = b.ownedByUs ∧ a.contains = b.contains := by
    intro x b hb
    rw [withEntry_lookup]
    split
    case isTrue he =>
      rw [he, hy] at hb
      cases hb
      exact ⟨i', rfl, ho, hc⟩
    · exact ⟨b, hb, rfl, rfl⟩
  have subset : ∀ x a, (s.withEntry y i').refs.lookup x = some a → ∃ b, s.refs.lookup x = some b ∧
      ∀ owned, a.containers owned ⊆ b.containers owned := by
    intro x a ha
    obtain ⟨b, hb, _, _, hsub⟩ := old x a ha
    exact ⟨b, hb, hsub⟩
  refine ⟨h.stack, h.tracked, ?_, h.listed.mono subset ?_, ?_, ?_, ?_⟩
  · intro x a ha
    obtain ⟨b, hb, _, hcb, _⟩ := old x a ha
    exact hcb ▸ h.nodup x b hb
  · intro x b hb
    obtain ⟨a, ha, ho', hc'⟩ := new x b hb
    exact ⟨a, ha, ho', hc' ▸ .refl _⟩
  · intro x a ha z hz hun
    change z ∈ (p.push id rest).linked x a at hz
    obtain ⟨b, hb, hbo, hbc, _⟩ := old x a ha
    rw [hbo]
    by_cases hxid : x = id
    · subst hxid
      rw [push_linked] at hz
      obtain ⟨j, hj, hmem⟩ := h.nested x b hb z (by rw [push_linked]; exact mem_cons_of_mem _ hz)
        fun hn => nomatch p.push_links _ _ ▸ hn
      have hzy : z ≠ y := fun he => hrest (he ▸ hz)
      exact ⟨j, by rwa [withEntry_lookup, if_neg hzy], hmem⟩
    · rw [push_linked_ne p rest a hxid] at hz
      obtain ⟨j, hj, hmem⟩ := h.nested x b hb z (by
        rw [push_linked_ne p _ b hxid]
        simpa only [linked, hbc] using hz) fun hn => hun (by
          rw [push_links_ne p _ hxid] at hn
          exact (push_links_ne p rest hxid).trans hn)
      by_cases hzy : z = y
      · subst hzy
        rw [hy] at hj
        cases hj
        refine ⟨i', by rw [withEntry_lookup, if_pos rfl], (hm _ _).mpr ⟨hmem, ?_⟩⟩
        exact fun he => hxid he.1
      · exact ⟨j, by rwa [withEntry_lookup, if_neg hzy], hmem⟩
  · intro x a ha hd hn hsc hlin
    have hxy : x ≠ y := fun he => hd (congrArg some he.symm)
    rw [withEntry_lookup, if_neg hxy] at ha
    obtain ⟨hpin, hdel, hfree⟩ := h.kept x a ha (by simp [Progress.push, hp]) hn hsc hlin
    exact ⟨hpin, hdel, hfree.mono subset⟩
  · intro x hxl
    obtain ⟨a, ha, hsc⟩ := h.held x hxl
    exact ⟨a, by rwa [withEntry_lookup, if_neg (hout x hxl)], hsc⟩

/-- Nothing is linked to the entry, and its value is unpinned. -/
structure Detached (strict : Bool) (id : ObjectID) (s : State τ) : Prop where
  free : Free strict id s
  unpinned : strict = true → ∀ r, s.refs.lookup id = some r → r.onDelete = false

lemma Reference.Shrinks.containers (h : r.Shrinks pinning r') (side : Bool) :
    r'.containers side ⊆ r.containers side := by
  cases side with
  | true => exact h.containedInOwned
  | false => exact h.containedInBorrowedIds

lemma Detached.shrinks (hs : Shrinks pinning s t) (h : Detached strict id s) :
    Detached strict id t := by
  refine ⟨h.free.mono fun y i hi => ?_, fun hst => ?_⟩
  · obtain ⟨i₀, hi₀, hsh⟩ := hs.entry y i hi
    exact ⟨i₀, hi₀, hsh.containers⟩
  · intro r hr
    obtain ⟨r₀, hr₀, hsh⟩ := hs.entry id r hr
    exact eq_false_iff.mpr fun hd => eq_false_iff.mp (h.unpinned hst r₀ hr₀) (hsh.onDelete hd)

section

variable (cfg : Config τ)

lemma spec_eraseReference (p : Progress) (id : ObjectID) (l : List ObjectID) (hid : id ∉ p.leaving) :
    Spec strict cfg.lineagePinningEnabled
      (fun s => Nesting strict cfg.lineagePinningEnabled (p.push id l) s ∧ Detached strict id s)
      (eraseReference cfg id) (fun _ => Nesting strict cfg.lineagePinningEnabled p) := by
  refine triple_eraseReference ?_ ?_ ?_
  · intro s ref hs href hdel n hr
    have hh := hs fun e he => hr e (mem_cons_of_mem _ he)
    obtain ⟨hc, hn, hd⟩ := hh
    refine ⟨forall_mem_cons.mpr ⟨fun hst => ⟨hd.unpinned hst ref href, ?_⟩, hc⟩, ?_⟩
    · intro y i hi
      obtain ⟨-, hi⟩ := Table.lookup_of_erase hi
      exact ⟨hd.free true (.inl hst) y i hi, hd.free false (.inr rfl) y i hi⟩
    · exact hn.erased hid href (shouldDelete_iff.mp hdel).1 hd.free n
  · exact fun s hs _ hr => ⟨(hs hr).1, rfl⟩
  · exact fun s ref hs _ hr => ⟨(hs hr).1, rfl⟩

lemma spec_enter (p : Progress) (id : ObjectID) : Spec strict pinning (Nesting (τ := τ) strict pinning p) (enter id)
      (fun _ => Nesting strict pinning { p with stack := id :: p.stack }) :=
  .modify (fun _ => rfl) fun _ h => ⟨congrArg (id :: ·) h.stack, fun _ hx => mem_cons_of_mem _ (h.tracked hx), h.nodup,
      h.listed, h.nested, h.kept, h.held⟩

lemma spec_leave (p : Progress) (id : ObjectID) : Spec strict pinning (fun s : State τ =>
      Nesting strict pinning { p with stack := id :: p.stack } s ∧ p.leaving ⊆ p.stack) leave
      (fun _ => Nesting strict pinning p) :=
  .modify (fun _ => rfl) fun _ ⟨h, hp⟩ => ⟨by rw [h.stack, tail_cons], hp, h.nodup, h.listed, h.nested, h.kept, h.held⟩

lemma Reference.markEvicted_outOfScope (pinning : Bool) (r : Reference) :
    (r.markEvicted pinning).outOfScope pinning = r.outOfScope pinning := by
  unfold markEvicted
  split
  case isTrue h =>
    rw [h.1]
    refine eq_false_iff.mpr fun ho => eq_false_iff.mp h.1 ?_
    rw [outOfScope_iff] at ho ⊢
    refine ⟨ho.1, ho.2.1, ho.2.2.1, ho.2.2.2.1, ho.2.2.2.2.1, ?_⟩
    rw [hasLineageReferences, h.2, Bool.not_true, Bool.and_false, Bool.false_and]
  · rfl

lemma spec_callOnLineageReleased (p : Progress) (id : ObjectID) (ownedByUs : Bool) :
    Spec strict cfg.lineagePinningEnabled (Nesting strict cfg.lineagePinningEnabled p)
      (callOnLineageReleased cfg id ownedByUs)
      (fun _ => Nesting strict cfg.lineagePinningEnabled p) := by
  unfold callOnLineageReleased
  split
  · refine .bind (.get fun _ h => h) fun s => ?_
    refine .seq (.modify (Q := fun _ => Nesting strict cfg.lineagePinningEnabled p)
      (fun _ => rfl) fun _ h => h.congr (fun _ => rfl) rfl (.refl _)) ?_
    refine .bind (.update ?_) fun _ => .pure fun _ h => h
    intro s r h hr
    have he : (r.markEvicted cfg.lineagePinningEnabled).links = r.links ∧
        (r.markEvicted cfg.lineagePinningEnabled).lineageRefCount = r.lineageRefCount ∧
        (r.markEvicted cfg.lineagePinningEnabled).onDelete = r.onDelete := by
      unfold markEvicted
      split <;> exact ⟨rfl, rfl, rfl⟩
    refine h.withEntry hr he.1 ?_ fun _ => ?_
    · rw [markEvicted_outOfScope, he.2.1, he.2.2]
      exact h.kept id r hr
    · rw [markEvicted_outOfScope]
      exact fun h => h
  · exact .pure fun _ h => h

lemma Nesting.dropLineageRef (h : Nesting strict pinning p s) (hx : s.refs.lookup id = some r) :
    Nesting strict pinning p (s.withEntry id r.dropLineageRef) := by
  refine h.withEntry hx rfl ?_ fun _ => (shrinks_dropLineageRef pinning r).outOfScope
  intro hd hl ho hlin
  have hpos : 0 < r.lineageRefCount := lt_of_lt_of_le hlin (Nat.sub_le _ _)
  rcases outOfScope_of_dropLineageRef ho with hout | hlast
  · exact h.kept id r hx hd hl hout hpos
  · exact absurd hlast.2.2 hlin.ne'

lemma Nesting.detached (h : Nesting strict pinning p s) (hx : s.refs.lookup id = some r.dropLineageRef)
    (hout : r.dropLineageRef.outOfScope pinning = true)
    (hkept : r.outOfScope pinning = true → r.onDelete = false ∧ Free strict id s)
    (hreg : strict = true → r.ownedByUs = true → r.isReconstructable = false →
      r.onDelete = false ∧ r.contains = []) : Detached strict id s := by
  rcases outOfScope_of_dropLineageRef hout with hc | hc
  · refine ⟨(hkept hc).2, fun _ r' hr' => ?_⟩
    rw [hx] at hr'
    cases hr'
    exact (hkept hc).1
  · -- An owned object that counted its lineage is in no one's contents by `hreg`.
    refine ⟨fun side hside y i hi hm => ?_, fun hst r' hr' => ?_⟩
    · obtain ⟨r', hr', ho, hmem⟩ := h.listed side hside y i hi id hm
      rw [hx] at hr'
      cases hr'
      have hst : strict = true := hside.resolve_right fun hf =>
        absurd (hc.1.symm.trans (ho.trans hf)) (by decide)
      exact absurd ((hreg hst hc.1 hc.2.1).2 ▸ hmem) not_mem_nil
    · rw [hx] at hr'
      cases hr'
      exact (hreg hst hc.1 hc.2.1).1

lemma spec_releaseArgument {release : ObjectID → RefM τ Int}
    (hm : ∀ x, Moves (Shrinks cfg.lineagePinningEnabled) (release x))
    (hrel : ∀ (p : Progress) x, p.due = none →
      Spec strict cfg.lineagePinningEnabled (Nesting strict cfg.lineagePinningEnabled p) (release x)
        fun _ => Nesting strict cfg.lineagePinningEnabled p)
    (p : Progress) (hp : p.due = none) (bytes : Int) (argumentId : ObjectID) :
    Spec strict cfg.lineagePinningEnabled (Nesting strict cfg.lineagePinningEnabled p)
      (releaseArgument cfg release bytes argumentId)
      (fun _ => Nesting strict cfg.lineagePinningEnabled p) := by
  let N := Nesting (τ := τ) strict cfg.lineagePinningEnabled
  refine .bind (.find (Q := fun o s => N p s ∧ s.refs.lookup argumentId = o) fun s h => ⟨h, rfl⟩) fun o => ?_
  cases o with
  | none => exact .pure fun s h => h.1
  | some arg =>
    refine .ite (fun _ => .pure fun s h => h.1) fun hlin => ?_
    have hlin : 0 < arg.lineageRefCount := Nat.pos_of_ne_zero hlin
    -- What the index says of the argument before the reference is dropped.
    let K (s : State τ) : Prop := argumentId ∉ p.leaving → arg.outOfScope cfg.lineagePinningEnabled = true →
      arg.onDelete = false ∧ Free strict argumentId s
    refine .seq (.update (Q := fun _ s => N p s ∧ s.refs.lookup argumentId = some arg.dropLineageRef ∧ K s) ?_) ?_
    · rintro s ref ⟨h, href⟩ hx
      rw [href] at hx
      cases hx
      refine ⟨h.dropLineageRef href, by rw [withEntry_lookup, if_pos rfl], fun hl ho => ?_⟩
      obtain ⟨_, hdel, hfree⟩ := h.kept argumentId arg href (by rw [hp]; exact (some_ne_none _).symm) hl ho hlin
      have hlinks : SameBy links s (s.withEntry argumentId arg.dropLineageRef) := sameBy_withEntry href rfl
      exact ⟨hdel, hfree.mono fun _ _ => hlinks.old⟩
    refine .bind (.deref (Q := fun r s => (N p s ∧
      s.refs.lookup argumentId = some arg.dropLineageRef ∧ K s) ∧ r = arg.dropLineageRef) ?_)
      fun r => ?_
    · intro s r h hr
      exact ⟨h, some.inj (hr.symm.trans h.2.1)⟩
    refine .ite (fun _ => .pure fun s h => h.1.1) fun hdel => ?_
    have hout : r.outOfScope cfg.lineagePinningEnabled = true := (shouldDelete_iff.mp (not_eq_false _ ▸ hdel)).1
    refine .seq (.check_keep rfl) ?_
    refine .seq (.record (Q := fun _ s => N p s ∧ argumentId ∉ p.stack ∧
      s.refs.lookup argumentId = some r ∧ Detached strict argumentId s) (fun _ _ _ => trivial) ?_)
      ?_
    · rintro s ⟨⟨h, hx, hK⟩, rfl⟩ hreg
      have hnot : argumentId ∉ p.stack := h.stack ▸ hreg.1
      have hd := h.detached hx hout (hK fun hl => hnot (h.tracked hl)) hreg.2
      exact ⟨h.congr (fun _ => rfl) rfl (.refl _), hnot, hx, hd.free, hd.unpinned⟩
    let p₁ : Progress := { p with stack := argumentId :: p.stack }
    refine .seq (.modify (Q := fun _ s => N (p₁.push argumentId []) s ∧
      Detached strict argumentId s ∧ argumentId ∉ p.leaving ∧ p.leaving ⊆ p.stack) (fun _ => rfl) ?_)
      ?_
    · rintro s ⟨h, hnot, hx, hd⟩
      have h₁ : N p₁ { s with releasing := argumentId :: s.releasing } :=
        ⟨congrArg (argumentId :: ·) h.stack, fun _ hy => mem_cons_of_mem _ (h.tracked hy),
          h.nodup, h.listed, h.nested, h.kept, h.held⟩
      exact ⟨h₁.push (fun x hx => absurd (hp.symm.trans hx) (some_ne_none x).symm)
        mem_cons_self hx hout (nil_subset _) fun _ h => absurd h not_mem_nil, ⟨hd.free, hd.unpinned⟩, fun hl => hnot (h.tracked hl), h.tracked⟩
    refine .bind (.frame (hrel _ argumentId hp) (hm argumentId) fun s t hs h => ⟨h.1.shrinks hs, h.2⟩) fun evicted => ?_
    refine .bind ?_ fun _ => .seq (spec_leave p argumentId) (.pure fun _ h => h)
    refine .pre (.fact (c := argumentId ∉ p.leaving ∧ p.leaving ⊆ p.stack)
      (moves_shrinks_eraseReference cfg argumentId) fun hc => .post
      (spec_eraseReference cfg p₁ argumentId [] hc.1) fun _ s h => ⟨h, hc.2⟩) ?_
    exact fun s h => ⟨⟨h.1, h.2.1⟩, h.2.2⟩

lemma spec_releaseLineageReferences (depth : Nat) (p : Progress) (id : ObjectID) (hp : p.due = none) :
    Spec strict cfg.lineagePinningEnabled (Nesting strict cfg.lineagePinningEnabled p)
      (releaseLineageReferences cfg depth id)
      (fun _ => Nesting strict cfg.lineagePinningEnabled p) := by
  induction depth generalizing id p with
  | zero => exact .throw (.inl rfl)
  | succ depth ih =>
    refine .bind (.deref fun _ _ h _ => h) fun ref => ?_
    refine .bind (spec_callOnLineageReleased cfg p id _) fun released => ?_
    exact .foldlM_mem (fun argumentId _ bytes =>
      spec_releaseArgument cfg (moves_shrinks_releaseLineageReferences cfg depth)
        (fun p x hp => ih p x hp) p hp bytes argumentId) _

end

def LinkedWithin (strict : Bool) (id : ObjectID) (l : List ObjectID) (s : State τ) : Prop :=
  ∀ side, (strict = true ∨ side = false) → ∀ y i, s.refs.lookup y = some i →
    id ∈ i.containers side → y ∈ l

def ReadAs (id : ObjectID) (r : Reference) (s : State τ) : Prop :=
  ∀ r', s.refs.lookup id = some r' → r'.contains = r.contains

lemma LinkedWithin.shrinks (hs : Shrinks pinning s t)
    (h : LinkedWithin strict id l s) : LinkedWithin strict id l t := by
  intro side hside y i hi hm
  obtain ⟨i₀, hi₀, hsh⟩ := hs.entry y i hi
  exact h side hside y i₀ hi₀ (hsh.containers side hm)

lemma ReadAs.shrinks (hs : Shrinks pinning s t) (h : ReadAs id r s) : ReadAs id r t := by
  intro r' hr'
  obtain ⟨r₀, hr₀, hsh⟩ := hs.entry id r' hr'
  exact hsh.contains.trans (h r₀ hr₀)

/-- The loop over `contains`, with the ids still linked. -/
structure Unnesting (strict pinning : Bool) (p : Progress) (id : ObjectID) (r : Reference)
    (l : List ObjectID) (s : State τ) : Prop where
  nesting : Nesting strict pinning (p.push id l) s
  within : LinkedWithin strict id l s
  readAs : ReadAs id r s
  nodup : l.Nodup

lemma Unnesting.inner (h : Unnesting strict pinning p id r (y :: rest) s) : ∃ r' i, s.refs.lookup id = some r' ∧
      s.refs.lookup y = some i ∧ id ∈ i.containers r'.ownedByUs := by
  obtain ⟨r', hr', _⟩ := h.nesting.held id mem_cons_self
  obtain ⟨i, hi, hm⟩ := h.nesting.nested id r' hr' y
    (by rw [push_linked]; exact mem_cons_self) fun hn => nomatch p.push_links _ _ ▸ hn
  exact ⟨r', i, hr', hi, hm⟩

/-- The state of the loop while the deletion of an inner entry is due. -/
structure InnerDue (strict pinning : Bool) (p : Progress) (id : ObjectID) (r : Reference)
    (y : ObjectID) (rest : List ObjectID) (s : State τ) : Prop where
  nesting : Nesting strict pinning { p.push id rest with due := some y } s
  within : LinkedWithin strict id rest s
  readAs : ReadAs id r s
  nodup : rest.Nodup
  inScope : y ∉ id :: p.leaving

lemma Unnesting.unlinked (h : Unnesting strict pinning p id r (y :: rest) s) (hp : p.due = none)
    (hx : s.refs.lookup id = some r') (hy : s.refs.lookup y = some i)
    (hlink : id ∈ i.containers r'.ownedByUs)
    (ho : i'.ownedByUs = i.ownedByUs) (hc : i'.contains = i.contains)
    (hm : ∀ owned x, x ∈ i'.containers owned ↔ x ∈ i.containers owned ∧ ¬ (x = id ∧ owned = r'.ownedByUs)) :
    InnerDue strict pinning p id r y rest (s.withEntry y i') := by
  obtain ⟨hrest, hnd⟩ := nodup_cons.mp h.nodup
  have hscope : y ∉ id :: p.leaving := by
    intro hl
    obtain ⟨i₀, hi₀, hout⟩ := h.nesting.held y hl
    rw [hy] at hi₀
    cases hi₀
    rw [Nesting.containers_nil hout] at hlink
    exact not_mem_nil hlink
  have hne : id ≠ y := fun he => hscope (he ▸ mem_cons_self)
  refine ⟨h.nesting.unlinked hrest hp hx hy ho hc hm, ?_, ?_, hnd, hscope⟩
  · intro side hside z j hj hz
    rcases Table.lookup_of_insert hj with ⟨-, rfl⟩ | ⟨he, hj⟩
    · -- The other side of the index never had the outer object.
      obtain ⟨hz, hnot⟩ := (hm side id).mp hz
      obtain ⟨q, hq, hqo, _⟩ := h.nesting.listed side hside y i hy id hz
      rw [hx] at hq
      cases hq
      exact absurd ⟨rfl, hqo.symm⟩ hnot
    · exact (mem_cons.mp (h.within side hside z j hj hz)).resolve_left he
  · intro q hq
    rw [withEntry_lookup, if_neg hne] at hq
    exact h.readAs q hq

lemma spec_unlink (p : Progress) (hp : p.due = none) (id y : ObjectID) (r i : Reference) (rest : List ObjectID) :
    Spec strict pinning (fun s : State τ => Unnesting strict pinning p id r (y :: rest) s ∧ s.refs.lookup y = some i)
      (unlink id y i) (fun _ => InnerDue strict pinning p id r y rest) := by
  have link : ∀ (s : State τ) r', Unnesting strict pinning p id r (y :: rest) s →
      s.refs.lookup y = some i → s.refs.lookup id = some r' → id ∈ i.containers r'.ownedByUs := by
    intro s r' h hy hr'
    obtain ⟨r₀, i₀, hr₀, hi₀, hm⟩ := h.inner
    rw [hr'] at hr₀
    rw [hy] at hi₀
    cases hr₀
    cases hi₀
    exact hm
  let L (r' : Reference) (s : State τ) : Prop :=
    (Unnesting strict pinning p id r (y :: rest) s ∧ s.refs.lookup y = some i) ∧ s.refs.lookup id = some r'
  refine .bind (.deref (Q := L) fun s r' h hr' => ⟨h, hr'⟩) fun r' => ?_
  refine .ite (fun ho => .seq (.check (Q := fun _ => L r') (fun _ _ h => h) (.inr fun s h => ?_)) (.update ?_))
    fun ho => .seq (.check (Q := fun _ => L r') (fun _ _ h => h) (.inr fun s h => ?_)) (.update ?_)
  · have hm := link s r' h.1.1 h.1.2 h.2
    rwa [ho] at hm
  rotate_left
  · have hm := link s r' h.1.1 h.1.2 h.2
    rwa [eq_false_iff.mpr ho] at hm
  all_goals
    rintro s j ⟨⟨h, hy⟩, hr'⟩ hj
    rw [hy] at hj
    cases hj
    refine h.unlinked hp hr' hy (link s r' h hy hr') rfl rfl fun owned x => ?_
    cases owned <;> simp [containers, ho]

variable (cfg : Config τ) {deleteInner : ObjectID → RefM τ Unit}

def DeletesInner (strict : Bool) (cfg : Config τ) (deleteInner : ObjectID → RefM τ Unit) : Prop :=
  (∀ y, Moves (Shrinks cfg.lineagePinningEnabled) (deleteInner y)) ∧
  ∀ (p : Progress) y, p.Settled → y ∉ p.leaving →
    Spec strict cfg.lineagePinningEnabled
      (Nesting strict cfg.lineagePinningEnabled { p with due := some y }) (deleteInner y)
      fun _ => Nesting strict cfg.lineagePinningEnabled p

lemma spec_unnestInner (hd : DeletesInner strict cfg deleteInner) (p : Progress) (hp : p.Settled) (id : ObjectID)
    (hst : id ∈ p.stack) (r : Reference) (y : ObjectID) (rest : List ObjectID) :
    Spec strict cfg.lineagePinningEnabled
      (Unnesting strict cfg.lineagePinningEnabled p id r (y :: rest)) (unnestInner deleteInner id y)
      (fun _ => Unnesting strict cfg.lineagePinningEnabled p id r rest) := by
  refine .bind (.find (Q := fun o s => Unnesting strict cfg.lineagePinningEnabled p id r
    (y :: rest) s ∧ s.refs.lookup y = o) fun s h => ⟨h, rfl⟩) fun o => ?_
  cases o with
  | none =>
    refine .pure ?_
    rintro s ⟨h, hy⟩
    obtain ⟨_, i, _, hi, _⟩ := h.inner
    exact absurd (hi.symm.trans hy) (some_ne_none i)
  | some i =>
    refine .seq (spec_unlink p hp.due id y r i rest) ?_
    refine .pre (.fact (hd.1 y) fun hy => .post (.frame
      (F := fun s => LinkedWithin strict id rest s ∧ ReadAs id r s ∧ rest.Nodup)
      (hd.2 (p.push id rest) y (hp.push hst rest) hy) (hd.1 y) ?_) ?_) ?_
    · exact fun s t hs h => ⟨h.1.shrinks hs, h.2.1.shrinks hs, h.2.2⟩
    · exact fun _ s h => ⟨h.1, h.2.1, h.2.2.1, h.2.2.2⟩
    · exact fun s h => ⟨⟨h.nesting, h.within, h.readAs, h.nodup⟩, h.inScope⟩

/-- The entry has left the scope: it is kept for its lineage or will be erased. -/
structure Left (strict pinning : Bool) (p : Progress) (id : ObjectID) (r : Reference)
    (s : State τ) : Prop where
  nesting : Nesting strict pinning (p.push id []) s
  detached : Detached strict id s
  released : ∀ r', s.refs.lookup id = some r' → r'.onDelete = false ∧ r'.contains = r.contains

lemma Left.congr (h : Left strict pinning p id r s)
    (hr : ∀ x, t.refs.lookup x = s.refs.lookup x) (hst : t.releasing = s.releasing)
    (hu : s.unnested ⊆ t.unnested) : Left strict pinning p id r t :=
  ⟨h.nesting.congr hr hst hu, ⟨fun side hside y i hi => h.detached.free side hside y i (hr y ▸ hi),
      fun hs r hx => h.detached.unpinned hs r (hr id ▸ hx)⟩, fun r hx => h.released r (hr id ▸ hx)⟩

lemma Unnesting.left (h : Unnesting strict pinning p id r [] s)
    (hx : s.refs.lookup id = some r') : Left strict pinning p id r (s.withEntry id r'.unpinned) := by
  have hrel : ∀ q, (s.withEntry id r'.unpinned).refs.lookup id = some q → q.onDelete = false ∧
      q.contains = r.contains := by
    intro q hq
    rw [withEntry_lookup, if_pos rfl] at hq
    cases hq
    exact ⟨rfl, h.readAs r' hx⟩
  refine ⟨h.nesting.withEntry hx rfl ?_ fun _ ho => ho, ⟨?_, fun _ q hq => (hrel q hq).1⟩, hrel⟩
  · exact fun _ hn => absurd mem_cons_self hn
  · intro side hside y i hi hm
    rcases Table.lookup_of_insert hi with ⟨-, rfl⟩ | ⟨-, hi⟩
    · exact not_mem_nil (h.within side hside id r' hx (by cases side <;> exact hm))
    · exact not_mem_nil (h.within side hside y i hi hm)

lemma spec_leaveScope (hd : DeletesInner strict cfg deleteInner) (collect : Bool) (p : Progress) (hp : p.Settled)
    (id : ObjectID) (hid : p.links id = none) (hst : id ∈ p.stack) (r : Reference)
    (ho : r.outOfScope cfg.lineagePinningEnabled = true) :
    Spec strict cfg.lineagePinningEnabled
      (fun s => Nesting strict cfg.lineagePinningEnabled { p with due := some id } s ∧ s.refs.lookup id = some r)
      (leaveScope deleteInner collect id r)
      (fun _ s => Left strict cfg.lineagePinningEnabled p id r s ∧ ∀ y ∈ r.contains, (id, y) ∈ s.unnested) := by
  refine .seq (.record (Q := fun _ => Unnesting strict cfg.lineagePinningEnabled p id r r.contains) ?_ ?_) ?_
  · rintro s ⟨h, hx⟩ hreg
    refine ⟨fun y hy i hi => ?_, fun y i hi x hxi => ?_⟩
    · obtain ⟨j, hj, hm⟩ := h.nested id r hx y (by
        change y ∈ (p.links id).getD r.contains
        rwa [hid]) fun _ => hasUnnested_eq_false.mp hreg y hy
      rw [hi] at hj
      cases hj
      exact hm
    · obtain ⟨q, hq, _⟩ := h.listed false (.inr rfl) y i hi x hxi
      rw [hq]
      exact some_ne_none q
  · rintro s ⟨h, hx⟩ hreg
    have hlinked : r.contains ⊆ p.linked id r := by
      rw [linked, hid, getD_none]
      exact .refl _
    have hpush := h.push (fun x hx => (some.inj hx).symm) hst hx ho hlinked (hasUnnested_eq_false.mp hreg)
    refine ⟨hpush.congr (fun _ => rfl) rfl (.refl _), ?_, ?_, h.nodup id r hx⟩
    · intro side hside y i hi hm
      obtain ⟨q, hq, _, hmem⟩ := h.listed side hside y i hi id hm
      rw [hx] at hq
      cases hq
      exact hmem
    · intro q hq
      rw [show s.refs.lookup id = some q from hq] at hx
      cases hx
      rfl
  refine .seq (.forM (spec_unnestInner cfg hd p hp id hst r) _) ?_
  let L := Left strict cfg.lineagePinningEnabled p id r (τ := τ)
  refine .bind (Q := fun _ => L) ?_ fun _ => ?_
  · refine .bind (.deref fun _ _ h _ => h) fun _ => ?_
    refine .seq (.onlyIf (Q := fun _ => Unnesting strict cfg.lineagePinningEnabled p id r [])
      (fun _ => .modify (fun _ => rfl) fun s h => ?_) fun _ _ h => h) ?_
    · exact ⟨h.nesting.congr (fun _ => rfl) rfl (.refl _), h.within, h.readAs, h.nodup⟩
    · exact .update fun s r' h hx => h.left hx
  refine .seq (.onlyIf (Q := fun _ => L) (fun _ => .modify (fun _ => rfl) fun s h => ?_) fun _ _ h => h) ?_
  · exact h.congr (fun _ => rfl) rfl (.refl _)
  refine .seq (.modify (Q := fun _ => L) (fun _ => rfl) fun s h => ?_) ?_
  · exact h.congr (fun _ => rfl) rfl (.refl _)
  refine .modify (fun _ => rfl) fun s h => ⟨?_, fun y hy => ?_⟩
  · exact h.congr (fun _ => rfl) rfl (subset_append_right _ _)
  · exact mem_append_left _ (mem_map_of_mem hy)

lemma spec_handleRefRemoved (p : Progress) (hl : ∀ x, p.links x ≠ none → x ∈ p.leaving)
    (id : ObjectID) (hid : id ∉ p.leaving) (hd : p.due = some id) :
    Spec strict pinning (Nesting strict pinning p) (handleRefRemoved cfg id) (fun _ => Nesting strict pinning p) := by
  refine .named fun s₀ => ?_
  refine .bind (.pre (spec_getAndClearLocalBorrowersInternal true p hl s₀ _ id ∅) ?_) fun popped => ?_
  · rintro s ⟨h, rfl⟩
    exact ⟨h, refl_of _ s, hid, .inl hd⟩
  · exact .modify (fun _ => rfl) fun s h => h.1.congr (fun _ => rfl) rfl (.refl _)

lemma spec_notifyRefRemoved (p : Progress) (hl : ∀ x, p.links x ≠ none → x ∈ p.leaving)
    (id : ObjectID) (hid : id ∉ p.leaving) (hd : p.due = some id) :
    Spec strict pinning (Nesting strict pinning p) (notifyRefRemoved cfg id) (fun _ => Nesting strict pinning p) := by
  refine .bind (.deref fun _ _ h _ => h) fun ref => ?_
  refine .onlyIf (fun _ => ?_) fun _ _ h => h
  refine .seq (spec_handleRefRemoved cfg p hl id hid hd) ?_
  exact .update fun s r h hr => h.withEntry hr rfl (fun hn => absurd hd hn) fun _ ho => ho

lemma spec_deleteReferenceInternal (collect : Bool) (depth : Nat) :
    DeletesInner strict cfg (deleteReferenceInternal cfg collect depth) := by
  refine ⟨moves_shrinks_deleteReferenceInternal cfg collect depth, ?_⟩
  induction depth with
  | zero => exact fun p y _ _ => .throw (.inl rfl)
  | succ depth ih =>
    intro p id hp hid
    let N := Nesting (τ := τ) strict cfg.lineagePinningEnabled
    have hlinks : p.links id = none := not_not.mp fun hn => hid (hp.links id hn)
    have hdepth : DeletesInner strict cfg (deleteReferenceInternal cfg collect depth) :=
      ⟨moves_shrinks_deleteReferenceInternal cfg collect depth, ih⟩
    let p₁ : Progress := { p with stack := id :: p.stack }
    have hp₁ : p₁.Settled := hp.enter id
    refine .seq (spec_enter { p with due := some id } id) ?_
    refine .seq (spec_notifyRefRemoved cfg { p₁ with due := some id } hp₁.links id hid rfl) ?_
    refine .bind (.deref (Q := fun r s => N { p₁ with due := some id } s ∧
      s.refs.lookup id = some r) fun s r h hr => ⟨h, hr⟩) fun r => ?_
    -- Either the entry has left the scope, or it is in use and nothing is due.
    let L (s : State τ) : Prop := Left strict cfg.lineagePinningEnabled p₁ id r s ∧
      ∀ y ∈ r.contains, (id, y) ∈ s.unnested
    refine .seq (.onlyIf (Q := fun _ s => L s ∨
      N p₁ s ∧ ∀ r, s.refs.lookup id = some r → r.outOfScope cfg.lineagePinningEnabled = false)
      (fun ho => ?_) fun ho s h => ?_) ?_
    · exact .post (spec_leaveScope cfg hdepth collect p₁ hp₁ id hlinks mem_cons_self r ho) fun _ s h => .inl h
    · have ho := eq_false_iff.mpr ho
      refine .inr ⟨h.1.settle h.2 ho, fun r' hr' => ?_⟩
      rw [h.2] at hr'
      cases hr'
      exact ho
    refine .bind (.deref (Q := fun r s => (L s ∨
      N p₁ s ∧ ∀ r, s.refs.lookup id = some r → r.outOfScope cfg.lineagePinningEnabled = false) ∧
      s.refs.lookup id = some r) fun s r h hr => ⟨h, hr⟩) fun r' => ?_
    refine .bind (.onlyIf (fun hdel => ?_) ?_) fun _ => .pre (spec_leave p id) fun s h => ⟨h, hp.tracked⟩
    · have hout := (shouldDelete_iff.mp hdel).1
      refine .pre (P := fun s => N (p₁.push id []) s ∧ Detached strict id s) ?_ ?_
      · refine .bind (.frame (spec_releaseLineageReferences cfg depth (p₁.push id []) id hp.due)
          (moves_shrinks_releaseLineageReferences cfg depth id) fun s t hs h => h.shrinks hs) fun _ => ?_
        exact spec_eraseReference cfg p₁ id [] hid
      · rintro s ⟨h | h, hr⟩
        · exact ⟨h.1.nesting, h.1.detached⟩
        · exact absurd hout (eq_false_iff.mp (h.2 r' hr))
    · rintro hdel s ⟨h | h, hr⟩
      · obtain ⟨q, hq, hout⟩ := h.1.nesting.held id mem_cons_self
        rw [hr] at hq
        cases hq
        have hpin : cfg.lineagePinningEnabled = true ∧ r'.lineageRefCount ≠ 0 := by
          rw [shouldDelete_iff] at hdel
          exact Classical.not_imp.mp fun hn => hdel ⟨hout, hn⟩
        obtain ⟨hd, hc⟩ := h.1.released r' hr
        exact h.1.nesting.pop hlinks hr hpin.1 hd h.1.detached.free (hc ▸ h.2)
      · exact h.1

end AmazonRay.ReferenceCounter
