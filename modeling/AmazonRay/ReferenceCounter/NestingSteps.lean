import AmazonRay.ReferenceCounter.NestingDeletion

/-! The steps by which objects are nested and used keep the index. -/
namespace AmazonRay.ReferenceCounter
open Program List State Reference Progress Function

variable {τ : Type} {strict pinning : Bool} {p : Progress} {s : State τ} {id : ObjectID}

variable {r : Reference} {l : List ObjectID} {count : Reference → Reference} {outer x : ObjectID} {r' : Reference}

lemma Reference.outOfScope_of_refCount (h : r.refCount ≠ 0) : r.outOfScope pinning = false :=
  Bool.eq_false_iff.mpr fun ho => h (outOfScope_iff.mp ho).1

lemma Nesting.withEntry_le (h : Nesting strict pinning p s)
    (hx : s.refs.lookup id = some r) (hr : r'.links = r.links) (hp : p.leaving = [])
    (ho : r'.outOfScope pinning = true → 0 < r'.lineageRefCount →
      r.outOfScope pinning = true ∧ 0 < r.lineageRefCount ∧ (r'.onDelete = true → r.onDelete = true)) :
    Nesting strict pinning p (s.withEntry id r') := by
  refine h.withEntry hx hr ?_ (by rw [hp]; exact fun hl => absurd hl not_mem_nil)
  intro hd hl hout hlin
  obtain ⟨hout, hlin, hdel⟩ := ho hout hlin
  obtain ⟨hpin, hn, hfree⟩ := h.kept id r hx hd hl hout hlin
  exact ⟨hpin, Bool.eq_false_iff.mpr fun hd => Bool.eq_false_iff.mp hn (hdel hd), hfree⟩

lemma Nesting.emplace (h : Nesting strict pinning p s)
    (hx : s.refs.lookup id = none) (hl : p.links id = none) (hc : r.contains = [])
    (hi : ∀ side, r.containers side = []) (hlin : r.lineageRefCount = 0) :
    Nesting strict pinning p (s.withEntry id r) := by
  have new : ∀ x q, s.refs.lookup x = some q → (s.withEntry id r).refs.lookup x = some q := by
    intro x q hq
    have hne : x ≠ id := by
      rintro rfl
      rw [hx] at hq
      cases hq
    rwa [withEntry_lookup, if_neg hne]
  have old : ∀ x q, (s.withEntry id r).refs.lookup x = some q → s.refs.lookup x = some q ∨ x = id ∧ q = r := by
    intro x q hq
    rw [withEntry_lookup] at hq
    split at hq
    case isTrue he => exact .inr ⟨he, (Option.some.inj hq).symm⟩
    · exact .inl hq
  refine ⟨h.stack, h.tracked, ?_, ?_, ?_, ?_, ?_⟩
  · intro x q hq
    rcases old x q hq with hq | ⟨rfl, rfl⟩
    · exact h.nodup x q hq
    · exact hc ▸ nodup_nil
  · intro side hside y i hy x hm
    rcases old y i hy with hy | ⟨rfl, rfl⟩
    · obtain ⟨q, hq, hm⟩ := h.listed side hside y i hy x hm
      exact ⟨q, new x q hq, hm⟩
    · exact absurd (hi side ▸ hm) not_mem_nil
  · intro x q hq y hy hun
    rcases old x q hq with hq | ⟨rfl, rfl⟩
    · obtain ⟨i, hi, hm⟩ := h.nested x q hq y hy hun
      exact ⟨i, new y i hi, hm⟩
    · rw [linked, hl, Option.getD_none, hc] at hy
      exact absurd hy not_mem_nil
  · intro x q hq hd hn hout hpos
    rcases old x q hq with hq | ⟨rfl, rfl⟩
    · obtain ⟨hpin, hdel, hfree⟩ := h.kept x q hq hd hn hout hpos
      refine ⟨hpin, hdel, fun side hside y i hy hm => ?_⟩
      rcases old y i hy with hy | ⟨rfl, rfl⟩
      · exact hfree side hside y i hy hm
      · exact absurd (hi side ▸ hm) not_mem_nil
    · exact absurd hlin hpos.ne'
  · intro x hxl
    obtain ⟨q, hq, ho⟩ := h.held x hxl
    exact ⟨q, new x q hq, ho⟩

/-- Nested uses may have been flagged for the report, and nothing else. -/
structure Flagged (s t : State τ) : Prop where
  entries : ∀ x, t.refs.lookup x = s.refs.lookup x ∨ ∃ r, s.refs.lookup x = some r ∧
    t.refs.lookup x = some { r with hasNestedRefsToReport := true }
  unnested : t.unnested = s.unnested

lemma Flagged.sameCore {t : State τ} (h : Flagged s t) : SameCore s t := by
  refine ⟨fun x => ?_, h.unnested⟩
  rcases h.entries x with hx | ⟨r, hr, hx⟩
  · rw [hx]
  · rw [hx, hr]
    rfl

instance : IsPreorder (State τ) Flagged where
  refl _ := ⟨fun _ => .inl rfl, rfl⟩
  trans s t u h h' := by
    refine ⟨fun x => ?_, h'.unnested.trans h.unnested⟩
    rcases h'.entries x with hx | ⟨r, hr, hx⟩
    · rw [hx]
      exact h.entries x
    · rcases h.entries x with hx' | ⟨r', hr', hx'⟩
      · exact .inr ⟨r, hx' ▸ hr, hx⟩
      · rw [hx'] at hr
        cases hr
        exact .inr ⟨r', hr', hx⟩

lemma spec_setNestedRefInUseRecursive {F : State τ → Prop}
    (hF : ∀ s t, Flagged s t → F s → F t) (p : Progress) (hp : p.leaving = []) (depth : Nat)
    (id : ObjectID) :
    Spec strict pinning (fun s => Nesting strict pinning p s ∧ F s)
      (setNestedRefInUseRecursive depth id) (fun _ s => Nesting strict pinning p s ∧ F s) := by
  induction depth generalizing id F with
  | zero => exact .throw (.inl rfl)
  | succ depth ih =>
    refine .named fun s₁ => ?_
    let G (ref : Reference) (s : State τ) : Prop := Flagged s₁ s ∧ s₁.refs.lookup id = some ref ∧ F s
    have hG : ∀ ref s t, Flagged s t → G ref s → G ref t := fun ref s t hst h =>
      ⟨trans_of _ h.1 hst, h.2.1, hF s t hst h.2.2⟩
    refine .bind (.deref (Q := fun ref s => Nesting strict pinning p s ∧ G ref s) ?_) fun ref => ?_
    · rintro s ref ⟨h, rfl⟩ href
      exact ⟨h.1, refl_of _ s, href, h.2⟩
    refine .post (.forM_mem ?_) fun _ s h => ⟨h.1, h.2.2.2⟩
    intro outerId hmem
    refine .bind (.find (Q := fun o s => (Nesting strict pinning p s ∧ G ref s) ∧
      s.refs.lookup outerId = o) fun s h => ⟨h, rfl⟩) fun o => ?_
    cases o with
    | none =>
      refine .throw (.inr ?_)
      rintro s ⟨⟨h, hc, href, _⟩, hnone⟩
      obtain ⟨r, hr, he⟩ := hc.sameCore.entries.forward href
      have hin : outerId ∈ r.containers false := by
        rw [containers_eq (core_eq he).1]
        exact hmem
      obtain ⟨q, hq, _⟩ := h.listed false (.inr rfl) id r hr outerId hin
      exact absurd (hq.symm.trans hnone) (Option.some_ne_none q)
    | some outer =>
      refine .onlyIf (fun _ => ?_) fun _ s h => h.1
      refine .bind (.update ?_) fun _ => ih (hG ref) outerId
      rintro s r ⟨⟨h, hg⟩, _⟩ hr
      refine ⟨h.withEntry_le hr rfl hp fun ho => ?_, hG ref s _ ⟨fun x => ?_, rfl⟩ hg⟩
      · exact nomatch ((outOfScope_iff.mp ho).2.2.1)
      · rw [withEntry_lookup]
        split
        case isTrue he => exact .inr ⟨r, he ▸ hr, rfl⟩
        · exact .inl rfl

section

variable (cfg : Config τ)

lemma spec_addUse {P F : State τ → Prop} (hF : ∀ s t, Flagged s t → F s → F t) (p : Progress)
    (hp : p.leaving = []) (id : ObjectID) (count : Reference → Reference)
    (hup : ∀ s r, P s → s.refs.lookup id = some r →
      Nesting strict pinning p (s.withEntry id (count r)) ∧ F (s.withEntry id (count r))) :
    Spec strict pinning P (addUse cfg id count) (fun _ s => Nesting strict pinning p s ∧ F s) := by
  refine .bind (.deref fun _ _ h _ => h) fun before => ?_
  refine .seq (.update (Q := fun _ s => Nesting strict pinning p s ∧ F s) hup) ?_
  refine .bind (.deref fun _ _ h _ => h) fun after => ?_
  exact .onlyIf (fun _ => spec_setNestedRefInUseRecursive hF p hp _ id) fun _ _ h => h

lemma spec_removeUse (collect : Bool) (id : ObjectID) (count : Reference → Reference)
    (hc : ∀ r, (count r).links = r.links) :
    Spec strict cfg.lineagePinningEnabled (Nesting strict cfg.lineagePinningEnabled {})
      (removeUse cfg collect id count) (fun _ => Nesting strict cfg.lineagePinningEnabled {}) := by
  refine .seq (.update (Q := fun _ => Nesting strict cfg.lineagePinningEnabled { due := some id }) ?_) ?_
  · intro s r h hr
    exact (h.makeDue rfl id).withEntry hr (hc r) (fun hd => absurd rfl hd) fun hl => absurd hl not_mem_nil
  refine .bind (.deref (Q := fun r s =>
    Nesting strict cfg.lineagePinningEnabled { due := some id } s ∧ s.refs.lookup id = some r)
    fun s r h hr => ⟨h, hr⟩) fun r => ?_
  refine .onlyIf (fun _ => ?_) fun hn s h => h.1.settle h.2 (outOfScope_of_refCount hn)
  exact .pre ((spec_deleteReferenceInternal cfg collect _).2 {} id
    ⟨rfl, fun _ h => absurd rfl h, fun _ h => h⟩ not_mem_nil) fun s h => h.1

end

def Progress.nesting (p : Progress) (outer : ObjectID) (l : List ObjectID) : Progress :=
  { p with links := Function.update p.links outer (some l) }

lemma Progress.nesting_linked (p : Progress) (outer : ObjectID) (l : List ObjectID)
    (r : Reference) : (p.nesting outer l).linked outer r = l := by
  simp [linked, nesting]

lemma Progress.nesting_linked_ne (p : Progress) (l : List ObjectID)
    (r : Reference) (h : x ≠ outer) : (p.nesting outer l).linked x r = p.linked x r := by
  simp only [linked, nesting, update_of_ne h]

lemma Progress.nesting_links (p : Progress) (outer : ObjectID) (l : List ObjectID) :
    (p.nesting outer l).links outer = some l := update_self _ _ _

lemma Progress.nesting_links_ne (p : Progress) (l : List ObjectID)
    (h : x ≠ outer) : (p.nesting outer l).links x = p.links x := update_of_ne h _ _

lemma Nesting.extend (h : Nesting strict pinning p s)
    (hp : p.leaving = []) (hl : p.links id = none) (hx : s.refs.lookup id = some r)
    (ho : r'.ownedByUs = r.ownedByUs) (hi : ∀ owned, r'.containers owned = r.containers owned)
    (hc : r.contains ⊆ r'.contains) (hnd : r'.contains.Nodup)
    (hll : ∀ y ∈ l, y ∈ r.contains ∧ (id, y) ∉ s.unnested)
    (hsc : ¬ (r'.outOfScope pinning = true ∧ 0 < r'.lineageRefCount)) :
    Nesting strict pinning (p.nesting id l) (s.withEntry id r') := by
  have old : ∀ x a, (s.withEntry id r').refs.lookup x = some a → ∃ b, s.refs.lookup x = some b ∧
      a.ownedByUs = b.ownedByUs ∧ (∀ owned, a.containers owned = b.containers owned) ∧
      (x ≠ id → a = b) := by
    intro x a ha
    rcases Table.lookup_of_insert ha with ⟨rfl, rfl⟩ | ⟨-, ha⟩
    · exact ⟨r, hx, ho, hi, fun hn => absurd rfl hn⟩
    · exact ⟨a, ha, rfl, fun _ => rfl, fun _ => rfl⟩
  have new : ∀ x b, s.refs.lookup x = some b → ∃ a, (s.withEntry id r').refs.lookup x = some a ∧
      a.ownedByUs = b.ownedByUs ∧ (∀ owned, a.containers owned = b.containers owned) ∧
      b.contains ⊆ a.contains := by
    intro x b hb
    rw [withEntry_lookup]
    split
    case isTrue he =>
      rw [he, hx] at hb
      cases hb
      exact ⟨r', rfl, ho, hi, hc⟩
    · exact ⟨b, hb, rfl, fun _ => rfl, .refl _⟩
  have subset : ∀ y a, (s.withEntry id r').refs.lookup y = some a → ∃ b, s.refs.lookup y = some b ∧
      ∀ side, a.containers side ⊆ b.containers side := by
    intro y a ha
    obtain ⟨b, hb, _, hbi, _⟩ := old y a ha
    exact ⟨b, hb, fun side => hbi side ▸ .refl _⟩
  refine ⟨h.stack, h.tracked, ?_, h.listed.mono subset ?_, ?_, ?_, ?_⟩
  · intro x a ha
    rw [withEntry_lookup] at ha
    split at ha
    · cases ha
      exact hnd
    · exact h.nodup x a ha
  · intro x b hb
    obtain ⟨a, ha, ho', _, hc'⟩ := new x b hb
    exact ⟨a, ha, ho', hc'⟩
  · intro x a ha y hy hun
    obtain ⟨b, hb, hbo, _, hbe⟩ := old x a ha
    have hy : y ∈ p.linked x b ∧ (p.links x = none → (x, y) ∉ s.unnested) := by
      by_cases he : x = id
      · subst he
        rw [hx] at hb
        cases hb
        rw [nesting_linked] at hy
        rw [linked, hl]
        exact ⟨(hll y hy).1, fun _ => (hll y hy).2⟩
      · rw [nesting_linked_ne p _ a he] at hy
        exact ⟨hbe he ▸ hy, fun hn => hun ((nesting_links_ne p l he).trans hn)⟩
    obtain ⟨i, hi', hm⟩ := h.nested x b hb y hy.1 hy.2
    obtain ⟨i', hi'', _, hii, _⟩ := new y i hi'
    exact ⟨i', hi'', by rwa [hii, hbo]⟩
  · intro x a ha hd hn hout hlin
    by_cases he : x = id
    · subst he
      rw [withEntry_lookup, if_pos rfl] at ha
      cases ha
      exact absurd ⟨hout, hlin⟩ hsc
    · rw [withEntry_lookup, if_neg he] at ha
      obtain ⟨hpin, hdel, hfree⟩ := h.kept x a ha hd hn hout hlin
      exact ⟨hpin, hdel, hfree.mono subset⟩
  · intro x hxl
    exact absurd (hp ▸ hxl : x ∈ ([] : List ObjectID)) not_mem_nil

lemma Nesting.link {i i' : Reference} {y : ObjectID}
    (h : Nesting strict pinning (p.nesting id l) s) (hp : p.leaving = [])
    (hx : s.refs.lookup id = some r) (hsc : ¬ (r.outOfScope pinning = true ∧ 0 < r.lineageRefCount))
    (hmem : y ∈ r.contains) (hy : s.refs.lookup y = some i)
    (ho : i'.ownedByUs = i.ownedByUs) (hc : i'.contains = i.contains)
    (hm : ∀ owned x, x ∈ i'.containers owned ↔ x ∈ i.containers owned ∨ x = id ∧ owned = r.ownedByUs) :
    Nesting strict pinning (p.nesting id (y :: l)) (s.withEntry y i') := by
  have new : ∀ x b, s.refs.lookup x = some b → ∃ a, (s.withEntry y i').refs.lookup x = some a ∧
      a.ownedByUs = b.ownedByUs ∧ a.contains = b.contains ∧
      ∀ side, b.containers side ⊆ a.containers side := by
    intro x b hb
    rw [withEntry_lookup]
    split
    case isTrue he =>
      rw [he, hy] at hb
      cases hb
      exact ⟨i', rfl, ho, hc, fun side z hz => (hm side z).mpr (.inl hz)⟩
    · exact ⟨b, hb, rfl, rfl, fun _ => .refl _⟩
  have old : ∀ x a, (s.withEntry y i').refs.lookup x = some a → ∃ b, s.refs.lookup x = some b ∧
      a.ownedByUs = b.ownedByUs ∧ a.contains = b.contains := by
    intro x a ha
    rcases Table.lookup_of_insert ha with ⟨rfl, rfl⟩ | ⟨-, ha⟩
    · exact ⟨i, hy, ho, hc⟩
    · exact ⟨a, ha, rfl, rfl⟩
  have hlinked : id ∈ i'.containers r.ownedByUs := (hm _ _).mpr (.inr ⟨rfl, rfl⟩)
  -- The only new link is the one to the outer object.
  have hcase : ∀ z a side x, (s.withEntry y i').refs.lookup z = some a → x ∈ a.containers side →
      (∃ b, s.refs.lookup z = some b ∧ x ∈ b.containers side) ∨ z = y ∧ x = id ∧ side = r.ownedByUs := by
    intro z a side x ha hxa
    rcases Table.lookup_of_insert ha with ⟨rfl, rfl⟩ | ⟨-, ha⟩
    · exact ((hm side x).mp hxa).imp (fun hz => ⟨i, hy, hz⟩) fun hz => ⟨rfl, hz⟩
    · exact .inl ⟨a, ha, hxa⟩
  refine ⟨h.stack, h.tracked, ?_, ?_, ?_, ?_, ?_⟩
  · intro x a ha
    obtain ⟨b, hb, _, hcb⟩ := old x a ha
    exact hcb ▸ h.nodup x b hb
  · intro side hside z a ha x hxa
    rcases hcase z a side x ha hxa with ⟨b, hb, hmem'⟩ | ⟨rfl, rfl, rfl⟩
    · obtain ⟨q, hq, hqo, hqc⟩ := h.listed side hside z b hb x hmem'
      obtain ⟨q', hq', ho', hc', _⟩ := new x q hq
      exact ⟨q', hq', ho'.trans hqo, hc' ▸ hqc⟩
    · obtain ⟨q', hq', ho', hc', _⟩ := new x r hx
      exact ⟨q', hq', ho', hc' ▸ hmem⟩
  · intro x a ha z hz hun
    obtain ⟨b, hb, hbo, hbc⟩ := old x a ha
    have hcase : z ∈ (p.nesting id l).linked x b ∧
        ((p.nesting id l).links x = none → (x, z) ∉ s.unnested) ∨ x = id ∧ z = y := by
      by_cases he : x = id
      · subst he
        rw [nesting_linked] at hz ⊢
        refine (mem_cons.mp hz).symm.imp (fun hz => ⟨hz, fun hn => ?_⟩) fun hz => ⟨rfl, hz⟩
        exact nomatch p.nesting_links _ _ ▸ hn
      · rw [nesting_linked_ne p _ _ he] at hz ⊢
        rw [nesting_links_ne p _ he] at hun ⊢
        exact .inl ⟨by simpa only [linked, hbc] using hz, hun⟩
    rcases hcase with hz | ⟨rfl, rfl⟩
    · obtain ⟨j, hj, hjm⟩ := h.nested x b hb z hz.1 hz.2
      obtain ⟨j', hj', _, _, hsub⟩ := new z j hj
      exact ⟨j', hj', hbo ▸ hsub _ hjm⟩
    · rw [hx] at hb
      cases hb
      exact ⟨i', by rw [withEntry_lookup, if_pos rfl], hbo ▸ hlinked⟩
  · intro x a ha hd hn hout hlin
    by_cases he : x = y
    · subst he
      rw [withEntry_lookup, if_pos rfl] at ha
      cases ha
      rw [Nesting.containers_nil hout] at hlinked
      exact absurd hlinked not_mem_nil
    · rw [withEntry_lookup, if_neg he] at ha
      obtain ⟨hpin, hdel, hfree⟩ := h.kept x a ha hd hn hout hlin
      refine ⟨hpin, hdel, fun side hside z c hc hxc => ?_⟩
      rcases hcase z c side x hc hxc with ⟨b, hb, hb'⟩ | ⟨_, rfl, _⟩
      · exact hfree side hside z b hb hb'
      · rw [ha] at hx
        cases hx
        exact hsc ⟨hout, hlin⟩
  · intro x hxl
    exact absurd (hp ▸ hxl : x ∈ ([] : List ObjectID)) not_mem_nil

lemma Nesting.close {innerIds : List ObjectID} (h : Nesting strict pinning (p.nesting id l) s) (hl : p.links id = none)
    (hx : s.refs.lookup id = some r)
    (hc : ∀ y ∈ r.contains, y ∈ l ∨ (id, y) ∈ s.unnested ∧ y ∉ innerIds) :
    Nesting strict pinning p { s with
      unnested := s.unnested.filter fun link => ¬ (link.1 = id ∧ link.2 ∈ innerIds) } := by
  refine ⟨h.stack, h.tracked, h.nodup, h.listed, ?_, h.kept, h.held⟩
  intro x r' hx' y hy hun
  by_cases he : x = id
  · subst he
    rw [show s.refs.lookup x = some r' from hx'] at hx
    cases hx
    rw [linked, hl] at hy
    have hyl : y ∈ l := (hc y hy).resolve_right fun hn => hun hl (mem_filter.mpr ⟨hn.1, by simp [hn.2]⟩)
    exact h.nested x r hx' y (by rwa [nesting_linked]) fun hn => by
      simp [nesting_links] at hn
  · refine h.nested x r' hx' y (by rwa [nesting_linked_ne p l r' he]) fun hn hmem => ?_
    rw [nesting_links_ne p _ he] at hn
    exact hun hn (mem_filter.mpr ⟨hmem, by simp [he]⟩)

def Keeps (strict : Bool) (cfg : Config τ) {α : Type} (x : RefM τ α) : Prop :=
  Spec strict cfg.lineagePinningEnabled (Nesting strict cfg.lineagePinningEnabled {}) x
    fun _ => Nesting strict cfg.lineagePinningEnabled {}

variable {cfg : Config τ} {α β ι : Type} {collect : Bool} {depth : Nat} {e : Check} {c : Prop}

lemma Keeps.bind {x : RefM τ α} {f : α → RefM τ β} (hx : Keeps strict cfg x)
    (hf : ∀ a, Keeps strict cfg (f a)) : Keeps strict cfg (x >>= f) := Spec.bind hx hf

lemma Keeps.pure (a : α) : Keeps strict cfg (Pure.pure a : RefM τ α) := Spec.pure fun _ h => h

lemma Keeps.throw (he : e.isNesting = false) : Keeps strict cfg (MonadExcept.throw e : RefM τ α) := Spec.throw (.inl he)

lemma Keeps.onlyIf [Decidable c] {x : RefM τ Unit} (hx : c → Keeps strict cfg x) :
    Keeps strict cfg (Program.onlyIf c x) := Spec.onlyIf hx fun _ _ h => h

lemma Keeps.check [Decidable c] (he : e.isNesting = false) : Keeps strict cfg (Program.check e c) := .check_keep he

lemma Keeps.forM {f : ι → RefM τ Unit} (hf : ∀ i, Keeps strict cfg (f i)) (l : List ι) :
    Keeps strict cfg (l.forM f) := .forM_mem fun i _ => hf i

lemma Keeps.get : Keeps strict cfg (MonadState.get : RefM τ (State τ)) := Spec.get fun _ h => h

lemma Keeps.deref : Keeps strict cfg (deref id) := Spec.deref fun _ _ h _ => h

lemma Keeps.modify {g : State τ → State τ} (hh : ∀ s, (g s).history = s.history)
    (hr : ∀ s, (g s).refs = s.refs) (hst : ∀ s, (g s).releasing = s.releasing)
    (hu : ∀ s, (g s).unnested = s.unnested) : Keeps strict cfg (modify g : RefM τ PUnit) :=
  Spec.modify hh fun s h => h.congr (fun _ => by rw [hr]) (hst s) (hu s ▸ .refl _)

lemma Keeps.update {f : Reference → Reference} (hl : ∀ r, (f r).links = r.links)
    (ho : ∀ r, (f r).outOfScope cfg.lineagePinningEnabled = true → 0 < (f r).lineageRefCount →
      r.outOfScope cfg.lineagePinningEnabled = true ∧ 0 < r.lineageRefCount ∧
        ((f r).onDelete = true → r.onDelete = true)) :
    Keeps strict cfg (update id f) :=
  Spec.update fun _ r h hr => h.withEntry_le hr (hl r) rfl (ho r)

lemma Keeps.findOrEmplace : Keeps strict cfg (findOrEmplace id) :=
  Spec.findOrEmplace (fun _ _ h _ => h) fun _ h hn => h.emplace hn rfl rfl (by intro side; cases side <;> rfl) rfl

lemma Keeps.addUse (hl : ∀ r, (count r).links = r.links)
    (hc : ∀ r, (count r).refCount ≠ 0) : Keeps strict cfg (addUse cfg id count) := by
  refine .post (spec_addUse cfg (F := fun _ => True) (fun _ _ _ h => h) {} rfl id count ?_) fun _ s h => h.1
  intro s r h hr
  refine ⟨h.withEntry_le hr (hl r) rfl fun ho => ?_, trivial⟩
  exact absurd ho (Bool.eq_false_iff.mp (outOfScope_of_refCount (hc r)))

lemma Keeps.removeUse (hl : ∀ r, (count r).links = r.links) : Keeps strict cfg (removeUse cfg collect id count) :=
  spec_removeUse cfg collect id count hl

lemma Keeps.deleteReferenceInternal : Keeps strict cfg (deleteReferenceInternal cfg collect depth id) :=
  .pre ((spec_deleteReferenceInternal cfg collect depth).2 {} id
    ⟨rfl, fun _ h => absurd rfl h, fun _ h => h⟩ not_mem_nil) fun _ h => h.makeDue rfl id

lemma Keeps.setNestedRefInUseRecursive : Keeps strict cfg (setNestedRefInUseRecursive depth id) :=
  .pre (.post (spec_setNestedRefInUseRecursive (fun _ _ _ h => h) {}
    rfl depth id) fun _ _ h => h.1) fun _ h => ⟨h, trivial⟩

end AmazonRay.ReferenceCounter
