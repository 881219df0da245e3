import AmazonRay.Lib.Table
import AmazonRay.ReferenceCounter.Operations

namespace AmazonRay.ReferenceCounter
open Program

variable {τ : Type} {P : State τ → Prop} {E : Check → State τ → Prop} {id : ObjectID}

def State.withEntry (s : State τ) (id : ObjectID) (ref : Reference) : State τ :=
  { s with refs := s.refs.insert id ref }

variable {f : Reference → Reference} {Q : Reference → State τ → Prop}

@[simp] lemma State.withEntry_lookup (s : State τ) (id x : ObjectID) (ref : Reference) :
    (s.withEntry id ref).refs.lookup x = if x = id then some ref else s.refs.lookup x :=
  Table.lookup_insert s.refs id x ref

lemma State.withEntry_self (s : State τ) (id : ObjectID) (ref : Reference) :
    (s.withEntry id ref).refs.lookup id = some ref := by
  rw [State.withEntry_lookup, if_pos rfl]

lemma State.withEntry_ne (s : State τ) {id x : ObjectID} (ref : Reference) (h : x ≠ id) :
    (s.withEntry id ref).refs.lookup x = s.refs.lookup x := by
  rw [State.withEntry_lookup, if_neg h]

lemma triple_find {Q : Option Reference → State τ → Prop}
    (h : ∀ s, P s → Q (s.refs.lookup id) s) : Triple P (find id) Q E := fun s hs => h s hs

lemma triple_deref (h : ∀ s ref, P s → s.refs.lookup id = some ref → Q ref s)
    (hn : ∀ s, P s → s.refs.lookup id = none → E .danglingIterator s) :
    Triple P (deref id) Q E := by
  refine .bind (triple_find (Q := fun o s => P s ∧ s.refs.lookup id = o) fun s hs => ⟨hs, rfl⟩) fun o => ?_
  cases o with
  | none => exact .throw fun s hs => hn s hs.1 hs.2
  | some ref => exact .pure fun s hs => h s ref hs.1 hs.2

lemma triple_update {Q : Unit → State τ → Prop}
    (h : ∀ s ref, P s → s.refs.lookup id = some ref → Q () (s.withEntry id (f ref)))
    (hn : ∀ s, P s → s.refs.lookup id = none → E .danglingIterator s) :
    Triple P (update id f) Q E :=
  .bind (triple_deref (Q := fun ref s => P s ∧ s.refs.lookup id = some ref)
    (fun _ _ hs hr => ⟨hs, hr⟩) hn) fun ref => .update fun s hs => h s ref hs.1 hs.2

lemma triple_findOrEmplace (h : ∀ s ref, P s → s.refs.lookup id = some ref → Q ref s)
    (hn : ∀ s, P s → s.refs.lookup id = none → Q {} (s.withEntry id {})) :
    Triple P (findOrEmplace id) Q E := by
  refine .bind (triple_find (Q := fun o s => P s ∧ s.refs.lookup id = o) fun s hs => ⟨hs, rfl⟩) fun o => ?_
  cases o with
  | none => exact .bind (.update fun s hs => hn s hs.1 hs.2) fun _ => .skip
  | some ref => exact .pure fun s hs => h s ref hs.1 hs.2

lemma triple_eraseReference {cfg : Config τ} {Q : Unit → State τ → Prop}
    (h : ∀ s ref, P s → s.refs.lookup id = some ref → ref.shouldDelete cfg.lineagePinningEnabled = true →
      ∀ n, Q () { s.eraseEntry id ref with shutdowns := n })
    (hn : ∀ s, P s → s.refs.lookup id = none → E .danglingIterator s)
    (he : ∀ s ref, P s → s.refs.lookup id = some ref → E .eraseInUse s) :
    Triple P (eraseReference cfg id) Q E := by
  refine .bind (triple_deref (Q := fun ref s => P s ∧ s.refs.lookup id = some ref)
    (fun _ _ hs hr => ⟨hs, hr⟩) hn) fun ref => ?_
  refine .seq (.check (Q := fun _ s => (P s ∧ s.refs.lookup id = some ref) ∧
    ref.shouldDelete cfg.lineagePinningEnabled = true)
    (fun hd _ hs => ⟨hs, hd⟩) (fun _ s hs => he s ref hs.1 hs.2)) ?_
  refine .seq (.update (Q := fun _ t => ∃ s, (P s ∧ s.refs.lookup id = some ref) ∧
    ref.shouldDelete cfg.lineagePinningEnabled = true ∧ t = s.eraseEntry id ref)
    fun s hs => ⟨s, hs.1, hs.2, rfl⟩) ?_
  refine .update ?_
  rintro _ ⟨s, ⟨hs, href⟩, hd, rfl⟩
  exact h s ref hs href hd _

variable {R : State τ → State τ → Prop}

lemma moves_update [IsPreorder (State τ) R] (h : ∀ s ref, s.refs.lookup id = some ref → R s (s.withEntry id (f ref))) :
    Moves R (update (τ := τ) id f) :=
  moves_of_triple fun s => triple_update (fun t ref ht hr => by subst ht; exact h t ref hr)
    (fun t ht _ => by subst ht; exact refl_of R t)

end AmazonRay.ReferenceCounter
