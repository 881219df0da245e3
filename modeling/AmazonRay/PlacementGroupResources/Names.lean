import Mathlib

/-! The names of the resources of placement groups: they end with an id, and are read back up to the first keyword. -/
namespace AmazonRay.PlacementGroupResources
open List Nat

def kGroupKeyword : List Char := "_group_".toList

abbrev GroupBytes := { bytes : List UInt8 // bytes.length = 16 }

def GroupBytes.hex (id : GroupBytes) : List Char :=
  id.1.flatMap fun b => [(b.toNat / 16).digitChar, (b.toNat % 16).digitChar]

/-- There is no result if the check of the index fails. -/
def formatPlacementGroupResource (name : List Char) (id : GroupBytes) (bundleIndex : Int) : Option (List Char) :=
  if 0 ≤ bundleIndex then
    some (name ++ kGroupKeyword ++ (Nat.toDigits 10 bundleIndex.toNat ++ ['_']) ++ id.hex)
  else if bundleIndex = -1 then some (name ++ kGroupKeyword ++ id.hex)
  else none

/-- All of the name if the keyword is not found. -/
def getOriginalResourceName : List Char → List Char
  | [] => []
  | c :: rest => if kGroupKeyword <+: c :: rest then [] else c :: getOriginalResourceName rest

lemma digitChar_inj : ∀ m < 16, ∀ n < 16, m.digitChar = n.digitChar → m = n := by decide

lemma hex_inj {id id' : GroupBytes} (h : id.hex = id'.hex) : id = id' := by
  have hbytes : ∀ l l' : List UInt8, l.flatMap (fun b => [(b.toNat / 16).digitChar, (b.toNat % 16).digitChar]) =
      l'.flatMap (fun b => [(b.toNat / 16).digitChar, (b.toNat % 16).digitChar]) → l = l' := by
    intro l
    induction l with
    | nil =>
      intro l' h
      cases l' with
      | nil => rfl
      | cons b l' => simp at h
    | cons a l ih =>
      intro l' h
      cases l' with
      | nil => simp at h
      | cons b l' =>
        simp only [flatMap_cons, cons_append, nil_append, cons.injEq] at h
        have ha := a.toNat_lt
        have hb := b.toNat_lt
        have hhigh := digitChar_inj _ (by omega) _ (by omega) h.1
        have hlow := digitChar_inj _ (by omega) _ (by omega) h.2.1
        rw [ih l' h.2.2, UInt8.toNat_inj.mp (show a.toNat = b.toNat by omega)]
  exact Subtype.ext (hbytes _ _ h)

lemma length_hex (id : GroupBytes) : id.hex.length = 32 := by
  simp [GroupBytes.hex, length_flatMap, id.2, map_const']

lemma after_underscore {a a' d d' : List Char} (hd : '_' ∉ d) (hd' : '_' ∉ d')
    (h : a ++ '_' :: d = a' ++ '_' :: d') : a = a' ∧ d = d' := by
  have hlast : ∀ {a d : List Char}, '_' ∉ d → (a ++ '_' :: d).reverse.takeWhile (· ≠ '_') = d.reverse := by
    intro a d hd
    rw [reverse_append, reverse_cons, append_assoc, takeWhile_append_of_pos]
    · simp
    · intro c hc
      simpa using fun hc' : c = '_' => hd (hc' ▸ mem_reverse.mp hc)
  obtain rfl : d = d' := reverse_inj.mp (by rw [← hlast hd, h, hlast hd'])
  exact ⟨append_cancel_right h, rfl⟩

lemma index_not_name {name name' : List Char} {n : Nat} :
    name ++ kGroupKeyword ≠ name' ++ kGroupKeyword ++ (toDigits 10 n ++ ['_']) := by
  intro h
  obtain ⟨init, c, hc⟩ := (eq_nil_or_concat (toDigits 10 n)).resolve_left toDigits_ne_nil
  have hdigit : c.isDigit := isDigit_of_mem_toDigits (b := 10) (n := n) (by decide) (by decide) (by simp [hc])
  have hlast := congrArg (fun l => l.reverse.take 2) h
  rw [hc] at hlast
  obtain rfl : 'p' = c := by simpa [kGroupKeyword] using hlast
  exact absurd hdigit (by decide)

lemma formatPlacementGroupResource_inj {name name' result : List Char} {id id' : GroupBytes} {i i' : Int}
    (h : formatPlacementGroupResource name id i = some result)
    (h' : formatPlacementGroupResource name' id' i' = some result) : name = name' ∧ id = id' ∧ i = i' := by
  have hends : ∀ {a a' : List Char}, a ++ id.hex = a' ++ id'.hex → a = a' ∧ id = id' := by
    intro a a' h
    obtain ⟨ha, hid⟩ := append_inj' h (by rw [length_hex, length_hex])
    exact ⟨ha, hex_inj hid⟩
  unfold formatPlacementGroupResource at h h'
  by_cases hi : 0 ≤ i
  all_goals by_cases hi' : 0 ≤ i'
  all_goals simp only [hi, hi', if_true, if_false, Option.ite_none_right_eq_some, Option.some.injEq] at h h'
  · obtain ⟨hname, hid⟩ := hends (h.trans h'.symm)
    rw [← append_assoc, ← append_assoc, append_left_inj] at hname
    obtain ⟨hname, hdigits⟩ := after_underscore underscore_not_in_toDigits underscore_not_in_toDigits
      (show name ++ "_group".toList ++ '_' :: _ = name' ++ "_group".toList ++ '_' :: _ by
        simpa [kGroupKeyword] using hname)
    have hi := congrArg (ofDigitChars 10 · 0) hdigits
    simp only [ofDigitChars_ten_toDigits] at hi
    exact ⟨append_cancel_right hname, hid, by omega⟩
  · obtain ⟨hname, -⟩ := hends (h.trans h'.2.symm)
    exact absurd hname.symm index_not_name
  · obtain ⟨hname, -⟩ := hends (h.2.trans h'.symm)
    exact absurd hname index_not_name
  · obtain ⟨hname, hid⟩ := hends (h.2.trans h'.2.symm)
    exact ⟨append_cancel_right hname, hid, h.1.trans h'.1.symm⟩

lemma getOriginalResourceName_append {name : List Char} (rest : List Char) (h : ¬kGroupKeyword <:+: name)
    (hend : ¬"_group".toList <:+ name) : getOriginalResourceName (name ++ kGroupKeyword ++ rest) = name := by
  induction name with
  | nil => exact if_pos ⟨rest, rfl⟩
  | cons c name ih =>
    have hnot : ¬kGroupKeyword <+: c :: (name ++ kGroupKeyword ++ rest) := by
      intro hp
      rcases name with _ | ⟨c₁, _ | ⟨c₂, _ | ⟨c₃, _ | ⟨c₄, _ | ⟨c₅, _ | ⟨c₆, name⟩⟩⟩⟩⟩⟩
      all_goals simp [kGroupKeyword, cons_prefix_cons] at hp
      · obtain ⟨rfl, rfl, rfl, rfl, rfl, rfl⟩ := hp
        exact hend (suffix_refl _)
      · obtain ⟨rfl, rfl, rfl, rfl, rfl, rfl, rfl⟩ := hp
        exact h (prefix_append kGroupKeyword name).isInfix
    refine (if_neg hnot).trans ?_
    exact congrArg _ (ih (fun hin => h (hin.trans (suffix_cons c name).isInfix)) fun hs => hend (hs.trans (suffix_cons c name)))

/-- What is read ends before any place where the keyword stands. -/
lemma length_getOriginalResourceName_le (front rest : List Char) :
    (getOriginalResourceName (front ++ kGroupKeyword ++ rest)).length ≤ front.length := by
  induction front with
  | nil =>
    have hread : getOriginalResourceName ([] ++ kGroupKeyword ++ rest) = [] := if_pos ⟨rest, rfl⟩
    exact (congrArg length hread).le
  | cons c front ih =>
    rw [cons_append, cons_append, getOriginalResourceName]
    split
    · exact Nat.zero_le _
    · exact Nat.succ_le_succ ih

lemma getOriginalResourceName_append_iff {name : List Char} (rest : List Char) :
    getOriginalResourceName (name ++ kGroupKeyword ++ rest) = name ↔
      ¬kGroupKeyword <:+: name ∧ ¬"_group".toList <:+ name := by
  refine ⟨fun hread => ⟨?_, ?_⟩, fun h => getOriginalResourceName_append rest h.1 h.2⟩
  · rintro ⟨front, back, rfl⟩
    have hle := length_getOriginalResourceName_le front (back ++ kGroupKeyword ++ rest)
    rw [← append_assoc, ← append_assoc, hread] at hle
    simp [kGroupKeyword] at hle
  · rintro ⟨front, rfl⟩
    have hle := length_getOriginalResourceName_le front ("group_".toList ++ rest)
    have hsplit : front ++ kGroupKeyword ++ ("group_".toList ++ rest) =
        front ++ "_group".toList ++ kGroupKeyword ++ rest := by simp [kGroupKeyword]
    rw [hsplit, hread] at hle
    simp at hle

/-- A formatted name has one name, id and index, and the name is read back if and only if it neither contains the
keyword nor ends with all of it but the last underscore. -/
theorem formatted_name_parses (name : List Char) (id : GroupBytes) {i : Int} (hi : -1 ≤ i) :
    ∃ result, formatPlacementGroupResource name id i = some result ∧
      (∀ name' id' i', formatPlacementGroupResource name' id' i' = some result → name' = name ∧ id' = id ∧ i' = i) ∧
      (getOriginalResourceName result = name ↔ ¬kGroupKeyword <:+: name ∧ ¬"_group".toList <:+ name) := by
  have hresult : ∃ rest, formatPlacementGroupResource name id i = some (name ++ kGroupKeyword ++ rest) := by
    unfold formatPlacementGroupResource
    by_cases hpos : 0 ≤ i
    · exact ⟨_, by rw [if_pos hpos, append_assoc (name ++ kGroupKeyword)]⟩
    · exact ⟨_, by rw [if_neg hpos, if_pos (by omega)]⟩
  obtain ⟨rest, hformat⟩ := hresult
  exact ⟨_, hformat, fun name' id' i' h => formatPlacementGroupResource_inj h hformat,
    getOriginalResourceName_append_iff rest⟩

theorem formatted_name_parses_cpu : ∃ result,
    formatPlacementGroupResource "CPU".toList ⟨replicate 16 10, rfl⟩ 2 = some result ∧
      getOriginalResourceName result = "CPU".toList := by
  obtain ⟨result, hformat, -, hname⟩ := formatted_name_parses "CPU".toList ⟨replicate 16 10, rfl⟩ (i := 2) (by decide)
  exact ⟨result, hformat, hname.mpr ⟨by decide +kernel, by decide⟩⟩

/-- The keyword is found inside of the name. -/
theorem keyword_in_name_misread : ∃ result,
    formatPlacementGroupResource "my_group_gpu".toList ⟨replicate 16 10, rfl⟩ (-1) = some result ∧
      getOriginalResourceName result = "my".toList :=
  ⟨_, rfl, by decide +kernel⟩

end AmazonRay.PlacementGroupResources
