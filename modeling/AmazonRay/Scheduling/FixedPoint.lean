import AmazonRay.Lib.Binary64

/-! `FixedPoint`, the number type of the resource scheduler. A double is the rational number it stands for, its products
are rounded, and the `int64_t` arithmetic does not overflow. -/
namespace AmazonRay.Scheduling

@[ext]
structure FixedPoint where
  i : ℤ
  deriving DecidableEq

namespace FixedPoint

/-- `static_cast<int64_t>(d * RESOURCE_UNIT_SCALING)`, which truncates the rounded product. -/
def scaled (d : ℚ) : ℤ :=
  let product := Binary64.nearest (d * 10000)
  product.num.tdiv product.den

/-- The cast of a negative double to `uint64_t` is undefined. -/
def ofDouble (castNegative : ℤ → ℤ) (d : ℚ) : FixedPoint :=
  ⟨if Binary64.nearest (d * 10000) ≤ -1 then castNegative (scaled d) else scaled d⟩

def add (x y : FixedPoint) : FixedPoint := ⟨x.i + y.i⟩

def addAssign (x y : FixedPoint) : FixedPoint := ⟨x.i + y.i⟩

def sub (x y : FixedPoint) : FixedPoint := ⟨x.i - y.i⟩

def subAssign (x y : FixedPoint) : FixedPoint := ⟨x.i - y.i⟩

def neg (x : FixedPoint) : FixedPoint := ⟨-x.i⟩

def addDouble (x : FixedPoint) (d : ℚ) : FixedPoint := ⟨x.i + scaled d⟩

/-- The source adds here. -/
def subDouble (x : FixedPoint) (d : ℚ) : FixedPoint := ⟨x.i + scaled d⟩

def assignDouble (_ : FixedPoint) (d : ℚ) : FixedPoint := ⟨scaled d⟩

def addAssignDouble (x : FixedPoint) (d : ℚ) : FixedPoint := ⟨x.i + scaled d⟩

def lt (x y : FixedPoint) : Prop := x.i < y.i

variable {castNegative : ℤ → ℤ} {d : ℚ} {n : ℤ}

lemma scaled_of_whole (hn : Binary64.nearest (d * 10000) = n) : scaled d = n := by
  rw [scaled, hn, Rat.num_intCast, Rat.den_intCast]
  exact n.tdiv_one

lemma ofDouble_of_whole (hn : Binary64.nearest (d * 10000) = n) (hpos : 0 ≤ n) : ofDouble castNegative d = ⟨n⟩ := by
  have hcast : ¬((n : ℚ) ≤ -1) := by
    have : (0 : ℚ) ≤ n := Int.cast_nonneg hpos
    linarith
  rw [ofDouble, scaled_of_whole hn, hn, if_neg hcast]

/-- The additive operators form an ordered group. Those with a double as operand agree with them, but for the
subtraction of a double other than zero. -/
theorem double_operators_coherent (hn : Binary64.nearest (d * 10000) = n) (hpos : 0 ≤ n) (x y z : FixedPoint) :
    (x.addDouble d = x.add (ofDouble castNegative d) ∧
      x.addAssignDouble d = x.addAssign (ofDouble castNegative d) ∧
      x.assignDouble d = ofDouble castNegative d ∧
      (x.subDouble d = x.sub (ofDouble castNegative d) ↔ n = 0) ∧
      ((x.subDouble d).addDouble d = x ↔ n = 0)) ∧
    ((x.add y).add z = x.add (y.add z) ∧ x.add y = y.add x ∧ x.add (ofDouble castNegative 0) = x ∧
      x.add x.neg = ofDouble castNegative 0 ∧ x.sub y = x.add y.neg ∧ x.addAssign y = x.add y ∧
      x.subAssign y = x.sub y ∧ (x.lt y ↔ (x.add z).lt (y.add z))) := by
  have hscaled := scaled_of_whole hn
  have hzero : ofDouble castNegative 0 = ⟨0⟩ := ofDouble_of_whole (by decide +kernel) le_rfl
  rw [ofDouble_of_whole hn hpos, hzero]
  refine ⟨⟨by rw [addDouble, hscaled, add], by rw [addAssignDouble, hscaled, addAssign], by rw [assignDouble, hscaled],
    ?_, ?_⟩, ?_, ?_, ?_, ?_, ?_, rfl, rfl, ?_⟩
  all_goals
    simp only [addDouble, subDouble, add, sub, neg, lt, FixedPoint.ext_iff, hscaled]
    omega

/-- The double nearest to 0.7, which is below it: only the rounded product is a whole number. -/
def sevenTenths : ℚ := 3152519739159347 / 4503599627370496

theorem double_operators_coherent_sevenTenths : sevenTenths * 10000 ≠ 7000 ∧
    (⟨20000⟩ : FixedPoint).addDouble sevenTenths = (⟨20000⟩ : FixedPoint).add (ofDouble id sevenTenths) :=
  ⟨by decide +kernel, (double_operators_coherent (n := 7000) (by decide +kernel) (by decide) ⟨20000⟩ ⟨0⟩ ⟨0⟩).1.1⟩

/-- 2 - 1.0 is 3, and it is 1 with the `FixedPoint` of 1.0. -/
theorem subDouble_adds :
    (⟨20000⟩ : FixedPoint).subDouble 1 = ⟨30000⟩ ∧ (⟨20000⟩ : FixedPoint).sub (ofDouble id 1) = ⟨10000⟩ := by
  decide +kernel

end FixedPoint
end AmazonRay.Scheduling
