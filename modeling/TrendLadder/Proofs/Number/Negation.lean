import TrendLadder.Proofs.Number.Order
import TrendLadder.Proofs.Number.Packing

/-!
# Negated doubles

Rounding to the nearest treats both signs alike, so negating the operands of a sum, a difference, a
product or a quotient negates the result, up to the sign of a zero: `Alike` doubles are the same
number, and `Opposite` doubles are negations of each other. A double without the sign of its zero
is its `value`; sums, differences, products and comparisons only depend on the values of their
operands, and a quotient on the value of its dividend.
-/

namespace TrendLadder

open Float.Model hiding pack unpack
open Float.Model.UnpackedFloat

/-- The same number, where the two zeros are the same and a NaN is the same as a NaN. -/
def Alike (x y : Float) : Prop := (x == y) = true ∨ x.isNaN = true ∧ y.isNaN = true

/-- Each is the negation of the other. -/
def Opposite (x y : Float) : Prop := Alike y (-x)

/-! ## Unpacked doubles -/

/-- An unpacked double without the sign of its zero. -/
def unsigned : UnpackedFloat → UnpackedFloat
  | .zero _ => .zero .positive
  | u => u

theorem neg_neg_sign (s : Sign) : - -s = s := by cases s <;> rfl

theorem neg_mul_sign (s t : Sign) : -s * t = -(s * t) := by cases s <;> cases t <;> rfl

theorem neg_div_sign (s t : Sign) : -s / t = -(s / t) := by cases s <;> cases t <;> rfl

theorem apply_neg_sign (s : Sign) (n : ℤ) : (-s).apply n = -s.apply n := by
  cases s
  · exact (Int.neg_neg n).symm
  · rfl

theorem neg_neg_unpacked (u : UnpackedFloat) : u.neg.neg = u := by
  cases u <;> simp only [UnpackedFloat.neg, neg_neg_sign]

theorem unsigned_neg_unsigned (u : UnpackedFloat) :
    unsigned (unsigned u).neg = unsigned u.neg := by
  cases u <;> rfl

theorem roundWithAccuracy_neg (spec : Format) (s : Sign) (m : ℕ) (e : ℤ) (a : Accuracy) :
    roundWithAccuracy spec (-s) m e a = (roundWithAccuracy spec s m e a).neg := by
  unfold roundWithAccuracy
  dsimp only
  split <;> rfl

theorem round_neg (spec : Format) (s : Sign) (m : ℕ) (e : ℤ) :
    UnpackedFloat.round spec (-s) m e = (UnpackedFloat.round spec s m e).neg :=
  roundWithAccuracy_neg ..

/-- A negated mantissa rounds to the negated number, or to the same zero. -/
theorem unsigned_normalize_neg (spec : Format) (m e : ℤ) :
    unsigned (UnpackedFloat.normalize spec (-m) e .positive) =
      unsigned (UnpackedFloat.normalize spec m e .positive).neg := by
  unfold UnpackedFloat.normalize
  rcases lt_trichotomy m 0 with neg | rfl | pos
  · have back : compare (-m) 0 = .gt := compare_gt_iff_gt.mpr (by omega)
    have there : compare m 0 = .lt := compare_lt_iff_lt.mpr neg
    rw [back, there]
    exact congrArg unsigned (round_neg spec .negative _ e)
  · rfl
  · have back : compare (-m) 0 = .lt := compare_lt_iff_lt.mpr (by omega)
    have there : compare m 0 = .gt := compare_gt_iff_gt.mpr pos
    rw [back, there]
    dsimp only
    rw [Int.neg_neg]
    exact congrArg unsigned (round_neg spec .positive _ e)

theorem add_comm_unpacked (spec : Format) (u v : UnpackedFloat) :
    UnpackedFloat.add spec u v = UnpackedFloat.add spec v u := by
  cases u with
  | finite s m e =>
    cases v with
    | finite t n f =>
      unfold UnpackedFloat.add
      dsimp only
      rw [min_comm e f, Int.add_comm]
    | notANumber | infinity t | zero t => rfl
  | notANumber => cases v <;> rfl
  | infinity s =>
    cases v with
    | infinity t => cases s <;> cases t <;> rfl
    | notANumber | zero t | finite t n f => rfl
  | zero s =>
    cases v with
    | zero t => cases s <;> cases t <;> rfl
    | notANumber | infinity t | finite t n f => rfl

theorem sub_eq_add_neg_unpacked (spec : Format) (u v : UnpackedFloat) :
    UnpackedFloat.sub spec u v = UnpackedFloat.add spec u v.neg := by
  cases u with
  | finite s m e =>
    cases v with
    | finite t n f =>
      unfold UnpackedFloat.sub UnpackedFloat.add UnpackedFloat.neg
      dsimp only
      rw [apply_neg_sign, Int.sub_eq_add_neg]
    | notANumber | infinity t | zero t => rfl
  | notANumber => cases v <;> rfl
  | infinity s =>
    cases v with
    | infinity t => cases s <;> cases t <;> rfl
    | notANumber | zero t | finite t n f => rfl
  | zero s =>
    cases v with
    | zero t => cases s <;> cases t <;> rfl
    | notANumber | infinity t | finite t n f => rfl

theorem unsigned_add_neg_neg (spec : Format) (u v : UnpackedFloat) :
    unsigned (UnpackedFloat.add spec u.neg v.neg) = unsigned (UnpackedFloat.add spec u v).neg := by
  cases u with
  | finite s m e =>
    cases v with
    | finite t n f =>
      unfold UnpackedFloat.add UnpackedFloat.neg
      dsimp only
      rw [apply_neg_sign, apply_neg_sign, ← Int.neg_add]
      exact unsigned_normalize_neg ..
    | notANumber | infinity t | zero t => rfl
  | notANumber => cases v <;> rfl
  | infinity s =>
    cases v with
    | infinity t => cases s <;> cases t <;> rfl
    | notANumber | zero t | finite t n f => rfl
  | zero s =>
    cases v with
    | zero t => cases s <;> cases t <;> rfl
    | notANumber | infinity t | finite t n f => rfl

/-- The sign of a zero only decides about the sign of a zero that is the sum. -/
theorem unsigned_add_left (spec : Format) (u v : UnpackedFloat) :
    unsigned (UnpackedFloat.add spec (unsigned u) v) = unsigned (UnpackedFloat.add spec u v) := by
  cases u with
  | zero s =>
    cases v with
    | zero t => cases s <;> cases t <;> rfl
    | notANumber | infinity t | finite t n f => rfl
  | notANumber | infinity s | finite s m e => rfl

theorem unsigned_mul_left (spec : Format) (u v : UnpackedFloat) :
    unsigned (UnpackedFloat.mul spec (unsigned u) v) = unsigned (UnpackedFloat.mul spec u v) := by
  cases u with
  | zero s => cases v <;> rfl
  | notANumber | infinity s | finite s m e => rfl

theorem unsigned_div_left (spec : Format) (u v : UnpackedFloat) :
    unsigned (UnpackedFloat.div spec (unsigned u) v) = unsigned (UnpackedFloat.div spec u v) := by
  cases u with
  | zero s => cases v <;> rfl
  | notANumber | infinity s | finite s m e => rfl

theorem mul_comm_unpacked (spec : Format) (u v : UnpackedFloat) :
    UnpackedFloat.mul spec u v = UnpackedFloat.mul spec v u := by
  have signs (s t : Sign) : s * t = t * s := by cases s <;> cases t <;> rfl
  cases u <;> cases v <;> simp only [UnpackedFloat.mul, signs, Nat.mul_comm, Int.add_comm]

theorem neg_mul_unpacked (spec : Format) (u v : UnpackedFloat) :
    UnpackedFloat.mul spec u.neg v = (UnpackedFloat.mul spec u v).neg := by
  cases u <;> cases v <;>
    simp only [UnpackedFloat.mul, UnpackedFloat.neg, neg_mul_sign, roundWithAccuracy_neg]

theorem neg_div_unpacked (spec : Format) (u v : UnpackedFloat) :
    UnpackedFloat.div spec u.neg v = (UnpackedFloat.div spec u v).neg := by
  cases u <;> cases v <;>
    simp only [UnpackedFloat.div, UnpackedFloat.neg, neg_div_sign, roundWithAccuracy_neg]

theorem compare_neg_neg_unpacked (u v : UnpackedFloat) : u.neg.compare v.neg = v.compare u := by
  rcases u with (_ | _) | _ | _ | ⟨(_ | _), m, e, _⟩ <;>
    rcases v with (_ | _) | _ | _ | ⟨(_ | _), n, f, _⟩ <;> try rfl
  case finite.negative.finite.negative =>
    show some ((compare e f).then (compare m n)) = some ((compare f e).then (compare n m)).swap
    rw [Ordering.swap_then, Int.compare_swap, Nat.compare_swap]
  case finite.positive.finite.positive =>
    show some ((compare e f).then (compare m n)).swap = some ((compare f e).then (compare n m))
    rw [Ordering.swap_then, Int.compare_swap, Nat.compare_swap]

theorem compare_unsigned (u v : UnpackedFloat) :
    (unsigned u).compare (unsigned v) = u.compare v := by
  rcases u with (_ | _) | _ | _ | ⟨(_ | _), m, e, _⟩ <;>
    rcases v with (_ | _) | _ | _ | ⟨(_ | _), n, f, _⟩ <;> rfl

/-- Of the same number are the operands that compare as equal and the NaN. -/
theorem unsigned_eq_iff (u v : UnpackedFloat) : unsigned u = unsigned v ↔
    u.compare v = some .eq ∨ u = .notANumber ∧ v = .notANumber := by
  rcases u with (_ | _) | _ | _ | ⟨(_ | _), m, e, _⟩ <;>
    rcases v with (_ | _) | _ | _ | ⟨(_ | _), n, f, _⟩ <;>
    simp only [unsigned, UnpackedFloat.compare, UnpackedFloat.finite.injEq,
      UnpackedFloat.infinity.injEq, Option.some.injEq, Ordering.swap_eq_eq, Ordering.then_eq_eq,
      Int.compare_eq_eq, Nat.compare_eq_eq, reduceCtorEq, false_and, and_false, true_and, or_false,
      and_comm]
  all_goals decide

/-! ## Doubles that are the same number -/

theorem neg_ofUnpacked (u : UnpackedFloat) : -ofUnpacked u = ofUnpacked u.neg :=
  eq_of_unpacked_eq ((unpacked_neg _).trans (unpacked_ofUnpacked_neg u).symm)

theorem lt_iff_compare {x y : Float} :
    x < y ↔ (unpacked x).compare (unpacked y) = some .lt :=
  decide_eq_true_iff.trans beq_iff_eq

theorem le_iff_compare {x y : Float} :
    x ≤ y ↔ ((unpacked x).compare (unpacked y)).any (·.isLE) = true := decide_eq_true_iff

theorem beq_iff_compare {x y : Float} :
    (x == y) = true ↔ (unpacked x).compare (unpacked y) = some .eq := by
  show ((unpacked x).compare (unpacked y) == some .eq) = true ↔ _
  exact beq_iff_eq

theorem isNaN_iff {x : Float} : x.isNaN = true ↔ unpacked x = .notANumber := by
  show (unpacked x).isNaN = true ↔ _
  exact UnpackedFloat.isNaN_iff

theorem isNaN_of_isFinite {x : Float} (h : x.isFinite = true) : x.isNaN = false := by
  by_contra nan
  have finite : (unpacked x).isFinite = true := h
  rw [isNaN_iff.mp (Bool.eq_true_of_not_eq_false nan)] at finite
  cases finite

theorem not_isNaN_of_isFinite {x : Float} (h : x.isFinite = true) : ¬x.isNaN = true := by
  rw [isNaN_of_isFinite h]
  exact Bool.false_ne_true

theorem isNaN_of_lt {x y : Float} (h : x < y) : y.isNaN = false := by
  by_contra nan
  rw [lt_iff_compare, isNaN_iff.mp (Bool.eq_true_of_not_eq_false nan)] at h
  cases u : unpacked x <;> rw [u] at h <;> cases h

theorem alike_iff {x y : Float} : Alike x y ↔ unsigned (unpacked x) = unsigned (unpacked y) := by
  rw [Alike, beq_iff_compare, isNaN_iff, isNaN_iff, unsigned_eq_iff]

namespace Alike

variable {x y z a b : Float}

@[refl, simp] theorem refl (x : Float) : Alike x x := alike_iff.mpr rfl

theorem symm (h : Alike x y) : Alike y x := alike_iff.mpr (alike_iff.mp h).symm

theorem trans (h : Alike x y) (h2 : Alike y z) : Alike x z :=
  alike_iff.mpr ((alike_iff.mp h).trans (alike_iff.mp h2))

/-- The sign of a zero does not matter to what is packed. -/
theorem of_unsigned {u v : UnpackedFloat} (h : unsigned u = unsigned v) :
    Alike (ofUnpacked u) (ofUnpacked v) := by
  have packed (u : UnpackedFloat) :
      unsigned (unpacked (ofUnpacked u)) = unsigned (unpacked (ofUnpacked (unsigned u))) := by
    cases u with
    | zero s => cases s <;> rfl
    | notANumber | infinity s | finite s m e => rfl
  rw [alike_iff, packed u, packed v, h]

theorem neg (h : Alike x y) : Alike (-x) (-y) := by
  rw [neg_eq_ofUnpacked, neg_eq_ofUnpacked]
  refine of_unsigned ?_
  rw [← unsigned_neg_unsigned, alike_iff.mp h, unsigned_neg_unsigned]

theorem add (hx : Alike x y) (ha : Alike a b) : Alike (x + a) (y + b) := by
  rw [add_eq_ofUnpacked, add_eq_ofUnpacked]
  refine of_unsigned ?_
  rw [← unsigned_add_left, alike_iff.mp hx, unsigned_add_left, add_comm_unpacked,
    ← unsigned_add_left, alike_iff.mp ha, unsigned_add_left, add_comm_unpacked]

theorem mul (hx : Alike x y) (ha : Alike a b) : Alike (x * a) (y * b) := by
  rw [mul_eq_ofUnpacked, mul_eq_ofUnpacked]
  refine of_unsigned ?_
  rw [← unsigned_mul_left, alike_iff.mp hx, unsigned_mul_left, mul_comm_unpacked,
    ← unsigned_mul_left, alike_iff.mp ha, unsigned_mul_left, mul_comm_unpacked]

theorem div (hx : Alike x y) (a : Float) : Alike (x / a) (y / a) := by
  rw [div_eq_ofUnpacked, div_eq_ofUnpacked]
  refine of_unsigned ?_
  rw [← unsigned_div_left, alike_iff.mp hx, unsigned_div_left]

theorem abs (h : Alike x y) : Alike x.abs y.abs := by
  have signless (u : UnpackedFloat) : u.abs = (unsigned u).abs := by cases u <;> rfl
  rw [abs_eq_ofUnpacked, abs_eq_ofUnpacked]
  refine of_unsigned ?_
  rw [signless, alike_iff.mp h, ← signless]

theorem lt_iff (hx : Alike x y) (ha : Alike a b) : x < a ↔ y < b := by
  rw [lt_iff_compare, lt_iff_compare, ← compare_unsigned, alike_iff.mp hx, alike_iff.mp ha,
    compare_unsigned]

theorem le_iff (hx : Alike x y) (ha : Alike a b) : x ≤ a ↔ y ≤ b := by
  rw [le_iff_compare, le_iff_compare, ← compare_unsigned, alike_iff.mp hx, alike_iff.mp ha,
    compare_unsigned]

theorem neg_add_neg (x y : Float) : Alike (-x + -y) (-(x + y)) := by
  rw [add_eq_ofUnpacked x, neg_ofUnpacked, add_eq_ofUnpacked, unpacked_neg, unpacked_neg]
  exact of_unsigned (unsigned_add_neg_neg ..)

end Alike

/-! ## Negation -/

theorem float_neg_neg (x : Float) : - -x = x := by
  rw [neg_eq_ofUnpacked, unpacked_neg, neg_neg_unpacked, ofUnpacked_unpacked]

theorem float_add_comm (x y : Float) : x + y = y + x := by
  rw [add_eq_ofUnpacked, add_eq_ofUnpacked, add_comm_unpacked]

theorem float_sub_eq_add_neg (x y : Float) : x - y = x + -y := by
  rw [sub_eq_ofUnpacked, add_eq_ofUnpacked, unpacked_neg, sub_eq_add_neg_unpacked]

theorem float_mul_comm (x y : Float) : x * y = y * x := by
  rw [mul_eq_ofUnpacked, mul_eq_ofUnpacked, mul_comm_unpacked]

theorem float_neg_mul (x y : Float) : -x * y = -(x * y) := by
  rw [mul_eq_ofUnpacked x, neg_ofUnpacked, mul_eq_ofUnpacked, unpacked_neg, neg_mul_unpacked]

theorem float_neg_div (x y : Float) : -x / y = -(x / y) := by
  rw [div_eq_ofUnpacked x, neg_ofUnpacked, div_eq_ofUnpacked, unpacked_neg, neg_div_unpacked]

theorem float_abs_neg (x : Float) : (-x).abs = x.abs := by
  rw [abs_eq_ofUnpacked, abs_eq_ofUnpacked, unpacked_neg]
  cases unpacked x <;> rfl

theorem float_neg_lt_neg {x y : Float} : -x < -y ↔ y < x := by
  rw [lt_iff_compare, lt_iff_compare, unpacked_neg, unpacked_neg, compare_neg_neg_unpacked]

theorem float_neg_le_neg {x y : Float} : -x ≤ -y ↔ y ≤ x := by
  rw [le_iff_compare, le_iff_compare, unpacked_neg, unpacked_neg, compare_neg_neg_unpacked]

theorem isNaN_neg (x : Float) : (-x).isNaN = x.isNaN := by
  show (unpacked (-x)).isNaN = (unpacked x).isNaN
  rw [unpacked_neg]
  cases unpacked x <;> rfl

theorem isFinite_neg (x : Float) : (-x).isFinite = x.isFinite := by
  show (unpacked (-x)).isFinite = (unpacked x).isFinite
  rw [unpacked_neg]
  cases unpacked x <;> rfl

theorem minNum_neg_neg (x y : Float) : minNum (-x) (-y) = -maxNum x y := by
  unfold minNum maxNum
  simp only [isNaN_neg, float_neg_lt_neg]
  split_ifs <;> rfl

theorem maxNum_neg_neg (x y : Float) : maxNum (-x) (-y) = -minNum x y := by
  unfold minNum maxNum
  simp only [isNaN_neg, float_neg_lt_neg]
  split_ifs <;> rfl

theorem float_lt_or_lt {x y : Float} (hx : x.isFinite = true) (hy : y.isFinite = true)
    (ne : (x == y) = false) : x < y ∨ y < x := by
  have ranked {z : Float} (hz : z.isFinite = true) : ∃ p, rank z = some p := by
    have finite : (unpacked z).isFinite = true := hz
    show ∃ p, unpackedRank (unpacked z) = some p
    revert finite
    rcases unpacked z with (_ | _) | _ | _ | ⟨(_ | _), m, e, _⟩ <;>
      first | exact fun _ => ⟨_, rfl⟩ | nofun
  obtain ⟨p, hp⟩ := ranked hx
  obtain ⟨q, hq⟩ := ranked hy
  rw [lt_iff_rank, lt_iff_rank]
  rcases lt_trichotomy p q with less | rfl | greater
  · exact .inl ⟨p, q, hp, hq, less⟩
  · refine absurd (beq_iff_compare.mpr ?_) (ne ▸ Bool.false_ne_true)
    have px : unpackedRank (unpacked x) = some p := hp
    have py : unpackedRank (unpacked y) = some p := hq
    rw [compare_eq_compare_rank, px, py]
    exact congrArg some (compare_eq_iff_eq.mpr rfl)
  · exact .inr ⟨q, p, hq, hp, greater⟩

/-! ## Opposite doubles -/

namespace Opposite

variable {x y a b : Float}

theorem symm (h : Opposite x y) : Opposite y x := by
  have turned := Alike.neg h
  rw [float_neg_neg] at turned
  exact turned.symm

theorem add (hx : Opposite x y) (ha : Opposite a b) : Opposite (x + a) (y + b) :=
  (Alike.add hx ha).trans (.neg_add_neg x a)

theorem sub (hx : Opposite x y) (ha : Opposite a b) : Opposite (x - a) (y - b) := by
  rw [float_sub_eq_add_neg, float_sub_eq_add_neg]
  exact hx.add (Alike.neg ha)

theorem sub_swap (hx : Opposite x y) (ha : Opposite a b) : Alike (x - a) (b - y) := by
  rw [float_sub_eq_add_neg, float_sub_eq_add_neg, float_add_comm]
  exact Alike.add (Alike.symm ha) hx.symm

theorem mul (hx : Opposite x y) (ha : Alike a b) : Opposite (x * a) (y * b) := by
  have product := Alike.mul hx ha.symm
  rw [float_neg_mul] at product
  exact product

theorem mul_left (ha : Alike a b) (hx : Opposite x y) : Opposite (a * x) (b * y) := by
  rw [float_mul_comm a, float_mul_comm b]
  exact hx.mul ha

theorem mul_opposite (hx : Opposite x y) (ha : Opposite a b) : Alike (x * a) (y * b) := by
  have product : Opposite (x * -a) (y * b) := hx.mul (Alike.symm ha)
  rw [float_mul_comm x, float_neg_mul, float_mul_comm a] at product
  unfold Opposite at product
  rw [float_neg_neg] at product
  exact product.symm

theorem div (hx : Opposite x y) (a : Float) : Opposite (x / a) (y / a) := by
  have quotient := Alike.div hx a
  rw [float_neg_div] at quotient
  exact quotient

theorem abs (h : Opposite x y) : Alike x.abs y.abs := by
  have size := Alike.abs h
  rw [float_abs_neg] at size
  exact size.symm

theorem lt_iff (hx : Opposite x y) (ha : Opposite a b) : x < a ↔ b < y :=
  float_neg_lt_neg.symm.trans (Alike.lt_iff ha hx).symm

theorem le_iff (hx : Opposite x y) (ha : Opposite a b) : x ≤ a ↔ b ≤ y :=
  float_neg_le_neg.symm.trans (Alike.le_iff ha hx).symm

end Opposite

end TrendLadder
