import Mathlib

/-!
# Packed and unpacked doubles

A double is stored packed, as the bits of a sign, an exponent and a mantissa, and computed with
unpacked. Packing undoes unpacking (`ofUnpacked_unpacked`), so doubles that unpack to the same are
the same, and a sign can be turned before or after packing (`unpack_pack_neg`).
-/

namespace TrendLadder

open Float.Model hiding pack unpack
open Float.Model.UnpackedFloat

/-! ## Bits -/

theorem mantissaBits_binary64 : Format.binary64.mantissaBits = 53 := by decide

/-- The mantissa of a normal double has a leading bit that is not stored. -/
theorem toNat_one_append {w : Nat} (b : BitVec w) : (1#1 ++ b).toNat = 2 ^ w + b.toNat := by
  rw [BitVec.toNat_append, ← Nat.shiftLeft_add_eq_or_of_lt b.isLt, Nat.shiftLeft_eq]
  show 1 * 2 ^ w + b.toNat = 2 ^ w + b.toNat
  rw [Nat.one_mul]

theorem log2_one_append (b : BitVec 52) : (1#1 ++ b).toNat.log2 = 52 := by
  have value := toNat_one_append b
  have bound := b.isLt
  exact (Nat.log2_eq_iff (by omega)).mpr (by omega)

theorem exponent_lt {b : BitVec 11} (number : b ≠ -1#11) : b.toNat + 1 < 2 ^ 11 := by
  have notOnes : b.toNat ≠ 2 ^ 11 - 1 := fun same => number (BitVec.eq_of_toNat_eq same)
  have bound := b.isLt
  omega

/-- Unpacking takes the sign as it is, unless the bits are those of a NaN. -/
theorem unpack_packComponents_neg {spec : Format} {sign exponent mantissa}
    (number : exponent = -1#_ → mantissa = 0#_) :
    unpack spec (packComponents spec (-sign) exponent mantissa) =
      (unpack spec (packComponents spec sign exponent mantissa)).neg := by
  unfold unpack
  simp only [unpackMantissa_packComponents, unpackExponent_packComponents,
    unpackSign_packComponents, Sign.ofBitVec_toBitVec]
  by_cases special : exponent = -1#_
  · rw [if_pos special, if_pos special, if_pos (number special), if_pos (number special)]
    rfl
  · rw [if_neg special, if_neg special]
    split
    · split <;> rfl
    · rfl

/-! ## Packing -/

theorem unpack_packedInfinity (s : Sign) :
    unpack .binary64 (packedInfinity .binary64 s) = .infinity s := by
  unfold unpack packedInfinity
  simp only [unpackMantissa_packComponents, unpackExponent_packComponents,
    unpackSign_packComponents, Sign.ofBitVec_toBitVec]
  rw [if_pos trivial]
  exact if_pos rfl

/-- A sign turned before packing is a sign turned after unpacking. -/
theorem unpack_pack_neg (u : UnpackedFloat) :
    unpack .binary64 (pack .binary64 u.neg) = (unpack .binary64 (pack .binary64 u)).neg := by
  cases u with
  | notANumber =>
    show unpack .binary64 (packedNaN .binary64) = (unpack .binary64 (packedNaN .binary64)).neg
    rw [unpack_packedNaN]
    rfl
  | infinity s => exact unpack_packComponents_neg fun _ => rfl
  | zero s => exact unpack_packComponents_neg fun _ => rfl
  | finite s m e pos =>
    rw [UnpackedFloat.neg, pack, pack]
    generalize (e + Format.binary64.exponentBias +
      Format.binary64.mantissaBitsWithoutImplicit).toNat = biased
    dsimp only
    split
    · exact unpack_packComponents_neg fun _ => rfl
    · next fits =>
      split
      · refine unpack_packComponents_neg fun special => absurd ?_ fits
        have stored := congrArg BitVec.toNat special
        have reduced := Nat.mod_le biased (2 ^ Format.binary64.exponentBits)
        rw [BitVec.toNat_ofNat, BitVec.neg_one_eq_allOnes, BitVec.toNat_allOnes] at stored
        omega
      · exact unpack_packComponents_neg fun special => absurd special (by decide)

/-! ## Doubles -/

/-- A double as it is computed with. -/
def unpacked (x : Float) : UnpackedFloat := x.toModel.unpack

/-- The double of a number that is rounded. -/
def ofUnpacked (u : UnpackedFloat) : Float := .ofModel (.pack u)

@[simp] theorem ofUnpacked_unpacked (x : Float) : ofUnpacked (unpacked x) = x := by
  obtain ⟨bits, valid⟩ := x
  have same : UInt64.ofBitVec (pack .binary64 (unpack .binary64 bits.toBitVec)) = bits :=
    congrArg UInt64.ofBitVec (pack_unpack_of_valid valid)
  unfold ofUnpacked unpacked Float.Model.pack Float.Model.unpack
  simp only [same]

theorem add_eq_ofUnpacked (x y : Float) :
    x + y = ofUnpacked (UnpackedFloat.add .binary64 (unpacked x) (unpacked y)) := rfl

theorem sub_eq_ofUnpacked (x y : Float) :
    x - y = ofUnpacked (UnpackedFloat.sub .binary64 (unpacked x) (unpacked y)) := rfl

theorem mul_eq_ofUnpacked (x y : Float) :
    x * y = ofUnpacked (UnpackedFloat.mul .binary64 (unpacked x) (unpacked y)) := rfl

theorem div_eq_ofUnpacked (x y : Float) :
    x / y = ofUnpacked (UnpackedFloat.div .binary64 (unpacked x) (unpacked y)) := rfl

theorem neg_eq_ofUnpacked (x : Float) : -x = ofUnpacked (unpacked x).neg := rfl

theorem abs_eq_ofUnpacked (x : Float) : x.abs = ofUnpacked (unpacked x).abs := rfl

theorem eq_of_unpacked_eq {x y : Float} (h : unpacked x = unpacked y) : x = y := by
  rw [← ofUnpacked_unpacked x, h, ofUnpacked_unpacked]

theorem unpacked_ofUnpacked_neg (u : UnpackedFloat) :
    unpacked (ofUnpacked u.neg) = (unpacked (ofUnpacked u)).neg := unpack_pack_neg u

@[simp] theorem unpacked_neg (x : Float) : unpacked (-x) = (unpacked x).neg := by
  rw [neg_eq_ofUnpacked, unpacked_ofUnpacked_neg, ofUnpacked_unpacked]

end TrendLadder
