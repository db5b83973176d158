import Mathlib.Data.Nat.Digits.Defs
import Sift.Json.Named

/-!
# Which doubles are finite

A double is finite unless all bits of its exponent are set. Every step that makes a double packs a
number into bits, so the exponent is followed through packing and unpacking. Whole numbers of 64
bits are far below the largest double, hence the doubles next to them are finite.

* `isFinite_neg`, `isFinite_ofBits`: what is finite stays so.
* `nearestBits_lt`: the double nearest to a whole number of 64 bits is below infinity.
* `Json.isFinite_doubleOfInt`: **the double of a whole number in a JSON value is finite.**
-/

namespace Sift

namespace Decimal

open Float.Model Float.Model.UnpackedFloat

variable {u : UnpackedFloat} {b : BitVec 64}

/-- The bits of the exponent. -/
def exponentField (b : BitVec 64) : BitVec 11 := @unpackExponent .binary64 b

/-- The exponent of a number leaves it below infinity. -/
def Fits : UnpackedFloat → Prop
  | .finite _ _ e _ => e + 1075 < 2047
  | .zero _ => True
  | .infinity _ => False
  | .notANumber => False

/-- Numbers whose exponent does not have all bits set are below infinity. -/
theorem fits_unpack (h : exponentField b ≠ -1#11) : Fits (unpack .binary64 b) := by
  have hexp : (exponentField b).toNat < 2047 := by
    have hlt := (exponentField b).isLt
    have hne : (exponentField b).toNat ≠ 2047 := fun heq => h (BitVec.eq_of_toNat_eq heq)
    omega
  unfold exponentField at h hexp
  have hbias : Format.binary64.exponentBias = 1023 := by decide
  have hwidth : Format.binary64.mantissaBitsWithoutImplicit = 52 := rfl
  have hunpack : unpack .binary64 b = _ := if_neg h
  rw [hunpack]
  by_cases hzero : @unpackExponent .binary64 b = 0#11
  · have hnone : (@unpackExponent .binary64 b).toNat = 0 := congrArg BitVec.toNat hzero
    rw [if_pos hzero]
    by_cases hmantissa : @unpackMantissa .binary64 b = 0#52
    · rw [dif_pos hmantissa]
      trivial
    · rw [dif_neg hmantissa]
      show ((@unpackExponent .binary64 b).toNat : Int) - _ + 1 + 1075 < 2047
      rw [hnone, hbias, hwidth]
      decide
  · rw [if_neg hzero]
    show ((@unpackExponent .binary64 b).toNat : Int) - _ + 1075 < 2047
    rw [hbias, hwidth]
    omega

theorem exponentField_of_isFinite (h : (unpack .binary64 b).isFinite = true) :
    exponentField b ≠ -1#11 := by
  intro hexp
  unfold exponentField at hexp
  have hunpack : unpack .binary64 b = _ := if_pos hexp
  rw [hunpack] at h
  by_cases hmantissa : @unpackMantissa .binary64 b = 0#52
  · rw [if_pos hmantissa] at h
    exact Bool.false_ne_true h
  · rw [if_neg hmantissa] at h
    exact Bool.false_ne_true h

theorem exponentField_pack (h : Fits u) :
    exponentField (UnpackedFloat.pack .binary64 u) ≠ -1#11 := by
  unfold exponentField
  delta UnpackedFloat.pack
  cases u with
  | notANumber => exact h.elim
  | infinity s => exact h.elim
  | zero s =>
    dsimp only
    rw [packedZero, unpackExponent_packComponents]
    decide
  | finite s m e hm =>
    have hbias : Format.binary64.exponentBias = 1023 := by decide
    replace h : e + 1075 < 2047 := h
    dsimp only
    rw [hbias, if_neg (by omega)]
    split
    · rw [unpackExponent_packComponents]
      intro heq
      have hnat := congrArg BitVec.toNat heq
      rw [BitVec.toNat_ofNat, Nat.mod_eq_of_lt (by omega)] at hnat
      have hones : (-1#11).toNat = 2047 := by decide
      omega
    · rw [unpackExponent_packComponents]
      decide

theorem isFinite_of_exponentField (h : exponentField b ≠ -1#11) :
    (unpack .binary64 b).isFinite = true := by
  have hfits := fits_unpack h
  cases hu : unpack .binary64 b <;> rw [hu] at hfits
  · exact hfits.elim
  · exact hfits.elim
  · rfl
  · rfl

theorem Fits.neg (h : Fits u) : Fits u.neg := by
  cases u <;> exact h

theorem isFinite_neg {x : Float} (h : x.isFinite = true) : (-x).isFinite = true :=
  isFinite_of_exponentField (exponentField_pack (fits_unpack (exponentField_of_isFinite h)).neg)

theorem isFinite_ofBits {b : UInt64} (h : b.toNat < infinityBits) :
    (Float.ofBits b).isFinite = true := by
  refine isFinite_of_exponentField (exponentField_pack (fits_unpack ?_))
  intro heq
  have := congrArg BitVec.toNat heq
  unfold infinityBits at h
  simp [exponentField, unpackExponent, Nat.shiftRight_eq_div_pow] at this
  omega

/-! ### Doubles of whole numbers -/

theorem roundHalfEven_le (num den : Nat) : roundHalfEven num den ≤ num / den + 1 := by
  unfold roundHalfEven
  simp only
  split <;> omega

variable {n : Nat}

theorem floorLog2_one (h : n ≠ 0) : floorLog2 n 1 = n.log2 := by
  have hlog : Nat.log2 1 = 0 := by decide
  have hle : 1 * Nat.pow 2 n.log2 ≤ n * Nat.pow 2 0 := by
    simpa using Nat.log2_self_le h
  unfold floorLog2
  simp only [hlog, Nat.cast_zero, sub_zero]
  rw [if_pos (by simpa using hle)]

/-- A whole number is cut to 53 binary digits. -/
theorem mantissa_lt (n : Nat) :
    n * Nat.pow 2 (52 - n.log2) / Nat.pow 2 (n.log2 - 52) < 2 * leadingBit := by
  have hlt : n < Nat.pow 2 (n.log2 + 1) := Nat.lt_log2_self
  have hbit : 2 * leadingBit = Nat.pow 2 53 := by decide
  have hpos : 0 < Nat.pow 2 (n.log2 - 52) := Nat.two_pow_pos _
  rw [hbit, Nat.div_lt_iff_lt_mul hpos]
  calc n * Nat.pow 2 (52 - n.log2) < Nat.pow 2 (n.log2 + 1) * Nat.pow 2 (52 - n.log2) :=
        Nat.mul_lt_mul_of_pos_right hlt (Nat.two_pow_pos _)
    _ = Nat.pow 2 53 * Nat.pow 2 (n.log2 - 52) := by
        simp only [Nat.pow_eq, ← Nat.pow_add]
        congr 1
        omega

/-- The double nearest to a whole number of 64 bits is below infinity. -/
theorem nearestBits_lt (h : n < 0x10000000000000000) : nearestBits n 1 < infinityBits := by
  unfold nearestBits
  by_cases hn : n = 0
  · rw [if_pos hn]
    decide
  have hlog : n.log2 < 64 := (Nat.log2_lt hn).2 (by omega)
  have hexp : max (floorLog2 n 1 - 52) (-1074) = (n.log2 : Int) - 52 := by
    rw [floorLog2_one hn]
    omega
  rw [if_neg hn]
  simp only [hexp, one_mul]
  have hneg : (-((n.log2 : Int) - 52)).toNat = 52 - n.log2 := by omega
  have hpos : ((n.log2 : Int) - 52).toNat = n.log2 - 52 := by omega
  have hfield : ((n.log2 : Int) - 52 + 1074).toNat ≤ 1085 := by omega
  have hround : roundHalfEven (n * Nat.pow 2 (52 - n.log2)) (Nat.pow 2 (n.log2 - 52)) ≤
      2 * leadingBit :=
    le_trans (roundHalfEven_le _ _) (mantissa_lt n)
  rw [hneg, hpos]
  calc min _ infinityBits ≤ _ := Nat.min_le_left _ _
    _ ≤ 1085 * leadingBit + 2 * leadingBit := Nat.add_le_add (Nat.mul_le_mul_right _ hfield) hround
    _ < infinityBits := by decide

theorem isFinite_toFloat (h : n < 0x10000000000000000) : (toFloat ⟨n, 0⟩).isFinite = true := by
  have hdigits : digitCount n ≤ 20 := Nat.toDigits_length 10 n 20 (by decide) (by omega)
  have hbits := nearestBits_lt h
  unfold toFloat
  simp only
  apply isFinite_ofBits
  split
  · decide
  · rw [if_neg (by omega)]
    have hmul : n * Nat.pow 10 (0 : Int).toNat = n := Nat.mul_one n
    have hone : Nat.pow 10 (-(0 : Int)).toNat = 1 := rfl
    rw [hmul, hone]
    have hsmall : nearestBits n 1 < 0x10000000000000000 := lt_trans hbits (by decide)
    rw [Nat.toUInt64_eq, UInt64.toNat_ofNat', Nat.mod_eq_of_lt hsmall]
    exact hbits

end Decimal

/-- **The double of a whole number in a JSON value is finite.** -/
theorem Json.isFinite_doubleOfInt {n : Int} (h : n.natAbs < 0x10000000000000000) :
    (Json.doubleOfInt n).isFinite = true := by
  have hfinite := Decimal.isFinite_toFloat h
  unfold Json.doubleOfInt
  simp only
  split
  · exact Decimal.isFinite_neg hfinite
  · exact hfinite

end Sift
