/-
# Doubles without rounding

A natural number below two to the power of 53 fits into the significand of a
double, so it becomes a double as it is, and so does a draw divided by two to
the power of 53.  Whatever these computations shift out of a significand is
zero, so that there is nothing to round.
-/

import LossyConsensus.Scalar
import Mathlib

namespace LossyConsensus.Double

open Float.Model Float.Model.UnpackedFloat

variable {m n : Nat} {e : Int}

/-! ## Full significands -/

theorem log2_mul_two_pow (hpos : 0 < m) (k : Nat) : (m * 2 ^ k).log2 = m.log2 + k := by
  have hshifted : m * 2 ^ k ≠ 0 := Nat.mul_ne_zero hpos.ne' (Nat.two_pow_pos k).ne'
  obtain ⟨hlow, hhigh⟩ := (Nat.log2_eq_iff hpos.ne').mp rfl
  refine (Nat.log2_eq_iff hshifted).mpr ⟨?_, ?_⟩
  · rw [Nat.pow_add]
    exact Nat.mul_le_mul_right _ hlow
  · rw [Nat.add_right_comm, Nat.pow_add]
    exact Nat.mul_lt_mul_of_pos_right hhigh (Nat.two_pow_pos k)

theorem log2_le (hpos : 0 < n) (hlt : n < 2 ^ 53) : n.log2 ≤ 52 :=
  Nat.le_of_lt_succ ((Nat.log2_lt hpos.ne').mpr hlt)

/-- A number moved up until it fills the 53 bits of a significand. -/
def significand (n : Nat) : Nat :=
  n * 2 ^ (52 - n.log2)

theorem significand_pos (hpos : 0 < n) : 0 < significand n :=
  Nat.mul_pos hpos (Nat.two_pow_pos _)

theorem log2_significand (hpos : 0 < n) (hlt : n < 2 ^ 53) : (significand n).log2 = 52 := by
  have := log2_le hpos hlt
  rw [significand, log2_mul_two_pow hpos]
  omega

/-! ## Rounding -/

/-- A significand with zeros behind it loses nothing when it is shifted back. -/
theorem shiftRight_mul_two_pow (m k : Nat) :
    (ExtendedMantissa.mk (m * 2 ^ k) false false) >>> k = ⟨m, false, false⟩ := by
  induction k with
  | zero => exact congrArg (ExtendedMantissa.mk · false false) (Nat.mul_one m)
  | succ k ih =>
      have hstep : ExtendedMantissa.shiftRightOne ⟨m * 2 ^ (k + 1), false, false⟩ =
          ⟨m * 2 ^ k, false, false⟩ := by
        rw [ExtendedMantissa.shiftRightOne, Nat.pow_succ, ← Nat.mul_assoc]
        simp
      have hcomm : ∀ (count : Nat) (extended : ExtendedMantissa),
          count.repeat ExtendedMantissa.shiftRightOne extended.shiftRightOne =
            (count.repeat ExtendedMantissa.shiftRightOne extended).shiftRightOne := by
        intro count extended
        induction count with
        | zero => rfl
        | succ count ih => exact congrArg ExtendedMantissa.shiftRightOne ih
      change (k.repeat ExtendedMantissa.shiftRightOne _).shiftRightOne = _
      rw [← hcomm, hstep]
      exact ih

theorem targetExponent_eq (hm : m.log2 = 52) (hpos : 0 < m) (k : Nat) (he : -1074 ≤ e) :
    Format.binary64.targetExponent (totalExponent (m * 2 ^ k) (e - k)) = e := by
  have hlog := log2_mul_two_pow hpos k
  rw [hm] at hlog
  simp only [Format.targetExponent, totalExponent, Format.mantissaBits, Format.minExponent, hlog]
  omega

theorem shiftToTargetExponent_eq (hm : m.log2 = 52) (hpos : 0 < m) (k : Nat) (he : -1074 ≤ e) :
    shiftToTargetExponent Format.binary64 (m * 2 ^ k) (e - k) .exact = (⟨m, false, false⟩, e) := by
  have hk : (e - (e - (k : Int))).toNat = k := by omega
  rw [shiftToTargetExponent, targetExponent_eq hm hpos k he, shiftToExponent, hk,
    ExtendedMantissa.ofMantissaAndAccuracy, shiftRight_mul_two_pow, Int.sub_add_cancel]

/-- A full significand with zeros behind it is rounded to itself. -/
theorem roundWithAccuracy_eq (hm : m.log2 = 52) (hpos : 0 < m) (k : Nat) (he : -1074 ≤ e) :
    roundWithAccuracy Format.binary64 .positive (m * 2 ^ k) (e - k) .exact =
      .finite .positive m e hpos := by
  have hagain := shiftToTargetExponent_eq hm hpos 0 he
  rw [Nat.pow_zero, Nat.mul_one, Int.natCast_zero, Int.sub_zero] at hagain
  have hrounded : (ExtendedMantissa.mk m false false).roundedMantissa = m := rfl
  simp only [roundWithAccuracy, shiftToTargetExponent_eq hm hpos k he, hrounded, hagain,
    dif_neg (Nat.ne_of_gt hpos)]

/-! ## Packing -/

theorem unpackSign_packComponents (spec : Format) (sign : Sign)
    (exponent : BitVec spec.exponentBits)
    (mantissa : BitVec spec.mantissaBitsWithoutImplicit) :
    unpackSign (packComponents spec sign exponent mantissa) = sign.toBitVec := by
  ext i hi
  obtain rfl : i = 0 := by omega
  simp [unpackSign, packComponents, BitVec.getLsbD_append, BitVec.getElem_append]

theorem unpack_packComponents {exponent : BitVec 11} (hzero : exponent ≠ 0#11)
    (hones : exponent ≠ -1#11) (mantissa : BitVec 52) (hpos : 0 < 2 ^ 52 + mantissa.toNat) :
    UnpackedFloat.unpack Format.binary64
        (packComponents Format.binary64 .positive exponent mantissa) =
      .finite .positive (2 ^ 52 + mantissa.toNat) ((exponent.toNat : Int) - 1075) hpos := by
  have hjoin : (1#1 ++ mantissa).toNat = 2 ^ 52 + mantissa.toNat := by
    rw [BitVec.toNat_append, ← Nat.shiftLeft_add_eq_or_of_lt mantissa.isLt]
    rfl
  simp only [UnpackedFloat.unpack, unpackMantissa_packComponents, unpackExponent_packComponents,
    unpackSign_packComponents, if_neg hones, if_neg hzero, hjoin]
  rfl

/-- A double with a full significand is what its bits say. -/
theorem unpack_pack (hm : m.log2 = 52) (hpos : 0 < m) (hlow : -1074 ≤ e) (hhigh : e ≤ 971) :
    (Float.Model.pack (.finite .positive m e hpos)).unpack = .finite .positive m e hpos := by
  obtain ⟨_, _⟩ := (Nat.log2_eq_iff hpos.ne').mp hm
  have hbits : (BitVec.ofNat 11 (e + 1075).toNat).toNat = (e + 1075).toNat := by
    rw [BitVec.toNat_ofNat, Nat.mod_eq_of_lt (by omega)]
  have hmantissa : 2 ^ 52 + (BitVec.ofNat 52 m).toNat = m := by
    rw [BitVec.toNat_ofNat]
    omega
  have hpack : UnpackedFloat.pack Format.binary64 (.finite .positive m e hpos) =
      packComponents Format.binary64 .positive (BitVec.ofNat 11 (e + 1075).toNat)
        (BitVec.ofNat 52 m) := by
    have hbiased : (e + ((1023 : Nat) : Int) + ((52 : Nat) : Int)).toNat = (e + 1075).toNat := by
      omega
    simp only [UnpackedFloat.pack, Format.exponentBias, Format.mantissaBits, hm]
    change (if 2 ^ 11 ≤ (e + ((1023 : Nat) : Int) + ((52 : Nat) : Int)).toNat + 1 then _ else _) = _
    rw [hbiased, if_neg (by omega)]
    exact if_pos trivial
  change UnpackedFloat.unpack _ (UnpackedFloat.pack Format.binary64 _) = _
  rw [hpack, unpack_packComponents _ _ _ (by omega)]
  · simp only [hmantissa, hbits]
    congr 1
    omega
  · intro hzero
    have hnat := congrArg BitVec.toNat hzero
    rw [hbits, BitVec.toNat_zero] at hnat
    omega
  · intro hones
    have hnat := congrArg BitVec.toNat hones
    rw [hbits, show (-1#11).toNat = 2047 from rfl] at hnat
    omega

/-! ## Numbers and draws -/

theorem unpack_one : (Float.ofBits 0x3FF0000000000000).toModel.unpack =
    .finite .positive (2 ^ 52) (-52) (by decide) := by
  rfl

theorem unpack_scale : (Float.ofNat (2 ^ 53)).toModel.unpack =
    .finite .positive (2 ^ 52) 1 (by decide) := by
  have hscale : Float.ofNat (2 ^ 53) = Float.ofBits 0x4340000000000000 := rfl
  rw [hscale]
  rfl

theorem unpacked_ofNat (hpos : 0 < n) (hlt : n < 2 ^ 53) :
    UnpackedFloat.ofNat Format.binary64 n =
      .finite .positive (significand n) ((n.log2 : Int) - 52) (significand_pos hpos) := by
  have hlog := log2_le hpos hlt
  have htarget : Format.binary64.targetExponent (totalExponent n 0) = (n.log2 : Int) - 52 := by
    simp only [Format.targetExponent, totalExponent, Format.mantissaBits, Format.minExponent]
    omega
  have hshift : (0 - ((n.log2 : Int) - 52)).toNat = 52 - n.log2 := by omega
  have hexponent : (0 : Int) - ((52 - n.log2 : Nat) : Int) = (n.log2 : Int) - 52 := by omega
  have hround := roundWithAccuracy_eq (log2_significand hpos hlt) (significand_pos hpos) 0
    (e := (n.log2 : Int) - 52) (by omega)
  rw [Nat.pow_zero, Nat.mul_one, Int.natCast_zero, Int.sub_zero] at hround
  rw [UnpackedFloat.ofNat, UnpackedFloat.ofInt, UnpackedFloat.normalize,
    Int.compare_eq_gt.mpr (by omega)]
  simp only [UnpackedFloat.round, Int.toNat_natCast, htarget, decreaseExponent, hshift, hexponent,
    Nat.shiftLeft_eq]
  exact hround

theorem unpack_toFloat (hpos : 0 < n) (hlt : n < 2 ^ 53) :
    (n.toUInt64.toFloat).toModel.unpack =
      .finite .positive (significand n) ((n.log2 : Int) - 52) (significand_pos hpos) := by
  have hlog := log2_le hpos hlt
  have hword : n.toUInt64.toNat = n := Nat.mod_eq_of_lt (by omega)
  change (Float.Model.pack (UnpackedFloat.ofNat Format.binary64 n.toUInt64.toNat)).unpack = _
  rw [hword, unpacked_ofNat hpos hlt]
  exact unpack_pack (log2_significand hpos hlt) _ (by omega) (by omega)

/-- A number that fits into a significand is exact as a double.  It is made by a
product with one, which is exact too. -/
theorem unpack_ofNat (hpos : 0 < n) (hlt : n < 2 ^ 53) :
    (Float.ofNat n).toModel.unpack =
      .finite .positive (significand n) ((n.log2 : Int) - 52) (significand_pos hpos) := by
  have hlog := log2_le hpos hlt
  have hfull := log2_significand hpos hlt
  have hproduct : Float.ofNat n = n.toUInt64.toFloat * Float.ofBits 0x3FF0000000000000 :=
    dif_pos ⟨hlt, by decide⟩
  rw [hproduct]
  change (Float.Model.pack (UnpackedFloat.mul Format.binary64 _ _)).unpack = _
  rw [unpack_toFloat hpos hlt, unpack_one]
  change (Float.Model.pack (roundWithAccuracy _ .positive (significand n * 2 ^ 52)
    ((n.log2 : Int) - 52 - ((52 : Nat) : Int)) .exact)).unpack = _
  rw [roundWithAccuracy_eq hfull (significand_pos hpos) 52 (by omega)]
  exact unpack_pack hfull _ (by omega) (by omega)

/-- The share that a draw stands for is exact: dividing by a power of two changes
the exponent only. -/
theorem unpack_ofDraw (hpos : 0 < n) (hlt : n < 2 ^ 53) :
    (Scalar.ofDraw n : Float).toModel.unpack =
      .finite .positive (significand n) ((n.log2 : Int) - 105) (significand_pos hpos) := by
  have hlog := log2_le hpos hlt
  have hfull := log2_significand hpos hlt
  have htarget : Format.binary64.targetExponent
      (totalExponent (significand n) ((n.log2 : Int) - 52) - totalExponent (2 ^ 52) 1) =
        (n.log2 : Int) - 106 := by
    have hone : (2 ^ 52).log2 = 52 := by decide
    simp only [Format.targetExponent, totalExponent, Format.mantissaBits, Format.minExponent,
      hfull, hone]
    omega
  have hshift : ((n.log2 : Int) - 52 - 1 - ((n.log2 : Int) - 106)).toNat = 53 := by omega
  have hquotient : significand n * 2 ^ 53 = 2 ^ 52 * (significand n * 2 ^ 1) := by ring
  have hexponent : (n.log2 : Int) - 106 = (n.log2 : Int) - 105 - ((1 : Nat) : Int) := by omega
  have hcore : divCore Format.binary64 (significand n) ((n.log2 : Int) - 52) (2 ^ 52) 1 =
      (significand n * 2 ^ 1, (n.log2 : Int) - 105 - ((1 : Nat) : Int), .exact) := by
    rw [divCore, htarget, Int.min_eq_right (by omega), hshift, Nat.shiftLeft_eq, hquotient,
      Nat.mul_div_cancel_left _ (by decide), Nat.mul_mod_right, hexponent]
    rfl
  change (Float.Model.pack (UnpackedFloat.div Format.binary64 (Float.ofNat n).toModel.unpack
    (Float.ofNat (2 ^ 53)).toModel.unpack)).unpack = _
  rw [unpack_ofNat hpos hlt, unpack_scale]
  simp only [UnpackedFloat.div, hcore]
  change (Float.Model.pack (roundWithAccuracy _ .positive _ _ .exact)).unpack = _
  rw [roundWithAccuracy_eq hfull (significand_pos hpos) 1 (by omega)]
  exact unpack_pack hfull _ (by omega) (by omega)

end LossyConsensus.Double
