/-
# Doubles are lawful scalars

Comparing two doubles compares their places on a line: first the sign, then the
exponent, then the significand.  The share that a draw stands for is exact, and
its exponent is below that of one.

The values of a run compare like their doubles.
-/

import LossyConsensus.Proofs.Scalar.Law
import LossyConsensus.Proofs.Scalar.Rounding
import LossyConsensus.Value
import Mathlib.Data.Prod.Lex
import Mathlib.Order.Compare

namespace LossyConsensus

open Float.Model Float.Model.UnpackedFloat

namespace Double

/-! ## The order of doubles -/

/-- Where a double stands among all of them; one that is no number stands
nowhere.  The signs come first, the infinities being signs of their own. -/
def place? : UnpackedFloat → Option (ℤ ×ₗ ℤ ×ₗ ℤ)
  | .notANumber => none
  | .infinity .negative => some (toLex (-2, toLex (0, 0)))
  | .finite .negative significand exponent _ =>
      some (toLex (-1, toLex (-exponent, -(significand : ℤ))))
  | .zero _ => some (toLex (0, toLex (0, 0)))
  | .finite .positive significand exponent _ =>
      some (toLex (1, toLex (exponent, (significand : ℤ))))
  | .infinity .positive => some (toLex (2, toLex (0, 0)))

theorem compare_neg (a b : ℤ) : compare (-a) (-b) = (compare a b).swap := by
  rw [Int.compare_swap]
  rcases lt_trichotomy a b with h | h | h
  · rw [compare_gt_iff_gt.mpr (by omega), compare_gt_iff_gt.mpr h]
  · rw [compare_eq_iff_eq.mpr (by omega), compare_eq_iff_eq.mpr h.symm]
  · rw [compare_lt_iff_lt.mpr (by omega), compare_lt_iff_lt.mpr h]

theorem compare_natCast (a b : ℕ) : compare (a : ℤ) (b : ℤ) = compare a b := by
  rcases lt_trichotomy a b with h | h | h
  · rw [compare_lt_iff_lt.mpr h, compare_lt_iff_lt.mpr (by omega)]
  · rw [compare_eq_iff_eq.mpr h, compare_eq_iff_eq.mpr (by omega)]
  · rw [compare_gt_iff_gt.mpr h, compare_gt_iff_gt.mpr (by omega)]

/-- Doubles compare like their places. -/
theorem compare_eq (a b : UnpackedFloat) :
    a.compare b =
      (place? a).bind fun first => (place? b).map fun second => compare first second := by
  rcases a with (_ | _) | _ | _ | ⟨(_ | _), m, e, _⟩ <;>
    rcases b with (_ | _) | _ | _ | ⟨(_ | _), m', e', _⟩ <;> try rfl
  · change some ((compare e e').then (compare m m')).swap =
      some ((compare (-e) (-e')).then (compare (-(m : ℤ)) (-(m' : ℤ))))
    rw [compare_neg, compare_neg, compare_natCast, Ordering.swap_then]
  · change some ((compare e e').then (compare m m')) =
      some ((compare e e').then (compare (m : ℤ) (m' : ℤ)))
    rw [compare_natCast]

/-- The place of a double. -/
def place (value : Float) : Option (ℤ ×ₗ ℤ ×ₗ ℤ) :=
  place? value.toModel.unpack

variable {a b : Float}

theorem lt_iff :
    Scalar.lt a b = true ↔ ∃ x y, place a = some x ∧ place b = some y ∧ x < y := by
  have h : Scalar.lt a b = a.toModel.unpack.lt b.toModel.unpack := by
    rw [Bool.eq_iff_iff]
    exact decide_eq_true_iff.trans decide_eq_true_iff
  rw [h, UnpackedFloat.lt, compare_eq, ← place, ← place]
  cases place a <;> cases place b <;> simp [compare_lt_iff_lt]

theorem le_iff :
    Scalar.le a b = true ↔ ∃ x y, place a = some x ∧ place b = some y ∧ x ≤ y := by
  have h : Scalar.le a b = a.toModel.unpack.le b.toModel.unpack := by
    rw [Bool.eq_iff_iff]
    exact decide_eq_true_iff.trans decide_eq_true_iff
  rw [h, UnpackedFloat.le, compare_eq, ← place, ← place]
  cases place a <;> cases place b <;> simp [Ordering.isLE_iff_ne_gt, compare_gt_iff_gt]

theorem isNumber_iff : Scalar.IsNumber a ↔ ∃ x, place a = some x := by
  have h : Scalar.eq a a = a.toModel.unpack.beq a.toModel.unpack := rfl
  rw [Scalar.IsNumber, h, UnpackedFloat.beq, compare_eq, ← place]
  cases place a <;> simp

/-- Doubles that lie on no side of each other stand at one place. -/
theorem place_eq_of_le_of_le (h : Scalar.le a b = true) (h' : Scalar.le b a = true) :
    place a = place b := by
  obtain ⟨x, y, hx, hy, hxy⟩ := le_iff.mp h
  obtain ⟨y', x', hy', hx', hyx⟩ := le_iff.mp h'
  obtain rfl := Option.some.inj (hx.symm.trans hx')
  obtain rfl := Option.some.inj (hy.symm.trans hy')
  rw [hx, hy, le_antisymm hxy hyx]

theorem unpack_of_not_isNumber (h : ¬ Scalar.IsNumber a) :
    a.toModel.unpack = .notANumber := by
  rw [isNumber_iff, ← Option.ne_none_iff_exists', not_not, place] at h
  rcases hu : a.toModel.unpack with (_ | _) | _ | _ | ⟨(_ | _), _, _, _⟩ <;>
    rw [hu] at h <;> first | rfl | cases h

/-- A double that is no number has all bits of its exponent set, and some of its
significand. -/
theorem bits_of_unpack_eq_notANumber {value : Float}
    (h : value.toModel.unpack = .notANumber) :
    @unpackExponent Format.binary64 value.toModel.toBits.toBitVec = -1#_ ∧
      @unpackMantissa Format.binary64 value.toModel.toBits.toBitVec ≠ 0#_ := by
  rw [Float.Model.unpack, UnpackedFloat.unpack] at h
  simp only at h
  split at h
  · next hones =>
    split at h
    · cases h
    · next hmantissa => exact ⟨hones, hmantissa⟩
  · split at h
    · split at h <;> cases h
    · cases h

/-- There is only one double that is no number. -/
theorem eq_of_not_isNumber (ha : ¬ Scalar.IsNumber a) (hb : ¬ Scalar.IsNumber b) : a = b := by
  obtain ⟨hones, hmantissa⟩ := bits_of_unpack_eq_notANumber (unpack_of_not_isNumber ha)
  obtain ⟨hones', hmantissa'⟩ := bits_of_unpack_eq_notANumber (unpack_of_not_isNumber hb)
  have hbits := (a.toModel.valid.eq_packedNaN hones hmantissa).trans
    (b.toModel.valid.eq_packedNaN hones' hmantissa').symm
  obtain ⟨⟨⟨_⟩, _⟩⟩ := a
  obtain ⟨⟨⟨_⟩, _⟩⟩ := b
  cases hbits
  rfl

/-- Only numbers compare. -/
theorem isNumber_of_le (h : Scalar.le a b = true) :
    Scalar.IsNumber a ∧ Scalar.IsNumber b := by
  obtain ⟨x, y, hx, hy, _⟩ := le_iff.mp h
  exact ⟨isNumber_iff.mpr ⟨x, hx⟩, isNumber_iff.mpr ⟨y, hy⟩⟩

/-! ## Differences -/

/-- Two doubles at one place are the same, or both of them are zeros. -/
theorem eq_or_zero_of_place?_eq {a b : UnpackedFloat} (h : place? a = place? b) :
    a = b ∨ ∃ sign sign', a = .zero sign ∧ b = .zero sign' := by
  rcases a with (_ | _) | _ | sign | ⟨(_ | _), m, e, _⟩ <;>
    rcases b with (_ | _) | _ | sign' | ⟨(_ | _), m', e', _⟩ <;>
    simp_all [place?]

/-- A difference is that of the places, unless these are one. -/
theorem sub_eq_of_place?_ne (spec : Format) {a b a' b' : UnpackedFloat}
    (ha : place? a = place? a') (hb : place? b = place? b') (hne : place? a ≠ place? b) :
    UnpackedFloat.sub spec a b = UnpackedFloat.sub spec a' b' := by
  rcases eq_or_zero_of_place?_eq ha with rfl | ⟨sign, sign', rfl, rfl⟩
  · rcases eq_or_zero_of_place?_eq hb with rfl | ⟨sign, sign', rfl, rfl⟩
    · rfl
    · cases a with
      | zero _ => exact absurd rfl hne
      | _ => rfl
  · rcases eq_or_zero_of_place?_eq hb with rfl | ⟨_, _, rfl, rfl⟩
    · cases b with
      | zero _ => exact absurd rfl hne
      | _ => rfl
    · exact absurd rfl hne

/-- The difference of a double from itself is that of its place, whatever the sign of
zero. -/
theorem sub_self_eq_of_place?_eq (spec : Format) {a b : UnpackedFloat}
    (h : place? a = place? b) :
    UnpackedFloat.sub spec a a = UnpackedFloat.sub spec b b := by
  rcases eq_or_zero_of_place?_eq h with rfl | ⟨sign, sign', rfl, rfl⟩
  · rfl
  · cases sign <;> cases sign' <;> rfl

theorem sub_eq (a b : Float) :
    a - b = ⟨Float.Model.pack
      (UnpackedFloat.sub Format.binary64 a.toModel.unpack b.toModel.unpack)⟩ := rfl

/-- What is no number does not become one by taking it from itself. -/
theorem not_isNumber_sub_self (h : ¬ Scalar.IsNumber a) : ¬ Scalar.IsNumber (a - a) := by
  rw [sub_eq, unpack_of_not_isNumber h, Scalar.IsNumber]
  decide

/-! ## Draws -/

/-- A draw stands for less than one. -/
theorem ofDraw_lt_one {draw : Nat} (h : draw < 2 ^ 53) :
    Scalar.lt (Scalar.ofDraw draw : Float) (Scalar.ofNat 1) = true := by
  have hone : place (Scalar.ofNat 1 : Float) = some (toLex (1, toLex (-52, 2 ^ 52))) := by
    have hbits : (Scalar.ofNat 1 : Float) = Float.ofBits 0x3FF0000000000000 := rfl
    rw [hbits, place, unpack_one]
    rfl
  rcases Nat.eq_zero_or_pos draw with rfl | hpos
  · decide
  · have hlog := log2_le hpos h
    have hdraw : place (Scalar.ofDraw draw : Float) =
        some (toLex (1, toLex ((draw.log2 : ℤ) - 105, (significand draw : ℤ)))) := by
      rw [place, unpack_ofDraw hpos h]
      rfl
    refine lt_iff.mpr ⟨_, _, hdraw, hone, ?_⟩
    refine Prod.Lex.toLex_lt_toLex.mpr (.inr ⟨rfl, Prod.Lex.toLex_lt_toLex.mpr (.inl ?_)⟩)
    change (draw.log2 : ℤ) - 105 < -52
    omega

/-! ## Integer parts -/

/-- Only a double whose exponent bits are all set can be no number. -/
theorem exponent_of_not_isNumber (h : ¬ Scalar.IsNumber a) :
    a.toBits.toNat / 2 ^ 52 % 2 ^ 11 = 2047 := by
  have hbits :=
    congrArg BitVec.toNat (bits_of_unpack_eq_notANumber (unpack_of_not_isNumber h)).1
  simp only [unpackExponent, BitVec.toNat_cast, BitVec.extractLsb_toNat] at hbits
  rw [Nat.shiftRight_eq_div_pow] at hbits
  exact hbits

/-- A double with an integer part is a number. -/
theorem isNumber_of_isFinite {value : Float} (h : Scalar.IsFinite value) :
    Scalar.IsNumber value := by
  by_contra hnot
  obtain ⟨whole, hwhole⟩ := h
  have hfield := exponent_of_not_isNumber hnot
  change truncateFloat value = .ok whole at hwhole
  simp only [truncateFloat] at hwhole
  rw [if_pos (beq_iff_eq.mpr hfield)] at hwhole
  cases hwhole

end Double

instance : LawfulScalar Float where
  le_trans hab hbc := by
    obtain ⟨x, y, hx, hy, hxy⟩ := Double.le_iff.mp hab
    obtain ⟨y', z, hy', hz, hyz⟩ := Double.le_iff.mp hbc
    obtain rfl := Option.some.inj (hy.symm.trans hy')
    exact Double.le_iff.mpr ⟨x, z, hx, hz, hxy.trans hyz⟩
  lt_of_lt_of_le hab hbc := by
    obtain ⟨x, y, hx, hy, hxy⟩ := Double.lt_iff.mp hab
    obtain ⟨y', z, hy', hz, hyz⟩ := Double.le_iff.mp hbc
    obtain rfl := Option.some.inj (hy.symm.trans hy')
    exact Double.lt_iff.mpr ⟨x, z, hx, hz, hxy.trans_le hyz⟩
  le_of_lt hab := by
    obtain ⟨x, y, hx, hy, hxy⟩ := Double.lt_iff.mp hab
    exact Double.le_iff.mpr ⟨x, y, hx, hy, hxy.le⟩
  le_of_not_lt ha hb hba := by
    obtain ⟨x, hx⟩ := Double.isNumber_iff.mp ha
    obtain ⟨y, hy⟩ := Double.isNumber_iff.mp hb
    refine Double.le_iff.mpr ⟨x, y, hx, hy, ?_⟩
    by_contra hlt
    rw [Double.lt_iff.mpr ⟨y, x, hy, hx, not_le.mp hlt⟩] at hba
    cases hba
  not_lt_of_le hab := by
    obtain ⟨x, y, hx, hy, hxy⟩ := Double.le_iff.mp hab
    refine Bool.eq_false_iff.mpr fun hba => ?_
    obtain ⟨y', x', hy', hx', hlt⟩ := Double.lt_iff.mp hba
    obtain rfl := Option.some.inj (hx.symm.trans hx')
    obtain rfl := Option.some.inj (hy.symm.trans hy')
    exact absurd hlt (not_lt.mpr hxy)
  isNumber_of_isFinite := Double.isNumber_of_isFinite
  arise_of_isNumber _ _ _ := rfl
  isFinite_zero := ⟨0, by decide⟩
  isFinite_one := ⟨1, by decide⟩
  zero_lt_one := by decide
  one_sub_zero_ne_zero := by decide
  ofDraw_lt_one := Double.ofDraw_lt_one

/-- What is computed of values is computed of their doubles. -/
instance : LawfulScalar Value where
  le_trans {a b c} hab hbc := LawfulScalar.le_trans (R := Float) (b := b.real) hab hbc
  lt_of_lt_of_le {a b c} hab hbc := LawfulScalar.lt_of_lt_of_le (R := Float) (b := b.real) hab hbc
  le_of_lt {a b} hab := LawfulScalar.le_of_lt (R := Float) (a := a.real) hab
  le_of_not_lt {a b} ha hb hba :=
    LawfulScalar.le_of_not_lt (R := Float) (a := a.real) (b := b.real) ha hb hba
  not_lt_of_le {a b} hab := LawfulScalar.not_lt_of_le (R := Float) (a := a.real) hab
  isNumber_of_isFinite {a} ha := @Double.isNumber_of_isFinite a.real ha
  arise_of_isNumber round process ha := by
    refine if_pos ?_
    rw [Bool.or_eq_true]
    exact .inl ha
  isFinite_zero := ⟨0, by decide⟩
  isFinite_one := ⟨1, by decide⟩
  zero_lt_one := by decide
  one_sub_zero_ne_zero := by decide
  ofDraw_lt_one h := Double.ofDraw_lt_one h

end LossyConsensus
