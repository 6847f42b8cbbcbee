/-
# Letters and digits of ASCII

What a character of ASCII is can be read off its code point; letters lie in that
range, and digits of any script are no letters.  A character that is no capital
of ASCII is its own small form.
-/

import LossyConsensus.Text.Letter

namespace LossyConsensus.Text

variable {c : Char}

theorem isUpper_iff : c.isUpper = true ↔ c.val ≥ 'A'.val ∧ c.val ≤ 'Z'.val :=
  decide_eq_true_iff

theorem isLower_iff : c.isLower = true ↔ c.val ≥ 'a'.val ∧ c.val ≤ 'z'.val := by
  change (decide (c.val ≥ 'a'.val) && decide (c.val ≤ 'z'.val)) = true ↔ _
  rw [Bool.and_eq_true, decide_eq_true_iff, decide_eq_true_iff]

theorem isAlpha_eq_or (c : Char) : c.isAlpha = (c.isUpper || c.isLower) := rfl

theorem toLower_eq_self (h : c.isUpper = false) : c.toLower = c := by
  apply dif_neg
  intro hcapital
  rw [isUpper_iff.mpr hcapital] at h
  cases h

/-- What holds of the characters at all code points of ASCII holds of every
character of ASCII. -/
theorem forall_ascii (property : Char → Bool)
    (h : ∀ point < 128, property (Char.ofNat point) = true) (hc : c.toNat < 128) :
    property c = true := by
  have hpoint := h c.toNat hc
  rwa [Char.ofNat_toNat] at hpoint

theorem toNat_lt_of_isAlpha (h : c.isAlpha = true) : c.toNat < 128 := by
  rw [isAlpha_eq_or, Bool.or_eq_true, isUpper_iff, isLower_iff] at h
  rcases h with h | h
  · exact Nat.lt_of_le_of_lt (UInt32.le_iff_toNat_le.mp h.2) (by decide)
  · exact Nat.lt_of_le_of_lt (UInt32.le_iff_toNat_le.mp h.2) (by decide)

/-- Letters of ASCII are no digits. -/
theorem isAlpha_of_isDigit (h : isDigit c = true) : c.isAlpha = false := by
  cases halpha : c.isAlpha with
  | false => rfl
  | true =>
      have hor := forall_ascii (fun c => !isDigit c || !c.isAlpha) (by decide)
        (toNat_lt_of_isAlpha halpha)
      simp [h, halpha] at hor

theorem isUpper_of_isAlpha (h : c.isAlpha = false) : c.isUpper = false := by
  rw [isAlpha_eq_or, Bool.or_eq_false_iff] at h
  exact h.1

end LossyConsensus.Text
