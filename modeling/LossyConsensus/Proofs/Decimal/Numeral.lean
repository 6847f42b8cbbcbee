/-
# The form of numerals

A numeral is a mantissa and perhaps an exponent, with a minus sign in front or
none.  Exactly these texts are read as literals, and the value of a literal is
the real that its text writes.
-/

import LossyConsensus.Decimal.Numeral
import LossyConsensus.Proofs.Text.Blank
import LossyConsensus.Proofs.Text.Letter

namespace LossyConsensus.Decimal

open LossyConsensus.Text

/-- A text of digits only, perhaps empty. -/
def Digits (text : List Char) : Prop :=
  ∀ c ∈ text, isDigit c = true

/-- Digits with at most one point among, before or after them. -/
inductive IsMantissa : List Char → Prop
  | whole {digits : List Char} (hnil : digits ≠ []) (hdigits : Digits digits) : IsMantissa digits
  | pointed {whole fraction : List Char} (hnil : whole ≠ [] ∨ fraction ≠ [])
      (hwhole : Digits whole) (hfraction : Digits fraction) :
      IsMantissa (whole ++ '.' :: fraction)

/-- Nothing, or an `e` of either case, an optional sign and digits. -/
inductive IsExponent : List Char → Prop
  | absent : IsExponent []
  | marked {mark : Char} {sign digits : List Char} (hmark : mark = 'e' ∨ mark = 'E')
      (hsign : sign = [] ∨ sign = ['+'] ∨ sign = ['-']) (hnil : digits ≠ [])
      (hdigits : Digits digits) : IsExponent (mark :: (sign ++ digits))

/-- A mantissa and an exponent, with a minus sign directly before them or
none. -/
inductive IsNumeral : List Char → Prop
  | unsigned {mantissa exponent : List Char} (hmantissa : IsMantissa mantissa)
      (hexponent : IsExponent exponent) : IsNumeral (mantissa ++ exponent)
  | negative {mantissa exponent : List Char} (hmantissa : IsMantissa mantissa)
      (hexponent : IsExponent exponent) : IsNumeral ('-' :: (mantissa ++ exponent))

variable {text digits rest mantissa exponent : List Char} {c : Char}

/-! ## Digits -/

theorem digits_iff :
    (!digits.isEmpty && digits.all isDigit) = true ↔ digits ≠ [] ∧ Digits digits := by
  rw [Bool.and_eq_true, Bool.not_eq_true', List.isEmpty_eq_false_iff, List.all_eq_true]
  rfl

theorem isBlank_of_isDigit (h : isDigit c = true) : isBlank c = false := by
  apply isBlank_eq_false (fun c => !isDigit c) (by decide)
  simpa using h

/-- The digits at the front of a text end where no digit follows. -/
theorem takeWhile_isDigit (hdigits : Digits digits)
    (hrest : ∀ c tail, rest = c :: tail → isDigit c = false) :
    (digits ++ rest).takeWhile isDigit = digits := by
  apply takeWhile_run hdigits
  intro c hc
  obtain ⟨tail, htail⟩ := List.head?_eq_some_iff.mp hc
  exact hrest c tail htail

theorem dropWhile_isDigit (hdigits : Digits digits)
    (hrest : ∀ c tail, rest = c :: tail → isDigit c = false) :
    (digits ++ rest).dropWhile isDigit = rest := by
  apply dropWhile_run hdigits
  intro c hc
  obtain ⟨tail, htail⟩ := List.head?_eq_some_iff.mp hc
  exact hrest c tail htail

theorem digits_takeWhile (text : List Char) : Digits (text.takeWhile isDigit) :=
  fun _ hc => List.mem_takeWhile_imp hc

/-! ## Exponents -/

theorem IsExponent.head_not_digit (h : IsExponent text) (c : Char) (tail : List Char)
    (hcons : text = c :: tail) : isDigit c = false := by
  cases h with
  | absent => cases hcons
  | marked hmark =>
      cases hcons
      rcases hmark with rfl | rfl <;> decide

theorem digits_of_isSome {value : Int}
    (h : (if !digits.isEmpty && digits.all isDigit then some value else none).isSome = true) :
    digits ≠ [] ∧ Digits digits := by
  split at h
  · next hdigits => exact digits_iff.mp hdigits
  · cases h

theorem isExponent_of_readExponent? (h : (readExponent? text).isSome = true) :
    IsExponent text := by
  cases text with
  | nil => exact .absent
  | cons mark rest =>
      simp only [readExponent?] at h
      split at h
      · next hmark =>
        rw [Bool.or_eq_true, beq_iff_eq, beq_iff_eq] at hmark
        split at h
        · have hdigits := digits_of_isSome h
          show IsExponent (mark :: (['-'] ++ _))
          exact .marked hmark (.inr (.inr rfl)) hdigits.1 hdigits.2
        · have hdigits := digits_of_isSome h
          show IsExponent (mark :: (['+'] ++ _))
          exact .marked hmark (.inr (.inl rfl)) hdigits.1 hdigits.2
        · have hdigits := digits_of_isSome h
          show IsExponent (mark :: ([] ++ _))
          exact .marked hmark (.inl rfl) hdigits.1 hdigits.2
      · cases h

theorem IsExponent.isSome_readExponent? (h : IsExponent text) :
    (readExponent? text).isSome = true := by
  cases h with
  | absent => rfl
  | @marked mark sign digits hmark hsign hnil hdigits =>
      have hletter : (mark == 'e' || mark == 'E') = true := by
        rcases hmark with rfl | rfl <;> rfl
      have hread := digits_iff.mpr ⟨hnil, hdigits⟩
      rcases hsign with rfl | rfl | rfl
      · cases digits with
        | nil => exact absurd rfl hnil
        | cons d digits =>
            simp only [readExponent?, hletter, if_true, List.nil_append]
            split
            · next hsign =>
              rw [hsign] at hdigits
              exact absurd (hdigits '-' List.mem_cons_self) (by decide)
            · next hsign =>
              rw [hsign] at hdigits
              exact absurd (hdigits '+' List.mem_cons_self) (by decide)
            · rw [if_pos hread, Option.isSome_some]
      · simp only [readExponent?, hletter, if_true, List.singleton_append, hread]
        rfl
      · simp only [readExponent?, hletter, if_true, List.singleton_append, hread]
        rfl

/-- The exponents that can be read are those of the right form. -/
theorem readExponent?_isSome_iff : (readExponent? text).isSome = true ↔ IsExponent text :=
  ⟨isExponent_of_readExponent?, IsExponent.isSome_readExponent?⟩

/-! ## Numerals -/

theorem IsMantissa.front (h : IsMantissa text) :
    ∃ c rest, text = c :: rest ∧ (isDigit c = true ∨ c = '.') := by
  cases h with
  | whole hnil hdigits =>
      rcases List.exists_cons_of_ne_nil hnil with ⟨c, rest, rfl⟩
      exact ⟨c, rest, rfl, .inl (hdigits c List.mem_cons_self)⟩
  | @pointed whole fraction _ hwhole _ =>
      cases whole with
      | nil => exact ⟨'.', fraction, rfl, .inr rfl⟩
      | cons c whole => exact ⟨c, _, rfl, .inl (hwhole c List.mem_cons_self)⟩

theorem Digits.back (hdigits : Digits digits) (hnil : digits ≠ []) :
    ∃ init c, digits = init ++ [c] ∧ isDigit c = true := by
  rcases List.eq_nil_or_concat digits with rfl | ⟨init, c, rfl⟩
  · exact absurd rfl hnil
  · rw [List.concat_eq_append] at hdigits ⊢
    exact ⟨init, c, rfl, hdigits c (by simp)⟩

theorem IsMantissa.back (h : IsMantissa text) :
    ∃ init c, text = init ++ [c] ∧ (isDigit c = true ∨ c = '.') := by
  cases h with
  | whole hnil hdigits =>
      rcases hdigits.back hnil with ⟨init, c, rfl, hc⟩
      exact ⟨init, c, rfl, .inl hc⟩
  | @pointed whole fraction _ _ hfraction =>
      by_cases hnil : fraction = []
      · exact ⟨whole, '.', by rw [hnil], .inr rfl⟩
      · rcases hfraction.back hnil with ⟨init, c, rfl, hc⟩
        exact ⟨whole ++ '.' :: init, c, by simp, .inl hc⟩

theorem exists_of_readMagnitude? {negative : Bool}
    (h : (readMagnitude? negative text).isSome = true) :
    ∃ mantissa exponent, text = mantissa ++ exponent ∧ IsMantissa mantissa ∧
      IsExponent exponent := by
  have hparts := (List.takeWhile_append_dropWhile (p := isDigit) (l := text)).symm
  have hwhole := digits_takeWhile text
  simp only [readMagnitude?] at h
  split at h
  · next rest hdrop =>
    split at h
    · cases h
    · next hnil =>
      rw [Option.isSome_map, readExponent?_isSome_iff] at h
      refine ⟨text.takeWhile isDigit ++ '.' :: rest.takeWhile isDigit,
        rest.dropWhile isDigit, ?_, .pointed ?_ hwhole (digits_takeWhile rest), h⟩
      · rw [List.append_assoc, List.cons_append, List.takeWhile_append_dropWhile, ← hdrop]
        exact hparts
      · simpa [Decidable.or_iff_not_imp_left] using hnil
  · split at h
    · cases h
    · next hnil =>
      rw [Option.isSome_map, readExponent?_isSome_iff] at h
      exact ⟨_, _, hparts, .whole (by simpa using hnil) hwhole, h⟩

theorem isSome_readMagnitude? (negative : Bool) {mantissa exponent : List Char}
    (hmantissa : IsMantissa mantissa) (hexponent : IsExponent exponent) :
    (readMagnitude? negative (mantissa ++ exponent)).isSome = true := by
  have hread := readExponent?_isSome_iff.mpr hexponent
  cases hmantissa with
  | whole hnil hdigits =>
      simp only [readMagnitude?, takeWhile_isDigit hdigits hexponent.head_not_digit,
        dropWhile_isDigit hdigits hexponent.head_not_digit]
      split
      · next hpoint =>
        cases hexponent with
        | marked hmark => rcases hmark with hmark | hmark <;> exact absurd hmark (by decide)
      · rw [if_neg (by simpa using hnil), Option.isSome_map]
        exact hread
  | @pointed whole fraction hnil hwhole hfraction =>
      have hpoint : ∀ c tail, '.' :: (fraction ++ exponent) = c :: tail → isDigit c = false := by
        rintro c tail hcons
        cases hcons
        decide
      rw [List.append_assoc, List.cons_append]
      simp only [readMagnitude?, takeWhile_isDigit hwhole hpoint, dropWhile_isDigit hwhole hpoint,
        takeWhile_isDigit hfraction hexponent.head_not_digit,
        dropWhile_isDigit hfraction hexponent.head_not_digit]
      rw [if_neg (by simpa [Decidable.or_iff_not_imp_left] using hnil), Option.isSome_map]
      exact hread

/-- A magnitude can be read from a mantissa with an exponent and from nothing
else. -/
theorem readMagnitude?_isSome_iff (negative : Bool) :
    (readMagnitude? negative text).isSome = true ↔
      ∃ mantissa exponent, text = mantissa ++ exponent ∧ IsMantissa mantissa ∧
        IsExponent exponent := by
  constructor
  · exact exists_of_readMagnitude?
  · rintro ⟨mantissa, exponent, rfl, hmantissa, hexponent⟩
    exact isSome_readMagnitude? negative hmantissa hexponent

/-- The literals that can be read are the numerals. -/
theorem readLiteral?_isSome_iff : (readLiteral? text).isSome = true ↔ IsNumeral text := by
  constructor
  · intro h
    simp only [readLiteral?] at h
    split at h
    · rcases (readMagnitude?_isSome_iff true).mp h with ⟨mantissa, exponent, rfl, hm, hx⟩
      exact .negative hm hx
    · rcases (readMagnitude?_isSome_iff false).mp h with ⟨mantissa, exponent, rfl, hm, hx⟩
      exact .unsigned hm hx
  · intro h
    cases h with
    | @unsigned mantissa exponent hm hx =>
        simp only [readLiteral?]
        split
        · next hminus =>
          rcases hm.front with ⟨c, rest, rfl, hc⟩
          cases hminus
          exact absurd hc (by decide)
        · exact (readMagnitude?_isSome_iff false).mpr ⟨_, _, rfl, hm, hx⟩
    | negative hm hx => exact (readMagnitude?_isSome_iff true).mpr ⟨_, _, rfl, hm, hx⟩

/-! ## The characters of a numeral -/

theorem IsMantissa.mem (h : IsMantissa text) (hc : c ∈ text) : isDigit c = true ∨ c = '.' := by
  cases h with
  | whole _ hdigits => exact .inl (hdigits c hc)
  | pointed _ hwhole hfraction =>
      rcases List.mem_append.mp hc with hc | hc
      · exact .inl (hwhole c hc)
      · rcases List.mem_cons.mp hc with rfl | hc
        · exact .inr rfl
        · exact .inl (hfraction c hc)

theorem IsExponent.mem (h : IsExponent text) (hc : c ∈ text) :
    isDigit c = true ∨ c ∈ ['e', 'E', '+', '-'] := by
  cases h with
  | absent => cases hc
  | marked hmark hsign _ hdigits =>
      rcases List.mem_cons.mp hc with rfl | hc
      · right
        rcases hmark with rfl | rfl <;> decide
      · rcases List.mem_append.mp hc with hc | hc
        · right
          rcases hsign with rfl | rfl | rfl
          · cases hc
          · rw [List.mem_singleton.mp hc]
            decide
          · rw [List.mem_singleton.mp hc]
            decide
        · exact .inl (hdigits c hc)

/-- What no digit, point, mark or sign can be is in no numeral. -/
theorem IsNumeral.forall_mem (h : IsNumeral text) (property : Char → Prop)
    (hdigit : ∀ c, isDigit c = true → property c)
    (hother : ∀ c ∈ ['.', 'e', 'E', '+', '-'], property c) : ∀ c ∈ text, property c := by
  have hparts : ∀ {mantissa exponent : List Char}, IsMantissa mantissa → IsExponent exponent →
      ∀ c ∈ mantissa ++ exponent, property c := by
    intro mantissa exponent hm hx c hc
    rcases List.mem_append.mp hc with hc | hc
    · rcases hm.mem hc with hc | rfl
      · exact hdigit c hc
      · exact hother '.' (by decide)
    · rcases hx.mem hc with hc | hc
      · exact hdigit c hc
      · exact hother c (List.mem_cons_of_mem '.' hc)
  cases h with
  | unsigned hm hx => exact hparts hm hx
  | negative hm hx =>
      intro c hc
      rcases List.mem_cons.mp hc with rfl | hc
      · exact hother '-' (by decide)
      · exact hparts hm hx c hc

theorem IsNumeral.front (h : IsNumeral text) :
    ∃ c rest, text = c :: rest ∧ (isDigit c = true ∨ c = '.' ∨ c = '-') := by
  cases h with
  | @unsigned _ exponent hm _ =>
      rcases hm.front with ⟨c, rest, rfl, hc | rfl⟩
      · exact ⟨c, rest ++ exponent, rfl, .inl hc⟩
      · exact ⟨'.', rest ++ exponent, rfl, .inr (.inl rfl)⟩
  | negative => exact ⟨'-', _, rfl, .inr (.inr rfl)⟩

theorem IsExponent.back (h : IsExponent text) :
    text = [] ∨ ∃ init c, text = init ++ [c] ∧ isDigit c = true := by
  cases h with
  | absent => exact .inl rfl
  | @marked mark sign digits _ _ hnil hdigits =>
      rcases hdigits.back hnil with ⟨init, c, rfl, hc⟩
      exact .inr ⟨mark :: (sign ++ init), c, by simp, hc⟩

theorem IsNumeral.back (h : IsNumeral text) :
    ∃ init c, text = init ++ [c] ∧ (isDigit c = true ∨ c = '.') := by
  have hparts : ∀ {mantissa exponent : List Char}, IsMantissa mantissa → IsExponent exponent →
      ∃ init c, mantissa ++ exponent = init ++ [c] ∧ (isDigit c = true ∨ c = '.') := by
    intro mantissa exponent hm hx
    rcases hx.back with rfl | ⟨init, c, rfl, hc⟩
    · rw [List.append_nil]
      exact hm.back
    · exact ⟨mantissa ++ init, c, (List.append_assoc _ _ _).symm, .inl hc⟩
  cases h with
  | unsigned hm hx => exact hparts hm hx
  | negative hm hx =>
      rcases hparts hm hx with ⟨init, c, hback, hc⟩
      exact ⟨'-' :: init, c, by rw [hback, List.cons_append], hc⟩

theorem IsNumeral.trimmed (h : IsNumeral text) : Trimmed text := by
  constructor
  · rcases h.front with ⟨c, rest, rfl, hc | rfl | rfl⟩
    · exact ⟨c, rest, rfl, isBlank_of_isDigit hc⟩
    · exact ⟨'.', rest, rfl, by decide⟩
    · exact ⟨'-', rest, rfl, by decide⟩
  · rcases h.back with ⟨init, c, rfl, hc | rfl⟩
    · exact ⟨init, c, rfl, isBlank_of_isDigit hc⟩
    · exact ⟨init, '.', rfl, by decide⟩

/-! ## The value of a literal -/

theorem joinDigits?_eq (h : '_' ∉ text) (previous : Option Char) :
    joinDigits? previous text = some text := by
  induction text generalizing previous with
  | nil => rfl
  | cons c text ih =>
      have hc : c ≠ '_' := fun heq => h (heq ▸ List.mem_cons_self)
      rw [joinDigits?, ih fun hmem => h (List.mem_cons_of_mem c hmem)]
      · rfl
      · rintro rfl
        exact hc rfl

theorem trimNumeral_eq (h : Trimmed text) : trimNumeral text = text := by
  have hdrop : ∀ {text : List Char}, Trimmed text → text.dropWhile isNumeralBlank = text := by
    intro text htext
    rcases htext.front with ⟨c, rest, rfl, hc⟩
    exact List.dropWhile_cons_of_neg (by simp [isNumeralBlank, hc])
  rw [trimNumeral, hdrop h, hdrop h.reverse, List.reverse_reverse]

/-- No name of infinity or of no number begins with a digit or a point. -/
theorem lower_ne_of_front (hc : isDigit c = true ∨ c = '.') (name : String)
    (hname : name.toList.head? = some 'i' ∨ name.toList.head? = some 'n') :
    (String.ofList ((c :: rest).map Char.toLower) == name) = false := by
  rw [beq_eq_false_iff_ne]
  rintro rfl
  have hself : c.toLower = c := by
    rcases hc with hc | rfl
    · exact toLower_eq_self (isUpper_of_isAlpha (isAlpha_of_isDigit hc))
    · rfl
  rw [String.toList_ofList, List.map_cons, List.head?_cons, hself] at hname
  rcases hname with hname | hname <;> cases hname <;> exact absurd hc (by decide)

theorem IsNumeral.no_underscore (h : IsNumeral text) : '_' ∉ text := by
  intro hmem
  apply h.forall_mem (· ≠ '_') ?_ (by decide) '_' hmem rfl
  rintro c hc rfl
  cases hc

/-- A numeral's value is the real that its text writes. -/
theorem readReal?_of_readLiteral? {numeral : Numeral} (h : readLiteral? text = some numeral) :
    readReal? text = some numeral.value := by
  have hnumeral : IsNumeral text := readLiteral?_isSome_iff.mp (by rw [h]; rfl)
  have hplain := hnumeral.no_underscore
  simp only [readReal?, trimNumeral_eq hnumeral.trimmed]
  cases hnumeral with
  | @unsigned _ exponent hm _ =>
      rcases hm.front with ⟨c, rest, rfl, hc⟩
      rw [List.cons_append] at h hplain ⊢
      simp only [readLiteral?] at h
      split at h
      · next hminus =>
        cases hminus
        exact absurd hc (by decide)
      · split
        · next hminus =>
          cases hminus
          exact absurd hc (by decide)
        · next hplus =>
          cases hplus
          exact absurd hc (by decide)
        · simp only [lower_ne_of_front hc "nan" (by decide),
            lower_ne_of_front hc "inf" (by decide),
            lower_ne_of_front hc "infinity" (by decide), joinDigits?_eq hplain]
          simp [h]
  | @negative mantissa exponent hm _ =>
      rcases hm.front with ⟨c, rest, rfl, hc⟩
      rw [List.cons_append] at h hplain ⊢
      have hbody : '_' ∉ c :: (rest ++ exponent) := fun hmem =>
        hplain (List.mem_cons_of_mem '-' hmem)
      simp only [lower_ne_of_front hc "nan" (by decide),
        lower_ne_of_front hc "inf" (by decide),
        lower_ne_of_front hc "infinity" (by decide), joinDigits?_eq hbody]
      simp only [readLiteral?] at h
      simp [h]

end LossyConsensus.Decimal
