/-
# Options in source texts

The search for an option of a delivery model takes the first place where the name is
given a value, whatever stands before and after it.  Among options that stand one after
another, with blanks between them, it finds the one of its name.
-/

import LossyConsensus.Proofs.Decimal.Numeral
import LossyConsensus.Proofs.Text.Scan
import LossyConsensus.Source.Sections

namespace LossyConsensus.Source

open LossyConsensus.Decimal LossyConsensus.Text

/-- An option of a delivery model: its name, what may stand before the name, and the
characters of its value. -/
structure OptionForm where
  name : String
  admits : Option Char → Bool
  inValue : Char → Bool
  /-- A value holds no blank. -/
  isBlank_eq : ∀ {c : Char}, inValue c = true → isBlank c = false
  /-- A name may follow a blank. -/
  admits_blank : ∀ {c : Char}, isBlank c = true → admits (some c) = true

namespace OptionForm

/-- The number of messages that must arrive, named by a word of its own. -/
def count : OptionForm where
  name := "k"
  admits previous := !previous.any isWordChar
  inValue := isDigit
  isBlank_eq := isBlank_of_isDigit
  admits_blank := by
    intro c hc
    simpa using forall_isBlank (fun c => !isWordChar c) (by decide +kernel) hc

/-- An option whose value is a word. -/
def worded (name : String) : OptionForm where
  name
  admits _ := true
  inValue := isWordChar
  isBlank_eq := by
    intro c hc
    apply isBlank_eq_false (fun c => !isWordChar c) (by decide +kernel)
    simpa using hc
  admits_blank _ := rfl

/-- After `front` a text gives the option a value: the name at a place that admits it,
an equals sign that blanks may surround, and all characters of the value that follow.
`previous` is the character before the text. -/
inductive Gives (form : OptionForm) (previous : Option Char) (front value : List Char) :
    List Char → Prop
  | intro {before after back : List Char} (hplace : form.admits (front.getLast?.or previous) = true)
      (hbefore : Blanks before) (hafter : Blanks after) (hvalue : value ≠ [])
      (hrun : ∀ c ∈ value, form.inValue c = true)
      (hback : ∀ c ∈ back.head?, form.inValue c = false) :
      Gives form previous front value
        (front ++ (form.name.toList ++ (before ++ '=' :: (after ++ (value ++ back)))))

/-- The value that a text gives an option at the first place where it gives it any. -/
def GivesFirst (form : OptionForm) (previous : Option Char) (value text : List Char) : Prop :=
  ∃ front, form.Gives previous front value text ∧
    ∀ front' value', form.Gives previous front' value' text → front.length ≤ front'.length

/-- A text gives an option no value. -/
def Omits (form : OptionForm) (previous : Option Char) (text : List Char) : Prop :=
  ∀ front value, ¬ form.Gives previous front value text

/-- The value of a worded option in a text: the first one that is given, or the
default. -/
def Chooses (name default value : String) (text : List Char) : Prop :=
  (∃ found, (worded name).GivesFirst none found text ∧ value = String.ofList found) ∨
    (worded name).Omits none text ∧ value = default

/-- The value at the front of a text. -/
def value? (form : OptionForm) (text : List Char) : Option (List Char) :=
  let value := text.takeWhile form.inValue
  if value.isEmpty then none else some value

/-- The first value that a text gives an option. -/
def find? (form : OptionForm) (previous : Option Char) (text : List Char) : Option (List Char) :=
  findOption? form.name form.admits form.value? previous text

variable {form : OptionForm} {previous : Option Char} {front value rest text : List Char} {c : Char}

/-! ## Places of an option -/

theorem value?_eq_some_iff : form.value? text = some value ↔
    value ≠ [] ∧ (∀ c ∈ value, form.inValue c = true) ∧
      ∃ back, text = value ++ back ∧ ∀ c ∈ back.head?, form.inValue c = false := by
  simp only [value?, Option.ite_none_left_eq_some, List.isEmpty_iff, Option.some.injEq]
  constructor
  · rintro ⟨hnil, rfl⟩
    refine ⟨hnil, fun c hc => List.mem_takeWhile_imp hc, text.dropWhile form.inValue,
      List.takeWhile_append_dropWhile.symm, ?_⟩
    intro c hc
    have hhead := List.head?_dropWhile_not form.inValue text
    rw [Option.mem_def.mp hc] at hhead
    simpa using hhead
  · rintro ⟨hnil, hrun, back, rfl, hback⟩
    rw [takeWhile_run hrun hback]
    exact ⟨hnil, rfl⟩

theorem gives_here {before after back : List Char} (hplace : form.admits previous = true)
    (hbefore : Blanks before) (hafter : Blanks after) (hvalue : value ≠ [])
    (hrun : ∀ c ∈ value, form.inValue c = true)
    (hback : ∀ c ∈ back.head?, form.inValue c = false) :
    form.Gives previous [] value
      (form.name.toList ++ (before ++ '=' :: (after ++ (value ++ back)))) := by
  have hgives : form.Gives previous [] value
      ([] ++ (form.name.toList ++ (before ++ '=' :: (after ++ (value ++ back))))) :=
    .intro hplace hbefore hafter hvalue hrun hback
  exact hgives

/-- An option stands at the front of a text just where the reader finds it there. -/
theorem gives_nil_iff : form.Gives previous [] value text ↔
    form.admits previous = true ∧ (optionAt? form.name text).bind form.value? = some value := by
  constructor
  · intro h
    cases h with
    | @intro before after back hplace hbefore hafter hvalue hrun hback =>
        refine ⟨hplace, ?_⟩
        obtain ⟨first, tail, rfl⟩ := List.exists_cons_of_ne_nil hvalue
        have hfirst : isBlank first = false := form.isBlank_eq (hrun first List.mem_cons_self)
        have hsign : trimLeft (before ++ '=' :: (after ++ (first :: tail ++ back))) =
            '=' :: (after ++ (first :: tail ++ back)) := by
          rw [trimLeft_append hbefore, trimLeft_cons (by decide)]
        have hstart : trimLeft (after ++ (first :: tail ++ back)) = first :: tail ++ back := by
          rw [trimLeft_append hafter, List.cons_append, trimLeft_cons hfirst]
        have hat : optionAt? form.name ([] ++ (form.name.toList ++ (before ++ '=' ::
            (after ++ (first :: tail ++ back))))) = some (first :: tail ++ back) := by
          simp only [optionAt?, List.nil_append, after?_append, Option.bind_eq_bind,
            Option.bind_some, hsign]
          exact congrArg some hstart
        rw [hat]
        exact value?_eq_some_iff.mpr ⟨hvalue, hrun, back, rfl, hback⟩
  · rintro ⟨hplace, h⟩
    obtain ⟨shown, hat, hshown⟩ := Option.bind_eq_some_iff.mp h
    obtain ⟨rest, hname, hat⟩ := Option.bind_eq_some_iff.mp hat
    obtain ⟨found, hsign, hfound⟩ := Option.bind_eq_some_iff.mp hat
    obtain rfl := by simpa using hfound
    obtain ⟨before, hbefore, hrest⟩ := exists_trimLeft rest
    obtain ⟨after, hafter, hstart⟩ := exists_trimLeft found
    obtain ⟨hvalue, hrun, back, hback, hend⟩ := value?_eq_some_iff.mp hshown
    rw [after?_eq_some_iff.mp hname, hrest, after?_eq_some_iff.mp hsign, hstart, hback]
    exact gives_here hplace hbefore hafter hvalue hrun hend

theorem gives_cons_iff {other : Char} : form.Gives previous (c :: front) value (other :: rest) ↔
    c = other ∧ form.Gives (some c) front value rest := by
  have hlast : (c :: front).getLast?.or previous = front.getLast?.or (some c) := by
    rw [List.getLast?_cons]
    cases front.getLast? <;> rfl
  constructor
  · intro h
    generalize htext : other :: rest = text at h
    cases h with
    | intro hplace hbefore hafter hvalue hrun hback =>
        rw [List.cons_append, List.cons.injEq] at htext
        obtain ⟨rfl, rfl⟩ := htext
        exact ⟨rfl, .intro (hlast ▸ hplace) hbefore hafter hvalue hrun hback⟩
  · rintro ⟨rfl, h⟩
    cases h with
    | @intro before after back hplace hbefore hafter hvalue hrun hback =>
        have hgives : form.Gives previous (c :: front) value (c :: front ++
            (form.name.toList ++ (before ++ '=' :: (after ++ (value ++ back))))) :=
          .intro (hlast ▸ hplace) hbefore hafter hvalue hrun hback
        exact hgives

theorem not_gives_nil_text : ¬ form.Gives previous front value [] := by
  intro h
  generalize htext : ([] : List Char) = text at h
  cases h with
  | intro => simp at htext

/-! ## The search for an option -/

/-- One step of the search: the place before a character, or one after it. -/
theorem find?_cons (c : Char) (rest : List Char) : form.find? previous (c :: rest) =
    if form.admits previous then
      ((optionAt? form.name (c :: rest)).bind form.value?).or (form.find? (some c) rest)
    else form.find? (some c) rest := by
  simp only [find?, findOption?]
  by_cases hplace : form.admits previous = true
  · rw [if_pos hplace, if_pos hplace]
    cases (optionAt? form.name (c :: rest)).bind form.value? <;> rfl
  · rw [if_neg hplace, if_neg hplace]

/-- The search takes an option that stands at the front. -/
theorem find?_of_gives_nil (h : form.Gives previous [] value (c :: rest)) :
    form.find? previous (c :: rest) = some value := by
  obtain ⟨hplace, hvalue⟩ := gives_nil_iff.mp h
  rw [find?_cons, if_pos hplace, hvalue, Option.some_or]

/-- The search goes on where no option stands at the front. -/
theorem find?_of_not_gives_nil (h : ∀ value, ¬ form.Gives previous [] value (c :: rest)) :
    form.find? previous (c :: rest) = form.find? (some c) rest := by
  rw [find?_cons]
  by_cases hplace : form.admits previous = true
  · rw [if_pos hplace]
    cases hvalue : (optionAt? form.name (c :: rest)).bind form.value? with
    | none => rw [Option.none_or]
    | some value => exact absurd (gives_nil_iff.mpr ⟨hplace, hvalue⟩) (h value)
  · rw [if_neg hplace]

/-- What the search finds is given, at the first of all places. -/
theorem givesFirst_of_find? (h : form.find? previous text = some value) :
    form.GivesFirst previous value text := by
  induction text generalizing previous with
  | nil => cases h
  | cons c rest ih =>
      by_cases hfront : ∃ found, form.Gives previous [] found (c :: rest)
      · obtain ⟨found, hfound⟩ := hfront
        rw [find?_of_gives_nil hfound, Option.some.injEq] at h
        exact ⟨[], h ▸ hfound, fun _ _ _ => Nat.zero_le _⟩
      · rw [not_exists] at hfront
        rw [find?_of_not_gives_nil hfront] at h
        obtain ⟨front, hgives, hfirst⟩ := ih h
        refine ⟨c :: front, gives_cons_iff.mpr ⟨rfl, hgives⟩, ?_⟩
        intro front' value' hother
        cases front' with
        | nil => exact absurd hother (hfront value')
        | cons d front' =>
            obtain ⟨rfl, hrest⟩ := gives_cons_iff.mp hother
            exact Nat.succ_le_succ (hfirst front' value' hrest)

/-- Where the search finds nothing, nothing is given. -/
theorem omits_of_find? (h : form.find? previous text = none) : form.Omits previous text := by
  induction text generalizing previous with
  | nil => exact fun _ _ => not_gives_nil_text
  | cons c rest ih =>
      by_cases hfront : ∃ found, form.Gives previous [] found (c :: rest)
      · obtain ⟨found, hfound⟩ := hfront
        rw [find?_of_gives_nil hfound] at h
        cases h
      · rw [not_exists] at hfront
        rw [find?_of_not_gives_nil hfront] at h
        intro front value hgives
        cases front with
        | nil => exact hfront value hgives
        | cons d front =>
            obtain ⟨rfl, hrest⟩ := gives_cons_iff.mp hgives
            exact ih h front value hrest

/-- At one place a text gives one value. -/
theorem Gives.value_eq {other : List Char} (h : form.Gives previous front value text)
    (hother : form.Gives previous front other text) : value = other := by
  induction front generalizing previous text with
  | nil =>
      have hvalue := (gives_nil_iff.mp h).2
      rw [(gives_nil_iff.mp hother).2, Option.some.injEq] at hvalue
      exact hvalue.symm
  | cons c front ih =>
      cases text with
      | nil => exact absurd h not_gives_nil_text
      | cons d rest => exact ih (gives_cons_iff.mp h).2 (gives_cons_iff.mp hother).2

theorem Gives.front_isPrefix (h : form.Gives previous front value text) : front <+: text := by
  cases h with
  | intro => exact List.prefix_append _ _

theorem find?_eq_some_iff :
    form.find? previous text = some value ↔ form.GivesFirst previous value text := by
  refine ⟨givesFirst_of_find?, ?_⟩
  rintro ⟨front, hgives, hfirst⟩
  cases hfind : form.find? previous text with
  | none => exact absurd hgives (omits_of_find? hfind front value)
  | some found =>
      obtain ⟨front', hgives', hfirst'⟩ := givesFirst_of_find? hfind
      -- both places are the first one
      have hlength := Nat.le_antisymm (hfirst front' found hgives') (hfirst' front value hgives)
      have hsame : front = front' := (List.prefix_of_prefix_length_le hgives.front_isPrefix
        hgives'.front_isPrefix hlength.le).eq_of_length hlength
      subst hsame
      rw [hgives.value_eq hgives']

theorem find?_eq_none_iff : form.find? previous text = none ↔ form.Omits previous text := by
  refine ⟨omits_of_find?, ?_⟩
  intro homits
  cases hfind : form.find? previous text with
  | none => rfl
  | some found =>
      obtain ⟨front, hgives, _⟩ := givesFirst_of_find? hfind
      exact absurd hgives (homits front found)

end OptionForm

/-! ## Options one after another -/

/-- Options one after another, each of them after a blank: the name, an equals sign that
blanks may surround, and the value. -/
inductive IsOptions : List (String × List Char) → List Char → Prop
  | nil : IsOptions [] []
  | cons {gap before after value rest : List Char} {name : String}
      {written : List (String × List Char)} (hgap : Blanks gap) (hnil : gap ≠ [])
      (hbefore : Blanks before) (hafter : Blanks after) (hrest : IsOptions written rest) :
      IsOptions ((name, value) :: written)
        (gap ++ (name.toList ++ (before ++ '=' :: (after ++ (value ++ rest)))))

section

variable {form : OptionForm} {previous : Option Char} {first : Char}
  {tail word rest text value : List Char} {name : String} {written : List (String × List Char)}

/-- The search passes over a text that lacks the first letter of the option's name. -/
theorem OptionForm.find?_append (hname : form.name.toList = first :: tail) (h : first ∉ word)
    (rest : List Char) :
    form.find? previous (word ++ rest) = form.find? (word.getLast?.or previous) rest := by
  induction word generalizing previous with
  | nil => rfl
  | cons c word ih =>
      rw [List.mem_cons, not_or] at h
      have hfront : ∀ value, ¬ form.Gives previous [] value (c :: (word ++ rest)) := by
        intro value hgives
        generalize htext : c :: (word ++ rest) = text at hgives
        cases hgives with
        | intro =>
            rw [hname, List.nil_append, List.cons_append, List.cons.injEq] at htext
            exact h.1 htext.1.symm
      rw [List.cons_append, OptionForm.find?_of_not_gives_nil hfront, ih h.2, List.getLast?_cons]
      cases word.getLast? <;> rfl

/-- A text that begins with an option has its value. -/
theorem OptionForm.find?_of_gives (hname : form.name.toList = first :: tail) {value : List Char}
    (h : form.Gives previous [] value (form.name.toList ++ rest)) :
    form.find? previous (form.name.toList ++ rest) = some value := by
  rw [hname, List.cons_append] at h ⊢
  exact OptionForm.find?_of_gives_nil h

theorem not_mem_of_blanks {gap : List Char} {c : Char} (h : Blanks gap) (hc : isBlank c = false) :
    c ∉ gap := by
  intro hmem
  rw [h c hmem] at hc
  cases hc

/-- Options begin with a blank, if there are any. -/
theorem IsOptions.isBlank_head (h : IsOptions written text) :
    ∀ c ∈ text.head?, isBlank c = true := by
  intro c hc
  cases h with
  | nil => cases hc
  | @cons gap _ _ _ _ _ _ hgap hnil _ _ _ =>
      obtain ⟨d, gap, rfl⟩ := List.exists_cons_of_ne_nil hnil
      cases hc
      exact hgap.head

/-- Among options one after another the search finds the one of its name, if no other
option holds the first letter of this name. -/
theorem IsOptions.find?_eq_lookup (h : IsOptions written text)
    (hname : form.name.toList = first :: tail) (hfirst : isBlank first = false ∧ first ≠ '=')
    (hown : ∀ value, (form.name, value) ∈ written →
      value ≠ [] ∧ ∀ c ∈ value, form.inValue c = true)
    (hother : ∀ name value, (name, value) ∈ written → name ≠ form.name →
      first ∉ name.toList ∧ first ∉ value) :
    form.find? previous text = written.lookup form.name := by
  induction h generalizing previous with
  | nil => rfl
  | @cons gap before after value rest name written hgap hnil hbefore hafter hrest ih =>
      obtain ⟨init, blank, rfl⟩ := List.eq_nil_or_concat gap |>.resolve_left hnil
      have hblank : isBlank blank = true := hgap blank (by simp)
      rw [OptionForm.find?_append hname (not_mem_of_blanks hgap hfirst.1), List.concat_eq_append,
        List.getLast?_append, List.getLast?_singleton, Option.some_or, Option.some_or,
        List.lookup_cons]
      by_cases hsame : name = form.name
      · subst hsame
        obtain ⟨hvalue, hrun⟩ := hown value List.mem_cons_self
        have hback : ∀ c ∈ rest.head?, form.inValue c = false := by
          intro c hc
          cases hinValue : form.inValue c with
          | false => rfl
          | true =>
              have hnone := form.isBlank_eq hinValue
              rw [hrest.isBlank_head c hc] at hnone
              cases hnone
        rw [beq_self_eq_true]
        exact OptionForm.find?_of_gives hname
          (OptionForm.gives_here (form.admits_blank hblank) hbefore hafter hvalue hrun hback)
      · obtain ⟨hinName, hinValue⟩ := hother name value List.mem_cons_self hsame
        have hskip : first ∉ name.toList ++ (before ++ '=' :: (after ++ value)) := by
          simp only [List.mem_append, List.mem_cons, not_or]
          exact ⟨hinName, not_mem_of_blanks hbefore hfirst.1, hfirst.2,
            not_mem_of_blanks hafter hfirst.1, hinValue⟩
        have hparts : name.toList ++ (before ++ '=' :: (after ++ (value ++ rest))) =
            (name.toList ++ (before ++ '=' :: (after ++ value))) ++ rest := by
          simp only [List.append_assoc, List.cons_append]
        rw [hparts, OptionForm.find?_append hname hskip, beq_false_of_ne (Ne.symm hsame)]
        apply ih
        · exact fun value hmem => hown value (List.mem_cons_of_mem _ hmem)
        · exact fun name value hmem => hother name value (List.mem_cons_of_mem _ hmem)

/-- The name of an option stands in its text. -/
theorem IsOptions.name_isInfix (h : IsOptions written text) (hmem : (name, value) ∈ written) :
    name.toList <:+: text := by
  induction h with
  | nil => cases hmem
  | @cons gap before after other rest option written _ _ _ _ _ ih =>
      rw [← List.append_assoc]
      rcases List.mem_cons.mp hmem with heq | hmem
      · cases heq
        exact ⟨gap, _, rfl⟩
      · have hrest : rest <:+ before ++ '=' :: (after ++ (other ++ rest)) :=
          ⟨before ++ '=' :: (after ++ other), by simp⟩
        exact (ih hmem).trans (hrest.trans (List.suffix_append _ _)).isInfix

/-- A text ends with the value of its only option. -/
theorem IsOptions.suffix_of_singleton (h : IsOptions [(name, value)] text) : value <:+ text := by
  cases h with
  | @cons gap before after _ _ _ _ _ _ _ _ hrest =>
      cases hrest
      exact ⟨gap ++ (name.toList ++ (before ++ '=' :: after)), by simp⟩

end

end LossyConsensus.Source
