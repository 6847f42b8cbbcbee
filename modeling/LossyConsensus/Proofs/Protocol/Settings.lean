/-
# Declared names

The names that rules may use are those of all settings but the reserved ones.
Setting a number keeps every such name a number, and setting a reserved name
changes none of them.
-/

import LossyConsensus.Proofs.Protocol.Scope
import LossyConsensus.Protocol.Declaration

namespace LossyConsensus.Protocol

namespace Settings

variable {R S : Type}

/-- Each name that rules may use is set to a number. -/
def AreNumbers (settings : Settings R) : Prop :=
  ∀ name ∈ declared settings, ∃ value, (name, Setting.real value) ∈ settings

theorem mem_declared {settings : Settings R} {name : String} :
    name ∈ declared settings ↔ name ∈ settings.map (·.1) ∧ isReserved name = false := by
  rw [declared, List.mem_filter, Bool.not_eq_true']

/-! ## Setting a value -/

theorem mem_set_self (settings : Settings R) (name : String) (value : Setting R) :
    (name, value) ∈ set settings name value := by
  induction settings with
  | nil => exact List.mem_singleton_self _
  | cons entry rest ih =>
      obtain ⟨other, old⟩ := entry
      rw [set]
      split
      · next heq =>
        obtain rfl := beq_iff_eq.mp heq
        exact List.mem_cons_self
      · exact List.mem_cons_of_mem _ ih

theorem mem_set_of_ne {settings : Settings R} {name other : String} (hne : other ≠ name)
    (value : Setting R) {old : Setting R} (h : (other, old) ∈ settings) :
    (other, old) ∈ set settings name value := by
  induction settings with
  | nil => cases h
  | cons entry rest ih =>
      obtain ⟨first, firstValue⟩ := entry
      rw [set]
      rcases List.mem_cons.mp h with heq | hrest
      · cases heq
        rw [if_neg (by simpa using hne)]
        exact List.mem_cons_self
      · split
        · exact List.mem_cons_of_mem _ hrest
        · exact List.mem_cons_of_mem _ (ih hrest)

theorem mem_names_set {settings : Settings R} {name other : String} {value : Setting R} :
    other ∈ (set settings name value).map (·.1) ↔
      other = name ∨ other ∈ settings.map (·.1) := by
  induction settings with
  | nil => simp [set]
  | cons entry rest ih =>
      obtain ⟨first, firstValue⟩ := entry
      rw [set]
      split
      · next heq =>
        obtain rfl := beq_iff_eq.mp heq
        simp
      · rw [List.map_cons, List.mem_cons, ih, List.map_cons, List.mem_cons]
        exact or_left_comm

/-- Setting a reserved name declares nothing. -/
theorem declared_set_of_isReserved {name : String} (hreserved : isReserved name = true)
    (settings : Settings R) (value : Setting R) :
    declared (set settings name value) = declared settings := by
  induction settings with
  | nil => exact List.filter_cons_of_neg (by simp [hreserved])
  | cons entry rest ih =>
      obtain ⟨first, firstValue⟩ := entry
      rw [set]
      split
      · rfl
      · rw [declared, declared, List.map_cons, List.map_cons, List.filter_cons, List.filter_cons,
          ← declared, ← declared, ih]

/-- A number may be set under any name, and anything under a reserved one. -/
theorem AreNumbers.set {settings : Settings R} (h : AreNumbers settings) {name : String}
    {value : Setting R} (hvalue : isReserved name = true ∨ ∃ number, value = .real number) :
    AreNumbers (set settings name value) := by
  intro other hother
  obtain ⟨hmem, hopen⟩ := mem_declared.mp hother
  by_cases heq : other = name
  · subst heq
    rcases hvalue with hreserved | ⟨number, rfl⟩
    · rw [hreserved] at hopen
      cases hopen
    · exact ⟨number, mem_set_self settings other _⟩
  · have hold : other ∈ settings.map (·.1) := (mem_names_set.mp hmem).resolve_left heq
    obtain ⟨number, hnumber⟩ := h other (mem_declared.mpr ⟨hold, hopen⟩)
    exact ⟨number, mem_set_of_ne heq value hnumber⟩

/-! ## Looking a name up -/

theorem get?_cons (first : String) (value : Setting R) (rest : Settings R) (name : String) :
    get? ((first, value) :: rest) name = if name = first then some value else get? rest name := by
  rw [get?, List.lookup_cons]
  by_cases h : name = first
  · rw [if_pos h, beq_iff_eq.mpr h]
  · rw [if_neg h, beq_false_of_ne h, get?]

theorem get?_set (settings : Settings R) (name : String) (value : Setting R) (other : String) :
    get? (set settings name value) other =
      if other = name then some value else get? settings other := by
  induction settings with
  | nil => exact get?_cons name value [] other
  | cons entry rest ih =>
      obtain ⟨first, old⟩ := entry
      rw [set]
      by_cases hfirst : first = name
      · subst hfirst
        rw [if_pos (beq_self_eq_true first), get?_cons, get?_cons]
        by_cases hother : other = first
        · rw [if_pos hother, if_pos hother]
        · rw [if_neg hother, if_neg hother, if_neg hother]
      · rw [if_neg (by simpa using hfirst), get?_cons, get?_cons, ih]
        by_cases hother : other = first
        · rw [if_pos hother, if_pos hother, if_neg fun h => hfirst (hother.symm.trans h)]
        · rw [if_neg hother, if_neg hother]

/-- Settings that give every name the same value, in whatever order the names
were first given. -/
def Same (settings settings' : Settings R) : Prop :=
  ∀ name, get? settings name = get? settings' name

theorem Same.set {settings settings' : Settings R} (h : Same settings settings') (name : String)
    (value : Setting R) : Same (Settings.set settings name value)
      (Settings.set settings' name value) := by
  intro other
  rw [get?_set, get?_set, h other]

/-- Two different names may be set in either order. -/
theorem same_set_set {name other : String} (hne : name ≠ other) (settings : Settings R)
    (value value' : Setting R) :
    Same (set (set settings name value) other value')
      (set (set settings other value') name value) := by
  intro third
  simp only [get?_set]
  by_cases hthird : third = other
  · rw [if_pos hthird, if_pos hthird, if_neg fun h => hne (h.symm.trans hthird)]
  · rw [if_neg hthird, if_neg hthird]

/-- A setting that is a number is found by its name. -/
theorem isSome_lookup_numbers [Scalar S] {settings : Settings R} {name : String} {value : R}
    (h : (name, Setting.real value) ∈ settings) (f : R → S) :
    ((numbers (settings.map fun (name, setting) => (name, setting.map f))).lookup name).isSome =
      true := by
  have hmem : (name, f value) ∈
      numbers (settings.map fun (name, setting) => (name, setting.map f)) :=
    List.mem_filterMap.mpr ⟨(name, .real (f value)), List.mem_map.mpr ⟨_, h, rfl⟩, rfl⟩
  rw [Option.isSome_iff_ne_none]
  intro hnone
  rw [List.lookup_eq_none_iff] at hnone
  exact bne_iff_ne.mp (hnone _ hmem) rfl

end Settings

end LossyConsensus.Protocol
