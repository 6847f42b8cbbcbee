/-
# Computations that may fail

What it means that a computation made of several fallible ones succeeds, and
which part is to blame when it does not.  Every later proof that opens a reader
or a round of a run cites these equivalences and unfolds no bind of its own.
-/

import Mathlib.Data.List.Forall2

namespace LossyConsensus

variable {ε δ : Type} {α β : Type}

@[simp]
theorem ok_bind (value : α) (next : α → Except ε β) : (Except.ok value >>= next) = next value :=
  rfl

/-- A sequence of two computations succeeds if both of them do. -/
theorem bind_eq_ok {first : Except ε α} {next : α → Except ε β} {result : β} :
    (first >>= next) = .ok result ↔ ∃ value, first = .ok value ∧ next value = .ok result := by
  cases first with
  | error fault => simp [bind, Except.bind]
  | ok value => simp [bind, Except.bind]

/-- A sequence of two computations fails with the fault of the first one, or
with that of the second one after the first has succeeded. -/
theorem bind_eq_error {first : Except ε α} {next : α → Except ε β} {fault : ε} :
    (first >>= next) = .error fault ↔
      first = .error fault ∨ ∃ value, first = .ok value ∧ next value = .error fault := by
  cases first with
  | error other => simp [bind, Except.bind]
  | ok value => simp [bind, Except.bind]

theorem pure_eq_ok {value result : α} :
    (pure value : Except ε α) = .ok result ↔ value = result := by
  simp [pure, Except.pure]

theorem pure_ne_error {value : α} {fault : ε} : (pure value : Except ε α) ≠ .error fault := by
  simp [pure, Except.pure]

/-- What is refused in one case succeeds in the others. -/
theorem guarded_eq_ok {refused : Prop} [Decidable refused] {fault : ε} {computation : Except ε α}
    {result : α} : (if refused then .error fault else computation) = .ok result ↔
      ¬ refused ∧ computation = .ok result := by
  by_cases hrefused : refused
  · simp [hrefused]
  · simp [hrefused]

theorem mapError_eq_ok {translate : ε → δ} {computation : Except ε α} {result : α} :
    computation.mapError translate = .ok result ↔ computation = .ok result := by
  cases computation <;> simp [Except.mapError]

theorem mapError_eq_error {translate : ε → δ} {computation : Except ε α} {fault : δ} :
    computation.mapError translate = .error fault ↔
      ∃ inner, computation = .error inner ∧ translate inner = fault := by
  cases computation <;> simp [Except.mapError]

theorem map_eq_ok {change : α → β} {computation : Except ε α} {result : β} :
    computation.map change = .ok result ↔
      ∃ value, computation = .ok value ∧ change value = result := by
  cases computation <;> simp [Except.map]

theorem map_eq_error {change : α → β} {computation : Except ε α} {fault : ε} :
    computation.map change = .error fault ↔ computation = .error fault := by
  cases computation <;> simp [Except.map]

theorem map_eq_map {γ : Type} {change : α → γ} {change' : β → γ} {first : Except ε α}
    {second : Except ε β} :
    first.map change = second.map change' ↔
      (∃ fault, first = .error fault ∧ second = .error fault) ∨
        ∃ value value', first = .ok value ∧ second = .ok value' ∧
          change value = change' value' := by
  cases first <;> cases second <;> simp [Except.map, eq_comm]

/-- Two sequences of computations come to the same, as far as one looks at it, if their
first parts do and after them their second parts. -/
theorem map_bind_congr {γ κ ι : Type} {first : Except ε α} {second : Except ε β}
    {next : α → Except ε δ} {next' : β → Except ε κ} {before : α → γ} {before' : β → γ}
    {after : δ → ι} {after' : κ → ι} (hfirst : first.map before = second.map before')
    (hnext : ∀ value value', first = .ok value → second = .ok value' →
      before value = before' value' → (next value).map after = (next' value').map after') :
    (first >>= next).map after = (second >>= next').map after' := by
  rcases map_eq_map.mp hfirst with ⟨fault, rfl, rfl⟩ | ⟨value, value', rfl, rfl, h⟩
  · rfl
  · exact hnext value value' rfl rfl h

/-- In particular they do after the same first part. -/
theorem map_bind_congr_right {κ ι : Type} {first : Except ε α} {next : α → Except ε δ}
    {next' : α → Except ε κ} {after : δ → ι} {after' : κ → ι}
    (hnext : ∀ value, first = .ok value → (next value).map after = (next' value).map after') :
    (first >>= next).map after = (first >>= next').map after' := by
  refine map_bind_congr (congrArg (Except.map id) (Eq.refl first)) ?_
  rintro value _ hvalue _ rfl
  exact hnext value hvalue

/-- A computation that is found to succeed has a result. -/
theorem exists_eq_ok {computation : Except ε α} (h : computation.isOk = true) :
    ∃ result, computation = .ok result := by
  cases computation with
  | error fault => cases h
  | ok result => exact ⟨result, rfl⟩

/-- A computation over all items of a list succeeds if it does for each of
them; its results stand in the order of the items. -/
theorem mapM_eq_ok {compute : α → Except ε β} {items : List α} {results : List β} :
    items.mapM compute = .ok results ↔
      List.Forall₂ (fun item result => compute item = .ok result) items results := by
  induction items generalizing results with
  | nil =>
      rw [List.mapM_nil, pure_eq_ok, List.forall₂_nil_left_iff]
      exact eq_comm
  | cons item items ih =>
      rw [List.mapM_cons, bind_eq_ok, List.forall₂_cons_left_iff]
      constructor
      · rintro ⟨result, hresult, hrest⟩
        obtain ⟨rest, hrest, hdone⟩ := bind_eq_ok.mp hrest
        exact ⟨result, rest, hresult, ih.mp hrest, (pure_eq_ok.mp hdone).symm⟩
      · rintro ⟨result, rest, hresult, hrest, rfl⟩
        exact ⟨result, hresult, bind_eq_ok.mpr ⟨rest, ih.mpr hrest, rfl⟩⟩

/-- A computation over all items of a list succeeds if it does for each one. -/
theorem exists_mapM_eq_ok {compute : α → Except ε β} {items : List α}
    (h : ∀ item ∈ items, ∃ result, compute item = .ok result) :
    ∃ results, items.mapM compute = .ok results := by
  induction items with
  | nil => exact ⟨[], rfl⟩
  | cons item items ih =>
      obtain ⟨result, hresult⟩ := h item List.mem_cons_self
      obtain ⟨results, hresults⟩ := ih fun other hother => h other (List.mem_cons_of_mem _ hother)
      refine ⟨result :: results, ?_⟩
      rw [List.mapM_cons, hresult, hresults]
      rfl

/-- A list can be filtered if the test succeeds for each item. -/
theorem exists_filterM_eq_ok {test : α → Except ε Bool} {items : List α}
    (h : ∀ item ∈ items, ∃ result, test item = .ok result) :
    ∃ kept, items.filterM test = .ok kept := by
  have hfrom : ∀ (items kept : List α), (∀ item ∈ items, ∃ result, test item = .ok result) →
      ∃ kept', items.filterAuxM test kept = .ok kept' := by
    intro items
    induction items with
    | nil => exact fun kept _ => ⟨kept, rfl⟩
    | cons item items ih =>
        intro kept h
        obtain ⟨result, hresult⟩ := h item List.mem_cons_self
        rw [List.filterAuxM, hresult]
        exact ih _ fun other hother => h other (List.mem_cons_of_mem _ hother)
  obtain ⟨kept, hkept⟩ := hfrom items [] h
  refine ⟨kept.reverse, ?_⟩
  rw [List.filterM, hkept]
  rfl

/-- A computation over all items of a list that succeeds does so for each one. -/
theorem exists_of_mapM_eq_ok {compute : α → Except ε β} {items : List α} {results : List β}
    (h : items.mapM compute = .ok results) {item : α} (hmem : item ∈ items) :
    ∃ result, compute item = .ok result := by
  rw [mapM_eq_ok] at h
  obtain ⟨index, hindex, rfl⟩ := List.mem_iff_getElem.mp hmem
  exact ⟨_, (List.forall₂_iff_get.mp h).2 index hindex (h.length_eq ▸ hindex)⟩

/-- A computation that never fails on the items of a list maps them. -/
theorem mapM_eq_ok_map {compute : α → Except ε β} {change : α → β} {items : List α}
    (h : ∀ item ∈ items, compute item = .ok (change item)) :
    items.mapM compute = .ok (items.map change) := by
  rw [mapM_eq_ok, List.forall₂_map_right_iff, List.forall₂_same]
  exact h

/-- Two computations over related items have related results if they have for each
two of them. -/
theorem forall₂_of_mapM {γ κ : Type} {compute : α → Except ε β} {compute' : γ → Except ε κ}
    {related : α → γ → Prop} {alike : β → κ → Prop} {items : List α} {others : List γ}
    {results : List β} {results' : List κ} (hitems : List.Forall₂ related items others)
    (h : items.mapM compute = .ok results) (h' : others.mapM compute' = .ok results')
    (halike : ∀ item other result result', related item other → compute item = .ok result →
      compute' other = .ok result' → alike result result') :
    List.Forall₂ alike results results' := by
  rw [mapM_eq_ok] at h h'
  induction hitems generalizing results results' with
  | nil =>
      cases h
      cases h'
      exact .nil
  | cons hfirst _ ih =>
      cases h with
      | cons hresult hrest =>
          cases h' with
          | cons hresult' hrest' =>
              exact .cons (halike _ _ _ _ hfirst hresult hresult') (ih hrest hrest')

/-- A computation over all items of a list fails only with the fault of one of
them. -/
theorem exists_mem_of_mapM_eq_error {compute : α → Except ε β} {items : List α} {fault : ε}
    (h : items.mapM compute = .error fault) : ∃ item ∈ items, compute item = .error fault := by
  induction items with
  | nil =>
      rw [List.mapM_nil] at h
      exact absurd h pure_ne_error
  | cons item items ih =>
      rw [List.mapM_cons, bind_eq_error] at h
      rcases h with h | ⟨result, _, h⟩
      · exact ⟨item, List.mem_cons_self, h⟩
      · rcases bind_eq_error.mp h with h | ⟨_, _, h⟩
        · obtain ⟨other, hmem, hother⟩ := ih h
          exact ⟨other, List.mem_cons_of_mem _ hmem, hother⟩
        · exact absurd h pure_ne_error

/-- A table made by a computation over its keys gives for each key what the
computation gives for it. -/
theorem lookup_of_mapM_eq_ok [BEq α] [LawfulBEq α] {compute : α → Except ε β} {keys : List α}
    {table : List (α × β)}
    (h : keys.mapM (fun key => do return (key, ← compute key)) = .ok table) {key : α}
    (hmem : key ∈ keys) : ∃ value, compute key = .ok value ∧ table.lookup key = some value := by
  rw [mapM_eq_ok] at h
  induction h with
  | nil => cases hmem
  | cons hfirst _ ih =>
      rename_i first entry keys table _
      obtain ⟨value, hvalue, hentry⟩ := bind_eq_ok.mp hfirst
      obtain rfl := pure_eq_ok.mp hentry
      rw [List.lookup_cons]
      by_cases heq : key = first
      · subst heq
        exact ⟨value, hvalue, by rw [beq_self_eq_true]⟩
      · rw [beq_false_of_ne heq]
        rcases List.mem_cons.mp hmem with rfl | hmem
        · exact absurd rfl heq
        · exact ih hmem

/-- What holds at the start and after each step holds at the end. -/
theorem foldlM_induction {motive : β → Prop} {step : β → α → Except ε β}
    (hstep : ∀ value item next, motive value → step value item = .ok next → motive next)
    {items : List α} {start result : β} (hstart : motive start)
    (h : items.foldlM step start = .ok result) : motive result := by
  induction items generalizing start with
  | nil =>
      rw [List.foldlM_nil] at h
      exact pure_eq_ok.mp h ▸ hstart
  | cons item items ih =>
      rw [List.foldlM_cons] at h
      obtain ⟨next, hnext, hrest⟩ := bind_eq_ok.mp h
      exact ih (hstep start item next hstart hnext) hrest

end LossyConsensus
