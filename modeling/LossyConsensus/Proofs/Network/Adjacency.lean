/-
# Square matrices

What a walk through nested lists keeps: once some part did not agree with the
rest, this is never forgotten; and once an entry was met, all sizes are known.
So nested lists that pass as a square matrix have rows that are as long as there
are rows.
-/

import LossyConsensus.Network.Adjacency

namespace LossyConsensus.Network

/-! ## What a walk keeps -/

/-- What a walk below `level` lists keeps of what was known before it. -/
structure ShapeWalk.Keeps (level : Nat) (before after : ShapeWalk) : Prop where
  ragged : before.ragged = true → after.ragged = true
  depth : after.depth ≤ before.depth
  fixed : before.fixed = true → after.fixed = true ∧ after.sizes = before.sizes
  sizes : level ≤ before.sizes.length → level ≤ after.sizes.length ∧
    ∀ index < level, after.sizes[index]? = before.sizes[index]?

namespace ShapeWalk

variable {level size : Nat} {before between after : ShapeWalk}

theorem Keeps.refl (level : Nat) (walk : ShapeWalk) : Keeps level walk walk :=
  ⟨id, Nat.le_refl _, fun h => ⟨h, rfl⟩, fun h => ⟨h, fun _ _ => rfl⟩⟩

theorem Keeps.trans (h : Keeps level before between) (h' : Keeps level between after) :
    Keeps level before after where
  ragged hragged := h'.ragged (h.ragged hragged)
  depth := Nat.le_trans h'.depth h.depth
  fixed hfixed := by
    obtain ⟨hbetween, hsizes⟩ := h.fixed hfixed
    obtain ⟨hafter, hsizes'⟩ := h'.fixed hbetween
    exact ⟨hafter, hsizes'.trans hsizes⟩
  sizes hlength := by
    obtain ⟨hbetween, hkept⟩ := h.sizes hlength
    obtain ⟨hafter, hkept'⟩ := h'.sizes hbetween
    exact ⟨hafter, fun index hindex => (hkept' index hindex).trans (hkept index hindex)⟩

theorem keeps_meetEntry (level : Nat) (walk : ShapeWalk) :
    Keeps level walk (walk.meetEntry level) := by
  rw [meetEntry]
  split
  · exact ⟨fun _ => rfl, Nat.le_refl _, fun _ => ⟨rfl, rfl⟩, fun h => ⟨h, fun _ _ => rfl⟩⟩
  · split
    · exact ⟨id, Nat.le_refl _, fun _ => ⟨rfl, rfl⟩, fun h => ⟨h, fun _ _ => rfl⟩⟩
    · next hdeep hother =>
      refine ⟨?_, ?_, fun _ => ⟨rfl, rfl⟩, fun h => ⟨h, fun _ _ => rfl⟩⟩
      · intro hragged
        simp [hragged]
      · exact Nat.le_of_not_lt hdeep

/-- How a walk meets a list: too deep for what holds, while the sizes are open, with the
size that is known for its level, or with another one.  Only in the second and the third
case it agrees with the list. -/
inductive MeetsList (level size : Nat) (walk : ShapeWalk) : ShapeWalk × Bool → Prop
  | tooDeep (hdepth : walk.depth ≤ level) :
      MeetsList level size walk ({ walk with ragged := true }, false)
  | first (hdepth : level < walk.depth) (hopen : walk.fixed = false) :
      MeetsList level size walk ({ walk with sizes := walk.sizes.take level ++ [size] }, true)
  | same (hdepth : level < walk.depth) (hfixed : walk.fixed = true)
      (hsize : walk.sizes[level]? = some size) : MeetsList level size walk (walk, true)
  | other (hdepth : level < walk.depth) (hfixed : walk.fixed = true)
      (hsize : walk.sizes[level]? ≠ some size) :
      MeetsList level size walk ({ walk with depth := level, ragged := true }, false)

theorem meetsList (level size : Nat) (walk : ShapeWalk) :
    MeetsList level size walk (walk.meetList level size) := by
  rw [meetList]
  split
  · next hdepth => exact .tooDeep hdepth
  · next hdeep =>
    have hdepth := Nat.lt_of_not_le hdeep
    split
    · next hopen => exact .first hdepth (by simpa using hopen)
    · next hknown =>
      have hfixed : walk.fixed = true := by simpa using hknown
      split
      · next hsize => exact .same hdepth hfixed (beq_iff_eq.mp hsize)
      · next hsize => exact .other hdepth hfixed fun hsame => hsize (beq_iff_eq.mpr hsame)

namespace MeetsList

theorem keeps {met : ShapeWalk × Bool} (h : MeetsList level size before met) :
    Keeps level before met.1 := by
  cases h with
  | tooDeep => exact ⟨fun _ => rfl, Nat.le_refl _, fun h => ⟨h, rfl⟩, fun h => ⟨h, fun _ _ => rfl⟩⟩
  | first _ hopen =>
      refine ⟨id, Nat.le_refl _, ?_, fun hlength => ⟨by simp; omega, ?_⟩⟩
      · intro hfixed
        rw [hopen] at hfixed
        cases hfixed
      · intro index hindex
        rw [List.getElem?_append_left (by rw [List.length_take]; omega),
          List.getElem?_take_of_lt hindex]
  | same => exact Keeps.refl level before
  | other hdepth _ _ =>
      exact ⟨fun _ => rfl, Nat.le_of_lt hdepth, fun h => ⟨h, rfl⟩, fun h => ⟨h, fun _ _ => rfl⟩⟩

/-- A list is agreed upon only above the depth that holds. -/
theorem depth_lt (h : MeetsList level size before (after, true)) : level < after.depth := by
  cases h with
  | first hdepth _ => exact hdepth
  | same hdepth _ _ => exact hdepth

/-- A list that is agreed upon has the size that is known for its level from then on. -/
theorem size_eq (h : MeetsList level size before (after, true))
    (hlength : level ≤ before.sizes.length) : after.sizes[level]? = some size := by
  cases h with
  | first =>
      rw [List.getElem?_append_right (by rw [List.length_take]; omega), List.length_take,
        Nat.min_eq_left hlength, Nat.sub_self]
      rfl
  | same _ _ hsize => exact hsize

theorem ragged (h : MeetsList level size before (after, false)) : after.ragged = true := by
  cases h with
  | tooDeep => rfl
  | other => rfl

/-- What is kept at a level below a list that was agreed upon is kept at its
own. -/
theorem keeps_inner (h : MeetsList level size before (between, true))
    (hinner : Keeps (level + 1) between after) : Keeps level before after := by
  have houter : Keeps level before between := h.keeps
  refine ⟨fun hragged => hinner.ragged (houter.ragged hragged),
    Nat.le_trans hinner.depth houter.depth, ?_, ?_⟩
  · intro hfixed
    obtain ⟨hbetween, hsizes⟩ := houter.fixed hfixed
    obtain ⟨hafter, hsizes'⟩ := hinner.fixed hbetween
    exact ⟨hafter, hsizes'.trans hsizes⟩
  · intro hlength
    obtain ⟨hlt, _⟩ := List.getElem?_eq_some_iff.mp (h.size_eq hlength)
    obtain ⟨hafter, hkept'⟩ := hinner.sizes hlt
    obtain ⟨_, hkept⟩ := houter.sizes hlength
    exact ⟨by omega, fun index hindex => (hkept' index (by omega)).trans (hkept index hindex)⟩

end MeetsList

end ShapeWalk

namespace Adjacency

open ShapeWalk

/-- How a walk goes through a list: it stays outside one that it does not agree with; of
the others it meets the parts, or an end of the nesting if there are none. -/
inductive WalksList (level : Nat) (known : ShapeWalk) : List Adjacency → ShapeWalk → Prop
  | outside {parts : List Adjacency} {after : ShapeWalk}
      (hmeets : MeetsList level parts.length known (after, false)) : WalksList level known parts after
  | empty {between : ShapeWalk} (hmeets : MeetsList level 0 known (between, true)) :
      WalksList level known [] { between with depth := level + 1, fixed := true }
  | inside {part : Adjacency} {rest : List Adjacency} {between : ShapeWalk}
      (hmeets : MeetsList level (rest.length + 1) known (between, true)) :
      WalksList level known (part :: rest) (walkAll (level + 1) (part :: rest) between)

variable {level : Nat} {known after : ShapeWalk} {part : Adjacency} {parts rest : List Adjacency}

theorem walksList (level : Nat) (known : ShapeWalk) (parts : List Adjacency) :
    WalksList level known parts ((Adjacency.list parts).walk level known) := by
  have hmeets := meetsList level parts.length known
  cases parts with
  | nil =>
      rw [walk]
      cases hmet : known.meetList level 0 with
      | mk between agrees =>
          rw [List.length_nil, hmet] at hmeets
          cases agrees with
          | false => exact .outside hmeets
          | true => exact .empty hmeets
  | cons part rest =>
      rw [walk]
      cases hmet : known.meetList level (rest.length + 1) with
      | mk between agrees =>
          rw [List.length_cons, hmet] at hmeets
          cases agrees with
          | false => exact .outside hmeets
          | true => exact .inside hmeets

/-- A walk through a list keeps what it keeps through the parts. -/
theorem WalksList.keeps (h : WalksList level known parts after)
    (hparts : ∀ between, Keeps (level + 1) between (walkAll (level + 1) parts between)) :
    Keeps level known after := by
  cases h with
  | outside hmeets => exact hmeets.keeps
  | empty hmeets =>
      exact hmeets.keeps_inner ⟨id, hmeets.depth_lt, fun _ => ⟨rfl, rfl⟩,
        fun h => ⟨h, fun _ _ => rfl⟩⟩
  | inside hmeets => exact hmeets.keeps_inner (hparts _)

mutual

theorem keeps_walk (level : Nat) : ∀ (part : Adjacency) (known : ShapeWalk),
    Keeps level known (part.walk level known)
  | .entry _, known => keeps_meetEntry level known
  | .list parts, known =>
      (walksList level known parts).keeps fun between => keeps_walkAll (level + 1) parts between

theorem keeps_walkAll (level : Nat) : ∀ (parts : List Adjacency) (known : ShapeWalk),
    Keeps level known (walkAll level parts known)
  | [], known => Keeps.refl level known
  | part :: rest, known =>
      (keeps_walk level part known).trans (keeps_walkAll level rest (part.walk level known))

end

/-- What disagrees with one of several parts is not forgotten with the others. -/
theorem ragged_walk_of_walkAll (h : (walkAll level (part :: rest) known).ragged = false) :
    (part.walk level known).ragged = false := by
  rw [← Bool.not_eq_true]
  intro hragged
  have hkept := (keeps_walkAll level rest (part.walk level known)).ragged hragged
  rw [← walkAll, h] at hkept
  cases hkept

theorem WalksList.fixed (h : WalksList level known parts after)
    (hparts : parts ≠ [] → ∀ between, (walkAll (level + 1) parts between).ragged = false →
      (walkAll (level + 1) parts between).fixed = true)
    (hagreed : after.ragged = false) : after.fixed = true := by
  cases h with
  | outside hmeets =>
      rw [hmeets.ragged] at hagreed
      cases hagreed
  | empty => rfl
  | inside => exact hparts (List.cons_ne_nil _ _) _ hagreed

mutual

/-- A walk that has agreed with all it met has met an end of the nesting. -/
theorem fixed_walk (level : Nat) : ∀ (part : Adjacency) (known : ShapeWalk),
    (part.walk level known).ragged = false → (part.walk level known).fixed = true
  | .entry _, known, _ => by
      rw [walk, meetEntry]
      split
      · rfl
      · split
        · rfl
        · rfl
  | .list parts, known, h =>
      (walksList level known parts).fixed
        (fun hsome between => fixed_walkAll (level + 1) parts between hsome) h

theorem fixed_walkAll (level : Nat) : ∀ (parts : List Adjacency) (known : ShapeWalk), parts ≠ [] →
    (walkAll level parts known).ragged = false → (walkAll level parts known).fixed = true
  | [], _, hsome, _ => absurd rfl hsome
  | part :: rest, known, _, h =>
      ((keeps_walkAll level rest (part.walk level known)).fixed
        (fixed_walk level part known (ragged_walk_of_walkAll h))).1

end

/-- A list that a walk has agreed with has the size that the walk knows for its
level. -/
theorem WalksList.size_eq (h : WalksList level known parts after)
    (hlength : level ≤ known.sizes.length) (hagreed : after.ragged = false) :
    after.sizes[level]? = some parts.length := by
  cases h with
  | outside hmeets =>
      rw [hmeets.ragged] at hagreed
      cases hagreed
  | empty hmeets => exact hmeets.size_eq hlength
  | inside hmeets =>
      have hsize := hmeets.size_eq hlength
      obtain ⟨hlt, _⟩ := List.getElem?_eq_some_iff.mp hsize
      rw [((keeps_walkAll (level + 1) _ _).sizes hlt).2 level (Nat.lt_succ_self level), hsize]
      rfl

/-- After an entry no list as deep as it can be agreed upon. -/
theorem depth_walk_entry (edge : Bool)
    (h : ((Adjacency.entry edge).walk level known).ragged = false) :
    ((Adjacency.entry edge).walk level known).depth ≤ level := by
  rw [walk, meetEntry] at h ⊢
  split at h
  · cases h
  · next hdeep =>
    rw [if_neg hdeep]
    split at h
    · next heq =>
      rw [if_pos heq]
      exact Nat.le_of_eq (beq_iff_eq.mp heq)
    · next hne =>
      simp only [if_neg hne, Nat.le_refl]

/-- Parts that a walk has agreed with, and that are not nested too little, are
lists of one size. -/
theorem length_parts_of_walkAll (hlength : level ≤ known.sizes.length)
    (hragged : (walkAll level parts known).ragged = false)
    (hdepth : level < (walkAll level parts known).depth) :
    ∀ part ∈ parts, (walkAll level parts known).sizes[level]? = some part.parts.length := by
  induction parts generalizing known with
  | nil => simp
  | cons part rest ih =>
      rw [walkAll] at hragged hdepth ⊢
      have hpart := keeps_walk level part known
      have hrest := keeps_walkAll level rest (part.walk level known)
      have hagreed : (part.walk level known).ragged = false := ragged_walk_of_walkAll hragged
      intro other hother
      rcases List.mem_cons.mp hother with rfl | hother
      · rw [(hrest.fixed (fixed_walk level _ known hagreed)).2]
        cases other with
        | entry edge =>
            have hshallow := depth_walk_entry edge hagreed
            have := hrest.depth
            omega
        | list cells => exact (walksList level known cells).size_eq hlength hagreed
      · exact ih (hpart.sizes hlength).1 hragged hdepth other hother

/-- The rows of a square matrix are as long as there are rows. -/
theorem length_of_mem_square {matrix : Adjacency} {rows : List (List Bool)}
    (h : matrix.square = .ok rows) : ∀ row ∈ rows, row.length = rows.length := by
  rw [square] at h
  split at h
  · cases h
  · next hragged =>
    split at h
    · next height width hshape =>
      split at h
      · next heq =>
        obtain rfl := Except.ok.inj h
        intro row hrow
        obtain ⟨part, hpart, rfl⟩ := List.mem_map.mp hrow
        rcases matrix with edge | _ | ⟨first, rest⟩
        · cases hpart
        · cases hpart
        · let known : ShapeWalk := ⟨[rest.length + 1], maxNesting, false, false⟩
          have hwalk : (Adjacency.list (first :: rest)).walk 0 .start =
              walkAll 1 (first :: rest) known := rfl
          rw [hwalk, Bool.not_eq_true] at hragged
          rw [hwalk, shape] at hshape
          have htaken := congrArg List.length hshape
          rw [List.length_take, List.length_cons, List.length_singleton] at htaken
          have hat : ∀ index < 2, (walkAll 1 (first :: rest) known).sizes[index]? =
              [height, width][index]? := by
            intro index hindex
            rw [← hshape, List.getElem?_take_of_lt (by omega)]
          have hheight := (keeps_walkAll 1 (first :: rest) known).sizes (Nat.le_refl 1)
          have hfirst : height = rest.length + 1 := by
            have hkept := hheight.2 0 (by omega)
            rw [hat 0 (by omega)] at hkept
            exact Option.some.inj hkept
          have hsecond : width = part.parts.length := by
            have hsize := length_parts_of_walkAll (Nat.le_refl 1) hragged (by omega) part hpart
            rw [hat 1 (by omega)] at hsize
            exact Option.some.inj hsize
          rw [List.length_map, ← hsecond, rows, List.length_map, parts, List.length_cons,
            ← hfirst]
          exact (beq_iff_eq.mp heq).symm
      · cases h
    · cases h

end Adjacency

end LossyConsensus.Network
