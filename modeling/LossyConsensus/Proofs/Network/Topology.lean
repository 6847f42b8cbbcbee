/-
# Diameters of topologies

Which processes a topology links, and how far apart they are at most.  The
complete graph, the ring, the star and the grid state their diameters as
formulas; for each of them the steps between two processes are a formula too,
which some edge lowers and no edge raises by more than one.  The other topologies
search for theirs.
-/

import LossyConsensus.Network.Topology
import LossyConsensus.Proofs.Network.Adjacency
import LossyConsensus.Proofs.Network.Delivery
import LossyConsensus.Proofs.Network.Search
import Mathlib.Tactic.Ring

namespace LossyConsensus.Network

namespace Topology

variable {R : Type} [Scalar R]

/-- A topology as it can be made. -/
inductive IsMade : Topology R → Prop
  | complete : IsMade .complete
  | ring : IsMade .ring
  | star : IsMade .star
  | grid {rows cols : Int} {topology : Topology R} (h : ofGrid rows cols = .ok topology) :
      IsMade topology
  | random {probability : R} {seed : Int} {topology : Topology R}
      (h : ofRandom probability seed = .ok topology) : IsMade topology
  | circulant {degree : Int} {topology : Topology R} (h : ofCirculant degree = .ok topology) :
      IsMade topology
  | bipartite {left right : Int} {topology : Topology R}
      (h : ofBipartite left right = .ok topology) : IsMade topology
  | custom {matrix : Adjacency} {topology : Topology R} (h : ofAdjacency matrix = .ok topology) :
      IsMade topology

/-- Whether a topology gives neighbours to each of `count` processes. -/
def Fits (topology : Topology R) (count : Nat) : Prop :=
  ∀ node ∈ processIds count, ∃ ids, topology.neighbors node count = .ok ids

/-- The edges of a topology over `count` processes. -/
def Edge (topology : Topology R) (count : Nat) : Int → Int → Prop :=
  Links fun node => topology.neighbors node count

variable {topology : Topology R} {count : Nat} {node next : Int}

theorem edge_iff {ids : List Int} (h : topology.neighbors node count = .ok ids) :
    topology.Edge count node next ↔ next ∈ ids := by
  constructor
  · rintro ⟨ids', hids, hmem⟩
    obtain rfl : ids = ids' := Except.ok.inj (h.symm.trans hids)
    exact hmem
  · exact fun hmem => ⟨ids, h, hmem⟩

theorem exists_of_edge (h : topology.Edge count node next) :
    ∃ ids, topology.neighbors node count = .ok ids ∧ next ∈ ids :=
  h

theorem mem_idsFrom {first last id : Int} : id ∈ idsFrom first last ↔ first ≤ id ∧ id ≤ last := by
  rw [idsFrom, List.mem_map]
  constructor
  · rintro ⟨k, hk, rfl⟩
    have := List.mem_range.mp hk
    omega
  · rintro ⟨hlow, hhigh⟩
    exact ⟨(id - first).toNat, List.mem_range.mpr (by omega), by omega⟩

/-! ## Complete graphs -/

theorem edge_complete_iff : (complete : Topology R).Edge count node next ↔
    next ∈ processIds count ∧ next ≠ node := by
  rw [edge_iff (neighbors.eq_1 node count), List.mem_filter, mem_idsFrom, mem_processIds,
    bne_iff_ne]

theorem countsSteps_complete : CountsSteps ((complete : Topology R).Edge count) count
    fun goal node => if node = goal then 0 else 1 := by
  constructor
  case self =>
    intro goal
    exact if_pos rfl
  case closer =>
    intro goal hgoal node _ hne
    refine ⟨goal, hgoal, edge_complete_iff.mpr ⟨hgoal, hne.symm⟩, ?_⟩
    rw [if_pos rfl, if_neg hne]
    exact Nat.one_pos
  case rises =>
    intro goal _ node _ next hedge
    refine ⟨(edge_complete_iff.mp hedge).1, ?_⟩
    split_ifs <;> omega

theorem isDiameter_complete (hcount : 0 < count) :
    IsDiameter ((complete : Topology R).Edge count) count (if 1 < count then 1 else 0) := by
  have hfirst : (1 : Int) ∈ processIds count := mem_processIds.mpr (by omega)
  have hlast : (if 1 < count then 2 else 1 : Int) ∈ processIds count := by
    rw [mem_processIds]
    split_ifs <;> omega
  refine countsSteps_complete.isDiameter ?_ hfirst hlast ?_
  · intro goal hgoal node hnode
    rw [mem_processIds] at hgoal hnode
    split_ifs <;> omega
  · split_ifs <;> omega

/-! ## Stars -/

theorem edge_star_iff : (star : Topology R).Edge count node next ↔
    if node = 1 then 2 ≤ next ∧ next ≤ count else next = 1 := by
  rw [edge_iff (neighbors.eq_3 node count)]
  by_cases hnode : node = 1
  · rw [if_pos (by simpa using hnode), if_pos hnode, mem_idsFrom]
  · rw [if_neg (by simpa using hnode), if_neg hnode, List.mem_singleton]

/-- All ways lead to the centre and from there to the goal. -/
theorem countsSteps_star : CountsSteps ((star : Topology R).Edge count) count fun goal node =>
    if node = goal then 0 else if node = 1 ∨ goal = 1 then 1 else 2 := by
  constructor
  case self =>
    intro goal
    exact if_pos rfl
  case closer =>
    intro goal hgoal node hnode hne
    by_cases hcentre : node = 1
    · have hedge : (star : Topology R).Edge count node goal := by
        rw [edge_star_iff, if_pos hcentre]
        rw [mem_processIds] at hgoal
        omega
      refine ⟨goal, hgoal, hedge, ?_⟩
      rw [if_pos rfl, if_neg hne, if_pos (.inl hcentre)]
      exact Nat.one_pos
    · have hedge : (star : Topology R).Edge count node 1 := by
        rw [edge_star_iff, if_neg hcentre]
      have hone : (1 : Int) ∈ processIds count := by
        rw [mem_processIds] at hnode ⊢
        omega
      refine ⟨1, hone, hedge, ?_⟩
      split_ifs <;> omega
  case rises =>
    intro goal hgoal node hnode next hedge
    rw [edge_star_iff] at hedge
    rw [mem_processIds] at hgoal hnode ⊢
    refine ⟨?_, ?_⟩
    · split_ifs at hedge <;> omega
    · split_ifs at hedge ⊢ <;> omega

theorem isDiameter_star (hcount : 0 < count) :
    IsDiameter ((star : Topology R).Edge count) count (min (count - 1) 2) := by
  -- The centre is one of the two ends only where there are at most two nodes.
  have hfirst : (min count 2 : Int) ∈ processIds count := mem_processIds.mpr (by omega)
  have hlast : (if count ≤ 2 then 1 else 3 : Int) ∈ processIds count := by
    rw [mem_processIds]
    split_ifs <;> omega
  refine countsSteps_star.isDiameter ?_ hfirst hlast ?_
  · intro goal hgoal node hnode
    rw [mem_processIds] at hgoal hnode
    split_ifs <;> omega
  · split_ifs <;> omega

/-! ## Rings -/

theorem edge_ring_iff (hnode : node ∈ processIds count) :
    (ring : Topology R).Edge count node next ↔ count ≠ 1 ∧
      (next = (if node = 1 then (count : Int) else node - 1) ∨
        next = if node = count then 1 else node + 1) := by
  by_cases hsingle : count = 1
  · subst hsingle
    have hnone : (ring : Topology R).neighbors node ((1 : Nat) : Int) = .ok [] := rfl
    simp [edge_iff hnone]
  · have hsome : (ring : Topology R).neighbors node count =
        .ok (asSet [if node == 1 then (count : Int) else node - 1,
          if node == (count : Int) then 1 else node + 1]) := by
      rw [neighbors]
      exact if_neg (by simp; omega)
    rw [edge_iff hsome, mem_asSet]
    simp [hsingle]

/-- The steps from a node of a ring to a goal, the shorter way round. -/
def stepsRound (count : Nat) (goal node : Int) : Nat :=
  let ahead := if node ≤ goal then goal - node else goal - node + count
  (min ahead (count - ahead)).toNat

theorem countsSteps_ring :
    CountsSteps ((ring : Topology R).Edge count) count (stepsRound count) := by
  constructor
  case self =>
    intro goal
    simp only [stepsRound]
    split_ifs <;> omega
  case closer =>
    intro goal hgoal node hnode hne
    have hbounds := mem_processIds.mp hnode
    rw [mem_processIds] at hgoal
    by_cases hahead : (if node ≤ goal then goal - node else goal - node + count) * 2 ≤ count
    · refine ⟨if node = count then 1 else node + 1, ?_,
        (edge_ring_iff hnode).mpr ⟨by omega, .inr rfl⟩, ?_⟩
      · rw [mem_processIds]
        split_ifs <;> omega
      · simp only [stepsRound]
        split_ifs at hahead ⊢ <;> omega
    · refine ⟨if node = 1 then count else node - 1, ?_,
        (edge_ring_iff hnode).mpr ⟨by omega, .inl rfl⟩, ?_⟩
      · rw [mem_processIds]
        split_ifs <;> omega
      · simp only [stepsRound]
        split_ifs at hahead ⊢ <;> omega
  case rises =>
    intro goal hgoal node hnode next hedge
    rw [edge_ring_iff hnode] at hedge
    rw [mem_processIds] at hgoal hnode ⊢
    obtain ⟨_, rfl | rfl⟩ := hedge
    · refine ⟨by split_ifs <;> omega, ?_⟩
      simp only [stepsRound]
      split_ifs <;> omega
    · refine ⟨by split_ifs <;> omega, ?_⟩
      simp only [stepsRound]
      split_ifs <;> omega

/-- The ring's diameter is half its length: the goal is approached the shorter way
round. -/
theorem isDiameter_ring (hcount : 0 < count) :
    IsDiameter ((ring : Topology R).Edge count) count (count / 2) := by
  have hfirst : (1 : Int) ∈ processIds count := mem_processIds.mpr (by omega)
  have hlast : (1 + (count / 2 : Nat) : Int) ∈ processIds count := mem_processIds.mpr (by omega)
  refine countsSteps_ring.isDiameter ?_ hfirst hlast ?_
  · intro goal hgoal node hnode
    rw [mem_processIds] at hgoal hnode
    simp only [stepsRound]
    split_ifs <;> omega
  · simp only [stepsRound]
    split_ifs <;> omega

/-! ## Grids -/

/-- The node in a row and a column of a grid. -/
def cell (cols row col : Int) : Int :=
  row * cols + col + 1

section Grid

variable {rows cols row col : Int}

theorem fdiv_cell (row : Int) (hlow : 0 ≤ col) (hhigh : col < cols) :
    Int.fdiv (cell cols row col - 1) cols = row ∧ Int.fmod (cell cols row col - 1) cols = col := by
  rw [Int.fdiv_eq_ediv_of_nonneg _ (by omega), Int.fmod_eq_emod_of_nonneg _ (by omega),
    Int.ediv_emod_unique (by omega)]
  refine ⟨?_, hlow, hhigh⟩
  rw [cell]
  ring

/-- A node lies in the grid if its row and its column do. -/
theorem cell_mem (hcount : (count : Int) = rows * cols) (hrow : 0 ≤ row ∧ row < rows)
    (hcol : 0 ≤ col ∧ col < cols) : cell cols row col ∈ processIds count := by
  have hlow : 0 ≤ row * cols := Int.mul_nonneg hrow.1 (by omega)
  have hhigh : (row + 1) * cols ≤ rows * cols :=
    Int.mul_le_mul_of_nonneg_right (by omega) (by omega)
  have hnext : (row + 1) * cols = row * cols + cols := by ring
  rw [mem_processIds, cell]
  omega

theorem exists_cell (hcount : (count : Int) = rows * cols) (hcols : 1 ≤ cols)
    (hnode : node ∈ processIds count) :
    ∃ row col, node = cell cols row col ∧ (0 ≤ row ∧ row < rows) ∧ 0 ≤ col ∧ col < cols := by
  rw [mem_processIds, hcount] at hnode
  refine ⟨(node - 1) / cols, (node - 1) % cols, ?_, ⟨?_, ?_⟩, ?_, ?_⟩
  · rw [cell]
    have := Int.mul_ediv_add_emod (node - 1) cols
    rw [Int.mul_comm] at this
    omega
  · exact Int.ediv_nonneg (by omega) (by omega)
  · exact Int.ediv_lt_of_lt_mul (by omega) (by omega)
  · exact Int.emod_nonneg _ (by omega)
  · exact Int.emod_lt_of_pos _ (by omega)

theorem count_of_neighbors_grid {ids : List Int}
    (h : (grid rows cols : Topology R).neighbors node count = .ok ids) :
    (count : Int) = rows * cols := by
  rw [neighbors, guarded_eq_ok, bne_iff_ne, not_not] at h
  exact h.1

/-- A cell is linked to the cells above, below, left and right of it. -/
theorem edge_grid_iff (hcount : (count : Int) = rows * cols) (hcol : 0 ≤ col ∧ col < cols) :
    (grid rows cols : Topology R).Edge count (cell cols row col) next ↔
      (0 < row ∧ next = cell cols (row - 1) col) ∨
        (row < rows - 1 ∧ next = cell cols (row + 1) col) ∨
        (0 < col ∧ next = cell cols row (col - 1)) ∨
        (col < cols - 1 ∧ next = cell cols row (col + 1)) := by
  obtain ⟨hrow', hcol'⟩ := fdiv_cell row hcol.1 hcol.2
  have habove : cell cols row col - cols = cell cols (row - 1) col := by
    rw [cell, cell]
    ring
  have hbelow : cell cols row col + cols = cell cols (row + 1) col := by
    rw [cell, cell]
    ring
  have hleft : cell cols row col - 1 = cell cols row (col - 1) := by
    rw [cell, cell]
    ring
  have hright : cell cols row col + 1 = cell cols row (col + 1) := by
    rw [cell, cell]
    ring
  have hids : (grid rows cols : Topology R).neighbors (cell cols row col) count =
      .ok (asSet ((if 0 < row then [cell cols (row - 1) col] else []) ++
        (if row < rows - 1 then [cell cols (row + 1) col] else []) ++
        (if 0 < col then [cell cols row (col - 1)] else []) ++
        (if col < cols - 1 then [cell cols row (col + 1)] else []))) := by
    rw [neighbors, if_neg (by simpa using hcount)]
    simp only [hrow', hcol', habove, hbelow, hright, ← hleft]
  have hmem : ∀ (found : Prop) [Decidable found] (id : Int),
      next ∈ (if found then [id] else []) ↔ found ∧ next = id := by
    intro found _ id
    split <;> simp [*]
  rw [edge_iff hids, mem_asSet, List.mem_append, List.mem_append, List.mem_append, hmem, hmem, hmem,
    hmem, or_assoc, or_assoc]

/-- The steps between two nodes of a grid: the rows and the columns between them. -/
def stepsAcross (cols goal node : Int) : Nat :=
  (Int.fdiv (node - 1) cols - Int.fdiv (goal - 1) cols).natAbs +
    (Int.fmod (node - 1) cols - Int.fmod (goal - 1) cols).natAbs

theorem stepsAcross_cell {row' col' : Int} (hcol : 0 ≤ col ∧ col < cols)
    (hcol' : 0 ≤ col' ∧ col' < cols) :
    stepsAcross cols (cell cols row col) (cell cols row' col') =
      (row' - row).natAbs + (col' - col).natAbs := by
  obtain ⟨hgoalRow, hgoalCol⟩ := fdiv_cell row hcol.1 hcol.2
  obtain ⟨hnodeRow, hnodeCol⟩ := fdiv_cell row' hcol'.1 hcol'.2
  rw [stepsAcross, hgoalRow, hgoalCol, hnodeRow, hnodeCol]

/-- A cell other than the goal is linked to one with fewer steps to go: one along
its column first, then one along the row of the goal. -/
theorem exists_closer_cell {row' col' : Int} (hcount : (count : Int) = rows * cols)
    (hrow : 0 ≤ row ∧ row < rows) (hcol : 0 ≤ col ∧ col < cols) (hrow' : 0 ≤ row' ∧ row' < rows)
    (hcol' : 0 ≤ col' ∧ col' < cols) (hne : cell cols row' col' ≠ cell cols row col) :
    ∃ next ∈ processIds count,
      (grid rows cols : Topology R).Edge count (cell cols row' col') next ∧
        stepsAcross cols (cell cols row col) next <
          stepsAcross cols (cell cols row col) (cell cols row' col') := by
  rw [stepsAcross_cell hcol hcol']
  rcases lt_trichotomy row' row with hless | rfl | hmore
  · refine ⟨cell cols (row' + 1) col', cell_mem hcount (by omega) hcol',
      (edge_grid_iff hcount hcol').mpr (.inr (.inl ⟨by omega, rfl⟩)), ?_⟩
    rw [stepsAcross_cell hcol hcol']
    omega
  · rcases lt_trichotomy col' col with hless | rfl | hmore
    · refine ⟨cell cols row' (col' + 1), cell_mem hcount hrow' (by omega),
        (edge_grid_iff hcount hcol').mpr (.inr (.inr (.inr ⟨by omega, rfl⟩))), ?_⟩
      rw [stepsAcross_cell hcol (by omega)]
      omega
    · exact absurd rfl hne
    · refine ⟨cell cols row' (col' - 1), cell_mem hcount hrow' (by omega),
        (edge_grid_iff hcount hcol').mpr (.inr (.inr (.inl ⟨by omega, rfl⟩))), ?_⟩
      rw [stepsAcross_cell hcol (by omega)]
      omega
  · refine ⟨cell cols (row' - 1) col', cell_mem hcount (by omega) hcol',
      (edge_grid_iff hcount hcol').mpr (.inl ⟨by omega, rfl⟩), ?_⟩
    rw [stepsAcross_cell hcol hcol']
    omega

theorem countsSteps_grid (hcount : (count : Int) = rows * cols) (hcols : 1 ≤ cols) :
    CountsSteps ((grid rows cols : Topology R).Edge count) count (stepsAcross cols) := by
  constructor
  case self =>
    intro goal
    simp [stepsAcross]
  case closer =>
    intro goal hgoal node hnode hne
    obtain ⟨row, col, rfl, hrow, hcol⟩ := exists_cell hcount hcols hgoal
    obtain ⟨row', col', rfl, hrow', hcol'⟩ := exists_cell hcount hcols hnode
    exact exists_closer_cell hcount hrow hcol hrow' hcol' hne
  case rises =>
    intro goal hgoal node hnode next hedge
    obtain ⟨row, col, rfl, _, hcol⟩ := exists_cell hcount hcols hgoal
    obtain ⟨row', col', rfl, hrow', hcol'⟩ := exists_cell hcount hcols hnode
    rw [stepsAcross_cell hcol hcol']
    rcases (edge_grid_iff hcount hcol').mp hedge with ⟨_, rfl⟩ | ⟨_, rfl⟩ | ⟨_, rfl⟩ | ⟨_, rfl⟩
    · rw [stepsAcross_cell hcol hcol']
      exact ⟨cell_mem hcount (by omega) hcol', by omega⟩
    · rw [stepsAcross_cell hcol hcol']
      exact ⟨cell_mem hcount (by omega) hcol', by omega⟩
    · rw [stepsAcross_cell hcol (by omega)]
      exact ⟨cell_mem hcount hrow' (by omega), by omega⟩
    · rw [stepsAcross_cell hcol (by omega)]
      exact ⟨cell_mem hcount hrow' (by omega), by omega⟩

/-- The grid's diameter joins two opposite corners: every step changes a row or a
column by one. -/
theorem isDiameter_grid (hcount : (count : Int) = rows * cols) (hrows : 1 ≤ rows)
    (hcols : 1 ≤ cols) : IsDiameter ((grid rows cols : Topology R).Edge count) count
      ((rows - 1) + (cols - 1)).toNat := by
  have hcorner : cell cols 0 0 ∈ processIds count := cell_mem hcount (by omega) (by omega)
  have hopposite : cell cols (rows - 1) (cols - 1) ∈ processIds count :=
    cell_mem hcount (by omega) (by omega)
  refine (countsSteps_grid hcount hcols).isDiameter ?_ hcorner hopposite ?_
  · intro goal hgoal node hnode
    obtain ⟨row, col, rfl, hrow, hcol⟩ := exists_cell hcount hcols hgoal
    obtain ⟨row', col', rfl, hrow', hcol'⟩ := exists_cell hcount hcols hnode
    rw [stepsAcross_cell hcol hcol']
    omega
  · rw [stepsAcross_cell (by omega) (by omega)]
    omega

end Grid

/-! ## Graphs that are searched -/

theorem neighbors_circulant_eq_ok {degree : Int} {ids : List Int} :
    (circulant degree : Topology R).neighbors node count = .ok ids ↔
      degree < count ∧ asSet (nearestPositions node count degree.toNat) = ids := by
  rw [neighbors, guarded_eq_ok, Int.not_le, Except.ok.injEq]

theorem neighbors_bipartite_eq_ok {left right : Int} {ids : List Int} :
    (bipartite left right : Topology R).neighbors node count = .ok ids ↔
      (count : Int) = left + right ∧
        (if node ≤ left then idsFrom (left + 1) count else idsFrom 1 left) = ids := by
  rw [neighbors, guarded_eq_ok, bne_iff_ne, not_not, Except.ok.injEq]

theorem neighbors_custom_eq_ok {rows : List (List Bool)} {ids : List Int} :
    (custom rows : Topology R).neighbors node count = .ok ids ↔ rows.length = count ∧
      ∃ row, itemAt? rows (node - 1) = some row ∧ rowTargets row (node - 1) = ids := by
  rw [neighbors, guarded_eq_ok, bne_iff_ne, not_not, Int.natCast_inj]
  cases itemAt? rows (node - 1) with
  | none => simp
  | some row => simp

/-! ## Neighbours are processes -/

theorem mem_of_edge_ring (hcount : 0 < count) (hnode : node ∈ processIds count)
    (h : (ring : Topology R).Edge count node next) : next ∈ processIds count := by
  rw [edge_ring_iff hnode] at h
  rw [mem_processIds] at hnode ⊢
  obtain ⟨_, rfl | rfl⟩ := h
  · split_ifs <;> omega
  · split_ifs <;> omega

theorem mem_of_edge_star (hcount : 0 < count) (h : (star : Topology R).Edge count node next) :
    next ∈ processIds count := by
  rw [edge_star_iff] at h
  rw [mem_processIds]
  split_ifs at h <;> omega

theorem mem_of_edge_grid {rows cols : Int} (hcols : 1 ≤ cols) (hnode : node ∈ processIds count)
    (h : (grid rows cols : Topology R).Edge count node next) : next ∈ processIds count := by
  obtain ⟨ids, hids, _⟩ := exists_of_edge h
  have hcount := count_of_neighbors_grid hids
  obtain ⟨row, col, rfl, hrow, hcol⟩ := exists_cell hcount hcols hnode
  rcases (edge_grid_iff hcount hcol).mp h with ⟨_, rfl⟩ | ⟨_, rfl⟩ | ⟨_, rfl⟩ | ⟨_, rfl⟩
  · exact cell_mem hcount (by omega) hcol
  · exact cell_mem hcount (by omega) hcol
  · exact cell_mem hcount hrow (by omega)
  · exact cell_mem hcount hrow (by omega)

theorem mem_of_edge_random {probability : R} {seed : Int}
    (h : (random probability seed).Edge count node next) : next ∈ processIds count := by
  obtain ⟨ids, hids, hmem⟩ := exists_of_edge h
  rw [neighbors, bind_eq_ok] at hids
  obtain ⟨generator, _, hids⟩ := hids
  obtain ⟨⟨draws, _⟩, _, hids⟩ := bind_eq_ok.mp hids
  obtain rfl := pure_eq_ok.mp hids
  obtain ⟨⟨draw, id⟩, hpair, rfl⟩ := List.mem_map.mp hmem
  have hid := List.of_mem_zip (List.mem_filter.mp hpair).1
  exact mem_processIds.mpr (mem_idsFrom.mp hid.2)

theorem mem_of_edge_circulant {degree : Int} (hcount : 0 < count)
    (h : (circulant degree : Topology R).Edge count node next) : next ∈ processIds count := by
  obtain ⟨ids, hids, hmem⟩ := exists_of_edge h
  obtain ⟨_, rfl⟩ := neighbors_circulant_eq_ok.mp hids
  have hnearest := List.mem_of_mem_take (mem_asSet.mp hmem)
  have hposition := (List.mem_filter.mp (List.mem_eraseDups.mp hnearest)).1
  obtain ⟨k, _, hpair⟩ := List.mem_flatMap.mp hposition
  have hpositive : (0 : Int) < count := by omega
  have hrange : ∀ offset : Int, Int.emod offset count + 1 ∈ processIds count := by
    intro offset
    have hlow := Int.emod_nonneg offset hpositive.ne'
    have hhigh := Int.emod_lt_of_pos offset hpositive
    rw [mem_processIds]
    change 1 ≤ offset % (count : Int) + 1 ∧ offset % (count : Int) + 1 ≤ count
    omega
  rcases List.mem_cons.mp hpair with rfl | hpair
  · exact hrange _
  · rw [List.mem_singleton.mp hpair]
    exact hrange _

theorem mem_of_edge_bipartite {left right : Int} (hleft : 1 ≤ left) (hright : 1 ≤ right)
    (h : (bipartite left right : Topology R).Edge count node next) : next ∈ processIds count := by
  obtain ⟨ids, hids, hmem⟩ := exists_of_edge h
  obtain ⟨hsum, rfl⟩ := neighbors_bipartite_eq_ok.mp hids
  rw [mem_processIds]
  split_ifs at hmem
  · have := mem_idsFrom.mp hmem
    omega
  · have := mem_idsFrom.mp hmem
    omega

theorem mem_of_edge_custom {rows : List (List Bool)}
    (hrows : ∀ row ∈ rows, row.length = rows.length)
    (h : (custom rows : Topology R).Edge count node next) : next ∈ processIds count := by
  obtain ⟨ids, hids, hmem⟩ := exists_of_edge h
  obtain ⟨hlength, row, hrow, rfl⟩ := neighbors_custom_eq_ok.mp hids
  obtain ⟨⟨edge, column⟩, hentry, rfl⟩ := List.mem_map.mp hmem
  obtain ⟨hlt, _⟩ := List.mem_zipIdx' (List.mem_filter.mp hentry).1
  have hrow : row ∈ rows := by
    rw [itemAt?] at hrow
    split_ifs at hrow
    · exact List.mem_of_getElem? hrow
    · exact List.mem_of_getElem? hrow
  have hwidth := hrows row hrow
  rw [mem_processIds]
  simp only at hlt ⊢
  omega

/-! ## Topologies as they can be made -/

omit [Scalar R] in
theorem of_ofGrid {rows cols : Int} (h : ofGrid rows cols = .ok topology) :
    topology = .grid rows cols ∧ 1 ≤ rows ∧ 1 ≤ cols := by
  obtain ⟨hsize, rfl⟩ := by simpa only [ofGrid, guarded_eq_ok, Except.ok.injEq] using h
  simp only [Bool.or_eq_true, decide_eq_true_eq, not_or, not_lt] at hsize
  exact ⟨rfl, hsize⟩

theorem of_ofRandom {probability : R} {seed : Int}
    (h : ofRandom probability seed = .ok topology) : topology = .random probability seed := by
  rw [ofRandom] at h
  split at h
  · exact (Except.ok.inj h).symm
  · cases h

omit [Scalar R] in
theorem of_ofCirculant {degree : Int} (h : ofCirculant degree = .ok topology) :
    topology = .circulant degree := by
  rw [ofCirculant, guarded_eq_ok] at h
  exact (Except.ok.inj h.2).symm

omit [Scalar R] in
theorem of_ofBipartite {left right : Int} (h : ofBipartite left right = .ok topology) :
    topology = .bipartite left right ∧ 1 ≤ left ∧ 1 ≤ right := by
  obtain ⟨hsize, rfl⟩ := by simpa only [ofBipartite, guarded_eq_ok, Except.ok.injEq] using h
  simp only [Bool.or_eq_true, decide_eq_true_eq, not_or, not_lt] at hsize
  exact ⟨rfl, hsize⟩

omit [Scalar R] in
theorem of_ofAdjacency {matrix : Adjacency} (h : ofAdjacency matrix = .ok topology) :
    ∃ rows, topology = .custom rows ∧ ∀ row ∈ rows, row.length = rows.length := by
  obtain ⟨rows, hrows, rfl⟩ := map_eq_ok.mp (mapError_eq_ok.mp h)
  exact ⟨rows, rfl, Adjacency.length_of_mem_square hrows⟩

/-- What a topology links is a process. -/
theorem mem_of_edge (hmade : topology.IsMade) (hcount : 0 < count)
    (hnode : node ∈ processIds count) (h : topology.Edge count node next) :
    next ∈ processIds count := by
  cases hmade with
  | complete => exact (edge_complete_iff.mp h).1
  | ring => exact mem_of_edge_ring hcount hnode h
  | star => exact mem_of_edge_star hcount h
  | grid hmake =>
      obtain ⟨rfl, _, hcols⟩ := of_ofGrid hmake
      exact mem_of_edge_grid hcols hnode h
  | random hmake =>
      obtain rfl := of_ofRandom hmake
      exact mem_of_edge_random h
  | circulant hmake =>
      obtain rfl := of_ofCirculant hmake
      exact mem_of_edge_circulant hcount h
  | bipartite hmake =>
      obtain ⟨rfl, hleft, hright⟩ := of_ofBipartite hmake
      exact mem_of_edge_bipartite hleft hright h
  | custom hmake =>
      obtain ⟨rows, rfl, hrows⟩ := of_ofAdjacency hmake
      exact mem_of_edge_custom hrows h

/-- Every process of a topology has neighbours, and they are processes. -/
theorem inhabits (hmade : topology.IsMade) (hcount : 0 < count) (hfits : topology.Fits count) :
    Inhabits (fun node => topology.neighbors node count) count := by
  intro node hnode
  obtain ⟨ids, hids⟩ := hfits node hnode
  exact ⟨ids, hids, fun id hid => mem_of_edge hmade hcount hnode ⟨ids, hids, hid⟩⟩

/-! ## The stated diameter -/

/-- The stated diameter of a graph is its diameter, or -1 if some process cannot
reach another one. -/
def States (edge : Int → Int → Prop) (count : Nat) (stated : Int) : Prop :=
  (∃ distance : Nat, stated = distance ∧ IsDiameter edge count distance) ∨
    stated = -1 ∧ IsSplit edge count

/-- A search states the diameter of the graph that it is made in. -/
theorem exists_searchedDiameter {ε : Type} {neighbors : Int → Except ε (List Int)}
    (hinhabits : Inhabits neighbors count) (hcount : 0 < count) :
    ∃ stated, searchedDiameter neighbors count = .ok stated ∧
      States (Links neighbors) count stated := by
  obtain ⟨longest, hlongest, hspec⟩ := exists_searchDiameter hinhabits hcount
  rw [searchedDiameter, hlongest]
  cases longest with
  | none => exact ⟨-1, rfl, .inr ⟨rfl, hspec⟩⟩
  | some distance => exact ⟨distance, rfl, .inl ⟨distance, rfl, hspec⟩⟩

/-- A topology that fits a number of processes states its diameter over them. -/
theorem exists_diameter (hmade : topology.IsMade) (hcount : 0 < count)
    (hfits : topology.Fits count) : ∃ stated, topology.diameter count = .ok stated ∧
      States (topology.Edge count) count stated := by
  have hinhabits := inhabits hmade hcount hfits
  cases hmade with
  | complete =>
      refine ⟨_, rfl, .inl ⟨_, ?_, isDiameter_complete hcount⟩⟩
      split_ifs <;> omega
  | ring =>
      refine ⟨_, rfl, .inl ⟨_, ?_, isDiameter_ring hcount⟩⟩
      rw [Int.fdiv_eq_ediv_of_nonneg _ (by omega)]
      omega
  | star => exact ⟨_, rfl, .inl ⟨_, by omega, isDiameter_star hcount⟩⟩
  | grid hmake =>
      rename_i rows cols
      obtain ⟨rfl, hrows, hcols⟩ := of_ofGrid hmake
      obtain ⟨ids, hids⟩ := hfits 1 (mem_processIds.mpr (by omega))
      have hproduct := count_of_neighbors_grid hids
      exact ⟨_, if_neg (by simpa using hproduct), .inl ⟨_, by omega,
        isDiameter_grid hproduct hrows hcols⟩⟩
  | random hmake =>
      obtain rfl := of_ofRandom hmake
      exact exists_searchedDiameter hinhabits hcount
  | circulant hmake =>
      obtain rfl := of_ofCirculant hmake
      exact exists_searchedDiameter hinhabits hcount
  | bipartite hmake =>
      obtain ⟨rfl, _⟩ := of_ofBipartite hmake
      exact exists_searchedDiameter hinhabits hcount
  | custom hmake =>
      obtain ⟨rows, rfl, _⟩ := of_ofAdjacency hmake
      exact exists_searchedDiameter hinhabits hcount

end Topology

end LossyConsensus.Network
