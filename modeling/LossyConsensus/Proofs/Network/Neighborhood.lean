/-
# Neighbours are other processes

Whom a process can send to: other processes, in ascending order and each of them once.  So
it is in every topology and for every process, also where there are one or two of them; a
message to a neighbour neither leaves the system nor comes back to its sender.

For how many processes a topology has neighbours follows from what it is made of.  In the
complete graph, the ring, the star, the grid and the bipartite graph every link goes both
ways.
-/

import LossyConsensus.Proofs.Network.Diameter
import LossyConsensus.Proofs.Network.Enumeration

namespace LossyConsensus.Network

open LossyConsensus.Random

-- Powers are those of the core library, whatever algebra is imported beside it.
attribute [local instance (2000)] instPowNat

namespace Topology

variable {R : Type} [Scalar R] {topology : Topology R} {count : Nat} {node next : Int}

/-- A set of other processes. -/
structure IsNeighborhood (count : Nat) (node : Int) (ids : List Int) : Prop where
  ascending : ids.Pairwise (· < ·)
  others : ∀ id ∈ ids, id ∈ processIds count ∧ id ≠ node

omit [Scalar R] in
/-- The numbers of processes that a topology is meant for.  A random graph draws for each
node from a seed of its own, the graph's plus the node, which must not be negative; and it
keeps the draws of a node, eight bytes each, in one array, whose bytes a signed word counts. -/
def Accepts : Topology R → Nat → Prop
  | .complete, _ | .ring, _ | .star, _ => True
  | .grid rows cols, count => (count : Int) = rows * cols
  | .random _ seed, count => -1 ≤ seed ∧ count < 2 ^ (60 : Nat)
  | .circulant degree, count => degree < count
  | .bipartite left right, count => (count : Int) = left + right
  | .custom rows, count => rows.length = count

omit [Scalar R] in
/-- The topologies whose links go both ways, whatever they are made of. -/
def IsMutual : Topology R → Prop
  | .complete | .ring | .star | .grid .. | .bipartite .. => True
  | .random .. | .circulant .. | .custom .. => False

/-! ## Random graphs -/

theorem countError?_drawBytes (count : Nat) :
    countError? drawBytes count = none ↔ count < 2 ^ (60 : Nat) := by
  rw [countError?, drawBytes]
  constructor
  · intro h
    split_ifs at h with hword hnegative hbytes
    simp only [isSignedWord, Bool.not_eq_true', Bool.and_eq_false_iff, decide_eq_false_iff_not]
      at hbytes
    omega
  · intro h
    rw [isSignedWord_of_lt (by omega) (by omega), isSignedWord_of_lt (by omega) (by omega)]
    simp

theorem drawsOf_eq_ok {count : Nat} {generator : Generator} {result : List Nat × Generator} :
    generator.drawsOf count = .ok result ↔
      count < 2 ^ (60 : Nat) ∧ generator.draws count = result := by
  rw [Generator.drawsOf, ← countError?_drawBytes, Int.toNat_natCast]
  cases countError? drawBytes count with
  | none => simp
  | some error => simp

theorem exists_ofSeed_iff {seed : Int} :
    (∃ generator, Generator.ofSeed seed = .ok generator) ↔ 0 ≤ seed := by
  rw [Generator.ofSeed, Generator.ofSeeds, List.any_cons, List.any_nil, Bool.or_false]
  by_cases hnegative : seed < 0
  · rw [if_pos (decide_eq_true hnegative)]
    simp [hnegative]
  · rw [if_neg (by simpa using hnegative)]
    exact ⟨fun _ => Int.not_lt.mp hnegative, fun _ => ⟨_, rfl⟩⟩

/-- A node of a random graph has a draw for each process, and has those others for neighbours
whose draw is low enough. -/
theorem neighbors_random_eq_ok {probability : R} {seed : Int} {ids : List Int} :
    (random probability seed).neighbors node count = .ok ids ↔
      ∃ generator, Generator.ofSeed (seed + node) = .ok generator ∧ count < 2 ^ (60 : Nat) ∧
        (((generator.draws count).1.zip (idsFrom 1 count)).filter fun (draw, id) =>
          id != node && Scalar.lt (Scalar.ofDraw draw) probability).map (·.2) = ids := by
  rw [neighbors, bind_eq_ok]
  refine exists_congr fun generator => ?_
  rw [mapError_eq_ok, bind_eq_ok]
  refine and_congr_right fun _ => ?_
  constructor
  · rintro ⟨⟨draws, rest⟩, hdraws, hids⟩
    obtain ⟨hfew, hresult⟩ := drawsOf_eq_ok.mp (mapError_eq_ok.mp hdraws)
    rw [hresult]
    exact ⟨hfew, pure_eq_ok.mp hids⟩
  · rintro ⟨hfew, hids⟩
    exact ⟨_, mapError_eq_ok.mpr (drawsOf_eq_ok.mpr ⟨hfew, rfl⟩), pure_eq_ok.mpr hids⟩

/-! ## What is accepted -/

/-- Where the first process has neighbours, the number of processes is accepted. -/
theorem accepts_of_neighbors {ids : List Int} (h : topology.neighbors 1 count = .ok ids) :
    topology.Accepts count := by
  cases topology with
  | complete => trivial
  | ring => trivial
  | star => trivial
  | grid rows cols => exact count_of_neighbors_grid h
  | random probability seed =>
      obtain ⟨generator, hgenerator, hfew, _⟩ := neighbors_random_eq_ok.mp h
      have hseed := exists_ofSeed_iff.mp ⟨generator, hgenerator⟩
      exact ⟨by omega, hfew⟩
  | circulant degree =>
      exact (neighbors_circulant_eq_ok.mp h).1
  | bipartite left right => exact (neighbors_bipartite_eq_ok.mp h).1
  | custom rows => exact (neighbors_custom_eq_ok.mp h).1

theorem fits_of_accepts (h : topology.Accepts count) : topology.Fits count := by
  cases topology with
  | complete => exact fits_complete count
  | ring => exact fits_ring count
  | star => exact fits_star count
  | grid rows cols => exact fits_grid (Eq.symm h)
  | random probability seed =>
      obtain ⟨hseed, hfew⟩ := h
      intro node hnode
      have hpositive := (mem_processIds.mp hnode).1
      obtain ⟨generator, hgenerator⟩ := exists_ofSeed_iff.mpr (by omega : 0 ≤ seed + node)
      exact ⟨_, neighbors_random_eq_ok.mpr ⟨generator, hgenerator, hfew, rfl⟩⟩
  | circulant degree =>
      intro node _
      exact ⟨_, neighbors_circulant_eq_ok.mpr ⟨h, rfl⟩⟩
  | bipartite left right =>
      intro node _
      exact ⟨_, neighbors_bipartite_eq_ok.mpr ⟨h, rfl⟩⟩
  | custom rows =>
      obtain rfl : rows.length = count := h
      intro node hnode
      rw [mem_processIds] at hnode
      have hrow : itemAt? rows (node - 1) = some rows[(node - 1).toNat] := by
        rw [itemAt?, if_pos (by omega)]
        exact List.getElem?_eq_getElem (by omega)
      exact ⟨_, neighbors_custom_eq_ok.mpr ⟨rfl, _, hrow, rfl⟩⟩

/-- A topology has neighbours for all of some processes just if it accepts their number. -/
theorem fits_iff_accepts (hcount : 0 < count) : topology.Fits count ↔ topology.Accepts count := by
  constructor
  · intro hfits
    obtain ⟨ids, hids⟩ := hfits 1 (mem_processIds.mpr (by omega))
    exact accepts_of_neighbors hids
  · exact fits_of_accepts

/-! ## Neighbours in ascending order -/

theorem pairwise_idsFrom (first last : Int) : (idsFrom first last).Pairwise (· < ·) := by
  rw [idsFrom, List.pairwise_map]
  exact List.pairwise_lt_range.imp fun h => by omega

theorem pairwise_rowTargets (row : List Bool) (index : Int) :
    (rowTargets row index).Pairwise (· < ·) := by
  have hcolumns : row.zipIdx.Pairwise fun first second => first.2 < second.2 := by
    rw [← List.pairwise_map, List.zipIdx_map_snd]
    exact List.pairwise_lt_range' 1
  rw [rowTargets, List.pairwise_map]
  exact (hcolumns.filter _).imp fun h => Int.add_lt_add_right (Int.ofNat_lt.mpr h) 1

theorem pairwise_neighbors_random {probability : R} {seed : Int} {ids : List Int}
    (h : (random probability seed).neighbors node count = .ok ids) : ids.Pairwise (· < ·) := by
  obtain ⟨generator, _, _, rfl⟩ := neighbors_random_eq_ok.mp h
  have hlength : (idsFrom 1 count).length ≤ (generator.draws count).1.length := by
    rw [length_draws, idsFrom, List.length_map, List.length_range]
    omega
  rw [List.pairwise_map]
  refine List.Pairwise.filter _ ?_
  rw [← List.pairwise_map, List.map_snd_zip hlength]
  exact pairwise_idsFrom 1 count

theorem pairwise_neighbors {ids : List Int} (h : topology.neighbors node count = .ok ids) :
    ids.Pairwise (· < ·) := by
  cases topology with
  | complete =>
      obtain rfl := Except.ok.inj h
      exact (pairwise_idsFrom 1 count).filter _
  | ring =>
      rw [neighbors] at h
      split at h
      · obtain rfl := Except.ok.inj h
        exact List.Pairwise.nil
      · obtain rfl := Except.ok.inj h
        exact pairwise_asSet _
  | star =>
      obtain rfl := Except.ok.inj h
      split
      · exact pairwise_idsFrom 2 count
      · exact List.pairwise_singleton _ _
  | grid rows cols =>
      rw [neighbors, guarded_eq_ok] at h
      obtain rfl := Except.ok.inj h.2
      exact pairwise_asSet _
  | random probability seed => exact pairwise_neighbors_random h
  | circulant degree =>
      obtain ⟨_, rfl⟩ := neighbors_circulant_eq_ok.mp h
      exact pairwise_asSet _
  | bipartite left right =>
      obtain ⟨_, rfl⟩ := neighbors_bipartite_eq_ok.mp h
      split
      · exact pairwise_idsFrom _ _
      · exact pairwise_idsFrom _ _
  | custom rows =>
      obtain ⟨_, row, _, rfl⟩ := neighbors_custom_eq_ok.mp h
      exact pairwise_rowTargets _ _

/-! ## Nobody is its own neighbour -/

theorem ne_of_edge_ring (hnode : node ∈ processIds count)
    (h : (ring : Topology R).Edge count node next) : next ≠ node := by
  rw [edge_ring_iff hnode] at h
  rw [mem_processIds] at hnode
  obtain ⟨_, rfl | rfl⟩ := h
  · split_ifs <;> omega
  · split_ifs <;> omega

theorem ne_of_edge_star (h : (star : Topology R).Edge count node next) : next ≠ node := by
  rw [edge_star_iff] at h
  split_ifs at h <;> omega

/-- A cell lies in another row or column than those beside it. -/
theorem ne_of_edge_grid {rows cols : Int} (hcols : 1 ≤ cols) (hnode : node ∈ processIds count)
    (h : (grid rows cols : Topology R).Edge count node next) : next ≠ node := by
  obtain ⟨ids, hids, _⟩ := exists_of_edge h
  have hcount := count_of_neighbors_grid hids
  obtain ⟨row, col, rfl, _, hcol⟩ := exists_cell hcount hcols hnode
  have habove : (row - 1) * cols = row * cols - cols := by ring
  have hbelow : (row + 1) * cols = row * cols + cols := by ring
  rcases (edge_grid_iff hcount hcol).mp h with ⟨_, rfl⟩ | ⟨_, rfl⟩ | ⟨_, rfl⟩ | ⟨_, rfl⟩ <;>
    · rw [cell, cell]
      omega

theorem ne_of_edge_random {probability : R} {seed : Int}
    (h : (random probability seed).Edge count node next) : next ≠ node := by
  obtain ⟨ids, hids, hmem⟩ := exists_of_edge h
  obtain ⟨generator, _, _, rfl⟩ := neighbors_random_eq_ok.mp hids
  obtain ⟨⟨draw, id⟩, hpair, rfl⟩ := List.mem_map.mp hmem
  have hlow := (List.mem_filter.mp hpair).2
  exact bne_iff_ne.mp (Bool.and_eq_true_iff.mp hlow).1

theorem ne_of_edge_circulant {degree : Int}
    (h : (circulant degree : Topology R).Edge count node next) : next ≠ node := by
  obtain ⟨ids, hids, hmem⟩ := exists_of_edge h
  obtain ⟨_, rfl⟩ := neighbors_circulant_eq_ok.mp hids
  have hnearest := List.mem_of_mem_take (mem_asSet.mp hmem)
  exact bne_iff_ne.mp (List.mem_filter.mp (List.mem_eraseDups.mp hnearest)).2

theorem edge_bipartite_iff {left right : Int} (hcount : (count : Int) = left + right) :
    (bipartite left right : Topology R).Edge count node next ↔
      if node ≤ left then left < next ∧ next ≤ count else 1 ≤ next ∧ next ≤ left := by
  rw [edge_iff (neighbors_bipartite_eq_ok.mpr ⟨hcount, rfl⟩)]
  split_ifs
  · exact mem_idsFrom
  · exact mem_idsFrom

theorem ne_of_edge_bipartite {left right : Int} (hcount : (count : Int) = left + right)
    (h : (bipartite left right : Topology R).Edge count node next) : next ≠ node := by
  rw [edge_bipartite_iff hcount] at h
  split_ifs at h <;> omega

theorem ne_of_edge_custom {rows : List (List Bool)}
    (h : (custom rows : Topology R).Edge count node next) : next ≠ node := by
  obtain ⟨ids, hids, hmem⟩ := exists_of_edge h
  obtain ⟨_, row, _, rfl⟩ := neighbors_custom_eq_ok.mp hids
  obtain ⟨⟨edge, column⟩, hentry, rfl⟩ := List.mem_map.mp hmem
  have hother := (Bool.and_eq_true_iff.mp (List.mem_filter.mp hentry).2).2
  have hother := bne_iff_ne.mp hother
  simp only
  omega

/-- No process is linked to itself. -/
theorem ne_of_edge (hmade : topology.IsMade) (haccepts : topology.Accepts count)
    (hnode : node ∈ processIds count) (h : topology.Edge count node next) : next ≠ node := by
  cases hmade with
  | complete => exact (edge_complete_iff.mp h).2
  | ring => exact ne_of_edge_ring hnode h
  | star => exact ne_of_edge_star h
  | grid hmake =>
      obtain ⟨rfl, _, hcols⟩ := of_ofGrid hmake
      exact ne_of_edge_grid hcols hnode h
  | random hmake =>
      obtain rfl := of_ofRandom hmake
      exact ne_of_edge_random h
  | circulant hmake =>
      obtain rfl := of_ofCirculant hmake
      exact ne_of_edge_circulant h
  | bipartite hmake =>
      obtain ⟨rfl, _⟩ := of_ofBipartite hmake
      exact ne_of_edge_bipartite haccepts h
  | custom hmake =>
      obtain ⟨rows, rfl, _⟩ := of_ofAdjacency hmake
      exact ne_of_edge_custom h

/-! ## Links that go both ways -/

theorem edge_ring_symm (hnode : node ∈ processIds count) (hnext : next ∈ processIds count)
    (h : (ring : Topology R).Edge count node next) : (ring : Topology R).Edge count next node := by
  rw [edge_ring_iff hnode] at h
  rw [edge_ring_iff hnext]
  rw [mem_processIds] at hnode hnext
  split_ifs at h ⊢ <;> omega

theorem edge_star_symm (hnode : node ∈ processIds count)
    (h : (star : Topology R).Edge count node next) : (star : Topology R).Edge count next node := by
  rw [edge_star_iff] at h ⊢
  rw [mem_processIds] at hnode
  split_ifs at h ⊢ <;> omega

/-- Who lies above a cell has the cell below, and who lies to the left of it has the cell to
the right. -/
theorem edge_grid_symm {rows cols : Int} (hcount : (count : Int) = rows * cols) (hcols : 1 ≤ cols)
    (hnode : node ∈ processIds count) (h : (grid rows cols : Topology R).Edge count node next) :
    (grid rows cols : Topology R).Edge count next node := by
  obtain ⟨row, col, rfl, hrow, hcol⟩ := exists_cell hcount hcols hnode
  rcases (edge_grid_iff hcount hcol).mp h with ⟨_, rfl⟩ | ⟨_, rfl⟩ | ⟨_, rfl⟩ | ⟨_, rfl⟩
  · exact (edge_grid_iff hcount hcol).mpr
      (.inr (.inl ⟨by omega, by rw [Int.sub_add_cancel]⟩))
  · exact (edge_grid_iff hcount hcol).mpr (.inl ⟨by omega, by rw [Int.add_sub_cancel]⟩)
  · exact (edge_grid_iff hcount (by omega)).mpr
      (.inr (.inr (.inr ⟨by omega, by rw [Int.sub_add_cancel]⟩)))
  · exact (edge_grid_iff hcount (by omega)).mpr
      (.inr (.inr (.inl ⟨by omega, by rw [Int.add_sub_cancel]⟩)))

theorem edge_bipartite_symm {left right : Int} (hcount : (count : Int) = left + right)
    (hnode : node ∈ processIds count)
    (h : (bipartite left right : Topology R).Edge count node next) :
    (bipartite left right : Topology R).Edge count next node := by
  rw [edge_bipartite_iff hcount] at h ⊢
  rw [mem_processIds] at hnode
  split_ifs at h ⊢ <;> omega

theorem edge_symm (hmade : topology.IsMade) (haccepts : topology.Accepts count)
    (hmutual : topology.IsMutual) (hnode : node ∈ processIds count)
    (hnext : next ∈ processIds count) (h : topology.Edge count node next) :
    topology.Edge count next node := by
  cases hmade with
  | complete => exact edge_complete_iff.mpr ⟨hnode, (edge_complete_iff.mp h).2.symm⟩
  | ring => exact edge_ring_symm hnode hnext h
  | star => exact edge_star_symm hnode h
  | grid hmake =>
      obtain ⟨rfl, _, hcols⟩ := of_ofGrid hmake
      exact edge_grid_symm haccepts hcols hnode h
  | random hmake =>
      obtain rfl := of_ofRandom hmake
      cases hmutual
  | circulant hmake =>
      obtain rfl := of_ofCirculant hmake
      cases hmutual
  | bipartite hmake =>
      obtain ⟨rfl, _⟩ := of_ofBipartite hmake
      exact edge_bipartite_symm haccepts hnode h
  | custom hmake =>
      obtain ⟨rows, rfl, _⟩ := of_ofAdjacency hmake
      cases hmutual

/-! ## All topologies -/

/-- Take a topology as it can be made, and some processes, one or more.  The topology has
neighbours for all of them just if it accepts their number.  If so, the neighbours of each
process are a set of other processes, and where links go both ways, a process is a neighbour
of another one just if the other one is its neighbour. -/
theorem neighbors_are_other_processes (hmade : topology.IsMade) (hcount : 0 < count) :
    (topology.Fits count ↔ topology.Accepts count) ∧
    (topology.Accepts count → ∀ node ∈ processIds count, ∃ ids,
      topology.neighbors node count = .ok ids ∧ IsNeighborhood count node ids) ∧
    (topology.Accepts count → topology.IsMutual → ∀ first ∈ processIds count,
      ∀ second ∈ processIds count,
        topology.Edge count first second ↔ topology.Edge count second first) := by
  have hfits : topology.Fits count ↔ topology.Accepts count := fits_iff_accepts hcount
  refine ⟨hfits, ?_, ?_⟩
  · intro haccepts node hnode
    obtain ⟨ids, hids⟩ := hfits.mpr haccepts node hnode
    refine ⟨ids, hids, pairwise_neighbors hids, fun id hid => ?_⟩
    have hedge : topology.Edge count node id := ⟨ids, hids, hid⟩
    exact ⟨mem_of_edge hmade hcount hnode hedge, ne_of_edge hmade haccepts hnode hedge⟩
  · intro haccepts hmutual first hfirst second hsecond
    exact ⟨edge_symm hmade haccepts hmutual hfirst hsecond,
      edge_symm hmade haccepts hmutual hsecond hfirst⟩

/-- In a grid of two rows the process in the middle of the lower one has three neighbours, and
the one above it has it for a neighbour.  In a random graph the second of four processes can
send to the first and to the last, but not to itself. -/
theorem grid_and_random_neighbors :
    let half : Float := Scalar.ofDraw (2 ^ (52 : Nat))
    ofGrid 2 3 = .ok (grid 2 3 : Topology Float) ∧ 0 < 6 ∧
    (grid 2 3 : Topology Float).neighbors 5 (6 : Nat) = .ok [2, 4, 6] ∧
    IsNeighborhood 6 5 [2, 4, 6] ∧
    ((grid 2 3 : Topology Float).Edge 6 5 2 ↔ (grid 2 3 : Topology Float).Edge 6 2 5) ∧
    ofRandom half 0 = .ok (random half 0) ∧ 0 < 4 ∧
    (random half 0).neighbors 2 (4 : Nat) = .ok [1, 4] ∧ IsNeighborhood 4 2 [1, 4] := by
  intro half
  have hgrid : ofGrid 2 3 = .ok (grid 2 3 : Topology Float) := by decide
  have hrandom : ofRandom half 0 = .ok (random half 0) := by decide +kernel
  have hmiddle : (grid 2 3 : Topology Float).neighbors 5 (6 : Nat) = .ok [2, 4, 6] := by decide
  have hsecond : (random half 0).neighbors 2 (4 : Nat) = .ok [1, 4] := by decide +kernel
  obtain ⟨_, hthree, hmutual⟩ :=
    neighbors_are_other_processes (.grid hgrid) (by decide : 0 < 6)
  obtain ⟨ids, hids, hmiddles⟩ := hthree rfl 5 (by decide)
  obtain rfl := Except.ok.inj (hmiddle.symm.trans hids)
  obtain ⟨_, htwo, _⟩ := neighbors_are_other_processes (.random hrandom) (by decide : 0 < 4)
  obtain ⟨ids, hids, hseconds⟩ := htwo ⟨by decide, by decide⟩ 2 (by decide)
  obtain rfl := Except.ok.inj (hsecond.symm.trans hids)
  exact ⟨hgrid, by decide, hmiddle, hmiddles, hmutual rfl trivial 5 (by decide) 2 (by decide),
    hrandom, by decide, hsecond, hseconds⟩

end Topology

end LossyConsensus.Network
