/-
# Circulant graphs

A node of a circulant graph looks for its neighbours on a ring: one step further at
a time, first behind itself and then ahead, until it has found as many as it is to
have.  The positions come in the order of their distance, and no two of them are the
same as long as not all nodes have been met; so the search ends, with the nearest
nodes.

Every node is met from as many nodes as it meets.  Two nodes meet each other if
positions ahead and behind come in pairs, or if all nodes are met.
-/

import LossyConsensus.Proofs.Network.Topology
import Mathlib.Algebra.Group.Nat.Even

namespace LossyConsensus.Network

namespace Topology

variable {R : Type} [Scalar R] {count degree : Nat} {node : Int}

/-! ## Positions on a ring -/

/-- The node that lies a number of places ahead of another one on a ring, or behind
it if the number is negative. -/
def placed (count : Nat) (node shift : Int) : Int :=
  (node - 1 + shift) % count + 1

/-- Where the positions of a ring lie in the order of their distance: one behind, one
ahead, two behind and so on. -/
def turn (k : Nat) : Int :=
  if k % 2 = 0 then -(k / 2 + 1) else k / 2 + 1

theorem placed_mem (hcount : 0 < count) (node shift : Int) :
    placed count node shift ∈ processIds count := by
  have hlow := Int.emod_nonneg (node - 1 + shift) (by omega : (count : Int) ≠ 0)
  have hhigh := Int.emod_lt_of_pos (node - 1 + shift) (by omega : (0 : Int) < count)
  rw [mem_processIds, placed]
  omega

theorem placed_zero (hnode : node ∈ processIds count) : placed count node 0 = node := by
  rw [mem_processIds] at hnode
  rw [placed, Int.add_zero, Int.emod_eq_of_lt (by omega) (by omega), Int.sub_add_cancel]

theorem placed_placed (count : Nat) (node shift more : Int) :
    placed count (placed count node shift) more = placed count node (shift + more) := by
  rw [placed, placed, placed, Int.add_sub_cancel, Int.emod_add_emod, Int.add_assoc]

theorem placed_add_count (count : Nat) (node shift : Int) :
    placed count node (shift + count) = placed count node shift := by
  rw [placed, placed, ← Int.add_assoc, Int.add_emod_right]

/-- Two places are the same only if they lie a whole ring apart. -/
theorem eq_of_placed_eq {shift other : Int} (h : placed count node shift = placed count node other)
    (hnear : (shift - other).natAbs < count) : shift = other := by
  have hmod : (node - 1 + shift) % count = (node - 1 + other) % count := by
    rw [placed, placed] at h
    omega
  have hdvd : (count : Int) ∣ shift - other := by
    have hzero := Int.emod_eq_emod_iff_emod_sub_eq_zero.mp hmod
    rw [Int.add_sub_add_left] at hzero
    exact Int.dvd_of_emod_eq_zero hzero
  exact Int.sub_eq_zero.mp (Int.eq_zero_of_dvd_of_natAbs_lt_natAbs hdvd hnear)

/-- Every node lies at some place of the ring. -/
theorem exists_placed (hnode : node ∈ processIds count) {other : Int}
    (hother : other ∈ processIds count) (hne : other ≠ node) :
    ∃ ahead : Int, 0 < ahead ∧ ahead < count ∧ other = placed count node ahead := by
  rw [mem_processIds] at hnode hother
  rcases lt_or_gt_of_ne hne with hbehind | hahead
  · refine ⟨other - node + count, by omega, by omega, ?_⟩
    rw [placed_add_count, placed, Int.emod_eq_of_lt (by omega) (by omega)]
    omega
  · refine ⟨other - node, by omega, by omega, ?_⟩
    rw [placed, Int.emod_eq_of_lt (by omega) (by omega)]
    omega

/-! ## Positions in the order of their distance -/

theorem turn_injective : Function.Injective turn := by
  intro k other h
  rw [turn, turn] at h
  split_ifs at h <;> omega

/-- As long as not all nodes have been met, the positions are less than a whole ring
apart. -/
theorem natAbs_turn_sub_turn_lt {k other : Nat} (hk : k + 1 < count) (hother : other + 1 < count) :
    (turn k - turn other).natAbs < count := by
  rw [turn, turn]
  split_ifs <;> omega

theorem eq_of_placed_turn_eq {k other : Nat} (hk : k + 1 < count) (hother : other + 1 < count)
    (h : placed count node (turn k) = placed count node (turn other)) : k = other :=
  turn_injective (eq_of_placed_eq h (natAbs_turn_sub_turn_lt hk hother))

theorem placed_turn_ne (hnode : node ∈ processIds count) {k : Nat} (hk : k + 1 < count) :
    placed count node (turn k) ≠ node := by
  intro h
  rw [← placed_zero hnode, placed_placed, Int.zero_add] at h
  have hzero : turn k = 0 := by
    refine eq_of_placed_eq h ?_
    rw [turn]
    split_ifs <;> omega
  rw [turn] at hzero
  split_ifs at hzero <;> omega

/-- Every other node is met at one of the positions before they repeat. -/
theorem exists_placed_turn (hnode : node ∈ processIds count) {other : Int}
    (hother : other ∈ processIds count) (hne : other ≠ node) :
    ∃ k, k + 1 < count ∧ other = placed count node (turn k) := by
  obtain ⟨ahead, hlow, hhigh, rfl⟩ := exists_placed hnode hother hne
  by_cases hnear : 2 * ahead < count
  · refine ⟨(2 * ahead - 1).toNat, by omega, congrArg _ ?_⟩
    rw [turn]
    split_ifs <;> omega
  · refine ⟨(2 * (count - ahead) - 2).toNat, by omega, ?_⟩
    have hturn : ahead = turn (2 * (count - ahead) - 2).toNat + count := by
      rw [turn]
      split_ifs <;> omega
    rw [← placed_add_count count node (turn _), ← hturn]

/-- The nearest positions to a node, in the order in which they are met. -/
def nearest (count : Nat) (node : Int) (degree : Nat) : List Int :=
  (List.range degree).map fun k => placed count node (turn k)

theorem nearest_succ (count : Nat) (node : Int) (degree : Nat) :
    nearest count node (degree + 1) =
      nearest count node degree ++ [placed count node (turn degree)] := by
  rw [nearest, nearest, List.range_succ, List.map_append, List.map_singleton]

@[simp]
theorem length_nearest (count : Nat) (node : Int) (degree : Nat) :
    (nearest count node degree).length = degree := by
  rw [nearest, List.length_map, List.length_range]

theorem mem_nearest {id : Int} :
    id ∈ nearest count node degree ↔ ∃ k < degree, id = placed count node (turn k) := by
  simp only [nearest, List.mem_map, List.mem_range, eq_comm]

theorem nodup_nearest (node : Int) (hdegree : degree < count) :
    (nearest count node degree).Nodup := by
  refine List.Nodup.map_on (fun k hk other hother h => ?_) List.nodup_range
  rw [List.mem_range] at hk hother
  exact eq_of_placed_turn_eq (by omega) (by omega) h

theorem not_mem_nearest (hdegree : degree + 1 < count) :
    placed count node (turn degree) ∉ nearest count node degree := by
  intro h
  obtain ⟨k, hk, hplace⟩ := mem_nearest.mp h
  have := eq_of_placed_turn_eq hdegree (by omega) hplace
  omega

theorem ne_of_mem_nearest (hdegree : degree < count) (hnode : node ∈ processIds count) {id : Int}
    (hid : id ∈ nearest count node degree) : id ≠ node := by
  obtain ⟨k, hk, rfl⟩ := mem_nearest.mp hid
  exact placed_turn_ne hnode (by omega)

/-! ## What is looked up -/

theorem placed_behind (count : Nat) (node : Int) (offset : Nat) :
    Int.emod (node - 1 - (offset + 1)) count + 1 = placed count node (turn (2 * offset)) := by
  have hturn : turn (2 * offset) = -(offset + 1) := by
    rw [turn, if_pos (by omega)]
    omega
  rw [placed, hturn, ← Int.sub_eq_add_neg]
  rfl

theorem placed_ahead (count : Nat) (node : Int) (offset : Nat) :
    Int.emod (node - 1 + (offset + 1)) count + 1 = placed count node (turn (2 * offset + 1)) := by
  have hturn : turn (2 * offset + 1) = offset + 1 := by
    rw [turn, if_neg (by omega)]
    omega
  rw [placed, hturn]
  rfl

theorem ringPositions_eq_nearest (count : Nat) (node : Int) (reach : Nat) :
    ringPositions node count reach = nearest count node (2 * reach) := by
  induction reach with
  | zero => rfl
  | succ reach ih =>
      rw [ringPositions, List.range_succ, List.flatMap_append, ← ringPositions, ih,
        List.flatMap_singleton, Nat.mul_succ, nearest_succ, nearest_succ, List.append_assoc]
      dsimp only
      rw [placed_behind, placed_ahead]
      rfl

/-- What is looked up are the nearest positions. -/
theorem nearestPositions_eq_nearest (hdegree : degree < count) (hnode : node ∈ processIds count) :
    nearestPositions node count degree = nearest count node degree := by
  obtain ⟨further, hpositions⟩ : ∃ further,
      ringPositions node count ((degree + 1) / 2) = nearest count node degree ++ further := by
    have hcover : 2 * ((degree + 1) / 2) = degree + degree % 2 := by omega
    rw [ringPositions_eq_nearest, hcover, nearest, List.range_add, List.map_append]
    exact ⟨_, rfl⟩
  have hothers : (nearest count node degree).filter (· != node) = nearest count node degree :=
    List.filter_eq_self.mpr fun id hid => bne_iff_ne.mpr (ne_of_mem_nearest hdegree hnode hid)
  rw [nearestPositions, hpositions, List.filter_append, hothers, List.eraseDups_append,
    eraseDups_of_nodup (nodup_nearest node hdegree),
    List.take_left' (length_nearest count node degree)]

/-! ## The search along the ring -/

/-- What a search makes of a position: it takes it up unless it has it already, it is
the node's own, or enough are found. -/
def takeUp (node : Int) (degree : Nat) (found : List Int) (position : Int) : List Int :=
  if position ∉ found ∧ position ≠ node ∧ found.length < degree then found ++ [position]
  else found

/-- The two positions at an offset, the one behind first. -/
def takeUpPair (count : Nat) (node : Int) (degree offset : Nat) (found : List Int) : List Int :=
  takeUp node degree (takeUp node degree found (Int.emod (node - 1 - offset) count + 1))
    (Int.emod (node - 1 + offset) count + 1)

/-- A search along the ring that ends: as long as it has found too few positions, it
goes one step further. -/
inductive Gathers (count : Nat) (node : Int) (degree : Nat) : Nat → List Int → List Int → Prop
  | enough {offset : Nat} {found : List Int} (henough : degree ≤ found.length) :
      Gathers count node degree offset found found
  | further {offset : Nat} {found result : List Int} (hfew : found.length < degree)
      (hrest : Gathers count node degree (offset + 1) (takeUpPair count node degree offset found)
        result) :
      Gathers count node degree offset found result

theorem Gathers.unique {offset : Nat} {found result other : List Int}
    (h : Gathers count node degree offset found result)
    (h' : Gathers count node degree offset found other) : other = result := by
  induction h with
  | enough henough =>
      cases h' with
      | enough => rfl
      | further hfew => omega
  | further hfew _ ih =>
      cases h' with
      | enough henough => omega
      | further _ hrest => exact ih hrest

/-- A search that has met the first positions has found them, up to the degree. -/
theorem takeUp_nearest (hdegree : degree < count) (hnode : node ∈ processIds count) (met : Nat) :
    takeUp node degree (nearest count node (min degree met)) (placed count node (turn met)) =
      nearest count node (min degree (met + 1)) := by
  by_cases hfew : met < degree
  · have hkept : min degree met = met := by omega
    have hmore : min degree (met + 1) = met + 1 := by omega
    rw [hkept, hmore, nearest_succ, takeUp, if_pos]
    exact ⟨not_mem_nearest (by omega), placed_turn_ne hnode (by omega),
      by rw [length_nearest]; exact hfew⟩
  · have hfull : min degree met = degree := by omega
    have hstill : min degree (met + 1) = degree := by omega
    rw [hfull, hstill, takeUp, if_neg]
    rw [length_nearest]
    omega

theorem takeUpPair_nearest (hdegree : degree < count) (hnode : node ∈ processIds count)
    (offset : Nat) :
    takeUpPair count node degree (offset + 1) (nearest count node (min degree (2 * offset))) =
      nearest count node (min degree (2 * (offset + 1))) := by
  rw [takeUpPair, Nat.cast_succ, placed_behind, placed_ahead, takeUp_nearest hdegree hnode,
    takeUp_nearest hdegree hnode]
  rfl

/-- The search ends since every step meets new positions, and it finds the nearest
ones. -/
theorem gathers_nearest (hdegree : degree < count) (hnode : node ∈ processIds count) :
    Gathers count node degree 1 [] (nearest count node degree) := by
  have hfrom : ∀ left offset, degree ≤ 2 * (offset + left) →
      Gathers count node degree (offset + 1) (nearest count node (min degree (2 * offset)))
        (nearest count node degree) := by
    intro left
    induction left with
    | zero =>
        intro offset hend
        rw [Nat.add_zero] at hend
        rw [Nat.min_eq_left hend]
        exact .enough (by rw [length_nearest])
    | succ left ih =>
        intro offset hend
        by_cases henough : degree ≤ 2 * offset
        · rw [Nat.min_eq_left henough]
          exact .enough (by rw [length_nearest])
        · refine .further (by rw [length_nearest]; omega) ?_
          rw [takeUpPair_nearest hdegree hnode]
          exact ih (offset + 1) (by omega)
  have hall := hfrom degree 0 (by omega)
  rwa [Nat.mul_zero, Nat.min_zero] at hall

/-! ## Distances on a ring -/

/-- The number of steps between two nodes of a ring, the shorter way round. -/
def ringDistance (count : Nat) (node other : Int) : Int :=
  min ((node - other) % count) ((other - node) % count)

/-- A node comes before another one if it is nearer, or as near and behind. -/
def ComesBefore (count : Nat) (node first second : Int) : Prop :=
  ringDistance count node first < ringDistance count node second ∨
    ringDistance count node first = ringDistance count node second ∧
      (node - first) % count = ringDistance count node first

theorem sub_placed_emod (count : Nat) (node shift : Int) :
    (node - placed count node shift) % count = -shift % count := by
  have hsub : node - placed count node shift = node - 1 - (node - 1 + shift) % count := by
    rw [placed]
    omega
  have hshift : node - 1 - (node - 1 + shift) = -shift := by omega
  rw [hsub, Int.sub_emod_emod, hshift]

theorem placed_sub_emod (count : Nat) (node shift : Int) :
    (placed count node shift - node) % count = shift % count := by
  have hsub : placed count node shift - node = (node - 1 + shift) % count - (node - 1) := by
    rw [placed]
    omega
  have hshift : node - 1 + shift - (node - 1) = shift := by omega
  rw [hsub, Int.emod_sub_emod, hshift]

theorem neg_emod_of_lt {shift : Int} (hlow : 0 < shift) (hhigh : shift < count) :
    -shift % (count : Int) = count - shift := by
  rw [← Int.add_emod_right, Int.emod_eq_of_lt (by omega) (by omega)]
  omega

/-- The positions come in pairs at one distance, and the one behind comes first. -/
theorem distance_turn (node : Int) {k : Nat} (hk : k + 1 < count) :
    ringDistance count node (placed count node (turn k)) = k / 2 + 1 ∧
      (k % 2 = 0 → (node - placed count node (turn k)) % count = k / 2 + 1) := by
  have hlow : (0 : Int) < k / 2 + 1 := by omega
  have hhigh : (k / 2 + 1 : Int) < count := by omega
  rw [ringDistance, sub_placed_emod, placed_sub_emod, turn]
  split_ifs with hbehind
  · rw [Int.neg_neg, neg_emod_of_lt hlow hhigh, Int.emod_eq_of_lt (by omega) hhigh]
    omega
  · rw [neg_emod_of_lt hlow hhigh, Int.emod_eq_of_lt (by omega) hhigh]
    omega

theorem comesBefore_of_lt {k other : Nat} (hk : k < other) (hother : other + 1 < count) :
    ComesBefore count node (placed count node (turn k)) (placed count node (turn other)) := by
  obtain ⟨hdistance, hbehind⟩ := distance_turn node (by omega : k + 1 < count)
  obtain ⟨hdistance', _⟩ := distance_turn node hother
  rw [ComesBefore, hdistance, hdistance']
  by_cases hpair : k / 2 = other / 2
  · exact .inr ⟨by omega, hbehind (by omega)⟩
  · exact .inl (by omega)

/-! ## Neighbours -/

/-- Some of the other nodes, as many as the degree, such that each of them comes before
all that are left out. -/
structure IsNearest (count degree : Nat) (node : Int) (ids : List Int) : Prop where
  nodup : ids.Nodup
  length : ids.length = degree
  others : ∀ id ∈ ids, id ∈ processIds count ∧ id ≠ node
  before : ∀ id ∈ ids, ∀ other ∈ processIds count, other ≠ node → other ∉ ids →
    ComesBefore count node id other

theorem isNearest_nearest (hdegree : degree < count) (hnode : node ∈ processIds count) :
    IsNearest count degree node (nearest count node degree) := by
  refine ⟨nodup_nearest node hdegree, length_nearest count node degree, ?_, ?_⟩
  · intro id hid
    refine ⟨?_, ne_of_mem_nearest hdegree hnode hid⟩
    obtain ⟨k, _, rfl⟩ := mem_nearest.mp hid
    exact placed_mem (by omega) node (turn k)
  · intro id hid other hother hne hleft
    obtain ⟨k, hk, rfl⟩ := mem_nearest.mp hid
    obtain ⟨k', hk', rfl⟩ := exists_placed_turn hnode hother hne
    have hlater : degree ≤ k' := by
      by_contra hless
      exact hleft (mem_nearest.mpr ⟨k', by omega, rfl⟩)
    exact comesBefore_of_lt (by omega) hk'

theorem IsNearest.perm {ids ids' : List Int} (h : IsNearest count degree node ids)
    (hperm : ids'.Perm ids) : IsNearest count degree node ids' := by
  refine ⟨hperm.nodup_iff.mpr h.nodup, hperm.length_eq.trans h.length, ?_, ?_⟩
  · intro id hid
    exact h.others id (hperm.mem_iff.mp hid)
  · intro id hid other hother hne hleft
    exact h.before id (hperm.mem_iff.mp hid) other hother hne fun hmem =>
      hleft (hperm.mem_iff.mpr hmem)

theorem asSet_perm {ids : List Int} (h : ids.Nodup) : (asSet ids).Perm ids :=
  (List.perm_ext_iff_of_nodup (nodup_asSet ids) h).mpr fun _ => mem_asSet

theorem neighbors_circulant (hdegree : degree < count) (hnode : node ∈ processIds count) :
    (circulant degree : Topology R).neighbors node count =
      .ok (asSet (nearest count node degree)) := by
  rw [neighbors, if_neg (by omega), Int.toNat_natCast, nearestPositions_eq_nearest hdegree hnode]

theorem edge_circulant_iff (hdegree : degree < count) (hnode : node ∈ processIds count)
    {next : Int} : (circulant degree : Topology R).Edge count node next ↔
      ∃ k < degree, next = placed count node (turn k) := by
  rw [edge_iff (neighbors_circulant hdegree hnode), mem_asSet, mem_nearest]

/-- Seen from the other end, a place lies as far in the other direction. -/
theorem eq_placed_comm {other shift : Int} (hnode : node ∈ processIds count)
    (hother : other ∈ processIds count) :
    other = placed count node shift ↔ node = placed count other (-shift) := by
  constructor
  · rintro rfl
    rw [placed_placed, Int.add_right_neg, placed_zero hnode]
  · intro h
    rw [h, placed_placed, Int.add_left_neg, placed_zero hother]

/-- The nodes that have a node among their neighbours. -/
def sources (count : Nat) (node : Int) (degree : Nat) : List Int :=
  (List.range degree).map fun k => placed count node (-turn k)

theorem nodup_sources (hdegree : degree < count) : (sources count node degree).Nodup := by
  refine List.Nodup.map_on (fun k hk other hother h => ?_) List.nodup_range
  rw [List.mem_range] at hk hother
  refine turn_injective (Int.neg_inj.mp (eq_of_placed_eq h ?_))
  have hnear := natAbs_turn_sub_turn_lt (by omega : k + 1 < count) (by omega : other + 1 < count)
  omega

theorem mem_sources_iff (hdegree : degree < count) (hnode : node ∈ processIds count)
    {source : Int} : source ∈ sources count node degree ↔
      source ∈ processIds count ∧ (circulant degree : Topology R).Edge count source node := by
  simp only [sources, List.mem_map, List.mem_range]
  constructor
  · rintro ⟨k, hk, rfl⟩
    have hsource := placed_mem (by omega : 0 < count) node (-turn k)
    exact ⟨hsource, (edge_circulant_iff hdegree hsource).mpr
      ⟨k, hk, (eq_placed_comm hsource hnode).mpr rfl⟩⟩
  · rintro ⟨hsource, hedge⟩
    obtain ⟨k, hk, hplace⟩ := (edge_circulant_iff hdegree hsource).mp hedge
    exact ⟨k, hk, ((eq_placed_comm hsource hnode).mp hplace).symm⟩

/-! ## Symmetry -/

/-- Among an even number of positions each has one that lies as far in the other
direction. -/
theorem exists_turn_eq_neg (heven : degree % 2 = 0) {k : Nat} (hk : k < degree) :
    ∃ other < degree, turn other = -turn k := by
  by_cases hbehind : k % 2 = 0
  · refine ⟨k + 1, by omega, ?_⟩
    rw [turn, turn]
    split_ifs <;> omega
  · refine ⟨k - 1, by omega, ?_⟩
    rw [turn, turn]
    split_ifs <;> omega

/-- Among an odd number of them the last one has none, unless all nodes are met. -/
theorem placed_neg_turn_ne (hodd : degree % 2 = 1) (hdegree : degree + 1 < count) {k : Nat}
    (hk : k < degree) : placed count node (-turn (degree - 1)) ≠ placed count node (turn k) := by
  intro h
  have hturn := eq_of_placed_eq h (by
    rw [turn, turn]
    split_ifs <;> omega)
  rw [turn, turn] at hturn
  split_ifs at hturn <;> omega

theorem edge_circulant_symm (hdegree : degree < count)
    (hpaired : degree % 2 = 0 ∨ degree + 1 = count) {first second : Int}
    (hfirst : first ∈ processIds count) (hsecond : second ∈ processIds count)
    (h : (circulant degree : Topology R).Edge count first second) :
    (circulant degree : Topology R).Edge count second first := by
  obtain ⟨k, hk, hplace⟩ := (edge_circulant_iff hdegree hfirst).mp h
  rw [edge_circulant_iff hdegree hsecond]
  rcases hpaired with heven | hall
  · obtain ⟨other, hother, hturn⟩ := exists_turn_eq_neg heven hk
    exact ⟨other, hother, hturn ▸ (eq_placed_comm hfirst hsecond).mp hplace⟩
  · have hne : first ≠ second := fun heq =>
      placed_turn_ne hfirst (by omega : k + 1 < count) (hplace.symm.trans heq.symm)
    obtain ⟨other, hother, hplace'⟩ := exists_placed_turn hsecond hfirst hne
    exact ⟨other, by omega, hplace'⟩

theorem symmetric_circulant_iff (hdegree : degree < count) :
    (∀ first ∈ processIds count, ∀ second ∈ processIds count,
      (circulant degree : Topology R).Edge count first second ↔
        (circulant degree : Topology R).Edge count second first) ↔
      degree % 2 = 0 ∨ degree + 1 = count := by
  constructor
  · intro hsymmetric
    by_contra hunpaired
    obtain ⟨hodd, hmore⟩ : degree % 2 = 1 ∧ degree + 1 < count := by omega
    -- The last position is behind, and nothing at its distance is ahead.
    have hone : (1 : Int) ∈ processIds count := mem_processIds.mpr (by omega)
    have hlast := placed_mem (by omega : 0 < count) 1 (turn (degree - 1))
    have hedge : (circulant degree : Topology R).Edge count 1
        (placed count 1 (turn (degree - 1))) :=
      (edge_circulant_iff hdegree hone).mpr ⟨degree - 1, by omega, rfl⟩
    obtain ⟨k, hk, hplace⟩ :=
      (edge_circulant_iff hdegree hlast).mp ((hsymmetric 1 hone _ hlast).mp hedge)
    have hback := (eq_placed_comm hone hlast).mp rfl
    exact placed_neg_turn_ne hodd hmore hk (hback.symm.trans hplace)
  · intro hpaired first hfirst second hsecond
    exact ⟨edge_circulant_symm hdegree hpaired hfirst hsecond,
      edge_circulant_symm hdegree hpaired hsecond hfirst⟩

/-- The search along the ring ends, in one way only, and gives each node as many others
as the degree says: the nearest ones, and of two that are equally near the one behind.
As many nodes have the node among their neighbours.  The links go both ways exactly if
the degree is even or all nodes are linked. -/
theorem circulant_links_nearest_nodes {count degree : Nat} (hdegree : degree < count) :
    (∀ node ∈ processIds count,
      (∃ found ids, Gathers count node degree 1 [] found ∧
        (∀ other, Gathers count node degree 1 [] other → other = found) ∧
        (circulant degree : Topology R).neighbors node count = .ok ids ∧ ids.Perm found ∧
        IsNearest count degree node ids) ∧
      ∃ sources : List Int, sources.Nodup ∧ sources.length = degree ∧
        ∀ source, source ∈ sources ↔ source ∈ processIds count ∧
          (circulant degree : Topology R).Edge count source node) ∧
    ((∀ first ∈ processIds count, ∀ second ∈ processIds count,
      (circulant degree : Topology R).Edge count first second ↔
        (circulant degree : Topology R).Edge count second first) ↔
      Even degree ∨ degree = count - 1) := by
  refine ⟨fun node hnode => ⟨?_, ?_⟩, ?_⟩
  · have hfound := gathers_nearest hdegree hnode
    have hperm := asSet_perm (nodup_nearest node hdegree)
    exact ⟨nearest count node degree, _, hfound, fun _ hother => hfound.unique hother,
      neighbors_circulant hdegree hnode, hperm, (isNearest_nearest hdegree hnode).perm hperm⟩
  · refine ⟨sources count node degree, nodup_sources hdegree, ?_,
      fun source => mem_sources_iff hdegree hnode⟩
    rw [sources, List.length_map, List.length_range]
  · rw [symmetric_circulant_iff hdegree, Nat.even_iff]
    omega

/-- In a ring of eight each node has both nodes beside it and a third one behind it, and
the link to the third one does not go back. -/
theorem threeOfEight_links_nearest_nodes :
    3 < 8 ∧ (circulant (3 : Nat) : Topology Float).neighbors 1 (8 : Nat) = .ok [2, 7, 8] ∧
    IsNearest 8 3 1 [2, 7, 8] ∧
    (∃ found, Gathers 8 1 3 1 [] found ∧ [2, 7, 8].Perm found) ∧
    (∃ sources : List Int, sources.Nodup ∧ sources.length = 3 ∧
      ∀ source, source ∈ sources ↔
        source ∈ processIds 8 ∧ (circulant (3 : Nat) : Topology Float).Edge 8 source 1) ∧
    ¬ ∀ first ∈ processIds 8, ∀ second ∈ processIds 8,
      (circulant (3 : Nat) : Topology Float).Edge 8 first second ↔
        (circulant (3 : Nat) : Topology Float).Edge 8 second first := by
  have hids : (circulant (3 : Nat) : Topology Float).neighbors 1 (8 : Nat) = .ok [2, 7, 8] := by
    decide
  obtain ⟨hnodes, hsymmetric⟩ :=
    circulant_links_nearest_nodes (R := Float) (by decide : 3 < 8)
  obtain ⟨⟨found, ids, hfound, _, hneighbors, hperm, hnearest⟩, hsources⟩ :=
    hnodes 1 (by decide)
  obtain rfl : [2, 7, 8] = ids := Except.ok.inj (hids.symm.trans hneighbors)
  refine ⟨by decide, hids, hnearest, ⟨found, hfound, hperm⟩, hsources, ?_⟩
  rw [hsymmetric]
  decide

end Topology

end LossyConsensus.Network
