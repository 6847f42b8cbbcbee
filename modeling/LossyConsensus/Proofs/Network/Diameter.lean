/-
# Diameters as distances

The diameter of a graph is the greatest distance between two processes, and the
distance from one to another is the length of a shortest path.  What a search states
is this number, in every graph whose edges stay among the processes; it states -1 in
those graphs in which some process has no path to another one.  A survey with a queue
ends with the same number.

The complete graph, the ring, the star and the grid do not search.  What they state
is what a search would have stated.
-/

import LossyConsensus.Proofs.Network.Queue
import Mathlib.Order.Bounds.Basic

namespace LossyConsensus.Network

/-! ## Paths -/

/-- A path from one node to another, as the nodes that it goes through after the first
one. -/
def IsPath (edge : Int → Int → Prop) : Int → Int → List Int → Prop
  | first, last, [] => first = last
  | first, last, next :: path => edge first next ∧ IsPath edge next last path

/-- The distance from one node to another is the length of a shortest path. -/
def IsDistance (edge : Int → Int → Prop) (first last : Int) (distance : Nat) : Prop :=
  IsLeast {length | ∃ path, IsPath edge first last path ∧ path.length = length} distance

/-- The distances between processes, each with itself as well. -/
def distances (edge : Int → Int → Prop) (count : Nat) : Set Nat :=
  {distance | ∃ first ∈ processIds count, ∃ last ∈ processIds count,
    IsDistance edge first last distance}

/-- Some process has no path to another one. -/
def HasGap (edge : Int → Int → Prop) (count : Nat) : Prop :=
  ∃ first ∈ processIds count, ∃ last ∈ processIds count, ∀ path, ¬ IsPath edge first last path

variable {edge : Int → Int → Prop} {count steps : Nat} {first last next : Int}

theorem IsPath.append {path : List Int} (h : IsPath edge first last path)
    (hedge : edge last next) : IsPath edge first next (path ++ [next]) := by
  induction path generalizing first with
  | nil =>
      obtain rfl : first = last := h
      exact ⟨hedge, rfl⟩
  | cons other path ih => exact ⟨h.1, ih h.2⟩

theorem IsPath.within {path : List Int} (h : IsPath edge first last path) :
    Within edge path.length first last := by
  induction path generalizing first with
  | nil =>
      obtain rfl : first = last := h
      exact .here 0 first
  | cons other path ih => exact .cons h.1 (ih h.2)

/-- Walks of at most so many edges are paths of at most this length. -/
theorem within_iff_exists_path :
    Within edge steps first last ↔ ∃ path, IsPath edge first last path ∧ path.length ≤ steps := by
  constructor
  · intro h
    induction h with
    | here steps node => exact ⟨[], rfl, Nat.zero_le steps⟩
    | step _ hedge ih =>
        obtain ⟨path, hpath, hlength⟩ := ih
        refine ⟨path ++ [_], hpath.append hedge, ?_⟩
        rw [List.length_append, List.length_singleton]
        exact Nat.succ_le_succ hlength
  · rintro ⟨path, hpath, hlength⟩
    exact hpath.within.mono hlength

theorem hasGap_iff_isSplit : HasGap edge count ↔ IsSplit edge count := by
  have hnone : ∀ first last, (∀ path, ¬ IsPath edge first last path) ↔
      ∀ steps, ¬ Within edge steps first last := by
    intro first last
    constructor
    · intro h steps hwalk
      obtain ⟨path, hpath, _⟩ := within_iff_exists_path.mp hwalk
      exact h path hpath
    · exact fun h path hpath => h path.length hpath.within
  simp only [HasGap, IsSplit, hnone]

theorem IsDiameter.not_hasGap {distance : Nat} (h : IsDiameter edge count distance) :
    ¬ HasGap edge count := by
  rintro ⟨first, hfirst, last, hlast, hnone⟩
  obtain ⟨path, hpath, _⟩ := within_iff_exists_path.mp (h.1 first hfirst last hlast)
  exact hnone path hpath

/-- What suffices for every two processes, and not less for some, is the greatest of
their distances. -/
theorem IsDiameter.isGreatest {distance : Nat} (h : IsDiameter edge count distance) :
    IsGreatest (distances edge count) distance := by
  obtain ⟨hall, first, hfirst, last, hlast, hfar⟩ := h
  constructor
  · have hleast : ∀ path, IsPath edge first last path → distance ≤ path.length := by
      intro path hpath
      by_contra hless
      exact hfar path.length (by omega) hpath.within
    obtain ⟨path, hpath, hlength⟩ := within_iff_exists_path.mp (hall first hfirst last hlast)
    refine ⟨first, hfirst, last, hlast, ⟨path, hpath, ?_⟩, ?_⟩
    · exact Nat.le_antisymm hlength (hleast path hpath)
    · rintro _ ⟨other, hother, rfl⟩
      exact hleast other hother
  · rintro other ⟨first, hfirst, last, hlast, hdistance⟩
    obtain ⟨path, hpath, hlength⟩ := within_iff_exists_path.mp (hall first hfirst last hlast)
    exact (hdistance.2 ⟨path, hpath, rfl⟩).trans hlength

/-! ## What a search finds -/

/-- A result that is the greatest distance between processes, or -1 exactly if some
process has no path to another one. -/
def IsGreatestDistance {ε : Type} (edge : Int → Int → Prop) (count : Nat)
    (result : Except ε Int) : Prop :=
  ∃ stated, result = .ok stated ∧ (stated = -1 ↔ HasGap edge count) ∧
    (¬ HasGap edge count →
      ∃ distance : Nat, stated = distance ∧ IsGreatest (distances edge count) distance)

/-- A result with which a survey with a queue ends, and in no other way. -/
def IsSurveyed {ε : Type} (neighbors : Int → Except ε (List Int)) (count : Nat)
    (result : Except ε Int) : Prop :=
  ∃ stated, result = .ok stated ∧ Surveys neighbors count (processIds count) 0 stated ∧
    ∀ other, Surveys neighbors count (processIds count) 0 other → other = stated

theorem isSurveyed {ε : Type} {neighbors : Int → Except ε (List Int)}
    (hinhabits : Inhabits neighbors count) (hcount : 0 < count) {stated : Int}
    (h : searchedDiameter neighbors count = .ok stated) :
    IsSurveyed neighbors count (searchedDiameter neighbors count) := by
  have hsurveys := surveys_of_searchedDiameter hinhabits hcount h
  exact ⟨stated, h, hsurveys, fun _ hother => hsurveys.unique hother⟩

namespace Topology

theorem States.isGreatestDistance {ε : Type} {result : Except ε Int} {stated : Int}
    (hresult : result = .ok stated) (h : States edge count stated) :
    IsGreatestDistance edge count result := by
  refine ⟨stated, hresult, ?_⟩
  rcases h with ⟨distance, rfl, hdiameter⟩ | ⟨rfl, hsplit⟩
  · refine ⟨⟨fun hnegative => by omega, fun hgap => absurd hgap hdiameter.not_hasGap⟩, ?_⟩
    exact fun _ => ⟨distance, rfl, hdiameter.isGreatest⟩
  · have hgap := hasGap_iff_isSplit.mpr hsplit
    exact ⟨⟨fun _ => hgap, fun _ => rfl⟩, fun hnone => absurd hgap hnone⟩

/-- A graph has one diameter at most. -/
theorem States.unique {stated other : Int} (h : States edge count stated)
    (h' : States edge count other) : stated = other := by
  rcases h with ⟨distance, rfl, hdiameter⟩ | ⟨rfl, hsplit⟩
  · rcases h' with ⟨distance', rfl, hdiameter'⟩ | ⟨rfl, hsplit⟩
    · exact congrArg _ (hdiameter.isGreatest.unique hdiameter'.isGreatest)
    · exact absurd (hasGap_iff_isSplit.mpr hsplit) hdiameter.not_hasGap
  · rcases h' with ⟨distance', rfl, hdiameter'⟩ | ⟨rfl, _⟩
    · exact absurd (hasGap_iff_isSplit.mpr hsplit) hdiameter'.not_hasGap
    · rfl

variable {R : Type} [Scalar R] {topology : Topology R}

/-- The topologies that have no formula for their diameter. -/
def IsSearched : Topology R → Prop
  | .random .. | .circulant .. | .bipartite .. | .custom .. => True
  | .complete | .ring | .star | .grid .. => False

theorem diameter_eq_searchedDiameter (h : topology.IsSearched) (count : Nat) :
    topology.diameter count =
      searchedDiameter (fun node => topology.neighbors node count) count := by
  cases topology with
  | random => rfl
  | circulant => rfl
  | bipartite => rfl
  | custom => rfl
  | complete => cases h
  | ring => cases h
  | star => cases h
  | grid => cases h

/-- A search states the greatest distance between two processes, and -1 exactly if one
of them has no path to another; and a survey with a queue ends, in one way only, with
the number stated.  So it is in every graph whose edges stay among the processes, and
such graphs are those of all topologies that are searched. -/
theorem search_states_greatest_distance (hcount : 0 < count) :
    (∀ {ε : Type} (neighbors : Int → Except ε (List Int)), Inhabits neighbors count →
      IsSurveyed neighbors count (searchedDiameter neighbors count) ∧
        IsGreatestDistance (Links neighbors) count (searchedDiameter neighbors count)) ∧
    ∀ topology : Topology R, topology.IsMade → topology.IsSearched → topology.Fits count →
      Inhabits (fun node => topology.neighbors node count) count ∧
        IsSurveyed (fun node => topology.neighbors node count) count (topology.diameter count) ∧
        IsGreatestDistance (topology.Edge count) count (topology.diameter count) := by
  have hsearch : ∀ {ε : Type} (neighbors : Int → Except ε (List Int)), Inhabits neighbors count →
      IsSurveyed neighbors count (searchedDiameter neighbors count) ∧
        IsGreatestDistance (Links neighbors) count (searchedDiameter neighbors count) := by
    intro ε neighbors hinhabits
    obtain ⟨stated, hstated, hspec⟩ := exists_searchedDiameter hinhabits hcount
    exact ⟨isSurveyed hinhabits hcount hstated, hspec.isGreatestDistance hstated⟩
  refine ⟨hsearch, fun topology hmade hsearched hfits => ?_⟩
  have hinhabits := inhabits hmade hcount hfits
  rw [diameter_eq_searchedDiameter hsearched]
  exact ⟨hinhabits, hsearch _ hinhabits⟩

/-- Around a ring of three processes that send backwards the greatest distance is two,
and along a line that leads forwards there is no way back. -/
theorem turningTriangle_and_line_searched :
    0 < 3 ∧ IsMade (circulant 1 : Topology Float) ∧
    (circulant 1 : Topology Float).diameter (3 : Nat) = .ok 2 ∧
    Surveys (fun node => (circulant 1 : Topology Float).neighbors node (3 : Nat)) 3
      (processIds 3) 0 2 ∧
    IsGreatest (distances ((circulant 1 : Topology Float).Edge 3) 3) 2 ∧
    ∃ line : Int → Except MatrixError (List Int), Inhabits line 3 ∧
      line 1 = .ok [2] ∧ line 3 = .ok [] ∧
      searchedDiameter line 3 = .ok (-1) ∧ Surveys line 3 (processIds 3) 0 (-1) ∧
      HasGap (Links line) 3 := by
  let line : Int → Except MatrixError (List Int) :=
    fun node => .ok (if node < 3 then [node + 1] else [])
  have hmake : ofCirculant 1 = .ok (circulant 1 : Topology Float) := rfl
  have hmade : IsMade (circulant 1 : Topology Float) := .circulant hmake
  have hfits : (circulant 1 : Topology Float).Fits 3 := by
    have hall : ∀ node ∈ processIds 3,
        ((circulant 1 : Topology Float).neighbors node (3 : Nat)).isOk = true := by decide
    exact fun node hnode => exists_eq_ok (hall node hnode)
  have hinhabits : Inhabits line 3 := by
    intro node hnode
    refine ⟨_, rfl, fun id hid => ?_⟩
    rw [mem_processIds] at hnode ⊢
    split at hid
    · rw [List.mem_singleton] at hid
      omega
    · cases hid
  have htwo : (circulant 1 : Topology Float).diameter (3 : Nat) = .ok 2 := by decide +kernel
  have hnone : searchedDiameter line 3 = .ok (-1) := by decide +kernel
  obtain ⟨hsearch, htopologies⟩ :=
    search_states_greatest_distance (R := Float) (by decide : 0 < 3)
  obtain ⟨_, ⟨surveyed, hsurveyed, htriangle, _⟩, stated, hstated, hgap, hgreatest⟩ :=
    htopologies _ hmade trivial hfits
  obtain rfl : surveyed = 2 := Except.ok.inj (hsurveyed.symm.trans htwo)
  obtain rfl : stated = 2 := Except.ok.inj (hstated.symm.trans htwo)
  obtain ⟨distance, hdistance, hgreatest⟩ := hgreatest fun h => absurd (hgap.mpr h) (by decide)
  obtain rfl : distance = 2 := by omega
  obtain ⟨⟨surveyed, hsurveyed, hline, _⟩, stated, hstated, hgap, _⟩ := hsearch line hinhabits
  obtain rfl : surveyed = -1 := Except.ok.inj (hsurveyed.symm.trans hnone)
  obtain rfl : stated = -1 := Except.ok.inj (hstated.symm.trans hnone)
  exact ⟨by decide, hmade, htwo, htriangle, hgreatest, line, hinhabits, rfl, rfl, hnone, hline,
    hgap.mp rfl⟩

/-! ## Formulas -/

/-- What a topology states as its diameter is what a search states for its graph, in
layers or with a queue. -/
def AgreesWithSearch (topology : Topology R) (count : Nat) : Prop :=
  ∃ stated, topology.diameter count = .ok stated ∧
    searchedDiameter (fun node => topology.neighbors node count) count = .ok stated ∧
    Surveys (fun node => topology.neighbors node count) count (processIds count) 0 stated

theorem agreesWithSearch (hmade : topology.IsMade) (hcount : 0 < count)
    (hfits : topology.Fits count) : topology.AgreesWithSearch count := by
  obtain ⟨stated, hstated, hspec⟩ := exists_diameter hmade hcount hfits
  have hinhabits := inhabits hmade hcount hfits
  obtain ⟨found, hfound, hspec'⟩ := exists_searchedDiameter hinhabits hcount
  obtain rfl := hspec'.unique hspec
  exact ⟨found, hstated, hfound, surveys_of_searchedDiameter hinhabits hcount hfound⟩

theorem fits_complete (count : Nat) : (complete : Topology R).Fits count :=
  fun _ _ => ⟨_, rfl⟩

theorem fits_ring (count : Nat) : (ring : Topology R).Fits count := by
  intro node _
  rw [neighbors]
  split
  · exact ⟨_, rfl⟩
  · exact ⟨_, rfl⟩

theorem fits_star (count : Nat) : (star : Topology R).Fits count :=
  fun _ _ => ⟨_, rfl⟩

theorem fits_grid {rows cols : Int} (hcount : rows * cols = count) :
    (grid rows cols : Topology R).Fits count := by
  intro node _
  rw [neighbors, if_neg (by simpa using hcount.symm)]
  exact ⟨_, rfl⟩

/-- The formulas for the diameters of the complete graph, the ring, the star and the
grid state what a search of the same graph states. -/
theorem formulas_agree_with_search (hcount : 0 < count) :
    (complete : Topology R).AgreesWithSearch count ∧ (ring : Topology R).AgreesWithSearch count ∧
    (star : Topology R).AgreesWithSearch count ∧
    ∀ (rows cols : Int) (topology : Topology R), ofGrid rows cols = .ok topology →
      rows * cols = count → topology.AgreesWithSearch count := by
  refine ⟨agreesWithSearch .complete hcount (fits_complete count),
    agreesWithSearch .ring hcount (fits_ring count),
    agreesWithSearch .star hcount (fits_star count), ?_⟩
  intro rows cols topology hmake hsize
  obtain ⟨rfl, _⟩ := of_ofGrid hmake
  exact agreesWithSearch (.grid hmake) hcount (fits_grid hsize)

/-- Among six processes a search goes one edge far in the complete graph, three in the
ring, two in the star, and three in a grid of two rows. -/
theorem six_agree_with_search :
    0 < 6 ∧ ofGrid 2 3 = .ok (grid 2 3 : Topology Float) ∧ (2 : Int) * 3 = (6 : Nat) ∧
    [(complete : Topology Float), ring, star, grid 2 3].map (fun topology =>
        searchedDiameter (fun node => topology.neighbors node (6 : Nat)) 6) =
      [.ok 1, .ok 3, .ok 2, .ok 3] := by
  have hmake : ofGrid 2 3 = .ok (grid 2 3 : Topology Float) := by decide
  obtain ⟨⟨_, hone, hcomplete, _⟩, ⟨_, hthree, hring, _⟩, ⟨_, htwo, hstar, _⟩, hgrid⟩ :=
    formulas_agree_with_search (R := Float) (by decide : 0 < 6)
  obtain ⟨_, hsum, hgrid, _⟩ := hgrid 2 3 _ hmake rfl
  obtain rfl := Except.ok.inj hone
  obtain rfl := Except.ok.inj hthree
  obtain rfl := Except.ok.inj htwo
  obtain rfl := Except.ok.inj hsum
  refine ⟨by decide, hmake, rfl, ?_⟩
  rw [List.map_cons, List.map_cons, List.map_cons, List.map_singleton, hcomplete, hring, hstar,
    hgrid]
  rfl

end Topology

end LossyConsensus.Network
