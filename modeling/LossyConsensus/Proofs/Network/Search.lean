/-
# The search for distances

A search from a node meets the other nodes in layers, and the layer with number
`k` holds those that `k` edges reach and fewer do not.  So the search ends with
the greatest distance from its start, and the greatest of these is the diameter
of the graph.
-/

import LossyConsensus.Network.Reach
import LossyConsensus.Proofs.Except
import LossyConsensus.Proofs.Network.Distance
import Mathlib.Data.List.Perm.Subperm

namespace LossyConsensus.Network

variable {ε : Type} {neighbors : Int → Except ε (List Int)} {count : Nat} {start : Int}

/-- The edges of a graph that is given by the neighbours of its nodes. -/
def Links (neighbors : Int → Except ε (List Int)) (node next : Int) : Prop :=
  ∃ ids, neighbors node = .ok ids ∧ next ∈ ids

/-- Every process has neighbours, and they are processes. -/
def Inhabits (neighbors : Int → Except ε (List Int)) (count : Nat) : Prop :=
  ∀ node ∈ processIds count, ∃ ids, neighbors node = .ok ids ∧ ∀ id ∈ ids, id ∈ processIds count

theorem Inhabits.mem_of_links (h : Inhabits neighbors count) {node next : Int}
    (hnode : node ∈ processIds count) (hlinks : Links neighbors node next) :
    next ∈ processIds count := by
  obtain ⟨ids, hids, hmem⟩ := h node hnode
  obtain ⟨ids', hids', hnext⟩ := hlinks
  obtain rfl : ids = ids' := Except.ok.inj (hids.symm.trans hids')
  exact hmem next hnext

/-- Walks do not leave the processes. -/
theorem Inhabits.mem_of_within (h : Inhabits neighbors count) {node next : Int} {steps : Nat}
    (hnode : node ∈ processIds count) (hwalk : Within (Links neighbors) steps node next) :
    next ∈ processIds count := by
  induction hwalk with
  | here => exact hnode
  | step _ hlinks ih => exact h.mem_of_links (ih hnode) hlinks

/-! ## One layer -/

theorem mem_meetAll_fst {nodes : List Int} {reached : Std.TreeSet Int} {layer : List Int}
    {node : Int} : node ∈ (meetAll nodes reached layer).1 ↔ node ∈ reached ∨ node ∈ nodes := by
  induction nodes generalizing reached layer with
  | nil => simp [meetAll]
  | cons next nodes ih =>
      rw [meetAll]
      split
      · next hknown =>
        rw [ih, List.mem_cons]
        constructor
        · exact Or.imp_right .inr
        · rintro (h | rfl | h)
          · exact .inl h
          · exact .inl (Std.TreeSet.contains_iff_mem.mp hknown)
          · exact .inr h
      · rw [ih, Std.TreeSet.mem_insert, Int.compare_eq_eq, List.mem_cons]
        constructor
        · rintro ((rfl | h) | h)
          · exact .inr (.inl rfl)
          · exact .inl h
          · exact .inr (.inr h)
        · rintro (h | rfl | h)
          · exact .inl (.inr h)
          · exact .inl (.inl rfl)
          · exact .inr h

theorem mem_meetAll_snd {nodes : List Int} {reached : Std.TreeSet Int} {layer : List Int}
    {node : Int} : node ∈ (meetAll nodes reached layer).2 ↔
      node ∈ layer ∨ node ∉ reached ∧ node ∈ nodes := by
  induction nodes generalizing reached layer with
  | nil => simp [meetAll]
  | cons next nodes ih =>
      rw [meetAll]
      split
      · next hknown =>
        rw [ih, List.mem_cons]
        refine or_congr_right (and_congr_right fun hfresh => (or_iff_right ?_).symm)
        rintro rfl
        exact hfresh (Std.TreeSet.contains_iff_mem.mp hknown)
      · next hfresh =>
        have hnew : next ∉ reached := fun h => hfresh (Std.TreeSet.contains_iff_mem.mpr h)
        rw [ih, Std.TreeSet.mem_insert, Int.compare_eq_eq, List.mem_cons, List.mem_cons]
        by_cases heq : node = next
        · subst heq
          simp [hnew]
        · simp [heq, Ne.symm heq]

theorem size_meetAll (nodes : List Int) (reached : Std.TreeSet Int) (layer : List Int) :
    (meetAll nodes reached layer).1.size + layer.length =
      reached.size + (meetAll nodes reached layer).2.length := by
  induction nodes generalizing reached layer with
  | nil => rfl
  | cons next nodes ih =>
      rw [meetAll]
      split
      · exact ih reached layer
      · next hfresh =>
        have hrest := ih (reached.insert next) (next :: layer)
        rw [Std.TreeSet.size_insert, if_neg hfresh, List.length_cons] at hrest
        omega

/-- The next layer holds what one edge from the frontier reaches and was not
reached before. -/
structure IsNextLayer (neighbors : Int → Except ε (List Int)) (frontier : List Int)
    (reached : Std.TreeSet Int) (layer : List Int) (reached' : Std.TreeSet Int)
    (layer' : List Int) : Prop where
  reachedIff : ∀ node, node ∈ reached' ↔
    node ∈ reached ∨ ∃ last ∈ frontier, Links neighbors last node
  layerIff : ∀ node, node ∈ layer' ↔
    node ∈ layer ∨ node ∉ reached ∧ ∃ last ∈ frontier, Links neighbors last node
  size : reached'.size + layer.length = reached.size + layer'.length

theorem exists_nextLayer {frontier : List Int}
    (hfrontier : ∀ node ∈ frontier, ∃ ids, neighbors node = .ok ids)
    (reached : Std.TreeSet Int) (layer : List Int) :
    ∃ reached' layer', nextLayer neighbors frontier reached layer = .ok (reached', layer') ∧
      IsNextLayer neighbors frontier reached layer reached' layer' := by
  induction frontier generalizing reached layer with
  | nil =>
      refine ⟨reached, layer.reverse, rfl, ⟨?_, ?_, ?_⟩⟩
      · simp
      · simp
      · rw [List.length_reverse]
  | cons node frontier ih =>
      obtain ⟨ids, hids⟩ := hfrontier node List.mem_cons_self
      have hlinks : ∀ next, Links neighbors node next ↔ next ∈ ids := by
        intro next
        rw [Links, hids]
        simp
      obtain ⟨reached', layer', hnext, hspec⟩ :=
        ih (fun other hother => hfrontier other (List.mem_cons_of_mem _ hother))
          (meetAll ids reached layer).1 (meetAll ids reached layer).2
      refine ⟨reached', layer', ?_, ⟨?_, ?_, ?_⟩⟩
      · rw [nextLayer, hids]
        exact hnext
      · intro next
        rw [hspec.reachedIff, mem_meetAll_fst, List.exists_mem_cons_iff, hlinks, or_assoc]
      · intro next
        rw [hspec.layerIff, mem_meetAll_fst, mem_meetAll_snd, List.exists_mem_cons_iff, hlinks]
        tauto
      · have hmet := size_meetAll ids reached layer
        have hrest := hspec.size
        omega

/-! ## One search -/

/-- A search under way after `steps` layers: it has reached what is within so many
steps, and its frontier is what is not within fewer. -/
structure Searched (neighbors : Int → Except ε (List Int)) (start : Int) (steps : Nat)
    (frontier : List Int) (reached : Std.TreeSet Int) : Prop where
  reachedIff : ∀ node, node ∈ reached ↔ Within (Links neighbors) steps start node
  frontierIff : ∀ node, node ∈ frontier ↔
    Within (Links neighbors) steps start node ∧
      ∀ fewer < steps, ¬ Within (Links neighbors) fewer start node
  nonempty : frontier ≠ []

/-- What a search has found: all that its start can reach, and the greatest
distance among it. -/
structure Reach.IsReach (neighbors : Int → Except ε (List Int)) (start : Int) (reach : Reach) :
    Prop where
  reached : ∀ node, node ∈ reach.reached ↔ Within (Links neighbors) reach.distance start node
  all : ∀ steps node, Within (Links neighbors) steps start node →
    Within (Links neighbors) reach.distance start node
  farthest : ∃ node, Within (Links neighbors) reach.distance start node ∧
    ∀ fewer < reach.distance, ¬ Within (Links neighbors) fewer start node

variable {steps : Nat} {frontier layer : List Int} {reached reached' : Std.TreeSet Int}

theorem searched_start : Searched neighbors start 0 [start] ((∅ : Std.TreeSet Int).insert start)
    where
  reachedIff := by
    intro node
    rw [Std.TreeSet.mem_insert, Int.compare_eq_eq, within_zero_iff]
    simp
  frontierIff := by
    intro node
    rw [List.mem_singleton, within_zero_iff]
    simp [eq_comm]
  nonempty := List.cons_ne_nil _ _

/-- What the next layer reaches is within one step more. -/
theorem Searched.mem_reached_iff (h : Searched neighbors start steps frontier reached)
    (hnext : IsNextLayer neighbors frontier reached [] reached' layer) (node : Int) :
    node ∈ reached' ↔ Within (Links neighbors) (steps + 1) start node := by
  rw [hnext.reachedIff, h.reachedIff, within_succ_iff]
  constructor
  · exact Or.imp_right fun ⟨last, hlast, hlinks⟩ =>
      ⟨last, ((h.frontierIff last).mp hlast).1, hlinks⟩
  · rintro (hwalk | ⟨last, hwalk, hlinks⟩)
    · exact .inl hwalk
    · by_cases hlast : last ∈ frontier
      · exact .inr ⟨last, hlast, hlinks⟩
      · -- A node behind the frontier is within fewer steps, and so is what it links to.
        rw [h.frontierIff, not_and, not_forall] at hlast
        obtain ⟨fewer, hfewer⟩ := hlast hwalk
        rw [Classical.not_imp, not_not] at hfewer
        exact .inl ((Within.step hfewer.2 hlinks).mono hfewer.1)

theorem Searched.next (h : Searched neighbors start steps frontier reached)
    (hnext : IsNextLayer neighbors frontier reached [] reached' layer) (hsome : layer ≠ []) :
    Searched neighbors start (steps + 1) layer reached' := by
  refine ⟨h.mem_reached_iff hnext, ?_, hsome⟩
  intro node
  have hreached := h.mem_reached_iff hnext node
  rw [hnext.reachedIff] at hreached
  rw [hnext.layerIff, h.reachedIff] at *
  constructor
  · rintro (hnil | ⟨hfresh, hlinks⟩)
    · cases hnil
    · exact ⟨hreached.mp (.inr hlinks), fun fewer hfewer hwalk =>
        hfresh (hwalk.mono (Nat.le_of_lt_succ hfewer))⟩
  · rintro ⟨hwalk, hfewer⟩
    have hfresh := hfewer steps (Nat.lt_succ_self steps)
    exact .inr ⟨hfresh, (hreached.mpr hwalk).resolve_left hfresh⟩

/-- A search whose next layer is empty has found everything. -/
theorem Searched.isReach (h : Searched neighbors start steps frontier reached)
    (hnext : IsNextLayer neighbors frontier reached [] reached' []) :
    Reach.IsReach neighbors start ⟨reached', steps⟩ := by
  have hclosed : ∀ node, Within (Links neighbors) (steps + 1) start node →
      Within (Links neighbors) steps start node := by
    intro node hwalk
    rw [← h.mem_reached_iff hnext, hnext.reachedIff] at hwalk
    rcases hwalk with hwalk | hlinks
    · exact (h.reachedIff node).mp hwalk
    · by_contra hfresh
      rw [← h.reachedIff] at hfresh
      exact absurd ((hnext.layerIff node).mpr (.inr ⟨hfresh, hlinks⟩)) List.not_mem_nil
  have hall : ∀ more node, Within (Links neighbors) (steps + more) start node →
      Within (Links neighbors) steps start node := by
    intro more
    induction more with
    | zero => exact fun _ hwalk => hwalk
    | succ more ih =>
        intro node hwalk
        rcases within_succ_iff.mp hwalk with hwalk | ⟨last, hwalk, hlinks⟩
        · exact ih node hwalk
        · exact hclosed node (.step (ih last hwalk) hlinks)
  refine ⟨?_, ?_, ?_⟩
  · intro node
    rw [h.mem_reached_iff hnext]
    exact ⟨hclosed node, fun hwalk => hwalk.mono (Nat.le_succ steps)⟩
  · intro more node hwalk
    exact hall more node (hwalk.mono (Nat.le_add_left more steps))
  · obtain ⟨node, hnode⟩ := List.exists_mem_of_ne_nil frontier h.nonempty
    exact ⟨node, (h.frontierIff node).mp hnode⟩

theorem nodup_toList (reached : Std.TreeSet Int) : reached.toList.Nodup :=
  Std.TreeSet.distinct_toList.imp fun hne heq => hne (Int.compare_eq_eq.mpr heq)

/-- A set of processes has no more members than there are processes. -/
theorem size_le_of_subset (h : ∀ node ∈ reached, node ∈ processIds count) :
    reached.size ≤ count := by
  rw [← Std.TreeSet.length_toList]
  refine Nat.le_trans ((nodup_toList reached).length_le_of_subset ?_)
    (Nat.le_of_eq (length_processIds count))
  exact fun node hnode => h node (Std.TreeSet.mem_toList.mp hnode)

/-- A set of processes has all of them if it has as many. -/
theorem mem_of_le_size (h : ∀ node ∈ reached, node ∈ processIds count)
    (hsize : count ≤ reached.size) {node : Int} (hnode : node ∈ processIds count) :
    node ∈ reached := by
  have hsubset : reached.toList ⊆ processIds count :=
    fun other hother => h other (Std.TreeSet.mem_toList.mp hother)
  have hperm := (List.subperm_of_subset (nodup_toList reached) hsubset).perm_of_length_le (by
    rw [length_processIds, Std.TreeSet.length_toList]
    exact hsize)
  exact Std.TreeSet.mem_toList.mp (hperm.mem_iff.mpr hnode)

/-- A search ends before its fuel does, since every further layer meets a process
not met before. -/
theorem exists_searchFrom (hinhabits : Inhabits neighbors count) (hstart : start ∈ processIds count)
    {fuel : Nat} (h : Searched neighbors start steps frontier reached)
    (hfuel : count < fuel + reached.size) :
    ∃ reach, searchFrom neighbors fuel frontier ⟨reached, steps⟩ = .ok reach ∧
      reach.IsReach neighbors start := by
  induction fuel generalizing steps frontier reached with
  | zero =>
      have hsize : reached.size ≤ count := size_le_of_subset fun node hnode =>
        hinhabits.mem_of_within hstart ((h.reachedIff node).mp hnode)
      omega
  | succ fuel ih =>
      have hfrontier : ∀ node ∈ frontier, ∃ ids, neighbors node = .ok ids := by
        intro node hnode
        obtain ⟨ids, hids, _⟩ :=
          hinhabits node (hinhabits.mem_of_within hstart ((h.frontierIff node).mp hnode).1)
        exact ⟨ids, hids⟩
      obtain ⟨reached', layer, hlayer, hnext⟩ := exists_nextLayer hfrontier reached []
      rw [searchFrom, hlayer]
      cases layer with
      | nil => exact ⟨_, rfl, h.isReach hnext⟩
      | cons node layer =>
          have hgrown := hnext.size
          rw [List.length_nil, List.length_cons] at hgrown
          exact ih (h.next hnext (List.cons_ne_nil _ _)) (by omega)

theorem exists_search (hinhabits : Inhabits neighbors count) (hstart : start ∈ processIds count) :
    ∃ reach, search neighbors count start = .ok reach ∧ reach.IsReach neighbors start := by
  refine exists_searchFrom hinhabits hstart searched_start ?_
  have hsize : ((∅ : Std.TreeSet Int).insert start).size = 1 := by
    rw [Std.TreeSet.size_insert]
    simp
  omega

namespace Reach.IsReach

variable {reach : Reach}

theorem mem_processIds (h : reach.IsReach neighbors start) (hinhabits : Inhabits neighbors count)
    (hstart : start ∈ processIds count) : ∀ node ∈ reach.reached, node ∈ processIds count :=
  fun node hnode => hinhabits.mem_of_within hstart ((h.reached node).mp hnode)

/-- A search that has met too few nodes has missed one for good. -/
theorem exists_missed (h : reach.IsReach neighbors start) (hsize : reach.reached.size < count) :
    ∃ node ∈ processIds count, ∀ steps, ¬ Within (Links neighbors) steps start node := by
  by_contra hnone
  push Not at hnone
  have hall : processIds count ⊆ reach.reached.toList := by
    intro node hnode
    obtain ⟨steps, hwalk⟩ := hnone node hnode
    exact Std.TreeSet.mem_toList.mpr ((h.reached node).mpr (h.all steps node hwalk))
  have hlength := (nodup_processIds count).length_le_of_subset hall
  rw [length_processIds, Std.TreeSet.length_toList] at hlength
  omega

theorem within (h : reach.IsReach neighbors start) (hinhabits : Inhabits neighbors count)
    (hstart : start ∈ processIds count) (hsize : ¬ reach.reached.size < count) {node : Int}
    (hnode : node ∈ processIds count) : Within (Links neighbors) reach.distance start node :=
  (h.reached node).mp
    (mem_of_le_size (h.mem_processIds hinhabits hstart) (Nat.le_of_not_lt hsize) hnode)

end Reach.IsReach

/-! ## All searches -/

/-- The greatest distance from some starts, if it is more than one found before,
or nothing when one of the starts does not reach all nodes. -/
def IsLongest (neighbors : Int → Except ε (List Int)) (count : Nat) (starts : List Int)
    (before : Nat) : Option Nat → Prop
  | none => ∃ start ∈ starts, ∃ node ∈ processIds count,
      ∀ steps, ¬ Within (Links neighbors) steps start node
  | some longest => before ≤ longest ∧
      (∀ start ∈ starts, ∀ node ∈ processIds count,
        Within (Links neighbors) longest start node) ∧
      (longest = before ∨ ∃ start ∈ starts, ∃ node ∈ processIds count,
        ∀ fewer < longest, ¬ Within (Links neighbors) fewer start node)

theorem exists_longestFrom (hinhabits : Inhabits neighbors count) (starts : List Int)
    (hstarts : ∀ start ∈ starts, start ∈ processIds count) (before : Nat) :
    ∃ longest, longestFrom neighbors count starts before = .ok longest ∧
      IsLongest neighbors count starts before longest := by
  induction starts generalizing before with
  | nil => exact ⟨some before, rfl, Nat.le_refl before, by simp, .inl rfl⟩
  | cons start starts ih =>
      have hstart := hstarts start List.mem_cons_self
      obtain ⟨reach, hsearch, hreach⟩ := exists_search hinhabits hstart
      rw [longestFrom, hsearch]
      by_cases hsize : reach.reached.size < count
      · refine ⟨none, if_pos hsize, ?_⟩
        exact ⟨start, List.mem_cons_self, hreach.exists_missed hsize⟩
      · obtain ⟨longest, hrest, hspec⟩ :=
          ih (fun other hother => hstarts other (List.mem_cons_of_mem _ hother))
            (max before reach.distance)
        refine ⟨longest, (if_neg hsize).trans hrest, ?_⟩
        cases longest with
        | none =>
            obtain ⟨other, hother, hmissed⟩ := hspec
            exact ⟨other, List.mem_cons_of_mem _ hother, hmissed⟩
        | some longest =>
            obtain ⟨hle, hall, hsome⟩ := hspec
            refine ⟨Nat.le_trans (Nat.le_max_left _ _) hle, ?_, ?_⟩
            · intro other hother node hnode
              rcases List.mem_cons.mp hother with rfl | hother
              · exact (hreach.within hinhabits hstart hsize hnode).mono
                  (Nat.le_trans (Nat.le_max_right _ _) hle)
              · exact hall other hother node hnode
            · rcases hsome with heq | ⟨other, hother, hfar⟩
              · rcases Nat.le_total reach.distance before with hless | hmore
                · exact .inl (heq.trans (Nat.max_eq_left hless))
                · rw [Nat.max_eq_right hmore] at heq
                  obtain ⟨node, hwalk, hfar⟩ := hreach.farthest
                  exact .inr ⟨start, List.mem_cons_self, node,
                    hinhabits.mem_of_within hstart hwalk, heq ▸ hfar⟩
              · exact .inr ⟨other, List.mem_cons_of_mem _ hother, hfar⟩

/-- Looking neighbours up in their table changes nothing. -/
theorem tabulated_eq {table : List (List Int)}
    (h : (processIds count).mapM neighbors = .ok table) :
    tabulated neighbors table.toArray = neighbors := by
  funext node
  have hall := mapM_eq_ok.mp h
  rw [tabulated]
  split
  · next hnode =>
    split
    · next ids hids =>
      rw [List.getElem?_toArray] at hids
      obtain ⟨hlt, hget⟩ := List.getElem?_eq_some_iff.mp hids
      have hlt' : (node - 1).toNat < (processIds count).length := by rw [hall.length_eq]; exact hlt
      have hat := (List.forall₂_iff_get.mp hall).2 _ hlt' hlt
      have hid : (processIds count)[(node - 1).toNat] = node := by
        simp only [processIds, List.getElem_map, List.getElem_range]
        omega
      rw [List.get_eq_getElem, List.get_eq_getElem, hget, hid] at hat
      exact hat.symm
    · rfl
  · rfl

/-- The search for the diameter searches from all processes in turn. -/
theorem searchDiameter_eq_longestFrom (hinhabits : Inhabits neighbors count) (hcount : 0 < count) :
    searchDiameter neighbors count = longestFrom neighbors count (processIds count) 0 := by
  have hone : (1 : Int) ∈ processIds count := Network.mem_processIds.mpr ⟨by omega, by omega⟩
  have hids : processIds count = 1 :: (processIds count).drop 1 := by
    obtain ⟨fewer, rfl⟩ := Nat.exists_eq_add_of_lt hcount
    rw [processIds, Nat.zero_add, List.range_succ_eq_map]
    rfl
  obtain ⟨first, hsearch, _⟩ := exists_search hinhabits hone
  obtain ⟨table, htable⟩ : ∃ table, (processIds count).mapM neighbors = .ok table :=
    exists_mapM_eq_ok fun node hnode => by
      obtain ⟨ids, hids, _⟩ := hinhabits node hnode
      exact ⟨ids, hids⟩
  rw [searchDiameter, if_neg (by simpa using Nat.ne_of_gt hcount), hsearch]
  conv_rhs => rw [hids, longestFrom, hsearch]
  refine if_congr Iff.rfl rfl ?_
  rw [Nat.zero_max]
  rw [htable]
  change longestFrom (tabulated neighbors table.toArray) count _ _ = _
  rw [tabulated_eq htable]

/-- The search for the diameter finds it, or that some process cannot reach
another one. -/
theorem exists_searchDiameter (hinhabits : Inhabits neighbors count) (hcount : 0 < count) :
    ∃ longest, searchDiameter neighbors count = .ok longest ∧ match longest with
      | some distance => IsDiameter (Links neighbors) count distance
      | none => IsSplit (Links neighbors) count := by
  obtain ⟨longest, hlongest, hspec⟩ :=
    exists_longestFrom hinhabits (processIds count) (fun _ hmem => hmem) 0
  refine ⟨longest, (searchDiameter_eq_longestFrom hinhabits hcount).trans hlongest, ?_⟩
  cases longest with
  | none => exact hspec
  | some longest =>
      obtain ⟨_, hall, rfl | hfar⟩ := hspec
      · have hone : (1 : Int) ∈ processIds count := Network.mem_processIds.mpr ⟨by omega, by omega⟩
        exact ⟨hall, 1, hone, 1, hone, fun fewer hfewer => absurd hfewer (Nat.not_lt_zero fewer)⟩
      · exact ⟨hall, hfar⟩

end LossyConsensus.Network
