/-
# Search with a queue

The nodes that a search has met wait in a queue, each with its distance from the start.
A node that is taken from the front has its neighbours met: those that are met for the
first time go to the end, one edge farther away.

The distances in the queue never fall, and no node met is more than one edge farther
away than the front.  So the distance with which a node is met first is the least, and
a queue that has run empty leaves the distances of all that the start reaches.  Every
node waits once; this ends the search.

A survey makes one such search from each node, and ends early when one of them does not
meet all nodes.  It states what the search in layers states.
-/

import LossyConsensus.Proofs.Network.Topology

namespace LossyConsensus.Network

variable {ε : Type} {neighbors : Int → Except ε (List Int)} {count distance : Nat}
  {start : Int} {ids : List Int} {met done waiting : List (Int × Nat)}

/-- Those of some nodes that are met for the first time, all of them at one
distance. -/
def newlyMet (distance : Nat) : List Int → List (Int × Nat) → List (Int × Nat)
  | [], _ => []
  | id :: ids, met =>
      if id ∈ met.map Prod.fst then newlyMet distance ids met
      else (id, distance) :: newlyMet distance ids (met ++ [(id, distance)])

/-- A search that ends, from a queue and the nodes met up to now to all nodes that it
meets. -/
inductive Explores (neighbors : Int → Except ε (List Int)) :
    List (Int × Nat) → List (Int × Nat) → List (Int × Nat) → Prop
  | finished (met : List (Int × Nat)) : Explores neighbors [] met met
  | further {node : Int} {distance : Nat} {ids : List Int} {waiting met result : List (Int × Nat)}
      (hids : neighbors node = .ok ids)
      (hrest : Explores neighbors (waiting ++ newlyMet (distance + 1) ids met)
        (met ++ newlyMet (distance + 1) ids met) result) :
      Explores neighbors ((node, distance) :: waiting) met result

/-- A survey that ends, from the nodes to start from and the longest distance up to now
to the number that it states. -/
inductive Surveys (neighbors : Int → Except ε (List Int)) (count : Nat) :
    List Int → Nat → Int → Prop
  | finished (longest : Nat) : Surveys neighbors count [] longest longest
  | short {start : Int} {starts : List Int} {longest : Nat} {met : List (Int × Nat)}
      (hmet : Explores neighbors [(start, 0)] [(start, 0)] met) (hfew : met.length < count) :
      Surveys neighbors count (start :: starts) longest (-1)
  | further {start stated : Int} {starts : List Int} {longest farthest : Nat}
      {met : List (Int × Nat)} (hmet : Explores neighbors [(start, 0)] [(start, 0)] met)
      (hall : ¬ met.length < count) (hfarthest : (met.map Prod.snd).max? = some farthest)
      (hrest : Surveys neighbors count starts (max longest farthest) stated) :
      Surveys neighbors count (start :: starts) longest stated

theorem Explores.unique {result other : List (Int × Nat)}
    (h : Explores neighbors waiting met result) (h' : Explores neighbors waiting met other) :
    other = result := by
  induction h with
  | finished met =>
      cases h' with
      | finished => rfl
  | further hids _ ih =>
      cases h' with
      | further hids' hrest =>
          obtain rfl := Except.ok.inj (hids.symm.trans hids')
          exact ih hrest

theorem Surveys.unique {starts : List Int} {longest : Nat} {stated other : Int}
    (h : Surveys neighbors count starts longest stated)
    (h' : Surveys neighbors count starts longest other) : other = stated := by
  induction h with
  | finished longest =>
      cases h' with
      | finished => rfl
  | short hmet hfew =>
      cases h' with
      | short => rfl
      | further hmet' hall => exact absurd (hmet.unique hmet' ▸ hfew) hall
  | further hmet hall hfarthest _ ih =>
      cases h' with
      | short hmet' hfew => exact absurd (hmet.unique hmet' ▸ hfew) hall
      | further hmet' _ hfarthest' hrest =>
          obtain rfl := hmet.unique hmet'
          obtain rfl := Option.some.inj (hfarthest.symm.trans hfarthest')
          exact ih hrest

/-! ## What is met -/

theorem mem_newlyMet {entry : Int × Nat} : entry ∈ newlyMet distance ids met ↔
    entry.2 = distance ∧ entry.1 ∈ ids ∧ entry.1 ∉ met.map Prod.fst := by
  obtain ⟨node, length⟩ := entry
  induction ids generalizing met with
  | nil => simp [newlyMet]
  | cons id ids ih =>
      rw [newlyMet]
      split
      · next hknown =>
        rw [ih, List.mem_cons]
        refine and_congr_right fun _ => and_congr_left fun hfresh => (or_iff_right ?_).symm
        rintro rfl
        exact hfresh hknown
      · next hfresh =>
        rw [List.mem_cons, ih, Prod.mk.injEq, List.map_append, List.mem_append, List.mem_cons]
        by_cases heq : node = id
        · subst heq
          simp [hfresh]
        · simp [heq]

theorem nodup_append_newlyMet (h : (met.map Prod.fst).Nodup) (distance : Nat) (ids : List Int) :
    ((met ++ newlyMet distance ids met).map Prod.fst).Nodup := by
  induction ids generalizing met with
  | nil => rwa [newlyMet, List.append_nil]
  | cons id ids ih =>
      rw [newlyMet]
      split
      · exact ih h
      · next hfresh =>
        have hmore : ((met ++ [(id, distance)]).map Prod.fst).Nodup := by
          rw [List.map_append, List.nodup_append']
          exact ⟨h, List.nodup_singleton id, List.disjoint_singleton.mpr hfresh⟩
        have hrest := ih hmore
        rwa [List.append_assoc] at hrest

/-- A search under way: some of the nodes met are done, and the others wait. -/
structure Exploring (neighbors : Int → Except ε (List Int)) (start : Int)
    (done waiting : List (Int × Nat)) : Prop where
  distinct : ((done ++ waiting).map Prod.fst).Nodup
  begun : (start, 0) ∈ done ++ waiting
  walked : ∀ entry ∈ done ++ waiting, Within (Links neighbors) entry.2 start entry.1
  closed : ∀ entry ∈ done, ∀ next, Links neighbors entry.1 next →
    ∃ further ≤ entry.2 + 1, (next, further) ∈ done ++ waiting
  ordered : waiting.Pairwise fun entry later => entry.2 ≤ later.2
  near : ∀ entry ∈ done ++ waiting, ∀ front ∈ waiting, entry.2 ≤ front.2 + 1

theorem exploring_start (neighbors : Int → Except ε (List Int)) (start : Int) :
    Exploring neighbors start [] [(start, 0)] where
  distinct := List.nodup_singleton start
  begun := List.mem_singleton_self _
  walked := by
    intro entry hentry
    obtain rfl := List.mem_singleton.mp hentry
    exact .here 0 start
  closed := fun entry hentry => absurd hentry List.not_mem_nil
  ordered := List.pairwise_singleton _ _
  near := by
    intro entry hentry front _
    obtain rfl := List.mem_singleton.mp hentry
    exact Nat.zero_le _

section Next

variable {node : Int} (h : Exploring neighbors start done ((node, distance) :: waiting))

include h

theorem Exploring.walked_next (hids : neighbors node = .ok ids) :
    ∀ entry ∈ done ++ (node, distance) :: waiting ++
        newlyMet (distance + 1) ids (done ++ (node, distance) :: waiting),
      Within (Links neighbors) entry.2 start entry.1 := by
  intro entry hentry
  rcases List.mem_append.mp hentry with hold | hfresh
  · exact h.walked entry hold
  · obtain ⟨hdistance, hmem, _⟩ := mem_newlyMet.mp hfresh
    have hfront := h.walked _ (List.mem_append_right done List.mem_cons_self)
    rw [hdistance]
    exact .step hfront ⟨ids, hids, hmem⟩

/-- A neighbour that was met before is at most one edge farther away, since no node met
is farther away than one edge beyond the front. -/
theorem Exploring.closed_next (hids : neighbors node = .ok ids) :
    ∀ entry ∈ done ++ [(node, distance)], ∀ next, Links neighbors entry.1 next →
      ∃ further ≤ entry.2 + 1, (next, further) ∈ done ++ (node, distance) :: waiting ++
        newlyMet (distance + 1) ids (done ++ (node, distance) :: waiting) := by
  intro entry hentry next hlinks
  rcases List.mem_append.mp hentry with hold | hfront
  · obtain ⟨further, hle, hmem⟩ := h.closed entry hold next hlinks
    exact ⟨further, hle, List.mem_append_left _ hmem⟩
  · obtain rfl := List.mem_singleton.mp hfront
    obtain ⟨ids', hids', hnext⟩ := hlinks
    obtain rfl := Except.ok.inj (hids.symm.trans hids')
    by_cases hknown : next ∈ (done ++ (node, distance) :: waiting).map Prod.fst
    · obtain ⟨⟨_, further⟩, hmem, rfl⟩ := List.mem_map.mp hknown
      exact ⟨further, h.near _ hmem _ List.mem_cons_self, List.mem_append_left _ hmem⟩
    · exact ⟨distance + 1, Nat.le_refl _,
        List.mem_append_right _ (mem_newlyMet.mpr ⟨rfl, hnext, hknown⟩)⟩

theorem Exploring.ordered_next (ids : List Int) (met : List (Int × Nat)) :
    (waiting ++ newlyMet (distance + 1) ids met).Pairwise fun entry later =>
      entry.2 ≤ later.2 := by
  refine List.pairwise_append.mpr ⟨(List.pairwise_cons.mp h.ordered).2, ?_, ?_⟩
  · refine List.pairwise_of_forall_mem_list fun entry hentry later hlater => ?_
    rw [(mem_newlyMet.mp hentry).1, (mem_newlyMet.mp hlater).1]
  · intro entry hentry later hlater
    have hmem := List.mem_append_right done (List.mem_cons_of_mem (node, distance) hentry)
    rw [(mem_newlyMet.mp hlater).1]
    exact h.near entry hmem _ List.mem_cons_self

theorem Exploring.near_next (ids : List Int) (met : List (Int × Nat)) :
    ∀ entry ∈ done ++ (node, distance) :: waiting ++ newlyMet (distance + 1) ids met,
      ∀ front ∈ waiting ++ newlyMet (distance + 1) ids met, entry.2 ≤ front.2 + 1 := by
  intro entry hentry front hfront
  have hentry' : entry.2 ≤ distance + 1 := by
    rcases List.mem_append.mp hentry with hold | hfresh
    · exact h.near entry hold _ List.mem_cons_self
    · exact Nat.le_of_eq (mem_newlyMet.mp hfresh).1
  have hfront' : distance ≤ front.2 := by
    rcases List.mem_append.mp hfront with hold | hfresh
    · exact (List.pairwise_cons.mp h.ordered).1 front hold
    · rw [(mem_newlyMet.mp hfresh).1]
      exact Nat.le_succ distance
  omega

/-- Taking the node at the front of the queue. -/
theorem Exploring.next (hids : neighbors node = .ok ids) :
    Exploring neighbors start (done ++ [(node, distance)])
      (waiting ++ newlyMet (distance + 1) ids (done ++ (node, distance) :: waiting)) := by
  have hmet : ∀ fresh : List (Int × Nat), done ++ [(node, distance)] ++ (waiting ++ fresh) =
      done ++ (node, distance) :: waiting ++ fresh := by
    intro fresh
    simp only [List.append_assoc, List.cons_append, List.nil_append]
  refine ⟨?_, ?_, ?_, ?_, h.ordered_next ids _, ?_⟩
  · rw [hmet]
    exact nodup_append_newlyMet h.distinct (distance + 1) ids
  · rw [hmet]
    exact List.mem_append_left _ h.begun
  · rw [hmet]
    exact h.walked_next hids
  · rw [hmet]
    exact h.closed_next hids
  · rw [hmet]
    exact h.near_next ids _

end Next

/-! ## The search ends -/

/-- The nodes met are processes, so there are no more of them than processes. -/
theorem Exploring.length_le (h : Exploring neighbors start done waiting)
    (hinhabits : Inhabits neighbors count) (hstart : start ∈ processIds count) :
    (done ++ waiting).length ≤ count := by
  have hsubset : (done ++ waiting).map Prod.fst ⊆ processIds count := by
    intro node hnode
    obtain ⟨entry, hentry, rfl⟩ := List.mem_map.mp hnode
    exact hinhabits.mem_of_within hstart (h.walked entry hentry)
  have hlength := h.distinct.length_le_of_subset hsubset
  rwa [List.length_map, length_processIds] at hlength

theorem exists_exploresFrom (hinhabits : Inhabits neighbors count)
    (hstart : start ∈ processIds count) {left : Nat} (h : Exploring neighbors start done waiting)
    (hleft : count ≤ done.length + left) :
    ∃ result, Explores neighbors waiting (done ++ waiting) result ∧
      Exploring neighbors start result [] := by
  induction left generalizing done waiting with
  | zero =>
      have hlength := h.length_le hinhabits hstart
      rw [List.length_append] at hlength
      obtain rfl := List.eq_nil_of_length_eq_zero (by omega : waiting.length = 0)
      rw [List.append_nil]
      exact ⟨done, .finished done, h⟩
  | succ left ih =>
      rcases waiting with - | ⟨⟨node, distance⟩, waiting⟩
      · rw [List.append_nil]
        exact ⟨done, .finished done, h⟩
      · have hnode := hinhabits.mem_of_within hstart
          (h.walked _ (List.mem_append_right done List.mem_cons_self))
        obtain ⟨ids, hids, _⟩ := hinhabits node hnode
        obtain ⟨result, hrest, hresult⟩ := ih (h.next hids) (by
          rw [List.length_append, List.length_singleton]
          omega)
        refine ⟨result, .further hids ?_, hresult⟩
        simpa only [List.append_assoc, List.cons_append, List.nil_append] using hrest

/-- A search from a process ends. -/
theorem exists_explores (hinhabits : Inhabits neighbors count) (hstart : start ∈ processIds count) :
    ∃ met, Explores neighbors [(start, 0)] [(start, 0)] met ∧ Exploring neighbors start met [] :=
  exists_exploresFrom hinhabits hstart (exploring_start neighbors start)
    (by omega : count ≤ 0 + count)

/-! ## What it has found -/

/-- No walk is shorter than the distance with which its end was met. -/
theorem Exploring.exists_le (h : Exploring neighbors start met []) {steps : Nat} {node : Int}
    (hwalk : Within (Links neighbors) steps start node) :
    ∃ distance ≤ steps, (node, distance) ∈ met := by
  have hbegun := h.begun
  have hclosed := h.closed
  rw [List.append_nil] at hbegun hclosed
  induction hwalk with
  | here steps node => exact ⟨0, Nat.zero_le steps, hbegun⟩
  | step _ hlinks ih =>
      obtain ⟨distance, hle, hmem⟩ := ih h hbegun
      obtain ⟨further, hfurther, hnext⟩ := hclosed _ hmem _ hlinks
      exact ⟨further, Nat.le_trans hfurther (Nat.succ_le_succ hle), hnext⟩

/-- It has met as many nodes as the search in layers, and gone as far. -/
theorem Exploring.agrees {reach : Reach} (h : Exploring neighbors start met [])
    (hreach : reach.IsReach neighbors start) :
    met.length = reach.reached.size ∧ (met.map Prod.snd).max? = some reach.distance := by
  have hdistinct := h.distinct
  have hwalked := h.walked
  rw [List.append_nil] at hdistinct hwalked
  constructor
  · have hperm : (met.map Prod.fst).Perm reach.reached.toList := by
      refine (List.perm_ext_iff_of_nodup hdistinct (nodup_toList _)).mpr fun node => ?_
      rw [Std.TreeSet.mem_toList, hreach.reached, List.mem_map]
      constructor
      · rintro ⟨entry, hentry, rfl⟩
        exact hreach.all _ _ (hwalked entry hentry)
      · intro hwalk
        obtain ⟨distance, _, hmem⟩ := h.exists_le hwalk
        exact ⟨_, hmem, rfl⟩
    rw [← Std.TreeSet.length_toList, ← hperm.length_eq, List.length_map]
  · rw [List.max?_eq_some_iff]
    constructor
    · obtain ⟨node, hwalk, hfar⟩ := hreach.farthest
      obtain ⟨distance, hle, hmem⟩ := h.exists_le hwalk
      have heq : distance = reach.distance :=
        Nat.le_antisymm hle (Nat.le_of_not_lt fun hless => hfar distance hless (hwalked _ hmem))
      exact List.mem_map.mpr ⟨_, hmem, heq⟩
    · intro distance hdistance
      obtain ⟨⟨node, _⟩, hmem, rfl⟩ := List.mem_map.mp hdistance
      obtain ⟨least, hle, hleast⟩ := h.exists_le (hreach.all _ _ (hwalked _ hmem))
      obtain ⟨_, rfl⟩ := Prod.mk.inj (List.inj_on_of_nodup_map hdistinct hmem hleast rfl)
      exact hle

/-! ## Surveys -/

theorem surveys_of_longestFrom (hinhabits : Inhabits neighbors count) {starts : List Int}
    (hstarts : ∀ start ∈ starts, start ∈ processIds count) {before : Nat} {longest : Option Nat}
    (h : longestFrom neighbors count starts before = .ok longest) :
    Surveys neighbors count starts before (longest.elim (-1) Nat.cast) := by
  induction starts generalizing before with
  | nil =>
      obtain rfl := Except.ok.inj h
      exact .finished before
  | cons start starts ih =>
      obtain ⟨hstart, hrest⟩ := List.forall_mem_cons.mp hstarts
      obtain ⟨met, hmet, hexplored⟩ := exists_explores hinhabits hstart
      obtain ⟨reach, hsearch, hreach⟩ := exists_search hinhabits hstart
      obtain ⟨hlength, hfarthest⟩ := hexplored.agrees hreach
      rw [longestFrom, hsearch] at h
      by_cases hsize : reach.reached.size < count
      · obtain rfl := Except.ok.inj ((if_pos hsize).symm.trans h)
        exact .short hmet (hlength ▸ hsize)
      · exact .further hmet (hlength ▸ hsize) hfarthest (ih hrest ((if_neg hsize).symm.trans h))

/-- A survey of the processes ends with what the search in layers states. -/
theorem surveys_of_searchedDiameter (hinhabits : Inhabits neighbors count) (hcount : 0 < count)
    {stated : Int} (h : searchedDiameter neighbors count = .ok stated) :
    Surveys neighbors count (processIds count) 0 stated := by
  rw [searchedDiameter, searchDiameter_eq_longestFrom hinhabits hcount] at h
  obtain ⟨longest, hlongest, hstated⟩ := bind_eq_ok.mp h
  have hsurveys := surveys_of_longestFrom hinhabits (fun _ hmem => hmem) hlongest
  cases longest with
  | none => exact Except.ok.inj hstated ▸ hsurveys
  | some longest => exact Except.ok.inj hstated ▸ hsurveys

end LossyConsensus.Network
