import Mathlib
import FusedAttention.Proofs.ExactGradients
import FusedAttention.Proofs.FullAttention

/-! The sums of gradQ in exact arithmetic, under any policy. A query tile is visited by the key tiles
that attend to it. Its sum starts at the first key tile of all and is written out where the next key
tile does not attend. Unless the policy ascends, this need not be its first and its last visit. -/
namespace FusedAttention

open Finset

variable {α ε : Type} [ExactScalar α] [Element ε α]

namespace Strategy

variable {ι : Type} {visit : ι → Visit} {adds : ι → α → α} {share : ι → α}

theorem visitEntry_parked (visit : Visit) {add : α → α} {share : α} (hAdd : ∀ y, add y = y + share)
    (e : Entry α ε) : (workspace.visitEntry true visit add e).parked =
      if visit.isLast = true then e.parked
      else (if visit.isFirst = true then 0 else e.parked) + share := by
  obtain ⟨isFirst, isLast⟩ := visit
  cases isFirst <;> cases isLast <;> simp [visitEntry, usesWorkspace, hAdd]

theorem visitEntry_target (slotted : Bool) (visit : Visit) {add : α → α} {share : α}
    (hAdd : ∀ y, add y = y + share) (hLast : visit.isLast = true) (e : Entry α ε) :
    (workspace.visitEntry slotted visit add e).target =
      Element.round ((if slotted = true ∧ visit.isFirst = false then e.parked else 0) + share) := by
  obtain ⟨isFirst, isLast⟩ := visit
  cases hLast
  cases isFirst <;> cases slotted <;>
    simp [visitEntry, usesWorkspace, StoreMode.ofFirst, Tile.stored, hAdd]

/-- A slot collects the shares of all visits but those that are taken for the last one. -/
theorem foldl_parked (hAdds : ∀ k y, adds k y = y + share k) {list : List ι}
    (hLater : ∀ k ∈ list, (visit k).isFirst = false) (e : Entry α ε) :
    (list.foldl (fun e k => workspace.visitEntry true (visit k) (adds k) e) e).parked =
      e.parked + ((list.filter fun k => !(visit k).isLast).map share).sum := by
  induction list generalizing e with
  | nil => exact (add_zero _).symm
  | cons k rest ih =>
      rw [List.foldl_cons, ih fun i hi => hLater i (List.mem_cons_of_mem k hi), List.filter_cons,
        visitEntry_parked _ (hAdds k), hLater k List.mem_cons_self]
      cases (visit k).isLast with
      | true => simp
      | false => simp [add_assoc]

/-- An element that holds its own sum collects the shares of all visits. -/
theorem foldl_inPlace [ExactElement ε] (hWide : Element.dtype ε = .f32) (slotted : Bool)
    (hAdds : ∀ k y, adds k y = y + share k) {list : List ι}
    (hLater : ∀ k ∈ list, (visit k).isFirst = false) (e : Entry α ε) :
    (list.foldl (fun e k => inPlace.visitEntry slotted (visit k) (adds k) e) e).target =
      Element.round (Element.widen e.target + (list.map share).sum) := by
  induction list generalizing e with
  | nil =>
      rw [List.foldl_nil, List.map_nil, List.sum_nil, add_zero, ExactElement.round_widen hWide]
  | cons k rest ih =>
      have hFirst := hLater k List.mem_cons_self
      have hStep : (inPlace.visitEntry slotted (visit k) (adds k) e).target =
          Element.round (Element.widen e.target + share k) := by
        simp [visitEntry, usesWorkspace, hFirst, hAdds, StoreMode.ofFirst, Tile.stored]
      rw [List.foldl_cons, ih fun i hi => hLater i (List.mem_cons_of_mem k hi), hStep,
        ExactElement.widen_round hWide, List.map_cons, List.sum_cons, add_assoc]

end Strategy

namespace Kernel

/-- The key tiles that visit a query tile, in order. -/
def queryTiles (kernel : Kernel α ε) (queryStart : Nat) : List Nat :=
  kernel.keyStarts.filter (kernel.firstQuery · ≤ queryStart)

/-- Whether sums of gradQ are parked in the workspace between two visits. -/
def parksQueries (kernel : Kernel α ε) : Bool :=
  kernel.plan.gradQ.usesWorkspace && 0 < kernel.workspace.gradQ

/-- The visits that are lost: each writes the sum out because the next key tile does not attend,
and leaves the slot as it was, but further on another key tile attends again. -/
def lostTiles (kernel : Kernel α ε) (queryStart : Nat) : List Nat :=
  if kernel.parksQueries then
    (kernel.queryTiles queryStart).dropLast.filter fun k => (kernel.queryVisit queryStart k).isLast
  else []

/-- What an entry brings into the sum from before the launch: nothing if the first key tile starts
the sum, and otherwise what its slot or the entry itself held. -/
def carried (kernel : Kernel α ε) (queryStart : Nat) (e : Entry α ε) : α :=
  if 0 ∈ kernel.queryTiles queryStart ∧ 0 ∉ kernel.lostTiles queryStart then 0
  else if kernel.parksQueries then e.parked
  else Element.widen e.target

/-- The share of one key tile in an entry of gradQ. -/
def querySum (kernel : Kernel α ε) (x : UnitValues α) (row col keyStart : Nat) : α :=
  ∑ j ∈ range (min kernel.tiles.blockJ (kernel.shape.numKeys - keyStart)),
    x.gradScore row (keyStart + j) * x.scale * x.key (keyStart + j) col

variable {kernel : Kernel α ε} {x : UnitValues α} {queryStart : Nat}

omit [ExactScalar α] in
theorem mem_queryTiles (hValid : kernel.Valid) {k : Nat} : k ∈ kernel.queryTiles queryStart ↔
    (k < kernel.shape.numKeys ∧ ∃ n, k = n * kernel.tiles.blockJ) ∧
      kernel.firstQuery k ≤ queryStart := by
  rw [queryTiles, List.mem_filter, mem_keyStarts hValid, decide_eq_true_eq]

omit [ExactScalar α] in
theorem pairwise_queryTiles (hValid : kernel.Valid) (queryStart : Nat) :
    (kernel.queryTiles queryStart).Pairwise (· < ·) :=
  (pairwise_tileStarts hValid.blockJ).filter _

omit [ExactScalar α] in
/-- A visit is taken for the last just if the next key tile does not visit. -/
theorem isLast_iff (hValid : kernel.Valid) {k : Nat} (hTile : ∃ n, k = n * kernel.tiles.blockJ) :
    (kernel.queryVisit queryStart k).isLast = true ↔
      k + kernel.tiles.blockJ ∉ kernel.queryTiles queryStart := by
  have hNext : kernel.following kernel.shape.numQueries k =
      (kernel.firstQuery (k + kernel.tiles.blockJ), k + kernel.tiles.blockJ) := by
    have hBlock := hValid.blockI
    rw [following, nextIteration, if_neg (by omega)]
    rfl
  have hTileNext : ∃ n, k + kernel.tiles.blockJ = n * kernel.tiles.blockJ := by
    obtain ⟨n, rfl⟩ := hTile
    exact ⟨n + 1, (Nat.succ_mul n _).symm⟩
  rw [queryVisit, hNext, mem_queryTiles hValid, Bool.or_eq_true, decide_eq_true_eq,
    decide_eq_true_eq]
  simp only [hTileNext, and_true]
  omega

omit [ExactScalar α] in
/-- The last visit is taken for the last. -/
theorem isLast_of_append (hValid : kernel.Valid) {before : List Nat} {k : Nat}
    (hTiles : kernel.queryTiles queryStart = before ++ [k]) :
    (kernel.queryVisit queryStart k).isLast = true := by
  have hMem : k ∈ kernel.queryTiles queryStart := by
    rw [hTiles]
    exact List.mem_append_right before List.mem_cons_self
  rw [isLast_iff hValid ((mem_queryTiles hValid).mp hMem).1.2, hTiles]
  intro hNext
  have hSorted := pairwise_queryTiles hValid queryStart
  have hBlock := hValid.blockJ
  rw [hTiles, List.pairwise_append] at hSorted
  rcases List.mem_append.mp hNext with hBefore | hLast
  · have := hSorted.2.2 _ hBefore k List.mem_cons_self
    omega
  · have := List.mem_singleton.mp hLast
    omega

omit [ExactScalar α] in
/-- The first key tile can only be the first visit. -/
theorem zero_mem_queryTiles (hValid : kernel.Valid) {first : Nat} {rest : List Nat}
    (hTiles : kernel.queryTiles queryStart = first :: rest) :
    (0 ∈ kernel.queryTiles queryStart ↔ first = 0) ∧ ∀ k ∈ rest, k ≠ 0 := by
  have hSorted := pairwise_queryTiles hValid queryStart
  rw [hTiles, List.pairwise_cons] at hSorted
  have hRest : ∀ k ∈ rest, k ≠ 0 := by
    intro k hk
    have := hSorted.1 k hk
    omega
  refine ⟨?_, hRest⟩
  rw [hTiles, List.mem_cons]
  constructor
  · rintro (h | h)
    · exact h.symm
    · exact absurd rfl (hRest 0 h)
  · intro h
    exact .inl h.symm

omit [ExactScalar α] [Element ε α] in
theorem of_parksQueries (hParks : kernel.parksQueries = true) :
    kernel.plan.gradQ = .workspace ∧ decide (0 < kernel.workspace.gradQ) = true := by
  rw [parksQueries, Bool.and_eq_true] at hParks
  refine ⟨?_, hParks.2⟩
  cases hPlan : kernel.plan.gradQ with
  | inPlace =>
      rw [hPlan] at hParks
      cases hParks.1
  | workspace => rfl

section Visits

variable [ExactElement ε] (row col : Nat) (e : Entry α ε)

/-- One visit to an entry of gradQ. -/
def visitQuery (kernel : Kernel α ε) (x : UnitValues α) (queryStart row col : Nat) (e : Entry α ε)
    (k : Nat) : Entry α ε :=
  kernel.plan.gradQ.visitEntry (0 < kernel.workspace.gradQ) (kernel.queryVisit queryStart k)
    (x.queryShare k (min kernel.tiles.blockJ (kernel.shape.numKeys - k)) row col) e

omit [ExactScalar α] [Element ε α] [ExactElement ε] in
theorem isFirst_eq_false (kernel : Kernel α ε) (queryStart : Nat) {rest : List Nat}
    (hRest : ∀ k ∈ rest, k ≠ 0) : ∀ k ∈ rest, (kernel.queryVisit queryStart k).isFirst = false :=
  fun k hk => decide_eq_false (hRest k hk)

omit [Element ε α] [ExactElement ε] in
theorem queryShare_eq (kernel : Kernel α ε) (x : UnitValues α) (row col k : Nat) (y : α) :
    x.queryShare k (min kernel.tiles.blockJ (kernel.shape.numKeys - k)) row col y =
      y + kernel.querySum x row col k :=
  x.queryShare_eq k _ row col y

/-- Sums that are kept in the elements lose nothing. -/
theorem visits_inPlace (hWide : Element.dtype ε = .f32)
    (hInPlace : kernel.plan.gradQ = .inPlace) {first : Nat} {rest : List Nat}
    (hRest : ∀ k ∈ rest, k ≠ 0) :
    ((first :: rest).foldl (kernel.visitQuery x queryStart row col) e).target =
      Element.round ((if first = 0 then 0 else Element.widen e.target) +
        ((first :: rest).map (kernel.querySum x row col)).sum) := by
  have hFirst : (kernel.visitQuery x queryStart row col e first).target = Element.round
      ((if first = 0 then 0 else Element.widen e.target) + kernel.querySum x row col first) := by
    by_cases h : first = 0 <;>
      simp [visitQuery, hInPlace, Strategy.visitEntry, Strategy.usesWorkspace, queryVisit, h,
        StoreMode.ofFirst, Tile.stored, UnitValues.queryShare_eq, querySum]
  have hFold := Strategy.foldl_inPlace hWide (0 < kernel.workspace.gradQ)
    (kernel.queryShare_eq x row col) (kernel.isFirst_eq_false queryStart hRest)
    (kernel.visitQuery x queryStart row col e first)
  rw [hFirst, ExactElement.widen_round hWide] at hFold
  rw [List.foldl_cons, List.map_cons, List.sum_cons, ← add_assoc, ← hFold]
  unfold visitQuery
  rw [hInPlace]

omit [ExactElement ε] in
/-- What a slot holds after some visits: the shares of those that were not taken for the last. -/
theorem parked_of_visits (hParks : kernel.parksQueries = true) {first : Nat} {rest : List Nat}
    (hRest : ∀ k ∈ rest, k ≠ 0) :
    ((first :: rest).foldl (kernel.visitQuery x queryStart row col) e).parked =
      (if first = 0 ∧ (kernel.queryVisit queryStart first).isLast = false then 0 else e.parked) +
        (((first :: rest).filter fun k => !(kernel.queryVisit queryStart k).isLast).map
          (kernel.querySum x row col)).sum := by
  obtain ⟨hWorkspace, hSlots⟩ := of_parksQueries hParks
  have hFold := Strategy.foldl_parked (kernel.queryShare_eq x row col)
    (kernel.isFirst_eq_false queryStart hRest)
    (kernel.visitQuery x queryStart row col e first)
  have hVisits : (first :: rest).foldl (kernel.visitQuery x queryStart row col) e =
      rest.foldl (fun e k => Strategy.workspace.visitEntry true (kernel.queryVisit queryStart k)
        (x.queryShare k (min kernel.tiles.blockJ (kernel.shape.numKeys - k)) row col) e)
        (kernel.visitQuery x queryStart row col e first) := by
    rw [List.foldl_cons]
    unfold visitQuery
    rw [hWorkspace, hSlots]
  have hFirst : (kernel.queryVisit queryStart first).isFirst = decide (first = 0) := rfl
  rw [hVisits, hFold, List.filter_cons, visitQuery, hWorkspace, hSlots,
    Strategy.visitEntry_parked _ (kernel.queryShare_eq x row col first), hFirst]
  cases (kernel.queryVisit queryStart first).isLast with
  | true => simp
  | false => simp [add_assoc]

omit [ExactElement ε] in
/-- With slots, the last visit writes what the slot holds and its own share. -/
theorem visits_parked (hValid : kernel.Valid) (hParks : kernel.parksQueries = true)
    {before : List Nat} {k : Nat} (hTiles : kernel.queryTiles queryStart = before ++ [k]) :
    ((before ++ [k]).foldl (kernel.visitQuery x queryStart row col) e).target =
      Element.round (kernel.carried queryStart e +
        (((before ++ [k]).map (kernel.querySum x row col)).sum -
          ((kernel.lostTiles queryStart).map (kernel.querySum x row col)).sum)) := by
  obtain ⟨hWorkspace, hSlots⟩ := of_parksQueries hParks
  have hLost : kernel.lostTiles queryStart =
      before.filter fun k => (kernel.queryVisit queryStart k).isLast := by
    rw [lostTiles, if_pos hParks, hTiles, List.dropLast_concat]
  have hEnd : (kernel.queryVisit queryStart k).isFirst = decide (k = 0) := rfl
  rw [List.foldl_append, List.foldl_cons, List.foldl_nil, visitQuery, hWorkspace, hSlots,
    Strategy.visitEntry_target _ _ (kernel.queryShare_eq x row col k)
      (isLast_of_append hValid hTiles), hEnd]
  cases before with
  | nil =>
      have hStart : 0 ∈ kernel.queryTiles queryStart ↔ k = 0 := (zero_mem_queryTiles hValid hTiles).1
      simp [carried, hStart, hLost, hParks]
  | cons first rest =>
      have hZero := zero_mem_queryTiles hValid hTiles
      have hRest : ∀ i ∈ rest, i ≠ 0 := fun i hi => hZero.2 i (List.mem_append_left _ hi)
      have hLater : k ≠ 0 := hZero.2 k (List.mem_append_right _ List.mem_cons_self)
      have hStart : (0 ∈ kernel.queryTiles queryStart ∧ 0 ∉ kernel.lostTiles queryStart) ↔
          first = 0 ∧ (kernel.queryVisit queryStart first).isLast = false := by
        rw [hZero.1, hLost]
        refine and_congr_right ?_
        rintro rfl
        rw [List.mem_filter, Bool.eq_false_iff, not_and, imp_iff_right List.mem_cons_self]
      rw [parked_of_visits row col e hParks hRest, sum_filter_not, ← hLost, carried,
        if_pos ⟨rfl, decide_eq_false hLater⟩, if_pos hParks, List.map_append, List.sum_append,
        List.map_singleton, List.sum_singleton]
      simp only [hStart]
      congr 1
      ring

end Visits

omit [ExactScalar α] in
/-- If no slots are needed although sums are parked, the first key tile is the only one. -/
theorem queryTiles_single (hValid : kernel.Valid) (hUses : kernel.plan.gradQ.usesWorkspace = true)
    (hSlots : ¬ 0 < kernel.workspace.gradQ) {first : Nat} {rest : List Nat}
    (hTiles : kernel.queryTiles queryStart = first :: rest) : first = 0 ∧ rest = [] := by
  have hOne : kernel.shape.numKeys ≤ kernel.tiles.blockJ := by
    rw [hValid.querySlots_pos hUses] at hSlots
    omega
  have hZero : ∀ k ∈ kernel.queryTiles queryStart, k = 0 := by
    intro k hk
    obtain ⟨⟨hLast, n, rfl⟩, -⟩ := (mem_queryTiles hValid).mp hk
    have hn : n = 0 := by
      by_contra hSome
      have := Nat.le_mul_of_pos_left kernel.tiles.blockJ (Nat.pos_of_ne_zero hSome)
      omega
    rw [hn, Nat.zero_mul]
  rw [hTiles] at hZero
  refine ⟨hZero first List.mem_cons_self, List.eq_nil_iff_forall_not_mem.mpr fun k hk => ?_⟩
  exact (zero_mem_queryTiles hValid hTiles).2 k hk (hZero k (List.mem_cons_of_mem first hk))

/-- What the visits of an entry of gradQ leave in it, under any policy. -/
theorem queryVisits_eq [ExactElement ε] (hValid : kernel.Valid) (row col : Nat) (e : Entry α ε) :
    (kernel.queryVisits x row col e).target =
      if kernel.queryTiles (tileOf kernel.tiles.blockI row) = [] then e.target
      else Element.round (kernel.carried (tileOf kernel.tiles.blockI row) e +
        (((kernel.queryTiles (tileOf kernel.tiles.blockI row)).map (kernel.querySum x row col)).sum -
          ((kernel.lostTiles (tileOf kernel.tiles.blockI row)).map
            (kernel.querySum x row col)).sum)) := by
  have hVisits : kernel.queryVisits x row col e =
      (kernel.queryTiles (tileOf kernel.tiles.blockI row)).foldl
        (kernel.visitQuery x (tileOf kernel.tiles.blockI row) row col) e := rfl
  rw [hVisits]
  generalize tileOf kernel.tiles.blockI row = queryStart
  split
  · rename_i hNone
    rw [hNone, List.foldl_nil]
  rename_i hSome
  cases hParks : kernel.parksQueries with
  | true =>
      have hTiles := (List.dropLast_concat_getLast hSome).symm
      have hLast := visits_parked (x := x) row col e hValid hParks hTiles
      rw [← hTiles] at hLast
      exact hLast
  | false =>
      have hLost : kernel.lostTiles queryStart = [] :=
        if_neg (Bool.eq_false_iff.mp hParks)
      obtain ⟨first, rest, hTiles⟩ := List.exists_cons_of_ne_nil hSome
      have hStart := zero_mem_queryTiles hValid hTiles
      have hCarried : kernel.carried queryStart e = if first = 0 then 0 else Element.widen e.target := by
        simp [carried, hLost, hParks, hStart.1]
      rw [hCarried, hLost, List.map_nil, List.sum_nil, sub_zero, hTiles]
      cases hPlan : kernel.plan.gradQ with
      | inPlace =>
          have hWide := hValid.wide_of_inPlace (by rw [hPlan]; rfl)
          exact visits_inPlace row col e hWide hPlan hStart.2
      | workspace =>
          have hUses : kernel.plan.gradQ.usesWorkspace = true := by rw [hPlan]; rfl
          have hSlots : ¬ 0 < kernel.workspace.gradQ := by
            rw [parksQueries, hUses, Bool.true_and, decide_eq_false_iff_not] at hParks
            exact hParks
          obtain ⟨rfl, rfl⟩ := queryTiles_single hValid hUses hSlots hTiles
          have hLast := isLast_of_append hValid (show kernel.queryTiles queryStart = [] ++ [0] from hTiles)
          rw [List.foldl_cons, List.foldl_nil, visitQuery, hPlan, decide_eq_false hSlots,
            Strategy.visitEntry_target _ _ (kernel.queryShare_eq x row col 0) hLast,
            if_neg fun h => Bool.false_ne_true h.1, if_pos rfl, List.map_singleton,
            List.sum_singleton]

omit [ExactScalar α] in
/-- All keys of a tile attend to the same query tiles. -/
theorem attends_in_tile (hValid : kernel.Valid) {keyStart : Nat}
    (hTile : ∃ n, keyStart = n * kernel.tiles.blockJ) (i : Nat) {j : Nat}
    (hj : j < kernel.tiles.blockJ) : kernel.attends i (keyStart + j) = true ↔
      kernel.firstQuery keyStart ≤ tileOf kernel.tiles.blockI i := by
  obtain ⟨n, rfl⟩ := hTile
  have hOwn : tileOf kernel.tiles.blockJ (n * kernel.tiles.blockJ + j) = n * kernel.tiles.blockJ :=
    (tileOf_eq_iff hValid.blockJ).mpr (by omega)
  rw [attends, hOwn, decide_eq_true_eq]

/-! ### Policies that ascend -/

/-- The first key tile attends to all queries, and every other to none that the one before it does
not attend to. -/
structure Ascending (kernel : Kernel α ε) : Prop where
  start : kernel.firstQuery 0 = 0
  step : ∀ n, (n + 1) * kernel.tiles.blockJ < kernel.shape.numKeys →
    kernel.firstQuery (n * kernel.tiles.blockJ) ≤ kernel.firstQuery ((n + 1) * kernel.tiles.blockJ)

namespace Ascending

omit [ExactScalar α] [Element ε α] in
theorem le (hAscending : kernel.Ascending) {m n : Nat} (hmn : m ≤ n)
    (hn : n * kernel.tiles.blockJ < kernel.shape.numKeys) :
    kernel.firstQuery (m * kernel.tiles.blockJ) ≤ kernel.firstQuery (n * kernel.tiles.blockJ) := by
  induction n, hmn using Nat.le_induction with
  | base => exact Nat.le_refl _
  | succ n hmn ih =>
      have hBefore : n * kernel.tiles.blockJ < kernel.shape.numKeys :=
        Nat.lt_of_le_of_lt (Nat.mul_le_mul_right _ (Nat.le_succ n)) hn
      exact Nat.le_trans (ih hBefore) (hAscending.step n hn)

omit [ExactScalar α] in
theorem zero_mem (hAscending : kernel.Ascending) (hValid : kernel.Valid) (queryStart : Nat) :
    0 ∈ kernel.queryTiles queryStart := by
  rw [mem_queryTiles hValid, hAscending.start]
  exact ⟨⟨hValid.numKeys, 0, (Nat.zero_mul _).symm⟩, Nat.zero_le queryStart⟩

omit [ExactScalar α] in
/-- Where a further key tile visits, the next one does. -/
theorem lostTiles_eq (hAscending : kernel.Ascending) (hValid : kernel.Valid) (queryStart : Nat) :
    kernel.lostTiles queryStart = [] := by
  rw [lostTiles]
  split
  · rw [List.filter_eq_nil_iff]
    intro k hk
    have hSome := List.ne_nil_of_mem (List.mem_of_mem_dropLast hk)
    have hSorted := pairwise_queryTiles hValid queryStart
    rw [← List.dropLast_concat_getLast hSome, List.pairwise_append] at hSorted
    have hLess := hSorted.2.2 k hk _ List.mem_cons_self
    obtain ⟨⟨hInside, n, hn⟩, hVisits⟩ := (mem_queryTiles hValid).mp (List.getLast_mem hSome)
    obtain ⟨⟨-, m, rfl⟩, -⟩ := (mem_queryTiles hValid).mp (List.mem_of_mem_dropLast hk)
    rw [isLast_iff hValid ⟨m, rfl⟩, not_not, mem_queryTiles hValid, ← Nat.succ_mul]
    rw [hn] at hLess hInside hVisits
    have hmn : m + 1 ≤ n := Nat.lt_of_mul_lt_mul_right hLess
    refine ⟨⟨?_, m + 1, rfl⟩, Nat.le_trans (hAscending.le hmn hInside) hVisits⟩
    exact Nat.lt_of_le_of_lt (Nat.mul_le_mul_right _ hmn) hInside
  · rfl

omit [ExactScalar α] in
theorem of_fullAttention (hValid : kernel.Valid) (hPolicy : kernel.policy = fullAttention) :
    kernel.Ascending := by
  have hAll := firstQuery_fullAttention hValid hPolicy
  exact ⟨hAll 0, fun n _ => by rw [hAll, hAll]⟩

end Ascending

end Kernel

namespace Formula

variable {request : Request α ε} {settings : Settings} {policy : QueryStart} {u : UnitCoord}

/-- The shares of the key tiles that visit a query tile add up to gradQ. -/
theorem sum_querySum (hValid : (request.kernel settings policy).Valid)
    (hReads : (request.kernel settings policy).Reads u) {i : Nat}
    (hi : i < request.shape.numQueries) (c : Nat) :
    (((request.kernel settings policy).queryTiles (tileOf settings.blockI i)).map
      ((request.kernel settings policy).querySum
        ((request.kernel settings policy).unitValues u) i c)).sum =
      gradQ request settings (request.kernel settings policy).attends u i c := by
  have hBlock : 0 < settings.blockJ := hValid.blockJ
  have hTerm : ∀ keyStart ∈ (request.kernel settings policy).keyStarts,
      (if (request.kernel settings policy).firstQuery keyStart ≤ tileOf settings.blockI i then
        (request.kernel settings policy).querySum
          ((request.kernel settings policy).unitValues u) i c keyStart else 0) =
      ∑ j ∈ range (min settings.blockJ (request.shape.numKeys - keyStart)),
        scale request settings * (gradScore request settings
          (request.kernel settings policy).attends u i (keyStart + j) *
            k request u (keyStart + j) c) := by
    intro keyStart hKey
    have hTile := ((Kernel.mem_keyStarts hValid).mp hKey).2
    have hAttends : ∀ j ∈ range (min settings.blockJ (request.shape.numKeys - keyStart)),
        ((request.kernel settings policy).attends i (keyStart + j) = true ↔
          (request.kernel settings policy).firstQuery keyStart ≤ tileOf settings.blockI i) :=
      fun j hj => Kernel.attends_in_tile hValid hTile i
        (Nat.lt_of_lt_of_le (mem_range.mp hj) (Nat.min_le_left ..))
    split
    · rename_i hVisits
      refine sum_congr rfl fun j hj => ?_
      rw [gradScore_eq hReads hi ((hAttends j hj).mpr hVisits)]
      exact (mul_assoc _ _ _).trans (mul_left_comm _ _ _)
    · rename_i hNot
      refine (sum_eq_zero fun j hj => ?_).symm
      have hZero : gradScore request settings (request.kernel settings policy).attends u i
          (keyStart + j) = 0 := gradScore_eq_zero (mt (hAttends j hj).mp hNot)
      rw [hZero, zero_mul, mul_zero]
  rw [Kernel.queryTiles, gradQ, mul_sum, sum_map_filter]
  simp only [decide_eq_true_eq]
  rw [List.map_congr_left hTerm]
  rw [range_eq_Ico]
  exact sum_tiles hBlock fun j => scale request settings * (gradScore request settings
    (request.kernel settings policy).attends u i j * k request u j c)

end Formula

end FusedAttention
