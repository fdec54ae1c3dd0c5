import Mathlib
import FusedAttention.Proofs.Grouping
import FusedAttention.Proofs.UnitEntries

/-! The workspace as places: the slots of a unit lie apart in its slice, the slices of all units are the
whole workspace, and every output tile that is visited more than once has a slot if its gradient is summed
in the workspace. -/
namespace FusedAttention

/-! ### Visits -/

/-- The starts of the query tile and the key tile of each pair that a unit visits, one key tile after the
other. -/
def visitedPairs (policy : QueryStart) (s : Shape) (t : TileSize) : List (Nat × Nat) :=
  (tileStarts 0 s.numKeys t.blockJ).flatMap fun keyStart =>
    (tileStarts (firstQueryTile policy keyStart s.numQueries t.blockI) s.numQueries t.blockI).map
      fun queryStart => (queryStart, keyStart)

/-- Each key tile that attends to a query tile visits it once. -/
theorem countP_visitedPairs {policy : QueryStart} {s : Shape} {t : TileSize} (hBlock : 0 < t.blockI)
    {tile : Nat} (hTile : tile * t.blockI < s.numQueries) :
    (visitedPairs policy s t).countP (fun pair => pair.1 == tile * t.blockI) =
      (tileStarts 0 s.numKeys t.blockJ).countP fun keyStart =>
        firstQueryTile policy keyStart s.numQueries t.blockI ≤ tile * t.blockI := by
  have hOwn : tileOf t.blockI (tile * t.blockI) = tile * t.blockI := by
    rw [tileOf, Nat.mul_div_cancel _ hBlock]
  unfold visitedPairs
  induction tileStarts 0 s.numKeys t.blockJ with
  | nil => rfl
  | cons keyStart rest ih =>
      have hHere : tileOf t.blockI (tile * t.blockI) ∈ tileStarts
          (firstQueryTile policy keyStart s.numQueries t.blockI) s.numQueries t.blockI ↔ _ :=
        tileOf_mem_queries hBlock hTile
      rw [hOwn] at hHere
      rw [List.flatMap_cons, List.countP_append, ih, List.countP_cons, Nat.add_comm, List.countP_map]
      congr 1
      show (tileStarts _ _ _).count (tile * t.blockI) = _
      rw [List.Nodup.count (nodup_tileStarts hBlock)]
      simp only [hHere, decide_eq_true_eq]

/-! ### Slots -/

/-- A slot in the slice of a unit: that of a column chunk of gradK or gradV, which all key tiles share, or
that of a column chunk of one query tile of gradQ. -/
inductive Slot where
  | key (side : KeySide) (chunk : Nat)
  | query (tile chunk : Nat)
  deriving DecidableEq, Repr

/-- Where the slots of a gradient start in the slice of a unit: of gradK or gradV, or of gradQ. -/
def Plan.regionStart (p : Plan) (s : Shape) : Option KeySide → Nat
  | some side => side.slotBase (p.workspaceLayout s)
  | none => (p.workspaceLayout s).gradK + (p.workspaceLayout s).gradV

def Plan.regionSize (p : Plan) (s : Shape) : Option KeySide → Nat
  | some side => side.slotSize (p.workspaceLayout s)
  | none => (p.workspaceLayout s).gradQ

namespace Slot

/-- Start and length of a slot in the slice of a unit. -/
def range (p : Plan) (s : Shape) : Slot → Nat × Nat
  | key side chunk => side.slot (p.workspaceLayout s) chunk
  | query tile chunk => (p.workspaceLayout s).gradQSlot (tile * p.tiles.blockI)
      (chunksOf s.headDim p.queryChunk) chunk

/-- The places of a slot. -/
def places (p : Plan) (s : Shape) (slot : Slot) : Set Nat :=
  Set.Ico (slot.range p s).1 ((slot.range p s).1 + (slot.range p s).2)

/-- A unit can use the slot. -/
def Usable (p : Plan) (s : Shape) : Slot → Prop
  | key side chunk => (side.strategy p).usesWorkspace = true ∧ chunk < chunksOf (side.cols s) p.keyChunk
  | query tile chunk => 0 < (p.workspaceLayout s).gradQ ∧ tile * p.tiles.blockI < s.numQueries ∧
      chunk < chunksOf s.headDim p.queryChunk

/-- The gradient that a slot belongs to, `none` for gradQ. -/
def side : Slot → Option KeySide
  | key side _ => some side
  | query _ _ => none

/-- The number of a slot among those of its gradient. -/
def number (p : Plan) (s : Shape) : Slot → Nat
  | key _ chunk => chunk
  | query tile chunk => tile * chunksOf s.headDim p.queryChunk + chunk

variable {p : Plan} {s : Shape} {slot slot' : Slot}

theorem range_eq (hBlockI : 0 < p.tiles.blockI) (s : Shape) (slot : Slot) :
    slot.range p s = (p.regionStart s slot.side + slot.number p s * (p.tiles.blockI * p.tiles.blockJ),
      p.tiles.blockI * p.tiles.blockJ) := by
  cases slot with
  | key side chunk => exact Plan.keySlot_eq ..
  | query tile chunk =>
      rw [range, Plan.querySlot_eq, Nat.mul_div_cancel _ hBlockI]
      rfl

theorem mem_places (hBlockI : 0 < p.tiles.blockI) {place : Nat} : place ∈ slot.places p s ↔
    p.regionStart s slot.side + slot.number p s * (p.tiles.blockI * p.tiles.blockJ) ≤ place ∧
      place < p.regionStart s slot.side + slot.number p s * (p.tiles.blockI * p.tiles.blockJ) +
        p.tiles.blockI * p.tiles.blockJ := by
  rw [places, range_eq hBlockI, Set.mem_Ico]

/-- A slot that can be used is set aside. -/
theorem Usable.end_le (h : slot.Usable p s) (hBlockI : 0 < p.tiles.blockI)
    (hBlockJ : 0 < p.tiles.blockJ) (hKeys : 0 < s.numKeys) :
    slot.number p s * (p.tiles.blockI * p.tiles.blockJ) + p.tiles.blockI * p.tiles.blockJ ≤
      p.regionSize s slot.side := by
  cases slot with
  | key side chunk =>
      obtain ⟨hUses, hChunk⟩ := h
      exact run_within hChunk (Plan.keySlots_le hBlockJ hKeys hUses)
  | query tile chunk =>
      obtain ⟨hSlots, hTile, hChunk⟩ := h
      have hRegion := Plan.querySlots_le hBlockI hSlots hTile
      rw [← Nat.mul_assoc] at hRegion
      exact run_within (mul_add_lt (Nat.lt_succ_self tile) hChunk) hRegion

/-- The slots of different gradients lie apart, one gradient behind the other. -/
theorem regions_apart (p : Plan) (s : Shape) {side side' : Option KeySide} (hNe : side ≠ side') :
    p.regionStart s side + p.regionSize s side ≤ p.regionStart s side' ∨
      p.regionStart s side' + p.regionSize s side' ≤ p.regionStart s side := by
  rcases side with _ | _ | _ <;> rcases side' with _ | _ | _ <;>
    simp only [Plan.regionStart, Plan.regionSize, KeySide.slotBase, KeySide.slotSize] <;>
    first | omega | exact absurd rfl hNe

theorem region_le_unitStride (p : Plan) (s : Shape) (side : Option KeySide) :
    p.regionStart s side + p.regionSize s side ≤ (p.workspaceLayout s).unitStride := by
  cases side with
  | some side => exact p.keySlots_end_le s side
  | none => exact p.slots_le_unitStride s

/-- Usable slots of one gradient have numbers of their own. -/
theorem Usable.number_inj (h : slot.Usable p s) (h' : slot'.Usable p s) (hSide : slot.side = slot'.side)
    (hNumber : slot.number p s = slot'.number p s) : slot = slot' := by
  cases slot with
  | key side chunk =>
      cases slot' with
      | key side' chunk' =>
          obtain rfl : side = side' := Option.some.inj hSide
          obtain rfl : chunk = chunk' := hNumber
          rfl
      | query tile' chunk' => cases hSide
  | query tile chunk =>
      cases slot' with
      | key side' chunk' => cases hSide
      | query tile' chunk' =>
          obtain ⟨rfl, rfl⟩ := mul_add_inj h.2.2 h'.2.2 hNumber
          rfl

section Places

variable (hBlockI : 0 < p.tiles.blockI) (hBlockJ : 0 < p.tiles.blockJ) (hKeys : 0 < s.numKeys)

include hBlockI hBlockJ hKeys

theorem Usable.places_subset (h : slot.Usable p s) :
    slot.places p s ⊆ Set.Iio (p.workspaceLayout s).unitStride := by
  intro place hPlace
  rw [mem_places hBlockI] at hPlace
  have hEnd := h.end_le hBlockI hBlockJ hKeys
  have hRegion := region_le_unitStride p s slot.side
  rw [Set.mem_Iio]
  omega

/-- A unit has a slice if it can use a slot. -/
theorem Usable.isEmpty_eq (h : slot.Usable p s) : (p.workspaceLayout s).isEmpty = false := by
  have hLen := Nat.mul_pos hBlockI hBlockJ
  have hEnd := h.end_le hBlockI hBlockJ hKeys
  have hRegion := region_le_unitStride p s slot.side
  rw [WorkspaceLayout.isEmpty, decide_eq_false_iff_not]
  omega

/-- No place belongs to two slots. -/
theorem Usable.disjoint_places (h : slot.Usable p s) (h' : slot'.Usable p s) (hNe : slot ≠ slot') :
    Disjoint (slot.places p s) (slot'.places p s) := by
  rw [Set.disjoint_left]
  intro place hPlace hPlace'
  rw [mem_places hBlockI] at hPlace hPlace'
  by_cases hSide : slot.side = slot'.side
  · have hNumber : slot.number p s ≠ slot'.number p s := mt (h.number_inj h' hSide) hNe
    have hApart := run_apart (p.tiles.blockI * p.tiles.blockJ) hNumber
    rw [hSide] at hPlace
    omega
  · have hApart := regions_apart p s hSide
    have hEnd := h.end_le hBlockI hBlockJ hKeys
    have hEnd' := h'.end_le hBlockI hBlockJ hKeys
    omega

end Places

end Slot

/-- The places in the slice of a unit that its visits may write are those of the slots that it can use. -/
theorem Kernel.Valid.inSlot_iff {α ε : Type} [Element ε α] {kernel : Kernel α ε} (hValid : kernel.Valid)
    {place : Nat} : kernel.InSlot place ↔
      ∃ slot : Slot, slot.Usable kernel.plan kernel.shape ∧
        place ∈ slot.places kernel.plan kernel.shape := by
  constructor
  · intro hSlot
    cases hSlot with
    | key side chunk hUses hChunk hLow hHigh =>
        rw [hValid.workspace] at hLow hHigh
        exact ⟨.key side chunk, ⟨hUses, hChunk⟩, hLow, hHigh⟩
    | query queryStart chunk hSlots hTile hChunk hLow hHigh =>
        obtain ⟨hQuery, tile, hStart⟩ := (mem_tileStarts hValid.blockI).mp hTile
        rw [Nat.zero_add] at hStart
        subst hStart
        rw [hValid.workspace] at hSlots hLow hHigh
        exact ⟨.query tile chunk, ⟨hSlots, hQuery, hChunk⟩, hLow, hHigh⟩
  · rintro ⟨slot, hUsable, hLow, hHigh⟩
    cases slot with
    | key side chunk =>
        obtain ⟨hUses, hChunk⟩ := hUsable
        exact .key side chunk hUses hChunk (hValid.workspace ▸ hLow) (hValid.workspace ▸ hHigh)
    | query tile chunk =>
        obtain ⟨hSlots, hQuery, hChunk⟩ := hUsable
        have hTile : tile * kernel.tiles.blockI ∈
            tileStarts 0 kernel.shape.numQueries kernel.tiles.blockI :=
          (mem_tileStarts hValid.blockI).mpr ⟨hQuery, tile, (Nat.zero_add _).symm⟩
        rw [← hValid.workspace] at hSlots
        exact .query _ chunk hSlots hTile hChunk (hValid.workspace ▸ hLow) (hValid.workspace ▸ hHigh)

/-! ### Slices -/

/-- The places of the slice of a unit in the workspace. -/
def WorkspaceLayout.unitPlaces (w : WorkspaceLayout) (heads : Nat) (u : UnitCoord) : Set Nat :=
  Set.Ico (u.index heads * w.unitStride) (u.index heads * w.unitStride + w.unitStride)

namespace Plan

variable {p : Plan} {s : Shape} {u u' : UnitCoord}

theorem disjoint_unitPlaces (p : Plan) (hu : s.HasUnit u) (hu' : s.HasUnit u') (hNe : u ≠ u') :
    Disjoint ((p.workspaceLayout s).unitPlaces s.heads u)
      ((p.workspaceLayout s).unitPlaces s.heads u') := by
  have hNumber : u.index s.heads ≠ u'.index s.heads := mt (Shape.index_inj hu hu') hNe
  have hApart := run_apart (p.workspaceLayout s).unitStride hNumber
  rw [Set.disjoint_left]
  intro place hPlace hPlace'
  rw [WorkspaceLayout.unitPlaces, Set.mem_Ico] at hPlace hPlace'
  omega

/-- The slices are the whole workspace. -/
theorem iUnion_unitPlaces (p : Plan) (s : Shape) :
    ⋃ u ∈ {u | s.HasUnit u}, (p.workspaceLayout s).unitPlaces s.heads u =
      Set.Iio (p.workspaceLayout s).elements := by
  ext place
  simp only [Set.mem_iUnion, Set.mem_ofPred_eq, exists_prop, Set.mem_Iio]
  constructor
  · rintro ⟨u, hu, -, hHigh⟩
    exact Nat.lt_of_lt_of_le hHigh (run_within (Shape.index_lt hu) (Nat.le_refl _))
  · intro hPlace
    have hStride : 0 < (p.workspaceLayout s).unitStride := Nat.pos_of_lt_mul_left hPlace
    obtain ⟨n, hn, hLow, hHigh⟩ := exists_run hStride hPlace
    obtain ⟨u, hu, rfl⟩ := Shape.exists_index hn
    exact ⟨u, hu, hLow, hHigh⟩

end Plan

/-! ### Output tiles -/

/-- A column chunk of the rows of a gradient that one key tile or one query tile adds to. -/
inductive OutputTile where
  | key (side : KeySide) (tile chunk : Nat)
  | query (tile chunk : Nat)
  deriving DecidableEq, Repr

namespace OutputTile

/-- The slot of an output tile, if it has one. -/
def slot : OutputTile → Slot
  | key side _ chunk => .key side chunk
  | query tile chunk => .query tile chunk

/-- The output tile is one of a gradient that is summed in the workspace. -/
def InWorkspace (p : Plan) (s : Shape) : OutputTile → Prop
  | key side tile chunk => (side.strategy p).usesWorkspace = true ∧ tile * p.tiles.blockJ < s.numKeys ∧
      chunk < chunksOf (side.cols s) p.keyChunk
  | query tile chunk => p.gradQ.usesWorkspace = true ∧ tile * p.tiles.blockI < s.numQueries ∧
      chunk < chunksOf s.headDim p.queryChunk

/-- How often a unit adds to an output tile. -/
def visits (policy : QueryStart) (s : Shape) (t : TileSize) : OutputTile → Nat
  | key _ tile _ => (visitedPairs policy s t).countP fun pair => pair.2 == tile * t.blockJ
  | query tile _ => (visitedPairs policy s t).countP fun pair => pair.1 == tile * t.blockI

variable {p : Plan} {s : Shape}

/-- A query tile has no more visits than there are key tiles. -/
theorem visits_query_le {policy : QueryStart} {t : TileSize} (hBlockI : 0 < t.blockI) {tile : Nat}
    (hTile : tile * t.blockI < s.numQueries) (chunk : Nat) :
    (query tile chunk).visits policy s t ≤ chunksOf s.numKeys t.blockJ := by
  rw [visits, countP_visitedPairs hBlockI hTile]
  refine List.countP_le_length.trans (Nat.le_of_eq ?_)
  simp [tileStarts]

/-- Where every key attends to every query, all key tiles visit a query tile. -/
theorem visits_query_fullAttention {t : TileSize} (hBlockI : 0 < t.blockI) {tile : Nat}
    (hTile : tile * t.blockI < s.numQueries) (chunk : Nat) :
    (query tile chunk).visits fullAttention s t = chunksOf s.numKeys t.blockJ := by
  have hFirst : ∀ keyStart, firstQueryTile fullAttention keyStart s.numQueries t.blockI = 0 := by
    intro keyStart
    have hQueries : ¬ s.numQueries ≤ 0 := by omega
    simp [firstQueryTile, fullAttention, hQueries]
  rw [visits, countP_visitedPairs hBlockI hTile]
  simp [hFirst, tileStarts]

/-- Slots of a gradient that is summed in the workspace are there for every output tile that is visited
more than once. -/
theorem usable_of_visits (hBlockI : 0 < p.tiles.blockI) (hBlockJ : 0 < p.tiles.blockJ)
    (hQueries : 0 < s.numQueries) (hHeadDim : 0 < s.headDim) {policy : QueryStart} {tile : OutputTile}
    (hIn : tile.InWorkspace p s) (hVisits : 1 < tile.visits policy s p.tiles) :
    tile.slot.Usable p s := by
  cases tile with
  | key side tile chunk => exact ⟨hIn.1, hIn.2.2⟩
  | query tile chunk =>
      obtain ⟨hUses, hTile, hChunk⟩ := hIn
      have hMore : p.tiles.blockJ < s.numKeys := (one_lt_chunksOf_iff hBlockJ).mp
        (Nat.lt_of_lt_of_le hVisits (visits_query_le hBlockI hTile chunk))
      exact ⟨(Plan.querySlots_pos hBlockI hBlockJ hQueries hHeadDim hUses).mpr hMore, hTile, hChunk⟩

/-- Where every key attends to every query, gradQ has slots just if its tiles are visited more than
once. -/
theorem usable_query_iff (hBlockI : 0 < p.tiles.blockI) (hBlockJ : 0 < p.tiles.blockJ)
    (hQueries : 0 < s.numQueries) (hHeadDim : 0 < s.headDim) {tile chunk : Nat}
    (hIn : (query tile chunk).InWorkspace p s) :
    (Slot.query tile chunk).Usable p s ↔ 1 < (query tile chunk).visits fullAttention s p.tiles := by
  constructor
  · rintro ⟨hSlots, hTile, -⟩
    rw [visits_query_fullAttention hBlockI hTile, one_lt_chunksOf_iff hBlockJ]
    exact (Plan.querySlots_pos hBlockI hBlockJ hQueries hHeadDim hIn.1).mp hSlots
  · exact usable_of_visits hBlockI hBlockJ hQueries hHeadDim hIn

end OutputTile

/-- The slots of the workspace never collide. Each slot that a unit can use is one accumulator tile long,
lies in the slice of the unit and apart from its other slots. The slices of all units lie apart and
are the whole workspace. An output tile of a gradient that is summed in the workspace has a slot if it is
visited more than once, under any policy; where every key attends to every query, gradQ has slots
only then. -/
theorem Plan.slots_apart (p : Plan) (s : Shape) (hBlockI : 0 < p.tiles.blockI)
    (hBlockJ : 0 < p.tiles.blockJ) (hQueries : 0 < s.numQueries) (hKeys : 0 < s.numKeys)
    (hHeadDim : 0 < s.headDim) :
    (∀ slot : Slot, slot.Usable p s →
      (slot.range p s).2 = p.tiles.blockI * p.tiles.blockJ ∧
        slot.places p s ⊆ Set.Iio (p.workspaceLayout s).unitStride ∧
        (p.workspaceLayout s).isEmpty = false) ∧
      {slot : Slot | slot.Usable p s}.PairwiseDisjoint (Slot.places p s) ∧
      {u | s.HasUnit u}.PairwiseDisjoint ((p.workspaceLayout s).unitPlaces s.heads) ∧
      ⋃ u ∈ {u | s.HasUnit u}, (p.workspaceLayout s).unitPlaces s.heads u =
        Set.Iio (p.workspaceLayout s).elements ∧
      (∀ tile : OutputTile, tile.InWorkspace p s → ∀ policy, 1 < tile.visits policy s p.tiles →
        tile.slot.Usable p s) ∧
      ∀ tile chunk, (OutputTile.query tile chunk).InWorkspace p s →
        ((Slot.query tile chunk).Usable p s ↔
          1 < (OutputTile.query tile chunk).visits fullAttention s p.tiles) := by
  refine ⟨fun slot hUsable => ⟨?length, hUsable.places_subset hBlockI hBlockJ hKeys,
    hUsable.isEmpty_eq hBlockI hBlockJ hKeys⟩, ?slots, ?units, p.iUnion_unitPlaces s, ?missing,
    fun tile chunk => OutputTile.usable_query_iff hBlockI hBlockJ hQueries hHeadDim⟩
  case length => rw [Slot.range_eq hBlockI]
  case slots =>
    intro slot hUsable slot' hUsable' hNe
    exact hUsable.disjoint_places hBlockI hBlockJ hKeys hUsable' hNe
  case units =>
    intro u hu u' hu' hNe
    exact p.disjoint_unitPlaces hu hu' hNe
  case missing =>
    intro tile hIn policy hVisits
    exact OutputTile.usable_of_visits hBlockI hBlockJ hQueries hHeadDim hIn hVisits

/-- Three key tiles of 40 keys visit each of the three query tiles of 33 queries. The last slots of gradV
and gradQ lie apart, and so do the slices of the last unit of one batch and the first of the next. -/
theorem Plan.slots_threeTiles :
    let p : Plan := .of .f16 ⟨16, 16, 64⟩
    let s : Shape := ⟨2, 3, 33, 40, 40, 24, 1⟩
    Disjoint ((Slot.key .values 1).places p s) ((Slot.query 2 2).places p s) ∧
      (Slot.query 2 2).places p s ⊆ Set.Iio 6144 ∧
      Disjoint ((p.workspaceLayout s).unitPlaces 3 ⟨0, 2⟩) ((p.workspaceLayout s).unitPlaces 3 ⟨1, 0⟩) ∧
      ⋃ u ∈ {u | s.HasUnit u}, (p.workspaceLayout s).unitPlaces 3 u = Set.Iio 36864 ∧
      1 < (OutputTile.query 2 2).visits fullAttention s p.tiles := by
  intro p s
  obtain ⟨hInside, hSlots, hUnits, hAll, -, hNeeded⟩ := p.slots_apart s (by decide) (by decide)
    (by decide) (by decide) (by decide)
  have hStride : (p.workspaceLayout s).unitStride = 6144 := by decide
  have hElements : (p.workspaceLayout s).elements = 36864 := by decide
  rw [hElements] at hAll
  have hValues : (Slot.key .values 1).Usable p s := ⟨rfl, by decide⟩
  have hQuery : (Slot.query 2 2).Usable p s := ⟨by decide, by decide, by decide⟩
  exact ⟨hSlots hValues hQuery (by decide), hStride ▸ (hInside _ hQuery).2.1,
    hUnits (show s.HasUnit ⟨0, 2⟩ from ⟨by decide, by decide⟩)
      (show s.HasUnit ⟨1, 0⟩ from ⟨by decide, by decide⟩) (by decide), hAll,
    (hNeeded 2 2 ⟨rfl, by decide, by decide⟩).mp hQuery⟩

end FusedAttention
