import FusedAttention.Proofs.Accumulation
import FusedAttention.Proofs.BiasEntries
import FusedAttention.Proofs.Slots

/-! What one unit computes with, entry by entry: the numbers it reads, the shares that a pair of
tiles adds to its gradients, and where the sums lie between two visits. -/
namespace FusedAttention

variable {α ε : Type}

/-- The accumulator of a gradient of a key tile that stays across the query loop. -/
def KeySide.register {t : TileSize} : KeySide → UnitState α ε t → Tile α t.blockJ t.blockI
  | .keys, state => state.gradK
  | .values, state => state.gradV

namespace UnitValues

variable [Scalar α] (x : UnitValues α)

/-- Adds to one entry of gradQ what the key tile of `rows` rows from `keyStart` on contributes. -/
def queryShare (keyStart rows query col : Nat) : α → α :=
  Tile.addProducts rows (fun j => x.gradScore query (keyStart + j) * x.scale)
    fun j => x.key (keyStart + j) col

/-- Adds to one entry of gradK or gradV what the query tile of `rows` rows from `queryStart` on
contributes. -/
def keyShare (side : KeySide) (queryStart rows key col : Nat) : α → α :=
  match side with
  | .keys => Tile.addProducts rows (fun i => x.gradScore (queryStart + i) key * x.scale)
      fun i => x.query (queryStart + i) col
  | .values => Tile.addProducts rows (fun i => x.weight (queryStart + i) key)
      fun i => x.gradOut (queryStart + i) col

end UnitValues

namespace Kernel

variable [Element ε α]

/-- What the checks leave of the sizes and the plan. -/
structure Valid (kernel : Kernel α ε) : Prop where
  plan : kernel.plan = .of (Element.dtype ε) kernel.tiles
  workspace : kernel.workspace = kernel.plan.workspaceLayout kernel.shape
  blockI : 0 < kernel.tiles.blockI
  blockJ : 0 < kernel.tiles.blockJ
  numQueries : 0 < kernel.shape.numQueries
  numKeys : 0 < kernel.shape.numKeys
  headDim : 0 < kernel.shape.headDim
  headDimValue : 0 < kernel.shape.headDimValue
  cols : kernel.shape.headDim ≤ kernel.tiles.maxHeadDim
  colsValue : kernel.shape.headDimValue ≤ kernel.tiles.maxHeadDim
  groups : kernel.shape.batch % kernel.shape.groupSize = 0
  lanes : threadsPerRow kernel.tiles.blockI = Nat.pow 2 (threadsPerRow kernel.tiles.blockI).log2

variable {kernel : Kernel α ε}

/-! ### Slots -/

namespace Valid

theorem keyCols_pos (hValid : kernel.Valid) (side : KeySide) : 0 < side.cols kernel.shape := by
  cases side with
  | keys => exact hValid.headDim
  | values => exact hValid.headDimValue

theorem keyCols_le (hValid : kernel.Valid) (side : KeySide) :
    side.cols kernel.shape ≤ kernel.tiles.maxHeadDim := by
  cases side with
  | keys => exact hValid.cols
  | values => exact hValid.colsValue

/-- A gradient that stays in registers has no more columns than its accumulator. -/
theorem keyCols_le_blockI (hValid : kernel.Valid) (hResident : kernel.plan.outputInRegisters = true)
    (side : KeySide) : side.cols kernel.shape ≤ kernel.tiles.blockI := by
  rw [hValid.plan] at hResident
  simp only [Plan.of, Bool.and_eq_true, decide_eq_true_eq] at hResident
  exact Nat.le_trans (hValid.keyCols_le side) hResident.2

theorem keySlot_eq (hValid : kernel.Valid) (side : KeySide) (chunk : Nat) :
    side.slot kernel.workspace chunk = (side.slotBase kernel.workspace +
      chunk * (kernel.tiles.blockJ * kernel.tiles.blockI),
        kernel.tiles.blockJ * kernel.tiles.blockI) := by
  rw [hValid.workspace, Nat.mul_comm kernel.tiles.blockJ]
  exact Plan.keySlot_eq ..

/-- The slots that a key tile uses for all its column chunks are set aside. -/
theorem keySlots_le (hValid : kernel.Valid) {side : KeySide}
    (hUses : (side.strategy kernel.plan).usesWorkspace = true) :
    chunksOf (side.cols kernel.shape) kernel.tiles.blockI *
      (kernel.tiles.blockJ * kernel.tiles.blockI) ≤ side.slotSize kernel.workspace := by
  rw [hValid.workspace, Nat.mul_comm kernel.tiles.blockJ]
  exact Plan.keySlots_le hValid.blockJ hValid.numKeys hUses

/-- Without slots for gradQ its sums are not parked, or a single key tile completes them. -/
theorem querySlots_pos (hValid : kernel.Valid)
    (hUses : kernel.plan.gradQ.usesWorkspace = true) :
    0 < kernel.workspace.gradQ ↔ kernel.tiles.blockJ < kernel.shape.numKeys := by
  rw [hValid.workspace]
  exact Plan.querySlots_pos hValid.blockI hValid.blockJ hValid.numQueries hValid.headDim hUses

/-- Slots of different query tiles follow each other, all within what is set aside. -/
theorem querySlots_le (hValid : kernel.Valid) (hSlots : 0 < kernel.workspace.gradQ)
    {queryStart : Nat} (hTile : ∃ n, queryStart = n * kernel.tiles.blockI)
    (hQuery : queryStart < kernel.shape.numQueries) :
    (queryStart / kernel.tiles.blockI + 1) *
      (chunksOf kernel.shape.headDim kernel.tiles.blockJ *
        (kernel.tiles.blockI * kernel.tiles.blockJ)) ≤ kernel.workspace.gradQ := by
  obtain ⟨n, rfl⟩ := hTile
  rw [hValid.workspace] at hSlots ⊢
  rw [Nat.mul_div_cancel _ hValid.blockI]
  exact Plan.querySlots_le hValid.blockI hSlots hQuery

theorem slots_le_unitStride (hValid : kernel.Valid) :
    kernel.workspace.gradK + kernel.workspace.gradV + kernel.workspace.gradQ ≤
      kernel.workspace.unitStride := by
  rw [hValid.workspace]
  exact Plan.slots_le_unitStride ..

theorem keySlots_end_le (hValid : kernel.Valid) (side : KeySide) :
    side.slotBase kernel.workspace + side.slotSize kernel.workspace ≤
      kernel.workspace.unitStride := by
  rw [hValid.workspace]
  exact Plan.keySlots_end_le ..

end Valid

/-- Where the slots of a query tile start in the slice of a unit. -/
def queryBase (kernel : Kernel α ε) (queryStart : Nat) : Nat :=
  kernel.workspace.gradK + kernel.workspace.gradV + queryStart / kernel.tiles.blockI *
    (chunksOf kernel.shape.headDim kernel.tiles.blockJ * (kernel.tiles.blockI * kernel.tiles.blockJ))

theorem Valid.querySlot_eq (hValid : kernel.Valid) (queryStart chunk : Nat) :
    kernel.workspace.gradQSlot queryStart
        (chunksOf kernel.shape.headDim kernel.plan.queryChunk) chunk =
      (kernel.queryBase queryStart + chunk * (kernel.tiles.blockI * kernel.tiles.blockJ),
        kernel.tiles.blockI * kernel.tiles.blockJ) := by
  have hSlot := kernel.plan.querySlot_eq kernel.shape queryStart
    (chunksOf kernel.shape.headDim kernel.plan.queryChunk) chunk
  rw [← hValid.workspace, Nat.add_mul, ← Nat.add_assoc, Nat.mul_assoc] at hSlot
  exact hSlot

/-! ### The slice of the workspace -/

/-- The slice of the workspace that a unit is given. -/
def Slice (kernel : Kernel α ε) (workspace : Option (Array α)) : Prop :=
  workspace.map (·.size) =
    if kernel.workspace.isEmpty then none else some kernel.workspace.unitStride

omit [Element ε α] in
theorem Slice.size_eq {workspace : Option (Array α)} (hSlice : kernel.Slice workspace) :
    ∀ buffer ∈ workspace, buffer.size = kernel.workspace.unitStride := by
  intro buffer hBuffer
  unfold Slice at hSlice
  rw [Option.mem_def.mp hBuffer, Option.map_some] at hSlice
  split at hSlice
  · cases hSlice
  · exact Option.some.inj hSlice

omit [Element ε α] in
theorem Slice.isSome {workspace : Option (Array α)} (hSlice : kernel.Slice workspace)
    (hStride : 0 < kernel.workspace.unitStride) : workspace.isSome = true := by
  have hEmpty : ¬ kernel.workspace.isEmpty = true := by
    rw [WorkspaceLayout.isEmpty, decide_eq_true_eq]
    omega
  have h := congrArg Option.isSome hSlice
  rw [if_neg hEmpty, Option.isSome_map] at h
  exact h

/-- If the sums of a key tile are parked, there is a slice for them. -/
theorem Slice.isSome_of_keys {workspace : Option (Array α)} (hSlice : kernel.Slice workspace)
    (hValid : kernel.Valid) {side : KeySide}
    (hUses : (side.strategy kernel.plan).usesWorkspace = true) : workspace.isSome = true := by
  apply hSlice.isSome
  have hSlots := hValid.keySlots_le hUses
  have hEnd := hValid.keySlots_end_le side
  have hChunks := chunksOf_pos hValid.blockI (hValid.keyCols_pos side)
  have := Nat.mul_pos hChunks (Nat.mul_pos hValid.blockJ hValid.blockI)
  omega

/-- The slots of a query tile lie inside the slice. -/
theorem Slice.querySlots_le {workspace : Option (Array α)} (hSlice : kernel.Slice workspace)
    (hValid : kernel.Valid) (hSlots : 0 < kernel.workspace.gradQ) {queryStart : Nat}
    (hTile : ∃ n, queryStart = n * kernel.tiles.blockI)
    (hQuery : queryStart < kernel.shape.numQueries) :
    ∀ buffer ∈ workspace, kernel.queryBase queryStart +
      chunksOf kernel.shape.headDim kernel.tiles.blockJ *
        (kernel.tiles.blockI * kernel.tiles.blockJ) ≤ buffer.size := by
  intro buffer hBuffer
  have hRegion := hValid.querySlots_le hSlots hTile hQuery
  have hEnd := hValid.slots_le_unitStride
  have hSize := hSlice.size_eq buffer hBuffer
  rw [Nat.succ_mul] at hRegion
  rw [queryBase]
  omega

variable [Scalar α]

/-- The numbers of one unit, with Delta of its queries. -/
def values (kernel : Kernel α ε) (u : UnitCoord) (delta : Nat → α) : UnitValues α :=
  let request := kernel.request
  let read (layout : Layout) (data : Array ε) (row col : Nat) : α :=
    Tile.widenAt data ((layout.unitWindow u).rowStart row + col)
  { headDim := kernel.shape.headDim
    headDimValue := kernel.shape.headDimValue
    scale := kernel.scale
    query := read request.inputLayouts.q request.inputs.q
    key := read request.inputLayouts.k request.inputs.k
    value := read request.inputLayouts.v request.inputs.v
    gradOut := read request.inputLayouts.dO request.inputs.dO
    lse := fun query => request.lse[request.lseLayout.unitOffset u + query]?.getD 0
    delta
    biases := request.biasValues u
    mask := kernel.dropout.mask kernel.shape u kernel.tiles.blockJ }

/-- The rows of a unit are inside every tensor that is read, and no position of its words is a
fault. -/
structure Reads (kernel : Kernel α ε) (u : UnitCoord) : Prop where
  batch : u.batchId < kernel.shape.batch
  head : u.head < kernel.shape.heads
  q : ∀ row < kernel.shape.numQueries, (kernel.request.inputLayouts.q.unitWindow u).rowStart row +
    kernel.shape.headDim ≤ kernel.request.inputs.q.size
  k : ∀ row < kernel.shape.numKeys, (kernel.request.inputLayouts.k.unitWindow u).rowStart row +
    kernel.shape.headDim ≤ kernel.request.inputs.k.size
  v : ∀ row < kernel.shape.numKeys, (kernel.request.inputLayouts.v.unitWindow u).rowStart row +
    kernel.shape.headDimValue ≤ kernel.request.inputs.v.size
  o : ∀ row < kernel.shape.numQueries, (kernel.request.inputLayouts.o.unitWindow u).rowStart row +
    kernel.shape.headDimValue ≤ kernel.request.inputs.o.size
  dO : ∀ row < kernel.shape.numQueries, (kernel.request.inputLayouts.dO.unitWindow u).rowStart row +
    kernel.shape.headDimValue ≤ kernel.request.inputs.dO.size
  lse : kernel.request.lseLayout.unitOffset u + kernel.shape.numQueries ≤ kernel.request.lse.size
  biases : ∀ kind, ∀ data ∈ kernel.request.biases.get kind, kind.size kernel.shape ≤ data.size
  sums : kernel.overflow = .wrapping ∨ kernel.dropout.FitsUnit kernel.shape u

/-- The view of a unit shows its numbers. -/
structure Views (kernel : Kernel α ε) (view : UnitView α) (x : UnitValues α) : Prop where
  reads : kernel.Reads view.coord
  inputs : view.inputs = kernel.request.inputLayouts.map (·.unitWindow view.coord)
  lseSize : view.lse.size = kernel.shape.numQueries
  lse : ∀ query < kernel.shape.numQueries, view.lse[query]? = some (x.lse query)
  deltaSize : view.delta.size = kernel.shape.numQueries
  delta : ∀ query < kernel.shape.numQueries, view.delta[query]? = some (x.delta query)
  values : x = kernel.values view.coord x.delta

namespace Views

variable {view : UnitView α} {x : UnitValues α}

theorem headDim_eq (hViews : kernel.Views view x) : x.headDim = kernel.shape.headDim :=
  congrArg UnitValues.headDim hViews.values

theorem headDimValue_eq (hViews : kernel.Views view x) :
    x.headDimValue = kernel.shape.headDimValue :=
  congrArg UnitValues.headDimValue hViews.values

theorem scale_eq (hViews : kernel.Views view x) : x.scale = kernel.scale :=
  congrArg UnitValues.scale hViews.values

theorem biases_eq (hViews : kernel.Views view x) :
    x.biases = kernel.request.biasValues view.coord :=
  congrArg UnitValues.biases hViews.values

theorem mask_eq (hViews : kernel.Views view x) :
    x.mask = kernel.dropout.mask kernel.shape view.coord kernel.tiles.blockJ :=
  congrArg UnitValues.mask hViews.values

theorem query_eq (hViews : kernel.Views view x) : x.query = fun row col =>
    Tile.widenAt kernel.request.inputs.q (view.inputs.q.rowStart row + col) := by
  rw [hViews.inputs]
  exact congrArg UnitValues.query hViews.values

theorem key_eq (hViews : kernel.Views view x) : x.key = fun row col =>
    Tile.widenAt kernel.request.inputs.k (view.inputs.k.rowStart row + col) := by
  rw [hViews.inputs]
  exact congrArg UnitValues.key hViews.values

theorem value_eq (hViews : kernel.Views view x) : x.value = fun row col =>
    Tile.widenAt kernel.request.inputs.v (view.inputs.v.rowStart row + col) := by
  rw [hViews.inputs]
  exact congrArg UnitValues.value hViews.values

theorem gradOut_eq (hViews : kernel.Views view x) : x.gradOut = fun row col =>
    Tile.widenAt kernel.request.inputs.dO (view.inputs.dO.rowStart row + col) := by
  rw [hViews.inputs]
  exact congrArg UnitValues.gradOut hViews.values

/-- Every row that the view shows is inside its tensor. -/
theorem within (hViews : kernel.Views view x) :
    (∀ row < kernel.shape.numQueries,
      view.inputs.q.rowStart row + x.headDim ≤ kernel.request.inputs.q.size) ∧
    (∀ row < kernel.shape.numKeys,
      view.inputs.k.rowStart row + x.headDim ≤ kernel.request.inputs.k.size) ∧
    (∀ row < kernel.shape.numKeys,
      view.inputs.v.rowStart row + x.headDimValue ≤ kernel.request.inputs.v.size) ∧
    ∀ row < kernel.shape.numQueries,
      view.inputs.dO.rowStart row + x.headDimValue ≤ kernel.request.inputs.dO.size := by
  rw [hViews.inputs, hViews.headDim_eq, hViews.headDimValue_eq]
  exact ⟨hViews.reads.q, hViews.reads.k, hViews.reads.v, hViews.reads.dO⟩

end Views

/-- What a unit keeps between two pairs of tiles whatever it computes: its rows are inside the
gradients, its slice of the workspace and the bias gradients have their sizes, and the source of
the mask is its own. -/
structure Sound (kernel : Kernel α ε) (view : UnitView α) (state : UnitState α ε kernel.tiles) :
    Prop where
  queries : view.grads.gradQ.Fits kernel.shape.numQueries kernel.shape.headDim
    state.memory.grads.gradQ.size
  keys : ∀ side : KeySide, (side.of view.grads).Fits kernel.shape.numKeys (side.cols kernel.shape)
    (side.of state.memory.grads).size
  biasGrads : ∀ kind, ∀ grad ∈ state.memory.biasGrads.get kind,
    (kernel.request.biases.get kind).isSome = true ∧ kind.size kernel.shape ≤ grad.size
  workspace : kernel.Slice state.memory.workspace
  mask : state.mask.isSome = kernel.dropout.isEnabled ∧
    ∀ m ∈ state.mask, m.Serves kernel.dropout kernel.shape view.coord
  phase : state.scratch.phase = .loadKeys ∨ state.scratch.phase = .keyGrad

/-- Place in the workspace of the sum of an entry of gradQ. -/
def querySlot (kernel : Kernel α ε) (row col : Nat) : Nat :=
  ChunkedTile.slotAddress (kernel.queryBase (tileOf kernel.tiles.blockI row)) kernel.tiles.blockI
    kernel.tiles.blockJ (row % kernel.tiles.blockI) col

/-- Place in the workspace of the sum of an entry of gradK or gradV, the same for all key tiles. -/
def keySlot (kernel : Kernel α ε) (side : KeySide) (row col : Nat) : Nat :=
  ChunkedTile.slotAddress (side.slotBase kernel.workspace) kernel.tiles.blockJ
    kernel.tiles.blockI (row % kernel.tiles.blockJ) col

/-- An entry of gradQ with its sum. -/
def queryEntry (kernel : Kernel α ε) (view : UnitView α) (memory : UnitMemory α ε)
    (row col : Nat) : Entry α ε :=
  (⟨memory.grads.gradQ, memory.workspace⟩ : ChunkState α ε).entry
    (view.grads.gradQ.rowStart row + col) (kernel.querySlot row col)

/-- An entry of gradK or gradV with its sum. -/
def keyEntry (kernel : Kernel α ε) (view : UnitView α) (memory : UnitMemory α ε) (side : KeySide)
    (row col : Nat) : Entry α ε :=
  (⟨side.of memory.grads, memory.workspace⟩ : ChunkState α ε).entry
    ((side.of view.grads).rowStart row + col) (kernel.keySlot side row col)

/-- A place in the slice of a unit that one of its slots covers. All key tiles share the slots of their
column chunks; every query tile has slots of its own, if there are any. -/
inductive InSlot (kernel : Kernel α ε) (p : Nat) : Prop
  | key (side : KeySide) (chunk : Nat) (hUses : (side.strategy kernel.plan).usesWorkspace = true)
      (hChunk : chunk < chunksOf (side.cols kernel.shape) kernel.plan.keyChunk)
      (hLow : (side.slot kernel.workspace chunk).1 ≤ p)
      (hHigh : p < (side.slot kernel.workspace chunk).1 + (side.slot kernel.workspace chunk).2)
  | query (queryStart chunk : Nat) (hSlots : 0 < kernel.workspace.gradQ)
      (hTile : queryStart ∈ tileStarts 0 kernel.shape.numQueries kernel.tiles.blockI)
      (hChunk : chunk < chunksOf kernel.shape.headDim kernel.plan.queryChunk)
      (hLow : (kernel.workspace.gradQSlot queryStart
        (chunksOf kernel.shape.headDim kernel.plan.queryChunk) chunk).1 ≤ p)
      (hHigh : p < (kernel.workspace.gradQSlot queryStart
          (chunksOf kernel.shape.headDim kernel.plan.queryChunk) chunk).1 +
        (kernel.workspace.gradQSlot queryStart
          (chunksOf kernel.shape.headDim kernel.plan.queryChunk) chunk).2)

/-- What a unit leaves as it is: all sizes, and every element that is not one of its own. -/
structure Frame (kernel : Kernel α ε) (view : UnitView α) (before after : UnitMemory α ε) :
    Prop where
  queries : view.grads.gradQ.KeepsOutside kernel.shape.numQueries kernel.shape.headDim
    before.grads.gradQ after.grads.gradQ
  keys : ∀ side : KeySide, (side.of view.grads).KeepsOutside kernel.shape.numKeys
    (side.cols kernel.shape) (side.of before.grads) (side.of after.grads)
  biasSize : ∀ kind, (after.biasGrads.get kind).map (·.size) =
    (before.biasGrads.get kind).map (·.size)
  biases : ∀ kind p, (∀ query < kernel.shape.numQueries, ∀ key < kernel.shape.numKeys,
    p ≠ kind.address kernel.shape view.coord query key) →
      after.biasGrads.at? kind p = before.biasGrads.at? kind p
  workspace : after.workspace.map (·.size) = before.workspace.map (·.size)
  slots : ∀ p, ¬ kernel.InSlot p →
    (after.workspace.getD #[])[p]? = (before.workspace.getD #[])[p]?

/-! ### Slots of entries -/

omit [Scalar α] in
/-- The slots of the chunks of gradK or gradV make one run. -/
theorem Valid.inSlot_key (hValid : kernel.Valid) {side : KeySide}
    (hUses : (side.strategy kernel.plan).usesWorkspace = true) {p : Nat}
    (hLow : side.slotBase kernel.workspace ≤ p)
    (hHigh : p < side.slotBase kernel.workspace + chunksOf (side.cols kernel.shape)
      kernel.tiles.blockI * (kernel.tiles.blockJ * kernel.tiles.blockI)) : kernel.InSlot p := by
  have hPlace : p - side.slotBase kernel.workspace < chunksOf (side.cols kernel.shape)
      kernel.tiles.blockI * (kernel.tiles.blockJ * kernel.tiles.blockI) := by omega
  obtain ⟨chunk, hChunk, hStart, hEnd⟩ :=
    exists_run (Nat.mul_pos hValid.blockJ hValid.blockI) hPlace
  have hSlot := hValid.keySlot_eq side chunk
  exact .key side chunk hUses hChunk (by rw [hSlot]; omega) (by rw [hSlot]; omega)

omit [Scalar α] in
/-- The slots of a query tile make one run. -/
theorem Valid.inSlot_query (hValid : kernel.Valid) (hSlots : 0 < kernel.workspace.gradQ)
    {queryStart : Nat} (hTile : queryStart ∈ tileStarts 0 kernel.shape.numQueries kernel.tiles.blockI)
    {p : Nat} (hLow : kernel.queryBase queryStart ≤ p)
    (hHigh : p < kernel.queryBase queryStart + chunksOf kernel.shape.headDim kernel.tiles.blockJ *
      (kernel.tiles.blockI * kernel.tiles.blockJ)) : kernel.InSlot p := by
  have hPlace : p - kernel.queryBase queryStart < chunksOf kernel.shape.headDim
      kernel.tiles.blockJ * (kernel.tiles.blockI * kernel.tiles.blockJ) := by omega
  obtain ⟨chunk, hChunk, hStart, hEnd⟩ :=
    exists_run (Nat.mul_pos hValid.blockI hValid.blockJ) hPlace
  have hSlot := hValid.querySlot_eq queryStart chunk
  exact .query queryStart chunk hSlots hTile hChunk (by rw [hSlot]; omega) (by rw [hSlot]; omega)

omit [Scalar α] in
/-- All slots lie inside the slice. -/
theorem InSlot.lt_unitStride {p : Nat} (hSlot : kernel.InSlot p) (hValid : kernel.Valid) :
    p < kernel.workspace.unitStride := by
  cases hSlot with
  | key side chunk hUses hChunk hLow hHigh =>
      have hRun := run_within hChunk (hValid.keySlots_le hUses)
      have hEnd := hValid.keySlots_end_le side
      rw [hValid.keySlot_eq side chunk] at hHigh
      omega
  | query queryStart chunk hSlots hTile hChunk hLow hHigh =>
      obtain ⟨hQuery, n, hn⟩ := (mem_tileStarts hValid.blockI).mp hTile
      have hRegion := hValid.querySlots_le hSlots ⟨n, by omega⟩ hQuery
      have hRun := run_within hChunk (Nat.le_refl (chunksOf kernel.shape.headDim kernel.tiles.blockJ *
        (kernel.tiles.blockI * kernel.tiles.blockJ)))
      have hEnd := hValid.slots_le_unitStride
      rw [hValid.querySlot_eq queryStart chunk, queryBase] at hHigh
      rw [Nat.succ_mul] at hRegion
      omega

omit [Scalar α] in
/-- The sum of an entry of gradK or gradV lies in the slots of its gradient. -/
theorem keySlot_bounds (hValid : kernel.Valid) {side : KeySide}
    (hUses : (side.strategy kernel.plan).usesWorkspace = true) (row : Nat) {col : Nat}
    (hCol : col < side.cols kernel.shape) :
    side.slotBase kernel.workspace ≤ kernel.keySlot side row col ∧ kernel.keySlot side row col <
      side.slotBase kernel.workspace + side.slotSize kernel.workspace := by
  have hSlots := hValid.keySlots_le hUses
  have hBounds := ChunkedTile.slotAddress_bounds (side.slotBase kernel.workspace)
    (Nat.mod_lt row hValid.blockJ) hValid.blockI hCol
  rw [keySlot]
  omega

omit [Scalar α] in
/-- The sums of a query tile lie in the slots of that tile. -/
theorem querySlot_bounds (hValid : kernel.Valid) (row : Nat) {col : Nat}
    (hCol : col < kernel.shape.headDim) :
    kernel.queryBase (tileOf kernel.tiles.blockI row) ≤ kernel.querySlot row col ∧
      kernel.querySlot row col < kernel.queryBase (tileOf kernel.tiles.blockI row) +
        chunksOf kernel.shape.headDim kernel.tiles.blockJ *
          (kernel.tiles.blockI * kernel.tiles.blockJ) :=
  ChunkedTile.slotAddress_bounds _ (Nat.mod_lt row hValid.blockI) hValid.blockJ hCol

omit [Scalar α] [Element ε α] in
theorem queryBase_ge (kernel : Kernel α ε) (queryStart : Nat) :
    kernel.workspace.gradK + kernel.workspace.gradV ≤ kernel.queryBase queryStart :=
  Nat.le_add_right _ _

omit [Scalar α] in
/-- The sums of one query tile lie outside the slots of any other. -/
theorem querySlot_apart (hValid : kernel.Valid) {row col queryStart : Nat}
    (hCol : col < kernel.shape.headDim) (hTile : ∃ n, queryStart = n * kernel.tiles.blockI)
    (hOther : tileOf kernel.tiles.blockI row ≠ queryStart) :
    kernel.querySlot row col < kernel.queryBase queryStart ∨
      kernel.queryBase queryStart + chunksOf kernel.shape.headDim kernel.tiles.blockJ *
        (kernel.tiles.blockI * kernel.tiles.blockJ) ≤ kernel.querySlot row col := by
  obtain ⟨n, rfl⟩ := hTile
  have hBounds := querySlot_bounds hValid row hCol
  simp only [queryBase, tileOf_div hValid.blockI, Nat.mul_div_cancel _ hValid.blockI] at hBounds ⊢
  generalize chunksOf kernel.shape.headDim kernel.tiles.blockJ *
    (kernel.tiles.blockI * kernel.tiles.blockJ) = width at hBounds ⊢
  have hNumber : row / kernel.tiles.blockI ≠ n :=
    fun h => hOther (congrArg (· * kernel.tiles.blockI) h)
  have hApart := run_apart width hNumber
  omega

omit [Scalar α] in
/-- Gradients that do not stay in registers are all kept the same way. -/
theorem strategy_eq (hValid : kernel.Valid) (hStored : kernel.plan.outputInRegisters = false)
    (side : KeySide) : side.strategy kernel.plan = kernel.plan.gradQ := by
  rw [hValid.plan] at hStored ⊢
  cases side with
  | keys => simp only [Plan.of, KeySide.strategy] at hStored ⊢; rw [hStored]; rfl
  | values => simp only [Plan.of, KeySide.strategy] at hStored ⊢; rw [hStored]; rfl

variable {view : UnitView α} {before middle after : UnitMemory α ε}

omit [Scalar α] [Element ε α] in
theorem Frame.refl (kernel : Kernel α ε) (view : UnitView α) (memory : UnitMemory α ε) :
    kernel.Frame view memory memory :=
  ⟨.refl .., fun _ => .refl .., fun _ => rfl, fun _ _ _ => rfl, rfl, fun _ _ => rfl⟩

omit [Scalar α] [Element ε α] in
theorem Frame.trans (hFirst : kernel.Frame view before middle)
    (hSecond : kernel.Frame view middle after) : kernel.Frame view before after where
  queries := hFirst.queries.trans hSecond.queries
  keys side := (hFirst.keys side).trans (hSecond.keys side)
  biasSize kind := (hSecond.biasSize kind).trans (hFirst.biasSize kind)
  biases kind p hp := (hSecond.biases kind p hp).trans (hFirst.biases kind p hp)
  workspace := hSecond.workspace.trans hFirst.workspace
  slots p hp := (hSecond.slots p hp).trans (hFirst.slots p hp)

omit [Scalar α] [Element ε α] in
/-- A unit stays sound if it keeps to its own elements. -/
theorem Sound.of_frame {state next : UnitState α ε kernel.tiles} (hSound : kernel.Sound view state)
    (hFrame : kernel.Frame view state.memory next.memory)
    (hMask : next.mask.isSome = kernel.dropout.isEnabled ∧
      ∀ m ∈ next.mask, m.Serves kernel.dropout kernel.shape view.coord)
    (hPhase : next.scratch.phase = .loadKeys ∨ next.scratch.phase = .keyGrad) :
    kernel.Sound view next where
  queries := by
    rw [hFrame.queries.size]
    exact hSound.queries
  keys side := by
    rw [(hFrame.keys side).size]
    exact hSound.keys side
  biasGrads := by
    intro kind grad hGrad
    obtain ⟨prior, hPrior, hSame⟩ := exists_of_size_eq (hFrame.biasSize kind) hGrad
    obtain ⟨hBias, hEnough⟩ := hSound.biasGrads kind prior hPrior
    exact ⟨hBias, hSame ▸ hEnough⟩
  workspace := hFrame.workspace.trans hSound.workspace
  mask := hMask
  phase := hPhase

end Kernel

end FusedAttention
