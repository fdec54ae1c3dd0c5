import FusedAttention.Proofs.KeyTiles
import FusedAttention.Proofs.RowSums

/-! One unit from its views to its memory: Delta, and then all key tiles in order. -/
namespace FusedAttention.Kernel

variable {α ε : Type} [Scalar α] [Element ε α]

/-- Delta of one query of a unit. -/
def delta (kernel : Kernel α ε) (u : UnitCoord) (query : Nat) : α :=
  let request := kernel.request
  let slice (layout : Layout) (data : Array ε) : Array ε :=
    data.extract ((layout.unitWindow u).rowStart query)
      ((layout.unitWindow u).rowStart query + kernel.shape.headDimValue)
  Lanes.laneDot (slice request.inputLayouts.o request.inputs.o)
    (slice request.inputLayouts.dO request.inputs.dO) (threadsPerRow kernel.tiles.blockI).log2

/-- The numbers of one unit with its own Delta. -/
def unitValues (kernel : Kernel α ε) (u : UnitCoord) : UnitValues α :=
  kernel.values u (kernel.delta u)

/-- All key tiles in order. -/
def keyStarts (kernel : Kernel α ε) : List Nat :=
  tileStarts 0 kernel.shape.numKeys kernel.tiles.blockJ

/-- What the key tiles do to an entry of gradQ: those that attend to its query tile visit it. -/
def queryVisits (kernel : Kernel α ε) (x : UnitValues α) (row col : Nat) (e : Entry α ε) :
    Entry α ε :=
  let queryStart := tileOf kernel.tiles.blockI row
  (kernel.keyStarts.filter (kernel.firstQuery · ≤ queryStart)).foldl (fun e keyStart =>
    kernel.plan.gradQ.visitEntry (0 < kernel.workspace.gradQ)
      (kernel.queryVisit queryStart keyStart)
      (x.queryShare keyStart (min kernel.tiles.blockJ (kernel.shape.numKeys - keyStart)) row col)
      e) e

/-- What one unit does to its memory. -/
structure UnitEffect (kernel : Kernel α ε) (view : UnitView α) (x : UnitValues α)
    (before after : UnitMemory α ε) : Prop where
  query : ∀ row < kernel.shape.numQueries, ∀ col < kernel.shape.headDim,
    kernel.queryEntry view after row col =
      kernel.queryVisits x row col (kernel.queryEntry view before row col)
  key : ∀ side : KeySide, ∀ row < kernel.shape.numKeys, ∀ col < side.cols kernel.shape,
    (kernel.keyEntry view after side row col).target = kernel.keyResult x side row col
  biases : ∀ kind : BiasKind, ∀ query < kernel.shape.numQueries, ∀ key < kernel.shape.numKeys,
    after.biasGrads.at? kind (kind.address kernel.shape view.coord query key) =
      (before.biasGrads.at? kind (kind.address kernel.shape view.coord query key)).map
        fun y => (kernel.biasShares x kind query key).foldl (· + ·) y
  frame : kernel.Frame view before after

variable {kernel : Kernel α ε} {view : UnitView α} {x : UnitValues α}

omit [Scalar α] in
theorem mem_keyStarts (hValid : kernel.Valid) {keyStart : Nat} :
    keyStart ∈ kernel.keyStarts ↔
      keyStart < kernel.shape.numKeys ∧ ∃ n, keyStart = n * kernel.tiles.blockJ := by
  rw [keyStarts, mem_tileStarts hValid.blockJ]
  simp only [Nat.zero_add]

/-- The effects of all key tiles make the effect of the unit. -/
theorem UnitEffect.of_steps (hValid : kernel.Valid) {before after : UnitState α ε kernel.tiles}
    (hSteps : Steps (fun s keyStart t => kernel.KeyTileEffect view x keyStart s.memory t.memory)
      before kernel.keyStarts after) : kernel.UnitEffect view x before.memory after.memory where
  query := by
    intro row hRow col hCol
    rw [queryVisits, List.foldl_filter]
    simp only [decide_eq_true_eq]
    exact hSteps.observe (fun s => kernel.queryEntry view s.memory row col) _
      fun s t keyStart _ hEffect => hEffect.query row hRow col hCol
  key side row hRow col hCol :=
    hSteps.observe_once (nodup_tileStarts hValid.blockJ) (tileOf_mem_tileStarts hValid.blockJ hRow)
      (fun s => (kernel.keyEntry view s.memory side row col).target)
      (fun _ => kernel.keyResult x side row col)
      (fun _ _ hEffect => (hEffect.key side row hRow col hCol).trans (if_pos rfl))
      fun _ _ _ _ hOther hEffect =>
        (hEffect.key side row hRow col hCol).trans (if_neg (Ne.symm hOther))
  biases kind query hQuery key hKey :=
    hSteps.observe_once (nodup_tileStarts hValid.blockJ) (tileOf_mem_tileStarts hValid.blockJ hKey)
      (fun s => s.memory.biasGrads.at? kind (kind.address kernel.shape view.coord query key))
      (Option.map fun y => (kernel.biasShares x kind query key).foldl (· + ·) y)
      (fun _ _ hEffect => (hEffect.biases kind query hQuery key hKey).trans (if_pos rfl))
      fun _ _ _ _ hOther hEffect =>
        (hEffect.biases kind query hQuery key hKey).trans (if_neg (Ne.symm hOther))
  frame := hSteps.compose (r := fun s t => kernel.Frame view s.memory t.memory)
    (fun _ => .refl ..) .trans fun _ _ _ _ hEffect => hEffect.frame

/-- The memory of a unit: its rows lie inside the gradients, and its slice of the workspace and
the bias gradients have their sizes. -/
structure Owns (kernel : Kernel α ε) (u : UnitCoord) (memory : UnitMemory α ε) : Prop where
  queries : (kernel.request.gradLayouts.gradQ.unitWindow u).Fits kernel.shape.numQueries
    kernel.shape.headDim memory.grads.gradQ.size
  keys : ∀ side : KeySide, ((side.of kernel.request.gradLayouts).unitWindow u).Fits
    kernel.shape.numKeys (side.cols kernel.shape) (side.of memory.grads).size
  biasGrads : ∀ kind, ∀ grad ∈ memory.biasGrads.get kind,
    (kernel.request.biases.get kind).isSome = true ∧ kind.size kernel.shape ≤ grad.size
  workspace : kernel.Slice memory.workspace

/-- The row of Delta of a unit. -/
theorem computeDelta_unit (hValid : kernel.Valid) {u : UnitCoord} (hReads : kernel.Reads u)
    {row : Array α} (hRow : row.size = kernel.shape.numQueries) :
    ∃ delta, computeDelta kernel.request.inputs.o kernel.request.inputs.dO
        (kernel.request.inputLayouts.o.unitWindow u) (kernel.request.inputLayouts.dO.unitWindow u)
        kernel.shape.numQueries kernel.shape.headDimValue kernel.tiles.blockI row = .ok delta ∧
      delta.size = kernel.shape.numQueries ∧
      ∀ query < kernel.shape.numQueries, delta[query]? = some (kernel.delta u query) := by
  have hAll : min kernel.shape.numQueries row.size = kernel.shape.numQueries := by
    rw [hRow, Nat.min_self]
  obtain ⟨delta, hDelta, hSize, hEntries, -⟩ := computeDelta_spec hValid.blockI hValid.lanes
    (hAll.symm ▸ hReads.o) (hAll.symm ▸ hReads.dO)
  exact ⟨delta, hDelta, hSize.trans hRow, hAll ▸ hEntries⟩

/-- A unit never faults. It writes its row of Delta, and its effect on its memory is known. -/
theorem runUnit_spec (hValid : kernel.Valid) {u : UnitCoord} (hReads : kernel.Reads u)
    {row : Array α} (hRow : row.size = kernel.shape.numQueries) {memory : UnitMemory α ε}
    (hOwns : kernel.Owns u memory) :
    ∃ delta after view, kernel.runUnit u row memory = .ok (delta, after) ∧
      delta.size = kernel.shape.numQueries ∧
      (∀ query < kernel.shape.numQueries, delta[query]? = some (kernel.delta u query)) ∧
      view.coord = u ∧ view.grads = kernel.request.gradLayouts.map (·.unitWindow u) ∧
      kernel.UnitEffect view (kernel.unitValues u) memory after := by
  have hLse := sliceOf_eq hReads.lse
  obtain ⟨delta, hDelta, hDeltaSize, hDeltaRow⟩ := computeDelta_unit hValid hReads hRow
  let view : UnitView α :=
    { coord := u
      inputs := kernel.request.inputLayouts.map (·.unitWindow u)
      grads := kernel.request.gradLayouts.map (·.unitWindow u)
      lse := kernel.request.lse.extract (kernel.request.lseLayout.unitOffset u)
        (kernel.request.lseLayout.unitOffset u + kernel.shape.numQueries)
      delta }
  let start : UnitState α ε kernel.tiles :=
    { memory
      mask := MaskSource.forUnit kernel.dropout kernel.shape u
      scratch := .fresh kernel.tiles
      gradK := .fill 0
      gradV := .fill 0 }
  have hViews : kernel.Views view (kernel.unitValues u) := {
    reads := hReads
    inputs := rfl
    lseSize := by
      have := hReads.lse
      rw [Array.size_extract]
      omega
    lse := by
      intro query hQuery
      have := hReads.lse
      have hPlace : kernel.request.lseLayout.unitOffset u + query < kernel.request.lse.size := by
        omega
      show (kernel.request.lse.extract _ _)[query]? =
        some (kernel.request.lse[kernel.request.lseLayout.unitOffset u + query]?.getD 0)
      rw [Array.getElem?_extract, if_pos (by omega), Array.getElem?_eq_getElem hPlace,
        Option.getD_some]
    deltaSize := hDeltaSize
    delta := hDeltaRow
    values := rfl }
  have hStart : kernel.Sound view start := {
    queries := hOwns.queries
    keys := by
      intro side
      have hFits := hOwns.keys side
      rwa [← KeySide.of_map side fun l : Layout => l.unitWindow u] at hFits
    biasGrads := hOwns.biasGrads
    workspace := hOwns.workspace
    mask := MaskSource.forUnit_serves kernel.dropout kernel.shape u
    phase := .inl rfl }
  obtain ⟨last, hRun, -, hSteps⟩ := foldlM_steps (kernel.Sound view)
    (fun s keyStart t => kernel.KeyTileEffect view (kernel.unitValues u) keyStart s.memory t.memory)
    (fun s keyStart hMem hNow => by
      obtain ⟨hKey, hTileK⟩ := (mem_keyStarts hValid).mp hMem
      exact runKeyTile_spec hValid hViews hNow hTileK hKey) hStart
  have hUnit : kernel.overflow.check (kernel.dropout.unitPlace kernel.shape u) = .ok () :=
    Overflow.check_of_lt hReads.sums
      (Nat.lt_add_of_pos_right (Nat.mul_pos hValid.numQueries hValid.numKeys))
  refine ⟨delta, last.memory, view, ?_, hDeltaSize, hDeltaRow, rfl, rfl, .of_steps hValid hSteps⟩
  refine bind_eq_of_ok hUnit ?_
  refine bind_eq_of_ok hLse ?_
  refine bind_eq_of_ok hDelta ?_
  exact bind_eq_of_ok hRun rfl

end FusedAttention.Kernel
