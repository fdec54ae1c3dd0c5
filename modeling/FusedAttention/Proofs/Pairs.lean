import FusedAttention.Proofs.UnitEntries

/-! One pair of tiles. It never faults, it adds one share to each entry of its query tile and of
its key tile, and it leaves all other entries alone. -/
namespace FusedAttention.Kernel

variable {α ε : Type} [Scalar α] [Element ε α] {kernel : Kernel α ε}

/-! ### The key side -/

/-- The part of gradK or gradV that one pair contributes to. -/
def keyTile (kernel : Kernel α ε) (side : KeySide) (queryStart keyStart : Nat) : ChunkedTile :=
  ⟨side.strategy kernel.plan, kernel.plan.keyChunk, keyStart,
    (kernel.extent queryStart keyStart).rowsJ, side.cols kernel.shape,
    kernel.keyVisit queryStart keyStart⟩

/-- What one pair does to gradK or gradV: an entry in registers gets its share there, any other
entry is visited. -/
structure KeyEffect (kernel : Kernel α ε) (side : KeySide) (window : Window)
    (queryStart keyStart : Nat) (add : Nat → Nat → α → α)
    (acc acc' : Tile α kernel.tiles.blockJ kernel.tiles.blockI) (state next : ChunkState α ε) :
    Prop where
  targetSize : next.target.size = state.target.size
  workspaceSize : next.workspace.map (·.size) = state.workspace.map (·.size)
  resident : kernel.plan.outputInRegisters = true → next = state ∧
    ∀ j < (kernel.extent queryStart keyStart).rowsJ, ∀ col < side.cols kernel.shape,
      acc'.entry j col = add j col (acc.entry j col)
  stored : kernel.plan.outputInRegisters = false →
    ∀ j < (kernel.extent queryStart keyStart).rowsJ, ∀ col < side.cols kernel.shape,
      next.entry (window.rowStart (keyStart + j) + col)
          (ChunkedTile.slotAddress (side.slotBase kernel.workspace) kernel.tiles.blockJ
            kernel.tiles.blockI j col) =
        (side.strategy kernel.plan).visitEntry true (kernel.keyVisit queryStart keyStart)
          (add j col) (state.entry (window.rowStart (keyStart + j) + col)
            (ChunkedTile.slotAddress (side.slotBase kernel.workspace) kernel.tiles.blockJ
              kernel.tiles.blockI j col))
  targetFrame : ∀ p, (∀ j < (kernel.extent queryStart keyStart).rowsJ,
    ∀ col < side.cols kernel.shape, p ≠ window.rowStart (keyStart + j) + col) →
      next.target[p]? = state.target[p]?
  slotFrame : ∀ p, ((side.strategy kernel.plan).usesWorkspace = true →
    p < side.slotBase kernel.workspace ∨
      side.slotBase kernel.workspace + chunksOf (side.cols kernel.shape) kernel.tiles.blockI *
        (kernel.tiles.blockJ * kernel.tiles.blockI) ≤ p) → next.slots[p]? = state.slots[p]?

/-- The sums of gradK or gradV stay inside what is set aside for them. -/
theorem KeyEffect.slots_outside {side : KeySide} {window : Window} {queryStart keyStart : Nat}
    {add : Nat → Nat → α → α} {acc acc' : Tile α kernel.tiles.blockJ kernel.tiles.blockI}
    {state next : ChunkState α ε}
    (hEffect : kernel.KeyEffect side window queryStart keyStart add acc acc' state next)
    (hValid : kernel.Valid) {p : Nat} (hp : (side.strategy kernel.plan).usesWorkspace = true →
      p < side.slotBase kernel.workspace ∨
        side.slotBase kernel.workspace + side.slotSize kernel.workspace ≤ p) :
    next.slots[p]? = state.slots[p]? := by
  apply hEffect.slotFrame
  intro hUses
  have hSlots := hValid.keySlots_le hUses
  have := hp hUses
  omega

/-- A sum that is not parked goes to its element at every visit. -/
theorem visitEntry_unslotted (s : Strategy) (visit : Visit) (add : α → α) (e : Entry α ε) :
    s.visitEntry false visit add e = { e with
      target := Tile.stored (.ofFirst (visit.isFirst || s.usesWorkspace)) 1 (add 0) e.target } := by
  simp [Strategy.visitEntry]

/-- With a strategy that does not park, it does not matter whether there are slots. -/
theorem visitEntry_slotted {s : Strategy} {slotted : Bool} (h : s.usesWorkspace = true → slotted = true)
    (visit : Visit) (add : α → α) (e : Entry α ε) :
    s.visitEntry slotted visit add e = s.visitEntry true visit add e := by
  cases hUses : s.usesWorkspace with
  | true => rw [h hUses]
  | false => simp only [Strategy.visitEntry, hUses, Bool.false_and]

/-- One contribution to gradK or gradV. -/
theorem addKeySide_spec (hValid : kernel.Valid) (side : KeySide) {window : Window}
    {queryStart keyStart : Nat} (hKey : keyStart < kernel.shape.numKeys)
    {add : Nat → Nat → α → α}
    {product : Tile α kernel.tiles.blockJ kernel.tiles.blockI → Nat →
      Tile α kernel.tiles.blockJ kernel.tiles.blockI}
    (acc : Tile α kernel.tiles.blockJ kernel.tiles.blockI) {target : Array ε}
    {workspace : Option (Array α)}
    (hFits : window.Fits kernel.shape.numKeys (side.cols kernel.shape) target.size)
    (hSlice : kernel.Slice workspace)
    (hProduct : (kernel.keyTile side queryStart keyStart).AddsBy product add) :
    ∃ acc' next, addKeySide (t := kernel.tiles) kernel.plan.outputInRegisters
        (kernel.keyTile side queryStart keyStart) window (side.slot kernel.workspace) product acc
        target workspace = .ok (acc', next) ∧
      kernel.KeyEffect side window queryStart keyStart add acc acc' ⟨target, workspace⟩ next := by
  cases hResident : kernel.plan.outputInRegisters with
  | true =>
      refine ⟨product acc 0, ⟨target, workspace⟩, rfl, rfl, rfl, fun _ => ⟨rfl, ?_⟩, ?_,
        fun _ _ => rfl, fun _ _ => rfl⟩
      · intro j hj col hCol
        have hIn := hValid.keyCols_le_blockI hResident side
        have hInside : 0 + col < (kernel.keyTile side queryStart keyStart).cols := by
          rw [Nat.zero_add]
          exact hCol
        rw [hProduct acc 0 j hj col (by omega) hInside, Nat.zero_add]
      · intro h
        rw [hResident] at h
        cases h
  | false =>
      have hReady : (kernel.keyTile side queryStart keyStart).Ready window
          (side.slotBase kernel.workspace) kernel.tiles.blockJ kernel.tiles.blockI
          (⟨target, workspace⟩ : ChunkState α ε) := {
        width := rfl
        rows := Nat.min_le_left _ _
        fits := hFits.mono (by simp only [keyTile, extent]; omega)
        slots := by
          intro hUses buffer hBuffer
          have hSlots := hValid.keySlots_le hUses
          have hEnd := hValid.keySlots_end_le side
          have hSize := hSlice.size_eq buffer hBuffer
          simp only [keyTile] at hSlots ⊢
          omega }
      obtain ⟨next, hRun, hDone⟩ := ChunkedTile.accumulate_spec hReady hValid.blockI
        (hValid.keySlot_eq side) hProduct
      refine ⟨acc, next, ?_, hDone.targetSize, hDone.workspaceSize, ?_, ?_, hDone.targetFrame,
        hDone.slotFrame⟩
      · rw [addKeySide, if_neg Bool.false_ne_true, hRun, ok_bind]
        rfl
      · intro h
        rw [hResident] at h
        cases h
      · intro _ j hj col hCol
        rw [← visitEntry_slotted fun hUses => hSlice.isSome_of_keys hValid hUses]
        exact hDone.inside j hj col hCol trivial

/-! ### The query side -/

/-- The part of gradQ that one pair contributes to. -/
def queryTile (kernel : Kernel α ε) (queryStart keyStart : Nat) : ChunkedTile :=
  ⟨kernel.plan.gradQ, kernel.plan.queryChunk, queryStart,
    (kernel.extent queryStart keyStart).rowsI, kernel.shape.headDim,
    kernel.queryVisit queryStart keyStart⟩

/-- One contribution to gradQ. Its sums are parked only if there are slots for them. -/
theorem addQuerySide_spec (hValid : kernel.Valid) {window : Window} {queryStart keyStart : Nat}
    (hTile : ∃ n, queryStart = n * kernel.tiles.blockI) (hQuery : queryStart < kernel.shape.numQueries)
    {add : Nat → Nat → α → α}
    {product : Tile α kernel.tiles.blockI kernel.tiles.blockJ → Nat →
      Tile α kernel.tiles.blockI kernel.tiles.blockJ} {target : Array ε}
    {workspace : Option (Array α)}
    (hFits : window.Fits kernel.shape.numQueries kernel.shape.headDim target.size)
    (hSlice : kernel.Slice workspace)
    (hProduct : (kernel.queryTile queryStart keyStart).AddsBy product add) :
    ∃ next, addQuerySide (t := kernel.tiles) (0 < kernel.workspace.gradQ)
        (kernel.queryTile queryStart keyStart) window (kernel.workspace.gradQSlot queryStart
          (chunksOf kernel.shape.headDim kernel.plan.queryChunk)) product target workspace =
        .ok next ∧
      (kernel.queryTile queryStart keyStart).Contributes window (kernel.queryBase queryStart)
        kernel.tiles.blockI kernel.tiles.blockJ (0 < kernel.workspace.gradQ) add (fun _ => True)
        ⟨target, workspace⟩ next ∧
      (¬ 0 < kernel.workspace.gradQ → next.workspace = workspace) := by
  have hFitsTile : window.Fits ((kernel.queryTile queryStart keyStart).rowStart +
      (kernel.queryTile queryStart keyStart).rows) kernel.shape.headDim target.size :=
    hFits.mono (by simp only [queryTile, extent]; omega)
  have hSlot := hValid.querySlot_eq queryStart
  by_cases hSlots : 0 < kernel.workspace.gradQ
  · have hReady : (kernel.queryTile queryStart keyStart).Ready window
        (kernel.queryBase queryStart) kernel.tiles.blockI kernel.tiles.blockJ
        (⟨target, workspace⟩ : ChunkState α ε) :=
      ⟨rfl, Nat.min_le_left _ _, hFitsTile, fun _ => hSlice.querySlots_le hValid hSlots hTile hQuery⟩
    obtain ⟨next, hRun, hDone⟩ := ChunkedTile.accumulate_spec hReady hValid.blockJ hSlot hProduct
    have hSome : workspace.isSome = true := by
      have := hValid.slots_le_unitStride
      exact hSlice.isSome (by omega)
    refine ⟨next, ?_, ?_, fun hNone => absurd hSlots hNone⟩
    · rw [addQuerySide, if_pos (decide_eq_true hSlots), hRun]
    · rw [decide_eq_true hSlots]
      rwa [hSome] at hDone
  · have hReady : (kernel.queryTile queryStart keyStart).Ready window
        (kernel.queryBase queryStart) kernel.tiles.blockI kernel.tiles.blockJ
        (⟨target, none⟩ : ChunkState α ε) :=
      ⟨rfl, Nat.min_le_left _ _, hFitsTile, fun _ buffer hBuffer =>
        absurd hBuffer (Option.not_mem_none buffer)⟩
    obtain ⟨next, hRun, hDone⟩ := ChunkedTile.accumulate_spec hReady hValid.blockJ hSlot hProduct
    refine ⟨⟨next.target, workspace⟩, ?_,
      ⟨hDone.targetSize, rfl, ?_, ?_, hDone.targetFrame, fun _ _ => rfl⟩, fun _ => rfl⟩
    · rw [addQuerySide, if_neg (by rw [decide_eq_true_eq]; exact hSlots), hRun, ok_bind]
      rfl
    · intro i hi col hCol _
      have hEntry := congrArg Entry.target (hDone.inside i hi col hCol trivial)
      rw [decide_eq_false hSlots]
      simp only [visitEntry_unslotted, ChunkState.entry, Option.isSome_none] at hEntry ⊢
      rw [hEntry]
      rfl
    · exact fun _ _ _ _ h => absurd trivial h

/-! ### The stages -/

variable {view : UnitView α} {x : UnitValues α} {queryStart keyStart : Nat}

/-- The scratch storage after the stages of a pair has everything that its products take. -/
structure Staged (kernel : Kernel α ε) (x : UnitValues α) (pair : TileExtent)
    (valueStage last : Scratch α kernel.tiles) : Prop where
  valueRows : valueStage.HoldsQueries x pair.queryStart pair.rowsI
  staging : ∀ i < pair.rowsI, ∀ j < pair.rowsJ,
    valueStage.staging.entry j i = x.weight (pair.queryStart + i) (pair.keyStart + j)
  keyRows : last.HoldsKeys x pair.keyStart pair.rowsJ
  queryRows : last.HoldsQueries x pair.queryStart pair.rowsI
  gradScores : ∀ i < pair.rowsI, ∀ j < pair.rowsJ, last.gradScores.entry i j =
    x.gradScore (pair.queryStart + i) (pair.keyStart + j) * x.scale
  phase : last.phase = .scoreGrad

theorem stages_spec (hValid : kernel.Valid) (hViews : kernel.Views view x)
    {scratch : Scratch α kernel.tiles} {mask : Option MaskSource}
    (hQuery : queryStart < kernel.shape.numQueries)
    (hTile : ∃ n, keyStart = n * kernel.tiles.blockJ)
    (hPhase : scratch.phase = .loadKeys ∨ scratch.phase = .keyGrad)
    (hMask : mask.isSome = kernel.dropout.isEnabled ∧
      ∀ m ∈ mask, m.Serves kernel.dropout kernel.shape view.coord)
    (hKeys : scratch.HoldsKeys x keyStart (kernel.extent queryStart keyStart).rowsJ) :
    ∃ queries scores mask' values ds last,
      scratch.loadQueryTile kernel.request.inputs.q kernel.request.inputs.dO view.inputs.q
        view.inputs.dO view.lse view.delta (kernel.extent queryStart keyStart)
        kernel.shape.headDim kernel.shape.headDimValue = .ok queries ∧
      queries.recomputeScores (kernel.extent queryStart keyStart) kernel.shape.headDim kernel.scale
        ((kernel.request.biasValues view.coord).map fun bias =>
          Tile.block (kernel.extent queryStart keyStart).rowsI
            (kernel.extent queryStart keyStart).rowsJ fun i j =>
              bias (queryStart + i) (keyStart + j)) mask = .ok (scores, mask') ∧
      scores.stageValues mask.isSome = .ok values ∧
      values.computeScoreGrad kernel.shape.headDimValue kernel.scale mask.isSome =
        .ok (ds, last) ∧
      (mask'.isSome = kernel.dropout.isEnabled ∧
        ∀ m ∈ mask', m.Serves kernel.dropout kernel.shape view.coord) ∧
      (∀ i < (kernel.extent queryStart keyStart).rowsI,
        ∀ j < (kernel.extent queryStart keyStart).rowsJ,
          ds.entry i j = x.gradScore (queryStart + i) (keyStart + j)) ∧
      kernel.Staged x (kernel.extent queryStart keyStart) values last := by
  have hI : (kernel.extent queryStart keyStart).rowsI ≤ kernel.tiles.blockI := Nat.min_le_left _ _
  have hJ : (kernel.extent queryStart keyStart).rowsJ ≤ kernel.tiles.blockJ := Nat.min_le_left _ _
  have hRows : queryStart + (kernel.extent queryStart keyStart).rowsI ≤
      kernel.shape.numQueries := by
    simp only [extent]
    omega
  have hMasked : x.mask.isSome = mask.isSome := by
    rw [hViews.mask_eq, hMask.1, Dropout.isSome_mask]
  have hCols : x.headDim ≤ kernel.tiles.maxHeadDim := hViews.headDim_eq ▸ hValid.cols
  have hColsValue : x.headDimValue ≤ kernel.tiles.maxHeadDim :=
    hViews.headDimValue_eq ▸ hValid.colsValue
  obtain ⟨hInQ, -, -, hInDO⟩ := hViews.within
  have hReady : scratch.phase.allows .loadQueries = true := by
    rcases hPhase with h | h <;> rw [h] <;> rfl
  obtain ⟨queries, hLoad, hPhaseQ, hQueriesQ, hKeysQ⟩ :=
    Scratch.loadQueryTile_spec hReady hI hCols hColsValue hViews.query_eq hViews.gradOut_eq
      (fun i hi => hInQ (queryStart + i) (by omega))
      (fun i hi => hInDO (queryStart + i) (by omega))
      ⟨hViews.lseSize ▸ hRows, fun i hi => hViews.lse (queryStart + i) (by omega)⟩
      ⟨hViews.deltaSize ▸ hRows, fun i hi => hViews.delta (queryStart + i) (by omega)⟩ hKeys
  obtain ⟨scores, mask', hScoresRun, hPhaseS, hKeysS, hQueriesS, hScores, hMask'⟩ :=
    Scratch.recomputeScores_spec (hPhaseQ ▸ rfl) hI hJ hCols hTile hKeysQ hQueriesQ hViews.mask_eq
      hMask
  obtain ⟨values, hValuesRun, hPhaseV, hKeysV, hQueriesV, hScoresV, hStaging⟩ :=
    Scratch.stageValues_spec (hPhaseS ▸ rfl) hI hJ hKeysS hQueriesS hScores
  obtain ⟨ds, last, hGradRun, hPhaseL, hKeysL, hQueriesL, hDs, hGrad⟩ :=
    Scratch.computeScoreGrad_spec (hPhaseV ▸ rfl) hI hJ hColsValue hKeysV hQueriesV hScoresV
  rw [hViews.headDim_eq, hViews.headDimValue_eq] at hLoad
  rw [hViews.headDim_eq, hViews.scale_eq, hViews.biases_eq] at hScoresRun
  rw [hMasked] at hValuesRun
  rw [hMasked, hViews.headDimValue_eq, hViews.scale_eq] at hGradRun
  exact ⟨queries, scores, mask', values, ds, last, hLoad, hScoresRun, hValuesRun, hGradRun, hMask',
    hDs, hQueriesV, hStaging, hKeysL, hQueriesL, hGrad, hPhaseL⟩

/-! ### Products -/

variable {pair : TileExtent} {values last : Scratch α kernel.tiles}

/-- The product for gradV adds the share of the query tile. -/
theorem valueProduct_spec (hValid : kernel.Valid) (hStaged : kernel.Staged x pair values last)
    (hHead : x.headDimValue = kernel.shape.headDimValue) (hI : pair.rowsI ≤ kernel.tiles.blockI)
    (hJ : pair.rowsJ ≤ kernel.tiles.blockJ)
    (acc : Tile α kernel.tiles.blockJ kernel.tiles.blockI) (offset : Nat) :
    ∀ j < pair.rowsJ, ∀ col < kernel.tiles.blockI,
      offset + col < KeySide.values.cols kernel.shape →
        (acc.mulAdd values.staging values.gradOutRows pair.rowsI offset).entry j col =
          x.keyShare .values pair.queryStart pair.rowsI (pair.keyStart + j) (offset + col)
            (acc.entry j col) := by
  intro j hj col hCol hIn
  have hWidth := hValid.keyCols_le .values
  have hIn' : offset + col < x.headDimValue := by
    rw [hHead]
    exact hIn
  rw [Tile.entry_mulAdd _ _ _ _ (by omega) hCol (by omega), Nat.min_eq_left hI]
  exact Tile.addProducts_congr (fun i hi => hStaged.staging i hi j hj)
    (fun i hi => hStaged.valueRows.gradOut i hi _ hIn') _

/-- The product for gradK adds the share of the query tile. -/
theorem keyProduct_spec (hValid : kernel.Valid) (hStaged : kernel.Staged x pair values last)
    (hHead : x.headDim = kernel.shape.headDim) (hI : pair.rowsI ≤ kernel.tiles.blockI)
    (hJ : pair.rowsJ ≤ kernel.tiles.blockJ)
    (acc : Tile α kernel.tiles.blockJ kernel.tiles.blockI) (offset : Nat) :
    ∀ j < pair.rowsJ, ∀ col < kernel.tiles.blockI,
      offset + col < KeySide.keys.cols kernel.shape →
        (acc.transposeMulAdd last.gradScores last.queryRows pair.rowsI offset).entry j col =
          x.keyShare .keys pair.queryStart pair.rowsI (pair.keyStart + j) (offset + col)
            (acc.entry j col) := by
  intro j hj col hCol hIn
  have hWidth := hValid.keyCols_le .keys
  have hIn' : offset + col < x.headDim := by
    rw [hHead]
    exact hIn
  rw [Tile.entry_transposeMulAdd _ _ _ _ (by omega) hCol (by omega), Nat.min_eq_left hI]
  exact Tile.addProducts_congr (fun i hi => hStaged.gradScores i hi j hj)
    (fun i hi => hStaged.queryRows.query i hi _ hIn') _

/-- The product for gradQ adds the share of the key tile. -/
theorem queryProduct_spec (hValid : kernel.Valid) (hStaged : kernel.Staged x pair values last)
    (hHead : x.headDim = kernel.shape.headDim) (hI : pair.rowsI ≤ kernel.tiles.blockI)
    (hJ : pair.rowsJ ≤ kernel.tiles.blockJ)
    (acc : Tile α kernel.tiles.blockI kernel.tiles.blockJ) (offset : Nat) :
    ∀ i < pair.rowsI, ∀ col < kernel.tiles.blockJ, offset + col < kernel.shape.headDim →
      (acc.mulAdd last.gradScores last.keyRows pair.rowsJ offset).entry i col =
        x.queryShare pair.keyStart pair.rowsJ (pair.queryStart + i) (offset + col)
          (acc.entry i col) := by
  intro i hi col hCol hIn
  have hWidth := hValid.cols
  have hIn' : offset + col < x.headDim := by
    rw [hHead]
    exact hIn
  rw [Tile.entry_mulAdd _ _ _ _ (by omega) hCol (by omega), Nat.min_eq_left hJ]
  exact Tile.addProducts_congr (fun j hj => hStaged.gradScores i hi j hj)
    (fun j hj => hStaged.keyRows.key j hj _ hIn') _

/-! ### The pair -/

/-- What one pair of tiles does: it visits the entries of its query tile and of its key tile,
adds to the bias gradients, and leaves everything else. -/
structure PairEffect (kernel : Kernel α ε) (view : UnitView α) (x : UnitValues α)
    (keyStart queryStart : Nat) (state next : UnitState α ε kernel.tiles) : Prop where
  query : ∀ row < kernel.shape.numQueries, ∀ col < kernel.shape.headDim,
    tileOf kernel.tiles.blockI row = queryStart →
      kernel.queryEntry view next.memory row col =
        kernel.plan.gradQ.visitEntry (0 < kernel.workspace.gradQ)
          (kernel.queryVisit queryStart keyStart)
          (x.queryShare keyStart (kernel.extent queryStart keyStart).rowsJ row col)
          (kernel.queryEntry view state.memory row col)
  otherQuery : ∀ row < kernel.shape.numQueries, ∀ col < kernel.shape.headDim,
    tileOf kernel.tiles.blockI row ≠ queryStart →
      kernel.queryEntry view next.memory row col = kernel.queryEntry view state.memory row col
  resident : kernel.plan.outputInRegisters = true → ∀ side : KeySide,
    side.of next.memory.grads = side.of state.memory.grads ∧
    ∀ row < kernel.shape.numKeys, ∀ col < side.cols kernel.shape,
      tileOf kernel.tiles.blockJ row = keyStart →
        (side.register next).entry (row % kernel.tiles.blockJ) col =
          x.keyShare side queryStart (kernel.extent queryStart keyStart).rowsI row col
            ((side.register state).entry (row % kernel.tiles.blockJ) col)
  stored : kernel.plan.outputInRegisters = false → ∀ side : KeySide,
    ∀ row < kernel.shape.numKeys, ∀ col < side.cols kernel.shape,
      tileOf kernel.tiles.blockJ row = keyStart →
        kernel.keyEntry view next.memory side row col =
          (side.strategy kernel.plan).visitEntry true (kernel.keyVisit queryStart keyStart)
            (x.keyShare side queryStart (kernel.extent queryStart keyStart).rowsI row col)
            (kernel.keyEntry view state.memory side row col)
  otherKey : ∀ side : KeySide, ∀ row < kernel.shape.numKeys, ∀ col < side.cols kernel.shape,
    tileOf kernel.tiles.blockJ row ≠ keyStart →
      (kernel.keyEntry view next.memory side row col).target =
        (kernel.keyEntry view state.memory side row col).target
  biases : state.memory.biasGrads.Receive next.memory.biasGrads kernel.shape view.coord
    (kernel.extent queryStart keyStart) x
  frame : kernel.Frame view state.memory next.memory

/-- The pairs of a unit lie within its shape. -/
theorem Views.pair_within (hViews : kernel.Views view x) (hValid : kernel.Valid)
    (hQuery : queryStart < kernel.shape.numQueries) (hKey : keyStart < kernel.shape.numKeys) :
    (kernel.extent queryStart keyStart).Within kernel.shape view.coord kernel.tiles.blockI
      kernel.tiles.blockJ := by
  have hBlockI := hValid.blockI
  have hBlockJ := hValid.blockJ
  refine ⟨hViews.reads.batch, hViews.reads.head, hValid.groups, ?_, ?_, ?_, ?_, Nat.min_le_left _ _,
    Nat.min_le_left _ _⟩
  all_goals
    simp only [extent]
    omega

/-- The rows of the mask of a pair begin where no sum is a fault. -/
theorem checkRows_pair (hViews : kernel.Views view x) {mask : Option MaskSource}
    (hMask : ∀ m ∈ mask, m.Serves kernel.dropout kernel.shape view.coord)
    (hQuery : queryStart < kernel.shape.numQueries) (hKey : keyStart < kernel.shape.numKeys) :
    mask.forM (fun m => m.checkRows kernel.overflow (kernel.extent queryStart keyStart).queryStart
      (kernel.extent queryStart keyStart).rowsI (kernel.extent queryStart keyStart).keyStart) =
        .ok () := by
  cases mask with
  | none => rfl
  | some m =>
      refine MaskSource.checkRows_of_fits (hMask m rfl) hViews.reads.sums ?_ hKey
      simp only [extent]
      omega

/-- The three contributions of a pair in the order in which they are made, with the workspace
passed from one to the next. -/
structure Contributions (kernel : Kernel α ε) (view : UnitView α) (x : UnitValues α)
    (keyStart queryStart : Nat) (state next : UnitState α ε kernel.tiles)
    (afterV afterQ : ChunkState α ε) : Prop where
  values : kernel.KeyEffect .values view.grads.gradV queryStart keyStart
    (fun j => x.keyShare .values queryStart (kernel.extent queryStart keyStart).rowsI (keyStart + j))
    state.gradV next.gradV ⟨state.memory.grads.gradV, state.memory.workspace⟩ afterV
  queries : (kernel.queryTile queryStart keyStart).Contributes view.grads.gradQ
    (kernel.queryBase queryStart) kernel.tiles.blockI kernel.tiles.blockJ
    (0 < kernel.workspace.gradQ)
    (fun i => x.queryShare keyStart (kernel.extent queryStart keyStart).rowsJ (queryStart + i))
    (fun _ => True) ⟨state.memory.grads.gradQ, afterV.workspace⟩ afterQ
  unslotted : ¬ 0 < kernel.workspace.gradQ → afterQ.workspace = afterV.workspace
  keys : kernel.KeyEffect .keys view.grads.gradK queryStart keyStart
    (fun j => x.keyShare .keys queryStart (kernel.extent queryStart keyStart).rowsI (keyStart + j))
    state.gradK next.gradK ⟨state.memory.grads.gradK, afterQ.workspace⟩
    ⟨next.memory.grads.gradK, next.memory.workspace⟩
  gradV : next.memory.grads.gradV = afterV.target
  gradQ : next.memory.grads.gradQ = afterQ.target
  biases : state.memory.biasGrads.Receive next.memory.biasGrads kernel.shape view.coord
    (kernel.extent queryStart keyStart) x

/-- A pair of tiles runs through all its stages. -/
theorem runPair_contributions (hValid : kernel.Valid) (hViews : kernel.Views view x)
    {state : UnitState α ε kernel.tiles} (hSound : kernel.Sound view state)
    (hTileQ : ∃ n, queryStart = n * kernel.tiles.blockI)
    (hTileK : ∃ n, keyStart = n * kernel.tiles.blockJ)
    (hQuery : queryStart < kernel.shape.numQueries) (hKey : keyStart < kernel.shape.numKeys)
    (hKeys : state.scratch.HoldsKeys x keyStart (kernel.extent queryStart keyStart).rowsJ) :
    ∃ next afterV afterQ, kernel.runPair view keyStart state queryStart = .ok next ∧
      kernel.Contributions view x keyStart queryStart state next afterV afterQ ∧
      (next.mask.isSome = kernel.dropout.isEnabled ∧
        ∀ m ∈ next.mask, m.Serves kernel.dropout kernel.shape view.coord) ∧
      next.scratch.phase = .keyGrad ∧
      next.scratch.HoldsKeys x keyStart (kernel.extent queryStart keyStart).rowsJ := by
  obtain ⟨⟨⟨gradQ, gradK, gradV⟩, biasGrads, workspace⟩, mask, scratch, accK, accV⟩ := state
  have hWithin := hViews.pair_within hValid hQuery hKey
  obtain ⟨queries, scores, mask', values, ds, last, hLoad, hScores, hValues, hGrad, hMask', hDs,
    hStaged⟩ := stages_spec hValid hViews hQuery hTileK hSound.phase hSound.mask hKeys
  have hBiases := biasTiles_spec hWithin hViews.reads.biases
  obtain ⟨accV', afterV, hRunV, hEffectV⟩ := addKeySide_spec hValid .values hKey accV
    (hSound.keys .values) hSound.workspace
    (valueProduct_spec hValid hStaged hViews.headDimValue_eq hWithin.rowsI_le hWithin.rowsJ_le)
  obtain ⟨biasGrads', hRunBias, hReceive⟩ := addBiasGrads_spec hWithin hDs hSound.biasGrads
  obtain ⟨afterQ, hRunQ, hEffectQ, hUnslotted⟩ := addQuerySide_spec hValid hTileQ hQuery hSound.queries
    (hEffectV.workspaceSize.trans hSound.workspace)
    (queryProduct_spec hValid hStaged hViews.headDim_eq hWithin.rowsI_le hWithin.rowsJ_le)
  obtain ⟨accK', afterK, hRunK, hEffectK⟩ := addKeySide_spec hValid .keys hKey accK
    (hSound.keys .keys)
    ((hEffectQ.workspaceSize.trans hEffectV.workspaceSize).trans hSound.workspace)
    (keyProduct_spec hValid hStaged hViews.headDim_eq hWithin.rowsI_le hWithin.rowsJ_le)
  refine ⟨⟨⟨⟨afterQ.target, afterK.target, afterV.target⟩, biasGrads', afterK.workspace⟩, mask',
    { last with phase := .keyGrad }, accK', accV'⟩, afterV, afterQ, ?_,
    ⟨hEffectV, hEffectQ, hUnslotted, hEffectK, rfl, rfl, hReceive⟩, hMask', rfl,
    ⟨hStaged.keyRows.key, hStaged.keyRows.value⟩⟩
  refine bind_eq_of_ok hLoad ?_
  refine bind_eq_of_ok hBiases ?_
  refine bind_eq_of_ok (checkRows_pair hViews hSound.mask.2 hQuery hKey) ?_
  refine bind_eq_of_ok hScores ?_
  refine bind_eq_of_ok hValues ?_
  refine bind_eq_of_ok hRunV ?_
  refine bind_eq_of_ok hGrad ?_
  refine bind_eq_of_ok hRunBias ?_
  refine bind_eq_of_ok (Scratch.enter_eq (by rw [hStaged.phase]; rfl)) ?_
  refine bind_eq_of_ok hRunQ ?_
  refine bind_eq_of_ok (Scratch.enter_eq rfl) ?_
  exact bind_eq_of_ok hRunK rfl

section Effects

variable {state next : UnitState α ε kernel.tiles} {afterV afterQ : ChunkState α ε}

/-- The pair of an entry of gradQ and its sum goes through the three contributions, of which one
is its own. -/
theorem Contributions.queryEntry_eq (hDone : kernel.Contributions view x keyStart queryStart state
    next afterV afterQ) (hValid : kernel.Valid) (row : Nat) {col : Nat}
    (hCol : col < kernel.shape.headDim) :
    kernel.queryEntry view next.memory row col = afterQ.entry
        (view.grads.gradQ.rowStart row + col) (kernel.querySlot row col) ∧
      (⟨state.memory.grads.gradQ, afterV.workspace⟩ : ChunkState α ε).entry
        (view.grads.gradQ.rowStart row + col) (kernel.querySlot row col) =
          kernel.queryEntry view state.memory row col := by
  have hBounds := querySlot_bounds hValid row hCol
  have hBase := kernel.queryBase_ge (tileOf kernel.tiles.blockI row)
  refine ⟨ChunkState.entry_congr (by rw [hDone.gradQ]) ?_, ChunkState.entry_congr rfl ?_⟩
  · apply hDone.keys.slots_outside hValid
    intro _
    simp only [KeySide.slotBase, KeySide.slotSize]
    omega
  · apply hDone.values.slots_outside hValid
    intro _
    simp only [KeySide.slotBase, KeySide.slotSize]
    omega

omit [Scalar α] in
/-- The sum of an entry of gradK or gradV lies in the slots of its gradient, before those of
gradQ. -/
theorem keySlot_before (hValid : kernel.Valid) (hStored : kernel.plan.outputInRegisters = false)
    (hUses : kernel.plan.gradQ.usesWorkspace = true) (side : KeySide) (row : Nat) {col : Nat}
    (hCol : col < side.cols kernel.shape) (queryStart : Nat) :
    side.slotBase kernel.workspace ≤ kernel.keySlot side row col ∧
      kernel.keySlot side row col < side.slotBase kernel.workspace + side.slotSize kernel.workspace ∧
      kernel.keySlot side row col < kernel.queryBase queryStart := by
  rw [← strategy_eq hValid hStored side] at hUses
  have hBounds := keySlot_bounds hValid hUses row hCol
  have hBase := kernel.queryBase_ge queryStart
  refine ⟨hBounds.1, hBounds.2, ?_⟩
  cases side with
  | keys =>
      simp only [KeySide.slotBase, KeySide.slotSize] at hBounds
      omega
  | values =>
      simp only [KeySide.slotBase, KeySide.slotSize] at hBounds
      omega

/-- As `queryEntry_eq`, for an entry of gradV. -/
theorem Contributions.valueEntry_eq (hDone : kernel.Contributions view x keyStart queryStart state
    next afterV afterQ) (hValid : kernel.Valid) (hStored : kernel.plan.outputInRegisters = false)
    (row : Nat) {col : Nat} (hCol : col < kernel.shape.headDimValue) :
    kernel.keyEntry view next.memory .values row col =
      afterV.entry (view.grads.gradV.rowStart row + col) (kernel.keySlot .values row col) := by
  refine ChunkState.entry_congr (by rw [← hDone.gradV]; rfl) ?_
  refine (hDone.keys.slots_outside hValid fun hUses => ?_).trans
    (hDone.queries.slotFrame _ fun hUses => ?_)
  · rw [strategy_eq hValid hStored] at hUses
    have hBounds := keySlot_before hValid hStored hUses .values row hCol queryStart
    simp only [KeySide.slotBase, KeySide.slotSize] at hBounds ⊢
    omega
  · exact .inl (keySlot_before hValid hStored hUses .values row hCol queryStart).2.2

/-- As `queryEntry_eq`, for an entry of gradK. -/
theorem Contributions.keyEntry_eq (hDone : kernel.Contributions view x keyStart queryStart state
    next afterV afterQ) (hValid : kernel.Valid) (hStored : kernel.plan.outputInRegisters = false)
    (row : Nat) {col : Nat} (hCol : col < kernel.shape.headDim) :
    (⟨state.memory.grads.gradK, afterQ.workspace⟩ : ChunkState α ε).entry
        (view.grads.gradK.rowStart row + col) (kernel.keySlot .keys row col) =
      kernel.keyEntry view state.memory .keys row col := by
  refine ChunkState.entry_congr rfl ?_
  refine (hDone.queries.slotFrame _ fun hUses => ?_).trans
    (hDone.values.slots_outside hValid fun hUses => ?_)
  · exact .inl (keySlot_before hValid hStored hUses .keys row hCol queryStart).2.2
  · rw [strategy_eq hValid hStored] at hUses
    have hBounds := keySlot_before hValid hStored hUses .keys row hCol queryStart
    simp only [KeySide.slotBase, KeySide.slotSize] at hBounds ⊢
    omega

/-- A row of another tile has no address in common with the rows of a tile. -/
theorem address_ne_of_tile {window : Window} {block total cols size start length row col : Nat}
    (hFits : window.Fits total cols size) (hTile : ∃ n, start = n * block)
    (hLength : length ≤ min block (total - start)) (hRow : row < total) (hCol : col < cols)
    (hOther : tileOf block row ≠ start) :
    ∀ i < length, ∀ col' < cols,
      window.rowStart row + col ≠ window.rowStart (start + i) + col' := by
  intro i hi col' hCol' h
  have hSame := (hFits.injective row hRow col hCol (start + i) (by omega) col' hCol' h).1
  obtain ⟨n, rfl⟩ := hTile
  exact hOther ((tileOf_eq_iff (by omega)).mpr (by omega))

/-- The three contributions of a pair change the slots of their own column chunks alone. -/
theorem Contributions.slots_eq (hDone : kernel.Contributions view x keyStart queryStart state next
    afterV afterQ) (hValid : kernel.Valid)
    (hTile : queryStart ∈ tileStarts 0 kernel.shape.numQueries kernel.tiles.blockI) {p : Nat}
    (hp : ¬ kernel.InSlot p) :
    (next.memory.workspace.getD #[])[p]? = (state.memory.workspace.getD #[])[p]? := by
  have hKeySide : ∀ side : KeySide, (side.strategy kernel.plan).usesWorkspace = true →
      p < side.slotBase kernel.workspace ∨ side.slotBase kernel.workspace +
        chunksOf (side.cols kernel.shape) kernel.tiles.blockI *
          (kernel.tiles.blockJ * kernel.tiles.blockI) ≤ p := by
    intro side hUses
    by_contra hInside
    exact hp (hValid.inSlot_key hUses (by omega) (by omega))
  have hQuerySide : (afterQ.workspace.getD #[])[p]? = (afterV.workspace.getD #[])[p]? := by
    by_cases hSlots : 0 < kernel.workspace.gradQ
    · apply hDone.queries.slotFrame
      intro _
      by_contra hInside
      simp only [queryTile] at hInside
      exact hp (hValid.inSlot_query hSlots hTile (by omega) (by omega))
    · rw [hDone.unslotted hSlots]
  calc (next.memory.workspace.getD #[])[p]?
    _ = (afterQ.workspace.getD #[])[p]? := hDone.keys.slotFrame p (hKeySide .keys)
    _ = (afterV.workspace.getD #[])[p]? := hQuerySide
    _ = (state.memory.workspace.getD #[])[p]? := hDone.values.slotFrame p (hKeySide .values)

/-- A pair leaves what is not its unit's as it was. -/
theorem Contributions.frame (hDone : kernel.Contributions view x keyStart queryStart state next
    afterV afterQ) (hValid : kernel.Valid)
    (hTile : queryStart ∈ tileStarts 0 kernel.shape.numQueries kernel.tiles.blockI) :
    kernel.Frame view state.memory next.memory where
  queries := by
    rw [hDone.gradQ]
    refine ⟨hDone.queries.targetSize, fun p hp => hDone.queries.targetFrame p ?_⟩
    intro i hi col hCol
    simp only [queryTile, extent] at hi
    exact hp (queryStart + i) (by omega) col hCol
  keys := by
    intro side
    have hKeyRow : ∀ j < (kernel.extent queryStart keyStart).rowsJ,
        keyStart + j < kernel.shape.numKeys := by
      intro j hj
      simp only [extent] at hj
      omega
    cases side with
    | keys =>
        exact ⟨hDone.keys.targetSize, fun p hp => hDone.keys.targetFrame p fun j hj col hCol =>
          hp (keyStart + j) (hKeyRow j hj) col hCol⟩
    | values =>
        have hSize := hDone.values.targetSize
        have hSame := hDone.values.targetFrame
        rw [← hDone.gradV] at hSize hSame
        exact ⟨hSize, fun p hp => hSame p fun j hj col hCol =>
          hp (keyStart + j) (hKeyRow j hj) col hCol⟩
  biasSize := hDone.biases.size
  biases := by
    intro kind p hp
    apply hDone.biases.outside kind p
    intro i hi j hj
    simp only [extent] at hi hj
    exact hp (queryStart + i) (by omega) (keyStart + j) (by omega)
  workspace := (hDone.keys.workspaceSize.trans hDone.queries.workspaceSize).trans
    hDone.values.workspaceSize
  slots _ hp := hDone.slots_eq hValid hTile hp

/-- The contributions of a pair are its effect on the entries. -/
theorem Contributions.effect (hDone : kernel.Contributions view x keyStart queryStart state next
    afterV afterQ) (hValid : kernel.Valid) (hSound : kernel.Sound view state)
    (hTileQ : ∃ n, queryStart = n * kernel.tiles.blockI)
    (hTileK : ∃ n, keyStart = n * kernel.tiles.blockJ)
    (hQuery : queryStart < kernel.shape.numQueries) :
    kernel.PairEffect view x keyStart queryStart state next where
  query := by
    intro row hRow col hCol hTile
    obtain ⟨hIn, hSplit⟩ := row_in_tile hValid.blockI hTile hRow
    have hVisit := hDone.queries.inside _ hIn col hCol trivial
    obtain ⟨hAfter, hBefore⟩ := hDone.queryEntry_eq hValid row hCol
    rw [ChunkedTile.address, queryTile] at hVisit
    simp only [hSplit] at hVisit
    rw [hAfter, ← hBefore, querySlot, hTile]
    exact hVisit
  otherQuery := by
    intro row hRow col hCol hOther
    obtain ⟨hAfter, hBefore⟩ := hDone.queryEntry_eq hValid row hCol
    rw [hAfter, ← hBefore]
    refine ChunkState.entry_congr (hDone.queries.targetFrame _ ?_)
      (hDone.queries.slotFrame _ fun _ => querySlot_apart hValid hCol hTileQ hOther)
    exact address_ne_of_tile hSound.queries hTileQ (Nat.le_refl _) hRow hCol hOther
  resident := by
    intro hResident side
    have hKeys := hDone.keys.resident hResident
    have hValues := hDone.values.resident hResident
    cases side with
    | keys =>
        refine ⟨congrArg ChunkState.target hKeys.1, fun row hRow col hCol hTile => ?_⟩
        obtain ⟨hIn, hSplit⟩ := row_in_tile hValid.blockJ hTile hRow
        have h := hKeys.2 _ hIn col hCol
        rwa [hSplit] at h
    | values =>
        refine ⟨hDone.gradV.trans (congrArg ChunkState.target hValues.1),
          fun row hRow col hCol hTile => ?_⟩
        obtain ⟨hIn, hSplit⟩ := row_in_tile hValid.blockJ hTile hRow
        have h := hValues.2 _ hIn col hCol
        rwa [hSplit] at h
  stored := by
    intro hStored side row hRow col hCol hTile
    obtain ⟨hIn, hSplit⟩ := row_in_tile hValid.blockJ hTile hRow
    cases side with
    | keys =>
        have h := hDone.keys.stored hStored _ hIn col hCol
        rw [hSplit] at h
        rw [← hDone.keyEntry_eq hValid hStored row hCol]
        exact h
    | values =>
        have h := hDone.values.stored hStored _ hIn col hCol
        rw [hSplit] at h
        rw [hDone.valueEntry_eq hValid hStored row hCol]
        exact h
  otherKey := by
    intro side row hRow col hCol hOther
    have hApart := address_ne_of_tile (hSound.keys side) hTileK (Nat.le_refl _) hRow hCol hOther
    cases side with
    | keys =>
        have h := hDone.keys.targetFrame _ hApart
        simp only [keyEntry, ChunkState.entry, KeySide.of] at h ⊢
        rw [h]
    | values =>
        have h := hDone.values.targetFrame _ hApart
        rw [← hDone.gradV] at h
        simp only [keyEntry, ChunkState.entry, KeySide.of] at h ⊢
        rw [h]
  biases := hDone.biases
  frame := hDone.frame hValid ((mem_tileStarts hValid.blockI).mpr
    ⟨hQuery, hTileQ.imp fun n hn => hn.trans (Nat.zero_add _).symm⟩)

end Effects

/-- A pair of tiles never faults, whatever the state, and its effect is known. -/
theorem runPair_spec (hValid : kernel.Valid) (hViews : kernel.Views view x)
    {state : UnitState α ε kernel.tiles} (hSound : kernel.Sound view state)
    (hTileQ : ∃ n, queryStart = n * kernel.tiles.blockI)
    (hTileK : ∃ n, keyStart = n * kernel.tiles.blockJ)
    (hQuery : queryStart < kernel.shape.numQueries) (hKey : keyStart < kernel.shape.numKeys)
    (hKeys : state.scratch.HoldsKeys x keyStart (kernel.extent queryStart keyStart).rowsJ) :
    ∃ next, kernel.runPair view keyStart state queryStart = .ok next ∧ kernel.Sound view next ∧
      next.scratch.HoldsKeys x keyStart (kernel.extent queryStart keyStart).rowsJ ∧
      kernel.PairEffect view x keyStart queryStart state next := by
  obtain ⟨next, afterV, afterQ, hRun, hDone, hMask, hPhase, hKept⟩ :=
    runPair_contributions hValid hViews hSound hTileQ hTileK hQuery hKey hKeys
  have hEffect := hDone.effect hValid hSound hTileQ hTileK hQuery
  exact ⟨next, hRun, hSound.of_frame hEffect.frame hMask (.inr hPhase), hKept, hEffect⟩

end FusedAttention.Kernel
