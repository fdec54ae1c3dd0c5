import FusedAttention.Proofs.Pairs

/-! One key tile with all query tiles that it attends to. Its own gradients are complete after it,
and every query tile that it attends to has been visited once. -/
namespace FusedAttention

variable {α ε : Type} [Scalar α] [Element ε α]

/-- Whether a pair at a query tile adds to the entry of a bias gradient that a query of the tile
`tile` meets. The entries of a key mask are met by all queries. -/
def BiasKind.meets (kind : BiasKind) (tile queryStart : Nat) : Bool :=
  kind == .keyMask || tile == queryStart

namespace Kernel

variable {kernel : Kernel α ε} {view : UnitView α} {x : UnitValues α} {keyStart : Nat}

/-- The query tiles that a key tile attends to, in order. -/
def queryStarts (kernel : Kernel α ε) (keyStart : Nat) : List Nat :=
  tileStarts (kernel.firstQuery keyStart) kernel.shape.numQueries kernel.tiles.blockI

/-- What the query tiles add to one entry of gradK or gradV, in order. -/
def keyAdds (kernel : Kernel α ε) (x : UnitValues α) (side : KeySide) (row col : Nat) :
    List (α → α) :=
  let keyStart := tileOf kernel.tiles.blockJ row
  (kernel.queryStarts keyStart).map fun queryStart =>
    x.keyShare side queryStart (kernel.extent queryStart keyStart).rowsI row col

/-- What a launch leaves in an entry of gradK or gradV. -/
def keyResult (kernel : Kernel α ε) (x : UnitValues α) (side : KeySide) (row col : Nat) : ε :=
  let adds := kernel.keyAdds x side row col
  if kernel.plan.outputInRegisters then Strategy.workspace.total adds
  else if adds.isEmpty then Element.zero (α := α)
  else (side.strategy kernel.plan).total adds

/-- What the query tiles add to the entry of a bias gradient that a query and a key meet. -/
def biasShares (kernel : Kernel α ε) (x : UnitValues α) (kind : BiasKind) (query key : Nat) :
    List α :=
  let keyStart := tileOf kernel.tiles.blockJ key
  let starts := (kernel.queryStarts keyStart).filter
    (kind.meets (tileOf kernel.tiles.blockI query))
  starts.map fun queryStart =>
    kind.share x queryStart (kernel.extent queryStart keyStart).rowsI query key

/-- What one key tile does to the memory of its unit. -/
structure KeyTileEffect (kernel : Kernel α ε) (view : UnitView α) (x : UnitValues α)
    (keyStart : Nat) (before after : UnitMemory α ε) : Prop where
  query : ∀ row < kernel.shape.numQueries, ∀ col < kernel.shape.headDim,
    kernel.queryEntry view after row col =
      if kernel.firstQuery keyStart ≤ tileOf kernel.tiles.blockI row then
        kernel.plan.gradQ.visitEntry (0 < kernel.workspace.gradQ)
          (kernel.queryVisit (tileOf kernel.tiles.blockI row) keyStart)
          (x.queryShare keyStart (min kernel.tiles.blockJ (kernel.shape.numKeys - keyStart)) row col)
          (kernel.queryEntry view before row col)
      else kernel.queryEntry view before row col
  key : ∀ side : KeySide, ∀ row < kernel.shape.numKeys, ∀ col < side.cols kernel.shape,
    (kernel.keyEntry view after side row col).target =
      if tileOf kernel.tiles.blockJ row = keyStart then kernel.keyResult x side row col
      else (kernel.keyEntry view before side row col).target
  biases : ∀ kind : BiasKind, ∀ query < kernel.shape.numQueries, ∀ key < kernel.shape.numKeys,
    after.biasGrads.at? kind (kind.address kernel.shape view.coord query key) =
      if tileOf kernel.tiles.blockJ key = keyStart then
        (before.biasGrads.at? kind (kind.address kernel.shape view.coord query key)).map
          fun y => (kernel.biasShares x kind query key).foldl (· + ·) y
      else before.biasGrads.at? kind (kind.address kernel.shape view.coord query key)
  frame : kernel.Frame view before after

/-! ### The query loop -/

omit [Scalar α] in
theorem mem_queryStarts (hValid : kernel.Valid) {queryStart : Nat}
    (hMem : queryStart ∈ kernel.queryStarts keyStart) :
    kernel.firstQuery keyStart < kernel.shape.numQueries ∧
      queryStart < kernel.shape.numQueries ∧ ∃ n, queryStart = n * kernel.tiles.blockI := by
  obtain ⟨hLt, n, hn⟩ := (mem_tileStarts hValid.blockI).mp hMem
  have hFirst : kernel.firstQuery keyStart < kernel.shape.numQueries := by omega
  obtain ⟨m, hm⟩ := firstQueryTile_of_lt hFirst
  refine ⟨hFirst, hLt, m + n, ?_⟩
  rw [hn, Nat.add_mul, firstQuery, hm]

omit [Scalar α] in
/-- A query tile is in the loop of a key tile just if the loop does not start past it. -/
theorem tileOf_mem_queryStarts (hValid : kernel.Valid) {row : Nat}
    (hRow : row < kernel.shape.numQueries) :
    tileOf kernel.tiles.blockI row ∈ kernel.queryStarts keyStart ↔
      kernel.firstQuery keyStart ≤ tileOf kernel.tiles.blockI row :=
  tileOf_mem_queries hValid.blockI hRow

omit [Scalar α] in
/-- A key tile that attends to no query has no query tiles. -/
theorem queryStarts_eq_nil (hValid : kernel.Valid)
    (hReach : ¬ kernel.firstQuery keyStart < kernel.shape.numQueries) :
    kernel.queryStarts keyStart = [] := by
  apply List.eq_nil_iff_forall_not_mem.mpr
  intro queryStart hMem
  exact hReach (mem_queryStarts hValid hMem).1

/-- All pairs of a key tile run after each other; loading the keys changes nothing else. -/
theorem runQueries_steps (hValid : kernel.Valid) (hViews : kernel.Views view x)
    {state : UnitState α ε kernel.tiles} (hSound : kernel.Sound view state)
    (hTileK : ∃ n, keyStart = n * kernel.tiles.blockJ) (hKey : keyStart < kernel.shape.numKeys) :
    ∃ loaded next, kernel.runQueries view keyStart state = .ok next ∧ kernel.Sound view next ∧
      loaded.memory = state.memory ∧ loaded.gradK = state.gradK ∧ loaded.gradV = state.gradV ∧
      Steps (fun s queryStart t => kernel.PairEffect view x keyStart queryStart s t) loaded
        (kernel.queryStarts keyStart) next := by
  by_cases hReach : kernel.firstQuery keyStart < kernel.shape.numQueries
  · obtain ⟨memory, mask, scratch, accK, accV⟩ := state
    obtain ⟨-, hInK, hInV, -⟩ := hViews.within
    have hPhase : scratch.phase.allows .loadKeys = true := by
      rcases hSound.phase with h | h <;> rw [h] <;> rfl
    have hRow : ∀ j < (kernel.extent (kernel.firstQuery keyStart) keyStart).rowsJ,
        keyStart + j < kernel.shape.numKeys := by
      intro j hj
      simp only [extent] at hj
      omega
    obtain ⟨loaded, hLoad, hLoadPhase, hHeld⟩ := Scratch.loadKeyTile_spec hPhase
      (Nat.min_le_left _ _ : (kernel.extent (kernel.firstQuery keyStart) keyStart).rowsJ ≤ _)
      (hViews.headDim_eq ▸ hValid.cols) (hViews.headDimValue_eq ▸ hValid.colsValue) hViews.key_eq
      hViews.value_eq (fun j hj => hInK _ (hRow j hj)) (fun j hj => hInV _ (hRow j hj))
    rw [hViews.headDim_eq, hViews.headDimValue_eq] at hLoad
    have hStart : kernel.Sound view ⟨memory, mask, loaded, accK, accV⟩ :=
      hSound.of_frame (.refl ..) hSound.mask (.inl hLoadPhase)
    obtain ⟨next, hRun, ⟨hNext, -⟩, hSteps⟩ := foldlM_steps
      (fun s : UnitState α ε kernel.tiles => kernel.Sound view s ∧ s.scratch.HoldsKeys x keyStart
        (min kernel.tiles.blockJ (kernel.shape.numKeys - keyStart)))
      (fun s queryStart t => kernel.PairEffect view x keyStart queryStart s t)
      (fun s queryStart hMem hHolds => by
        obtain ⟨hNow, hKeys⟩ := hHolds
        obtain ⟨-, hQuery, hTileQ⟩ := mem_queryStarts hValid hMem
        obtain ⟨t, hStep, hThen, hKept, hEffect⟩ :=
          runPair_spec hValid hViews hNow hTileQ hTileK hQuery hKey hKeys
        exact ⟨t, hStep, ⟨hThen, hKept⟩, hEffect⟩)
      (⟨hStart, hHeld⟩ : kernel.Sound view ⟨memory, mask, loaded, accK, accV⟩ ∧ _)
    refine ⟨⟨memory, mask, loaded, accK, accV⟩, next, ?_, hNext, rfl, rfl, rfl, hSteps⟩
    refine bind_eq_of_ok (a := ⟨memory, mask, loaded, accK, accV⟩) ?_ hRun
    rw [loadKeys, if_pos hReach, hLoad]
    rfl
  · have hNone := queryStarts_eq_nil hValid hReach
    refine ⟨state, state, ?_, hSound, rfl, rfl, rfl, hNone ▸ .nil state⟩
    refine bind_eq_of_ok (a := state) (by rw [loadKeys, if_neg hReach]) ?_
    show (kernel.queryStarts keyStart).foldlM (kernel.runPair view keyStart) state = _
    rw [hNone]
    rfl

/-- A pair adds to an entry of a bias gradient just if one of its queries and its keys meet it. -/
theorem PairEffect.bias_at {queryStart : Nat} {state next : UnitState α ε kernel.tiles}
    (hEffect : kernel.PairEffect view x keyStart queryStart state next) (hValid : kernel.Valid)
    (hTileQ : ∃ n, queryStart = n * kernel.tiles.blockI)
    (hTileK : ∃ n, keyStart = n * kernel.tiles.blockJ)
    (hQueryStart : queryStart < kernel.shape.numQueries) (kind : BiasKind) {query key : Nat}
    (hQuery : query < kernel.shape.numQueries) (hKey : key < kernel.shape.numKeys) :
    next.memory.biasGrads.at? kind (kind.address kernel.shape view.coord query key) =
      if tileOf kernel.tiles.blockJ key = keyStart ∧
          kind.meets (tileOf kernel.tiles.blockI query) queryStart = true then
        (state.memory.biasGrads.at? kind (kind.address kernel.shape view.coord query key)).map
          (· + kind.share x queryStart (kernel.extent queryStart keyStart).rowsI query key)
      else state.memory.biasGrads.at? kind (kind.address kernel.shape view.coord query key) := by
  by_cases hMeets : tileOf kernel.tiles.blockJ key = keyStart ∧
      kind.meets (tileOf kernel.tiles.blockI query) queryStart = true
  · rw [if_pos hMeets]
    obtain ⟨hTile, hMeets⟩ := hMeets
    obtain ⟨hj, hSplit⟩ := row_in_tile hValid.blockJ hTile hKey
    cases kind with
    | keyMask =>
        have hRows : 0 < (kernel.extent queryStart keyStart).rowsI := by
          have := hValid.blockI
          simp only [extent]
          omega
        have h := hEffect.biases.inside .keyMask 0 hRows _ hj
        simp only [extent, hSplit] at h
        rw [BiasKind.address_keyMask _ _ query (queryStart + 0)]
        exact h
    | pairBias =>
        have hTileQuery : tileOf kernel.tiles.blockI query = queryStart := by
          simpa [BiasKind.meets] using hMeets
        obtain ⟨hi, hSplitQuery⟩ := row_in_tile hValid.blockI hTileQuery hQuery
        have h := hEffect.biases.inside .pairBias _ hi _ hj
        simp only [extent, hSplit, hSplitQuery] at h
        exact h
  · rw [if_neg hMeets]
    apply hEffect.biases.outside
    intro i hi j hj hSame
    simp only [extent] at hi hj hSame
    obtain ⟨hSameKey, hSameQuery⟩ := BiasKind.address_inj hKey (by omega) hSame
    obtain ⟨n, rfl⟩ := hTileQ
    obtain ⟨m, rfl⟩ := hTileK
    refine hMeets ⟨(tileOf_eq_iff hValid.blockJ).mpr (by omega), ?_⟩
    cases kind with
    | keyMask => rfl
    | pairBias =>
        have hQueryRow := hSameQuery rfl
        have hTileQuery : tileOf kernel.tiles.blockI query = n * kernel.tiles.blockI :=
          (tileOf_eq_iff hValid.blockI).mpr (by omega)
        rw [BiasKind.meets, hTileQuery]
        exact beq_self_eq_true _

section Loop

variable {loaded next : UnitState α ε kernel.tiles}

/-- The query loop leaves what is not its unit's as it was. -/
theorem frame_of_steps
    (hSteps : Steps (fun s queryStart t => kernel.PairEffect view x keyStart queryStart s t) loaded
      (kernel.queryStarts keyStart) next) : kernel.Frame view loaded.memory next.memory :=
  hSteps.compose (r := fun s t => kernel.Frame view s.memory t.memory) (fun _ => .refl ..) .trans
    fun _ _ _ _ hEffect => hEffect.frame

/-- The query loop leaves gradK and gradV of other key tiles as they were. -/
theorem otherKey_of_steps
    (hSteps : Steps (fun s queryStart t => kernel.PairEffect view x keyStart queryStart s t) loaded
      (kernel.queryStarts keyStart) next) (side : KeySide) {row col : Nat}
    (hRow : row < kernel.shape.numKeys) (hCol : col < side.cols kernel.shape)
    (hTile : tileOf kernel.tiles.blockJ row ≠ keyStart) :
    (kernel.keyEntry view next.memory side row col).target =
      (kernel.keyEntry view loaded.memory side row col).target :=
  hSteps.frame (fun s => (kernel.keyEntry view s.memory side row col).target)
    fun _ _ _ _ hEffect => hEffect.otherKey side row hRow col hCol hTile

/-- The query loop visits the entries of every query tile that the key tile attends to once. -/
theorem query_of_steps (hValid : kernel.Valid)
    (hSteps : Steps (fun s queryStart t => kernel.PairEffect view x keyStart queryStart s t) loaded
      (kernel.queryStarts keyStart) next) {row col : Nat} (hRow : row < kernel.shape.numQueries)
    (hCol : col < kernel.shape.headDim) :
    kernel.queryEntry view next.memory row col =
      if kernel.firstQuery keyStart ≤ tileOf kernel.tiles.blockI row then
        kernel.plan.gradQ.visitEntry (0 < kernel.workspace.gradQ)
          (kernel.queryVisit (tileOf kernel.tiles.blockI row) keyStart)
          (x.queryShare keyStart (min kernel.tiles.blockJ (kernel.shape.numKeys - keyStart)) row col)
          (kernel.queryEntry view loaded.memory row col)
      else kernel.queryEntry view loaded.memory row col := by
  by_cases hMem : tileOf kernel.tiles.blockI row ∈ kernel.queryStarts keyStart
  · rw [if_pos ((tileOf_mem_queryStarts hValid hRow).mp hMem)]
    exact hSteps.observe_once (nodup_tileStarts hValid.blockI) hMem
      (fun s => kernel.queryEntry view s.memory row col) _
      (fun _ _ hEffect => hEffect.query row hRow col hCol rfl)
      fun _ _ _ _ hOther hEffect => hEffect.otherQuery row hRow col hCol (Ne.symm hOther)
  · rw [if_neg (mt (tileOf_mem_queryStarts hValid hRow).mpr hMem)]
    refine hSteps.frame (fun s => kernel.queryEntry view s.memory row col) ?_
    intro s t queryStart hStart hEffect
    refine hEffect.otherQuery row hRow col hCol ?_
    rintro rfl
    exact hMem hStart

/-- The query loop adds all shares to the entries of the bias gradients that its keys meet. -/
theorem bias_of_steps (hValid : kernel.Valid) (hTileK : ∃ n, keyStart = n * kernel.tiles.blockJ)
    (hSteps : Steps (fun s queryStart t => kernel.PairEffect view x keyStart queryStart s t) loaded
      (kernel.queryStarts keyStart) next) (kind : BiasKind) {query key : Nat}
    (hQuery : query < kernel.shape.numQueries) (hKey : key < kernel.shape.numKeys) :
    next.memory.biasGrads.at? kind (kind.address kernel.shape view.coord query key) =
      if tileOf kernel.tiles.blockJ key = keyStart then
        (loaded.memory.biasGrads.at? kind (kind.address kernel.shape view.coord query key)).map
          fun y => (kernel.biasShares x kind query key).foldl (· + ·) y
      else loaded.memory.biasGrads.at? kind (kind.address kernel.shape view.coord query key) := by
  by_cases hTile : tileOf kernel.tiles.blockJ key = keyStart
  · rw [if_pos hTile]
    have hFold := hSteps.observe
      (fun s => s.memory.biasGrads.at? kind (kind.address kernel.shape view.coord query key))
      (fun entry queryStart =>
        if kind.meets (tileOf kernel.tiles.blockI query) queryStart = true then
          entry.map (· + kind.share x queryStart (kernel.extent queryStart keyStart).rowsI query key)
        else entry) ?_
    · rw [hFold]
      simp only [biasShares, hTile, List.foldl_map]
      rw [← foldl_option_map, List.foldl_filter]
    · intro s t queryStart hMem hEffect
      obtain ⟨-, hStart, hTileQ⟩ := mem_queryStarts hValid hMem
      rw [hEffect.bias_at hValid hTileQ hTileK hStart kind hQuery hKey]
      simp only [hTile, true_and]
  · rw [if_neg hTile]
    refine hSteps.frame
      (fun s => s.memory.biasGrads.at? kind (kind.address kernel.shape view.coord query key)) ?_
    intro s t queryStart hMem hEffect
    obtain ⟨-, hStart, hTileQ⟩ := mem_queryStarts hValid hMem
    rw [hEffect.bias_at hValid hTileQ hTileK hStart kind hQuery hKey, if_neg fun h => hTile h.1]

omit [Scalar α] [Element ε α] in
/-- The flags of a key tile mark the first and the last of its query tiles. -/
theorem keyVisit_eq (hBlockI : 0 < kernel.tiles.blockI) (hBlockJ : 0 < kernel.tiles.blockJ) {n : Nat}
    (hn : n < chunksOf (kernel.shape.numQueries - kernel.firstQuery keyStart) kernel.tiles.blockI) :
    kernel.keyVisit (kernel.firstQuery keyStart + n * kernel.tiles.blockI) keyStart =
      ⟨n = 0, n + 1 = chunksOf (kernel.shape.numQueries - kernel.firstQuery keyStart)
        kernel.tiles.blockI⟩ := by
  have hMore : n + 1 < chunksOf (kernel.shape.numQueries - kernel.firstQuery keyStart)
      kernel.tiles.blockI ↔ (n + 1) * kernel.tiles.blockI <
        kernel.shape.numQueries - kernel.firstQuery keyStart := lt_chunksOf_iff hBlockI
  have hStep : (n + 1) * kernel.tiles.blockI = n * kernel.tiles.blockI + kernel.tiles.blockI :=
    Nat.succ_mul n kernel.tiles.blockI
  have hFirst : kernel.firstQuery keyStart + n * kernel.tiles.blockI =
      kernel.firstQuery keyStart ↔ n = 0 := by
    constructor
    · intro h
      rcases Nat.mul_eq_zero.mp (show n * kernel.tiles.blockI = 0 by omega) with h | h
      · exact h
      · exact absurd h (Nat.ne_of_gt hBlockI)
    · rintro rfl
      rw [Nat.zero_mul, Nat.add_zero]
  have hLast : (kernel.following (kernel.firstQuery keyStart + n * kernel.tiles.blockI) keyStart).2 ≠
      keyStart ↔
        n + 1 = chunksOf (kernel.shape.numQueries - kernel.firstQuery keyStart)
          kernel.tiles.blockI := by
    simp only [following, nextIteration]
    split
    · simp only [ne_eq, not_true_eq_false, false_iff]
      omega
    · simp only [ne_eq]
      omega
  simp only [keyVisit, hFirst, hLast]

/-- An entry that is not kept in registers holds its total after the query loop. -/
theorem stored_of_steps (hValid : kernel.Valid) (hStored : kernel.plan.outputInRegisters = false)
    (hReach : kernel.firstQuery keyStart < kernel.shape.numQueries)
    (hSteps : Steps (fun s queryStart t => kernel.PairEffect view x keyStart queryStart s t) loaded
      (kernel.queryStarts keyStart) next) (side : KeySide) {row col : Nat}
    (hRow : row < kernel.shape.numKeys) (hCol : col < side.cols kernel.shape)
    (hTile : tileOf kernel.tiles.blockJ row = keyStart) :
    (kernel.keyEntry view next.memory side row col).target = kernel.keyResult x side row col := by
  have hCount : 0 < chunksOf (kernel.shape.numQueries - kernel.firstQuery keyStart)
      kernel.tiles.blockI := chunksOf_pos hValid.blockI (by omega)
  have hFold := hSteps.observe (fun s => kernel.keyEntry view s.memory side row col)
    (fun e queryStart => (side.strategy kernel.plan).visitEntry true
      (kernel.keyVisit queryStart keyStart)
      (x.keyShare side queryStart (kernel.extent queryStart keyStart).rowsI row col) e)
    fun s t queryStart _ hEffect => hEffect.stored hStored side row hRow col hCol hTile
  have hVisits : (kernel.keyEntry view next.memory side row col) =
      (side.strategy kernel.plan).visitUpTo
        (chunksOf (kernel.shape.numQueries - kernel.firstQuery keyStart) kernel.tiles.blockI)
        (fun n => x.keyShare side (kernel.firstQuery keyStart + n * kernel.tiles.blockI)
          (kernel.extent (kernel.firstQuery keyStart + n * kernel.tiles.blockI) keyStart).rowsI
          row col)
        (chunksOf (kernel.shape.numQueries - kernel.firstQuery keyStart) kernel.tiles.blockI)
        (kernel.keyEntry view loaded.memory side row col) := by
    rw [hFold, queryStarts, tileStarts, List.foldl_map]
    refine List.foldl_ext _ _ _ fun e n hn => ?_
    rw [keyVisit_eq hValid.blockI hValid.blockJ (List.mem_range.mp hn)]
  have hAdds : kernel.keyAdds x side row col =
      (List.range (chunksOf (kernel.shape.numQueries - kernel.firstQuery keyStart)
        kernel.tiles.blockI)).map fun n =>
          x.keyShare side (kernel.firstQuery keyStart + n * kernel.tiles.blockI)
            (kernel.extent (kernel.firstQuery keyStart + n * kernel.tiles.blockI) keyStart).rowsI
            row col := by
    rw [keyAdds, hTile, queryStarts, tileStarts, List.map_map]
    rfl
  have hSome : ¬ (kernel.keyAdds x side row col).isEmpty = true := by
    rw [hAdds, List.isEmpty_iff, List.map_eq_nil_iff, List.range_eq_nil]
    omega
  rw [hVisits, Strategy.visitUpTo_complete _ hCount, ← hAdds, keyResult, hStored]
  exact (if_neg hSome).symm

/-- The accumulator in registers holds the sum of all shares after the query loop. -/
theorem resident_of_steps (hResident : kernel.plan.outputInRegisters = true)
    (hSteps : Steps (fun s queryStart t => kernel.PairEffect view x keyStart queryStart s t) loaded
      (kernel.queryStarts keyStart) next) (side : KeySide) {row col : Nat}
    (hRow : row < kernel.shape.numKeys) (hCol : col < side.cols kernel.shape)
    (hTile : tileOf kernel.tiles.blockJ row = keyStart) :
    (side.register next).entry (row % kernel.tiles.blockJ) col =
      (kernel.keyAdds x side row col).foldl (fun sum add => add sum)
        ((side.register loaded).entry (row % kernel.tiles.blockJ) col) := by
  rw [keyAdds, hTile, List.foldl_map]
  exact hSteps.observe (fun s => (side.register s).entry (row % kernel.tiles.blockJ) col) _
    fun s t queryStart _ hEffect => (hEffect.resident hResident side).2 row hRow col hCol hTile

end Loop

/-! ### Writing a key tile at once -/

/-- The gradients of one key tile have been set, whatever they were. -/
structure SetsKeyTile (kernel : Kernel α ε) (view : UnitView α) (keyStart : Nat)
    (entries : KeySide → Nat → Nat → ε) (before after : UnitMemory α ε) : Prop where
  gradQ : after.grads.gradQ = before.grads.gradQ
  biasGrads : after.biasGrads = before.biasGrads
  workspace : after.workspace = before.workspace
  keys : ∀ side : KeySide, ((side.of view.grads).sub keyStart 0).BlockUpdate
    (min kernel.tiles.blockJ (kernel.shape.numKeys - keyStart)) (side.cols kernel.shape)
    (fun j col _ => entries side j col) (side.of before.grads) (side.of after.grads)

variable {entries : KeySide → Nat → Nat → ε} {before after : UnitMemory α ε}

theorem SetsKeyTile.target (hSets : kernel.SetsKeyTile view keyStart entries before after)
    (hValid : kernel.Valid) (hTileK : ∃ n, keyStart = n * kernel.tiles.blockJ) {side : KeySide}
    (hFits : (side.of view.grads).Fits kernel.shape.numKeys (side.cols kernel.shape)
      (side.of before.grads).size) {row col : Nat} (hRow : row < kernel.shape.numKeys)
    (hCol : col < side.cols kernel.shape) :
    (kernel.keyEntry view after side row col).target =
      if tileOf kernel.tiles.blockJ row = keyStart then entries side (row % kernel.tiles.blockJ) col
      else (kernel.keyEntry view before side row col).target := by
  have hUpdate := hSets.keys side
  by_cases hTile : tileOf kernel.tiles.blockJ row = keyStart
  · obtain ⟨hIn, hSplit⟩ := row_in_tile hValid.blockJ hTile hRow
    have h := hUpdate.inside _ hIn col hCol
    have hPlace := hFits.within row hRow
    obtain ⟨old, hOld⟩ : ∃ old, (side.of before.grads)[(side.of view.grads).rowStart row + col]? =
        some old := ⟨_, Array.getElem?_eq_getElem (by omega)⟩
    rw [Window.rowStart_sub, Nat.add_zero, hSplit, hOld, Option.map_some] at h
    rw [if_pos hTile, keyEntry, ChunkState.entry, h, Option.getD_some]
  · have h := hUpdate.outside ((side.of view.grads).rowStart row + col) ?_
    · rw [if_neg hTile]
      simp only [keyEntry, ChunkState.entry, h]
    · intro j hj col' hCol'
      rw [Window.rowStart_sub, Nat.add_zero]
      exact address_ne_of_tile hFits hTileK (Nat.le_refl _) hRow hCol hTile j hj col' hCol'

omit [Scalar α] [Element ε α] in
theorem SetsKeyTile.frame (hSets : kernel.SetsKeyTile view keyStart entries before after) :
    kernel.Frame view before after where
  queries := by
    rw [hSets.gradQ]
    exact .refl ..
  keys side := by
    refine ⟨(hSets.keys side).size, fun p hp => (hSets.keys side).outside p ?_⟩
    intro j hj col hCol
    rw [Window.rowStart_sub, Nat.add_zero]
    exact hp (keyStart + j) (by omega) col hCol
  biasSize kind := by rw [hSets.biasGrads]
  biases kind p _ := by rw [hSets.biasGrads]
  workspace := by rw [hSets.workspace]
  slots p _ := by rw [hSets.workspace]

omit [Scalar α] [Element ε α] in
theorem Sound.keyTile_fits {state : UnitState α ε kernel.tiles} (hSound : kernel.Sound view state)
    (hKey : keyStart < kernel.shape.numKeys) (side : KeySide) :
    ((side.of view.grads).sub keyStart 0).Fits
      (min kernel.tiles.blockJ (kernel.shape.numKeys - keyStart)) (side.cols kernel.shape)
      (side.of state.memory.grads).size :=
  (hSound.keys side).sub (by omega) (by omega)

theorem SetsKeyTile.queryEntry_eq
    (hSets : kernel.SetsKeyTile view keyStart entries before after) (row col : Nat) :
    kernel.queryEntry view after row col = kernel.queryEntry view before row col := by
  rw [queryEntry, queryEntry, hSets.gradQ, hSets.workspace]

theorem storeResident_spec (hValid : kernel.Valid)
    (hResident : kernel.plan.outputInRegisters = true) {state : UnitState α ε kernel.tiles}
    (hSound : kernel.Sound view state) (hKey : keyStart < kernel.shape.numKeys) :
    ∃ next, kernel.storeResident view keyStart state = .ok next ∧
      next.mask = state.mask ∧ next.scratch = state.scratch ∧
      kernel.SetsKeyTile view keyStart
        (fun side j col => Element.round (1 * (side.register state).entry j col)) state.memory
        next.memory := by
  have hFits := hSound.keyTile_fits hKey
  obtain ⟨⟨⟨gradQ, gradK, gradV⟩, biasGrads, workspace⟩, mask, scratch, accK, accV⟩ := state
  obtain ⟨gradK', hRunK, hUpdateK⟩ := Tile.store_spec (t := accK) 1 .overwrite
    (Nat.min_le_left _ _) (hValid.keyCols_le_blockI hResident .keys) (hFits .keys)
  obtain ⟨gradV', hRunV, hUpdateV⟩ := Tile.store_spec (t := accV) 1 .overwrite
    (Nat.min_le_left _ _) (hValid.keyCols_le_blockI hResident .values) (hFits .values)
  refine ⟨⟨⟨⟨gradQ, gradK', gradV'⟩, biasGrads, workspace⟩, mask, scratch, accK, accV⟩, ?_, rfl, rfl,
    rfl, rfl, rfl, fun side => ?_⟩
  · refine bind_eq_of_ok hRunK ?_
    exact bind_eq_of_ok hRunV rfl
  · cases side with
    | keys => exact hUpdateK
    | values => exact hUpdateV

omit [Scalar α] in
theorem clearKeyTile_spec {state : UnitState α ε kernel.tiles}
    (hSound : kernel.Sound view state) (hKey : keyStart < kernel.shape.numKeys) :
    ∃ next, kernel.clearKeyTile view keyStart state = .ok next ∧
      next.mask = state.mask ∧ next.scratch = state.scratch ∧
      kernel.SetsKeyTile view keyStart (fun _ _ _ => Element.zero (α := α)) state.memory
        next.memory := by
  have hFits := hSound.keyTile_fits hKey
  obtain ⟨⟨⟨gradQ, gradK, gradV⟩, biasGrads, workspace⟩, mask, scratch, accK, accV⟩ := state
  obtain ⟨gradK', hRunK, hUpdateK⟩ := Window.fillRows_spec (Element.zero (α := α)) (hFits .keys)
  obtain ⟨gradV', hRunV, hUpdateV⟩ := Window.fillRows_spec (Element.zero (α := α)) (hFits .values)
  refine ⟨⟨⟨⟨gradQ, gradK', gradV'⟩, biasGrads, workspace⟩, mask, scratch, accK, accV⟩, ?_, rfl, rfl,
    rfl, rfl, rfl, fun side => ?_⟩
  · refine bind_eq_of_ok (a := (gradK', gradV')) ?_ rfl
    refine bind_eq_of_ok hRunK ?_
    exact bind_eq_of_ok hRunV rfl
  · cases side with
    | keys => exact hUpdateK
    | values => exact hUpdateV

/-! ### The key tile -/

/-- With its gradients in registers, a key tile is written once after its query loop. -/
theorem runKeyTile_resident (hValid : kernel.Valid) (hViews : kernel.Views view x)
    (hResident : kernel.plan.outputInRegisters = true) {state : UnitState α ε kernel.tiles}
    (hSound : kernel.Sound view state) (hTileK : ∃ n, keyStart = n * kernel.tiles.blockJ)
    (hKey : keyStart < kernel.shape.numKeys) :
    ∃ next, kernel.runKeyTile view state keyStart = .ok next ∧ kernel.Sound view next ∧
      kernel.KeyTileEffect view x keyStart state.memory next.memory := by
  obtain ⟨memory, mask, scratch, accK, accV⟩ := state
  have hStart : kernel.Sound view ⟨memory, mask, scratch, .fill 0, .fill 0⟩ :=
    hSound.of_frame (.refl ..) hSound.mask hSound.phase
  obtain ⟨loaded, last, hRun, hLast, hMemory, hLoadedK, hLoadedV, hSteps⟩ :=
    runQueries_steps hValid hViews hStart hTileK hKey
  obtain ⟨next, hStore, hMask, hScratch, hSets⟩ := storeResident_spec hValid hResident hLast hKey
  have hFrame := frame_of_steps hSteps
  rw [hMemory] at hFrame
  refine ⟨next, ?_, hLast.of_frame hSets.frame (hMask ▸ hLast.mask) (hScratch ▸ hLast.phase), ?_, ?_,
    ?_, hFrame.trans hSets.frame⟩
  · rw [runKeyTile, if_pos hResident, hRun, ok_bind, hStore]
  · intro row hRow col hCol
    rw [hSets.queryEntry_eq, query_of_steps hValid hSteps hRow hCol, hMemory]
  · intro side row hRow col hCol
    rw [hSets.target hValid hTileK (hLast.keys side) hRow hCol]
    by_cases hTile : tileOf kernel.tiles.blockJ row = keyStart
    · have hZero : (side.register loaded).entry (row % kernel.tiles.blockJ) col = 0 := by
        have hIn := hValid.keyCols_le_blockI hResident side
        rw [Tile.entry_of_lt _ (Nat.mod_lt row hValid.blockJ) (by omega)]
        cases side with
        | keys =>
            rw [KeySide.register, hLoadedK]
            exact Tile.get_fill 0 _ _
        | values =>
            rw [KeySide.register, hLoadedV]
            exact Tile.get_fill 0 _ _
      rw [if_pos hTile, if_pos hTile, resident_of_steps hResident hSteps side hRow hCol hTile,
        hZero, keyResult, hResident]
      rfl
    · rw [if_neg hTile, if_neg hTile, otherKey_of_steps hSteps side hRow hCol hTile, hMemory]
  · intro kind query hQuery key hKeyRow
    rw [hSets.biasGrads, bias_of_steps hValid hTileK hSteps kind hQuery hKeyRow, hMemory]

/-- A key tile whose gradients are not in registers goes through its query loop, or is cleared if
it attends to no query. -/
theorem runKeyTile_stored (hValid : kernel.Valid) (hViews : kernel.Views view x)
    (hStored : kernel.plan.outputInRegisters = false) {state : UnitState α ε kernel.tiles}
    (hSound : kernel.Sound view state) (hTileK : ∃ n, keyStart = n * kernel.tiles.blockJ)
    (hKey : keyStart < kernel.shape.numKeys) :
    ∃ next, kernel.runKeyTile view state keyStart = .ok next ∧ kernel.Sound view next ∧
      kernel.KeyTileEffect view x keyStart state.memory next.memory := by
  have hRun : kernel.runKeyTile view state keyStart =
      if kernel.shape.numQueries ≤ kernel.firstQuery keyStart then
        kernel.clearKeyTile view keyStart state
      else kernel.runQueries view keyStart state := by
    rw [runKeyTile, hStored, if_neg Bool.false_ne_true]
  rw [hRun]
  by_cases hReach : kernel.firstQuery keyStart < kernel.shape.numQueries
  · rw [if_neg (by omega)]
    obtain ⟨loaded, next, hRun, hNext, hMemory, -, -, hSteps⟩ :=
      runQueries_steps hValid hViews hSound hTileK hKey
    have hFrame := frame_of_steps hSteps
    rw [hMemory] at hFrame
    refine ⟨next, hRun, hNext, ?_, ?_, ?_, hFrame⟩
    · intro row hRow col hCol
      rw [query_of_steps hValid hSteps hRow hCol, hMemory]
    · intro side row hRow col hCol
      by_cases hTile : tileOf kernel.tiles.blockJ row = keyStart
      · rw [if_pos hTile, stored_of_steps hValid hStored hReach hSteps side hRow hCol hTile]
      · rw [if_neg hTile, otherKey_of_steps hSteps side hRow hCol hTile, hMemory]
    · intro kind query hQuery key hKeyRow
      rw [bias_of_steps hValid hTileK hSteps kind hQuery hKeyRow, hMemory]
  · rw [if_pos (by omega)]
    have hNone := queryStarts_eq_nil hValid hReach
    obtain ⟨next, hRun, hMask, hScratch, hSets⟩ := clearKeyTile_spec hSound hKey
    refine ⟨next, hRun, hSound.of_frame hSets.frame (hMask ▸ hSound.mask) (hScratch ▸ hSound.phase),
      ?_, ?_, ?_, hSets.frame⟩
    · intro row hRow col hCol
      have := tileOf_le kernel.tiles.blockI row
      rw [hSets.queryEntry_eq, if_neg (by omega)]
    · intro side row hRow col hCol
      rw [hSets.target hValid hTileK (hSound.keys side) hRow hCol]
      by_cases hTile : tileOf kernel.tiles.blockJ row = keyStart
      · rw [if_pos hTile, if_pos hTile, keyResult, hStored, keyAdds, hTile, hNone]
        rfl
      · rw [if_neg hTile, if_neg hTile]
    · intro kind query hQuery key hKeyRow
      rw [hSets.biasGrads]
      by_cases hTile : tileOf kernel.tiles.blockJ key = keyStart
      · rw [if_pos hTile, biasShares, hTile, hNone]
        simp
      · rw [if_neg hTile]

/-- One key tile never faults, and its effect is known. -/
theorem runKeyTile_spec (hValid : kernel.Valid) (hViews : kernel.Views view x)
    {state : UnitState α ε kernel.tiles} (hSound : kernel.Sound view state)
    (hTileK : ∃ n, keyStart = n * kernel.tiles.blockJ) (hKey : keyStart < kernel.shape.numKeys) :
    ∃ next, kernel.runKeyTile view state keyStart = .ok next ∧ kernel.Sound view next ∧
      kernel.KeyTileEffect view x keyStart state.memory next.memory := by
  cases hResident : kernel.plan.outputInRegisters with
  | true => exact runKeyTile_resident hValid hViews hResident hSound hTileK hKey
  | false => exact runKeyTile_stored hValid hViews hResident hSound hTileK hKey

end Kernel

end FusedAttention
