import FusedAttention.Proofs.Interleavings
import FusedAttention.Proofs.Launches
import FusedAttention.Proofs.Workspaces

/-! Which cells of a launch's memory belong to which unit. A unit changes its own cells alone, and
what it leaves in them depends on what they held alone. Units of different groups have no cell in
common, so they commute. -/
namespace FusedAttention

variable {α ε : Type}

/-! ### Cells -/

/-- A place in the memory of a launch. -/
inductive Cell where
  | gradQ (place : Nat)
  | keyGrad (side : KeySide) (place : Nat)
  | delta (place : Nat)
  | biasGrad (kind : BiasKind) (place : Nat)
  | workspace (place : Nat)

namespace Memory

/-- What a cell holds, an element or a number of the wide arithmetic. There is nothing in a cell past
the end of its buffer. -/
def at? (memory : Memory α ε) : Cell → Option (ε ⊕ α)
  | .gradQ p => memory.grads.gradQ[p]?.map .inl
  | .keyGrad side p => (side.of memory.grads)[p]?.map .inl
  | .delta p => memory.delta[p]?.map .inr
  | .biasGrad kind p => (memory.biasGrads.at? kind p).map .inr
  | .workspace p => (memory.workspace.bind (·[p]?)).map .inr

/-- Two memories hold the same in some cells. -/
def AgreeOn (cells : Cell → Prop) (memory memory' : Memory α ε) : Prop :=
  ∀ cell, cells cell → memory.at? cell = memory'.at? cell

namespace AgreeOn

variable {cells : Cell → Prop} {memory memory' memory'' : Memory α ε}

theorem symm (h : AgreeOn cells memory memory') : AgreeOn cells memory' memory :=
  fun cell hCell => (h cell hCell).symm

theorem trans (h : AgreeOn cells memory memory') (h' : AgreeOn cells memory' memory'') :
    AgreeOn cells memory memory'' :=
  fun cell hCell => (h cell hCell).trans (h' cell hCell)

theorem mono {fewer : Cell → Prop} (h : AgreeOn cells memory memory')
    (hFewer : ∀ cell, fewer cell → cells cell) : AgreeOn fewer memory memory' :=
  fun cell hCell => h cell (hFewer cell hCell)

end AgreeOn

/-- A buffer that need not be there is known from its length and its elements. -/
theorem eq_of_places {τ : Type} {buffer buffer' : Option (Array τ)}
    (hSize : buffer.map (·.size) = buffer'.map (·.size))
    (hPlaces : ∀ p : Nat, (buffer.bind fun data => data[p]?) = buffer'.bind fun data => data[p]?) :
    buffer = buffer' := by
  cases buffer' with
  | none => exact Option.map_eq_none_iff.mp hSize
  | some data' =>
      obtain ⟨data, rfl, -⟩ := Option.map_eq_some_iff.mp hSize
      exact congrArg some (Array.ext_getElem? hPlaces)

/-- A memory is known from its cells and the lengths of what need not be there. -/
theorem eq_of_cells {memory memory' : Memory α ε} (hCells : ∀ cell, memory.at? cell = memory'.at? cell)
    (hBiases : ∀ kind, (memory.biasGrads.get kind).map (·.size) =
      (memory'.biasGrads.get kind).map (·.size))
    (hWorkspace : memory.workspace.map (·.size) = memory'.workspace.map (·.size)) :
    memory = memory' := by
  have hLeft := Option.map_injective (Sum.inl_injective (α := ε) (β := α))
  have hRight := Option.map_injective (Sum.inr_injective (α := ε) (β := α))
  have hGrads : memory.grads = memory'.grads :=
    KeySide.gradients_ext (Array.ext_getElem? fun p => hLeft (hCells (.gradQ p)))
      fun side => Array.ext_getElem? fun p => hLeft (hCells (.keyGrad side p))
  have hDelta : memory.delta = memory'.delta :=
    Array.ext_getElem? fun p => hRight (hCells (.delta p))
  have hBias : ∀ kind, memory.biasGrads.get kind = memory'.biasGrads.get kind := fun kind =>
    eq_of_places (hBiases kind) fun p => hRight (hCells (.biasGrad kind p))
  have hSlots : memory.workspace = memory'.workspace :=
    eq_of_places hWorkspace fun p => hRight (hCells (.workspace p))
  obtain ⟨grads, delta, ⟨keyMask, pairBias⟩, workspace⟩ := memory
  obtain ⟨grads', delta', ⟨keyMask', pairBias'⟩, workspace'⟩ := memory'
  obtain rfl : grads = grads' := hGrads
  obtain rfl : delta = delta' := hDelta
  obtain rfl : keyMask = keyMask' := hBias .keyMask
  obtain rfl : pairBias = pairBias' := hBias .pairBias
  obtain rfl : workspace = workspace' := hSlots
  rfl

end Memory

namespace Kernel

/-- The cells of a unit: its rows of the gradients, its row of Delta and its slice of the workspace,
which have the same number, and the entries that it meets of the bias gradients that are wanted. -/
def Owned (kernel : Kernel α ε) (wanted : Biases Bool) (u : UnitCoord) : Cell → Prop
  | .gradQ p => ∃ row < kernel.shape.numQueries, ∃ col < kernel.shape.headDim,
      p = kernel.request.gradLayouts.gradQ.address u row col
  | .keyGrad side p => ∃ row < kernel.shape.numKeys, ∃ col < side.cols kernel.shape,
      p = (side.of kernel.request.gradLayouts).address u row col
  | .delta p => ∃ query < kernel.shape.numQueries,
      p = u.index kernel.shape.heads * kernel.shape.numQueries + query
  | .biasGrad kind p => wanted.get kind = true ∧ ∃ query < kernel.shape.numQueries,
      ∃ key < kernel.shape.numKeys, p = kind.address kernel.shape u query key
  | .workspace p => ∃ place < kernel.workspace.unitStride,
      p = u.index kernel.shape.heads * kernel.workspace.unitStride + place

/-- A memory in which a launch with these bias gradients may run. -/
structure Prepared (kernel : Kernel α ε) (wanted : Biases Bool) (memory : Memory α ε) : Prop where
  holds : kernel.Holds memory
  wanted : ∀ kind, wanted.get kind = (memory.biasGrads.get kind).isSome

variable {kernel : Kernel α ε} {wanted : Biases Bool} {u u' : UnitCoord}
  {memory memory' next next' : Memory α ε}

theorem Prepared.of_keeps (hPrepared : kernel.Prepared wanted memory)
    (hKeeps : kernel.Keeps memory next) : kernel.Prepared wanted next where
  holds := hPrepared.holds.of_keeps hKeeps
  wanted kind := by
    have h := congrArg Option.isSome (hKeeps.biasSize kind)
    rw [Option.isSome_map, Option.isSome_map] at h
    rw [hPrepared.wanted, h]

/-- Units of different groups have no cell in common. -/
theorem Holds.owned_apart (hHolds : kernel.Holds memory) (hu : kernel.shape.HasUnit u)
    (hu' : kernel.shape.HasUnit u')
    (hOther : kernel.shape.groupKey wanted u ≠ kernel.shape.groupKey wanted u') {cell : Cell}
    (hOwned : kernel.Owned wanted u cell) : ¬ kernel.Owned wanted u' cell := by
  have hDistinct : u ≠ u' := fun h => hOther (congrArg _ h)
  have hNumber : u.index kernel.shape.heads ≠ u'.index kernel.shape.heads :=
    mt (Shape.index_inj hu hu') hDistinct
  intro hOwned'
  cases cell with
  | gradQ p =>
      obtain ⟨row, hRow, col, hCol, rfl⟩ := hOwned
      obtain ⟨row', hRow', col', hCol', hSame⟩ := hOwned'
      exact hDistinct (Layout.address_inj hHolds.gradQ.2 hu hu' hRow hRow' hCol hCol' hSame).1
  | keyGrad side p =>
      obtain ⟨row, hRow, col, hCol, rfl⟩ := hOwned
      obtain ⟨row', hRow', col', hCol', hSame⟩ := hOwned'
      exact hDistinct
        (Layout.address_inj (hHolds.keyGrads side).2 hu hu' hRow hRow' hCol hCol' hSame).1
  | delta p =>
      obtain ⟨query, hQuery, rfl⟩ := hOwned
      obtain ⟨query', hQuery', hSame⟩ := hOwned'
      have := run_apart kernel.shape.numQueries hNumber
      omega
  | biasGrad kind p =>
      obtain ⟨hWanted, query, hQuery, key, hKey, rfl⟩ := hOwned
      obtain ⟨-, query', hQuery', key', hKey', hSame⟩ := hOwned'
      have hPart := (BiasKind.address_eq_iff hu.2 hu'.2 hQuery hQuery' hKey hKey').mp hSame
      exact hOther (BiasKind.groupKey_eq hWanted hPart.1)
  | workspace p =>
      obtain ⟨place, hPlace, rfl⟩ := hOwned
      obtain ⟨place', hPlace', hSame⟩ := hOwned'
      have := run_apart kernel.workspace.unitStride hNumber
      omega

/-- A slot of a slice is one of the workspace. -/
theorem slice_place (kernel : Kernel α ε) (u : UnitCoord) (workspace : Option (Array α)) {place : Nat}
    (hPlace : place < kernel.workspace.unitStride) :
    ((kernel.slice u workspace).bind fun data => data[place]?) = workspace.bind fun data =>
      data[u.index kernel.shape.heads * kernel.workspace.unitStride + place]? := by
  have hSome : ¬ kernel.workspace.isEmpty = true := by
    rw [WorkspaceLayout.isEmpty, decide_eq_true_eq]
    omega
  cases workspace with
  | none => rfl
  | some buffer =>
      rw [slice, Option.bind_some, if_neg hSome, Option.bind_some, Option.bind_some,
        Array.getElem?_extract]
      by_cases hEnd : u.index kernel.shape.heads * kernel.workspace.unitStride + place < buffer.size
      · rw [if_pos (by omega)]
      · rw [if_neg (by omega), Array.getElem?_eq_none (by omega)]

/-- Memories that agree on the cells of a unit have the same slice for it. -/
theorem slice_eq_of_agree (hHolds : kernel.Holds memory) (hHolds' : kernel.Holds memory')
    (hu : kernel.shape.HasUnit u) (hAgree : memory.AgreeOn (kernel.Owned wanted u) memory') :
    kernel.slice u memory.workspace = kernel.slice u memory'.workspace := by
  have hSlice := slice_spec hHolds.workspace hu
  have hSlice' := slice_spec hHolds'.workspace hu
  refine Memory.eq_of_places (hSlice.trans hSlice'.symm) fun place => ?_
  by_cases hPlace : place < kernel.workspace.unitStride
  · rw [slice_place kernel u _ hPlace, slice_place kernel u _ hPlace]
    exact Option.map_injective Sum.inr_injective (hAgree (.workspace _) ⟨place, hPlace, rfl⟩)
  · have hNone : ∀ values : Option (Array α), kernel.Slice values →
        (values.bind fun data => data[place]?) = none := by
      intro values hValues
      cases values with
      | none => rfl
      | some run =>
          have hRun := hValues.size_eq run rfl
          exact Array.getElem?_eq_none (by omega)
    rw [hNone _ hSlice, hNone _ hSlice']

variable [Scalar α] [Element ε α]

/-! ### Units -/

/-- A unit changes its own cells alone. -/
theorem runOn_frame (hValid : kernel.Valid) (hReads : kernel.Reads u)
    (hPrepared : kernel.Prepared wanted memory) (hRun : kernel.runOn memory u = .ok next) :
    next.AgreeOn (fun cell => ¬ kernel.Owned wanted u cell) memory := by
  have hHolds := hPrepared.holds
  have hu := hReads.hasUnit
  obtain ⟨row, after, hRun', hUnit⟩ := runOn_eq hValid hReads hHolds
  obtain rfl : kernel.putUnit u memory row after = next := Except.ok.inj (hRun'.symm.trans hRun)
  intro cell hOutside
  cases cell with
  | gradQ p =>
      refine congrArg (Option.map Sum.inl) (hUnit.gradQ_frame ?_)
      intro query hQuery col hCol hSame
      exact hOutside ⟨query, hQuery, col, hCol, hSame⟩
  | keyGrad side p =>
      refine congrArg (Option.map Sum.inl) (hUnit.keyGrads_frame side ?_)
      intro key hKey col hCol hSame
      exact hOutside ⟨key, hKey, col, hCol, hSame⟩
  | delta p =>
      refine congrArg (Option.map Sum.inr) ((hUnit.delta_at hHolds hu p).trans (if_neg ?_))
      intro hInside
      exact hOutside ⟨p - u.index kernel.shape.heads * kernel.shape.numQueries, by omega, by omega⟩
  | biasGrad kind p =>
      refine congrArg (Option.map Sum.inr) ?_
      by_cases hWanted : wanted.get kind = true
      · refine hUnit.biasGrads_frame kind ?_
        intro query hQuery key hKey hSame
        exact hOutside ⟨hWanted, query, hQuery, key, hKey, hSame⟩
      · rw [hPrepared.wanted, Bool.not_eq_true, Option.isSome_eq_false_iff, Option.isNone_iff_eq_none]
          at hWanted
        have hSize := (hUnit.keeps hHolds hu).biasSize kind
        have hNone : after.biasGrads.get kind = none := by
          rw [hWanted] at hSize
          exact Option.map_eq_none_iff.mp hSize
        show after.biasGrads.at? kind p = memory.biasGrads.at? kind p
        rw [Biases.at?, Biases.at?, hWanted, hNone]
  | workspace p =>
      have hValues := hUnit.slice hHolds hu
      refine congrArg (Option.map Sum.inr) ?_
      show ((kernel.putSlice u memory.workspace after.workspace).bind fun data => data[p]?) =
        memory.workspace.bind fun data => data[p]?
      rcases putSlice_cases hHolds.workspace hu hValues with
        ⟨-, -, hPut⟩ | ⟨buffer, run, -, hBuffer, -, hRunSize, hEnd, hPut⟩
      · rw [hPut]
      · rw [hPut, hBuffer]
        refine (getElem?_writeRun (by omega) p).trans (if_neg ?_)
        intro hInside
        exact hOutside ⟨p - u.index kernel.shape.heads * kernel.workspace.unitStride, by omega,
          by omega⟩

/-- What a unit leaves in its slice depends on what the slice held alone. -/
theorem slice_runOn (hValid : kernel.Valid) (hReads : kernel.Reads u) (hHolds : kernel.Holds memory)
    (hHolds' : kernel.Holds memory') (hRun : kernel.runOn memory u = .ok next)
    (hRun' : kernel.runOn memory' u = .ok next')
    (hSlice : kernel.slice u memory.workspace = kernel.slice u memory'.workspace) :
    kernel.slice u next.workspace = kernel.slice u next'.workspace := by
  have hu := hReads.hasUnit
  obtain ⟨row, after, hOk, hUnit⟩ := runOn_eq hValid hReads hHolds
  obtain rfl := Except.ok.inj (hOk.symm.trans hRun)
  obtain ⟨row', after', hOk', hUnit'⟩ := runOn_eq hValid hReads hHolds'
  obtain rfl := Except.ok.inj (hOk'.symm.trans hRun')
  calc kernel.slice u (kernel.putUnit u memory row after).workspace
    _ = after.workspace := slice_putSlice hHolds.workspace hu (hUnit.slice hHolds hu)
    _ = after'.workspace := runUnit_inStep hValid hReads (size_deltaRow hu hHolds.delta)
        (size_deltaRow hu hHolds'.delta) hSlice _ _ hUnit.returns hUnit'.returns
    _ = kernel.slice u (kernel.putUnit u memory' row' after').workspace :=
        (slice_putSlice hHolds'.workspace hu (hUnit'.slice hHolds' hu)).symm

/-- What a unit leaves in its own cells depends on what they held alone. -/
theorem runOn_local (hValid : kernel.Valid) (hReads : kernel.Reads u) (hHolds : kernel.Holds memory)
    (hHolds' : kernel.Holds memory') (hRun : kernel.runOn memory u = .ok next)
    (hRun' : kernel.runOn memory' u = .ok next')
    (hAgree : memory.AgreeOn (kernel.Owned wanted u) memory') :
    next.AgreeOn (kernel.Owned wanted u) next' := by
  have hu := hReads.hasUnit
  have hSlice := slice_eq_of_agree hHolds hHolds' hu hAgree
  have hSliceAfter := slice_runOn hValid hReads hHolds hHolds' hRun hRun' hSlice
  obtain ⟨result, hOk, hNext, hStep⟩ := runOn_spec hValid hReads hHolds
  obtain rfl : next = result := Except.ok.inj (hRun.symm.trans hOk)
  obtain ⟨result', hOk', hNext', hStep'⟩ := runOn_spec hValid hReads hHolds'
  obtain rfl : next' = result' := Except.ok.inj (hRun'.symm.trans hOk')
  intro cell hOwned
  cases cell with
  | gradQ p =>
      have hTarget := Option.map_injective Sum.inl_injective (hAgree _ hOwned)
      obtain ⟨row, hRow, col, hCol, rfl⟩ := hOwned
      have hEntry : kernel.gradQEntry memory u row col = kernel.gradQEntry memory' u row col :=
        ChunkState.entry_congr hTarget (by rw [ChunkState.slots, ChunkState.slots, hSlice])
      have hAfter : kernel.gradQEntry next u row col = kernel.gradQEntry next' u row col := by
        rw [hStep.gradQ u hu row hRow col hCol, hStep'.gradQ u hu row hRow col hCol, if_pos rfl,
          if_pos rfl, hEntry]
      refine congrArg (Option.map Sum.inl) ?_
      rw [hNext.gradQ_at hu hRow hCol, hNext'.gradQ_at hu hRow hCol, hAfter]
  | keyGrad side p =>
      obtain ⟨key, hKey, col, hCol, rfl⟩ := hOwned
      refine congrArg (Option.map Sum.inl) ?_
      rw [hStep.keyGrads side u hu key hKey col hCol, hStep'.keyGrads side u hu key hKey col hCol,
        if_pos rfl, if_pos rfl]
  | delta p =>
      obtain ⟨query, hQuery, rfl⟩ := hOwned
      refine congrArg (Option.map Sum.inr) ?_
      rw [hStep.delta u hu query hQuery, hStep'.delta u hu query hQuery, if_pos rfl, if_pos rfl]
  | biasGrad kind p =>
      have hBefore := Option.map_injective Sum.inr_injective (hAgree _ hOwned)
      obtain ⟨-, query, hQuery, key, hKey, rfl⟩ := hOwned
      refine congrArg (Option.map Sum.inr) ?_
      rw [hStep.biasGrads kind u hu query hQuery key hKey,
        hStep'.biasGrads kind u hu query hQuery key hKey, if_pos rfl, if_pos rfl, hBefore]
  | workspace p =>
      obtain ⟨place, hPlace, rfl⟩ := hOwned
      refine congrArg (Option.map Sum.inr) ?_
      rw [← slice_place kernel u _ hPlace, ← slice_place kernel u _ hPlace, hSliceAfter]

/-- Units of different groups commute: neither changes a cell of the other, and no cell has what it
holds from both. -/
theorem commutes_runOn (hValid : kernel.Valid) (hReads : kernel.Reads u) (hReads' : kernel.Reads u')
    (hOther : kernel.shape.groupKey wanted u ≠ kernel.shape.groupKey wanted u') :
    Commutes (kernel.Prepared wanted) kernel.runOn u u' := by
  intro memory hPrepared
  have hu := hReads.hasUnit
  have hu' := hReads'.hasUnit
  have hApart : ∀ cell, kernel.Owned wanted u cell → ¬ kernel.Owned wanted u' cell :=
    fun _ => hPrepared.holds.owned_apart hu hu' hOther
  have hApart' : ∀ cell, kernel.Owned wanted u' cell → ¬ kernel.Owned wanted u cell :=
    fun _ => hPrepared.holds.owned_apart hu' hu (Ne.symm hOther)
  obtain ⟨first, hFirst, -, hStep⟩ := runOn_spec hValid hReads hPrepared.holds
  obtain ⟨second, hSecond, -, hStep'⟩ := runOn_spec hValid hReads' hPrepared.holds
  have hReady := hPrepared.of_keeps hStep.keeps
  have hReady' := hPrepared.of_keeps hStep'.keeps
  obtain ⟨forth, hForth, -, hForthStep⟩ := runOn_spec hValid hReads' hReady.holds
  obtain ⟨back, hBack, -, hBackStep⟩ := runOn_spec hValid hReads hReady'.holds
  have hFrame := runOn_frame hValid hReads hPrepared hFirst
  have hFrame' := runOn_frame hValid hReads' hPrepared hSecond
  have hForthFrame := runOn_frame hValid hReads' hReady hForth
  have hBackFrame := runOn_frame hValid hReads hReady' hBack
  have hForthLocal := runOn_local hValid hReads' hReady.holds hPrepared.holds hForth hSecond
    (hFrame.mono hApart')
  have hBackLocal := runOn_local hValid hReads hReady'.holds hPrepared.holds hBack hFirst
    (hFrame'.mono hApart)
  have hSame : forth = back := by
    refine Memory.eq_of_cells (fun cell => ?_) (fun kind => ?_) ?_
    · by_cases hOwned : kernel.Owned wanted u cell
      · rw [hForthFrame cell (hApart cell hOwned), hBackLocal cell hOwned]
      · by_cases hOwned' : kernel.Owned wanted u' cell
        · rw [hForthLocal cell hOwned', hBackFrame cell hOwned]
        · rw [hForthFrame cell hOwned', hFrame cell hOwned, hBackFrame cell hOwned,
            hFrame' cell hOwned']
    · rw [hForthStep.keeps.biasSize, hStep.keeps.biasSize, hBackStep.keeps.biasSize,
        hStep'.keeps.biasSize]
    · rw [hForthStep.keeps.workspaceSize, hStep.keeps.workspaceSize, hBackStep.keeps.workspaceSize,
        hStep'.keeps.workspaceSize]
  refine ⟨forth, ?_, ?_⟩
  · rw [hFirst, ok_bind, hForth]
  · rw [hSecond, ok_bind, hBack, hSame]

end Kernel

end FusedAttention
