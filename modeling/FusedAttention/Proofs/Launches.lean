import FusedAttention.Launch
import FusedAttention.Proofs.Grouping
import FusedAttention.Proofs.Layouts
import FusedAttention.Proofs.Units

/-! All units of a launch after each other. Each has its rows of the gradients, its row of Delta
and its slice of the workspace to itself, and adds to entries of the bias gradients that others
add to as well. -/
namespace FusedAttention

variable {α ε : Type}

/-! ### Slices of the workspace -/

namespace Kernel

variable {kernel : Kernel α ε} {u u' : UnitCoord}

/-- The slice of the workspace that belongs to a unit. -/
def slice (kernel : Kernel α ε) (u : UnitCoord) (workspace : Option (Array α)) : Option (Array α) :=
  let start := u.index kernel.shape.heads * kernel.workspace.unitStride
  workspace.bind fun buffer =>
    if kernel.workspace.isEmpty then none
    else some (buffer.extract start (start + kernel.workspace.unitStride))

/-- The workspace with the slice of a unit replaced. -/
def putSlice (kernel : Kernel α ε) (u : UnitCoord) (workspace values : Option (Array α)) :
    Option (Array α) :=
  match workspace, values with
  | some buffer, some values =>
    some (writeRun buffer (u.index kernel.shape.heads * kernel.workspace.unitStride) values)
  | workspace, _ => workspace

section Slices

variable {workspace values : Option (Array α)}

/-- A workspace that is large enough has the slice of every unit. -/
theorem slice_spec (hSize : kernel.shape.units * kernel.workspace.unitStride ≤
      workspace.elim 0 (·.size)) (hu : kernel.shape.HasUnit u) :
    kernel.Slice (kernel.slice u workspace) := by
  have hIndex := Shape.index_lt hu
  cases workspace with
  | none =>
      have hStride : kernel.workspace.unitStride = 0 := by
        rcases Nat.mul_eq_zero.mp (Nat.le_zero.mp hSize) with h | h
        · omega
        · exact h
      have hEmpty : kernel.workspace.isEmpty = true := decide_eq_true hStride
      rw [Slice, if_pos hEmpty]
      rfl
  | some buffer =>
      have hEnd : u.index kernel.shape.heads * kernel.workspace.unitStride +
          kernel.workspace.unitStride ≤ buffer.size := run_within hIndex hSize
      by_cases hEmpty : kernel.workspace.isEmpty = true
      · rw [Slice, slice, Option.bind_some, if_pos hEmpty, if_pos hEmpty, Option.map_none]
      · rw [Slice, slice, Option.bind_some, if_neg hEmpty, if_neg hEmpty, Option.map_some,
          Array.size_extract]
        congr 1
        omega

/-- Only a unit with a slice of the right length is given back. -/
theorem putSlice_cases (hSize : kernel.shape.units * kernel.workspace.unitStride ≤
      workspace.elim 0 (·.size)) (hu : kernel.shape.HasUnit u) (hValues : kernel.Slice values) :
    (kernel.workspace.isEmpty = true ∧ values = none ∧
      kernel.putSlice u workspace values = workspace) ∨
    ∃ buffer run, kernel.workspace.isEmpty = false ∧ workspace = some buffer ∧ values = some run ∧
      run.size = kernel.workspace.unitStride ∧
      u.index kernel.shape.heads * kernel.workspace.unitStride + kernel.workspace.unitStride ≤
        buffer.size ∧
      kernel.putSlice u workspace values = some (writeRun buffer
        (u.index kernel.shape.heads * kernel.workspace.unitStride) run) := by
  cases values with
  | none =>
      refine .inl ⟨?_, rfl, by cases workspace <;> rfl⟩
      by_contra hEmpty
      rw [Slice, if_neg hEmpty] at hValues
      cases hValues
  | some run =>
      have hRun := hValues.size_eq run rfl
      have hEmpty : kernel.workspace.isEmpty = false := by
        rw [Bool.eq_false_iff]
        intro hEmpty
        rw [Slice, if_pos hEmpty] at hValues
        cases hValues
      cases workspace with
      | none =>
          rw [Option.elim_none, Nat.le_zero, Nat.mul_eq_zero] at hSize
          have hIndex := Shape.index_lt hu
          rw [WorkspaceLayout.isEmpty, decide_eq_false_iff_not] at hEmpty
          omega
      | some buffer =>
          exact .inr ⟨buffer, run, hEmpty, rfl, rfl, hRun,
            run_within (Shape.index_lt hu) hSize, rfl⟩

theorem slice_putSlice (hSize : kernel.shape.units * kernel.workspace.unitStride ≤
      workspace.elim 0 (·.size)) (hu : kernel.shape.HasUnit u) (hValues : kernel.Slice values) :
    kernel.slice u (kernel.putSlice u workspace values) = values := by
  rcases putSlice_cases hSize hu hValues with
    ⟨hEmpty, rfl, hPut⟩ | ⟨buffer, run, hEmpty, rfl, rfl, hRun, hEnd, hPut⟩
  · rw [hPut, slice]
    cases workspace with
    | none => rfl
    | some buffer => exact if_pos hEmpty
  · rw [hPut, slice, Option.bind_some, hEmpty, if_neg Bool.false_ne_true,
      extract_writeRun hRun hEnd]

theorem slice_putSlice_other (hSize : kernel.shape.units * kernel.workspace.unitStride ≤
      workspace.elim 0 (·.size)) (hu : kernel.shape.HasUnit u) (hu' : kernel.shape.HasUnit u')
    (hOther : u' ≠ u) (hValues : kernel.Slice values) :
    kernel.slice u' (kernel.putSlice u workspace values) = kernel.slice u' workspace := by
  rcases putSlice_cases hSize hu hValues with
    ⟨hEmpty, rfl, hPut⟩ | ⟨buffer, run, hEmpty, rfl, rfl, hRun, hEnd, hPut⟩
  · rw [hPut]
  · have hApart := run_apart kernel.workspace.unitStride
      (mt (Shape.index_inj hu hu') (Ne.symm hOther))
    rw [hPut, slice, slice, Option.bind_some, Option.bind_some, hEmpty,
      if_neg Bool.false_ne_true, if_neg Bool.false_ne_true,
      extract_writeRun_apart (by omega) (by omega)]

theorem size_putSlice (hSize : kernel.shape.units * kernel.workspace.unitStride ≤
      workspace.elim 0 (·.size)) (hu : kernel.shape.HasUnit u) (hValues : kernel.Slice values) :
    (kernel.putSlice u workspace values).map (·.size) = workspace.map (·.size) := by
  rcases putSlice_cases hSize hu hValues with
    ⟨-, rfl, hPut⟩ | ⟨buffer, run, -, rfl, rfl, hRun, hEnd, hPut⟩
  · rw [hPut]
  · rw [hPut, Option.map_some, Option.map_some, size_writeRun (by omega)]

end Slices

/-! ### One unit -/

variable [Element ε α]

/-- The buffers of a launch hold all rows of all units, without overlaps in the gradients. -/
structure Holds (kernel : Kernel α ε) (memory : Memory α ε) : Prop where
  gradQ : kernel.request.gradLayouts.gradQ.requiredLen kernel.shape.batch kernel.shape.numQueries
      kernel.shape.heads kernel.shape.headDim ≤ memory.grads.gradQ.size ∧
    kernel.request.gradLayouts.gradQ.isInjective kernel.shape.batch kernel.shape.numQueries
      kernel.shape.heads kernel.shape.headDim = true
  keyGrads : ∀ side : KeySide,
    (side.of kernel.request.gradLayouts).requiredLen kernel.shape.batch kernel.shape.numKeys
      kernel.shape.heads (side.cols kernel.shape) ≤ (side.of memory.grads).size ∧
    (side.of kernel.request.gradLayouts).isInjective kernel.shape.batch kernel.shape.numKeys
      kernel.shape.heads (side.cols kernel.shape) = true
  delta : kernel.shape.units * kernel.shape.numQueries ≤ memory.delta.size
  biasGrads : ∀ kind, ∀ grad ∈ memory.biasGrads.get kind,
    (kernel.request.biases.get kind).isSome = true ∧ kind.size kernel.shape ≤ grad.size
  workspace : kernel.shape.units * kernel.workspace.unitStride ≤ memory.workspace.elim 0 (·.size)

/-- What a launch leaves as it is: all sizes, and every element that belongs to no unit. -/
structure Keeps (kernel : Kernel α ε) (before after : Memory α ε) : Prop where
  gradQSize : after.grads.gradQ.size = before.grads.gradQ.size
  gradQ : ∀ p, (∀ u, kernel.shape.HasUnit u → ∀ row < kernel.shape.numQueries,
    ∀ col < kernel.shape.headDim, p ≠ kernel.request.gradLayouts.gradQ.address u row col) →
      after.grads.gradQ[p]? = before.grads.gradQ[p]?
  keySize : ∀ side : KeySide, (side.of after.grads).size = (side.of before.grads).size
  keyGrads : ∀ (side : KeySide) p, (∀ u, kernel.shape.HasUnit u → ∀ row < kernel.shape.numKeys,
    ∀ col < side.cols kernel.shape, p ≠ (side.of kernel.request.gradLayouts).address u row col) →
      (side.of after.grads)[p]? = (side.of before.grads)[p]?
  deltaSize : after.delta.size = before.delta.size
  delta : ∀ p, kernel.shape.units * kernel.shape.numQueries ≤ p → after.delta[p]? = before.delta[p]?
  biasSize : ∀ kind, (after.biasGrads.get kind).map (·.size) =
    (before.biasGrads.get kind).map (·.size)
  biasGrads : ∀ kind p, (∀ u, kernel.shape.HasUnit u → ∀ query < kernel.shape.numQueries,
    ∀ key < kernel.shape.numKeys, p ≠ kind.address kernel.shape u query key) →
      after.biasGrads.at? kind p = before.biasGrads.at? kind p
  workspaceSize : after.workspace.map (·.size) = before.workspace.map (·.size)

variable [Scalar α]

/-- An entry of gradQ with its sum in the slice of its unit. -/
def gradQEntry (kernel : Kernel α ε) (memory : Memory α ε) (u : UnitCoord) (row col : Nat) :
    Entry α ε :=
  (⟨memory.grads.gradQ, kernel.slice u memory.workspace⟩ : ChunkState α ε).entry
    (kernel.request.gradLayouts.gradQ.address u row col) (kernel.querySlot row col)

/-- What one unit does to the memory of the launch. -/
structure UnitStep (kernel : Kernel α ε) (before : Memory α ε) (u : UnitCoord)
    (after : Memory α ε) : Prop where
  gradQ : ∀ u', kernel.shape.HasUnit u' → ∀ row < kernel.shape.numQueries,
    ∀ col < kernel.shape.headDim, kernel.gradQEntry after u' row col =
      if u = u' then
        kernel.queryVisits (kernel.unitValues u) row col (kernel.gradQEntry before u row col)
      else kernel.gradQEntry before u' row col
  keyGrads : ∀ (side : KeySide) u', kernel.shape.HasUnit u' → ∀ row < kernel.shape.numKeys,
    ∀ col < side.cols kernel.shape,
      (side.of after.grads)[(side.of kernel.request.gradLayouts).address u' row col]? =
        if u = u' then some (kernel.keyResult (kernel.unitValues u) side row col)
        else (side.of before.grads)[(side.of kernel.request.gradLayouts).address u' row col]?
  delta : ∀ u', kernel.shape.HasUnit u' → ∀ query < kernel.shape.numQueries,
    after.delta[u'.index kernel.shape.heads * kernel.shape.numQueries + query]? =
      if u = u' then some (kernel.delta u query)
      else before.delta[u'.index kernel.shape.heads * kernel.shape.numQueries + query]?
  biasGrads : ∀ (kind : BiasKind) u', kernel.shape.HasUnit u' → ∀ query < kernel.shape.numQueries,
    ∀ key < kernel.shape.numKeys,
      after.biasGrads.at? kind (kind.address kernel.shape u' query key) =
        if kind.part kernel.shape u = kind.part kernel.shape u' then
          (before.biasGrads.at? kind (kind.address kernel.shape u' query key)).map fun y =>
            (kernel.biasShares (kernel.unitValues u) kind query key).foldl (· + ·) y
        else before.biasGrads.at? kind (kind.address kernel.shape u' query key)
  keeps : kernel.Keeps before after

/-- The memory of the launch as one unit is given it. -/
def unitMemory (kernel : Kernel α ε) (u : UnitCoord) (memory : Memory α ε) : UnitMemory α ε :=
  ⟨memory.grads, memory.biasGrads, kernel.slice u memory.workspace⟩

/-- The row of Delta that belongs to a unit. -/
def deltaRow (kernel : Kernel α ε) (u : UnitCoord) (memory : Memory α ε) : Array α :=
  let start := u.index kernel.shape.heads * kernel.shape.numQueries
  memory.delta.extract start (start + kernel.shape.numQueries)

/-- The memory of the launch with what a unit gives back. -/
def putUnit (kernel : Kernel α ε) (u : UnitCoord) (memory : Memory α ε) (row : Array α)
    (after : UnitMemory α ε) : Memory α ε where
  grads := after.grads
  delta := writeRun memory.delta (u.index kernel.shape.heads * kernel.shape.numQueries) row
  biasGrads := after.biasGrads
  workspace := kernel.putSlice u memory.workspace after.workspace

section OneUnit

variable {memory : Memory α ε} {row : Array α} {after : UnitMemory α ε}

omit [Scalar α] [Element ε α] in
/-- A unit whose rows can be read is one of the launch. -/
theorem Reads.hasUnit (hReads : kernel.Reads u) : kernel.shape.HasUnit u :=
  ⟨hReads.batch, hReads.head⟩

omit [Scalar α] [Element ε α] in
theorem Holds.owns (hHolds : kernel.Holds memory) (hu : kernel.shape.HasUnit u) :
    kernel.Owns u (kernel.unitMemory u memory) where
  queries := Layout.unitWindow_fits hHolds.gradQ.1 hHolds.gradQ.2 hu
  keys side := Layout.unitWindow_fits (hHolds.keyGrads side).1 (hHolds.keyGrads side).2 hu
  biasGrads := hHolds.biasGrads
  workspace := slice_spec hHolds.workspace hu

/-- Every entry of gradQ is there. -/
theorem Holds.gradQ_at (hHolds : kernel.Holds memory) (hu : kernel.shape.HasUnit u) {row col : Nat}
    (hRow : row < kernel.shape.numQueries) (hCol : col < kernel.shape.headDim) :
    memory.grads.gradQ[kernel.request.gradLayouts.gradQ.address u row col]? =
      some (kernel.gradQEntry memory u row col).target := by
  have hWithin := (hHolds.owns hu).queries.within row hRow
  refine getElem?_eq_some_getD ?_
  rw [← Layout.rowStart_unitWindow]
  exact Nat.lt_of_lt_of_le (Nat.add_lt_add_left hCol _) hWithin

/-- One run of a unit in the memory of a launch, on its row of Delta and its slice of the workspace:
the row and the memory that it gives back, and its effect on them. -/
structure UnitRun (kernel : Kernel α ε) (memory : Memory α ε) (u : UnitCoord) (row : Array α)
    (after : UnitMemory α ε) : Prop where
  returns : kernel.runUnit u (kernel.deltaRow u memory) (kernel.unitMemory u memory) = .ok (row, after)
  rowSize : row.size = kernel.shape.numQueries
  row : ∀ query < kernel.shape.numQueries, row[query]? = some (kernel.delta u query)
  effect : ∃ view : UnitView α, view.coord = u ∧
    view.grads = kernel.request.gradLayouts.map (·.unitWindow u) ∧
    kernel.UnitEffect view (kernel.unitValues u) (kernel.unitMemory u memory) after

namespace UnitRun

/-- A unit gives back a slice of the length that it was given. -/
theorem slice (hUnit : kernel.UnitRun memory u row after) (hHolds : kernel.Holds memory)
    (hu : kernel.shape.HasUnit u) : kernel.Slice after.workspace := by
  obtain ⟨view, -, -, hEffect⟩ := hUnit.effect
  exact hEffect.frame.workspace.trans (slice_spec hHolds.workspace hu)

/-- A unit leaves the elements of gradQ that lie in no row of its queries. -/
theorem gradQ_frame (hUnit : kernel.UnitRun memory u row after) {p : Nat}
    (hp : ∀ query < kernel.shape.numQueries, ∀ col < kernel.shape.headDim,
      p ≠ kernel.request.gradLayouts.gradQ.address u query col) :
    after.grads.gradQ[p]? = memory.grads.gradQ[p]? := by
  obtain ⟨view, -, hGrads, hEffect⟩ := hUnit.effect
  refine hEffect.frame.queries.same p ?_
  rw [hGrads]
  exact hp

/-- A unit leaves the elements of gradK and gradV that lie in no row of its keys. -/
theorem keyGrads_frame (hUnit : kernel.UnitRun memory u row after) (side : KeySide) {p : Nat}
    (hp : ∀ key < kernel.shape.numKeys, ∀ col < side.cols kernel.shape,
      p ≠ (side.of kernel.request.gradLayouts).address u key col) :
    (side.of after.grads)[p]? = (side.of memory.grads)[p]? := by
  obtain ⟨view, -, hGrads, hEffect⟩ := hUnit.effect
  refine (hEffect.frame.keys side).same p ?_
  rw [hGrads, KeySide.of_map]
  exact hp

/-- A unit leaves the entries of the bias gradients that none of its pairs meets. -/
theorem biasGrads_frame (hUnit : kernel.UnitRun memory u row after) (kind : BiasKind) {p : Nat}
    (hp : ∀ query < kernel.shape.numQueries, ∀ key < kernel.shape.numKeys,
      p ≠ kind.address kernel.shape u query key) :
    after.biasGrads.at? kind p = memory.biasGrads.at? kind p := by
  obtain ⟨view, rfl, -, hEffect⟩ := hUnit.effect
  exact hEffect.frame.biases kind p hp

/-- Delta holds the row of the unit where it belongs, and is as it was everywhere else. -/
theorem delta_at (hUnit : kernel.UnitRun memory u row after) (hHolds : kernel.Holds memory)
    (hu : kernel.shape.HasUnit u) (p : Nat) :
    (kernel.putUnit u memory row after).delta[p]? =
      if u.index kernel.shape.heads * kernel.shape.numQueries ≤ p ∧
          p < u.index kernel.shape.heads * kernel.shape.numQueries + kernel.shape.numQueries then
        row[p - u.index kernel.shape.heads * kernel.shape.numQueries]?
      else memory.delta[p]? := by
  have hEnd := run_within (Shape.index_lt hu) hHolds.delta
  have hRowSize := hUnit.rowSize
  refine (getElem?_writeRun (by omega) p).trans ?_
  rw [hRowSize]

theorem keeps (hUnit : kernel.UnitRun memory u row after) (hHolds : kernel.Holds memory)
    (hu : kernel.shape.HasUnit u) : kernel.Keeps memory (kernel.putUnit u memory row after) := by
  obtain ⟨view, -, -, hEffect⟩ := hUnit.effect
  exact {
    gradQSize := hEffect.frame.queries.size
    gradQ := fun p hp => hUnit.gradQ_frame (hp u hu)
    keySize := fun side => (hEffect.frame.keys side).size
    keyGrads := fun side p hp => hUnit.keyGrads_frame side (hp u hu)
    deltaSize := by
      have hEnd := run_within (Shape.index_lt hu) hHolds.delta
      have hRowSize := hUnit.rowSize
      exact size_writeRun (by omega)
    delta := by
      intro p hp
      have hUnits := run_within (Shape.index_lt hu) (Nat.le_refl
        (kernel.shape.units * kernel.shape.numQueries))
      exact (hUnit.delta_at hHolds hu p).trans (if_neg (by omega))
    biasSize := hEffect.frame.biasSize
    biasGrads := fun kind p hp => hUnit.biasGrads_frame kind (hp u hu)
    workspaceSize := size_putSlice hHolds.workspace hu (hUnit.slice hHolds hu) }

/-- What a unit did to its own memory makes its step in the memory of the launch. -/
theorem step (hUnit : kernel.UnitRun memory u row after) (hHolds : kernel.Holds memory)
    (hu : kernel.shape.HasUnit u) :
    kernel.UnitStep memory u (kernel.putUnit u memory row after) where
  gradQ := by
    intro u' hu' query hQuery col hCol
    have hValues := hUnit.slice hHolds hu
    by_cases hSame : u = u'
    · subst hSame
      obtain ⟨view, -, hGrads, hEffect⟩ := hUnit.effect
      have h := hEffect.query query hQuery col hCol
      rw [queryEntry, queryEntry, hGrads] at h
      rw [if_pos rfl, gradQEntry, putUnit]
      dsimp only
      rw [slice_putSlice hHolds.workspace hu hValues]
      exact h
    · rw [if_neg hSame]
      refine ChunkState.entry_congr (hUnit.gradQ_frame ?_) ?_
      · intro query' hQuery' col' hCol' h
        exact hSame (Layout.address_inj hHolds.gradQ.2 hu' hu hQuery hQuery' hCol hCol' h).1.symm
      · rw [ChunkState.slots, ChunkState.slots, putUnit]
        dsimp only
        rw [slice_putSlice_other hHolds.workspace hu hu' (Ne.symm hSame) hValues]
  keyGrads := by
    intro side u' hu' key hKey col hCol
    by_cases hSame : u = u'
    · subst hSame
      obtain ⟨view, -, hGrads, hEffect⟩ := hUnit.effect
      have hPlace := ((hHolds.owns hu).keys side).within key hKey
      have hSize : (side.of kernel.request.gradLayouts).address u key col <
          (side.of after.grads).size := by
        rw [(hEffect.frame.keys side).size, ← Layout.rowStart_unitWindow]
        omega
      have h := hEffect.key side key hKey col hCol
      rw [keyEntry, hGrads, KeySide.of_map] at h
      rw [if_pos rfl, ← h]
      exact getElem?_eq_some_getD hSize
    · rw [if_neg hSame]
      refine hUnit.keyGrads_frame side ?_
      intro key' hKey' col' hCol' h
      exact hSame
        (Layout.address_inj (hHolds.keyGrads side).2 hu' hu hKey hKey' hCol hCol' h).1.symm
  delta := by
    intro u' hu' query hQuery
    refine (hUnit.delta_at hHolds hu _).trans ?_
    by_cases hSame : u = u'
    · subst hSame
      rw [if_pos (by omega), if_pos rfl, Nat.add_sub_cancel_left, hUnit.row query hQuery]
    · have hApart := run_apart kernel.shape.numQueries (mt (Shape.index_inj hu hu') hSame)
      rw [if_neg (by omega), if_neg hSame]
  biasGrads := by
    intro kind u' hu' query hQuery key hKey
    have hAddress : ∀ query', query' < kernel.shape.numQueries → ∀ key' < kernel.shape.numKeys,
        kind.address kernel.shape u query' key' = kind.address kernel.shape u' query key ↔ _ :=
      fun query' hQuery' key' hKey' =>
        BiasKind.address_eq_iff hu.2 hu'.2 hQuery' hQuery hKey' hKey
    by_cases hPart : kind.part kernel.shape u = kind.part kernel.shape u'
    · obtain ⟨view, rfl, -, hEffect⟩ := hUnit.effect
      rw [if_pos hPart, ← (hAddress query hQuery key hKey).mpr ⟨hPart, rfl, fun _ => rfl⟩]
      exact hEffect.biases kind query hQuery key hKey
    · rw [if_neg hPart]
      refine hUnit.biasGrads_frame kind ?_
      intro query' hQuery' key' hKey' h
      exact hPart ((hAddress query' hQuery' key' hKey').mp h.symm).1
  keeps := hUnit.keeps hHolds hu

end UnitRun

omit [Scalar α] [Element ε α] in
theorem Keeps.elim_workspace {next : Memory α ε} (hKeeps : kernel.Keeps memory next) :
    next.workspace.elim 0 (·.size) = memory.workspace.elim 0 (·.size) := by
  have hSize : ∀ workspace : Option (Array α),
      workspace.elim 0 (·.size) = (workspace.map (·.size)).getD 0 := by
    intro workspace
    cases workspace <;> rfl
  rw [hSize, hKeeps.workspaceSize, ← hSize]

omit [Scalar α] [Element ε α] in
theorem Holds.of_keeps {next : Memory α ε} (hHolds : kernel.Holds memory)
    (hKeeps : kernel.Keeps memory next) : kernel.Holds next where
  gradQ := by
    rw [hKeeps.gradQSize]
    exact hHolds.gradQ
  keyGrads side := by
    rw [hKeeps.keySize side]
    exact hHolds.keyGrads side
  delta := by
    rw [hKeeps.deltaSize]
    exact hHolds.delta
  biasGrads := by
    intro kind grad hGrad
    obtain ⟨prior, hPrior, hSame⟩ := exists_of_size_eq (hKeeps.biasSize kind) hGrad
    obtain ⟨hBias, hEnough⟩ := hHolds.biasGrads kind prior hPrior
    exact ⟨hBias, hSame ▸ hEnough⟩
  workspace := by
    rw [hKeeps.elim_workspace]
    exact hHolds.workspace

omit [Scalar α] [Element ε α] in
theorem size_deltaRow (hu : kernel.shape.HasUnit u)
    (hDelta : kernel.shape.units * kernel.shape.numQueries ≤ memory.delta.size) :
    (kernel.deltaRow u memory).size = kernel.shape.numQueries := by
  have hEnd := run_within (Shape.index_lt hu) hDelta
  rw [deltaRow, Array.size_extract]
  omega

/-- A unit never faults in the memory of a launch. -/
theorem runOn_eq (hValid : kernel.Valid) (hReads : kernel.Reads u) (hHolds : kernel.Holds memory) :
    ∃ row after, kernel.runOn memory u = .ok (kernel.putUnit u memory row after) ∧
      kernel.UnitRun memory u row after := by
  have hu := hReads.hasUnit
  obtain ⟨row, after, view, hRun, hRowSize, hRow, hCoord, hGrads, hEffect⟩ :=
    runUnit_spec hValid hReads (size_deltaRow hu hHolds.delta) (hHolds.owns hu)
  refine ⟨row, after, ?_, hRun, hRowSize, hRow, view, hCoord, hGrads, hEffect⟩
  obtain ⟨grads, delta, biasGrads, workspace⟩ := memory
  refine bind_eq_of_ok (sliceOf_eq (run_within (Shape.index_lt hu) hHolds.delta)) ?_
  have hRest : (kernel.runUnit u (kernel.deltaRow u ⟨grads, delta, biasGrads, workspace⟩)
        ⟨grads, biasGrads, kernel.slice u workspace⟩ >>= fun result =>
          Except.ok (kernel.putUnit u ⟨grads, delta, biasGrads, workspace⟩ result.1 result.2)) =
      Except.ok (kernel.putUnit u ⟨grads, delta, biasGrads, workspace⟩ row after) :=
    bind_eq_of_ok hRun rfl
  cases workspace with
  | none => exact hRest
  | some buffer =>
      have hSlice := sliceOf_eq (run_within (Shape.index_lt hu) hHolds.workspace)
      dsimp only
      by_cases hEmpty : kernel.workspace.isEmpty = true
      · rw [if_pos hEmpty]
        rw [slice, Option.bind_some, if_pos hEmpty] at hRest
        exact hRest
      · rw [if_neg hEmpty]
        rw [slice, Option.bind_some, if_neg hEmpty] at hRest
        exact bind_eq_of_ok (congrArg (Except.map some) hSlice) hRest

/-- The memory stays one of the launch, and the step of the unit is known. -/
theorem runOn_spec (hValid : kernel.Valid) (hReads : kernel.Reads u)
    (hHolds : kernel.Holds memory) :
    ∃ next, kernel.runOn memory u = .ok next ∧ kernel.Holds next ∧
      kernel.UnitStep memory u next := by
  have hu := hReads.hasUnit
  obtain ⟨row, after, hRun, hUnit⟩ := runOn_eq hValid hReads hHolds
  have hStep := hUnit.step hHolds hu
  exact ⟨_, hRun, hHolds.of_keeps hStep.keeps, hStep⟩

end OneUnit

/-! ### All units -/

/-- The shares that one entry of a bias gradient receives, by the units that meet it. -/
def unitShares (kernel : Kernel α ε) (kind : BiasKind) (u : UnitCoord) (query key : Nat) : List α :=
  let units := kernel.shape.unitCoords.filter
    fun u' => kind.part kernel.shape u' == kind.part kernel.shape u
  units.flatMap fun u' => kernel.biasShares (kernel.unitValues u') kind query key

/-- What a launch does to its memory. -/
structure LaunchEffect (kernel : Kernel α ε) (before after : Memory α ε) : Prop where
  gradQ : ∀ u, kernel.shape.HasUnit u → ∀ row < kernel.shape.numQueries,
    ∀ col < kernel.shape.headDim, kernel.gradQEntry after u row col =
      kernel.queryVisits (kernel.unitValues u) row col (kernel.gradQEntry before u row col)
  keyGrads : ∀ (side : KeySide) u, kernel.shape.HasUnit u → ∀ row < kernel.shape.numKeys,
    ∀ col < side.cols kernel.shape,
      (side.of after.grads)[(side.of kernel.request.gradLayouts).address u row col]? =
        some (kernel.keyResult (kernel.unitValues u) side row col)
  delta : ∀ u, kernel.shape.HasUnit u → ∀ query < kernel.shape.numQueries,
    after.delta[u.index kernel.shape.heads * kernel.shape.numQueries + query]? =
      some (kernel.delta u query)
  biasGrads : ∀ (kind : BiasKind) u, kernel.shape.HasUnit u → ∀ query < kernel.shape.numQueries,
    ∀ key < kernel.shape.numKeys,
      after.biasGrads.at? kind (kind.address kernel.shape u query key) =
        (before.biasGrads.at? kind (kind.address kernel.shape u query key)).map fun y =>
          (kernel.unitShares kind u query key).foldl (· + ·) y
  keeps : kernel.Keeps before after

omit [Scalar α] [Element ε α] in
theorem Keeps.refl (kernel : Kernel α ε) (memory : Memory α ε) : kernel.Keeps memory memory where
  gradQSize := rfl
  gradQ _ _ := rfl
  keySize _ := rfl
  keyGrads _ _ _ := rfl
  deltaSize := rfl
  delta _ _ := rfl
  biasSize _ := rfl
  biasGrads _ _ _ := rfl
  workspaceSize := rfl

omit [Scalar α] [Element ε α] in
theorem Keeps.trans {before middle after : Memory α ε} (hFirst : kernel.Keeps before middle)
    (hSecond : kernel.Keeps middle after) : kernel.Keeps before after where
  gradQSize := hSecond.gradQSize.trans hFirst.gradQSize
  gradQ p hp := (hSecond.gradQ p hp).trans (hFirst.gradQ p hp)
  keySize side := (hSecond.keySize side).trans (hFirst.keySize side)
  keyGrads side p hp := (hSecond.keyGrads side p hp).trans (hFirst.keyGrads side p hp)
  deltaSize := hSecond.deltaSize.trans hFirst.deltaSize
  delta p hp := (hSecond.delta p hp).trans (hFirst.delta p hp)
  biasSize kind := (hSecond.biasSize kind).trans (hFirst.biasSize kind)
  biasGrads kind p hp := (hSecond.biasGrads kind p hp).trans (hFirst.biasGrads kind p hp)
  workspaceSize := hSecond.workspaceSize.trans hFirst.workspaceSize

section AllUnits

variable {wanted : Biases Bool} {before after : Memory α ε}

/-- What an entry of gradQ holds after a launch is where its visits bring it. -/
theorem LaunchEffect.gradQ_target (hEffect : kernel.LaunchEffect before after)
    (hHolds : kernel.Holds before) (hu : kernel.shape.HasUnit u) {row col : Nat}
    (hRow : row < kernel.shape.numQueries) (hCol : col < kernel.shape.headDim) :
    after.grads.gradQ[kernel.request.gradLayouts.gradQ.address u row col]? =
      some (kernel.queryVisits (kernel.unitValues u) row col
        (kernel.gradQEntry before u row col)).target := by
  rw [(hHolds.of_keeps hEffect.keeps).gradQ_at hu hRow hCol, hEffect.gradQ u hu row hRow col hCol]

/-- The steps of all units make the effect of the launch. -/
theorem LaunchEffect.of_steps (hSize : 0 < kernel.shape.groupSize)
    (hWanted : ∀ kind, wanted.get kind = (before.biasGrads.get kind).isSome)
    (hSteps : Steps kernel.UnitStep before (kernel.shape.order wanted) after) :
    kernel.LaunchEffect before after where
  gradQ u hu row hRow col hCol :=
    hSteps.observe_once (Shape.nodup_order hSize wanted) ((Shape.mem_order hSize).mpr hu)
      (fun memory => kernel.gradQEntry memory u row col)
      (kernel.queryVisits (kernel.unitValues u) row col)
      (fun _ _ hStep => (hStep.gradQ u hu row hRow col hCol).trans (if_pos rfl))
      fun _ _ _ _ hOther hStep => (hStep.gradQ u hu row hRow col hCol).trans (if_neg hOther)
  keyGrads side u hu row hRow col hCol :=
    hSteps.observe_once (Shape.nodup_order hSize wanted) ((Shape.mem_order hSize).mpr hu)
      (fun memory : Memory α ε =>
        (side.of memory.grads)[(side.of kernel.request.gradLayouts).address u row col]?)
      (fun _ => some (kernel.keyResult (kernel.unitValues u) side row col))
      (fun _ _ hStep => (hStep.keyGrads side u hu row hRow col hCol).trans (if_pos rfl))
      fun _ _ _ _ hOther hStep => (hStep.keyGrads side u hu row hRow col hCol).trans (if_neg hOther)
  delta u hu query hQuery :=
    hSteps.observe_once (Shape.nodup_order hSize wanted) ((Shape.mem_order hSize).mpr hu)
      (fun memory : Memory α ε =>
        memory.delta[u.index kernel.shape.heads * kernel.shape.numQueries + query]?)
      (fun _ => some (kernel.delta u query))
      (fun _ _ hStep => (hStep.delta u hu query hQuery).trans (if_pos rfl))
      fun _ _ _ _ hOther hStep => (hStep.delta u hu query hQuery).trans (if_neg hOther)
  biasGrads := by
    intro kind u hu query hQuery key hKey
    have hFold := hSteps.observe (fun memory : Memory α ε =>
        memory.biasGrads.at? kind (kind.address kernel.shape u query key))
      (fun entry u' =>
        if (kind.part kernel.shape u' == kind.part kernel.shape u) = true then
          entry.map fun y => (kernel.biasShares (kernel.unitValues u') kind query key).foldl (· + ·) y
        else entry) ?_
    · rw [hFold, ← List.foldl_filter, foldl_option_map, unitShares]
      simp only [List.foldl_flatMap]
      cases hGrad : before.biasGrads.get kind with
      | none => rw [Biases.at?, hGrad, Option.bind_none, Option.map_none, Option.map_none]
      | some grad =>
          have hIn : wanted.get kind = true := by rw [hWanted, hGrad, Option.isSome_some]
          rw [Shape.filter_order hSize hu fun u' _ hPart =>
            BiasKind.groupKey_eq hIn (beq_iff_eq.mp hPart)]
    · intro s t u' _ hStep
      rw [hStep.biasGrads kind u hu query hQuery key hKey]
      simp only [beq_iff_eq]
  keeps := hSteps.compose (.refl kernel) .trans fun _ _ _ _ hStep => hStep.keeps

/-- A run of all units never faults, and its effect on the memory is known. -/
theorem runUnits_spec (hValid : kernel.Valid) (hSize : 0 < kernel.shape.groupSize)
    (hReads : ∀ u, kernel.shape.HasUnit u → kernel.Reads u) (hHolds : kernel.Holds before)
    (hWanted : ∀ kind, wanted.get kind = (before.biasGrads.get kind).isSome) :
    ∃ after, (kernel.shape.order wanted).foldlM kernel.runOn before = .ok after ∧
      kernel.LaunchEffect before after := by
  obtain ⟨after, hRun, -, hSteps⟩ := foldlM_steps kernel.Holds kernel.UnitStep
    (fun memory u hMem hNow =>
      runOn_spec hValid (hReads u (Shape.hasUnit_of_mem_order hMem)) hNow) hHolds
  exact ⟨after, hRun, .of_steps hSize hWanted hSteps⟩

end AllUnits

/-! ### What the result depends on -/

section Unique

variable {before before' after after' : Memory α ε}

/-- Every entry of Delta up to the last unit belongs to a query of a unit. -/
theorem exists_delta {s : Shape} {p : Nat} (hp : p < s.units * s.numQueries) :
    ∃ u, s.HasUnit u ∧ ∃ query < s.numQueries, p = u.index s.heads * s.numQueries + query := by
  have hQueries : 0 < s.numQueries := Nat.pos_of_ne_zero fun h => by simp [h] at hp
  have hIndex : p / s.numQueries < s.batch * s.heads :=
    Nat.div_lt_of_lt_mul (by rw [Nat.mul_comm]; exact hp)
  have hHeads : 0 < s.heads := Nat.pos_of_ne_zero fun h => by simp [h] at hIndex
  refine ⟨⟨p / s.numQueries / s.heads, p / s.numQueries % s.heads⟩, ⟨?_, Nat.mod_lt _ hHeads⟩,
    p % s.numQueries, Nat.mod_lt _ hQueries, ?_⟩
  · exact Nat.div_lt_of_lt_mul (by rw [Nat.mul_comm]; exact hIndex)
  · rw [UnitCoord.index, Nat.div_add_mod', Nat.div_add_mod']

omit [Scalar α] [Element ε α] in
/-- Delta is known from the rows of all units and the elements of none. -/
theorem delta_ext (kernel : Kernel α ε) {delta delta' : Array α}
    (hRows : ∀ u, kernel.shape.HasUnit u → ∀ query < kernel.shape.numQueries,
      delta[u.index kernel.shape.heads * kernel.shape.numQueries + query]? =
        delta'[u.index kernel.shape.heads * kernel.shape.numQueries + query]?)
    (hRest : ∀ p, kernel.shape.units * kernel.shape.numQueries ≤ p → delta[p]? = delta'[p]?) :
    delta = delta' := by
  refine Array.ext_getElem? fun p => ?_
  by_cases hp : p < kernel.shape.units * kernel.shape.numQueries
  · obtain ⟨u, hu, query, hQuery, rfl⟩ := exists_delta hp
    exact hRows u hu query hQuery
  · exact hRest p (Nat.le_of_not_lt hp)

omit [Scalar α] [Element ε α] in
/-- The gradients are known from the entries of all units and the elements of none. -/
theorem grads_ext (kernel : Kernel α ε) {grads grads' : Gradients (Array ε)}
    (hQ : ∀ u, kernel.shape.HasUnit u → ∀ row < kernel.shape.numQueries,
      ∀ col < kernel.shape.headDim, grads.gradQ[kernel.request.gradLayouts.gradQ.address u row col]? =
        grads'.gradQ[kernel.request.gradLayouts.gradQ.address u row col]?)
    (hRestQ : ∀ p, (∀ u, kernel.shape.HasUnit u → ∀ row < kernel.shape.numQueries,
      ∀ col < kernel.shape.headDim, p ≠ kernel.request.gradLayouts.gradQ.address u row col) →
        grads.gradQ[p]? = grads'.gradQ[p]?)
    (hKeys : ∀ (side : KeySide) u, kernel.shape.HasUnit u → ∀ row < kernel.shape.numKeys,
      ∀ col < side.cols kernel.shape,
        (side.of grads)[(side.of kernel.request.gradLayouts).address u row col]? =
          (side.of grads')[(side.of kernel.request.gradLayouts).address u row col]?)
    (hRestKeys : ∀ (side : KeySide) p, (∀ u, kernel.shape.HasUnit u → ∀ row < kernel.shape.numKeys,
      ∀ col < side.cols kernel.shape,
        p ≠ (side.of kernel.request.gradLayouts).address u row col) →
          (side.of grads)[p]? = (side.of grads')[p]?) : grads = grads' := by
  refine KeySide.gradients_ext (Array.ext_getElem? fun p => ?_)
    fun side => Array.ext_getElem? fun p => ?_
  · by_cases hp : ∀ u, kernel.shape.HasUnit u → ∀ row < kernel.shape.numQueries,
        ∀ col < kernel.shape.headDim, p ≠ kernel.request.gradLayouts.gradQ.address u row col
    · exact hRestQ p hp
    · push Not at hp
      obtain ⟨u, hu, row, hRow, col, hCol, rfl⟩ := hp
      exact hQ u hu row hRow col hCol
  · by_cases hp : ∀ u, kernel.shape.HasUnit u → ∀ row < kernel.shape.numKeys,
        ∀ col < side.cols kernel.shape, p ≠ (side.of kernel.request.gradLayouts).address u row col
    · exact hRestKeys side p hp
    · push Not at hp
      obtain ⟨u, hu, row, hRow, col, hCol, rfl⟩ := hp
      exact hKeys side u hu row hRow col hCol

/-- The gradients depend on what the gradients and the workspace held before, and on nothing else
of the memory. -/
theorem LaunchEffect.grads_eq (hEffect : kernel.LaunchEffect before after)
    (hEffect' : kernel.LaunchEffect before' after') (hGrads : before'.grads = before.grads)
    (hWorkspace : before'.workspace = before.workspace) : after'.grads = after.grads := by
  have hSize : after'.grads.gradQ.size = after.grads.gradQ.size := by
    rw [hEffect'.keeps.gradQSize, hEffect.keeps.gradQSize, hGrads]
  refine kernel.grads_ext (fun u hu row hRow col hCol => ?_) (fun p hp => ?_)
    (fun side u hu row hRow col hCol => ?_) fun side p hp => ?_
  · have hEntry : kernel.gradQEntry after' u row col = kernel.gradQEntry after u row col := by
      rw [hEffect'.gradQ u hu row hRow col hCol, hEffect.gradQ u hu row hRow col hCol, gradQEntry,
        hGrads, hWorkspace, ← gradQEntry]
    exact getElem?_eq_of_getD hSize (congrArg Entry.target hEntry)
  · rw [hEffect'.keeps.gradQ p hp, hEffect.keeps.gradQ p hp, hGrads]
  · rw [hEffect'.keyGrads side u hu row hRow col hCol, hEffect.keyGrads side u hu row hRow col hCol]
  · rw [hEffect'.keeps.keyGrads side p hp, hEffect.keeps.keyGrads side p hp, hGrads]

theorem LaunchEffect.delta_eq (hEffect : kernel.LaunchEffect before after)
    (hEffect' : kernel.LaunchEffect before' after') (hDelta : before'.delta = before.delta) :
    after'.delta = after.delta := by
  refine kernel.delta_ext (fun u hu query hQuery => ?_) fun p hp => ?_
  · rw [hEffect'.delta u hu query hQuery, hEffect.delta u hu query hQuery]
  · rw [hEffect'.keeps.delta p hp, hEffect.keeps.delta p hp, hDelta]

/-- An entry of a bias gradient depends on what it held before and on the shares that it receives. -/
theorem LaunchEffect.biasGrads_at {kernel' : Kernel α ε} (hEffect : kernel.LaunchEffect before after)
    (hEffect' : kernel'.LaunchEffect before' after') (hShape : kernel'.shape = kernel.shape)
    {kind : BiasKind}
    (hShares : ∀ u, kernel.shape.HasUnit u → ∀ query < kernel.shape.numQueries,
      ∀ key < kernel.shape.numKeys,
        kernel'.unitShares kind u query key = kernel.unitShares kind u query key)
    {p : Nat} (hBefore : before'.biasGrads.at? kind p = before.biasGrads.at? kind p) :
    after'.biasGrads.at? kind p = after.biasGrads.at? kind p := by
  by_cases hp : ∀ u, kernel.shape.HasUnit u → ∀ query < kernel.shape.numQueries,
      ∀ key < kernel.shape.numKeys, p ≠ kind.address kernel.shape u query key
  · rw [hEffect.keeps.biasGrads kind p hp, hEffect'.keeps.biasGrads kind p (by rwa [hShape]), hBefore]
  · push Not at hp
    obtain ⟨u, hu, query, hQuery, key, hKey, rfl⟩ := hp
    have hEntry := hEffect'.biasGrads kind u (by rwa [hShape]) query (by rwa [hShape]) key
      (by rwa [hShape])
    rw [hShape, hShares u hu query hQuery key hKey] at hEntry
    rw [hEntry, hEffect.biasGrads kind u hu query hQuery key hKey, hBefore]

/-- A bias gradient depends on what it held before alone, not on whether the other is wanted. -/
theorem LaunchEffect.biasGrads_eq (hEffect : kernel.LaunchEffect before after)
    (hEffect' : kernel.LaunchEffect before' after') {kind : BiasKind}
    (hGrad : before'.biasGrads.get kind = before.biasGrads.get kind) :
    after'.biasGrads.get kind = after.biasGrads.get kind := by
  have hSize : (after'.biasGrads.get kind).map (·.size) = (after.biasGrads.get kind).map (·.size) := by
    rw [hEffect'.keeps.biasSize kind, hEffect.keeps.biasSize kind, hGrad]
  have hAt : ∀ p, after'.biasGrads.at? kind p = after.biasGrads.at? kind p := fun p =>
    hEffect.biasGrads_at hEffect' rfl (fun _ _ _ _ _ _ => rfl) (by rw [Biases.at?, Biases.at?, hGrad])
  simp only [Biases.at?] at hAt
  revert hSize hAt
  generalize after'.biasGrads.get kind = grad', after.biasGrads.get kind = grad
  intro hSize hAt
  cases grad with
  | none => exact Option.map_eq_none_iff.mp hSize
  | some values =>
      obtain ⟨values', rfl, -⟩ := Option.map_eq_some_iff.mp hSize
      exact congrArg some (Array.ext_getElem? hAt)

end Unique

end Kernel

end FusedAttention
