import Mathlib
import FusedAttention.Proofs.Buffers
import FusedAttention.Proofs.Tiling
import FusedAttention.Shape.Operands

/-! What the checks of a layout mean: a buffer of the required length holds every element, and no
two elements of an accepted gradient share an address. -/
namespace FusedAttention

namespace Layout

variable {l : Layout} {batch rows heads cols : Nat}

theorem rowStart_unitWindow (l : Layout) (u : UnitCoord) (row col : Nat) :
    (l.unitWindow u).rowStart row + col = l.address u row col := rfl

/-- A buffer of the required length holds every row of every unit. -/
theorem row_le_requiredLen {u : UnitCoord} {row : Nat} (hBatch : u.batchId < batch)
    (hHead : u.head < heads) (hRow : row < rows) :
    (l.unitWindow u).rowStart row + cols ≤ l.requiredLen batch rows heads cols := by
  have hBatches := Nat.mul_le_mul_right l.batchStride (show u.batchId ≤ batch - 1 by omega)
  have hRows := Nat.mul_le_mul_right l.rowStride (show row ≤ rows - 1 by omega)
  have hHeads := Nat.mul_le_mul_right l.headStride (show u.head ≤ heads - 1 by omega)
  simp only [Window.rowStart, unitWindow, unitOffset, requiredLen]
  omega

/-! ### Addresses -/

/-- One dimension of a layout with its indices in two addresses. -/
structure Axis where
  stride : Nat
  extent : Nat
  first : Nat
  second : Nat

/-- Stride and extent of a dimension. -/
def Axis.step (a : Axis) : Nat × Nat :=
  (a.stride, a.extent)

/-- If every dimension steps past what the ones before it span, an address tells all indices. -/
theorem stepsClear_inj {axes : List Axis} {span col col' : Nat}
    (hClear : stepsClear span (axes.map Axis.step) = true) (hCol : col < span) (hCol' : col' < span)
    (hIn : ∀ a ∈ axes, a.first < a.extent ∧ a.second < a.extent)
    (h : col + (axes.map fun a => a.first * a.stride).sum =
      col' + (axes.map fun a => a.second * a.stride).sum) :
    col = col' ∧ ∀ a ∈ axes, a.first = a.second := by
  induction axes generalizing span col col' with
  | nil =>
      refine ⟨by simpa using h, ?_⟩
      intro a ha
      cases ha
  | cons a rest ih =>
      rw [List.map_cons, Axis.step, stepsClear, Bool.and_eq_true, decide_eq_true_eq] at hClear
      obtain ⟨hSpan, hRest⟩ := hClear
      obtain ⟨hFirst, hSecond⟩ := hIn a List.mem_cons_self
      have hStep : ∀ i < a.extent, i * a.stride ≤ a.stride * (a.extent - 1) := by
        intro i hi
        rw [Nat.mul_comm]
        exact Nat.mul_le_mul_left _ (by omega)
      have hStepFirst := hStep a.first hFirst
      have hStepSecond := hStep a.second hSecond
      rw [List.map_cons, List.map_cons, List.sum_cons, List.sum_cons, ← Nat.add_assoc,
        ← Nat.add_assoc] at h
      obtain ⟨hHere, hOthers⟩ := ih hRest (by omega) (by omega)
        (fun b hb => hIn b (List.mem_cons_of_mem a hb)) h
      obtain ⟨hSame, hSameCol⟩ := mul_add_inj (show col < a.stride by omega)
        (show col' < a.stride by omega)
        (show a.first * a.stride + col = a.second * a.stride + col' by omega)
      refine ⟨hSameCol, ?_⟩
      intro b hb
      rcases List.mem_cons.mp hb with rfl | hb
      · exact hSame
      · exact hOthers b hb

/-- The order of the dimensions does not matter for a sum over them. -/
theorem exists_axes {axes : List Axis} {sorted : List (Nat × Nat)}
    (hPerm : sorted.Perm (axes.map Axis.step)) :
    ∃ axes' : List Axis, axes'.map Axis.step = sorted ∧ axes'.Perm axes := by
  have hMap : List.Forall₂ (fun step (a : Axis) => step = a.step) (axes.map Axis.step) axes := by
    rw [List.forall₂_map_left_iff]
    exact List.forall₂_same.mpr fun _ _ => rfl
  obtain ⟨axes', hSorted, hAxes⟩ := List.perm_comp_forall₂ hPerm hMap
  refine ⟨axes', ?_, hAxes⟩
  clear hMap hAxes hPerm
  induction hSorted with
  | nil => rfl
  | cons hStep _ ih => rw [List.map_cons, ih, hStep]

/-- A dimension with a single index adds nothing to an address. -/
theorem sum_filter_extent {axes : List Axis} {index : Axis → Nat}
    (hIndex : ∀ a ∈ axes, index a < a.extent) :
    ((axes.filter fun a => decide (1 < a.extent)).map fun a => index a * a.stride).sum =
      (axes.map fun a => index a * a.stride).sum := by
  induction axes with
  | nil => rfl
  | cons a rest ih =>
      have hRest := ih fun b hb => hIndex b (List.mem_cons_of_mem a hb)
      rw [List.filter_cons]
      split
      · rw [List.map_cons, List.map_cons, List.sum_cons, List.sum_cons, hRest]
      · rename_i hOne
        have hHere := hIndex a List.mem_cons_self
        rw [decide_eq_true_eq] at hOne
        have hZero : index a = 0 := by omega
        rw [List.map_cons, List.sum_cons, hRest, hZero, Nat.zero_mul, Nat.zero_add]

/-- As `stepsClear_inj`, where the dimensions with more than one index have been put in some
order. -/
theorem sorted_stepsClear_inj {axes : List Axis} {steps : List (Nat × Nat)} {span col col' : Nat}
    (hPerm : steps.Perm ((axes.filter fun a => decide (1 < a.extent)).map Axis.step))
    (hClear : stepsClear span steps = true) (hCol : col < span) (hCol' : col' < span)
    (hIn : ∀ a ∈ axes, a.first < a.extent ∧ a.second < a.extent)
    (h : col + (axes.map fun a => a.first * a.stride).sum =
      col' + (axes.map fun a => a.second * a.stride).sum) :
    col = col' ∧ ∀ a ∈ axes, a.first = a.second := by
  obtain ⟨sorted, hSorted, hAxes⟩ := exists_axes hPerm
  have hMem : ∀ a ∈ sorted, a.first < a.extent ∧ a.second < a.extent := by
    intro a ha
    exact hIn a (List.mem_filter.mp (hAxes.mem_iff.mp ha)).1
  have hSum : ∀ index : Axis → Nat, (∀ a ∈ axes, index a < a.extent) →
      (sorted.map fun a => index a * a.stride).sum =
        (axes.map fun a => index a * a.stride).sum := by
    intro index hIndex
    rw [(hAxes.map _).sum_nat]
    exact sum_filter_extent hIndex
  rw [← hSum Axis.first fun a ha => (hIn a ha).1, ← hSum Axis.second fun a ha => (hIn a ha).2] at h
  obtain ⟨hSameCol, hSame⟩ := stepsClear_inj (hSorted ▸ hClear) hCol hCol' hMem h
  refine ⟨hSameCol, fun a ha => ?_⟩
  by_cases hMore : 1 < a.extent
  · exact hSame a (hAxes.mem_iff.mpr (List.mem_filter.mpr ⟨ha, decide_eq_true hMore⟩))
  · have := hIn a ha
    omega

/-- In an accepted gradient every element has an address of its own, over all units. -/
theorem address_inj (hInjective : l.isInjective batch rows heads cols = true) {u u' : UnitCoord}
    {row row' col col' : Nat} (hu : u.batchId < batch ∧ u.head < heads)
    (hu' : u'.batchId < batch ∧ u'.head < heads) (hRow : row < rows) (hRow' : row' < rows)
    (hCol : col < cols) (hCol' : col' < cols) (h : l.address u row col = l.address u' row' col') :
    u = u' ∧ row = row' ∧ col = col' := by
  let axes : List Axis := [⟨l.batchStride, batch, u.batchId, u'.batchId⟩,
    ⟨l.rowStride, rows, row, row'⟩, ⟨l.headStride, heads, u.head, u'.head⟩]
  have hIn : ∀ a ∈ axes, a.first < a.extent ∧ a.second < a.extent := by
    intro a ha
    simp only [axes, List.mem_cons, List.not_mem_nil, or_false] at ha
    rcases ha with rfl | rfl | rfl
    · exact ⟨hu.1, hu'.1⟩
    · exact ⟨hRow, hRow'⟩
    · exact ⟨hu.2, hu'.2⟩
  have hPerm : (l.steps batch rows heads).Perm
      ((axes.filter fun a => decide (1 < a.extent)).map Axis.step) := by
    refine (List.mergeSort_perm _ _).trans (List.Perm.of_eq ?_)
    have hSteps : ([(l.batchStride, batch), (l.rowStride, rows), (l.headStride, heads)] :
        List (Nat × Nat)) = axes.map Axis.step := rfl
    rw [hSteps, List.filter_map]
    rfl
  have hTotal : col + (axes.map fun a => a.first * a.stride).sum =
      col' + (axes.map fun a => a.second * a.stride).sum := by
    simp only [axes, List.map_cons, List.map_nil, List.sum_cons, List.sum_nil]
    simp only [address, unitOffset] at h
    omega
  obtain ⟨hSameCol, hAll⟩ := sorted_stepsClear_inj hPerm hInjective hCol hCol' hIn hTotal
  have hBatchSame := hAll ⟨l.batchStride, batch, u.batchId, u'.batchId⟩ (by simp [axes])
  have hRowSame := hAll ⟨l.rowStride, rows, row, row'⟩ (by simp [axes])
  have hHeadSame := hAll ⟨l.headStride, heads, u.head, u'.head⟩ (by simp [axes])
  obtain ⟨batchId, head⟩ := u
  obtain ⟨batchId', head'⟩ := u'
  dsimp only at hBatchSame hRowSame hHeadSame
  subst hBatchSame hRowSame hHeadSame
  exact ⟨rfl, rfl, hSameCol⟩

/-- The rows of one unit fit an accepted gradient. -/
theorem unitWindow_fits {size : Nat} (hSize : l.requiredLen batch rows heads cols ≤ size)
    (hInjective : l.isInjective batch rows heads cols = true) {u : UnitCoord}
    (hu : u.batchId < batch ∧ u.head < heads) : (l.unitWindow u).Fits rows cols size where
  within _ hRow := Nat.le_trans (row_le_requiredLen hu.1 hu.2 hRow) hSize
  injective _ hRow _ hCol _ hRow' _ hCol' h :=
    (address_inj hInjective hu hu hRow hRow' hCol hCol' h).2

/-! ### Aligned layouts -/

/-- Dimensions with a single index may be left out where each dimension steps past those before. -/
theorem stepsClear_filter {steps : List (Nat × Nat)} {span : Nat}
    (hExtents : ∀ step ∈ steps, 0 < step.2) (hClear : stepsClear span steps = true) :
    stepsClear span (steps.filter fun step => decide (1 < step.2)) = true := by
  induction steps generalizing span with
  | nil => rfl
  | cons step rest ih =>
      obtain ⟨stride, extent⟩ := step
      have hHere : 0 < extent := hExtents (stride, extent) List.mem_cons_self
      have hOthers : ∀ step ∈ rest, 0 < step.2 := fun x hx => hExtents x (List.mem_cons_of_mem _ hx)
      rw [stepsClear, Bool.and_eq_true] at hClear
      obtain ⟨hStride, hRest⟩ := hClear
      by_cases hMore : 1 < extent
      · rw [List.filter_cons_of_pos (by simpa using hMore), stepsClear, hStride, ih hOthers hRest]
        rfl
      · have hOne : extent = 1 := by omega
        rw [hOne, Nat.sub_self, Nat.mul_zero, Nat.add_zero] at hRest
        rw [List.filter_cons_of_neg (by simpa using hMore)]
        exact ih hOthers hRest

/-- The dimensions that count, in the order of their strides, are the steps of the layout. -/
theorem steps_eq_of_perm {order : List (Nat × Nat)}
    (hPerm : order.Perm ([(l.batchStride, batch), (l.rowStride, rows),
      (l.headStride, heads)].filter (1 < ·.2)))
    (hSorted : order.Pairwise fun a b => a.1 < b.1 ∨ a.1 = b.1 ∧ a.2 ≤ b.2) :
    l.steps batch rows heads = order := by
  unfold steps
  refine List.Perm.eq_of_pairwise ?antisymm (List.pairwise_mergeSort ?trans ?total _) ?sorted
    ((List.mergeSort_perm _ _).trans hPerm.symm)
  case antisymm =>
    intro a b _ _ hLe hGe
    simp only [Bool.or_eq_true, Bool.and_eq_true, decide_eq_true_eq, beq_iff_eq] at hLe hGe
    apply Prod.ext <;> omega
  case trans =>
    intro a b c hab hbc
    simp only [Bool.or_eq_true, Bool.and_eq_true, decide_eq_true_eq, beq_iff_eq] at hab hbc ⊢
    omega
  case total =>
    intro a b
    simp only [Bool.or_eq_true, Bool.and_eq_true, decide_eq_true_eq, beq_iff_eq]
    omega
  case sorted =>
    apply hSorted.imp
    intro a b hLe
    simpa using hLe

/-- The dimensions of a layout whose strides grow from heads to rows to batches. -/
theorem steps_eq (hSorted : [(l.headStride, heads), (l.rowStride, rows),
      (l.batchStride, batch)].Pairwise fun a b => a.1 < b.1 ∨ a.1 = b.1 ∧ a.2 ≤ b.2) :
    l.steps batch rows heads = [(l.headStride, heads), (l.rowStride, rows),
      (l.batchStride, batch)].filter fun step => decide (1 < step.2) :=
  steps_eq_of_perm (List.Perm.filter _ (List.reverse_perm
    [(l.batchStride, batch), (l.rowStride, rows), (l.headStride, heads)])) (hSorted.filter _)

/-- A dimension of several indices has a longer stride than the one that it steps over. -/
theorem lt_stride_or_single {n m stride : Nat} (hn : 0 < n) (hm : 0 < m) (hStride : 0 < stride) :
    stride < n * stride ∨ stride = n * stride ∧ n ≤ m := by
  rcases Nat.eq_or_lt_of_le hn with hOne | hMore
  · right
    rw [← hOne, Nat.one_mul]
    exact ⟨rfl, hm⟩
  · left
    exact (Nat.lt_mul_iff_one_lt_left hStride).mpr hMore

section Aligned

variable (hBatch : 0 < batch) (hRows : 0 < rows) (hHeads : 0 < heads) (hCols : 0 < cols)

include hBatch hRows hHeads

/-- The elements of an aligned layout end with the last row. -/
theorem requiredLen_aligned : (aligned rows heads cols).requiredLen batch rows heads cols ≤
    batch * rows * heads * alignUp cols lineSize := by
  have hStride : cols ≤ alignUp cols lineSize := le_alignUp (by decide)
  generalize hLine : alignUp cols lineSize = stride at hStride
  have hLast : ((batch - 1) * rows + (rows - 1)) * heads + (heads - 1) < batch * rows * heads :=
    mul_add_lt (mul_add_lt (by omega) (by omega)) (by omega)
  have hEnd := run_within hLast (Nat.le_refl (batch * rows * heads * stride))
  simp only [requiredLen, aligned, packed, hLine]
  simp only [Nat.add_mul, Nat.mul_assoc] at hEnd ⊢
  omega

include hCols

/-- No two elements of an aligned layout share an address. -/
theorem isInjective_aligned :
    (aligned rows heads cols).isInjective batch rows heads cols = true := by
  have hStride : cols ≤ alignUp cols lineSize := le_alignUp (by decide)
  unfold isInjective
  simp only [aligned, packed]
  generalize alignUp cols lineSize = stride at hStride
  have hHead : stride + stride * (heads - 1) = heads * stride := by
    rw [Nat.add_comm, ← Nat.mul_succ, Nat.succ_eq_add_one, Nat.sub_add_cancel hHeads, Nat.mul_comm]
  have hRow : heads * stride + heads * stride * (rows - 1) = rows * heads * stride := by
    rw [Nat.add_comm, ← Nat.mul_succ, Nat.succ_eq_add_one, Nat.sub_add_cancel hRows, Nat.mul_comm,
      Nat.mul_assoc]
  rw [steps_eq]
  · apply stepsClear_filter
    · simp [hBatch, hRows, hHeads]
    · simp [stepsClear]
      omega
  · have hLine : 0 < stride := by omega
    have hHeadLine : 0 < heads * stride := Nat.mul_pos hHeads hLine
    have hUnits := lt_stride_or_single (Nat.mul_pos hRows hHeads) hBatch hLine
    have hHeadsLe : heads ≤ rows * heads := Nat.le_mul_of_pos_left heads hRows
    simp only [List.pairwise_cons, List.mem_cons, List.not_mem_nil, or_false, forall_eq_or_imp,
      forall_eq, List.Pairwise.nil, and_true, IsEmpty.forall_iff, implies_true]
    refine ⟨⟨lt_stride_or_single hHeads hRows hLine, by omega⟩, ?_⟩
    rw [Nat.mul_assoc]
    exact lt_stride_or_single hRows hBatch hHeadLine

end Aligned

end Layout

end FusedAttention
