import Mathlib
import FusedAttention.Proofs.Acceptance
import FusedAttention.Proofs.Grouping
import FusedAttention.Proofs.Layouts

/-! The addresses of the elements of a tensor. The length that a layout asks for is the least that holds
all of them, and in a layout that passes the overlap check each has an address of its own. Units that
write to a gradient which passed both checks write to different places of its buffer. -/
namespace FusedAttention

/-- One element of a tensor: a column of a row of one unit. -/
structure ElementCoord where
  unit : UnitCoord
  row : Nat
  col : Nat
  deriving DecidableEq

/-- The elements of a `[batch, rows, heads, cols]` tensor. -/
def elements (batch rows heads cols : Nat) : Set ElementCoord :=
  {e | (e.unit.batchId < batch ∧ e.unit.head < heads) ∧ e.row < rows ∧ e.col < cols}

/-- The places of the leading block of a window. -/
def Window.places (w : Window) (rows cols : Nat) : Set Nat :=
  {p | ∃ row < rows, ∃ col < cols, p = w.rowStart row + col}

namespace Layout

variable {l : Layout} {batch rows heads cols : Nat}

/-- Address of an element. -/
def addressOf (l : Layout) (e : ElementCoord) : Nat :=
  l.address e.unit e.row e.col

/-! ### Length -/

theorem addressOf_lt {e : ElementCoord} (he : e ∈ elements batch rows heads cols) :
    l.addressOf e < l.requiredLen batch rows heads cols := by
  obtain ⟨⟨hBatch, hHead⟩, hRow, hCol⟩ := he
  have hEnd : (l.unitWindow e.unit).rowStart e.row + cols ≤ l.requiredLen batch rows heads cols :=
    row_le_requiredLen hBatch hHead hRow
  rw [addressOf, ← rowStart_unitWindow]
  omega

/-- The last element ends where the required length does. -/
theorem exists_last (l : Layout) (hBatch : 0 < batch) (hRows : 0 < rows) (hHeads : 0 < heads)
    (hCols : 0 < cols) : ∃ e ∈ elements batch rows heads cols,
      l.addressOf e + 1 = l.requiredLen batch rows heads cols := by
  refine ⟨⟨⟨batch - 1, heads - 1⟩, rows - 1, cols - 1⟩, ⟨⟨?_, ?_⟩, ?_, ?_⟩, ?_⟩
  · exact Nat.sub_one_lt_of_lt hBatch
  · exact Nat.sub_one_lt_of_lt hHeads
  · exact Nat.sub_one_lt_of_lt hRows
  · exact Nat.sub_one_lt_of_lt hCols
  · simp only [addressOf, address, unitOffset, requiredLen]
    omega

/-- No shorter buffer holds every element. -/
theorem isLeast_requiredLen (l : Layout) (hBatch : 0 < batch) (hRows : 0 < rows)
    (hHeads : 0 < heads) (hCols : 0 < cols) :
    IsLeast {size | ∀ e ∈ elements batch rows heads cols, l.addressOf e < size}
      (l.requiredLen batch rows heads cols) := by
  refine ⟨fun e he => addressOf_lt he, fun size hSize => ?_⟩
  obtain ⟨e, he, hLast⟩ := l.exists_last hBatch hRows hHeads hCols
  have hHolds := hSize e he
  omega

/-! ### Overlap -/

theorem injOn_addressOf (hInjective : l.isInjective batch rows heads cols = true) :
    Set.InjOn l.addressOf (elements batch rows heads cols) := by
  rintro ⟨u, row, col⟩ ⟨hu, hRow, hCol⟩ ⟨u', row', col'⟩ ⟨hu', hRow', hCol'⟩ h
  obtain ⟨rfl, rfl, rfl⟩ := address_inj hInjective hu hu' hRow hRow' hCol hCol' h
  rfl

/-- The rows of different units have no place in common. -/
theorem disjoint_places (hInjective : l.isInjective batch rows heads cols = true) {u u' : UnitCoord}
    (hu : u.batchId < batch ∧ u.head < heads) (hu' : u'.batchId < batch ∧ u'.head < heads)
    (hNe : u ≠ u') :
    Disjoint ((l.unitWindow u).places rows cols) ((l.unitWindow u').places rows cols) := by
  rw [Set.disjoint_left]
  rintro p ⟨row, hRow, col, hCol, rfl⟩ ⟨row', hRow', col', hCol', hSame⟩
  exact hNe (address_inj hInjective hu hu' hRow hRow' hCol hCol' hSame).1

/-- Dimensions that step past all that the ones before them span come by growing strides. -/
theorem lt_of_stepsClear {steps : List (Nat × Nat)} {span : Nat} (hSpan : 0 < span)
    (hMore : ∀ step ∈ steps, 1 < step.2) (hClear : stepsClear span steps = true) :
    (∀ step ∈ steps, span ≤ step.1) ∧ steps.Pairwise fun a b => a.1 < b.1 := by
  induction steps generalizing span with
  | nil => exact ⟨nofun, List.Pairwise.nil⟩
  | cons step rest ih =>
      obtain ⟨stride, extent⟩ := step
      rw [stepsClear, Bool.and_eq_true, decide_eq_true_eq] at hClear
      obtain ⟨hStride, hRest⟩ := hClear
      have hExtent : 1 < extent := hMore (stride, extent) List.mem_cons_self
      have hStep : stride ≤ stride * (extent - 1) := Nat.le_mul_of_pos_right _ (by omega)
      obtain ⟨hPast, hSorted⟩ := ih (by omega) (fun a ha => hMore a (List.mem_cons_of_mem _ ha)) hRest
      constructor
      · intro a ha
        rcases List.mem_cons.mp ha with rfl | ha
        · exact hStride
        · have := hPast a ha
          omega
      · refine List.pairwise_cons.mpr ⟨fun a ha => ?_, hSorted⟩
        have := hPast a ha
        show stride < a.1
        omega

/-- The check passes just if the dimensions can be put in some order in which each steps past what the
ones before it span. -/
theorem isInjective_iff (hCols : 0 < cols) : l.isInjective batch rows heads cols = true ↔
    ∃ order : List (Nat × Nat), order.Perm ([(l.batchStride, batch), (l.rowStride, rows),
      (l.headStride, heads)].filter (1 < ·.2)) ∧ stepsClear cols order = true := by
  constructor
  · intro h
    exact ⟨l.steps batch rows heads, List.mergeSort_perm _ _, h⟩
  · rintro ⟨order, hPerm, hClear⟩
    have hMore : ∀ step ∈ order, 1 < step.2 := fun step hStep =>
      of_decide_eq_true (List.mem_filter.mp (hPerm.mem_iff.mp hStep)).2
    have hSorted := (lt_of_stepsClear hCols hMore hClear).2
    rw [isInjective, steps_eq_of_perm hPerm (hSorted.imp Or.inl)]
    exact hClear

/-- What the checks of a gradient are worth. The overlap check passes just if the dimensions with more
than one index can be ordered so that each steps past the span of those before; then no two elements share
an address. Of every layout, the required length is the least that holds all elements. Where a gradient
passes both checks, the rows of different units have no place in common and lie inside the buffer. -/
theorem checks_apart_and_tight (l : Layout) (hBatch : 0 < batch) (hRows : 0 < rows) (hHeads : 0 < heads)
    (hCols : 0 < cols) :
    (l.isInjective batch rows heads cols = true ↔
      ∃ order : List (Nat × Nat), order.Perm ([(l.batchStride, batch), (l.rowStride, rows),
        (l.headStride, heads)].filter (1 < ·.2)) ∧ stepsClear cols order = true) ∧
      (l.isInjective batch rows heads cols = true →
        Set.InjOn l.addressOf (elements batch rows heads cols)) ∧
      IsLeast {size | ∀ e ∈ elements batch rows heads cols, l.addressOf e < size}
        (l.requiredLen batch rows heads cols) ∧
      ∀ (s : Shape) (tensor : String) (size : Nat), s.batch = batch → s.heads = heads →
        Check.gradient s tensor l (rows, cols) size = .ok () →
        {u | s.HasUnit u}.PairwiseDisjoint (fun u => (l.unitWindow u).places rows cols) ∧
          ∀ u, s.HasUnit u → (l.unitWindow u).places rows cols ⊆ Set.Iio size := by
  refine ⟨isInjective_iff hCols, injOn_addressOf, l.isLeast_requiredLen hBatch hRows hHeads hCols,
    fun s tensor size hUnits hHeadCount hCheck => ?_⟩
  obtain ⟨hSize, hInjective⟩ := Check.gradient_eq_ok.mp hCheck
  subst hUnits hHeadCount
  refine ⟨fun u hu u' hu' hNe => disjoint_places hInjective hu hu' hNe, ?_⟩
  rintro u hu p ⟨row, hRow, col, hCol, rfl⟩
  exact Nat.lt_of_lt_of_le (addressOf_lt (e := ⟨u, row, col⟩) ⟨hu, hRow, hCol⟩) hSize

/-- Two batches of four heads with four rows each, where the rows of a head come one after the other and
the heads of a batch after that. The last element is at 264, and the last head of the first batch lies apart
from the first head of the second. -/
theorem checks_headByHead :
    let l : Layout := ⟨4, 136, 8, 32⟩
    l.isInjective 2 4 4 5 = true ∧ Set.InjOn l.addressOf (elements 2 4 4 5) ∧
      IsLeast {size | ∀ e ∈ elements 2 4 4 5, l.addressOf e < size} 265 ∧
      Disjoint ((l.unitWindow ⟨0, 3⟩).places 4 5) ((l.unitWindow ⟨1, 0⟩).places 4 5) := by
  intro l
  obtain ⟨hPasses, hOwn, hLeast, hUnits⟩ := l.checks_apart_and_tight (show 0 < 2 by decide)
    (show 0 < 4 by decide) (show 0 < 4 by decide) (show 0 < 5 by decide)
  have hInjective : l.isInjective 2 4 4 5 = true :=
    hPasses.mpr ⟨[(8, 4), (32, 4), (136, 2)], by decide, rfl⟩
  let s : Shape := ⟨2, 4, 4, 4, 5, 5, 1⟩
  have hCheck : Check.gradient s "grad_q" l (4, 5) 265 = .ok () :=
    Check.gradient_eq_ok.mpr ⟨by decide, hInjective⟩
  exact ⟨hInjective, hOwn hInjective, hLeast, (hUnits s "grad_q" 265 rfl rfl hCheck).1
    (show s.HasUnit ⟨0, 3⟩ from ⟨by decide, by decide⟩)
    (show s.HasUnit ⟨1, 0⟩ from ⟨by decide, by decide⟩) (by decide)⟩

end Layout

end FusedAttention
