import Mathlib.Data.List.Nodup
import FusedAttention.Dense.Padding
import FusedAttention.Proofs.Buffers
import FusedAttention.Proofs.Tiling

/-! Padded buffers against dense ones: where the elements of each row are found again, that no copy
leaves its buffer, and that taking the padding off gives back what was padded. -/
namespace FusedAttention

variable {τ : Type}

/-! ### Aligned sizes -/

@[simp] theorem alignUp_mod (value multiple : Nat) : alignUp value multiple % multiple = 0 := by
  rw [alignUp_eq, Nat.mul_mod_left]

theorem alignUp_zero {multiple : Nat} (hMultiple : 0 < multiple) : alignUp 0 multiple = 0 := by
  rw [alignUp, Nat.div_eq_of_lt (by omega), Nat.zero_mul]

/-- Runs of the same length that a buffer consists of. -/
theorem chunksOf_mul (count : Nat) {width : Nat} (hWidth : 0 < width) :
    chunksOf (count * width) width = count := by
  rw [chunksOf, Nat.add_sub_assoc hWidth, Nat.add_comm, Nat.mul_comm,
    Nat.add_mul_div_left _ _ hWidth, Nat.div_eq_of_lt (by omega), Nat.zero_add]

/-! ### Runs -/

theorem putRun_eq {data values : Array τ} {start : Nat} (h : start + values.size ≤ data.size) :
    putRun data start values = .ok (writeRun data start values) := by
  rw [putRun, if_pos h]

@[simp] theorem length_runsOf (data : Array τ) (length : Nat) :
    (runsOf data length).length = chunksOf data.size length := by
  simp [runsOf, chunksOf]

theorem getElem?_runsOf {data row : Array τ} {length n : Nat} :
    (runsOf data length)[n]? = some row ↔
      n < chunksOf data.size length ∧ data.extract (n * length) ((n + 1) * length) = row := by
  by_cases hn : n < chunksOf data.size length
  · have hRange : (List.range (chunksOf data.size length))[n]? = some n := List.getElem?_range hn
    rw [chunksOf] at hRange
    simp [runsOf, hRange, hn]
  · simp [hn]

/-- A buffer of whole rows falls into these. -/
theorem runsOf_rows {data : Array τ} {rows cols : Nat} (hCols : 0 < cols)
    (hSize : data.size = rows * cols) :
    runsOf data cols = (List.range rows).map fun n => data.extract (n * cols) (n * cols + cols) := by
  have hCount := chunksOf_mul rows hCols
  rw [chunksOf, ← hSize] at hCount
  simp only [runsOf, hCount, Nat.succ_mul]

theorem size_row_extract {data : Array τ} {rows cols row : Nat} (hSize : data.size = rows * cols)
    (hRow : row < rows) : (data.extract (row * cols) (row * cols + cols)).size = cols := by
  have hEnd := run_within hRow (Nat.le_of_eq hSize.symm)
  rw [Array.size_extract]
  omega

/-! ### Rows -/

variable {rows cols : Nat}

/-- Padding succeeds on every buffer of whole rows, and each padded row is the row followed by
zeros. -/
theorem padRows_spec (zero : τ) {dense : Array τ} (hSize : dense.size = rows * cols) :
    ∃ padded, padRows zero dense cols (alignUp cols lineSize) = .ok padded ∧
      padded.size = rows * alignUp cols lineSize ∧
      ∀ row < rows, ∀ col < alignUp cols lineSize,
        padded[row * alignUp cols lineSize + col]? =
          if col < cols then dense[row * cols + col]? else some zero := by
  unfold padRows
  by_cases hSame : cols = alignUp cols lineSize
  · rw [if_pos hSame, ← hSame]
    refine ⟨dense, rfl, hSize, fun row _ col hCol => ?_⟩
    rw [if_pos hCol]
  · have hCols : 0 < cols := by
      apply Nat.pos_of_ne_zero
      rintro rfl
      exact hSame (alignUp_zero (by decide)).symm
    have hStride : cols ≤ alignUp cols lineSize := le_alignUp (by decide)
    generalize alignUp cols lineSize = stride at hSame hStride ⊢
    rw [if_neg hSame, if_neg (by omega)]
    have hRows : (runsOf dense cols).take (dense.size / cols) =
        (List.range rows).map fun n => dense.extract (n * cols) (n * cols + cols) := by
      rw [runsOf_rows hCols hSize, hSize, Nat.mul_div_cancel _ hCols]
      exact List.take_of_length_le (by simp)
    let padded (n : Nat) : Array τ :=
      writeRun (Array.replicate stride zero) 0 (dense.extract (n * cols) (n * cols + cols))
    have hFits : ∀ n < rows, 0 + (dense.extract (n * cols) (n * cols + cols)).size ≤
        (Array.replicate stride zero).size := by
      intro n hn
      rw [size_row_extract hSize hn, Array.size_replicate]
      omega
    have hLength : ∀ n < rows, (padded n).size = stride := by
      intro n hn
      rw [size_writeRun (hFits n hn), Array.size_replicate]
    have hPut : ((runsOf dense cols).take (dense.size / cols)).mapM
        (putRun (Array.replicate stride zero) 0) = .ok ((List.range rows).map padded) := by
      rw [hRows, List.mapM_map]
      apply mapM_eq_ok
      intro n hn
      exact putRun_eq (hFits n (List.mem_range.mp hn))
    obtain ⟨hWhole, hEntries⟩ := join_spec hLength
    refine ⟨_, bind_eq_of_ok hPut rfl, hWhole, fun row hRow col hCol => ?_⟩
    rw [hEntries row hRow col hCol, getElem?_writeRun (hFits row hRow), size_row_extract hSize hRow]
    by_cases hIn : col < cols
    · have hEnd := run_within hRow (Nat.le_of_eq hSize.symm)
      rw [if_pos (by omega), if_pos hIn, Array.getElem?_extract, if_pos (by omega), Nat.sub_zero]
    · rw [if_neg (by omega), if_neg hIn, Array.getElem?_replicate, if_pos hCol]

/-- Taking the padding off succeeds on every buffer of whole padded rows and keeps the front of each
of them. -/
theorem stripRows_spec {padded : Array τ} (hSize : padded.size = rows * alignUp cols lineSize) :
    ∃ dense, stripRows padded cols (alignUp cols lineSize) = .ok dense ∧ dense.size = rows * cols ∧
      ∀ row < rows, ∀ col < cols,
        dense[row * cols + col]? = padded[row * alignUp cols lineSize + col]? := by
  unfold stripRows
  by_cases hSame : cols = alignUp cols lineSize
  · rw [if_pos hSame, ← hSame]
    rw [← hSame] at hSize
    exact ⟨padded, rfl, hSize, fun _ _ _ _ => rfl⟩
  · have hStride : cols ≤ alignUp cols lineSize := le_alignUp (by decide)
    generalize alignUp cols lineSize = stride at hSame hStride hSize ⊢
    rw [if_neg hSame, if_neg (by omega)]
    let row (n : Nat) : Array τ := padded.extract (n * stride) (n * stride + stride)
    have hFits : ∀ n < rows, 0 + cols ≤ (row n).size := by
      intro n hn
      rw [size_row_extract hSize hn]
      omega
    have hLength : ∀ n < rows, ((row n).extract 0 (0 + cols)).size = cols := by
      intro n hn
      have := hFits n hn
      rw [Array.size_extract]
      omega
    have hTake : (runsOf padded stride).mapM (sliceOf · 0 cols) =
        .ok ((List.range rows).map fun n => (row n).extract 0 (0 + cols)) := by
      rw [runsOf_rows (by omega) hSize, List.mapM_map]
      apply mapM_eq_ok
      intro n hn
      exact sliceOf_eq (hFits n (List.mem_range.mp hn))
    obtain ⟨hWhole, hEntries⟩ := join_spec hLength
    refine ⟨_, bind_eq_of_ok hTake rfl, hWhole, fun n hn col hCol => ?_⟩
    have hEnd := run_within hn (Nat.le_of_eq hSize.symm)
    rw [hEntries n hn col hCol, Array.getElem?_extract, if_pos (by have := hFits n hn; omega),
      Nat.zero_add, Array.getElem?_extract, if_pos (by omega)]

/-- Taking the padding off gives back the dense rows. -/
theorem stripRows_padRows (zero : τ) {dense : Array τ} (hSize : dense.size = rows * cols) :
    (padRows zero dense cols (alignUp cols lineSize) >>=
      (stripRows · cols (alignUp cols lineSize))) = .ok dense := by
  obtain ⟨padded, hPadded, hPaddedSize, hPaddedEntries⟩ := padRows_spec zero hSize
  obtain ⟨result, hResult, hResultSize, hResultEntries⟩ := stripRows_spec hPaddedSize
  have hStride : cols ≤ alignUp cols lineSize := le_alignUp (by decide)
  apply bind_eq_of_ok hPadded
  rw [hResult]
  congr 1
  apply Array.ext_getElem?
  intro p
  by_cases hp : p < rows * cols
  · have hCols : 0 < cols := Nat.pos_of_ne_zero fun h => by simp [h] at hp
    have hRow : p / cols < rows := Nat.div_lt_of_lt_mul (Nat.mul_comm rows cols ▸ hp)
    have hCol : p % cols < cols := Nat.mod_lt p hCols
    have hEntry := hResultEntries (p / cols) hRow (p % cols) hCol
    rw [hPaddedEntries _ hRow _ (by omega), if_pos hCol, Nat.div_add_mod'] at hEntry
    exact hEntry
  · rw [Array.getElem?_eq_none (by omega), Array.getElem?_eq_none (by omega)]

/-! ### The log-sum-exp -/

theorem LseLayout.unitOffset_padded (heads numQueries : Nat) (u : UnitCoord) :
    (LseLayout.padded heads numQueries).unitOffset u = u.index heads * alignUp numQueries 8 := by
  simp only [unitOffset, padded, UnitCoord.index, Nat.add_mul, Nat.mul_assoc]

variable {s : Shape} {dense : Array τ}

/-- The place of a row that is found by the number of its unit. -/
theorem LseLayout.unitOffset_number {unit : Nat} (hUnit : unit < s.units) :
    (LseLayout.padded s.heads s.numQueries).unitOffset
      ⟨unit / max s.heads 1, unit % max s.heads 1⟩ = unit * alignUp s.numQueries 8 := by
  have hHeads : 0 < s.heads := Nat.pos_of_mul_pos_left (Nat.zero_lt_of_lt hUnit)
  rw [unitOffset_padded, Nat.max_eq_left hHeads, UnitCoord.index, Nat.div_add_mod']

/-- The rows that are copied are those of the units, each under the number of its unit. -/
theorem mem_unitRows (hSize : dense.size = s.units * s.numQueries) {row : Array τ} {unit : Nat} :
    (row, unit) ∈ (runsOf dense (max s.numQueries 1)).zipIdx ↔
      0 < s.numQueries ∧ unit < s.units ∧
        dense.extract (unit * s.numQueries) (unit * s.numQueries + s.numQueries) = row := by
  rw [List.mem_zipIdx_iff_getElem?, getElem?_runsOf, lt_chunksOf_iff (by omega), hSize]
  dsimp only
  rcases Nat.eq_zero_or_pos s.numQueries with hNone | hQueries
  · simp [hNone]
  · rw [Nat.max_eq_left hQueries, Nat.mul_lt_mul_right hQueries, Nat.succ_mul]
    simp [hQueries]

/-- Copying one row of the log-sum-exp changes the row of its unit alone. -/
theorem putLse_spec [Zero τ] (hSize : dense.size = s.units * s.numQueries) {now row : Array τ}
    {unit : Nat} (hNow : now.size = s.units * alignUp s.numQueries 8)
    (hRow : (row, unit) ∈ (runsOf dense (max s.numQueries 1)).zipIdx) :
    ∃ next, putRun now ((LseLayout.padded s.heads s.numQueries).unitOffset
        ⟨unit / max s.heads 1, unit % max s.heads 1⟩) row = .ok next ∧
      next.size = s.units * alignUp s.numQueries 8 ∧
      ∀ unit' < s.units, ∀ query < s.numQueries,
        next[unit' * alignUp s.numQueries 8 + query]? =
          if unit = unit' then row[query]? else now[unit' * alignUp s.numQueries 8 + query]? := by
  have hStride : s.numQueries ≤ alignUp s.numQueries 8 := le_alignUp (by decide)
  obtain ⟨-, hUnit, rfl⟩ := (mem_unitRows hSize).mp hRow
  have hRowSize := size_row_extract hSize hUnit
  have hEnd := run_within hUnit (Nat.le_of_eq hNow.symm)
  rw [LseLayout.unitOffset_number hUnit]
  refine ⟨_, putRun_eq (by omega), ?_, fun unit' _ query hQuery => ?_⟩
  · rw [size_writeRun (by omega), hNow]
  · rw [getElem?_writeRun (by omega), hRowSize]
    by_cases hSame : unit = unit'
    · subst hSame
      rw [if_pos (by omega), if_pos rfl, Nat.add_sub_cancel_left]
    · have hApart := run_apart (alignUp s.numQueries 8) hSame
      rw [if_neg (by omega), if_neg hSame]

/-- Laying out the log-sum-exp succeeds, and every unit finds its row at its place. -/
theorem padLse_spec [Zero τ] (hSize : dense.size = s.units * s.numQueries) :
    ∃ padded, padLse s (.padded s.heads s.numQueries) dense = .ok padded ∧
      padded.size = s.units * alignUp s.numQueries 8 ∧
      ∀ unit < s.units, ∀ query < s.numQueries,
        padded[unit * alignUp s.numQueries 8 + query]? =
          dense[unit * s.numQueries + query]? := by
  have hStart : (Array.replicate (s.batch * (LseLayout.padded s.heads s.numQueries).batchStride)
      (0 : τ)).size = s.units * alignUp s.numQueries 8 := by
    simp [LseLayout.padded, Shape.units, Nat.mul_assoc]
  obtain ⟨padded, hPadded, hPaddedSize, hSteps⟩ := foldlM_steps
    (fun now : Array τ => now.size = s.units * alignUp s.numQueries 8)
    (fun now run next => ∀ unit < s.units, ∀ query < s.numQueries,
      next[unit * alignUp s.numQueries 8 + query]? =
        if run.2 = unit then run.1[query]? else now[unit * alignUp s.numQueries 8 + query]?)
    (fun now _ hRow hNow => putLse_spec hSize hNow hRow) hStart
  refine ⟨padded, hPadded, hPaddedSize, fun unit hUnit query hQuery => ?_⟩
  have hMem := (mem_unitRows hSize).mpr ⟨Nat.zero_lt_of_lt hQuery, hUnit, rfl⟩
  have hNodup : (runsOf dense (max s.numQueries 1)).zipIdx.Nodup := by
    apply List.Nodup.of_map Prod.snd
    rw [List.zipIdx_map_snd]
    exact List.nodup_range'
  have hEntry := hSteps.observe_once hNodup hMem
    (fun now => now[unit * alignUp s.numQueries 8 + query]?)
    (fun _ => (dense.extract (unit * s.numQueries) (unit * s.numQueries + s.numQueries))[query]?)
    (fun now next hNext => by rw [hNext unit hUnit query hQuery, if_pos rfl])
    (by
      rintro now next ⟨row, unit'⟩ hOther hApart hNext
      rw [hNext unit hUnit query hQuery, if_neg]
      rintro rfl
      obtain ⟨-, -, rfl⟩ := (mem_unitRows hSize).mp hOther
      exact hApart rfl)
  have hEnd := run_within hUnit (Nat.le_of_eq hSize.symm)
  rw [hEntry, Array.getElem?_extract, if_pos (by omega)]

end FusedAttention
