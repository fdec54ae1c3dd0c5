import FusedAttention.Kernel.Walk

/-! How rows and columns fall into tiles and chunks: the starts of the tiles of a loop, the tile
that a row belongs to, and the first query tile of a key tile. -/
namespace FusedAttention

/-- The run of `length` elements that belongs to number `n` ends inside a buffer of `count`
runs. -/
theorem run_within {n count length size : Nat} (hn : n < count) (hSize : count * length ≤ size) :
    n * length + length ≤ size := by
  have hStep : (n + 1) * length = n * length + length := Nat.succ_mul n length
  have := Nat.mul_le_mul_right length (show n + 1 ≤ count from hn)
  omega

/-- The row-major number of an entry of a table is below the size of the table. -/
theorem mul_add_lt {a b rows cols : Nat} (ha : a < rows) (hb : b < cols) :
    a * cols + b < rows * cols :=
  Nat.lt_of_lt_of_le (Nat.add_lt_add_left hb _) (run_within ha (Nat.le_refl _))

/-- Row-major numbers tell the entries of a table apart. -/
theorem mul_add_inj {a b a' b' cols : Nat} (hb : b < cols) (hb' : b' < cols)
    (h : a * cols + b = a' * cols + b') : a = a' ∧ b = b' := by
  have hRow : ∀ m n, n < cols → (m * cols + n) / cols = m := by
    intro m n hn
    rw [Nat.mul_comm, Nat.mul_add_div (by omega), Nat.div_eq_of_lt hn, Nat.add_zero]
  have hSame : a = a' := by rw [← hRow a b hb, h, hRow a' b' hb']
  subst hSame
  exact ⟨rfl, by omega⟩

/-- Every place before the end of a series of runs lies in one of them. -/
theorem exists_run {length count p : Nat} (hLength : 0 < length) (hp : p < count * length) :
    ∃ n < count, n * length ≤ p ∧ p < n * length + length :=
  ⟨p / length, Nat.div_lt_of_lt_mul (Nat.mul_comm count length ▸ hp), Nat.div_mul_le_self p length,
    Nat.lt_div_mul_add hLength⟩

/-- Every number below the size of a table is the row-major number of one of its entries. -/
theorem exists_mul_add {p rows cols : Nat} (hp : p < rows * cols) :
    ∃ a < rows, ∃ b < cols, p = a * cols + b := by
  have hCols : 0 < cols := Nat.pos_of_lt_mul_left hp
  obtain ⟨a, ha, hLow, hHigh⟩ := exists_run hCols hp
  exact ⟨a, ha, p - a * cols, by omega, by omega⟩

/-- Runs of different numbers lie apart. -/
theorem run_apart (length : Nat) {m n : Nat} (h : m ≠ n) :
    m * length + length ≤ n * length ∨ n * length + length ≤ m * length := by
  rcases Nat.lt_or_gt_of_ne h with hLess | hMore
  · exact .inl (run_within hLess (Nat.le_refl _))
  · exact .inr (run_within hMore (Nat.le_refl _))

/-! ### Chunks -/

theorem lt_chunksOf_iff {total width chunk : Nat} (hWidth : 0 < width) :
    chunk < chunksOf total width ↔ chunk * width < total := by
  have hStep : (chunk + 1) * width = chunk * width + width := Nat.succ_mul chunk width
  rw [chunksOf, Nat.lt_iff_add_one_le, Nat.le_div_iff_mul_le hWidth, hStep]
  omega

theorem one_lt_chunksOf_iff {total width : Nat} (hWidth : 0 < width) :
    1 < chunksOf total width ↔ width < total := by
  rw [lt_chunksOf_iff hWidth, Nat.one_mul]

theorem div_lt_chunksOf {total width col : Nat} (hWidth : 0 < width) (hCol : col < total) :
    col / width < chunksOf total width := by
  rw [lt_chunksOf_iff hWidth]
  exact Nat.lt_of_le_of_lt (Nat.div_mul_le_self col width) hCol

theorem le_alignUp {value multiple : Nat} (hMultiple : 0 < multiple) :
    value ≤ alignUp value multiple := by
  unfold alignUp
  have h := Nat.div_add_mod (value + multiple - 1) multiple
  have hRest := Nat.mod_lt (value + multiple - 1) hMultiple
  rw [Nat.mul_comm] at h
  omega

theorem alignUp_eq (value multiple : Nat) :
    alignUp value multiple = chunksOf value multiple * multiple := rfl

theorem chunksOf_pos {total width : Nat} (hWidth : 0 < width) (hTotal : 0 < total) :
    0 < chunksOf total width := by
  rw [lt_chunksOf_iff hWidth]
  omega

/-! ### Tiles -/

/-- Start of the tile of `block` rows that a row falls into. -/
def tileOf (block row : Nat) : Nat :=
  row / block * block

theorem tileOf_le (block row : Nat) : tileOf block row ≤ row :=
  Nat.div_mul_le_self row block

theorem lt_tileOf_add {block row : Nat} (hBlock : 0 < block) : row < tileOf block row + block := by
  have h := Nat.div_add_mod row block
  have hRest := Nat.mod_lt row hBlock
  rw [Nat.mul_comm] at h
  unfold tileOf
  omega

@[simp] theorem tileOf_add_mod (block row : Nat) : tileOf block row + row % block = row := by
  unfold tileOf
  rw [Nat.mul_comm]
  exact Nat.div_add_mod row block

/-- A row is found again in its tile. -/
theorem row_in_tile {block total row start : Nat} (hBlock : 0 < block)
    (hTile : tileOf block row = start) (hRow : row < total) :
    row % block < min block (total - start) ∧ start + row % block = row := by
  have hSplit := tileOf_add_mod block row
  have hRest := Nat.mod_lt row hBlock
  rw [hTile] at hSplit
  omega

theorem tileOf_div {block : Nat} (hBlock : 0 < block) (row : Nat) :
    tileOf block row / block = row / block :=
  Nat.mul_div_cancel _ hBlock

/-- The rows of the tile at a multiple of the block size. -/
theorem tileOf_eq_iff {block row n : Nat} (hBlock : 0 < block) :
    tileOf block row = n * block ↔ n * block ≤ row ∧ row < n * block + block := by
  constructor
  · intro h
    rw [← h]
    exact ⟨tileOf_le block row, lt_tileOf_add hBlock⟩
  · rintro ⟨hLow, hHigh⟩
    have hDiv : row / block = n := by
      rw [Nat.div_eq_iff hBlock]
      omega
    rw [tileOf, hDiv]

theorem mem_tileStarts {first total block start : Nat} (hBlock : 0 < block) :
    start ∈ tileStarts first total block ↔ start < total ∧ ∃ n, start = first + n * block := by
  unfold tileStarts
  rw [List.mem_map]
  constructor
  · rintro ⟨n, hn, rfl⟩
    rw [List.mem_range, lt_chunksOf_iff hBlock] at hn
    exact ⟨by omega, n, rfl⟩
  · rintro ⟨hStart, n, rfl⟩
    refine ⟨n, ?_, rfl⟩
    rw [List.mem_range, lt_chunksOf_iff hBlock]
    omega

/-- No tile starts past the end. -/
theorem tileStarts_eq_nil {first total block : Nat} (h : total ≤ first) :
    tileStarts first total block = [] := by
  have hNone : chunksOf (total - first) block = 0 := by
    rw [Nat.sub_eq_zero_of_le h, chunksOf, Nat.zero_add]
    cases block with
    | zero => rfl
    | succ n => exact Nat.div_eq_of_lt (by omega)
  rw [tileStarts, hNone]
  rfl

/-- The tiles of a loop come in order. -/
theorem pairwise_tileStarts {first total block : Nat} (hBlock : 0 < block) :
    (tileStarts first total block).Pairwise (· < ·) := by
  unfold tileStarts
  refine List.pairwise_map.mpr (List.pairwise_lt_range.imp ?_)
  intro a b hLess
  exact Nat.add_lt_add_left (Nat.mul_lt_mul_of_pos_right hLess hBlock) first

theorem nodup_tileStarts {first total block : Nat} (hBlock : 0 < block) :
    (tileStarts first total block).Nodup :=
  (pairwise_tileStarts hBlock).imp Nat.ne_of_lt

/-- The loop over all tiles from zero comes past the tile of every row. -/
theorem tileOf_mem_tileStarts {total block row : Nat} (hBlock : 0 < block) (hRow : row < total) :
    tileOf block row ∈ tileStarts 0 total block := by
  rw [mem_tileStarts hBlock]
  exact ⟨Nat.lt_of_le_of_lt (tileOf_le block row) hRow, row / block, (Nat.zero_add _).symm⟩

/-! ### First query tiles -/

/-- A key tile that attends to some query starts on a tile boundary. -/
theorem firstQueryTile_of_lt {policy : QueryStart} {keyStart numQueries blockI : Nat}
    (h : firstQueryTile policy keyStart numQueries blockI < numQueries) :
    ∃ n, firstQueryTile policy keyStart numQueries blockI = n * blockI := by
  unfold firstQueryTile at h ⊢
  dsimp only at h ⊢
  split at h
  · omega
  · rename_i hStart
    rw [if_neg hStart]
    exact ⟨_, rfl⟩

/-- The query loop of a key tile comes past the tile of a row just if it starts there or
before. -/
theorem tileOf_mem_queries {policy : QueryStart} {keyStart numQueries blockI row : Nat}
    (hBlock : 0 < blockI) (hRow : row < numQueries) :
    tileOf blockI row ∈
        tileStarts (firstQueryTile policy keyStart numQueries blockI) numQueries blockI ↔
      firstQueryTile policy keyStart numQueries blockI ≤ tileOf blockI row := by
  rw [mem_tileStarts hBlock]
  constructor
  · rintro ⟨-, n, h⟩
    omega
  · intro h
    have hTile := tileOf_le blockI row
    have hStart : firstQueryTile policy keyStart numQueries blockI < numQueries := by omega
    obtain ⟨n, hn⟩ := firstQueryTile_of_lt hStart
    refine ⟨by omega, row / blockI - n, ?_⟩
    have hLe : n ≤ row / blockI := by
      rw [hn] at h
      exact Nat.le_of_mul_le_mul_right h hBlock
    rw [hn, tileOf, Nat.sub_mul]
    have := Nat.mul_le_mul_right blockI hLe
    omega

end FusedAttention
