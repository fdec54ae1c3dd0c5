import Mathlib
import FusedAttention.Proofs.ExactSums

/-! Products of tiles as matrix products. Loops over checked entries, nested either way, leave the tiles
that the products are defined to be, and in exact arithmetic these are the sums over the shared
dimension. -/
namespace FusedAttention.Tile

variable {α : Type} {r c m n k width : Nat}

/-! ### Entries -/

theorem ext_get {t t' : Tile α r c} (h : ∀ i j, t.get i j = t'.get i j) : t = t' := by
  obtain ⟨data⟩ := t
  obtain ⟨data'⟩ := t'
  congr 1
  refine Vector.ext fun place hPlace => ?_
  obtain ⟨i, hi, j, hj, rfl⟩ := exists_mul_add hPlace
  exact h ⟨i, hi⟩ ⟨j, hj⟩

theorem entry_transpose [Zero α] (t : Tile α r c) {i j : Nat} (hi : i < r) (hj : j < c) :
    t.transpose.entry j i = t.entry i j := by
  rw [entry_of_lt _ hj hi, transpose, get_ofFn, entry_of_lt _ hi hj]

variable [Scalar α]

/-- Columns past the last one of the right factor keep their value. -/
theorem get_mulAdd_outside (t : Tile α m n) (a : Tile α m k) (b : Tile α k width) (depth : Nat)
    {offset : Nat} (i : Fin m) {j : Fin n} (hCol : width ≤ offset + j.val) :
    (t.mulAdd a b depth offset).get i j = t.get i j := by
  rw [mulAdd, get_ofFn, dif_neg (by omega)]

theorem transposeMulAdd_eq (t : Tile α m n) (a : Tile α k m) (b : Tile α k width) (depth offset : Nat) :
    t.transposeMulAdd a b depth offset = (List.range (min depth k)).foldl (fun t s =>
      t.addOuter (fun i => a.entry s i) (fun j : Fin width => b.entry s j) offset) t := by
  apply finFoldl_eq_foldl_range
  intro t s
  have hs : s.val < k := by omega
  simp only [entry_of_lt a hs (Fin.isLt _), entry_of_lt b hs (Fin.isLt _)]
  rfl

theorem get_transposeMulAdd_outside (t : Tile α m n) (a : Tile α k m) (b : Tile α k width) (depth : Nat)
    {offset : Nat} (i : Fin m) {j : Fin n} (hCol : width ≤ offset + j.val) :
    (t.transposeMulAdd a b depth offset).get i j = t.get i j := by
  rw [transposeMulAdd_eq]
  refine List.foldlRecOn (motive := fun t' : Tile α m n => t'.get i j = t.get i j) _ _ rfl fun t' h s _ => ?_
  rw [addOuter, get_ofFn, dif_neg (by omega), h]

/-- Outer products one after the other leave the tile that rows times columns leave. -/
theorem transposeMulAdd_eq_mulAdd (t : Tile α m n) (a : Tile α k m) (b : Tile α k width)
    (depth offset : Nat) : t.transposeMulAdd a b depth offset = t.mulAdd a.transpose b depth offset := by
  refine ext_get fun i j => ?_
  by_cases hCol : offset + j.val < width
  · rw [← entry_of_lt _ i.isLt j.isLt, ← entry_of_lt _ i.isLt j.isLt,
      entry_transposeMulAdd t a b depth i.isLt j.isLt hCol, entry_mulAdd t _ b depth i.isLt j.isLt hCol]
    refine addProducts_congr (fun s hs => ?_) (fun _ _ => rfl) _
    exact (entry_transpose a (by omega) i.isLt).symm
  · rw [get_transposeMulAdd_outside t a b depth i (by omega), get_mulAdd_outside t _ b depth i (by omega)]

/-! ### Loops -/

/-- An entry that has to be there. -/
def look (t : Tile α r c) (i j : Nat) : Except Fault α :=
  if i < r ∧ j < c then .ok (t.entry i j) else .error (.indexOutside (i * c + j) (r * c))

/-- Adds `x` to an entry that has to be there. -/
def addAt (t : Tile α r c) (i j : Nat) (x : α) : Except Fault (Tile α r c) :=
  if i < r ∧ j < c then
    .ok (ofFn fun i' j' => if i'.val = i ∧ j'.val = j then t.get i' j' + x else t.get i' j')
  else .error (.indexOutside (i * c + j) (r * c))

/-- Columns of the right factor that a tile of `n` columns sees from `offset` on. -/
def visibleCols (offset n width : Nat) : Nat :=
  min (width - offset) n

/-- Adds `x` times row `s` of the right factor to row `i` of the tile, as far as it is seen, unless `x` is
zero. -/
def addRow (b : Tile α k width) (offset i s : Nat) (x : α) (t : Tile α m n) : Except Fault (Tile α m n) :=
  if Scalar.isZero x then .ok t
  else (List.range (visibleCols offset n width)).foldlM (fun t j => do
    let y ← b.look s (offset + j)
    t.addAt i j (x * y)) t

/-- The loops of a product over the rows of the tile and the shared dimension, in a given order. -/
def addRows (look : Nat → Nat → Except Fault α) (b : Tile α k width) (offset : Nat)
    (order : List (Nat × Nat)) (t : Tile α m n) : Except Fault (Tile α m n) :=
  order.foldlM (fun t (i, s) => do
    let x ← look i s
    addRow b offset i s x t) t

/-- Row after row of the tile, and for each the shared dimension. -/
def rowsFirst (m depth : Nat) : List (Nat × Nat) :=
  (List.range m).flatMap fun i => (List.range depth).map fun s => (i, s)

/-- One place of the shared dimension after the other, and for each the rows of the tile. -/
def rowsLast (m depth : Nat) : List (Nat × Nat) :=
  (List.range depth).flatMap fun s => (List.range m).map fun i => (i, s)

variable {t : Tile α m n} {b : Tile α k width} {offset : Nat}

theorem look_eq (t : Tile α r c) {i j : Nat} (hi : i < r) (hj : j < c) :
    t.look i j = .ok (t.entry i j) :=
  if_pos ⟨hi, hj⟩

/-- One row is added column by column, and no entry is looked up that is not there. -/
theorem addRow_spec (t : Tile α m n) (b : Tile α k width) (offset : Nat) (x : α) {i s : Nat} (hi : i < m)
    (hs : s < k) : ∃ t', addRow b offset i s x t = .ok t' ∧ ∀ i' j', t'.get i' j' =
      if i'.val = i ∧ offset + j'.val < width then mulAddUnlessZero (t.get i' j') x (b.entry s (offset + j'))
      else t.get i' j' := by
  by_cases hZero : Scalar.isZero x = true
  · refine ⟨t, if_pos hZero, fun i' j' => ?_⟩
    rw [mulAddUnlessZero, if_pos hZero, ite_self]
  · have hUpTo : ∀ count ≤ visibleCols offset n width, ∃ t', (List.range count).foldlM (fun t j => do
          let y ← b.look s (offset + j)
          t.addAt i j (x * y)) t = .ok t' ∧ ∀ i' j', t'.get i' j' =
        if i'.val = i ∧ j'.val < count then t.get i' j' + x * b.entry s (offset + j') else t.get i' j' := by
      intro count hCount
      induction count with
      | zero => exact ⟨t, rfl, fun i' j' => (if_neg fun h => Nat.not_lt_zero _ h.2).symm⟩
      | succ count ih =>
          obtain ⟨t', hBefore, hEntries⟩ := ih (by omega)
          unfold visibleCols at hCount
          rw [List.range_succ, List.foldlM_append, hBefore, ok_bind, List.foldlM_cons,
            look_eq b hs (show offset + count < width by omega), ok_bind, addAt,
            if_pos ⟨hi, show count < n by omega⟩, ok_bind]
          refine ⟨_, rfl, fun i' j' => ?_⟩
          rw [get_ofFn, hEntries]
          by_cases hRow : i'.val = i <;> by_cases hCol : j'.val = count
          · subst hCol
            simp [hRow]
          · have hBefore : j'.val < count + 1 ↔ j'.val < count := by omega
            simp [hRow, hCol, hBefore]
          · simp [hRow]
          · simp [hRow]
    obtain ⟨t', hAll, hEntries⟩ := hUpTo _ (Nat.le_refl _)
    refine ⟨t', (if_neg hZero).trans hAll, fun i' j' => ?_⟩
    have hSeen : j'.val < visibleCols offset n width ↔ offset + j'.val < width := by
      unfold visibleCols
      omega
    simp only [hEntries, mulAddUnlessZero, if_neg hZero, hSeen]

/-- The loops never look up an entry that is not there. They collect in each entry the places of the
shared dimension that come with its row, in their order. -/
theorem addRows_spec {look : Nat → Nat → Except Fault α} (factor : Nat → Nat → α) (b : Tile α k width)
    (offset : Nat) {order : List (Nat × Nat)}
    (hOrder : ∀ step ∈ order, step.1 < m ∧ step.2 < k ∧ look step.1 step.2 = .ok (factor step.1 step.2))
    (t : Tile α m n) : ∃ t', addRows look b offset order t = .ok t' ∧ ∀ i j, t'.get i j =
      if offset + j.val < width then
        ((order.filter (·.1 = i.val)).map (·.2)).foldl (fun sum s =>
          mulAddUnlessZero sum (factor i s) (b.entry s (offset + j))) (t.get i j)
      else t.get i j := by
  induction order generalizing t with
  | nil => exact ⟨t, rfl, fun i j => (ite_self _).symm⟩
  | cons step rest ih =>
      obtain ⟨i, s⟩ := step
      obtain ⟨hi, hs, hLook⟩ := hOrder (i, s) List.mem_cons_self
      obtain ⟨t', hStep, hHere⟩ := addRow_spec t b offset (factor i s) hi hs
      obtain ⟨t'', hRest, hLater⟩ := ih (fun step h => hOrder step (List.mem_cons_of_mem _ h)) t'
      refine ⟨t'', ?_, fun i' j' => ?_⟩
      · rw [addRows, List.foldlM_cons]
        show ((look i s >>= fun x => addRow b offset i s x t) >>= _) = _
        rw [hLook, ok_bind, hStep, ok_bind]
        exact hRest
      · rw [hLater, hHere]
        by_cases hCol : offset + j'.val < width
        · by_cases hRow : i = i'.val
          · subst hRow
            simp [hCol]
          · simp [hCol, hRow, Ne.symm hRow]
        · simp [hCol]

/-! ### Both orders -/

omit [Scalar α] in
theorem filter_rowsFirst (m depth i : Nat) :
    ((rowsFirst m depth).filter (·.1 = i)).map (·.2) = if i < m then List.range depth else [] := by
  induction m with
  | zero => rfl
  | succ m ih =>
      have hSplit : rowsFirst (m + 1) depth =
          rowsFirst m depth ++ (List.range depth).map fun s => (m, s) := by
        rw [rowsFirst, List.range_succ, List.flatMap_append, List.flatMap_singleton]
        rfl
      rw [hSplit, List.filter_append, List.map_append, ih]
      rcases Nat.lt_trichotomy i m with hLess | rfl | hMore
      · rw [if_pos hLess, if_pos (by omega), List.filter_map]
        simp [Function.comp_def, Nat.ne_of_gt hLess]
      · rw [if_neg (Nat.lt_irrefl i), if_pos (by omega), List.filter_map]
        simp [Function.comp_def]
      · rw [if_neg (by omega), if_neg (by omega), List.filter_map]
        simp [Function.comp_def, Nat.ne_of_lt hMore]

omit [Scalar α] in
theorem filter_rowsLast {i : Nat} (hi : i < m) (depth : Nat) :
    ((rowsLast m depth).filter (·.1 = i)).map (·.2) = List.range depth := by
  induction depth with
  | zero => rfl
  | succ depth ih =>
      have hSplit : rowsLast m (depth + 1) =
          rowsLast m depth ++ (List.range m).map fun i => (i, depth) := by
        rw [rowsLast, List.range_succ, List.flatMap_append, List.flatMap_singleton]
        rfl
      have hOnce : (List.range m).filter (fun i' => i' = i) = [i] := by
        rw [List.filter_eq, List.count_eq_one_of_mem List.nodup_range (List.mem_range.mpr hi)]
        rfl
      rw [hSplit, List.filter_append, List.map_append, ih, List.filter_map]
      simp only [Function.comp_def, hOnce, List.map_cons, List.map_nil]
      rw [List.range_succ]

/-- The loops leave the product in every order that comes to the places of the shared dimension in turn
for each row. -/
theorem addRows_eq_mulAdd {look : Nat → Nat → Except Fault α} {a : Tile α m k} (b : Tile α k width)
    {depth : Nat} (offset : Nat) {order : List (Nat × Nat)}
    (hLook : ∀ i < m, ∀ s < k, look i s = .ok (a.entry i s))
    (hIn : ∀ step ∈ order, step.1 < m ∧ step.2 < min depth k)
    (hRows : ∀ i < m, (order.filter (·.1 = i)).map (·.2) = List.range (min depth k)) (t : Tile α m n) :
    addRows look b offset order t = .ok (t.mulAdd a b depth offset) := by
  obtain ⟨t', hLoops, hEntries⟩ := addRows_spec (fun i s => a.entry i s) b offset
    (fun step hStep => ⟨(hIn step hStep).1, by have := hIn step hStep; omega,
      hLook _ (hIn step hStep).1 _ (by have := hIn step hStep; omega)⟩) t
  rw [hLoops]
  refine congrArg Except.ok (ext_get fun i j => ?_)
  rw [hEntries, hRows i i.isLt]
  split
  · rename_i hCol
    rw [← entry_of_lt (t.mulAdd a b depth offset) i.isLt j.isLt, entry_mulAdd t a b depth i.isLt j.isLt hCol,
      addProducts, entry_of_lt t i.isLt j.isLt]
  · rename_i hCol
    rw [get_mulAdd_outside t a b depth i (by omega)]

/-- The product as loops over checked entries: the rows of the left factor, and of each the leading
entries. -/
def mulAddLoops (t : Tile α m n) (a : Tile α m k) (b : Tile α k width) (depth offset : Nat) :
    Except Fault (Tile α m n) :=
  addRows a.look b offset (rowsFirst m (min depth k)) t

/-- The product with a left factor that is stored as its transpose: its leading rows, and of each the
entries. -/
def transposeMulAddLoops (t : Tile α m n) (a : Tile α k m) (b : Tile α k width) (depth offset : Nat) :
    Except Fault (Tile α m n) :=
  addRows (fun i s => a.look s i) b offset (rowsLast m (min depth k)) t

theorem mulAddLoops_eq (t : Tile α m n) (a : Tile α m k) (b : Tile α k width) (depth offset : Nat) :
    t.mulAddLoops a b depth offset = .ok (t.mulAdd a b depth offset) := by
  refine addRows_eq_mulAdd b offset (fun i hi s hs => look_eq a hi hs) ?_ (fun i hi => ?_) t
  · rintro ⟨i, s⟩ hStep
    simpa [rowsFirst] using hStep
  · rw [filter_rowsFirst, if_pos hi]

theorem transposeMulAddLoops_eq (t : Tile α m n) (a : Tile α k m) (b : Tile α k width)
    (depth offset : Nat) :
    t.transposeMulAddLoops a b depth offset = .ok (t.transposeMulAdd a b depth offset) := by
  rw [transposeMulAdd_eq_mulAdd]
  refine addRows_eq_mulAdd b offset (fun i hi s hs => ?_) ?_ (fun i hi => filter_rowsLast hi _) t
  · rw [look_eq a hs hi, entry_transpose a hs hi]
  · rintro ⟨i, s⟩ hStep
    have h : s < min depth k ∧ i < m := by simpa [rowsLast] using hStep
    exact h.symm

/-! ### Exact products -/

section Exact

variable {α : Type} [ExactScalar α]

theorem get_mulAdd_exact (t : Tile α m n) (a : Tile α m k) (b : Tile α k width) (depth : Nat) {offset : Nat}
    (i : Fin m) {j : Fin n} (hCol : offset + j.val < width) :
    (t.mulAdd a b depth offset).get i j =
      t.get i j + ∑ s ∈ Finset.range (min depth k), a.entry i s * b.entry s (offset + j) := by
  rw [← entry_of_lt _ i.isLt j.isLt, entry_mulAdd t a b depth i.isLt j.isLt hCol, addProducts_eq,
    entry_of_lt t i.isLt j.isLt]

/-- A right factor that is stored as its transpose gives the same product. -/
theorem mulTransposeAdd_eq_mulAdd (t : Tile α m n) (a : Tile α m k) (b : Tile α n k) (depth : Nat) :
    t.mulTransposeAdd a b depth = t.mulAdd a b.transpose depth 0 := by
  refine ext_get fun i j => ?_
  rw [get_mulTransposeAdd, dot_eq, get_mulAdd_exact t a _ depth i (by omega)]
  refine congrArg _ (Finset.sum_congr rfl fun s hs => ?_)
  have hShared : s < k := by
    have := Finset.mem_range.mp hs
    omega
  rw [Nat.zero_add, entry_transpose b j.isLt hShared]

end Exact

/-- Column `col` of a product that is computed in chunks of `n` columns is one column of one chunk. -/
theorem chunk_unique {col : Nat} {place place' : Nat × Fin n}
    (h : place.1 * n + place.2.val = col) (h' : place'.1 * n + place'.2.val = col) : place = place' := by
  obtain ⟨hChunk, hCol⟩ := mul_add_inj place.2.isLt place'.2.isLt (h.trans h'.symm)
  exact Prod.ext hChunk (Fin.ext hCol)

/-- Products of tiles of all extents, to any depth and from any column on. Whatever the arithmetic,
columns past the last one of the right factor keep their value, the loops over the entries look up none
that is not there and leave the tile of the definition, and the loops the other way round leave the one
that the transposed left factor gives. In exact arithmetic a column in sight gains the sum over the
leading places of the shared dimension, the product with a transposed right factor is the product with
its transpose, and each column of a product in chunks is gained by one column of one chunk. -/
theorem products_exact (m n k width depth offset : Nat) :
    (∀ {α : Type} [Scalar α] (t : Tile α m n) (b : Tile α k width),
      (∀ a : Tile α m k, t.mulAddLoops a b depth offset = .ok (t.mulAdd a b depth offset) ∧
        ∀ i (j : Fin n), width ≤ offset + j.val → (t.mulAdd a b depth offset).get i j = t.get i j) ∧
      ∀ a : Tile α k m,
        t.transposeMulAddLoops a b depth offset = .ok (t.transposeMulAdd a b depth offset) ∧
        t.transposeMulAdd a b depth offset = t.mulAdd a.transpose b depth offset) ∧
    ∀ {α : Type} [ExactScalar α] (t : Tile α m n) (a : Tile α m k),
      (∀ b : Tile α k width, ∀ i (j : Fin n), offset + j.val < width →
        (t.mulAdd a b depth offset).get i j =
          t.get i j + ∑ s ∈ Finset.range (min depth k), a.entry i s * b.entry s (offset + j)) ∧
      (∀ b : Tile α n k, t.mulTransposeAdd a b depth = t.mulAdd a b.transpose depth 0) ∧
      (0 < n → ∀ (b : Tile α k width) (ts : Nat → Tile α m n), ∀ col < width,
        ∃! place : Nat × Fin n, place.1 < chunksOf width n ∧ place.1 * n + place.2 = col ∧
          ∀ i, ((ts place.1).mulAdd a b depth (place.1 * n)).get i place.2 = (ts place.1).get i place.2 +
            ∑ s ∈ Finset.range (min depth k), a.entry i s * b.entry s col) := by
  refine ⟨fun t b => ⟨fun a => ⟨mulAddLoops_eq t a b depth offset, fun i j hCol =>
      get_mulAdd_outside t a b depth i hCol⟩, fun a => ⟨transposeMulAddLoops_eq t a b depth offset,
        transposeMulAdd_eq_mulAdd t a b depth offset⟩⟩,
    fun t a => ⟨fun b i j hCol => get_mulAdd_exact t a b depth i hCol,
      fun b => mulTransposeAdd_eq_mulAdd t a b depth, fun hn b ts col hCol => ?_⟩⟩
  have hPlace : col / n * n + col % n = col := Nat.div_add_mod' col n
  refine ⟨(col / n, ⟨col % n, Nat.mod_lt col hn⟩), ⟨div_lt_chunksOf hn hCol, hPlace, fun i => ?_⟩,
    fun place h => chunk_unique h.2.1 hPlace⟩
  rw [get_mulAdd_exact (ts (col / n)) a b depth i (show col / n * n + col % n < width by omega)]
  simp only [hPlace]

/-- A product with three columns in chunks of two: the second chunk has one of them in sight, and the last
column is gained once. -/
theorem products_exact_raggedChunk :
    let t : Tile Int 1 2 := fill 1
    let a : Tile Int 1 2 := ofFn fun _ s => s.val
    let b : Tile Int 2 3 := ofFn fun s col => 10 * s.val + col.val
    t.mulAddLoops a b 5 2 = .ok (t.mulAdd a b 5 2) ∧
    (t.mulAdd a b 5 2).get 0 0 = 13 ∧ (t.mulAdd a b 5 2).get 0 1 = 1 ∧
    ∃! place : Nat × Fin 2, place.1 < chunksOf 3 2 ∧ place.1 * 2 + place.2 = 2 ∧
      ∀ i, (t.mulAdd a b 5 (place.1 * 2)).get i place.2 = t.get i place.2 +
        ∑ s ∈ Finset.range (min 5 2), a.entry i s * b.entry s 2 := by
  intro t a b
  obtain ⟨hAll, hExact⟩ := products_exact 1 2 2 3 5 2
  obtain ⟨hLoops, hKept⟩ := (hAll t b).1 a
  obtain ⟨hSum, -, hChunks⟩ := hExact t a
  refine ⟨hLoops, (hSum b 0 0 (by decide)).trans ?_, (hKept 0 1 (by decide)).trans ?_,
    hChunks (by decide) b (fun _ => t) 2 (by decide)⟩
  · decide
  · decide

end FusedAttention.Tile
