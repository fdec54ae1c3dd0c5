import FusedAttention.Proofs.Steps
import FusedAttention.Proofs.Tiling
import FusedAttention.Window

/-! Flat buffers under runs and windows: which elements a write changes, and that accesses
inside a buffer succeed. -/
namespace FusedAttention

variable {τ : Type}

/-! ### Runs -/

theorem sliceOf_eq {data : Array τ} {start length : Nat} (h : start + length ≤ data.size) :
    sliceOf data start length = .ok (data.extract start (start + length)) := by
  rw [sliceOf, if_pos h]

/-- A buffer that need not be there has not come, gone or changed its length. -/
theorem exists_of_size_eq {before after : Option (Array τ)}
    (hSize : after.map (·.size) = before.map (·.size)) {data : Array τ} (hData : data ∈ after) :
    ∃ prior, before = some prior ∧ prior.size = data.size := by
  rw [Option.mem_def.mp hData, Option.map_some] at hSize
  exact Option.map_eq_some_iff.mp hSize.symm

@[simp] theorem size_updateRun (data : Array τ) (start length : Nat) (f : Nat → τ → τ) :
    (updateRun data start length f).size = data.size := by
  unfold updateRun
  induction length with
  | zero => rw [Nat.fold_zero]
  | succ n ih => rw [Nat.fold_succ, Array.size_modify, ih]

theorem getElem?_updateRun (data : Array τ) (start length : Nat) (f : Nat → τ → τ) (p : Nat) :
    (updateRun data start length f)[p]? =
      if start ≤ p ∧ p < start + length then data[p]?.map (f (p - start)) else data[p]? := by
  unfold updateRun
  induction length with
  | zero => rw [Nat.fold_zero, if_neg (by omega)]
  | succ n ih =>
      rw [Nat.fold_succ, Array.getElem?_modify, ih]
      by_cases hLast : start + n = p
      · subst hLast
        rw [if_pos rfl, if_neg (by omega), if_pos (by omega), Nat.add_sub_cancel_left]
      · rw [if_neg hLast]
        by_cases hIn : start ≤ p ∧ p < start + n
        · rw [if_pos hIn, if_pos (by omega)]
        · rw [if_neg hIn, if_neg (by omega)]

theorem updateRun_congr {data : Array τ} {start length : Nat} {f g : Nat → τ → τ}
    (h : ∀ c < length, f c = g c) : updateRun data start length f = updateRun data start length g := by
  apply Array.ext_getElem?
  intro p
  rw [getElem?_updateRun, getElem?_updateRun]
  split
  · rw [h (p - start) (by omega)]
  · rfl

/-- The first elements of a run that is written inside a buffer replace those they cover. -/
theorem writeRun_upTo {data : Array τ} {start : Nat} {values : Array τ}
    (h : start + values.size ≤ data.size) {n : Nat} (hn : n ≤ values.size) :
    (Nat.fold n (fun c hc data => data.setIfInBounds (start + c) (values[c]))
        data).size = data.size ∧
      ∀ p, (Nat.fold n (fun c hc data => data.setIfInBounds (start + c) (values[c]))
        data)[p]? = if start ≤ p ∧ p < start + n then values[p - start]? else data[p]? := by
  induction n with
  | zero =>
      refine ⟨by rw [Nat.fold_zero], fun p => ?_⟩
      rw [Nat.fold_zero, if_neg (by omega)]
  | succ n ih =>
      obtain ⟨hSize, hPrior⟩ := ih (by omega)
      refine ⟨by rw [Nat.fold_succ, Array.size_setIfInBounds, hSize], fun p => ?_⟩
      rw [Nat.fold_succ, Array.getElem?_setIfInBounds, hPrior, hSize]
      by_cases hLast : start + n = p
      · subst hLast
        rw [if_pos rfl, if_pos (by omega), if_pos (by omega), Nat.add_sub_cancel_left,
          Array.getElem?_eq_getElem (by omega)]
      · rw [if_neg hLast]
        by_cases hIn : start ≤ p ∧ p < start + n
        · rw [if_pos hIn, if_pos (by omega)]
        · rw [if_neg hIn, if_neg (by omega)]

@[simp] theorem size_writeRun {data : Array τ} {start : Nat} {values : Array τ}
    (h : start + values.size ≤ data.size) : (writeRun data start values).size = data.size :=
  (writeRun_upTo h (Nat.le_refl _)).1

theorem getElem?_writeRun {data : Array τ} {start : Nat} {values : Array τ}
    (h : start + values.size ≤ data.size) (p : Nat) :
    (writeRun data start values)[p]? =
      if start ≤ p ∧ p < start + values.size then values[p - start]? else data[p]? :=
  (writeRun_upTo h (Nat.le_refl _)).2 p

/-- A part of a buffer written back where it was taken. -/
theorem writeRun_extract {data : Array τ} {start length : Nat}
    (h : start + length ≤ data.size) :
    writeRun data start (data.extract start (start + length)) = data := by
  have hSize : (data.extract start (start + length)).size = length := by
    rw [Array.size_extract]
    omega
  apply Array.ext_getElem?
  intro p
  rw [getElem?_writeRun (by omega), hSize]
  split
  · rw [Array.getElem?_extract, if_pos (by omega)]
    congr 1
    omega
  · rfl

/-- Runs with the same elements are the same. -/
theorem extract_congr {data data' : Array τ} {start start' length : Nat}
    (h : start + length ≤ data.size) (h' : start' + length ≤ data'.size)
    (hSame : ∀ c < length, data[start + c]? = data'[start' + c]?) :
    data.extract start (start + length) = data'.extract start' (start' + length) := by
  apply Array.ext_getElem?
  intro c
  rw [Array.getElem?_extract, Array.getElem?_extract, Nat.min_eq_left h, Nat.min_eq_left h',
    Nat.add_sub_cancel_left, Nat.add_sub_cancel_left]
  split
  · exact hSame c ‹_›
  · rfl

/-- What is written over a run is read back from it. -/
theorem extract_writeRun {data values : Array τ} {start length : Nat}
    (hValues : values.size = length) (h : start + length ≤ data.size) :
    (writeRun data start values).extract start (start + length) = values := by
  subst hValues
  apply Array.ext_getElem?
  intro p
  rw [Array.getElem?_extract, size_writeRun h, getElem?_writeRun h]
  by_cases hp : p < values.size
  · rw [if_pos (by omega), if_pos (by omega), Nat.add_sub_cancel_left]
  · rw [if_neg (by omega), Array.getElem?_eq_none (by omega)]

/-- A run that lies apart stays as it is. -/
theorem extract_writeRun_apart {data values : Array τ} {start from' length : Nat}
    (h : start + values.size ≤ data.size)
    (hApart : start + values.size ≤ from' ∨ from' + length ≤ start) :
    (writeRun data start values).extract from' (from' + length) =
      data.extract from' (from' + length) := by
  apply Array.ext_getElem?
  intro p
  rw [Array.getElem?_extract, Array.getElem?_extract, size_writeRun h, getElem?_writeRun h]
  split
  · rw [if_neg (by omega)]
  · rfl

theorem getElem?_eq_some_getD {data : Array τ} {p : Nat} {default : τ}
    (h : p < data.size) : data[p]? = some (data[p]?.getD default) := by
  rw [Array.getElem?_eq_getElem h, Option.getD_some]

/-- Two buffers of one length have the same elements where they have the same values. -/
theorem getElem?_eq_of_getD {data data' : Array τ} {default : τ} {p : Nat}
    (hSize : data.size = data'.size) (h : data[p]?.getD default = data'[p]?.getD default) :
    data[p]? = data'[p]? := by
  by_cases hp : p < data.size
  · have hSome : data'[p]? = some (data'[p]?.getD default) := getElem?_eq_some_getD (hSize ▸ hp)
    rw [hSome, ← h]
    exact getElem?_eq_some_getD hp
  · rw [Array.getElem?_eq_none (by omega), Array.getElem?_eq_none (by omega)]

/-- Buffers of one length that are put one after the other keep their elements in their order. -/
theorem join_spec {f : Nat → Array τ} {rows length : Nat} (hLength : ∀ n < rows, (f n).size = length) :
    (((List.range rows).map f).foldl (· ++ ·) #[]).size = rows * length ∧
      ∀ row < rows, ∀ col < length,
        (((List.range rows).map f).foldl (· ++ ·) #[])[row * length + col]? = (f row)[col]? := by
  induction rows with
  | zero => simp
  | succ rows ih =>
      obtain ⟨hSize, hEntries⟩ := ih fun n hn => hLength n (by omega)
      rw [List.range_succ, List.map_append, List.foldl_append]
      refine ⟨?_, fun row hRow col hCol => ?_⟩
      · simp [hSize, hLength rows (by omega), Nat.succ_mul]
      · rw [List.map_singleton, List.foldl_cons, List.foldl_nil]
        rcases Nat.lt_succ_iff_lt_or_eq.mp hRow with hEarlier | rfl
        · have hPlace := mul_add_lt hEarlier hCol
          rw [Array.getElem?_append_left (by omega)]
          exact hEntries row hEarlier col hCol
        · rw [Array.getElem?_append_right (by omega), hSize, Nat.add_sub_cancel_left]

/-! ### Windows -/

namespace Window

/-- A block of a window lies inside a buffer of `size` elements, and no two of its entries
share an address. -/
structure Fits (w : Window) (rows cols size : Nat) : Prop where
  within : ∀ row < rows, w.rowStart row + cols ≤ size
  injective : ∀ row < rows, ∀ col < cols, ∀ row' < rows, ∀ col' < cols,
    w.rowStart row + col = w.rowStart row' + col' → row = row' ∧ col = col'

@[simp] theorem rowStart_sub (w : Window) (row col r : Nat) :
    (w.sub row col).rowStart r = w.rowStart (row + r) + col := by
  simp only [rowStart, sub, Nat.add_mul]
  omega

/-- Part of a block that fits fits. -/
theorem Fits.sub {w : Window} {rows cols size : Nat} (hFits : w.Fits rows cols size)
    {row col rows' cols' : Nat} (hRows : row + rows' ≤ rows) (hCols : col + cols' ≤ cols) :
    (w.sub row col).Fits rows' cols' size where
  within r hr := by
    have := hFits.within (row + r) (by omega)
    rw [rowStart_sub]
    omega
  injective r hr c hc r' hr' c' hc' h := by
    rw [rowStart_sub, rowStart_sub] at h
    have := hFits.injective (row + r) (by omega) (col + c) (by omega) (row + r') (by omega)
      (col + c') (by omega) (by omega)
    omega

/-- Fewer rows of a block that fits fit. -/
theorem Fits.mono {w : Window} {rows rows' cols size : Nat} (hFits : w.Fits rows cols size)
    (hRows : rows' ≤ rows) : w.Fits rows' cols size where
  within r hr := hFits.within r (by omega)
  injective r hr c hc r' hr' c' hc' h :=
    hFits.injective r (by omega) c hc r' (by omega) c' hc' h

theorem row_eq {w : Window} {data : Array τ} {row length : Nat}
    (h : w.rowStart row + length ≤ data.size) :
    w.row data row length =
      .ok (data.extract (w.rowStart row) (w.rowStart row + length)) :=
  sliceOf_eq h

theorem updateRow_eq {w : Window} {data : Array τ} {row length : Nat} (f : Nat → τ → τ)
    (h : w.rowStart row + length ≤ data.size) :
    w.updateRow data row length f = .ok (updateRun data (w.rowStart row) length f) := by
  unfold updateRow rowWithin
  rw [if_pos h, ok_bind]
  rfl

/-- No element outside the leading block of a window has changed. -/
structure KeepsOutside (w : Window) (rows cols : Nat) (data after : Array τ) : Prop where
  size : after.size = data.size
  same : ∀ p, (∀ row < rows, ∀ col < cols, p ≠ w.rowStart row + col) → after[p]? = data[p]?

theorem KeepsOutside.refl (w : Window) (rows cols : Nat) (data : Array τ) :
    w.KeepsOutside rows cols data data :=
  ⟨rfl, fun _ _ => rfl⟩

theorem KeepsOutside.trans {w : Window} {rows cols : Nat} {data middle after : Array τ}
    (hFirst : w.KeepsOutside rows cols data middle)
    (hSecond : w.KeepsOutside rows cols middle after) : w.KeepsOutside rows cols data after :=
  ⟨hSecond.size.trans hFirst.size, fun p hp => (hSecond.same p hp).trans (hFirst.same p hp)⟩

/-- The leading block of a window has been replaced entry by entry, and nothing else. -/
structure BlockUpdate (w : Window) (rows cols : Nat) (f : Nat → Nat → τ → τ)
    (data after : Array τ) : Prop where
  size : after.size = data.size
  inside : ∀ row < rows, ∀ col < cols,
    after[w.rowStart row + col]? = data[w.rowStart row + col]?.map (f row col)
  outside : ∀ p, (∀ row < rows, ∀ col < cols, p ≠ w.rowStart row + col) → after[p]? = data[p]?

namespace BlockUpdate

variable {w : Window} {rows cols : Nat} {f g : Nat → Nat → τ → τ} {data middle after after' : Array τ}

theorem trans (hFirst : w.BlockUpdate rows cols f data middle)
    (hSecond : w.BlockUpdate rows cols g middle after) :
    w.BlockUpdate rows cols (fun i j old => g i j (f i j old)) data after where
  size := hSecond.size.trans hFirst.size
  inside row hRow col hCol := by
    rw [hSecond.inside row hRow col hCol, hFirst.inside row hRow col hCol, Option.map_map]
    rfl
  outside p hp := (hSecond.outside p hp).trans (hFirst.outside p hp)

theorem congr (h : w.BlockUpdate rows cols f data after)
    (hSame : ∀ i < rows, ∀ j < cols, ∀ old, f i j old = g i j old) :
    w.BlockUpdate rows cols g data after where
  size := h.size
  inside row hRow col hCol := by
    rw [h.inside row hRow col hCol, funext (hSame row hRow col hCol)]
  outside := h.outside

/-- What is written to a block leaves nothing open. -/
theorem unique (h : w.BlockUpdate rows cols f data after)
    (h' : w.BlockUpdate rows cols f data after') : after = after' := by
  apply Array.ext_getElem?
  intro p
  by_cases hIn : ∃ row < rows, ∃ col < cols, p = w.rowStart row + col
  · obtain ⟨row, hRow, col, hCol, rfl⟩ := hIn
    rw [h.inside row hRow col hCol, h'.inside row hRow col hCol]
  · have hOut : ∀ row < rows, ∀ col < cols, p ≠ w.rowStart row + col :=
      fun row hRow col hCol hp => hIn ⟨row, hRow, col, hCol, hp⟩
    rw [h.outside p hOut, h'.outside p hOut]

end BlockUpdate

/-- Writing a block row by row inside a buffer succeeds and touches the block alone. -/
theorem foldlM_updateRun {w : Window} {rows cols : Nat} {f : Nat → Nat → τ → τ} {data : Array τ}
    {step : Array τ → Nat → Except Fault (Array τ)} (hFits : w.Fits rows cols data.size)
    (hStep : ∀ now : Array τ, now.size = data.size → ∀ row < rows,
      step now row = .ok (updateRun now (w.rowStart row) cols (f row))) :
    ∃ after, (List.range rows).foldlM step data = .ok after ∧
      BlockUpdate w rows cols f data after := by
  obtain ⟨after, hRun, hSize, hSteps⟩ := foldlM_steps
    (fun now => now.size = data.size)
    (fun now row next => next = updateRun now (w.rowStart row) cols (f row))
    (fun now row hRow hNow => ⟨_, hStep now hNow row (List.mem_range.mp hRow),
      by rw [size_updateRun, hNow], rfl⟩) rfl
  refine ⟨after, hRun, hSize, fun row hRow col hCol => ?_, fun p hp => ?_⟩
  · refine hSteps.observe_once List.nodup_range (List.mem_range.mpr hRow)
      (fun now => now[w.rowStart row + col]?) (Option.map (f row col)) ?_ ?_
    · rintro now next rfl
      rw [getElem?_updateRun, if_pos (by omega), Nat.add_sub_cancel_left]
    · rintro now next r hr hOther rfl
      rw [getElem?_updateRun, if_neg]
      rintro ⟨hLow, hHigh⟩
      exact hOther (hFits.injective r (List.mem_range.mp hr)
        (w.rowStart row + col - w.rowStart r) (by omega) row hRow col hCol (by omega)).1
  · refine hSteps.frame (fun now => now[p]?) ?_
    rintro now next r hr rfl
    rw [getElem?_updateRun, if_neg]
    rintro ⟨hLow, hHigh⟩
    exact hp r (List.mem_range.mp hr) (p - w.rowStart r) (by omega) (by omega)

theorem fillRows_spec {w : Window} {rows cols : Nat} {data : Array τ} (value : τ)
    (hFits : w.Fits rows cols data.size) :
    ∃ after, w.fillRows data rows cols value = .ok after ∧
      BlockUpdate w rows cols (fun _ _ _ => value) data after :=
  foldlM_updateRun hFits fun now hNow row hRow =>
    updateRow_eq _ (by rw [hNow]; exact hFits.within row hRow)

end Window

end FusedAttention
