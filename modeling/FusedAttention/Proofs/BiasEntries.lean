import FusedAttention.Kernel.Unit
import FusedAttention.Proofs.Stages
import FusedAttention.Proofs.Tiling

/-! The biases of one unit entry by entry: what a pair of tiles reads of them, and what it adds to
their gradients. -/
namespace FusedAttention

variable {α ε : Type}

namespace Shape

variable {s : Shape}

/-- The groups of batches that share a pair bias cover all batches. -/
theorem biasGroups_mul (hGroups : s.batch % s.groupSize = 0) :
    s.biasGroups * s.groupSize = s.batch :=
  Nat.div_mul_cancel (Nat.dvd_of_mod_eq_zero hGroups)

theorem group_lt (hGroups : s.batch % s.groupSize = 0) {b : Nat} (hb : b < s.batch) :
    b / s.groupSize < s.biasGroups :=
  Nat.div_lt_of_lt_mul (by rwa [Nat.mul_comm, biasGroups_mul hGroups])

end Shape

namespace BiasKind

/-- Address of the entry of a bias that one query and key of a unit meet. -/
def address (kind : BiasKind) (s : Shape) (u : UnitCoord) (query key : Nat) : Nat :=
  kind.unitOffset s u + query * kind.queryStride s + key

theorem keyMask_address (s : Shape) (u : UnitCoord) (query key : Nat) :
    keyMask.address s u query key = u.batchId * s.numKeys + key := by
  rw [address, unitOffset, queryStride, Nat.mul_zero, Nat.add_zero]

theorem pairBias_address (s : Shape) (u : UnitCoord) (query key : Nat) :
    pairBias.address s u query key = ((u.batchId / s.groupSize * s.heads + u.head) * s.numQueries +
      query) * s.numKeys + key := by
  simp only [address, unitOffset, queryStride, Shape.scoresPerHead, Nat.add_mul, Nat.mul_assoc]

theorem rowStart_window (kind : BiasKind) (s : Shape) (u : UnitCoord)
    (queryStart keyStart i j : Nat) :
    (kind.window s u queryStart keyStart).rowStart i + j =
      kind.address s u (queryStart + i) (keyStart + j) := by
  simp only [window, Window.rowStart, address, Nat.add_mul]
  omega

/-- Every entry that a unit meets is there. -/
theorem address_lt (kind : BiasKind) {s : Shape} {u : UnitCoord} {query key : Nat}
    (hBatch : u.batchId < s.batch) (hHead : u.head < s.heads) (hGroup : s.batch % s.groupSize = 0)
    (hQuery : query < s.numQueries) (hKey : key < s.numKeys) :
    kind.address s u query key < kind.size s := by
  cases kind with
  | keyMask =>
      rw [keyMask_address]
      simpa [size, dims, extent] using mul_add_lt hBatch hKey
  | pairBias =>
      have hIndex := Shape.group_lt hGroup hBatch
      have hRow := mul_add_lt (mul_add_lt (mul_add_lt hIndex hHead) hQuery) hKey
      rw [pairBias_address]
      simpa [size, dims, extent, Nat.mul_assoc] using hRow

end BiasKind

/-- A pair of tiles lies within the shape of its unit, and tiles of `r` by `c` can hold it. -/
structure TileExtent.Within (pair : TileExtent) (s : Shape) (u : UnitCoord) (r c : Nat) : Prop where
  batch : u.batchId < s.batch
  head : u.head < s.heads
  groups : s.batch % s.groupSize = 0
  queries : pair.queryStart + pair.rowsI ≤ s.numQueries
  keys : pair.keyStart + pair.rowsJ ≤ s.numKeys
  rowsI_pos : 0 < pair.rowsI
  rowsJ_pos : 0 < pair.rowsJ
  rowsI_le : pair.rowsI ≤ r
  rowsJ_le : pair.rowsJ ≤ c

theorem TileExtent.Within.address_lt {pair : TileExtent} {s : Shape} {u : UnitCoord} {r c : Nat}
    (h : pair.Within s u r c) (kind : BiasKind) {i j : Nat} (hi : i < pair.rowsI)
    (hj : j < pair.rowsJ) :
    kind.address s u (pair.queryStart + i) (pair.keyStart + j) < kind.size s :=
  kind.address_lt h.batch h.head h.groups
    (Nat.lt_of_lt_of_le (Nat.add_lt_add_left hi _) h.queries)
    (Nat.lt_of_lt_of_le (Nat.add_lt_add_left hj _) h.keys)

/-- Every row of a pair lies inside a bias that holds all its entries. -/
theorem TileExtent.Within.rowStart_le {pair : TileExtent} {s : Shape} {u : UnitCoord} {r c : Nat}
    (h : pair.Within s u r c) (kind : BiasKind) {i : Nat} (hi : i < pair.rowsI) :
    (kind.window s u pair.queryStart pair.keyStart).rowStart i + pair.rowsJ ≤ kind.size s := by
  have hPos := h.rowsJ_pos
  have hLast := h.address_lt kind hi (show pair.rowsJ - 1 < pair.rowsJ by omega)
  rw [← BiasKind.rowStart_window] at hLast
  omega

namespace BiasKind

/-- Entries that lie at one address are met by the same key, and by the same query if the bias
has an entry for each. -/
theorem address_inj {kind : BiasKind} {s : Shape} {u : UnitCoord} {query key query' key' : Nat}
    (hKey : key < s.numKeys) (hKey' : key' < s.numKeys)
    (h : kind.address s u query key = kind.address s u query' key') :
    key = key' ∧ (kind = .pairBias → query = query') := by
  cases kind with
  | keyMask =>
      simp only [address, queryStride, Nat.mul_zero] at h
      exact ⟨by omega, fun hKind => nomatch hKind⟩
  | pairBias =>
      rw [address, address, Nat.add_assoc, Nat.add_assoc] at h
      obtain ⟨hQuery, hSame⟩ := mul_add_inj hKey hKey' (Nat.add_left_cancel h)
      exact ⟨hSame, fun _ => hQuery⟩

/-- All queries of a unit meet the same entry of a key mask. -/
theorem address_keyMask (s : Shape) (u : UnitCoord) (query query' key : Nat) :
    keyMask.address s u query key = keyMask.address s u query' key := by
  rw [keyMask_address, keyMask_address]

variable [Scalar α]

/-- What the pair of a query tile and a key adds to the entry of a bias gradient that one of its
queries and the key meet: a key mask has one entry for all queries. -/
def share (kind : BiasKind) (x : UnitValues α) (queryStart rows query key : Nat) : α :=
  match kind with
  | .keyMask => (List.range rows).foldl (fun sum i => sum + x.gradScore (queryStart + i) key) 0
  | .pairBias => x.gradScore query key

/-- The score gradients of a pair have been added to a bias gradient, and nothing else. -/
structure Adds (kind : BiasKind) (s : Shape) (u : UnitCoord) (pair : TileExtent) (x : UnitValues α)
    (grad after : Array α) : Prop where
  size : after.size = grad.size
  inside : ∀ i < pair.rowsI, ∀ j < pair.rowsJ,
    after[kind.address s u (pair.queryStart + i) (pair.keyStart + j)]? =
      grad[kind.address s u (pair.queryStart + i) (pair.keyStart + j)]?.map
        (· + kind.share x pair.queryStart pair.rowsI (pair.queryStart + i) (pair.keyStart + j))
  outside : ∀ p, (∀ i < pair.rowsI, ∀ j < pair.rowsJ,
    p ≠ kind.address s u (pair.queryStart + i) (pair.keyStart + j)) → after[p]? = grad[p]?

variable {r c : Nat} {s : Shape} {u : UnitCoord} {pair : TileExtent} {x : UnitValues α}
  {ds : Tile α r c}

/-- The sum of one column of a tile, from the first row on. -/
theorem addColumnSums_getD {rows cols j : Nat} (hRows : rows ≤ r) (hCols : cols ≤ c)
    (hj : j < cols) : (ds.addColumnSums rows (Array.replicate cols 0)).getD j 0 =
      (List.range rows).foldl (fun sum i => sum + ds.entry i j) 0 := by
  have hSize : j < (ds.addColumnSums rows (Array.replicate cols 0)).size := by
    rw [Tile.addColumnSums, Array.size_mapIdx, Array.size_replicate]
    exact hj
  rw [Array.getD_eq_getD_getElem?, Array.getElem?_eq_getElem hSize, Option.getD_some]
  simp only [Tile.addColumnSums, Array.getElem_mapIdx, Array.getElem_replicate]
  rw [if_pos (by omega), Nat.min_eq_left hRows]
  exact finFoldl_eq_foldl_range rows _ (fun sum i => sum + ds.entry i j) (fun _ _ => rfl) 0

theorem addColumns_spec {grad : Array α} (hWithin : pair.Within s u r c)
    (hScores : ∀ i < pair.rowsI, ∀ j < pair.rowsJ,
      ds.entry i j = x.gradScore (pair.queryStart + i) (pair.keyStart + j))
    (hSize : keyMask.size s ≤ grad.size) :
    ∃ after, addColumns (keyMask.window s u pair.queryStart pair.keyStart) ds pair.rowsI pair.rowsJ
        grad = .ok after ∧ keyMask.Adds s u pair x grad after := by
  have hAddress : ∀ i j, keyMask.address s u (pair.queryStart + i) (pair.keyStart + j) =
      (keyMask.window s u pair.queryStart pair.keyStart).rowStart 0 + j := by
    intro i j
    rw [rowStart_window]
    simp only [address, queryStride, Nat.mul_zero]
  have hEnd := hWithin.rowStart_le keyMask hWithin.rowsI_pos
  refine ⟨_, Window.updateRow_eq _ (by omega), size_updateRun .., fun i hi j hj => ?_,
    fun p hp => ?_⟩
  · rw [hAddress, getElem?_updateRun, if_pos (by omega), Nat.add_sub_cancel_left]
    congr 1
    funext y
    rw [addColumnSums_getD hWithin.rowsI_le hWithin.rowsJ_le hj, share]
    congr 1
    exact List.foldl_ext _ _ _ fun sum i' hi' => by rw [hScores i' (List.mem_range.mp hi') j hj]
  · rw [getElem?_updateRun, if_neg]
    rintro ⟨hLow, hHigh⟩
    refine hp 0 hWithin.rowsI_pos
      (p - (keyMask.window s u pair.queryStart pair.keyStart).rowStart 0) (by omega) ?_
    rw [hAddress]
    omega

/-- The part of a pair bias that a pair of tiles meets lies inside it. -/
theorem pairWindow_fits {size : Nat} (hWithin : pair.Within s u r c)
    (hSize : pairBias.size s ≤ size) :
    (pairBias.window s u pair.queryStart pair.keyStart).Fits pair.rowsI pair.rowsJ size where
  within i hi := Nat.le_trans (hWithin.rowStart_le pairBias hi) hSize
  injective i hi j hj i' hi' j' hj' h := by
    have hKeys := hWithin.keys
    rw [rowStart_window, rowStart_window, address, address, Nat.add_assoc, Nat.add_assoc] at h
    have hSame := mul_add_inj (show pair.keyStart + j < s.numKeys by omega)
      (show pair.keyStart + j' < s.numKeys by omega) (Nat.add_left_cancel h)
    omega

theorem addRows_spec {grad : Array α} (hWithin : pair.Within s u r c)
    (hScores : ∀ i < pair.rowsI, ∀ j < pair.rowsJ,
      ds.entry i j = x.gradScore (pair.queryStart + i) (pair.keyStart + j))
    (hSize : pairBias.size s ≤ grad.size) :
    ∃ after, (List.range pair.rowsI).foldlM
        (addRow (pairBias.window s u pair.queryStart pair.keyStart) ds pair.rowsJ) grad = .ok after ∧
      pairBias.Adds s u pair x grad after := by
  have hI := hWithin.rowsI_le
  have hJ := hWithin.rowsJ_le
  have hFits := pairWindow_fits hWithin hSize
  have hStep : ∀ now : Array α, now.size = grad.size → ∀ row < pair.rowsI,
      addRow (pairBias.window s u pair.queryStart pair.keyStart) ds pair.rowsJ now row =
        .ok (updateRun now
          ((pairBias.window s u pair.queryStart pair.keyStart).rowStart row) pair.rowsJ
          fun j y => y + x.gradScore (pair.queryStart + row) (pair.keyStart + j)) := by
    intro now hNow row hRow
    have hIn : row < r := by omega
    have hLast : (row + 1) * c ≤ r * c := Nat.mul_le_mul_right c hIn
    have hNext : (row + 1) * c = row * c + c := Nat.succ_mul row c
    have hEnd := hFits.within row hRow
    have hLine : (ds.data.toArray.extract (row * c) ((row + 1) * c)).size = c := by
      rw [Array.size_extract, Vector.size_toArray]
      omega
    simp only [addRow, Window.rowWithin, hNow, hEnd, if_true, Tile.readRow, hLast, ok_bind, hLine,
      Nat.min_eq_left hJ]
    show Except.ok _ = Except.ok _
    congr 1
    refine updateRun_congr fun j hj => ?_
    funext y
    rw [← hScores row hRow j hj, Array.getD_eq_getD_getElem?, Array.getElem?_extract,
      if_pos (by rw [Vector.size_toArray]; omega), Tile.getElem?_data ds hIn (by omega),
      Option.getD_some]
  obtain ⟨after, hRun, hBlock⟩ := Window.foldlM_updateRun hFits hStep
  refine ⟨after, hRun, hBlock.size, fun i hi j hj => ?_, fun p hp => ?_⟩
  · have h := hBlock.inside i hi j hj
    rwa [rowStart_window] at h
  · apply hBlock.outside p
    intro i hi j hj
    rw [rowStart_window]
    exact hp i hi j hj

/-- The score gradients of a pair of tiles are added to a bias gradient that holds all its
entries. -/
theorem accumulateGrad_spec (kind : BiasKind) {grad : Array α} (hWithin : pair.Within s u r c)
    (hScores : ∀ i < pair.rowsI, ∀ j < pair.rowsJ,
      ds.entry i j = x.gradScore (pair.queryStart + i) (pair.keyStart + j))
    (hSize : kind.size s ≤ grad.size) :
    ∃ after, kind.accumulateGrad (kind.window s u pair.queryStart pair.keyStart) ds pair.rowsI
        pair.rowsJ grad = .ok after ∧ kind.Adds s u pair x grad after := by
  cases kind with
  | keyMask => exact addColumns_spec hWithin hScores hSize
  | pairBias => exact addRows_spec hWithin hScores hSize

end BiasKind

namespace Biases

/-- An entry of a bias gradient, if the gradient is wanted and has the entry. -/
def at? (b : Biases (Option (Array α))) (kind : BiasKind) (p : Nat) : Option α :=
  (b.get kind).bind (·[p]?)

/-- The gradients that are wanted have received the score gradients of a pair of tiles. -/
structure Receive [Scalar α] (b after : Biases (Option (Array α))) (s : Shape) (u : UnitCoord)
    (pair : TileExtent) (x : UnitValues α) : Prop where
  size : ∀ kind, (after.get kind).map (·.size) = (b.get kind).map (·.size)
  inside : ∀ kind, ∀ i < pair.rowsI, ∀ j < pair.rowsJ,
    after.at? kind (kind.address s u (pair.queryStart + i) (pair.keyStart + j)) =
      (b.at? kind (kind.address s u (pair.queryStart + i) (pair.keyStart + j))).map
        (· + kind.share x pair.queryStart pair.rowsI (pair.queryStart + i) (pair.keyStart + j))
  outside : ∀ kind p, (∀ i < pair.rowsI, ∀ j < pair.rowsJ,
    p ≠ kind.address s u (pair.queryStart + i) (pair.keyStart + j)) → after.at? kind p = b.at? kind p

end Biases

section Units

variable [Scalar α] [Element ε α]

/-- The biases of a unit in the order in which they are added to its scores. -/
def Request.biasValues (request : Request α ε) (u : UnitCoord) : List (Nat → Nat → α) :=
  [BiasKind.keyMask, .pairBias].filterMap fun kind =>
    (request.biases.get kind).map fun data query key =>
      Tile.widenAt data (kind.address request.shape u query key)

variable {kernel : Kernel α ε} {u : UnitCoord} {x : UnitValues α} {pair : TileExtent}

/-- The tiles of the biases hold the entries of the pair, if their rows are there. -/
theorem Kernel.biasTiles_eq (hRows : pair.rowsI ≤ kernel.tiles.blockI)
    (hCols : pair.rowsJ ≤ kernel.tiles.blockJ)
    (hIn : ∀ kind, ∀ data ∈ kernel.request.biases.get kind, ∀ i < pair.rowsI,
      (kind.window kernel.shape u pair.queryStart pair.keyStart).rowStart i + pair.rowsJ ≤ data.size) :
    kernel.biasTiles u pair = .ok ((kernel.request.biasValues u).map fun bias =>
      Tile.block pair.rowsI pair.rowsJ fun i j => bias (pair.queryStart + i) (pair.keyStart + j)) := by
  unfold biasTiles
  rw [filterMapM_eq_ok (g := fun kind => (kernel.request.biases.get kind).map fun data =>
    Tile.block pair.rowsI pair.rowsJ fun i j => Tile.widenAt data
      (kind.address kernel.shape u (pair.queryStart + i) (pair.keyStart + j)))]
  · rw [Request.biasValues, List.map_filterMap]
    congr 2
    funext kind
    rw [Option.map_map]
    rfl
  · intro kind _
    cases hData : kernel.request.biases.get kind with
    | none => rfl
    | some data =>
        dsimp only
        rw [Tile.load_eq hRows hCols (hIn kind data hData), ok_bind]
        simp only [BiasKind.rowStart_window]
        rfl

theorem Kernel.biasTiles_spec
    (hWithin : pair.Within kernel.shape u kernel.tiles.blockI kernel.tiles.blockJ)
    (hSize : ∀ kind, ∀ data ∈ kernel.request.biases.get kind,
      kind.size kernel.shape ≤ data.size) :
    kernel.biasTiles u pair = .ok ((kernel.request.biasValues u).map fun bias =>
      Tile.block pair.rowsI pair.rowsJ fun i j => bias (pair.queryStart + i) (pair.keyStart + j)) :=
  biasTiles_eq hWithin.rowsI_le hWithin.rowsJ_le fun kind data hData _ hi =>
    Nat.le_trans (hWithin.rowStart_le kind hi) (hSize kind data hData)

omit [Element ε α] in
/-- A bias gradient receives the score gradients of a pair if it is wanted. -/
theorem Kernel.addBiasGrad_spec {ds : Tile α kernel.tiles.blockI kernel.tiles.blockJ}
    {grads : Biases (Option (Array α))}
    (hWithin : pair.Within kernel.shape u kernel.tiles.blockI kernel.tiles.blockJ)
    (hScores : ∀ i < pair.rowsI, ∀ j < pair.rowsJ,
      ds.entry i j = x.gradScore (pair.queryStart + i) (pair.keyStart + j))
    (hWanted : ∀ kind, ∀ grad ∈ grads.get kind,
      (kernel.request.biases.get kind).isSome = true ∧ kind.size kernel.shape ≤ grad.size)
    (kind : BiasKind) :
    ∃ after, (match kernel.request.biases.get kind, grads.get kind with
      | some _, some grad => do
        let window := kind.window kernel.shape u pair.queryStart pair.keyStart
        let grad ← kind.accumulateGrad window ds pair.rowsI pair.rowsJ grad
        return some grad
      | _, grad => .ok grad) = Except.ok after ∧
        (grads.get kind = none ∧ after = none ∨ ∃ grad new, grads.get kind = some grad ∧
          after = some new ∧ kind.Adds kernel.shape u pair x grad new) := by
  cases hGrad : grads.get kind with
  | none =>
      refine ⟨none, ?_, .inl ⟨rfl, rfl⟩⟩
      cases kernel.request.biases.get kind <;> rfl
  | some grad =>
      obtain ⟨hBias, hSize⟩ := hWanted kind grad hGrad
      obtain ⟨data, hData⟩ := Option.isSome_iff_exists.mp hBias
      obtain ⟨new, hNew, hAdds⟩ := BiasKind.accumulateGrad_spec kind hWithin hScores
        hSize
      refine ⟨some new, ?_, .inr ⟨grad, new, rfl, rfl, hAdds⟩⟩
      rw [hData]
      dsimp only
      rw [hNew, ok_bind]
      rfl

omit [Element ε α] in
/-- Every bias gradient that is wanted receives the score gradients of a pair. -/
theorem Kernel.addBiasGrads_spec {ds : Tile α kernel.tiles.blockI kernel.tiles.blockJ}
    {grads : Biases (Option (Array α))}
    (hWithin : pair.Within kernel.shape u kernel.tiles.blockI kernel.tiles.blockJ)
    (hScores : ∀ i < pair.rowsI, ∀ j < pair.rowsJ,
      ds.entry i j = x.gradScore (pair.queryStart + i) (pair.keyStart + j))
    (hWanted : ∀ kind, ∀ grad ∈ grads.get kind,
      (kernel.request.biases.get kind).isSome = true ∧ kind.size kernel.shape ≤ grad.size) :
    ∃ after, kernel.addBiasGrads u pair ds grads = .ok after ∧
      grads.Receive after kernel.shape u pair x := by
  have hKind := Kernel.addBiasGrad_spec hWithin hScores hWanted
  obtain ⟨keyMask, hKeyMask, hFirst⟩ := hKind .keyMask
  obtain ⟨pairBias, hPairBias, hSecond⟩ := hKind .pairBias
  have hAll : ∀ kind, grads.get kind = none ∧ (⟨keyMask, pairBias⟩ : Biases _).get kind = none ∨
      ∃ grad new, grads.get kind = some grad ∧ (⟨keyMask, pairBias⟩ : Biases _).get kind = some new ∧
        kind.Adds kernel.shape u pair x grad new := by
    intro kind
    cases kind with
    | keyMask => exact hFirst
    | pairBias => exact hSecond
  refine ⟨⟨keyMask, pairBias⟩, ?_, fun kind => ?_, fun kind i hi j hj => ?_, fun kind p hp => ?_⟩
  · have hBoth : (Except.ok ⟨keyMask, pairBias⟩ : Except Fault (Biases (Option (Array α)))) =
        Except.ok keyMask >>= fun first => Except.ok pairBias >>= fun second =>
          Except.ok ⟨first, second⟩ := rfl
    rw [hBoth, ← hKeyMask, ← hPairBias]
    rfl
  all_goals
    rcases hAll kind with ⟨hBefore, hAfter⟩ | ⟨grad, new, hBefore, hAfter, hAdds⟩
  · rw [hBefore, hAfter]
  · rw [hBefore, hAfter, Option.map_some, Option.map_some, hAdds.size]
  · simp only [Biases.at?, hBefore, hAfter, Option.bind_none, Option.map_none]
  · simp only [Biases.at?, hBefore, hAfter, Option.bind_some, hAdds.inside i hi j hj]
  · simp only [Biases.at?, hBefore, hAfter, Option.bind_none]
  · simp only [Biases.at?, hBefore, hAfter, Option.bind_some, hAdds.outside p hp]

end Units

end FusedAttention
