import FusedAttention.Kernel.Unit
import FusedAttention.Proofs.Masks
import FusedAttention.Proofs.Products

/-! The stages of a pair of tiles as they write. Scratch storage and the accumulators of the products
are never given up between two pairs: a stage writes entry by entry over what the pair before left
there. Whatever that was, the stage leaves the regions that it is defined to leave. -/
namespace FusedAttention

variable {α ε : Type}

/-- A sweep goes through all indices once. If a step changes what is seen at its own index by a rule and
nothing at the others, then the sweep changes all of it by the rules. -/
theorem look_sweep {σ β : Type} {n : Nat} {step : σ → Fin n → σ} (look : σ → Fin n → β)
    (rule : Fin n → β → β) (hOwn : ∀ s i, look (step s i) i = rule i (look s i))
    (hOther : ∀ s i k, k ≠ i → look (step s i) k = look s k) (s : σ) (k : Fin n) :
    look (Fin.foldl n step s) k = rule k (look s k) := by
  have hUpTo : ∀ count (hCount : count ≤ n),
      look (Fin.foldl count (fun s i => step s (i.castLE hCount)) s) k =
        if k.val < count then rule k (look s k) else look s k := by
    intro count hCount
    induction count with
    | zero => rw [Fin.foldl_zero, if_neg (Nat.not_lt_zero _)]
    | succ count ih =>
        have hBefore := ih (by omega)
        rw [Fin.foldl_succ_last]
        by_cases hOwnStep : k.val = count
        · obtain rfl : k = (Fin.last count).castLE hCount := Fin.ext hOwnStep
          rw [hOwn, if_pos (by simp)]
          exact congrArg _ (hBefore.trans (if_neg (by simp)))
        · rw [hOther _ _ _ fun h => hOwnStep (congrArg Fin.val h)]
          refine hBefore.trans ?_
          have hSame : k.val < count + 1 ↔ k.val < count := by omega
          simp only [hSame]
  exact (hUpTo n (Nat.le_refl n)).trans (if_pos k.isLt)

/-- A list of computations that all succeed has a result for each. -/
theorem length_of_mapM_eq_ok {ι τ κ : Type} {list : List ι} {f : ι → Except κ τ} {results : List τ}
    (h : list.mapM f = .ok results) : results.length = list.length := by
  induction list generalizing results with
  | nil =>
      cases h
      rfl
  | cons i rest ih =>
      rw [List.mapM_cons] at h
      obtain ⟨first, -, h⟩ := exists_of_bind_eq_ok h
      obtain ⟨others, hOthers, h⟩ := exists_of_bind_eq_ok h
      cases h
      rw [List.length_cons, List.length_cons, ih hOthers]

theorem Window.size_row {τ : Type} {window : Window} {data run : Array τ} {row length : Nat}
    (h : window.row data row length = .ok run) : run.size = length := by
  unfold Window.row sliceOf at h
  split at h
  · cases h
    rw [Array.size_extract]
    omega
  · cases h

namespace Tile

variable {r c : Nat}

/-! ### Writes to a tile -/

/-- Writes `x` over one entry. -/
def put (t : Tile α r c) (row : Fin r) (col : Fin c) (x : α) : Tile α r c :=
  ofFn fun i j => if i = row ∧ j = col then x else t.get i j

/-- Writes a run over the first entries of a row, as far as both go. -/
def putRow (t : Tile α r c) (row : Nat) (run : Array α) : Tile α r c :=
  ofFn fun i j => if i.val = row then run[j.val]?.getD (t.get i j) else t.get i j

/-- Fills a row from column `start` on. -/
def fillFrom (t : Tile α r c) (row start : Nat) (x : α) : Tile α r c :=
  ofFn fun i j => if i.val = row ∧ start ≤ j.val then x else t.get i j

/-- Fills all rows. -/
def refill (t : Tile α r c) (x : α) : Tile α r c :=
  ⟨t.data.map fun _ => x⟩

/-- Replaces the entries of a row from left to right by `f` of them. -/
def updateRow (t : Tile α r c) (row : Fin r) (f : Fin c → α → α) : Tile α r c :=
  Fin.foldl c (fun t col => t.put row col (f col (t.get row col))) t

/-- Replaces the entries of all rows by `f` of them. -/
def update (t : Tile α r c) (f : Fin r → Fin c → α → α) : Tile α r c :=
  Fin.foldl r (fun t row => t.updateRow row (f row)) t

@[simp] theorem refill_eq (t : Tile α r c) (x : α) : t.refill x = fill x :=
  ext_get fun _ _ => (Vector.getElem_map _ _).trans (get_fill x _ _).symm

@[simp]
theorem get_updateRow (t : Tile α r c) (row : Fin r) (f : Fin c → α → α) (i : Fin r) (j : Fin c) :
    (t.updateRow row f).get i j = if i = row then f j (t.get i j) else t.get i j := by
  refine look_sweep (fun t' : Tile α r c => t'.get i)
    (fun j x => if i = row then f j x else x) (fun t' k => ?_) (fun t' k j hj => ?_) t j
  · rw [put, get_ofFn]
    by_cases hRow : i = row
    · subst hRow
      simp
    · simp [hRow]
  · rw [put, get_ofFn, if_neg fun h => hj h.2]

@[simp] theorem get_update (t : Tile α r c) (f : Fin r → Fin c → α → α) (i : Fin r) (j : Fin c) :
    (t.update f).get i j = f i j (t.get i j) := by
  refine look_sweep (fun (t' : Tile α r c) i => t'.get i j) (fun i x => f i j x) (fun t' k => ?_)
    (fun t' k i hi => ?_) t i
  · rw [get_updateRow, if_pos rfl]
  · rw [get_updateRow, if_neg hi]

/-! ### Loads -/

section Loads

variable [Scalar α] [Element ε α]

/-- Writes one row of a tile that is loaded: a row of the block takes its run and zeros from there on,
a row past the block zeros alone. -/
def loadRow (source : Array ε) (window : Window) (rows cols : Nat) (t : Tile α r c) (row : Nat) :
    Except Fault (Tile α r c) :=
  if row < rows then do
    let run ← window.row source row cols
    return (t.putRow row (run.map Element.widen)).fillFrom row cols 0
  else .ok (t.fillFrom row 0 0)

/-- `load` over a tile that is there already, row by row. -/
def loadInto (t : Tile α r c) (source : Array ε) (window : Window) (rows cols : Nat) :
    Except Fault (Tile α r c) :=
  (List.range r).foldlM (loadRow source window (min rows r) (min cols c)) t

/-- The tile after its first `count` rows have been written from their runs. -/
def rowsLoaded (t : Tile α r c) (runs : List (Array ε)) (count : Nat) : Tile α r c :=
  ofFn fun i j =>
    if i.val < count then
      match runs[i.val]?.bind (·[j.val]?) with
      | some x => Element.widen x
      | none => 0
    else t.get i j

/-- A run and the zeros after it fill their row. -/
theorem fillFrom_putRow_rowsLoaded (t : Tile α r c) (runs : List (Array ε)) (run : Array ε) :
    ((t.rowsLoaded runs runs.length).putRow runs.length (run.map Element.widen)).fillFrom runs.length
        run.size 0 = t.rowsLoaded (runs ++ [run]) (runs.length + 1) := by
  refine ext_get fun i j => ?_
  simp only [fillFrom, putRow, rowsLoaded, get_ofFn]
  rcases Nat.lt_trichotomy i.val runs.length with hi | hi | hi
  · have hNot : i.val ≠ runs.length := by omega
    have hBefore : i.val < runs.length + 1 := by omega
    simp [hi, hNot, hBefore]
  · rw [hi, List.getElem?_concat_length]
    by_cases hj : j.val < run.size
    · simp [hj, Nat.not_le.mpr hj]
    · simp [hj, Nat.le_of_not_lt hj]
  · have hNot : i.val ≠ runs.length := by omega
    have hAfter : ¬ i.val < runs.length + 1 := by omega
    simp [hNot, hAfter, Nat.not_lt_of_gt hi]

/-- Without a run a row is filled with zeros. -/
theorem fillFrom_rowsLoaded (t : Tile α r c) {runs : List (Array ε)} {count : Nat}
    (hRuns : runs.length ≤ count) :
    (t.rowsLoaded runs count).fillFrom count 0 0 = t.rowsLoaded runs (count + 1) := by
  refine ext_get fun i j => ?_
  simp only [fillFrom, rowsLoaded, get_ofFn]
  rcases Nat.lt_trichotomy i.val count with hi | hi | hi
  · have hNot : i.val ≠ count := by omega
    have hBefore : i.val < count + 1 := by omega
    simp [hi, hNot, hBefore]
  · simp [hi, List.getElem?_eq_none hRuns]
  · have hNot : i.val ≠ count := by omega
    have hAfter : ¬ i.val < count + 1 := by omega
    simp [hNot, hAfter, Nat.not_lt_of_gt hi]

/-- The rows of a load in their order. The runs are read on the way, and the first that is not there
ends the load. -/
theorem foldlM_loadRow (t : Tile α r c) (source : Array ε) (window : Window) (rows cols count : Nat) :
    (List.range count).foldlM (loadRow source window rows cols) t =
      (List.range (min count rows)).mapM (window.row source · cols) >>= fun runs =>
        .ok (t.rowsLoaded runs count) := by
  induction count with
  | zero =>
      rw [Nat.zero_min]
      exact congrArg Except.ok (ext_get fun i j => by rw [rowsLoaded, get_ofFn, if_neg (by omega)])
  | succ count ih =>
      rw [List.range_succ, List.foldlM_append, ih]
      cases hRuns : (List.range (min count rows)).mapM (window.row source · cols) with
      | error fault =>
          by_cases hIn : count < rows
          · rw [show min (count + 1) rows = min count rows + 1 by omega, List.range_succ, List.mapM_append,
              hRuns]
            rfl
          · rw [show min (count + 1) rows = min count rows by omega, hRuns]
            rfl
      | ok runs =>
          have hLength : runs.length = min count rows := by
            rw [length_of_mapM_eq_ok hRuns, List.length_range]
          rw [ok_bind, ok_bind, List.foldlM_cons, loadRow]
          by_cases hIn : count < rows
          · obtain rfl : runs.length = count := by omega
            rw [if_pos hIn, show min (runs.length + 1) rows = min runs.length rows + 1 by omega,
              List.range_succ, List.mapM_append, hRuns, ok_bind, List.mapM_cons,
              show min runs.length rows = runs.length by omega]
            cases hRun : window.row source runs.length cols with
            | error fault => rfl
            | ok run =>
                obtain rfl : run.size = cols := Window.size_row hRun
                exact congrArg Except.ok (fillFrom_putRow_rowsLoaded t runs run)
          · rw [if_neg hIn, show min (count + 1) rows = min count rows by omega, hRuns]
            exact congrArg Except.ok (fillFrom_rowsLoaded t (by omega))

/-- What is loaded over a tile depends on nothing that the tile held, and neither does the fault where a
run is not there. -/
@[simp] theorem loadInto_eq (t : Tile α r c) (source : Array ε) (window : Window) (rows cols : Nat) :
    t.loadInto source window rows cols = load source window rows cols := by
  rw [loadInto, foldlM_loadRow, load, Nat.min_eq_right (Nat.min_le_right rows r)]
  refine congrArg _ (funext fun runs => congrArg Except.ok (ext_get fun i j => ?_))
  rw [rowsLoaded, get_ofFn, if_pos i.isLt, ← List.getElem?_toArray]
  symm
  exact get_ofFn _ i j

end Loads

end Tile

/-- `loadVector` over a vector that is there already: its first entries take the run, the others are
filled. -/
def loadVectorInto {n : Nat} (v : Vector α n) (source : Array α) (length : Nat) (pad : α) :
    Except Fault (Vector α n) := do
  let run ← sliceOf source 0 (min length n)
  let v : Vector α n := .ofFn fun i => run[i.val]?.getD v[i]
  return .ofFn fun i => if min length n ≤ i.val then pad else v[i]

@[simp]
theorem loadVectorInto_eq {n : Nat} (v : Vector α n) (source : Array α) (length : Nat) (pad : α) :
    loadVectorInto v source length pad = loadVector n source length pad := by
  unfold loadVectorInto loadVector sliceOf
  dsimp only
  by_cases hSize : source.size < min length n
  · rw [if_pos hSize, if_neg (by omega), Nat.zero_add]
    rfl
  · rw [if_neg hSize, if_pos (by omega), ok_bind]
    refine congrArg Except.ok (Vector.ext fun i hi => ?_)
    rw [Vector.getElem_ofFn, Vector.getElem_ofFn]
    by_cases hIn : i < min length n
    · have hElement : (source.extract 0 (min length n))[i]? = source[i]? := by
        rw [Array.getElem?_extract, Nat.zero_add, if_pos (by omega)]
      simp [hIn, Nat.not_le.mpr hIn, hElement, show i < source.size by omega]
    · simp [hIn, Nat.le_of_not_lt hIn]

section Masks

variable [Scalar α] {t : TileSize}

/-- `maskTile` over a tile that is there already: zeros first, then row by row what the source gives. -/
def Scratch.maskTileInto (tile : Tile α t.blockI t.blockJ) (source : MaskSource) (ext : TileExtent) :
    Tile α t.blockI t.blockJ × MaskSource :=
  (List.range ext.rowsI).foldl (fun (tile, source) i =>
    let (row, source) := source.row (ext.queryStart + i) ext.keyStart ext.rowsJ
    (tile.putRow i row, source)) (tile.refill 0, source)

omit [Scalar α] in
@[simp] theorem MaskSource.length_rows [Scalar α] (source : MaskSource) (calls : List MaskCall) :
    (source.rows (α := α) calls).1.length = calls.length := by
  induction calls generalizing source with
  | nil => rfl
  | cons call rest ih => rw [rows_cons, List.length_cons, List.length_cons, ih]

/-- Rows of a mask that are written over zeros. -/
theorem Scratch.foldl_putRow (source : MaskSource) (ext : TileExtent) (count : Nat) :
    (List.range count).foldl (fun ((tile, source) : Tile α t.blockI t.blockJ × MaskSource) i =>
      let (row, source) := source.row (ext.queryStart + i) ext.keyStart ext.rowsJ
      (tile.putRow i row, source)) (.fill 0, source) =
    let made := source.rows (α := α) (rowCalls ext.queryStart ext.keyStart ext.rowsJ count)
    (.ofFn fun i j => (made.1.getD i.val #[]).getD j.val 0, made.2) := by
  induction count with
  | zero =>
      refine congrArg (·, source) (Tile.ext_get fun i j => ?_)
      rw [Tile.get_fill, Tile.get_ofFn]
      rfl
  | succ count ih =>
      rw [List.range_succ, List.foldl_append, ih, rowCalls_succ, MaskSource.rows_append]
      have hLength := MaskSource.length_rows (α := α) source
        (rowCalls ext.queryStart ext.keyStart ext.rowsJ count)
      rw [rowCalls, List.length_map, List.length_range, ← rowCalls] at hLength
      refine Prod.ext (Tile.ext_get fun i j => ?_) rfl
      simp only [List.foldl_cons, List.foldl_nil, Tile.putRow, Tile.get_ofFn, MaskSource.rows]
      rcases Nat.lt_trichotomy i.val count with hi | hi | hi
      · rw [if_neg (by omega), List.getD_append _ _ _ _ (by omega)]
      · rw [if_pos hi, List.getD_eq_default _ _ (by omega), List.getD_append_right _ _ _ _ (by omega),
          hLength, hi, Nat.sub_self, List.getD_cons_zero, Array.getD_eq_getD_getElem?,
          Array.getD_eq_getD_getElem?]
        rfl
      · rw [if_neg (by omega), List.getD_eq_default _ _ (by omega), List.getD_eq_default _ _ (by
          rw [List.length_append, List.length_singleton]
          omega)]

/-- A mask that is written over a tile is the mask alone. -/
theorem Scratch.maskTileInto_eq (tile : Tile α t.blockI t.blockJ) (source : MaskSource)
    (ext : TileExtent) : maskTileInto tile source ext = maskTile source ext := by
  unfold maskTileInto maskTile
  rw [Tile.refill_eq, foldl_putRow, maskRows_eq]
  refine Prod.ext (Tile.ext_get fun i j => ?_) rfl
  simp [Array.getD_eq_getD_getElem?]

end Masks

/-! ### Stages -/

/-- Scratch storage and the accumulators that the two products of a pair of tiles are computed in. -/
structure Arena (α : Type) (t : TileSize) where
  scratch : Scratch α t
  /-- Products of K and Q, a row for each key. -/
  scores : Tile α t.blockJ t.blockI
  /-- Products of dO and V. -/
  gradProbs : Tile α t.blockI t.blockJ

namespace Arena

variable [Scalar α] [Element ε α] {t : TileSize}

def loadKeyTile (a : Arena α t) (k v : Array ε) (windowK windowV : Window) (ext : TileExtent)
    (headDim headDimValue : Nat) : Except Fault (Arena α t) := do
  let s ← a.scratch.enter .loadKeys
  let keyRows ← s.keyRows.loadInto k (windowK.sub ext.keyStart 0) ext.rowsJ headDim
  let valueRows ← s.valueRows.loadInto v (windowV.sub ext.keyStart 0) ext.rowsJ headDimValue
  return { a with scratch := { s with keyRows, valueRows } }

def loadQueryTile (a : Arena α t) (q dO : Array ε) (windowQ windowDO : Window) (lse delta : Array α)
    (ext : TileExtent) (headDim headDimValue : Nat) : Except Fault (Arena α t) := do
  let s ← a.scratch.enter .loadQueries
  let queryRows ← s.queryRows.loadInto q (windowQ.sub ext.queryStart 0) ext.rowsI headDim
  let gradOutRows ← s.gradOutRows.loadInto dO (windowDO.sub ext.queryStart 0) ext.rowsI headDimValue
  let lseFrom ← sliceOf lse ext.queryStart (lse.size - ext.queryStart)
  let lse ← loadVectorInto s.lse lseFrom ext.rowsI Scalar.infinity
  let deltaFrom ← sliceOf delta ext.queryStart (delta.size - ext.queryStart)
  let delta ← loadVectorInto s.delta deltaFrom ext.rowsI 0
  return { a with scratch := { s with queryRows, gradOutRows, lse, delta } }

/-- The accumulator is cleared before the product. Rows of the probabilities past the last key are
filled with zeros, the others are written entry by entry. -/
def recomputeScores (a : Arena α t) (ext : TileExtent) (headDim : Nat) (scale : α)
    (biases : List (Tile α t.blockI t.blockJ)) (source : Option MaskSource) :
    Except Fault (Arena α t × Option MaskSource) := do
  let s ← a.scratch.enter .scoreRecompute
  let scores := (a.scores.refill 0).mulTransposeAdd s.keyRows s.queryRows headDim
  let probT := Fin.foldl t.blockJ (fun probT j =>
    if j.val < ext.rowsJ then
      probT.updateRow j fun i _ =>
        if i.val < ext.rowsI then Scratch.probability scale (s.lse.get i) (scores.get j i) biases i j
        else 0
    else probT.fillFrom j.val 0 0) s.probT
  match source with
  | none => return ({ a with scratch := { s with probT }, scores }, none)
  | some source =>
    let (mask, source) := Scratch.maskTileInto s.mask source ext
    return ({ a with scratch := { s with probT, mask }, scores }, some source)

/-- The probabilities are copied and then multiplied by the mask where they are. -/
def stageValues (a : Arena α t) (masked : Bool) : Except Fault (Arena α t) := do
  let s ← a.scratch.enter .valueGrad
  let staging := if masked then s.probT.update fun j i x => x * s.mask.get i j else s.probT
  return { a with scratch := { s with staging } }

/-- The accumulator is cleared before the product. The bias gradients receive the score gradients before
these are scaled where they are. -/
def computeScoreGrad (a : Arena α t) (headDimValue : Nat) (scale : α) (masked : Bool) :
    Except Fault (Tile α t.blockI t.blockJ × Arena α t) := do
  let s ← a.scratch.enter .scoreGrad
  let gradProbs := (a.gradProbs.refill 0).mulTransposeAdd s.gradOutRows s.valueRows headDimValue
  let ds := s.gradScores.update fun i j _ =>
    let dp := if masked then gradProbs.get i j * s.mask.get i j else gradProbs.get i j
    s.probT.get j i * (dp - s.delta.get i)
  return (ds, { a with scratch := { s with gradScores := ds.scale scale }, gradProbs })

variable (a : Arena α t)

theorem loadKeyTile_eq (k v : Array ε) (windowK windowV : Window) (ext : TileExtent)
    (headDim headDimValue : Nat) :
    a.loadKeyTile k v windowK windowV ext headDim headDimValue =
      (fun s => { a with scratch := s }) <$>
        a.scratch.loadKeyTile k v windowK windowV ext headDim headDimValue := by
  simp only [loadKeyTile, Scratch.loadKeyTile, Tile.loadInto_eq, map_bind, map_pure]

theorem loadQueryTile_eq (q dO : Array ε) (windowQ windowDO : Window) (lse delta : Array α)
    (ext : TileExtent) (headDim headDimValue : Nat) :
    a.loadQueryTile q dO windowQ windowDO lse delta ext headDim headDimValue =
      (fun s => { a with scratch := s }) <$>
        a.scratch.loadQueryTile q dO windowQ windowDO lse delta ext headDim headDimValue := by
  simp only [loadQueryTile, Scratch.loadQueryTile, Tile.loadInto_eq, loadVectorInto_eq, map_bind,
    map_pure]

/-- Every entry of the probabilities is written. -/
theorem foldl_probRows (probT : Tile α t.blockJ t.blockI) (ext : TileExtent)
    (f : Fin t.blockI → Fin t.blockJ → α) :
    Fin.foldl t.blockJ (fun probT j =>
      if j.val < ext.rowsJ then
        Tile.updateRow probT j fun i _ => if i.val < ext.rowsI then f i j else 0
      else probT.fillFrom j.val 0 0) probT =
    .ofFn fun j i => if j.val < ext.rowsJ ∧ i.val < ext.rowsI then f i j else 0 := by
  refine Tile.ext_get fun j i => ?_
  rw [Tile.get_ofFn]
  refine look_sweep (fun (probT : Tile α t.blockJ t.blockI) j => probT.get j i)
    (fun j _ => if j.val < ext.rowsJ ∧ i.val < ext.rowsI then f i j else 0) (fun probT j => ?_)
    (fun probT j k hk => ?_) probT j
  · by_cases hj : j.val < ext.rowsJ
    · simp [hj]
    · simp [hj, Tile.fillFrom]
  · by_cases hj : j.val < ext.rowsJ
    · simp [hj, hk]
    · simp [hj, Tile.fillFrom, Fin.val_ne_of_ne hk]

theorem recomputeScores_eq (ext : TileExtent) (headDim : Nat) (scale : α)
    (biases : List (Tile α t.blockI t.blockJ)) (source : Option MaskSource) :
    a.recomputeScores ext headDim scale biases source =
      (fun out : Scratch α t × Option MaskSource =>
        ({ a with
            scratch := out.1
            scores := (Tile.fill 0).mulTransposeAdd out.1.keyRows out.1.queryRows headDim },
          out.2)) <$>
        a.scratch.recomputeScores ext headDim scale biases source := by
  unfold recomputeScores Scratch.recomputeScores
  simp only [Tile.refill_eq, foldl_probRows, Vector.get_eq_getElem, Fin.getElem_fin]
  cases source with
  | none => simp only [map_bind, map_pure]
  | some source => simp only [Scratch.maskTileInto_eq, map_bind, map_pure]

theorem stageValues_eq (masked : Bool) :
    a.stageValues masked =
      (fun s => { a with scratch := s }) <$> a.scratch.stageValues masked := by
  have hMasked : ∀ s : Scratch α t, (s.probT.update fun j i x => x * s.mask.get i j) =
      .ofFn fun j i => s.probT.get j i * s.mask.get i j := fun s =>
    Tile.ext_get fun j i => by rw [Tile.get_update, Tile.get_ofFn]
  simp only [stageValues, Scratch.stageValues, hMasked, map_bind, map_pure]

theorem computeScoreGrad_eq (headDimValue : Nat) (scale : α) (masked : Bool) :
    a.computeScoreGrad headDimValue scale masked =
      (fun out : Tile α t.blockI t.blockJ × Scratch α t =>
        (out.1, { a with
          scratch := out.2
          gradProbs :=
            (Tile.fill 0).mulTransposeAdd out.2.gradOutRows out.2.valueRows headDimValue })) <$>
        a.scratch.computeScoreGrad headDimValue scale masked := by
  have hScores : ∀ s : Scratch α t, (s.gradScores.update fun i j _ =>
      let gradProbs : Tile α t.blockI t.blockJ :=
        (Tile.fill 0).mulTransposeAdd s.gradOutRows s.valueRows headDimValue
      let dp := if masked then gradProbs.get i j * s.mask.get i j else gradProbs.get i j
      s.probT.get j i * (dp - s.delta.get i)) = s.scoreGradients headDimValue masked := by
    refine fun s => Tile.ext_get fun i j => ?_
    rw [Tile.get_update, Scratch.scoreGradients, Tile.get_ofFn]
    simp only [Vector.get_eq_getElem, Fin.getElem_fin]
  simp only [computeScoreGrad, Scratch.computeScoreGrad, Tile.refill_eq, hScores, map_bind, map_pure]

end Arena

end FusedAttention
