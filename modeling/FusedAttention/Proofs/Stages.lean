import FusedAttention.Proofs.Masks

/-! The stages of one pair of tiles against the numbers of the unit: what the regions of the
scratch storage hold inside the extent of the pair. Nothing is said of the entries outside. -/
namespace FusedAttention

variable {α ε : Type}

/-- The numbers that the gradients of one unit are computed from, by query, key and column. -/
structure UnitValues (α : Type) where
  headDim : Nat
  headDimValue : Nat
  scale : α
  query : Nat → Nat → α
  key : Nat → Nat → α
  value : Nat → Nat → α
  gradOut : Nat → Nat → α
  lse : Nat → α
  delta : Nat → α
  /-- The biases in the order in which they are added to a score. -/
  biases : List (Nat → Nat → α)
  mask : Option (Nat → Nat → α)

namespace UnitValues

variable [Scalar α] (x : UnitValues α)

/-- The probability of a key for a query, computed again from their score. -/
def prob (query key : Nat) : α :=
  let product := 0 + Tile.dot x.headDim (x.key key) (x.query query)
  let score := x.biases.foldl (fun score bias => score + bias query key) (product * x.scale)
  Scalar.exp (score - x.lse query)

/-- A number under the mask of dropout, if there is one. -/
def masked (query key : Nat) (y : α) : α :=
  match x.mask with
  | some mask => y * mask query key
  | none => y

/-- The probability as it weighs the values. -/
def weight (query key : Nat) : α :=
  x.masked query key (x.prob query key)

/-- The score gradient before it is scaled. -/
def gradScore (query key : Nat) : α :=
  let dp := x.masked query key (0 + Tile.dot x.headDimValue (x.gradOut query) (x.value key))
  x.prob query key * (dp - x.delta query)

end UnitValues

/-! ### Masks -/

namespace Dropout

variable [Scalar α] {d : Dropout} {s : Shape} {u : UnitCoord} {blockJ query key : Nat}

/-- The factors of dropout for one unit, if there is dropout. Its rows are read in parts of `blockJ`
keys, each part from its first key on. -/
def mask (d : Dropout) (s : Shape) (u : UnitCoord) (blockJ : Nat) : Option (Nat → Nat → α) :=
  if d.isEnabled then
    some fun query key => d.rowFactor s u query (tileOf blockJ key) (key % blockJ)
  else none

@[simp] theorem isSome_mask : (d.mask s u blockJ : Option (Nat → Nat → α)).isSome = d.isEnabled := by
  rw [mask]
  cases d.isEnabled <;> rfl

/-- The factors of one part of a row. -/
theorem mask_part {factors : Nat → Nat → α} (hMask : d.mask s u blockJ = some factors) {n j : Nat}
    (hj : j < blockJ) (query : Nat) :
    factors query (n * blockJ + j) = d.rowFactor s u query (n * blockJ) j := by
  have hBlock : 0 < blockJ := Nat.zero_lt_of_lt hj
  have hTile : tileOf blockJ (n * blockJ + j) = n * blockJ :=
    (tileOf_eq_iff hBlock).mpr ⟨Nat.le_add_right .., by omega⟩
  have hRest : (n * blockJ + j) % blockJ = j := by
    rw [Nat.mul_add_mod_self_right, Nat.mod_eq_of_lt hj]
  rw [mask] at hMask
  split at hMask
  · obtain rfl := Option.some.inj hMask
    dsimp only
    rw [hTile, hRest]
  · cases hMask

/-- While the places of all words fit 64 bits, it makes no difference in which parts the rows are
read. -/
theorem mask_eq_entry (hFits : d.isEnabled = true → d.Fits s) (hBatch : u.batchId < s.batch)
    (hHead : u.head < s.heads) (hQuery : query < s.numQueries) (hKey : key < s.numKeys) (blockJ : Nat) :
    (d.mask s u blockJ).map (· query key) =
      if d.isEnabled then some (d.entry s u query key : α) else none := by
  rw [mask]
  split
  case isTrue hOn =>
    have hSplit := tileOf_add_mod blockJ key
    have hPlace := ((hFits hOn).unit hBatch hHead).place_lt hQuery hKey
    have hEntry : (d.rowFactor s u query (tileOf blockJ key) (key % blockJ) : α) =
        d.entry s u query key := by
      rw [rowFactor_eq_entry (by rwa [hSplit]), hSplit]
    exact congrArg some hEntry
  case isFalse => rfl

end Dropout

namespace Scratch

variable [Scalar α] [Element ε α] {t : TileSize}

/-! ### Stages -/

/-- The rows of a key tile are in scratch storage. -/
structure HoldsKeys (s : Scratch α t) (x : UnitValues α) (keyStart rows : Nat) : Prop where
  key : ∀ j < rows, ∀ c < x.headDim, s.keyRows.entry j c = x.key (keyStart + j) c
  value : ∀ j < rows, ∀ c < x.headDimValue, s.valueRows.entry j c = x.value (keyStart + j) c

/-- The rows of a query tile are in scratch storage. -/
structure HoldsQueries (s : Scratch α t) (x : UnitValues α) (queryStart rows : Nat) : Prop where
  query : ∀ i < rows, ∀ c < x.headDim, s.queryRows.entry i c = x.query (queryStart + i) c
  gradOut : ∀ i < rows, ∀ c < x.headDimValue,
    s.gradOutRows.entry i c = x.gradOut (queryStart + i) c
  lse : ∀ i (hi : i < t.blockI), i < rows → s.lse[i] = x.lse (queryStart + i)
  delta : ∀ i (hi : i < t.blockI), i < rows → s.delta[i] = x.delta (queryStart + i)

/-- The probabilities of a pair of tiles and its mask are in scratch storage. -/
structure HoldsScores (s : Scratch α t) (x : UnitValues α) (pair : TileExtent) : Prop where
  prob : ∀ i < pair.rowsI, ∀ j < pair.rowsJ,
    s.probT.entry j i = x.prob (pair.queryStart + i) (pair.keyStart + j)
  mask : ∀ mask ∈ x.mask, ∀ i < pair.rowsI, ∀ j < pair.rowsJ,
    s.mask.entry i j = mask (pair.queryStart + i) (pair.keyStart + j)

variable {s : Scratch α t} {x : UnitValues α} {pair : TileExtent}

section Loads

variable {windowK windowV windowQ windowDO : Window} {k v q dO : Array ε} {lse delta : Array α}

/-- The key tile of a pair is loaded from its rows of K and V. -/
theorem loadKeyTile_eq {headDim headDimValue : Nat} (hPhase : s.phase.allows .loadKeys = true)
    (hRows : pair.rowsJ ≤ t.blockJ) (hCols : headDim ≤ t.maxHeadDim)
    (hColsValue : headDimValue ≤ t.maxHeadDim)
    (hInK : ∀ j < pair.rowsJ, windowK.rowStart (pair.keyStart + j) + headDim ≤ k.size)
    (hInV : ∀ j < pair.rowsJ, windowV.rowStart (pair.keyStart + j) + headDimValue ≤ v.size) :
    s.loadKeyTile k v windowK windowV pair headDim headDimValue = .ok { s with
      phase := .loadKeys
      keyRows := .block pair.rowsJ headDim fun j c =>
        Tile.widenAt k (windowK.rowStart (pair.keyStart + j) + c)
      valueRows := .block pair.rowsJ headDimValue fun j c =>
        Tile.widenAt v (windowV.rowStart (pair.keyStart + j) + c) } := by
  unfold loadKeyTile
  rw [enter_eq hPhase, ok_bind, Tile.load_rows_eq hRows hCols hInK, ok_bind,
    Tile.load_rows_eq hRows hColsValue hInV, ok_bind]
  rfl

omit [Scalar α] in
/-- A vector takes its leading entries from one place of a buffer on. -/
theorem loadVector_rest {source : Array α} {start rows n : Nat} (pad : α) (hRows : rows ≤ n)
    (hStart : start + rows ≤ source.size) :
    loadVector n (source.extract start (start + (source.size - start))) rows pad =
      .ok (.ofFn fun i => if i.val < rows then source.getD (start + i) pad else pad) := by
  have hEnd : start + (source.size - start) = source.size := by omega
  unfold loadVector
  rw [Nat.min_eq_left hRows, hEnd, if_neg (by rw [Array.size_extract]; omega)]
  refine congrArg (fun f => Except.ok (Vector.ofFn f)) (funext fun i => ?_)
  split
  · simp (disch := omega)
  · rfl

/-- The query tile of a pair is loaded from its rows of Q and dO and the numbers of these rows. -/
theorem loadQueryTile_eq {headDim headDimValue : Nat} (hPhase : s.phase.allows .loadQueries = true)
    (hRows : pair.rowsI ≤ t.blockI) (hCols : headDim ≤ t.maxHeadDim)
    (hColsValue : headDimValue ≤ t.maxHeadDim)
    (hInQ : ∀ i < pair.rowsI, windowQ.rowStart (pair.queryStart + i) + headDim ≤ q.size)
    (hInDO : ∀ i < pair.rowsI, windowDO.rowStart (pair.queryStart + i) + headDimValue ≤ dO.size)
    (hInLse : pair.queryStart + pair.rowsI ≤ lse.size)
    (hInDelta : pair.queryStart + pair.rowsI ≤ delta.size) :
    s.loadQueryTile q dO windowQ windowDO lse delta pair headDim headDimValue = .ok { s with
      phase := .loadQueries
      queryRows := .block pair.rowsI headDim fun i c =>
        Tile.widenAt q (windowQ.rowStart (pair.queryStart + i) + c)
      gradOutRows := .block pair.rowsI headDimValue fun i c =>
        Tile.widenAt dO (windowDO.rowStart (pair.queryStart + i) + c)
      lse := .ofFn fun i =>
        if i.val < pair.rowsI then lse.getD (pair.queryStart + i) Scalar.infinity else Scalar.infinity
      delta := .ofFn fun i =>
        if i.val < pair.rowsI then delta.getD (pair.queryStart + i) 0 else 0 } := by
  unfold loadQueryTile
  rw [enter_eq hPhase, ok_bind, Tile.load_rows_eq hRows hCols hInQ, ok_bind,
    Tile.load_rows_eq hRows hColsValue hInDO, ok_bind, sliceOf_eq (by omega), ok_bind,
    loadVector_rest _ hRows hInLse, ok_bind, sliceOf_eq (by omega), ok_bind,
    loadVector_rest _ hRows hInDelta, ok_bind]
  rfl

theorem loadKeyTile_spec (hPhase : s.phase.allows .loadKeys = true) (hRows : pair.rowsJ ≤ t.blockJ)
    (hCols : x.headDim ≤ t.maxHeadDim) (hColsValue : x.headDimValue ≤ t.maxHeadDim)
    (hKey : x.key = fun row col => Tile.widenAt k (windowK.rowStart row + col))
    (hValue : x.value = fun row col => Tile.widenAt v (windowV.rowStart row + col))
    (hInK : ∀ j < pair.rowsJ, windowK.rowStart (pair.keyStart + j) + x.headDim ≤ k.size)
    (hInV : ∀ j < pair.rowsJ, windowV.rowStart (pair.keyStart + j) + x.headDimValue ≤ v.size) :
    ∃ next, s.loadKeyTile k v windowK windowV pair x.headDim x.headDimValue = .ok next ∧
      next.phase = .loadKeys ∧ next.HoldsKeys x pair.keyStart pair.rowsJ := by
  refine ⟨_, loadKeyTile_eq hPhase hRows hCols hColsValue hInK hInV, rfl, fun j hj c hc => ?_,
    fun j hj c hc => ?_⟩
  · rw [Tile.entry_block _ hRows hCols hj hc, hKey]
  · rw [Tile.entry_block _ hRows hColsValue hj hc, hValue]

theorem loadQueryTile_spec (hPhase : s.phase.allows .loadQueries = true)
    (hRows : pair.rowsI ≤ t.blockI) (hCols : x.headDim ≤ t.maxHeadDim)
    (hColsValue : x.headDimValue ≤ t.maxHeadDim)
    (hQuery : x.query = fun row col => Tile.widenAt q (windowQ.rowStart row + col))
    (hGradOut : x.gradOut = fun row col => Tile.widenAt dO (windowDO.rowStart row + col))
    (hInQ : ∀ i < pair.rowsI, windowQ.rowStart (pair.queryStart + i) + x.headDim ≤ q.size)
    (hInDO : ∀ i < pair.rowsI, windowDO.rowStart (pair.queryStart + i) + x.headDimValue ≤ dO.size)
    (hLse : pair.queryStart + pair.rowsI ≤ lse.size ∧
      ∀ i < pair.rowsI, lse[pair.queryStart + i]? = some (x.lse (pair.queryStart + i)))
    (hDelta : pair.queryStart + pair.rowsI ≤ delta.size ∧
      ∀ i < pair.rowsI, delta[pair.queryStart + i]? = some (x.delta (pair.queryStart + i)))
    {keyStart rows : Nat} (hKeys : s.HoldsKeys x keyStart rows) :
    ∃ next, s.loadQueryTile q dO windowQ windowDO lse delta pair x.headDim x.headDimValue =
        .ok next ∧ next.phase = .loadQueries ∧
      next.HoldsQueries x pair.queryStart pair.rowsI ∧ next.HoldsKeys x keyStart rows := by
  refine ⟨_, loadQueryTile_eq hPhase hRows hCols hColsValue hInQ hInDO hLse.1 hDelta.1, rfl,
    ⟨fun i hi c hc => ?_, fun i hi c hc => ?_, fun i hi hIn => ?_, fun i hi hIn => ?_⟩,
    ⟨hKeys.key, hKeys.value⟩⟩
  · rw [Tile.entry_block _ hRows hCols hi hc, hQuery]
  · rw [Tile.entry_block _ hRows hColsValue hi hc, hGradOut]
  · simp [hIn, hLse.2 i hIn]
  · simp [hIn, hDelta.2 i hIn]

end Loads

/-- The probabilities that are computed again are those of the unit. -/
theorem probability_entry (hI : pair.rowsI ≤ t.blockI) (hJ : pair.rowsJ ≤ t.blockJ)
    (hCols : x.headDim ≤ t.maxHeadDim) (hKeys : s.HoldsKeys x pair.keyStart pair.rowsJ)
    (hQueries : s.HoldsQueries x pair.queryStart pair.rowsI) :
    ∀ i < pair.rowsI, ∀ j < pair.rowsJ, (Tile.ofFn fun j i =>
      if j.val < pair.rowsJ ∧ i.val < pair.rowsI then
        probability x.scale s.lse[i]
          (((Tile.fill 0).mulTransposeAdd s.keyRows s.queryRows x.headDim).get j i)
          (x.biases.map fun bias => Tile.block pair.rowsI pair.rowsJ fun i j =>
            bias (pair.queryStart + i) (pair.keyStart + j)) i j
      else 0 : Tile α t.blockJ t.blockI).entry j i =
        x.prob (pair.queryStart + i) (pair.keyStart + j) := by
  intro i hi j hj
  have hRow : i < t.blockI := by omega
  have hCol : j < t.blockJ := by omega
  rw [Tile.entry_of_lt _ hCol hRow, Tile.get_ofFn, if_pos ⟨hj, hi⟩, Tile.get_mulTransposeAdd,
    Tile.get_fill, Nat.min_eq_left hCols, Tile.dot_congr (hKeys.key j hj) (hQueries.query i hi)]
  have hLse := hQueries.lse i hRow hi
  simp only [probability, UnitValues.prob, List.foldl_map, Tile.block, Tile.get_ofFn, hi, hj,
    and_self, if_true, ← hLse]
  rfl

theorem recomputeScores_spec {d : Dropout} {sh : Shape} {u : UnitCoord}
    {source : Option MaskSource} (hPhase : s.phase.allows .scoreRecompute = true)
    (hI : pair.rowsI ≤ t.blockI) (hJ : pair.rowsJ ≤ t.blockJ) (hCols : x.headDim ≤ t.maxHeadDim)
    (hTile : ∃ n, pair.keyStart = n * t.blockJ)
    (hKeys : s.HoldsKeys x pair.keyStart pair.rowsJ)
    (hQueries : s.HoldsQueries x pair.queryStart pair.rowsI) (hMask : x.mask = d.mask sh u t.blockJ)
    (hSource : source.isSome = d.isEnabled ∧ ∀ m ∈ source, m.Serves d sh u) :
    ∃ next source', s.recomputeScores pair x.headDim x.scale
        (x.biases.map fun bias => Tile.block pair.rowsI pair.rowsJ fun i j =>
          bias (pair.queryStart + i) (pair.keyStart + j)) source = .ok (next, source') ∧
      next.phase = .scoreRecompute ∧ next.HoldsKeys x pair.keyStart pair.rowsJ ∧
      next.HoldsQueries x pair.queryStart pair.rowsI ∧ next.HoldsScores x pair ∧
      source'.isSome = d.isEnabled ∧ ∀ m ∈ source', m.Serves d sh u := by
  have hEntry := probability_entry hI hJ hCols hKeys hQueries
  obtain ⟨n, hStart⟩ := hTile
  unfold recomputeScores
  rw [enter_eq hPhase, ok_bind]
  cases source with
  | none =>
      have hOff : d.isEnabled = false := hSource.1.symm
      have hNone : x.mask = none := by
        rw [hMask, Dropout.mask, hOff]
        rfl
      refine ⟨_, none, rfl, rfl, ⟨hKeys.key, hKeys.value⟩,
        ⟨hQueries.query, hQueries.gradOut, hQueries.lse, hQueries.delta⟩, ⟨hEntry, ?_⟩, hSource⟩
      intro mask h
      rw [hNone] at h
      cases h
  | some m =>
      have hOn : d.isEnabled = true := hSource.1.symm
      obtain ⟨hCalls, hTile⟩ := maskTile_entries (α := α) (t := t) (hSource.2 m rfl) pair hI hJ
      have hNext : (maskTile (α := α) (t := t) m pair).2.Serves d sh u := by
        rw [hCalls]
        exact (MaskSource.rows_spec (hSource.2 m rfl) pair.maskCalls).1
      refine ⟨_, _, rfl, rfl, ⟨hKeys.key, hKeys.value⟩,
        ⟨hQueries.query, hQueries.gradOut, hQueries.lse, hQueries.delta⟩, ⟨hEntry, ?_⟩,
        hOn.symm, ?_⟩
      · intro mask h i hi j hj
        have hFactor := Dropout.mask_part (n := n) (hMask.symm.trans h) (Nat.lt_of_lt_of_le hj hJ)
          (pair.queryStart + i)
        rw [← hStart] at hFactor
        exact (hTile i j).trans ((if_pos ⟨hi, hj⟩).trans hFactor.symm)
      · intro m' h
        cases h
        exact hNext

theorem stageValues_spec {keyRows : Nat} (hPhase : s.phase.allows .valueGrad = true)
    (hI : pair.rowsI ≤ t.blockI) (hJ : pair.rowsJ ≤ t.blockJ)
    (hKeys : s.HoldsKeys x pair.keyStart keyRows)
    (hQueries : s.HoldsQueries x pair.queryStart pair.rowsI) (hScores : s.HoldsScores x pair) :
    ∃ next, s.stageValues x.mask.isSome = .ok next ∧ next.phase = .valueGrad ∧
      next.HoldsKeys x pair.keyStart keyRows ∧ next.HoldsQueries x pair.queryStart pair.rowsI ∧
      next.HoldsScores x pair ∧ ∀ i < pair.rowsI, ∀ j < pair.rowsJ,
        next.staging.entry j i = x.weight (pair.queryStart + i) (pair.keyStart + j) := by
  unfold stageValues
  rw [enter_eq hPhase, ok_bind]
  refine ⟨_, rfl, rfl, ⟨hKeys.key, hKeys.value⟩,
    ⟨hQueries.query, hQueries.gradOut, hQueries.lse, hQueries.delta⟩,
    ⟨hScores.prob, hScores.mask⟩, fun i hi j hj => ?_⟩
  have hProb := hScores.prob i hi j hj
  rw [UnitValues.weight, UnitValues.masked]
  cases hMask : x.mask with
  | none => exact hProb
  | some mask =>
      have hFactor := hScores.mask mask hMask i hi j hj
      rw [Tile.entry_of_lt _ (by omega) (by omega)] at hProb hFactor
      show (Tile.ofFn fun j i => s.probT.get j i * s.mask.get i j : Tile α _ _).entry j i = _
      rw [Tile.entry_of_lt _ (by omega) (by omega), Tile.get_ofFn, hProb, hFactor]

theorem computeScoreGrad_spec (hPhase : s.phase.allows .scoreGrad = true)
    (hI : pair.rowsI ≤ t.blockI) (hJ : pair.rowsJ ≤ t.blockJ) (hCols : x.headDimValue ≤ t.maxHeadDim)
    (hKeys : s.HoldsKeys x pair.keyStart pair.rowsJ)
    (hQueries : s.HoldsQueries x pair.queryStart pair.rowsI) (hScores : s.HoldsScores x pair) :
    ∃ ds next, s.computeScoreGrad x.headDimValue x.scale x.mask.isSome = .ok (ds, next) ∧
      next.phase = .scoreGrad ∧ next.HoldsKeys x pair.keyStart pair.rowsJ ∧
      next.HoldsQueries x pair.queryStart pair.rowsI ∧
      (∀ i < pair.rowsI, ∀ j < pair.rowsJ,
        ds.entry i j = x.gradScore (pair.queryStart + i) (pair.keyStart + j)) ∧
      ∀ i < pair.rowsI, ∀ j < pair.rowsJ, next.gradScores.entry i j =
        x.gradScore (pair.queryStart + i) (pair.keyStart + j) * x.scale := by
  have hScore : ∀ i < pair.rowsI, ∀ j < pair.rowsJ,
      (s.scoreGradients x.headDimValue x.mask.isSome).entry i j =
        x.gradScore (pair.queryStart + i) (pair.keyStart + j) := by
    intro i hi j hj
    have hProb := hScores.prob i hi j hj
    rw [Tile.entry_of_lt _ (by omega) (by omega)] at hProb ⊢
    have hDot := Tile.dot_congr (hQueries.gradOut i hi) (hKeys.value j hj)
    rw [scoreGradients, Tile.get_ofFn]
    simp only [Tile.get_mulTransposeAdd, Tile.get_fill, Nat.min_eq_left hCols, hDot, hProb,
      UnitValues.gradScore, UnitValues.masked]
    have hRow := hQueries.delta i (by omega) hi
    cases hMask : x.mask with
    | none =>
        rw [← hRow]
        rfl
    | some mask =>
        have hFactor := hScores.mask mask hMask i hi j hj
        rw [Tile.entry_of_lt _ (by omega) (by omega)] at hFactor
        rw [hFactor, ← hRow]
        rfl
  unfold computeScoreGrad
  rw [enter_eq hPhase, ok_bind]
  refine ⟨_, _, rfl, rfl, ⟨hKeys.key, hKeys.value⟩,
    ⟨hQueries.query, hQueries.gradOut, hQueries.lse, hQueries.delta⟩, hScore, fun i hi j hj => ?_⟩
  rw [← hScore i hi j hj, Tile.entry_of_lt _ (by omega) (by omega),
    Tile.entry_of_lt _ (by omega) (by omega)]
  exact Tile.get_scale _ _ _ _

end Scratch

end FusedAttention
