import FusedAttention.Proofs.BiasEntries
import FusedAttention.Proofs.InPlace

/-! Scratch storage without memory. Two storages that may hold anything go through the stages of a pair
of tiles side by side: each stage takes storages that agree on the regions it reads to storages that
agree on those and on the regions it writes, so that what stood in them before never shows. The loops
of a unit then give the same results from whatever storage they start with. -/
namespace FusedAttention

variable {α ε : Type}

/-! ### Two storages side by side -/

namespace Scratch

variable {t : TileSize}

/-- Two storages hold the same key tile. -/
structure SameKeys (s s' : Scratch α t) : Prop where
  keyRows : s.keyRows = s'.keyRows
  valueRows : s.valueRows = s'.valueRows

/-- Two storages hold the same key tile and the same query tile, and stand at the same stage. -/
structure SameQueries (s s' : Scratch α t) : Prop extends SameKeys s s' where
  phase : s.phase = s'.phase
  queryRows : s.queryRows = s'.queryRows
  gradOutRows : s.gradOutRows = s'.gradOutRows
  lse : s.lse = s'.lse
  delta : s.delta = s'.delta

/-- They also hold the same probabilities, and the same mask if there is one. -/
structure SameScores (masked : Bool) (s s' : Scratch α t) : Prop extends SameQueries s s' where
  probT : s.probT = s'.probT
  mask : masked = true → s.mask = s'.mask

/-- They also hold the same operand of the value gradient. -/
structure SameValues (masked : Bool) (s s' : Scratch α t) : Prop extends SameScores masked s s' where
  staging : s.staging = s'.staging

/-- They also hold the same score gradients, and so all that a pair of tiles leaves. -/
structure SamePair (masked : Bool) (s s' : Scratch α t) : Prop extends SameValues masked s s' where
  gradScores : s.gradScores = s'.gradScores

/-- Storages that enter a phase keep their regions. -/
theorem enter_inStep (s s' : Scratch α t) (next : Phase) :
    InStep (fun x x' => x = { s with phase := next } ∧ x' = { s' with phase := next })
      (s.enter next) (s'.enter next) := by
  intro x x' hFirst hSecond
  unfold enter at hFirst hSecond
  split at hFirst <;> cases hFirst
  split at hSecond <;> cases hSecond
  exact ⟨rfl, rfl⟩

variable [Scalar α] [Element ε α] {s s' : Scratch α t}

theorem loadKeyTile_inStep {k v : Array ε} {windowK windowV : Window} {ext : TileExtent}
    {headDim headDimValue : Nat} :
    InStep SameKeys (s.loadKeyTile k v windowK windowV ext headDim headDimValue)
      (s'.loadKeyTile k v windowK windowV ext headDim headDimValue) := by
  refine .bind (enter_inStep s s' _) ?_
  rintro _ _ ⟨rfl, rfl⟩
  exact .bind_same fun keyRows => .bind_same fun valueRows => .ok ⟨rfl, rfl⟩

theorem loadQueryTile_inStep {q dO : Array ε} {windowQ windowDO : Window} {lse delta : Array α}
    {ext : TileExtent} {headDim headDimValue : Nat} (h : s.SameKeys s') :
    InStep SameQueries (s.loadQueryTile q dO windowQ windowDO lse delta ext headDim headDimValue)
      (s'.loadQueryTile q dO windowQ windowDO lse delta ext headDim headDimValue) := by
  refine .bind (enter_inStep s s' _) ?_
  rintro _ _ ⟨rfl, rfl⟩
  exact .bind_same fun queryRows => .bind_same fun gradOutRows => .bind_same fun lseFrom =>
    .bind_same fun lse => .bind_same fun deltaFrom => .bind_same fun delta =>
      .ok { h with phase := rfl, queryRows := rfl, gradOutRows := rfl, lse := rfl, delta := rfl }

omit [Element ε α] in
theorem recomputeScores_inStep {ext : TileExtent} {headDim : Nat} {scale : α}
    {biases : List (Tile α t.blockI t.blockJ)} {source : Option MaskSource} (h : s.SameQueries s') :
    InStep (fun x y => x.1.SameScores source.isSome y.1 ∧ x.2 = y.2)
      (s.recomputeScores ext headDim scale biases source)
      (s'.recomputeScores ext headDim scale biases source) := by
  refine .bind (enter_inStep s s' _) ?_
  rintro _ _ ⟨rfl, rfl⟩
  simp only [h.keyRows, h.queryRows, h.lse]
  cases source with
  | none =>
      exact .ok ⟨{ h with
        keyRows := rfl, queryRows := rfl, lse := rfl, phase := rfl, probT := rfl, mask := nofun }, rfl⟩
  | some source =>
      exact .ok ⟨{ h with
        keyRows := rfl, queryRows := rfl, lse := rfl, phase := rfl, probT := rfl,
        mask := fun _ => rfl }, rfl⟩

omit [Element ε α] in
theorem stageValues_inStep {masked : Bool} (h : s.SameScores masked s') :
    InStep (SameValues masked) (s.stageValues masked) (s'.stageValues masked) := by
  refine .bind (enter_inStep s s' _) ?_
  rintro _ _ ⟨rfl, rfl⟩
  refine .ok { h with phase := rfl, staging := ?_ }
  cases masked with
  | false => exact h.probT
  | true => simp only [h.probT, h.mask rfl]

omit [Element ε α] in
theorem computeScoreGrad_inStep {masked : Bool} {headDimValue : Nat} {scale : α}
    (h : s.SameValues masked s') :
    InStep (fun x y => x.1 = y.1 ∧ x.2.SamePair masked y.2)
      (s.computeScoreGrad headDimValue scale masked)
      (s'.computeScoreGrad headDimValue scale masked) := by
  refine .bind (enter_inStep s s' _) ?_
  rintro _ _ ⟨rfl, rfl⟩
  have hScores : scoreGradients { s with phase := .scoreGrad } headDimValue masked =
      scoreGradients { s' with phase := .scoreGrad } headDimValue masked := by
    simp only [scoreGradients, h.gradOutRows, h.valueRows, h.probT, h.delta]
    cases masked with
    | false => rfl
    | true => simp only [h.mask rfl]
  rw [hScores]
  exact .ok ⟨rfl, { h with phase := rfl, gradScores := rfl }⟩

end Scratch

/-! ### Two arenas side by side -/

namespace Arena

variable {t : TileSize}

/-- Two arenas hold all the same that a pair of tiles leaves. -/
structure SamePair (masked : Bool) (a b : Arena α t) : Prop where
  scratch : a.scratch.SamePair masked b.scratch
  scores : a.scores = b.scores
  gradProbs : a.gradProbs = b.gradProbs

variable [Scalar α] [Element ε α] {a b : Arena α t}

theorem loadKeyTile_inStep {k v : Array ε} {windowK windowV : Window} {ext : TileExtent}
    {headDim headDimValue : Nat} :
    InStep (fun x y => x.scratch.SameKeys y.scratch)
      (a.loadKeyTile k v windowK windowV ext headDim headDimValue)
      (b.loadKeyTile k v windowK windowV ext headDim headDimValue) := by
  rw [loadKeyTile_eq, loadKeyTile_eq]
  exact .map Scratch.loadKeyTile_inStep fun _ _ h => h

theorem loadQueryTile_inStep {q dO : Array ε} {windowQ windowDO : Window} {lse delta : Array α}
    {ext : TileExtent} {headDim headDimValue : Nat} (h : a.scratch.SameKeys b.scratch) :
    InStep (fun x y => x.scratch.SameQueries y.scratch)
      (a.loadQueryTile q dO windowQ windowDO lse delta ext headDim headDimValue)
      (b.loadQueryTile q dO windowQ windowDO lse delta ext headDim headDimValue) := by
  rw [loadQueryTile_eq, loadQueryTile_eq]
  exact .map (Scratch.loadQueryTile_inStep h) fun _ _ h => h

omit [Element ε α] in
theorem recomputeScores_inStep {ext : TileExtent} {headDim : Nat} {scale : α}
    {biases : List (Tile α t.blockI t.blockJ)} {source : Option MaskSource}
    (h : a.scratch.SameQueries b.scratch) :
    InStep (fun x y => (x.1.scratch.SameScores source.isSome y.1.scratch ∧ x.1.scores = y.1.scores) ∧
        x.2 = y.2)
      (a.recomputeScores ext headDim scale biases source)
      (b.recomputeScores ext headDim scale biases source) := by
  rw [recomputeScores_eq, recomputeScores_eq]
  refine .map (Scratch.recomputeScores_inStep h) fun x y ⟨hScores, hSource⟩ => ⟨⟨hScores, ?_⟩, hSource⟩
  simp only [hScores.keyRows, hScores.queryRows]

omit [Element ε α] in
theorem stageValues_inStep {masked : Bool} (h : a.scratch.SameScores masked b.scratch)
    (hScores : a.scores = b.scores) :
    InStep (fun x y => x.scratch.SameValues masked y.scratch ∧ x.scores = y.scores)
      (a.stageValues masked) (b.stageValues masked) := by
  rw [stageValues_eq, stageValues_eq]
  exact .map (Scratch.stageValues_inStep h) fun _ _ hValues => ⟨hValues, hScores⟩

omit [Element ε α] in
theorem computeScoreGrad_inStep {masked : Bool} {headDimValue : Nat} {scale : α}
    (h : a.scratch.SameValues masked b.scratch) (hScores : a.scores = b.scores) :
    InStep (fun x y => x.1 = y.1 ∧ x.2.SamePair masked y.2)
      (a.computeScoreGrad headDimValue scale masked)
      (b.computeScoreGrad headDimValue scale masked) := by
  rw [computeScoreGrad_eq, computeScoreGrad_eq]
  refine .map (Scratch.computeScoreGrad_inStep h) fun x y ⟨hDs, hPair⟩ => ⟨hDs, hPair, hScores, ?_⟩
  simp only [hPair.gradOutRows, hPair.valueRows]

/-! ### One arena -/

/-- The rows that a source gives have the lengths they were asked for. -/
theorem size_of_mem_rows {source : MaskSource} {calls : List MaskCall} {row : Array α}
    (h : row ∈ (source.rows calls).1) : ∃ call ∈ calls, row.size = call.length := by
  induction calls generalizing source with
  | nil => cases h
  | cons call rest ih =>
      rw [MaskSource.rows_cons] at h
      rcases List.mem_cons.mp h with rfl | h
      · refine ⟨call, List.mem_cons_self, ?_⟩
        show (((source.reader.seek _).take call.length).1.map source.dropout.factor).toArray.size = _
        rw [Random.Reader.take_words]
        simp
      · obtain ⟨other, hOther, hSize⟩ := ih h
        exact ⟨other, List.mem_cons_of_mem _ hOther, hSize⟩

/-- A mask is zero outside the block of its pair, whatever source it is built from. -/
theorem get_maskTile_outside (source : MaskSource) (ext : TileExtent) {i : Fin t.blockI}
    {j : Fin t.blockJ} (h : ¬ (j.val < ext.rowsJ ∧ i.val < ext.rowsI)) :
    (Scratch.maskTile source ext : Tile α t.blockI t.blockJ × MaskSource).1.get i j = 0 := by
  rw [← Scratch.maskTileInto_eq (Tile.fill 0)]
  unfold Scratch.maskTileInto
  rw [Tile.refill_eq, Scratch.foldl_putRow]
  dsimp only
  rw [Tile.get_ofFn, Array.getD_eq_getD_getElem?, List.getD_eq_getElem?_getD]
  cases hRow : (source.rows (α := α)
      (rowCalls ext.queryStart ext.keyStart ext.rowsJ ext.rowsI)).1[i.val]? with
  | none => simp
  | some row =>
      have hIn : i.val < ext.rowsI := by
        have hLength := (List.getElem?_eq_some_iff.mp hRow).1
        rwa [MaskSource.length_rows, rowCalls, List.length_map, List.length_range] at hLength
      obtain ⟨call, hCall, hSize⟩ := size_of_mem_rows (List.mem_of_getElem? hRow)
      obtain ⟨k, -, rfl⟩ := List.mem_map.mp hCall
      have hSize : row.size = ext.rowsJ := hSize
      rw [Option.getD_some, Array.getElem?_eq_none (by omega), Option.getD_none]

/-- Probabilities and mask vanish outside the block of a pair. -/
structure Vanishes (a : Arena α t) (ext : TileExtent) (masked : Bool) : Prop where
  probT : ∀ (j : Fin t.blockJ) (i : Fin t.blockI), ¬ (j.val < ext.rowsJ ∧ i.val < ext.rowsI) →
    a.scratch.probT.get j i = 0
  mask : masked = true → ∀ (j : Fin t.blockJ) (i : Fin t.blockI),
    ¬ (j.val < ext.rowsJ ∧ i.val < ext.rowsI) → a.scratch.mask.get i j = 0

omit [Element ε α] in
theorem recomputeScores_ok (hPhase : a.scratch.phase.allows .scoreRecompute = true) (ext : TileExtent)
    (headDim : Nat) (scale : α) (biases : List (Tile α t.blockI t.blockJ))
    (source : Option MaskSource) :
    ∃ next source', a.recomputeScores ext headDim scale biases source = .ok (next, source') ∧
      next.scratch.phase = .scoreRecompute ∧ next.Vanishes ext source.isSome ∧
      (source = none → next.scratch.mask = a.scratch.mask) := by
  rw [recomputeScores_eq]
  unfold Scratch.recomputeScores
  rw [Scratch.enter_eq hPhase, ok_bind]
  have hOutside : ∀ (scores : Fin t.blockJ → Fin t.blockI → α) (j : Fin t.blockJ) (i : Fin t.blockI),
      ¬ (j.val < ext.rowsJ ∧ i.val < ext.rowsI) →
      (Tile.ofFn fun j i => if j.val < ext.rowsJ ∧ i.val < ext.rowsI then scores j i else 0 :
        Tile α t.blockJ t.blockI).get j i = 0 := fun scores j i h => by
    rw [Tile.get_ofFn, if_neg h]
  cases source with
  | none => exact ⟨_, _, rfl, rfl, ⟨hOutside _, nofun⟩, fun _ => rfl⟩
  | some source =>
      exact ⟨_, _, rfl, rfl, ⟨hOutside _, fun _ j i h => get_maskTile_outside source ext h⟩, nofun⟩

omit [Element ε α] in
theorem stageValues_ok (hPhase : a.scratch.phase.allows .valueGrad = true) (hZero : (0 : α) * 0 = 0)
    {ext : TileExtent} {masked : Bool} (hVanishes : a.Vanishes ext masked) :
    ∃ next, a.stageValues masked = .ok next ∧ next.scratch.phase = .valueGrad ∧
      next.scratch.mask = a.scratch.mask ∧ next.scratch.probT = a.scratch.probT ∧
      ∀ (j : Fin t.blockJ) (i : Fin t.blockI), ¬ (j.val < ext.rowsJ ∧ i.val < ext.rowsI) →
        next.scratch.staging.get j i = 0 := by
  rw [stageValues_eq]
  unfold Scratch.stageValues
  rw [Scratch.enter_eq hPhase, ok_bind]
  refine ⟨_, rfl, rfl, rfl, rfl, fun j i h => ?_⟩
  dsimp only
  cases masked with
  | false => exact hVanishes.probT j i h
  | true => rw [if_pos rfl, Tile.get_ofFn, hVanishes.probT j i h, hVanishes.mask rfl j i h, hZero]

omit [Element ε α] in
theorem computeScoreGrad_ok (hPhase : a.scratch.phase.allows .scoreGrad = true) (headDimValue : Nat)
    (scale : α) (masked : Bool) :
    ∃ ds next, a.computeScoreGrad headDimValue scale masked = .ok (ds, next) ∧
      next.scratch.mask = a.scratch.mask ∧ next.scratch.probT = a.scratch.probT ∧
      next.scratch.staging = a.scratch.staging := by
  rw [computeScoreGrad_eq]
  unfold Scratch.computeScoreGrad
  rw [Scratch.enter_eq hPhase, ok_bind]
  exact ⟨_, _, rfl, rfl, rfl, rfl⟩

end Arena

/-! ### Pairs of tiles -/

namespace Kernel

variable [Scalar α] [Element ε α]

/-- The stages of a pair from the load of its query tile on. Gives the score gradients that the bias
gradients receive, the source of the mask and the arena as the products find it. -/
def queryStages (kernel : Kernel α ε) (view : UnitView α) (ext : TileExtent)
    (source : Option MaskSource) (a : Arena α kernel.tiles) :
    Except Fault (Tile α kernel.tiles.blockI kernel.tiles.blockJ × Option MaskSource ×
      Arena α kernel.tiles) := do
  let a ← a.loadQueryTile kernel.request.inputs.q kernel.request.inputs.dO view.inputs.q
    view.inputs.dO view.lse view.delta ext kernel.shape.headDim kernel.shape.headDimValue
  let biases ← kernel.biasTiles view.coord ext
  let (a, next) ← a.recomputeScores ext kernel.shape.headDim kernel.scale biases source
  let a ← a.stageValues source.isSome
  let (ds, a) ← a.computeScoreGrad kernel.shape.headDimValue kernel.scale source.isSome
  return (ds, next, a)

/-- All stages of a pair, the load of its key tile among them. -/
def pairStages (kernel : Kernel α ε) (view : UnitView α) (ext : TileExtent)
    (source : Option MaskSource) (a : Arena α kernel.tiles) :
    Except Fault (Tile α kernel.tiles.blockI kernel.tiles.blockJ × Option MaskSource ×
      Arena α kernel.tiles) := do
  let a ← a.loadKeyTile kernel.request.inputs.k kernel.request.inputs.v view.inputs.k view.inputs.v ext
    kernel.shape.headDim kernel.shape.headDimValue
  kernel.queryStages view ext source a

/-- The pair fits the tiles, and what it reads of the tensors is there. -/
structure Admits (kernel : Kernel α ε) (view : UnitView α) (ext : TileExtent) : Prop where
  rowsI_le : ext.rowsI ≤ kernel.tiles.blockI
  rowsJ_le : ext.rowsJ ≤ kernel.tiles.blockJ
  headDim_le : kernel.shape.headDim ≤ kernel.tiles.maxHeadDim
  headDimValue_le : kernel.shape.headDimValue ≤ kernel.tiles.maxHeadDim
  keys : ∀ j < ext.rowsJ, view.inputs.k.rowStart (ext.keyStart + j) + kernel.shape.headDim ≤
    kernel.request.inputs.k.size
  values : ∀ j < ext.rowsJ, view.inputs.v.rowStart (ext.keyStart + j) + kernel.shape.headDimValue ≤
    kernel.request.inputs.v.size
  queries : ∀ i < ext.rowsI, view.inputs.q.rowStart (ext.queryStart + i) + kernel.shape.headDim ≤
    kernel.request.inputs.q.size
  gradOuts : ∀ i < ext.rowsI,
    view.inputs.dO.rowStart (ext.queryStart + i) + kernel.shape.headDimValue ≤
      kernel.request.inputs.dO.size
  lse : ext.queryStart + ext.rowsI ≤ view.lse.size
  delta : ext.queryStart + ext.rowsI ≤ view.delta.size
  biases : ∀ kind, ∀ data ∈ kernel.request.biases.get kind, ∀ i < ext.rowsI,
    (kind.window kernel.shape view.coord ext.queryStart ext.keyStart).rowStart i + ext.rowsJ ≤ data.size

variable {kernel : Kernel α ε} {view : UnitView α} {ext : TileExtent} {source : Option MaskSource}
  {a b : Arena α kernel.tiles}

/-- Two passes over a pair give the same score gradients and the same source of the mask, and leave
arenas that hold the same. -/
def SamePass {t : TileSize} (masked : Bool)
    (x y : Tile α t.blockI t.blockJ × Option MaskSource × Arena α t) : Prop :=
  x.1 = y.1 ∧ x.2.1 = y.2.1 ∧ x.2.2.SamePair masked y.2.2

theorem queryStages_inStep (h : a.scratch.SameKeys b.scratch) :
    InStep (SamePass source.isSome) (kernel.queryStages view ext source a)
      (kernel.queryStages view ext source b) := by
  refine .bind (Arena.loadQueryTile_inStep h) fun a b hQueries => ?_
  refine .bind_same fun biases => ?_
  refine .bind (Arena.recomputeScores_inStep hQueries) ?_
  rintro ⟨a, next⟩ ⟨b, next'⟩ ⟨⟨hScores, hProducts⟩, hNext⟩
  refine .bind (Arena.stageValues_inStep hScores hProducts) fun a b ⟨hValues, hProducts⟩ => ?_
  refine .bind (Arena.computeScoreGrad_inStep hValues hProducts) fun ⟨ds, a⟩ ⟨ds', b⟩ ⟨hDs, hPair⟩ => ?_
  exact .ok ⟨hDs, hNext, hPair⟩

theorem pairStages_inStep :
    InStep (SamePass source.isSome) (kernel.pairStages view ext source a)
      (kernel.pairStages view ext source b) :=
  .bind Arena.loadKeyTile_inStep fun _ _ hKeys => queryStages_inStep hKeys

/-- The key tile of a pair that is admitted is loaded. -/
theorem Admits.loadKeyTile_ok (h : kernel.Admits view ext)
    (hPhase : a.scratch.phase.allows .loadKeys = true) :
    ∃ next, a.loadKeyTile kernel.request.inputs.k kernel.request.inputs.v view.inputs.k view.inputs.v ext
        kernel.shape.headDim kernel.shape.headDimValue = .ok next ∧
      next.scratch.phase = .loadKeys ∧ next.scratch.mask = a.scratch.mask := by
  rw [Arena.loadKeyTile_eq,
    Scratch.loadKeyTile_eq hPhase h.rowsJ_le h.headDim_le h.headDimValue_le h.keys h.values]
  exact ⟨_, rfl, rfl, rfl⟩

/-- The query tile of a pair that is admitted is loaded. -/
theorem Admits.loadQueryTile_ok (h : kernel.Admits view ext)
    (hPhase : a.scratch.phase.allows .loadQueries = true) :
    ∃ next, a.loadQueryTile kernel.request.inputs.q kernel.request.inputs.dO view.inputs.q
        view.inputs.dO view.lse view.delta ext kernel.shape.headDim kernel.shape.headDimValue =
          .ok next ∧
      next.scratch.phase = .loadQueries ∧ next.scratch.mask = a.scratch.mask := by
  rw [Arena.loadQueryTile_eq, Scratch.loadQueryTile_eq hPhase h.rowsI_le h.headDim_le h.headDimValue_le
    h.queries h.gradOuts h.lse h.delta]
  exact ⟨_, rfl, rfl, rfl⟩

/-- A pass over a pair succeeds. Probabilities and the operand of the value gradient vanish outside its
block, and without dropout the mask stays as it was. -/
def Settles (kernel : Kernel α ε) (ext : TileExtent) (source : Option MaskSource)
    (pass : Arena α kernel.tiles → Except Fault (Tile α kernel.tiles.blockI kernel.tiles.blockJ ×
      Option MaskSource × Arena α kernel.tiles)) (a : Arena α kernel.tiles) : Prop :=
  ∃ ds next a', pass a = .ok (ds, next, a') ∧
    (∀ (j : Fin kernel.tiles.blockJ) (i : Fin kernel.tiles.blockI),
      ¬ (j.val < ext.rowsJ ∧ i.val < ext.rowsI) →
        a'.scratch.probT.get j i = 0 ∧ a'.scratch.staging.get j i = 0) ∧
    (source = none → a'.scratch.mask = a.scratch.mask)

theorem Admits.queryStages_settles (h : kernel.Admits view ext) (hZero : (0 : α) * 0 = 0)
    (hPhase : a.scratch.phase.allows .loadQueries = true) :
    kernel.Settles ext source (kernel.queryStages view ext source) a := by
  obtain ⟨a₁, hLoad, hPhase₁, hMask₁⟩ := h.loadQueryTile_ok hPhase
  have hBiases := kernel.biasTiles_eq h.rowsI_le h.rowsJ_le h.biases
  obtain ⟨a₂, next, hScores, hPhase₂, hVanishes, hMask₂⟩ :=
    Arena.recomputeScores_ok (a := a₁) (by rw [hPhase₁]; rfl) ext kernel.shape.headDim kernel.scale _
      source
  obtain ⟨a₃, hValues, hPhase₃, hMask₃, hProb₃, hStaging₃⟩ :=
    Arena.stageValues_ok (a := a₂) (by rw [hPhase₂]; rfl) hZero hVanishes
  obtain ⟨ds, a₄, hGrad, hMask₄, hProb₄, hStaging₄⟩ :=
    Arena.computeScoreGrad_ok (a := a₃) (by rw [hPhase₃]; rfl) kernel.shape.headDimValue kernel.scale
      source.isSome
  refine ⟨ds, next, a₄, ?_, fun j i hOutside => ⟨?_, ?_⟩, fun hOff => ?_⟩
  · exact bind_eq_of_ok hLoad (bind_eq_of_ok hBiases (bind_eq_of_ok hScores
      (bind_eq_of_ok hValues (bind_eq_of_ok hGrad rfl))))
  · rw [hProb₄, hProb₃]
    exact hVanishes.probT j i hOutside
  · rw [hStaging₄]
    exact hStaging₃ j i hOutside
  · rw [hMask₄, hMask₃, hMask₂ hOff, hMask₁]

theorem Admits.pairStages_settles (h : kernel.Admits view ext) (hZero : (0 : α) * 0 = 0)
    (hPhase : a.scratch.phase.allows .loadKeys = true) :
    kernel.Settles ext source (kernel.pairStages view ext source) a := by
  obtain ⟨a₁, hLoad, hPhase₁, hMask₁⟩ := h.loadKeyTile_ok hPhase
  have hRest : kernel.Settles ext source (kernel.queryStages view ext source) a₁ :=
    h.queryStages_settles hZero (by rw [hPhase₁]; rfl)
  obtain ⟨ds, next, a', hRun, hOutside, hMask⟩ := hRest
  exact ⟨ds, next, a', bind_eq_of_ok hLoad hRun, hOutside, fun hOff => (hMask hOff).trans hMask₁⟩

/-! ### The loops of a unit -/

/-- Two states of a unit that differ in scratch storage at most. -/
structure SameResults {t : TileSize} (state state' : UnitState α ε t) : Prop where
  memory : state.memory = state'.memory
  mask : state.mask = state'.mask
  gradK : state.gradK = state'.gradK
  gradV : state.gradV = state'.gradV

section Loops

variable {kernel : Kernel α ε} {view : UnitView α} (keyStart : Nat)
  {state state' : UnitState α ε kernel.tiles}

/-- A pair gives the same results from all storages that hold its key tile, and keeps the key tile. -/
theorem runPair_forgets (queryStart : Nat) (h : SameResults state state')
    (hKeys : state.scratch.SameKeys state'.scratch) :
    InStep (fun x y => SameResults x y ∧ x.scratch.SameKeys y.scratch)
      (kernel.runPair view keyStart state queryStart)
      (kernel.runPair view keyStart state' queryStart) := by
  obtain ⟨memory, mask, scratch, accK, accV⟩ := state
  obtain ⟨memory', mask', scratch', accK', accV'⟩ := state'
  obtain rfl : memory = memory' := h.memory
  obtain rfl : mask = mask' := h.mask
  obtain rfl : accK = accK' := h.gradK
  obtain rfl : accV = accV' := h.gradV
  refine .bind (Scratch.loadQueryTile_inStep hKeys) fun scratch scratch' hQueries => ?_
  refine .bind_same fun biases => .bind_same fun _ => ?_
  refine .bind (Scratch.recomputeScores_inStep hQueries) ?_
  rintro ⟨scratch, mask⟩ ⟨scratch', mask'⟩ ⟨hScores, hMask⟩
  obtain rfl : mask = mask' := hMask
  refine .bind (Scratch.stageValues_inStep hScores) fun scratch scratch' hValues => ?_
  rw [hValues.staging, hValues.gradOutRows]
  refine .bind_same fun ⟨accV, gradV⟩ => ?_
  refine .bind (Scratch.computeScoreGrad_inStep hValues) ?_
  rintro ⟨ds, scratch⟩ ⟨ds', scratch'⟩ ⟨hDs, hPair⟩
  obtain rfl : ds = ds' := hDs
  refine .bind_same fun biasGrads => .bind (Scratch.enter_inStep scratch scratch' _) ?_
  rintro _ _ ⟨rfl, rfl⟩
  dsimp only
  rw [hPair.gradScores, hPair.keyRows]
  refine .bind_same fun gradQ => .bind (Scratch.enter_inStep _ _ _) ?_
  rintro _ _ ⟨rfl, rfl⟩
  dsimp only
  rw [hPair.queryRows]
  exact .bind_same fun ⟨accK, gradK⟩ => .ok ⟨⟨rfl, rfl, rfl, rfl⟩, rfl, hPair.valueRows⟩

/-- The pairs of a key tile give the same results from all storages. -/
theorem runQueries_forgets (h : SameResults state state') :
    InStep SameResults (kernel.runQueries view keyStart state)
      (kernel.runQueries view keyStart state') := by
  unfold runQueries
  by_cases hSome : kernel.firstQuery keyStart < kernel.shape.numQueries
  · have hLoad : InStep (fun x y => SameResults x y ∧ x.scratch.SameKeys y.scratch)
        (kernel.loadKeys view keyStart state) (kernel.loadKeys view keyStart state') := by
      unfold loadKeys
      rw [if_pos hSome, if_pos hSome]
      exact .bind Scratch.loadKeyTile_inStep fun _ _ hKeys =>
        .ok ⟨⟨h.memory, h.mask, h.gradK, h.gradV⟩, hKeys⟩
    refine .bind hLoad fun x y hLoaded => ?_
    -- Every pair finds the key tile that was loaded for the first one.
    have hPairs : ∀ queryStarts : List Nat,
        InStep (fun x y => SameResults x y ∧ x.scratch.SameKeys y.scratch)
          (queryStarts.foldlM (kernel.runPair view keyStart) x)
          (queryStarts.foldlM (kernel.runPair view keyStart) y) := fun _ =>
      .foldlM (fun _ _ queryStart hSame => runPair_forgets keyStart queryStart hSame.1 hSame.2) hLoaded
    exact fun _ _ hFirst hSecond => (hPairs _ _ _ hFirst hSecond).1
  · unfold loadKeys
    rw [if_neg hSome, if_neg hSome, tileStarts_eq_nil (Nat.le_of_not_lt hSome)]
    exact .ok h

theorem runKeyTile_forgets (h : SameResults state state') :
    InStep SameResults (kernel.runKeyTile view state keyStart)
      (kernel.runKeyTile view state' keyStart) := by
  obtain ⟨memory, mask, scratch, accK, accV⟩ := state
  obtain ⟨memory', mask', scratch', accK', accV'⟩ := state'
  obtain rfl : memory = memory' := h.memory
  obtain rfl : mask = mask' := h.mask
  unfold runKeyTile
  split
  · refine .bind (runQueries_forgets keyStart ⟨rfl, rfl, rfl, rfl⟩) ?_
    rintro ⟨memory, mask, scratch, accK, accV⟩ ⟨memory', mask', scratch', accK', accV'⟩ hRun
    obtain rfl : memory = memory' := hRun.memory
    obtain rfl : accK = accK' := hRun.gradK
    obtain rfl : accV = accV' := hRun.gradV
    exact .bind_same fun gradK => .bind_same fun gradV => .ok ⟨rfl, hRun.mask, rfl, rfl⟩
  · split
    · exact .bind_same fun grads => .ok ⟨rfl, rfl, h.gradK, h.gradV⟩
    · exact runQueries_forgets keyStart h

/-- Whatever scratch storage a unit starts with, its key tiles give the same results. -/
theorem runKeyTiles_forget (keyStarts : List Nat) (h : SameResults state state') :
    InStep SameResults (keyStarts.foldlM (kernel.runKeyTile view) state)
      (keyStarts.foldlM (kernel.runKeyTile view) state') :=
  .foldlM (fun _ _ keyStart hSame => runKeyTile_forgets keyStart hSame) h

end Loops

/-! ### Whatever the arenas held -/

/-- Two arenas forget what they held: a pass over a pair of tiles succeeds on both, gives the same and
leaves the same, with zeros for the probabilities and the operand of the value gradient outside the
block of the pair. Without dropout the mask is left as it was. -/
def Forgets (kernel : Kernel α ε) (ext : TileExtent) (source : Option MaskSource)
    (pass : Arena α kernel.tiles → Except Fault (Tile α kernel.tiles.blockI kernel.tiles.blockJ ×
      Option MaskSource × Arena α kernel.tiles)) (a b : Arena α kernel.tiles) : Prop :=
  ∃ ds next a' b', pass a = .ok (ds, next, a') ∧ pass b = .ok (ds, next, b') ∧
    a'.SamePair source.isSome b' ∧
    (∀ (j : Fin kernel.tiles.blockJ) (i : Fin kernel.tiles.blockI),
      ¬ (j.val < ext.rowsJ ∧ i.val < ext.rowsI) →
        a'.scratch.probT.get j i = 0 ∧ a'.scratch.staging.get j i = 0) ∧
    (source = none → a'.scratch.mask = a.scratch.mask ∧ b'.scratch.mask = b.scratch.mask)

omit [Element ε α] in
/-- Passes that succeed and go in step forget. -/
theorem Settles.forgets {pass : Arena α kernel.tiles → Except Fault (Tile α kernel.tiles.blockI
      kernel.tiles.blockJ × Option MaskSource × Arena α kernel.tiles)}
    (hA : kernel.Settles ext source pass a) (hB : kernel.Settles ext source pass b)
    (hInStep : InStep (SamePass source.isSome) (pass a) (pass b)) :
    kernel.Forgets ext source pass a b := by
  obtain ⟨ds, next, a', hRunA, hOutside, hMaskA⟩ := hA
  obtain ⟨ds', next', b', hRunB, -, hMaskB⟩ := hB
  obtain ⟨rfl, rfl, hSame⟩ := hInStep _ _ hRunA hRunB
  exact ⟨ds, next, a', b', hRunA, hRunB, hSame, hOutside, fun hOff => ⟨hMaskA hOff, hMaskB hOff⟩⟩

/-- Stale scratch never shows. Whatever two arenas hold, all stages of a pair forget it; and if they hold
the same key tile, so do the stages from the load of another query tile on. -/
theorem stages_forget [Element ε Float32] {kernel : Kernel Float32 ε} {view : UnitView Float32}
    {ext : TileExtent} (hAdmits : kernel.Admits view ext) (source : Option MaskSource) :
    (∀ a b : Arena Float32 kernel.tiles, a.scratch.phase.allows .loadKeys = true →
      b.scratch.phase.allows .loadKeys = true →
        kernel.Forgets ext source (kernel.pairStages view ext source) a b) ∧
    ∀ a b : Arena Float32 kernel.tiles, a.scratch.SameKeys b.scratch →
      a.scratch.phase.allows .loadQueries = true → b.scratch.phase.allows .loadQueries = true →
        kernel.Forgets ext source (kernel.queryStages view ext source) a b := by
  have hZero : (0 : Float32) * 0 = 0 := by decide +kernel
  constructor
  · intro a b hA hB
    exact Settles.forgets (hAdmits.pairStages_settles hZero hA) (hAdmits.pairStages_settles hZero hB)
      pairStages_inStep
  · intro a b hKeys hA hB
    exact Settles.forgets (hAdmits.queryStages_settles hZero hA)
      (hAdmits.queryStages_settles hZero hB) (queryStages_inStep hKeys)

/-- One query and one key in tiles of two by two: an arena of zeros and one that is full of NaN leave the
same, also where the pair does not reach. -/
theorem stages_forget_nan :
    let nan : Float32 := 0 / 0
    let kernel : Kernel Float32 Float32 :=
      { request :=
          { (default : Request Float32 Float32) with
            shape := ⟨1, 1, 1, 1, 1, 1, 1⟩
            inputs := ⟨#[1], #[2], #[3], #[4], #[5]⟩
            biases := ⟨some #[6], none⟩ }
        plan := .of .f32 ⟨2, 2, 1⟩
        workspace := default
        scale := 1
        dropout := .disabled
        overflow := .checked
        policy := fullAttention }
    let view : UnitView Float32 := ⟨⟨0, 0⟩, default, default, #[1], #[1]⟩
    let zeros : Arena Float32 ⟨2, 2, 1⟩ := ⟨.fresh _, .fill 0, .fill 0⟩
    let stale : Arena Float32 ⟨2, 2, 1⟩ :=
      ⟨⟨.loadKeys, .fill nan, .fill nan, .fill nan, .fill nan, .replicate 2 nan, .replicate 2 nan,
        .fill nan, .fill nan, .fill nan, .fill nan⟩, .fill nan, .fill nan⟩
    kernel.Admits view ⟨0, 0, 1, 1⟩ ∧ ∃ ds next a' b',
      kernel.pairStages view ⟨0, 0, 1, 1⟩ none zeros = .ok (ds, next, a') ∧
      kernel.pairStages view ⟨0, 0, 1, 1⟩ none stale = .ok (ds, next, b') ∧
      a'.scratch.gradScores = b'.scratch.gradScores ∧
      a'.scratch.probT.get ⟨1, by decide⟩ ⟨0, by decide⟩ = 0 := by
  intro nan kernel view zeros stale
  have hAdmits : kernel.Admits view ⟨0, 0, 1, 1⟩ :=
    { rowsI_le := by decide
      rowsJ_le := by decide
      headDim_le := by decide
      headDimValue_le := by decide
      keys := by decide
      values := by decide
      queries := by decide
      gradOuts := by decide
      lse := by decide
      delta := by decide
      biases := by
        rintro (_ | _) data hData i hi
        · cases hData
          revert i
          decide
        · cases hData }
  obtain ⟨ds, next, a', b', hRunA, hRunB, hSame, hOutside, -⟩ :=
    (stages_forget hAdmits none).1 zeros stale rfl rfl
  have hVanishes := hOutside ⟨1, by decide⟩ ⟨0, by decide⟩ (by decide)
  exact ⟨hAdmits, ds, next, a', b', hRunA, hRunB, hSame.scratch.gradScores, hVanishes.1⟩

end Kernel

end FusedAttention
