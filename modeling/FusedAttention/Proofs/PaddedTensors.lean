import Mathlib
import FusedAttention.Proofs.Addresses
import FusedAttention.Proofs.DenseBackward

/-! Padding is transparent. Padded rows are the elements of a dense tensor at the addresses of the aligned
layout, with zeros between them, and taking the padding off reads the same addresses. So the backward
pass on dense tensors gives, element by element, what its launch leaves for the numbers of the tensors. -/
namespace FusedAttention

variable {τ : Type}

/-- Place of an element in a dense `[batch, rows, heads, cols]` tensor. -/
def ElementCoord.place (e : ElementCoord) (rows heads cols : Nat) : Nat :=
  ((e.unit.batchId * rows + e.row) * heads + e.unit.head) * cols + e.col

namespace Layout

/-- A buffer has each element of a dense `[batch, rows, heads, cols]` tensor at its address. -/
def Arranges (l : Layout) (batch rows heads cols : Nat) (dense run : Array τ) : Prop :=
  ∀ e ∈ elements batch rows heads cols, ∃ y,
    dense[e.place rows heads cols]? = some y ∧ run[l.addressOf e]? = some y

variable {batch rows heads cols : Nat} {dense run : Array τ}

/-! ### Aligned layouts -/

/-- Rows of an aligned layout come in the order of the dense tensor. -/
theorem addressOf_aligned (rows heads cols : Nat) (e : ElementCoord) :
    (aligned rows heads cols).addressOf e =
      ((e.unit.batchId * rows + e.row) * heads + e.unit.head) * alignUp cols lineSize + e.col := by
  simp only [addressOf, address, unitOffset, aligned, packed]
  ring

theorem size_aligned (batch rows heads cols : Nat) :
    batch * (aligned rows heads cols).batchStride =
      batch * rows * heads * alignUp cols lineSize := by
  simp only [aligned, packed, Nat.mul_assoc]

/-- The row of an element is one of those of the tensor. -/
theorem line_lt {e : ElementCoord} (he : e ∈ elements batch rows heads cols) :
    (e.unit.batchId * rows + e.row) * heads + e.unit.head < batch * rows * heads :=
  mul_add_lt (mul_add_lt he.1.1 he.2.1) he.1.2

/-- A place of a padded buffer that holds no element is in the padding of some row. -/
theorem exists_padding {p : Nat} (hp : p < batch * rows * heads * alignUp cols lineSize)
    (hFree : ∀ e ∈ elements batch rows heads cols, (aligned rows heads cols).addressOf e ≠ p) :
    ∃ row < batch * rows * heads, ∃ col < alignUp cols lineSize,
      p = row * alignUp cols lineSize + col ∧ ¬ col < cols := by
  obtain ⟨line, hLine, col, hCol, rfl⟩ := exists_mul_add hp
  refine ⟨line, hLine, col, hCol, rfl, fun hIn => ?_⟩
  obtain ⟨rest, hRest, head, hHead, rfl⟩ := exists_mul_add hLine
  obtain ⟨batchId, hBatch, row, hRow, rfl⟩ := exists_mul_add hRest
  refine hFree ⟨⟨batchId, head⟩, row, col⟩ ⟨⟨hBatch, hHead⟩, hRow, hIn⟩ ?_
  rw [addressOf_aligned]

/-- Padding puts every element at its address in the aligned layout and zeros everywhere else, and
taking it off gives the tensor back. -/
theorem padRows_aligned (zero : τ) (hSize : dense.size = batch * rows * heads * cols) :
    ∃ padded, padRows zero dense cols (aligned rows heads cols).headStride = .ok padded ∧
      padded.size = batch * (aligned rows heads cols).batchStride ∧
      (aligned rows heads cols).Arranges batch rows heads cols dense padded ∧
      (∀ p < padded.size, (∀ e ∈ elements batch rows heads cols,
        (aligned rows heads cols).addressOf e ≠ p) → padded[p]? = some zero) ∧
      stripRows padded cols (aligned rows heads cols).headStride = .ok dense := by
  obtain ⟨padded, hPadded, hPaddedSize, hEntries⟩ := padRows_spec zero hSize
  have hStride : cols ≤ alignUp cols lineSize := le_alignUp (by decide)
  refine ⟨padded, hPadded, hPaddedSize.trans (size_aligned batch rows heads cols).symm, ?_, ?_, ?_⟩
  · intro e he
    have hPlace : e.place rows heads cols < dense.size := by
      rw [hSize]
      exact mul_add_lt (line_lt he) he.2.2
    refine ⟨dense[e.place rows heads cols], Array.getElem?_eq_getElem hPlace, ?_⟩
    rw [addressOf_aligned, hEntries _ (line_lt he) _ (Nat.lt_of_lt_of_le he.2.2 hStride),
      if_pos he.2.2]
    exact Array.getElem?_eq_getElem hPlace
  · intro p hp hFree
    rw [hPaddedSize] at hp
    obtain ⟨row, hRow, col, hCol, rfl, hOut⟩ := exists_padding hp hFree
    rw [hEntries row hRow col hCol, if_neg hOut]
  · have hBack := stripRows_padRows zero hSize
    rwa [hPadded, ok_bind] at hBack

/-- Taking the padding off reads every element from its address in the aligned layout. -/
theorem stripRows_aligned (hSize : run.size = batch * (aligned rows heads cols).batchStride) :
    ∃ dense, stripRows run cols (aligned rows heads cols).headStride = .ok dense ∧
      dense.size = batch * rows * heads * cols ∧
      (aligned rows heads cols).Arranges batch rows heads cols dense run := by
  rw [size_aligned] at hSize
  obtain ⟨dense, hDense, hDenseSize, hEntries⟩ := stripRows_spec hSize
  refine ⟨dense, hDense, hDenseSize, fun e he => ?_⟩
  have hPlace : e.place rows heads cols < dense.size := by
    rw [hDenseSize]
    exact mul_add_lt (line_lt he) he.2.2
  refine ⟨dense[e.place rows heads cols], Array.getElem?_eq_getElem hPlace, ?_⟩
  rw [addressOf_aligned, ← hEntries _ (line_lt he) _ he.2.2]
  exact Array.getElem?_eq_getElem hPlace

/-- What is done to every number of a tensor is done to those at the addresses. -/
theorem Arranges.map {υ : Type} {l : Layout} (h : l.Arranges batch rows heads cols dense run)
    (f : τ → υ) : l.Arranges batch rows heads cols (dense.map f) (run.map f) := by
  intro e he
  obtain ⟨y, hDense, hRun⟩ := h e he
  exact ⟨f y, by rw [Array.getElem?_map, hDense, Option.map_some],
    by rw [Array.getElem?_map, hRun, Option.map_some]⟩

end Layout

/-- The log-sum-exp of every unit lies in its padded row. -/
theorem LseLayout.padLse_padded [Zero τ] {s : Shape} {dense : Array τ}
    (hSize : dense.size = s.units * s.numQueries) :
    ∃ padded, padLse s (.padded s.heads s.numQueries) dense = .ok padded ∧
      ∀ u, s.HasUnit u → ∀ query < s.numQueries, ∃ y,
        dense[u.index s.heads * s.numQueries + query]? = some y ∧
        padded[(LseLayout.padded s.heads s.numQueries).unitOffset u + query]? = some y := by
  obtain ⟨padded, hPadded, -, hEntries⟩ := padLse_spec hSize
  refine ⟨padded, hPadded, fun u hu query hQuery => ?_⟩
  have hPlace : u.index s.heads * s.numQueries + query < dense.size := by
    rw [hSize]
    exact mul_add_lt (Shape.index_lt hu) hQuery
  refine ⟨dense[u.index s.heads * s.numQueries + query], Array.getElem?_eq_getElem hPlace, ?_⟩
  rw [unitOffset_padded, hEntries _ (Shape.index_lt hu) query hQuery]
  exact Array.getElem?_eq_getElem hPlace

/-! ### Launches on dense tensors -/

/-- The type of the elements that a name stands for. -/
def DType.Carrier : DType → Type
  | .f32 => Float32
  | .f16 => Binary16
  | .bf16 => BFloat16

instance (dtype : DType) : Element dtype.Carrier Float32 :=
  match dtype with
  | .f32 => inferInstanceAs (Element Float32 Float32)
  | .f16 => inferInstanceAs (Element Binary16 Float32)
  | .bf16 => inferInstanceAs (Element BFloat16 Float32)

@[simp] theorem DType.dtype_carrier (dtype : DType) : Element.dtype dtype.Carrier = dtype := by
  cases dtype <;> rfl

theorem ForwardTensors.backward_eq_carrier (x : ForwardTensors Float32) (settings : Settings) :
    x.backward settings = x.backwardIn settings.dtype.Carrier settings := by
  obtain ⟨blockI, blockJ, maxHeadDim, scale, prob, seed, offset, dtype⟩ := settings
  cases dtype <;> rfl

variable {α ε : Type} [Scalar α] [Element ε α] {x : ForwardTensors α} {s : Shape}

/-- A request has the numbers of dense tensors, rounded to its element type, at the addresses of its
layouts. -/
structure Request.Renders (request : Request α ε) (x : ForwardTensors α) (s : Shape) : Prop where
  shape : request.shape = s
  q : request.inputLayouts.q.Arranges s.batch s.numQueries s.heads s.headDim
    (x.operands.q.data.map Element.round) request.inputs.q
  k : request.inputLayouts.k.Arranges s.batch s.numKeys s.heads s.headDim
    (x.operands.k.data.map Element.round) request.inputs.k
  v : request.inputLayouts.v.Arranges s.batch s.numKeys s.heads s.headDimValue
    (x.operands.v.data.map Element.round) request.inputs.v
  o : request.inputLayouts.o.Arranges s.batch s.numQueries s.heads s.headDimValue
    (x.operands.o.data.map Element.round) request.inputs.o
  dO : request.inputLayouts.dO.Arranges s.batch s.numQueries s.heads s.headDimValue
    (x.operands.dO.data.map Element.round) request.inputs.dO
  lse : ∀ u, s.HasUnit u → ∀ query < s.numQueries, ∃ y,
    x.lse.data[u.index s.heads * s.numQueries + query]? = some y ∧
    request.lse[request.lseLayout.unitOffset u + query]? = some y
  biases : request.biases = x.biases.map (·.map fun t => t.data.map Element.round)

/-- Dense results have the numbers that a launch leaves, those of the gradients from the addresses of
their layouts and widened. -/
structure Request.Returns (request : Request α ε) (after : Memory α ε) (outputs : Outputs (Tensor α)) :
    Prop where
  dimsQ : outputs.grads.gradQ.dims =
    [request.shape.batch, request.shape.numQueries, request.shape.heads, request.shape.headDim]
  dimsK : outputs.grads.gradK.dims =
    [request.shape.batch, request.shape.numKeys, request.shape.heads, request.shape.headDim]
  dimsV : outputs.grads.gradV.dims =
    [request.shape.batch, request.shape.numKeys, request.shape.heads, request.shape.headDimValue]
  gradQ : request.gradLayouts.gradQ.Arranges request.shape.batch request.shape.numQueries
    request.shape.heads request.shape.headDim outputs.grads.gradQ.data
    (after.grads.gradQ.map Element.widen)
  gradK : request.gradLayouts.gradK.Arranges request.shape.batch request.shape.numKeys
    request.shape.heads request.shape.headDim outputs.grads.gradK.data
    (after.grads.gradK.map Element.widen)
  gradV : request.gradLayouts.gradV.Arranges request.shape.batch request.shape.numKeys
    request.shape.heads request.shape.headDimValue outputs.grads.gradV.data
    (after.grads.gradV.map Element.widen)
  delta : outputs.delta.dims =
      [request.shape.batch, request.shape.heads, request.shape.numQueries] ∧
    outputs.delta.data = after.delta
  biasGrads : ∀ kind, (outputs.biasGrads.get kind).map (·.data) = after.biasGrads.get kind ∧
    ∀ grad ∈ outputs.biasGrads.get kind, grad.dims = kind.dims request.shape

omit [Scalar α] in
/-- What a tensor is padded to has its rounded elements at the addresses of the aligned layout. -/
theorem Layout.arranges_of_padRows {t : Tensor α} {rows cols : Nat} {run : Array ε}
    (hDims : t.dims = [s.batch, rows, s.heads, cols])
    (hRun : padRows (Element.zero (α := α)) (t.data.map Element.round) cols (alignUp cols lineSize) =
      .ok run) :
    (aligned rows s.heads cols).Arranges s.batch rows s.heads cols (t.data.map Element.round) run := by
  have hSize : (t.data.map (Element.round (ε := ε))).size = s.batch * rows * s.heads * cols := by
    rw [Array.size_map]
    exact @Tensor.size_rows _ s t (rows, cols) hDims
  obtain ⟨padded, hPadded, -, hArranges, -⟩ := padRows_aligned (Element.zero (α := α)) hSize
  obtain rfl : padded = run := Except.ok.inj (hPadded.symm.trans hRun)
  exact hArranges

/-- What is built for the launch has the numbers of the tensors. -/
theorem ForwardTensors.HasDims.renders (hx : x.HasDims s) {request : Request α ε}
    (hBuilt : x.request ε s = .ok request) : request.Renders x s := by
  unfold ForwardTensors.request at hBuilt
  obtain ⟨q, hQ, hBuilt⟩ := exists_of_bind_eq_ok hBuilt
  obtain ⟨k, hK, hBuilt⟩ := exists_of_bind_eq_ok hBuilt
  obtain ⟨v, hV, hBuilt⟩ := exists_of_bind_eq_ok hBuilt
  obtain ⟨o, hO, hBuilt⟩ := exists_of_bind_eq_ok hBuilt
  obtain ⟨dO, hdO, hBuilt⟩ := exists_of_bind_eq_ok hBuilt
  obtain ⟨lse, hLse, hBuilt⟩ := exists_of_bind_eq_ok hBuilt
  obtain rfl := Except.ok.inj hBuilt
  have hLseSize : x.lse.data.size = s.units * s.numQueries := by
    rw [x.lse.size_eq, hx.lse]
    simp [extent, Shape.units, Nat.mul_assoc]
  obtain ⟨padded, hPadded, hRows⟩ := LseLayout.padLse_padded hLseSize
  obtain rfl : padded = lse := Except.ok.inj (hPadded.symm.trans hLse)
  exact {
    shape := rfl
    q := Layout.arranges_of_padRows hx.q hQ
    k := Layout.arranges_of_padRows hx.k hK
    v := Layout.arranges_of_padRows hx.v hV
    o := Layout.arranges_of_padRows hx.o hO
    dO := Layout.arranges_of_padRows hx.dO hdO
    lse := hRows
    biases := rfl }

omit [Scalar α] in
/-- A tensor that a padded buffer is read into has its elements from the addresses, widened. -/
theorem Layout.arranges_of_dense {run : Array ε} {t : Tensor α} {rows cols : Nat}
    (hSize : run.size = s.paddedSize (rows, cols))
    (hDense : (stripRows run cols (alignUp cols lineSize) >>= fun values =>
      Tensor.ofArray? [s.batch, rows, s.heads, cols] (values.map Element.widen)) = .ok t) :
    t.dims = [s.batch, rows, s.heads, cols] ∧
      (aligned rows s.heads cols).Arranges s.batch rows s.heads cols t.data
        (run.map Element.widen) := by
  have hAligned : run.size = s.batch * (aligned rows s.heads cols).batchStride := by
    rw [size_aligned, hSize, Shape.paddedSize]
  obtain ⟨values, hValues, hSizeValues, hArranges⟩ := stripRows_aligned hAligned
  have hExtent : (values.map (Element.widen : ε → α)).size = extent [s.batch, rows, s.heads, cols] := by
    rw [Array.size_map, hSizeValues]
    simp [extent, Nat.mul_assoc]
  have hTensor := bind_eq_of_ok (f := fun values => Tensor.ofArray? [s.batch, rows, s.heads, cols]
    (values.map (Element.widen : ε → α))) hValues (Tensor.ofArray?_eq hExtent)
  obtain rfl := Except.ok.inj (hTensor.symm.trans hDense)
  exact ⟨rfl, hArranges.map Element.widen⟩

/-- A tensor has the numbers that it was made from. -/
theorem Tensor.of_ofArray? {dims : List Nat} {data : Array τ} {t : Tensor τ}
    (h : Tensor.ofArray? dims data = .ok t) : t.dims = dims ∧ t.data = data := by
  unfold Tensor.ofArray? at h
  split at h
  · cases h
    exact ⟨rfl, rfl⟩
  · cases h

/-- A gradient that need not be there is made into a tensor if it is. -/
theorem Tensor.of_mapM_ofArray? {dims : List Nat} {grad : Option (Array τ)} {t : Option (Tensor τ)}
    (h : grad.mapM (Tensor.ofArray? dims) = .ok t) :
    t.map (·.data) = grad ∧ ∀ y ∈ t, y.dims = dims := by
  cases grad with
  | none =>
      cases h
      exact ⟨rfl, nofun⟩
  | some data =>
      rw [Option.mapM_some] at h
      obtain ⟨y, hy, hSome⟩ := exists_of_bind_eq_ok h
      cases hSome
      obtain ⟨hDims, hData⟩ := Tensor.of_ofArray? hy
      refine ⟨by rw [Option.map_some, hData], fun y' hMem => ?_⟩
      cases hMem
      exact hDims

omit [Scalar α] in
/-- The results of a launch on aligned layouts are returned element by element. -/
theorem Memory.Padded.returns {memory : Memory α ε} (hMemory : memory.Padded s)
    {outputs : Outputs (Tensor α)} (hOutputs : ForwardTensors.outputs s memory = .ok outputs)
    {request : Request α ε} (hShape : request.shape = s)
    (hLayouts : request.gradLayouts = s.alignedGradLayouts) : request.Returns memory outputs := by
  unfold ForwardTensors.outputs at hOutputs
  obtain ⟨gradQ, hGradQ, hOutputs⟩ := exists_of_bind_eq_ok hOutputs
  obtain ⟨gradK, hGradK, hOutputs⟩ := exists_of_bind_eq_ok hOutputs
  obtain ⟨gradV, hGradV, hOutputs⟩ := exists_of_bind_eq_ok hOutputs
  obtain ⟨delta, hDelta, hOutputs⟩ := exists_of_bind_eq_ok hOutputs
  obtain ⟨biasGrads, hBiasGrads, hOutputs⟩ := exists_of_bind_eq_ok hOutputs
  obtain ⟨keyMask, hKeyMask, hBiasGrads⟩ := exists_of_bind_eq_ok hBiasGrads
  obtain ⟨pairBias, hPairBias, hBiasGrads⟩ := exists_of_bind_eq_ok hBiasGrads
  obtain rfl := Except.ok.inj hBiasGrads
  obtain rfl := Except.ok.inj hOutputs
  obtain ⟨hDimsQ, hElementsQ⟩ := Layout.arranges_of_dense hMemory.gradQ hGradQ
  obtain ⟨hDimsK, hElementsK⟩ := Layout.arranges_of_dense hMemory.gradK hGradK
  obtain ⟨hDimsV, hElementsV⟩ := Layout.arranges_of_dense hMemory.gradV hGradV
  subst hShape
  exact {
    dimsQ := hDimsQ
    dimsK := hDimsK
    dimsV := hDimsV
    gradQ := by rw [hLayouts]; exact hElementsQ
    gradK := by rw [hLayouts]; exact hElementsK
    gradV := by rw [hLayouts]; exact hElementsV
    delta := Tensor.of_ofArray? hDelta
    biasGrads := by
      intro kind
      cases kind with
      | keyMask => exact Tensor.of_mapM_ofArray? hKeyMask
      | pairBias => exact Tensor.of_mapM_ofArray? hPairBias }

/-- A call that gives results has launched a request with the numbers of its tensors, and returns what
the launch has left. -/
theorem ForwardTensors.HasDims.exists_launch (hx : x.HasDims s) {settings : Settings}
    {outputs : Outputs (Tensor α)} {report : Report}
    (hCall : x.backwardIn ε settings = .ok (outputs, report)) :
    ∃ (request : Request α ε) (workspace : WorkspaceLayout) (after : Memory α ε),
      x.request ε s = .ok request ∧ request.Renders x s ∧
      request.inputLayouts = s.alignedLayouts ∧ request.gradLayouts = s.alignedGradLayouts ∧
      request.lseLayout = .padded s.heads s.numQueries ∧
      request.launch settings fullAttention (x.memory request workspace) = (.ok report, after) ∧
      request.Returns after outputs := by
  obtain ⟨request, hBuilt, hRequest⟩ := hx.exists_request (ε := ε)
  unfold backwardIn at hCall
  obtain ⟨s', hShape, hCall⟩ := exists_of_bind_eq_ok hCall
  rw [hx.inferShape_eq] at hShape
  cases hShape
  obtain ⟨request', hRequest', hCall⟩ := exists_of_bind_eq_ok hCall
  rw [hBuilt] at hRequest'
  cases hRequest'
  obtain ⟨workspace, -, hCall⟩ := exists_of_bind_eq_ok hCall
  rcases hLaunch : request.launch settings fullAttention (x.memory request workspace) with
    ⟨failure | launched, after⟩
  · rw [hLaunch] at hCall
    cases hCall
  · rw [hLaunch] at hCall
    have hKeeps := (Request.effect_of_launch hLaunch).keeps
    have hAfter := (hRequest.memory_padded workspace).of_keeps hKeeps
    obtain ⟨results, hResults⟩ := hAfter.exists_outputs
    obtain ⟨report', hReport, hCall⟩ := exists_of_bind_eq_ok hCall
    cases hReport
    rw [hResults] at hCall
    cases hCall
    exact ⟨request, workspace, after, hBuilt, hx.renders hBuilt, hRequest.inputLayouts,
      hRequest.gradLayouts, hRequest.lseLayout, hLaunch,
      hAfter.returns hResults hRequest.shape hRequest.gradLayouts⟩

/-- Padding is transparent. Padded rows are the elements at their addresses in the aligned layout and
zeros elsewhere, and taking the padding off undoes it; of any padded buffer it reads the elements from
these addresses. The log-sum-exp of every unit lies in its padded row. A call on tensors that go
together gives results where there is a kernel and no sum of stream positions stops its launch, and
whenever it gives any, these are element by element what a launch has left whose request has the numbers
of the tensors. -/
theorem ForwardTensors.padding_transparent :
    (∀ {τ : Type} (zero : τ) (batch rows heads cols : Nat),
      let layout := Layout.aligned rows heads cols
      (∀ dense : Array τ, dense.size = batch * rows * heads * cols →
        ∃ padded, padRows zero dense cols layout.headStride = .ok padded ∧
          padded.size = batch * layout.batchStride ∧
          layout.Arranges batch rows heads cols dense padded ∧
          (∀ p < padded.size, (∀ e ∈ elements batch rows heads cols, layout.addressOf e ≠ p) →
            padded[p]? = some zero) ∧
          stripRows padded cols layout.headStride = .ok dense) ∧
      ∀ padded : Array τ, padded.size = batch * layout.batchStride →
        ∃ dense, stripRows padded cols layout.headStride = .ok dense ∧
          dense.size = batch * rows * heads * cols ∧
          layout.Arranges batch rows heads cols dense padded) ∧
    (∀ {τ : Type} [Zero τ] (s : Shape) (dense : Array τ), dense.size = s.units * s.numQueries →
      let layout := LseLayout.padded s.heads s.numQueries
      ∃ padded, padLse s layout dense = .ok padded ∧
        ∀ u, s.HasUnit u → ∀ query < s.numQueries, ∃ y,
          dense[u.index s.heads * s.numQueries + query]? = some y ∧
          padded[layout.unitOffset u + query]? = some y) ∧
    ∀ (x : ForwardTensors Float32) (settings : Settings) (s : Shape),
      x.operands.q.dims.length = 4 → x.inferShape = .ok s →
      (settings.Serves s → settings.SumsPass s →
        ∃ outputs report, x.backward settings = .ok (outputs, report)) ∧
      ∀ outputs report, x.backward settings = .ok (outputs, report) →
        ∃ (request : Request Float32 settings.dtype.Carrier) (workspace : WorkspaceLayout)
          (after : Memory Float32 settings.dtype.Carrier),
          x.request settings.dtype.Carrier s = .ok request ∧ request.Renders x s ∧
          request.inputLayouts = s.alignedLayouts ∧ request.gradLayouts = s.alignedGradLayouts ∧
          request.lseLayout = .padded s.heads s.numQueries ∧
          request.launch settings fullAttention (x.memory request workspace) =
            (.ok report, after) ∧
          request.Returns after outputs := by
  refine ⟨fun zero batch rows heads cols => ⟨fun dense hSize => ?_, fun padded hSize => ?_⟩,
    fun s dense hSize => LseLayout.padLse_padded hSize, fun x settings s hRank hShape => ?_⟩
  · exact Layout.padRows_aligned zero hSize
  · exact Layout.stripRows_aligned hSize
  · have hx := hasDims_of_inferShape hRank hShape
    rw [backward_eq_carrier]
    exact ⟨fun hServes => (hx.backwardIn_ok hServes settings.dtype.dtype_carrier).2,
      fun outputs report hCall => hx.exists_launch hCall⟩

/-- Rows of three numbers of two heads, padded to four, and rows of five queries, padded to eight; the
gradient of Q comes back from the padded rows of five columns. -/
theorem ForwardTensors.padding_transparent_threeColumns :
    let dense : Array Nat := #[1, 2, 3, 4, 5, 6, 7, 8, 9, 10, 11, 12]
    let s : Shape := ⟨4, 2, 3, 5, 5, 6, 2⟩
    let settings : Settings :=
      { blockI := 16, blockJ := 16, maxHeadDim := 32, dropoutProb := 0.5, dtype := .f16 }
    dense.size = 1 * 2 * 2 * 3 ∧
      (∃ padded, padRows 0 dense 3 4 = .ok padded ∧ padded[8]? = some 7 ∧ padded[7]? = some 0 ∧
        stripRows padded 3 4 = .ok dense) ∧
      (∃ padded, padLse ⟨1, 2, 5, 1, 1, 1, 1⟩ (.padded 2 5) #[1, 2, 3, 4, 5, 6, 7, 8, 9, 10] =
        .ok padded ∧ padded[8]? = some 6) ∧
      (filled s 1).inferShape = .ok s ∧ settings.Serves s ∧
      ∃ (request : Request Float32 settings.dtype.Carrier)
        (after : Memory Float32 settings.dtype.Carrier) (outputs : Outputs (Tensor Float32))
        (report : Report), (filled s 1).backward settings = .ok (outputs, report) ∧
        request.Returns after outputs := by
  intro dense s settings
  have hServes : settings.Serves s :=
    { tiles := by decide
      batch := by decide
      heads := by decide
      numQueries := by decide
      numKeys := by decide
      headDim := by decide
      headDimValue := by decide
      dropout := by decide +kernel }
  have hShape : (filled s 1).inferShape = .ok s := inferShape_filled 1 (by decide) (by decide)
  obtain ⟨hRows, hLse, hCalls⟩ := padding_transparent
  obtain ⟨hCall, hLaunch⟩ := hCalls (filled s 1) settings s rfl hShape
  obtain ⟨outputs, report, hResult⟩ := hCall hServes (by decide)
  obtain ⟨request, -, after, -, -, -, -, -, -, hReturns⟩ := hLaunch outputs report hResult
  obtain ⟨padded, hPadded, hSize, hArranges, hZero, hStrip⟩ := (hRows 0 1 2 2 3).1 dense rfl
  obtain ⟨paddedLse, hPaddedLse, hUnits⟩ :=
    hLse ⟨1, 2, 5, 1, 1, 1, 1⟩ #[1, 2, 3, 4, 5, 6, 7, 8, 9, 10] rfl
  refine ⟨rfl, ⟨padded, hPadded, ?_, ?_, hStrip⟩, ⟨paddedLse, hPaddedLse, ?_⟩, hShape, hServes,
    request, after, outputs, report, hResult, hReturns⟩
  · obtain ⟨y, hDense, hElement⟩ := hArranges ⟨⟨0, 0⟩, 1, 0⟩ (by simp [elements])
    exact hElement.trans hDense.symm
  · refine hZero 7 (by rw [hSize]; decide) fun e he => ?_
    have hStride : alignUp 3 lineSize = 4 := rfl
    have hCol := he.2.2
    rw [Layout.addressOf_aligned, hStride]
    omega
  · obtain ⟨y, hDense, hEntry⟩ := hUnits ⟨0, 1⟩ ⟨by decide, by decide⟩ 0 (by decide)
    exact hEntry.trans hDense.symm

end FusedAttention
