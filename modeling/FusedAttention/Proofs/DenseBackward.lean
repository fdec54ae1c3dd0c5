import FusedAttention.Dense.Backward
import FusedAttention.Proofs.Attention
import FusedAttention.Proofs.Padding

/-! The backward pass on dense tensors. What it builds for the launch has all the sizes and strides
that the launch asks for, and the results of the launch come back as dense tensors. So it is refused
only for reasons that lie in its arguments, and faults only where a block size of zero is divided by
before it is checked. -/
namespace FusedAttention

variable {α ε : Type} {s : Shape}

/-- Elements of a tensor of the given rows and columns whose rows are padded to whole lines. -/
def Shape.paddedSize (s : Shape) (extents : Nat × Nat) : Nat :=
  s.batch * extents.1 * s.heads * alignUp extents.2 lineSize

/-! ### Tensors and buffers -/

theorem Tensor.size_rows {t : Tensor α} {extents : Nat × Nat}
    (hDims : t.dims = [s.batch, extents.1, s.heads, extents.2]) :
    t.data.size = s.batch * extents.1 * s.heads * extents.2 := by
  rw [t.size_eq, hDims]
  simp [extent, Nat.mul_assoc]

theorem Tensor.ofArray?_eq {dims : List Nat} {data : Array α} (h : data.size = extent dims) :
    Tensor.ofArray? dims data = .ok ⟨dims, data, h⟩ := by
  rw [ofArray?, dif_pos h]

@[simp] theorem Biases.get_map {τ υ : Type} (f : τ → υ) (b : Biases τ) (kind : BiasKind) :
    (b.map f).get kind = f (b.get kind) := by
  cases kind <;> rfl

namespace ForwardTensors.HasDims

variable {x : ForwardTensors α}

/-- A pair bias says of how many batches its groups are, and there is at least one in each. -/
theorem groupSize_pos (hx : x.HasDims s) : 0 < s.groupSize := by
  cases hBias : x.biases.pairBias with
  | none =>
      rw [hx.ungrouped hBias]
      exact Nat.one_pos
  | some bias =>
      have hSize := hx.grouped bias hBias
      unfold pairBiasGroupSize at hSize
      split at hSize
      · cases hSize
      · have hMax := Except.ok.inj hSize
        omega

/-- The groups are full. -/
theorem groups (hx : x.HasDims s) : s.batch % s.groupSize = 0 := by
  cases hBias : x.biases.pairBias with
  | none => rw [hx.ungrouped hBias, Nat.mod_one]
  | some bias =>
      have hSize := hx.grouped bias hBias
      rw [Tensor.dim, hx.bias .pairBias bias hBias] at hSize
      exact (pairBiasGroupSize_eq_ok.mp hSize).2

theorem size_bias (hx : x.HasDims s) {kind : BiasKind} {bias : Tensor α}
    (hBias : x.biases.get kind = some bias) : bias.data.size = kind.size s := by
  rw [bias.size_eq, hx.bias kind bias hBias, BiasKind.size]

end ForwardTensors.HasDims

variable [Element ε α]

/-- A tensor is padded to a buffer for its aligned layout. -/
theorem exists_padded {t : Tensor α} (extents : Nat × Nat)
    (hDims : t.dims = [s.batch, extents.1, s.heads, extents.2]) :
    ∃ run : Array ε, padRows (Element.zero (α := α)) (t.data.map Element.round) extents.2
        (alignUp extents.2 lineSize) = .ok run ∧ run.size = s.paddedSize extents := by
  have hSize : (t.data.map (Element.round (ε := ε))).size =
      s.batch * extents.1 * s.heads * extents.2 := by
    rw [Array.size_map, Tensor.size_rows hDims]
  obtain ⟨run, hRun, hRunSize, -⟩ := padRows_spec (Element.zero (ε := ε) (α := α)) hSize
  exact ⟨run, hRun, hRunSize⟩

/-- A buffer of an aligned layout becomes a dense tensor. -/
theorem exists_dense {run : Array ε} (extents : Nat × Nat) (hSize : run.size = s.paddedSize extents) :
    ∃ t : Tensor α, (stripRows run extents.2 (alignUp extents.2 lineSize) >>= fun values =>
      Tensor.ofArray? [s.batch, extents.1, s.heads, extents.2] (values.map Element.widen)) = .ok t := by
  obtain ⟨values, hValues, hValuesSize, -⟩ := stripRows_spec hSize
  refine ⟨_, bind_eq_of_ok hValues (Tensor.ofArray?_eq ?_)⟩
  rw [Array.size_map, hValuesSize]
  simp [extent, Nat.mul_assoc]

/-! ### The request -/

variable [Scalar α]

/-- A request with the aligned layouts and with buffers for them. -/
structure Request.Padded (request : Request α ε) (x : ForwardTensors α) (s : Shape) : Prop where
  shape : request.shape = s
  inputLayouts : request.inputLayouts = s.alignedLayouts
  gradLayouts : request.gradLayouts = s.alignedGradLayouts
  lseLayout : request.lseLayout = .padded s.heads s.numQueries
  q : request.inputs.q.size = s.paddedSize s.operandExtents.q
  k : request.inputs.k.size = s.paddedSize s.operandExtents.k
  v : request.inputs.v.size = s.paddedSize s.operandExtents.v
  o : request.inputs.o.size = s.paddedSize s.operandExtents.o
  dO : request.inputs.dO.size = s.paddedSize s.operandExtents.dO
  lse : request.lse.size = s.units * alignUp s.numQueries 8
  biases : request.biases = x.biases.map (·.map fun t => t.data.map Element.round)

namespace ForwardTensors.HasDims

variable {x : ForwardTensors α}

/-- No copy leaves its buffer while the request is built. -/
theorem exists_request (hx : x.HasDims s) :
    ∃ request : Request α ε, x.request ε s = .ok request ∧ request.Padded x s := by
  obtain ⟨q, hQ, hQSize⟩ := exists_padded (ε := ε) s.operandExtents.q hx.q
  obtain ⟨k, hK, hKSize⟩ := exists_padded (ε := ε) s.operandExtents.k hx.k
  obtain ⟨v, hV, hVSize⟩ := exists_padded (ε := ε) s.operandExtents.v hx.v
  obtain ⟨o, hO, hOSize⟩ := exists_padded (ε := ε) s.operandExtents.o hx.o
  obtain ⟨dO, hdO, hdOSize⟩ := exists_padded (ε := ε) s.operandExtents.dO hx.dO
  have hLseDense : x.lse.data.size = s.units * s.numQueries := by
    rw [x.lse.size_eq, hx.lse]
    simp [extent, Shape.units, Nat.mul_assoc]
  obtain ⟨lse, hLse, hLseSize, -⟩ := padLse_spec hLseDense
  let request : Request α ε :=
    { shape := s
      inputs := { q, k, v, o, dO }
      inputLayouts := s.alignedLayouts
      lse
      lseLayout := .padded s.heads s.numQueries
      gradLayouts := s.alignedGradLayouts
      biases := x.biases.map (·.map fun t => t.data.map Element.round) }
  have hRequest : x.request ε s = .ok request := by
    unfold ForwardTensors.request
    apply bind_eq_of_ok hQ
    apply bind_eq_of_ok hK
    apply bind_eq_of_ok hV
    apply bind_eq_of_ok hO
    apply bind_eq_of_ok hdO
    exact bind_eq_of_ok hLse rfl
  exact ⟨request, hRequest, rfl, rfl, rfl, rfl, hQSize, hKSize, hVSize, hOSize, hdOSize, hLseSize, rfl⟩

end ForwardTensors.HasDims

/-! ### The checks of the launch -/

omit [Element ε α] [Scalar α] in
/-- All strides of an aligned layout are whole lines. -/
theorem Check.alignment_aligned (name : String) (s : Shape) (rows cols : Nat) :
    alignment name (.aligned rows s.heads cols) s = .ok () := by
  have hLine : lineSize ∣ alignUp cols lineSize := Nat.dvd_of_mod_eq_zero (alignUp_mod cols lineSize)
  unfold alignment
  rw [forM_eq_ok]
  rintro ⟨what, value⟩ hMem
  rw [require_eq_ok, decide_eq_true_eq]
  apply Nat.mod_eq_zero_of_dvd
  simp only [Layout.aligned, Layout.packed, List.mem_append, List.mem_cons, List.not_mem_nil, or_false,
    List.mem_ite_nil_right, Prod.mk.injEq] at hMem
  rcases hMem with (((⟨-, rfl⟩ | ⟨-, rfl⟩) | ⟨-, -, rfl⟩) | ⟨-, -, rfl⟩)
  · exact Nat.dvd_zero lineSize
  · exact Nat.dvd_mul_left_of_dvd hLine s.heads
  · exact hLine
  · exact Nat.dvd_mul_left_of_dvd hLine (rows * s.heads)

/-- Settings and a problem that there is a kernel for. -/
structure Settings.Serves (settings : Settings) (s : Shape) : Prop where
  tiles : settings.tiles.isSupported = true
  batch : 0 < s.batch
  heads : 0 < s.heads
  numQueries : 0 < s.numQueries
  numKeys : 0 < s.numKeys
  headDim : 0 < s.headDim ∧ s.headDim ≤ settings.maxHeadDim
  headDimValue : 0 < s.headDimValue ∧ s.headDimValue ≤ settings.maxHeadDim
  dropout : 0 ≤ settings.dropoutProb ∧ settings.dropoutProb ≤ 1

namespace Settings.Serves

variable {settings : Settings}

omit [Element ε α] [Scalar α]

/-- A padded tensor holds all that its aligned layout asks for. -/
theorem requiredLen_le (hServes : settings.Serves s) (extents : Nat × Nat) (hRows : 0 < extents.1) :
    (Layout.aligned extents.1 s.heads extents.2).requiredLen s.batch extents.1 s.heads extents.2 ≤
      s.paddedSize extents :=
  Layout.requiredLen_aligned hServes.batch hRows hServes.heads

theorem isInjective (hServes : settings.Serves s) (extents : Nat × Nat) (hRows : 0 < extents.1)
    (hCols : 0 < extents.2) : (Layout.aligned extents.1 s.heads extents.2).isInjective s.batch
      extents.1 s.heads extents.2 = true :=
  Layout.isInjective_aligned hServes.batch hRows hServes.heads hCols

/-- The last row of the padded log-sum-exp ends inside it. -/
theorem lastRow_le (hServes : settings.Serves s) :
    (LseLayout.padded s.heads s.numQueries).unitOffset ⟨s.batch - 1, s.heads - 1⟩ + s.numQueries ≤
      s.units * alignUp s.numQueries 8 := by
  have hLastUnit : (⟨s.batch - 1, s.heads - 1⟩ : UnitCoord).index s.heads < s.units :=
    Shape.index_lt ⟨Nat.sub_lt hServes.batch Nat.one_pos, Nat.sub_lt hServes.heads Nat.one_pos⟩
  have hStride : s.numQueries ≤ alignUp s.numQueries 8 := le_alignUp (by decide)
  have hLast := run_within hLastUnit (Nat.le_refl (s.units * alignUp s.numQueries 8))
  rw [LseLayout.unitOffset_padded]
  omega

end Settings.Serves

/-! ### The memory of the launch -/

/-- Buffers for the aligned layouts of the gradients, for Delta and for the gradients of biases. -/
structure Memory.Padded (memory : Memory α ε) (s : Shape) : Prop where
  gradQ : memory.grads.gradQ.size = s.paddedSize s.gradientExtents.gradQ
  gradK : memory.grads.gradK.size = s.paddedSize s.gradientExtents.gradK
  gradV : memory.grads.gradV.size = s.paddedSize s.gradientExtents.gradV
  delta : memory.delta.size = s.units * s.numQueries
  biasGrads : ∀ kind, ∀ grad ∈ memory.biasGrads.get kind, grad.size = kind.size s

namespace Request.Padded

variable {x : ForwardTensors α} {request : Request α ε} {settings : Settings}

theorem memory_biasGrads (x : ForwardTensors α) (request : Request α ε) (workspace : WorkspaceLayout)
    (kind : BiasKind) : (x.memory request workspace).biasGrads.get kind =
      if x.biasGrads && (x.biases.get kind).isSome then
        some (Array.replicate (kind.size request.shape) 0)
      else none := by
  cases kind <;> rfl

theorem mem_biasGrads {workspace : WorkspaceLayout} {kind : BiasKind} {grad : Array α}
    (hGrad : grad ∈ (x.memory request workspace).biasGrads.get kind) :
    (x.biases.get kind).isSome = true ∧ grad.size = kind.size request.shape := by
  rw [memory_biasGrads] at hGrad
  split at hGrad
  · rename_i hWanted
    obtain rfl := Option.some.inj hGrad
    exact ⟨(Bool.and_eq_true_iff.mp hWanted).2, Array.size_replicate⟩
  · cases hGrad

/-- The memory that is made for the launch has room for its results and no more. -/
theorem memory_padded (hRequest : request.Padded x s) (workspace : WorkspaceLayout) :
    (x.memory request workspace).Padded s where
  gradQ := Array.size_replicate.trans hRequest.q
  gradK := Array.size_replicate.trans hRequest.k
  gradV := Array.size_replicate.trans hRequest.v
  delta := by
    rw [← hRequest.shape]
    exact Array.size_replicate
  biasGrads := by
    intro kind grad hGrad
    rw [(mem_biasGrads hGrad).2, hRequest.shape]

end Request.Padded

omit [Element ε α] [Scalar α] in
/-- A launch does not change the sizes of its buffers. -/
theorem Memory.Padded.of_keeps {kernel : Kernel α ε} {memory after : Memory α ε}
    (hMemory : memory.Padded s) (hKeeps : kernel.Keeps memory after) : after.Padded s where
  gradQ := hKeeps.gradQSize.trans hMemory.gradQ
  gradK := (hKeeps.keySize .keys).trans hMemory.gradK
  gradV := (hKeeps.keySize .values).trans hMemory.gradV
  delta := hKeeps.deltaSize.trans hMemory.delta
  biasGrads := by
    intro kind grad hGrad
    obtain ⟨prior, hPrior, hSame⟩ := exists_of_size_eq (hKeeps.biasSize kind) hGrad
    rw [← hSame]
    exact hMemory.biasGrads kind prior hPrior

omit [Scalar α] [Element ε α] in
/-- A gradient that need not be there becomes a dense tensor if it is. -/
theorem exists_denseBias {kind : BiasKind} {grad : Option (Array α)}
    (hSize : ∀ g ∈ grad, g.size = kind.size s) :
    ∃ t : Option (Tensor α), grad.mapM (Tensor.ofArray? (kind.dims s)) = .ok t := by
  cases grad with
  | none => exact ⟨none, rfl⟩
  | some g =>
      refine ⟨some ⟨kind.dims s, g, hSize g rfl⟩, ?_⟩
      rw [Option.mapM_some, Tensor.ofArray?_eq (hSize g rfl)]
      rfl

omit [Scalar α] in
/-- The results of a launch come back as dense tensors. -/
theorem Memory.Padded.exists_outputs {memory : Memory α ε} (hMemory : memory.Padded s) :
    ∃ outputs, ForwardTensors.outputs s memory = .ok outputs := by
  obtain ⟨gradQ, hGradQ⟩ := exists_dense (α := α) s.gradientExtents.gradQ hMemory.gradQ
  obtain ⟨gradK, hGradK⟩ := exists_dense (α := α) s.gradientExtents.gradK hMemory.gradK
  obtain ⟨gradV, hGradV⟩ := exists_dense (α := α) s.gradientExtents.gradV hMemory.gradV
  have hDelta : memory.delta.size = extent [s.batch, s.heads, s.numQueries] := by
    rw [hMemory.delta]
    simp [extent, Shape.units, Nat.mul_assoc]
  obtain ⟨keyMask, hKeyMask⟩ := exists_denseBias (hMemory.biasGrads .keyMask)
  obtain ⟨pairBias, hPairBias⟩ := exists_denseBias (hMemory.biasGrads .pairBias)
  let outputs : Outputs (Tensor α) :=
    { grads := { gradQ, gradK, gradV }
      delta := ⟨_, memory.delta, hDelta⟩
      biasGrads := ⟨keyMask, pairBias⟩ }
  refine ⟨outputs, ?_⟩
  unfold ForwardTensors.outputs
  apply bind_eq_of_ok hGradQ
  apply bind_eq_of_ok hGradK
  apply bind_eq_of_ok hGradV
  apply bind_eq_of_ok (Tensor.ofArray?_eq hDelta)
  exact bind_eq_of_ok (bind_eq_of_ok hKeyMask (bind_eq_of_ok hPairBias rfl)) rfl

/-! ### Acceptance -/

namespace Request.Padded

variable {x : ForwardTensors α} {request : Request α ε} {settings : Settings}

omit [Scalar α] in
theorem aligned (hRequest : request.Padded x s) (hServes : settings.Serves s) :
    request.Aligned settings where
  q := by
    rw [hRequest.inputLayouts, hRequest.shape]
    exact Check.alignment_aligned "q" s _ _
  k := by
    rw [hRequest.inputLayouts, hRequest.shape]
    exact Check.alignment_aligned "k" s _ _
  v := by
    rw [hRequest.inputLayouts, hRequest.shape]
    exact Check.alignment_aligned "v" s _ _
  lse := by
    have hLine : 8 ∣ alignUp s.numQueries 8 := Nat.dvd_of_mod_eq_zero (alignUp_mod s.numQueries 8)
    rw [hRequest.lseLayout]
    exact ⟨alignUp_mod _ _, Nat.mod_eq_zero_of_dvd (Nat.dvd_mul_left_of_dvd hLine s.heads)⟩
  dropout := by
    rw [Bool.and_eq_true, decide_eq_true_eq, decide_eq_true_eq]
    exact hServes.dropout

/-- The workspace is made for the element type of the settings, and asked for by that of the
elements. -/
theorem workspace_eq (hDType : Element.dtype ε = settings.dtype) {workspace : WorkspaceLayout}
    (hWorkspace : workspace = (Plan.of settings.dtype settings.tiles).workspaceLayout s) :
    ((settings.plan ε).workspaceLayout s).elements ≤
      (x.memory request workspace).workspace.elim 0 (·.size) := by
  have hSame : (settings.plan ε).workspaceLayout s = workspace := by
    rw [hWorkspace, Settings.plan, hDType]
  rw [hSame]
  unfold ForwardTensors.memory
  dsimp only
  split
  · rename_i hNone
    exact Nat.le_of_eq hNone
  · exact Nat.le_of_eq Array.size_replicate.symm

omit [Scalar α] in
/-- A bias is copied with all its entries. -/
theorem size_bias (hRequest : request.Padded x s) (hx : x.HasDims s) {kind : BiasKind} {data : Array ε}
    (hData : data ∈ request.biases.get kind) : data.size = kind.size s := by
  rw [hRequest.biases, Biases.get_map] at hData
  obtain ⟨bias, hBias, rfl⟩ := Option.map_eq_some_iff.mp hData
  rw [Array.size_map, hx.size_bias hBias]

/-- What is built for the launch is accepted as soon as the sizes and the settings are. -/
theorem accepted (hRequest : request.Padded x s) (hx : x.HasDims s) (hServes : settings.Serves s)
    (hDType : Element.dtype ε = settings.dtype) : request.Accepted settings
      (x.memory request ((Plan.of settings.dtype settings.tiles).workspaceLayout s)) := by
  have hMemory := hRequest.memory_padded ((Plan.of settings.dtype settings.tiles).workspaceLayout s)
  exact {
    tiles := hServes.tiles
    positive := by
      rw [hRequest.shape]
      simp only [Shape.named, List.mem_cons, List.not_mem_nil, or_false, forall_eq_or_imp, forall_eq]
      exact ⟨hServes.batch.ne', hServes.heads.ne', hServes.numQueries.ne', hServes.numKeys.ne',
        hServes.headDim.1.ne', hServes.headDimValue.1.ne', hx.groupSize_pos.ne'⟩
    headDim := by
      rw [hRequest.shape]
      exact hServes.headDim.2
    headDimValue := by
      rw [hRequest.shape]
      exact hServes.headDimValue.2
    groups := by
      rw [hRequest.shape]
      exact hx.groups
    q := by
      rw [hRequest.shape, hRequest.inputLayouts, hRequest.q]
      exact hServes.requiredLen_le s.operandExtents.q hServes.numQueries
    k := by
      rw [hRequest.shape, hRequest.inputLayouts, hRequest.k]
      exact hServes.requiredLen_le s.operandExtents.k hServes.numKeys
    v := by
      rw [hRequest.shape, hRequest.inputLayouts, hRequest.v]
      exact hServes.requiredLen_le s.operandExtents.v hServes.numKeys
    o := by
      rw [hRequest.shape, hRequest.inputLayouts, hRequest.o]
      exact hServes.requiredLen_le s.operandExtents.o hServes.numQueries
    dO := by
      rw [hRequest.shape, hRequest.inputLayouts, hRequest.dO]
      exact hServes.requiredLen_le s.operandExtents.dO hServes.numQueries
    gradQ := by
      rw [hRequest.shape, hRequest.gradLayouts, hMemory.gradQ]
      exact ⟨hServes.requiredLen_le s.gradientExtents.gradQ hServes.numQueries,
        hServes.isInjective s.gradientExtents.gradQ hServes.numQueries hServes.headDim.1⟩
    keyGrads := by
      rw [hRequest.shape, hRequest.gradLayouts]
      intro side
      cases side with
      | keys =>
          exact ⟨hMemory.gradK ▸ hServes.requiredLen_le s.gradientExtents.gradK hServes.numKeys,
            hServes.isInjective s.gradientExtents.gradK hServes.numKeys hServes.headDim.1⟩
      | values =>
          exact ⟨hMemory.gradV ▸ hServes.requiredLen_le s.gradientExtents.gradV hServes.numKeys,
            hServes.isInjective s.gradientExtents.gradV hServes.numKeys hServes.headDimValue.1⟩
    lse := by
      rw [hRequest.shape, hRequest.lseLayout, hRequest.lse]
      exact hServes.lastRow_le
    delta := by
      rw [hRequest.shape]
      exact Nat.le_of_eq hMemory.delta.symm
    biases := by
      intro kind data hData
      rw [hRequest.shape]
      exact Nat.le_of_eq (hRequest.size_bias hx hData).symm
    biasGrads := by
      intro kind grad hGrad
      rw [hRequest.shape, hRequest.biases, Biases.get_map, Option.isSome_map]
      exact ⟨(mem_biasGrads hGrad).1, Nat.le_of_eq (hMemory.biasGrads kind grad hGrad).symm⟩
    workspace := by
      rw [hRequest.shape]
      exact workspace_eq hDType rfl }

end Request.Padded

/-! ### The backward pass -/

omit [Scalar α] [Element ε α] in
/-- A kernel that there is none of is the first thing that a launch is refused for. -/
theorem Request.check_of_unsupported [Element ε α] (request : Request α ε) {settings : Settings}
    (hTiles : settings.tiles.isSupported = false) (memory : Memory α ε) :
    request.check settings memory = .error (.unsupportedTiles settings.tiles) := by
  unfold check Check.tiles
  rw [hTiles]
  rfl

/-- Block sizes by which the size of the workspace divides without looking. -/
def Settings.DividesByZero (settings : Settings) (s : Shape) : Prop :=
  settings.blockJ = 0 ∨
    settings.blockI = 0 ∧ settings.dtype ≠ .f32 ∧
      (settings.maxHeadDim ≠ 0 ∨ settings.blockJ < s.numKeys)

/-- A block size of zero is one that there are no kernels for. -/
theorem Settings.isSupported_of_dividesByZero {settings : Settings}
    (hZero : settings.DividesByZero s) : settings.tiles.isSupported = false := by
  apply Bool.eq_false_iff.mpr
  intro hTiles
  obtain ⟨hI, hJ, -⟩ := rows_of_supported _ (TileSize.mem_supportedTiles hTiles)
  simp only [tiles] at hI hJ
  rcases hZero with hNone | ⟨hNone, -⟩ <;> omega

/-- Gradients on the side of the keys take slots unless they are narrow and stay in registers, and
gradQ takes slots if it is narrow and there are several key tiles. -/
theorem Settings.dividesByI_iff (settings : Settings) (s : Shape) (hNone : settings.blockI = 0) :
    ((Plan.of settings.dtype settings.tiles).gradK.usesWorkspace ||
      (Plan.of settings.dtype settings.tiles).gradV.usesWorkspace ||
      ((Plan.of settings.dtype settings.tiles).gradQ.usesWorkspace &&
        settings.blockJ < s.numKeys)) = true ↔
      settings.dtype ≠ .f32 ∧ (settings.maxHeadDim ≠ 0 ∨ settings.blockJ < s.numKeys) := by
  unfold Plan.of tiles
  cases settings.dtype with
  | f32 => simp [DType.isHalf, DType.sizeInBytes, Strategy.forOutput, Strategy.usesWorkspace]
  | f16 | bf16 =>
      rcases Nat.eq_zero_or_pos settings.maxHeadDim with hDim | hDim
      · simp [DType.isHalf, DType.sizeInBytes, Strategy.forOutput, Strategy.usesWorkspace, hDim]
      · simp [DType.isHalf, DType.sizeInBytes, Strategy.forOutput, Strategy.usesWorkspace, hNone,
          hDim.ne']

/-- The size of the workspace is found just if nothing is divided by zero on the way. -/
theorem Settings.workspaceLayout?_eq (settings : Settings) (s : Shape) :
    (settings.DividesByZero s →
      (Plan.of settings.dtype settings.tiles).workspaceLayout? s = .error .zeroDivisor) ∧
    (¬ settings.DividesByZero s →
      (Plan.of settings.dtype settings.tiles).workspaceLayout? s =
        .ok ((Plan.of settings.dtype settings.tiles).workspaceLayout s)) := by
  have hGuard : (settings.blockJ = 0 ∨ settings.blockI = 0 ∧
      ((Plan.of settings.dtype settings.tiles).gradK.usesWorkspace ||
        (Plan.of settings.dtype settings.tiles).gradV.usesWorkspace ||
        ((Plan.of settings.dtype settings.tiles).gradQ.usesWorkspace &&
          settings.blockJ < s.numKeys)) = true) ↔ settings.DividesByZero s :=
    or_congr_right (and_congr_right (settings.dividesByI_iff s))
  constructor
  · intro hZero
    exact if_pos (hGuard.mpr hZero)
  · intro hSome
    exact if_neg (fun hZero => hSome (hGuard.mp hZero))

namespace ForwardTensors

variable {x : ForwardTensors α} {settings : Settings}

/-- A call on tensors that go together ends where its launch ends, once the workspace has a size. A
launch that passes the checks comes to its end if no sum of stream positions stops it. -/
theorem HasDims.backwardIn_of_launch (hx : x.HasDims s) {workspace : WorkspaceLayout}
    (hWorkspace : (Plan.of settings.dtype settings.tiles).workspaceLayout? s = .ok workspace) :
    ∃ request : Request α ε, x.request ε s = .ok request ∧ request.Padded x s ∧
      (∀ refusal, request.check settings (x.memory request workspace) = .error refusal →
        x.backwardIn ε settings = .error (.refused refusal)) ∧
      (settings.SumsPass s → request.check settings (x.memory request workspace) = .ok () →
        ∃ outputs report, x.backwardIn ε settings = .ok (outputs, report)) := by
  obtain ⟨request, hBuilt, hRequest⟩ := hx.exists_request (ε := ε)
  have hStart : x.backwardIn ε settings =
      ((request.launch settings fullAttention (x.memory request workspace)).1 >>= fun report => do
        let outputs ← (outputs s
          (request.launch settings fullAttention (x.memory request workspace)).2).mapError .fault
        return (outputs, report)) := by
    unfold backwardIn
    apply bind_eq_of_ok (congrArg (Except.mapError Failure.refused) hx.inferShape_eq)
    apply bind_eq_of_ok (congrArg (Except.mapError Failure.fault) hBuilt)
    exact bind_eq_of_ok (congrArg (Except.mapError Failure.fault) hWorkspace) rfl
  refine ⟨request, hBuilt, hRequest, fun refusal hCheck => ?_, fun hSums hCheck => ?_⟩
  · rw [hStart, Request.launch, hCheck]
    rfl
  · rw [← hRequest.shape] at hSums
    obtain ⟨after, -, hLaunch, hEffect⟩ := Request.launch_spec hCheck hSums fullAttention
    obtain ⟨results, hResults⟩ :=
      ((hRequest.memory_padded workspace).of_keeps hEffect.keeps).exists_outputs
    refine ⟨results, request.report settings (x.memory request workspace), ?_⟩
    rw [hStart, hLaunch]
    exact bind_eq_of_ok rfl (bind_eq_of_ok (congrArg (Except.mapError Failure.fault) hResults) rfl)

/-- A call whose workspace has no size faults. -/
theorem HasDims.backwardIn_of_fault (hx : x.HasDims s) {fault : Fault}
    (hWorkspace : (Plan.of settings.dtype settings.tiles).workspaceLayout? s = .error fault) :
    x.backwardIn ε settings = .error (.fault fault) := by
  obtain ⟨request, hBuilt, -⟩ := hx.exists_request (ε := ε)
  unfold backwardIn
  apply bind_eq_of_ok (congrArg (Except.mapError Failure.refused) hx.inferShape_eq)
  apply bind_eq_of_ok (congrArg (Except.mapError Failure.fault) hBuilt)
  dsimp only
  rw [hWorkspace]
  rfl

/-- Tensors that go together, for sizes and settings that there is a kernel for, are never refused: what
is built for the launch passes all its checks, in every element type. The gradients come back if no sum
of stream positions stops the launch. -/
theorem HasDims.backwardIn_ok (hx : x.HasDims s) (hServes : settings.Serves s)
    (hDType : Element.dtype ε = settings.dtype) :
    (∃ request : Request α ε, x.request ε s = .ok request ∧ request.check settings
      (x.memory request ((Plan.of settings.dtype settings.tiles).workspaceLayout s)) = .ok ()) ∧
    (settings.SumsPass s → ∃ outputs report, x.backwardIn ε settings = .ok (outputs, report)) := by
  have hSome : ¬ settings.DividesByZero s := by
    intro hZero
    have hNone := Settings.isSupported_of_dividesByZero hZero
    rw [hServes.tiles] at hNone
    cases hNone
  obtain ⟨request, hBuilt, hRequest, -, hOk⟩ :=
    hx.backwardIn_of_launch (ε := ε) ((settings.workspaceLayout?_eq s).2 hSome)
  have hCheck := Request.check_eq_ok.mpr
    ⟨hRequest.accepted hx hServes hDType, hRequest.aligned hServes⟩
  exact ⟨⟨request, hBuilt, hCheck⟩, fun hSums => hOk hSums hCheck⟩

end ForwardTensors

/-! ### Calls -/

namespace ForwardTensors

variable {x : ForwardTensors Float32} {settings : Settings}

/-- Tensors of one shape that hold one number everywhere, with both biases and their gradients. -/
def filled (s : Shape) (x : Float32) : ForwardTensors Float32 :=
  let held (dims : List Nat) : Tensor Float32 := .ofFn dims fun _ => x
  { operands :=
      { q := held [s.batch, s.numQueries, s.heads, s.headDim]
        k := held [s.batch, s.numKeys, s.heads, s.headDim]
        v := held [s.batch, s.numKeys, s.heads, s.headDimValue]
        o := held [s.batch, s.numQueries, s.heads, s.headDimValue]
        dO := held [s.batch, s.numQueries, s.heads, s.headDimValue] }
    lse := held [s.batch, s.heads, s.numQueries]
    biases := ⟨some (held (BiasKind.keyMask.dims s)), some (held (BiasKind.pairBias.dims s))⟩
    biasGrads := true }

theorem inferShape_filled {s : Shape} (x : Float32) (hBatch : 0 < s.batch)
    (hGroups : s.batch % s.groupSize = 0) : (filled s x).inferShape = .ok s := by
  apply HasDims.inferShape_eq
  refine ⟨rfl, rfl, rfl, rfl, rfl, rfl, ?_, ?_, nofun⟩
  · intro kind bias hBias
    cases kind <;> cases hBias <;> rfl
  · rintro bias ⟨rfl⟩
    exact pairBiasGroupSize_eq_ok.mpr ⟨hBatch, hGroups⟩

/-- The element type of the elements is the one that the settings name. -/
theorem backward_eq_backwardIn (x : ForwardTensors Float32) (settings : Settings) :
    ∃ (ε : Type) (_ : Element ε Float32), Element.dtype ε = settings.dtype ∧
      x.backward settings = x.backwardIn ε settings := by
  unfold backward
  cases settings.dtype with
  | f32 => exact ⟨Float32, inferInstance, rfl, rfl⟩
  | f16 => exact ⟨Binary16, inferInstance, rfl, rfl⟩
  | bf16 => exact ⟨BFloat16, inferInstance, rfl, rfl⟩

/-- Tensors that go together, for sizes and settings that there is a kernel for, are never refused: what
is built for the launch passes all its checks, in every element type. The gradients come back if no sum
of stream positions stops the launch, so always where sums wrap. -/
theorem backward_ok (hRank : x.operands.q.dims.length = 4) (hShape : x.inferShape = .ok s)
    (hServes : settings.Serves s) :
    (∀ (ε : Type) [Element ε Float32], Element.dtype ε = settings.dtype →
      ∃ request : Request Float32 ε, x.request ε s = .ok request ∧ request.check settings
        (x.memory request ((Plan.of settings.dtype settings.tiles).workspaceLayout s)) = .ok ()) ∧
    (settings.SumsPass s → ∃ outputs report, x.backward settings = .ok (outputs, report)) := by
  have hx := hasDims_of_inferShape hRank hShape
  constructor
  · intro ε _ hDType
    exact (hx.backwardIn_ok hServes hDType).1
  · obtain ⟨ε, _, hDType, hBackward⟩ := backward_eq_backwardIn x settings
    rw [hBackward]
    exact (hx.backwardIn_ok hServes hDType).2

/-- No size is a whole line here, and two batches share a pair bias. -/
theorem backward_ok_filled :
    let s : Shape := ⟨4, 2, 3, 5, 5, 6, 2⟩
    let settings : Settings :=
      { blockI := 16, blockJ := 16, maxHeadDim := 32, dropoutProb := 0.5, dtype := .f16 }
    (filled s 1).operands.q.dims.length = 4 ∧ (filled s 1).inferShape = .ok s ∧ settings.Serves s ∧
      ∃ outputs report, (filled s 1).backward settings = .ok (outputs, report) := by
  intro s settings
  have hServes : settings.Serves s :=
    { tiles := by decide
      batch := by decide
      heads := by decide
      numQueries := by decide
      numKeys := by decide
      headDim := by decide
      headDimValue := by decide
      dropout := by decide +kernel }
  have hShape : (filled s 1).inferShape = .ok s := inferShape_filled 1 (by decide) (by decide)
  exact ⟨rfl, hShape, hServes, (backward_ok rfl hShape hServes).2 (by decide)⟩

/-- Unless a sum of stream positions stops it, a call ends in its gradients or in a refusal, but for
block sizes of zero: where the size of the workspace is divided by one of them, before it is checked, the
call faults. With all other block sizes that there are no kernels for it is refused for these. -/
theorem backward_fault_iff (x : ForwardTensors Float32) (settings : Settings)
    (hRank : x.operands.q.dims.length = 4) :
    (∀ refusal, x.inferShape = .error refusal → x.backward settings = .error (.refused refusal)) ∧
    ∀ s, x.inferShape = .ok s →
      (settings.DividesByZero s → x.backward settings = .error (.fault .zeroDivisor)) ∧
      (settings.SumsPass s → ∀ fault, x.backward settings = .error (.fault fault) ↔
        fault = .zeroDivisor ∧ settings.DividesByZero s) ∧
      (settings.DividesByZero s → settings.tiles.isSupported = false) ∧
      (settings.tiles.isSupported = false → ¬ settings.DividesByZero s →
        x.backward settings = .error (.refused (.unsupportedTiles settings.tiles))) := by
  obtain ⟨ε, _, -, hBackward⟩ := backward_eq_backwardIn x settings
  rw [hBackward]
  constructor
  · intro refusal hShape
    rw [backwardIn, hShape]
    rfl
  · intro s hShape
    have hx := hasDims_of_inferShape hRank hShape
    obtain ⟨hFault, hOk⟩ := settings.workspaceLayout?_eq s
    have hFaults : settings.DividesByZero s → x.backwardIn ε settings = .error (.fault .zeroDivisor) :=
      fun hZero => hx.backwardIn_of_fault (hFault hZero)
    refine ⟨hFaults, fun hSums fault => ⟨fun hEnd => ?_, ?_⟩, Settings.isSupported_of_dividesByZero, ?_⟩
    · by_cases hZero : settings.DividesByZero s
      · rw [hFaults hZero] at hEnd
        cases hEnd
        exact ⟨rfl, hZero⟩
      · obtain ⟨request, -, -, hRefused, hDone⟩ := hx.backwardIn_of_launch (ε := ε) (hOk hZero)
        cases hCheck : request.check settings (x.memory request
            ((Plan.of settings.dtype settings.tiles).workspaceLayout s)) with
        | error refusal =>
            rw [hRefused refusal hCheck] at hEnd
            cases hEnd
        | ok done =>
            obtain ⟨outputs, report, hResult⟩ := hDone hSums hCheck
            rw [hResult] at hEnd
            cases hEnd
    · rintro ⟨rfl, hZero⟩
      exact hFaults hZero
    · intro hTiles hSome
      obtain ⟨request, -, -, hRefused, -⟩ := hx.backwardIn_of_launch (ε := ε) (hOk hSome)
      exact hRefused _ (request.check_of_unsupported hTiles _)

/-- Key tiles without rows: the call faults, and a launch with these settings is refused. -/
theorem backward_fault_filled :
    let s : Shape := ⟨1, 1, 2, 3, 4, 4, 1⟩
    let settings : Settings := { blockJ := 0 }
    (filled s 1).operands.q.dims.length = 4 ∧ (filled s 1).inferShape = .ok s ∧
      settings.tiles.isSupported = false ∧
      (filled s 1).backward settings = .error (.fault .zeroDivisor) := by
  intro s settings
  have hZero : settings.DividesByZero s := .inl rfl
  have hShape : (filled s 1).inferShape = .ok s := inferShape_filled 1 (by decide) (by decide)
  obtain ⟨hFault, -, hTiles, -⟩ := (backward_fault_iff (filled s 1) settings rfl).2 s hShape
  exact ⟨rfl, hShape, hTiles hZero, hFault hZero⟩

end ForwardTensors

end FusedAttention
