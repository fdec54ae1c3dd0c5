import FusedAttention.Proofs.Launches
import FusedAttention.Proofs.Overflows

/-! What the checks of a launch establish: the sizes and layouts that every unit relies on. No
check reads the offset of the random stream, so that no sum of positions stops a launch is a
condition of its own. -/
namespace FusedAttention

/-! ### Guards -/

namespace Check

theorem eq_ok_iff_isOk (check : Except Refusal Unit) : check = .ok () ↔ check.isOk = true := by
  cases check with
  | ok u => exact ⟨fun _ => rfl, fun _ => rfl⟩
  | error refusal => exact ⟨fun h => (nomatch h), fun h => (nomatch h)⟩

theorem require_eq_ok {holds : Bool} {refusal : Refusal} :
    require holds refusal = .ok () ↔ holds = true := by
  cases holds with
  | true => exact ⟨fun _ => rfl, fun _ => rfl⟩
  | false => exact ⟨fun h => (nomatch h), fun h => (nomatch h)⟩

variable {s : Shape} {name : String} {l : Layout} {extents : Nat × Nat} {elements : Nat}

theorem size_eq_ok {required : Nat} : size name required elements = .ok () ↔ required ≤ elements := by
  rw [size, require_eq_ok, decide_eq_true_eq]

/-- A tensor that is read has to hold every element of its layout, on whole lines if it is loaded by
lines. -/
theorem input_eq_ok {aligned : Bool} :
    input s aligned name l extents elements = .ok () ↔
      (aligned = true → alignment name l s = .ok ()) ∧
        l.requiredLen s.batch extents.1 s.heads extents.2 ≤ elements := by
  cases aligned with
  | true =>
      rw [input, if_pos rfl, bind_eq_ok, size_eq_ok]
      simp
  | false => simp [input, size_eq_ok]

theorem gradient_eq_ok :
    gradient s name l extents elements = .ok () ↔
      l.requiredLen s.batch extents.1 s.heads extents.2 ≤ elements ∧
        l.isInjective s.batch extents.1 s.heads extents.2 = true := by
  rw [gradient, bind_eq_ok, size_eq_ok, require_eq_ok]

theorem bias_eq_ok {τ : Type} {kind : BiasKind} {data : Option (Array τ)} :
    bias s kind (data.map (·.size)) = .ok () ↔ ∀ x ∈ data, kind.size s ≤ x.size := by
  cases data with
  | none => exact ⟨fun _ x h => (nomatch h), fun _ => rfl⟩
  | some x => simp only [bias, Option.map_some, size_eq_ok, Option.mem_some_iff, forall_eq']

theorem biasGrad_eq_ok {τ : Type} {kind : BiasKind} {supplied : Bool} {grad : Option (Array τ)} :
    biasGrad s kind supplied (grad.map (·.size)) = .ok () ↔
      ∀ x ∈ grad, supplied = true ∧ kind.size s ≤ x.size := by
  cases grad with
  | none => exact ⟨fun _ x h => (nomatch h), fun _ => rfl⟩
  | some x =>
      cases supplied with
      | true =>
          simp only [biasGrad, Option.map_some, if_true, size_eq_ok, Option.mem_some_iff,
            forall_eq', true_and]
      | false => exact ⟨fun h => (nomatch h), fun h => (nomatch (h x rfl).1)⟩

end Check

/-- No sum of stream positions stops a launch: sums wrap, or the places of all the words that the
launch owns fit 64 bits. -/
def Settings.SumsPass (settings : Settings) (s : Shape) : Prop :=
  settings.overflow = .wrapping ∨ settings.dropout.Fits s

instance (settings : Settings) (s : Shape) : Decidable (settings.SumsPass s) :=
  inferInstanceAs (Decidable (_ ∨ _))

variable {α ε : Type} [Element ε α]

/-- The conditions on a launch that its units rely on. -/
structure Request.Accepted (request : Request α ε) (settings : Settings) (memory : Memory α ε) :
    Prop where
  tiles : settings.tiles.isSupported = true
  positive : ∀ entry ∈ request.shape.named, entry.2 ≠ 0
  headDim : request.shape.headDim ≤ settings.maxHeadDim
  headDimValue : request.shape.headDimValue ≤ settings.maxHeadDim
  groups : request.shape.batch % request.shape.groupSize = 0
  q : request.inputLayouts.q.requiredLen request.shape.batch request.shape.numQueries
    request.shape.heads request.shape.headDim ≤ request.inputs.q.size
  k : request.inputLayouts.k.requiredLen request.shape.batch request.shape.numKeys
    request.shape.heads request.shape.headDim ≤ request.inputs.k.size
  v : request.inputLayouts.v.requiredLen request.shape.batch request.shape.numKeys
    request.shape.heads request.shape.headDimValue ≤ request.inputs.v.size
  o : request.inputLayouts.o.requiredLen request.shape.batch request.shape.numQueries
    request.shape.heads request.shape.headDimValue ≤ request.inputs.o.size
  dO : request.inputLayouts.dO.requiredLen request.shape.batch request.shape.numQueries
    request.shape.heads request.shape.headDimValue ≤ request.inputs.dO.size
  gradQ : request.gradLayouts.gradQ.requiredLen request.shape.batch request.shape.numQueries
      request.shape.heads request.shape.headDim ≤ memory.grads.gradQ.size ∧
    request.gradLayouts.gradQ.isInjective request.shape.batch request.shape.numQueries
      request.shape.heads request.shape.headDim = true
  keyGrads : ∀ side : KeySide,
    (side.of request.gradLayouts).requiredLen request.shape.batch request.shape.numKeys
      request.shape.heads (side.cols request.shape) ≤ (side.of memory.grads).size ∧
    (side.of request.gradLayouts).isInjective request.shape.batch request.shape.numKeys
      request.shape.heads (side.cols request.shape) = true
  lse : request.lseLayout.unitOffset ⟨request.shape.batch - 1, request.shape.heads - 1⟩ +
    request.shape.numQueries ≤ request.lse.size
  delta : request.shape.units * request.shape.numQueries ≤ memory.delta.size
  biases : ∀ kind, ∀ data ∈ request.biases.get kind, kind.size request.shape ≤ data.size
  biasGrads : ∀ kind, ∀ grad ∈ memory.biasGrads.get kind,
    (request.biases.get kind).isSome = true ∧ kind.size request.shape ≤ grad.size
  workspace : ((settings.plan ε).workspaceLayout request.shape).elements ≤
    memory.workspace.elim 0 (·.size)

/-- What else the checks ask for: strides in whole lines, and a probability. -/
structure Request.Aligned (request : Request α ε) (settings : Settings) : Prop where
  q : Check.alignment "q" request.inputLayouts.q request.shape = .ok ()
  k : Check.alignment "k" request.inputLayouts.k request.shape = .ok ()
  v : Check.alignment "v" request.inputLayouts.v request.shape = .ok ()
  lse : request.lseLayout.headStride % 8 = 0 ∧ request.lseLayout.batchStride % 8 = 0
  dropout : (0 ≤ settings.dropoutProb && settings.dropoutProb ≤ 1) = true

/-- The checks pass just if both kinds of conditions hold. -/
theorem Request.check_eq_ok {request : Request α ε} {settings : Settings} {memory : Memory α ε} :
    request.check settings memory = .ok () ↔
      request.Accepted settings memory ∧ request.Aligned settings := by
  unfold check Check.shape Check.tiles Check.logSumExp Check.dropout
  simp only [bind_eq_ok, Check.require_eq_ok, forM_eq_ok, Check.size_eq_ok,
    Check.input_eq_ok, Check.gradient_eq_ok, Check.bias_eq_ok, Check.biasGrad_eq_ok,
    decide_eq_true_eq]
  constructor
  · rintro ⟨hTiles, ⟨hPositive, hHeadDims, hGroups⟩, ⟨hQLines, hQ⟩, ⟨hKLines, hK⟩, ⟨hVLines, hV⟩,
      ⟨-, hO⟩, ⟨-, hDO⟩, hGradQ, hGradK, hGradV, ⟨hStrides, hLse⟩, hDelta, hKeyMask, hPairBias,
      hKeyMaskGrad, hPairBiasGrad, hDropout, hWorkspace⟩
    constructor
    · exact {
        tiles := hTiles
        positive := hPositive
        headDim := hHeadDims ("head_dim", _) (by simp)
        headDimValue := hHeadDims ("head_dim_value", _) (by simp)
        groups := hGroups
        q := hQ
        k := hK
        v := hV
        o := hO
        dO := hDO
        gradQ := hGradQ
        keyGrads := by
          intro side
          cases side with
          | keys => exact hGradK
          | values => exact hGradV
        lse := hLse
        delta := hDelta
        biases := by
          intro kind
          cases kind with
          | keyMask => exact hKeyMask
          | pairBias => exact hPairBias
        biasGrads := by
          intro kind
          cases kind with
          | keyMask => exact hKeyMaskGrad
          | pairBias => exact hPairBiasGrad
        workspace := hWorkspace }
    · exact {
        q := hQLines trivial
        k := hKLines trivial
        v := hVLines trivial
        lse := ⟨hStrides ("head stride", _) (by simp), hStrides ("batch stride", _) (by simp)⟩
        dropout := hDropout }
  · rintro ⟨h, hAligned⟩
    refine ⟨h.tiles, ⟨h.positive, ?headDims, h.groups⟩, ⟨fun _ => hAligned.q, h.q⟩,
      ⟨fun _ => hAligned.k, h.k⟩, ⟨fun _ => hAligned.v, h.v⟩, ⟨nofun, h.o⟩, ⟨nofun, h.dO⟩, h.gradQ,
      h.keyGrads .keys, h.keyGrads .values, ⟨?strides, h.lse⟩, h.delta, h.biases .keyMask,
      h.biases .pairBias, h.biasGrads .keyMask, h.biasGrads .pairBias, hAligned.dropout, h.workspace⟩
    case headDims =>
      simp only [List.mem_cons, List.not_mem_nil, or_false, forall_eq_or_imp, forall_eq]
      exact ⟨h.headDim, h.headDimValue⟩
    case strides =>
      simp only [List.mem_cons, List.not_mem_nil, or_false, forall_eq_or_imp, forall_eq]
      exact hAligned.lse

/-- A launch that passes the checks is accepted. -/
theorem Request.accepted_of_check {request : Request α ε} {settings : Settings}
    {memory : Memory α ε} (h : request.check settings memory = .ok ()) :
    request.Accepted settings memory :=
  (check_eq_ok.mp h).1

/-- The tiles that there are kernels for have rows of both kinds, and the threads of a row of
queries are a power of two. -/
theorem rows_of_supported : ∀ sizes ∈ supportedTiles, 0 < sizes.1 ∧ 0 < sizes.2 ∧
    threadsPerRow sizes.1 = Nat.pow 2 (threadsPerRow sizes.1).log2 := by
  decide

theorem TileSize.mem_supportedTiles {t : TileSize} (h : t.isSupported = true) :
    (t.blockI, t.blockJ) ∈ supportedTiles := by
  rw [isSupported, Bool.and_eq_true] at h
  exact List.contains_iff_mem.mp h.1

namespace Request.Accepted

variable {request : Request α ε} {settings : Settings} {memory : Memory α ε} {u : UnitCoord}

theorem positive_of_mem (h : request.Accepted settings memory) (name : String) {value : Nat}
    (hMem : (name, value) ∈ request.shape.named) : 0 < value :=
  Nat.pos_of_ne_zero (h.positive (name, value) hMem)

theorem heads_pos (h : request.Accepted settings memory) : 0 < request.shape.heads :=
  h.positive_of_mem "heads" (by simp [Shape.named])

theorem numQueries_pos (h : request.Accepted settings memory) : 0 < request.shape.numQueries :=
  h.positive_of_mem "num_queries" (by simp [Shape.named])

theorem numKeys_pos (h : request.Accepted settings memory) : 0 < request.shape.numKeys :=
  h.positive_of_mem "num_keys" (by simp [Shape.named])

theorem groupSize_pos (h : request.Accepted settings memory) : 0 < request.shape.groupSize :=
  h.positive_of_mem "group_size" (by simp [Shape.named])

variable [Scalar α]

theorem valid (h : request.Accepted settings memory) (policy : QueryStart) :
    (request.kernel settings policy).Valid where
  plan := rfl
  workspace := rfl
  blockI := (rows_of_supported _ (TileSize.mem_supportedTiles h.tiles)).1
  blockJ := (rows_of_supported _ (TileSize.mem_supportedTiles h.tiles)).2.1
  numQueries := h.numQueries_pos
  numKeys := h.numKeys_pos
  headDim := h.positive_of_mem "head_dim" (by simp [Shape.named, kernel, Kernel.shape])
  headDimValue := h.positive_of_mem "head_dim_value" (by simp [Shape.named, kernel, Kernel.shape])
  cols := h.headDim
  colsValue := h.headDimValue
  groups := h.groups
  lanes := (rows_of_supported _ (TileSize.mem_supportedTiles h.tiles)).2.2

/-- Every unit reads inside the tensors and the stream. -/
theorem reads (h : request.Accepted settings memory) (hSums : settings.SumsPass request.shape)
    (policy : QueryStart) (hu : request.shape.HasUnit u) : (request.kernel settings policy).Reads u where
  batch := hu.1
  head := hu.2
  q _ hRow := Nat.le_trans (Layout.row_le_requiredLen hu.1 hu.2 hRow) h.q
  k _ hRow := Nat.le_trans (Layout.row_le_requiredLen hu.1 hu.2 hRow) h.k
  v _ hRow := Nat.le_trans (Layout.row_le_requiredLen hu.1 hu.2 hRow) h.v
  o _ hRow := Nat.le_trans (Layout.row_le_requiredLen hu.1 hu.2 hRow) h.o
  dO _ hRow := Nat.le_trans (Layout.row_le_requiredLen hu.1 hu.2 hRow) h.dO
  lse := by
    obtain ⟨hBatch, hHead⟩ := hu
    have hBatches := Nat.mul_le_mul_right request.lseLayout.batchStride
      (show u.batchId ≤ request.shape.batch - 1 by omega)
    have hHeads := Nat.mul_le_mul_right request.lseLayout.headStride
      (show u.head ≤ request.shape.heads - 1 by omega)
    have hLast := h.lse
    simp only [LseLayout.unitOffset] at hLast
    simp only [Kernel.shape, kernel, LseLayout.unitOffset]
    omega
  biases := h.biases
  sums := hSums.imp_right fun hFits => hFits.unit hu.1 hu.2

/-- The buffers that are written hold what every unit writes. -/
theorem holds (h : request.Accepted settings memory) (policy : QueryStart) :
    (request.kernel settings policy).Holds memory where
  gradQ := h.gradQ
  keyGrads := h.keyGrads
  delta := h.delta
  biasGrads := h.biasGrads
  workspace := h.workspace

/-- An accepted launch runs to its end, and its effect on the memory is known. -/
theorem run_spec (h : request.Accepted settings memory) (hSums : settings.SumsPass request.shape)
    (policy : QueryStart) :
    ∃ after, request.run settings policy memory = .ok after ∧
      (request.kernel settings policy).LaunchEffect memory after := by
  refine Kernel.runUnits_spec (h.valid policy) h.groupSize_pos (fun _ hu => h.reads hSums policy hu)
    (h.holds policy) ?_
  intro kind
  cases kind <;> rfl

end Request.Accepted

/-! ### Launches -/

variable [Scalar α]

/-- A launch that passes the checks runs to its end if no sum of stream positions stops it, and its
effect on the memory is known. -/
theorem Request.launch_spec {request : Request α ε} {settings : Settings} {memory : Memory α ε}
    (hCheck : request.check settings memory = .ok ()) (hSums : settings.SumsPass request.shape)
    (policy : QueryStart) :
    ∃ after, request.run settings policy memory = .ok after ∧
      request.launch settings policy memory = (.ok (request.report settings memory), after) ∧
      (request.kernel settings policy).LaunchEffect memory after := by
  obtain ⟨after, hRun, hEffect⟩ := (accepted_of_check hCheck).run_spec hSums policy
  refine ⟨after, hRun, ?_, hEffect⟩
  rw [launch, hCheck]
  simp only [hRun]

theorem Request.launch_of_refused {request : Request α ε} {settings : Settings} {memory : Memory α ε}
    {refusal : Refusal} (hCheck : request.check settings memory = .error refusal)
    (policy : QueryStart) :
    request.launch settings policy memory = (.error (.refused refusal), memory) := by
  rw [launch, hCheck]

/-- What a launch that comes to its end leaves is what one leaves whose sums wrap. -/
theorem Request.effect_of_launch {request : Request α ε} {settings : Settings} {policy : QueryStart}
    {memory after : Memory α ε} {report : Report}
    (hLaunch : request.launch settings policy memory = (.ok report, after)) :
    (request.kernel settings.wrapping policy).LaunchEffect memory after := by
  cases hCheck : request.check settings.wrapping memory with
  | error refusal =>
      have hSame : request.check settings memory = .error refusal := hCheck
      have hRefused := launch_of_refused hSame policy
      rw [hLaunch] at hRefused
      cases hRefused
  | ok done =>
      obtain ⟨after', -, hWraps, hEffect⟩ := launch_spec hCheck (.inl rfl) policy
      rcases request.launch_wrapping settings policy memory with hSame | ⟨-, hStop⟩
      · rw [hLaunch, hWraps] at hSame
        cases hSame
        exact hEffect
      · rw [hLaunch] at hStop
        cases hStop

/-- A launch is refused exactly when a check refuses it, and then nothing is written. Otherwise,
unless a sum of stream positions stops it, every unit runs to its end: no access leaves its buffer,
no slot has another length, and no phase comes out of order. No launch ends in any other fault. -/
theorem Request.launch_total (request : Request α ε) (settings : Settings) (policy : QueryStart)
    (memory : Memory α ε) :
    (settings.SumsPass request.shape →
      ∀ failure, (request.launch settings policy memory).1 = .error failure ↔
        ∃ refusal, failure = .refused refusal ∧ request.check settings memory = .error refusal) ∧
    (∀ refusal, request.check settings memory = .error refusal →
      (request.launch settings policy memory).1 = .error (.refused refusal) ∧
        (request.launch settings policy memory).2 = memory) ∧
    (settings.SumsPass request.shape → request.check settings memory = .ok () →
      ∃ after, request.run settings policy memory = .ok after ∧
        request.launch settings policy memory = (.ok (request.report settings memory), after)) ∧
    ∀ fault, (request.launch settings policy memory).1 = .error (.fault fault) →
      fault = .overflow ∧ ¬ settings.SumsPass request.shape := by
  have hEnds : ∀ settings : Settings, settings.SumsPass request.shape →
      ∀ failure, (request.launch settings policy memory).1 = .error failure ↔
        ∃ refusal, failure = .refused refusal ∧ request.check settings memory = .error refusal := by
    intro settings hSums failure
    cases hCheck : request.check settings memory with
    | error refusal =>
        rw [launch_of_refused hCheck]
        constructor
        · rintro ⟨rfl⟩
          exact ⟨refusal, rfl, rfl⟩
        · rintro ⟨_, rfl, ⟨rfl⟩⟩
          rfl
    | ok done =>
        obtain ⟨after, -, hLaunch, -⟩ := launch_spec hCheck hSums policy
        rw [hLaunch]
        constructor
        · intro h
          cases h
        · rintro ⟨_, -, h⟩
          cases h
  refine ⟨hEnds settings, fun refusal hCheck => ?_, fun hSums hCheck => ?_, fun fault hFault => ?_⟩
  · rw [launch_of_refused hCheck]
    exact ⟨rfl, rfl⟩
  · obtain ⟨after, hRun, hLaunch, -⟩ := launch_spec hCheck hSums policy
    exact ⟨after, hRun, hLaunch⟩
  · have hStops : ¬ settings.SumsPass request.shape := by
      intro hSums
      obtain ⟨_, hRefused, -⟩ := (hEnds settings hSums _).mp hFault
      cases hRefused
    refine ⟨?_, hStops⟩
    rcases request.launch_wrapping settings policy memory with hSame | ⟨-, hStop⟩
    · rw [hSame] at hFault
      obtain ⟨_, hRefused, -⟩ := (hEnds settings.wrapping (.inl rfl) _).mp hFault
      cases hRefused
    · rw [hStop] at hFault
      cases hFault
      rfl

end FusedAttention
