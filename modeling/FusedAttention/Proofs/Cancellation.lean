import Mathlib
import FusedAttention.Proofs.Derivatives
import FusedAttention.Proofs.Exactness

/-! A softmax does not change if all its scores are shifted alike. So the score gradients of a query
cancel when its log-sum-exp and its row of O are those of a softmax, and with them what a launch with
full attention adds to the rows of both bias gradients. -/
namespace FusedAttention

open Finset
open Formula (everywhere)

/-! ### Rows -/

namespace Formula

section Rows

variable {α ε : Type} [ExactScalar α] [Element ε α]

/-- The log-sum-exp of a query and its row of O belong to each other: the probabilities that are
computed from the one sum up to one, and the other is the mean of the rows of V under them and the
mask of dropout that the kernel reads. -/
structure SoftmaxRow (request : Request α ε) (settings : Settings) (u : UnitCoord) (i : Nat) : Prop where
  total : ∑ j ∈ range request.shape.numKeys, prob request settings everywhere u i j = 1
  output : ∀ c < request.shape.headDimValue, o request u i c =
    ∑ j ∈ range request.shape.numKeys,
      keep request settings u i j * prob request settings everywhere u i j * v request u j c

variable {request : Request α ε} {settings : Settings} {u : UnitCoord} {i : Nat}

/-- Delta is the mean of the gradients of the probabilities. -/
theorem SoftmaxRow.delta_eq (hRow : SoftmaxRow request settings u i) :
    delta request u i = ∑ j ∈ range request.shape.numKeys,
      prob request settings everywhere u i j * (keep request settings u i j *
        ∑ c ∈ range request.shape.headDimValue, dO request u i c * v request u j c) := by
  have hColumn : ∀ c ∈ range request.shape.headDimValue, o request u i c * dO request u i c =
      ∑ j ∈ range request.shape.numKeys, prob request settings everywhere u i j *
        (keep request settings u i j * (dO request u i c * v request u j c)) := by
    intro c hc
    rw [hRow.output c (mem_range.mp hc), sum_mul]
    apply sum_congr rfl
    intro j _
    ring
  rw [delta, sum_congr rfl hColumn, sum_comm]
  simp only [mul_sum]

theorem SoftmaxRow.sum_gradScore (hRow : SoftmaxRow request settings u i) :
    ∑ j ∈ range request.shape.numKeys, gradScore request settings everywhere u i j = 0 := by
  simp only [gradScore, mul_sub, sum_sub_distrib]
  rw [← hRow.delta_eq, ← sum_mul, hRow.total, one_mul, sub_self]

/-! ### Rows of the bias gradients -/

/-- The rows of all batches of a group are summed up entry by entry. -/
theorem sum_gradPairBias {g h : Nat} (hRows : ∀ n < request.shape.groupSize,
      SoftmaxRow request settings ⟨g * request.shape.groupSize + n, h⟩ i) :
    ∑ j ∈ range request.shape.numKeys, gradPairBias request settings everywhere g h i j = 0 := by
  simp only [gradPairBias]
  rw [sum_comm]
  apply sum_eq_zero
  intro n hn
  exact (hRows n (mem_range.mp hn)).sum_gradScore

/-- So are the rows of all heads and queries of a batch. -/
theorem sum_gradKeyMask {b : Nat} (hRows : ∀ h < request.shape.heads,
      ∀ i < request.shape.numQueries, SoftmaxRow request settings ⟨b, h⟩ i) :
    ∑ j ∈ range request.shape.numKeys, gradKeyMask request settings everywhere b j = 0 := by
  simp only [gradKeyMask, everywhere, filter_true]
  rw [sum_comm]
  apply sum_eq_zero
  intro h hh
  rw [sum_comm]
  apply sum_eq_zero
  intro i hi
  exact (hRows h (mem_range.mp hh) i (mem_range.mp hi)).sum_gradScore

end Rows

end Formula

/-! ### After the forward pass -/

noncomputable instance [RealReading] : ExactScalar ℝ where
  toScalar := inferInstance
  __ := (inferInstance : CommRing ℝ)
  eq_zero_of_isZero _ h := of_decide_eq_true h

section Forward

variable [RealReading] {ε : Type} [Element ε ℝ] {request : Request ℝ ε} {settings : Settings}
  {memory : Memory ℝ ε}

/-- What the forward pass computes attention from, for the tensors that a request describes. -/
noncomputable def Request.attentionInputs (request : Request ℝ ε) : AttentionInputs ℝ where
  q := request.tensors.operands.q
  k := request.tensors.operands.k
  v := request.tensors.operands.v
  biases := request.tensors.biases

/-- The tensors of an accepted request are such that the forward pass takes them. Without a pair bias
it takes every batch as a group of its own. -/
theorem Request.Accepted.proper_attentionInputs (hAccepted : request.Accepted settings memory)
    (hAlone : request.biases.pairBias = none → request.shape.groupSize = 1) :
    request.attentionInputs.Proper request.shape where
  q := rfl
  k := rfl
  v := rfl
  bias kind bias hBias := by
    cases kind with
    | keyMask =>
        obtain ⟨data, -, rfl⟩ := Option.map_eq_some_iff.mp hBias
        rfl
    | pairBias =>
        obtain ⟨data, -, rfl⟩ := Option.map_eq_some_iff.mp hBias
        rfl
  extents := by
    have hQueries := hAccepted.numQueries_pos.ne'
    have hKeys := hAccepted.numKeys_pos.ne'
    have hCols : request.shape.headDim ≠ 0 := (hAccepted.valid fullAttention).headDim.ne'
    have hColsValue : request.shape.headDimValue ≠ 0 :=
      (hAccepted.valid fullAttention).headDimValue.ne'
    exact if_neg (by simp [hQueries, hKeys, hCols, hColsValue])
  grouped _ _ := ⟨hAccepted.positive_of_mem "batch" (by simp [Shape.named]), hAccepted.groups⟩
  ungrouped hNone := hAlone (Option.map_eq_none_iff.mp hNone)

/-- O and the log-sum-exp of the forward pass make every row one of a softmax, for any dropout whose
words have places that fit 64 bits. -/
theorem Formula.softmaxRow_of_forward (hAccepted : request.Accepted settings memory)
    (hAlone : request.biases.pairBias = none → request.shape.groupSize = 1)
    (hForward : request.attentionInputs.forward settings =
      .ok (request.tensors.operands.o, request.tensors.lse))
    (hFits : settings.dropout.isEnabled = true → settings.dropout.Fits request.shape)
    {u : UnitCoord} (hu : request.shape.HasUnit u) {i : Nat} (hi : i < request.shape.numQueries) :
    SoftmaxRow request settings u i := by
  have hKeys := hAccepted.numKeys_pos
  have hSums : settings.dropout.isEnabled = true → settings.SumsPass request.shape :=
    fun hOn => .inr (hFits hOn)
  obtain ⟨mask, hMask, -⟩ := dropoutMask_spec (α := ℝ) hAccepted.numQueries_pos hKeys hSums
  have hStores : Untiled.Stores mask request settings :=
    Untiled.stores_of_dropoutMask hAccepted.numQueries_pos hKeys hFits hMask
  have hAttention : request.attentionInputs.forward settings = .ok
      (request.attentionInputs.attention request.shape (scale request settings) mask) :=
    (hAccepted.proper_attentionInputs hAlone).forward_eq hMask
  obtain ⟨hO, hLse⟩ := Prod.mk.inj (Except.ok.inj (hAttention.symm.trans hForward))
  have hProb : ∀ j < request.shape.numKeys, prob request settings everywhere u i j =
      Softmax.weight request.shape.numKeys ((request.attentionInputs.scores request.shape
        (scale request settings)).at4 u.batchId u.head i) j := by
    intro j hj
    rw [← Untiled.probabilities_eq hAccepted.groups hu hi hj, ← hLse]
    exact Untiled.at4_probabilities hKeys hu.1 hu.2 hi hj _
  constructor
  · rw [sum_congr rfl fun j hj => hProb j (mem_range.mp hj)]
    exact Softmax.sum_weight hKeys _
  · intro c hc
    have hEntry : request.tensors.operands.o.at4 u.batchId i u.head c = o request u i c :=
      Tensor.at4_ofFn4 _ hu.1 hi hu.2 hc
    rw [← hEntry, ← hO, Untiled.weightedValues, Tensor.at4_ofFn4 _ hu.1 hi hu.2 hc, Untiled.sum_eq]
    apply sum_congr rfl
    intro j hj
    rw [mem_range] at hj
    have hValue : request.attentionInputs.v.at4 u.batchId j u.head c = v request u j c :=
      Tensor.at4_ofFn4 _ hu.1 hj hu.2 hc
    rw [hValue, AttentionInputs.weights, Untiled.masked_eq hStores hu hi hj, hProb j hj,
      Untiled.at4_probabilities hKeys hu.1 hu.2 hi hj, mul_comm (keep _ _ _ _ _)]

end Forward

/-! ### After the backward pass -/

/-- Every entry of a row of `count` entries from `start` on has grown by its own amount. -/
def RowGrows {α : Type} [Scalar α] (before after : Array α) (start count : Nat) (amount : Nat → α) : Prop :=
  ∀ j < count, ∃ y, before[start + j]? = some y ∧ after[start + j]? = some (y + amount j)

section Backward

variable {α ε : Type} [ExactScalar α]

theorem RowGrows.sum_eq {before after : Array α} {start count : Nat} {amount : Nat → α}
    (hGrows : RowGrows before after start count amount) :
    ∑ j ∈ range count, after[start + j]?.getD 0 =
      ∑ j ∈ range count, before[start + j]?.getD 0 + ∑ j ∈ range count, amount j := by
  rw [← sum_add_distrib]
  apply sum_congr rfl
  intro j hj
  obtain ⟨y, hBefore, hAfter⟩ := hGrows j (mem_range.mp hj)
  rw [hBefore, hAfter, Option.getD_some, Option.getD_some]

variable [Element ε α] {request : Request α ε} {settings : Settings}
  {memory after : Memory α ε} {u : UnitCoord}

namespace Kernel

/-- One unit adds the score gradients of each of its queries to a row of the pair bias. -/
theorem UnitStep.pairBias_rows (hStep : (request.kernel settings fullAttention).UnitStep memory u after)
    (hAccepted : request.Accepted settings memory) (hSums : settings.SumsPass request.shape)
    (hu : request.shape.HasUnit u) {pairBias : Array α}
    (hGrad : memory.biasGrads.pairBias = some pairBias) :
    ∃ grad, after.biasGrads.pairBias = some grad ∧ ∀ i < request.shape.numQueries,
      RowGrows pairBias grad (((u.batchId / request.shape.groupSize * request.shape.heads + u.head) *
        request.shape.numQueries + i) * request.shape.numKeys) request.shape.numKeys
          (Formula.gradScore request settings everywhere u i) := by
  obtain ⟨grad, hGrad', hEntries⟩ := hStep.pairBias_entry hAccepted hSums hu hGrad
  refine ⟨grad, hGrad', fun i hi j hj => ?_⟩
  have hEntry := hEntries i hi j hj
  rw [BiasKind.pairBias_address, Request.attends_fullAttention hAccepted] at hEntry
  exact hEntry

/-- The units of a group add to the same row. -/
theorem LaunchEffect.pairBias_rows
    (hEffect : (request.kernel settings fullAttention).LaunchEffect memory after)
    (hAccepted : request.Accepted settings memory) (hSums : settings.SumsPass request.shape)
    {pairBias : Array α} (hGrad : memory.biasGrads.pairBias = some pairBias) :
    ∃ grad, after.biasGrads.pairBias = some grad ∧ ∀ g < request.shape.biasGroups,
      ∀ h < request.shape.heads, ∀ i < request.shape.numQueries,
        RowGrows pairBias grad
          (((g * request.shape.heads + h) * request.shape.numQueries + i) * request.shape.numKeys)
          request.shape.numKeys (Formula.gradPairBias request settings everywhere g h i) := by
  have hSize := hAccepted.groupSize_pos
  obtain ⟨grad, hGrad', hEntries⟩ := hEffect.biasGrad_entry hAccepted hSums .pairBias hGrad
  refine ⟨grad, hGrad', fun g hg h hh i hi j hj => ?_⟩
  have hGroup := Shape.group_within hAccepted.groups hg
  have hFirst : g * request.shape.groupSize < request.shape.batch := by omega
  have hEntry := hEntries ⟨g * request.shape.groupSize, h⟩ ⟨hFirst, hh⟩ i hi j hj
  rw [Shape.address_group hSize, Request.attends_fullAttention hAccepted, Formula.gradBias,
    Nat.mul_div_cancel _ hSize] at hEntry
  exact hEntry

/-- All queries of all heads of a batch add to one row of the key mask. -/
theorem LaunchEffect.keyMask_rows
    (hEffect : (request.kernel settings fullAttention).LaunchEffect memory after)
    (hAccepted : request.Accepted settings memory) (hSums : settings.SumsPass request.shape)
    {keyMask : Array α} (hGrad : memory.biasGrads.keyMask = some keyMask) :
    ∃ grad, after.biasGrads.keyMask = some grad ∧ ∀ b < request.shape.batch,
      RowGrows keyMask grad (b * request.shape.numKeys) request.shape.numKeys
        (Formula.gradKeyMask request settings everywhere b) := by
  obtain ⟨grad, hGrad', hEntries⟩ := hEffect.biasGrad_entry hAccepted hSums .keyMask hGrad
  refine ⟨grad, hGrad', fun b hb j hj => ?_⟩
  have hEntry := hEntries ⟨b, 0⟩ ⟨hb, hAccepted.heads_pos⟩ 0 hAccepted.numQueries_pos j hj
  rw [BiasKind.keyMask_address, Request.attends_fullAttention hAccepted] at hEntry
  exact hEntry

end Kernel

end Backward

/-- When O and the log-sum-exp are those of the forward pass, and the places of all words of the mask fit
64 bits, a launch with full attention leaves the sum of every row of both bias gradients as it is. -/
theorem Request.sum_biasGrads_of_forward [RealReading] {ε : Type} [Element ε ℝ] {request : Request ℝ ε}
    {settings : Settings} {memory : Memory ℝ ε} (hCheck : request.check settings memory = .ok ())
    (hSums : settings.SumsPass request.shape)
    (hFits : settings.dropout.isEnabled = true → settings.dropout.Fits request.shape)
    {keyMask pairBias : Array ℝ} (hKeyMask : memory.biasGrads.keyMask = some keyMask)
    (hPairBias : memory.biasGrads.pairBias = some pairBias)
    (hForward : request.attentionInputs.forward settings =
      .ok (request.tensors.operands.o, request.tensors.lse)) :
    let s := request.shape
    let rowSum (data : Array ℝ) (start : ℕ) := ∑ j ∈ range s.numKeys, data[start + j]?.getD 0
    ∃ after pairGrad keyGrad,
      request.launch settings fullAttention memory = (.ok (request.report settings memory), after) ∧
      after.biasGrads.pairBias = some pairGrad ∧ after.biasGrads.keyMask = some keyGrad ∧
      (∀ g < s.biasGroups, ∀ h < s.heads, ∀ i < s.numQueries,
        rowSum pairGrad (((g * s.heads + h) * s.numQueries + i) * s.numKeys) =
          rowSum pairBias (((g * s.heads + h) * s.numQueries + i) * s.numKeys)) ∧
      ∀ b < s.batch, rowSum keyGrad (b * s.numKeys) = rowSum keyMask (b * s.numKeys) := by
  have hAccepted := accepted_of_check hCheck
  have hAlone : request.biases.pairBias = none → request.shape.groupSize = 1 := by
    intro hNone
    have hBias := (hAccepted.biasGrads .pairBias pairBias hPairBias).1
    rw [Biases.get, hNone] at hBias
    cases hBias
  have hRows : ∀ u, request.shape.HasUnit u → ∀ i < request.shape.numQueries,
      Formula.SoftmaxRow request settings u i := fun u hu i hi =>
    Formula.softmaxRow_of_forward hAccepted hAlone hForward hFits hu hi
  obtain ⟨after, -, hLaunch, hEffect⟩ := launch_spec hCheck hSums fullAttention
  obtain ⟨pairGrad, hPairGrad, hPairRows⟩ := hEffect.pairBias_rows hAccepted hSums hPairBias
  obtain ⟨keyGrad, hKeyGrad, hKeyRows⟩ := hEffect.keyMask_rows hAccepted hSums hKeyMask
  refine ⟨after, pairGrad, keyGrad, hLaunch, hPairGrad, hKeyGrad, ?_, ?_⟩
  · intro g hg h hh i hi
    have hGroup := Shape.group_within hAccepted.groups hg
    have hCancel := Formula.sum_gradPairBias fun n hn =>
      hRows ⟨g * request.shape.groupSize + n, h⟩ ⟨by dsimp only; omega, hh⟩ i hi
    have hSum := (hPairRows g hg h hh i hi).sum_eq
    rwa [hCancel, add_zero] at hSum
  · intro b hb
    have hCancel := Formula.sum_gradKeyMask fun h hh i hi => hRows ⟨b, h⟩ ⟨hb, hh⟩ i hi
    have hSum := (hKeyRows b hb).sum_eq
    rwa [hCancel, add_zero] at hSum

/-- With full attention, if no sum of stream positions stops the launch, a unit adds the score gradients
of each query, before the scale is applied, to the row of the pair bias that the query meets, and they
cancel if the log-sum-exp and O of the query are those of a softmax under the mask that the kernel reads.
If they are so for all queries that meet a row of the gradient of either bias, then what the launch adds
to the row cancels. While the places of all words fit 64 bits, the kernel reads the mask that is drawn
for whole tensors, and the factor of each pair is that of its own word. -/
theorem Request.scoreGrads_cancel {α ε : Type} [ExactScalar α] [Element ε α] {request : Request α ε}
    {settings : Settings} {memory : Memory α ε} (hCheck : request.check settings memory = .ok ())
    (hSums : settings.SumsPass request.shape) {keyMask pairBias : Array α}
    (hKeyMask : memory.biasGrads.keyMask = some keyMask)
    (hPairBias : memory.biasGrads.pairBias = some pairBias) :
    let s := request.shape
    (∀ u, s.HasUnit u → ∃ after grad,
      (request.kernel settings fullAttention).runOn memory u = .ok after ∧
      after.biasGrads.pairBias = some grad ∧ ∀ i < s.numQueries,
        RowGrows pairBias grad
          (((u.batchId / s.groupSize * s.heads + u.head) * s.numQueries + i) * s.numKeys) s.numKeys
          (Formula.gradScore request settings everywhere u i) ∧
        (Formula.SoftmaxRow request settings u i →
          ∑ j ∈ range s.numKeys, Formula.gradScore request settings everywhere u i j = 0)) ∧
    ((settings.dropout.isEnabled = true → settings.dropout.Fits s) →
      (∃ mask, Untiled.dropoutMask s settings.dropout settings.overflow = .ok mask ∧
        Untiled.Stores mask request settings) ∧
      ∀ u, s.HasUnit u → ∀ i < s.numQueries, ∀ j < s.numKeys, Formula.keep request settings u i j =
        if settings.dropout.isEnabled then settings.dropout.entry s u i j else 1) ∧
    ∃ after pairGrad keyGrad,
      request.launch settings fullAttention memory = (.ok (request.report settings memory), after) ∧
      after.biasGrads.pairBias = some pairGrad ∧ after.biasGrads.keyMask = some keyGrad ∧
      (∀ g < s.biasGroups, ∀ h < s.heads, ∀ i < s.numQueries,
        RowGrows pairBias pairGrad (((g * s.heads + h) * s.numQueries + i) * s.numKeys) s.numKeys
          (Formula.gradPairBias request settings everywhere g h i) ∧
        ((∀ n < s.groupSize, Formula.SoftmaxRow request settings ⟨g * s.groupSize + n, h⟩ i) →
          ∑ j ∈ range s.numKeys, Formula.gradPairBias request settings everywhere g h i j = 0)) ∧
      ∀ b < s.batch,
        RowGrows keyMask keyGrad (b * s.numKeys) s.numKeys
          (Formula.gradKeyMask request settings everywhere b) ∧
        ((∀ h < s.heads, ∀ i < s.numQueries, Formula.SoftmaxRow request settings ⟨b, h⟩ i) →
          ∑ j ∈ range s.numKeys, Formula.gradKeyMask request settings everywhere b j = 0) := by
  have hAccepted := accepted_of_check hCheck
  intro s
  refine ⟨fun u hu => ?_, fun hFits => ⟨?_, fun u hu i hi j hj => Untiled.keep_eq hFits hu hi hj⟩, ?_⟩
  · obtain ⟨after, hRun, -, hStep⟩ := Kernel.runOn_spec (hAccepted.valid fullAttention)
      (hAccepted.reads hSums fullAttention hu) (hAccepted.holds fullAttention)
    obtain ⟨grad, hGrad, hRows⟩ := hStep.pairBias_rows hAccepted hSums hu hPairBias
    exact ⟨after, grad, hRun, hGrad, fun i hi => ⟨hRows i hi, fun hRow => hRow.sum_gradScore⟩⟩
  · obtain ⟨mask, hMask, -⟩ := dropoutMask_spec (α := α) hAccepted.numQueries_pos
      hAccepted.numKeys_pos fun _ => hSums
    exact ⟨mask, hMask, Untiled.stores_of_dropoutMask hAccepted.numQueries_pos
      hAccepted.numKeys_pos hFits hMask⟩
  · obtain ⟨after, -, hLaunch, hEffect⟩ := launch_spec hCheck hSums fullAttention
    obtain ⟨pairGrad, hPairGrad, hPairRows⟩ := hEffect.pairBias_rows hAccepted hSums hPairBias
    obtain ⟨keyGrad, hKeyGrad, hKeyRows⟩ := hEffect.keyMask_rows hAccepted hSums hKeyMask
    refine ⟨after, pairGrad, keyGrad, hLaunch, hPairGrad, hKeyGrad, ?_, ?_⟩
    · intro g hg h hh i hi
      exact ⟨hPairRows g hg h hh i hi, Formula.sum_gradPairBias⟩
    · intro b hb
      exact ⟨hKeyRows b hb, Formula.sum_gradKeyMask⟩

/-! ### Equally probable keys -/

noncomputable instance : Element ℝ ℝ where
  dtype := .f32
  widen := id
  round := id
  zero := 0

/-- A request on reals in which all scores are zero. Nine keys are equally probable, the rows of V are
their positions, and those of O the mean of these. -/
noncomputable def Request.uniform : Request ℝ ℝ :=
  let request := ones .twoTiles
  { request with
    inputs :=
      { q := .replicate request.inputs.q.size 0
        k := .replicate request.inputs.k.size 0
        v := .ofFn fun p : Fin request.inputs.v.size => ((p / lineSize : ℕ) : ℝ)
        o := .replicate request.inputs.o.size 4
        dO := .replicate request.inputs.dO.size 1 }
    lse := .replicate request.lse.size (Real.log 9)
    biases := request.biases.map fun bias => bias.map fun data => .replicate data.size 0 }

/-- Memory for it that holds one number everywhere, with both bias gradients. -/
noncomputable def Memory.uniform (x : ℝ) : Memory ℝ ℝ :=
  let memory := filled .twoTiles 0
  { grads := memory.grads.map fun data => .replicate data.size x
    delta := .replicate memory.delta.size x
    biasGrads := memory.biasGrads.map fun grad => grad.map fun data => .replicate data.size x
    workspace := none }

theorem widenAt_replicate {n p : ℕ} (hp : p < n) (x : ℝ) : Tile.widenAt (.replicate n x) p = x := by
  rw [Tile.widenAt_of_lt (by simpa using hp), Array.getElem_replicate]
  rfl

theorem widenAt_zeros (n p : ℕ) : Tile.widenAt (.replicate n (0 : ℝ)) p = 0 := by
  by_cases hp : p < n
  · exact widenAt_replicate hp 0
  · rw [Tile.widenAt, Array.getElem?_eq_none (by simpa using hp)]
    rfl

/-- Where the numbers lie that are not zero. -/
theorem Request.places_uniform : ∀ i < 9,
    let request := ones .twoTiles
    let layouts := request.inputLayouts
    request.lseLayout.unitOffset ⟨0, 0⟩ + i < request.lse.size ∧
      layouts.o.address ⟨0, 0⟩ i 0 < request.inputs.o.size ∧
      layouts.dO.address ⟨0, 0⟩ i 0 < request.inputs.dO.size ∧
      layouts.v.address ⟨0, 0⟩ i 0 < request.inputs.v.size ∧
      layouts.v.address ⟨0, 0⟩ i 0 / lineSize = i := by
  decide

namespace Formula

section Numbers

variable {i : ℕ} (hi : i < 9)

include hi

theorem v_uniform : v .uniform ⟨0, 0⟩ i 0 = (i : ℝ) := by
  obtain ⟨-, -, -, hPlace, hRow⟩ := Request.places_uniform i hi
  have hIn : Request.uniform.inputLayouts.v.address ⟨0, 0⟩ i 0 < Request.uniform.inputs.v.size := by
    simpa [Request.uniform] using hPlace
  rw [v, number, Tile.widenAt_of_lt hIn]
  simp only [Request.uniform, Array.getElem_ofFn, hRow]
  rfl

theorem o_uniform : o .uniform ⟨0, 0⟩ i 0 = (4 : ℝ) := by
  obtain ⟨-, hPlace, -⟩ := Request.places_uniform i hi
  exact widenAt_replicate hPlace 4

theorem dO_uniform : dO .uniform ⟨0, 0⟩ i 0 = (1 : ℝ) := by
  obtain ⟨-, -, hPlace, -⟩ := Request.places_uniform i hi
  exact widenAt_replicate hPlace 1

variable [RealReading]

theorem prob_uniform (j : ℕ) : prob .uniform .smallTiles everywhere ⟨0, 0⟩ i j = 1 / 9 := by
  have hScore : score .uniform .smallTiles ⟨0, 0⟩ i j = 0 := by
    have hQ : ∀ c, q .uniform ⟨0, 0⟩ i c = (0 : ℝ) := fun c => widenAt_zeros _ _
    have hBias : ∀ kind, bias .uniform ⟨0, 0⟩ kind i j = (0 : ℝ) := by
      intro kind
      cases kind with
      | keyMask => exact widenAt_zeros _ _
      | pairBias => exact widenAt_zeros _ _
    simp [score, hQ, hBias]
  have hLse : lse .uniform ⟨0, 0⟩ i = Real.log 9 := by
    obtain ⟨hPlace, -⟩ := Request.places_uniform i hi
    simp only [lse, Request.uniform, Array.getElem?_replicate]
    rw [if_pos hPlace, Option.getD_some]
  rw [prob, everywhere, if_pos rfl, hScore, hLse, zero_sub]
  show Real.exp (-Real.log 9) = 1 / 9
  rw [Real.exp_neg, Real.exp_log (by norm_num), one_div]

omit hi in
theorem keep_uniform (i j : ℕ) : keep .uniform .smallTiles ⟨0, 0⟩ i j = (1 : ℝ) :=
  rfl

theorem softmaxRow_uniform : SoftmaxRow .uniform .smallTiles ⟨0, 0⟩ i where
  total := by
    show ∑ j ∈ range 9, prob .uniform .smallTiles everywhere ⟨0, 0⟩ i j = 1
    simp only [prob_uniform hi]
    norm_num
  output c hc := by
    obtain rfl : c = 0 := Nat.lt_one_iff.mp hc
    have hTerm : ∀ j ∈ range 9, keep .uniform .smallTiles ⟨0, 0⟩ i j *
        prob .uniform .smallTiles everywhere ⟨0, 0⟩ i j * v .uniform ⟨0, 0⟩ j 0 = 1 / 9 * (j : ℝ) := by
      intro j hj
      rw [prob_uniform hi, keep_uniform, v_uniform (mem_range.mp hj), one_mul]
    refine (o_uniform hi).trans ((sum_congr rfl hTerm).trans ?_).symm
    norm_num [sum_range_succ]

/-- A score gradient tells how far its key is from the mean. -/
theorem gradScore_uniform {j : ℕ} (hj : j < 9) :
    gradScore .uniform .smallTiles everywhere ⟨0, 0⟩ i j = ((j : ℝ) - 4) / 9 := by
  have hTerm : ∑ c ∈ range 1, dO .uniform ⟨0, 0⟩ i c * v .uniform ⟨0, 0⟩ j c = (j : ℝ) := by
    rw [sum_range_one, dO_uniform hi, v_uniform hj, one_mul]
  have hDelta : delta .uniform ⟨0, 0⟩ i = (4 : ℝ) := by
    refine (sum_range_one _).trans ?_
    rw [dO_uniform hi, o_uniform hi, mul_one]
  rw [gradScore, prob_uniform hi, keep_uniform, hDelta, one_mul]
  refine (congrArg (fun term => 1 / 9 * (term - 4)) hTerm).trans ?_
  ring

end Numbers

end Formula

theorem RowGrows.sum_uniform [RealReading] {before after : Array ℝ} {amount : ℕ → ℝ}
    (hGrows : RowGrows before after 0 9 amount) (hBefore : before = .replicate before.size 5)
    (hCancel : ∑ j ∈ range 9, amount j = 0) : ∑ j ∈ range 9, after[j]?.getD 0 = 45 := by
  have hOld : ∀ j ∈ range 9, before[0 + j]?.getD 0 = 5 := by
    intro j hj
    obtain ⟨y, hEntry, -⟩ := hGrows j (mem_range.mp hj)
    rw [hBefore, Array.getElem?_replicate] at hEntry ⊢
    split at hEntry
    · rw [if_pos ‹_›, Option.getD_some]
    · cases hEntry
  have hSum := hGrows.sum_eq
  rw [hCancel, sum_congr rfl hOld] at hSum
  norm_num at hSum
  exact hSum

/-- The first of nine equally probable keys is four positions from the mean, so the first entry of the
pair bias loses four ninths, and that of the key mask as much from each of nine queries. The sums of
the first rows stay nine times five. -/
theorem Request.scoreGrads_cancel_uniform :
    letI : RealReading := ⟨fun _ => 1⟩
    Request.uniform.check .smallTiles (.uniform 5) = .ok () ∧
      Settings.smallTiles.SumsPass .twoTiles ∧
      (∀ u, Shape.twoTiles.HasUnit u → ∀ i < 9, Formula.SoftmaxRow .uniform .smallTiles u i) ∧
      ∃ report after pairGrad keyGrad,
        Request.uniform.launch .smallTiles fullAttention (.uniform 5) = (.ok report, after) ∧
        after.biasGrads.pairBias = some pairGrad ∧ after.biasGrads.keyMask = some keyGrad ∧
        pairGrad[0]? = some (5 - 4 / 9) ∧ keyGrad[0]? = some (5 - 4) ∧
        ∑ j ∈ range 9, pairGrad[j]?.getD 0 = 45 ∧ ∑ j ∈ range 9, keyGrad[j]?.getD 0 = 45 := by
  let _ : RealReading := ⟨fun _ => 1⟩
  have hCheck : Request.uniform.check .smallTiles (.uniform 5) = .ok () :=
    (Check.eq_ok_iff_isOk _).mpr (by decide +kernel)
  have hRows : ∀ u, Shape.twoTiles.HasUnit u → ∀ i < 9,
      Formula.SoftmaxRow .uniform .smallTiles u i := by
    rintro ⟨b, h⟩ ⟨hb, hh⟩ i hi
    obtain rfl : b = 0 := Nat.lt_one_iff.mp hb
    obtain rfl : h = 0 := Nat.lt_one_iff.mp hh
    exact Formula.softmaxRow_uniform hi
  have hFirst : ∀ i ∈ range 9,
      Formula.gradScore .uniform .smallTiles everywhere ⟨0, 0⟩ i 0 = (-4 / 9 : ℝ) := by
    intro i hi
    rw [Formula.gradScore_uniform (mem_range.mp hi) (by decide)]
    norm_num
  refine ⟨hCheck, Settings.sumsPass_smallTiles, hRows, ?_⟩
  obtain ⟨-, -, after, pairGrad, keyGrad, hLaunch, hPair, hKey, hPairRows, hKeyRows⟩ :=
    Request.scoreGrads_cancel hCheck Settings.sumsPass_smallTiles rfl rfl
  obtain ⟨hPairGrows, hPairSum⟩ := hPairRows 0 (by decide) 0 (by decide) 0 (by decide)
  obtain ⟨hKeyGrows, hKeySum⟩ := hKeyRows 0 (by decide)
  refine ⟨_, after, pairGrad, keyGrad, hLaunch, hPair, hKey, ?_, ?_, ?_, ?_⟩
  · obtain ⟨y, hOld, hNew⟩ := hPairGrows 0 (by decide)
    obtain rfl : 5 = y := Option.some.inj hOld
    refine hNew.trans (congrArg some ?_)
    have hAmount : Formula.gradPairBias .uniform .smallTiles everywhere 0 0 0 0 = (-4 / 9 : ℝ) :=
      (sum_range_one _).trans (hFirst 0 (by decide))
    rw [hAmount]
    norm_num
  · obtain ⟨y, hOld, hNew⟩ := hKeyGrows 0 (by decide)
    obtain rfl : 5 = y := Option.some.inj hOld
    refine hNew.trans (congrArg some ?_)
    have hAmount : Formula.gradKeyMask .uniform .smallTiles everywhere 0 0 = (-4 : ℝ) := by
      refine (sum_range_one _).trans ((sum_congr rfl hFirst).trans ?_)
      norm_num
    rw [hAmount]
    norm_num
  · refine hPairGrows.sum_uniform rfl (hPairSum fun n hn => ?_)
    obtain rfl : n = 0 := Nat.lt_one_iff.mp hn
    exact hRows ⟨0, 0⟩ ⟨by decide, by decide⟩ 0 (by decide)
  · refine hKeyGrows.sum_uniform rfl (hKeySum fun h hh i hi => ?_)
    exact hRows ⟨0, h⟩ ⟨Nat.one_pos, hh⟩ i hi

end FusedAttention
