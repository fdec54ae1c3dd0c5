import FusedAttention.Dense.Problem
import FusedAttention.Proofs.DenseBackward

/-! Random problems and the shapes that their tensors imply. Of the group size only the number of groups
is left in a pair bias, and batches that do not fill a group are not counted. The shape that is read
off the tensors is the one asked for just if the group size divides the batches. Otherwise the groups
are larger where their number divides the batches, and no tensors come about where it does not. -/
namespace FusedAttention

/-! ### Group sizes -/

namespace Shape

variable {s : Shape}

/-- As many groups with all batches spread over them. -/
def regrouped (s : Shape) : Shape :=
  { s with groupSize := s.batch / s.biasGroups }

theorem biasGroups_pos (hSize : 0 < s.groupSize) (hLe : s.groupSize ≤ s.batch) : 0 < s.biasGroups :=
  Nat.div_pos hLe hSize

/-- A size that divides the batches makes groups whose number divides them. -/
theorem groups_dvd (hRest : s.batch % s.groupSize = 0) : s.batch % s.biasGroups = 0 :=
  Nat.mod_eq_zero_of_dvd (Nat.div_dvd_of_dvd (Nat.dvd_of_mod_eq_zero hRest))

variable (hSize : 0 < s.groupSize) (hLe : s.groupSize ≤ s.batch)

include hSize hLe

/-- Spreading the batches over full groups leaves their size. -/
theorem regrouped_eq_self (hRest : s.batch % s.groupSize = 0) : s.regrouped = s := by
  have hBatch : s.batch ≠ 0 := by omega
  have hMembers : s.batch / (s.batch / s.groupSize) = s.groupSize :=
    Nat.div_div_self (Nat.dvd_of_mod_eq_zero hRest) hBatch
  unfold regrouped biasGroups
  rw [hMembers]

variable (hEven : s.batch % s.biasGroups = 0)

include hEven

@[simp] theorem biasGroups_regrouped : s.regrouped.biasGroups = s.biasGroups := by
  have hBatch : s.batch ≠ 0 := by omega
  exact Nat.div_div_self (Nat.dvd_of_mod_eq_zero hEven) hBatch

/-- Where the size does not divide the batches, the groups take in those that are left over. -/
theorem groupSize_lt_regrouped (hRest : s.batch % s.groupSize ≠ 0) :
    s.groupSize < s.regrouped.groupSize := by
  have hGroups := biasGroups_pos hSize hLe
  have hAll : s.batch / s.biasGroups * s.biasGroups = s.batch :=
    Nat.div_mul_cancel (Nat.dvd_of_mod_eq_zero hEven)
  have hFull : s.groupSize * s.biasGroups < s.batch := by
    have hSplit := Nat.div_add_mod s.batch s.groupSize
    show s.groupSize * (s.batch / s.groupSize) < s.batch
    omega
  apply Nat.lt_of_mul_lt_mul_right (a := s.biasGroups)
  show s.groupSize * s.biasGroups < s.batch / s.biasGroups * s.biasGroups
  rwa [hAll]

end Shape

variable {s : Shape} {mode : BiasMode}

/-! ### Tensors -/

/-- A problem is drawn for a shape, and its tensors have the dimensions of it. -/
structure Problem.HasDims (problem : Problem) (s : Shape) : Prop where
  shape : problem.shape = s
  q : problem.q.dims = [s.batch, s.numQueries, s.heads, s.headDim]
  k : problem.k.dims = [s.batch, s.numKeys, s.heads, s.headDim]
  v : problem.v.dims = [s.batch, s.numKeys, s.heads, s.headDimValue]
  dO : problem.dO.dims = [s.batch, s.numQueries, s.heads, s.headDimValue]
  bias : ∀ kind bias, problem.biases.get kind = some bias → bias.dims = kind.dims s

/-- Drawing gives the tensors of the shape, with the biases of the mode. -/
theorem Problem.random_spec (ε : Type) [Element ε Float32] (hSize : 0 < s.groupSize)
    (mode : BiasMode) (seed : UInt64) :
    ∃ problem, Problem.random ε s mode seed = .ok problem ∧ problem.HasDims s ∧
      ∀ kind, (problem.biases.get kind).isSome = mode.has kind := by
  have hCheck : BiasKind.pairBias.check s = .ok () := if_neg fun h => hSize.ne' h.2
  unfold Problem.random
  rw [hCheck]
  cases mode
  all_goals
    refine ⟨_, rfl, ⟨rfl, rfl, rfl, rfl, rfl, ?_⟩, ?_⟩
    · intro kind bias hBias
      cases kind <;> cases hBias <;> rfl
    · intro kind
      cases kind <;> rfl

/-- What attention is computed from in a problem. -/
def Problem.attention (problem : Problem) : AttentionInputs Float32 :=
  ⟨problem.q, problem.k, problem.v, problem.biases⟩

/-- Sizes that a problem is drawn for. -/
structure Shape.Drawable (s : Shape) : Prop where
  heads : 0 < s.heads
  numQueries : 0 < s.numQueries
  numKeys : 0 < s.numKeys
  headDim : 0 < s.headDim
  headDimValue : 0 < s.headDimValue
  groupSize : 0 < s.groupSize
  groupSize_le : s.groupSize ≤ s.batch

theorem Shape.Drawable.checkExtents_eq (hs : s.Drawable) : Untiled.checkExtents s = .ok () := by
  have := hs.numQueries
  have := hs.numKeys
  have := hs.headDim
  have := hs.headDimValue
  exact if_neg (by omega)

/-! ### Batches that no groups share -/

namespace Untiled

variable {q v bias : Tensor Float32}

/-- Where the number of groups does not divide the batches, the reference takes groups of one batch. -/
theorem forwardShape_uneven (hQ : q.dims = [s.batch, s.numQueries, s.heads, s.headDim])
    (hV : v.dims = [s.batch, s.numKeys, s.heads, s.headDimValue])
    (hBias : bias.dims = BiasKind.pairBias.dims s) (hUneven : s.batch % s.biasGroups ≠ 0) :
    forwardShape q v (some bias) = { s with groupSize := 1 } := by
  have hRefused : pairBiasGroupSize (q.dim 0) (bias.dim 0) =
      .error (.biasGroups s.biasGroups s.batch) := by
    have hBatch : q.dim 0 = s.batch := by simp [Tensor.dim, hQ]
    have hGroups : bias.dim 0 = s.biasGroups := by simp [Tensor.dim, hBias, BiasKind.dims]
    rw [hBatch, hGroups]
    exact if_pos (.inr hUneven)
  have hOne : (Except.error (Refusal.biasGroups s.biasGroups s.batch)).toOption.getD 1 = 1 := rfl
  unfold forwardShape
  simp only [hRefused]
  simp [Tensor.dim, hQ, hV, hOne]

/-- A pair bias of fewer groups has too few entries for groups of one batch. -/
theorem checkBias_uneven (hs : s.Drawable) (hBias : bias.dims = BiasKind.pairBias.dims s)
    (hUneven : s.batch % s.biasGroups ≠ 0) :
    checkBias { s with groupSize := 1 } .pairBias (some bias) =
      .error (.unfitDimensions [s.batch, s.heads, s.numQueries, s.numKeys]
        [s.biasGroups, s.heads, s.numQueries, s.numKeys]) := by
  have hFewer : bias.data.size ≠ BiasKind.pairBias.size { s with groupSize := 1 } := by
    have hGroups : s.biasGroups ≠ s.batch := fun hSame => hUneven (by rw [hSame, Nat.mod_self])
    have hScores : 0 < s.heads * (s.numQueries * s.numKeys) :=
      Nat.mul_pos hs.heads (Nat.mul_pos hs.numQueries hs.numKeys)
    have hSize : BiasKind.pairBias.size { s with groupSize := 1 } =
        s.batch * (s.heads * (s.numQueries * s.numKeys)) := by
      simp [BiasKind.size, BiasKind.dims, Shape.biasGroups, extent]
    rw [bias.size_eq, hBias, hSize]
    intro hEqual
    apply hGroups
    apply Nat.eq_of_mul_eq_mul_right hScores
    simpa [BiasKind.dims, extent] using hEqual
  unfold checkBias
  dsimp only
  rw [if_neg hFewer, hBias]
  simp [BiasKind.dims, Shape.biasGroups]

end Untiled

/-! ### Backward tensors -/

namespace Problem.HasDims

variable {problem : Problem} {settings : Settings}

/-- Where the groups share the batches evenly, attention is computed for the shape with those groups. -/
theorem proper (hProblem : problem.HasDims s) (hs : s.Drawable)
    (hPair : (problem.biases.get .pairBias).isSome = true) (hEven : s.batch % s.biasGroups = 0) :
    problem.attention.Proper s.regrouped where
  q := hProblem.q
  k := hProblem.k
  v := hProblem.v
  bias := by
    intro kind bias hBias
    rw [hProblem.bias kind bias hBias]
    cases kind with
    | keyMask => rfl
    | pairBias =>
        show _ = [s.regrouped.biasGroups, s.heads, s.numQueries, s.numKeys]
        rw [Shape.biasGroups_regrouped hs.groupSize hs.groupSize_le hEven]
        rfl
  extents := hs.checkExtents_eq
  grouped := fun _ _ => ⟨by have := hs.groupSize; have := hs.groupSize_le; show 0 < s.batch; omega,
    Nat.mod_eq_zero_of_dvd (Nat.div_dvd_of_dvd (Nat.dvd_of_mod_eq_zero hEven))⟩
  ungrouped := by
    intro hNone
    have hSome : problem.biases.pairBias.isSome = true := hPair
    rw [show problem.biases.pairBias = none from hNone] at hSome
    cases hSome

/-- Then the tensors of a backward pass come about, with the dimensions of that shape. -/
theorem inputs_regrouped {ε : Type} [Element ε Float32] (hProblem : problem.HasDims s)
    (hs : s.Drawable) (hPair : (problem.biases.get .pairBias).isSome = true)
    (hEven : s.batch % s.biasGroups = 0)
    (hSums : settings.dropout.isEnabled = true → settings.SumsPass s) (biasGrads : Bool) :
    ∃ x, problem.inputs ε settings biasGrads = .ok x ∧ x.HasDims s.regrouped := by
  have hProper := hProblem.proper hs hPair hEven
  obtain ⟨mask, hMask, -⟩ := dropoutMask_spec (α := Float32) (s := s.regrouped) hs.numQueries
    hs.numKeys hSums
  have hForward := hProper.forward_eq hMask
  let results := problem.attention.attention s.regrouped
    (Scalar.ofFloat (settings.resolvedScale s.regrouped.headDim)) mask
  let x := problem.attention.forwardTensors (results.1.map (quantize ε), results.2) problem.dO biasGrads
  have hInputs : problem.inputs ε settings biasGrads = .ok x := by
    obtain ⟨shape, q, k, v, dO, biases⟩ := problem
    obtain rfl : shape = s := hProblem.shape
    exact bind_eq_of_ok hForward (bind_eq_of_ok (Tensor.ofArray?_eq x.operands.o.size_eq) rfl)
  have hRank : x.operands.q.dims.length = 4 := congrArg List.length hProblem.q
  exact ⟨x, hInputs, ForwardTensors.hasDims_of_inferShape hRank
    (hProper.inferShape_eq rfl rfl hProblem.dO biasGrads)⟩

/-- A number of groups that the batches are not split by is taken for one group a batch, for which the
pair bias has too few entries. -/
theorem inputs_uneven {ε : Type} [Element ε Float32] (hProblem : problem.HasDims s)
    (hs : s.Drawable) (hPair : (problem.biases.get .pairBias).isSome = true)
    (hUneven : s.batch % s.biasGroups ≠ 0) (settings : Settings) (biasGrads : Bool) :
    problem.inputs ε settings biasGrads = .error (.unfitDimensions
      [s.batch, s.heads, s.numQueries, s.numKeys]
      [s.biasGroups, s.heads, s.numQueries, s.numKeys]) := by
  obtain ⟨shape, q, k, v, dO, keyMask, pairBias⟩ := problem
  obtain ⟨bias, rfl⟩ : ∃ bias, pairBias = some bias := Option.isSome_iff_exists.mp hPair
  have hDims : bias.dims = BiasKind.pairBias.dims s := hProblem.bias .pairBias bias rfl
  have hShape : Untiled.forwardShape q v (some bias) = { s with groupSize := 1 } :=
    Untiled.forwardShape_uneven hProblem.q hProblem.v hDims hUneven
  have hExtents : Untiled.checkExtents { s with groupSize := 1 } = .ok () := hs.checkExtents_eq
  have hMask : Untiled.checkBias { s with groupSize := 1 } .keyMask keyMask = .ok () := by
    unfold Untiled.checkBias
    cases keyMask with
    | none => rfl
    | some mask => exact if_pos (by rw [mask.size_eq, hProblem.bias .keyMask mask rfl]; rfl)
  unfold Problem.inputs Untiled.forward
  dsimp only
  rw [hShape, hExtents, ok_bind, hMask, ok_bind, Untiled.checkBias_uneven hs hDims hUneven]
  rfl

end Problem.HasDims

/-- What the tensors of a random problem with a pair bias say of its group size, where no sum of stream
positions stops the mask. A size that divides the batches is found again, with the whole shape. Otherwise,
where the number of groups divides the batches, the shape that is read off has larger groups, and the
backward pass runs with them without any refusal; where it does not, no tensors come about. -/
theorem Problem.inferShape_random (ε : Type) [Element ε Float32] (hs : s.Drawable)
    (hMode : mode.has .pairBias = true) (seed : UInt64) {settings : Settings}
    (hSums : settings.dropout.isEnabled = true → settings.SumsPass s) (biasGrads : Bool) :
    ∃ problem, Problem.random ε s mode seed = .ok problem ∧
      (s.batch % s.groupSize = 0 →
        ∃ x, problem.inputs ε settings biasGrads = .ok x ∧ x.inferShape = .ok s) ∧
      (s.batch % s.groupSize ≠ 0 → s.batch % s.biasGroups = 0 →
        ∃ x, problem.inputs ε settings biasGrads = .ok x ∧ x.inferShape = .ok s.regrouped ∧
          s.groupSize < s.regrouped.groupSize ∧
          (settings.Serves s → settings.SumsPass s →
            ∃ outputs report, x.backward settings = .ok (outputs, report))) ∧
      (s.batch % s.biasGroups ≠ 0 →
        problem.inputs ε settings biasGrads = .error (.unfitDimensions
          [s.batch, s.heads, s.numQueries, s.numKeys]
          [s.biasGroups, s.heads, s.numQueries, s.numKeys])) := by
  obtain ⟨problem, hRandom, hProblem, hBiases⟩ := random_spec ε hs.groupSize mode seed
  have hPair : (problem.biases.get .pairBias).isSome = true := (hBiases .pairBias).trans hMode
  refine ⟨problem, hRandom, fun hRest => ?_, fun hRest hEven => ?_, fun hUneven => ?_⟩
  · obtain ⟨x, hInputs, hx⟩ := hProblem.inputs_regrouped (ε := ε) hs hPair (Shape.groups_dvd hRest)
      hSums biasGrads
    rw [Shape.regrouped_eq_self hs.groupSize hs.groupSize_le hRest] at hx
    exact ⟨x, hInputs, hx.inferShape_eq⟩
  · obtain ⟨x, hInputs, hx⟩ := hProblem.inputs_regrouped (ε := ε) hs hPair hEven hSums biasGrads
    refine ⟨x, hInputs, hx.inferShape_eq,
      Shape.groupSize_lt_regrouped hs.groupSize hs.groupSize_le hEven hRest, fun hServes hPass => ?_⟩
    have hServes' : settings.Serves s.regrouped :=
      ⟨hServes.tiles, hServes.batch, hServes.heads, hServes.numQueries, hServes.numKeys,
        hServes.headDim, hServes.headDimValue, hServes.dropout⟩
    obtain ⟨ε', _, hDType, hBackward⟩ := ForwardTensors.backward_eq_backwardIn x settings
    rw [hBackward]
    exact (hx.backwardIn_ok hServes' hDType).2 hPass
  · exact hProblem.inputs_uneven hs hPair hUneven settings biasGrads

/-- Four batches in groups of three make one group, which is read off as one of all four; five batches in
groups of two make two groups that no tensors fit. -/
theorem Problem.inferShape_random_threeOfFour :
    let s : Shape := ⟨4, 1, 2, 3, 4, 4, 3⟩
    let uneven : Shape := ⟨5, 1, 2, 3, 4, 4, 2⟩
    let settings : Settings := { blockI := 8, blockJ := 8, maxHeadDim := 32 }
    s.Drawable ∧ uneven.Drawable ∧ settings.Serves s ∧
      settings.SumsPass s ∧ settings.SumsPass uneven ∧
      (∃ problem x outputs report, Problem.random Float32 s .pairBias 1 = .ok problem ∧
        problem.inputs Float32 settings true = .ok x ∧
        x.inferShape = .ok { s with groupSize := 4 } ∧
        x.backward settings = .ok (outputs, report)) ∧
      ∃ problem, Problem.random Float32 uneven .pairBias 1 = .ok problem ∧
        problem.inputs Float32 settings true =
          .error (.unfitDimensions [5, 1, 2, 3] [2, 1, 2, 3]) := by
  intro s uneven settings
  have hMode : BiasMode.pairBias.has .pairBias = true := rfl
  have hs : s.Drawable := by constructor <;> decide
  have hUneven : uneven.Drawable := by constructor <;> decide
  have hServes : settings.Serves s := by constructor <;> decide
  have hSums : settings.SumsPass s := by decide
  have hSumsUneven : settings.SumsPass uneven := by decide
  have hLargerShape : s.regrouped = { s with groupSize := 4 } := by decide
  have hTwoGroups : uneven.biasGroups = 2 := by decide
  obtain ⟨problem, hRandom, -, hLarger, -⟩ :=
    inferShape_random Float32 hs hMode 1 (fun _ => hSums) true
  obtain ⟨x, hInputs, hShape, -, hRuns⟩ := hLarger (by decide) (by decide)
  obtain ⟨outputs, report, hBackward⟩ := hRuns hServes hSums
  obtain ⟨problem', hRandom', -, -, hNone⟩ :=
    inferShape_random Float32 hUneven hMode 1 (fun _ => hSumsUneven) true
  rw [hLargerShape] at hShape
  have hFault := hNone (by decide)
  rw [hTwoGroups] at hFault
  exact ⟨hs, hUneven, hServes, hSums, hSumsUneven,
    ⟨problem, x, outputs, report, hRandom, hInputs, hShape, hBackward⟩, problem', hRandom', hFault⟩

end FusedAttention
