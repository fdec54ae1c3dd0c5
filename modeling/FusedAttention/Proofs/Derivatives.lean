import Mathlib
import FusedAttention.Proofs.Attention
import FusedAttention.Proofs.Contractions
import FusedAttention.Proofs.Softmax

/-! The gradients without tiles, over the reals, are the derivatives of attention. What a row of O
contributes to the loss is a mean under softmax weights, so one row is differentiated, and the rates of
all rows are summed up to the inner products of the gradients with the direction. -/
namespace FusedAttention

open Finset

/-! ### Entries -/

namespace Untiled

variable [RealReading] {s : Shape} {b h i j c : ℕ}

/-- The factor of dropout, one without a mask. -/
noncomputable def keepFactor (mask : Option (Tensor ℝ)) (b h i j : ℕ) : ℝ :=
  mask.elim 1 fun mask => mask.at4 b h i j

/-- The gradients of the weights of attention: how fast the loss grows with each of them. -/
noncomputable def weightGrads (s : Shape) (mask : Option (Tensor ℝ)) (v dO : Tensor ℝ) : Tensor ℝ :=
  masked s mask <| table s fun b h i j =>
    sum s.headDimValue fun c => dO.at4 b i h c * v.at4 b j h c

/-- The gradients of the scores, before the scale, from the results of the forward pass. -/
noncomputable def pairGrads (s : Shape) (x : AttentionInputs ℝ) (dO : Tensor ℝ) (scale : ℝ)
    (mask : Option (Tensor ℝ)) : Tensor ℝ :=
  let results := x.attention s scale mask
  scoreGrads s (probabilities s (x.scores s scale) results.2) mask x.v dO (delta s results.1 dO)

section Tables

variable (hb : b < s.batch) (hh : h < s.heads) (hi : i < s.numQueries) (hj : j < s.numKeys)

include hb hh hi hj

theorem at4_masked (mask : Option (Tensor ℝ)) (t : Tensor ℝ) :
    (masked s mask t).at4 b h i j = t.at4 b h i j * keepFactor mask b h i j := by
  cases mask with
  | none => exact (mul_one _).symm
  | some mask => exact Tensor.at4_ofFn4 _ hb hh hi hj

theorem at4_scores (q k : Tensor ℝ) (biases : Biases (Option (Tensor ℝ))) (scale : ℝ) :
    (scores s q k biases scale).at4 b h i j =
      (∑ c ∈ range s.headDim, q.at4 b i h c * k.at4 b j h c) * scale +
        biasEntry biases.keyMask (BiasKind.keyMask.address s ⟨b, h⟩ i j) +
        biasEntry biases.pairBias (BiasKind.pairBias.address s ⟨b, h⟩ i j) := by
  rw [scores, table, Tensor.at4_ofFn4 _ hb hh hi hj, BiasKind.keyMask_address,
    BiasKind.pairBias_address, ← sum_eq]
  cases biases.keyMask <;> cases biases.pairBias <;>
    simp [addKeyMask, addPairBias, pairBiasAt, biasEntry]

theorem at4_weightGrads (mask : Option (Tensor ℝ)) (v dO : Tensor ℝ) :
    (weightGrads s mask v dO).at4 b h i j =
      (∑ c ∈ range s.headDimValue, dO.at4 b i h c * v.at4 b j h c) * keepFactor mask b h i j := by
  rw [weightGrads, at4_masked hb hh hi hj, table, Tensor.at4_ofFn4 _ hb hh hi hj, sum_eq]

end Tables

section Rows

variable (hKeys : 0 < s.numKeys) (hb : b < s.batch) (hh : h < s.heads) (hi : i < s.numQueries)

include hKeys hb hh hi

/-- The largest score, which is taken off before the exponentials, cancels. -/
theorem at3_logSumExp (t : Tensor ℝ) :
    (logSumExp s t).at3 b h i = Real.log (∑ j ∈ range s.numKeys, Real.exp (t.at4 b h i j)) := by
  rw [logSumExp, Tensor.at3_ofFn3 _ hb hh hi]
  dsimp only
  rw [sum_eq]
  exact Softmax.log_sum_exp_sub hKeys _ _

theorem at4_probabilities (hj : j < s.numKeys) (t : Tensor ℝ) :
    (probabilities s t (logSumExp s t)).at4 b h i j = Softmax.weight s.numKeys (t.at4 b h i) j := by
  rw [probabilities, table, Tensor.at4_ofFn4 _ hb hh hi hj, at3_logSumExp hKeys hb hh hi,
    ← Softmax.exp_sub_log_sum_exp hKeys]
  rfl

/-- The mean of the gradients of the weights of a row, with any rows of V. -/
theorem mean_weightGrads (x : AttentionInputs ℝ) (scale : ℝ) (mask : Option (Tensor ℝ)) (v dO : Tensor ℝ) :
    Softmax.mean s.numKeys ((x.scores s scale).at4 b h i) ((weightGrads s mask v dO).at4 b h i) =
      ∑ j ∈ range s.numKeys, (x.weights s scale mask).at4 b h i j *
        ∑ c ∈ range s.headDimValue, dO.at4 b i h c * v.at4 b j h c := by
  apply sum_congr rfl
  intro j hj
  rw [mem_range] at hj
  rw [at4_weightGrads hb hh hi hj, AttentionInputs.weights, at4_masked hb hh hi hj,
    at4_probabilities hKeys hb hh hi hj]
  ring

/-- What a row of O adds to the loss is a mean. -/
theorem sum_attention (x : AttentionInputs ℝ) (dO : Tensor ℝ) (scale : ℝ) (mask : Option (Tensor ℝ)) :
    ∑ c ∈ range s.headDimValue, (x.attention s scale mask).1.at4 b i h c * dO.at4 b i h c =
      Softmax.mean s.numKeys ((x.scores s scale).at4 b h i) ((weightGrads s mask x.v dO).at4 b h i) := by
  have hEntry : ∀ c ∈ range s.headDimValue, (x.attention s scale mask).1.at4 b i h c * dO.at4 b i h c =
      ∑ j ∈ range s.numKeys,
        (x.weights s scale mask).at4 b h i j * (dO.at4 b i h c * x.v.at4 b j h c) := by
    intro c hc
    rw [AttentionInputs.attention, weightedValues, Tensor.at4_ofFn4 _ hb hi hh (mem_range.mp hc), sum_eq,
      sum_mul]
    apply sum_congr rfl
    intro j _
    ring
  rw [mean_weightGrads hKeys hb hh hi, sum_congr rfl hEntry, sum_comm]
  simp only [mul_sum]

theorem at4_pairGrads (hj : j < s.numKeys) (x : AttentionInputs ℝ) (dO : Tensor ℝ) (scale : ℝ)
    (mask : Option (Tensor ℝ)) :
    (pairGrads s x dO scale mask).at4 b h i j =
      let score := (x.scores s scale).at4 b h i
      let term := (weightGrads s mask x.v dO).at4 b h i
      Softmax.weight s.numKeys score j * (term j - Softmax.mean s.numKeys score term) := by
  rw [pairGrads, scoreGrads, table, Tensor.at4_ofFn4 _ hb hh hi hj, delta,
    Tensor.at3_ofFn3 _ hb hh hi, sum_eq, sum_attention hKeys hb hh hi]
  exact congrArg (· * _) (at4_probabilities hKeys hb hh hi hj _)

end Rows

/-! ### Rates -/

/-- How fast a score moves along a direction. -/
noncomputable def scoreRate (s : Shape) (x d : AttentionInputs ℝ) (scale : ℝ) (b h i j : ℕ) : ℝ :=
  (∑ c ∈ range s.headDim, (d.q.at4 b i h c * x.k.at4 b j h c + x.q.at4 b i h c * d.k.at4 b j h c)) *
      scale +
    biasEntry (x.biases.keyMask.bind fun _ => d.biases.keyMask)
      (BiasKind.keyMask.address s ⟨b, h⟩ i j) +
    biasEntry (x.biases.pairBias.bind fun _ => d.biases.pairBias)
      (BiasKind.pairBias.address s ⟨b, h⟩ i j)

/-- How fast the loss moves along a direction, by way of one pair: with its score, and with the row of V
that it weighs. -/
noncomputable def lossRate (s : Shape) (x d : AttentionInputs ℝ) (dO : Tensor ℝ) (scale : ℝ)
    (mask : Option (Tensor ℝ)) (b h i j : ℕ) : ℝ :=
  (pairGrads s x dO scale mask).at4 b h i j * scoreRate s x d scale b h i j +
    (x.weights s scale mask).at4 b h i j *
      ∑ c ∈ range s.headDimValue, dO.at4 b i h c * d.v.at4 b j h c

section Rates

variable {x d : AttentionInputs ℝ} (hx : x.Proper s) (hd : d.HasDims s) (hb : b < s.batch)
  (hh : h < s.heads) (hi : i < s.numQueries)

include hx hd hb hh hi

theorem hasDerivAt_scores (hj : j < s.numKeys) (scale : ℝ) :
    HasDerivAt (fun t => ((x.along d t).scores s scale).at4 b h i j) (scoreRate s x d scale b h i j)
      0 := by
  have hBias : ∀ kind bias, x.biases.get kind = some bias →
      kind.address s ⟨b, h⟩ i j < extent bias.dims := by
    intro kind bias hBias
    rw [hx.bias kind bias hBias]
    exact kind.address_lt hb hh hx.groups hi hj
  have hProducts : HasDerivAt (fun t => ∑ c ∈ range s.headDim,
      (x.along d t).q.at4 b i h c * (x.along d t).k.at4 b j h c) (∑ c ∈ range s.headDim,
        (d.q.at4 b i h c * x.k.at4 b j h c + x.q.at4 b i h c * d.k.at4 b j h c)) 0 := by
    apply HasDerivAt.fun_sum
    intro c hc
    rw [mem_range] at hc
    have hQ := Tensor.hasDerivAt_at4_along hx.q hd.q hb hi hh hc 0
    have hK := Tensor.hasDerivAt_at4_along hx.k hd.k hb hj hh hc 0
    apply (hQ.mul hK).congr_deriv
    rw [Tensor.along_zero, Tensor.along_zero]
  simp only [AttentionInputs.scores, at4_scores hb hh hi hj]
  exact ((hProducts.mul_const scale).add (hasDerivAt_biasEntry (hBias .keyMask) 0)).add
    (hasDerivAt_biasEntry (hBias .pairBias) 0)

theorem hasDerivAt_weightGrads (hj : j < s.numKeys) (mask : Option (Tensor ℝ)) (dO : Tensor ℝ) :
    HasDerivAt (fun t => (weightGrads s mask (x.along d t).v dO).at4 b h i j)
      ((weightGrads s mask d.v dO).at4 b h i j) 0 := by
  simp only [at4_weightGrads hb hh hi hj]
  apply HasDerivAt.mul_const
  apply HasDerivAt.fun_sum
  intro c hc
  exact (Tensor.hasDerivAt_at4_along hx.v hd.v hb hj hh (mem_range.mp hc) 0).const_mul _

theorem hasDerivAt_row (dO : Tensor ℝ) (scale : ℝ) (mask : Option (Tensor ℝ)) :
    HasDerivAt (fun t => Softmax.mean s.numKeys (((x.along d t).scores s scale).at4 b h i)
        ((weightGrads s mask (x.along d t).v dO).at4 b h i))
      (∑ j ∈ range s.numKeys, lossRate s x d dO scale mask b h i j) 0 := by
  have hKeys := hx.numKeys_pos
  have hRow := Softmax.hasDerivAt_mean (fun j hj => hasDerivAt_scores hx hd hb hh hi hj scale)
    fun j hj => hasDerivAt_weightGrads hx hd hb hh hi hj mask dO
  apply hRow.congr_deriv
  simp only [AttentionInputs.along_zero, lossRate, sum_add_distrib]
  congr 1
  · apply sum_congr rfl
    intro j hj
    rw [at4_pairGrads hKeys hb hh hi (mem_range.mp hj)]
  · exact mean_weightGrads hKeys hb hh hi x scale mask d.v dO

end Rates

/-! ### The loss -/

section Loss

variable {x d : AttentionInputs ℝ} {dO : Tensor ℝ} (hx : x.Proper s) (hd : d.HasDims s)
  (hdO : dO.dims = [s.batch, s.numQueries, s.heads, s.headDimValue])

include hx hd hdO in
theorem hasDerivAt_loss (scale : ℝ) (mask : Option (Tensor ℝ)) :
    HasDerivAt (fun t => dO.inner ((x.along d t).attention s scale mask).1)
      (s.sumPairs (lossRate s x d dO scale mask)) 0 := by
  have hKeys := hx.numKeys_pos
  have hLoss : ∀ t, dO.inner ((x.along d t).attention s scale mask).1 =
      ∑ b ∈ range s.batch, ∑ h ∈ range s.heads, ∑ i ∈ range s.numQueries, Softmax.mean s.numKeys
        (((x.along d t).scores s scale).at4 b h i)
        ((weightGrads s mask (x.along d t).v dO).at4 b h i) := by
    intro t
    rw [Tensor.inner_rows hdO rfl]
    apply sum_congr_range
    intro b hb h hh
    apply sum_congr rfl
    intro i hi
    rw [← sum_attention hKeys hb hh (mem_range.mp hi)]
    simp only [mul_comm]
  simp only [hLoss]
  apply HasDerivAt.fun_sum
  intro b hb
  apply HasDerivAt.fun_sum
  intro h hh
  apply HasDerivAt.fun_sum
  intro i hi
  rw [mem_range] at hb hh hi
  exact hasDerivAt_row hx hd hb hh hi dO scale mask

omit [RealReading] in
/-- The rates of the scores meet their gradients operand by operand. The scale, which Q and K share,
comes to the gradients; the biases are added without it. -/
theorem sumPairs_scoreRate {ds : Tensor ℝ} (hDims : ds.dims = [s.batch, s.heads, s.numQueries, s.numKeys])
    (x d : AttentionInputs ℝ) (scale : ℝ) :
    (s.sumPairs fun b h i j => ds.at4 b h i j * scoreRate s x d scale b h i j) =
      (s.sumPairs fun b h i j => (ds.map (· * scale)).at4 b h i j *
        ∑ c ∈ range s.headDim, d.q.at4 b i h c * x.k.at4 b j h c) +
      (s.sumPairs fun b h i j => (ds.map (· * scale)).at4 b h i j *
        ∑ c ∈ range s.headDim, x.q.at4 b i h c * d.k.at4 b j h c) +
      (s.sumPairs fun b h i j => ds.at4 b h i j *
        biasEntry (x.biases.keyMask.bind fun _ => d.biases.keyMask)
          (BiasKind.keyMask.address s ⟨b, h⟩ i j)) +
      s.sumPairs fun b h i j => ds.at4 b h i j *
        biasEntry (x.biases.pairBias.bind fun _ => d.biases.pairBias)
          (BiasKind.pairBias.address s ⟨b, h⟩ i j) := by
  rw [← Shape.sumPairs_add, ← Shape.sumPairs_add, ← Shape.sumPairs_add]
  apply Shape.sumPairs_congr
  intro b hb h hh i hi j hj
  rw [Tensor.at4_map _ hDims hb hh hi hj, scoreRate, sum_add_distrib]
  ring

include hx hd in
/-- The gradients meet a direction as the loss moves in it. -/
theorem pairing_gradients {wanted : Bool} (hWanted : wanted = false → ∀ kind, d.biases.get kind = none)
    (scale : ℝ) (mask : Option (Tensor ℝ)) :
    (gradients s (x.forwardTensors (x.attention s scale mask) dO wanted) scale mask).pairing d =
      s.sumPairs (lossRate s x d dO scale mask) := by
  have hMaskMoves : wanted = false → d.biases.keyMask = none := fun h => hWanted h .keyMask
  have hPairMoves : wanted = false → d.biases.pairBias = none := fun h => hWanted h .pairBias
  have hPairing : (gradients s (x.forwardTensors (x.attention s scale mask) dO wanted) scale
      mask).pairing d =
        (queryGrads s ((pairGrads s x dO scale mask).map (· * scale)) x.k).inner d.q +
        (keyGrads s s.headDim ((pairGrads s x dO scale mask).map (· * scale)) x.q).inner d.k +
        (keyGrads s s.headDimValue (x.weights s scale mask) dO).inner d.v +
        biasPairing (if wanted && x.biases.keyMask.isSome then
          some (keyMaskGrads s (pairGrads s x dO scale mask)) else none) d.biases.keyMask +
        biasPairing (if wanted && x.biases.pairBias.isSome then
          some (pairBiasGrads s (pairGrads s x dO scale mask)) else none) d.biases.pairBias := rfl
  unfold lossRate
  rw [hPairing, inner_queryGrads _ _ hd.q, inner_keyGrads _ _ hd.k, inner_keyGrads _ _ hd.v,
    biasPairing_wanted _ _ hMaskMoves fun d' _ => inner_keyMaskGrads _ d',
    biasPairing_wanted _ _ hPairMoves fun d' hd' =>
      inner_pairBiasGrads hx.groups _ (hd.bias .pairBias d' hd'),
    Shape.sumPairs_add, sumPairs_scoreRate rfl]
  ring

end Loss

end Untiled

/-- The backward pass gives the gradients of the loss `∑ dO * O`, where O is what the forward pass makes
of the inputs. In every direction of Q, K, V and the biases together the derivative of the loss is the sum
of the inner products of the gradients with the direction: for any scale and any mask of dropout that are
held fixed, and so for the scale and the mask of any settings, where both passes succeed unless a sum of
stream positions stops the mask. A bias stays as it is if no gradients of biases are wanted. -/
theorem AttentionInputs.gradients_of_loss [RealReading] {x d : AttentionInputs ℝ} {s : Shape}
    {dO : Tensor ℝ} {wanted : Bool} (hx : x.Proper s) (hd : d.HasDims s)
    (hdO : dO.dims = [s.batch, s.numQueries, s.heads, s.headDimValue])
    (hWanted : wanted = false → ∀ kind, d.biases.get kind = none) :
    (∀ scale mask,
      let outputs :=
        Untiled.gradients s (x.forwardTensors (x.attention s scale mask) dO wanted) scale mask
      HasDerivAt (fun t => dO.inner ((x.along d t).attention s scale mask).1) (outputs.pairing d) 0) ∧
    ∀ settings : Settings, (settings.dropout.isEnabled = true → settings.SumsPass s) →
      ∃ (results : ℝ → Tensor ℝ × Tensor ℝ) (outputs : Outputs (Tensor ℝ)),
        (∀ t, (x.along d t).forward settings = .ok (results t)) ∧
        x.forward settings = .ok (results 0) ∧
        Untiled.backward (x.forwardTensors (results 0) dO wanted) settings = .ok outputs ∧
        HasDerivAt (fun t => dO.inner (results t).1) (outputs.pairing d) 0 := by
  have hDerivative : ∀ scale mask, HasDerivAt
      (fun t => dO.inner ((x.along d t).attention s scale mask).1)
      ((Untiled.gradients s (x.forwardTensors (x.attention s scale mask) dO wanted) scale mask).pairing d)
      0 := by
    intro scale mask
    rw [Untiled.pairing_gradients hx hd hWanted]
    exact Untiled.hasDerivAt_loss hx hd hdO scale mask
  refine ⟨hDerivative, fun settings hSums => ?_⟩
  obtain ⟨mask, hMask, -⟩ :=
    dropoutMask_spec (α := ℝ) (Nat.pos_of_ne_zero hx.nonempty.1) hx.numKeys_pos hSums
  refine ⟨_, _, fun t => (hx.along d t).forward_eq hMask, ?_, ?_, hDerivative _ mask⟩
  · rw [x.along_zero d]
    exact hx.forward_eq hMask
  · rw [x.along_zero d]
    exact hx.backward_eq rfl rfl hdO wanted hMask

/-- Two batches with one pair bias between them. -/
def Shape.sharedBias : Shape :=
  ⟨2, 1, 2, 3, 2, 1, 2⟩

/-- Inputs whose entries are their positions, with both biases. -/
noncomputable def AttentionInputs.counting (s : Shape) : AttentionInputs ℝ where
  q := .ofFn [s.batch, s.numQueries, s.heads, s.headDim] fun p => p
  k := .ofFn [s.batch, s.numKeys, s.heads, s.headDim] fun p => p
  v := .ofFn [s.batch, s.numKeys, s.heads, s.headDimValue] fun p => p
  biases :=
    { keyMask := some (.ofFn (BiasKind.keyMask.dims s) fun p => p)
      pairBias := some (.ofFn (BiasKind.pairBias.dims s) fun p => p) }

theorem AttentionInputs.proper_counting : (counting .sharedBias).Proper .sharedBias where
  q := rfl
  k := rfl
  v := rfl
  bias kind bias hBias := by
    cases kind with
    | keyMask => obtain rfl := Option.some.inj hBias; rfl
    | pairBias => obtain rfl := Option.some.inj hBias; rfl
  extents := rfl
  grouped _ _ := by decide
  ungrouped := nofun

/-- All inputs grow in proportion, with one for the gradients of O and for the scale. -/
theorem AttentionInputs.gradients_counting :
    letI : RealReading := ⟨fun _ => 1⟩
    let x := counting .sharedBias
    let dO : Tensor ℝ := .ofFn [2, 2, 1, 1] fun _ => 1
    x.Proper .sharedBias ∧ ∃ (results : ℝ → Tensor ℝ × Tensor ℝ) (outputs : Outputs (Tensor ℝ)),
      x.forward .smallTiles = .ok (results 0) ∧
      Untiled.backward (x.forwardTensors (results 0) dO true) .smallTiles = .ok outputs ∧
      HasDerivAt (fun t => dO.inner (results t).1) (outputs.pairing x) 0 := by
  intro x dO
  let _ : RealReading := ⟨fun _ => 1⟩
  obtain ⟨-, hSettings⟩ := @AttentionInputs.gradients_of_loss _ x x .sharedBias dO true
    proper_counting proper_counting.toHasDims rfl nofun
  obtain ⟨results, outputs, -, hForward, hBackward, hDerivative⟩ :=
    hSettings .smallTiles fun _ => by decide
  exact ⟨proper_counting, results, outputs, hForward, hBackward, hDerivative⟩

end FusedAttention
