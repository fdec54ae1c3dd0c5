import FusedAttention.Proofs.Acceptance
import FusedAttention.Proofs.Tensors

/-! The tensors that attention is computed from, and what both passes without tiles make of them when
the dimensions agree: nothing is stretched, and nothing is refused. -/
namespace FusedAttention

/-- What attention is computed from. -/
structure AttentionInputs (α : Type) where
  q : Tensor α
  k : Tensor α
  v : Tensor α
  biases : Biases (Option (Tensor α))

namespace AttentionInputs

variable {α : Type}

/-- Every tensor has the dimensions of the shape. -/
structure HasDims (x : AttentionInputs α) (s : Shape) : Prop where
  q : x.q.dims = [s.batch, s.numQueries, s.heads, s.headDim]
  k : x.k.dims = [s.batch, s.numKeys, s.heads, s.headDim]
  v : x.v.dims = [s.batch, s.numKeys, s.heads, s.headDimValue]
  bias : ∀ kind bias, x.biases.get kind = some bias → bias.dims = kind.dims s

/-- The shape is the one that is read off the tensors. Its batches are split into groups by the pair
bias, and there are no groups without one. -/
structure Proper (x : AttentionInputs α) (s : Shape) : Prop extends x.HasDims s where
  extents : Untiled.checkExtents s = .ok ()
  grouped : ∀ bias, x.biases.pairBias = some bias → 0 < s.batch ∧ s.batch % s.groupSize = 0
  ungrouped : x.biases.pairBias = none → s.groupSize = 1

/-- The tensors of a backward pass with the results of the forward pass and the gradient of O. -/
def forwardTensors (x : AttentionInputs α) (results : Tensor α × Tensor α) (dO : Tensor α)
    (biasGrads : Bool) : ForwardTensors α where
  operands := { q := x.q, k := x.k, v := x.v, o := results.1, dO }
  lse := results.2
  biases := x.biases
  biasGrads

/-- The forward pass on the inputs. -/
def forward [ScalarLog α] (x : AttentionInputs α) (settings : Settings) :
    Except Fault (Tensor α × Tensor α) :=
  Untiled.forward x.q x.k x.v x.biases settings

def scores [Scalar α] (x : AttentionInputs α) (s : Shape) (scale : α) : Tensor α :=
  Untiled.scores s x.q x.k x.biases scale

/-- The weights of the rows of V, under the mask of dropout. -/
def weights [ScalarLog α] (x : AttentionInputs α) (s : Shape) (scale : α) (mask : Option (Tensor α)) :
    Tensor α :=
  let scores := x.scores s scale
  Untiled.masked s mask (Untiled.probabilities s scores (Untiled.logSumExp s scores))

/-- O and the log-sum-exp for a given scale and a given mask. -/
def attention [ScalarLog α] (x : AttentionInputs α) (s : Shape) (scale : α) (mask : Option (Tensor α)) :
    Tensor α × Tensor α :=
  (Untiled.weightedValues s (x.weights s scale mask) x.v, Untiled.logSumExp s (x.scores s scale))

end AttentionInputs

/-! ### Entries -/

namespace Tensor

variable {α : Type} {l n m k : Nat}

theorem dims_eq {t : Tensor α} (hRank : t.dims.length = 4) :
    t.dims = [t.dim 0, t.dim 1, t.dim 2, t.dim 3] := by
  unfold dim
  match t.dims, hRank with
  | [_, _, _, _], _ => rfl

/-- A tensor is given by its entries. -/
theorem ofFn4_congr {f g : Nat → Nat → Nat → Nat → α}
    (h : ∀ a < l, ∀ b < n, ∀ c < m, ∀ d < k, f a b c d = g a b c d) :
    ofFn4 l n m k f = ofFn4 l n m k g := by
  have hEntries : ∀ p : Fin (extent [l, n, m, k]), f (p / (n * m * k)) (p / (m * k) % n) (p / k % m)
      (p % k) = g (p / (n * m * k)) (p / (m * k) % n) (p / k % m) (p % k) := by
    rintro ⟨p, hIn⟩
    have hp : p < n * m * k * l := by
      simpa [extent, Nat.mul_comm, Nat.mul_assoc, Nat.mul_left_comm] using hIn
    have hn : 0 < n := Nat.pos_of_ne_zero fun h => by simp [h] at hp
    have hm : 0 < m := Nat.pos_of_ne_zero fun h => by simp [h] at hp
    have hk : 0 < k := Nat.pos_of_ne_zero fun h => by simp [h] at hp
    exact h _ (Nat.div_lt_of_lt_mul hp) _ (Nat.mod_lt _ hn) _ (Nat.mod_lt _ hm) _ (Nat.mod_lt _ hk)
  unfold ofFn4 ofFn
  simp only [hEntries]

end Tensor

/-! ### Stretched tensors -/

namespace Untiled

variable {α : Type} [ScalarLog α] {s : Shape}

theorem keyMask_stretched {biases : Biases (Option (Tensor α))} {b j : Nat} (hb : b < s.batch)
    (hj : j < s.numKeys) (y : α) :
    addKeyMask { s with groupSize := 1 } (stretchBiases s { s with groupSize := 1 } biases).keyMask b j
      y = addKeyMask s biases.keyMask b j y := by
  unfold stretchBiases
  cases biases.keyMask with
  | none => rfl
  | some mask =>
      simp only [addKeyMask, Option.map_some, Tensor.at1_ofFn2 _ hb hj, Tensor.entryFor_of_lt hb]

theorem pairBias_stretched {biases : Biases (Option (Tensor α))} {b h i j : Nat} (hb : b < s.batch)
    (hh : h < s.heads) (hi : i < s.numQueries) (hj : j < s.numKeys) (y : α) :
    addPairBias { s with groupSize := 1 } (stretchBiases s { s with groupSize := 1 } biases).pairBias b
      h i j y = addPairBias s biases.pairBias b h i j y := by
  unfold stretchBiases
  cases biases.pairBias with
  | none => rfl
  | some bias =>
      have hEntry := Tensor.at4_ofFn4 (fun b h i j => pairBiasAt s bias
        (Tensor.entryFor s.batch b) (Tensor.entryFor s.heads h) i j) hb hh hi hj
      rw [Tensor.entryFor_of_lt hb, Tensor.entryFor_of_lt hh] at hEntry
      simp only [addPairBias, Option.map_some, pairBiasAt, Nat.div_one]
      exact congrArg (y + ·) hEntry

/-- Biases that are stretched to the scores add the same to each of them. -/
theorem scores_stretched (q k : Tensor α) (biases : Biases (Option (Tensor α))) (scale : α) :
    scores { s with groupSize := 1 } q k (stretchBiases s { s with groupSize := 1 } biases) scale =
      scores s q k biases scale := by
  unfold scores
  apply Tensor.ofFn4_congr
  intro b hb h hh i hi j hj
  dsimp only
  rw [pairBias_stretched (s := s) hb hh hi hj, keyMask_stretched (s := s) hb hj]

/-- The mask has an entry for every pair of every unit. -/
theorem dims_dropoutMask {d : Dropout} {overflow : Overflow} {plane : Tensor α}
    (hMask : dropoutMask s d overflow = .ok (some plane)) :
    plane.dims = [s.batch, s.heads, s.numQueries, s.numKeys] := by
  unfold dropoutMask at hMask
  split at hMask
  · cases hPlanes : s.unitCoords.mapM (maskPlane (α := α) d s · overflow) with
    | error fault => rw [hPlanes] at hMask; cases hMask
    | ok planes => rw [hPlanes] at hMask; cases hMask; rfl
  · cases hMask

end Untiled

/-! ### Checks -/

/-- A number of groups is accepted if there are batches and it splits them, and it says how many of
them share a bias. -/
theorem pairBiasGroupSize_eq_ok {batch groupSize : Nat} :
    pairBiasGroupSize batch (batch / groupSize) = .ok groupSize ↔ 0 < batch ∧ batch % groupSize = 0 := by
  constructor
  · intro hSize
    unfold pairBiasGroupSize at hSize
    split at hSize
    · cases hSize
    · rename_i hSplit
      rw [not_or, not_not] at hSplit
      obtain ⟨hGroups, hRest⟩ := hSplit
      have hBatch : 0 < batch := Nat.pos_of_ne_zero fun hNone => hGroups (by rw [hNone, Nat.zero_div])
      have hDivides := Nat.dvd_of_mod_eq_zero hRest
      have hMembers : 0 < batch / (batch / groupSize) :=
        Nat.div_pos (Nat.le_of_dvd hBatch hDivides) (Nat.pos_of_ne_zero hGroups)
      have hEqual := Except.ok.inj hSize
      rw [Nat.max_eq_left hMembers] at hEqual
      refine ⟨hBatch, Nat.mod_eq_zero_of_dvd ?_⟩
      rw [← hEqual]
      exact Nat.div_dvd_of_dvd hDivides
  · rintro ⟨hBatch, hRest⟩
    have hDivides := Nat.dvd_of_mod_eq_zero hRest
    have hSize : 0 < groupSize := Nat.pos_of_dvd_of_pos hDivides hBatch
    have hGroups : 0 < batch / groupSize := Nat.div_pos (Nat.le_of_dvd hBatch hDivides) hSize
    have hMembers : batch / (batch / groupSize) = groupSize := Nat.div_div_self hDivides hBatch.ne'
    have hSplit : batch % (batch / groupSize) = 0 :=
      Nat.mod_eq_zero_of_dvd (Nat.div_dvd_of_dvd hDivides)
    rw [pairBiasGroupSize, if_neg (by omega), hMembers, Nat.max_eq_left hSize]

namespace ForwardTensors

variable {α : Type} {x : ForwardTensors α} {s : Shape}

theorem expectDims_eq_ok {name : String} {dims : List Nat} {t : Tensor α} :
    expectDims name dims t = .ok () ↔ t.dims = dims := by
  rw [expectDims, Check.require_eq_ok, decide_eq_true_eq, eq_comm]

/-- Every tensor has the dimensions of the shape, and the pair bias says how many batches share an
entry of it. -/
structure HasDims (x : ForwardTensors α) (s : Shape) : Prop where
  q : x.operands.q.dims = [s.batch, s.numQueries, s.heads, s.headDim]
  k : x.operands.k.dims = [s.batch, s.numKeys, s.heads, s.headDim]
  v : x.operands.v.dims = [s.batch, s.numKeys, s.heads, s.headDimValue]
  o : x.operands.o.dims = [s.batch, s.numQueries, s.heads, s.headDimValue]
  dO : x.operands.dO.dims = [s.batch, s.numQueries, s.heads, s.headDimValue]
  lse : x.lse.dims = [s.batch, s.heads, s.numQueries]
  bias : ∀ kind bias, x.biases.get kind = some bias → bias.dims = kind.dims s
  grouped : ∀ bias, x.biases.pairBias = some bias →
    pairBiasGroupSize s.batch (bias.dim 0) = .ok s.groupSize
  ungrouped : x.biases.pairBias = none → s.groupSize = 1

/-- What the checks of the dimensions establish. -/
theorem hasDims_of_inferShape (hRank : x.operands.q.dims.length = 4)
    (hShape : x.inferShape = .ok s) : x.HasDims s := by
  unfold inferShape at hShape
  rcases hBias : x.biases.pairBias with _ | bias
  all_goals
    rw [hBias] at hShape
    obtain ⟨groupSize, hSize, hShape⟩ := exists_of_bind_eq_ok hShape
    obtain ⟨⟨⟩, hK, hShape⟩ := exists_of_bind_eq_ok hShape
    obtain ⟨⟨⟩, hV, hShape⟩ := exists_of_bind_eq_ok hShape
    obtain ⟨⟨⟩, hO, hShape⟩ := exists_of_bind_eq_ok hShape
    obtain ⟨⟨⟩, hdO, hShape⟩ := exists_of_bind_eq_ok hShape
    obtain ⟨⟨⟩, hLse, hShape⟩ := exists_of_bind_eq_ok hShape
    obtain ⟨⟨⟩, hBiases, hShape⟩ := exists_of_bind_eq_ok hShape
    obtain rfl := Except.ok.inj hShape
    refine {
      q := Tensor.dims_eq hRank
      k := expectDims_eq_ok.mp hK
      v := expectDims_eq_ok.mp hV
      o := expectDims_eq_ok.mp hO
      dO := expectDims_eq_ok.mp hdO
      lse := expectDims_eq_ok.mp hLse
      bias := ?_
      grouped := ?_
      ungrouped := ?_ }
  case none.refine_1 | some.refine_1 =>
    intro kind bias hSome
    have hOk := forM_eq_ok.mp hBiases kind (by cases kind <;> simp)
    rw [hSome] at hOk
    exact expectDims_eq_ok.mp hOk
  case none.refine_2 =>
    rw [hBias]
    nofun
  case none.refine_3 =>
    intro _
    exact (Except.ok.inj hSize).symm
  case some.refine_2 =>
    intro bias' hSome
    obtain rfl := Option.some.inj (hBias.symm.trans hSome)
    exact hSize
  case some.refine_3 =>
    rw [hBias]
    nofun

/-- Tensors of the dimensions of a shape imply the shape. -/
theorem HasDims.inferShape_eq (hx : x.HasDims s) : x.inferShape = .ok s := by
  have hSizes : x.operands.q.dim 0 = s.batch ∧ x.operands.q.dim 2 = s.heads ∧
      x.operands.q.dim 1 = s.numQueries ∧ x.operands.k.dim 1 = s.numKeys ∧
      x.operands.q.dim 3 = s.headDim ∧ x.operands.v.dim 3 = s.headDimValue := by
    simp [Tensor.dim, hx.q, hx.k, hx.v]
  obtain ⟨hBatch, hHeads, hQueries, hKeys, hCols, hColsValue⟩ := hSizes
  unfold inferShape
  simp only [hBatch, hHeads, hQueries, hKeys, hCols, hColsValue]
  cases hBias : x.biases.pairBias
  case' none => apply bind_eq_of_ok (congrArg Except.ok (hx.ungrouped hBias).symm)
  case' some bias => apply bind_eq_of_ok (hx.grouped bias hBias)
  all_goals
    apply bind_eq_of_ok (expectDims_eq_ok.mpr hx.k)
    apply bind_eq_of_ok (expectDims_eq_ok.mpr hx.v)
    apply bind_eq_of_ok (expectDims_eq_ok.mpr hx.o)
    apply bind_eq_of_ok (expectDims_eq_ok.mpr hx.dO)
    apply bind_eq_of_ok (expectDims_eq_ok.mpr hx.lse)
    apply bind_eq_of_ok (forM_eq_ok.mpr _) rfl
    intro kind _
    split
    · rename_i bias hBias
      exact expectDims_eq_ok.mpr (hx.bias kind bias hBias)
    · rfl

end ForwardTensors

namespace AttentionInputs.Proper

variable {α : Type} {x : AttentionInputs α} {s : Shape}

theorem nonempty (hx : x.Proper s) :
    s.numQueries ≠ 0 ∧ s.numKeys ≠ 0 ∧ s.headDim ≠ 0 ∧ s.headDimValue ≠ 0 := by
  have hExtents := hx.extents
  unfold Untiled.checkExtents at hExtents
  split at hExtents
  · cases hExtents
  · rename_i hSome
    simpa only [not_or] using hSome

theorem numKeys_pos (hx : x.Proper s) : 0 < s.numKeys :=
  Nat.pos_of_ne_zero hx.nonempty.2.1

theorem groups (hx : x.Proper s) : s.batch % s.groupSize = 0 := by
  cases hBias : x.biases.pairBias with
  | none => rw [hx.ungrouped hBias, Nat.mod_one]
  | some bias => exact (hx.grouped bias hBias).2

theorem dim_pairBias (hDims : x.HasDims s) {bias : Tensor α} (hBias : x.biases.pairBias = some bias) :
    bias.dim 0 = s.batch / s.groupSize := by
  rw [Tensor.dim, hDims.bias .pairBias bias hBias]
  rfl

/-- The pair bias says how many batches share an entry of it. -/
theorem pairBias_groupSize (hx : x.Proper s) {bias : Tensor α} (hBias : x.biases.pairBias = some bias) :
    pairBiasGroupSize s.batch (bias.dim 0) = .ok s.groupSize := by
  rw [dim_pairBias hx.toHasDims hBias]
  exact pairBiasGroupSize_eq_ok.mpr (hx.grouped bias hBias)

/-- What the tensors say about the sizes is what the shape says. -/
theorem sizes_eq (hx : x.Proper s) :
    x.q.dim 0 = s.batch ∧ x.q.dim 2 = s.heads ∧ x.q.dim 1 = s.numQueries ∧ x.k.dim 1 = s.numKeys ∧
      x.q.dim 3 = s.headDim ∧ x.v.dim 3 = s.headDimValue := by
  simp [Tensor.dim, hx.q, hx.k, hx.v]

/-! ### The backward pass -/

/-- The tensors of the backward pass imply the shape. -/
theorem inferShape_eq (hx : x.Proper s) {results : Tensor α × Tensor α} {dO : Tensor α}
    (hO : results.1.dims = [s.batch, s.numQueries, s.heads, s.headDimValue])
    (hLse : results.2.dims = [s.batch, s.heads, s.numQueries])
    (hdO : dO.dims = [s.batch, s.numQueries, s.heads, s.headDimValue]) (biasGrads : Bool) :
    (x.forwardTensors results dO biasGrads).inferShape = .ok s := by
  apply ForwardTensors.HasDims.inferShape_eq
  exact {
    q := hx.q
    k := hx.k
    v := hx.v
    o := hO
    dO := hdO
    lse := hLse
    bias := hx.bias
    grouped := fun _ hBias => hx.pairBias_groupSize hBias
    ungrouped := hx.ungrouped }

/-- The backward pass accepts tensors of the shape and gives the gradients for the mask that it
draws. -/
theorem backward_eq [Scalar α] (hx : x.Proper s) {results : Tensor α × Tensor α} {dO : Tensor α}
    (hO : results.1.dims = [s.batch, s.numQueries, s.heads, s.headDimValue])
    (hLse : results.2.dims = [s.batch, s.heads, s.numQueries])
    (hdO : dO.dims = [s.batch, s.numQueries, s.heads, s.headDimValue]) (biasGrads : Bool)
    {settings : Settings} {mask : Option (Tensor α)}
    (hMask : Untiled.dropoutMask s settings.dropout settings.overflow = .ok mask) :
    Untiled.backward (x.forwardTensors results dO biasGrads) settings =
      .ok (Untiled.gradients s (x.forwardTensors results dO biasGrads)
        (Scalar.ofFloat (settings.resolvedScale s.headDim)) mask) := by
  unfold Untiled.backward
  apply bind_eq_of_ok (congrArg (Except.mapError Failure.refused)
    (hx.inferShape_eq hO hLse hdO biasGrads))
  apply bind_eq_of_ok (congrArg (Except.mapError Failure.fault) hx.extents)
  exact bind_eq_of_ok (congrArg (Except.mapError Failure.fault) hMask) rfl

/-! ### The forward pass -/

theorem forwardShape_eq (hx : x.Proper s) : Untiled.forwardShape x.q x.v x.biases.pairBias = s := by
  obtain ⟨hBatch, hHeads, hQueries, -, hCols, hColsValue⟩ := hx.sizes_eq
  have hKeys : x.v.dim 1 = s.numKeys := by simp [Tensor.dim, hx.v]
  unfold Untiled.forwardShape
  rw [hBatch, hHeads, hQueries, hKeys, hCols, hColsValue]
  cases hBias : x.biases.pairBias with
  | none => simp only [← hx.ungrouped hBias]
  | some bias => simp only [hx.pairBias_groupSize hBias, Except.toOption, Option.getD_some]

theorem checkBias_eq (hx : x.Proper s) (kind : BiasKind) :
    Untiled.checkBias s kind (x.biases.get kind) = .ok () := by
  unfold Untiled.checkBias
  cases hBias : x.biases.get kind with
  | none => rfl
  | some bias => exact if_pos (by rw [bias.size_eq, hx.bias kind bias hBias, BiasKind.size])

/-- Operands of the same dimensions share all of them. -/
theorem extents_eq (hx : x.Proper s) (biased masked : Bool) :
    Untiled.Extents.of? s x.k x.v biased masked =
      .ok ⟨{ s with groupSize := 1 }, { s with groupSize := 1 }⟩ := by
  have hSame : ∀ n, Tensor.commonExtent? n n = .ok n := fun n => if_pos (.inl rfl)
  have hDims : x.k.dim 1 = s.numKeys ∧ x.k.dim 3 = s.headDim ∧ x.k.dim 0 = s.batch ∧
      x.k.dim 2 = s.heads ∧ x.v.dim 0 = s.batch ∧ x.v.dim 2 = s.heads := by
    simp [Tensor.dim, hx.k, hx.v]
  obtain ⟨hKeys, hCols, hBatch, hHeads, hBatch', hHeads'⟩ := hDims
  unfold Untiled.Extents.of?
  simp only [hKeys, hCols, hBatch, hHeads, hBatch', hHeads', ite_self, true_or, if_true]
  apply bind_eq_of_ok (hSame s.batch)
  apply bind_eq_of_ok (hSame s.heads)
  apply bind_eq_of_ok (hSame s.batch)
  exact bind_eq_of_ok (hSame s.heads) rfl

/-- The forward pass gives the attention for the mask that it draws. -/
theorem forward_eq [ScalarLog α] (hx : x.Proper s) {settings : Settings} {mask : Option (Tensor α)}
    (hMask : Untiled.dropoutMask s settings.dropout settings.overflow = .ok mask) :
    x.forward settings =
      .ok (x.attention s (Scalar.ofFloat (settings.resolvedScale s.headDim)) mask) := by
  have hWeights : mask.map (·.stretch4 s.batch s.heads s.numQueries s.numKeys) = mask := by
    cases hPlane : mask with
    | none => rfl
    | some plane =>
        subst hPlane
        exact congrArg some (Tensor.stretch4_self (Untiled.dims_dropoutMask hMask))
  unfold AttentionInputs.forward Untiled.forward
  rw [hx.forwardShape_eq]
  apply bind_eq_of_ok hx.extents
  apply bind_eq_of_ok (hx.checkBias_eq .keyMask)
  apply bind_eq_of_ok (hx.checkBias_eq .pairBias)
  apply bind_eq_of_ok hMask
  apply bind_eq_of_ok (hx.extents_eq _ _)
  dsimp only
  rw [Tensor.stretch4_self hx.q, Tensor.stretch4_self hx.k, Tensor.stretch4_self hx.v, hWeights,
    Untiled.scores_stretched, Tensor.stretch4_self rfl]
  rfl

end AttentionInputs.Proper

end FusedAttention
