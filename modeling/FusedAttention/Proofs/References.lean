import Mathlib
import FusedAttention.Proofs.Formulas
import FusedAttention.Proofs.Tensors

/-! The gradients without tiles on the tensors that a request describes are those of the formulas,
with every query attending to every key. -/
namespace FusedAttention

open Finset

variable {α ε : Type} [ExactScalar α] [Element ε α]

/-- The tensors that a request describes, without their layouts. -/
def Request.tensors (request : Request α ε) : ForwardTensors α :=
  let s := request.shape
  { operands :=
      { q := .ofFn4 s.batch s.numQueries s.heads s.headDim fun b i h c => Formula.q request ⟨b, h⟩ i c
        k := .ofFn4 s.batch s.numKeys s.heads s.headDim fun b j h c => Formula.k request ⟨b, h⟩ j c
        v := .ofFn4 s.batch s.numKeys s.heads s.headDimValue fun b j h c =>
          Formula.v request ⟨b, h⟩ j c
        o := .ofFn4 s.batch s.numQueries s.heads s.headDimValue fun b i h c =>
          Formula.o request ⟨b, h⟩ i c
        dO := .ofFn4 s.batch s.numQueries s.heads s.headDimValue fun b i h c =>
          Formula.dO request ⟨b, h⟩ i c }
    lse := .ofFn3 s.batch s.heads s.numQueries fun b h i => Formula.lse request ⟨b, h⟩ i
    biases :=
      { keyMask := request.biases.keyMask.map fun data =>
          .ofFn (BiasKind.keyMask.dims s) (Tile.widenAt data)
        pairBias := request.biases.pairBias.map fun data =>
          .ofFn (BiasKind.pairBias.dims s) (Tile.widenAt data) }
    biasGrads := false }

/-- Every query attends to every key. -/
def Formula.everywhere : Nat → Nat → Bool :=
  fun _ _ => true

namespace Untiled

open Formula (everywhere)

theorem sum_eq {β : Type} [AddCommMonoid β] (count : Nat) (f : Nat → β) :
    sum count f = ∑ p ∈ range count, f p := by
  induction count with
  | zero => rfl
  | succ count ih => rw [sum, Nat.fold_succ, ← sum, ih, sum_range_succ]

omit [Element ε α] in
/-- A sum of products whose factors are known. -/
theorem sum_mul_eq {count : Nat} {f f' g g' : Nat → α} (hLeft : ∀ p < count, f p = f' p)
    (hRight : ∀ p < count, g p = g' p) :
    (sum count fun p => f p * g p) = ∑ p ∈ range count, f' p * g' p := by
  rw [sum_eq]
  refine sum_congr rfl fun p hp => ?_
  rw [hLeft p (mem_range.mp hp), hRight p (mem_range.mp hp)]

omit [Element ε α] in
/-- A factor of one side of every product comes out of the sum. -/
theorem sum_scaled_mul (count : Nat) (f g : Nat → α) (y : α) :
    ∑ p ∈ range count, f p * y * g p = y * ∑ p ∈ range count, f p * g p := by
  rw [mul_sum]
  exact sum_congr rfl fun p _ => (mul_assoc _ _ _).trans (mul_left_comm _ _ _)

section Entries

variable {request : Request α ε} {settings : Settings} {u : UnitCoord} {i j c : Nat}
  (hGroups : request.shape.batch % request.shape.groupSize = 0) (hu : request.shape.HasUnit u)
  (hi : i < request.shape.numQueries) (hj : j < request.shape.numKeys)

include hGroups hu hi hj

theorem addKeyMask_eq (y : α) :
    addKeyMask request.shape request.tensors.biases.keyMask u.batchId j y =
      y + Formula.bias request u .keyMask i j := by
  have hPlace := BiasKind.keyMask.address_lt hu.1 hu.2 hGroups hi hj
  unfold addKeyMask Formula.bias Request.tensors Biases.get
  dsimp only
  cases request.biases.keyMask with
  | none => exact (add_zero y).symm
  | some data =>
      dsimp only [Option.map_some, Option.elim_some]
      rw [← BiasKind.keyMask_address _ u i, Tensor.at1_ofFn _ hPlace]

theorem addPairBias_eq (y : α) :
    addPairBias request.shape request.tensors.biases.pairBias u.batchId u.head i j y =
      y + Formula.bias request u .pairBias i j := by
  have hPlace := BiasKind.pairBias.address_lt hu.1 hu.2 hGroups hi hj
  unfold addPairBias Formula.bias Request.tensors Biases.get
  dsimp only
  cases request.biases.pairBias with
  | none => exact (add_zero y).symm
  | some data =>
      dsimp only [Option.map_some, Option.elim_some]
      rw [pairBiasAt, ← BiasKind.pairBias_address, Tensor.at1_ofFn _ hPlace]

theorem scores_eq : (scores request.shape request.tensors.operands.q request.tensors.operands.k
    request.tensors.biases (Formula.scale request settings)).at4 u.batchId u.head i j =
      Formula.score request settings u i j := by
  have hProduct : (sum request.shape.headDim fun c => request.tensors.operands.q.at4 u.batchId i u.head c *
      request.tensors.operands.k.at4 u.batchId j u.head c) =
        ∑ c ∈ range request.shape.headDim, Formula.q request u i c * Formula.k request u j c := by
    exact sum_mul_eq (fun c hc => Tensor.at4_ofFn4 _ hu.1 hi hu.2 hc)
      fun c hc => Tensor.at4_ofFn4 _ hu.1 hj hu.2 hc
  rw [scores, table, Tensor.at4_ofFn4 _ hu.1 hu.2 hi hj]
  dsimp only
  rw [addPairBias_eq hGroups hu hi hj, addKeyMask_eq hGroups hu hi hj, hProduct, mul_comm,
    Formula.score]

theorem probabilities_eq : (probabilities request.shape (scores request.shape
    request.tensors.operands.q request.tensors.operands.k request.tensors.biases
      (Formula.scale request settings)) request.tensors.lse).at4 u.batchId u.head i j =
        Formula.prob request settings everywhere u i j := by
  have hLse : request.tensors.lse.at3 u.batchId u.head i = Formula.lse request u i :=
    Tensor.at3_ofFn3 _ hu.1 hu.2 hi
  rw [probabilities, table, Tensor.at4_ofFn4 _ hu.1 hu.2 hi hj, scores_eq hGroups hu hi hj, hLse,
    Formula.prob, everywhere, if_pos rfl]

end Entries

section Masked

variable {request : Request α ε} {settings : Settings} {u : UnitCoord} {i j c : Nat}
  {mask : Option (Tensor α)}

omit [Element ε α] in
/-- The factor of dropout is the one of its own word while the places of all words fit 64 bits. -/
theorem keep_eq (hFits : settings.dropout.isEnabled = true → settings.dropout.Fits request.shape)
    (hu : request.shape.HasUnit u) (hi : i < request.shape.numQueries)
    (hj : j < request.shape.numKeys) : Formula.keep request settings u i j =
      if settings.dropout.isEnabled then settings.dropout.entry request.shape u i j else 1 := by
  have hEntry := Dropout.mask_eq_entry (α := α) hFits hu.1 hu.2 hi hj settings.blockJ
  have hKeep : Formula.keep request settings u i j =
      ((settings.dropout.mask request.shape u settings.blockJ).map (· i j)).elim 1 id := by
    unfold Formula.keep
    cases (settings.dropout.mask request.shape u settings.blockJ : Option (Nat → Nat → α)) <;> rfl
  rw [hKeep, hEntry]
  split <;> rfl

/-- The table that is stored for a mask has its factors. -/
def Stores (mask : Option (Tensor α)) (request : Request α ε) (settings : Settings) : Prop :=
  ∀ u, request.shape.HasUnit u → ∀ i < request.shape.numQueries, ∀ j < request.shape.numKeys,
    mask.map (·.at4 u.batchId u.head i j) =
      (settings.dropout.mask request.shape u settings.blockJ).map fun mask => mask i j

omit [Element ε α] in
/-- The mask that is drawn in whole rows is the one that the kernel reads in parts of rows, while the
places of all words fit 64 bits. -/
theorem stores_of_dropoutMask {overflow : Overflow} (hQueries : 0 < request.shape.numQueries)
    (hKeys : 0 < request.shape.numKeys)
    (hFits : settings.dropout.isEnabled = true → settings.dropout.Fits request.shape)
    (hMask : dropoutMask request.shape settings.dropout overflow = .ok mask) :
    Stores mask request settings := by
  intro u hu i hi j hj
  have hSums : settings.dropout.isEnabled = true →
      overflow = .wrapping ∨ settings.dropout.Fits request.shape := fun hOn => .inr (hFits hOn)
  obtain ⟨mask', hMask', hRows⟩ := dropoutMask_spec (α := α) hQueries hKeys hSums
  obtain rfl : mask' = mask := Except.ok.inj (hMask'.symm.trans hMask)
  rw [hRows u hu i hi j hj, Dropout.mask_eq_entry hFits hu.1 hu.2 hi hj,
    Dropout.mask_eq_entry hFits hu.1 hu.2 hi hj]

omit [Element ε α] in
theorem masked_eq (hMask : Stores mask request settings) (hu : request.shape.HasUnit u)
    (hi : i < request.shape.numQueries) (hj : j < request.shape.numKeys) (t : Tensor α) :
    (masked request.shape mask t).at4 u.batchId u.head i j =
      t.at4 u.batchId u.head i j * Formula.keep request settings u i j := by
  have hEntry := hMask u hu i hi j hj
  unfold masked Formula.keep
  revert hEntry
  cases mask with
  | none =>
      intro hEntry
      rw [Option.map_none, eq_comm, Option.map_eq_none_iff] at hEntry
      rw [hEntry]
      exact (mul_one _).symm
  | some plane =>
      intro hEntry
      rw [Option.map_some, eq_comm, Option.map_eq_some_iff] at hEntry
      obtain ⟨factors, hSome, hFactor⟩ := hEntry
      rw [hSome]
      dsimp only [Option.elim_some]
      rw [table, Tensor.at4_ofFn4 _ hu.1 hu.2 hi hj, hFactor]

variable (hMask : Stores mask request settings)
  (hGroups : request.shape.batch % request.shape.groupSize = 0) (hu : request.shape.HasUnit u)

theorem delta_eq (hu : request.shape.HasUnit u) (hi : i < request.shape.numQueries) :
    (delta request.shape request.tensors.operands.o request.tensors.operands.dO).at3 u.batchId
      u.head i = Formula.delta request u i := by
  rw [delta, Tensor.at3_ofFn3 _ hu.1 hu.2 hi]
  exact sum_mul_eq (fun c hc => Tensor.at4_ofFn4 _ hu.1 hi hu.2 hc)
    fun c hc => Tensor.at4_ofFn4 _ hu.1 hi hu.2 hc

/-- The table of the score gradients, before the scale is applied. -/
def scoreTable (request : Request α ε) (settings : Settings) (mask : Option (Tensor α)) : Tensor α :=
  scoreGrads request.shape
    (probabilities request.shape (scores request.shape request.tensors.operands.q
      request.tensors.operands.k request.tensors.biases (Formula.scale request settings))
      request.tensors.lse)
    mask request.tensors.operands.v request.tensors.operands.dO
    (delta request.shape request.tensors.operands.o request.tensors.operands.dO)

include hMask hGroups hu in
theorem scoreTable_eq (hi : i < request.shape.numQueries) (hj : j < request.shape.numKeys) :
    (scoreTable request settings mask).at4 u.batchId u.head i j =
      Formula.gradScore request settings everywhere u i j := by
  have hProduct : (sum request.shape.headDimValue fun c =>
      request.tensors.operands.dO.at4 u.batchId i u.head c *
        request.tensors.operands.v.at4 u.batchId j u.head c) =
        ∑ c ∈ range request.shape.headDimValue, Formula.dO request u i c * Formula.v request u j c := by
    exact sum_mul_eq (fun c hc => Tensor.at4_ofFn4 _ hu.1 hi hu.2 hc)
      fun c hc => Tensor.at4_ofFn4 _ hu.1 hj hu.2 hc
  rw [scoreTable, scoreGrads, table, Tensor.at4_ofFn4 _ hu.1 hu.2 hi hj,
    probabilities_eq hGroups hu hi hj, masked_eq hMask hu hi hj, delta_eq hu hi, table,
    Tensor.at4_ofFn4 _ hu.1 hu.2 hi hj, hProduct, mul_comm _ (Formula.keep _ _ _ _ _),
    Formula.gradScore]

include hMask hGroups hu

/-- The table of the score gradients with the scale. -/
theorem scaledTable_eq (hi : i < request.shape.numQueries) (hj : j < request.shape.numKeys) :
    ((scoreTable request settings mask).map (· * Formula.scale request settings)).at4 u.batchId u.head
      i j = Formula.gradScore request settings everywhere u i j * Formula.scale request settings := by
  rw [Tensor.at4_map _ rfl hu.1 hu.2 hi hj, scoreTable_eq hMask hGroups hu hi hj]

theorem queryGrads_eq (hi : i < request.shape.numQueries) (hc : c < request.shape.headDim) :
    (queryGrads request.shape ((scoreTable request settings mask).map
      (· * Formula.scale request settings)) request.tensors.operands.k).at4 u.batchId i u.head c =
        Formula.gradQ request settings everywhere u i c := by
  rw [queryGrads, Tensor.at4_ofFn4 _ hu.1 hi hu.2 hc, Formula.gradQ, ← sum_scaled_mul]
  exact sum_mul_eq (fun j hj => scaledTable_eq hMask hGroups hu hi hj)
    fun j hj => Tensor.at4_ofFn4 _ hu.1 hj hu.2 hc

theorem keyGrads_eq (hj : j < request.shape.numKeys) (hc : c < request.shape.headDim) :
    (keyGrads request.shape request.shape.headDim ((scoreTable request settings mask).map
      (· * Formula.scale request settings)) request.tensors.operands.q).at4 u.batchId j u.head c =
        Formula.gradK request settings everywhere u j c := by
  rw [keyGrads, Tensor.at4_ofFn4 _ hu.1 hj hu.2 hc, Formula.gradK, ← sum_scaled_mul]
  exact sum_mul_eq (fun i hi => scaledTable_eq hMask hGroups hu hi hj)
    fun i hi => Tensor.at4_ofFn4 _ hu.1 hi hu.2 hc

theorem valueGrads_eq (hj : j < request.shape.numKeys) (hc : c < request.shape.headDimValue) :
    (keyGrads request.shape request.shape.headDimValue (masked request.shape mask
      (probabilities request.shape (scores request.shape request.tensors.operands.q
        request.tensors.operands.k request.tensors.biases (Formula.scale request settings))
        request.tensors.lse)) request.tensors.operands.dO).at4 u.batchId j u.head c =
          Formula.gradV request settings everywhere u j c := by
  rw [keyGrads, Tensor.at4_ofFn4 _ hu.1 hj hu.2 hc, Formula.gradV]
  refine sum_mul_eq (fun i hi => ?_) fun i hi => Tensor.at4_ofFn4 _ hu.1 hi hu.2 hc
  rw [masked_eq hMask hu hi hj, probabilities_eq hGroups hu hi hj]

/-- The gradients without tiles are those of the formulas. -/
theorem gradients_eq :
    let outputs := gradients request.shape request.tensors (Formula.scale request settings) mask
    (∀ i < request.shape.numQueries, outputs.delta.at3 u.batchId u.head i =
      Formula.delta request u i) ∧
    (∀ i < request.shape.numQueries, ∀ c < request.shape.headDim,
      outputs.grads.gradQ.at4 u.batchId i u.head c = Formula.gradQ request settings everywhere u i c) ∧
    (∀ j < request.shape.numKeys, ∀ c < request.shape.headDim,
      outputs.grads.gradK.at4 u.batchId j u.head c = Formula.gradK request settings everywhere u j c) ∧
    ∀ j < request.shape.numKeys, ∀ c < request.shape.headDimValue,
      outputs.grads.gradV.at4 u.batchId j u.head c = Formula.gradV request settings everywhere u j c :=
  ⟨fun _ hi => delta_eq hu hi, fun _ hi _ hc => queryGrads_eq hMask hGroups hu hi hc,
    fun _ hj _ hc => keyGrads_eq hMask hGroups hu hj hc,
    fun _ hj _ hc => valueGrads_eq hMask hGroups hu hj hc⟩

end Masked

end Untiled

end FusedAttention
