import FusedAttention.Dense.Backward

/-! Attention and its gradients without tiles: every formula over whole tensors, with the
full table of scores `[batch, heads, queries, keys]`. The kernel is checked against it, and
it provides the outputs of the forward pass. -/
namespace FusedAttention.Untiled

variable {α : Type}

/-- `f 0 + f 1 + …` with `count` terms. -/
@[specialize] def sum [Zero α] [Add α] (count : Nat) (f : Nat → α) : α :=
  Nat.fold count (fun i _ total => total + f i) 0

section Tables

variable [Scalar α] (s : Shape)

/-- A table with an entry for every batch, head, query and key. -/
@[inline] def table (f : Nat → Nat → Nat → Nat → α) : Tensor α :=
  .ofFn4 s.batch s.heads s.numQueries s.numKeys f

/-- The key mask of a batch, added to a score. -/
def addKeyMask (mask : Option (Tensor α)) (batch key : Nat) (score : α) : α :=
  match mask with
  | some mask => score + mask.at1 (batch * s.numKeys + key)
  | none => score

/-- The entry of a pair bias for a score, that of the batch's group. -/
def pairBiasAt (bias : Tensor α) (batch head query key : Nat) : α :=
  bias.at1 (((batch / s.groupSize * s.heads + head) * s.numQueries + query) * s.numKeys + key)

/-- The pair bias added to a score. -/
def addPairBias (bias : Option (Tensor α)) (batch head query key : Nat) (score : α) : α :=
  match bias with
  | some bias => score + pairBiasAt s bias batch head query key
  | none => score

/-- The scaled products of queries and keys with the biases added. -/
def scores (q k : Tensor α) (biases : Biases (Option (Tensor α))) (scale : α) : Tensor α :=
  table s fun b h i j =>
    let product := sum s.headDim fun c => q.at4 b i h c * k.at4 b j h c
    addPairBias s biases.pairBias b h i j (addKeyMask s biases.keyMask b j (product * scale))

/-- `exp (score - lse)`, row by row. -/
def probabilities (scores lse : Tensor α) : Tensor α :=
  table s fun b h i j => Scalar.exp (scores.at4 b h i j - lse.at3 b h i)

/-- A table under the mask of dropout, if there is one. -/
def masked (mask : Option (Tensor α)) (t : Tensor α) : Tensor α :=
  match mask with
  | some mask => table s fun b h i j => t.at4 b h i j * mask.at4 b h i j
  | none => t

/-- The mask of dropout for all units, if there is dropout. -/
def dropoutMask (dropout : Dropout) (overflow : Overflow) : Except Fault (Option (Tensor α)) :=
  if dropout.isEnabled then do
    let planes ← s.unitCoords.mapM (maskPlane dropout s · overflow)
    let values := planes.foldl (· ++ ·) #[]
    return some (.ofFn [s.batch, s.heads, s.numQueries, s.numKeys] fun p => values.getD p 0)
  else .ok none

/-- The sums over queries or keys that the formulas take have at least one term, and a row
has at least one column. -/
def checkExtents : Except Fault Unit :=
  if s.numQueries = 0 ∨ s.numKeys = 0 ∨ s.headDim = 0 ∨ s.headDimValue = 0 then
    .error .emptyExtent
  else .ok ()

end Tables

/-! ### Forward -/

section Forward

variable [ScalarLog α]

/-- Logarithm of the sum of exponentials of each row, taken after the largest score. -/
def logSumExp (s : Shape) (scores : Tensor α) : Tensor α :=
  .ofFn3 s.batch s.heads s.numQueries fun b h i =>
    let largest := Nat.fold (s.numKeys - 1) (fun j _ largest =>
      ScalarLog.max largest (scores.at4 b h i (j + 1))) (scores.at4 b h i 0)
    let total := sum s.numKeys fun j => Scalar.exp (scores.at4 b h i j - largest)
    ScalarLog.log total + largest

/-- The sums of the rows of V, weighted by the entries of a table. -/
def weightedValues (s : Shape) (weights v : Tensor α) : Tensor α :=
  .ofFn4 s.batch s.numQueries s.heads s.headDimValue fun b i h c =>
    sum s.numKeys fun j => weights.at4 b h i j * v.at4 b j h c

/-- The shape of a forward pass. A number of bias groups that does not divide the batches
counts as a bias for each batch. -/
def forwardShape (q v : Tensor α) (pairBias : Option (Tensor α)) : Shape where
  batch := q.dim 0
  heads := q.dim 2
  numQueries := q.dim 1
  numKeys := v.dim 1
  headDim := q.dim 3
  headDimValue := v.dim 3
  groupSize :=
    match pairBias with
    | some bias => ((pairBiasGroupSize (q.dim 0) (bias.dim 0)).toOption).getD 1
    | none => 1

/-- A bias is as large as the scores it is added to. -/
def checkBias (s : Shape) (kind : BiasKind) (bias : Option (Tensor α)) : Except Fault Unit :=
  match bias with
  | some bias =>
    if bias.data.size = kind.size s then .ok ()
    else .error (.unfitDimensions (kind.dims s) bias.dims)
  | none => .ok ()

/-- The shapes of the two tables of a forward pass: the scores, which Q and K share, and the
weights, which V shares with them. An operand with a single batch or head serves all of the
others'. -/
structure Extents where
  scores : Shape
  weights : Shape

/-- The extents that the operands share. A single key stands for as many as V has if a bias or
the mask of dropout has a column for each of those, and the bias comes before the sums. -/
def Extents.of? (s : Shape) (k v : Tensor α) (biased masked : Bool) : Except Fault Extents := do
  let keys := k.dim 1
  unless keys = s.numKeys ∨ (keys = 1 ∧ (biased ∨ masked)) do
    throw (.unfitDimensions [s.numKeys] [keys])
  unless k.dim 3 = s.headDim do
    throw (.unfitDimensions [s.headDim] [k.dim 3])
  let batch ← Tensor.commonExtent? s.batch (k.dim 0)
  let heads ← Tensor.commonExtent? s.heads (k.dim 2)
  let numKeys := if biased then s.numKeys else keys
  return {
    scores := { s with batch, heads, numKeys, groupSize := 1 }
    weights :=
      { s with
        batch := ← Tensor.commonExtent? batch (v.dim 0)
        heads := ← Tensor.commonExtent? heads (v.dim 2)
        groupSize := 1 } }

/-- The biases of the shape `s` with an entry of their own for each score of the shape `t`. -/
def stretchBiases (s t : Shape) (biases : Biases (Option (Tensor α))) :
    Biases (Option (Tensor α)) where
  keyMask := biases.keyMask.map fun mask =>
    .ofFn2 t.batch t.numKeys fun b j => mask.at1 (Tensor.entryFor s.batch b * s.numKeys + j)
  pairBias := biases.pairBias.map fun bias =>
    .ofFn4 t.batch t.heads t.numQueries t.numKeys fun b h i j =>
      pairBiasAt s bias (Tensor.entryFor s.batch b) (Tensor.entryFor s.heads h) i j

/-- O, `[batch, queries, heads, cols]`, and the log-sum-exp, `[batch, heads, queries]`. -/
def forward (q k v : Tensor α) (biases : Biases (Option (Tensor α))) (settings : Settings) :
    Except Fault (Tensor α × Tensor α) := do
  let s := forwardShape q v biases.pairBias
  checkExtents s
  checkBias s .keyMask biases.keyMask
  checkBias s .pairBias biases.pairBias
  let mask ← dropoutMask s settings.dropout settings.overflow
  let biased := biases.keyMask.isSome || biases.pairBias.isSome
  let ⟨t, u⟩ ← Extents.of? s k v biased mask.isSome
  let scores := scores t (q.stretch4 t.batch t.numQueries t.heads t.headDim)
    (k.stretch4 t.batch t.numKeys t.heads t.headDim) (stretchBiases s t biases)
    (Scalar.ofFloat (settings.resolvedScale s.headDim))
  let lse := logSumExp t scores
  let onWeights (x : Tensor α) := x.stretch4 u.batch u.heads u.numQueries u.numKeys
  let weights := masked u (mask.map onWeights) (onWeights (probabilities t scores lse))
  return (weightedValues u weights (v.stretch4 u.batch u.numKeys u.heads u.headDimValue), lse)

end Forward

/-! ### Backward -/

section Backward

variable [Scalar α]

/-- `∑ c, O[b, i, h, c] * dO[b, i, h, c]`, for every unit and query. -/
def delta (s : Shape) (o dO : Tensor α) : Tensor α :=
  .ofFn3 s.batch s.heads s.numQueries fun b h i =>
    sum s.headDimValue fun c => o.at4 b i h c * dO.at4 b i h c

/-- Gradients of the scores before the scale: `P * (mask * (dO Vᵀ) - Delta)`. -/
def scoreGrads (s : Shape) (p : Tensor α) (mask : Option (Tensor α)) (v dO delta : Tensor α) :
    Tensor α :=
  let dp := masked s mask <| table s fun b h i j =>
    sum s.headDimValue fun c => dO.at4 b i h c * v.at4 b j h c
  table s fun b h i j => p.at4 b h i j * (dp.at4 b h i j - delta.at3 b h i)

/-- Gradients with respect to the rows of Q: sums of rows of K over the keys. -/
def queryGrads (s : Shape) (ds k : Tensor α) : Tensor α :=
  .ofFn4 s.batch s.numQueries s.heads s.headDim fun b i h c =>
    sum s.numKeys fun j => ds.at4 b h i j * k.at4 b j h c

/-- Gradients with respect to rows of K or V: sums of `cols` columns of rows of Q or dO over
the queries. -/
def keyGrads (s : Shape) (cols : Nat) (weights rows : Tensor α) : Tensor α :=
  .ofFn4 s.batch s.numKeys s.heads cols fun b j h c =>
    sum s.numQueries fun i => weights.at4 b h i j * rows.at4 b i h c

/-- Gradient of the key mask: sums over heads and queries. -/
def keyMaskGrads (s : Shape) (ds : Tensor α) : Tensor α :=
  .ofFn2 s.batch s.numKeys fun b j =>
    sum s.heads fun h => sum s.numQueries fun i => ds.at4 b h i j

/-- Gradient of the pair bias: sums over the batches of each group. -/
def pairBiasGrads (s : Shape) (ds : Tensor α) : Tensor α :=
  .ofFn4 s.biasGroups s.heads s.numQueries s.numKeys fun g h i j =>
    sum s.groupSize fun n => ds.at4 (g * s.groupSize + n) h i j

/-- All gradients for given tables of probabilities and mask. -/
def gradients (s : Shape) (x : ForwardTensors α) (scale : α) (mask : Option (Tensor α)) :
    Outputs (Tensor α) :=
  let ⟨q, k, v, o, dO⟩ := x.operands
  let p := probabilities s (scores s q k x.biases scale) x.lse
  let delta := delta s o dO
  let ds := scoreGrads s p mask v dO delta
  let scaled := ds.map (· * scale)
  let wanted (bias : Option (Tensor α)) (grad : Unit → Tensor α) : Option (Tensor α) :=
    if x.biasGrads && bias.isSome then some (grad ()) else none
  { grads :=
      { gradQ := queryGrads s scaled k
        gradK := keyGrads s s.headDim scaled q
        gradV := keyGrads s s.headDimValue (masked s mask p) dO }
    delta
    biasGrads :=
      { keyMask := wanted x.biases.keyMask fun _ => keyMaskGrads s ds
        pairBias := wanted x.biases.pairBias fun _ => pairBiasGrads s ds } }

/-- All gradients of a backward pass. -/
def backward (x : ForwardTensors α) (settings : Settings) : Except Failure (Outputs (Tensor α)) := do
  let s ← x.inferShape.mapError .refused
  (checkExtents s).mapError .fault
  let mask ← (dropoutMask s settings.dropout settings.overflow).mapError .fault
  return gradients s x (Scalar.ofFloat (settings.resolvedScale s.headDim)) mask

end Backward

end FusedAttention.Untiled
