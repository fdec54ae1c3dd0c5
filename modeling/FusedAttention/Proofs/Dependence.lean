import FusedAttention.Proofs.Acceptance
import FusedAttention.Proofs.FullAttention

/-! What each result depends on. The score gradient of a query and a key is a function of the numbers
of this query and this key, so a row of gradQ depends on its own query and all keys, and a row of
gradK or gradV on its own key and all queries. -/
namespace FusedAttention

variable {α ε : Type} [Scalar α]

namespace UnitValues

/-- The columns of the entries of gradK or gradV. -/
def cols (x : UnitValues α) : KeySide → Nat
  | .keys => x.headDim
  | .values => x.headDimValue

/-- The numbers of two units agree on some queries and keys. -/
structure AgreeOn (queries keys : Nat → Prop) (x y : UnitValues α) : Prop where
  headDim : x.headDim = y.headDim
  headDimValue : x.headDimValue = y.headDimValue
  scale : x.scale = y.scale
  mask : ∀ i j, queries i → keys j → x.mask.map (· i j) = y.mask.map (· i j)
  query : ∀ i, queries i → ∀ c < x.headDim, x.query i c = y.query i c
  gradOut : ∀ i, queries i → ∀ c < x.headDimValue, x.gradOut i c = y.gradOut i c
  lse : ∀ i, queries i → x.lse i = y.lse i
  delta : ∀ i, queries i → x.delta i = y.delta i
  key : ∀ j, keys j → ∀ c < x.headDim, x.key j c = y.key j c
  value : ∀ j, keys j → ∀ c < x.headDimValue, x.value j c = y.value j c
  biases : ∀ i j, queries i → keys j → x.biases.map (· i j) = y.biases.map (· i j)

namespace AgreeOn

variable {queries keys : Nat → Prop} {x y : UnitValues α} {i j : Nat}

theorem prob_eq (h : AgreeOn queries keys x y) (hi : queries i) (hj : keys j) :
    x.prob i j = y.prob i j := by
  have hBiases : ∀ (z : UnitValues α) (start : α),
      z.biases.foldl (fun score bias => score + bias i j) start =
        (z.biases.map (· i j)).foldl (· + ·) start := by
    intro z start
    rw [List.foldl_map]
  have hDot : Tile.dot x.headDim (x.key j) (x.query i) = Tile.dot y.headDim (y.key j) (y.query i) := by
    rw [← h.headDim]
    exact Tile.dot_congr (h.key j hj) (h.query i hi)
  simp only [prob, hBiases, hDot, h.biases i j hi hj, h.scale, h.lse i hi]

theorem masked_eq (h : AgreeOn queries keys x y) (hi : queries i) (hj : keys j) (number : α) :
    x.masked i j number = y.masked i j number := by
  have hMasked : ∀ z : UnitValues α,
      z.masked i j number = (z.mask.map (· i j)).elim number (number * ·) := by
    intro z
    unfold masked
    cases z.mask <;> rfl
  rw [hMasked, hMasked, h.mask i j hi hj]

theorem weight_eq (h : AgreeOn queries keys x y) (hi : queries i) (hj : keys j) :
    x.weight i j = y.weight i j := by
  rw [weight, weight, h.prob_eq hi hj, h.masked_eq hi hj]

theorem gradScore_eq (h : AgreeOn queries keys x y) (hi : queries i) (hj : keys j) :
    x.gradScore i j = y.gradScore i j := by
  have hDot : Tile.dot x.headDimValue (x.gradOut i) (x.value j) =
      Tile.dot y.headDimValue (y.gradOut i) (y.value j) := by
    rw [← h.headDimValue]
    exact Tile.dot_congr (h.gradOut i hi) (h.value j hj)
  simp only [gradScore, hDot, h.prob_eq hi hj, h.masked_eq hi hj, h.delta i hi]

/-- A share of gradQ looks at one query. -/
theorem queryShare_eq (h : AgreeOn queries keys x y) (hi : queries i) {keyStart rows c : Nat}
    (hKeys : ∀ j < rows, keys (keyStart + j)) (hc : c < x.headDim) :
    x.queryShare keyStart rows i c = y.queryShare keyStart rows i c := by
  funext start
  refine Tile.addProducts_congr (fun j hj => ?_) (fun j hj => ?_) start
  · rw [h.gradScore_eq hi (hKeys j hj), h.scale]
  · exact h.key _ (hKeys j hj) c hc

/-- A share of gradK or gradV looks at one key. -/
theorem keyShare_eq (h : AgreeOn queries keys x y) (hj : keys j) {side : KeySide}
    {queryStart rows c : Nat} (hQueries : ∀ i < rows, queries (queryStart + i))
    (hc : c < x.cols side) :
    x.keyShare side queryStart rows j c = y.keyShare side queryStart rows j c := by
  funext start
  cases side with
  | keys =>
      refine Tile.addProducts_congr (fun i hi => ?_) (fun i hi => ?_) start
      · rw [h.gradScore_eq (hQueries i hi) hj, h.scale]
      · exact h.query _ (hQueries i hi) c hc
  | values =>
      refine Tile.addProducts_congr (fun i hi => ?_) (fun i hi => ?_) start
      · exact h.weight_eq (hQueries i hi) hj
      · exact h.gradOut _ (hQueries i hi) c hc

/-- A share of a bias gradient looks at one key. -/
theorem biasShare_eq (h : AgreeOn queries keys x y) (kind : BiasKind) (hi : queries i) (hj : keys j)
    {queryStart rows : Nat} (hQueries : ∀ i < rows, queries (queryStart + i)) :
    kind.share x queryStart rows i j = kind.share y queryStart rows i j := by
  cases kind with
  | keyMask =>
      refine List.foldl_ext _ _ _ fun sum i hi => ?_
      rw [h.gradScore_eq (hQueries i (List.mem_range.mp hi)) hj]
  | pairBias => exact h.gradScore_eq hi hj

end AgreeOn

end UnitValues

variable [Element ε α]

namespace Kernel

/-! ### Entries of one kernel -/

section Entries

variable {kernel : Kernel α ε} {x y : UnitValues α} {keys queries : Nat → Prop} {i j c : Nat}

/-- A row of gradQ depends on its own query and on all keys. -/
theorem queryResult_congr (hValid : kernel.Valid)
    (h : UnitValues.AgreeOn queries (· < kernel.shape.numKeys) x y) (hi : queries i)
    (hc : c < x.headDim) : kernel.queryResult x i c = kernel.queryResult y i c := by
  refine congrArg kernel.plan.gradQ.total (List.map_congr_left fun keyStart hMem => ?_)
  obtain ⟨hStart, -⟩ := (mem_keyStarts hValid).mp hMem
  exact h.queryShare_eq hi (fun j hj => by omega) hc

omit [Scalar α] in
theorem rows_of_mem_queryStarts (hValid : kernel.Valid) {queryStart keyStart : Nat}
    (hMem : queryStart ∈ kernel.queryStarts keyStart) :
    ∀ i < (kernel.extent queryStart keyStart).rowsI, queryStart + i < kernel.shape.numQueries := by
  obtain ⟨-, hStart, -⟩ := mem_queryStarts hValid hMem
  intro i hi
  simp only [extent] at hi
  omega

/-- A row of gradK or gradV depends on its own key and on all queries. -/
theorem keyResult_congr (hValid : kernel.Valid)
    (h : UnitValues.AgreeOn (· < kernel.shape.numQueries) keys x y) (hj : keys j) (side : KeySide)
    (hc : c < x.cols side) : kernel.keyResult x side j c = kernel.keyResult y side j c := by
  have hAdds : kernel.keyAdds x side j c = kernel.keyAdds y side j c :=
    List.map_congr_left fun queryStart hMem =>
      h.keyShare_eq hj (rows_of_mem_queryStarts hValid hMem) hc
  rw [keyResult, keyResult, hAdds]

/-- What a unit adds to an entry of a bias gradient depends on the key of the entry. -/
theorem biasShares_congr (hValid : kernel.Valid) (kind : BiasKind)
    (h : UnitValues.AgreeOn (· < kernel.shape.numQueries) keys x y)
    (hi : i < kernel.shape.numQueries) (hj : keys j) :
    kernel.biasShares x kind i j = kernel.biasShares y kind i j := by
  refine List.map_congr_left fun queryStart hMem => ?_
  exact h.biasShare_eq kind hi hj
    (rows_of_mem_queryStarts hValid (List.mem_filter.mp hMem).1)

end Entries

end Kernel

namespace Request

variable (request request' : Request α ε) (u : UnitCoord)

/-- Two requests hold the same numbers of one unit for some queries and keys, each in its own
layout. -/
structure AgreeOn (queries keys : Nat → Prop) : Prop where
  q : ∀ i, queries i → ∀ c < request.shape.headDim,
    request.inputs.q[request.inputLayouts.q.address u i c]? =
      request'.inputs.q[request'.inputLayouts.q.address u i c]?
  o : ∀ i, queries i → ∀ c < request.shape.headDimValue,
    request.inputs.o[request.inputLayouts.o.address u i c]? =
      request'.inputs.o[request'.inputLayouts.o.address u i c]?
  dO : ∀ i, queries i → ∀ c < request.shape.headDimValue,
    request.inputs.dO[request.inputLayouts.dO.address u i c]? =
      request'.inputs.dO[request'.inputLayouts.dO.address u i c]?
  lse : ∀ i, queries i → request.lse[request.lseLayout.unitOffset u + i]? =
    request'.lse[request'.lseLayout.unitOffset u + i]?
  k : ∀ j, keys j → ∀ c < request.shape.headDim,
    request.inputs.k[request.inputLayouts.k.address u j c]? =
      request'.inputs.k[request'.inputLayouts.k.address u j c]?
  v : ∀ j, keys j → ∀ c < request.shape.headDimValue,
    request.inputs.v[request.inputLayouts.v.address u j c]? =
      request'.inputs.v[request'.inputLayouts.v.address u j c]?
  biases : ∀ kind i j, queries i → keys j →
    (request.biases.get kind).map (fun data => data[kind.address request.shape u i j]?) =
      (request'.biases.get kind).map fun data => data[kind.address request.shape u i j]?

variable {request request' u} {settings : Settings} {policy : QueryStart}
  {queries keys : Nat → Prop}

namespace AgreeOn

/-- Delta of a query depends on its own rows of O and dO. -/
theorem delta_eq (h : request.AgreeOn request' u queries keys)
    (hShape : request'.shape = request.shape) (hReads : (request.kernel settings policy).Reads u)
    (hReads' : (request'.kernel settings policy).Reads u) {i : Nat} (hi : queries i)
    (hRow : i < request.shape.numQueries) :
    (request.kernel settings policy).delta u i = (request'.kernel settings policy).delta u i := by
  obtain ⟨shape, inputs, inputLayouts, lse, lseLayout, gradLayouts, biases⟩ := request
  obtain ⟨shape', inputs', inputLayouts', lse', lseLayout', gradLayouts', biases'⟩ := request'
  obtain rfl : shape' = shape := hShape
  have hO := extract_congr (hReads.o i hRow) (hReads'.o i hRow) (h.o i hi)
  have hDO := extract_congr (hReads.dO i hRow) (hReads'.dO i hRow) (h.dO i hi)
  exact congrArg₂ (fun rowO rowDO => Lanes.laneDot rowO rowDO _) hO hDO

omit [Scalar α] in
/-- The biases of a pair are the same numbers. -/
theorem biasValues_eq (h : request.AgreeOn request' u queries keys)
    (hShape : request'.shape = request.shape) {i j : Nat} (hi : queries i) (hj : keys j) :
    ((request.biasValues u).map (· i j) : List α) = (request'.biasValues u).map (· i j) := by
  have hBias : ∀ kind : BiasKind, ((request.biases.get kind).map fun data =>
      (Tile.widenAt data (kind.address request.shape u i j) : α)) =
        (request'.biases.get kind).map fun data =>
          Tile.widenAt data (kind.address request'.shape u i j) := by
    intro kind
    have hSame := congrArg (Option.map fun o : Option ε =>
      (Element.widen (o.getD (Element.zero (α := α))) : α)) (h.biases kind i j hi hj)
    rw [Option.map_map, Option.map_map] at hSame
    rw [hShape]
    exact hSame
  rw [biasValues, biasValues, List.map_filterMap, List.map_filterMap]
  refine List.filterMap_congr fun kind _ => ?_
  rw [Option.map_map, Option.map_map]
  exact hBias kind

/-- Requests that agree give a unit the same numbers. -/
theorem unitValues (h : request.AgreeOn request' u queries keys)
    (hShape : request'.shape = request.shape) (hReads : (request.kernel settings policy).Reads u)
    (hReads' : (request'.kernel settings policy).Reads u)
    (hRows : ∀ i, queries i → i < request.shape.numQueries) :
    UnitValues.AgreeOn queries keys ((request.kernel settings policy).unitValues u)
      ((request'.kernel settings policy).unitValues u) where
  headDim := congrArg Shape.headDim hShape.symm
  headDimValue := congrArg Shape.headDimValue hShape.symm
  scale := congrArg (fun s : Shape => Scalar.ofFloat (settings.resolvedScale s.headDim)) hShape.symm
  mask i j _ _ := congrArg (fun s => (settings.dropout.mask s u settings.blockJ).map (· i j)) hShape.symm
  query i hi c hc := congrArg (fun o => Element.widen (o.getD Element.zero)) (h.q i hi c hc)
  gradOut i hi c hc := congrArg (fun o => Element.widen (o.getD Element.zero)) (h.dO i hi c hc)
  lse i hi := congrArg (·.getD 0) (h.lse i hi)
  delta i hi := h.delta_eq hShape hReads hReads' hi (hRows i hi)
  key j hj c hc := congrArg (fun o => Element.widen (o.getD Element.zero)) (h.k j hj c hc)
  value j hj c hc := congrArg (fun o => Element.widen (o.getD Element.zero)) (h.v j hj c hc)
  biases _ _ hi hj := h.biasValues_eq hShape hi hj

end AgreeOn

end Request

end FusedAttention
