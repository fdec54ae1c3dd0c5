import FusedAttention.Proofs.Exactness
import FusedAttention.Proofs.Isolation

/-! Launches of one request in different tiles, without a law of the arithmetic. How a loop is cut into
tiles does not change the order of its additions, so a sum that is rounded once is the same sum in all
tiles; and a gradient of the keys is the same whether its sums stay in registers or are parked. -/
namespace FusedAttention

variable {α ε : Type} [Scalar α]

/-! ### Loops cut into tiles -/

namespace Tile

/-- The products of two runs of pairs, one run after the other. -/
theorem addProducts_add (m n : Nat) (a b : Nat → α) (start : α) :
    addProducts (m + n) a b start =
      addProducts n (fun s => a (m + s)) (fun s => b (m + s)) (addProducts m a b start) := by
  rw [addProducts, addProducts, addProducts, List.range_add, List.foldl_append, List.foldl_map]

/-- The products tile after tile are the products of all rows in order. -/
theorem addProducts_tiles {block : Nat} (hBlock : 0 < block) (total : Nat) (a b : Nat → α) (start : α) :
    (tileStarts 0 total block).foldl (fun sum first => addProducts (min block (total - first))
      (fun s => a (first + s)) (fun s => b (first + s)) sum) start = addProducts total a b start := by
  have hUpTo : ∀ n ≤ chunksOf total block, (List.range n).foldl (fun sum m =>
      addProducts (min block (total - m * block)) (fun s => a (m * block + s))
        (fun s => b (m * block + s)) sum) start = addProducts (min total (n * block)) a b start := by
    intro n hn
    induction n with
    | zero => rw [Nat.zero_mul, Nat.min_zero, List.range_zero, List.foldl_nil, addProducts]; rfl
    | succ n ih =>
        have hMore : n * block < total := (lt_chunksOf_iff hBlock).mp hn
        have hStep : (n + 1) * block = n * block + block := Nat.succ_mul n block
        have hRows : min total ((n + 1) * block) = n * block + min block (total - n * block) := by omega
        rw [List.range_succ, List.foldl_append, ih (by omega), List.foldl_cons, List.foldl_nil, hRows,
          addProducts_add, Nat.min_eq_right (Nat.le_of_lt hMore)]
  have hCover : total ≤ chunksOf total block * block := by
    rw [← alignUp_eq]
    exact le_alignUp hBlock
  have hAll := hUpTo _ (Nat.le_refl _)
  rw [Nat.min_eq_left hCover] at hAll
  rw [tileStarts, List.foldl_map]
  simpa only [Nat.zero_add, Nat.sub_zero] using hAll

end Tile

namespace UnitValues

variable (x : UnitValues α)

/-- The shares of all key tiles are the share of all keys at once. -/
theorem queryShare_tiles {block : Nat} (hBlock : 0 < block) (numKeys i c : Nat) (start : α) :
    (tileStarts 0 numKeys block).foldl (fun sum first =>
      x.queryShare first (min block (numKeys - first)) i c sum) start =
        x.queryShare 0 numKeys i c start := by
  simp only [queryShare, Nat.zero_add]
  exact Tile.addProducts_tiles hBlock numKeys (fun j => x.gradScore i j * x.scale) (x.key · c) start

/-- The shares of all query tiles are the share of all queries at once. -/
theorem keyShare_tiles {block : Nat} (hBlock : 0 < block) (side : KeySide) (numQueries j c : Nat)
    (start : α) :
    (tileStarts 0 numQueries block).foldl (fun sum first =>
      x.keyShare side first (min block (numQueries - first)) j c sum) start =
        x.keyShare side 0 numQueries j c start := by
  cases side with
  | keys =>
      simp only [keyShare, Nat.zero_add]
      exact Tile.addProducts_tiles hBlock numQueries (fun i => x.gradScore i j * x.scale) (x.query · c)
        start
  | values =>
      simp only [keyShare, Nat.zero_add]
      exact Tile.addProducts_tiles hBlock numQueries (x.weight · j) (x.gradOut · c) start

end UnitValues

variable [Element ε α]

namespace Kernel

variable {kernel : Kernel α ε} {x : UnitValues α}

/-! ### Results -/

omit [Scalar α] in
/-- Every element type but the wide one parks the sums of gradQ. -/
theorem Valid.gradQ_of_half (hValid : kernel.Valid) (hHalf : Element.dtype ε ≠ .f32) :
    kernel.plan.gradQ = .workspace := by
  rw [hValid.plan, Plan.of, Strategy.forOutput, if_neg (by rwa [beq_iff_eq])]

omit [Scalar α] in
/-- Gradients stay in registers for the element types that would park them otherwise. -/
theorem Valid.half_of_resident (hValid : kernel.Valid)
    (hResident : kernel.plan.outputInRegisters = true) : Element.dtype ε ≠ .f32 := by
  intro hWide
  rw [hValid.plan, hWide] at hResident
  cases hResident

/-- An entry of gradK or gradV that receives any share ends the same way wherever its sums are kept:
as an entry of gradQ does. -/
theorem keyResult_of_adds (hValid : kernel.Valid) {side : KeySide} {row col : Nat}
    (hSome : kernel.keyAdds x side row col ≠ []) :
    kernel.keyResult x side row col = kernel.plan.gradQ.total (kernel.keyAdds x side row col) := by
  have hNot : ¬ (kernel.keyAdds x side row col).isEmpty = true := by rwa [List.isEmpty_iff]
  cases hResident : kernel.plan.outputInRegisters with
  | true =>
      rw [keyResult, hResident, hValid.gradQ_of_half (hValid.half_of_resident hResident)]
      rfl
  | false =>
      rw [keyResult, hResident, ← strategy_eq hValid hResident side]
      exact if_neg hNot

/-- An entry without shares is zero: filled with it, or rounded from an accumulator that is still
zero. -/
theorem keyResult_of_no_adds (hProduct : (1 : α) * 0 = 0)
    (hRound : Element.round (0 : α) = (Element.zero (α := α) : ε)) {side : KeySide} {row col : Nat}
    (hNone : kernel.keyAdds x side row col = []) :
    kernel.keyResult x side row col = Element.zero (α := α) := by
  have hTotal : Strategy.workspace.total ([] : List (α → α)) = (Element.zero (α := α) : ε) := by
    rw [Strategy.total, List.foldl_nil, hProduct, hRound]
  rw [keyResult, hNone, hTotal]
  exact ite_self _

/-- An entry of gradQ of a half type is rounded once, from the products of all keys in order. -/
theorem queryResult_half (hValid : kernel.Valid) (hHalf : Element.dtype ε ≠ .f32) (row col : Nat) :
    kernel.queryResult x row col =
      Element.round (1 * x.queryShare 0 kernel.shape.numKeys row col 0) := by
  rw [queryResult, hValid.gradQ_of_half hHalf, Strategy.total, queryAdds, List.foldl_map, keyStarts,
    x.queryShare_tiles hValid.blockJ]

section FullAttention

variable (hValid : kernel.Valid) (hPolicy : kernel.policy = fullAttention)

include hValid hPolicy

omit [Scalar α] in
theorem queryStarts_fullAttention (keyStart : Nat) :
    kernel.queryStarts keyStart = tileStarts 0 kernel.shape.numQueries kernel.tiles.blockI := by
  rw [queryStarts, firstQuery_fullAttention hValid hPolicy]

/-- With full attention the shares of a key do not depend on the extent of its tile. -/
theorem keyAdds_fullAttention (side : KeySide) (row col : Nat) :
    kernel.keyAdds x side row col =
      (tileStarts 0 kernel.shape.numQueries kernel.tiles.blockI).map fun first =>
        x.keyShare side first (min kernel.tiles.blockI (kernel.shape.numQueries - first)) row col := by
  rw [keyAdds, queryStarts_fullAttention hValid hPolicy]
  rfl

theorem keyResult_fullAttention (side : KeySide) (row col : Nat) :
    kernel.keyResult x side row col = kernel.plan.gradQ.total
      ((tileStarts 0 kernel.shape.numQueries kernel.tiles.blockI).map fun first =>
        x.keyShare side first (min kernel.tiles.blockI (kernel.shape.numQueries - first)) row col) := by
  rw [← keyAdds_fullAttention hValid hPolicy]
  refine keyResult_of_adds hValid (List.ne_nil_of_length_pos ?_)
  rw [keyAdds_fullAttention hValid hPolicy, List.length_map, tileStarts, List.length_map,
    List.length_range]
  exact chunksOf_pos hValid.blockI hValid.numQueries

theorem biasShares_fullAttention (kind : BiasKind) (query key : Nat) :
    kernel.biasShares x kind query key =
      ((tileStarts 0 kernel.shape.numQueries kernel.tiles.blockI).filter
        (kind.meets (tileOf kernel.tiles.blockI query))).map fun first =>
          kind.share x first (min kernel.tiles.blockI (kernel.shape.numQueries - first)) query key := by
  rw [biasShares, queryStarts_fullAttention hValid hPolicy]
  rfl

/-- An entry of gradK or gradV of a half type is rounded once, from the products of all queries in
order. -/
theorem keyResult_half (hHalf : Element.dtype ε ≠ .f32) (side : KeySide) (row col : Nat) :
    kernel.keyResult x side row col =
      Element.round (1 * x.keyShare side 0 kernel.shape.numQueries row col 0) := by
  rw [keyResult_fullAttention hValid hPolicy, hValid.gradQ_of_half hHalf, Strategy.total,
    List.foldl_map, x.keyShare_tiles hValid.blockI]

end FullAttention

end Kernel

/-! ### Whole numbers in a half type -/

/-- A whole number as an element of a half type. -/
structure Whole where
  number : Int
  deriving DecidableEq, Repr

instance : Element Whole Int where
  dtype := .f16
  widen := Whole.number
  round := Whole.mk
  zero := ⟨0⟩

/-- Settings of a half type, in tiles of some size. -/
def Settings.half (t : TileSize) : Settings :=
  { blockI := t.blockI, blockJ := t.blockJ, maxHeadDim := t.maxHeadDim, dtype := .f16 }

/-- The request of ones in this element type. -/
def Request.halves (s : Shape) : Request Int Whole :=
  let request := Request.ones s
  let held (data : Array Int) (x : Int) : Array Whole := .replicate data.size ⟨x⟩
  { request with
    inputs :=
      { q := held request.inputs.q 1
        k := held request.inputs.k 1
        v := held request.inputs.v 1
        o := held request.inputs.o 0
        dO := held request.inputs.dO 1 }
    biases := request.biases.map fun bias => bias.map (held · 0) }

/-- Memory for such a request that holds one number everywhere. -/
def Memory.halves (s : Shape) (x : Int) (workspace : Nat) : Memory Int Whole :=
  let memory := Memory.filled s x
  { memory with
    grads := memory.grads.map fun data => .replicate data.size ⟨x⟩
    workspace := some (.replicate workspace x) }

/-- One unit with nine queries, and one row more than 32 keys. -/
def Shape.manyKeys : Shape :=
  ⟨1, 1, 9, 33, 1, 1, 1⟩

/-! ### Launches -/

/-- Two buffers hold the same number at a place. -/
def SameAt {τ : Type} (data data' : Array τ) (p : Nat) : Prop :=
  ∃ y, data[p]? = some y ∧ data'[p]? = some y

namespace Request

section Results

variable (request : Request α ε) (u : UnitCoord)

/-- Two memories hold the same Delta of a unit. -/
def SameDelta (after after' : Memory α ε) : Prop :=
  ∀ i < request.shape.numQueries, SameAt after.delta after'.delta
    (u.index request.shape.heads * request.shape.numQueries + i)

/-- Two memories hold the same gradQ of a unit. -/
def SameGradQ (after after' : Memory α ε) : Prop :=
  ∀ i < request.shape.numQueries, ∀ c < request.shape.headDim,
    SameAt after.grads.gradQ after'.grads.gradQ (request.gradLayouts.gradQ.address u i c)

/-- Two memories hold the same gradK or gradV of a unit. -/
def SameKeyGrad (side : KeySide) (after after' : Memory α ε) : Prop :=
  ∀ j < request.shape.numKeys, ∀ c < side.cols request.shape,
    SameAt (side.of after.grads) (side.of after'.grads)
      ((side.of request.gradLayouts).address u j c)

/-- The gradients of a unit are rounded once, each from one loop over all keys or all queries in order
that leaves out the factors of zero. -/
structure RoundsOnce (settings : Settings) (after : Memory α ε) : Prop where
  gradQ : ∀ i < request.shape.numQueries, ∀ c < request.shape.headDim,
    after.grads.gradQ[request.gradLayouts.gradQ.address u i c]? = some (Element.round
      (1 * ((request.kernel settings fullAttention).unitValues u).queryShare 0 request.shape.numKeys
        i c 0))
  keyGrads : ∀ side : KeySide, ∀ j < request.shape.numKeys, ∀ c < side.cols request.shape,
    (side.of after.grads)[(side.of request.gradLayouts).address u j c]? = some (Element.round
      (1 * ((request.kernel settings fullAttention).unitValues u).keyShare side 0
        request.shape.numQueries j c 0))

end Results

variable {request : Request α ε} {settings : Settings} {tiles : TileSize} {policy : QueryStart}
  {memory memory' after after' : Memory α ε} {u : UnitCoord}

theorem roundsOnce_of_effect
    (hEffect : (request.kernel settings fullAttention).LaunchEffect memory after)
    (hAccepted : request.Accepted settings memory) (hHalf : Element.dtype ε ≠ .f32)
    (hu : request.shape.HasUnit u) : request.RoundsOnce u settings after where
  gradQ i hi c hc := by
    have hValid := hAccepted.valid fullAttention
    have hEntry := hEffect.gradQ_at hValid rfl (hAccepted.holds fullAttention) hu hi hc
    rw [Kernel.queryResult_half hValid hHalf] at hEntry
    exact hEntry
  keyGrads side j hj c hc := by
    have hEntry := hEffect.keyGrads side u hu j hj c hc
    rw [Kernel.keyResult_half (hAccepted.valid fullAttention) rfl hHalf] at hEntry
    exact hEntry

/-- The mask of dropout is read by the same words in both tilings: in parts of rows of one length, or
with places that fit 64 bits. -/
def SameMask (request : Request α ε) (settings : Settings) (tiles : TileSize) : Prop :=
  tiles.blockJ = settings.blockJ ∨
    (settings.dropout.isEnabled = true → settings.dropout.Fits request.shape)

/-- Under the same mask the tiles make no difference to the numbers of a unit, Delta apart. -/
theorem agreeOn_of_tiles (hMask : request.SameMask settings tiles) (hu : request.shape.HasUnit u)
    (policy : QueryStart) :
    UnitValues.AgreeOn (· < request.shape.numQueries) (· < request.shape.numKeys)
      { (request.kernel (settings.withTiles tiles) policy).unitValues u with
        delta := (request.kernel settings policy).delta u }
      ((request.kernel settings policy).unitValues u) where
  headDim := rfl
  headDimValue := rfl
  scale := rfl
  mask i j hi hj := by
    show (settings.dropout.mask request.shape u tiles.blockJ : Option (Nat → Nat → α)).map (· i j) =
      (settings.dropout.mask request.shape u settings.blockJ).map (· i j)
    rcases hMask with hSame | hFits
    · rw [hSame]
    · rw [Dropout.mask_eq_entry hFits hu.1 hu.2 hi hj, Dropout.mask_eq_entry hFits hu.1 hu.2 hi hj]
  query _ _ _ _ := rfl
  gradOut _ _ _ _ := rfl
  lse _ _ := rfl
  delta _ _ := rfl
  key _ _ _ _ := rfl
  value _ _ _ _ := rfl
  biases _ _ _ _ := rfl

/-- The kernels of two launches that the tiles alone tell apart, and what the launches do. -/
structure TilesPair (request : Request α ε) (settings : Settings) (tiles : TileSize)
    (policy : QueryStart) (memory after memory' after' : Memory α ε) : Prop where
  accepted : request.Accepted settings memory
  accepted' : request.Accepted (settings.withTiles tiles) memory'
  effect : (request.kernel settings policy).LaunchEffect memory after
  effect' : (request.kernel (settings.withTiles tiles) policy).LaunchEffect memory' after'

namespace TilesPair

/-- Two launches that pass the checks run, if no sum of positions stops them, and make a pair. -/
theorem of_checks (hCheck : request.check settings memory = .ok ())
    (hCheck' : request.check (settings.withTiles tiles) memory' = .ok ())
    (hSums : settings.SumsPass request.shape) (policy : QueryStart) :
    ∃ after after', request.launch settings policy memory =
        (.ok (request.report settings memory), after) ∧
      request.launch (settings.withTiles tiles) policy memory' =
        (.ok (request.report (settings.withTiles tiles) memory'), after') ∧
      request.TilesPair settings tiles policy memory after memory' after' := by
  obtain ⟨after, -, hLaunch, hEffect⟩ := launch_spec hCheck hSums policy
  obtain ⟨after', -, hLaunch', hEffect'⟩ := launch_spec hCheck' hSums policy
  exact ⟨after, after', hLaunch, hLaunch', accepted_of_check hCheck, accepted_of_check hCheck',
    hEffect, hEffect'⟩

variable (hPair : request.TilesPair settings tiles policy memory after memory' after')

include hPair

/-- Delta looks at the number of query rows in a tile, and at nothing else of the tiles. -/
theorem sameDelta (hI : tiles.blockI = settings.blockI) (hu : request.shape.HasUnit u) :
    request.SameDelta u after after' := by
  intro i hi
  obtain ⟨blockI, blockJ, maxHeadDim⟩ := tiles
  obtain rfl : blockI = settings.blockI := hI
  exact ⟨_, hPair.effect.delta u hu i hi, hPair.effect'.delta u hu i hi⟩

theorem sameKeyGrad {side : KeySide} (hu : request.shape.HasUnit u)
    (hResults : ∀ j < request.shape.numKeys, ∀ c < side.cols request.shape,
      (request.kernel (settings.withTiles tiles) policy).keyResult
          ((request.kernel (settings.withTiles tiles) policy).unitValues u) side j c =
        (request.kernel settings policy).keyResult ((request.kernel settings policy).unitValues u)
          side j c) :
    request.SameKeyGrad u side after after' := by
  intro j hj c hc
  have hEntry := hPair.effect'.keyGrads side u hu j hj c hc
  rw [hResults j hj c hc] at hEntry
  exact ⟨_, hPair.effect.keyGrads side u hu j hj c hc, hEntry⟩

theorem sameGradQ (hPolicy : policy = fullAttention) (hu : request.shape.HasUnit u)
    (hResults : ∀ i < request.shape.numQueries, ∀ c < request.shape.headDim,
      (request.kernel (settings.withTiles tiles) policy).queryResult
          ((request.kernel (settings.withTiles tiles) policy).unitValues u) i c =
        (request.kernel settings policy).queryResult ((request.kernel settings policy).unitValues u)
          i c) :
    request.SameGradQ u after after' := by
  intro i hi c hc
  have hEntry := hPair.effect'.gradQ_at (hPair.accepted'.valid policy) hPolicy
    (hPair.accepted'.holds policy) hu hi hc
  rw [hResults i hi c hc] at hEntry
  exact ⟨_, hPair.effect.gradQ_at (hPair.accepted.valid policy) hPolicy (hPair.accepted.holds policy)
    hu hi hc, hEntry⟩

theorem sameBiasGrads (hShares : ∀ kind u, request.shape.HasUnit u →
      ∀ i < request.shape.numQueries, ∀ j < request.shape.numKeys,
        (request.kernel (settings.withTiles tiles) policy).biasShares
            ((request.kernel (settings.withTiles tiles) policy).unitValues u) kind i j =
          (request.kernel settings policy).biasShares
            ((request.kernel settings policy).unitValues u) kind i j) (kind : BiasKind) (p : Nat)
    (hBefore : memory'.biasGrads.at? kind p = memory.biasGrads.at? kind p) :
    after'.biasGrads.at? kind p = after.biasGrads.at? kind p := by
  refine hPair.effect.biasGrads_at hPair.effect' rfl (fun u _ i hi j hj => ?_) hBefore
  refine List.flatMap_congr fun u' hMem => ?_
  exact hShares kind u' (Shape.mem_unitCoords.mp (List.mem_filter.mp hMem).1) i hi j hj

end TilesPair

/-- With full attention, tiles with as many query rows make the same additions for every key. -/
theorem results_of_queryRows (hAccepted : request.Accepted settings memory)
    (hAccepted' : request.Accepted (settings.withTiles tiles) memory')
    (hI : tiles.blockI = settings.blockI) :
    ((request.kernel (settings.withTiles tiles) fullAttention).keyResult =
        (request.kernel settings fullAttention).keyResult) ∧
      (request.kernel (settings.withTiles tiles) fullAttention).biasShares =
        (request.kernel settings fullAttention).biasShares := by
  have hValid := hAccepted.valid fullAttention
  have hValid' := hAccepted'.valid fullAttention
  obtain ⟨blockI, blockJ, maxHeadDim⟩ := tiles
  obtain rfl : blockI = settings.blockI := hI
  constructor
  · funext x side row col
    rw [Kernel.keyResult_fullAttention hValid rfl, Kernel.keyResult_fullAttention hValid' rfl]
    rfl
  · funext x kind query key
    rw [Kernel.biasShares_fullAttention hValid rfl, Kernel.biasShares_fullAttention hValid' rfl]
    rfl

/-- Two accepted launches of one request with full attention whose tiles alone differ, where no sum of
stream positions stops either. Of a half type, every gradient is rounded once from one loop in order, over
the mask that the launch reads. If both launches read the mask by the same words, then with as many query
rows in a tile Delta, gradK, gradV and what is added to the bias gradients are the same to the bit, and so
is gradQ of a half type; and of a half type gradV is the same in all tiles. No law of the arithmetic is
used. -/
theorem partition_irrelevant (hCheck : request.check settings memory = .ok ())
    (hCheck' : request.check (settings.withTiles tiles) memory' = .ok ())
    (hSums : settings.SumsPass request.shape) :
    ∃ after after', request.launch settings fullAttention memory =
        (.ok (request.report settings memory), after) ∧
      request.launch (settings.withTiles tiles) fullAttention memory' =
        (.ok (request.report (settings.withTiles tiles) memory'), after') ∧
      (Element.dtype ε ≠ .f32 → ∀ u, request.shape.HasUnit u →
        request.RoundsOnce u settings after ∧ request.RoundsOnce u (settings.withTiles tiles) after') ∧
      (tiles.blockI = settings.blockI → ∀ u, request.shape.HasUnit u →
        request.SameDelta u after after') ∧
      (request.SameMask settings tiles →
        (tiles.blockI = settings.blockI →
          (∀ kind p, memory'.biasGrads.at? kind p = memory.biasGrads.at? kind p →
            after'.biasGrads.at? kind p = after.biasGrads.at? kind p) ∧
          ∀ u, request.shape.HasUnit u →
            (∀ side, request.SameKeyGrad u side after after') ∧
            (Element.dtype ε ≠ .f32 → request.SameGradQ u after after')) ∧
        (Element.dtype ε ≠ .f32 → ∀ u, request.shape.HasUnit u →
          request.SameKeyGrad u .values after after')) := by
  obtain ⟨after, after', hLaunch, hLaunch', hPair⟩ :=
    TilesPair.of_checks hCheck hCheck' hSums fullAttention
  have hValid := hPair.accepted.valid fullAttention
  have hValid' := hPair.accepted'.valid fullAttention
  refine ⟨after, after', hLaunch, hLaunch', fun hHalf u hu => ?_, fun hI u hu => hPair.sameDelta hI hu,
    fun hMask => ⟨fun hI => ?_, fun hHalf u hu => ?_⟩⟩
  · exact ⟨roundsOnce_of_effect hPair.effect hPair.accepted hHalf hu,
      roundsOnce_of_effect hPair.effect' hPair.accepted' hHalf hu⟩
  · obtain ⟨hKeys, hBiases⟩ := results_of_queryRows hPair.accepted hPair.accepted' hI
    have hNumbers : ∀ u, request.shape.HasUnit u →
        UnitValues.AgreeOn (· < request.shape.numQueries) (· < request.shape.numKeys)
          ((request.kernel (settings.withTiles tiles) fullAttention).unitValues u)
          ((request.kernel settings fullAttention).unitValues u) := by
      intro u hu
      obtain ⟨blockI, blockJ, maxHeadDim⟩ := tiles
      obtain rfl : blockI = settings.blockI := hI
      exact agreeOn_of_tiles hMask hu fullAttention
    constructor
    · apply hPair.sameBiasGrads
      intro kind u hu i hi j hj
      rw [hBiases]
      exact Kernel.biasShares_congr hValid kind (hNumbers u hu) hi hj
    · intro u hu
      refine ⟨fun side => ?_, fun hHalf => ?_⟩
      · apply hPair.sameKeyGrad hu
        intro j hj c hc
        rw [hKeys]
        refine Kernel.keyResult_congr hValid (hNumbers u hu) hj side ?_
        cases side with
        | keys => exact hc
        | values => exact hc
      · apply hPair.sameGradQ rfl hu
        intro i hi c hc
        rw [Kernel.queryResult_half hValid hHalf, Kernel.queryResult_half hValid' hHalf]
        have hKeysIn : ∀ j < request.shape.numKeys, 0 + j < request.shape.numKeys := by omega
        have hShare := (hNumbers u hu).queryShare_eq hi hKeysIn hc
        exact congrArg (fun share => (Element.round (1 * share 0) : ε)) hShare
  · apply hPair.sameKeyGrad hu
    intro j hj c hc
    -- The probabilities do not look at Delta, which is the one number that depends on the query rows.
    rw [Kernel.keyResult_half hValid rfl hHalf, Kernel.keyResult_half hValid' rfl hHalf]
    have hNumbers := agreeOn_of_tiles hMask hu fullAttention
    have hQueriesIn : ∀ i < request.shape.numQueries, 0 + i < request.shape.numQueries := by omega
    have hShare : UnitValues.keyShare _ .values 0 request.shape.numQueries j c = _ :=
      hNumbers.keyShare_eq hj hQueriesIn hc
    exact congrArg (fun share => (Element.round (1 * share 0) : ε)) hShare

/-- Key tiles of 32 rows, of which there are two, and of 64, of which there is one that needs no slots
for gradQ. -/
theorem partition_halves :
    (Request.halves .manyKeys).check (.half ⟨64, 32, 32⟩) (.halves .manyKeys 5 2048) = .ok () ∧
      (Request.halves .manyKeys).check (.half ⟨64, 64, 32⟩) (.halves .manyKeys 6 0) = .ok () ∧
      (Settings.half ⟨64, 32, 32⟩).SumsPass .manyKeys ∧
      ∃ report after report' after', (Request.halves .manyKeys).launch (.half ⟨64, 32, 32⟩)
          fullAttention (.halves .manyKeys 5 2048) = (.ok report, after) ∧
        (Request.halves .manyKeys).launch (.half ⟨64, 64, 32⟩) fullAttention
          (.halves .manyKeys 6 0) = (.ok report', after') ∧
        after.grads.gradQ[0]? = some ⟨66⟩ ∧ after'.grads.gradQ[0]? = some ⟨66⟩ := by
  have hCheck : (Request.halves .manyKeys).check (.half ⟨64, 32, 32⟩) (.halves .manyKeys 5 2048) =
      .ok () := (Check.eq_ok_iff_isOk _).mpr (by decide +kernel)
  have hCheck' : (Request.halves .manyKeys).check ((Settings.half ⟨64, 32, 32⟩).withTiles ⟨64, 64, 32⟩)
      (.halves .manyKeys 6 0) = .ok () := (Check.eq_ok_iff_isOk _).mpr (by decide +kernel)
  have hSums : (Settings.half ⟨64, 32, 32⟩).SumsPass .manyKeys := by decide
  refine ⟨hCheck, hCheck', hSums, ?_⟩
  obtain ⟨after, after', hLaunch, hLaunch', hHalf, -, hSame⟩ :=
    Request.partition_irrelevant hCheck hCheck' hSums
  have hUnit : Shape.manyKeys.HasUnit ⟨0, 0⟩ := ⟨by decide, by decide⟩
  obtain ⟨hOnce, -⟩ := hHalf (by decide) ⟨0, 0⟩ hUnit
  have hMask : (Request.halves .manyKeys).SameMask (.half ⟨64, 32, 32⟩) ⟨64, 64, 32⟩ :=
    .inr fun _ => by decide
  obtain ⟨-, hUnits⟩ := (hSame hMask).1 rfl
  obtain ⟨-, hSameQ⟩ := hUnits ⟨0, 0⟩ hUnit
  have hValue : after.grads.gradQ[0]? = some ⟨66⟩ :=
    (hOnce.gradQ 0 (by decide) 0 (by decide)).trans (by decide +kernel)
  obtain ⟨y, hy, hy'⟩ := hSameQ (by decide) 0 (by decide) 0 (by decide)
  exact ⟨_, after, _, after', hLaunch, hLaunch', hValue, hy'.trans (hy.symm.trans hValue)⟩

/-- Two accepted launches of one request under one policy whose largest head dimension alone differs, so
that gradK and gradV can stay in registers in one and be parked in the other, where no sum of stream
positions stops either. Delta, gradK, gradV and what is added to the bias gradients are the same to the
bit, and with full attention so is gradQ. -/
theorem residence_irrelevant (hProduct : (1 : α) * 0 = 0)
    (hRound : Element.round (0 : α) = (Element.zero (α := α) : ε)) {maxHeadDim : Nat}
    (hCheck : request.check settings memory = .ok ())
    (hCheck' : request.check { settings with maxHeadDim } memory' = .ok ())
    (hSums : settings.SumsPass request.shape) (policy : QueryStart) :
    ∃ after after', request.launch settings policy memory =
        (.ok (request.report settings memory), after) ∧
      request.launch { settings with maxHeadDim } policy memory' =
        (.ok (request.report { settings with maxHeadDim } memory'), after') ∧
      (∀ kind p, memory'.biasGrads.at? kind p = memory.biasGrads.at? kind p →
        after'.biasGrads.at? kind p = after.biasGrads.at? kind p) ∧
      ∀ u, request.shape.HasUnit u → request.SameDelta u after after' ∧
        (∀ side, request.SameKeyGrad u side after after') ∧
        (policy = fullAttention → request.SameGradQ u after after') := by
  have hTiles : request.check
      (settings.withTiles ⟨settings.blockI, settings.blockJ, maxHeadDim⟩) memory' = .ok () := hCheck'
  obtain ⟨after, after', hLaunch, hLaunch', hPair⟩ := TilesPair.of_checks hCheck hTiles hSums policy
  have hValid := hPair.accepted.valid policy
  have hValid' := hPair.accepted'.valid policy
  refine ⟨after, after', hLaunch, hLaunch', hPair.sameBiasGrads fun _ _ _ _ _ _ _ => rfl,
    fun u hu => ?_⟩
  refine ⟨hPair.sameDelta rfl hu, fun side => ?_, fun hFull => hPair.sameGradQ hFull hu fun _ _ _ _ => rfl⟩
  apply hPair.sameKeyGrad hu
  intro j _ c _
  have hAdds : (request.kernel { settings with maxHeadDim } policy).keyAdds
        ((request.kernel { settings with maxHeadDim } policy).unitValues u) side j c =
      (request.kernel settings policy).keyAdds ((request.kernel settings policy).unitValues u)
        side j c := rfl
  by_cases hNone : (request.kernel settings policy).keyAdds
      ((request.kernel settings policy).unitValues u) side j c = []
  · exact (Kernel.keyResult_of_no_adds hProduct hRound (hAdds.trans hNone)).trans
      (Kernel.keyResult_of_no_adds hProduct hRound hNone).symm
  · exact (Kernel.keyResult_of_adds hValid' (hAdds.trans_ne hNone)).trans
      (Kernel.keyResult_of_adds hValid hNone).symm

/-- In tiles of 32 queries and keys, the gradients of 32 columns stay in registers and those of 64 are
parked. The second key tile attends to no query: its rows are rounded from accumulators of zero in one
launch and filled with zeros in the other. -/
theorem residence_halves :
    (1 : Int) * 0 = 0 ∧ Element.round (0 : Int) = (Element.zero (α := Int) : Whole) ∧
      (Request.halves .manyKeys).check (.half ⟨32, 32, 32⟩) (.halves .manyKeys 5 1024) = .ok () ∧
      (Request.halves .manyKeys).check (.half ⟨32, 32, 64⟩) (.halves .manyKeys 6 5120) = .ok () ∧
      (Settings.half ⟨32, 32, 32⟩).SumsPass .manyKeys ∧
      ∃ report after report' after', (Request.halves .manyKeys).launch (.half ⟨32, 32, 32⟩)
          (.ofList 32 [0] 9) (.halves .manyKeys 5 1024) = (.ok report, after) ∧
        (Request.halves .manyKeys).launch (.half ⟨32, 32, 64⟩) (.ofList 32 [0] 9)
          (.halves .manyKeys 6 5120) = (.ok report', after') ∧
        report.plan.outputInRegisters = true ∧ report'.plan.outputInRegisters = false ∧
        SameAt after.grads.gradK after'.grads.gradK 0 ∧
        SameAt after.grads.gradK after'.grads.gradK 128 := by
  have hCheck : (Request.halves .manyKeys).check (.half ⟨32, 32, 32⟩) (.halves .manyKeys 5 1024) =
      .ok () := (Check.eq_ok_iff_isOk _).mpr (by decide +kernel)
  have hCheck' : (Request.halves .manyKeys).check (.half ⟨32, 32, 64⟩) (.halves .manyKeys 6 5120) =
      .ok () := (Check.eq_ok_iff_isOk _).mpr (by decide +kernel)
  have hSums : (Settings.half ⟨32, 32, 32⟩).SumsPass .manyKeys := by decide
  refine ⟨rfl, rfl, hCheck, hCheck', hSums, ?_⟩
  obtain ⟨after, after', hLaunch, hLaunch', -, hUnits⟩ :=
    Request.residence_irrelevant rfl rfl hCheck hCheck' hSums (.ofList 32 [0] 9)
  obtain ⟨-, hKeys, -⟩ := hUnits ⟨0, 0⟩ ⟨by decide, by decide⟩
  exact ⟨_, after, _, after', hLaunch, hLaunch', rfl, rfl, hKeys .keys 0 (by decide) 0 (by decide),
    hKeys .keys 32 (by decide) 0 (by decide)⟩

end Request

end FusedAttention
