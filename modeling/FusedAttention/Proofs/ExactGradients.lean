import Mathlib
import FusedAttention.Proofs.Formulas

/-! What a launch leaves in gradK, gradV and the bias gradients, in exact arithmetic and under any
policy: the sums over the tiles are the sums of the formulas. -/
namespace FusedAttention

open Finset

variable {α ε : Type} [ExactScalar α] [Element ε α]

namespace UnitValues

variable (x : UnitValues α)

/-- What one query adds to an entry of gradK or gradV. -/
def keyTerm (side : KeySide) (i j c : Nat) : α :=
  match side with
  | .keys => x.gradScore i j * x.scale * x.query i c
  | .values => x.weight i j * x.gradOut i c

theorem keyShare_eq (side : KeySide) (queryStart rows j c : Nat) (y : α) :
    x.keyShare side queryStart rows j c y =
      y + ∑ i ∈ range rows, x.keyTerm side (queryStart + i) j c := by
  cases side with
  | keys => exact Tile.addProducts_eq rows _ _ y
  | values => exact Tile.addProducts_eq rows _ _ y

/-- What one key adds to an entry of gradQ. -/
theorem queryShare_eq (keyStart rows i c : Nat) (y : α) :
    x.queryShare keyStart rows i c y =
      y + ∑ j ∈ range rows, x.gradScore i (keyStart + j) * x.scale * x.key (keyStart + j) c :=
  Tile.addProducts_eq rows _ _ y

end UnitValues

namespace Kernel

variable {kernel : Kernel α ε} {x : UnitValues α}

omit [ExactScalar α] in
/-- Only sums of the wide type are kept in the elements themselves. -/
theorem Valid.wide_of_inPlace (hValid : kernel.Valid)
    (hInPlace : kernel.plan.gradQ.usesWorkspace = false) : Element.dtype ε = .f32 := by
  rw [hValid.plan] at hInPlace
  by_contra hDType
  simp [Plan.of, Strategy.forOutput, Strategy.usesWorkspace, hDType] at hInPlace

/-- A sum over the query tiles of a key tile is the sum over the queries that it attends to. -/
theorem sum_queryStarts (hValid : kernel.Valid) (keyStart : Nat) (f : Nat → α) :
    ((kernel.queryStarts keyStart).map fun queryStart =>
      ∑ i ∈ range (kernel.extent queryStart keyStart).rowsI, f (queryStart + i)).sum =
        ∑ i ∈ Ico (kernel.firstQuery keyStart) kernel.shape.numQueries, f i :=
  sum_tiles hValid.blockI f

/-- An entry of gradK or gradV is rounded once, from the sum over all queries that its key tile
attends to. -/
theorem keyResult_eq [ExactElement ε] (hValid : kernel.Valid) (side : KeySide) (j c : Nat) :
    kernel.keyResult x side j c = Element.round
      (∑ i ∈ Ico (kernel.firstQuery (tileOf kernel.tiles.blockJ j)) kernel.shape.numQueries,
        x.keyTerm side i j c) := by
  have hTotal : ∀ s : Strategy, (s.usesWorkspace = false → Element.dtype ε = .f32) →
      (s.total (kernel.keyAdds x side j c) : ε) = Element.round
        (∑ i ∈ Ico (kernel.firstQuery (tileOf kernel.tiles.blockJ j)) kernel.shape.numQueries,
          x.keyTerm side i j c) := by
    intro s hWide
    rw [← sum_queryStarts hValid]
    exact Strategy.total_eq hWide fun queryStart _ y => x.keyShare_eq side queryStart _ j c y
  unfold keyResult
  dsimp only
  by_cases hResident : kernel.plan.outputInRegisters = true
  · rw [if_pos hResident]
    exact hTotal .workspace fun h => (nomatch h)
  · rw [if_neg hResident]
    have hStored := Bool.eq_false_iff.mpr hResident
    split
    · rename_i hEmpty
      have h := hTotal .workspace fun h => (nomatch h)
      rw [List.isEmpty_iff.mp hEmpty, Strategy.total, List.foldl_nil, mul_zero] at h
      rw [← h, ExactElement.round_zero]
    · rw [strategy_eq hValid hStored side]
      exact hTotal kernel.plan.gradQ hValid.wide_of_inPlace

/-- An entry of the gradient of the key mask receives the score gradients of all queries that its
key tile attends to, one of the pair bias that of its own query. -/
theorem sum_biasShares (hValid : kernel.Valid) (kind : BiasKind) {i : Nat}
    (hi : i < kernel.shape.numQueries) (j : Nat) :
    (kernel.biasShares x kind i j).sum = match kind with
      | .keyMask => ∑ i' ∈ Ico (kernel.firstQuery (tileOf kernel.tiles.blockJ j))
          kernel.shape.numQueries, x.gradScore i' j
      | .pairBias => if kernel.attends i j = true then x.gradScore i j else 0 := by
  cases kind with
  | keyMask =>
      have hAll : (kernel.queryStarts (tileOf kernel.tiles.blockJ j)).filter
          (BiasKind.keyMask.meets (tileOf kernel.tiles.blockI i)) =
            kernel.queryStarts (tileOf kernel.tiles.blockJ j) :=
        List.filter_eq_self.mpr fun _ _ => rfl
      dsimp only [biasShares]
      rw [hAll, ← sum_queryStarts hValid]
      refine congrArg List.sum (List.map_congr_left fun queryStart _ => ?_)
      rw [BiasKind.share, foldl_add, zero_add, sum_map_range]
  | pairBias =>
      have hOwn : (kernel.queryStarts (tileOf kernel.tiles.blockJ j)).filter
          (BiasKind.pairBias.meets (tileOf kernel.tiles.blockI i)) =
            (kernel.queryStarts (tileOf kernel.tiles.blockJ j)).filter
              (· == tileOf kernel.tiles.blockI i) := by
        refine List.filter_congr fun queryStart _ => ?_
        show (tileOf kernel.tiles.blockI i == queryStart) = (queryStart == tileOf kernel.tiles.blockI i)
        exact BEq.comm
      have hMem : kernel.attends i j = true ↔
          tileOf kernel.tiles.blockI i ∈ kernel.queryStarts (tileOf kernel.tiles.blockJ j) := by
        rw [attends, decide_eq_true_eq, tileOf_mem_queryStarts hValid hi]
      have hNodup : (kernel.queryStarts (tileOf kernel.tiles.blockJ j)).Nodup :=
        nodup_tileStarts hValid.blockI
      dsimp only [biasShares]
      rw [hOwn, List.filter_beq]
      by_cases hAttends : kernel.attends i j = true
      · rw [if_pos hAttends, List.count_eq_one_of_mem hNodup (hMem.mp hAttends)]
        exact List.sum_singleton
      · rw [if_neg hAttends, List.count_eq_zero.mpr (mt hMem.mpr hAttends)]
        rfl

/-! ### Sums of the formulas -/

omit [ExactScalar α] in
/-- A key tile attends to a query just if the first tile it attends to does not come after it. -/
theorem attends_iff (hValid : kernel.Valid) {i : Nat} (hi : i < kernel.shape.numQueries) (j : Nat) :
    kernel.attends i j = true ↔ kernel.firstQuery (tileOf kernel.tiles.blockJ j) ≤ i := by
  rw [attends, decide_eq_true_eq]
  constructor
  · intro h
    exact Nat.le_trans h (tileOf_le kernel.tiles.blockI i)
  · intro h
    obtain ⟨n, hn⟩ := firstQueryTile_of_lt (Nat.lt_of_le_of_lt h hi)
    rw [firstQuery] at h ⊢
    rw [hn] at h ⊢
    exact Nat.mul_le_mul_right _ ((Nat.le_div_iff_mul_le hValid.blockI).mpr h)

/-- A sum over the queries that a key tile attends to, as a sum over all queries with zeros. -/
theorem sum_attended (hValid : kernel.Valid) (j : Nat) {f g : Nat → α}
    (hSame : ∀ i < kernel.shape.numQueries, kernel.attends i j = true → f i = g i)
    (hZero : ∀ i, kernel.attends i j ≠ true → g i = 0) :
    ∑ i ∈ Ico (kernel.firstQuery (tileOf kernel.tiles.blockJ j)) kernel.shape.numQueries, f i =
      ∑ i ∈ range kernel.shape.numQueries, g i := by
  have hAttended : ∀ i ∈ Ico (kernel.firstQuery (tileOf kernel.tiles.blockJ j))
      kernel.shape.numQueries, f i = g i := by
    intro i hi
    obtain ⟨hFirst, hLast⟩ := mem_Ico.mp hi
    exact hSame i hLast ((attends_iff hValid hLast j).mpr hFirst)
  rw [sum_congr rfl hAttended]
  refine sum_subset (fun i hi => mem_range.mpr (mem_Ico.mp hi).2) fun i hi hOutside => hZero i ?_
  intro hAttends
  have hLast := mem_range.mp hi
  exact hOutside (mem_Ico.mpr ⟨(attends_iff hValid hLast j).mp hAttends, hLast⟩)

end Kernel

namespace Formula

variable {request : Request α ε} {settings : Settings} {policy : QueryStart} {u : UnitCoord}

theorem prob_eq_zero {attends : Nat → Nat → Bool} {i j : Nat} (h : attends i j ≠ true) :
    prob request settings attends u i j = 0 :=
  if_neg h

theorem gradScore_eq_zero {attends : Nat → Nat → Bool} {i j : Nat} (h : attends i j ≠ true) :
    gradScore request settings attends u i j = 0 := by
  rw [gradScore, prob_eq_zero h, zero_mul]

/-- The sum of a key tile's gradient is the one of the formula. -/
theorem sum_keyTerm (hValid : (request.kernel settings policy).Valid)
    (hReads : (request.kernel settings policy).Reads u) (side : KeySide) (j c : Nat) :
    ∑ i ∈ Ico ((request.kernel settings policy).firstQuery (tileOf settings.blockJ j))
        request.shape.numQueries, ((request.kernel settings policy).unitValues u).keyTerm side i j c =
      keyGrad request settings (request.kernel settings policy).attends u side j c := by
  cases side with
  | keys =>
      rw [keyGrad, gradK, mul_sum]
      refine Kernel.sum_attended hValid j (fun i hi hAttends => ?_) fun i hNot => ?_
      · rw [UnitValues.keyTerm, gradScore_eq hReads hi hAttends]
        exact (mul_assoc _ _ _).trans (mul_left_comm _ _ _)
      · rw [gradScore_eq_zero hNot, zero_mul, mul_zero]
  | values =>
      rw [keyGrad, gradV]
      refine Kernel.sum_attended hValid j (fun i hi hAttends => ?_) fun i hNot => ?_
      · rw [UnitValues.keyTerm, weight_eq hAttends]
        rfl
      · rw [prob_eq_zero hNot, zero_mul, zero_mul]

end Formula

end FusedAttention
