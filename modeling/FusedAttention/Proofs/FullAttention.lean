import FusedAttention.Proofs.Pairs
import FusedAttention.Proofs.Units

/-! Full attention: every key tile visits every query tile, the first in the first place and the last
in the last. So an entry of gradQ is the total of the shares of all key tiles, and nothing is left of
what it or its slot held before. -/
namespace FusedAttention

variable {α ε : Type} [Scalar α] [Element ε α]

/-- A visit that is the first and the last does not look at the slot. -/
theorem Strategy.visitEntry_single (s : Strategy) (slotted : Bool) (add : α → α) (e : Entry α ε) :
    s.visitEntry slotted ⟨true, true⟩ add e = s.visitEntry true ⟨true, true⟩ add e := by
  simp [visitEntry]

namespace Kernel

variable {kernel : Kernel α ε}

omit [Scalar α] in
theorem firstQuery_fullAttention (hValid : kernel.Valid) (hPolicy : kernel.policy = fullAttention)
    (keyStart : Nat) : kernel.firstQuery keyStart = 0 := by
  have hQueries := hValid.numQueries
  rw [firstQuery, hPolicy, firstQueryTile, fullAttention, if_neg (by omega), Nat.zero_div,
    Nat.zero_mul]

/-- What the key tiles add to an entry of gradQ, in order. -/
def queryAdds (kernel : Kernel α ε) (x : UnitValues α) (row col : Nat) : List (α → α) :=
  kernel.keyStarts.map fun keyStart =>
    x.queryShare keyStart (min kernel.tiles.blockJ (kernel.shape.numKeys - keyStart)) row col

/-- What a launch with full attention leaves in an entry of gradQ. -/
def queryResult (kernel : Kernel α ε) (x : UnitValues α) (row col : Nat) : ε :=
  kernel.plan.gradQ.total (kernel.queryAdds x row col)

omit [Scalar α] in
/-- The flags of a query tile mark the first and the last of all key tiles. -/
theorem queryVisit_fullAttention (hValid : kernel.Valid) (hPolicy : kernel.policy = fullAttention)
    (queryStart : Nat) {n : Nat} (hn : n < chunksOf kernel.shape.numKeys kernel.tiles.blockJ) :
    kernel.queryVisit queryStart (n * kernel.tiles.blockJ) =
      ⟨n = 0, n + 1 = chunksOf kernel.shape.numKeys kernel.tiles.blockJ⟩ := by
  have hBlockI := hValid.blockI
  have hMore : n + 1 < chunksOf kernel.shape.numKeys kernel.tiles.blockJ ↔
      (n + 1) * kernel.tiles.blockJ < kernel.shape.numKeys := lt_chunksOf_iff hValid.blockJ
  have hStep : (n + 1) * kernel.tiles.blockJ = n * kernel.tiles.blockJ + kernel.tiles.blockJ :=
    Nat.succ_mul n kernel.tiles.blockJ
  have hNext : kernel.following kernel.shape.numQueries (n * kernel.tiles.blockJ) =
      (0, (n + 1) * kernel.tiles.blockJ) := by
    rw [following, nextIteration, if_neg (by omega), hStep]
    exact congrArg (·, _) (firstQuery_fullAttention hValid hPolicy _)
  have hFirst : n * kernel.tiles.blockJ = 0 ↔ n = 0 := by
    rw [Nat.mul_eq_zero, or_iff_left (Nat.ne_of_gt hValid.blockJ)]
  have hLast : kernel.shape.numKeys ≤ (n + 1) * kernel.tiles.blockJ ↔
      n + 1 = chunksOf kernel.shape.numKeys kernel.tiles.blockJ := by omega
  rw [queryVisit, hNext]
  simp only [hFirst, hLast, Nat.not_lt_zero, decide_false, Bool.false_or]

/-- With full attention, the visits to an entry of gradQ leave its total. -/
theorem queryVisits_fullAttention (hValid : kernel.Valid) (hPolicy : kernel.policy = fullAttention)
    (x : UnitValues α) (row col : Nat) (e : Entry α ε) :
    (kernel.queryVisits x row col e).target = kernel.queryResult x row col := by
  have hAll : kernel.keyStarts.filter
      (fun keyStart => decide (kernel.firstQuery keyStart ≤ tileOf kernel.tiles.blockI row)) =
        kernel.keyStarts := by
    refine List.filter_eq_self.mpr fun keyStart _ => decide_eq_true ?_
    rw [firstQuery_fullAttention hValid hPolicy]
    exact Nat.zero_le _
  have hCount := chunksOf_pos hValid.blockJ hValid.numKeys
  have hStarts : kernel.keyStarts =
      (List.range (chunksOf kernel.shape.numKeys kernel.tiles.blockJ)).map
        (· * kernel.tiles.blockJ) := by
    rw [keyStarts, tileStarts]
    simp only [Nat.sub_zero, Nat.zero_add]
  have hVisit : ∀ n < chunksOf kernel.shape.numKeys kernel.tiles.blockJ, ∀ add (e : Entry α ε),
      kernel.plan.gradQ.visitEntry (0 < kernel.workspace.gradQ)
        (kernel.queryVisit (tileOf kernel.tiles.blockI row) (n * kernel.tiles.blockJ)) add e =
      kernel.plan.gradQ.visitEntry true
        ⟨n = 0, n + 1 = chunksOf kernel.shape.numKeys kernel.tiles.blockJ⟩ add e := by
    intro n hn add e
    rw [queryVisit_fullAttention hValid hPolicy _ hn]
    by_cases hSlots : kernel.plan.gradQ.usesWorkspace = true → 0 < kernel.workspace.gradQ
    · exact visitEntry_slotted (fun hUses => decide_eq_true (hSlots hUses)) _ add e
    · -- Sums that are parked nowhere come from a single key tile.
      obtain ⟨hUses, hNone⟩ := Classical.not_imp.mp hSlots
      have hOne : chunksOf kernel.shape.numKeys kernel.tiles.blockJ = 1 := by
        have hNot : ¬ 1 < chunksOf kernel.shape.numKeys kernel.tiles.blockJ := by
          rw [lt_chunksOf_iff hValid.blockJ, Nat.one_mul]
          exact mt (hValid.querySlots_pos hUses).mpr hNone
        omega
      obtain rfl : n = 0 := by omega
      rw [hOne]
      exact Strategy.visitEntry_single _ _ add e
  rw [queryVisits, hAll, queryResult, queryAdds, hStarts, List.map_map, List.foldl_map]
  rw [List.foldl_ext _ _ _ fun e n hn => hVisit n (List.mem_range.mp hn) _ e]
  exact Strategy.visitUpTo_complete _ hCount _ e

end Kernel

end FusedAttention
