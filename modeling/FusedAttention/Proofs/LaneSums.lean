import Mathlib
import FusedAttention.Proofs.ExactSums
import FusedAttention.Proofs.RowSums

/-! Sums over lanes where addition is commutative, but need not be associative. After `t` exchanges all
lanes of an aligned block of `2 ^ t` hold the same balanced sum of the block, for the partner of a lane
lies in the sibling block. So all lanes end with one sum, whatever the rounding. -/
namespace FusedAttention

variable {α ε : Type}

namespace Lanes

/-! ### Blocks -/

/-- After `t` exchanges a lane holds the balanced sum of its block. -/
theorem exchangeSum_eq_treeSum [Add α] (hComm : ∀ x y : α, x + y = y + x) (f : Nat → α) (t l : Nat) :
    exchangeSum f t l = treeSum f t (l / Nat.pow 2 t * Nat.pow 2 t) := by
  induction t generalizing l with
  | zero => exact congrArg f (show l = l / 1 * 1 by omega)
  | succ t ih =>
      have hBlock : l / Nat.pow 2 (t + 1) = l / Nat.pow 2 t / 2 := (Nat.div_div_eq_div_mul l _ 2).symm
      have hSibling : (l ^^^ Nat.pow 2 t) / Nat.pow 2 t = l / Nat.pow 2 t ^^^ 1 := by
        simp only [Nat.pow_eq]
        rw [Nat.xor_div_two_pow, Nat.div_self (Nat.two_pow_pos t)]
      have hStart : ∀ q, q * Nat.pow 2 (t + 1) = 2 * q * Nat.pow 2 t := by
        intro q
        rw [show Nat.pow 2 (t + 1) = Nat.pow 2 t * 2 from rfl]
        ring
      have hNext : ∀ q, q * Nat.pow 2 t + Nat.pow 2 t = (q + 1) * Nat.pow 2 t := fun q =>
        (Nat.succ_mul q _).symm
      rw [exchangeSum, treeSum, ih, ih, hSibling, hBlock, hStart, hNext]
      -- Only where the lane lies in the upper half of its block does it add the halves the other way round.
      rcases Nat.even_or_odd (l / Nat.pow 2 t) with hEven | hOdd
      · rw [Nat.xor_one_of_even hEven, Nat.two_mul_div_two_of_even hEven]
      · have hLow : 2 * (l / Nat.pow 2 t / 2) = l / Nat.pow 2 t - 1 := by
          have := Nat.two_mul_div_two_add_one_of_odd hOdd
          omega
        rw [Nat.xor_one_of_odd hOdd, hComm, hLow, Nat.sub_add_cancel hOdd.pos]

/-- All lanes end with the balanced sum of all. -/
theorem reduce_eq_replicate [Zero α] [Add α] (hComm : ∀ x y : α, x + y = y + x) {lanes : Array α}
    {k : Nat} (hSize : lanes.size = Nat.pow 2 k) :
    reduce lanes = .ok (Array.replicate (Nat.pow 2 k) (treeSum (fun l => lanes.getD l 0) k 0)) := by
  obtain ⟨after, hReduce, hAfter, hLanes⟩ := reduce_eq hSize
  rw [hReduce]
  refine congrArg Except.ok (Array.ext_getElem? fun l => ?_)
  rw [Array.getElem?_replicate]
  split
  · rename_i hl
    rw [hLanes l hl, exchangeSum_eq_treeSum hComm, Nat.div_eq_of_lt hl, Nat.zero_mul]
  · rw [Array.getElem?_eq_none (by omega)]

/-! ### Passes -/

/-- A lane that has to be there. -/
def held (lanes : Array α) (lane : Nat) : Except Fault α :=
  match lanes[lane]? with
  | some x => .ok x
  | none => .error (.indexOutside lane lanes.size)

/-- One pass over the lanes. Each adds what the lane whose number differs by `mask` held before. -/
def pass [Add α] (lanes : Array α) (mask : Nat) : Except Fault (Array α) :=
  (List.range lanes.size).foldlM (fun now lane => do
    let x ← held lanes (lane ^^^ mask)
    return now.modify lane (· + x)) lanes

/-- Passes over `count` lanes for as long as the mask is below their number. The mask doubles from pass
to pass. -/
def passes [Add α] (count mask : Nat) (lanes : Array α) : Except Fault (Array α) :=
  if _h : 0 < mask ∧ mask < count then do
    let lanes ← pass lanes mask
    passes count (mask * 2) lanes
  else .ok lanes
termination_by count - mask

theorem pass_spec [Add α] {lanes : Array α} {k t : Nat} (hSize : lanes.size = Nat.pow 2 k) (hBit : t < k)
    {f : Nat → α} (hLanes : ∀ l < Nat.pow 2 k, lanes[l]? = some (f l)) :
    ∃ after, pass lanes (Nat.pow 2 t) = .ok after ∧ after.size = Nat.pow 2 k ∧
      ∀ l < Nat.pow 2 k, after[l]? = some (f l + f (l ^^^ Nat.pow 2 t)) := by
  have hIn : ∀ l < Nat.pow 2 k, l ^^^ Nat.pow 2 t < Nat.pow 2 k := fun l hl =>
    Nat.xor_lt_two_pow hl (Nat.pow_lt_pow_of_lt (by decide) hBit)
  have hStep : ∀ now : Array α, ∀ lane ∈ List.range lanes.size, now.size = Nat.pow 2 k →
      ∃ next, (do
          let x ← held lanes (lane ^^^ Nat.pow 2 t)
          return now.modify lane (· + x)) = Except.ok next ∧ next.size = Nat.pow 2 k ∧
        next = now.modify lane (· + f (lane ^^^ Nat.pow 2 t)) := by
    intro now lane hLane hNow
    rw [List.mem_range, hSize] at hLane
    rw [held, hLanes _ (hIn lane hLane)]
    exact ⟨_, rfl, by rw [Array.size_modify, hNow], rfl⟩
  obtain ⟨after, hRun, hAfter, hSteps⟩ := foldlM_steps _ _ hStep hSize
  refine ⟨after, hRun, hAfter, fun l hl => ?_⟩
  have hOnce : after[l]? = lanes[l]?.map (· + f (l ^^^ Nat.pow 2 t)) := by
    refine hSteps.observe_once List.nodup_range (List.mem_range.mpr (hSize ▸ hl)) (fun now => now[l]?)
      (Option.map _) ?_ ?_
    · rintro now next rfl
      rw [Array.getElem?_modify, if_pos rfl]
    · rintro now next lane - hOther rfl
      rw [Array.getElem?_modify, if_neg hOther]
  rw [hOnce, hLanes l hl, Option.map_some]

/-- The passes end, and no lane is looked up that is not there. -/
theorem passes_spec [Add α] {k : Nat} (f : Nat → α) {lanes : Array α} {t : Nat} (hBit : t ≤ k)
    (hSize : lanes.size = Nat.pow 2 k) (hLanes : ∀ l < Nat.pow 2 k, lanes[l]? = some (exchangeSum f t l)) :
    ∃ after, passes (Nat.pow 2 k) (Nat.pow 2 t) lanes = .ok after ∧ after.size = Nat.pow 2 k ∧
      ∀ l < Nat.pow 2 k, after[l]? = some (exchangeSum f k l) := by
  induction hBit using Nat.decreasingInduction generalizing lanes with
  | self =>
      refine ⟨lanes, ?_, hSize, hLanes⟩
      rw [passes, dif_neg (by omega)]
  | of_succ t hBit ih =>
      obtain ⟨next, hPass, hNext, hEntries⟩ := pass_spec hSize hBit hLanes
      obtain ⟨after, hRest, hAfter⟩ := ih hNext hEntries
      refine ⟨after, ?_, hAfter⟩
      rw [passes, dif_pos ⟨Nat.two_pow_pos t, Nat.pow_lt_pow_of_lt (by decide) hBit⟩, hPass, ok_bind]
      exact hRest

/-- The passes leave the lanes that the exchanges leave. -/
theorem passes_eq_reduce [Zero α] [Add α] {lanes : Array α} {k : Nat} (hSize : lanes.size = Nat.pow 2 k) :
    passes lanes.size 1 lanes = reduce lanes := by
  have hStart : ∀ l < Nat.pow 2 k, lanes[l]? = some (lanes.getD l 0) := by
    intro l hl
    rw [Array.getD_eq_getD_getElem?, Array.getElem?_eq_getElem (hSize ▸ hl), Option.getD_some]
  obtain ⟨after, hPasses, hAfter, hLanes⟩ :=
    passes_spec (fun l => lanes.getD l 0) (Nat.zero_le k) hSize hStart
  obtain ⟨after', hReduce, hAfter', hLanes'⟩ := reduce_eq hSize
  rw [hReduce, hSize]
  refine hPasses.trans (congrArg Except.ok (Array.ext_getElem? fun l => ?_))
  by_cases hl : l < Nat.pow 2 k
  · rw [hLanes l hl, hLanes' l hl]
  · rw [Array.getElem?_eq_none (by omega), Array.getElem?_eq_none (by omega)]

/-! ### Columns -/

/-- The columns that go to one lane. -/
theorem filter_mod_range {l count : Nat} (n : Nat) (hl : l < count) :
    (List.range n).filter (· % count = l) = tileStarts l n count := by
  have hPos : 0 < count := Nat.zero_lt_of_lt hl
  refine List.Pairwise.eq_of_mem_iff (List.pairwise_lt_range.filter _) (pairwise_tileStarts hPos)
    fun col => ?_
  rw [List.mem_filter, List.mem_range, mem_tileStarts hPos, decide_eq_true_eq]
  refine and_congr_right fun _ => ⟨fun hOwn => ⟨col / count, ?_⟩, ?_⟩
  · rw [← hOwn, Nat.add_comm]
    exact (Nat.div_add_mod' col count).symm
  · rintro ⟨n, rfl⟩
    rw [Nat.add_mul_mod_self_right, Nat.mod_eq_of_lt hl]

theorem treeSum_congr [Add α] {f g : Nat → α} {t l : Nat}
    (h : ∀ i < Nat.pow 2 t, f (l + i) = g (l + i)) : treeSum f t l = treeSum g t l := by
  induction t generalizing l with
  | zero => exact h 0 Nat.one_pos
  | succ t ih =>
      have hDouble : Nat.pow 2 (t + 1) = Nat.pow 2 t + Nat.pow 2 t := Nat.mul_two _
      rw [treeSum, treeSum, ih fun i hi => h i (by omega), ih fun i hi => ?_]
      rw [Nat.add_assoc]
      exact h _ (by omega)

variable [Scalar α] [Element ε α]

/-- The products of two rows at the columns `l`, `l + count`, … added up in this order. -/
def columnSum (a b : Array ε) (count l : Nat) : α :=
  (tileStarts l (min a.size b.size) count).foldl (fun sum col =>
    sum + Tile.widenAt a col * Tile.widenAt b col) 0

theorem getElem?_partials_columns {a b : Array ε} {count l : Nat} (hl : l < count) :
    (partials a b count)[l]? = some (columnSum a b count l : α) := by
  rw [(partials_spec a b count).2 l hl, filter_mod_range _ hl, columnSum]

theorem stripedDot_columns (a b : Array ε) (k : Nat) :
    stripedDot a b (Nat.pow 2 k) = .ok (treeSum (columnSum a b (Nat.pow 2 k)) k 0 : α) := by
  rw [stripedDot_eq, laneDot]
  refine congrArg Except.ok (treeSum_congr fun l hl => ?_)
  rw [Nat.zero_add, Array.getD_eq_getD_getElem?, getElem?_partials_columns hl, Option.getD_some]

end Lanes

/-! ### Delta -/

/-- In exact arithmetic the rows of Delta are plain dot products, whatever the number of lanes. -/
theorem computeDelta_exact [ExactScalar α] [Element ε α] {o dO : Array ε} {windowO windowDO : Window}
    {numQueries cols blockI k : Nat} {out : Array α} (hBlock : 0 < blockI)
    (hLanes : threadsPerRow blockI = Nat.pow 2 k)
    (hInO : ∀ row < min numQueries out.size, windowO.rowStart row + cols ≤ o.size)
    (hInDO : ∀ row < min numQueries out.size, windowDO.rowStart row + cols ≤ dO.size) :
    computeDelta o dO windowO windowDO numQueries cols blockI out =
      .ok (out.mapIdx fun row kept => if row < numQueries then
        ∑ c ∈ Finset.range cols, Tile.widenAt o (windowO.rowStart row + c) *
          Tile.widenAt dO (windowDO.rowStart row + c) else kept) := by
  obtain ⟨after, hRun, hSize, hRows, hKept⟩ := computeDelta_spec hBlock hLanes hInO hInDO
  rw [hRun]
  refine congrArg Except.ok (Array.ext_getElem? fun row => ?_)
  rw [Array.getElem?_mapIdx]
  by_cases hPlace : row < out.size
  · by_cases hRow : row < numQueries
    · have hBoth : row < min numQueries out.size := Nat.lt_min.mpr ⟨hRow, hPlace⟩
      rw [hRows row hBoth, Lanes.laneDot_extract (hInO row hBoth) (hInDO row hBoth),
        Array.getElem?_eq_getElem hPlace, Option.map_some, if_pos hRow]
    · rw [hKept row (by omega), Array.getElem?_eq_getElem hPlace, Option.map_some, if_neg hRow]
  · rw [Array.getElem?_eq_none (by omega), Array.getElem?_eq_none (by omega), Option.map_none]

open Lanes in
/-- Sums over a power of two of lanes. With an addition that is only commutative, the passes over the lanes
end, and all lanes hold the balanced sum of what they started with, which is the sum that is read off.
Whatever the arithmetic, a dot product over lanes is the balanced sum of what the lanes add up in order,
each over its own columns. In exact arithmetic it is the plain dot product, and Delta gets one for each of
the leading `numQueries` rows and keeps the rest. -/
theorem laneSums_spec :
    (∀ {α : Type} [Zero α] [Add α], (∀ x y : α, x + y = y + x) → ∀ (lanes : Array α) (k : Nat),
      lanes.size = Nat.pow 2 k →
        let sum := treeSum (fun l => lanes.getD l 0) k 0
        passes lanes.size 1 lanes = .ok (Array.replicate lanes.size sum) ∧
        reduce lanes = .ok (Array.replicate lanes.size sum) ∧ total lanes = .ok sum) ∧
    (∀ {α ε : Type} [Scalar α] [Element ε α] (a b : Array ε) (k : Nat),
      (∀ l < Nat.pow 2 k, (partials a b (Nat.pow 2 k))[l]? = some (columnSum a b (Nat.pow 2 k) l : α)) ∧
      stripedDot a b (Nat.pow 2 k) = .ok (treeSum (columnSum a b (Nat.pow 2 k)) k 0 : α)) ∧
    ∀ {α ε : Type} [ExactScalar α] [Element ε α],
      (∀ (a b : Array ε) (k : Nat), a.size = b.size → stripedDot a b (Nat.pow 2 k) =
        .ok (∑ c ∈ Finset.range a.size, Tile.widenAt a c * Tile.widenAt b c : α)) ∧
      ∀ (o dO : Array ε) (windowO windowDO : Window) (numQueries cols blockI k : Nat) (out : Array α),
        0 < blockI → threadsPerRow blockI = Nat.pow 2 k →
        (∀ row < min numQueries out.size, windowO.rowStart row + cols ≤ o.size) →
        (∀ row < min numQueries out.size, windowDO.rowStart row + cols ≤ dO.size) →
        computeDelta o dO windowO windowDO numQueries cols blockI out =
          .ok (out.mapIdx fun row kept => if row < numQueries then
            ∑ c ∈ Finset.range cols, Tile.widenAt o (windowO.rowStart row + c) *
              Tile.widenAt dO (windowDO.rowStart row + c) else kept) := by
  refine ⟨fun hComm lanes k hSize => ?_, fun a b k => ⟨fun l hl => getElem?_partials_columns hl,
    stripedDot_columns a b k⟩, fun a b k hSize => ?_, ?_⟩
  · have hReduce := reduce_eq_replicate hComm hSize
    rw [← hSize] at hReduce
    exact ⟨(passes_eq_reduce hSize).trans hReduce, hReduce, total_eq hSize⟩
  · rw [stripedDot_eq, laneDot_eq, ← hSize, Nat.min_self]
  · intro o dO windowO windowDO numQueries cols blockI k out hBlock hLanes hInO hInDO
    exact computeDelta_exact hBlock hLanes hInO hInDO

/-- Midpoints, which depend on the order that they are taken in, over four lanes, and a row of three
products over two. -/
theorem laneSums_spec_midpoints :
    @Lanes.reduce Nat ⟨fun x y => (x + y) / 2⟩ #[0, 8, 4, 0] = .ok #[3, 3, 3, 3] ∧
    @Lanes.total Nat ⟨0⟩ ⟨fun x y => (x + y) / 2⟩ #[0, 8, 4, 0] = .ok 3 ∧
    Lanes.stripedDot (#[1, 2, 3] : Array Int) #[4, 5, 6] 2 = .ok (32 : Int) ∧
    computeDelta (#[1, 2, 3] : Array Int) #[4, 5, 6] ⟨0, 3⟩ ⟨0, 3⟩ 1 3 64 (#[7, 8] : Array Int) =
      .ok #[32, 8] := by
  obtain ⟨hCommutative, -, hExact⟩ := laneSums_spec
  obtain ⟨-, hReduce, hTotal⟩ := @hCommutative Nat ⟨0⟩ ⟨fun x y => (x + y) / 2⟩
    (fun x y => congrArg (· / 2) (Nat.add_comm x y)) #[0, 8, 4, 0] 2 rfl
  obtain ⟨hDot, hDelta⟩ := @hExact Int Int _ _
  refine ⟨hReduce, hTotal, hDot #[1, 2, 3] #[4, 5, 6] 1 rfl, ?_⟩
  refine (hDelta #[1, 2, 3] #[4, 5, 6] ⟨0, 3⟩ ⟨0, 3⟩ 1 3 64 1 #[7, 8] (by decide) rfl ?_ ?_).trans ?_
  · decide
  · decide
  · decide

end FusedAttention
