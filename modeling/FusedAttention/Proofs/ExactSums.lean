import Mathlib
import FusedAttention.Proofs.Accumulation
import FusedAttention.Proofs.RowSums

/-! Sums of the kernel read in exact arithmetic. There the order of the terms and the split into
tiles and lanes do not matter, and a term that is left out because its factor is zero adds nothing. -/
namespace FusedAttention

open Finset

/-- Exact arithmetic: a commutative ring with any function for the exponential. -/
class ExactScalar (α : Type) extends Scalar α, CommRing α where
  eq_zero_of_isZero : ∀ x : α, toScalar.isZero x = true → x = 0

/-- What the element types have in common. Their zero is the rounded zero, and the wide type holds
every number of the arithmetic as it is. -/
class ExactElement (ε : Type) {α : outParam Type} [Scalar α] [Element ε α] : Prop where
  round_zero : Element.round (0 : α) = (Element.zero (α := α) : ε)
  widen_round : Element.dtype ε = .f32 → ∀ x : α, Element.widen (Element.round x : ε) = x
  round_widen : Element.dtype ε = .f32 → ∀ e : ε, Element.round (Element.widen e) = e

instance : ExactElement Float32 where
  round_zero := rfl
  widen_round _ _ := rfl
  round_widen _ _ := rfl

instance : ExactElement Binary16 where
  round_zero := by decide
  widen_round h := nomatch h
  round_widen h := nomatch h

instance : ExactElement BFloat16 where
  round_zero := by decide
  widen_round h := nomatch h
  round_widen h := nomatch h

/-! The integers are such an arithmetic, with powers of two for the exponential and all scales one. -/

instance : Scalar Int where
  infinity := 0
  exp x := 2 ^ x.toNat
  isZero x := x == 0
  ofFloat _ := 1

instance : ExactScalar Int where
  toScalar := inferInstance
  __ := (inferInstance : CommRing Int)
  eq_zero_of_isZero x h := by simpa [Scalar.isZero] using h

instance : Element Int Int where
  dtype := .f32
  widen := id
  round := id
  zero := 0

instance : ExactElement Int where
  round_zero := rfl
  widen_round _ _ := rfl
  round_widen _ _ := rfl

variable {α ε : Type} [ExactScalar α]

theorem foldl_add {ι : Type} (list : List ι) (f : ι → α) (start : α) :
    list.foldl (fun sum i => sum + f i) start = start + (list.map f).sum := by
  induction list generalizing start with
  | nil => rw [List.foldl_nil, List.map_nil, List.sum_nil, add_zero]
  | cons i rest ih => rw [List.foldl_cons, ih, List.map_cons, List.sum_cons, add_assoc]

theorem sum_map_range (n : Nat) (f : Nat → α) : ((List.range n).map f).sum = ∑ i ∈ range n, f i :=
  rfl

theorem sum_map_filter {ι : Type} (list : List ι) (p : ι → Bool) (f : ι → α) :
    ((list.filter p).map f).sum = (list.map fun i => if p i = true then f i else 0).sum := by
  induction list with
  | nil => rfl
  | cons i rest ih =>
      rw [List.filter_cons, List.map_cons, List.sum_cons, ← ih]
      split
      · rw [List.map_cons, List.sum_cons]
      · rw [zero_add]

/-- The terms that a filter keeps are all but those that its opposite keeps. -/
theorem sum_filter_not {ι : Type} (list : List ι) (p : ι → Bool) (f : ι → α) :
    ((list.filter fun i => !p i).map f).sum = (list.map f).sum - ((list.filter p).map f).sum := by
  induction list with
  | nil => exact (sub_zero 0).symm
  | cons i rest ih =>
      cases hKeep : p i with
      | true =>
          rw [List.filter_cons_of_neg (by simp [hKeep]), List.filter_cons_of_pos hKeep, ih,
            List.map_cons, List.sum_cons, List.map_cons, List.sum_cons, add_sub_add_left_eq_sub]
      | false =>
          rw [List.filter_cons_of_pos (by simp [hKeep]), List.filter_cons_of_neg (by simp [hKeep]),
            List.map_cons, List.sum_cons, ih, List.map_cons, List.sum_cons, add_sub_assoc]

namespace Tile

theorem addProducts_eq (count : Nat) (a b : Nat → α) (start : α) :
    addProducts count a b start = start + ∑ i ∈ range count, a i * b i := by
  have hTerm : ∀ sum i, mulAddUnlessZero sum (a i) (b i) = sum + a i * b i := by
    intro sum i
    unfold mulAddUnlessZero
    split
    · rename_i hZero
      rw [ExactScalar.eq_zero_of_isZero _ hZero, zero_mul, add_zero]
    · rfl
  rw [addProducts, ← sum_map_range, ← foldl_add]
  exact List.foldl_ext _ _ _ fun sum i _ => hTerm sum i

theorem dot_eq (count : Nat) (a b : Nat → α) : dot count a b = ∑ i ∈ range count, a i * b i := by
  rw [dot, foldl_add, zero_add, sum_map_range]

end Tile

/-! ### Lanes -/

namespace Lanes

theorem treeSum_eq (f : Nat → α) (t l : Nat) : treeSum f t l = ∑ i ∈ range (Nat.pow 2 t), f (l + i) := by
  induction t generalizing l with
  | zero =>
      show f l = ∑ i ∈ range 1, f (l + i)
      rw [range_one, sum_singleton, Nat.add_zero]
  | succ t ih =>
      have hDouble : Nat.pow 2 (t + 1) = Nat.pow 2 t + Nat.pow 2 t := Nat.mul_two _
      rw [treeSum, ih, ih, hDouble, sum_range_add]
      simp only [Nat.add_assoc]

variable [Element ε α]

/-- A lane sums the products of its own columns. -/
theorem partials_getD {a b : Array ε} {count l : Nat} (hl : l < count) :
    (partials a b count).getD l 0 = ∑ c ∈ range (min a.size b.size) with c % count = l,
      Tile.widenAt a c * Tile.widenAt b c := by
  rw [Array.getD_eq_getD_getElem?, (partials_spec a b count).2 l hl, Option.getD_some, foldl_add, zero_add,
    sum_map_filter, sum_map_range, sum_filter]
  simp only [decide_eq_true_eq]

/-- The lanes together sum the products of all columns. -/
theorem laneDot_eq (a b : Array ε) (k : Nat) :
    laneDot a b k = ∑ c ∈ range (min a.size b.size), Tile.widenAt a c * Tile.widenAt b c := by
  have hLane : ∀ c ∈ range (min a.size b.size), c % Nat.pow 2 k ∈ range (Nat.pow 2 k) := by
    intro c _
    exact mem_range.mpr (Nat.mod_lt c (Nat.two_pow_pos k))
  rw [laneDot, treeSum_eq, ← sum_fiberwise_of_maps_to hLane]
  refine sum_congr rfl fun l hl => ?_
  rw [Nat.zero_add, partials_getD (mem_range.mp hl)]

omit [ExactScalar α] in
/-- A part of a buffer that is sliced off shows the same numbers. -/
theorem widenAt_extract [Scalar α] {data : Array ε} {start length c : Nat} (hc : c < length) :
    (Tile.widenAt (data.extract start (start + length)) c : α) = Tile.widenAt data (start + c) := by
  unfold Tile.widenAt
  rw [Array.getElem?_extract]
  split
  · rfl
  · rw [Array.getElem?_eq_none (by omega)]

theorem laneDot_extract {a b : Array ε} {startA startB length : Nat}
    (hA : startA + length ≤ a.size) (hB : startB + length ≤ b.size) (k : Nat) :
    laneDot (a.extract startA (startA + length)) (b.extract startB (startB + length)) k =
      ∑ c ∈ range length, Tile.widenAt a (startA + c) * Tile.widenAt b (startB + c) := by
  have hSize : min (a.extract startA (startA + length)).size
      (b.extract startB (startB + length)).size = length := by
    rw [Array.size_extract, Array.size_extract]
    omega
  rw [laneDot_eq, hSize]
  refine sum_congr rfl fun c hc => ?_
  rw [widenAt_extract (mem_range.mp hc), widenAt_extract (mem_range.mp hc)]

end Lanes

/-! ### Totals -/

/-- A complete series of contributions leaves the rounded sum, rounded once. A sum that is kept in
the elements themselves is not changed by their rounding. -/
theorem Strategy.total_eq {ι : Type} [Element ε α] [ExactElement ε] {s : Strategy}
    (hWide : s.usesWorkspace = false → Element.dtype ε = .f32) {adds : ι → α → α} {share : ι → α}
    {list : List ι} (hAdds : ∀ i ∈ list, ∀ y, adds i y = y + share i) :
    (s.total (list.map adds) : ε) = Element.round (list.map share).sum := by
  have hFold : ∀ start, (list.map adds).foldl (fun sum add => add sum) start =
      start + (list.map share).sum := by
    intro start
    rw [List.foldl_map, ← foldl_add]
    exact List.foldl_ext _ _ _ fun sum i hi => hAdds i hi sum
  cases s with
  | workspace => rw [total, hFold, zero_add, one_mul]
  | inPlace =>
      have hExact := ExactElement.widen_round (ε := ε) (hWide rfl)
      cases list with
      | nil =>
          rw [List.map_nil, total, List.map_nil, List.sum_nil]
          exact ExactElement.round_zero.symm
      | cons i rest =>
          have hRest : ∀ others : List ι, (∀ j ∈ others, ∀ y, adds j y = y + share j) →
              ∀ start : α, (others.map adds).foldl
                (fun old add => Element.round (Element.widen old + 1 * add 0))
                (Element.round start : ε) = Element.round (start + (others.map share).sum) := by
            intro others hOthers
            induction others with
            | nil => intro start; rw [List.map_nil, List.foldl_nil, List.map_nil, List.sum_nil, add_zero]
            | cons j others ih =>
                intro start
                rw [List.map_cons, List.foldl_cons, hExact, hOthers j List.mem_cons_self, one_mul,
                  zero_add, ih fun k hk => hOthers k (List.mem_cons_of_mem j hk), List.map_cons,
                  List.sum_cons, add_assoc]
          rw [List.map_cons, total, hAdds i List.mem_cons_self, one_mul, zero_add,
            hRest rest fun j hj => hAdds j (List.mem_cons_of_mem i hj), List.map_cons, List.sum_cons]

/-! ### Tiles -/

/-- A sum over all tiles of a loop is the sum over the rows that they cover. -/
theorem sum_tiles {first total block : Nat} (hBlock : 0 < block) (f : Nat → α) :
    ((tileStarts first total block).map fun start =>
      ∑ i ∈ range (min block (total - start)), f (start + i)).sum = ∑ row ∈ Ico first total, f row := by
  have hTile : ∀ start, ∑ i ∈ range (min block (total - start)), f (start + i) =
      ∑ row ∈ Ico start (min total (start + block)), f row := by
    intro start
    rw [sum_Ico_eq_sum_range]
    congr 2
    omega
  have hUpTo : ∀ n ≤ chunksOf (total - first) block,
      ((List.range n).map fun m => ∑ row ∈ Ico (first + m * block)
        (min total (first + m * block + block)), f row).sum =
          ∑ row ∈ Ico first (min total (first + n * block)), f row := by
    intro n hn
    induction n with
    | zero =>
        rw [List.range_zero, List.map_nil, List.sum_nil, Ico_eq_empty (by omega), sum_empty]
    | succ n ih =>
        have hMore : n * block < total - first := (lt_chunksOf_iff hBlock).mp hn
        have hStep : (n + 1) * block = n * block + block := Nat.succ_mul n block
        rw [List.range_succ, List.map_append, List.sum_append, ih (by omega), List.map_cons,
          List.map_nil, List.sum_cons, List.sum_nil, add_zero, hStep, ← Nat.add_assoc,
          Nat.min_eq_right (show first + n * block ≤ total by omega)]
        exact sum_Ico_consecutive f (by omega) (by omega)
  have hCover : ¬ chunksOf (total - first) block * block < total - first := by
    rw [← lt_chunksOf_iff hBlock]
    exact Nat.lt_irrefl _
  rw [tileStarts, List.map_map]
  simp only [Function.comp_def, hTile]
  rw [hUpTo _ (Nat.le_refl _)]
  by_cases hSome : first ≤ total
  · rw [Nat.min_eq_left (by omega)]
  · rw [Ico_eq_empty (by omega), Ico_eq_empty (by omega)]

end FusedAttention
