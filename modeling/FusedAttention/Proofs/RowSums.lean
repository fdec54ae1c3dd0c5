import FusedAttention.Kernel.RowSums
import FusedAttention.Proofs.TileEntries

/-! Row sums over lanes. Each exchange adds to a lane what its partner has collected so far. A lane whose
number is a multiple of `2 ^ t` holds after `t` exchanges the sum of the lanes up to the next such
number, paired as in a balanced tree. -/
namespace FusedAttention

variable {α ε : Type}

namespace Lanes

/-- The sum of `2 ^ t` numbers from the `l`-th on, paired as in a balanced tree. -/
def treeSum [Add α] (f : Nat → α) : Nat → Nat → α
  | 0, l => f l
  | t + 1, l => treeSum f t l + treeSum f t (l + Nat.pow 2 t)

/-- What a lane has collected after `t` exchanges: its own sum before the last one and that of its
partner. -/
def exchangeSum [Add α] (f : Nat → α) : Nat → Nat → α
  | 0, l => f l
  | t + 1, l => exchangeSum f t l + exchangeSum f t (l ^^^ Nat.pow 2 t)

theorem xor_two_pow {l t : Nat} (h : l % Nat.pow 2 (t + 1) = 0) : l ^^^ Nat.pow 2 t = l + Nat.pow 2 t := by
  obtain ⟨m, rfl⟩ := Nat.dvd_of_mod_eq_zero h
  simp only [Nat.pow_eq]
  rw [Nat.two_pow_add_eq_or_of_lt (Nat.pow_lt_pow_succ (by decide))]
  apply Nat.eq_of_testBit_eq
  intro j
  rw [Nat.testBit_xor, Nat.testBit_or, Nat.testBit_two_pow_mul, Nat.testBit_two_pow]
  by_cases hj : t = j
  · subst hj
    simp
  · simp [hj]

theorem butterfly_upTo [Add α] {k : Nat} (lanes : Vector α (Nat.pow 2 k)) (f : Nat → α)
    (hLanes : ∀ l (hl : l < Nat.pow 2 k), lanes[l] = f l) {count : Nat} (hCount : count ≤ k) :
    ∀ l (hl : l < Nat.pow 2 k),
      (Fin.foldl count (fun lanes bit => exchange lanes (bit.castLE hCount)) lanes)[l] =
        exchangeSum f count l := by
  induction count with
  | zero =>
      intro l hl
      simp only [Fin.foldl_zero]
      exact hLanes l hl
  | succ t ih =>
      intro l hl
      have hIn : l ^^^ Nat.pow 2 t < Nat.pow 2 k :=
        Nat.xor_lt_two_pow hl (Nat.pow_lt_pow_of_lt (by decide) hCount)
      have hPrior := ih (Nat.le_of_succ_le hCount)
      simp only [Fin.foldl_succ_last, exchange, Vector.getElem_ofFn]
      rw [exchangeSum, ← hPrior l hl, ← hPrior _ hIn]
      rfl

/-- Exchanges between a power of two of lanes never fault, and every lane holds at the end what it has
collected in all of them. -/
theorem reduce_eq [Zero α] [Add α] {lanes : Array α} {k : Nat} (hSize : lanes.size = Nat.pow 2 k) :
    ∃ after, reduce lanes = .ok after ∧ after.size = Nat.pow 2 k ∧
      ∀ l < Nat.pow 2 k, after[l]? = some (exchangeSum (fun l => lanes.getD l 0) k l) := by
  obtain rfl : k = lanes.size.log2 := by
    rw [hSize]
    exact Nat.log2_two_pow.symm
  refine ⟨_, dif_pos hSize, Vector.size_toArray _, fun l hl => ?_⟩
  rw [Vector.getElem?_toArray, Vector.getElem?_eq_getElem hl]
  refine congrArg some (butterfly_upTo _ _ (fun l hl => ?_) (Nat.le_refl _) l hl)
  rw [Array.getD_eq_getD_getElem?, Array.getElem?_eq_getElem (hSize ▸ hl), Option.getD_some]
  rfl

theorem exchangeSum_of_multiple [Add α] (f : Nat → α) {t l : Nat} (hMultiple : l % Nat.pow 2 t = 0) :
    exchangeSum f t l = treeSum f t l := by
  induction t generalizing l with
  | zero => rfl
  | succ t ih =>
      have hHalf : l % Nat.pow 2 t = 0 := by
        have hDvd : Nat.pow 2 t ∣ Nat.pow 2 (t + 1) := Nat.pow_dvd_pow 2 (Nat.le_succ t)
        exact Nat.mod_eq_zero_of_dvd (Nat.dvd_trans hDvd (Nat.dvd_of_mod_eq_zero hMultiple))
      rw [exchangeSum, treeSum, xor_two_pow hMultiple, ih hHalf, ih (by rw [Nat.add_mod_right, hHalf])]

/-- The first lane ends with the balanced sum of all. -/
theorem total_eq [Zero α] [Add α] {lanes : Array α} {k : Nat} (hSize : lanes.size = Nat.pow 2 k) :
    total lanes = .ok (treeSum (fun l => lanes.getD l 0) k 0) := by
  obtain ⟨after, hReduce, -, hLanes⟩ := reduce_eq hSize
  rw [total, hReduce]
  show Except.ok (after.getD 0 0) = Except.ok _
  rw [Array.getD_eq_getD_getElem?, hLanes 0 (Nat.two_pow_pos k), Option.getD_some,
    exchangeSum_of_multiple _ (Nat.zero_mod _)]

variable [Scalar α] [Element ε α]

/-- The loop over the leading columns: a lane has added up the products of its own ones in their order. -/
theorem partials_spec (a b : Array ε) (count : Nat) :
    (partials a b count : Array α).size = count ∧ ∀ l < count, (partials a b count : Array α)[l]? =
      some (((List.range (min a.size b.size)).filter (· % count = l)).foldl (fun sum col =>
        sum + Tile.widenAt a col * Tile.widenAt b col) 0) := by
  unfold partials
  have hUpTo : ∀ n (hn : n ≤ min a.size b.size),
      let sums := Nat.fold n (fun col h (sums : Array α) =>
        have ha : col < a.size := by omega
        have hb : col < b.size := by omega
        sums.modify (col % count) (· + Element.widen a[col] * Element.widen b[col]))
        (Array.replicate count 0)
      sums.size = count ∧ ∀ l < count, sums[l]? =
        some (((List.range n).filter (· % count = l)).foldl (fun sum col =>
          sum + Tile.widenAt a col * Tile.widenAt b col) 0) := by
    intro n hn
    induction n with
    | zero =>
        refine ⟨Array.size_replicate, fun l hl => ?_⟩
        rw [Nat.fold_zero, Array.getElem?_replicate, if_pos hl]
        rfl
    | succ n ih =>
        obtain ⟨hSize, hLanes⟩ := ih (by omega)
        refine ⟨?_, fun l hl => ?_⟩
        · rw [Nat.fold_succ, Array.size_modify, hSize]
        · rw [Nat.fold_succ, Array.getElem?_modify, hLanes l hl, List.range_succ, List.filter_append,
            List.foldl_append]
          by_cases hOwn : n % count = l
          · rw [if_pos hOwn, List.filter_cons_of_pos (by simpa using hOwn), List.filter_nil,
              List.foldl_cons, List.foldl_nil, Tile.widenAt_of_lt (show n < a.size by omega),
              Tile.widenAt_of_lt (show n < b.size by omega), Option.map_some]
          · rw [if_neg hOwn, List.filter_cons_of_neg (by simpa using hOwn), List.filter_nil,
              List.foldl_nil]
  exact hUpTo _ (Nat.le_refl _)

/-- The dot product of two rows over `2 ^ k` lanes: each lane sums its own columns in order, and
the lanes are summed as a balanced tree. -/
def laneDot (a b : Array ε) (k : Nat) : α :=
  treeSum (fun l => (partials a b (Nat.pow 2 k)).getD l 0) k 0

/-- A dot product over a power of two of lanes never faults. -/
theorem stripedDot_eq (a b : Array ε) (k : Nat) :
    stripedDot a b (Nat.pow 2 k) = .ok (laneDot a b k : α) := by
  have hPos : 0 < Nat.pow 2 k := Nat.two_pow_pos k
  rw [stripedDot, if_neg (by omega), total_eq (partials_spec a b _).1]
  rfl

end Lanes

/-- Delta is written for every row of a unit that has a place in `out`. The places behind keep their
values. -/
theorem computeDelta_spec [Scalar α] [Element ε α] {o dO : Array ε} {windowO windowDO : Window}
    {numQueries cols blockI k : Nat} {out : Array α} (hBlock : 0 < blockI)
    (hLanes : threadsPerRow blockI = Nat.pow 2 k)
    (hInO : ∀ row < min numQueries out.size, windowO.rowStart row + cols ≤ o.size)
    (hInDO : ∀ row < min numQueries out.size, windowDO.rowStart row + cols ≤ dO.size) :
    ∃ after, computeDelta o dO windowO windowDO numQueries cols blockI out = .ok after ∧
      after.size = out.size ∧
      (∀ row < min numQueries out.size, after[row]? = some (Lanes.laneDot
        (o.extract (windowO.rowStart row) (windowO.rowStart row + cols))
        (dO.extract (windowDO.rowStart row) (windowDO.rowStart row + cols)) k)) ∧
      ∀ place, numQueries ≤ place → after[place]? = out[place]? := by
  let delta := fun row => (Lanes.laneDot
    (o.extract (windowO.rowStart row) (windowO.rowStart row + cols))
    (dO.extract (windowDO.rowStart row) (windowDO.rowStart row + cols)) k : α)
  have hStep : ∀ now : Array α, ∀ row ∈ List.range (min numQueries out.size), now.size = out.size →
      ∃ next, (do
          let rowO ← windowO.row o row cols
          let rowDO ← windowDO.row dO row cols
          let delta ← Lanes.stripedDot rowO rowDO (Nat.pow 2 k)
          return now.setIfInBounds row delta) = Except.ok next ∧ next.size = out.size ∧
        now.size = out.size ∧ next = now.setIfInBounds row (delta row) := by
    intro now row hRow hNow
    rw [List.mem_range] at hRow
    rw [Window.row_eq (hInO row hRow), ok_bind, Window.row_eq (hInDO row hRow), ok_bind,
      Lanes.stripedDot_eq, ok_bind]
    exact ⟨_, rfl, by rw [Array.size_setIfInBounds, hNow], hNow, rfl⟩
  obtain ⟨after, hRun, hSize, hSteps⟩ := foldlM_steps _ _ hStep rfl
  refine ⟨after, ?_, hSize, fun row hRow => ?_, fun place hPlace => ?_⟩
  · rw [computeDelta, threadsPerRow?, if_neg (by omega), hLanes]
    exact hRun
  · refine hSteps.observe_once List.nodup_range (List.mem_range.mpr hRow) (fun now => now[row]?)
      (fun _ => some _) ?_ ?_
    · rintro now next ⟨hNow, rfl⟩
      rw [Array.getElem?_setIfInBounds, if_pos rfl, if_pos (by omega)]
    · rintro now next r - hOther ⟨-, rfl⟩
      rw [Array.getElem?_setIfInBounds, if_neg hOther]
  · refine hSteps.frame (fun now => now[place]?) ?_
    rintro now next row hRow ⟨-, rfl⟩
    rw [List.mem_range] at hRow
    rw [Array.getElem?_setIfInBounds, if_neg (by omega)]

end FusedAttention
