import FusedAttention.Proofs.Buffers
import FusedAttention.Tile.Product
import FusedAttention.Tile.Transfer
import Mathlib.Data.List.Basic

/-! Tiles entry by entry: products as sums in the order of the shared index, and transfers
between tiles and buffers as blocks. -/
namespace FusedAttention

variable {α ε : Type}

/-- A loop over the numbers below `n` as a fold over their list. -/
theorem finFoldl_eq_foldl_range {β : Type} (n : Nat) (f : β → Fin n → β) (g : β → Nat → β)
    (h : ∀ b (i : Fin n), f b i = g b i.val) (start : β) :
    Fin.foldl n f start = (List.range n).foldl g start := by
  induction n with
  | zero => rw [Fin.foldl_zero, List.range_zero, List.foldl_nil]
  | succ n ih =>
      rw [Fin.foldl_succ_last, List.range_succ, List.foldl_append, List.foldl_cons,
        List.foldl_nil, h, Fin.val_last, ih (fun b i => f b i.castSucc) fun b i => h b i.castSucc]

namespace Tile

variable {r c : Nat}

@[simp] theorem get_ofFn (f : Fin r → Fin c → α) (i : Fin r) (j : Fin c) : (ofFn f).get i j = f i j := by
  have hc : 0 < c := Nat.lt_of_le_of_lt (Nat.zero_le _) j.isLt
  have hRow : (i.val * c + j.val) / c = i.val := by
    rw [Nat.mul_comm, Nat.mul_add_div hc, Nat.div_eq_of_lt j.isLt, Nat.add_zero]
  have hCol : (i.val * c + j.val) % c = j.val := by
    rw [Nat.mul_comm, Nat.mul_add_mod, Nat.mod_eq_of_lt j.isLt]
  refine (Vector.getElem_ofFn (flat_lt i j)).trans ?_
  congr 1
  · exact Fin.ext hRow
  · exact Fin.ext hCol

@[simp] theorem get_fill (x : α) (i : Fin r) (j : Fin c) : (fill x : Tile α r c).get i j = x :=
  Vector.getElem_replicate (flat_lt i j)

@[simp] theorem get_scale [Mul α] (t : Tile α r c) (x : α) (i : Fin r) (j : Fin c) :
    (t.scale x).get i j = t.get i j * x :=
  Vector.getElem_map _ (flat_lt i j)

theorem entry_of_lt [Zero α] (t : Tile α r c) {i j : Nat} (hi : i < r) (hj : j < c) :
    t.entry i j = t.get ⟨i, hi⟩ ⟨j, hj⟩ := by
  rw [entry, dif_pos ⟨hi, hj⟩]

/-- The tile with the leading block `f` and zeros outside it. -/
def block [Zero α] (rows cols : Nat) (f : Nat → Nat → α) : Tile α r c :=
  ofFn fun i j => if i.val < rows ∧ j.val < cols then f i j else 0

theorem entry_block [Zero α] {rows cols i j : Nat} (f : Nat → Nat → α) (hRows : rows ≤ r)
    (hCols : cols ≤ c) (hi : i < rows) (hj : j < cols) :
    (block rows cols f : Tile α r c).entry i j = f i j := by
  rw [entry_of_lt _ (by omega) (by omega), block, get_ofFn, if_pos ⟨hi, hj⟩]

/-- Storage of a tile, which is what a slot of the workspace holds. -/
theorem getElem?_data [Zero α] (t : Tile α r c) {i j : Nat} (hi : i < r) (hj : j < c) :
    t.data.toArray[i * c + j]? = some (t.entry i j) := by
  have hFlat : i * c + j < r * c := flat_lt ⟨i, hi⟩ ⟨j, hj⟩
  rw [entry_of_lt t hi hj, Array.getElem?_eq_getElem (by simpa using hFlat)]
  rfl

theorem ofRun_spec [Zero α] {values : Array α} (h : values.size = r * c) :
    ∃ t : Tile α r c, ofRun values = .ok t ∧
      ∀ i < r, ∀ j < c, t.entry i j = (values[i * c + j]?).getD 0 := by
  refine ⟨⟨⟨values, h⟩⟩, by rw [ofRun, dif_pos h], fun i hi j hj => ?_⟩
  have hData := getElem?_data (⟨⟨values, h⟩⟩ : Tile α r c) hi hj
  rw [hData, Option.getD_some]

theorem park_eq {t : Tile α r c} {run : Array α} (h : run.size = r * c) :
    t.park run = .ok t.data.toArray := by
  rw [park, if_pos h]

/-! ### Products -/

section Products

variable [Scalar α] {m n k width : Nat}

/-- Adds the products of the first `count` pairs one after the other, without those whose left
factor is zero. -/
def addProducts (count : Nat) (a b : Nat → α) (start : α) : α :=
  (List.range count).foldl (fun sum s => mulAddUnlessZero sum (a s) (b s)) start

/-- The sum of the products of the first `count` pairs, in order. -/
def dot (count : Nat) (a b : Nat → α) : α :=
  (List.range count).foldl (fun sum s => sum + a s * b s) 0

theorem addProducts_congr {count : Nat} {a b a' b' : Nat → α} (hLeft : ∀ s < count, a s = a' s)
    (hRight : ∀ s < count, b s = b' s) (start : α) :
    addProducts count a b start = addProducts count a' b' start :=
  List.foldl_ext _ _ _ fun sum s hs => by
    rw [hLeft s (List.mem_range.mp hs), hRight s (List.mem_range.mp hs)]

theorem dot_congr {count : Nat} {a b a' b' : Nat → α} (hLeft : ∀ s < count, a s = a' s)
    (hRight : ∀ s < count, b s = b' s) : dot count a b = dot count a' b' :=
  List.foldl_ext _ _ _ fun sum s hs => by
    rw [hLeft s (List.mem_range.mp hs), hRight s (List.mem_range.mp hs)]

theorem entry_mulAdd (t : Tile α m n) (a : Tile α m k) (b : Tile α k width) (depth : Nat)
    {offset i j : Nat} (hi : i < m) (hj : j < n) (hCol : offset + j < width) :
    (t.mulAdd a b depth offset).entry i j = addProducts (min depth k) (a.entry i)
      (fun s => b.entry s (offset + j)) (t.entry i j) := by
  rw [entry_of_lt _ hi hj, entry_of_lt _ hi hj, mulAdd, get_ofFn, dif_pos hCol, addProducts]
  apply finFoldl_eq_foldl_range
  intro sum s
  have hs : s.val < k := by omega
  rw [entry_of_lt a hi hs, entry_of_lt b hs hCol]
  rfl

theorem entry_addOuter (t : Tile α m n) (a : Fin m → α) (b : Fin width → α) {offset i j : Nat}
    (hi : i < m) (hj : j < n) (hCol : offset + j < width) :
    (t.addOuter a b offset).entry i j =
      mulAddUnlessZero (t.entry i j) (a ⟨i, hi⟩) (b ⟨offset + j, hCol⟩) := by
  rw [entry_of_lt _ hi hj, entry_of_lt _ hi hj, addOuter, get_ofFn, dif_pos hCol]

/-- Outer products one after the other leave the same sums as rows times columns. -/
theorem entry_transposeMulAdd (t : Tile α m n) (a : Tile α k m) (b : Tile α k width)
    (depth : Nat) {offset i j : Nat} (hi : i < m) (hj : j < n) (hCol : offset + j < width) :
    (t.transposeMulAdd a b depth offset).entry i j = addProducts (min depth k)
      (fun s => a.entry s i) (fun s => b.entry s (offset + j)) (t.entry i j) := by
  unfold transposeMulAdd addProducts
  have hAll : ∀ count (hCount : count ≤ min depth k),
      (Fin.foldl count (fun c s => addOuter c (a.get (s.castLE (by omega)))
        (b.get (s.castLE (by omega))) offset) t).entry i j =
        (List.range count).foldl (fun sum s => mulAddUnlessZero sum (a.entry s i)
          (b.entry s (offset + j))) (t.entry i j) := by
    intro count hCount
    induction count with
    | zero => rw [Fin.foldl_zero, List.range_zero, List.foldl_nil]
    | succ count ih =>
        have hs : count < k := by omega
        rw [Fin.foldl_succ_last, List.range_succ, List.foldl_append, List.foldl_cons,
          List.foldl_nil, entry_addOuter _ _ _ hi hj hCol, ← ih (by omega), entry_of_lt a hs hi,
          entry_of_lt b hs hCol]
        rfl
  exact hAll (min depth k) (Nat.le_refl _)

theorem get_mulTransposeAdd (t : Tile α m n) (a : Tile α m k) (b : Tile α n k) (depth : Nat)
    (i : Fin m) (j : Fin n) :
    (t.mulTransposeAdd a b depth).get i j =
      t.get i j + dot (min depth k) (a.entry i) (b.entry j) := by
  rw [mulTransposeAdd, get_ofFn, dot]
  congr 1
  apply finFoldl_eq_foldl_range
  intro sum s
  have hs : s.val < k := by omega
  rw [entry_of_lt a i.isLt hs, entry_of_lt b j.isLt hs]
  rfl

end Products

/-! ### Transfers -/

/-- An element of a buffer in the wide arithmetic. -/
def widenAt [Element ε α] (data : Array ε) (p : Nat) : α :=
  Element.widen (data[p]?.getD (Element.zero (α := α)))

theorem widenAt_of_lt [Element ε α] {data : Array ε} {p : Nat} (h : p < data.size) :
    (widenAt data p : α) = Element.widen data[p] := by
  rw [widenAt, Array.getElem?_eq_getElem h, Option.getD_some]

section Transfers

variable [Scalar α] [Element ε α]

/-- A block that lies inside its buffer is loaded with zeros around it. -/
theorem load_eq {source : Array ε} {window : Window} {rows cols : Nat} (hRows : rows ≤ r)
    (hCols : cols ≤ c) (h : ∀ row < rows, window.rowStart row + cols ≤ source.size) :
    load source window rows cols = .ok
      (block rows cols fun i j => widenAt source (window.rowStart i + j) : Tile α r c) := by
  unfold load
  rw [Nat.min_eq_left hRows, Nat.min_eq_left hCols,
    mapM_eq_ok (g := fun i => source.extract (window.rowStart i) (window.rowStart i + cols))
      fun i hi => Window.row_eq (h i (List.mem_range.mp hi)), ok_bind]
  show Except.ok _ = Except.ok _
  unfold block
  congr 2
  funext i j
  rw [List.getElem?_toArray, List.getElem?_map]
  by_cases hi : i.val < rows
  · have hRow := h i.val hi
    rw [List.getElem?_range hi, Option.map_some, Option.bind_some]
    by_cases hj : j.val < cols
    · have hElement : window.rowStart i.val + j.val < source.size := by omega
      rw [if_pos ⟨hi, hj⟩, Array.getElem?_extract_of_lt (by omega)]
      exact (widenAt_of_lt hElement).symm
    · rw [if_neg fun hBoth => hj hBoth.2, Array.getElem?_eq_none (by simp; omega)]
  · rw [if_neg fun hBoth => hi hBoth.1, List.getElem?_eq_none (by simpa using hi)]
    rfl

/-- So are the rows of a window from one row on. -/
theorem load_rows_eq {source : Array ε} {window : Window} {start rows cols : Nat} (hRows : rows ≤ r)
    (hCols : cols ≤ c) (h : ∀ row < rows, window.rowStart (start + row) + cols ≤ source.size) :
    load source (window.sub start 0) rows cols = .ok (block rows cols fun i j =>
      widenAt source (window.rowStart (start + i) + j) : Tile α r c) := by
  have hIn : ∀ row < rows, (window.sub start 0).rowStart row + cols ≤ source.size := by simpa using h
  simp [load_eq hRows hCols hIn]

theorem store_spec {t : Tile α r c} {target : Array ε} {window : Window} {rows cols : Nat}
    (alpha : α) (mode : StoreMode) (hRows : rows ≤ r) (hCols : cols ≤ c)
    (hFits : window.Fits rows cols target.size) :
    ∃ after, t.store target window rows cols alpha mode = .ok after ∧
      window.BlockUpdate rows cols (fun i j => stored mode alpha (t.entry i j)) target after := by
  unfold store
  rw [Nat.min_eq_left hRows]
  refine Window.foldlM_updateRun hFits fun now hNow row hRow => ?_
  unfold storeRow
  rw [Nat.min_eq_left hCols]
  exact Window.updateRow_eq _ (by rw [hNow]; exact hFits.within row hRow)

end Transfers

end Tile

end FusedAttention
