import FusedAttention.Dense.Untiled
import FusedAttention.Proofs.Grouping
import FusedAttention.Proofs.Stages

/-! Entries of dense tensors by their coordinates, and of the mask that is stored for all units. -/
namespace FusedAttention

variable {α : Type}

/-- The last coordinate of a row-major number and the number of the rest. -/
theorem row_major {q cols r : Nat} (hr : r < cols) :
    (q * cols + r) / cols = q ∧ (q * cols + r) % cols = r := by
  refine ⟨?_, Nat.mul_add_mod_of_lt hr⟩
  rw [Nat.mul_comm, Nat.mul_add_div (Nat.zero_lt_of_lt hr), Nat.div_eq_of_lt hr, Nat.add_zero]

namespace Tensor

variable [Zero α]

@[simp] theorem at1_ofFn {dims : List Nat} {p : Nat} (f : Nat → α) (hp : p < extent dims) :
    (ofFn dims f).at1 p = f p := by
  rw [at1, ofFn, Array.getD_eq_getD_getElem?, Array.getElem?_ofFn, dif_pos hp, Option.getD_some]

variable {l n m k a b c d : Nat}

@[simp] theorem at1_ofFn2 (f : Nat → Nat → α) (ha : a < l) (hb : b < n) :
    (ofFn2 l n f).at1 (a * n + b) = f a b := by
  have hIn : a * n + b < extent [l, n] := by simpa [extent] using mul_add_lt ha hb
  obtain ⟨hDiv, hMod⟩ := row_major (q := a) hb
  rw [ofFn2, at1_ofFn _ hIn, hDiv, hMod]

@[simp] theorem at3_ofFn3 (f : Nat → Nat → Nat → α) (ha : a < l) (hb : b < n) (hc : c < m) :
    (ofFn3 l n m f).at3 a b c = f a b c := by
  have hIn : (a * n + b) * m + c < extent [l, n, m] := by
    simpa [extent, Nat.mul_assoc] using mul_add_lt (mul_add_lt ha hb) hc
  obtain ⟨hDiv, hMod⟩ := row_major (q := a * n + b) hc
  obtain ⟨hDiv', hMod'⟩ := row_major (q := a) hb
  show (ofFn3 l n m f).at1 _ = _
  rw [ofFn3, at1_ofFn _ hIn, Nat.mul_comm n m, ← Nat.div_div_eq_div_mul, hDiv, hMod, hDiv', hMod']

/-- The place of an entry of four coordinates. -/
theorem place_lt (ha : a < l) (hb : b < n) (hc : c < m) (hd : d < k) :
    ((a * n + b) * m + c) * k + d < extent [l, n, m, k] := by
  simpa [extent, Nat.mul_assoc] using mul_add_lt (mul_add_lt (mul_add_lt ha hb) hc) hd

theorem at4_ofFn (f : Nat → α) (ha : a < l) (hb : b < n) (hc : c < m) (hd : d < k) :
    (ofFn [l, n, m, k] f).at4 a b c d = f (((a * n + b) * m + c) * k + d) :=
  at1_ofFn f (place_lt ha hb hc hd)

@[simp] theorem at4_ofFn4 (f : Nat → Nat → Nat → Nat → α) (ha : a < l) (hb : b < n) (hc : c < m)
    (hd : d < k) : (ofFn4 l n m k f).at4 a b c d = f a b c d := by
  obtain ⟨hDiv, hMod⟩ := row_major (q := (a * n + b) * m + c) hd
  obtain ⟨hDiv', hMod'⟩ := row_major (q := a * n + b) hc
  obtain ⟨hDiv'', hMod''⟩ := row_major (q := a) hb
  rw [ofFn4, at4_ofFn _ ha hb hc hd, Nat.mul_comm (n * m) k, Nat.mul_comm m k,
    ← Nat.div_div_eq_div_mul, ← Nat.div_div_eq_div_mul _ k m, Nat.mul_comm n m,
    ← Nat.div_div_eq_div_mul _ m n, hDiv, hMod, hDiv', hMod', hDiv'', hMod'']

theorem at4_map {t : Tensor α} (f : α → α) (hDims : t.dims = [l, n, m, k]) (ha : a < l) (hb : b < n)
    (hc : c < m) (hd : d < k) : (t.map f).at4 a b c d = f (t.at4 a b c d) := by
  obtain ⟨dims, data, hSize⟩ := t
  dsimp only at hDims
  subst hDims
  have hIn : ((a * n + b) * m + c) * k + d < data.size := by
    rw [hSize]
    exact place_lt ha hb hc hd
  show (data.map f).getD _ 0 = f (data.getD _ 0)
  rw [Array.getD_eq_getD_getElem?, Array.getD_eq_getD_getElem?, Array.getElem?_map,
    Array.getElem?_eq_getElem hIn]
  rfl

end Tensor

/-! ### Masks -/

/-- The units by their row-major numbers. -/
theorem Shape.unitCoords_eq (s : Shape) : s.unitCoords =
    (List.range s.units).map fun p => ⟨p / s.heads, p % s.heads⟩ := by
  have hAll : ∀ n, ((List.range n).flatMap fun b => (List.range s.heads).map fun h =>
      (⟨b, h⟩ : UnitCoord)) = (List.range (n * s.heads)).map fun p => ⟨p / s.heads, p % s.heads⟩ := by
    intro n
    induction n with
    | zero => rw [Nat.zero_mul]; rfl
    | succ n ih =>
        rw [List.range_succ, List.flatMap_append, ih, Nat.succ_mul, List.range_add, List.map_append,
          List.map_map, List.flatMap_singleton]
        refine congrArg _ (List.map_congr_left fun h hh => ?_)
        obtain ⟨hDiv, hMod⟩ := row_major (q := n) (List.mem_range.mp hh)
        rw [Function.comp_apply, hDiv, hMod]
  exact hAll s.batch

section Masks

variable [Scalar α] {d : Dropout} {s : Shape}

/-- The masks of all units, each in one piece. -/
theorem exists_maskPlanes (hOn : d.isEnabled = true) (hQueries : 0 < s.numQueries)
    (hKeys : 0 < s.numKeys) {overflow : Overflow} (hSums : overflow = .wrapping ∨ d.Fits s) :
    ∃ plane : UnitCoord → Array α, ∀ u, s.HasUnit u →
      maskPlane d s u overflow = .ok (plane u) := by
  have hMade : ∀ u, ∃ plane : Array α, s.HasUnit u → maskPlane d s u overflow = .ok plane := by
    intro u
    by_cases hu : s.HasUnit u
    · obtain ⟨plane, hPlane⟩ := exists_maskPlane (α := α) hOn hQueries hKeys
        (hSums.imp_right fun h => h.unit hu.1 hu.2)
      exact ⟨plane, fun _ => hPlane⟩
    · exact ⟨#[], fun h => absurd h hu⟩
  choose plane hPlane using hMade
  exact ⟨plane, hPlane⟩

/-- The mask that is stored for all units has the factors of each of them, in whole rows. It is made
if no position is a fault. -/
theorem dropoutMask_spec (hQueries : 0 < s.numQueries) (hKeys : 0 < s.numKeys) {d : Dropout}
    {overflow : Overflow} (hSums : d.isEnabled = true → overflow = .wrapping ∨ d.Fits s) :
    ∃ mask : Option (Tensor α), Untiled.dropoutMask s d overflow = .ok mask ∧
      ∀ u, s.HasUnit u → ∀ i < s.numQueries, ∀ j < s.numKeys,
        mask.map (·.at4 u.batchId u.head i j) = (d.mask s u s.numKeys).map (· i j) := by
  by_cases hOn : d.isEnabled = true
  · obtain ⟨plane, hPlane⟩ := exists_maskPlanes (α := α) hOn hQueries hKeys (hSums hOn)
    have hPlanes : s.unitCoords.mapM (maskPlane d s · overflow) = .ok (s.unitCoords.map plane) :=
      mapM_eq_ok fun u hMem => hPlane u (Shape.mem_unitCoords.mp hMem)
    have hUnits : s.unitCoords.map plane =
        (List.range s.units).map fun p => plane ⟨p / s.heads, p % s.heads⟩ := by
      rw [Shape.unitCoords_eq, List.map_map]
      rfl
    refine ⟨some (.ofFn [s.batch, s.heads, s.numQueries, s.numKeys] fun p =>
      ((s.unitCoords.map plane).foldl (· ++ ·) #[]).getD p 0), ?_, ?_⟩
    · rw [Untiled.dropoutMask, if_pos hOn, hPlanes]
      rfl
    · intro u hu i hi j hj
      have hUnit : (⟨(u.batchId * s.heads + u.head) / s.heads,
          (u.batchId * s.heads + u.head) % s.heads⟩ : UnitCoord) = u := by
        obtain ⟨hDiv, hMod⟩ := row_major (q := u.batchId) hu.2
        rw [hDiv, hMod]
      have hPlace : ((u.batchId * s.heads + u.head) * s.numQueries + i) * s.numKeys + j =
          (u.batchId * s.heads + u.head) * s.scoresPerHead + (i * s.numKeys + j) := by
        rw [Shape.scoresPerHead, Nat.add_mul, Nat.mul_assoc, Nat.add_assoc]
      have hLengths : ∀ p < s.units, (plane ⟨p / s.heads, p % s.heads⟩).size = s.scoresPerHead := by
        intro p hp
        obtain ⟨u', hu', rfl⟩ := Shape.exists_index hp
        obtain ⟨hDiv, hMod⟩ := row_major (q := u'.batchId) hu'.2
        rw [UnitCoord.index, hDiv, hMod]
        exact (maskPlane_entries hOn (hPlane u' hu')).1
      have hEntry := (join_spec hLengths).2 _ (mul_add_lt hu.1 hu.2) _ (mul_add_lt hi hj)
      have hFactor : d.rowFactor s u i (tileOf s.numKeys j) (j % s.numKeys) =
          (d.rowFactor s u i 0 j : α) := by
        rw [tileOf, Nat.div_eq_of_lt hj, Nat.mod_eq_of_lt hj, Nat.zero_mul]
      rw [hUnit, (maskPlane_entries hOn (hPlane u hu)).2 i hi j hj] at hEntry
      rw [Option.map_some, Dropout.mask, if_pos hOn, Option.map_some,
        Tensor.at4_ofFn _ hu.1 hu.2 hi hj, hPlace, hUnits, Array.getD_eq_getD_getElem?, hEntry,
        Option.getD_some]
      exact congrArg some hFactor.symm
  · exact ⟨none, if_neg hOn, fun u _ i _ j _ => by rw [Dropout.mask, if_neg hOn]; rfl⟩

end Masks

end FusedAttention
