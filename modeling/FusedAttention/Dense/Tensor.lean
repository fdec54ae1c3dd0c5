import FusedAttention.Shape

/-! Dense tensors: dimensions and as many elements, the last dimension contiguous. -/
namespace FusedAttention

structure Tensor (α : Type) where
  dims : List Nat
  data : Array α
  size_eq : data.size = extent dims

namespace Tensor

variable {α β : Type}

instance : Inhabited (Tensor α) := ⟨⟨[0], #[], rfl⟩⟩

/-- The tensor with the given dimensions whose element at position `p` is `f p`. -/
def ofFn (dims : List Nat) (f : Nat → α) : Tensor α :=
  ⟨dims, Array.ofFn fun p : Fin (extent dims) => f p.val, by simp⟩

/-- The tensor that a run of elements holds, which has to have the right length. -/
def ofArray? (dims : List Nat) (data : Array α) : Except Fault (Tensor α) :=
  if h : data.size = extent dims then .ok ⟨dims, data, h⟩
  else .error (.lengthMismatch (extent dims) data.size)

def map (f : α → β) (t : Tensor α) : Tensor β :=
  ⟨t.dims, t.data.map f, by simp [t.size_eq]⟩

/-- One dimension, zero where there is no such dimension. -/
def dim (t : Tensor α) (i : Nat) : Nat :=
  t.dims.getD i 0

/-- The element at a position, zero past the end. -/
@[inline] def at1 [Zero α] (t : Tensor α) (p : Nat) : α :=
  t.data.getD p 0

/-- An element of a tensor of three dimensions. -/
@[inline] def at3 [Zero α] (t : Tensor α) (a b c : Nat) : α :=
  match t.dims with
  | [_, n, m] => t.at1 ((a * n + b) * m + c)
  | _ => 0

/-- An element of a tensor of four dimensions. -/
@[inline] def at4 [Zero α] (t : Tensor α) (a b c d : Nat) : α :=
  match t.dims with
  | [_, n, m, k] => t.at1 (((a * n + b) * m + c) * k + d)
  | _ => 0

@[inline] def ofFn2 (l n : Nat) (f : Nat → Nat → α) : Tensor α :=
  ofFn [l, n] fun p => f (p / n) (p % n)

@[inline] def ofFn3 (l n m : Nat) (f : Nat → Nat → Nat → α) : Tensor α :=
  ofFn [l, n, m] fun p => f (p / (n * m)) (p / m % n) (p % m)

@[inline] def ofFn4 (l n m k : Nat) (f : Nat → Nat → Nat → Nat → α) : Tensor α :=
  ofFn [l, n, m, k] fun p => f (p / (n * m * k)) (p / (m * k) % n) (p / k % m) (p % k)

/-! ### Stretching -/

/-- The extent that two dimensions meet in. A dimension of extent one goes with any other. -/
def commonExtent? (a b : Nat) : Except Fault Nat :=
  if a = b ∨ b = 1 then .ok a
  else if a = 1 then .ok b
  else .error (.unfitDimensions [a] [b])

/-- Where a dimension is read for an index: one entry stands for every index. -/
def entryFor (extent index : Nat) : Nat :=
  if extent = 1 then 0 else index

/-- The tensor repeated along its dimensions of extent one. -/
def stretch4 [Zero α] (t : Tensor α) (l n m k : Nat) : Tensor α :=
  let l' := t.dim 0
  let n' := t.dim 1
  let m' := t.dim 2
  let k' := t.dim 3
  .ofFn4 l n m k fun a b c d =>
    t.at4 (entryFor l' a) (entryFor n' b) (entryFor m' c) (entryFor k' d)

theorem entryFor_of_lt {extent index : Nat} (h : index < extent) :
    entryFor extent index = index := by
  unfold entryFor
  split <;> omega

/-- A position and the four coordinates that it stands for. -/
theorem position_of_coordinates (p n m k : Nat) :
    ((p / (n * m * k) * n + p / (m * k) % n) * m + p / k % m) * k + p % k = p := by
  rw [Nat.mul_comm (n * m) k, Nat.mul_comm m k, ← Nat.div_div_eq_div_mul,
    ← Nat.div_div_eq_div_mul p k m, Nat.mul_comm n m, ← Nat.div_div_eq_div_mul (p / k) m n,
    Nat.div_add_mod', Nat.div_add_mod', Nat.div_add_mod']

/-- Stretching a tensor to its own dimensions leaves it as it is. -/
theorem stretch4_self [Zero α] {t : Tensor α} {l n m k : Nat} (h : t.dims = [l, n, m, k]) :
    t.stretch4 l n m k = t := by
  obtain ⟨dims, data, size_eq⟩ := t
  subst h
  have size : data.size = l * n * m * k := by simpa [extent, Nat.mul_assoc] using size_eq
  simp only [stretch4, ofFn4, ofFn, at4, at1, dim, mk.injEq, true_and]
  apply Array.ext
  · simpa using size_eq.symm
  · intro p hp hp'
    have bound : p < l * n * m * k := size ▸ hp'
    have hk : 0 < k := Nat.pos_of_ne_zero fun h => by simp [h] at bound
    have hm : 0 < m := Nat.pos_of_ne_zero fun h => by simp [h] at bound
    have hn : 0 < n := Nat.pos_of_ne_zero fun h => by simp [h] at bound
    have hl : p / (n * m * k) < l :=
      Nat.div_lt_of_lt_mul (by simpa [Nat.mul_comm, Nat.mul_assoc, Nat.mul_left_comm] using bound)
    simp only [Array.getElem_ofFn]
    simp only [List.getD_cons_zero, List.getD_cons_succ, entryFor_of_lt hl,
      entryFor_of_lt (Nat.mod_lt _ hn), entryFor_of_lt (Nat.mod_lt _ hm),
      entryFor_of_lt (Nat.mod_lt _ hk), position_of_coordinates]
    simp [hp']

end Tensor

end FusedAttention
