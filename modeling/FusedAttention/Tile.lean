import FusedAttention.Fault
import FusedAttention.Scalar

/-! Tiles: small matrices of fixed extents, stored row by row. Tiles hold the wide
arithmetic, whatever the element type of the tensors. -/
namespace FusedAttention

/-- A matrix of `r` rows and `c` columns, row-major. -/
structure Tile (α : Type) (r c : Nat) where
  data : Vector α (r * c)
  deriving DecidableEq

namespace Tile

variable {α : Type} {r c : Nat}

theorem flat_lt (i : Fin r) (j : Fin c) : i.val * c + j.val < r * c :=
  Nat.lt_of_lt_of_le (Nat.add_lt_add_left j.isLt _)
    (by rw [← Nat.succ_mul]; exact Nat.mul_le_mul_right c i.isLt)

/-- The entry in row `i` and column `j`. -/
@[inline] def get (t : Tile α r c) (i : Fin r) (j : Fin c) : α :=
  t.data.get ⟨i.val * c + j.val, flat_lt i j⟩

theorem rowIndex_lt (p : Fin (r * c)) : p.val / c < r :=
  Nat.div_lt_of_lt_mul (Nat.mul_comm r c ▸ p.isLt)

theorem colIndex_lt (p : Fin (r * c)) : p.val % c < c :=
  Nat.mod_lt _ (Nat.pos_of_ne_zero fun h => by
    have := p.isLt
    simp [h] at this)

/-- The tile with the entries `f i j`. -/
@[inline] def ofFn (f : Fin r → Fin c → α) : Tile α r c :=
  ⟨Vector.ofFn fun p => f ⟨p.val / c, rowIndex_lt p⟩ ⟨p.val % c, colIndex_lt p⟩⟩

def fill (x : α) : Tile α r c :=
  ⟨Vector.replicate (r * c) x⟩

/-- The entry in row `i` and column `j`, zero outside the tile. -/
@[inline] def entry [Zero α] (t : Tile α r c) (i j : Nat) : α :=
  if h : i < r ∧ j < c then t.get ⟨i, h.1⟩ ⟨j, h.2⟩ else 0

def transpose (t : Tile α r c) : Tile α c r :=
  ofFn fun i j => t.get j i

/-- Every entry times `x`. -/
def scale [Mul α] (t : Tile α r c) (x : α) : Tile α r c :=
  ⟨t.data.map (· * x)⟩

/-! ### Access by address

Rows and columns are addresses into the row-major storage here: entry `(0, c)` of a
tile with `c` columns is entry `(1, 0)`. -/

def read (t : Tile α r c) (row col : Nat) : Except Fault α :=
  match t.data.toArray[row * c + col]? with
  | some x => .ok x
  | none => .error (.indexOutside (row * c + col) (r * c))

def write (t : Tile α r c) (row col : Nat) (x : α) : Except Fault (Tile α r c) :=
  if h : row * c + col < r * c then .ok ⟨t.data.set (row * c + col) x h⟩
  else .error (.indexOutside (row * c + col) (r * c))

def readRow (t : Tile α r c) (row : Nat) : Except Fault (Array α) :=
  if (row + 1) * c ≤ r * c then .ok (t.data.toArray.extract (row * c) ((row + 1) * c))
  else .error (.sliceOutside (row * c) ((row + 1) * c) (r * c))

def fillRow (t : Tile α r c) (row : Nat) (x : α) : Except Fault (Tile α r c) :=
  if (row + 1) * c ≤ r * c then
    .ok ⟨Vector.ofFn fun p => if row * c ≤ p.val ∧ p.val < (row + 1) * c then x else t.data[p]⟩
  else .error (.sliceOutside (row * c) ((row + 1) * c) (r * c))

/-- The tile that a row-major run of exactly its size holds. -/
def ofRun (values : Array α) : Except Fault (Tile α r c) :=
  if h : values.size = r * c then .ok ⟨⟨values, h⟩⟩
  else .error (.lengthMismatch (r * c) values.size)

/-- The contents of a run of exactly the tile's size once the tile is parked in it. -/
def park (t : Tile α r c) (run : Array α) : Except Fault (Array α) :=
  if run.size = r * c then .ok t.data.toArray
  else .error (.lengthMismatch (r * c) run.size)

end Tile

end FusedAttention
