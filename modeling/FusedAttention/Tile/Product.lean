import FusedAttention.Tile

/-! Products of tiles that accumulate into a third tile. Only the first `depth` entries
of the shared dimension take part, so zero tails cost nothing, and a zero on the left
is skipped before it meets the right-hand side. -/
namespace FusedAttention.Tile

variable {α : Type} [Scalar α] {m n k width : Nat}

/-- Adds `a * b` unless `a` is zero, in which case `b` is not looked at. -/
@[inline] def mulAddUnlessZero (sum a b : α) : α :=
  if Scalar.isZero a then sum else sum + a * b

/-- `c + a * b` with the columns of `b` taken from `offset` on. Columns of `c` that fall
past the last column of `b` keep their value. Each entry collects its terms in the order
of the shared index. -/
def mulAdd (c : Tile α m n) (a : Tile α m k) (b : Tile α k width) (depth offset : Nat) :
    Tile α m n :=
  ofFn fun i j =>
    if h : offset + j.val < width then
      Fin.foldl (min depth k) (fun sum s =>
        let s : Fin k := s.castLE (Nat.min_le_right depth k)
        mulAddUnlessZero sum (a.get i s) (b.get s ⟨offset + j.val, h⟩)) (c.get i j)
    else c.get i j

/-- Adds the product of column `a` and row `b` to a tile, the columns of `b` taken from
`offset` on. -/
def addOuter (c : Tile α m n) (a : Fin m → α) (b : Fin width → α) (offset : Nat) :
    Tile α m n :=
  ofFn fun i j =>
    if h : offset + j.val < width then mulAddUnlessZero (c.get i j) (a i) (b ⟨offset + j.val, h⟩)
    else c.get i j

/-- `c + aᵀ * b`: one outer product after the other, over the rows that `a` and `b`
share. -/
def transposeMulAdd (c : Tile α m n) (a : Tile α k m) (b : Tile α k width)
    (depth offset : Nat) : Tile α m n :=
  Fin.foldl (min depth k) (fun c s =>
    let s : Fin k := s.castLE (Nat.min_le_right depth k)
    addOuter c (a.get s) (b.get s) offset) c

/-- `c + a * bᵀ`: every entry takes the dot product of two rows, summed on its own from
zero. -/
def mulTransposeAdd (c : Tile α m n) (a : Tile α m k) (b : Tile α n k) (depth : Nat) :
    Tile α m n :=
  ofFn fun i j =>
    c.get i j + Fin.foldl (min depth k) (fun sum s =>
      let s : Fin k := s.castLE (Nat.min_le_right depth k)
      sum + a.get i s * b.get j s) 0

end FusedAttention.Tile
