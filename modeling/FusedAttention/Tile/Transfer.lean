import FusedAttention.Scalar.Element
import FusedAttention.Tile
import FusedAttention.Window

/-! Moving data between tensors and tiles. A load widens the leading block and leaves
zeros elsewhere; a store rounds the leading block of a tile and touches nothing else. -/
namespace FusedAttention

variable {α ε : Type}

/-- How a stored tile meets its destination. -/
inductive StoreMode where
  | overwrite
  | accumulate
  deriving DecidableEq, Repr

namespace StoreMode

def ofFirst (first : Bool) : StoreMode :=
  if first then .overwrite else .accumulate

end StoreMode

namespace Tile

variable [Scalar α] [Element ε α] {r c : Nat}

/-- The leading `rows` by `cols` block of a region, widened, with zeros outside it. -/
def load (source : Array ε) (window : Window) (rows cols : Nat) : Except Fault (Tile α r c) := do
  let runs ← (List.range (min rows r)).mapM fun i => window.row source i (min cols c)
  let runs := runs.toArray
  return ofFn fun i j =>
    match runs[i.val]?.bind (·[j.val]?) with
    | some x => Element.widen x
    | none => 0

/-- The value that `alpha * s` leaves where `old` stood. -/
@[inline] def stored (mode : StoreMode) (alpha s : α) (old : ε) : ε :=
  match mode with
  | .overwrite => Element.round (alpha * s)
  | .accumulate => Element.round (Element.widen old + alpha * s)

/-- Writes the first `cols` entries of one row of `alpha * t`. -/
def storeRow (t : Tile α r c) (window : Window) (cols : Nat) (alpha : α) (mode : StoreMode)
    (target : Array ε) (row : Nat) : Except Fault (Array ε) :=
  window.updateRow target row (min cols c) fun j old => stored mode alpha (t.entry row j) old

/-- Writes the leading `rows` by `cols` block of `alpha * t` row by row. -/
def store (t : Tile α r c) (target : Array ε) (window : Window) (rows cols : Nat) (alpha : α)
    (mode : StoreMode) : Except Fault (Array ε) :=
  (List.range (min rows r)).foldlM (t.storeRow window cols alpha mode) target

/-- Adds to each entry of `sums` the entries of its column in the leading `rows` rows.
Entries of `sums` past the last column keep their value. -/
def addColumnSums (t : Tile α r c) (rows : Nat) (sums : Array α) : Array α :=
  sums.mapIdx fun j sum =>
    if j < c then Fin.foldl (min rows r) (fun sum i => sum + t.entry i.val j) sum else sum

end Tile

/-- The first `length` of `n` entries from a run, the others `pad`. -/
def loadVector (n : Nat) (source : Array α) (length : Nat) (pad : α) :
    Except Fault (Vector α n) :=
  let length := min length n
  if source.size < length then .error (.sliceOutside 0 length source.size)
  else .ok (Vector.ofFn fun i => if i.val < length then source.getD i.val pad else pad)

/-- Fills the leading rows of the two key-side gradients with zeros. -/
def zeroFillKeyRows [Element ε α] (gradK gradV : Array ε) (windowK windowV : Window)
    (rows headDim headDimValue : Nat) : Except Fault (Array ε × Array ε) := do
  let gradK ← windowK.fillRows gradK rows headDim (Element.zero (α := α))
  let gradV ← windowV.fillRows gradV rows headDimValue (Element.zero (α := α))
  return (gradK, gradV)

end FusedAttention
