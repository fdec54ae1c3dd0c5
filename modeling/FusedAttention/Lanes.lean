import FusedAttention.Fault
import FusedAttention.Scalar.Element

/-! Sums over lanes that work in step. Lanes exchange their values in pairs, and after
the last exchange every lane holds the sum of all. -/
namespace FusedAttention.Lanes

variable {α ε : Type}

/-- The lane whose number differs in bit `bit`. -/
def partner {k : Nat} (lane : Fin (Nat.pow 2 k)) (bit : Fin k) : Fin (Nat.pow 2 k) :=
  ⟨lane.val ^^^ Nat.pow 2 bit.val,
    Nat.xor_lt_two_pow lane.isLt (Nat.pow_lt_pow_of_lt (by decide) bit.isLt)⟩

/-- Every lane adds the value of its partner. -/
def exchange [Add α] {k : Nat} (lanes : Vector α (Nat.pow 2 k)) (bit : Fin k) :
    Vector α (Nat.pow 2 k) :=
  Vector.ofFn fun lane =>
    lanes.get lane + lanes.get (partner lane bit)

/-- One exchange for every bit of a lane number, the lowest first. -/
def butterfly [Add α] {k : Nat} (lanes : Vector α (Nat.pow 2 k)) : Vector α (Nat.pow 2 k) :=
  Fin.foldl k exchange lanes

/-- The lanes after all exchanges; their number has to be a power of two. -/
def reduce [Add α] (lanes : Array α) : Except Fault (Array α) :=
  if h : lanes.size = Nat.pow 2 lanes.size.log2 then
    .ok (butterfly (k := lanes.size.log2) ⟨lanes, h⟩).toArray
  else .error (.unevenLanes lanes.size)

/-- The sum of all lanes, read off the first lane. -/
def total [Zero α] [Add α] (lanes : Array α) : Except Fault α :=
  (reduce lanes).map fun lanes => lanes.getD 0 0

/-- Products of two rows summed per lane: lane `l` of `count` owns the columns `l`,
`l + count`, … -/
def partials [Scalar α] [Element ε α] (a b : Array ε) (count : Nat) : Array α :=
  Nat.fold (min a.size b.size) (fun col h sums =>
    have ha : col < a.size := by omega
    have hb : col < b.size := by omega
    sums.modify (col % count) (· + Element.widen a[col] * Element.widen b[col]))
    (Array.replicate count 0)

/-- Dot product of two rows over `count` lanes. -/
def stripedDot [Scalar α] [Element ε α] (a b : Array ε) (count : Nat) : Except Fault α :=
  if count = 0 ∧ min a.size b.size ≠ 0 then .error .zeroDivisor
  else total (partials a b count)

end FusedAttention.Lanes
