import FusedAttention.Fault

/-! Strided windows into flat buffers. A window addresses a region of rows that are
`rowStride` elements apart and contiguous within; strides between batches and heads
are folded into its offset. -/
namespace FusedAttention

/-- The run of `length` elements from `start`, which has to end inside the buffer. -/
def sliceOf {τ : Type} (data : Array τ) (start length : Nat) : Except Fault (Array τ) :=
  if start + length ≤ data.size then .ok (data.extract start (start + length))
  else .error (.sliceOutside start (start + length) data.size)

/-- Replaces the `c`-th element of the run of `length` elements from `start` by `f c` of
it, for every `c`. -/
@[specialize] def updateRun {τ : Type} (data : Array τ) (start length : Nat)
    (f : Nat → τ → τ) : Array τ :=
  Nat.fold length (fun c _ data => data.modify (start + c) (f c)) data

/-- Writes `values` over the run of the same length from `start`. -/
def writeRun {τ : Type} (data : Array τ) (start : Nat) (values : Array τ) : Array τ :=
  Nat.fold values.size (fun c h data => data.setIfInBounds (start + c) values[c]) data

/-- As `writeRun`, but the run has to end inside the buffer. -/
def putRun {τ : Type} (data : Array τ) (start : Nat) (values : Array τ) :
    Except Fault (Array τ) :=
  if start + values.size ≤ data.size then .ok (writeRun data start values)
  else .error (.sliceOutside start (start + values.size) data.size)

/-- The runs of `length` elements that a buffer falls into, the last one shorter if it has to
be. -/
def runsOf {τ : Type} (data : Array τ) (length : Nat) : List (Array τ) :=
  (List.range ((data.size + length - 1) / length)).map fun n =>
    data.extract (n * length) ((n + 1) * length)

/-- Where a region lies in a buffer. -/
structure Window where
  offset : Nat
  rowStride : Nat
  deriving DecidableEq, Repr, Inhabited

namespace Window

/-- The same region from entry `(row, col)` on. -/
def sub (w : Window) (row col : Nat) : Window :=
  { w with offset := w.offset + row * w.rowStride + col }

/-- Address of the first element of a row. -/
def rowStart (w : Window) (row : Nat) : Nat :=
  w.offset + row * w.rowStride

/-- One element of the region. -/
def entry {τ : Type} (w : Window) (data : Array τ) (row col : Nat) : Except Fault τ :=
  match data[w.rowStart row + col]? with
  | some x => .ok x
  | none => .error (.indexOutside (w.rowStart row + col) data.size)

/-- The first `length` elements of a row. -/
def row {τ : Type} (w : Window) (data : Array τ) (row length : Nat) : Except Fault (Array τ) :=
  sliceOf data (w.rowStart row) length

/-- Address of the first element of a row of `length` elements that is to be written. The
row has to end inside the whole buffer. -/
def rowWithin {τ : Type} (w : Window) (data : Array τ) (row length : Nat) : Except Fault Nat :=
  let start := w.rowStart row
  if start + length ≤ data.size then .ok start
  else .error (.rowOutside row start (start + length) data.size)

/-- Replaces the first `length` elements of a row by `f` of them; nothing is written if the
row is not inside the buffer. -/
@[specialize] def updateRow {τ : Type} (w : Window) (data : Array τ) (row length : Nat)
    (f : Nat → τ → τ) : Except Fault (Array τ) := do
  let start ← w.rowWithin data row length
  return updateRun data start length f

/-- Sets the leading `rows` by `cols` block to one value. -/
def fillRows {τ : Type} (w : Window) (data : Array τ) (rows cols : Nat) (value : τ) :
    Except Fault (Array τ) :=
  (List.range rows).foldlM (fun data r => w.updateRow data r cols fun _ _ => value) data

end Window

end FusedAttention
