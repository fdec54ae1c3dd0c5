import FusedAttention.Random.ChaCha
import FusedAttention.Scalar
import FusedAttention.Shape

/-! Dropout masks that are never stored. Every (batch, head, query, key) coordinate has its
place in a random stream, and the word there says whether its entry survives. Positions in the
stream are words of 64 bits. An entry that is asked for alone is read at its own position,
and a run of keys from the position of the first of them on. These are the same while places
fit 64 bits; past that they are not, because positions wrap and the stream goes on. -/
namespace FusedAttention

/-- Settings of dropout: the probability of dropping an entry, the seed of the stream,
and the position of the first word. -/
structure Dropout where
  prob : Float32
  seed : UInt64
  offset : UInt64
  deriving Inhabited

namespace Dropout

def disabled : Dropout :=
  ⟨0, 0, 0⟩

def isEnabled (d : Dropout) : Bool :=
  0 < d.prob

/-- What an entry that survives is multiplied by. -/
def keepScale (d : Dropout) : Float32 :=
  if 1 ≤ d.prob then 0 else 1 / (1 - d.prob)

/-- Place in the stream of the word of a unit's first entry. Places go on past 64 bits. -/
def unitPlace (d : Dropout) (s : Shape) (u : UnitCoord) : Nat :=
  d.offset.toNat + u.batchId * s.heads * s.scoresPerHead + u.head * s.scoresPerHead

/-- Position of the word of a unit's first entry, in 64 bits. -/
def unitOffset (d : Dropout) (s : Shape) (u : UnitCoord) : Nat :=
  d.unitPlace s u % UInt64.size

/-- Place of the word of one entry. -/
def place (d : Dropout) (s : Shape) (u : UnitCoord) (query key : Nat) : Nat :=
  d.unitPlace s u + (query * s.numKeys + key)

/-- Position of the word of one entry, in 64 bits. -/
def position (d : Dropout) (s : Shape) (u : UnitCoord) (query key : Nat) : Nat :=
  (d.unitOffset s u + (query * s.numKeys + key)) % UInt64.size

/-- A number from zero up to but not including one, from the leading 24 bits of a
word. -/
def uniform (word : UInt32) : Float32 :=
  (word >>> 8).toFloat32 * (1 / 16777216)

def survives (d : Dropout) (word : UInt32) : Bool :=
  d.prob ≤ uniform word

/-- Whether the entry at one coordinate survives. -/
def keep (d : Dropout) (s : Shape) (u : UnitCoord) (query key : Nat) : Bool :=
  d.survives ((Random.stream8 d.seed).word (d.position s u query key))

/-- The factor that a word stands for. -/
def factor {α : Type} [Scalar α] (d : Dropout) (word : UInt32) : α :=
  if d.survives word then Scalar.ofFloat d.keepScale else 0

end Dropout

/-- Source of the mask of one unit. It carries a position in the stream between two
rows, which every row sets anew. -/
structure MaskSource where
  dropout : Dropout
  reader : Random.Reader
  unitOffset : Nat
  numKeys : Nat

namespace MaskSource

/-- The source of a unit, if there is dropout. -/
def forUnit (d : Dropout) (s : Shape) (u : UnitCoord) : Option MaskSource :=
  if d.isEnabled then
    some ⟨d, .start (Random.stream8 d.seed), d.unitOffset s u, s.numKeys⟩
  else none

variable {α : Type} [Scalar α]

/-- The factors of the keys `keyStart`, …, `keyStart + length - 1` of one query. The first of
them is sought at its position, and the stream is read on from there, also past 64 bits. -/
def row (m : MaskSource) (query keyStart length : Nat) : Array α × MaskSource :=
  let ⟨dropout, reader, unitOffset, numKeys⟩ := m
  let start := (unitOffset + (query * numKeys + keyStart)) % UInt64.size
  let (words, reader) := (reader.seek start).take length
  ((words.map dropout.factor).toArray, ⟨dropout, reader, unitOffset, numKeys⟩)

/-- The sums that the positions of rows are: of `rows` queries, all from one key on. Where
sums are checked, this goes before the rows are read. -/
def checkRows (m : MaskSource) (overflow : Overflow) (queryStart rows keyStart : Nat) :
    Except Fault Unit :=
  (List.range rows).forM fun i =>
    overflow.check (m.unitOffset + ((queryStart + i) * m.numKeys + keyStart))

end MaskSource

/-- The mask of all queries and keys of a unit, row by row; ones if there is no
dropout. -/
def maskPlane {α : Type} [Scalar α] (d : Dropout) (s : Shape) (u : UnitCoord)
    (overflow : Overflow := .checked) : Except Fault (Array α) :=
  match MaskSource.forUnit d s u with
  | none => .ok (Array.replicate s.scoresPerHead 1)
  | some source => do
    overflow.check (d.unitPlace s u)
    if s.numKeys = 0 then .error .zeroDivisor
    else
      source.checkRows overflow 0 s.numQueries 0
      return ((List.range s.numQueries).foldl (fun (plane, source) query =>
        let (row, source) := source.row query 0 s.numKeys
        (plane ++ row, source)) (#[], source)).1

end FusedAttention
