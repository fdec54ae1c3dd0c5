import FusedAttention.Fault

/-! A stream of 32-bit words that can be read from any position: blocks of sixteen
words, each the mixing of a constant, a key, the number of the block and a zero nonce.
`Stream.word` is the stream as a function of the position, and a `Reader` runs through
it a block at a time. -/
namespace FusedAttention.Random

abbrev Block := Vector UInt32 16

/-- Rotates the bits of a word to the left. -/
def rotateLeft (x : UInt32) (count : UInt32) : UInt32 :=
  (x <<< count) ||| (x >>> (32 - count))

/-- Mixes four words of a block by additions, exclusive ors and rotations. -/
def quarterRound (s : Block) (a b c d : Fin 16) : Block :=
  let s := s.set a (s[a] + s[b])
  let s := s.set d (rotateLeft (s[d] ^^^ s[a]) 16)
  let s := s.set c (s[c] + s[d])
  let s := s.set b (rotateLeft (s[b] ^^^ s[c]) 12)
  let s := s.set a (s[a] + s[b])
  let s := s.set d (rotateLeft (s[d] ^^^ s[a]) 8)
  let s := s.set c (s[c] + s[d])
  s.set b (rotateLeft (s[b] ^^^ s[c]) 7)

/-- A round over the columns and a round over the diagonals of the four-by-four block. -/
def doubleRound (s : Block) : Block :=
  let s := quarterRound s 0 4 8 12
  let s := quarterRound s 1 5 9 13
  let s := quarterRound s 2 6 10 14
  let s := quarterRound s 3 7 11 15
  let s := quarterRound s 0 5 10 15
  let s := quarterRound s 1 6 11 12
  let s := quarterRound s 2 7 8 13
  quarterRound s 3 4 9 14

/-- A stream by its number of double rounds and its key. -/
structure Stream where
  doubleRounds : Nat
  key : Vector UInt32 8
  deriving DecidableEq

namespace Stream

/-- The block before mixing: four constant words, the key, and the 64-bit number of the
block followed by zeros. -/
def initial (s : Stream) (counter : Nat) : Block :=
  #v[0x61707865, 0x3320646e, 0x79622d32, 0x6b206574,
    s.key[0], s.key[1], s.key[2], s.key[3], s.key[4], s.key[5], s.key[6], s.key[7],
    UInt32.ofNat counter, UInt32.ofNat (counter / UInt32.size), 0, 0]

/-- Place of a position in its block. -/
def wordIndex (position : Nat) : Fin 16 :=
  ⟨position % 16, Nat.mod_lt _ (by decide)⟩

/-- The words of one block. -/
def block (s : Stream) (counter : Nat) : Block :=
  let start := s.initial counter
  let mixed := Nat.fold s.doubleRounds (fun _ _ b => doubleRound b) start
  Vector.ofFn fun i => mixed[i] + start[i]

/-- The word at a position of the stream. -/
def word (s : Stream) (position : Nat) : UInt32 :=
  (s.block (position / 16)).get (wordIndex position)

end Stream

/-- A position in a stream, with the words of one block at hand. -/
structure Reader where
  stream : Stream
  position : Nat
  counter : Nat
  words : Block
  words_eq : words = stream.block counter

namespace Reader

/-- A reader at the start of a stream. -/
def start (s : Stream) : Reader :=
  ⟨s, 0, 0, s.block 0, rfl⟩

def seek (r : Reader) (position : Nat) : Reader :=
  { r with position }

/-- The word at the position, and the reader one word further. -/
def next (r : Reader) : UInt32 × Reader :=
  if r.counter = r.position / 16 then
    (r.words.get (Stream.wordIndex r.position), { r with position := r.position + 1 })
  else
    let words := r.stream.block (r.position / 16)
    (words.get (Stream.wordIndex r.position),
      ⟨r.stream, r.position + 1, r.position / 16, words, rfl⟩)

/-- The next `count` words. -/
def take (r : Reader) : Nat → List UInt32 × Reader
  | 0 => ([], r)
  | count + 1 =>
    let (word, r) := r.next
    let (words, r) := r.take count
    (word :: words, r)

@[simp] theorem next_word (r : Reader) : r.next.1 = r.stream.word r.position := by
  unfold next Stream.word
  split
  · rename_i h
    simp [r.words_eq, h]
  · rfl

@[simp] theorem next_stream (r : Reader) : r.next.2.stream = r.stream := by
  unfold next
  split <;> rfl

@[simp] theorem next_position (r : Reader) : r.next.2.position = r.position + 1 := by
  unfold next
  split <;> rfl

end Reader

/-! ### Keys from a seed -/

/-- One step of a 64-bit linear congruence and its permuted 32-bit output. -/
def congruentStep (state : UInt64) : UInt32 × UInt64 :=
  let state := state * 6364136223846793005 + 11634580027462260723
  let shifted := (((state >>> 18) ^^^ state) >>> 27).toUInt32
  let turn := (state >>> 59).toUInt32
  (rotateLeft shifted ((32 - turn) % 32), state)

/-- The next `count` outputs of the congruence. -/
def congruentWords (state : UInt64) : Nat → List UInt32
  | 0 => []
  | count + 1 =>
    let (word, state) := congruentStep state
    word :: congruentWords state count

/-- The key that a 64-bit seed expands to. -/
def keyOfSeed (seed : UInt64) : Vector UInt32 8 :=
  let words := congruentWords seed 8
  Vector.ofFn fun i => words.getD i.val 0

/-- The stream of eight rounds of a seed. -/
def stream8 (seed : UInt64) : Stream :=
  ⟨4, keyOfSeed seed⟩

/-- The stream of twelve rounds of a seed. -/
def stream12 (seed : UInt64) : Stream :=
  ⟨6, keyOfSeed seed⟩

end FusedAttention.Random
