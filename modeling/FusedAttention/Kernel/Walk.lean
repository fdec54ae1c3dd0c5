import FusedAttention.Shape

/-! The order in which a unit visits its tiles. A policy says which query rows a key
tile attends to; the walk goes through the query tiles of one key tile and on to the
next key tile. Tile starts are natural numbers, on the assumption that the starts past the last
tile fit 64 bits too. -/
namespace FusedAttention

/-- From the start of a key tile and the number of queries, the first query row that the
key tile attends to. A key tile whose first row is past the last query is unreachable. -/
abbrev QueryStart := Nat → Nat → Nat

/-- Every key tile attends to every query. -/
def fullAttention : QueryStart :=
  fun _ _ => 0

/-- A policy given by its value at each key tile, and one value for the tiles after. -/
def QueryStart.ofList (blockJ : Nat) (starts : List Nat) (otherwise : Nat) : QueryStart :=
  fun keyStart _ => starts.getD (keyStart / blockJ) otherwise

/-- Start of the query loop of a key tile, on a tile boundary, or `numQueries` if the key
tile is unreachable. -/
def firstQueryTile (policy : QueryStart) (keyStart numQueries blockI : Nat) : Nat :=
  let start := policy keyStart numQueries
  if numQueries ≤ start then numQueries else start / blockI * blockI

/-- The pair of tile starts `(query, key)` that follows another: the next query tile, or
the first query tile of the next key tile. -/
def nextIteration (policy : QueryStart) (numQueries blockI blockJ : Nat) (here : Nat × Nat) :
    Nat × Nat :=
  if here.1 + blockI < numQueries then (here.1 + blockI, here.2)
  else (firstQueryTile policy (here.2 + blockJ) numQueries blockI, here.2 + blockJ)

/-- Starts of the tiles of `block` rows from `first` up to `total`. -/
def tileStarts (first total block : Nat) : List Nat :=
  (List.range (chunksOf (total - first) block)).map (first + · * block)

/-- The pairs that the walk visits from `start` on while the key is inside, at most
`fuel` of them, and the pair it stops at. -/
def walkFrom (policy : QueryStart) (numQueries numKeys blockI blockJ : Nat) :
    Nat → Nat × Nat → List (Nat × Nat) × (Nat × Nat)
  | 0, here => ([], here)
  | fuel + 1, here =>
    if here.2 < numKeys then
      let (visits, stop) := walkFrom policy numQueries numKeys blockI blockJ fuel
        (nextIteration policy numQueries blockI blockJ here)
      (here :: visits, stop)
    else ([], here)

/-- The key tiles whose first query row is looked up for a walk of at most `visits` pairs:
those of all keys, and the one past the last if the walk comes to its end there. Where no
tile attends to a query, every visit goes on to the next key tile. -/
def tilesLookedUp (numKeys blockJ visits : Nat) : List Nat :=
  let tiles := tileStarts 0 numKeys blockJ
  if 0 < tiles.length ∧ tiles.length ≤ visits then tiles ++ [tiles.length * blockJ] else tiles

/-- Whether a walk of at most `visits` pairs can be told: a block of key rows has rows, and a
block of query rows too if one of the key tiles that are looked up attends to a query. -/
def checkWalk (policy : QueryStart) (numQueries numKeys blockI blockJ visits : Nat) :
    Except Fault Unit :=
  if blockJ = 0 ∨ (blockI = 0 ∧
      (tilesLookedUp numKeys blockJ visits).any (policy · numQueries < numQueries)) then
    .error .zeroDivisor
  else .ok ()

/-- First query tile of every key tile. -/
def firstQueryTiles (policy : QueryStart) (numQueries numKeys blockI blockJ : Nat) : List Nat :=
  (tileStarts 0 numKeys blockJ).map fun keyStart =>
    firstQueryTile policy keyStart numQueries blockI

end FusedAttention
