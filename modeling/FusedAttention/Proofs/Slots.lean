import FusedAttention.Kernel.Workspace
import FusedAttention.Proofs.Tiling
import FusedAttention.Shape.Operands

/-! How a plan lays out the slice of a unit: the slots of the column chunks of gradK and gradV, one after
the other, and then those of the query tiles, all inside what is set aside for them. -/
namespace FusedAttention

/-- The two gradients of a key tile: of its rows of K and of its rows of V. -/
inductive KeySide where
  | keys
  | values
  deriving DecidableEq, Repr

namespace KeySide

variable {τ : Type}

def cols : KeySide → Shape → Nat
  | .keys, s => s.headDim
  | .values, s => s.headDimValue

def strategy : KeySide → Plan → Strategy
  | .keys, p => p.gradK
  | .values, p => p.gradV

/-- The one of three things that belongs to this gradient. -/
def of : KeySide → Gradients τ → τ
  | .keys, g => g.gradK
  | .values, g => g.gradV

theorem of_map {υ : Type} (side : KeySide) (f : τ → υ) (g : Gradients τ) :
    side.of (g.map f) = f (side.of g) := by
  cases side <;> rfl

theorem gradients_ext {g g' : Gradients τ} (hQ : g.gradQ = g'.gradQ)
    (hKeys : ∀ side : KeySide, side.of g = side.of g') : g = g' := by
  obtain ⟨gradQ, gradK, gradV⟩ := g
  obtain ⟨gradQ', gradK', gradV'⟩ := g'
  obtain rfl : gradQ = gradQ' := hQ
  obtain rfl : gradK = gradK' := hKeys .keys
  obtain rfl : gradV = gradV' := hKeys .values
  rfl

/-- Where the slots of this gradient start in the slice of a unit. -/
def slotBase : KeySide → WorkspaceLayout → Nat
  | .keys, _ => 0
  | .values, w => w.gradK

def slotSize : KeySide → WorkspaceLayout → Nat
  | .keys, w => w.gradK
  | .values, w => w.gradV

def slot : KeySide → WorkspaceLayout → Nat → Nat × Nat
  | .keys, w => w.gradKSlot
  | .values, w => w.gradVSlot

end KeySide

namespace Plan

variable {p : Plan} {s : Shape}

theorem slots_le_unitStride (p : Plan) (s : Shape) : (p.workspaceLayout s).gradK +
    (p.workspaceLayout s).gradV + (p.workspaceLayout s).gradQ ≤ (p.workspaceLayout s).unitStride :=
  le_alignUp (by decide)

/-! ### Key tiles -/

theorem keySlot_eq (p : Plan) (s : Shape) (side : KeySide) (chunk : Nat) :
    side.slot (p.workspaceLayout s) chunk = (side.slotBase (p.workspaceLayout s) +
      chunk * (p.tiles.blockI * p.tiles.blockJ), p.tiles.blockI * p.tiles.blockJ) := by
  cases side with
  | keys => exact Prod.ext (Nat.zero_add _).symm rfl
  | values => rfl

/-- The slots that a key tile uses for all its column chunks are set aside. -/
theorem keySlots_le (hBlockJ : 0 < p.tiles.blockJ) (hKeys : 0 < s.numKeys) {side : KeySide}
    (hUses : (side.strategy p).usesWorkspace = true) :
    chunksOf (side.cols s) p.keyChunk * (p.tiles.blockI * p.tiles.blockJ) ≤
      side.slotSize (p.workspaceLayout s) := by
  have hTiles : 1 ≤ chunksOf s.numKeys p.tiles.blockJ := chunksOf_pos hBlockJ hKeys
  have hRows : p.tiles.blockJ ≤ alignUp s.numKeys p.tiles.blockJ := by
    rw [alignUp_eq]
    exact Nat.le_mul_of_pos_left _ hTiles
  have hSize : side.slotSize (p.workspaceLayout s) =
      alignUp s.numKeys p.tiles.blockJ * alignUp (side.cols s) p.keyChunk := by
    cases side with
    | keys => exact if_pos hUses
    | values => exact if_pos hUses
  rw [hSize, alignUp_eq (side.cols s), Nat.mul_comm p.tiles.blockI, Nat.mul_left_comm]
  exact Nat.mul_le_mul_right _ hRows

theorem keySlots_end_le (p : Plan) (s : Shape) (side : KeySide) :
    side.slotBase (p.workspaceLayout s) + side.slotSize (p.workspaceLayout s) ≤
      (p.workspaceLayout s).unitStride := by
  have := p.slots_le_unitStride s
  cases side with
  | keys =>
      simp only [KeySide.slotBase, KeySide.slotSize]
      omega
  | values =>
      simp only [KeySide.slotBase, KeySide.slotSize]
      omega

/-! ### Query tiles -/

/-- Without slots for gradQ its sums are not parked, or a single key tile completes them. -/
theorem querySlots_pos (hBlockI : 0 < p.tiles.blockI) (hBlockJ : 0 < p.tiles.blockJ)
    (hQueries : 0 < s.numQueries) (hHeadDim : 0 < s.headDim)
    (hUses : p.gradQ.usesWorkspace = true) :
    0 < (p.workspaceLayout s).gradQ ↔ p.tiles.blockJ < s.numKeys := by
  have hSize : (p.workspaceLayout s).gradQ =
      if p.gradQ.usesWorkspace && p.tiles.blockJ < s.numKeys then
        alignUp s.numQueries p.tiles.blockI * alignUp s.headDim p.queryChunk
      else 0 := rfl
  rw [hSize, hUses, Bool.true_and]
  by_cases hMore : p.tiles.blockJ < s.numKeys
  · rw [if_pos (decide_eq_true hMore)]
    have hRows : 0 < alignUp s.numQueries p.tiles.blockI :=
      Nat.lt_of_lt_of_le hQueries (le_alignUp hBlockI)
    have hCols : 0 < alignUp s.headDim p.queryChunk := Nat.lt_of_lt_of_le hHeadDim (le_alignUp hBlockJ)
    exact ⟨fun _ => hMore, fun _ => Nat.mul_pos hRows hCols⟩
  · rw [if_neg (by rw [decide_eq_true_eq]; exact hMore)]
    exact ⟨fun h => absurd h (Nat.lt_irrefl 0), fun h => absurd h hMore⟩

/-- Slots of different query tiles follow each other, all within what is set aside. -/
theorem querySlots_le (hBlockI : 0 < p.tiles.blockI) (hSlots : 0 < (p.workspaceLayout s).gradQ)
    {tile : Nat} (hTile : tile * p.tiles.blockI < s.numQueries) :
    (tile + 1) * (chunksOf s.headDim p.queryChunk * (p.tiles.blockI * p.tiles.blockJ)) ≤
      (p.workspaceLayout s).gradQ := by
  have hSize : (p.workspaceLayout s).gradQ =
      alignUp s.numQueries p.tiles.blockI * alignUp s.headDim p.queryChunk := by
    simp only [workspaceLayout] at hSlots ⊢
    split at hSlots
    · rw [if_pos ‹_›]
    · exact absurd hSlots (Nat.lt_irrefl 0)
  have hIndex : tile + 1 ≤ chunksOf s.numQueries p.tiles.blockI := (lt_chunksOf_iff hBlockI).mpr hTile
  rw [hSize, alignUp_eq, alignUp_eq, queryChunk]
  refine Nat.le_trans (Nat.mul_le_mul_right _ hIndex) (Nat.le_of_eq ?_)
  ac_rfl

theorem querySlot_eq (p : Plan) (s : Shape) (queryStart chunks chunk : Nat) :
    (p.workspaceLayout s).gradQSlot queryStart chunks chunk =
      ((p.workspaceLayout s).gradK + (p.workspaceLayout s).gradV +
        (queryStart / p.tiles.blockI * chunks + chunk) * (p.tiles.blockI * p.tiles.blockJ),
        p.tiles.blockI * p.tiles.blockJ) := by
  rw [Nat.add_comm _ chunk]
  rfl

end Plan

end FusedAttention
