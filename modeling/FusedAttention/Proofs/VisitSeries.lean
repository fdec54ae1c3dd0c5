import FusedAttention.Proofs.ExactSums

/-! A whole series of visits to one output tile. Each visit primes the accumulator, contributes to it by any
update at all, and flushes it; the first and the last are marked. With a slot the destination is written
once, at the end; in place it is written at every visit. Where contributions are added exactly, both leave
the same tile. -/
namespace FusedAttention

variable {α ε : Type} [Scalar α] {r c : Nat}

/-! ### Accumulators -/

namespace Tile

variable {updates : Nat → Tile α r c → Tile α r c}

omit [Scalar α] in
/-- A parked tile is found again as it was. -/
@[simp] theorem ofRun_data (t : Tile α r c) : ofRun t.data.toArray = .ok t := by
  rw [ofRun, dif_pos t.data.size_toArray]

@[simp] theorem entry_fill_zero (i j : Nat) : (fill 0 : Tile α r c).entry i j = 0 := by
  unfold entry
  split
  · exact get_fill ..
  · rfl

/-- A zero tile after the first `n` contributions, in order. -/
def applied (updates : Nat → Tile α r c → Tile α r c) (n : Nat) : Tile α r c :=
  (List.range n).foldl (fun acc m => updates m acc) (.fill 0)

theorem applied_succ (updates : Nat → Tile α r c → Tile α r c) (n : Nat) :
    applied updates (n + 1) = updates n (applied updates n) := by
  rw [applied, List.range_succ, List.foldl_append]
  rfl

/-- Each of `count` contributions adds its own share to every entry of the leading block, whatever stood
there. -/
def AddShares (count rows cols : Nat) (updates : Nat → Tile α r c → Tile α r c)
    (share : Nat → Nat → Nat → α) : Prop :=
  ∀ m < count, ∀ acc, ∀ i < rows, ∀ j < cols, (updates m acc).entry i j = acc.entry i j + share m i j

/-- The first `n` shares of an entry, added up in order from zero. -/
def sumShares (share : Nat → Nat → Nat → α) (n i j : Nat) : α :=
  (List.range n).foldl (fun sum m => sum + share m i j) 0

theorem sumShares_succ (share : Nat → Nat → Nat → α) (n i j : Nat) :
    sumShares share (n + 1) i j = sumShares share n i j + share n i j := by
  rw [sumShares, List.range_succ, List.foldl_append]
  rfl

theorem AddShares.entry_applied {count rows cols : Nat} {share : Nat → Nat → Nat → α}
    (hAdd : AddShares count rows cols updates share) {n : Nat} (hn : n ≤ count) {i j : Nat} (hi : i < rows)
    (hj : j < cols) : (applied updates n).entry i j = sumShares share n i j := by
  induction n with
  | zero => exact entry_fill_zero i j
  | succ n ih => rw [applied_succ, hAdd n hn _ i hi j hj, ih (by omega), sumShares_succ]

end Tile

open Tile

/-! ### Visits -/

namespace Strategy

variable [Element ε α]

/-- One visit to an output tile, from its slot and its destination to theirs after it. The accumulator is
primed as a whole, so nothing is left of what it held before. -/
def visitTile (s : Strategy) (window : Window) (rows cols : Nat) (visit : Visit)
    (update : Tile α r c → Tile α r c) (state : Option (Array α) × Array ε) :
    Except Fault (Option (Array α) × Array ε) := do
  let acc ← s.prime visit state.1
  s.flush (update acc) visit state.1 state.2 window rows cols

/-- The first `n` of a series of `count` visits. -/
def visitTiles (s : Strategy) (window : Window) (rows cols : Nat)
    (updates : Nat → Tile α r c → Tile α r c) (count n : Nat) (state : Option (Array α) × Array ε) :
    Except Fault (Option (Array α) × Array ε) :=
  (List.range n).foldlM (fun state m =>
    s.visitTile window rows cols ⟨m = 0, m + 1 = count⟩ (updates m) state) state

end Strategy

/-- A chunk of an output tile has one visit of its part of the destination and of the slot that is cut out
of the workspace and written back. -/
theorem ChunkedTile.accumulateChunk_eq [Element ε α] (tile : ChunkedTile) (window : Window)
    (slot : Nat → Nat × Nat) (product : Tile α r c → Nat → Tile α r c) (state : ChunkState α ε)
    (chunk : Nat) : tile.accumulateChunk window slot product state chunk = (do
      let run ← tile.slotOf state.workspace (slot chunk).1 (slot chunk).2
      let (run, target) ← tile.strategy.visitTile (window.sub tile.rowStart (chunk * tile.width))
        tile.rows (min tile.width (tile.cols - chunk * tile.width)) tile.visit
        (fun acc => product acc (chunk * tile.width)) (run, state.target)
      let workspace := match state.workspace, run with
        | some buffer, some values => some (writeRun buffer (slot chunk).1 values)
        | workspace, _ => workspace
      return ⟨target, workspace⟩) := by
  unfold accumulateChunk Strategy.visitTile
  refine bind_congr fun run => ?_
  exact (bind_assoc _ _ _).symm

namespace Strategy

variable [Element ε α] {window : Window} {rows cols count : Nat}
  {updates : Nat → Tile α r c → Tile α r c} {target after : Array ε} {run : Array α}

theorem visitTiles_succ (s : Strategy) (window : Window) (rows cols : Nat)
    (updates : Nat → Tile α r c → Tile α r c) (count n : Nat) (state : Option (Array α) × Array ε) :
    s.visitTiles window rows cols updates count (n + 1) state =
      s.visitTiles window rows cols updates count n state >>=
        s.visitTile window rows cols ⟨n = 0, n + 1 = count⟩ (updates n) := by
  rw [visitTiles, List.range_succ, List.foldlM_append]
  simp only [List.foldlM_cons, List.foldlM_nil, bind_pure]
  rfl

/-! ### With a slot -/

/-- What a slot holds after `n` visits that are not the last: until the first, whatever was there. -/
def parked (updates : Nat → Tile α r c → Tile α r c) (run : Array α) (n : Nat) : Array α :=
  if n = 0 then run else (applied updates n).data.toArray

theorem size_parked (hRun : run.size = r * c) (n : Nat) : (parked updates run n).size = r * c := by
  unfold parked
  split
  · exact hRun
  · exact (applied updates n).data.size_toArray

/-- The accumulator takes up where the visit before left it. -/
theorem prime_parked (updates : Nat → Tile α r c → Tile α r c) (run : Array α) (n : Nat) (isLast : Bool) :
    workspace.prime ⟨n = 0, isLast⟩ (some (parked updates run n)) = .ok (applied updates n) := by
  cases n with
  | zero => rfl
  | succ n => exact ofRun_data _

/-- Before the last visit the destination is left alone. -/
theorem visitTiles_parked (hRun : run.size = r * c) {n : Nat} (hn : n < count) :
    workspace.visitTiles window rows cols updates count n (some run, target) =
      .ok (some (parked updates run n), target) := by
  induction n with
  | zero => rfl
  | succ n ih =>
      have hMore : decide (n + 1 = count) = false := decide_eq_false (by omega)
      rw [visitTiles_succ, ih (by omega), ok_bind, visitTile, prime_parked, ok_bind,
        flush_parked target window rows cols rfl hMore (size_parked hRun n),
        ← applied_succ updates n]
      rfl

/-- The last visit writes the sum over whatever was there. -/
theorem flush_last {acc : Tile α r c} (slot : Option (Array α)) (isFirst : Bool)
    (hStore : acc.store target window rows cols 1 .overwrite = .ok after) :
    workspace.flush acc ⟨isFirst, true⟩ slot target window rows cols = .ok (slot, after) := by
  show (acc.store target window rows cols 1 (.ofFirst (isFirst || true)) >>= fun target =>
    pure (slot, target)) = _
  rw [Bool.or_true, show StoreMode.ofFirst true = .overwrite from rfl, hStore, ok_bind]
  rfl

theorem visitTiles_workspace (hCount : 0 < count) (hRun : run.size = r * c)
    (hStore : (applied updates count).store target window rows cols 1 .overwrite = .ok after) :
    workspace.visitTiles window rows cols updates count count (some run, target) =
      .ok (some (parked updates run (count - 1)), after) := by
  obtain ⟨n, rfl⟩ := Nat.exists_eq_succ_of_ne_zero (Nat.ne_of_gt hCount)
  have hLast : decide (n + 1 = n.succ) = true := decide_eq_true rfl
  rw [visitTiles_succ, visitTiles_parked hRun (Nat.lt_succ_self n), ok_bind, visitTile, prime_parked,
    ok_bind, ← applied_succ updates n, hLast]
  exact flush_last _ _ hStore

/-- Without a slot a single contribution is written at once. -/
theorem visitTiles_slotless
    (hStore : (applied updates 1).store target window rows cols 1 .overwrite = .ok after) :
    workspace.visitTiles window rows cols updates 1 1 (none, target) = .ok (none, after) := by
  rw [visitTiles_succ]
  exact flush_last none true hStore

/-! ### In place -/

/-- What an element holds that has taken contributions one after the other: the first rounded, and each
later one added in the type of the element. -/
def inPlaceSum (contribution : Nat → α) : Nat → ε
  | 0 => Element.round (1 * contribution 0)
  | n + 1 => Element.round (Element.widen (inPlaceSum contribution n : ε) + 1 * contribution (n + 1))

theorem visitTile_inPlace (slot : Option (Array α)) (visit : Visit) (update : Tile α r c → Tile α r c)
    (hRows : rows ≤ r) (hCols : cols ≤ c) (hFits : window.Fits rows cols target.size) :
    ∃ after, inPlace.visitTile window rows cols visit update (slot, target) = .ok (slot, after) ∧
      window.BlockUpdate rows cols (fun i j =>
        Tile.stored (.ofFirst visit.isFirst) 1 ((update (.fill 0)).entry i j)) target after := by
  have hStores : (inPlace.usesWorkspace && slot.isSome && !visit.isLast) = false := rfl
  obtain ⟨after, hFlush, hBlock⟩ := flush_stored (update (.fill 0)) hStores hRows hCols hFits
  have hPrime : inPlace.prime visit slot = .ok (.fill 0 : Tile α r c) := by
    cases slot <;> rfl
  refine ⟨after, ?_, ?_⟩
  · rw [visitTile, hPrime, ok_bind, hFlush]
  · rw [show inPlace.usesWorkspace = false from rfl, Bool.or_false] at hBlock
    exact hBlock

theorem visitTiles_inPlace (updates : Nat → Tile α r c → Tile α r c) (count : Nat)
    (slot : Option (Array α)) (hRows : rows ≤ r) (hCols : cols ≤ c)
    (hFits : window.Fits rows cols target.size) (n : Nat) :
    ∃ after, inPlace.visitTiles window rows cols updates count (n + 1) (slot, target) =
        .ok (slot, after) ∧
      window.BlockUpdate rows cols (fun i j _ =>
        inPlaceSum (fun m => (updates m (.fill 0)).entry i j) n) target after := by
  induction n with
  | zero =>
      obtain ⟨after, hVisit, hBlock⟩ := visitTile_inPlace slot ⟨true, decide (0 + 1 = count)⟩ (updates 0)
        hRows hCols hFits
      refine ⟨after, ?_, hBlock⟩
      rw [visitTiles_succ]
      exact hVisit
  | succ n ih =>
      obtain ⟨middle, hSoFar, hBefore⟩ := ih
      obtain ⟨after, hVisit, hBlock⟩ := visitTile_inPlace slot
        ⟨false, decide (n + 1 + 1 = count)⟩ (updates (n + 1)) hRows hCols (hBefore.size ▸ hFits)
      refine ⟨after, ?_, hBefore.trans hBlock⟩
      rw [visitTiles_succ, hSoFar, ok_bind]
      exact hVisit

/-! ### Exact sums -/

/-- Sums in the destination are exact: a first contribution is taken as it is, and the element type loses
nothing. -/
structure StoresExactly (ε : Type) {α : outParam Type} [Scalar α] [Element ε α] : Prop where
  zero_add : ∀ x : α, 0 + x = x
  one_mul : ∀ x : α, 1 * x = x
  widen_round : ∀ x : α, Element.widen (Element.round x : ε) = x

theorem inPlaceSum_eq (hExact : StoresExactly ε) {share : Nat → Nat → Nat → α}
    (hAdd : AddShares count rows cols updates share) {n : Nat} (hn : n < count) {i j : Nat}
    (hi : i < rows) (hj : j < cols) :
    (inPlaceSum (fun m => (updates m (.fill 0)).entry i j) n : ε) =
      Element.round (sumShares share (n + 1) i j) := by
  have hShare : ∀ m < count, (updates m (.fill 0)).entry i j = share m i j := by
    intro m hm
    rw [hAdd m hm _ i hi j hj, entry_fill_zero, hExact.zero_add]
  induction n with
  | zero =>
      rw [inPlaceSum, hShare 0 hn, hExact.one_mul, sumShares_succ]
      congr 1
      exact (hExact.zero_add _).symm
  | succ n ih =>
      rw [inPlaceSum, ih (by omega), hExact.widen_round, hShare (n + 1) hn, hExact.one_mul,
        sumShares_succ share (n + 1)]

/-- Sums are exact in exact arithmetic, if the elements are as wide as it is. -/
theorem storesExactly_of_exact {α ε : Type} [ExactScalar α] [Element ε α] [ExactElement ε]
    (hWide : Element.dtype ε = .f32) : StoresExactly ε where
  zero_add := zero_add
  one_mul := one_mul
  widen_round := ExactElement.widen_round hWide

/-- The protocol of a series of visits, whatever the contributions do to the accumulator and whatever the
slot and the destination held before. With a slot the destination stays as it is until the last visit, which
writes the rounded result of all contributions in order, applied to a zero tile. In place the first
visit writes its own contribution, and each later one adds its own in the type of the element. If all
contributions add shares, and sums in the destination are exact, both leave the same tile, and so
does a single visit without a slot. -/
theorem visitTiles_protocol {updates : Nat → Tile α r c → Tile α r c} {count rows cols : Nat}
    {window : Window} {target : Array ε} (hCount : 0 < count) (hRows : rows ≤ r) (hCols : cols ≤ c)
    (hFits : window.Fits rows cols target.size) :
    (∃ after, (applied updates count).store target window rows cols 1 .overwrite = .ok after ∧
      window.BlockUpdate rows cols (fun i j _ =>
        Element.round (1 * (applied updates count).entry i j)) target after ∧
      ∀ run : Array α, run.size = r * c →
        (∀ n < count, workspace.visitTiles window rows cols updates count n (some run, target) =
          .ok (some (parked updates run n), target)) ∧
        workspace.visitTiles window rows cols updates count count (some run, target) =
          .ok (some (parked updates run (count - 1)), after)) ∧
      (∀ slot, ∀ n < count, ∃ after,
        inPlace.visitTiles window rows cols updates count (n + 1) (slot, target) = .ok (slot, after) ∧
        window.BlockUpdate rows cols (fun i j _ =>
          inPlaceSum (fun m => (updates m (.fill 0)).entry i j) n) target after) ∧
      (StoresExactly ε → ∀ share, AddShares count rows cols updates share → ∃ after,
        window.BlockUpdate rows cols (fun i j _ => Element.round (sumShares share count i j))
          target after ∧
        (∀ run : Array α, run.size = r * c →
          workspace.visitTiles window rows cols updates count count (some run, target) =
            .ok (some (parked updates run (count - 1)), after)) ∧
        (∀ slot, inPlace.visitTiles window rows cols updates count count (slot, target) =
          .ok (slot, after)) ∧
        (count = 1 → workspace.visitTiles window rows cols updates count count (none, target) =
          .ok (none, after))) := by
  obtain ⟨after, hStore, hBlock⟩ :=
    store_spec (t := applied updates count) 1 .overwrite hRows hCols hFits
  refine ⟨⟨after, hStore, hBlock, fun run hRun => ⟨fun n hn => visitTiles_parked hRun hn,
    visitTiles_workspace hCount hRun hStore⟩⟩, fun slot n _ =>
      visitTiles_inPlace updates count slot hRows hCols hFits n, fun hExact share hAdd => ?exact⟩
  case exact =>
    have hSums : window.BlockUpdate rows cols (fun i j _ =>
        Element.round (sumShares share count i j)) target after := by
      refine hBlock.congr fun i hi j hj old => ?_
      rw [Tile.stored, hExact.one_mul, hAdd.entry_applied (Nat.le_refl count) hi hj]
    refine ⟨after, hSums, fun run hRun => visitTiles_workspace hCount hRun hStore, fun slot => ?inPlace,
      ?slotless⟩
    case inPlace =>
      obtain ⟨n, rfl⟩ := Nat.exists_eq_succ_of_ne_zero (Nat.ne_of_gt hCount)
      obtain ⟨after', hVisits, hBlock'⟩ :=
        visitTiles_inPlace updates (n + 1) slot hRows hCols hFits n
      have hSums' := hBlock'.congr fun i hi j hj _ => inPlaceSum_eq hExact hAdd (Nat.lt_succ_self n) hi hj
      rw [hSums.unique hSums']
      exact hVisits
    case slotless =>
      rintro rfl
      exact visitTiles_slotless hStore

/-- Three contributions to one column of two entries. With a slot the destination is not written by the
first two visits; after the third it holds what it holds if the sums are kept in place. -/
theorem visitTiles_threeVisits :
    let updates : Nat → Tile Int 2 2 → Tile Int 2 2 :=
      fun m acc => .ofFn fun i j => acc.get i j + (10 * m + i.val + 1 : Nat)
    let window : Window := ⟨1, 3⟩
    let target : Array Int := #[9, 9, 9, 9, 9, 9]
    window.Fits 2 1 target.size ∧ AddShares 3 2 1 updates (fun m i _ => (10 * m + i + 1 : Nat)) ∧
      workspace.visitTiles window 2 1 updates 3 2 (some #[7, 7, 7, 7], target) =
        .ok (some (parked updates #[7, 7, 7, 7] 2), target) ∧
      workspace.visitTiles window 2 1 updates 3 3 (some #[7, 7, 7, 7], target) =
        .ok (some (parked updates #[7, 7, 7, 7] 2), #[9, 33, 9, 9, 36, 9]) := by
  intro updates window target
  have hFits : window.Fits 2 1 target.size := by
    refine ⟨by decide, fun row hRow col hCol row' hRow' col' hCol' h => ?_⟩
    have hAddress : 1 + row * 3 + col = 1 + row' * 3 + col' := h
    omega
  have hAdd : AddShares 3 2 1 updates (fun m i _ => (10 * m + i + 1 : Nat)) := by
    intro m _ acc i hi j hj
    rw [entry_of_lt _ hi (by omega), get_ofFn, entry_of_lt _ hi (by omega)]
  obtain ⟨⟨_, -, -, hSlot⟩, -, hExact⟩ :=
    visitTiles_protocol (r := 2) (c := 2) (show 0 < 3 by decide) (by decide) (by decide) hFits
  obtain ⟨after, -, hWorkspace, hInPlace, -⟩ := hExact (storesExactly_of_exact rfl) _ hAdd
  have hAfter : inPlace.visitTiles window 2 1 updates 3 3 (none, target) =
      .ok (none, #[9, 33, 9, 9, 36, 9]) := by
    cbv
  have hSame := Except.ok.inj ((hInPlace none).symm.trans hAfter)
  obtain rfl : after = #[9, 33, 9, 9, 36, 9] := (Prod.mk.inj hSame).2
  exact ⟨hFits, hAdd, (hSlot #[7, 7, 7, 7] rfl).1 2 (by decide), hWorkspace #[7, 7, 7, 7] rfl⟩

end Strategy

end FusedAttention
