import FusedAttention.Proofs.TileEntries
import FusedAttention.Proofs.Tiling
import FusedAttention.Tile.Accumulation

/-! Accumulation of an output tile seen entry by entry. A visit reads and writes one element of
the destination and one number in the workspace for each entry, and no entry sees another. -/
namespace FusedAttention

variable {α ε : Type}

/-- What is kept of one entry of an output tile between two visits: its element of the
destination, and the number parked for it in the workspace. -/
structure Entry (α ε : Type) where
  target : ε
  parked : α

namespace Strategy

variable [Scalar α] [Element ε α] {r c : Nat}

/-- One visit to one entry that adds a contribution by `add`. Sums are parked between visits
only if the strategy says so and there are slots. -/
def visitEntry (s : Strategy) (slotted : Bool) (visit : Visit) (add : α → α) (e : Entry α ε) :
    Entry α ε :=
  let parks := s.usesWorkspace && slotted
  let sum := add (if parks && !visit.isFirst then e.parked else 0)
  if parks && !visit.isLast then { e with parked := sum }
  else
    let mode := StoreMode.ofFirst (visit.isFirst || s.usesWorkspace)
    { e with target := Tile.stored mode 1 sum e.target }

theorem prime_spec (s : Strategy) (visit : Visit) {slot : Option (Array α)}
    (hSlot : ∀ run ∈ slot, run.size = r * c) :
    ∃ acc : Tile α r c, s.prime visit slot = .ok acc ∧ ∀ i < r, ∀ j < c, acc.entry i j =
      if s.usesWorkspace && slot.isSome && !visit.isFirst then
        (slot.getD #[])[i * c + j]?.getD 0 else 0 := by
  have hZero : ∀ i < r, ∀ j < c, (Tile.fill 0 : Tile α r c).entry i j = 0 := by
    intro i hi j hj
    rw [Tile.entry_of_lt _ hi hj, Tile.get_fill]
  cases s with
  | inPlace => exact ⟨.fill 0, by cases slot <;> rfl, fun i hi j hj => hZero i hi j hj⟩
  | workspace =>
      cases slot with
      | none => exact ⟨.fill 0, rfl, fun i hi j hj => hZero i hi j hj⟩
      | some run =>
          cases hFirst : visit.isFirst with
          | true =>
              refine ⟨.fill 0, ?_, fun i hi j hj => hZero i hi j hj⟩
              rw [prime, hFirst, if_pos rfl]
          | false =>
              obtain ⟨acc, hRun, hEntries⟩ := Tile.ofRun_spec (hSlot run rfl)
              refine ⟨acc, ?_, fun i hi j hj => hEntries i hi j hj⟩
              rw [prime, hFirst, if_neg Bool.false_ne_true, hRun]

/-- A sum that is not complete is parked, and the destination is not looked at. -/
theorem flush_parked {s : Strategy} {acc : Tile α r c} {visit : Visit} {run : Array α}
    (target : Array ε) (window : Window) (rows cols : Nat) (hUses : s.usesWorkspace = true)
    (hLast : visit.isLast = false) (hRun : run.size = r * c) :
    s.flush acc visit (some run) target window rows cols =
      .ok (some acc.data.toArray, target) := by
  cases s with
  | inPlace => cases hUses
  | workspace =>
      obtain ⟨isFirst, isLast⟩ := visit
      cases hLast
      show (acc.park run >>= fun parked => pure (some parked, target)) = _
      rw [Tile.park_eq hRun, ok_bind]
      rfl

/-- Any other sum is stored, and its slot stays as it is. -/
theorem flush_stored {s : Strategy} (acc : Tile α r c) {visit : Visit} {slot : Option (Array α)}
    {target : Array ε} {window : Window} {rows cols : Nat}
    (hStores : (s.usesWorkspace && slot.isSome && !visit.isLast) = false)
    (hRows : rows ≤ r) (hCols : cols ≤ c) (hFits : window.Fits rows cols target.size) :
    ∃ after, s.flush acc visit slot target window rows cols = .ok (slot, after) ∧
      window.BlockUpdate rows cols (fun i j => Tile.stored
        (.ofFirst (visit.isFirst || s.usesWorkspace)) 1 (acc.entry i j)) target after := by
  obtain ⟨after, hStore, hBlock⟩ :=
    Tile.store_spec (t := acc) 1 (.ofFirst (visit.isFirst || s.usesWorkspace)) hRows hCols hFits
  refine ⟨after, ?_, hBlock⟩
  have hFlush : s.flush acc visit slot target window rows cols = (do
      let target ← acc.store target window rows cols 1
        (.ofFirst (visit.isFirst || s.usesWorkspace))
      return (slot, target)) := by
    obtain ⟨isFirst, isLast⟩ := visit
    cases s <;> cases isLast <;> cases slot <;> first | rfl | cases hStores
  rw [hFlush, hStore]
  rfl

/-! ### Series of visits -/

/-- What a complete series of contributions leaves in an element, whatever was there before: the
rounded sum of all, or with a rounding after each contribution if the sum is kept in the element
itself. -/
def total (s : Strategy) (adds : List (α → α)) : ε :=
  match s, adds with
  | .workspace, adds => Element.round (1 * adds.foldl (fun sum add => add sum) 0)
  | .inPlace, [] => Element.zero (α := α)
  | .inPlace, add :: rest =>
    rest.foldl (fun old add => Element.round (Element.widen old + 1 * add 0))
      (Element.round (1 * add 0))

/-- The visits of a series of `count` contributions up to the `n`-th. -/
def visitUpTo (s : Strategy) (count : Nat) (adds : Nat → α → α) (n : Nat) (e : Entry α ε) :
    Entry α ε :=
  (List.range n).foldl (fun e m => s.visitEntry true ⟨m = 0, m + 1 = count⟩ (adds m) e) e

theorem visitUpTo_succ (s : Strategy) (count : Nat) (adds : Nat → α → α) (n : Nat)
    (e : Entry α ε) : s.visitUpTo count adds (n + 1) e =
      s.visitEntry true ⟨n = 0, n + 1 = count⟩ (adds n) (s.visitUpTo count adds n e) := by
  rw [visitUpTo, List.range_succ, List.foldl_append, List.foldl_cons, List.foldl_nil]
  rfl

/-- In place, the element holds the sum of the contributions so far. -/
theorem visitUpTo_inPlace (count : Nat) (adds : Nat → α → α) (n : Nat) (e : Entry α ε) :
    (inPlace.visitUpTo count adds (n + 1) e).target =
      inPlace.total ((List.range (n + 1)).map adds) := by
  induction n with
  | zero => rfl
  | succ n ih =>
      rw [visitUpTo_succ, List.range_succ, List.map_append, List.range_succ_eq_map, List.map_cons,
        List.cons_append]
      rw [List.range_succ_eq_map, List.map_cons] at ih
      simp only [total, List.foldl_append] at ih ⊢
      rw [← ih]
      rfl

/-- With a slot, it holds the sum of the contributions so far until the last one. -/
theorem visitUpTo_workspace {count : Nat} (adds : Nat → α → α) {n : Nat} (hn : n + 1 < count)
    (e : Entry α ε) : (workspace.visitUpTo count adds (n + 1) e).parked =
      (List.range (n + 1)).foldl (fun sum m => adds m sum) 0 := by
  induction n with
  | zero =>
      rw [visitUpTo_succ]
      have hMore : ¬ 0 + 1 = count := by omega
      simp [visitEntry, hMore, usesWorkspace, List.range_succ]
  | succ n ih =>
      have hMore : ¬ n + 1 + 1 = count := by omega
      rw [visitUpTo_succ, List.range_succ, List.foldl_append, ← ih (by omega)]
      simp [visitEntry, hMore, usesWorkspace]

/-- After a complete series the element holds its total: nothing is left of what the element or
its slot held before. -/
theorem visitUpTo_complete (s : Strategy) {count : Nat} (hCount : 0 < count) (adds : Nat → α → α)
    (e : Entry α ε) : (s.visitUpTo count adds count e).target =
      s.total ((List.range count).map adds) := by
  obtain ⟨n, rfl⟩ := Nat.exists_eq_succ_of_ne_zero (Nat.ne_of_gt hCount)
  cases s with
  | inPlace => exact visitUpTo_inPlace _ adds n e
  | workspace =>
      rw [visitUpTo_succ, total, List.foldl_map, List.range_succ, List.foldl_append]
      cases n with
      | zero => simp [visitEntry, usesWorkspace, Tile.stored, StoreMode.ofFirst]
      | succ n =>
          rw [← visitUpTo_workspace adds (Nat.lt_succ_self (n + 1)) e]
          simp [visitEntry, usesWorkspace, Tile.stored, StoreMode.ofFirst]

end Strategy

namespace ChunkState

variable [Scalar α] [Element ε α]

/-- The numbers of the workspace, none if there is no workspace. -/
def slots (state : ChunkState α ε) : Array α :=
  state.workspace.getD #[]

/-- The entry with its element and its parked number at two addresses. -/
def entry (state : ChunkState α ε) (address slot : Nat) : Entry α ε where
  target := state.target[address]?.getD (Element.zero (α := α))
  parked := state.slots[slot]?.getD 0

theorem entry_congr {state next : ChunkState α ε} {address slot : Nat}
    (hTarget : next.target[address]? = state.target[address]?)
    (hSlot : next.slots[slot]? = state.slots[slot]?) :
    next.entry address slot = state.entry address slot := by
  simp only [entry, hTarget, hSlot]

end ChunkState

namespace ChunkedTile

variable [Scalar α] [Element ε α] {r c : Nat}

/-- Address of an entry in the destination. -/
def address (tile : ChunkedTile) (window : Window) (i col : Nat) : Nat :=
  window.rowStart (tile.rowStart + i) + col

/-- Place of an entry of an `r` by `c` accumulator in the slots from `base` on. -/
def slotAddress (base r c i col : Nat) : Nat :=
  base + col / c * (r * c) + (i * c + col % c)

/-- What contributions to a tile need: its part of the destination inside the buffer, and
slots in the workspace if there is one and its sums are parked. -/
structure Ready (tile : ChunkedTile) (window : Window) (base r c : Nat) (state : ChunkState α ε) :
    Prop where
  width : tile.width = c
  rows : tile.rows ≤ r
  fits : window.Fits (tile.rowStart + tile.rows) tile.cols state.target.size
  slots : tile.strategy.usesWorkspace = true → ∀ buffer ∈ state.workspace,
    base + chunksOf tile.cols c * (r * c) ≤ buffer.size

/-- A product adds to every entry of its chunk of a tile by `add`. -/
def AddsBy (tile : ChunkedTile) (product : Tile α r c → Nat → Tile α r c)
    (add : Nat → Nat → α → α) : Prop :=
  ∀ acc offset, ∀ i < tile.rows, ∀ j < c, offset + j < tile.cols →
    (product acc offset).entry i j = add i (offset + j) (acc.entry i j)

/-- What a contribution to the columns that `covers` selects does to destination and
workspace. Sums are parked between visits only if they are `slotted`. -/
structure Contributes (tile : ChunkedTile) (window : Window) (base r c : Nat) (slotted : Bool)
    (add : Nat → Nat → α → α) (covers : Nat → Prop) (state next : ChunkState α ε) : Prop where
  targetSize : next.target.size = state.target.size
  workspaceSize : next.workspace.map (·.size) = state.workspace.map (·.size)
  inside : ∀ i < tile.rows, ∀ col < tile.cols, covers col →
    next.entry (tile.address window i col) (slotAddress base r c i col) =
      tile.strategy.visitEntry slotted tile.visit (add i col)
        (state.entry (tile.address window i col) (slotAddress base r c i col))
  outside : ∀ i < tile.rows, ∀ col < tile.cols, ¬ covers col →
    next.entry (tile.address window i col) (slotAddress base r c i col) =
      state.entry (tile.address window i col) (slotAddress base r c i col)
  targetFrame : ∀ p, (∀ i < tile.rows, ∀ col < tile.cols, p ≠ tile.address window i col) →
    next.target[p]? = state.target[p]?
  slotFrame : ∀ p, (tile.strategy.usesWorkspace = true →
    p < base ∨ base + chunksOf tile.cols c * (r * c) ≤ p) → next.slots[p]? = state.slots[p]?

omit [Scalar α] in
/-- The slot of a chunk is there if sums are parked, and it holds a part of the workspace. -/
theorem slotOf_spec {tile : ChunkedTile} {workspace : Option (Array α)} {start length : Nat}
    (h : tile.strategy.usesWorkspace = true → ∀ buffer ∈ workspace,
      start + length ≤ buffer.size) :
    ∃ run, tile.slotOf workspace start length = .ok run ∧
      (tile.strategy.usesWorkspace && run.isSome) =
        (tile.strategy.usesWorkspace && workspace.isSome) ∧
      ∀ values ∈ run, tile.strategy.usesWorkspace = true ∧
        ∃ buffer, workspace = some buffer ∧ values = buffer.extract start (start + length) := by
  cases workspace with
  | none => exact ⟨none, rfl, rfl, fun _ h => nomatch h⟩
  | some buffer =>
      cases hUses : tile.strategy.usesWorkspace with
      | false => exact ⟨none, by simp [slotOf, hUses], rfl, fun _ h => nomatch h⟩
      | true =>
          refine ⟨some (buffer.extract start (start + length)), ?_, rfl, ?_⟩
          · simp [slotOf, hUses, sliceOf_eq (h hUses buffer rfl), Except.map]
          · rintro values hValues
            exact ⟨rfl, buffer, rfl, (Option.some.inj hValues).symm⟩

/-- The slots of the chunks of a tile follow each other. -/
theorem chunk_slot_le {total r c chunk : Nat} (hc : 0 < c) (hChunk : chunk * c < total) :
    chunk * (r * c) + r * c ≤ chunksOf total c * (r * c) :=
  run_within ((lt_chunksOf_iff hc).mpr hChunk) (Nat.le_refl _)

/-- An entry lies in the slot of its own chunk alone. -/
theorem slotAddress_mem {base r c i col chunk : Nat} (hi : i < r) (hc : 0 < c) :
    (base + chunk * (r * c) ≤ slotAddress base r c i col ∧
      slotAddress base r c i col < base + chunk * (r * c) + r * c) ↔ col / c = chunk := by
  have hFlat : i * c + col % c < r * c := Tile.flat_lt ⟨i, hi⟩ ⟨col % c, Nat.mod_lt col hc⟩
  unfold slotAddress
  constructor
  · rintro ⟨hLow, hHigh⟩
    by_contra hNe
    have hApart := run_apart (r * c) hNe
    omega
  · rintro rfl
    omega

/-- All entries of a tile lie in its own slots. -/
theorem slotAddress_bounds (base : Nat) {total r c i col : Nat} (hi : i < r) (hc : 0 < c)
    (hCol : col < total) : base ≤ slotAddress base r c i col ∧
      slotAddress base r c i col < base + chunksOf total c * (r * c) := by
  obtain ⟨hLow, hHigh⟩ :=
    (slotAddress_mem hi hc : base + col / c * (r * c) ≤ slotAddress base r c i col ∧ _ ↔ _).mpr rfl
  have := chunk_slot_le (r := r) hc (Nat.lt_of_le_of_lt (Nat.div_mul_le_self col c) hCol)
  omega

variable {tile : ChunkedTile} {window : Window} {base chunk : Nat} {slot : Nat → Nat × Nat}
  {product : Tile α r c → Nat → Tile α r c} {add : Nat → Nat → α → α} {state : ChunkState α ε}

omit [Element ε α] in
/-- The accumulator of a chunk after its contribution: each entry has added to what was parked
for it, or to zero. -/
theorem sums_spec (hReady : tile.Ready window base r c state) (hc : 0 < c)
    (hProduct : tile.AddsBy product add)
    (hChunk : chunk * c < tile.cols) :
    ∃ run acc, tile.slotOf state.workspace (base + chunk * (r * c)) (r * c) = .ok run ∧
      (tile.strategy.usesWorkspace && run.isSome) =
        (tile.strategy.usesWorkspace && state.workspace.isSome) ∧
      (∀ values ∈ run, tile.strategy.usesWorkspace = true ∧ values.size = r * c ∧
        ∃ buffer, state.workspace = some buffer ∧
          values = buffer.extract (base + chunk * (r * c)) (base + chunk * (r * c) + r * c)) ∧
      tile.strategy.prime tile.visit run = .ok acc ∧
      ∀ i < tile.rows, ∀ col < tile.cols, col / c = chunk →
        (product acc (chunk * c)).entry i (col % c) = add i col
          (if tile.strategy.usesWorkspace && state.workspace.isSome && !tile.visit.isFirst then
            state.slots[slotAddress base r c i col]?.getD 0 else 0) := by
  have hWithin : tile.strategy.usesWorkspace = true → ∀ buffer ∈ state.workspace,
      base + chunk * (r * c) + r * c ≤ buffer.size := by
    intro hUses buffer hBuffer
    have := hReady.slots hUses buffer hBuffer
    have := chunk_slot_le (r := r) hc hChunk
    omega
  obtain ⟨run, hOf, hSome, hRun⟩ := slotOf_spec hWithin
  have hSize : ∀ values ∈ run, values.size = r * c := by
    intro values hValues
    obtain ⟨hUses, buffer, hBuffer, rfl⟩ := hRun values hValues
    have := hWithin hUses buffer hBuffer
    rw [Array.size_extract]
    omega
  obtain ⟨acc, hPrime, hEntries⟩ := tile.strategy.prime_spec tile.visit hSize
  refine ⟨run, acc, hOf, hSome, ?_, hPrime, ?_⟩
  · intro values hValues
    obtain ⟨hUses, hBuffer⟩ := hRun values hValues
    exact ⟨hUses, hSize values hValues, hBuffer⟩
  · intro i hi col hCol hIn
    have hMod : col % c < c := Nat.mod_lt col hc
    have hSplit : chunk * c + col % c = col := by
      rw [← hIn, Nat.mul_comm]
      exact Nat.div_add_mod col c
    have hRow : i < r := Nat.lt_of_lt_of_le hi hReady.rows
    rw [hProduct acc _ i hi _ hMod (by omega), hSplit, hEntries i hRow _ hMod, hSome]
    congr 1
    cases run with
    | none =>
        rw [Option.isSome_none, Bool.and_false] at hSome
        rw [← hSome]
        rfl
    | some values =>
        obtain ⟨hUses, buffer, hBuffer, hExtract⟩ := hRun values rfl
        have hEnd := hWithin hUses buffer hBuffer
        have hFlat : i * c + col % c < r * c := Tile.flat_lt ⟨i, hRow⟩ ⟨col % c, hMod⟩
        have hElement : values[i * c + col % c]? =
            buffer[base + chunk * (r * c) + (i * c + col % c)]? := by
          rw [hExtract, Array.getElem?_extract, if_pos (by omega)]
        rw [Option.getD_some, hElement, ChunkState.slots, hBuffer, Option.getD_some, slotAddress,
          hIn]

/-- Sums of a chunk that are parked in its slot are a contribution to its columns. -/
theorem Contributes.of_run (hReady : tile.Ready window base r c state) (hc : 0 < c)
    (hChunk : chunk * c < tile.cols) {buffer : Array α} (hBuffer : state.workspace = some buffer)
    (hUses : tile.strategy.usesWorkspace = true) (hLast : tile.visit.isLast = false)
    {sums : Tile α r c}
    (hSums : ∀ i < tile.rows, ∀ col < tile.cols, col / c = chunk →
      sums.entry i (col % c) = add i col
        (if tile.strategy.usesWorkspace && state.workspace.isSome && !tile.visit.isFirst then
          state.slots[slotAddress base r c i col]?.getD 0 else 0)) :
    tile.Contributes window base r c state.workspace.isSome add (· / c = chunk) state
      ⟨state.target, some (writeRun buffer (base + chunk * (r * c)) sums.data.toArray)⟩ := by
  obtain ⟨target, workspace⟩ := state
  obtain rfl : workspace = some buffer := hBuffer
  have hSize : sums.data.toArray.size = r * c := Vector.size_toArray _
  have hFit : base + chunk * (r * c) + sums.data.toArray.size ≤ buffer.size := by
    have := hReady.slots hUses buffer rfl
    have := chunk_slot_le (r := r) hc hChunk
    omega
  have hSlots (p : Nat) := getElem?_writeRun hFit p
  have hWritten : ∀ i < tile.rows, ∀ col < tile.cols, col / c = chunk →
      (writeRun buffer (base + chunk * (r * c)) sums.data.toArray)[
        slotAddress base r c i col]? = some (sums.entry i (col % c)) := by
    intro i hi col hCol hIn
    have hRow : i < r := Nat.lt_of_lt_of_le hi hReady.rows
    have hMem : base + chunk * (r * c) ≤ slotAddress base r c i col ∧
        slotAddress base r c i col < base + chunk * (r * c) + r * c :=
      (slotAddress_mem hRow hc).mpr hIn
    rw [hSlots, hSize, if_pos hMem, slotAddress, hIn, Nat.add_sub_cancel_left,
      Tile.getElem?_data _ hRow (Nat.mod_lt col hc)]
  exact {
    targetSize := rfl
    workspaceSize := by simp [size_writeRun hFit]
    inside := by
      intro i hi col hCol hIn
      simp only [ChunkState.entry, ChunkState.slots, Option.getD_some, hWritten i hi col hCol hIn,
        hSums i hi col hCol hIn, Strategy.visitEntry, hUses, hLast, Option.isSome_some,
        Bool.and_self, Bool.not_false, if_true, Bool.true_and]
    outside := by
      intro i hi col hCol hOut
      have hRow : i < r := Nat.lt_of_lt_of_le hi hReady.rows
      have hApart : ¬ (base + chunk * (r * c) ≤ slotAddress base r c i col ∧
          slotAddress base r c i col < base + chunk * (r * c) + r * c) :=
        mt (slotAddress_mem hRow hc).mp hOut
      simp only [ChunkState.entry, ChunkState.slots, Option.getD_some, hSlots, hSize,
        if_neg hApart]
    targetFrame := fun p _ => rfl
    slotFrame := by
      intro p hp
      have := hp hUses
      have := chunk_slot_le (r := r) hc hChunk
      simp only [ChunkState.slots, Option.getD_some]
      rw [hSlots, if_neg (by omega)] }

/-- A chunk whose sums go to their slot: the destination is left alone. -/
theorem accumulateChunk_parked (hReady : tile.Ready window base r c state) (hc : 0 < c)
    (hSlot : slot chunk = (base + chunk * (r * c), r * c))
    (hProduct : tile.AddsBy product add)
    (hChunk : chunk * c < tile.cols)
    (hParks : (tile.strategy.usesWorkspace && state.workspace.isSome && !tile.visit.isLast) = true) :
    ∃ next, tile.accumulateChunk window slot product state chunk = .ok next ∧
      tile.Contributes window base r c state.workspace.isSome add (· / c = chunk) state next := by
  obtain ⟨run, acc, hOf, hSome, hRun, hPrime, hSums⟩ := sums_spec hReady hc hProduct hChunk
  rw [← hSome] at hParks
  simp only [Bool.and_eq_true, Bool.not_eq_true'] at hParks
  obtain ⟨⟨hUses, hIsSome⟩, hLast⟩ := hParks
  obtain ⟨values, rfl⟩ := Option.isSome_iff_exists.mp hIsSome
  obtain ⟨-, hSize, buffer, hBuffer, -⟩ := hRun values rfl
  refine ⟨_, ?_, .of_run hReady hc hChunk hBuffer hUses hLast hSums⟩
  obtain ⟨target, workspace⟩ := state
  cases hBuffer
  simp only [accumulateChunk, hSlot, hOf, hPrime, hReady.width, ok_bind,
    Strategy.flush_parked target _ _ _ hUses hLast hSize]
  rfl

/-- An entry of a chunk by its column inside the chunk. -/
theorem address_of_chunk (tile : ChunkedTile) (window : Window) {c col chunk : Nat}
    (hIn : col / c = chunk) (i : Nat) : tile.address window i col =
      (window.sub tile.rowStart (chunk * c)).rowStart i + col % c := by
  have hSplit := Nat.div_add_mod col c
  rw [hIn, Nat.mul_comm] at hSplit
  rw [address, Window.rowStart_sub]
  omega

/-- Sums of a chunk that are stored in its columns are a contribution to these columns. -/
theorem Contributes.of_block (hReady : tile.Ready window base r c state) (hc : 0 < c)
    {after : Array ε} {sums : Nat → Nat → α}
    (hBlock : (window.sub tile.rowStart (chunk * c)).BlockUpdate tile.rows
      (min c (tile.cols - chunk * c)) (fun i j => Tile.stored
        (.ofFirst (tile.visit.isFirst || tile.strategy.usesWorkspace)) 1 (sums i j))
      state.target after)
    (hSums : ∀ i < tile.rows, ∀ col < tile.cols, col / c = chunk →
      sums i (col % c) = add i col
        (if tile.strategy.usesWorkspace && state.workspace.isSome && !tile.visit.isFirst then
          state.slots[slotAddress base r c i col]?.getD 0 else 0))
    (hStores : (tile.strategy.usesWorkspace && state.workspace.isSome && !tile.visit.isLast) =
      false) :
    tile.Contributes window base r c state.workspace.isSome add (· / c = chunk) state
      ⟨after, state.workspace⟩ where
  targetSize := hBlock.size
  workspaceSize := rfl
  inside := by
    intro i hi col hCol hIn
    have hColumn : col % c < min c (tile.cols - chunk * c) := by
      have hMod := Nat.mod_lt col hc
      have hSplit := Nat.div_add_mod col c
      rw [hIn, Nat.mul_comm] at hSplit
      omega
    have hPlace : tile.address window i col < state.target.size := by
      have := hReady.fits.within (tile.rowStart + i) (by omega)
      rw [address]
      omega
    have hStored := hBlock.inside i hi (col % c) hColumn
    rw [← address_of_chunk tile window hIn i, Array.getElem?_eq_getElem hPlace, Option.map_some,
      hSums i hi col hCol hIn] at hStored
    simp only [Strategy.visitEntry, hStores, ChunkState.entry, ChunkState.slots, hStored,
      Array.getElem?_eq_getElem hPlace, Option.getD_some]
    rfl
  outside := by
    intro i hi col hCol hOut
    have hSame : after[tile.address window i col]? = state.target[tile.address window i col]? := by
      apply hBlock.outside
      intro i' hi' j hj h
      rw [Window.rowStart_sub] at h
      have hCols := (hReady.fits.injective (tile.rowStart + i) (by omega) col hCol
        (tile.rowStart + i') (by omega) (chunk * c + j) (by omega)
        (by rw [address] at h; omega)).2
      apply hOut
      rw [hCols, Nat.mul_comm, Nat.mul_add_div hc, Nat.div_eq_of_lt (by omega), Nat.add_zero]
    simp only [ChunkState.entry, ChunkState.slots, hSame]
  targetFrame := by
    intro p hp
    apply hBlock.outside p
    intro i hi j hj
    rw [Window.rowStart_sub]
    have := hp i hi (chunk * c + j) (by omega)
    rw [address] at this
    omega
  slotFrame := fun p _ => rfl

/-- A chunk whose sums are stored: the workspace is left alone. -/
theorem accumulateChunk_stored (hReady : tile.Ready window base r c state) (hc : 0 < c)
    (hSlot : slot chunk = (base + chunk * (r * c), r * c))
    (hProduct : tile.AddsBy product add)
    (hChunk : chunk * c < tile.cols)
    (hStores : (tile.strategy.usesWorkspace && state.workspace.isSome && !tile.visit.isLast) =
      false) :
    ∃ next, tile.accumulateChunk window slot product state chunk = .ok next ∧
      tile.Contributes window base r c state.workspace.isSome add (· / c = chunk) state next := by
  obtain ⟨run, acc, hOf, hSome, hRun, hPrime, hSums⟩ := sums_spec hReady hc hProduct hChunk
  have hStoresRun := hStores
  rw [← hSome] at hStoresRun
  have hFits : (window.sub tile.rowStart (chunk * c)).Fits tile.rows
      (min c (tile.cols - chunk * c)) state.target.size :=
    hReady.fits.sub (Nat.le_refl _) (by omega)
  obtain ⟨after, hFlush, hBlock⟩ := Strategy.flush_stored (product acc (chunk * c))
    hStoresRun hReady.rows (Nat.min_le_left _ _) hFits
  -- A slot that was read is written back as it was.
  have hKept : ∀ values ∈ run, ∀ buffer, state.workspace = some buffer →
      writeRun buffer (base + chunk * (r * c)) values = buffer := by
    intro values hValues buffer hBuffer
    obtain ⟨hUses, -, buffer', hBuffer', rfl⟩ := hRun values hValues
    cases hBuffer.symm.trans hBuffer'
    have := hReady.slots hUses buffer hBuffer
    have := chunk_slot_le (r := r) hc hChunk
    exact writeRun_extract (by omega)
  refine ⟨⟨after, state.workspace⟩, ?_, .of_block hReady hc hBlock hSums hStores⟩
  obtain ⟨target, workspace⟩ := state
  simp only [accumulateChunk, hSlot, hOf, hPrime, hReady.width, ok_bind, hFlush]
  cases workspace with
  | none => rfl
  | some buffer =>
      cases run with
      | none => rfl
      | some values =>
          show Except.ok (⟨after, some (writeRun buffer (base + chunk * (r * c)) values)⟩ :
            ChunkState α ε) = _
          rw [hKept values rfl buffer rfl]

/-- One contribution to one column chunk. -/
theorem accumulateChunk_spec (hReady : tile.Ready window base r c state) (hc : 0 < c)
    (hSlot : slot chunk = (base + chunk * (r * c), r * c))
    (hProduct : tile.AddsBy product add)
    (hChunk : chunk * c < tile.cols) :
    ∃ next, tile.accumulateChunk window slot product state chunk = .ok next ∧
      tile.Contributes window base r c state.workspace.isSome add (· / c = chunk) state next := by
  cases hParks : tile.strategy.usesWorkspace && state.workspace.isSome && !tile.visit.isLast with
  | true => exact accumulateChunk_parked hReady hc hSlot hProduct hChunk hParks
  | false => exact accumulateChunk_stored hReady hc hSlot hProduct hChunk hParks

/-- A contribution leaves the tile ready for the next. -/
theorem Contributes.ready {slotted : Bool} {covers : Nat → Prop} {next : ChunkState α ε}
    (hDone : tile.Contributes window base r c slotted add covers state next)
    (hReady : tile.Ready window base r c state) : tile.Ready window base r c next where
  width := hReady.width
  rows := hReady.rows
  fits := by
    rw [hDone.targetSize]
    exact hReady.fits
  slots := by
    intro hUses buffer hBuffer
    obtain ⟨prior, hPrior, hSame⟩ := exists_of_size_eq hDone.workspaceSize hBuffer
    rw [← hSame]
    exact hReady.slots hUses prior hPrior

/-- One contribution to all columns of a tile. Each entry is visited once, and nothing else in
destination and workspace changes. -/
theorem accumulate_spec (hReady : tile.Ready window base r c state) (hc : 0 < c)
    (hSlot : ∀ chunk, slot chunk = (base + chunk * (r * c), r * c))
    (hProduct : tile.AddsBy product add) :
    ∃ next, tile.accumulate window slot product state = .ok next ∧
      tile.Contributes window base r c state.workspace.isSome add (fun _ => True) state next := by
  have hStep : ∀ now : ChunkState α ε, ∀ chunk ∈ List.range (chunksOf tile.cols tile.width),
      tile.Ready window base r c now ∧
          now.target.size = state.target.size ∧
          now.workspace.map (·.size) = state.workspace.map (·.size) →
        ∃ next, tile.accumulateChunk window slot product now chunk = .ok next ∧
          (tile.Ready window base r c next ∧ next.target.size = state.target.size ∧
            next.workspace.map (·.size) = state.workspace.map (·.size)) ∧
          tile.Contributes window base r c state.workspace.isSome add (· / c = chunk) now next := by
    rintro now chunk hChunk ⟨hNow, hTarget, hWorkspace⟩
    have hSlots := congrArg Option.isSome hWorkspace
    rw [Option.isSome_map, Option.isSome_map] at hSlots
    rw [List.mem_range, hReady.width, lt_chunksOf_iff hc] at hChunk
    obtain ⟨next, hNext, hDone⟩ := accumulateChunk_spec hNow hc (hSlot chunk) hProduct hChunk
    exact ⟨next, hNext, ⟨hDone.ready hNow, hDone.targetSize.trans hTarget,
      hDone.workspaceSize.trans hWorkspace⟩, hSlots ▸ hDone⟩
  obtain ⟨next, hRun, ⟨-, hTarget, hWorkspace⟩, hSteps⟩ := foldlM_steps _ _ hStep
    (⟨hReady, rfl, rfl⟩ : tile.Ready window base r c state ∧
      state.target.size = state.target.size ∧
      state.workspace.map (·.size) = state.workspace.map (·.size))
  refine ⟨next, hRun, hTarget, hWorkspace, ?_, fun _ _ _ _ h => absurd trivial h, ?_, ?_⟩
  · intro i hi col hCol _
    rw [hReady.width] at hSteps
    have hMem : col / c ∈ List.range (chunksOf tile.cols c) :=
      List.mem_range.mpr (div_lt_chunksOf hc hCol)
    exact hSteps.observe_once List.nodup_range hMem
      (fun now => now.entry (tile.address window i col) (slotAddress base r c i col)) _
      (fun _ _ hDone => hDone.inside i hi col hCol rfl)
      fun _ _ _ _ hOther hDone => hDone.outside i hi col hCol (Ne.symm hOther)
  · intro p hp
    exact hSteps.frame (fun now => now.target[p]?) fun _ _ _ _ hDone => hDone.targetFrame p hp
  · intro p hp
    exact hSteps.frame (fun now => now.slots[p]?) fun _ _ _ _ hDone => hDone.slotFrame p hp

end ChunkedTile

end FusedAttention
