import FusedAttention.Proofs.Units

/-! What the slice of the workspace depends on. Two runs of a unit whose gradients may hold anything
go in step: their scratch, their accumulators and their slices stay equal. -/
namespace FusedAttention

variable {α ε : Type} [Scalar α] [Element ε α]

/-! ### Sums that are parked -/

/-- An accumulator is parked or not whatever the destination holds. -/
theorem Strategy.flush_inStep {r c : Nat} {s : Strategy} {acc : Tile α r c} {visit : Visit}
    {slot : Option (Array α)} {target target' : Array ε} {window : Window} {rows cols : Nat} :
    InStep (fun a b => a.1 = b.1) (s.flush acc visit slot target window rows cols)
      (s.flush acc visit slot target' window rows cols) := by
  unfold flush
  split
  · exact .bind_same fun _ => .ok rfl
  · exact .bind_any fun _ _ => .ok rfl

namespace ChunkedTile

variable {r c : Nat} {tile : ChunkedTile} {window : Window} {slot : Nat → Nat × Nat}
  {product : Tile α r c → Nat → Tile α r c} {state state' : ChunkState α ε}

theorem accumulateChunk_inStep (chunk : Nat)
    (h : state.workspace = state'.workspace) :
    InStep (fun a b => a.workspace = b.workspace)
      (tile.accumulateChunk window slot product state chunk)
      (tile.accumulateChunk window slot product state' chunk) := by
  obtain ⟨target, workspace⟩ := state
  obtain ⟨target', workspace'⟩ := state'
  obtain rfl : workspace = workspace' := h
  refine .bind_same fun run => .bind_same fun acc => .bind Strategy.flush_inStep ?_
  rintro ⟨run, stored⟩ ⟨run', stored'⟩ hRun
  obtain rfl : run = run' := hRun
  exact .ok rfl

theorem accumulate_inStep (h : state.workspace = state'.workspace) :
    InStep (fun a b => a.workspace = b.workspace) (tile.accumulate window slot product state)
      (tile.accumulate window slot product state') :=
  .foldlM (fun _ _ chunk hSame => accumulateChunk_inStep chunk hSame) h

end ChunkedTile

namespace Kernel

section Sides

variable {t : TileSize} {tile : ChunkedTile} {window : Window} {slot : Nat → Nat × Nat}
  {target target' : Array ε} {workspace : Option (Array α)}

theorem addKeySide_inStep {resident : Bool}
    {product : Tile α t.blockJ t.blockI → Nat → Tile α t.blockJ t.blockI}
    {acc : Tile α t.blockJ t.blockI} :
    InStep (fun a b => a.1 = b.1 ∧ a.2.workspace = b.2.workspace)
      (addKeySide resident tile window slot product acc target workspace)
      (addKeySide resident tile window slot product acc target' workspace) := by
  unfold addKeySide
  split
  · exact .ok ⟨rfl, rfl⟩
  · exact .bind (ChunkedTile.accumulate_inStep rfl) fun _ _ hSame => .ok ⟨rfl, hSame⟩

theorem addQuerySide_inStep {hasSlots : Bool}
    {product : Tile α t.blockI t.blockJ → Nat → Tile α t.blockI t.blockJ} :
    InStep (fun a b => a.workspace = b.workspace)
      (addQuerySide hasSlots tile window slot product target workspace)
      (addQuerySide hasSlots tile window slot product target' workspace) := by
  unfold addQuerySide
  split
  · exact ChunkedTile.accumulate_inStep rfl
  · exact .bind_any fun _ _ => .ok rfl

end Sides

/-! ### Units -/

/-- Two states of a unit that differ in the gradients at most. -/
structure Alike {t : TileSize} (state state' : UnitState α ε t) : Prop where
  workspace : state.memory.workspace = state'.memory.workspace
  mask : state.mask = state'.mask
  scratch : state.scratch = state'.scratch
  gradK : state.gradK = state'.gradK
  gradV : state.gradV = state'.gradV

variable (kernel : Kernel α ε) (view : UnitView α) (keyStart : Nat)
  {state state' : UnitState α ε kernel.tiles}

theorem runPair_inStep (queryStart : Nat) (h : Alike state state') :
    InStep Alike (kernel.runPair view keyStart state queryStart)
      (kernel.runPair view keyStart state' queryStart) := by
  obtain ⟨⟨⟨gradQ, gradK, gradV⟩, biasGrads, workspace⟩, mask, scratch, accK, accV⟩ := state
  obtain ⟨⟨⟨gradQ', gradK', gradV'⟩, biasGrads', workspace'⟩, mask', scratch', accK', accV'⟩ := state'
  obtain rfl : workspace = workspace' := h.workspace
  obtain rfl : mask = mask' := h.mask
  obtain rfl : scratch = scratch' := h.scratch
  obtain rfl : accK = accK' := h.gradK
  obtain rfl : accV = accV' := h.gradV
  refine .bind_same fun scratch => .bind_same fun biases => .bind_same fun _ => ?_
  refine .bind_same fun scores => ?_
  refine .bind_same fun scratch => .bind addKeySide_inStep ?_
  rintro ⟨accV, gradV, workspace⟩ ⟨accV', gradV', workspace'⟩ ⟨hAcc, hWorkspace⟩
  obtain rfl : accV = accV' := hAcc
  obtain rfl : workspace = workspace' := hWorkspace
  refine .bind_same fun grads => .bind_any fun biasGrads biasGrads' => ?_
  refine .bind_same fun scratch => .bind addQuerySide_inStep ?_
  rintro ⟨gradQ, workspace⟩ ⟨gradQ', workspace'⟩ hWorkspace
  obtain rfl : workspace = workspace' := hWorkspace
  refine .bind_same fun scratch => .bind addKeySide_inStep ?_
  rintro ⟨accK, gradK, workspace⟩ ⟨accK', gradK', workspace'⟩ ⟨hAcc, hWorkspace⟩
  exact .ok ⟨hWorkspace, rfl, rfl, hAcc, rfl⟩

theorem loadKeys_inStep (h : Alike state state') :
    InStep Alike (kernel.loadKeys view keyStart state) (kernel.loadKeys view keyStart state') := by
  obtain ⟨memory, mask, scratch, accK, accV⟩ := state
  obtain ⟨memory', mask', scratch', accK', accV'⟩ := state'
  obtain rfl : scratch = scratch' := h.scratch
  unfold loadKeys
  split
  · exact .bind_same fun _ => .ok ⟨h.workspace, h.mask, rfl, h.gradK, h.gradV⟩
  · exact .ok h

theorem runQueries_inStep (h : Alike state state') :
    InStep Alike (kernel.runQueries view keyStart state) (kernel.runQueries view keyStart state') :=
  .bind (kernel.loadKeys_inStep view keyStart h) fun _ _ hLoaded =>
    .foldlM (fun _ _ queryStart hSame => kernel.runPair_inStep view keyStart queryStart hSame) hLoaded

theorem storeResident_inStep (h : Alike state state') :
    InStep Alike (kernel.storeResident view keyStart state)
      (kernel.storeResident view keyStart state') :=
  .bind_any fun _ _ =>
    .bind_any fun _ _ =>
      .ok ⟨h.workspace, h.mask, h.scratch, h.gradK, h.gradV⟩

omit [Scalar α] in
theorem clearKeyTile_inStep (h : Alike state state') :
    InStep Alike (kernel.clearKeyTile view keyStart state)
      (kernel.clearKeyTile view keyStart state') :=
  .bind_any fun _ _ =>
    .ok ⟨h.workspace, h.mask, h.scratch, h.gradK, h.gradV⟩

theorem runKeyTile_inStep (h : Alike state state') :
    InStep Alike (kernel.runKeyTile view state keyStart) (kernel.runKeyTile view state' keyStart) := by
  unfold runKeyTile
  split
  · exact .bind (kernel.runQueries_inStep view keyStart ⟨h.workspace, h.mask, h.scratch, rfl, rfl⟩)
      fun _ _ hRun => kernel.storeResident_inStep view keyStart hRun
  · split
    · exact kernel.clearKeyTile_inStep view keyStart h
    · exact kernel.runQueries_inStep view keyStart h

section Units

variable {kernel : Kernel α ε} (hValid : kernel.Valid) {u : UnitCoord} (hReads : kernel.Reads u)
  {row row' : Array α} (hRow : row.size = kernel.shape.numQueries)
  (hRow' : row'.size = kernel.shape.numQueries)

include hValid hReads hRow hRow'

/-- Delta of a unit does not depend on what its row held. -/
theorem computeDelta_inStep :
    let inputs := kernel.request.inputLayouts.map (·.unitWindow u)
    let compute := computeDelta kernel.request.inputs.o kernel.request.inputs.dO inputs.o inputs.dO
      kernel.shape.numQueries kernel.shape.headDimValue kernel.tiles.blockI
    InStep (fun a b => a = b) (compute row) (compute row') := by
  obtain ⟨delta, hDelta, hSize, hEntries⟩ := computeDelta_unit hValid hReads hRow
  obtain ⟨delta', hDelta', hSize', hEntries'⟩ := computeDelta_unit hValid hReads hRow'
  have hSame : delta = delta' := by
    refine Array.ext_getElem? fun i => ?_
    by_cases hi : i < kernel.shape.numQueries
    · rw [hEntries i hi, hEntries' i hi]
    · rw [Array.getElem?_eq_none (by omega), Array.getElem?_eq_none (by omega)]
  intro inputs compute a b hFirst hSecond
  obtain rfl : delta = a := Except.ok.inj (hDelta.symm.trans hFirst)
  obtain rfl : delta' = b := Except.ok.inj (hDelta'.symm.trans hSecond)
  exact hSame

/-- What a unit leaves in its slice depends on what the slice held, and on nothing else of its
memory. -/
theorem runUnit_inStep {memory memory' : UnitMemory α ε}
    (hWorkspace : memory.workspace = memory'.workspace) :
    InStep (fun a b => a.2.workspace = b.2.workspace) (kernel.runUnit u row memory)
      (kernel.runUnit u row' memory') := by
  refine .bind_same fun _ => .bind_same fun lse => ?_
  refine .bind (computeDelta_inStep hValid hReads hRow hRow') ?_
  intro delta delta' hDelta
  obtain rfl : delta = delta' := hDelta
  refine .bind (.foldlM (fun _ _ keyStart h => kernel.runKeyTile_inStep _ keyStart h)
    ⟨hWorkspace, rfl, rfl, rfl, rfl⟩) fun _ _ hLast => ?_
  exact .ok hLast.workspace

end Units

end Kernel

end FusedAttention
