import FusedAttention.Kernel.Unit
import FusedAttention.Proofs.Steps

/-! Which computations can fail for the order of the phases. Nothing but the opening of a phase does:
loads, products, stores and the sums over rows have faults of their own, on whatever buffers they run. -/
namespace FusedAttention

variable {σ τ ι : Type}

/-- If the computation fails, then not because a phase was refused. -/
def NotRefused (x : Except Fault σ) : Prop :=
  ∀ current next, x ≠ .error (.phaseOrder current next)

namespace NotRefused

theorem ok (a : σ) : NotRefused (.ok a) :=
  nofun

theorem bind {x : Except Fault σ} {f : σ → Except Fault τ} (h : NotRefused x)
    (hRest : ∀ a, NotRefused (f a)) : NotRefused (x >>= f) := by
  cases x with
  | ok a => exact hRest a
  | error fault =>
      intro current next hFault
      cases hFault
      exact h current next rfl

theorem map {x : Except Fault σ} (h : NotRefused x) (f : σ → τ) : NotRefused (x.map f) := by
  cases x with
  | ok a => exact nofun
  | error fault =>
      intro current next hFault
      cases hFault
      exact h current next rfl

theorem foldlM {list : List ι} {step : σ → ι → Except Fault σ}
    (hStep : ∀ state i, NotRefused (step state i)) (state : σ) :
    NotRefused (list.foldlM step state) := by
  induction list generalizing state with
  | nil => exact .ok state
  | cons i rest ih =>
      rw [List.foldlM_cons]
      exact (hStep state i).bind ih

theorem mapM {list : List ι} {f : ι → Except Fault τ} (h : ∀ i, NotRefused (f i)) :
    NotRefused (list.mapM f) := by
  induction list with
  | nil => exact .ok []
  | cons i rest ih =>
      rw [List.mapM_cons]
      exact (h i).bind fun _ => ih.bind fun _ => .ok _

theorem filterMapM {list : List ι} {f : ι → Except Fault (Option τ)} (h : ∀ i, NotRefused (f i)) :
    NotRefused (list.filterMapM f) := by
  induction list with
  | nil => exact .ok []
  | cons i rest ih =>
      rw [List.filterMapM_cons]
      refine (h i).bind fun y => ?_
      cases y with
      | none => exact ih
      | some y => exact ih.bind fun _ => .ok _

theorem forM {list : List ι} {f : ι → Except Fault Unit} (h : ∀ i, NotRefused (f i)) :
    NotRefused (list.forM f) := by
  induction list with
  | nil => exact .ok ()
  | cons i rest ih => exact (h i).bind fun _ => ih

end NotRefused

theorem Overflow.check_notRefused (overflow : Overflow) (sum : Nat) :
    NotRefused (overflow.check sum) := by
  unfold check
  split
  · split <;> exact nofun
  · exact nofun

theorem checkRows_notRefused (mask : Option MaskSource) (overflow : Overflow)
    (queryStart rows keyStart : Nat) :
    NotRefused (mask.forM (·.checkRows overflow queryStart rows keyStart)) := by
  cases mask with
  | none => exact .ok ()
  | some m => exact .forM fun _ => overflow.check_notRefused _

theorem Biases.mapM_notRefused {f : BiasKind → σ → Except Fault τ}
    (h : ∀ kind x, NotRefused (f kind x)) (b : Biases σ) : NotRefused (b.mapM f) :=
  (h .keyMask _).bind fun _ => (h .pairBias _).bind fun _ => .ok _

/-! ### Buffers -/

theorem sliceOf_notRefused (data : Array τ) (start length : Nat) :
    NotRefused (sliceOf data start length) := by
  unfold sliceOf
  split <;> exact nofun

namespace Window

variable (window : Window) (data : Array τ)

theorem rowWithin_notRefused (row length : Nat) : NotRefused (window.rowWithin data row length) := by
  unfold rowWithin
  dsimp only
  split <;> exact nofun

theorem updateRow_notRefused (row length : Nat) (f : Nat → τ → τ) :
    NotRefused (window.updateRow data row length f) :=
  (window.rowWithin_notRefused data row length).bind fun _ => .ok _

theorem fillRows_notRefused (rows cols : Nat) (value : τ) :
    NotRefused (window.fillRows data rows cols value) :=
  .foldlM (fun data row => window.updateRow_notRefused data row cols _) data

end Window

section Elements

variable {α ε : Type} [Scalar α] [Element ε α]

/-! ### Tiles -/

namespace Tile

variable {r c : Nat}

theorem load_notRefused (source : Array ε) (window : Window) (rows cols : Nat) :
    NotRefused (load source window rows cols : Except Fault (Tile α r c)) :=
  .bind (.mapM fun _ => sliceOf_notRefused _ _ _) fun _ => .ok _

theorem store_notRefused (t : Tile α r c) (target : Array ε) (window : Window) (rows cols : Nat)
    (alpha : α) (mode : StoreMode) : NotRefused (t.store target window rows cols alpha mode) :=
  .foldlM (fun target row => window.updateRow_notRefused target row _ _) target

omit [Scalar α] in
theorem ofRun_notRefused (values : Array α) : NotRefused (ofRun values : Except Fault (Tile α r c)) := by
  unfold ofRun
  split <;> exact nofun

omit [Scalar α] in
theorem park_notRefused (t : Tile α r c) (run : Array α) : NotRefused (t.park run) := by
  unfold park
  split <;> exact nofun

omit [Scalar α] in
theorem readRow_notRefused (t : Tile α r c) (row : Nat) : NotRefused (t.readRow row) := by
  unfold readRow
  split <;> exact nofun

end Tile

omit [Scalar α] in
theorem loadVector_notRefused (n : Nat) (source : Array α) (length : Nat) (pad : α) :
    NotRefused (loadVector n source length pad) := by
  unfold loadVector
  dsimp only
  split <;> exact nofun

omit [Scalar α] in
theorem zeroFillKeyRows_notRefused (gradK gradV : Array ε) (windowK windowV : Window)
    (rows headDim headDimValue : Nat) :
    NotRefused (zeroFillKeyRows (α := α) gradK gradV windowK windowV rows headDim headDimValue) :=
  .bind (windowK.fillRows_notRefused _ _ _ _) fun _ =>
    .bind (windowV.fillRows_notRefused _ _ _ _) fun _ => .ok _

/-! ### Accumulation -/

namespace Strategy

variable {r c : Nat}

omit [Element ε α] in
theorem prime_notRefused (s : Strategy) (visit : Visit) (slot : Option (Array α)) :
    NotRefused (s.prime visit slot : Except Fault (Tile α r c)) := by
  unfold prime
  split
  · split
    · exact .ok _
    · exact Tile.ofRun_notRefused _
  · exact .ok _

theorem flush_notRefused (s : Strategy) (acc : Tile α r c) (visit : Visit) (slot : Option (Array α))
    (target : Array ε) (window : Window) (rows cols : Nat) :
    NotRefused (s.flush acc visit slot target window rows cols) := by
  unfold flush
  split
  · exact .bind (acc.park_notRefused _) fun _ => .ok _
  · exact .bind (acc.store_notRefused _ _ _ _ _ _) fun _ => .ok _

end Strategy

theorem ChunkedTile.accumulate_notRefused {r c : Nat} (tile : ChunkedTile) (window : Window)
    (slot : Nat → Nat × Nat) (product : Tile α r c → Nat → Tile α r c) (state : ChunkState α ε) :
    NotRefused (tile.accumulate window slot product state) := by
  refine .foldlM (fun ⟨target, workspace⟩ chunk => ?_) state
  have hSlot : NotRefused (tile.slotOf workspace (slot chunk).1 (slot chunk).2) := by
    unfold slotOf
    split
    · split
      · exact (sliceOf_notRefused _ _ _).map _
      · exact .ok _
    · exact .ok _
  exact hSlot.bind fun run => (tile.strategy.prime_notRefused tile.visit run).bind fun acc =>
    (tile.strategy.flush_notRefused _ _ _ _ _ _ _).bind fun _ => .ok _

theorem BiasKind.accumulateGrad_notRefused {r c : Nat} (kind : BiasKind) (window : Window)
    (ds : Tile α r c) (rows cols : Nat) (grad : Array α) :
    NotRefused (kind.accumulateGrad window ds rows cols grad) := by
  cases kind with
  | keyMask => exact window.updateRow_notRefused _ _ _ _
  | pairBias =>
      exact .foldlM (fun grad row => .bind (window.rowWithin_notRefused grad row cols) fun _ =>
        .bind (ds.readRow_notRefused row) fun _ => .ok _) grad

/-! ### Rows -/

theorem computeDelta_notRefused (o dO : Array ε) (windowO windowDO : Window)
    (numQueries headDimValue blockI : Nat) (out : Array α) :
    NotRefused (computeDelta o dO windowO windowDO numQueries headDimValue blockI out) := by
  have hLanes : NotRefused (threadsPerRow? blockI) := by
    unfold threadsPerRow?
    split <;> exact nofun
  have hDot : ∀ (a b : Array ε) (lanes : Nat), NotRefused (Lanes.stripedDot (α := α) a b lanes) := by
    intro a b lanes
    unfold Lanes.stripedDot
    split
    · exact nofun
    · refine .map ?_ _
      unfold Lanes.reduce
      split <;> exact nofun
  exact hLanes.bind fun lanes => .foldlM (fun out row =>
    .bind (sliceOf_notRefused _ _ _) fun rowO => .bind (sliceOf_notRefused _ _ _) fun rowDO =>
      (hDot rowO rowDO lanes).bind fun _ => .ok _) out

/-! ### The parts of a unit -/

namespace Kernel

variable (kernel : Kernel α ε) (view : UnitView α)

theorem biasTiles_notRefused (u : UnitCoord) (ext : TileExtent) :
    NotRefused (kernel.biasTiles u ext) := by
  refine .filterMapM fun kind => ?_
  split
  · exact .ok _
  · exact .bind (Tile.load_notRefused _ _ _ _) fun _ => .ok _

omit [Element ε α] in
theorem addBiasGrads_notRefused (u : UnitCoord) (ext : TileExtent)
    (ds : Tile α kernel.tiles.blockI kernel.tiles.blockJ) (grads : Biases (Option (Array α))) :
    NotRefused (kernel.addBiasGrads u ext ds grads) := by
  refine Biases.mapM_notRefused (fun kind grad => ?_) grads
  split
  · exact .bind (kind.accumulateGrad_notRefused _ _ _ _ _) fun _ => .ok _
  · exact .ok _

variable {t : TileSize}

theorem addKeySide_notRefused (resident : Bool) (tile : ChunkedTile) (window : Window)
    (slot : Nat → Nat × Nat) (product : Tile α t.blockJ t.blockI → Nat → Tile α t.blockJ t.blockI)
    (acc : Tile α t.blockJ t.blockI) (target : Array ε) (workspace : Option (Array α)) :
    NotRefused (addKeySide resident tile window slot product acc target workspace) := by
  unfold addKeySide
  split
  · exact .ok _
  · exact .bind (tile.accumulate_notRefused _ _ _ _) fun _ => .ok _

theorem addQuerySide_notRefused (hasSlots : Bool) (tile : ChunkedTile) (window : Window)
    (slot : Nat → Nat × Nat) (product : Tile α t.blockI t.blockJ → Nat → Tile α t.blockI t.blockJ)
    (target : Array ε) (workspace : Option (Array α)) :
    NotRefused (addQuerySide (t := t) hasSlots tile window slot product target workspace) := by
  unfold addQuerySide
  split
  · exact tile.accumulate_notRefused _ _ _ _
  · exact .bind (tile.accumulate_notRefused _ _ _ _) fun _ => .ok _

theorem storeResident_notRefused (keyStart : Nat) (state : UnitState α ε kernel.tiles) :
    NotRefused (kernel.storeResident view keyStart state) :=
  .bind (state.gradK.store_notRefused _ _ _ _ _ _) fun _ =>
    .bind (state.gradV.store_notRefused _ _ _ _ _ _) fun _ => .ok _

omit [Scalar α] in
theorem clearKeyTile_notRefused (keyStart : Nat) (state : UnitState α ε kernel.tiles) :
    NotRefused (kernel.clearKeyTile view keyStart state) :=
  .bind (zeroFillKeyRows_notRefused (α := α) _ _ _ _ _ _ _) fun _ => .ok _

end Kernel

end Elements

end FusedAttention
