import FusedAttention.Proofs.Formulas
import FusedAttention.Proofs.Refusals
import FusedAttention.Proofs.ScratchUses
import FusedAttention.Proofs.StaleScratch

/-! The phases that one unit opens. A unit runs with a record of the phases that it opens, which changes
nothing else. Whatever the shape, the policy and the buffers, the record begins the word that the loops
over the tiles spell, and is that word if the unit comes to its end. -/
namespace FusedAttention

variable {α ε σ τ ι : Type} {t : TileSize}

/-- A computation that can fail, with the phases that it opens until it ends or fails. A phase that is
refused counts as opened. -/
structure Traced (σ : Type) where
  phases : List Phase
  outcome : Except Fault σ

namespace Traced

instance : Monad Traced where
  pure a := ⟨[], .ok a⟩
  bind x f :=
    match x.outcome with
    | .ok a => ⟨x.phases ++ (f a).phases, (f a).outcome⟩
    | .error fault => ⟨x.phases, .error fault⟩

/-- A computation that opens no phase. -/
instance : MonadLift (Except Fault) Traced where
  monadLift x := ⟨[], x⟩

/-- A computation that opens one phase and then none. -/
def opening (phase : Phase) (x : Except Fault σ) : Traced σ :=
  ⟨[phase], x⟩

/-! ### Without the record -/

theorem outcome_bind {x : Traced σ} {f : σ → Traced τ} {y : Except Fault σ} {g : σ → Except Fault τ}
    (h : x.outcome = y) (hRest : ∀ a, (f a).outcome = g a) : (x >>= f).outcome = y >>= g := by
  obtain ⟨phases, outcome⟩ := x
  obtain rfl : outcome = y := h
  cases outcome with
  | error fault => rfl
  | ok a => exact hRest a

theorem outcome_foldlM {list : List ι} {f : σ → ι → Traced σ} {g : σ → ι → Except Fault σ}
    (hStep : ∀ state i, (f state i).outcome = g state i) (state : σ) :
    (list.foldlM f state).outcome = list.foldlM g state := by
  induction list generalizing state with
  | nil => rfl
  | cons i rest ih =>
      rw [List.foldlM_cons, List.foldlM_cons]
      exact outcome_bind (hStep state i) ih

/-! ### What the record says -/

/-- The computation starts from storage `s` and opens the phases of `word` in their order. If it ends, it
has opened all of them, and the storage in its result, which `scratch` tells, comes from `s` by uses of
these phases. If a phase is refused, then the phases that were opened may not follow one another. -/
structure Follows (s : Scratch α t) (word : List Phase) (scratch : σ → Scratch α t)
    (x : Traced σ) : Prop where
  begins : x.phases <+: word
  ends : ∀ a, x.outcome = .ok a → x.phases = word ∧
    ∃ uses, uses.map (·.phase) = word ∧ s.useAll uses = .ok (scratch a)
  refused : ∀ current next, x.outcome = .error (.phaseOrder current next) →
    ¬ s.phase.Accepts x.phases

namespace Follows

variable {s : Scratch α t} {first word : List Phase} {view : σ → Scratch α t} {view' : τ → Scratch α t}

theorem pure {a : σ} (h : view a = s) : Follows s [] view (Pure.pure a) where
  begins := List.prefix_rfl
  ends := by
    rintro _ ⟨⟩
    refine ⟨rfl, [], rfl, ?_⟩
    rw [h]
    rfl
  refused := nofun

theorem bind {x : Traced σ} {f : σ → Traced τ} (h : Follows s first view x)
    (hRest : ∀ a, Follows (view a) word view' (f a)) : Follows s (first ++ word) view' (x >>= f) := by
  obtain ⟨phases, outcome⟩ := x
  cases outcome with
  | error fault =>
      refine ⟨h.begins.trans (List.prefix_append _ _), nofun, fun current next hFault => ?_⟩
      cases hFault
      exact h.refused current next rfl
  | ok a =>
      obtain ⟨rfl, uses, hUses, hAll⟩ := h.ends a rfl
      refine ⟨(List.prefix_append_right_inj _).mpr (hRest a).begins, fun b hb => ?_,
        fun current next hFault hAccepts => ?_⟩
      · obtain ⟨hWord, more, hMore, hLast⟩ := (hRest a).ends b hb
        refine ⟨congrArg _ hWord, uses ++ more, by rw [List.map_append, hUses, hMore], ?_⟩
        rw [Scratch.useAll_append, hAll, ok_bind, hLast]
      · refine (hRest a).refused current next hFault ?_
        rw [← Scratch.accepts_after hAll, hUses]
        exact hAccepts

theorem foldlM {list : List ι} {f : σ → ι → Traced σ} (words : ι → List Phase)
    (hStep : ∀ state i, Follows (view state) (words i) view (f state i)) {state : σ}
    (hState : view state = s) : Follows s (list.flatMap words) view (list.foldlM f state) := by
  induction list generalizing state s with
  | nil => exact .pure hState
  | cons i rest ih =>
      rw [List.foldlM_cons, List.flatMap_cons, ← hState]
      exact (hStep state i).bind fun next => ih rfl

/-- A phase is opened first. -/
theorem open_bind {phase : Phase} {x : Traced σ} {f : σ → Traced τ} (h : Follows s [phase] view x)
    (hRest : ∀ a, Follows (view a) word view' (f a)) : Follows s (phase :: word) view' (x >>= f) :=
  h.bind hRest

/-- A computation that opens no phase leaves the storage as it is. -/
theorem lift {x : Except Fault σ} (h : NotRefused x) (hKeeps : ∀ a, x = .ok a → view a = s) :
    Follows s [] view (liftM x : Traced σ) where
  begins := List.prefix_rfl
  ends a ha := ⟨rfl, [], rfl, congrArg Except.ok (hKeeps a ha).symm⟩
  refused current next hFault := absurd hFault (h current next)

theorem lift_bind {x : Except Fault σ} {f : σ → Traced τ} (h : NotRefused x)
    (hRest : ∀ a, Follows s word view' (f a)) : Follows s word view' (liftM x >>= f) :=
  (lift h fun _ _ => rfl : Follows s [] (fun _ => s) _).bind hRest

/-- The phases are all opened before the rest of the computation. -/
theorem bind_nil {x : Traced σ} {f : σ → Traced τ} (h : Follows s word view x)
    (hRest : ∀ a, Follows (view a) [] view' (f a)) : Follows s word view' (x >>= f) := by
  rw [← List.append_nil word]
  exact h.bind hRest

/-- A computation that goes on from storage that entered a phase, and then leaves the phase and the
regions that it does not produce as they are. -/
theorem stage {phase : Phase} {body : Scratch α t → Except Fault σ}
    (hBody : NotRefused (body { s with phase }))
    (hKeeps : ∀ a, body { s with phase } = .ok a → (view a).phase = phase ∧
      ∀ r, r.producer ≠ phase → (view a).region r = s.region r) :
    Follows s [phase] view (opening phase (s.enter phase >>= body)) := by
  cases hAllows : s.phase.allows phase with
  | false =>
      have hRefused : s.enter phase = .error (.phaseOrder s.phase phase) := by
        rw [Scratch.enter, hAllows]
        rfl
      rw [hRefused]
      refine ⟨List.prefix_rfl, fun _ hEnds => ?_, fun _ _ _ hAccepts => ?_⟩
      · cases hEnds
      · rw [(Phase.accepts_cons.mp hAccepts).1] at hAllows
        cases hAllows
  | true =>
      rw [Scratch.enter_eq hAllows, ok_bind]
      refine ⟨List.prefix_rfl, fun a ha => ⟨rfl, [⟨phase, fun _ => (view a).region⟩], rfl, ?_⟩,
        fun current next hFault => absurd hFault (hBody current next)⟩
      obtain ⟨hPhase, hKept⟩ := hKeeps a ha
      rw [Scratch.useAll_singleton]
      exact Scratch.use_eq_of_keeps hAllows hPhase hKept

/-- As `stage`, for a computation that cannot fail. -/
theorem stage_ok {phase : Phase} {body : Scratch α t → Except Fault σ} {a : σ}
    (hBody : body { s with phase } = .ok a) (hPhase : (view a).phase = phase)
    (hKept : ∀ r, r.producer ≠ phase → (view a).region r = s.region r) :
    Follows s [phase] view (opening phase (s.enter phase >>= body)) := by
  refine .stage (hBody ▸ .ok a) fun b hb => ?_
  rw [hBody] at hb
  cases hb
  exact ⟨hPhase, hKept⟩

end Follows

end Traced

/-! ### The stages -/

namespace Scratch

open Traced

variable [Scalar α] [Element ε α] (s : Scratch α t)

omit [Scalar α] [Element ε α] in
theorem enter_follows (phase : Phase) : Follows s [phase] id (opening phase (s.enter phase)) := by
  rw [← bind_pure (s.enter phase)]
  refine .stage_ok rfl rfl fun r _ => ?_
  cases r <;> rfl

theorem loadKeyTile_follows (k v : Array ε) (windowK windowV : Window) (ext : TileExtent)
    (headDim headDimValue : Nat) :
    Follows s [.loadKeys] id
      (opening .loadKeys (s.loadKeyTile k v windowK windowV ext headDim headDimValue)) := by
  refine .stage (.bind (Tile.load_notRefused _ _ _ _) fun _ =>
    .bind (Tile.load_notRefused _ _ _ _) fun _ => .ok _) fun next h => ?_
  obtain ⟨keyRows, -, h⟩ := exists_of_bind_eq_ok h
  obtain ⟨valueRows, -, h⟩ := exists_of_bind_eq_ok h
  cases h
  refine ⟨rfl, fun r hr => ?_⟩
  cases r with
  | keyRows | valueRows => exact absurd rfl hr
  | _ => rfl

theorem loadQueryTile_follows (q dO : Array ε) (windowQ windowDO : Window) (lse delta : Array α)
    (ext : TileExtent) (headDim headDimValue : Nat) :
    Follows s [.loadQueries] id (opening .loadQueries
      (s.loadQueryTile q dO windowQ windowDO lse delta ext headDim headDimValue)) := by
  refine .stage (.bind (Tile.load_notRefused _ _ _ _) fun _ =>
    .bind (Tile.load_notRefused _ _ _ _) fun _ => .bind (sliceOf_notRefused _ _ _) fun _ =>
    .bind (loadVector_notRefused _ _ _ _) fun _ => .bind (sliceOf_notRefused _ _ _) fun _ =>
    .bind (loadVector_notRefused _ _ _ _) fun _ => .ok _) fun next h => ?_
  obtain ⟨queryRows, -, h⟩ := exists_of_bind_eq_ok h
  obtain ⟨gradOutRows, -, h⟩ := exists_of_bind_eq_ok h
  obtain ⟨lseFrom, -, h⟩ := exists_of_bind_eq_ok h
  obtain ⟨lseRow, -, h⟩ := exists_of_bind_eq_ok h
  obtain ⟨deltaFrom, -, h⟩ := exists_of_bind_eq_ok h
  obtain ⟨deltaRow, -, h⟩ := exists_of_bind_eq_ok h
  cases h
  refine ⟨rfl, fun r hr => ?_⟩
  cases r with
  | queryRows | gradOutRows | lse | delta => exact absurd rfl hr
  | _ => rfl

omit [Element ε α] in
theorem recomputeScores_follows (ext : TileExtent) (headDim : Nat) (scale : α)
    (biases : List (Tile α t.blockI t.blockJ)) (source : Option MaskSource) :
    Follows s [.scoreRecompute] Prod.fst
      (opening .scoreRecompute (s.recomputeScores ext headDim scale biases source)) := by
  -- Without a source the mask is left as it is, which its phase may do as well.
  cases source
  all_goals
    refine .stage_ok rfl rfl fun r hr => ?_
    cases r with
    | probT | mask => exact absurd rfl hr
    | _ => rfl

omit [Element ε α] in
theorem stageValues_follows (masked : Bool) :
    Follows s [.valueGrad] id (opening .valueGrad (s.stageValues masked)) := by
  refine .stage_ok rfl rfl fun r hr => ?_
  cases r with
  | staging => exact absurd rfl hr
  | _ => rfl

omit [Element ε α] in
theorem computeScoreGrad_follows (headDimValue : Nat) (scale : α) (masked : Bool) :
    Follows s [.scoreGrad] Prod.snd
      (opening .scoreGrad (s.computeScoreGrad headDimValue scale masked)) := by
  refine .stage_ok rfl rfl fun r hr => ?_
  cases r with
  | gradScores => exact absurd rfl hr
  | _ => rfl

/-! The stages that compute read nothing but what their views show. -/

section Views

variable {s s' : Scratch α t}

omit [Element ε α] in
theorem recomputeScores_sameView {ext : TileExtent} {headDim : Nat} {scale : α}
    {biases : List (Tile α t.blockI t.blockJ)} {source : Option MaskSource}
    (h : SameView .scoreRecompute s s') :
    InStep (fun x y => x.1.probT = y.1.probT ∧ (source.isSome = true → x.1.mask = y.1.mask) ∧ x.2 = y.2)
      (s.recomputeScores ext headDim scale biases source)
      (s'.recomputeScores ext headDim scale biases source) := by
  have hQueries : s.queryRows = s'.queryRows := h .queryRows (by decide)
  have hKeys : s.keyRows = s'.keyRows := h .keyRows (by decide)
  have hLse : s.lse = s'.lse := h .lse (by decide)
  refine .bind (enter_inStep s s' _) ?_
  rintro _ _ ⟨rfl, rfl⟩
  simp only [hQueries, hKeys, hLse]
  cases source with
  | none => exact .ok ⟨rfl, nofun, rfl⟩
  | some source => exact .ok ⟨rfl, fun _ => rfl, rfl⟩

omit [Element ε α] in
theorem stageValues_sameView {masked : Bool} (h : SameView .valueGrad s s') :
    InStep (fun x y => x.staging = y.staging) (s.stageValues masked) (s'.stageValues masked) := by
  have hProbs : s.probT = s'.probT := h .probT (by decide)
  have hMask : s.mask = s'.mask := h .mask (by decide)
  refine .bind (enter_inStep s s' _) ?_
  rintro _ _ ⟨rfl, rfl⟩
  simp only [hProbs, hMask]
  exact .ok rfl

omit [Element ε α] in
theorem computeScoreGrad_sameView {headDimValue : Nat} {scale : α} {masked : Bool}
    (h : SameView .scoreGrad s s') :
    InStep (fun x y => x.1 = y.1 ∧ x.2.gradScores = y.2.gradScores)
      (s.computeScoreGrad headDimValue scale masked)
      (s'.computeScoreGrad headDimValue scale masked) := by
  have hProbs : s.probT = s'.probT := h .probT (by decide)
  have hMask : s.mask = s'.mask := h .mask (by decide)
  have hGradOut : s.gradOutRows = s'.gradOutRows := h .gradOutRows (by decide)
  have hValues : s.valueRows = s'.valueRows := h .valueRows (by decide)
  have hDelta : s.delta = s'.delta := h .delta (by decide)
  refine .bind (enter_inStep s s' _) ?_
  rintro _ _ ⟨rfl, rfl⟩
  simp only [scoreGradients, hProbs, hMask, hGradOut, hValues, hDelta]
  exact .ok ⟨rfl, rfl⟩

end Views

end Scratch

/-! ### The loops of a unit -/

namespace Kernel

open Traced

variable [Scalar α] [Element ε α]

/-- `runPair` with a record of the phases. -/
def tracePair (kernel : Kernel α ε) (view : UnitView α) (keyStart : Nat)
    (state : UnitState α ε kernel.tiles) (queryStart : Nat) :
    Traced (UnitState α ε kernel.tiles) := do
  let ⟨⟨⟨gradQ, gradK, gradV⟩, biasGrads, workspace⟩, mask, scratch, accK, accV⟩ := state
  let headDim := kernel.shape.headDim
  let headDimValue := kernel.shape.headDimValue
  let resident := kernel.plan.outputInRegisters
  let ext := kernel.extent queryStart keyStart
  let keyVisit := kernel.keyVisit queryStart keyStart
  let queryVisit := kernel.queryVisit queryStart keyStart
  let scratch ← opening .loadQueries <| scratch.loadQueryTile kernel.request.inputs.q
    kernel.request.inputs.dO view.inputs.q view.inputs.dO view.lse view.delta ext headDim headDimValue
  let biases ← kernel.biasTiles view.coord ext
  let masked := mask.isSome
  (mask.forM (·.checkRows kernel.overflow ext.queryStart ext.rowsI ext.keyStart) : Except Fault Unit)
  let (scratch, mask) ← opening .scoreRecompute <|
    scratch.recomputeScores ext headDim kernel.scale biases mask
  let scratch ← opening .valueGrad <| scratch.stageValues masked
  let tileV : ChunkedTile :=
    ⟨kernel.plan.gradV, kernel.plan.keyChunk, keyStart, ext.rowsJ, headDimValue, keyVisit⟩
  let (accV, ⟨gradV, workspace⟩) ← addKeySide resident tileV view.grads.gradV
    kernel.workspace.gradVSlot
    (fun acc offset => acc.mulAdd scratch.staging scratch.gradOutRows ext.rowsI offset)
    accV gradV workspace
  let (ds, scratch) ← opening .scoreGrad <| scratch.computeScoreGrad headDimValue kernel.scale masked
  let biasGrads ← kernel.addBiasGrads view.coord ext ds biasGrads
  let scratch ← opening .queryGrad <| scratch.enter .queryGrad
  let tileQ : ChunkedTile :=
    ⟨kernel.plan.gradQ, kernel.plan.queryChunk, queryStart, ext.rowsI, headDim, queryVisit⟩
  let chunks := chunksOf headDim kernel.plan.queryChunk
  let ⟨gradQ, workspace⟩ ← addQuerySide (0 < kernel.workspace.gradQ) tileQ view.grads.gradQ
    (kernel.workspace.gradQSlot queryStart chunks)
    (fun acc offset => acc.mulAdd scratch.gradScores scratch.keyRows ext.rowsJ offset)
    gradQ workspace
  let scratch ← opening .keyGrad <| scratch.enter .keyGrad
  let tileK : ChunkedTile :=
    ⟨kernel.plan.gradK, kernel.plan.keyChunk, keyStart, ext.rowsJ, headDim, keyVisit⟩
  let (accK, ⟨gradK, workspace⟩) ← addKeySide resident tileK view.grads.gradK
    kernel.workspace.gradKSlot
    (fun acc offset => acc.transposeMulAdd scratch.gradScores scratch.queryRows ext.rowsI offset)
    accK gradK workspace
  return ⟨⟨⟨gradQ, gradK, gradV⟩, biasGrads, workspace⟩, mask, scratch, accK, accV⟩

/-- `loadKeys` with a record of the phases. -/
def traceKeys (kernel : Kernel α ε) (view : UnitView α) (keyStart : Nat)
    (state : UnitState α ε kernel.tiles) : Traced (UnitState α ε kernel.tiles) :=
  if kernel.firstQuery keyStart < kernel.shape.numQueries then do
    let ⟨memory, mask, scratch, accK, accV⟩ := state
    let scratch ← opening .loadKeys <| scratch.loadKeyTile kernel.request.inputs.k
      kernel.request.inputs.v view.inputs.k view.inputs.v
      (kernel.extent (kernel.firstQuery keyStart) keyStart) kernel.shape.headDim
      kernel.shape.headDimValue
    return ⟨memory, mask, scratch, accK, accV⟩
  else pure state

/-- `runQueries` with a record of the phases. -/
def traceQueries (kernel : Kernel α ε) (view : UnitView α) (keyStart : Nat)
    (state : UnitState α ε kernel.tiles) : Traced (UnitState α ε kernel.tiles) := do
  let state ← kernel.traceKeys view keyStart state
  (tileStarts (kernel.firstQuery keyStart) kernel.shape.numQueries kernel.tiles.blockI).foldlM
    (kernel.tracePair view keyStart) state

/-- `runKeyTile` with a record of the phases. -/
def traceKeyTile (kernel : Kernel α ε) (view : UnitView α) (state : UnitState α ε kernel.tiles)
    (keyStart : Nat) : Traced (UnitState α ε kernel.tiles) :=
  if kernel.plan.outputInRegisters then do
    let ⟨memory, mask, scratch, _, _⟩ := state
    let state ← kernel.traceQueries view keyStart ⟨memory, mask, scratch, .fill 0, .fill 0⟩
    kernel.storeResident view keyStart state
  else if kernel.shape.numQueries ≤ kernel.firstQuery keyStart then
    liftM (kernel.clearKeyTile view keyStart state)
  else kernel.traceQueries view keyStart state

/-- `runUnit` with a record of the phases. Keeps all of the state at the end. -/
def traceUnit (kernel : Kernel α ε) (coord : UnitCoord) (delta : Array α) (memory : UnitMemory α ε) :
    Traced (Array α × UnitState α ε kernel.tiles) := do
  let s := kernel.shape
  let request := kernel.request
  kernel.overflow.check (kernel.dropout.unitPlace s coord)
  let inputs := request.inputLayouts.map (·.unitWindow coord)
  let lse ← sliceOf request.lse (request.lseLayout.unitOffset coord) s.numQueries
  let delta ← computeDelta request.inputs.o request.inputs.dO inputs.o inputs.dO s.numQueries
    s.headDimValue kernel.tiles.blockI delta
  let view : UnitView α :=
    { coord, inputs, grads := request.gradLayouts.map (·.unitWindow coord), lse, delta }
  let state : UnitState α ε kernel.tiles :=
    { memory
      mask := MaskSource.forUnit kernel.dropout s coord
      scratch := .fresh kernel.tiles
      gradK := .fill 0
      gradV := .fill 0 }
  let state ← (tileStarts 0 s.numKeys kernel.tiles.blockJ).foldlM (kernel.traceKeyTile view) state
  return (delta, state)

variable (kernel : Kernel α ε) (view : UnitView α) (keyStart : Nat)

/-! Without the record these are the loops that run. -/

theorem outcome_tracePair (state : UnitState α ε kernel.tiles) (queryStart : Nat) :
    (kernel.tracePair view keyStart state queryStart).outcome =
      kernel.runPair view keyStart state queryStart := by
  obtain ⟨⟨⟨gradQ, gradK, gradV⟩, biasGrads, workspace⟩, mask, scratch, accK, accV⟩ := state
  refine outcome_bind rfl fun scratch => ?_
  refine outcome_bind rfl fun biases => ?_
  refine outcome_bind rfl fun _ => ?_
  refine outcome_bind rfl fun ⟨scratch, mask⟩ => ?_
  refine outcome_bind rfl fun scratch => ?_
  refine outcome_bind rfl fun ⟨accV, gradV, workspace⟩ => ?_
  refine outcome_bind rfl fun ⟨ds, scratch⟩ => ?_
  refine outcome_bind rfl fun biasGrads => ?_
  refine outcome_bind rfl fun scratch => ?_
  refine outcome_bind rfl fun ⟨gradQ, workspace⟩ => ?_
  refine outcome_bind rfl fun scratch => ?_
  exact outcome_bind rfl fun ⟨accK, gradK, workspace⟩ => rfl

theorem outcome_traceKeys (state : UnitState α ε kernel.tiles) :
    (kernel.traceKeys view keyStart state).outcome = kernel.loadKeys view keyStart state := by
  unfold traceKeys loadKeys
  split
  · exact outcome_bind rfl fun scratch => rfl
  · rfl

theorem outcome_traceQueries (state : UnitState α ε kernel.tiles) :
    (kernel.traceQueries view keyStart state).outcome = kernel.runQueries view keyStart state :=
  outcome_bind (kernel.outcome_traceKeys view keyStart state)
    (outcome_foldlM (kernel.outcome_tracePair view keyStart))

theorem outcome_traceKeyTile (state : UnitState α ε kernel.tiles) :
    (kernel.traceKeyTile view state keyStart).outcome = kernel.runKeyTile view state keyStart := by
  unfold traceKeyTile runKeyTile
  split
  · exact outcome_bind (kernel.outcome_traceQueries view keyStart _) fun state => rfl
  · split
    · rfl
    · exact kernel.outcome_traceQueries view keyStart state

theorem runUnit_eq_traceUnit (coord : UnitCoord) (delta : Array α) (memory : UnitMemory α ε) :
    kernel.runUnit coord delta memory = (fun out => (out.1, out.2.memory)) <$>
      (kernel.traceUnit coord delta memory).outcome := by
  have hOutcome : (kernel.traceUnit coord delta memory).outcome = _ :=
    outcome_bind rfl fun _ => outcome_bind rfl fun lse => outcome_bind rfl fun delta =>
      outcome_bind (outcome_foldlM (fun state keyStart => kernel.outcome_traceKeyTile _ keyStart state) _)
        fun state => rfl
  rw [hOutcome, map_bind]
  refine bind_congr fun _ => ?_
  rw [map_bind]
  refine bind_congr fun lse => ?_
  rw [map_bind]
  refine bind_congr fun delta => ?_
  rw [map_bind]
  rfl

/-! What the record begins with. -/

/-- The phases of one key tile: none if no query attends to it. -/
def keyTilePhases (kernel : Kernel α ε) (keyStart : Nat) : List Phase :=
  if kernel.firstQuery keyStart < kernel.shape.numQueries then
    .loadKeys :: (tileStarts (kernel.firstQuery keyStart) kernel.shape.numQueries
      kernel.tiles.blockI).flatMap fun _ => Phase.pass
  else []

/-- The phases of one unit. -/
def phases (kernel : Kernel α ε) : List Phase :=
  (tileStarts 0 kernel.shape.numKeys kernel.tiles.blockJ).flatMap kernel.keyTilePhases

theorem tracePair_follows (state : UnitState α ε kernel.tiles) (queryStart : Nat) :
    Follows state.scratch Phase.pass (·.scratch)
      (kernel.tracePair view keyStart state queryStart) := by
  obtain ⟨⟨⟨gradQ, gradK, gradV⟩, biasGrads, workspace⟩, mask, scratch, accK, accV⟩ := state
  refine .open_bind (scratch.loadQueryTile_follows _ _ _ _ _ _ _ _ _) fun scratch => ?_
  refine .lift_bind (kernel.biasTiles_notRefused _ _) fun biases => ?_
  refine .lift_bind (checkRows_notRefused _ _ _ _ _) fun _ => ?_
  refine .open_bind (scratch.recomputeScores_follows _ _ _ _ _) fun ⟨scratch, mask⟩ => ?_
  refine .open_bind (scratch.stageValues_follows _) fun scratch => ?_
  refine .lift_bind (addKeySide_notRefused _ _ _ _ _ _ _ _) fun ⟨accV, gradV, workspace⟩ => ?_
  refine .open_bind (scratch.computeScoreGrad_follows _ _ _) fun ⟨ds, scratch⟩ => ?_
  refine .lift_bind (kernel.addBiasGrads_notRefused _ _ _ _) fun biasGrads => ?_
  refine .open_bind (scratch.enter_follows _) fun scratch => ?_
  refine .lift_bind (addQuerySide_notRefused _ _ _ _ _ _ _) fun ⟨gradQ, workspace⟩ => ?_
  refine .open_bind (scratch.enter_follows _) fun scratch => ?_
  refine .lift_bind (addKeySide_notRefused _ _ _ _ _ _ _ _) fun ⟨accK, gradK, workspace⟩ => ?_
  exact .pure rfl

theorem traceQueries_follows (state : UnitState α ε kernel.tiles) :
    Follows state.scratch (kernel.keyTilePhases keyStart) (·.scratch)
      (kernel.traceQueries view keyStart state) := by
  unfold traceQueries traceKeys keyTilePhases
  split
  · obtain ⟨memory, mask, scratch, accK, accV⟩ := state
    refine .open_bind (?_ : Follows scratch [.loadKeys] UnitState.scratch _) fun state =>
      .foldlM (fun _ => Phase.pass) (kernel.tracePair_follows view keyStart) rfl
    exact .open_bind (scratch.loadKeyTile_follows _ _ _ _ _ _ _) fun scratch => .pure rfl
  · rw [tileStarts_eq_nil (Nat.le_of_not_lt ‹_›)]
    exact (Follows.pure rfl).bind fun state => .pure rfl

theorem storeResident_scratch {state next : UnitState α ε kernel.tiles}
    (h : kernel.storeResident view keyStart state = .ok next) : next.scratch = state.scratch := by
  obtain ⟨gradK, -, h⟩ := exists_of_bind_eq_ok h
  obtain ⟨gradV, -, h⟩ := exists_of_bind_eq_ok h
  cases h
  rfl

omit [Scalar α] in
theorem clearKeyTile_scratch {state next : UnitState α ε kernel.tiles}
    (h : kernel.clearKeyTile view keyStart state = .ok next) : next.scratch = state.scratch := by
  obtain ⟨⟨gradK, gradV⟩, -, h⟩ := exists_of_bind_eq_ok h
  cases h
  rfl

theorem traceKeyTile_follows (state : UnitState α ε kernel.tiles) :
    Follows state.scratch (kernel.keyTilePhases keyStart) (·.scratch)
      (kernel.traceKeyTile view state keyStart) := by
  unfold traceKeyTile
  split
  · obtain ⟨memory, mask, scratch, accK, accV⟩ := state
    have hQueries := kernel.traceQueries_follows view keyStart
      ⟨memory, mask, scratch, .fill 0, .fill 0⟩
    refine hQueries.bind_nil fun state => ?_
    exact .lift (kernel.storeResident_notRefused _ _ _) fun _ =>
      kernel.storeResident_scratch view keyStart
  · split
    · rw [keyTilePhases, if_neg (Nat.not_lt_of_le ‹_›)]
      exact .lift (kernel.clearKeyTile_notRefused _ _ _) fun _ =>
        kernel.clearKeyTile_scratch view keyStart
    · exact kernel.traceQueries_follows view keyStart state

theorem traceUnit_follows (coord : UnitCoord) (delta : Array α) (memory : UnitMemory α ε) :
    Follows (.fresh kernel.tiles) kernel.phases (·.2.scratch)
      (kernel.traceUnit coord delta memory) := by
  refine .lift_bind (Overflow.check_notRefused _ _) fun _ => ?_
  refine .lift_bind (sliceOf_notRefused _ _ _) fun lse => ?_
  refine .lift_bind (computeDelta_notRefused _ _ _ _ _ _ _ _) fun delta => ?_
  refine .bind_nil (.foldlM kernel.keyTilePhases ?_ rfl) fun state => .pure rfl
  exact fun state keyStart => kernel.traceKeyTile_follows _ keyStart state

omit [Scalar α] [Element ε α] in
theorem phases_mem_pipeline : kernel.phases ∈ Phase.pipeline := by
  unfold phases
  induction tileStarts 0 kernel.shape.numKeys kernel.tiles.blockJ with
  | nil => exact Phase.nil_mem_pipeline
  | cons keyStart others ih =>
      rw [List.flatMap_cons, keyTilePhases]
      split
      · exact Phase.loadKeys_cons_mem_pipeline (Phase.passes_append_mem_pipeline _ ih)
      · exact ih

/-- No unit fails because of the order of its phases. -/
theorem runUnit_notRefused (coord : UnitCoord) (delta : Array α) (memory : UnitMemory α ε) :
    NotRefused (kernel.runUnit coord delta memory) := by
  intro current next hRun
  rw [runUnit_eq_traceUnit] at hRun
  have hFollows := kernel.traceUnit_follows coord delta memory
  cases hOutcome : (kernel.traceUnit coord delta memory).outcome with
  | ok out =>
      rw [hOutcome] at hRun
      cases hRun
  | error fault =>
      rw [hOutcome] at hRun
      cases hRun
      exact hFollows.refused current next hOutcome
        (Phase.loadKeys_accepts_iff.mpr ⟨_, kernel.phases_mem_pipeline, hFollows.begins⟩)

end Kernel

/-- The discipline of the phases. From fresh storage, uses are accepted just if their phases begin a word
of the pipeline. A run stops just at a use that is refused, and what it leaves is the storage as it was
before that use. Every region that a phase reads is up to date and stays as it is while the phase lasts,
and no key tile changes inside of a pass. The phases that a unit opens, whatever its shape, its policy and
its buffers, begin a word of the pipeline, so that none of them is refused; and if the unit comes to its
end, its storage is what uses of all phases of that word leave. -/
theorem Scratch.phases_in_order (α ε : Type) [Scalar α] [Element ε α] :
    (∀ (t : TileSize) (uses : List (Use α t)),
      (∃ last, (fresh t).useAll uses = .ok last) ↔
        ∃ word ∈ Phase.pipeline, uses.map (·.phase) <+: word) ∧
    (∀ (t : TileSize) (s last : Scratch α t) (uses : List (Use α t)) (fault : Fault),
      runUntil use s uses = (last, some fault) ↔ ∃ before u after, uses = before ++ u :: after ∧
        s.useAll before = .ok last ∧ last.phase.allows u.phase = false ∧
        fault = .phaseOrder last.phase u.phase) ∧
    (∀ (t : TileSize) (uses : List (Use α t)) (u : Use α t) (last next : Scratch α t),
      (fresh t).useAll uses = .ok last → last.use u = .ok next → ∀ r ∈ u.phase.reads,
        (fresh t).UpToDate uses last u.phase r ∧ next.region r = last.region r) ∧
    (∀ (t : TileSize) (uses : List (Use α t)) (start last : Scratch α t),
      start.useAll uses = .ok last → uses.map (·.phase) <+: Phase.pass →
        ∀ r : Region, r.producer = .loadKeys → last.region r = start.region r) ∧
    ∀ (kernel : Kernel α ε) (coord : UnitCoord) (delta : Array α) (memory : UnitMemory α ε),
      let run := kernel.traceUnit coord delta memory
      kernel.runUnit coord delta memory = (fun out => (out.1, out.2.memory)) <$> run.outcome ∧
      kernel.phases ∈ Phase.pipeline ∧ run.phases <+: kernel.phases ∧
      NotRefused (kernel.runUnit coord delta memory) ∧
      ∀ out, run.outcome = .ok out → run.phases = kernel.phases ∧
        ∃ uses, uses.map (·.phase) = kernel.phases ∧
          (fresh kernel.tiles).useAll uses = .ok out.2.scratch := by
  refine ⟨fun t uses => ?_, fun t s last uses fault => ?_, fun t uses u last next h hUse r hReads => ?_,
    fun t uses start last h hPass r hKeys => ?_, fun kernel coord delta memory => ?_⟩
  · exact useAll_eq_ok_iff.trans Phase.loadKeys_accepts_iff
  · exact runUntil_use_iff
  · exact upToDate_of_reads rfl h hUse hReads
  · exact region_of_pass h hPass hKeys
  · have hFollows := kernel.traceUnit_follows coord delta memory
    exact ⟨kernel.runUnit_eq_traceUnit coord delta memory, kernel.phases_mem_pipeline, hFollows.begins,
      kernel.runUnit_notRefused coord delta memory, hFollows.ends⟩

/-- Storage that the holders of the views fill with ones: after both loads the rows of the query tile are up
to date as probabilities are computed, and before the loads that is refused. A unit whose second key tile
attends to no query comes to its end after two passes. -/
theorem Scratch.phases_in_order_ones :
    let t : TileSize := ⟨2, 2, 1⟩
    let ones : Scratch Int t :=
      ⟨.loadKeys, .fill 1, .fill 1, .fill 1, .fill 1, .replicate 2 1, .replicate 2 1, .fill 1, .fill 1,
        .fill 1, .fill 1⟩
    let u : Phase → Use Int t := fun phase => ⟨phase, fun _ => ones.region⟩
    let kernel := (Request.ones .twoTiles).kernel .smallTiles (.ofList 8 [0] 9)
    let memory := Memory.filled .twoTiles 5
    (∃ last next, (fresh t).useAll [u .loadKeys, u .loadQueries] = .ok last ∧
      last.use (u .scoreRecompute) = .ok next ∧
      (fresh t).UpToDate [u .loadKeys, u .loadQueries] last .scoreRecompute .queryRows ∧
      next.queryRows = .fill 1) ∧
    runUntil use (fresh t) [u .scoreRecompute, u .loadQueries] =
      (fresh t, some (.phaseOrder .loadKeys .scoreRecompute)) ∧
    ∃ out uses, (kernel.traceUnit ⟨0, 0⟩ memory.delta ⟨memory.grads, ⟨none, none⟩, none⟩).outcome =
        .ok out ∧ uses.map (·.phase) = .loadKeys :: (Phase.pass ++ Phase.pass) ∧
      (fresh kernel.tiles).useAll uses = .ok out.2.scratch := by
  intro t ones u kernel memory
  obtain ⟨-, hStops, hReads, -, hUnit⟩ := Scratch.phases_in_order Int Int
  have hFresh := hReads t [u .loadKeys, u .loadQueries] (u .scoreRecompute) _ _ rfl rfl .queryRows
    (by decide)
  refine ⟨⟨_, _, rfl, rfl, hFresh.1, rfl⟩, ?_, ?_⟩
  · exact (hStops t _ _ _ _).mpr ⟨[], u .scoreRecompute, [u .loadQueries], rfl, rfl, rfl, rfl⟩
  · obtain ⟨-, -, -, -, hEnds⟩ := hUnit kernel ⟨0, 0⟩ memory.delta ⟨memory.grads, ⟨none, none⟩, none⟩
    have hOk : (kernel.traceUnit ⟨0, 0⟩ memory.delta
      ⟨memory.grads, ⟨none, none⟩, none⟩).outcome.isOk = true := by decide +kernel
    cases hRun : (kernel.traceUnit ⟨0, 0⟩ memory.delta ⟨memory.grads, ⟨none, none⟩, none⟩).outcome with
    | error fault =>
        rw [hRun] at hOk
        cases hOk
    | ok out =>
        obtain ⟨-, uses, hPhases, hLast⟩ := hEnds out hRun
        exact ⟨out, uses, rfl, hPhases.trans (by decide +kernel), hLast⟩

end FusedAttention
