import Mathlib
import FusedAttention.Proofs.Schedules

/-! What a launch writes: the elements of its own rows of the gradients and of Delta, the entries of the
bias gradients that a visited pair of tiles covers, and the slots of each unit in its slice of the
workspace. All other elements of the memory are after the launch what they were before. -/
namespace FusedAttention

variable {α ε : Type} [Scalar α] [Element ε α]

namespace Kernel

/-- A pair of tiles that the walk visits covers a query and a key. -/
def Visits (kernel : Kernel α ε) (query key : Nat) : Prop :=
  ∃ keyStart ∈ kernel.keyStarts, ∃ queryStart ∈ kernel.queryStarts keyStart,
    (keyStart ≤ key ∧ key < keyStart + kernel.tiles.blockJ) ∧
      queryStart ≤ query ∧ query < queryStart + kernel.tiles.blockI

instance (kernel : Kernel α ε) (query key : Nat) : Decidable (kernel.Visits query key) :=
  inferInstanceAs (Decidable (∃ keyStart ∈ kernel.keyStarts, ∃ queryStart ∈ kernel.queryStarts keyStart,
    (keyStart ≤ key ∧ key < keyStart + kernel.tiles.blockJ) ∧
      queryStart ≤ query ∧ query < queryStart + kernel.tiles.blockI))

/-- The cells that a unit writes. -/
def Writes (kernel : Kernel α ε) (u : UnitCoord) : Cell → Prop
  | .gradQ p => ∃ query < kernel.shape.numQueries, ∃ col < kernel.shape.headDim,
      p = kernel.request.gradLayouts.gradQ.address u query col
  | .keyGrad side p => ∃ key < kernel.shape.numKeys, ∃ col < side.cols kernel.shape,
      p = (side.of kernel.request.gradLayouts).address u key col
  | .delta p => ∃ query < kernel.shape.numQueries,
      p = u.index kernel.shape.heads * kernel.shape.numQueries + query
  | .biasGrad kind p => ∃ query < kernel.shape.numQueries, ∃ key < kernel.shape.numKeys,
      kernel.Visits query key ∧ p = kind.address kernel.shape u query key
  | .workspace p => ∃ place, kernel.InSlot place ∧
      p = u.index kernel.shape.heads * kernel.workspace.unitStride + place

variable {kernel : Kernel α ε} {wanted : Biases Bool} {u : UnitCoord} {memory next : Memory α ε}

/-! ### Bias gradients -/

omit [Scalar α] in
/-- The query tiles in the loop of the tile of a key cover their queries and the key. -/
theorem visits_of_mem (hValid : kernel.Valid) {query key queryStart : Nat}
    (hKey : key < kernel.shape.numKeys)
    (hMem : queryStart ∈ kernel.queryStarts (tileOf kernel.tiles.blockJ key))
    (hLow : queryStart ≤ query) (hHigh : query < queryStart + kernel.tiles.blockI) :
    kernel.Visits query key :=
  ⟨_, tileOf_mem_tileStarts hValid.blockJ hKey, queryStart, hMem,
    ⟨tileOf_le _ key, lt_tileOf_add hValid.blockJ⟩, hLow, hHigh⟩

/-- An entry of a bias gradient receives nothing unless some visited pair of tiles covers it. -/
theorem biasShares_eq_nil (hValid : kernel.Valid) (x : UnitValues α) (kind : BiasKind)
    {query key : Nat} (hQuery : query < kernel.shape.numQueries) (hKey : key < kernel.shape.numKeys)
    (hOutside : ¬ kernel.Writes u (.biasGrad kind (kind.address kernel.shape u query key))) :
    kernel.biasShares x kind query key = [] := by
  rw [biasShares, List.map_eq_nil_iff, List.filter_eq_nil_iff]
  intro queryStart hMem hMeets
  obtain ⟨-, hStart, -⟩ := mem_queryStarts hValid hMem
  have hBlock := hValid.blockI
  apply hOutside
  cases kind with
  | keyMask =>
      -- All queries share the entry, so the first of the tile will do.
      have hVisits := visits_of_mem hValid hKey hMem (Nat.le_refl queryStart) (by omega)
      exact ⟨queryStart, hStart, key, hKey, hVisits, BiasKind.address_keyMask ..⟩
  | pairBias =>
      have hTile : tileOf kernel.tiles.blockI query = queryStart := by
        simpa [BiasKind.meets] using hMeets
      have hVisits := visits_of_mem hValid hKey hMem (hTile ▸ tileOf_le _ query)
        (hTile ▸ lt_tileOf_add hBlock)
      exact ⟨query, hQuery, key, hKey, hVisits, rfl⟩

/-! ### The workspace -/

/-- A unit leaves the places of its slice that none of its slots covers. -/
theorem UnitRun.slots_frame {row : Array α} {after : UnitMemory α ε}
    (hUnit : kernel.UnitRun memory u row after) {place : Nat} (hPlace : ¬ kernel.InSlot place) :
    (after.workspace.bind fun data => data[place]?) =
      (kernel.slice u memory.workspace).bind fun data => data[place]? := by
  have hGet : ∀ workspace : Option (Array α),
      (workspace.bind fun data => data[place]?) = (workspace.getD #[])[place]? := by
    intro workspace
    cases workspace with
    | none => exact (Array.getElem?_empty ..).symm
    | some data => rfl
  obtain ⟨view, -, -, hEffect⟩ := hUnit.effect
  rw [hGet, hGet]
  exact hEffect.frame.slots place hPlace

/-! ### Units -/

/-- A unit changes the cells that it writes alone. -/
theorem runOn_writes (hValid : kernel.Valid) (hReads : kernel.Reads u)
    (hPrepared : kernel.Prepared wanted memory) (hRun : kernel.runOn memory u = .ok next) :
    next.AgreeOn (fun cell => ¬ kernel.Writes u cell) memory := by
  have hHolds := hPrepared.holds
  have hu := hReads.hasUnit
  have hFrame := runOn_frame hValid hReads hPrepared hRun
  obtain ⟨row, after, hRun', hUnit⟩ := runOn_eq hValid hReads hHolds
  obtain rfl : kernel.putUnit u memory row after = next := Except.ok.inj (hRun'.symm.trans hRun)
  intro cell hOutside
  cases cell with
  | gradQ p => exact hFrame (.gradQ p) hOutside
  | keyGrad side p => exact hFrame (.keyGrad side p) hOutside
  | delta p => exact hFrame (.delta p) hOutside
  | biasGrad kind p =>
      by_cases hMeets : ∃ query < kernel.shape.numQueries, ∃ key < kernel.shape.numKeys,
          p = kind.address kernel.shape u query key
      · obtain ⟨query, hQuery, key, hKey, rfl⟩ := hMeets
        have hEntry := (hUnit.step hHolds hu).biasGrads kind u hu query hQuery key hKey
        rw [if_pos rfl, biasShares_eq_nil hValid _ kind hQuery hKey hOutside] at hEntry
        exact congrArg (Option.map Sum.inr) (hEntry.trans Option.map_id')
      · exact hFrame (.biasGrad kind p) fun hOwned => hMeets hOwned.2
  | workspace p =>
      by_cases hSlice : ∃ place < kernel.workspace.unitStride,
          p = u.index kernel.shape.heads * kernel.workspace.unitStride + place
      · obtain ⟨place, hPlace, rfl⟩ := hSlice
        have hSlots := hUnit.slots_frame fun hSlot => hOutside ⟨place, hSlot, rfl⟩
        have hPut := slice_putSlice hHolds.workspace hu (hUnit.slice hHolds hu)
        apply congrArg (Option.map Sum.inr)
        rw [← slice_place kernel u _ hPlace, ← slice_place kernel u _ hPlace, ← hSlots]
        exact congrArg (Option.bind · fun data => data[place]?) hPut
      · exact hFrame (.workspace p) hSlice

/-! ### Cells past the parts of all units -/

omit [Scalar α] [Element ε α] in
/-- Nothing is written past the rows of Delta. -/
theorem not_writes_delta (kernel : Kernel α ε) (hu : kernel.shape.HasUnit u) {p : Nat}
    (hp : kernel.shape.units * kernel.shape.numQueries ≤ p) : ¬ kernel.Writes u (.delta p) := by
  rintro ⟨query, hQuery, rfl⟩
  have hRow := mul_add_lt (Shape.index_lt hu) hQuery
  omega

omit [Scalar α] in
/-- Nothing is written past the entries of a bias gradient. -/
theorem Valid.not_writes_biasGrad (hValid : kernel.Valid) (hu : kernel.shape.HasUnit u) {kind : BiasKind}
    {p : Nat} (hp : kind.size kernel.shape ≤ p) : ¬ kernel.Writes u (.biasGrad kind p) := by
  rintro ⟨query, hQuery, key, hKey, -, rfl⟩
  have hEntry := kind.address_lt hu.1 hu.2 hValid.groups hQuery hKey
  omega

omit [Scalar α] in
/-- Nothing is written past the slices of the workspace. -/
theorem Valid.not_writes_workspace (hValid : kernel.Valid) (hu : kernel.shape.HasUnit u) {p : Nat}
    (hp : kernel.shape.units * kernel.workspace.unitStride ≤ p) :
    ¬ kernel.Writes u (.workspace p) := by
  rintro ⟨place, hSlot, rfl⟩
  have hPlace := mul_add_lt (Shape.index_lt hu) (hSlot.lt_unitStride hValid)
  omega

end Kernel

namespace Request

variable {request : Request α ε} {settings : Settings} {memory : Memory α ε}

/-- Units after each other change the cells that one of them writes alone. -/
theorem Accepted.foldlM_writes (h : request.Accepted settings memory)
    (hSums : settings.SumsPass request.shape) (policy : QueryStart)
    {units : List UnitCoord} (hUnits : ∀ u ∈ units, request.shape.HasUnit u) {reached : Memory α ε}
    (hReached : (request.kernel settings policy).Prepared (wanted memory) reached) :
    ∃ last, units.foldlM (request.kernel settings policy).runOn reached = .ok last ∧
      (request.kernel settings policy).Prepared (wanted memory) last ∧
      last.AgreeOn (fun cell => ∀ u ∈ units, ¬ (request.kernel settings policy).Writes u cell)
        reached := by
  obtain ⟨last, hRun, hLast, hSteps⟩ := foldlM_steps
    ((request.kernel settings policy).Prepared (wanted memory))
    (fun now u next => next.AgreeOn (fun cell => ¬ (request.kernel settings policy).Writes u cell) now)
    (fun now u hMem hNow => by
      obtain ⟨next, hRun, hNext⟩ := h.steps hSums policy (hUnits u hMem) hNow
      exact ⟨next, hRun, hNext, Kernel.runOn_writes (h.valid policy)
        (h.reads hSums policy (hUnits u hMem)) hNow hRun⟩) hReached
  refine ⟨last, hRun, hLast, fun cell hCell => ?_⟩
  exact hSteps.frame (fun now => now.at? cell) fun _ _ u hMem hStep => hStep cell (hCell u hMem)

/-- An accepted launch under any policy that no sum of stream positions stops writes what it owns alone.
An element that is no row of a unit under its layout, no entry of a bias gradient that a visited pair of
tiles covers and no slot of a unit is after the launch what it was before, so nothing changes past Delta,
past the bias gradients and past the workspace. Each unit, on the memory that it is given, changes its own
part alone. -/
theorem writes_owned (hCheck : request.check settings memory = .ok ())
    (hSums : settings.SumsPass request.shape) (policy : QueryStart) :
    let kernel := request.kernel settings policy
    ∃ after, request.launch settings policy memory = (.ok (request.report settings memory), after) ∧
      after.AgreeOn (fun cell => ∀ u, request.shape.HasUnit u → ¬ kernel.Writes u cell) memory ∧
      (∀ p, request.shape.units * request.shape.numQueries ≤ p →
        after.at? (.delta p) = memory.at? (.delta p)) ∧
      (∀ kind p, kind.size request.shape ≤ p →
        after.at? (.biasGrad kind p) = memory.at? (.biasGrad kind p)) ∧
      (∀ p, request.shape.units * kernel.workspace.unitStride ≤ p →
        after.at? (.workspace p) = memory.at? (.workspace p)) ∧
      ∀ done u rest, (request.groups memory).flatten = done ++ u :: rest →
        ∃ now next, done.foldlM kernel.runOn memory = .ok now ∧ kernel.runOn now u = .ok next ∧
          rest.foldlM kernel.runOn next = .ok after ∧
          next.AgreeOn (fun cell => ¬ kernel.Writes u cell) now := by
  intro kernel
  have hAccepted := accepted_of_check hCheck
  have hValid := hAccepted.valid policy
  have hPrepared := hAccepted.prepared policy
  have hUnits : ∀ u ∈ (request.groups memory).flatten, request.shape.HasUnit u :=
    fun u hMem => Shape.hasUnit_of_mem_order hMem
  obtain ⟨after, hRun, hReport, -⟩ := launch_spec hCheck hSums policy
  have hAgree : after.AgreeOn (fun cell => ∀ u, request.shape.HasUnit u → ¬ kernel.Writes u cell)
      memory := by
    obtain ⟨last, hLast, -, hSame⟩ := hAccepted.foldlM_writes hSums policy hUnits hPrepared
    obtain rfl : last = after := Except.ok.inj (hLast.symm.trans hRun)
    exact hSame.mono fun cell hCell u hMem => hCell u (hUnits u hMem)
  refine ⟨after, hReport, hAgree, fun p hp => ?_, fun kind p hp => ?_, fun p hp => ?_, ?_⟩
  · exact hAgree (.delta p) fun u hu => kernel.not_writes_delta hu hp
  · exact hAgree (.biasGrad kind p) fun u hu => hValid.not_writes_biasGrad hu hp
  · exact hAgree (.workspace p) fun u hu => hValid.not_writes_workspace hu hp
  · intro done u rest hOrder
    rw [hOrder] at hUnits
    have hu := hUnits u (by simp)
    obtain ⟨now, hNow, hReady, -⟩ := hAccepted.foldlM_writes hSums policy
      (fun u' hMem => hUnits u' (List.mem_append_left _ hMem)) hPrepared
    obtain ⟨next, hNext, hNextReady⟩ := hAccepted.steps hSums policy hu hReady
    refine ⟨now, next, hNow, hNext, ?_, Kernel.runOn_writes hValid
      (hAccepted.reads hSums policy hu) hReady hNext⟩
    rw [run, hOrder, List.foldlM_append, hNow, ok_bind, List.foldlM_cons, hNext, ok_bind] at hRun
    exact hRun

end Request

/-- With a policy by which the first key tile attends to the second query tile alone, the gradient of the
pair bias keeps what it held for the first query and key. So does the gap after the one column of the
first row of gradQ. -/
theorem Request.writes_ones :
    (Request.ones .twoTiles).check .smallTiles (.filled .twoTiles 5) = .ok () ∧
      Settings.smallTiles.SumsPass .twoTiles ∧
      ∃ report after, (Request.ones .twoTiles).launch .smallTiles (.ofList 8 [8] 9)
          (.filled .twoTiles 5) = (.ok report, after) ∧
        after.biasGrads.at? .pairBias 0 = some 5 ∧ after.grads.gradQ[1]? = some 5 := by
  refine ⟨check_ones, Settings.sumsPass_smallTiles, ?_⟩
  obtain ⟨after, hLaunch, hSame, -⟩ :=
    Request.writes_owned check_ones Settings.sumsPass_smallTiles (.ofList 8 [8] 9)
  have hOne : ∀ u, Shape.twoTiles.HasUnit u → u = ⟨0, 0⟩ := by
    rintro ⟨batchId, head⟩ ⟨hBatch, hHead⟩
    obtain rfl : batchId = 0 := Nat.lt_one_iff.mp hBatch
    obtain rfl : head = 0 := Nat.lt_one_iff.mp hHead
    rfl
  refine ⟨_, after, hLaunch, ?_, ?_⟩
  · have hUncovered : ¬ ((Request.ones .twoTiles).kernel .smallTiles (.ofList 8 [8] 9)).Writes ⟨0, 0⟩
        (.biasGrad .pairBias 0) := by
      rintro ⟨query, hQuery, key, hKey, hVisits, hPlace⟩
      revert hVisits hPlace
      revert query key
      decide +kernel
    exact Option.map_injective Sum.inr_injective
      (hSame (.biasGrad .pairBias 0) fun u hu => hOne u hu ▸ hUncovered)
  · have hGap : ¬ ((Request.ones .twoTiles).kernel .smallTiles (.ofList 8 [8] 9)).Writes ⟨0, 0⟩
        (.gradQ 1) := by
      rintro ⟨query, hQuery, col, hCol, hPlace⟩
      revert hPlace
      revert query col
      decide +kernel
    exact Option.map_injective Sum.inl_injective
      (hSame (.gradQ 1) fun u hu => hOne u hu ▸ hGap)

end FusedAttention
