import Mathlib
import FusedAttention.Proofs.Footprints
import FusedAttention.Proofs.Formulas

/-! The order of the units does not matter. Units that have cells in common are in one group, which
is run in order, so the groups may be interleaved in any way. -/
namespace FusedAttention

variable {α ε : Type} [Scalar α] [Element ε α] {request : Request α ε} {settings : Settings}
  {memory : Memory α ε}

namespace Request

/-- The bias gradients that a launch is given memory for. -/
def wanted (memory : Memory α ε) : Biases Bool :=
  memory.biasGrads.map (·.isSome)

omit [Scalar α] [Element ε α] in
@[simp] theorem wanted_get (memory : Memory α ε) (kind : BiasKind) :
    (wanted memory).get kind = (memory.biasGrads.get kind).isSome := by
  cases kind <;> rfl

namespace Accepted

theorem prepared (h : request.Accepted settings memory) (policy : QueryStart) :
    (request.kernel settings policy).Prepared (wanted memory) memory where
  holds := h.holds policy
  wanted := wanted_get memory

/-- Units of different groups commute from every memory that a launch with the same bias gradients
can reach. -/
theorem commutes (h : request.Accepted settings memory) (hSums : settings.SumsPass request.shape)
    (policy : QueryStart) :
    (request.groups memory).Pairwise fun group group' => ∀ u ∈ group, ∀ u' ∈ group',
      Commutes ((request.kernel settings policy).Prepared (wanted memory))
        (request.kernel settings policy).runOn u u' := by
  refine (request.shape.pairwise_unitGroups (wanted memory)).imp_of_mem ?_
  intro group group' hGroup hGroup' hOther u hu u' hu'
  have hUnit := Shape.hasUnit_of_mem_order (List.mem_flatten_of_mem hGroup hu)
  have hUnit' := Shape.hasUnit_of_mem_order (List.mem_flatten_of_mem hGroup' hu')
  exact Kernel.commutes_runOn (h.valid policy) (h.reads hSums policy hUnit)
    (h.reads hSums policy hUnit') (hOther u hu u' hu')

/-- Every unit takes a step from every memory that a launch can reach. -/
theorem steps (h : request.Accepted settings memory) (hSums : settings.SumsPass request.shape)
    (policy : QueryStart) {u : UnitCoord} (hu : request.shape.HasUnit u) {reached : Memory α ε}
    (hReached : (request.kernel settings policy).Prepared (wanted memory) reached) :
    ∃ next, (request.kernel settings policy).runOn reached u = .ok next ∧
      (request.kernel settings policy).Prepared (wanted memory) next := by
  obtain ⟨next, hRun, -, hStep⟩ :=
    Kernel.runOn_spec (h.valid policy) (h.reads hSums policy hu) hReached.holds
  exact ⟨next, hRun, hReached.of_keeps hStep.keeps⟩

end Accepted

/-- In an accepted launch that no sum of stream positions stops, every unit is in one group, once. It
runs on the row of Delta and the slice of the workspace of its number, and changes its own cells alone.
Units of different groups commute, and every order of all units that keeps the order of each group
leaves the memory that the launch leaves. -/
theorem schedule_irrelevant (hCheck : request.check settings memory = .ok ())
    (hSums : settings.SumsPass request.shape) (policy : QueryStart) :
    let kernel := request.kernel settings policy
    let groups := request.groups memory
    (groups.flatten.Nodup ∧ ∀ u, u ∈ groups.flatten ↔ request.shape.HasUnit u) ∧
    (∀ u, request.shape.HasUnit u →
      let number := u.batchId * request.shape.heads + u.head
      let rowStart := number * request.shape.numQueries
      let row := memory.delta.extract rowStart (rowStart + request.shape.numQueries)
      ∃ row' after, kernel.runUnit u row ⟨memory.grads, memory.biasGrads,
          kernel.slice u memory.workspace⟩ = .ok (row', after) ∧
        row'.size = request.shape.numQueries ∧
        let next : Memory α ε := ⟨after.grads, writeRun memory.delta rowStart row',
          after.biasGrads, kernel.putSlice u memory.workspace after.workspace⟩
        kernel.runOn memory u = .ok next ∧
        next.AgreeOn (fun cell => ¬ kernel.Owned (wanted memory) u cell) memory) ∧
    (groups.Pairwise fun group group' => ∀ u ∈ group, ∀ u' ∈ group', ∃ last,
      (kernel.runOn memory u >>= fun next => kernel.runOn next u') = .ok last ∧
      (kernel.runOn memory u' >>= fun next => kernel.runOn next u) = .ok last) ∧
    ∃ after, request.launch settings policy memory = (.ok (request.report settings memory), after) ∧
      ∀ order, Interleaves groups order → order.foldlM kernel.runOn memory = .ok after := by
  intro kernel groups
  have hAccepted := accepted_of_check hCheck
  have hPrepared := hAccepted.prepared policy
  have hNodup : groups.flatten.Nodup := Shape.nodup_order hAccepted.groupSize_pos _
  have hUnits : ∀ u, u ∈ groups.flatten ↔ request.shape.HasUnit u :=
    fun u => Shape.mem_order hAccepted.groupSize_pos
  refine ⟨⟨hNodup, hUnits⟩, fun u hu => ?_, ?_, ?_⟩
  · obtain ⟨row, after, hRun, hUnit⟩ := Kernel.runOn_eq (hAccepted.valid policy)
      (hAccepted.reads hSums policy hu) hPrepared.holds
    refine ⟨row, after, hUnit.returns, hUnit.rowSize, hRun, ?_⟩
    exact Kernel.runOn_frame (hAccepted.valid policy) (hAccepted.reads hSums policy hu) hPrepared hRun
  · refine (hAccepted.commutes hSums policy).imp ?_
    intro group group' hCommutes u hu u' hu'
    exact hCommutes u hu u' hu' memory hPrepared
  · obtain ⟨after, hRun, hReport, -⟩ := launch_spec hCheck hSums policy
    refine ⟨after, hReport, fun order hOrder => ?_⟩
    rw [hOrder.foldlM_eq hNodup (fun reached u hu hReached =>
      hAccepted.steps hSums policy ((hUnits u).mp hu) hReached) (hAccepted.commutes hSums policy) hPrepared]
    exact hRun

end Request

/-- Four batches with one head, one query and one key, of which two share a pair bias. If its gradient
is wanted they are two groups. -/
def Shape.fourBatches : Shape :=
  ⟨4, 1, 1, 1, 1, 1, 2⟩

/-- The second group may go first, and the groups take turns. -/
theorem Request.schedule_ones :
    (Request.ones .fourBatches).check .smallTiles (.filled .fourBatches 5) = .ok () ∧
      Settings.smallTiles.SumsPass .fourBatches ∧
      (Request.ones .fourBatches).groups (.filled .fourBatches 5) =
        [[⟨0, 0⟩, ⟨1, 0⟩], [⟨2, 0⟩, ⟨3, 0⟩]] ∧
      ∃ report after, (Request.ones .fourBatches).launch .smallTiles fullAttention
          (.filled .fourBatches 5) = (.ok report, after) ∧
        [⟨2, 0⟩, ⟨0, 0⟩, ⟨3, 0⟩, ⟨1, 0⟩].foldlM
          ((Request.ones .fourBatches).kernel .smallTiles fullAttention).runOn
            (.filled .fourBatches 5) = .ok after := by
  have hCheck : (Request.ones .fourBatches).check .smallTiles (.filled .fourBatches 5) = .ok () :=
    (Check.eq_ok_iff_isOk _).mpr (by decide +kernel)
  have hSums : Settings.smallTiles.SumsPass .fourBatches := by decide
  refine ⟨hCheck, hSums, by decide, ?_⟩
  obtain ⟨-, -, -, after, hLaunch, hOrders⟩ :=
    Request.schedule_irrelevant hCheck hSums fullAttention
  exact ⟨_, after, hLaunch, hOrders _ ⟨List.isPerm_iff.mp (by decide), by decide⟩⟩

end FusedAttention
