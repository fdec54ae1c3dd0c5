import Mathlib
import FusedAttention.Proofs.BiasSums
import FusedAttention.Proofs.QueryVisits

/-! What a launch leaves in gradQ, in exact arithmetic. Under an arbitrary policy an entry can keep a
part of what its buffer or its slot held before, and can miss the shares of some key tiles; if the
key tiles attend to fewer and fewer queries, neither happens. -/
namespace FusedAttention

open Finset

variable {α ε : Type} [ExactScalar α] [Element ε α]

namespace Kernel

/-- What an entry of gradQ holds beside its sum: what it brings in from before the launch, without
the shares of the visits that are lost. -/
def residue (kernel : Kernel α ε) (memory : Memory α ε) (u : UnitCoord) (i c : Nat) : α :=
  let queryStart := tileOf kernel.tiles.blockI i
  kernel.carried queryStart (kernel.gradQEntry memory u i c) -
    ((kernel.lostTiles queryStart).map (kernel.querySum (kernel.unitValues u) i c)).sum

variable {kernel : Kernel α ε} {memory : Memory α ε} {u : UnitCoord} {i : Nat}

/-- Nothing is left over if the first key tile visits and no visit is lost. -/
theorem residue_eq_zero (hStart : 0 ∈ kernel.queryTiles (tileOf kernel.tiles.blockI i))
    (hLost : kernel.lostTiles (tileOf kernel.tiles.blockI i) = []) (c : Nat) :
    kernel.residue memory u i c = 0 := by
  have hCarried : ∀ e, kernel.carried (tileOf kernel.tiles.blockI i) e = 0 := by
    intro e
    rw [carried, hLost]
    exact if_pos ⟨hStart, List.not_mem_nil⟩
  dsimp only [residue]
  rw [hCarried, hLost, List.map_nil, List.sum_nil, sub_zero]

omit [ExactScalar α] in
/-- Elements of the wide type hold their own sums. -/
theorem parksQueries_of_wide (hValid : kernel.Valid) (hWide : Element.dtype ε = .f32) :
    kernel.parksQueries = false := by
  have hPlan : kernel.plan.gradQ.usesWorkspace = false := by
    rw [hValid.plan, hWide]
    rfl
  rw [parksQueries, hPlan, Bool.false_and]

/-- In the wide type nothing is lost, and an entry that the first key tile does not start keeps
what it held. -/
theorem residue_of_wide (hValid : kernel.Valid) (hWide : Element.dtype ε = .f32)
    (memory : Memory α ε) (u : UnitCoord) (i c : Nat) :
    kernel.residue memory u i c =
      if 0 ∈ kernel.queryTiles (tileOf kernel.tiles.blockI i) then 0
      else Element.widen (kernel.gradQEntry memory u i c).target := by
  have hParks := parksQueries_of_wide hValid hWide
  have hLost : kernel.lostTiles (tileOf kernel.tiles.blockI i) = [] :=
    if_neg (Bool.eq_false_iff.mp hParks)
  dsimp only [residue]
  rw [hLost, List.map_nil, List.sum_nil, sub_zero, carried, hLost, hParks]
  simp

end Kernel

namespace Request.Accepted

variable {request : Request α ε} {settings : Settings} {memory : Memory α ε} {u : UnitCoord}

omit [ExactScalar α] in
theorem gradQ_within (h : request.Accepted settings memory) (hu : request.shape.HasUnit u) {i c : Nat}
    (hi : i < request.shape.numQueries) (hc : c < request.shape.headDim) :
    request.gradLayouts.gradQ.address u i c < memory.grads.gradQ.size := by
  have hRow : (request.gradLayouts.gradQ.unitWindow u).rowStart i + request.shape.headDim ≤
      request.gradLayouts.gradQ.requiredLen request.shape.batch request.shape.numQueries
        request.shape.heads request.shape.headDim := Layout.row_le_requiredLen hu.1 hu.2 hi
  have hHolds := h.gradQ.1
  rw [← Layout.rowStart_unitWindow]
  omega

end Request.Accepted

namespace Kernel.LaunchEffect

variable [ExactElement ε] {request : Request α ε} {settings : Settings} {policy : QueryStart}
  {memory after : Memory α ε} {u : UnitCoord}

/-- An entry of gradQ after a launch: as it was if no key tile attends to its query, and otherwise
rounded from its sum and what is left over. -/
theorem gradQ_entry (hEffect : (request.kernel settings policy).LaunchEffect memory after)
    (hAccepted : request.Accepted settings memory) (hSums : settings.SumsPass request.shape)
    (hu : request.shape.HasUnit u) {i : Nat}
    (hi : i < request.shape.numQueries) {c : Nat} (hc : c < request.shape.headDim) :
    after.grads.gradQ[request.gradLayouts.gradQ.address u i c]? = some
      (if (request.kernel settings policy).queryTiles (tileOf settings.blockI i) = [] then
        ((request.kernel settings policy).gradQEntry memory u i c).target
      else Element.round (Formula.gradQ request settings (request.kernel settings policy).attends u i c +
        (request.kernel settings policy).residue memory u i c)) := by
  have hValid := hAccepted.valid policy
  have hEntry := hEffect.gradQ_target (hAccepted.holds policy) hu hi hc
  rw [Kernel.queryVisits_eq hValid] at hEntry
  refine hEntry.trans (congrArg some ?_)
  refine if_congr Iff.rfl rfl (congrArg Element.round ?_)
  dsimp only [Kernel.residue]
  rw [← Formula.sum_querySum hValid (hAccepted.reads hSums policy hu) hi c]
  exact add_sub_left_comm _ _ _

end Kernel.LaunchEffect

/-- In the wide type an entry ends as its sum just if the first key tile starts it or it held zero
before. -/
theorem Request.Accepted.wide_entry_iff [ExactElement ε] {request : Request α ε} {settings : Settings}
    {memory : Memory α ε} {u : UnitCoord} (hAccepted : request.Accepted settings memory)
    (hSums : settings.SumsPass request.shape) (policy : QueryStart) (hu : request.shape.HasUnit u)
    {i : Nat} (hi : i < request.shape.numQueries) (c : Nat) (hWide : Element.dtype ε = .f32) :
    (if (request.kernel settings policy).queryTiles (tileOf settings.blockI i) = [] then
        ((request.kernel settings policy).gradQEntry memory u i c).target
      else Element.round (Formula.gradQ request settings (request.kernel settings policy).attends u i c +
        (request.kernel settings policy).residue memory u i c)) =
      Element.round (Formula.gradQ request settings (request.kernel settings policy).attends u i c) ↔
    0 ∈ (request.kernel settings policy).queryTiles (tileOf settings.blockI i) ∨
      Element.widen ((request.kernel settings policy).gradQEntry memory u i c).target = 0 := by
  have hValid := hAccepted.valid policy
  have hExact := ExactElement.widen_round (ε := ε) hWide
  have hResidue := Kernel.residue_of_wide hValid hWide memory u i c
  by_cases hNone : (request.kernel settings policy).queryTiles (tileOf settings.blockI i) = []
  · have hSum := Formula.sum_querySum hValid (hAccepted.reads hSums policy hu) hi c
    rw [hNone, List.map_nil, List.sum_nil] at hSum
    rw [if_pos hNone, ← hSum, hNone]
    constructor
    · intro hEntry
      exact .inr ((congrArg Element.widen hEntry).trans (hExact 0))
    · rintro (hStart | hOld)
      · cases hStart
      · exact (ExactElement.round_widen hWide _).symm.trans (congrArg Element.round hOld)
  · rw [if_neg hNone, hResidue]
    by_cases hStart : 0 ∈ (request.kernel settings policy).queryTiles
        (tileOf (request.kernel settings policy).tiles.blockI i)
    · rw [if_pos hStart, add_zero]
      exact iff_of_true rfl (.inl hStart)
    · rw [if_neg hStart]
      constructor
      · intro hEntry
        have hWiden := congrArg Element.widen hEntry
        rw [hExact, hExact, add_eq_left] at hWiden
        exact .inr hWiden
      · rintro (hVisits | hOld)
        · exact absurd hVisits hStart
        · exact congrArg Element.round (add_eq_left.mpr hOld)

/-- After an accepted launch under any policy that no sum of stream positions stops, an entry of gradQ
that no key tile attends to is as it was before, and any other is rounded from its sum and what is left
over. It is right if the first key tile attends to it and no visit is lost. In the wide type it is right
just if the first key tile attends to it or it held zero before. -/
theorem Request.gradQ_any_policy [ExactElement ε] {request : Request α ε} {settings : Settings}
    {memory : Memory α ε} (hCheck : request.check settings memory = .ok ())
    (hSums : settings.SumsPass request.shape) (policy : QueryStart) :
    ∃ after, request.launch settings policy memory = (.ok (request.report settings memory), after) ∧
      ∀ u, request.shape.HasUnit u → ∀ i < request.shape.numQueries, ∀ c < request.shape.headDim,
        let kernel := request.kernel settings policy
        let queryStart := tileOf settings.blockI i
        let right := Element.round (Formula.gradQ request settings kernel.attends u i c)
        ∃ old entry, memory.grads.gradQ[request.gradLayouts.gradQ.address u i c]? = some old ∧
          after.grads.gradQ[request.gradLayouts.gradQ.address u i c]? = some entry ∧
          entry = (if kernel.queryTiles queryStart = [] then old
            else Element.round (Formula.gradQ request settings kernel.attends u i c +
              kernel.residue memory u i c)) ∧
          (0 ∈ kernel.queryTiles queryStart → kernel.lostTiles queryStart = [] → entry = right) ∧
          (Element.dtype ε = .f32 →
            (entry = right ↔ 0 ∈ kernel.queryTiles queryStart ∨ Element.widen old = 0)) := by
  have hAccepted := accepted_of_check hCheck
  obtain ⟨after, -, hLaunch, hEffect⟩ := launch_spec hCheck hSums policy
  refine ⟨after, hLaunch, fun u hu i hi c hc => ?_⟩
  dsimp only
  refine ⟨_, _, getElem?_eq_some_getD (hAccepted.gradQ_within hu hi hc),
    hEffect.gradQ_entry hAccepted hSums hu hi hc, rfl, ?_,
    hAccepted.wide_entry_iff hSums policy hu hi c⟩
  intro hStart hLost
  rw [if_neg (List.ne_nil_of_mem hStart), Kernel.residue_eq_zero hStart hLost, add_zero]

/-- If the first key tile does not attend to the first query, the entry of that query is its sum and
what the buffer held before. -/
theorem Request.gradQ_ones :
    (Request.ones .twoTiles).check .smallTiles (.filled .twoTiles 5) = .ok () ∧
      Settings.smallTiles.SumsPass .twoTiles ∧
      ∃ report after, (Request.ones .twoTiles).launch .smallTiles (.ofList 8 [8, 0] 0)
          (.filled .twoTiles 5) = (.ok report, after) ∧
        Formula.gradQ (.ones .twoTiles) .smallTiles ((Request.ones .twoTiles).kernel .smallTiles
          (.ofList 8 [8, 0] 0)).attends ⟨0, 0⟩ 0 0 = 2 ∧
        after.grads.gradQ[0]? = some 7 := by
  refine ⟨check_ones, Settings.sumsPass_smallTiles, ?_⟩
  obtain ⟨after, hLaunch, hEntries⟩ :=
    Request.gradQ_any_policy check_ones Settings.sumsPass_smallTiles (.ofList 8 [8, 0] 0)
  refine ⟨_, after, hLaunch, by decide +kernel, ?_⟩
  obtain ⟨old, entry, hOld, hNew, hEntry, -⟩ :=
    hEntries ⟨0, 0⟩ ⟨by decide, by decide⟩ 0 (by decide) 0 (by decide)
  obtain rfl : 5 = old := Option.some.inj hOld
  rw [hEntry] at hNew
  exact hNew.trans (by decide +kernel)

end FusedAttention
