import Mathlib
import FusedAttention.Proofs.ExactGradients
import FusedAttention.Proofs.References

/-! gradK and gradV in exact arithmetic, under any policy. A key tile starts its sums afresh at the
first query tile that it attends to, wherever the plan keeps them, so each entry is rounded from the
sum over these queries alone. -/
namespace FusedAttention

open Finset

variable {α ε : Type} [ExactScalar α] [Element ε α]

namespace Formula

variable {request : Request α ε} {settings : Settings} {u : UnitCoord} {attends : Nat → Nat → Bool}

/-- A pair that attends to each other is weighed as if all pairs did. -/
theorem prob_attended {i j : Nat} (h : attends i j = true) :
    prob request settings attends u i j = prob request settings everywhere u i j := by
  rw [prob, prob, if_pos h]
  rfl

theorem gradScore_attended {i j : Nat} (h : attends i j = true) :
    gradScore request settings attends u i j = gradScore request settings everywhere u i j := by
  rw [gradScore, gradScore, prob_attended h]

/-- What a query adds to an entry of gradK or gradV of a key that attends to it. -/
def keyTerm (request : Request α ε) (settings : Settings) (u : UnitCoord) (side : KeySide)
    (i j c : Nat) : α :=
  match side with
  | .keys => scale request settings * gradScore request settings everywhere u i j * q request u i c
  | .values =>
      prob request settings everywhere u i j * keep request settings u i j * dO request u i c

theorem keyTerm_eq {policy : QueryStart} (hReads : (request.kernel settings policy).Reads u)
    {i j : Nat} (hi : i < request.shape.numQueries)
    (hAttends : (request.kernel settings policy).attends i j = true) (side : KeySide) (c : Nat) :
    ((request.kernel settings policy).unitValues u).keyTerm side i j c =
      keyTerm request settings u side i j c := by
  cases side with
  | keys =>
      rw [UnitValues.keyTerm, gradScore_eq hReads hi hAttends, gradScore_attended hAttends]
      exact congrArg (· * q request u i c) (mul_comm _ (scale request settings))
  | values =>
      rw [UnitValues.keyTerm, weight_eq hAttends, prob_attended hAttends]
      rfl

end Formula

/-- The sum of the formulas over the queries from the first that the key tile attends to, rounded
once, is what a launch leaves in an entry of gradK or gradV. -/
theorem Kernel.LaunchEffect.keyGrads_exact [ExactElement ε] {request : Request α ε}
    {settings : Settings} {policy : QueryStart} {memory after : Memory α ε}
    (hEffect : (request.kernel settings policy).LaunchEffect memory after)
    (hAccepted : request.Accepted settings memory) (hSums : settings.SumsPass request.shape)
    (side : KeySide) {u : UnitCoord} (hu : request.shape.HasUnit u) {j c : Nat}
    (hj : j < request.shape.numKeys) (hc : c < side.cols request.shape) :
    (side.of after.grads)[(side.of request.gradLayouts).address u j c]? = some (Element.round
      (∑ i ∈ Ico (firstQueryTile policy (tileOf settings.blockJ j) request.shape.numQueries
        settings.blockI) request.shape.numQueries,
          Formula.keyTerm request settings u side i j c)) := by
  have hValid := hAccepted.valid policy
  refine (hEffect.keyGrads side u hu j hj c hc).trans (congrArg some ?_)
  rw [keyResult_eq hValid]
  refine congrArg Element.round (sum_congr rfl fun i hi => ?_)
  obtain ⟨hFirst, hLast⟩ := mem_Ico.mp hi
  have hAttends : (request.kernel settings policy).attends i j = true :=
    (attends_iff hValid hLast j).mpr hFirst
  exact Formula.keyTerm_eq (hAccepted.reads hSums policy hu) hLast hAttends side c

/-- After an accepted launch under any policy that no sum of stream positions stops, each entry of gradK
and gradV is rounded from the sum over the queries from the first that its key tile attends to, whatever
the memory held before and wherever the sums were kept. The rows of a key tile that attends to no query
are zero. -/
theorem Request.keyGrads_any_policy [ExactElement ε] {request : Request α ε} {settings : Settings}
    {memory : Memory α ε} (hCheck : request.check settings memory = .ok ())
    (hPass : settings.SumsPass request.shape) (policy : QueryStart) :
    ∃ after, request.launch settings policy memory = (.ok (request.report settings memory), after) ∧
      ∀ u, request.shape.HasUnit u → ∀ j < request.shape.numKeys,
        let numQueries := request.shape.numQueries
        let first := firstQueryTile policy (tileOf settings.blockJ j) numQueries settings.blockI
        (∀ c < request.shape.headDim,
          after.grads.gradK[request.gradLayouts.gradK.address u j c]? = some (Element.round
            (∑ i ∈ Ico first numQueries, Formula.scale request settings *
              Formula.gradScore request settings Formula.everywhere u i j *
                Formula.q request u i c))) ∧
        (∀ c < request.shape.headDimValue,
          after.grads.gradV[request.gradLayouts.gradV.address u j c]? = some (Element.round
            (∑ i ∈ Ico first numQueries,
              Formula.prob request settings Formula.everywhere u i j *
                Formula.keep request settings u i j * Formula.dO request u i c))) ∧
        (first = numQueries →
          (∀ c < request.shape.headDim,
            after.grads.gradK[request.gradLayouts.gradK.address u j c]? =
              some (Element.zero (α := α))) ∧
          ∀ c < request.shape.headDimValue,
            after.grads.gradV[request.gradLayouts.gradV.address u j c]? =
              some (Element.zero (α := α))) := by
  have hAccepted := accepted_of_check hCheck
  obtain ⟨after, -, hLaunch, hEffect⟩ := launch_spec hCheck hPass policy
  refine ⟨after, hLaunch, fun u hu j hj => ?_⟩
  intro numQueries first
  have hSums : ∀ (side : KeySide) c, c < side.cols request.shape →
      (side.of after.grads)[(side.of request.gradLayouts).address u j c]? = some (Element.round
        (∑ i ∈ Ico first numQueries, Formula.keyTerm request settings u side i j c)) :=
    fun side c hc => hEffect.keyGrads_exact hAccepted hPass side hu hj hc
  refine ⟨hSums .keys, hSums .values, fun hUnreachable => ?_⟩
  have hZeros : ∀ (side : KeySide) c, c < side.cols request.shape →
      (side.of after.grads)[(side.of request.gradLayouts).address u j c]? =
        some (Element.zero (α := α)) := by
    intro side c hc
    rw [hSums side c hc, hUnreachable, Ico_self, sum_empty, ExactElement.round_zero]
  exact ⟨hZeros .keys, hZeros .values⟩

/-- The first key tile attends to the second query tile alone, so its sum has the one query of it,
and the second key tile attends to no query. The memory held 5 everywhere. -/
theorem Request.keyGrads_ones :
    (Request.ones .twoTiles).check .smallTiles (.filled .twoTiles 5) = .ok () ∧
      Settings.smallTiles.SumsPass .twoTiles ∧
      ∃ report after, (Request.ones .twoTiles).launch .smallTiles (.ofList 8 [8] 9)
          (.filled .twoTiles 5) = (.ok report, after) ∧
        after.grads.gradV[0]? = some 2 ∧ after.grads.gradV[32]? = some 0 := by
  refine ⟨check_ones, Settings.sumsPass_smallTiles, ?_⟩
  obtain ⟨after, hLaunch, hEntries⟩ :=
    Request.keyGrads_any_policy check_ones Settings.sumsPass_smallTiles (.ofList 8 [8] 9)
  refine ⟨_, after, hLaunch, ?_, ?_⟩
  · have hRow := hEntries ⟨0, 0⟩ ⟨by decide, by decide⟩ 0 (by decide)
    exact (hRow.2.1 0 (by decide)).trans (by decide +kernel)
  · have hRow := hEntries ⟨0, 0⟩ ⟨by decide, by decide⟩ 8 (by decide)
    exact (hRow.2.2 (by decide)).2 0 (by decide)

end FusedAttention
