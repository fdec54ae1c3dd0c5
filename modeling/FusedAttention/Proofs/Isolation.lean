import Mathlib
import FusedAttention.Proofs.Dependence
import FusedAttention.Proofs.Formulas

/-! Two launches with full attention. A row of a result is the same in both if the rows it depends on
are, whatever the other rows and the other units hold, and wherever the rows lie. -/
namespace FusedAttention

variable {α ε : Type} [Scalar α] [Element ε α] {request request' : Request α ε} {settings : Settings}
  {policy : QueryStart} {u : UnitCoord} {queries keys : Nat → Prop} {i j c : Nat}

/-- With full attention an entry of gradQ is the total of its shares. -/
theorem Kernel.LaunchEffect.gradQ_at {kernel : Kernel α ε} {memory after : Memory α ε}
    (hEffect : kernel.LaunchEffect memory after) (hValid : kernel.Valid)
    (hPolicy : kernel.policy = fullAttention) (hHolds : kernel.Holds memory)
    (hu : kernel.shape.HasUnit u) (hi : i < kernel.shape.numQueries) (hc : c < kernel.shape.headDim) :
    after.grads.gradQ[kernel.request.gradLayouts.gradQ.address u i c]? =
      some (kernel.queryResult (kernel.unitValues u) i c) := by
  rw [hEffect.gradQ_target hHolds hu hi hc, queryVisits_fullAttention hValid hPolicy]

/-! ### Results of requests that agree -/

/-- What a unit makes of its numbers depends on the shape of the request, and not on its tensors and
their layouts. -/
theorem Request.results_of_shape (hShape : request'.shape = request.shape) :
    (request'.kernel settings policy).queryResult = (request.kernel settings policy).queryResult ∧
      (request'.kernel settings policy).keyResult = (request.kernel settings policy).keyResult ∧
      (request'.kernel settings policy).biasShares = (request.kernel settings policy).biasShares := by
  obtain ⟨shape, inputs, inputLayouts, lse, lseLayout, gradLayouts, biases⟩ := request
  obtain ⟨shape', inputs', inputLayouts', lse', lseLayout', gradLayouts', biases'⟩ := request'
  obtain rfl : shape' = shape := hShape
  exact ⟨rfl, rfl, rfl⟩

namespace Request.AgreeOn

variable (hShape : request'.shape = request.shape)
  (hValid : (request.kernel settings policy).Valid)
  (hReads : (request.kernel settings policy).Reads u)
  (hReads' : (request'.kernel settings policy).Reads u)

include hShape hValid hReads hReads'

theorem queryResult_eq (h : request.AgreeOn request' u queries (· < request.shape.numKeys))
    (hRows : ∀ i, queries i → i < request.shape.numQueries) (hi : queries i)
    (hc : c < request.shape.headDim) :
    (request.kernel settings policy).queryResult ((request.kernel settings policy).unitValues u) i c =
      (request'.kernel settings policy).queryResult
        ((request'.kernel settings policy).unitValues u) i c := by
  have hNumbers := h.unitValues hShape hReads hReads' hRows
  rw [(results_of_shape hShape).1]
  exact Kernel.queryResult_congr hValid hNumbers hi hc

theorem keyResult_eq (h : request.AgreeOn request' u (· < request.shape.numQueries) keys)
    (hj : keys j) (side : KeySide) (hc : c < side.cols request.shape) :
    (request.kernel settings policy).keyResult
        ((request.kernel settings policy).unitValues u) side j c =
      (request'.kernel settings policy).keyResult
        ((request'.kernel settings policy).unitValues u) side j c := by
  have hNumbers := h.unitValues hShape hReads hReads' fun _ hi => hi
  have hCols : c < ((request.kernel settings policy).unitValues u).cols side := by
    cases side with
    | keys => exact hc
    | values => exact hc
  rw [(results_of_shape hShape).2.1]
  exact Kernel.keyResult_congr hValid hNumbers hj side hCols

theorem biasShares_eq (h : request.AgreeOn request' u (· < request.shape.numQueries) keys)
    (kind : BiasKind) (hi : i < request.shape.numQueries) (hj : keys j) :
    (request.kernel settings policy).biasShares
        ((request.kernel settings policy).unitValues u) kind i j =
      (request'.kernel settings policy).biasShares
        ((request'.kernel settings policy).unitValues u) kind i j := by
  have hNumbers := h.unitValues hShape hReads hReads' fun _ hi => hi
  rw [(results_of_shape hShape).2.2]
  exact Kernel.biasShares_congr hValid kind hNumbers hi hj

end Request.AgreeOn

/-! ### Two launches -/

section Launches

variable {memory memory' after after' : Memory α ε}

/-- Two launches of one shape with full attention: both are accepted, and their effects are known. -/
structure LaunchPair (settings : Settings) (request request' : Request α ε)
    (memory after memory' after' : Memory α ε) : Prop where
  shape : request'.shape = request.shape
  sums : settings.SumsPass request.shape
  accepted : request.Accepted settings memory
  accepted' : request'.Accepted settings memory'
  effect : (request.kernel settings fullAttention).LaunchEffect memory after
  effect' : (request'.kernel settings fullAttention).LaunchEffect memory' after'

namespace LaunchPair

/-- Two launches that pass the checks run, if no sum of positions stops them, and make a pair. -/
theorem of_checks (hCheck : request.check settings memory = .ok ())
    (hCheck' : request'.check settings memory' = .ok ()) (hShape : request'.shape = request.shape)
    (hSums : settings.SumsPass request.shape) :
    ∃ after after', request.launch settings fullAttention memory =
        (.ok (request.report settings memory), after) ∧
      request'.launch settings fullAttention memory' =
        (.ok (request'.report settings memory'), after') ∧
      LaunchPair settings request request' memory after memory' after' := by
  have hSums' : settings.SumsPass request'.shape := by rwa [hShape]
  obtain ⟨after, -, hLaunch, hEffect⟩ := Request.launch_spec hCheck hSums fullAttention
  obtain ⟨after', -, hLaunch', hEffect'⟩ := Request.launch_spec hCheck' hSums' fullAttention
  exact ⟨after, after', hLaunch, hLaunch', hShape, hSums, Request.accepted_of_check hCheck,
    Request.accepted_of_check hCheck', hEffect, hEffect'⟩

variable (hPair : LaunchPair settings request request' memory after memory' after')
  (hu : request.shape.HasUnit u)

include hPair hu

theorem hasUnit' : request'.shape.HasUnit u := by
  rw [hPair.shape]
  exact hu

theorem reads : (request.kernel settings fullAttention).Reads u :=
  hPair.accepted.reads hPair.sums fullAttention hu

theorem reads' : (request'.kernel settings fullAttention).Reads u := by
  have hSums := hPair.sums
  rw [← hPair.shape] at hSums
  exact hPair.accepted'.reads hSums fullAttention (hPair.hasUnit' hu)

theorem delta_eq (hAgree : request.AgreeOn request' u queries keys) (hi : queries i)
    (hRow : i < request.shape.numQueries) :
    ∃ y, after.delta[u.index request.shape.heads * request.shape.numQueries + i]? = some y ∧
      after'.delta[u.index request.shape.heads * request.shape.numQueries + i]? = some y := by
  have hu' := hPair.hasUnit' hu
  have hRow' : i < request'.shape.numQueries := by rwa [hPair.shape]
  refine ⟨_, hPair.effect.delta u hu i hRow, ?_⟩
  have h := hPair.effect'.delta u hu' i hRow'
  rw [← hAgree.delta_eq hPair.shape (hPair.reads hu) (hPair.reads' hu) hi hRow] at h
  rw [← hPair.shape]
  exact h

theorem gradQ_eq (hAgree : request.AgreeOn request' u queries (· < request.shape.numKeys))
    (hRows : ∀ i, queries i → i < request.shape.numQueries) (hi : queries i)
    (hc : c < request.shape.headDim) :
    ∃ y, after.grads.gradQ[request.gradLayouts.gradQ.address u i c]? = some y ∧
      after'.grads.gradQ[request'.gradLayouts.gradQ.address u i c]? = some y := by
  have hu' := hPair.hasUnit' hu
  have hValid := hPair.accepted.valid fullAttention
  have hRow' : i < request'.shape.numQueries := by
    rw [hPair.shape]
    exact hRows i hi
  have hCol' : c < request'.shape.headDim := by rwa [hPair.shape]
  refine ⟨_, hPair.effect.gradQ_at hValid rfl (hPair.accepted.holds fullAttention) hu (hRows i hi) hc,
    ?_⟩
  rw [hAgree.queryResult_eq hPair.shape hValid (hPair.reads hu) (hPair.reads' hu) hRows hi hc]
  exact hPair.effect'.gradQ_at (hPair.accepted'.valid fullAttention) rfl
    (hPair.accepted'.holds fullAttention) hu' hRow' hCol'

theorem keyGrads_eq (hAgree : request.AgreeOn request' u (· < request.shape.numQueries) keys)
    (hj : keys j) (hRow : j < request.shape.numKeys) (side : KeySide)
    (hc : c < side.cols request.shape) :
    ∃ y, (side.of after.grads)[(side.of request.gradLayouts).address u j c]? = some y ∧
      (side.of after'.grads)[(side.of request'.gradLayouts).address u j c]? = some y := by
  have hu' := hPair.hasUnit' hu
  have hRow' : j < request'.shape.numKeys := by rwa [hPair.shape]
  have hCol' : c < side.cols request'.shape := by rwa [hPair.shape]
  refine ⟨_, hPair.effect.keyGrads side u hu j hRow c hc, ?_⟩
  rw [hAgree.keyResult_eq hPair.shape (hPair.accepted.valid fullAttention) (hPair.reads hu)
    (hPair.reads' hu) hj side hc]
  exact hPair.effect'.keyGrads side u hu' j hRow' c hCol'

end LaunchPair

end Launches

/-- In two accepted launches of one shape with full attention that no sum of stream positions stops,
Delta of a query and its row of gradQ are the same if the query and all keys of its unit are, and the
rows of a key of gradK and gradV are the same if the key and all queries of its unit are. Nothing is
asked of the other rows, the other units, the layouts and what the memory held before. -/
theorem Request.rows_isolated {memory memory' : Memory α ε}
    (hCheck : request.check settings memory = .ok ())
    (hCheck' : request'.check settings memory' = .ok ()) (hShape : request'.shape = request.shape)
    (hSums : settings.SumsPass request.shape) :
    ∃ after after', request.launch settings fullAttention memory =
        (.ok (request.report settings memory), after) ∧
      request'.launch settings fullAttention memory' =
        (.ok (request'.report settings memory'), after') ∧
      ∀ u, request.shape.HasUnit u →
        (∀ i < request.shape.numQueries,
          request.AgreeOn request' u (· = i) (· < request.shape.numKeys) →
          (∃ y, after.delta[u.index request.shape.heads * request.shape.numQueries + i]? = some y ∧
            after'.delta[u.index request.shape.heads * request.shape.numQueries + i]? = some y) ∧
          ∀ c < request.shape.headDim, ∃ y,
            after.grads.gradQ[request.gradLayouts.gradQ.address u i c]? = some y ∧
            after'.grads.gradQ[request'.gradLayouts.gradQ.address u i c]? = some y) ∧
        (∀ j < request.shape.numKeys,
          request.AgreeOn request' u (· < request.shape.numQueries) (· = j) →
          (∀ c < request.shape.headDim, ∃ y,
            after.grads.gradK[request.gradLayouts.gradK.address u j c]? = some y ∧
            after'.grads.gradK[request'.gradLayouts.gradK.address u j c]? = some y) ∧
          ∀ c < request.shape.headDimValue, ∃ y,
            after.grads.gradV[request.gradLayouts.gradV.address u j c]? = some y ∧
            after'.grads.gradV[request'.gradLayouts.gradV.address u j c]? = some y) := by
  obtain ⟨after, after', hLaunch, hLaunch', hPair⟩ :=
    LaunchPair.of_checks hCheck hCheck' hShape hSums
  refine ⟨after, after', hLaunch, hLaunch', fun u hu => ⟨fun i hi hAgree => ?_, fun j hj hAgree => ?_⟩⟩
  · refine ⟨hPair.delta_eq hu hAgree rfl hi, fun c hc => ?_⟩
    exact hPair.gradQ_eq hu hAgree (fun i' hi' => hi' ▸ hi) rfl hc
  · exact ⟨fun c hc => hPair.keyGrads_eq hu hAgree rfl hj .keys hc,
      fun c hc => hPair.keyGrads_eq hu hAgree rfl hj .values hc⟩

/-- The request of ones with other numbers in all queries but the first. -/
def Request.otherQueries (s : Shape) (x : Int) : Request Int Int :=
  let request := ones s
  let change (data : Array Int) : Array Int := data.extract 0 1 ++ .replicate (data.size - 1) x
  { request with
    inputs :=
      { request.inputs with
        q := change request.inputs.q, o := change request.inputs.o, dO := change request.inputs.dO }
    lse := change request.lse }

/-- Other numbers in the eight other queries do not show in the first row of gradQ. -/
theorem Request.rows_isolated_ones :
    (Request.ones .twoTiles).check .smallTiles (.filled .twoTiles 5) = .ok () ∧
      (Request.otherQueries .twoTiles 3).check .smallTiles (.filled .twoTiles 8) = .ok () ∧
      Settings.smallTiles.SumsPass .twoTiles ∧
      ∃ report after report' after', (Request.ones .twoTiles).launch .smallTiles fullAttention
          (.filled .twoTiles 5) = (.ok report, after) ∧
        (Request.otherQueries .twoTiles 3).launch .smallTiles fullAttention
          (.filled .twoTiles 8) = (.ok report', after') ∧
        ∃ y, after.grads.gradQ[0]? = some y ∧ after'.grads.gradQ[0]? = some y := by
  have hCheck : (Request.otherQueries .twoTiles 3).check .smallTiles (.filled .twoTiles 8) = .ok () :=
    (Check.eq_ok_iff_isOk _).mpr (by decide +kernel)
  refine ⟨check_ones, hCheck, Settings.sumsPass_smallTiles, ?_⟩
  obtain ⟨after, after', hLaunch, hLaunch', hRows⟩ :=
    Request.rows_isolated check_ones hCheck rfl Settings.sumsPass_smallTiles
  refine ⟨_, after, _, after', hLaunch, hLaunch', ?_⟩
  obtain ⟨hQueries, -⟩ := hRows ⟨0, 0⟩ ⟨by decide, by decide⟩
  refine (hQueries 0 (by decide) ?_).2 0 (by decide)
  exact {
    q := by
      rintro i rfl
      decide +kernel
    o := by
      rintro i rfl
      decide +kernel
    dO := by
      rintro i rfl
      decide +kernel
    lse := by
      rintro i rfl
      decide +kernel
    k := fun _ _ _ _ => rfl
    v := fun _ _ _ _ => rfl
    biases := fun _ _ _ _ _ => rfl }

end FusedAttention
