import Mathlib
import FusedAttention.Proofs.Isolation

/-! Results depend on the numbers of the requests alone. Layouts, what lies in the gaps between the
rows, surplus lengths, and what the gradients, Delta and the workspace held before make no difference,
so a launch may be repeated on its own results. -/
namespace FusedAttention

variable {α ε : Type} [Scalar α] [Element ε α] {request request' : Request α ε} {settings : Settings}
  {memory memory' after after' : Memory α ε}

/-! ### Launches on what a launch leaves -/

/-- The checks look at the lengths of the memory alone. -/
theorem Kernel.Keeps.check_eq {policy : QueryStart}
    (hKeeps : (request.kernel settings policy).Keeps memory after) :
    request.check settings after = request.check settings memory := by
  have hKeyMask : after.biasGrads.keyMask.map (·.size) = memory.biasGrads.keyMask.map (·.size) :=
    hKeeps.biasSize .keyMask
  have hPairBias : after.biasGrads.pairBias.map (·.size) = memory.biasGrads.pairBias.map (·.size) :=
    hKeeps.biasSize .pairBias
  have hGradK : after.grads.gradK.size = memory.grads.gradK.size := hKeeps.keySize .keys
  have hGradV : after.grads.gradV.size = memory.grads.gradV.size := hKeeps.keySize .values
  unfold Request.check
  rw [hKeeps.gradQSize, hGradK, hGradV, hKeeps.deltaSize, hKeyMask, hPairBias, hKeeps.elim_workspace]

/-- A launch with full attention on what one has left gives the same gradients and the same Delta. -/
theorem Kernel.LaunchEffect.again {kernel : Kernel α ε} {again : Memory α ε}
    (hEffect : kernel.LaunchEffect memory after) (hAgain : kernel.LaunchEffect after again)
    (hValid : kernel.Valid) (hPolicy : kernel.policy = fullAttention) (hHolds : kernel.Holds memory) :
    again.grads = after.grads ∧ again.delta = after.delta := by
  constructor
  · refine kernel.grads_ext (fun u hu row hRow col hCol => ?_) (fun p hp => hAgain.keeps.gradQ p hp)
      (fun side u hu row hRow col hCol => ?_) fun side p hp => hAgain.keeps.keyGrads side p hp
    · rw [hEffect.gradQ_at hValid hPolicy hHolds hu hRow hCol,
        hAgain.gradQ_at hValid hPolicy (hHolds.of_keeps hEffect.keeps) hu hRow hCol]
    · rw [hEffect.keyGrads side u hu row hRow col hCol, hAgain.keyGrads side u hu row hRow col hCol]
  · refine kernel.delta_ext (fun u hu query hQuery => ?_) hAgain.keeps.delta
    rw [hEffect.delta u hu query hQuery, hAgain.delta u hu query hQuery]

/-! ### Bias gradients -/

/-- An entry of a bias gradient that is the same in both launches before is the same after. -/
theorem LaunchPair.biasGrads_eq
    (hPair : LaunchPair settings request request' memory after memory' after')
    (hInputs : ∀ u, request.shape.HasUnit u → request.AgreeOn request' u
      (· < request.shape.numQueries) (· < request.shape.numKeys)) (kind : BiasKind) {u : UnitCoord}
    (hu : request.shape.HasUnit u) {i j : Nat} (hi : i < request.shape.numQueries)
    (hj : j < request.shape.numKeys)
    (hBefore : memory.biasGrads.at? kind (kind.address request.shape u i j) =
      memory'.biasGrads.at? kind (kind.address request.shape u i j)) :
    after.biasGrads.at? kind (kind.address request.shape u i j) =
      after'.biasGrads.at? kind (kind.address request.shape u i j) := by
  have hShape : (request'.kernel settings fullAttention).shape = request.shape := hPair.shape
  have hShares : (request'.kernel settings fullAttention).unitShares kind u i j =
      (request.kernel settings fullAttention).unitShares kind u i j := by
    unfold Kernel.unitShares
    rw [hShape]
    refine List.flatMap_congr fun u' hMem => ?_
    have hu' := Shape.mem_unitCoords.mp (List.mem_filter.mp hMem).1
    symm
    exact (hInputs u' hu').biasShares_eq hPair.shape (hPair.accepted.valid fullAttention)
      (hPair.reads hu') (hPair.reads' hu') kind hi hj
  have hEntry := hPair.effect.biasGrads kind u hu i hi j hj
  have hEntry' := hPair.effect'.biasGrads kind u (hPair.hasUnit' hu) i (by rwa [hShape]) j
    (by rwa [hShape])
  rw [hShape, hShares, ← hBefore] at hEntry'
  exact hEntry.trans hEntry'.symm

/-- Two accepted launches of one shape with full attention that no sum of stream positions stops, and
whose requests hold the same numbers for all units, each in its own layout, leave the same Delta and the
same gradients, each in its own layout, whatever their memories held before. Entries of the bias gradients
that are the same before are the same after. A launch on what a launch has left gives the same gradients
and Delta again. -/
theorem Request.results_of_inputs (hCheck : request.check settings memory = .ok ())
    (hCheck' : request'.check settings memory' = .ok ()) (hShape : request'.shape = request.shape)
    (hSums : settings.SumsPass request.shape)
    (hInputs : ∀ u, request.shape.HasUnit u → request.AgreeOn request' u
      (· < request.shape.numQueries) (· < request.shape.numKeys)) :
    ∃ after after', request.launch settings fullAttention memory =
        (.ok (request.report settings memory), after) ∧
      request'.launch settings fullAttention memory' =
        (.ok (request'.report settings memory'), after') ∧
      (∀ u, request.shape.HasUnit u →
        (∀ i < request.shape.numQueries,
          (∃ y, after.delta[u.index request.shape.heads * request.shape.numQueries + i]? = some y ∧
            after'.delta[u.index request.shape.heads * request.shape.numQueries + i]? = some y) ∧
          ∀ c < request.shape.headDim, ∃ y,
            after.grads.gradQ[request.gradLayouts.gradQ.address u i c]? = some y ∧
            after'.grads.gradQ[request'.gradLayouts.gradQ.address u i c]? = some y) ∧
        (∀ j < request.shape.numKeys,
          (∀ c < request.shape.headDim, ∃ y,
            after.grads.gradK[request.gradLayouts.gradK.address u j c]? = some y ∧
            after'.grads.gradK[request'.gradLayouts.gradK.address u j c]? = some y) ∧
          ∀ c < request.shape.headDimValue, ∃ y,
            after.grads.gradV[request.gradLayouts.gradV.address u j c]? = some y ∧
            after'.grads.gradV[request'.gradLayouts.gradV.address u j c]? = some y) ∧
        ∀ kind, ∀ i < request.shape.numQueries, ∀ j < request.shape.numKeys,
          let p := kind.address request.shape u i j
          memory.biasGrads.at? kind p = memory'.biasGrads.at? kind p →
            after.biasGrads.at? kind p = after'.biasGrads.at? kind p) ∧
      ∃ report again, request.launch settings fullAttention after = (.ok report, again) ∧
        again.grads = after.grads ∧ again.delta = after.delta := by
  obtain ⟨after, after', hLaunch, hLaunch', hPair⟩ :=
    LaunchPair.of_checks hCheck hCheck' hShape hSums
  refine ⟨after, after', hLaunch, hLaunch', fun u hu => ⟨fun i hi => ?_, fun j hj => ?_, ?_⟩, ?_⟩
  · have hAgree := hInputs u hu
    exact ⟨hPair.delta_eq hu hAgree hi hi, fun c hc => hPair.gradQ_eq hu hAgree (fun _ h => h) hi hc⟩
  · have hAgree := hInputs u hu
    exact ⟨fun c hc => hPair.keyGrads_eq hu hAgree hj hj .keys hc,
      fun c hc => hPair.keyGrads_eq hu hAgree hj hj .values hc⟩
  · intro kind i hi j hj p hBefore
    exact hPair.biasGrads_eq hInputs kind hu hi hj hBefore
  · have hCheckAgain : request.check settings after = .ok () :=
      hPair.effect.keeps.check_eq.trans hCheck
    obtain ⟨again, -, hLaunchAgain, hAgain⟩ := launch_spec hCheckAgain hSums fullAttention
    refine ⟨_, again, hLaunchAgain, ?_⟩
    exact hPair.effect.again hAgain (hPair.accepted.valid fullAttention) rfl
      (hPair.accepted.holds fullAttention)

/-- The request of ones with every tensor one line further on, behind other numbers. -/
def Request.shifted (s : Shape) (x : Int) : Request Int Int :=
  let request := ones s
  let shift (l : Layout) : Layout := { l with offset := l.offset + lineSize }
  { request with
    inputs := request.inputs.map fun data => .replicate lineSize x ++ data
    inputLayouts := request.inputLayouts.map shift
    gradLayouts := request.gradLayouts.map shift }

/-- Memory for it with room for one line more in each gradient, and a workspace that is not needed. -/
def Memory.shifted (s : Shape) (x : Int) : Memory Int Int :=
  let memory := filled s x
  { memory with
    grads := memory.grads.map fun data => .replicate lineSize x ++ data
    workspace := some #[x] }

/-- The first entry of gradQ is the same one line further on, over other memory. -/
theorem Request.results_of_inputs_ones :
    (Request.ones .twoTiles).check .smallTiles (.filled .twoTiles 5) = .ok () ∧
      (Request.shifted .twoTiles 3).check .smallTiles (.shifted .twoTiles 8) = .ok () ∧
      Settings.smallTiles.SumsPass .twoTiles ∧
      ∃ report after report' after', (Request.ones .twoTiles).launch .smallTiles fullAttention
          (.filled .twoTiles 5) = (.ok report, after) ∧
        (Request.shifted .twoTiles 3).launch .smallTiles fullAttention
          (.shifted .twoTiles 8) = (.ok report', after') ∧
        ∃ y, after.grads.gradQ[0]? = some y ∧ after'.grads.gradQ[4]? = some y := by
  have hCheck : (Request.shifted .twoTiles 3).check .smallTiles (.shifted .twoTiles 8) = .ok () :=
    (Check.eq_ok_iff_isOk _).mpr (by decide +kernel)
  have hInputs : ∀ u, Shape.twoTiles.HasUnit u →
      (Request.ones .twoTiles).AgreeOn (.shifted .twoTiles 3) u (· < 9) (· < 9) := by
    rintro ⟨batchId, head⟩ ⟨hBatch, hHead⟩
    obtain rfl : batchId = 0 := Nat.lt_one_iff.mp hBatch
    obtain rfl : head = 0 := Nat.lt_one_iff.mp hHead
    exact {
      q := by decide +kernel
      o := by decide +kernel
      dO := by decide +kernel
      lse := fun _ _ => rfl
      k := by decide +kernel
      v := by decide +kernel
      biases := fun _ _ _ _ _ => rfl }
  refine ⟨check_ones, hCheck, Settings.sumsPass_smallTiles, ?_⟩
  obtain ⟨after, after', hLaunch, hLaunch', hRows, -⟩ :=
    Request.results_of_inputs check_ones hCheck rfl Settings.sumsPass_smallTiles hInputs
  refine ⟨_, after, _, after', hLaunch, hLaunch', ?_⟩
  exact ((hRows ⟨0, 0⟩ ⟨by decide, by decide⟩).1 0 (by decide)).2 0 (by decide)

end FusedAttention
