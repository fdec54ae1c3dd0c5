import Mathlib
import FusedAttention.Proofs.QueryGradients
import FusedAttention.Proofs.References

/-! The kernel and the formulas without tiles agree, in exact arithmetic and under every policy that
ascends: every query and key that attend to each other contribute once, and every element is rounded
once. -/
namespace FusedAttention

variable {α ε : Type} [ExactScalar α] [Element ε α]

namespace Request

/-- Delta and the gradients are there, the gradients rounded once. -/
structure Yields (request : Request α ε) (after : Memory α ε) (delta : UnitCoord → Nat → α)
    (gradQ gradK gradV : UnitCoord → Nat → Nat → α) : Prop where
  delta : ∀ u, request.shape.HasUnit u → ∀ i < request.shape.numQueries,
    after.delta[u.index request.shape.heads * request.shape.numQueries + i]? = some (delta u i)
  gradQ : ∀ u, request.shape.HasUnit u → ∀ i < request.shape.numQueries,
    ∀ c < request.shape.headDim, after.grads.gradQ[request.gradLayouts.gradQ.address u i c]? =
      some (Element.round (gradQ u i c))
  gradK : ∀ u, request.shape.HasUnit u → ∀ j < request.shape.numKeys,
    ∀ c < request.shape.headDim, after.grads.gradK[request.gradLayouts.gradK.address u j c]? =
      some (Element.round (gradK u j c))
  gradV : ∀ u, request.shape.HasUnit u → ∀ j < request.shape.numKeys,
    ∀ c < request.shape.headDimValue, after.grads.gradV[request.gradLayouts.gradV.address u j c]? =
      some (Element.round (gradV u j c))

/-- Delta and the gradients of the formulas. -/
def YieldsFormulas (request : Request α ε) (settings : Settings) (attends : Nat → Nat → Bool)
    (after : Memory α ε) : Prop :=
  request.Yields after (Formula.delta request) (Formula.gradQ request settings attends)
    (Formula.gradK request settings attends) (Formula.gradV request settings attends)

/-- Delta and the gradients of whole tensors. -/
def YieldsOutputs (request : Request α ε) (outputs : Outputs (Tensor α)) (after : Memory α ε) : Prop :=
  request.Yields after (fun u i => outputs.delta.at3 u.batchId u.head i)
    (fun u i c => outputs.grads.gradQ.at4 u.batchId i u.head c)
    (fun u j c => outputs.grads.gradK.at4 u.batchId j u.head c)
    fun u j c => outputs.grads.gradV.at4 u.batchId j u.head c

variable {request : Request α ε} {settings : Settings} {policy : QueryStart}
  {memory after : Memory α ε}

omit [ExactScalar α] in
theorem Yields.congr {delta delta' : UnitCoord → Nat → α}
    {gradQ gradQ' gradK gradK' gradV gradV' : UnitCoord → Nat → Nat → α}
    (h : request.Yields after delta gradQ gradK gradV)
    (hDelta : ∀ u, request.shape.HasUnit u → ∀ i < request.shape.numQueries, delta' u i = delta u i)
    (hQ : ∀ u, request.shape.HasUnit u → ∀ i < request.shape.numQueries,
      ∀ c < request.shape.headDim, gradQ' u i c = gradQ u i c)
    (hK : ∀ u, request.shape.HasUnit u → ∀ j < request.shape.numKeys,
      ∀ c < request.shape.headDim, gradK' u j c = gradK u j c)
    (hV : ∀ u, request.shape.HasUnit u → ∀ j < request.shape.numKeys,
      ∀ c < request.shape.headDimValue, gradV' u j c = gradV u j c) :
    request.Yields after delta' gradQ' gradK' gradV' where
  delta u hu i hi := by rw [hDelta u hu i hi, h.delta u hu i hi]
  gradQ u hu i hi c hc := by rw [hQ u hu i hi c hc, h.gradQ u hu i hi c hc]
  gradK u hu j hj c hc := by rw [hK u hu j hj c hc, h.gradK u hu j hj c hc]
  gradV u hu j hj c hc := by rw [hV u hu j hj c hc, h.gradV u hu j hj c hc]

/-- The effect of a launch under a policy that ascends is that of the formulas. -/
theorem yieldsFormulas_of_effect [ExactElement ε]
    (hEffect : (request.kernel settings policy).LaunchEffect memory after)
    (hAccepted : request.Accepted settings memory) (hSums : settings.SumsPass request.shape)
    (hAscending : (request.kernel settings policy).Ascending) :
    request.YieldsFormulas settings (request.kernel settings policy).attends after := by
  have hValid := hAccepted.valid policy
  have hKeys : ∀ (side : KeySide) u, request.shape.HasUnit u → ∀ j < request.shape.numKeys,
      ∀ c < side.cols request.shape,
        (side.of after.grads)[(side.of request.gradLayouts).address u j c]? = some (Element.round
          (Formula.keyGrad request settings (request.kernel settings policy).attends u side j c)) := by
    intro side u hu j hj c hc
    rw [← Formula.sum_keyTerm hValid (hAccepted.reads hSums policy hu)]
    refine (hEffect.keyGrads side u hu j hj c hc).trans (congrArg some ?_)
    exact Kernel.keyResult_eq hValid side j c
  refine ⟨fun u hu i hi => ?_, fun u hu i hi c hc => ?_, hKeys .keys, hKeys .values⟩
  · rw [← Formula.delta_eq (hAccepted.reads hSums policy hu) hi]
    exact hEffect.delta u hu i hi
  · have hStart := hAscending.zero_mem hValid (tileOf settings.blockI i)
    have hLost := hAscending.lostTiles_eq hValid (tileOf settings.blockI i)
    rw [hEffect.gradQ_entry hAccepted hSums hu hi hc, if_neg (List.ne_nil_of_mem hStart),
      Kernel.residue_eq_zero hStart hLost, add_zero]

/-- With full attention, every query attends to every key. -/
theorem attends_fullAttention (hAccepted : request.Accepted settings memory) :
    (request.kernel settings fullAttention).attends = Formula.everywhere := by
  funext i j
  have hFirst := Kernel.firstQuery_fullAttention (hAccepted.valid fullAttention) rfl
  rw [Kernel.attends, hFirst]
  exact decide_eq_true (Nat.zero_le _)

/-- The effect of a launch with full attention is that of the computation without tiles, while the
places of all words of the mask fit 64 bits. -/
theorem yieldsOutputs_of_effect [ExactElement ε]
    (hEffect : (request.kernel settings fullAttention).LaunchEffect memory after)
    (hAccepted : request.Accepted settings memory) (hSums : settings.SumsPass request.shape)
    (hFits : settings.dropout.isEnabled = true → settings.dropout.Fits request.shape)
    {mask : Option (Tensor α)}
    (hMask : Untiled.dropoutMask request.shape settings.dropout settings.overflow = .ok mask) :
    request.YieldsOutputs (Untiled.gradients request.shape request.tensors
      (Formula.scale request settings) mask) after := by
  have hAscending := Kernel.Ascending.of_fullAttention (hAccepted.valid fullAttention) rfl
  have hStores : Untiled.Stores mask request settings :=
    Untiled.stores_of_dropoutMask hAccepted.numQueries_pos hAccepted.numKeys_pos hFits hMask
  have hFormulas := yieldsFormulas_of_effect hEffect hAccepted hSums hAscending
  rw [attends_fullAttention hAccepted] at hFormulas
  have hUntiled := fun u (hu : request.shape.HasUnit u) =>
    Untiled.gradients_eq hStores hAccepted.groups hu
  exact hFormulas.congr (fun u hu => (hUntiled u hu).1) (fun u hu => (hUntiled u hu).2.1)
    (fun u hu => (hUntiled u hu).2.2.1) fun u hu => (hUntiled u hu).2.2.2

end Request

/-- The same settings with tiles of other sizes. -/
def Settings.withTiles (settings : Settings) (t : TileSize) : Settings :=
  { settings with blockI := t.blockI, blockJ := t.blockJ, maxHeadDim := t.maxHeadDim }

/-- After an accepted launch under a policy that ascends, if no sum of stream positions stops it, Delta
and the gradients are those of the formulas with the mask that the kernel reads in parts of rows, each
element rounded once. While the places of all words of the mask fit 64 bits, each pair has the factor of
its own word, and with full attention Delta and the gradients are those of the computation on whole
tensors, whatever the tiles are. -/
theorem Request.gradients_exact [ExactElement ε] {request : Request α ε} {settings : Settings}
    {memory : Memory α ε} (hCheck : request.check settings memory = .ok ())
    (hSums : settings.SumsPass request.shape) {policy : QueryStart}
    (hAscending : (request.kernel settings policy).Ascending) :
    ∃ after, request.launch settings policy memory = (.ok (request.report settings memory), after) ∧
      request.YieldsFormulas settings (request.kernel settings policy).attends after ∧
      ((settings.dropout.isEnabled = true → settings.dropout.Fits request.shape) →
        (∀ u, request.shape.HasUnit u → ∀ i < request.shape.numQueries, ∀ j < request.shape.numKeys,
          Formula.keep request settings u i j =
            if settings.dropout.isEnabled then settings.dropout.entry request.shape u i j else 1) ∧
        (policy = fullAttention → ∃ mask,
          Untiled.dropoutMask request.shape settings.dropout settings.overflow = .ok mask ∧
          request.YieldsOutputs (Untiled.gradients request.shape request.tensors
            (Scalar.ofFloat (settings.resolvedScale request.shape.headDim)) mask) after ∧
          ∀ (tiles : TileSize) (memory' : Memory α ε),
            request.check (settings.withTiles tiles) memory' = .ok () →
              ∃ after', request.launch (settings.withTiles tiles) policy memory' =
                  (.ok (request.report (settings.withTiles tiles) memory'), after') ∧
                request.YieldsOutputs (Untiled.gradients request.shape request.tensors
                  (Scalar.ofFloat (settings.resolvedScale request.shape.headDim)) mask) after')) := by
  have hAccepted := accepted_of_check hCheck
  obtain ⟨after, -, hLaunch, hEffect⟩ := launch_spec hCheck hSums policy
  refine ⟨after, hLaunch, yieldsFormulas_of_effect hEffect hAccepted hSums hAscending, fun hFits =>
    ⟨fun u hu i hi j hj => Untiled.keep_eq hFits hu hi hj, ?_⟩⟩
  rintro rfl
  obtain ⟨mask, hMask, -⟩ := dropoutMask_spec (α := α) hAccepted.numQueries_pos hAccepted.numKeys_pos
    fun _ => hSums
  refine ⟨mask, hMask, yieldsOutputs_of_effect hEffect hAccepted hSums hFits hMask,
    fun tiles memory' hCheck' => ?_⟩
  obtain ⟨after', -, hLaunch', hEffect'⟩ := launch_spec hCheck' hSums fullAttention
  exact ⟨after', hLaunch',
    yieldsOutputs_of_effect hEffect' (accepted_of_check hCheck') hSums hFits hMask⟩

/-- With full attention, each of nine keys or queries adds two to an entry, over two tiles or in one. -/
theorem Request.gradients_ones :
    (Request.ones .twoTiles).check .smallTiles (.filled .twoTiles 5) = .ok () ∧
      Settings.smallTiles.SumsPass .twoTiles ∧ Settings.smallTiles.dropout.Fits .twoTiles ∧
      ((Request.ones .twoTiles).kernel .smallTiles fullAttention).Ascending ∧
      ∃ report after, (Request.ones .twoTiles).launch .smallTiles fullAttention (.filled .twoTiles 5) =
          (.ok report, after) ∧
        after.delta[0]? = some 0 ∧ after.grads.gradQ[0]? = some 18 ∧
        after.grads.gradK[0]? = some 18 ∧ after.grads.gradV[0]? = some 18 ∧
        ∃ report' after', (Request.ones .twoTiles).launch (Settings.smallTiles.withTiles ⟨16, 16, 32⟩)
            fullAttention (.filled .twoTiles 6) = (.ok report', after') ∧
          after'.grads.gradQ[0]? = some 18 := by
  have hAscending : ((Request.ones .twoTiles).kernel .smallTiles fullAttention).Ascending :=
    .of_fullAttention ((accepted_of_check check_ones).valid fullAttention) rfl
  have hUnit : Shape.twoTiles.HasUnit ⟨0, 0⟩ := ⟨by decide, by decide⟩
  have hFits : Settings.smallTiles.dropout.Fits .twoTiles := by decide
  refine ⟨check_ones, Settings.sumsPass_smallTiles, hFits, hAscending, ?_⟩
  obtain ⟨after, hLaunch, hFormulas, hTensors⟩ :=
    Request.gradients_exact check_ones Settings.sumsPass_smallTiles hAscending
  obtain ⟨mask, hMask, -, hTiles⟩ := (hTensors fun _ => hFits).2 rfl
  obtain rfl : none = mask := Except.ok.inj hMask
  obtain ⟨after', hLaunch', hOutputs⟩ := hTiles ⟨16, 16, 32⟩ (.filled .twoTiles 6)
    ((Check.eq_ok_iff_isOk _).mpr (by decide +kernel))
  refine ⟨_, after, hLaunch, ?_, ?_, ?_, ?_, _, after', hLaunch', ?_⟩
  · exact (hFormulas.delta _ hUnit 0 (by decide)).trans (by decide +kernel)
  · exact (hFormulas.gradQ _ hUnit 0 (by decide) 0 (by decide)).trans (by decide +kernel)
  · exact (hFormulas.gradK _ hUnit 0 (by decide) 0 (by decide)).trans (by decide +kernel)
  · exact (hFormulas.gradV _ hUnit 0 (by decide) 0 (by decide)).trans (by decide +kernel)
  · exact (hOutputs.gradQ _ hUnit 0 (by decide) 0 (by decide)).trans (by decide +kernel)

end FusedAttention
