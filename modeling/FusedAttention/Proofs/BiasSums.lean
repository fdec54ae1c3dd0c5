import Mathlib
import FusedAttention.Proofs.ExactGradients

/-! The bias gradients after a launch, in exact arithmetic: every score gradient of every unit that
meets an entry is in it once. -/
namespace FusedAttention

open Finset

variable {α ε : Type} [ExactScalar α] [Element ε α]

/-! ### Sums over units -/

namespace Shape

variable {s : Shape} {u : UnitCoord}

theorem sum_unitCoords (s : Shape) (f : UnitCoord → α) :
    (s.unitCoords.map f).sum = ∑ b ∈ range s.batch, ∑ h ∈ range s.heads, f ⟨b, h⟩ := by
  have hFlat : ∀ batches : List Nat, ((batches.flatMap fun b =>
      (List.range s.heads).map fun h => (⟨b, h⟩ : UnitCoord)).map f).sum =
        (batches.map fun b => ∑ h ∈ range s.heads, f ⟨b, h⟩).sum := by
    intro batches
    induction batches with
    | nil => rfl
    | cons b rest ih =>
        rw [List.flatMap_cons, List.map_append, List.sum_append, ih, List.map_cons, List.sum_cons,
          List.map_map, ← sum_map_range]
        rfl
  rw [unitCoords, hFlat, sum_map_range]

/-- The units that meet a row of the key mask are the heads of its batch. -/
theorem sum_keyMask (hu : s.HasUnit u) (f : UnitCoord → α) :
    ((s.unitCoords.filter fun u' => BiasKind.keyMask.part s u' == BiasKind.keyMask.part s u).map
      f).sum = ∑ h ∈ range s.heads, f ⟨u.batchId, h⟩ := by
  rw [sum_map_filter, sum_unitCoords, sum_eq_single u.batchId]
  · refine sum_congr rfl fun h _ => if_pos ?_
    exact beq_self_eq_true _
  · intro b _ hOther
    refine sum_eq_zero fun h _ => if_neg ?_
    rw [beq_iff_eq]
    exact fun hSame => hOther (congrArg Prod.fst hSame)
  · intro hNone
    exact absurd (mem_range.mpr hu.1) hNone

/-- All batches of a group are batches of the problem. -/
theorem group_within (hGroups : s.batch % s.groupSize = 0) {g : Nat} (hg : g < s.biasGroups) :
    g * s.groupSize + s.groupSize ≤ s.batch :=
  run_within hg (Nat.le_of_eq (biasGroups_mul hGroups))

/-- An entry of the pair bias by its group, head, query and key. -/
theorem address_group (hSize : 0 < s.groupSize) (g h i j : Nat) :
    BiasKind.pairBias.address s ⟨g * s.groupSize, h⟩ i j =
      ((g * s.heads + h) * s.numQueries + i) * s.numKeys + j := by
  rw [BiasKind.pairBias_address, Nat.mul_div_cancel _ hSize]

/-- The units that meet a plane of the pair bias are the batches of its group. -/
theorem sum_pairBias (hGroups : s.batch % s.groupSize = 0) (hSize : 0 < s.groupSize)
    (hu : s.HasUnit u) (f : UnitCoord → α) :
    ((s.unitCoords.filter fun u' => BiasKind.pairBias.part s u' == BiasKind.pairBias.part s u).map
      f).sum = ∑ n ∈ range s.groupSize, f ⟨u.batchId / s.groupSize * s.groupSize + n, u.head⟩ := by
  have hHead : ∀ b, (∑ h ∈ range s.heads, if (BiasKind.pairBias.part s ⟨b, h⟩ ==
      BiasKind.pairBias.part s u) = true then f ⟨b, h⟩ else 0) =
        if b / s.groupSize = u.batchId / s.groupSize then f ⟨b, u.head⟩ else 0 := by
    intro b
    rw [sum_eq_single u.head]
    · simp [BiasKind.part]
    · intro h _ hOther
      refine if_neg ?_
      rw [beq_iff_eq]
      exact fun hSame => hOther (congrArg Prod.snd hSame)
    · intro hNone
      exact absurd (mem_range.mpr hu.2) hNone
  have hGroup := group_within hGroups (group_lt hGroups hu.1)
  have hMembers : (range s.batch).filter (· / s.groupSize = u.batchId / s.groupSize) =
      Ico (u.batchId / s.groupSize * s.groupSize)
        (u.batchId / s.groupSize * s.groupSize + s.groupSize) := by
    ext b
    rw [mem_filter, mem_range, mem_Ico, Nat.div_eq_iff hSize]
    omega
  rw [sum_map_filter, sum_unitCoords, sum_congr rfl fun b _ => hHead b, ← sum_filter, hMembers,
    sum_Ico_eq_sum_range, Nat.add_sub_cancel_left]

end Shape

/-! ### Sums over shares -/

namespace Formula

variable (request : Request α ε) (settings : Settings) (attends : Nat → Nat → Bool)

/-- What an entry of the gradient of the key mask receives: from all heads and all queries that
its key attends to. -/
def gradKeyMask (b j : Nat) : α :=
  ∑ h ∈ range request.shape.heads, ∑ i ∈ range request.shape.numQueries with attends i j = true,
    gradScore request settings attends ⟨b, h⟩ i j

/-- What an entry of the gradient of the pair bias receives: from all batches of the group. -/
def gradPairBias (g h i j : Nat) : α :=
  ∑ n ∈ range request.shape.groupSize,
    gradScore request settings attends ⟨g * request.shape.groupSize + n, h⟩ i j

/-- What the entry of a bias gradient that a query and a key of a unit meet receives. -/
def gradBias (kind : BiasKind) (u : UnitCoord) (i j : Nat) : α :=
  match kind with
  | .keyMask => gradKeyMask request settings attends u.batchId j
  | .pairBias => gradPairBias request settings attends (u.batchId / request.shape.groupSize) u.head i j

variable {request settings} {policy : QueryStart} {u : UnitCoord}

theorem sum_unitBiasShares (hValid : (request.kernel settings policy).Valid)
    (hReads : (request.kernel settings policy).Reads u) (kind : BiasKind) {i : Nat}
    (hi : i < request.shape.numQueries) (j : Nat) :
    ((request.kernel settings policy).biasShares ((request.kernel settings policy).unitValues u)
      kind i j).sum = match kind with
        | .keyMask => ∑ i' ∈ range request.shape.numQueries
            with (request.kernel settings policy).attends i' j = true,
              gradScore request settings (request.kernel settings policy).attends u i' j
        | .pairBias => gradScore request settings (request.kernel settings policy).attends u i j := by
  rw [Kernel.sum_biasShares hValid kind hi]
  cases kind with
  | keyMask =>
      refine (Kernel.sum_attended hValid j (fun i' hi' hAttends =>
        gradScore_eq hReads hi' hAttends) fun i' hNot => gradScore_eq_zero hNot).trans ?_
      refine (sum_filter_of_ne fun i' _ hSome => ?_).symm
      by_contra hNot
      exact hSome (gradScore_eq_zero hNot)
  | pairBias =>
      dsimp only
      split
      · rename_i hAttends
        exact gradScore_eq hReads hi hAttends
      · rename_i hNot
        exact (gradScore_eq_zero hNot).symm

/-- All units that meet an entry add what the formula says. -/
theorem foldl_unitShares (hValid : (request.kernel settings policy).Valid)
    (hSize : 0 < request.shape.groupSize)
    (hReads : ∀ u, request.shape.HasUnit u → (request.kernel settings policy).Reads u)
    (hu : request.shape.HasUnit u) (kind : BiasKind) {i : Nat} (hi : i < request.shape.numQueries)
    (j : Nat) (y : α) :
    ((request.kernel settings policy).unitShares kind u i j).foldl (· + ·) y =
      y + gradBias request settings (request.kernel settings policy).attends kind u i j := by
  have hSum : ((request.kernel settings policy).unitShares kind u i j).sum =
      ((request.shape.unitCoords.filter fun u' => kind.part request.shape u' ==
        kind.part request.shape u).map fun u' => ((request.kernel settings policy).biasShares
          ((request.kernel settings policy).unitValues u') kind i j).sum).sum := by
    rw [Kernel.unitShares, List.flatMap_def, List.sum_flatten, List.map_map]
    rfl
  have hFold := foldl_add ((request.kernel settings policy).unitShares kind u i j) id y
  rw [List.map_id] at hFold
  refine hFold.trans (congrArg (y + ·) (hSum.trans ?_))
  cases kind with
  | keyMask =>
      refine (Shape.sum_keyMask hu _).trans (sum_congr rfl fun h hh => ?_)
      have hHead : request.shape.HasUnit ⟨u.batchId, h⟩ := ⟨hu.1, mem_range.mp hh⟩
      exact sum_unitBiasShares hValid (hReads _ hHead) .keyMask hi j
  | pairBias =>
      refine (Shape.sum_pairBias hValid.groups hSize hu _).trans (sum_congr rfl fun n hn => ?_)
      have hGroup := Shape.group_within hValid.groups (Shape.group_lt hValid.groups hu.1)
      have hMember : request.shape.HasUnit
          ⟨u.batchId / request.shape.groupSize * request.shape.groupSize + n, u.head⟩ :=
        ⟨Nat.lt_of_lt_of_le (Nat.add_lt_add_left (mem_range.mp hn) _) hGroup, hu.2⟩
      exact sum_unitBiasShares hValid (hReads _ hMember) .pairBias hi j

end Formula

/-! ### After a launch -/

namespace Kernel

variable {request : Request α ε} {settings : Settings} {policy : QueryStart} {u : UnitCoord}
  {memory after : Memory α ε}

/-- A bias gradient that is wanted is still there afterwards, and an entry of it that is mapped holds
what it is mapped to. -/
theorem Keeps.biasGrad_mapped (hKeeps : (request.kernel settings policy).Keeps memory after)
    (hAccepted : request.Accepted settings memory) (kind : BiasKind) {grad : Array α}
    (hGrad : memory.biasGrads.get kind = some grad) :
    ∃ grad', after.biasGrads.get kind = some grad' ∧ ∀ u, request.shape.HasUnit u →
      ∀ i < request.shape.numQueries, ∀ j < request.shape.numKeys, ∀ f : α → α,
        after.biasGrads.at? kind (kind.address request.shape u i j) =
          (memory.biasGrads.at? kind (kind.address request.shape u i j)).map f →
        ∃ y, grad[kind.address request.shape u i j]? = some y ∧
          grad'[kind.address request.shape u i j]? = some (f y) := by
  obtain ⟨grad', hGrad', -⟩ := exists_of_size_eq (hKeeps.biasSize kind).symm hGrad
  refine ⟨grad', hGrad', fun u hu i hi j hj f hEntry => ?_⟩
  have hPlace := kind.address_lt hu.1 hu.2 hAccepted.groups hi hj
  have hEnough := (hAccepted.biasGrads kind grad hGrad).2
  have hOld : grad[kind.address request.shape u i j]? = some grad[kind.address request.shape u i j] :=
    Array.getElem?_eq_getElem (by omega)
  rw [Biases.at?, Biases.at?, hGrad', hGrad, Option.bind_some, Option.bind_some, hOld] at hEntry
  exact ⟨_, hOld, hEntry⟩

/-- An entry of a bias gradient that is wanted ends as what it was and what the formula says. -/
theorem LaunchEffect.biasGrad_entry
    (hEffect : (request.kernel settings policy).LaunchEffect memory after)
    (hAccepted : request.Accepted settings memory) (hSums : settings.SumsPass request.shape)
    (kind : BiasKind) {grad : Array α} (hGrad : memory.biasGrads.get kind = some grad) :
    ∃ grad', after.biasGrads.get kind = some grad' ∧ ∀ u, request.shape.HasUnit u →
      ∀ i < request.shape.numQueries, ∀ j < request.shape.numKeys,
        ∃ y, grad[kind.address request.shape u i j]? = some y ∧
          grad'[kind.address request.shape u i j]? = some (y + Formula.gradBias request settings
            (request.kernel settings policy).attends kind u i j) := by
  obtain ⟨grad', hGrad', hMapped⟩ := hEffect.keeps.biasGrad_mapped hAccepted kind hGrad
  refine ⟨grad', hGrad', fun u hu i hi j hj => ?_⟩
  obtain ⟨y, hOld, hNew⟩ := hMapped u hu i hi j hj _ (hEffect.biasGrads kind u hu i hi j hj)
  refine ⟨y, hOld, hNew.trans (congrArg some ?_)⟩
  exact Formula.foldl_unitShares (hAccepted.valid policy) hAccepted.groupSize_pos
    (fun _ hu' => hAccepted.reads hSums policy hu') hu kind hi j y

/-- One unit adds the score gradients of its own pairs to the pair bias. -/
theorem UnitStep.pairBias_entry (hStep : (request.kernel settings policy).UnitStep memory u after)
    (hAccepted : request.Accepted settings memory) (hSums : settings.SumsPass request.shape)
    (hu : request.shape.HasUnit u) {grad : Array α} (hGrad : memory.biasGrads.pairBias = some grad) :
    ∃ grad', after.biasGrads.pairBias = some grad' ∧ ∀ i < request.shape.numQueries,
      ∀ j < request.shape.numKeys,
        ∃ y, grad[BiasKind.pairBias.address request.shape u i j]? = some y ∧
          grad'[BiasKind.pairBias.address request.shape u i j]? = some (y +
            Formula.gradScore request settings (request.kernel settings policy).attends u i j) := by
  obtain ⟨grad', hGrad', hMapped⟩ := hStep.keeps.biasGrad_mapped hAccepted .pairBias hGrad
  refine ⟨grad', hGrad', fun i hi j hj => ?_⟩
  have hEntry := hStep.biasGrads .pairBias u hu i hi j hj
  rw [if_pos rfl] at hEntry
  obtain ⟨y, hOld, hNew⟩ := hMapped u hu i hi j hj _ hEntry
  have hShares := Formula.sum_unitBiasShares (hAccepted.valid policy) (hAccepted.reads hSums policy hu)
    .pairBias hi j
  have hFold := foldl_add ((request.kernel settings policy).biasShares
    ((request.kernel settings policy).unitValues u) .pairBias i j) id y
  rw [List.map_id, hShares] at hFold
  exact ⟨y, hOld, hNew.trans (congrArg some hFold)⟩

end Kernel

/-- After an accepted launch under any policy that no sum of stream positions stops, each entry of a
bias gradient that is wanted has received every score gradient that meets it once: from all heads and
queries that attend to its key, or from all batches that share it. Which bias gradients are wanted
changes nothing else. -/
theorem Request.biasGrads_exact {request : Request α ε} {settings : Settings}
    {memory : Memory α ε} (hCheck : request.check settings memory = .ok ())
    (hSums : settings.SumsPass request.shape) (policy : QueryStart) :
    ∃ after, request.launch settings policy memory = (.ok (request.report settings memory), after) ∧
      (∀ grad, memory.biasGrads.keyMask = some grad → ∃ grad', after.biasGrads.keyMask = some grad' ∧
        ∀ b < request.shape.batch, ∀ j < request.shape.numKeys, ∃ y,
          grad[b * request.shape.numKeys + j]? = some y ∧
          grad'[b * request.shape.numKeys + j]? = some (y + Formula.gradKeyMask request settings
            (request.kernel settings policy).attends b j)) ∧
      (∀ grad, memory.biasGrads.pairBias = some grad →
        ∃ grad', after.biasGrads.pairBias = some grad' ∧
        ∀ g < request.shape.biasGroups, ∀ h < request.shape.heads, ∀ i < request.shape.numQueries,
          ∀ j < request.shape.numKeys, ∃ y,
            grad[((g * request.shape.heads + h) * request.shape.numQueries + i) *
              request.shape.numKeys + j]? = some y ∧
            grad'[((g * request.shape.heads + h) * request.shape.numQueries + i) *
              request.shape.numKeys + j]? =
                some (if (request.kernel settings policy).attends i j = true then
                  y + Formula.gradPairBias request settings
                    (request.kernel settings policy).attends g h i j else y)) ∧
      ∀ biasGrads, request.check settings { memory with biasGrads } = .ok () → ∃ after',
        request.launch settings policy { memory with biasGrads } =
          (.ok (request.report settings { memory with biasGrads }), after') ∧
        after'.grads = after.grads ∧ after'.delta = after.delta ∧
        ∀ kind, biasGrads.get kind = memory.biasGrads.get kind →
          after'.biasGrads.get kind = after.biasGrads.get kind := by
  have hAccepted := accepted_of_check hCheck
  have hSize := hAccepted.groupSize_pos
  obtain ⟨after, -, hLaunch, hEffect⟩ := launch_spec hCheck hSums policy
  refine ⟨after, hLaunch, ?_, ?_, ?_⟩
  · intro grad hGrad
    obtain ⟨grad', hGrad', hEntries⟩ := hEffect.biasGrad_entry hAccepted hSums .keyMask hGrad
    refine ⟨grad', hGrad', fun b hb j hj => ?_⟩
    have h := hEntries ⟨b, 0⟩ ⟨hb, hAccepted.heads_pos⟩ 0 hAccepted.numQueries_pos j hj
    simpa only [BiasKind.keyMask_address, Formula.gradBias] using h
  · intro grad hGrad
    obtain ⟨grad', hGrad', hEntries⟩ := hEffect.biasGrad_entry hAccepted hSums .pairBias hGrad
    refine ⟨grad', hGrad', fun g hg h hh i hi j hj => ?_⟩
    have hGroup := Shape.group_within hAccepted.groups hg
    have hBatch : g * request.shape.groupSize < request.shape.batch := by omega
    have hEntry := hEntries ⟨g * request.shape.groupSize, h⟩ ⟨hBatch, hh⟩ i hi j hj
    rw [Shape.address_group hSize] at hEntry
    obtain ⟨y, hOld, hNew⟩ := hEntry
    refine ⟨y, hOld, hNew.trans (congrArg some ?_)⟩
    simp only [Formula.gradBias, Nat.mul_div_cancel _ hSize]
    split
    · rfl
    · rename_i hNot
      rw [Formula.gradPairBias, sum_eq_zero fun n _ => Formula.gradScore_eq_zero hNot, add_zero]
  · intro biasGrads hCheck'
    obtain ⟨after', -, hLaunch', hEffect'⟩ := launch_spec hCheck' hSums policy
    exact ⟨after', hLaunch', hEffect.grads_eq hEffect' rfl rfl, hEffect.delta_eq hEffect' rfl,
      fun kind hKind => hEffect.biasGrads_eq hEffect' hKind⟩

/-- If the first key tile attends to the last query alone, its keys receive the one score gradient of
that query, which is two, and their pairs with other queries receive none. -/
theorem Request.biasGrads_ones :
    (Request.ones .twoTiles).check .smallTiles (.filled .twoTiles 5) = .ok () ∧
      Settings.smallTiles.SumsPass .twoTiles ∧
      ∃ report after, (Request.ones .twoTiles).launch .smallTiles (.ofList 8 [8, 0] 0)
          (.filled .twoTiles 5) = (.ok report, after) ∧
        (∃ grad, after.biasGrads.keyMask = some grad ∧ grad[0]? = some 7) ∧
        (∃ grad, after.biasGrads.pairBias = some grad ∧ grad[0]? = some 5 ∧ grad[8]? = some 7) ∧
        ∃ report' after', (Request.ones .twoTiles).launch .smallTiles (.ofList 8 [8, 0] 0)
            { Memory.filled .twoTiles 5 with biasGrads := ⟨none, none⟩ } = (.ok report', after') ∧
          after'.grads = after.grads ∧ after'.delta = after.delta := by
  refine ⟨check_ones, Settings.sumsPass_smallTiles, ?_⟩
  obtain ⟨after, hLaunch, hMask, hPair, hOthers⟩ :=
    Request.biasGrads_exact check_ones Settings.sumsPass_smallTiles (.ofList 8 [8, 0] 0)
  refine ⟨_, after, hLaunch, ?_, ?_, ?_⟩
  · obtain ⟨grad, hGrad, hEntries⟩ := hMask _ rfl
    obtain ⟨y, hOld, hNew⟩ := hEntries 0 (by decide) 0 (by decide)
    obtain rfl : 5 = y := Option.some.inj hOld
    exact ⟨grad, hGrad, hNew.trans (by decide +kernel)⟩
  · obtain ⟨grad, hGrad, hEntries⟩ := hPair _ rfl
    have hEntry := hEntries 0 (by decide) 0 (by decide) 0 (by decide)
    obtain ⟨y, hOld, hNew⟩ := hEntry 0 (by decide)
    obtain rfl : 5 = y := Option.some.inj hOld
    obtain ⟨y, hOld, hNew'⟩ := hEntry 8 (by decide)
    obtain rfl : 5 = y := Option.some.inj hOld
    exact ⟨grad, hGrad, hNew.trans (by decide +kernel), hNew'.trans (by decide +kernel)⟩
  · obtain ⟨after', hLaunch', hGrads, hDelta, -⟩ := hOthers ⟨none, none⟩
      ((Check.eq_ok_iff_isOk _).mpr (by decide +kernel))
    exact ⟨_, after', hLaunch', hGrads, hDelta⟩

end FusedAttention
