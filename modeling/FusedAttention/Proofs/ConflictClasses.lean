import Mathlib
import FusedAttention.Proofs.Grouping

/-! The groups of units are the classes of units that are joined by chains of conflicts. Two units
conflict if they write a common entry of a bias gradient that is wanted. -/
namespace FusedAttention

namespace BiasKind

/-- Entries of a bias that one unit meets. -/
def unitEntries : BiasKind → Shape → Nat
  | .keyMask, s => s.numKeys
  | .pairBias, s => s.scoresPerHead

/-- Where the entries that one unit meets lie in a bias, and in its gradient. -/
def places (kind : BiasKind) (s : Shape) (u : UnitCoord) : Set Nat :=
  Set.Ico (kind.unitOffset s u) (kind.unitOffset s u + kind.unitEntries s)

variable {kind : BiasKind} {s : Shape} {u u' : UnitCoord}

/-- They are the entries of all queries and keys of the unit. -/
theorem mem_places (hQueries : 0 < s.numQueries) {place : Nat} : place ∈ kind.places s u ↔
    ∃ query < s.numQueries, ∃ key < s.numKeys, kind.address s u query key = place := by
  rw [places, Set.mem_Ico]
  cases kind with
  | keyMask =>
      simp only [address, unitEntries, queryStride, Nat.mul_zero, Nat.add_zero]
      constructor
      · rintro ⟨hLow, hHigh⟩
        exact ⟨0, hQueries, place - keyMask.unitOffset s u, by omega, by omega⟩
      · rintro ⟨-, -, key, hKey, rfl⟩
        exact ⟨Nat.le_add_right _ _, Nat.add_lt_add_left hKey _⟩
  | pairBias =>
      simp only [address, unitEntries, queryStride, Shape.scoresPerHead]
      constructor
      · rintro ⟨hLow, hHigh⟩
        obtain ⟨query, hQuery, key, hKey, hPlace⟩ := exists_mul_add
          (show place - pairBias.unitOffset s u < s.numQueries * s.numKeys by omega)
        exact ⟨query, hQuery, key, hKey, by omega⟩
      · rintro ⟨query, hQuery, key, hKey, rfl⟩
        have hEntry := mul_add_lt hQuery hKey
        omega

/-- Units meet a common entry just if they meet the same part of the bias. -/
theorem nonempty_inter_places (hQueries : 0 < s.numQueries) (hKeys : 0 < s.numKeys)
    (hu : u.head < s.heads) (hu' : u'.head < s.heads) :
    (kind.places s u ∩ kind.places s u').Nonempty ↔ kind.part s u = kind.part s u' := by
  constructor
  · rintro ⟨place, hPlace, hPlace'⟩
    obtain ⟨query, hQuery, key, hKey, rfl⟩ := (mem_places hQueries).mp hPlace
    obtain ⟨query', hQuery', key', hKey', hSame⟩ := (mem_places hQueries).mp hPlace'
    exact ((address_eq_iff hu hu' hQuery hQuery' hKey hKey').mp hSame.symm).1
  · intro hPart
    have hSame := (address_eq_iff hu hu' hQueries hQueries hKeys hKeys).mpr ⟨hPart, rfl, fun _ => rfl⟩
    exact ⟨_, (mem_places hQueries).mpr ⟨0, hQueries, 0, hKeys, rfl⟩,
      (mem_places hQueries).mpr ⟨0, hQueries, 0, hKeys, hSame.symm⟩⟩

end BiasKind

namespace Shape

variable {s : Shape} {wanted : Biases Bool} {u u' : UnitCoord} {group : List UnitCoord}

/-- Two units of a launch write a common entry of a bias gradient that is wanted. -/
def Conflict (s : Shape) (wanted : Biases Bool) (u u' : UnitCoord) : Prop :=
  s.HasUnit u ∧ s.HasUnit u' ∧
    ∃ kind : BiasKind, wanted.get kind = true ∧ (kind.places s u ∩ kind.places s u').Nonempty

/-! ### Chains of conflicts -/

section Chains

variable (hQueries : 0 < s.numQueries) (hKeys : 0 < s.numKeys)

include hQueries hKeys

theorem Conflict.groupKey_eq (h : s.Conflict wanted u u') :
    s.groupKey wanted u = s.groupKey wanted u' := by
  obtain ⟨hu, hu', kind, hWanted, hCommon⟩ := h
  exact BiasKind.groupKey_eq hWanted
    ((BiasKind.nonempty_inter_places hQueries hKeys hu.2 hu'.2).mp hCommon)

theorem conflict_of_part (kind : BiasKind) (hu : s.HasUnit u) (hu' : s.HasUnit u')
    (hWanted : wanted.get kind = true) (hPart : kind.part s u = kind.part s u') :
    s.Conflict wanted u u' :=
  ⟨hu, hu', kind, hWanted, (BiasKind.nonempty_inter_places hQueries hKeys hu.2 hu'.2).mpr hPart⟩

/-- Units with the same key are joined over the unit of the first one's batch and the second one's
head: the key mask leads from head to head, the pair bias from batch to batch. -/
theorem chain_of_groupKey_eq (hu : s.HasUnit u) (hu' : s.HasUnit u')
    (hKey : s.groupKey wanted u = s.groupKey wanted u') :
    Relation.ReflTransGen (s.Conflict wanted) u u' := by
  obtain ⟨keyMask, pairBias⟩ := wanted
  obtain ⟨batchId, head⟩ := u
  obtain ⟨batchId', head'⟩ := u'
  obtain ⟨hBatch, hHead⟩ := Prod.mk.inj hKey
  have hBetween : s.HasUnit ⟨batchId, head'⟩ := ⟨hu.1, hu'.2⟩
  have hHeads :
      Relation.ReflTransGen (s.Conflict ⟨keyMask, pairBias⟩) ⟨batchId, head⟩ ⟨batchId, head'⟩ := by
    cases keyMask with
    | true => exact .single (conflict_of_part hQueries hKeys .keyMask hu hBetween rfl rfl)
    | false =>
        obtain rfl : head = head' := hHead
        exact .refl
  have hBatches :
      Relation.ReflTransGen (s.Conflict ⟨keyMask, pairBias⟩) ⟨batchId, head'⟩ ⟨batchId', head'⟩ := by
    cases pairBias with
    | true =>
        have hPart : BiasKind.pairBias.part s ⟨batchId, head'⟩ = BiasKind.pairBias.part s ⟨batchId', head'⟩ :=
          congrArg (·, head') hBatch
        exact .single (conflict_of_part hQueries hKeys .pairBias hBetween hu' rfl hPart)
    | false =>
        obtain rfl : batchId = batchId' := hBatch
        exact .refl
  exact hHeads.trans hBatches

theorem groupKey_eq_iff (hu : s.HasUnit u) (hu' : s.HasUnit u') :
    s.groupKey wanted u = s.groupKey wanted u' ↔ Relation.ReflTransGen (s.Conflict wanted) u u' := by
  constructor
  · exact chain_of_groupKey_eq hQueries hKeys hu hu'
  · intro hChain
    clear hu'
    induction hChain with
    | refl => rfl
    | tail _ hLast ih => exact ih.trans (hLast.groupKey_eq hQueries hKeys)

end Chains

/-! ### Groups -/

theorem mem_unitGroups : group ∈ s.unitGroups wanted ↔
    ∃ key ∈ s.groupKeys wanted, group = s.unitCoords.filter (s.groupKey wanted · == key) := by
  simp only [unitGroups, List.mem_map, eq_comm]

/-- A group has all units with the key of one of them. -/
theorem mem_group_iff (hGroup : group ∈ s.unitGroups wanted) (hu : u ∈ group) :
    u' ∈ group ↔ s.HasUnit u' ∧ s.groupKey wanted u = s.groupKey wanted u' := by
  obtain ⟨key, -, rfl⟩ := mem_unitGroups.mp hGroup
  obtain ⟨-, hKey⟩ := List.mem_filter.mp hu
  rw [List.mem_filter, mem_unitCoords, beq_iff_eq, beq_iff_eq.mp hKey, eq_comm (a := key)]

theorem exists_group_iff (hSize : 0 < s.groupSize) (hu : s.HasUnit u) (hu' : s.HasUnit u') :
    (∃ group ∈ s.unitGroups wanted, u ∈ group ∧ u' ∈ group) ↔
      s.groupKey wanted u = s.groupKey wanted u' := by
  constructor
  · rintro ⟨group, hGroup, hIn, hIn'⟩
    exact ((mem_group_iff hGroup hIn).mp hIn').2
  · intro hKey
    have hListed : u ∈ (s.unitGroups wanted).flatten := (mem_order hSize).mpr hu
    obtain ⟨group, hGroup, hIn⟩ := List.mem_flatten.mp hListed
    exact ⟨group, hGroup, hIn, (mem_group_iff hGroup hIn).mpr ⟨hu', hKey⟩⟩

/-- There is a unit for every key. -/
theorem exists_of_mem_groupKeys (hSize : 0 < s.groupSize) {key : Nat × Nat}
    (hKey : key ∈ s.groupKeys wanted) : ∃ u, s.HasUnit u ∧ s.groupKey wanted u = key := by
  obtain ⟨keyMask, pairBias⟩ := wanted
  simp only [groupKeys, List.mem_flatMap, List.mem_map, List.mem_range] at hKey
  obtain ⟨keyBatch, hBatch, keyHead, hHead, rfl⟩ := hKey
  have hSomeBatch : ∃ batchId < s.batch,
      (if pairBias then batchId / s.groupSize else batchId) = keyBatch := by
    cases pairBias with
    | true =>
        exact ⟨keyBatch * s.groupSize, (lt_chunksOf_iff hSize).mp hBatch, Nat.mul_div_cancel _ hSize⟩
    | false => exact ⟨keyBatch, hBatch, rfl⟩
  have hSomeHead : ∃ head < s.heads, (if keyMask then 0 else head) = keyHead := by
    cases keyMask with
    | true =>
        have hFirst : keyHead < min 1 s.heads := hHead
        exact ⟨0, by omega, show 0 = keyHead by omega⟩
    | false => exact ⟨keyHead, hHead, rfl⟩
  obtain ⟨batchId, hUnitBatch, rfl⟩ := hSomeBatch
  obtain ⟨head, hUnitHead, rfl⟩ := hSomeHead
  exact ⟨⟨batchId, head⟩, ⟨hUnitBatch, hUnitHead⟩, rfl⟩

theorem ne_nil_of_mem_unitGroups (hSize : 0 < s.groupSize) (hGroup : group ∈ s.unitGroups wanted) :
    group ≠ [] := by
  obtain ⟨key, hKey, rfl⟩ := mem_unitGroups.mp hGroup
  obtain ⟨u, hu, hSame⟩ := exists_of_mem_groupKeys hSize hKey
  exact List.ne_nil_of_mem (List.mem_filter.mpr ⟨mem_unitCoords.mpr hu, beq_iff_eq.mpr hSame⟩)

/-- Units come by batch, and by head within a batch. -/
theorem pairwise_unitCoords (s : Shape) : s.unitCoords.Pairwise fun u u' =>
    u.batchId < u'.batchId ∨ u.batchId = u'.batchId ∧ u.head < u'.head := by
  rw [unitCoords, List.pairwise_flatMap]
  constructor
  · intro batchId _
    exact List.pairwise_map.mpr (List.pairwise_lt_range.imp fun hLess => .inr ⟨rfl, hLess⟩)
  · refine List.pairwise_lt_range.imp fun {batchId batchId'} hLess u hu u' hu' => ?_
    obtain ⟨_, -, rfl⟩ := List.mem_map.mp hu
    obtain ⟨_, -, rfl⟩ := List.mem_map.mp hu'
    exact .inl hLess

/-- A chain from a set to the outside has a conflict that leaves the set. -/
theorem exists_conflict_leaving (part : Set UnitCoord) (hIn : u ∈ part) (hOut : u' ∉ part)
    (hChain : Relation.ReflTransGen (s.Conflict wanted) u u') :
    ∃ v w, Relation.ReflTransGen (s.Conflict wanted) u v ∧ s.Conflict wanted v w ∧ v ∈ part ∧ w ∉ part := by
  induction hChain with
  | refl => exact absurd hIn hOut
  | @tail v w hBefore hLast ih =>
      by_cases hv : v ∈ part
      · exact ⟨v, w, hBefore, hLast, hv, hOut⟩
      · exact ih hv

theorem hasUnit_of_mem_group (hGroup : group ∈ s.unitGroups wanted) (hu : u ∈ group) : s.HasUnit u :=
  hasUnit_of_mem_order (List.mem_flatten_of_mem hGroup hu)

section Exact

variable (hQueries : 0 < s.numQueries) (hKeys : 0 < s.numKeys)

include hQueries hKeys

/-- Units of different groups write no common entry. -/
theorem pairwise_disjoint_unitGroups (wanted : Biases Bool) :
    (s.unitGroups wanted).Pairwise fun group group' =>
      ∀ u ∈ group, ∀ u' ∈ group', ∀ kind : BiasKind, wanted.get kind = true →
        Disjoint (kind.places s u) (kind.places s u') := by
  refine (s.pairwise_unitGroups wanted).imp_of_mem ?_
  intro group group' hGroup hGroup' hOther u hu u' hu' kind hWanted
  by_contra hCommon
  exact hOther u hu u' hu' (Conflict.groupKey_eq hQueries hKeys ⟨hasUnit_of_mem_group hGroup hu,
    hasUnit_of_mem_group hGroup' hu', kind, hWanted, Set.not_disjoint_iff_nonempty_inter.mp hCommon⟩)

/-- A group that is split has a conflict across the split. -/
theorem exists_conflict_across (hGroup : group ∈ s.unitGroups wanted) (part : Set UnitCoord)
    (hIn : ∃ u ∈ group, u ∈ part) (hOut : ∃ u ∈ group, u ∉ part) :
    ∃ u ∈ group, ∃ u' ∈ group, u ∈ part ∧ u' ∉ part ∧ s.Conflict wanted u u' := by
  obtain ⟨u, hu, hPart⟩ := hIn
  obtain ⟨u', hu', hRest⟩ := hOut
  obtain ⟨hUnit', hKey⟩ := (mem_group_iff hGroup hu).mp hu'
  have hUnit := hasUnit_of_mem_group hGroup hu
  obtain ⟨v, w, hChain, hConflict, hv, hw⟩ := exists_conflict_leaving part hPart hRest
    (chain_of_groupKey_eq hQueries hKeys hUnit hUnit' hKey)
  have hFirst := (groupKey_eq_iff hQueries hKeys hUnit hConflict.1).mpr hChain
  have hSecond := hFirst.trans (hConflict.groupKey_eq hQueries hKeys)
  exact ⟨v, (mem_group_iff hGroup hu).mpr ⟨hConflict.1, hFirst⟩, w,
    (mem_group_iff hGroup hu).mpr ⟨hConflict.2.1, hSecond⟩, hv, hw, hConflict⟩

end Exact

/-- The units of a launch are split into groups without gaps and without repetitions. Two units are in one
group just if they are joined by a chain of units in which neighbours write a common entry of a wanted bias
gradient. So different groups write disjoint parts of these gradients, and every way to split a group
separates two units that write a common entry. In a group the units come by batch and by head. -/
theorem unitGroups_exact (s : Shape) (wanted : Biases Bool) (hQueries : 0 < s.numQueries)
    (hKeys : 0 < s.numKeys) (hSize : 0 < s.groupSize) :
    let groups := s.unitGroups wanted
    s.unitGroups? wanted = .ok groups ∧
    (∀ u, groups.flatten.count u = if u.batchId < s.batch ∧ u.head < s.heads then 1 else 0) ∧
    (∀ u u', s.HasUnit u → s.HasUnit u' →
      ((∃ group ∈ groups, u ∈ group ∧ u' ∈ group) ↔
        Relation.ReflTransGen (s.Conflict wanted) u u')) ∧
    (groups.Pairwise fun group group' => ∀ u ∈ group, ∀ u' ∈ group', ∀ kind : BiasKind,
      wanted.get kind = true → Disjoint (kind.places s u) (kind.places s u')) ∧
    ∀ group ∈ groups, group ≠ [] ∧
      (∀ part : Set UnitCoord, (∃ u ∈ group, u ∈ part) → (∃ u ∈ group, u ∉ part) →
        ∃ u ∈ group, ∃ u' ∈ group, u ∈ part ∧ u' ∉ part ∧ s.Conflict wanted u u') ∧
      group.Pairwise fun u u' => u.batchId < u'.batchId ∨ u.batchId = u'.batchId ∧ u.head < u'.head := by
  intro groups
  refine ⟨if_neg fun h => Nat.ne_of_gt hSize h.2.1, fun u => ?once, fun u u' hu hu' => ?classes,
    pairwise_disjoint_unitGroups hQueries hKeys wanted, fun group hGroup =>
      ⟨ne_nil_of_mem_unitGroups hSize hGroup, exists_conflict_across hQueries hKeys hGroup, ?sorted⟩⟩
  case once =>
    split
    · rename_i hu
      exact List.count_eq_one_of_mem (nodup_order hSize wanted) ((mem_order hSize).mpr hu)
    · rename_i hNone
      exact List.count_eq_zero_of_not_mem (mt (mem_order hSize).mp hNone)
  case classes =>
    rw [exists_group_iff hSize hu hu', groupKey_eq_iff hQueries hKeys hu hu']
  case sorted =>
    obtain ⟨key, -, rfl⟩ := mem_unitGroups.mp hGroup
    exact s.pairwise_unitCoords.filter _

/-- Four batches of two heads, of which two batches share a pair bias. If both gradients are wanted the
heads of two batches are one group: the last head of the first batch and the first head of the second
write no common entry, but each writes one with a unit between them. -/
theorem unitGroups_exact_twoHeads :
    let s : Shape := ⟨4, 2, 1, 3, 1, 1, 2⟩
    let wanted : Biases Bool := ⟨true, true⟩
    0 < s.numQueries ∧ 0 < s.numKeys ∧ 0 < s.groupSize ∧
      s.unitGroups wanted =
        [[⟨0, 0⟩, ⟨0, 1⟩, ⟨1, 0⟩, ⟨1, 1⟩], [⟨2, 0⟩, ⟨2, 1⟩, ⟨3, 0⟩, ⟨3, 1⟩]] ∧
      Relation.ReflTransGen (s.Conflict wanted) ⟨0, 1⟩ ⟨1, 0⟩ := by
  intro s wanted
  have hGroups : s.unitGroups wanted =
      [[⟨0, 0⟩, ⟨0, 1⟩, ⟨1, 0⟩, ⟨1, 1⟩], [⟨2, 0⟩, ⟨2, 1⟩, ⟨3, 0⟩, ⟨3, 1⟩]] := by
    decide
  obtain ⟨-, -, hClasses, -⟩ := unitGroups_exact s wanted (by decide) (by decide) (by decide)
  refine ⟨by decide, by decide, by decide, hGroups, ?_⟩
  exact (hClasses ⟨0, 1⟩ ⟨1, 0⟩ (by unfold HasUnit; decide) (by unfold HasUnit; decide)).mp
    ⟨_, hGroups ▸ List.mem_cons_self, by decide, by decide⟩

end Shape

end FusedAttention
