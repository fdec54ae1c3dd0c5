import FusedAttention.Kernel.Schedule
import FusedAttention.Proofs.BiasEntries
import Mathlib.Data.List.Basic
import Mathlib.Data.List.Nodup

/-! The order in which the units run. The bias gradients that are wanted decide the grouping, but
units that share an entry of one of them are in one group and stay in order. -/
namespace FusedAttention

/-- A list that is split by keys and joined again keeps the order of elements with equal keys. -/
theorem filter_flatten_groups {ι κ : Type} [BEq κ] [LawfulBEq κ] {keys : List κ} (hKeys : keys.Nodup)
    (key : ι → κ) {list : List ι} {p : ι → Bool} {k : κ} (hk : k ∈ keys)
    (hSame : ∀ i ∈ list, p i = true → key i = k) :
    ((keys.map fun k => list.filter (key · == k)).flatten).filter p = list.filter p := by
  have hOther : ∀ k' ≠ k, (list.filter (key · == k')).filter p = [] := by
    intro k' hNe
    rw [List.filter_filter, List.filter_eq_nil_iff]
    intro i hi hBoth
    rw [Bool.and_eq_true, beq_iff_eq] at hBoth
    exact hNe (hBoth.2.symm.trans (hSame i hi hBoth.1))
  have hOwn : (list.filter (key · == k)).filter p = list.filter p := by
    rw [List.filter_filter]
    refine List.filter_congr fun i hi => ?_
    rw [Bool.and_eq_left_iff_imp, beq_iff_eq]
    exact hSame i hi
  induction keys with
  | nil => cases hk
  | cons k' rest ih =>
      obtain ⟨hFresh, hRest⟩ := List.nodup_cons.mp hKeys
      rw [List.map_cons, List.flatten_cons, List.filter_append]
      by_cases hHere : k' = k
      · subst hHere
        have hTail : ((rest.map fun k => list.filter (key · == k)).flatten).filter p = [] := by
          rw [List.filter_flatten, List.map_map, List.flatten_eq_nil_iff]
          intro group hGroup
          obtain ⟨k, hk, rfl⟩ := List.mem_map.mp hGroup
          exact hOther k fun h => hFresh (h ▸ hk)
        rw [hOwn, hTail, List.append_nil]
      · rw [hOther k' hHere, List.nil_append]
        exact ih hRest ((List.mem_cons.mp hk).resolve_left (Ne.symm hHere))

namespace Shape

variable {s : Shape} {u : UnitCoord} {wanted : Biases Bool}

/-- The unit is one of the launch. -/
def HasUnit (s : Shape) (u : UnitCoord) : Prop :=
  u.batchId < s.batch ∧ u.head < s.heads

@[simp] theorem mem_unitCoords : u ∈ s.unitCoords ↔ s.HasUnit u := by
  obtain ⟨batchId, head⟩ := u
  simp only [unitCoords, HasUnit, List.mem_flatMap, List.mem_map, List.mem_range,
    UnitCoord.mk.injEq]
  constructor
  · rintro ⟨b, hb, h, hh, rfl, rfl⟩
    exact ⟨hb, hh⟩
  · rintro ⟨hb, hh⟩
    exact ⟨batchId, hb, head, hh, rfl, rfl⟩

theorem nodup_unitCoords (s : Shape) : s.unitCoords.Nodup := by
  refine List.nodup_flatMap.mpr ⟨fun b _ => ?_, ?_⟩
  · refine List.nodup_range.map ?_
    intro h h' hSame
    exact congrArg UnitCoord.head hSame
  · refine List.nodup_range.imp ?_
    intro b b' hNe u hu hu'
    obtain ⟨h, -, rfl⟩ := List.mem_map.mp hu
    obtain ⟨h', -, hSame⟩ := List.mem_map.mp hu'
    exact hNe (congrArg UnitCoord.batchId hSame).symm

/-- Each unit has its own number. -/
theorem index_inj {u' : UnitCoord} (hu : s.HasUnit u) (hu' : s.HasUnit u')
    (h : u.index s.heads = u'.index s.heads) : u = u' := by
  obtain ⟨batchId, head⟩ := u
  obtain ⟨batchId', head'⟩ := u'
  obtain ⟨rfl, rfl⟩ := mul_add_inj hu.2 hu'.2 h
  rfl

theorem index_lt (hu : s.HasUnit u) : u.index s.heads < s.units :=
  mul_add_lt hu.1 hu.2

/-- Every number below that of all units is the number of one. -/
theorem exists_index {n : Nat} (hn : n < s.units) : ∃ u, s.HasUnit u ∧ u.index s.heads = n := by
  obtain ⟨batchId, hBatch, head, hHead, rfl⟩ := exists_mul_add hn
  exact ⟨⟨batchId, head⟩, ⟨hBatch, hHead⟩, rfl⟩

/-! ### Groups -/

/-- All units in the order in which they run. -/
def order (s : Shape) (wanted : Biases Bool) : List UnitCoord :=
  (s.unitGroups wanted).flatten

theorem nodup_groupKeys (s : Shape) (wanted : Biases Bool) : (s.groupKeys wanted).Nodup := by
  refine List.nodup_flatMap.mpr ⟨fun b _ => ?_, ?_⟩
  · refine List.nodup_range.map ?_
    intro h h' hSame
    exact congrArg Prod.snd hSame
  · refine List.nodup_range.imp ?_
    intro b b' hNe k hk hk'
    obtain ⟨h, -, rfl⟩ := List.mem_map.mp hk
    obtain ⟨h', -, hSame⟩ := List.mem_map.mp hk'
    exact hNe (congrArg Prod.fst hSame).symm

/-- Every unit is in a group. -/
theorem groupKey_mem (hSize : 0 < s.groupSize) (hu : s.HasUnit u) :
    s.groupKey wanted u ∈ s.groupKeys wanted := by
  obtain ⟨pairBias, keyMask⟩ := wanted
  have hBatch := div_lt_chunksOf hSize hu.1
  have hHeads : 0 < min 1 s.heads := by
    have := hu.2
    omega
  simp only [groupKey, groupKeys, List.mem_flatMap, List.mem_map, List.mem_range]
  refine ⟨_, ?_, _, ?_, rfl⟩
  · split
    · exact hBatch
    · exact hu.1
  · split
    · exact hHeads
    · exact hu.2

/-- Units of one group run in the order of their coordinates. -/
theorem filter_order (hSize : 0 < s.groupSize) (hu : s.HasUnit u) {p : UnitCoord → Bool}
    (hSame : ∀ u', s.HasUnit u' → p u' = true → s.groupKey wanted u' = s.groupKey wanted u) :
    (s.order wanted).filter p = s.unitCoords.filter p :=
  filter_flatten_groups (s.nodup_groupKeys wanted) (s.groupKey wanted) (groupKey_mem hSize hu)
    fun u' hu' => hSame u' (mem_unitCoords.mp hu')

/-- Every unit runs exactly once. -/
theorem filter_order_eq (hSize : 0 < s.groupSize) (hu : s.HasUnit u) :
    (s.order wanted).filter (· == u) = [u] := by
  rw [filter_order hSize hu fun u' _ h => by rw [beq_iff_eq.mp h]]
  rw [List.filter_beq, List.count_eq_one_of_mem s.nodup_unitCoords (mem_unitCoords.mpr hu)]
  rfl

theorem hasUnit_of_mem_order (h : u ∈ s.order wanted) : s.HasUnit u := by
  obtain ⟨group, hGroup, hu⟩ := List.mem_flatten.mp h
  obtain ⟨k, -, rfl⟩ := List.mem_map.mp hGroup
  exact mem_unitCoords.mp (List.mem_filter.mp hu).1

theorem mem_order (hSize : 0 < s.groupSize) : u ∈ s.order wanted ↔ s.HasUnit u := by
  constructor
  · exact hasUnit_of_mem_order
  · intro hu
    have hOwn : u ∈ (s.order wanted).filter (· == u) := by
      rw [filter_order_eq hSize hu]
      exact List.mem_cons_self
    exact (List.mem_filter.mp hOwn).1

theorem nodup_order (hSize : 0 < s.groupSize) (wanted : Biases Bool) :
    (s.order wanted).Nodup := by
  rw [List.nodup_iff_count_eq_one]
  intro u hu
  rw [List.count_eq_countP, List.countP_eq_length_filter,
    filter_order_eq hSize (hasUnit_of_mem_order hu), List.length_singleton]

/-- The groups are told apart by their keys. -/
theorem pairwise_unitGroups (s : Shape) (wanted : Biases Bool) :
    (s.unitGroups wanted).Pairwise fun group group' =>
      ∀ u ∈ group, ∀ u' ∈ group', s.groupKey wanted u ≠ s.groupKey wanted u' := by
  refine List.pairwise_map.mpr ((s.nodup_groupKeys wanted).imp ?_)
  intro key key' hOther u hu u' hu' hSame
  obtain ⟨-, hKey⟩ := List.mem_filter.mp hu
  obtain ⟨-, hKey'⟩ := List.mem_filter.mp hu'
  rw [beq_iff_eq] at hKey hKey'
  exact hOther (hKey.symm.trans (hSame.trans hKey'))

end Shape

/-! ### Shared entries -/

namespace BiasKind

variable {kind : BiasKind} {s : Shape} {u u' : UnitCoord}

/-- The part of a bias that a unit meets: the row of its batch, or the plane of its group and
head. -/
def part : BiasKind → Shape → UnitCoord → Nat × Nat
  | .keyMask, _, u => (u.batchId, 0)
  | .pairBias, s, u => (u.batchId / s.groupSize, u.head)

/-- Units meet the same entry just if they meet the same part of the bias. -/
theorem address_eq_iff (hu : u.head < s.heads) (hu' : u'.head < s.heads) {query key query' key' : Nat}
    (hQuery : query < s.numQueries) (hQuery' : query' < s.numQueries) (hKey : key < s.numKeys)
    (hKey' : key' < s.numKeys) :
    kind.address s u query key = kind.address s u' query' key' ↔
      kind.part s u = kind.part s u' ∧ key = key' ∧ (kind = .pairBias → query = query') := by
  cases kind with
  | keyMask =>
      simp only [address, unitOffset, queryStride, part, Nat.mul_zero, Nat.add_zero, Prod.mk.injEq,
        and_true, reduceCtorEq, false_implies]
      constructor
      · exact mul_add_inj hKey hKey'
      · rintro ⟨hBatch, rfl⟩
        rw [hBatch]
  | pairBias =>
      simp only [address, unitOffset, queryStride, part, Shape.scoresPerHead, Prod.mk.injEq,
        true_implies]
      constructor
      · intro h
        rw [Nat.add_assoc, Nat.add_assoc] at h
        obtain ⟨hPlane, hRow⟩ := mul_add_inj (mul_add_lt hQuery hKey) (mul_add_lt hQuery' hKey') h
        obtain ⟨hSame, hSameKey⟩ := mul_add_inj hKey hKey' hRow
        exact ⟨mul_add_inj hu hu' hPlane, hSameKey, hSame⟩
      · rintro ⟨⟨hGroup, hHead⟩, rfl, rfl⟩
        rw [hGroup, hHead]

/-- Units that meet one entry of a bias gradient that is wanted are in one group. -/
theorem groupKey_eq {wanted : Biases Bool} (hWanted : wanted.get kind = true)
    (hPart : kind.part s u = kind.part s u') : s.groupKey wanted u = s.groupKey wanted u' := by
  obtain ⟨keyMask, pairBias⟩ := wanted
  cases kind with
  | keyMask =>
      obtain rfl : keyMask = true := hWanted
      obtain ⟨hBatch, -⟩ := Prod.mk.inj hPart
      simp only [Shape.groupKey, hBatch, if_true]
  | pairBias =>
      obtain rfl : pairBias = true := hWanted
      obtain ⟨hGroup, hHead⟩ := Prod.mk.inj hPart
      simp only [Shape.groupKey, hGroup, hHead, if_true]

end BiasKind

end FusedAttention
