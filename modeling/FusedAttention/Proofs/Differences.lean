import FusedAttention.Dense.Outputs
import FusedAttention.Proofs.Floats

/-! What the largest differences of two results say. The value that is reported for two buffers bounds all
their differences that are numbers, and is one of them. A difference that is not a number is passed
over, so a NaN on one side alone never shows. -/
namespace FusedAttention

/-- The larger of a number and any float is a number. It is at least as large as both, as far as they are
numbers, and one of them. -/
theorem largerFloat_spec {x : Float32} (hx : x.isNaN = false) (y : Float32) :
    (largerFloat x y).isNaN = false ∧ x ≤ largerFloat x y ∧
      (y.isNaN = false → y ≤ largerFloat x y) ∧
      (largerFloat x y = x ∨ y.isNaN = false ∧ largerFloat x y = y) := by
  have hSelf : (x != x) = false := by
    rw [Float32.isNaN_eq_decide_eq_nan, decide_eq_false_iff_not] at hx
    simp [hx]
  by_cases hLess : x < y
  · have hy : y.isNaN = false := (Floats.isNaN_eq_false y).mpr (Floats.read_ne_of_lt hLess).2
    have hLarger : largerFloat x y = y := by simp [largerFloat, hLess]
    rw [hLarger]
    exact ⟨hy, Floats.le_of_lt hLess, fun _ => Floats.le_refl hy, .inr ⟨hy, rfl⟩⟩
  · have hLarger : largerFloat x y = x := by
      unfold largerFloat
      rw [hSelf]
      simp [hLess]
    rw [hLarger]
    exact ⟨hx, Floats.le_refl hx, fun hy => Floats.le_of_not_lt hx hy hLess, .inl rfl⟩

/-- The running maximum over a series of floats, from zero on. It is a number, it bounds all numbers of
the series, and it is one of them or the zero that it starts from. -/
theorem fold_largerFloat {n : Nat} (series : ∀ i < n, Float32) :
    let largest := Nat.fold n (fun i h largest => largerFloat largest (series i h)) 0
    largest.isNaN = false ∧ (∀ i h, (series i h).isNaN = false → series i h ≤ largest) ∧
      (largest = 0 ∨ ∃ i h, (series i h).isNaN = false ∧ largest = series i h) := by
  induction n with
  | zero =>
      have hZero : (0 : Float32).isNaN = false := by decide +kernel
      exact ⟨hZero, fun i h => absurd h (Nat.not_lt_zero i), .inl rfl⟩
  | succ n ih =>
      obtain ⟨hNumber, hBound, hAttained⟩ := ih fun i h => series i (Nat.lt_succ_of_lt h)
      rw [Nat.fold_succ]
      obtain ⟨hNext, hOld, hNew, hOneOf⟩ := largerFloat_spec hNumber (series n (Nat.lt_succ_self n))
      refine ⟨hNext, fun i h hi => ?_, ?_⟩
      · rcases Nat.lt_succ_iff_lt_or_eq.mp h with hBefore | rfl
        · exact Floats.le_trans hi hNumber hNext (hBound i hBefore hi) hOld
        · exact hNew hi
      · rcases hOneOf with hSame | ⟨hn, hTaken⟩
        · rw [hSame]
          rcases hAttained with hZero | ⟨i, h, hi, hTaken⟩
          · exact .inl hZero
          · exact .inr ⟨i, Nat.lt_succ_of_lt h, hi, hTaken⟩
        · exact .inr ⟨n, Nat.lt_succ_self n, hn, hTaken⟩

namespace Outputs

/-- What a value that is reported for two buffers of one length says about them. -/
structure Reports (a b : Array Float32) (d : Float32) : Prop where
  /-- Whatever the buffers hold, a number is reported. -/
  isNumber : d.isNaN = false
  /-- It bounds all differences that are numbers. -/
  bound : ∀ i (ha : i < a.size) (hb : i < b.size), (a[i] - b[i]).isNaN = false → (a[i] - b[i]).abs ≤ d
  /-- It is one of them if there are any. -/
  attained : (∃ i, ∃ (ha : i < a.size) (hb : i < b.size), d = (a[i] - b[i]).abs) ∨
    d = 0 ∧ ∀ i (ha : i < a.size) (hb : i < b.size), (a[i] - b[i]).isNaN = true
  /-- It vanishes only if all entries that differ by a number are equal. -/
  equal : (d == 0) = true → ∀ i (ha : i < a.size) (hb : i < b.size),
    (a[i] - b[i]).isNaN = false → (a[i] == b[i]) = true

theorem largestDifference_reports (a b : Array Float32) : Reports a b (largestDifference a b) := by
  obtain ⟨hNumber, hBound, hAttained⟩ := fold_largerFloat
    fun i (h : i < min a.size b.size) => (a[i] - b[i]).abs
  have hAll : ∀ i (ha : i < a.size) (hb : i < b.size), (a[i] - b[i]).isNaN = false →
      (a[i] - b[i]).abs ≤ largestDifference a b := fun i ha hb h =>
    hBound i (Nat.lt_min.mpr ⟨ha, hb⟩) ((Floats.isNaN_abs _).trans h)
  refine ⟨hNumber, hAll, ?_, fun hZero i ha hb h => ?_⟩
  · rcases hAttained with hZero | ⟨i, h, -, hTaken⟩
    · by_cases hSome : ∃ i, ∃ (ha : i < a.size) (hb : i < b.size), (a[i] - b[i]).isNaN = false
      · obtain ⟨i, ha, hb, h⟩ := hSome
        have hVanishes := Floats.abs_eq_zero h (z := 0) (by decide +kernel) (hZero ▸ hAll i ha hb h)
        exact .inl ⟨i, ha, hb, hZero.trans hVanishes.symm⟩
      · refine .inr ⟨hZero, fun i ha hb => ?_⟩
        by_contra hNot
        exact hSome ⟨i, ha, hb, by simpa using hNot⟩
    · exact .inl ⟨i, (Nat.lt_min.mp h).1, (Nat.lt_min.mp h).2, hTaken⟩
  · exact Floats.beq_of_abs_sub_eq_zero (Floats.abs_eq_zero h hZero (hAll i ha hb h))

/-- Results with the same buffers have the same names in the same order, and buffers of one length under
each. -/
theorem named_eq_of_sizes {x y : Outputs (Array Float32)} (h : x.map Array.size = y.map Array.size) :
    x.named.map (fun p => (p.1, p.2.size)) = y.named.map fun p => (p.1, p.2.size) := by
  have hNamed : ∀ z : Outputs (Array Float32),
      z.named.map (fun p => (p.1, p.2.size)) = (z.map Array.size).named := by
    rintro ⟨⟨gradQ, gradK, gradV⟩, delta, ⟨keyMask, pairBias⟩⟩
    cases keyMask <;> cases pairBias <;> rfl
  rw [hNamed, hNamed, h]

/-- Each buffer has one of its name and length at the same place on the other side. -/
theorem exists_named {x y : Outputs (Array Float32)} (h : x.map Array.size = y.map Array.size) {k : Nat}
    {name : String} {a : Array Float32} (hX : x.named[k]? = some (name, a)) :
    ∃ b, y.named[k]? = some (name, b) ∧ a.size = b.size := by
  have hEntry := congrArg (·[k]?) (named_eq_of_sizes h)
  simp only [List.getElem?_map, hX, Option.map_some] at hEntry
  obtain ⟨⟨name', b⟩, hY, hSame⟩ := Option.map_eq_some_iff.mp hEntry.symm
  obtain ⟨rfl, hSize⟩ := Prod.ext_iff.mp hSame
  exact ⟨b, hY, hSize.symm⟩

/-- The values are reported under the names of the buffers. -/
theorem map_fst_maxAbsDiff {x y : Outputs (Array Float32)} (h : x.map Array.size = y.map Array.size) :
    (x.maxAbsDiff y).map Prod.fst = x.named.map Prod.fst := by
  refine List.ext_getElem? fun k => ?_
  rw [maxAbsDiff, List.getElem?_map, List.getElem?_map, List.getElem?_zipWith]
  cases hX : x.named[k]? with
  | none => rfl
  | some p =>
      obtain ⟨b, hY, -⟩ := exists_named h hX
      rw [hY]
      rfl

/-- Where all differences are numbers, the value that is reported bounds all of them and is one of them,
and no entries differ if it is zero. -/
theorem Reports.of_numbers {a b : Array Float32} {d : Float32} (hReports : Reports a b d)
    (hSize : a.size = b.size)
    (hNumbers : ∀ i (ha : i < a.size) (hb : i < b.size), (a[i] - b[i]).isNaN = false) :
    (∀ i (ha : i < a.size) (hb : i < b.size), (a[i] - b[i]).abs ≤ d) ∧
      (a.size ≠ 0 → ∃ i, ∃ (ha : i < a.size) (hb : i < b.size), d = (a[i] - b[i]).abs) ∧
      (a.size = 0 → d = 0) ∧
      ((d == 0) = true → ∀ i (ha : i < a.size) (hb : i < b.size), (a[i] == b[i]) = true) := by
  refine ⟨fun i ha hb => hReports.bound i ha hb (hNumbers i ha hb), fun hSome => ?_, fun hEmpty => ?_,
    fun hZero i ha hb => hReports.equal hZero i ha hb (hNumbers i ha hb)⟩
  · refine hReports.attained.resolve_right fun hNone => ?_
    have hFirst := hNone.2 0 (by omega) (by omega)
    rw [hNumbers 0 (by omega) (by omega)] at hFirst
    cases hFirst
  · rcases hReports.attained with ⟨i, ha, -⟩ | hNone
    · omega
    · exact hNone.1

/-- For two results with the same buffers and equal lengths, one value is reported for each buffer under
its name. It is never a NaN, it bounds the differences that are numbers and is one of them, or zero if
there are none; and if it is zero then all entries that differ by a number are equal. Where every
difference is a number, all of it holds without exception. A difference is not a number where either
side is a NaN, and where both are the same infinity: such entries are passed over. -/
theorem maxAbsDiff_reports {x y : Outputs (Array Float32)} (h : x.map Array.size = y.map Array.size) :
    (x.maxAbsDiff y).map Prod.fst = x.named.map Prod.fst ∧
    ∀ (k : Nat) (name : String) (a : Array Float32), x.named[k]? = some (name, a) →
      ∃ b d, y.named[k]? = some (name, b) ∧ (x.maxAbsDiff y)[k]? = some (name, d) ∧
        a.size = b.size ∧ Reports a b d ∧
        ((∀ i (ha : i < a.size) (hb : i < b.size), (a[i] - b[i]).isNaN = false) →
          (∀ i (ha : i < a.size) (hb : i < b.size), (a[i] - b[i]).abs ≤ d) ∧
          (a.size ≠ 0 → ∃ i, ∃ (ha : i < a.size) (hb : i < b.size), d = (a[i] - b[i]).abs) ∧
          (a.size = 0 → d = 0) ∧
          ((d == 0) = true → ∀ i (ha : i < a.size) (hb : i < b.size), (a[i] == b[i]) = true)) ∧
        ∀ i (ha : i < a.size) (hb : i < b.size), (a[i] - b[i]).isNaN = true ↔
          a[i].isNaN = true ∨ b[i].isNaN = true ∨ a[i].isInf = true ∧ a[i] = b[i] := by
  refine ⟨map_fst_maxAbsDiff h, fun k name a hX => ?_⟩
  obtain ⟨b, hY, hSize⟩ := exists_named h hX
  have hReports := largestDifference_reports a b
  refine ⟨b, largestDifference a b, hY, ?_, hSize, hReports, hReports.of_numbers hSize,
    fun i ha hb => Floats.isNaN_sub a[i] b[i]⟩
  rw [maxAbsDiff, List.getElem?_zipWith, hX, hY]

/-- A gradient of Q whose first entry is a NaN on one side alone is reported to differ by zero. -/
theorem maxAbsDiff_reports_nan :
    let nan : Float32 := 0 / 0
    let x : Outputs (Array Float32) := ⟨⟨#[nan, 1], #[], #[]⟩, #[], ⟨none, none⟩⟩
    let y : Outputs (Array Float32) := ⟨⟨#[0, 1], #[], #[]⟩, #[], ⟨none, none⟩⟩
    x.map Array.size = y.map Array.size ∧ nan.isNaN = true ∧
      (x.maxAbsDiff y)[0]? = some ("grad_q", 0) := by
  intro nan x y
  obtain ⟨-, hEach⟩ := maxAbsDiff_reports (x := x) (y := y) rfl
  obtain ⟨b, d, hY, hD, -, hReports, -⟩ := hEach 0 "grad_q" #[nan, 1] rfl
  obtain rfl : #[0, 1] = b := congrArg Prod.snd (Option.some.inj hY)
  refine ⟨rfl, by decide +kernel, hD.trans ?_⟩
  suffices hZero : d = 0 by rw [hZero]
  rcases hReports.attained with ⟨i, ha, hb, hTaken⟩ | hNone
  · obtain rfl | rfl : i = 0 ∨ i = 1 := by
      have hTwo : i < 2 := ha
      omega
    · have hNumber := hReports.isNumber
      rw [hTaken] at hNumber
      exact absurd hNumber (show ¬ ((0 / 0 - 0 : Float32).abs.isNaN = false) by decide +kernel)
    · exact hTaken.trans (show ((1 : Float32) - 1).abs = 0 by decide +kernel)
  · exact hNone.1

end Outputs

end FusedAttention
