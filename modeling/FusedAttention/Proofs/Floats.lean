import Mathlib

/-! 32-bit floats as numbers. A float is read as a sign, a mantissa and an exponent; the comparisons of two
floats are those of a linear order then, and a difference of two floats is zero just if they are equal,
since the smallest exponent leaves nothing to be rounded away. -/
namespace FusedAttention.Floats

open Float.Model (Format UnpackedFloat totalExponent)
open Float.Model.UnpackedFloat

/-- What the bits of a float stand for. -/
def read (x : Float32) : UnpackedFloat :=
  x.toModel.unpack

theorem read_inj {x y : Float32} : read x = read y ↔ x = y := by
  rw [← Float32.toBits_inj, ← UInt32.toBitVec_inj]
  exact unpack_inj_of_valid x.toModel.valid y.toModel.valid

theorem isNaN_iff_read (x : Float32) : x.isNaN = true ↔ read x = .notANumber :=
  isNaN_iff

@[simp] theorem read_zero : read 0 = .zero .positive :=
  @unpack_packedZero Format.binary32 .positive

/-! ### Order -/

/-- The place of a number among all numbers; both zeros have the same. -/
def rank : UnpackedFloat → ℤ ×ₗ ℤ ×ₗ ℤ
  | .notANumber => toLex (0, toLex (0, 0))
  | .infinity .negative => toLex (-2, toLex (0, 0))
  | .finite .negative m e _ => toLex (-1, toLex (-e, -m))
  | .zero _ => toLex (0, toLex (0, 0))
  | .finite .positive m e _ => toLex (1, toLex (e, m))
  | .infinity .positive => toLex (2, toLex (0, 0))

/-- Exponents decide first, then mantissas. -/
theorem then_compares {β : Type} [Preorder β] {e e' : ℤ} {m m' : ℕ} {x y : β}
    (hLt : e < e' ∨ e = e' ∧ m < m' → x < y) (hEq : e = e' → m = m' → x = y)
    (hGt : e' < e ∨ e = e' ∧ m' < m → y < x) :
    ((compare e e').then (compare m m')).Compares x y := by
  rcases lt_trichotomy e e' with h | rfl | h
  · rw [compare_lt_iff_lt.mpr h]
    exact hLt (.inl h)
  · rw [compare_eq_iff_eq.mpr rfl]
    rcases lt_trichotomy m m' with h | rfl | h
    · rw [compare_lt_iff_lt.mpr h]
      exact hLt (.inr ⟨rfl, h⟩)
    · rw [compare_eq_iff_eq.mpr rfl]
      exact hEq rfl rfl
    · rw [compare_gt_iff_gt.mpr h]
      exact hGt (.inr ⟨rfl, h⟩)
  · rw [compare_gt_iff_gt.mpr h]
    exact hGt (.inl h)

/-- Numbers are compared by their places. -/
theorem compare_eq {u v : UnpackedFloat} (hu : u ≠ .notANumber) (hv : v ≠ .notANumber) :
    ∃ order : Ordering, u.compare v = some order ∧ order.Compares (rank u) (rank v) := by
  rcases u with (_ | _) | _ | _ | ⟨_ | _, m, e, hm⟩ <;>
    rcases v with (_ | _) | _ | _ | ⟨_ | _, m', e', hm'⟩ <;> try contradiction
  case finite.negative.finite.negative =>
    refine ⟨_, rfl, Ordering.compares_swap.mpr (then_compares ?_ ?_ ?_)⟩ <;>
      simp [rank, Prod.Lex.toLex_lt_toLex] <;> omega
  case finite.positive.finite.positive =>
    refine ⟨_, rfl, then_compares ?_ ?_ ?_⟩ <;> simp [rank, Prod.Lex.toLex_lt_toLex] <;> omega
  all_goals
    refine ⟨_, rfl, ?_⟩
    first
    | exact (rfl : rank _ = rank _)
    | exact Prod.Lex.toLex_lt_toLex.mpr (.inl (by simp))

theorem lt_iff {x y : Float32} (hx : read x ≠ .notANumber) (hy : read y ≠ .notANumber) :
    x < y ↔ rank (read x) < rank (read y) := by
  obtain ⟨order, hOrder, hCompares⟩ := compare_eq hx hy
  show (decide ((read x).lt (read y) = true)) = true ↔ _
  rw [decide_eq_true_iff, UnpackedFloat.lt, hOrder, ← hCompares.eq_lt]
  cases order <;> decide

theorem le_iff {x y : Float32} (hx : read x ≠ .notANumber) (hy : read y ≠ .notANumber) :
    x ≤ y ↔ rank (read x) ≤ rank (read y) := by
  obtain ⟨order, hOrder, hCompares⟩ := compare_eq hx hy
  show (decide ((read x).le (read y) = true)) = true ↔ _
  rw [decide_eq_true_iff, UnpackedFloat.le, hOrder, ← not_lt, ← hCompares.eq_gt]
  cases order <;> decide

/-- Nothing is less than what is not a number, nor the other way around. -/
theorem read_ne_of_lt {x y : Float32} (h : x < y) : read x ≠ .notANumber ∧ read y ≠ .notANumber := by
  have h : (decide ((read x).lt (read y) = true)) = true := h
  rw [decide_eq_true_iff] at h
  constructor
  · intro hx
    rw [hx] at h
    cases h
  · intro hy
    rw [hy] at h
    revert h
    cases read x <;> exact nofun

/-! ### Absolute values -/

theorem unpack_pack_unpack (b : BitVec Format.binary32.numBits) :
    unpack Format.binary32 (pack Format.binary32 (unpack Format.binary32 b)) =
      unpack Format.binary32 b := by
  rw [pack_unpack]
  split
  · rename_i hNaN
    rw [isNaNBits, decide_eq_true_iff] at hNaN
    rw [unpack_packedNaN, unpack]
    simp [hNaN.1, hNaN.2]
  · rfl

/-- The absolute value of a float clears its sign. -/
@[simp] theorem read_abs (x : Float32) : read x.abs = (read x).abs := by
  have hCleared : ∀ b : BitVec Format.binary32.numBits, (unpack Format.binary32 b).abs =
      unpack Format.binary32
        (packComponents Format.binary32 .positive (unpackExponent b) (unpackMantissa b)) := by
    intro b
    simp only [unpack, unpackExponent_packComponents, unpackMantissa_packComponents,
      unpackSign_packComponents, Sign.ofBitVec_toBitVec]
    split
    · split <;> rfl
    · split
      · split <;> rfl
      · rfl
  show unpack _ (pack _ (unpack Format.binary32 x.toModel.toBits.toBitVec).abs) =
    (unpack Format.binary32 x.toModel.toBits.toBitVec).abs
  rw [hCleared, unpack_pack_unpack]

theorem abs_eq_notANumber (u : UnpackedFloat) : u.abs = .notANumber ↔ u = .notANumber := by
  cases u <;> simp [UnpackedFloat.abs]

/-- Nothing but a zero has an absolute value of at most zero. -/
theorem eq_zero_of_rank_abs_le {u : UnpackedFloat} (hu : u ≠ .notANumber)
    (h : rank u.abs ≤ rank (.zero .positive)) : ∃ sign, u = .zero sign := by
  rcases u with (_ | _) | _ | sign | ⟨_ | _, m, e, hm⟩
  case notANumber => contradiction
  case zero => exact ⟨sign, rfl⟩
  all_goals exact absurd h (not_le_of_gt (Prod.Lex.toLex_lt_toLex.mpr (.inl (by simp))))

/-! ### Differences -/

section Packing

variable {sign : Sign} {exponent : BitVec Format.binary32.exponentBits}
  {mantissa : BitVec Format.binary32.mantissaBitsWithoutImplicit}

theorem unpack_packComponents_ne_notANumber (h : exponent ≠ -1#_ ∨ mantissa = 0#_) :
    unpack Format.binary32 (packComponents Format.binary32 sign exponent mantissa) ≠ .notANumber := by
  simp only [unpack, unpackExponent_packComponents, unpackMantissa_packComponents]
  split
  · rename_i hExponent
    rw [if_pos (h.resolve_left fun hNot => hNot hExponent)]
    exact nofun
  · split
    · split <;> exact nofun
    · exact nofun

theorem unpack_packComponents_ne_zero (h : exponent ≠ 0#_ ∨ mantissa ≠ 0#_) (sign' : Sign) :
    unpack Format.binary32 (packComponents Format.binary32 sign exponent mantissa) ≠ .zero sign' := by
  simp only [unpack, unpackExponent_packComponents, unpackMantissa_packComponents]
  split
  · split <;> exact nofun
  · split
    · rename_i hExponent
      rw [dif_neg (h.resolve_left fun hNot => hNot hExponent)]
      exact nofun
    · exact nofun

end Packing

/-- What is packed is not a number only if it was none before. -/
theorem unpack_pack_eq_notANumber (u : UnpackedFloat) :
    unpack Format.binary32 (pack Format.binary32 u) = .notANumber ↔ u = .notANumber := by
  refine ⟨fun h => ?_, by rintro rfl; exact unpack_packedNaN⟩
  by_contra hNot
  revert h
  fun_cases pack Format.binary32 u with
  | case1 => exact absurd rfl hNot
  | case2 sign => exact unpack_packComponents_ne_notANumber (.inr rfl)
  | case3 sign => exact unpack_packComponents_ne_notANumber (.inr rfl)
  | case4 sign m e hm biased hOverflow => exact unpack_packComponents_ne_notANumber (.inr rfl)
  | case5 sign m e hm bits biased hFits hNormal =>
      refine unpack_packComponents_ne_notANumber (.inl fun h => ?_)
      have h := congrArg BitVec.toNat h
      rw [BitVec.toNat_ofNat] at h
      have hLt : biased % 2 ^ 8 = 255 := h
      have hLe : ¬ 2 ^ 8 ≤ biased + 1 := hFits
      omega
  | case6 sign m e hm bits biased hFits hNormal =>
      exact unpack_packComponents_ne_notANumber (.inl (by decide))

/-- A value is not zero, and if it is a finite number, then it has its place among the floats. -/
def IsPlaced : UnpackedFloat → Prop
  | .zero _ => False
  | .finite _ m e _ => m < 2 ^ 24 ∧ -149 ≤ e
  | .notANumber | .infinity _ => True

/-- A value that has its place is not packed as a zero. -/
theorem unpack_pack_ne_zero {u : UnpackedFloat} (h : IsPlaced u) (sign : Sign) :
    unpack Format.binary32 (pack Format.binary32 u) ≠ .zero sign := by
  cases u with
  | zero => cases h
  | notANumber =>
      rw [pack, unpack_packedNaN]
      exact nofun
  | infinity => exact unpack_packComponents_ne_zero (.inl (by decide)) sign
  | finite sign' m e hm =>
      obtain ⟨hBits, hExponent⟩ := h
      unfold pack
      dsimp only
      split_ifs with hOverflow hNormal
      · exact unpack_packComponents_ne_zero (.inl (by decide)) sign
      · refine unpack_packComponents_ne_zero (.inl fun h => ?_) sign
        have hZero : (e + 127 + 23).toNat % 2 ^ 8 = 0 :=
          (BitVec.toNat_ofNat _ _).symm.trans (congrArg _ h)
        have hFits : ¬ 2 ^ 8 ≤ (e + 127 + 23).toNat + 1 := hOverflow
        omega
      · refine unpack_packComponents_ne_zero (.inr fun h => ?_) sign
        have hZero : m % 2 ^ 23 = 0 := (BitVec.toNat_ofNat _ _).symm.trans (congrArg _ h)
        have hNot : ¬ m.log2 + 1 = 24 := hNormal
        have hLog : m.log2 < 24 := (Nat.log2_lt hm.ne').mpr hBits
        have hSmall : m < 2 ^ 23 := (Nat.log2_lt hm.ne').mp (by omega)
        omega

/-! ### Rounding -/

theorem targetExponent_eq (total : ℤ) :
    Format.binary32.targetExponent total = max (total - 24) (-149) := by
  rfl

theorem mantissa_shiftRight (em : ExtendedMantissa) (k : ℕ) :
    (em >>> k).mantissa = em.mantissa / 2 ^ k := by
  induction k with
  | zero =>
      rw [pow_zero, Nat.div_one]
      rfl
  | succ k ih =>
      show (em >>> k).mantissa / 2 = _
      rw [ih, Nat.div_div_eq_div_mul, pow_succ]

theorem le_roundedMantissa (em : ExtendedMantissa) : em.mantissa ≤ em.roundedMantissa := by
  obtain ⟨m, round, sticky⟩ := em
  cases round <;> cases sticky <;>
    simp [ExtendedMantissa.roundedMantissa, ExtendedMantissa.accuracy, Accuracy.roundToNearestEven]

/-- A mantissa that is shifted to its exponent keeps 24 bits, and all of them from the smallest exponent
on. -/
theorem shift_spec {m : ℕ} {e : ℤ} (hm : 0 < m) (he : -149 ≤ e) :
    0 < m / 2 ^ (Format.binary32.targetExponent (totalExponent m e) - e).toNat ∧
      m / 2 ^ (Format.binary32.targetExponent (totalExponent m e) - e).toNat < 2 ^ 24 := by
  have hLow := Nat.log2_self_le hm.ne'
  have hHigh : m < 2 ^ (m.log2 + 1) := Nat.lt_log2_self
  have hShift : (Format.binary32.targetExponent (totalExponent m e) - e).toNat = m.log2 - 23 := by
    rw [targetExponent_eq, totalExponent]
    omega
  rw [hShift]
  have hFits : 2 ^ (m.log2 - 23) ≤ m :=
    le_trans (Nat.pow_le_pow_right (by omega) (Nat.sub_le _ _)) hLow
  refine ⟨Nat.div_pos hFits (Nat.two_pow_pos _), ?_⟩
  rw [Nat.div_lt_iff_lt_mul (Nat.two_pow_pos _), ← pow_add]
  exact lt_of_lt_of_le hHigh (Nat.pow_le_pow_right (by omega) (by omega))

/-- Rounding gives a number that has its place among the floats, and not zero. -/
theorem isPlaced_roundWithAccuracy (sign : Sign) {m : ℕ} {e : ℤ} (hm : 0 < m) (he : -149 ≤ e) :
    IsPlaced (roundWithAccuracy Format.binary32 sign m e .exact) := by
  unfold roundWithAccuracy shiftToTargetExponent shiftToExponent
  dsimp only
  obtain ⟨hPos, -⟩ := shift_spec hm he
  generalize (Format.binary32.targetExponent (totalExponent m e) - e).toNat = k at hPos ⊢
  generalize hRounded :
    (ExtendedMantissa.ofMantissaAndAccuracy m .exact >>> k).roundedMantissa = rounded
  have hRoundedPos : 0 < rounded := by
    rw [← hRounded]
    refine lt_of_lt_of_le ?_ (le_roundedMantissa _)
    rw [mantissa_shiftRight]
    exact hPos
  -- Rounding up may have made a bit more than there is room for.
  obtain ⟨hLast, hBits⟩ := shift_spec hRoundedPos (show -149 ≤ e + k by omega)
  generalize hK : (Format.binary32.targetExponent (totalExponent rounded (e + k)) - (e + k)).toNat = k'
    at hLast hBits ⊢
  have hMantissa : (ExtendedMantissa.ofMantissaAndAccuracy rounded .exact >>> k').mantissa =
      rounded / 2 ^ k' := mantissa_shiftRight _ _
  rw [dif_neg (by rw [hMantissa]; exact hLast.ne')]
  exact ⟨hMantissa ▸ hBits, by omega⟩

/-- The exponent comes down to its target first, by which no bit is lost. -/
theorem isPlaced_round (sign : Sign) {m : ℕ} {e : ℤ} (hm : 0 < m) (he : -149 ≤ e) :
    IsPlaced (UnpackedFloat.round Format.binary32 sign m e) := by
  refine isPlaced_roundWithAccuracy sign ?_ ?_
  · show 0 < m <<< (e - Format.binary32.targetExponent (totalExponent m e)).toNat
    rw [Nat.shiftLeft_eq]
    exact Nat.mul_pos hm (Nat.two_pow_pos _)
  · show -149 ≤ e - (e - Format.binary32.targetExponent (totalExponent m e)).toNat
    rw [targetExponent_eq]
    omega

/-! ### Canonical form -/

/-- A float that is neither a zero nor infinite has the exponent that belongs to its magnitude. -/
theorem unpack_finite {b : BitVec Format.binary32.numBits} {sign : Sign} {m : ℕ} {e : ℤ} {hm : 0 < m}
    (h : unpack Format.binary32 b = .finite sign m e hm) :
    e = Format.binary32.targetExponent (totalExponent m e) := by
  rw [targetExponent_eq, totalExponent]
  unfold unpack at h
  dsimp only at h
  split_ifs at h with hOnes hMantissa hZero hMantissa
  · injection h with hSign hm' he
    have hLt : (unpackMantissa b).toNat < 2 ^ 23 := (unpackMantissa b).isLt
    have hLog : m.log2 < 23 := (Nat.log2_lt hm.ne').mpr (hm' ▸ hLt)
    have he : ((unpackExponent b).toNat : ℤ) - (127 + 23) + 1 = e := he
    rw [hZero, BitVec.toNat_ofNat, Nat.zero_mod] at he
    omega
  · injection h with hSign hm' he
    have hLt : (unpackMantissa b).toNat < 2 ^ 23 := (unpackMantissa b).isLt
    have hm' : 2 ^ 23 + (unpackMantissa b).toNat = m := by
      rw [← hm', BitVec.toNat_append, ← Nat.shiftLeft_add_eq_or_of_lt hLt]
      rfl
    have hLog : m.log2 = 23 := (Nat.log2_eq_iff hm.ne').mpr (by omega)
    have he : ((unpackExponent b).toNat : ℤ) - (127 + 23) = e := he
    have hPos : (unpackExponent b).toNat ≠ 0 := fun hNot =>
      hZero (BitVec.eq_of_toNat_eq hNot)
    omega

theorem log2_shiftLeft {m : ℕ} (hm : 0 < m) (k : ℕ) : (m <<< k).log2 = m.log2 + k := by
  have hLow := Nat.log2_self_le hm.ne'
  have hHigh : m < 2 ^ (m.log2 + 1) := Nat.lt_log2_self
  rw [Nat.shiftLeft_eq, Nat.log2_eq_iff (Nat.mul_pos hm (Nat.two_pow_pos k)).ne']
  constructor
  · rw [pow_add]
    exact Nat.mul_le_mul_right _ hLow
  · rw [Nat.add_right_comm, pow_add]
    exact Nat.mul_lt_mul_of_pos_right hHigh (Nat.two_pow_pos k)

/-- Two numbers of the same value have the same mantissa and the same exponent if these are canonical. -/
theorem eq_of_shiftLeft_eq {m m' : ℕ} {e e' : ℤ} (hm : 0 < m) (hm' : 0 < m')
    (he : e = Format.binary32.targetExponent (totalExponent m e))
    (he' : e' = Format.binary32.targetExponent (totalExponent m' e'))
    (h : m <<< (e - min e e').toNat = m' <<< (e' - min e e').toNat) : m = m' ∧ e = e' := by
  have hLog : m.log2 + (e - min e e').toNat = m'.log2 + (e' - min e e').toNat := by
    rw [← log2_shiftLeft hm, h, log2_shiftLeft hm']
  rw [totalExponent] at he he'
  have hExponents : e = e' := by
    rw [targetExponent_eq] at he he'
    omega
  subst hExponents
  simp at h
  exact ⟨h, rfl⟩

theorem normalize_ne_notANumber (m e : ℤ) (zeroSign : Sign) :
    UnpackedFloat.normalize Format.binary32 m e zeroSign ≠ .notANumber := by
  have hRound : ∀ sign m e, UnpackedFloat.round Format.binary32 sign m e ≠ .notANumber := by
    intro sign m e
    unfold UnpackedFloat.round roundWithAccuracy
    dsimp only
    split <;> exact nofun
  unfold UnpackedFloat.normalize
  split
  · exact hRound _ _ _
  · exact nofun
  · exact hRound _ _ _

/-- A difference is not a number if one side is none, and if both are the same infinity. -/
theorem sub_eq_notANumber (u v : UnpackedFloat) :
    UnpackedFloat.sub Format.binary32 u v = .notANumber ↔
      u = .notANumber ∨ v = .notANumber ∨ ∃ sign, u = .infinity sign ∧ v = .infinity sign := by
  have hPositive : -Sign.positive = Sign.negative := rfl
  have hNegative : -Sign.negative = Sign.positive := rfl
  rcases u with (_ | _) | _ | (_ | _) | ⟨s, m, e, hm⟩ <;>
    rcases v with (_ | _) | _ | (_ | _) | ⟨s', m', e', hm'⟩
  case finite.finite => simpa [UnpackedFloat.sub] using normalize_ne_notANumber _ _ _
  all_goals simp [UnpackedFloat.sub, hPositive, hNegative]

/-- What is not zero stays so when it is brought to its form. -/
theorem isPlaced_normalize {m e : ℤ} (hm : m ≠ 0) (he : -149 ≤ e) (zeroSign : Sign) :
    IsPlaced (UnpackedFloat.normalize Format.binary32 m e zeroSign) := by
  unfold UnpackedFloat.normalize
  split
  · rename_i hNegative
    rw [compare_lt_iff_lt] at hNegative
    exact isPlaced_round .negative (by omega) he
  · rename_i hZero
    exact absurd (compare_eq_iff_eq.mp hZero) hm
  · rename_i hPositive
    rw [compare_gt_iff_gt] at hPositive
    exact isPlaced_round .positive (by omega) he

theorem finite_spec {x : Float32} {sign : Sign} {m : ℕ} {e : ℤ} {hm : 0 < m}
    (h : read x = .finite sign m e hm) :
    e = Format.binary32.targetExponent (totalExponent m e) ∧ -149 ≤ e ∧ m < 2 ^ 24 := by
  have hCanonical := unpack_finite h
  refine ⟨hCanonical, ?_, ?_⟩
  · rw [targetExponent_eq] at hCanonical
    omega
  · rw [targetExponent_eq, totalExponent] at hCanonical
    exact (Nat.log2_lt hm.ne').mp (by omega)

/-- Signed mantissas are equal just if signs and mantissas are. -/
theorem apply_inj {s s' : Sign} {m m' : ℕ} (hm : 0 < m) (hm' : 0 < m')
    (h : s.apply m = s'.apply m') : s = s' ∧ m = m' := by
  cases s <;> cases s' <;> simp only [Sign.apply] at h <;> simp <;> omega

/-- Two finite numbers that differ have a difference that has its place. -/
theorem isPlaced_sub_finite {x y : Float32} {s s' : Sign} {m m' : ℕ} {e e' : ℤ} {hm : 0 < m}
    {hm' : 0 < m'} (hx : read x = .finite s m e hm) (hy : read y = .finite s' m' e' hm') (h : read x ≠ read y) :
    IsPlaced (UnpackedFloat.sub Format.binary32 (read x) (read y)) := by
  obtain ⟨hCanonical, he, -⟩ := finite_spec hx
  obtain ⟨hCanonical', he', -⟩ := finite_spec hy
  rw [hx, hy] at h ⊢
  refine isPlaced_normalize (fun hDifference => h ?_) (by omega) _
  have hShift : ∀ {n : ℕ} (k : ℕ), 0 < n → 0 < n <<< k := fun k hn => by
    rw [Nat.shiftLeft_eq]
    exact Nat.mul_pos hn (Nat.two_pow_pos k)
  obtain ⟨rfl, hShifted⟩ := apply_inj (hShift _ hm) (hShift _ hm') (sub_eq_zero.mp hDifference)
  obtain ⟨rfl, rfl⟩ := eq_of_shiftLeft_eq hm hm' hCanonical hCanonical' hShifted
  rfl

/-- Floats that are not equal as numbers have a difference that has its place. -/
theorem isPlaced_sub {x y : Float32} (h : ¬ (read x).beq (read y) = true) :
    IsPlaced (UnpackedFloat.sub Format.binary32 (read x) (read y)) := by
  cases hx : read x with
  | notANumber => exact trivial
  | infinity s =>
      cases hy : read y with
      | infinity s' =>
          rw [UnpackedFloat.sub]
          split <;> exact trivial
      | notANumber | zero | finite => exact trivial
  | zero s =>
      cases hy : read y with
      | zero s' => exact absurd (by rw [hx, hy]; rfl) h
      | notANumber | infinity => exact trivial
      | finite s' m' e' hm' => exact (finite_spec hy).2.symm
  | finite s m e hm =>
      cases hy : read y with
      | notANumber | infinity => exact trivial
      | zero s' => exact (finite_spec hx).2.symm
      | finite s' m' e' hm' =>
          rw [← hx, ← hy]
          refine isPlaced_sub_finite hx hy fun hEqual => h ?_
          rw [beq_iff_ne_notANumber_and_eq, hx, hy]
          exact ⟨nofun, nofun, .inl (hx ▸ hy ▸ hEqual)⟩

/-- A difference that comes out as zero is one of equal numbers. -/
theorem beq_of_sub_eq_zero {x y : Float32} {sign : Sign} (h : read (x - y) = .zero sign) :
    (read x).beq (read y) = true := by
  by_contra hNot
  exact unpack_pack_ne_zero (isPlaced_sub hNot) sign h

/-! ### Numbers

A float that is a number is one for which `isNaN` is false. -/

variable {x y z : Float32}

theorem isNaN_eq_false (x : Float32) : x.isNaN = false ↔ read x ≠ .notANumber := by
  rw [← Bool.not_eq_true, isNaN_iff_read]

@[simp] theorem isNaN_abs (x : Float32) : x.abs.isNaN = x.isNaN := by
  rw [Bool.eq_iff_iff, isNaN_iff_read, isNaN_iff_read, read_abs, abs_eq_notANumber]

/-- A difference is a number unless a side is none or both are the same infinity. -/
theorem isNaN_sub (x y : Float32) :
    (x - y).isNaN = true ↔ x.isNaN = true ∨ y.isNaN = true ∨ x.isInf = true ∧ x = y := by
  have hSame : (∃ sign, read x = .infinity sign ∧ read y = .infinity sign) ↔
      x.isInf = true ∧ x = y := by
    rw [← read_inj]
    show _ ↔ (read x).isInf = true ∧ read x = read y
    constructor
    · rintro ⟨sign, hx, hy⟩
      exact ⟨by rw [hx]; rfl, hx.trans hy.symm⟩
    · rintro ⟨hInf, hEqual⟩
      cases hx : read x with
      | infinity sign => exact ⟨sign, rfl, hEqual.symm.trans hx⟩
      | notANumber | zero | finite =>
          rw [hx] at hInf
          cases hInf
  rw [isNaN_iff_read, isNaN_iff_read, isNaN_iff_read, ← hSame, ← sub_eq_notANumber]
  exact unpack_pack_eq_notANumber _

theorem le_of_not_lt (hx : x.isNaN = false) (hy : y.isNaN = false) (h : ¬ x < y) : y ≤ x := by
  rw [isNaN_eq_false] at hx hy
  rw [lt_iff hx hy] at h
  exact (le_iff hy hx).mpr (not_lt.mp h)

theorem le_of_lt (h : x < y) : x ≤ y := by
  obtain ⟨hx, hy⟩ := read_ne_of_lt h
  exact (le_iff hx hy).mpr ((lt_iff hx hy).mp h).le

theorem le_refl (hx : x.isNaN = false) : x ≤ x := by
  rw [isNaN_eq_false] at hx
  exact (le_iff hx hx).mpr le_rfl

theorem le_trans (hx : x.isNaN = false) (hy : y.isNaN = false) (hz : z.isNaN = false) (hxy : x ≤ y)
    (hyz : y ≤ z) : x ≤ z := by
  rw [isNaN_eq_false] at hx hy hz
  exact (le_iff hx hz).mpr (((le_iff hx hy).mp hxy).trans ((le_iff hy hz).mp hyz))

/-- The absolute value of a number is the positive zero if it is at most a zero. -/
theorem abs_eq_zero (hx : x.isNaN = false) (hz : (z == 0) = true) (h : x.abs ≤ z) : x.abs = 0 := by
  rw [isNaN_eq_false] at hx
  have hAbs : read x.abs ≠ .notANumber := by rwa [read_abs, Ne, abs_eq_notANumber]
  have hz : (read z).beq (read 0) = true := hz
  rw [beq_iff_ne_notANumber_and_eq, read_zero] at hz
  obtain ⟨hNumber, -, hz⟩ := hz
  have hRank : rank (read z) = rank (.zero .positive) := by
    rcases hz with hz | ⟨hz, -⟩ | ⟨hz, -⟩
    · rw [hz]
    · rw [hz]
    · rw [hz]
      rfl
  rw [le_iff hAbs hNumber, hRank, read_abs] at h
  obtain ⟨sign, hZero⟩ := eq_zero_of_rank_abs_le hx h
  rw [← read_inj, read_abs, hZero, read_zero]
  rfl

/-- Floats whose difference vanishes are equal as numbers. -/
theorem beq_of_abs_sub_eq_zero (h : (x - y).abs = 0) : (x == y) = true := by
  have hAbs : (read (x - y)).abs = .zero .positive := by rw [← read_abs, h, read_zero]
  cases hRead : read (x - y) with
  | zero sign => exact beq_of_sub_eq_zero hRead
  | notANumber | infinity | finite =>
      rw [hRead] at hAbs
      cases hAbs

end FusedAttention.Floats
