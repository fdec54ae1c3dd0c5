import Mathlib
import FusedAttention.Kernel.Schedule
import FusedAttention.Proofs.Grouping
import FusedAttention.Proofs.Masks

/-! The words of the random stream that dropout uses. Every score of a launch has a word of its own, and
the words of all its scores make one run of the stream that starts at the offset. Launches whose offsets
lie far enough apart have no word in common. -/
namespace FusedAttention

/-- One score of a launch: a query and a key of one unit. -/
structure ScoreCoord where
  unit : UnitCoord
  query : Nat
  key : Nat
  deriving DecidableEq

/-! ### Words of a stream -/

namespace Random.Stream

/-- Where a word comes from: the block before mixing, and the place of the word in it. -/
def origin (stream : Stream) (position : Nat) : Block × Fin 16 :=
  (stream.initial (position / 16), wordIndex position)

/-- Blocks whose numbers fit 64 bits start out different. -/
theorem initial_inj (stream : Stream) {m n : Nat} (hm : m < UInt64.size) (hn : n < UInt64.size)
    (h : stream.initial m = stream.initial n) : m = n := by
  have hLow : UInt32.ofNat m = UInt32.ofNat n := congrArg (fun b : Block => b[12]) h
  have hHigh : UInt32.ofNat (m / UInt32.size) = UInt32.ofNat (n / UInt32.size) :=
    congrArg (fun b : Block => b[13]) h
  have hLow := congrArg UInt32.toNat hLow
  have hHigh := congrArg UInt32.toNat hHigh
  simp only [UInt32.toNat_ofNat'] at hLow hHigh
  simp only [UInt64.size, UInt32.size] at hm hn hLow hHigh
  omega

/-- Words at different positions have different origins. -/
theorem origin_inj (stream : Stream) {p q : Nat} (hp : p < UInt64.size) (hq : q < UInt64.size)
    (h : stream.origin p = stream.origin q) : p = q := by
  obtain ⟨hBlock, hPlace⟩ := Prod.mk.inj h
  have hNumber := stream.initial_inj (show p / 16 < UInt64.size by omega) (by omega) hBlock
  have hRest : p % 16 = q % 16 := congrArg Fin.val hPlace
  omega

end Random.Stream

/-! ### Places of scores -/

namespace Shape

/-- The score is one of the launch. -/
def HasScore (s : Shape) (e : ScoreCoord) : Prop :=
  s.HasUnit e.unit ∧ e.query < s.numQueries ∧ e.key < s.numKeys

end Shape

namespace Dropout

variable {d d' : Dropout} {s s' : Shape} {e e' : ScoreCoord} {p : Nat}

/-- Place of the word of a score. -/
def scorePlace (d : Dropout) (s : Shape) (e : ScoreCoord) : Nat :=
  d.place s e.unit e.query e.key

/-- Places of the words of all scores of a launch. -/
def words (d : Dropout) (s : Shape) : Set Nat :=
  d.scorePlace s '' {e | s.HasScore e}

/-- The scores are numbered unit by unit, and row by row in each unit. -/
theorem scorePlace_eq (d : Dropout) (s : Shape) (e : ScoreCoord) :
    d.scorePlace s e = d.offset.toNat +
      (e.unit.index s.heads * s.scoresPerHead + (e.query * s.numKeys + e.key)) := by
  have hUnit : e.unit.index s.heads * s.scoresPerHead =
      e.unit.batchId * s.heads * s.scoresPerHead + e.unit.head * s.scoresPerHead := Nat.add_mul ..
  rw [scorePlace, place, unitPlace, hUnit]
  omega

theorem scorePlace_mem (he : s.HasScore e) :
    d.scorePlace s e ∈ Set.Ico d.offset.toNat (d.offset.toNat + s.scores) := by
  obtain ⟨hUnit, hQuery, hKey⟩ := he
  have hNumber := mul_add_lt (Shape.index_lt hUnit) (mul_add_lt hQuery hKey)
  rw [Set.mem_Ico, scorePlace_eq, s.scores_eq]
  exact ⟨Nat.le_add_right .., Nat.add_lt_add_left hNumber _⟩

theorem scorePlace_inj (he : s.HasScore e) (he' : s.HasScore e')
    (h : d.scorePlace s e = d.scorePlace s e') : e = e' := by
  obtain ⟨hUnit, hQuery, hKey⟩ := he
  obtain ⟨hUnit', hQuery', hKey'⟩ := he'
  rw [scorePlace_eq, scorePlace_eq, Nat.add_left_cancel_iff] at h
  obtain ⟨hIndex, hRow⟩ := mul_add_inj (mul_add_lt hQuery hKey) (mul_add_lt hQuery' hKey') h
  obtain ⟨hSameQuery, hSameKey⟩ := mul_add_inj hKey hKey' hRow
  obtain ⟨unit, query, key⟩ := e
  obtain ⟨unit', query', key'⟩ := e'
  obtain rfl : unit = unit' := Shape.index_inj hUnit hUnit' hIndex
  obtain rfl : query = query' := hSameQuery
  obtain rfl : key = key' := hSameKey
  rfl

theorem exists_scorePlace (hp : p ∈ Set.Ico d.offset.toNat (d.offset.toNat + s.scores)) :
    ∃ e, s.HasScore e ∧ d.scorePlace s e = p := by
  obtain ⟨hLow, hHigh⟩ := hp
  have hNumber : p - d.offset.toNat < s.units * s.scoresPerHead := by
    rw [← s.scores_eq]
    omega
  obtain ⟨n, hn, place, hPlace, hSplit⟩ := exists_mul_add hNumber
  obtain ⟨u, hUnit, rfl⟩ := Shape.exists_index hn
  obtain ⟨query, hQuery, key, hKey, rfl⟩ := exists_mul_add hPlace
  refine ⟨⟨u, query, key⟩, ⟨hUnit, hQuery, hKey⟩, ?_⟩
  rw [scorePlace_eq, ← hSplit]
  omega

/-- The scores of a launch take a run of the stream from the offset on, each of them one place. -/
theorem bijOn_scorePlace (d : Dropout) (s : Shape) :
    Set.BijOn (d.scorePlace s) {e | s.HasScore e}
      (Set.Ico d.offset.toNat (d.offset.toNat + s.scores)) :=
  ⟨fun _ he => scorePlace_mem he, fun _ he _ he' h => scorePlace_inj he he' h,
    fun _ hp => exists_scorePlace hp⟩

theorem words_eq (d : Dropout) (s : Shape) :
    d.words s = Set.Ico d.offset.toNat (d.offset.toNat + s.scores) :=
  (d.bijOn_scorePlace s).image_eq

/-- A launch that starts past the words of another has none of them. -/
theorem disjoint_words (h : d.offset.toNat + s.scores ≤ d'.offset.toNat) :
    Disjoint (d.words s) (d'.words s') := by
  rw [words_eq, words_eq]
  exact (Set.Ico_disjoint_Ico_same (c := d'.offset.toNat + s'.scores)).mono_left
    (Set.Ico_subset_Ico_right h)

end Dropout

/-- Every score owns one word. The places of the words of all scores of a launch are a run of the stream
from the offset on, and each place there is that of one score. While they fit 64 bits, two scores
never have words from the same place of the same block. Launches have no words in common if one
of them starts past the words of the other. The offsets of a unit, and the rows that its source gives,
whatever was asked of it before, go by the same places where these fit 64 bits. -/
theorem Dropout.words_owned {α : Type} [Scalar α] (d : Dropout) (s : Shape) :
    Set.BijOn (d.scorePlace s) {e | s.HasScore e} (Set.Ico d.offset.toNat
        (d.offset.toNat + s.batch * s.heads * s.numQueries * s.numKeys)) ∧
      (d.offset.toNat + s.scores ≤ UInt64.size → ∀ e e', s.HasScore e → s.HasScore e' → e ≠ e' →
        (Random.stream8 d.seed).origin (d.scorePlace s e) ≠
          (Random.stream8 d.seed).origin (d.scorePlace s e')) ∧
      (∀ (d' : Dropout) (s' : Shape), d.offset.toNat + s.scores ≤ d'.offset.toNat ∨
          d'.offset.toNat + s'.scores ≤ d.offset.toNat → Disjoint (d.words s) (d'.words s')) ∧
      ∀ u query key, d.scorePlace s ⟨u, query, key⟩ < UInt64.size →
        (∀ inputs grads lse, (s.unitOffsets inputs grads lse d u).dropout +
          (query * s.numKeys + key) = d.scorePlace s ⟨u, query, key⟩) ∧
        d.keep s u query key =
          d.survives ((Random.stream8 d.seed).word (d.scorePlace s ⟨u, query, key⟩)) ∧
        ∀ source ∈ MaskSource.forUnit d s u, ∀ (calls : List MaskCall) (length : Nat),
          ((source.rows (α := α) calls).2.row (α := α) query key length).1 =
            Array.ofFn fun j : Fin length => d.factor ((Random.stream8 d.seed).word
              (d.scorePlace s ⟨u, query, key + j⟩)) := by
  refine ⟨d.bijOn_scorePlace s, fun hFits e e' he he' hNe hSame => ?_, fun d' s' hApart => ?_,
    fun u query key hPlace => ?_⟩
  · have hPlace := scorePlace_mem (d := d) he
    have hPlace' := scorePlace_mem (d := d) he'
    rw [Set.mem_Ico] at hPlace hPlace'
    exact hNe (scorePlace_inj he he'
      (Random.Stream.origin_inj _ (by omega) (by omega) hSame))
  · rcases hApart with hAfter | hBefore
    · exact disjoint_words hAfter
    · exact (disjoint_words hBefore).symm
  · have hPosition : d.position s u query key = d.scorePlace s ⟨u, query, key⟩ :=
      position_of_lt hPlace
    refine ⟨fun _ _ _ => ?_, by rw [keep, hPosition], fun source hSource calls length => ?_⟩
    · have hUnit : d.unitPlace s u < UInt64.size := Nat.lt_of_le_of_lt (Nat.le_add_right ..) hPlace
      exact congrArg (· + (query * s.numKeys + key)) (Nat.mod_eq_of_lt hUnit)
    · have hServes := (MaskSource.forUnit_serves d s u).2 source hSource
      have hLeft := (MaskSource.rows_spec (α := α) hServes calls).1
      have hNext : ∀ j, d.scorePlace s ⟨u, query, key⟩ + j = d.scorePlace s ⟨u, query, key + j⟩ := by
        intro j
        simp only [scorePlace, place, Nat.add_assoc]
      rw [MaskSource.row_words hLeft.dropout hLeft.unitOffset hLeft.numKeys, hLeft.stream, hPosition]
      simp only [hNext]

/-- Two batches of three heads with seven queries and eleven keys take 462 words. The last score of the
first batch and the first of the second have different words, the next launch may start right behind, and
the source of the last unit reads at the position of its score. -/
theorem Dropout.words_sixUnits :
    let d : Dropout := ⟨0.5, 1, 100⟩
    let s : Shape := ⟨2, 3, 7, 11, 8, 8, 1⟩
    Set.BijOn (d.scorePlace s) {e | s.HasScore e} (Set.Ico 100 562) ∧
      (Random.stream8 1).origin (d.scorePlace s ⟨⟨0, 2⟩, 6, 10⟩) ≠
        (Random.stream8 1).origin (d.scorePlace s ⟨⟨1, 0⟩, 0, 0⟩) ∧
      Disjoint (d.words s) ((⟨0.5, 1, 562⟩ : Dropout).words s) ∧
      ∃ source ∈ MaskSource.forUnit d s ⟨1, 2⟩,
        (source.row (α := Float32) 2 4 1).1 = #[d.factor ((Random.stream8 1).word 511)] := by
  intro d s
  obtain ⟨hAll, hOwn, hApart, hReads⟩ := Dropout.words_owned (α := Float32) d s
  have hEnd : d.offset.toNat + s.batch * s.heads * s.numQueries * s.numKeys = 562 := by decide
  rw [hEnd] at hAll
  have hOn : d.isEnabled = true := by decide +kernel
  obtain ⟨source, hSource⟩ :=
    Option.isSome_iff_exists.mp ((MaskSource.forUnit_serves d s ⟨1, 2⟩).1.trans hOn)
  refine ⟨hAll, ?_, hApart _ s (.inl (by decide)), source, hSource, ?_⟩
  · exact hOwn (by decide) _ _ ⟨⟨by decide, by decide⟩, by decide, by decide⟩
      ⟨⟨by decide, by decide⟩, by decide, by decide⟩ (by decide)
  · have hPlace : d.scorePlace s ⟨⟨1, 2⟩, 2, 4⟩ = 511 := by decide
    refine ((hReads ⟨1, 2⟩ 2 4 (by decide)).2.2 source hSource [] 1).trans ?_
    simp [Array.ofFn_succ, hPlace, d]

end FusedAttention
