import FusedAttention.Kernel.Stage
import FusedAttention.Proofs.TileEntries

/-! Masks of dropout without memory. A source moves through its stream as it is asked for rows, but
every row sets its position anew, so that what a row holds depends on where it begins alone. While the
places of its words fit 64 bits this is no matter either, and masks that are built row by row, tile by
tile or in one piece agree entry by entry. A row that begins past 64 bits begins again at the front of
the stream, where a row that only runs on past them does not. -/
namespace FusedAttention

/-- A call for one row of a mask: a query, the first key and the number of keys. -/
structure MaskCall where
  query : Nat
  keyStart : Nat
  length : Nat

/-- The calls for `rows` consecutive queries, each for the same keys. -/
def rowCalls (queryStart keyStart length rows : Nat) : List MaskCall :=
  (List.range rows).map fun i => ⟨queryStart + i, keyStart, length⟩

theorem rowCalls_succ (queryStart keyStart length rows : Nat) :
    rowCalls queryStart keyStart length (rows + 1) =
      rowCalls queryStart keyStart length rows ++ [⟨queryStart + rows, keyStart, length⟩] := by
  simp [rowCalls, List.range_succ]

/-- The calls for the rows of one tile. -/
def TileExtent.maskCalls (pair : TileExtent) : List MaskCall :=
  rowCalls pair.queryStart pair.keyStart pair.rowsJ pair.rowsI

namespace Random.Reader

/-- Words are read one after the other from the position on. -/
theorem take_words (r : Reader) (count : Nat) :
    (r.take count).1 = (List.range count).map (fun i => r.stream.word (r.position + i)) := by
  induction count generalizing r with
  | zero => rfl
  | succ n ih =>
      rw [List.range_succ_eq_map, List.map_cons, List.map_map]
      show r.next.1 :: (r.next.2.take n).1 = _
      rw [ih, next_word, next_stream, next_position]
      refine List.cons_eq_cons.mpr ⟨by rw [Nat.add_zero], List.map_congr_left fun i _ => ?_⟩
      rw [Function.comp_apply, Nat.add_right_comm, Nat.add_assoc]

@[simp] theorem take_stream (r : Reader) (count : Nat) : (r.take count).2.stream = r.stream := by
  induction count generalizing r with
  | zero => rfl
  | succ n ih =>
      show (r.next.2.take n).2.stream = _
      rw [ih, next_stream]

end Random.Reader

variable {α : Type} [Scalar α]

namespace Shape

/-- Number of scores of all units. -/
def scores (s : Shape) : Nat :=
  s.batch * s.heads * s.numQueries * s.numKeys

theorem scores_eq (s : Shape) : s.scores = s.units * s.scoresPerHead :=
  Nat.mul_assoc ..

end Shape

namespace Overflow

variable {overflow : Overflow} {sum bound : Nat}

theorem check_eq_ok :
    overflow.check sum = .ok () ↔ overflow = .wrapping ∨ sum < UInt64.size := by
  cases overflow <;> simp [check]

theorem check_of_lt (h : overflow = .wrapping ∨ bound ≤ UInt64.size) (hSum : sum < bound) :
    overflow.check sum = .ok () :=
  check_eq_ok.mpr (h.imp_right fun hBound => by omega)

end Overflow

namespace Dropout

/-! ### Places and positions -/

variable {d : Dropout} {s : Shape} {u : UnitCoord} {query key keyStart n m : Nat}

/-- The places of the words of all scores fit 64 bits. -/
def Fits (d : Dropout) (s : Shape) : Prop :=
  d.offset.toNat + s.scores ≤ UInt64.size

instance : Decidable (d.Fits s) :=
  inferInstanceAs (Decidable (_ ≤ _))

/-- The places of the words of one unit fit 64 bits. -/
def FitsUnit (d : Dropout) (s : Shape) (u : UnitCoord) : Prop :=
  d.unitPlace s u + s.scoresPerHead ≤ UInt64.size

theorem Fits.unit (h : d.Fits s) (hBatch : u.batchId < s.batch) (hHead : u.head < s.heads) :
    d.FitsUnit s u := by
  have hNumber : u.batchId * s.heads + u.head + 1 ≤ s.units := mul_add_lt hBatch hHead
  have hWords := Nat.mul_le_mul_right s.scoresPerHead hNumber
  rw [Fits, s.scores_eq] at h
  rw [FitsUnit, unitPlace]
  simp only [Nat.add_mul, Nat.one_mul] at hWords
  omega

theorem FitsUnit.place_lt (h : d.FitsUnit s u) (hQuery : query < s.numQueries)
    (hKey : key < s.numKeys) : d.place s u query key < UInt64.size := by
  have hScore : query * s.numKeys + key < s.scoresPerHead := mul_add_lt hQuery hKey
  rw [FitsUnit] at h
  rw [place]
  omega

/-- A position is what is left of a place in 64 bits. -/
theorem position_eq (d : Dropout) (s : Shape) (u : UnitCoord) (query key : Nat) :
    d.position s u query key = d.place s u query key % UInt64.size :=
  Nat.mod_add_mod ..

theorem position_of_lt (h : d.place s u query key < UInt64.size) :
    d.position s u query key = d.place s u query key := by
  rw [position_eq, Nat.mod_eq_of_lt h]

/-- The factor at the `n`-th key of a row that is read from one key on. -/
def rowFactor {α : Type} [Scalar α] (d : Dropout) (s : Shape) (u : UnitCoord)
    (query keyStart n : Nat) : α :=
  d.factor ((Random.stream8 d.seed).word (d.position s u query keyStart + n))

/-- What a probability is multiplied by: the scale of an entry that survives, or zero. -/
def entry (d : Dropout) (s : Shape) (u : UnitCoord) (query key : Nat) : α :=
  if d.keep s u query key then Scalar.ofFloat d.keepScale else 0

/-- The entries that one call asks for. -/
def entries (d : Dropout) (s : Shape) (u : UnitCoord) (call : MaskCall) : Array α :=
  .ofFn fun n : Fin call.length => d.rowFactor s u call.query call.keyStart n

/-- Rows that begin within 64 bits have the same factor at the same key. -/
theorem rowFactor_add (h : d.place s u query (keyStart + m) < UInt64.size) :
    (d.rowFactor s u query (keyStart + m) n : α) = d.rowFactor s u query keyStart (m + n) := by
  have hStart : d.place s u query keyStart + m = d.place s u query (keyStart + m) := by
    simp only [place, Nat.add_assoc]
  rw [rowFactor, rowFactor, position_of_lt h, position_of_lt (by omega), ← Nat.add_assoc, hStart]

/-- A factor is the one of its own coordinate while its place fits 64 bits. -/
theorem rowFactor_eq_entry (h : d.place s u query (keyStart + n) < UInt64.size) :
    (d.rowFactor s u query keyStart n : α) = d.entry s u query (keyStart + n) :=
  (rowFactor_add (n := 0) h).symm

end Dropout

/-! ### Series of calls -/

namespace MaskSource

/-- A source is one of a unit, wherever it stands in the stream. -/
structure Serves (m : MaskSource) (d : Dropout) (s : Shape) (u : UnitCoord) : Prop where
  dropout : m.dropout = d
  stream : m.reader.stream = Random.stream8 d.seed
  unitOffset : m.unitOffset = d.unitOffset s u
  numKeys : m.numKeys = s.numKeys

theorem forUnit_serves (d : Dropout) (s : Shape) (u : UnitCoord) :
    (forUnit d s u).isSome = d.isEnabled ∧ ∀ m ∈ forUnit d s u, m.Serves d s u := by
  unfold forUnit
  cases d.isEnabled with
  | false => exact ⟨rfl, fun m h => nomatch h⟩
  | true =>
      refine ⟨rfl, ?_⟩
      rintro m hm
      cases hm
      exact ⟨rfl, rfl, rfl, rfl⟩

/-- The rows that a series of calls gives, each asked of the source as the call before left it. -/
def rows (m : MaskSource) : List MaskCall → List (Array α) × MaskSource
  | [] => ([], m)
  | call :: rest =>
    let (row, m) := m.row call.query call.keyStart call.length
    let (others, m) := m.rows rest
    (row :: others, m)

theorem rows_cons (m : MaskSource) (call : MaskCall) (rest : List MaskCall) :
    m.rows (α := α) (call :: rest) =
      ((m.row call.query call.keyStart call.length).1 ::
          ((m.row (α := α) call.query call.keyStart call.length).2.rows rest).1,
        ((m.row (α := α) call.query call.keyStart call.length).2.rows (α := α) rest).2) := rfl

/-- A series of calls can be taken apart anywhere. -/
theorem rows_append (m : MaskSource) (calls others : List MaskCall) :
    m.rows (α := α) (calls ++ others) =
      ((m.rows calls).1 ++ ((m.rows (α := α) calls).2.rows others).1,
        ((m.rows (α := α) calls).2.rows (α := α) others).2) := by
  induction calls generalizing m with
  | nil => rfl
  | cons call rest ih =>
      rw [List.cons_append, rows_cons, rows_cons, ih]
      rfl

variable {m : MaskSource} {d : Dropout} {s : Shape} {u : UnitCoord}

/-- A source of a unit, wherever it stands, reads a row from the position of its first score on. -/
theorem row_words (hDropout : m.dropout = d) (hOffset : m.unitOffset = d.unitOffset s u)
    (hKeys : m.numKeys = s.numKeys) (query keyStart length : Nat) :
    (m.row (α := α) query keyStart length).1 = Array.ofFn fun n : Fin length =>
      d.factor (m.reader.stream.word (d.position s u query keyStart + n)) := by
  obtain ⟨dropout, reader, unitOffset, numKeys⟩ := m
  dsimp only at hDropout hOffset hKeys
  subst hDropout hOffset hKeys
  show ((((reader.seek _).take length).1.map dropout.factor).toArray : Array α) = _
  rw [Random.Reader.take_words]
  apply Array.ext_getElem?
  intro n
  by_cases hn : n < length
  · simp [hn, Random.Reader.seek, Dropout.position]
  · simp [hn]

/-- One call gives the entries of its row, wherever the source stands, and leaves a source of the same
unit. -/
theorem row_spec (hServes : m.Serves d s u) (call : MaskCall) :
    (m.row (α := α) call.query call.keyStart call.length).2.Serves d s u ∧
      (m.row (α := α) call.query call.keyStart call.length).1 = d.entries s u call := by
  constructor
  · exact ⟨hServes.dropout, (Random.Reader.take_stream _ call.length).trans hServes.stream,
      hServes.unitOffset, hServes.numKeys⟩
  · rw [row_words hServes.dropout hServes.unitOffset hServes.numKeys, hServes.stream]
    rfl

/-- A series of calls gives the entries of each call, and leaves a source of the same unit. -/
theorem rows_spec (hServes : m.Serves d s u) (calls : List MaskCall) :
    (m.rows (α := α) calls).2.Serves d s u ∧
      (m.rows (α := α) calls).1 = calls.map (d.entries s u) := by
  induction calls generalizing m with
  | nil => exact ⟨hServes, rfl⟩
  | cons call rest ih =>
      obtain ⟨hNext, hRow⟩ := row_spec (α := α) hServes call
      obtain ⟨hLast, hRows⟩ := ih hNext
      refine ⟨hLast, ?_⟩
      rw [rows_cons, List.map_cons, ← hRows, ← hRow]

/-- Where sums are checked, rows are made just if each of them begins within 64 bits. -/
theorem checkRows_eq_ok (hServes : m.Serves d s u) (hUnit : d.unitPlace s u < UInt64.size)
    (queryStart rows keyStart : Nat) :
    m.checkRows .checked queryStart rows keyStart = .ok () ↔
      ∀ i < rows, d.place s u (queryStart + i) keyStart < UInt64.size := by
  have hOffset : d.unitOffset s u = d.unitPlace s u := Nat.mod_eq_of_lt hUnit
  rw [checkRows, forM_eq_ok]
  simp only [List.mem_range, Overflow.check_eq_ok, reduceCtorEq, false_or, hServes.unitOffset,
    hServes.numKeys, hOffset, Dropout.place]

/-- Rows of a unit whose words fit 64 bits begin where no sum is a fault. -/
theorem checkRows_of_fits (hServes : m.Serves d s u) {overflow : Overflow}
    (hSums : overflow = .wrapping ∨ d.FitsUnit s u) {queryStart rows keyStart : Nat}
    (hQueries : queryStart + rows ≤ s.numQueries) (hKeys : keyStart < s.numKeys) :
    m.checkRows overflow queryStart rows keyStart = .ok () := by
  refine forM_eq_ok.mpr fun i hi => ?_
  rw [List.mem_range] at hi
  refine Overflow.check_of_lt hSums ?_
  have hScore : (queryStart + i) * s.numKeys + keyStart < s.scoresPerHead :=
    mul_add_lt (by omega) hKeys
  have hOffset : d.unitOffset s u ≤ d.unitPlace s u := Nat.mod_le ..
  rw [hServes.unitOffset, hServes.numKeys]
  omega

end MaskSource

/-! ### Tiles -/

namespace Scratch

variable {t : TileSize} {d : Dropout} {s : Shape} {u : UnitCoord}

omit [Scalar α] in
theorem enter_eq {scratch : Scratch α t} {next : Phase} (h : scratch.phase.allows next = true) :
    scratch.enter next = .ok { scratch with phase := next } := by
  rw [enter, if_pos h]

/-- The rows of a tile are a series of calls. -/
theorem maskRows_eq (m : MaskSource) (pair : TileExtent) (n : Nat) :
    (List.range n).foldl (fun (rows, source) i =>
      let (row, source) := MaskSource.row source (pair.queryStart + i) pair.keyStart pair.rowsJ
      (rows.push row, source)) ((#[] : Array (Array α)), m) =
    let made := m.rows (α := α) (rowCalls pair.queryStart pair.keyStart pair.rowsJ n)
    (made.1.toArray, made.2) := by
  induction n with
  | zero => rfl
  | succ n ih =>
      rw [List.range_succ, List.foldl_append, ih, rowCalls_succ, MaskSource.rows_append]
      simp [MaskSource.rows]

/-- A tile of the mask holds the factors of its rows inside the extent of the pair and zeros outside of
it. -/
theorem maskTile_entries {m : MaskSource} (hServes : m.Serves d s u) (pair : TileExtent)
    (hI : pair.rowsI ≤ t.blockI) (hJ : pair.rowsJ ≤ t.blockJ) :
    (maskTile m pair : Tile α t.blockI t.blockJ × MaskSource).2 =
        (m.rows (α := α) pair.maskCalls).2 ∧
      ∀ i j, (maskTile m pair : Tile α t.blockI t.blockJ × MaskSource).1.entry i j =
        if i < pair.rowsI ∧ j < pair.rowsJ then
          d.rowFactor s u (pair.queryStart + i) pair.keyStart j
        else 0 := by
  unfold maskTile
  rw [maskRows_eq]
  refine ⟨rfl, fun i j => ?_⟩
  dsimp only
  rw [(MaskSource.rows_spec hServes _).2]
  by_cases hTile : i < t.blockI ∧ j < t.blockJ
  · rw [Tile.entry_of_lt _ hTile.1 hTile.2, Tile.get_ofFn]
    by_cases hi : i < pair.rowsI
    · by_cases hj : j < pair.rowsJ
      · simp [rowCalls, hi, hj, Dropout.entries]
      · simp [rowCalls, hi, hj, Dropout.entries]
    · simp [rowCalls, hi]
  · rw [Tile.entry, dif_neg hTile, if_neg (by omega)]

/-- The scores are computed again together with the tile of the mask that the source gives. -/
theorem recomputeScores_mask {scratch : Scratch α t}
    (hPhase : scratch.phase.allows .scoreRecompute = true) (pair : TileExtent) (headDim : Nat)
    (scale : α) (biases : List (Tile α t.blockI t.blockJ)) (m : MaskSource) :
    ∃ next, scratch.recomputeScores pair headDim scale biases (some m) =
        .ok (next, some (maskTile (α := α) (t := t) m pair).2) ∧
      next.mask = (maskTile m pair).1 := by
  unfold recomputeScores
  rw [enter_eq hPhase, ok_bind]
  exact ⟨_, rfl, rfl⟩

end Scratch

/-! ### Masks in one piece -/

variable {d : Dropout} {s : Shape}

/-- The rows of a mask in one piece are a series of calls. -/
theorem maskPlane_eq (m : MaskSource) (n : Nat) :
    (List.range n).foldl (fun (plane, source) query =>
      let (row, source) := MaskSource.row source query 0 s.numKeys
      (plane ++ row, source)) ((#[] : Array α), m) =
    let made := m.rows (α := α) (rowCalls 0 0 s.numKeys n)
    (made.1.foldl (· ++ ·) #[], made.2) := by
  induction n with
  | zero => rfl
  | succ n ih =>
      rw [List.range_succ, List.foldl_append, ih, rowCalls_succ, MaskSource.rows_append]
      simp [MaskSource.rows]

/-- The mask of a unit in one piece has the factors of its rows, one row after the other. -/
theorem maskPlane_entries (hOn : d.isEnabled = true) {overflow : Overflow} {plane : Array α}
    (hPlane : maskPlane d s u overflow = .ok plane) :
    plane.size = s.scoresPerHead ∧ ∀ query < s.numQueries, ∀ key < s.numKeys,
      plane[query * s.numKeys + key]? = some (d.rowFactor s u query 0 key) := by
  obtain ⟨hSome, hServes⟩ := MaskSource.forUnit_serves d s u
  obtain ⟨m, hm⟩ := Option.isSome_iff_exists.mp (hSome.trans hOn)
  have hRows : (m.rows (α := α) (rowCalls 0 0 s.numKeys s.numQueries)).1 =
      (List.range s.numQueries).map fun query => d.entries s u ⟨query, 0, s.numKeys⟩ := by
    rw [(MaskSource.rows_spec (hServes m hm) _).2, rowCalls, List.map_map]
    simp
  have hLength : ∀ query < s.numQueries,
      (d.entries s u ⟨query, 0, s.numKeys⟩ : Array α).size = s.numKeys := by
    intro query _
    exact Array.size_ofFn
  obtain ⟨hSize, hEntries⟩ := join_spec hLength
  rw [maskPlane, hm] at hPlane
  obtain ⟨-, -, hPlane⟩ := exists_of_bind_eq_ok hPlane
  split at hPlane
  · cases hPlane
  obtain ⟨-, -, hPlane⟩ := exists_of_bind_eq_ok hPlane
  rw [maskPlane_eq] at hPlane
  dsimp only at hPlane
  rw [hRows] at hPlane
  obtain rfl := Except.ok.inj hPlane
  refine ⟨hSize, fun query hQuery key hKey => ?_⟩
  rw [hEntries query hQuery key hKey]
  simp [Dropout.entries, hKey]

/-- The mask of a unit whose words fit 64 bits is made, and any other where sums wrap. -/
theorem exists_maskPlane (hOn : d.isEnabled = true) (hQueries : 0 < s.numQueries)
    (hKeys : 0 < s.numKeys) {overflow : Overflow}
    (hSums : overflow = .wrapping ∨ d.FitsUnit s u) :
    ∃ plane : Array α, maskPlane d s u overflow = .ok plane := by
  obtain ⟨hSome, hServes⟩ := MaskSource.forUnit_serves d s u
  obtain ⟨m, hm⟩ := Option.isSome_iff_exists.mp (hSome.trans hOn)
  have hUnit : overflow.check (d.unitPlace s u) = .ok () :=
    Overflow.check_of_lt hSums (Nat.lt_add_of_pos_right (Nat.mul_pos hQueries hKeys))
  have hStarts : m.checkRows overflow 0 s.numQueries 0 = .ok () :=
    MaskSource.checkRows_of_fits (hServes m hm) hSums (by omega) hKeys
  rw [maskPlane, hm]
  dsimp only
  rw [hUnit, ok_bind, if_neg (by omega), hStarts, ok_bind]
  exact ⟨_, rfl⟩

/-- Masks have no memory. Whatever rows the source of a unit has been asked for, in any order and any
number of times, each of them holds the factors of the words from the position of its first key on.
While the place of an entry fits 64 bits, its factor is the scale if `keep` says that the entry survives
and zero if not. The mask in one piece holds the factors of whole rows, and a tile that is built from
where the calls have left the source those of its own rows, which are the same if they begin within 64
bits; outside its extent the tile holds zeros. Where sums are checked, only rows that begin within 64
bits are made at all. -/
theorem MaskSource.rows_stateless (hOn : d.isEnabled = true) (s : Shape) (u : UnitCoord) :
    ∃ source, forUnit d s u = some source ∧
      (∀ query keyStart n, d.place s u query (keyStart + n) < UInt64.size →
        (d.rowFactor s u query keyStart n : α) =
          if d.keep s u query (keyStart + n) then Scalar.ofFloat d.keepScale else 0) ∧
      (d.unitPlace s u < UInt64.size → ∀ queryStart rows keyStart,
        (source.checkRows .checked queryStart rows keyStart = .ok () ↔
          ∀ i < rows, d.place s u (queryStart + i) keyStart < UInt64.size)) ∧
      (0 < s.numQueries → 0 < s.numKeys → ∀ overflow, overflow = .wrapping ∨ d.FitsUnit s u →
        ∃ plane : Array α, maskPlane d s u overflow = .ok plane ∧
          ∀ query < s.numQueries, ∀ key < s.numKeys,
            plane[query * s.numKeys + key]? = some (d.rowFactor s u query 0 key)) ∧
      ∀ calls : List MaskCall,
        (source.rows calls).1 = calls.map (fun call => Array.ofFn fun n : Fin call.length =>
          (d.rowFactor s u call.query call.keyStart n : α)) ∧
        ∀ (t : TileSize) (scratch : Scratch α t) (pair : TileExtent) (headDim : Nat) (scale : α)
          (biases : List (Tile α t.blockI t.blockJ)),
          scratch.phase.allows .scoreRecompute = true →
          pair.rowsI ≤ t.blockI → pair.rowsJ ≤ t.blockJ →
          pair.queryStart + pair.rowsI ≤ s.numQueries → pair.keyStart + pair.rowsJ ≤ s.numKeys →
          ∃ next, scratch.recomputeScores pair headDim scale biases
              (some (source.rows (α := α) calls).2) =
                .ok (next, some (source.rows (α := α) (calls ++ pair.maskCalls)).2) ∧
            (∀ i < pair.rowsI, ∀ j < pair.rowsJ, next.mask.entry i j =
              d.rowFactor s u (pair.queryStart + i) pair.keyStart j) ∧
            (∀ (overflow : Overflow) (plane : Array α), maskPlane d s u overflow = .ok plane →
              ∀ i < pair.rowsI, d.place s u (pair.queryStart + i) pair.keyStart < UInt64.size →
                ∀ j < pair.rowsJ,
                  plane[(pair.queryStart + i) * s.numKeys + (pair.keyStart + j)]? =
                    some (next.mask.entry i j)) ∧
            ∀ i j, ¬ (i < pair.rowsI ∧ j < pair.rowsJ) → next.mask.entry i j = 0 := by
  obtain ⟨hSome, hServes⟩ := forUnit_serves d s u
  obtain ⟨source, hSource⟩ := Option.isSome_iff_exists.mp (hSome.trans hOn)
  refine ⟨source, hSource, fun query keyStart n hPlace => Dropout.rowFactor_eq_entry hPlace,
    checkRows_eq_ok (hServes source hSource), fun hQueries hKeys overflow hSums => ?_,
    fun calls => ?_⟩
  · obtain ⟨plane, hPlane⟩ := exists_maskPlane (α := α) hOn hQueries hKeys hSums
    exact ⟨plane, hPlane, (maskPlane_entries hOn hPlane).2⟩
  obtain ⟨hLeft, hRows⟩ := rows_spec (α := α) (hServes source hSource) calls
  refine ⟨hRows, fun t scratch pair headDim scale biases hPhase hI hJ hQueries hKeys => ?_⟩
  obtain ⟨hNext, hTile⟩ := Scratch.maskTile_entries (α := α) (t := t) hLeft pair hI hJ
  obtain ⟨next, hRun, hMask⟩ := Scratch.recomputeScores_mask hPhase pair headDim scale biases
    (source.rows (α := α) calls).2
  have hInside : ∀ i < pair.rowsI, ∀ j < pair.rowsJ, next.mask.entry i j =
      d.rowFactor s u (pair.queryStart + i) pair.keyStart j := by
    intro i hi j hj
    rw [hMask, hTile, if_pos ⟨hi, hj⟩]
  refine ⟨next, ?_, hInside, fun overflow plane hPlane i hi hPlace j hj => ?_, fun i j hOutside => ?_⟩
  · rw [hRun, hNext, rows_append]
  · have hStart : d.place s u (pair.queryStart + i) (0 + pair.keyStart) < UInt64.size := by
      rwa [Nat.zero_add]
    rw [hInside i hi j hj, (maskPlane_entries hOn hPlane).2 _ (by omega) _ (by omega),
      ← Dropout.rowFactor_add hStart, Nat.zero_add]
  · rw [hMask, hTile, if_neg hOutside]

/-- The rows of two queries with three keys, asked for from the last entry backwards and twice, and a
tile at the edge. -/
theorem MaskSource.rows_halfDropped :
    let d : Dropout := ⟨0.5, 1, 0⟩
    let s : Shape := ⟨1, 1, 2, 3, 1, 1, 1⟩
    let u : UnitCoord := ⟨0, 0⟩
    let t : TileSize := ⟨2, 2, 1⟩
    let scale : Float32 := Scalar.ofFloat d.keepScale
    d.isEnabled = true ∧ ∃ source, forUnit d s u = some source ∧
      (source.rows [⟨1, 2, 1⟩, ⟨0, 0, 3⟩, ⟨1, 2, 1⟩]).1 = [#[scale], #[scale, 0, scale], #[scale]] ∧
      ∃ next, ({ Scratch.fresh t with phase := .loadQueries } : Scratch Float32 t).recomputeScores
          ⟨0, 2, 2, 1⟩ 1 1 [] (some source) =
            .ok (next, some (source.rows (α := Float32) [⟨0, 2, 1⟩, ⟨1, 2, 1⟩]).2) ∧
        next.mask.entry 1 0 = scale ∧ next.mask.entry 0 1 = 0 := by
  intro d s u t scale
  have hOn : d.isEnabled = true := by decide +kernel
  have hKept : (d.keep s u 0 0 && !d.keep s u 0 1 && d.keep s u 0 2 && d.keep s u 1 2) = true := by
    decide +kernel
  simp only [Bool.and_eq_true, Bool.not_eq_true'] at hKept
  obtain ⟨⟨⟨h00, h01⟩, h02⟩, h12⟩ := hKept
  obtain ⟨source, hSource, hFactor, -, -, hCalls⟩ := MaskSource.rows_stateless (α := Float32) hOn s u
  have hFactor00 : d.rowFactor s u 0 0 0 = scale := (hFactor 0 0 0 (by decide)).trans (if_pos h00)
  have hFactor01 : d.rowFactor s u 0 0 1 = (0 : Float32) :=
    (hFactor 0 0 1 (by decide)).trans (if_neg (Bool.not_eq_true _ ▸ h01))
  have hFactor02 : d.rowFactor s u 0 0 2 = scale := (hFactor 0 0 2 (by decide)).trans (if_pos h02)
  have hFactor12 : d.rowFactor s u 1 2 0 = scale := (hFactor 1 2 0 (by decide)).trans (if_pos h12)
  refine ⟨hOn, source, hSource, ?_, ?_⟩
  · rw [(hCalls _).1]
    simp [Array.ofFn_succ, hFactor00, hFactor01, hFactor02, hFactor12]
  · obtain ⟨next, hRun, hInside, -, hOutside⟩ := (hCalls []).2 t
      { Scratch.fresh t with phase := .loadQueries } ⟨0, 2, 2, 1⟩ 1 1 [] rfl (by decide) (by decide)
      (by decide) (by decide)
    exact ⟨next, hRun, (hInside 1 (by decide) 0 (by decide)).trans hFactor12,
      hOutside 0 1 (by decide)⟩

/-- A row that begins four places before the end of 64 bits runs on past it, where an entry that is
asked for alone begins again at the front of the stream. -/
example :
    let d : Dropout := ⟨0.5, 1, 18446744073709551612⟩
    let s : Shape := ⟨1, 1, 1, 16, 1, 1, 1⟩
    let stream := Random.stream8 d.seed
    d.position s ⟨0, 0⟩ 0 0 + 5 = UInt64.size + 1 ∧ d.position s ⟨0, 0⟩ 0 5 = 1 ∧
      d.survives (stream.word (UInt64.size + 1)) = true ∧ d.keep s ⟨0, 0⟩ 0 5 = false := by
  decide +kernel

end FusedAttention
