import Mathlib
import FusedAttention.Proofs.KeyTiles
import FusedAttention.Proofs.SlotRegions

/-! The walk of a unit against its nested loops. Going from each pair of tiles to the one that follows
comes past the pairs of the nested loops in their order, and once past each key tile that attends to no
query. -/
namespace FusedAttention

variable {policy : QueryStart} {s : Shape} {t : TileSize}

/-- The pair that follows another in the walk over the tiles of a shape. -/
def nextPair (policy : QueryStart) (s : Shape) (t : TileSize) : Nat × Nat → Nat × Nat :=
  nextIteration policy s.numQueries t.blockI t.blockJ

/-- The pair at which the walk comes to a key tile. -/
def entryPair (policy : QueryStart) (s : Shape) (t : TileSize) (keyStart : Nat) : Nat × Nat :=
  (firstQueryTile policy keyStart s.numQueries t.blockI, keyStart)

/-- The query starts of the walk at one key tile: those of its loop, or a marker past the last query if it
attends to none. -/
def queryStops (policy : QueryStart) (s : Shape) (t : TileSize) (keyStart : Nat) : List Nat :=
  let first := firstQueryTile policy keyStart s.numQueries t.blockI
  if first < s.numQueries then tileStarts first s.numQueries t.blockI else [s.numQueries]

/-- The pairs of the walk at one key tile. -/
def keyTilePairs (policy : QueryStart) (s : Shape) (t : TileSize) (keyStart : Nat) : List (Nat × Nat) :=
  (queryStops policy s t keyStart).map fun queryStart => (queryStart, keyStart)

/-- The pairs of the nested loops, with the markers in their places. -/
def walkedPairs (policy : QueryStart) (s : Shape) (t : TileSize) : List (Nat × Nat) :=
  (tileStarts 0 s.numKeys t.blockJ).flatMap (keyTilePairs policy s t)

/-! ### One key tile -/

theorem firstQueryTile_le (policy : QueryStart) (keyStart numQueries blockI : Nat) :
    firstQueryTile policy keyStart numQueries blockI ≤ numQueries := by
  unfold firstQueryTile
  dsimp only
  split
  · exact Nat.le_refl _
  · have := Nat.div_mul_le_self (policy keyStart numQueries) blockI
    omega

theorem queryStops_of_lt {keyStart : Nat} (h : (entryPair policy s t keyStart).1 < s.numQueries) :
    queryStops policy s t keyStart =
      tileStarts (entryPair policy s t keyStart).1 s.numQueries t.blockI :=
  if_pos h

theorem queryStops_of_le {keyStart : Nat} (h : s.numQueries ≤ (entryPair policy s t keyStart).1) :
    queryStops policy s t keyStart = [s.numQueries] :=
  if_neg (Nat.not_lt.mpr h)

/-- The walk comes to multiples of the block size from the first tile on, and to at least one place. -/
theorem queryStops_eq (hBlockI : 0 < t.blockI) (keyStart : Nat) :
    queryStops policy s t keyStart = (List.range (max 1
      (chunksOf (s.numQueries - (entryPair policy s t keyStart).1) t.blockI))).map
        ((entryPair policy s t keyStart).1 + · * t.blockI) := by
  rcases Nat.lt_or_ge (entryPair policy s t keyStart).1 s.numQueries with hSome | hNone
  · rw [queryStops_of_lt hSome, Nat.max_eq_right (chunksOf_pos hBlockI (by omega)), tileStarts]
  · have hFirst : (entryPair policy s t keyStart).1 = s.numQueries :=
      Nat.le_antisymm (firstQueryTile_le ..) hNone
    have hZero : chunksOf 0 t.blockI = 0 := Nat.div_eq_of_lt (by omega)
    rw [queryStops_of_le hNone, hFirst, Nat.sub_self, hZero]
    simp

theorem length_queryStops (hBlockI : 0 < t.blockI) (keyStart : Nat) :
    (queryStops policy s t keyStart).length =
      max 1 (chunksOf (s.numQueries - (entryPair policy s t keyStart).1) t.blockI) := by
  rw [queryStops_eq hBlockI, List.length_map, List.length_range]

/-- As long as the key tile has another query tile, the walk goes on to it. -/
theorem iterate_nextPair (hBlockI : 0 < t.blockI) {keyStart n : Nat}
    (hn : n < (queryStops policy s t keyStart).length) :
    (nextPair policy s t)^[n] (entryPair policy s t keyStart) =
      ((entryPair policy s t keyStart).1 + n * t.blockI, keyStart) := by
  rw [length_queryStops hBlockI] at hn
  induction n with
  | zero => rw [Nat.zero_mul, Nat.add_zero]; rfl
  | succ n ih =>
      have hMore : (n + 1) * t.blockI < s.numQueries - (entryPair policy s t keyStart).1 :=
        (lt_chunksOf_iff hBlockI).mp (by omega)
      have hStep : (n + 1) * t.blockI = n * t.blockI + t.blockI := Nat.succ_mul n t.blockI
      rw [Function.iterate_succ_apply', ih (by omega), nextPair, nextIteration,
        if_pos (show (entryPair policy s t keyStart).1 + n * t.blockI + t.blockI < s.numQueries by
          omega), hStep, Nat.add_assoc]

theorem iterate_keyTilePairs (hBlockI : 0 < t.blockI) (keyStart : Nat) :
    List.iterate (nextPair policy s t) (entryPair policy s t keyStart)
      (keyTilePairs policy s t keyStart).length = keyTilePairs policy s t keyStart := by
  rw [keyTilePairs, List.length_map, ← List.range_map_iterate]
  conv_rhs => rw [queryStops_eq hBlockI, List.map_map, ← length_queryStops hBlockI]
  refine List.map_congr_left fun n hn => ?_
  rw [iterate_nextPair hBlockI (List.mem_range.mp hn)]
  rfl

/-- After the query tiles of one key tile the walk comes to the next key tile. -/
theorem iterate_length_keyTilePairs (hBlockI : 0 < t.blockI) (keyStart : Nat) :
    (nextPair policy s t)^[(keyTilePairs policy s t keyStart).length] (entryPair policy s t keyStart) =
      entryPair policy s t (keyStart + t.blockJ) := by
  have hLength : (queryStops policy s t keyStart).length = _ := length_queryStops hBlockI keyStart
  obtain ⟨n, hn⟩ : ∃ n, (queryStops policy s t keyStart).length = n + 1 :=
    Nat.exists_eq_succ_of_ne_zero (by omega)
  have hEnd : ¬ (n + 1) * t.blockI < s.numQueries - (entryPair policy s t keyStart).1 := by
    rw [← lt_chunksOf_iff hBlockI]
    omega
  have hStep : (n + 1) * t.blockI = n * t.blockI + t.blockI := Nat.succ_mul n t.blockI
  rw [keyTilePairs, List.length_map, hn, Function.iterate_succ_apply',
    iterate_nextPair hBlockI (by omega), nextPair, nextIteration,
    if_neg (show ¬ (entryPair policy s t keyStart).1 + n * t.blockI + t.blockI < s.numQueries by
      omega)]
  rfl

/-! ### All key tiles -/

/-- The walk goes through the key tiles in turn. -/
theorem iterate_keyTiles (hBlockI : 0 < t.blockI) {count : Nat} {pairs : List (Nat × Nat)}
    (hPairs : pairs = (List.range count).flatMap fun n => keyTilePairs policy s t (n * t.blockJ)) :
    List.iterate (nextPair policy s t) (entryPair policy s t 0) pairs.length = pairs ∧
      (nextPair policy s t)^[pairs.length] (entryPair policy s t 0) =
        entryPair policy s t (count * t.blockJ) := by
  induction count generalizing pairs with
  | zero =>
      subst hPairs
      exact ⟨rfl, by rw [Nat.zero_mul]; rfl⟩
  | succ count ih =>
      obtain ⟨hBefore, hStop⟩ := ih rfl
      rw [List.range_succ, List.flatMap_append, List.flatMap_singleton] at hPairs
      subst hPairs
      rw [List.length_append]
      constructor
      · rw [List.iterate_add, hBefore, hStop, iterate_keyTilePairs hBlockI]
      · rw [Nat.add_comm, Function.iterate_add_apply, hStop, iterate_length_keyTilePairs hBlockI,
          Nat.succ_mul]

theorem walkedPairs_eq : walkedPairs policy s t =
    (List.range (chunksOf s.numKeys t.blockJ)).flatMap fun n => keyTilePairs policy s t (n * t.blockJ) := by
  simp only [walkedPairs, tileStarts, Nat.sub_zero, Nat.zero_add, List.flatMap_map]

theorem lt_numKeys_of_mem (hBlockJ : 0 < t.blockJ) {pair : Nat × Nat}
    (hPair : pair ∈ walkedPairs policy s t) : pair.2 < s.numKeys := by
  obtain ⟨keyStart, hKey, hHere⟩ := List.mem_flatMap.mp hPair
  obtain ⟨queryStart, -, rfl⟩ := List.mem_map.mp hHere
  exact ((mem_tileStarts hBlockJ).mp hKey).1

/-- A walk that stays inside for `count` steps and is past the last key after them visits the pairs of
these steps, if it has the fuel for them. -/
theorem walkFrom_eq {count : Nat} {here : Nat × Nat}
    (hInside : ∀ pair ∈ List.iterate (nextPair policy s t) here count, pair.2 < s.numKeys)
    (hPast : s.numKeys ≤ ((nextPair policy s t)^[count] here).2) (fuel : Nat) :
    walkFrom policy s.numQueries s.numKeys t.blockI t.blockJ fuel here =
      ((List.iterate (nextPair policy s t) here count).take fuel,
        (nextPair policy s t)^[min fuel count] here) := by
  induction fuel generalizing count here with
  | zero => rw [walkFrom, List.take_zero, Nat.zero_min, Function.iterate_zero_apply]
  | succ fuel ih =>
      cases count with
      | zero => exact if_neg (Nat.not_lt.mpr hPast)
      | succ count =>
          have hHere : here.2 < s.numKeys := hInside here List.mem_cons_self
          have hRest := ih (fun pair hPair => hInside pair (List.mem_cons_of_mem here hPair)) hPast
          rw [walkFrom, if_pos hHere, show nextIteration _ _ _ _ here = nextPair policy s t here from rfl,
            hRest, List.iterate, List.take_succ_cons, Nat.succ_min_succ, Function.iterate_succ_apply]

/-- The walk visits the pairs one after the other, and after the last it is past the last key. -/
theorem walkFrom_entryPair (hBlockI : 0 < t.blockI) (hBlockJ : 0 < t.blockJ) (fuel : Nat) :
    (walkFrom policy s.numQueries s.numKeys t.blockI t.blockJ fuel (entryPair policy s t 0)).1 =
        (walkedPairs policy s t).take fuel ∧
      ((walkedPairs policy s t).length ≤ fuel →
        (walkFrom policy s.numQueries s.numKeys t.blockI t.blockJ fuel (entryPair policy s t 0)).2 =
          entryPair policy s t (alignUp s.numKeys t.blockJ)) := by
  obtain ⟨hPairs, hStop⟩ := iterate_keyTiles (t := t) hBlockI walkedPairs_eq
  have hPast : s.numKeys ≤
      ((nextPair policy s t)^[(walkedPairs policy s t).length] (entryPair policy s t 0)).2 := by
    rw [hStop]
    exact le_alignUp hBlockJ
  rw [walkFrom_eq (fun pair hPair => lt_numKeys_of_mem hBlockJ (hPairs ▸ hPair)) hPast fuel, hPairs]
  refine ⟨rfl, fun hFuel => ?_⟩
  rw [Nat.min_eq_right hFuel]
  exact hStop

/-! ### The pairs of the loops -/

/-- The query loop of a key tile starts on the last tile boundary before the first row that the policy
names. -/
theorem isGreatest_firstQueryTile (hBlockI : 0 < t.blockI) {keyStart : Nat}
    (hSome : policy keyStart s.numQueries < s.numQueries) :
    IsGreatest {row | t.blockI ∣ row ∧ row ≤ policy keyStart s.numQueries}
      (firstQueryTile policy keyStart s.numQueries t.blockI) := by
  have hFirst : firstQueryTile policy keyStart s.numQueries t.blockI =
      policy keyStart s.numQueries / t.blockI * t.blockI := if_neg (Nat.not_le.mpr hSome)
  rw [hFirst]
  refine ⟨⟨Nat.dvd_mul_left _ _, Nat.div_mul_le_self _ _⟩, ?_⟩
  rintro row ⟨⟨n, rfl⟩, hRow⟩
  rw [Nat.mul_comm]
  exact Nat.mul_le_mul_right _ ((Nat.le_div_iff_mul_le hBlockI).mpr (Nat.mul_comm n _ ▸ hRow))

/-- The tiles of a query loop are the tile boundaries from its first one on. -/
theorem mem_tileStarts_queries (hBlockI : 0 < t.blockI) {keyStart queryStart : Nat} :
    queryStart ∈
        tileStarts (firstQueryTile policy keyStart s.numQueries t.blockI) s.numQueries t.blockI ↔
      t.blockI ∣ queryStart ∧ firstQueryTile policy keyStart s.numQueries t.blockI ≤ queryStart ∧
        queryStart < s.numQueries := by
  have hFirst : firstQueryTile policy keyStart s.numQueries t.blockI ≤ queryStart →
      queryStart < s.numQueries → t.blockI ∣ firstQueryTile policy keyStart s.numQueries t.blockI := by
    intro hLe hQuery
    obtain ⟨n, hn⟩ := firstQueryTile_of_lt (Nat.lt_of_le_of_lt hLe hQuery)
    exact ⟨n, by rw [hn, Nat.mul_comm]⟩
  rw [mem_tileStarts hBlockI]
  constructor
  · rintro ⟨hQuery, n, rfl⟩
    have hLe := Nat.le_add_right (firstQueryTile policy keyStart s.numQueries t.blockI) (n * t.blockI)
    exact ⟨Nat.dvd_add (hFirst hLe hQuery) (Nat.dvd_mul_left _ _), hLe, hQuery⟩
  · rintro ⟨hTile, hLe, hQuery⟩
    obtain ⟨n, hn⟩ := Nat.dvd_sub hTile (hFirst hLe hQuery)
    rw [Nat.mul_comm] at hn
    exact ⟨hQuery, n, by omega⟩

theorem mem_visitedPairs (hBlockI : 0 < t.blockI) (hBlockJ : 0 < t.blockJ) {pair : Nat × Nat} :
    pair ∈ visitedPairs policy s t ↔ (t.blockJ ∣ pair.2 ∧ pair.2 < s.numKeys) ∧ t.blockI ∣ pair.1 ∧
      firstQueryTile policy pair.2 s.numQueries t.blockI ≤ pair.1 ∧ pair.1 < s.numQueries := by
  obtain ⟨queryStart, keyStart⟩ := pair
  have hKey : keyStart ∈ tileStarts 0 s.numKeys t.blockJ ↔ t.blockJ ∣ keyStart ∧ keyStart < s.numKeys := by
    rw [mem_tileStarts hBlockJ, and_comm]
    simp only [Nat.zero_add, dvd_iff_exists_eq_mul_left]
  rw [← mem_tileStarts_queries hBlockI, ← hKey, visitedPairs]
  simp only [List.mem_flatMap, List.mem_map, Prod.mk.injEq]
  constructor
  · rintro ⟨_, hIn, _, hQuery, rfl, rfl⟩
    exact ⟨hIn, hQuery⟩
  · rintro ⟨hIn, hQuery⟩
    exact ⟨keyStart, hIn, queryStart, hQuery, rfl, rfl⟩

/-- Without the markers the pairs of the walk are those of the nested loops. -/
theorem filter_walkedPairs (hBlockI : 0 < t.blockI) :
    (walkedPairs policy s t).filter (fun pair => pair.1 < s.numQueries) = visitedPairs policy s t := by
  rw [walkedPairs, List.filter_flatMap, visitedPairs]
  refine List.flatMap_congr fun keyStart _ => ?_
  rcases Nat.lt_or_ge (entryPair policy s t keyStart).1 s.numQueries with hSome | hNone
  · rw [keyTilePairs, queryStops_of_lt hSome]
    refine List.filter_eq_self.mpr fun pair hPair => ?_
    obtain ⟨queryStart, hQuery, rfl⟩ := List.mem_map.mp hPair
    exact decide_eq_true ((mem_tileStarts_queries hBlockI).mp hQuery).2.2
  · have hEmpty : tileStarts (entryPair policy s t keyStart).1 s.numQueries t.blockI = [] := by
      rw [List.eq_nil_iff_forall_not_mem]
      intro queryStart hQuery
      have := (mem_tileStarts_queries hBlockI).mp hQuery
      have : (entryPair policy s t keyStart).1 ≤ queryStart := this.2.1
      omega
    rw [keyTilePairs, queryStops_of_le hNone]
    show _ = (tileStarts (entryPair policy s t keyStart).1 s.numQueries t.blockI).map _
    rw [hEmpty]
    simp

/-- There is one marker for each key tile that attends to no query. -/
theorem filter_walkedPairs_markers (hBlockI : 0 < t.blockI) :
    (walkedPairs policy s t).filter (fun pair => s.numQueries ≤ pair.1) =
      ((tileStarts 0 s.numKeys t.blockJ).filter fun keyStart =>
        s.numQueries ≤ firstQueryTile policy keyStart s.numQueries t.blockI).map (s.numQueries, ·) := by
  rw [walkedPairs, List.filter_flatMap]
  induction tileStarts 0 s.numKeys t.blockJ with
  | nil => rfl
  | cons keyStart rest ih =>
      rw [List.flatMap_cons, ih]
      rcases Nat.lt_or_ge (entryPair policy s t keyStart).1 s.numQueries with hSome | hNone
      · have hKeep : (keyTilePairs policy s t keyStart).filter (fun pair => s.numQueries ≤ pair.1) = [] := by
          rw [keyTilePairs, queryStops_of_lt hSome, List.filter_eq_nil_iff]
          intro pair hPair hPast
          obtain ⟨queryStart, hQuery, rfl⟩ := List.mem_map.mp hPair
          have hLess := ((mem_tileStarts_queries hBlockI).mp hQuery).2.2
          exact Nat.not_le.mpr hLess (of_decide_eq_true hPast)
        rw [hKeep, List.nil_append, List.filter_cons_of_neg]
        simpa [entryPair] using hSome
      · rw [keyTilePairs, queryStops_of_le hNone, List.filter_cons_of_pos (by simpa [entryPair] using hNone)]
        simp

/-- The walk goes up in the keys, and in the queries of each key tile. -/
theorem pairwise_walkedPairs (hBlockI : 0 < t.blockI) (hBlockJ : 0 < t.blockJ) :
    (walkedPairs policy s t).Pairwise fun pair later =>
      pair.2 < later.2 ∨ pair.2 = later.2 ∧ pair.1 < later.1 := by
  rw [walkedPairs, List.pairwise_flatMap]
  constructor
  · intro keyStart _
    rw [keyTilePairs, List.pairwise_map]
    rcases Nat.lt_or_ge (entryPair policy s t keyStart).1 s.numQueries with hSome | hNone
    · rw [queryStops_of_lt hSome]
      exact (pairwise_tileStarts hBlockI).imp fun hLess => .inr ⟨rfl, hLess⟩
    · rw [queryStops_of_le hNone]
      exact List.pairwise_singleton _ _
  · refine (pairwise_tileStarts hBlockJ).imp fun {keyStart keyStart'} hLess pair hPair pair' hPair' => ?_
    obtain ⟨_, -, rfl⟩ := List.mem_map.mp hPair
    obtain ⟨_, -, rfl⟩ := List.mem_map.mp hPair'
    exact .inl hLess

/-! ### Visits of a key tile -/

/-- The flags of a key tile are raised once each, at the first and at the last of its query tiles. -/
theorem Kernel.filter_keyVisit {α ε : Type} {kernel : Kernel α ε} {keyStart : Nat}
    (hBlockI : 0 < kernel.tiles.blockI) (hBlockJ : 0 < kernel.tiles.blockJ)
    (hReach : kernel.firstQuery keyStart < kernel.shape.numQueries) :
    ∃ first last, (kernel.queryStarts keyStart).head? = some first ∧
      (kernel.queryStarts keyStart).getLast? = some last ∧
      (kernel.queryStarts keyStart).filter (fun q => (kernel.keyVisit q keyStart).isFirst) = [first] ∧
      (kernel.queryStarts keyStart).filter (fun q => (kernel.keyVisit q keyStart).isLast) = [last] := by
  obtain ⟨n, hCount⟩ := Nat.exists_eq_succ_of_ne_zero (Nat.ne_of_gt (chunksOf_pos hBlockI
    (show 0 < kernel.shape.numQueries - kernel.firstQuery keyStart by omega)))
  have hVisit : ∀ m ∈ List.range (n + 1),
      kernel.keyVisit (kernel.firstQuery keyStart + m * kernel.tiles.blockI) keyStart =
        ⟨m = 0, m = n⟩ := by
    intro m hm
    rw [keyVisit_eq hBlockI hBlockJ (hCount ▸ List.mem_range.mp hm), hCount]
    simp only [Nat.succ_eq_add_one, Nat.add_right_cancel_iff]
  have hOnce : ∀ place ∈ List.range (n + 1), ∀ flag : Nat → Bool,
      (∀ m ∈ List.range (n + 1),
        flag (kernel.firstQuery keyStart + m * kernel.tiles.blockI) = decide (m = place)) →
      (kernel.queryStarts keyStart).filter flag =
        [kernel.firstQuery keyStart + place * kernel.tiles.blockI] := by
    intro place hPlace flag hFlag
    have hSame : (List.range (n + 1)).filter
        (flag ∘ (kernel.firstQuery keyStart + · * kernel.tiles.blockI)) =
          (List.range (n + 1)).filter fun m => m = place := List.filter_congr hFlag
    rw [queryStarts, tileStarts, hCount, List.filter_map, hSame, List.filter_eq,
      List.count_eq_one_of_mem List.nodup_range hPlace]
    rfl
  refine ⟨_, _, ?_, ?_, hOnce 0 (List.mem_range.mpr (Nat.succ_pos n)) _ fun m hm => by rw [hVisit m hm],
    hOnce n (List.mem_range.mpr (Nat.lt_succ_self n)) _ fun m hm => by rw [hVisit m hm]⟩
  · rw [queryStarts, tileStarts, hCount, Nat.succ_eq_add_one, List.range_succ_eq_map]
    rfl
  · rw [queryStarts, tileStarts, hCount, Nat.succ_eq_add_one, List.range_succ, List.map_append,
      List.map_singleton, List.getLast?_concat]

/-! ### The walk and the loops -/

/-- The walk from the first pair of tiles on ends, past the last key, and visits the pairs of the nested
loops in their order, with one marker past the last query for each key tile that attends to no query. The
query loop of a key tile goes over the tile boundaries from the last one before the first row that the
policy names, and of its tiles the first alone is flagged as the first visit and the last alone as the
last. -/
theorem walk_eq_loops (policy : QueryStart) {s : Shape} {t : TileSize} (hBlockI : 0 < t.blockI)
    (hBlockJ : 0 < t.blockJ) :
    let firstTile := fun keyStart => firstQueryTile policy keyStart s.numQueries t.blockI
    let walk := fun fuel =>
      walkFrom policy s.numQueries s.numKeys t.blockI t.blockJ fuel (firstTile 0, 0)
    let pairs := walkedPairs policy s t
    ((∀ fuel, (walk fuel).1 = pairs.take fuel) ∧
      ∀ fuel, pairs.length ≤ fuel → (walk fuel).1 = pairs ∧ s.numKeys ≤ (walk fuel).2.2) ∧
    (pairs.Pairwise (fun pair later => pair.2 < later.2 ∨ pair.2 = later.2 ∧ pair.1 < later.1) ∧
      pairs.filter (fun pair => pair.1 < s.numQueries) = visitedPairs policy s t ∧
      pairs.filter (fun pair => s.numQueries ≤ pair.1) =
        ((tileStarts 0 s.numKeys t.blockJ).filter fun keyStart => s.numQueries ≤ firstTile keyStart).map
          (s.numQueries, ·)) ∧
    (∀ queryStart keyStart, (queryStart, keyStart) ∈ visitedPairs policy s t ↔
      (t.blockJ ∣ keyStart ∧ keyStart < s.numKeys) ∧
        t.blockI ∣ queryStart ∧ firstTile keyStart ≤ queryStart ∧ queryStart < s.numQueries) ∧
    (∀ keyStart, (s.numQueries ≤ policy keyStart s.numQueries → firstTile keyStart = s.numQueries) ∧
      (policy keyStart s.numQueries < s.numQueries →
        IsGreatest {row | t.blockI ∣ row ∧ row ≤ policy keyStart s.numQueries} (firstTile keyStart))) ∧
    ∀ {α ε : Type} (kernel : Kernel α ε), kernel.policy = policy → kernel.shape = s → kernel.tiles = t →
      ∀ keyStart, firstTile keyStart < s.numQueries →
        let starts := tileStarts (firstTile keyStart) s.numQueries t.blockI
        ∃ first last, starts.head? = some first ∧ starts.getLast? = some last ∧
          starts.filter (fun q => (kernel.keyVisit q keyStart).isFirst) = [first] ∧
          starts.filter (fun q => (kernel.keyVisit q keyStart).isLast) = [last] := by
  intro firstTile walk pairs
  have hWalk := @walkFrom_entryPair policy s t hBlockI hBlockJ
  refine ⟨⟨fun fuel => (hWalk fuel).1, fun fuel hFuel => ⟨?_, ?_⟩⟩,
    ⟨pairwise_walkedPairs hBlockI hBlockJ, filter_walkedPairs hBlockI,
      filter_walkedPairs_markers hBlockI⟩,
    fun queryStart keyStart => mem_visitedPairs hBlockI hBlockJ, fun keyStart => ⟨fun hNone => ?_,
      isGreatest_firstQueryTile hBlockI⟩, ?_⟩
  · exact (hWalk fuel).1.trans (List.take_of_length_le hFuel)
  · exact (congrArg Prod.snd ((hWalk fuel).2 hFuel)).symm ▸ le_alignUp hBlockJ
  · exact if_pos hNone
  · rintro α ε kernel rfl rfl rfl keyStart hReach
    exact Kernel.filter_keyVisit hBlockI hBlockJ hReach

/-- Ten queries in tiles of four and twenty keys in tiles of eight. The first key tile attends to no query,
the second to those from the seventh on, the third to all. -/
theorem walk_eq_loops_threeTiles :
    let policy : QueryStart := .ofList 8 [25, 7] 0
    let s : Shape := ⟨1, 1, 10, 20, 8, 8, 1⟩
    let t : TileSize := ⟨4, 8, 8⟩
    0 < t.blockI ∧ 0 < t.blockJ ∧
      (walkFrom policy 10 20 4 8 6 (firstQueryTile policy 0 10 4, 0)).1 =
        [(10, 0), (4, 8), (8, 8), (0, 16), (4, 16), (8, 16)] ∧
      visitedPairs policy s t = [(4, 8), (8, 8), (0, 16), (4, 16), (8, 16)] := by
  intro policy s t
  obtain ⟨⟨hWalk, -⟩, ⟨-, hLoops, -⟩, -⟩ :=
    walk_eq_loops policy (s := s) (t := t) (by decide) (by decide)
  exact ⟨by decide, by decide, (hWalk 6).trans (by decide), hLoops.symm.trans (by decide)⟩

end FusedAttention
