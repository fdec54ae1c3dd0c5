import FusedAttention.Kernel.Scratch
import FusedAttention.Proofs.PhaseOrder
import FusedAttention.Proofs.Steps

/-! The regions of scratch storage between the phases. A phase is opened with a view: some regions are
shown, those that the phase produces can be written, all others are out of reach. Whatever the holders
of the views write, a region that a view shows was written by the phase that produces it, and in the same
pass unless it belongs to the key tile. -/
namespace FusedAttention

/-- The regions of scratch storage. -/
inductive Region where
  | keyRows
  | valueRows
  | queryRows
  | gradOutRows
  | lse
  | delta
  | probT
  | mask
  | staging
  | gradScores
  deriving DecidableEq, Repr

namespace Region

/-- What a region holds. -/
abbrev Contents (α : Type) (t : TileSize) : Region → Type
  | .keyRows | .valueRows => Tile α t.blockJ t.maxHeadDim
  | .queryRows | .gradOutRows => Tile α t.blockI t.maxHeadDim
  | .lse | .delta => Vector α t.blockI
  | .probT | .staging => Tile α t.blockJ t.blockI
  | .mask | .gradScores => Tile α t.blockI t.blockJ

/-- The phase whose view lets a region be written. -/
def producer : Region → Phase
  | .keyRows | .valueRows => .loadKeys
  | .queryRows | .gradOutRows | .lse | .delta => .loadQueries
  | .probT | .mask => .scoreRecompute
  | .staging => .valueGrad
  | .gradScores => .scoreGrad

end Region

/-- The regions that the view of a phase shows without letting them be written. -/
def Phase.reads : Phase → List Region
  | .loadKeys | .loadQueries => []
  | .scoreRecompute => [.queryRows, .keyRows, .lse]
  | .valueGrad => [.probT, .mask, .gradOutRows]
  | .scoreGrad => [.probT, .mask, .gradOutRows, .valueRows, .delta]
  | .queryGrad => [.gradScores, .keyRows]
  | .keyGrad => [.gradScores, .queryRows]

/-- One opening of a phase, and what the holder of its view leaves in the regions that the phase
produces. What it leaves may depend on all that the storage holds. -/
structure Use (α : Type) (t : TileSize) where
  phase : Phase
  leave : Scratch α t → (r : Region) → r.Contents α t

variable {α : Type} {t : TileSize}

namespace Scratch

def region (s : Scratch α t) : (r : Region) → r.Contents α t
  | .keyRows => s.keyRows
  | .valueRows => s.valueRows
  | .queryRows => s.queryRows
  | .gradOutRows => s.gradOutRows
  | .lse => s.lse
  | .delta => s.delta
  | .probT => s.probT
  | .mask => s.mask
  | .staging => s.staging
  | .gradScores => s.gradScores

def ofRegions (phase : Phase) (f : (r : Region) → r.Contents α t) : Scratch α t where
  phase := phase
  keyRows := f .keyRows
  valueRows := f .valueRows
  queryRows := f .queryRows
  gradOutRows := f .gradOutRows
  lse := f .lse
  delta := f .delta
  probT := f .probT
  mask := f .mask
  staging := f .staging
  gradScores := f .gradScores

@[simp] theorem phase_ofRegions (phase : Phase) (f : (r : Region) → r.Contents α t) :
    (ofRegions phase f).phase = phase := rfl

@[simp] theorem region_ofRegions (phase : Phase) (f : (r : Region) → r.Contents α t) (r : Region) :
    (ofRegions phase f).region r = f r := by
  cases r <;> rfl

theorem ext_region {s s' : Scratch α t} (hPhase : s.phase = s'.phase)
    (hRegions : ∀ r, s.region r = s'.region r) : s = s' := by
  obtain ⟨phase, keyRows, valueRows, queryRows, gradOutRows, lse, delta, probT, mask, staging,
    gradScores⟩ := s
  obtain rfl : phase = s'.phase := hPhase
  obtain rfl : keyRows = s'.keyRows := hRegions .keyRows
  obtain rfl : valueRows = s'.valueRows := hRegions .valueRows
  obtain rfl : queryRows = s'.queryRows := hRegions .queryRows
  obtain rfl : gradOutRows = s'.gradOutRows := hRegions .gradOutRows
  obtain rfl : lse = s'.lse := hRegions .lse
  obtain rfl : delta = s'.delta := hRegions .delta
  obtain rfl : probT = s'.probT := hRegions .probT
  obtain rfl : mask = s'.mask := hRegions .mask
  obtain rfl : staging = s'.staging := hRegions .staging
  obtain rfl : gradScores = s'.gradScores := hRegions .gradScores
  rfl

/-- Opens the phase of a use. If it is not refused, the regions that the phase produces are left as the
use has it and the others as they are. -/
def use (s : Scratch α t) (u : Use α t) : Except Fault (Scratch α t) := do
  let opened ← s.enter u.phase
  return .ofRegions u.phase fun r =>
    if r.producer = u.phase then u.leave opened r else opened.region r

/-- Several uses, one after the other. -/
def useAll (s : Scratch α t) (uses : List (Use α t)) : Except Fault (Scratch α t) :=
  uses.foldlM use s

/-- Two storages show the same in the view of a phase. -/
def SameView (phase : Phase) (s s' : Scratch α t) : Prop :=
  ∀ r ∈ phase.reads, s.region r = s'.region r

/-- In the last of several uses of the phase that produces a region, `x` was left there. -/
def LastLeft (s : Scratch α t) (uses : List (Use α t)) (r : Region) (x : r.Contents α t) : Prop :=
  ∃ before u after opened, uses = before ++ u :: after ∧ u.phase = r.producer ∧
    (∀ w ∈ after, w.phase ≠ r.producer) ∧ (s.useAll before >>= (·.enter u.phase)) = .ok opened ∧
    x = u.leave opened r

variable {s next last : Scratch α t} {u : Use α t} {uses : List (Use α t)}

/-! ### One use -/

theorem use_of_allows (h : s.phase.allows u.phase = true) :
    s.use u = .ok (.ofRegions u.phase fun r =>
      if r.producer = u.phase then u.leave { s with phase := u.phase } r else s.region r) := by
  rw [use, enter, if_pos h, ok_bind]
  rfl

theorem use_of_refused (h : s.phase.allows u.phase = false) :
    s.use u = .error (.phaseOrder s.phase u.phase) := by
  rw [use, enter, if_neg (by rw [h]; exact Bool.false_ne_true)]
  rfl

theorem use_eq_error_iff {fault : Fault} : s.use u = .error fault ↔
    s.phase.allows u.phase = false ∧ fault = .phaseOrder s.phase u.phase := by
  cases hAllows : s.phase.allows u.phase with
  | false =>
      rw [use_of_refused hAllows, Except.error.injEq, eq_comm]
      exact (and_iff_right rfl).symm
  | true =>
      rw [use_of_allows hAllows]
      exact ⟨nofun, nofun⟩

/-- A use that is not refused changes the phase and the regions that its phase produces, and nothing
else. -/
theorem use_cases (h : s.use u = .ok next) :
    s.phase.allows u.phase = true ∧ next.phase = u.phase ∧
      (∀ r, r.producer = u.phase → next.region r = u.leave { s with phase := u.phase } r) ∧
      ∀ r, r.producer ≠ u.phase → next.region r = s.region r := by
  cases hAllows : s.phase.allows u.phase with
  | false =>
      rw [use_of_refused hAllows] at h
      cases h
  | true =>
      rw [use_of_allows hAllows] at h
      cases h
      refine ⟨rfl, rfl, fun r hr => ?_, fun r hr => ?_⟩
      · rw [region_ofRegions, if_pos hr]
      · rw [region_ofRegions, if_neg hr]

/-- A change of storage that is one of a use. -/
theorem use_eq_of_keeps {phase : Phase} (hAllows : s.phase.allows phase = true)
    (hPhase : next.phase = phase) (hKept : ∀ r, r.producer ≠ phase → next.region r = s.region r) :
    s.use ⟨phase, fun _ => next.region⟩ = .ok next := by
  rw [use_of_allows hAllows]
  refine congrArg Except.ok (ext_region hPhase.symm fun r => ?_)
  rw [region_ofRegions]
  split
  · rfl
  · exact (hKept r ‹_›).symm

/-! ### Sequences of uses -/

/-- A run of uses stops just at one that is refused, and keeps the storage as it was before. -/
theorem runUntil_use_iff {fault : Fault} : runUntil use s uses = (last, some fault) ↔
    ∃ before u after, uses = before ++ u :: after ∧ s.useAll before = .ok last ∧
      last.phase.allows u.phase = false ∧ fault = .phaseOrder last.phase u.phase := by
  rw [runUntil_eq_some_iff]
  simp only [use_eq_error_iff, useAll]

theorem useAll_cons : s.useAll (u :: uses) = s.use u >>= fun next => next.useAll uses :=
  List.foldlM_cons

theorem useAll_append {more : List (Use α t)} :
    s.useAll (uses ++ more) = s.useAll uses >>= fun next => next.useAll more :=
  List.foldlM_append

@[simp] theorem useAll_singleton : s.useAll [u] = s.use u := by
  rw [useAll_cons]
  exact bind_pure _

/-- Uses are accepted just if their phases may follow one another. -/
theorem useAll_eq_ok_iff :
    (∃ last, s.useAll uses = .ok last) ↔ s.phase.Accepts (uses.map (·.phase)) := by
  induction uses generalizing s with
  | nil => exact iff_of_true ⟨s, rfl⟩ (.nil _)
  | cons u rest ih =>
      rw [List.map_cons, Phase.accepts_cons, useAll_cons]
      cases hAllows : s.phase.allows u.phase with
      | false => simp [use_of_refused hAllows, bind, Except.bind]
      | true =>
          rw [use_of_allows hAllows, ok_bind, ih]
          simp

/-- After uses that were accepted, more phases are accepted just if all of them are. -/
theorem accepts_after (h : s.useAll uses = .ok last) {phases : List Phase} :
    s.phase.Accepts (uses.map (·.phase) ++ phases) ↔ last.phase.Accepts phases := by
  induction uses generalizing s with
  | nil =>
      cases h
      rfl
  | cons u rest ih =>
      rw [useAll_cons] at h
      obtain ⟨next, hUse, hRest⟩ := exists_of_bind_eq_ok h
      obtain ⟨hAllows, hPhase, -⟩ := use_cases hUse
      rw [List.map_cons, List.cons_append, Phase.accepts_cons, ← hPhase, ih hRest, hPhase]
      exact and_iff_right hAllows

/-- A region holds what the last use of the phase that produces it left there, or what it held before if
there was none. -/
theorem lastLeft_or_unused (h : s.useAll uses = .ok last) (r : Region) :
    s.LastLeft uses r (last.region r) ∨
      (∀ u ∈ uses, u.phase ≠ r.producer) ∧ last.region r = s.region r := by
  induction uses using List.reverseRecOn generalizing last with
  | nil =>
      cases h
      exact .inr ⟨nofun, rfl⟩
  | append_singleton earlier u ih =>
      rw [useAll_append] at h
      obtain ⟨middle, hEarlier, hUse⟩ := exists_of_bind_eq_ok h
      rw [useAll_singleton] at hUse
      obtain ⟨hAllows, -, hOwn, hOther⟩ := use_cases hUse
      by_cases hProduces : u.phase = r.producer
      · refine .inl ⟨earlier, u, [], { middle with phase := u.phase }, rfl, hProduces, nofun, ?_,
          hOwn r hProduces.symm⟩
        rw [hEarlier, ok_bind, enter, if_pos hAllows]
      · rw [hOther r (Ne.symm hProduces)]
        rcases ih hEarlier with ⟨before, w, after, opened, rfl, hw, hAfter, hOpened, hLeft⟩ | ⟨hNone, hKept⟩
        · refine .inl ⟨before, w, after ++ [u], opened, by simp, hw, ?_, hOpened, hLeft⟩
          intro x hx
          rcases List.mem_append.mp hx with hx | hx
          · exact hAfter x hx
          · rw [List.mem_singleton.mp hx]
            exact hProduces
        · refine .inr ⟨?_, hKept⟩
          intro x hx
          rcases List.mem_append.mp hx with hx | hx
          · exact hNone x hx
          · rw [List.mem_singleton.mp hx]
            exact hProduces

/-- Without a use of the phase that produces it a region stays as it is. -/
theorem region_of_unused (h : s.useAll uses = .ok last) {r : Region}
    (hUnused : r.producer ∉ uses.map (·.phase)) : last.region r = s.region r := by
  rcases lastLeft_or_unused h r with ⟨before, u, after, -, rfl, hu, -⟩ | ⟨-, hKept⟩
  · exact absurd (List.mem_map.mpr ⟨u, by simp, hu⟩) hUnused
  · exact hKept

/-- With one, a region holds what the last of them left. -/
theorem lastLeft_of_used (h : s.useAll uses = .ok last) {r : Region}
    (hUsed : r.producer ∈ uses.map (·.phase)) : s.LastLeft uses r (last.region r) := by
  obtain ⟨u, hMem, hu⟩ := List.mem_map.mp hUsed
  exact (lastLeft_or_unused h r).resolve_right fun hNone => hNone.1 u hMem hu

end Scratch

/-! ### Passes -/

namespace Phase

theorem mem_pass {p : Phase} (h : p ≠ .loadKeys) : p ∈ pass := by
  cases p with
  | loadKeys => exact absurd rfl h
  | _ => decide

/-- No phase reads what is produced in the same phase or after it in the same pass. -/
theorem producer_notMem_of_reads {p : Phase} {r : Region} (h : r ∈ p.reads) :
    r.producer ∉ p :: p.remaining := by
  cases p <;> cases r <;> revert h <;> decide

/-- What a phase reads is produced before it in the same pass, if not by loading keys. -/
theorem producer_mem_of_reads {p : Phase} {r : Region} {sofar : List Phase}
    (hSofar : sofar ++ p :: p.remaining = pass) (hReads : r ∈ p.reads)
    (hPass : r.producer ≠ .loadKeys) : r.producer ∈ sofar := by
  have hMem := mem_pass hPass
  rw [← hSofar] at hMem
  exact (List.mem_append.mp hMem).resolve_right (producer_notMem_of_reads hReads)

end Phase

namespace Scratch

variable {s middle last next : Scratch α t} {u : Use α t} {uses earlier sofar : List (Use α t)}

/-- Inside of a pass, a region that belongs to the key tile is what it was before the pass. -/
theorem region_of_pass (h : middle.useAll sofar = .ok last)
    (hPass : sofar.map (·.phase) <+: Phase.pass) {r : Region} (hKeys : r.producer = .loadKeys) :
    last.region r = middle.region r := by
  refine region_of_unused h fun hMem => ?_
  rw [hKeys] at hMem
  exact absurd (hPass.subset hMem) (by decide)

/-- A use inside of a pass comes after all of the pass up to it. -/
theorem exists_pass (hStart : s.phase = .loadKeys) (h : s.useAll uses = .ok last)
    (hUse : last.use u = .ok next) (hInside : u.phase ≠ .loadKeys) :
    ∃ earlier sofar middle, uses = earlier ++ sofar ∧ s.useAll earlier = .ok middle ∧
      middle.useAll sofar = .ok last ∧
      sofar.map (·.phase) ++ u.phase :: u.phase.remaining = Phase.pass := by
  have hAll : s.useAll (uses ++ [u]) = .ok next := by
    rw [useAll_append, h, ok_bind, useAll_singleton, hUse]
  have hAccepts := useAll_eq_ok_iff.mp ⟨next, hAll⟩
  rw [hStart, List.map_append] at hAccepts
  obtain ⟨earlierPhases, sofarPhases, hSplit, hPass⟩ := hAccepts.exists_pass hInside
  obtain ⟨earlier, sofar, rfl, rfl, rfl⟩ := List.map_eq_append_iff.mp hSplit
  rw [useAll_append] at h
  obtain ⟨middle, hEarlier, hSofar⟩ := exists_of_bind_eq_ok h
  exact ⟨earlier, sofar, middle, rfl, hEarlier, hSofar, hPass⟩

/-- A region that is read in `phase` after `uses` is up to date. If it does not belong to the key tile, it
was left by the phase that produces it in the same pass, which begins with `sofar`. If it does, it is as
it was before the pass: as keys were loaded last, or as at the start if they never were. -/
def UpToDate (s : Scratch α t) (uses : List (Use α t)) (last : Scratch α t) (phase : Phase)
    (r : Region) : Prop :=
  ∃ earlier sofar middle, uses = earlier ++ sofar ∧ s.useAll earlier = .ok middle ∧
    sofar.map (·.phase) ++ [phase] <+: Phase.pass ∧
    if r.producer = .loadKeys then
      last.region r = middle.region r ∧ (s.LastLeft earlier r (last.region r) ∨
        (∀ w ∈ uses, w.phase ≠ .loadKeys) ∧ last.region r = s.region r)
    else middle.LastLeft sofar r (last.region r)

/-- Every region that a use reads is up to date, and stays so while it is read. -/
theorem upToDate_of_reads (hStart : s.phase = .loadKeys) (h : s.useAll uses = .ok last)
    (hUse : last.use u = .ok next) {r : Region} (hReads : r ∈ u.phase.reads) :
    s.UpToDate uses last u.phase r ∧ next.region r = last.region r := by
  have hInside : u.phase ≠ .loadKeys := fun hKeys => by
    rw [hKeys] at hReads
    cases hReads
  obtain ⟨earlier, sofar, middle, rfl, hEarlier, hSofar, hPass⟩ := exists_pass hStart h hUse hInside
  have hUpTo : sofar.map (·.phase) ++ [u.phase] <+: Phase.pass :=
    ⟨u.phase.remaining, by rw [List.append_assoc, List.singleton_append, hPass]⟩
  have hBegins : sofar.map (·.phase) <+: Phase.pass := (List.prefix_append _ _).trans hUpTo
  have hKept : next.region r = last.region r := by
    refine (use_cases hUse).2.2.2 r fun hOwn => ?_
    exact Phase.producer_notMem_of_reads hReads (by rw [hOwn]; exact List.mem_cons_self)
  refine ⟨⟨earlier, sofar, middle, rfl, hEarlier, hUpTo, ?_⟩, hKept⟩
  by_cases hKeys : r.producer = .loadKeys
  · have hSame := region_of_pass hSofar hBegins hKeys
    rw [if_pos hKeys]
    refine ⟨hSame, ?_⟩
    rw [hSame]
    refine (lastLeft_or_unused hEarlier r).imp_right fun ⟨hNone, hFirst⟩ => ⟨fun w hw => ?_, hFirst⟩
    rcases List.mem_append.mp hw with hw | hw
    · rw [← hKeys]
      exact hNone w hw
    · intro hLoads
      have hMem := hBegins.subset (List.mem_map.mpr ⟨w, hw, hLoads⟩)
      exact absurd hMem (by decide)
  · rw [if_neg hKeys]
    exact lastLeft_of_used hSofar (Phase.producer_mem_of_reads hPass hReads hKeys)

end Scratch

end FusedAttention
