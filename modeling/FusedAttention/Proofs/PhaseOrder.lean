import FusedAttention.Kernel.Phase
import Mathlib.Computability.Language
import Mathlib.Data.List.Chain

/-! The order of the phases as a language. Phases may follow one another just if they begin a word of
the pipeline: passes over query tiles, with keys loaded as often as wanted before each and at the end. -/
namespace FusedAttention

open Computability

/-- Rounds that end with a `b`, after as many `a` as wanted, and with as many `a` at the end are made by
putting one `a` or one `b` in front after the other. -/
theorem kstar_mul_kstar_unfold {κ : Type*} [KleeneAlgebra κ] (a b : κ) :
    (a∗ * b)∗ * a∗ = 1 + a * ((a∗ * b)∗ * a∗) + b * ((a∗ * b)∗ * a∗) := by
  have hRound : (a∗ * b)∗ * a∗ = a∗ + a∗ * (b * ((a∗ * b)∗ * a∗)) := by
    conv_lhs => rw [← one_add_mul_kstar (a := a∗ * b)]
    rw [add_mul, one_mul, mul_assoc, mul_assoc]
  have hFront : ∀ x : κ, a∗ * x = x + a * (a∗ * x) := fun x => by
    conv_lhs => rw [← one_add_mul_kstar (a := a)]
    rw [add_mul, one_mul, mul_assoc]
  generalize (a∗ * b)∗ * a∗ = rounds at hRound ⊢
  calc rounds
    _ = a∗ + a∗ * (b * rounds) := hRound
    _ = (1 + a * a∗) + (b * rounds + a * (a∗ * (b * rounds))) := by
        rw [one_add_mul_kstar, ← hFront]
    _ = (1 + b * rounds) + a * (a∗ + a∗ * (b * rounds)) := by rw [add_add_add_comm, mul_add]
    _ = 1 + a * rounds + b * rounds := by rw [← hRound, add_right_comm]

namespace Phase

/-- One pass over a query tile. -/
def pass : List Phase :=
  [.loadQueries, .scoreRecompute, .valueGrad, .scoreGrad, .queryGrad, .keyGrad]

/-- The words of the pipeline. -/
def pipeline : Language Phase :=
  ({[.loadKeys]}∗ * {pass})∗ * {[.loadKeys]}∗

/-- What is left of the pass that a phase stands in. -/
def remaining : Phase → List Phase
  | .loadKeys => []
  | .loadQueries => [.scoreRecompute, .valueGrad, .scoreGrad, .queryGrad, .keyGrad]
  | .scoreRecompute => [.valueGrad, .scoreGrad, .queryGrad, .keyGrad]
  | .valueGrad => [.scoreGrad, .queryGrad, .keyGrad]
  | .scoreGrad => [.queryGrad, .keyGrad]
  | .queryGrad => [.keyGrad]
  | .keyGrad => []

/-- Every phase may follow the one before it, the first of them `p`. -/
def Accepts (p : Phase) (phases : List Phase) : Prop :=
  (p :: phases).IsChain fun p q => p.allows q = true

/-! ### The pipeline -/

/-- A word of the pipeline is empty, or it loads keys or runs through a pass first. -/
theorem mem_pipeline {word : List Phase} : word ∈ pipeline ↔
    word = [] ∨ (∃ rest ∈ pipeline, .loadKeys :: rest = word) ∨
      ∃ rest ∈ pipeline, pass ++ rest = word := by
  have hUnfold : pipeline = 1 + {[.loadKeys]} * pipeline + {pass} * pipeline :=
    kstar_mul_kstar_unfold _ _
  have hSingle : ∀ front : List Phase, word ∈ ({front} : Language Phase) * pipeline ↔
      ∃ rest ∈ pipeline, front ++ rest = word := fun front => by
    rw [Language.mem_mul]
    exact ⟨fun ⟨_, rfl, h⟩ => h, fun h => ⟨front, rfl, h⟩⟩
  conv_lhs => rw [hUnfold]
  rw [Language.mem_add, Language.mem_add, Language.mem_one, hSingle, hSingle, or_assoc]
  rfl

theorem nil_mem_pipeline : [] ∈ pipeline :=
  mem_pipeline.mpr (.inl rfl)

theorem loadKeys_cons_mem_pipeline {word : List Phase} (h : word ∈ pipeline) :
    .loadKeys :: word ∈ pipeline :=
  mem_pipeline.mpr (.inr (.inl ⟨word, h, rfl⟩))

theorem pass_append_mem_pipeline {word : List Phase} (h : word ∈ pipeline) :
    pass ++ word ∈ pipeline :=
  mem_pipeline.mpr (.inr (.inr ⟨word, h, rfl⟩))

/-- Passes one after the other, one for each element of a list. -/
theorem passes_append_mem_pipeline {ι : Type} (list : List ι) {word : List Phase}
    (h : word ∈ pipeline) : list.flatMap (fun _ => pass) ++ word ∈ pipeline := by
  induction list with
  | nil => exact h
  | cons i rest ih =>
      rw [List.flatMap_cons, List.append_assoc]
      exact pass_append_mem_pipeline ih

/-! ### Acceptance -/

/-- A phase is followed by the next one of its pass. After the pass keys are loaded or another one
begins. -/
theorem allows_iff {p q : Phase} : p.allows q = true ↔
    p.remaining = q :: q.remaining ∨ p.remaining = [] ∧ (q = .loadKeys ∨ q = .loadQueries) := by
  cases p <;> cases q <;> simp [allows, remaining]

theorem remaining_eq_of_cons {p q : Phase} {rest : List Phase} (h : p.remaining = q :: rest) :
    rest = q.remaining := by
  cases p <;> cases h <;> rfl

theorem Accepts.nil (p : Phase) : p.Accepts [] :=
  .singleton p

theorem accepts_cons {p q : Phase} {phases : List Phase} :
    p.Accepts (q :: phases) ↔ p.allows q = true ∧ q.Accepts phases :=
  List.isChain_cons_cons

/-- Phases are accepted just if they begin what is left of the pass and a word of the pipeline. -/
theorem accepts_iff {p : Phase} {phases : List Phase} :
    p.Accepts phases ↔ ∃ word ∈ pipeline, phases <+: p.remaining ++ word := by
  induction phases generalizing p with
  | nil => exact iff_of_true (.nil p) ⟨[], nil_mem_pipeline, List.nil_prefix⟩
  | cons q rest ih =>
      rw [accepts_cons, ih]
      constructor
      · rintro ⟨hAllows, word, hWord, hRest⟩
        rcases allows_iff.mp hAllows with hNext | ⟨hDone, rfl | rfl⟩
        · refine ⟨word, hWord, ?_⟩
          rw [hNext]
          exact List.cons_prefix_cons.mpr ⟨rfl, hRest⟩
        · refine ⟨_, loadKeys_cons_mem_pipeline hWord, ?_⟩
          rw [hDone]
          exact List.cons_prefix_cons.mpr ⟨rfl, hRest⟩
        · refine ⟨_, pass_append_mem_pipeline hWord, ?_⟩
          rw [hDone]
          exact List.cons_prefix_cons.mpr ⟨rfl, hRest⟩
      · rintro ⟨word, hWord, hPrefix⟩
        cases hDone : p.remaining with
        | cons next others =>
            rw [hDone] at hPrefix
            obtain ⟨rfl, hRest⟩ := List.cons_prefix_cons.mp hPrefix
            obtain rfl := remaining_eq_of_cons hDone
            exact ⟨allows_iff.mpr (.inl hDone), word, hWord, hRest⟩
        | nil =>
            rw [hDone, List.nil_append] at hPrefix
            rcases mem_pipeline.mp hWord with rfl | ⟨after, hAfter, rfl⟩ | ⟨after, hAfter, rfl⟩
            · cases List.prefix_nil.mp hPrefix
            · obtain ⟨rfl, hRest⟩ := List.cons_prefix_cons.mp hPrefix
              exact ⟨allows_iff.mpr (.inr ⟨hDone, .inl rfl⟩), after, hAfter, hRest⟩
            · obtain ⟨rfl, hRest⟩ := List.cons_prefix_cons.mp hPrefix
              exact ⟨allows_iff.mpr (.inr ⟨hDone, .inr rfl⟩), after, hAfter, hRest⟩

/-- Where keys may be loaded, phases are accepted just if they begin a word of the pipeline. -/
theorem loadKeys_accepts_iff {phases : List Phase} :
    loadKeys.Accepts phases ↔ ∃ word ∈ pipeline, phases <+: word :=
  accepts_iff

/-- Inside of a pass all of it up to the phase has come before. -/
theorem Accepts.exists_pass {q : Phase} {phases : List Phase}
    (h : loadKeys.Accepts (phases ++ [q])) (hInside : q ≠ .loadKeys) :
    ∃ earlier sofar, phases = earlier ++ sofar ∧ sofar ++ q :: q.remaining = pass := by
  by_cases hStart : q = .loadQueries
  · subst hStart
    exact ⟨phases, [], (List.append_nil _).symm, rfl⟩
  -- The phase before is inside of the same pass, so the induction goes back from the end.
  induction phases using List.reverseRecOn generalizing q with
  | nil =>
      rcases allows_iff.mp (accepts_cons.mp h).1 with hNext | ⟨-, hFirst⟩
      · cases hNext
      · exact absurd hFirst (by simp [hInside, hStart])
  | append_singleton before p ih =>
      have hChain : (loadKeys :: before ++ p :: q :: []).IsChain fun p q => p.allows q = true := by
        simpa [Accepts] using h
      obtain ⟨hBefore, hAllows, -⟩ := List.isChain_append_cons_cons.mp hChain
      have hNext : p.remaining = q :: q.remaining :=
        (allows_iff.mp hAllows).resolve_right fun hFirst => by simp [hInside, hStart] at hFirst
      have hPass : ∃ earlier sofar, before = earlier ++ sofar ∧ sofar ++ p :: p.remaining = pass := by
        by_cases hQueries : p = .loadQueries
        · subst hQueries
          exact ⟨before, [], (List.append_nil _).symm, rfl⟩
        · exact ih hBefore (by rintro rfl; cases hNext) hQueries
      obtain ⟨earlier, sofar, rfl, hSofar⟩ := hPass
      refine ⟨earlier, sofar ++ [p], List.append_assoc _ _ _, ?_⟩
      rw [List.append_assoc, List.singleton_append, ← hNext, hSofar]

end Phase

end FusedAttention
