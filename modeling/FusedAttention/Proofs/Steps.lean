import FusedAttention.Fault

/-! Runs of steps that can fail. A loop is opened once: if every step succeeds from the states
that an invariant allows, the loop succeeds, and what each step did is kept as a trace. What a
whole loop does to one part of the state is then read off the trace. Two runs go in step if what they
lead to is related whenever both succeed. -/
namespace FusedAttention

variable {σ ι β : Type}

/-- The states that a list of steps leads through, each step related to its two states by
`rel`. -/
inductive Steps (rel : σ → ι → σ → Prop) : σ → List ι → σ → Prop where
  | nil (state : σ) : Steps rel state [] state
  | cons {state next last : σ} {i : ι} {rest : List ι}
      (first : rel state i next) (others : Steps rel next rest last) :
      Steps rel state (i :: rest) last

/-- The next computation gets the result of one that succeeded. -/
@[simp] theorem ok_bind {κ τ : Type} (x : σ) (f : σ → Except κ τ) : (Except.ok x >>= f) = f x := rfl

/-- A computation goes on from the result of its first part. -/
theorem bind_eq_of_ok {κ τ : Type} {x : Except κ σ} {f : σ → Except κ τ} {a : σ}
    {y : Except κ τ} (hFirst : x = .ok a) (hRest : f a = y) : (x >>= f) = y := by
  rw [hFirst, ok_bind, hRest]

/-- Steps without a result pass just if each passes. -/
theorem bind_eq_ok {κ : Type} {first : Except κ Unit} {rest : Unit → Except κ Unit} :
    (first >>= rest) = .ok () ↔ first = .ok () ∧ rest () = .ok () := by
  cases first with
  | ok u => exact ⟨fun h => ⟨rfl, h⟩, fun h => h.2⟩
  | error fault => exact ⟨fun h => (nomatch h), fun h => (nomatch h.1)⟩

theorem forM_eq_ok {κ : Type} {list : List ι} {f : ι → Except κ Unit} :
    list.forM f = .ok () ↔ ∀ i ∈ list, f i = .ok () := by
  induction list with
  | nil => exact ⟨fun _ i h => (nomatch h), fun _ => rfl⟩
  | cons i rest ih =>
      rw [List.forall_mem_cons, ← ih]
      exact bind_eq_ok

/-- A computation that succeeds has a first part that succeeds. -/
theorem exists_of_bind_eq_ok {κ τ : Type} {x : Except κ σ} {f : σ → Except κ τ} {y : τ}
    (h : (x >>= f) = .ok y) : ∃ a, x = .ok a ∧ f a = .ok y := by
  cases x with
  | ok a => exact ⟨a, rfl, h⟩
  | error fault => cases h

/-- A list of computations that all succeed. -/
theorem mapM_eq_ok {τ : Type} {list : List ι} {f : ι → Except Fault τ} {g : ι → τ}
    (h : ∀ i ∈ list, f i = .ok (g i)) : list.mapM f = .ok (list.map g) := by
  induction list with
  | nil => rfl
  | cons i rest ih =>
      rw [List.mapM_cons, h i List.mem_cons_self, ok_bind,
        ih fun j hj => h j (List.mem_cons_of_mem i hj), ok_bind]
      rfl

/-- As `mapM_eq_ok`, where a computation may give nothing. -/
theorem filterMapM_eq_ok {τ : Type} {list : List ι} {f : ι → Except Fault (Option τ)}
    {g : ι → Option τ} (h : ∀ i ∈ list, f i = .ok (g i)) :
    list.filterMapM f = .ok (list.filterMap g) := by
  induction list with
  | nil => rfl
  | cons i rest ih =>
      rw [List.filterMapM_cons, h i List.mem_cons_self, ok_bind, List.filterMap_cons,
        ih fun j hj => h j (List.mem_cons_of_mem i hj)]
      cases g i with
      | none => rfl
      | some y => rfl

/-- The loop rule. The invariant carries from step to step, and the relation records what
each step does to the state it starts in. -/
theorem foldlM_steps {step : σ → ι → Except Fault σ} (invariant : σ → Prop)
    (rel : σ → ι → σ → Prop) {list : List ι}
    (hStep : ∀ state, ∀ i ∈ list, invariant state →
      ∃ next, step state i = .ok next ∧ invariant next ∧ rel state i next)
    {state : σ} (hState : invariant state) :
    ∃ last, list.foldlM step state = .ok last ∧ invariant last ∧ Steps rel state list last := by
  induction list generalizing state with
  | nil => exact ⟨state, rfl, hState, .nil state⟩
  | cons i rest ih =>
      obtain ⟨next, hNext, hInvariant, hRel⟩ := hStep state i List.mem_cons_self hState
      obtain ⟨last, hLast, hKept, hRest⟩ :=
        ih (fun s j hj => hStep s j (List.mem_cons_of_mem i hj)) hInvariant
      refine ⟨last, ?_, hKept, .cons hRel hRest⟩
      rw [List.foldlM_cons, hNext, ok_bind, hLast]

/-- A run that stops at a fault is the outcome of the steps before the one that fails. -/
theorem runUntil_eq_some_iff {step : σ → ι → Except Fault σ} {list : List ι} {state last : σ}
    {fault : Fault} : runUntil step state list = (last, some fault) ↔
      ∃ before i after, list = before ++ i :: after ∧ before.foldlM step state = .ok last ∧
        step last i = .error fault := by
  induction list generalizing state with
  | nil => simp [runUntil]
  | cons i rest ih =>
      rw [runUntil]
      cases hStep : step state i with
      | ok next =>
          refine ih.trans ⟨?_, ?_⟩
          · rintro ⟨before, j, after, rfl, hBefore, hFault⟩
            refine ⟨i :: before, j, after, rfl, ?_, hFault⟩
            rw [List.foldlM_cons, hStep, ok_bind, hBefore]
          · rintro ⟨before, j, after, hSplit, hBefore, hFault⟩
            cases before with
            | nil =>
                cases hSplit
                cases hBefore
                rw [hStep] at hFault
                cases hFault
            | cons k before =>
                cases hSplit
                rw [List.foldlM_cons, hStep, ok_bind] at hBefore
                exact ⟨before, j, after, rfl, hBefore, hFault⟩
      | error failed =>
          constructor
          · rintro ⟨⟩
            exact ⟨[], i, rest, rfl, rfl, hStep⟩
          · rintro ⟨before, j, after, hSplit, hBefore, hFault⟩
            cases before with
            | nil =>
                cases hSplit
                cases hBefore
                rw [hStep] at hFault
                cases hFault
                rfl
            | cons k before =>
                cases hSplit
                rw [List.foldlM_cons, hStep] at hBefore
                cases hBefore

namespace Steps

variable {rel : σ → ι → σ → Prop}

/-- A part of the state that each step changes by a rule of its own ends as the fold of these
rules. -/
theorem observe {state last : σ} {list : List ι} (steps : Steps rel state list last)
    (observed : σ → β) (rule : β → ι → β)
    (hRule : ∀ s t, ∀ i ∈ list, rel s i t → observed t = rule (observed s) i) :
    observed last = list.foldl rule (observed state) := by
  induction steps with
  | nil => rfl
  | cons first others ih =>
      rw [ih fun s t i hi => hRule s t i (List.mem_cons_of_mem _ hi),
        hRule _ _ _ List.mem_cons_self first, List.foldl_cons]

/-- A part of the state that no step changes. -/
theorem frame {state last : σ} {list : List ι} (steps : Steps rel state list last)
    (observed : σ → β) (hSame : ∀ s t, ∀ i ∈ list, rel s i t → observed t = observed s) :
    observed last = observed state := by
  induction steps with
  | nil => rfl
  | cons first others ih =>
      rw [ih fun s t i hi => hSame s t i (List.mem_cons_of_mem _ hi),
        hSame _ _ _ List.mem_cons_self first]

/-- A part of the state that only the step of one element changes has been changed once. -/
theorem observe_once {state last : σ} {list : List ι} (steps : Steps rel state list last)
    (hNodup : list.Nodup) {i : ι} (hMem : i ∈ list) (observed : σ → β) (f : β → β)
    (hOwn : ∀ s t, rel s i t → observed t = f (observed s))
    (hOther : ∀ s t, ∀ j ∈ list, j ≠ i → rel s j t → observed t = observed s) :
    observed last = f (observed state) := by
  induction steps with
  | nil => cases hMem
  | @cons state next last j rest first others ih =>
      obtain ⟨hFresh, hRest⟩ := List.nodup_cons.mp hNodup
      by_cases hSame : j = i
      · subst hSame
        rw [← hOwn _ _ first]
        refine others.frame observed fun s t k hk => hOther s t k (List.mem_cons_of_mem j hk) ?_
        rintro rfl
        exact hFresh hk
      · have hTail := (List.mem_cons.mp hMem).resolve_left (Ne.symm hSame)
        rw [ih hRest hTail fun s t k hk => hOther s t k (List.mem_cons_of_mem j hk),
          hOther _ _ j List.mem_cons_self hSame first]

/-- What relates the two states of each step and can be composed relates the two ends. -/
theorem compose {state last : σ} {list : List ι} (steps : Steps rel state list last)
    {r : σ → σ → Prop} (hRefl : ∀ s, r s s) (hTrans : ∀ {s t u}, r s t → r t u → r s u)
    (hRel : ∀ s t, ∀ i ∈ list, rel s i t → r s t) : r state last := by
  induction steps with
  | nil => exact hRefl _
  | cons first others ih =>
      exact hTrans (hRel _ _ _ List.mem_cons_self first)
        (ih fun s t i hi => hRel s t i (List.mem_cons_of_mem _ hi))

end Steps

/-- Rules for what may not be there. -/
theorem foldl_option_map (list : List ι) (rule : β → ι → β) (start : Option β) :
    list.foldl (fun o i => o.map (rule · i)) start = start.map fun y => list.foldl rule y := by
  induction list generalizing start with
  | nil => exact Option.map_id'.symm
  | cons i rest ih =>
      rw [List.foldl_cons, ih, Option.map_map]
      rfl

/-! ### Runs in step -/

section Rules

variable {γ β' γ' : Type}

/-- If both of two computations succeed, their results are related. -/
def InStep (rel : β → γ → Prop) (first : Except Fault β) (second : Except Fault γ) : Prop :=
  ∀ a b, first = .ok a → second = .ok b → rel a b

namespace InStep

variable {rel : β → γ → Prop} {rel' : β' → γ' → Prop}

theorem ok {a : β} {b : γ} (h : rel a b) : InStep rel (.ok a) (.ok b) := by
  rintro _ _ ⟨⟩ ⟨⟩
  exact h

theorem bind {first : Except Fault β} {second : Except Fault γ} {f : β → Except Fault β'}
    {g : γ → Except Fault γ'} (h : InStep rel first second)
    (hRest : ∀ a b, rel a b → InStep rel' (f a) (g b)) :
    InStep rel' (first >>= f) (second >>= g) := by
  cases first with
  | error fault => exact fun _ _ hFirst => nomatch hFirst
  | ok a =>
      cases second with
      | error fault => exact fun _ _ _ hSecond => nomatch hSecond
      | ok b => exact hRest a b (h a b rfl rfl)

/-- Both computations start with the same part. -/
theorem bind_same {first : Except Fault β} {f : β → Except Fault β'} {g : β → Except Fault γ'}
    (hRest : ∀ a, InStep rel' (f a) (g a)) : InStep rel' (first >>= f) (first >>= g) := by
  cases first with
  | error fault => exact fun _ _ hFirst => nomatch hFirst
  | ok a => exact hRest a

/-- Whatever the two computations start with. -/
theorem bind_any {first : Except Fault β} {second : Except Fault γ} {f : β → Except Fault β'}
    {g : γ → Except Fault γ'} (hRest : ∀ a b, InStep rel' (f a) (g b)) :
    InStep rel' (first >>= f) (second >>= g) :=
  bind (fun _ _ _ _ => trivial : InStep (fun _ _ => True) first second) fun a b _ => hRest a b

/-- Results that are related before a last step are related after it. -/
theorem map {first : Except Fault β} {second : Except Fault γ} {f : β → β'} {g : γ → γ'}
    (h : InStep rel first second) (hMap : ∀ a b, rel a b → rel' (f a) (g b)) :
    InStep rel' (f <$> first) (g <$> second) := by
  rw [map_eq_pure_bind, map_eq_pure_bind]
  exact bind h fun a b hSame => ok (hMap a b hSame)

theorem foldlM {list : List ι} {f : β → ι → Except Fault β} {g : γ → ι → Except Fault γ}
    (hStep : ∀ a b i, rel a b → InStep rel (f a i) (g b i)) {a : β} {b : γ} (h : rel a b) :
    InStep rel (list.foldlM f a) (list.foldlM g b) := by
  induction list generalizing a b with
  | nil => exact ok h
  | cons i rest ih =>
      rw [List.foldlM_cons, List.foldlM_cons]
      exact bind (hStep a b i h) fun _ _ hNext => ih hNext

end InStep

end Rules

end FusedAttention
