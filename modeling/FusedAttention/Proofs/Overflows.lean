import FusedAttention.Launch
import FusedAttention.Proofs.Steps

/-! Checked sums of stream positions. A computation whose sums are checked is the one whose sums wrap,
unless it stops at a sum past 64 bits. So whatever a launch leaves that comes to its end is what a
launch leaves whose sums wrap. -/
namespace FusedAttention

variable {σ τ ι : Type}

/-- The first computation is the second, unless it stops at a sum past 64 bits. -/
def UnlessOverflow (x y : Except Fault σ) : Prop :=
  x = y ∨ x = .error .overflow

namespace UnlessOverflow

theorem refl (x : Except Fault σ) : UnlessOverflow x x :=
  .inl rfl

theorem bind {x y : Except Fault σ} {f g : σ → Except Fault τ} (h : UnlessOverflow x y)
    (hRest : ∀ a, UnlessOverflow (f a) (g a)) : UnlessOverflow (x >>= f) (y >>= g) := by
  rcases h with rfl | rfl
  · cases x with
    | ok a => exact hRest a
    | error fault => exact .refl _
  · exact .inr rfl

theorem ite {c : Prop} [Decidable c] {x x' y y' : Except Fault σ} (h : UnlessOverflow x y)
    (h' : UnlessOverflow x' y') : UnlessOverflow (if c then x else x') (if c then y else y') := by
  split
  · exact h
  · exact h'

theorem foldlM {list : List ι} {step step' : σ → ι → Except Fault σ}
    (hStep : ∀ state i, UnlessOverflow (step state i) (step' state i)) (state : σ) :
    UnlessOverflow (list.foldlM step state) (list.foldlM step' state) := by
  induction list generalizing state with
  | nil => exact .refl _
  | cons i rest ih =>
      rw [List.foldlM_cons, List.foldlM_cons]
      exact (hStep state i).bind ih

theorem forM {list : List ι} {f g : ι → Except Fault Unit} (h : ∀ i, UnlessOverflow (f i) (g i)) :
    UnlessOverflow (list.forM f) (list.forM g) := by
  induction list with
  | nil => exact .refl _
  | cons i rest ih => exact (h i).bind fun _ => ih

end UnlessOverflow

theorem Overflow.check_unless (overflow : Overflow) (sum : Nat) :
    UnlessOverflow (overflow.check sum) (wrapping.check sum) := by
  cases overflow with
  | wrapping => exact .refl _
  | checked =>
      by_cases hSum : sum < UInt64.size
      · exact .inl (if_pos hSum)
      · exact .inr (if_neg hSum)

theorem checkRows_unless (mask : Option MaskSource) (overflow : Overflow)
    (queryStart rows keyStart : Nat) :
    UnlessOverflow (mask.forM (·.checkRows overflow queryStart rows keyStart))
      (mask.forM (·.checkRows .wrapping queryStart rows keyStart)) := by
  cases mask with
  | none => exact .refl _
  | some m => exact .forM fun _ => overflow.check_unless _

variable {α ε : Type} [Scalar α] [Element ε α]

/-! ### The loops of a unit -/

namespace Kernel

/-- The same kernel with sums that wrap. -/
def wrapping (kernel : Kernel α ε) : Kernel α ε :=
  { kernel with overflow := .wrapping }

variable (kernel : Kernel α ε) (view : UnitView α)

theorem runPair_unless (keyStart : Nat) (state : UnitState α ε kernel.tiles) (queryStart : Nat) :
    UnlessOverflow (kernel.runPair view keyStart state queryStart)
      (kernel.wrapping.runPair view keyStart state queryStart) := by
  obtain ⟨⟨⟨gradQ, gradK, gradV⟩, biasGrads, workspace⟩, mask, scratch, accK, accV⟩ := state
  unfold runPair
  refine .bind (.refl _) fun scratch => ?_
  refine .bind (.refl _) fun biases => ?_
  exact .bind (checkRows_unless _ _ _ _ _) fun _ => .refl _

theorem runQueries_unless (keyStart : Nat) (state : UnitState α ε kernel.tiles) :
    UnlessOverflow (kernel.runQueries view keyStart state)
      (kernel.wrapping.runQueries view keyStart state) :=
  .bind (.refl _) fun state => .foldlM (kernel.runPair_unless view keyStart) state

theorem runKeyTile_unless (state : UnitState α ε kernel.tiles) (keyStart : Nat) :
    UnlessOverflow (kernel.runKeyTile view state keyStart)
      (kernel.wrapping.runKeyTile view state keyStart) := by
  obtain ⟨memory, mask, scratch, accK, accV⟩ := state
  refine .ite ?_ (.ite (.refl _) (kernel.runQueries_unless view keyStart _))
  exact .bind (kernel.runQueries_unless view keyStart _) fun _ => .refl _

theorem runUnit_unless (coord : UnitCoord) (delta : Array α) (memory : UnitMemory α ε) :
    UnlessOverflow (kernel.runUnit coord delta memory) (kernel.wrapping.runUnit coord delta memory) := by
  refine .bind (kernel.overflow.check_unless _) fun _ => ?_
  refine .bind (.refl _) fun lse => ?_
  refine .bind (.refl _) fun delta => ?_
  exact .bind (.foldlM (kernel.runKeyTile_unless _) _) fun _ => .refl _

theorem runOn_unless (memory : Memory α ε) (coord : UnitCoord) :
    UnlessOverflow (kernel.runOn memory coord) (kernel.wrapping.runOn memory coord) := by
  obtain ⟨grads, delta, biasGrads, workspace⟩ := memory
  refine .bind (.refl _) fun row => ?_
  have hUnit : ∀ slice, UnlessOverflow (kernel.runUnit coord row ⟨grads, biasGrads, slice⟩)
      (kernel.wrapping.runUnit coord row ⟨grads, biasGrads, slice⟩) :=
    fun slice => kernel.runUnit_unless coord row _
  cases workspace with
  | none => exact .bind (.refl _) fun slice => .bind (hUnit slice) fun _ => .refl _
  | some buffer =>
      refine .ite ?_ ?_
      all_goals exact .bind (.refl _) fun slice => .bind (hUnit slice) fun _ => .refl _

end Kernel

/-! ### Launches -/

/-- The same settings with sums that wrap. -/
def Settings.wrapping (settings : Settings) : Settings :=
  { settings with overflow := .wrapping }

/-- A launch is the one whose sums wrap, unless it stops at a sum past 64 bits. -/
theorem Request.launch_wrapping (request : Request α ε) (settings : Settings) (policy : QueryStart)
    (memory : Memory α ε) :
    request.launch settings policy memory = request.launch settings.wrapping policy memory ∨
      request.check settings memory = .ok () ∧
        request.launch settings policy memory = (.error (.fault .overflow), memory) := by
  have hRun : UnlessOverflow (request.run settings policy memory)
      (request.run settings.wrapping policy memory) :=
    .foldlM (request.kernel settings policy).runOn_unless memory
  have hCheck : request.check settings.wrapping memory = request.check settings memory := rfl
  have hReport : request.report settings.wrapping memory = request.report settings memory := rfl
  unfold launch
  rw [hCheck, hReport]
  cases request.check settings memory with
  | error refusal => exact .inl rfl
  | ok done =>
      rcases hRun with hSame | hStop
      · rw [hSame]
        exact .inl rfl
      · rw [hStop]
        exact .inr ⟨rfl, rfl⟩

end FusedAttention
