import Mathlib.Data.List.Nodup
import Mathlib.Data.List.Pairwise
import FusedAttention.Proofs.Steps

/-! Orders in which the steps of several lists may be taken. If steps of different lists commute,
every order that keeps the order of each list ends in the same state. -/
namespace FusedAttention

variable {σ ι : Type}

/-- An order of the elements of all groups that keeps the order of each. -/
structure Interleaves (groups : List (List ι)) (order : List ι) : Prop where
  perm : order.Perm groups.flatten
  keeps : ∀ group ∈ groups, group.Sublist order

/-- From the states of an invariant, two steps in either order lead to one state. -/
def Commutes (invariant : σ → Prop) (step : σ → ι → Except Fault σ) (i j : ι) : Prop :=
  ∀ state, invariant state → ∃ last, (step state i >>= fun next => step next j) = .ok last ∧
    (step state j >>= fun next => step next i) = .ok last

theorem Commutes.symm {invariant : σ → Prop} {step : σ → ι → Except Fault σ} {i j : ι}
    (h : Commutes invariant step i j) : Commutes invariant step j i := by
  intro state hState
  obtain ⟨last, hFirst, hSecond⟩ := h state hState
  exact ⟨last, hSecond, hFirst⟩

/-! ### Pairs in a list -/

/-- Two elements of a list are in it in one order or the other. -/
theorem pair_sublist_or {list : List ι} {i j : ι} (hi : i ∈ list) (hj : j ∈ list) (hOther : i ≠ j) :
    [i, j].Sublist list ∨ [j, i].Sublist list := by
  obtain ⟨before, after, rfl⟩ := List.append_of_mem hi
  rcases List.mem_append.mp hj with hBefore | hAfter
  · right
    exact (List.singleton_sublist.mpr hBefore).append (List.singleton_sublist.mpr List.mem_cons_self)
  · left
    have hAfter := (List.mem_cons.mp hAfter).resolve_left (Ne.symm hOther)
    exact ((List.singleton_sublist.mpr hAfter).cons_cons i).trans (List.sublist_append_right ..)

/-- In a list without repetitions only one order is possible. -/
theorem not_pair_sublist {list : List ι} (hNodup : list.Nodup) {i j : ι}
    (h : [i, j].Sublist list) : ¬ [j, i].Sublist list := by
  induction list with
  | nil => cases h
  | cons k rest ih =>
      obtain ⟨hFresh, hRest⟩ := List.nodup_cons.mp hNodup
      intro hBack
      cases h with
      | cons _ h =>
          cases hBack with
          | cons _ hBack => exact ih hRest h hBack
          | cons_cons _ hBack => exact hFresh (h.subset (by simp))
      | cons_cons _ h =>
          cases hBack with
          | cons _ hBack => exact hFresh (hBack.subset (by simp))
          | cons_cons _ hBack => exact hFresh (List.singleton_sublist.mp h)

/-! ### Runs -/

section Runs

variable {invariant : σ → Prop} {step : σ → ι → Except Fault σ} {state : σ}

/-- A step that commutes with those before it may be taken first. -/
theorem foldlM_move_front {before after : List ι} {i : ι}
    (hStep : ∀ state, ∀ j ∈ before, invariant state →
      ∃ next, step state j = .ok next ∧ invariant next)
    (hCommutes : ∀ j ∈ before, Commutes invariant step i j) (hState : invariant state) :
    (before ++ i :: after).foldlM step state = (i :: (before ++ after)).foldlM step state := by
  induction before generalizing state with
  | nil => rfl
  | cons j rest ih =>
      obtain ⟨next, hNext, hKept⟩ := hStep state j List.mem_cons_self hState
      obtain ⟨last, hFirst, hSecond⟩ := hCommutes j List.mem_cons_self state hState
      rw [hNext, ok_bind] at hSecond
      calc (j :: (rest ++ i :: after)).foldlM step state
        _ = (rest ++ i :: after).foldlM step next := by rw [List.foldlM_cons, hNext, ok_bind]
        _ = (i :: (rest ++ after)).foldlM step next :=
            ih (fun s k hk => hStep s k (List.mem_cons_of_mem j hk))
              (fun k hk => hCommutes k (List.mem_cons_of_mem j hk)) hKept
        _ = (rest ++ after).foldlM step last := by rw [List.foldlM_cons, hSecond, ok_bind]
        _ = (step state i >>= fun next => step next j) >>= (rest ++ after).foldlM step := by
            rw [hFirst, ok_bind]
        _ = (i :: j :: (rest ++ after)).foldlM step state := by
            rw [bind_assoc, List.foldlM_cons]
            simp only [List.foldlM_cons]

/-- Two orders of the same steps end alike if each two steps that they take in different order
commute. -/
theorem foldlM_reorder {list order : List ι}
    (hStep : ∀ state, ∀ i ∈ list, invariant state →
      ∃ next, step state i = .ok next ∧ invariant next)
    (hPerm : order.Perm list)
    (hCommutes : ∀ i j, [i, j].Sublist list → [j, i].Sublist order → Commutes invariant step i j)
    (hState : invariant state) : order.foldlM step state = list.foldlM step state := by
  induction list generalizing order state with
  | nil => rw [hPerm.eq_nil]
  | cons i rest ih =>
      obtain ⟨before, after, rfl⟩ := List.append_of_mem (hPerm.mem_iff.mpr List.mem_cons_self)
      have hRest : (before ++ after).Perm rest := (List.perm_middle.symm.trans hPerm).cons_inv
      have hBefore : ∀ j ∈ before, j ∈ rest := fun j hj =>
        hRest.mem_iff.mp (List.mem_append_left after hj)
      rw [foldlM_move_front (fun s j hj => hStep s j (List.mem_cons_of_mem i (hBefore j hj)))
        (fun j hj => hCommutes i j ((List.singleton_sublist.mpr (hBefore j hj)).cons_cons i)
          ((List.singleton_sublist.mpr hj).append (List.singleton_sublist.mpr List.mem_cons_self)))
        hState]
      obtain ⟨next, hNext, hKept⟩ := hStep state i List.mem_cons_self hState
      rw [List.foldlM_cons, List.foldlM_cons, hNext, ok_bind, ok_bind]
      refine ih (fun s j hj => hStep s j (List.mem_cons_of_mem i hj)) hRest
        (fun j k hFirst hSecond => hCommutes j k (hFirst.cons i) (hSecond.trans ?_)) hKept
      exact (List.Sublist.refl before).append (List.sublist_cons_self i after)

/-- If steps of different groups commute, every interleaving of the groups ends like the groups one
after the other. -/
theorem Interleaves.foldlM_eq {groups : List (List ι)} {order : List ι}
    (hOrder : Interleaves groups order) (hNodup : groups.flatten.Nodup)
    (hStep : ∀ state, ∀ i ∈ groups.flatten, invariant state →
      ∃ next, step state i = .ok next ∧ invariant next)
    (hCommutes : groups.Pairwise fun group group' =>
      ∀ i ∈ group, ∀ j ∈ group', Commutes invariant step i j)
    (hState : invariant state) : order.foldlM step state = groups.flatten.foldlM step state := by
  refine foldlM_reorder hStep hOrder.perm (fun i j hPair hBack => ?_) hState
  obtain ⟨group, hGroup, hi⟩ := List.mem_flatten.mp (hPair.subset List.mem_cons_self)
  obtain ⟨group', hGroup', hj⟩ := List.mem_flatten.mp (hPair.subset (by simp : j ∈ [i, j]))
  by_cases hSame : group = group'
  · subst hSame
    have hOther : i ≠ j := by
      rintro rfl
      exact absurd hPair (not_pair_sublist hNodup hPair)
    rcases pair_sublist_or hi hj hOther with hIn | hIn
    · have hForth := hIn.trans (hOrder.keeps group hGroup)
      exact absurd hBack (not_pair_sublist (hOrder.perm.nodup_iff.mpr hNodup) hForth)
    · have hForth := hIn.trans (List.sublist_flatten_of_mem hGroup)
      exact absurd hForth (not_pair_sublist hNodup hPair)
  · have : Std.Symm fun group group' : List ι =>
        ∀ i ∈ group, ∀ j ∈ group', Commutes invariant step i j :=
      ⟨fun _ _ h i hi j hj => (h j hj i hi).symm⟩
    exact hCommutes.forall hGroup hGroup' hSame i hi j hj

end Runs

end FusedAttention
