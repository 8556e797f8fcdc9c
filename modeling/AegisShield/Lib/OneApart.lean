/-
# Lists that differ in one place

Two lists are one apart if they have the same length and differ at one position only.  A fold whose
step forgets neither the state nor the element (`Keeps`) tells them apart: the runs part at that
position, and no common rest brings them together again (`Keeps.foldl_ne`).
-/
import Mathlib.Logic.Function.Basic
import Mathlib.Data.List.FinRange

namespace Lib

variable {α ι σ : Type}

/-! ## 1. One apart -/

/-- **The lists differ in exactly one position.** -/
def OneApart (xs ys : List α) : Prop := xs.length = ys.length ∧ ∃! i : Nat, xs[i]? ≠ ys[i]?

section OneApart

variable {xs ys : List α}

theorem oneApart_split (pre : List α) {post : List α} {a b : α} (h : a ≠ b) :
    OneApart (pre ++ a :: post) (pre ++ b :: post) := by
  refine ⟨by rw [List.length_append, List.length_append]; rfl, pre.length, ?_, ?_⟩
  · simpa using h
  · intro i hi
    by_contra hne
    refine hi ?_
    rcases Nat.lt_or_gt_of_ne hne with hlt | hgt
    · rw [List.getElem?_append_left hlt, List.getElem?_append_left hlt]
    · rw [List.getElem?_append_right (Nat.le_of_lt hgt),
        List.getElem?_append_right (Nat.le_of_lt hgt)]
      obtain ⟨k, hk⟩ := Nat.exists_eq_succ_of_ne_zero (Nat.sub_ne_zero_of_lt hgt)
      rw [hk]
      rfl

/-- The lists are the same before and behind the position. -/
theorem OneApart.split (h : OneApart xs ys) :
    ∃ pre a b post, a ≠ b ∧ xs = pre ++ a :: post ∧ ys = pre ++ b :: post := by
  obtain ⟨hlen, i, hi, hunique⟩ := h
  have hx : i < xs.length := by
    by_contra hge
    have hge' : ys.length ≤ i := by omega
    exact hi (by rw [List.getElem?_eq_none (Nat.not_lt.mp hge), List.getElem?_eq_none hge'])
  have hy : i < ys.length := hlen ▸ hx
  have hset : ys = xs.set i ys[i] := by
    apply List.ext_getElem?
    intro j
    by_cases hj : i = j
    · subst hj
      rw [List.getElem?_set_self hx, List.getElem?_eq_getElem hy]
    · rw [List.getElem?_set_ne hj]
      by_contra hne
      exact hj (hunique j fun heq => hne heq.symm).symm
  have hsplit : ∀ a, xs.set i a = xs.take i ++ a :: xs.drop (i + 1) := by
    intro a
    rw [List.set_eq_take_append_cons_drop, if_pos hx]
  refine ⟨xs.take i, xs[i], ys[i], xs.drop (i + 1), ?_, ?_, hset.trans (hsplit _)⟩
  · intro heq
    exact hi (by rw [List.getElem?_eq_getElem hx, List.getElem?_eq_getElem hy, heq])
  · exact (List.set_getElem_self hx).symm.trans (hsplit _)

theorem OneApart.append_left (h : OneApart xs ys) (l : List α) : OneApart (l ++ xs) (l ++ ys) := by
  obtain ⟨pre, a, b, post, hab, rfl, rfl⟩ := h.split
  rw [← List.append_assoc, ← List.append_assoc]
  exact oneApart_split _ hab

theorem OneApart.append_right (h : OneApart xs ys) (l : List α) : OneApart (xs ++ l) (ys ++ l) := by
  obtain ⟨pre, a, b, post, hab, rfl, rfl⟩ := h.split
  rw [List.append_assoc, List.append_assoc]
  exact oneApart_split _ hab

/-- Of the pieces of a list one is changed in one place. -/
theorem OneApart.flatMap {l : List ι} (hl : l.Nodup) {i : ι} (hi : i ∈ l) {f g : ι → List α}
    (hsame : ∀ j, j ≠ i → f j = g j) (h : OneApart (f i) (g i)) :
    OneApart (l.flatMap f) (l.flatMap g) := by
  obtain ⟨pre, post, rfl⟩ := List.append_of_mem hi
  have hpieces : ∀ m : List ι, i ∉ m → m.flatMap f = m.flatMap g := by
    intro m hm
    exact List.flatMap_congr fun j hj => hsame j fun hji => hm (hji ▸ hj)
  obtain ⟨hpre, hpost⟩ : i ∉ pre ∧ i ∉ post := by
    rw [List.nodup_middle, List.nodup_cons, List.mem_append, not_or] at hl
    exact hl.1
  rw [List.flatMap_append, List.flatMap_append, List.flatMap_cons, List.flatMap_cons,
    hpieces pre hpre, hpieces post hpost]
  exact (h.append_right _).append_left _

/-- A function with another value somewhere, as lists. -/
theorem oneApart_ofFn_update {n : Nat} {f : Fin n → α} {i : Fin n} {a : α} (h : f i ≠ a) :
    OneApart (List.ofFn f) (List.ofFn (Function.update f i a)) := by
  have hlist : ∀ g : Fin n → α, List.ofFn g = (List.finRange n).flatMap fun j => [g j] := by
    intro g
    rw [List.ofFn_eq_map, List.map_eq_flatMap]
  rw [hlist, hlist]
  refine OneApart.flatMap (List.nodup_finRange n) (List.mem_finRange i) ?_ ?_
  · intro j hj
    rw [Function.update_of_ne hj]
  · rw [Function.update_self]
    exact oneApart_split [] h

end OneApart

/-! ## 2. Folds -/

/-- **A step that forgets neither the state nor the element.** -/
structure Keeps (f : σ → α → σ) : Prop where
  state : ∀ a, Function.Injective fun s => f s a
  element : ∀ s, Function.Injective (f s)

section Keeps

variable {f : σ → α → σ}

/-- The rest of a run forgets nothing. -/
theorem Keeps.foldl_injective (h : Keeps f) (l : List α) : Function.Injective fun s => l.foldl f s := by
  induction l with
  | nil => exact fun _ _ hs => hs
  | cons a l ih =>
    intro s t hst
    exact h.state a (ih hst)

/-- **Runs over lists that are one apart end apart.** -/
theorem Keeps.foldl_ne (h : Keeps f) {xs ys : List α} (hd : OneApart xs ys) (s : σ) :
    xs.foldl f s ≠ ys.foldl f s := by
  obtain ⟨pre, a, b, post, hab, rfl, rfl⟩ := hd.split
  rw [List.foldl_append, List.foldl_append, List.foldl_cons, List.foldl_cons]
  intro heq
  have hstep : f (pre.foldl f s) a = f (pre.foldl f s) b := h.foldl_injective post heq
  exact hab (h.element _ hstep)

end Keeps

end Lib
