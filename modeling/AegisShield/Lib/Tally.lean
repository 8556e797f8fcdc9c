/-
# A tally of a sliding window

A window over a sequence holds its last `n` elements.  A tally counts, for every key, the elements
of the window that cover it, and has no entry for a key that none covers.  It is kept in step by two
updates: `increment` at the keys of an element that enters, `decrement` at those of the one that
leaves (`Tallies.enter`, `Tallies.leave`).
-/
import Mathlib.Data.List.DropRight
import Mathlib.Logic.Function.Basic

namespace Lib

/-! ## 1. The last elements of a sequence -/

section Window

variable {α β : Type}

theorem length_rtake (xs : List α) (n : Nat) : (xs.rtake n).length = min xs.length n := by
  rw [List.rtake, List.length_drop]
  omega

theorem map_rtake (f : α → β) (xs : List α) (n : Nat) : (xs.rtake n).map f = (xs.map f).rtake n := by
  rw [List.rtake, List.rtake, List.map_drop, List.length_map]

/-- A full window drops its oldest element for a new one. -/
theorem rtake_concat_of_le {xs : List α} {n : Nat} (hn : 0 < n) (h : n ≤ xs.length) (x : α) :
    (xs ++ [x]).rtake n = (xs.rtake n).tail ++ [x] := by
  have hdrop : xs.length + 1 - n = xs.length - n + 1 := by omega
  rw [List.rtake, List.rtake, List.length_append, List.length_singleton, hdrop,
    List.drop_append_of_le_length (by omega), List.tail_drop]

/-- One with room takes it. -/
theorem rtake_concat_of_lt {xs : List α} {n : Nat} (h : xs.length < n) (x : α) :
    (xs ++ [x]).rtake n = xs.rtake n ++ [x] := by
  have h0 : xs.length - n = 0 := by omega
  have h1 : (xs ++ [x]).length - n = 0 := by
    rw [List.length_append, List.length_singleton]
    omega
  rw [List.rtake, List.rtake, h0, h1, List.drop_zero, List.drop_zero]

end Window

/-! ## 2. Updates at many keys -/

section Tally

variable {α κ : Type} [DecidableEq κ]

/-- The same update at every key of a list. -/
theorem foldl_update {β : Type} (f : β → β) : ∀ {keys : List κ}, keys.Nodup → ∀ (c : κ → β) (k : κ),
    keys.foldl (fun c k => Function.update c k (f (c k))) c k = if k ∈ keys then f (c k) else c k
  | [], _, c, k => by simp
  | key :: keys, h, c, k => by
    obtain ⟨hkey, hkeys⟩ := List.nodup_cons.mp h
    rw [List.foldl_cons, foldl_update f hkeys]
    by_cases hk : k = key
    · rw [hk, if_neg hkey, if_pos List.mem_cons_self, Function.update_self]
    · have hmem : k ∈ key :: keys ↔ k ∈ keys := by simp [hk]
      rw [Function.update_of_ne hk]
      simp only [hmem]

/-- One more at a key. -/
def increment (c : κ → Option Int) (k : κ) : κ → Option Int :=
  Function.update c k (some ((c k).getD 0 + 1))

/-- One less at a key, whose entry goes at 0. -/
def decrement (c : κ → Option Int) (k : κ) : κ → Option Int :=
  Function.update c k (if (c k).getD 0 - 1 > 0 then some ((c k).getD 0 - 1) else none)

/-! ## 3. Tallies -/

/-- How many elements cover a key. -/
def covering (cover : α → List κ) (xs : List α) (k : κ) : Nat := xs.countP fun x => k ∈ cover x

/-- The entry for a count. -/
def entry (n : Nat) : Option Int := if n = 0 then none else some n

/-- The tally of a list: an entry for every key that is covered, and for no other. -/
def Tallies (cover : α → List κ) (c : κ → Option Int) (xs : List α) : Prop :=
  ∀ k, c k = entry (covering cover xs k)

variable {cover : α → List κ} {c : κ → Option Int} {xs : List α}

theorem covering_cons (x : α) (xs : List α) (k : κ) :
    covering cover (x :: xs) k = covering cover xs k + if k ∈ cover x then 1 else 0 := by
  simp [covering, List.countP_cons]

theorem covering_concat (xs : List α) (x : α) (k : κ) :
    covering cover (xs ++ [x]) k = covering cover xs k + if k ∈ cover x then 1 else 0 := by
  simp [covering, List.countP_append, List.countP_cons]

theorem covering_pos {k : κ} : 0 < covering cover xs k ↔ ∃ x ∈ xs, k ∈ cover x := by
  simp [covering, List.countP_pos_iff]

theorem getD_entry (n : Nat) : (entry n).getD 0 = n := by
  rw [entry]
  split
  · rename_i h
    rw [h]
    rfl
  · rfl

theorem Tallies.getD (h : Tallies cover c xs) (k : κ) : (c k).getD 0 = covering cover xs k := by
  rw [h k, getD_entry]

theorem Tallies.empty : Tallies cover (fun _ => none) [] := fun _ => rfl

/-- An element enters. -/
theorem Tallies.enter (h : Tallies cover c xs) {x : α} (hx : (cover x).Nodup) :
    Tallies cover ((cover x).foldl increment c) (xs ++ [x]) := by
  intro k
  have hfold : (cover x).foldl increment c k =
      if k ∈ cover x then some ((c k).getD 0 + 1) else c k :=
    foldl_update (fun v : Option Int => some (v.getD 0 + 1)) hx c k
  rw [hfold, covering_concat, h.getD k]
  split
  · rw [entry, if_neg (by omega)]
    rfl
  · rw [Nat.add_zero]
    exact h k

/-- The oldest element leaves. -/
theorem Tallies.leave {x : α} (h : Tallies cover c (x :: xs)) (hx : (cover x).Nodup) :
    Tallies cover ((cover x).foldl decrement c) xs := by
  intro k
  have hfold : (cover x).foldl decrement c k = if k ∈ cover x then
      (if (c k).getD 0 - 1 > 0 then some ((c k).getD 0 - 1) else none) else c k :=
    foldl_update (fun v : Option Int => if v.getD 0 - 1 > 0 then some (v.getD 0 - 1) else none) hx c k
  have hcount : covering cover (x :: xs) k = _ := covering_cons x xs k
  rw [hfold, h.getD k, hcount]
  by_cases hk : k ∈ cover x
  · rw [if_pos hk] at hcount
    rw [if_pos hk, if_pos hk, entry]
    by_cases h0 : covering cover xs k = 0
    · rw [if_pos h0, if_neg (by omega)]
    · rw [if_neg h0, if_pos (by omega)]
      exact congrArg some (by omega)
  · rw [if_neg hk] at hcount
    rw [if_neg hk, h k, hcount, Nat.add_zero]

end Tally

end Lib
