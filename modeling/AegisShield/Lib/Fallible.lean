/-
# Fallible operations on a state

An operation returns a result or an error, together with the state it leaves behind; an error does
not undo what was changed before it.  `attempt` is what the `?` operator does in such an
operation: an error returns at once with the state as it is at that point.

Sums and differences of 64-bit words are checked: they have no value where they leave the range.
-/
import Mathlib.Algebra.Group.Nat.Defs

namespace Lib

/-! ## 1. Checked arithmetic -/

/-- `a.checked_add(b)` on 64-bit words. -/
def checkedAdd (a b : Nat) : Option Nat := if a + b < 2 ^ 64 then some (a + b) else none

/-- `a.checked_sub(b)`. -/
def checkedSub (a b : Nat) : Option Nat := if b ≤ a then some (a - b) else none

theorem checkedAdd_eq_some {a b c : Nat} : checkedAdd a b = some c ↔ a + b < 2 ^ 64 ∧ c = a + b := by
  unfold checkedAdd
  split
  · rename_i h
    rw [Option.some.injEq]
    exact ⟨fun hc => ⟨h, hc.symm⟩, fun hc => hc.2.symm⟩
  · rename_i h
    exact ⟨nofun, fun hc => absurd hc.1 h⟩

theorem checkedAdd_of_lt {a b : Nat} (h : a + b < 2 ^ 64) : checkedAdd a b = some (a + b) :=
  checkedAdd_eq_some.mpr ⟨h, rfl⟩

theorem checkedSub_of_le {a b : Nat} (h : b ≤ a) : checkedSub a b = some (a - b) := if_pos h

/-! ## 2. Results -/

section Attempt

variable {ε σ α β : Type}

/-- `o.ok_or(e)`. -/
def okOr (o : Option α) (e : ε) : Except ε α :=
  match o with
  | none => .error e
  | some a => .ok a

@[simp] theorem okOr_some (a : α) (e : ε) : okOr (some a) e = .ok a := rfl

@[simp] theorem okOr_none (e : ε) : okOr (none : Option α) e = .error e := rfl

theorem okOr_eq_ok {o : Option α} {e : ε} {a : α} : okOr o e = .ok a ↔ o = some a := by
  cases o with
  | none => exact ⟨nofun, nofun⟩
  | some b => rw [okOr_some, Except.ok.injEq, Option.some.injEq]

theorem map_eq_ok {f : α → β} {r : Except ε α} {b : β} (h : r.map f = .ok b) :
    ∃ a, r = .ok a ∧ f a = b := by
  cases r with
  | error e => cases h
  | ok a => exact ⟨a, rfl, Except.ok.inj h⟩

/-- `r?` in an operation that has left the state `s` so far. -/
def attempt (r : Except ε α) (s : σ) (f : α → Except ε β × σ) : Except ε β × σ :=
  match r with
  | .error e => (.error e, s)
  | .ok a => f a

@[simp] theorem attempt_ok (a : α) (s : σ) (f : α → Except ε β × σ) :
    attempt (.ok a) s f = f a := rfl

@[simp] theorem attempt_error (e : ε) (s : σ) (f : α → Except ε β × σ) :
    attempt (.error e) s f = (.error e, s) := rfl

/-- An operation that returns has got through its first part. -/
theorem fst_attempt_eq_ok {r : Except ε α} {s : σ} {f : α → Except ε β × σ} {b : β}
    (h : (attempt r s f).1 = .ok b) : ∃ a, r = .ok a ∧ (f a).1 = .ok b := by
  cases r with
  | error e => cases h
  | ok a => exact ⟨a, rfl, h⟩

/-- The operation failed and left the state as it was, or it did not fail. -/
def Untouched (s : σ) (r : Except ε β × σ) : Prop := ∀ e, r.1 = .error e → r.2 = s

theorem Untouched.error (s : σ) (e : ε) : Untouched s ((.error e, s) : Except ε β × σ) :=
  fun _ _ => rfl

theorem Untouched.ok (s s' : σ) (b : β) : Untouched s ((.ok b, s') : Except ε β × σ) := nofun

theorem Untouched.attempt {r : Except ε α} {s : σ} {f : α → Except ε β × σ}
    (h : ∀ a, r = .ok a → Untouched s (f a)) : Untouched s (attempt r s f) := by
  cases r with
  | error e => exact Untouched.error s e
  | ok a => exact h a rfl

/-! ## 3. Checks -/

/-- A check: the error, if the condition holds. -/
def failIf (c : Prop) [Decidable c] (e : ε) : Except ε Unit := if c then .error e else .ok ()

theorem failIf_of {c : Prop} [Decidable c] (h : c) (e : ε) : failIf c e = .error e := if_pos h

theorem failIf_of_not {c : Prop} [Decidable c] (h : ¬ c) (e : ε) : failIf c e = .ok () := if_neg h

@[simp] theorem ok_seq (a : α) (f : α → Except ε β) : (.ok a >>= f) = f a := rfl

@[simp] theorem error_seq (e : ε) (f : α → Except ε β) : (.error e >>= f) = .error e := rfl

theorem failIf_eq_ok {c : Prop} [Decidable c] {e : ε} {u : Unit} : failIf c e = .ok u ↔ ¬ c := by
  unfold failIf
  split
  · rename_i h
    exact iff_of_false nofun (not_not_intro h)
  · rename_i h
    exact iff_of_true rfl h

/-- Two parts that return, one behind the other. -/
theorem seq_eq_ok {x : Except ε α} {f : α → Except ε β} {b : β} :
    (x >>= f) = .ok b ↔ ∃ a, x = .ok a ∧ f a = .ok b := by
  cases x with
  | error e => exact ⟨nofun, nofun⟩
  | ok a =>
    constructor
    · intro h
      exact ⟨a, rfl, h⟩
    · rintro ⟨a', ha, h⟩
      cases ha
      exact h

/-- A check that passes, and the rest. -/
theorem failIf_seq_eq_ok {c : Prop} [Decidable c] {e : ε} {f : Unit → Except ε β} {b : β} :
    (failIf c e >>= f) = .ok b ↔ ¬ c ∧ f () = .ok b := by
  rw [seq_eq_ok]
  constructor
  · rintro ⟨u, hc, h⟩
    exact ⟨failIf_eq_ok.mp hc, h⟩
  · rintro ⟨hc, h⟩
    exact ⟨(), failIf_eq_ok.mpr hc, h⟩

theorem failIf_eq_error {c : Prop} [Decidable c] {e e' : ε} :
    failIf c e = .error e' ↔ c ∧ e = e' := by
  unfold failIf
  split
  · rename_i h
    rw [Except.error.injEq]
    exact ⟨fun he => ⟨h, he⟩, fun he => he.2⟩
  · rename_i h
    exact ⟨nofun, fun he => absurd he.1 h⟩

/-- Two parts fail where the first does, or the second behind it. -/
theorem seq_eq_error {x : Except ε α} {f : α → Except ε β} {e : ε} :
    (x >>= f) = .error e ↔ x = .error e ∨ ∃ a, x = .ok a ∧ f a = .error e := by
  cases x with
  | error e' =>
    constructor
    · intro h
      exact Or.inl (by cases h; rfl)
    · rintro (h | ⟨a, ha, -⟩)
      · cases h
        rfl
      · cases ha
  | ok a =>
    constructor
    · intro h
      exact Or.inr ⟨a, rfl, h⟩
    · rintro (h | ⟨a', ha, h⟩)
      · cases h
      · cases ha
        exact h

/-- Where a check and the rest fail. -/
theorem failIf_seq_eq_error {c : Prop} [Decidable c] {e e' : ε} {f : Unit → Except ε β} :
    (failIf c e >>= f) = .error e' ↔ c ∧ e = e' ∨ ¬ c ∧ f () = .error e' := by
  rw [seq_eq_error, failIf_eq_error]
  refine or_congr_right ⟨?_, ?_⟩
  · rintro ⟨u, hc, h⟩
    exact ⟨failIf_eq_ok.mp hc, h⟩
  · rintro ⟨hc, h⟩
    exact ⟨(), failIf_eq_ok.mpr hc, h⟩

end Attempt

end Lib
