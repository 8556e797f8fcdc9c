/-
# The two stores are equivalent

As long as every interrupted commit is recovered at once and the log does not run full, both stores
are the ideal store, and so a caller sees the same of both (`stores_equivalent`).
-/
import AegisShield.Storage.Runs

namespace AegisShield.Storage

open Lib

/-! ## 1. What a caller sees -/

/-- What is seen of each call of a list: of its reply, and the generation after it. -/
def observe {S : Type} [TransactionalStore S] (s : S) : List Call → List (Seen × Generation)
  | [] => []
  | c :: calls => ((c.run s).1.seen, TransactionalStore.generation (c.run s).2) ::
      observe (c.run s).2 calls

/-- A call that both stores take: a commit is for memory only, and no metadata is corrupted. -/
def Call.common : Call → Prop
  | .commit _ _ durability => durability = .memoryOnly
  | .corruptPendingMetadata => False
  | _ => True

/-- Every commit that is interrupted is followed by `recover` at once. -/
def RecoversAtOnce (s : Store .wal) (calls : List Call) : Prop :=
  ∀ pre transaction now durability post, calls = pre ++ .commit transaction now durability :: post →
    ∀ fault, (TransactionalStore.commit (runCalls s pre) transaction now durability).1 =
      .error (.interrupted fault) → post = [] ∨ ∃ rest, post = .recover :: rest

/-- No call finds the log full. -/
def NeverFull (s : Store .wal) (calls : List Call) : Prop :=
  ∀ pre c post, calls = pre ++ c :: post →
    (c.run (runCalls s pre)).1.seen.error? ≠ some .walFull

section Tail

variable {s : Store .wal} {c : Call} {calls : List Call}

theorem RecoversAtOnce.tail (h : RecoversAtOnce s (c :: calls)) :
    RecoversAtOnce (c.run s).2 calls := by
  intro pre transaction now durability post hsplit fault hi
  exact h (c :: pre) transaction now durability post (congrArg (c :: ·) hsplit) fault hi

theorem NeverFull.tail (h : NeverFull s (c :: calls)) : NeverFull (c.run s).2 calls := by
  intro pre c' post hsplit
  exact h (c :: pre) c' post (congrArg (c :: ·) hsplit)

theorem RecoversAtOnce.nil : RecoversAtOnce s [] := by
  intro pre transaction now durability post hsplit
  cases pre <;> cases hsplit

theorem RecoversAtOnce.cons (h : RecoversAtOnce (c.run s).2 calls)
    (hc : ∀ fault, (c.run s).1 = .receipt (.error (.interrupted fault)) →
      calls = [] ∨ ∃ rest, calls = .recover :: rest) : RecoversAtOnce s (c :: calls) := by
  intro pre transaction now durability post hsplit fault hi
  cases pre with
  | nil =>
    obtain ⟨rfl, rfl⟩ := List.cons.inj hsplit
    exact hc fault (congrArg Reply.receipt hi)
  | cons c' pre =>
    obtain ⟨rfl, hsplit'⟩ := List.cons.inj hsplit
    exact h pre transaction now durability post hsplit' fault hi

theorem NeverFull.nil : NeverFull s [] := by
  intro pre c post hsplit
  cases pre <;> cases hsplit

theorem NeverFull.cons (h : NeverFull (c.run s).2 calls)
    (hc : (c.run s).1.seen.error? ≠ some .walFull) : NeverFull s (c :: calls) := by
  intro pre c' post hsplit
  cases pre with
  | nil =>
    obtain ⟨rfl, rfl⟩ := List.cons.inj hsplit
    exact hc
  | cons c'' pre =>
    obtain ⟨rfl, hsplit'⟩ := List.cons.inj hsplit
    exact h pre c' post hsplit'

end Tail

/-! ## 2. Both are the ideal store -/

section Ideal

variable {variant : VariantId} {v v' : View} {c : Call} {seen : Seen}

/-- The ideal store for memory only is the same for both. -/
theorem View.step_variant (v : View) (h : c.common) : v.step .cow c = v.step .wal c := by
  cases c with
  | commit transaction now durability =>
    obtain rfl : durability = .memoryOnly := h
    rfl
  | _ => rfl

/-- With nothing pending, a store does what the ideal store does. -/
theorem Moves.eq_step (h : Moves variant v c seen v') (hc : c.common)
    (hp : v.pending = .nothing ∨ c = .recover) (ht : v.tampered = false)
    (hfull : variant = .wal → seen.error? ≠ some .walFull) :
    seen = (v.step variant c).1 ∧ v' = (v.step variant c).2 := by
  cases h with
  | ideal => exact ⟨rfl, rfl⟩
  | recoveryRequired now deadline hw ha hnot =>
    rcases hp with hp | hp
    · exact absurd hp hnot
    · cases hp
  | full transaction now m hw => exact absurd rfl (hfull hw)
  | commitFull transaction now durability hw => exact absurd rfl (hfull hw)
  | untrusted transaction now durability hw ht' =>
    rw [ht] at ht'
    cases ht'
  | reclaimed retainFrom hw state valid hpend =>
    rcases hp with hp | hp
    · cases hp.symm.trans hpend
    · cases hp
  | corrupted => exact hc.elim

/-- Something is pending only after a commit that was interrupted. -/
theorem Moves.pending_nothing (hs : v.Sound) (h : Moves variant v c seen v') (hc : c.common)
    (hp : v.pending = .nothing ∨ c = .recover)
    (hi : ∀ fault, seen ≠ .receipt (.error (.interrupted fault))) : v'.pending = .nothing := by
  rcases hp with hp | rfl
  · cases h.changed hs with
    | interrupted now durability w ha pending hleaves => exact absurd rfl (hi v.fault)
    | collected retainFrom pending hcollected =>
      rcases hcollected with rfl | ⟨-, state, valid, hpend, -⟩
      · exact hp
      · cases hp.symm.trans hpend
    | corrupted => exact hc.elim
    | published => rfl
    | recovered => rfl
    | _ => exact hp
  · rw [h.recover_eq.1]
    rfl

end Ideal

/-! ## 3. Equivalence -/

/-- Two stores that show the same view are equivalent from there on. -/
theorem observe_eq : ∀ {calls : List Call} {cow : Store .cow} {wal : Store .wal} {v : View},
    Shows cow v → Shows wal v → v.tampered = false →
    (v.pending = .nothing ∨ calls = [] ∨ ∃ rest, calls = .recover :: rest) →
    (∀ c ∈ calls, c.common) → RecoversAtOnce wal calls → NeverFull wal calls →
    observe cow calls = observe wal calls := by
  intro calls
  induction calls with
  | nil => exact fun _ _ _ _ _ _ _ => rfl
  | cons c calls ih =>
    intro cow wal v hcow hwal ht hp hcommon hrecovers hfull
    have hc : c.common := hcommon c List.mem_cons_self
    have hp' : v.pending = .nothing ∨ c = .recover := by
      rcases hp with hp | hp | ⟨rest, hp⟩
      · exact Or.inl hp
      · cases hp
      · exact Or.inr (List.cons.inj hp).1
    obtain ⟨v₁, hcow', hmove₁⟩ := hcow.step c
    obtain ⟨v₂, hwal', hmove₂⟩ := hwal.step c
    obtain ⟨hseen₁, hv₁⟩ := hmove₁.eq_step hc hp' ht nofun
    obtain ⟨hseen₂, hv₂⟩ := hmove₂.eq_step hc hp' ht fun _ => hfull [] c calls rfl
    rw [v.step_variant hc, ← hv₂] at hv₁
    rw [v.step_variant hc, ← hseen₂] at hseen₁
    subst hv₁
    have htampered : v₁.tampered = false := by
      refine (hmove₂.changed hwal.sound).untampered ?_ ht
      rintro rfl
      exact hc
    -- what an interrupted commit leaves is recovered at once
    have hnext : v₁.pending = .nothing ∨ calls = [] ∨ ∃ rest, calls = .recover :: rest := by
      by_cases hi : ∃ fault, (c.run wal).1.seen = .receipt (.error (.interrupted fault))
      · obtain ⟨fault, hi⟩ := hi
        cases c with
        | commit transaction now durability =>
          have hreply := Reply.receipt.inj (Reply.seen_interrupted hi)
          exact Or.inr (hrecovers [] transaction now durability calls rfl fault hreply)
        | _ => cases hi
      · exact Or.inl (hmove₂.pending_nothing hwal.sound hc hp' (not_exists.mp hi))
    have hgeneration : TransactionalStore.generation (c.run cow).2 =
        TransactionalStore.generation (c.run wal).2 := by
      rw [generation_eq, generation_eq, hcow'.committed, hwal'.committed]
    have hrest := ih hcow' hwal' htampered hnext (fun c' hc' => hcommon c' (List.mem_cons_of_mem c hc'))
      hrecovers.tail hfull.tail
    unfold observe
    rw [hseen₁, hgeneration, hrest]

/-- **The stores are observationally equivalent.** -/
theorem stores_equivalent {config : Config} {cow : Store .cow} {wal : Store .wal}
    (hcow : TransactionalStore.new config = .ok cow) (hwal : TransactionalStore.new config = .ok wal)
    (calls : List Call) (hcommon : ∀ c ∈ calls, c.common) (hrecovers : RecoversAtOnce wal calls)
    (hfull : NeverFull wal calls) : observe cow calls = observe wal calls :=
  observe_eq (shows_new hcow) (shows_new hwal) rfl (Or.inl rfl) hcommon hrecovers hfull

/-- A commit that is interrupted before its receipt, and recovered. -/
def tornCommit : List Call :=
  [.begin 0 9, .mutate ⟨1, 0⟩ 0 .create, .injectFault .beforeCommitReceipt,
    .commit ⟨1, 0⟩ 0 .memoryOnly, .recover]

theorem stores_equivalent_torn :
    ∃ (cow : Store .cow) (wal : Store .wal), TransactionalStore.new roomy = .ok cow ∧
      TransactionalStore.new roomy = .ok wal ∧ observe cow tornCommit = observe wal tornCommit := by
  obtain ⟨cow, hcow⟩ := exists_new .cow roomy
  obtain ⟨wal, hwal⟩ := exists_new .wal roomy
  -- `recover` never finds the log full, whatever came before
  have hrecover : ∀ calls : List Call,
      (Call.recover.run (runCalls wal calls)).1.seen.error? ≠ some .walFull := by
    intro calls
    obtain ⟨v, hv⟩ := (shows_new hwal).reach calls
    obtain ⟨v', -, hmove⟩ := hv.step .recover
    rw [hmove.recover_eq.2]
    nofun
  have hlast := hrecover tornCommit.dropLast
  refine ⟨cow, wal, hcow, hwal, stores_equivalent hcow hwal tornCommit ?_ ?_ ?_⟩
  · intro c hc
    simp only [tornCommit, List.mem_cons, List.not_mem_nil, or_false] at hc
    rcases hc with rfl | rfl | rfl | rfl | rfl
    · trivial
    · trivial
    · trivial
    · exact rfl
    · trivial
  · refine .cons (.cons (.cons (.cons (.cons .nil ?_) ?_) ?_) ?_) ?_
    · intro _ h
      cases h
    · exact fun _ _ => Or.inr ⟨[], rfl⟩
    · intro _ h
      cases h
    · intro _ h
      cases h
    · intro _ h
      cases h
  · cases hwal
    refine .cons (.cons (.cons (.cons (.cons .nil ?_) ?_) ?_) ?_) ?_
    · exact hlast
    · intro h
      cases h
    · intro h
      cases h
    · intro h
      cases h
    · intro h
      cases h

end AegisShield.Storage
