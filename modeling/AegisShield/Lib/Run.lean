/-
# Runs

A run folds a list of operations over a state.  Four rules cover what is proved about runs here:
an invariant that every step keeps holds at the end of every run; two machines that a relation
follows step by step are related after every run; an invariant that only the steps meeting a
condition keep holds in every run all of whose steps meet it (`Along`); and a run that ends outside
a set it starts in has a step that leaves it.

A history lists what has happened, the latest event last.  `Once` says that an event of some kind is
in it, where the kind of an event may depend on the events before it.
-/
import Mathlib.Data.List.Basic

namespace Lib

section Run

variable {σ τ ω : Type} {step : σ → ω → σ} {spec : τ → ω → τ}

/-- **Invariants.**  The hypothesis may use that the operation is one of the run's. -/
theorem run_invariant {I : σ → Prop} {s : σ} (h : I s) :
    ∀ ops : List ω, (∀ s, ∀ o ∈ ops, I s → I (step s o)) → I (ops.foldl step s)
  | [], _ => h
  | o :: ops, hstep => by
    have h1 : I (step s o) := hstep s o List.mem_cons_self h
    exact run_invariant h1 ops fun s' o' ho' => hstep s' o' (List.mem_cons_of_mem _ ho')

/-- **Simulations.** -/
theorem run_simulation {S : σ → τ → Prop} (hstep : ∀ s t o, S s t → S (step s o) (spec t o))
    {s : σ} {t : τ} (h : S s t) : ∀ ops : List ω, S (ops.foldl step s) (ops.foldl spec t)
  | [] => h
  | o :: ops => run_simulation hstep (hstep s t o h) ops

/-- Every operation meets the condition `P` in the state it is performed in. -/
def Along (step : σ → ω → σ) (P : σ → ω → Prop) : σ → List ω → Prop
  | _, [] => True
  | s, o :: ops => P s o ∧ Along step P (step s o) ops

theorem Along.of_isPrefix {P : σ → ω → Prop} : ∀ {s : σ} {pre ops : List ω},
    Along step P s ops → pre <+: ops → Along step P s pre
  | _, [], _, _, _ => trivial
  | s, o :: pre, ops, h, hpre => by
    obtain ⟨rest, rfl⟩ := hpre
    exact ⟨h.1, Along.of_isPrefix h.2 ⟨rest, rfl⟩⟩

theorem Along.of_forall {P : σ → ω → Prop} (h : ∀ s o, P s o) : ∀ {s : σ} {ops : List ω},
    Along step P s ops
  | _, [] => trivial
  | _, _ :: _ => ⟨h _ _, Along.of_forall h⟩

theorem Along.append {P : σ → ω → Prop} : ∀ {s : σ} {ops rest : List ω},
    Along step P s ops → Along step P (ops.foldl step s) rest → Along step P s (ops ++ rest)
  | _, [], _, _, h => h
  | _, _ :: _, _, ha, h => ⟨ha.1, Along.append ha.2 h⟩

theorem Along.mono {P Q : σ → ω → Prop} (h : ∀ s o, P s o → Q s o) : ∀ {s : σ} {ops : List ω},
    Along step P s ops → Along step Q s ops
  | _, [], _ => trivial
  | _, _ :: _, ha => ⟨h _ _ ha.1, Along.mono h ha.2⟩

theorem Along.and {P Q : σ → ω → Prop} : ∀ {s : σ} {ops : List ω},
    Along step P s ops → Along step Q s ops → Along step (fun s o => P s o ∧ Q s o) s ops
  | _, [], _, _ => trivial
  | _, _ :: _, hp, hq => ⟨⟨hp.1, hq.1⟩, Along.and hp.2 hq.2⟩

/-- The condition at one operation of the run. -/
theorem Along.of_getElem? {P : σ → ω → Prop} : ∀ {s : σ} {ops : List ω} {n : Nat} {o : ω},
    Along step P s ops → ops[n]? = some o → P ((ops.take n).foldl step s) o
  | _, _ :: _, 0, _, ha, hn => by
    cases hn
    exact ha.1
  | s, o :: ops, n + 1, _, ha, hn => by
    rw [List.getElem?_cons_succ] at hn
    exact Along.of_getElem? (n := n) ha.2 hn

/-- A condition that an invariant carries over to another one. -/
theorem Along.of_invariant {P Q : σ → ω → Prop} {I : σ → Prop}
    (hstep : ∀ s o, P s o → I s → Q s o ∧ I (step s o)) : ∀ {s : σ} {ops : List ω},
    I s → Along step P s ops → Along step Q s ops
  | _, [], _, _ => trivial
  | s, o :: _, h, ha => by
    obtain ⟨hq, hnext⟩ := hstep s o ha.1 h
    exact ⟨hq, Along.of_invariant hstep hnext ha.2⟩

/-- **Invariants of runs whose steps meet a condition**: they hold after every step. -/
theorem run_along {P : σ → ω → Prop} {I : σ → Prop} (hstep : ∀ s o, P s o → I s → I (step s o)) :
    ∀ {s : σ}, I s → ∀ ops : List ω, Along step P s ops → I (ops.foldl step s)
  | _, h, [], _ => h
  | _, h, o :: ops, ha => run_along hstep (hstep _ o ha.1 h) ops ha.2

/-- The same, after every step of the run. -/
theorem run_along_initial {P : σ → ω → Prop} {I : σ → Prop}
    (hstep : ∀ s o, P s o → I s → I (step s o)) {s : σ} (h : I s) {pre ops : List ω}
    (ha : Along step P s ops) (hpre : pre <+: ops) : I (pre.foldl step s) :=
  run_along hstep h pre (ha.of_isPrefix hpre)

/-- **A run that leaves `P` leaves it at one of its steps**, and has been in `P` up to there. -/
theorem run_leaves {P : σ → Prop} : ∀ {s : σ} {ops : List ω}, P s → ¬ P (ops.foldl step s) →
    ∃ pre o post, ops = pre ++ o :: post ∧ (∀ p, p <+: pre → P (p.foldl step s)) ∧
      ¬ P (step (pre.foldl step s) o)
  | _, [], h, hleft => absurd h hleft
  | s, o :: ops, h, hleft => by
    by_cases hstep : P (step s o)
    · obtain ⟨pre, o', post, rfl, hin, hout⟩ := run_leaves hstep hleft
      refine ⟨o :: pre, o', post, rfl, ?_, hout⟩
      rintro p hp
      rcases p with - | ⟨o'', p⟩
      · exact h
      · obtain ⟨rfl, hpre⟩ := List.cons_prefix_cons.mp hp
        exact hin p hpre
    · refine ⟨[], o, ops, rfl, ?_, hstep⟩
      rintro p hp
      rw [List.prefix_nil.mp hp]
      exact h

end Run

section History

variable {ω : Type} {P : List ω → ω → Prop} {past : List ω} {o : ω}

/-- Some event of the history is of the kind `P`. -/
def Once (P : List ω → ω → Prop) (past : List ω) : Prop :=
  ∃ pre o post, past = pre ++ o :: post ∧ P pre o

/-- An event of the kind is the latest one or an earlier one. -/
theorem once_concat : Once P (past ++ [o]) ↔ Once P past ∨ P past o := by
  constructor
  · rintro ⟨pre, o', post, h, hP⟩
    rcases List.eq_nil_or_concat post with rfl | ⟨post, o'', rfl⟩
    · obtain ⟨rfl, ho⟩ := List.append_inj' h rfl
      cases ho
      exact Or.inr hP
    · rw [List.concat_eq_append, ← List.cons_append, ← List.append_assoc] at h
      obtain ⟨rfl, -⟩ := List.append_inj' h rfl
      exact Or.inl ⟨pre, o', post, rfl, hP⟩
  · rintro (⟨pre, o', post, rfl, hP⟩ | hP)
    · refine ⟨pre, o', post ++ [o], ?_, hP⟩
      rw [List.append_assoc, List.cons_append]
    · exact ⟨past, o, [], rfl, hP⟩

end History

end Lib
