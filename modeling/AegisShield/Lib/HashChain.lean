/-
# Hash chains

A log whose entries each name the digest of the entry before, the first a fixed start.  What the
last digest says about the entries is one induction from the END of the log: equal heads are equal
digests of the last entries, so these are alike as far as a digest tells entries apart, so they
name one digest, which is the head of what is in front of them.

The entries, the digest and what "names" means are parameters.  `R e f` is what an equal digest
says about two entries: equality for a digest of the whole entry, something coarser for a digest
of a part of it.
-/
import Mathlib.Data.List.Induction
import Mathlib.Data.List.Forall2

namespace Lib

section HashChain

variable {E H : Type}

/-- The entries form a chain from the digest `start` to the digest `head`. -/
inductive Linked (names : E → H → Prop) (digest : E → H) : H → List E → H → Prop
  | nil (start : H) : Linked names digest start [] start
  | cons {start head : H} {e : E} {es : List E} (hname : names e start)
    (h : Linked names digest (digest e) es head) : Linked names digest start (e :: es) head

variable {names : E → H → Prop} {digest : E → H}

/-- The last entry of a chain has the head for its digest, and names the head before it. -/
theorem Linked.of_concat : ∀ {es : List E} {start head : H} {e : E},
    Linked names digest start (es ++ [e]) head →
      digest e = head ∧ ∃ mid, Linked names digest start es mid ∧ names e mid
  | [], start, head, e, h => by
    cases h with
    | cons hname h =>
      cases h
      exact ⟨rfl, start, .nil start, hname⟩
  | d :: es, start, head, e, h => by
    cases h with
    | cons hname h =>
      obtain ⟨hhead, mid, hmid, hlast⟩ := of_concat h
      exact ⟨hhead, mid, .cons hname hmid, hlast⟩

/-- Every entry of a chain names some digest. -/
theorem Linked.exists_names {es : List E} {start head : H} (h : Linked names digest start es head) :
    ∀ e ∈ es, ∃ d, names e d := by
  induction h with
  | nil => simp
  | cons hname _ ih =>
    intro e he
    rcases List.mem_cons.mp he with rfl | he
    · exact ⟨_, hname⟩
    · exact ih e he

/-- **The head of a chain commits to the chain.** -/
theorem Linked.commits {R : E → E → Prop} {start : H}
    (hname : ∀ {e f : E} {a b : H}, R e f → names e a → names f b → a = b) :
    ∀ {es fs : List E} {head : H}, (∀ e ∈ es, digest e ≠ start) → (∀ f ∈ fs, digest f ≠ start) →
      (∀ e ∈ es, ∀ f ∈ fs, digest e = digest f → R e f) → Linked names digest start es head →
      Linked names digest start fs head → List.Forall₂ R es fs := by
  intro es
  induction es using List.reverseRecOn with
  | nil =>
    intro fs head _ hfs _ h h'
    cases h
    rcases List.eq_nil_or_concat fs with rfl | ⟨fs, f, rfl⟩
    · exact .nil
    · rw [List.concat_eq_append] at hfs h'
      exact absurd h'.of_concat.1 (hfs f (List.mem_append_right _ List.mem_cons_self))
  | append_singleton es e ih =>
    intro fs head hes hfs hR h h'
    have he : e ∈ es ++ [e] := List.mem_append_right _ List.mem_cons_self
    obtain ⟨hhead, mid, hmid, hlast⟩ := h.of_concat
    rcases List.eq_nil_or_concat fs with rfl | ⟨fs, f, rfl⟩
    · cases h'
      exact absurd hhead (hes e he)
    · rw [List.concat_eq_append] at hfs h' hR ⊢
      have hf : f ∈ fs ++ [f] := List.mem_append_right _ List.mem_cons_self
      obtain ⟨hhead', mid', hmid', hlast'⟩ := h'.of_concat
      have hef : R e f := hR e he f hf (hhead.trans hhead'.symm)
      -- alike entries name one digest, which is the head of both logs without them
      obtain rfl : mid = mid' := hname hef hlast hlast'
      have hrest : List.Forall₂ R es fs :=
        ih (fun d hd => hes d (List.mem_append_left _ hd))
          (fun d hd => hfs d (List.mem_append_left _ hd))
          (fun d hd d' hd' => hR d (List.mem_append_left _ hd) d' (List.mem_append_left _ hd'))
          hmid hmid'
      exact List.rel_append hrest (.cons hef .nil)

end HashChain

end Lib
