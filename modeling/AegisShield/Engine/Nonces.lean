/-
# Nonces and the life of their tokens

`_prune_nonces` keeps a nonce up to a second that it computes itself: the token's `expires_unix` in
the mapping, 900 seconds from the load for an entry of the legacy list.  `TokenVerifier.verify`
decides on its own when a token is dead.  The two do not agree:

* a mapping is pruned in the second `expires_unix`, in which `verify` still accepts the token;
* a token may be issued up to 60 seconds ahead, so it can outlive the 900 seconds of a legacy entry.

A nonce is forgotten with its token alive exactly if a pruning has reached that second while the
token has not expired (`nonces_outlive_tokens_iff`).
-/
import AegisShield.Engine.SingleUse

namespace AegisShield

open Lib

/-! ## 1. Pruning again and again -/

section Pruning

variable {R : Runtime}

/-- `_prune_nonces` on a value, and then on its own result at the times `later`. -/
def pruneTimes (v : R.Value) (first : Int) (later : List Int) : Except Raised (Dict Int) := do
  let nonces ← pruneNonces first v
  return later.foldl (fun d t => pruneDict t d) nonces

/-- The value records a used nonce, to be kept up to a second: a mapping under the token's
`expires`, the legacy list under nothing. -/
inductive Recorded (nonce : String) (expires first : Int) : R.Value → Int → Prop
  | mapping {kvs : Dict R.Value} (hkeys : kvs.Sorted) (h : (nonce, .int expires) ∈ kvs) :
      Recorded nonce expires first (.obj kvs) expires
  | legacy {xs : List R.Value} (h : .str nonce ∈ xs) :
      Recorded nonce expires first (.arr xs) (first + maxTokenLifetimeSeconds)

theorem mem_pruneDict {current : Int} {d : Dict Int} {kv : String × Int} :
    kv ∈ pruneDict current d ↔ kv ∈ d ∧ current < kv.2 := by
  simp [pruneDict]

theorem mem_pruned {kv : String × Int} : ∀ {later : List Int} {d : Dict Int},
    kv ∈ later.foldl (fun d t => pruneDict t d) d ↔ kv ∈ d ∧ ∀ t ∈ later, t < kv.2
  | [], d => by simp
  | t :: later, d => by
    rw [List.foldl_cons, mem_pruned, mem_pruneDict, List.forall_mem_cons, and_assoc]

/-- The entries of a comprehension that may raise. -/
theorem mem_of_mapM {α β : Type} {f : α → Except Raised β} : ∀ {xs : List α} {ys : List β},
    xs.mapM f = .ok ys → ∀ {y : β}, y ∈ ys ↔ ∃ x ∈ xs, f x = .ok y
  | [], ys, h, y => by
    cases h
    simp
  | x :: xs, ys, h, y => by
    rw [List.mapM_cons] at h
    obtain ⟨y₀, hy₀, h⟩ := bind_eq_ok.mp h
    obtain ⟨rest, hrest, h⟩ := bind_eq_ok.mp h
    cases h
    rw [List.mem_cons, mem_of_mapM hrest, List.exists_mem_cons_iff, hy₀, Except.ok.injEq, eq_comm]

theorem mem_keys_set {k k' : String} {e : Int} : ∀ {d : Dict Int},
    k' ∈ (Dict.set k e d).map Prod.fst ↔ k' = k ∨ k' ∈ d.map Prod.fst
  | [] => by simp [Dict.set]
  | (l, e') :: d => by
    rw [Dict.set]
    split
    · simp
    · split
      · rename_i hk
        simp [hk]
      · simp only [List.map_cons, List.mem_cons, mem_keys_set]
        tauto

/-- The legacy list, as a mapping. -/
theorem mem_migrated {e : Int} {kv : String × Int} : ∀ {names : List String} {d : Dict Int},
    (∀ kv ∈ d, kv.2 = e) →
      (kv ∈ names.foldl (fun d n => Dict.set n e d) d ↔
        (kv.1 ∈ names ∨ kv.1 ∈ d.map Prod.fst) ∧ kv.2 = e)
  | [], d, hd => by
    rw [List.foldl_nil]
    constructor
    · intro h
      exact ⟨Or.inr (List.mem_map_of_mem h), hd kv h⟩
    · rintro ⟨h | h, he⟩
      · cases h
      · obtain ⟨kv', hkv', hk⟩ := List.mem_map.mp h
        have hsame : kv' = kv := Prod.ext hk ((hd kv' hkv').trans he.symm)
        rw [← hsame]
        exact hkv'
  | n :: names, d, hd => by
    have hset : ∀ kv ∈ Dict.set n e d, kv.2 = e := by
      intro kv' h
      rcases Dict.mem_set h with rfl | h
      · rfl
      · exact hd kv' h
    rw [List.foldl_cons, mem_migrated hset, mem_keys_set, List.mem_cons]
    tauto

/-- A sorted mapping has one entry for a key. -/
theorem Dict.Sorted.unique {α : Type} {d : Dict α} (h : d.Sorted) {k : String} {v v' : α}
    (hv : (k, v) ∈ d) (hv' : (k, v') ∈ d) : v = v' := by
  induction d with
  | nil => cases hv
  | cons kv d ih =>
    obtain ⟨hfirst, hrest⟩ := List.pairwise_cons.mp h
    rcases List.mem_cons.mp hv with rfl | hin
    · rcases List.mem_cons.mp hv' with heq | hin'
      · exact (Prod.mk.inj heq).2.symm
      · exact absurd (hfirst _ hin') (String.lt_irrefl k)
    · rcases List.mem_cons.mp hv' with rfl | hin'
      · exact absurd (hfirst _ hin) (String.lt_irrefl k)
      · exact ih hrest hin hin'

/-- **What is kept**, up to which second. -/
theorem Recorded.kept_iff {nonce : String} {expires first limit : Int} {v : R.Value}
    (h : Recorded nonce expires first v limit) {later : List Int} {d : Dict Int}
    (hrun : pruneTimes v first later = .ok d) :
    nonce ∈ d.map Prod.fst ↔ ∀ t ∈ first :: later, t < limit := by
  obtain ⟨nonces, hnonces, hrun⟩ := bind_eq_ok.mp hrun
  cases hrun
  -- behind the first pruning the nonce has the limit as its value, if it is there
  have hentry : ∀ e, (nonce, e) ∈ nonces ↔ e = limit ∧ first < limit := by
    intro e
    cases h with
    | mapping hkeys hrecorded =>
      obtain ⟨all, hall, hnonces⟩ := bind_eq_ok.mp hnonces
      cases hnonces
      rw [mem_pruneDict, mem_of_mapM hall]
      constructor
      · rintro ⟨⟨kv, hkv, hint⟩, hlt⟩
        obtain ⟨n, hn, hint⟩ := bind_eq_ok.mp hint
        cases hint
        have hvalue : kv.2 = .int expires := Dict.Sorted.unique hkeys hkv hrecorded
        rw [hvalue] at hn
        cases hn
        exact ⟨rfl, hlt⟩
      · rintro ⟨rfl, hlt⟩
        exact ⟨⟨_, hrecorded, rfl⟩, hlt⟩
    | legacy hlisted =>
      obtain ⟨names, hnames, hnonces⟩ := bind_eq_ok.mp hnonces
      cases hnonces
      have hname : nonce ∈ names := (mem_of_mapM hnames).mpr ⟨_, hlisted, rfl⟩
      rw [mem_migrated (by nofun)]
      have hlater : first < first + maxTokenLifetimeSeconds := by
        rw [maxTokenLifetimeSeconds]
        omega
      exact ⟨fun hin => ⟨hin.2, hlater⟩, fun hin => ⟨Or.inl hname, hin.1⟩⟩
  constructor
  · intro hin
    obtain ⟨kv, hkv, rfl⟩ := List.mem_map.mp hin
    obtain ⟨hkept, hlater⟩ := mem_pruned.mp hkv
    obtain ⟨he, hfirst⟩ := (hentry kv.2).mp hkept
    rw [he] at hlater
    exact List.forall_mem_cons.mpr ⟨hfirst, hlater⟩
  · intro hall
    obtain ⟨hfirst, hlater⟩ := List.forall_mem_cons.mp hall
    have hkept := mem_pruned.mpr ⟨(hentry limit).mpr ⟨rfl, hfirst⟩, hlater⟩
    exact List.mem_map_of_mem hkept

/-! ## 2. The life of a token -/

/-- The checks of `verify` on the times of a token. -/
def lifeChecks : List String :=
  ["token issued in the future", "token expired", "token lifetime exceeds 15-minute limit"]

/-- When `verify` accepts a token that it has accepted before. -/
theorem verify_again_iff {verifier : TokenVerifier} {token deviceId action : String}
    {version used now : Int} {a : RecoveryAuthorization}
    (haccepted : verifier.verify R token deviceId action version used = .ok a) (hle : used ≤ now) :
    verifier.verify R token deviceId action version now = .ok a ↔ now ≤ a.expiresUnix := by
  obtain ⟨hauth, rfl, rfl, rfl, hissued, -, hlifetime⟩ := TokenVerifier.verify_ok haccepted
  constructor
  · intro h
    obtain ⟨-, -, -, -, -, hexpires, -⟩ := TokenVerifier.verify_ok h
    exact hexpires
  · intro hexpires
    exact TokenVerifier.verify_of_authenticate hauth now (by omega) hexpires hlifetime

theorem verify_expired {verifier : TokenVerifier} {token deviceId action : String}
    {version used now : Int} {a : RecoveryAuthorization}
    (haccepted : verifier.verify R token deviceId action version used = .ok a) (hle : used ≤ now)
    (hexpired : a.expiresUnix < now) :
    verifier.verify R token deviceId action version now = .error (.valueError "token expired") := by
  obtain ⟨hauth, rfl, rfl, rfl, hissued, -, -⟩ := TokenVerifier.verify_ok haccepted
  unfold TokenVerifier.verify
  rw [hauth]
  simp only [ne_eq, not_true_eq_false, if_false]
  rw [if_neg (by omega), if_pos hexpired]

/-! ## 3. Main result -/

/-- **A nonce outlives its token** exactly if the token has expired, or no pruning has reached the
second up to which the nonce is kept. -/
theorem nonces_outlive_tokens_iff {verifier : TokenVerifier} {token deviceId action : String}
    {version used : Int} {a : RecoveryAuthorization}
    (haccepted : verifier.verify R token deviceId action version used = .ok a)
    {v : R.Value} {first limit : Int} (hrecorded : Recorded a.nonce a.expiresUnix first v limit)
    {later : List Int} {d : Dict Int} (hrun : pruneTimes v first later = .ok d) {t : Int}
    (hused : used ≤ t) :
    (a.nonce ∉ d.map Prod.fst → ∀ t', t ≤ t' →
        ∃ check ∈ lifeChecks,
          verifier.verify R token deviceId action version t' = .error (.valueError check)) ↔
      (∀ s ∈ first :: later, s < limit) ∨ a.expiresUnix < t := by
  rw [← hrecorded.kept_iff hrun]
  constructor
  · intro h
    by_contra hnot
    obtain ⟨hforgotten, halive⟩ := not_or.mp hnot
    obtain ⟨check, -, he⟩ := h hforgotten t (le_refl t)
    rw [(verify_again_iff haccepted hused).mpr (not_lt.mp halive)] at he
    cases he
  · rintro (hkept | hexpired) hforgotten t' ht'
    · exact absurd hkept hforgotten
    · have hdead := verify_expired haccepted (le_trans hused ht') (lt_of_lt_of_le hexpired ht')
      exact ⟨"token expired", by decide, hdead⟩

end Pruning

/-- A mapping that is pruned in time. -/
theorem nonces_outlive_tokens_iff_mapping :
    (("n-1" ∉ ([("n-1", 600)] : Dict Int).map Prod.fst → ∀ t', (300 : Int) ≤ t' →
        ∃ check ∈ lifeChecks,
          serviceKey.verify World.quiet.R serviceToken "dev" "enter_maintenance" 1 t' =
            .error (.valueError check)) ↔
      (∀ s ∈ [(100 : Int), 300], s < 600) ∨ (600 : Int) < 300) := by
  have haccepted : serviceKey.verify World.quiet.R serviceToken "dev" "enter_maintenance" 1 0 =
      .ok serviceAuthorization :=
    TokenVerifier.verify_of_authenticate serviceToken_authentic 0 (by decide) (by decide) (by decide)
  have hrecorded : Recorded (R := World.quiet.R) "n-1" 600 100 (.obj [("n-1", .int 600)]) 600 :=
    .mapping (List.pairwise_singleton _ _) (List.mem_singleton_self _)
  have hrun : pruneTimes (R := World.quiet.R) (.obj [("n-1", .int 600)]) 100 [300] =
      .ok [("n-1", 600)] := rfl
  exact nonces_outlive_tokens_iff haccepted hrecorded hrun (by decide)

/-- A token issued ahead of time. -/
def aheadAuthorization : RecoveryAuthorization :=
  ⟨"enter_maintenance", "dev", 960, 60, "n-1", 1, none⟩

/-- **A nonce is forgotten while its token is alive**, in both forms.  The mapping is pruned in the
token's last second.  The legacy list is loaded in the second in which the token is used, 60 seconds
ahead of its issue, and pruned 900 seconds later. -/
theorem nonce_forgotten_early :
    (serviceKey.verify World.quiet.R serviceToken "dev" "enter_maintenance" 1 0 =
        .ok serviceAuthorization ∧
      pruneTimes (R := World.quiet.R) (.obj [("n-1", .int 600)]) 600 [] = .ok [] ∧
      serviceKey.verify World.quiet.R serviceToken "dev" "enter_maintenance" 1 600 =
        .ok serviceAuthorization) ∧
    ∃ token, serviceKey.verify World.quiet.R token "dev" "enter_maintenance" 1 0 =
        .ok aheadAuthorization ∧
      pruneTimes (R := World.quiet.R) (.arr [.str "n-1"]) 0 [900] = .ok [] ∧
      serviceKey.verify World.quiet.R token "dev" "enter_maintenance" 1 960 =
        .ok aheadAuthorization := by
  have hauth : serviceKey.authenticate World.quiet.R
      (signAuthorization World.quiet.R id aheadAuthorization) = some aheadAuthorization :=
    authenticate_sign (fun _ => decide_eq_true rfl) aheadAuthorization
  refine ⟨⟨?_, rfl, ?_⟩, signAuthorization World.quiet.R id aheadAuthorization, ?_, rfl, ?_⟩
  · exact TokenVerifier.verify_of_authenticate serviceToken_authentic 0 (by decide) (by decide)
      (by decide)
  · exact TokenVerifier.verify_of_authenticate serviceToken_authentic 600 (by decide) (by decide)
      (by decide)
  · exact TokenVerifier.verify_of_authenticate hauth 0 (by decide) (by decide) (by decide)
  · exact TokenVerifier.verify_of_authenticate hauth 960 (by decide) (by decide) (by decide)

end AegisShield
