/-
# Challenges (`api/routers/recovery.py`)

A caller first asks for a challenge (`create_challenge`) and then names it with the token it wants
checked (`authorize_action`).  The challenges wait in a `dict` of the application: asking for one
more drops those that are older than 120 seconds, and the oldest ones while there are 256; naming
one takes it out.

`authorize_action` looks neither at the time the challenge was issued nor at the action it was
issued for.  So a challenge that no later request has dropped is answered at any age, and its token
is checked for the action `enter_recovery_read_only` (`challenges_bind_iff`).
-/
import AegisShield.Engine.Anchors

namespace AegisShield.Api

open Lib

/-! ## 1. The two handlers -/

/-- `_CHALLENGE_TTL_SECONDS`. -/
def challengeTtlSeconds : Int := 120

/-- `_MAX_CHALLENGES`. -/
def maxChallenges : Nat := 256

/-- `_ALLOWED_ACTIONS`, sorted. -/
def allowedActions : List String := ["enter_maintenance", "enter_recovery_read_only"]

/-- What is stored for a challenge. -/
structure Challenge where
  action : String
  issuedAt : Int
  deviceId : String
  deriving DecidableEq, Repr

/-- `app.state.challenges`, in the order of insertion. -/
abbrev Store := Dict Challenge

/-- What a handler answers. -/
inductive Reply
  | challenge (challengeId action deviceId : String) (expiresAt : Int)
  | token (tokenValid : Bool) (detail : String)
  | httpException (statusCode : Nat) (detail : String)
  | raised (exception : Raised)
  deriving DecidableEq, Repr

/-- The challenges that are not too old stay. -/
def prune (challenges : Store) (now : Int) : Store :=
  challenges.filter fun kv => ¬ (now - kv.2.issuedAt > challengeTtlSeconds)

/-- The `while` loop: the oldest challenges go until there is room. -/
def evictOldest : Store → Store
  | [] => []
  | kv :: rest =>
    if maxChallenges ≤ (kv :: rest).length then evictOldest rest else kv :: rest

/-- `challenges[challenge_id] = ...`: a new key comes last. -/
def assign (challenges : Store) (challengeId : String) (challenge : Challenge) : Store :=
  if challenges.any (fun kv => kv.1 = challengeId) then
    challenges.map fun kv => if kv.1 = challengeId then (challengeId, challenge) else kv
  else challenges ++ [(challengeId, challenge)]

variable {W : World}

/-- `create_challenge`, with the identifier drawn for the challenge and the time at the reply. -/
def createChallenge (engine : Engine W) (challenges : Store) (action : String) (now : Int)
    (challengeId : String) (replied : Int) : Reply × Store :=
  if action ∉ allowedActions then
    (.httpException 400 ("unsupported action; expected one of " ++
      "['enter_maintenance', 'enter_recovery_read_only']"), challenges)
  else
    (.challenge challengeId action engine.journal.deviceId (replied + challengeTtlSeconds),
      assign (evictOldest (prune challenges now)) challengeId
        ⟨action, now, engine.journal.deviceId⟩)

/-- The `except` clause of `authorize_action`. -/
def refused : Raised → Reply
  | .valueError message => .token false message
  | .runtimeError message => .token false message
  | exception => .raised exception

/-- The detail of the answer to a valid token. -/
def verifiedDetail : String :=
  "Token verified. To complete recovery, assert physical presence via the local Unix socket: " ++
    "echo 'authorize <token>' | nc -U /run/aegis-shield/aegis.sock"

/-- The answer for a challenge that is not stored. -/
def notFound : Reply := .httpException 404 "Challenge not found or expired"

/-- `authorize_action`.  The key is nothing where no file is configured or none is there, and
otherwise what `TokenVerifier(public_pem)` gives. -/
def authorizeAction (engine : Engine W) (publicKey : Option (Except Raised TokenVerifier))
    (challenges : Store) (challengeId token : String) (now : Int) : Reply × Store :=
  match challenges.get challengeId with
  | none => (notFound, challenges.pop challengeId)
  | some _ =>
    let challenges := challenges.pop challengeId
    match publicKey with
    | none => (.httpException 503 "No public key configured for token verification", challenges)
    | some key =>
      -- the action of the challenge is not asked for
      match key.bind fun verifier =>
          verifier.verify W.R token engine.journal.deviceId "enter_recovery_read_only"
            engine.stateVersion now with
      | .ok _ => (.token true verifiedDetail, challenges)
      | .error exception => (refused exception, challenges)

/-! ## 2. Histories of requests -/

/-- The requests. -/
inductive Request
  | challenge (action : String)
  | authorize (challengeId token : String)
  deriving DecidableEq, Repr

/-- A request with all that its handler reads: the engine and the key file at that time, the store,
the clock, and the identifier that a new challenge is given. -/
structure Visit (W : World) where
  engine : Engine W
  publicKey : Option (Except Raised TokenVerifier)
  before : Store
  now : Int
  replied : Int
  fresh : String
  request : Request

namespace Visit

/-- The handler's answer, and the store it leaves. -/
def serve (v : Visit W) : Reply × Store :=
  match v.request with
  | .challenge action => createChallenge v.engine v.before action v.now v.fresh v.replied
  | .authorize challengeId token =>
    authorizeAction v.engine v.publicKey v.before challengeId token v.now

def reply (v : Visit W) : Reply := v.serve.1

def after (v : Visit W) : Store := v.serve.2

/-- The challenge that the request was answered with. -/
def issued (v : Visit W) : Option (String × Challenge) :=
  match v.reply with
  | .challenge challengeId action deviceId _ => some (challengeId, ⟨action, v.now, deviceId⟩)
  | _ => none

end Visit

/-- The challenges issued so far, the latest last. -/
def issued (past : List (Visit W)) : List (String × Challenge) := past.filterMap Visit.issued

/-- A history of requests to one application, and the store it leaves: it starts without challenges,
time does not go back, and no identifier is drawn twice. -/
inductive Run (W : World) : List (Visit W) → Store → Prop
  | start : Run W [] []
  | visit {past : List (Visit W)} {v : Visit W} (h : Run W past v.before)
      (htime : ∀ u ∈ past, u.now ≤ v.now)
      (hdistinct : ((issued (past ++ [v])).map Prod.fst).Nodup) : Run W (past ++ [v]) v.after

/-- The challenge has been named by an `authorize` request. -/
def Named (c : String) : List (Visit W) → Prop :=
  Once fun pre v => c ∈ (issued pre).map Prod.fst ∧ ∃ token, v.request = .authorize c token

/-- The request drops the challenge while it is alive, and has itself been answered with the last of
256 later challenges. -/
def Evicts (c : String) (ch : Challenge) (pre : List (Visit W)) (v : Visit W) : Prop :=
  v.issued.isSome ∧ (c, ch) ∈ v.before ∧ v.now - ch.issuedAt ≤ challengeTtlSeconds ∧
    (c, ch) ∉ v.after ∧ ∃ older later, issued (pre ++ [v]) = older ++ (c, ch) :: later ∧
      maxChallenges ≤ later.length

/-- A later request has evicted the challenge. -/
def Evicted (c : String) (ch : Challenge) : List (Visit W) → Prop := Once (Evicts c ch)

/-- There is nothing to authorize under this name: it was never issued, it was named before, or the
challenge is too old or evicted. -/
def Gone (c : String) (past : List (Visit W)) (now : Int) : Prop :=
  c ∉ (issued past).map Prod.fst ∨ Named c past ∨
    ∃ ch, (c, ch) ∈ issued past ∧
      (challengeTtlSeconds < now - ch.issuedAt ∨ Evicted c ch past)

/-! ## 3. What the handlers do to the store -/

section Store

variable {store : Store} {now : Int} {c : String} {ch : Challenge}

theorem mem_prune :
    (c, ch) ∈ prune store now ↔ (c, ch) ∈ store ∧ now - ch.issuedAt ≤ challengeTtlSeconds := by
  simp [prune]

theorem evictOldest_of_room (h : store.length < maxChallenges) : evictOldest store = store := by
  cases store with
  | nil => rfl
  | cons kv rest => rw [evictOldest, if_neg (Nat.not_le_of_lt h)]

/-- One challenge goes from a store that is just full. -/
theorem evictOldest_full {kv : String × Challenge} {rest : Store}
    (h : (kv :: rest).length = maxChallenges) : evictOldest (kv :: rest) = rest := by
  rw [evictOldest, if_pos (Nat.le_of_eq h.symm)]
  exact evictOldest_of_room (by rw [← h]; exact Nat.lt_succ_self _)

theorem evictOldest_length : ∀ store : Store, (evictOldest store).length < maxChallenges
  | [] => by decide
  | kv :: rest => by
    rw [evictOldest]
    split
    · exact evictOldest_length rest
    · rename_i h
      exact Nat.lt_of_not_le h

theorem evictOldest_sublist : ∀ store : Store, (evictOldest store).Sublist store
  | [] => List.Sublist.refl _
  | kv :: rest => by
    rw [evictOldest]
    split
    · exact (evictOldest_sublist rest).trans (List.sublist_cons_self kv rest)
    · exact List.Sublist.refl _

theorem assign_new (h : c ∉ store.map Prod.fst) : assign store c ch = store ++ [(c, ch)] := by
  rw [assign, if_neg]
  intro hany
  obtain ⟨kv, hkv, hc⟩ := List.any_eq_true.mp hany
  exact h (List.mem_map.mpr ⟨kv, hkv, of_decide_eq_true hc⟩)

theorem mem_pop {c' : String} : (c, ch) ∈ Dict.pop store c' ↔ (c, ch) ∈ store ∧ c ≠ c' := by
  simp [Dict.pop]

theorem get_eq_none_iff : Dict.get store c = none ↔ c ∉ store.map Prod.fst := by
  rw [Dict.get, List.lookup_eq_none_iff, List.mem_map]
  constructor
  · rintro h ⟨kv, hkv, rfl⟩
    simpa using h kv hkv
  · intro h kv hkv
    have hne : kv.1 ≠ c := fun heq => h ⟨kv, hkv, heq⟩
    simpa using hne.symm

end Store

section Authorize

variable (engine : Engine W) (publicKey : Option (Except Raised TokenVerifier)) (store : Store)
  (c token : String) (now : Int)

theorem authorizeAction_store :
    (authorizeAction engine publicKey store c token now).2 = store.pop c := by
  unfold authorizeAction
  split
  · rfl
  · dsimp only
    split
    · rfl
    · split <;> rfl

theorem refused_cases (exception : Raised) :
    (∃ message, refused exception = .token false message) ∨
      refused exception = .raised exception := by
  cases exception with
  | valueError message => exact Or.inl ⟨message, rfl⟩
  | runtimeError message => exact Or.inl ⟨message, rfl⟩
  | _ => exact Or.inr rfl

/-- The four kinds of answer. -/
theorem authorizeAction_reply :
    (store.get c = none ∧ (authorizeAction engine publicKey store c token now).1 = notFound) ∨
      (store.get c ≠ none ∧
        ((authorizeAction engine publicKey store c token now).1 =
            .httpException 503 "No public key configured for token verification" ∨
          (∃ valid detail,
            (authorizeAction engine publicKey store c token now).1 = .token valid detail) ∨
          ∃ exception,
            (authorizeAction engine publicKey store c token now).1 = .raised exception)) := by
  unfold authorizeAction
  split
  · rename_i hget
    exact Or.inl ⟨hget, rfl⟩
  · rename_i hget
    refine Or.inr ⟨by rw [hget]; exact Option.some_ne_none _, ?_⟩
    dsimp only
    split
    · exact Or.inl rfl
    · split
      · exact Or.inr (Or.inl ⟨_, _, rfl⟩)
      · rename_i exception _
        rcases refused_cases exception with ⟨message, h⟩ | h
        · exact Or.inr (Or.inl ⟨_, _, h⟩)
        · exact Or.inr (Or.inr ⟨_, h⟩)

/-- **The answer to a challenge that is stored**: the token is checked for the action
`enter_recovery_read_only`. -/
theorem authorizeAction_stored {verifier : TokenVerifier} (hget : store.get c ≠ none) :
    ∃ valid detail,
      (authorizeAction engine (some (.ok verifier)) store c token now).1 = .token valid detail ∧
        (valid = true ↔ ∃ a, verifier.verify W.R token engine.journal.deviceId
          "enter_recovery_read_only" engine.stateVersion now = .ok a) := by
  obtain ⟨challenge, hget⟩ := Option.ne_none_iff_exists'.mp hget
  unfold authorizeAction
  rw [hget]
  simp only [Except.bind]
  generalize hverify : verifier.verify W.R token engine.journal.deviceId
    "enter_recovery_read_only" engine.stateVersion now = outcome
  cases outcome with
  | ok a => exact ⟨true, verifiedDetail, rfl, iff_of_true rfl ⟨a, rfl⟩⟩
  | error exception =>
    obtain ⟨message, rfl⟩ := TokenVerifier.verify_error hverify
    exact ⟨false, message, rfl, iff_of_false Bool.false_ne_true (by rintro ⟨a, ha⟩; cases ha)⟩

end Authorize

/-! ## 4. What one request does -/

namespace Visit

variable {v : Visit W} {c : String} {ch : Challenge}

theorem serve_challenge {action : String} (h : v.request = .challenge action) :
    v.serve = createChallenge v.engine v.before action v.now v.fresh v.replied := by
  rw [serve, h]

theorem serve_authorize {token : String} (h : v.request = .authorize c token) :
    v.serve = authorizeAction v.engine v.publicKey v.before c token v.now := by
  rw [serve, h]

/-- Only a request for a challenge is answered with one. -/
theorem issued_authorize {token : String} (h : v.request = .authorize c token) :
    v.issued = none := by
  unfold issued reply
  rw [serve_authorize h]
  rcases authorizeAction_reply v.engine v.publicKey v.before c token v.now with
    ⟨-, hreply⟩ | ⟨-, hreply | ⟨valid, detail, hreply⟩ | ⟨exception, hreply⟩⟩
  all_goals rw [hreply]
  rfl

/-- **A request that is answered with a challenge.** -/
theorem issued_eq_some {kv : String × Challenge} (h : v.issued = some kv) :
    kv.2.issuedAt = v.now ∧
      v.after = assign (evictOldest (prune v.before v.now)) kv.1 kv.2 := by
  cases hrequest : v.request with
  | authorize c token =>
    rw [issued_authorize hrequest] at h
    cases h
  | challenge action =>
    unfold issued reply at h
    unfold after
    rw [serve_challenge hrequest] at h ⊢
    by_cases hallowed : action ∉ allowedActions
    · rw [createChallenge, if_pos hallowed] at h
      cases h
    · rw [createChallenge, if_neg hallowed] at h ⊢
      cases h
      exact ⟨rfl, rfl⟩

/-- **A request that is not**: the challenge it names is taken out. -/
theorem after_of_issued_none (h : v.issued = none) :
    (∃ c token, v.request = .authorize c token ∧ v.after = v.before.pop c) ∨
      ((∀ c token, v.request ≠ .authorize c token) ∧ v.after = v.before) := by
  unfold after
  cases hrequest : v.request with
  | authorize c token =>
    rw [serve_authorize hrequest, authorizeAction_store]
    exact Or.inl ⟨c, token, rfl, rfl⟩
  | challenge action =>
    unfold issued reply at h
    rw [serve_challenge hrequest] at h ⊢
    by_cases hallowed : action ∉ allowedActions
    · rw [createChallenge, if_pos hallowed]
      exact Or.inr ⟨fun _ _ => Request.noConfusion, rfl⟩
    · rw [createChallenge, if_neg hallowed] at h
      cases h

theorem after_sublist_of_issued_none (h : v.issued = none) : v.after.Sublist v.before := by
  rcases after_of_issued_none h with ⟨c, token, -, hafter⟩ | ⟨-, hafter⟩
  · rw [hafter]
    exact List.filter_sublist
  · rw [hafter]

theorem mem_after_of_issued_none (h : v.issued = none) :
    (c, ch) ∈ v.after ↔ (c, ch) ∈ v.before ∧ ¬ ∃ token, v.request = .authorize c token := by
  rcases after_of_issued_none h with ⟨c', token, hrequest, hafter⟩ | ⟨hrequest, hafter⟩
  · rw [hafter, mem_pop]
    refine and_congr_right fun _ => not_congr ⟨?_, ?_⟩
    · rintro rfl
      exact ⟨token, hrequest⟩
    · rintro ⟨token', h'⟩
      rw [hrequest] at h'
      cases h'
      rfl
  · rw [hafter]
    exact (and_iff_left fun ⟨token, h'⟩ => hrequest c token h').symm

end Visit

/-! ## 5. What the store holds -/

section History

variable {past : List (Visit W)} {v : Visit W} {c : String} {ch : Challenge}

theorem issued_concat : issued (past ++ [v]) = issued past ++ v.issued.toList := by
  simp [issued, List.filterMap_cons, List.filterMap_append]
  cases v.issued <;> rfl

theorem issued_front (pre post : List (Visit W)) :
    (issued pre).Sublist (issued (pre ++ post)) :=
  (List.sublist_append_left pre post).filterMap _

/-- An issued challenge is known by its name. -/
theorem issued_inj {ch' : Challenge} (hdistinct : ((issued past).map Prod.fst).Nodup)
    (h : (c, ch) ∈ issued past) (h' : (c, ch') ∈ issued past) : ch = ch' :=
  congrArg Prod.snd (List.inj_on_of_nodup_map hdistinct h h' rfl)

/-- The challenge has outlived its time when another was issued. -/
def Lapsed (ch : Challenge) : List (Visit W) → Prop :=
  Once fun _ v => v.issued.isSome ∧ challengeTtlSeconds < v.now - ch.issuedAt

/-- **The invariant**: the store holds the challenges that were issued and are not gone, in the
order in which they were issued. -/
structure Keeps (past : List (Visit W)) (store : Store) : Prop where
  bounded : store.length ≤ maxChallenges
  issued : store.Sublist (issued past)
  distinct : ((Api.issued past).map Prod.fst).Nodup
  kept : ∀ {c ch}, (c, ch) ∈ Api.issued past →
    ((c, ch) ∈ store ↔ ¬ (Named c past ∨ Evicted c ch past ∨ Lapsed ch past))

theorem Keeps.start : Keeps (W := W) [] [] where
  bounded := Nat.zero_le _
  issued := List.Sublist.refl _
  distinct := List.nodup_nil
  kept := by
    intro c ch h
    cases h

/-- **A request that is not answered with a challenge** keeps the invariant. -/
theorem Keeps.visit_none (h : Keeps past v.before) (hnone : v.issued = none) :
    Keeps (past ++ [v]) v.after := by
  have hissued : Api.issued (past ++ [v]) = Api.issued past := by
    rw [issued_concat, hnone]
    exact List.append_nil _
  have hsublist := Visit.after_sublist_of_issued_none hnone
  refine ⟨hsublist.length_le.trans h.bounded, ?_, ?_, ?_⟩
  · rw [hissued]
    exact hsublist.trans h.issued
  · rw [hissued]
    exact h.distinct
  · intro c ch hmem
    rw [hissued] at hmem
    -- without an issue the visit can name a challenge, but neither evict one nor let one lapse
    have hnamed : Named c (past ++ [v]) ↔ Named c past ∨ ∃ token, v.request = .authorize c token := by
      rw [Named, once_concat]
      refine or_congr_right (and_iff_right ?_)
      exact List.mem_map_of_mem hmem
    have hevicted : Evicted c ch (past ++ [v]) ↔ Evicted c ch past := by
      rw [Evicted, once_concat]
      refine or_iff_left ?_
      rintro ⟨hsome, -⟩
      rw [hnone] at hsome
      cases hsome
    have hlapsed : Lapsed ch (past ++ [v]) ↔ Lapsed ch past := by
      rw [Lapsed, once_concat]
      refine or_iff_left ?_
      rintro ⟨hsome, -⟩
      rw [hnone] at hsome
      cases hsome
    rw [Visit.mem_after_of_issued_none hnone, h.kept hmem, hnamed, hevicted, hlapsed]
    simp only [not_or]
    constructor
    · rintro ⟨⟨hN, hE, hL⟩, hR⟩
      exact ⟨⟨hN, hR⟩, hE, hL⟩
    · rintro ⟨⟨hN, hR⟩, hE, hL⟩
      exact ⟨⟨hN, hE, hL⟩, hR⟩

/-- **A challenge that is dropped for want of room** is the oldest of 256, and one more follows. -/
theorem Keeps.evicts {kv : String × Challenge} (h : Keeps past v.before) (hissued : v.issued = some kv)
    (hbefore : (c, ch) ∈ prune v.before v.now) (hafter : (c, ch) ∉ v.after)
    (hdropped : (c, ch) ∉ evictOldest (prune v.before v.now)) : Evicts c ch past v := by
  have hpruned : (prune v.before v.now).Sublist v.before := List.filter_sublist
  have hfull : (prune v.before v.now).length = maxChallenges := by
    refine le_antisymm (hpruned.length_le.trans h.bounded) (Nat.le_of_not_lt fun hroom => ?_)
    rw [evictOldest_of_room hroom] at hdropped
    exact hdropped hbefore
  obtain ⟨hmem, hage⟩ := mem_prune.mp hbefore
  refine ⟨by rw [hissued]; rfl, hmem, hage, hafter, ?_⟩
  have hsublist := hpruned.trans h.issued
  generalize prune v.before v.now = pruned at *
  cases pruned with
  | nil => cases hbefore
  | cons oldest rest =>
    rw [evictOldest_full hfull] at hdropped
    obtain rfl := (List.mem_cons.mp hbefore).resolve_right hdropped
    obtain ⟨front, back, hpast, hfront, hback⟩ := List.cons_sublist_iff.mp hsublist
    obtain ⟨older, between, rfl⟩ := List.append_of_mem hfront
    refine ⟨older, between ++ back ++ [kv], ?_, ?_⟩
    · rw [issued_concat, hpast, hissued]
      simp
    · have hlength := hback.length_le
      rw [List.length_cons] at hfull
      simp only [List.length_append, List.length_singleton]
      omega

/-- What is said of a challenge has been issued. -/
theorem Named.issued (h : Named c past) : c ∈ (issued past).map Prod.fst := by
  obtain ⟨pre, u, post, rfl, hmem, -⟩ := h
  exact ((issued_front pre (u :: post)).map Prod.fst).subset hmem

theorem Evicted.issued (h : Evicted c ch past) : (c, ch) ∈ issued past := by
  obtain ⟨pre, u, post, rfl, -, -, -, -, older, later, hissued, -⟩ := h
  have hmem : (c, ch) ∈ Api.issued (pre ++ [u]) := by
    rw [hissued]
    exact List.mem_append_right _ List.mem_cons_self
  have hfront := issued_front (pre ++ [u]) post
  rw [List.append_assoc] at hfront
  exact hfront.subset hmem

/-- A challenge that was just issued is not gone. -/
theorem Keeps.fresh {kv : String × Challenge} (hissued : v.issued = some kv)
    (hnew : kv.1 ∉ (Api.issued past).map Prod.fst) (htime : ∀ u ∈ past, u.now ≤ v.now)
    (hafter : kv ∈ v.after) :
    ¬ (Named kv.1 (past ++ [v]) ∨ Evicted kv.1 kv.2 (past ++ [v]) ∨ Lapsed kv.2 (past ++ [v])) := by
  have hage := (Visit.issued_eq_some hissued).1
  rintro (hnamed | hevicted | hlapsed)
  · rcases once_concat.mp hnamed with hnamed | ⟨hmem, -⟩
    · exact hnew (Named.issued hnamed)
    · exact hnew hmem
  · rcases once_concat.mp hevicted with hevicted | ⟨-, -, -, hgone, -⟩
    · exact hnew (List.mem_map_of_mem (Evicted.issued hevicted))
    · exact hgone hafter
  · rw [Lapsed, once_concat, hage] at hlapsed
    rcases hlapsed with ⟨pre, u, post, rfl, -, hold⟩ | ⟨-, hold⟩
    · have hu := htime u (List.mem_append_right _ List.mem_cons_self)
      unfold challengeTtlSeconds at hold
      omega
    · rw [sub_self] at hold
      exact absurd hold (by decide)

/-- **A request that is answered with a challenge** keeps the invariant. -/
theorem Keeps.visit_some (h : Keeps past v.before) {kv : String × Challenge}
    (hissued : v.issued = some kv) (htime : ∀ u ∈ past, u.now ≤ v.now)
    (hdistinct : ((Api.issued (past ++ [v])).map Prod.fst).Nodup) :
    Keeps (past ++ [v]) v.after := by
  have hall : Api.issued (past ++ [v]) = Api.issued past ++ [kv] := by
    rw [issued_concat, hissued]
    rfl
  have hnew : kv.1 ∉ (Api.issued past).map Prod.fst := by
    rw [hall, List.map_append] at hdistinct
    intro hmem
    exact (List.nodup_append.mp hdistinct).2.2 _ hmem _ List.mem_cons_self rfl
  have hroom := evictOldest_sublist (prune v.before v.now)
  have hpruned : (prune v.before v.now).Sublist v.before := List.filter_sublist
  have hleft := (hroom.trans hpruned).trans h.issued
  have hafter : v.after = evictOldest (prune v.before v.now) ++ [kv] := by
    rw [(Visit.issued_eq_some hissued).2]
    exact assign_new fun hmem => hnew ((hleft.map Prod.fst).subset hmem)
  refine ⟨?_, ?_, hdistinct, ?_⟩
  · rw [hafter, List.length_append, List.length_singleton]
    exact evictOldest_length _
  · rw [hafter, hall]
    exact hleft.append (List.Sublist.refl _)
  · intro c ch hmem
    rw [hall, List.mem_append, List.mem_singleton] at hmem
    rcases hmem with hmem | heq
    · -- an earlier one: this visit names none, so it goes only for its age or for want of room
      have hne : (c, ch) ≠ kv := by
        rintro rfl
        exact hnew (List.mem_map_of_mem hmem)
      have hin : (c, ch) ∈ v.after ↔ (c, ch) ∈ evictOldest (prune v.before v.now) := by
        rw [hafter, List.mem_append, List.mem_singleton]
        exact or_iff_left hne
      have hnamed : Named c (past ++ [v]) ↔ Named c past := by
        rw [Named, once_concat]
        refine or_iff_left ?_
        rintro ⟨-, token, hrequest⟩
        rw [Visit.issued_authorize hrequest] at hissued
        cases hissued
      have hlapsed : Lapsed ch (past ++ [v]) ↔
          Lapsed ch past ∨ challengeTtlSeconds < v.now - ch.issuedAt := by
        rw [Lapsed, once_concat]
        refine or_congr_right (and_iff_right ?_)
        rw [hissued]
        rfl
      have hkept := h.kept hmem
      rw [hnamed, Evicted, once_concat, ← Evicted, hlapsed]
      by_cases hbefore : (c, ch) ∈ v.before
      · -- it goes because it is too old, or for want of room
        by_cases hdropped : (c, ch) ∈ v.after
        · have hage := (mem_prune.mp (hroom.subset (hin.mp hdropped))).2
          refine iff_of_true hdropped ?_
          rintro (h' | (h' | ⟨-, -, -, h', -⟩) | h' | h')
          · exact hkept.mp hbefore (Or.inl h')
          · exact hkept.mp hbefore (Or.inr (Or.inl h'))
          · exact h' hdropped
          · exact hkept.mp hbefore (Or.inr (Or.inr h'))
          · exact absurd h' (not_lt.mpr hage)
        · refine iff_of_false hdropped (not_not.mpr ?_)
          by_cases hage : v.now - ch.issuedAt ≤ challengeTtlSeconds
          · have hevicts := h.evicts hissued (mem_prune.mpr ⟨hbefore, hage⟩) hdropped
              (fun h' => hdropped (hin.mpr h'))
            exact Or.inr (Or.inl (Or.inr hevicts))
          · exact Or.inr (Or.inr (Or.inr (not_le.mp hage)))
      · have hdropped : (c, ch) ∉ v.after := by
          intro h'
          exact hbefore (hpruned.subset (hroom.subset (hin.mp h')))
        have hgone := not_not.mp (mt hkept.mpr hbefore)
        exact iff_of_false hdropped (not_not.mpr (hgone.imp_right (Or.imp Or.inl Or.inl)))
    · subst heq
      have hlast : (c, ch) ∈ v.after := by
        rw [hafter]
        exact List.mem_append_right _ List.mem_cons_self
      exact iff_of_true hlast (Keeps.fresh hissued hnew htime hlast)

/-- **The invariant holds of every history.** -/
theorem Run.keeps {store : Store} (h : Run W past store) : Keeps past store := by
  induction h with
  | start => exact Keeps.start
  | @visit past v h htime hdistinct ih =>
    cases hissued : v.issued with
    | none => exact ih.visit_none hissued
    | some kv => exact ih.visit_some hissued htime hdistinct

/-- The part of a history before one of its requests. -/
theorem Run.before {store : Store} (h : Run W past store) :
    ∀ {pre post : List (Visit W)} {v : Visit W}, past = pre ++ v :: post →
      Run W pre v.before ∧ ∀ u ∈ pre, u.now ≤ v.now := by
  induction h with
  | start =>
    intro pre post v hpast
    exact absurd (List.append_eq_nil_iff.mp hpast.symm).2 (List.cons_ne_nil _ _)
  | @visit past v h htime hdistinct ih =>
    intro pre post u hpast
    rcases List.eq_nil_or_concat post with rfl | ⟨post, last, rfl⟩
    · obtain ⟨rfl, heq⟩ := List.append_inj' hpast rfl
      cases heq
      exact ⟨h, htime⟩
    · rw [List.concat_eq_append, ← List.cons_append, ← List.append_assoc] at hpast
      obtain ⟨rfl, -⟩ := List.append_inj' hpast rfl
      exact ih rfl

end History

/-! ## 6. What is answered -/

section Answers

variable {past : List (Visit W)} {v : Visit W} {c token : String} {verifier : TokenVerifier}

/-- The token is an authorization for the action, now. -/
def Visit.Accepts (v : Visit W) (verifier : TokenVerifier) (token action : String) : Prop :=
  ∃ a, verifier.verify W.R token v.engine.journal.deviceId action v.engine.stateVersion v.now = .ok a

/-- The request is answered as the challenge it names asks for. -/
structure Visit.Answers (v : Visit W) (past : List (Visit W)) (verifier : TokenVerifier)
    (c token : String) : Prop where
  notFound : v.reply = Api.notFound ↔ Gone c past v.now
  token : ¬ Gone c past v.now → ∀ ch, (c, ch) ∈ Api.issued past →
    ∃ valid detail, v.reply = .token valid detail ∧
      (valid = true ↔ v.Accepts verifier token ch.action)

/-- What the handlers do not check: the challenge is not too old, and it was issued for the action
that is checked; or the token is for neither. -/
def Visit.Bound (v : Visit W) (verifier : TokenVerifier) (c token : String) : Prop :=
  ∀ ch, (c, ch) ∈ v.before → v.now - ch.issuedAt ≤ challengeTtlSeconds ∧
    (ch.action = "enter_recovery_read_only" ∨
      ¬ v.Accepts verifier token "enter_recovery_read_only" ∧ ¬ v.Accepts verifier token ch.action)

/-- A token is for one action. -/
theorem Visit.Accepts.inj {action action' : String} (h : v.Accepts verifier token action)
    (h' : v.Accepts verifier token action') : action = action' := by
  obtain ⟨a, ha⟩ := h
  obtain ⟨a', ha'⟩ := h'
  obtain ⟨hauth, -, haction, -⟩ := TokenVerifier.verify_ok ha
  obtain ⟨hauth', -, haction', -⟩ := TokenVerifier.verify_ok ha'
  obtain rfl := Option.some.inj (hauth.symm.trans hauth')
  exact haction.symm.trans haction'

theorem Visit.reply_notFound_iff (hrequest : v.request = .authorize c token) :
    v.reply = notFound ↔ c ∉ v.before.map Prod.fst := by
  unfold reply
  rw [serve_authorize hrequest, ← get_eq_none_iff]
  rcases authorizeAction_reply v.engine v.publicKey v.before c token v.now with
    ⟨hget, hreply⟩ | ⟨hget, hreply | ⟨valid, detail, hreply⟩ | ⟨exception, hreply⟩⟩
  · exact iff_of_true hreply hget
  · exact iff_of_false (by rw [hreply]; decide) hget
  · exact iff_of_false (by rw [hreply]; exact Reply.noConfusion) hget
  · exact iff_of_false (by rw [hreply]; exact Reply.noConfusion) hget

theorem Visit.reply_stored (hrequest : v.request = .authorize c token)
    (hkey : v.publicKey = some (.ok verifier)) (hstored : c ∈ v.before.map Prod.fst) :
    ∃ valid detail, v.reply = .token valid detail ∧
      (valid = true ↔ v.Accepts verifier token "enter_recovery_read_only") := by
  unfold reply
  rw [serve_authorize hrequest, hkey]
  exact authorizeAction_stored v.engine v.before c token v.now
    (fun hget => get_eq_none_iff.mp hget hstored)

/-- A challenge that is not stored is gone. -/
theorem Keeps.gone (h : Keeps past v.before) (htime : ∀ u ∈ past, u.now ≤ v.now)
    (hc : c ∉ v.before.map Prod.fst) : Gone c past v.now := by
  by_cases hissued : c ∈ (Api.issued past).map Prod.fst
  · obtain ⟨⟨c, ch⟩, hmem, rfl⟩ := List.mem_map.mp hissued
    have hgone := not_not.mp (mt (h.kept hmem).mpr fun hin => hc (List.mem_map_of_mem hin))
    rcases hgone with hnamed | hevicted | ⟨pre, u, post, rfl, -, hold⟩
    · exact Or.inr (Or.inl hnamed)
    · exact Or.inr (Or.inr ⟨ch, hmem, Or.inr hevicted⟩)
    · have hu := htime u (List.mem_append_right _ List.mem_cons_self)
      exact Or.inr (Or.inr ⟨ch, hmem, Or.inl (by omega)⟩)
  · exact Or.inl hissued

/-- A stored challenge is gone only by its age. -/
theorem Keeps.not_gone (h : Keeps past v.before) {ch : Challenge} (hmem : (c, ch) ∈ v.before)
    (hage : v.now - ch.issuedAt ≤ challengeTtlSeconds) : ¬ Gone c past v.now := by
  have hissued := h.issued.subset hmem
  have hkept := (h.kept hissued).mp hmem
  rintro (hnever | hnamed | ⟨ch', hissued', hold⟩)
  · exact hnever (List.mem_map_of_mem hissued)
  · exact hkept (Or.inl hnamed)
  · obtain rfl := issued_inj h.distinct hissued hissued'
    rcases hold with hold | hevicted
    · exact absurd hold (not_lt.mpr hage)
    · exact hkept (Or.inr (Or.inl hevicted))

/-- **One request.** -/
theorem Keeps.answers_iff (h : Keeps past v.before) (htime : ∀ u ∈ past, u.now ≤ v.now)
    (hrequest : v.request = .authorize c token) (hkey : v.publicKey = some (.ok verifier)) :
    v.Answers past verifier c token ↔ v.Bound verifier c token := by
  have hreply := Visit.reply_notFound_iff hrequest
  constructor
  · intro hanswers ch hmem
    have hin : c ∈ v.before.map Prod.fst := List.mem_map_of_mem hmem
    have hissued := h.issued.subset hmem
    have hgone : ¬ Gone c past v.now := fun hgone => hreply.mp (hanswers.notFound.mpr hgone) hin
    refine ⟨not_lt.mp fun hold => hgone (Or.inr (Or.inr ⟨ch, hissued, Or.inl hold⟩)), ?_⟩
    obtain ⟨valid, detail, heq, hvalid⟩ := hanswers.token hgone ch hissued
    obtain ⟨valid', detail', heq', hvalid'⟩ := Visit.reply_stored hrequest hkey hin
    rw [heq] at heq'
    cases heq'
    by_cases haccepts : v.Accepts verifier token ch.action
    · exact Or.inl (haccepts.inj (hvalid'.mp (hvalid.mpr haccepts)))
    · exact Or.inr ⟨fun h' => haccepts (hvalid.mp (hvalid'.mpr h')), haccepts⟩
  · intro hbound
    have hnotFound : v.reply = notFound ↔ Gone c past v.now := by
      rw [hreply]
      refine ⟨h.gone htime, fun hgone hin => ?_⟩
      obtain ⟨⟨c, ch⟩, hmem, rfl⟩ := List.mem_map.mp hin
      exact h.not_gone hmem (hbound ch hmem).1 hgone
    refine ⟨hnotFound, fun hgone ch hissued => ?_⟩
    have hin : c ∈ v.before.map Prod.fst := not_not.mp fun hout => hgone (h.gone htime hout)
    obtain ⟨⟨c, ch'⟩, hmem, rfl⟩ := List.mem_map.mp hin
    -- no identifier is issued twice, so the stored challenge is the issued one
    obtain rfl := issued_inj h.distinct hissued (h.issued.subset hmem)
    obtain ⟨valid, detail, heq, hvalid⟩ := Visit.reply_stored hrequest hkey hin
    refine ⟨valid, detail, heq, hvalid.trans ?_⟩
    rcases (hbound ch hmem).2 with haction | ⟨hrecovery, haction⟩
    · rw [haction]
    · exact iff_of_false hrecovery haction

end Answers

/-- **Challenges are bounded, and answered as they should be exactly when** the request comes in
time, for the action that the handler checks. -/
theorem challenges_bind_iff {past : List (Visit W)} {store : Store} (h : Run W past store) :
    store.length ≤ maxChallenges ∧
      ∀ (pre : List (Visit W)) (v : Visit W) (post : List (Visit W)) (c token : String)
        (verifier : TokenVerifier), past = pre ++ v :: post →
        v.request = .authorize c token → v.publicKey = some (.ok verifier) →
        v.before.length ≤ maxChallenges ∧
          (v.Answers pre verifier c token ↔ v.Bound verifier c token) := by
  refine ⟨h.keeps.bounded, ?_⟩
  intro pre v post c token verifier hpast hrequest hkey
  obtain ⟨hrun, htime⟩ := h.before hpast
  exact ⟨hrun.keeps.bounded, hrun.keeps.answers_iff htime hrequest hkey⟩

/-! ## 7. A challenge and the request that names it -/

section Two

variable (e : Engine World.quiet) (action token : String) (now : Int)

/-- A request for a challenge, at the time 0. -/
def asked : Visit World.quiet := ⟨e, some (.ok serviceKey), [], 0, 0, "c", .challenge action⟩

/-- The request that names it. -/
def naming : Visit World.quiet :=
  ⟨e, some (.ok serviceKey), (asked e action).after, now, now, "", .authorize "c" token⟩

/-- A token for the action, valid until 600. -/
def tokenFor : String := signAuthorization World.quiet.R id { recoveryAt 1 0 with action := action }

variable {e action token now}

theorem asked_eq (haction : action ∈ allowedActions) :
    (asked e action).after = [("c", ⟨action, 0, e.journal.deviceId⟩)] ∧
      (asked e action).issued = some ("c", ⟨action, 0, e.journal.deviceId⟩) := by
  have hserve : (asked e action).serve = _ := Visit.serve_challenge rfl
  rw [createChallenge, if_neg (not_not.mpr haction)] at hserve
  unfold Visit.after Visit.issued Visit.reply
  rw [hserve]
  exact ⟨rfl, rfl⟩

theorem issued_asked (haction : action ∈ allowedActions) :
    issued [asked e action] = [("c", ⟨action, 0, e.journal.deviceId⟩)] := by
  rw [← List.nil_append [asked e action], issued_concat, (asked_eq haction).2]
  rfl

theorem run_asked (haction : action ∈ allowedActions) :
    Run World.quiet [asked e action] (asked e action).after := by
  have hissued : issued [asked e action] = [("c", ⟨action, 0, e.journal.deviceId⟩)] :=
    issued_asked haction
  have htime : ∀ u ∈ ([] : List (Visit World.quiet)), u.now ≤ (asked e action).now := by
    intro u hu
    cases hu
  refine Run.visit .start htime ?_
  rw [List.nil_append, hissued]
  exact List.nodup_singleton _

theorem run_naming (haction : action ∈ allowedActions) (hnow : 0 ≤ now) :
    Run World.quiet ([asked e action] ++ [naming e action token now])
      (naming e action token now).after := by
  refine Run.visit (run_asked haction) ?_ ?_
  · intro u hu
    rw [List.mem_singleton.mp hu]
    exact hnow
  · have hnone : (naming e action token now).issued = none := Visit.issued_authorize rfl
    rw [issued_concat, hnone, issued_asked haction]
    exact List.nodup_singleton _

theorem naming_stored (haction : action ∈ allowedActions) :
    ("c", ⟨action, 0, e.journal.deviceId⟩) ∈ (naming e action token now).before := by
  have hbefore : (naming e action token now).before = (asked e action).after := rfl
  rw [hbefore, (asked_eq haction).1]
  exact List.mem_singleton_self _

theorem naming_accepts {action' : String} (hdevice : e.journal.deviceId = "dev")
    (hversion : e.stateVersion = 1) (hnow : 0 ≤ now) (hexpires : now ≤ 600) :
    (naming e action token now).Accepts serviceKey (tokenFor action') action' := by
  let a : RecoveryAuthorization := { recoveryAt 1 0 with action := action' }
  have hauth : serviceKey.authenticate World.quiet.R (tokenFor action') = some a :=
    authenticate_sign (fun _ => decide_eq_true rfl) a
  have hissued : (0 : Int) ≤ now + 60 := by omega
  have hlifetime : (600 : Int) - 0 ≤ 900 := by decide
  have h := TokenVerifier.verify_of_authenticate hauth now hissued hexpires hlifetime
  unfold Visit.Accepts naming
  rw [hdevice, hversion]
  exact ⟨a, h⟩

end Two

/-- A challenge that is named in time. -/
theorem challenges_bind_iff_in_time : ∃ dir : Dir,
    provision World.quiet.R 4 512 "dev" = .ok dir ∧
      (naming (quietBoot dir).engine "enter_recovery_read_only"
        (tokenFor "enter_recovery_read_only") 10).Answers
          [asked (quietBoot dir).engine "enter_recovery_read_only"] serviceKey "c"
          (tokenFor "enter_recovery_read_only") := by
  obtain ⟨dir, hdir⟩ := provision_four_blocks
  refine ⟨dir, hdir, ?_⟩
  generalize (quietBoot dir).engine = e
  have haction : "enter_recovery_read_only" ∈ allowedActions := by decide
  have hnow : (0 : Int) ≤ 10 := by decide
  have hage : (10 : Int) - 0 ≤ challengeTtlSeconds := by decide
  have hrun : Run World.quiet
      ([asked e "enter_recovery_read_only"] ++ [naming e "enter_recovery_read_only"
        (tokenFor "enter_recovery_read_only") 10]) _ := run_naming haction hnow
  refine ((challenges_bind_iff hrun).2 _ _ [] "c" _ serviceKey rfl rfl rfl).2.mpr ?_
  intro ch hmem
  have hbefore : (naming e "enter_recovery_read_only" (tokenFor "enter_recovery_read_only")
      10).before = (asked e "enter_recovery_read_only").after := rfl
  rw [hbefore, (asked_eq haction).1] at hmem
  cases List.mem_singleton.mp hmem
  exact ⟨hage, Or.inl rfl⟩

/-- **A challenge is answered after 121 seconds, and one for `enter_maintenance` refuses the token
for `enter_maintenance`.** -/
theorem challenge_not_bound : ∃ dir : Dir, provision World.quiet.R 4 512 "dev" = .ok dir ∧
    let e := (quietBoot dir).engine
    let late := naming e "enter_recovery_read_only" (tokenFor "enter_recovery_read_only") 121
    let other := naming e "enter_maintenance" (tokenFor "enter_maintenance") 10
    (Run World.quiet ([asked e "enter_recovery_read_only"] ++ [late]) late.after ∧
      Gone "c" [asked e "enter_recovery_read_only"] 121 ∧
      ∃ detail, late.reply = .token true detail) ∧
    Run World.quiet ([asked e "enter_maintenance"] ++ [other]) other.after ∧
      ¬ Gone "c" [asked e "enter_maintenance"] 10 ∧
      ("c", ⟨"enter_maintenance", 0, "dev"⟩) ∈ issued [asked e "enter_maintenance"] ∧
      other.Accepts serviceKey (tokenFor "enter_maintenance") "enter_maintenance" ∧
      ∃ detail, other.reply = .token false detail := by
  obtain ⟨dir, hdir⟩ := provision_four_blocks
  have hdevice : (quietBoot dir).engine.journal.deviceId = "dev" := rfl
  have hversion : (quietBoot dir).engine.stateVersion = 1 := rfl
  refine ⟨dir, hdir, ?_⟩
  intro e late other
  have hrecovery : "enter_recovery_read_only" ∈ allowedActions := by decide
  have hmaintenance : "enter_maintenance" ∈ allowedActions := by decide
  have hissued : ∀ {action : String}, action ∈ allowedActions →
      ("c", ⟨action, 0, "dev"⟩) ∈ issued [asked e action] := by
    intro action haction
    rw [issued_asked haction, hdevice]
    exact List.mem_singleton_self _
  have hage : (10 : Int) - 0 ≤ challengeTtlSeconds := by decide
  refine ⟨⟨run_naming hrecovery (by decide), ?_, ?_⟩, run_naming hmaintenance (by decide), ?_,
    hissued hmaintenance, naming_accepts hdevice hversion (by decide) (by decide), ?_⟩
  · exact Or.inr (Or.inr ⟨_, hissued hrecovery, Or.inl (by decide)⟩)
  · -- two minutes and a second later the challenge is gone, and the token alone decides
    have hstored : "c" ∈ late.before.map Prod.fst := List.mem_map_of_mem (naming_stored hrecovery)
    obtain ⟨valid, detail, hreply, hvalid⟩ := Visit.reply_stored rfl rfl hstored
    have haccepts : late.Accepts serviceKey (tokenFor "enter_recovery_read_only")
        "enter_recovery_read_only" := naming_accepts hdevice hversion (by decide) (by decide)
    rw [hvalid.mpr haccepts] at hreply
    exact ⟨detail, hreply⟩
  · have hkeeps : Keeps [asked e "enter_maintenance"] other.before := (run_asked hmaintenance).keeps
    exact hkeeps.not_gone (naming_stored hmaintenance) hage
  · -- in time, but the action asked of the verifier is not the challenge's
    have hstored : "c" ∈ other.before.map Prod.fst :=
      List.mem_map_of_mem (naming_stored hmaintenance)
    obtain ⟨valid, detail, hreply, hvalid⟩ := Visit.reply_stored rfl rfl hstored
    have haccepts : other.Accepts serviceKey (tokenFor "enter_maintenance") "enter_maintenance" :=
      naming_accepts hdevice hversion (by decide) (by decide)
    have hrefused : valid = false := by
      refine Bool.eq_false_iff.mpr fun htrue => ?_
      exact absurd (haccepts.inj (hvalid.mp htrue)) (by decide)
    rw [hrefused] at hreply
    exact ⟨detail, hreply⟩

end AegisShield.Api
