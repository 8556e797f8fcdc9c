/-
# Recovery tokens (`core/tokens.py`)

A token is `aegis1.<payload>.<signature>`: the canonical JSON of a `RecoveryAuthorization` and an
Ed25519 signature of its encoded text, both in URL-safe base64.  The signature scheme is the one
part of `verify` that is not in the repository: the verifier holds it as a function.

The dataclass does not check its fields' types; the model reads a payload only if they are the
declared ones, which is all that `sign_authorization` is ever given.
-/
import AegisShield.Journal.Basic
import AegisShield.SealedLine
import AegisShield.Lib.Base64

namespace AegisShield

open Lib

/-! ## 1. Authorizations -/

/-- `RecoveryAuthorization`. -/
structure RecoveryAuthorization where
  action : String
  deviceId : String
  expiresUnix : Int
  issuedUnix : Int
  nonce : String
  stateVersion : Int
  targetSequence : Option Int
  deriving DecidableEq, Repr

namespace RecoveryAuthorization

/-- `asdict`. -/
def toDict {R : Runtime} (a : RecoveryAuthorization) : Dict R.Value :=
  [("action", .str a.action), ("device_id", .str a.deviceId), ("expires_unix", .int a.expiresUnix),
    ("issued_unix", .int a.issuedUnix), ("nonce", .str a.nonce),
    ("state_version", .int a.stateVersion),
    ("target_sequence", a.targetSequence.elim .null .int)]

/-- The parameters of the constructor. -/
def fields : List String :=
  ["action", "device_id", "expires_unix", "issued_unix", "nonce", "state_version",
    "target_sequence"]

/-- An `int`, or nothing. -/
def asInt {R : Runtime} : R.Value → Option Int
  | .int i => some i
  | _ => none

/-- An `int | None`, or nothing. -/
def asOptInt {R : Runtime} : R.Value → Option (Option Int)
  | .int i => some (some i)
  | .null => some none
  | _ => none

/-- `RecoveryAuthorization(**value)`. -/
def ofDict {R : Runtime} (kvs : Dict R.Value) : Option RecoveryAuthorization := do
  if kvs.any (fun kv => !fields.contains kv.1) then none
  let action ← asStr (← kvs.get "action")
  let deviceId ← asStr (← kvs.get "device_id")
  let expiresUnix ← asInt (← kvs.get "expires_unix")
  let issuedUnix ← asInt (← kvs.get "issued_unix")
  let nonce ← asStr (← kvs.get "nonce")
  let stateVersion ← asInt (← kvs.get "state_version")
  let targetSequence ← asOptInt ((kvs.get "target_sequence").getD .null)
  return ⟨action, deviceId, expiresUnix, issuedUnix, nonce, stateVersion, targetSequence⟩

theorem ofDict_toDict {R : Runtime} (a : RecoveryAuthorization) :
    ofDict (a.toDict : Dict R.Value) = some a := by
  obtain ⟨action, deviceId, expiresUnix, issuedUnix, nonce, stateVersion, targetSequence⟩ := a
  cases targetSequence with
  | none => rfl
  | some t => rfl

theorem toDict_wf {R : Runtime} (a : RecoveryAuthorization) :
    (Json.obj a.toDict : R.Value).Wf := by
  refine ⟨Dict.sorted_of_keys (rfl : _ = fields) (by decide), ?_⟩
  refine ⟨trivial, trivial, trivial, trivial, trivial, trivial, ?_, trivial⟩
  cases a.targetSequence <;> trivial

end RecoveryAuthorization

/-! ## 2. Splitting on dots -/

/-- `token.split(".")`. -/
def splitDots : List Char → List (List Char)
  | [] => [[]]
  | c :: cs =>
    if c = '.' then [] :: splitDots cs
    else match splitDots cs with
      | [] => [[c]]
      | p :: ps => (c :: p) :: ps

theorem splitDots_no_dot : ∀ {cs : List Char}, '.' ∉ cs → splitDots cs = [cs]
  | [], _ => rfl
  | c :: cs, h => by
    simp only [List.mem_cons, not_or] at h
    have ih : splitDots cs = [cs] := splitDots_no_dot h.2
    rw [splitDots, if_neg (Ne.symm h.1), ih]

theorem splitDots_append : ∀ {cs : List Char} (ds : List Char), '.' ∉ cs →
    splitDots (cs ++ '.' :: ds) = cs :: splitDots ds
  | [], ds, _ => by rw [List.nil_append, splitDots, if_pos rfl]
  | c :: cs, ds, h => by
    simp only [List.mem_cons, not_or] at h
    have ih := splitDots_append ds h.2
    rw [List.cons_append, splitDots, if_neg (Ne.symm h.1), ih]

/-! ## 3. Signing and verifying -/

/-- A public key, as the check it performs on a signature and a message. -/
structure TokenVerifier where
  accepts : Bytes → Bytes → Bool

/-- `sign_authorization`, with the private key as the function that signs. -/
def signAuthorization (R : Runtime) (sign : Bytes → Bytes) (a : RecoveryAuthorization) : String :=
  let encoded := urlsafeEncode (R.canonicalBytes (.obj a.toDict))
  let signature := urlsafeEncode (sign (utf8 encoded))
  String.ofList ("aegis1".toList ++ '.' :: (encoded ++ '.' :: signature))

namespace TokenVerifier

/-- The payload of a token whose signature holds. -/
def openPayload (R : Runtime) (v : TokenVerifier) (encoded signature : List Char) :
    Option RecoveryAuthorization := do
  let sig ← urlsafeDecode signature
  if encoded.all (fun c => c.toNat < 128) && v.accepts sig (utf8 encoded) then
    let payload ← urlsafeDecode encoded
    let value ← Json.loads (F := R.Float) payload
    let kvs ← (asDict (R := R) .typeError value).toOption
    RecoveryAuthorization.ofDict kvs
  else none

/-- The `try` block of `verify`: any of its exceptions is `none`. -/
def authenticate (R : Runtime) (v : TokenVerifier) (token : String) :
    Option RecoveryAuthorization :=
  match splitDots token.toList with
  | [version, encoded, signature] =>
    if version = "aegis1".toList then v.openPayload R encoded signature else none
  | _ => none

theorem authenticate_of_split {R : Runtime} {v : TokenVerifier} {token : String}
    {encoded signature : List Char}
    (h : splitDots token.toList = ["aegis1".toList, encoded, signature]) :
    v.authenticate R token = v.openPayload R encoded signature := by
  unfold authenticate
  split
  · rename_i version encoded' signature' h'
    rw [h] at h'
    cases h'
    exact if_pos rfl
  · rename_i hne
    exact absurd h (hne _ _ _)

/-- `verify`, with `current` the time it reads or is given. -/
def verify (R : Runtime) (v : TokenVerifier) (token : String) (deviceId action : String)
    (stateVersion : Int) (current : Int) : Except Raised RecoveryAuthorization :=
  match v.authenticate R token with
  | none => .error (.valueError "invalid signed authorization")
  | some a =>
    if a.deviceId ≠ deviceId then .error (.valueError "token is for another device")
    else if a.action ≠ action then .error (.valueError "token action mismatch")
    else if a.stateVersion ≠ stateVersion then .error (.valueError "token state version is stale")
    else if a.issuedUnix > current + 60 then .error (.valueError "token issued in the future")
    else if a.expiresUnix < current then .error (.valueError "token expired")
    else if a.expiresUnix - a.issuedUnix > 900 then
      .error (.valueError "token lifetime exceeds 15-minute limit")
    else .ok a

/-- **What a verified token says.** -/
theorem verify_ok {R : Runtime} {v : TokenVerifier} {token deviceId action : String}
    {stateVersion current : Int} {a : RecoveryAuthorization}
    (h : v.verify R token deviceId action stateVersion current = .ok a) :
    v.authenticate R token = some a ∧ a.deviceId = deviceId ∧ a.action = action ∧
      a.stateVersion = stateVersion ∧ a.issuedUnix ≤ current + 60 ∧ current ≤ a.expiresUnix ∧
      a.expiresUnix - a.issuedUnix ≤ 900 := by
  unfold verify at h
  split at h
  · cases h
  · rename_i b hb
    split at h
    · cases h
    split at h
    · cases h
    split at h
    · cases h
    split at h
    · cases h
    split at h
    · cases h
    split at h
    · cases h
    cases h
    rename_i h1 h2 h3 h4 h5 h6
    exact ⟨hb, not_not.mp h1, not_not.mp h2, not_not.mp h3, by omega, by omega, by omega⟩

/-- `verify` raises nothing but a `ValueError`. -/
theorem verify_error {R : Runtime} {v : TokenVerifier} {token deviceId action : String}
    {stateVersion current : Int} {exception : Raised}
    (h : v.verify R token deviceId action stateVersion current = .error exception) :
    ∃ message, exception = .valueError message := by
  unfold verify at h
  split at h
  · cases h
    exact ⟨_, rfl⟩
  · repeat' split at h
    all_goals cases h
    all_goals exact ⟨_, rfl⟩

/-- The checks of `verify`, put together. -/
theorem verify_of_authenticate {R : Runtime} {v : TokenVerifier} {token : String}
    {a : RecoveryAuthorization} (h : v.authenticate R token = some a) (current : Int)
    (h1 : a.issuedUnix ≤ current + 60) (h2 : current ≤ a.expiresUnix)
    (h3 : a.expiresUnix - a.issuedUnix ≤ 900) :
    v.verify R token a.deviceId a.action a.stateVersion current = .ok a := by
  unfold verify
  rw [h]
  simp only [ne_eq, not_true_eq_false, if_false]
  rw [if_neg (by omega), if_neg (by omega), if_neg (by omega)]

end TokenVerifier

/-- The text of an authorization that is signed. -/
def signedText (R : Runtime) (a : RecoveryAuthorization) : Bytes :=
  utf8 (urlsafeEncode (R.canonicalBytes (.obj a.toDict)))

/-- A payload opens as itself under any signature that is accepted for its text. -/
theorem openPayload_signed {R : Runtime} {v : TokenVerifier} {a : RecoveryAuthorization}
    {signature : List Char} {sig : Bytes} (hsig : urlsafeDecode signature = some sig)
    (haccepts : v.accepts sig (signedText R a) = true) :
    v.openPayload R (urlsafeEncode (R.canonicalBytes (.obj a.toDict))) signature = some a := by
  have hascii : (urlsafeEncode (R.canonicalBytes (.obj a.toDict))).all
      (fun c => c.toNat < 128) = true := by
    rw [List.all_eq_true]
    intro c hc
    simpa using (urlsafeEncode_chars _ c hc).1.isAscii.2
  have hload : Json.loads (R.canonicalBytes (.obj a.toDict)) = some (Json.obj a.toDict : R.Value) :=
    Json.loads_dump .compact a.toDict_wf
  unfold TokenVerifier.openPayload
  refine Option.bind_eq_some_iff.mpr ⟨sig, hsig, ?_⟩
  rw [signedText] at haccepts
  rw [if_pos (by rw [hascii, haccepts]; rfl)]
  refine Option.bind_eq_some_iff.mpr ⟨_, urlsafeDecode_urlsafeEncode _, ?_⟩
  refine Option.bind_eq_some_iff.mpr ⟨_, hload, ?_⟩
  exact Option.bind_eq_some_iff.mpr ⟨_, rfl, a.ofDict_toDict⟩

/-- **A signed authorization authenticates**, as itself. -/
theorem authenticate_signed {R : Runtime} {v : TokenVerifier} {sign : Bytes → Bytes}
    {a : RecoveryAuthorization}
    (hsign : v.accepts (sign (signedText R a)) (signedText R a) = true) :
    v.authenticate R (signAuthorization R sign a) = some a := by
  have hp : '.' ∉ "aegis1".toList := by decide
  have he : '.' ∉ urlsafeEncode (R.canonicalBytes (.obj a.toDict)) :=
    fun h => (urlsafeEncode_chars _ _ h).2 rfl
  have hs : '.' ∉ urlsafeEncode (sign (signedText R a)) :=
    fun h => (urlsafeEncode_chars _ _ h).2 rfl
  have hsplit : splitDots (signAuthorization R sign a).toList = ["aegis1".toList,
      urlsafeEncode (R.canonicalBytes (.obj a.toDict)), urlsafeEncode (sign (signedText R a))] := by
    change splitDots (String.ofList ("aegis1".toList ++ '.' ::
      (urlsafeEncode (R.canonicalBytes (.obj a.toDict)) ++ '.' ::
        urlsafeEncode (sign (signedText R a))))).toList = _
    rw [String.toList_ofList, splitDots_append _ hp, splitDots_append _ he, splitDots_no_dot hs]
  rw [TokenVerifier.authenticate_of_split hsplit]
  exact openPayload_signed (urlsafeDecode_urlsafeEncode _) hsign

/-- With a key whose signatures are always accepted. -/
theorem authenticate_sign {R : Runtime} {v : TokenVerifier} {sign : Bytes → Bytes}
    (hsign : ∀ m, v.accepts (sign m) m = true) (a : RecoveryAuthorization) :
    v.authenticate R (signAuthorization R sign a) = some a :=
  authenticate_signed (hsign _)

end AegisShield
