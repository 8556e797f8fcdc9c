/-
# Signing and verifying are inverse

The signature is over the ENCODED payload, so what a signature vouches for is a text, and a text
opens as the authorization it was made from.  Under a scheme that accepts exactly what its key
signed, and a key that signs only authorizations (`Scheme`), a token of an authorization verifies
exactly if the request matches it and the time fits, and whatever string is presented, an
authorization that comes out of `verify` was signed (`verify_inverse`).
-/
import AegisShield.Tokens

namespace AegisShield

open Lib

/-- Different characters, different bytes. -/
theorem utf8_injective {cs ds : List Char} (h : utf8 cs = utf8 ds) : cs = ds := by
  have hcs := decodeUtf8_utf8 cs
  rw [h, decodeUtf8_utf8] at hcs
  exact (Option.some.inj hcs).symm

/-- A key pair whose private half signs the authorizations `issued` and nothing else, and whose
public half accepts exactly what was signed. -/
structure Scheme (R : Runtime) (v : TokenVerifier) (sign : Bytes → Bytes)
    (issued : RecoveryAuthorization → Prop) : Prop where
  complete : ∀ a, issued a → v.accepts (sign (signedText R a)) (signedText R a) = true
  sound : ∀ sig m, v.accepts sig m = true → ∃ a, issued a ∧ m = signedText R a

/-- The request matches the authorization, and the time fits. -/
structure RecoveryAuthorization.Admits (a : RecoveryAuthorization) (deviceId action : String)
    (stateVersion now : Int) : Prop where
  device : deviceId = a.deviceId
  action : action = a.action
  version : stateVersion = a.stateVersion
  issued : a.issuedUnix ≤ now + 60
  expires : now ≤ a.expiresUnix
  lifetime : a.expiresUnix - a.issuedUnix ≤ 900

section Signing

variable {R : Runtime} {v : TokenVerifier} {sign : Bytes → Bytes}
  {issued : RecoveryAuthorization → Prop} {a : RecoveryAuthorization}

/-- **What opens was signed.** -/
theorem Scheme.issued_of_authenticate (h : Scheme R v sign issued) {token : String}
    (ha : v.authenticate R token = some a) : issued a := by
  unfold TokenVerifier.authenticate at ha
  split at ha
  · rename_i version encoded signature hsplit
    split at ha
    · have hopen := ha
      unfold TokenVerifier.openPayload at ha
      obtain ⟨sig, hsig, ha⟩ := Option.bind_eq_some_iff.mp ha
      split at ha
      · rename_i haccepts
        have hv : v.accepts sig (utf8 encoded) = true := (Bool.and_eq_true_iff.mp haccepts).2
        -- the accepted text is that of an issued authorization, and opens as it
        obtain ⟨b, hb, htext⟩ := h.sound sig _ hv
        rw [htext] at hv
        rw [utf8_injective htext, openPayload_signed hsig hv] at hopen
        cases hopen
        exact hb
      · cases ha
    · cases ha
  · cases ha

/-- **Verifying a signed authorization.** -/
theorem Scheme.verify_signed (h : Scheme R v sign issued) (ha : issued a)
    (deviceId action : String) (stateVersion now : Int) :
    v.verify R (signAuthorization R sign a) deviceId action stateVersion now = .ok a ↔
      a.Admits deviceId action stateVersion now := by
  have hauth := authenticate_signed (h.complete a ha)
  constructor
  · intro hok
    obtain ⟨-, h1, h2, h3, h4, h5, h6⟩ := TokenVerifier.verify_ok hok
    exact ⟨h1.symm, h2.symm, h3.symm, h4, h5, h6⟩
  · rintro ⟨rfl, rfl, rfl, h4, h5, h6⟩
    exact TokenVerifier.verify_of_authenticate hauth now h4 h5 h6

/-- A string that verifies gives an authorization that was signed. -/
theorem Scheme.verify_total (h : Scheme R v sign issued) (token deviceId action : String)
    (stateVersion now : Int) :
    (∃ message, v.verify R token deviceId action stateVersion now = .error (.valueError message)) ∨
      ∃ b, v.verify R token deviceId action stateVersion now = .ok b ∧
        v.authenticate R token = some b ∧ issued b := by
  cases hv : v.verify R token deviceId action stateVersion now with
  | error e =>
    obtain ⟨message, rfl⟩ := TokenVerifier.verify_error hv
    exact Or.inl ⟨message, rfl⟩
  | ok b =>
    have hb := (TokenVerifier.verify_ok hv).1
    exact Or.inr ⟨b, rfl, hb, h.issued_of_authenticate hb⟩

/-- **Signing and verifying are inverse, and claims are exact.**  A token of a signed authorization
gives it back exactly if the request matches it and the time fits, and raises a `ValueError`
otherwise; and any string at all raises one or gives an authorization whose canonical payload was
signed. -/
theorem verify_inverse (h : Scheme R v sign issued) :
    (∀ a, issued a → ∀ (deviceId action : String) (stateVersion now : Int),
      (v.verify R (signAuthorization R sign a) deviceId action stateVersion now = .ok a ↔
        a.Admits deviceId action stateVersion now) ∧
      (¬ a.Admits deviceId action stateVersion now → ∃ message,
        v.verify R (signAuthorization R sign a) deviceId action stateVersion now =
          .error (.valueError message))) ∧
    ∀ (token deviceId action : String) (stateVersion now : Int),
      (∃ message,
        v.verify R token deviceId action stateVersion now = .error (.valueError message)) ∨
      ∃ b, v.verify R token deviceId action stateVersion now = .ok b ∧ issued b := by
  refine ⟨fun a ha deviceId action stateVersion now => ?_,
    fun token deviceId action stateVersion now => ?_⟩
  · have hsigned := h.verify_signed ha deviceId action stateVersion now
    refine ⟨hsigned, fun hnot => ?_⟩
    rcases h.verify_total (signAuthorization R sign a) deviceId action stateVersion now with
      herror | ⟨b, hb, hauth, -⟩
    · exact herror
    · -- what comes out is what went in
      rw [authenticate_signed (h.complete a ha)] at hauth
      cases hauth
      exact absurd (hsigned.mp hb) hnot
  · rcases h.verify_total token deviceId action stateVersion now with herror | ⟨b, hb, -, hissued⟩
    · exact Or.inl herror
    · exact Or.inr ⟨b, hb, hissued⟩

end Signing

/-- An authorization to restart a contained device. -/
def restartAuthorization : RecoveryAuthorization :=
  ⟨"rollback", "dev", 1300, 1000, "n-1", 7, some 3⟩

/-- A key that has signed one authorization, whose signatures are `sig`. -/
theorem scheme_single (R : Runtime) (sig : Bytes) (a : RecoveryAuthorization) :
    Scheme R ⟨fun s m => s = sig && m = signedText R a⟩ (fun _ => sig) (· = a) := by
  constructor
  · rintro b rfl
    exact Bool.and_eq_true_iff.mpr ⟨decide_eq_true rfl, decide_eq_true rfl⟩
  · intro s m h
    exact ⟨a, rfl, of_decide_eq_true (Bool.and_eq_true_iff.mp h).2⟩

theorem verify_inverse_restart : ∃ (v : TokenVerifier) (sign : Bytes → Bytes),
    v.verify Runtime.reference (signAuthorization Runtime.reference sign restartAuthorization)
      "dev" "rollback" 7 1100 = .ok restartAuthorization := by
  have hscheme := scheme_single Runtime.reference (List.replicate 64 7) restartAuthorization
  obtain ⟨hsigned, -⟩ := verify_inverse hscheme
  exact ⟨_, _, ((hsigned restartAuthorization rfl "dev" "rollback" 7 1100).1).mpr
    ⟨rfl, rfl, rfl, by decide, by decide, by decide⟩⟩

end AegisShield
