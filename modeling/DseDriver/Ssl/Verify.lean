import DseDriver.CassError
import DseDriver.Ssl.VerifyIdentity

/-!
# Verifying the peer of a TLS session

`OpenSslSession::verify` runs after the handshake.  It makes the checks the
application asked for with `cass_ssl_set_verify_flags` and leaves the first failure in
the session's error fields.
-/

namespace DseDriver.Ssl

/-! ## Verification flags -/

/-- The checks an application can ask for. -/
structure VerifyFlags where
  peerCert : Bool
  peerIdentity : Bool
  peerIdentityDns : Bool
  deriving DecidableEq, Repr

namespace VerifyFlags

/-- `CASS_SSL_VERIFY_PEER_CERT` and its siblings. -/
def peerCertBit : UInt32 := 0x01

@[inherit_doc peerCertBit] def peerIdentityBit : UInt32 := 0x02

@[inherit_doc peerCertBit] def peerIdentityDnsBit : UInt32 := 0x04

/-- The flags as the integer an application passes; without any it is
`CASS_SSL_VERIFY_NONE`. -/
def bits (flags : VerifyFlags) : UInt32 :=
  (if flags.peerCert then peerCertBit else 0) |||
    (if flags.peerIdentity then peerIdentityBit else 0) |||
    (if flags.peerIdentityDns then peerIdentityDnsBit else 0)

theorem bits_eq_zero (flags : VerifyFlags) :
    flags.bits = 0 ↔ flags = ⟨false, false, false⟩ := by
  rcases flags with ⟨_ | _, _ | _, _ | _⟩ <;> decide

@[simp] theorem bits_and_peerCertBit (flags : VerifyFlags) :
    flags.bits &&& peerCertBit ≠ 0 ↔ flags.peerCert = true := by
  rcases flags with ⟨_ | _, _ | _, _ | _⟩ <;> decide

@[simp] theorem bits_and_peerIdentityBit (flags : VerifyFlags) :
    flags.bits &&& peerIdentityBit ≠ 0 ↔ flags.peerIdentity = true := by
  rcases flags with ⟨_ | _, _ | _, _ | _⟩ <;> decide

@[simp] theorem bits_and_peerIdentityDnsBit (flags : VerifyFlags) :
    flags.bits &&& peerIdentityDnsBit ≠ 0 ↔ flags.peerIdentityDns = true := by
  rcases flags with ⟨_ | _, _ | _, _ | _⟩ <;> decide

end VerifyFlags

/-! ## Sessions -/

/-- A session after its handshake: what the TLS library knows of the peer, and the fields
`verify` reads and writes. -/
structure SslSession where
  peerCertificate : Option Certificate
  /-- `SSL_get_verify_result`: zero is `X509_V_OK`. -/
  verifyResult : Int
  host : Host
  verifyFlags : UInt32
  errorCode : CassError
  errorMessage : String
  deriving DecidableEq, Repr

namespace SslSession

def hasError (session : SslSession) : Bool :=
  session.errorCode ≠ .ok

/-- The handling of a match's result, the same in both branches of `verify`. -/
def checkIdentity (session : SslSession) : MatchResult → SslSession
  | .matched => session
  | .invalidCert =>
    { session with
      errorCode := .sslInvalidPeerCert
      errorMessage := "Peer certificate has malformed name field(s)" }
  | _ =>
    { session with
      errorCode := .sslIdentityMismatch
      errorMessage := "Peer certificate subject name does not match" }

variable (certErrorString : Int → String) (hostcheck : List UInt8 → List UInt8 → Bool)

/-- `OpenSslSession::verify`, over the library's texts for verification results and its
hostname check. -/
def verify (session : SslSession) : SslSession :=
  if session.verifyFlags = 0 then session
  else
    match session.peerCertificate with
    | none =>
      { session with
        errorCode := .sslNoPeerCert
        errorMessage := "No peer certificate found" }
    | some peerCert =>
      if session.verifyFlags &&& VerifyFlags.peerCertBit ≠ 0 ∧ session.verifyResult ≠ 0 then
        { session with
          errorCode := .sslInvalidPeerCert
          errorMessage := certErrorString session.verifyResult }
      else if session.verifyFlags &&& VerifyFlags.peerIdentityBit ≠ 0 then
        session.checkIdentity (matchIp peerCert session.host)
      -- The hostname is looked at only when the address was not asked for.
      else if session.verifyFlags &&& VerifyFlags.peerIdentityDnsBit ≠ 0 then
        session.checkIdentity (matchDns hostcheck peerCert session.host)
      else session

/-! ## The requested checks -/

/-- Every check whose flag is set passes. -/
structure Passes (session : SslSession) (flags : VerifyFlags) : Prop where
  peerCert : flags.peerCert = true →
    session.peerCertificate ≠ none ∧ session.verifyResult = 0
  peerIdentity : flags.peerIdentity = true →
    ∃ cert, session.peerCertificate = some cert ∧ matchIp cert session.host = .matched
  peerIdentityDns : flags.peerIdentityDns = true →
    ∃ cert, session.peerCertificate = some cert ∧
      matchDns hostcheck cert session.host = .matched

/-- The hostname check is asked for beside the address check, and it alone fails. -/
def OnlyHostnameFails (session : SslSession) (flags : VerifyFlags) : Prop :=
  flags.peerIdentity = true ∧ flags.peerIdentityDns = true ∧
    (flags.peerCert = true → session.verifyResult = 0) ∧
    ∃ cert, session.peerCertificate = some cert ∧ matchIp cert session.host = .matched ∧
      matchDns hostcheck cert session.host ≠ .matched

variable {session : SslSession}

theorem hasError_checkIdentity (clean : session.hasError = false) (result : MatchResult) :
    (session.checkIdentity result).hasError = false ↔ result = .matched := by
  cases result with
  | matched => simpa [checkIdentity] using clean
  | invalidCert => simp [checkIdentity, hasError]
  | noMatch => simp [checkIdentity, hasError]
  | noSanPresent => simp [checkIdentity, hasError]

/-- What `verify` checks of a session with a peer certificate. -/
theorem hasError_verify {flags : VerifyFlags} (asked : session.verifyFlags = flags.bits)
    (clean : session.hasError = false) {cert : Certificate}
    (present : session.peerCertificate = some cert) :
    (session.verify certErrorString hostcheck).hasError = false ↔
      (flags.peerCert = true → session.verifyResult = 0) ∧
      (flags.peerIdentity = true → matchIp cert session.host = .matched) ∧
      (flags.peerIdentity = false → flags.peerIdentityDns = true →
        matchDns hostcheck cert session.host = .matched) := by
  rw [verify]
  simp only [asked, present, VerifyFlags.bits_and_peerCertBit,
    VerifyFlags.bits_and_peerIdentityBit, VerifyFlags.bits_and_peerIdentityDnsBit,
    VerifyFlags.bits_eq_zero]
  rcases flags with ⟨chain, identity, identityDns⟩
  by_cases chainOk : session.verifyResult = 0
  · cases identity with
    | true => simp [chainOk, hasError_checkIdentity clean]
    | false =>
      cases identityDns with
      | true => simp [chainOk, hasError_checkIdentity clean]
      | false => simp [chainOk, clean]
  · cases chain with
    | true => simp [chainOk, hasError]
    | false =>
      cases identity with
      | true => simp [hasError_checkIdentity clean]
      | false =>
        cases identityDns with
        | true => simp [hasError_checkIdentity clean]
        | false => simp [clean]

/-- Without a certificate only the empty request passes. -/
theorem passes_none (absent : session.peerCertificate = none) (flags : VerifyFlags) :
    session.Passes hostcheck flags ↔ flags = ⟨false, false, false⟩ := by
  constructor
  · intro passes
    rcases flags with ⟨chain, identity, identityDns⟩
    have noChain : chain = false :=
      Bool.eq_false_iff.mpr fun asked => (passes.peerCert asked).1 absent
    have noIdentity : identity = false := by
      refine Bool.eq_false_iff.mpr fun asked => ?_
      rcases passes.peerIdentity asked with ⟨cert, present, _⟩
      rw [absent] at present
      cases present
    have noIdentityDns : identityDns = false := by
      refine Bool.eq_false_iff.mpr fun asked => ?_
      rcases passes.peerIdentityDns asked with ⟨cert, present, _⟩
      rw [absent] at present
      cases present
    rw [noChain, noIdentity, noIdentityDns]
  · intro none
    subst none
    exact ⟨nofun, nofun, nofun⟩

theorem passes_some {cert : Certificate} (present : session.peerCertificate = some cert)
    (flags : VerifyFlags) :
    session.Passes hostcheck flags ↔
      (flags.peerCert = true → session.verifyResult = 0) ∧
      (flags.peerIdentity = true → matchIp cert session.host = .matched) ∧
      (flags.peerIdentityDns = true → matchDns hostcheck cert session.host = .matched) := by
  constructor
  · intro passes
    refine ⟨fun asked => (passes.peerCert asked).2, fun asked => ?_, fun asked => ?_⟩
    · rcases passes.peerIdentity asked with ⟨other, there, matched⟩
      rw [present] at there
      cases there
      exact matched
    · rcases passes.peerIdentityDns asked with ⟨other, there, matched⟩
      rw [present] at there
      cases there
      exact matched
  · intro checks
    refine ⟨fun asked => ⟨?_, checks.1 asked⟩, fun asked => ?_, fun asked => ?_⟩
    · rw [present]
      exact Option.some_ne_none cert
    · exact ⟨cert, present, checks.2.1 asked⟩
    · exact ⟨cert, present, checks.2.2 asked⟩

/-- `verify` enforces exactly the requested checks, unless the hostname check was asked
for beside the address check and is the only one to fail. -/
theorem verify_enforces_iff (session : SslSession) (flags : VerifyFlags)
    (asked : session.verifyFlags = flags.bits) (clean : session.hasError = false) :
    ((session.verify certErrorString hostcheck).hasError = false ↔
      session.Passes hostcheck flags) ↔
    ¬ session.OnlyHostnameFails hostcheck flags := by
  cases present : session.peerCertificate with
  | none =>
    have honest : ¬ session.OnlyHostnameFails hostcheck flags := by
      intro fails
      rcases fails.2.2.2 with ⟨cert, there, _⟩
      rw [present] at there
      cases there
    simp only [honest, not_false_eq_true, iff_true, passes_none hostcheck present]
    rw [verify, asked, ← VerifyFlags.bits_eq_zero]
    by_cases zero : flags.bits = 0
    · simp [zero, clean]
    · simp [zero, present, hasError]
  | some cert =>
    rw [hasError_verify certErrorString hostcheck asked clean present,
      passes_some hostcheck present, OnlyHostnameFails]
    simp only [present, Option.some.injEq, exists_eq_left']
    rcases flags with ⟨chain, identity, identityDns⟩
    cases identity with
    | false => simp
    | true =>
      cases identityDns with
      | false => simp
      | true => simp

end SslSession

/-- A session with the ten-net host whose peer shows that address and the hostname `b`. -/
def otherHostname (flags : VerifyFlags) : SslSession where
  peerCertificate := some
    { subjectName := some []
      subjectAltNames := some [.ipAddress (some [10, 0, 0, 1]), .dnsName (some [98])] }
  verifyResult := 0
  host := tenHost
  verifyFlags := flags.bits
  errorCode := .ok
  errorMessage := ""

theorem verify_enforces_hostname :
    ((otherHostname ⟨true, false, true⟩).verify (fun _ => "") (· == ·)).hasError = false ↔
      (otherHostname ⟨true, false, true⟩).Passes (· == ·) ⟨true, false, true⟩ :=
  (SslSession.verify_enforces_iff (fun _ => "") (· == ·) (otherHostname ⟨true, false, true⟩)
    ⟨true, false, true⟩ rfl rfl).mpr fun fails => nomatch fails.1

/-- Asked for address and hostname, `verify` accepts a certificate for another hostname. -/
theorem verify_skips_hostname :
    (otherHostname ⟨true, true, true⟩).hasError = false ∧
    ((otherHostname ⟨true, true, true⟩).verify (fun _ => "") (· == ·)).hasError = false ∧
      ¬ (otherHostname ⟨true, true, true⟩).Passes (· == ·) ⟨true, true, true⟩ := by
  refine ⟨by decide, by decide, ?_⟩
  intro passes
  rcases passes.peerIdentityDns rfl with ⟨cert, there, matched⟩
  cases there
  revert matched
  decide

end DseDriver.Ssl
