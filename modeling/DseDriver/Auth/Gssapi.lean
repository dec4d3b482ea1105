import DseDriver.Auth.LockCallbacks
import DseDriver.Lib.Bytes

/-!
# The GSSAPI authenticator

`GssapiAuthenticator` answers the challenges of a server, first to establish a security context and
then to choose a security layer.  The GSSAPI library is a parameter; the calls of it that the answers
depend on are logged and stand between a lock and an unlock.  Those that give memory back or put a
status into words (`gss_release_*`, `gss_display_status`) are left out.
-/

namespace DseDriver.Auth

open DseDriver.Lib List

/-- The status codes and the output of a library function. -/
structure Answer (Output : Type) where
  majStat : UInt32
  minStat : UInt32
  output : Output
  deriving DecidableEq, Repr

/-- `GSS_ERROR`. -/
def gssError (majStat : UInt32) : Bool :=
  majStat &&& 0xFFFF0000 ≠ 0

/-- `GSS_S_COMPLETE`. -/
def gssComplete : UInt32 := 0

/-- `GSS_S_CONTINUE_NEEDED`. -/
def gssContinueNeeded : UInt32 := 1

/-- The functions of the library that the authenticator uses.  Contexts, names and credentials are
part of the library's state. -/
structure Gssapi (Library : Type) where
  initSecContext : List UInt8 → Library → Answer (List UInt8) × Library
  inquireContext : Library → Answer Unit × Library
  displayName : Library → Answer (List UInt8) × Library
  unwrap : List UInt8 → Library → Answer (List UInt8) × Library
  wrapSizeLimit : UInt32 → Library → Answer UInt32 × Library
  wrap : List UInt8 → Library → Answer (List UInt8) × Library
  /-- The text that `display_status` makes of the two codes. -/
  displayStatus : UInt32 → UInt32 → String

/-- A call that the authenticator makes. -/
inductive Call where
  | lock (invocation : Invocation)
  | unlock (invocation : Invocation)
  | initSecContext (challenge : List UInt8) (answer : Answer (List UInt8))
  | inquireContext (answer : Answer Unit)
  | displayName (answer : Answer (List UInt8))
  | unwrap (challenge : List UInt8) (answer : Answer (List UInt8))
  | wrapSizeLimit (reqOutputSize : UInt32) (answer : Answer UInt32)
  | wrap (input : List UInt8) (answer : Answer (List UInt8))
  deriving DecidableEq, Repr

namespace GssapiAuthenticator

/-- `GssapiAuthenticator::State`. -/
inductive State where
  | negotiation
  | authentication
  | authenticated
  deriving DecidableEq, Repr

/-- `GssapiAuthenticator::Result`. -/
inductive Result where
  | error
  | continue
  | complete
  deriving DecidableEq, Repr

end GssapiAuthenticator

open GssapiAuthenticator (Result)

/-- A `GssapiAuthenticator`. -/
structure GssapiAuthenticator where
  username : List UInt8
  response : List UInt8
  error : String
  state : GssapiAuthenticator.State
  authorizationId : List UInt8
  deriving DecidableEq, Repr

/-- `GssapiAuthenticator(authorization_id)`. -/
def GssapiAuthenticator.new (authorizationId : List UInt8) : GssapiAuthenticator :=
  { username := [], response := [], error := "", state := .negotiation, authorizationId }

/-- The name that is sent: the authorization id if present (proxy login), otherwise the username. -/
def GssapiAuthenticator.identity (authenticator : GssapiAuthenticator) : List UInt8 :=
  if authenticator.authorizationId.isEmpty then authenticator.username
  else authenticator.authorizationId

/-- `AUTH_NONE`. -/
def authNone : UInt8 := 1

/-- `AUTH_INTEGRITY`. -/
def authIntegrity : UInt8 := 2

/-- `AUTH_CONFIDENTIALITY`. -/
def authConfidentiality : UInt8 := 3

/-- The layer that `authenticate` takes from the first byte of a challenge. -/
def chooseQop (qop : UInt8) : UInt8 :=
  if qop &&& authConfidentiality ≠ 0 then authConfidentiality
  else if qop &&& authIntegrity ≠ 0 then authIntegrity
  else authNone

/-- The size that `authenticate` reads from the other bytes. -/
def readOutputSize (high middle low : UInt8) : UInt32 :=
  ((high.toUInt32 <<< 16) ||| (middle.toUInt32 <<< 8) ||| (low.toUInt32 <<< 0)) &&& 0xFFFFFF

/-- The bytes of the reply in front of the name. -/
def replyHeader (qop : UInt8) (reqOutputSize : UInt32) : List UInt8 :=
  [qop, ((reqOutputSize >>> 16) &&& 0xFF).toUInt8, ((reqOutputSize >>> 8) &&& 0xFF).toUInt8,
    ((reqOutputSize >>> 0) &&& 0xFF).toUInt8]

/-- An authenticator, the library, the lock callbacks and the calls so far. -/
structure Exchange (Library : Type) where
  authenticator : GssapiAuthenticator
  library : Library
  locks : Locks
  calls : List Call

namespace Exchange

variable {Library : Type} (gssapi : Gssapi Library)

/-- A call of the library between `lock` and `unlock`. -/
def locked {Output : Type} (function : Library → Output × Library) (record : Output → Call)
    (exchange : Exchange Library) : Output × Exchange Library :=
  let (answer, library) := function exchange.library
  (answer,
    { exchange with
      library
      calls := exchange.calls ++
        [.lock exchange.locks.lock, record answer, .unlock exchange.locks.unlock] })

/-- The returns with an error text. -/
def fail (message : String) {Output : Type} (answer : Answer Output)
    (exchange : Exchange Library) : Result × Exchange Library :=
  let error := message ++ gssapi.displayStatus answer.majStat answer.minStat
  (.error, { exchange with authenticator := { exchange.authenticator with error } })

/-- Assign the response unless the token is empty. -/
def respond (token : List UInt8) (exchange : Exchange Library) : Exchange Library :=
  if token.isEmpty then exchange
  else { exchange with authenticator := { exchange.authenticator with response := token } }

/-- The end of `negotiate`, once the context is established. -/
def identify (exchange : Exchange Library) : Result × Exchange Library :=
  let (inquired, exchange) := exchange.locked gssapi.inquireContext .inquireContext
  if gssError inquired.majStat then
    exchange.fail gssapi
      "Failed to inquire security context for user principal (gss_inquire_context()): " inquired
  else
    let (displayed, exchange) := exchange.locked gssapi.displayName .displayName
    if gssError displayed.majStat then
      exchange.fail gssapi
        "Failed to get display name for user principal (gss_inquire_context()): " displayed
    else
      (.complete,
        { exchange with
          authenticator :=
            { exchange.authenticator with
              username := displayed.output, state := .authentication } })

/-- `GssapiAuthenticator::negotiate`. -/
def negotiate (challengeToken : List UInt8)
    (exchange : Exchange Library) : Result × Exchange Library :=
  let (answer, exchange) :=
    exchange.locked (gssapi.initSecContext challengeToken) (.initSecContext challengeToken)
  if answer.majStat ≠ gssComplete ∧ answer.majStat ≠ gssContinueNeeded then
    exchange.fail gssapi "Failed to initalize security context (gss_init_sec_context()): " answer
  else
    let exchange := exchange.respond answer.output
    if answer.majStat = gssComplete then exchange.identify gssapi else (.continue, exchange)

/-- The end of `authenticate`: wrap the input and keep it as the response. -/
def sendReply (input : List UInt8) (exchange : Exchange Library) : Result × Exchange Library :=
  let (wrapped, exchange) := exchange.locked (gssapi.wrap input) (.wrap input)
  if gssError wrapped.majStat then
    exchange.fail gssapi "Failed to get wrape response token (gss_wrap()): " wrapped
  else
    let exchange := exchange.respond wrapped.output
    (.complete,
      { exchange with authenticator := { exchange.authenticator with state := .authenticated } })

/-- The reply of `authenticate` to a challenge of four bytes. -/
def reply (qop high middle low : UInt8) (exchange : Exchange Library) : Result × Exchange Library :=
  let reqOutputSize := readOutputSize high middle low
  let (limit, exchange) :=
    exchange.locked (gssapi.wrapSizeLimit reqOutputSize) (.wrapSizeLimit reqOutputSize)
  let reqOutputSize := if limit.output < reqOutputSize then limit.output else reqOutputSize
  exchange.sendReply gssapi
    (replyHeader (chooseQop qop) reqOutputSize ++ exchange.authenticator.identity)

/-- `GssapiAuthenticator::authenticate`. -/
def authenticate (challengeToken : List UInt8)
    (exchange : Exchange Library) : Result × Exchange Library :=
  let (unwrapped, exchange) :=
    exchange.locked (gssapi.unwrap challengeToken) (.unwrap challengeToken)
  if gssError unwrapped.majStat then
    exchange.fail gssapi "Failed to get unwrap challenge token (gss_unwrap()): " unwrapped
  else
    match unwrapped.output with
    | [qop, high, middle, low] => exchange.reply gssapi qop high middle low
    | _ => (.error, exchange)

/-- `GssapiAuthenticator::process`. -/
def process (token : List UInt8) (exchange : Exchange Library) : Result × Exchange Library :=
  let exchange :=
    { exchange with authenticator := { exchange.authenticator with response := [] } }
  match exchange.authenticator.state with
  | .negotiation => exchange.negotiate gssapi token
  | .authentication => exchange.authenticate gssapi token
  | .authenticated => (.error, exchange)

/-- A new authenticator, after it has processed these tokens. -/
def processed (authorizationId : List UInt8) (library : Library)
    (locks : Locks) (tokens : List (List UInt8)) : Exchange Library :=
  tokens.foldl (fun exchange token => (exchange.process gssapi token).2)
    { authenticator := .new authorizationId, library, locks, calls := [] }

end Exchange

/-! ## What the calls say -/

/-- The user name that the negotiation has obtained: the last that was displayed without error. -/
def nameObtained : List Call → Option (List UInt8)
  | [] => none
  | .displayName answer :: calls =>
    (nameObtained calls).or (if gssError answer.majStat then none else some answer.output)
  | _ :: calls => nameObtained calls

/-- The inputs that have been wrapped. -/
def wrappedInputs : List Call → List (List UInt8)
  | [] => []
  | .wrap input _ :: calls => input :: wrappedInputs calls
  | _ :: calls => wrappedInputs calls

/-- The limits that have been reported. -/
def limitsReported : List Call → List UInt32
  | [] => []
  | .wrapSizeLimit _ answer :: calls => answer.output :: limitsReported calls
  | _ :: calls => limitsReported calls

theorem nameObtained_append (before after : List Call) :
    nameObtained (before ++ after) = (nameObtained after).or (nameObtained before) := by
  induction before with
  | nil => simp [nameObtained]
  | cons call before ih => cases call <;> simp [nameObtained, ih, Option.or_assoc]

/-- A security layer of RFC 4752. -/
inductive SecurityLayer where
  | none
  | integrity
  | confidentiality
  deriving DecidableEq, Repr

/-- Its bit in the mask. -/
def SecurityLayer.bit : SecurityLayer → UInt8
  | .none => 1
  | .integrity => 2
  | .confidentiality => 4

def SecurityLayer.OfferedBy (layer : SecurityLayer) (mask : UInt8) : Prop :=
  mask &&& layer.bit ≠ 0

instance (layer : SecurityLayer) (mask : UInt8) : Decidable (layer.OfferedBy mask) :=
  inferInstanceAs (Decidable (_ ≠ _))

/-- Among the calls one wraps the byte, a size of three bytes and a name: the size is at most the
one that the challenge offers and the limit that the library reports, and the name is the
authorization id or, if that is empty, the user name obtained before. -/
structure Wraps (authorizationId : List UInt8) (username : Option (List UInt8))
    (high middle low : UInt8) (added : List Call) (qop : UInt8) (size id : List UInt8)
    (limit : UInt32) : Prop where
  wrapped : wrappedInputs added = [qop :: (size ++ id)]
  reported : limitsReported added = [limit]
  sizeLength : size.length = 3
  withinOffer : ofBytes .big size ≤ ofBytes .big [high, middle, low]
  withinLimit : ofBytes .big size ≤ limit.toNat
  identity : (if authorizationId = [] then username else some authorizationId) = some id

namespace Exchange

variable {Library : Type} (gssapi : Gssapi Library) (exchange : Exchange Library)

/-- The next token is a challenge of four bytes for `authenticate`. -/
def IsChallenge (token : List UInt8) (qop high middle low : UInt8) : Prop :=
  exchange.authenticator.state = .authentication ∧
    gssError (gssapi.unwrap token exchange.library).1.majStat = false ∧
    (gssapi.unwrap token exchange.library).1.output = [qop, high, middle, low]

/-- Whenever the next token is a challenge that offers a security layer, the reply chooses one of
the layers offered, with a size and a name as they should be. -/
def RepliesWell (authorizationId token : List UInt8) : Prop :=
  ∀ qop high middle low, exchange.IsChallenge gssapi token qop high middle low →
    (∃ layer : SecurityLayer, layer.OfferedBy qop) →
      ∃ added size id limit, ∃ layer : SecurityLayer,
        (exchange.process gssapi token).2.calls = exchange.calls ++ added ∧
          layer.OfferedBy qop ∧
          Wraps authorizationId (nameObtained exchange.calls) high middle low added layer.bit
            size id limit

/-- If the next token is a challenge, it offers no security layer. -/
def OffersNoLayer (token : List UInt8) : Prop :=
  ∀ qop high middle low, exchange.IsChallenge gssapi token qop high middle low →
    ∀ layer : SecurityLayer, ¬ layer.OfferedBy qop

end Exchange

/-! ## The bytes of the reply -/

theorem shiftLeft_or (high : Nat) {low shift : Nat} (small : low < 2 ^ shift) :
    high <<< shift ||| low = high * 2 ^ shift + low := by
  rw [← Nat.shiftLeft_add_eq_or_of_lt small, Nat.shiftLeft_eq]

/-- The size read from a challenge is the number that its last three bytes spell. -/
theorem readOutputSize_toNat (high middle low : UInt8) :
    (readOutputSize high middle low).toNat = ofBytes .big [high, middle, low] := by
  have highBound : high.toNat < 256 := high.toNat_lt
  have middleBound : middle.toNat < 256 := middle.toNat_lt
  have lowBound : low.toNat < 2 ^ 8 := low.toNat_lt
  have shift (byte : UInt8) {places : Nat} (few : places ≤ 16) :
      byte.toNat <<< places % 4294967296 = byte.toNat <<< places := by
    apply Nat.mod_eq_of_lt
    rw [Nat.shiftLeft_eq]
    have scaled : 2 ^ places ≤ 2 ^ 16 := Nat.pow_le_pow_right (by decide) few
    calc byte.toNat * 2 ^ places ≤ 255 * 2 ^ 16 :=
          Nat.mul_le_mul (Nat.le_of_lt_succ byte.toNat_lt) scaled
      _ < 4294967296 := by decide
  have joined : high.toNat <<< 16 ||| (middle.toNat <<< 8 ||| low.toNat) =
      high.toNat * 2 ^ 16 + (middle.toNat * 2 ^ 8 + low.toNat) := by
    rw [shiftLeft_or middle.toNat lowBound, shiftLeft_or high.toNat (by omega)]
  have mask (value : Nat) : value &&& 16777215 = value % 2 ^ 24 :=
    Nat.and_two_pow_sub_one_eq_mod value 24
  simp [readOutputSize, shift, Nat.or_assoc, joined, mask, ofBytes, ofLittleEndian]
  omega

theorem replyHeader_eq (qop : UInt8) (reqOutputSize : UInt32) :
    replyHeader qop reqOutputSize = qop :: toBytes .big 3 reqOutputSize.toNat := by
  have mask (value : Nat) : value &&& 255 = value % 2 ^ 8 :=
    Nat.and_two_pow_sub_one_eq_mod value 8
  have byte (shift : UInt32) :
      ((reqOutputSize >>> shift) &&& 0xFF).toUInt8 =
        UInt8.ofNat (reqOutputSize.toNat / 2 ^ (shift.toNat % 32)) := by
    apply UInt8.toNat_inj.mp
    simp [mask, Nat.shiftRight_eq_div_pow]
  simp only [replyHeader, byte, toBytes_big_succ]
  rfl

/-- The size in the reply is at most the one offered and the limit. -/
theorem replySize_le (high middle low : UInt8) (limit : UInt32) :
    let reqOutputSize := readOutputSize high middle low
    let replySize := if limit < reqOutputSize then limit else reqOutputSize
    ofBytes .big (toBytes .big 3 replySize.toNat) ≤ ofBytes .big [high, middle, low] ∧
      ofBytes .big (toBytes .big 3 replySize.toNat) ≤ limit.toNat := by
  intro reqOutputSize replySize
  have offer : reqOutputSize.toNat = ofBytes .big [high, middle, low] :=
    readOutputSize_toNat high middle low
  have least : replySize.toNat ≤ reqOutputSize.toNat ∧ replySize.toNat ≤ limit.toNat := by
    by_cases less : limit < reqOutputSize
    · simp only [replySize, if_pos less]
      exact ⟨Nat.le_of_lt less, Nat.le_refl _⟩
    · simp only [replySize, if_neg less]
      exact ⟨Nat.le_refl _, Nat.le_of_not_lt less⟩
  have stored : ofBytes .big (toBytes .big 3 replySize.toNat) ≤ replySize.toNat := by
    rw [ofBytes_toBytes]
    exact Nat.mod_le _ _
  exact ⟨stored.trans (least.1.trans offer.le), stored.trans least.2⟩

/-- `AUTH_CONFIDENTIALITY` has the bits of the two other layers: what is chosen is never the bit of
a layer that is offered. -/
theorem chooseQop_ne_bit {layer : SecurityLayer} {qop : UInt8} (offered : layer.OfferedBy qop) :
    chooseQop qop ≠ layer.bit := by
  revert qop
  apply forall_byte
  cases layer <;> decide +kernel

/-! ## The name across the negotiation -/

namespace Exchange

variable {Library : Type} {gssapi : Gssapi Library} {exchange : Exchange Library} {Output : Type}

@[simp] theorem locked_authenticator (function : Library → Output × Library)
    (record : Output → Call) :
    (exchange.locked function record).2.authenticator = exchange.authenticator :=
  rfl

@[simp] theorem respond_calls (token : List UInt8) :
    (exchange.respond token).calls = exchange.calls := by
  unfold respond
  split <;> rfl

@[simp] theorem respond_state (token : List UInt8) :
    (exchange.respond token).authenticator.state = exchange.authenticator.state := by
  unfold respond
  split <;> rfl

/-- Nothing has happened to the name, and the authentication has not begun. -/
structure Quiet (before after : Exchange Library) : Prop where
  authorizationId : after.authenticator.authorizationId = before.authenticator.authorizationId
  username : after.authenticator.username = before.authenticator.username
  state : after.authenticator.state = .authentication →
    before.authenticator.state = .authentication
  name : nameObtained after.calls = nameObtained before.calls

theorem Quiet.trans {first second third : Exchange Library} (one : Quiet first second)
    (two : Quiet second third) : Quiet first third where
  authorizationId := two.authorizationId.trans one.authorizationId
  username := two.username.trans one.username
  state := one.state ∘ two.state
  name := two.name.trans one.name

theorem quiet_locked (function : Library → Output × Library) (record : Output → Call)
    (silent : ∀ answer, nameObtained [record answer] = none) :
    Quiet exchange (exchange.locked function record).2 where
  authorizationId := rfl
  username := rfl
  state := id
  name := by
    have added (answer : Output) (first second : Invocation) :
        nameObtained [.lock first, record answer, .unlock second] = none := by
      rw [show [Call.lock first, record answer, .unlock second] =
        [.lock first] ++ [record answer] ++ [.unlock second] from rfl,
        nameObtained_append, nameObtained_append, silent]
      rfl
    simp only [locked, nameObtained_append, added, Option.none_or]

theorem quiet_fail (message : String) (answer : Answer Output) :
    Quiet exchange (exchange.fail gssapi message answer).2 :=
  ⟨rfl, rfl, id, rfl⟩

theorem quiet_respond (token : List UInt8) : Quiet exchange (exchange.respond token) := by
  unfold respond
  split <;> exact ⟨rfl, rfl, id, rfl⟩

theorem quiet_sendReply (input : List UInt8) :
    Quiet exchange (exchange.sendReply gssapi input).2 := by
  have wrapped : Quiet exchange (exchange.locked (gssapi.wrap input) (.wrap input)).2 :=
    quiet_locked _ _ fun _ => rfl
  unfold sendReply
  dsimp only
  split
  · exact wrapped.trans (quiet_fail _ _)
  · exact (wrapped.trans (quiet_respond _)).trans ⟨rfl, rfl, nofun, rfl⟩

theorem quiet_reply (qop high middle low : UInt8) :
    Quiet exchange (exchange.reply gssapi qop high middle low).2 :=
  (quiet_locked _ _ fun _ => rfl).trans (quiet_sendReply _)

theorem quiet_authenticate (token : List UInt8) :
    Quiet exchange (exchange.authenticate gssapi token).2 := by
  have unwrapped : Quiet exchange
      (exchange.locked (gssapi.unwrap token) (.unwrap token)).2 := quiet_locked _ _ fun _ => rfl
  unfold authenticate
  dsimp only
  split
  · exact unwrapped.trans (quiet_fail _ _)
  · split
    · exact unwrapped.trans (quiet_reply _ _ _ _)
    · exact unwrapped

/-- The authorization id is the configured one, and once the authentication has begun the user name
is the one obtained. -/
structure Tracked (authorizationId : List UInt8) (exchange : Exchange Library) : Prop where
  authorizationId : exchange.authenticator.authorizationId = authorizationId
  username : exchange.authenticator.state = .authentication →
    nameObtained exchange.calls = some exchange.authenticator.username

variable {authorizationId : List UInt8}

theorem Tracked.quiet {before after : Exchange Library} (tracked : Tracked authorizationId before)
    (quiet : Quiet before after) :
    Tracked authorizationId after where
  authorizationId := quiet.authorizationId.trans tracked.authorizationId
  username began := by
    rw [quiet.name, quiet.username]
    exact tracked.username (quiet.state began)

/-- A name that is displayed without error is the one obtained. -/
theorem nameObtained_displayed {before : List Call} {answer : Answer (List UInt8)}
    {first second : Invocation} (displayed : ¬ gssError answer.majStat) :
    nameObtained (before ++ [.lock first, .displayName answer, .unlock second]) =
      some answer.output := by
  rw [nameObtained_append]
  simp [nameObtained, displayed]

theorem Tracked.identify (tracked : Tracked authorizationId exchange)
    (began : exchange.authenticator.state = .negotiation) :
    Tracked authorizationId (exchange.identify gssapi).2 := by
  have inquired := tracked.quiet (quiet_locked gssapi.inquireContext .inquireContext fun _ => rfl)
  unfold Exchange.identify
  dsimp only
  split
  · exact inquired.quiet (quiet_fail _ _)
  · split
    next failed =>
      refine ⟨tracked.authorizationId, fun begun => ?_⟩
      exact nomatch began.symm.trans begun
    next displayed => exact ⟨tracked.authorizationId, fun _ => nameObtained_displayed displayed⟩

theorem Tracked.negotiate (tracked : Tracked authorizationId exchange)
    (began : exchange.authenticator.state = .negotiation) (token : List UInt8) :
    Tracked authorizationId (exchange.negotiate gssapi token).2 := by
  have answered : Quiet exchange
      (exchange.locked (gssapi.initSecContext token) (.initSecContext token)).2 :=
    quiet_locked _ _ fun _ => rfl
  unfold Exchange.negotiate
  dsimp only
  split
  · exact tracked.quiet (answered.trans (quiet_fail _ _))
  · have responded := tracked.quiet (answered.trans (quiet_respond
      (exchange.locked (gssapi.initSecContext token) (.initSecContext token)).1.output))
    split
    · exact responded.identify (by simp [began])
    · exact responded

theorem Tracked.process (tracked : Tracked authorizationId exchange) (token : List UInt8) :
    Tracked authorizationId (exchange.process gssapi token).2 := by
  have cleared : Tracked authorizationId
      { exchange with authenticator := { exchange.authenticator with response := [] } } :=
    ⟨tracked.authorizationId, tracked.username⟩
  unfold Exchange.process
  dsimp only
  split
  next began => exact cleared.negotiate began token
  next => exact cleared.quiet (quiet_authenticate token)
  next => exact cleared

theorem tracked_processed (gssapi : Gssapi Library) (authorizationId : List UInt8)
    (library : Library) (locks : Locks) (tokens : List (List UInt8)) :
    Tracked authorizationId (processed gssapi authorizationId library locks tokens) := by
  have start : Tracked authorizationId
      ({ authenticator := .new authorizationId, library, locks, calls := [] } :
        Exchange Library) := ⟨rfl, nofun⟩
  unfold processed
  generalize ({ authenticator := .new authorizationId, library, locks, calls := [] } :
    Exchange Library) = exchange at start
  induction tokens generalizing exchange with
  | nil => exact start
  | cons token tokens ih => exact ih _ (start.process token)

/-- Once the authentication has begun, the user name is the one that was displayed last. -/
theorem username_processed (gssapi : Gssapi Library) (authorizationId : List UInt8)
    (library : Library) (locks : Locks) (tokens : List (List UInt8)) :
    let exchange := processed gssapi authorizationId library locks tokens
    exchange.authenticator.state ≠ .authentication ∨
      nameObtained exchange.calls = some exchange.authenticator.username :=
  or_iff_not_imp_left.mpr fun began => (tracked_processed ..).username (not_not.mp began)

/-! ## The reply -/

theorem calls_sendReply (input : List UInt8) :
    (exchange.sendReply gssapi input).2.calls =
      exchange.calls ++
        [.lock exchange.locks.lock, .wrap input (gssapi.wrap input exchange.library).1,
          .unlock exchange.locks.unlock] := by
  unfold sendReply
  dsimp only
  split
  · rfl
  · simp [locked]

/-- A reply asks for the limit and wraps: everything but the layer is as it should be. -/
theorem reply_wraps {username : Option (List UInt8)}
    (qop high middle low : UInt8)
    (identity : (if authorizationId = [] then username else some authorizationId) =
      some exchange.authenticator.identity) :
    ∃ added size id limit,
      (exchange.reply gssapi qop high middle low).2.calls = exchange.calls ++ added ∧
        Wraps authorizationId username high middle low added (chooseQop qop) size id limit := by
  let reqOutputSize := readOutputSize high middle low
  let limit := (gssapi.wrapSizeLimit reqOutputSize exchange.library).1.output
  let replySize := if limit < reqOutputSize then limit else reqOutputSize
  obtain ⟨withinOffer, withinLimit⟩ := replySize_le high middle low limit
  unfold reply
  dsimp only
  rw [calls_sendReply, replyHeader_eq]
  refine ⟨_, toBytes .big 3 replySize.toNat, exchange.authenticator.identity, limit,
    append_assoc _ _ _, ?_⟩
  exact
    { wrapped := rfl
      reported := rfl
      sizeLength := toBytes_length _ _ _
      withinOffer
      withinLimit
      identity }

/-- `process` hands a challenge of four bytes to `reply`. -/
theorem process_eq_reply {token : List UInt8} {qop high middle low : UInt8}
    (challenge : exchange.IsChallenge gssapi token qop high middle low) :
    exchange.process gssapi token =
      (({ exchange with
          authenticator := { exchange.authenticator with response := [] } } :
            Exchange Library).locked
        (gssapi.unwrap token) (.unwrap token)).2.reply gssapi qop high middle low := by
  obtain ⟨began, unwrapped, output⟩ := challenge
  unfold process
  simp only [began]
  unfold authenticate
  simp only [locked, unwrapped, output]
  rfl

/-- What `process` does with a challenge: everything but the layer is as it should be. -/
theorem process_wraps {authorizationId token : List UInt8} {qop high middle low : UInt8}
    (tracked : Tracked authorizationId exchange)
    (challenge : exchange.IsChallenge gssapi token qop high middle low) :
    ∃ added size id limit, (exchange.process gssapi token).2.calls = exchange.calls ++ added ∧
      Wraps authorizationId (nameObtained exchange.calls) high middle low added (chooseQop qop)
        size id limit := by
  have identity : (if authorizationId = [] then nameObtained exchange.calls
      else some authorizationId) = some exchange.authenticator.identity := by
    rw [← tracked.authorizationId, tracked.username challenge.1, GssapiAuthenticator.identity]
    cases exchange.authenticator.authorizationId <;> rfl
  rw [process_eq_reply challenge]
  obtain ⟨added, size, id, limit, calls, wraps⟩ := @reply_wraps Library gssapi
    (({ exchange with
      authenticator := { exchange.authenticator with response := [] } } :
        Exchange Library).locked (gssapi.unwrap token) (.unwrap token)).2
    authorizationId (nameObtained exchange.calls) qop high middle low identity
  refine ⟨_, size, id, limit, calls.trans (append_assoc _ _ _), ?_⟩
  exact { wraps with }

/-- In a good reply, what `chooseQop` chooses is a layer that is offered. -/
theorem RepliesWell.chosen {authorizationId token : List UInt8} {qop high middle low : UInt8}
    (well : exchange.RepliesWell gssapi authorizationId token)
    (tracked : Tracked authorizationId exchange)
    (challenge : exchange.IsChallenge gssapi token qop high middle low)
    (offers : ∃ layer : SecurityLayer, layer.OfferedBy qop) :
    ∃ layer : SecurityLayer, layer.OfferedBy qop ∧ chooseQop qop = layer.bit := by
  obtain ⟨added, size, id, limit, layer, calls, offered, wraps⟩ :=
    well qop high middle low challenge offers
  obtain ⟨sent, sentSize, sentId, sentLimit, sentCalls, sentWraps⟩ :=
    process_wraps tracked challenge
  -- The calls are the same, and so is the byte in front of what is wrapped.
  obtain rfl : added = sent := append_cancel_left (calls.symm.trans sentCalls)
  have same := (List.cons.inj (sentWraps.wrapped.symm.trans wraps.wrapped)).1
  exact ⟨layer, offered, (List.cons.inj same).1⟩

/-- In every state that an authenticator can reach, the reply to the next token is as RFC 4752 asks
for iff this is not a challenge that offers a security layer. -/
theorem processed_repliesWell_iff (gssapi : Gssapi Library) (authorizationId : List UInt8)
    (library : Library) (locks : Locks) (tokens : List (List UInt8)) (token : List UInt8) :
    (processed gssapi authorizationId library locks tokens).RepliesWell gssapi authorizationId
        token ↔
      (processed gssapi authorizationId library locks tokens).OffersNoLayer gssapi token := by
  have tracked := tracked_processed gssapi authorizationId library locks tokens
  constructor
  · intro well qop high middle low challenge layer offered
    obtain ⟨chosen, chosenOffered, same⟩ := well.chosen tracked challenge ⟨layer, offered⟩
    exact chooseQop_ne_bit chosenOffered same
  · intro none qop high middle low challenge ⟨layer, offered⟩
    exact absurd offered (none qop high middle low challenge layer)

end Exchange

/-! ## An exchange -/

/-- A library that establishes a context at once for the user `"u"`, and in which a challenge is the
token itself. -/
def plainLibrary : Gssapi Unit where
  initSecContext _ _ := (⟨0, 0, []⟩, ())
  inquireContext _ := (⟨0, 0, ()⟩, ())
  displayName _ := (⟨0, 0, [117]⟩, ())
  unwrap token _ := (⟨0, 0, token⟩, ())
  wrapSizeLimit size _ := (⟨0, 0, size⟩, ())
  wrap input _ := (⟨0, 0, input⟩, ())
  displayStatus _ _ := ""

/-- To a challenge that offers all three layers the reply is three, which is no layer. -/
theorem allLayers_misanswered :
    ¬ (Exchange.processed plainLibrary [] () .initial [[]]).RepliesWell plainLibrary []
      [7, 0, 16, 0] := by
  intro well
  obtain ⟨layer, -, chosen⟩ := well.chosen
    (Exchange.tracked_processed plainLibrary [] () .initial [[]])
    (⟨by decide, by decide, by decide⟩ : Exchange.IsChallenge _ _ _ 7 0 16 0)
    ⟨.confidentiality, by decide⟩
  cases layer <;> exact absurd chosen (by decide)

end DseDriver.Auth
