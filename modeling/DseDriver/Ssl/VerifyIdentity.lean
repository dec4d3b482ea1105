import DseDriver.Lib.Search

/-!
# Matching a peer certificate against a host

`OpenSslVerifyIdentity` decides whether the certificate of a peer names the host the
driver connected to: by its address (`match`) or by its hostname (`match_dns`).  Both
look at the SubjectAltName extension and fall back to the commonName entries of the
subject when the certificate has no such extension.

A certificate is what OpenSSL's accessors give of it.  The hostname check is a
parameter.
-/

namespace DseDriver.Ssl

open Lib List

/-- The part of a buffer a C string function reads: everything before the first NUL. -/
def cString (bytes : List UInt8) : List UInt8 :=
  bytes.takeWhile (· ≠ 0)

theorem cString_eq_self {bytes : List UInt8} (clean : 0 ∉ bytes) : cString bytes = bytes := by
  have nonzero : ∀ byte ∈ bytes, decide (byte ≠ 0) = true := by
    intro byte present
    exact decide_eq_true fun zero => clean (zero ▸ present)
  have all : (bytes ++ []).takeWhile (fun byte => decide (byte ≠ 0)) = bytes ++ [] :=
    takeWhile_append_of_pos nonzero
  simpa [cString] using all

/-- `OpenSslVerifyIdentity::Result`. -/
inductive MatchResult where
  | invalidCert
  | matched
  | noMatch
  | noSanPresent
  deriving DecidableEq, Repr

/-- A name of the SubjectAltName extension; the data is absent for a NULL pointer. -/
inductive GeneralName where
  | ipAddress (data : Option (List UInt8))
  | dnsName (data : Option (List UInt8))
  | other
  deriving DecidableEq, Repr

/-- One entry of the subject's name. -/
structure NameEntry where
  isCommonName : Bool
  data : Option (List UInt8)
  deriving DecidableEq, Repr

/-- What the accessors of OpenSSL return for a certificate: its subject's entries and
the names of its SubjectAltName extension, if it has one. -/
structure Certificate where
  subjectName : Option (List NameEntry)
  subjectAltNames : Option (List GeneralName)
  deriving DecidableEq, Repr

/-- An address, with its bytes in network order. -/
inductive Address where
  | inet (bytes : List UInt8) (size : bytes.length = 4)
  | inet6 (bytes : List UInt8) (size : bytes.length = 16)
  | unspecified
  deriving DecidableEq, Repr

/-- `Address::to_inet`: the bytes written to the caller's buffer. -/
def Address.toInet : Address → List UInt8
  | inet bytes _ => bytes
  | inet6 bytes _ => bytes
  | unspecified => []

/-- The fields of a host the identity checks read. -/
structure Host where
  address : Address
  addressString : List UInt8
  hostname : List UInt8
  deriving DecidableEq, Repr

/-! ## Common names -/

/-- The loop of `match_common_name_ipaddr` and `match_common_name_dns`, which differ in
the test they make of an entry's text.  The search resumes behind the last index. -/
def matchCommonNameFrom (accepts : List UInt8 → Bool) (name : List NameEntry)
    (last : Int) : MatchResult :=
  let i := nextIndex NameEntry.isCommonName name last
  if _ : i > 0 then
    match name[i.toNat]? with
    | none => .invalidCert
    | some nameEntry =>
      match nameEntry.data with
      | none => .invalidCert
      | some str =>
        let commonName := cString str
        if commonName.length ≠ str.length then .invalidCert
        else if accepts commonName then .matched
        else matchCommonNameFrom accepts name i
  else .noMatch
termination_by (name.length - last).toNat
decreasing_by
  have found : 0 ≤ nextIndex NameEntry.isCommonName name last := by omega
  have ahead := (nextIndex_nonneg found).1
  have inside := nextIndex_lt_length found
  omega

/-- The common part of the two functions: a missing subject, then the loop. -/
def matchCommonName (accepts : List UInt8 → Bool) (cert : Certificate) : MatchResult :=
  match cert.subjectName with
  | none => .invalidCert
  | some name => matchCommonNameFrom accepts name (-1)

/-- `match_common_name_ipaddr`. -/
def matchCommonNameIpaddr (cert : Certificate) (address : List UInt8) : MatchResult :=
  matchCommonName (fun commonName => address == commonName) cert

/-- `match_common_name_dns`. -/
def matchCommonNameDns (hostcheck : List UInt8 → List UInt8 → Bool) (cert : Certificate)
    (hostname : List UInt8) : MatchResult :=
  matchCommonName (fun commonName => hostcheck commonName (cString hostname)) cert

/-! ## Subject alternative names -/

/-- The loop over the extension's names: it breaks at the first name with a verdict. -/
def searchAltNames (verdict : GeneralName → Option MatchResult)
    (names : List GeneralName) : MatchResult :=
  (names.findSome? verdict).getD .noMatch

/-- The common part of the two functions: a missing extension, then the loop. -/
def matchSubjectAltNames (verdict : GeneralName → Option MatchResult)
    (cert : Certificate) : MatchResult :=
  match cert.subjectAltNames with
  | none => .noSanPresent
  | some names => searchAltNames verdict names

/-- The body of the loop of `match_subject_alt_names_ipadd`. -/
def ipaddVerdict (address : List UInt8) : GeneralName → Option MatchResult
  | .ipAddress none => some .invalidCert
  | .ipAddress (some ip) =>
    if ip.length ≠ 4 ∧ ip.length ≠ 16 then some .invalidCert
    else if ip.length = address.length ∧ ip = address then some .matched
    else none
  | _ => none

/-- The body of the loop of `match_subject_alt_names_dns`. -/
def dnsVerdict (hostcheck : List UInt8 → List UInt8 → Bool) (hostname : List UInt8) :
    GeneralName → Option MatchResult
  | .dnsName none => some .invalidCert
  | .dnsName (some str) =>
    let commonName := cString str
    if commonName.length ≠ str.length then some .invalidCert
    else if hostcheck commonName (cString hostname) then some .matched
    else none
  | _ => none

/-- `match_subject_alt_names_ipadd`. -/
def matchSubjectAltNamesIpadd (cert : Certificate) (address : Address) : MatchResult :=
  -- An address of another family matches nothing, whatever the certificate holds.
  if address.toInet.length = 0 then .noMatch
  else matchSubjectAltNames (ipaddVerdict address.toInet) cert

/-- `match_subject_alt_names_dns`. -/
def matchSubjectAltNamesDns (hostcheck : List UInt8 → List UInt8 → Bool)
    (cert : Certificate) (hostname : List UInt8) : MatchResult :=
  matchSubjectAltNames (dnsVerdict hostcheck hostname) cert

/-- `OpenSslVerifyIdentity::match`. -/
def matchIp (cert : Certificate) (host : Host) : MatchResult :=
  let result := matchSubjectAltNamesIpadd cert host.address
  if result = .noSanPresent then matchCommonNameIpaddr cert host.addressString else result

/-- `OpenSslVerifyIdentity::match_dns`. -/
def matchDns (hostcheck : List UInt8 → List UInt8 → Bool) (cert : Certificate)
    (host : Host) : MatchResult :=
  let result := matchSubjectAltNamesDns hostcheck cert host.hostname
  if result = .noSanPresent then matchCommonNameDns hostcheck cert host.hostname else result

/-! ## What a match means -/

/-- A name of the extension carries the data the accessors promise: an address of four
or sixteen bytes, a hostname without an embedded NUL. -/
def GeneralName.WellFormed : GeneralName → Prop
  | ipAddress data => ∃ ip, data = some ip ∧ (ip.length = 4 ∨ ip.length = 16)
  | dnsName data => ∃ str, data = some str ∧ 0 ∉ str
  | other => True

/-- A certificate with well-formed name entries. -/
structure Certificate.WellFormed (cert : Certificate) : Prop where
  subject : ∃ name, cert.subjectName = some name ∧
    ∀ nameEntry ∈ name, nameEntry.isCommonName = true →
      ∃ str, nameEntry.data = some str ∧ 0 ∉ str
  altNames : ∀ names, cert.subjectAltNames = some names →
    ∀ name ∈ names, name.WellFormed

/-- A host the driver can connect to: an address of one of the two families, and a
hostname that is a C string. -/
structure Host.Valid (host : Host) : Prop where
  address : host.address ≠ .unspecified
  hostname : 0 ∉ host.hostname

/-- Some commonName entry of the subject carries an accepted text. -/
def Certificate.HasCommonName (cert : Certificate) (accepts : List UInt8 → Prop) : Prop :=
  ∃ name, cert.subjectName = some name ∧
    ∃ nameEntry ∈ name, nameEntry.isCommonName = true ∧
      ∃ str, nameEntry.data = some str ∧ accepts str

/-- The certificate names a subject: through its extension if it has one, and otherwise
through a commonName entry. -/
def Certificate.Identifies (cert : Certificate) (altName : GeneralName → Prop)
    (accepts : List UInt8 → Prop) : Prop :=
  match cert.subjectAltNames with
  | some names => ∃ name ∈ names, altName name
  | none => cert.HasCommonName accepts

/-- The certificate names the host's address. -/
def Certificate.IdentifiesAddress (cert : Certificate) (host : Host) : Prop :=
  cert.Identifies (· = .ipAddress (some host.address.toInet)) (· = host.addressString)

/-- The certificate names the host's hostname. -/
def Certificate.IdentifiesHostname (hostcheck : List UInt8 → List UInt8 → Bool)
    (cert : Certificate) (host : Host) : Prop :=
  cert.Identifies
    (fun name => ∃ str, name = .dnsName (some str) ∧ hostcheck str host.hostname = true)
    (fun str => hostcheck str host.hostname = true)

/-- The subject's name starts with a commonName entry. -/
def Certificate.StartsWithCommonName (cert : Certificate) : Prop :=
  ∃ nameEntry rest, cert.subjectName = some (nameEntry :: rest) ∧
    nameEntry.isCommonName = true

/-! ## The search of the extension -/

/-- A verdict that decides well-formed names: it accepts exactly those of a kind. -/
def Decides (verdict : GeneralName → Option MatchResult) (altName : GeneralName → Prop) :
    Prop :=
  ∀ name, name.WellFormed → (verdict name = some .matched ∧ altName name) ∨
    (verdict name = none ∧ ¬ altName name)

theorem ipaddVerdict_decides (address : List UInt8) :
    Decides (ipaddVerdict address) (· = .ipAddress (some address)) := by
  intro name wellFormed
  cases name with
  | ipAddress data =>
    rcases wellFormed with ⟨ip, rfl, size⟩
    have sized : ¬ (ip.length ≠ 4 ∧ ip.length ≠ 16) := by omega
    by_cases same : ip = address
    · left
      subst same
      simp only [ipaddVerdict, sized, if_false, and_self, if_true]
    · right
      simp [ipaddVerdict, sized, same]
  | dnsName data => right; simp [ipaddVerdict]
  | other => right; simp [ipaddVerdict]

theorem dnsVerdict_decides (hostcheck : List UInt8 → List UInt8 → Bool)
    {hostname : List UInt8} (clean : 0 ∉ hostname) :
    Decides (dnsVerdict hostcheck hostname)
      (fun name => ∃ str, name = .dnsName (some str) ∧ hostcheck str hostname = true) := by
  intro name wellFormed
  cases name with
  | dnsName data =>
    rcases wellFormed with ⟨str, rfl, cleanName⟩
    by_cases passes : hostcheck str hostname = true
    · left
      simp [dnsVerdict, cString_eq_self clean, cString_eq_self cleanName, passes]
    · right
      simp [dnsVerdict, cString_eq_self clean, cString_eq_self cleanName, passes]
  | ipAddress data => right; simp [dnsVerdict]
  | other => right; simp [dnsVerdict]

/-- The loop over well-formed names matches iff one of them is of the kind sought. -/
theorem searchAltNames_of_decides {verdict : GeneralName → Option MatchResult}
    {altName : GeneralName → Prop} (decides : Decides verdict altName)
    {names : List GeneralName} (wellFormed : ∀ name ∈ names, name.WellFormed) :
    (searchAltNames verdict names = .matched ∧ ∃ name ∈ names, altName name) ∨
      (searchAltNames verdict names = .noMatch ∧ ¬ ∃ name ∈ names, altName name) := by
  induction names with
  | nil => right; simp [searchAltNames]
  | cons head tail ih =>
    have rest := ih fun name member => wellFormed name (mem_cons_of_mem _ member)
    rcases decides head (wellFormed head (mem_cons_self)) with accepted | skipped
    · left
      refine ⟨?_, head, mem_cons_self, accepted.2⟩
      simp [searchAltNames, accepted.1]
    · have same : searchAltNames verdict (head :: tail) =
          searchAltNames verdict tail := by
        simp [searchAltNames, skipped.1]
      rw [same]
      simpa [skipped.2] using rest

/-! ## The search of the subject -/

theorem nextIndex_ne_zero {name : List NameEntry} {last : Int} (started : 0 ≤ last) :
    nextIndex NameEntry.isCommonName name last ≠ 0 := by
  intro zero
  have ahead := (nextIndex_nonneg (Int.le_of_eq zero.symm)).1
  omega

/-- The first search answers zero iff the subject starts with a commonName entry. -/
theorem nextIndex_eq_zero_iff {cert : Certificate} {name : List NameEntry}
    (subject : cert.subjectName = some name) :
    nextIndex NameEntry.isCommonName name (-1) = 0 ↔ cert.StartsWithCommonName := by
  constructor
  · intro zero
    rcases (nextIndex_nonneg (Int.le_of_eq zero.symm)).2.1 with ⟨nameEntry, present, common⟩
    rw [zero] at present
    cases name with
    | nil => simp at present
    | cons head rest =>
      have same : head = nameEntry := by simpa using present
      exact ⟨head, rest, subject, same ▸ common⟩
  · intro starts
    rcases starts with ⟨nameEntry, rest, shape, common⟩
    rw [subject] at shape
    cases shape
    simp [nextIndex, findIdx?_cons, common]

/-- Behind the last index some commonName entry carries an accepted text. -/
def AcceptedBehind (accepts : List UInt8 → Bool) (name : List NameEntry) (last : Int) :
    Prop :=
  ∃ (index : Nat) (nameEntry : NameEntry), last < index ∧ name[index]? = some nameEntry ∧
    nameEntry.isCommonName = true ∧ ∃ str, nameEntry.data = some str ∧ accepts str = true

/-- The loop from an index that does not lead to entry zero matches iff an accepted
commonName entry follows. -/
theorem matchCommonNameFrom_spec (accepts : List UInt8 → Bool) (name : List NameEntry)
    (wellFormed : ∀ nameEntry ∈ name, nameEntry.isCommonName = true →
      ∃ str, nameEntry.data = some str ∧ 0 ∉ str) (last : Int)
    (nonzero : nextIndex NameEntry.isCommonName name last ≠ 0) :
    matchCommonNameFrom accepts name last = .matched ↔ AcceptedBehind accepts name last := by
  induction measure : (name.length - last).toNat using Nat.strongRecOn
    generalizing last with
  | _ size ih =>
  rw [matchCommonNameFrom]
  simp only
  split
  case isFalse stopped =>
    -- The search is over: no commonName entry follows.
    have negative : nextIndex NameEntry.isCommonName name last < 0 := by omega
    constructor
    · intro impossible
      cases impossible
    · intro accepted
      rcases accepted with ⟨index, nameEntry, behind, present, common, _⟩
      rw [nextIndex_neg negative behind present] at common
      cases common
  case isTrue positive =>
    have found : 0 ≤ nextIndex NameEntry.isCommonName name last := Int.le_of_lt positive
    have inside := nextIndex_lt_length found
    rcases nextIndex_nonneg found with ⟨ahead, ⟨nameEntry, present, common⟩, between⟩
    rcases wellFormed nameEntry (mem_of_getElem? present) common with ⟨str, data, clean⟩
    simp only [present, data, cString_eq_self clean, ne_eq, not_true_eq_false, if_false]
    by_cases passes : accepts str = true
    · simp only [passes, if_true, true_iff]
      exact ⟨_, nameEntry, by omega, present, common, str, data, passes⟩
    · rw [if_neg passes, ih _ (by omega) _ (nextIndex_ne_zero found) rfl]
      constructor
      · intro accepted
        rcases accepted with ⟨index, other, behind, rest⟩
        exact ⟨index, other, by omega, rest⟩
      · intro accepted
        rcases accepted with ⟨index, other, behind, there, isCommon, text, holds, good⟩
        refine ⟨index, other, ?_, there, isCommon, text, holds, good⟩
        -- Nothing lies between the two indices, and the entry found was refused.
        rcases Int.lt_trichotomy index (nextIndex NameEntry.isCommonName name last) with
          less | equal | greater
        · rw [between index other behind less there] at isCommon
          cases isCommon
        · have same : index = (nextIndex NameEntry.isCommonName name last).toNat := by omega
          rw [same, present] at there
          cases there
          rw [data] at holds
          cases holds
          exact absurd good passes
        · exact greater

theorem acceptedBehind_iff {cert : Certificate} {name : List NameEntry}
    (subject : cert.subjectName = some name) (accepts : List UInt8 → Bool) :
    AcceptedBehind accepts name (-1) ↔ cert.HasCommonName (accepts · = true) := by
  constructor
  · intro accepted
    rcases accepted with ⟨index, nameEntry, _, present, rest⟩
    exact ⟨name, subject, nameEntry, mem_of_getElem? present, rest⟩
  · intro has
    rcases has with ⟨other, shape, nameEntry, member, rest⟩
    rw [subject] at shape
    cases shape
    rcases mem_iff_getElem?.mp member with ⟨index, present⟩
    exact ⟨index, nameEntry, by omega, present, rest⟩

/-- The fallback matches iff a commonName entry is accepted and the subject does not
start with a commonName entry: an index of zero ends the loop. -/
theorem matchCommonName_eq_matched_iff {cert : Certificate} (wellFormed : cert.WellFormed)
    (accepts : List UInt8 → Bool) :
    matchCommonName accepts cert = .matched ↔
      cert.HasCommonName (accepts · = true) ∧ ¬ cert.StartsWithCommonName := by
  rcases wellFormed.subject with ⟨name, subject, entries⟩
  simp only [matchCommonName, subject]
  by_cases starts : cert.StartsWithCommonName
  · have zero := (nextIndex_eq_zero_iff subject).mpr starts
    rw [matchCommonNameFrom]
    simp [zero, starts]
  · have nonzero := mt (nextIndex_eq_zero_iff subject).mp starts
    rw [matchCommonNameFrom_spec accepts name entries (-1) nonzero,
      acceptedBehind_iff subject]
    simp [starts]

/-! ## The two matches -/

section Matches

variable {cert : Certificate} {host : Host}

/-- The extension first and the subject when there is no extension. -/
theorem fallback_eq_matched_iff (wellFormed : cert.WellFormed)
    {verdict : GeneralName → Option MatchResult} {altName : GeneralName → Prop}
    (decides : Decides verdict altName) (accepts : List UInt8 → Bool) :
    (if matchSubjectAltNames verdict cert = .noSanPresent then matchCommonName accepts cert
      else matchSubjectAltNames verdict cert) = .matched ↔
    cert.Identifies altName (accepts · = true) ∧
      (cert.subjectAltNames = none → ¬ cert.StartsWithCommonName) := by
  rw [Certificate.Identifies, matchSubjectAltNames]
  cases extension : cert.subjectAltNames with
  | none => simp [matchCommonName_eq_matched_iff wellFormed]
  | some names =>
    rcases searchAltNames_of_decides decides (wellFormed.altNames _ extension) with
      matched | missed
    · simp only [matched.1, matched.2]
      simp
    · simp only [missed.1, missed.2]
      simp

/-- `match` on a well-formed certificate. -/
theorem matchIp_eq_matched_iff (wellFormed : cert.WellFormed) (valid : host.Valid) :
    matchIp cert host = .matched ↔ cert.IdentifiesAddress host ∧
      (cert.subjectAltNames = none → ¬ cert.StartsWithCommonName) := by
  have sized : host.address.toInet.length ≠ 0 := by
    cases shape : host.address with
    | inet bytes size => simp only [Address.toInet]; omega
    | inet6 bytes size => simp only [Address.toInet]; omega
    | unspecified => exact absurd shape valid.address
  have found := fallback_eq_matched_iff wellFormed
    (ipaddVerdict_decides host.address.toInet) (fun commonName => host.addressString == commonName)
  have same : (fun commonName => (host.addressString == commonName) = true) =
      (· = host.addressString) := by
    funext commonName
    exact propext (beq_iff_eq.trans eq_comm)
  rw [same] at found
  rw [matchIp, matchSubjectAltNamesIpadd, if_neg sized]
  exact found

/-- `match_dns` on a well-formed certificate. -/
theorem matchDns_eq_matched_iff (hostcheck : List UInt8 → List UInt8 → Bool)
    (wellFormed : cert.WellFormed) (valid : host.Valid) :
    matchDns hostcheck cert host = .matched ↔ cert.IdentifiesHostname hostcheck host ∧
      (cert.subjectAltNames = none → ¬ cert.StartsWithCommonName) := by
  have found := fallback_eq_matched_iff wellFormed
    (dnsVerdict_decides hostcheck valid.hostname)
    (fun commonName => hostcheck commonName host.hostname)
  simp only [matchDns, matchSubjectAltNamesDns, matchCommonNameDns,
    cString_eq_self valid.hostname]
  exact found

end Matches

/-- Both matches decide what they are for iff the certificate has a SubjectAltName
extension, or its subject does not start with a commonName entry, or no commonName entry
names the host anyway. -/
theorem identity_matched_iff (hostcheck : List UInt8 → List UInt8 → Bool)
    (cert : Certificate) (host : Host) (wellFormed : cert.WellFormed) (valid : host.Valid) :
    ((matchIp cert host = .matched ↔ cert.IdentifiesAddress host) ∧
      (matchDns hostcheck cert host = .matched ↔ cert.IdentifiesHostname hostcheck host)) ↔
    (cert.subjectAltNames ≠ none ∨ ¬ cert.StartsWithCommonName ∨
      (¬ cert.HasCommonName (· = host.addressString) ∧
        ¬ cert.HasCommonName (fun str => hostcheck str host.hostname = true))) := by
  rw [matchIp_eq_matched_iff wellFormed valid, matchDns_eq_matched_iff hostcheck wellFormed valid,
    Certificate.IdentifiesAddress, Certificate.IdentifiesHostname, Certificate.Identifies,
    Certificate.Identifies]
  cases cert.subjectAltNames with
  | some names => simp
  | none =>
    by_cases starts : cert.StartsWithCommonName
    · simp [starts]
    · simp [starts]

/-- A host at `10.0.0.1` called `a`. -/
def tenHost : Host where
  address := .inet [10, 0, 0, 1] rfl
  addressString := "10.0.0.1".toUTF8.data.toList
  hostname := "a".toUTF8.data.toList

/-- A certificate without the extension whose subject has these entries. -/
def subjectOnly (entries : List (Bool × String)) : Certificate where
  subjectName := some (entries.map fun entry => ⟨entry.1, some entry.2.toUTF8.data.toList⟩)
  subjectAltNames := none

theorem tenHost_valid : tenHost.Valid where
  address := by decide
  hostname := by decide

theorem subjectOnly_wellFormed (entries : List (Bool × String))
    (clean : ∀ entry ∈ entries, 0 ∉ entry.2.toUTF8.data.toList) :
    (subjectOnly entries).WellFormed where
  subject := by
    refine ⟨_, rfl, ?_⟩
    intro nameEntry member _
    rcases mem_map.mp member with ⟨entry, present, rfl⟩
    exact ⟨_, rfl, clean entry present⟩
  altNames := by
    intro names absent
    cases absent

theorem identity_matched_behind_organization :
    (matchIp (subjectOnly [(false, "Acme"), (true, "10.0.0.1")]) tenHost = .matched ↔
      (subjectOnly [(false, "Acme"), (true, "10.0.0.1")]).IdentifiesAddress tenHost) ∧
    (matchDns (· == ·) (subjectOnly [(false, "Acme"), (true, "10.0.0.1")]) tenHost = .matched ↔
      (subjectOnly [(false, "Acme"), (true, "10.0.0.1")]).IdentifiesHostname (· == ·) tenHost) := by
  refine (identity_matched_iff (· == ·) _ tenHost
    (subjectOnly_wellFormed _ (by decide)) tenHost_valid).mpr (.inr (.inl ?_))
  intro starts
  rcases starts with ⟨nameEntry, rest, shape, common⟩
  cases shape
  cases common

/-- The usual subject of one commonName entry names the host, and neither match sees it. -/
theorem matchIp_misses_first_commonName :
    (subjectOnly [(true, "10.0.0.1")]).WellFormed ∧ tenHost.Valid ∧
      (subjectOnly [(true, "10.0.0.1")]).IdentifiesAddress tenHost ∧
      matchIp (subjectOnly [(true, "10.0.0.1")]) tenHost ≠ .matched := by
  have wellFormed := subjectOnly_wellFormed [(true, "10.0.0.1")] (by decide)
  refine ⟨wellFormed, tenHost_valid, ?_, ?_⟩
  · exact ⟨_, rfl, _, mem_singleton_self _, rfl, _, rfl, rfl⟩
  · intro matched
    have behind := ((matchIp_eq_matched_iff wellFormed tenHost_valid).mp matched).2 rfl
    exact behind ⟨_, [], rfl, rfl⟩

end DseDriver.Ssl
