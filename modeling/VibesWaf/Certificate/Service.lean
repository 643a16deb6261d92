import VibesWaf.Acme.Requests
import VibesWaf.Certificate.Repository

/-!
# The certificate service

The operations of `CertificateService` that ask for certificates, one call of the repository or of
the queue at a time. `CertCall` says which call of an operation comes next, with the copy of the
record it holds; `CertCall.next` makes this call and says what follows. What acme.sh and the file
system answer is given with the step.

When a job is done, its callback reads the record of the domain and writes it back with the outcome,
in the goroutine of the worker. Records of what was done in `certificate_logs` are left out.
-/

namespace VibesWaf

/-! ### Operations in progress -/

/-- The callbacks that are passed to the queue; that of a wildcard has its base domain. -/
inductive CertCallback
  | afterIssue
  | afterRenew
  | afterWildcard (baseDomain : GoString)
  deriving DecidableEq

/-- The next call of an operation, with what it holds. -/
inductive CertCall
  | issueDomain (domain appID : GoString)
  | issueDomainCreate (domain appID : GoString)
  | issueDomainAsync (domain : GoString)
  | renewCertificate (domain : GoString)
  | renewAsync (domain : GoString) (cert : Certificate)
  | renewUpdate (cert : Certificate)
  | enableWildcard (domain method : GoString)
  | enableWildcardCreate (domain method : GoString)
  | enableWildcardUpdate (domain method : GoString) (cert : Certificate)
  | makePersistValue (domain : GoString) (cert : Certificate)
  | enableWildcardPersist (domain txtName : GoString) (cert : Certificate)
  | enableWildcardAsync (domain : GoString)
  | issueWildcardCert (domain : GoString)
  | issueWildcardUpdate (domain method : GoString) (cert : Certificate)
  | issueWildcardAsync (domain method : GoString)
  | disableWildcard (domain : GoString)
  | disableWildcardUpdate (cert : Certificate)
  deriving DecidableEq

/-- The operations, as they are called. -/
inductive CertRequest
  | issueDomain (domain appID : GoString)
  | renewCertificate (domain : GoString)
  | enableWildcard (domain method : GoString)
  | issueWildcardCert (domain : GoString)
  | disableWildcard (domain : GoString)

/-- The first call of an operation. -/
def CertRequest.start : CertRequest → CertCall
  | issueDomain domain appID => .issueDomain domain appID
  | renewCertificate domain => .renewCertificate domain
  | enableWildcard domain method => .enableWildcard domain method
  | issueWildcardCert domain => .issueWildcardCert domain
  | disableWildcard domain => .disableWildcard domain

/-- What the surroundings of a call answer: the time, whether a certificate is found among the
files, whether `CF_Token` and `CF_Email` are set, and what `MakePersistValue` returns. -/
structure CallEnv where
  now : ℤ
  found : Bool
  dnsConfigured : Bool
  persistValue : Except GoString (GoString × GoString)

/-- `WildcardSetupResponse`. -/
structure WildcardSetupResponse where
  domain : GoString
  txtName : GoString
  txtValue : GoString
  wildcardStatus : GoString

/-- What follows a call: another one, or the result of the operation. -/
inductive CallOutcome
  | go (c : CertCall)
  | done (result : Except GoString (Option WildcardSetupResponse))

/-- The database and the queue after a call, and what follows it. -/
structure CallResult where
  repo : CertificateTable
  acme : AcmeSystem CertCallback
  outcome : CallOutcome

/-- A letter or digit of ASCII. -/
def isAlnum (c : UInt8) : Bool :=
  isDigit c || isLetter c

/-- A label in `wildcardDomainRe`. -/
def isLabel (s : GoString) : Bool :=
  s.all (fun c => isAlnum c || c = 0x2D) && s.head?.any isAlnum && s.getLast?.any isAlnum

/-- `wildcardDomainRe` matches `"*."` and the domain. -/
def isWildcardBase (domain : GoString) : Bool :=
  let labels := split domain 0x2E
  (labels.length = 2 || labels.length = 3) && labels.all isLabel

/-- The domain of the wildcard record. -/
def wildcardDomain (domain : GoString) : GoString :=
  str "*." ++ domain

/-! ### The records that are written -/

/-- The record that `IssueDomain` creates. -/
def issuedRecord (domain appID : GoString) (now : ℤ) : Certificate where
  id := 0
  domain := domain
  appID := appID
  status := str "pending"
  issuer := []
  expiresAt := now
  autoRenew := true
  lastRenewAt := none
  lastRenewStatus := str "pending"
  wildcardEnabled := false
  wildcardStatus := []
  wildcardMethod := []
  persistTXTValue := []

/-- The record that `EnableWildcard` creates. -/
def wildcardRecord (domain method : GoString) (now : ℤ) : Certificate :=
  { issuedRecord (wildcardDomain domain) [] now with
    wildcardEnabled := true
    wildcardStatus := str "issuing"
    wildcardMethod := method }

/-! ### One call after the other -/

/-- The result of an operation that failed. -/
def CallOutcome.fail (message : GoString) : CallOutcome :=
  .done (.error message)

/-- An update, with what follows it. -/
def updateThen (repo : CertificateTable) (acme : AcmeSystem CertCallback) (cert : Certificate)
    (failed : GoString) (outcome : CallOutcome) : CallResult :=
  match repo.update cert with
  | none => ⟨repo, acme, .fail (failed ++ str "certificate not found")⟩
  | some repo => ⟨repo, acme, outcome⟩

/-- What follows when `EnableWildcard` has its record. -/
def enableWildcardGoOn (domain method : GoString) (cert : Certificate) : CallOutcome :=
  if method = str "persist" then .go (.makePersistValue domain cert)
  else .go (.enableWildcardAsync domain)

/-- The next call of an operation. The queue's calls return no error. -/
def CertCall.next (env : CallEnv) (repo : CertificateTable) (acme : AcmeSystem CertCallback) :
    CertCall → CallResult
  | issueDomain domain appID =>
    match repo.getByDomain domain with
    | some _ => ⟨repo, acme, .fail (str "certificate for " ++ domain ++ str " already exists")⟩
    | none =>
      if env.found then ⟨repo, acme, .done (.ok none)⟩
      else ⟨repo, acme, .go (.issueDomainCreate domain appID)⟩
  | issueDomainCreate domain appID =>
    let (_, repo) := repo.create (issuedRecord domain appID env.now)
    ⟨repo, acme, .go (.issueDomainAsync domain)⟩
  | issueDomainAsync domain =>
    ⟨repo, acme.call (.issueAsync domain (some .afterIssue) env.found), .done (.ok none)⟩
  | renewCertificate domain =>
    match repo.getByDomain domain with
    | none => ⟨repo, acme, .fail (str "certificate not found: certificate not found")⟩
    | some cert => ⟨repo, acme, .go (.renewAsync domain cert)⟩
  | renewAsync domain cert =>
    ⟨repo, acme.call (.renewAsync domain (some .afterRenew)), .go (.renewUpdate cert)⟩
  | renewUpdate cert =>
    updateThen repo acme
      { cert with lastRenewAt := some env.now, lastRenewStatus := str "pending" }
      (str "failed to update certificate: ") (.done (.ok none))
  | enableWildcard domain method =>
    let domain := trimPrefix domain (str "*.")
    if !isWildcardBase domain then
      ⟨repo, acme,
        .fail (str "invalid domain: only *.domain.com or *.sub.domain.com are supported")⟩
    else if method ≠ str "persist" ∧ method ≠ str "dns" then
      ⟨repo, acme, .fail (str "invalid method: must be 'persist' or 'dns'")⟩
    else if method = str "dns" ∧ !env.dnsConfigured then
      ⟨repo, acme, .fail
        (str "CF_Token and CF_Email must be configured in .env for DNS wildcard method")⟩
    else
      match repo.getByDomain (wildcardDomain domain) with
      | none => ⟨repo, acme, .go (.enableWildcardCreate domain method)⟩
      | some cert =>
        if cert.wildcardStatus = str "active" then
          ⟨repo, acme, .fail (str "wildcard certificate already active for " ++ domain)⟩
        else
          ⟨repo, acme, .go (.enableWildcardUpdate domain method
            { cert with
              wildcardEnabled := true
              wildcardStatus := str "issuing"
              wildcardMethod := method })⟩
  | enableWildcardCreate domain method =>
    let (cert, repo) := repo.create (wildcardRecord domain method env.now)
    ⟨repo, acme, enableWildcardGoOn domain method cert⟩
  | enableWildcardUpdate domain method cert =>
    updateThen repo acme cert (str "failed to update certificate: ")
      (enableWildcardGoOn domain method cert)
  | makePersistValue domain cert =>
    match env.persistValue with
    | .error e => ⟨repo, acme, .fail (str "failed to generate DNS persist value: " ++ e)⟩
    | .ok (txtName, txtValue) =>
      if txtName = [] ∨ txtValue = [] then
        ⟨repo, acme, .fail (str "failed to parse acme.sh output — TXT record not generated")⟩
      else
        ⟨repo, acme, .go (.enableWildcardPersist domain txtName
          { cert with wildcardStatus := str "txt_pending", persistTXTValue := txtValue })⟩
  | enableWildcardPersist domain txtName cert =>
    updateThen repo acme cert (str "failed to update certificate: ")
      (.done (.ok (some ⟨domain, txtName, cert.persistTXTValue, str "txt_pending"⟩)))
  | enableWildcardAsync domain =>
    ⟨repo, acme.call (.issueWildcardAsync domain (str "dns") (some (.afterWildcard domain))),
      .done (.ok none)⟩
  | issueWildcardCert domain =>
    let domain := trimPrefix domain (str "*.")
    match repo.getByDomain (wildcardDomain domain) with
    | none => ⟨repo, acme, .fail (str "wildcard certificate not found for " ++ domain)⟩
    | some cert =>
      if cert.wildcardStatus = str "active" then
        ⟨repo, acme, .fail (str "wildcard certificate already active for " ++ domain)⟩
      else if cert.wildcardStatus ≠ str "dns_verified" ∧ cert.wildcardStatus ≠ str "failed" then
        ⟨repo, acme, .fail (str "DNS record not verified yet for " ++ domain)⟩
      else
        let method := if cert.wildcardMethod = [] then str "persist" else cert.wildcardMethod
        ⟨repo, acme, .go (.issueWildcardUpdate domain method
          { cert with wildcardStatus := str "issuing" })⟩
  | issueWildcardUpdate domain method cert =>
    updateThen repo acme cert (str "failed to update certificate status: ")
      (.go (.issueWildcardAsync domain method))
  | issueWildcardAsync domain method =>
    ⟨repo, acme.call (.issueWildcardAsync domain method (some (.afterWildcard domain))),
      .done (.ok none)⟩
  | disableWildcard domain =>
    let domain := trimPrefix domain (str "*.")
    match repo.getByDomain (wildcardDomain domain) with
    | none => ⟨repo, acme, .fail (str "wildcard certificate not found for " ++ domain)⟩
    | some cert =>
      ⟨repo, acme, .go (.disableWildcardUpdate
        { cert with wildcardEnabled := false, wildcardStatus := str "none" })⟩
  | disableWildcardUpdate cert =>
    updateThen repo acme cert (str "failed to update certificate: ") (.done (.ok none))

/-- The calls that only read the table, and those they lead to. -/
inductive CertCall.ReadsInto (repo : CertificateTable) : CertCall → CertCall → Prop
  | issueDomain (domain appID : GoString) :
      ReadsInto repo (.issueDomain domain appID) (.issueDomainCreate domain appID)
  | renewCertificate {domain : GoString} {cert : Certificate}
      (h : repo.getByDomain domain = some cert) :
      ReadsInto repo (.renewCertificate domain) (.renewAsync domain cert)
  | enableWildcardCreate (domain method : GoString) :
      ReadsInto repo (.enableWildcard domain method)
        (.enableWildcardCreate (trimPrefix domain (str "*.")) method)
  | enableWildcardUpdate {domain method : GoString} {cert : Certificate}
      (h : repo.getByDomain (wildcardDomain (trimPrefix domain (str "*."))) = some cert) :
      ReadsInto repo (.enableWildcard domain method)
        (.enableWildcardUpdate (trimPrefix domain (str "*.")) method
          { cert with
            wildcardEnabled := true
            wildcardStatus := str "issuing"
            wildcardMethod := method })
  | issueWildcardCert {domain method : GoString} {cert : Certificate}
      (h : repo.getByDomain (wildcardDomain (trimPrefix domain (str "*."))) = some cert) :
      ReadsInto repo (.issueWildcardCert domain)
        (.issueWildcardUpdate (trimPrefix domain (str "*.")) method
          { cert with wildcardStatus := str "issuing" })
  | disableWildcard {domain : GoString} {cert : Certificate}
      (h : repo.getByDomain (wildcardDomain (trimPrefix domain (str "*."))) = some cert) :
      ReadsInto repo (.disableWildcard domain)
        (.disableWildcardUpdate
          { cert with wildcardEnabled := false, wildcardStatus := str "none" })

/-- The result of a call that has only read. -/
def CertCall.HasRead (repo : CertificateTable) (acme : AcmeSystem CertCallback) (c : CertCall)
    (result : CallResult) : Prop :=
  (∃ r, result = ⟨repo, acme, .done r⟩) ∨
    ∃ c', result = ⟨repo, acme, .go c'⟩ ∧ CertCall.ReadsInto repo c c'

/-- The calls that only read. -/
def CertCall.reads : CertCall → Bool
  | issueDomain _ _ | renewCertificate _ | enableWildcard _ _ | issueWildcardCert _
  | disableWildcard _ => true
  | _ => false

/-- **A call that only reads** ends its operation, or another call follows. -/
theorem CertCall.hasRead_next {c : CertCall} (h : c.reads = true) (env : CallEnv)
    (repo : CertificateTable) (acme : AcmeSystem CertCallback) :
    c.HasRead repo acme (c.next env repo acme) := by
  have done : ∀ {r}, c.HasRead repo acme ⟨repo, acme, .done r⟩ := .inl ⟨_, rfl⟩
  have go : ∀ {c'}, ReadsInto repo c c' → c.HasRead repo acme ⟨repo, acme, .go c'⟩ :=
    fun hinto => .inr ⟨_, rfl, hinto⟩
  cases c with
  | issueDomain domain appID =>
    rw [next]
    split
    · exact done
    split
    · exact done
    · exact go (.issueDomain domain appID)
  | renewCertificate domain =>
    rw [next]
    split
    · exact done
    · exact go (.renewCertificate ‹_›)
  | enableWildcard domain method =>
    rw [next]
    split
    · exact done
    split
    · exact done
    split
    · exact done
    split
    · exact go (.enableWildcardCreate domain method)
    split
    · exact done
    · exact go (.enableWildcardUpdate ‹_›)
  | issueWildcardCert domain =>
    rw [next]
    split
    · exact done
    split
    · exact done
    split
    · exact done
    · exact go (.issueWildcardCert ‹_›)
  | disableWildcard domain =>
    rw [next]
    split
    · exact done
    · exact go (.disableWildcard ‹_›)
  | issueDomainCreate | issueDomainAsync | renewAsync | renewUpdate | enableWildcardCreate
  | enableWildcardUpdate | makePersistValue | enableWildcardPersist | enableWildcardAsync
  | issueWildcardUpdate | issueWildcardAsync | disableWildcardUpdate => cases h

/-! ### The callbacks -/

/-- `determineStatus`; times are nanoseconds. -/
def determineStatus (expiresAt now : ℤ) : GoString :=
  let daysUntilExpiry := (expiresAt - now).tdiv (24 * 3600 * 1000000000)
  if daysUntilExpiry < 0 then str "expired"
  else if daysUntilExpiry < 30 then str "expiring_soon"
  else str "valid"

/-- What the surroundings of a job answer: the time, whether acme.sh succeeds, and what openssl says
of the certificate file, which may be without an expiry date that can be parsed. -/
structure JobEnv where
  now : ℤ
  succeeds : Bool
  file : Option (Option ℤ × GoString)

/-- The outcome of a job, in a record. -/
def outcomeText (ok : Bool) : GoString :=
  if ok then str "success" else str "failed"

/-- The domain of the record that a callback updates, when it is called for a domain. -/
def CertCallback.record (d : GoString) : CertCallback → GoString
  | afterIssue | afterRenew => d
  | afterWildcard baseDomain => wildcardDomain baseDomain

/-- The expiry and the issuer, read again from the files. -/
def reread (env : JobEnv) (cert : Certificate) : Certificate :=
  match env.file with
  | none => cert
  | some (expiry, issuer) =>
    { cert with expiresAt := expiry.getD cert.expiresAt, issuer := issuer }

/-- The record that `updateCertStatusAfterIssue` and `updateCertStatusAfterRenew` write back, or
`updateWildcardStatusAfterIssue`. -/
def CertCallback.update (env : JobEnv) (ok : Bool) (cert : Certificate) :
    CertCallback → Certificate
  | afterIssue | afterRenew =>
    let cert := reread env cert
    { cert with
      status := if ok then determineStatus cert.expiresAt env.now else str "failed"
      lastRenewStatus := outcomeText ok
      lastRenewAt := some env.now }
  | afterWildcard _ =>
    let cert := reread env cert
    { cert with
      wildcardStatus := if ok then str "active" else str "failed"
      status := if ok then determineStatus cert.expiresAt env.now else cert.status
      lastRenewStatus := outcomeText ok
      lastRenewAt := some env.now }

/-! ### The system -/

/-- Where the worker is with its job, when acme.sh is done: before the callback reads the record, or
before it writes it back. -/
inductive JobPhase
  | read (ok : Bool)
  | write (ok : Bool) (cert : Certificate)
  deriving DecidableEq

/-- The database, the queue with its worker, the operations in progress, and the outcomes of the
jobs that are finished, the last one first. -/
structure CertSystem where
  repo : CertificateTable
  acme : AcmeSystem CertCallback
  calls : List CertCall
  phase : Option JobPhase
  outcomes : List (GoString × Bool)

/-- A step: an operation is called, an operation makes its next call, or the worker goes on. -/
inductive CertStep
  | begin (r : CertRequest)
  | call (i : ℕ) (env : CallEnv)
  | worker (env : JobEnv)

namespace CertSystem

/-- A new service on a database. -/
def start (repo : CertificateTable) : CertSystem :=
  ⟨repo, newAcmeSystem, [], none, []⟩

/-- The job is finished. -/
def finish (s : CertSystem) (j : Job CertCallback) (ok : Bool) : CertSystem :=
  { s with acme := s.acme.worker 0, phase := none, outcomes := (j.domain, ok) :: s.outcomes }

/-- The next step of a worker at its job. -/
def execute (s : CertSystem) (env : JobEnv) (j : Job CertCallback) : CertSystem :=
  match s.phase with
  | none => { s with phase := some (.read env.succeeds) }
  | some (.read ok) =>
    match j.onComplete with
    | none => s.finish j ok
    | some onComplete =>
      match s.repo.getByDomain (onComplete.record j.domain) with
      | none => s.finish j ok
      | some cert => { s with phase := some (.write ok (onComplete.update env ok cert)) }
  | some (.write ok cert) =>
    { s with repo := (s.repo.update cert).getD s.repo }.finish j ok

/-- An operation has made a call: the next one is put in its place, or it returns. -/
def advance (s : CertSystem) (i : ℕ) (result : CallResult) : CertSystem :=
  { s with
    repo := result.repo
    acme := result.acme
    calls :=
      match result.outcome with
      | .go c => s.calls.set i c
      | .done _ => s.calls.eraseIdx i }

/-- A step. -/
def step (s : CertSystem) : CertStep → CertSystem
  | .begin r => { s with calls := s.calls ++ [r.start] }
  | .call i env =>
    match s.calls[i]? with
    | none => s
    | some c => s.advance i (c.next env s.repo s.acme)
  | .worker env =>
    match s.acme.workers.head? with
    | some (.executing j) => s.execute env j
    | _ => { s with acme := s.acme.worker 0 }

/-- A run. -/
def run (repo : CertificateTable) (steps : List CertStep) : CertSystem :=
  steps.foldl step (start repo)

/-- An operation is one that was there, or the one that has gone on. -/
theorem of_mem_calls_advance {s : CertSystem} {i : ℕ} {result : CallResult} {c' : CertCall}
    (hc' : c' ∈ (s.advance i result).calls) :
    c' ∈ s.calls ∨ result.outcome = .go c' := by
  rw [advance] at hc'
  cases hout : result.outcome with
  | go c =>
    rw [hout] at hc'
    rcases List.mem_or_eq_of_mem_set hc' with h | rfl
    · exact .inl h
    · exact .inr rfl
  | done r =>
    rw [hout] at hc'
    exact .inl (List.mem_of_mem_eraseIdx hc')

end CertSystem

end VibesWaf
