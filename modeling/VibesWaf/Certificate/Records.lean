import VibesWaf.Certificate.Service
import VibesWaf.Lib.Run

/-!
# What the records show

An operation writes "pending" or "issuing" into the record of a domain and asks for a job, whose
callback writes the outcome; each of them reads a whole record and writes it back. When nothing is
going on, no record should show that something is, and each should show how its last job ended.

`records_settled` is about the runs whose steps keep to `CertSystem.Meets`: no record is created
twice, no job is left out, acme.sh generates a value when it is asked for one, and nothing is
written back over what has changed since it was read. In these all records are as they should be.
-/

namespace VibesWaf

/-! ### What is still to come -/

/-- The job has the callback of a wildcard. -/
def Job.isWildcard (j : Job CertCallback) : Bool :=
  match j.onComplete with
  | some (.afterWildcard _) => true
  | _ => false

/-- The domain for which a job is going to be asked for. -/
def CertCall.requests : CertCall → Option GoString
  | issueDomainAsync domain => some domain
  | enableWildcardAsync domain | issueWildcardAsync domain _ => some (wildcardDomain domain)
  | _ => none

/-- The domain whose wildcard is going to be settled, or issued. -/
def CertCall.settles : CertCall → Option GoString
  | makePersistValue domain _ | enableWildcardPersist domain _ _ => some (wildcardDomain domain)
  | enableWildcardAsync domain | issueWildcardAsync domain _ => some (wildcardDomain domain)
  | _ => none

/-- acme.sh generates a value for the TXT record. -/
def CallEnv.generates (env : CallEnv) : Bool :=
  match env.persistValue with
  | .ok (txtName, txtValue) => txtName ≠ [] && txtValue ≠ []
  | .error _ => false

namespace CertSystem

/-- A job for the domain is not finished, or about to be asked for. -/
def Awaited (s : CertSystem) (domain : GoString) : Prop :=
  (∃ j ∈ s.acme.unfinished, j.domain = domain) ∨ ∃ c ∈ s.calls, c.requests = some domain

/-- A job for the wildcard is not finished, or it is about to be asked for or settled. -/
def AwaitedWildcard (s : CertSystem) (domain : GoString) : Prop :=
  (∃ j ∈ s.acme.unfinished, j.domain = domain ∧ j.isWildcard = true) ∨
    ∃ c ∈ s.calls, c.settles = some domain

instance (s : CertSystem) (domain : GoString) : Decidable (s.Awaited domain) :=
  inferInstanceAs (Decidable (_ ∨ _))

instance (s : CertSystem) (domain : GoString) : Decidable (s.AwaitedWildcard domain) :=
  inferInstanceAs (Decidable (_ ∨ _))

/-- How the last job for a domain ended. -/
def lastOutcome (s : CertSystem) (domain : GoString) : Option Bool :=
  (s.outcomes.find? (·.1 = domain)).map Prod.snd

/-! ### The steps that keep the records right -/

/-- The last status that is written back is the one of the record, or it will be overwritten. -/
def KeepsStatus (s : CertSystem) (cert : Certificate) : Prop :=
  s.Awaited cert.domain ∨
    ∀ c ∈ s.repo.rows, c.id = cert.id → c.lastRenewStatus = cert.lastRenewStatus

/-- What is written back does not say that the wildcard is being issued, or it is. -/
def KeepsWildcard (s : CertSystem) (cert : Certificate) : Prop :=
  cert.wildcardStatus = str "issuing" → s.AwaitedWildcard cert.domain

/-- What has to be met by the next call of an operation. -/
def CallMeets (s : CertSystem) (env : CallEnv) : CertCall → Prop
  -- a record is created for a domain that has none, and a job follows
  | .issueDomainCreate domain _ => ∀ c ∈ s.repo.rows, c.domain ≠ domain
  | .enableWildcardCreate domain method =>
    (∀ c ∈ s.repo.rows, c.domain ≠ wildcardDomain domain) ∧ method ≠ str "persist"
  -- the job is not left out because of a certificate
  | .issueDomainAsync _ => env.found = false
  -- a wildcard's job is not dropped for one with another callback
  | .enableWildcardAsync domain | .issueWildcardAsync domain _ =>
    ∀ j ∈ s.acme.service.queue, j.domain = wildcardDomain domain → j.isWildcard = true
  -- "pending" is written while the job is not finished
  | .renewUpdate cert => s.Awaited cert.domain ∧ s.KeepsWildcard cert
  -- nothing is written over what has changed
  | .enableWildcardUpdate _ method cert => method = str "persist" → s.KeepsStatus cert
  | .enableWildcardPersist _ _ cert | .disableWildcardUpdate cert => s.KeepsStatus cert
  -- acme.sh generates a value
  | .makePersistValue _ _ => env.generates = true
  | _ => True

/-- What has to be met by the worker, where it is: the callback of a plain certificate writes no old
wildcard status back. -/
def WorkerMeets (s : CertSystem) : JobPhase → AcmeWorker CertCallback → Prop
  | .write _ cert, .executing j => j.isWildcard = false → s.KeepsWildcard cert
  | _, _ => True

/-- What has to be met by a step. -/
def Meets (s : CertSystem) : CertStep → Prop
  | .begin _ => True
  | .call i env => ∀ c ∈ s.calls[i]?, s.CallMeets env c
  | .worker _ => ∀ p ∈ s.phase, ∀ w ∈ s.acme.workers.head?, s.WorkerMeets p w

instance (s : CertSystem) (cert : Certificate) : Decidable (s.KeepsStatus cert) :=
  inferInstanceAs (Decidable (_ ∨ _))

instance (s : CertSystem) (cert : Certificate) : Decidable (s.KeepsWildcard cert) :=
  inferInstanceAs (Decidable (_ → _))

instance (s : CertSystem) (env : CallEnv) (c : CertCall) : Decidable (s.CallMeets env c) := by
  cases c <;> dsimp only [CallMeets] <;> infer_instance

instance (s : CertSystem) (p : JobPhase) (w : AcmeWorker CertCallback) :
    Decidable (s.WorkerMeets p w) := by
  cases p <;> cases w <;> dsimp only [WorkerMeets] <;> infer_instance

instance (s : CertSystem) (t : CertStep) : Decidable (s.Meets t) := by
  cases t <;> dsimp only [Meets] <;> infer_instance

end CertSystem

/-! ### Operations and records -/

namespace CertificateTable

/-- The record is a copy of one in the table, of a domain. -/
def Has (t : CertificateTable) (domain : GoString) (cert : Certificate) : Prop :=
  cert.domain = domain ∧ ∃ c ∈ t.rows, c.id = cert.id ∧ c.domain = domain

/-- Every record of the first table is one of the second. -/
def Within (t t' : CertificateTable) : Prop :=
  ∀ c ∈ t.rows, ∃ c' ∈ t'.rows, c'.id = c.id ∧ c'.domain = c.domain

theorem Within.has {t t' : CertificateTable} (h : t.Within t') {domain : GoString}
    {cert : Certificate} (hhas : t.Has domain cert) : t'.Has domain cert := by
  obtain ⟨hdomain, c, hc, hid, hcdomain⟩ := hhas
  obtain ⟨c', hc', hid', hdomain'⟩ := h c hc
  exact ⟨hdomain, c', hc', hid'.trans hid, hdomain'.trans hcdomain⟩

/-- An update keeps the records. -/
theorem within_of_mem_update {t t' : CertificateTable} {cert old : Certificate}
    (hold : old ∈ t.rows) (hid : old.id = cert.id)
    (hmem : ∀ c, c ∈ t'.rows ↔ c = written cert old ∨ c ∈ t.rows ∧ c.id ≠ cert.id) :
    t.Within t' := by
  intro r hr
  by_cases hrid : r.id = cert.id
  · refine ⟨written cert old, (hmem _).mpr (.inl rfl), hid.trans hrid.symm, ?_⟩
    change old.domain = r.domain
    rw [t.eq_of_key_eq hold hr (hid.trans hrid.symm)]
  · exact ⟨r, (hmem r).mpr (.inr ⟨hr, hrid⟩), rfl, rfl⟩

end CertificateTable

/-- What an operation in progress holds: a copy of the record of its domain, with the wildcard
status it is going to write. -/
def CertCall.WellFormed (t : CertificateTable) : CertCall → Prop
  | issueDomainAsync domain => ∃ c ∈ t.rows, c.domain = domain
  | renewAsync domain cert => t.Has domain cert
  | renewUpdate cert => t.Has cert.domain cert
  | enableWildcardUpdate domain _ cert =>
    t.Has (wildcardDomain domain) cert ∧ cert.wildcardStatus = str "issuing"
  | makePersistValue domain cert => t.Has (wildcardDomain domain) cert
  | enableWildcardPersist domain _ cert =>
    t.Has (wildcardDomain domain) cert ∧ cert.wildcardStatus = str "txt_pending"
  | enableWildcardAsync domain | issueWildcardAsync domain _ =>
    ∃ c ∈ t.rows, c.domain = wildcardDomain domain
  | issueWildcardUpdate domain _ cert => t.Has (wildcardDomain domain) cert
  | disableWildcardUpdate cert => t.Has cert.domain cert ∧ cert.wildcardStatus = str "none"
  | _ => True

theorem CertCall.WellFormed.mono {t t' : CertificateTable} (h : t.Within t') {c : CertCall}
    (hc : c.WellFormed t) : c.WellFormed t' := by
  have hrow : ∀ domain, (∃ c ∈ t.rows, c.domain = domain) → ∃ c ∈ t'.rows, c.domain = domain := by
    rintro domain ⟨c, hmem, rfl⟩
    obtain ⟨c', hc', -, hdomain⟩ := h c hmem
    exact ⟨c', hc', hdomain⟩
  cases c with
  | issueDomainAsync | enableWildcardAsync | issueWildcardAsync => exact hrow _ hc
  | renewAsync | renewUpdate | makePersistValue | issueWildcardUpdate => exact h.has hc
  | enableWildcardUpdate | enableWildcardPersist | disableWildcardUpdate =>
    exact ⟨h.has hc.1, hc.2⟩
  | _ => trivial

namespace CertSystem

/-- What holds of a record: a job is awaited, or it shows how the last one ended; and a wildcard is
shown as being issued only while it is awaited. -/
structure Shows (s : CertSystem) (domain lastRenewStatus wildcardStatus : GoString) : Prop where
  renewal : s.Awaited domain ∨ lastRenewStatus ≠ str "pending" ∧
    ∀ ok, s.lastOutcome domain = some ok → lastRenewStatus = outcomeText ok
  wildcard : wildcardStatus = str "issuing" → s.AwaitedWildcard domain

/-- What holds of a job: its callback updates the record of its domain, and there is one. -/
structure GoodJob (t : CertificateTable) (j : Job CertCallback) : Prop where
  callback : ∃ onComplete, j.onComplete = some onComplete ∧ onComplete.record j.domain = j.domain
  row : ∃ c ∈ t.rows, c.domain = j.domain

/-- What holds of a callback that is in progress. -/
def GoodPhase (t : CertificateTable) (j : Job CertCallback) : JobPhase → Prop
  | .read _ => True
  | .write ok cert => t.Has j.domain cert ∧ cert.lastRenewStatus = outcomeText ok ∧
      (j.isWildcard = true → cert.wildcardStatus ≠ str "issuing")

/-- What holds in every state of a run that keeps the records right. -/
structure Sound (s : CertSystem) : Prop where
  acme : s.acme.Valid
  domains : (s.repo.rows.map Certificate.domain).Nodup
  jobs : ∀ j ∈ s.acme.unfinished, GoodJob s.repo j
  calls : ∀ c ∈ s.calls, c.WellFormed s.repo
  phase : ∀ p, s.phase = some p →
    ∃ j, s.acme.workers.head? = some (.executing j) ∧ GoodPhase s.repo j p
  rows : ∀ c ∈ s.repo.rows, s.Shows c.domain c.lastRenewStatus c.wildcardStatus

/-! ### A call of an operation -/

section Advance

variable {s : CertSystem} {i : ℕ} {c : CertCall} {result : CallResult} {domain : GoString}

/-- The other operations stay as they are. -/
private theorem mem_calls_advance (i : ℕ) (result : CallResult) {c' : CertCall}
    (hc' : c' ∈ s.calls) : c' ∈ (s.advance i result).calls ∨ s.calls[i]? = some c' := by
  obtain ⟨k, hk⟩ := List.mem_iff_getElem?.mp hc'
  by_cases hki : k = i
  · exact .inr (hki ▸ hk)
  · left
    rw [advance]
    cases result.outcome with
    | go c =>
      refine List.mem_iff_getElem?.mpr ⟨k, ?_⟩
      rw [List.getElem?_set_ne (Ne.symm hki)]
      exact hk
    | done r => exact List.mem_eraseIdx_iff_getElem?.mpr ⟨k, hki, hk⟩

/-- An operation that goes on is in progress. -/
private theorem mem_calls_of_go {c' : CertCall} (hi : s.calls[i]? = some c)
    (hgo : result.outcome = .go c') : c' ∈ (s.advance i result).calls := by
  rw [advance, hgo]
  obtain ⟨hlt, -⟩ := List.getElem?_eq_some_iff.mp hi
  exact List.mem_set hlt c'

/-- What is awaited stays so, if the call sees to what it was to bring about. -/
private theorem Awaited.advance (h : s.Awaited domain) (hi : s.calls[i]? = some c)
    (hjobs : s.acme.unfinished ⊆ result.acme.unfinished)
    (hown : c.requests = some domain → (s.advance i result).Awaited domain) :
    (s.advance i result).Awaited domain := by
  obtain ⟨j, hj, hdomain⟩ | ⟨c', hc', hrequests⟩ := h
  · exact .inl ⟨j, hjobs hj, hdomain⟩
  · obtain hmem | hsame := mem_calls_advance i result hc'
    · exact .inr ⟨c', hmem, hrequests⟩
    · obtain rfl := Option.some.inj (hi.symm.trans hsame)
      exact hown hrequests

private theorem AwaitedWildcard.advance (h : s.AwaitedWildcard domain) (hi : s.calls[i]? = some c)
    (hjobs : s.acme.unfinished ⊆ result.acme.unfinished)
    (hown : c.settles = some domain → (s.advance i result).AwaitedWildcard domain) :
    (s.advance i result).AwaitedWildcard domain := by
  obtain ⟨j, hj, hdomain⟩ | ⟨c', hc', hsettles⟩ := h
  · exact .inl ⟨j, hjobs hj, hdomain⟩
  · obtain hmem | hsame := mem_calls_advance i result hc'
    · exact .inr ⟨c', hmem, hsettles⟩
    · obtain rfl := Option.some.inj (hi.symm.trans hsame)
      exact hown hsettles

/-- What a record shows depends on what is awaited and how the last job ended. -/
private theorem Shows.mono {s' : CertSystem} {lastRenewStatus wildcardStatus : GoString}
    (h : s.Shows domain lastRenewStatus wildcardStatus)
    (hawaited : s.Awaited domain → s'.Awaited domain)
    (hwildcard : wildcardStatus = str "issuing" → s.AwaitedWildcard domain →
      s'.AwaitedWildcard domain)
    (houtcome : s'.lastOutcome domain = s.lastOutcome domain) :
    s'.Shows domain lastRenewStatus wildcardStatus := by
  refine ⟨h.renewal.imp hawaited fun hshows => ⟨hshows.1, ?_⟩, fun hissuing =>
    hwildcard hissuing (h.wildcard hissuing)⟩
  rw [houtcome]
  exact hshows.2

/-- What a call of the queue does: it keeps the jobs and the one that is executed. -/
structure QueueGrows (repo : CertificateTable) (acme acme' : AcmeSystem CertCallback) : Prop where
  valid : acme'.Valid
  jobs : acme.unfinished ⊆ acme'.unfinished
  good : ∀ j ∈ acme'.unfinished, j ∈ acme.unfinished ∨ GoodJob repo j
  head : ∀ w, acme.workers.head? = some w → acme'.workers.head? = some w

/-- **A call keeps the records right**, if it keeps the jobs and what it leaves of the records is
right, and if it sees to what it was to bring about. -/
private theorem Sound.advance (h : s.Sound) (hi : s.calls[i]? = some c)
    (hacme : QueueGrows result.repo s.acme result.acme) (hrepo : s.repo.Within result.repo)
    (hdomains : (result.repo.rows.map Certificate.domain).Nodup)
    (hgo : ∀ c', result.outcome = .go c' → c'.WellFormed result.repo)
    (hown : ∀ domain, c.requests = some domain → (s.advance i result).Awaited domain)
    (hrows : ∀ r ∈ result.repo.rows, (r ∈ s.repo.rows ∧
        (c.settles = some r.domain → r.wildcardStatus = str "issuing" →
          (s.advance i result).AwaitedWildcard r.domain)) ∨
      (s.advance i result).Shows r.domain r.lastRenewStatus r.wildcardStatus) :
    (s.advance i result).Sound := by
  refine ⟨hacme.valid, hdomains, fun j hj => ?_, fun c' hc' => ?_, fun p hp => ?_, fun r hr => ?_⟩
  · obtain hold | hgood := hacme.good j hj
    · obtain ⟨hcallback, r, hr, hdomain⟩ := h.jobs j hold
      obtain ⟨r', hr', -, hdomain'⟩ := hrepo r hr
      exact ⟨hcallback, r', hr', hdomain'.trans hdomain⟩
    · exact hgood
  · obtain hold | hout := of_mem_calls_advance hc'
    · exact (h.calls c' hold).mono hrepo
    · exact hgo c' hout
  · obtain ⟨j, hj, hphase⟩ := h.phase p hp
    refine ⟨j, hacme.head _ hj, ?_⟩
    cases p with
    | read ok => trivial
    | write ok cert => exact ⟨hrepo.has hphase.1, hphase.2⟩
  · obtain ⟨hold, hsettles⟩ | hshows := hrows r hr
    · exact (h.rows r hold).mono (fun hawaited => hawaited.advance hi hacme.jobs (hown _))
        (fun hissuing hawaited => hawaited.advance hi hacme.jobs fun hset =>
          hsettles hset hissuing) rfl
    · exact hshows

private theorem QueueGrows.refl (repo : CertificateTable) {acme : AcmeSystem CertCallback}
    (h : acme.Valid) : QueueGrows repo acme acme :=
  ⟨h, List.Subset.refl _, fun _ => .inl, fun _ => id⟩

private theorem QueueGrows.enqueue {repo : CertificateTable} {acme : AcmeSystem CertCallback}
    (h : acme.Valid) {j : Job CertCallback} (hj : GoodJob repo j) :
    QueueGrows repo acme (acme.enqueue j) := by
  refine ⟨h.step (.enqueue j), ?_, ?_, fun w hw => ?_⟩
  · obtain ⟨-, hsame⟩ | hsnoc := h.unfinished_enqueue j
    · rw [hsame]
      exact List.Subset.refl _
    · rw [hsnoc]
      exact List.subset_append_left _ _
  · obtain ⟨-, hsame⟩ | hsnoc := h.unfinished_enqueue j
    · exact fun j' hj' => .inl (hsame ▸ hj')
    · rw [hsnoc]
      exact forall_mem_snoc (fun _ => .inl) (.inr hj)
  · obtain ⟨-, hsame⟩ | ⟨-, hsnoc⟩ := acme.enqueue_cases j
    · rwa [hsame]
    · rw [hsnoc]
      dsimp only
      split
      · exact hw
      · rw [List.head?_append, hw]
        rfl

/-- A call that only reads keeps the records right. -/
private theorem Sound.read (h : s.Sound) (hi : s.calls[i]? = some c) {outcome : CallOutcome}
    (hrequests : c.requests = none) (hsettles : c.settles = none)
    (hgo : ∀ c', outcome = .go c' → c'.WellFormed s.repo) :
    (s.advance i ⟨s.repo, s.acme, outcome⟩).Sound := by
  refine h.advance hi (.refl _ h.acme) (fun r hr => ⟨r, hr, rfl, rfl⟩) h.domains hgo
    (fun domain hdomain => ?_) fun r hr => .inl ⟨hr, fun hset => ?_⟩
  · rw [hrequests] at hdomain
    cases hdomain
  · rw [hsettles] at hset
    cases hset

/-- A call that enqueues a job keeps the records right. -/
private theorem Sound.enqueue (h : s.Sound) (hi : s.calls[i]? = some c) {outcome : CallOutcome}
    {j : Job CertCallback} (hj : GoodJob s.repo j)
    (hrequests : ∀ domain, c.requests = some domain → j.domain = domain)
    (hsettles : ∀ domain, c.settles = some domain → j.domain = domain ∧ j.isWildcard = true ∧
      ∀ j' ∈ s.acme.service.queue, j'.domain = domain → j'.isWildcard = true)
    (hgo : ∀ c', outcome = .go c' → c'.WellFormed s.repo) :
    (s.advance i ⟨s.repo, s.acme.enqueue j, outcome⟩).Sound := by
  -- the job, or the one for which it is dropped
  have hsome : ∃ j' ∈ (s.acme.enqueue j).unfinished, j'.domain = j.domain ∧
      (j' = j ∨ j' ∈ s.acme.service.queue) := by
    obtain ⟨⟨j', hj', hdomain⟩, hsame⟩ | hsnoc := h.acme.unfinished_enqueue j
    · exact ⟨j', hsame ▸ List.mem_append_right _ hj', hdomain, .inr hj'⟩
    · exact ⟨j, hsnoc ▸ List.mem_append_right _ (List.mem_singleton_self j), rfl, .inl rfl⟩
  obtain ⟨j', hj', hdomain', hwhich⟩ := hsome
  refine h.advance hi (.enqueue h.acme hj) (fun r hr => ⟨r, hr, rfl, rfl⟩) h.domains hgo
    (fun domain hdomain => .inl ⟨j', hj', hdomain'.trans (hrequests domain hdomain)⟩)
    fun r hr => .inl ⟨hr, fun hset _ => .inl ⟨j', hj', ?_⟩⟩
  obtain ⟨hdomain, hwildcard, hqueue⟩ := hsettles r.domain hset
  refine ⟨hdomain'.trans hdomain, ?_⟩
  obtain rfl | hmem := hwhich
  · exact hwildcard
  · exact hqueue j' hmem (hdomain'.trans hdomain)

/-- Records of the same domain are the same. -/
private theorem Sound.eq_of_domain (h : s.Sound) {r r' : Certificate} (hr : r ∈ s.repo.rows)
    (hr' : r' ∈ s.repo.rows) (hdomain : r.domain = r'.domain) : r = r' :=
  List.inj_on_of_nodup_map h.domains hr hr' hdomain

/-- A call that writes a record back keeps the records right, if that one is. -/
private theorem Sound.update (h : s.Sound) (hi : s.calls[i]? = some c) {outcome : CallOutcome}
    {failed : GoString} {cert : Certificate} (hhas : s.repo.Has domain cert)
    (hrequests : c.requests = none) (hsettles : ∀ d, c.settles = some d → d = domain)
    (hgo : ∀ repo c', s.repo.Within repo → outcome = .go c' → c'.WellFormed repo)
    (hshows : ∀ repo, (s.advance i ⟨repo, s.acme, outcome⟩).Shows domain cert.lastRenewStatus
      cert.wildcardStatus) :
    (s.advance i (updateThen s.repo s.acme cert failed outcome)).Sound := by
  obtain ⟨-, old, hold, hid, hdomain⟩ := hhas
  obtain ⟨repo, hupdate, hmem⟩ := CertificateTable.exists_update hold hid
  have hwithin := CertificateTable.within_of_mem_update hold hid hmem
  rw [updateThen, hupdate]
  refine h.advance hi (.refl _ h.acme) hwithin ?_ (fun c' => hgo repo c' hwithin)
    (fun d hd => ?_) fun r hr => ?_
  · rw [CertificateTable.domains_update hupdate]
    exact h.domains
  · rw [hrequests] at hd
    cases hd
  · obtain rfl | ⟨hr, hne⟩ := (hmem r).mp hr
    · refine .inr ?_
      change Shows _ old.domain cert.lastRenewStatus cert.wildcardStatus
      rw [hdomain]
      exact hshows repo
    · refine .inl ⟨hr, fun hset => absurd ?_ hne⟩
      rw [h.eq_of_domain hr hold ((hsettles _ hset).trans hdomain.symm)]
      exact hid

/-- A call that creates a record keeps the records right, if a job for it is asked for. -/
private theorem Sound.create (h : s.Sound) (hi : s.calls[i]? = some c) {c' : CertCall}
    {cert : Certificate} (hfree : ∀ r ∈ s.repo.rows, r.domain ≠ cert.domain)
    (hrequests : c.requests = none) (hsettles : c.settles = none)
    (hgo : c'.WellFormed (s.repo.create cert).2) (hrequests' : c'.requests = some cert.domain)
    (hsettles' : cert.wildcardStatus = str "issuing" → c'.settles = some cert.domain) :
    (s.advance i ⟨(s.repo.create cert).2, s.acme, .go c'⟩).Sound := by
  have hmem : c' ∈ (s.advance i ⟨(s.repo.create cert).2, s.acme, .go c'⟩).calls :=
    mem_calls_of_go hi rfl
  refine h.advance hi (.refl _ h.acme)
    (fun r hr => ⟨r, CertificateTable.mem_create.mpr (.inr hr), rfl, rfl⟩) ?_ ?_
    (fun d hd => ?_) fun r hr => ?_
  · refine List.nodup_cons.mpr ⟨fun hdup => ?_, h.domains⟩
    obtain ⟨r, hr, hdomain⟩ := List.mem_map.mp hdup
    exact hfree r hr hdomain
  · rintro c'' hc''
    injection hc'' with hc''
    exact hc'' ▸ hgo
  · rw [hrequests] at hd
    cases hd
  · obtain rfl | hr := CertificateTable.mem_create.mp hr
    · exact .inr ⟨.inl (.inr ⟨c', hmem, hrequests'⟩), fun hissuing =>
        .inr ⟨c', hmem, hsettles' hissuing⟩⟩
    · refine .inl ⟨hr, fun hset => ?_⟩
      rw [hsettles] at hset
      cases hset

end Advance

/-! ### The calls -/

section Calls

variable {s : CertSystem} {i : ℕ} {env : CallEnv}

/-- A record that is found is one of its domain. -/
private theorem has_of_getByDomain {t : CertificateTable} {domain : GoString} {cert : Certificate}
    (h : t.getByDomain domain = some cert) : t.Has domain cert := by
  obtain ⟨hmem, hdomain⟩ := CertificateTable.of_getByDomain h
  exact ⟨hdomain, cert, hmem, rfl, hdomain⟩

private theorem exists_of_generates {env : CallEnv} (h : env.generates = true) :
    ∃ txtName txtValue, env.persistValue = .ok (txtName, txtValue) ∧ txtName ≠ [] ∧
      txtValue ≠ [] := by
  rw [CallEnv.generates] at h
  split at h
  · rename_i txtName txtValue hvalue
    exact ⟨txtName, txtValue, hvalue, by simpa using h⟩
  · cases h

/-- The result of an operation is not another call. -/
private theorem not_go {r : Except GoString (Option WildcardSetupResponse)} {c' : CertCall}
    {P : Prop} (h : CallOutcome.done r = .go c') : P := by
  cases h

/-- What is written back shows what it should, if a job is awaited, or it keeps the last status. -/
private theorem KeepsStatus.shows (h : s.Sound) {c : CertCall} {domain : GoString}
    {cert : Certificate} {outcome : CallOutcome} (hi : s.calls[i]? = some c)
    (hhas : s.repo.Has domain cert) (hkeeps : s.KeepsStatus cert) (hrequests : c.requests = none)
    (repo : CertificateTable)
    (hwildcard : cert.wildcardStatus = str "issuing" →
      (s.advance i ⟨repo, s.acme, outcome⟩).AwaitedWildcard domain) :
    (s.advance i ⟨repo, s.acme, outcome⟩).Shows domain cert.lastRenewStatus
      cert.wildcardStatus := by
  have hawaited : s.Awaited domain → (s.advance i ⟨repo, s.acme, outcome⟩).Awaited domain :=
    fun hawaited => hawaited.advance hi (List.Subset.refl _) fun hown => by
      rw [hrequests] at hown
      cases hown
  obtain ⟨rfl, old, hold, hid, hdomain⟩ := hhas
  refine ⟨?_, hwildcard⟩
  obtain hkeep | hsame := hkeeps
  · exact .inl (hawaited hkeep)
  · have hshows := (h.rows old hold).renewal
    rw [hsame old hold hid, hdomain] at hshows
    exact hshows.imp_left hawaited

/-- A call that only reads goes on with what it has found. -/
private theorem wellFormed_of_readsInto {t : CertificateTable} {c c' : CertCall}
    (h : CertCall.ReadsInto t c c') : c'.WellFormed t := by
  cases h with
  | issueDomain domain appID => trivial
  | renewCertificate h => exact has_of_getByDomain h
  | enableWildcardCreate domain method => trivial
  | enableWildcardUpdate h =>
    obtain ⟨hdomain, hrow⟩ := has_of_getByDomain h
    exact ⟨⟨hdomain, hrow⟩, rfl⟩
  | issueWildcardCert h =>
    obtain ⟨hdomain, hrow⟩ := has_of_getByDomain h
    exact ⟨hdomain, hrow⟩
  | disableWildcard h =>
    obtain ⟨hmem, -⟩ := CertificateTable.of_getByDomain h
    exact ⟨⟨rfl, _, hmem, rfl, rfl⟩, rfl⟩

/-- A call that only reads keeps the records right. -/
private theorem Sound.hasRead (h : s.Sound) {c : CertCall} (hi : s.calls[i]? = some c)
    (hrequests : c.requests = none) (hsettles : c.settles = none) {result : CallResult}
    (hread : c.HasRead s.repo s.acme result) : (s.advance i result).Sound := by
  rcases hread with ⟨r, rfl⟩ | ⟨c', rfl, hinto⟩
  · exact h.read hi hrequests hsettles fun _ => not_go
  · refine h.read hi hrequests hsettles fun _ hgo => ?_
    injection hgo with hgo
    exact hgo ▸ wellFormed_of_readsInto hinto

/-- **The next call of an operation keeps the records right.** -/
private theorem Sound.call (h : s.Sound) {c : CertCall} (hi : s.calls[i]? = some c)
    (hmeets : s.CallMeets env c) : (s.advance i (c.next env s.repo s.acme)).Sound := by
  have hwell : c.WellFormed s.repo := h.calls c (List.mem_of_getElem? hi)
  cases c with
  | issueDomain | renewCertificate | enableWildcard | issueWildcardCert | disableWildcard =>
    exact h.hasRead hi rfl rfl (CertCall.hasRead_next rfl env s.repo s.acme)
  | issueDomainCreate domain appID =>
    refine h.create hi hmeets rfl rfl ?_ rfl fun hissuing =>
      absurd hissuing (show ([] : GoString) ≠ str "issuing" by decide)
    exact ⟨_, CertificateTable.mem_create.mpr (.inl rfl), rfl⟩
  | issueDomainAsync domain =>
    have hcall : CertCall.next env s.repo s.acme (.issueDomainAsync domain) =
        ⟨s.repo, s.acme.enqueue ⟨domain, [], false, some .afterIssue⟩, .done (.ok none)⟩ := by
      rw [CertCall.next, AcmeSystem.call, AcmeCall.skips, hmeets]
      rfl
    rw [hcall]
    refine h.enqueue hi ⟨⟨_, rfl, rfl⟩, hwell⟩ (fun d hd => Option.some.inj hd) (fun d hd => ?_)
      fun _ => not_go
    cases hd
  | renewAsync domain cert =>
    obtain ⟨rfl, c, hc, hid, hdomain⟩ := hwell
    refine h.enqueue hi (j := ⟨cert.domain, [], true, some .afterRenew⟩)
      ⟨⟨_, rfl, rfl⟩, c, hc, hdomain⟩ (fun d hd => ?_) (fun d hd => ?_) fun c' hgo => ?_
    · cases hd
    · cases hd
    · injection hgo with hgo
      exact hgo ▸ ⟨rfl, c, hc, hid, hdomain⟩
  | renewUpdate cert =>
    have hhas : s.repo.Has cert.domain
        { cert with lastRenewAt := some env.now, lastRenewStatus := str "pending" } := hwell
    refine h.update hi hhas rfl (fun d hd => ?_) (fun _ _ _ => not_go)
      fun repo => ⟨.inl ?_, fun hissuing => ?_⟩
    · cases hd
    · refine hmeets.1.advance hi (List.Subset.refl _) fun hown => ?_
      cases hown
    · refine (hmeets.2 hissuing).advance hi (List.Subset.refl _) fun hown => ?_
      cases hown
  | enableWildcardCreate domain method =>
    have hcall : CertCall.next env s.repo s.acme (.enableWildcardCreate domain method) =
        ⟨(s.repo.create (wildcardRecord domain method env.now)).2, s.acme,
          .go (.enableWildcardAsync domain)⟩ := by
      rw [CertCall.next]
      dsimp only
      rw [enableWildcardGoOn, if_neg hmeets.2]
    rw [hcall]
    refine h.create hi hmeets.1 rfl rfl ?_ rfl fun _ => rfl
    exact ⟨_, CertificateTable.mem_create.mpr (.inl rfl), rfl⟩
  | enableWildcardUpdate domain method cert =>
    obtain ⟨hhas, hissuing⟩ := hwell
    have hrow : ∀ {repo : CertificateTable}, s.repo.Within repo →
        ∃ c ∈ repo.rows, c.domain = wildcardDomain domain := fun hwithin => by
      obtain ⟨-, c, hc, -, hdomain⟩ := hwithin.has hhas
      exact ⟨c, hc, hdomain⟩
    refine h.update hi hhas rfl (fun d hd => ?_) (fun repo c' hwithin hgo => ?_) fun repo => ?_
    · cases hd
    · rw [enableWildcardGoOn] at hgo
      split at hgo
      · injection hgo with hgo
        exact hgo ▸ hwithin.has hhas
      · injection hgo with hgo
        exact hgo ▸ hrow hwithin
    · by_cases hpersist : method = str "persist"
      · refine KeepsStatus.shows h hi hhas (hmeets hpersist) rfl repo fun _ => ?_
        exact .inr ⟨_, mem_calls_of_go hi (if_pos hpersist), rfl⟩
      · refine ⟨.inl (.inr ⟨_, mem_calls_of_go hi (if_neg hpersist), rfl⟩), fun _ => ?_⟩
        exact .inr ⟨_, mem_calls_of_go hi (if_neg hpersist), rfl⟩
  | makePersistValue domain cert =>
    obtain ⟨txtName, txtValue, hvalue, hname, hne⟩ := exists_of_generates hmeets
    have hcall : CertCall.next env s.repo s.acme (.makePersistValue domain cert) =
        ⟨s.repo, s.acme, .go (.enableWildcardPersist domain txtName
          { cert with wildcardStatus := str "txt_pending", persistTXTValue := txtValue })⟩ := by
      rw [CertCall.next, hvalue]
      exact if_neg (not_or.mpr ⟨hname, hne⟩)
    rw [hcall]
    refine h.advance hi (.refl _ h.acme) (fun r hr => ⟨r, hr, rfl, rfl⟩) h.domains
      (fun c' hgo => ?_) (fun d hd => ?_) fun r hr => .inl ⟨hr, fun hset _ => ?_⟩
    · injection hgo with hgo
      exact hgo ▸ ⟨hwell, rfl⟩
    · cases hd
    · exact .inr ⟨_, mem_calls_of_go hi rfl, hset⟩
  | enableWildcardPersist domain txtName cert =>
    obtain ⟨hhas, hstatus⟩ := hwell
    refine h.update hi hhas rfl (fun d hd => (Option.some.inj hd).symm) (fun _ _ _ => not_go)
      fun repo => KeepsStatus.shows h hi hhas hmeets rfl repo fun hissuing => ?_
    exact absurd (hstatus.symm.trans hissuing) (by decide)
  | enableWildcardAsync domain =>
    exact h.enqueue hi
      (j := ⟨wildcardDomain domain, str "dns", false, some (.afterWildcard domain)⟩)
      ⟨⟨_, rfl, rfl⟩, hwell⟩ (fun d hd => Option.some.inj hd)
      (fun d hd => ⟨Option.some.inj hd, rfl, Option.some.inj hd ▸ hmeets⟩) fun _ => not_go
  | issueWildcardUpdate domain method cert =>
    refine h.update hi hwell rfl (fun d hd => ?_) (fun repo c' hwithin hgo => ?_) fun repo => ?_
    · cases hd
    · injection hgo with hgo
      obtain ⟨-, c, hc, -, hdomain⟩ := hwithin.has hwell
      exact hgo ▸ ⟨c, hc, hdomain⟩
    · exact ⟨.inl (.inr ⟨_, mem_calls_of_go hi rfl, rfl⟩), fun _ =>
        .inr ⟨_, mem_calls_of_go hi rfl, rfl⟩⟩
  | issueWildcardAsync domain method =>
    exact h.enqueue hi
      (j := ⟨wildcardDomain domain, method, false, some (.afterWildcard domain)⟩)
      ⟨⟨_, rfl, rfl⟩, hwell⟩ (fun d hd => Option.some.inj hd)
      (fun d hd => ⟨Option.some.inj hd, rfl, Option.some.inj hd ▸ hmeets⟩) fun _ => not_go
  | disableWildcardUpdate cert =>
    obtain ⟨hhas, hstatus⟩ := hwell
    refine h.update hi hhas rfl (fun d hd => ?_) (fun _ _ _ => not_go)
      fun repo => KeepsStatus.shows h hi hhas hmeets rfl repo fun hissuing => ?_
    · cases hd
    · exact absurd (hstatus.symm.trans hissuing) (by decide)

end Calls

/-! ### The worker -/

section Worker

variable {s : CertSystem} {env : JobEnv} {j : Job CertCallback}

/-- A worker that is at no job keeps the records right. -/
private theorem Sound.take (h : s.Sound)
    (hnone : ∀ j, s.acme.workers.head? ≠ some (.executing j)) :
    ({ s with acme := s.acme.worker 0 } : CertSystem).Sound := by
  have hsame := h.acme.unfinished_take hnone
  refine ⟨h.acme.step (.worker 0), h.domains, fun j hj => h.jobs j (hsame ▸ hj), h.calls,
    fun p hp => ?_, fun r hr => (h.rows r hr).mono ?_ (fun _ => ?_) rfl⟩
  · obtain ⟨j, hj, -⟩ := h.phase p hp
    exact absurd hj (hnone j)
  · rintro (⟨j, hj, hdomain⟩ | hcall)
    · exact .inl ⟨j, hsame.symm ▸ hj, hdomain⟩
    · exact .inr hcall
  · rintro (⟨j, hj, hdomain⟩ | hcall)
    · exact .inl ⟨j, hsame.symm ▸ hj, hdomain⟩
    · exact .inr hcall

/-- The worker's callback is at a new place. -/
private theorem Sound.phase_step (h : s.Sound) (hj : s.acme.workers.head? = some (.executing j))
    {p : JobPhase} (hp : GoodPhase s.repo j p) :
    ({ s with phase := some p } : CertSystem).Sound := by
  refine ⟨h.acme, h.domains, h.jobs, h.calls, fun q hq => ?_, fun r hr =>
    (h.rows r hr).mono id (fun _ => id) rfl⟩
  obtain rfl := Option.some.inj hq
  exact ⟨j, hj, hp⟩

private theorem reread_same (env : JobEnv) (cert : Certificate) :
    (reread env cert).domain = cert.domain ∧ (reread env cert).id = cert.id := by
  rw [reread]
  split <;> exact ⟨rfl, rfl⟩

/-- The record that a callback writes shows the outcome. -/
private theorem goodPhase_update {t : CertificateTable} {cert : Certificate} {ok : Bool}
    {onComplete : CertCallback} (hcallback : j.onComplete = some onComplete)
    (hhas : t.Has j.domain cert) :
    GoodPhase t j (.write ok (onComplete.update env ok cert)) := by
  have hsame : (onComplete.update env ok cert).domain = cert.domain ∧
      (onComplete.update env ok cert).id = cert.id ∧
      (onComplete.update env ok cert).lastRenewStatus = outcomeText ok := by
    obtain ⟨hdomain, hid⟩ := reread_same env cert
    cases onComplete <;> exact ⟨hdomain, hid, rfl⟩
  obtain ⟨hdomain, hid, hstatus⟩ := hsame
  refine ⟨⟨hdomain.trans hhas.1, hid ▸ hhas.2⟩, hstatus, fun hwildcard => ?_⟩
  rw [Job.isWildcard, hcallback] at hwildcard
  cases onComplete with
  | afterIssue | afterRenew => cases hwildcard
  | afterWildcard baseDomain =>
    cases ok
    · exact show str "failed" ≠ str "issuing" by decide
    · exact show str "active" ≠ str "issuing" by decide

/-- **Finishing a job keeps the records right**, if its outcome is written. -/
private theorem Sound.finish (h : s.Sound) (hj : s.acme.workers.head? = some (.executing j))
    {ok : Bool} {cert : Certificate} (hwrite : GoodPhase s.repo j (.write ok cert))
    (hkeeps : j.isWildcard = false → s.KeepsWildcard cert) :
    ({ s with repo := (s.repo.update cert).getD s.repo }.finish j ok).Sound := by
  obtain ⟨⟨hcert, old, hold, hid, hdomain⟩, hstatus, hwildcard⟩ := hwrite
  obtain ⟨repo, hupdate, hmem⟩ := CertificateTable.exists_update hold hid
  have hwithin := CertificateTable.within_of_mem_update hold hid hmem
  have hjobs := h.acme.unfinished_finish hj
  -- what is awaited for other domains, or from other jobs
  have hother : ∀ d, d ≠ j.domain → s.Awaited d →
      ({ s with repo := repo }.finish j ok).Awaited d := by
    rintro d hne (⟨j', hj', hd⟩ | hcall)
    · rw [hjobs] at hj'
      obtain rfl | hj' := List.mem_cons.mp hj'
      · exact absurd hd.symm hne
      · exact .inl ⟨j', hj', hd⟩
    · exact .inr hcall
  have hotherWildcard : ∀ d, (d = j.domain → j.isWildcard = false) → s.AwaitedWildcard d →
      ({ s with repo := repo }.finish j ok).AwaitedWildcard d := by
    rintro d hne (⟨j', hj', hd, hjw⟩ | hcall)
    · rw [hjobs] at hj'
      obtain rfl | hj' := List.mem_cons.mp hj'
      · rw [hne hd.symm] at hjw
        cases hjw
      · exact .inl ⟨j', hj', hd, hjw⟩
    · exact .inr hcall
  rw [hupdate, Option.getD_some]
  refine ⟨h.acme.step (.worker 0), ?_, fun j' hj' => ?_, fun c hc => (h.calls c hc).mono hwithin,
    fun p hp => ?_, fun r hr => ?_⟩
  · change (repo.rows.map Certificate.domain).Nodup
    rw [CertificateTable.domains_update hupdate]
    exact h.domains
  · obtain ⟨hcallback, r, hr, hrdomain⟩ :=
      h.jobs j' (hjobs ▸ List.mem_cons_of_mem j hj')
    obtain ⟨r', hr', -, hdomain'⟩ := hwithin r hr
    exact ⟨hcallback, r', hr', hdomain'.trans hrdomain⟩
  · cases hp
  · obtain rfl | ⟨hr, hne⟩ := (hmem r).mp hr
    · change Shows _ old.domain cert.lastRenewStatus cert.wildcardStatus
      rw [hdomain]
      refine ⟨.inr ⟨?_, fun ok' hok => ?_⟩, fun hissuing => ?_⟩
      · rw [hstatus]
        cases ok <;> decide
      · have hlast : ok = ok' := by simpa [lastOutcome, CertSystem.finish] using hok
        rw [hstatus, hlast]
      · cases hjw : j.isWildcard with
        | true => exact absurd hissuing (hwildcard hjw)
        | false =>
          refine hotherWildcard _ (fun _ => hjw) ?_
          rw [← hcert]
          exact hkeeps hjw hissuing
    · have hdiff : r.domain ≠ j.domain := fun heq => hne (by
        rw [h.eq_of_domain hr hold (heq.trans hdomain.symm)]
        exact hid)
      refine (h.rows r hr).mono (hother _ hdiff)
        (fun _ => hotherWildcard _ fun heq => absurd heq hdiff) ?_
      simp [lastOutcome, CertSystem.finish, Ne.symm hdiff]

/-- **A step of the worker keeps the records right.** -/
private theorem Sound.worker (h : s.Sound) (hmeets : s.Meets (.worker env)) :
    (s.step (.worker env)).Sound := by
  rw [step]
  split
  · rename_i j hj
    have hjob := h.jobs j (by
      rw [h.acme.unfinished_finish hj]
      exact List.mem_cons_self)
    rw [execute]
    split
    · exact h.phase_step hj trivial
    · obtain ⟨⟨onComplete, hcallback, hrecord⟩, r, hr, hdomain⟩ := hjob
      rw [hcallback]
      dsimp only
      rw [hrecord]
      split
      · rename_i hnone
        exact absurd hdomain (CertificateTable.getByDomain_eq_none_iff.mp hnone r hr)
      · rename_i cert hcert
        exact h.phase_step hj (goodPhase_update hcallback (has_of_getByDomain hcert))
    · rename_i ok cert hphase
      obtain ⟨j', hj', hgood⟩ := h.phase _ hphase
      obtain rfl : j = j' := by
        injection Option.some.inj (hj.symm.trans hj')
      exact h.finish hj hgood fun hwildcard => hmeets _ hphase _ hj hwildcard
  · rename_i hnone
    exact h.take hnone

end Worker

/-- **Every step that meets its condition keeps the records right.** -/
theorem Sound.step {s : CertSystem} (h : s.Sound) {t : CertStep} (hmeets : s.Meets t) :
    (s.step t).Sound := by
  cases t with
  | begin r =>
    refine ⟨h.acme, h.domains, h.jobs, forall_mem_snoc h.calls ?_, h.phase, fun c hc =>
      (h.rows c hc).mono ?_ (fun _ => ?_) rfl⟩
    · cases r <;> trivial
    · exact Or.imp_right fun ⟨c, hc, hrequests⟩ => ⟨c, List.mem_append_left _ hc, hrequests⟩
    · exact Or.imp_right fun ⟨c, hc, hsettles⟩ => ⟨c, List.mem_append_left _ hc, hsettles⟩
  | call i env =>
    rw [CertSystem.step]
    split
    · exact h
    · rename_i c hi
      exact h.call hi (hmeets c hi)
  | worker env => exact h.worker hmeets

end CertSystem

/-! ### Runs -/

/-- No record of the table says that something is going on, and no two are for the same domain. -/
structure CertificateTable.Settled (t : CertificateTable) : Prop where
  domains : (t.rows.map Certificate.domain).Nodup
  renewal : ∀ c ∈ t.rows, c.lastRenewStatus ≠ str "pending"
  wildcard : ∀ c ∈ t.rows, c.wildcardStatus ≠ str "issuing"

private theorem sound_start {t : CertificateTable} (h : t.Settled) :
    (CertSystem.start t).Sound where
  acme := AcmeSystem.valid_new
  domains := h.domains
  jobs := fun _ hj => absurd hj (List.not_mem_nil)
  calls := fun _ hc => absurd hc (List.not_mem_nil)
  phase := fun _ hp => by cases hp
  rows := fun c hc => ⟨.inr ⟨h.renewal c hc, fun _ hok => by cases hok⟩, fun hissuing =>
    absurd hissuing (h.wildcard c hc)⟩

/-- **The records of a run** whose steps meet their conditions: when no operation is in progress and
no job is queued or executed, none of them is pending or being issued, and each shows how the last
job for its domain ended. -/
theorem records_settled {repo : CertificateTable} (h : repo.Settled) {steps : List CertStep}
    (hmeets : ∀ past t, past ++ [t] <+: steps → (CertSystem.run repo past).Meets t) :
    let s := CertSystem.run repo steps
    s.acme.Quiet → s.calls = [] → ∀ c ∈ s.repo.rows,
      c.lastRenewStatus ≠ str "pending" ∧ c.wildcardStatus ≠ str "issuing" ∧
        ∀ ok, s.lastOutcome c.domain = some ok → c.lastRenewStatus = outcomeText ok := by
  have hsound : (CertSystem.run repo steps).Sound := by
    refine run_induction (P := fun past => (CertSystem.run repo past).Sound) (sound_start h)
      fun past t hpast hpastSound => ?_
    have hsnoc : CertSystem.run repo (past ++ [t]) = (CertSystem.run repo past).step t := by
      rw [CertSystem.run, List.foldl_append]
      rfl
    rw [hsnoc]
    exact hpastSound.step (hmeets past t hpast)
  intro s hquiet hcalls c hc
  have hjobs : s.acme.unfinished = [] := by
    rw [AcmeSystem.unfinished, hquiet.1, List.append_nil]
    exact List.filterMap_eq_nil_iff.mpr hquiet.2
  obtain ⟨hrenewal, hwildcard⟩ := hsound.rows c hc
  have hnone : ¬ s.Awaited c.domain := by
    rw [CertSystem.Awaited, hjobs, hcalls]
    simp
  obtain ⟨hpending, hshows⟩ := hrenewal.resolve_left hnone
  refine ⟨hpending, fun hissuing => ?_, hshows⟩
  have hawaited := hwildcard hissuing
  rw [CertSystem.AwaitedWildcard, hjobs, hcalls] at hawaited
  simp at hawaited

/-- A table with one certificate. -/
def shopTable : CertificateTable where
  rows := [{ issuedRecord (str "shop.example") (str "shop") 0 with
    status := str "valid", lastRenewStatus := str "success" }]
  keys := by decide +kernel
  next := 1
  unused := by decide +kernel

theorem settled_shopTable : shopTable.Settled :=
  ⟨by decide, by decide, by decide⟩

/-- A renewal up to where its job is queued. -/
def renewalSteps : List CertStep :=
  [.begin (.renewCertificate (str "shop.example")), .call 0 ⟨0, false, false, .error []⟩,
    .call 0 ⟨0, false, false, .error []⟩]

/-- A renewal whose status is written before the worker takes its job. -/
theorem records_settled_renewal :
    let s := CertSystem.run shopTable (renewalSteps ++
      [.call 0 ⟨0, false, false, .error []⟩, .worker ⟨0, true, none⟩, .worker ⟨0, true, none⟩,
        .worker ⟨0, true, none⟩, .worker ⟨0, true, none⟩, .worker ⟨0, true, none⟩])
    ∀ c ∈ s.repo.rows, c.lastRenewStatus ≠ str "pending" ∧ c.wildcardStatus ≠ str "issuing" ∧
      ∀ ok, s.lastOutcome c.domain = some ok → c.lastRenewStatus = outcomeText ok :=
  records_settled settled_shopTable (forall_snoc (by decide))
    ⟨by decide, by decide⟩ (by decide)

/-- A renewal whose job is finished before its status is written: it stays pending. -/
theorem record_stays_pending :
    let s := CertSystem.run shopTable (renewalSteps ++
      [.worker ⟨0, true, none⟩, .worker ⟨0, true, none⟩, .worker ⟨0, true, none⟩,
        .worker ⟨0, true, none⟩, .worker ⟨0, true, none⟩, .call 0 ⟨0, false, false, .error []⟩])
    s.acme.Quiet ∧ s.calls = [] ∧ s.lastOutcome (str "shop.example") = some true ∧
      ∃ c ∈ s.repo.rows, c.lastRenewStatus = str "pending" :=
  ⟨⟨by decide, by decide⟩, by decide, by decide, by decide⟩

end VibesWaf
