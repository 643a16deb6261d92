import VibesWaf.Certificate.Service
import VibesWaf.Lib.Run

/-!
# Certificate directories

A certificate is installed in a directory: a plain one under its domain, and the wildcard of `x`
under `wildcard.x`. Deleting a certificate removes the directory, `BulkDeleteCertificates` deletes
records only. `SyncAllFromFilesystem` makes a record for every directory, under its name.

A `CertWorld` is the certificate service with the directories and the domains whose certificates
have been issued and not deleted since. `synced_right_iff` says in which runs the records that
are made from the directories are right: exactly when no wildcard is issued, and no domain with a
directory is deleted in bulk.
-/

namespace VibesWaf

/-! ### Directories -/

/-- The directories with a certificate and its key: the name, and the domain of the certificate. -/
abbrev CertDirs := Table (Prod.fst : GoString × GoString → GoString)

/-- The directory of the wildcard of a domain. -/
def wildcardDir (baseDomain : GoString) : GoString :=
  str "wildcard." ++ baseDomain

/-- The directory in which a job installs its certificate. -/
def certDirName (domain : GoString) : GoString :=
  if hasPrefix domain (str "*.") then wildcardDir (trimPrefix domain (str "*.")) else domain

/-- `HasCertificate`. -/
def hasCertificate (dirs : CertDirs) (domain : GoString) : Bool :=
  (dirs.find domain).isSome

/-- `HasWildcardCertificate`. -/
def hasWildcardCertificate (dirs : CertDirs) (baseDomain : GoString) : Bool :=
  (dirs.find (wildcardDir baseDomain)).isSome

/-- What a call looks for among the files. -/
def CertCall.finds (dirs : CertDirs) : CertCall → Bool
  | issueDomain domain _ => hasWildcardCertificate dirs domain
  | issueDomainAsync domain => hasCertificate dirs domain || hasWildcardCertificate dirs domain
  | _ => false

/-- The directory that a call removes: `IssueWildcardCert` does so after a failure. -/
def CertCall.removes (repo : CertificateTable) : CertCall → Option GoString
  | issueWildcardCert domain =>
    let domain := trimPrefix domain (str "*.")
    match repo.getByDomain (wildcardDomain domain) with
    | some cert => if cert.wildcardStatus = str "failed" then some (wildcardDir domain) else none
    | none => none
  | _ => none

/-! ### Reading the directories -/

/-- What openssl says of the certificate of a directory: its expiry date and its issuer, if there is
one. -/
abbrev CertReader := GoString → Option (ℤ × Option GoString)

/-- `syncWildcardCert`: the domain of the record and the table. -/
def syncWildcardCert (read : CertReader) (now : ℤ) (repo : CertificateTable)
    (baseDomain appID : GoString) : Option (GoString × CertificateTable) :=
  match read (wildcardDir baseDomain) with
  | none => none
  | some (expiresAt, issuer) =>
    let issuer := issuer.getD (str "Let's Encrypt")
    match repo.getByDomain (wildcardDomain baseDomain) with
    | none =>
      some (wildcardDomain baseDomain, (repo.create
        { issuedRecord (wildcardDomain baseDomain) appID now with
          status := determineStatus expiresAt now
          issuer := issuer
          expiresAt := expiresAt
          lastRenewStatus := str "success"
          wildcardEnabled := true
          wildcardStatus := str "active" }).2)
    | some cert =>
      (repo.update { cert with
        status := determineStatus expiresAt now
        issuer := issuer
        expiresAt := expiresAt
        wildcardEnabled := true
        wildcardStatus := str "active" }).map (wildcardDomain baseDomain, ·)

/-- `SyncFromACME`: the domain of the record and the table. -/
def syncFromACME (dirs : CertDirs) (read : CertReader) (now : ℤ) (repo : CertificateTable)
    (domain appID : GoString) : Option (GoString × CertificateTable) :=
  if hasCertificate dirs domain then
    match read domain with
    | none => none
    | some (expiresAt, issuer) =>
      let issuer := issuer.getD (str "Let's Encrypt")
      match repo.getByDomain domain with
      | none =>
        some (domain, (repo.create
          { issuedRecord domain appID now with
            status := determineStatus expiresAt now
            issuer := issuer
            expiresAt := expiresAt
            lastRenewStatus := str "success" }).2)
      | some cert =>
        (repo.update { cert with
          status := determineStatus expiresAt now
          issuer := issuer
          expiresAt := expiresAt }).map (domain, ·)
  else
    match cut domain 0x2E with
    | (_ :: _, some parentDomain) =>
      if hasWildcardCertificate dirs parentDomain then
        syncWildcardCert read now repo parentDomain appID
      else none
    | _ => none

/-- A turn of the loop of `SyncAllFromFilesystem`. -/
def syncDir (dirs : CertDirs) (read : CertReader) (now : ℤ)
    (done : List (GoString × GoString) × CertificateTable) (name : GoString) :
    List (GoString × GoString) × CertificateTable :=
  match syncFromACME dirs read now done.2 name [] with
  | none => done
  | some (domain, repo) => (done.1 ++ [(name, domain)], repo)

/-- `SyncAllFromFilesystem`: the directories that are synced, in the order of their names, each with
the domain of the record that is created or updated, and the table. -/
def syncAllFromFilesystem (dirs : CertDirs) (read : CertReader) (now : ℤ)
    (repo : CertificateTable) : List (GoString × GoString) × CertificateTable :=
  ((dirs.rows.map Prod.fst).mergeSort fun a b => a ≤ b).foldl (syncDir dirs read now) ([], repo)

/-! ### The world -/

/-- The service, the directories, and the domains whose certificate has been issued and not been
deleted since. -/
structure CertWorld where
  sys : CertSystem
  dirs : CertDirs
  live : GoString → Bool

/-- A step of the service, or an operation that deletes certificates. -/
inductive WorldStep
  | cert (t : CertStep)
  | deleteCertificate (domain : GoString)
  | bulkDeleteCertificates (domains : List GoString)

namespace CertWorld

/-- A service without certificates. -/
def start : CertWorld :=
  ⟨CertSystem.start ⟨Table.empty, 0, fun _ h => absurd h List.not_mem_nil⟩, Table.empty,
    fun _ => false⟩

/-- The domain whose certificate a step of the worker installs: acme.sh is done with the job, and
has succeeded. -/
def installs (w : CertWorld) (env : JobEnv) : Option GoString :=
  match w.sys.acme.workers.head?, w.sys.phase with
  | some (.executing j), none => if env.succeeds then some j.domain else none
  | _, _ => none

/-- A certificate is installed. -/
def install (w : CertWorld) (domain : GoString) : CertWorld :=
  { w with
    dirs := w.dirs.put (certDirName domain, domain)
    live := fun d => d = domain || w.live d }

/-- The directory of a name is removed. -/
def remove (w : CertWorld) (name : Option GoString) : CertWorld :=
  { w with dirs := name.elim w.dirs w.dirs.erase }

/-- A step of the service, with what it does to the directories. -/
def certStep (w : CertWorld) : CertStep → CertWorld
  | .begin r => { w with sys := w.sys.step (.begin r) }
  | .call i env =>
    match w.sys.calls[i]? with
    | none => w
    | some c =>
      { w.remove (c.removes w.sys.repo) with
        sys := w.sys.step (.call i { env with found := c.finds w.dirs }) }
  | .worker env =>
    { (w.installs env).elim w w.install with sys := w.sys.step (.worker env) }

/-- `DeleteCertificate`. -/
def deleteCertificate (w : CertWorld) (domain : GoString) : CertWorld :=
  match w.sys.repo.getByDomain domain with
  | none => w
  | some cert =>
    let name := if cert.wildcardEnabled then wildcardDir (trimPrefix domain (str "*."))
      else domain
    { w.remove (some name) with
      sys := { w.sys with repo := (w.sys.repo.deleteByDomain domain).getD w.sys.repo }
      live := fun d => d ≠ domain && w.live d }

/-- `BulkDeleteCertificates`; a domain without a record is not deleted. -/
def bulkDeleteCertificates (w : CertWorld) (domains : List GoString) : CertWorld :=
  { w with
    sys := { w.sys with repo := (w.sys.repo.bulkDelete domains).2 }
    live := fun d => !(d ∈ domains && (w.sys.repo.getByDomain d).isSome) && w.live d }

/-- A step. -/
def step (w : CertWorld) : WorldStep → CertWorld
  | .cert t => w.certStep t
  | .deleteCertificate domain => w.deleteCertificate domain
  | .bulkDeleteCertificates domains => w.bulkDeleteCertificates domains

/-- A run. -/
def run (steps : List WorldStep) : CertWorld :=
  steps.foldl step start

/-- What `SyncAllFromFilesystem` does to the records is right, whatever openssl says: each record
that it creates or updates is for the domain of the certificate in the directory, which has been
issued and not been deleted since. -/
def SyncedRight (w : CertWorld) : Prop :=
  ∀ read now, ∀ e ∈ (syncAllFromFilesystem w.dirs read now w.sys.repo).1,
    e ∈ w.dirs.rows ∧ w.live e.2 = true

/-- A step installs no wildcard, and deletes nothing in bulk that has a record and a directory. -/
def Meets (w : CertWorld) : WorldStep → Prop
  | .cert (.worker env) => ∀ d ∈ w.installs env, hasPrefix d (str "*.") = false
  | .bulkDeleteCertificates domains =>
    ∀ d ∈ domains, (w.sys.repo.getByDomain d).isSome = true → w.dirs.find d = none
  | _ => True

end CertWorld

/-! ### What is synced -/

section Sync

variable {dirs : CertDirs} {read : CertReader} {now : ℤ}

/-- A directory with a certificate is synced into a record of its name, if openssl can read it. -/
theorem syncFromACME_of_hasCertificate (read : CertReader) (now : ℤ) (appID : GoString)
    {name : GoString} (h : hasCertificate dirs name = true) (repo : CertificateTable) :
    (syncFromACME dirs read now repo name appID).map Prod.fst =
      if (read name).isSome then some name else none := by
  rw [syncFromACME, if_pos h]
  cases read name with
  | none => rfl
  | some entry =>
    dsimp only
    split
    · rfl
    · rename_i cert hcert
      obtain ⟨hmem, -⟩ := CertificateTable.of_getByDomain hcert
      have hid : cert.id = ({ cert with
          status := determineStatus entry.1 now
          issuer := entry.2.getD (str "Let's Encrypt")
          expiresAt := entry.1 } : Certificate).id := rfl
      obtain ⟨t, hupdate, -⟩ := CertificateTable.exists_update hmem hid
      rw [hupdate]
      rfl

/-- The loop syncs the names that openssl can read, each into a record of this name. -/
private theorem foldl_syncDir {names : List GoString}
    (h : ∀ name ∈ names, hasCertificate dirs name = true)
    (done : List (GoString × GoString) × CertificateTable) :
    (names.foldl (syncDir dirs read now) done).1 =
      done.1 ++ (names.filter fun name => (read name).isSome).map fun name => (name, name) := by
  induction names generalizing done with
  | nil => simp
  | cons name names ih =>
    obtain ⟨hname, hnames⟩ := List.forall_mem_cons.mp h
    have hsync := syncFromACME_of_hasCertificate read now [] hname done.2
    rw [List.foldl_cons, ih hnames, syncDir]
    cases hread : (read name).isSome with
    | false =>
      rw [hread, if_neg Bool.false_ne_true, Option.map_eq_none_iff] at hsync
      rw [hsync, List.filter_cons_of_neg (by simp [hread])]
    | true =>
      rw [hread, if_pos rfl, Option.map_eq_some_iff] at hsync
      obtain ⟨⟨domain, repo⟩, hsome, rfl⟩ := hsync
      rw [hsome, List.filter_cons_of_pos (by simp [hread]), List.map_cons, List.append_assoc]
      rfl

/-- **What `SyncAllFromFilesystem` syncs**: the directories that openssl can read, each into the
record of its name. -/
theorem mem_syncAll {repo : CertificateTable} {e : GoString × GoString} :
    e ∈ (syncAllFromFilesystem dirs read now repo).1 ↔
      e.2 = e.1 ∧ e.1 ∈ dirs.rows.map Prod.fst ∧ (read e.1).isSome = true := by
  have hnames : ∀ name ∈ (dirs.rows.map Prod.fst).mergeSort fun a b => a ≤ b,
      hasCertificate dirs name = true := by
    intro name hname
    rw [List.mem_mergeSort] at hname
    obtain ⟨row, hrow, hkey⟩ := List.mem_map.mp hname
    rw [hasCertificate, dirs.find_eq_some_iff.mpr ⟨hrow, hkey⟩]
    rfl
  rw [syncAllFromFilesystem, foldl_syncDir hnames, List.nil_append, List.mem_map]
  constructor
  · rintro ⟨name, hname, rfl⟩
    obtain ⟨hmem, hread⟩ := List.mem_filter.mp hname
    exact ⟨rfl, List.mem_mergeSort.mp hmem, hread⟩
  · rintro ⟨heq, hmem, hread⟩
    exact ⟨e.1, List.mem_filter.mpr ⟨List.mem_mergeSort.mpr hmem, hread⟩, Prod.ext rfl heq.symm⟩

end Sync

/-- The records are right if each directory has the certificate of its name, and this one has been
issued and not been deleted. -/
theorem CertWorld.syncedRight_iff {w : CertWorld} :
    w.SyncedRight ↔ ∀ e ∈ w.dirs.rows, e.2 = e.1 ∧ w.live e.1 = true := by
  constructor
  · intro h e he
    have hname : e.1 ∈ w.dirs.rows.map Prod.fst := List.mem_map_of_mem he
    obtain ⟨hrow, hlive⟩ := h (fun _ => some (0, none)) 0 (e.1, e.1)
      (mem_syncAll.mpr ⟨rfl, hname, rfl⟩)
    have hsame := w.dirs.eq_of_key_eq hrow he rfl
    exact ⟨congrArg Prod.snd hsame.symm, hlive⟩
  · rintro h read now ⟨name, domain⟩ he
    obtain ⟨hdomain, hname, -⟩ := mem_syncAll.mp he
    obtain ⟨row, hrow, rfl⟩ := List.mem_map.mp hname
    obtain ⟨hrowDomain, hlive⟩ := h row hrow
    obtain rfl : domain = row.1 := hdomain
    have hpair : (row.1, row.1) = row := Prod.ext rfl hrowDomain.symm
    exact ⟨hpair.symm ▸ hrow, hlive⟩

/-! ### Which records are enabled as wildcards -/

/-- A record, or a copy of one: it is enabled as a wildcard only if it is one, and its id is taken
by no other domain. -/
structure CertificateTable.Copy (t : CertificateTable) (cert : Certificate) : Prop where
  wildcard : cert.wildcardEnabled = true → hasPrefix cert.domain (str "*.") = true
  taken : cert.id < t.next
  domain : ∀ r ∈ t.rows, r.id = cert.id → r.domain = cert.domain

/-- The ids of the first table are for the same domains in the second. -/
structure CertificateTable.Keeps (t t' : CertificateTable) : Prop where
  next : t.next ≤ t'.next
  domain : ∀ r' ∈ t'.rows, r'.id < t.next → ∃ r ∈ t.rows, r.id = r'.id ∧ r.domain = r'.domain

namespace CertificateTable

variable {t t' : CertificateTable} {cert : Certificate}

theorem Keeps.refl (t : CertificateTable) : t.Keeps t :=
  ⟨le_rfl, fun r hr _ => ⟨r, hr, rfl, rfl⟩⟩

theorem Copy.mono (h : t.Copy cert) (hkeeps : t.Keeps t') : t'.Copy cert := by
  refine ⟨h.wildcard, h.taken.trans_le hkeeps.next, fun r' hr' hid => ?_⟩
  obtain ⟨r, hr, hrid, hdomain⟩ := hkeeps.domain r' hr' (hid ▸ h.taken)
  exact hdomain.symm.trans (h.domain r hr (hrid.trans hid))

/-- A row is a copy of itself. -/
theorem copy_of_mem (hmem : cert ∈ t.rows)
    (hwildcard : cert.wildcardEnabled = true → hasPrefix cert.domain (str "*.") = true) :
    t.Copy cert :=
  ⟨hwildcard, t.unused cert hmem, fun _ hr hid => congrArg _ (t.eq_of_key_eq hr hmem hid)⟩

theorem keeps_create : t.Keeps (t.create cert).2 := by
  refine ⟨Nat.le_succ _, fun r' hr' hid => ?_⟩
  obtain rfl | hr' := mem_create.mp hr'
  · exact absurd hid (lt_irrefl _)
  · exact ⟨r', hr', rfl, rfl⟩

theorem keeps_bulkDelete {domains : List GoString} : t.Keeps (t.bulkDelete domains).2 :=
  ⟨le_rfl, fun r hr _ => ⟨r, (mem_bulkDelete.mp hr).1, rfl, rfl⟩⟩

/-- What an update leaves of the rows: they are as before, or written with the domain and the id
they had. -/
theorem of_update (h : t.update cert = some t') :
    t'.next = t.next ∧ ∀ r' ∈ t'.rows, r' ∈ t.rows ∨
      ∃ old ∈ t.rows, old.id = cert.id ∧ r' = written cert old := by
  rw [update] at h
  split at h
  · obtain rfl := Option.some.inj h
    refine ⟨rfl, fun r' hr' => ?_⟩
    obtain ⟨old, hold, rfl⟩ := (t.mem_modify cert.id (written cert) fun _ => rfl).mp hr'
    split
    · rename_i hid
      exact .inr ⟨old, hold, hid, rfl⟩
    · exact .inl hold
  · cases h

theorem keeps_update (h : t.update cert = some t') : t.Keeps t' := by
  obtain ⟨hnext, hrows⟩ := of_update h
  refine ⟨hnext.ge, fun r' hr' _ => ?_⟩
  obtain hr | ⟨old, hold, -, rfl⟩ := hrows r' hr'
  · exact ⟨r', hr, rfl, rfl⟩
  · exact ⟨old, hold, rfl, rfl⟩

/-- Every row is enabled as a wildcard only if it is one. -/
def Marked (t : CertificateTable) : Prop :=
  ∀ r ∈ t.rows, r.wildcardEnabled = true → hasPrefix r.domain (str "*.") = true

theorem Marked.copy (h : t.Marked) (hmem : cert ∈ t.rows) : t.Copy cert :=
  copy_of_mem hmem (h cert hmem)

theorem Marked.create (h : t.Marked)
    (hcert : cert.wildcardEnabled = true → hasPrefix cert.domain (str "*.") = true) :
    (t.create cert).2.Marked := by
  intro r hr
  obtain rfl | hr := mem_create.mp hr
  · exact hcert
  · exact h r hr

/-- A copy may be written back. -/
theorem Marked.update (h : t.Marked) (hcert : t.Copy cert) (hupdate : t.update cert = some t') :
    t'.Marked := by
  intro r hr
  obtain hr | ⟨old, hold, hid, rfl⟩ := (of_update hupdate).2 r hr
  · exact h r hr
  · intro henabled
    change hasPrefix old.domain _ = true
    rw [hcert.domain old hold hid]
    exact hcert.wildcard henabled

end CertificateTable

/-- The record that an operation in progress holds. -/
def CertCall.cert : CertCall → Option Certificate
  | renewAsync _ cert | renewUpdate cert | enableWildcardUpdate _ _ cert | makePersistValue _ cert
  | enableWildcardPersist _ _ cert | issueWildcardUpdate _ _ cert | disableWildcardUpdate cert =>
    some cert
  | _ => none

/-- What holds of the result of a call: its rows are marked, and the record that goes on is a copy
of one. -/
structure CallResult.Marked (repo : CertificateTable) (result : CallResult) : Prop where
  rows : result.repo.Marked
  keeps : repo.Keeps result.repo
  copy : ∀ c, result.outcome = .go c → ∀ cert ∈ c.cert, result.repo.Copy cert

namespace CallResult.Marked

variable {repo : CertificateTable} {acme : AcmeSystem CertCallback}

/-- A call that only reads, and goes on with a copy of a record or with none. -/
private theorem read (h : repo.Marked) {outcome : CallOutcome}
    (hcopy : ∀ c, outcome = .go c → ∀ cert ∈ c.cert, repo.Copy cert) :
    CallResult.Marked repo ⟨repo, acme, outcome⟩ :=
  ⟨h, .refl repo, hcopy⟩

private theorem done (h : repo.Marked) {result : Except GoString (Option WildcardSetupResponse)} :
    CallResult.Marked repo ⟨repo, acme, .done result⟩ :=
  .read h fun _ hgo => by cases hgo

/-- A call that reads, and goes on with the record that it holds. -/
private theorem go (h : repo.Marked) {c : CertCall} (hcopy : ∀ cert ∈ c.cert, repo.Copy cert) :
    CallResult.Marked repo ⟨repo, acme, .go c⟩ :=
  .read h fun _ hgo => by injection hgo with hgo; exact hgo ▸ hcopy

/-- An update with a copy, that goes on with this one or with none. -/
private theorem updateThen (h : repo.Marked) {cert : Certificate} (hcert : repo.Copy cert)
    {failed : GoString} {outcome : CallOutcome}
    (hcopy : ∀ c, outcome = .go c → ∀ cert' ∈ c.cert, cert' = cert) :
    CallResult.Marked repo (VibesWaf.updateThen repo acme cert failed outcome) := by
  rw [VibesWaf.updateThen]
  split
  · exact .done h
  · rename_i t hupdate
    have hkeeps := CertificateTable.keeps_update hupdate
    refine ⟨h.update hcert hupdate, hkeeps, fun c hgo cert' hcert' => ?_⟩
    rw [hcopy c hgo cert' hcert']
    exact hcert.mono hkeeps

end CallResult.Marked

/-- `EnableWildcard` goes on with its record, or with none. -/
private theorem cert_of_enableWildcardGoOn {domain method : GoString} {cert cert' : Certificate}
    {c : CertCall} (hgo : enableWildcardGoOn domain method cert = .go c) (h : cert' ∈ c.cert) :
    cert' = cert := by
  rw [enableWildcardGoOn] at hgo
  split at hgo
  · injection hgo with hgo
    subst hgo
    exact (Option.some.inj h).symm
  · injection hgo with hgo
    subst hgo
    cases h

/-- A call that only reads goes on with a copy of what it has found. -/
private theorem copy_of_readsInto {repo : CertificateTable} (h : repo.Marked) {c c' : CertCall}
    (hinto : CertCall.ReadsInto repo c c') : ∀ cert ∈ c'.cert, repo.Copy cert := by
  intro cert' hcert'
  cases hinto with
  | issueDomain domain appID => cases hcert'
  | renewCertificate hcert =>
    rw [← Option.some.inj hcert']
    exact h.copy (CertificateTable.of_getByDomain hcert).1
  | enableWildcardCreate domain method => cases hcert'
  | @enableWildcardUpdate domain method cert hcert =>
    rw [← Option.some.inj hcert']
    obtain ⟨hmem, hdomain⟩ := CertificateTable.of_getByDomain hcert
    have hcopy := h.copy hmem
    refine ⟨fun _ => ?_, hcopy.taken, hcopy.domain⟩
    change hasPrefix cert.domain _ = true
    rw [hdomain]
    exact hasPrefix_append _ _
  | issueWildcardCert hcert =>
    rw [← Option.some.inj hcert']
    have hcopy := h.copy (CertificateTable.of_getByDomain hcert).1
    exact ⟨hcopy.wildcard, hcopy.taken, hcopy.domain⟩
  | disableWildcard hcert =>
    rw [← Option.some.inj hcert']
    have hcopy := h.copy (CertificateTable.of_getByDomain hcert).1
    refine ⟨fun henabled => ?_, hcopy.taken, hcopy.domain⟩
    cases henabled

/-- A call that only reads keeps the rows marked. -/
private theorem CallResult.Marked.hasRead {repo : CertificateTable}
    {acme : AcmeSystem CertCallback} (h : repo.Marked) {c : CertCall} {result : CallResult}
    (hread : c.HasRead repo acme result) : CallResult.Marked repo result := by
  rcases hread with ⟨r, rfl⟩ | ⟨c', rfl, hinto⟩
  · exact .done h
  · exact .go h (copy_of_readsInto h hinto)

/-- **A call keeps the rows marked**, if it holds a copy of a record. -/
theorem CertCall.next_marked {repo : CertificateTable} (h : repo.Marked) {c : CertCall}
    (hcert : ∀ cert ∈ c.cert, repo.Copy cert) (env : CallEnv) (acme : AcmeSystem CertCallback) :
    CallResult.Marked repo (c.next env repo acme) := by
  cases c with
  | issueDomain | renewCertificate | enableWildcard | issueWildcardCert | disableWildcard =>
    exact .hasRead h (CertCall.hasRead_next rfl env repo acme)
  | issueDomainCreate domain appID =>
    refine ⟨h.create fun henabled => ?_, CertificateTable.keeps_create, fun c hgo cert hc => ?_⟩
    · cases henabled
    · injection hgo with hgo
      subst hgo
      cases hc
  | issueDomainAsync domain => exact .done h
  | renewAsync domain cert => exact .go h hcert
  | renewUpdate cert =>
    have hcopy := hcert cert rfl
    have hpending : repo.Copy
        { cert with lastRenewAt := some env.now, lastRenewStatus := str "pending" } :=
      ⟨hcopy.wildcard, hcopy.taken, hcopy.domain⟩
    exact .updateThen h hpending fun c hgo => by cases hgo
  | enableWildcardCreate domain method =>
    have hpre : hasPrefix (wildcardDomain domain) (str "*.") = true := hasPrefix_append _ _
    have hcreate : (repo.create (wildcardRecord domain method env.now)).2.Marked :=
      h.create fun _ => hpre
    refine ⟨hcreate, CertificateTable.keeps_create, fun c hgo cert hc => ?_⟩
    rw [cert_of_enableWildcardGoOn hgo hc]
    exact hcreate.copy (CertificateTable.mem_create.mpr (.inl rfl))
  | enableWildcardUpdate domain method cert =>
    exact .updateThen h (hcert cert rfl) fun c hgo cert' hc => cert_of_enableWildcardGoOn hgo hc
  | makePersistValue domain cert =>
    have hcopy := hcert cert rfl
    rw [CertCall.next]
    split
    · exact .done h
    split
    · exact .done h
    · refine .go h fun cert' hcert' => ?_
      rw [← Option.some.inj hcert']
      exact ⟨hcopy.wildcard, hcopy.taken, hcopy.domain⟩
  | enableWildcardPersist domain txtName cert =>
    refine .updateThen h (hcert cert rfl) fun c hgo => ?_
    cases hgo
  | enableWildcardAsync domain => exact .done h
  | issueWildcardUpdate domain method cert =>
    refine .updateThen h (hcert cert rfl) fun c hgo cert' hc => ?_
    injection hgo with hgo
    subst hgo
    cases hc
  | issueWildcardAsync domain method => exact .done h
  | disableWildcardUpdate cert =>
    refine .updateThen h (hcert cert rfl) fun c hgo => ?_
    cases hgo

/-- What a callback writes back is a copy of what it has read. -/
theorem CertificateTable.Copy.callback {t : CertificateTable} {cert : Certificate}
    (h : t.Copy cert) (onComplete : CertCallback) (env : JobEnv) (ok : Bool) :
    t.Copy (onComplete.update env ok cert) := by
  have hreread : t.Copy (reread env cert) := by
    rw [reread]
    split
    · exact h
    · exact ⟨h.wildcard, h.taken, h.domain⟩
  cases onComplete with
  | afterIssue | afterRenew => exact ⟨hreread.wildcard, hreread.taken, hreread.domain⟩
  | afterWildcard baseDomain => exact ⟨hreread.wildcard, hreread.taken, hreread.domain⟩

/-- The rows are marked, and what the operations and the callback hold are copies of records. -/
structure CertSystem.Marked (s : CertSystem) : Prop where
  rows : s.repo.Marked
  calls : ∀ c ∈ s.calls, ∀ cert ∈ c.cert, s.repo.Copy cert
  phase : ∀ ok cert, s.phase = some (.write ok cert) → s.repo.Copy cert

namespace CertSystem.Marked

variable {s : CertSystem}

/-- The table may change, if it stays marked and its ids are for the same domains. -/
private theorem of_repo (h : s.Marked) {repo : CertificateTable} (hrows : repo.Marked)
    (hkeeps : s.repo.Keeps repo) : CertSystem.Marked { s with repo := repo } :=
  ⟨hrows, fun c hc cert hcert => (h.calls c hc cert hcert).mono hkeeps,
    fun ok cert hphase => (h.phase ok cert hphase).mono hkeeps⟩

private theorem finish (h : s.Marked) (j : Job CertCallback) (ok : Bool) : (s.finish j ok).Marked :=
  ⟨h.rows, h.calls, fun _ _ hphase => by cases hphase⟩

/-- **A deletion keeps the rows marked.** -/
theorem bulkDelete (h : s.Marked) (domains : List GoString) :
    CertSystem.Marked { s with repo := (s.repo.bulkDelete domains).2 } :=
  h.of_repo (fun r hr => h.rows r (CertificateTable.mem_bulkDelete.mp hr).1)
    CertificateTable.keeps_bulkDelete

theorem deleteByDomain (h : s.Marked) (domain : GoString) :
    CertSystem.Marked { s with repo := (s.repo.deleteByDomain domain).getD s.repo } := by
  rw [CertificateTable.deleteByDomain]
  split
  · exact h
  · exact h.bulkDelete [domain]

private theorem execute (h : s.Marked) (env : JobEnv) (j : Job CertCallback) :
    (s.execute env j).Marked := by
  rw [CertSystem.execute]
  split
  · exact ⟨h.rows, h.calls, fun _ _ hphase => by cases hphase⟩
  · split
    · exact h.finish j _
    split
    · exact h.finish j _
    · rename_i onComplete hcallback _ cert hcert
      have hcopy := h.rows.copy (CertificateTable.of_getByDomain hcert).1
      refine ⟨h.rows, h.calls, fun ok' cert' hphase => ?_⟩
      injection Option.some.inj hphase with _ hcert'
      exact hcert' ▸ hcopy.callback onComplete env _
  · rename_i ok cert hphase
    have hcopy := h.phase ok cert hphase
    cases hupdate : s.repo.update cert with
    | none => exact h.finish j ok
    | some repo =>
      exact (h.of_repo (h.rows.update hcopy hupdate)
        (CertificateTable.keeps_update hupdate)).finish j ok

/-- **A step of the service keeps the rows marked.** -/
theorem step (h : s.Marked) (t : CertStep) : (s.step t).Marked := by
  cases t with
  | begin r =>
    refine ⟨h.rows, forall_mem_snoc h.calls fun cert hcert => ?_, h.phase⟩
    cases r <;> cases hcert
  | call i env =>
    rw [CertSystem.step]
    split
    · exact h
    · rename_i c hi
      have hnext := CertCall.next_marked h.rows (h.calls c (List.mem_of_getElem? hi)) env s.acme
      refine ⟨hnext.rows, fun c' hc' cert hcert => ?_, fun ok cert hphase => ?_⟩
      · obtain hold | hgo := CertSystem.of_mem_calls_advance hc'
        · exact (h.calls c' hold cert hcert).mono hnext.keeps
        · exact hnext.copy c' hgo cert hcert
      · exact (h.phase ok cert hphase).mono hnext.keeps
  | worker env =>
    rw [CertSystem.step]
    split
    · exact h.execute env _
    · exact ⟨h.rows, h.calls, h.phase⟩

end CertSystem.Marked

/-! ### Runs -/

namespace CertWorld

variable {w : CertWorld}

/-- What holds in every state of a run that keeps the directories right: each has the certificate of
its name, which is not a wildcard, and has been issued and not been deleted. -/
structure Sound (w : CertWorld) : Prop where
  sys : w.sys.Marked
  rows : ∀ e ∈ w.dirs.rows, e.2 = e.1 ∧ w.live e.1 = true
  plain : ∀ e ∈ w.dirs.rows, hasPrefix e.1 (str "*.") = false

theorem sound_start : start.Sound where
  sys := ⟨fun _ hr => absurd hr List.not_mem_nil, fun _ hc => absurd hc List.not_mem_nil,
    fun _ _ hphase => by cases hphase⟩
  rows := fun _ he => absurd he List.not_mem_nil
  plain := fun _ he => absurd he List.not_mem_nil

/-- Directories are only removed, and no domain of one that is left is deleted. -/
private theorem Sound.of_subset (h : w.Sound) {w' : CertWorld} (hsys : w'.sys.Marked)
    (hsub : ∀ e ∈ w'.dirs.rows, e ∈ w.dirs.rows)
    (hlive : ∀ e ∈ w'.dirs.rows, w.live e.1 = true → w'.live e.1 = true) : w'.Sound :=
  ⟨hsys, fun e he => ⟨(h.rows e (hsub e he)).1, hlive e he (h.rows e (hsub e he)).2⟩,
    fun e he => h.plain e (hsub e he)⟩

private theorem of_mem_remove {name : Option GoString} {e : GoString × GoString}
    (he : e ∈ (w.remove name).dirs.rows) : e ∈ w.dirs.rows ∧ ∀ n ∈ name, e.1 ≠ n := by
  cases name with
  | none => exact ⟨he, fun _ hn => by cases hn⟩
  | some n =>
    obtain ⟨hmem, hne⟩ := w.dirs.mem_erase.mp he
    refine ⟨hmem, fun n' hn' => ?_⟩
    rwa [← Option.some.inj hn']

/-- **The certificate of a plain domain** is installed in the directory of its name. -/
private theorem Sound.install (h : w.Sound) {domain : GoString}
    (hplain : hasPrefix domain (str "*.") = false) : (w.install domain).Sound := by
  have hname : certDirName domain = domain := by
    rw [certDirName, hplain, if_neg Bool.false_ne_true]
  refine ⟨h.sys, fun e he => ?_, fun e he => ?_⟩
  all_goals
    rw [CertWorld.install, hname] at he
    obtain rfl | ⟨hmem, -⟩ := (w.dirs.mem_put _).mp he
  · exact ⟨rfl, by simp [CertWorld.install]⟩
  · obtain ⟨hdomain, hlive⟩ := h.rows e hmem
    exact ⟨hdomain, by simp [CertWorld.install, hlive]⟩
  · exact hplain
  · exact h.plain e hmem

private theorem Sound.certStep (h : w.Sound) {t : CertStep} (hmeets : w.Meets (.cert t)) :
    (w.certStep t).Sound := by
  cases t with
  | begin r => exact ⟨h.sys.step (.begin r), h.rows, h.plain⟩
  | call i env =>
    rw [CertWorld.certStep]
    split
    · exact h
    · rename_i c hi
      have hsys := h.sys.step (.call i { env with found := c.finds w.dirs })
      exact h.of_subset hsys (fun e he => (of_mem_remove he).1) fun _ _ => id
  | worker env =>
    have hinstalled : ((w.installs env).elim w w.install).Sound := by
      cases hinstalls : w.installs env with
      | none => exact h
      | some d => exact h.install (hmeets d hinstalls)
    exact ⟨h.sys.step (.worker env), hinstalled.rows, hinstalled.plain⟩

private theorem Sound.deleteCertificate (h : w.Sound) (domain : GoString) :
    (w.deleteCertificate domain).Sound := by
  rw [CertWorld.deleteCertificate]
  split
  · exact h
  · rename_i cert hcert
    obtain ⟨hmem, hdomain⟩ := CertificateTable.of_getByDomain hcert
    refine h.of_subset (h.sys.deleteByDomain domain) (fun e he => (of_mem_remove he).1)
      fun e he hlive => ?_
    obtain ⟨hrow, hne⟩ := of_mem_remove he
    have hdiff : e.1 ≠ domain := by
      rintro rfl
      by_cases henabled : cert.wildcardEnabled = true
      · -- only a wildcard is enabled as one, and no directory is of its name
        have hwildcard := h.sys.rows cert hmem henabled
        rw [hdomain, h.plain e hrow] at hwildcard
        cases hwildcard
      · exact hne e.1 (congrArg some (if_neg henabled)) rfl
    change (decide (e.1 ≠ domain) && w.live e.1) = true
    rw [hlive, decide_eq_true hdiff]
    rfl

/-- **A step that meets its condition keeps the directories right.** -/
theorem Sound.step (h : w.Sound) (t : WorldStep) (hmeets : w.Meets t) : (w.step t).Sound := by
  cases t with
  | cert t => exact h.certStep hmeets
  | deleteCertificate domain => exact h.deleteCertificate domain
  | bulkDeleteCertificates domains =>
    refine h.of_subset (h.sys.bulkDelete domains) (fun _ => id) fun e he hlive => ?_
    have hkept : ¬ (e.1 ∈ domains ∧ (w.sys.repo.getByDomain e.1).isSome = true) := by
      rintro ⟨hmem, hsome⟩
      exact w.dirs.find_eq_none_iff.mp (hmeets e.1 hmem hsome) e he rfl
    change (!(decide (e.1 ∈ domains) && (w.sys.repo.getByDomain e.1).isSome) && w.live e.1) = true
    rw [hlive, Bool.and_true, Bool.not_eq_true', Bool.eq_false_iff]
    intro hdeleted
    rw [Bool.and_eq_true, decide_eq_true_eq] at hdeleted
    exact hkept hdeleted

/-- A step after which the records are made right from the directories meets its condition. -/
theorem SyncedRight.meets {t : WorldStep} (hright : (w.step t).SyncedRight) : w.Meets t := by
  rw [syncedRight_iff] at hright
  cases t with
  | cert t =>
    cases t with
    | begin r | call i env => trivial
    | worker env =>
      intro d hd
      by_contra hpre
      rw [Bool.not_eq_false] at hpre
      have hrow : (certDirName d, d) ∈ (w.certStep (.worker env)).dirs.rows := by
        change _ ∈ ((w.installs env).elim w w.install).dirs.rows
        rw [Option.mem_def.mp hd]
        exact (w.dirs.mem_put _).mpr (.inl rfl)
      -- the directory of a wildcard has another name
      obtain ⟨hname, -⟩ := hright _ hrow
      dsimp only at hname
      rw [certDirName, if_pos hpre] at hname
      rw [hname] at hpre
      exact absurd hpre Bool.false_ne_true
  | deleteCertificate domain => trivial
  | bulkDeleteCertificates domains =>
    intro d hd hsome
    refine w.dirs.find_eq_none_iff.mpr fun e he hkey => ?_
    obtain ⟨-, hlive⟩ := hright e he
    change (!(decide (e.1 ∈ domains) && (w.sys.repo.getByDomain e.1).isSome) && w.live e.1) = true
      at hlive
    rw [hkey, decide_eq_true hd, hsome] at hlive
    cases hlive

end CertWorld

/-- **Directories and records.** After every beginning of a run `SyncAllFromFilesystem` creates and
updates only records of certificates that have been issued and not been deleted, each under the
domain it has been issued for, exactly when no step of the run installs a wildcard or deletes in
bulk a domain that has a record and a directory. -/
theorem synced_right_iff (steps : List WorldStep) :
    (∀ past, past <+: steps → (CertWorld.run past).SyncedRight) ↔
      ∀ past t, past ++ [t] <+: steps → (CertWorld.run past).Meets t :=
  forall_prefix_iff CertWorld.sound_start (fun _ h => CertWorld.syncedRight_iff.mpr h.rows)
    (fun _ t h => h.step t) (fun _ _ _ hright => hright.meets) steps

/-- The steps of `IssueDomain` for a domain, until its certificate is installed. -/
def issueSteps (domain : GoString) : List WorldStep :=
  .cert (.begin (.issueDomain domain [])) ::
    (List.replicate 3 (.cert (.call 0 ⟨0, false, false, .error []⟩)) ++
      List.replicate 2 (.cert (.worker ⟨0, true, none⟩)))

/-- A certificate that is deleted in bulk has a record again after `SyncAllFromFilesystem`. -/
theorem deleted_certificate_comes_back :
    let domain := str "shop.example"
    let w := CertWorld.run (issueSteps domain ++ [.bulkDeleteCertificates [domain]])
    w.live domain = false ∧ w.sys.repo.rows = [] ∧
      (domain, domain) ∈
        (syncAllFromFilesystem w.dirs (fun _ => some (0, none)) 0 w.sys.repo).1 ∧
      ¬ w.SyncedRight := by
  have hlive : (CertWorld.run (issueSteps (str "shop.example") ++
      [.bulkDeleteCertificates [str "shop.example"]])).live (str "shop.example") = false := by
    decide
  have hsynced : (str "shop.example", str "shop.example") ∈ (syncAllFromFilesystem
      (CertWorld.run (issueSteps (str "shop.example") ++
        [.bulkDeleteCertificates [str "shop.example"]])).dirs (fun _ => some (0, none)) 0
      (CertWorld.run (issueSteps (str "shop.example") ++
        [.bulkDeleteCertificates [str "shop.example"]])).sys.repo).1 :=
    mem_syncAll.mpr ⟨rfl, by decide, rfl⟩
  refine ⟨hlive, by decide, hsynced, fun hright => ?_⟩
  obtain ⟨-, hlive'⟩ := hright _ _ _ hsynced
  rw [hlive] at hlive'
  cases hlive'

end VibesWaf
