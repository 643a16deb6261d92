import VibesWaf.Go.Strings
import VibesWaf.Lib.Table

/-!
# The repository of certificates

The table `certificates` with its statements. Its key is the id, which comes from a sequence;
nothing keeps two rows from having the same domain. An update writes a whole record back into the row
of its id, but for the domain and the application.
-/

namespace VibesWaf

/-- `Certificate`, without the times that nobody reads. -/
structure Certificate where
  id : ℕ
  domain : GoString
  appID : GoString
  status : GoString
  issuer : GoString
  expiresAt : ℤ
  autoRenew : Bool
  lastRenewAt : Option ℤ
  lastRenewStatus : GoString
  wildcardEnabled : Bool
  wildcardStatus : GoString
  wildcardMethod : GoString
  persistTXTValue : GoString
  deriving DecidableEq

/-- The table `certificates`, with the next id of its sequence. -/
structure CertificateTable extends Table Certificate.id where
  next : ℕ
  unused : ∀ c ∈ rows, c.id < next

namespace CertificateTable

/-- The row after an update. -/
def written (cert old : Certificate) : Certificate :=
  { cert with domain := old.domain, appID := old.appID, id := old.id }

/-- `GetByDomain`. Which of several rows the database returns is not specified. -/
def getByDomain (t : CertificateTable) (domain : GoString) : Option Certificate :=
  t.rows.find? (·.domain = domain)

/-- `Create`: the record with its id, and the table. -/
def create (t : CertificateTable) (cert : Certificate) : Certificate × CertificateTable :=
  ({ cert with id := t.next },
    { toTable := t.insert { cert with id := t.next }
        (t.find_eq_none_iff.mpr fun c hc => (t.unused c hc).ne)
      next := t.next + 1
      unused := List.forall_mem_cons.mpr
        ⟨Nat.lt_succ_self _, fun c hc => Nat.lt_succ_of_lt (t.unused c hc)⟩ })

/-- `Update`; `none` is the error that there is no such certificate. -/
def update (t : CertificateTable) (cert : Certificate) : Option CertificateTable :=
  if t.rows.any (·.id = cert.id) then
    some
      { toTable := t.modify cert.id (written cert) fun _ => rfl
        next := t.next
        unused := by
          intro c hc
          obtain ⟨old, hold, rfl⟩ := (t.mem_modify _ _ _).mp hc
          split
          · exact t.unused old hold
          · exact t.unused old hold }
  else none

/-- `BulkDelete`: how many rows there were, and the table. -/
def bulkDelete (t : CertificateTable) (domains : List GoString) : ℕ × CertificateTable :=
  (t.rows.countP (·.domain ∈ domains),
    { rows := t.rows.filter (·.domain ∉ domains)
      keys := t.keys.sublist (List.filter_sublist.map _)
      next := t.next
      unused := fun c hc => t.unused c (List.mem_of_mem_filter hc) })

/-- `DeleteByDomain`; `none` is the error that there is no such certificate. -/
def deleteByDomain (t : CertificateTable) (domain : GoString) : Option CertificateTable :=
  if (t.bulkDelete [domain]).1 = 0 then none else some (t.bulkDelete [domain]).2

/-! ### What the statements do -/

section Statements

variable {t : CertificateTable} {cert : Certificate}

theorem getByDomain_eq_none_iff {domain : GoString} :
    t.getByDomain domain = none ↔ ∀ c ∈ t.rows, c.domain ≠ domain := by
  simp [getByDomain]

theorem of_getByDomain {domain : GoString} (h : t.getByDomain domain = some cert) :
    cert ∈ t.rows ∧ cert.domain = domain := by
  have hdomain := List.find?_some h
  exact ⟨List.mem_of_find?_eq_some h, of_decide_eq_true hdomain⟩

@[simp] theorem mem_create {c : Certificate} :
    c ∈ (t.create cert).2.rows ↔ c = { cert with id := t.next } ∨ c ∈ t.rows :=
  List.mem_cons

/-- An update finds the row of an id that is taken. -/
theorem exists_update {old : Certificate} (hold : old ∈ t.rows) (hid : old.id = cert.id) :
    ∃ t', t.update cert = some t' ∧
      ∀ c, c ∈ t'.rows ↔ c = written cert old ∨ c ∈ t.rows ∧ c.id ≠ cert.id := by
  have hany : t.rows.any (·.id = cert.id) = true :=
    List.any_eq_true.mpr ⟨old, hold, decide_eq_true hid⟩
  rw [update, if_pos hany]
  refine ⟨_, rfl, fun c =>
    (t.mem_modify cert.id (written cert) fun _ => rfl).trans ⟨?_, ?_⟩⟩
  · rintro ⟨s, hs, rfl⟩
    by_cases hsid : s.id = cert.id
    · rw [if_pos hsid, t.eq_of_key_eq hs hold (hsid.trans hid.symm)]
      exact .inl rfl
    · rw [if_neg hsid]
      exact .inr ⟨hs, hsid⟩
  · rintro (rfl | ⟨hc, hne⟩)
    · exact ⟨old, hold, if_pos hid⟩
    · exact ⟨c, hc, if_neg hne⟩

/-- An update changes no domain. -/
theorem domains_update {t' : CertificateTable} (h : t.update cert = some t') :
    t'.rows.map Certificate.domain = t.rows.map Certificate.domain := by
  rw [update] at h
  split at h
  · obtain rfl := Option.some.inj h
    change (t.rows.map _).map Certificate.domain = _
    rw [List.map_map]
    refine List.map_congr_left fun c _ => ?_
    rw [Function.comp_apply]
    split <;> rfl
  · cases h

@[simp] theorem mem_bulkDelete {c : Certificate} {domains : List GoString} :
    c ∈ (t.bulkDelete domains).2.rows ↔ c ∈ t.rows ∧ c.domain ∉ domains := by
  simp [bulkDelete]

end Statements

end CertificateTable

end VibesWaf
