import VibesWaf.Management.Sessions

/-!
# Passwords and the first user

Two statements write a hash into the table of users. `password_changed_by_owner` says of the one
that changes it that its request has the session of the very user and has shown the old password.
The other creates a user, in the setup of the dashboard, which counts the users first:
`setup_closed` says that it creates nobody once there is a user, except in a request that has
counted before then.
-/

namespace VibesWaf

open Interleaving Management

variable {cfg : ApiConfig} {m : Management} {activities : ℕ → Activity}
  {log past rest : List (Call Outside AuthAns)} {c : Call Outside AuthAns}

/-! ### Passwords -/

/-- The hash of a user is the one from before, or a call has written it. -/
theorem hash_origin (hwf : m.WellFormed) (bcrypt : Bcrypt) (log : List (Call Outside AuthAns))
    {u v : User} (hv : v ∈ m.users) (hu : u ∈ (after (respond bcrypt) m log).users)
    (hid : u.id = v.id) :
    u.passwordHash = v.passwordHash ∨
      ∃ past c rest, log = past ++ c :: rest ∧ c.op = .updatePassword u.id u.passwordHash := by
  induction log using List.reverseRecOn generalizing u with
  | nil => exact .inl (by rw [List.inj_on_of_nodup_map hwf.ids hu hv hid])
  | append_singleton past c ih =>
    have hbefore : ∀ w ∈ (after (respond bcrypt) m past).users, w.id = v.id →
        w.passwordHash = v.passwordHash ∨
          ∃ before d rest, past ++ [c] = before ++ d :: rest ∧
            d.op = .updatePassword w.id w.passwordHash := by
      intro w hw hwid
      refine (ih hw hwid).imp_right ?_
      rintro ⟨before, d, rest, rfl, hop⟩
      exact ⟨before, d, rest ++ [c], by simp, hop⟩
    rw [after_append] at hu
    rcases users_cases bcrypt c.input c.op (after (respond bcrypt) m past) with
      ⟨hsame, -⟩ | ⟨row, hrow, -, husers, -⟩ | ⟨id, f, hf, -, husers⟩
    · exact hbefore u (hsame ▸ hu) hid
    · rw [husers] at hu
      rcases List.mem_append.mp hu with hu | hu
      · exact hbefore u hu hid
      · -- a new row has an id that no row has had
        obtain ⟨w, hw, hwid, -⟩ := row_of_id bcrypt past hv
        have hlt := (hwf.after bcrypt past).ahead w hw
        rw [List.mem_singleton.mp hu, hrow.id_eq] at hid
        omega
    · rw [husers] at hu
      obtain ⟨w, hw, rfl⟩ := List.mem_map.mp hu
      split at hid
      next hwid =>
        rw [if_pos hwid]
        rw [hf.id_eq] at hid
        rcases hf.hash w with hsame | hop
        · rw [hsame, hf.id_eq]
          exact hbefore w hw hid
        · refine .inr ⟨past, c, [], rfl, ?_⟩
          rw [hop, hf.id_eq, hwid]
      next hwid =>
        rw [if_neg hwid]
        exact hbefore w hw hid

/-- **Only its owner changes a password.** Where a user has another hash at the end of a run than
at its start, a request has written it that had the user's session, unexpired, that had shown a
password of the hash the user had then, and the new hash is one of the new password. -/
theorem password_changed_by_owner (hwf : m.WellFormed) {moves : List (ℕ × Outside)} {u v : User}
    (hv : v ∈ m.users) (hu : u ∈ (apiRun cfg m activities moves).shared.users)
    (hid : u.id = v.id) (hhash : u.passwordHash ≠ v.passwordHash) :
    ∃ past c rest r req, (apiRun cfg m activities moves).log = past ++ c :: rest ∧
      c.op = .updatePassword u.id u.passwordHash ∧ activities c.thread = .request r ∧
      r.changePasswordBody = some req ∧
      (∃ early late row, past = early ++ late ∧ row ∈ (tablesAfter cfg m early).sessions ∧
        r.session = some row.token ∧ row.userID = u.id ∧
        ∃ clock ∈ late, clock.thread = c.thread ∧ clock.op = .now ∧
          clock.input.now ≤ row.expiresAt) ∧
      (∃ early late w, past = early ++ late ∧ w ∈ (tablesAfter cfg m early).users ∧
        w.id = u.id ∧ w.enabled = true ∧
        cfg.bcrypt.compareHashAndPassword w.passwordHash req.oldPassword = true) ∧
      ∃ random, cfg.bcrypt.generateFromPassword random req.newPassword = some u.passwordHash := by
  have h := apiRun_isHistory cfg m activities moves
  rw [show (apiRun cfg m activities moves).shared = _ from
    (run_isHistory (respond cfg.bcrypt) m _ moves).2.1] at hu
  obtain ⟨past, c, rest, hlog, hop⟩ :=
    (hash_origin hwf cfg.bcrypt _ hv hu hid).resolve_left hhash
  obtain ⟨r, hr, req, token, session, holder, w, hreq, htoken, hvalid, hholder, hid', hw, hold,
    hnew⟩ := h.request_entitled hlog hop rfl
  have hpast : ApiHistory cfg m activities past := h.of_prefix ⟨c :: rest, hlog.symm⟩
  obtain ⟨row, early, check, between, clock, between', lookup, late, _, rfl, ⟨-, -, hrow, rfl⟩,
    hclock, -, rfl⟩ := exists_check hpast hvalid
  obtain ⟨first, find, second, hsplit, -, hfound⟩ := exists_call_of_mem hholder
  obtain ⟨-, hrowid, -⟩ := mem_of_findByID hpast hsplit hfound
  obtain ⟨front, find', back, hsplit', -, hfound'⟩ := exists_call_of_mem hw
  obtain ⟨hw, hwid, hon⟩ := mem_of_findByID hpast hsplit' hfound'
  obtain ⟨front', hash, back', hsplit'', -, hhashed⟩ := exists_call_of_mem hnew
  have hgenerated := (hpast.answer_eq hsplit'' hhashed).2
  refine ⟨_, c, rest, r, req, hlog, hop, hr, hreq, ?_, ?_, _, hgenerated.symm⟩
  · exact ⟨early, _, row, rfl, hrow, htoken, hrowid.symm.trans hid', clock, by simp, hclock⟩
  · exact ⟨front, _, w, hsplit', hw, hwid, hon, hold⟩

/-- A login, and a change of the password in its session. -/
def ownerActivities : ℕ → Activity
  | 0 => .request (apiCall "POST" "/api/v1/auth/login" [])
  | 1 => .request (apiCall "PUT" "/api/v1/auth/change-password"
      [(str "session", sampleSession.token)])
  | _ => .cleanupLoop

/-- The login before the change. -/
def ownerMoves : List (ℕ × Outside) :=
  (List.replicate 7 0 ++ List.replicate 16 1).mapIdx fun n i =>
    (i, ⟨n, .none, 0, List.replicate 32 7⟩)

/-- The user after the change. -/
def changedAdmin : User :=
  { sampleAdmin with
    passwordHash := str "$2a$06$.rCVZVOThsIa97pEDOxvGuRRgzG64bvtJ0938xuqzv18d3ZpQhstC"
    lastLogin := some 6
    updatedAt := 17 }

/-- The owner has changed the password. -/
theorem password_changed_by_owner_once :
    ∃ past c rest r req, (apiRun sampleConfig sampleTables ownerActivities ownerMoves).log =
        past ++ c :: rest ∧
      c.op = .updatePassword changedAdmin.id changedAdmin.passwordHash ∧
      ownerActivities c.thread = .request r ∧ r.changePasswordBody = some req ∧
      (∃ early late row, past = early ++ late ∧
        row ∈ (tablesAfter sampleConfig sampleTables early).sessions ∧
        r.session = some row.token ∧ row.userID = changedAdmin.id ∧
        ∃ clock ∈ late, clock.thread = c.thread ∧ clock.op = .now ∧
          clock.input.now ≤ row.expiresAt) ∧
      (∃ early late w, past = early ++ late ∧
        w ∈ (tablesAfter sampleConfig sampleTables early).users ∧ w.id = changedAdmin.id ∧
        w.enabled = true ∧
        sampleConfig.bcrypt.compareHashAndPassword w.passwordHash req.oldPassword = true) ∧
      ∃ random, sampleConfig.bcrypt.generateFromPassword random req.newPassword =
        some changedAdmin.passwordHash :=
  password_changed_by_owner wellFormed_sampleTables List.mem_cons_self (by decide +kernel) rfl
    (by decide)

/-! ### The first user -/

/-- Users are not removed. -/
theorem users_ne_nil (bcrypt : Bcrypt) (log : List (Call Outside AuthAns)) (h : m.users ≠ []) :
    (after (respond bcrypt) m log).users ≠ [] := by
  obtain ⟨u, hu⟩ := List.exists_mem_of_ne_nil _ h
  obtain ⟨w, hw, -⟩ := row_of_id bcrypt log hu
  exact List.ne_nil_of_mem hw

/-- **The setup is closed** by the first user. In every run, whoever is created at a time when there
is a user is created by a request that has counted none before then; a run that begins with a user
creates nobody. -/
theorem setup_closed {moves : List (ℕ × Outside)} {user : User}
    (hlog : (apiRun cfg m activities moves).log = past ++ c :: rest)
    (hcreate : c.op = .createUser user) :
    m.users = [] ∧ ∃ r early count late, activities c.thread = .request r ∧
      past = early ++ count :: late ∧ count.thread = c.thread ∧
      count.event = ⟨.countUsers, .ok 0⟩ ∧
      ∀ before, before <+: past → (tablesAfter cfg m before).users ≠ [] →
        early ++ [count] <+: before := by
  have h := apiRun_isHistory cfg m activities moves
  obtain ⟨r, hr, hcounted⟩ := h.request_entitled hlog hcreate rfl
  obtain ⟨early, count, late, rfl, hthread, hcount⟩ := exists_call_of_mem hcounted
  have hcounting : (apiRun cfg m activities moves).log =
      early ++ count :: (late ++ c :: rest) := by simp [hlog]
  have hempty : (tablesAfter cfg m (early ++ [count])).users = [] := by
    obtain ⟨hop, hanswer⟩ := h.answer_eq hcounting hcount
    have hsame : tablesAfter cfg m (early ++ [count]) = tablesAfter cfg m early := by
      rw [tablesAfter, after_append, hop]
      rfl
    rw [hsame]
    exact List.length_eq_zero_iff.mp (query_ok hanswer).symm
  refine ⟨?_, r, early, count, late, hr, rfl, hthread, hcount, fun before hpre hne => ?_⟩
  · by_contra hne
    exact users_ne_nil cfg.bcrypt _ hne hempty
  · have hearly : early ++ [count] <+: early ++ count :: late := ⟨late, by simp⟩
    refine (List.prefix_or_prefix_of_prefix hearly hpre).resolve_right ?_
    rintro ⟨rest', hrest'⟩
    rw [← hrest', tablesAfter, after_append_list] at hempty
    exact users_ne_nil cfg.bcrypt rest' hne hempty

/-- A setup without users. -/
def setupActivities : ℕ → Activity
  | 0 => .request (apiCall "POST" "/api/v1/auth/setup" [])
  | _ => .cleanupLoop

def setupMoves : List (ℕ × Outside) :=
  (List.replicate 4 0).mapIdx fun n i => (i, ⟨n, .none, 0, List.replicate 32 7⟩)

/-- The calls of the setup. -/
def setupLog : List (Call Outside AuthAns) :=
  (apiRun sampleConfig { sampleTables with users := [] } setupActivities setupMoves).log

theorem setupLog_length : 3 < setupLog.length := by
  decide +kernel

/-- The first user is created by a request that has counted none. -/
theorem setup_closed_first :
    ([] : List User) = [] ∧ ∃ r early count late,
      setupActivities (setupLog.get ⟨3, setupLog_length⟩).thread = .request r ∧
      setupLog.take 3 = early ++ count :: late ∧
      count.thread = (setupLog.get ⟨3, setupLog_length⟩).thread ∧
      count.event = ⟨.countUsers, .ok 0⟩ ∧
      ∀ before, before <+: setupLog.take 3 →
        (tablesAfter sampleConfig { sampleTables with users := [] } before).users ≠ [] →
          early ++ [count] <+: before := by
  have hlog : setupLog = setupLog.take 3 ++
      setupLog.get ⟨3, setupLog_length⟩ :: setupLog.drop 4 := by
    rw [List.get_eq_getElem, List.cons_getElem_drop_succ, List.take_append_drop]
  have hcreate : (setupLog.get ⟨3, setupLog_length⟩).op = .createUser ⟨0, str "admin",
      sampleAdmin.passwordHash, str "admin@shop.test", str "admin", true, none, 0, 0⟩ := by
    decide +kernel
  exact setup_closed hlog hcreate

end VibesWaf
