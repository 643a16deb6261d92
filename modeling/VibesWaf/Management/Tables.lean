import VibesWaf.Management.AuthService

/-!
# The tables after a call

What a call does to the table of sessions is told row by row (`mem_sessions_respond`), so a row is
there after a log exactly when the call that put it there has none behind it that took it out
(`mem_sessions_after`). What a call does to the users is one of three things (`users_cases`):
nothing, a new row with the next id, or another hash, another switch or another login time for one
row. So the ids and the tokens stay keys, and an id keeps its name (`WellFormed.after`,
`name_of_id`).
-/

namespace VibesWaf

namespace Management

open Interleaving

variable {bcrypt : Bcrypt} {m : Management} {row : SessionRow} {o : Outside} {op : AuthOp}
  {log past : List (Call Outside AuthAns)} {c : Call Outside AuthAns}

/-- The call puts the row into the table. -/
def Opens (m : Management) (c : Call Outside AuthAns) (row : SessionRow) : Prop :=
  c.op = .createSession row.token row.userID row.expiresAt ∧ row.createdAt = c.input.now ∧
    c.input.fault ≠ .refused ∧ (∀ s ∈ m.sessions, s.token ≠ row.token) ∧
    ∃ u ∈ m.users, u.id = row.userID

/-- The call takes the row out of the table. -/
def Closes (row : SessionRow) (c : Call Outside AuthAns) : Prop :=
  c.input.fault ≠ .refused ∧
    (c.op = .deleteSession row.token ∨ c.op = .deleteExpired ∧ row.expiresAt < c.input.now)

/-- Nothing else touches the sessions. -/
theorem sessions_respond (hcreate : ∀ token id expires, op ≠ .createSession token id expires)
    (hdelete : ∀ token, op ≠ .deleteSession token) (hexpired : op ≠ .deleteExpired) :
    (respond bcrypt o op m).2.sessions = m.sessions := by
  cases op with
  | createSession token id expires => exact absurd rfl (hcreate token id expires)
  | deleteSession token => exact absurd rfl (hdelete token)
  | deleteExpired => exact absurd rfl hexpired
  | createUser user =>
    simp only [respond, exec, insertUser]
    cases o.fault <;> dsimp only <;> split <;> rfl
  | updatePassword id hash => cases h : o.fault <;> simp [respond, exec, updateUser, h]
  | updateLastLogin id => cases h : o.fault <;> simp [respond, exec, updateUser, h]
  | setEnabled id enabled => cases h : o.fault <;> simp [respond, exec, updateUser, h]
  | _ => rfl

/-- The rows after an insertion. -/
theorem mem_insertSession {token : GoString} {id expires : ℤ} :
    row ∈ (m.insertSession o token id expires).2.sessions ↔
      (row = ⟨token, id, expires, o.now⟩ ∧ (∀ s ∈ m.sessions, s.token ≠ token) ∧
        ∃ u ∈ m.users, u.id = id) ∨ row ∈ m.sessions := by
  have hfree : ((m.sessions.any fun s => s.token = token) || !m.users.any fun u => u.id = id) =
      true ↔ ¬ ((∀ s ∈ m.sessions, s.token ≠ token) ∧ ∃ u ∈ m.users, u.id = id) := by
    simp only [Bool.or_eq_true, List.any_eq_true, Bool.not_eq_true', List.any_eq_false,
      decide_eq_true_eq]
    grind
  rw [insertSession, if_congr hfree rfl rfl]
  split
  next h => simp [h]
  next h =>
    rw [not_not] at h
    rw [and_iff_left h, or_comm]
    simp

/-- **What a call does to a session.** -/
theorem mem_sessions_respond (c : Call Outside AuthAns) (m : Management) (row : SessionRow) :
    row ∈ (respond bcrypt c.input c.op m).2.sessions ↔
      m.Opens c row ∨ row ∈ m.sessions ∧ ¬ Closes row c := by
  obtain ⟨i, o, op, answer⟩ := c
  by_cases hcreate : ∃ token id expires, op = .createSession token id expires
  · obtain ⟨token, id, expires, rfl⟩ := hcreate
    have hcloses : ¬ Closes row ⟨i, o, .createSession token id expires, answer⟩ := by
      simp [Closes]
    rw [and_iff_left hcloses]
    have hrow : row = ⟨token, id, expires, o.now⟩ ↔
        (token = row.token ∧ id = row.userID ∧ expires = row.expiresAt) ∧
          row.createdAt = o.now := by
      cases row
      grind
    cases hfault : o.fault with
    | refused => simp [respond, exec, hfault, Opens]
    | none => simp only [respond, exec, hfault, mem_insertSession, Opens, hrow]; grind
    | unacknowledged => simp only [respond, exec, hfault, mem_insertSession, Opens, hrow]; grind
  have hopens : ¬ m.Opens ⟨i, o, op, answer⟩ row := fun h => hcreate ⟨_, _, _, h.1⟩
  rw [or_iff_right hopens]
  by_cases hdelete : ∃ token, op = .deleteSession token
  · obtain ⟨token, rfl⟩ := hdelete
    have hne : row.token ≠ token ↔ token ≠ row.token := ne_comm
    cases hfault : o.fault <;> simp [respond, exec, hfault, Closes, hne]
  by_cases hexpired : op = .deleteExpired
  · subst hexpired
    cases hfault : o.fault <;> simp [respond, exec, hfault, Closes]
  rw [sessions_respond (fun token id expires h => hcreate ⟨token, id, expires, h⟩)
    (fun token h => hdelete ⟨token, h⟩) hexpired]
  refine (and_iff_left ?_).symm
  rintro ⟨-, hop | hop⟩
  · exact hdelete ⟨_, hop⟩
  · exact hexpired hop.1

/-- **A session after a log**: it was there from the start, or a call has put it there, and no call
since has taken it out. -/
theorem mem_sessions_after (bcrypt : Bcrypt) (m : Management)
    (log : List (Call Outside AuthAns)) (row : SessionRow) :
    row ∈ (after (respond bcrypt) m log).sessions ↔
      (row ∈ m.sessions ∧ ∀ c ∈ log, ¬ Closes row c) ∨
      ∃ before c rest, log = before ++ c :: rest ∧
        (after (respond bcrypt) m before).Opens c row ∧ ∀ d ∈ rest, ¬ Closes row d :=
  since_iff (P := fun log => row ∈ (after (respond bcrypt) m log).sessions) fun past c _ => by
    rw [after_append]
    exact mem_sessions_respond c _ row

/-! ### Users -/

/-- The rows that `UPDATE users` changes keep their id, their name and their email address, and a
hash and a switch change only by their own statements. -/
structure Updates (op : AuthOp) (id : ℤ) (f : User → User) : Prop where
  id_eq : ∀ u, (f u).id = u.id
  username_eq : ∀ u, (f u).username = u.username
  email_eq : ∀ u, (f u).email = u.email
  hash : ∀ u, (f u).passwordHash = u.passwordHash ∨ op = .updatePassword id (f u).passwordHash
  enabled : ∀ u, (f u).enabled = u.enabled ∨ op = .setEnabled id (f u).enabled

/-- The row is the one that `INSERT INTO users` makes. -/
structure Inserts (op : AuthOp) (m : Management) (row : User) : Prop where
  id_eq : row.id = m.nextID
  op_eq : ∃ user, op = .createUser user ∧ row.username = user.username ∧
    row.email = user.email ∧ row.passwordHash = user.passwordHash ∧ row.enabled = user.enabled
  unique : ∀ u ∈ m.users, u.username ≠ row.username ∧ u.email ≠ row.email

/-- **What a call does to the users.** -/
theorem users_cases (bcrypt : Bcrypt) (o : Outside) (op : AuthOp) (m : Management) :
    ((respond bcrypt o op m).2.users = m.users ∧ m.nextID ≤ (respond bcrypt o op m).2.nextID) ∨
    (∃ row, Inserts op m row ∧ o.fault ≠ .refused ∧
      (respond bcrypt o op m).2.users = m.users ++ [row] ∧
      (respond bcrypt o op m).2.nextID = m.nextID + 1) ∨
    ∃ id f, Updates op id f ∧ (respond bcrypt o op m).2.nextID = m.nextID ∧
      (respond bcrypt o op m).2.users = m.users.map fun u => if u.id = id then f u else u := by
  have hupdate : ∀ id f, Updates op id f →
      (respond bcrypt o op m).2 = (m.exec o (m.updateUser id f)).2 →
      ((respond bcrypt o op m).2.users = m.users ∧ m.nextID ≤ (respond bcrypt o op m).2.nextID) ∨
      ∃ id f, Updates op id f ∧ (respond bcrypt o op m).2.nextID = m.nextID ∧
        (respond bcrypt o op m).2.users = m.users.map fun u => if u.id = id then f u else u := by
    intro id f hf heq
    rw [heq]
    cases hfault : o.fault with
    | refused => exact .inl (by simp [exec, hfault])
    | none => exact .inr ⟨id, f, hf, by simp [exec, hfault, updateUser]⟩
    | unacknowledged => exact .inr ⟨id, f, hf, by simp [exec, hfault, updateUser]⟩
  cases op with
  | updatePassword id hash =>
    refine (hupdate id (fun u => { u with passwordHash := hash, updatedAt := o.now })
      ?_ rfl).imp_right .inr
    exact ⟨fun _ => rfl, fun _ => rfl, fun _ => rfl, fun _ => .inr rfl, fun _ => .inl rfl⟩
  | updateLastLogin id =>
    refine (hupdate id (fun u => { u with lastLogin := some o.now }) ?_ rfl).imp_right .inr
    exact ⟨fun _ => rfl, fun _ => rfl, fun _ => rfl, fun _ => .inl rfl, fun _ => .inl rfl⟩
  | setEnabled id enabled =>
    refine (hupdate id (fun u => { u with enabled }) ?_ rfl).imp_right .inr
    exact ⟨fun _ => rfl, fun _ => rfl, fun _ => rfl, fun _ => .inl rfl, fun _ => .inr rfl⟩
  | createUser user =>
    have hinsert : ((m.insertUser o user).2.users = m.users ∧
        m.nextID ≤ (m.insertUser o user).2.nextID) ∨ ∃ row, Inserts (.createUser user) m row ∧
          (m.insertUser o user).2.users = m.users ++ [row] ∧
          (m.insertUser o user).2.nextID = m.nextID + 1 := by
      rw [insertUser]
      split
      next => exact .inl ⟨rfl, by simp⟩
      next hfree =>
        refine .inr ⟨{ user with
            id := m.nextID, lastLogin := none, createdAt := o.now, updatedAt := o.now },
          ⟨rfl, ⟨user, rfl, rfl, rfl, rfl, rfl⟩, fun u hu => ?_⟩, rfl, rfl⟩
        simp only [List.any_eq_true, not_exists, not_and, Bool.or_eq_true, decide_eq_true_eq,
          not_or] at hfree
        exact hfree u hu
    cases hfault : o.fault with
    | refused => exact .inl (by simp [respond, exec, hfault])
    | none =>
      simp only [respond, exec, hfault]
      exact hinsert.imp_right fun ⟨row, hrow, hafter⟩ => .inl ⟨row, hrow, by simp, hafter⟩
    | unacknowledged =>
      simp only [respond, exec, hfault]
      exact hinsert.imp_right fun ⟨row, hrow, hafter⟩ => .inl ⟨row, hrow, by simp, hafter⟩
  | createSession token id expires =>
    refine .inl ?_
    cases hfault : o.fault <;> simp only [respond, exec, hfault, insertSession]
    · split <;> exact ⟨rfl, le_refl _⟩
    · exact ⟨trivial, le_refl _⟩
    · split <;> exact ⟨rfl, le_refl _⟩
  | deleteSession token =>
    refine .inl ?_
    cases hfault : o.fault <;> simp [respond, exec, hfault]
  | deleteExpired =>
    refine .inl ?_
    cases hfault : o.fault <;> simp [respond, exec, hfault]
  | _ => exact .inl ⟨rfl, le_refl _⟩

/-- The ids and the tokens are keys, and the sequence is ahead of the ids. -/
structure WellFormed (m : Management) : Prop where
  ids : (m.users.map User.id).Nodup
  ahead : ∀ u ∈ m.users, u.id < m.nextID
  tokens : (m.sessions.map SessionRow.token).Nodup

/-- **One call** keeps the keys. -/
theorem WellFormed.respond (h : m.WellFormed) (bcrypt : Bcrypt) (o : Outside) (op : AuthOp) :
    (respond bcrypt o op m).2.WellFormed := by
  have hids : ((Management.respond bcrypt o op m).2.users.map User.id).Nodup ∧
      ∀ u ∈ (Management.respond bcrypt o op m).2.users,
        u.id < (Management.respond bcrypt o op m).2.nextID := by
    rcases users_cases bcrypt o op m with
      ⟨hsame, hnext⟩ | ⟨row, hrow, -, husers, hnext⟩ | ⟨id, f, hf, hnext, husers⟩
    · rw [hsame]
      exact ⟨h.ids, fun u hu => (h.ahead u hu).trans_le hnext⟩
    · rw [husers, hnext]
      constructor
      · rw [List.map_append, List.nodup_append]
        refine ⟨h.ids, by simp, ?_⟩
        rintro id hid _ hrow'
        obtain ⟨u, hu, rfl⟩ := List.mem_map.mp hid
        have hlt := h.ahead u hu
        simp only [List.map_cons, List.map_nil, List.mem_singleton] at hrow'
        rw [hrow', hrow.id_eq]
        omega
      · refine forall_mem_snoc (fun u hu => (h.ahead u hu).trans (by omega)) ?_
        rw [hrow.id_eq]
        omega
    · have hid : ∀ u : User, (if u.id = id then f u else u).id = u.id := by
        intro u
        split
        · exact hf.id_eq u
        · rfl
      rw [husers, hnext]
      constructor
      · rw [List.map_map, show User.id ∘ (fun u => if u.id = id then f u else u) = User.id from
          funext hid]
        exact h.ids
      · intro u hu
        obtain ⟨v, hv, rfl⟩ := List.mem_map.mp hu
        rw [hid]
        exact h.ahead v hv
  have htokens : ((Management.respond bcrypt o op m).2.sessions.map SessionRow.token).Nodup := by
    cases op with
    | createSession token id expires =>
      have hinsert : ((m.insertSession o token id expires).2.sessions.map
          SessionRow.token).Nodup := by
        rw [insertSession]
        split
        next => exact h.tokens
        next hfree =>
          rw [List.map_append, List.nodup_append]
          refine ⟨h.tokens, by simp, ?_⟩
          rintro _ htoken _ hlast
          obtain ⟨s, hs, rfl⟩ := List.mem_map.mp htoken
          simp only [List.map_cons, List.map_nil, List.mem_singleton] at hlast
          subst hlast
          simp only [Bool.or_eq_true, List.any_eq_true, not_or, not_exists, not_and,
            decide_eq_true_eq] at hfree
          exact hfree.1 s hs
      cases hfault : o.fault with
      | none => simpa [Management.respond, exec, hfault] using hinsert
      | refused => simpa [Management.respond, exec, hfault] using h.tokens
      | unacknowledged => simpa [Management.respond, exec, hfault] using hinsert
    | deleteSession token =>
      cases hfault : o.fault with
      | refused => simpa [Management.respond, exec, hfault] using h.tokens
      | none =>
        simp only [Management.respond, exec, hfault]
        exact h.tokens.sublist (List.filter_sublist.map _)
      | unacknowledged =>
        simp only [Management.respond, exec, hfault]
        exact h.tokens.sublist (List.filter_sublist.map _)
    | deleteExpired =>
      cases hfault : o.fault with
      | refused => simpa [Management.respond, exec, hfault] using h.tokens
      | none =>
        simp only [Management.respond, exec, hfault]
        exact h.tokens.sublist (List.filter_sublist.map _)
      | unacknowledged =>
        simp only [Management.respond, exec, hfault]
        exact h.tokens.sublist (List.filter_sublist.map _)
    | _ =>
      rw [sessions_respond (by simp) (by simp) (by simp)]
      exact h.tokens
  exact ⟨hids.1, hids.2, htokens⟩

/-- The keys after a log. -/
theorem WellFormed.after (h : m.WellFormed) (bcrypt : Bcrypt) (log : List (Call Outside AuthAns)) :
    (after (Management.respond bcrypt) m log).WellFormed := by
  induction log using List.reverseRecOn with
  | nil => exact h
  | append_singleton past c ih =>
    rw [after_append]
    exact ih.respond bcrypt _ _

/-- The row of a token is the one that is found. -/
theorem WellFormed.find_session (h : m.WellFormed) (hrow : row ∈ m.sessions) :
    m.sessions.find? (fun s => s.token = row.token) = some row := by
  have hsome : (m.sessions.find? fun s => s.token = row.token).isSome = true :=
    List.find?_isSome.mpr ⟨row, hrow, by simp⟩
  obtain ⟨s, hs⟩ := Option.isSome_iff_exists.mp hsome
  have htoken : s.token = row.token := by simpa using List.find?_some hs
  rw [hs, List.inj_on_of_nodup_map h.tokens (List.mem_of_find?_eq_some hs) hrow htoken]

/-- **An id keeps its row**, with its name, and switched on as long as nobody switches it off. -/
theorem row_of_id (bcrypt : Bcrypt) (log : List (Call Outside AuthAns)) {u : User}
    (hu : u ∈ m.users) :
    ∃ w ∈ (after (Management.respond bcrypt) m log).users, w.id = u.id ∧ w.username = u.username ∧
      (u.enabled = true → (∀ c ∈ log, c.op ≠ .setEnabled u.id false) → w.enabled = true) := by
  induction log using List.reverseRecOn with
  | nil => exact ⟨u, hu, rfl, rfl, fun henabled _ => henabled⟩
  | append_singleton past c ih =>
    obtain ⟨w, hw, hid, hname, henabled⟩ := ih
    have hbefore : u.enabled = true → (∀ d ∈ past ++ [c], d.op ≠ .setEnabled u.id false) →
        w.enabled = true := fun hu hall =>
      henabled hu fun d hd => hall d (List.mem_append_left _ hd)
    rw [after_append]
    rcases users_cases bcrypt c.input c.op (after (Management.respond bcrypt) m past) with
      ⟨hsame, -⟩ | ⟨row, -, -, husers, -⟩ | ⟨id, f, hf, -, husers⟩
    · exact ⟨w, hsame ▸ hw, hid, hname, hbefore⟩
    · exact ⟨w, husers ▸ List.mem_append_left _ hw, hid, hname, hbefore⟩
    · refine ⟨if w.id = id then f w else w, husers ▸ List.mem_map_of_mem hw, ?_⟩
      split
      next hw' =>
        refine ⟨(hf.id_eq w).trans hid, (hf.username_eq w).trans hname, fun hu hall => ?_⟩
        rcases hf.enabled w with hsame | hop
        · rw [hsame]
          exact hbefore hu hall
        · by_contra hoff
          rw [Bool.not_eq_true] at hoff
          refine hall c (by simp) ?_
          rw [hop, hoff, ← hw', hid]
      next => exact ⟨hid, hname, hbefore⟩

/-- **An id keeps its name.** -/
theorem name_of_id (h : m.WellFormed) (bcrypt : Bcrypt) (log : List (Call Outside AuthAns))
    {u v : User} (hu : u ∈ m.users) (hv : v ∈ (after (Management.respond bcrypt) m log).users)
    (hid : v.id = u.id) : v.username = u.username := by
  obtain ⟨w, hw, hwid, hwname, -⟩ := row_of_id bcrypt log hu
  rw [List.inj_on_of_nodup_map (h.after bcrypt log).ids hv hw (hid.trans hwid.symm), hwname]

end Management

end VibesWaf
