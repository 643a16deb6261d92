import VibesWaf.Management.AuthService
import VibesWaf.Pipeline.Weights

/-!
# The scoring configuration

The configuration is a row of the table of settings. A request of an operator validates and writes
it; the pipeline reads a pointer in memory, which is reloaded from the row every ten seconds and
after a write. A reload is a query and then a store, and other reloads and writes come between the
two.

`settings_read` says that whatever comes in between, the pipeline never reads a configuration that
no validation has let through. `settings_current` says how old the one it reads can be: it is what
the row was when the reload that has stored last began, and so it is the row of now unless the row
has been written since.
-/

namespace VibesWaf

/-! ### The configuration -/

/-- `DefaultScoringConfig`. -/
def defaultScoringConfig : RationalConfig where
  blockThreshold := 70
  challengeThreshold := 35
  ipReputation := ⟨true, 30, 1⟩
  botDetection := ⟨true, 35, 1⟩
  wafAnomaly := ⟨true, 40, 3 / 2⟩
  protocolAnomaly := ⟨true, 35, 1⟩
  trustedHistory := -4
  trustedHistoryThreshold := 50
  stableSession := -2

/-- The errors of `ValidateScoringConfig`, with what their texts tell. -/
inductive ScoringConfigError
  | blockThreshold (n : ℤ)
  | challengeThreshold (n : ℤ)
  | notAbove (block challenge : ℤ)
  | maxScore (category : GoString) (n : ℤ)
  | multiplier (category : GoString) (q : ℚ)
  deriving DecidableEq

/-- `validateWeight`. -/
def validateWeight (name : GoString) (w : RationalWeight) : Except ScoringConfigError Unit :=
  if w.maxScore < 0 ∨ 100 < w.maxScore then .error (.maxScore name w.maxScore)
  else if w.multiplier < 0 ∨ 5 < w.multiplier then .error (.multiplier name w.multiplier)
  else .ok ()

/-- `ValidateScoringConfig`. -/
def validateScoringConfig (cfg : RationalConfig) : Except ScoringConfigError Unit :=
  if cfg.blockThreshold < 1 ∨ 100 < cfg.blockThreshold then
    .error (.blockThreshold cfg.blockThreshold)
  else if cfg.challengeThreshold < 1 ∨ 100 < cfg.challengeThreshold then
    .error (.challengeThreshold cfg.challengeThreshold)
  else if cfg.blockThreshold ≤ cfg.challengeThreshold then
    .error (.notAbove cfg.blockThreshold cfg.challengeThreshold)
  else do
    validateWeight (str "ip_reputation") cfg.ipReputation
    validateWeight (str "bot_detection") cfg.botDetection
    validateWeight (str "waf_anomaly") cfg.wafAnomaly
    validateWeight (str "protocol_anomaly") cfg.protocolAnomaly

/-- What the validation lets through. -/
structure RationalConfig.Valid (cfg : RationalConfig) : Prop where
  challenge : 1 ≤ cfg.challengeThreshold
  block : cfg.challengeThreshold < cfg.blockThreshold
  block_le : cfg.blockThreshold ≤ 100
  weight : ∀ c w, cfg.weight? c = some w →
    0 ≤ w.maxScore ∧ w.maxScore ≤ 100 ∧ 0 ≤ w.multiplier ∧ w.multiplier ≤ 5

theorem validateWeight_eq_ok_iff {name : GoString} {w : RationalWeight} :
    validateWeight name w = .ok () ↔
      0 ≤ w.maxScore ∧ w.maxScore ≤ 100 ∧ 0 ≤ w.multiplier ∧ w.multiplier ≤ 5 := by
  rw [validateWeight]
  split_ifs with hmax hmul
  · refine iff_of_false nofun ?_
    omega
  · refine iff_of_false nofun ?_
    rintro ⟨-, -, hlow, hhigh⟩
    exact hmul.elim (not_lt.mpr hlow) (not_lt.mpr hhigh)
  · rw [not_or, not_lt, not_lt] at hmax hmul
    simp [hmax, hmul]

/-- A check and then another. -/
theorem check_bind_eq_ok_iff {a b : Except ScoringConfigError Unit} :
    (do a; b) = .ok () ↔ a = .ok () ∧ b = .ok () := by
  cases a with
  | error e => exact iff_of_false nofun fun h => nomatch h.1
  | ok found => exact (and_iff_right rfl).symm

/-- **The validation** lets through the valid configurations. -/
theorem validateScoringConfig_eq_ok_iff {cfg : RationalConfig} :
    validateScoringConfig cfg = .ok () ↔ cfg.Valid := by
  rw [validateScoringConfig]
  split_ifs with hblock hchallenge hnot
  · refine iff_of_false nofun fun h => ?_
    have := h.challenge
    have := h.block
    have := h.block_le
    omega
  · refine iff_of_false nofun fun h => ?_
    have := h.challenge
    have := h.block
    have := h.block_le
    omega
  · exact iff_of_false nofun fun h => hnot.not_gt h.block
  · rw [check_bind_eq_ok_iff, check_bind_eq_ok_iff, check_bind_eq_ok_iff, validateWeight_eq_ok_iff,
      validateWeight_eq_ok_iff, validateWeight_eq_ok_iff, validateWeight_eq_ok_iff]
    constructor
    · rintro ⟨hip, hbot, hwaf, hprotocol⟩
      refine ⟨by omega, by omega, by omega, fun c w hw => ?_⟩
      cases c with
      | ipReputation => exact Option.some.inj hw ▸ hip
      | botDetection => exact Option.some.inj hw ▸ hbot
      | wafAnomaly => exact Option.some.inj hw ▸ hwaf
      | protocolAnomaly => exact Option.some.inj hw ▸ hprotocol
      | trust => cases hw
    · intro h
      exact ⟨h.weight .ipReputation _ rfl, h.weight .botDetection _ rfl,
        h.weight .wafAnomaly _ rfl, h.weight .protocolAnomaly _ rfl⟩

/-- The default passes its own validation. -/
theorem valid_defaultScoringConfig : defaultScoringConfig.Valid where
  challenge := by decide
  block := by decide
  block_le := by decide
  weight := by
    intro c w hw
    cases c <;> cases hw <;> norm_num [defaultScoringConfig]

/-! ### The row and the pointer -/

/-- The row of the configuration, and the pointer of `SettingsCache`. -/
structure Settings where
  row : Option RationalConfig
  pointer : Option RationalConfig

/-- The statements on the row, and the accesses to the pointer. -/
inductive SettingsOp
  | getScoring
  | updateScoring (cfg : RationalConfig)
  | load
  | store (cfg : RationalConfig)

/-- What is answered. -/
def SettingsOp.Answer : SettingsOp → Type
  | .getScoring => Except DBError (Option RationalConfig)
  | .updateScoring _ => Except DBError Unit
  | .load => Option RationalConfig
  | .store _ => Unit

/-- A program over the row and the pointer. -/
abbrev SettingsProgram (α : Type) : Type :=
  Program SettingsOp.Answer α

/-- The database and the pointer, given the fate of a statement. -/
def respondSettings : Resource Settings Fault SettingsOp.Answer
  | fault, .getScoring, s => (if fault = .none then .ok s.row else .error .failed, s)
  | fault, .updateScoring cfg, s =>
    (if fault = .none then .ok () else .error .failed,
      if fault = .refused then s else { s with row := some cfg })
  | _, .load, s => (s.pointer, s)
  | _, .store cfg, s => ((), { s with pointer := some cfg })

namespace SettingsProgram

def getScoring : SettingsProgram (Except DBError (Option RationalConfig)) :=
  Program.perform SettingsOp.getScoring

def updateScoring (cfg : RationalConfig) : SettingsProgram (Except DBError Unit) :=
  Program.perform (SettingsOp.updateScoring cfg)

def load : SettingsProgram (Option RationalConfig) :=
  Program.perform SettingsOp.load

def store (cfg : RationalConfig) : SettingsProgram Unit :=
  Program.perform (SettingsOp.store cfg)

end SettingsProgram

open SettingsProgram in
/-- `SettingsCache.reload`. -/
def reload : SettingsProgram Unit := do
  match ← getScoring with
  | .ok row => store (row.getD defaultScoringConfig)
  | .error _ =>
    match ← load with
    | none => store defaultScoringConfig
    | some _ => pure ()

/-- `n` ticks of `autoReload`. -/
def autoReload : ℕ → SettingsProgram Unit
  | 0 => pure ()
  | n + 1 => do
    reload
    autoReload n

/-- The answers of `UpdateScoringConfig`. -/
inductive SettingsAnswer
  | demo
  | badRequest
  | invalid (e : ScoringConfigError)
  | failed
  | ok (cfg : RationalConfig)

open SettingsProgram in
/-- `SettingsHandler.UpdateScoringConfig`, with the configuration of the body if that is one. -/
def updateScoringConfig (demoMode : Bool) (body : Option RationalConfig) :
    SettingsProgram SettingsAnswer :=
  if demoMode then pure .demo
  else
    match body with
    | none => pure .badRequest
    | some cfg =>
      match validateScoringConfig cfg with
      | .error e => pure (.invalid e)
      | .ok () => do
        match ← updateScoring cfg with
        | .error _ => pure .failed
        | .ok () => do
          reload
          pure (.ok cfg)

open SettingsProgram in
/-- A request of the pipeline: its handlers read the pointer `n` times. -/
def readSettings : ℕ → SettingsProgram (List (Option RationalConfig))
  | 0 => pure []
  | n + 1 => do
    let cfg ← load
    let rest ← readSettings n
    pure (cfg :: rest)

/-- What goes on at the same time. -/
inductive SettingsActivity
  | ticker (n : ℕ)
  | update (demoMode : Bool) (body : Option RationalConfig)
  | request (reads : ℕ)

/-- What comes of it. -/
inductive SettingsResult
  | done
  | answered (answer : SettingsAnswer)
  | read (configs : List (Option RationalConfig))

/-- The program of an activity. -/
def SettingsActivity.program : SettingsActivity → SettingsProgram SettingsResult
  | .ticker n => do
    autoReload n
    pure .done
  | .update demoMode body => do
    let answer ← updateScoringConfig demoMode body
    pure (.answered answer)
  | .request reads => do
    let configs ← readSettings reads
    pure (.read configs)

/-- `NewSettingsCache`: the first reload comes before all else. -/
def newSettings (row : Option RationalConfig) (fault : Fault) : Settings where
  row
  pointer := some (if fault = .none then row.getD defaultScoringConfig else defaultScoringConfig)

/-! ### What the programs call -/

/-- What leads a program to a call: a configuration is written when it is valid, and stored after
the query that it has been read by, or when there is none. -/
def SettingsGuard (past : List (Event SettingsOp.Answer)) : SettingsOp → Prop
  | .getScoring => True
  | .updateScoring cfg => cfg.Valid
  | .load => True
  | .store cfg =>
    (∃ row, past.getLast? = some ⟨.getScoring, .ok row⟩ ∧ cfg = row.getD defaultScoringConfig) ∨
      past.getLast? = some ⟨.load, none⟩

/-- What the result of a program tells of its calls. -/
def SettingsPost (past : List (Event SettingsOp.Answer)) : SettingsResult → Prop
  | .done => True
  | .answered _ => True
  | .read configs => ∀ cfg ∈ configs, ⟨.load, cfg⟩ ∈ past

section Safe

open Program

variable {past : List (Event SettingsOp.Answer)}

theorem reload_safe : Safe SettingsGuard reload (fun _ _ => True) past := by
  refine ⟨trivial, fun answer => ?_⟩
  cases answer with
  | ok row => exact ⟨.inl ⟨row, List.getLast?_concat, rfl⟩, fun _ => trivial⟩
  | error e =>
    refine ⟨trivial, fun answer => ?_⟩
    cases answer with
    | none => exact ⟨.inr List.getLast?_concat, fun _ => trivial⟩
    | some cfg => trivial

theorem autoReload_safe (n : ℕ) : Safe SettingsGuard (autoReload n) (fun _ _ => True) past := by
  induction n generalizing past with
  | zero => trivial
  | succ n ih => exact reload_safe.bind fun _ _ _ => ih

theorem updateScoringConfig_safe (demoMode : Bool) (body : Option RationalConfig) :
    Safe SettingsGuard (updateScoringConfig demoMode body) (fun _ _ => True) past := by
  unfold updateScoringConfig
  split_ifs
  · trivial
  · cases body with
    | none => trivial
    | some cfg =>
      dsimp only
      cases hvalid : validateScoringConfig cfg with
      | error e => trivial
      | ok found =>
        refine ⟨validateScoringConfig_eq_ok_iff.mp hvalid, fun answer => ?_⟩
        cases answer with
        | error e => trivial
        | ok done => exact reload_safe.bind fun _ _ _ => trivial

theorem readSettings_safe (n : ℕ) :
    Safe SettingsGuard (readSettings n)
      (fun past configs => ∀ cfg ∈ configs, ⟨.load, cfg⟩ ∈ past) past := by
  induction n generalizing past with
  | zero => exact fun cfg hcfg => absurd hcfg List.not_mem_nil
  | succ n ih =>
    refine ⟨trivial, fun answer => ih.bind fun events rest hrest => ?_⟩
    intro cfg hcfg
    rcases List.mem_cons.mp hcfg with rfl | hcfg
    · simp
    · exact hrest cfg hcfg

theorem settings_safe (a : SettingsActivity) : Safe SettingsGuard a.program SettingsPost [] := by
  cases a with
  | ticker n => exact (autoReload_safe n).bind fun _ _ _ => trivial
  | update demoMode body => exact (updateScoringConfig_safe demoMode body).bind fun _ _ _ => trivial
  | request reads => exact (readSettings_safe reads).bind fun _ _ h => h

end Safe

/-! ### What the log says -/

section History

open Interleaving

/-- The threads of some activities, over the row and the pointer. -/
abbrev SettingsHistory (s : Settings) (activities : ℕ → SettingsActivity)
    (log : List (Call Fault SettingsOp.Answer)) : Prop :=
  IsHistory respondSettings s (fun i => (activities i).program) log

/-- The row and the pointer after some calls. -/
abbrev settingsAfter (s : Settings) (log : List (Call Fault SettingsOp.Answer)) : Settings :=
  after respondSettings s log

/-- The call changes the row. -/
def WritesRow (c : Call Fault SettingsOp.Answer) : Prop :=
  ∃ cfg, c.op = .updateScoring cfg ∧ c.input ≠ .refused

/-- The call changes the pointer. -/
def StoresPointer (c : Call Fault SettingsOp.Answer) : Prop :=
  ∃ cfg, c.op = .store cfg

variable {s : Settings} {activities : ℕ → SettingsActivity}
  {log past rest : List (Call Fault SettingsOp.Answer)} {c : Call Fault SettingsOp.Answer}

/-- A query that is answered is answered with the row. -/
theorem getScoring_ok {fault : Fault} {row : Option RationalConfig}
    (h : Except.ok row = (respondSettings fault .getScoring s).1) : row = s.row := by
  cases fault with
  | none => exact Except.ok.inj h
  | refused | unacknowledged => cases h

/-- The row after one more call. -/
theorem row_snoc (past : List (Call Fault SettingsOp.Answer)) (c : Call Fault SettingsOp.Answer)
    {cfg : RationalConfig} :
    (settingsAfter s (past ++ [c])).row = some cfg ↔
      (c.op = .updateScoring cfg ∧ c.input ≠ .refused) ∨
        (settingsAfter s past).row = some cfg ∧ ¬ WritesRow c := by
  rw [settingsAfter, after_append]
  obtain ⟨thread, input, op, answer⟩ := c
  cases op with
  | getScoring | load | store found => simp [respondSettings, WritesRow]
  | updateScoring found =>
    rw [respondSettings]
    dsimp only
    split_ifs with hrefused <;> simp [WritesRow, hrefused]

/-- The pointer after one more call. -/
theorem pointer_snoc (past : List (Call Fault SettingsOp.Answer))
    (c : Call Fault SettingsOp.Answer) {cfg : RationalConfig} :
    (settingsAfter s (past ++ [c])).pointer = some cfg ↔
      c.op = .store cfg ∨ (settingsAfter s past).pointer = some cfg ∧ ¬ StoresPointer c := by
  rw [settingsAfter, after_append]
  obtain ⟨thread, input, op, answer⟩ := c
  cases op with
  | getScoring | load | store found => simp [respondSettings, StoresPointer]
  | updateScoring found =>
    rw [respondSettings]
    dsimp only
    split_ifs <;> simp [StoresPointer]

/-- The row is what was written last. -/
theorem row_iff {cfg : RationalConfig} :
    (settingsAfter s log).row = some cfg ↔
      (s.row = some cfg ∧ ∀ c ∈ log, ¬ WritesRow c) ∨
        ∃ before c after, log = before ++ c :: after ∧
          (c.op = .updateScoring cfg ∧ c.input ≠ .refused) ∧ ∀ d ∈ after, ¬ WritesRow d :=
  since_iff (P := fun log => (settingsAfter s log).row = some cfg) fun past c _ => row_snoc past c

/-- The pointer is what was stored last. -/
theorem pointer_iff {cfg : RationalConfig} :
    (settingsAfter s log).pointer = some cfg ↔
      (s.pointer = some cfg ∧ ∀ c ∈ log, ¬ StoresPointer c) ∨
        ∃ before c after, log = before ++ c :: after ∧ c.op = .store cfg ∧
          ∀ d ∈ after, ¬ StoresPointer d :=
  since_iff (P := fun log => (settingsAfter s log).pointer = some cfg)
    fun past c _ => pointer_snoc past c

/-- Calls that do not write leave the row. -/
theorem row_append_of_not_writes (h : ∀ d ∈ rest, ¬ WritesRow d) :
    (settingsAfter s (past ++ rest)).row = (settingsAfter s past).row := by
  induction rest using List.reverseRecOn with
  | nil => rw [List.append_nil]
  | append_singleton rest d ih =>
    have hd : ¬ WritesRow d := h d (by simp)
    rw [← ih fun e he => h e (List.mem_append_left _ he), ← List.append_assoc]
    refine Option.ext fun cfg => ?_
    rw [row_snoc, and_iff_left hd]
    exact or_iff_right fun hop => hd ⟨cfg, hop⟩

/-- There is always a pointer. -/
theorem isSome_pointer (log : List (Call Fault SettingsOp.Answer)) (h : s.pointer.isSome = true) :
    (settingsAfter s log).pointer.isSome = true := by
  induction log using List.reverseRecOn with
  | nil => exact h
  | append_singleton past c ih =>
    obtain ⟨cfg, hcfg⟩ := Option.isSome_iff_exists.mp ih
    by_cases hstores : StoresPointer c
    · obtain ⟨found, hop⟩ := hstores
      exact Option.isSome_iff_exists.mpr ⟨found, (pointer_snoc past c).mpr (.inl hop)⟩
    · exact Option.isSome_iff_exists.mpr ⟨cfg, (pointer_snoc past c).mpr (.inr ⟨hcfg, hstores⟩)⟩

/-- The row is never a configuration that has not been let through. -/
theorem valid_row (h : SettingsHistory s activities log) (hrow : ∀ cfg ∈ s.row, cfg.Valid)
    (hlog : log = past ++ rest) : ∀ cfg ∈ (settingsAfter s past).row, cfg.Valid := by
  intro cfg hcfg
  rcases row_iff.mp hcfg with ⟨hinit, -⟩ | ⟨before, c, after, rfl, ⟨hop, -⟩, -⟩
  · exact hrow cfg hinit
  · have hpast : before ++ [c] <+: log := ⟨after ++ rest, by simp [hlog]⟩
    have hguard := h.guarded (fun i => settings_safe (activities i)) hpast
    rwa [hop] at hguard

/-- **Where the pointer comes from**: it has been there from the start, or a reload has stored what
it has read before, with no call of its own in between. -/
theorem pointer_read (h : SettingsHistory s activities log) (hsome : s.pointer.isSome = true)
    (hlog : log = past ++ rest) {cfg : RationalConfig}
    (hcfg : (settingsAfter s past).pointer = some cfg) :
    (s.pointer = some cfg ∧ ∀ c ∈ past, ¬ StoresPointer c) ∨
      ∃ early read between store late, past = early ++ read :: (between ++ store :: late) ∧
        read.thread = store.thread ∧ read.op = .getScoring ∧ store.op = .store cfg ∧
        (∀ d ∈ late, ¬ StoresPointer d) ∧
        cfg = (settingsAfter s early).row.getD defaultScoringConfig := by
  rcases pointer_iff.mp hcfg with hinit | ⟨before, store, late, rfl, hop, hlate⟩
  · exact .inl hinit
  have hpast : before ++ [store] <+: log := ⟨late ++ rest, by simp [hlog]⟩
  have hguard := h.guarded (fun i => settings_safe (activities i)) hpast
  rw [hop] at hguard
  rcases hguard with ⟨row, hlast, rfl⟩ | hlast
  · obtain ⟨calls, hcalls⟩ := List.getLast?_eq_some_iff.mp hlast
    obtain ⟨early, read, between, rfl, hthread, hread, -, -⟩ := split_callsOf hcalls
    have hat : log = early ++ read :: (between ++ store :: (late ++ rest)) := by simp [hlog]
    obtain ⟨hreadop, hanswer⟩ := h.answer_eq hat hread
    refine .inr ⟨early, read, between, store, late, by simp, hthread, hreadop, hop, hlate, ?_⟩
    rw [getScoring_ok hanswer]
  · -- a program that has found no pointer has not been there
    obtain ⟨calls, hcalls⟩ := List.getLast?_eq_some_iff.mp hlast
    obtain ⟨early, load, between, rfl, -, hload, -, -⟩ := split_callsOf hcalls
    have hat : log = early ++ load :: (between ++ store :: (late ++ rest)) := by simp [hlog]
    obtain ⟨-, hanswer⟩ := h.answer_eq hat hload
    have hpointer := isSome_pointer early hsome
    rw [← show none = (settingsAfter s early).pointer from hanswer] at hpointer
    cases hpointer

/-! ### What the pipeline reads -/

/-- The run of some activities. -/
def settingsRun (row : Option RationalConfig) (fault : Fault) (activities : ℕ → SettingsActivity)
    (moves : List (ℕ × Fault)) : Interleaving Settings Fault SettingsOp.Answer SettingsResult :=
  run respondSettings (newSettings row fault) (fun i => (activities i).program) moves

theorem settingsRun_isHistory (row : Option RationalConfig) (fault : Fault)
    (activities : ℕ → SettingsActivity) (moves : List (ℕ × Fault)) :
    SettingsHistory (newSettings row fault) activities
      (settingsRun row fault activities moves).log :=
  (run_isHistory _ _ _ moves).1

/-- A configuration that is pointed to has been let through. -/
theorem valid_pointer {row : Option RationalConfig} {fault : Fault}
    (h : SettingsHistory (newSettings row fault) activities log)
    (hrow : ∀ cfg ∈ row, cfg.Valid) (hlog : log = past ++ rest) {cfg : RationalConfig}
    (hcfg : (settingsAfter (newSettings row fault) past).pointer = some cfg) : cfg.Valid := by
  have hdefault : ∀ found : Option RationalConfig, (∀ cfg ∈ found, cfg.Valid) →
      (found.getD defaultScoringConfig).Valid := by
    intro found hfound
    cases found with
    | none => exact valid_defaultScoringConfig
    | some cfg => exact hfound cfg rfl
  rcases pointer_read h rfl hlog hcfg with ⟨hinit, -⟩ |
    ⟨early, read, between, store, late, rfl, -, -, -, -, rfl⟩
  · obtain rfl := Option.some.inj hinit
    split_ifs
    · exact hdefault row hrow
    · exact valid_defaultScoringConfig
  · have hearly : log = early ++ (read :: (between ++ store :: late) ++ rest) := by simp [hlog]
    exact hdefault _ (valid_row h hrow hearly)

/-- **What the pipeline reads.** Operators write configurations, the cache reloads and the pipeline
reads, in any order of their calls, and statements fail. Each configuration that a request reads has
been let through by the validation: the thresholds are in their order, the limits and multipliers
in their range, and so a request that scores nothing is let through and one that scores all is
blocked. There never is none. -/
theorem settings_read {row : Option RationalConfig} (hrow : ∀ cfg ∈ row, cfg.Valid) {fault : Fault}
    {activities : ℕ → SettingsActivity} {moves : List (ℕ × Fault)} {i : ℕ}
    {configs : List (Option RationalConfig)}
    (hread : (settingsRun row fault activities moves).threads i = .pure (.read configs)) :
    ∀ found ∈ configs, ∃ cfg, found = some cfg ∧ cfg.Valid ∧
      (∀ score ≤ 0, scoreAction cfg.toScoringConfig score = .none) ∧
      ∀ score ≥ 100, scoreAction cfg.toScoringConfig score = .block := by
  intro found hfound
  have h := settingsRun_isHistory row fault activities moves
  have hpost := run_returns (settings_safe (activities i)) hread
  obtain ⟨past, load, rest, hlog, -, hload⟩ := exists_call_of_mem (hpost found hfound)
  obtain ⟨-, hanswer⟩ := h.answer_eq hlog hload
  obtain ⟨cfg, hcfg⟩ := Option.isSome_iff_exists.mp
    (isSome_pointer (s := newSettings row fault) past rfl)
  have hvalid := valid_pointer h hrow hlog hcfg
  refine ⟨cfg, hanswer.trans hcfg, hvalid, fun score hscore => ?_, fun score hscore => ?_⟩
  · have hblock : ¬ cfg.blockThreshold ≤ score := by
      have := hvalid.challenge
      have := hvalid.block
      omega
    have hchallenge : ¬ cfg.challengeThreshold ≤ score := by
      have := hvalid.challenge
      omega
    rw [scoreAction, RationalConfig.toScoringConfig, if_neg hblock, if_neg hchallenge]
  · exact if_pos (hvalid.block_le.trans hscore)

/-- **How old it can be.** After every run the configuration in memory is what the row was when the
reload that has stored last made its query. It is the row of now unless the row has been written
since that query: a write in between shows when the next reload has stored, and a reload that has
begun before a write can undo what the write's own reload has stored. -/
theorem settings_current (row : Option RationalConfig) (fault : Fault)
    (activities : ℕ → SettingsActivity) (moves : List (ℕ × Fault)) :
    let w := settingsRun row fault activities moves
    ∃ cfg, w.shared.pointer = some cfg ∧
      (((newSettings row fault).pointer = some cfg ∧ ∀ c ∈ w.log, ¬ StoresPointer c) ∨
        ∃ early read between store late, w.log = early ++ read :: (between ++ store :: late) ∧
          read.thread = store.thread ∧ read.op = .getScoring ∧ store.op = .store cfg ∧
          (∀ d ∈ late, ¬ StoresPointer d) ∧
          cfg = (settingsAfter (newSettings row fault) early).row.getD defaultScoringConfig ∧
          ((∀ d ∈ between ++ store :: late, ¬ WritesRow d) →
            cfg = w.shared.row.getD defaultScoringConfig)) := by
  intro w
  obtain ⟨h, hshared, -⟩ := run_isHistory respondSettings (newSettings row fault)
    (fun i => (activities i).program) moves
  change w.shared = settingsAfter (newSettings row fault) w.log at hshared
  obtain ⟨cfg, hcfg⟩ := Option.isSome_iff_exists.mp
    (isSome_pointer (s := newSettings row fault) w.log rfl)
  refine ⟨cfg, by rw [hshared, hcfg], ?_⟩
  rcases pointer_read h rfl (List.append_nil _).symm hcfg with hinit |
    ⟨early, read, between, store, late, hlog, hthread, hread, hstore, hlate, hrow⟩
  · exact .inl hinit
  refine .inr ⟨early, read, between, store, late, hlog, hthread, hread, hstore, hlate, hrow,
    fun hwrites => ?_⟩
  have hnone : ¬ WritesRow read := by
    rintro ⟨found, hop, -⟩
    rw [hread] at hop
    cases hop
  change w.log = _ at hlog
  rw [hrow, hshared, hlog, row_append_of_not_writes (List.forall_mem_cons.mpr ⟨hnone, hwrites⟩)]

end History

section Evaluated

/-- The row that the migration writes. -/
def migratedScoringConfig : RationalConfig :=
  { defaultScoringConfig with trustedHistoryThreshold := 0 }

theorem valid_migratedScoringConfig : migratedScoringConfig.Valid :=
  ⟨valid_defaultScoringConfig.challenge, valid_defaultScoringConfig.block,
    valid_defaultScoringConfig.block_le, valid_defaultScoringConfig.weight⟩

/-- What an operator makes of it. -/
def editedScoringConfig : RationalConfig :=
  { migratedScoringConfig with blockThreshold := 80, wafAnomaly := ⟨true, 40, 1⟩ }

/-- A request that reads once before and once after an operator's write. -/
theorem settings_read_migrated :
    (∃ cfg, some migratedScoringConfig = some cfg ∧ cfg.Valid ∧
        (∀ score ≤ 0, scoreAction cfg.toScoringConfig score = .none) ∧
        ∀ score ≥ 100, scoreAction cfg.toScoringConfig score = .block) ∧
      ∃ cfg, some editedScoringConfig = some cfg ∧ cfg.Valid ∧
        (∀ score ≤ 0, scoreAction cfg.toScoringConfig score = .none) ∧
        ∀ score ≥ 100, scoreAction cfg.toScoringConfig score = .block := by
  have hread := @settings_read (some migratedScoringConfig)
    (fun _ h => Option.some.inj h ▸ valid_migratedScoringConfig) .none
    (fun i => if i = 0 then .update false (some editedScoringConfig) else .request 2)
    [(1, .none), (0, .none), (0, .none), (0, .none), (1, .none)] 1
    [some migratedScoringConfig, some editedScoringConfig] rfl
  exact ⟨hread _ (by simp), hread _ (by simp)⟩

end Evaluated

end VibesWaf
