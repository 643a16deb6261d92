import Mathlib.Data.List.Basic

/-!
# Readers

A reader is asked for up to a number of items and answers with some of them, and maybe with the end
of its stream or an error. It may answer with fewer than it is asked for, with none at all, and it
may give the end together with the last items or only when it is asked again.

`Delivers` says what can be got out of a reader: whatever it is asked for, its answers add up to a
fixed sequence and then it ends in a fixed way. A reader that is read to its end by `readAll` gives
that sequence; a limited one gives a beginning of it and leaves the rest (`readAll_limit`); and two
readers one after the other deliver one sequence behind the other (`Delivers.multi`).
-/

namespace VibesWaf

variable {σ τ α ε : Type*}

/-- How a stream ends. -/
inductive StreamEnd (ε : Type*)
  | eof
  | error (e : ε)

/-- What a reader answers, and its state afterwards. -/
structure ReadResult (σ α ε : Type*) where
  items : List α
  ends : Option (StreamEnd ε)
  state : σ

/-- A reader: what it answers in a state when it is asked for up to a number of items. -/
abbrev Reader (σ α ε : Type*) :=
  σ → ℕ → ReadResult σ α ε

/-- The reader has ended, and says so whenever it is asked. -/
def Ended (read : Reader σ α ε) (e : StreamEnd ε) (s : σ) : Prop :=
  ∃ P : σ → Prop, P s ∧ ∀ t, P t → ∀ n, 0 < n →
    (read t n).items = [] ∧ (read t n).ends = some e ∧ P (read t n).state

/-- **A reader delivers** a sequence and ends: it has ended, and the sequence is empty, or each of
its answers is a beginning of the sequence, after which it delivers what is left. -/
inductive Delivers (read : Reader σ α ε) (e : StreamEnd ε) : List α → σ → Prop
  | ended {s : σ} (h : Ended read e s) : Delivers read e [] s
  | more {s : σ} {xs : List α}
      (items : ∀ n, 0 < n → (read s n).items <+: xs ∧ (read s n).items.length ≤ n)
      (ends : ∀ n, 0 < n → ∀ e', (read s n).ends = some e' → e' = e ∧ Ended read e (read s n).state)
      (next : ∀ n, 0 < n → Delivers read e (xs.drop (read s n).items.length) (read s n).state) :
      Delivers read e xs s

section Ended

variable {read : Reader σ α ε} {e : StreamEnd ε} {s : σ} {xs : List α}

theorem Ended.items (h : Ended read e s) {n : ℕ} (hn : 0 < n) : (read s n).items = [] := by
  obtain ⟨P, hs, hP⟩ := h
  exact (hP s hs n hn).1

theorem Ended.ends (h : Ended read e s) {n : ℕ} (hn : 0 < n) : (read s n).ends = some e := by
  obtain ⟨P, hs, hP⟩ := h
  exact (hP s hs n hn).2.1

theorem Ended.state (h : Ended read e s) {n : ℕ} (hn : 0 < n) : Ended read e (read s n).state := by
  obtain ⟨P, hs, hP⟩ := h
  exact ⟨P, (hP s hs n hn).2.2, hP⟩

/-- An ended reader has nothing left. -/
theorem Delivers.eq_nil (h : Delivers read e xs s) (hended : Ended read e s) : xs = [] := by
  induction h with
  | ended => rfl
  | more items ends next ih =>
    have hnil := ih 1 Nat.one_pos (hended.state Nat.one_pos)
    rw [hended.items Nat.one_pos] at hnil
    exact hnil

/-- Two readers of which one stands for the states of the other deliver the same. -/
theorem Delivers.embed {read' : Reader τ α ε} {f : σ → τ}
    (hf : ∀ s n, read' (f s) n = ⟨(read s n).items, (read s n).ends, f (read s n).state⟩)
    (h : Delivers read e xs s) : Delivers read' e xs (f s) := by
  have hended : ∀ s, Ended read e s → Ended read' e (f s) := by
    rintro s ⟨P, hs, hP⟩
    refine ⟨fun t => ∃ s, t = f s ∧ P s, ⟨s, rfl, hs⟩, ?_⟩
    rintro t ⟨s, rfl, hs⟩ n hn
    obtain ⟨hitems, hends, hstate⟩ := hP s hs n hn
    rw [hf]
    exact ⟨hitems, hends, _, rfl, hstate⟩
  induction h with
  | @ended s h => exact .ended (hended s h)
  | @more s xs items ends next ih =>
    refine .more (fun n hn => ?_) (fun n hn e' hend => ?_) (fun n hn => ?_)
    · rw [hf]
      exact items n hn
    · rw [hf] at hend ⊢
      obtain ⟨heq, h⟩ := ends n hn e' hend
      exact ⟨heq, hended _ h⟩
    · rw [hf]
      exact ih n hn

/-- A reader whose states stand for those of another delivers the same. -/
theorem Delivers.comap {read' : Reader τ α ε} {f : σ → τ}
    (hf : ∀ s n, read' (f s) n = ⟨(read s n).items, (read s n).ends, f (read s n).state⟩)
    {t : τ} (h : Delivers read' e xs t) : ∀ s, f s = t → Delivers read e xs s := by
  have hended : ∀ s, Ended read' e (f s) → Ended read e s := by
    rintro s ⟨P, hs, hP⟩
    refine ⟨fun s => P (f s), hs, fun s hs n hn => ?_⟩
    have hread := hP (f s) hs n hn
    rwa [hf] at hread
  induction h with
  | ended h =>
    rintro s rfl
    exact .ended (hended s h)
  | more items ends next ih =>
    rintro s rfl
    refine .more (fun n hn => ?_) (fun n hn e' hend => ?_) (fun n hn => ?_)
    · have hitems := items n hn
      rwa [hf] at hitems
    · have hends := ends n hn e'
      rw [hf] at hends
      obtain ⟨heq, h⟩ := hends hend
      exact ⟨heq, hended _ h⟩
    · have hnext := ih n hn
      rw [hf] at hnext
      exact hnext _ rfl

/-- **One answer** of a reader: a beginning of what it delivers, and what is left. -/
theorem Delivers.step (h : Delivers read e xs s) {n : ℕ} (hn : 0 < n) :
    ∃ rest, xs = (read s n).items ++ rest ∧ (read s n).items.length ≤ n ∧
      Delivers read e rest (read s n).state ∧
      ∀ e', (read s n).ends = some e' → e' = e ∧ Ended read e (read s n).state := by
  cases h with
  | ended hended =>
    refine ⟨[], ?_, ?_, .ended (hended.state hn), fun e' he' => ⟨?_, hended.state hn⟩⟩
    · rw [hended.items hn]
      rfl
    · rw [hended.items hn]
      exact Nat.zero_le n
    · exact Option.some.inj (he'.symm.trans (hended.ends hn))
  | more items ends next =>
    obtain ⟨⟨rest, rfl⟩, hle⟩ := items n hn
    have hnext := next n hn
    rw [List.drop_left] at hnext
    exact ⟨rest, rfl, hle, hnext, ends n hn⟩

end Ended

/-! ### Reading to the end -/

/-- `io.ReadAll`, with the room there is in its buffer after some items; `none` when the fuel runs
out. -/
def readAll (read : Reader σ α ε) (room : ℕ → ℕ) : ℕ → List α → σ →
    Option (List α × StreamEnd ε × σ)
  | 0, _, _ => none
  | fuel + 1, xs, s =>
    let r := read s (room xs.length + 1)
    match r.ends with
    | none => readAll read room fuel (xs ++ r.items) r.state
    | some e => some (xs ++ r.items, e, r.state)

/-- **Reading to the end** gives what the reader delivers, and how it ends. -/
theorem Delivers.readAll {read : Reader σ α ε} {e : StreamEnd ε} {s : σ} {xs : List α}
    (h : Delivers read e xs s) (room : ℕ → ℕ) (before : List α) :
    ∃ enough, ∀ fuel, enough ≤ fuel → ∃ t,
      VibesWaf.readAll read room fuel before s = some (before ++ xs, e, t) ∧ Ended read e t := by
  induction h generalizing before with
  | @ended s hended =>
    refine ⟨1, fun fuel hfuel => ⟨_, ?_, hended.state (Nat.succ_pos (room before.length))⟩⟩
    obtain ⟨fuel, rfl⟩ := Nat.exists_eq_add_of_le' hfuel
    simp only [VibesWaf.readAll, hended.ends (Nat.succ_pos _), hended.items (Nat.succ_pos _)]
  | @more s xs items ends next ih =>
    have hn : 0 < room before.length + 1 := Nat.succ_pos _
    obtain ⟨⟨rest, rfl⟩, -⟩ := items _ hn
    have hends := ends _ hn
    have hnext := next _ hn
    have hih := ih _ hn
    generalize hr : read s (room before.length + 1) = r at hends hnext hih
    rw [List.drop_left] at hnext hih
    cases hend : r.ends with
    | some e' =>
      obtain ⟨rfl, hended⟩ := hends e' hend
      -- the end came with the last items
      obtain rfl := hnext.eq_nil hended
      refine ⟨1, fun fuel hfuel => ⟨r.state, ?_, hended⟩⟩
      obtain ⟨fuel, rfl⟩ := Nat.exists_eq_add_of_le' hfuel
      simp only [VibesWaf.readAll, hr, hend, List.append_nil]
    | none =>
      obtain ⟨enough, henough⟩ := hih (before ++ r.items)
      refine ⟨enough + 1, fun fuel hfuel => ?_⟩
      obtain ⟨fuel, rfl⟩ := Nat.exists_eq_add_of_le' (Nat.le_of_add_left_le hfuel)
      obtain ⟨t, hread, ht⟩ := henough fuel (by omega)
      refine ⟨t, ?_, ht⟩
      simp only [VibesWaf.readAll, hr, hend]
      rw [hread, List.append_assoc]

/-! ### Limited readers -/

/-- `io.LimitReader`: the reader, and how much may still be read. -/
def limitRead (read : Reader σ α ε) : Reader (σ × ℕ) α ε :=
  fun s n =>
    if s.2 = 0 then ⟨[], some .eof, s⟩
    else
      let r := read s.1 (min n s.2)
      ⟨r.items, r.ends, (r.state, s.2 - r.items.length)⟩

/-- Nothing may be read, and nothing is. -/
private theorem readAll_limit_zero (read : Reader σ α ε) (s : σ) (room : ℕ → ℕ) (before : List α) :
    ∀ fuel, 1 ≤ fuel →
      readAll (limitRead read) room fuel before (s, 0) = some (before, .eof, (s, 0)) := by
  intro fuel hfuel
  obtain ⟨fuel, rfl⟩ := Nat.exists_eq_add_of_le' hfuel
  simp [readAll, limitRead]

/-- **Reading a limited reader to its end** gives a beginning of what the reader delivers, and
leaves the rest of it. -/
theorem readAll_limit {read : Reader σ α ε} {e : StreamEnd ε} {s : σ} {xs : List α}
    (h : Delivers read e xs s) (room : ℕ → ℕ) (before : List α) (limit : ℕ) :
    ∃ enough, ∀ fuel, enough ≤ fuel → ∃ e' t,
      readAll (limitRead read) room fuel before (s, limit) = some (before ++ xs.take limit, e', t) ∧
        Delivers read e (xs.drop limit) t.1 := by
  induction h generalizing before limit with
  | @ended s hended =>
    by_cases hzero : limit = 0
    · subst hzero
      refine ⟨1, fun fuel hfuel => ⟨.eof, (s, 0), ?_, .ended hended⟩⟩
      rw [readAll_limit_zero read s room before fuel hfuel, List.take_zero, List.append_nil]
    · have hn : 0 < min (room before.length + 1) limit := by omega
      have hstate := hended.state hn
      refine ⟨1, fun fuel hfuel =>
        ⟨e, ((read s (min (room before.length + 1) limit)).state, limit), ?_, ?_⟩⟩
      · obtain ⟨fuel, rfl⟩ := Nat.exists_eq_add_of_le' hfuel
        simp only [readAll, limitRead, if_neg hzero, hended.ends hn, hended.items hn, List.take_nil,
          List.length_nil, Nat.sub_zero]
      · rw [List.drop_nil]
        exact .ended hstate
  | @more s xs items ends next ih =>
    by_cases hzero : limit = 0
    · subst hzero
      refine ⟨1, fun fuel hfuel => ⟨.eof, (s, 0), ?_, .more items ends next⟩⟩
      rw [readAll_limit_zero read s room before fuel hfuel, List.take_zero, List.append_nil]
    have hn : 0 < min (room before.length + 1) limit := by omega
    obtain ⟨⟨rest, hxs⟩, hle⟩ := items _ hn
    have hends := ends _ hn
    have hnext := next _ hn
    have hih := ih _ hn
    generalize hr : read s (min (room before.length + 1) limit) = r at hxs hle hends hnext hih
    subst hxs
    rw [List.drop_left] at hnext hih
    have hlen : r.items.length ≤ limit := Nat.le_trans hle (Nat.min_le_right _ _)
    have htake : (r.items ++ rest).take limit = r.items ++ rest.take (limit - r.items.length) := by
      rw [List.take_append, List.take_of_length_le hlen]
    have hdrop : (r.items ++ rest).drop limit = rest.drop (limit - r.items.length) := by
      rw [List.drop_append, List.drop_of_length_le hlen, List.nil_append]
    cases hend : r.ends with
    | some e' =>
      obtain ⟨rfl, hended⟩ := hends e' hend
      -- the end came with the last items
      obtain rfl := hnext.eq_nil hended
      refine ⟨1, fun fuel hfuel => ⟨e', (r.state, limit - r.items.length), ?_, ?_⟩⟩
      · obtain ⟨fuel, rfl⟩ := Nat.exists_eq_add_of_le' hfuel
        simp only [readAll, limitRead, if_neg hzero, hr, hend]
        rw [htake, List.take_nil, List.append_nil]
      · rw [hdrop, List.drop_nil]
        exact .ended hended
    | none =>
      obtain ⟨enough, henough⟩ := hih (before ++ r.items) (limit - r.items.length)
      refine ⟨enough + 1, fun fuel hfuel => ?_⟩
      obtain ⟨fuel, rfl⟩ := Nat.exists_eq_add_of_le' (Nat.le_of_add_left_le hfuel)
      obtain ⟨e', t, hread, ht⟩ := henough fuel (by omega)
      refine ⟨e', t, ?_, hdrop ▸ ht⟩
      simp only [readAll, limitRead, if_neg hzero, hr, hend]
      rw [hread, htake, List.append_assoc]

/-! ### One reader behind the other -/

/-- `bytes.Reader`: the items that have not been read. -/
def listRead : Reader (List α) α ε :=
  fun xs n => if xs = [] then ⟨[], some .eof, []⟩ else ⟨xs.take n, none, xs.drop n⟩

/-- The readers that `io.MultiReader` still has to read. -/
inductive MultiState (τ σ : Type*)
  | first (t : τ) (s : σ)
  | second (s : σ)
  | done

/-- `multiReader.Read`, of the last reader. -/
def multiReadSecond (read : Reader σ α ε) (s : σ) (n : ℕ) : ReadResult (MultiState τ σ) α ε :=
  let r := read s n
  match r.ends with
  | some .eof => ⟨r.items, some .eof, .done⟩
  | ends => ⟨r.items, ends, .second r.state⟩

/-- `multiReader.Read` of two readers: the end of the first is not given. -/
def multiRead (read₁ : Reader τ α ε) (read₂ : Reader σ α ε) : Reader (MultiState τ σ) α ε :=
  fun state n =>
    match state with
    | .first t s =>
      let r := read₁ t n
      match r.ends with
      | some .eof =>
        if r.items ≠ [] then ⟨r.items, none, .second s⟩ else multiReadSecond read₂ s n
      | ends => ⟨r.items, ends, .first r.state s⟩
    | .second s => multiReadSecond read₂ s n
    | .done => ⟨[], some .eof, .done⟩

section Multi

variable {read : Reader σ α ε} {e : StreamEnd ε} {s : σ} {xs : List α}

/-- A multi-reader that has read everything has ended. -/
private theorem ended_done (read₁ : Reader τ α ε) (read₂ : Reader σ α ε) :
    Ended (multiRead read₁ read₂) .eof .done :=
  ⟨(· = .done), rfl, by rintro t rfl n -; exact ⟨rfl, rfl, rfl⟩⟩

/-- The last reader has ended. -/
private theorem Ended.multi (read₁ : Reader τ α ε) (h : Ended read e s) :
    Ended (multiRead read₁ read) e (.second s) := by
  refine ⟨fun m => (m = .done ∧ e = .eof) ∨ ∃ s, m = .second s ∧ Ended read e s,
    .inr ⟨s, rfl, h⟩, ?_⟩
  rintro m (⟨rfl, rfl⟩ | ⟨s, rfl, hs⟩) n hn
  · exact ⟨rfl, rfl, .inl ⟨rfl, rfl⟩⟩
  · simp only [multiRead, multiReadSecond, hs.ends hn, hs.items hn]
    cases e with
    | eof => exact ⟨rfl, rfl, .inl ⟨rfl, rfl⟩⟩
    | error x => exact ⟨rfl, rfl, .inr ⟨_, rfl, hs.state hn⟩⟩

/-- An end that comes with the last items is one of the last reader. -/
private theorem multiReadSecond_spec {n : ℕ}
    (ends : ∀ e', (read s n).ends = some e' → e' = e ∧ Ended read e (read s n).state) :
    (multiReadSecond (τ := τ) read s n).items = (read s n).items ∧
      (multiReadSecond (τ := τ) read s n).ends = (read s n).ends ∧
      ((multiReadSecond (τ := τ) read s n).state = .second (read s n).state ∨
        (multiReadSecond (τ := τ) read s n).state = .done ∧ e = .eof ∧
          (read s n).ends = some e) := by
  rw [multiReadSecond]
  cases hend : (read s n).ends with
  | none => exact ⟨rfl, rfl, .inl rfl⟩
  | some e' =>
    obtain ⟨rfl, -⟩ := ends e' hend
    cases e' with
    | eof => exact ⟨rfl, rfl, .inr ⟨rfl, rfl, rfl⟩⟩
    | error x => exact ⟨rfl, rfl, .inl rfl⟩

/-- The last reader delivers what it delivered. -/
theorem Delivers.second (read₁ : Reader τ α ε) (h : Delivers read e xs s) :
    Delivers (multiRead read₁ read) e xs (.second s) := by
  induction h with
  | ended hended => exact .ended (hended.multi read₁)
  | @more s xs items ends next ih =>
    refine .more (fun n hn => ?_) (fun n hn e' hend => ?_) (fun n hn => ?_)
    · obtain ⟨hitems, -, -⟩ := multiReadSecond_spec (τ := τ) (ends n hn)
      simp only [multiRead, hitems]
      exact items n hn
    · obtain ⟨-, hends, hstate⟩ := multiReadSecond_spec (τ := τ) (ends n hn)
      simp only [multiRead, hends] at hend
      obtain ⟨rfl, hended⟩ := ends n hn e' hend
      refine ⟨rfl, ?_⟩
      rcases hstate with hstate | ⟨hstate, rfl, -⟩
      · simp only [multiRead, hstate]
        exact hended.multi read₁
      · simp only [multiRead, hstate]
        exact ended_done read₁ read
    · obtain ⟨hitems, -, hstate⟩ := multiReadSecond_spec (τ := τ) (ends n hn)
      simp only [multiRead, hitems]
      rcases hstate with hstate | ⟨hstate, rfl, hend⟩
      · rw [hstate]
        exact ih n hn
      · rw [hstate, (next n hn).eq_nil (ends n hn _ hend).2]
        exact .ended (ended_done read₁ read)

/-- A state in which a reader answers as in another. -/
private theorem Delivers.congr {t : σ} (h : Delivers read e xs s) (heq : ∀ n, read t n = read s n) :
    Delivers read e xs t := by
  cases h with
  | ended hended =>
    refine .ended ⟨fun u => u = t ∨ Ended read e u, .inl rfl, ?_⟩
    rintro u (rfl | hu) n hn
    · rw [heq]
      exact ⟨hended.items hn, hended.ends hn, .inr (hended.state hn)⟩
    · exact ⟨hu.items hn, hu.ends hn, .inr (hu.state hn)⟩
  | more items ends next =>
    exact .more (fun n hn => by rw [heq]; exact items n hn)
      (fun n hn => by rw [heq]; exact ends n hn) fun n hn => by rw [heq]; exact next n hn

/-- **Reading one behind the other**: some items, and then what a reader delivers. -/
theorem Delivers.multi (h : Delivers read e xs s) (before : List α) :
    Delivers (multiRead listRead read) e (before ++ xs) (.first before s) := by
  induction hlen : before.length using Nat.strongRecOn generalizing before with
  | ind len ih =>
    by_cases hnil : before = []
    · subst hnil
      refine (h.second listRead).congr fun n => ?_
      simp [multiRead, listRead]
    · have hread : ∀ n, multiRead listRead read (.first before s) n =
          ⟨before.take n, none, .first (before.drop n) s⟩ := by
        intro n
        simp [multiRead, listRead, hnil]
      refine .more (fun n hn => ?_) (fun n hn e' hend => ?_) (fun n hn => ?_)
      · rw [hread]
        exact ⟨(List.take_prefix n before).trans (List.prefix_append before xs),
          List.length_take_le n before⟩
      · rw [hread] at hend
        cases hend
      · have hdrop : (before ++ xs).drop (before.take n).length = before.drop n ++ xs := by
          have hsplit : before ++ xs = before.take n ++ (before.drop n ++ xs) := by
            rw [← List.append_assoc, List.take_append_drop]
          rw [hsplit, List.drop_left]
        have hpos : 0 < before.length := List.length_pos_iff.mpr hnil
        rw [hread]
        dsimp only
        rw [hdrop]
        exact ih (before.drop n).length (by rw [List.length_drop]; omega) _ rfl

end Multi

/-! ### Scripts -/

/-- A reader with a script: its answers, as far as they fit what it is asked for. -/
def scriptRead (e : StreamEnd ε) : Reader (List (List α)) α ε :=
  fun chunks n =>
    match chunks with
    | [] => ⟨[], some e, []⟩
    | c :: rest => ⟨c.take n, none, if c.length ≤ n then rest else c.drop n :: rest⟩

/-- A script delivers its answers one behind the other. -/
theorem delivers_script (e : StreamEnd ε) (chunks : List (List α)) :
    Delivers (scriptRead e) e chunks.flatten chunks := by
  induction chunks with
  | nil => exact .ended ⟨(· = []), rfl, by rintro t rfl n -; exact ⟨rfl, rfl, rfl⟩⟩
  | cons c rest ih =>
    induction hlen : c.length using Nat.strongRecOn generalizing c with
    | ind len ihlen =>
      have hflat : ∀ n, (c :: rest).flatten = c.take n ++ (c.drop n ++ rest.flatten) := by
        intro n
        rw [List.flatten_cons, ← List.append_assoc, List.take_append_drop]
      refine .more (fun n hn => ?_) (fun n hn e' hend => ?_) (fun n hn => ?_)
      · exact ⟨⟨_, (hflat n).symm⟩, List.length_take_le n c⟩
      · cases hend
      · rw [hflat n]
        dsimp only [scriptRead]
        rw [List.drop_left]
        split
        · rename_i hle
          rw [List.drop_of_length_le hle, List.nil_append]
          exact ih
        · rename_i hlt
          exact ihlen (c.drop n).length (by rw [List.length_drop]; omega) (c.drop n) rfl

end VibesWaf
