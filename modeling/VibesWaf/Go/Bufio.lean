import VibesWaf.Go.Strings
import VibesWaf.Lib.Reader

/-!
# Buffered readers of Go's `bufio`

A `BufReader` takes bytes from a reader as they come, and holds those that nobody has asked for
yet. `peek` shows the next bytes without taking them, `readString` takes a line, and `bufRead` is
the reader that goes on from there.

What a buffered reader `Holds` is what it has in its buffer and what its reader delivers: none of
the functions here changes it but by what it gives out.
-/

namespace VibesWaf

variable {σ : Type*}

/-- The errors of `bufio` itself. -/
inductive BufioError
  | noProgress
  | bufferFull

/-- `bufio.Reader`: the size of its buffer, the bytes in it, a pending error, and the reader. -/
structure BufReader (σ : Type*) where
  size : ℕ
  buffered : GoString
  err : Option (StreamEnd BufioError)
  rd : σ

section Functions

variable (read : Reader σ UInt8 BufioError)

/-- The loop of `fill`: a reader that gives nothing is asked again. -/
def fillLoop : ℕ → BufReader σ → BufReader σ
  | 0, b => { b with err := some (.error .noProgress) }
  | i + 1, b =>
    let r := read b.rd (b.size - b.buffered.length)
    let b := { b with buffered := b.buffered ++ r.items, err := r.ends, rd := r.state }
    if r.ends.isSome ∨ r.items ≠ [] then b else fillLoop i b

/-- `fill`, with `maxConsecutiveEmptyReads`. -/
def fill (b : BufReader σ) : BufReader σ :=
  fillLoop read 100 b

/-- The loops around `fill`: until there is enough, an error, or no more room. -/
def fillUntil (stop : GoString → Bool) : ℕ → BufReader σ → BufReader σ
  | 0, b => b
  | n + 1, b =>
    if stop b.buffered ∨ b.err.isSome ∨ b.size ≤ b.buffered.length then b
    else fillUntil stop n (fill read b)

/-- `Peek`; every turn of its loop adds a byte. -/
def peek (n : ℕ) (b : BufReader σ) :
    (GoString × Option (StreamEnd BufioError)) × BufReader σ :=
  let b := fillUntil read (n ≤ ·.length) n b
  if b.size < n then ((b.buffered, some (.error .bufferFull)), b)
  else if b.buffered.length < n then
    ((b.buffered, some (b.err.getD (.error .bufferFull))), { b with err := none })
  else ((b.buffered.take n, none), b)

/-- `ReadSlice`; every turn of its loop adds a byte. -/
def readSlice (delim : UInt8) (b : BufReader σ) :
    (GoString × Option (StreamEnd BufioError)) × BufReader σ :=
  let b := fillUntil read (delim ∈ ·) (b.size + 1) b
  if delim ∈ b.buffered then
    ((b.buffered.takeWhile (· ≠ delim) ++ [delim], none),
      { b with buffered := (b.buffered.dropWhile (· ≠ delim)).drop 1 })
  else
    match b.err with
    | some e => ((b.buffered, some e), { b with buffered := [], err := none })
    | none => ((b.buffered, some (.error .bufferFull)), { b with buffered := [] })

/-- `ReadString`, behind the full buffers so far; `none` when the fuel runs out. -/
def BufReader.readString (delim : UInt8) : ℕ → GoString → BufReader σ →
    Option ((GoString × Option (StreamEnd BufioError)) × BufReader σ)
  | 0, _, _ => none
  | fuel + 1, full, b =>
    match readSlice read delim b with
    | ((line, some (.error .bufferFull)), b) => BufReader.readString delim fuel (full ++ line) b
    | ((line, err), b) => some ((full ++ line, err), b)

/-- `Read` of a buffered reader. -/
def bufRead : Reader (BufReader σ) UInt8 BufioError :=
  fun b n =>
    if b.buffered ≠ [] then
      ⟨b.buffered.take n, none, { b with buffered := b.buffered.drop n }⟩
    else if n = 0 ∨ b.err.isSome then ⟨[], b.err, { b with err := none }⟩
    else if b.size ≤ n then
      -- a large read goes past the buffer
      let r := read b.rd n
      ⟨r.items, r.ends, { b with rd := r.state }⟩
    else
      let r := read b.rd b.size
      if r.items = [] then ⟨[], r.ends, { b with rd := r.state }⟩
      else
        ⟨r.items.take n, none, { b with buffered := r.items.drop n, err := r.ends, rd := r.state }⟩

/-- A reader that always gives something or ends, as a connection does. -/
def SteadyReader : Prop :=
  ∀ s n, 0 < n → (read s n).ends = none → (read s n).items ≠ []

/-- What a buffered reader holds: its buffer, and what its reader delivers up to its end. -/
structure BufReader.Holds (b : BufReader σ) (xs : GoString) : Prop where
  left : ∃ left, xs = b.buffered ++ left ∧ Delivers read .eof left b.rd
  ended : ∀ e, b.err = some e → e = .eof ∧ Ended read .eof b.rd

end Functions

/-! ### Filling the buffer -/

section Fill

variable {read : Reader σ UInt8 BufioError} {b : BufReader σ} {xs : GoString}

/-- A connection is asked once. -/
theorem fill_eq (hsteady : SteadyReader read) (hroom : b.buffered.length < b.size) :
    fill read b = { b with
      buffered := b.buffered ++ (read b.rd (b.size - b.buffered.length)).items
      err := (read b.rd (b.size - b.buffered.length)).ends
      rd := (read b.rd (b.size - b.buffered.length)).state } := by
  have hanswer : (read b.rd (b.size - b.buffered.length)).ends.isSome ∨
      (read b.rd (b.size - b.buffered.length)).items ≠ [] := by
    cases hends : (read b.rd (b.size - b.buffered.length)).ends with
    | some e => exact .inl rfl
    | none => exact .inr (hsteady _ _ (by omega) hends)
  rw [fill, fillLoop]
  exact if_pos hanswer

/-- Filling the buffer changes nothing of what there is to read. -/
theorem BufReader.Holds.fill (hsteady : SteadyReader read) (h : b.Holds read xs)
    (hroom : b.buffered.length < b.size) : (fill read b).Holds read xs := by
  obtain ⟨left, rfl, hleft⟩ := h.left
  obtain ⟨rest, rfl, -, hrest, hends⟩ := hleft.step (n := b.size - b.buffered.length) (by omega)
  rw [fill_eq hsteady hroom]
  exact ⟨⟨rest, (List.append_assoc _ _ _).symm, hrest⟩, hends⟩

/-- It fits the buffer. -/
theorem length_fill_le (hsteady : SteadyReader read) (h : b.Holds read xs)
    (hroom : b.buffered.length < b.size) : (fill read b).buffered.length ≤ b.size := by
  obtain ⟨left, rfl, hleft⟩ := h.left
  obtain ⟨rest, rfl, hle, -⟩ := hleft.step (n := b.size - b.buffered.length) (by omega)
  rw [fill_eq hsteady hroom]
  dsimp only
  rw [List.length_append]
  omega

/-- **Induction along the loops** around `fill`. -/
theorem fillUntil_induction {P : BufReader σ → Prop} {stop : GoString → Bool}
    (hfill : ∀ b, P b → stop b.buffered = false → b.err = none → b.buffered.length < b.size →
      P (fill read b)) (n : ℕ) (h : P b) : P (fillUntil read stop n b) := by
  induction n generalizing b with
  | zero => exact h
  | succ n ih =>
    rw [fillUntil]
    split
    · exact h
    · rename_i hgo
      rw [not_or, not_or, Bool.not_eq_true, Bool.not_eq_true, Option.isSome_eq_false_iff,
        Option.isNone_iff_eq_none, not_le] at hgo
      exact ih (hfill b h hgo.1 hgo.2.1 hgo.2.2)

theorem size_fillUntil (hsteady : SteadyReader read) (stop : GoString → Bool) (n : ℕ) :
    (fillUntil read stop n b).size = b.size := by
  refine fillUntil_induction (P := fun c => c.size = b.size) (fun c hc _ _ hroom => ?_) n rfl
  rw [fill_eq hsteady hroom]
  exact hc

/-- The loops end: every turn adds a byte, if it does not meet the end. -/
theorem fillUntil_spec (hsteady : SteadyReader read) (stop : GoString → Bool) (n : ℕ) :
    stop (fillUntil read stop n b).buffered = true ∨ (fillUntil read stop n b).err.isSome ∨
      (fillUntil read stop n b).size ≤ (fillUntil read stop n b).buffered.length ∨
      b.buffered.length + n ≤ (fillUntil read stop n b).buffered.length := by
  induction n generalizing b with
  | zero => exact .inr (.inr (.inr le_rfl))
  | succ n ih =>
    rw [fillUntil]
    split
    · rename_i hstop
      rcases hstop with hstop | hstop | hstop
      · exact .inl hstop
      · exact .inr (.inl hstop)
      · exact .inr (.inr (.inl hstop))
    · rename_i hgo
      rw [not_or, not_or, not_le] at hgo
      have hfill := fill_eq hsteady hgo.2.2
      have hspec := @ih (fill read b)
      by_cases hsome : (fill read b).err.isSome
      · -- the end was met: nothing more is asked
        refine .inr (.inl ?_)
        cases n with
        | zero => exact hsome
        | succ n =>
          rw [fillUntil, if_pos (.inr (.inl hsome))]
          exact hsome
      · have hnone : (read b.rd (b.size - b.buffered.length)).ends = none := by
          rw [hfill] at hsome
          simpa using hsome
        have hitems := hsteady _ _ (by omega) hnone
        have hlen : b.buffered.length + 1 ≤ (fill read b).buffered.length := by
          rw [hfill]
          have hpos := List.length_pos_iff.mpr hitems
          dsimp only
          rw [List.length_append]
          omega
        refine hspec.imp_right (Or.imp_right (Or.imp_right fun h => ?_))
        omega

end Fill

/-! ### Peeking and reading lines -/

section Lines

variable {read : Reader σ UInt8 BufioError} {b : BufReader σ} {xs : GoString}

/-- What holds after the loops around `fill`: nothing is lost, the buffer is not exceeded, and a
pending end is the end of everything. -/
theorem BufReader.Holds.fillUntil (hsteady : SteadyReader read) (h : b.Holds read xs)
    (hfit : b.buffered.length ≤ b.size) (stop : GoString → Bool) (n : ℕ) :
    (fillUntil read stop n b).Holds read xs ∧
      (VibesWaf.fillUntil read stop n b).buffered.length ≤
        (VibesWaf.fillUntil read stop n b).size := by
  refine fillUntil_induction (P := fun c => c.Holds read xs ∧ c.buffered.length ≤ c.size)
    (fun c hc _ _ hroom => ⟨hc.1.fill hsteady hroom, ?_⟩) n ⟨h, hfit⟩
  have hle := length_fill_le hsteady hc.1 hroom
  rwa [fill_eq hsteady hroom] at hle ⊢

/-- With a pending end everything is in the buffer. -/
theorem BufReader.Holds.eq_buffered (h : b.Holds read xs) (hsome : b.err.isSome) :
    b.buffered = xs ∧ b.err = some .eof ∧ Ended read .eof b.rd := by
  obtain ⟨e, he⟩ := Option.isSome_iff_exists.mp hsome
  obtain ⟨rfl, hended⟩ := h.ended e he
  obtain ⟨left, rfl, hleft⟩ := h.left
  obtain rfl := hleft.eq_nil hended
  exact ⟨(List.append_nil _).symm, he, hended⟩

/-- **Peeking** fails exactly when there is not so much to read. -/
theorem peek_spec (hsteady : SteadyReader read) (h : b.Holds read xs)
    (hfit : b.buffered.length ≤ b.size) {n : ℕ} (hn : n ≤ b.size) :
    let c := fillUntil read (n ≤ ·.length) n b
    (n ≤ c.buffered.length ∧ peek read n b = ((xs.take n, none), c)) ∨
      (xs.length < n ∧ Ended read .eof c.rd ∧
        peek read n b = ((xs, some .eof), { c with err := none })) := by
  intro c
  obtain ⟨hholds, hle⟩ := h.fillUntil hsteady hfit (n ≤ ·.length) n
  have hsize : c.size = b.size := size_fillUntil hsteady _ n
  have hpeek : peek read n b = if c.size < n then ((c.buffered, some (.error .bufferFull)), c)
      else if c.buffered.length < n then
        ((c.buffered, some (c.err.getD (.error .bufferFull))), { c with err := none })
      else ((c.buffered.take n, none), c) := rfl
  rw [hpeek, if_neg (by omega)]
  by_cases hlt : c.buffered.length < n
  · rw [if_pos hlt]
    have hsome : c.err.isSome := by
      rcases fillUntil_spec hsteady (fun s => decide (n ≤ s.length)) n (b := b) with
        hstop | hsome | hfull | hlong
      · exact absurd hlt (not_lt.mpr (of_decide_eq_true hstop))
      · exact hsome
      · exact absurd (lt_of_lt_of_le hlt hn) (not_lt.mpr (hsize ▸ hfull))
      · exact absurd hlt (not_lt.mpr (le_trans (Nat.le_add_left _ _) hlong))
    obtain ⟨hall, herr, hended⟩ := hholds.eq_buffered hsome
    rw [herr, hall]
    exact .inr ⟨hall ▸ hlt, hended, rfl⟩
  · rw [if_neg hlt]
    obtain ⟨left, hleft, -⟩ := hholds.left
    refine .inl ⟨not_lt.mp hlt, ?_⟩
    rw [hleft, List.take_append_of_le_length (not_lt.mp hlt)]

/-- A text with a delimiter is cut in one way. -/
theorem cut_unique {delim : UInt8} {a c t ys : GoString} (ha : delim ∉ a) (hc : delim ∉ c)
    (h : a ++ delim :: t = c ++ delim :: ys) : a = c ∧ t = ys := by
  have hcut := cut_append_cons ha t
  rw [h, cut_append_cons hc ys] at hcut
  obtain ⟨hfst, hsnd⟩ := Prod.ext_iff.mp hcut
  exact ⟨hfst.symm, (Option.some.inj hsnd).symm⟩

/-- What is in front of a delimiter it is not in, is in front of its whole line. -/
theorem append_of_not_mem {delim : UInt8} {a left line ys : GoString} (ha : delim ∉ a)
    (h : line ++ delim :: ys = a ++ left) :
    ∃ rest, line = a ++ rest ∧ left = rest ++ delim :: ys := by
  rcases List.append_eq_append_iff.mp h with ⟨c, rfl, hc⟩ | ⟨c, rfl, hc⟩
  · cases c with
    | nil => exact ⟨[], by simp, by simpa using hc.symm⟩
    | cons d c =>
      rw [List.cons_append, List.cons.injEq] at hc
      exact absurd (hc.1 ▸ by simp) ha
  · exact ⟨c, rfl, hc⟩

/-- **Reading a slice**: a line, if there is one in the buffer when it has been filled; or all
there is, at its end; or a full buffer without the delimiter. -/
theorem readSlice_spec (hsteady : SteadyReader read) (h : b.Holds read xs)
    (hfit : b.buffered.length ≤ b.size) (hsize : 0 < b.size) (delim : UInt8) :
    let c := fillUntil read (delim ∈ ·) (b.size + 1) b
    (∃ line rest left, delim ∉ line ∧ c.buffered = line ++ delim :: rest ∧
        xs = line ++ delim :: (rest ++ left) ∧
        readSlice read delim b = ((line ++ [delim], none), { c with buffered := rest }) ∧
        ({ c with buffered := rest } : BufReader σ).Holds read (rest ++ left)) ∨
      (delim ∉ xs ∧ Ended read .eof c.rd ∧
        readSlice read delim b = ((xs, some .eof), { c with buffered := [], err := none })) ∨
      ∃ left, delim ∉ c.buffered ∧ b.size ≤ c.buffered.length ∧ xs = c.buffered ++ left ∧
        readSlice read delim b =
          ((c.buffered, some (.error .bufferFull)), { c with buffered := [] }) ∧
        ({ c with buffered := [] } : BufReader σ).Holds read left ∧ 0 < c.size := by
  intro c
  obtain ⟨hholds, hle⟩ := h.fillUntil hsteady hfit (delim ∈ ·) (b.size + 1)
  have hsame : c.size = b.size := size_fillUntil hsteady _ _
  have hslice : readSlice read delim b = if delim ∈ c.buffered then
        ((c.buffered.takeWhile (· ≠ delim) ++ [delim], none),
          { c with buffered := (c.buffered.dropWhile (· ≠ delim)).drop 1 })
      else
        match c.err with
        | some e => ((c.buffered, some e), { c with buffered := [], err := none })
        | none => ((c.buffered, some (.error .bufferFull)), { c with buffered := [] }) := rfl
  obtain ⟨left, hxs, hleft⟩ := hholds.left
  rw [hslice]
  by_cases hmem : delim ∈ c.buffered
  · obtain ⟨line, rest, hbuf, hline⟩ := List.eq_append_cons_of_mem hmem
    have htake : ∀ d ∈ line, (decide (d ≠ delim)) = true := fun d hd =>
      decide_eq_true fun heq => hline (heq ▸ hd)
    refine .inl ⟨line, rest, left, hline, hbuf, ?_, ?_, ⟨⟨left, rfl, hleft⟩, hholds.ended⟩⟩
    · rw [hxs]
      change c.buffered ++ left = _
      rw [hbuf, List.append_assoc, List.cons_append]
    · rw [if_pos hmem, hbuf, List.takeWhile_append_of_pos htake, List.dropWhile_append_of_pos htake]
      simp
  rw [if_neg hmem]
  by_cases hsome : c.err.isSome
  · obtain ⟨hall, herr, hended⟩ := hholds.eq_buffered hsome
    change c.buffered = xs at hall
    change c.err = some .eof at herr
    rw [herr, ← hall]
    exact .inr (.inl ⟨hmem, hended, rfl⟩)
  · have herr : c.err = none := by simpa using hsome
    refine .inr (.inr ⟨left, hmem, ?_, hxs, by rw [herr], ?_,
      lt_of_lt_of_eq hsize hsame.symm⟩)
    · rcases fillUntil_spec hsteady (fun s => decide (delim ∈ s)) (b.size + 1) (b := b) with
        hstop | hsome' | hfull | hlong
      · exact absurd (of_decide_eq_true hstop) hmem
      · exact absurd hsome' hsome
      · exact le_of_eq_of_le hsame.symm hfull
      · exact le_trans (by omega) hlong
    · exact ⟨⟨left, rfl, hleft⟩, fun e he => absurd (herr ▸ he) (by simp)⟩

/-- **Reading a line** that is there. -/
theorem BufReader.readString_line (hsteady : SteadyReader read) {delim : UInt8} {line ys : GoString}
    (h : b.Holds read (line ++ delim :: ys)) (hfit : b.buffered.length ≤ b.size)
    (hsize : 0 < b.size) (hline : delim ∉ line) (full : GoString) :
    ∃ c enough, (∀ fuel, enough ≤ fuel →
        BufReader.readString read delim fuel full b = some ((full ++ line ++ [delim], none), c)) ∧
      c.Holds read ys ∧ 0 < c.size := by
  induction hlen : line.length using Nat.strongRecOn generalizing b line full with
  | ind len ih =>
    rcases readSlice_spec hsteady h hfit hsize delim with
      ⟨a, t, left, ha, -, hxs, hslice, hholds⟩ | ⟨hnone, -⟩ |
        ⟨left, hmem, hpos, hxs, hslice, hholds, hsize'⟩
    · obtain ⟨rfl, rfl⟩ := cut_unique hline ha hxs
      refine ⟨_, 1, fun fuel hfuel => ?_, hholds, ?_⟩
      · obtain ⟨fuel, rfl⟩ := Nat.exists_eq_add_of_le' hfuel
        simp only [BufReader.readString, hslice, List.append_assoc]
      · exact lt_of_lt_of_eq hsize (size_fillUntil hsteady _ _).symm
    · exact absurd (by simp) hnone
    · -- the line goes on behind a full buffer
      obtain ⟨rest, rfl, rfl⟩ := append_of_not_mem hmem hxs
      obtain ⟨c, enough, hread, hc⟩ := ih rest.length (by rw [← hlen, List.length_append]; omega)
        hholds (Nat.zero_le _) hsize' (fun hmem => hline (List.mem_append_right _ hmem))
        (full ++ _) rfl
      refine ⟨c, enough + 1, fun fuel hfuel => ?_, hc⟩
      obtain ⟨fuel, rfl⟩ := Nat.exists_eq_add_of_le' (Nat.le_of_add_left_le hfuel)
      simp only [BufReader.readString, hslice]
      rw [hread fuel (by omega)]
      simp only [List.append_assoc]

/-- **Reading a line** that is not there takes everything and fails. -/
theorem BufReader.readString_eof (hsteady : SteadyReader read) {delim : UInt8} (h : b.Holds read xs)
    (hfit : b.buffered.length ≤ b.size) (hsize : 0 < b.size) (hxs : delim ∉ xs) (full : GoString) :
    ∃ c enough, (∀ fuel, enough ≤ fuel →
        BufReader.readString read delim fuel full b = some ((full ++ xs, some .eof), c)) ∧
      Ended read .eof c.rd := by
  induction hlen : xs.length using Nat.strongRecOn generalizing b xs full with
  | ind len ih =>
    rcases readSlice_spec hsteady h hfit hsize delim with
      ⟨a, t, left, -, -, rfl, -⟩ | ⟨-, hended, hslice⟩ |
        ⟨left, -, hpos, rfl, hslice, hholds, hsize'⟩
    · exact absurd (by simp) hxs
    · refine ⟨{ fillUntil read (delim ∈ ·) (b.size + 1) b with buffered := [], err := none }, 1,
        fun fuel hfuel => ?_, hended⟩
      obtain ⟨fuel, rfl⟩ := Nat.exists_eq_add_of_le' hfuel
      simp only [BufReader.readString, hslice]
    · obtain ⟨c, enough, hread, hended⟩ := ih left.length
        (by rw [← hlen, List.length_append]; omega) hholds (Nat.zero_le _) hsize'
        (fun hmem => hxs (List.mem_append_right _ hmem)) (full ++ _) rfl
      refine ⟨c, enough + 1, fun fuel hfuel => ?_, hended⟩
      obtain ⟨fuel, rfl⟩ := Nat.exists_eq_add_of_le' (Nat.le_of_add_left_le hfuel)
      simp only [BufReader.readString, hslice]
      rw [hread fuel (by omega), List.append_assoc]

/-- What is in the buffer comes first. -/
private theorem delivers_buffered {left : GoString} {b : BufReader σ}
    (h : ∀ b' : BufReader σ, b'.buffered = [] → b'.err = b.err → b'.size = b.size → b'.rd = b.rd →
      Delivers (bufRead read) .eof left b') :
    Delivers (bufRead read) .eof (b.buffered ++ left) b := by
  induction hlen : b.buffered.length using Nat.strongRecOn generalizing b with
  | ind len ih =>
    by_cases hnil : b.buffered = []
    · rw [hnil, List.nil_append]
      exact h b hnil rfl rfl rfl
    · have hread : ∀ n, bufRead read b n =
          ⟨b.buffered.take n, none, { b with buffered := b.buffered.drop n }⟩ :=
        fun n => if_pos hnil
      have hsplit : ∀ n, b.buffered ++ left = b.buffered.take n ++ (b.buffered.drop n ++ left) := by
        intro n
        rw [← List.append_assoc, List.take_append_drop]
      have hpos := List.length_pos_iff.mpr hnil
      refine .more (fun n hn => ?_) (fun n hn e' hend => ?_) (fun n hn => ?_)
      · rw [hread]
        exact ⟨⟨_, (hsplit n).symm⟩, List.length_take_le n _⟩
      · rw [hread] at hend
        cases hend
      · rw [hread]
        dsimp only
        rw [hsplit n, List.drop_left]
        exact ih (b.buffered.drop n).length (by rw [List.length_drop]; omega)
          (b := { b with buffered := b.buffered.drop n }) h rfl

/-- At the end of its reader a buffered reader ends. -/
private theorem ended_bufRead (hended : Ended read .eof b.rd) (hbuf : b.buffered = [])
    (hsize : 0 < b.size) (herr : ∀ e, b.err = some e → e = .eof) :
    Ended (bufRead read) .eof b := by
  refine ⟨fun b => Ended read .eof b.rd ∧ b.buffered = [] ∧ 0 < b.size ∧
    ∀ e, b.err = some e → e = .eof, ⟨hended, hbuf, hsize, herr⟩, ?_⟩
  rintro b ⟨hended, hbuf, hsize, herr⟩ n hn
  rw [bufRead, if_neg (not_not.mpr hbuf)]
  by_cases hsome : n = 0 ∨ b.err.isSome
  · rw [if_pos hsome]
    obtain ⟨e, he⟩ := Option.isSome_iff_exists.mp (hsome.resolve_left hn.ne')
    exact ⟨rfl, he.trans (congrArg some (herr e he)), hended, hbuf, hsize, fun _ h => by cases h⟩
  rw [if_neg hsome]
  by_cases hlarge : b.size ≤ n
  · rw [if_pos hlarge]
    exact ⟨hended.items hn, hended.ends hn, hended.state hn, hbuf, hsize, herr⟩
  · rw [if_neg hlarge]
    dsimp only
    rw [if_pos (hended.items hsize)]
    exact ⟨rfl, hended.ends hsize, hended.state hsize, hbuf, hsize, herr⟩

/-- With an empty buffer what is read goes to the caller, or a part of it to the buffer. -/
private theorem bufRead_empty {b : BufReader σ} (hbuf : b.buffered = []) (herr : b.err = none)
    {n : ℕ} (hn : 0 < n) :
    bufRead read b n =
      if b.size ≤ n then
        ⟨(read b.rd n).items, (read b.rd n).ends, { b with rd := (read b.rd n).state }⟩
      else if (read b.rd b.size).items = [] then
        ⟨[], (read b.rd b.size).ends, { b with rd := (read b.rd b.size).state }⟩
      else
        ⟨(read b.rd b.size).items.take n, none,
          { b with
            buffered := (read b.rd b.size).items.drop n
            err := (read b.rd b.size).ends
            rd := (read b.rd b.size).state }⟩ := by
  have hsome : ¬ b.err.isSome := by simp [herr]
  rw [bufRead, if_neg (not_not.mpr hbuf), if_neg (not_or.mpr ⟨hn.ne', hsome⟩)]

/-- With an empty buffer it delivers what its reader does. -/
private theorem delivers_empty {left : GoString} {s : σ} (h : Delivers read .eof left s) :
    ∀ b : BufReader σ, b.rd = s → b.buffered = [] → 0 < b.size →
      (∀ e, b.err = some e → e = .eof ∧ Ended read .eof s) →
      Delivers (bufRead read) .eof left b := by
  induction h with
  | ended h =>
    rintro b rfl hbuf hsize hended
    exact .ended (ended_bufRead h hbuf hsize fun e he => (hended e he).1)
  | @more s xs items ends next ih =>
    rintro b rfl hbuf hsize hended
    by_cases hsome : b.err.isSome
    · obtain ⟨e, he⟩ := Option.isSome_iff_exists.mp hsome
      obtain ⟨heof, hnow⟩ := hended e he
      rw [(Delivers.more items ends next).eq_nil hnow]
      exact .ended (ended_bufRead hnow hbuf hsize fun e he => (hended e he).1)
    have herr : b.err = none := by simpa using hsome
    have hgo : ∀ s, ∀ e, ({ b with rd := s } : BufReader σ).err = some e →
        e = .eof ∧ Ended read .eof s := fun s e he => absurd (herr.symm.trans he) (by simp)
    refine .more (fun n hn => ?_) (fun n hn e' hend => ?_) (fun n hn => ?_)
    · rw [bufRead_empty hbuf herr hn]
      split
      · exact items n hn
      split
      · exact ⟨List.nil_prefix, Nat.zero_le n⟩
      · exact ⟨(List.take_prefix n _).trans (items _ hsize).1, List.length_take_le n _⟩
    · rw [bufRead_empty hbuf herr hn] at hend ⊢
      split at hend
      · rename_i hlarge
        rw [if_pos hlarge]
        obtain ⟨rfl, h⟩ := ends n hn e' hend
        exact ⟨rfl, ended_bufRead h hbuf hsize fun e he => (hgo (read b.rd n).state e he).1⟩
      rename_i hlarge
      rw [if_neg hlarge]
      split at hend
      · rename_i hempty
        rw [if_pos hempty]
        obtain ⟨rfl, h⟩ := ends b.size hsize e' hend
        exact ⟨rfl, ended_bufRead h hbuf hsize fun e he => (hgo (read b.rd b.size).state e he).1⟩
      · cases hend
    · rw [bufRead_empty hbuf herr hn]
      split
      · exact ih n hn _ rfl hbuf hsize (hgo _)
      split
      · rename_i hempty
        have hdrop := ih b.size hsize { b with rd := (read b.rd b.size).state } rfl hbuf hsize
          (hgo _)
        rw [hempty] at hdrop
        exact hdrop
      · obtain ⟨rest, hrest⟩ := (items b.size hsize).1
        have hsplit : xs = (read b.rd b.size).items.take n ++
            ((read b.rd b.size).items.drop n ++ rest) := by
          rw [← List.append_assoc, List.take_append_drop, hrest]
        have hdrop : xs.drop ((read b.rd b.size).items.take n).length =
            (read b.rd b.size).items.drop n ++ rest := by
          conv_lhs => rw [hsplit]
          rw [List.drop_left]
        have hleft : xs.drop (read b.rd b.size).items.length = rest := by
          rw [← hrest, List.drop_left]
        rw [hdrop]
        refine delivers_buffered
          (b := { b with
            buffered := (read b.rd b.size).items.drop n
            err := (read b.rd b.size).ends
            rd := (read b.rd b.size).state })
          fun c hbuf' herr' hsize' hrd' => ?_
        rw [← hleft]
        exact ih b.size hsize c hrd' hbuf' (lt_of_lt_of_eq hsize hsize'.symm)
          fun e he => ends b.size hsize e (herr'.symm.trans he)

/-- **A buffered reader delivers** what it holds. -/
theorem BufReader.Holds.delivers (h : b.Holds read xs) (hsize : 0 < b.size) :
    Delivers (bufRead read) .eof xs b := by
  obtain ⟨⟨left, rfl, hleft⟩, hended⟩ := h
  refine delivers_buffered fun b' hbuf herr hsize' hrd => ?_
  exact delivers_empty hleft b' hrd hbuf (lt_of_lt_of_eq hsize hsize'.symm)
    fun e he => hended e (herr ▸ he)

end Lines

end VibesWaf
