import VibesWaf.Go.Bufio
import VibesWaf.Go.Fields

/-!
# The PROXY header of a TCP stream

`readProxyProtocolHeader` looks for a header of the PROXY protocol in front of a stream. It wraps
the connection in a buffered reader, peeks at the first six bytes and, if they are the ones of a
header, takes a line. It hands on the buffered reader if the line has at least three fields, and
otherwise the connection itself: whatever the buffer has taken from the connection by then is gone.

A connection is what arrives on it, one packet after the other. `readProxyProtocolHeader_spec` says
what each of the two outcomes leaves of the stream.
-/

namespace VibesWaf

/-! ### Connections -/

/-- What a client sends before it closes the connection, as it arrives. -/
structure TCPConn where
  arrivals : List GoString
  nonempty : ∀ a ∈ arrivals, a ≠ []

namespace TCPConn

/-- All that the client sends. -/
def stream (conn : TCPConn) : GoString :=
  conn.arrivals.flatten

/-- What is left of the first arrival. -/
private theorem nonempty_drop {a : GoString} {rest : List GoString} {n : ℕ}
    (h : ∀ x ∈ a :: rest, x ≠ []) (hlt : ¬ a.length ≤ n) : ∀ x ∈ a.drop n :: rest, x ≠ [] := by
  refine List.forall_mem_cons.mpr ⟨fun hnil => hlt (List.drop_eq_nil_iff.mp hnil), ?_⟩
  exact fun x hx => h x (List.mem_cons_of_mem a hx)

/-- `Read`: some of what has arrived, or the end of the stream. -/
def read : Reader TCPConn UInt8 BufioError :=
  fun conn n =>
    match conn with
    | ⟨[], h⟩ => ⟨[], some .eof, ⟨[], h⟩⟩
    | ⟨a :: rest, h⟩ =>
      ⟨a.take n, none,
        if hle : a.length ≤ n then ⟨rest, fun x hx => h x (List.mem_cons_of_mem a hx)⟩
        else ⟨a.drop n :: rest, nonempty_drop h hle⟩⟩

theorem steady_read : SteadyReader TCPConn.read := by
  rintro ⟨_ | ⟨a, rest⟩, h⟩ n hn hends
  · cases hends
  · have hpos := List.length_pos_iff.mpr (h a List.mem_cons_self)
    refine List.length_pos_iff.mp ?_
    change 0 < (a.take n).length
    rw [List.length_take]
    omega

/-- A connection delivers what the client sends. -/
theorem delivers_stream (conn : TCPConn) :
    Delivers TCPConn.read .eof conn.stream conn := by
  refine (delivers_script (.eof : StreamEnd BufioError) conn.arrivals).comap
    (f := TCPConn.arrivals) (fun s n => ?_) conn rfl
  obtain ⟨_ | ⟨a, rest⟩, h⟩ := s
  · rfl
  · simp only [scriptRead, TCPConn.read]
    split <;> rfl

end TCPConn

/-! ### The header -/

/-- What `readProxyProtocolHeader` hands on: the address of the header and the buffered connection,
or the connection. -/
inductive HeaderResult
  | proxied (ip : GoString) (reader : BufReader TCPConn)
  | raw (conn : TCPConn)

/-- The buffered reader around a connection. -/
def newReader (conn : TCPConn) : BufReader TCPConn :=
  ⟨128, [], none, conn⟩

/-- `readProxyProtocolHeader`; `none` when the fuel runs out. -/
def readProxyProtocolHeader (fuel : ℕ) (conn : TCPConn) : Option HeaderResult :=
  match peek TCPConn.read 6 (newReader conn) with
  | ((_, some _), br) => some (.raw br.rd)
  | ((first, none), br) =>
    if first ≠ str "PROXY " then some (.raw br.rd)
    else
      match BufReader.readString TCPConn.read 0x0A fuel [] br with
      | none => none
      | some ((_, some _), br) => some (.raw br.rd)
      | some ((line, none), br) =>
        match fields (trimRight line (str "\r\n")) with
        | _ :: _ :: ip :: _ => some (.proxied ip br)
        | _ => some (.raw br.rd)

/-! ### What the buffer takes from the connection -/

section Arrivals

variable {conn : TCPConn} {b : BufReader TCPConn}

theorem holds_newReader (conn : TCPConn) : (newReader conn).Holds TCPConn.read conn.stream :=
  ⟨⟨conn.stream, rfl, conn.delivers_stream⟩, fun e he => by cases he⟩

/-- The buffer has taken the first arrivals, and nothing is cut. -/
def Took (conn : TCPConn) (k : ℕ) (b : BufReader TCPConn) : Prop :=
  b.size = 128 ∧ b.buffered = (conn.arrivals.take k).flatten ∧ b.rd.arrivals = conn.arrivals.drop k

theorem took_newReader (conn : TCPConn) : Took conn 0 (newReader conn) :=
  ⟨rfl, rfl, rfl⟩

/-- An arrival that fits is taken whole. -/
private theorem took_fill {k : ℕ} (h : Took conn k b) (hroom : b.buffered.length < b.size)
    {a : GoString} {rest : List GoString} (hnext : conn.arrivals.drop k = a :: rest) :
    (b.buffered.length + a.length ≤ 128 → Took conn (k + 1) (fill TCPConn.read b)) ∧
      (128 < b.buffered.length + a.length → 128 ≤ (fill TCPConn.read b).buffered.length) := by
  obtain ⟨hsize, hbuf, hrd⟩ := h
  rw [fill_eq TCPConn.steady_read hroom]
  obtain ⟨size, buffered, err, arrivals, hne⟩ := b
  dsimp only at hsize hbuf hrd hroom ⊢
  subst hsize
  rw [hnext] at hrd
  subst hrd
  have htake : (conn.arrivals.take (k + 1)).flatten = buffered ++ a := by
    have hget : conn.arrivals[k]? = some a := by
      rw [← List.head?_drop, hnext]
      rfl
    rw [List.take_add_one, hget, List.flatten_append, hbuf]
    simp
  have hdrop : conn.arrivals.drop (k + 1) = rest := by
    rw [← List.drop_drop, hnext]
    rfl
  constructor
  · intro hfit
    have hle : a.length ≤ 128 - buffered.length := by omega
    refine ⟨rfl, ?_, ?_⟩
    · simp only [TCPConn.read]
      rw [List.take_of_length_le hle, htake]
    · simp only [TCPConn.read, dif_pos hle, hdrop]
  · intro hlong
    simp only [TCPConn.read, List.length_append, List.length_take]
    omega

/-- After the last arrival comes the end. -/
private theorem took_fill_end {k : ℕ} (h : Took conn k b) (hroom : b.buffered.length < b.size)
    (hnone : conn.arrivals.drop k = []) : Took conn k (fill TCPConn.read b) := by
  obtain ⟨hsize, hbuf, hrd⟩ := h
  rw [fill_eq TCPConn.steady_read hroom]
  obtain ⟨size, buffered, err, arrivals, hne⟩ := b
  dsimp only at hsize hbuf hrd ⊢
  rw [hnone] at hrd
  subst hrd
  exact ⟨hsize, (List.append_nil _).trans hbuf, hnone.symm⟩

/-- The buffer has taken whole arrivals, or is full. -/
def HoldsWhole (conn : TCPConn) (b : BufReader TCPConn) : Prop :=
  (∃ k, Took conn k b) ∨ 128 ≤ b.buffered.length ∧ b.size = 128

/-- As long as nothing is cut, the buffer fills up with whole arrivals. -/
private theorem whole_fillUntil (stop : GoString → Bool) (n : ℕ) (h : HoldsWhole conn b) :
    HoldsWhole conn (fillUntil TCPConn.read stop n b) := by
  refine fillUntil_induction (fun b hb _ _ hroom => ?_) n h
  obtain ⟨k, htook⟩ := hb.resolve_right (by omega)
  cases hnext : conn.arrivals.drop k with
  | nil => exact .inl ⟨k, took_fill_end htook hroom hnext⟩
  | cons a rest =>
    by_cases hfit : b.buffered.length + a.length ≤ 128
    · exact .inl ⟨k + 1, (took_fill htook hroom hnext).1 hfit⟩
    · refine .inr ⟨(took_fill htook hroom hnext).2 (not_le.mp hfit), ?_⟩
      rw [fill_eq TCPConn.steady_read hroom]
      exact htook.1

/-- If some arrivals fit the buffer and end it, no more than these are taken. -/
private theorem took_fillUntil {stop : GoString → Bool} {k : ℕ}
    (hfit : (conn.arrivals.take k).flatten.length ≤ 128)
    (hstop : stop (conn.arrivals.take k).flatten = true) (n : ℕ) (h : ∃ j ≤ k, Took conn j b) :
    ∃ j ≤ k, Took conn j (fillUntil TCPConn.read stop n b) := by
  refine fillUntil_induction (P := fun b => ∃ j ≤ k, Took conn j b) (fun b hb hgo _ hroom => ?_) n h
  obtain ⟨j, hle, htook⟩ := hb
  have hne : j ≠ k := by
    rintro rfl
    rw [htook.2.1, hstop] at hgo
    cases hgo
  cases hnext : conn.arrivals.drop j with
  | nil => exact ⟨j, hle, took_fill_end htook hroom hnext⟩
  | cons a rest =>
    refine ⟨j + 1, by omega, (took_fill htook hroom hnext).1 ?_⟩
    have hsplit : conn.arrivals.take k =
        conn.arrivals.take j ++ a :: rest.take (k - j - 1) := by
      obtain ⟨i, rfl⟩ := Nat.exists_eq_add_of_lt (lt_of_le_of_ne hle hne)
      rw [Nat.add_assoc, List.take_add, hnext]
      simp
    rw [hsplit, List.flatten_append, List.length_append, List.flatten_cons, List.length_append,
      ← htook.2.1] at hfit
    omega

end Arrivals

/-! ### What is handed on -/

section Outcomes

variable (conn : TCPConn)

/-- The buffer after peeking. -/
private def peeked : BufReader TCPConn :=
  fillUntil TCPConn.read (6 ≤ ·.length) 6 (newReader conn)

private theorem peeked_spec : (peeked conn).Holds TCPConn.read conn.stream ∧
    (peeked conn).buffered.length ≤ (peeked conn).size ∧ (peeked conn).size = 128 := by
  obtain ⟨hholds, hfit⟩ := (holds_newReader conn).fillUntil TCPConn.steady_read
    (by simp [newReader]) (6 ≤ ·.length) 6
  exact ⟨hholds, hfit, size_fillUntil TCPConn.steady_read _ _⟩

/-- Where no header begins, the connection is handed on without what was peeked at. -/
theorem readProxyProtocolHeader_absent (h : ¬ str "PROXY " <+: conn.stream) :
    ∃ c used left, (∀ fuel, readProxyProtocolHeader fuel conn = some (.raw c)) ∧
      conn.stream = used ++ left ∧ Delivers TCPConn.read .eof left c ∧
      (conn.stream ≠ [] → used ≠ []) := by
  rcases peek_spec TCPConn.steady_read (holds_newReader conn) (by simp [newReader])
    (n := 6) (show 6 ≤ 128 by decide) with ⟨hlong, hpeek⟩ | ⟨-, hended, hpeek⟩
  · have hfirst : conn.stream.take 6 ≠ str "PROXY " := fun heq =>
      h (heq ▸ List.take_prefix 6 conn.stream)
    obtain ⟨⟨⟨left, hstream, hleft⟩, -⟩, -⟩ := peeked_spec conn
    refine ⟨_, _, left, fun fuel => ?_, hstream, hleft, fun _ hnil => ?_⟩
    · rw [readProxyProtocolHeader, hpeek]
      exact if_pos hfirst
    · rw [peeked] at hnil
      rw [hnil] at hlong
      simp at hlong
  · refine ⟨_, conn.stream, [], fun fuel => ?_, (List.append_nil _).symm, .ended hended, id⟩
    rw [readProxyProtocolHeader, hpeek]

/-- Where a header begins, it is peeked at. -/
private theorem peek_header (hpre : str "PROXY " <+: conn.stream) :
    peek TCPConn.read 6 (newReader conn) = ((str "PROXY ", none), peeked conn) ∧
      6 ≤ (peeked conn).buffered.length := by
  rcases peek_spec TCPConn.steady_read (holds_newReader conn) (by simp [newReader])
    (n := 6) (show 6 ≤ 128 by decide) with ⟨hlong, hpeek⟩ | ⟨hshort, -⟩
  · have hfirst : conn.stream.take 6 = str "PROXY " := (List.prefix_iff_eq_take.mp hpre).symm
    rw [hpeek, hfirst]
    exact ⟨rfl, hlong⟩
  · exact absurd hpre.length_le (not_le.mpr hshort)

/-- A header that begins and has no line end takes everything. -/
theorem readProxyProtocolHeader_unended (hpre : str "PROXY " <+: conn.stream)
    (h : 0x0A ∉ conn.stream) :
    ∃ c enough, (∀ fuel, enough ≤ fuel → readProxyProtocolHeader fuel conn = some (.raw c)) ∧
      Delivers TCPConn.read .eof [] c := by
  obtain ⟨hholds, hfit, hsize⟩ := peeked_spec conn
  obtain ⟨c, enough, hread, hended⟩ :=
    BufReader.readString_eof TCPConn.steady_read hholds hfit (by omega) h []
  refine ⟨c.rd, enough, fun fuel hfuel => ?_, .ended hended⟩
  rw [readProxyProtocolHeader, (peek_header conn hpre).1]
  simp only [ne_eq, not_true_eq_false, if_false, hread fuel hfuel]

/-- A line that fits the buffer ends where an arrival does, or more than it has been taken. -/
private theorem buffered_eq_line_iff {line rest : GoString} (hpre : str "PROXY " <+: line)
    (hshort : line.length < 127)
    (hbuf : (fillUntil TCPConn.read (0x0A ∈ ·) 129 (peeked conn)).buffered =
      line ++ 0x0A :: rest) :
    rest = [] ↔ ∃ k, (conn.arrivals.take k).flatten = line ++ [0x0A] := by
  constructor
  · rintro rfl
    have hwhole : HoldsWhole conn (fillUntil TCPConn.read (0x0A ∈ ·) 129 (peeked conn)) :=
      whole_fillUntil _ _ (whole_fillUntil _ _ (.inl ⟨0, took_newReader conn⟩))
    obtain ⟨k, -, htake, -⟩ := hwhole.resolve_right fun hfull => by
      rw [hbuf, List.length_append, List.length_singleton] at hfull
      omega
    exact ⟨k, htake.symm.trans hbuf⟩
  · rintro ⟨k, htake⟩
    have hlen : (line ++ [0x0A]).length = line.length + 1 := List.length_append
    have hsix : 6 ≤ line.length := hpre.length_le
    obtain ⟨j, hle, -, hj, -⟩ : ∃ j ≤ k,
        Took conn j (fillUntil TCPConn.read (0x0A ∈ ·) 129 (peeked conn)) := by
      refine took_fillUntil (by rw [htake]; omega) (by rw [htake]; simp) 129 ?_
      refine took_fillUntil (by rw [htake]; omega) ?_ 6 ⟨0, Nat.zero_le k, took_newReader conn⟩
      rw [htake]
      exact decide_eq_true (by omega)
    -- what has been taken is a beginning of the line
    have hpre : line ++ 0x0A :: rest <+: line ++ [0x0A] := by
      rw [← hbuf, hj, ← htake]
      exact (List.take_prefix_take_left hle).flatten
    have hcons := (List.prefix_append_right_inj line).mp hpre
    exact List.prefix_nil.mp (List.cons_prefix_cons.mp hcons).2

/-- A line that fits the buffer is read in one turn. -/
private theorem readString_short {line ys : GoString}
    (hpre : str "PROXY " <+: conn.stream) (hstream : conn.stream = line ++ 0x0A :: ys)
    (hline : 0x0A ∉ line) (hshort : line.length < 127) :
    ∃ c, (∀ fuel, 1 ≤ fuel → BufReader.readString TCPConn.read 0x0A fuel [] (peeked conn) =
        some ((line ++ [0x0A], none), c)) ∧ c.Holds TCPConn.read ys ∧ 0 < c.size ∧
      (c.buffered = [] ↔ ∃ k, (conn.arrivals.take k).flatten = line ++ [0x0A]) := by
  obtain ⟨hholds, hfit, hsize⟩ := peeked_spec conn
  rcases readSlice_spec TCPConn.steady_read hholds hfit (by omega) 0x0A with
    ⟨a, rest, left, ha, hbuf, hxs, hslice, hrest⟩ | ⟨hnone, -⟩ | ⟨left, hmem, hfull, hxs, -⟩
  · obtain ⟨rfl, rfl⟩ := cut_unique ha hline (hxs.symm.trans hstream)
    refine ⟨_, fun fuel hfuel => ?_, hrest, ?_, ?_⟩
    · obtain ⟨fuel, rfl⟩ := Nat.exists_eq_add_of_le' hfuel
      simp only [BufReader.readString, hslice, List.nil_append]
    · change 0 < (fillUntil TCPConn.read _ _ (peeked conn)).size
      rw [size_fillUntil TCPConn.steady_read]
      omega
    · obtain ⟨t, ht⟩ := hpre
      obtain ⟨c, hc, -⟩ := append_of_not_mem (by decide) (hstream.symm.trans ht.symm)
      rw [hsize] at hbuf
      exact buffered_eq_line_iff conn ⟨c, hc.symm⟩ hshort hbuf
  · exact absurd (by rw [hstream]; simp) hnone
  · -- a full buffer is longer than the line
    obtain ⟨c, rfl, -⟩ := append_of_not_mem hmem (hstream.symm.trans hxs)
    rw [List.length_append] at hshort
    omega

/-- A header with a line end is taken off if it has three fields; if not, the connection is handed
on without the line and what the buffer has taken behind it. -/
theorem readProxyProtocolHeader_line (hpre : str "PROXY " <+: conn.stream) {line ys : GoString}
    (hstream : conn.stream = line ++ 0x0A :: ys) (hline : 0x0A ∉ line) :
    (∃ ip br enough,
        (∀ fuel, enough ≤ fuel → readProxyProtocolHeader fuel conn = some (.proxied ip br)) ∧
        3 ≤ (fields (trimRight (line ++ [0x0A]) (str "\r\n"))).length ∧
        br.Holds TCPConn.read ys ∧ 0 < br.size) ∨
      ∃ c taken left enough,
        (∀ fuel, enough ≤ fuel → readProxyProtocolHeader fuel conn = some (.raw c)) ∧
        (fields (trimRight (line ++ [0x0A]) (str "\r\n"))).length < 3 ∧
        ys = taken ++ left ∧ Delivers TCPConn.read .eof left c ∧
        (line.length < 127 →
          (taken = [] ↔ ∃ k, (conn.arrivals.take k).flatten = line ++ [0x0A])) := by
  -- the line is read, in one turn if it fits the buffer
  have hread : ∃ c enough, (∀ fuel, enough ≤ fuel →
        BufReader.readString TCPConn.read 0x0A fuel [] (peeked conn) =
          some ((line ++ [0x0A], none), c)) ∧
      c.Holds TCPConn.read ys ∧ 0 < c.size ∧
      (line.length < 127 →
        (c.buffered = [] ↔ ∃ k, (conn.arrivals.take k).flatten = line ++ [0x0A])) := by
    by_cases hshort : line.length < 127
    · obtain ⟨c, hread, hc, hsize, hboundary⟩ :=
        readString_short conn hpre hstream hline hshort
      exact ⟨c, 1, hread, hc, hsize, fun _ => hboundary⟩
    · obtain ⟨hholds, hfit, hsize⟩ := peeked_spec conn
      rw [hstream] at hholds
      obtain ⟨c, enough, hread, hc, hsize⟩ :=
        BufReader.readString_line TCPConn.steady_read hholds hfit (by omega) hline []
      exact ⟨c, enough, hread, hc, hsize, fun h => absurd h hshort⟩
  obtain ⟨c, enough, hread, hc, hsize, hboundary⟩ := hread
  have hheader : ∀ fuel, enough ≤ fuel → readProxyProtocolHeader fuel conn =
      match fields (trimRight (line ++ [0x0A]) (str "\r\n")) with
      | _ :: _ :: ip :: _ => some (.proxied ip c)
      | _ => some (.raw c.rd) := by
    intro fuel hfuel
    rw [readProxyProtocolHeader, (peek_header conn hpre).1]
    simp only [ne_eq, not_true_eq_false, if_false, hread fuel hfuel]
  match hfields : fields (trimRight (line ++ [0x0A]) (str "\r\n")) with
  | _ :: _ :: ip :: _ =>
    rw [hfields] at hheader
    exact .inl ⟨ip, c, enough, hheader, by simp, hc, hsize⟩
  | [] | [_] | [_, _] =>
    rw [hfields] at hheader
    obtain ⟨left, rfl, hleft⟩ := hc.left
    exact .inr ⟨c.rd, c.buffered, left, enough, hheader, by simp, rfl, hleft, hboundary⟩

end Outcomes

end VibesWaf
