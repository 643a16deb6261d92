import Mathlib.Data.List.Forall2
import VibesWaf.Go.Lines

/-!
# Directives of a configuration of nginx

A configuration is read byte by byte into statements. A statement is a list of words, up to a
semicolon or a brace: the name of a directive and its arguments. Words are separated by blanks and
line breaks, may stand in quotation marks, and end at no byte that a backslash escapes; a hash sign
where a word could begin starts a comment, which ends with the line. An escape is kept as it is
written, since none stands for a byte of a name or of an address. A text that nginx refuses is read
on.

What a statement says does not depend on the rest of a word that contains a semicolon. `SameReader`
relates two readers that differ in such words, and `SameReader.scan` says that they read statements
that differ in such words. So a line that ends a statement and sets nothing is as good as a
semicolon, also where quotation marks are open (`Closes.directives_iff`).
-/

namespace VibesWaf

/-! ### The reader -/

/-- A quotation mark. -/
inductive Quote
  | double
  | single
  deriving DecidableEq

/-- The byte of a quotation mark. -/
def Quote.byte : Quote → UInt8
  | .double => 0x22
  | .single => 0x27

/-- What the last byte of a word means for the next one. -/
inductive WordMark
  | plain
  | escape
  | dollar
  deriving DecidableEq

/-- Where in a statement a reader is: between its words, in a comment, or in a word, which may
stand in quotation marks. -/
inductive ConfToken
  | blank
  | comment
  | word (quote : Option Quote) (text : GoString) (mark : WordMark)
  deriving DecidableEq

/-- A reader, with the words of its statement so far. -/
structure ConfReader where
  words : List GoString
  token : ConfToken
  deriving DecidableEq

/-- A blank or a line break. -/
def isConfBlank (c : UInt8) : Bool :=
  c == 0x20 || c == 0x09 || c == 0x0D || c == 0x0A

/-- A statement has words. -/
def statement (words : List GoString) : List (List GoString) :=
  if words = [] then [] else [words]

theorem statement_append (words : List GoString) (w : GoString) :
    statement (words ++ [w]) = [words ++ [w]] :=
  if_neg (List.append_ne_nil_of_right_ne_nil words (List.cons_ne_nil w []))

/-- The mark of a byte that is not escaped. -/
def wordMark (c : UInt8) : WordMark :=
  if c = 0x5C then .escape else if c = 0x24 then .dollar else .plain

/-- A byte between two words. -/
def ConfReader.readBlank (words : List GoString) (c : UInt8) : ConfReader × List (List GoString) :=
  if isConfBlank c then (⟨words, .blank⟩, [])
  else if c = 0x3B ∨ c = 0x7B ∨ c = 0x7D then (⟨[], .blank⟩, statement words)
  else if c = 0x23 then (⟨words, .comment⟩, [])
  else if c = 0x22 then (⟨words, .word (some .double) [] .plain⟩, [])
  else if c = 0x27 then (⟨words, .word (some .single) [] .plain⟩, [])
  else (⟨words, .word none [c] (wordMark c)⟩, [])

/-- A byte in a word, or the one that ends it. A brace behind a dollar sign belongs to the word. -/
def ConfReader.readWord (words : List GoString) (quote : Option Quote) (text : GoString)
    (mark : WordMark) (c : UInt8) : ConfReader × List (List GoString) :=
  if mark = .escape then (⟨words, .word quote (text ++ [c]) .plain⟩, [])
  else if mark = .dollar ∧ c = 0x7B then (⟨words, .word quote (text ++ [c]) .dollar⟩, [])
  else
    match quote with
    | some q =>
      if c = q.byte then (⟨words ++ [text], .blank⟩, [])
      else (⟨words, .word quote (text ++ [c]) (wordMark c)⟩, [])
    | none =>
      if isConfBlank c then (⟨words ++ [text], .blank⟩, [])
      else if c = 0x3B ∨ c = 0x7B then (⟨[], .blank⟩, [words ++ [text]])
      else (⟨words, .word quote (text ++ [c]) (wordMark c)⟩, [])

namespace ConfReader

/-- A reader at the beginning of a text. -/
def start : ConfReader :=
  ⟨[], .blank⟩

/-- One byte, with the statement that it ends. -/
def read (r : ConfReader) (c : UInt8) : ConfReader × List (List GoString) :=
  match r.token with
  | .blank => readBlank r.words c
  | .comment => (if c = 0x0A then ⟨r.words, .blank⟩ else r, [])
  | .word quote text mark => readWord r.words quote text mark c

/-- A text, with the statements that end in it. -/
def scan (r : ConfReader) : GoString → ConfReader × List (List GoString)
  | [] => (r, [])
  | c :: s => (((r.read c).1.scan s).1, (r.read c).2 ++ ((r.read c).1.scan s).2)

theorem scan_append (r : ConfReader) (s t : GoString) :
    r.scan (s ++ t) = (((r.scan s).1.scan t).1, (r.scan s).2 ++ ((r.scan s).1.scan t).2) := by
  induction s generalizing r with
  | nil => rfl
  | cons c s ih =>
    rw [List.cons_append, scan, scan, ih]
    dsimp only
    rw [List.append_assoc]

end ConfReader

/-- The directives of a text: its statements. -/
def directives (text : GoString) : List (List GoString) :=
  (ConfReader.start.scan text).2

/-- Every directive of a name has a value as its first argument. -/
def Sets (name value : GoString) (statements : List (List GoString)) : Prop :=
  ∀ words ∈ statements, words.head? = some name → words[1]? = some value

instance (name value : GoString) (statements : List (List GoString)) :
    Decidable (Sets name value statements) :=
  inferInstanceAs (Decidable (∀ words ∈ statements, _ → _))

theorem sets_append {name value : GoString} {l l' : List (List GoString)} :
    Sets name value (l ++ l') ↔ Sets name value l ∧ Sets name value l' :=
  List.forall_mem_append

/-- More words in a statement set nothing, unless it has none yet or they are what is set. -/
theorem sets_append_words {name value : GoString} {more : List GoString}
    (hmore : Sets name value [more]) (hhead : more.head? ≠ some value) (words : List GoString) :
    Sets name value [words ++ more] ↔ Sets name value (statement words) := by
  rcases words with _ | ⟨first, _ | ⟨second, rest⟩⟩
  · exact iff_of_true hmore fun _ h => absurd h List.not_mem_nil
  · rw [List.head?_eq_getElem?] at hhead
    simp [Sets, statement, hhead]
  · simp [Sets, statement]

/-! ### Words with a semicolon -/

/-- Two words are one word, or both contain a semicolon. -/
def SameWord (w w' : GoString) : Prop :=
  w = w' ∨ (0x3B ∈ w ∧ 0x3B ∈ w')

namespace SameWord

variable {w w' : GoString}

theorem refl (w : GoString) : SameWord w w :=
  .inl rfl

instance : Std.Refl SameWord :=
  ⟨refl⟩

theorem append (h : SameWord w w') (t : GoString) : SameWord (w ++ t) (w' ++ t) := by
  rcases h with rfl | ⟨hw, hw'⟩
  · exact .refl _
  · exact .inr ⟨List.mem_append_left t hw, List.mem_append_left t hw'⟩

/-- A word without a semicolon is told from both or from none. -/
theorem eq_iff (h : SameWord w w') {x : GoString} (hx : 0x3B ∉ x) : w = x ↔ w' = x := by
  rcases h with rfl | ⟨hw, hw'⟩
  · exact Iff.rfl
  · exact iff_of_false (fun heq => hx (heq ▸ hw)) fun heq => hx (heq ▸ hw')

end SameWord

/-- The words of two statements, one by one. -/
abbrev SameWords : List GoString → List GoString → Prop :=
  List.Forall₂ SameWord

/-- Two readers are in the same place of a word, or outside of one. -/
inductive SameToken : ConfToken → ConfToken → Prop
  | blank : SameToken .blank .blank
  | comment : SameToken .comment .comment
  | word {text text' : GoString} (quote : Option Quote) (mark : WordMark)
      (h : SameWord text text') : SameToken (.word quote text mark) (.word quote text' mark)

/-- Two readers in the same place, with the words of their statements. -/
structure SameReader (r r' : ConfReader) : Prop where
  words : SameWords r.words r'.words
  token : SameToken r.token r'.token

/-- Two readers, and the statements that they have read. -/
structure SameRead (p p' : ConfReader × List (List GoString)) : Prop where
  reader : SameReader p.1 p'.1
  statements : List.Forall₂ SameWords p.2 p'.2

namespace SameReader

variable {words words' : List GoString} {text text' : GoString}

/-- Readers that read no statement. -/
private theorem noStatement {r r' : ConfReader} (h : SameReader r r') :
    SameRead (r, []) (r', []) :=
  ⟨h, .nil⟩

theorem readBlank (h : SameWords words words') (c : UInt8) :
    SameRead (ConfReader.readBlank words c) (ConfReader.readBlank words' c) := by
  have hstatement : List.Forall₂ SameWords (statement words) (statement words') := by
    cases h with
    | nil => exact .nil
    | cons hw hrest => exact .cons (.cons hw hrest) .nil
  unfold ConfReader.readBlank
  split
  · exact noStatement ⟨h, .blank⟩
  split
  · exact ⟨⟨.nil, .blank⟩, hstatement⟩
  split
  · exact noStatement ⟨h, .comment⟩
  split
  · exact noStatement ⟨h, .word _ _ (.refl _)⟩
  split
  · exact noStatement ⟨h, .word _ _ (.refl _)⟩
  · exact noStatement ⟨h, .word _ _ (.refl _)⟩

theorem readWord (h : SameWords words words') (htext : SameWord text text') (quote : Option Quote)
    (mark : WordMark) (c : UInt8) :
    SameRead (ConfReader.readWord words quote text mark c)
      (ConfReader.readWord words' quote text' mark c) := by
  have hgrow : ∀ mark', SameRead (⟨words, .word quote (text ++ [c]) mark'⟩, [])
      (⟨words', .word quote (text' ++ [c]) mark'⟩, []) :=
    fun mark' => noStatement ⟨h, .word quote mark' (htext.append [c])⟩
  have hlast : SameWords (words ++ [text]) (words' ++ [text']) :=
    List.rel_append h (.cons htext .nil)
  unfold ConfReader.readWord
  split
  · exact hgrow _
  split
  · exact hgrow _
  cases quote with
  | some q =>
    dsimp only
    split
    · exact noStatement ⟨hlast, .blank⟩
    · exact hgrow _
  | none =>
    dsimp only
    split
    · exact noStatement ⟨hlast, .blank⟩
    split
    · exact ⟨⟨.nil, .blank⟩, .cons hlast .nil⟩
    · exact hgrow _

theorem read {r r' : ConfReader} (h : SameReader r r') (c : UInt8) :
    SameRead (r.read c) (r'.read c) := by
  obtain ⟨words, token⟩ := r
  obtain ⟨words', token'⟩ := r'
  obtain ⟨hwords, htoken⟩ := h
  cases htoken with
  | blank => exact readBlank hwords c
  | comment =>
    unfold ConfReader.read
    dsimp only
    split
    · exact noStatement ⟨hwords, .blank⟩
    · exact noStatement ⟨hwords, .comment⟩
  | word quote mark htext => exact readWord hwords htext quote mark c

/-- **The same text** gives the same statements to readers in the same place. -/
theorem scan {r r' : ConfReader} (h : SameReader r r') (s : GoString) :
    SameRead (r.scan s) (r'.scan s) := by
  induction s generalizing r r' with
  | nil => exact noStatement h
  | cons c s ih =>
    obtain ⟨hreader, hfirst⟩ := h.read c
    obtain ⟨hlast, hrest⟩ := ih hreader
    exact ⟨hlast, List.rel_append hfirst hrest⟩

end SameReader

/-- What is set does not depend on words with a semicolon. -/
theorem sets_congr {name value : GoString} (hname : 0x3B ∉ name) (hvalue : 0x3B ∉ value)
    {l l' : List (List GoString)} (h : List.Forall₂ SameWords l l') :
    Sets name value l ↔ Sets name value l' := by
  induction h with
  | nil => exact Iff.rfl
  | cons hwords _ ih =>
    rw [Sets, List.forall_mem_cons, Sets, List.forall_mem_cons]
    refine and_congr ?_ ih
    rcases hwords with _ | ⟨hfirst, _ | ⟨hsecond, -⟩⟩
    · exact Iff.rfl
    · simp [hfirst.eq_iff hname]
    · simp [hfirst.eq_iff hname, hsecond.eq_iff hvalue]

/-! ### Bytes that only mean themselves -/

/-- A byte that is not a quotation mark, a backslash or a dollar sign. -/
def isLiteral (c : UInt8) : Bool :=
  c ≠ 0x22 ∧ c ≠ 0x27 ∧ c ≠ 0x5C ∧ c ≠ 0x24

/-- A byte that belongs to the word it stands in, and may begin one. -/
def isConfByte (c : UInt8) : Bool :=
  isLiteral c ∧ ¬ isConfBlank c ∧ c ≠ 0x3B ∧ c ≠ 0x7B ∧ c ≠ 0x7D ∧ c ≠ 0x23

namespace ConfReader

variable {words : List GoString} {text w : GoString}

/-- Inside quotation marks a text of such bytes goes on with the word. -/
theorem scan_quoted (words : List GoString) (q : Quote) (text : GoString) {u : GoString}
    (hu : ∀ c ∈ u, isLiteral c = true) :
    scan ⟨words, .word (some q) text .plain⟩ u =
      (⟨words, .word (some q) (text ++ u) .plain⟩, []) := by
  induction u generalizing text with
  | nil => rw [scan, List.append_nil]
  | cons c u ih =>
    obtain ⟨hc, hu⟩ := List.forall_mem_cons.mp hu
    obtain ⟨hdouble, hsingle, hescape, hdollar⟩ := of_decide_eq_true hc
    have hquote : c ≠ q.byte := by
      cases q with
      | double => exact hdouble
      | single => exact hsingle
    have hread : read ⟨words, .word (some q) text .plain⟩ c =
        (⟨words, .word (some q) (text ++ [c]) .plain⟩, []) := by
      simp [read, readWord, hquote, wordMark, hescape, hdollar]
    rw [scan, hread, ih _ hu, List.append_assoc]
    rfl

/-- A word goes on. -/
private theorem scan_word_from (words : List GoString) (text : GoString) {w : GoString}
    (hw : ∀ c ∈ w, isConfByte c = true) :
    scan ⟨words, .word none text .plain⟩ w = (⟨words, .word none (text ++ w) .plain⟩, []) := by
  induction w generalizing text with
  | nil => rw [scan, List.append_nil]
  | cons c w ih =>
    obtain ⟨hc, hw⟩ := List.forall_mem_cons.mp hw
    obtain ⟨hliteral, hblank, hsemicolon, hopening, -, -⟩ := of_decide_eq_true hc
    obtain ⟨-, -, hescape, hdollar⟩ := of_decide_eq_true hliteral
    have hread : read ⟨words, .word none text .plain⟩ c =
        (⟨words, .word none (text ++ [c]) .plain⟩, []) := by
      simp [read, readWord, hblank, hsemicolon, hopening, wordMark, hescape, hdollar]
    rw [scan, hread, ih _ hw, List.append_assoc]
    rfl

/-- A word is read. -/
theorem scan_word (words : List GoString) (hne : w ≠ []) (hw : ∀ c ∈ w, isConfByte c = true) :
    scan ⟨words, .blank⟩ w = (⟨words, .word none w .plain⟩, []) := by
  obtain ⟨c, w, rfl⟩ := List.exists_cons_of_ne_nil hne
  obtain ⟨hc, hw⟩ := List.forall_mem_cons.mp hw
  obtain ⟨hliteral, hblank, hsemicolon, hopening, hclosing, hhash⟩ := of_decide_eq_true hc
  obtain ⟨hdouble, hsingle, hescape, hdollar⟩ := of_decide_eq_true hliteral
  have hread : read ⟨words, .blank⟩ c = (⟨words, .word none [c] .plain⟩, []) := by
    simp [read, readBlank, hblank, hsemicolon, hopening, hclosing, hhash, hdouble, hsingle,
      wordMark, hescape, hdollar]
  rw [scan, hread, scan_word_from _ _ hw]
  rfl

/-- A word and the blank behind it. -/
theorem scan_word_blank (words : List GoString) (hne : w ≠ [])
    (hw : ∀ c ∈ w, isConfByte c = true) (t : GoString) :
    scan ⟨words, .blank⟩ (w ++ 0x20 :: t) = scan ⟨words ++ [w], .blank⟩ t := by
  rw [scan_append, scan_word words hne hw]
  rfl

/-- A word and the semicolon behind it end a statement. -/
theorem scan_word_semicolon (words : List GoString) (hne : w ≠ [])
    (hw : ∀ c ∈ w, isConfByte c = true) (t : GoString) :
    scan ⟨words, .blank⟩ (w ++ 0x3B :: t) =
      ((scan start t).1, (words ++ [w]) :: (scan start t).2) := by
  rw [scan_append, scan_word words hne hw]
  rfl

/-! ### Lines -/

/-- Where a line begins a reader is in no comment, and the byte before has not marked the next. -/
def AtLine (r : ConfReader) : Prop :=
  r.token = .blank ∨ ∃ quote text, r.token = .word quote text .plain

theorem atLine_start : start.AtLine :=
  .inl rfl

theorem atLine_scan (r : ConfReader) (s : GoString) : (r.scan (s ++ [0x0A])).1.AtLine := by
  rw [scan_append]
  generalize (r.scan s).1 = r
  obtain ⟨words, token⟩ := r
  cases token with
  | blank => exact .inl rfl
  | comment => exact .inl rfl
  | word quote text mark =>
    cases mark with
    | escape => exact .inr ⟨quote, _, rfl⟩
    | plain | dollar =>
      cases quote with
      | none => exact .inl rfl
      | some q =>
        cases q with
        | double => exact .inr ⟨_, _, rfl⟩
        | single => exact .inr ⟨_, _, rfl⟩

/-- Behind whole lines another one begins. -/
theorem atLine_lines (lines : List GoString) :
    (start.scan (lines.flatMap (· ++ [0x0A]))).1.AtLine := by
  induction lines using List.reverseRecOn with
  | nil => exact atLine_start
  | append_singleton lines l _ =>
    rw [List.flatMap_append, List.flatMap_singleton, ← List.append_assoc]
    exact atLine_scan start _

end ConfReader

/-- A text that begins with a blank and ends a statement; what it adds to the statement and behind
it sets nothing but the value of a directive. -/
structure Closes (name value text : GoString) : Prop where
  blank : ∃ rest, text = 0x20 :: rest
  literal : ∀ c ∈ text, isLiteral c = true
  semicolon : 0x3B ∈ text
  reader : ∀ words, (ConfReader.scan ⟨words, .blank⟩ text).1 = .start
  sets : ∀ words, Sets name value (ConfReader.scan ⟨words, .blank⟩ text).2 ↔
    Sets name value (statement words)

namespace Closes

variable {name value text : GoString}

/-- Behind the words of a statement such a text is as good as a semicolon. -/
private theorem scan_blank (h : Closes name value text) (words : List GoString) (t : GoString) :
    Sets name value (ConfReader.scan ⟨words, .blank⟩ (text ++ t)).2 ↔
      Sets name value (ConfReader.scan ⟨words, .blank⟩ (0x3B :: t)).2 := by
  have hsemicolon : (ConfReader.scan ⟨words, .blank⟩ (0x3B :: t)).2 =
      statement words ++ (ConfReader.start.scan t).2 := rfl
  rw [hsemicolon, ConfReader.scan_append, sets_append, sets_append, h.reader, h.sets]

/-- Where a line begins such a text is as good as a semicolon. -/
theorem scan_iff (h : Closes name value text) (hname : 0x3B ∉ name) (hvalue : 0x3B ∉ value)
    {r : ConfReader} (hr : r.AtLine) (t : GoString) :
    Sets name value (r.scan (text ++ t)).2 ↔ Sets name value (r.scan (0x3B :: t)).2 := by
  obtain ⟨words, token⟩ := r
  rcases hr with htoken | ⟨quote, begun, htoken⟩
  · obtain rfl : token = .blank := htoken
    exact h.scan_blank words t
  obtain rfl : token = .word quote begun .plain := htoken
  cases quote with
  | none =>
    -- the blank ends a word that goes over the line break, as the semicolon does
    obtain ⟨rest, rfl⟩ := h.blank
    have hsemicolon : (ConfReader.scan ⟨words, .word none begun .plain⟩ (0x3B :: t)).2 =
        (ConfReader.scan ⟨words ++ [begun], .blank⟩ (0x3B :: t)).2 :=
      congrArg (· ++ (ConfReader.start.scan t).2) (statement_append words begun).symm
    rw [hsemicolon]
    exact h.scan_blank (words ++ [begun]) t
  | some q =>
    -- either text is in quotation marks, and makes a word that contains a semicolon
    have hone : ∀ c ∈ [(0x3B : UInt8)], isLiteral c = true :=
      fun c hc => List.mem_singleton.mp hc ▸ rfl
    have hread : ∀ u : GoString, (∀ c ∈ u, isLiteral c = true) →
        (ConfReader.scan ⟨words, .word (some q) begun .plain⟩ (u ++ t)).2 =
          (ConfReader.scan ⟨words, .word (some q) (begun ++ u) .plain⟩ t).2 := by
      intro u hu
      rw [ConfReader.scan_append, ConfReader.scan_quoted _ _ _ hu, List.nil_append]
    rw [← List.singleton_append, hread _ h.literal, hread _ hone]
    have hsame : SameReader ⟨words, .word (some q) (begun ++ text) .plain⟩
        ⟨words, .word (some q) (begun ++ [0x3B]) .plain⟩ :=
      ⟨List.forall₂_refl words, .word _ _ (.inr ⟨List.mem_append_right _ h.semicolon,
        List.mem_append_right _ (List.mem_singleton_self _)⟩)⟩
    exact sets_congr hname hvalue (hsame.scan t).statements

/-- **In the place of a line** such a text is as good as a semicolon. -/
theorem directives_iff (h : Closes name value text) (hname : 0x3B ∉ name) (hvalue : 0x3B ∉ value)
    (front back : List GoString) :
    Sets name value (directives (joinLines (front ++ text :: back))) ↔
      Sets name value (directives (joinLines (front ++ [0x3B] :: back))) := by
  have hdirectives : ∀ u : GoString, directives (joinLines (front ++ u :: back)) =
      (ConfReader.start.scan (front.flatMap (· ++ [0x0A]))).2 ++
        ((ConfReader.start.scan (front.flatMap (· ++ [0x0A]))).1.scan
          (u ++ back.flatMap (0x0A :: ·))).2 := by
    intro u
    rw [directives, joinLines_append front (List.cons_ne_nil u back), joinLines_cons,
      ConfReader.scan_append]
  rw [hdirectives, hdirectives, sets_append, sets_append]
  exact and_congr_right fun _ =>
    h.scan_iff hname hvalue (ConfReader.atLine_lines front) _

end Closes

end VibesWaf
