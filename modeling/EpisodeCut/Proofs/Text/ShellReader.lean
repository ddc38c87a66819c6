import EpisodeCut.RenderCommand

/-!
# Reading a command line as a shell does

A shell divides a line into words at the blanks outside of quotes (`ShellReader.step`). A backslash
takes the next character as it is, single quotes take everything up to the next one, and double
quotes leave a meaning to some characters; a hash sign where no word has begun yet opens a comment. A
character that would be replaced by something else, or that would end the command, is refused, also
where a shell that reads a script would let it pass, as it does with the characters of the history.

A line of quoted words is read as these words (`ShellReader.read_commandLine`). Every piece of a word
is read in the mode that its quotes open, and leaves the reader outside of quotes again; so a
rendering command that is shown can be pasted into a shell, and what it starts is the command that is
executed (`RenderCommand.read_display`).
-/

set_option autoImplicit false

namespace EpisodeCut

open Text.ShellWord

namespace ShellReader

/-! ## The reader -/

/-- Why a line is not simply a list of words. -/
inductive Trouble where
  /-- The character begins something that is replaced: a parameter, a command, a pattern of file
  names, a home directory, a list in braces, an event of the history. -/
  | expansion (c : Char)
  /-- The character ends the command or connects it with another one. -/
  | operator (c : Char)
  /-- A quotation or an escape is not ended. -/
  | unended
  deriving DecidableEq, Repr

/-- How the next character is taken. -/
inductive Mode where
  | plain
  /-- Behind a backslash. -/
  | escaped
  | single
  | double
  /-- Behind a backslash in double quotes. -/
  | doubleEscaped
  | comment
  deriving DecidableEq, Repr

/-- The words that are complete, the word that has begun, if there is one, and the mode. -/
structure State where
  words : List (List Char)
  word : Option (List Char)
  mode : Mode
  deriving DecidableEq, Repr

/-- The reader before the first character. -/
def start : State := ⟨[], none, .plain⟩

namespace State

/-- A word has begun, if none had before, and the mode is another one. -/
def enter (state : State) (mode : Mode) : State :=
  { state with word := some (state.word.getD []), mode := mode }

/-- One more character of the word. -/
def push (state : State) (c : Char) : State :=
  { state with word := some (state.word.getD [] ++ [c]) }

/-- The word is complete. -/
def close (state : State) : State :=
  match state.word with
  | none => state
  | some word => { state with words := state.words ++ [word], word := none }

end State

/-- The characters that end a command or connect it with another one. -/
def operators : List Char := "|&;<>()\n".toList

/-- The characters that stay special in double quotes, where they begin something that is
replaced. -/
def expandingInQuotes : List Char := "\x60$!^".toList

/-- The characters that begin something outside of quotes that is replaced. -/
def expanding : List Char := expandingInQuotes ++ "*?[~\x7b".toList

/-- The characters from which a backslash takes their meaning in double quotes. -/
def escapable : List Char := "$\x60\x22\\".toList

/-- Read one character. -/
def step (state : State) (c : Char) : Except Trouble State :=
  match state.mode with
  | .plain =>
    if c = ' ' ∨ c = '\t' then .ok state.close
    else if c = '\x27' then .ok (state.enter .single)
    else if c = '\x22' then .ok (state.enter .double)
    else if c = '\\' then .ok { state with mode := .escaped }
    else if c = '#' ∧ state.word = none then .ok { state with mode := .comment }
    else if c ∈ operators then .error (.operator c)
    else if c ∈ expanding then .error (.expansion c)
    else .ok (state.push c)
  | .escaped =>
    -- A line feed behind a backslash is no character of the line at all.
    if c = '\n' then .ok { state with mode := .plain } else .ok ((state.push c).enter .plain)
  | .single => if c = '\x27' then .ok (state.enter .plain) else .ok (state.push c)
  | .double =>
    if c = '\x22' then .ok (state.enter .plain)
    else if c = '\\' then .ok (state.enter .doubleEscaped)
    else if c ∈ expandingInQuotes then .error (.expansion c)
    else .ok (state.push c)
  | .doubleEscaped =>
    if c = '\n' then .ok (state.enter .double)
    else if c ∈ escapable then .ok ((state.push c).enter .double)
    else .ok (((state.push '\\').push c).enter .double)
  | .comment => if c = '\n' then .error (.operator c) else .ok state

/-- The words of a line, if it is nothing but words. -/
def read (line : String) : Except Trouble (List String) :=
  match line.toList.foldlM step start with
  | .error trouble => .error trouble
  | .ok state =>
    match state.mode with
    | .plain | .comment => .ok (state.close.words.map String.ofList)
    | _ => .error .unended

/-- Between two states the reader reads a text. -/
def Reads (state : State) (text : List Char) (later : State) : Prop :=
  text.foldlM step state = .ok later

theorem Reads.nil (state : State) : Reads state [] state := rfl

theorem Reads.cons {state middle later : State} {c : Char} {rest : List Char}
    (first : step state c = .ok middle) (others : Reads middle rest later) :
    Reads state (c :: rest) later := by
  rw [Reads, List.foldlM_cons, first]
  exact others

theorem Reads.append {state middle later : State} {text rest : List Char}
    (first : Reads state text middle) (second : Reads middle rest later) :
    Reads state (text ++ rest) later := by
  rw [Reads, List.foldlM_append, first]
  exact second

/-! ## Characters in the modes of their quotes -/

variable {words : List (List Char)} {word : Option (List Char)} {c : Char}

/-- No plain character means anything to a shell. -/
theorem step_of_isPlain (h : isPlain c = true) :
    step ⟨words, word, .plain⟩ c = .ok ⟨words, some (word.getD [] ++ [c]), .plain⟩ := by
  have hspecial : ([' ', '\t', '\x27', '\x22', '\\', '#'] ++ operators ++ expanding).all
      (!isPlain ·) = true := by
    decide
  have hplain : c ∉ [' ', '\t', '\x27', '\x22', '\\', '#'] ++ operators ++ expanding := by
    intro hmem
    have hother := List.all_eq_true.1 hspecial c hmem
    rw [h] at hother
    cases hother
  simp only [List.mem_append, List.mem_cons, List.not_mem_nil, or_false, not_or] at hplain
  obtain ⟨⟨⟨hspace, htab, hsingle, hdouble, hescape, hhash⟩, hoperators⟩, hexpanding⟩ := hplain
  simp only [step, hspace, htab, hsingle, hdouble, hescape, hhash, hoperators, hexpanding, or_self,
    false_and, if_false, State.push]

theorem step_single (h : c ≠ '\x27') (word : List Char) :
    step ⟨words, some word, .single⟩ c = .ok ⟨words, some (word ++ [c]), .single⟩ := by
  simp only [step, if_neg h, State.push, Option.getD_some]

/-- In double quotes a character is read as it was before it got its backslash. -/
theorem reads_escaped (h : Style.double.admits c = true) (word : List Char) :
    Reads ⟨words, some word, .double⟩ (escaped c) ⟨words, some (word ++ [c]), .double⟩ := by
  have hexpanding : c ∉ expandingInQuotes := by
    simpa [Style.admits, expandingInQuotes] using h
  rw [escaped]
  by_cases hmark : c = '\x22' ∨ c = '\\'
  · have hescapable : c ∈ escapable ∧ c ≠ '\n' := by
      rcases hmark with rfl | rfl <;> decide
    rw [if_pos (by simpa using hmark)]
    have hbackslash : step ⟨words, some word, .double⟩ '\\' =
        .ok ⟨words, some word, .doubleEscaped⟩ := rfl
    refine .cons hbackslash (.cons ?_ (.nil _))
    simp only [step, if_neg hescapable.2, if_pos hescapable.1, State.push, State.enter,
      Option.getD_some]
  · rw [if_neg (by simpa using hmark)]
    obtain ⟨hquote, hescape⟩ := not_or.1 hmark
    refine .cons ?_ (.nil _)
    simp only [step, if_neg hquote, if_neg hescape, if_neg hexpanding, State.push,
      Option.getD_some]

/-- A text is read in one mode if each of its characters is. -/
theorem reads_flatMap (mode : Mode) (write : Char → List Char) {text : List Char}
    (h : ∀ c ∈ text, ∀ word, Reads ⟨words, some word, mode⟩ (write c)
      ⟨words, some (word ++ [c]), mode⟩) (word : List Char) :
    Reads ⟨words, some word, mode⟩ (text.flatMap write) ⟨words, some (word ++ text), mode⟩ := by
  induction text generalizing word with
  | nil =>
    rw [List.append_nil]
    exact .nil _
  | cons c rest ih =>
    have hrest := ih (fun d hd => h d (List.mem_cons_of_mem c hd)) (word ++ [c])
    rw [List.append_assoc] at hrest
    exact (h c List.mem_cons_self word).append hrest

/-! ## Pieces -/

/-- The characters that a style carries in a piece, also as the first one. -/
def carries : Style → Char → Bool
  | .bare, c => isPlain c
  | .single, c => c != '\x27'
  | .double, c => Style.double.admits c

theorem carries_of_admits {style : Style} (h : style.admits c = true) : carries style c = true := by
  cases style with
  | bare => exact h
  | single =>
    have hquote : c ≠ '\x27' := by
      rintro rfl
      exact absurd h (by decide)
    simpa [carries] using hquote
  | double => exact h

/-- A piece that its style carries. -/
structure Carried (piece : Piece) : Prop where
  nonempty : piece.text ≠ []
  all : ∀ c ∈ piece.text, carries piece.style c = true

/-- A piece adds its text to the word, and the reader is outside of quotes again. -/
theorem reads_quoted {piece : Piece} (carried : Carried piece) :
    Reads ⟨words, word, .plain⟩ piece.quoted
      ⟨words, some (word.getD [] ++ piece.text), .plain⟩ := by
  obtain ⟨style, text⟩ := piece
  obtain ⟨hnonempty, hall⟩ := carried
  cases style with
  | bare =>
    -- The first character begins the word, if none has begun yet.
    obtain ⟨c, rest, rfl⟩ := List.exists_cons_of_ne_nil hnonempty
    have hcharacters (d) (hd : d ∈ rest) (inside : List Char) :
        Reads ⟨words, some inside, .plain⟩ [d] ⟨words, some (inside ++ [d]), .plain⟩ :=
      .cons (step_of_isPlain (hall d (List.mem_cons_of_mem c hd))) (.nil _)
    have hrest := reads_flatMap .plain (fun c => [c]) hcharacters (word.getD [] ++ [c])
    rw [List.flatMap_singleton', List.append_assoc] at hrest
    exact .cons (step_of_isPlain (hall c List.mem_cons_self)) hrest
  | single =>
    have hcharacters (c) (hc : c ∈ text) (inside : List Char) :
        Reads ⟨words, some inside, .single⟩ [c] ⟨words, some (inside ++ [c]), .single⟩ :=
      .cons (step_single (by simpa [carries] using hall c hc) inside) (.nil _)
    have htext := reads_flatMap .single (fun c => [c]) hcharacters (word.getD [])
    rw [List.flatMap_singleton'] at htext
    exact .cons rfl (htext.append (.cons rfl (.nil _)))
  | double =>
    have hcharacters (c) (hc : c ∈ text) (inside : List Char) :
        Reads ⟨words, some inside, .double⟩ (escaped c) ⟨words, some (inside ++ [c]), .double⟩ :=
      reads_escaped (hall c hc) inside
    have htext := reads_flatMap .double escaped hcharacters (word.getD [])
    exact .cons rfl (htext.append (.cons rfl (.nil _)))

/-- Every character can begin a piece in some style, and each of these styles carries it. -/
theorem opening_ne_nil (c : Char) :
    opening c ≠ [] ∧ ∀ style ∈ opening c, carries style c = true := by
  rw [opening]
  by_cases hcaret : c = '^'
  · subst hcaret
    decide
  · rw [if_neg (by simpa using hcaret)]
    constructor
    · intro hnone
      have hrefused := List.filter_eq_nil_iff.1 hnone
      -- What single quotes refuse, double quotes admit.
      have hsingle := hrefused .single (by decide)
      have hdouble := hrefused .double (by decide)
      have hforbidden : c = '\x27' ∨ c = '\\' := by
        apply Decidable.or_iff_not_imp_left.2
        simpa [Style.admits, hcaret] using hsingle
      rcases hforbidden with rfl | rfl <;> exact hdouble (by decide)
    · intro style hstyle
      exact carries_of_admits (List.mem_filter.1 hstyle).2

/-- The styles that are left for a piece carry all of it. -/
theorem carried_close {left : List Style} {taken : List Char} (hleft : left ≠ [])
    (htaken : taken ≠ []) (h : ∀ style ∈ left, ∀ c ∈ taken, carries style c = true) :
    Carried (Piece.close left taken) := by
  obtain ⟨style, others, rfl⟩ := List.exists_cons_of_ne_nil hleft
  refine ⟨by simpa [Piece.close] using htaken, ?_⟩
  intro c hc
  exact h style List.mem_cons_self c (List.mem_reverse.1 hc)

/-- The pieces of a text are carried by their styles, and together they are the text. -/
theorem extend_eq {left : List Style} {taken : List Char} (rest : List Char) (hleft : left ≠ [])
    (htaken : taken ≠ []) (h : ∀ style ∈ left, ∀ c ∈ taken, carries style c = true) :
    (∀ piece ∈ extend left taken rest, Carried piece) ∧
      (extend left taken rest).flatMap Piece.text = taken.reverse ++ rest := by
  -- Of the styles left it matters that there are some, and that each carries what is taken.
  induction rest generalizing left taken with
  | nil =>
    refine ⟨?_, by simp [extend, Piece.close]⟩
    intro piece hpiece
    rw [List.mem_singleton.1 hpiece]
    exact carried_close hleft htaken h
  | cons c rest ih =>
    rw [extend]
    split
    · -- The character begins the next piece.
      obtain ⟨hopening, hcarries⟩ := opening_ne_nil c
      obtain ⟨hpieces, htext⟩ := ih hopening (List.cons_ne_nil c [])
        (fun style hstyle d hd => by
          rw [List.mem_singleton.1 hd]
          exact hcarries style hstyle)
      refine ⟨?_, by simp [htext, Piece.close]⟩
      intro piece hpiece
      rcases List.mem_cons.1 hpiece with rfl | hpiece
      · exact carried_close hleft htaken h
      · exact hpieces piece hpiece
    · next hkept =>
      obtain ⟨hpieces, htext⟩ := ih hkept (List.cons_ne_nil c taken) (by
        intro style hstyle d hd
        obtain ⟨hstyle, hadmits⟩ := List.mem_filter.1 hstyle
        rcases List.mem_cons.1 hd with rfl | hd
        · exact carries_of_admits hadmits
        · exact h style hstyle d hd)
      exact ⟨hpieces, by simp [htext]⟩

theorem pieces_eq (word : List Char) :
    (∀ piece ∈ pieces word, Carried piece) ∧ (pieces word).flatMap Piece.text = word := by
  cases word with
  | nil => exact ⟨nofun, rfl⟩
  | cons c rest =>
    obtain ⟨hopening, hcarries⟩ := opening_ne_nil c
    exact extend_eq rest hopening (List.cons_ne_nil c []) fun style hstyle d hd => by
      rw [List.mem_singleton.1 hd]
      exact hcarries style hstyle

/-! ## Words -/

theorem reads_pieces {parts : List Piece} (carried : ∀ piece ∈ parts, Carried piece)
    (word : List Char) :
    Reads ⟨words, some word, .plain⟩ (parts.flatMap Piece.quoted)
      ⟨words, some (word ++ parts.flatMap Piece.text), .plain⟩ := by
  induction parts generalizing word with
  | nil =>
    rw [List.flatMap_nil, List.flatMap_nil, List.append_nil]
    exact .nil _
  | cons piece rest ih =>
    have hrest := ih (fun other hother => carried other (List.mem_cons_of_mem piece hother))
      (word ++ piece.text)
    rw [List.append_assoc] at hrest
    exact (reads_quoted (carried piece List.mem_cons_self)).append hrest

/-- What is quoted is read as one word. -/
theorem reads_word (word : List Char) :
    Reads ⟨words, none, .plain⟩ (quoted word) ⟨words, some word, .plain⟩ := by
  obtain ⟨hcarried, htext⟩ := pieces_eq word
  rw [quoted]
  cases hpieces : pieces word with
  | nil =>
    -- The empty word is begun by its quotes.
    rw [hpieces, List.flatMap_nil] at htext
    subst htext
    exact .cons rfl (.cons rfl (.nil _))
  | cons piece rest =>
    rw [hpieces] at hcarried htext
    have hrest : Reads ⟨words, some piece.text, .plain⟩ (rest.flatMap Piece.quoted)
        ⟨words, some (piece.text ++ rest.flatMap Piece.text), .plain⟩ :=
      reads_pieces (fun other hother => hcarried other (List.mem_cons_of_mem piece hother)) _
    rw [← List.flatMap_cons, htext] at hrest
    exact (reads_quoted (hcarried piece List.mem_cons_self)).append hrest

/-- Quoted words with blanks between them are read one after another. -/
theorem reads_line (first : List Char) (others : List (List Char)) (before : List (List Char)) :
    ∃ last, Reads ⟨before, none, .plain⟩ ([' '].intercalate ((first :: others).map quoted)) last ∧
      last.mode = .plain ∧ last.close.words = before ++ first :: others := by
  induction others generalizing first before with
  | nil =>
    refine ⟨⟨before, some first, .plain⟩, ?_, rfl, rfl⟩
    rw [List.map_singleton, List.intercalate_singleton]
    exact reads_word first
  | cons next others ih =>
    obtain ⟨last, hreads, hmode, hwords⟩ := ih next (before ++ [first])
    refine ⟨last, ?_, hmode, ?_⟩
    · rw [List.map_cons, List.map_cons, List.intercalate_cons_cons, List.append_assoc]
      exact (reads_word first).append (.cons rfl hreads)
    · rw [hwords, List.append_assoc]
      rfl

/-- A line of quoted words is read as these words. -/
theorem read_commandLine {arguments : List String}
    (h : ∀ argument ∈ arguments, '\x00' ∉ argument.toList) :
    read (commandLine arguments) = .ok arguments := by
  have hline : (commandLine arguments).toList =
      [' '].intercalate ((arguments.map String.toList).map quoted) := by
    have hnul : arguments.any (·.toList.contains '\x00') = false := by
      simpa using h
    rw [commandLine, hnul]
    simp [String.toList_intercalate, Function.comp_def]
  rw [read, hline]
  cases harguments : arguments with
  | nil => rfl
  | cons first others =>
    obtain ⟨last, hreads, hmode, hwords⟩ :=
      reads_line first.toList (others.map String.toList) []
    have hfold : List.foldlM step start
        ([' '].intercalate (((first :: others).map String.toList).map quoted)) = .ok last :=
      hreads
    rw [hfold]
    simp [hmode, hwords]

/-- Quotes and escapes are taken off, and a hash sign opens a comment only where a word can begin. -/
example : read "ab\\\nc 'd #'\x22 \\$e\x22#f # g" = .ok ["abc", "d # $e#f"] := by
  cbv

example : read "cp \x22$HOME\x22 ." = .error (.expansion '$') := by
  cbv

end ShellReader

namespace RenderCommand

/-- What a shell reads from a rendering command that is shown is the tool and its arguments. -/
theorem read_display {command : RenderCommand}
    (h : ∀ argument ∈ command.arguments, '\x00' ∉ argument.toList) :
    ShellReader.read command.display = .ok (renderTool :: command.arguments) := by
  apply ShellReader.read_commandLine
  intro argument hargument
  rcases List.mem_cons.1 hargument with rfl | hargument
  · decide
  · exact h argument hargument

/-- A command whose words need all ways of quoting. -/
def awkwardCommand : RenderCommand where
  inputs :=
    [⟨"it's \x22live\x22!.wav", []⟩, ⟨"^caret^\\$HOME.mov", []⟩, ⟨"Über\n#1.jpg", ["-loop", "1", ""]⟩]
  program := "[0:a] anull [aconc]"
  hasAudio := true
  hasVideo := false
  flags := .standard
  output := "~/out\x60.mov"

theorem read_display_awkward :
    (∀ argument ∈ awkwardCommand.arguments, '\x00' ∉ argument.toList) ∧
      ShellReader.read awkwardCommand.display =
        .ok ["ffmpeg", "-y", "-nostdin", "-i", "it's \x22live\x22!.wav", "-i",
          "^caret^\\$HOME.mov", "-loop", "1", "", "-i", "Über\n#1.jpg", "-filter_complex",
          "[0:a] anull [aconc]", "-codec:a", "pcm_s16le", "-ac", "1", "-map", "[anorm]",
          "~/out\x60.mov"] := by
  have hnul : ∀ argument ∈ awkwardCommand.arguments, '\x00' ∉ argument.toList := by
    decide +kernel
  exact ⟨hnul, read_display hnul⟩

end RenderCommand

end EpisodeCut
