import EpisodeCut.FilterGraph.Basic
import EpisodeCut.Proofs.Text.Span
import EpisodeCut.Proofs.Text.Split

/-!
# Filter programs as statements

A filter program is a list of statements with semicolons between them. A statement names the pads
that it reads, then a chain of filters, then the pads that it writes; a filter has a name and
options. `Program.read?` reads the text of a program, and `Program.read?_write` says that reading
undoes writing for every program whose parts contain no separators.
-/

set_option autoImplicit false

namespace EpisodeCut.Program

open Text

/-- A filter with its options, each a key and a value; an option without a key has the key `""`. -/
structure FilterCall where
  name : String
  options : List (String × String)
  deriving DecidableEq, Repr

/-- One statement: the labels it reads, the filters applied in turn, the labels it writes. -/
structure Statement where
  inputs : List String
  chain : List FilterCall
  outputs : List String
  deriving DecidableEq, Repr

/-! ## Reading -/

/-- Read an option: a key and a value with an equals sign between them, or a value alone. -/
def readOption (s : List Char) : String × String :=
  if '=' ∈ s then
    (String.ofList (s.takeWhile (· != '=')), String.ofList ((s.dropWhile (· != '=')).drop 1))
  else
    ("", String.ofList s)

/-- Read a filter: its name, and after an equals sign its options with colons between them. -/
def readCall (s : List Char) : FilterCall :=
  if '=' ∈ s then
    ⟨String.ofList (s.takeWhile (· != '=')),
      (((s.dropWhile (· != '=')).drop 1).splitOn ':').map readOption⟩
  else
    ⟨String.ofList s, []⟩

/-- The label in a pair of brackets. -/
def readLabel? : List Char → Option String
  | '[' :: rest =>
    let label := rest.takeWhile (· != ']')
    if rest = label ++ [']'] then some (String.ofList label) else none
  | _ => none

/-- Read a statement: labels, a chain of filters with commas between them, and labels, with spaces
between all of these. -/
def readStatement? (s : List Char) : Option Statement :=
  let words := (s.splitOn ' ').filter (· ≠ [])
  match words.dropWhile fun word => (readLabel? word).isSome with
  | [] => none
  | chain :: outputs => do
    let inputs ← (words.takeWhile fun word => (readLabel? word).isSome).mapM readLabel?
    let outputs ← outputs.mapM readLabel?
    some ⟨inputs, (chain.splitOn ',').map readCall, outputs⟩

/-- Read a program. The empty text is the program without statements. -/
def read? (text : String) : Option (List Statement) :=
  if text = "" then some [] else (text.toList.splitOn ';').mapM readStatement?

/-! ## Writing -/

/-- The text of an option. -/
def writeOption (option : String × String) : List Char :=
  if option.1 = "" then option.2.toList else option.1.toList ++ '=' :: option.2.toList

/-- The text of a filter. -/
def FilterCall.write (call : FilterCall) : List Char :=
  if call.options = [] then call.name.toList
  else call.name.toList ++ '=' :: [':'].intercalate (call.options.map writeOption)

/-- A label in brackets. -/
def writeLabel (label : String) : List Char :=
  '[' :: label.toList ++ [']']

/-- The words of a statement. -/
def Statement.words (statement : Statement) : List (List Char) :=
  statement.inputs.map writeLabel ++
    [','].intercalate (statement.chain.map FilterCall.write) :: statement.outputs.map writeLabel

/-- The text of a statement. -/
def Statement.write (statement : Statement) : List Char :=
  [' '].intercalate statement.words

/-- The text of a program. -/
def write (program : List Statement) : List Char :=
  [';'].intercalate (program.map Statement.write)

/-! ## Parts without separators -/

/-- The characters that separate the parts of a program. -/
def separators : List Char :=
  " ;,:=[]".toList

/-- Text that contains no separator. -/
def IsPlain (s : List Char) : Prop :=
  ∀ c ∈ s, c ∉ separators

instance (s : List Char) : Decidable (IsPlain s) :=
  List.decidableBAll (· ∉ separators) s

/-- A label: no separators but colons. -/
def IsLabel (s : List Char) : Prop :=
  ∀ c ∈ s, c = ':' ∨ c ∉ separators

instance (s : List Char) : Decidable (IsLabel s) :=
  List.decidableBAll (fun c => c = ':' ∨ c ∉ separators) s

/-- A filter that can be read back. -/
structure FilterCall.WellFormed (call : FilterCall) : Prop where
  named : call.name.toList ≠ []
  name : IsPlain call.name.toList
  options : ∀ option ∈ call.options, IsPlain option.1.toList ∧ IsPlain option.2.toList

/-- A statement that can be read back. -/
structure Statement.WellFormed (statement : Statement) : Prop where
  inputs : ∀ label ∈ statement.inputs, IsLabel label.toList
  applies : statement.chain ≠ []
  chain : ∀ call ∈ statement.chain, call.WellFormed
  outputs : ∀ label ∈ statement.outputs, IsLabel label.toList

theorem not_isDigit_of_mem_separators {c : Char} (h : c ∈ separators) : c.isDigit = false := by
  have hall : ∀ c ∈ separators, (!c.isDigit) = true := List.all_eq_true.1 (by decide)
  simpa using hall c h

theorem IsPlain.not_mem {s : List Char} (h : IsPlain s) {c : Char} (hc : c ∈ separators) : c ∉ s :=
  fun hs => h c hs hc

theorem IsLabel.not_mem {s : List Char} (h : IsLabel s) {c : Char} (hc : c ∈ separators)
    (colon : c ≠ ':') : c ∉ s := by
  intro hs
  rcases h c hs with h | h
  · exact colon h
  · exact h hc

theorem IsPlain.isLabel {s : List Char} (h : IsPlain s) : IsLabel s :=
  fun c hc => Or.inr (h c hc)

theorem IsLabel.append {s t : List Char} (hs : IsLabel s) (ht : IsLabel t) : IsLabel (s ++ t) := by
  intro c hc
  rcases List.mem_append.1 hc with hc | hc
  · exact hs c hc
  · exact ht c hc

/-! ## Reading undoes writing -/

/-- What is written with separators between the items is split into the texts of the items. -/
theorem splitOn_intercalate_map {β : Type} {sep : Char} {write : β → List Char} {items : List β}
    (nonempty : items ≠ []) (absent : ∀ x ∈ items, sep ∉ write x) :
    ([sep].intercalate (items.map write)).splitOn sep = items.map write := by
  apply List.splitOn_intercalate
  · intro part hpart
    obtain ⟨x, hx, rfl⟩ := List.mem_map.1 hpart
    exact absent x hx
  · simpa using nonempty

theorem map_read_map_write {β : Type} {read : List Char → β} {write : β → List Char}
    {items : List β} (undo : ∀ x ∈ items, read (write x) = x) :
    (items.map write).map read = items := by
  rw [List.map_map]
  calc items.map (read ∘ write) = items.map id := List.map_congr_left undo
    _ = items := List.map_id items

/-- A partial function that succeeds on all items. -/
theorem mapM_eq_some_map {β γ : Type} {f : β → Option γ} {g : β → γ} {items : List β}
    (h : ∀ x ∈ items, f x = some (g x)) : items.mapM f = some (items.map g) := by
  induction items with
  | nil => rfl
  | cons x rest ih =>
    rw [List.mapM_cons, h x List.mem_cons_self, ih fun y hy => h y (List.mem_cons_of_mem x hy)]
    rfl

/-- A partial function that succeeds on a list succeeds on its head and on its tail. -/
theorem mapM_cons_eq_some_iff {β γ : Type} {f : β → Option γ} {x : β} {items : List β}
    {results : List γ} :
    (x :: items).mapM f = some results ↔
      ∃ y ys, f x = some y ∧ items.mapM f = some ys ∧ results = y :: ys := by
  rw [List.mapM_cons]
  cases f x <;> cases items.mapM f <;> simp [eq_comm]

theorem mapM_read_map_write {β : Type} {read : List Char → Option β} {write : β → List Char}
    {items : List β} (undo : ∀ x ∈ items, read (write x) = some x) :
    (items.map write).mapM read = some items := by
  rw [List.mapM_map, mapM_eq_some_map (f := read ∘ write) undo, List.map_id']

theorem readOption_writeOption {option : String × String} (key : IsPlain option.1.toList)
    (value : IsPlain option.2.toList) : readOption (writeOption option) = option := by
  obtain ⟨k, v⟩ := option
  by_cases hk : k = ""
  · subst hk
    have absent : '=' ∉ v.toList := value.not_mem (by decide)
    simp [writeOption, readOption, absent]
  · have absent : '=' ∉ k.toList := key.not_mem (by decide)
    simp [writeOption, readOption, hk, takeWhile_ne_append_cons absent,
      dropWhile_ne_append_cons absent]

theorem not_mem_writeOption {option : String × String} (key : IsPlain option.1.toList)
    (value : IsPlain option.2.toList) {c : Char} (hc : c ∈ separators) (equals : c ≠ '=') :
    c ∉ writeOption option := by
  unfold writeOption
  split
  · exact value.not_mem hc
  · intro h
    rcases List.mem_append.1 h with h | h
    · exact key.not_mem hc h
    · rcases List.mem_cons.1 h with h | h
      · exact equals h
      · exact value.not_mem hc h

theorem FilterCall.WellFormed.readCall_write {call : FilterCall} (h : call.WellFormed) :
    readCall call.write = call := by
  obtain ⟨name, options⟩ := call
  have absent : '=' ∉ name.toList := h.name.not_mem (by decide)
  by_cases hoptions : options = []
  · subst hoptions
    simp [FilterCall.write, readCall, absent]
  · -- No option contains a colon, so the text after the name is split into the options again.
    have hsplit : ([':'].intercalate (options.map writeOption)).splitOn ':' =
        options.map writeOption :=
      splitOn_intercalate_map hoptions fun option hoption =>
        not_mem_writeOption (h.options option hoption).1 (h.options option hoption).2 (by decide)
          (by decide)
    have hread : (options.map writeOption).map readOption = options :=
      map_read_map_write fun option hoption =>
        readOption_writeOption (h.options option hoption).1 (h.options option hoption).2
    rw [FilterCall.write, if_neg hoptions, readCall, if_pos (by simp),
      takeWhile_ne_append_cons absent, dropWhile_ne_append_cons absent, List.drop_succ_cons,
      List.drop_zero, hsplit, hread, String.ofList_toList]

theorem FilterCall.WellFormed.not_mem_write {call : FilterCall} (h : call.WellFormed) {c : Char}
    (hc : c ∈ separators) (equals : c ≠ '=') (colon : c ≠ ':') : c ∉ call.write := by
  unfold FilterCall.write
  split
  · exact h.name.not_mem hc
  · intro hmem
    rcases List.mem_append.1 hmem with hmem | hmem
    · exact h.name.not_mem hc hmem
    · rcases List.mem_cons.1 hmem with hmem | hmem
      · exact equals hmem
      · rcases mem_intercalate hmem with hmem | ⟨part, hpart, hmem⟩
        · exact colon hmem
        · obtain ⟨option, hoption, rfl⟩ := List.mem_map.1 hpart
          obtain ⟨key, value⟩ := h.options option hoption
          exact not_mem_writeOption key value hc equals hmem

theorem FilterCall.WellFormed.write_ne_nil {call : FilterCall} (h : call.WellFormed) :
    call.write ≠ [] := by
  unfold FilterCall.write
  split
  · exact h.named
  · simp

theorem readLabel?_writeLabel {label : String} (h : IsLabel label.toList) :
    readLabel? (writeLabel label) = some label := by
  have absent : ']' ∉ label.toList := h.not_mem (by decide) (by decide)
  simp [writeLabel, readLabel?, takeWhile_ne_append_cons absent]

/-- Spaces and semicolons separate words and statements, and stand nowhere else. -/
theorem outer_separator {c : Char} (hc : c ∈ [' ', ';']) :
    c ∈ separators ∧ c ∉ ['[', ']', '=', ':', ','] := by
  simp only [List.mem_cons, List.not_mem_nil, or_false] at hc
  rcases hc with rfl | rfl <;> decide

theorem not_mem_writeLabel {label : String} (h : IsLabel label.toList) {c : Char}
    (hc : c ∈ [' ', ';']) : c ∉ writeLabel label := by
  obtain ⟨hsep, hother⟩ := outer_separator hc
  simp only [List.mem_cons, List.not_mem_nil, or_false, not_or] at hother
  obtain ⟨hopen, hclose, -, hcolon, -⟩ := hother
  intro hmem
  rcases List.mem_cons.1 hmem with hmem | hmem
  · exact hopen hmem
  · rcases List.mem_append.1 hmem with hmem | hmem
    · exact h.not_mem hsep hcolon hmem
    · exact hclose (List.mem_singleton.1 hmem)

/-- The word between the labels of a statement. -/
theorem Statement.WellFormed.not_mem_chain {statement : Statement} (h : statement.WellFormed)
    {c : Char} (hc : c ∈ separators) (equals : c ≠ '=') (colon : c ≠ ':') (comma : c ≠ ',') :
    c ∉ [','].intercalate (statement.chain.map FilterCall.write) := by
  intro hmem
  rcases mem_intercalate hmem with hmem | ⟨part, hpart, hmem⟩
  · exact comma hmem
  · obtain ⟨call, hcall, rfl⟩ := List.mem_map.1 hpart
    exact (h.chain call hcall).not_mem_write hc equals colon hmem

theorem Statement.WellFormed.chain_ne_nil {statement : Statement} (h : statement.WellFormed) :
    [','].intercalate (statement.chain.map FilterCall.write) ≠ [] := by
  obtain ⟨inputs, chain, outputs⟩ := statement
  cases chain with
  | nil => exact absurd rfl h.applies
  | cons call rest =>
    have hcall : call.write ≠ [] := (h.chain call List.mem_cons_self).write_ne_nil
    cases rest with
    | nil => simpa using hcall
    | cons next rest => simp [List.intercalate_cons_cons, hcall]

theorem Statement.WellFormed.words_ne_nil {statement : Statement} (h : statement.WellFormed) :
    ∀ word ∈ statement.words, word ≠ [] := by
  intro word hword
  rcases List.mem_append.1 hword with hword | hword
  · obtain ⟨label, -, rfl⟩ := List.mem_map.1 hword
    simp [writeLabel]
  · rcases List.mem_cons.1 hword with rfl | hword
    · exact h.chain_ne_nil
    · obtain ⟨label, -, rfl⟩ := List.mem_map.1 hword
      simp [writeLabel]

theorem Statement.WellFormed.not_mem_words {statement : Statement} (h : statement.WellFormed)
    {c : Char} (hc : c ∈ [' ', ';']) : ∀ word ∈ statement.words, c ∉ word := by
  intro word hword
  rcases List.mem_append.1 hword with hword | hword
  · obtain ⟨label, hlabel, rfl⟩ := List.mem_map.1 hword
    exact not_mem_writeLabel (h.inputs label hlabel) hc
  · rcases List.mem_cons.1 hword with rfl | hword
    · obtain ⟨hsep, hother⟩ := outer_separator hc
      simp only [List.mem_cons, List.not_mem_nil, or_false, not_or] at hother
      exact h.not_mem_chain hsep hother.2.2.1 hother.2.2.2.1 hother.2.2.2.2
    · obtain ⟨label, hlabel, rfl⟩ := List.mem_map.1 hword
      exact not_mem_writeLabel (h.outputs label hlabel) hc

/-- The chain of a statement is not taken for a label. -/
theorem Statement.WellFormed.readLabel?_chain {statement : Statement} (h : statement.WellFormed) :
    readLabel? ([','].intercalate (statement.chain.map FilterCall.write)) = none := by
  have absent : '[' ∉ [','].intercalate (statement.chain.map FilterCall.write) :=
    h.not_mem_chain (by decide) (by decide) (by decide) (by decide)
  generalize [','].intercalate (statement.chain.map FilterCall.write) = word at absent ⊢
  unfold readLabel?
  split
  · exact absurd List.mem_cons_self absent
  · rfl

theorem Statement.WellFormed.readStatement?_write {statement : Statement}
    (h : statement.WellFormed) : readStatement? statement.write = some statement := by
  have hwords : (statement.write.splitOn ' ').filter (· ≠ []) = statement.words := by
    rw [Statement.write, List.splitOn_intercalate ' ' (h.not_mem_words (by decide))
      (by simp [Statement.words])]
    exact List.filter_eq_self.2 fun word hword => by simpa using h.words_ne_nil word hword
  have hinputs : ∀ word ∈ statement.inputs.map writeLabel, (readLabel? word).isSome = true := by
    intro word hword
    obtain ⟨label, hlabel, rfl⟩ := List.mem_map.1 hword
    rw [readLabel?_writeLabel (h.inputs label hlabel)]
    rfl
  have hlabels : (statement.inputs.map writeLabel).mapM readLabel? = some statement.inputs :=
    mapM_read_map_write fun label hlabel => readLabel?_writeLabel (h.inputs label hlabel)
  -- The inputs end at the chain, which is not taken for a label.
  have hstop : ∀ word ∈ ([','].intercalate (statement.chain.map FilterCall.write) ::
      statement.outputs.map writeLabel).head?, (readLabel? word).isSome = false := by
    intro word hword
    cases hword
    rw [h.readLabel?_chain]
    rfl
  have houtputs : (statement.outputs.map writeLabel).mapM readLabel? = some statement.outputs :=
    mapM_read_map_write fun label hlabel => readLabel?_writeLabel (h.outputs label hlabel)
  -- No call contains a comma, so the chain is split into its calls.
  have hsplit : ([','].intercalate (statement.chain.map FilterCall.write)).splitOn ',' =
      statement.chain.map FilterCall.write :=
    splitOn_intercalate_map h.applies fun call hcall =>
      (h.chain call hcall).not_mem_write (by decide) (by decide) (by decide)
  have hchain : (statement.chain.map FilterCall.write).map readCall = statement.chain :=
    map_read_map_write fun call hcall => (h.chain call hcall).readCall_write
  simp only [readStatement?, hwords, Statement.words, takeWhile_append_eq hinputs hstop,
    dropWhile_append_eq hinputs hstop, houtputs, hsplit, hchain, hlabels, Option.bind_eq_bind,
    Option.bind_some]

/-- Reading undoes writing. -/
theorem read?_write {program : List Statement} (h : ∀ statement ∈ program, statement.WellFormed) :
    read? (String.ofList (write program)) = some program := by
  by_cases hprogram : program = []
  · subst hprogram
    rfl
  · have hsplit : (write program).splitOn ';' = program.map Statement.write := by
      refine splitOn_intercalate_map hprogram fun statement hstatement hmem => ?_
      rcases mem_intercalate hmem with hmem | ⟨word, hword, hmem⟩
      · exact absurd hmem (by decide)
      · exact (h statement hstatement).not_mem_words (by decide) word hword hmem
    have hread : (program.map Statement.write).mapM readStatement? = some program :=
      mapM_read_map_write fun statement hstatement => (h statement hstatement).readStatement?_write
    -- The empty text is split into one empty statement, which cannot be read.
    have hne : String.ofList (write program) ≠ "" := by
      intro hempty
      have htext : write program = [] := by simpa using hempty
      rw [← hsplit, htext] at hread
      cases hread
    rw [read?, if_neg hne, String.toList_ofList, hsplit, hread]

end EpisodeCut.Program
