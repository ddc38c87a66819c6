import EpisodeCut.Proofs.Config.Derived

/-!
# Accepted configurations are derivable

Whatever is read is derived by the grammar in which a frame may leave out its file and an input that
is only its kind stands last in its group (`configText_of_readGroups`). With the other direction this
grammar is the language of the reader: a text is read to specifications if and only if it derives
them (`parse_eq_ok_iff`). The documented grammar derives more, since its colon need not open the file
of an input.
-/

set_option autoImplicit false

namespace EpisodeCut.Config

open Text

/-! ## Single characters -/

theorem skipBlank_of_eat? {c : Char} {s rest : List Char} (h : eat? c s = some rest) :
    skipBlank s = c :: rest := by
  unfold eat? at h
  split at h
  · cases h
  · next d tail hs =>
    split at h
    · next hd =>
      cases h
      rw [hs, beq_iff_eq.1 hd]
    · cases h

/-- What a reader left and what the grammar leaves differ in layout only, so the next character can
be sought behind either. -/
theorem layout_of_eat? {c : Char} {s r rest : List Char} (begins : skipBlank s = skipBlank r)
    (h : eat? c r = some rest) : Layout s (c :: rest) :=
  layout_of_skipBlank (begins.trans (skipBlank_of_eat? h))

/-! ## Inputs -/

theorem mem_kindWords_of_lookup {word : List Char} {kind : MediaKind}
    (h : kindWords.lookup word = some kind) : (word, kind) ∈ kindWords := by
  obtain ⟨before, after, hwords, -⟩ := List.lookup_eq_some_iff.1 h
  rw [hwords]
  exact List.mem_append_right before List.mem_cons_self

theorem kindText_of_readKind {s rest : List Char} {kind : MediaKind}
    (h : readKind s = .ok (kind, rest)) : KindText s kind rest := by
  simp only [readKind] at h
  split at h
  · next hlookup =>
    cases h
    have known := mem_kindWords_of_lookup hlookup
    refine ⟨_, known, ?_⟩
    obtain ⟨c, more, hword, -⟩ := exists_cons_of_mem_kindWords known
    have hsplit : skipBlank s =
        c :: (more ++ (skipBlank s).dropWhile Char.isAlpha) := by
      rw [← List.cons_append, ← hword, List.takeWhile_append_dropWhile]
    rw [hword, List.cons_append]
    exact layout_of_skipBlank hsplit
  · split at h <;> cases h

/-- What has the shape of a file name can be written. -/
theorem IsFileName.exists_fileName {file : String} (h : IsFileName file) :
    ∃ name : FileName, file.toList = name.text := by
  obtain ⟨nonempty, starts, admitted, trimmed⟩ := h
  cases hfile : file.toList with
  | nil => exact absurd (String.toList_eq_nil_iff.1 hfile) nonempty
  | cons first more =>
    rw [hfile] at starts admitted trimmed
    refine ⟨⟨first, more, starts first rfl, ?_, ?_⟩, rfl⟩
    · exact fun c hc => admitted c (List.mem_cons_of_mem first hc)
    · intro c hc
      have hlast : c ∈ (first :: more).getLast? := by
        rw [List.getLast?_cons, Option.mem_def.1 hc]
        rfl
      have hblank := trimmed c hlast
      constructor
      · rintro rfl
        exact absurd hblank (by decide)
      · rintro rfl
        exact absurd hblank (by decide)

/-- A name that was read stands in the text, with the blanks behind it that were read too. -/
theorem exists_fileName_of_readFileName? {s rest : List Char} {file : String}
    (h : readFileName? s = some (file, rest)) :
    ∃ (name : FileName) (t : List Char), file = String.ofList name.text ∧ s = name.text ++ t ∧
      skipBlank t = skipBlank rest := by
  obtain ⟨name, hname⟩ := (isFileName_of_readFileName? h).exists_fileName
  unfold readFileName? at h
  split at h
  · cases h
    rw [String.toList_ofList] at hname
    obtain ⟨tail, htail, hwhite⟩ :=
      exists_eq_dropRightWhile_append isWhiteSpace (s.takeWhile isNameChar)
    rw [trimRight] at hname
    rw [hname] at htail
    refine ⟨name, tail ++ s.dropWhile isNameChar, ?_, ?_, ?_⟩
    · rw [trimRight, hname]
    · rw [← List.append_assoc, ← htail, List.takeWhile_append_dropWhile]
    · apply skipBlank_blanks
      intro c hc
      have hmem : c ∈ s.takeWhile isNameChar := by
        rw [htail]
        exact List.mem_append_right _ hc
      exact isLayout_of_isNameChar (List.all_eq_true.1 List.all_takeWhile c hmem) (hwhite c hc)
  · cases h

theorem sourceText_of_readSource (kind : MediaKind) (s : List Char) :
    ∃ rest, SourceText .accepted kind s (readSource kind s).1 rest ∧
      skipBlank rest = skipBlank (readSource kind s).2 := by
  simp only [readSource]
  split
  · next hprevious =>
    obtain ⟨rfl, hhead⟩ := hprevious
    obtain ⟨tail, htail⟩ := List.head?_eq_some_iff.1 hhead
    rw [htail]
    exact ⟨tail, .previous (layout_of_skipBlank htail), rfl⟩
  · split
    · next hname =>
      obtain ⟨name, t, rfl, htext, ht⟩ := exists_fileName_of_readFileName? hname
      exact ⟨t, .file name (layout_of_skipBlank htext), ht⟩
    · exact ⟨s, .omitted fun _ => rfl, (skipBlank_skipBlank s).symm⟩

/-- The longest head of digits is a numeral. -/
theorem numeralText_takeWhile {s : List Char} (digit : s.head?.any Char.isDigit = true) :
    NumeralText s (Numeral.value (s.takeWhile Char.isDigit)) (s.dropWhile Char.isDigit) := by
  refine ⟨s.takeWhile Char.isDigit, ?_, fun c hc => List.all_eq_true.1 List.all_takeWhile c hc, rfl,
    List.takeWhile_append_dropWhile.symm⟩
  cases s with
  | nil => cases digit
  | cons c rest =>
    have hc : c.isDigit = true := digit
    rw [List.takeWhile_cons_of_pos hc]
    exact List.cons_ne_nil _ _

theorem frame_of_lastFrame? {kind : MediaKind} {s rest : List Char}
    (h : lastFrame? kind s = some rest) : kind = .frame := by
  unfold lastFrame? at h
  split at h
  · next hkind => exact hkind
  · cases h

/-- An index begins with a digit, if neither a minus sign nor the word for the last frame begins
it. -/
theorem digit_of_startsIndex {kind : MediaKind} {s : List Char}
    (starts : startsIndex kind s = true) (minus : ¬s.head? = some '-')
    (last : lastFrame? kind s = none) : s.head?.any Char.isDigit = true := by
  rw [startsIndex, Bool.or_eq_true] at starts
  rcases starts with hhead | hword
  · cases s with
    | nil => cases hhead
    | cons c t =>
      rw [List.head?_cons, Option.any_some, Bool.or_eq_true, beq_iff_eq] at hhead
      rcases hhead with hdigit | rfl
      · exact hdigit
      · exact absurd rfl minus
  · obtain ⟨hkind, hword⟩ := Bool.and_eq_true_iff.1 hword
    obtain ⟨t, hword⟩ := Option.isSome_iff_exists.1 hword
    rw [lastFrame?, if_pos (of_decide_eq_true hkind), hword] at last
    cases last

/-- Layout before a digit has an end. -/
theorem layout_of_digit {s : List Char} (digit : (skipBlank s).head?.any Char.isDigit = true) :
    Layout s (skipBlank s) := by
  rcases layout_or_blank_of_skipBlank s with hs | ⟨hend, -⟩
  · exact hs
  · rw [hend] at digit
    cases digit

theorem indexText_of_readIndex {kind : MediaKind} {s rest : List Char} {n : FrameNumber}
    (starts : startsIndex kind (skipBlank s) = true)
    (h : readIndex kind (skipBlank s) = .ok (n, rest)) : IndexText kind s n rest := by
  simp only [readIndex] at h
  split at h
  · next hlast =>
    cases h
    obtain rfl := frame_of_lastFrame? hlast
    rw [lastFrame?, if_pos rfl] at hlast
    rcases Option.or_eq_some_iff.1 hlast with hword | ⟨-, hone⟩
    · exact .last (layout_of_skipBlank (lastWord?_eq_some_iff.1 hword).1)
    · exact .minusOne (layout_of_skipBlank (minusOne?_eq_some_iff.1 hone).1)
  · next hlast =>
    split at h
    · cases h
    · next hminus =>
      split at h
      · next hfits =>
        cases h
        have hdigit := digit_of_startsIndex starts hminus hlast
        have htext := numeralText_takeWhile hdigit
        refine .number _ (layout_of_digit hdigit) ?_
        rwa [UInt32.toNat_ofNat_of_lt' hfits]
      · cases h

/-- No index is read and nothing is lost, or an index stands behind a colon. -/
theorem readIndexField_cases {kind : MediaKind} {s rest : List Char} {index : Option FrameNumber}
    (h : readIndexField kind s = .ok (index, rest)) :
    (index = none ∧ rest = s) ∨ ∃ n t, index = some n ∧ eat? ':' s = some t ∧
      IndexText kind t n rest := by
  simp only [readIndexField] at h
  split at h
  · cases h
    exact .inl ⟨rfl, rfl⟩
  · next t hcolon =>
    split at h
    · next hstarts =>
      cases hread : readIndex kind (skipBlank t) with
      | error stop => rw [hread] at h; cases h
      | ok found =>
        rw [hread] at h
        cases h
        exact .inr ⟨found.1, t, rfl, hcolon, indexText_of_readIndex hstarts hread⟩
    · cases h
      exact .inl ⟨rfl, rfl⟩

/-- An input that was read is derived. No colon follows it if it is only its kind. -/
theorem inputText_of_readInput {s r : List Char} {input : Input}
    (h : readInput s = .ok (input, r)) :
    ∃ kindOnly rest, InputText .accepted kindOnly s input rest ∧ skipBlank rest = skipBlank r ∧
      (kindOnly = true → eat? ':' r = none) := by
  simp only [readInput, bind, Except.bind] at h
  split at h
  · cases h
  · next found hkind =>
    obtain ⟨kind, afterKind⟩ := found
    have hword := kindText_of_readKind hkind
    split at h
    · next hnone =>
      cases h
      exact ⟨true, afterKind, .kindOnly hword, rfl, fun _ => hnone⟩
    · next afterColon hcolon =>
      have colon := layout_of_eat? rfl hcolon
      split at h
      · cases h
      · next field hindex =>
        obtain ⟨index, rest⟩ := field
        cases h
        obtain ⟨afterSource, file, hafter⟩ := sourceText_of_readSource kind afterColon
        rcases readIndexField_cases hindex with ⟨rfl, rfl⟩ | ⟨n, t, rfl, hindexColon, index⟩
        · exact ⟨false, afterSource, .sourced hword colon file, hafter, fun h => by cases h⟩
        · exact ⟨false, rest, .indexed hword colon file (layout_of_eat? hafter hindexColon) index, rfl,
            fun h => by cases h⟩

theorem inputsText_of_readInputs {s : List Char} {found : List Input × List Char}
    (h : readInputs s = .ok found) :
    ∃ rest, InputsText .accepted s found.1 rest ∧ skipBlank rest = skipBlank found.2 := by
  fun_induction readInputs s generalizing found with
  | case1 => cases h
  | case2 s first r hfirst hend =>
    cases h
    obtain ⟨kindOnly, rest, text, hrest, -⟩ := inputText_of_readInput hfirst
    exact ⟨rest, .last text, hrest⟩
  | case3 => cases h
  | case4 s first r hfirst more hmore hlt others r' hothers ih =>
    cases h
    obtain ⟨kindOnly, afterFirst, text, hafter, hcolon⟩ := inputText_of_readInput hfirst
    obtain ⟨rest, following, hrest⟩ := ih hothers
    have hsourced : kindOnly = true → Rules.accepted.kindOnlyInside = true := by
      intro honly
      rw [hcolon honly] at hmore
      cases hmore
    exact ⟨rest, .cons text hsourced (layout_of_eat? hafter hmore) following, hrest⟩

/-! ## Times -/

/-- One field is read: it is the last one, or a colon and a further field follow. -/
theorem readClockFields_cases {start s : List Char} {clock : ClockTime} {room : Nat}
    {found : ClockTime × List Char} (digit : s.head?.any Char.isDigit = true)
    (h : readClockFields start clock room s = .ok found) :
    ∃ field : UInt64,
      (NumeralText s field.toNat found.2 ∧ found.1 = pushField clock field) ∨
      ∃ more room', NumeralText s field.toNat (':' :: more) ∧ more.head?.any Char.isDigit = true ∧
        room = room' + 1 ∧ readClockFields start (pushField clock field) room' more = .ok found := by
  have htext := numeralText_takeWhile digit
  rw [readClockFields] at h
  simp only at h
  split at h
  · next hfits =>
    have hfield : Numeral.value (s.takeWhile Char.isDigit) =
        (UInt64.ofNat (Numeral.value (s.takeWhile Char.isDigit))).toNat :=
      (UInt64.toNat_ofNat_of_lt' hfits).symm
    rw [hfield] at htext
    refine ⟨UInt64.ofNat (Numeral.value (s.takeWhile Char.isDigit)), ?_⟩
    split at h
    · next hcolon =>
      obtain ⟨hhead, hmore⟩ := hcolon
      obtain ⟨more, hrest⟩ := List.head?_eq_some_iff.1 hhead
      rw [hrest] at htext
      rw [hrest, List.drop_succ_cons, List.drop_zero] at h hmore
      split at h
      · cases h
      · next room' => exact .inr ⟨more, room', htext, hmore, rfl, h⟩
    · cases h
      exact .inl ⟨htext, rfl⟩
  · cases h

/-- At most three fields are read. -/
theorem fieldsText_of_readClockFields {start s : List Char} {found : ClockTime × List Char}
    (digit : s.head?.any Char.isDigit = true)
    (h : readClockFields start .zero 2 s = .ok found) : FieldsText s found.1 found.2 := by
  obtain ⟨first, ⟨htext, hclock⟩ | ⟨s', room, hfirst, hdigit, hroom, h⟩⟩ :=
    readClockFields_cases digit h
  · rw [hclock]
    exact .seconds htext
  cases hroom
  obtain ⟨second, ⟨htext, hclock⟩ | ⟨s'', room, hsecond, hdigit, hroom, h⟩⟩ :=
    readClockFields_cases hdigit h
  · rw [hclock]
    exact .minutes hfirst htext
  cases hroom
  obtain ⟨third, ⟨htext, hclock⟩ | ⟨_, _, _, _, hroom, _⟩⟩ := readClockFields_cases hdigit h
  · rw [hclock]
    exact .hours hfirst hsecond htext
  · cases hroom

/-- No fraction is read and nothing is lost, or digits stand behind a point. -/
theorem readFraction_cases {clock whole : ClockTime} {s rest : List Char}
    (h : readFraction clock s = .ok (whole, rest)) :
    (whole = clock ∧ rest = s) ∨ ∃ digits : List Char, s = '.' :: (digits ++ rest) ∧ digits ≠ [] ∧
      (∀ c ∈ digits, c.isDigit = true) ∧
      whole = { clock with millis := UInt64.ofNat (Timecode.fractionMillis digits) } := by
  simp only [readFraction] at h
  split at h
  · next hpoint =>
    obtain ⟨t, rfl⟩ := List.head?_eq_some_iff.1 hpoint
    rw [List.drop_succ_cons, List.drop_zero] at h
    split at h
    · cases h
    · next hnonempty =>
      cases h
      refine .inr ⟨t.takeWhile Char.isDigit, ?_, ?_, ?_, rfl⟩
      · rw [List.takeWhile_append_dropWhile]
      · rwa [List.isEmpty_iff] at hnonempty
      · exact fun c hc => List.all_eq_true.1 List.all_takeWhile c hc
  · cases h
    exact .inl ⟨rfl, rfl⟩

/-- A timestamp that was read is derived, and what stands right behind it may stand there. -/
theorem clockText_of_readTimestamp {s rest : List Char} {clock : ClockTime}
    (digit : s.head?.any Char.isDigit = true) (h : readTimestamp s = .ok (clock, rest)) :
    ClockText s clock rest ∧ rest.head?.all endsTimestamp = true := by
  simp only [readTimestamp, bind, Except.bind] at h
  split at h
  · cases h
  · next fields hfields =>
    obtain ⟨clock', afterFields⟩ := fields
    have htext := fieldsText_of_readClockFields digit hfields
    split at h
    · cases h
    · next whole hwhole =>
      obtain ⟨whole, afterWhole⟩ := whole
      split at h
      · next hends =>
        split at h
        · next hfits =>
          cases h
          rw [isSome_toTimecode?] at hfits
          refine ⟨?_, hends⟩
          rcases readFraction_cases hwhole with ⟨rfl, rfl⟩ | ⟨digits, rfl, nonempty, inside, rfl⟩
          · exact .whole htext hfits
          · refine .fraction htext nonempty inside ?_ hfits
            have hsmall := Timecode.fractionMillis_lt inside
            rw [UInt64.toNat_ofNat_of_lt' (Nat.lt_trans hsmall (by decide)),
              Timecode.fractionMillis_eq inside]
        · cases h
      · cases h

theorem referenceText_of_readReference {s r afterSign : List Char} {token : TimeToken}
    (sign : skipBlank s = '@' :: afterSign) (h : readReference afterSign = .ok (token, r)) :
    ∃ rest, ReferenceText s token rest ∧ skipBlank rest = skipBlank r := by
  unfold readReference at h
  split at h
  · next hname =>
    cases h
    obtain ⟨name, t, rfl, htext, ht⟩ := exists_fileName_of_readFileName? hname
    exact ⟨t, ⟨afterSign, name, layout_of_skipBlank sign, layout_of_skipBlank htext, rfl⟩, ht⟩
  · cases h

/-- A digit does not stand right behind a timestamp, so layout separates the next one. -/
theorem separation_of_digit {s : List Char} (ends : s.head?.all endsTimestamp = true)
    (digit : (skipBlank s).head?.any Char.isDigit = true) : Separation s (skipBlank s) := by
  cases hs : skipBlank s with
  | nil =>
    rw [hs] at digit
    cases digit
  | cons d t =>
    rw [hs] at digit
    obtain ⟨gap, htext⟩ := layout_of_skipBlank hs
    refine ⟨gap, ?_, htext⟩
    rintro rfl
    rw [htext] at ends
    have hdigit : d.isDigit = false := isDigit_eq_false_of_endsTimestamp ends
    rw [List.head?_cons, Option.any_some, hdigit] at digit
    cases digit

/-- What can be read as the times of a group: none, points, or a point with a duration. -/
theorem pointsText_of_readTimestamps {first : Bool} {s : List Char}
    {found : List TimeToken × List Char} (h : readTimestamps first s = .ok found) :
    found = ([], s) ∨ ∃ rest, skipBlank rest = skipBlank found.2 ∧
      ((∃ clocks, found.1 = clocks.map .timestamp ∧ PointsText s clocks rest) ∨
        ∃ clock token afterPoint, found.1 = [.timestamp clock, token] ∧ first = true ∧
          ClockText s clock afterPoint ∧ ReferenceText afterPoint token rest) := by
  fun_induction readTimestamps first s generalizing found with
  | case1 => cases h; exact .inl rfl
  | case2 => cases h
  | case3 => cases h
  | case4 d tail hd clock r ht hlt hat token r' hreference =>
    cases h
    obtain ⟨afterSign, hsign⟩ := List.head?_eq_some_iff.1 hat
    rw [hsign, List.drop_succ_cons, List.drop_zero] at hreference
    obtain ⟨rest, href, hrest⟩ := referenceText_of_readReference hsign hreference
    obtain ⟨hclock, -⟩ := clockText_of_readTimestamp (by exact hd) ht
    exact .inr ⟨rest, hrest, .inr ⟨clock, token, r, rfl, rfl, hclock, href⟩⟩
  | case5 => cases h
  | case6 => cases h
  | case7 first d tail hd clock r ht hlt hat others r' hothers ih =>
    cases h
    obtain ⟨hclock, hends⟩ := clockText_of_readTimestamp (by exact hd) ht
    refine .inr ?_
    rcases ih hothers with hnone | ⟨rest, hrest, ⟨clocks, hclocks, text⟩ | ⟨_, _, _, _, hfirst, _⟩⟩
    · cases hnone
      exact ⟨r, (skipBlank_skipBlank r).symm, .inl ⟨[clock], rfl, .last hclock⟩⟩
    · have hapart := separation_of_digit hends text.any_isDigit_head?
      simp only at hclocks
      rw [hclocks]
      exact ⟨rest, hrest, .inl ⟨clock :: clocks, rfl, .cons hclock hapart text⟩⟩
    · cases hfirst
  | case8 => cases h; exact .inl rfl

theorem timesText_of_readTimes {s r : List Char} {times : List TimeToken}
    (h : readTimes s = .ok (times, r)) :
    ∃ rest, TimesText s times rest ∧ skipBlank rest = skipBlank r := by
  simp only [readTimes] at h
  split at h
  · next hat =>
    obtain ⟨afterSign, hsign⟩ := List.head?_eq_some_iff.1 hat
    rw [hsign, List.drop_succ_cons, List.drop_zero] at h
    cases hreference : readReference afterSign with
    | error stop => rw [hreference] at h; cases h
    | ok found =>
      rw [hreference] at h
      cases h
      obtain ⟨rest, href, hrest⟩ := referenceText_of_readReference hsign hreference
      exact ⟨rest, .reference href, hrest⟩
  · rcases pointsText_of_readTimestamps h with hnone | ⟨rest, hrest, hpoints⟩
    · cases hnone
      exact ⟨s, .none, (skipBlank_skipBlank s).symm⟩
    · rcases hpoints with ⟨clocks, hclocks, text⟩ | ⟨clock, token, mid, htimes, -, text, href⟩
      · simp only at hclocks
        rw [hclocks]
        exact ⟨rest, .points (layout_of_digit text.any_isDigit_head?) text, hrest⟩
      · simp only at htimes
        rw [htimes]
        exact ⟨rest, .span (layout_of_digit text.any_isDigit_head?) text href, hrest⟩

/-! ## Configurations -/

theorem groupText_of_readGroup {s r : List Char} {specs : List InputSpec}
    (h : readGroup s = .ok (specs, r)) :
    ∃ rest, GroupText .accepted s specs rest ∧ skipBlank rest = skipBlank r := by
  simp only [readGroup, bind, Except.bind] at h
  split at h
  · cases h
  · next afterOpen hopen =>
    split at h
    · cases h
    · next inputs hinputs =>
      split at h
      · cases h
      · next afterClose hclose =>
        split at h
        · cases h
        · next times htimes =>
          obtain ⟨times, after⟩ := times
          cases h
          obtain ⟨afterInputs, heads, hafter⟩ := inputsText_of_readInputs hinputs
          obtain ⟨rest, timing, hrest⟩ := timesText_of_readTimes htimes
          refine ⟨rest, .group (layout_of_eat? rfl (eat?_of_expect hopen)) heads ?_ timing, hrest⟩
          exact layout_of_eat? hafter (eat?_of_expect hclose)

/-- Layout before a configuration does not matter. -/
theorem ConfigText.of_skipBlank {rules : Rules} {s s' : List Char} {specs : List InputSpec}
    (h : ConfigText rules s specs) (begins : skipBlank s' = skipBlank s) :
    ConfigText rules s' specs := by
  cases h with
  | nil blank => exact .nil (blank_of_skipBlank (begins.trans blank.skipBlank_eq))
  | cons first following =>
    obtain ⟨opening, heads, closing, timing⟩ := first
    have hopen := layout_of_skipBlank (begins.trans (opening.skipBlank_cons (by decide)))
    exact .cons (.group hopen heads closing timing) following

theorem configText_of_readGroups {s : List Char} {specs : List InputSpec}
    (h : readGroups s = .ok specs) : ConfigText .accepted s specs := by
  fun_induction readGroups s generalizing specs with
  | case1 s hend =>
    cases h
    exact .nil (blank_of_skipBlank hend)
  | case2 => cases h
  | case3 => cases h
  | case4 s tail found r others hothers hs hgroup hlt ih =>
    cases h
    obtain ⟨rest, group, hrest⟩ := groupText_of_readGroup hgroup
    have hbegins : skipBlank s = skipBlank ('[' :: tail) := by
      rw [hs, skipBlank_of_isSolid (by decide)]
    exact (ConfigText.cons group ((ih hothers).of_skipBlank hrest)).of_skipBlank hbegins
  | case5 => cases h

/-- A text is read to specifications if and only if it derives them in the grammar that is read. -/
theorem parse_eq_ok_iff {text : String} {specs : List InputSpec} :
    parse text = .ok specs ↔ ConfigText .accepted text.toList specs := by
  constructor
  · intro h
    unfold parse at h
    split at h
    · next hgroups =>
      cases h
      exact configText_of_readGroups hgroups
    · cases h
  · intro h
    rw [parse, h.readGroups_eq rfl rfl]

/-- The documented grammar is accepted as far as an input that is only its kind stands last in its
group: what is read are the inputs of the derivation, in their order. -/
theorem parse_of_predictive {text : String} {specs : List InputSpec}
    (derivation : ConfigText .predictive text.toList specs) : parse text = .ok specs :=
  parse_eq_ok_iff.2 (derivation.widen (Rules.predictive_within .accepted))

theorem videoText {rules : Rules} :
    InputText rules false ['v', ':', 't', 'a', 'l', 'k', '.', 'm', 'o', 'v', ']']
      ⟨.video, some (.file "talk.mov"), none⟩ [']'] :=
  .sourced ⟨['v'], by decide, Layout.refl _⟩ (Layout.refl _)
    (.file ⟨'t', ['a', 'l', 'k', '.', 'm', 'o', 'v'], rfl, List.all_eq_true.1 rfl, by simp⟩
      (Layout.refl _))

/-- An input without a file stands before another one if the colon of its file is written. -/
theorem parse_fileless_before_video :
    parse "[a::v:talk.mov]" =
      .ok [⟨.audio, none, none, []⟩, ⟨.video, some (.file "talk.mov"), none, []⟩] := by
  have first : InputText .predictive false
      ['a', ':', ':', 'v', ':', 't', 'a', 'l', 'k', '.', 'm', 'o', 'v', ']'] ⟨.audio, none, none⟩
      [':', 'v', ':', 't', 'a', 'l', 'k', '.', 'm', 'o', 'v', ']'] :=
    .sourced ⟨['a'], by decide, Layout.refl _⟩ (Layout.refl _) (.omitted (by decide))
  apply parse_of_predictive
  exact .cons (.group (Layout.refl _) (.cons first (by decide) (Layout.refl _)
    (.last videoText)) (Layout.refl _) .none) (.nil ⟨[], .inl rfl⟩)

theorem readInputs_error {s : List Char} {stop : Stop} (h : readInput s = .error stop) :
    readInputs s = .error stop := by
  rw [readInputs_step, h, Except.bind]

theorem readInputs_cons_error {s rest more : List Char} {first : Input} {stop : Stop}
    (hfirst : readInput s = .ok (first, rest)) (hmore : eat? ':' rest = some more)
    (hothers : readInputs more = .error stop) : readInputs s = .error stop := by
  rw [readInputs_step, hfirst]
  simp only [Except.bind, hmore, hothers, Except.map]

theorem readGroups_error {s tail : List Char} {stop : Stop} (hopen : skipBlank s = '[' :: tail)
    (hgroup : readGroup ('[' :: tail) = .error stop) : readGroups s = .error stop := by
  rw [readGroups_open hopen, hgroup, Except.bind]

/-- The documented grammar derives a text that is refused. The colon after `a` opens its file, which
is `v`; no input begins with what follows. -/
theorem documented_not_accepted :
    ConfigText .documented "[a:v:talk.mov]".toList
        [⟨.audio, none, none, []⟩, ⟨.video, some (.file "talk.mov"), none, []⟩] ∧
      parse "[a:v:talk.mov]" = .error (.malformed ⟨1, 6, "talk.mov]"⟩ (.unknownKind "talk")) := by
  constructor
  · have first : InputText .documented true
        ['a', ':', 'v', ':', 't', 'a', 'l', 'k', '.', 'm', 'o', 'v', ']'] ⟨.audio, none, none⟩
        [':', 'v', ':', 't', 'a', 'l', 'k', '.', 'm', 'o', 'v', ']'] :=
      .kindOnly ⟨['a'], by decide, Layout.refl _⟩
    exact .cons (.group (Layout.refl _) (.cons first (by decide) (Layout.refl _)
      (.last videoText)) (Layout.refl _) .none) (.nil ⟨[], .inl rfl⟩)
  · have hsecond : readInput ['t', 'a', 'l', 'k', '.', 'm', 'o', 'v', ']'] =
        .error ⟨.unknownKind "talk", ['t', 'a', 'l', 'k', '.', 'm', 'o', 'v', ']']⟩ := rfl
    have hfirst : readInput ['a', ':', 'v', ':', 't', 'a', 'l', 'k', '.', 'm', 'o', 'v', ']'] =
        .ok (⟨.audio, some (.file "v"), none⟩,
          [':', 't', 'a', 'l', 'k', '.', 'm', 'o', 'v', ']']) := rfl
    have hinputs := readInputs_cons_error hfirst rfl (readInputs_error hsecond)
    have hopen : expect '[' ['[', 'a', ':', 'v', ':', 't', 'a', 'l', 'k', '.', 'm', 'o', 'v', ']'] =
        .ok ['a', ':', 'v', ':', 't', 'a', 'l', 'k', '.', 'm', 'o', 'v', ']'] := rfl
    have hgroup : readGroup ['[', 'a', ':', 'v', ':', 't', 'a', 'l', 'k', '.', 'm', 'o', 'v', ']'] =
        .error ⟨.unknownKind "talk", ['t', 'a', 'l', 'k', '.', 'm', 'o', 'v', ']']⟩ := by
      simp only [readGroup, hopen, hinputs, bind, Except.bind]
    have hgroups : readGroups "[a:v:talk.mov]".toList =
        .error ⟨.unknownKind "talk", ['t', 'a', 'l', 'k', '.', 'm', 'o', 'v', ']']⟩ :=
      readGroups_error rfl hgroup
    have hposition : Position.ofSuffix "[a:v:talk.mov]".toList
        ['t', 'a', 'l', 'k', '.', 'm', 'o', 'v', ']'] = ⟨1, 6, "talk.mov]"⟩ := by decide
    simp only [parse, hgroups, hposition]

end EpisodeCut.Config
