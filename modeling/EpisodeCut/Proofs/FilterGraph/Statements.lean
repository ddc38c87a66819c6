import EpisodeCut.Proofs.FilterGraph.Program
import EpisodeCut.Proofs.Text.Decimal

/-!
# The statements of a filter graph

Each filter that trims, joins or normalises is one statement of the program (`Filter.statement?`).
The text of a graph of such filters reads back as their statements (`FilterGraph.read?_program`).
-/

set_option autoImplicit false

namespace EpisodeCut

open Text Program

namespace Pad

/-- The label of a pad without its brackets. -/
def label : Pad → String
  | .input index track stream =>
    if stream = 0 then Numeral.text index ++ ":" ++ track.letter
    else Numeral.text index ++ ":" ++ track.letter ++ ":" ++ Numeral.text stream.toNat
  | .segment track number => track.letter ++ Numeral.text number
  | .joined track => track.letter ++ "conc"
  | .normalised => "anorm"

theorem isPlain_numeral (n : Nat) : IsPlain (Numeral.text n).toList := by
  intro c hc hsep
  rw [Numeral.toList_text] at hc
  exact Numeral.not_mem_write (not_isDigit_of_mem_separators hsep) n hc

theorem toList_text (pad : Pad) : pad.text.toList = writeLabel pad.label := by
  cases pad with
  | input index track stream =>
    simp only [text, label, writeLabel]
    split <;> simp
  | segment track number => simp [text, label, writeLabel]
  | joined track => simp [text, label, writeLabel]
  | normalised => rfl

theorem isLabel_label (pad : Pad) : IsLabel pad.label.toList := by
  have hletter : ∀ track : Track, IsLabel track.letter.toList := by
    intro track
    cases track <;> decide
  have hnumeral : ∀ n, IsLabel (Numeral.text n).toList := fun n => (isPlain_numeral n).isLabel
  have hcolon : IsLabel ":".toList := by decide
  cases pad with
  | input index track stream =>
    rw [label]
    split
    · rw [String.toList_append, String.toList_append]
      exact ((hnumeral index).append hcolon).append (hletter track)
    · rw [String.toList_append, String.toList_append, String.toList_append, String.toList_append]
      exact ((((hnumeral index).append hcolon).append (hletter track)).append hcolon).append
        (hnumeral stream.toNat)
  | segment track number =>
    rw [label, String.toList_append]
    exact (hletter track).append (hnumeral number)
  | joined track => cases track <;> decide
  | normalised => decide

end Pad

/-! ## One statement for each filter -/

namespace Filter

/-- The counts of joined streams, as options. -/
def countOptions : Track → List (String × String)
  | .audio => [("v", "0"), ("a", "1")]
  | .video => [("v", "1"), ("a", "0")]

/-- The call of the filter that joins `n` streams. -/
def concatCall (track : Track) (n : Nat) : FilterCall :=
  ⟨"concat", ("n", Numeral.text n) :: countOptions track⟩

/-- The statement of a filter. A filter given as text is not understood, and a join of nothing is
no filter. -/
def statement? : Filter → Option Statement
  | .trim track source start duration result =>
    some ⟨[source.label],
      [⟨trimName track, [("start", start.seconds), ("duration", duration.seconds)]⟩,
        ⟨clockName track, [("", "PTS-STARTPTS")]⟩], [result.label]⟩
  | .join _ [] => none
  | .join track [pad] => some ⟨[pad.label], [⟨passName track, []⟩], [(Pad.joined track).label]⟩
  | .join track pads =>
    some ⟨pads.map Pad.label, [concatCall track pads.length], [(Pad.joined track).label]⟩
  | .normalise =>
    some ⟨[(Pad.joined .audio).label], [⟨"dynaudnorm", [("r", "0.25"), ("f", "10"), ("b", "y")]⟩],
      [Pad.normalised.label]⟩
  | .verbatim _ => none

theorem statement?_join {track : Track} {pads : List Pad} (several : 2 ≤ pads.length) :
    (Filter.join track pads).statement? =
      some ⟨pads.map Pad.label, [concatCall track pads.length], [(Pad.joined track).label]⟩ := by
  obtain _ | ⟨pad, _ | ⟨next, pads⟩⟩ := pads
  · simp at several
  · simp at several
  · rfl

theorem write_concatCall (track : Track) (n : Nat) :
    (concatCall track n).write =
      ("concat=n=" ++ Numeral.text n ++ ":" ++ joinCounts track).toList := by
  cases track <;>
    simp [concatCall, FilterCall.write, writeOption, countOptions, joinCounts,
      List.intercalate_cons_cons]

/-- The text of a join of several pads, word by word. -/
theorem text_join {track : Track} {pads : List Pad} (several : 2 ≤ pads.length) :
    (Filter.join track pads).text = " ".intercalate (pads.map Pad.text ++
      ["concat=n=" ++ Numeral.text pads.length ++ ":" ++ joinCounts track,
        (Pad.joined track).text]) := by
  obtain _ | ⟨pad, _ | ⟨next, pads⟩⟩ := pads
  · simp at several
  · simp at several
  · rw [String.intercalate_append_of_ne_nil (by simp) (by simp), text,
      show (" concat=n=" : String) = " " ++ "concat=n=" from rfl]
    · simp only [String.intercalate_cons_cons, String.intercalate_singleton, String.append_assoc]
    · simp

theorem toList_text_of_statement? {filter : Filter} {statement : Statement}
    (h : filter.statement? = some statement) : filter.text.toList = statement.write := by
  cases filter with
  | trim track source start duration result =>
    cases h
    simp [text, Statement.write, Statement.words, FilterCall.write, writeOption,
      Pad.toList_text, List.intercalate_cons_cons, List.intercalate_singleton]
  | join track pads =>
    obtain _ | ⟨pad, _ | ⟨next, pads⟩⟩ := pads
    · cases h
    · cases h
      simp [text, Statement.write, Statement.words, FilterCall.write, Pad.toList_text,
        List.intercalate_cons_cons]
    · cases h
      have hlabels : ((pad :: next :: pads).map Pad.text).map String.toList =
          ((pad :: next :: pads).map Pad.label).map writeLabel := by
        rw [List.map_map, List.map_map]
        exact List.map_congr_left fun pad _ => pad.toList_text
      rw [text_join (by simp), String.toList_intercalate, List.map_append, hlabels,
        Statement.write, Statement.words, List.map_singleton, List.intercalate_singleton]
      -- The words before the call agree; what is left is the call and the label of the result.
      congr 2
      rw [write_concatCall, List.map_cons, List.map_singleton, Pad.toList_text]
      rfl
  | normalise =>
    cases h
    rfl
  | verbatim text => cases h

theorem isPlain_seconds (t : Timecode) : IsPlain t.seconds.toList := by
  intro c hc hsep
  rw [Timecode.seconds, String.toList_ofList] at hc
  rcases Timecode.isDigit_or_point_of_mem_secondsText hc with h | rfl
  · rw [not_isDigit_of_mem_separators hsep] at h
    cases h
  · exact absurd hsep (by decide)

theorem isPlain_names (track : Track) :
    ∀ name ∈ [trimName track, clockName track, passName track],
      name.toList ≠ [] ∧ IsPlain name.toList := by
  cases track <;> decide

theorem wellFormed_concatCall (track : Track) (n : Nat) : (concatCall track n).WellFormed := by
  have hname : "concat".toList ≠ [] ∧ IsPlain "concat".toList := by decide
  have hkey : IsPlain "n".toList := by decide
  have hcounts : ∀ option ∈ countOptions track,
      IsPlain option.1.toList ∧ IsPlain option.2.toList := by
    cases track <;> decide
  refine ⟨hname.1, hname.2, fun option hoption => ?_⟩
  rcases List.mem_cons.1 hoption with rfl | hoption
  · exact ⟨hkey, Pad.isPlain_numeral n⟩
  · exact hcounts option hoption

theorem wellFormed_trim (track : Track) (start duration : Timecode) :
    (FilterCall.mk (trimName track)
      [("start", start.seconds), ("duration", duration.seconds)]).WellFormed := by
  have hname := isPlain_names track (trimName track) (by simp)
  have hkeys : IsPlain "start".toList ∧ IsPlain "duration".toList := by decide
  refine ⟨hname.1, hname.2, fun option hoption => ?_⟩
  simp only [List.mem_cons, List.not_mem_nil, or_false] at hoption
  rcases hoption with rfl | rfl
  · exact ⟨hkeys.1, isPlain_seconds start⟩
  · exact ⟨hkeys.2, isPlain_seconds duration⟩

theorem wellFormed_clock (track : Track) :
    (FilterCall.mk (clockName track) [("", "PTS-STARTPTS")]).WellFormed := by
  have hname := isPlain_names track (clockName track) (by simp)
  have hoption : IsPlain "".toList ∧ IsPlain "PTS-STARTPTS".toList := by decide
  refine ⟨hname.1, hname.2, fun option h => ?_⟩
  rw [List.mem_singleton.1 h]
  exact hoption

theorem wellFormed_pass (track : Track) : (FilterCall.mk (passName track) []).WellFormed := by
  have hname := isPlain_names track (passName track) (by simp)
  exact ⟨hname.1, hname.2, fun option h => absurd h List.not_mem_nil⟩

theorem wellFormed_of_statement? {filter : Filter} {statement : Statement}
    (h : filter.statement? = some statement) : statement.WellFormed := by
  have hpad : ∀ pad : Pad, ∀ label ∈ [pad.label], IsLabel label.toList := by
    intro pad label hlabel
    rw [List.mem_singleton.1 hlabel]
    exact pad.isLabel_label
  cases filter with
  | trim track source start duration result =>
    cases h
    refine ⟨hpad source, by simp, ?_, hpad result⟩
    intro call hcall
    simp only [List.mem_cons, List.not_mem_nil, or_false] at hcall
    rcases hcall with rfl | rfl
    · exact wellFormed_trim track start duration
    · exact wellFormed_clock track
  | join track pads =>
    obtain _ | ⟨pad, _ | ⟨next, pads⟩⟩ := pads
    · cases h
    · cases h
      refine ⟨hpad pad, by simp, ?_, hpad (.joined track)⟩
      intro call hcall
      rw [List.mem_singleton.1 hcall]
      exact wellFormed_pass track
    · cases h
      refine ⟨?_, by simp, ?_, hpad (.joined track)⟩
      · intro label hlabel
        obtain ⟨pad, -, rfl⟩ := List.mem_map.1 hlabel
        exact pad.isLabel_label
      · intro call hcall
        rw [List.mem_singleton.1 hcall]
        exact wellFormed_concatCall track _
  | normalise =>
    cases h
    refine ⟨hpad (.joined .audio), by simp, ?_, hpad .normalised⟩
    intro call hcall
    rw [List.mem_singleton.1 hcall]
    exact ⟨by decide, by decide, by decide⟩
  | verbatim text => cases h

end Filter

namespace FilterGraph

/-- The text of a program reads back as the statements of its filters. -/
theorem read?_program {graph : FilterGraph} {program : List Statement}
    (h : graph.filters.mapM Filter.statement? = some program) :
    Program.read? graph.program = some program := by
  obtain ⟨filters⟩ := graph
  -- Induction on the filters: their texts are those of the statements, which can be read back.
  have hread : filters.map (fun filter => filter.text.toList) = program.map Statement.write ∧
      ∀ statement ∈ program, statement.WellFormed := by
    induction filters generalizing program with
    | nil =>
      cases h
      exact ⟨rfl, by simp⟩
    | cons filter filters ih =>
      obtain ⟨statement, rest, hstatement, hrest, rfl⟩ := mapM_cons_eq_some_iff.1 h
      obtain ⟨htexts, hwell⟩ := ih hrest
      refine ⟨?_, ?_⟩
      · rw [List.map_cons, List.map_cons, htexts, Filter.toList_text_of_statement? hstatement]
      · intro other hother
        rcases List.mem_cons.1 hother with rfl | hother
        · exact Filter.wellFormed_of_statement? hstatement
        · exact hwell other hother
  have htext : (FilterGraph.mk filters).program = String.ofList (Program.write program) := by
    rw [← String.toList_inj, String.toList_ofList, FilterGraph.program, String.toList_intercalate,
      texts, List.map_map, Program.write, ← hread.1]
    rfl
  rw [htext, read?_write hread.2]

end FilterGraph

end EpisodeCut
