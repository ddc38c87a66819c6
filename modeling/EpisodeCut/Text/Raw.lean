/-!
# Text from the operating system

Arguments and paths come from the operating system as bytes. Most of them are text, but bytes may
stand between the characters that belong to none (`RawChar`). Where text is needed, such a `Raw` is
refused (`Raw.text?`); where it is only shown, each run of such bytes is shown as one replacement
character (`Raw.shown`).
-/

set_option autoImplicit false

namespace EpisodeCut.Text

/-- A piece of what the operating system hands over. -/
inductive RawChar where
  | char (c : Char)
  /-- Bytes that belong to no character, as many as one replacement character stands for. -/
  | stray
  deriving DecidableEq, Repr

namespace RawChar

/-- The character, if it is one. -/
def char? : RawChar → Option Char
  | .char c => some c
  | .stray => none

/-- The character that is shown. -/
def shown : RawChar → Char
  | .char c => c
  | .stray => '\uFFFD'

end RawChar

/-- What the operating system hands over. -/
abbrev Raw := List RawChar

namespace Raw

/-- Text as the operating system hands it over. -/
def ofString (text : String) : Raw :=
  text.toList.map .char

/-- The text, if it is text throughout. -/
def text? (raw : Raw) : Option String :=
  (raw.mapM RawChar.char?).map String.ofList

/-- The text that is shown. -/
def shown (raw : Raw) : String :=
  String.ofList (raw.map RawChar.shown)

/-- Whether a directory on the way to a file has a name that is no text. -/
def strayDirectory (path : Raw) : Bool :=
  decide (.stray ∈ path.reverse.dropWhile (· != .char '/'))

theorem mapM_char?_eq_some {raw : Raw} {s : List Char} (h : raw.mapM RawChar.char? = some s) :
    raw = s.map .char := by
  induction raw generalizing s with
  | nil =>
    cases h
    rfl
  | cons first rest ih =>
    cases first with
    | stray => simp [RawChar.char?] at h
    | char c =>
      simp only [List.mapM_cons, RawChar.char?, Option.pure_def, Option.bind_eq_bind,
        Option.bind_some, Option.bind_eq_some_iff, Option.some.injEq] at h
      obtain ⟨others, hrest, rfl⟩ := h
      rw [ih hrest, List.map_cons]

/-- What is text throughout is that text as the operating system hands it over. -/
theorem eq_ofString_of_text? {raw : Raw} {text : String} (h : raw.text? = some text) :
    raw = ofString text := by
  obtain ⟨s, hs, rfl⟩ := Option.map_eq_some_iff.1 h
  rw [ofString, String.toList_ofList]
  exact mapM_char?_eq_some hs

/-- Text is shown as it is. -/
theorem shown_ofString (text : String) : (ofString text).shown = text := by
  have hchars : text.toList.map (RawChar.shown ∘ RawChar.char) = text.toList.map id := rfl
  rw [ofString, shown, List.map_map, hchars, List.map_id, String.ofList_toList]

theorem shown_of_text? {raw : Raw} {text : String} (h : raw.text? = some text) :
    raw.shown = text := by
  rw [eq_ofString_of_text? h, shown_ofString]

/-- Text leads through directories whose names are text. -/
theorem strayDirectory_of_text? {raw : Raw} {text : String} (h : raw.text? = some text) :
    raw.strayDirectory = false := by
  rw [strayDirectory, eq_ofString_of_text? h, ofString]
  refine decide_eq_false fun hstray => ?_
  have hmem := (List.dropWhile_sublist _).subset hstray
  rw [List.mem_reverse] at hmem
  obtain ⟨c, -, hc⟩ := List.mem_map.1 hmem
  cases hc

end Raw

end EpisodeCut.Text
