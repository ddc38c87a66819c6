import EpisodeCut.Proofs.FilterGraph.Wiring
import Mathlib.Data.Rat.Floor

/-!
# The meaning of filter programs

What reaches the output when the renderer runs a program. The renderer is given by the streams of
its inputs, by how it slices a signal and by how it normalises one (`Media`); a program is run
statement by statement, and every link gets a signal once (`Statement.step?`). The signals of a
command are those of the labels that it maps (`RenderCommand.signals?`).
-/

set_option autoImplicit false

namespace EpisodeCut

open Text Program

/-- What the renderer makes of its inputs. -/
structure Media (α : Type) where
  /-- The samples or pictures of a stream, counted among the streams of its track. -/
  stream : InputEntry → Track → Nat → List α
  /-- The slice of a signal with a start and a length in seconds. -/
  slice : ℚ → ℚ → List α → List α
  /-- A signal at even loudness. -/
  normalise : List α → List α

/-- Samples or pictures on a track. -/
abbrev Signal (α : Type) : Type :=
  Track × List α

/-- Media with `rate` samples or pictures in a second. -/
def Media.sampled {α : Type} (rate : Nat) (stream : InputEntry → Track → Nat → List α)
    (normalise : List α → List α) : Media α where
  stream := stream
  slice start duration signal := (signal.drop ⌊start * rate⌋₊).take ⌊duration * rate⌋₊
  normalise := normalise

namespace Program

/-- The track that a letter stands for. -/
def readTrack? : List Char → Option Track
  | ['a'] => some .audio
  | ['v'] => some .video
  | _ => none

/-- The input, the track and the stream that a label with colons names. No stream is stream zero. -/
def readInput? (label : String) : Option (Nat × Track × Nat) :=
  match label.toList.splitOn ':' with
  | [index, letter] => do
    let index ← Numeral.read? index
    let track ← readTrack? letter
    some (index, track, 0)
  | [index, letter, stream] => do
    let index ← Numeral.read? index
    let track ← readTrack? letter
    let stream ← Numeral.read? stream
    some (index, track, stream)
  | _ => none

/-- An option that is a decimal number. -/
def FilterCall.decimal? (call : FilterCall) (key : String) : Option ℚ := do
  let text ← call.options.lookup key
  Decimal.value? text.toList

/-- The track whose streams a join puts after one another. -/
def FilterCall.joinedTrack? (call : FilterCall) : Option Track :=
  match call.options.lookup "v", call.options.lookup "a" with
  | some "0", some "1" => some .audio
  | some "1", some "0" => some .video
  | _, _ => none

section

variable {α : Type} (media : Media α)

/-- The slice of a signal that the options of a trim ask for. -/
def FilterCall.trim? (call : FilterCall) (signal : List α) : Option (List α) := do
  let start ← call.decimal? "start"
  let duration ← call.decimal? "duration"
  some (media.slice start duration signal)

/-- Signals of one track after one another. Their number is given. -/
def FilterCall.join? (call : FilterCall) (signals : List (Signal α)) : Option (Signal α) := do
  let track ← call.joinedTrack?
  let count ← call.options.lookup "n"
  if Numeral.read? count.toList = some signals.length ∧ 2 ≤ signals.length ∧
      ∀ signal ∈ signals, signal.1 = track then
    some (track, (signals.map Prod.snd).flatten)
  else none

/-- The signal that a filter makes. Resetting the clock moves a signal in time and leaves its
samples as they are. -/
def FilterCall.signal? (call : FilterCall) (signals : List (Signal α)) : Option (Signal α) :=
  match call.name, signals with
  | "concat", signals => call.join? signals
  | "anull", [(.audio, signal)] => some (.audio, signal)
  | "null", [(.video, signal)] => some (.video, signal)
  | "atrim", [(.audio, signal)] => (call.trim? media signal).map (Track.audio, ·)
  | "trim", [(.video, signal)] => (call.trim? media signal).map (Track.video, ·)
  | "asetpts", [(.audio, signal)] =>
    if call.options = [("", "PTS-STARTPTS")] then some (.audio, signal) else none
  | "setpts", [(.video, signal)] =>
    if call.options = [("", "PTS-STARTPTS")] then some (.video, signal) else none
  | "dynaudnorm", [(.audio, signal)] => some (.audio, media.normalise signal)
  | _, _ => none

variable (inputs : List InputEntry)

/-- The signal under a label: that of a link, or a stream of an input. -/
def signalOf? (links : List (String × Signal α)) (label : String) : Option (Signal α) :=
  if IsLink label then links.lookup label
  else do
    let (index, track, stream) ← readInput? label
    let entry ← inputs[index]?
    some (track, media.stream entry track stream)

/-- Run a statement: its filters in turn on the signals that it reads. It writes one new link. -/
def Statement.step? (links : List (String × Signal α)) (statement : Statement) :
    Option (List (String × Signal α)) := do
  let read ← statement.inputs.mapM (signalOf? media inputs links)
  let written ← statement.chain.foldlM
    (fun signals call => (FilterCall.signal? media call signals).map fun signal => [signal]) read
  match written, statement.outputs with
  | [signal], [label] =>
    if IsLink label ∧ links.lookup label = none then some (links ++ [(label, signal)]) else none
  | _, _ => none

/-- Run a program. The result is the signals of its links. -/
def run? (program : List Statement) : Option (List (String × Signal α)) :=
  program.foldlM (Statement.step? media inputs) []

end

end Program

/-- The signals that a command sends to its output, in the order in which it maps them. -/
def RenderCommand.signals? {α : Type} (media : Media α) (command : RenderCommand) :
    Option (List (Signal α)) := do
  let program ← Program.read? command.program
  let links ← Program.run? media command.inputs program
  let labels ← mappedLabels? command.arguments
  labels.mapM fun label => links.lookup label

/-! ## Labels of inputs -/

namespace Pad

theorem readTrack?_letter (track : Track) : readTrack? track.letter.toList = some track := by
  cases track <;> rfl

theorem read?_text (n : Nat) : Numeral.read? (Numeral.text n).toList = some n := by
  rw [Numeral.toList_text, Numeral.read?_write]

/-- The label of an input stream is read as the input, the track and the stream. -/
theorem readInput?_label (index : Nat) (track : Track) (stream : UInt32) :
    readInput? (Pad.input index track stream).label = some (index, track, stream.toNat) := by
  have hindex : ':' ∉ (Numeral.text index).toList := (isPlain_numeral index).not_mem (by decide)
  have hletter : ':' ∉ track.letter.toList := by cases track <;> decide
  have hstream : ':' ∉ (Numeral.text stream.toNat).toList :=
    (isPlain_numeral stream.toNat).not_mem (by decide)
  by_cases hzero : stream = 0
  · -- Stream zero is not written, and a label without a stream is read as stream zero.
    subst hzero
    have htext : (Pad.input index track 0).label.toList =
        [':'].intercalate [(Numeral.text index).toList, track.letter.toList] := by
      simp [label, List.intercalate_cons_cons]
    have hsplit := List.splitOn_intercalate ':'
      (show ∀ part ∈ [(Numeral.text index).toList, track.letter.toList], ':' ∉ part by
        simp [hindex, hletter]) (by simp)
    simp only [readInput?, htext, hsplit, read?_text, readTrack?_letter]
    rfl
  · have htext : (Pad.input index track stream).label.toList =
        [':'].intercalate [(Numeral.text index).toList, track.letter.toList,
          (Numeral.text stream.toNat).toList] := by
      simp [label, hzero, List.intercalate_cons_cons]
    have hsplit := List.splitOn_intercalate ':'
      (show ∀ part ∈ [(Numeral.text index).toList, track.letter.toList,
        (Numeral.text stream.toNat).toList], ':' ∉ part by simp [hindex, hletter, hstream])
      (by simp)
    simp only [readInput?, htext, hsplit, read?_text, readTrack?_letter]
    rfl

end Pad

namespace Program

variable {α : Type} {media : Media α} {inputs : List InputEntry}
  {links : List (String × Signal α)}

theorem signalOf?_input {index : Nat} {entry : InputEntry} (h : inputs[index]? = some entry)
    (track : Track) (stream : UInt32) :
    signalOf? media inputs links (Pad.input index track stream).label =
      some (track, media.stream entry track stream.toNat) := by
  have hlink : ¬IsLink (Pad.input index track stream).label := by
    rw [Pad.isLink_label_iff]
    exact Bool.false_ne_true
  simp [signalOf?, hlink, Pad.readInput?_label, h]

/-- No two links have one label, so a link is found under its label. -/
theorem lookup_of_mem {label : String} {signal : Signal α}
    (distinct : (links.map Prod.fst).Nodup) (h : (label, signal) ∈ links) :
    links.lookup label = some signal := by
  obtain ⟨before, after, rfl⟩ := List.append_of_mem h
  rw [List.map_append, List.map_cons, List.nodup_append] at distinct
  rw [List.lookup_eq_some_iff]
  refine ⟨before, after, rfl, fun other hother => ?_⟩
  exact bne_iff_ne.2 (distinct.2.2 _ (List.mem_map_of_mem hother) _ List.mem_cons_self).symm

theorem signalOf?_link {pad : Pad} {signal : Signal α} (hpad : pad.isLink = true)
    (distinct : (links.map Prod.fst).Nodup) (h : (pad.label, signal) ∈ links) :
    signalOf? media inputs links pad.label = some signal := by
  rw [signalOf?, if_pos ((Pad.isLink_label_iff pad).2 hpad), lookup_of_mem distinct h]

end Program

end EpisodeCut
