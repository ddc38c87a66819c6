import EpisodeCut.Proofs.FilterGraph.Compiled
import EpisodeCut.Proofs.FilterGraph.Statements
import EpisodeCut.RenderCommand

/-!
# The labels that a rendering command maps

Which pads of the filter program reach the output, read from the argument list of the command. The
options of inputs are free text, so the list is read from its end: the output, and before it options
with one value each, back to the filter program (`RenderCommand.outputOptions`). The labels mapped
are those of the joined or normalised audio and of the joined video, each if its track is joined
(`mappedLabels?_arguments`).
-/

set_option autoImplicit false

namespace EpisodeCut.RenderCommand

/-- Read options backwards: values before names, up to the filter program. -/
def readOptionsBack : List String → List (String × String)
  | value :: name :: rest =>
    if name = "-filter_complex" then [] else readOptionsBack rest ++ [(name, value)]
  | _ => []

/-- The options between the filter program and the output. -/
def outputOptions (arguments : List String) : List (String × String) :=
  readOptionsBack (arguments.reverse.drop 1)

/-- The labels that are mapped to the output. -/
def mappedLabels? (arguments : List String) : Option (List String) :=
  ((outputOptions arguments).filter (·.1 = "-map")).mapM fun option =>
    Program.readLabel? option.2.toList

/-- Options as arguments. -/
def words (options : List (String × String)) : List String :=
  options.flatMap fun option => [option.1, option.2]

/-- The options for the audio track. -/
def audioOptions (command : RenderCommand) : List (String × String) :=
  [("-codec:a", command.flags.audioCodec)] ++ (if command.flags.mono then [("-ac", "1")] else []) ++
    [("-map", command.audioPad.text)]

/-- The options for the video track. -/
def videoOptions (command : RenderCommand) : List (String × String) :=
  [("-codec:v", command.flags.videoCodec)] ++
    (if command.flags.standardPixels then [("-pix_fmt", "yuv420p")] else []) ++
    [("-map", (Pad.joined .video).text)]

/-- The options of all joined tracks. -/
def trackOptions (command : RenderCommand) : List (String × String) :=
  (if command.hasAudio then command.audioOptions else []) ++
    (if command.hasVideo then command.videoOptions else [])

theorem readOptionsBack_reverse_words {options : List (String × String)}
    (names : ∀ option ∈ options, option.1 ≠ "-filter_complex") (program : String)
    (rest : List String) :
    readOptionsBack ((words options).reverse ++ program :: "-filter_complex" :: rest) =
      options := by
  -- The options are read from the last one, so the induction is on their reverse.
  induction h : options.reverse generalizing options with
  | nil =>
    rw [List.reverse_eq_nil_iff.1 h]
    rfl
  | cons last front ih =>
    obtain rfl : options = front.reverse ++ [last] := by
      rw [← List.reverse_reverse options, h, List.reverse_cons]
    have hlast : last.1 ≠ "-filter_complex" := names last (by simp)
    have hfront : readOptionsBack ((words front.reverse).reverse ++
        program :: "-filter_complex" :: rest) = front.reverse :=
      ih (fun option hoption => names option (List.mem_append_left _ hoption))
        (List.reverse_reverse front)
    have hwords : (words (front.reverse ++ [last])).reverse =
        last.2 :: last.1 :: (words front.reverse).reverse := by
      simp [words, List.flatMap_append]
    rw [hwords, List.cons_append, List.cons_append, readOptionsBack, if_neg hlast, hfront]

theorem audioArguments_eq_words (command : RenderCommand) :
    command.audioArguments = words command.audioOptions := by
  rw [audioArguments, audioOptions]
  split <;> rfl

theorem videoArguments_eq_words (command : RenderCommand) :
    command.videoArguments = words command.videoOptions := by
  rw [videoArguments, videoOptions]
  split <;> rfl

theorem trackOptions_names (command : RenderCommand) :
    ∀ option ∈ command.trackOptions, option.1 ≠ "-filter_complex" := by
  intro option hoption
  simp only [trackOptions, audioOptions, videoOptions, List.mem_append, List.mem_ite_nil_right,
    List.mem_singleton] at hoption
  rcases hoption with ⟨-, (rfl | ⟨-, rfl⟩) | rfl⟩ | ⟨-, (rfl | ⟨-, rfl⟩) | rfl⟩ <;> simp

theorem arguments_eq (command : RenderCommand) :
    command.arguments = (["-y", "-nostdin"] ++ command.inputs.flatMap inputArguments) ++
      "-filter_complex" :: command.program :: (words command.trackOptions ++ [command.output]) := by
  have htracks : words command.trackOptions =
      (if command.hasAudio then command.audioArguments else []) ++
        (if command.hasVideo then command.videoArguments else []) := by
    rw [trackOptions, words, List.flatMap_append, audioArguments_eq_words, videoArguments_eq_words]
    split <;> split <;> rfl
  rw [htracks, arguments]
  simp only [List.append_assoc, List.cons_append, List.nil_append]

theorem outputOptions_arguments (command : RenderCommand) :
    outputOptions command.arguments = command.trackOptions := by
  have hreverse : command.arguments.reverse.drop 1 = (words command.trackOptions).reverse ++
      command.program :: "-filter_complex" ::
        (["-y", "-nostdin"] ++ command.inputs.flatMap inputArguments).reverse := by
    rw [arguments_eq, List.reverse_append, List.reverse_cons, List.reverse_cons,
      List.reverse_append, List.reverse_singleton]
    simp only [List.append_assoc, List.cons_append, List.nil_append, List.drop_succ_cons,
      List.drop_zero]
  rw [outputOptions, hreverse, readOptionsBack_reverse_words command.trackOptions_names]

/-- The options with the name `-map`. -/
theorem filter_trackOptions (command : RenderCommand) :
    command.trackOptions.filter (·.1 = "-map") =
      ((if command.hasAudio then [command.audioPad] else []) ++
        (if command.hasVideo then [Pad.joined .video] else [])).map fun pad =>
          ("-map", pad.text) := by
  have haudio : command.audioOptions.filter (·.1 = "-map") = [("-map", command.audioPad.text)] := by
    rw [audioOptions]
    split <;> rfl
  have hvideo : command.videoOptions.filter (·.1 = "-map") =
      [("-map", (Pad.joined .video).text)] := by
    rw [videoOptions]
    split <;> rfl
  rw [trackOptions, List.filter_append]
  split <;> split <;> simp only [haudio, hvideo, List.filter_nil, List.map_append, List.map_cons,
    List.map_nil]

/-- The audio track is mapped from the joined or normalised audio, the video track from the joined
video, each of them if it is there. -/
theorem mappedLabels?_arguments (command : RenderCommand) :
    mappedLabels? command.arguments =
      some (((if command.hasAudio then [command.audioPad] else []) ++
        (if command.hasVideo then [Pad.joined .video] else [])).map Pad.label) := by
  rw [mappedLabels?, outputOptions_arguments, filter_trackOptions, List.mapM_map]
  refine Program.mapM_eq_some_map fun pad _ => ?_
  rw [Function.comp_apply, Pad.toList_text, Program.readLabel?_writeLabel pad.isLabel_label]

end EpisodeCut.RenderCommand
