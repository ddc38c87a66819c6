import EpisodeCut.FilterGraph.Pad
import EpisodeCut.Timecode

/-!
# Filter graphs

The program that the renderer applies to the streams of its inputs, as a list of filters. Each
filter reads some pads and writes one (`Filter`); the program is the filters' texts with semicolons
between them (`FilterGraph.program`).
-/

set_option autoImplicit false

namespace EpisodeCut

/-- One filter of a program. -/
inductive Filter where
  /-- The slice of `source` from `start` on, with its clock set back to zero. -/
  | trim (track : Track) (source : Pad) (start duration : Timecode) (result : Pad)
  /-- The pads of a track after one another. A single one is passed on. -/
  | join (track : Track) (pads : List Pad)
  /-- The joined audio at even loudness. -/
  | normalise
  /-- A filter given as text. -/
  | verbatim (text : String)
  deriving DecidableEq, Repr

namespace Filter

/-- The name of the filter that cuts a slice. -/
def trimName : Track → String
  | .audio => "atrim"
  | .video => "trim"

/-- The name of the filter that sets the clock. -/
def clockName : Track → String
  | .audio => "asetpts"
  | .video => "setpts"

/-- The name of the filter that passes its input on. -/
def passName : Track → String
  | .audio => "anull"
  | .video => "null"

/-- How many streams of each track come out of a join. -/
def joinCounts : Track → String
  | .audio => "v=0:a=1"
  | .video => "v=1:a=0"

/-- The text of a filter. -/
def text : Filter → String
  | .trim track source start duration result =>
    source.text ++ " " ++ trimName track ++ "=start=" ++ start.seconds ++ ":duration=" ++
      duration.seconds ++ "," ++ clockName track ++ "=PTS-STARTPTS " ++ result.text
  | .join track [pad] => pad.text ++ " " ++ passName track ++ " " ++ (Pad.joined track).text
  | .join track pads =>
    " ".intercalate (pads.map Pad.text) ++ " concat=n=" ++ Text.Numeral.text pads.length ++ ":" ++
      joinCounts track ++ " " ++ (Pad.joined track).text
  | .normalise =>
    (Pad.joined .audio).text ++ " dynaudnorm=r=0.25:f=10:b=y " ++ Pad.normalised.text
  | .verbatim text => text

/-- Whether a filter joins a track. -/
def joins (track : Track) : Filter → Bool
  | .join joined _ => joined = track
  | _ => false

end Filter

/-- The filters of a program in order. -/
structure FilterGraph where
  filters : List Filter
  deriving DecidableEq, Repr, Inhabited

namespace FilterGraph

/-- The program without filters. -/
def empty : FilterGraph := ⟨[]⟩

/-- Add a filter at the end. -/
def push (graph : FilterGraph) (filter : Filter) : FilterGraph :=
  ⟨graph.filters ++ [filter]⟩

/-- Add a filter given as text, unless the text is empty. -/
def pushText (graph : FilterGraph) (text : String) : FilterGraph :=
  if text.isEmpty then graph else graph.push (.verbatim text)

/-- Whether a track is joined in the program. -/
def hasTrack (graph : FilterGraph) (track : Track) : Bool :=
  graph.filters.any (·.joins track)

/-- Normalise the joined audio, if there is any. -/
def pushNormalise (graph : FilterGraph) : FilterGraph :=
  if graph.hasTrack .audio then graph.push .normalise else graph

/-- The texts of the filters. -/
def texts (graph : FilterGraph) : List String :=
  graph.filters.map Filter.text

/-- The text of the program. -/
def program (graph : FilterGraph) : String :=
  ";".intercalate graph.texts

end FilterGraph

end EpisodeCut
