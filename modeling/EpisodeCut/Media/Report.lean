import EpisodeCut.Json.Record

/-!
# Reports on media files

The report of the probing tool is a JSON record with a list of streams and a description of the
container (`ProbeReport`). What it says beyond the fields named here is passed over, but all of it
has to be JSON.
-/

set_option autoImplicit false

namespace EpisodeCut

open Json (Field Reader Schema)

/-- What the report says about a stream. -/
structure StreamReport where
  codecType : Option String
  width : Option UInt32
  height : Option UInt32
  frames : Option String
  deriving DecidableEq, Repr

/-- What the report says about the container. -/
structure FormatReport where
  duration : Option String
  deriving DecidableEq, Repr

/-- The report of the probing tool. -/
structure ProbeReport where
  streams : List StreamReport
  format : Option FormatReport
  deriving DecidableEq, Repr

/-- The form of the record of a stream. Each field may be null. -/
def StreamReport.schema : Schema StreamReport where
  name := "ProbeStream"
  absent := ⟨none, none, none, none⟩
  fields :=
    [⟨"codec_type", Reader.text.optional.map fun value stream => { stream with codecType := value },
       false⟩,
     ⟨"width", Reader.word.optional.map fun value stream => { stream with width := value }, false⟩,
     ⟨"height", Reader.word.optional.map fun value stream => { stream with height := value },
       false⟩,
     ⟨"nb_frames", Reader.text.optional.map fun value stream => { stream with frames := value },
       false⟩]

/-- The form of the record of the container. -/
def FormatReport.schema : Schema FormatReport where
  name := "ProbeFormat"
  absent := ⟨none⟩
  fields :=
    [⟨"duration", Reader.text.optional.map fun value format => { format with duration := value },
       false⟩]

namespace ProbeReport

/-- The form of a report. The streams may be absent but not null. -/
def schema : Schema ProbeReport where
  name := "ProbeOut"
  absent := ⟨[], none⟩
  fields :=
    [⟨"streams",
       StreamReport.schema.reader.list.map fun value report => { report with streams := value },
       true⟩,
     ⟨"format",
       FormatReport.schema.reader.optional.map fun value report => { report with format := value },
       false⟩]

/-- Read the text of a report. -/
def read (output : List UInt8) : Except Json.Complaint ProbeReport :=
  Json.read schema.reader output

end ProbeReport

end EpisodeCut
