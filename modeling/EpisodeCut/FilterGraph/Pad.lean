import EpisodeCut.MediaKind
import EpisodeCut.Text.Numeral

/-!
# Pads

The labelled points of a filter program: streams of the input files, the trimmed segments, the
joined tracks and the normalised audio. A pad is written in brackets (`Pad.text`).
-/

set_option autoImplicit false

namespace EpisodeCut

/-- A point of a filter program. -/
inductive Pad where
  /-- Stream `stream`, counted among the streams of its track, of input file `index`. -/
  | input (index : Nat) (track : Track) (stream : UInt32)
  /-- Segment `number` after trimming. -/
  | segment (track : Track) (number : Nat)
  /-- All segments of a track after one another. -/
  | joined (track : Track)
  | normalised
  deriving DecidableEq, Repr

/-- The label of a pad. Stream zero of an input is left out. -/
def Pad.text : Pad → String
  | .input index track stream =>
    if stream = 0 then "[" ++ Text.Numeral.text index ++ ":" ++ track.letter ++ "]"
    else
      "[" ++ Text.Numeral.text index ++ ":" ++ track.letter ++ ":" ++
        Text.Numeral.text stream.toNat ++ "]"
  | .segment track number => "[" ++ track.letter ++ Text.Numeral.text number ++ "]"
  | .joined track => "[" ++ track.letter ++ "conc]"
  | .normalised => "[anorm]"

end EpisodeCut
