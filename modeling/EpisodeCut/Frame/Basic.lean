import EpisodeCut.Text.Numeral

/-!
# Frames

Which picture of a source a still frame shows (`FrameNumber`) and how large a rasterized page is
(`FrameSize`).
-/

set_option autoImplicit false

namespace EpisodeCut

/-- A frame of a video or a page of a document, counted from zero, or the last one. -/
inductive FrameNumber where
  | index (n : UInt32)
  | last
  deriving DecidableEq, Repr

namespace FrameNumber

/-- The frame number as shown in messages. -/
def text : FrameNumber → String
  | .index n => Text.Numeral.text n.toNat
  | .last => "last"

end FrameNumber

/-- Width and height in pixels. -/
structure FrameSize where
  width : UInt32
  height : UInt32
  deriving DecidableEq, Repr

namespace FrameSize

/-- The size of rasterized pages when nothing else sets it. -/
def standard : FrameSize := ⟨2048, 1536⟩

/-- The size as `WIDTHxHEIGHT`. -/
def text (size : FrameSize) : String :=
  Text.Numeral.text size.width.toNat ++ "x" ++ Text.Numeral.text size.height.toNat

end FrameSize

end EpisodeCut
