import EpisodeCut.Action
import EpisodeCut.Frame.Basic

/-!
# Probes

What the resolution of a timeline has to know about media files.
-/

set_option autoImplicit false

namespace EpisodeCut

/-- Knowledge about files in the world `σ`. Asking may change the world, and may fail. -/
structure Probe (σ : Type) where
  /-- Whether there is such a file. -/
  present : Path → σ → Bool
  duration : Path → Action σ Timecode
  /-- The picture size of the first video stream, where it is known. -/
  videoSize : Path → Action σ (Option FrameSize)

end EpisodeCut
