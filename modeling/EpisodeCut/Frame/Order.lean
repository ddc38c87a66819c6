import EpisodeCut.Action
import EpisodeCut.Segment

/-!
# Orders for files

What has to be done outside to produce the image of a frame segment, as data. Each order writes the
one file at its destination. Whoever carries out orders is a `Materializer`.
-/

set_option autoImplicit false

namespace EpisodeCut

/-- A file to be produced. -/
inductive FrameOrder where
  /-- Copy the slice that a segment plays. -/
  | render (segment : Segment) (destination : Path)
  /-- Take a frame of a clip as an image. -/
  | extract (media : Path) (frame : FrameNumber) (destination : Path)
  /-- Turn a page of a document into an image. -/
  | rasterize (document : Path) (page : FrameNumber) (size : FrameSize) (destination : Path)
  deriving DecidableEq, Repr

/-- The file that an order writes. -/
def FrameOrder.destination : FrameOrder → Path
  | .render _ destination | .extract _ _ destination | .rasterize _ _ _ destination => destination

/-- Carries out orders in the world `σ`. -/
structure Materializer (σ : Type) where
  perform : FrameOrder → Action σ Unit

namespace Materializer

variable {σ : Type}

/-- Carries out every order by doing nothing. -/
def idle : Materializer σ := ⟨fun _ => pure ()⟩

/-- Carries out orders as `materializer` does, and keeps a list of them, failed ones included. -/
def recording (materializer : Materializer σ) : Materializer (σ × List FrameOrder) :=
  ⟨fun order => do
    modify fun (world, orders) => (world, orders ++ [order])
    (materializer.perform order).within Prod.fst fun world state => (world, state.2)⟩

end Materializer

end EpisodeCut
