import EpisodeCut.Main
import EpisodeCut.Proofs.Artifacts.Distinct
import EpisodeCut.Proofs.CommandLine.Leftovers
import EpisodeCut.Proofs.Config.Appended
import EpisodeCut.Proofs.Config.Boundaries
import EpisodeCut.Proofs.Config.Comments
import EpisodeCut.Proofs.Config.RoundTrip
import EpisodeCut.Proofs.Episode.Generated
import EpisodeCut.Proofs.Episode.Rehearsal
import EpisodeCut.Proofs.Episode.Renamed
import EpisodeCut.Proofs.FilterGraph.Correctness
import EpisodeCut.Proofs.Frame.Calls
import EpisodeCut.Proofs.Frame.Links
import EpisodeCut.Proofs.Media.LastFrame
import EpisodeCut.Proofs.Media.Reports
import EpisodeCut.Proofs.Registry.Operations
import EpisodeCut.Proofs.Text.Position
import EpisodeCut.Proofs.Text.ShellReader
import EpisodeCut.Proofs.Timecode.Lossless
import EpisodeCut.Proofs.Timeline.Failures
import EpisodeCut.Proofs.Timeline.Numbering
import EpisodeCut.Proofs.Timeline.Reused
import EpisodeCut.Proofs.Timeline.Stills
