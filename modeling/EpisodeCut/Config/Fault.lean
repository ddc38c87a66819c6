/-!
# Faults of configuration text

The reasons for which a configuration is refused, and their wording.
-/

set_option autoImplicit false

namespace EpisodeCut.Config

/-- What is wrong at a point of a configuration. -/
inductive Fault where
  | expected (c : Char)
  | expectedSegment
  | expectedKind
  | unknownKind (word : String)
  | negativeFrame
  | negativeStream
  | indexTooLarge (digits : String)
  | expectedReference
  | misplacedReference
  | expectedFraction
  | tooManyFields
  | fieldTooLarge
  | malformedTimestamp
  | timestampTooLarge
  deriving DecidableEq, Repr

/-- The wording of a fault. -/
def Fault.text : Fault → String
  | .expected c => "expected '" ++ String.singleton c ++ "'"
  | .expectedSegment => "expected '[' to start a segment spec"
  | .expectedKind => "expected an input kind (a, audio, v, video, f, frame)"
  | .unknownKind word => "unknown input kind '" ++ word ++ "'"
  | .negativeFrame => "negative frame index (only -1 is allowed)"
  | .negativeStream => "stream index must be non-negative"
  | .indexTooLarge digits => "index '" ++ digits ++ "' is out of range"
  | .expectedReference => "expected a filename after '@'"
  | .misplacedReference => "a duration reference may only follow a single timestamp"
  | .expectedFraction => "expected digits after '.' in timestamp"
  | .tooManyFields => "timestamp has more than three fields"
  | .fieldTooLarge => "timestamp field is out of range"
  | .malformedTimestamp => "malformed timestamp (expected [hh:][mm:]ss[.ms])"
  | .timestampTooLarge => "timestamp is out of range"

end EpisodeCut.Config
