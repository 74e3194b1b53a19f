namespace WriteMemo

-- Whether lines already have a subscriber. There is at most one, and it stays.
structure Telemetry where
  installed : Bool
  deriving DecidableEq

namespace Telemetry

-- Which lines are shown when nothing else is asked for.
def defaultFilter : String := "submission_cache=info"

-- Says whether the subscriber is the one installed now.
def install (telemetry : Telemetry) : Telemetry × Bool :=
  (⟨true⟩, !telemetry.installed)

end Telemetry

end WriteMemo
