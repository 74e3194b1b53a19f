import WriteMemo.Document

namespace WriteMemo

inductive MissReason where
  | notCached
  | submittedChanged
  | noMatchingCandidate
  deriving DecidableEq

def MissReason.text : MissReason → String
  | .notCached => "not-cached"
  | .submittedChanged => "submitted-changed"
  | .noMatchingCandidate => "no-matching-candidate"

-- A hit names the candidate that already holds what would be written, and its place among the
-- candidates, counted from zero.
inductive Verdict where
  | hit (place : Nat) (candidate : Document)
  | miss (reason : MissReason)

namespace Verdict

def isHit : Verdict → Bool
  | .hit _ _ => true
  | .miss _ => false

def missReason? : Verdict → Option MissReason
  | .hit _ _ => none
  | .miss reason => some reason

def found? : Verdict → Option (Nat × Document)
  | .hit place candidate => some (place, candidate)
  | .miss _ => none

end Verdict

end WriteMemo
