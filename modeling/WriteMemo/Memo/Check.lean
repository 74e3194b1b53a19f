import WriteMemo.Memo.Basic

namespace WriteMemo

-- The outcome of a check: its verdict, the candidates passed over because one side has no spec,
-- and what happened on the way.
structure Finding where
  verdict : Verdict
  candidatesWithoutSpec : Nat
  persistedWithoutSpec : Nat
  events : List Event

namespace Finding

def ofVerdict (verdict : Verdict) (events : List Event) : Finding := ⟨verdict, 0, 0, events⟩

def after (events : List Event) (finding : Finding) : Finding :=
  { finding with events := events ++ finding.events }

def passCandidate (finding : Finding) : Finding :=
  { finding with candidatesWithoutSpec := finding.candidatesWithoutSpec + 1 }

def passPersisted (finding : Finding) : Finding :=
  { finding with persistedWithoutSpec := finding.persistedWithoutSpec + 1 }

end Finding

namespace Memo

-- Looks through the candidates in their order for the first one with the recorded spec.
-- `place` is the place of the next candidate.
def scan (key : Key) (recorded : Option Json) (place : Nat) : List Document → Finding
  | [] => .ofVerdict (.miss .noMatchingCandidate) [.noneMatches key]
  | candidate :: rest =>
    let name := candidate.name
    match candidate.spec?, recorded with
    | none, _ =>
      ((scan key recorded (place + 1) rest).after
        [.considering key name, .candidateWithoutSpec key name]).passCandidate
    | some _, none =>
      ((scan key recorded (place + 1) rest).after
        [.considering key name, .persistedWithoutSpec key]).passPersisted
    | some spec, some wanted =>
      if spec.same wanted then
        .ofVerdict (.hit place candidate) [.considering key name, .specMatches key name]
      else
        (scan key recorded (place + 1) rest).after
          [.considering key name, .specDiffers key name]

-- Candidates are looked at only if the submitted document is the recorded one.
def inspect (memo : Memo) (submitted : Document) (candidates : List Document) : Finding :=
  let key := memo.keyFor submitted
  match memo.entry? key with
  | none => .ofVerdict (.miss .notCached) [.checking key, .notRecorded key]
  | some entry =>
    if entry.submitted == submitted then
      (scan key entry.persisted.spec? 0 candidates).after
        [.checking key, .submissionUnchanged key]
    else .ofVerdict (.miss .submittedChanged) [.checking key, .submissionDiffers key]

def countFinding (memo : Memo) (finding : Finding) : Memo :=
  { memo with
    counters :=
      ((memo.counters.recordCandidatesWithoutSpec finding.candidatesWithoutSpec
        ).recordPersistedWithoutSpec finding.persistedWithoutSpec
        ).recordVerdict finding.verdict }

-- A check counts, and it is a use of its key if the key has an entry.
def check (memo : Memo) (submitted : Document) (candidates : List Document) : Memo × Finding :=
  let key := memo.keyFor submitted
  let finding := memo.inspect submitted candidates
  let counted := memo.countFinding finding
  (if (memo.entry? key).isSome then counted.touch key else counted, finding)

end Memo

end WriteMemo
