import WriteMemo.Binary64.Basic
import WriteMemo.Key

namespace WriteMemo

-- A check narrates its steps to the log. Writes and evictions are reported on their own.
inductive Event where
  | checking (key : Key)
  | notRecorded (key : Key)
  | submissionDiffers (key : Key)
  | submissionUnchanged (key : Key)
  | considering (key : Key) (candidate : String)
  | candidateWithoutSpec (key : Key) (candidate : String)
  | persistedWithoutSpec (key : Key)
  | specMatches (key : Key) (candidate : String)
  | specDiffers (key : Key) (candidate : String)
  | noneMatches (key : Key)
  | evicted (key : Key)
  | recorded (key : Key)
  deriving DecidableEq

inductive Level where
  | log
  | info
  | debug
  deriving DecidableEq

def Level.text : Level → String
  | .log => "LOG"
  | .info => "INFO"
  | .debug => "DEBUG"

inductive FieldValue where
  | text (value : String)
  | count (value : Nat)
  | ratio (value : Binary64)
  deriving DecidableEq

structure Line where
  level : Level
  target : String
  message : String
  fields : List (String × FieldValue)
  deriving DecidableEq

-- A recording sink keeps the fields of a log message apart. A tracing sink joins them in one field.
inductive Sink where
  | recording
  | tracing
  deriving DecidableEq

namespace Sink

def joined (fields : List (String × String)) : String :=
  " ".intercalate (fields.map fun (name, value) => name ++ "=" ++ value)

def log (sink : Sink) (message : String) (fields : List (String × String)) : Line :=
  match sink with
  | .recording => ⟨.log, "", message, fields.map fun (name, value) => (name, .text value)⟩
  | .tracing => ⟨.info, "submission_cache", message, [("fields", .text (joined fields))]⟩

end Sink

namespace Event

def key : Event → Key
  | checking key | notRecorded key | submissionDiffers key | submissionUnchanged key
  | considering key _ | candidateWithoutSpec key _ | persistedWithoutSpec key
  | specMatches key _ | specDiffers key _ | noneMatches key | evicted key | recorded key => key

def candidate? : Event → Option String
  | considering _ candidate | candidateWithoutSpec _ candidate | specMatches _ candidate
  | specDiffers _ candidate => some candidate
  | _ => none

def message : Event → String
  | checking _ => "checking for changes since last write"
  | notRecorded _ => "miss: no write recorded for object"
  | submissionDiffers _ => "miss: submitted object differs from the last recorded submission"
  | submissionUnchanged _ =>
    "submitted object unchanged since last write, checking live candidates"
  | considering _ _ => "considering candidate"
  | candidateWithoutSpec _ _ => "candidate has no spec"
  | persistedWithoutSpec _ => "recorded persisted object has no spec"
  | specMatches _ _ => "hit: candidate spec matches recorded persisted spec"
  | specDiffers _ _ => "miss: candidate spec differs from recorded persisted spec"
  | noneMatches _ => "miss: no live candidate matches the recorded spec"
  | evicted _ => "evicted least recently used entry"
  | recorded _ => "recorded write"

def fields (event : Event) : List (String × String) :=
  match event.candidate? with
  | some candidate => [("key", event.key.text), ("candidate", candidate)]
  | none => [("key", event.key.text)]

def line (sink : Sink) (event : Event) : Line :=
  match event with
  | evicted key | recorded key =>
    ⟨.debug, "submission_cache::cache::store", event.message, [("key", .text key.text)]⟩
  | _ => sink.log event.message event.fields

end Event

end WriteMemo
