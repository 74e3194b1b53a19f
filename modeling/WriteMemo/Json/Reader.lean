import WriteMemo.Json.Basic
import WriteMemo.Json.Token

namespace WriteMemo.Json

-- An open container in which a value is awaited. What was read of it is kept in reverse.
inductive Frame where
  | array (items : List Json)
  | object (members : List (String × Json)) (name : String)

namespace Reader

-- Containers may be open inside each other up to this number.
def depthLimit : Nat := 127

inductive State where
  | value (frames : List Frame)
  | openedArray (frames : List Frame)
  | openedObject (frames : List Frame)
  | nextName (members : List (String × Json)) (frames : List Frame)
  | named (members : List (String × Json)) (name : String) (frames : List Frame)
  | afterItem (items : List Json) (frames : List Frame)
  | afterMember (members : List (String × Json)) (frames : List Frame)
  | complete (value : Json)

-- Puts a finished value where it was awaited.
def deliver (value : Json) : List Frame → State
  | [] => .complete value
  | .array items :: frames => .afterItem (value :: items) frames
  | .object members name :: frames => .afterMember ((name, value) :: members) frames

def deeper (frames : List Frame) (opened : State) : Except TextFault State :=
  if frames.length < depthLimit then .ok opened else .error .malformed

def takeValue (frames : List Frame) : Token → Except TextFault State
  | .openArray => deeper frames (.openedArray frames)
  | .openObject => deeper frames (.openedObject frames)
  | .null => .ok (deliver .null frames)
  | .bool value => .ok (deliver (.bool value) frames)
  | .number value => .ok (deliver (.number value) frames)
  | .text value => .ok (deliver (.string value) frames)
  | .brokenText fault => .error fault
  | .brokenOther fault => .error fault
  | .closeArray | .closeObject | .comma | .colon => .error .malformed

-- A broken token that does not start with a quote has no place where a name must stand.
def takeName (members : List (String × Json)) (frames : List Frame) :
    Token → Except TextFault State
  | .text name => .ok (.named members name frames)
  | .brokenText fault => .error fault
  | _ => .error .malformed

def step : State → Token → Except TextFault State
  | .value frames, token => takeValue frames token
  | .openedArray frames, .closeArray => .ok (deliver (.array []) frames)
  | .openedArray frames, token => takeValue (.array [] :: frames) token
  | .openedObject frames, .closeObject => .ok (deliver (.object []) frames)
  | .openedObject frames, token => takeName [] frames token
  | .nextName members frames, token => takeName members frames token
  | .named members name frames, .colon => .ok (.value (.object members name :: frames))
  | .afterItem items frames, .comma => .ok (.value (.array items :: frames))
  | .afterItem items frames, .closeArray => .ok (deliver (.array items.reverse) frames)
  | .afterMember members frames, .comma => .ok (.nextName members frames)
  | .afterMember members frames, .closeObject => .ok (deliver (.object members.reverse) frames)
  | _, _ => .error .malformed

def finish : State → Except TextFault Json
  | .complete value => .ok value
  | _ => .error .unfinished

def run (state : State) (tokens : List Token) : Except TextFault Json := do
  finish (← tokens.foldlM step state)

-- Demands an object from the first token on. Another value is refused once its first token is
-- whole, and what follows it is not looked at.
def runObject : List Token → Except TextFault Json
  | [] => .error .unfinished
  | .openObject :: tokens => run (.openedObject []) tokens
  | .openArray :: _ | .null :: _ | .bool _ :: _ | .number _ :: _ | .text _ :: _ =>
    .error .notAnObject
  | .brokenText fault :: _ => .error fault
  | .brokenOther fault :: _ => .error fault
  | .closeArray :: _ | .closeObject :: _ | .comma :: _ | .colon :: _ => .error .malformed

end Reader

-- The value that the whole text spells.
def read (text : String) : Except TextFault Json :=
  Reader.run (.value []) (tokens text.toList)

def readObject (text : String) : Except TextFault Json :=
  Reader.runObject (tokens text.toList)

end WriteMemo.Json
