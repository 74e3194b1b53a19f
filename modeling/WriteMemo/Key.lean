import WriteMemo.Digest.Sha256
import WriteMemo.Document

namespace WriteMemo

inductive KeyStrategy where
  | generateName
  | contentHash
  deriving DecidableEq, Inhabited

namespace KeyStrategy

def text : KeyStrategy → String
  | .generateName => "generate-name"
  | .contentHash => "content-hash"

-- Takes lower case only, with or without the hyphen.
def ofText? (text : List Char) : Option KeyStrategy :=
  if text = "generate-name".toList ∨ text = "generatename".toList then some .generateName
  else if text = "content-hash".toList ∨ text = "contenthash".toList then some .contentHash
  else none

end KeyStrategy

structure Key where
  scope : String
  kind : String
  name : String
  deriving DecidableEq, Inhabited

namespace Key

-- Distinct keys may have one text, because a colon may also stand inside the parts.
def text (key : Key) : String :=
  key.scope ++ ":" ++ key.kind ++ ":" ++ key.name

def digestLength : Nat := 16

def digestOf (document : Document) : String :=
  let bytes := document.toJson.write.flatMap String.utf8EncodeChar
  String.ofList ((Sha256.digest bytes).text.take digestLength)

-- A document without a name is pending and known by the name prefix that it asks for.
def nameOf (strategy : KeyStrategy) (document : Document) : String :=
  if document.name ≠ "" then document.name
  else match strategy with
    | .generateName => document.generateName
    | .contentHash => document.generateName ++ "#" ++ digestOf document

def derive (strategy : KeyStrategy) (document : Document) : Key where
  scope := document.scope
  kind := document.kind
  name := nameOf strategy document

end Key

end WriteMemo
