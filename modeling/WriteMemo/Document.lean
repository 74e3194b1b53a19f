import WriteMemo.Json.Reader
import WriteMemo.Json.Sorted
import WriteMemo.Json.Writer

namespace WriteMemo

structure Document where
  members : List (String × Json)
  sorted : (Json.object members).Sorted

namespace Document

inductive Fault where
  | notAnObject (found : Json.Kind)
  | unreadable (fault : Json.TextFault)
  deriving DecidableEq

def kindText : Json.Kind → String
  | .null => "null"
  | .boolean => "a boolean"
  | .number => "a number"
  | .string => "a string"
  | .array => "an array"
  | .object => "an object"

def notAnObjectText (found : Json.Kind) : String :=
  "Invalid document: expected a JSON object, got " ++ kindText found

def empty : Document :=
  ⟨[], .object List.Pairwise.nil (by simp)⟩

instance : Inhabited Document := ⟨empty⟩

def ofMembers (members : List (String × Json)) : Document :=
  ⟨Json.sortedMembers members, Json.sorted_object_sortedMembers members⟩

def ofJson : Json → Except Fault Document
  | .object members => .ok (ofMembers members)
  | other => .error (.notAnObject other.kind)

-- The same values are refused, but as faults of reading.
def decode : Json → Except Fault Document
  | .object members => .ok (ofMembers members)
  | _ => .error (.unreadable .notAnObject)

-- Any value is read first, and then it has to be an object.
def ofText (text : String) : Except Fault Document :=
  match Json.read text with
  | .ok value => ofJson value
  | .error fault => .error (.unreadable fault)

-- An object is demanded from the first token on.
def decodeText (text : String) : Except Fault Document :=
  match Json.readObject text with
  | .ok value => decode value
  | .error fault => .error (.unreadable fault)

def toJson (document : Document) : Json := .object document.members

def render (document : Document) : String := document.toJson.render

-- Equality by value at every depth.
def same (a b : Document) : Bool := a.toJson.same b.toJson

instance : BEq Document := ⟨same⟩

def get? (document : Document) (field : String) : Option Json :=
  document.members.lookup field

def insert (document : Document) (field : String) (value : Json) : Document where
  members := Json.Members.insert field value.sorted document.members
  sorted := by
    cases document.sorted with
    | object hnames hvalues =>
      refine .object (Json.Members.ascending_insert hnames field value.sorted) fun member hmem => ?_
      rcases Json.Members.mem_of_mem_insertMissing hmem with rfl | hmem
      · exact Json.sorted_sorted value
      · exact hvalues member ((List.mem_filter.1 hmem).1)

def erase (document : Document) (field : String) : Document where
  members := Association.erase field document.members
  sorted := by
    cases document.sorted with
    | object hnames hvalues =>
      exact .object (Json.Members.ascending_erase hnames field)
        fun member hmem => hvalues member ((List.mem_filter.1 hmem).1)

theorem get?_insert_self (document : Document) (field : String) (value : Json) :
    (document.insert field value).get? field = some value.sorted :=
  Json.Members.lookup_insert_self field value.sorted document.members

theorem get?_insert_of_ne {field other : String} (h : other ≠ field) (document : Document)
    (value : Json) : (document.insert field value).get? other = document.get? other :=
  Json.Members.lookup_insert_of_ne h value.sorted document.members

theorem get?_erase_of_ne {field other : String} (h : other ≠ field) (document : Document) :
    (document.erase field).get? other = document.get? other :=
  Association.lookup_erase_of_ne h document.members

-- The text of a string, and nothing for any other value.
def textOf : Option Json → String
  | some (.string text) => text
  | _ => ""

def kind (document : Document) : String := textOf (document.get? "kind")

def metadataText (document : Document) (field : String) : String :=
  match document.get? "metadata" with
  | some (.object members) => textOf (members.lookup field)
  | _ => ""

-- The namespace.
def scope (document : Document) : String := document.metadataText "namespace"

def name (document : Document) : String := document.metadataText "name"

def generateName (document : Document) : String := document.metadataText "generateName"

-- A spec that is null is there.
def spec? (document : Document) : Option Json := document.get? "spec"

def status? (document : Document) : Option Json := document.get? "status"

end Document

end WriteMemo
