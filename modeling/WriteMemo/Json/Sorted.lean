import WriteMemo.Json.Basic
import WriteMemo.Json.Members

namespace WriteMemo.Json

inductive Sorted : Json → Prop where
  | null : Sorted .null
  | bool (value : Bool) : Sorted (.bool value)
  | number (value : Number) : Sorted (.number value)
  | string (text : String) : Sorted (.string text)
  | array {items : List Json} (hitems : ∀ item ∈ items, Sorted item) : Sorted (.array items)
  | object {members : List (String × Json)} (hnames : Members.Ascending members)
      (hvalues : ∀ member ∈ members, Sorted member.2) : Sorted (.object members)

mutual

def sorted : Json → Json
  | .array items => .array (sortedItems items)
  | .object members => .object (sortedMembers members)
  | value => value

def sortedItems : List Json → List Json
  | [] => []
  | item :: rest => item.sorted :: sortedItems rest

-- A member enters only if no later member has its name.
def sortedMembers : List (String × Json) → List (String × Json)
  | [] => []
  | (name, value) :: rest => Members.insertMissing name value.sorted (sortedMembers rest)

end

mutual

theorem sorted_sorted : ∀ value : Json, Sorted value.sorted
  | .null => .null
  | .bool value => .bool value
  | .number value => .number value
  | .string text => .string text
  | .array items => by
    rw [sorted]
    exact .array (sorted_of_mem_sortedItems items)
  | .object members => by
    rw [sorted]
    exact .object (ascending_sortedMembers members) (sorted_of_mem_sortedMembers members)

theorem sorted_of_mem_sortedItems : ∀ items : List Json,
    ∀ item ∈ sortedItems items, Sorted item
  | [] => by simp [sortedItems]
  | first :: rest => by
    intro item hmem
    rw [sortedItems] at hmem
    rcases List.mem_cons.1 hmem with rfl | hmem
    · exact sorted_sorted first
    · exact sorted_of_mem_sortedItems rest item hmem

theorem ascending_sortedMembers : ∀ members : List (String × Json),
    Members.Ascending (sortedMembers members)
  | [] => by simp [sortedMembers, Members.Ascending]
  | (name, value) :: rest => by
    rw [sortedMembers]
    exact Members.ascending_insertMissing (ascending_sortedMembers rest) name value.sorted

theorem sorted_of_mem_sortedMembers : ∀ members : List (String × Json),
    ∀ member ∈ sortedMembers members, Sorted member.2
  | [] => by simp [sortedMembers]
  | (name, value) :: rest => by
    intro member hmem
    rw [sortedMembers] at hmem
    rcases Members.mem_of_mem_insertMissing hmem with rfl | hmem
    · exact sorted_sorted value
    · exact sorted_of_mem_sortedMembers rest member hmem

end

theorem sorted_object_sortedMembers (members : List (String × Json)) :
    Sorted (.object (sortedMembers members)) :=
  .object (ascending_sortedMembers members) (sorted_of_mem_sortedMembers members)

end WriteMemo.Json
