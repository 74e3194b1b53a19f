import WriteMemo.Json.Sorted

namespace WriteMemo.Json

mutual

def numbers : Json → List Number
  | .number value => [value]
  | .array items => itemsNumbers items
  | .object members => membersNumbers members
  | _ => []

def itemsNumbers : List Json → List Number
  | [] => []
  | item :: rest => item.numbers ++ itemsNumbers rest

def membersNumbers : List (String × Json) → List Number
  | [] => []
  | (_, value) :: rest => value.numbers ++ membersNumbers rest

end

variable (change : Number → Number)

mutual

def mapNumbers : Json → Json
  | .number value => .number (change value)
  | .array items => .array (mapItemsNumbers items)
  | .object members => .object (mapMembersNumbers members)
  | value => value

def mapItemsNumbers : List Json → List Json
  | [] => []
  | item :: rest => item.mapNumbers :: mapItemsNumbers rest

def mapMembersNumbers : List (String × Json) → List (String × Json)
  | [] => []
  | (name, value) :: rest => (name, value.mapNumbers) :: mapMembersNumbers rest

end

variable {change}

mutual

theorem mapNumbers_eq_self : ∀ {value : Json},
    (∀ number ∈ value.numbers, change number = number) → value.mapNumbers change = value
  | .null, _ | .bool _, _ | .string _, _ => rfl
  | .number value, h => congrArg Json.number (h value List.mem_cons_self)
  | .array _, h => congrArg Json.array (mapItemsNumbers_eq_self h)
  | .object _, h => congrArg Json.object (mapMembersNumbers_eq_self h)

theorem mapItemsNumbers_eq_self : ∀ {items : List Json},
    (∀ number ∈ itemsNumbers items, change number = number) → mapItemsNumbers change items = items
  | [], _ => rfl
  | item :: rest, h => by
    obtain ⟨hitem, hrest⟩ := List.forall_mem_append.mp h
    rw [mapItemsNumbers, mapNumbers_eq_self hitem, mapItemsNumbers_eq_self hrest]

theorem mapMembersNumbers_eq_self : ∀ {members : List (String × Json)},
    (∀ number ∈ membersNumbers members, change number = number) →
      mapMembersNumbers change members = members
  | [], _ => rfl
  | (name, value) :: rest, h => by
    obtain ⟨hvalue, hrest⟩ := List.forall_mem_append.mp h
    rw [mapMembersNumbers, mapNumbers_eq_self hvalue, mapMembersNumbers_eq_self hrest]

end

mutual

theorem same_mapNumbers_iff : ∀ value : Json,
    (value.mapNumbers change).same value ↔ ∀ number ∈ value.numbers, (change number).same number
  | .null | .bool value | .string text => by simp [mapNumbers, numbers, same]
  | .number value => by simp [mapNumbers, numbers, same]
  | .array items => sameItems_mapItemsNumbers_iff items
  | .object members => sameMembers_mapMembersNumbers_iff members

theorem sameItems_mapItemsNumbers_iff : ∀ items : List Json,
    sameItems (mapItemsNumbers change items) items ↔
      ∀ number ∈ itemsNumbers items, (change number).same number
  | [] => by simp [mapItemsNumbers, itemsNumbers, sameItems]
  | item :: rest => by
    rw [mapItemsNumbers, itemsNumbers, sameItems, List.forall_mem_append, Bool.and_eq_true,
      same_mapNumbers_iff item, sameItems_mapItemsNumbers_iff rest]

theorem sameMembers_mapMembersNumbers_iff : ∀ members : List (String × Json),
    sameMembers (mapMembersNumbers change members) members ↔
      ∀ number ∈ membersNumbers members, (change number).same number
  | [] => by simp [mapMembersNumbers, membersNumbers, sameMembers]
  | (name, value) :: rest => by
    rw [mapMembersNumbers, membersNumbers, sameMembers, List.forall_mem_append, Bool.and_eq_true,
      Bool.and_eq_true, same_mapNumbers_iff value, sameMembers_mapMembersNumbers_iff rest]
    simp

end

theorem lookup_mapMembersNumbers (members : List (String × Json)) (name : String) :
    (mapMembersNumbers change members).lookup name =
      (members.lookup name).map (mapNumbers change) := by
  induction members with
  | nil => rfl
  | cons member rest ih =>
      obtain ⟨other, value⟩ := member
      rw [mapMembersNumbers, List.lookup_cons, List.lookup_cons, ih]
      split <;> rfl

theorem mapMembersNumbers_eq_map (members : List (String × Json)) :
    mapMembersNumbers change members =
      members.map fun member => (member.1, member.2.mapNumbers change) := by
  induction members with
  | nil => rfl
  | cons member rest ih => rw [mapMembersNumbers, ih, List.map_cons]

theorem ascending_mapMembersNumbers {members : List (String × Json)}
    (h : Members.Ascending members) : Members.Ascending (mapMembersNumbers change members) := by
  rw [mapMembersNumbers_eq_map, Members.Ascending, List.pairwise_map]
  exact h

mutual

theorem sorted_mapNumbers : ∀ {value : Json}, Sorted value → Sorted (value.mapNumbers change)
  | .null, h | .bool _, h | .string _, h => h
  | .number value, _ => .number (change value)
  | .array items, h => by
    cases h with
    | array hitems => exact .array (sorted_of_mem_mapItemsNumbers hitems)
  | .object members, h => by
    cases h with
    | object hnames hvalues =>
      exact .object (ascending_mapMembersNumbers hnames) (sorted_of_mem_mapMembersNumbers hvalues)

theorem sorted_of_mem_mapItemsNumbers : ∀ {items : List Json}, (∀ item ∈ items, Sorted item) →
    ∀ item ∈ mapItemsNumbers change items, Sorted item
  | [], _ => List.forall_mem_nil _
  | _ :: _, h =>
    List.forall_mem_cons.mpr ⟨sorted_mapNumbers (List.forall_mem_cons.mp h).1,
      sorted_of_mem_mapItemsNumbers (List.forall_mem_cons.mp h).2⟩

theorem sorted_of_mem_mapMembersNumbers : ∀ {members : List (String × Json)},
    (∀ member ∈ members, Sorted member.2) →
      ∀ member ∈ mapMembersNumbers change members, Sorted member.2
  | [], _ => List.forall_mem_nil _
  | _ :: _, h =>
    List.forall_mem_cons.mpr ⟨sorted_mapNumbers (List.forall_mem_cons.mp h).1,
      sorted_of_mem_mapMembersNumbers (List.forall_mem_cons.mp h).2⟩

end

end WriteMemo.Json
