import WriteMemo.Proofs.Json.Numbers

namespace WriteMemo

def Binary64.withoutZeroSign (x : Binary64) : Binary64 := if x.rank = 0 then .zero else x

theorem Binary64.same_iff (x y : Binary64) :
    x == y ↔ x.withoutZeroSign = y.withoutZeroSign := by
  change x.same y = true ↔ _
  obtain ⟨negative, rank, hfinite⟩ := x
  obtain ⟨negative', rank', hfinite'⟩ := y
  by_cases hzero : rank = 0
  · by_cases hzero' : rank' = 0
    · simp [same, withoutZeroSign, hzero, hzero']
    · simp [same, withoutZeroSign, zero, hzero, hzero', Ne.symm hzero']
  · by_cases hzero' : rank' = 0
    · simp [same, withoutZeroSign, zero, hzero, hzero']
    · simp [same, withoutZeroSign, hzero, hzero', and_comm]

namespace Json

def Number.withoutZeroSign : Number → Number
  | .float x => .float x.withoutZeroSign
  | value => value

theorem Number.same_iff (a b : Number) :
    a.same b ↔ a.withoutZeroSign = b.withoutZeroSign := by
  cases a with
  | natural _ | negative _ => cases b <;> simp [same, withoutZeroSign]
  | float x =>
      cases b with
      | float y => simpa [same, withoutZeroSign] using Binary64.same_iff x y
      | natural _ | negative _ => simp [same, withoutZeroSign]

mutual

def withoutZeroSigns : Json → Json
  | .number value => .number value.withoutZeroSign
  | .array items => .array (itemsWithoutZeroSigns items)
  | .object members => .object (membersWithoutZeroSigns members)
  | value => value

def itemsWithoutZeroSigns : List Json → List Json
  | [] => []
  | item :: rest => item.withoutZeroSigns :: itemsWithoutZeroSigns rest

def membersWithoutZeroSigns : List (String × Json) → List (String × Json)
  | [] => []
  | (name, value) :: rest => (name, value.withoutZeroSigns) :: membersWithoutZeroSigns rest

end

mutual

theorem same_iff : ∀ a b : Json, a.same b ↔ a.withoutZeroSigns = b.withoutZeroSigns
  | .null, b => by cases b <;> simp [same, withoutZeroSigns]
  | .bool value, b => by cases b <;> simp [same, withoutZeroSigns]
  | .number value, b => by cases b <;> simp [same, withoutZeroSigns, Number.same_iff]
  | .string text, b => by cases b <;> simp [same, withoutZeroSigns]
  | .array items, b => by cases b <;> simp [same, withoutZeroSigns, sameItems_iff items]
  | .object members, b => by cases b <;> simp [same, withoutZeroSigns, sameMembers_iff members]

theorem sameItems_iff : ∀ as bs : List Json,
    sameItems as bs ↔ itemsWithoutZeroSigns as = itemsWithoutZeroSigns bs
  | [], bs => by cases bs <;> simp [sameItems, itemsWithoutZeroSigns]
  | a :: as, bs => by
    cases bs <;> simp [sameItems, itemsWithoutZeroSigns, same_iff a, sameItems_iff as]

theorem sameMembers_iff : ∀ as bs : List (String × Json),
    sameMembers as bs ↔ membersWithoutZeroSigns as = membersWithoutZeroSigns bs
  | [], bs => by cases bs <;> simp [sameMembers, membersWithoutZeroSigns]
  | (name, a) :: as, bs => by
    cases bs <;>
      simp [sameMembers, membersWithoutZeroSigns, same_iff a, sameMembers_iff as, and_assoc]

end

theorem same_congr {a b c d : Json} (hleft : a.same b) (hright : c.same d) :
    a.same c = b.same d := by
  rw [Bool.eq_iff_iff, same_iff, same_iff, (same_iff a b).mp hleft, (same_iff c d).mp hright]

mutual

theorem withoutZeroSigns_eq_mapNumbers : ∀ value : Json,
    value.withoutZeroSigns = value.mapNumbers Number.withoutZeroSign
  | .null | .bool _ | .number _ | .string _ => rfl
  | .array items => congrArg Json.array (itemsWithoutZeroSigns_eq_mapItemsNumbers items)
  | .object members => congrArg Json.object (membersWithoutZeroSigns_eq_mapMembersNumbers members)

theorem itemsWithoutZeroSigns_eq_mapItemsNumbers : ∀ items : List Json,
    itemsWithoutZeroSigns items = mapItemsNumbers Number.withoutZeroSign items
  | [] => rfl
  | item :: rest => by
    rw [itemsWithoutZeroSigns, mapItemsNumbers, withoutZeroSigns_eq_mapNumbers item,
      itemsWithoutZeroSigns_eq_mapItemsNumbers rest]

theorem membersWithoutZeroSigns_eq_mapMembersNumbers : ∀ members : List (String × Json),
    membersWithoutZeroSigns members = mapMembersNumbers Number.withoutZeroSign members
  | [] => rfl
  | (name, value) :: rest => by
    rw [membersWithoutZeroSigns, mapMembersNumbers, withoutZeroSigns_eq_mapNumbers value,
      membersWithoutZeroSigns_eq_mapMembersNumbers rest]

end

end Json

end WriteMemo
