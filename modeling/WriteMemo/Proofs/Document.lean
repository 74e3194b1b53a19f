import WriteMemo.Key
import WriteMemo.Proofs.Json.Same

namespace WriteMemo

namespace Document

theorem ofText_of_read {text : String} {value : Json} (h : Json.read text = .ok value) :
    ofText text = ofJson value := by
  rw [ofText, h]

theorem exists_read_of_ofText {text : String} {document : Document}
    (h : ofText text = .ok document) :
    ∃ value, Json.read text = .ok value ∧ ofJson value = .ok document := by
  unfold ofText at h
  split at h
  · next value hread => exact ⟨value, hread, h⟩
  · cases h

-- Equal documents with one text. Equality alone forgets the sign of zeros.
structure Identical (a b : Document) : Prop where
  same : a == b
  render_eq : a.render = b.render

-- Neither has a spec, or both have one and the two are equal.
def SpecAlike (a b : Document) : Prop :=
  Option.Rel (fun spec other => spec.same other) a.spec? b.spec?

theorem same_iff (a b : Document) :
    a == b ↔ Json.membersWithoutZeroSigns a.members = Json.membersWithoutZeroSigns b.members := by
  change a.toJson.same b.toJson = true ↔ _
  rw [Json.same_iff, toJson, toJson, Json.withoutZeroSigns, Json.withoutZeroSigns,
    Json.object.injEq]

theorem beq_congr {a b c d : Document} (hleft : a == b) (hright : c == d) :
    (a == c) = (b == d) := by
  rw [Bool.eq_iff_iff, same_iff, same_iff, (same_iff a b).mp hleft, (same_iff c d).mp hright]

theorem Identical.refl (document : Document) : document.Identical document :=
  ⟨(same_iff document document).mpr rfl, rfl⟩

-- The text of a field inside a value, if that is an object.
def textIn (field : String) : Option Json → String
  | some (.object members) => textOf (members.lookup field)
  | _ => ""

theorem metadataText_eq (document : Document) (field : String) :
    document.metadataText field = textIn field (document.get? "metadata") :=
  rfl

theorem textOf_mapNumbers (change : Json.Number → Json.Number) (value : Option Json) :
    textOf (value.map (Json.mapNumbers change)) = textOf value := by
  cases value with
  | none => rfl
  | some value => cases value <;> rfl

theorem textIn_mapNumbers (change : Json.Number → Json.Number) (field : String)
    (value : Option Json) :
    textIn field (value.map (Json.mapNumbers change)) = textIn field value := by
  cases value with
  | none => rfl
  | some value =>
      cases value with
      | object members =>
          change textOf ((Json.mapMembersNumbers change members).lookup field) = _
          rw [Json.lookup_mapMembersNumbers, textOf_mapNumbers]
          rfl
      | null | bool _ | number _ | string _ | array _ => rfl

-- Agreement in the kind and in the names, whatever else differs.
structure SameNames (a b : Document) : Prop where
  kind_eq : a.kind = b.kind
  scope_eq : a.scope = b.scope
  name_eq : a.name = b.name
  generateName_eq : a.generateName = b.generateName

-- Documents that become alike when their numbers are changed.
theorem sameNames_of_mapNumbers {a b : Document} {change other : Json.Number → Json.Number}
    (h : Json.mapMembersNumbers change a.members = Json.mapMembersNumbers other b.members) :
    a.SameNames b := by
  have hget (field : String) : (a.get? field).map (Json.mapNumbers change) =
      (b.get? field).map (Json.mapNumbers other) := by
    rw [get?, get?, ← Json.lookup_mapMembersNumbers, h, Json.lookup_mapMembersNumbers]
  have hmetadata (field : String) : a.metadataText field = b.metadataText field := by
    rw [metadataText_eq, metadataText_eq, ← textIn_mapNumbers change, hget, textIn_mapNumbers]
  refine ⟨?_, hmetadata "namespace", hmetadata "name", hmetadata "generateName"⟩
  rw [kind, kind, ← textOf_mapNumbers change, hget, textOf_mapNumbers]

theorem sameNames_of_same {a b : Document} (h : a == b) : a.SameNames b := by
  rw [same_iff, Json.membersWithoutZeroSigns_eq_mapMembersNumbers,
    Json.membersWithoutZeroSigns_eq_mapMembersNumbers] at h
  exact sameNames_of_mapNumbers h

end Document

-- A key is made of the kind, the names and a digest of the text.
theorem Key.derive_of_sameNames {a b : Document} (h : a.SameNames b)
    (hdigest : digestOf a = digestOf b) (strategy : KeyStrategy) :
    Key.derive strategy a = Key.derive strategy b := by
  simp only [derive, nameOf, h.name_eq, h.scope_eq, h.generateName_eq, hdigest, h.kind_eq]

theorem Key.derive_congr {a b : Document} (h : a.Identical b) (strategy : KeyStrategy) :
    Key.derive strategy a = Key.derive strategy b := by
  have hwrite : a.toJson.write = b.toJson.write := String.ofList_inj.mp h.render_eq
  have hdigest : digestOf a = digestOf b := by rw [digestOf, digestOf, hwrite]
  exact derive_of_sameNames (Document.sameNames_of_same h.same) hdigest strategy

end WriteMemo
