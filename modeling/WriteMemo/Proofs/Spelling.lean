import WriteMemo.Proofs.Json.Lexeme
import WriteMemo.Proofs.Json.Reordered
import WriteMemo.Proofs.Key

namespace WriteMemo

-- The members may be in another order, at any depth, and other blanks may stand between the tokens.
def Json.Respelled (text other : String) : Prop :=
  ∃ value value', Spaced value.spelled text.toList ∧ Reordered value value' ∧
    Spaced value'.spelled other.toList

namespace Document

-- A document depends on the sorted form alone, and so does the refusal of a value.
theorem ofJson_congr {value other : Json} (h : value.sorted = other.sorted) :
    ofJson value = ofJson other := by
  cases value with
  | object members =>
      cases other with
      | object others =>
          exact congrArg Except.ok (eq_of_members (Json.object.inj h))
      | _ => cases h
  | _ => cases other <;> first | rfl | cases h

theorem ofText_respelled {text other : String} {document : Document}
    (h : ofText text = .ok document) (hother : Json.Respelled text other) :
    ofText other = .ok document := by
  obtain ⟨value, value', hspaced, hreordered, hspaced'⟩ := hother
  obtain ⟨read, hread, hdocument⟩ := exists_read_of_ofText h
  rw [Json.read_of_spaced hspaced] at hread
  split at hread <;> cases hread
  next hdepth =>
  rw [hreordered.depth_eq] at hdepth
  have hread' := (Json.read_of_spaced hspaced').trans (if_pos hdepth)
  rw [ofText_of_read hread', ← ofJson_congr hreordered.sorted_eq, hdocument]

-- Every text that is accepted is a spelling, and all others of the same document are accepted too.
theorem reading_respelled_text {text : String} {document : Document}
    (h : ofText text = .ok document) :
    Json.Respelled text text ∧
      ∀ other, Json.Respelled text other →
        ∃ again, ofText other = .ok again ∧ again == document ∧
          again.render = document.render ∧
          ∀ strategy, Key.derive strategy again = Key.derive strategy document := by
  constructor
  · obtain ⟨value, hread, -⟩ := exists_read_of_ofText h
    have hspaced := Json.spaced_of_read hread
    exact ⟨value, value, hspaced, .refl value, hspaced⟩
  · intro other hother
    exact ⟨document, ofText_respelled h hother, same_of_eq rfl, rfl, fun _ => rfl⟩

-- Members that change places at three depths, one of them under a name that is escaped in the first
-- text.
theorem reading_nested_members_in_another_order :
    let text := "\x7b\"metadata\":\x7b\"name\":\"\",\"generateName\":\"run-\"\x7d," ++
      "\"spec\":[\x7b\"\\u0062\":1,\"a\":[]\x7d]\x7d"
    let other := " \x7b \"spec\" : [\n\x7b\"a\":[\t],\"b\":1\x7d ],\r\n" ++
      "\"metadata\":\x7b\"generateName\":\"run-\",\"name\":\"\"\x7d\x7d\n"
    ∃ document again, ofText text = .ok document ∧ Json.Respelled text other ∧
      ofText other = .ok again ∧ again == document ∧ again.render = document.render ∧
      ∀ strategy, Key.derive strategy again = Key.derive strategy document := by
  intro text other
  have hread : Json.read text = .ok (.object [
      ("metadata", .object [("name", .string ""), ("generateName", .string "run-")]),
      ("spec", .array [.object [("b", .number (.natural 1)), ("a", .array [])]])]) :=
    Json.read_eq_ok_iff.mpr (by decide +kernel)
  have hread' : Json.read other = .ok (.object [
      ("spec", .array [.object [("a", .array []), ("b", .number (.natural 1))]]),
      ("metadata", .object [("generateName", .string "run-"), ("name", .string "")])]) :=
    Json.read_eq_ok_iff.mpr (by decide +kernel)
  have hother : Json.Respelled text other := by
    refine ⟨_, _, Json.spaced_of_read hread, ?_, Json.spaced_of_read hread'⟩
    refine .trans (.member "metadata" [] _ (.shuffle (by decide) (.swap _ _ _))) ?_
    refine .trans (.member "spec" [_] [] (.item [] [] (.shuffle (by decide) (.swap _ _ _)))) ?_
    exact .shuffle (by decide) (.swap _ _ _)
  have hdocument := ofText_of_read hread
  obtain ⟨again, hagain, hsame⟩ := (reading_respelled_text hdocument).2 other hother
  exact ⟨_, again, hdocument, hother, hagain, hsame⟩

end Document

end WriteMemo
