import Mathlib.Data.List.TakeWhile
import WriteMemo.Proofs.Document
import WriteMemo.Proofs.Json.Lexeme

namespace WriteMemo

namespace Json

-- The first token tells whether a value is an object.
theorem kind_eq_object_iff (value : Json) :
    value.kind = .object ↔ value.spelled.head? = some .openObject := by
  cases value with
  | null | bool _ | number _ | string _ => simp [kind, spelled]
  | array items => cases items <;> simp [kind, spelled]
  | object members =>
      cases members with
      | nil => simp [kind, spelled]
      | cons member rest => simp [kind, spelled]

namespace Reader

variable {token : Token} {tokens : List Token}

theorem kind_of_run {value : Json} (h : run (.value []) (token :: tokens) = .ok value) :
    value.kind = .object ↔ token = .openObject := by
  rw [kind_eq_object_iff, ← eq_spelled_of_run h, List.head?_cons, Option.some.injEq]

theorem run_openObject (tokens : List Token) :
    run (.value []) (.openObject :: tokens) = run (.openedObject []) tokens := by
  rw [run, run, foldlM_cons_of_ok (step_open_of_lt (by decide)).2]

theorem run_of_takeValue_error {fault : TextFault} (h : takeValue [] token = .error fault) :
    run (.value []) (token :: tokens) = .error fault := by
  have hstep : step (.value []) token = .error fault := h
  rw [run, foldlM_cons_of_error hstep]
  rfl

-- Either the demand makes no difference, and then only objects are read, or it is the first token
-- that fails it, and then no object is read.
theorem runObject_cases (tokens : List Token) :
    (runObject tokens = run (.value []) tokens ∧
      ∀ value, run (.value []) tokens = .ok value → value.kind = .object) ∨
    (runObject tokens = .error .notAnObject ∧
      ∀ value, run (.value []) tokens = .ok value → value.kind ≠ .object) := by
  cases tokens with
  | nil => exact .inl ⟨rfl, nofun⟩
  | cons token tokens =>
      cases token with
      | openObject =>
          exact .inl ⟨(run_openObject tokens).symm, fun value hrun => (kind_of_run hrun).mpr rfl⟩
      | openArray | null | bool _ | number _ | text _ =>
          exact .inr ⟨rfl, fun value hrun hkind => nomatch (kind_of_run hrun).mp hkind⟩
      | closeArray | closeObject | comma | colon | brokenText _ | brokenOther _ =>
          refine .inl ⟨(run_of_takeValue_error rfl).symm, fun value hrun => ?_⟩
          rw [run_of_takeValue_error rfl] at hrun
          cases hrun

end Reader

end Json

namespace Document

theorem decode_eq_ofJson {value : Json} (h : value.kind = .object) :
    decode value = ofJson value := by
  cases value with
  | object members => rfl
  | _ => cases h

theorem ofJson_of_not_object {value : Json} (h : value.kind ≠ .object) :
    ofJson value = .error (.notAnObject value.kind) ∧
      decode value = .error (.unreadable .notAnObject) := by
  cases value with
  | object members => exact absurd rfl h
  | _ => exact ⟨rfl, rfl⟩

theorem ofJson_of_object {value : Json} (h : value.kind = .object) :
    ∃ document, ofJson value = .ok document ∧ decode value = .ok document := by
  cases value with
  | object members => exact ⟨_, rfl, rfl⟩
  | _ => cases h

variable {text : String}

theorem exists_value_of_ofText {found : Json.Kind}
    (h : ofText text = .error (.notAnObject found)) :
    found ≠ .object ∧ ∃ value, Json.read text = .ok value ∧ value.kind = found := by
  unfold ofText at h
  split at h
  · next value hread =>
    rcases eq_or_ne value.kind .object with hkind | hkind
    · obtain ⟨document, hdocument, -⟩ := ofJson_of_object hkind
      rw [hdocument] at h
      cases h
    · rw [(ofJson_of_not_object hkind).1] at h
      cases h
      exact ⟨hkind, value, hread, rfl⟩
  · cases h

theorem decodeText_eq_ofText (hread : Json.readObject text = Json.read text)
    (hkind : ∀ value, Json.read text = .ok value → value.kind = .object) :
    decodeText text = ofText text := by
  rw [decodeText, ofText, hread]
  split
  · next value hvalue => exact decode_eq_ofJson (hkind value hvalue)
  · rfl

-- Blanks in front of the bracket do not matter.
theorem decodeText_eq_ofText_of_brace
    (h : (text.toList.dropWhile Json.Token.isBlank).head? = some '\x7b') :
    decodeText text = ofText text := by
  obtain ⟨rest, hrest⟩ := List.head?_eq_some_iff.mp h
  have htokens : Json.tokens text.toList = .openObject :: Json.tokens rest := by
    rw [← List.takeWhile_append_dropWhile (p := Json.Token.isBlank) (l := text.toList),
      Json.tokens_blanks_append fun c hc => List.mem_takeWhile_imp hc, hrest]
    exact Json.tokens_openObject rest
  apply decodeText_eq_ofText
  · rw [Json.readObject, Json.read, htokens, Json.Reader.run_openObject]
    rfl
  · intro value hvalue
    rw [Json.read, htokens] at hvalue
    exact (Json.Reader.kind_of_run hvalue).mpr rfl

-- Either both ways end alike, or a value that is no object starts the text. Then the first way may
-- find another fault behind that start.
theorem decodeText_cases (text : String) :
    (decodeText text = ofText text ∧ ∀ found, ofText text ≠ .error (.notAnObject found)) ∨
    (decodeText text = .error (.unreadable .notAnObject) ∧
      ∀ document, ofText text ≠ .ok document) := by
  rcases Json.Reader.runObject_cases (Json.tokens text.toList) with ⟨hread, hkind⟩ | ⟨hread, hkind⟩
  · refine .inl ⟨decodeText_eq_ofText hread hkind, fun found hfound => ?_⟩
    obtain ⟨hnot, value, hvalue, hfound⟩ := exists_value_of_ofText hfound
    exact hnot (hfound.symm.trans (hkind value hvalue))
  · have hobject : Json.readObject text = .error .notAnObject := hread
    refine .inr ⟨by rw [decodeText, hobject], fun document hdocument => ?_⟩
    obtain ⟨value, hvalue, hdocument⟩ := exists_read_of_ofText hdocument
    rw [(ofJson_of_not_object (hkind value hvalue)).1] at hdocument
    cases hdocument

-- Of values the same are refused, and only the faults differ.
theorem decode_cases (value : Json) :
    (value.kind = .object ∧
      ∃ document, ofJson value = .ok document ∧ decode value = .ok document) ∨
    (value.kind ≠ .object ∧ ofJson value = .error (.notAnObject value.kind) ∧
      decode value = .error (.unreadable .notAnObject)) :=
  (eq_or_ne value.kind .object).imp (fun h => ⟨h, ofJson_of_object h⟩)
    fun h => ⟨h, ofJson_of_not_object h⟩

theorem ways_of_reading_agree (text : String) (value : Json) :
    (∀ document, ofText text = .ok document ↔ decodeText text = .ok document) ∧
    (∀ found, decodeText text ≠ .error (.notAnObject found)) ∧
    (∀ fault, fault ≠ .notAnObject → decodeText text = .error (.unreadable fault) →
      ofText text = .error (.unreadable fault)) ∧
    (∀ found, ofText text = .error (.notAnObject found) →
      found ≠ .object ∧ (∃ read, Json.read text = .ok read ∧ read.kind = found) ∧
        decodeText text = .error (.unreadable .notAnObject)) ∧
    ((text.toList.dropWhile Json.Token.isBlank).head? = some '\x7b' →
      decodeText text = ofText text) ∧
    (∀ document, ofJson value = .ok document ↔ decode value = .ok document) ∧
    ((∃ fault, ofJson value = .error fault) ↔ value.kind ≠ .object) ∧
    ((∃ fault, decode value = .error fault) ↔ value.kind ≠ .object) := by
  have htext := decodeText_cases text
  have hvalue := decode_cases value
  refine ⟨fun document => ?_, fun found hfound => ?_, fun fault hfault hdecode => ?_,
    fun found hfound => ?_, decodeText_eq_ofText_of_brace, fun document => ?_, ?_, ?_⟩
  · rcases htext with ⟨hsame, -⟩ | ⟨hrefused, hnone⟩
    · rw [hsame]
    · rw [hrefused]
      exact ⟨fun h => absurd h (hnone document), nofun⟩
  · rcases htext with ⟨hsame, hnot⟩ | ⟨hrefused, -⟩
    · exact hnot found (hsame.symm.trans hfound)
    · rw [hrefused] at hfound
      cases hfound
  · rcases htext with ⟨hsame, -⟩ | ⟨hrefused, -⟩
    · rw [← hsame, hdecode]
    · rw [hrefused] at hdecode
      cases hdecode
      exact absurd rfl hfault
  · obtain ⟨hkind, hread⟩ := exists_value_of_ofText hfound
    rcases htext with ⟨-, hnot⟩ | ⟨hrefused, -⟩
    · exact absurd hfound (hnot found)
    · exact ⟨hkind, hread, hrefused⟩
  · rcases hvalue with ⟨-, accepted, hofJson, hdecode⟩ | ⟨-, hofJson, hdecode⟩
    · rw [hofJson, hdecode]
    · rw [hofJson, hdecode]
      exact ⟨nofun, nofun⟩
  · rcases hvalue with ⟨hkind, accepted, hofJson, -⟩ | ⟨hkind, hofJson, -⟩
    · rw [hofJson]
      exact ⟨nofun, fun h => absurd hkind h⟩
    · exact ⟨fun _ => hkind, fun _ => ⟨_, hofJson⟩⟩
  · rcases hvalue with ⟨hkind, accepted, -, hdecode⟩ | ⟨hkind, -, hdecode⟩
    · rw [hdecode]
      exact ⟨nofun, fun h => absurd hkind h⟩
    · exact ⟨fun _ => hkind, fun _ => ⟨_, hdecode⟩⟩

-- An array is refused by both ways, each with a fault of its own, and the text of an object that
-- breaks off with the same fault.
theorem reading_array_and_unfinished_object :
    ofText "[1]" = .error (.notAnObject .array) ∧
      decodeText "[1]" = .error (.unreadable .notAnObject) ∧
      decodeText "\n\x7b\"spec\":" = .error (.unreadable .unfinished) ∧
      ofText "\n\x7b\"spec\":" = .error (.unreadable .unfinished) := by
  have harray : ofText "[1]" = .error (.notAnObject .array) := by
    have hread : Json.read "[1]" = .ok (.array [.number (.natural 1)]) :=
      Json.read_eq_ok_iff.mpr (by decide +kernel)
    rw [ofText_of_read hread]
    rfl
  have htokens : Json.tokens "\n\x7b\"spec\":".toList = [.openObject, .text "spec", .colon] := by
    decide +kernel
  have hdecode : decodeText "\n\x7b\"spec\":" = .error (.unreadable .unfinished) := by
    rw [decodeText, Json.readObject, htokens]
    rfl
  obtain ⟨-, -, -, hrefused, -⟩ := ways_of_reading_agree "[1]" .null
  obtain ⟨-, -, hfaults, -⟩ := ways_of_reading_agree "\n\x7b\"spec\":" .null
  exact ⟨harray, (hrefused .array harray).2.2, hdecode, hfaults .unfinished nofun hdecode⟩

end Document

end WriteMemo
