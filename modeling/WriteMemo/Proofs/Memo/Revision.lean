import WriteMemo.Proofs.Json.Members
import WriteMemo.Proofs.Key
import WriteMemo.Proofs.Memo.Scan
import WriteMemo.Proofs.Memo.WellFormed

namespace WriteMemo

namespace Document

variable {document revised : Document}

-- The fields of the metadata that a key is made of.
def nameFields : List String := ["namespace", "name", "generateName"]

-- What edits of the fields other than the kind and the metadata lead to. The metadata may be
-- replaced as a whole by an object with the same names, where a name that is missing or not a
-- string counts as empty.
inductive Revised (document : Document) : Document → Prop where
  | refl : Revised document document
  | insert {other : Document} (h : Revised document other) (field : String) (value : Json)
      (hkind : field ≠ "kind") (hmetadata : field ≠ "metadata") :
      Revised document (other.insert field value)
  | erase {other : Document} (h : Revised document other) (field : String)
      (hkind : field ≠ "kind") (hmetadata : field ≠ "metadata") :
      Revised document (other.erase field)
  | metadata {other : Document} (h : Revised document other) (members : List (String × Json))
      (hnames : ∀ field ∈ nameFields,
        textIn field (some (Json.object members).sorted) = other.metadataText field) :
      Revised document (other.insert "metadata" (.object members))

theorem Revised.kind_eq (h : document.Revised revised) : revised.kind = document.kind := by
  induction h with
  | refl => rfl
  | insert _ field value hkind _ ih => rw [kind, get?_insert_of_ne hkind.symm, ← kind, ih]
  | erase _ field hkind _ ih => rw [kind, get?_erase_of_ne hkind.symm, ← kind, ih]
  | metadata _ members _ ih => rw [kind, get?_insert_of_ne (by decide), ← kind, ih]

theorem Revised.names_eq (h : document.Revised revised) {field : String}
    (hfield : field ∈ nameFields) : revised.metadataText field = document.metadataText field := by
  induction h with
  | refl => rfl
  | insert _ edited value _ hmetadata ih =>
      rw [metadataText_eq, get?_insert_of_ne hmetadata.symm, ← metadataText_eq, ih]
  | erase _ edited _ hmetadata ih =>
      rw [metadataText_eq, get?_erase_of_ne hmetadata.symm, ← metadataText_eq, ih]
  | metadata _ members hnames ih => rw [metadataText_eq, get?_insert_self, hnames field hfield, ih]

theorem Revised.sameNames (h : document.Revised revised) : document.SameNames revised where
  kind_eq := h.kind_eq.symm
  scope_eq := (h.names_eq (by decide)).symm
  name_eq := (h.names_eq (by decide)).symm
  generateName_eq := (h.names_eq (by decide)).symm

-- Edits that cancel out leave the document as it was.
theorem ext_get? {a b : Document} (h : ∀ field, a.get? field = b.get? field) : a = b := by
  have ha := a.sorted
  have hb := b.sorted
  cases ha with
  | object hnames _ =>
    cases hb with
    | object hothers _ => exact eq_of_members (Json.Members.ext_lookup hnames hothers h)

end Document

theorem Key.derive_of_revised {document revised : Document} (h : document.Revised revised)
    {strategy : KeyStrategy} (hnamed : document.name ≠ "" ∨ strategy = .generateName) :
    Key.derive strategy revised = Key.derive strategy document :=
  (derive_of_named h.sameNames hnamed).symm

namespace Memo

-- A write under a key with an entry replaces that entry and nothing else.
theorem WellFormed.step_set_of_isSome {memo : Memo} (h : memo.WellFormed) {submitted : Document}
    (hsome : (memo.entry? (memo.keyFor submitted)).isSome) (persisted : Document) :
    (memo.step (.set submitted persisted)).events = [.recorded (memo.keyFor submitted)] ∧
      (memo.step (.set submitted persisted)).memo.size = memo.size ∧
      (memo.step (.set submitted persisted)).memo.stats.evictions = memo.stats.evictions ∧
      Memo.entry? (memo.step (.set submitted persisted)).memo (memo.keyFor submitted) =
        some ⟨submitted, persisted⟩ ∧
      ∀ other ≠ memo.keyFor submitted,
        Memo.entry? (memo.step (.set submitted persisted)).memo other = memo.entry? other := by
  have hnil := h.evicted_eq_nil hsome
  have hevents : (memo.record submitted persisted).2 = [.recorded (memo.keyFor submitted)] := by
    rw [events_record, hnil, List.map_nil, List.nil_append]
  have hcounters := congrArg Counters.evictions (counters_record memo submitted persisted)
  rw [hnil] at hcounters
  refine ⟨hevents, h.size_record_of_isSome hsome persisted, hcounters,
    entry_record_self memo submitted persisted, fun other hne => ?_⟩
  have hother := entry_record_of_ne hne persisted
  rwa [hnil, if_neg List.not_mem_nil] at hother

-- A revision of a document whose key has an entry meets that entry, as long as the key does not
-- come from a digest. A check of it always gets as far as comparing it with the recorded document,
-- and tells a change if and only if the two differ, so not if all edits were taken back. A write
-- of it replaces the recorded pair, evicts nothing and leaves the number of entries as it is.
theorem revision_meets_entry (settings : Settings) (calls : List Call)
    (document revised : Document) (entry : Entry) (hrevised : document.Revised revised)
    (hnamed : document.name ≠ "" ∨ settings.keyStrategy = .generateName)
    (hentry : Memo.entry? (after settings calls) (Key.derive settings.keyStrategy document) =
      some entry) :
    let memo := after settings calls
    let key := Key.derive settings.keyStrategy document
    Key.derive settings.keyStrategy revised = key ∧
    (∀ candidates,
      (memo.step (.verdict revised candidates)).answer ≠ .verdict (.miss .notCached) ∧
      ((memo.step (.verdict revised candidates)).answer = .verdict (.miss .submittedChanged) ↔
        (entry.submitted == revised) = false) ∧
      ((entry.submitted == revised) = false →
        (memo.step (.unchanged revised candidates)).answer = .found none)) ∧
    ((∀ field, revised.get? field = entry.submitted.get? field) → entry.submitted == revised) ∧
    ∀ persisted,
      let written := memo.step (.set revised persisted)
      written.events = [.recorded key] ∧ written.memo.size = memo.size ∧
      written.memo.stats.evictions = memo.stats.evictions ∧
      Memo.entry? written.memo key = some ⟨revised, persisted⟩ ∧
      ∀ other ≠ key, Memo.entry? written.memo other = memo.entry? other := by
  intro memo key
  have hkey : Key.derive settings.keyStrategy revised = key := Key.derive_of_revised hrevised hnamed
  have hkeyFor : memo.keyFor revised = key := (keyFor_after settings calls revised).trans hkey
  have hfound : memo.entry? (memo.keyFor revised) = some entry := by rw [hkeyFor, hentry]
  refine ⟨hkey, fun candidates => ?_, fun hfields => ?_, fun persisted => ?_⟩
  · obtain ⟨hcached, hchanged⟩ := verdict_inspect_of_entry hfound candidates
    rw [answer_verdict, answer_unchanged, ne_eq, Answer.verdict.injEq, Answer.verdict.injEq]
    refine ⟨hcached, hchanged, fun hdiffers => ?_⟩
    rw [hchanged.mpr hdiffers]
    rfl
  · exact Document.same_of_eq (Document.ext_get? fun field => (hfields field).symm)
  · rw [← hkeyFor]
    exact (wellFormed_after settings calls).step_set_of_isSome (Option.isSome_of_eq_some hfound)
      persisted

-- The namespace of null reads as the missing one did, and labels are no part of the key. The memo
-- has one place, and it stays that of the document.
theorem relabelled_document_meets_entry :
    let settings : Settings := ⟨1, .contentHash, 60⟩
    let a := Document.named "a"
    let b := (a.insert "spec" (.bool true)).insert "metadata"
      (.object [("namespace", .null), ("name", .string "a"), ("labels", .object [])])
    let memo := after settings [.set a a]
    a.Revised b ∧ a.name ≠ "" ∧
      Memo.entry? memo (Key.derive .contentHash a) = some ⟨a, a⟩ ∧
      Key.derive .contentHash b = Key.derive .contentHash a ∧
      (memo.step (.verdict b [a])).answer = .verdict (.miss .submittedChanged) ∧
      (memo.step (.set b b)).memo.size = 1 := by
  intro settings a b memo
  have hrevised : a.Revised b :=
    (Document.Revised.refl.insert "spec" (.bool true) (by decide) (by decide)).metadata _
      (by decide +kernel)
  have hnamed : a.name ≠ "" := by decide +kernel
  have hentry : Memo.entry? memo (Key.derive .contentHash a) = some ⟨a, a⟩ :=
    entry_after_set settings [] a a
  obtain ⟨hkey, hcheck, -, hwrite⟩ :=
    revision_meets_entry settings [.set a a] a b ⟨a, a⟩ hrevised (.inl hnamed) hentry
  exact ⟨hrevised, hnamed, hentry, hkey, (hcheck [a]).2.1.mpr (by decide +kernel), (hwrite b).2.1⟩

end Memo

end WriteMemo
