import WriteMemo.Proofs.Key
import WriteMemo.Proofs.Memo.Increment
import WriteMemo.Proofs.Memo.Scan

namespace WriteMemo

-- A document that asks for a name with a prefix.
def Document.pending (generateName : String) (spec : Json) : Document :=
  .ofMembers [("metadata", .object [("generateName", .string generateName)]), ("spec", spec)]

-- The document that a call derives a key from.
def Call.submitted? : Call → Option Document
  | .set submitted _ | .verdict submitted _ | .unchanged submitted _ => some submitted
  | .get _ | .entry _ | .stats => none

theorem Call.submitted?_of_written? {call : Call} {entry : Entry}
    (h : call.written? = some entry) : call.submitted? = some entry.submitted := by
  cases call with
  | set submitted persisted =>
      cases h
      rfl
  | verdict _ _ | unchanged _ _ | get _ | entry _ | stats => cases h

theorem Finding.missesSubmittedChanged_counts {finding : Finding}
    (h : finding.verdict ≠ .miss .submittedChanged) :
    finding.counts.missesSubmittedChanged = 0 := by
  unfold counts
  cases hverdict : finding.verdict with
  | hit _ _ => rfl
  | miss reason =>
      cases reason with
      | notCached | noMatchingCandidate => rfl
      | submittedChanged => exact absurd hverdict h

namespace Memo

def submissions (calls : List Call) : List Document := calls.filterMap Call.submitted?

-- Documents without a name, no two of which collide.
structure PendingApart (documents : List Document) : Prop where
  pending : ∀ document ∈ documents, document.name = ""
  apart : ∀ a ∈ documents, ∀ b ∈ documents, Key.NoCollision a b

theorem PendingApart.subset {documents others : List Document} (h : PendingApart documents)
    (hsubset : others ⊆ documents) : PendingApart others where
  pending := fun document hmem => h.pending document (hsubset hmem)
  apart := fun a ha b hb => h.apart a (hsubset ha) b (hsubset hb)

theorem submissions_append (calls later : List Call) :
    submissions (calls ++ later) = submissions calls ++ submissions later :=
  List.filterMap_append

variable {settings : Settings} {calls : List Call} {submitted : Document} {entry : Entry}

theorem submitted_mem_of_lastWrite {strategy : KeyStrategy} {key : Key}
    (h : lastWrite strategy key calls = some entry) :
    entry.submitted ∈ submissions calls ∧ Key.derive strategy entry.submitted = key := by
  have hmem := List.mem_reverse.mp (List.mem_of_find?_eq_some h)
  have hkey := List.find?_some h
  obtain ⟨call, hcall, hwritten⟩ := List.mem_filterMap.mp hmem
  exact ⟨List.mem_filterMap.mpr ⟨call, hcall, Call.submitted?_of_written? hwritten⟩,
    of_decide_eq_true hkey⟩

theorem submitted_eq_of_entry_after (hstrategy : settings.keyStrategy = .contentHash)
    (h : PendingApart (submissions calls ++ [submitted]))
    (hentry : Memo.entry? (after settings calls) (Key.derive .contentHash submitted) = some entry) :
    entry.submitted = submitted := by
  have hlast := lastWrite_of_entry_after hentry
  rw [hstrategy] at hlast
  obtain ⟨hmem, hkey⟩ := submitted_mem_of_lastWrite hlast
  have hwritten : entry.submitted ∈ submissions calls ++ [submitted] := List.mem_append_left _ hmem
  have hself : submitted ∈ submissions calls ++ [submitted] := List.mem_concat_self
  exact Key.eq_of_derive_contentHash (h.pending _ hwritten) (h.pending _ hself)
    (h.apart _ hwritten _ hself) hkey

theorem verdict_ne_submittedChanged (hstrategy : settings.keyStrategy = .contentHash)
    (h : PendingApart (submissions calls ++ [submitted])) (candidates : List Document) :
    ((after settings calls).inspect submitted candidates).verdict ≠ .miss .submittedChanged := by
  intro hverdict
  have hwarranted := inspect_warranted (after settings calls) submitted candidates
  rw [keyFor_after, hstrategy, hverdict] at hwarranted
  cases hentry : Memo.entry? (after settings calls) (Key.derive .contentHash submitted) with
  | none =>
      rw [hentry] at hwarranted
      cases hwarranted
  | some entry =>
      rw [hentry] at hwarranted
      cases hwarranted with
      | submittedChanged _ hchanged =>
          rw [Document.same_of_eq (submitted_eq_of_entry_after hstrategy h hentry)] at hchanged
          cases hchanged

-- What one call does to the counter, and with it a run, as long as all its documents are apart.
theorem missesSubmittedChanged_after (hstrategy : settings.keyStrategy = .contentHash)
    (h : PendingApart (submissions calls)) :
    (after settings calls).counters.missesSubmittedChanged = 0 := by
  induction calls using List.reverseRecOn with
  | nil => rfl
  | append_singleton calls call ih =>
      rw [submissions_append] at h
      have hbefore := ih (h.subset (List.subset_append_left _ _))
      have hincrement :
          ((after settings calls).increment call).missesSubmittedChanged = 0 := by
        cases call with
        | set submitted persisted => rfl
        | verdict submitted candidates | unchanged submitted candidates =>
            exact Finding.missesSubmittedChanged_counts
              (verdict_ne_submittedChanged hstrategy h candidates)
        | get _ | entry _ | stats => rfl
      rw [counters_after_concat, Counters.add_def, hbefore, hincrement]

-- The keys are digests of texts. Two documents without a name share a key only if they are equal,
-- unless their texts collide, whatever prefix they ask for. So in a run on such documents no check
-- finds a different document under its key, and no write takes the place of one.
theorem contentHash_separates_pending :
    (∀ a b : Document, a.name = "" → b.name = "" → Key.NoCollision a b →
      Key.derive .contentHash a = Key.derive .contentHash b → a == b) ∧
    ∀ (settings : Settings) (calls : List Call), settings.keyStrategy = .contentHash →
      PendingApart (submissions calls) →
      (after settings calls).counters.missesSubmittedChanged = 0 ∧
      ∀ before call later, calls = before ++ call :: later →
        ((after settings before).step call).answer ≠ .verdict (.miss .submittedChanged) ∧
        ∀ submitted entry, call.submitted? = some submitted →
          Memo.entry? (after settings before) (Key.derive settings.keyStrategy submitted) =
            some entry → entry.submitted == submitted := by
  refine ⟨fun a b ha hb hapart hkey => ?_, fun settings calls hstrategy h => ⟨?_, ?_⟩⟩
  · exact Document.same_of_eq (Key.eq_of_derive_contentHash ha hb hapart hkey)
  · exact missesSubmittedChanged_after hstrategy h
  · rintro before call later rfl
    have hcall {submitted : Document} (hsubmitted : call.submitted? = some submitted) :
        PendingApart (submissions before ++ [submitted]) := by
      have hsplit : submissions (before ++ call :: later) =
          submissions before ++ [submitted] ++ submissions later := by
        rw [submissions_append, submissions, submissions, submissions,
          List.filterMap_cons_some hsubmitted, List.append_cons]
      exact h.subset (hsplit ▸ List.subset_append_left _ _)
    refine ⟨?_, fun submitted entry hsubmitted hentry => ?_⟩
    · cases call with
      | verdict submitted candidates =>
          rw [answer_verdict, ne_eq, Answer.verdict.injEq]
          exact verdict_ne_submittedChanged hstrategy (hcall rfl) candidates
      | set _ _ | unchanged _ _ | get _ | entry _ | stats => exact nofun
    · rw [hstrategy] at hentry
      exact Document.same_of_eq (submitted_eq_of_entry_after hstrategy (hcall hsubmitted) hentry)

theorem pendingApart_of_two {a b : Document} (ha : a.name = "") (hb : b.name = "")
    (hapart : Key.digestOf a ≠ Key.digestOf b) {documents : List Document}
    (hsubset : documents ⊆ [a, b]) : PendingApart documents := by
  refine PendingApart.subset ⟨?_, ?_⟩ hsubset
  · simp [ha, hb]
  · have hself (document : Document) : Key.NoCollision document document := fun _ => rfl
    have hleft : Key.NoCollision a b := fun h => absurd h hapart
    have hright : Key.NoCollision b a := fun h => absurd h.symm hapart
    simp [hself, hleft, hright]

-- Both prefixes look like the beginning of a key with a digest, and one continues the other.
theorem prefixes_with_hashes_kept_apart :
    let a := Document.pending "web#" .null
    let b := Document.pending "web#0f" .null
    let calls := [Call.set a .empty, .verdict b [], .set b .empty, .unchanged a [b]]
    Key.derive .contentHash a ≠ Key.derive .contentHash b ∧ PendingApart (submissions calls) ∧
      (after ⟨1, .contentHash, 60⟩ calls).counters.missesSubmittedChanged = 0 := by
  intro a b calls
  have ha : a.name = "" := by decide +kernel
  have hb : b.name = "" := by decide +kernel
  have hdigests : Key.digestOf a ≠ Key.digestOf b := by decide +kernel
  have hapart : PendingApart (submissions calls) :=
    pendingApart_of_two ha hb hdigests (by simp [calls, submissions, Call.submitted?])
  refine ⟨fun hkey => ?_, hapart, (contentHash_separates_pending.2 _ _ rfl hapart).1⟩
  have hsame := contentHash_separates_pending.1 a b ha hb (fun h => absurd h hdigests) hkey
  exact absurd hsame (by decide +kernel)

end Memo

end WriteMemo
