import WriteMemo.Proofs.Memo.Increment
import WriteMemo.Proofs.Memo.Scan

namespace WriteMemo

namespace Document

def carries (candidate : Document) (recorded : Option Json) : Bool :=
  match candidate.spec?, recorded with
  | some spec, some wanted => spec.same wanted
  | _, _ => false

def hasSpec (document : Document) : Bool := document.spec?.isSome

theorem carries_iff {candidate : Document} {recorded : Option Json} :
    candidate.carries recorded ↔ candidate.Carries recorded := by
  unfold carries Carries
  cases candidate.spec? with
  | none => simp
  | some spec => cases recorded <;> simp

theorem carries_none (candidate : Document) : candidate.carries none = false := by
  unfold carries
  split
  · next hwanted => cases hwanted
  · rfl

-- A spec that is null is carried like any other.
theorem carries_null {candidate : Document} (hspec : candidate.get? "spec" = some .null) :
    candidate.hasSpec ∧ candidate.carries (some .null) := by
  simp [hasSpec, carries, spec?, hspec, Json.same]

end Document

-- The place of the first candidate that carries the recorded spec.
def firstCarrying? (recorded : Option Json) (candidates : List Document) : Option Nat :=
  candidates.findIdx? fun candidate => candidate.carries recorded

-- The candidates in front of it, and all of them if there is none.
def scanned (recorded : Option Json) (candidates : List Document) : List Document :=
  match firstCarrying? recorded candidates with
  | some place => candidates.take place
  | none => candidates

theorem firstCarrying?_none (candidates : List Document) :
    firstCarrying? none candidates = none := by
  simp [firstCarrying?, Document.carries_none]

theorem scanned_cons_of_carries {recorded : Option Json} {candidate : Document}
    (hcarries : candidate.carries recorded) (rest : List Document) :
    scanned recorded (candidate :: rest) = [] := by
  simp [scanned, firstCarrying?, List.findIdx?_cons, hcarries]

theorem scanned_cons_of_not_carries {recorded : Option Json} {candidate : Document}
    (hcarries : candidate.carries recorded = false) (rest : List Document) :
    scanned recorded (candidate :: rest) = candidate :: scanned recorded rest := by
  rw [scanned, scanned, firstCarrying?, firstCarrying?, List.findIdx?_cons, hcarries]
  cases rest.findIdx? fun candidate => candidate.carries recorded <;> rfl

namespace Finding

theorem counts_skips (finding : Finding) :
    finding.counts.candidatesWithoutSpec = finding.candidatesWithoutSpec ∧
      finding.counts.persistedWithoutSpec = finding.persistedWithoutSpec := by
  unfold counts
  cases finding.verdict with
  | hit _ _ => exact ⟨Nat.zero_add _, Nat.zero_add _⟩
  | miss reason => cases reason <;> exact ⟨Nat.zero_add _, Nat.zero_add _⟩

-- Puts a candidate that does not carry the recorded spec in front of what was found without it.
def passOver (key : Key) (recorded : Option Json) (candidate : Document) (finding : Finding) :
    Finding :=
  match candidate.spec?, recorded with
  | none, _ =>
    (finding.after [.considering key candidate.name,
      .candidateWithoutSpec key candidate.name]).passCandidate
  | some _, none =>
    (finding.after [.considering key candidate.name, .persistedWithoutSpec key]).passPersisted
  | some _, some _ =>
    finding.after [.considering key candidate.name, .specDiffers key candidate.name]

@[simp] theorem verdict_passOver (key : Key) (recorded : Option Json) (candidate : Document)
    (finding : Finding) : (finding.passOver key recorded candidate).verdict = finding.verdict := by
  unfold passOver
  split <;> rfl

-- Where both sides lack a spec it is the candidate that is charged.
theorem skips_passOver (key : Key) (recorded : Option Json) (candidate : Document)
    (finding : Finding) :
    (finding.passOver key recorded candidate).candidatesWithoutSpec =
        finding.candidatesWithoutSpec + (!candidate.hasSpec).toNat ∧
      (finding.passOver key recorded candidate).persistedWithoutSpec =
        finding.persistedWithoutSpec + (candidate.hasSpec && recorded.isNone).toNat := by
  unfold passOver Document.hasSpec
  cases candidate.spec? with
  | none => exact ⟨rfl, rfl⟩
  | some spec => cases recorded <;> exact ⟨rfl, rfl⟩

end Finding

namespace Memo

theorem scan_cons (key : Key) (recorded : Option Json) (place : Nat) (candidate : Document)
    (rest : List Document) :
    scan key recorded place (candidate :: rest) =
      if candidate.carries recorded then
        .ofVerdict (.hit place candidate)
          [.considering key candidate.name, .specMatches key candidate.name]
      else (scan key recorded (place + 1) rest).passOver key recorded candidate := by
  unfold Document.carries Finding.passOver
  cases hspec : candidate.spec? with
  | none =>
      simp only [scan, hspec]
      rfl
  | some spec =>
      cases recorded <;> simp only [scan, hspec]
      rfl

theorem verdict_scan (key : Key) (recorded : Option Json) (place : Nat)
    (candidates : List Document) :
    match firstCarrying? recorded candidates with
    | some index => ∃ candidate,
        (scan key recorded place candidates).verdict = .hit (place + index) candidate
    | none => (scan key recorded place candidates).verdict = .miss .noMatchingCandidate := by
  rcases scan_verdict key recorded place candidates with
    ⟨hverdict, hnone⟩ | ⟨index, candidate, hverdict, hget, hcarries, hearlier⟩
  · have hfirst : firstCarrying? recorded candidates = none := by
      refine List.findIdx?_eq_none_iff.mpr fun candidate hmem => ?_
      rw [← Bool.not_eq_true, Document.carries_iff]
      exact hnone candidate hmem
    rw [hfirst]
    exact hverdict
  · have hfirst : firstCarrying? recorded candidates = some index := by
      obtain ⟨hlt, rfl⟩ := List.getElem?_eq_some_iff.mp hget
      refine List.findIdx?_eq_some_iff_getElem.mpr
        ⟨hlt, Document.carries_iff.mpr hcarries, fun earlier hbefore => ?_⟩
      rw [Document.carries_iff]
      exact hearlier earlier hbefore _ (List.getElem?_eq_getElem _)
    rw [hfirst]
    exact ⟨candidate, hverdict⟩

theorem skips_scan (key : Key) (recorded : Option Json) (place : Nat) (candidates : List Document) :
    (scan key recorded place candidates).candidatesWithoutSpec =
        (scanned recorded candidates).countP (fun candidate => !candidate.hasSpec) ∧
      (scan key recorded place candidates).persistedWithoutSpec =
        if recorded.isSome then 0 else (scanned recorded candidates).countP Document.hasSpec := by
  induction candidates generalizing place with
  | nil => cases recorded <;> exact ⟨rfl, rfl⟩
  | cons candidate rest ih =>
      rw [scan_cons]
      split
      · next hcarries =>
        rw [scanned_cons_of_carries hcarries]
        cases recorded <;> exact ⟨rfl, rfl⟩
      · next hcarries =>
        obtain ⟨hcandidate, hpersisted⟩ := ih (place + 1)
        obtain ⟨hpass, hpass'⟩ :=
          (scan key recorded (place + 1) rest).skips_passOver key recorded candidate
        rw [hpass, hpass', hcandidate, hpersisted,
          scanned_cons_of_not_carries (Bool.eq_false_iff.mpr hcarries), List.countP_cons,
          List.countP_cons]
        cases recorded <;> cases candidate.hasSpec <;> exact ⟨rfl, rfl⟩

theorem inspect_of_differs {memo : Memo} {submitted : Document} {entry : Entry}
    (hentry : memo.entry? (memo.keyFor submitted) = some entry)
    (hdiffers : (entry.submitted == submitted) = false) (candidates : List Document) :
    memo.inspect submitted candidates = .ofVerdict (.miss .submittedChanged)
      [.checking (memo.keyFor submitted), .submissionDiffers (memo.keyFor submitted)] := by
  simp [inspect, hentry, hdiffers]

theorem inspect_of_same {memo : Memo} {submitted : Document} {entry : Entry}
    (hentry : memo.entry? (memo.keyFor submitted) = some entry)
    (hsame : entry.submitted == submitted) (candidates : List Document) :
    memo.inspect submitted candidates =
      (scan (memo.keyFor submitted) entry.persisted.spec? 0 candidates).after
        [.checking (memo.keyFor submitted), .submissionUnchanged (memo.keyFor submitted)] := by
  simp [inspect, hentry, hsame]

-- What is charged for the candidates passed over, once the submitted document was found unchanged.
def skipsOf (recorded : Option Json) (candidates : List Document) : Counters :=
  { Counters.zero with
    candidatesWithoutSpec :=
      (scanned recorded candidates).countP fun candidate => !candidate.hasSpec
    persistedWithoutSpec :=
      if recorded.isSome then 0 else (scanned recorded candidates).countP Document.hasSpec }

theorem counts_scan (key : Key) (recorded : Option Json) (place : Nat)
    (candidates : List Document) :
    (scan key recorded place candidates).counts =
      (skipsOf recorded candidates).recordVerdict (scan key recorded place candidates).verdict := by
  obtain ⟨hcandidate, hpersisted⟩ := skips_scan key recorded place candidates
  rw [Finding.counts, hcandidate, hpersisted]
  simp [skipsOf, Counters.recordCandidatesWithoutSpec, Counters.recordPersistedWithoutSpec,
    Counters.zero]

theorem counters_check_eq_add (memo : Memo) (submitted : Document) (candidates : List Document) :
    (memo.check submitted candidates).1.counters =
      memo.counters + (memo.inspect submitted candidates).counts :=
  (counters_check memo submitted candidates).trans (counters_countFinding _ _)

-- Nothing is carried where nothing is recorded, so a charge to the recorded document means a miss.
theorem isHit_of_persisted_charged {memo : Memo} {submitted : Document}
    {candidates : List Document}
    (hcharged : 0 < (memo.inspect submitted candidates).persistedWithoutSpec) :
    (memo.inspect submitted candidates).verdict.isHit = false := by
  cases hentry : memo.entry? (memo.keyFor submitted) with
  | none =>
      rw [inspect_of_none hentry]
      rfl
  | some entry =>
      cases hsame : entry.submitted == submitted with
      | false =>
          rw [inspect_of_differs hentry hsame]
          rfl
      | true =>
          rw [inspect_of_same hentry hsame] at hcharged ⊢
          rw [Finding.verdict_after]
          have hskips := (skips_scan (memo.keyFor submitted) entry.persisted.spec? 0 candidates).2
          have hverdict := verdict_scan (memo.keyFor submitted) entry.persisted.spec? 0 candidates
          cases hspec : entry.persisted.spec? with
          | none =>
              rw [hspec, firstCarrying?_none] at hverdict
              rw [hverdict]
              rfl
          | some spec =>
              rw [hspec] at hskips hcharged
              exact absurd hskips (Nat.ne_of_gt hcharged)

-- A check that finds no pair under the key, or one with another submitted document, looks at no
-- candidate. Otherwise it looks at those in front of the first one that carries the recorded spec.
-- Each of them without a spec is charged to the candidates, and each other one to the recorded
-- document if that has no spec, so what is charged there goes with a miss. Besides these charges
-- one outcome is counted, and nothing else moves.
theorem check_charges_scanned (settings : Settings) (calls : List Call) (submitted : Document)
    (candidates : List Document) :
    let memo := after settings calls
    let later := (memo.check submitted candidates).1
    ((memo.step (.verdict submitted candidates)).memo = later ∧
      (memo.step (.unchanged submitted candidates)).memo = later ∧
      later.entries = memo.entries) ∧
    (memo.entry? (memo.keyFor submitted) = none →
      later.stats = { memo.stats with missesNotCached := memo.stats.missesNotCached + 1 }) ∧
    (∀ entry, memo.entry? (memo.keyFor submitted) = some entry →
      ((entry.submitted == submitted) = false →
        later.stats =
          { memo.stats with missesSubmittedChanged := memo.stats.missesSubmittedChanged + 1 }) ∧
      (entry.submitted == submitted →
        let passed := scanned entry.persisted.spec? candidates
        let charged : Counters :=
          { memo.stats with
            candidatesWithoutSpec := memo.stats.candidatesWithoutSpec +
              passed.countP fun candidate => !candidate.hasSpec
            persistedWithoutSpec := memo.stats.persistedWithoutSpec +
              if entry.persisted.hasSpec then 0 else passed.countP Document.hasSpec }
        later.stats =
          match firstCarrying? entry.persisted.spec? candidates with
          | some _ => { charged with hits := charged.hits + 1 }
          | none => { charged with missesNoMatch := charged.missesNoMatch + 1 })) ∧
    (memo.stats.persistedWithoutSpec < later.stats.persistedWithoutSpec →
      (memo.check submitted candidates).2.verdict.isHit = false) ∧
    ∀ candidate : Document, candidate.get? "spec" = some .null →
      candidate.hasSpec ∧ candidate.carries (some .null) := by
  intro memo later
  have hstats : memo.stats = memo.counters := (wellFormed_after settings calls).stats_eq
  have hlater : later.stats = memo.counters + (memo.inspect submitted candidates).counts := by
    have hstep := ((wellFormed_after settings calls).step (.verdict submitted candidates)).stats_eq
    exact hstep.trans (counters_check_eq_add memo submitted candidates)
  rw [hstats, hlater]
  refine ⟨⟨rfl, rfl, entries_check _ _ _⟩, fun hnone => ?_, fun entry hentry => ⟨fun hdiffers => ?_,
    fun hsame => ?_⟩, fun hmoved => ?_, fun candidate => Document.carries_null⟩
  · rw [inspect_of_none hnone]
    rfl
  · rw [inspect_of_differs hentry hdiffers]
    rfl
  · have hverdict := verdict_scan (memo.keyFor submitted) entry.persisted.spec? 0 candidates
    rw [inspect_of_same hentry hsame, Finding.counts_after, counts_scan]
    cases hfirst : firstCarrying? entry.persisted.spec? candidates with
    | some index =>
        rw [hfirst] at hverdict
        obtain ⟨candidate, hverdict⟩ := hverdict
        rw [hverdict]
        rfl
    | none =>
        rw [hfirst] at hverdict
        rw [hverdict]
        rfl
  · refine isHit_of_persisted_charged ?_
    rw [← (Finding.counts_skips _).2]
    exact Nat.lt_add_right_iff_pos.mp hmoved

-- The second candidate matches, so the third one is not charged.
example :
    ((after ⟨0, .generateName, 60⟩ [.set (.named "a") (.named "a")]).check (.named "a")
      [.empty, .named "b", .empty]).1.stats = ⟨1, 1, 0, 0, 0, 1, 0, 0, 1⟩ := by
  decide +kernel

end Memo

end WriteMemo
