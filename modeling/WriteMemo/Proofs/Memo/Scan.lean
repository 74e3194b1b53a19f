import WriteMemo.Proofs.Memo.Step

namespace WriteMemo

-- Both sides have a spec, and the two are equal. A spec that is null counts.
def Document.Carries (candidate : Document) (recorded : Option Json) : Prop :=
  ∃ spec wanted, candidate.spec? = some spec ∧ recorded = some wanted ∧ spec.same wanted

-- The verdict on a submitted document for the pair recorded under its key. A hit is at the first
-- candidate that carries the persisted spec.
inductive Warranted (submitted : Document) (candidates : List Document) :
    Option Entry → Verdict → Prop where
  | notCached : Warranted submitted candidates none (.miss .notCached)
  | submittedChanged (entry : Entry) (hchanged : (entry.submitted == submitted) = false) :
      Warranted submitted candidates (some entry) (.miss .submittedChanged)
  | noMatchingCandidate (entry : Entry) (hsame : entry.submitted == submitted)
      (hnone : ∀ candidate ∈ candidates, ¬candidate.Carries entry.persisted.spec?) :
      Warranted submitted candidates (some entry) (.miss .noMatchingCandidate)
  | hit (entry : Entry) (hsame : entry.submitted == submitted) (place : Nat) (candidate : Document)
      (hplace : candidates[place]? = some candidate)
      (hcarries : candidate.Carries entry.persisted.spec?)
      (hfirst : ∀ earlier < place, ∀ other, candidates[earlier]? = some other →
        ¬other.Carries entry.persisted.spec?) :
      Warranted submitted candidates (some entry) (.hit place candidate)

-- A verdict without the document of the candidate.
def Verdict.outcome : Verdict → Except MissReason Nat
  | .hit place _ => .ok place
  | .miss reason => .error reason

theorem Verdict.missReason_eq_some_iff {verdict : Verdict} {reason : MissReason} :
    verdict.missReason? = some reason ↔ verdict = .miss reason := by
  cases verdict <;> simp [missReason?]

@[simp] theorem Finding.verdict_after (events : List Event) (finding : Finding) :
    (finding.after events).verdict = finding.verdict :=
  rfl

namespace Memo

variable {recorded : Option Json} {candidate : Document}

theorem scan_cons_of_carries (hcarries : candidate.Carries recorded) (key : Key) (place : Nat)
    (rest : List Document) :
    (scan key recorded place (candidate :: rest)).verdict = .hit place candidate := by
  obtain ⟨spec, wanted, hspec, rfl, hsame⟩ := hcarries
  simp [scan, hspec, hsame, Finding.ofVerdict]

-- A skipped candidate is one without spec, one beside a recording without spec, or one whose spec
-- differs. In each case the verdict is that of the rest.
theorem scan_cons_of_not_carries (hcarries : ¬candidate.Carries recorded) (key : Key) (place : Nat)
    (rest : List Document) :
    (scan key recorded place (candidate :: rest)).verdict =
      (scan key recorded (place + 1) rest).verdict := by
  cases hspec : candidate.spec? with
  | none => simp [scan, hspec, Finding.after, Finding.passCandidate]
  | some spec =>
      cases recorded with
      | none => simp [scan, hspec, Finding.after, Finding.passPersisted]
      | some wanted =>
          have hdiffers : ¬spec.same wanted = true :=
            fun hsame => hcarries ⟨spec, wanted, hspec, rfl, hsame⟩
          simp [scan, hspec, hdiffers, Finding.after]

theorem scan_verdict (key : Key) (recorded : Option Json) (place : Nat)
    (candidates : List Document) :
    ((scan key recorded place candidates).verdict = .miss .noMatchingCandidate ∧
      ∀ candidate ∈ candidates, ¬candidate.Carries recorded) ∨
    ∃ index candidate, (scan key recorded place candidates).verdict =
        .hit (place + index) candidate ∧
      candidates[index]? = some candidate ∧ candidate.Carries recorded ∧
      ∀ earlier < index, ∀ other, candidates[earlier]? = some other → ¬other.Carries recorded := by
  induction candidates generalizing place with
  | nil => exact .inl ⟨rfl, by simp⟩
  | cons head rest ih =>
      by_cases hcarries : head.Carries recorded
      · refine .inr ⟨0, head, scan_cons_of_carries hcarries key place rest, rfl, hcarries, ?_⟩
        intro earlier hearlier
        omega
      · rw [scan_cons_of_not_carries hcarries]
        rcases ih (place + 1) with
          ⟨hverdict, hnone⟩ | ⟨index, candidate, hverdict, hget, hin, hfirst⟩
        · exact .inl ⟨hverdict, List.forall_mem_cons.mpr ⟨hcarries, hnone⟩⟩
        · refine .inr ⟨index + 1, candidate, ?_, hget, hin, ?_⟩
          · rw [hverdict, Nat.add_assoc, Nat.add_comm 1 index]
          · intro earlier hearlier other hother
            cases earlier with
            | zero =>
                cases hother
                exact hcarries
            | succ earlier =>
                exact hfirst earlier (Nat.lt_of_succ_lt_succ hearlier) other hother

theorem inspect_warranted (memo : Memo) (submitted : Document) (candidates : List Document) :
    Warranted submitted candidates (memo.entry? (memo.keyFor submitted))
      (memo.inspect submitted candidates).verdict := by
  unfold inspect
  dsimp only
  cases hentry : memo.entry? (memo.keyFor submitted) with
  | none => exact .notCached
  | some entry =>
      dsimp only
      split
      · next hsame =>
        rcases scan_verdict (memo.keyFor submitted) entry.persisted.spec? 0 candidates with
          ⟨hverdict, hnone⟩ | ⟨index, candidate, hverdict, hget, hcarries, hfirst⟩
        · rw [Finding.verdict_after, hverdict]
          exact .noMatchingCandidate entry hsame hnone
        · rw [Finding.verdict_after, hverdict, Nat.zero_add]
          exact .hit entry hsame index candidate hget hcarries hfirst
      · next hchanged => exact .submittedChanged entry (by simpa using hchanged)

-- With an entry under the key, what is left to decide is whether the recorded document differs.
theorem verdict_inspect_of_entry {memo : Memo} {submitted : Document} {entry : Entry}
    (hentry : memo.entry? (memo.keyFor submitted) = some entry) (candidates : List Document) :
    (memo.inspect submitted candidates).verdict ≠ .miss .notCached ∧
      ((memo.inspect submitted candidates).verdict = .miss .submittedChanged ↔
        (entry.submitted == submitted) = false) := by
  have hwarranted := inspect_warranted memo submitted candidates
  rw [hentry] at hwarranted
  generalize (memo.inspect submitted candidates).verdict = verdict at hwarranted
  cases hwarranted with
  | submittedChanged _ hchanged => exact ⟨nofun, fun _ => hchanged, fun _ => rfl⟩
  | noMatchingCandidate _ hsame _ | hit _ hsame _ _ _ _ _ =>
      refine ⟨nofun, nofun, fun hchanged => ?_⟩
      rw [hsame] at hchanged
      cases hchanged

end Memo

namespace Warranted

variable {submitted : Document} {candidates : List Document} {last : Option Entry}
  {verdict other : Verdict}

-- Of two hits neither can be earlier, since the earlier one would come first for both.
theorem unique (h : Warranted submitted candidates last verdict)
    (hother : Warranted submitted candidates last other) : verdict = other := by
  cases h with
  | notCached => cases hother; rfl
  | submittedChanged entry hchanged =>
      cases hother with
      | submittedChanged => rfl
      | noMatchingCandidate _ hsame _ | hit _ hsame _ _ _ _ _ =>
          rw [hchanged] at hsame
          cases hsame
  | noMatchingCandidate entry hsame hnone =>
      cases hother with
      | submittedChanged _ hchanged =>
          rw [hchanged] at hsame
          cases hsame
      | noMatchingCandidate => rfl
      | hit _ _ place candidate hplace hcarries _ =>
          exact absurd hcarries (hnone candidate (List.mem_of_getElem? hplace))
  | hit entry hsame place candidate hplace hcarries hfirst =>
      cases hother with
      | submittedChanged _ hchanged =>
          rw [hchanged] at hsame
          cases hsame
      | noMatchingCandidate _ _ hnone =>
          exact absurd hcarries (hnone candidate (List.mem_of_getElem? hplace))
      | hit _ _ place' candidate' hplace' hcarries' hfirst' =>
          rcases Nat.lt_trichotomy place place' with hlt | rfl | hlt
          · exact absurd hcarries (hfirst' place hlt candidate hplace)
          · rw [hplace] at hplace'
            cases hplace'
            rfl
          · exact absurd hcarries' (hfirst place' hlt candidate' hplace')

theorem of_found (h : Warranted submitted candidates last verdict) {place : Nat}
    {candidate : Document} (hfound : verdict.found? = some (place, candidate)) :
    ∃ entry, last = some entry ∧ entry.submitted == submitted ∧ candidate ∈ candidates ∧
      candidate.Carries entry.persisted.spec? := by
  cases h with
  | hit entry hsame _ _ hplace hcarries _ =>
      cases hfound
      exact ⟨entry, rfl, hsame, List.mem_of_getElem? hplace, hcarries⟩
  | notCached | submittedChanged _ _ | noMatchingCandidate _ _ _ => cases hfound

end Warranted

end WriteMemo
