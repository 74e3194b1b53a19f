import Mathlib.Data.List.Forall2
import WriteMemo.Proofs.Document
import WriteMemo.Proofs.Memo.Narration

namespace WriteMemo

theorem Verdict.place_eq (verdict : Verdict) :
    verdict.found?.map Prod.fst = verdict.outcome.toOption := by
  cases verdict <;> rfl

theorem Counters.recordVerdict_congr {a b : Verdict} (houtcome : a.outcome = b.outcome)
    (c : Counters) : c.recordVerdict a = c.recordVerdict b := by
  have heq (verdict : Verdict) :
      c.recordVerdict verdict =
        match verdict.outcome with
        | .ok _ => c.recordHit
        | .error reason => c.recordMiss reason := by
    cases verdict <;> rfl
  rw [heq, heq, houtcome]

theorem cases_of_rel {α β : Type} {related : α → β → Prop} {a : Option α} {b : Option β}
    (h : Option.Rel related a b) :
    (a = none ∧ b = none) ∨ ∃ x y, a = some x ∧ b = some y ∧ related x y := by
  cases h with
  | none => exact .inl ⟨rfl, rfl⟩
  | some hrelated => exact .inr ⟨_, _, rfl, rfl, hrelated⟩

theorem Document.specAlike_named (name other : String) :
    (Document.named name).SpecAlike (.named other) := by
  have hspec (name : String) : (Document.named name).spec? = some .null := rfl
  rw [SpecAlike, hspec, hspec]
  exact .some rfl

-- Written from documents that are identical, and answered with documents of one spec.
structure Entry.Alike (a b : Entry) : Prop where
  submitted : a.submitted.Identical b.submitted
  persisted : a.persisted.SpecAlike b.persisted

-- The same keys in the same places.
def Entries.Alike : Entries → Entries → Prop :=
  List.Forall₂ fun a b => a.1 = b.1 ∧ a.2.Alike b.2

-- The same call on identical documents, with candidates that pairwise have one spec.
inductive Call.Alike : Call → Call → Prop
  | set {submitted submitted' persisted persisted' : Document}
      (hsubmitted : submitted.Identical submitted')
      (hpersisted : persisted.SpecAlike persisted') :
      Call.Alike (.set submitted persisted) (.set submitted' persisted')
  | verdict {submitted submitted' : Document} {candidates candidates' : List Document}
      (hsubmitted : submitted.Identical submitted')
      (hcandidates : List.Forall₂ Document.SpecAlike candidates candidates') :
      Call.Alike (.verdict submitted candidates) (.verdict submitted' candidates')
  | unchanged {submitted submitted' : Document} {candidates candidates' : List Document}
      (hsubmitted : submitted.Identical submitted')
      (hcandidates : List.Forall₂ Document.SpecAlike candidates candidates') :
      Call.Alike (.unchanged submitted candidates) (.unchanged submitted' candidates')
  | get (key : Key) : Call.Alike (.get key) (.get key)
  | entry (key : Key) : Call.Alike (.entry key) (.entry key)
  | stats : Call.Alike .stats .stats

-- The same miss, or a hit at the same place.
inductive Answer.Alike : Answer → Answer → Prop
  | done : Answer.Alike .done .done
  | verdict {a b : Verdict} (houtcome : a.outcome = b.outcome) :
      Answer.Alike (.verdict a) (.verdict b)
  | found {a b : Option (Nat × Document)} (hplace : a.map Prod.fst = b.map Prod.fst) :
      Answer.Alike (.found a) (.found b)
  | document {a b : Document} (hspec : a.SpecAlike b) : Answer.Alike (.document a) (.document b)
  | entry {a b : Option Entry} (hentry : Option.Rel Entry.Alike a b) :
      Answer.Alike (.entry a) (.entry b)
  | counters (counters : Counters) : Answer.Alike (.counters counters) (.counters counters)

structure Response.Alike (a b : Response) : Prop where
  answer : a.answer.Alike b.answer
  stats : a.memo.stats = b.memo.stats
  cached : ∀ key, (Memo.entry? a.memo key).isSome = (Memo.entry? b.memo key).isSome
  recency : a.memo.recency = b.memo.recency
  evicted : ∀ key, Event.evicted key ∈ a.events ↔ Event.evicted key ∈ b.events
  events : a.events.map Event.withoutCandidate = b.events.map Event.withoutCandidate

namespace Entries.Alike

variable {entries other : Entries}

theorem get? (h : entries.Alike other) (key : Key) :
    Option.Rel Entry.Alike (entries.get? key) (other.get? key) := by
  induction h with
  | nil => exact .none
  | @cons pair pair' rest rest' hpair _ ih =>
      obtain ⟨first, entry⟩ := pair
      obtain ⟨first', entry'⟩ := pair'
      obtain ⟨rfl, halike⟩ := hpair
      rw [Entries.get?, Entries.get?, List.lookup_cons, List.lookup_cons]
      cases key == first with
      | true => exact .some halike
      | false => exact ih

theorem erase (h : entries.Alike other) (key : Key) :
    (entries.erase key).Alike (other.erase key) := by
  refine List.rel_filter ?_ h
  rintro pair pair' ⟨heq, -⟩
  simp only [heq]

theorem insert (h : entries.Alike other) (key : Key) {entry entry' : Entry}
    (halike : entry.Alike entry') : (entries.insert key entry).Alike (other.insert key entry') :=
  .cons ⟨rfl, halike⟩ (h.erase key)

end Entries.Alike

-- Findings that differ at most in the candidate they name.
structure Finding.Alike (a b : Finding) : Prop where
  outcome : a.verdict.outcome = b.verdict.outcome
  candidatesWithoutSpec : a.candidatesWithoutSpec = b.candidatesWithoutSpec
  persistedWithoutSpec : a.persistedWithoutSpec = b.persistedWithoutSpec
  events : a.events.map Event.withoutCandidate = b.events.map Event.withoutCandidate

namespace Finding.Alike

variable {finding other : Finding}

theorem after (h : finding.Alike other) {events events' : List Event}
    (hevents : events.map Event.withoutCandidate = events'.map Event.withoutCandidate) :
    (finding.after events).Alike (other.after events') where
  outcome := h.outcome
  candidatesWithoutSpec := h.candidatesWithoutSpec
  persistedWithoutSpec := h.persistedWithoutSpec
  events := by
    rw [Finding.after, Finding.after, List.map_append, List.map_append, hevents, h.events]

theorem passCandidate (h : finding.Alike other) :
    finding.passCandidate.Alike other.passCandidate where
  outcome := h.outcome
  candidatesWithoutSpec := congrArg (· + 1) h.candidatesWithoutSpec
  persistedWithoutSpec := h.persistedWithoutSpec
  events := h.events

theorem passPersisted (h : finding.Alike other) :
    finding.passPersisted.Alike other.passPersisted where
  outcome := h.outcome
  candidatesWithoutSpec := h.candidatesWithoutSpec
  persistedWithoutSpec := congrArg (· + 1) h.persistedWithoutSpec
  events := h.events

theorem counts (h : finding.Alike other) : finding.counts = other.counts := by
  rw [Finding.counts, Finding.counts, h.candidatesWithoutSpec, h.persistedWithoutSpec,
    Counters.recordVerdict_congr h.outcome]

theorem place (h : finding.Alike other) :
    finding.verdict.found?.map Prod.fst = other.verdict.found?.map Prod.fst := by
  rw [Verdict.place_eq, Verdict.place_eq, h.outcome]

end Finding.Alike

namespace Memo

structure Alike (memo other : Memo) : Prop where
  settings : memo.settings = other.settings
  entries : memo.entries.Alike other.entries
  recency : memo.recency = other.recency
  counters : memo.counters = other.counters

structure Room.Alike (room other : Room) : Prop where
  order : room.order = other.order
  entries : room.entries.Alike other.entries
  evicted : room.evicted = other.evicted

-- By induction on the order, as the room is made. Only the number of entries decides how many go.
theorem makeRoom_alike (limit : Nat) (order : List Key) {entries other : Entries}
    (h : entries.Alike other) :
    (makeRoom limit order entries).Alike (makeRoom limit order other) := by
  induction order generalizing entries other with
  | nil => exact ⟨rfl, h, rfl⟩
  | cons oldest rest ih =>
      rw [makeRoom, makeRoom, h.length_eq]
      split
      · exact ⟨rfl, h, rfl⟩
      · have hrest := ih (h.erase oldest)
        exact ⟨hrest.order, hrest.entries, congrArg (oldest :: ·) hrest.evicted⟩

-- By induction on the two lists of candidates. Each pair of candidates goes the same way.
theorem scan_alike {recorded recorded' : Option Json}
    (hrecorded : Option.Rel (fun spec other => spec.same other) recorded recorded') (key : Key)
    (place : Nat) {candidates candidates' : List Document}
    (h : List.Forall₂ Document.SpecAlike candidates candidates') :
    (scan key recorded place candidates).Alike (scan key recorded' place candidates') := by
  induction h generalizing place with
  | nil => exact ⟨rfl, rfl, rfl, rfl⟩
  | @cons candidate candidate' rest rest' halike _ ih =>
      have hrest := ih (place + 1)
      rcases cases_of_rel halike with ⟨hnone, hnone'⟩ | ⟨spec, spec', hspec, hspec', hsame⟩
      · simp only [scan, hnone, hnone']
        refine (hrest.after ?_).passCandidate
        rfl
      · rcases cases_of_rel hrecorded with
          ⟨rfl, rfl⟩ | ⟨wanted, wanted', rfl, rfl, hwanted⟩
        · simp only [scan, hspec, hspec']
          refine (hrest.after ?_).passPersisted
          rfl
        · simp only [scan, hspec, hspec', Json.same_congr hsame hwanted]
          split
          · exact ⟨rfl, rfl, rfl, rfl⟩
          · refine hrest.after ?_
            rfl

namespace Alike

variable {memo other : Memo}

theorem entry (h : memo.Alike other) (key : Key) :
    Option.Rel Entry.Alike (memo.entry? key) (other.entry? key) :=
  h.entries.get? key

theorem isSome_entry (h : memo.Alike other) (key : Key) :
    (memo.entry? key).isSome = (other.entry? key).isSome := by
  rcases cases_of_rel (h.entry key) with ⟨hnone, hnone'⟩ | ⟨entry, entry', hentry, hentry', -⟩
  · rw [hnone, hnone']
  · rw [hentry, hentry']
    rfl

theorem keyFor (h : memo.Alike other) {submitted submitted' : Document}
    (hsubmitted : submitted.Identical submitted') :
    memo.keyFor submitted = other.keyFor submitted' := by
  rw [Memo.keyFor, Memo.keyFor, h.settings, Key.derive_congr hsubmitted]

theorem size (h : memo.Alike other) : memo.size = other.size := h.entries.length_eq

theorem stats (h : memo.Alike other) : memo.stats = other.stats := by
  rw [Memo.stats, Memo.stats, h.counters, h.size]

theorem roomFor (h : memo.Alike other) (key : Key) :
    (memo.roomFor key).Alike (other.roomFor key) := by
  have hnone : (memo.entry? key).isNone = (other.entry? key).isNone := by
    rw [← Option.not_isSome, ← Option.not_isSome, h.isSome_entry]
  rw [Memo.roomFor, Memo.roomFor, h.settings, h.recency, hnone]
  split
  · exact makeRoom_alike _ _ h.entries
  · exact ⟨rfl, h.entries, rfl⟩

theorem inspect (h : memo.Alike other) {submitted submitted' : Document}
    (hsubmitted : submitted.Identical submitted') {candidates candidates' : List Document}
    (hcandidates : List.Forall₂ Document.SpecAlike candidates candidates') :
    (memo.inspect submitted candidates).Alike (other.inspect submitted' candidates') := by
  have hkey := h.keyFor hsubmitted
  rcases cases_of_rel (h.entry (memo.keyFor submitted)) with
    ⟨hnone, hnone'⟩ | ⟨entry, entry', hentry, hentry', halike⟩
  · simp only [Memo.inspect, ← hkey, hnone, hnone']
    exact ⟨rfl, rfl, rfl, rfl⟩
  · simp only [Memo.inspect, ← hkey, hentry, hentry',
      Document.beq_congr halike.submitted.same hsubmitted.same]
    split
    · refine (scan_alike halike.persisted _ 0 hcandidates).after ?_
      rfl
    · exact ⟨rfl, rfl, rfl, rfl⟩

theorem record (h : memo.Alike other) {submitted submitted' persisted persisted' : Document}
    (hsubmitted : submitted.Identical submitted') (hpersisted : persisted.SpecAlike persisted') :
    Memo.Alike (memo.record submitted persisted).1 (other.record submitted' persisted').1 ∧
      (memo.record submitted persisted).2 = (other.record submitted' persisted').2 := by
  have hkey := h.keyFor hsubmitted
  have hroom := h.roomFor (memo.keyFor submitted)
  have hentries : Entries.Alike (memo.record submitted persisted).1.entries
      (other.record submitted' persisted').1.entries := by
    rw [entries_record, entries_record, ← hkey]
    exact hroom.entries.insert _ ⟨hsubmitted, hpersisted⟩
  have horder : (memo.record submitted persisted).1.recency.order =
      (other.record submitted' persisted').1.recency.order := by
    rw [order_record, order_record, ← hkey, hroom.order, h.settings]
  refine ⟨⟨?_, hentries, congrArg Recency.mk horder, ?_⟩, ?_⟩
  · rw [settings_record, settings_record, h.settings]
  · rw [counters_record, counters_record, ← hkey, hroom.evicted, h.counters, Memo.size, Memo.size,
      hentries.length_eq]
  · rw [events_record, events_record, ← hkey, hroom.evicted]

theorem check (h : memo.Alike other) {submitted submitted' : Document}
    (hsubmitted : submitted.Identical submitted') {candidates candidates' : List Document}
    (hcandidates : List.Forall₂ Document.SpecAlike candidates candidates') :
    Memo.Alike (memo.check submitted candidates).1 (other.check submitted' candidates').1 := by
  have horder : (memo.check submitted candidates).1.recency.order =
      (other.check submitted' candidates').1.recency.order := by
    rw [order_check, order_check, ← h.keyFor hsubmitted, h.settings, h.recency, h.isSome_entry]
  refine ⟨?_, ?_, congrArg Recency.mk horder, ?_⟩
  · rw [settings_check, settings_check, h.settings]
  · rw [entries_check, entries_check]
    exact h.entries
  · rw [counters_check, counters_check, counters_countFinding, counters_countFinding, h.counters,
      (h.inspect hsubmitted hcandidates).counts]

theorem step (h : memo.Alike other) {call call' : Call} (hcall : call.Alike call') :
    Memo.Alike (memo.step call).memo (other.step call').memo := by
  cases hcall with
  | set hsubmitted hpersisted => exact (h.record hsubmitted hpersisted).1
  | verdict hsubmitted hcandidates | unchanged hsubmitted hcandidates =>
      exact h.check hsubmitted hcandidates
  | get _ | entry _ | stats => exact h

theorem persisted (h : memo.Alike other) (key : Key) :
    (memo.persisted key).SpecAlike (other.persisted key) := by
  rcases cases_of_rel (h.entry key) with
    ⟨hnone, hnone'⟩ | ⟨entry, entry', hentry, hentry', halike⟩
  · rw [Memo.persisted, Memo.persisted, hnone, hnone']
    exact .none
  · rw [Memo.persisted, Memo.persisted, hentry, hentry']
    exact halike.persisted

theorem answer_step (h : memo.Alike other) {call call' : Call} (hcall : call.Alike call') :
    (memo.step call).answer.Alike (other.step call').answer := by
  cases hcall with
  | set _ _ => exact .done
  | verdict hsubmitted hcandidates => exact .verdict (h.inspect hsubmitted hcandidates).outcome
  | unchanged hsubmitted hcandidates => exact .found (h.inspect hsubmitted hcandidates).place
  | get key => exact .document (h.persisted key)
  | entry key => exact .entry (h.entry key)
  | stats =>
      change Answer.Alike (.counters memo.stats) (.counters other.stats)
      rw [h.stats]
      exact .counters _

theorem events_step (h : memo.Alike other) {call call' : Call} (hcall : call.Alike call') :
    (memo.step call).events.map Event.withoutCandidate =
      (other.step call').events.map Event.withoutCandidate := by
  cases hcall with
  | set hsubmitted hpersisted =>
      exact congrArg (List.map Event.withoutCandidate) (h.record hsubmitted hpersisted).2
  | verdict hsubmitted hcandidates | unchanged hsubmitted hcandidates =>
      exact (h.inspect hsubmitted hcandidates).events
  | get _ | entry _ | stats => rfl

theorem response (h : memo.Alike other) {call call' : Call} (hcall : call.Alike call') :
    (memo.step call).Alike (other.step call') where
  answer := h.answer_step hcall
  stats := (h.step hcall).stats
  cached := (h.step hcall).isSome_entry
  recency := (h.step hcall).recency
  evicted key := by
    rw [← Event.evicted_mem_withoutCandidate_iff, h.events_step hcall,
      Event.evicted_mem_withoutCandidate_iff]
  events := h.events_step hcall

-- By induction on the calls. Alike memos give alike responses and are alike after them.
theorem responses (h : memo.Alike other) {calls calls' : List Call}
    (hcalls : List.Forall₂ Call.Alike calls calls') :
    List.Forall₂ Response.Alike (memo.responses calls) (other.responses calls') := by
  induction hcalls generalizing memo other with
  | nil => exact .nil
  | cons hcall _ ih => exact .cons (h.response hcall) (ih (h.step hcall))

end Alike

theorem alike_empty (settings : Settings) : (empty settings).Alike (empty settings) :=
  ⟨rfl, .nil, rfl, rfl⟩

theorem events_flatMap_alike {responses responses' : List Response}
    (h : List.Forall₂ Response.Alike responses responses') :
    (responses.flatMap Response.events).map Event.withoutCandidate =
      (responses'.flatMap Response.events).map Event.withoutCandidate := by
  induction h with
  | nil => rfl
  | cons halike _ ih =>
      rw [List.flatMap_cons, List.flatMap_cons, List.map_append, List.map_append, halike.events, ih]

-- Two runs make the same calls on identical submitted documents. What the store answered with and
-- the candidates pairwise have equal specs, or both none, and nothing else in common. Then every
-- check ends alike, for the same reason or at the same place, after every call the counters, the
-- keys with an entry and their order of use are the same, every call evicts the same keys, and
-- the lines of the two runs differ only in the text for a candidate.
theorem runs_alike_of_specs_alike (settings : Settings) {calls calls' : List Call}
    (hcalls : List.Forall₂ Call.Alike calls calls') :
    List.Forall₂ Response.Alike ((empty settings).responses calls)
      ((empty settings).responses calls') ∧
    ∀ sink, (lines sink settings calls).map (Line.without sink.candidateField) =
      (lines sink settings calls').map (Line.without sink.candidateField) := by
  have hresponses := (alike_empty settings).responses hcalls
  have hevents : ((empty settings).trace calls).map Event.withoutCandidate =
      ((empty settings).trace calls').map Event.withoutCandidate :=
    events_flatMap_alike hresponses
  refine ⟨hresponses, fun sink => ?_⟩
  have hlines (calls : List Call) :
      (lines sink settings calls).map (Line.without sink.candidateField) =
        (((empty settings).trace calls).map Event.withoutCandidate).map
          fun event => (event.line sink).without sink.candidateField := by
    rw [lines, List.map_map, List.map_map]
    exact List.map_congr_left fun event _ => (event.line_without sink).symm
  rw [hlines, hlines, hevents]

theorem responses_alike_for_other_names :
    List.Forall₂ Response.Alike
      ((empty ⟨1, .generateName, 60⟩).responses
        [.set (.named "a") (.named "b"), .unchanged (.named "a") [.named "c"]])
      ((empty ⟨1, .generateName, 60⟩).responses
        [.set (.named "a") (.named "d"), .unchanged (.named "a") [.named "e"]]) := by
  have hset := Call.Alike.set (.refl (.named "a")) (Document.specAlike_named "b" "d")
  have hcheck := Call.Alike.unchanged (.refl (.named "a"))
    (.cons (Document.specAlike_named "c" "e") .nil)
  exact (runs_alike_of_specs_alike ⟨1, .generateName, 60⟩ (.cons hset (.cons hcheck .nil))).1

end Memo

end WriteMemo
