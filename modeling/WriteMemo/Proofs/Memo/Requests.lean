import Mathlib.Algebra.BigOperators.Group.Finset.Piecewise
import WriteMemo.Proofs.Memo.Increment
import WriteMemo.Shared

namespace WriteMemo

-- The key that a call is about. A look at the counters is about none.
def Call.key? (strategy : KeyStrategy) : Call → Option Key
  | .set submitted _ | .verdict submitted _ | .unchanged submitted _ =>
    some (.derive strategy submitted)
  | .get key | .entry key => some key
  | .stats => none

-- The calls made through one handle.
def callsOf (handle : Nat) (requests : List Request) : List Call :=
  (requests.filter fun request => request.handle = handle).map Request.call

-- Every request is about a key, and requests about one key come through one handle.
structure Apart (strategy : KeyStrategy) (requests : List Request) : Prop where
  keyed : ∀ request ∈ requests, (request.call.key? strategy).isSome
  handle_eq : ∀ request ∈ requests, ∀ other ∈ requests,
    request.call.key? strategy = other.call.key? strategy → request.handle = other.handle

theorem callsOf_concat (handle : Nat) (requests : List Request) (request : Request) :
    callsOf handle (requests ++ [request]) =
      callsOf handle requests ++ if request.handle = handle then [request.call] else [] := by
  by_cases heq : request.handle = handle <;> simp [callsOf, heq]

theorem mem_callsOf_iff {handle : Nat} {requests : List Request} {call : Call} :
    call ∈ callsOf handle requests ↔ ⟨handle, call⟩ ∈ requests := by
  rw [callsOf, List.mem_map]
  constructor
  · rintro ⟨request, hmem, rfl⟩
    obtain ⟨hin, hhandle⟩ := List.mem_filter.mp hmem
    rw [decide_eq_true_eq] at hhandle
    exact hhandle ▸ hin
  · intro hin
    exact ⟨_, List.mem_filter.mpr ⟨hin, by simp⟩, rfl⟩

theorem Apart.of_concat {strategy : KeyStrategy} {requests : List Request} {request : Request}
    (h : Apart strategy (requests ++ [request])) : Apart strategy requests where
  keyed earlier hearlier := h.keyed earlier (List.mem_append_left _ hearlier)
  handle_eq earlier hearlier other hother :=
    h.handle_eq earlier (List.mem_append_left _ hearlier) other (List.mem_append_left _ hother)

namespace Memo

def answers (settings : Settings) (calls : List Call) : List Answer :=
  ((empty settings).responses calls).map Response.answer

-- A place for every key that is written.
def Roomy (settings : Settings) (calls : List Call) : Prop :=
  settings.isBounded → writtenCount settings.keyStrategy calls ≤ settings.capacity.toNat

theorem answers_concat (settings : Settings) (calls : List Call) (call : Call) :
    answers settings (calls ++ [call]) =
      answers settings calls ++ [((after settings calls).step call).answer] := by
  rw [answers, responses_append, List.map_append]
  rfl

theorem answersTo_concat (handle : Nat) (memo : Memo) (requests : List Request)
    (request : Request) :
    memo.answersTo handle (requests ++ [request]) =
      memo.answersTo handle requests ++
        if request.handle = handle then
          [((memo.run (requests.map Request.call)).step request.call).answer]
        else [] := by
  induction requests generalizing memo with
  | nil => rfl
  | cons first rest ih =>
      have hrun : memo.run ((first :: rest).map Request.call) =
          (memo.serve first).memo.run (rest.map Request.call) := rfl
      rw [List.cons_append, answersTo, answersTo, ih, hrun]
      split <;> rfl

theorem writtenCount_callsOf_le (strategy : KeyStrategy) (handle : Nat)
    (requests : List Request) :
    writtenCount strategy (callsOf handle requests) ≤
      writtenCount strategy (requests.map Request.call) := by
  have hsub : (callsOf handle requests).Sublist (requests.map Request.call) :=
    List.filter_sublist.map _
  apply Finset.card_le_card
  intro key hkey
  rw [List.mem_toFinset] at hkey ⊢
  exact ((hsub.filterMap _).map _).subset hkey

theorem Roomy.callsOf {settings : Settings} {requests : List Request}
    (h : Roomy settings (requests.map Request.call)) (handle : Nat) :
    Roomy settings (callsOf handle requests) :=
  fun hbounded => (writtenCount_callsOf_le _ handle requests).trans (h hbounded)

theorem Roomy.of_concat {settings : Settings} {calls : List Call} {call : Call}
    (h : Roomy settings (calls ++ [call])) : Roomy settings calls :=
  fun hbounded => (writtenCount_le_append _ calls [call]).trans (h hbounded)

theorem lastWrite_of_other_key {strategy : KeyStrategy} {call : Call} {key : Key}
    (hkey : call.key? strategy ≠ some key) : lastWrite strategy key [call] = none := by
  cases call with
  | set submitted persisted =>
      apply lastWrite_set_of_ne
      rintro rfl
      exact hkey rfl
  | verdict _ _ | unchanged _ _ | get _ | entry _ | stats => rfl

theorem key_of_mem_writtenKeys {strategy : KeyStrategy} {call : Call} {key : Key}
    (hwritten : key ∈ writtenKeys strategy [call]) : call.key? strategy = some key := by
  by_contra hkey
  exact lastWrite_eq_none_iff.mp (lastWrite_of_other_key hkey) hwritten

-- A key that is used through one handle only was written last where that handle wrote it last.
theorem lastWrite_callsOf {strategy : KeyStrategy} {handle : Nat} {key : Key}
    {requests : List Request}
    (howner : ∀ request ∈ requests, request.call.key? strategy = some key →
      request.handle = handle) :
    lastWrite strategy key (requests.map Request.call) =
      lastWrite strategy key (callsOf handle requests) := by
  induction requests using List.reverseRecOn with
  | nil => rfl
  | append_singleton requests request ih =>
      have hearlier := ih fun earlier hin => howner earlier (List.mem_append_left _ hin)
      rw [List.map_append, callsOf_concat, lastWrite_append, lastWrite_append, hearlier]
      by_cases heq : request.handle = handle
      · rw [if_pos heq]
        rfl
      · have hkey : request.call.key? strategy ≠ some key := fun hkey =>
          heq (howner request (List.mem_append_right _ List.mem_cons_self) hkey)
        rw [if_neg heq, List.map_singleton, lastWrite_of_other_key hkey]
        rfl

theorem entry_after_callsOf {settings : Settings} {handle : Nat} {key : Key}
    {requests : List Request} (hroom : Roomy settings (requests.map Request.call))
    (howner : ∀ request ∈ requests, request.call.key? settings.keyStrategy = some key →
      request.handle = handle) :
    Memo.entry? (after settings (requests.map Request.call)) key =
      Memo.entry? (after settings (callsOf handle requests)) key := by
  rw [entry_after_of_writtenCount_le hroom, entry_after_of_writtenCount_le (hroom.callsOf handle),
    lastWrite_callsOf howner]

section congr

variable {memo other : Memo} {call : Call} {key : Key}

-- A call sees no more of a memo than the entry under the key that it is about.
theorem answer_step_congr (hstrategy : memo.settings.keyStrategy = other.settings.keyStrategy)
    (hkey : call.key? memo.settings.keyStrategy = some key)
    (hentry : memo.entry? key = other.entry? key) :
    (memo.step call).answer = (other.step call).answer := by
  cases call with
  | set _ _ => rfl
  | verdict submitted candidates =>
      cases hkey
      rw [answer_verdict, answer_verdict, inspect_congr (by rw [keyFor, keyFor, hstrategy]) hentry]
  | unchanged submitted candidates =>
      cases hkey
      rw [answer_unchanged, answer_unchanged,
        inspect_congr (by rw [keyFor, keyFor, hstrategy]) hentry]
  | get _ =>
      cases hkey
      simp only [step, persisted, hentry]
  | entry _ =>
      cases hkey
      simp only [step, hentry]
  | stats => cases hkey

-- It counts alike as well, unless it has to evict.
theorem increment_congr (hstrategy : memo.settings.keyStrategy = other.settings.keyStrategy)
    (hkey : call.key? memo.settings.keyStrategy = some key)
    (hentry : memo.entry? key = other.entry? key) (hnil : memo.evictedBy call = [])
    (hnil' : other.evictedBy call = []) : memo.increment call = other.increment call := by
  cases call with
  | set submitted persisted =>
      cases hkey
      have hkeyFor : other.keyFor submitted = memo.keyFor submitted := by
        rw [keyFor, keyFor, hstrategy]
      have hentry' : memo.entry? (memo.keyFor submitted) = other.entry? (memo.keyFor submitted) :=
        hentry
      rw [evictedBy] at hnil hnil'
      rw [hkeyFor] at hnil'
      simp only [increment, opens, hnil, hnil', hkeyFor, hentry']
  | verdict submitted candidates | unchanged submitted candidates =>
      cases hkey
      rw [increment, increment, inspect_congr (by rw [keyFor, keyFor, hstrategy]) hentry]
  | get _ | entry _ | stats => rfl

end congr

-- By induction on the requests from the last one back. What a request finds under its key is what
-- its handle has left there, so it is answered and counted as among the calls of its handle.
theorem served_apart {settings : Settings} {handles : Finset Nat} {requests : List Request}
    (hhandles : ∀ request ∈ requests, request.handle ∈ handles)
    (hapart : Apart settings.keyStrategy requests)
    (hroom : Roomy settings (requests.map Request.call)) :
    (∀ handle, (empty settings).answersTo handle requests =
      answers settings (callsOf handle requests)) ∧
    (after settings (requests.map Request.call)).counters =
      ∑ handle ∈ handles, (after settings (callsOf handle requests)).counters := by
  induction requests using List.reverseRecOn with
  | nil => exact ⟨fun _ => rfl, (Finset.sum_const_zero).symm⟩
  | append_singleton requests request ih =>
      have hlast : request ∈ requests ++ [request] :=
        List.mem_append_right _ List.mem_cons_self
      have hown : Roomy settings (callsOf request.handle requests ++ [request.call]) := by
        have hown := hroom.callsOf request.handle
        rwa [callsOf_concat, if_pos rfl] at hown
      rw [List.map_append] at hroom ⊢
      obtain ⟨hanswers, hcounters⟩ := ih
        (fun other hin => hhandles other (List.mem_append_left _ hin)) hapart.of_concat
        hroom.of_concat
      obtain ⟨key, hkey⟩ := Option.isSome_iff_exists.mp (hapart.keyed request hlast)
      have hentry : Memo.entry? (after settings (requests.map Request.call)) key =
          Memo.entry? (after settings (callsOf request.handle requests)) key := by
        refine entry_after_callsOf hroom.of_concat fun other hin hother => ?_
        exact hapart.handle_eq other (List.mem_append_left _ hin) request hlast
          (hother.trans hkey.symm)
      have hstrategy : (after settings (requests.map Request.call)).settings.keyStrategy =
          (after settings (callsOf request.handle requests)).settings.keyStrategy := by
        rw [settings_after, settings_after]
      rw [← settings_after settings (requests.map Request.call)] at hkey
      have hanswer := answer_step_congr hstrategy hkey hentry
      have hincrement := increment_congr hstrategy hkey hentry
        (evictedBy_eq_nil_of_writtenCount_le hroom) (evictedBy_eq_nil_of_writtenCount_le hown)
      refine ⟨fun handle => ?_, ?_⟩
      · rw [answersTo_concat, callsOf_concat, hanswers]
        split
        · next heq =>
          subst heq
          rw [answers_concat, ← hanswer]
          rfl
        · rw [List.append_nil, List.append_nil]
      · have hcallsOf (handle : Nat) :
            (after settings (callsOf handle (requests ++ [request]))).counters =
              (after settings (callsOf handle requests)).counters +
                if request.handle = handle then
                  (after settings (requests.map Request.call)).increment request.call
                else 0 := by
          rw [callsOf_concat]
          split
          · next heq =>
            subst heq
            rw [counters_after_concat, hincrement]
          · rw [List.append_nil, add_zero]
        simp only [hcallsOf, Finset.sum_add_distrib, Finset.sum_ite_eq,
          if_pos (hhandles request hlast), ← hcounters]
        exact counters_after_concat _ _ _

end Memo

end WriteMemo
