import WriteMemo.Json.Reader
import WriteMemo.Proofs.Json.Depth

namespace WriteMemo.Json

mutual

def spelled : Json → List Token
  | .null => [.null]
  | .bool value => [.bool value]
  | .number value => [.number value]
  | .string text => [.text text]
  | .array [] => [.openArray, .closeArray]
  | .array (item :: rest) => .openArray :: item.spelled ++ spelledItems rest
  | .object [] => [.openObject, .closeObject]
  | .object ((name, value) :: rest) =>
    .openObject :: .text name :: .colon :: value.spelled ++ spelledMembers rest

-- The items after the first one, and the closing bracket.
def spelledItems : List Json → List Token
  | [] => [.closeArray]
  | item :: rest => .comma :: item.spelled ++ spelledItems rest

def spelledMembers : List (String × Json) → List Token
  | [] => [.closeObject]
  | (name, value) :: rest =>
    .comma :: .text name :: .colon :: value.spelled ++ spelledMembers rest

end

namespace Reader

variable {state next : State} {token : Token} {tokens : List Token} {frames : List Frame}

theorem foldlM_cons_of_ok (h : step state token = .ok next) :
    (token :: tokens).foldlM step state = tokens.foldlM step next := by
  rw [List.foldlM_cons, h]
  rfl

theorem foldlM_cons_of_error {fault : TextFault} (h : step state token = .error fault) :
    (token :: tokens).foldlM step state = .error fault := by
  rw [List.foldlM_cons, h]
  rfl

-- Inside an array that has just been opened a value is awaited, unless the array is closed.
theorem step_openedArray (h : token ≠ .closeArray) :
    step (.openedArray frames) token = step (.value (.array [] :: frames)) token := by
  cases token <;> first | rfl | contradiction

theorem exists_head_spelled (value : Json) :
    ∃ token rest, value.spelled = token :: rest ∧ token ≠ .closeArray := by
  cases value with
  | null | bool _ | number _ | string _ => exact ⟨_, _, rfl, Token.noConfusion⟩
  | array items => cases items <;> exact ⟨_, _, rfl, Token.noConfusion⟩
  | object members => cases members <;> exact ⟨_, _, rfl, Token.noConfusion⟩

theorem foldlM_openedArray (value : Json) (tokens : List Token) (frames : List Frame) :
    (value.spelled ++ tokens).foldlM step (.openedArray frames) =
      (value.spelled ++ tokens).foldlM step (.value (.array [] :: frames)) := by
  obtain ⟨token, rest, hspelled, hclose⟩ := exists_head_spelled value
  rw [hspelled, List.cons_append, List.foldlM_cons, List.foldlM_cons, step_openedArray hclose]

theorem step_open_of_lt (h : frames.length < depthLimit) :
    step (.value frames) .openArray = .ok (.openedArray frames) ∧
      step (.value frames) .openObject = .ok (.openedObject frames) :=
  ⟨if_pos h, if_pos h⟩

theorem step_open_of_le (h : depthLimit ≤ frames.length) :
    step (.value frames) .openArray = .error .malformed ∧
      step (.value frames) .openObject = .error .malformed :=
  ⟨if_neg (Nat.not_lt.mpr h), if_neg (Nat.not_lt.mpr h)⟩

-- Every container starts with a bracket, and inside as many others the bracket is refused.
theorem foldlM_spelled_of_full {value : Json} (hpos : 0 < value.depth)
    (hfull : depthLimit ≤ frames.length) :
    (value.spelled ++ tokens).foldlM step (.value frames) =
      if frames.length + value.depth ≤ depthLimit then tokens.foldlM step (deliver value frames)
      else .error .malformed := by
  rw [if_neg (by omega)]
  cases value with
  | null | bool _ | number _ | string _ => cases hpos
  | array items => cases items <;> exact foldlM_cons_of_error (step_open_of_le hfull).1
  | object members => cases members <;> exact foldlM_cons_of_error (step_open_of_le hfull).2

-- The innermost container in which there is no room decides.
theorem ite_and_of_iff {α : Type} {a b c : Prop} [Decidable a] [Decidable b] [Decidable c]
    {first second : α} (h : c ↔ a ∧ b) :
    (if a then if b then first else second else second) = if c then first else second := by
  rw [← ite_and]
  exact if_congr h.symm rfl rfl

-- By induction on the value. Open containers and later tokens are arbitrary, so that the parts of a
-- container are read one behind the other.
mutual

theorem foldlM_spelled : ∀ (value : Json) (frames : List Frame) (tokens : List Token),
    frames.length ≤ depthLimit →
    (value.spelled ++ tokens).foldlM step (.value frames) =
      if frames.length + value.depth ≤ depthLimit then tokens.foldlM step (deliver value frames)
      else .error .malformed
  | .null, _, _, h | .bool _, _, _, h | .number _, _, _, h | .string _, _, _, h => (if_pos h).symm
  | .array [], frames, tokens, _ => by
    rcases Nat.lt_or_ge frames.length depthLimit with hroom | hfull
    · rw [spelled, List.cons_append, foldlM_cons_of_ok (step_open_of_lt hroom).1]
      exact (if_pos hroom).symm
    · exact foldlM_spelled_of_full (Nat.succ_pos _) hfull
  | .array (item :: rest), frames, tokens, _ => by
    rcases Nat.lt_or_ge frames.length depthLimit with hroom | hfull
    · simp only [spelled, List.cons_append, List.append_assoc]
      rw [foldlM_cons_of_ok (step_open_of_lt hroom).1, foldlM_openedArray,
        foldlM_spelled item (.array [] :: frames) _ hroom, deliver,
        foldlM_spelledItems rest [item] frames tokens hroom]
      refine ite_and_of_iff ?_
      rw [depth, itemsDepth, List.length_cons]
      omega
    · exact foldlM_spelled_of_full (Nat.succ_pos _) hfull
  | .object [], frames, tokens, _ => by
    rcases Nat.lt_or_ge frames.length depthLimit with hroom | hfull
    · rw [spelled, List.cons_append, foldlM_cons_of_ok (step_open_of_lt hroom).2]
      exact (if_pos hroom).symm
    · exact foldlM_spelled_of_full (Nat.succ_pos _) hfull
  | .object ((name, value) :: rest), frames, tokens, _ => by
    rcases Nat.lt_or_ge frames.length depthLimit with hroom | hfull
    · simp only [spelled, List.cons_append, List.append_assoc]
      rw [foldlM_cons_of_ok (step_open_of_lt hroom).2, foldlM_cons_of_ok rfl, foldlM_cons_of_ok rfl,
        foldlM_spelled value (.object [] name :: frames) _ hroom, deliver,
        foldlM_spelledMembers rest [(name, value)] frames tokens hroom]
      refine ite_and_of_iff ?_
      rw [depth, membersDepth, List.length_cons]
      omega
    · exact foldlM_spelled_of_full (Nat.succ_pos _) hfull

theorem foldlM_spelledItems : ∀ (items earlier : List Json) (frames : List Frame)
    (tokens : List Token), frames.length < depthLimit →
    (spelledItems items ++ tokens).foldlM step (.afterItem earlier frames) =
      if frames.length + 1 + itemsDepth items ≤ depthLimit then
        tokens.foldlM step (deliver (.array (earlier.reverse ++ items)) frames)
      else .error .malformed
  | [], earlier, frames, tokens, h => by
    rw [itemsDepth, if_pos (Nat.succ_le_of_lt h), List.append_nil]
    rfl
  | item :: rest, earlier, frames, tokens, h => by
    simp only [spelledItems, List.cons_append, List.append_assoc]
    rw [foldlM_cons_of_ok rfl, foldlM_spelled item (.array earlier :: frames) _ h, deliver,
      foldlM_spelledItems rest (item :: earlier) frames tokens h, List.reverse_cons,
      List.append_assoc, List.singleton_append]
    refine ite_and_of_iff ?_
    rw [itemsDepth, List.length_cons]
    omega

theorem foldlM_spelledMembers : ∀ (members earlier : List (String × Json)) (frames : List Frame)
    (tokens : List Token), frames.length < depthLimit →
    (spelledMembers members ++ tokens).foldlM step (.afterMember earlier frames) =
      if frames.length + 1 + membersDepth members ≤ depthLimit then
        tokens.foldlM step (deliver (.object (earlier.reverse ++ members)) frames)
      else .error .malformed
  | [], earlier, frames, tokens, h => by
    rw [membersDepth, if_pos (Nat.succ_le_of_lt h), List.append_nil]
    rfl
  | (name, value) :: rest, earlier, frames, tokens, h => by
    simp only [spelledMembers, List.cons_append, List.append_assoc]
    rw [foldlM_cons_of_ok rfl, foldlM_cons_of_ok rfl, foldlM_cons_of_ok rfl,
      foldlM_spelled value (.object earlier name :: frames) _ h, deliver,
      foldlM_spelledMembers rest ((name, value) :: earlier) frames tokens h, List.reverse_cons,
      List.append_assoc, List.singleton_append]
    refine ite_and_of_iff ?_
    rw [membersDepth, List.length_cons]
    omega

end

theorem run_spelled (value : Json) :
    run (.value []) value.spelled =
      if value.depth ≤ depthLimit then .ok value else .error .malformed := by
  have h := foldlM_spelled value [] [] (Nat.zero_le _)
  rw [List.append_nil, List.length_nil, Nat.zero_add] at h
  rw [run, h]
  split <;> rfl

-- What has been read of an open container, as a value of its own.
def content : Frame → Json
  | .array items => .array items
  | .object members _ => .object members

-- Each open container lies within the limit, together with those around it.
def Open : List Frame → Prop
  | [] => True
  | frame :: frames => frames.length + (content frame).depth ≤ depthLimit ∧ Open frames

-- A value within the limit, or the part of it that has been read.
structure Fits (frames : List Frame) (value : Json) : Prop where
  depth_le : frames.length + value.depth ≤ depthLimit
  outer : Open frames

def State.Within : State → Prop
  | .value frames => Open frames
  | .openedArray frames => Fits frames (.array [])
  | .openedObject frames => Fits frames (.object [])
  | .nextName members frames => Fits frames (.object members)
  | .named members _ frames => Fits frames (.object members)
  | .afterItem items frames => Fits frames (.array items)
  | .afterMember members frames => Fits frames (.object members)
  | .complete whole => whole.depth ≤ depthLimit

theorem Open.length_le (h : Open frames) : frames.length ≤ depthLimit := by
  cases frames with
  | nil => exact Nat.zero_le _
  | cons frame frames =>
      have hpos : 0 < (content frame).depth := by cases frame <;> exact Nat.succ_pos _
      have hfits := h.1
      rw [List.length_cons]
      omega

theorem Fits.deliver {value : Json} (h : Fits frames value) : (deliver value frames).Within := by
  obtain ⟨hfits, houter⟩ := h
  cases frames with
  | nil => rwa [List.length_nil, Nat.zero_add] at hfits
  | cons frame frames =>
      obtain ⟨hframe, hopen⟩ := houter
      rw [List.length_cons] at hfits
      cases frame with
      | array items =>
          refine ⟨?_, hopen⟩
          simp only [content, depth, itemsDepth] at hframe ⊢
          omega
      | object members name =>
          refine ⟨?_, hopen⟩
          simp only [content, depth, membersDepth] at hframe ⊢
          omega

theorem Open.takeValue (h : Open frames) (hstep : takeValue frames token = .ok next) :
    next.Within := by
  have hscalar : frames.length + 0 ≤ depthLimit := h.length_le
  unfold Reader.takeValue deeper at hstep
  split at hstep
  · split at hstep <;> cases hstep
    next hroom => exact ⟨hroom, h⟩
  · split at hstep <;> cases hstep
    next hroom => exact ⟨hroom, h⟩
  all_goals cases hstep
  all_goals exact Fits.deliver ⟨hscalar, h⟩

theorem Fits.takeName {members : List (String × Json)} (h : Fits frames (.object members))
    (hstep : takeName members frames token = .ok next) : next.Within := by
  unfold Reader.takeName at hstep
  split at hstep <;> cases hstep
  exact h

theorem Fits.reverse_array {items : List Json} (h : Fits frames (.array items)) :
    Fits frames (.array items.reverse) := by
  refine ⟨?_, h.outer⟩
  rw [depth, itemsDepth_reverse]
  exact h.depth_le

theorem Fits.reverse_object {members : List (String × Json)}
    (h : Fits frames (.object members)) : Fits frames (.object members.reverse) := by
  refine ⟨?_, h.outer⟩
  rw [depth, membersDepth_reverse]
  exact h.depth_le

-- No token leads out of the limit.
theorem State.Within.step (h : state.Within) (hstep : step state token = .ok next) :
    next.Within := by
  unfold Reader.step at hstep
  split at hstep
  · exact Open.takeValue h hstep
  · cases hstep
    exact Fits.deliver h
  · next frames token =>
    have hopen : Open (.array [] :: frames) := ⟨h.depth_le, h.outer⟩
    exact hopen.takeValue hstep
  · cases hstep
    exact Fits.deliver h
  · exact Fits.takeName h hstep
  · exact Fits.takeName h hstep
  · cases hstep
    exact ⟨h.depth_le, h.outer⟩
  · cases hstep
    exact ⟨h.depth_le, h.outer⟩
  · cases hstep
    exact Fits.deliver (Fits.reverse_array h)
  · cases hstep
    exact h
  · cases hstep
    exact Fits.deliver (Fits.reverse_object h)
  · cases hstep

theorem State.Within.foldlM (h : state.Within) (hrun : tokens.foldlM Reader.step state = .ok next) :
    next.Within := by
  induction tokens generalizing state with
  | nil =>
      cases hrun
      exact h
  | cons token tokens ih =>
      cases hstep : Reader.step state token with
      | error fault =>
          rw [foldlM_cons_of_error hstep] at hrun
          cases hrun
      | ok first =>
          rw [foldlM_cons_of_ok hstep] at hrun
          exact ih (h.step hstep) hrun

end Reader

theorem depth_of_read {text : String} {value : Json} (h : read text = .ok value) :
    value.depth ≤ Reader.depthLimit := by
  unfold read Reader.run at h
  cases hrun : (Json.tokens text.toList).foldlM Reader.step (.value []) with
  | error fault =>
      rw [hrun] at h
      cases h
  | ok last =>
      rw [hrun] at h
      have hstart : Reader.State.Within (.value []) := trivial
      have hwithin := hstart.foldlM hrun
      cases last with
      | complete whole =>
          cases h
          exact hwithin
      | _ => cases h

end WriteMemo.Json
