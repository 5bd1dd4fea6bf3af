import SimplestChat.Chat.Reactions

/-!
# Reactions as a set of pairs

The reactions of a message are a list of groups, one for each emoji. In every list that
requests lead to, the groups are a set of pairs of an emoji and a person, and a request
changes at most the pair that it names.
-/

namespace SimplestChat

open List ReactionRequest

/-- The list is a set of at most 64 pairs, grouped by emoji. -/
structure ReactionsKept (l : List ChatReaction) : Prop where
  offered : ∀ r ∈ l, r.emoji ∈ offeredReactions
  once : (l.map ChatReaction.emoji).Nodup
  nonempty : ∀ r ∈ l, r.participantIds ≠ []
  distinct : ∀ r ∈ l, r.participantIds.Nodup
  bounded : reactionTotal l ≤ messageReactions

/-- A refused request changes nothing. -/
def ReactionRequest.answer (l : List ChatReaction) (request : ReactionRequest) :
    List ChatReaction :=
  (request.apply l).toOption.getD l

/-- The reactions after some requests, from an empty list. -/
def reactionsAfter (requests : List ReactionRequest) : List ChatReaction :=
  requests.foldl answer []

/-- Whether the requester has reacted with `other` afterwards. -/
def ReactionRequest.shows (other : String) (had : Bool) : ReactionRequest → Bool
  | toggle _ emoji => if other = emoji then !had else had
  | set _ emoji present => if other = emoji then present else had

variable {l next : List ChatReaction} {actor : ParticipantId} {emoji : String}

/-! ## The two changes of a list -/

theorem withdrawReaction_emoji :
    (withdrawReaction actor emoji l).map ChatReaction.emoji <+ l.map ChatReaction.emoji := by
  fun_induction withdrawReaction actor emoji l with
  | case1 => exact .refl _
  | case2 r rest => exact sublist_cons_self _ _
  | case3 r rest => exact .refl _
  | case4 r rest _ ih => exact ih.cons_cons _

theorem mem_withdrawReaction {r : ChatReaction} (h : r ∈ withdrawReaction actor emoji l) :
    ∃ q ∈ l, q.emoji = r.emoji ∧ r.participantIds <+ q.participantIds ∧
      (q.participantIds ≠ [] → r.participantIds ≠ []) := by
  fun_induction withdrawReaction actor emoji l with
  | case1 => cases h
  | case2 q rest => exact ⟨r, mem_cons_of_mem _ h, rfl, .refl _, id⟩
  | case3 q rest _ people hsome =>
    rcases mem_cons.mp h with rfl | h
    · exact ⟨q, mem_cons_self, rfl, filter_sublist, fun _ hnone => hsome (isEmpty_iff.mpr hnone)⟩
    · exact ⟨r, mem_cons_of_mem _ h, rfl, .refl _, id⟩
  | case4 q rest _ ih =>
    rcases mem_cons.mp h with rfl | h
    · exact ⟨r, mem_cons_self, rfl, .refl _, id⟩
    · obtain ⟨q, hq, hrest⟩ := ih h
      exact ⟨q, mem_cons_of_mem _ hq, hrest⟩

theorem reactionTotal_withdrawReaction :
    reactionTotal (withdrawReaction actor emoji l) ≤ reactionTotal l := by
  unfold reactionTotal
  fun_induction withdrawReaction actor emoji l with
  | case1 => exact le_rfl
  | case2 r rest => simp
  | case3 r rest => simpa using length_filter_le _ _
  | case4 r rest _ ih => simpa using ih

theorem addReaction_emoji : (addReaction actor emoji l).map ChatReaction.emoji =
    l.map ChatReaction.emoji ++ if emoji ∈ l.map ChatReaction.emoji then [] else [emoji] := by
  fun_induction addReaction actor emoji l with
  | case1 => rfl
  | case2 r rest h => simp [h]
  | case3 r rest h ih => simp [ih, Ne.symm h]

theorem mem_addReaction {r : ChatReaction} (h : r ∈ addReaction actor emoji l) :
    r ∈ l ∨ r = ⟨emoji, [actor]⟩ ∨
      ∃ q ∈ l, q.emoji = emoji ∧ r = { q with participantIds := q.participantIds ++ [actor] } := by
  fun_induction addReaction actor emoji l with
  | case1 => simpa using h
  | case2 q rest hq => grind
  | case3 q rest hq ih => grind

theorem reactionTotal_addReaction :
    reactionTotal (addReaction actor emoji l) = reactionTotal l + 1 := by
  unfold reactionTotal
  fun_induction addReaction actor emoji l with
  | case1 => rfl
  | case2 r rest h =>
    simp only [map_cons, sum_cons, length_append, length_singleton]
    omega
  | case3 r rest h ih =>
    simp only [map_cons, sum_cons, ih]
    omega

/-! ## The invariant -/

theorem hasReaction_eq_true : hasReaction l actor emoji = true ↔
    ∃ r ∈ l, r.emoji = emoji ∧ actor ∈ r.participantIds := by
  simp [hasReaction]

theorem hasReaction_withdraw_own (honce : (l.map ChatReaction.emoji).Nodup) (other : String) :
    hasReaction (withdrawReaction actor emoji l) actor other =
      (hasReaction l actor other && other ≠ emoji) := by
  have hlast {r : ChatReaction} {rest : List ChatReaction}
      (h : ((r :: rest).map ChatReaction.emoji).Nodup) : hasReaction rest actor r.emoji = false := by
    rw [Bool.eq_false_iff, Ne, hasReaction_eq_true]
    rintro ⟨q, hq, hemoji, -⟩
    exact (List.nodup_cons.mp h).1 (mem_map.mpr ⟨q, hq, hemoji⟩)
  fun_induction withdrawReaction actor emoji l with
  | case1 => rfl
  | case2 r rest hr people hnone =>
    have hrest := hlast honce
    simp only [hasReaction_cons]
    grind
  | case3 r rest hr people hsome =>
    have hrest := hlast honce
    simp only [hasReaction_cons]
    grind
  | case4 r rest hr ih =>
    have ih := ih (List.nodup_cons.mp honce).2
    simp only [hasReaction_cons, ih]
    grind

theorem hasReaction_add_own (other : String) : hasReaction (addReaction actor emoji l) actor other =
    (hasReaction l actor other || other = emoji) := by
  fun_induction addReaction actor emoji l with
  | case1 => simp [hasReaction, eq_comm]
  | case2 r rest hr =>
    simp only [hasReaction_cons]
    grind
  | case3 r rest hr ih =>
    simp only [hasReaction_cons, ih, Bool.or_assoc]

namespace ReactionsKept

variable (h : ReactionsKept l)
include h

theorem hasReaction_iff (actor : ParticipantId) {r : ChatReaction} (hr : r ∈ l) :
    hasReaction l actor r.emoji = true ↔ actor ∈ r.participantIds := by
  rw [hasReaction_eq_true]
  refine ⟨?_, fun hmem => ⟨r, hr, rfl, hmem⟩⟩
  rintro ⟨q, hq, hemoji, hmem⟩
  rwa [← inj_on_of_nodup_map h.once hq hr hemoji]

/-- What an accepted toggle does. -/
theorem toggle_cases (hnext : toggleReactions l actor emoji = .ok next) :
    emoji ∈ offeredReactions ∧
      (hasReaction l actor emoji = true ∧ next = withdrawReaction actor emoji l ∨
        hasReaction l actor emoji = false ∧ reactionTotal l < messageReactions ∧
          next = addReaction actor emoji l) := by
  unfold toggleReactions at hnext
  by_cases hoffered : emoji ∈ offeredReactions
  · rw [if_neg (not_not.mpr hoffered)] at hnext
    refine ⟨hoffered, ?_⟩
    cases hfind : l.find? fun r => r.emoji = emoji with
    | some r =>
      have hemoji : r.emoji = emoji := by simpa using find?_some hfind
      have hiff := h.hasReaction_iff actor (mem_of_find?_eq_some hfind)
      rw [hemoji] at hiff
      simp only [hfind, contains_iff_mem, ← hiff] at hnext
      cases hhas : hasReaction l actor emoji <;> grind
    | none =>
      have hnone : hasReaction l actor emoji = false := by
        rw [Bool.eq_false_iff, Ne, hasReaction_eq_true]
        rintro ⟨r, hr, hemoji, -⟩
        exact find?_eq_none.mp hfind r hr (by simpa using hemoji)
      simp only [hfind] at hnext
      grind
  · rw [if_pos hoffered] at hnext
    cases hnext

theorem toggle (hnext : toggleReactions l actor emoji = .ok next) : ReactionsKept next := by
  obtain ⟨hoffered, ⟨-, rfl⟩ | ⟨hnone, hroom, rfl⟩⟩ := h.toggle_cases hnext
  · refine ⟨fun r hr => ?_, h.once.sublist withdrawReaction_emoji, fun r hr => ?_, fun r hr => ?_,
      reactionTotal_withdrawReaction.trans h.bounded⟩
    all_goals obtain ⟨q, hq, hemoji, hsub, hsome⟩ := mem_withdrawReaction hr
    · exact hemoji ▸ h.offered q hq
    · exact hsome (h.nonempty q hq)
    · exact (h.distinct q hq).sublist hsub
  · refine ⟨fun r hr => ?_, ?_, fun r hr => ?_, fun r hr => ?_, by
      rw [reactionTotal_addReaction]; exact hroom⟩
    · obtain hr | rfl | ⟨q, hq, -, rfl⟩ := mem_addReaction hr
      · exact h.offered r hr
      · exact hoffered
      · exact h.offered q hq
    · rw [addReaction_emoji]
      split_ifs with hmem
      · simpa using h.once
      · exact h.once.append (nodup_singleton _) (by simpa using hmem)
    · obtain hr | rfl | ⟨q, hq, -, rfl⟩ := mem_addReaction hr
      · exact h.nonempty r hr
      · simp
      · simp
    · obtain hr | rfl | ⟨q, hq, hemoji, rfl⟩ := mem_addReaction hr
      · exact h.distinct r hr
      · simp
      · refine (h.distinct q hq).append (nodup_singleton _) ?_
        have hiff := h.hasReaction_iff actor hq
        rw [hemoji, hnone] at hiff
        simpa using hiff

theorem hasReaction_toggle_own (hnext : toggleReactions l actor emoji = .ok next)
    (other : String) :
    hasReaction next actor other = (hasReaction l actor other ^^ decide (other = emoji)) := by
  obtain ⟨-, ⟨hhas, rfl⟩ | ⟨hnone, -, rfl⟩⟩ := h.toggle_cases hnext
  · rw [hasReaction_withdraw_own h.once]
    grind
  · rw [hasReaction_add_own]
    grind

theorem apply {request : ReactionRequest} (hnext : request.apply l = .ok next) :
    ReactionsKept next := by
  cases request with
  | toggle => exact h.toggle hnext
  | set =>
    simp only [ReactionRequest.apply, setReaction] at hnext
    split_ifs at hnext
    · cases hnext
      exact h
    · exact h.toggle hnext

/-- The pairs of the requester; those of the others stay. -/
theorem hasReaction_own (request : ReactionRequest) (hnext : request.apply l = .ok next)
    (other : String) : hasReaction next request.reactor other =
      request.shows other (hasReaction l request.reactor other) := by
  cases request with
  | toggle =>
    have hown := h.hasReaction_toggle_own hnext other
    grind [shows, reactor]
  | set =>
    simp only [ReactionRequest.apply, setReaction] at hnext
    split_ifs at hnext
    · cases hnext
      grind [shows, reactor]
    · have hown := h.hasReaction_toggle_own hnext other
      grind [shows, reactor]

end ReactionsKept

theorem reactionsKept_after (requests : List ReactionRequest) :
    ReactionsKept (reactionsAfter requests) := by
  have hstart : ReactionsKept [] := ⟨by simp, by simp, by simp, by simp, by decide⟩
  induction requests using reverseRecOn with
  | nil => exact hstart
  | append_singleton requests request ih =>
    rw [reactionsAfter, foldl_append, foldl_cons, foldl_nil, answer]
    cases hnext : request.apply (requests.foldl answer []) with
    | error => exact ih
    | ok next => exact ih.apply hnext

/-- What holds of the list after any requests, and of the next ones on it. -/
theorem reaction_groups (requests : List ReactionRequest) :
    ReactionsKept (reactionsAfter requests) ∧
    (∀ actor emoji next, toggleReactions (reactionsAfter requests) actor emoji = .ok next →
      ∀ person other, hasReaction next person other =
        (hasReaction (reactionsAfter requests) person other ^^
          decide (person = actor ∧ other = emoji))) ∧
    (∀ actor emoji present next,
      setReaction (reactionsAfter requests) actor emoji present = .ok next →
      setReaction next actor emoji present = .ok next) ∧
    ∀ r₁ r₂ : ReactionRequest, r₁.reactor ≠ r₂.reactor → ∀ a ab b ba,
      r₁.apply (reactionsAfter requests) = .ok a → r₂.apply a = .ok ab →
      r₂.apply (reactionsAfter requests) = .ok b → r₁.apply b = .ok ba →
      ∀ person emoji, hasReaction ab person emoji = hasReaction ba person emoji := by
  have hkept := reactionsKept_after requests
  refine ⟨hkept, ?_, ?_, ?_⟩
  · intro actor emoji next hnext person other
    by_cases hperson : person = actor
    · rw [hperson, hkept.hasReaction_toggle_own hnext]
      simp
    · rw [hasReaction_toggle hnext hperson]
      simp [hperson]
  · intro actor emoji present next hnext
    have hshown := hkept.hasReaction_own (.set actor emoji present) hnext emoji
    simp only [reactor, shows, if_true] at hshown
    unfold setReaction at hnext ⊢
    split_ifs at hnext ⊢
    all_goals rfl
  · intro r₁ r₂ hne a ab b ba ha hab hb hba person emoji
    by_cases h₁ : r₁.reactor = person
    · subst h₁
      rw [hasReaction_apply hab hne.symm, hkept.hasReaction_own r₁ ha,
        (hkept.apply hb).hasReaction_own r₁ hba, hasReaction_apply hb hne.symm]
    by_cases h₂ : r₂.reactor = person
    · subst h₂
      rw [hasReaction_apply hba hne, hkept.hasReaction_own r₂ hb,
        (hkept.apply ha).hasReaction_own r₂ hab, hasReaction_apply ha hne]
    rw [hasReaction_apply hab h₂, hasReaction_apply ha h₁, hasReaction_apply hba h₁,
      hasReaction_apply hb h₂]

end SimplestChat
