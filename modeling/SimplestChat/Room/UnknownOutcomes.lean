import SimplestChat.Room.Incarnations

/-!
# Reservations that record an unknown outcome

When the outcome of a durable write cannot be known, the source reserves the
room ID until the process restarts. Three steps record such an outcome: the
quarantine of a live room, a delete whose statement was cut off, and an
administrative write that has no runtime room. Under the conditions of
`CleanRecording` each of them leaves the ID sealed, and a sealed ID is never
released and never gets a new runtime room.
-/

namespace SimplestChat

open Interleaving Transition

/-! ## The recording steps -/

/-- The task has a durable write in flight whose unknown outcome is recorded
in the reservation map. -/
def Task.recordsUnknown (s : Slot) : Task → Bool
  | control (.work i) | admin (.work (some i)) => s.Live i
  | admin (.work none) | delete (.sql _ _) => true
  | _ => false

def recordsUnknown (c : Config Slot Task Lock) : Action Task Choice → Bool
  | .advance t .unknown => (c.task t).any fun k => k.recordsUnknown c.shared
  | _ => false

/-- An outcome without a runtime room is recorded while the ID is unreserved,
no recovery is about to reserve it and no creator is past its check of the
reservation. -/
def recordsAlone (c : Config Slot Task Lock) : Action Task Choice → Bool
  | .advance t .unknown =>
    match c.task t with
    | some (.admin (.work none)) =>
      c.shared.reservation.isNone && (List.range c.next).all fun u =>
        (c.task u).all fun k => !k.admitted && !k.recovering
    | _ => true
  | _ => true

def CleanRecording (c : Config Slot Task Lock) (a : Action Task Choice) : Prop :=
  CleanTeardown c a ∧ recordsAlone c a

instance (c : Config Slot Task Lock) (a : Action Task Choice) : Decidable (CleanRecording c a) :=
  inferInstanceAs (Decidable (_ ∧ _))

/-- The reservation made in `d` still stands in `e`, and no runtime room was
created in between. -/
structure Retained (d e : Config Slot Task Lock) : Prop where
  reserved : ∃ token, d.shared.reservation = some token ∧ e.shared.reservation = some token
  created : e.shared.nextIncarnation = d.shared.nextIncarnation

/-! ## Recording seals the ID -/

namespace Settled

variable {c : Config Slot Task Lock} {t : ℕ} {o : Outcome Slot Task}

theorem sealed_of_delete (h : Settled c) {runtime : Option Incarnation} {token : Token}
    (ha : lifecycle.Acts c t (.delete (.sql runtime token)) .unknown o) :
    Sealed (lifecycle.apply c t (.delete (.sql runtime token)) o) token := by
  have hguard : Lock.creation ∈ (Task.delete (.sql runtime token)).guards := by
    cases runtime <;> simp [Task.guards]
  have hreserved : c.shared.reservation = some token :=
    (h.orderly.meets ha.running).secured hguard token rfl
  obtain rfl : o = ⟨c.shared, none, none⟩ := by
    have hacted : finish c.shared = some o := by
      have := ha.acted
      cases runtime <;> exact this
    cases hacted
    rfl
  have hothers {u : ℕ} {k : Task} (hu : (lifecycle.apply c t (.delete (.sql runtime token))
        ⟨c.shared, none, none⟩).task u = some k) :
      u ≠ t ∧ c.task u = some k := by
    rcases h.orderly.task_cases ha hu with ⟨-, horigin⟩ | hold
    · simp at horigin
    · exact hold
  have hcreation {u : ℕ} {k : Task} (hne : u ≠ t)
      (hu : c.task u = some k) : Lock.creation ∉ k.guards := by
    intro hk
    exact h.orderly.creation_of_other ha hne hu hk (.inl hguard)
  refine ⟨hreserved, ?_, ?_, ?_, ?_⟩
  · intro u k hu htoken
    obtain ⟨hne, hu⟩ := hothers hu
    exact hne (h.orderly.token_unique hu ha.running htoken rfl)
  · intro i hi
    change c.shared.mapped = some i at hi
    have hscope := (h.orderly.meets ha.running).scope
      (fun other hother => by cases hother; exact hreserved)
    rw [hi] at hscope
    cases runtime with
    | none => cases hscope
    | some =>
      rcases hscope with hnone | hsome
      · cases hnone
      · cases hsome
        exact h.revivable ha.running rfl
  · intro u k hu
    obtain ⟨hne, hu⟩ := hothers hu
    by_contra hk
    rw [Bool.not_eq_false] at hk
    exact hcreation hne hu (Task.guards_of_recovering hk)
  · intro u k hu _
    obtain ⟨hne, hu⟩ := hothers hu
    by_contra hk
    rw [Bool.not_eq_false] at hk
    exact hcreation hne hu (Task.guards_of_admitted hk)

/-- An administrative write without a runtime room reserves the ID for good
when nobody else is busy with it. -/
theorem sealed_of_admin (h : Settled c) (ha : lifecycle.Acts c t (.admin (.work none)) .unknown o)
    (hunreserved : c.shared.reservation = none)
    (halone : ∀ {u k}, c.task u = some k → k.admitted = false ∧ k.recovering = false) :
    Sealed (lifecycle.apply c t (.admin (.work none)) o)
      c.shared.nextToken := by
  have hmapped : c.shared.mapped = none := (h.orderly.meets ha.running).scope (.of_token_none rfl)
  obtain rfl : o = ⟨c.shared.insertReservation, some (.admin .finish), none⟩ := by
    have hacted : goTo c.shared.orInsertReservation (.admin .finish) = some o := ha.acted
    rw [Slot.orInsertReservation_of_none hunreserved] at hacted
    cases hacted
    rfl
  have hafter {u : ℕ} {k : Task} (hu : (lifecycle.apply c t (.admin (.work none))
        ⟨c.shared.insertReservation, some (.admin .finish), none⟩).task u = some k) :
      k = .admin .finish ∨ c.task u = some k := by
    rcases h.orderly.task_cases ha hu with ⟨-, horigin⟩ | ⟨-, hold⟩
    · simp at horigin
      exact .inl horigin.1.symm
    · exact .inr hold
  refine ⟨rfl, ?_, ?_, ?_, ?_⟩
  · intro u k hu htoken
    rcases hafter hu with rfl | hu
    · cases htoken
    · exact absurd (h.orderly.token_lt hu htoken) (Nat.lt_irrefl _)
  · intro i hi
    change c.shared.mapped = some i at hi
    rw [hmapped] at hi
    cases hi
  · intro u k hu
    rcases hafter hu with rfl | hu
    · rfl
    · exact (halone hu).2
  · intro u k hu _
    rcases hafter hu with rfl | hu
    · rfl
    · exact (halone hu).1

theorem shared_of_quarantine {k : Task} {i : Incarnation} (ha : lifecycle.Acts c t k .unknown o)
    (htask : k = .control (.work i) ∨ k = .admin (.work (some i)))
    (hlive : c.shared.Live i) :
    o.shared = c.shared.quarantineRoom i := by
  have hacted : act c.shared c.free k .unknown = some o := ha.acted
  rcases htask with rfl | rfl
  · simp only [act, controlAct, quarantineSection, if_pos hlive] at hacted
    split at hacted <;> cases hacted
    rfl
  · simp only [act, adminAct, quarantineSection, if_pos hlive] at hacted
    cases hacted
    rfl

theorem sealed_of_recordsUnknown (h : Settled c) {d : Config Slot Task Lock}
    {a : Action Task Choice} (hunknown : recordsUnknown c a)
    (hclean : CleanRecording c a) (hstep : lifecycle.step c a = some d) :
    ∃ token, Sealed d token := by
  cases a with
  | start => cases hunknown
  | advance t choice =>
    obtain ⟨k, o, ha, rfl⟩ := lifecycle.step_advance_eq_some.mp hstep
    obtain rfl : choice = .unknown := by cases choice <;> first | rfl | cases hunknown
    have hk : k.recordsUnknown c.shared := by simpa [recordsUnknown, ha.running] using hunknown
    have hquarantine {i : Incarnation}
        (htask : k = .control (.work i) ∨ k = .admin (.work (some i)))
        (hlive : c.shared.Live i) :
        ∃ token, Sealed (lifecycle.apply c t k o) token := by
      have hunreserved := unreserved_of_quarantinesUnreserved hclean.1.2 ha.running htask
      exact ⟨_, h.sealed_of_quarantine ha htask hlive
        (shared_of_quarantine ha htask hlive) hunreserved⟩
    revert hk
    fun_cases Task.recordsUnknown c.shared k <;> intro hk
    · exact hquarantine (.inl rfl) (by simpa using hk)
    · exact hquarantine (.inr rfl) (by simpa using hk)
    · have halone : c.shared.reservation = none ∧ ∀ u < c.next,
          (c.task u).all (fun k => !k.admitted && !k.recovering) := by
        simpa [recordsAlone, ha.running] using hclean.2
      refine ⟨_, h.sealed_of_admin ha halone.1 fun hu => ?_⟩
      have := halone.2 _ (h.orderly.coherent.lt_next hu)
      rw [hu] at this
      simpa using this
    · exact ⟨_, h.sealed_of_delete ha⟩
    · cases hk

end Settled

/-! ## Retention along runs -/

/-- In every run of clean steps, a reservation that records an unknown outcome
stands for the rest of the run and its ID gets no new runtime room. -/
theorem unknown_outcome_retained {before after : List (Action Task Choice)}
    {a : Action Task Choice} {c d e : Config Slot Task Lock}
    (hclean : RunMeets lifecycle.step CleanRecording lifecycleStart
      (before ++ a :: after))
    (hbefore : run lifecycle.step lifecycleStart before = some c)
    (hunknown : recordsUnknown c a) (hstep : lifecycle.step c a = some d)
    (hafter : run lifecycle.step d after = some e) :
    Retained d e := by
  obtain ⟨hmeets, hrest⟩ := runMeets_append hclean hbefore
  have hc : Settled c :=
    run_invariant
      (fun _ _ _ hs hallowed hstep => hs.step hallowed.1 hstep)
      lifecycleStart_settled hmeets hbefore
  obtain ⟨token, hd⟩ := hc.sealed_of_recordsUnknown hunknown hrest.1 hstep
  have hkeeps : ∀ x b y, (Settled x ∧ Sealed x token ∧
      x.shared.nextIncarnation = d.shared.nextIncarnation) →
      CleanRecording x b → lifecycle.step x b = some y →
      Settled y ∧ Sealed y token ∧ y.shared.nextIncarnation = d.shared.nextIncarnation := by
    rintro x b y ⟨hx, hsealed, hcreated⟩ hallowed hxy
    refine ⟨hx.step hallowed.1 hxy, ?_⟩
    cases b with
    | start =>
      obtain ⟨hk, rfl⟩ := lifecycle.step_start_eq_some.mp hxy
      exact ⟨hsealed.launch hx.orderly hk, hcreated⟩
    | advance =>
      obtain ⟨k, o, ha, rfl⟩ := lifecycle.step_advance_eq_some.mp hxy
      exact ⟨hsealed.apply hx ha hallowed.1.1, (hsealed.slot hx ha).2.2.trans hcreated⟩
  have hend := run_invariant hkeeps ⟨hc.step hrest.1.1 hstep, hd, rfl⟩ (hrest.2 d hstep) hafter
  exact ⟨⟨token, hd.reserved, hend.2.1.reserved⟩, hend.2.2⟩

/-! ## Two deletes with an unknown outcome -/

def deleteInFlight : List (Action Task Choice) :=
  ownerJoins ++ .start (.delete .start) :: advances 1 3

def ownerReturnsToReserved : List (Action Task Choice) :=
  .start (.leave (.start 10 1)) :: advances 2 3 ++ .start (.join .start) :: advances 3 1

theorem deleteInFlight_retained : RunMeets lifecycle.step CleanRecording lifecycleStart
        (deleteInFlight ++ .advance 1 .unknown :: ownerReturnsToReserved) ∧
      ∃ c d e, run lifecycle.step lifecycleStart deleteInFlight =
          some c ∧ recordsUnknown c (.advance 1 .unknown) ∧
        lifecycle.step c (.advance 1 .unknown) = some d ∧
        run lifecycle.step d ownerReturnsToReserved = some e ∧
        Retained d e := by
  have hclean : RunMeets lifecycle.step CleanRecording lifecycleStart
      (deleteInFlight ++ .advance 1 .unknown :: ownerReturnsToReserved) := by
    decide
  have hrun : (run lifecycle.step lifecycleStart
      deleteInFlight).any (fun c => recordsUnknown c (.advance 1 .unknown) &&
        (lifecycle.step c (.advance 1 .unknown)).any fun d =>
          (run lifecycle.step d ownerReturnsToReserved).isSome) =
      true := by decide
  simp only [Option.any_eq_true, Bool.and_eq_true, Option.isSome_iff_exists] at hrun
  obtain ⟨c, hc, hunknown, d, hd, e, he⟩ := hrun
  exact ⟨hclean, c, d, e, hc, hunknown, hd, he, unknown_outcome_retained hclean hc hunknown hd he⟩

def workerDeathThenJoin : List (Action Task Choice) :=
  .start (.recover (.start 7)) :: advances 2 9 ++ createsRoom 3 8

theorem unknown_delete_recreated : ¬ ∀ before a after c d e,
      run lifecycle.step lifecycleStart before = some c →
      recordsUnknown c a → lifecycle.step c a = some d →
      run lifecycle.step d after = some e → Retained d e := by
  intro hretained
  have hrun : (run lifecycle.step lifecycleStart
      deleteInFlight).any (fun c => recordsUnknown c (.advance 1 .unknown) &&
        (lifecycle.step c (.advance 1 .unknown)).any fun d =>
          (run lifecycle.step d workerDeathThenJoin).any fun e =>
            e.shared.reservation = none) = true := by decide
  simp only [Option.any_eq_true, Bool.and_eq_true, decide_eq_true_eq] at hrun
  obtain ⟨c, hc, hunknown, d, hd, e, he, hreleased⟩ := hrun
  obtain ⟨token, -, hreserved⟩ := (hretained _ _ _ c d e hc hunknown hd he).reserved
  rw [hreleased] at hreserved
  cases hreserved

end SimplestChat
