import SimplestChat.Policy.People

/-!
# Streams and their owners

The room keeps every stream twice: in its owner's record, and in an index from
streams to owners. The index is the inverse of the records in every state.

Most turns only take streams away, from both sides at once. A stream is added by
the last turn of `create_producer`, and a closing takes away streams that it
collected in an earlier turn. Both rely on what a stream's ID can still mean by
then: a new one has never been recorded, and a collected one was recorded for the
same participant or for nobody.
-/

namespace SimplestChat.Policy

open List Option Policy.Room Roster

namespace Room

def Recorded (room : Room) (id : ParticipantId) (producer : ProducerId) : Prop :=
  ∃ p ∈ room.participants, p.id = id ∧ ∃ record ∈ p.producers, record.id = producer

/-- The index is the inverse of the records. -/
def Indexed (room : Room) : Prop :=
  ∀ id producer, room.producerToParticipant producer = some id ↔ room.Recorded id producer

variable {room : Room} {producer : ProducerId}

theorem Indexed.owner_unique (h : room.Indexed) {a b : ParticipantId}
    (ha : room.Recorded a producer) (hb : room.Recorded b producer) : a = b := by
  have hsome := ((h a producer).mpr ha).symm.trans ((h b producer).mpr hb)
  exact some.inj hsome

/-! ## Turns that only take streams away -/

structure Narrows (before after : Room) : Prop where
  indexed : before.Indexed → after.Indexed
  recorded : ∀ id producer, after.Recorded id producer → before.Recorded id producer

namespace Narrows

variable {before middle after : Room}

theorem trans (hfirst : Narrows before middle) (hsecond : Narrows middle after) :
    Narrows before after where
  indexed h := hsecond.indexed (hfirst.indexed h)
  recorded id producer h := hfirst.recorded id producer (hsecond.recorded id producer h)

theorem of_same
    (hrecorded : ∀ id producer, after.Recorded id producer ↔ before.Recorded id producer)
    (hindex : after.producerToParticipant = before.producerToParticipant) :
    Narrows before after where
  indexed h := by
    intro id producer
    rw [hindex, hrecorded]
    exact h id producer
  recorded id producer := (hrecorded id producer).mp

theorem of_participants (hparticipants : after.participants = before.participants)
    (hindex : after.producerToParticipant = before.producerToParticipant) :
    Narrows before after :=
  of_same (by simp [Recorded, hparticipants]) hindex

theorem refl (room : Room) : Narrows room room := of_participants rfl rfl

theorem bump (h : Narrows before after) : Narrows before after.bumpPolicy :=
  h.trans (of_participants rfl rfl)

theorem of_map {f : Participant → Participant} (hid : ∀ p, (f p).id = p.id)
    (hproducers : ∀ p, (f p).producers = p.producers)
    (hentries : after.participants.entries = before.participants.entries.map f)
    (hindex : after.producerToParticipant = before.producerToParticipant) :
    Narrows before after := by
  refine of_same (fun id producer => ?_) hindex
  constructor
  · rintro ⟨p, hp, hpid, hrecord⟩
    rw [Roster.mem_def, hentries] at hp
    obtain ⟨q, hq, rfl⟩ := List.mem_map.mp hp
    exact ⟨q, hq, (hid q).symm.trans hpid, hproducers q ▸ hrecord⟩
  · rintro ⟨p, hp, hpid, hrecord⟩
    refine ⟨f p, ?_, (hid p).trans hpid, (hproducers p).symm ▸ hrecord⟩
    rw [Roster.mem_def, hentries]
    exact List.mem_map_of_mem hp

theorem of_insert {p : Participant} (hproducers : p.producers = [])
    (habsent : before.participants.contains p.id = false)
    (hparticipants : after.participants = before.participants.insert p)
    (hindex : after.producerToParticipant = before.producerToParticipant) :
    Narrows before after := by
  refine of_same (fun id producer => ?_) hindex
  unfold Recorded
  rw [hparticipants]
  constructor
  · rintro ⟨q, hq, hid, record, hrecord, hproducer⟩
    obtain ⟨hq', -⟩ | rfl := mem_insert.mp hq
    · exact ⟨q, hq', hid, record, hrecord, hproducer⟩
    · rw [hproducers] at hrecord
      cases hrecord
  · rintro ⟨q, hq, hid, hrecord⟩
    have hne := contains_eq_false.mp habsent q hq
    exact ⟨q, mem_insert.mpr (.inl ⟨hq, hne⟩), hid, hrecord⟩

theorem of_empty (hparticipants : after.participants = .empty)
    (hindex : after.producerToParticipant = fun _ => none) : Narrows before after := by
  have hnone : ∀ id producer, ¬after.Recorded id producer := by
    rintro id producer ⟨p, hp, -⟩
    rw [hparticipants] at hp
    exact mem_empty hp
  constructor
  · intro _ id producer
    rw [hindex]
    exact iff_of_false (by simp) (hnone id producer)
  · intro id producer h
    exact absurd h (hnone id producer)

end Narrows

variable {id : ParticipantId}

theorem recorded_dropProducers {dropped : List (ParticipantId × ProducerId)} :
    (room.dropProducers dropped).Recorded id producer ↔
      room.Recorded id producer ∧ (id, producer) ∉ dropped := by
  constructor
  · rintro ⟨p, hp, hid, record, hrecord, hproducer⟩
    obtain ⟨q, hq, rfl⟩ := List.mem_map.mp hp
    obtain ⟨hrecord', hkept⟩ := List.mem_filter.mp hrecord
    refine ⟨⟨q, hq, hid, record, hrecord', hproducer⟩, ?_⟩
    rw [← hid, ← hproducer]
    simpa using hkept
  · rintro ⟨⟨p, hp, rfl, record, hrecord, rfl⟩, hkept⟩
    refine ⟨_, List.mem_map_of_mem hp, rfl, record, ?_, rfl⟩
    exact List.mem_filter.mpr ⟨hrecord, by simpa using hkept⟩

theorem dropProducers_narrows {dropped : List (ParticipantId × ProducerId)}
    (howner : ∀ owner producer, (owner, producer) ∈ dropped →
      ∀ id, room.Recorded id producer → id = owner) :
    Narrows room (room.dropProducers dropped) where
  indexed h := by
    intro id producer
    rw [recorded_dropProducers, ← h id producer]
    change (if producer ∈ dropped.map Prod.snd then none
      else room.producerToParticipant producer) = some id ↔ _
    by_cases hdropped : producer ∈ dropped.map Prod.snd
    · rw [if_pos hdropped]
      refine iff_of_false (by simp) ?_
      rintro ⟨hindex, hkept⟩
      obtain ⟨⟨owner, _⟩, hmem, rfl⟩ := mem_map.mp hdropped
      exact hkept (howner owner _ hmem id ((h id _).mp hindex) ▸ hmem)
    · rw [if_neg hdropped]
      refine (and_iff_left ?_).symm
      exact fun hmem => hdropped (mem_map_of_mem (f := Prod.snd) hmem)
  recorded id producer hafter := (recorded_dropProducers.mp hafter).1

theorem recorded_of_mem_unauthorizedProducers {only : Option ParticipantId}
    (h : (id, producer) ∈ room.unauthorizedProducers only) :
    room.Recorded id producer := by
  unfold unauthorizedProducers at h
  obtain ⟨p, hp, hpair⟩ := mem_flatMap.mp h
  obtain ⟨record, hrecord, heq⟩ := List.mem_map.mp hpair
  obtain ⟨rfl, rfl⟩ := Prod.mk.inj heq
  exact ⟨p, (List.mem_filter.mp hp).1, rfl, record, (List.mem_filter.mp hrecord).1, rfl⟩

theorem revokeUnauthorizedProducers_narrows (room : Room) (only : Option ParticipantId) :
    Narrows room (room.revokeUnauthorizedProducers only) where
  indexed h := by
    refine (dropProducers_narrows fun owner producer hmem id hid => ?_).indexed h
    exact h.owner_unique hid (recorded_of_mem_unauthorizedProducers hmem)
  recorded id producer hafter := (recorded_dropProducers.mp hafter).1

theorem revokeEach_narrows (room : Room) (ids : List ParticipantId) : Narrows room
      (ids.foldl (fun room id => room.revokeUnauthorizedProducers (some id)) room) := by
  induction ids generalizing room with
  | nil => exact .refl room
  | cons id rest ih => exact (room.revokeUnauthorizedProducers_narrows (some id)).trans (ih _)

theorem recorded_removeParticipants {ids : List ParticipantId} :
    (room.removeParticipants ids).Recorded id producer ↔ room.Recorded id producer ∧ id ∉ ids := by
  constructor
  · rintro ⟨p, hp, rfl, hrecord⟩
    obtain ⟨hp', hkept⟩ := Roster.mem_filter.mp hp
    exact ⟨⟨p, hp', rfl, hrecord⟩, by simpa using hkept⟩
  · rintro ⟨⟨p, hp, rfl, hrecord⟩, hkept⟩
    exact ⟨p, Roster.mem_filter.mpr ⟨hp, by simpa using hkept⟩, rfl, hrecord⟩

theorem removeParticipants_narrows (room : Room) (ids : List ParticipantId) :
    Narrows room (room.removeParticipants ids) where
  indexed h := by
    intro id producer
    rw [recorded_removeParticipants, ← h id producer]
    have hgone : (room.participants.entries.any fun p =>
        p.id ∈ ids && p.producers.any fun record => record.id = producer) = true ↔
          ∃ owner ∈ ids, room.Recorded owner producer := by
      simp only [List.any_eq_true, Bool.and_eq_true, decide_eq_true_eq]
      constructor
      · rintro ⟨p, hp, hid, hrecord⟩
        exact ⟨p.id, hid, p, hp, rfl, hrecord⟩
      · rintro ⟨owner, howner, p, hp, rfl, hrecord⟩
        exact ⟨p, hp, howner, hrecord⟩
    change (if _ then none else room.producerToParticipant producer) = some id ↔ _
    by_cases hany : (room.participants.entries.any fun p =>
        p.id ∈ ids && p.producers.any fun record => record.id = producer) = true
    · rw [if_pos hany]
      refine iff_of_false (by simp) ?_
      rintro ⟨hindex, hkept⟩
      obtain ⟨owner, howner, hrecorded⟩ := hgone.mp hany
      exact hkept (h.owner_unique ((h id producer).mp hindex) hrecorded ▸ howner)
    · rw [if_neg hany]
      refine ⟨fun hindex => ⟨hindex, fun hid => ?_⟩, fun hboth => hboth.1⟩
      exact hany (hgone.mpr ⟨id, hid, (h id producer).mp hindex⟩)
  recorded id producer hafter := (recorded_removeParticipants.mp hafter).1

theorem applyPunitiveToCohort_narrows (room : Room)
    (participants lobby : List ParticipantId) (key : SanctionKey)
    (kind : PunitiveKind) (enabled : Bool) :
    Narrows room (room.applyPunitiveToCohort participants lobby key kind enabled) :=
  .of_map
    (f := fun p =>
      if p.id ∈ participants then
        { p with punitive := (room.cohortPunitive participants lobby key).set kind enabled }
      else p)
    (fun p => by split <;> rfl) (fun p => by split <;> rfl)
    rfl rfl

theorem admitEntry_narrows (hapart : room.Apart) {entry : LobbyEntry}
    (hentry : entry ∈ room.lobby) : Narrows room (room.admitEntry entry) := by
  have habsent : room.participants.contains entry.id = false :=
    contains_eq_false.mpr fun p hp =>
      hapart entry hentry p.toLobbyEntry (mem_members.mpr ⟨p, hp, rfl⟩)
  exact .of_insert (p :=
      { entry with
        punitive := entry.punitive.merge (room.sanctions entry.key)
        producers := [] })
    rfl habsent rfl rfl

theorem place_narrows (room : Room) {request : JoinRequest} {session : MediaSession}
    {placement : Placement} (habsent : room.participants.contains request.id = false) :
    Narrows room (room.place request session placement) := by
  by_cases hlobbied : placement.lobbied = true
  · rw [room.place_lobbied hlobbied]
    exact .of_participants rfl rfl
  rw [room.place_inside hlobbied]
  exact .of_insert (p := { newcomer request session placement with producers := [] })
    rfl habsent rfl rfl

theorem publishSanction_narrows (room : Room) (publication : SanctionPublication) :
    Narrows room (room.publishSanction publication) := by
  have happlied := room.applyPunitiveToCohort_narrows publication.participants
    publication.lobby publication.key publication.kind publication.enabled
  unfold publishSanction
  refine Narrows.bump ?_
  split
  · exact happlied.trans (revokeEach_narrows _ _)
  · exact happlied

theorem turnLaw_narrows : TurnLaw Narrows where
  trans := .trans
  same hparticipants _ _ hindex := .of_participants hparticipants hindex
  revoke := revokeUnauthorizedProducers_narrows
  removeParticipants := removeParticipants_narrows
  removeFromLobby _ _ := .of_participants rfl rfl
  setSender room id sender :=
    .of_map (f := fun p => if p.id = id then { p with sender } else p)
      (fun p => by split <;> rfl) (fun p => by split <;> rfl) rfl rfl
  withRole room target role :=
    .of_map (f := fun p => if p.id = target then { p with role } else p)
      (fun p => by split <;> rfl) (fun p => by split <;> rfl) rfl rfl

end Room

theorem Change.publish_narrows (room : Room) (answer : Answer)
    (now listedAt : Instant) (change : Change) :
    Room.Narrows room (change.publish room answer now listedAt) :=
  turnLaw_narrows.publish room answer now listedAt
    fun publication _ => room.publishSanction_narrows publication

/-! ## Streams in progress -/

def Production.producer : Production → Option ProducerId
  | .checked _ _ _ _ => none
  | .created _ _ _ producer _ _ => some producer

def System.unrecorded (c : System) : List ProducerId :=
  c.productions.filterMap Production.producer

structure System.Streams (c : System) : Prop where
  apart : c.room.Apart
  indexed : c.room.Indexed
  known : ∀ id producer, c.room.Recorded id producer → producer < c.nextProducer
  /-- a closing's streams are its participant's, or nobody's any more -/
  closings : ∀ closing ∈ c.closings, ∀ producer ∈ closing.producers, producer < c.nextProducer ∧
      ∀ id, c.room.Recorded id producer → id = closing.participant
  distinct : c.unrecorded.Nodup
  fresh : ∀ producer ∈ c.unrecorded, producer < c.nextProducer ∧
    (∀ id, ¬c.room.Recorded id producer) ∧ ∀ closing ∈ c.closings, producer ∉ closing.producers

namespace System

variable {c d : System}

theorem Streams.narrow (h : c.Streams) (hapart : d.room.Apart)
    (hroom : Room.Narrows c.room d.room) (hproductions : d.productions = c.productions)
    (hclosings : d.closings = c.closings) (hnext : d.nextProducer = c.nextProducer) :
    d.Streams where
  apart := hapart
  indexed := hroom.indexed h.indexed
  known id producer hrecorded := by
    rw [hnext]
    exact h.known id producer (hroom.recorded id producer hrecorded)
  closings closing hclosing producer hproducer := by
    rw [hclosings] at hclosing
    obtain ⟨hknown, howner⟩ := h.closings closing hclosing producer hproducer
    rw [hnext]
    exact ⟨hknown, fun id hid => howner id (hroom.recorded id producer hid)⟩
  distinct := by
    unfold unrecorded
    rw [hproductions]
    exact h.distinct
  fresh producer hproducer := by
    unfold unrecorded at hproducer
    rw [hproductions] at hproducer
    obtain ⟨hknown, hnobody, hclosing⟩ := h.fresh producer hproducer
    rw [hnext, hclosings]
    exact ⟨hknown, fun id hid => hnobody id (hroom.recorded id producer hid), hclosing⟩

theorem unrecorded_erase_subset (productions : List Production) (production : Production) :
    ((productions.erase production).filterMap Production.producer).Sublist
      (productions.filterMap Production.producer) :=
  (erase_sublist (a := production)).filterMap Production.producer

theorem Streams.check (h : c.Streams) (id : ParticipantId) (sender : SenderId)
    (kind : MediaKind) (source : MediaSource) :
    ({ c with productions := .checked id sender kind source :: c.productions } : System).Streams :=
  ⟨h.apart, h.indexed, h.known, h.closings, h.distinct, h.fresh⟩

theorem Streams.create (h : c.Streams) (id : ParticipantId) (sender : SenderId)
    (session : MediaSession) (kind : MediaKind) (source : MediaSource)
    (production : Production) :
    ({ c with
      productions := .created id sender session c.nextProducer kind source ::
        c.productions.erase production
      nextProducer := c.nextProducer + 1 } : System).Streams := by
  have hsub := unrecorded_erase_subset c.productions production
  refine ⟨h.apart, h.indexed, ?_, ?_, ?_, ?_⟩
  · intro owner producer hrecorded
    exact Nat.lt_succ_of_lt (h.known owner producer hrecorded)
  · intro closing hclosing producer hproducer
    obtain ⟨hknown, howner⟩ := h.closings closing hclosing producer hproducer
    exact ⟨Nat.lt_succ_of_lt hknown, howner⟩
  · refine nodup_cons.mpr ⟨fun hmem => ?_, h.distinct.sublist hsub⟩
    exact (h.fresh c.nextProducer (hsub.subset hmem)).1.ne rfl
  · intro producer hproducer
    obtain rfl | hold := mem_cons.mp hproducer
    · refine ⟨Nat.lt_succ_self _, fun owner hrecorded => ?_, fun closing hclosing hmem => ?_⟩
      · exact (h.known owner _ hrecorded).ne rfl
      · exact (h.closings closing hclosing _ hmem).1.ne rfl
    · obtain ⟨hknown, hnobody, hclosing⟩ := h.fresh producer (hsub.subset hold)
      exact ⟨Nat.lt_succ_of_lt hknown, hnobody, hclosing⟩

theorem Streams.drop (h : c.Streams) (production : Production) :
    ({ c with productions := c.productions.erase production } : System).Streams := by
  have hsub := unrecorded_erase_subset c.productions production
  exact ⟨h.apart, h.indexed, h.known, h.closings, h.distinct.sublist hsub,
    fun producer hproducer => h.fresh producer (hsub.subset hproducer)⟩

end System

theorem Room.recorded_recordProducer {room : Room} {id : ParticipantId}
    {record : Producer} {p : Participant} (hp : p ∈ room.participants) (hid : p.id = id)
    (hfresh : ∀ owner, ¬room.Recorded owner record.id) {owner : ParticipantId}
    {producer : ProducerId} :
    (room.recordProducer id record).Recorded owner producer ↔
      room.Recorded owner producer ∨ (owner = id ∧ producer = record.id) := by
  have hkept : ∀ q ∈ room.participants, ∀ r ∈ q.producers, r.id ≠ record.id := by
    intro q hq r hr heq
    exact hfresh q.id ⟨q, hq, rfl, r, hr, heq⟩
  constructor
  · rintro ⟨q, hq, rfl, r, hr, rfl⟩
    obtain ⟨q', hq', rfl⟩ := List.mem_map.mp hq
    dsimp only at hr ⊢
    split at hr
    · rename_i htarget
      rw [if_pos htarget]
      obtain hold | hnew := mem_append.mp hr
      · exact .inl ⟨q', hq', rfl, r, (List.mem_filter.mp hold).1, rfl⟩
      · rw [mem_singleton] at hnew
        exact .inr ⟨htarget, congrArg Producer.id hnew⟩
    · rename_i hother
      rw [if_neg hother]
      exact .inl ⟨q', hq', rfl, r, hr, rfl⟩
  · rintro (⟨q, hq, rfl, r, hr, rfl⟩ | ⟨rfl, rfl⟩)
    · refine ⟨_, List.mem_map_of_mem hq, ?_⟩
      dsimp only
      split
      · refine ⟨rfl, r, mem_append_left _ (List.mem_filter.mpr ⟨hr, ?_⟩), rfl⟩
        simpa using hkept q hq r hr
      · exact ⟨rfl, r, hr, rfl⟩
    · refine ⟨_, List.mem_map_of_mem hp, ?_⟩
      dsimp only
      rw [if_pos hid]
      exact ⟨hid, record, mem_append_right _ (mem_singleton.mpr rfl), rfl⟩

namespace System

variable {c d : System}

theorem Streams.record (h : c.Streams) {id : ParticipantId} {sender : SenderId}
    {session : MediaSession} {producer : ProducerId} {kind : MediaKind}
    {source : MediaSource}
    (hproduction : .created id sender session producer kind source ∈ c.productions)
    {p : Participant} (hp : p ∈ c.room.participants) (hid : p.id = id) :
    ({ c with
      productions := c.productions.erase (.created id sender session producer kind source)
      room := c.room.recordProducer id ⟨producer, kind, some source⟩ } :
      System).Streams := by
  have hunrecorded : producer ∈ c.unrecorded := mem_filterMap.mpr ⟨_, hproduction, rfl⟩
  obtain ⟨hknown, hnobody, hclosings⟩ := h.fresh producer hunrecorded
  have hrecorded : ∀ {owner other},
      (c.room.recordProducer id ⟨producer, kind, some source⟩).Recorded owner other ↔
        c.room.Recorded owner other ∨ (owner = id ∧ other = producer) :=
    recorded_recordProducer hp hid hnobody
  have hsub := unrecorded_erase_subset c.productions
    (.created id sender session producer kind source)
  -- The recorded stream is no longer among the unrecorded ones.
  have hgone : producer ∉ (c.productions.erase
      (.created id sender session producer kind source)).filterMap
        Production.producer := by
    have hperm := (perm_cons_erase hproduction).filterMap Production.producer
    exact (nodup_cons.mp (hperm.nodup_iff.mp h.distinct)).1
  refine ⟨?_, ?_, ?_, ?_, h.distinct.sublist hsub, ?_⟩
  · exact h.apart.noNewcomers (.of_idle (c.room.recordProducer_idle _ _))
  · intro owner other
    rw [hrecorded]
    change Function.update c.room.producerToParticipant producer (some id) other = some owner ↔ _
    by_cases hother : other = producer
    · subst hother
      rw [Function.update_self]
      constructor
      · intro hsome
        exact .inr ⟨(some.inj hsome).symm, rfl⟩
      rintro (hold | ⟨rfl, -⟩)
      · exact absurd hold (hnobody owner)
      · rfl
    · rw [Function.update_of_ne hother, h.indexed owner other]
      simp [hother]
  · intro owner other hafter
    obtain hold | ⟨-, rfl⟩ := hrecorded.mp hafter
    · exact h.known owner other hold
    · exact hknown
  · intro closing hclosing other hother
    obtain ⟨hlt, howner⟩ := h.closings closing hclosing other hother
    refine ⟨hlt, fun owner hafter => ?_⟩
    obtain hold | ⟨-, rfl⟩ := hrecorded.mp hafter
    · exact howner owner hold
    · exact absurd hother (hclosings closing hclosing)
  · intro other hother
    obtain ⟨hlt, hnone, hfree⟩ := h.fresh other (hsub.subset hother)
    refine ⟨hlt, fun owner hafter => ?_, hfree⟩
    obtain hold | ⟨-, rfl⟩ := hrecorded.mp hafter
    · exact hnone owner hold
    · exact hgone hother

variable {closing : Closing}

theorem Streams.startClosing (h : c.Streams) (howned : ∀ producer ∈ closing.producers,
      c.room.Recorded closing.participant producer) :
    ({ c with closings := closing :: c.closings } : System).Streams := by
  refine ⟨h.apart, h.indexed, h.known, ?_, h.distinct, ?_⟩
  · intro other hother producer hproducer
    obtain rfl | hold := mem_cons.mp hother
    · have hrecorded := howned producer hproducer
      exact ⟨h.known _ _ hrecorded, fun id hid => h.indexed.owner_unique hid hrecorded⟩
    · exact h.closings other hold producer hproducer
  · intro producer hproducer
    obtain ⟨hknown, hnobody, hclosings⟩ := h.fresh producer hproducer
    refine ⟨hknown, hnobody, fun other hother hmem => ?_⟩
    obtain rfl | hold := mem_cons.mp hother
    · exact hnobody _ (howned producer hmem)
    · exact hclosings other hold hmem

theorem finishClosing_narrows (h : c.Streams) (hclosing : closing ∈ c.closings) :
    Room.Narrows c.room (c.room.finishClosing closing) := by
  unfold finishClosing
  split
  · refine dropProducers_narrows fun owner producer hmem id hid => ?_
    obtain ⟨other, hother, heq⟩ := mem_map.mp hmem
    obtain ⟨rfl, rfl⟩ := Prod.mk.inj heq
    exact (h.closings closing hclosing other hother).2 id hid
  · exact .refl c.room

theorem Streams.finishClosing (h : c.Streams) (hclosing : closing ∈ c.closings) : ({ c with
      closings := c.closings.erase closing
      room := c.room.finishClosing closing } : System).Streams := by
  have hnarrow : ({ c with room := c.room.finishClosing closing } : System).Streams :=
    h.narrow (h.apart.noNewcomers (.of_idle (c.room.finishClosing_idle closing)))
      (finishClosing_narrows h hclosing) rfl rfl rfl
  have hsub := erase_subset (a := closing) (l := c.closings)
  exact ⟨hnarrow.apart, hnarrow.indexed, hnarrow.known,
    fun other hother => hnarrow.closings other (hsub hother), hnarrow.distinct,
    fun producer hproducer =>
      ⟨(hnarrow.fresh producer hproducer).1, (hnarrow.fresh producer hproducer).2.1,
        fun other hother => (hnarrow.fresh producer hproducer).2.2 other (hsub hother)⟩⟩

theorem participantForSender_mem {room : Room} {id : ParticipantId} {sender : SenderId}
    {p : Participant} (h : room.participantForSender id sender = some p) :
    p ∈ room.participants ∧ p.id = id ∧ p.sender = sender ∧ room.deleting = false := by
  unfold participantForSender at h
  split at h
  · cases h
  rename_i hdeleting
  obtain ⟨hget, hsender⟩ := filter_eq_some_iff.mp h
  obtain ⟨hp, hid⟩ := get_eq_some.mp hget
  exact ⟨hp, hid, by simpa using hsender, by simpa using hdeleting⟩

theorem Streams.streamStep (h : c.Streams) {action : StreamAction}
    (hstep : c.streamStep action = some d) : d.Streams := by
  cases action with
  | check id sender kind source =>
    obtain ⟨-, ⟨⟩⟩ := ite_none_right_eq_some.mp hstep
    exact h.check id sender kind source
  | create production =>
    change c.createProducer production = some d at hstep
    unfold createProducer at hstep
    split at hstep
    · split at hstep
      · obtain ⟨-, ⟨⟩⟩ := ite_none_right_eq_some.mp hstep
        exact h.create _ _ _ _ _ _
      · cases hstep
    · cases hstep
  | record production =>
    change c.recordProducer production = some d at hstep
    unfold recordProducer at hstep
    split at hstep
    · rename_i id sender session producer kind source
      obtain ⟨hproduction, hd⟩ := ite_none_right_eq_some.mp hstep
      have hd' := some.inj hd
      by_cases hmay : c.room.mayRecord id sender session kind source = true
      · rw [if_pos hmay] at hd'
        obtain ⟨p, hp, -⟩ := (any_eq_true _ _).mp hmay
        obtain ⟨hmem, hid, -⟩ := participantForSender_mem hp
        exact hd' ▸ h.record hproduction hmem hid
      · rw [if_neg hmay] at hd'
        exact hd' ▸ h.drop _
    · cases hstep
  | close id sender producer =>
    change c.closeProducer id sender producer = some d at hstep
    unfold closeProducer at hstep
    split at hstep
    · rename_i p hp
      obtain ⟨howned, hd⟩ := ite_none_right_eq_some.mp hstep
      obtain ⟨hmem, hid, -⟩ := participantForSender_mem hp
      refine some.inj hd ▸ h.startClosing fun other hother => ?_
      rw [mem_singleton] at hother
      obtain ⟨record, hrecord, heq⟩ := any_eq_true.mp howned
      exact ⟨p, hmem, hid, record, hrecord, by rw [hother]; simpa using heq⟩
    · cases hstep
  | closeCam id sender target =>
    change c.closeCam id sender target = some d at hstep
    unfold closeCam at hstep
    split at hstep
    · rename_i p hmoderator hp
      obtain ⟨-, hd⟩ := ite_none_right_eq_some.mp hstep
      obtain ⟨hmem, hid⟩ := get_eq_some.mp hp
      refine some.inj hd ▸ h.startClosing fun producer hproducer => ?_
      obtain ⟨record, hrecord, rfl⟩ := mem_map.mp hproducer
      exact ⟨p, hmem, hid, record, (mem_filter.mp hrecord).1, rfl⟩
    · cases hstep
  | finishClosing =>
    obtain ⟨hclosing, ⟨⟩⟩ := ite_none_right_eq_some.mp hstep
    exact h.finishClosing hclosing

theorem Streams.step (h : c.Streams) {action : Action} (hstep : c.step action = some d) :
    d.Streams := by
  have heffect := step_effect hstep
  have hapart := heffect.apart h.apart
  cases heffect with
  | streamed hstream => exact h.streamStep hstream
  | ticked | joinStarted | joinAdvanced | joinAbandoned | admissionRefused
  | admissionStarted | admissionDropped | denied | committed | rejected
  | publicationLost | reportRefused | bansListed | inviteRedeemed | deleteStarted
  | deleteRejected | deleteUnknown | evicted =>
    exact h.narrow hapart (.of_participants rfl rfl) rfl rfl rfl
  | joinCommitted hpoint hcontrol hjoin =>
    rename_i join role punitive
    refine h.narrow hapart ?_ rfl rfl rfl
    obtain hsame | hpruned | ⟨placement, -, hdecide, hcommit⟩ :=
      c.room.commitJoin_cases c.maxParticipantsPerRoom c.now join.request
        join.snapshot role punitive c.nextSession
    · rw [hsame]
      exact .refl c.room
    · rw [hpruned]
      exact .of_participants rfl rfl
    · rw [hcommit]
      have hpruned : Room.Narrows c.room (c.room.pruneExpiredBans c.now) := .of_participants rfl rfl
      exact hpruned.trans (place_narrows _ (decideJoin_absent hdecide).2.1)
  | left => exact h.narrow hapart (turnLaw_narrows.removeForSender _ _ _) rfl rfl rfl
  | rebound => exact h.narrow hapart (turnLaw_narrows.rebind _ _ _ _ _) rfl rfl rfl
  | admitted hheld hentry =>
    have hmem := (get_eq_some.mp hentry).1
    exact h.narrow hapart (admitEntry_narrows h.apart hmem) rfl rfl rfl
  | refused | planned => exact h.narrow hapart (turnLaw_narrows.prunedFor _ _ _) rfl rfl rfl
  | changedAtOnce =>
    exact h.narrow hapart
      ((turnLaw_narrows.prunedFor _ _ _).trans (Change.publish_narrows _ _ _ _ _))
      rfl rfl rfl
  | published => exact h.narrow hapart (Change.publish_narrows _ _ _ _ _) rfl rfl rfl
  | quarantined | closedForRejoin | deleted | reopened =>
    exact h.narrow hapart (.of_empty rfl rfl) rfl rfl rfl

theorem Initial.streams (h : c.Initial) : c.Streams := by
  obtain ⟨id, ceiling, hroom⟩ := h.room
  have hnone : ∀ owner producer, ¬c.room.Recorded owner producer := by
    rintro owner producer ⟨p, hp, -⟩
    rw [hroom] at hp
    exact mem_empty hp
  refine ⟨h.apart, ?_, ?_, ?_, ?_, ?_⟩
  · intro owner producer
    refine iff_of_false ?_ (hnone owner producer)
    rw [hroom]
    simp [create]
  · intro owner producer hrecorded
    exact absurd hrecorded (hnone owner producer)
  · intro closing hclosing
    rw [h.closings] at hclosing
    cases hclosing
  · rw [unrecorded, h.productions]
    exact nodup_nil
  · intro producer hproducer
    rw [unrecorded, h.productions] at hproducer
    cases hproducer

/-- In every state of every run, the index has a stream under a participant exactly
when that participant's record has it, and no two participants share a stream. -/
theorem producer_index_inverse {actions : List Action} (hinit : c.Initial)
    (hrun : run c actions = some d) :
    (∀ id producer, d.room.producerToParticipant producer = some id ↔
      ∃ p ∈ d.room.participants, p.id = id ∧ ∃ record ∈ p.producers, record.id = producer) ∧
      ∀ p ∈ d.room.participants, ∀ q ∈ d.room.participants,
        ∀ record ∈ p.producers, ∀ record' ∈ q.producers, record.id = record'.id → p = q := by
  have hkeeps : ∀ (c : System) action d, c.Streams → c.step action = some d → d.Streams :=
    fun _ _ _ h hstep => h.step hstep
  have hstreams := Transition.run_kept hkeeps hinit.streams hrun
  refine ⟨hstreams.indexed, fun p hp q hq record hrecord record' hrecord' hsame => ?_⟩
  have howner := hstreams.indexed.owner_unique ⟨p, hp, rfl, record, hrecord, rfl⟩
    ⟨q, hq, rfl, record', hrecord', hsame.symm⟩
  exact eq_of_key_eq hp hq howner

def turnsOnCamera (id : ParticipantId) (sender : SenderId) (session : MediaSession)
    (producer : ProducerId) : List Action :=
  [.stream (.check id sender .video .camera),
    .stream (.create (.checked id sender .video .camera)),
    .stream (.record (.created id sender session producer .video .camera))]

/-- Two people turn on their cameras, and the first one closes theirs again. -/
def twoCameras : List Action :=
  Join.enters ⟨1, 7, true, none, none⟩ (opened .absent).room.snapshot none {} ++
    turnsOnCamera 1 7 0 0 ++
    Join.enters ⟨2, 8, true, none, none⟩ (opened .absent).room.snapshot none {} ++
    turnsOnCamera 2 8 1 1 ++
    [.stream (.close 1 7 0), .stream (.finishClosing ⟨1, 0, [0], some 7, none⟩)]

theorem twoCameras_indexed : ∃ d, run (opened .absent) twoCameras = some d ∧
      d.room.producerToParticipant 0 = none ∧ d.room.producerToParticipant 1 = some 2 ∧
      (∃ p ∈ d.room.participants, p.id = 2 ∧ ∃ record ∈ p.producers, record.id = 1) ∧
      ∀ p ∈ d.room.participants, ∀ record ∈ p.producers, record.id ≠ 0 := by
  have h : ((run (opened .absent) twoCameras).any fun d =>
      d.room.producerToParticipant 0 = none ∧ d.room.producerToParticipant 1 = some 2) := by
    decide +kernel
  obtain ⟨d, hrun, hindex⟩ := (any_eq_true _ _).mp h
  obtain ⟨hclosed, hopen⟩ := of_decide_eq_true hindex
  have hinverse := (producer_index_inverse (opened_initial .absent) hrun).1
  refine ⟨d, hrun, hclosed, hopen, (hinverse 2 1).mp hopen, fun p hp record hrecord hid => ?_⟩
  have hindexed := (hinverse p.id 0).mpr ⟨p, hp, rfl, record, hrecord, hid⟩
  rw [hclosed] at hindexed
  cases hindexed

end System

end SimplestChat.Policy
