import SimplestChat.Media.Protocol
import SimplestChat.Support.Runs

/-!
# Viewer routers and the primary router they belong to

A viewer router, a pipe or a placement is stored by a task that has read the
primary router before, without looking at it again. So what is stored belongs to
the registered incarnation as long as no removal overtakes such a task.

`Housed` says that a task's primary router is still the registered one and that
everything stored for a room carries the registered router's ID, except between the
two halves of a removal.
-/

namespace SimplestChat.Media

open List Option Interleaving Transition Server

abbrev MediaConfig := Config Server Task Lock

abbrev MediaAction := Action Task Choice

/-! ## Incarnations -/

def Server.incarnation (s : Server) (room : RoomId) : Option RouterId :=
  (s.routers room).map (·.router)

structure Server.Owned (s : Server) (room : RoomId) : Prop where
  routers : ∀ w viewer, (s.viewers room).byWorker w = some viewer →
    s.incarnation room = some viewer.origin
  pipes : ∀ pipe ∈ (s.viewers room).pipes, s.incarnation room = some pipe.origin
  placements : ∀ (m : MediaId) placement, m.room = room →
    s.placements m = some placement → s.incarnation room = some placement.origin

def Receiving.primaryRead : Receiving → Option RouterInfo
  | .placed info | .lookup info _ | .forget info | .choose info | .enter info _
  | .creating info _ => some info
  | _ => none

def Task.primaryRead : Task → Option (RoomId × RouterInfo)
  | .receive m _ point => point.primaryRead.map fun primary => (m.room, primary)
  | .pipe m _ (.target _ primary) | .pipe m _ (.create _ primary) => some (m.room, primary)
  | _ => none

/-- The primary router is gone and the viewer routers are still there. -/
def HalfRemoved (c : MediaConfig) (room : RoomId) : Prop :=
  ∃ t, c.task t = some (.closeRouter room .viewers)

def unread (c : MediaConfig) (room : RoomId) : Bool := (List.range c.next).all fun t =>
    ((c.task t).bind Task.primaryRead).all fun read => read.1 ≠ room

def Server.unplaced (s : Server) (room : RoomId) : Bool :=
  s.joined.all fun m => m.room ≠ room || (s.placements m).isNone

/-- A removal begins when no task works with the primary router it takes away and
nobody of the room is placed any more, and it is carried through. -/
def removesQuietly (c : MediaConfig) : MediaAction → Bool
  | .start _ => true
  | .advance t choice =>
    match c.task t, choice with
    | some (.closeRouter room .primary), _ => unread c room && c.shared.unplaced room
    | some (.closeRouter _ .viewers), .fail => false
    | _, _ => true

/-! ## What a step does to the stored things -/

section Frames

variable {s s' : Server} {free : Lock → Bool}

theorem Server.dropLease_cases (s : Server) (lease : Lease) :
    s.dropLease lease = s ∨ s.dropLease lease = s.forgetPlacement lease.participant := by
  unfold dropLease
  split
  · exact .inr rfl
  · exact .inl rfl

structure Server.Releases (s s' : Server) : Prop where
  routers : s'.routers = s.routers
  joined : s'.joined = s.joined
  viewers : s'.viewers = s.viewers
  placements : ∀ m placement, s'.placements m = some placement → s.placements m = some placement

theorem Server.Releases.refl (s : Server) : s.Releases s := ⟨rfl, rfl, rfl, fun _ _ h => h⟩

theorem Server.forgetPlacement_releases (s : Server) (m : MediaId) :
    s.Releases (s.forgetPlacement m) := by
  refine ⟨rfl, rfl, rfl, ?_⟩
  intro m' placement hplacement
  by_cases hm : m' = m
  · simp [forgetPlacement, hm] at hplacement
  · simpa [forgetPlacement, hm] using hplacement

theorem Server.dropLease_releases (s : Server) (lease : Lease) :
    s.Releases (s.dropLease lease) := by
  rcases s.dropLease_cases lease with h | h
  · rw [h]
    exact .refl s
  · rw [h]
    exact s.forgetPlacement_releases lease.participant

theorem Server.dropLingering_releases (s : Server) (rest : List Lease) (lease : Lease) :
    s.Releases ({ s with lingering := rest }.dropLease lease) := by
  have h := { s with lingering := rest }.dropLease_releases lease
  exact ⟨h.routers, h.joined, h.viewers, h.placements⟩

theorem Server.dropLocal_releases (s : Server) (lease : Option Lease) :
    s.Releases (s.dropLocal lease) := by
  cases lease with
  | none => exact .refl s
  | some lease => exact s.dropLease_releases lease

/-- What a step of a creation or replacement does to the placements and to the
viewer routers: it records a placement for the primary router it has read, perhaps
with a new viewer router, or adds nothing. -/
inductive Places (s : Server) (m : MediaId) (point : Receiving) (s' : Server) : Prop
  | nothing (h : s.Releases s')
  | shared {primary : RouterInfo} {w : WorkerId}
      (hread : point.primaryRead = some primary)
      (h : s' = s.recordPlacement m w primary.router)
  | created {primary : RouterInfo} {w : WorkerId}
      (hread : point.primaryRead = some primary)
      (h : s' = (s.insertViewer m.room w primary.router).recordPlacement m w
        primary.router)

section Receives

variable {m : MediaId} {purpose : Purpose} {point : Receiving} {next : Option Receiving}

section

variable (h : Receives s free m purpose point s' next)
include h

theorem Receives.places : Places s m point s' := by
  cases h with
  | gaveUp => exact .nothing (s.dropLocal_releases _)
  | forgot => exact .nothing (s.forgetPlacement_releases m)
  | detached => exact .nothing (s.dropLease_releases _)
  | shared => exact .shared rfl rfl
  | created => exact .created rfl rfl
  | @replaced _ lease retain =>
    refine .nothing ?_
    cases lease with
    | some => exact ⟨rfl, rfl, rfl, fun _ _ h => h⟩
    | none => cases retain <;> exact ⟨rfl, rfl, rfl, fun _ _ h => h⟩
  | _ => exact .nothing ⟨rfl, rfl, rfl, fun _ _ h => h⟩

theorem Receives.reads {point' : Receiving} (hnext : next = some point')
    {primary : RouterInfo} (hread : point'.primaryRead = some primary) :
    point.primaryRead = some primary ∨ s.routers m.room = some primary := by
  cases h with
  | begun _ hpoint =>
    cases hnext
    rcases hpoint with rfl | rfl <;> cases hread
  | found hrouter =>
    cases hnext
    cases hread
    exact .inr hrouter
  | @installed _ lease =>
    cases hnext
    cases lease <;> cases hread
  | remembered | unplaced | lost | forgot | reserved | entered =>
    cases hnext
    exact .inl hread
  | _ => cases hnext <;> cases hread

theorem Receives.present (hpoint : point = .start) (hnext : next ≠ none) : m ∈ s.joined := by
  subst hpoint
  cases h with
  | gaveUp => exact absurd rfl hnext
  | begun hmember =>
    simp only [isMember, Bool.and_eq_true, decide_eq_true_eq] at hmember
    exact hmember.1

end

end Receives

variable {k : Task} {next : Option Task}

variable {m : MediaId} {point : Receiving}

theorem Places.routers (h : Places s m point s') :
    s'.routers = s.routers ∧ s'.joined = s.joined := by
  cases h with
  | nothing h => exact ⟨h.routers, h.joined⟩
  | shared _ h => exact h ▸ ⟨rfl, rfl⟩
  | created _ h => exact h ▸ ⟨rfl, rfl⟩

variable {room : RoomId}

section

variable (h : Moves s free k s' next)
include h

theorem Moves.routers (hk : ∀ room, k ≠ .closeRouter room .primary) {info : RouterInfo}
    (hrouter : s.routers room = some info) : s'.routers room = some info := by
  cases h with
  | received h => rwa [h.places.routers.1]
  | @registered opened _ hvacant =>
    have hne : room ≠ opened := by
      rintro rfl
      rw [hvacant] at hrouter
      cases hrouter
    simpa [hne] using hrouter
  | unregistered => exact absurd rfl (hk _)
  | leaseDropped => rwa [(s.dropLingering_releases _ _).routers]
  | _ => exact hrouter

theorem Moves.stays_joined (hm : m ∈ s.joined) : m ∈ s'.joined := by
  cases h with
  | received h => rwa [h.places.routers.2]
  | joined => exact mem_cons_of_mem _ hm
  | leaseDropped => rwa [(s.dropLingering_releases _ _).joined]
  | _ => exact hm

theorem Moves.reads {k' : Task} (hnext : next = some k') {primary : RouterInfo}
    (hread : k'.primaryRead = some (room, primary)) :
    k.primaryRead = some (room, primary) ∨ s.routers room = some primary := by
  cases h with
  | received h =>
    obtain ⟨point, hpoint, rfl⟩ := map_eq_some_iff.mp hnext
    obtain ⟨read, hread, heq⟩ := map_eq_some_iff.mp hread
    cases heq
    rcases h.reads hpoint hread with hold | hrouter
    · exact .inl (by simp [Task.primaryRead, hold])
    · exact .inr hrouter
  | opening =>
    obtain ⟨point, -, rfl⟩ := map_eq_some_iff.mp hnext
    cases hread
  | pipeFound hrouter =>
    cases hnext
    cases hread
    exact .inr hrouter
  | pipeEntered =>
    cases hnext
    exact .inl hread
  | _ => cases hnext <;> cases hread

theorem Moves.present {purpose : Purpose} (hnext : next = some (.receive m purpose point)) :
    ∃ before, k = .receive m purpose before ∧ (before = .start → m ∈ s.joined) := by
  cases h with
  | received h =>
    obtain ⟨point, hpoint, heq⟩ := map_eq_some_iff.mp hnext
    cases heq
    refine ⟨_, rfl, fun hstart => h.present hstart ?_⟩
    rw [hpoint]
    exact some_ne_none _
  | opening =>
    obtain ⟨point, -, heq⟩ := map_eq_some_iff.mp hnext
    cases heq
  | _ => cases hnext

end

/-- Where a stored thing comes from: it was stored, or the task stores it for the
primary router it has read. -/
def StoredFor (k : Task) (room : RoomId) (origin : RouterId) : Prop :=
  ∃ primary, k.primaryRead = some (room, primary) ∧ origin = primary.router

theorem storedFor_of_read {purpose : Purpose}
    {primary : RouterInfo} (hread : point.primaryRead = some primary) :
    StoredFor (.receive m purpose point) m.room primary.router :=
  ⟨primary, by simp [Task.primaryRead, hread], rfl⟩

theorem Moves.placements (h : Moves s free k s' next)
    {placement : Placement} (hplacement : s'.placements m = some placement) :
    s.placements m = some placement ∨ (StoredFor k m.room placement.origin ∧
        ∃ purpose point, k = .receive m purpose point ∧ point ≠ .start) := by
  have hrecorded : ∀ {t : Server} {n : MediaId} {purpose : Purpose} {point : Receiving}
      {primary : RouterInfo} {w : WorkerId}, t.placements = s.placements →
      point.primaryRead = some primary →
      (t.recordPlacement n w primary.router).placements m = some placement →
      s.placements m = some placement ∨
        (StoredFor (.receive n purpose point) m.room placement.origin ∧
          ∃ purpose' point', Task.receive n purpose point = .receive m purpose' point' ∧
            point' ≠ .start) := by
    intro t n purpose point primary w ht hread hplacement
    by_cases hm : m = n
    · subst hm
      have heq : placement.origin = primary.router := by
        simp only [recordPlacement, Function.update_self, Option.some.injEq] at hplacement
        exact hplacement ▸ rfl
      refine .inr ⟨heq ▸ storedFor_of_read hread, purpose, point, rfl, ?_⟩
      rintro rfl
      cases hread
    · refine .inl ?_
      simpa [recordPlacement, hm, ht] using hplacement
  cases h with
  | received h =>
    cases h.places with
    | nothing h => exact .inl (h.placements _ _ hplacement)
    | shared hread h => exact hrecorded rfl hread (h ▸ hplacement)
    | created hread h => exact hrecorded rfl hread (h ▸ hplacement)
  | leaseDropped => exact .inl ((s.dropLingering_releases _ _).placements _ _ hplacement)
  | _ => exact .inl hplacement

variable {room' : RoomId} {w : WorkerId}

theorem Server.insertViewer_byWorker (s : Server) {w' : WorkerId}
    {origin : RouterId} {viewer : ViewerRouter}
    (h : ((s.insertViewer room w origin).viewers room').byWorker w' = some viewer) :
    (s.viewers room').byWorker w' = some viewer ∨ (room' = room ∧ viewer.origin = origin) := by
  by_cases hroom : room' = room
  · subst hroom
    by_cases hw : w' = w
    · subst hw
      simp only [insertViewer, Function.update_self, Option.some.injEq] at h
      exact .inr ⟨rfl, h ▸ rfl⟩
    · exact .inl (by simpa [insertViewer, hw] using h)
  · exact .inl (by simpa [insertViewer, hroom] using h)

theorem Server.dropPipe_byWorker (s : Server) (room room' : RoomId)
    (producer : ProducerId) (w : WorkerId) :
    ((s.dropPipe room producer w).viewers room').byWorker = (s.viewers room').byWorker := by
  by_cases hroom : room' = room <;> simp [dropPipe, hroom]

theorem Server.insertPipe_byWorker (s : Server) (room room' : RoomId) (pipe : Pipe) :
    ((s.insertPipe room pipe).viewers room').byWorker = (s.viewers room').byWorker := by
  by_cases hroom : room' = room <;> simp [insertPipe, hroom]

theorem Moves.viewers (h : Moves s free k s' next)
    {viewer : ViewerRouter} (hviewer : (s'.viewers room).byWorker w = some viewer) :
    (s.viewers room).byWorker w = some viewer ∨ StoredFor k room viewer.origin := by
  cases h with
  | received h =>
    cases h.places with
    | nothing h =>
      rw [h.viewers] at hviewer
      exact .inl hviewer
    | shared _ h =>
      rw [h] at hviewer
      exact .inl hviewer
    | created hread h =>
      rw [h] at hviewer
      rcases s.insertViewer_byWorker hviewer with hold | ⟨rfl, horigin⟩
      · exact .inl hold
      · exact .inr (horigin ▸ storedFor_of_read hread)
  | @cleared removed =>
    by_cases hroom : room = removed
    · simp [removeViewers, ViewerRouters.empty, hroom] at hviewer
    · exact .inl (by simpa [removeViewers, hroom] using hviewer)
  | pipeEntered | pipeLost =>
    rw [dropPipe_byWorker] at hviewer
    exact .inl hviewer
  | piped =>
    rw [insertPipe_byWorker] at hviewer
    exact .inl hviewer
  | @recovered lost =>
    by_cases hw : w = lost
    · simp [dropViewerRoutersOnWorker, hw] at hviewer
    · exact .inl (by simpa [dropViewerRoutersOnWorker, hw] using hviewer)
  | leaseDropped =>
    rw [(s.dropLingering_releases _ _).viewers] at hviewer
    exact .inl hviewer
  | _ => exact .inl hviewer

theorem Server.mem_insertViewer_pipes (s : Server) {origin : RouterId} :
    ((s.insertViewer room w origin).viewers room').pipes = (s.viewers room').pipes := by
  by_cases hroom : room' = room <;> simp [insertViewer, hroom]

variable {pipe : Pipe}

theorem Server.mem_dropPipe_pipes (s : Server) {producer : ProducerId}
    (h : pipe ∈ ((s.dropPipe room producer w).viewers room').pipes) :
    pipe ∈ (s.viewers room').pipes := by
  by_cases hroom : room' = room
  · subst hroom
    simp only [dropPipe, Function.update_self, List.mem_filter] at h
    exact h.1
  · simpa [dropPipe, hroom] using h

theorem Server.mem_insertPipe_pipes (s : Server)
    {pipe' : Pipe} (h : pipe' ∈ ((s.insertPipe room pipe).viewers room').pipes) :
    pipe' ∈ (s.viewers room').pipes ∨ (room' = room ∧ pipe' = pipe) := by
  by_cases hroom : room' = room
  · subst hroom
    simp only [insertPipe, Function.update_self, mem_cons, List.mem_filter] at h
    rcases h with rfl | h
    · exact .inr ⟨rfl, rfl⟩
    · exact .inl h.1
  · exact .inl (by simpa [insertPipe, hroom] using h)

theorem Moves.pipes (h : Moves s free k s' next) (hpipe : pipe ∈ (s'.viewers room).pipes) :
    pipe ∈ (s.viewers room).pipes ∨ StoredFor k room pipe.origin := by
  cases h with
  | received h =>
    refine .inl ?_
    cases h.places with
    | nothing h => rwa [h.viewers] at hpipe
    | shared _ h => rwa [h] at hpipe
    | created _ h =>
      rw [h] at hpipe
      exact s.mem_insertViewer_pipes ▸ hpipe
  | @cleared removed =>
    by_cases hroom : room = removed
    · simp [removeViewers, ViewerRouters.empty, hroom] at hpipe
    · exact .inl (by simpa [removeViewers, hroom] using hpipe)
  | pipeEntered | pipeLost => exact .inl (s.mem_dropPipe_pipes hpipe)
  | piped =>
    rcases s.mem_insertPipe_pipes hpipe with hold | ⟨rfl, rfl⟩
    · exact .inl hold
    · exact .inr ⟨_, rfl, rfl⟩
  | recovered =>
    simp only [dropViewerRoutersOnWorker, List.mem_filter] at hpipe
    exact .inl hpipe.1
  | leaseDropped =>
    rw [(s.dropLingering_releases _ _).viewers] at hpipe
    exact .inl hpipe
  | _ => exact .inl hpipe

end Frames

/-! ## The invariant -/

theorem task_moved {c : MediaConfig} {t u : ℕ} {k k' : Task} {o : Result}
    (h : media.Coherent c) (hk : c.task t = some k) (hspawned : o.spawned = none) :
    (media.apply c t k o).task u = some k' ↔
      (u = t ∧ o.self = some k') ∨ (u ≠ t ∧ c.task u = some k') := by
  rw [Protocol.task_apply h hk, hspawned]
  simp

structure Housed (c : MediaConfig) : Prop where
  coherent : media.Coherent c
  reads : ∀ {t k room primary}, c.task t = some k →
    k.primaryRead = some (room, primary) → c.shared.routers room = some primary
  present : ∀ {t m purpose point}, c.task t = some (.receive m purpose point) →
    point ≠ .start → m ∈ c.shared.joined
  listed : ∀ {m placement}, c.shared.placements m = some placement → m ∈ c.shared.joined
  placed : ∀ {m placement}, c.shared.placements m = some placement →
    c.shared.incarnation m.room = some placement.origin
  viewers : ∀ {room w viewer}, (c.shared.viewers room).byWorker w = some viewer →
    HalfRemoved c room ∨ c.shared.incarnation room = some viewer.origin
  pipes : ∀ {room pipe}, pipe ∈ (c.shared.viewers room).pipes →
    HalfRemoved c room ∨ c.shared.incarnation room = some pipe.origin

namespace Housed

variable {c d : MediaConfig}

theorem start : Housed mediaStart where
  coherent := mediaStart_coherent
  reads h := by cases h
  present h := by cases h
  listed h := by cases h
  placed h := by cases h
  viewers h := by cases h
  pipes h := by cases h

theorem launch (h : Housed c) {k : Task} (hk : Task.initial k = true) : Housed (c.launch k) := by
  have hhalf : ∀ {room}, HalfRemoved c room → HalfRemoved (c.launch k) room :=
    fun ⟨u, hu⟩ => ⟨u, (Protocol.task_launch h.coherent).mpr (.inr hu)⟩
  refine ⟨h.coherent.launch hk, ?_, ?_, h.listed, h.placed, ?_, ?_⟩
  · intro u k' room primary hu hread
    rcases h.coherent.launched hu with rfl | hold
    · revert hk hread
      fun_cases Task.initial k' <;> simp [Task.primaryRead, Receiving.primaryRead]
    · exact h.reads hold hread
  · intro u m purpose point hu hpoint
    rcases h.coherent.launched hu with rfl | hold
    · cases point with
      | start => exact absurd rfl hpoint
      | _ => cases hk
    · exact h.present hold hpoint
  · intro room w viewer hviewer
    exact (h.viewers hviewer).imp_left hhalf
  · intro room pipe hpipe
    exact (h.pipes hpipe).imp_left hhalf

section Advance

variable {t : ℕ} {k : Task} {choice : Choice} {o : Result}

variable {room : RoomId}

theorem incarnation_stored (h : Housed c) (hk : c.task t = some k)
    {origin : RouterId} (hstored : StoredFor k room origin) :
    c.shared.incarnation room = some origin := by
  obtain ⟨primary, hread, rfl⟩ := hstored
  simp [incarnation, h.reads hk hread]

theorem incarnation_grow {s s' : Server}
    (hgrow : ∀ {room info}, s.routers room = some info → s'.routers room = some info)
    {origin : RouterId} (h : s.incarnation room = some origin) :
    s'.incarnation room = some origin := by
  obtain ⟨info, hrouter, rfl⟩ := map_eq_some_iff.mp h
  simp [incarnation, hgrow hrouter]

theorem advance (h : Housed c) (ha : media.Acts c t k choice o)
    (hk : ∀ room point, k ≠ .closeRouter room point) : Housed (media.apply c t k o) := by
  obtain ⟨hspawned, hmoves⟩ := act_moves ha.acted
  have htask : ∀ {u k'}, (media.apply c t k o).task u = some k' ↔
      (u = t ∧ o.self = some k') ∨ (u ≠ t ∧ c.task u = some k') :=
    task_moved h.coherent ha.running hspawned
  have hgrow : ∀ {room info}, c.shared.routers room = some info →
      o.shared.routers room = some info := hmoves.routers fun room => hk room .primary
  have hhalf : ∀ {room}, HalfRemoved c room → HalfRemoved (media.apply c t k o) room := by
    rintro room ⟨u, hu⟩
    refine ⟨u, htask.mpr (.inr ⟨?_, hu⟩)⟩
    rintro rfl
    rw [ha.running] at hu
    exact hk room .viewers (Option.some.inj hu)
  -- what is stored now was stored before, or its primary router is registered
  have hstored : ∀ {room origin}, StoredFor k room origin →
      o.shared.incarnation room = some origin := by
    intro room origin hstored
    exact incarnation_grow hgrow (h.incarnation_stored ha.running hstored)
  refine ⟨h.coherent.apply ha, ?_, ?_, ?_, ?_, ?_, ?_⟩
  · intro u k' room primary hu hread
    rcases htask.mp hu with ⟨rfl, hself⟩ | ⟨-, hold⟩
    · rcases hmoves.reads hself hread with hbefore | hrouter
      · exact hgrow (h.reads ha.running hbefore)
      · exact hgrow hrouter
    · exact hgrow (h.reads hold hread)
  · intro u m purpose point hu hpoint
    refine hmoves.stays_joined ?_
    rcases htask.mp hu with ⟨rfl, hself⟩ | ⟨-, hold⟩
    · obtain ⟨before, rfl, hstart⟩ := hmoves.present hself
      by_cases hbefore : before = .start
      · exact hstart hbefore
      · exact h.present ha.running hbefore
    · exact h.present hold hpoint
  · intro m placement hplacement
    refine hmoves.stays_joined ?_
    rcases hmoves.placements hplacement with hold | ⟨-, purpose, point, rfl, hpoint⟩
    · exact h.listed hold
    · exact h.present ha.running hpoint
  · intro m placement hplacement
    rcases hmoves.placements hplacement with hold | ⟨hnew, -⟩
    · exact incarnation_grow hgrow (h.placed hold)
    · exact hstored hnew
  · intro room w viewer hviewer
    rcases hmoves.viewers hviewer with hold | hnew
    · exact (h.viewers hold).imp hhalf (incarnation_grow hgrow)
    · exact .inr (hstored hnew)
  · intro room pipe hpipe
    rcases hmoves.pipes hpipe with hold | hnew
    · exact (h.pipes hold).imp hhalf (incarnation_grow hgrow)
    · exact .inr (hstored hnew)

def unregistered (s : Server) (room : RoomId) : Server :=
  { s with routers := Function.update s.routers room none }

theorem unregister (h : Housed c) (ha : media.Acts c t (.closeRouter room .primary) choice
      ⟨unregistered c.shared room, some (.closeRouter room .viewers), none⟩)
    (hunread : unread c room = true) (hunplaced : c.shared.unplaced room = true) :
    Housed (media.apply c t (.closeRouter room .primary)
      ⟨unregistered c.shared room, some (.closeRouter room .viewers), none⟩) := by
  have hhalf : ∀ {room'}, HalfRemoved c room' ∨ room' = room →
      HalfRemoved (media.apply c t (.closeRouter room .primary)
        ⟨unregistered c.shared room, some (.closeRouter room .viewers), none⟩) room' := by
    rintro room' (⟨u, hu⟩ | rfl)
    · refine ⟨u, (task_moved h.coherent ha.running rfl).mpr (.inr ⟨?_, hu⟩)⟩
      rintro rfl
      rw [ha.running] at hu
      cases hu
    · exact ⟨t, (task_moved h.coherent ha.running rfl).mpr (.inl ⟨rfl, rfl⟩)⟩
  have hother : ∀ {room' origin}, room' ≠ room → c.shared.incarnation room' = some origin →
      (unregistered c.shared room).incarnation room' = some origin := by
    intro room' origin hne horigin
    simpa [unregistered, incarnation, hne] using horigin
  refine ⟨h.coherent.apply ha, ?_, ?_, h.listed, ?_, ?_, ?_⟩
  · intro u k' room' primary hu hread
    rcases (task_moved h.coherent ha.running rfl).mp hu with ⟨rfl, hself⟩ | ⟨-, hold⟩
    · cases hself
      cases hread
    have hne : room' ≠ room := by
      have hall := List.all_eq_true.mp hunread u (mem_range.mpr (h.coherent.lt_next hold))
      simpa [hold, hread] using hall
    simpa [Protocol.apply, unregistered, hne] using h.reads hold hread
  · intro u m purpose point hu hpoint
    rcases (task_moved h.coherent ha.running rfl).mp hu with ⟨rfl, hself⟩ | ⟨-, hold⟩
    · cases hself
    · exact h.present hold hpoint
  · intro m placement hplacement
    have hsome : c.shared.placements m = some placement := hplacement
    have hne : m.room ≠ room := by
      intro hroom
      have hall := List.all_eq_true.mp hunplaced m (h.listed hsome)
      simp [hroom, hsome] at hall
    exact hother hne (h.placed hsome)
  · intro room' w viewer hviewer
    by_cases hroom : room' = room
    · exact .inl (hhalf (.inr hroom))
    · exact (h.viewers hviewer).imp (fun half => hhalf (.inl half)) (hother hroom)
  · intro room' pipe hpipe
    by_cases hroom : room' = room
    · exact .inl (hhalf (.inr hroom))
    · exact (h.pipes hpipe).imp (fun half => hhalf (.inl half)) (hother hroom)

theorem clear (h : Housed c) (ha : media.Acts c t (.closeRouter room .viewers) choice
      ⟨c.shared.removeViewers room, none, none⟩) :
    Housed (media.apply c t (.closeRouter room .viewers)
      ⟨c.shared.removeViewers room, none, none⟩) := by
  have htask : ∀ {u k'}, (media.apply c t (.closeRouter room .viewers)
      ⟨c.shared.removeViewers room, none, none⟩).task u = some k' →
      c.task u = some k' := by
    intro u k' hu
    rcases (task_moved h.coherent ha.running rfl).mp hu with ⟨-, hself⟩ | ⟨-, hold⟩
    · cases hself
    · exact hold
  -- a removal that stays halfway is one of another room
  have hhalf : ∀ {room'}, room' ≠ room → HalfRemoved c room' →
      HalfRemoved (media.apply c t (.closeRouter room .viewers)
        ⟨c.shared.removeViewers room, none, none⟩) room' := by
    rintro room' hne ⟨u, hu⟩
    refine ⟨u, (task_moved h.coherent ha.running rfl).mpr (.inr ⟨?_, hu⟩)⟩
    rintro rfl
    rw [ha.running] at hu
    cases hu
    exact hne rfl
  have hviewers : ∀ {room'}, room' ≠ room →
      (c.shared.removeViewers room).viewers room' = c.shared.viewers room' := by
    intro room' hne
    simp [removeViewers, hne]
  have hempty : (c.shared.removeViewers room).viewers room = .empty := by
    simp [removeViewers]
  refine ⟨h.coherent.apply ha, fun hu => h.reads (htask hu),
    fun hu => h.present (htask hu), h.listed, h.placed, ?_, ?_⟩
  · intro room' w viewer hviewer
    change ((c.shared.removeViewers room).viewers room').byWorker w = _ at hviewer
    by_cases hroom : room' = room
    · rw [hroom, hempty] at hviewer
      cases hviewer
    · rw [hviewers hroom] at hviewer
      exact (h.viewers hviewer).imp_left (hhalf hroom)
  · intro room' pipe hpipe
    change pipe ∈ ((c.shared.removeViewers room).viewers room').pipes at hpipe
    by_cases hroom : room' = room
    · rw [hroom, hempty] at hpipe
      cases hpipe
    · rw [hviewers hroom] at hpipe
      exact (h.pipes hpipe).imp_left (hhalf hroom)

end Advance

theorem step {a : MediaAction} (h : Housed c) (hquiet : removesQuietly c a = true)
    (hstep : media.step c a = some d) : Housed d := by
  cases a with
  | start =>
    obtain ⟨hk, rfl⟩ := media.step_start_eq_some.mp hstep
    exact h.launch hk
  | advance t choice =>
    obtain ⟨k, o, ha, rfl⟩ := media.step_advance_eq_some.mp hstep
    by_cases hk : ∀ room point, k ≠ .closeRouter room point
    · exact h.advance ha hk
    push Not at hk
    obtain ⟨room, point, rfl⟩ := hk
    have hrunning := ha.running
    have hacted : closeAct c.shared c.free room point choice = some o := ha.acted
    cases point with
    | primary =>
      cases choice with
      | go =>
        cases hacted
        simp only [removesQuietly, hrunning, Bool.and_eq_true] at hquiet
        exact h.unregister ha hquiet.1 hquiet.2
      | _ => cases hacted
    | viewers =>
      cases choice with
      | go =>
        obtain ⟨-, ho⟩ := ite_none_right_eq_some.mp hacted
        cases ho
        exact h.clear ha
      | fail => simp [removesQuietly, hrunning] at hquiet
      | reserve => cases hacted

end Housed

/-! ## Runs -/

/-- In every run whose removals begin when no task works with the room's primary
router and nobody of the room is placed, and are carried through: a viewer router, a
pipe or a placement is stored for a room only while the primary router it was stored
for is the registered one, except between the two halves of a removal. -/
theorem viewers_follow_primary {actions : List MediaAction} {c : MediaConfig}
    (hquiet : RunMeets media.step (fun c a => removesQuietly c a = true)
      mediaStart actions) (hrun : run media.step mediaStart actions = some c)
    (room : RoomId) (hwhole : ¬ HalfRemoved c room) : c.shared.Owned room := by
  have hkeeps : ∀ (x : MediaConfig) a y, Housed x → removesQuietly x a = true →
      media.step x a = some y → Housed y := fun _ _ _ hx ha hstep => hx.step ha hstep
  have h : Housed c := run_invariant hkeeps Housed.start hquiet hrun
  refine ⟨?_, ?_, ?_⟩
  · intro w viewer hviewer
    exact (h.viewers hviewer).resolve_left hwhole
  · intro pipe hpipe
    exact (h.pipes hpipe).resolve_left hwhole
  · rintro m placement rfl hplacement
    exact h.placed hplacement

/-! ### Samples -/

def idle (c : MediaConfig) : Bool := (List.range c.next).all fun t => (c.task t).isNone

theorem quiescent_of_idle {actions : List MediaAction} {c : MediaConfig}
    (hrun : run media.step mediaStart actions = some c)
    (hidle : idle c = true) : c.Quiescent := by
  have hkeeps : ∀ (x : MediaConfig) a y, media.Coherent x → media.step x a = some y →
      media.Coherent y := fun _ _ _ hx hstep => hx.step hstep
  have hcoherent := run_kept hkeeps mediaStart_coherent hrun
  refine hcoherent.quiescent ?_
  intro t ht
  simpa using List.all_eq_true.mp hidle t (mem_range.mpr ht)

def performs (t : ℕ) (k : Task) (choices : List Choice) : List MediaAction :=
  .start k :: choices.map (.advance t)

def roomOpens (t : ℕ) (m : MediaId) : List MediaAction :=
  performs t (.openRouter 0 .check) [.go, .reserve 0, .go] ++
    performs (t + 1) (.event (.join m)) [.go]

def isPlaced (t : ℕ) (m : MediaId) (creates : Bool) : List MediaAction :=
  performs t (.receive m .create .start)
      ([.go, .go, .go, .reserve 1, .go] ++ (if creates then [.go] else []) ++
        List.replicate 7 .go) ++
    performs (t + 1) (.pipe m 0 .placement) [.go, .go, .go, .go]

def departs (t : ℕ) (m : MediaId) (ticket : ℕ) : List MediaAction :=
  performs t (.event (.part m)) [.go] ++ performs (t + 1) (.remove m .take) [.go, .go] ++
    performs (t + 2) (.event (.dropLease ⟨m, ticket⟩)) [.go]

def roomCloses (t : ℕ) : List MediaAction :=
  performs t (.closeRouter 0 .primary) [.go, .go]

/-- The room closes after its viewer has left; a viewer of its next incarnation is
placed on the same worker. -/
def placedTwice : List MediaAction :=
  roomOpens 0 ⟨0, 0⟩ ++ isPlaced 2 ⟨0, 0⟩ true ++ departs 4 ⟨0, 0⟩ 1 ++ roomCloses 7 ++
    roomOpens 8 ⟨0, 1⟩ ++ isPlaced 10 ⟨0, 1⟩ true

theorem placedTwice_owned : ∃ c, run media.step mediaStart placedTwice = some c ∧
      (c.shared.viewers 0).byWorker 1 = some ⟨3, 2⟩ ∧ c.shared.Owned 0 := by
  have h : ((run media.step mediaStart placedTwice).any fun c =>
      idle c && decide ((c.shared.viewers 0).byWorker 1 = some ⟨3, 2⟩)) = true := by
    decide +kernel
  obtain ⟨c, hrun, hc⟩ := (Option.any_eq_true _ _).mp h
  obtain ⟨hidle, hviewer⟩ := Bool.and_eq_true_iff.mp hc
  have hquiet : RunMeets media.step (fun c a => removesQuietly c a = true)
      mediaStart placedTwice := by
    decide +kernel
  have hwhole : ¬ HalfRemoved c 0 := by
    rintro ⟨t, ht⟩
    rw [quiescent_of_idle hrun hidle t] at ht
    cases ht
  exact ⟨c, hrun, of_decide_eq_true hviewer, viewers_follow_primary hquiet hrun 0 hwhole⟩

/-- The room closes while its last viewer is being placed: the viewer has read the
primary router and waits for the table of viewer routers. -/
def placedLate : List MediaAction :=
  roomOpens 0 ⟨0, 0⟩ ++ performs 2 (.receive ⟨0, 0⟩ .create .start) [.go, .go, .go, .reserve 1] ++
    performs 3 (.event (.part ⟨0, 0⟩)) [.go] ++ performs 4 (.remove ⟨0, 0⟩ .take) [.go] ++
    roomCloses 5 ++ List.replicate 10 (.advance 2 .go) ++
    performs 6 (.event (.dropLease ⟨⟨0, 0⟩, 1⟩)) [.go]

/-- With nothing in progress, a viewer router is left for a room without a primary
router, and the next incarnation of the room places its viewers there. -/
theorem placedLate_left : (∃ c, run media.step mediaStart placedLate = some c ∧ c.Quiescent ∧
      c.shared.incarnation 0 = none ∧
      (c.shared.viewers 0).byWorker 1 = some ⟨1, 0⟩) ∧
    ∃ c, run media.step mediaStart
        (placedLate ++ roomOpens 7 ⟨0, 1⟩ ++ isPlaced 9 ⟨0, 1⟩ false) = some c ∧
      c.Quiescent ∧ c.shared.incarnation 0 = some 2 ∧
      c.shared.workerForParticipant ⟨0, 1⟩ = some 1 ∧
      (c.shared.viewers 0).byWorker 1 = some ⟨1, 0⟩ := by
  constructor
  · have h : ((run media.step mediaStart placedLate).any fun c =>
        idle c && decide (c.shared.incarnation 0 = none ∧
          (c.shared.viewers 0).byWorker 1 = some ⟨1, 0⟩)) = true := by
      decide +kernel
    obtain ⟨c, hrun, hc⟩ := (Option.any_eq_true _ _).mp h
    obtain ⟨hidle, hleft⟩ := Bool.and_eq_true_iff.mp hc
    exact ⟨c, hrun, quiescent_of_idle hrun hidle, of_decide_eq_true hleft⟩
  · have h : ((run media.step mediaStart
        (placedLate ++ roomOpens 7 ⟨0, 1⟩ ++ isPlaced 9 ⟨0, 1⟩ false)).any fun c =>
        idle c && decide (c.shared.incarnation 0 = some 2 ∧
          c.shared.workerForParticipant ⟨0, 1⟩ = some 1 ∧
          (c.shared.viewers 0).byWorker 1 = some ⟨1, 0⟩)) = true := by
      decide +kernel
    obtain ⟨c, hrun, hc⟩ := (Option.any_eq_true _ _).mp h
    obtain ⟨hidle, hleft⟩ := Bool.and_eq_true_iff.mp hc
    exact ⟨c, hrun, quiescent_of_idle hrun hidle, of_decide_eq_true hleft⟩

end SimplestChat.Media
