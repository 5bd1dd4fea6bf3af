import SimplestChat.Media.Sessions

/-!
# Where a participant receives

A participant's placement and its receive transport are written at different times
and behind different locks. `Agreed` follows one participant through a creation or
replacement: at every point it says how the placement, the transport in use and the
lease in hand relate. It holds until the participant's entry is taken from it, which
happens only after it has left; from then on (`Gone`) every receive transport it may
still get is closed before the operation that made it is over.
-/

namespace SimplestChat.Media

open Option Interleaving Transition Server

/-! ## What agrees -/

def Route.place (route : Route) : Option WorkerId :=
  if route.viewer then some route.worker else none

namespace Server

variable (s : Server) (m : MediaId)

def receiver : Option Transport := (s.participants m).bind fun g => (s.sessions g).recv

def hasViewer (room : RoomId) (w : WorkerId) : Bool := ((s.viewers room).byWorker w).isSome

def Settled : Prop :=
  ∀ transport, s.receiver m = some transport → s.isOpen transport = true →
    s.workerForParticipant m = transport.route.place

def OnPrimary : Prop :=
  ∀ transport, s.receiver m = some transport → s.isOpen transport = true →
    transport.route.viewer = false

structure Holds (lease : Lease) : Prop where
  participant : lease.participant = m
  placement : ∃ placement, s.placements m = some placement ∧ placement.ticket = lease.ticket
  unique : ∀ g other, (s.sessions g).lease = some other → other.participant = m →
    other.ticket ≠ lease.ticket

def Directed (route : Route) : Option Lease → Prop
  | none => s.workerForParticipant m = route.place ∧ s.Settled m
  | some lease =>
    s.workerForParticipant m = some route.worker ∧ route.viewer = true ∧
      s.Holds m lease ∧ s.OnPrimary m

/-- How placement, transport and lease relate while an operation is at a point. -/
def Phase : Option Receiving → Prop
  | none | some .start | some .replay | some .primary | some (.placed _)
  | some .confirm => s.Settled m
  | some (.lookup _ w) => s.Settled m ∧ s.workerForParticipant m = some w
  | some (.forget _) => s.Settled m ∧ s.OnPrimary m
  | some (.choose _) | some (.enter _ _) | some (.creating _ _) =>
    s.Settled m ∧ s.placements m = none
  | some (.routed route lease) => s.Directed m route lease
  | some (.obtain route lease retain) =>
    s.Directed m route lease ∧ (lease = none → retain = route.viewer)
  | some (.locking route lease retain g) | some (.building route lease retain g) =>
    s.Directed m route lease ∧ (lease = none → retain = route.viewer) ∧ s.participants m = some g
  | some (.attach lease) => s.Settled m ∧ s.Holds m lease ∧ s.participants m ≠ none
  | some (.attaching lease g) => s.Settled m ∧ s.Holds m lease ∧ s.participants m = some g
  | some (.evict _) => False

end Server

def Receiving.route : Receiving → Option Route
  | .routed route _ | .obtain route _ _ | .locking route _ _ _ | .building route _ _ _ =>
    some route
  | _ => none

/-- A participant whose entry has not been taken from it. -/
structure Agreed (s : Server) (m : MediaId) (point : Option Receiving) : Prop where
  own : s.OwnLeases m
  misses : s.LateDropsMiss m
  phase : s.Phase m point
  /-- the viewer router in use is there while the participant may ask for it again -/
  anchored : m ∉ s.parted ∨ point.isSome = true → ∀ transport,
    s.receiver m = some transport → s.isOpen transport = true →
    transport.route.viewer = true → s.hasViewer m.room transport.route.worker = true
  bound : ∀ here route, point = some here → here.route = some route →
    route.viewer = true → s.dead route.worker = false →
    s.hasViewer m.room route.worker = true

/-- A participant whose entry has been taken. -/
structure Gone (s : Server) (m : MediaId) (op : Option (Purpose × Receiving)) : Prop where
  parted : m ∈ s.parted
  replacing : ∀ expected point, op = some (.replace expected, point) → s.participants m = none
  evicting : ∀ purpose g, op = some (purpose, .evict g) → s.participants m = none
  receiver : s.receiver m = none ∨ ∃ point, op = some (.create, point) ∧ point.early = false

/-! ## Steps of others -/

section Others

variable {s s' : Server} {free : Lock → Bool} {m : MediaId}

theorem Receives.surroundings {purpose : Purpose} {point : Receiving}
    {next : Option Receiving} (h : Receives s free m purpose point s' next) :
    s'.dead = s.dead ∧ s'.closedTransports = s.closedTransports ∧ s'.parted = s.parted := by
  have hdrop : ∀ lease, (s.dropLease lease).dead = s.dead ∧
      (s.dropLease lease).closedTransports = s.closedTransports ∧
      (s.dropLease lease).parted = s.parted := by
    intro lease
    rcases s.dropLease_cases lease with h | h
    all_goals
      rw [h]
      exact ⟨rfl, rfl, rfl⟩
  cases h with
  | gaveUp =>
    cases hlease : point.lease with
    | none => exact ⟨rfl, rfl, rfl⟩
    | some lease => exact hdrop lease
  | @replaced _ lease retain =>
    cases lease with
    | some => exact ⟨rfl, rfl, rfl⟩
    | none => cases retain <;> exact ⟨rfl, rfl, rfl⟩
  | detached => exact hdrop _
  | _ => exact ⟨rfl, rfl, rfl⟩

structure Server.Ages (s s' : Server) : Prop where
  live : ∀ w, s'.dead w = false → s.dead w = false
  closed : ∀ id, s'.closedTransports id = false → s.closedTransports id = false
  parted : ∀ m, m ∈ s.parted → m ∈ s'.parted

theorem Server.Ages.isOpen (h : s.Ages s') {transport : Transport}
    (hopen : s'.isOpen transport = true) : s.isOpen transport = true := by
  simp only [Server.isOpen, Bool.and_eq_true, Bool.not_eq_true'] at hopen ⊢
  exact ⟨h.live _ hopen.1, h.closed _ hopen.2⟩

variable {k : Task} {next : Option Task}

theorem Moves.ages (h : Moves s free k s' next) : s.Ages s' := by
  cases h with
  | received h =>
    obtain ⟨hdead, hclosed, hparted⟩ := h.surroundings
    exact ⟨fun w => by rw [hdead]; exact id, fun t => by rw [hclosed]; exact id,
      fun m => by rw [hparted]; exact id⟩
  | parted => exact ⟨fun _ => id, fun _ => id, fun _ => List.mem_cons_of_mem _⟩
  | @died w =>
    refine ⟨?_, fun _ => id, fun _ => id⟩
    intro w' hlive
    by_cases hw : w' = w
    · simp [hw] at hlive
    · simpa [hw] using hlive
  | @transportClosed id =>
    refine ⟨fun _ => fun h => h, ?_, fun _ => fun h => h⟩
    intro id' hopen
    by_cases hid : id' = id
    · simp [hid] at hopen
    · simpa [hid] using hopen
  | @leaseDropped lease =>
    rcases dropLease_cases { s with lingering := s.lingering.erase lease } lease
      with h | h
    · rw [h]
      exact ⟨fun _ => id, fun _ => id, fun _ => id⟩
    · rw [h]
      exact ⟨fun _ => id, fun _ => id, fun _ => id⟩
  | _ => exact ⟨fun _ => id, fun _ => id, fun _ => id⟩

theorem Server.insertViewer_hasViewer (s : Server) {room room' : RoomId}
    {w w' : WorkerId} {origin : RouterId}
    (h : s.hasViewer room' w' = true ∨ (room' = room ∧ w' = w)) :
    (s.insertViewer room w origin).hasViewer room' w' = true := by
  by_cases hroom : room' = room
  · subst hroom
    by_cases hw : w' = w
    · simp [hasViewer, insertViewer, hw]
    · simpa [hasViewer, insertViewer, hw] using h
  · simpa [hasViewer, insertViewer, hroom] using h

/-- Only the second half of a removal and the recovery of a dead worker take viewer
routers away. -/
theorem Moves.hasViewer (h : Moves s free k s' next) {room : RoomId} {w : WorkerId}
    (hk : k ≠ .closeRouter room .viewers) (hlive : s'.dead w = false)
    (hviewer : s.hasViewer room w = true) : s'.hasViewer room w = true := by
  cases h with
  | received h =>
    cases h.places with
    | nothing h =>
      rw [hasViewer, h.viewers]
      exact hviewer
    | shared _ h =>
      rw [h]
      exact hviewer
    | created _ h =>
      rw [h]
      exact s.insertViewer_hasViewer (.inl hviewer)
  | @cleared removed =>
    have hne : room ≠ removed := fun heq => hk (heq ▸ rfl)
    simpa [hasViewer, removeViewers, hne] using hviewer
  | pipeEntered | pipeLost =>
    rw [hasViewer, dropPipe_byWorker]
    exact hviewer
  | piped =>
    rw [hasViewer, insertPipe_byWorker]
    exact hviewer
  | @recovered lost hdead =>
    have hne : w ≠ lost := by
      rintro rfl
      exact absurd hdead (Bool.eq_false_iff.mp hlive)
    simpa [hasViewer, dropViewerRoutersOnWorker, hne] using hviewer
  | leaseDropped =>
    rw [hasViewer, (s.dropLingering_releases _ _).viewers]
    exact hviewer
  | _ => exact hviewer

theorem Server.Kept.receiver (h : s.Kept s' m) : s'.receiver m = s.receiver m := by
  unfold Server.receiver
  rw [h.participants]
  cases hentry : s.participants m with
  | none => rfl
  | some g => simp [h.session g hentry]

section Agreement

variable (hkept : s.Kept s' m) (hforeign : s.Foreign s' m) (hages : s.Ages s')

include hkept hforeign hages

theorem Server.Settled.foreign (h : s.Settled m) : s'.Settled m := by
  intro transport hreceiver hopen
  rw [hkept.receiver] at hreceiver
  have := h transport hreceiver (hages.isOpen hopen)
  simpa [workerForParticipant, hforeign.placements] using this

theorem Server.Phase.foreign {point : Option Receiving} (h : s.Phase m point) :
    s'.Phase m point := by
  have hsettled : s.Settled m → s'.Settled m := fun h => h.foreign hkept hforeign hages
  have hprimary : s.OnPrimary m → s'.OnPrimary m := by
    intro h transport hreceiver hopen
    rw [hkept.receiver] at hreceiver
    exact h transport hreceiver (hages.isOpen hopen)
  have hholds : ∀ {lease}, s.Holds m lease → s'.Holds m lease := by
    intro lease h
    refine ⟨h.participant, ?_, fun g other hother hm =>
      h.unique g other (hforeign.leases g other hother hm) hm⟩
    rw [hforeign.placements]
    exact h.placement
  have hworker : s'.workerForParticipant m = s.workerForParticipant m := by
    simp [workerForParticipant, hforeign.placements]
  have hdirected : ∀ {route lease}, s.Directed m route lease → s'.Directed m route lease := by
    intro route lease h
    cases lease with
    | none => exact ⟨hworker.trans h.1, hsettled h.2⟩
    | some => exact ⟨hworker.trans h.1, h.2.1, hholds h.2.2.1, hprimary h.2.2.2⟩
  cases point with
  | none => exact hsettled h
  | some here =>
    cases here with
    | start | replay | primary | placed | confirm => exact hsettled h
    | lookup => exact ⟨hsettled h.1, hworker.trans h.2⟩
    | forget => exact ⟨hsettled h.1, hprimary h.2⟩
    | choose | enter | creating => exact ⟨hsettled h.1, hforeign.placements.trans h.2⟩
    | routed => exact hdirected h
    | obtain => exact ⟨hdirected h.1, h.2⟩
    | locking | building => exact ⟨hdirected h.1, h.2.1, hkept.participants.trans h.2.2⟩
    | attach =>
      refine ⟨hsettled h.1, hholds h.2.1, ?_⟩
      rw [hkept.participants]
      exact h.2.2
    | attaching => exact ⟨hsettled h.1, hholds h.2.1, hkept.participants.trans h.2.2⟩
    | evict => exact h

theorem Agreed.foreign {point : Option Receiving} (h : Agreed s m point)
    (hknown : s.receiver m ≠ none → m ∈ s.joined)
    (hviewer : (m ∈ s.joined ∧ m ∉ s'.parted) ∨ point.isSome = true → ∀ w,
      s'.dead w = false → s.hasViewer m.room w = true → s'.hasViewer m.room w = true) :
    Agreed s' m point := by
  refine ⟨?_, ?_, h.phase.foreign hkept hforeign hages, ?_, ?_⟩
  · intro g lease hlease hm
    rw [hkept.participants]
    exact h.own g lease (hforeign.leases g lease hlease hm) hm
  · intro lease hmem hm placement hplacement
    rw [hforeign.placements] at hplacement
    exact h.misses lease (hforeign.lingering lease hmem hm) hm placement hplacement
  · intro hneeded transport hreceiver hopen hroute
    rw [hkept.receiver] at hreceiver
    have hjoined := hknown (hreceiver ▸ some_ne_none transport)
    refine hviewer (hneeded.imp_left fun hnot => ⟨hjoined, hnot⟩) _ ?_
      (h.anchored ?_ transport hreceiver (hages.isOpen hopen) hroute)
    · simp only [isOpen, Bool.and_eq_true, Bool.not_eq_true'] at hopen
      exact hopen.1
    · exact hneeded.imp_left fun hnot hmem => hnot (hages.parted m hmem)
  · rintro here route rfl hroute hon hlive
    exact hviewer (.inr rfl) _ hlive (h.bound here route rfl hroute hon (hages.live _ hlive))

end Agreement

theorem Gone.foreign {op : Option (Purpose × Receiving)} (h : Gone s m op)
    (hkept : s.Kept s' m) (hages : s.Ages s') : Gone s' m op where
  parted := hages.parted m h.parted
  replacing expected point hop := hkept.participants.trans (h.replacing expected point hop)
  evicting purpose g hop := hkept.participants.trans (h.evicting purpose g hop)
  receiver := by
    rw [hkept.receiver]
    exact h.receiver

end Others

/-! ## Steps of the participant's own operation -/

section Own

variable {s s' : Server} {m : MediaId} {point : Receiving}

theorem Server.liveViewer_isSome {room : RoomId} {w : WorkerId} :
    (s.liveViewer room w).isSome = true ↔ s.dead w = false ∧ s.hasViewer room w = true := by
  unfold liveViewer hasViewer
  cases s.dead w <;> simp

variable {next : Option Receiving}

theorem Agreed.move (h : Agreed s m (some point)) (hphase : s.Phase m next)
    (hbound : ∀ here route, next = some here → here.route = some route →
      point.route = some route ∨ s.hasViewer m.room route.worker = true ∨
        route.viewer = false) : Agreed s m next := by
  refine ⟨h.own, h.misses, hphase, fun _ => h.anchored (.inr rfl), ?_⟩
  intro here route hnext hroute hviewer hlive
  rcases hbound here route hnext hroute with hold | hthere | hprimary
  · exact h.bound point route rfl hold hviewer hlive
  · exact hthere
  · rw [hprimary] at hviewer
    cases hviewer

theorem Agreed.moveOff (h : Agreed s m (some point)) (hphase : s.Phase m next)
    (hoff : next.bind Receiving.route = none) : Agreed s m next :=
  h.move hphase fun here route hnext hroute => by
    rw [hnext, bind_some, hroute] at hoff
    cases hoff

theorem Agreed.forgot (h : Agreed s m (some point)) (hprimary : s.OnPrimary m)
    (hnext : next = none ∨ ∃ primary, next = some (.choose primary)) :
    Agreed (s.forgetPlacement m) m next := by
  have hnone : (s.forgetPlacement m).placements m = none := by simp [forgetPlacement]
  have hsettled : (s.forgetPlacement m).Settled m := by
    intro transport hreceiver hopen
    have hroute := hprimary transport hreceiver hopen
    simp [workerForParticipant, hnone, Route.place, hroute]
  refine ⟨h.own, ?_, ?_, fun _ => h.anchored (.inr rfl), ?_⟩
  · intro lease _ _ placement hplacement
    rw [hnone] at hplacement
    cases hplacement
  · rcases hnext with rfl | ⟨primary, rfl⟩
    · exact hsettled
    · exact ⟨hsettled, hnone⟩
  · rintro here route hhere hroute
    rcases hnext with rfl | ⟨primary, rfl⟩
    · cases hhere
    · cases hhere
      cases hroute

theorem Agreed.recorded {t : Server} {w : WorkerId} {origin : RouterId}
    (h : Agreed s m (some point)) (hs : s.Valid) (hwrap : s.nextLeaseTicket < 2 ^ 64)
    (hphase : s.Settled m ∧ s.placements m = none) (hsame : s.SameSessions t)
    (hages : s.Ages t)
    (hviewers : ∀ w, s.hasViewer m.room w = true → t.hasViewer m.room w = true)
    (hthere : t.hasViewer m.room w = true) :
    Agreed (t.recordPlacement m w origin) m
      (some (.routed ⟨w, true⟩ (some ⟨m, s.ticket⟩))) := by
  have hticket : s.ticket = s.nextLeaseTicket := Nat.mod_eq_of_lt hwrap
  have hticket' : t.ticket = s.ticket := by simp [ticket, hsame.nextLeaseTicket]
  have hplacement : (t.recordPlacement m w origin).placements m = some ⟨w, s.ticket, origin⟩ := by
    simp [recordPlacement, hticket']
  have hreceiver : (t.recordPlacement m w origin).receiver m = s.receiver m := by
    simp [receiver, recordPlacement, hsame.participants, hsame.sessions]
  have hsessions : (t.recordPlacement m w origin).sessions = s.sessions := hsame.sessions
  refine ⟨?_, ?_, ⟨?_, rfl, ⟨rfl, ⟨_, hplacement, rfl⟩, ?_⟩, ?_⟩, ?_, ?_⟩
  · intro g lease hlease hm
    rw [hsessions] at hlease
    exact (congrFun hsame.participants m).trans (h.own g lease hlease hm)
  · -- tickets that are still around are older than the new one
    intro lease hmem _ placement hnew
    have hold : lease.ticket < s.nextLeaseTicket := by
      refine hs.lingering lease ?_
      rw [← hsame.lingering]
      exact hmem
    rw [hplacement] at hnew
    cases hnew
    change lease.ticket ≠ s.ticket
    omega
  · simp [workerForParticipant, hplacement]
  · intro g other hother _
    rw [hsessions] at hother
    have hold := hs.stored hother
    change other.ticket ≠ s.ticket
    omega
  · intro transport htransport hopen
    rw [hreceiver] at htransport
    have hplace := hphase.1 transport htransport (hages.isOpen hopen)
    rw [workerForParticipant, hphase.2] at hplace
    by_contra hviewer
    simp [Route.place, hviewer] at hplace
  · intro _ transport htransport hopen hviewer
    rw [hreceiver] at htransport
    exact hviewers _ (h.anchored (.inr rfl) transport htransport (hages.isOpen hopen) hviewer)
  · rintro here route ⟨⟩ ⟨⟩ _ _
    exact hthere

variable {route : Route} {lease : Option Lease}

theorem Agreed.opened {retain : Bool} (h : Agreed s m (some (.obtain route lease retain)))
    (hentry : s.participants m = none) :
    Agreed (s.openSession m) m (some (.locking route lease retain s.nextGeneration)) := by
  have hreceiver : (s.openSession m).receiver m = none := by
    simp [receiver, openSession]
  have hnone : ∀ g held, ((s.openSession m).sessions g).lease = some held →
      held.participant = m → False := by
    intro g held hheld hm
    by_cases hg : g = s.nextGeneration
    · simp [openSession, hg] at hheld
    have hold : (s.sessions g).lease = some held := by
      simpa [openSession, hg] using hheld
    have := h.own g held hold hm
    rw [hentry] at this
    cases this
  have hsettled : (s.openSession m).Settled m := by
    intro transport htransport
    rw [hreceiver] at htransport
    cases htransport
  refine ⟨fun g held hheld hm => (hnone g held hheld hm).elim, h.misses,
    ⟨?_, h.phase.2, by simp [openSession]⟩, ?_, ?_⟩
  · have hdirected := h.phase.1
    cases lease with
    | none => exact ⟨hdirected.1, hsettled⟩
    | some =>
      obtain ⟨hworker, hviewer, hholds, -⟩ := hdirected
      refine ⟨hworker, hviewer, ⟨hholds.participant, hholds.placement, ?_⟩, ?_⟩
      · intro g other hother hm
        exact (hnone g other hother hm).elim
      intro transport htransport
      rw [hreceiver] at htransport
      cases htransport
  · intro _ transport htransport
    rw [hreceiver] at htransport
    cases htransport
  · rintro here route' ⟨⟩ ⟨⟩
    exact h.bound _ _ rfl rfl

variable {g : Generation}

theorem Server.receiver_storeTransport (route : Route) (hentry : s.participants m = some g) :
    (s.storeTransport g route).receiver m = some ⟨s.nextTransport, route⟩ := by
  simp [receiver, storeTransport, setSession, hentry]

theorem Server.receiver_setLease (g : Generation) (lease : Option Lease) :
    (s.setLease g lease).receiver m = s.receiver m := by
  unfold receiver
  change (s.participants m).bind _ = _
  congr 1
  funext g'
  by_cases hg : g' = g
  · simp [setLease, setSession, linger, hg]
  · rw [s.setLease_session lease hg]

theorem Server.Directed.stored (h : s.Directed m route lease) (hentry : s.participants m = some g) :
    (s.storeTransport g route).Settled m := by
  intro transport htransport _
  rw [s.receiver_storeTransport route hentry] at htransport
  cases htransport
  cases lease with
  | none => exact h.1
  | some => exact h.1.trans (by simp [Route.place, h.2.1])

theorem Server.Holds.stored {lease : Lease} (h : s.Holds m lease) (g : Generation)
    (route : Route) : (s.storeTransport g route).Holds m lease := by
  refine ⟨h.participant, h.placement, ?_⟩
  intro g' other hother
  rw [s.storeTransport_lease] at hother
  exact h.unique g' other hother

theorem Agreed.stored {retain : Bool} (h : Agreed s m (some (.building route lease retain g))) :
    Agreed (s.storeTransport g route) m (some .confirm) := by
  obtain ⟨hdirected, -, hentry⟩ := h.phase
  refine ⟨?_, h.misses, hdirected.stored hentry, ?_, ?_⟩
  · intro g' held hheld hm
    rw [s.storeTransport_lease] at hheld
    exact h.own g' held hheld hm
  · intro _ transport htransport hopen hviewer
    rw [s.receiver_storeTransport route hentry] at htransport
    cases htransport
    simp only [isOpen, Bool.and_eq_true, Bool.not_eq_true'] at hopen
    exact h.bound _ route rfl rfl hviewer hopen.1
  · rintro here route' ⟨⟩ hroute
    cases hroute

theorem Agreed.leased (h : Agreed s m (some point)) (hsettled : s.Settled m)
    (hentry : s.participants m = some g)
    (hheld : ∀ held, lease = some held → s.Holds m held)
    (hnone : lease = none → s.placements m = none)
    (hnext : next = none ∨ next = some .confirm) :
    Agreed (s.setLease g lease) m next := by
  have hsettled' : (s.setLease g lease).Settled m := by
    intro transport htransport hopen
    rw [s.receiver_setLease] at htransport
    exact hsettled transport htransport hopen
  refine ⟨?_, ?_, ?_, ?_, ?_⟩
  · intro g' held hlease hm
    rcases s.setLease_lease hlease with hold | ⟨rfl, -⟩
    · exact h.own g' held hold hm
    · exact hentry
  · intro old hmem hm placement hplacement
    rcases s.mem_setLease_lingering hmem with hold | hold
    · cases lease with
      | none =>
        have hgone : s.placements m = some placement := hplacement
        rw [hnone rfl] at hgone
        cases hgone
      | some held =>
        obtain ⟨placement', hplacement', hticket⟩ := (hheld held rfl).placement
        have heq : s.placements m = some placement := hplacement
        rw [hplacement'] at heq
        cases heq
        rw [hticket]
        exact (hheld held rfl).unique g old hold hm
    · exact h.misses old hold hm placement hplacement
  · rcases hnext with rfl | rfl <;> exact hsettled'
  · intro _ transport htransport
    rw [s.receiver_setLease] at htransport
    exact h.anchored (.inr rfl) transport htransport
  · rintro here route hhere hroute
    rcases hnext with rfl | rfl
    · cases hhere
    · cases hhere
      cases hroute

theorem Agreed.gaveUp (h : Agreed s m (some point)) (hearly : point.early = true) :
    Agreed (s.dropLocal point.lease) m none := by
  have hquiet : s.Settled m → Agreed s m none := fun hsettled => h.moveOff hsettled rfl
  -- what happens to an operation that is on its way to a route
  have hrouted : ∀ {route lease}, s.Directed m route lease → Agreed (s.dropLocal lease) m none := by
    intro route lease hdirected
    cases lease with
    | none => exact hquiet hdirected.2
    | some lease =>
      obtain ⟨-, -, hholds, hprimary⟩ := hdirected
      obtain ⟨placement, hplacement, hticket⟩ := hholds.placement
      have hdrop : s.dropLease lease = s.forgetPlacement m := by
        simp [dropLease, hholds.participant, hplacement, hticket]
      change Agreed (s.dropLease lease) m none
      rw [hdrop]
      exact h.forgot hprimary (.inl rfl)
  have hphase := h.phase
  cases point with
  | start | replay | primary | placed => exact hquiet hphase
  | lookup | forget | choose | enter | creating => exact hquiet hphase.1
  | routed => exact hrouted hphase
  | obtain | locking | building => exact hrouted hphase.1
  | attach | attaching | confirm | evict => cases hearly

theorem Gone.taken (hparted : m ∈ s.parted) (op : Option (Purpose × Receiving)) :
    Gone (s.takeEntry m) m op := by
  have hnone : (s.takeEntry m).participants m = none := by simp [Server.takeEntry]
  refine ⟨hparted, fun _ _ _ => hnone, fun _ _ _ => hnone, .inl ?_⟩
  simp [Server.receiver, hnone]

variable {free : Lock → Bool} {purpose : Purpose} {next : Option Receiving}

theorem Agreed.receives (h : Agreed s m (some point))
    (hr : Receives s free m purpose point s' next) (hs : s.Valid)
    (hwrap : s.nextLeaseTicket < 2 ^ 64) (hjoined : m ∈ s.joined) :
    Agreed s' m next ∨ Gone s' m (next.map fun point => (purpose, point)) := by
  have hphase := h.phase
  cases hr with
  | gaveUp hearly => exact .inl (h.gaveUp hearly)
  | begun _ hnext => rcases hnext with rfl | rfl <;> exact .inl (h.moveOff hphase rfl)
  | remembered hplacement =>
    refine .inl (h.moveOff ⟨hphase, ?_⟩ rfl)
    simp [workerForParticipant, hplacement]
  | unplaced hplacement => exact .inl (h.moveOff ⟨hphase, hplacement⟩ rfl)
  | @returned _ w hviewer =>
    refine .inl (h.move ⟨hphase.2, hphase.1⟩ ?_)
    rintro here route ⟨⟩ ⟨⟩
    exact .inr (.inl (liveViewer_isSome.mp hviewer).2)
  | @lost _ w hviewer =>
    refine .inl (h.moveOff ⟨hphase.1, ?_⟩ rfl)
    -- the viewer router of an open transport would have been found
    intro transport htransport hopen
    by_contra hroute
    have hon : transport.route.viewer = true := by simpa using hroute
    have hplace := hphase.1 transport htransport hopen
    rw [hphase.2, Route.place, if_pos hon, Option.some.injEq] at hplace
    have hthere := h.anchored (.inr rfl) transport htransport hopen hon
    simp only [isOpen, Bool.and_eq_true, Bool.not_eq_true'] at hopen
    have hlive := liveViewer_isSome.mpr ⟨hopen.1, hthere⟩
    rw [← hplace, hviewer] at hlive
    cases hlive
  | forgot => exact .inl (h.forgot hphase.2 (.inr ⟨_, rfl⟩))
  | stayed =>
    refine .inl (h.move ⟨?_, hphase.1⟩ ?_)
    · simp [workerForParticipant, hphase.2, Route.place]
    · rintro here route ⟨⟩ ⟨⟩
      exact .inr (.inr rfl)
  | shared hviewer =>
    exact .inl (h.recorded hs hwrap hphase ⟨rfl, rfl, rfl, rfl, rfl⟩
      ⟨fun _ => id, fun _ => id, fun _ => id⟩ (fun _ => id)
      (liveViewer_isSome.mp hviewer).2)
  | created =>
    exact .inl (h.recorded hs hwrap hphase ⟨rfl, rfl, rfl, rfl, rfl⟩
      ⟨fun _ => id, fun _ => id, fun _ => id⟩
      (fun _ hthere => s.insertViewer_hasViewer (.inl hthere))
      (s.insertViewer_hasViewer (.inr ⟨rfl, rfl⟩)))
  | @routed route lease retain hretain =>
    refine .inl (h.move ⟨hphase, ?_⟩ ?_)
    · rintro rfl
      have hworker : s.workerForParticipant m = route.place := hphase.1
      rw [hworker] at hretain
      cases hviewer : route.viewer <;> simpa [Route.place, hviewer] using hretain
    · rintro here route' ⟨⟩ ⟨⟩
      exact .inl rfl
  | obtained hentry =>
    refine .inl (h.move ⟨hphase.1, hphase.2, hentry⟩ ?_)
    rintro here route' ⟨⟩ ⟨⟩
    exact .inl rfl
  | opened _ hentry => exact .inl (h.opened hentry)
  | locked =>
    refine .inl (h.move hphase ?_)
    rintro here route' ⟨⟩ ⟨⟩
    exact .inl rfl
  | @installed route lease _ g _ _ hentry =>
    have hstored := h.stored
    cases lease with
    | none => exact .inl hstored
    | some =>
      obtain ⟨⟨-, -, hholds, -⟩, -⟩ := hphase
      refine .inl (hstored.moveOff ⟨hstored.phase, hholds.stored g route, ?_⟩ rfl)
      exact hentry ▸ some_ne_none g
  | @replaced route lease retain g _ _ _ hentry =>
    have hstored := h.stored
    obtain ⟨hdirected, hretain, -⟩ := hphase
    cases lease with
    | some =>
      refine .inl (hstored.leased hstored.phase hentry ?_ (by simp) (.inl rfl))
      rintro held ⟨⟩
      exact hdirected.2.2.1.stored g route
    | none =>
      cases retain with
      | true => exact .inl (hstored.moveOff hstored.phase rfl)
      | false =>
        refine .inl (hstored.leased hstored.phase hentry (by simp) ?_ (.inl rfl))
        intro _
        have hworker := hdirected.1
        rw [Route.place, ← hretain rfl] at hworker
        exact map_eq_none_iff.mp hworker
  | attaching hentry => exact .inl (h.moveOff ⟨hphase.1, hphase.2.1, hentry⟩ rfl)
  | detached hentry => exact absurd hentry hphase.2.2
  | attached hentry =>
    refine .inl (h.leased hphase.1 hentry ?_ (by simp) (.inr rfl))
    rintro held ⟨⟩
    exact hphase.2.1
  | orphaned hentry => exact absurd hphase.2.2 hentry
  | evicting hmember =>
    refine .inr (Gone.taken ?_ _)
    simpa [isMember, hjoined] using hmember
  | evicted => exact hphase.elim
  | _ => exact .inl (h.moveOff hphase rfl)

theorem Gone.goOn (h : Gone s m (some (purpose, point)))
    (hparted : s'.parted = s.parted) (hparticipants : s'.participants = s.participants)
    (hreceiver : s'.receiver m = s.receiver m) (hevict : ∀ g, next ≠ some (.evict g))
    (hlate : point.early = true ∨ ∃ after, next = some after ∧ after.early = false) :
    Gone s' m (next.map fun point => (purpose, point)) := by
  refine ⟨hparted ▸ h.parted, ?_, ?_, ?_⟩
  · intro expected after hop
    obtain ⟨_, -, heq⟩ := map_eq_some_iff.mp hop
    cases heq
    rw [hparticipants]
    exact h.replacing expected point rfl
  · intro purpose' g hop
    obtain ⟨_, hnext, heq⟩ := map_eq_some_iff.mp hop
    cases heq
    exact absurd hnext (hevict g)
  · rw [hreceiver]
    rcases h.receiver with hnone | ⟨point', heq, hpoint⟩
    · exact .inl hnone
    cases heq
    rcases hlate with hearly | ⟨after, rfl, hafter⟩
    · rw [hpoint] at hearly
      cases hearly
    · exact .inr ⟨after, rfl, hafter⟩

theorem Server.SameSessions.receiver (h : s.SameSessions s') : s'.receiver m = s.receiver m := by
  simp [Server.receiver, h.participants, h.sessions]

theorem Gone.receives (h : Gone s m (some (purpose, point)))
    (hr : Receives s free m purpose point s' next) :
    Gone s' m (next.map fun point => (purpose, point)) := by
  obtain ⟨-, -, hparted⟩ := hr.surroundings
  cases hr with
  | gaveUp hearly =>
    have hsame : s.SameSessions (s.dropLocal point.lease) := by
      cases point.lease with
      | none => exact ⟨rfl, rfl, rfl, rfl, rfl⟩
      | some lease => exact s.dropLease_sessions lease
    exact h.goOn hparted hsame.participants hsame.receiver (by simp) (.inl hearly)
  | begun _ hnext => rcases hnext with rfl | rfl <;> exact h.goOn rfl rfl rfl (by simp) (.inl rfl)
  | opened hpurpose =>
    refine ⟨h.parted, ?_, by simp, .inl (by simp [Server.receiver, Server.openSession])⟩
    rintro expected after ⟨⟩
    cases hpurpose
  | @installed _ lease _ _ hpurpose =>
    subst hpurpose
    refine ⟨h.parted, by simp, ?_, .inr ⟨.afterStore lease, rfl, ?_⟩⟩
    · cases lease <;> rintro _ _ ⟨⟩
    · cases lease <;> rfl
  | replaced hpurpose _ hentry =>
    subst hpurpose
    have hnone := h.replacing _ _ rfl
    rw [hentry] at hnone
    cases hnone
  | attaching | orphaned => exact h.goOn rfl rfl rfl (by simp) (.inr ⟨_, rfl, rfl⟩)
  | detached =>
    have hsame := s.dropLease_sessions
    exact h.goOn hparted (hsame _).participants (hsame _).receiver (by simp) (.inr ⟨_, rfl, rfl⟩)
  | attached => exact h.goOn rfl rfl (s.receiver_setLease _ _) (by simp) (.inr ⟨_, rfl, rfl⟩)
  | confirmed hmember =>
    have hnone : s.participants m = none := by
      refine hmember.resolve_left ?_
      simp [Server.isMember, h.parted]
    exact ⟨h.parted, by simp, by simp, .inl (by simp [Server.receiver, hnone])⟩
  | evicting => exact Gone.taken h.parted _
  | evicted =>
    have hnone := h.evicting _ _ rfl
    refine ⟨h.parted, by simp, by simp, .inl ?_⟩
    simp [Server.receiver, Server.closeSession, Server.setSession, Server.linger, hnone]
  | _ => exact h.goOn rfl rfl rfl (by simp) (.inl rfl)

end Own

/-! ## The invariant -/

/-- The participant has not joined yet, or has left with no creation or replacement in
progress. -/
def away (m : MediaId) (c : MediaConfig) : Bool :=
  m ∉ c.shared.joined || (m ∈ c.shared.parted && (inProgress c m).isNone)

/-- The viewer routers of the participant's room are removed while the participant is away,
and fewer than `2 ^ 64` leases have been issued. -/
def clearsWhileAway (m : MediaId) (c : MediaConfig) : MediaAction → Bool
  | .start _ => true
  | .advance t _ =>
    c.shared.nextLeaseTicket < 2 ^ 64 &&
      match c.task t with
      | some (.closeRouter room .viewers) => room ≠ m.room || away m c
      | _ => true

structure Followed (m : MediaId) (c : MediaConfig) : Prop where
  sound : Sound c
  each : Agreed c.shared m ((inProgress c m).map (·.2)) ∨ Gone c.shared m (inProgress c m)

namespace Followed

variable {c d : MediaConfig} {m : MediaId}

theorem start : Followed m mediaStart := by
  refine ⟨Sound.start, .inl ?_⟩
  exact ⟨nofun, nofun, nofun, nofun, nofun⟩

theorem launch (h : Followed m c) {k : Task} (hk : Task.initial k = true) :
    Followed m (c.launch k) := by
  have hsame : inProgress (c.launch k) m = inProgress c m := by
    apply Option.ext
    rintro ⟨purpose, point⟩
    rw [inProgress_eq_some (h.sound.launch hk).coherent, inProgress_eq_some h.sound.coherent]
    refine and_congr_right fun hpoint => ?_
    constructor
    · rintro ⟨t, ht⟩
      rcases (Protocol.task_launch h.sound.coherent).mp ht with ⟨-, rfl⟩ | hold
      · cases point with
        | start => exact absurd rfl hpoint
        | _ => cases hk
      · exact ⟨t, hold⟩
    · rintro ⟨t, ht⟩
      exact ⟨t, (Protocol.task_launch h.sound.coherent).mpr (.inr ht)⟩
  refine ⟨h.sound.launch hk, ?_⟩
  rw [hsame]
  exact h.each

section Advance

variable {t : ℕ} {k : Task} {choice : Choice} {o : Result}

theorem own (h : Followed m c) {purpose : Purpose} {point : Receiving}
    (ha : media.Acts c t (.receive m purpose point) choice o)
    (hwrap : c.shared.nextLeaseTicket < 2 ^ 64) :
    Agreed o.shared m
        ((inProgress (media.apply c t (.receive m purpose point) o) m).map (·.2)) ∨
      Gone o.shared m (inProgress (media.apply c t (.receive m purpose point) o) m) := by
  have hcoherent := h.sound.coherent
  obtain ⟨next, ho, hr⟩ := receiveAct_cases ha.acted
  have hself : o.self = next.map (Task.receive m purpose) := by rw [ho]
  clear ho
  obtain ⟨shared, self, spawned⟩ := o
  by_cases hpoint : point = .start
  · subst hpoint
    cases hr with
    | gaveUp =>
      rw [inProgress_foreign hcoherent ha ?_]
      · exact h.each
      · rintro purpose' point' ⟨⟩
        exact ⟨rfl, hself⟩
    | @begun after hmember hafter =>
      have hlate : after ≠ .start := by rcases hafter with rfl | rfl <;> simp
      rw [inProgress_own hcoherent ha hself (fun heq => hlate (Option.some.inj heq))
        (.inr (by simp))]
      have hidle := inProgress_of_begun ha hself hlate
      have heach := h.each
      rw [hidle] at heach
      -- who may begin has not left
      rcases heach with hagreed | hgone
      · have hpresent : m ∉ c.shared.parted := by
          simp only [isMember, Bool.and_eq_true, decide_eq_true_eq] at hmember
          exact hmember.2
        refine .inl ⟨hagreed.own, hagreed.misses, ?_, fun _ => hagreed.anchored (.inl hpresent), ?_⟩
        · rcases hafter with rfl | rfl <;> exact hagreed.phase
        · rcases hafter with rfl | rfl <;> rintro _ _ ⟨⟩ ⟨⟩
      · simp [isMember, hgone.parted] at hmember
  · have hbefore : inProgress c m = some (purpose, point) :=
      (inProgress_eq_some hcoherent).mpr ⟨hpoint, t, ha.running⟩
    rw [inProgress_own hcoherent ha hself hr.next_ne_start (.inl hpoint)]
    have heach := h.each
    rw [hbefore] at heach
    rcases heach with hagreed | hgone
    · have hjoined := h.sound.present ha.running hpoint
      have hnext : (next.map fun point => (purpose, point)).map (·.2) = next := by
        cases next <;> rfl
      rw [hnext]
      exact hagreed.receives hr h.sound.valid hwrap hjoined
    · exact .inr (hgone.receives hr)

theorem other (h : Followed m c) (ha : media.Acts c t k choice o)
    (hclears : k = .closeRouter m.room .viewers → away m c = true)
    (hk : ∀ purpose point, k ≠ .receive m purpose point) :
    Agreed o.shared m ((inProgress c m).map (·.2)) ∨ Gone o.shared m (inProgress c m) := by
  obtain ⟨-, hmoves⟩ := act_moves ha.acted
  by_cases hconcerns : k.concerns = some m
  · -- the participant's entry is taken
    have htake : k = .remove m .take := by
      cases k with
      | receive m' purpose point =>
        cases hconcerns
        exact absurd rfl (hk purpose point)
      | remove m' point =>
        cases point with
        | take =>
          cases hconcerns
          rfl
        | evict => cases hconcerns
      | _ => cases hconcerns
    subst htake
    revert hmoves
    generalize o.shared = s', o.self = next
    intro hmoves
    cases hmoves with
    | taken hparted => exact .inr (Gone.taken hparted _)
    | absent => exact h.each
  · have hevicts : ∀ g, k.evicts = some g → ∀ m, c.shared.participants m ≠ some g :=
      fun g hg => (h.sound.evicting ha.running hg).2
    have hkept := hmoves.change.kept h.sound.valid hconcerns hevicts
    have hages := hmoves.ages
    rcases h.each with hagreed | hgone
    · have hforeign := hmoves.change.foreign h.sound.valid hconcerns hevicts
        (fun lease hlease => (h.sound.carried ha.running hlease).1) hagreed.own
        hagreed.misses
      have hknown : c.shared.receiver m ≠ none → m ∈ c.shared.joined := by
        intro hreceiver
        cases hentry : c.shared.participants m with
        | none => simp [receiver, hentry] at hreceiver
        | some => exact h.sound.known hentry
      refine .inl (hagreed.foreign hkept hforeign hages hknown ?_)
      intro hneeded w hlive hthere
      by_cases hroom : k = .closeRouter m.room .viewers
      · -- the participant cannot ask for the viewer routers
        have hjoined : m ∈ c.shared.joined := by
          rcases hneeded with ⟨hjoined, -⟩ | hsome
          · exact hjoined
          obtain ⟨point, hpoint⟩ := isSome_iff_exists.mp hsome
          obtain ⟨⟨purpose, _⟩, hop, rfl⟩ := map_eq_some_iff.mp hpoint
          obtain ⟨hpast, u, hu⟩ := (inProgress_eq_some h.sound.coherent).mp hop
          exact h.sound.present hu hpast
        have hall := hclears hroom
        simp only [away, hjoined, not_true_eq_false, decide_false, Bool.false_or,
          Bool.and_eq_true, decide_eq_true_eq, isNone_iff_eq_none] at hall
        rcases hneeded with ⟨-, hpresent⟩ | hsome
        · exact absurd (hages.parted m hall.1) hpresent
        · rw [hall.2] at hsome
          cases hsome
      · exact hmoves.hasViewer hroom hlive hthere
    · exact .inr (hgone.foreign hkept hages)

theorem advance (h : Followed m c) (ha : media.Acts c t k choice o)
    (hwrap : c.shared.nextLeaseTicket < 2 ^ 64)
    (hclears : k = .closeRouter m.room .viewers → away m c = true) :
    Followed m (media.apply c t k o) := by
  refine ⟨h.sound.advance ha, ?_⟩
  by_cases hk : ∃ purpose point, k = .receive m purpose point
  · obtain ⟨purpose, point, rfl⟩ := hk
    exact h.own ha hwrap
  push Not at hk
  rw [inProgress_foreign h.sound.coherent ha
    fun purpose point heq => absurd heq (hk purpose point)]
  exact h.other ha hclears hk

end Advance

theorem step {a : MediaAction} (h : Followed m c) (hclears : clearsWhileAway m c a = true)
    (hstep : media.step c a = some d) : Followed m d := by
  cases a with
  | start =>
    obtain ⟨hk, rfl⟩ := media.step_start_eq_some.mp hstep
    exact h.launch hk
  | advance =>
    obtain ⟨k, o, ha, rfl⟩ := media.step_advance_eq_some.mp hstep
    simp only [clearsWhileAway, ha.running, Bool.and_eq_true, decide_eq_true_eq] at hclears
    refine h.advance ha hclears.1 ?_
    rintro rfl
    simpa using hclears.2

end Followed

/-! ## Runs -/

/-- In every run in which the viewer routers of a participant's room are removed only before
the participant has joined, or after it has left and has no creation or replacement in
progress, and in which fewer than `2 ^ 64` leases are issued: whenever the participant has
an open receive transport and no creation or replacement in progress, its placement names
the transport's worker if the transport was built on a viewer router, and is absent if it
was built on the primary router. -/
theorem placement_agrees {actions : List MediaAction} {c : MediaConfig} {m : MediaId}
    (hclears : RunMeets media.step (fun c a => clearsWhileAway m c a = true)
      mediaStart actions)
    (hrun : run media.step mediaStart actions = some c)
    {transport : Transport} (hreceiver : c.shared.receiver m = some transport)
    (hopen : c.shared.isOpen transport = true) (hidle : inProgress c m = none) :
    c.shared.workerForParticipant m = transport.route.place := by
  have h : Followed m c :=
    run_invariant (fun _ _ _ hx ha hstep => hx.step ha hstep) Followed.start hclears hrun
  have heach := h.each
  rw [hidle] at heach
  rcases heach with hagreed | hgone
  · exact hagreed.phase transport hreceiver hopen
  rcases hgone.receiver with hnone | ⟨point, hpoint, -⟩
  · rw [hreceiver] at hnone
    cases hnone
  · cases hpoint

/-! ### Samples -/

/-- A viewer asks for a second receiver and leaves, and the room closes meanwhile. -/
def asksAgain : List MediaAction :=
  roomOpens 0 ⟨0, 0⟩ ++ isPlaced 2 ⟨0, 0⟩ true ++
    performs 4 (.receive ⟨0, 0⟩ .create .start) [.go, .go, .go] ++
    performs 5 (.event (.part ⟨0, 0⟩)) [.go] ++ roomCloses 6 ++
    List.replicate 6 (.advance 4 .go)

/-- The receiver is open on a viewer router, nothing is in progress, and the placement
is gone. -/
theorem asksAgain_unplaced : ∃ c transport, run media.step mediaStart asksAgain = some c ∧
      c.shared.receiver ⟨0, 0⟩ = some transport ∧ c.shared.isOpen transport = true ∧
      inProgress c ⟨0, 0⟩ = none ∧ transport.route.place = some 1 ∧
      c.shared.workerForParticipant ⟨0, 0⟩ = none := by
  have h : ((run media.step mediaStart asksAgain).any fun c =>
      (c.shared.receiver ⟨0, 0⟩).any fun transport =>
        decide (c.shared.isOpen transport = true ∧ inProgress c ⟨0, 0⟩ = none ∧
          transport.route.place = some 1 ∧
          c.shared.workerForParticipant ⟨0, 0⟩ = none)) = true := by
    decide +kernel
  obtain ⟨c, hrun, hc⟩ := (any_eq_true _ _).mp h
  obtain ⟨transport, hreceiver, hall⟩ := (any_eq_true _ _).mp hc
  exact ⟨c, transport, hrun, hreceiver, of_decide_eq_true hall⟩

/-- In the next incarnation of that room another viewer is placed, its worker dies, its
receiver is replaced on another worker, and the lease of its first placement is dropped
late. -/
def movesOn : List MediaAction :=
  asksAgain ++ roomOpens 7 ⟨0, 1⟩ ++ isPlaced 9 ⟨0, 1⟩ true ++
    performs 11 (.event (.die 1)) [.go] ++
    performs 12 (.receive ⟨0, 1⟩ (.replace 1) .start)
      (List.replicate 6 .go ++ [.reserve 2] ++ List.replicate 6 .go) ++
    performs 13 (.event (.dropLease ⟨⟨0, 1⟩, 2⟩)) [.go]

theorem movesOn_agrees : ∃ c transport, run media.step mediaStart movesOn = some c ∧
      c.shared.receiver ⟨0, 1⟩ = some transport ∧ transport.route = ⟨2, true⟩ ∧
      c.shared.workerForParticipant ⟨0, 1⟩ = transport.route.place := by
  have h : ((run media.step mediaStart movesOn).any fun c =>
      (inProgress c ⟨0, 1⟩).isNone &&
        (c.shared.receiver ⟨0, 1⟩).any fun transport =>
          decide (transport.route = ⟨2, true⟩) && c.shared.isOpen transport) = true := by
    decide +kernel
  obtain ⟨c, hrun, hc⟩ := (any_eq_true _ _).mp h
  obtain ⟨hidle, hreceiver⟩ := Bool.and_eq_true_iff.mp hc
  obtain ⟨transport, hreceiver, htransport⟩ := (any_eq_true _ _).mp hreceiver
  obtain ⟨hroute, hopen⟩ := Bool.and_eq_true_iff.mp htransport
  have hclears : RunMeets media.step (fun c a => clearsWhileAway ⟨0, 1⟩ c a = true)
      mediaStart movesOn := by
    decide +kernel
  refine ⟨c, transport, hrun, hreceiver, of_decide_eq_true hroute, ?_⟩
  exact placement_agrees hclears hrun hreceiver hopen (isNone_iff_eq_none.mp hidle)

end SimplestChat.Media
