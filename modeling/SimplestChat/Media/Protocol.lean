import SimplestChat.Support.Interleaving

/-!
# Routers, viewers and receive transports

A room has one primary router. When its worker is busy, new viewers receive from
a viewer router of the room on another worker, fed by pipes from the primary one.
Where a viewer was placed is recorded under its media ID, and the record lives as
long as the lease that came with it.

The router table, the viewer routers, the placements and the media sessions are
behind four different locks. Every operation on them is a task here, and a program
point is a place where the source awaits. A lock that a task keeps across points is
named by them; the viewer table stays locked while a viewer router or a pipe is
created, a media session while a transport is built in it. `dispatch` is not a lock
of the source: a connection handles one message at a time, so a member has at most
one creation or replacement in progress.

A `Choice` is what the surroundings decide: which worker is the least loaded, whether
native work succeeds.
-/

namespace SimplestChat.Media

open Option Function Interleaving

/-! ## Names -/

abbrev RoomId := ℕ
abbrev WorkerId := ℕ
abbrev RouterId := ℕ
abbrev ProducerId := ℕ
abbrev TransportId := ℕ
abbrev Generation := ℕ

/-- `media_participant_id`: a room and a membership's own media session. -/
structure MediaId where
  room : RoomId
  session : ℕ
deriving DecidableEq

/-! ## The router manager -/

/-- A registered router. Its ID stands for the room's incarnation. The entry owns
the load reservation of its worker, which is released with it. -/
structure RouterInfo where
  router : RouterId
  worker : WorkerId
deriving DecidableEq

structure ViewerRouter where
  router : RouterId
  origin : RouterId
deriving DecidableEq

structure Pipe where
  producer : ProducerId
  worker : WorkerId
  origin : RouterId
deriving DecidableEq

structure ViewerRouters where
  byWorker : WorkerId → Option ViewerRouter
  pipes : List Pipe

def ViewerRouters.empty : ViewerRouters := ⟨fun _ => none, []⟩

/-- Where a participant's receive transport lives, off the primary router, and the
ticket of the lease that recorded it. -/
structure Placement where
  worker : WorkerId
  ticket : ℕ
  /-- the primary router for which the place was chosen -/
  origin : RouterId
deriving DecidableEq

/-- `ViewerLease`. -/
structure Lease where
  participant : MediaId
  ticket : ℕ
deriving DecidableEq

/-- A router that `place_viewer` chose: the primary one, or the viewer router on a
worker. -/
structure Route where
  worker : WorkerId
  viewer : Bool
deriving DecidableEq

/-! ## The transport manager -/

structure Transport where
  id : TransportId
  route : Route
deriving DecidableEq

/-- The receiving half of `ParticipantMedia`. -/
structure Session where
  recv : Option Transport
  lease : Option Lease
deriving DecidableEq

structure Server where
  routers : RoomId → Option RouterInfo
  nextRouter : RouterId
  viewers : RoomId → ViewerRouters
  placements : MediaId → Option Placement
  nextLeaseTicket : ℕ
  /-- leases that nothing holds any more and that are about to be dropped -/
  lingering : List Lease
  participants : MediaId → Option Generation
  nextGeneration : Generation
  sessions : Generation → Session
  nextTransport : TransportId
  /-- the media sessions of all memberships so far, and of those that have ended -/
  joined : List MediaId
  parted : List MediaId
  dead : WorkerId → Bool
  closedTransports : TransportId → Bool
  closedProducers : ProducerId → Bool

namespace Server

variable (s : Server)

/-- `is_current_media_session`. -/
def isMember (m : MediaId) : Bool := m ∈ s.joined && m ∉ s.parted

def isOpen (transport : Transport) : Bool :=
  !s.dead transport.route.worker && !s.closedTransports transport.id

def pipeOpen (pipe : Pipe) : Bool :=
  !s.closedProducers pipe.producer && !s.dead pipe.worker

def liveViewer (room : RoomId) (w : WorkerId) : Option ViewerRouter :=
  if s.dead w then none else (s.viewers room).byWorker w

/-- `worker_for_participant`. -/
def workerForParticipant (m : MediaId) : Option WorkerId := (s.placements m).map (·.worker)

def ticket : ℕ := s.nextLeaseTicket % 2 ^ 64

/-- `record_placement`. -/
def recordPlacement (m : MediaId) (w : WorkerId) (origin : RouterId) : Server := { s with
    placements := update s.placements m (some ⟨w, s.ticket, origin⟩)
    nextLeaseTicket := s.nextLeaseTicket + 1 }

def forgetPlacement (m : MediaId) : Server := { s with placements := update s.placements m none }

/-- `ViewerLease::drop`. -/
def dropLease (lease : Lease) : Server :=
  if (s.placements lease.participant).any (·.ticket = lease.ticket) then
    s.forgetPlacement lease.participant
  else s

def dropLocal : Option Lease → Server
  | none => s
  | some lease => s.dropLease lease

def insertViewer (room : RoomId) (w : WorkerId) (origin : RouterId) : Server := { s with
    nextRouter := s.nextRouter + 1
    viewers := update s.viewers room
      { s.viewers room with
        byWorker := update (s.viewers room).byWorker w
          (some ⟨s.nextRouter, origin⟩) } }

def insertPipe (room : RoomId) (pipe : Pipe) : Server := { s with
    viewers := update s.viewers room
      { s.viewers room with
        pipes := pipe :: (s.viewers room).pipes.filter fun other =>
          s.pipeOpen other &&
            (other.producer, other.worker) ≠ (pipe.producer, pipe.worker) } }

def dropPipe (room : RoomId) (producer : ProducerId) (w : WorkerId) : Server := { s with
    viewers := update s.viewers room
      { s.viewers room with
        pipes := (s.viewers room).pipes.filter fun other =>
          (other.producer, other.worker) ≠ (producer, w) } }

def removeViewers (room : RoomId) : Server := { s with viewers := update s.viewers room .empty }

/-- `drop_viewer_routers_on_worker`. -/
def dropViewerRoutersOnWorker (w : WorkerId) : Server := { s with
    viewers := fun room =>
      { byWorker := update (s.viewers room).byWorker w none
        pipes := (s.viewers room).pipes.filter fun pipe => pipe.worker ≠ w } }

def setSession (g : Generation) (session : Session) : Server :=
  { s with sessions := update s.sessions g session }

def linger (lease : Option Lease) : Server := { s with lingering := lease.toList ++ s.lingering }

/-- `get_or_create_participant`, for a participant without an entry. -/
def openSession (m : MediaId) : Server := { s with
    participants := update s.participants m (some s.nextGeneration)
    nextGeneration := s.nextGeneration + 1
    sessions := update s.sessions s.nextGeneration ⟨none, none⟩ }

def takeEntry (m : MediaId) : Server := { s with participants := update s.participants m none }

/-- `close_all`, as far as receiving goes. -/
def closeSession (g : Generation) : Server :=
  (s.setSession g ⟨none, none⟩).linger (s.sessions g).lease

def setLease (g : Generation) (lease : Option Lease) : Server :=
  (s.setSession g { s.sessions g with lease }).linger (s.sessions g).lease

def storeTransport (g : Generation) (route : Route) : Server :=
  { s.setSession g { s.sessions g with recv := some ⟨s.nextTransport, route⟩ } with
    nextTransport := s.nextTransport + 1 }

end Server

/-! ## Tasks -/

inductive Lock where
  | dispatch (m : MediaId)
  | viewers
  | session (g : Generation)
deriving DecidableEq

inductive Purpose where
  | create
  | replace (expected : TransportId)
deriving DecidableEq

/-- `create_recv_transport` and `replace_recv_transport` of the room manager. -/
inductive Receiving where
  | start
  /-- a replacement looks at the transport it is to replace -/
  | replay
  | primary
  | placed (primary : RouterInfo)
  | lookup (primary : RouterInfo) (w : WorkerId)
  | forget (primary : RouterInfo)
  | choose (primary : RouterInfo)
  | enter (primary : RouterInfo) (w : WorkerId)
  /-- the viewer router is being created, under the lock of the table -/
  | creating (primary : RouterInfo) (w : WorkerId)
  | routed (route : Route) (lease : Option Lease)
  | obtain (route : Route) (lease : Option Lease) (retain : Bool)
  | locking (route : Route) (lease : Option Lease) (retain : Bool) (g : Generation)
  /-- the transport is being built, under the lock of the session -/
  | building (route : Route) (lease : Option Lease) (retain : Bool) (g : Generation)
  | attach (lease : Lease)
  | attaching (lease : Lease) (g : Generation)
  | confirm
  | evict (g : Generation)
deriving DecidableEq

/-- `remove_participant` of the transport manager. -/
inductive Removing where
  | take
  | evict (g : Generation)
deriving DecidableEq

/-- `create_router`. -/
inductive Opening where
  | check
  | create
  | register (info : RouterInfo)
deriving DecidableEq

/-- `remove_router`. -/
inductive Closing where
  | primary
  | viewers
deriving DecidableEq

/-- `ensure_piped`. -/
inductive Piping where
  | placement
  | primary (w : WorkerId)
  | target (w : WorkerId) (primary : RouterInfo)
  /-- the pipe is being created, under the lock of the table -/
  | create (w : WorkerId) (primary : RouterInfo)
deriving DecidableEq

inductive Event where
  | join (m : MediaId)
  | part (m : MediaId)
  | die (w : WorkerId)
  | recover (w : WorkerId)
  | closeTransport (id : TransportId)
  | closeProducer (producer : ProducerId)
  | dropLease (lease : Lease)
deriving DecidableEq

inductive Task where
  | receive (m : MediaId) (purpose : Purpose) (point : Receiving)
  | remove (m : MediaId) (point : Removing)
  | openRouter (room : RoomId) (point : Opening)
  | closeRouter (room : RoomId) (point : Closing)
  | pipe (m : MediaId) (producer : ProducerId) (point : Piping)
  | event (event : Event)
deriving DecidableEq

inductive Choice where
  | go
  /-- the least loaded worker -/
  | reserve (w : WorkerId)
  /-- native work fails, a budget is spent, a bounded wait is over -/
  | fail
deriving DecidableEq

def Receiving.guards (m : MediaId) : Receiving → List Lock
  | .start => []
  | .creating _ _ => [.dispatch m, .viewers]
  | .building _ _ _ g => [.dispatch m, .session g]
  | _ => [.dispatch m]

def Task.guards : Task → List Lock
  | .receive m _ point => point.guards m
  | .pipe _ _ (.create _ _) => [.viewers]
  | _ => []

def Task.initial : Task → Bool
  | .receive _ _ .start | .remove _ .take | .openRouter _ .check
  | .closeRouter _ .primary | .pipe _ _ .placement | .event _ => true
  | _ => false

/-! ## Actions -/

abbrev Result := Outcome Server Task

def goOn (s : Server) (k : Task) : Option Result := some ⟨s, some k, none⟩

def finish (s : Server) : Option Result := some ⟨s, none, none⟩

section Receive

variable (s : Server) (free : Lock → Bool) (m : MediaId) (purpose : Purpose)

/-- The session must not hold an open receiver already, or must hold the one that
is to be replaced. -/
def Server.mayBuild (session : Session) : Purpose → Bool
  | .create => !session.recv.any s.isOpen
  | .replace expected => session.recv.any fun transport => transport.id = expected

def installTransport (route : Route) (lease : Option Lease) (retain : Bool)
    (g : Generation) : Option Result :=
  let stored := s.storeTransport g route
  match purpose with
  | .create =>
    goOn stored (.receive m purpose
      (match lease with
        | some lease => .attach lease
        | none => .confirm))
  | .replace _ =>
    finish (match lease with
      | some lease => stored.setLease g (some lease)
      | none => if retain then stored else stored.setLease g none)

def receiveAct (point : Receiving) (choice : Choice) : Option Result :=
  let continueAt (s : Server) (point : Receiving) := goOn s (.receive m purpose point)
  match point, choice with
  | .start, .go =>
    if s.isMember m then
      continueAt s (if purpose = .create then .primary else .replay)
    else finish s
  | .replay, .go =>
    match s.participants m with
    | none => finish s
    | some g =>
      if free (.session g) then
        if s.mayBuild (s.sessions g) purpose then continueAt s .primary else finish s
      else none
  | .primary, .go =>
    match s.routers m.room with
    | none => finish s
    | some info => continueAt s (.placed info)
  | .placed primary, .go =>
    match s.workerForParticipant m with
    | some w => continueAt s (.lookup primary w)
    | none => continueAt s (.choose primary)
  | .lookup primary w, .go =>
    if free .viewers then
      if (s.liveViewer m.room w).isSome then continueAt s (.routed ⟨w, true⟩ none)
      else continueAt s (.forget primary)
    else none
  | .forget primary, .go => continueAt (s.forgetPlacement m) (.choose primary)
  | .choose primary, .go => continueAt s (.routed ⟨primary.worker, false⟩ none)
  | .choose primary, .reserve w =>
    if w = primary.worker then continueAt s (.routed ⟨primary.worker, false⟩ none)
    else continueAt s (.enter primary w)
  | .choose _, .fail => finish s
  | .enter primary w, .go =>
    if free .viewers then
      if (s.liveViewer m.room w).isSome then
        continueAt (s.recordPlacement m w primary.router)
          (.routed ⟨w, true⟩ (some ⟨m, s.ticket⟩))
      else continueAt s (.creating primary w)
    else none
  | .creating primary w, .go =>
    if s.dead w then none
    else
      continueAt ((s.insertViewer m.room w primary.router).recordPlacement m w
        primary.router) (.routed ⟨w, true⟩ (some ⟨m, s.ticket⟩))
  | .creating _ _, .fail => finish s
  | .routed route lease, .go =>
    continueAt s (.obtain route lease (s.workerForParticipant m = some route.worker))
  | .routed _ lease, .fail => finish (s.dropLocal lease)
  | .obtain route lease retain, .go =>
    match s.participants m with
    | some g => continueAt s (.locking route lease retain g)
    | none =>
      if purpose = .create then
        continueAt (s.openSession m) (.locking route lease retain s.nextGeneration)
      else finish (s.dropLocal lease)
  | .locking route lease retain g, .go =>
    if free (.session g) then
      if s.participants m = some g ∧ s.mayBuild (s.sessions g) purpose then
        continueAt s (.building route lease retain g)
      else finish (s.dropLocal lease)
    else none
  | .building route lease retain g, .go =>
    if s.dead route.worker then none
    else if s.participants m = some g then
      installTransport s m purpose route lease retain g
    else finish (s.dropLocal lease)
  | .building _ lease _ _, .fail => finish (s.dropLocal lease)
  | .attach lease, .go =>
    match s.participants m with
    | some g => continueAt s (.attaching lease g)
    | none => continueAt (s.dropLease lease) .confirm
  | .attaching lease g, .go =>
    if free (.session g) then
      -- An evicted session goes with its last handle, and the lease with it.
      if s.participants m = some g then continueAt (s.setLease g (some lease)) .confirm
      else continueAt (s.linger (some lease)) .confirm
    else none
  | .confirm, .go =>
    if s.isMember m then finish s
    else
      match s.participants m with
      | none => finish s
      | some g => continueAt (s.takeEntry m) (.evict g)
  | .evict g, .go => if free (.session g) then finish (s.closeSession g) else none
  | _, _ => none

end Receive

def removeAct (s : Server) (free : Lock → Bool) (m : MediaId) : Removing → Choice → Option Result
  | .take, .go =>
    if m ∈ s.parted then
      match s.participants m with
      | none => finish s
      | some g => goOn (s.takeEntry m) (.remove m (.evict g))
    else none
  | .evict g, .go => if free (.session g) then finish (s.closeSession g) else none
  | _, _ => none

def openAct (s : Server) (room : RoomId) : Opening → Choice → Option Result
  | .check, .go =>
    if (s.routers room).isSome then finish s else goOn s (.openRouter room .create)
  | .create, .reserve w =>
    if s.dead w then none
    else
      goOn { s with nextRouter := s.nextRouter + 1 }
        (.openRouter room (.register ⟨s.nextRouter, w⟩))
  | .create, .fail => finish s
  | .register info, .go =>
    if (s.routers room).isSome then finish s
    else finish { s with routers := update s.routers room (some info) }
  | _, _ => none

def closeAct (s : Server) (free : Lock → Bool) (room : RoomId) : Closing → Choice → Option Result
  | .primary, .go =>
    goOn { s with routers := update s.routers room none }
      (.closeRouter room .viewers)
  | .viewers, .go => if free .viewers then finish (s.removeViewers room) else none
  -- Every caller bounds the wait and drops the rest of the removal.
  | .viewers, .fail => finish s
  | _, _ => none

def pipeAct (s : Server) (free : Lock → Bool) (m : MediaId) (producer : ProducerId) :
    Piping → Choice → Option Result
  | .placement, .go =>
    match s.workerForParticipant m with
    | none => finish s
    | some w => goOn s (.pipe m producer (.primary w))
  | .primary w, .go =>
    match s.routers m.room with
    | none => finish s
    | some info => goOn s (.pipe m producer (.target w info))
  | .target w primary, .go =>
    if free .viewers then
      if (s.viewers m.room).pipes.any fun pipe =>
          pipe.producer = producer && pipe.worker = w && s.pipeOpen pipe then finish s
      else
        -- A closed pipe is forgotten before its replacement is made.
        let dropped := s.dropPipe m.room producer w
        if (s.liveViewer m.room w).isSome then
          goOn dropped (.pipe m producer (.create w primary))
        else finish dropped
    else none
  | .create w primary, .go =>
    if s.closedProducers producer || s.dead w || s.dead primary.worker then none
    else finish (s.insertPipe m.room ⟨producer, w, primary.router⟩)
  | .create _ _, .fail => finish s
  | _, _ => none

def eventAct (s : Server) (free : Lock → Bool) : Event → Option Result
  | .join m => if m ∈ s.joined then none else finish { s with joined := m :: s.joined }
  | .part m => if s.isMember m then finish { s with parted := m :: s.parted } else none
  | .die w => finish { s with dead := update s.dead w true }
  | .recover w =>
    if s.dead w && free .viewers then finish (s.dropViewerRoutersOnWorker w) else none
  | .closeTransport id =>
    finish { s with closedTransports := update s.closedTransports id true }
  | .closeProducer producer =>
    finish { s with closedProducers := update s.closedProducers producer true }
  | .dropLease lease =>
    if lease ∈ s.lingering then
      finish ({ s with lingering := s.lingering.erase lease }.dropLease lease)
    else none

def act (s : Server) (free : Lock → Bool) (k : Task) (choice : Choice) : Option Result :=
  match k with
  | .receive m purpose point => receiveAct s free m purpose point choice
  | .remove m point => removeAct s free m point choice
  | .openRouter room point => openAct s room point choice
  | .closeRouter room point => closeAct s free room point choice
  | .pipe m producer point => pipeAct s free m producer point choice
  | .event event => eventAct s free event

/-! ## What a creation or replacement can do -/

def Receiving.lease : Receiving → Option Lease
  | .routed _ lease | .obtain _ lease _ | .locking _ lease _ _ | .building _ lease _ _ => lease
  | .attach lease | .attaching lease _ => some lease
  | _ => none

def Receiving.early : Receiving → Bool
  | .attach _ | .attaching _ _ | .confirm | .evict _ => false
  | _ => true

def Receiving.afterStore : Option Lease → Receiving
  | some lease => .attach lease
  | none => .confirm

/-- The steps of a creation or replacement, each with what its guards established. -/
inductive Receives (s : Server) (free : Lock → Bool) (m : MediaId) (purpose : Purpose) :
    Receiving → Server → Option Receiving → Prop
  | gaveUp {point : Receiving} (hearly : point.early = true) :
      Receives s free m purpose point (s.dropLocal point.lease) none
  | begun {next : Receiving} (hmember : s.isMember m = true)
      (hnext : next = .primary ∨ next = .replay) :
      Receives s free m purpose .start s (some next)
  | replayed : Receives s free m purpose .replay s (some .primary)
  | found {info : RouterInfo} (hrouter : s.routers m.room = some info) :
      Receives s free m purpose .primary s (some (.placed info))
  | remembered {primary : RouterInfo} {placement : Placement}
      (hplacement : s.placements m = some placement) :
      Receives s free m purpose (.placed primary) s
        (some (.lookup primary placement.worker))
  | unplaced {primary : RouterInfo} (hplacement : s.placements m = none) :
      Receives s free m purpose (.placed primary) s (some (.choose primary))
  | returned {primary : RouterInfo} {w : WorkerId}
      (hviewer : (s.liveViewer m.room w).isSome = true) :
      Receives s free m purpose (.lookup primary w) s (some (.routed ⟨w, true⟩ none))
  | lost {primary : RouterInfo} {w : WorkerId}
      (hviewer : (s.liveViewer m.room w).isSome = false) :
      Receives s free m purpose (.lookup primary w) s (some (.forget primary))
  | forgot {primary : RouterInfo} :
      Receives s free m purpose (.forget primary) (s.forgetPlacement m)
        (some (.choose primary))
  | stayed {primary : RouterInfo} : Receives s free m purpose (.choose primary) s
        (some (.routed ⟨primary.worker, false⟩ none))
  | reserved {primary : RouterInfo} {w : WorkerId} :
      Receives s free m purpose (.choose primary) s (some (.enter primary w))
  | shared {primary : RouterInfo} {w : WorkerId}
      (hviewer : (s.liveViewer m.room w).isSome = true) :
      Receives s free m purpose (.enter primary w)
        (s.recordPlacement m w primary.router)
        (some (.routed ⟨w, true⟩ (some ⟨m, s.ticket⟩)))
  | entered {primary : RouterInfo} {w : WorkerId} :
      Receives s free m purpose (.enter primary w) s (some (.creating primary w))
  | created {primary : RouterInfo} {w : WorkerId} : Receives s free m purpose (.creating primary w)
        ((s.insertViewer m.room w primary.router).recordPlacement m w primary.router)
        (some (.routed ⟨w, true⟩ (some ⟨m, s.ticket⟩)))
  | routed {route : Route} {lease : Option Lease} {retain : Bool}
      (hretain : retain = (s.workerForParticipant m = some route.worker)) :
      Receives s free m purpose (.routed route lease) s
        (some (.obtain route lease retain))
  | obtained {route : Route} {lease : Option Lease} {retain : Bool} {g : Generation}
      (hentry : s.participants m = some g) :
      Receives s free m purpose (.obtain route lease retain) s
        (some (.locking route lease retain g))
  | opened {route : Route} {lease : Option Lease} {retain : Bool}
      (hpurpose : purpose = .create) (hentry : s.participants m = none) :
      Receives s free m purpose (.obtain route lease retain) (s.openSession m)
        (some (.locking route lease retain s.nextGeneration))
  | locked {route : Route} {lease : Option Lease} {retain : Bool} {g : Generation}
      (hfree : free (.session g) = true) (hentry : s.participants m = some g)
      (hmay : s.mayBuild (s.sessions g) purpose = true) :
      Receives s free m purpose (.locking route lease retain g) s
        (some (.building route lease retain g))
  | installed {route : Route} {lease : Option Lease} {retain : Bool} {g : Generation}
      (hpurpose : purpose = .create) (hlive : s.dead route.worker = false)
      (hentry : s.participants m = some g) :
      Receives s free m purpose (.building route lease retain g)
        (s.storeTransport g route) (some (.afterStore lease))
  | replaced {route : Route} {lease : Option Lease} {retain : Bool} {g : Generation}
      {expected : TransportId} (hpurpose : purpose = .replace expected)
      (hlive : s.dead route.worker = false) (hentry : s.participants m = some g) :
      Receives s free m purpose (.building route lease retain g)
        (match lease with
          | some lease => (s.storeTransport g route).setLease g (some lease)
          | none =>
            if retain then s.storeTransport g route
            else (s.storeTransport g route).setLease g none) none
  | attaching {lease : Lease} {g : Generation} (hentry : s.participants m = some g) :
      Receives s free m purpose (.attach lease) s (some (.attaching lease g))
  | detached {lease : Lease} (hentry : s.participants m = none) :
      Receives s free m purpose (.attach lease) (s.dropLease lease) (some .confirm)
  | attached {lease : Lease} {g : Generation} (hentry : s.participants m = some g) :
      Receives s free m purpose (.attaching lease g) (s.setLease g (some lease))
        (some .confirm)
  | orphaned {lease : Lease} {g : Generation} (hentry : s.participants m ≠ some g) :
      Receives s free m purpose (.attaching lease g) (s.linger (some lease))
        (some .confirm)
  | confirmed (hmember : s.isMember m = true ∨ s.participants m = none) :
      Receives s free m purpose .confirm s none
  | evicting {g : Generation} (hmember : s.isMember m = false)
      (hentry : s.participants m = some g) :
      Receives s free m purpose .confirm (s.takeEntry m) (some (.evict g))
  | evicted {g : Generation} : Receives s free m purpose (.evict g) (s.closeSession g) none

theorem receiveAct_cases {s : Server} {free : Lock → Bool} {m : MediaId}
    {purpose : Purpose} {point : Receiving} {choice : Choice} {o : Result}
    (h : receiveAct s free m purpose point choice = some o) :
    ∃ next, o = ⟨o.shared, next.map (Task.receive m purpose), none⟩ ∧
      Receives s free m purpose point o.shared next := by
  unfold receiveAct at h
  dsimp only at h
  split at h
  · -- start
    split at h
    · rename_i hmember
      cases h
      exact ⟨_, rfl, .begun hmember (by split <;> simp)⟩
    · cases h
      exact ⟨none, rfl, .gaveUp rfl⟩
  · -- replay
    split at h
    · cases h
      exact ⟨none, rfl, .gaveUp rfl⟩
    split at h
    · split at h
      · cases h
        exact ⟨_, rfl, .replayed⟩
      · cases h
        exact ⟨none, rfl, .gaveUp rfl⟩
    · cases h
  · -- primary
    split at h
    · cases h
      exact ⟨none, rfl, .gaveUp rfl⟩
    rename_i info hrouter
    cases h
    exact ⟨_, rfl, .found hrouter⟩
  · -- placed
    split at h
    · rename_i w hworker
      cases h
      obtain ⟨placement, hplacement, rfl⟩ := map_eq_some_iff.mp hworker
      exact ⟨_, rfl, .remembered hplacement⟩
    · rename_i hworker
      cases h
      exact ⟨_, rfl, .unplaced (map_eq_none_iff.mp hworker)⟩
  · -- lookup
    split at h
    · split at h
      · rename_i hviewer
        cases h
        exact ⟨_, rfl, .returned hviewer⟩
      · rename_i hviewer
        cases h
        exact ⟨_, rfl, .lost (by simpa using hviewer)⟩
    · cases h
  · -- forget
    cases h
    exact ⟨_, rfl, .forgot⟩
  · -- choose, with few consumers
    cases h
    exact ⟨_, rfl, .stayed⟩
  · -- choose, with a reserved worker
    split at h
    · cases h
      exact ⟨_, rfl, .stayed⟩
    · cases h
      exact ⟨_, rfl, .reserved⟩
  · -- choose, without a worker
    cases h
    exact ⟨none, rfl, .gaveUp rfl⟩
  · -- enter
    split at h
    · split at h
      · rename_i hviewer
        cases h
        exact ⟨_, rfl, .shared hviewer⟩
      · cases h
        exact ⟨_, rfl, .entered⟩
    · cases h
  · -- creating
    split at h
    · cases h
    · cases h
      exact ⟨_, rfl, .created⟩
  · -- creating, refused
    cases h
    exact ⟨none, rfl, .gaveUp rfl⟩
  · -- routed
    cases h
    exact ⟨_, rfl, .routed (by simp)⟩
  · -- routed, refused
    cases h
    exact ⟨none, rfl, .gaveUp rfl⟩
  · -- obtain
    split at h
    · rename_i g hentry
      cases h
      exact ⟨_, rfl, .obtained hentry⟩
    rename_i hentry
    split at h
    · rename_i hpurpose
      cases h
      exact ⟨_, rfl, .opened hpurpose hentry⟩
    · cases h
      exact ⟨none, rfl, .gaveUp rfl⟩
  · -- locking
    split at h
    · rename_i hfree
      split at h
      · rename_i hchecks
        cases h
        exact ⟨_, rfl, .locked hfree hchecks.1 hchecks.2⟩
      · cases h
        exact ⟨none, rfl, .gaveUp rfl⟩
    · cases h
  · -- building
    split at h
    · cases h
    rename_i hlive
    have hlive' := Bool.eq_false_iff.mpr hlive
    split at h
    · rename_i hentry
      unfold installTransport at h
      dsimp only at h
      split at h
      · cases h
        refine ⟨_, ?_, .installed rfl hlive' hentry⟩
        split <;> rfl
      · cases h
        exact ⟨none, rfl, .replaced rfl hlive' hentry⟩
    · cases h
      exact ⟨none, rfl, .gaveUp rfl⟩
  · -- building, refused
    cases h
    exact ⟨none, rfl, .gaveUp rfl⟩
  · -- attach
    split at h
    · rename_i g hentry
      cases h
      exact ⟨_, rfl, .attaching hentry⟩
    · rename_i hentry
      cases h
      exact ⟨_, rfl, .detached hentry⟩
  · -- attaching
    split at h
    · split at h
      · rename_i hentry
        cases h
        exact ⟨_, rfl, .attached hentry⟩
      · rename_i hentry
        cases h
        exact ⟨_, rfl, .orphaned hentry⟩
    · cases h
  · -- confirm
    split at h
    · rename_i hmember
      cases h
      exact ⟨none, rfl, .confirmed (.inl hmember)⟩
    rename_i hmember
    split at h
    · rename_i hentry
      cases h
      exact ⟨none, rfl, .confirmed (.inr hentry)⟩
    · rename_i g hentry
      cases h
      exact ⟨_, rfl, .evicting (by simpa using hmember) hentry⟩
  · -- evict
    split at h
    · cases h
      exact ⟨none, rfl, .evicted⟩
    · cases h
  · cases h

/-! ## What a task can do -/

/-- The steps of all tasks. -/
inductive Moves (s : Server) (free : Lock → Bool) : Task → Server → Option Task → Prop
  | received {m : MediaId} {purpose : Purpose} {point : Receiving} {s' : Server}
      {next : Option Receiving} (h : Receives s free m purpose point s' next) :
      Moves s free (.receive m purpose point) s' (next.map (Task.receive m purpose))
  | taken {m : MediaId} {g : Generation} (hparted : m ∈ s.parted)
      (hentry : s.participants m = some g) :
      Moves s free (.remove m .take) (s.takeEntry m) (some (.remove m (.evict g)))
  | absent {m : MediaId} : Moves s free (.remove m .take) s none
  | evicted {m : MediaId} {g : Generation} :
      Moves s free (.remove m (.evict g)) (s.closeSession g) none
  | opening {room : RoomId} {point : Opening} (n : RouterId) (next : Option Opening) :
      Moves s free (.openRouter room point) { s with nextRouter := n }
        (next.map (Task.openRouter room))
  | registered {room : RoomId} {info : RouterInfo} (hvacant : s.routers room = none) :
      Moves s free (.openRouter room (.register info))
        { s with routers := update s.routers room (some info) } none
  | unregistered {room : RoomId} : Moves s free (.closeRouter room .primary)
        { s with routers := update s.routers room none }
        (some (.closeRouter room .viewers))
  | cleared {room : RoomId} : Moves s free (.closeRouter room .viewers) (s.removeViewers room) none
  | abandoned {room : RoomId} : Moves s free (.closeRouter room .viewers) s none
  | pipeOver {m : MediaId} {producer : ProducerId} {point : Piping} :
      Moves s free (.pipe m producer point) s none
  | pipePlaced {m : MediaId} {producer : ProducerId} {w : WorkerId} :
      Moves s free (.pipe m producer .placement) s (some (.pipe m producer (.primary w)))
  | pipeFound {m : MediaId} {producer : ProducerId} {w : WorkerId} {info : RouterInfo}
      (hrouter : s.routers m.room = some info) :
      Moves s free (.pipe m producer (.primary w)) s
        (some (.pipe m producer (.target w info)))
  | pipeEntered {m : MediaId} {producer : ProducerId} {w : WorkerId} {info : RouterInfo} :
      Moves s free (.pipe m producer (.target w info)) (s.dropPipe m.room producer w)
        (some (.pipe m producer (.create w info)))
  | pipeLost {m : MediaId} {producer : ProducerId} {w : WorkerId} {info : RouterInfo} :
      Moves s free (.pipe m producer (.target w info)) (s.dropPipe m.room producer w) none
  | piped {m : MediaId} {producer : ProducerId} {w : WorkerId} {info : RouterInfo} :
      Moves s free (.pipe m producer (.create w info))
        (s.insertPipe m.room ⟨producer, w, info.router⟩) none
  | joined {m : MediaId} (hnew : m ∉ s.joined) :
      Moves s free (.event (.join m)) { s with joined := m :: s.joined } none
  | parted {m : MediaId} (hmember : s.isMember m = true) :
      Moves s free (.event (.part m)) { s with parted := m :: s.parted } none
  | died {w : WorkerId} :
      Moves s free (.event (.die w)) { s with dead := update s.dead w true } none
  | recovered {w : WorkerId} (hdead : s.dead w = true) :
      Moves s free (.event (.recover w)) (s.dropViewerRoutersOnWorker w) none
  | transportClosed {id : TransportId} : Moves s free (.event (.closeTransport id))
        { s with closedTransports := update s.closedTransports id true } none
  | producerClosed {producer : ProducerId} : Moves s free (.event (.closeProducer producer))
        { s with closedProducers := update s.closedProducers producer true } none
  | leaseDropped {lease : Lease} (hlease : lease ∈ s.lingering) :
      Moves s free (.event (.dropLease lease))
        ({ s with lingering := s.lingering.erase lease }.dropLease lease) none

section Inversion

variable {s : Server} {free : Lock → Bool} {choice : Choice} {o : Result}

theorem removeAct_moves {m : MediaId} {point : Removing}
    (h : removeAct s free m point choice = some o) :
    o.spawned = none ∧ Moves s free (.remove m point) o.shared o.self := by
  unfold removeAct at h
  split at h
  · split at h
    · rename_i hparted
      split at h
      · cases h
        exact ⟨rfl, .absent⟩
      rename_i hentry
      cases h
      exact ⟨rfl, .taken hparted hentry⟩
    · cases h
  · split at h
    · cases h
      exact ⟨rfl, .evicted⟩
    · cases h
  · cases h

theorem openAct_moves {room : RoomId} {point : Opening} (h : openAct s room point choice = some o) :
    o.spawned = none ∧ Moves s free (.openRouter room point) o.shared o.self := by
  unfold openAct at h
  split at h
  · split at h
    · cases h
      exact ⟨rfl, .opening s.nextRouter none⟩
    · cases h
      exact ⟨rfl, .opening s.nextRouter (some .create)⟩
  · split at h
    · cases h
    · cases h
      exact ⟨rfl, .opening (s.nextRouter + 1) (some (.register _))⟩
  · cases h
    exact ⟨rfl, .opening s.nextRouter none⟩
  · split at h
    · cases h
      exact ⟨rfl, .opening s.nextRouter none⟩
    rename_i hvacant
    cases h
    exact ⟨rfl, .registered (by simpa using hvacant)⟩
  · cases h

theorem closeAct_moves {room : RoomId} {point : Closing}
    (h : closeAct s free room point choice = some o) :
    o.spawned = none ∧ Moves s free (.closeRouter room point) o.shared o.self := by
  unfold closeAct at h
  split at h
  · cases h
    exact ⟨rfl, .unregistered⟩
  · split at h
    · cases h
      exact ⟨rfl, .cleared⟩
    · cases h
  · cases h
    exact ⟨rfl, .abandoned⟩
  · cases h

theorem pipeAct_moves {m : MediaId} {producer : ProducerId} {point : Piping}
    (h : pipeAct s free m producer point choice = some o) :
    o.spawned = none ∧ Moves s free (.pipe m producer point) o.shared o.self := by
  unfold pipeAct at h
  split at h
  · split at h
    · cases h
      exact ⟨rfl, .pipeOver⟩
    · cases h
      exact ⟨rfl, .pipePlaced⟩
  · split at h
    · cases h
      exact ⟨rfl, .pipeOver⟩
    rename_i hrouter
    cases h
    exact ⟨rfl, .pipeFound hrouter⟩
  · split at h
    · dsimp only at h
      split at h
      · cases h
        exact ⟨rfl, .pipeOver⟩
      split at h
      · cases h
        exact ⟨rfl, .pipeEntered⟩
      · cases h
        exact ⟨rfl, .pipeLost⟩
    · cases h
  · split at h
    · cases h
    · cases h
      exact ⟨rfl, .piped⟩
  · cases h
    exact ⟨rfl, .pipeOver⟩
  · cases h

theorem eventAct_moves {event : Event} (h : eventAct s free event = some o) :
    o.spawned = none ∧ Moves s free (.event event) o.shared o.self := by
  cases event with
  | join =>
    obtain ⟨hnew, h⟩ := ite_none_left_eq_some.mp h
    cases h
    exact ⟨rfl, .joined hnew⟩
  | part =>
    obtain ⟨hmember, h⟩ := ite_none_right_eq_some.mp h
    cases h
    exact ⟨rfl, .parted hmember⟩
  | die =>
    cases h
    exact ⟨rfl, .died⟩
  | recover =>
    obtain ⟨hdead, h⟩ := ite_none_right_eq_some.mp h
    cases h
    exact ⟨rfl, .recovered (Bool.and_eq_true_iff.mp hdead).1⟩
  | closeTransport =>
    cases h
    exact ⟨rfl, .transportClosed⟩
  | closeProducer =>
    cases h
    exact ⟨rfl, .producerClosed⟩
  | dropLease =>
    obtain ⟨hlease, h⟩ := ite_none_right_eq_some.mp h
    cases h
    exact ⟨rfl, .leaseDropped hlease⟩

theorem act_moves {k : Task} (h : act s free k choice = some o) :
    o.spawned = none ∧ Moves s free k o.shared o.self := by
  cases k with
  | receive =>
    obtain ⟨next, ho, hreceives⟩ := receiveAct_cases h
    rw [ho]
    exact ⟨rfl, .received hreceives⟩
  | remove => exact removeAct_moves h
  | openRouter => exact openAct_moves h
  | closeRouter => exact closeAct_moves h
  | pipe => exact pipeAct_moves h
  | event => exact eventAct_moves h

end Inversion

/-! ## The protocol -/

/-- The operations on routers and transports, as tasks. -/
def media : Protocol Server Task Lock Choice where
  guards := Task.guards
  initial := Task.initial
  act := act
  guards_initial k hk := by
    revert hk
    fun_cases Task.initial k <;> simp [Task.guards, Receiving.guards]
  guards_spawned s free k choice o k' h hspawned := by
    rw [(act_moves h).1] at hspawned
    cases hspawned

def mediaStart : Config Server Task Lock where
  shared :=
    { routers := fun _ => none
      nextRouter := 0
      viewers := fun _ => .empty
      placements := fun _ => none
      nextLeaseTicket := 1
      lingering := []
      participants := fun _ => none
      nextGeneration := 0
      sessions := fun _ => ⟨none, none⟩
      nextTransport := 0
      joined := []
      parted := []
      dead := fun _ => false
      closedTransports := fun _ => false
      closedProducers := fun _ => false }
  task := fun _ => none
  owner := fun _ => none
  next := 0

theorem mediaStart_coherent : media.Coherent mediaStart where
  owner_iff l t := by simp [mediaStart]
  fresh t _ := rfl

end SimplestChat.Media
