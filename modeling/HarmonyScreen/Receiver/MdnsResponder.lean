import Mathlib.Data.Fin.Basic
import HarmonyScreen.Lib.Discipline
import HarmonyScreen.Receiver.MdnsProtocol

namespace HarmonyScreen.Receiver.Mdns
open Lib

def kMaximumInitialProbeDelayMilliseconds : Int := 250
def kProbeIntervalMilliseconds : Nat := 250
def kProbeCount : Nat := 3
def kReceiveSliceMilliseconds : Nat := 50
def kPublishedReceiveMilliseconds : Nat := 100
def kResponseWindowMilliseconds : Nat := 1000

inductive MdnsPublisherState where
  | stopped
  | probing
  | published
  | conflict
  | error
  deriving DecidableEq, Repr

structure MdnsInterface where
  address : Ipv4Address := ⟨0, 0, 0, 0⟩
  index : Nat := 0
  deriving DecidableEq, Repr

structure MdnsDatagram where
  bytes : Bytes
  sourceAddress : Ipv4Address
  destinationAddress : Ipv4Address
  sourcePort : Nat
  interfaceIndex : Nat
  hopLimit : Int
  deriving DecidableEq, Repr

/-- A datagram on its way to a responder; `sender` only records which one it is from. -/
structure Packet (n : Nat) where
  datagram : MdnsDatagram
  sender : Option (Fin n)
  deriving DecidableEq, Repr

/-- Why a responder left `Published`. -/
inductive Departure where
  | stopped
  | conflicted
  | failed
  deriving DecidableEq, Repr

/-- Where the handle of the worker thread is: nowhere, in `worker_`, or with a
caller that took it over to join the thread. -/
inductive WorkerHandle where
  | none
  | member
  | movedTo (caller : Nat)
  deriving DecidableEq, Repr

/-- A responder with its transport and its threads. -/
structure MdnsResponder (n : Nat) where
  selectedInterface : MdnsInterface := {}
  desired : Bool := false
  state : MdnsPublisherState := .stopped
  goodbyeSent : Bool := false
  responseWindowInitialized : Bool := false
  responseWindowStartedMs : Nat := 0
  responsesInWindow : Nat := 0
  handle : WorkerHandle := .none
  /-- The worker thread was launched and has not ended. -/
  workerLives : Bool := false
  /-- The callers that are inside `Start` or `Stop`. -/
  calls : List Nat := []
  /-- One of them is inside `Start`. -/
  starting : Bool := false
  /-- The transport's socket is open. -/
  isOpen : Bool := false
  /-- What was delivered to the socket and not yet received. -/
  inbox : List (Packet n) := []
  /-- What was received and not yet handled. -/
  handling : Option (Packet n) := none
  /-- The time at which the call of `Receive` that the worker is in returns. -/
  waiting : Option Nat := none
  /-- The address of the last successful `Start`; from here on kept for the properties alone. -/
  startedAddress : Ipv4Address := ⟨0, 0, 0, 0⟩
  /-- The packets handed to the transport since then. -/
  handed : List Bytes := []
  departure : Option Departure := none
  /-- A probe was sent since then, the first one at the time `probedAt`. -/
  probed : Bool := false
  probedAt : Nat := 0
  /-- When the socket was closed. -/
  closedAt : Nat := 0

/-- The responders of one interface. -/
structure Lan (n : Nat) where
  responders : Fin n → MdnsResponder n := fun _ => {}
  clock : Nat := 0
  /-- Who has probed since the clock last advanced. -/
  probers : List (Fin n) := []
  /-- Who lost a tie-break, and who had probed at that time. -/
  losers : List (Fin n × List (Fin n)) := []

/-- What `Receive` finds: nothing, an error, a datagram of somebody else, or the
next one of the inbox. -/
inductive Received where
  | timeout
  | error
  | foreign (datagram : MdnsDatagram)
  | next
  deriving DecidableEq, Repr

/-- What a section learns from outside: the random delay, the clock, what
`Receive` finds, and whether `Send`, `Open` and starting a thread succeed. -/
structure Outside where
  randomDelay : Int := 0
  now : Nat := 0
  received : Received := .timeout
  sends : Bool := true
  opens : Bool := true
  threadStarts : Bool := true
  deriving DecidableEq, Repr

abbrev Session (n : Nat) := Program (Lan n) Outside

namespace Lan

variable {n : Nat} (i : Fin n)

def update (f : MdnsResponder n → MdnsResponder n) (l : Lan n) : Lan n :=
  { l with responders := Function.update l.responders i (f (l.responders i)) }

/-- The datagram in which the others receive a packet of a responder. -/
def datagramOf (packet : Bytes) (l : Lan n) : MdnsDatagram where
  bytes := packet
  sourceAddress := (l.responders i).selectedInterface.address
  destinationAddress := kMulticastAddress
  sourcePort := kMulticastPort
  interfaceIndex := (l.responders i).selectedInterface.index
  hopLimit := kRequiredResponseHopLimit

@[simp] theorem update_same (f : MdnsResponder n → MdnsResponder n) (l : Lan n) :
    (l.update i f).responders i = f (l.responders i) := by
  simp [update]

@[simp] theorem update_other {j : Fin n} (h : j ≠ i) (f : MdnsResponder n → MdnsResponder n)
    (l : Lan n) : (l.update i f).responders j = l.responders j := by
  simp [update, h]

@[simp] theorem update_clock (f : MdnsResponder n → MdnsResponder n) (l : Lan n) :
    (l.update i f).clock = l.clock := rfl

@[simp] theorem update_probers (f : MdnsResponder n → MdnsResponder n) (l : Lan n) :
    (l.update i f).probers = l.probers := rfl

@[simp] theorem update_losers (f : MdnsResponder n → MdnsResponder n) (l : Lan n) :
    (l.update i f).losers = l.losers := rfl

/-- Every other open responder gets the packet. -/
def deliver (packet : Bytes) (l : Lan n) : Lan n :=
  { l with responders := fun j =>
      let r := l.responders j
      if j ≠ i ∧ r.isOpen then { r with inbox := r.inbox ++ [⟨l.datagramOf i packet, some i⟩] }
      else r }

@[simp] theorem deliver_same (packet : Bytes) (l : Lan n) :
    (l.deliver i packet).responders i = l.responders i := by
  simp [deliver]

/-- `Send` of the transport. -/
def send (packet : Bytes) (e : Outside) (l : Lan n) : Bool × Lan n :=
  let l := l.update i fun r => { r with handed := r.handed ++ [packet] }
  if e.sends then (true, l.deliver i packet) else (false, l)

@[simp] theorem send_sent (packet : Bytes) (e : Outside) (l : Lan n) :
    (l.send i packet e).1 = e.sends := by
  unfold send
  cases e.sends <;> rfl

@[simp] theorem send_same (packet : Bytes) (e : Outside) (l : Lan n) :
    (l.send i packet e).2.responders i =
      { l.responders i with handed := (l.responders i).handed ++ [packet] } := by
  unfold send
  cases e.sends <;> simp

@[simp] theorem send_clock (packet : Bytes) (e : Outside) (l : Lan n) :
    (l.send i packet e).2.clock = l.clock := by
  unfold send
  cases e.sends <;> rfl

end Lan

namespace MdnsResponder

variable {n : Nat} (i : Fin n)

/-- What is recorded when a responder leaves `Published`, the first time. -/
def leaving (departure : Departure) (r : MdnsResponder n) : Option Departure :=
  if r.state = .published ∧ r.departure = none then some departure else r.departure

/-- The socket is closed and the responder no longer wanted. -/
def withdraw (departure : Departure) (clock : Nat) (r : MdnsResponder n) : MdnsResponder n :=
  { r with
    desired := false
    isOpen := false
    departure := r.leaving departure
    closedAt := if r.desired then clock else r.closedAt }

/-- A probe was sent. -/
def markProbed (clock : Nat) (r : MdnsResponder n) : MdnsResponder n :=
  { r with probed := true, probedAt := if r.probed then r.probedAt else clock }

def sendProbeLocked (e : Outside) (l : Lan n) : Bool × Lan n :=
  let probe := buildAProbe (l.responders i).selectedInterface.address
  if probe = [] then (false, l)
  else
    let (sent, l) := l.send i probe e
    if sent then (true, { l.update i (markProbed l.clock) with probers := l.probers ++ [i] })
    else (false, l)

def sendAnnouncementLocked (e : Outside) (l : Lan n) : Bool × Lan n :=
  let announcement := buildARecord (l.responders i).selectedInterface.address kRecordTtlSeconds
  if announcement = [] then (false, l) else l.send i announcement e

def sendGoodbyeLocked (e : Outside) (l : Lan n) : Lan n :=
  if (l.responders i).goodbyeSent then l
  else
    let l := l.update i fun r => { r with goodbyeSent := true }
    let goodbye := buildARecord (l.responders i).selectedInterface.address 0
    if goodbye = [] then l else (l.send i goodbye e).2

def failLocked (l : Lan n) : Lan n :=
  l.update i fun r => { r.withdraw .failed l.clock with state := .error }

def conflictLocked (wasPublished : Bool) (e : Outside) (l : Lan n) : Lan n :=
  let l := if wasPublished then sendGoodbyeLocked i e l else l
  l.update i fun r => { r.withdraw .conflicted l.clock with state := .conflict }

def acceptDatagramMetadata (datagram : MdnsDatagram) (selected : MdnsInterface) : Bool :=
  datagram.bytes.length ≤ kMaximumQueryBytes && isTrustedLanAddress datagram.sourceAddress &&
    datagram.sourcePort == kMulticastPort && datagram.destinationAddress == kMulticastAddress &&
    datagram.interfaceIndex == selected.index

def acceptMessageHopLimit (datagram : MdnsDatagram) : MessageKind → Bool
  | .response => datagram.hopLimit == kRequiredResponseHopLimit
  | .query | .probe =>
    datagram.hopLimit == kWindowsQueryHopLimit || datagram.hopLimit == kRequiredResponseHopLimit
  | .invalid => false

/-- The datagram is done with. -/
def handled (l : Lan n) : Lan n := l.update i fun r => { r with handling := none }

/-- Whether the loop goes on after a section, and a failure when it does not. -/
def orFail (r : Bool × Lan n) : Bool × Lan n := if r.1 then r else (false, failLocked i r.2)

/-- `HandleProbingDatagram` without the `handled` at its end. What it looks at
before it takes the lock no other thread changes while the worker lives. -/
def probingDatagram (datagram : MdnsDatagram) (e : Outside) (l : Lan n) : Bool × Lan n :=
  let selected := (l.responders i).selectedInterface
  let kind := classifyMessage datagram.bytes
  if !acceptDatagramMetadata datagram selected || !acceptMessageHopLimit datagram kind then (true, l)
  else
    let addresses := extractARecords datagram.bytes
    if !addresses.any (· != selected.address) then (true, l)
    else
      match kind with
      | .probe =>
        let losesTieBreak := addresses.any fun candidate =>
          compareAddresses candidate selected.address > 0
        if !(l.responders i).desired then (false, l)
        else if losesTieBreak then
          (false, { conflictLocked i false e l with losers := l.losers ++ [(i, l.probers)] })
        else orFail i (sendProbeLocked i e l)
      | .response => (false, if (l.responders i).desired then conflictLocked i false e l else l)
      | _ => (true, l)

def handleProbingDatagram (datagram : MdnsDatagram) (e : Outside) (l : Lan n) : Bool × Lan n :=
  let r := probingDatagram i datagram e l
  (r.1, handled i r.2)

/-- The time at which the window of a response begins. -/
def responseWindow (now : Nat) (r : MdnsResponder n) : MdnsResponder n :=
  -- the subtraction wraps, but the clock is monotonic
  if !r.responseWindowInitialized || now - r.responseWindowStartedMs ≥ kResponseWindowMilliseconds then
    { r with
      responseWindowInitialized := true, responseWindowStartedMs := now, responsesInWindow := 0 }
  else r

def allowQueryResponse (now : Nat) (r : MdnsResponder n) : Bool × MdnsResponder n :=
  let r := r.responseWindow now
  if r.responsesInWindow ≥ kMaximumResponsesPerSecond then (false, r)
  else (true, { r with responsesInWindow := r.responsesInWindow + 1 })

/-- The part of `HandlePublishedDatagram` that answers queries. -/
def answerQuery (datagram : MdnsDatagram) (e : Outside) (l : Lan n) : Bool × Lan n :=
  let response := buildAResponse datagram.bytes (l.responders i).selectedInterface.address
  if response = [] then (true, l)
  else
    let (allowed, r) := allowQueryResponse e.now (l.responders i)
    let l := l.update i fun _ => r
    if !allowed then (true, l)
    else if !(l.responders i).desired then (false, l)
    else orFail i (l.send i response e)

/-- `HandlePublishedDatagram` without the `handled` at its end. -/
def publishedDatagram (datagram : MdnsDatagram) (e : Outside) (l : Lan n) : Bool × Lan n :=
  let selected := (l.responders i).selectedInterface
  let kind := classifyMessage datagram.bytes
  if !acceptDatagramMetadata datagram selected || !acceptMessageHopLimit datagram kind then (true, l)
  else if (extractARecords datagram.bytes).any (· != selected.address) then
    if !(l.responders i).desired then (false, l)
    else
      match kind with
      | .probe => orFail i (sendAnnouncementLocked i e l)
      | .response => (false, conflictLocked i true e l)
      | _ => answerQuery i datagram e l
  else answerQuery i datagram e l

def handlePublishedDatagram (datagram : MdnsDatagram) (e : Outside) (l : Lan n) : Bool × Lan n :=
  let r := publishedDatagram i datagram e l
  (r.1, handled i r.2)

/-- An atomic read. -/
def load (read : MdnsResponder n → α) : Session n α :=
  Program.critical fun _ l => (read (l.responders i), l)

def nowMilliseconds : Session n Nat := Program.critical fun e l => (e.now, l)

/-- What the loops make of a call of `Receive`. -/
inductive ReceiveResult where
  | timeout
  | error
  | packet (datagram : MdnsDatagram)

/-- A call of `Receive` begins to wait. -/
def awaitLocked (milliseconds : Nat) (e : Outside) (l : Lan n) : Unit × Lan n :=
  ((), l.update i fun r => { r with waiting := some (e.now + milliseconds) })

/-- The call of `Receive` returns. -/
def receiveLocked (e : Outside) (l : Lan n) : ReceiveResult × Lan n :=
  let l := l.update i fun r => { r with waiting := none }
  match e.received with
  | .timeout => (.timeout, l)
  | .error => (.error, l)
  | .foreign datagram =>
    (.packet datagram, l.update i fun r => { r with handling := some ⟨datagram, none⟩ })
  | .next =>
    match (l.responders i).inbox with
    | [] => (.timeout, l)
    | p :: rest =>
      (.packet p.datagram, l.update i fun r => { r with inbox := rest, handling := some p })

def receive (milliseconds : Nat) : Session n ReceiveResult := do
  Program.critical (awaitLocked i milliseconds)
  Program.critical (receiveLocked i)

/-- What the worker does when `Receive` reports an error. -/
def receiveFailed : Session n Unit :=
  Program.critical fun _ l => ((), if (l.responders i).desired then failLocked i l else l)

/-- The end of a bounded loop: no run gets past it. -/
def hang : Session n Unit := Program.await fun _ => false

/-- The loop of `ObserveFor` over at most so many turns. -/
def observeFor (deadline : Nat) : (turns : Nat) → Session n Bool
  | 0 => do
    hang
    return false
  | turns + 1 => do
    let desired ← load i (·.desired)
    if !desired then return false
    else
      let now ← nowMilliseconds
      if now ≥ deadline then return true
      else
        let result ← receive i (min (deadline - now) kReceiveSliceMilliseconds)
        let desired ← load i (·.desired)
        if !desired then return false
        else
          match result with
          | .timeout => observeFor deadline turns
          | .error =>
            receiveFailed i
            return false
          | .packet datagram =>
            let more ← Program.critical (handleProbingDatagram i datagram)
            if !more then return false else observeFor deadline turns

/-- The loop of `Run` once the name is published. -/
def publishedLoop : (turns : Nat) → Session n Unit
  | 0 => hang
  | turns + 1 => do
    let desired ← load i (·.desired)
    if !desired then return ()
    else
      let result ← receive i kPublishedReceiveMilliseconds
      let desired ← load i (·.desired)
      if !desired then return ()
      else
        match result with
        | .timeout => publishedLoop turns
        | .error => receiveFailed i
        | .packet datagram =>
          let more ← Program.critical (handlePublishedDatagram i datagram)
          if !more then return () else publishedLoop turns

/-- The section of `Run` that sends a probe. -/
def probeLocked (e : Outside) (l : Lan n) : Bool × Lan n :=
  if !(l.responders i).desired then (false, l) else orFail i (sendProbeLocked i e l)

/-- The section of `Run` that publishes. -/
def publishLocked (e : Outside) (l : Lan n) : Bool × Lan n :=
  if !(l.responders i).desired then (false, l)
  else
    let r := orFail i (sendAnnouncementLocked i e l)
    if r.1 then (true, r.2.update i fun r => { r with state := .published }) else r

def publish (turns : Nat) : Session n Unit := do
  let published ← Program.critical (publishLocked i)
  if !published then return () else publishedLoop i turns

/-- `ObserveFor`, from the time it is called. -/
def observe (milliseconds turns : Nat) : Session n Bool := do
  let started ← nowMilliseconds
  observeFor i (started + milliseconds) turns

/-- The loop of `Run` over the probes that are left, and what follows it. -/
def probeLoop (turns : Nat) : (probes : Nat) → Session n Unit
  | 0 => publish i turns
  | probes + 1 => do
    let desired ← load i (·.desired)
    if !desired then publish i turns
    else
      let sent ← Program.critical (probeLocked i)
      if !sent then return ()
      else
        let observed ← observe i kProbeIntervalMilliseconds turns
        if !observed then return () else probeLoop turns probes

def run (turns : Nat) : Session n Unit := do
  let delay ← Program.critical fun e l =>
    ((max 0 (min e.randomDelay kMaximumInitialProbeDelayMilliseconds)).toNat, l)
  let observed ← observe i delay turns
  if !observed then return () else probeLoop i turns kProbeCount

/-- The worker thread. -/
def worker (turns : Nat) : Session n Unit := do
  run i turns
  Program.critical fun _ l => ((), l.update i fun r => { r with workerLives := false })

/-- A call of `Stop` begins; it does not overlap a call of `Start`. -/
def beginStop (caller : Nat) : Session n Unit :=
  .atomic (fun l => !(l.responders i).starting)
    (fun _ l => l.update i fun r => { r with calls := caller :: r.calls }) (fun _ _ => .ret ())

/-- A call of `Start` begins, and overlaps no other call. -/
def beginStart (caller : Nat) : Session n Unit :=
  .atomic (fun l => (l.responders i).calls.isEmpty)
    (fun _ l => l.update i fun r => { r with calls := [caller], starting := true })
    (fun _ _ => .ret ())

def endStop (caller : Nat) : Session n Unit :=
  Program.critical fun _ l =>
    ((), l.update i fun r => { r with calls := r.calls.filter (· != caller) })

def endStart (caller : Nat) : Session n Unit :=
  Program.critical fun _ l =>
    ((), l.update i fun r => { r with
      calls := r.calls.filter (· != caller), starting := false })

/-- The locked section of `Stop`: whether the caller took over a worker to join. -/
def stopLocked (caller : Nat) (e : Outside) (l : Lan n) : Bool × Lan n :=
  let l := if (l.responders i).state = .published then sendGoodbyeLocked i e l else l
  ((l.responders i).handle == .member, l.update i fun r =>
    { r.withdraw .stopped l.clock with
      handle := if r.handle = .member then .movedTo caller else r.handle })

/-- Waits for the end of the worker that was taken over. -/
def join : Session n Unit :=
  .atomic (fun l => !(l.responders i).workerLives)
    (fun _ l => l.update i fun r => { r with handle := .none }) (fun _ _ => .ret ())

def setStopped : Session n Unit :=
  Program.critical fun _ l => ((), l.update i fun r => { r with state := .stopped })

def stopBody (caller : Nat) : Session n Unit := do
  let joins ← Program.critical (stopLocked i caller)
  if joins then join i
  setStopped i

def stop (caller : Nat) : Session n Unit := do
  beginStop i caller
  stopBody i caller
  endStop i caller

/-- The address and interface of a `Start`, when they are valid. -/
def startArguments (addressText : Bytes) (interfaceIndex : Nat) : Option MdnsInterface :=
  match parseIpv4Address addressText with
  | none => none
  | some address =>
    if !isTrustedLanAddress address || interfaceIndex == 0 then none
    else some ⟨address, interfaceIndex⟩

/-- What a successful `Start` leaves behind. -/
def launch (selected : MdnsInterface) (r : MdnsResponder n) : MdnsResponder n :=
  { r with
    selectedInterface := selected
    isOpen := true
    inbox := []
    handling := none
    desired := true
    goodbyeSent := false
    responseWindowInitialized := false
    responseWindowStartedMs := 0
    responsesInWindow := 0
    state := .probing
    handle := .member
    workerLives := true
    waiting := none
    startedAddress := selected.address
    handed := []
    departure := none
    probed := false }

/-- The locked section of `Start`. -/
def startLocked (selected : MdnsInterface) (e : Outside) (l : Lan n) : Bool × Lan n :=
  if !e.opens then
    (false, l.update i fun r => { r with selectedInterface := selected, state := .error })
  else if !e.threadStarts then
    (false, l.update i fun r => { r with
      selectedInterface := selected
      goodbyeSent := false
      responseWindowInitialized := false
      responseWindowStartedMs := 0
      responsesInWindow := 0
      state := .error })
  else (true, l.update i (launch selected))

def startBody (addressText : Bytes) (interfaceIndex : Nat) : Session n Bool :=
  match startArguments addressText interfaceIndex with
  | none => do
    Program.critical fun _ l => ((), l.update i fun r => { r with state := .error })
    return false
  | some selected => Program.critical (startLocked i selected)

def start (caller : Nat) (addressText : Bytes) (interfaceIndex : Nat) : Session n Unit := do
  beginStart i caller
  stopBody i caller
  let _ ← startBody i addressText interfaceIndex
  endStart i caller

end MdnsResponder

/-- The threads of all responders, and the clock. -/
inductive LanThread (n : Nat) where
  | clock
  | worker (i : Fin n)
  | caller (i : Fin n) (k : Nat)
  deriving DecidableEq

inductive LanJob where
  | tick
  | run (turns : Nat)
  | start (addressText : Bytes) (interfaceIndex : Nat)
  | stop

namespace Lan

variable {n : Nat}

/-- Whether the clock may advance: every packet that was delivered to an open
responder has been handled, the workers wait in `Receive` and are not due yet, and
who is inside a call waits for a worker. -/
def settled (l : Lan n) : Bool :=
  decide (∀ i, ((l.responders i).isOpen →
      (l.responders i).inbox = [] ∧ (l.responders i).handling = none) ∧
    ((l.responders i).workerLives → (l.responders i).waiting.any (l.clock < ·)) ∧
    ((l.responders i).calls = [] ∨ (l.responders i).workerLives))

def tick : Session n Unit :=
  .atomic settled (fun _ l => { l with clock := l.clock + 1, probers := [] }) (fun _ _ => .ret ())

def spawn : LanThread n → LanJob → Session n Unit
  | .clock, .tick => tick
  | .worker i, .run turns => MdnsResponder.worker i turns
  | .caller i k, .start addressText interfaceIndex =>
    MdnsResponder.start i k addressText interfaceIndex
  | .caller i k, .stop => MdnsResponder.stop i k
  | _, _ => .ret ()

/-- A worker runs only when `Start` has launched it. -/
def launched (l : Lan n) (thread : LanThread n) (_ : LanJob) : Prop :=
  ∀ i, thread = .worker i → (l.responders i).workerLives = true

/-- Every run of the responders, whatever they receive and whatever fails. -/
abbrev Reachable (c : Config (LanThread n) (Lan n) Outside) : Prop :=
  Config.Reaches spawn launched (Config.idle {}) c

end Lan

end HarmonyScreen.Receiver.Mdns
