import Inet.Ndn.Forwarding

/-!
# The forwarder as a broker

What a forwarder is for, without its look-ups: it keeps a bounded table of pending requests and a
slot for one packet whose transmission is delayed, and it moves packets between applications and
links so that replies find their way back. The content store and the FIB only decide *which* move
is taken, so they do not appear.

`Move` lists everything one event can do: the guard, the effects in order and the next state. Every
invariant of the forwarder is proved once per move; `Forwarding` is connected to it by the
refinement theorem of the next module.

The parameter `toLink` of a move is the one routing decision a statistic depends on: whether the
FIB sends an Interest that came from the link on to the link.
-/

namespace Inet.Ndn

/-- Whether a gate is one of the link side. -/
def Gate.isLower : Gate → Bool
  | .upperLayerIn _ => false
  | .lowerLayerIn _ => true

theorem Gate.eq_of_isLower {gate : Gate} (h : gate.isLower = true) :
    gate = .lowerLayerIn gate.index := by
  cases gate with
  | upperLayerIn index => cases h
  | lowerLayerIn index => rfl

theorem Gate.eq_of_not_isLower {gate : Gate} (h : gate.isLower = false) :
    gate = .upperLayerIn gate.index := by
  cases gate with
  | upperLayerIn index => rfl
  | lowerLayerIn index => cases h

/-- The Interest after one more hop. -/
def Interest.hop (i : Interest) : Interest :=
  { i with hopCount := i.hopCount + 1 }

/-- The Data after one more hop. -/
def Data.hop (d : Data) : Data :=
  { d with hopCount := d.hopCount + 1 }

/-- The Interest as it is recorded and sent on: only what came from the link counts a hop. -/
def Interest.forwarded (i : Interest) : Interest :=
  if i.arrivalGate.isLower then i.hop else i

section Fields

variable (i : Interest) (d : Data)

@[simp] theorem Interest.hop_name : i.hop.name = i.name := rfl

@[simp] theorem Interest.hop_kind : i.hop.kind = i.kind := rfl

@[simp] theorem Interest.hop_seqNo : i.hop.seqNo = i.seqNo := rfl

@[simp] theorem Interest.hop_arrivalGate : i.hop.arrivalGate = i.arrivalGate := rfl

@[simp] theorem Data.hop_name : d.hop.name = d.name := rfl

@[simp] theorem Data.hop_kind : d.hop.kind = d.kind := rfl

@[simp] theorem Data.hop_seqNo : d.hop.seqNo = d.seqNo := rfl

/-- Forwarding changes nothing but the hop count. -/
theorem Interest.forwarded_eq : ∃ n, i.forwarded = { i with hopCount := n } := by
  unfold forwarded hop
  split
  · exact ⟨_, rfl⟩
  · exact ⟨i.hopCount, rfl⟩

@[simp]
theorem Interest.forwarded_name : i.forwarded.name = i.name := by
  obtain ⟨n, hn⟩ := i.forwarded_eq
  rw [hn]

@[simp]
theorem Interest.forwarded_kind : i.forwarded.kind = i.kind := by
  obtain ⟨n, hn⟩ := i.forwarded_eq
  rw [hn]

@[simp]
theorem Interest.forwarded_seqNo : i.forwarded.seqNo = i.seqNo := by
  obtain ⟨n, hn⟩ := i.forwarded_eq
  rw [hn]

@[simp]
theorem Interest.forwarded_arrivalGate : i.forwarded.arrivalGate = i.arrivalGate := by
  obtain ⟨n, hn⟩ := i.forwarded_eq
  rw [hn]

end Fields

/-- A packet in the slot, with what its transmission will need. -/
inductive Held
  | request (interest : Interest) (face : ℕ) (macSrc macDest : MACAddress)
  | reply (data : Data) (face : ℕ) (macDest : MACAddress)
  deriving DecidableEq, Repr

/-- The packet itself. -/
def Held.packet : Held → Packet
  | .request interest _ _ _ => .interest interest
  | .reply data _ _ => .data data

@[simp] theorem Held.packet_request (i : Interest) (face : ℕ) (macSrc macDest : MACAddress) :
    (request i face macSrc macDest).packet = .interest i := rfl

@[simp] theorem Held.packet_reply (d : Data) (face : ℕ) (macDest : MACAddress) :
    (reply d face macDest).packet = .data d := rfl

namespace Effect

/-- A Data goes back to where an Interest came from: the gate it arrived on and, on the link side,
the address it was sent from. -/
def answer (gate : Gate) (mac : MACAddress) (ctrl : Ieee802Ctrl) (d : Data) : Effect :=
  match gate with
  | .lowerLayerIn face => .sendLower (.data d) mac ctrl face
  | .upperLayerIn face => .sendUpper (.data d) face

/-- The effect sends the Interest on, to either side. -/
def Forwards (i : Interest) (fx : Effect) : Prop :=
  (∃ macDest ctrl face, fx = .sendLower (.interest i) macDest ctrl face) ∨
    ∃ face, fx = .sendUpper (.interest i) face

/-- The effect sends an Interest that came from the link to the link. -/
def isLinkInterest : Effect → Bool
  | .sendLower (.interest i) _ _ _ => i.arrivalGate.isLower
  | _ => false

end Effect

/-- The broker: pending requests, the slot and the statistics of both. -/
structure Broker where
  /-- Whether packets from the link may go back to the link. -/
  forwarding : Bool
  /-- The most requests that may be pending. -/
  capacity : ℕ
  /-- The pending requests, oldest first. -/
  pending : List PitEntry
  /-- The packet in the slot. -/
  held : Option Held
  numIntFwd : ℕ
  numIntCanceled : ℕ
  numIntDuplicated : ℕ
  numDataCanceled : ℕ
  numDataFwd : ℕ
  deriving DecidableEq, Repr

namespace Broker

open ForwardingBase (Event receiveSignal)

/-- No request of the name is pending. -/
def Fresh (v : Broker) (name : CString) : Prop :=
  ∀ e ∈ v.pending, e.interest.name ≠ name

/-- No more requests can be recorded. -/
def Full (v : Broker) : Prop :=
  v.pending.length = v.capacity

/-- The events that change nothing and send nothing. -/
inductive Quiet (toLink : Interest → Bool) (v : Broker) : Event → Prop
  | other : Quiet toLink v .other
  | checkExpired : Quiet toLink v .checkExpired
  | checkDataStale : Quiet toLink v .checkDataStale
  | registration {p : Packet} {src : MACAddress} {delay : SimTime}
      (hkind : p.kind = REGISTER_PREFIX_CODE) : Quiet toLink v (.packet p src delay)
  /-- While a packet waits, all others are dropped. -/
  | busy {p : Packet} {src : MACAddress} {delay : SimTime} {h : Held}
      (hkind : p.kind ≠ REGISTER_PREFIX_CODE) (hheld : v.held = some h)
      (hname : p.name ≠ h.packet.name) : Quiet toLink v (.packet p src delay)
  /-- An Interest from the link with no route. -/
  | unrouted {i : Interest} {src : MACAddress} {delay : SimTime}
      (hkind : i.kind ≠ REGISTER_PREFIX_CODE) (hfree : v.held = none)
      (hgate : i.arrivalGate.isLower = true) (hfresh : v.Fresh i.name) (hlink : toLink i = false) :
      Quiet toLink v (.packet (.interest i) src delay)
  /-- A Data nobody asked for. -/
  | unsolicited {d : Data} {src : MACAddress} {delay : SimTime}
      (hkind : d.kind ≠ REGISTER_PREFIX_CODE) (hfree : v.held = none) (hfresh : v.Fresh d.name) :
      Quiet toLink v (.packet (.data d) src delay)

/-- Everything an event at time `now` can do. -/
inductive Move (toLink : Interest → Bool) (v : Broker) (now : SimTime) :
    Event → List Effect → Broker → Prop
  | quiet {e : Event} (h : v.Quiet toLink e) : Move toLink v now e [] v
  /-- The name is pending already. -/
  | duplicate {i : Interest} {src : MACAddress} {delay : SimTime}
      (hkind : i.kind ≠ REGISTER_PREFIX_CODE) (hfree : v.held = none)
      (hpending : ∃ e ∈ v.pending, e.interest.name = i.name) (hlink : toLink i = false) :
      Move toLink v now (.packet (.interest i) src delay) []
        { v with numIntDuplicated := v.numIntDuplicated + 1 }
  /-- The content store has the Data. -/
  | cached {i : Interest} {src : MACAddress} {delay : SimTime} {d : Data} {ctrl : Ieee802Ctrl}
      (hkind : i.kind ≠ REGISTER_PREFIX_CODE) (hfree : v.held = none) (hname : d.name = i.name)
      (hlink : toLink i = false) :
      Move toLink v now (.packet (.interest i) src delay)
        [Effect.answer i.arrivalGate src ctrl d] v
  /-- The Interest is recorded and sent on. -/
  | accept {i : Interest} {src mac : MACAddress} {delay : SimTime} {send : Effect}
      (hkind : i.kind ≠ REGISTER_PREFIX_CODE) (hfree : v.held = none) (hfresh : v.Fresh i.name)
      (hroom : ¬ v.Full) (hmac : i.arrivalGate.isLower = true → mac = src)
      (hsend : send.Forwards i.forwarded) :
      Move toLink v now (.packet (.interest i) src delay)
        [.pitCreate (PitEntry.make now i.forwarded i.arrivalGate mac), send]
        { v with
          pending := v.pending ++ [PitEntry.make now i.forwarded i.arrivalGate mac]
          numIntFwd := v.numIntFwd + [send].countP Effect.isLinkInterest }
  /-- The Interest cannot be recorded, and is not sent. The statistic counts it nevertheless. -/
  | refuse {i : Interest} {src : MACAddress} {delay : SimTime}
      (hkind : i.kind ≠ REGISTER_PREFIX_CODE) (hfree : v.held = none) (hfresh : v.Fresh i.name)
      (hfull : v.Full) :
      Move toLink v now (.packet (.interest i) src delay) []
        { v with numIntFwd := v.numIntFwd + if toLink i then 1 else 0 }
  /-- A flooded Interest waits for its turn. -/
  | holdRequest {i : Interest} {src : MACAddress} {delay : SimTime}
      (hkind : i.kind ≠ REGISTER_PREFIX_CODE) (hfree : v.held = none)
      (hforwarding : v.forwarding = true) (hgate : i.arrivalGate.isLower = true)
      (hfresh : v.Fresh i.name) (hlink : toLink i = false) :
      Move toLink v now (.packet (.interest i) src delay)
        [.setDelayedPacket (.interest i.hop), .scheduleAt (now + delay)]
        { v with held := some (.request i.hop DEFAULT_MAC_IF src MACAddress.BROADCAST_ADDRESS) }
  /-- A Data answers its pending request at once. -/
  | reply {d d' : Data} {src : MACAddress} {delay : SimTime} {e : PitEntry} {ctrl : Ieee802Ctrl}
      (hkind : d.kind ≠ REGISTER_PREFIX_CODE) (hfree : v.held = none)
      (hfind : v.pending.find? (PitEntry.isFor d.name) = some e) (hdata : d' = d ∨ d' = d.hop)
      (hlocal : d.arrivalGate.isLower = true → e.face.isLower = false) :
      Move toLink v now (.packet (.data d) src delay) [Effect.answer e.face e.macSrc ctrl d']
        { v with pending := v.pending.eraseP (PitEntry.isFor d.name) }
  /-- A Data from the link for the link waits for its turn. -/
  | holdReply {d : Data} {src : MACAddress} {delay : SimTime} {e : PitEntry} {face : ℕ}
      (hkind : d.kind ≠ REGISTER_PREFIX_CODE) (hfree : v.held = none)
      (hforwarding : v.forwarding = true) (hgate : d.arrivalGate.isLower = true)
      (hfind : v.pending.find? (PitEntry.isFor d.name) = some e)
      (hface : e.face = .lowerLayerIn face) :
      Move toLink v now (.packet (.data d) src delay)
        [.setDelayedPacket (.data d.hop), .scheduleAt (now + delay)]
        { v with
          pending := v.pending.eraseP (PitEntry.isFor d.name)
          held := some (.reply d.hop face e.macSrc) }
  /-- The same without permission to forward: the request is settled and nothing is sent. -/
  | discard {d : Data} {src : MACAddress} {delay : SimTime} {e : PitEntry}
      (hkind : d.kind ≠ REGISTER_PREFIX_CODE) (hfree : v.held = none)
      (hforwarding : v.forwarding = false) (hgate : d.arrivalGate.isLower = true)
      (hfind : v.pending.find? (PitEntry.isFor d.name) = some e)
      (hface : e.face.isLower = true) :
      Move toLink v now (.packet (.data d) src delay) []
        { v with pending := v.pending.eraseP (PitEntry.isFor d.name) }
  /-- A packet of the same name cancels the one that waits. -/
  | cancel {p : Packet} {src : MACAddress} {delay : SimTime} {h : Held}
      (hkind : p.kind ≠ REGISTER_PREFIX_CODE) (hheld : v.held = some h)
      (hname : p.name = h.packet.name) :
      Move toLink v now (.packet p src delay) [.cancelEvent, .deleteDelayedPacket h.packet]
        { v with
          held := none
          numIntCanceled := v.numIntCanceled + if p.getType = INTEREST then 1 else 0
          numDataCanceled := v.numDataCanceled + if p.getType = INTEREST then 0 else 1 }
  /-- The delayed Interest is recorded and sent. -/
  | sendRequest {i : Interest} {face : ℕ} {macSrc macDest : MACAddress} {ctrl : Ieee802Ctrl}
      (hheld : v.held = some (.request i face macSrc macDest)) (hroom : ¬ v.Full) :
      Move toLink v now .sendDelayedPacket
        [.pitCreate (PitEntry.make now i i.arrivalGate macSrc),
          .sendLower (.interest i) macDest ctrl face, .deleteDelayedPacket (.interest i)]
        { v with
          pending := v.pending ++ [PitEntry.make now i i.arrivalGate macSrc]
          held := none
          numIntFwd := v.numIntFwd + 1 }
  /-- The delayed Interest cannot be recorded, and is not sent. -/
  | refuseRequest {i : Interest} {face : ℕ} {macSrc macDest : MACAddress}
      (hheld : v.held = some (.request i face macSrc macDest)) (hfull : v.Full) :
      Move toLink v now .sendDelayedPacket [.deleteDelayedPacket (.interest i)]
        { v with held := none, numIntFwd := v.numIntFwd + 1 }
  /-- The delayed Data is sent. -/
  | sendReply {d : Data} {face : ℕ} {macDest : MACAddress} {ctrl : Ieee802Ctrl}
      (hheld : v.held = some (.reply d face macDest)) :
      Move toLink v now .sendDelayedPacket
        [.sendLower (.data d) macDest ctrl face, .deleteDelayedPacket (.data d)]
        { v with held := none, numDataFwd := v.numDataFwd + 1 }
  /-- The requests whose time is over leave, and the applications among their senders are told. -/
  | expire :
      Move toLink v now .checkTimeout
        ((v.pending.filter (PitEntry.isTimedout now)).flatMap fun e ↦ receiveSignal e.notification)
        { v with pending := v.pending.filter fun e ↦ !e.isTimedout now }

/-- What the clean-up sends are time-out notifications to applications. -/
theorem of_mem_notifications {l : List PitEntry} {f : Effect}
    (hf : f ∈ l.flatMap fun e ↦ receiveSignal e.notification) :
    ∃ e ∈ l, ∃ index,
      f = .sendUpper (.interest { e.interest with kind := TIMEOUT_CODE }) index := by
  obtain ⟨e, he, hf⟩ := List.mem_flatMap.1 hf
  unfold receiveSignal at hf
  split at hf
  · exact ⟨e, he, _, List.mem_singleton.1 hf⟩
  · cases hf

end Broker

end Inet.Ndn
