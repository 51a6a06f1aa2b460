import Mathlib.Logic.Relation
import Inet.TransportLayer.TCPSendSegment

/-!
# Progress of `sendData`

`sendData` computes once how many octets the window admits, and calls `sendSegment` until they are
sent. Every call that sends octets brings `snd_nxt` nearer to the end of the window, so the loops
end if every call advances `snd_nxt` within the window (`MakesProgress`). It does so exactly as long
as every call finds room for what it sends (`makesProgress_iff`).

It need not find any. If after a time-out all octets from `snd_nxt` on are sacked or have been sent
again, nothing is left to be sent, and the scoreboard does not take an empty segment
(`not_makesProgress`). What is passed over is not taken off the octets the window admits, and
neither is a FIN; and the loop for whole segments reckons with the timestamp option also in the
states in which it is not written.
-/

namespace Inet.Tcp

open SerialNumber

namespace Sending

/-- How far `snd_nxt` is from `snd_una`. -/
def outstanding (s : TCPSender) : ℕ :=
  (s.sndNxt - s.sndUna).toNat

/-- A call sends octets, and `snd_nxt` advances within the window. -/
def Advances (d : Sending) (bytes time : UInt32) : Prop :=
  ∃ s' tcpseg, d.sender.sendSegment bytes time = .ok (s', tcpseg) ∧ 0 < tcpseg.payloadLength ∧
    outstanding d.sender < outstanding s' ∧ outstanding s' ≤ d.maxWindow.toNat

/-- A call can send, and the window has room for the octets that are passed over, for those of the
segment, and for the FIN that goes with them. -/
def HasRoom (d : Sending) (bytes time : UInt32) : Prop :=
  ∃ header, d.sender.CanSend time header ∧
    outstanding d.sender + d.sender.passed + d.sender.segmentSize bytes header +
      (if d.sender.CarriesFin bytes header then 1 else 0) ≤ d.maxWindow.toNat

/-- One call of the loops. -/
def Turn (time : UInt32) (d d' : Sending) : Prop :=
  ∃ bytes, d.nextCall = some bytes ∧ d.call bytes time = .ok d'

/-- Every call advances, and the loops end. -/
def MakesProgress (d : Sending) (time : UInt32) : Prop :=
  (∀ d', Relation.ReflTransGen (Turn time) d d' → ∀ bytes, d'.nextCall = some bytes →
    d'.Advances bytes time) ∧ ∃ rounds d', d.sendAll time rounds = .ok d'

variable {d d' : Sending} {first una n max last stop : ℕ} {bytes time : UInt32}

theorem outstanding_eq {s : TCPSender} (h : s.Placed first una n max last stop) :
    outstanding s = n - una := by
  have hfirst := h.first_le
  have hn := h.n_lt
  rw [outstanding, h.sndNxt_eq, h.sndUna_eq, toNat_wrap_sub_wrap h.una_le (by omega)]

theorem pos_of_lastCall (hlast : d.lastCall = some bytes) : 0 < bytes := by
  rw [lastCall] at hlast
  split_ifs at hlast with hbuffered
  obtain ⟨heq, hne⟩ := hbuffered
  cases hlast
  rw [heq, UInt32.toUInt32_toUInt64]
  refine UInt32.pos_iff_ne_zero.2 fun hzero ↦ hne ?_
  rw [hzero]
  rfl

/-- A call asks for octets. The first one asks for `bytesToSend`, the later ones for `snd_mss` or
for what is left. -/
theorem pos_of_nextCall (hnext : d.nextCall = some bytes)
    (hsingle : d.stage = .single → 0 < d.bytesToSend.toUInt32) (hmss : 0 < d.sender.sndMss) :
    0 < bytes := by
  rw [nextCall] at hnext
  split at hnext
  · next hstage =>
    cases hnext
    exact hsingle hstage
  · split_ifs at hnext
    · cases hnext
      exact hmss
    · exact pos_of_lastCall hnext
  · exact pos_of_lastCall hnext
  · cases hnext

/-- What holds before every call. -/
structure Underway (d : Sending) : Prop where
  placed : ∃ first una n max last stop, d.sender.Placed first una n max last stop
  single : d.stage = .single → 0 < d.bytesToSend.toUInt32

/-- **A call advances exactly if it has room.** -/
theorem Underway.advances_iff (h : d.Underway) (hnext : d.nextCall = some bytes) :
    d.Advances bytes time ↔ d.HasRoom bytes time := by
  obtain ⟨⟨first, una, n, max, last, stop, hplaced⟩, hsingle⟩ := h
  have huna := hplaced.una_le
  have hpos {header : TCPSegment Unit} (hcan : d.sender.CanSend time header) : 0 < bytes :=
    pos_of_nextCall hnext hsingle (UInt32.lt_of_le_of_lt (UInt32.zero_le) hcan.fits)
  constructor
  · rintro ⟨s', tcpseg, hsend, hlength, -, hle⟩
    obtain ⟨header, hcan⟩ := hplaced.canSend hsend hlength
    obtain ⟨s'', tcpseg', last', hsend', hplaced', -⟩ := hplaced.sendSegment_ok hcan (hpos hcan)
    rw [hsend] at hsend'
    cases hsend'
    rw [outstanding_eq hplaced'] at hle
    refine ⟨header, hcan, ?_⟩
    rw [outstanding_eq hplaced]
    omega
  · rintro ⟨header, hcan, hroom⟩
    obtain ⟨s', tcpseg, last', hsend, hplaced', -, -, hlength, -⟩ :=
      hplaced.sendSegment_ok hcan (hpos hcan)
    have hsize := hcan.segmentSize_pos (hpos hcan)
    rw [outstanding_eq hplaced] at hroom
    refine ⟨s', tcpseg, hsend, hlength ▸ hsize, ?_, ?_⟩
    · rw [outstanding_eq hplaced, outstanding_eq hplaced']
      omega
    · rw [outstanding_eq hplaced']
      omega

theorem call_inv (hcall : d.call bytes time = .ok d') :
    ∃ tcpseg, d.sender.sendSegment bytes time = .ok (d'.sender, tcpseg) ∧
      d'.maxWindow = d.maxWindow ∧ d'.stage = d.nextStage := by
  obtain ⟨⟨sender, tcpseg⟩, hsend, heq⟩ := exists_of_bind_eq_ok hcall
  cases heq
  exact ⟨tcpseg, hsend, rfl, rfl⟩

/-- A call that has room leads to the next one. -/
theorem Underway.turn (h : d.Underway) (hturn : Turn time d d')
    (hroom : ∀ bytes, d.nextCall = some bytes → d.HasRoom bytes time) : d'.Underway := by
  obtain ⟨bytes, hnext, hcall⟩ := hturn
  obtain ⟨header, hcan, -⟩ := hroom bytes hnext
  obtain ⟨⟨first, una, n, max, last, stop, hplaced⟩, hsingle⟩ := h
  obtain ⟨tcpseg, hsend, -, hstage⟩ := call_inv hcall
  obtain ⟨s', tcpseg', last', hsend', hplaced', -⟩ := hplaced.sendSegment_ok hcan
    (pos_of_nextCall hnext hsingle (UInt32.lt_of_le_of_lt (UInt32.zero_le) hcan.fits))
  rw [hsend] at hsend'
  cases hsend'
  refine ⟨⟨_, _, _, _, _, _, hplaced'⟩, fun hsingle' ↦ ?_⟩
  rw [hstage, nextStage] at hsingle'
  split at hsingle' <;> first | cases hsingle' | split_ifs at hsingle'

/-- Every call is one that has room or can still be made. -/
theorem Underway.of_reaches (h : d.Underway)
    (hroom : ∀ d', Relation.ReflTransGen (Turn time) d d' → d'.Underway →
      ∀ bytes, d'.nextCall = some bytes → d'.HasRoom bytes time)
    (hreach : Relation.ReflTransGen (Turn time) d d') : d'.Underway := by
  induction hreach with
  | refl => exact h
  | tail hreach hturn ih => exact ih.turn hturn (hroom _ hreach ih)

/-- **The loops end** when every call advances: what is left of the window is the measure. -/
theorem exists_sendAll_eq_ok (hadvances : ∀ d', Relation.ReflTransGen (Turn time) d d' →
      ∀ bytes, d'.nextCall = some bytes → d'.Advances bytes time)
    {rounds : ℕ} (hrounds : d.maxWindow.toNat - outstanding d.sender ≤ rounds) :
    ∃ d', d.sendAll time rounds = .ok d' := by
  induction rounds generalizing d with
  | zero =>
    rw [sendAll]
    cases hnext : d.nextCall with
    | none => exact ⟨d, rfl⟩
    | some bytes =>
      obtain ⟨s', tcpseg, -, -, hlt, hle⟩ := hadvances d .refl bytes hnext
      omega
  | succ rounds ih =>
    rw [sendAll]
    cases hnext : d.nextCall with
    | none => exact ⟨d, rfl⟩
    | some bytes =>
      obtain ⟨s', tcpseg, hsend, -, hlt, hle⟩ := hadvances d .refl bytes hnext
      obtain ⟨d', hcall, hsender, hwindow⟩ : ∃ d', d.call bytes time = .ok d' ∧
          d'.sender = s' ∧ d'.maxWindow = d.maxWindow := by
        rw [call, hsend]
        exact ⟨_, rfl, rfl, rfl⟩
      have hturn : Turn time d d' := ⟨bytes, hnext, hcall⟩
      obtain ⟨d'', heq⟩ := ih (d := d') (fun d'' hreach ↦ hadvances d'' (.head hturn hreach))
        (by rw [hsender, hwindow]; omega)
      refine ⟨d'', ?_⟩
      show (ofRuntime (d.call bytes time) >>= _) = _
      rw [hcall]
      exact heq

end Sending

namespace TCPSender

variable {s : TCPSender} {first una n max last stop : ℕ} {congestionWindow : UInt32}
  {fullSegmentsOnly : Bool} {d : Sending}

/-- What `sendData` starts with. -/
theorem startSending_inv (hstart : s.startSending fullSegmentsOnly congestionWindow = some d) :
    d.sender = s.rewound ∧ 0 < d.bytesToSend.toUInt32 := by
  rw [startSending] at hstart
  generalize (if s.rewound.tsEnabled = true then s.rewound.sndMss - TCP_OPTION_TS_SIZE
    else s.rewound.sndMss) = effectiveMaxBytesSend at hstart
  split_ifs at hstart with hnone
  all_goals
    cases hstart
    refine ⟨rfl, ?_⟩
    have hbuffered := (s.rewound.sendQueue.getBytesAvailable s.rewound.sndNxt).toNat_lt
    have hne : (s.rewound.sendQueue.getBytesAvailable s.rewound.sndNxt).toNat ≠ 0 :=
      fun hzero ↦ hnone (.inl (UInt32.toNat_inj.1 hzero))
    have hwin := fun hzero ↦ hnone (.inr (.inl hzero))
    rw [UInt32.lt_iff_toNat_lt, UInt64.toNat_toUInt32, UInt64.toNat_ofNat']
    show 0 < _
    omega

theorem Placed.underway (h : s.Placed first una n max last stop)
    (hstart : s.startSending fullSegmentsOnly congestionWindow = some d) : d.Underway := by
  obtain ⟨hsender, hpos⟩ := startSending_inv hstart
  exact ⟨⟨_, _, _, _, _, _, hsender ▸ h.rewound⟩, fun _ ↦ hpos⟩

/-- **`sendData` makes progress exactly if every call has room**: from a sender whose sequence
numbers are placed, every call advances `snd_nxt` within the window and the loops end if and only if
before each of them the header can be written, an octet is left behind those that are passed over,
and the window has room. -/
theorem makesProgress_iff (h : s.Placed first una n max last stop) {time : UInt32}
    (hstart : s.startSending fullSegmentsOnly congestionWindow = some d) :
    d.MakesProgress time ↔ ∀ d', Relation.ReflTransGen (Sending.Turn time) d d' →
      ∀ bytes, d'.nextCall = some bytes → d'.HasRoom bytes time := by
  have hunderway := h.underway hstart
  constructor
  · rintro ⟨hadvances, -⟩ d' hreach bytes hnext
    have hroom : ∀ d', Relation.ReflTransGen (Sending.Turn time) d d' → d'.Underway →
        ∀ bytes, d'.nextCall = some bytes → d'.HasRoom bytes time :=
      fun d' hreach h bytes hnext ↦ (h.advances_iff hnext).1 (hadvances d' hreach bytes hnext)
    exact hroom d' hreach (hunderway.of_reaches hroom hreach) bytes hnext
  · intro hroom
    have hadvances : ∀ d', Relation.ReflTransGen (Sending.Turn time) d d' →
        ∀ bytes, d'.nextCall = some bytes → d'.Advances bytes time :=
      fun d' hreach bytes hnext ↦
        ((hunderway.of_reaches (fun d' hreach _ ↦ hroom d' hreach) hreach).advances_iff hnext).2
          (hroom d' hreach bytes hnext)
    exact ⟨hadvances, _, Sending.exists_sendAll_eq_ok hadvances le_rfl⟩

end TCPSender

open TCPSender

/-- A sender with 500 octets in its queue. -/
def filled : TCPSender where
  rcvNxt := 5000
  rcvWnd := 2000
  rcvAdv := 7000
  maxRcvBuffer := 2000
  receiveQueue := .init 5000
  sackEnabled := false
  sndUna := 1000
  sndNxt := 1000
  sndMax := 1000
  sndWnd := 10000
  rexmitQueue := {}
  sendQueue := ⟨1000, 1500⟩

/-- What it starts with. -/
def sendsAll : Sending where
  sender := filled
  maxWindow := 2000
  effectiveMaxBytesSend := 536
  bytesToSend := 500
  stage := .single

theorem placed_filled : filled.Placed 1000 1000 1000 1000 1000 1500 where
  sendQueue_eq := rfl
  sndUna_eq := rfl
  sndNxt_eq := rfl
  sndMax_eq := rfl
  first_le := le_rfl
  una_le := le_rfl
  una_le_max := le_rfl
  n_le := by decide
  max_le := by decide
  stop_lt := by decide
  sndFinSeq_eq hfin := absurd hfin (by decide)
  valid hsack := absurd hsack (by decide)
  last_le hsack := absurd hsack (by decide)
  n_le_last hsack := absurd hsack (by decide)
  max_le_last hsack := absurd hsack (by decide)

/-- The segment it sends is the only one. -/
theorem reaches_sendsAll {d : Sending} (h : Relation.ReflTransGen (Sending.Turn 0) sendsAll d) :
    d = sendsAll ∨ d.nextCall = none := by
  rcases Relation.ReflTransGen.cases_head h with rfl | ⟨d₁, ⟨bytes, hnext, hcall⟩, hreach⟩
  · exact .inl rfl
  · have hbytes : sendsAll.nextCall = some 500 := rfl
    rw [hbytes] at hnext
    cases hnext
    have hlast : (sendsAll.call 500 0).map Sending.nextCall = .ok none := by decide +kernel
    rw [hcall] at hlast
    have hnone : d₁.nextCall = none := by simpa [Except.map] using hlast
    rcases Relation.ReflTransGen.cases_head hreach with rfl | ⟨d₂, ⟨bytes, hnext, -⟩, -⟩
    · exact .inr hnone
    · rw [hnone] at hnext
      cases hnext

theorem makesProgress_iff_sendsAll : sendsAll.MakesProgress 0 :=
  have hstart : filled.startSending false 2000 = some sendsAll := rfl
  (makesProgress_iff placed_filled hstart).2 (by
    intro d hreach bytes hnext
    rcases reaches_sendsAll hreach with rfl | hnone
    · have hbytes : sendsAll.nextCall = some 500 := rfl
      rw [hbytes] at hnext
      cases hnext
      exact ⟨{ ackBit := true }, ⟨⟨_, rfl⟩, by decide, by decide, by decide +kernel⟩,
        by decide +kernel⟩
    · rw [hnone] at hnext
      cases hnext)

/-- A sender whose first segment has been sent again after a time-out, and whose second one has been
sacked since. -/
def allSacked : TCPSender where
  rcvNxt := 5000
  rcvWnd := 2000
  rcvAdv := 7000
  maxRcvBuffer := 2000
  receiveQueue := .init 5000
  sndUna := 1000
  sndNxt := 1536
  sndMax := 2072
  sndWnd := 10000
  afterRto := true
  rexmitQueue := ⟨[⟨1000, 1536, false, true⟩, ⟨1536, 2072, true, false⟩], 1000, 2072⟩
  sendQueue := ⟨1000, 2072⟩

/-- What it starts with. -/
def sendsNothing : Sending where
  sender := allSacked
  maxWindow := 2000
  effectiveMaxBytesSend := 536
  bytesToSend := 536
  stage := .single

theorem placed_allSacked : allSacked.Placed 1000 1000 1536 2072 2072 2072 where
  sendQueue_eq := rfl
  sndUna_eq := rfl
  sndNxt_eq := rfl
  sndMax_eq := rfl
  first_le := le_rfl
  una_le := by decide
  una_le_max := by decide
  n_le := by decide
  max_le := by decide
  stop_lt := by decide
  sndFinSeq_eq hfin := absurd hfin (by decide)
  valid _ :=
    { begin_eq := rfl
      stop_eq := rfl
      tiles := .cons ⟨rfl, rfl, by decide, by decide⟩ (by decide)
        (.single ⟨rfl, rfl, by decide, by decide⟩ (by decide))
      lt := by decide }
  last_le _ := le_rfl
  n_le_last _ := .inl (by decide)
  max_le_last _ := .inl le_rfl

/-- **With all octets from `snd_nxt` on sacked, an assertion fails**: nothing is left to be sent,
and the scoreboard does not take an empty segment. -/
theorem not_makesProgress :
    ¬ ∀ (s : TCPSender) (first una n max last stop : ℕ) (fullSegmentsOnly : Bool)
      (congestionWindow time : UInt32) (d : Sending), s.Placed first una n max last stop →
      s.startSending fullSegmentsOnly congestionWindow = some d → d.MakesProgress time := by
  intro h
  obtain ⟨hadvances, -⟩ := h allSacked _ _ _ _ _ _ false 2000 0 sendsNothing placed_allSacked rfl
  obtain ⟨s', tcpseg, hsend, -⟩ := hadvances sendsNothing .refl 536 rfl
  have hfails : (allSacked.sendSegment 536 0).toOption.isSome = false := by decide +kernel
  rw [show allSacked.sendSegment 536 0 = _ from hsend] at hfails
  cases hfails

end Inet.Tcp
