import Inet.TransportLayer.SackRuns

/-!
# The window that is offered

`updateRcvWnd` chooses the window of every segment that is sent. As long as `rcv_nxt` has not moved
past `rcv_adv`, the right edge of what has been offered, the window is at most what is free or still
open, the edge does not move to the left, and the window fits into the header (`updateRcvWnd_spec`).

The difference `rcv_adv - rcv_nxt` is unsigned. When a FIN or text moves `rcv_nxt` past the edge, it
is close to `2 ^ 32`, and so is the window. The code meets its promise in the runs in which no text
reaches past the edge and no FIN has its number (`keepsPromise_of_run`); with the window closed, a
FIN is enough to break it (`not_keepsPromise`).
-/

namespace Inet.Tcp

open SerialNumber IntervalList

namespace TCPConnection

/-- What is free in the receive buffer. -/
def freeRcvBuffer (conn : TCPConnection) : UInt32 :=
  conn.receiveQueue.getAmountOfFreeBytes conn.maxRcvBuffer

/-- The space between `rcv_nxt` and the edge, none if the edge has been passed. -/
def openSpace (rcvAdv rcvNxt : UInt32) : ℕ :=
  if seqLE rcvNxt rcvAdv then (rcvAdv - rcvNxt).toNat else 0

/-- The promise, for what an event does: no assertion fails (reading may run into one of the queue),
the edge does not move to the left, and the window of an answer is at most what is free or open. -/
def KeepsPromise (conn : TCPConnection) (e : ReceiverEvent) : Prop :=
  (e ≠ .read → ∀ err, conn.handle e ≠ .error (.runtime err)) ∧
    ∀ conn' replies, conn.handle e = .ok (conn', replies) →
      seqLE conn.rcvAdv conn'.rcvAdv ∧
      (replies ≠ [] →
        conn'.rcvWnd.toNat ≤ max conn'.freeRcvBuffer.toNat (openSpace conn.rcvAdv conn'.rcvNxt))

/-- A segment of the stream carries no bytes, and it is not so long that sequence numbers around it
cannot be compared. -/
def ArrivesShort (conn : TCPConnection) : ReceiverEvent → Prop
  | .arrive a => a.tcpseg.byteArray = [] ∧
      a.tcpseg.payloadLength + conn.maxRcvBuffer.toNat < 2 ^ 31
  | _ => True

/-- The FSM does not come back to the states in which text is processed. -/
def StaysPast (conn : TCPConnection) : ReceiverEvent → Prop
  | .enter s => s.ProcessesText → conn.fsmState.ProcessesText
  | _ => True

/-- No text that goes into the receive queue reaches past the edge, and no FIN has the number of the
edge: neither that of the segment nor one that has been stored. -/
def WithinEdge (conn : TCPConnection) : ReceiverEvent → Prop
  | .arrive a =>
    (∀ tcpseg ∈ conn.insertedText (.arrive a), seqLE tcpseg.endNo conn.rcvAdv) ∧
      (((conn.insertedText (.arrive a)).getD a.tcpseg).finBit = true →
        ((conn.insertedText (.arrive a)).getD a.tcpseg).endNo ≠ conn.rcvAdv) ∧
      (conn.finRcvd = true → conn.rcvFinSeq ≠ conn.rcvAdv)
  | _ => True

/-- A connection that has been established and has not received any data. Its buffer fits the
scale. -/
structure Established (conn : TCPConnection) : Prop where
  processesText : conn.fsmState.ProcessesText
  receiveQueue_eq : conn.receiveQueue = .init conn.rcvNxt
  rcvAdv_eq : conn.rcvAdv = conn.rcvNxt + conn.rcvWnd
  rcvWnd_le : conn.rcvWnd ≤ conn.maxRcvBuffer
  rcvWndScale_le : conn.rcvWndScale ≤ 14
  fits : conn.maxRcvBuffer >>> conn.rcvWndScale ≤ 65535

end TCPConnection

/-- A connection that receives, as a transition system. -/
def windowedReceiver : TransitionSystem TCPConnection ReceiverEvent (List Reply) where
  Init := TCPConnection.Established
  Step conn e replies conn' :=
    conn.ArrivesShort e ∧ conn.StaysPast e ∧ conn.handle e = .ok (conn', replies)

namespace TCPConnection

/-! ### The window -/

/-- `rcv_nxt` is at `n`, the edge at `adv`, and what is open fits into the buffer. -/
structure Windowed (conn : TCPConnection) (n adv : ℕ) : Prop where
  rcvNxt_eq : conn.rcvNxt = wrap n
  rcvAdv_eq : conn.rcvAdv = wrap adv
  le : n ≤ adv
  adv_le : adv ≤ n + conn.maxRcvBuffer.toNat
  rcvWnd_le : conn.rcvWnd.toNat ≤ conn.maxRcvBuffer.toNat
  rcvWndScale_le : conn.rcvWndScale.toNat ≤ 14
  fits : (conn.maxRcvBuffer >>> conn.rcvWndScale).toNat ≤ 65535

variable {conn conn' : TCPConnection} {n adv : ℕ}

theorem toNat_shiftRight {a b : UInt32} (hb : b.toNat ≤ 14) :
    (a >>> b).toNat = a.toNat / 2 ^ b.toNat := by
  rw [UInt32.toNat_shiftRight, Nat.mod_eq_of_lt (by omega), Nat.shiftRight_eq_div_pow]

/-- The buffer is small against the number space. -/
theorem Windowed.maxRcvBuffer_lt (h : conn.Windowed n adv) :
    conn.maxRcvBuffer.toNat + 1 < 2 ^ 31 := by
  have hfits := h.fits
  rw [toNat_shiftRight h.rcvWndScale_le] at hfits
  have hpow : 2 ^ conn.rcvWndScale.toNat ≤ 2 ^ 14 :=
    Nat.pow_le_pow_right (by decide) h.rcvWndScale_le
  have hdiv := (Nat.div_le_iff_le_mul (Nat.two_pow_pos _)).1 hfits
  omega

theorem freeRcvBuffer_le (conn : TCPConnection) :
    conn.freeRcvBuffer.toNat ≤ conn.maxRcvBuffer.toNat := by
  rw [freeRcvBuffer, TCPVirtualDataRcvQueue.getAmountOfFreeBytes]
  split_ifs with hlt
  · rw [UInt32.toNat_sub_of_le _ _ (UInt32.le_of_lt hlt)]
    exact Nat.sub_le _ _
  · exact Nat.zero_le _

/-- What is open, as the code computes it. -/
theorem Windowed.toNat_sub (h : conn.Windowed n adv) :
    (conn.rcvAdv - conn.rcvNxt).toNat = adv - n := by
  have hmax := h.maxRcvBuffer_lt
  have hadv := h.adv_le
  rw [h.rcvNxt_eq, h.rcvAdv_eq, toNat_wrap_sub_wrap h.le (by omega)]

theorem Windowed.offeredWindow_le (h : conn.Windowed n adv) :
    conn.offeredWindow.toNat ≤ max conn.freeRcvBuffer.toNat (adv - n) := by
  rw [← h.toNat_sub]
  have hzero : (0 : UInt32).toNat = 0 := rfl
  have hcap : (65535 : UInt32).toNat = 65535 := rfl
  show (conn.offeredWindow).toNat ≤ max (TCPVirtualDataRcvQueue.getAmountOfFreeBytes _ _).toNat _
  rw [offeredWindow]
  simp only [UInt32.lt_iff_toNat_lt]
  split_ifs <;> omega

/-- **The window fits into the header.** -/
theorem Windowed.scaledWindow_le (h : conn.Windowed n adv) : conn.scaledWindow.toNat ≤ 65535 := by
  have hoffered : conn.offeredWindow.toNat ≤ conn.maxRcvBuffer.toNat := by
    have hle := h.offeredWindow_le
    have hfree := conn.freeRcvBuffer_le
    have hadv := h.adv_le
    omega
  have hfits := h.fits
  rw [toNat_shiftRight h.rcvWndScale_le] at hfits
  rw [scaledWindow]
  split_ifs with hscaled
  · rw [toNat_shiftRight h.rcvWndScale_le]
    exact (Nat.div_le_div_right hoffered).trans hfits
  · by_cases henabled : conn.wsEnabled = true
    · have hscale : conn.rcvWndScale = 0 := by simpa [henabled] using hscaled
      rw [hscale] at hfits
      exact hoffered.trans (by simpa using hfits)
    · have hcap (win : UInt32) :
          (if 65535 < win ∧ ¬ conn.wsEnabled = true then 65535 else win).toNat ≤ 65535 := by
        split_ifs with hlarge
        · exact le_rfl
        · exact not_lt.1 fun hlt ↦ hlarge ⟨UInt32.lt_iff_toNat_lt.2 hlt, henabled⟩
      exact hcap _

/-- **`updateRcvWnd` keeps the promise** while `rcv_nxt` is not past the edge. -/
theorem Windowed.updateRcvWnd_spec (h : conn.Windowed n adv) :
    ∃ rcvWnd adv' window,
      conn.updateRcvWnd = .ok ({ conn with rcvWnd, rcvAdv := wrap adv' }, window) ∧
      adv ≤ adv' ∧ Windowed { conn with rcvWnd, rcvAdv := wrap adv' } n adv' ∧
      rcvWnd.toNat ≤ max conn.freeRcvBuffer.toNat (adv - n) := by
  have hmax := h.maxRcvBuffer_lt
  have hle := h.le
  have hadv := h.adv_le
  have hwindow := h.offeredWindow_le
  have hfree := conn.freeRcvBuffer_le
  have hscaled := h.scaledWindow_le
  have hpasses : ¬ (conn.wsEnabled ∧ 14 < conn.rcvWndScale ∨ 65535 < conn.scaledWindow) := by
    rintro (⟨-, hscale⟩ | hlarge)
    · exact absurd h.rcvWndScale_le (not_le.2 (UInt32.lt_iff_toNat_lt.1 hscale))
    · exact absurd hscaled (not_le.2 (UInt32.lt_iff_toNat_lt.1 hlarge))
  have hedge : conn.rcvNxt + conn.offeredWindow = wrap (n + conn.offeredWindow.toNat) := by
    rw [h.rcvNxt_eq, ← wrap_add_wrap, wrap_toNat]
  have hright : seqGE (conn.rcvNxt + conn.offeredWindow) conn.rcvAdv ↔
      adv ≤ n + conn.offeredWindow.toNat := by
    rw [hedge, h.rcvAdv_eq, seqGE_wrap ⟨by omega, by omega⟩]
  have hwithin : conn.offeredWindow.toNat ≤ conn.maxRcvBuffer.toNat := by omega
  obtain ⟨adv', hadv', hle', hfits⟩ : ∃ adv', (if 0 < conn.offeredWindow ∧
      seqGE (conn.rcvNxt + conn.offeredWindow) conn.rcvAdv then conn.rcvNxt + conn.offeredWindow
      else conn.rcvAdv) = wrap adv' ∧ adv ≤ adv' ∧ adv' ≤ n + conn.maxRcvBuffer.toNat := by
    by_cases hmoves : 0 < conn.offeredWindow ∧ seqGE (conn.rcvNxt + conn.offeredWindow) conn.rcvAdv
    · exact ⟨_, (if_pos hmoves).trans hedge, hright.1 hmoves.2, Nat.add_le_add_left hwithin n⟩
    · exact ⟨adv, (if_neg hmoves).trans h.rcvAdv_eq, le_rfl, hadv⟩
  refine ⟨conn.offeredWindow, adv', conn.scaledWindow.toUInt16, ?_, hle', ?_, hwindow⟩
  · rw [updateRcvWnd, if_neg hpasses, ← hadv']
  · exact { h with
      rcvAdv_eq := rfl
      le := hle.trans hle'
      adv_le := hfits
      rcvWnd_le := hwithin }

/-- What an answer leaves as it is. -/
structure Answers (conn conn' : TCPConnection) : Prop where
  receiveQueue_eq : conn'.receiveQueue = conn.receiveQueue
  maxRcvBuffer_eq : conn'.maxRcvBuffer = conn.maxRcvBuffer
  fsmState_eq : conn'.fsmState = conn.fsmState

/-- **An answer keeps the promise** while `rcv_nxt` is not past the edge. -/
theorem Windowed.sendAck_spec (h : conn.Windowed n adv) (time : UInt32) :
    (∃ c, conn.sendAck time = .error (.addSacks c)) ∨
      ∃ conn' reply adv', conn.sendAck time = .ok (conn', reply) ∧ adv ≤ adv' ∧
        conn'.Windowed n adv' ∧ conn'.rcvWnd.toNat ≤ max conn.freeRcvBuffer.toNat (adv - n) ∧
        Answers conn conn' := by
  obtain ⟨rcvWnd, adv', window, hupdate, hle, hwindowed, hwnd⟩ := h.updateRcvWnd_spec
  cases hwrite : TCPConnection.writeHeaderOptions { conn with rcvWnd, rcvAdv := wrap adv' }
      { ackBit := true, ackNo := conn.rcvNxt, window } time with
  | none =>
    refine .inl ⟨{ conn with rcvWnd, rcvAdv := wrap adv' }, ?_⟩
    simp only [sendAck, hupdate, orRuntime, bind, Except.bind, hwrite]
  | some r =>
    obtain ⟨conn', tcpseg⟩ := r
    refine .inr ⟨_, _, adv', sendAck_eq hupdate hwrite, hle, ?_⟩
    rcases (writeHeaderOptions_ok hwrite rfl).1 with rfl | ⟨sacksArray, rfl⟩
    · exact ⟨⟨hwindowed.1, hwindowed.2, hwindowed.3, hwindowed.4, hwindowed.5, hwindowed.6,
        hwindowed.7⟩, hwnd, rfl, rfl, rfl⟩
    · exact ⟨⟨hwindowed.1, hwindowed.2, hwindowed.3, hwindowed.4, hwindowed.5, hwindowed.6,
        hwindowed.7⟩, hwnd, rfl, rfl, rfl⟩

/-! ### What an event does -/

/-- A connection without the entries for the next report. -/
def forgetSacks (conn : TCPConnection) : TCPConnection :=
  { conn with sacksArray := [] }

/-- The receive queue has what has been received, and nothing from the edge on has been. -/
def Queued (conn : TCPConnection) (n adv : ℕ) : Prop :=
  ∃ σ k ps, Ready conn.forgetSacks σ k n n [] ps ∧ ∀ x ∈ σ.received, x < adv

/-- What an event leads to when `rcv_nxt` was at `n` and the edge at `adv`. -/
def Promised (n adv : ℕ) : Except ReceiveError (TCPConnection × List Reply) → Prop
  | .error (.runtime _) => False
  | .error (.addSacks _) => True
  | .ok (conn', replies) => ∃ n' adv', n ≤ n' ∧ n' ≤ adv ∧ adv ≤ adv' ∧ conn'.Windowed n' adv' ∧
      (replies ≠ [] → conn'.rcvWnd.toNat ≤ max conn'.freeRcvBuffer.toNat (adv - n')) ∧
      (conn'.fsmState.ProcessesText → conn'.Queued n' adv')

variable {m old : ℕ} {fin : Bool} {tcpseg : TCPSegment Unit} {arrival : Arrival}

theorem Queued.congr (h : conn.Queued n adv) {adv' : ℕ} (hle : adv ≤ adv')
    (hqueue : conn'.receiveQueue = conn.receiveQueue) (hrcvNxt : conn'.rcvNxt = conn.rcvNxt)
    (hmax : conn'.maxRcvBuffer = conn.maxRcvBuffer) : conn'.Queued n adv' := by
  obtain ⟨σ, k, ps, hready, hbelow⟩ := h
  exact ⟨σ, k, ps, hready.congr hqueue hrcvNxt hmax rfl, fun x hx ↦ (hbelow x hx).trans_le hle⟩

/-- A FIN leads out of the states in which text is processed. -/
theorem processesText_moveFsm (h : (conn.moveFsm fin).fsmState.ProcessesText) :
    fin = false ∧ conn.fsmState.ProcessesText := by
  cases fin with
  | false => exact ⟨rfl, h⟩
  | true =>
    by_cases htext : conn.fsmState.ProcessesText
    · exact absurd h.writesOptions (TCPState.not_writesOptions_afterFin htext conn.finAckRcvd)
    · have hsame : conn.fsmState.afterFin conn.finAckRcvd = conn.fsmState := by
        cases hfsm : conn.fsmState <;> rw [hfsm] at htext <;>
          first | rfl | exact absurd trivial htext
      exact absurd (hsame ▸ h : conn.fsmState.ProcessesText) htext

theorem Windowed.moveFsm (h : conn.Windowed n adv) (fin : Bool) :
    (conn.moveFsm fin).Windowed n adv := by
  cases fin <;> exact ⟨h.1, h.2, h.3, h.4, h.5, h.6, h.7⟩

theorem Queued.moveFsm (h : conn.Queued n adv) (fin : Bool) : (conn.moveFsm fin).Queued n adv := by
  cases fin <;> exact h.congr le_rfl rfl rfl rfl

theorem freeRcvBuffer_moveFsm (conn : TCPConnection) (fin : Bool) :
    (conn.moveFsm fin).freeRcvBuffer = conn.freeRcvBuffer := by
  cases fin <;> rfl

theorem rcvWnd_moveFsm (conn : TCPConnection) (fin : Bool) :
    (conn.moveFsm fin).rcvWnd = conn.rcvWnd := by
  cases fin <;> rfl

/-- A connection that only goes on. -/
theorem promised_of_ok (h : conn.Windowed m adv) (hle : n ≤ m)
    (hqueue : fin = false → conn.fsmState.ProcessesText → conn.Queued m adv) :
    Promised n adv (.ok (conn.moveFsm fin, [])) := by
  refine ⟨m, adv, hle, h.le, le_rfl, h.moveFsm fin, fun hne ↦ absurd rfl hne, fun htext ↦ ?_⟩
  obtain ⟨hfin, htext⟩ := processesText_moveFsm htext
  exact (hqueue hfin htext).moveFsm fin

/-- A single answer, after which the FSM may move. -/
theorem promised_of_answer (h : conn.Windowed m adv) (hle : n ≤ m) (time : UInt32)
    (hqueue : fin = false → conn.fsmState.ProcessesText → conn.Queued m adv) :
    Promised n adv ((conn.sendAck time).map fun r ↦ (r.1.moveFsm fin, [r.2])) := by
  rcases h.sendAck_spec time with ⟨c, heq⟩ | ⟨conn', reply, adv', heq, hadv, hwindowed, hwnd, hsame⟩
  · rw [heq]
    trivial
  · rw [heq]
    have hrcvNxt : conn'.rcvNxt = conn.rcvNxt := hwindowed.rcvNxt_eq.trans h.rcvNxt_eq.symm
    refine ⟨m, adv', hle, h.le, hadv, hwindowed.moveFsm fin, fun _ ↦ ?_, fun htext ↦ ?_⟩
    · rw [rcvWnd_moveFsm, freeRcvBuffer_moveFsm, freeRcvBuffer, hsame.receiveQueue_eq,
        hsame.maxRcvBuffer_eq]
      exact hwnd
    · obtain ⟨hfin, htext⟩ := processesText_moveFsm htext
      exact ((hqueue hfin (hsame.fsmState_eq ▸ htext)).congr hadv hsame.receiveQueue_eq hrcvNxt
        hsame.maxRcvBuffer_eq).moveFsm fin

/-- An answer that nothing follows. -/
theorem promised_sendAck (h : conn.Windowed n adv) (time : UInt32)
    (hqueue : conn.fsmState.ProcessesText → conn.Queued n adv) :
    Promised n adv ((conn.sendAck time).map fun r ↦ (r.1, [r.2])) := by
  show Promised n adv ((conn.sendAck time).map fun r ↦ (r.1.moveFsm false, [r.2]))
  exact promised_of_answer h le_rfl time fun _ ↦ hqueue

/-- Over a FIN, `rcv_nxt` does not move past the edge if that is not where the FIN is. -/
theorem Windowed.overFin (h : conn.Windowed n adv) (hne : conn.rcvNxt ≠ conn.rcvAdv)
    (ackNow : Bool) :
    Windowed { conn with ackNow, rcvNxt := conn.rcvNxt + 1 } (n + 1) adv := by
  have hlt : n ≠ adv := fun heq ↦ hne (by rw [h.rcvNxt_eq, h.rcvAdv_eq, heq])
  have hle := h.le
  have hadv := h.adv_le
  have hsucc : conn.rcvNxt + 1 = wrap (n + 1) := by
    rw [h.rcvNxt_eq]
    exact wrap_add_wrap n 1
  have hopen : adv ≤ n + 1 + conn.maxRcvBuffer.toNat := by omega
  exact { h with rcvNxt_eq := hsucc, le := by omega, adv_le := hopen }

/-- The eighth step. -/
theorem Windowed.checkFin_spec (h : conn.Windowed n adv)
    (hfin : tcpseg.finBit = true → tcpseg.endNo ≠ conn.rcvAdv) :
    ∃ m, (conn.checkFin tcpseg).1.Windowed m adv ∧ n ≤ m ∧
      ((conn.checkFin tcpseg).2 = false → m = n) ∧ Answers conn (conn.checkFin tcpseg).1 := by
  rw [checkFin]
  split_ifs with hbit hnext
  · exact ⟨n + 1, h.overFin (hnext ▸ hfin hbit) true, Nat.le_succ n, False.elim, rfl, rfl, rfl⟩
  · exact ⟨n, ⟨h.1, h.2, h.3, h.4, h.5, h.6, h.7⟩, le_rfl, fun _ ↦ rfl, rfl, rfl, rfl⟩
  · exact ⟨n, h, le_rfl, fun _ ↦ rfl, rfl, rfl, rfl⟩

/-- **What follows the text.** -/
theorem promised_finishSegment (h : conn.Windowed n adv) (hle : old ≤ n) (oldRcvNxt : UInt32)
    (hfin : tcpseg.finBit = true → tcpseg.endNo ≠ conn.rcvAdv)
    (hqueue : fin = false → conn.fsmState.ProcessesText → conn.Queued n adv) :
    Promised old adv (conn.finishSegment oldRcvNxt tcpseg arrival [] fin) := by
  obtain ⟨m, hwindowed, hnm, hmoved, hsame⟩ := h.checkFin_spec hfin
  rw [finishSegment]
  generalize conn.checkFin tcpseg = checked at hwindowed hmoved hsame
  obtain ⟨conn₂, fin'⟩ := checked
  have hqueue' : (fin || fin') = false → conn₂.fsmState.ProcessesText → conn₂.Queued m adv := by
    intro hnone htext
    obtain ⟨hnone, hnone'⟩ := Bool.or_eq_false_iff.1 hnone
    obtain rfl := hmoved hnone'
    exact (hqueue hnone (hsame.fsmState_eq ▸ htext)).congr le_rfl hsame.receiveQueue_eq
      (hwindowed.rcvNxt_eq.trans h.rcvNxt_eq.symm) hsame.maxRcvBuffer_eq
  show Promised _ _ ((conn₂.acknowledge _ _ _ _).map _)
  rw [acknowledge]
  split_ifs with hsame'
  · exact promised_of_ok hwindowed (hle.trans hnm) hqueue'
  · -- what is noted for the report does not matter for the window
    obtain ⟨startSeqno, endSeqno, sndSack, ackNow, hnote⟩ : ∃ startSeqno endSeqno sndSack ackNow,
        conn₂.noteReceiveSeqChanged tcpseg =
          { conn₂ with startSeqno, endSeqno, sndSack, ackNow } := by
      rw [noteReceiveSeqChanged]
      split_ifs
      · exact ⟨_, _, _, _, rfl⟩
      · exact ⟨_, _, _, _, rfl⟩
    have hnoted : Windowed { conn₂ with startSeqno, endSeqno, sndSack, ackNow } m adv :=
      ⟨hwindowed.1, hwindowed.2, hwindowed.3, hwindowed.4, hwindowed.5, hwindowed.6, hwindowed.7⟩
    have hqueue'' : (fin || fin') = false → conn₂.fsmState.ProcessesText →
        Queued { conn₂ with startSeqno, endSeqno, sndSack, ackNow } m adv := fun hnone htext ↦
      (hqueue' hnone htext).congr le_rfl rfl rfl rfl
    have hmap (c : TCPConnection) :
        ((c.sendAck arrival.time).map fun r ↦ (r.1, [] ++ [r.2])).map
          (fun r ↦ (r.1.moveFsm (fin || fin'), r.2)) =
            (c.sendAck arrival.time).map fun r ↦ (r.1.moveFsm (fin || fin'), [r.2]) := by
      cases c.sendAck arrival.time <;> rfl
    show Promised _ _ ((if _ then _ else _ : Except _ _).map _)
    rw [hnote]
    split_ifs
    · rw [hmap]
      exact promised_of_answer hnoted (hle.trans hnm) arrival.time hqueue''
    · exact promised_of_ok hnoted (hle.trans hnm) hqueue''

/-! ### Text -/

/-- A segment is cut to the window without an assertion failing, if the two overlap. -/
theorem truncateSegment_of_overlap {n pos wnd : ℕ} (hbytes : tcpseg.byteArray = [])
    (hseq : tcpseg.sequenceNo = wrap pos) (hpos : 0 < tcpseg.payloadLength)
    (hbefore : pos < n + wnd) (hbehind : n < pos + tcpseg.payloadLength)
    (hshort : tcpseg.payloadLength + wnd < 2 ^ 31) :
    ∃ tcpseg', tcpseg.truncateSegment (wrap n) (wrap (n + wnd)) = .ok tcpseg' := by
  have hendNo : tcpseg.endNo = wrap (pos + tcpseg.payloadLength) := by
    rw [TCPSegment.endNo, hseq]
    exact wrap_add_wrap _ _
  have hcommon : seqLess tcpseg.sequenceNo (wrap (n + wnd)) ∧ seqLess (wrap n) tcpseg.endNo := by
    rw [hendNo, hseq, seqLess_wrap ⟨by omega, by omega⟩, seqLess_wrap ⟨by omega, by omega⟩]
    exact ⟨hbefore, hbehind⟩
  have hleft : (if seqLess tcpseg.sequenceNo (wrap n) then
      (wrap n - tcpseg.sequenceNo).toNat else 0) = n - pos := by
    simp only [hseq, seqLess_wrap (m := pos) (n := n) ⟨by omega, by omega⟩]
    split_ifs with hlt
    · exact toNat_wrap_sub_wrap hlt.le (by omega)
    · omega
  have hright : (if seqGreater tcpseg.endNo (wrap (n + wnd)) then
      (tcpseg.endNo - wrap (n + wnd)).toNat else 0) = pos + tcpseg.payloadLength - (n + wnd) := by
    simp only [hendNo, seqGreater_wrap (m := pos + tcpseg.payloadLength) (n := n + wnd)
      ⟨by omega, by omega⟩]
    split_ifs with hlt
    · exact toNat_wrap_sub_wrap hlt.le (by omega)
    · omega
  have hfits : ¬ tcpseg.payloadLength < n - pos + (pos + tcpseg.payloadLength - (n + wnd)) := by
    omega
  rw [TCPSegment.truncateSegment, if_neg hpos.ne', if_neg (not_not.2 hcommon)]
  show ∃ tcpseg', tcpseg.truncateData _ _ = .ok tcpseg'
  rw [hleft, hright, TCPSegment.truncateData, if_neg hfits, hbytes]
  exact ⟨_, rfl⟩

/-- Where an acceptable segment with text is. -/
theorem Windowed.position_of_acceptable (h : conn.Windowed n adv) (hn : 2 ^ 31 ≤ n)
    (hacceptable : conn.IsSegmentAcceptable arrival) (hpos : 0 < arrival.tcpseg.payloadLength)
    (hshort : arrival.tcpseg.payloadLength + conn.maxRcvBuffer.toNat < 2 ^ 31) :
    ∃ pos, arrival.tcpseg.sequenceNo = wrap pos ∧ pos < n + conn.rcvWnd.toNat ∧
      n < pos + arrival.tcpseg.payloadLength := by
  have hwnd := h.rcvWnd_le
  have hlen : (wrap arrival.tcpseg.payloadLength).toNat = arrival.tcpseg.payloadLength := by
    rw [toNat_wrap, Nat.mod_eq_of_lt (by omega)]
  have hne : UInt32.ofNat arrival.tcpseg.payloadLength ≠ 0 := by
    intro hzero
    have hnat : (wrap arrival.tcpseg.payloadLength).toNat = 0 := congrArg UInt32.toNat hzero
    omega
  have hedge : conn.rcvNxt + conn.rcvWnd = wrap (n + conn.rcvWnd.toNat) := by
    rw [h.rcvNxt_eq, ← wrap_add_wrap, wrap_toNat]
  have hif := hacceptable.2
  rw [if_neg hne, hedge, h.rcvNxt_eq] at hif
  rcases hif.2 with ⟨hge, hless⟩ | ⟨hgreater, hle⟩
  · -- the segment begins in the window
    have hseq := wrap_add_sub n arrival.tcpseg.sequenceNo
    rw [seqLE] at hge
    generalize (arrival.tcpseg.sequenceNo - wrap n).toNat = offset at hge hseq
    rw [← hseq, seqLess_wrap ⟨by omega, by omega⟩] at hless
    exact ⟨n + offset, hseq.symm, hless, by omega⟩
  · -- it ends in the window
    have hend := wrap_add_sub n (arrival.tcpseg.sequenceNo + wrap arrival.tcpseg.payloadLength)
    have hfar : (arrival.tcpseg.sequenceNo + wrap arrival.tcpseg.payloadLength - wrap n).toNat <
        2 ^ 31 := hgreater.2
    have hfirst : wrap n ≠ arrival.tcpseg.sequenceNo + wrap arrival.tcpseg.payloadLength :=
      hgreater.1
    have hlast : seqLE (arrival.tcpseg.sequenceNo + wrap arrival.tcpseg.payloadLength)
      (wrap (n + conn.rcvWnd.toNat)) := hle
    generalize (arrival.tcpseg.sequenceNo + wrap arrival.tcpseg.payloadLength - wrap n).toNat =
      offset at hfar hend
    rw [← hend, seqLE_wrap ⟨by omega, by omega⟩] at hlast
    rw [← hend, ne_eq, wrap_eq_wrap ⟨by omega, by omega⟩] at hfirst
    refine ⟨n + offset - arrival.tcpseg.payloadLength, ?_, by omega, by omega⟩
    have hsum : wrap (n + offset - arrival.tcpseg.payloadLength) +
        wrap arrival.tcpseg.payloadLength =
          arrival.tcpseg.sequenceNo + wrap arrival.tcpseg.payloadLength := by
      rw [wrap_add_wrap, Nat.sub_add_cancel (by omega), hend]
    exact (UInt32.add_left_inj _).1 hsum.symm

/-- **The text of an acceptable segment** is cut without an assertion failing. If it is inserted, it
begins at or behind `rcv_nxt` and ends within the buffer. -/
theorem Windowed.textToInsert_cases (h : conn.Windowed n adv) (hn : 2 ^ 31 ≤ n) {σ : Stream}
    {ps : List (ℕ × ℕ)} (hready : Ready conn.forgetSacks σ σ.first n n [] ps)
    (hacceptable : conn.IsSegmentAcceptable arrival) (hpos : 0 < arrival.tcpseg.payloadLength)
    (hbytes : arrival.tcpseg.byteArray = [])
    (hshort : arrival.tcpseg.payloadLength + conn.maxRcvBuffer.toNat < 2 ^ 31) :
    conn.textToInsert arrival.tcpseg = .ok none ∨
      ∃ tcpseg x y, conn.textToInsert arrival.tcpseg = .ok (some tcpseg) ∧
        tcpseg.sequenceNo = wrap x ∧ x + tcpseg.payloadLength = y ∧ x < y ∧ n ≤ x ∧
        y < n + 2 ^ 31 ∧ y ≤ σ.first + conn.maxRcvBuffer.toNat := by
  have hwnd := h.rcvWnd_le
  obtain ⟨pos, hseq, hbefore, hbehind⟩ :=
    h.position_of_acceptable hn hacceptable hpos hshort
  obtain ⟨tcpseg, htrunc⟩ :=
    truncateSegment_of_overlap hbytes hseq hpos hbefore hbehind (by omega)
  have hedge : conn.rcvNxt + conn.rcvWnd = wrap (n + conn.rcvWnd.toNat) := by
    rw [h.rcvNxt_eq, ← wrap_add_wrap, wrap_toNat]
  have htext : conn.textToInsert arrival.tcpseg =
      .ok (if conn.HasEnoughSpaceForSegmentInReceiveQueue tcpseg then some tcpseg else none) := by
    rw [textToInsert, hedge, h.rcvNxt_eq, htrunc]
    rfl
  by_cases hspace : conn.HasEnoughSpaceForSegmentInReceiveQueue tcpseg
  · rw [if_pos hspace] at htext
    obtain ⟨x, y, hx, hy, hxy, hnx, -, hyend, hybuffer⟩ :=
      textToInsert_spec hready hacceptable hpos hseq (by omega) (by omega) htext
    exact .inr ⟨tcpseg, x, y, htext, hx, hy, hxy, hnx, by omega, hybuffer⟩
  · rw [if_neg hspace] at htext
    exact .inl htext

/-- Passing on the data does not look at the entries. -/
theorem passData_of_forgetSacks {q : TCPVirtualDataRcvQueue VirtualRegion}
    (h : conn.forgetSacks.passData = .ok { conn.forgetSacks with receiveQueue := q }) :
    conn.passData = .ok { conn with receiveQueue := q } := by
  rw [passData] at h ⊢
  by_cases hnotify : conn.useDataNotification = true
  · have hq : conn.receiveQueue = q := by
      rw [if_pos (show conn.forgetSacks.useDataNotification = true from hnotify)] at h
      exact congrArg TCPConnection.receiveQueue (Except.ok.inj h)
    rw [if_pos hnotify, ← hq]
  · rw [if_neg (show ¬ conn.forgetSacks.useDataNotification = true from hnotify), forwardData] at h
    rw [if_neg hnotify, forwardData]
    obtain ⟨q', hextract, heq⟩ := exists_of_bind_eq_ok h
    rw [show orRuntime (extractAll conn.rcvNxt (conn.receiveQueue.regionList.length + 1)
      conn.receiveQueue) = .ok q' from hextract]
    have hq : q' = q := congrArg TCPConnection.receiveQueue (Except.ok.inj heq)
    rw [hq]
    rfl

/-- Moving over a FIN that came before. -/
theorem Windowed.catchUpFin_spec (h : conn.Windowed n adv)
    (hfin : conn.finRcvd = true → conn.rcvFinSeq ≠ conn.rcvAdv) :
    ∃ m, conn.catchUpFin.1.Windowed m adv ∧ n ≤ m ∧ (conn.catchUpFin.2 = false → m = n) ∧
      conn.catchUpFin.1.rcvAdv = conn.rcvAdv ∧ Answers conn conn.catchUpFin.1 := by
  rw [catchUpFin]
  split_ifs with hcatches
  · have hwindowed := h.overFin (hcatches.2 ▸ hfin hcatches.1) true
    rw [hcatches.2] at hwindowed
    exact ⟨n + 1, hwindowed, Nat.le_succ n, False.elim, rfl, rfl, rfl, rfl⟩
  · exact ⟨n, h, le_rfl, fun _ ↦ rfl, rfl, rfl, rfl, rfl⟩

/-- When `rcv_nxt` has not moved and no FIN comes next, nothing more is answered. -/
theorem finishSegment_of_ne (arrival : Arrival) (replies : List Reply)
    (hne : conn.rcvNxt ≠ tcpseg.endNo) :
    ∃ ackNow finRcvd rcvFinSeq, conn.finishSegment conn.rcvNxt tcpseg arrival replies false =
      .ok ({ conn with ackNow, finRcvd, rcvFinSeq }, replies) := by
  have hcheck : ∃ ackNow finRcvd rcvFinSeq, conn.checkFin tcpseg =
      ({ conn with ackNow, finRcvd, rcvFinSeq }, false) := by
    rw [checkFin]
    split_ifs
    · exact ⟨_, _, _, rfl⟩
    · exact ⟨conn.ackNow, conn.finRcvd, conn.rcvFinSeq, rfl⟩
  obtain ⟨ackNow, finRcvd, rcvFinSeq, hcheck⟩ := hcheck
  refine ⟨ackNow, finRcvd, rcvFinSeq, ?_⟩
  rw [finishSegment, hcheck, acknowledge, if_pos rfl]
  rfl

/-- **A segment that does not move `rcv_nxt`** is answered at once. -/
theorem promised_outOfOrder {q : TCPVirtualDataRcvQueue VirtualRegion} (h : conn.Windowed n adv)
    (hqueue : Queued { conn with receiveQueue := q } n adv) (hne : conn.rcvNxt ≠ tcpseg.endNo) :
    Promised n adv (((conn.noteOutOfOrder q tcpseg).sendAck arrival.time).bind fun r ↦
      r.1.finishSegment conn.rcvNxt tcpseg arrival [r.2] false) := by
  have hnoted : ∃ startSeqno endSeqno sndSack sndDsack, conn.noteOutOfOrder q tcpseg =
      { conn with
        receiveQueue := q, ackNow := true, startSeqno, endSeqno, sndSack, sndDsack } := by
    rw [noteOutOfOrder]
    split_ifs
    · exact ⟨_, _, _, _, rfl⟩
    · exact ⟨_, _, _, _, rfl⟩
    · exact ⟨_, _, _, _, rfl⟩
  obtain ⟨startSeqno, endSeqno, sndSack, sndDsack, hnoted⟩ := hnoted
  rw [hnoted]
  have hwindowed : Windowed { conn with
      receiveQueue := q, ackNow := true, startSeqno, endSeqno, sndSack, sndDsack } n adv :=
    ⟨h.1, h.2, h.3, h.4, h.5, h.6, h.7⟩
  rcases hwindowed.sendAck_spec arrival.time with
    ⟨c, heq⟩ | ⟨conn', reply, adv', heq, hadv, hwindowed', hwnd, hsame⟩
  · rw [heq]
    trivial
  · have hrcvNxt : conn'.rcvNxt = conn.rcvNxt := hwindowed'.rcvNxt_eq.trans h.rcvNxt_eq.symm
    obtain ⟨ackNow, finRcvd, rcvFinSeq, hfinish⟩ :=
      finishSegment_of_ne arrival [reply] (hrcvNxt ▸ hne)
    rw [heq]
    show Promised _ _ (conn'.finishSegment conn.rcvNxt tcpseg arrival [reply] false)
    rw [← hrcvNxt, hfinish]
    refine ⟨n, adv', le_rfl, h.le, hadv, ⟨hwindowed'.1, hwindowed'.2, hwindowed'.3, hwindowed'.4,
      hwindowed'.5, hwindowed'.6, hwindowed'.7⟩, fun _ ↦ ?_, fun htext ↦ ?_⟩
    · show conn'.rcvWnd.toNat ≤ max conn'.freeRcvBuffer.toNat (adv - n)
      rw [freeRcvBuffer, hsame.receiveQueue_eq, hsame.maxRcvBuffer_eq]
      exact hwnd
    · exact hqueue.congr hadv hsame.receiveQueue_eq hrcvNxt hsame.maxRcvBuffer_eq

/-- **The text of a segment**, as it goes into the queue or is dropped. -/
theorem promised_processText (h : conn.Windowed n adv) (hn : 2 ^ 31 ≤ n)
    (hqueue : conn.Queued n adv) (hacceptable : conn.IsSegmentAcceptable arrival)
    (hpos : 0 < arrival.tcpseg.payloadLength) (hbytes : arrival.tcpseg.byteArray = [])
    (hshort : arrival.tcpseg.payloadLength + conn.maxRcvBuffer.toNat < 2 ^ 31)
    (hwithin : ∀ tcpseg, conn.textToInsert arrival.tcpseg = .ok (some tcpseg) →
      seqLE tcpseg.endNo conn.rcvAdv ∧ (tcpseg.finBit = true → tcpseg.endNo ≠ conn.rcvAdv))
    (hstored : conn.finRcvd = true → conn.rcvFinSeq ≠ conn.rcvAdv) :
    Promised n adv (conn.processText arrival) := by
  obtain ⟨σ, k, ps, hready, hbelow⟩ := hqueue
  rcases h.textToInsert_cases hn hready.rebase hacceptable hpos hbytes hshort with
    hnone | ⟨tcpseg, x, y, htext, hx, hy, hxy, hnx, hyn, hybuffer⟩
  · rw [processText, hnone]
    exact ⟨n, adv, le_rfl, h.le, le_rfl, h, fun hne ↦ absurd rfl hne,
      fun _ ↦ ⟨σ, k, ps, hready, hbelow⟩⟩
  · have hmax := h.maxRcvBuffer_lt
    have hadv := h.adv_le
    have hnadv := h.le
    have hendNo : tcpseg.endNo = wrap y := by
      rw [TCPSegment.endNo, hx, ← hy]
      exact wrap_add_wrap _ _
    obtain ⟨hedge, hfin⟩ := hwithin tcpseg htext
    have hyadv : y ≤ adv := by
      rwa [hendNo, h.rcvAdv_eq, seqLE_wrap ⟨by omega, by omega⟩] at hedge
    obtain ⟨q', next', ps', hinsert, hnext, hready'⟩ :=
      insert_spec hready.rebase hx hy hxy hnx hybuffer
    have hbelow' : ∀ z ∈ σ.received ∪ Set.Ico x y, z < adv := fun z hz ↦
      hz.elim (hbelow z) fun hz ↦ hz.2.trans_le hyadv
    have hrcvNxt : q'.rcvNxt = wrap next' := hready'.rcvNxt_eq
    have hnextadv : next' ≤ adv := by
      rcases hnext.lt_or_eq with hlt | rfl
      · have hlast := hbelow' (next' - 1) (hready'.refines.received_below
          (hready.refines.start_le.trans (hready.refines.first_le.trans (by omega))) (by omega))
        omega
      · exact h.le
    have hinsert' : conn.receiveQueue.insertBytesFromSegment tcpseg = .ok q' := hinsert
    rw [processText, htext]
    show Promised _ _ ((conn.insertText tcpseg arrival.time).bind _)
    rw [insertText, hinsert']
    show Promised _ _ (Except.bind (if q'.rcvNxt = conn.rcvNxt then _ else _) _)
    by_cases hsame : q'.rcvNxt = conn.rcvNxt
    · rw [if_pos hsame]
      obtain rfl : next' = n := by
        rw [hrcvNxt, h.rcvNxt_eq, wrap_eq_wrap ⟨by omega, by omega⟩] at hsame
        exact hsame
      have hready'' : Ready (forgetSacks { conn with receiveQueue := q' })
          { σ with received := σ.received ∪ Set.Ico x y } σ.first next' next' [] ps' :=
        hready'.congr rfl hsame.symm rfl rfl
      have hqueue' : Queued { conn with receiveQueue := q' } next' adv :=
        ⟨_, _, _, hready'', hbelow'⟩
      have hne : conn.rcvNxt ≠ tcpseg.endNo := by
        rw [h.rcvNxt_eq, hendNo, ne_eq, wrap_eq_wrap ⟨by omega, by omega⟩]
        omega
      have hout : Promised next' adv (((conn.noteOutOfOrder q' tcpseg).sendAck arrival.time).bind
          fun r ↦ r.1.finishSegment conn.rcvNxt tcpseg arrival [r.2] false) :=
        promised_outOfOrder h hqueue' hne
      cases hsend : (conn.noteOutOfOrder q' tcpseg).sendAck arrival.time with
      | error e =>
        rw [hsend] at hout
        exact hout
      | ok r =>
        rw [hsend] at hout
        exact hout
    · rw [if_neg hsame]
      obtain ⟨q'', σ', ps'', hpass, -, hreceived, hready''⟩ := passData_spec hready'
      have hpass' : TCPConnection.passData { conn with receiveQueue := q', rcvNxt := q'.rcvNxt } =
          .ok { conn with receiveQueue := q'', rcvNxt := q'.rcvNxt } := passData_of_forgetSacks hpass
      have hwindowed : Windowed { conn with receiveQueue := q'', rcvNxt := q'.rcvNxt } next' adv :=
        { h with rcvNxt_eq := hrcvNxt, le := hnextadv, adv_le := hadv.trans (by
            exact Nat.add_le_add_right hnext _) }
      obtain ⟨m, hwindowed', hnm, hstay, hadv', hsame'⟩ := hwindowed.catchUpFin_spec hstored
      have hbelow'' : ∀ z ∈ σ'.received, z < adv := by
        rw [hreceived]
        exact hbelow'
      have hqueue' : Queued { conn with receiveQueue := q'', rcvNxt := q'.rcvNxt } next' adv :=
        ⟨σ', _, ps'', hready'', hbelow''⟩
      rw [hpass']
      show Promised _ _ (TCPConnection.finishSegment _ _ _ _ [] _)
      have hfin' : tcpseg.finBit = true → tcpseg.endNo ≠ (TCPConnection.catchUpFin
          { conn with receiveQueue := q'', rcvNxt := q'.rcvNxt }).1.rcvAdv := by
        rw [hadv']
        exact hfin
      refine promised_finishSegment hwindowed' (hnext.trans hnm) conn.rcvNxt hfin' fun hnone _ ↦ ?_
      obtain rfl := hstay hnone
      exact hqueue'.congr le_rfl hsame'.receiveQueue_eq
        (hwindowed'.rcvNxt_eq.trans hwindowed.rcvNxt_eq.symm) hsame'.maxRcvBuffer_eq

/-! ### Runs -/

/-- **A segment that arrives.** -/
theorem promised_arrive (h : conn.Windowed n adv) (hn : 2 ^ 31 ≤ n)
    (hqueue : conn.fsmState.ProcessesText → conn.Queued n adv)
    (hshort : conn.ArrivesShort (.arrive arrival)) (hwithin : conn.WithinEdge (.arrive arrival)) :
    Promised n adv (conn.processSegment1stThru8th arrival) := by
  obtain ⟨hinserted, hfin, hstored⟩ := hwithin
  have hstays : Promised n adv (.ok (conn, [])) :=
    ⟨n, adv, le_rfl, h.le, le_rfl, h, fun hne ↦ absurd rfl hne, hqueue⟩
  rw [insertedText_arrive] at hinserted hfin
  rw [processSegment1stThru8th]
  by_cases hacceptable : conn.IsSegmentAcceptable arrival
  · rw [if_neg (not_not.2 hacceptable)]
    by_cases hreset : arrival.tcpseg.rstBit ∨ arrival.tcpseg.synBit
    · rw [if_pos hreset]
      exact ⟨n, adv, le_rfl, h.le, le_rfl, ⟨h.1, h.2, h.3, h.4, h.5, h.6, h.7⟩,
        fun hne ↦ absurd rfl hne, False.elim⟩
    · rw [if_neg hreset]
      by_cases hpasses : arrival.ackPasses
      · rw [if_neg (not_not.2 hpasses)]
        by_cases hpos : conn.fsmState.ProcessesText ∧ 0 < arrival.tcpseg.payloadLength
        · rw [if_pos hpos]
          rw [if_pos ⟨hacceptable, hreset, hpasses, hpos⟩] at hinserted hfin
          obtain ⟨ackNow, hprobe⟩ : ∃ ackNow,
              conn.noteProbe arrival.tcpseg = { conn with ackNow } := by
            rw [noteProbe]
            split_ifs
            · exact ⟨_, rfl⟩
            · exact ⟨_, rfl⟩
          rw [hprobe]
          refine promised_processText ⟨h.1, h.2, h.3, h.4, h.5, h.6, h.7⟩ hn
            ((hqueue hpos.1).congr le_rfl rfl rfl rfl) hacceptable hpos.2 hshort.1 hshort.2
            (fun tcpseg htext ↦ ?_) hstored
          have htext' : conn.textToInsert arrival.tcpseg = .ok (some tcpseg) := htext
          rw [htext'] at hinserted hfin
          exact ⟨hinserted tcpseg rfl, hfin⟩
        · rw [if_neg hpos]
          rw [if_neg fun hall ↦ hpos hall.2.2.2] at hfin
          exact promised_finishSegment h le_rfl conn.rcvNxt hfin fun _ ↦ hqueue
      · rw [if_pos hpasses]
        exact hstays
  · rw [if_pos hacceptable, answerUnacceptable]
    split_ifs
    · exact hstays
    · exact promised_sendAck h arrival.time hqueue
    · obtain ⟨startSeqno, endSeqno, sndDsack, hnoted⟩ : ∃ startSeqno endSeqno sndDsack,
          conn.noteDuplicate arrival.tcpseg = { conn with startSeqno, endSeqno, sndDsack } := by
        rw [noteDuplicate]
        split_ifs
        · exact ⟨_, _, _, rfl⟩
        · exact ⟨conn.startSeqno, conn.endSeqno, conn.sndDsack, rfl⟩
      have hwindowed : Windowed { conn with startSeqno, endSeqno, sndDsack } n adv :=
        ⟨h.1, h.2, h.3, h.4, h.5, h.6, h.7⟩
      rw [hnoted]
      exact promised_sendAck hwindowed arrival.time
        fun htext ↦ (hqueue htext).congr le_rfl rfl rfl rfl

/-- The application reads. -/
theorem promised_read (h : conn.Windowed n adv)
    (hqueue : conn.fsmState.ProcessesText → conn.Queued n adv)
    (hread : conn.forwardData = .ok conn') : Promised n adv (.ok (conn', [])) := by
  obtain ⟨q, hextract, heq⟩ := exists_of_bind_eq_ok hread
  obtain rfl : { conn with receiveQueue := q } = conn' := Except.ok.inj heq
  refine ⟨n, adv, le_rfl, h.le, le_rfl, ⟨h.1, h.2, h.3, h.4, h.5, h.6, h.7⟩,
    fun hne ↦ absurd rfl hne, fun htext ↦ ?_⟩
  obtain ⟨σ, k, ps, hready, hbelow⟩ := hqueue htext
  obtain ⟨q', ps', hforward, hready'⟩ := forwardData_spec hready
  obtain ⟨q'', hextract', heq'⟩ := exists_of_bind_eq_ok hforward
  have hq : q'' = q := Except.ok.inj (hextract'.symm.trans hextract)
  have hq' : q'' = q' := congrArg TCPConnection.receiveQueue (Except.ok.inj heq')
  rw [← hq, hq']
  exact ⟨_, k, ps', hready', hbelow⟩

/-- **What an event does**, unless the queue fails when the application reads. -/
theorem promised_handle (h : conn.Windowed n adv) (hn : 2 ^ 31 ≤ n)
    (hqueue : conn.fsmState.ProcessesText → conn.Queued n adv) {e : ReceiverEvent}
    (hshort : conn.ArrivesShort e) (hpast : conn.StaysPast e) (hwithin : conn.WithinEdge e)
    (hread : e = .read → ∃ r, conn.handle e = .ok r) : Promised n adv (conn.handle e) := by
  cases e with
  | arrive arrival => exact promised_arrive h hn hqueue hshort hwithin
  | send time => exact promised_sendAck h time hqueue
  | read =>
    obtain ⟨r, hr⟩ := hread rfl
    rw [hr]
    obtain ⟨conn', hforward, rfl⟩ := exists_of_map_eq_ok hr
    exact promised_read h hqueue hforward
  | enter s =>
    exact ⟨n, adv, le_rfl, h.le, le_rfl, ⟨h.1, h.2, h.3, h.4, h.5, h.6, h.7⟩,
      fun hne ↦ absurd rfl hne, fun htext ↦ (hqueue (hpast htext)).congr le_rfl rfl rfl rfl⟩

/-- What holds between the events of a run within the edge. -/
def Keeps (conn : TCPConnection) : Prop :=
  ∃ n adv, 2 ^ 31 ≤ n ∧ conn.Windowed n adv ∧ (conn.fsmState.ProcessesText → conn.Queued n adv)

/-- The positions of a connection start far enough from 0. -/
theorem Established.keeps (h : conn.Established) : conn.Keeps := by
  have hrcvNxt : conn.rcvNxt = wrap (2 ^ 32 + conn.rcvNxt.toNat) := by
    rw [← wrap_add_wrap, wrap_toNat]
    exact (UInt32.zero_add _).symm
  have hrcvAdv : conn.rcvAdv = wrap (2 ^ 32 + conn.rcvNxt.toNat + conn.rcvWnd.toNat) := by
    rw [← wrap_add_wrap, ← hrcvNxt, wrap_toNat, h.rcvAdv_eq]
  have hwnd : conn.rcvWnd.toNat ≤ conn.maxRcvBuffer.toNat := UInt32.le_iff_toNat_le.1 h.rcvWnd_le
  have hwindowed : conn.Windowed (2 ^ 32 + conn.rcvNxt.toNat)
      (2 ^ 32 + conn.rcvNxt.toNat + conn.rcvWnd.toNat) :=
    ⟨hrcvNxt, hrcvAdv, Nat.le_add_right _ _, Nat.add_le_add_left hwnd _, hwnd,
      UInt32.le_iff_toNat_le.1 h.rcvWndScale_le, UInt32.le_iff_toNat_le.1 h.fits⟩
  refine ⟨_, _, by omega, hwindowed, fun _ ↦ ⟨.init (2 ^ 32 + conn.rcvNxt.toNat),
    2 ^ 32 + conn.rcvNxt.toNat, [], ?_, fun x hx ↦ absurd hx (Set.notMem_empty x)⟩⟩
  have hqueue : conn.receiveQueue = .init (wrap (2 ^ 32 + conn.rcvNxt.toNat)) := by
    rw [h.receiveQueue_eq, ← hrcvNxt]
  exact {
    refines := by
      show Refines _ _ conn.receiveQueue _ _
      rw [hqueue]
      exact .init _
    rcvNxt_eq := hrcvNxt
    le := le_rfl
    le_succ := Nat.le_succ _
    le_first := le_rfl
    ends := by simp
    next_le := Nat.le_add_right _ _
    maxRcvBuffer_lt := hwindowed.maxRcvBuffer_lt
    sacksArray_eq := rfl
    nonempty := by simp
    received := by simp
    apart := .nil }

/-- What an event within the edge leads to is between events again. -/
theorem Keeps.step {e : ReceiverEvent} {replies : List Reply} (h : conn.Keeps)
    (hshort : conn.ArrivesShort e) (hpast : conn.StaysPast e) (hwithin : conn.WithinEdge e)
    (hstep : conn.handle e = .ok (conn', replies)) : conn'.Keeps := by
  obtain ⟨n, adv, hn, hwindowed, hqueue⟩ := h
  have hpromised :=
    promised_handle hwindowed hn hqueue hshort hpast hwithin fun _ ↦ ⟨_, hstep⟩
  rw [hstep] at hpromised
  obtain ⟨n', adv', hle, -, -, hwindowed', -, hqueue'⟩ := hpromised
  exact ⟨n', adv', hn.trans hle, hwindowed', hqueue'⟩

/-- Between events, an event within the edge keeps the promise. -/
theorem Keeps.keepsPromise {e : ReceiverEvent} (h : conn.Keeps) (hshort : conn.ArrivesShort e)
    (hpast : conn.StaysPast e) (hwithin : conn.WithinEdge e) : conn.KeepsPromise e := by
  obtain ⟨n, adv, hn, hwindowed, hqueue⟩ := h
  refine ⟨fun hread err heq ↦ ?_, fun conn' replies heq ↦ ?_⟩
  · have hpromised := promised_handle hwindowed hn hqueue hshort hpast hwithin
      fun hread' ↦ absurd hread' hread
    rw [heq] at hpromised
    exact hpromised
  · have hpromised :=
      promised_handle hwindowed hn hqueue hshort hpast hwithin fun _ ↦ ⟨_, heq⟩
    rw [heq] at hpromised
    obtain ⟨n', adv', hle, hle', hadv, hwindowed', hwnd, -⟩ := hpromised
    have hmax := hwindowed.maxRcvBuffer_lt
    have hopen := hwindowed.adv_le
    have hmax' := hwindowed'.maxRcvBuffer_lt
    have hopen' := hwindowed'.adv_le
    have hnotPast : seqLE conn'.rcvNxt conn.rcvAdv := by
      rw [hwindowed'.rcvNxt_eq, hwindowed.rcvAdv_eq, seqLE_wrap ⟨by omega, by omega⟩]
      exact hle'
    refine ⟨?_, fun hne ↦ ?_⟩
    · rw [hwindowed.rcvAdv_eq, hwindowed'.rcvAdv_eq, seqLE_wrap ⟨by omega, by omega⟩]
      exact hadv
    · rw [openSpace, if_pos hnotPast, hwindowed'.rcvNxt_eq, hwindowed.rcvAdv_eq,
        toNat_wrap_sub_wrap hle' (by omega)]
      exact hwnd hne

end TCPConnection

open TCPConnection

/-- **The window never promises too much in the runs within the edge**: when no text has gone into
the queue from past the edge and no FIN had its number, the same holds of what the next event
does. -/
theorem keepsPromise_of_run {tr : List (Transition TCPConnection ReceiverEvent (List Reply))}
    {conn : TCPConnection} (h : windowedReceiver.Run tr conn)
    (hwithin : ∀ t ∈ tr, t.pre.WithinEdge t.input) (e : ReceiverEvent)
    (hshort : conn.ArrivesShort e) (hpast : conn.StaysPast e) (he : conn.WithinEdge e) :
    conn.KeepsPromise e := by
  have hkeeps : (∀ t ∈ tr, t.pre.WithinEdge t.input) → conn.Keeps :=
    h.history (P := fun tr conn ↦ (∀ t ∈ tr, t.pre.WithinEdge t.input) → conn.Keeps)
      (fun conn (hinit : conn.Established) _ ↦ hinit.keeps) fun tr s i o s' _ ih hstep hall ↦
        (ih fun t ht ↦ hall t (List.mem_append_left _ ht)).step hstep.1 hstep.2.1
          (hall ⟨s, i, o, s'⟩ (by simp)) hstep.2.2
  exact (hkeeps hwithin).keepsPromise hshort hpast he

/-- A connection whose application has to ask for the data. -/
def announcing : TCPConnection where
  rcvNxt := 1000
  rcvWnd := 2000
  rcvAdv := 3000
  maxRcvBuffer := 2000
  sackEnabled := false
  useDataNotification := true
  receiveQueue := .init 1000

/-- Data that fills the buffer, and is acknowledged at once. -/
def fillsBuffer : ReceiverEvent :=
  .arrive { tcpseg := { sequenceNo := 1000, payloadLength := 2000 }, acksAtOnce := true }

/-- The window is closed. -/
def closedWindow : TCPConnection :=
  { announcing with
    rcvNxt := 3000
    rcvWnd := 0
    receiveQueue := ⟨3000, [⟨1000, 3000⟩]⟩ }

/-- The FIN behind the data. -/
def finArrives : ReceiverEvent :=
  .arrive { tcpseg := { sequenceNo := 3000, payloadLength := 0, finBit := true } }

/-- The answer of a receiver whose window is closed, or seems to be open. -/
def offers (ackNo : UInt32) (window : UInt16) : Reply :=
  ⟨false, false, { ackBit := true, ackNo, window }⟩

theorem run_fillsBuffer :
    windowedReceiver.Run [⟨announcing, fillsBuffer, [offers 3000 0], closedWindow⟩]
      closedWindow := by
  have hstarts : announcing.Established :=
    ⟨trivial, rfl, rfl, by decide, by decide, by decide⟩
  exact (TransitionSystem.Run.nil (T := windowedReceiver) hstarts).snoc
    ⟨⟨rfl, by decide⟩, trivial, by decide +kernel⟩

theorem keepsPromise_of_run_fillsBuffer : closedWindow.KeepsPromise (.send 0) :=
  keepsPromise_of_run run_fillsBuffer
    (by
      intro t ht
      obtain rfl := List.mem_singleton.1 ht
      exact ⟨by decide +kernel, by decide +kernel, by decide⟩)
    (.send 0) trivial trivial trivial

/-- **With the window closed, a FIN opens it**, although nothing is free. -/
theorem not_keepsPromise :
    ¬ ∀ tr conn, windowedReceiver.Run tr conn → ∀ e, conn.ArrivesShort e → conn.StaysPast e →
      conn.KeepsPromise e := by
  intro h
  have hfin : closedWindow.handle finArrives = .ok ({ closedWindow with
      fsmState := .closeWait, rcvNxt := 3001, rcvWnd := 65535, rcvAdv := 68536 },
        [offers 3001 65535]) := by
    decide +kernel
  obtain ⟨-, hpromise⟩ := h _ _ run_fillsBuffer finArrives ⟨rfl, by decide⟩ trivial
  exact absurd ((hpromise _ _ hfin).2 (List.cons_ne_nil _ _)) (by decide +kernel)

end Inet.Tcp
