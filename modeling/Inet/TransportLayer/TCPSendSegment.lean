import Inet.TransportLayer.SackReports
import Inet.TransportLayer.Scoreboard
import Inet.TransportLayer.TCPSender

/-!
# What `sendSegment` sends

`sendSegment` is asked for a number of octets and sends some of them. After a time-out it first
passes over what the scoreboard knows as sacked or sent again; then the send queue, the header
options and the segment size of the peer bound what is sent. `Placed` says where the sequence
numbers of a sender stand. From there it succeeds with a segment that is not empty exactly if the
header can be written and an octet is left behind those that are passed over
(`Placed.sendSegment_ok`, `Placed.canSend`).
-/

namespace Inet.Tcp

open SerialNumber Tiling

namespace TCPConnection

/-- The window fits into the header. -/
def OffersWindow (conn : TCPConnection) : Prop :=
  ¬ (conn.wsEnabled ∧ 14 < conn.rcvWndScale ∨ 65535 < conn.scaledWindow)

instance (conn : TCPConnection) : Decidable conn.OffersWindow :=
  inferInstanceAs (Decidable (¬ _))

/-- What `updateRcvWnd` does to a connection. -/
theorem OffersWindow.updateRcvWnd_eq {conn : TCPConnection} (h : conn.OffersWindow) :
    ∃ rcvWnd rcvAdv window, conn.updateRcvWnd = .ok ({ conn with rcvWnd, rcvAdv }, window) :=
  ⟨_, _, _, if_neg h⟩

theorem OffersWindow.of_ok {conn : TCPConnection} {r : TCPConnection × UInt16}
    (h : conn.updateRcvWnd = .ok r) : conn.OffersWindow := by
  intro hfails
  rw [updateRcvWnd, if_pos hfails] at h
  cases h

end TCPConnection

namespace TCPVirtualDataSendQueue

variable {first m stop : ℕ}

theorem getBytesAvailable_wrap (hfirst : first ≤ m) (hm : m ≤ stop + 1)
    (hspan : stop + 1 < first + 2 ^ 31) :
    (getBytesAvailable ⟨wrap first, wrap stop⟩ (wrap m)).toNat = stop - m := by
  show (if seqLess (wrap m) (wrap stop) then wrap stop - wrap m else 0).toNat = stop - m
  have hiff : seqLess (wrap m) (wrap stop) ↔ m < stop := seqLess_wrap ⟨by omega, by omega⟩
  split_ifs with hless
  · exact toNat_wrap_sub_wrap (hiff.1 hless).le (by omega)
  · exact (Nat.sub_eq_zero_of_le (not_lt.1 (mt hiff.2 hless))).symm

theorem createSegmentWithBytes_wrap (hfirst : first ≤ m) {bytes : UInt32}
    (hle : m + bytes.toNat ≤ stop) (hspan : stop + 1 < first + 2 ^ 31) :
    createSegmentWithBytes ⟨wrap first, wrap stop⟩ (wrap m) bytes =
      .ok { sequenceNo := wrap m, payloadLength := bytes.toNat } := by
  refine if_pos ⟨?_, ?_⟩
  · exact (seqLE_wrap ⟨by omega, by omega⟩).2 hfirst
  · rw [← wrap_toNat bytes, wrap_add_wrap]
    exact (seqLE_wrap ⟨by omega, by omega⟩).2 hle

theorem payloadLength_eq {q : TCPVirtualDataSendQueue} {fromSeq numBytes : UInt32}
    {tcpseg : TCPSegment Unit} (h : q.createSegmentWithBytes fromSeq numBytes = .ok tcpseg) :
    tcpseg.payloadLength = numBytes.toNat := by
  rw [createSegmentWithBytes] at h
  split_ifs at h
  cases h
  rfl

end TCPVirtualDataSendQueue

namespace TCPSender

/-! ### Where a sender stands -/

/-- `snd_una` is at `una`, `snd_nxt` at `n` and `snd_max` at `max`. The octets `[first, stop)` are
buffered, and with selective acknowledgments the scoreboard has those of `[first, last)`. Behind the
last octet there is the number of the FIN. -/
structure Placed (s : TCPSender) (first una n max last stop : ℕ) : Prop where
  sendQueue_eq : s.sendQueue = ⟨wrap first, wrap stop⟩
  sndUna_eq : s.sndUna = wrap una
  sndNxt_eq : s.sndNxt = wrap n
  sndMax_eq : s.sndMax = wrap max
  first_le : first ≤ una
  una_le : una ≤ n
  una_le_max : una ≤ max
  n_le : n ≤ stop + 1
  max_le : max ≤ stop + 1
  stop_lt : stop + 1 < first + 2 ^ 31
  sndFinSeq_eq : s.sendFin = true → s.sndFinSeq = wrap stop
  valid : s.sackEnabled = true → s.rexmitQueue.Valid first last
  last_le : s.sackEnabled = true → last ≤ stop
  n_le_last : s.sackEnabled = true → n ≤ last ∨ n = stop + 1
  max_le_last : s.sackEnabled = true → max ≤ last ∨ max = stop + 1

/-- How many octets are passed over, being sacked or sent again after a time-out. -/
def passed (s : TCPSender) : ℕ :=
  if s.sackEnabled ∧ s.afterRto then s.rexmitQueue.scoreboard.passedBytes s.sndNxt else 0

/-- How many octets are buffered from `snd_nxt` on. -/
def buffered (s : TCPSender) : ℕ :=
  (s.sendQueue.getBytesAvailable s.sndNxt).toNat

/-- How many of `bytes` octets fit into a segment with a header. -/
def segmentSize (s : TCPSender) (bytes : UInt32) (header : TCPSegment Unit) : ℕ :=
  min (min bytes.toNat (s.buffered - s.passed)) (s.sndMss - optionsLen header).toNat

/-- Whether the FIN goes with a segment. -/
def CarriesFin (s : TCPSender) (bytes : UInt32) (header : TCPSegment Unit) : Prop :=
  s.sendFin ∧ s.sndNxt + wrap (s.passed + s.segmentSize bytes header) = s.sndFinSeq

instance (s : TCPSender) (bytes : UInt32) (header : TCPSegment Unit) :
    Decidable (s.CarriesFin bytes header) :=
  inferInstanceAs (Decidable (_ ∧ _))

/-- The header can be written, and an octet is left behind those that are passed over. -/
structure CanSend (s : TCPSender) (time : UInt32) (header : TCPSegment Unit) : Prop where
  writes : ∃ conn, s.writeHeader time = .ok (conn, header)
  fits : optionsLen header < s.sndMss
  offersWindow : s.OffersWindow
  passed_lt : s.passed < s.buffered

variable {s s' : TCPSender} {first una n max last stop : ℕ} {bytes time : UInt32}
  {conn : TCPConnection} {header tcpseg tcpseg' : TCPSegment Unit}

theorem Placed.buffered_eq (h : s.Placed first una n max last stop) : s.buffered = stop - n := by
  rw [buffered, h.sendQueue_eq, h.sndNxt_eq]
  exact TCPVirtualDataSendQueue.getBytesAvailable_wrap (h.first_le.trans h.una_le) h.n_le h.stop_lt

theorem Placed.n_lt (h : s.Placed first una n max last stop) : n < first + 2 ^ 31 :=
  h.n_le.trans_lt h.stop_lt

/-- Where `sendData` starts. -/
theorem Placed.rewound (h : s.Placed first una n max last stop) :
    s.rewound.Placed first una (if s.afterRto then n else max) max last stop := by
  rw [TCPSender.rewound]
  split_ifs with hafter
  · exact h
  · exact { h with
      sndNxt_eq := h.sndMax_eq
      una_le := h.una_le_max
      n_le := h.max_le
      n_le_last := h.max_le_last }

/-! ### What is passed over -/

/-- **Octets are passed over up to the end of the scoreboard at most.** -/
theorem Placed.forward_eq (h : s.Placed first una n max last stop) (hn : n ≤ stop) :
    s.forward = .ok { s with sndNxt := wrap (n + s.passed) } ∧ n + s.passed ≤ stop ∧
      (s.sackEnabled = true → n + s.passed ≤ last) := by
  have hfirst : first ≤ n := h.first_le.trans h.una_le
  have hn' := h.n_lt
  have hspan := h.stop_lt
  by_cases hpasses : s.sackEnabled = true ∧ s.afterRto = true
  · have hvalid := h.valid hpasses.1
    have hlast := h.last_le hpasses.1
    have hnlast : n ≤ last := (h.n_le_last hpasses.1).resolve_right (by omega)
    have hge : seqLE s.rexmitQueue.begin s.sndNxt := by
      rw [hvalid.begin_eq, h.sndNxt_eq, seqLE_wrap ⟨by omega, by omega⟩]
      exact hfirst
    have hle : seqLE s.sndNxt s.rexmitQueue.stop := by
      rw [hvalid.stop_eq, h.sndNxt_eq, seqLE_wrap ⟨by omega, by omega⟩]
      exact hnlast
    obtain ⟨forward, heq, hforward⟩ :=
      exists_of_map_eq_ok (hvalid.checkRexmitQueueForSackedOrRexmittedSegments hge hle)
    have hpassed : s.passed = forward.toNat := by
      rw [passed, if_pos hpasses, hforward]
    have hwithin : s.passed ≤ last - n := by
      have hoffset : s.rexmitQueue.scoreboard.offset s.sndNxt = n - first := by
        show (s.sndNxt - s.rexmitQueue.begin).toNat = n - first
        rw [hvalid.begin_eq, h.sndNxt_eq, toNat_wrap_sub_wrap hfirst (by omega)]
      rw [passed, if_pos hpasses, Scoreboard.passedBytes, hoffset]
      refine (List.takeWhile_sublist _).length_le.trans ?_
      rw [List.length_drop, hvalid.length_bytes]
      omega
    refine ⟨?_, by omega, fun _ ↦ by omega⟩
    rw [TCPSender.forward, if_pos hpasses, heq, h.sndNxt_eq, hpassed, ← wrap_add_wrap, wrap_toNat]
    rfl
  · have hpassed : s.passed = 0 := if_neg hpasses
    rw [TCPSender.forward, if_neg hpasses, hpassed, Nat.add_zero, ← h.sndNxt_eq]
    exact ⟨rfl, hn, fun hsack ↦ (h.n_le_last hsack).resolve_right (by omega)⟩

/-! ### What is sent -/

theorem writeHeader_ok (h : s.writeHeader time = .ok (conn, header)) :
    (conn = s.toTCPConnection ∨ ∃ sacksArray, conn = { s.resetFlags with sacksArray }) ∧
      (optionsLen header).toNat ≤ 40 := by
  rw [writeHeader] at h
  cases hwrite : s.toTCPConnection.writeHeaderOptions { ackBit := true } time with
  | none =>
    rw [hwrite] at h
    cases h
  | some r =>
    rw [hwrite] at h
    cases h
    obtain ⟨hconn, hlow, hhigh⟩ := TCPConnection.writeHeaderOptions_ok hwrite rfl
    refine ⟨hconn, ?_⟩
    have htwenty : (20 : UInt32).toNat = 20 := rfl
    have hlength : (header.headerLength.toUInt32).toNat = header.headerLength.toNat := rfl
    rw [optionsLen, UInt32.toNat_sub_of_le _ _ (UInt32.le_iff_toNat_le.2 (by omega)), hlength]
    omega

/-- Writing the header leaves what the segment depends on. -/
theorem writeHeader_frame (h : s.writeHeader time = .ok (conn, header)) :
    conn.sackEnabled = s.sackEnabled ∧ conn.sndMss = s.sndMss ∧
      (conn.OffersWindow ↔ s.OffersWindow) := by
  obtain ⟨rfl | ⟨sacksArray, rfl⟩, -⟩ := writeHeader_ok h
  · exact ⟨rfl, rfl, Iff.rfl⟩
  · exact ⟨rfl, rfl, Iff.rfl⟩

/-- The scoreboard takes octets that are sent. -/
theorem Placed.enqueueSent_ok (h : s.Placed first una n max last stop) (hpos : 0 < bytes.toNat)
    (hle : n + bytes.toNat ≤ stop) (hlast : s.sackEnabled = true → n ≤ last) :
    ∃ rexmitQueue last', s.enqueueSent bytes = .ok { s with rexmitQueue } ∧
      Placed { s with rexmitQueue } first una n max last' stop ∧
      (s.sackEnabled = true → n + bytes.toNat ≤ last' ∧
        rexmitQueue.scoreboard =
          s.rexmitQueue.scoreboard.enqueueSentData s.sndNxt (s.sndNxt + bytes)) := by
  have hspan := h.stop_lt
  have hfirst : first ≤ n := h.first_le.trans h.una_le
  by_cases hsack : s.sackEnabled = true
  · have hq := h.valid hsack
    have hn := hlast hsack
    have hstop := h.last_le hsack
    have hmax := h.max_le_last hsack
    have hnext : s.sndNxt + bytes = wrap (n + bytes.toNat) := by
      rw [h.sndNxt_eq, ← wrap_add_wrap, wrap_toNat]
    have hge : seqLE s.rexmitQueue.begin s.sndNxt := by
      rw [hq.begin_eq, h.sndNxt_eq, seqLE_wrap ⟨by omega, by omega⟩]
      exact hfirst
    have hle' : seqLE s.sndNxt s.rexmitQueue.stop := by
      rw [hq.stop_eq, h.sndNxt_eq, seqLE_wrap ⟨by omega, by omega⟩]
      exact hn
    have hless : seqLess s.sndNxt (s.sndNxt + bytes) := by
      rw [hnext, h.sndNxt_eq, seqLess_wrap ⟨by omega, by omega⟩]
      omega
    obtain ⟨q, last', hq', hvalid, hboard⟩ := hq.enqueueSentData hge hle' hless
    -- the scoreboard ends behind the octets, or where it has ended before
    have hends : n + bytes.toNat ≤ last' ∧ last ≤ last' ∧ last' ≤ stop := by
      have hoffset : s.rexmitQueue.scoreboard.offset (s.sndNxt + bytes) =
          n + bytes.toNat - first := by
        show (s.sndNxt + bytes - s.rexmitQueue.begin).toNat = _
        rw [hq.begin_eq, hnext, toNat_wrap_sub_wrap (by omega) (by omega)]
      have hlength := congrArg (fun b : Scoreboard ↦ b.bytes.length) hboard
      simp only [Scoreboard.enqueueSentData, List.length_append, List.length_replicate,
        length_modifyRange, hoffset, hvalid.length_bytes, hq.length_bytes] at hlength
      have hlast' := hvalid.tiles.le
      have hqlast := hq.tiles.le
      omega
    refine ⟨q, last', ?_, ?_, fun _ ↦ ⟨hends.1, hboard⟩⟩
    · rw [enqueueSent, if_pos hsack, hq']
      rfl
    · exact { h with
        valid := fun _ ↦ hvalid
        last_le := fun _ ↦ hends.2.2
        n_le_last := fun _ ↦ .inl (hn.trans hends.2.1)
        max_le_last := fun _ ↦ hmax.imp_left hends.2.1.trans' }
  · exact ⟨s.rexmitQueue, last, if_neg hsack, h, fun hsack' ↦ absurd hsack' hsack⟩

/-- `snd_nxt` moves behind what is sent. -/
theorem Placed.advance (h : s.Placed first una n max last stop) (hle : n + bytes.toNat ≤ stop)
    (hlast : s.sackEnabled = true → n + bytes.toNat ≤ last) :
    (s.advance bytes).1.Placed first una (n + bytes.toNat +
      if s.sendFin ∧ s.sndNxt + bytes = s.sndFinSeq then 1 else 0) max last stop := by
  have hspan := h.stop_lt
  have hfirst : first ≤ n := h.first_le.trans h.una_le
  have huna := h.una_le
  have hnext : s.sndNxt + bytes = wrap (n + bytes.toNat) := by
    rw [h.sndNxt_eq, ← wrap_add_wrap, wrap_toNat]
  by_cases hfin : s.sendFin = true ∧ s.sndNxt + bytes = s.sndFinSeq
  · have hseq := h.sndFinSeq_eq hfin.1
    have hend : n + bytes.toNat = stop := by
      rw [hnext, hseq, wrap_eq_wrap ⟨by omega, by omega⟩] at hfin
      exact hfin.2
    rw [if_pos hfin]
    exact { h with
      sndNxt_eq := by
        show (if (s.sendFin && decide (s.sndNxt + bytes = s.sndFinSeq)) = true
          then s.sndFinSeq + 1 else s.sndNxt + bytes) = _
        rw [if_pos (by simpa using hfin), hseq, hend]
        exact wrap_add_wrap stop 1
      una_le := by omega
      n_le := by omega
      n_le_last := fun _ ↦ .inr (by omega) }
  · rw [if_neg hfin]
    exact { h with
      sndNxt_eq := by
        show (if (s.sendFin && decide (s.sndNxt + bytes = s.sndFinSeq)) = true
          then s.sndFinSeq + 1 else s.sndNxt + bytes) = _
        rw [if_neg (by simpa using hfin), hnext]
        rfl
      una_le := by omega
      n_le := by omega
      n_le_last := fun hsack ↦ .inl (hlast hsack) }

theorem CanSend.segmentSize_pos (hcan : s.CanSend time header) (hbytes : 0 < bytes) :
    0 < s.segmentSize bytes header := by
  have hleft := hcan.passed_lt
  have hfits := UInt32.lt_iff_toNat_lt.1 hcan.fits
  have hbytes' : 0 < bytes.toNat := UInt32.lt_iff_toNat_lt.1 hbytes
  rw [segmentSize, UInt32.toNat_sub_of_le _ _ (UInt32.le_of_lt hcan.fits)]
  omega

theorem segmentSize_le (s : TCPSender) (bytes : UInt32) (header : TCPSegment Unit) :
    s.segmentSize bytes header ≤ s.buffered - s.passed :=
  (min_le_left _ _).trans (min_le_right _ _)

/-- **The rest of `sendSegment`**, when there are octets to send. -/
theorem Placed.finishSend_ok (h : s.Placed first una n max last stop) (hoffers : s.OffersWindow)
    (hpos : 0 < bytes.toNat) (hle : n + bytes.toNat ≤ stop)
    (hlast : s.sackEnabled = true → n ≤ last) (header tcpseg : TCPSegment Unit) :
    ∃ s' tcpseg' last', s.finishSend bytes header tcpseg = .ok (s', tcpseg') ∧
      s'.Placed first una (n + bytes.toNat +
        if s.sendFin ∧ s.sndNxt + bytes = s.sndFinSeq then 1 else 0) max last' stop ∧
      s'.sentBytes = bytes ∧ s'.sackEnabled = s.sackEnabled ∧ s'.lossRecovery = s.lossRecovery ∧
      tcpseg'.sequenceNo = tcpseg.sequenceNo ∧ tcpseg'.payloadLength = tcpseg.payloadLength ∧
      (s.sackEnabled = true → n + bytes.toNat ≤ last') := by
  obtain ⟨rexmitQueue, last', henqueue, hplaced, hrexmit⟩ := h.enqueueSent_ok hpos hle hlast
  obtain ⟨rcvWnd, rcvAdv, window, hwindow⟩ := hoffers.updateRcvWnd_eq
  obtain ⟨s₂, hs₂⟩ : ∃ s₂ : TCPSender, s₂ = { s with
    toTCPConnection := { s.toTCPConnection with rcvWnd, rcvAdv }
    rexmitQueue } := ⟨_, rfl⟩
  have hoffered : s₂.Placed first una n max last' stop := hs₂ ▸ { hplaced with }
  have hsack₂ : s₂.sackEnabled = s.sackEnabled := by rw [hs₂]
  have hadvance := hoffered.advance hle fun hsack ↦ (hrexmit (hsack₂ ▸ hsack)).1
  obtain ⟨tcpseg', hfinish, hseq, hlength⟩ : ∃ tcpseg', s.finishSend bytes header tcpseg =
      .ok ((s₂.advance bytes).1, tcpseg') ∧ tcpseg'.sequenceNo = tcpseg.sequenceNo ∧
      tcpseg'.payloadLength = tcpseg.payloadLength := by
    rw [finishSend, henqueue]
    show ∃ tcpseg', Except.bind s.toTCPConnection.updateRcvWnd _ = _ ∧ _
    rw [hwindow, hs₂]
    exact ⟨_, rfl, rfl, rfl⟩
  subst hs₂
  exact ⟨_, tcpseg', last', hfinish, hadvance, rfl, rfl, rfl, hseq, hlength,
    fun hsack ↦ (hrexmit hsack).1⟩

/-- The number of octets, as long as nothing wraps. -/
theorem toNat_octetsToSend (hfits : optionsLen header < s.sndMss)
    (hoptions : (optionsLen header).toNat ≤ 40) (hbuffered : s.buffered < 2 ^ 31) :
    (s.octetsToSend bytes header).toNat =
      min (min bytes.toNat s.buffered) (s.sndMss - optionsLen header).toNat := by
  rw [buffered] at hbuffered ⊢
  rw [octetsToSend]
  generalize s.sendQueue.getBytesAvailable s.sndNxt = buffered at hbuffered ⊢
  have hmin : (if buffered < bytes then buffered else bytes).toNat =
      min bytes.toNat buffered.toNat := by
    simp only [UInt32.lt_iff_toNat_lt]
    split_ifs <;> omega
  show UInt32.toNat (if _ < (if buffered < bytes then buffered else bytes) + _ then _ else _) = _
  generalize (if buffered < bytes then buffered else bytes) = bytes' at hmin
  have hsum : (bytes' + optionsLen header).toNat = bytes'.toNat + (optionsLen header).toNat := by
    rw [UInt32.toNat_add, Nat.mod_eq_of_lt (by omega)]
  have hsub : (s.sndMss - optionsLen header).toNat = s.sndMss.toNat - (optionsLen header).toNat :=
    UInt32.toNat_sub_of_le _ _ (UInt32.le_of_lt hfits)
  simp only [UInt32.lt_iff_toNat_lt, hsum]
  split_ifs <;> omega

/-- `sendSegment`, step by step. -/
theorem sendSegment_eq {s₁ s₂ : TCPSender} (hforward : s.forward = .ok s₁)
    (hwrite : s₁.writeHeader time = .ok (conn, header))
    (hs₂ : s₂ = { s₁ with toTCPConnection := conn }) (hfits : optionsLen header < s₂.sndMss)
    (hcreate : s₂.sendQueue.createSegmentWithBytes s₂.sndNxt (s₂.octetsToSend bytes header) =
      .ok tcpseg) :
    s.sendSegment bytes time = s₂.finishSend (s₂.octetsToSend bytes header) header tcpseg := by
  subst hs₂
  rw [sendSegment, hforward]
  show Except.bind (s₁.writeHeader time) _ = _
  rw [hwrite]
  show (if _ then _ else Except.bind _ _) = _
  rw [if_neg (not_not.2 hfits), hcreate]
  rfl

theorem sendSegment_inv (h : s.sendSegment bytes time = .ok (s', tcpseg)) :
    ∃ s₁ conn header s₂ tcpseg', s.forward = .ok s₁ ∧
      s₁.writeHeader time = .ok (conn, header) ∧ s₂ = { s₁ with toTCPConnection := conn } ∧
      optionsLen header < s₂.sndMss ∧
      s₂.sendQueue.createSegmentWithBytes s₂.sndNxt (s₂.octetsToSend bytes header) = .ok tcpseg' ∧
      s₂.finishSend (s₂.octetsToSend bytes header) header tcpseg' = .ok (s', tcpseg) := by
  obtain ⟨s₁, hforward, h⟩ := exists_of_bind_eq_ok h
  obtain ⟨⟨conn, header⟩, hwrite, h⟩ := exists_of_bind_eq_ok h
  change (if ¬ optionsLen header < conn.sndMss then _ else Except.bind _ _) = Except.ok _ at h
  by_cases hfits : optionsLen header < conn.sndMss
  · rw [if_neg (not_not.2 hfits)] at h
    obtain ⟨tcpseg', hcreate, hfinish⟩ := exists_of_bind_eq_ok h
    exact ⟨s₁, conn, header, _, tcpseg', hforward, hwrite, rfl, hfits, hcreate, hfinish⟩
  · rw [if_pos hfits] at h
    cases h

/-- The sender before the octets are taken out of the queue. -/
theorem Placed.prepared (h : s.Placed first una n max last stop) (hn : n + s.passed ≤ stop)
    (hnlast : s.sackEnabled = true → n + s.passed ≤ last)
    (hsack : conn.sackEnabled = s.sackEnabled) :
    Placed { s with sndNxt := wrap (n + s.passed), toTCPConnection := conn } first una
      (n + s.passed) max last stop where
  sendQueue_eq := h.sendQueue_eq
  sndUna_eq := h.sndUna_eq
  sndNxt_eq := rfl
  sndMax_eq := h.sndMax_eq
  first_le := h.first_le
  una_le := h.una_le.trans (Nat.le_add_right _ _)
  una_le_max := h.una_le_max
  n_le := hn.trans (Nat.le_succ _)
  max_le := h.max_le
  stop_lt := h.stop_lt
  sndFinSeq_eq := h.sndFinSeq_eq
  valid hsack' := h.valid (hsack ▸ hsack')
  last_le hsack' := h.last_le (hsack ▸ hsack')
  n_le_last hsack' := .inl (hnlast (hsack ▸ hsack'))
  max_le_last hsack' := h.max_le_last (hsack ▸ hsack')

/-- **`sendSegment` sends octets** from a sender that can send. -/
theorem Placed.sendSegment_ok (h : s.Placed first una n max last stop)
    (hcan : s.CanSend time header) (hbytes : 0 < bytes) :
    ∃ s' tcpseg last', s.sendSegment bytes time = .ok (s', tcpseg) ∧
      s'.Placed first una (n + s.passed + s.segmentSize bytes header +
        if s.CarriesFin bytes header then 1 else 0) max last' stop ∧
      s'.sentBytes = wrap (s.segmentSize bytes header) ∧ tcpseg.sequenceNo = wrap (n + s.passed) ∧
      tcpseg.payloadLength = s.segmentSize bytes header ∧ s'.sackEnabled = s.sackEnabled ∧
      s'.lossRecovery = s.lossRecovery ∧
      (s.sackEnabled = true → n + s.passed + s.segmentSize bytes header ≤ last') := by
  obtain ⟨conn, hwrite⟩ := hcan.writes
  obtain ⟨hsackEnabled, hsndMss, hoffers⟩ := writeHeader_frame hwrite
  have hleft := hcan.passed_lt
  rw [h.buffered_eq] at hleft
  obtain ⟨hforward, hm, hmlast⟩ := h.forward_eq (by omega)
  have hprepared := h.prepared hm hmlast hsackEnabled
  have hfirst := h.first_le
  have huna := h.una_le
  have hspan := h.stop_lt
  obtain ⟨s₂, hs₂⟩ : ∃ s₂ : TCPSender,
    s₂ = { s with sndNxt := wrap (n + s.passed), toTCPConnection := conn } := ⟨_, rfl⟩
  rw [← hs₂] at hprepared
  have hmss : s₂.sndMss = s.sndMss := by rw [hs₂, ← hsndMss]
  have hsack₂ : s₂.sackEnabled = s.sackEnabled := by rw [hs₂, ← hsackEnabled]
  -- the number of octets
  have hsize : (s₂.octetsToSend bytes header).toNat = s.segmentSize bytes header := by
    have hbuffered := hprepared.buffered_eq
    rw [toNat_octetsToSend (hmss ▸ hcan.fits) (writeHeader_ok hwrite).2 (by omega), hbuffered,
      hmss, Nat.sub_add_eq, ← h.buffered_eq, segmentSize]
  have hpos := hcan.segmentSize_pos hbytes
  have hle := s.segmentSize_le bytes header
  rw [h.buffered_eq] at hle
  have hwithin : n + s.passed + (s₂.octetsToSend bytes header).toNat ≤ stop := by omega
  have hcreate := TCPVirtualDataSendQueue.createSegmentWithBytes_wrap
    (hprepared.first_le.trans hprepared.una_le) hwithin hspan
  rw [← hprepared.sendQueue_eq, ← hprepared.sndNxt_eq] at hcreate
  obtain ⟨s', tcpseg, last', hfinish, hplaced, hsent, hsack', hloss, hseq, hlength, hlast'⟩ :=
    hprepared.finishSend_ok (hs₂ ▸ hoffers.2 hcan.offersWindow) (by omega) hwithin
      (fun hsack ↦ hmlast (hsack₂ ▸ hsack)) header
        { sequenceNo := s₂.sndNxt, payloadLength := (s₂.octetsToSend bytes header).toNat }
  have hfin : (s₂.sendFin = true ∧ s₂.sndNxt + s₂.octetsToSend bytes header = s₂.sndFinSeq) ↔
      s.CarriesFin bytes header := by
    rw [CarriesFin, h.sndNxt_eq, wrap_add_wrap, ← Nat.add_assoc, ← hsize, ← wrap_add_wrap,
      wrap_toNat, hs₂]
  refine ⟨s', tcpseg, last', ?_, ?_, ?_, ?_, ?_, ?_, ?_, ?_⟩
  · exact (sendSegment_eq hforward hwrite hs₂ (hmss ▸ hcan.fits) hcreate).trans hfinish
  · rw [hsize] at hplaced
    simpa only [hfin] using hplaced
  · rw [hsent, ← hsize, wrap_toNat]
  · rw [hseq, hprepared.sndNxt_eq]
  · rw [hlength, hsize]
  · rw [hsack', hsack₂]
  · rw [hloss, hs₂]
  · exact fun hsack ↦ hsize ▸ hlast' (hsack₂.trans hsack)

/-- From behind the FIN nothing is passed over. -/
theorem Placed.forward_of_fin (h : s.Placed first una n max last stop) (hn : n = stop + 1)
    {s₁ : TCPSender} (hforward : s.forward = .ok s₁) : s₁ = s := by
  rw [forward] at hforward
  split_ifs at hforward with hpasses
  · obtain ⟨forward, heq, -⟩ := exists_of_bind_eq_ok hforward
    rw [TCPSACKRexmitQueue.checkRexmitQueueForSackedOrRexmittedSegments] at heq
    split_ifs at heq with hasserted
    all_goals
      have hvalid := h.valid hpasses.1
      have hlast := h.last_le hpasses.1
      have hqlast := hvalid.tiles.le
      have hspan := h.stop_lt
      have hle := hasserted.2
      rw [hvalid.stop_eq, h.sndNxt_eq, hn, seqLE_wrap ⟨by omega, by omega⟩] at hle
      omega
  · cases hforward
    rfl

/-- What a successful `finishSend` says. -/
theorem finishSend_inv (h : s.finishSend bytes header tcpseg = .ok (s', tcpseg')) :
    s.OffersWindow ∧ tcpseg'.payloadLength = tcpseg.payloadLength := by
  obtain ⟨s₁, henqueue, h⟩ := exists_of_bind_eq_ok h
  obtain ⟨⟨conn, window⟩, hwindow, h⟩ := exists_of_bind_eq_ok h
  cases h
  have hsame : s₁.toTCPConnection = s.toTCPConnection := by
    rw [enqueueSent] at henqueue
    split_ifs at henqueue
    · obtain ⟨q, -, hq⟩ := exists_of_bind_eq_ok henqueue
      cases hq
      rfl
    · cases henqueue
      rfl
  exact ⟨hsame ▸ .of_ok hwindow, rfl⟩

/-- **A sender that has sent octets could send.** -/
theorem Placed.canSend (h : s.Placed first una n max last stop)
    (hsend : s.sendSegment bytes time = .ok (s', tcpseg)) (hpos : 0 < tcpseg.payloadLength) :
    ∃ header, s.CanSend time header := by
  obtain ⟨s₁, conn, header, s₂, tcpseg', hforward, hwrite, hs₂, hfits, hcreate, hfinish⟩ :=
    sendSegment_inv hsend
  have hfirst := h.first_le
  have huna := h.una_le
  have hn := h.n_le
  have hspan := h.stop_lt
  -- where the octets are taken
  obtain ⟨m, hs₁, hfirstm, hm, hend⟩ : ∃ m, s₁ = { s with sndNxt := wrap m } ∧ first ≤ m ∧
      m ≤ stop + 1 ∧ (s.buffered ≤ s.passed → stop ≤ m) := by
    rw [h.buffered_eq]
    rcases Nat.lt_or_ge stop n with hfin | hdata
    · refine ⟨n, ?_, by omega, by omega, fun _ ↦ hfin.le⟩
      rw [h.forward_of_fin (by omega) hforward, ← h.sndNxt_eq]
    · obtain ⟨hforward', hm, -⟩ := h.forward_eq hdata
      rw [hforward] at hforward'
      cases hforward'
      exact ⟨n + s.passed, rfl, by omega, by omega, fun hle ↦ by omega⟩
  subst hs₁
  obtain ⟨-, hsndMss, hoffers⟩ := writeHeader_frame hwrite
  have hmss : s₂.sndMss = s.sndMss := by rw [hs₂, ← hsndMss]
  obtain ⟨hwindow, hlength⟩ := finishSend_inv hfinish
  have hoffers₂ : conn.OffersWindow := by
    rw [hs₂] at hwindow
    exact hwindow
  refine ⟨header, ⟨conn, hwrite⟩, hmss ▸ hfits, hoffers.1 hoffers₂, ?_⟩
  by_contra hnone
  have hbuffered : s₂.buffered = 0 := by
    rw [buffered, hs₂]
    show (s.sendQueue.getBytesAvailable (wrap m)).toNat = 0
    rw [h.sendQueue_eq, TCPVirtualDataSendQueue.getBytesAvailable_wrap hfirstm hm hspan]
    exact Nat.sub_eq_zero_of_le (hend (not_lt.1 hnone))
  have hempty : (s₂.octetsToSend bytes header).toNat = 0 := by
    rw [toNat_octetsToSend hfits (writeHeader_ok hwrite).2 (by omega), hbuffered]
    omega
  have hpayload := TCPVirtualDataSendQueue.payloadLength_eq hcreate
  omega

/-- With selective acknowledgments no empty segment is sent. -/
theorem pos_of_sendSegment (hsack : s.sackEnabled = true)
    (hsend : s.sendSegment bytes time = .ok (s', tcpseg)) : 0 < tcpseg.payloadLength := by
  obtain ⟨s₁, conn, header, s₂, tcpseg', hforward, hwrite, hs₂, -, hcreate, hfinish⟩ :=
    sendSegment_inv hsend
  have hlength := (finishSend_inv hfinish).2
  have hsack₂ : s₂.sackEnabled = true := by
    have hsame : s₁.sackEnabled = s.sackEnabled := by
      rw [forward] at hforward
      split_ifs at hforward
      · obtain ⟨forward, -, hforward⟩ := exists_of_bind_eq_ok hforward
        cases hforward
        rfl
      · cases hforward
        rfl
    rw [hs₂]
    exact ((writeHeader_frame hwrite).1.trans hsame).trans hsack
  have hpayload := TCPVirtualDataSendQueue.payloadLength_eq hcreate
  obtain ⟨s₃, henqueue, -⟩ := exists_of_bind_eq_ok hfinish
  rw [enqueueSent, if_pos hsack₂] at henqueue
  obtain ⟨q, hq, -⟩ := exists_of_bind_eq_ok henqueue
  rw [TCPSACKRexmitQueue.enqueueSentData] at hq
  rw [hlength, hpayload]
  by_contra hzero
  have hempty : s₂.octetsToSend bytes header = 0 := UInt32.toNat_inj.1 (by simpa using hzero)
  rw [hempty, UInt32.add_zero, if_pos fun hasserted ↦ hasserted.2.2.1 rfl] at hq
  cases hq

end TCPSender

end Inet.Tcp
