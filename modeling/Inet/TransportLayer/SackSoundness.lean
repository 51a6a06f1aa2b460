import Inet.TransportLayer.SackRuns

/-!
# The reports of a receiver are sound

The blocks of every answer are sound (`Receiver.Sound`) and no assertion of `addSacks` fails, as
long as an entry that `rcv_nxt` has passed is seen to be passed when `addSacks` looks at it
(`sackReports_sound`). Entries are only deleted there, so one may stay in the array until `rcv_nxt`
is half the number space ahead of it; then it is reported again (`sackReports_unsound`).
-/

namespace Inet.Tcp

open SerialNumber IntervalList TransitionSystem TCPConnection

/-! ### States in which no options are written -/

theorem TCPState.not_writesOptions_afterFin_of_not {s : TCPState} (h : ¬ s.WritesOptions)
    (finAckRcvd : Bool) : ¬ (s.afterFin finAckRcvd).WritesOptions := by
  cases s <;> cases finAckRcvd <;> first | exact h | exact id

/-- No options are written any more, and no block is in an answer. -/
def Silent : Except ReceiveError (TCPConnection × List Reply) → Prop
  | .error (.runtime _) => True
  | .error (.addSacks _) => False
  | .ok (conn', replies) => ¬ conn'.fsmState.WritesOptions ∧
    ∀ reply ∈ replies, reply.tcpseg.blocks = [] ∧ reply.tcpseg.headerOptionArrayLength ≤ 40

section Silent

variable {conn : TCPConnection} {tcpseg : TCPSegment Unit} {arrival : Arrival}

theorem silent_sendAck (time : UInt32) (fin : Bool) (h : ¬ conn.fsmState.WritesOptions) :
    Silent ((conn.sendAck time).map fun r ↦ (r.1.moveFsm fin, [r.2])) := by
  rcases sendAck_plain time fun hadds ↦ h hadds.1 with
    ⟨e, heq⟩ | ⟨conn', reply, rcvWnd, rcvAdv, heq, rfl, hblocks, hlen, -⟩
  · rw [heq]
    trivial
  · rw [heq]
    refine ⟨?_, by simpa using ⟨hblocks, hlen⟩⟩
    cases fin with
    | true => exact TCPState.not_writesOptions_afterFin_of_not h _
    | false => exact h

theorem silent_answerUnacceptable (h : ¬ conn.fsmState.WritesOptions) :
    Silent (conn.answerUnacceptable arrival) := by
  have hduplicate : ¬ (conn.noteDuplicate arrival.tcpseg).fsmState.WritesOptions := by
    rw [noteDuplicate]
    split_ifs
    exacts [h, h]
  rw [answerUnacceptable]
  split_ifs
  · exact ⟨h, by simp⟩
  · exact silent_sendAck arrival.time false h
  · exact silent_sendAck arrival.time false hduplicate

theorem silent_finishSegment (old : UInt32) (h : ¬ conn.fsmState.WritesOptions) :
    Silent (conn.finishSegment old tcpseg arrival [] false) := by
  have hcheck : (conn.checkFin tcpseg).1.fsmState = conn.fsmState := by
    rw [checkFin]
    split_ifs <;> rfl
  rw [finishSegment]
  generalize conn.checkFin tcpseg = checked at hcheck
  obtain ⟨conn₁, fin⟩ := checked
  have hnote : (conn₁.noteReceiveSeqChanged tcpseg).fsmState = conn.fsmState := by
    rw [noteReceiveSeqChanged]
    split_ifs
    exacts [hcheck, hcheck]
  have hmove (c : TCPConnection) (hc : c.fsmState = conn.fsmState) :
      ¬ (c.moveFsm fin).fsmState.WritesOptions := by
    rw [← hc] at h
    cases fin with
    | true => exact TCPState.not_writesOptions_afterFin_of_not h _
    | false => exact h
  show Silent ((conn₁.acknowledge _ _ _ _).map fun r ↦ (r.1.moveFsm fin, r.2))
  rw [acknowledge]
  split_ifs with hsame
  · exact ⟨hmove conn₁ hcheck, by simp⟩
  · show Silent ((if _ then _ else _ : Except _ _).map _)
    split_ifs
    · have hsend := silent_sendAck arrival.time fin (hnote ▸ h)
      cases heq : (conn₁.noteReceiveSeqChanged tcpseg).sendAck arrival.time with
      | error e => rwa [heq] at hsend
      | ok r => rwa [heq] at hsend
    · exact ⟨hmove _ hnote, by simp⟩

/-- **A segment that arrives when no options are written** is answered without blocks. -/
theorem silent_processSegment1stThru8th (arrival : Arrival) (h : ¬ conn.fsmState.WritesOptions) :
    Silent (conn.processSegment1stThru8th arrival) := by
  rw [processSegment1stThru8th]
  split_ifs with _ _ _ htext
  · exact ⟨id, by simp⟩
  · exact absurd htext.1.writesOptions h
  · exact silent_finishSegment conn.rcvNxt h
  · exact ⟨h, by simp⟩
  · exact silent_answerUnacceptable h

theorem silent_forwardData (h : ¬ conn.fsmState.WritesOptions) :
    Silent (conn.forwardData.map (·, [])) := by
  rw [forwardData]
  cases extractAll conn.rcvNxt (conn.receiveQueue.regionList.length + 1) conn.receiveQueue with
  | error e => trivial
  | ok q => exact ⟨h, by simp⟩

end Silent

/-! ### One event -/

namespace Receiver

variable {r r' : Receiver} {e : ReceiverEvent}

/-- What holds between two events: as long as options are written, the connection is `Ready`. -/
def Tracks (r : Receiver) : Prop :=
  r.conn.fsmState.WritesOptions → Outcome r.start (points r.received) r.noted r.next r.conn []

theorem Starts.tracks (h : r.Starts) : r.Tracks := by
  intro _
  rw [h.received_eq, h.noted_eq, h.next_eq, points_nil]
  refine ⟨.init r.start, r.start, r.start, [], rfl, rfl, ?_,
    fun _ ↦ ⟨h.processesText, rfl, h.sndSack, h.sndDsack⟩, by simp⟩
  exact {
    refines := h.receiveQueue_eq ▸ .init r.start
    rcvNxt_eq := h.rcvNxt_eq
    le := le_rfl
    le_succ := Nat.le_succ _
    le_first := le_rfl
    ends := by simp
    next_le := Nat.le_add_right _ _
    maxRcvBuffer_lt := h.maxRcvBuffer_lt
    sacksArray_eq := h.sacksArray_eq
    nonempty := by simp
    received := by simp
    apart := .nil }

/-- What the connection does is safe as long as options are written. -/
theorem Tracks.safe (h : r.Tracks) (hwrites : r.conn.fsmState.WritesOptions)
    (hnear : r.ArrivesNear e) (hfollows : r.Follows e) :
    Safe r.start (points (r.received ++ r.inserted e)) r.next r.noted (r.conn.handle e) := by
  obtain ⟨σ, k, next, ps, hstart, hR, hready, hflags, -⟩ := h hwrites
  obtain ⟨htext, rfl, hsack, hdsack⟩ := hflags hwrites
  have hold : ahead r.next (wrap r.next) = r.next := ahead_wrap le_rfl (by omega)
  have hplain : ¬ r.conn.AddsSacks := fun hadds ↦ by simp [AddsSacks, hsack, hdsack] at hadds
  rw [points_append, ← hstart, ← hR]
  cases e with
  | arrive arrival =>
    rw [ArrivesNear, ← hstart] at hnear
    exact safe_processSegment1stThru8th hready htext hsack hdsack hnear
  | send time =>
    show Safe _ (σ.received ∪ points []) _ _
      ((r.conn.sendAck time).map fun r ↦ (r.1.moveFsm false, [r.2]))
    rw [points_nil, Set.union_empty]
    exact safe_of_answer hready htext hold (fun _ ↦ rfl) (fun hadds ↦ absurd hadds hplain)
      fun _ ↦ ⟨hsack, hdsack⟩
  | read =>
    obtain ⟨q', ps', heq, hready'⟩ := forwardData_spec hready
    show Safe _ (σ.received ∪ points []) _ _ (r.conn.forwardData.map (·, []))
    rw [points_nil, Set.union_empty, heq]
    have hsafe : Safe _ _ _ _ (.ok (moveFsm { r.conn with receiveQueue := q' } false, [])) :=
      safe_of_ready hready' htext hold (fun _ ↦ rfl) hsack hdsack
    exact hsafe
  | enter s =>
    intro _
    show Outcome _ (σ.received ∪ points []) _ (ahead r.next r.conn.rcvNxt) _ _
    rw [points_nil, Set.union_empty, hready.rcvNxt_eq, hold]
    exact ⟨σ, k, r.next, ps, rfl, rfl, hready.congr rfl hready.rcvNxt_eq.symm rfl rfl,
      fun hs ↦ ⟨(hfollows hs).1, rfl, hsack, hdsack⟩, by simp⟩

/-- What the connection does when no options are written. -/
theorem silent_handle (h : ¬ r.conn.fsmState.WritesOptions) (hfollows : r.Follows e) :
    Silent (r.conn.handle e) := by
  cases e with
  | arrive arrival => exact silent_processSegment1stThru8th arrival h
  | send time => exact silent_sendAck time false h
  | read => exact silent_forwardData h
  | enter s => exact ⟨fun hs ↦ h (hfollows hs).2.writesOptions, by simp⟩

theorem exists_step_of_handle {conn : TCPConnection} {replies : List Reply}
    (h : r.conn.handle e = .ok (conn, replies)) :
    ∃ r', r.step e = .ok r' ∧ r'.conn = conn ∧ r'.replies = replies := by
  rw [Receiver.step, h]
  exact ⟨_, rfl, rfl, rfl⟩

/-- **What is told is sound.** -/
theorem sound_of_told {σ : Stream} {k next : ℕ} {noted ps : List (ℕ × ℕ)} {reply : Reply}
    (hready : Ready r.conn σ k next r.next noted ps)
    (htold : Told (points r.received) ps r.next reply) : r.Sound reply := by
  obtain ⟨hlen, bs, hblocks, hreported⟩ := htold
  have hoctets : ∀ p ∈ bs, r.octets (sackAt p) = Set.Ico p.1 p.2 := fun p hp ↦
    congrArg₂ Set.Ico (nearest_wrap (hreported.entry p hp).near_begin)
      (nearest_wrap (hreported.entry p hp).near_end)
  have habove : ∀ p ∈ bs, TCPConnection.LiesAbove ps r.next p → r.LiesAbove (sackAt p) := by
    rintro p hp ⟨hle, q, hq, hbegin, hend⟩
    obtain ⟨region, hregion, hat⟩ := exists_of_mem_right hready.refines.regions hq
    have hwithin := hready.refines.within hq
    have hnonempty := (hreported.entry p hp).nonempty
    have hlt := hwithin.lt
    have hle' := hwithin.le
    obtain rfl := hat
    refine ⟨?_, _, hregion, ?_, ?_⟩
    · rw [hready.rcvNxt_eq]
      exact (seqLE_wrap (hreported.entry p hp).near_begin.symm).2 hle
    · exact (seqLE_wrap ⟨by omega, by omega⟩).2 hbegin
    · exact (seqLE_wrap ⟨by omega, by omega⟩).2 hend
  have hdisjoint : ∀ cs : List (ℕ × ℕ), cs.Sublist bs → cs.Pairwise Apart →
      (cs.map sackAt).Pairwise fun s t ↦ ∀ x ∈ r.octets s, x ∉ r.octets t := by
    intro cs hsub hcs
    rw [List.pairwise_map]
    refine hcs.imp_of_mem fun {p q} hp hq hpq x hx hx' ↦ ?_
    rw [hoctets p (hsub.subset hp), Set.mem_Ico] at hx
    rw [hoctets q (hsub.subset hq), Set.mem_Ico] at hx'
    rw [Apart] at hpq
    omega
  refine ⟨hlen, fun s hs ↦ ?_, fun s hs ↦ ?_, fun hdsack s hs ↦ ?_, ?_⟩
  · rw [hblocks] at hs
    obtain ⟨p, hp, rfl⟩ := List.mem_map.1 hs
    rw [hoctets p hp, Set.nonempty_Ico]
    exact ⟨(hreported.entry p hp).nonempty, hreported.received p hp⟩
  · rw [hblocks, ← List.map_tail] at hs
    obtain ⟨p, hp, rfl⟩ := List.mem_map.1 hs
    exact habove p (List.mem_of_mem_tail hp) (hreported.above p hp)
  · rw [hblocks, List.head?_map] at hs
    obtain ⟨p, hp, rfl⟩ := Option.mem_map.1 hs
    have hmem := List.mem_of_head? hp
    refine (hreported.first hdsack p hp).imp (fun hle ↦ ?_) (habove p hmem)
    rw [hready.rcvNxt_eq]
    exact (seqLE_wrap (hreported.entry p hmem).near_end).2 hle
  · have hapart := hreported.apart
    rw [hblocks, ← List.map_tail]
    split_ifs at hapart ⊢
    · exact hdisjoint bs.tail (List.tail_sublist bs) hapart
    · exact hdisjoint bs (.refl bs) hapart

/-- An answer without blocks is sound. -/
theorem sound_of_silent {reply : Reply} (hblocks : reply.tcpseg.blocks = [])
    (hlen : reply.tcpseg.headerOptionArrayLength ≤ 40) : r.Sound reply := by
  refine ⟨hlen, ?_, ?_, ?_, ?_⟩ <;> simp [hblocks]

/-- What is claimed of an event, whether it fails or not. -/
def EventSound (r : Receiver) : Except ReceiveError Receiver → Prop
  | .error (.runtime _) => True
  | .error (.addSacks c) => ¬ SeesPassed r.noted (ahead r.next c.rcvNxt)
  | .ok r' => ((∃ reply ∈ r'.replies, reply.sacksAdded) → SeesPassed r.noted r'.next) →
    r'.Tracks ∧ ∀ reply ∈ r'.replies, r'.Sound reply

/-- **One event** keeps what is known of a receiver, and its answers are sound. -/
theorem Tracks.step (h : r.Tracks) (hnear : r.ArrivesNear e) (hfollows : r.Follows e) :
    r.EventSound (r.step e) := by
  by_cases hwrites : r.conn.fsmState.WritesOptions
  · have hsafe := h.safe hwrites hnear hfollows
    cases hhandle : r.conn.handle e with
    | error err =>
      rw [hhandle] at hsafe
      rw [Receiver.step, hhandle]
      cases err with
      | runtime err => trivial
      | addSacks c => exact hsafe
    | ok s =>
      obtain ⟨conn, replies⟩ := s
      rw [hhandle] at hsafe
      rw [Receiver.step, hhandle]
      intro hseen
      obtain ⟨σ, k, next, ps, hstart, hR, hready, hflags, htold⟩ := hsafe hseen
      exact ⟨fun _ ↦ ⟨σ, k, next, ps, hstart, hR, hready, hflags, by simp⟩,
        fun reply hreply ↦ sound_of_told hready (htold reply hreply)⟩
  · have hsilent := silent_handle hwrites hfollows
    cases hhandle : r.conn.handle e with
    | error err =>
      rw [hhandle] at hsilent
      rw [Receiver.step, hhandle]
      cases err with
      | runtime err => trivial
      | addSacks c => exact hsilent.elim
    | ok s =>
      obtain ⟨conn, replies⟩ := s
      rw [hhandle] at hsilent
      rw [Receiver.step, hhandle]
      intro _
      exact ⟨fun hw ↦ absurd hw hsilent.1,
        fun reply hreply ↦ sound_of_silent (hsilent.2 reply hreply).1 (hsilent.2 reply hreply).2⟩

end Receiver

/-! ### A segment behind a gap -/

/-- A segment of 16384 bytes. -/
def piece (x : UInt32) : Arrival :=
  { tcpseg := { sequenceNo := x, payloadLength := 16384 }, acksAtOnce := true }

/-- The receiver at its start. -/
def opened : Receiver where
  conn := {
    rcvNxt := 0
    rcvWnd := 65535
    rcvAdv := 65535
    maxRcvBuffer := 65535
    receiveQueue := .init 0 }
  start := 0
  next := 0

/-- A segment after a gap, and the one that fills it. -/
def gapFilled : List ReceiverEvent :=
  [.arrive (piece (wrap 16384)), .arrive (piece (wrap 0))]

theorem starts_opened : opened.Starts :=
  ⟨rfl, rfl, rfl, trivial, by decide, rfl, rfl, rfl, rfl, rfl, rfl⟩

/-- The next segment, or one behind it, is near `rcv_nxt`. -/
theorem arrivesNear_piece {r : Receiver} {pos : ℕ} (hstart : r.start ≤ pos) (hle : r.next ≤ pos)
    (hlt : pos + 16384 < r.next + 2 ^ 31) : r.ArrivesNear (.arrive (piece (wrap pos))) :=
  fun _ ↦ ⟨pos, rfl, hstart, by omega, hlt⟩

theorem arrivesNear_gapFilled : ∀ t ∈ transitionsOf (orStay Receiver.step) opened gapFilled,
    t.pre.ArrivesNear t.input := by
  rw [gapFilled, transitionsOf, transitionsOf, transitionsOf, List.forall_mem_cons,
    List.forall_mem_singleton]
  constructor
  · exact arrivesNear_piece (Nat.zero_le _) (Nat.zero_le _)
      (by show 16384 + 16384 < 0 + 2 ^ 31; omega)
  · exact arrivesNear_piece (Nat.zero_le _) (by decide +kernel) (by decide +kernel)

theorem run_gapFilled :
    sackReceiver.Run (transitionsOf (orStay Receiver.step) opened gapFilled)
      (stateAfter (orStay Receiver.step) opened gapFilled) :=
  .ofFallible (C := Receiver.Follows) starts_opened (fun _ _ _ hfollows hstep ↦ ⟨hfollows, hstep⟩)
    (by decide +kernel)

/-! ### Runs -/

variable {tr : List (Transition Receiver ReceiverEvent Unit)} {r : Receiver}

/-- **What is known between two events**, in a run where whatever `addSacks` should delete is
deleted.
-/
theorem tracks_of_run (h : sackReceiver.Run tr r)
    (hcond : ∀ t ∈ tr, t.pre.ArrivesNear t.input ∧
      ((∃ reply ∈ t.post.replies, reply.sacksAdded) →
        Receiver.SeesPassed t.pre.noted t.post.next)) : r.Tracks := by
  induction h with
  | nil h => exact h.tracks
  | @snoc tr r r' e _ _ hs ih =>
    rw [List.forall_mem_append, List.forall_mem_singleton] at hcond
    have hstep := (ih hcond.1).step hcond.2.1 hs.1
    rw [hs.2] at hstep
    exact (hstep hcond.2.2).1

/-- **The reports are sound and the assertions hold**, in every run in which the segments bring
bytes near `rcv_nxt`, and the entries that `rcv_nxt` has passed are seen to be passed when
`addSacks` looks at them. -/
theorem sackReports_sound (h : sackReceiver.Run tr r)
    (hcond : ∀ t ∈ tr, t.pre.ArrivesNear t.input ∧
      ((∃ reply ∈ t.post.replies, reply.sacksAdded) →
        Receiver.SeesPassed t.pre.noted t.post.next)) :
    (∀ t ∈ tr, ∀ reply ∈ t.post.replies, t.post.Sound reply) ∧
      ∀ e c, r.ArrivesNear e → r.Follows e → r.step e = .error (.addSacks c) →
        ¬ Receiver.SeesPassed r.noted (ahead r.next c.rcvNxt) := by
  constructor
  · intro t ht
    obtain ⟨tr₁, tr₂, rfl, hrun, hstep, -⟩ := h.eq_append_of_mem ht
    have hpre := tracks_of_run hrun fun u hu ↦ hcond u (List.mem_append_left _ hu)
    obtain ⟨hnear, hseen⟩ := hcond t ht
    have hsound := hpre.step hnear hstep.1
    rw [hstep.2] at hsound
    exact (hsound hseen).2
  · intro e c hnear hfollows hfails
    have hsound := (tracks_of_run h hcond).step hnear hfollows
    rw [hfails] at hsound
    exact hsound

/-- A gap that is filled. -/
theorem sackReports_sound_gapFilled :
    (∀ t ∈ transitionsOf (orStay Receiver.step) opened gapFilled, ∀ reply ∈ t.post.replies,
      t.post.Sound reply) ∧
      ∀ e c, (stateAfter (orStay Receiver.step) opened gapFilled).ArrivesNear e →
        (stateAfter (orStay Receiver.step) opened gapFilled).Follows e →
        (stateAfter (orStay Receiver.step) opened gapFilled).step e = .error (.addSacks c) →
        ¬ Receiver.SeesPassed (stateAfter (orStay Receiver.step) opened gapFilled).noted
          (ahead (stateAfter (orStay Receiver.step) opened gapFilled).next c.rcvNxt) :=
  have hseen : ∀ t ∈ transitionsOf (orStay Receiver.step) opened gapFilled,
      (∃ reply ∈ t.post.replies, reply.sacksAdded) →
        Receiver.SeesPassed t.pre.noted t.post.next := by decide +kernel
  sackReports_sound run_gapFilled fun t ht ↦ ⟨arrivesNear_gapFilled t ht, hseen t ht⟩

/-! ### An entry that is passed for too long

A segment at 16384 is reported; the segment before it fills the gap, and everything is handed out.
The stream goes on in order, so nothing is reported and the entry stays, until `rcv_nxt` is half the
number space ahead of its end. -/

/-- The connection once the gap is filled, with `rcv_nxt` at `x`. -/
def streaming (x : UInt32) : TCPConnection where
  rcvNxt := x
  rcvWnd := 65535
  rcvAdv := x + 65535
  maxRcvBuffer := 65535
  sacksArray := [⟨16384, 32768⟩]
  receiveQueue := .init x

/-- The connection when the next segment has been handed out and is not yet acknowledged. -/
def handedOut (x : UInt32) : TCPConnection :=
  { streaming x with rcvNxt := x + 16384, receiveQueue := .init (x + 16384) }

/-- The acknowledgment, without options. -/
def streamingAck (x : UInt32) : Reply :=
  ⟨false, false, { ackBit := true, ackNo := x, window := 65535 }⟩

section Streaming

variable (x : UInt32)

theorem isSegmentAcceptable_streaming : (streaming x).IsSegmentAcceptable (piece x) := by
  simp [streaming, piece, IsSegmentAcceptable, seqLE, seqLess]

theorem textToInsert_streaming :
    (streaming x).textToInsert (piece x).tcpseg = .ok (some (piece x).tcpseg) := by
  have htrunc : (piece x).tcpseg.truncateSegment x (x + 65535) = .ok (piece x).tcpseg := by
    simp [piece, seqLess, seqGreater, TCPSegment.truncateSegment, TCPSegment.endNo,
      TCPSegment.truncateData, TCPSegment.dropBack, bind, pure, Except.bind, Except.pure]
  have hspace : (streaming x).HasEnoughSpaceForSegmentInReceiveQueue (piece x).tcpseg := by
    simp [HasEnoughSpaceForSegmentInReceiveQueue, streaming, piece, seqLE, TCPSegment.endNo,
      TCPVirtualDataRcvQueue.getFirstSeqNo, TCPVirtualDataRcvQueue.init]
  show (Except.bind ((piece x).tcpseg.truncateSegment x (x + 65535)) _ : Except _ _) = _
  rw [htrunc]
  exact congrArg Except.ok (if_pos hspace)

theorem insertBytesFromSegment_init :
    (TCPVirtualDataRcvQueue.init x : TCPVirtualDataRcvQueue VirtualRegion).insertBytesFromSegment
      (piece x).tcpseg = .ok ⟨x + 16384, [⟨x, x + 16384⟩]⟩ := by
  simp [piece, seqGE, TCPVirtualDataRcvQueue.insertBytesFromSegment, TCPVirtualDataRcvQueue.init,
    TCPVirtualDataRcvQueue.insertRegion, TCPVirtualDataRcvQueue.checkRange,
    TCPVirtualDataRcvQueue.mergeRegion, TCPVirtualDataRcvQueue.mergeBack,
    Region.createRegionFromSegment, Region.getBegin, Region.getEnd, TCPSegment.endNo, Except.map,
    bind, pure, Except.bind, Except.pure]

theorem extractAll_single :
    extractAll (x + 16384) 2 ⟨x + 16384, [⟨x, x + 16384⟩]⟩ = .ok (.init (x + 16384)) := by
  have hafter : ¬ seqLE (x + 16384) x := by simp [seqLE, UInt32.size]
  have hle : seqLE (x + 16384) (x + 16384) := by simp [seqLE]
  have hge : seqGE (x + 16384) (x + 16384) := by simp [seqGE]
  simp [extractAll, TCPVirtualDataRcvQueue.extractTo, TCPVirtualDataRcvQueue.init, Region.getBegin,
    Region.getEnd, hle, hge, hafter, bind, pure, Except.bind, Except.pure]

theorem insertText_streaming :
    (streaming x).insertText (piece x).tcpseg 0 = .ok (handedOut x, [], false) := by
  have hmoved : x + 16384 ≠ x := by simp
  have hinsert : (streaming x).receiveQueue.insertBytesFromSegment (piece x).tcpseg =
      .ok ⟨x + 16384, [⟨x, x + 16384⟩]⟩ := insertBytesFromSegment_init x
  have hpass : passData { streaming x with
      receiveQueue := ⟨x + 16384, [⟨x, x + 16384⟩]⟩, rcvNxt := x + 16384 } = .ok (handedOut x) := by
    have hextract : extractAll (x + 16384) ([(⟨x, x + 16384⟩ : VirtualRegion)].length + 1)
        ⟨x + 16384, [⟨x, x + 16384⟩]⟩ = .ok (.init (x + 16384)) := extractAll_single x
    simp only [passData, streaming, Bool.false_eq_true, if_false, forwardData, hextract, orRuntime,
      handedOut, bind, pure, Except.bind, Except.pure]
  have hrcvNxt : (streaming x).rcvNxt = x := rfl
  simp only [insertText, hinsert, orRuntime, bind, pure, Except.bind, Except.pure, hrcvNxt,
    if_neg hmoved, hpass]
  rfl

theorem updateRcvWnd_handedOut : (handedOut x).updateRcvWnd = .ok (streaming (x + 16384), 65535) := by
  have hfree : (handedOut x).receiveQueue.getAmountOfFreeBytes (handedOut x).maxRcvBuffer =
      65535 := by
    simp [handedOut, streaming, TCPVirtualDataRcvQueue.init,
      TCPVirtualDataRcvQueue.getAmountOfFreeBytes, TCPVirtualDataRcvQueue.getAmountOfBufferedBytes]
  have hgap : (handedOut x).rcvAdv - (handedOut x).rcvNxt = 49151 := by
    show x + 65535 - (x + 16384) = 49151
    rw [add_sub_add_left_eq_sub]
    rfl
  have hoffered : (handedOut x).offeredWindow = 65535 := by
    have hfew : ¬ (65535 : UInt32) < (handedOut x).maxRcvBuffer / 4 := by
      show ¬ (65535 : UInt32) < 65535 / 4
      decide
    simp [offeredWindow, hfree, hgap, hfew]
  have hscaled : (handedOut x).scaledWindow = 65535 := by
    rw [scaledWindow, hoffered]
    simp [handedOut, streaming]
  have hge : seqGE (x + 16384 + 65535) (x + 65535) := by
    rw [seqGE, add_right_comm, add_sub_cancel_left]
    decide
  rw [updateRcvWnd, hoffered, hscaled]
  simp [handedOut, streaming, hge]

theorem sendAck_handedOut :
    (handedOut x).sendAck 0 = .ok (streaming (x + 16384), streamingAck (x + 16384)) :=
  sendAck_eq (updateRcvWnd_handedOut x) rfl

/-- **One more segment in order**: nothing but `rcv_nxt` moves. -/
theorem processSegment_streaming : (streaming x).processSegment1stThru8th (piece x) =
    .ok (streaming (x + 16384), [streamingAck (x + 16384)]) := by
  have hmoved : x ≠ x + 16384 := by simp
  have hfinish : (handedOut x).finishSegment x (piece x).tcpseg (piece x) [] false =
      .ok (streaming (x + 16384), [streamingAck (x + 16384)]) := by
    have hcheck : (handedOut x).checkFin (piece x).tcpseg = (handedOut x, false) := rfl
    have hrcvNxt : (handedOut x).rcvNxt = x + 16384 := rfl
    have hnote : (handedOut x).noteReceiveSeqChanged (piece x).tcpseg = handedOut x := rfl
    have hsend : (handedOut x).sendAck (piece x).time = _ := sendAck_handedOut x
    simp only [finishSegment, hcheck, acknowledge, hrcvNxt, if_neg hmoved, hnote, hsend]
    rfl
  rw [processSegment1stThru8th, if_neg (not_not.2 (isSegmentAcceptable_streaming x)),
    if_neg (by simp [piece]), if_neg (by simp [piece]), if_pos ⟨trivial, by simp [piece]⟩]
  show ((orRuntime ((streaming x).textToInsert (piece x).tcpseg)).bind _ : Except _ _) = _
  rw [textToInsert_streaming]
  show (((streaming x).insertText (piece x).tcpseg 0).bind _ : Except _ _) = _
  rw [insertText_streaming]
  exact hfinish

end Streaming

/-- The receiver once the gap is filled. -/
def midstream (n : ℕ) (received : List (ℕ × ℕ)) : Receiver where
  conn := streaming (wrap n)
  start := 0
  next := n
  received := received
  noted := [(16384, 32768)]
  replies := [streamingAck (wrap n)]

theorem step_midstream (n : ℕ) (received : List (ℕ × ℕ)) :
    (midstream n received).step (.arrive (piece (wrap n))) =
      .ok (midstream (n + 16384) (received ++ [(n, n + 16384)])) := by
  have hwrap : wrap n + 16384 = wrap (n + 16384) := wrap_add_wrap n 16384
  have hhandle : (midstream n received).conn.handle (.arrive (piece (wrap n))) =
      .ok (streaming (wrap (n + 16384)), [streamingAck (wrap (n + 16384))]) := by
    rw [← hwrap]
    exact processSegment_streaming (wrap n)
  have hnext : ahead n (wrap (n + 16384)) = n + 16384 := ahead_wrap (by omega) (by omega)
  have hinserted : (midstream n received).inserted (.arrive (piece (wrap n))) =
      [(n, n + 16384)] := by
    have hat : textAt n (piece (wrap n)).tcpseg = (n, n + 16384) := by
      rw [textAt]
      show (nearest n (wrap n), nearest n (wrap n) + 16384) = _
      rw [nearest_wrap ⟨by omega, by omega⟩]
    have htext : (midstream n received).conn.insertedText (.arrive (piece (wrap n))) =
        some (piece (wrap n)).tcpseg := by
      have hacceptable := isSegmentAcceptable_streaming (wrap n)
      rw [insertedText_arrive, if_pos ⟨hacceptable, by simp [piece], rfl, trivial, by simp [piece]⟩]
      exact congrArg (fun t ↦ (Except.toOption t).join) (textToInsert_streaming (wrap n))
    rw [Receiver.inserted, htext]
    exact congrArg (fun p ↦ [p]) hat
  have hnext' : ahead (midstream n received).next (streaming (wrap (n + 16384))).rcvNxt =
      n + 16384 := hnext
  simp only [Receiver.step, hhandle, hinserted, bind, pure, Except.bind, Except.pure, hnext']
  rfl

/-- **The stream goes on** for as long as one likes. -/
theorem exists_run_midstream {tr : List (Transition Receiver ReceiverEvent Unit)} {n : ℕ}
    {received : List (ℕ × ℕ)} (h : sackReceiver.Run tr (midstream n received))
    (hnear : ∀ t ∈ tr, t.pre.ArrivesNear t.input) (m : ℕ) :
    ∃ tr' received', sackReceiver.Run tr' (midstream (n + 16384 * m) received') ∧
      ∀ t ∈ tr', t.pre.ArrivesNear t.input := by
  induction m with
  | zero => exact ⟨tr, received, h, hnear⟩
  | succ m ih =>
    obtain ⟨tr', received', hrun, hnear'⟩ := ih
    have hstep : sackReceiver.Step (midstream (n + 16384 * m) received')
        (.arrive (piece (wrap (n + 16384 * m)))) ()
        (midstream (n + 16384 * m + 16384) _) :=
      ⟨trivial, step_midstream (n + 16384 * m) received'⟩
    rw [Nat.mul_succ, ← Nat.add_assoc]
    refine ⟨_, _, hrun.snoc hstep, ?_⟩
    rw [List.forall_mem_append, List.forall_mem_singleton]
    refine ⟨hnear', arrivesNear_piece (Nat.zero_le _) le_rfl ?_⟩
    show n + 16384 * m + 16384 < n + 16384 * m + 2 ^ 31
    omega

/-- A report with the entry that `rcv_nxt` has passed. -/
def staleReply : Reply where
  sacksAdded := true
  dsack := false
  tcpseg := {
    ackBit := true
    ackNo := 2147516416
    window := 65535
    headerLength := 40
    headerOption := [.nop, .nop, .sack [⟨2147532800, 2147549184⟩, ⟨16384, 32768⟩]] }

/-- The connection after that report. -/
def stale : TCPConnection :=
  { streaming 2147516416 with
    sacksArray := [⟨2147532800, 2147549184⟩, ⟨16384, 32768⟩]
    receiveQueue := ⟨2147516416, [⟨2147532800, 2147549184⟩]⟩ }

/-- **An entry is reported again**: `rcv_nxt` is half the number space ahead of its end, and the
next segment comes behind a gap. -/
theorem sackReports_unsound : ∃ tr r, sackReceiver.Run tr r ∧
    (∀ t ∈ tr, t.pre.ArrivesNear t.input) ∧ ∃ t ∈ tr, ∃ reply ∈ t.post.replies,
      reply.dsack = false ∧ ⟨16384, 32768⟩ ∈ reply.tcpseg.blocks.tail ∧
        ¬ t.post.LiesAbove ⟨16384, 32768⟩ ∧ ¬ t.post.Sound reply := by
  have hlast : stateAfter (orStay Receiver.step) opened gapFilled =
      midstream 32768 [(16384, 32768), (0, 16384)] := by decide +kernel
  obtain ⟨tr, received, hrun, hnear⟩ : ∃ tr received,
      sackReceiver.Run tr (midstream 2147516416 received) ∧ ∀ t ∈ tr, t.pre.ArrivesNear t.input :=
    exists_run_midstream (hlast ▸ run_gapFilled) arrivesNear_gapFilled 131072
  have hhandle : (streaming (wrap 2147516416)).handle (.arrive (piece (wrap 2147532800))) =
      .ok (stale, [staleReply]) := by decide +kernel
  obtain ⟨r', hstep, hconn, hreplies⟩ := Receiver.exists_step_of_handle
    (r := midstream 2147516416 received) hhandle
  have hmem : ⟨16384, 32768⟩ ∈ staleReply.tcpseg.blocks.tail := by decide
  have hnot : ¬ r'.LiesAbove ⟨16384, 32768⟩ := by
    rw [Receiver.LiesAbove, hconn]
    decide
  have hstep' : sackReceiver.Step (midstream 2147516416 received)
      (.arrive (piece (wrap 2147532800))) () r' := ⟨trivial, hstep⟩
  have hrun' := hrun.snoc hstep'
  refine ⟨_, r', hrun', ?_, _, List.mem_append_right _ (List.mem_singleton_self _), staleReply, ?_,
    by decide, hmem, hnot, fun hsound ↦ hnot (hsound.above _ hmem)⟩
  · rw [List.forall_mem_append, List.forall_mem_singleton]
    refine ⟨hnear, arrivesNear_piece (Nat.zero_le _) ?_ ?_⟩
    · show 2147516416 ≤ 2147532800
      omega
    · show 2147532800 + 16384 < 2147516416 + 2 ^ 31
      omega
  · rw [hreplies]
    exact List.mem_singleton_self staleReply

end Inet.Tcp
