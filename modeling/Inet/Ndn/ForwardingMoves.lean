import Inet.Ndn.Broker

/-!
# The forwarder refines the broker

`ForwardingBase.view` reads the broker off a forwarder, and `Sound` is what makes the reading right:
the flag, the timer and the packet pointer of the delayed-send message agree, the address texts in
the message parse, and nothing in the PIT is marked erased.

The main result is `Reachable.move`: from a reachable state, every step of the forwarder is a move
of the broker. It is assembled from one lemma per handler, each of which also keeps `Sound`.
-/

namespace Inet.Ndn

/-- The packet in the slot as its transmission will decode it. -/
def SendDelayed.held (sd : SendDelayed) : Option Held :=
  match sd.delayedPacket with
  | none => none
  | some (.interest interest) =>
    if sd.type = INTEREST then
      match MACAddress.tryParse sd.macSrc, MACAddress.tryParse sd.macDest with
      | some macSrc, some macDest => some (.request interest sd.face macSrc macDest)
      | _, _ => none
    else none
  | some (.data data) =>
    if sd.type = INTEREST then none
    else (MACAddress.tryParse sd.macDest).map (.reply data sd.face)

theorem SendDelayed.held_of_delayedPacket_eq_none {sd : SendDelayed}
    (h : sd.delayedPacket = none) : sd.held = none := by
  rw [held, h]

/-- A held request, field by field. -/
theorem SendDelayed.held_eq_request {sd : SendDelayed} {i : Interest} {face : ℕ}
    {macSrc macDest : MACAddress} (h : sd.held = some (.request i face macSrc macDest)) :
    sd.delayedPacket = some (.interest i) ∧ sd.type = INTEREST ∧ sd.face = face ∧
      MACAddress.tryParse sd.macSrc = some macSrc ∧
      MACAddress.tryParse sd.macDest = some macDest := by
  unfold held at h
  split at h
  · simp at h
  · rename_i hp
    split at h
    · rename_i htype
      split at h
      · rename_i hsrc hdest
        simp only [Option.some.injEq, Held.request.injEq] at h
        obtain ⟨rfl, rfl, rfl, rfl⟩ := h
        exact ⟨hp, htype, rfl, hsrc, hdest⟩
      · simp at h
    · simp at h
  · split at h
    · simp at h
    · obtain ⟨m, -, hm⟩ := Option.map_eq_some_iff.1 h
      simp at hm

/-- A held reply, field by field. -/
theorem SendDelayed.held_eq_reply {sd : SendDelayed} {d : Data} {face : ℕ} {macDest : MACAddress}
    (h : sd.held = some (.reply d face macDest)) :
    sd.delayedPacket = some (.data d) ∧ sd.type ≠ INTEREST ∧ sd.face = face ∧
      MACAddress.tryParse sd.macDest = some macDest := by
  unfold held at h
  split at h
  · simp at h
  · split at h
    · split at h
      · simp at h
      · simp at h
    · simp at h
  · rename_i hp
    split at h
    · simp at h
    · rename_i htype
      obtain ⟨m, hm, heq⟩ := Option.map_eq_some_iff.1 h
      simp only [Held.reply.injEq] at heq
      obtain ⟨rfl, rfl, rfl⟩ := heq
      exact ⟨hp, htype, rfl, hm⟩

/-- What is held is the packet the message points to. -/
theorem SendDelayed.delayedPacket_of_held {sd : SendDelayed} {h : Held} (hh : sd.held = some h) :
    sd.delayedPacket = some h.packet := by
  cases h with
  | request i face macSrc macDest => exact (held_eq_request hh).1
  | reply d face macDest => exact (held_eq_reply hh).1

namespace ForwardingBase

/-! ### The reading of the state -/

/-- The broker a forwarder implements. -/
def view (s : ForwardingBase) : Broker where
  forwarding := s.forwarding
  capacity := s.pit.maxSize
  pending := s.pit.entries
  held := s.sendDelayedPacket.held
  numIntFwd := s.stat.numIntFwd
  numIntCanceled := s.stat.numIntCanceled
  numIntDuplicated := s.stat.numIntDuplicated
  numDataCanceled := s.stat.numDataCanceled
  numDataFwd := s.stat.numDataFwd

/-- An Interest that came from the link would be sent to the link now: the content store has no
Data, the name is not pending and the FIB names a face of the link. -/
def routesToLink (s : ForwardingBase) (i : Interest) : Bool :=
  i.arrivalGate.isLower && s.forwarding && (s.cs.lookup i).1.isNone &&
    (s.pit.lookup i.name).1.isNone &&
    (s.fib.lookup i.name).1.any fun fe ↦ fe.face.isLower

/-- The pieces of the state agree with each other. -/
structure Sound (s : ForwardingBase) : Prop where
  /-- The flag says whether the timer is scheduled. -/
  scheduled_iff : s.waiting = s.scheduled.isSome
  /-- The flag says whether a packet is owned. -/
  owned_iff : s.waiting = s.sendDelayedPacket.delayedPacket.isSome
  /-- What is owned can be sent. -/
  held_iff : s.waiting = s.sendDelayedPacket.held.isSome
  /-- The PIT holds live entries only. -/
  live : ∀ e ∈ s.pit.entries, e.erased = false

theorem sound_initial (par : Params) : (initial par).Sound where
  scheduled_iff := rfl
  owned_iff := rfl
  held_iff := rfl
  live := by simp [initial]

variable {s : ForwardingBase}

theorem Sound.held_of_not_waiting (h : s.Sound) (hw : s.waiting = false) : s.view.held = none := by
  have hheld := h.held_iff
  rw [hw] at hheld
  exact Option.isSome_eq_false_iff.1 hheld.symm |> Option.isNone_iff_eq_none.1

theorem Sound.scheduled_of_not_waiting (h : s.Sound) (hw : s.waiting = false) :
    s.scheduled = none := by
  have hsched := h.scheduled_iff
  rw [hw] at hsched
  exact Option.isSome_eq_false_iff.1 hsched.symm |> Option.isNone_iff_eq_none.1

/-- While the flag is set, the slot can be decoded. -/
theorem Sound.exists_held (h : s.Sound) (hw : s.waiting = true) : ∃ p, s.view.held = some p := by
  have hheld := h.held_iff
  rw [hw] at hheld
  exact Option.isSome_iff_exists.1 hheld.symm

/-- A PIT miss, in the broker's terms. -/
theorem Sound.fresh (h : s.Sound) {name : CString} (hmiss : (s.pit.lookup name).1 = none) :
    s.view.Fresh name :=
  fun _ he ↦ s.pit.of_lookup_eq_none hmiss he (h.live _ he)

/-- A state that agrees on the slot, and whose PIT entries are live, is sound too. -/
theorem Sound.congr {s' : ForwardingBase} (h : s.Sound) (hw : s'.waiting = s.waiting)
    (hsched : s'.scheduled = s.scheduled) (hsd : s'.sendDelayedPacket = s.sendDelayedPacket)
    (hlive : ∀ e ∈ s'.pit.entries, e.erased = false) : s'.Sound where
  scheduled_iff := by rw [hw, hsched, h.scheduled_iff]
  owned_iff := by rw [hw, hsd, h.owned_iff]
  held_iff := by rw [hw, hsd, h.held_iff]
  live := hlive

/-! ### Sending -/

section Send

variable (s) {now : SimTime} {i : Interest} {face : ℕ} {macSrc macDest : MACAddress}

theorem forwardInterestToRemote_of_full (h : s.view.Full) :
    s.forwardInterestToRemote now i face macSrc macDest = (s, []) := by
  rw [forwardInterestToRemote, s.pit.create_of_full now i macSrc h]

theorem forwardInterestToLocal_of_full (h : s.view.Full) :
    s.forwardInterestToLocal now i face macSrc = (s, []) := by
  rw [forwardInterestToLocal, s.pit.create_of_full now i macSrc h]

theorem forwardInterestToRemote_of_room (h : ¬ s.view.Full) :
    s.forwardInterestToRemote now i face macSrc macDest =
      ({ s with pit := (s.pit.create now i macSrc).2 },
        [.pitCreate (PitEntry.make now i i.arrivalGate macSrc),
          .sendLower (.interest i) macDest (s.ndnToMacMapping (.interest i) macDest) face]) := by
  rw [forwardInterestToRemote, s.pit.create_of_room now i macSrc h]

theorem forwardInterestToLocal_of_room (h : ¬ s.view.Full) :
    s.forwardInterestToLocal now i face macSrc =
      ({ s with pit := (s.pit.create now i macSrc).2 },
        [.pitCreate (PitEntry.make now i i.arrivalGate macSrc),
          .sendUpper (.interest i) face]) := by
  rw [forwardInterestToLocal, s.pit.create_of_room now i macSrc h]

/-- Sending a Data through a face of the link answers what came in through it. -/
theorem forwardDataToRemote_eq_answer {s : ForwardingBase} {gate : Gate}
    (h : gate = .lowerLayerIn face) (d : Data) (mac : MACAddress) :
    s.forwardDataToRemote d face mac =
      [.answer gate mac (s.ndnToMacMapping (.data d) mac) d] := by
  rw [h]
  rfl

/-- Sending a Data to an application answers what the application sent. -/
theorem forwardDataToLocal_eq_answer {gate : Gate} (h : gate = .upperLayerIn face) (d : Data)
    (mac : MACAddress) (ctrl : Ieee802Ctrl) :
    forwardDataToLocal d face = [.answer gate mac ctrl d] := by
  rw [h]
  rfl

end Send

/-- A free slot takes the packet and starts the timer. -/
theorem delayPacket_of_not_waiting (h : s.Sound) (hw : s.waiting = false) (p : Packet)
    (sd : SendDelayed) (time : SimTime) :
    s.delayPacket p sd time =
      ({ s with
          sendDelayedPacket := { sd with delayedPacket := some p }
          scheduled := some time
          waiting := true },
        [.setDelayedPacket p, .scheduleAt time]) := by
  simp [delayPacket, hw, h.scheduled_of_not_waiting hw]

/-! ### The handlers -/

/-- The reaction `r` to an event is a move of the broker, and leaves the forwarder sound. -/
def Refines (s : ForwardingBase) (now : SimTime) (e : Event) (r : ForwardingBase × List Effect) :
    Prop :=
  r.1.Sound ∧ Broker.Move s.routesToLink s.view now e r.2 r.1.view

theorem Refines.intro {now : SimTime} {e : Event} {r : ForwardingBase × List Effect} {v : Broker}
    (hsound : r.1.Sound) (hmove : Broker.Move s.routesToLink s.view now e r.2 v)
    (hview : r.1.view = v) : s.Refines now e r :=
  ⟨hsound, hview ▸ hmove⟩

/-- Recording an Interest in the PIT keeps its entries live. -/
theorem Sound.create_live (h : s.Sound) {now : SimTime} {i : Interest} {src : MACAddress} :
    ∀ e ∈ (s.pit.create now i src).2.entries, e.erased = false := by
  intro e he
  unfold PitBase.create at he
  split at he
  · exact h.live e he
  · rcases List.mem_append.1 he with he | he
    · exact h.live e he
    · rw [List.mem_singleton.1 he]
      rfl

/-- Removing an entry keeps the others live. -/
theorem Sound.remove_live (h : s.Sound) {name : CString} :
    ∀ e ∈ (s.pit.remove name).2.entries, e.erased = false := by
  intro e he
  rw [PitBase.remove_entries] at he
  exact h.live e (List.mem_of_mem_eraseP he)

/-- A removed entry is not pending. -/
theorem view_remove {name : CString} :
    view { s with pit := (s.pit.remove name).2 } =
      { s.view with pending := s.view.pending.eraseP (PitEntry.isFor name) } := by
  simp only [view, PitBase.remove_maxSize, PitBase.remove_entries]

/-- The state `s₁` differs from `s` in what look-ups and arrival statistics change. -/
structure LookedUp (s s₁ : ForwardingBase) : Prop where
  sound : s₁.Sound
  view : s₁.view = s.view
  waiting : s₁.waiting = s.waiting

theorem LookedUp.intro (h : s.Sound) (a b c : ℕ) (cs : CsBase) {pit : PitBase} (fib : FibBase)
    {name : CString} (hpit : (s.pit.lookup name).2 = pit) :
    s.LookedUp { s with
      stat := { s.stat with numIntReceived := a, numDataReceived := b, numDataUnsolicited := c }
      cs, pit, fib } := by
  subst hpit
  exact ⟨h.congr rfl rfl rfl (by simpa using h.live), by simp [ForwardingBase.view], rfl⟩

/-- The Interests that reach a forward function: none is held, none of the name is pending. -/
structure Routable (s : ForwardingBase) (i : Interest) : Prop where
  kind : i.kind ≠ REGISTER_PREFIX_CODE
  free : s.view.held = none
  fresh : s.view.Fresh i.name

/-- An Interest is sent to a face of the link, from a state `s₁` that the look-ups left. The caller
counts it when it came from the link. -/
theorem forwardInterestToRemote_refines {s₁ : ForwardingBase} (hs₁ : s.LookedUp s₁)
    {now : SimTime} (delay : SimTime) {i : Interest} {face : ℕ}
    {src macSrc macDest : MACAddress} (hi : s.Routable i)
    (hmac : i.arrivalGate.isLower = true → macSrc = src)
    (hlink : s.routesToLink i = i.arrivalGate.isLower) {r : ForwardingBase × List Effect}
    (hr : s₁.forwardInterestToRemote now i.forwarded face macSrc macDest = r) :
    s.Refines now (.packet (.interest i) src delay)
      ({ r.1 with
          stat := { r.1.stat with
            numIntFwd := r.1.stat.numIntFwd + if i.arrivalGate.isLower then 1 else 0 } }, r.2) := by
  subst hr
  obtain ⟨h₁, hview, -⟩ := hs₁
  by_cases hfull : s.view.Full
  · rw [forwardInterestToRemote_of_full s₁ (hview ▸ hfull)]
    refine .intro (h₁.congr rfl rfl rfl h₁.live) (.refuse hi.kind hi.free hi.fresh hfull) ?_
    rw [hlink, ← hview]
    rfl
  · have hroom : ¬ s₁.view.Full := hview ▸ hfull
    rw [forwardInterestToRemote_of_room s₁ hroom, Interest.forwarded_arrivalGate]
    refine .intro (h₁.congr rfl rfl rfl h₁.create_live)
      (.accept hi.kind hi.free hi.fresh hfull hmac (.inl ⟨_, _, _, rfl⟩)) ?_
    rw [← hview]
    simp [view, s₁.pit.create_entries_of_room hroom, Effect.isLinkInterest]

/-- An Interest is sent to an application, from a state `s₁` that the look-ups left. -/
theorem forwardInterestToLocal_refines {s₁ : ForwardingBase} (hs₁ : s.LookedUp s₁)
    (now delay : SimTime) {i : Interest} (face : ℕ) {src : MACAddress} (macSrc : MACAddress)
    (hi : s.Routable i)
    (hmac : i.arrivalGate.isLower = true → macSrc = src) (hlink : s.routesToLink i = false) :
    s.Refines now (.packet (.interest i) src delay)
      (s₁.forwardInterestToLocal now i.forwarded face macSrc) := by
  obtain ⟨h₁, hview, -⟩ := hs₁
  by_cases hfull : s.view.Full
  · rw [forwardInterestToLocal_of_full s₁ (hview ▸ hfull)]
    refine .intro h₁ (.refuse hi.kind hi.free hi.fresh hfull) ?_
    rw [hlink, hview]
    rfl
  · have hroom : ¬ s₁.view.Full := hview ▸ hfull
    rw [forwardInterestToLocal_of_room s₁ hroom, Interest.forwarded_arrivalGate]
    refine .intro (h₁.congr rfl rfl rfl h₁.create_live)
      (.accept hi.kind hi.free hi.fresh hfull hmac (.inr ⟨_, rfl⟩)) ?_
    rw [← hview]
    simp [view, s₁.pit.create_entries_of_room hroom, Effect.isLinkInterest]

/-- A slot that was filled with a packet it can decode is sound. -/
theorem Sound.delay {s₁ : ForwardingBase} (h₁ : s₁.Sound) {p : Packet} {sd : SendDelayed}
    {time : SimTime} {held : Held}
    (hheld : { sd with delayedPacket := some p }.held = some held) :
    Sound { s₁ with
      sendDelayedPacket := { sd with delayedPacket := some p }
      scheduled := some time
      waiting := true } where
  scheduled_iff := rfl
  owned_iff := rfl
  held_iff := by rw [hheld]; rfl
  live := h₁.live

/-- A packet is put into the free slot, from a state that the look-ups left. -/
theorem delayPacket_refines {s₁ : ForwardingBase} (hs₁ : s.LookedUp s₁) (hw : s.waiting = false)
    {now time : SimTime} {e : Event} {p : Packet} {sd : SendDelayed} {held : Held}
    (hheld : { sd with delayedPacket := some p }.held = some held)
    (hmove : Broker.Move s.routesToLink s.view now e [.setDelayedPacket p, .scheduleAt time]
      { s.view with held := some held }) :
    s.Refines now e (s₁.delayPacket p sd time) := by
  rw [delayPacket_of_not_waiting hs₁.sound (hs₁.waiting.trans hw)]
  refine .intro (hs₁.sound.delay hheld) hmove ?_
  rw [← hs₁.view, ← hheld]
  rfl

/-- A name that is pending already is a duplicate, on either side. -/
theorem duplicate_refines (h : s.Sound) (hw : s.waiting = false) {now delay : SimTime}
    {i : Interest} {src : MACAddress} (hkind : i.kind ≠ REGISTER_PREFIX_CODE) {pe : PitEntry}
    {pit : PitBase} (hpit : s.pit.lookup i.name = (some pe, pit))
    (hlink : s.routesToLink i = false) (numIntReceived : ℕ) (cs : CsBase) :
    s.Refines now (.packet (.interest i) src delay)
      ({ s with
          cs
          pit
          stat := { s.stat with
            numIntReceived
            numIntDuplicated := s.stat.numIntDuplicated + 1 } }, []) := by
  obtain ⟨hmem, -, hname⟩ := s.pit.of_lookup_eq_some (e := pe) (by rw [hpit])
  obtain ⟨h₁, hview, -⟩ := LookedUp.intro h numIntReceived s.stat.numDataReceived
    s.stat.numDataUnsolicited cs s.fib (by rw [hpit])
  refine .intro (h₁.congr rfl rfl rfl h₁.live)
    (.duplicate hkind (h.held_of_not_waiting hw) ⟨pe, hmem, hname⟩ hlink) ?_
  rw [← hview]
  rfl

theorem processLLInterest_refines (h : s.Sound) (hw : s.waiting = false) {now delay : SimTime}
    {i : Interest} {src : MACAddress} (hkind : i.kind ≠ REGISTER_PREFIX_CODE)
    (hlower : i.arrivalGate.isLower = true) :
    s.Refines now (.packet (.interest i) src delay) (s.processLLInterest now delay i src) := by
  have hfree := h.held_of_not_waiting hw
  have hforwarded : i.forwarded = i.hop := by rw [Interest.forwarded, if_pos hlower]
  unfold processLLInterest
  -- the tables are asked in this order: content store, PIT, FIB
  rcases hcs : s.cs.lookup i with ⟨_ | d, cs⟩
  · rcases hpit : s.pit.lookup i.name with ⟨_ | pe, pit⟩
    · have hi : s.Routable i := ⟨hkind, hfree, h.fresh (by rw [hpit])⟩
      rcases hfib : s.fib.lookup i.name with ⟨fe, fib⟩
      -- `s₁` is the state the three look-ups left, from which the Interest is sent
      obtain ⟨s₁, hs₁, hlook⟩ : ∃ s₁, s₁ = { s with
          stat := { s.stat with numIntReceived := s.stat.numIntReceived + 1 }, cs, pit, fib } ∧
          s.LookedUp s₁ := ⟨_, rfl, .intro h _ _ _ _ _ (by rw [hpit])⟩
      simp only [hcs, hpit, hfib, ← hs₁]
      cases fe with
      | none =>
        have hlink : s.routesToLink i = false := by simp [routesToLink, hfib]
        dsimp only
        split
        · rename_i hflood
          refine delayPacket_refines hlook hw ?_
            (.holdRequest hkind hfree hflood.2 hlower hi.fresh hlink)
          simp [SendDelayed.held, MACAddress.tryParse_str, MACAddress.tryParse_broadcastText,
            Interest.hop]
        · exact .intro hlook.sound (.quiet (.unrouted hkind hfree hlower hi.fresh hlink)) hlook.view
      | some fe =>
        dsimp only
        split
        · rename_i face hface
          split
          · rename_i hforwarding
            have hlink : s.routesToLink i = i.arrivalGate.isLower := by
              simp [routesToLink, hcs, hpit, hfib, hface, hforwarding, Gate.isLower]
            have hr := forwardInterestToRemote_refines hlook delay hi (fun _ ↦ rfl) hlink
              (r := s₁.forwardInterestToRemote now i.forwarded face src fe.macDest) rfl
            rw [hlower, if_pos rfl, hforwarded] at hr
            exact hr
          · rename_i hforwarding
            have hlink : s.routesToLink i = false := by simp [routesToLink, hforwarding]
            exact .intro hlook.sound (.quiet (.unrouted hkind hfree hlower hi.fresh hlink))
              hlook.view
        · rename_i face hface
          have hlink : s.routesToLink i = false := by
            simp [routesToLink, hfib, hface, Gate.isLower]
          have hr := forwardInterestToLocal_refines hlook now delay face src hi (fun _ ↦ rfl) hlink
          rw [hforwarded] at hr
          exact hr
    · have hlink : s.routesToLink i = false := by simp [routesToLink, hpit]
      simp only [hcs, hpit]
      exact duplicate_refines h hw hkind hpit hlink _ cs
  · have hlink : s.routesToLink i = false := by simp [routesToLink, hcs]
    simp only [hcs]
    refine .intro (h.congr rfl rfl rfl h.live) ?_ rfl
    rw [forwardDataToRemote_eq_answer (Gate.eq_of_isLower hlower)]
    exact .cached hkind hfree (CsBase.name_of_lookup_eq_some (by rw [hcs])) hlink

/-- A Data from the link settles the request `pe`. What the three branches before the removal do is
the pair `r`. -/
theorem settle_refines {now delay : SimTime} {d : Data} {src : MACAddress}
    {r : ForwardingBase × List Effect} {cs : CsBase} (hr : r.1.Sound)
    (hmove : Broker.Move s.routesToLink s.view now (.packet (.data d) src delay) r.2
      { r.1.view with pending := r.1.view.pending.eraseP (PitEntry.isFor d.name) }) :
    s.Refines now (.packet (.data d) src delay)
      ({ r.1 with pit := (r.1.pit.remove d.name).2, cs }, r.2) :=
  .intro (hr.congr rfl rfl rfl hr.remove_live) hmove view_remove

theorem processLLData_refines (h : s.Sound) (hw : s.waiting = false) {now delay : SimTime}
    {d : Data} {src : MACAddress} (hkind : d.kind ≠ REGISTER_PREFIX_CODE)
    (hlower : d.arrivalGate.isLower = true) :
    s.Refines now (.packet (.data d) src delay) (s.processLLData now delay d src) := by
  have hfree := h.held_of_not_waiting hw
  unfold processLLData
  rcases hpit : s.pit.lookup d.name with ⟨_ | pe, pit⟩
  · obtain ⟨h₁, hview, -⟩ := LookedUp.intro h s.stat.numIntReceived s.stat.numDataReceived
      (s.stat.numDataUnsolicited + 1) (if s.cacheUnsolicited then (s.cs.add now d).2 else s.cs)
      s.fib (by rw [hpit])
    exact .intro h₁ (.quiet (.unsolicited hkind hfree (h.fresh (by rw [hpit])))) hview
  · have hfind : s.view.pending.find? (PitEntry.isFor d.name) = some pe := by
      rw [view, ← s.pit.lookup_fst, hpit]
    obtain ⟨s₁, hs₁, hlook⟩ : ∃ s₁, s₁ = { s with
        pit
        stat := { s.stat with numDataReceived := s.stat.numDataReceived + 1 }
        fib := (s.fib.create now d.name d.prefixLength d.arrivalGate src).2 } ∧
        s.LookedUp s₁ := ⟨_, rfl, .intro h _ _ _ _ _ (by rw [hpit])⟩
    cases hface : pe.face with
    | upperLayerIn face =>
      have hlocal : pe.face.isLower = false := by rw [hface]; rfl
      simp only [hface, ← hs₁]
      refine settle_refines (r := (s₁, forwardDataToLocal d.hop face)) hlook.sound ?_
      rw [hlook.view, forwardDataToLocal_eq_answer hface d.hop pe.macSrc ⟨src, src⟩]
      exact .reply hkind hfree hfind (.inr rfl) fun _ ↦ hlocal
    | lowerLayerIn face =>
      by_cases hforwarding : s.forwarding = true
      · simp only [hface, ← hs₁, if_pos hforwarding]
        -- the address of the entry goes into the message as text, which can be read back
        have hheld : SendDelayed.held { s.sendDelayedPacket with
            delayedPacket := some (.data d.hop)
            type := DATA
            face
            macDest := pe.macSrc.str } = some (.reply d.hop face pe.macSrc) := by
          simp [SendDelayed.held, MACAddress.tryParse_str, INTEREST, DATA]
        have hslot := delayPacket_of_not_waiting hlook.sound (hlook.waiting.trans hw) (.data d.hop)
          { s.sendDelayedPacket with type := DATA, face, macDest := pe.macSrc.str } (now + delay)
        refine settle_refines (r := s₁.delayPacket (.data d.hop) _ (now + delay)) ?_ ?_
        · rw [hslot]
          exact hlook.sound.delay hheld
        · rw [hslot]
          have hmove : Broker.Move s.routesToLink s.view now (.packet (.data d) src delay) _ _ :=
            .holdReply hkind hfree hforwarding hlower hfind hface
          rw [← hheld, ← hlook.view] at hmove
          rw [← hlook.view]
          exact hmove
      · simp only [hface, ← hs₁, if_neg hforwarding]
        have hforwarding : s.view.forwarding = false := eq_false_of_ne_true hforwarding
        refine settle_refines (r := (s₁, [])) hlook.sound ?_
        rw [hlook.view]
        exact .discard hkind hfree hforwarding hlower hfind (by rw [hface]; rfl)

theorem processHLInterest_refines (h : s.Sound) (hw : s.waiting = false) {now delay : SimTime}
    {i : Interest} {src : MACAddress} (hkind : i.kind ≠ REGISTER_PREFIX_CODE)
    (hupper : i.arrivalGate.isLower = false) :
    s.Refines now (.packet (.interest i) src delay) (s.processHLInterest now i) := by
  have hfree := h.held_of_not_waiting hw
  have hforwarded : i.forwarded = i := by rw [Interest.forwarded, if_neg (by simp [hupper])]
  have hlink : s.routesToLink i = false := by simp [routesToLink, hupper]
  have hmac : ∀ mac, i.arrivalGate.isLower = true → mac = src := by simp [hupper]
  unfold processHLInterest
  rcases hcs : s.cs.lookup i with ⟨_ | d, cs⟩
  · rcases hpit : s.pit.lookup i.name with ⟨_ | pe, pit⟩
    · have hi : s.Routable i := ⟨hkind, hfree, h.fresh (by rw [hpit])⟩
      rcases hfib : s.fib.lookup i.name with ⟨fe, fib⟩
      obtain ⟨s₁, hs₁, hlook⟩ : ∃ s₁, s₁ = { s with cs, pit, fib } ∧ s.LookedUp s₁ :=
        ⟨_, rfl, .intro h _ _ _ _ _ (by rw [hpit])⟩
      simp only [hpit, hfib, ← hs₁]
      have hremote : ∀ face macDest, s.Refines now (.packet (.interest i) src delay)
          (s₁.forwardInterestToRemote now i face s.myMacAddress macDest) := by
        intro face macDest
        have hr := forwardInterestToRemote_refines hlook delay hi (hmac _)
          (hlink.trans hupper.symm)
          (r := s₁.forwardInterestToRemote now i.forwarded face s.myMacAddress macDest) rfl
        rw [hupper, hforwarded] at hr
        exact hr
      cases fe with
      | none => exact hremote _ _
      | some fe =>
        dsimp only
        split
        · exact hremote _ _
        · rename_i face hface
          have hr := forwardInterestToLocal_refines hlook now delay face s.myMacAddress hi (hmac _)
            hlink
          rw [hforwarded] at hr
          exact hr
    · simp only [hpit]
      exact duplicate_refines h hw hkind hpit hlink _ cs
  · dsimp only
    refine .intro (h.congr rfl rfl rfl h.live) ?_ rfl
    rw [forwardDataToLocal_eq_answer (Gate.eq_of_not_isLower hupper) d src ⟨src, src⟩]
    exact .cached hkind hfree (CsBase.name_of_lookup_eq_some (by rw [hcs])) hlink

theorem processHLData_refines (h : s.Sound) (hw : s.waiting = false) {now delay : SimTime}
    {d : Data} {src : MACAddress} (hkind : d.kind ≠ REGISTER_PREFIX_CODE)
    (hupper : d.arrivalGate.isLower = false) :
    s.Refines now (.packet (.data d) src delay) (s.processHLData now d) := by
  have hfree := h.held_of_not_waiting hw
  have hlocal : ∀ gate : Gate, d.arrivalGate.isLower = true → gate.isLower = false := by
    simp [hupper]
  unfold processHLData
  rcases hpit : s.pit.lookup d.name with ⟨_ | pe, pit⟩
  · obtain ⟨h₁, hview, -⟩ := LookedUp.intro h s.stat.numIntReceived s.stat.numDataReceived
      s.stat.numDataUnsolicited (if s.cacheUnsolicited then (s.cs.add now d).2 else s.cs) s.fib
      (by rw [hpit])
    exact .intro h₁ (.quiet (.unsolicited hkind hfree (h.fresh (by rw [hpit])))) hview
  · have hfind : s.view.pending.find? (PitEntry.isFor d.name) = some pe := by
      rw [view, ← s.pit.lookup_fst, hpit]
    have hlook : s.LookedUp { s with pit } := .intro h _ _ _ _ _ (by rw [hpit])
    have hmove : ∀ ctrl, Broker.Move s.routesToLink s.view now (.packet (.data d) src delay)
        [.answer pe.face pe.macSrc ctrl d]
        { s.view with pending := s.view.pending.eraseP (PitEntry.isFor d.name) } :=
      fun ctrl ↦ .reply hkind hfree hfind (.inl rfl) (hlocal _)
    cases hface : pe.face with
    | upperLayerIn face =>
      simp only [hface]
      refine settle_refines (r := ({ s with pit }, forwardDataToLocal d face)) hlook.sound ?_
      rw [hlook.view, forwardDataToLocal_eq_answer hface d pe.macSrc ⟨src, src⟩]
      exact hmove _
    | lowerLayerIn face =>
      simp only [hface]
      refine settle_refines
        (r := ({ s with pit }, forwardDataToRemote { s with pit } d face pe.macSrc)) hlook.sound ?_
      rw [hlook.view, forwardDataToRemote_eq_answer hface d pe.macSrc]
      exact hmove _

/-! ### The slot -/

/-- An empty slot is sound, whatever else was done. -/
theorem sound_of_empty (hp : s.sendDelayedPacket.delayedPacket = none) (hsched : s.scheduled = none)
    (hw : s.waiting = false) (hlive : ∀ e ∈ s.pit.entries, e.erased = false) : s.Sound where
  scheduled_iff := by rw [hw, hsched]; rfl
  owned_iff := by rw [hw, hp]; rfl
  held_iff := by rw [hw, SendDelayed.held_of_delayedPacket_eq_none hp]; rfl
  live := hlive

theorem handleWhileWaiting_refines (h : s.Sound) (hw : s.waiting = true) {now delay : SimTime}
    {p : Packet} {src : MACAddress} (hkind : p.kind ≠ REGISTER_PREFIX_CODE) :
    s.Refines now (.packet p src delay) (s.handleWhileWaiting p) := by
  obtain ⟨held, hheld⟩ := h.exists_held hw
  have hpacket := SendDelayed.delayedPacket_of_held hheld
  unfold handleWhileWaiting
  rw [hpacket]
  by_cases hname : p.name = held.packet.name
  · simp only [if_pos hname]
    refine .intro (sound_of_empty rfl rfl rfl h.live) (.cancel hkind hheld hname) ?_
    by_cases htype : p.getType = INTEREST <;>
      simp [view, htype, SendDelayed.held]
  · simp only [if_neg hname]
    exact .intro h (.quiet (.busy hkind hheld hname)) rfl

theorem handleDelayed_refines (h : s.Sound) (hw : s.waiting = true) {now : SimTime} :
    s.Refines now .sendDelayedPacket (s.handleDelayed now) := by
  obtain ⟨held, hheld⟩ := h.exists_held hw
  unfold handleDelayed
  cases held with
  | request i face macSrc macDest =>
    obtain ⟨hp, htype, hface, hsrc, hdest⟩ := SendDelayed.held_eq_request hheld
    -- the timer does not look the name up again, but `create` may still refuse
    by_cases hfull : s.view.Full
    · have hfull' : (view { s with scheduled := none }).Full := hfull
      simp only [htype, hp, hsrc, hdest, if_true, deleteDelayed,
        forwardInterestToRemote_of_full _ hfull']
      refine .intro (sound_of_empty rfl rfl rfl h.live) (.refuseRequest hheld hfull) ?_
      simp [view, SendDelayed.held]
    · have hroom : ¬ (view { s with scheduled := none }).Full := hfull
      simp only [htype, hp, hsrc, hdest, if_true, deleteDelayed,
        forwardInterestToRemote_of_room _ hroom, hface]
      refine .intro (sound_of_empty rfl rfl rfl h.create_live) (.sendRequest hheld hfull) ?_
      simp [view, SendDelayed.held, s.pit.create_entries_of_room hfull]
  | reply d face macDest =>
    obtain ⟨hp, htype, hface, hdest⟩ := SendDelayed.held_eq_reply hheld
    simp only [hp, hdest, if_neg htype, deleteDelayed, hface]
    refine .intro (sound_of_empty rfl rfl rfl h.live) (.sendReply hheld) ?_
    simp [view, SendDelayed.held]

/-! ### One event -/

theorem dispatchPacket_refines (h : s.Sound) (hw : s.waiting = false) {now delay : SimTime}
    {p : Packet} {src : MACAddress} (hkind : p.kind ≠ REGISTER_PREFIX_CODE) :
    s.Refines now (.packet p src delay) (s.dispatchPacket now delay p src) := by
  unfold dispatchPacket
  split
  · rename_i i hgate
    exact processLLInterest_refines h hw hkind (by simp_all [Gate.isLower])
  · rename_i d hgate
    exact processLLData_refines h hw hkind (by simp_all [Gate.isLower])
  · rename_i i hgate
    exact processHLInterest_refines h hw hkind (by simp_all [Gate.isLower])
  · rename_i d hgate
    exact processHLData_refines h hw hkind (by simp_all [Gate.isLower])

theorem handlePacket_refines (h : s.Sound) {now delay : SimTime} {p : Packet} {src : MACAddress} :
    s.Refines now (.packet p src delay) (s.handlePacket now delay p src) := by
  unfold handlePacket
  split
  · rename_i hkind
    exact .intro (h.congr rfl rfl rfl h.live) (.quiet (.registration hkind)) rfl
  · rename_i hkind
    split
    · rename_i hw
      exact handleWhileWaiting_refines h hw hkind
    · rename_i hw
      exact dispatchPacket_refines h (eq_false_of_ne_true hw) hkind

/-- The clean-up of the PIT keeps what is not timed out. -/
theorem checkTimeout_refines (h : s.Sound) {now : SimTime} :
    s.Refines now .checkTimeout (s.handleMessage now .checkTimeout) := by
  have hentries : (s.pit.handleSelfMessage now).2.entries =
      s.pit.entries.filter fun e ↦ !e.isTimedout now := by
    rw [PitBase.handleSelfMessage_entries]
    exact List.filter_congr fun e he ↦ by simp [h.live e he]
  have hfx : (s.handleMessage now .checkTimeout).2 =
      (s.view.pending.filter (PitEntry.isTimedout now)).flatMap fun e ↦
        receiveSignal e.notification := by
    show ((s.pit.handleSelfMessage now).1).flatMap receiveSignal = _
    rw [PitBase.handleSelfMessage_notifications, List.flatMap_map]
    rfl
  refine .intro (h.congr rfl rfl rfl ?_) (by rw [hfx]; exact .expire) ?_
  · intro e he
    refine h.live e (List.mem_of_mem_filter (p := fun e ↦ !e.isTimedout now) ?_)
    rw [← hentries]
    exact he
  · simp only [handleMessage, view, hentries, PitBase.handleSelfMessage_maxSize]

theorem handleMessage_refines (h : s.Sound) (now : SimTime) {e : Event} (he : s.Enabled e) :
    s.Refines now e (s.handleMessage now e) := by
  cases e with
  | packet p src delay => exact handlePacket_refines h
  | other => exact .intro h (.quiet .other) rfl
  | sendDelayedPacket =>
    have hw : s.waiting = true := h.scheduled_iff.trans he
    exact handleDelayed_refines h hw
  | checkTimeout => exact checkTimeout_refines h
  | checkExpired => exact .intro (h.congr rfl rfl rfl h.live) (.quiet .checkExpired) rfl
  | checkDataStale => exact .intro (h.congr rfl rfl rfl h.live) (.quiet .checkDataStale) rfl

/-! ### Runs -/

variable {par : Params}

/-- The pieces of every reachable state agree with each other. -/
theorem Reachable.sound (h : (events par).Reachable s) : s.Sound := by
  obtain ⟨tr, hrun⟩ := h
  refine hrun.invariant ?_ ?_
  · rintro s rfl
    exact sound_initial par
  · rintro s ⟨now, e⟩ fx s' hs ⟨he, heq⟩
    have hr := handleMessage_refines hs now he
    rw [← heq] at hr
    exact hr.1

/-- **The forwarder refines the broker.** Every step from a reachable state is a move. -/
theorem Reachable.move (h : (events par).Reachable s) {now : SimTime} {e : Event}
    {fx : List Effect} {s' : ForwardingBase} (hstep : (events par).Step s (now, e) fx s') :
    Broker.Move s.routesToLink s.view now e fx s'.view := by
  obtain ⟨he, heq⟩ := hstep
  have hr := handleMessage_refines (Reachable.sound h) now he
  rw [← heq] at hr
  exact hr.2

end ForwardingBase

end Inet.Ndn
