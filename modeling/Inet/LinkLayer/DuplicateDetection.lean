import Inet.Foundations.Fallible
import Inet.Foundations.TransitionSystem
import Inet.LinkLayer.DuplicateDetectors

/-!
# A sender and its receivers

A sender numbers its frames with a `NonQoSDuplicateDetector` and transmits each of them one or more
times, with the retry flag set on all but the first copy. Any copy may be lost on the way to any
receiver.

A number is the total advance of the counter modulo 4096, and each frame advances the counter by one
or by two (`advance`). So two frames have different numbers as long as fewer than 2048 frames lie
between them, and a receiver that gets a frame after fewer than 2047 lost ones tells it from the one
before (`isDuplicate_exact`).
-/

namespace Inet

/-- A sender, what it has on the air, and its receivers. It is noted how many frames there have
been, and which of them a receiver has got last. -/
structure NumberedTransmission (ρ : Type) where
  sender : NonQoSDuplicateDetector := {}
  receivers : ρ → NonQoSDuplicateDetector
  frame : Option Ieee80211Header := none
  copies : ℕ := 0
  heard : ρ → Bool := fun _ ↦ false
  sent : ℕ := 0
  lastGot : ρ → Option ℕ := fun _ ↦ none

namespace NumberedTransmission

/-- What happens: the sender goes on to its next frame or transmits a copy of the frame it is at,
and a receiver gets this copy or a frame of another transmitter. -/
inductive Event (ρ : Type)
  | send (frame : Ieee80211Header)
  | transmit
  | receive (r : ρ)
  | overhear (r : ρ) (frame : Ieee80211Header)
  deriving DecidableEq

variable {ρ : Type} [DecidableEq ρ]

/-- The copy that is on the air. -/
def onAir (s : NumberedTransmission ρ) : Option Ieee80211Header :=
  s.frame.map fun frame ↦ { frame with retry := decide (1 < s.copies) }

variable (address : MACAddress)

/-- The frames of the sender have its address, and are not QoS data. Each frame is transmitted, and
each copy is received at most once by a receiver. -/
def Allowed (s : NumberedTransmission ρ) : Event ρ → Prop
  | .send frame => frame.transmitterAddress = address ∧ frame.type ≠ .dataWithQos ∧
    (s.frame = none ∨ 0 < s.copies)
  | .transmit => s.frame ≠ none
  | .receive r => s.frame ≠ none ∧ 0 < s.copies ∧ s.heard r = false
  | .overhear _ frame => frame.transmitterAddress ≠ address ∧ frame.type ≠ .dataWithQos

/-- The sender goes on to a frame. -/
def goOn (sender : NonQoSDuplicateDetector) (frame : Ieee80211Header) (s : NumberedTransmission ρ) :
    NumberedTransmission ρ :=
  { s with
    sender := sender
    frame := some frame
    copies := 0
    sent := s.sent + 1 }

/-- A copy is transmitted. -/
def transmitCopy (s : NumberedTransmission ρ) : NumberedTransmission ρ :=
  { s with copies := s.copies + 1, heard := fun _ ↦ false }

def setReceiver (r : ρ) (receiver : NonQoSDuplicateDetector) (s : NumberedTransmission ρ) :
    NumberedTransmission ρ :=
  { s with receivers := Function.update s.receivers r receiver }

/-- A receiver has got the copy that is on the air. -/
def gotCopy (r : ρ) (s : NumberedTransmission ρ) : NumberedTransmission ρ :=
  { s with
    heard := Function.update s.heard r true
    lastGot := Function.update s.lastGot r (some s.sent) }

@[simp] theorem receivers_setReceiver (r : ρ) (receiver : NonQoSDuplicateDetector)
    (s : NumberedTransmission ρ) :
    (s.setReceiver r receiver).receivers = Function.update s.receivers r receiver :=
  rfl

@[simp] theorem lastGot_gotCopy (r : ρ) (s : NumberedTransmission ρ) :
    (s.gotCopy r).lastGot = Function.update s.lastGot r (some s.sent) :=
  rfl

@[simp] theorem heard_gotCopy (r : ρ) (s : NumberedTransmission ρ) :
    (s.gotCopy r).heard = Function.update s.heard r true :=
  rfl

@[simp] theorem receivers_gotCopy (r : ρ) (s : NumberedTransmission ρ) :
    (s.gotCopy r).receivers = s.receivers :=
  rfl

/-- What a receiver does with a frame. -/
def deliver (s : NumberedTransmission ρ) (r : ρ) (frame : Ieee80211Header) :
    Except DuplicateDetectorError (Option Bool × NumberedTransmission ρ) := do
  let (duplicate, receiver) ← (s.receivers r).isDuplicate frame
  return (some duplicate, s.setReceiver r receiver)

/-- What follows an event, with what `isDuplicate` has returned. -/
def react (s : NumberedTransmission ρ) :
    Event ρ → Except DuplicateDetectorError (Option Bool × NumberedTransmission ρ)
  | .send frame => do
    let (frame, sender) ← s.sender.assignSequenceNumber frame
    return (none, s.goOn sender frame)
  | .transmit => .ok (none, s.transmitCopy)
  | .receive r =>
    match s.onAir with
    | none => .ok (none, s)
    | some copy => do
      let (duplicate, s) ← s.deliver r copy
      return (duplicate, s.gotCopy r)
  | .overhear r frame => s.deliver r frame

/-- A sender and receivers that have not met it, whatever else they have seen. -/
def system : TransitionSystem (NumberedTransmission ρ) (Event ρ) (Option Bool) where
  Init s := s.sender.lastSeqNum < 4096 ∧ s.frame = none ∧ s.copies = 0 ∧ s.sent = 0 ∧
    (∀ r, s.lastGot r = none) ∧ ∀ r, (s.receivers r).lastSeenSeqNumCache.find address = none
  Step s i o s' := s.Allowed address i ∧ s.react i = .ok (o, s')

variable {address} {s s' : NumberedTransmission ρ} {r : ρ} {frame : Ieee80211Header}

theorem step_of (i : Event ρ) {o : Option Bool} (hallowed : s.Allowed address i)
    (hreact : s.react i = .ok (o, s')) : (system address).Step s i o s' :=
  ⟨hallowed, hreact⟩

/-- A delivery fails for no frame without QoS. -/
theorem deliver_spec (htype : frame.type ≠ .dataWithQos) (s : NumberedTransmission ρ) (r : ρ) :
    ∃ receiver, s.deliver r frame =
        .ok (some (decide ((s.receivers r).lastSeenSeqNumCache.find frame.transmitterAddress =
          some frame.seqVal ∧ frame.retry = true)),
          s.setReceiver r receiver) ∧
      ∀ a, receiver.lastSeenSeqNumCache.find a = if a = frame.transmitterAddress then some frame.seqVal
        else (s.receivers r).lastSeenSeqNumCache.find a := by
  obtain ⟨seen, hok, hfind⟩ := (s.receivers r).isDuplicate_spec htype
  refine ⟨{ s.receivers r with toLegacyDuplicateDetector := seen }, ?_, hfind⟩
  rw [deliver, NonQoSDuplicateDetector.isDuplicate, hok]
  rfl

/-- The copy on the air is delivered. -/
theorem react_receive {copy : Ieee80211Header} (hair : s.onAir = some copy)
    (htype : copy.type ≠ .dataWithQos) (r : ρ) :
    ∃ receiver, s.react (.receive r) =
        .ok (some (decide ((s.receivers r).lastSeenSeqNumCache.find copy.transmitterAddress =
          some copy.seqVal ∧ copy.retry = true)), (s.setReceiver r receiver).gotCopy r) ∧
      ∀ a, receiver.lastSeenSeqNumCache.find a = if a = copy.transmitterAddress then some copy.seqVal
        else (s.receivers r).lastSeenSeqNumCache.find a := by
  obtain ⟨receiver, hok, hfind⟩ := deliver_spec htype s r
  refine ⟨receiver, ?_, hfind⟩
  rw [react, hair]
  show (s.deliver r copy >>= _) = _
  rw [hok]
  rfl

/-! ### What a receiver knows -/

/-- What is in the cache of a receiver, with the frames since and the total advance of the counter.
-/
structure Knows (s : NumberedTransmission ρ) (total : ℕ) (r : ρ) (m : ℕ) (seqVal : SeqVal) (before : ℕ) :
    Prop where
  seqNum_eq : seqVal.seqNum = before % 4096
  le_sent : m ≤ s.sent
  le_total : before + (s.sent - m) ≤ total
  total_le : total ≤ before + 2 * (s.sent - m)
  same : m = s.sent → 0 < s.copies ∧ (s.heard r = false → 1 < s.copies) ∧
    ∀ frame, s.frame = some frame → seqVal.fragNum = frame.fragmentNumber

/-- The counter has been advanced by `total`. -/
structure Advanced (address : MACAddress) (s : NumberedTransmission ρ) (total : ℕ) : Prop where
  lastSeqNum_eq : s.sender.lastSeqNum = total % 4096
  frame : ∀ frame, s.frame = some frame → frame.transmitterAddress = address ∧
    frame.type ≠ .dataWithQos ∧ frame.sequenceNumber = total % 4096
  unknown : ∀ r, s.lastGot r = none → (s.receivers r).lastSeenSeqNumCache.find address = none
  known : ∀ r m, s.lastGot r = some m → ∃ seqVal before,
    (s.receivers r).lastSeenSeqNumCache.find address = some seqVal ∧ s.Knows total r m seqVal before

variable {total : ℕ}

theorem Advanced.send (h : Advanced address s total) (hallowed : s.Allowed address (.send frame)) :
    ∃ advance s', s.react (.send frame) = .ok (none, s') ∧ Advanced address s' (total + advance) ∧
      s'.sent = s.sent + 1 ∧ s'.lastGot = s.lastGot := by
  obtain ⟨haddress, htype, -⟩ := hallowed
  obtain ⟨advance, hone, htwo, hok⟩ :=
    NonQoSDuplicateDetector.assignSequenceNumber_spec htype h.lastSeqNum_eq
  refine ⟨advance, s.goOn _ _, by rw [react, hok]; rfl, ⟨rfl, fun frame' hframe ↦ ?_, h.unknown,
    fun r m hm ↦ ?_⟩, rfl, rfl⟩
  · obtain rfl := Option.some.inj hframe
    exact ⟨haddress, htype, rfl⟩
  · obtain ⟨seqVal, before, hfind, hknows⟩ := h.known r m hm
    have hle := hknows.le_sent
    have hbefore := hknows.le_total
    have hafter := hknows.total_le
    refine ⟨seqVal, before, hfind, hknows.seqNum_eq, hle.trans (Nat.le_succ _), ?_, ?_, fun heq ↦ ?_⟩
    · show before + (s.sent + 1 - m) ≤ total + advance
      omega
    · show total + advance ≤ before + 2 * (s.sent + 1 - m)
      omega
    · exact absurd heq (by show m ≠ s.sent + 1; omega)

omit [DecidableEq ρ] in
theorem Advanced.transmit (h : Advanced address s total) :
    Advanced address s.transmitCopy total :=
  ⟨h.lastSeqNum_eq, h.frame, h.unknown, fun r m hm ↦ by
    obtain ⟨seqVal, before, hfind, hknows⟩ := h.known r m hm
    refine ⟨seqVal, before, hfind, hknows.seqNum_eq, hknows.le_sent, hknows.le_total, hknows.total_le,
      fun heq ↦ ?_⟩
    obtain ⟨hpos, -, hfrag⟩ := hknows.same heq
    exact ⟨Nat.succ_pos _, fun _ ↦ Nat.succ_lt_succ hpos, hfrag⟩⟩

theorem Advanced.overhear (h : Advanced address s total)
    (hallowed : s.Allowed address (.overhear r frame)) :
    ∃ duplicate s', s.react (.overhear r frame) = .ok (duplicate, s') ∧ Advanced address s' total ∧
      s'.sent = s.sent ∧ s'.lastGot = s.lastGot := by
  obtain ⟨haddress, htype⟩ := hallowed
  obtain ⟨receiver, hok, hfind⟩ := deliver_spec htype s r
  -- the entry of the sender stays as it is
  have hsame (r' : ρ) : (Function.update s.receivers r receiver r').lastSeenSeqNumCache.find address =
      (s.receivers r').lastSeenSeqNumCache.find address := by
    rcases eq_or_ne r' r with rfl | hr
    · rw [Function.update_self, hfind, if_neg haddress.symm]
    · rw [Function.update_of_ne hr]
  refine ⟨_, _, hok, ⟨h.lastSeqNum_eq, h.frame, fun r' hr' ↦ (hsame r').trans (h.unknown r' hr'),
    fun r' m hm ↦ ?_⟩, rfl, rfl⟩
  obtain ⟨seqVal, before, hcache, hknows⟩ := h.known r' m hm
  exact ⟨seqVal, before, (hsame r').trans hcache, hknows.seqNum_eq, hknows.le_sent, hknows.le_total,
    hknows.total_le, hknows.same⟩

/-- A receiver tells by the number whether it has got a copy of the frame already. -/
theorem Advanced.receive (h : Advanced address s total) (hallowed : s.Allowed address (.receive r)) :
    ∃ duplicate s', s.react (.receive r) = .ok (some duplicate, s') ∧ Advanced address s' total ∧
      s'.sent = s.sent ∧ s'.lastGot = Function.update s.lastGot r (some s.sent) ∧
      ((∀ m, s.lastGot r = some m → s.sent ≤ m + 2047) →
        duplicate = decide (s.lastGot r = some s.sent)) := by
  obtain ⟨hframe, hcopies, hheard⟩ := hallowed
  obtain ⟨frame, hframe⟩ := Option.ne_none_iff_exists'.1 hframe
  obtain ⟨haddress, htype, hnumber⟩ := h.frame frame hframe
  obtain ⟨receiver, hok, hfind⟩ := react_receive (congrArg _ hframe) htype r
  refine ⟨_, (s.setReceiver r receiver).gotCopy r, hok, ⟨h.lastSeqNum_eq, h.frame, fun r' hr' ↦ ?_, fun r' m hm ↦ ?_⟩, rfl, rfl, fun hnear ↦ ?_⟩
  · rcases eq_or_ne r' r with rfl | hr
    · rw [lastGot_gotCopy, Function.update_self] at hr'
      cases hr'
    · rw [lastGot_gotCopy, Function.update_of_ne hr] at hr'
      rw [receivers_gotCopy, receivers_setReceiver, Function.update_of_ne hr]
      exact h.unknown r' hr'
  · rcases eq_or_ne r' r with rfl | hr
    · rw [lastGot_gotCopy, Function.update_self] at hm
      obtain rfl := Option.some.inj hm
      refine ⟨frame.seqVal, total, ?_, hnumber, le_rfl, ?_, ?_, fun _ ↦ ⟨hcopies, ?_, ?_⟩⟩
      · rw [receivers_gotCopy, receivers_setReceiver, Function.update_self, hfind, if_pos haddress.symm]
        rfl
      · show total + (s.sent - s.sent) ≤ total
        omega
      · exact Nat.le_add_right total _
      · intro hnot
        rw [heard_gotCopy, Function.update_self] at hnot
        cases hnot
      · intro frame' hframe'
        obtain rfl := Option.some.inj (hframe.symm.trans hframe')
        rfl
    · rw [lastGot_gotCopy, Function.update_of_ne hr] at hm
      obtain ⟨seqVal, before, hcache, hknows⟩ := h.known r' m hm
      refine ⟨seqVal, before, ?_, hknows.seqNum_eq, hknows.le_sent, hknows.le_total, hknows.total_le,
        fun heq ↦ ?_⟩
      · rw [receivers_gotCopy, receivers_setReceiver, Function.update_of_ne hr]
        exact hcache
      · obtain ⟨hpos, hagain, hfrag⟩ := hknows.same heq
        rw [heard_gotCopy, Function.update_of_ne hr]
        exact ⟨hpos, hagain, hfrag⟩
  · rw [decide_eq_decide, haddress]
    rcases hgot : s.lastGot r with _ | m
    · rw [h.unknown r hgot]
      exact iff_of_false (fun hsame ↦ by cases hsame.1) (fun hsame ↦ by cases hsame)
    · obtain ⟨seqVal, before, hcache, hknows⟩ := h.known r m hgot
      have hle := hknows.le_sent
      have hbefore := hknows.le_total
      have hafter := hknows.total_le
      rw [hcache]
      rcases hle.eq_or_lt with rfl | hlt
      · obtain ⟨-, hagain, hfrag⟩ := hknows.same rfl
        have hseqVal : seqVal = frame.seqVal := by
          obtain ⟨seqNum, fragNum⟩ := seqVal
          obtain rfl : total = before := by omega
          exact congrArg₂ SeqVal.mk (hknows.seqNum_eq.trans hnumber.symm) (hfrag frame hframe)
        exact iff_of_true ⟨congrArg some hseqVal, decide_eq_true (hagain hheard)⟩ rfl
      · -- the counter has been advanced, and not by a whole round
        refine iff_of_false (fun hsame ↦ ?_) (fun hsame ↦ hlt.ne (Option.some.inj hsame))
        have hnum : before % 4096 = total % 4096 :=
          hknows.seqNum_eq.symm.trans ((congrArg SeqVal.seqNum (Option.some.inj hsame.1)).trans hnumber)
        have := hnear m hgot
        omega

/-! ### Runs -/

/-- What a receiver has said of the copies of a frame that it has got. -/
def results (tr : List (Transition (NumberedTransmission ρ) (Event ρ) (Option Bool))) (r : ρ) (n : ℕ) :
    List (Option Bool) :=
  (tr.filter fun t ↦ t.input = .receive r ∧ t.pre.sent = n).map Transition.output

/-- One copy is not a duplicate, and all the other ones are. -/
def Exact (l : List (Option Bool)) : Prop :=
  ∃ k, l = some false :: List.replicate k (some true)

/-- A receiver that gets a frame has missed fewer than `limit` frames since it got the last one. -/
def MissesFewer (limit : ℕ)
    (t : Transition (NumberedTransmission ρ) (Event ρ) (Option Bool)) : Prop :=
  ∀ r, t.input = .receive r → ∀ m, t.pre.lastGot r = some m → t.pre.sent < m + 1 + limit

variable {tr : List (Transition (NumberedTransmission ρ) (Event ρ) (Option Bool))} {n : ℕ}

theorem Exact.concat {l : List (Option Bool)} (h : Exact l) : Exact (l ++ [some true]) := by
  obtain ⟨k, rfl⟩ := h
  exact ⟨k + 1, by rw [List.cons_append, List.replicate_succ']⟩

theorem results_concat (t : Transition (NumberedTransmission ρ) (Event ρ) (Option Bool)) :
    results (tr ++ [t]) r n =
      results tr r n ++ (if t.input = .receive r ∧ t.pre.sent = n then [t.output] else []) := by
  rw [results, List.filter_append, List.map_append]
  by_cases h : t.input = .receive r ∧ t.pre.sent = n
  · rw [if_pos h, List.filter_singleton, decide_eq_true h]
    rfl
  · rw [if_neg h, List.filter_singleton, decide_eq_false h]
    rfl

/-- Something has been said of a frame exactly if a copy of it has been got, and it is as it should
be. -/
structure Settled (tr : List (Transition (NumberedTransmission ρ) (Event ρ) (Option Bool)))
    (s : NumberedTransmission ρ) : Prop where
  later : ∀ r n, s.sent < n → results tr r n = []
  lastGot_le : ∀ r, ∀ m ∈ s.lastGot r, m ≤ s.sent
  unseen : ∀ r, s.lastGot r ≠ some s.sent → results tr r s.sent = []
  seen : ∀ r, s.lastGot r = some s.sent → results tr r s.sent ≠ []
  exact : ∀ r n, results tr r n = [] ∨ Exact (results tr r n)

/-- What a step does to what is noted. -/
theorem Advanced.step {i : Event ρ} {o : Option Bool} (h : Advanced address s total)
    (hstep : (system address).Step s i o s') :
    (∃ total', Advanced address s' total') ∧
    ((∃ frame, i = .send frame ∧ s'.sent = s.sent + 1 ∧ s'.lastGot = s.lastGot) ∨
      (∃ r duplicate, i = .receive r ∧ o = some duplicate ∧ s'.sent = s.sent ∧
        s'.lastGot = Function.update s.lastGot r (some s.sent) ∧
        ((∀ m, s.lastGot r = some m → s.sent ≤ m + 2047) →
          duplicate = decide (s.lastGot r = some s.sent))) ∨
      (∀ r, i ≠ .receive r) ∧ s'.sent = s.sent ∧ s'.lastGot = s.lastGot) := by
  obtain ⟨hallowed, hreact⟩ := hstep
  rcases i with frame | _ | r | ⟨r, frame⟩
  · obtain ⟨advance, s'', hok, hs, hsent, hgot⟩ := h.send hallowed
    obtain ⟨-, rfl⟩ := Prod.mk.inj (Except.ok.inj (hreact.symm.trans hok))
    exact ⟨⟨_, hs⟩, .inl ⟨frame, rfl, hsent, hgot⟩⟩
  · obtain ⟨-, rfl⟩ := Prod.mk.inj (Except.ok.inj hreact)
    exact ⟨⟨_, h.transmit⟩, .inr (.inr ⟨(fun r hr ↦ by cases hr), rfl, rfl⟩)⟩
  · obtain ⟨duplicate, s'', hok, hs, hsent, hgot, hnear⟩ := h.receive hallowed
    obtain ⟨rfl, rfl⟩ := Prod.mk.inj (Except.ok.inj (hreact.symm.trans hok))
    exact ⟨⟨_, hs⟩, .inr (.inl ⟨r, duplicate, rfl, rfl, hsent, hgot, hnear⟩)⟩
  · obtain ⟨duplicate, s'', hok, hs, hsent, hgot⟩ := h.overhear hallowed
    obtain ⟨-, rfl⟩ := Prod.mk.inj (Except.ok.inj (hreact.symm.trans hok))
    exact ⟨⟨_, hs⟩, .inr (.inr ⟨(fun r hr ↦ by cases hr), hsent, hgot⟩)⟩

theorem Run.advanced (h : (system address).Run tr s) : ∃ total, Advanced address s total := by
  refine h.invariant (I := fun s ↦ ∃ total, Advanced address s total) (fun s hs ↦ ?_)
    fun s i o s' hs hstep ↦ ?_
  · obtain ⟨hlast, hframe, -, -, hgot, hcache⟩ := hs
    refine ⟨s.sender.lastSeqNum, (Nat.mod_eq_of_lt hlast).symm, fun frame hs ↦ ?_, fun r _ ↦ hcache r,
      fun r m hm ↦ ?_⟩
    · cases hframe.symm.trans hs
    · cases (hgot r).symm.trans hm
  · obtain ⟨total, hs⟩ := hs
    exact (hs.step hstep).1

theorem Settled.step {i : Event ρ} {o : Option Bool} (hs : Settled tr s) (h : Advanced address s total)
    (hstep : (system address).Step s i o s') (hfew : MissesFewer 2047 ⟨s, i, o, s'⟩) :
    Settled (tr ++ [⟨s, i, o, s'⟩]) s' := by
  obtain ⟨-, ⟨frame, rfl, hsent, hgot⟩ | ⟨r, duplicate, rfl, rfl, hsent, hgot, hnear⟩ |
    ⟨hno, hsent, hgot⟩⟩ := h.step hstep
  · have hresults (r : ρ) (n : ℕ) :
        results (tr ++ [⟨s, .send frame, o, s'⟩]) r n = results tr r n := by
      rw [results_concat, if_neg (fun hi ↦ by cases hi.1), List.append_nil]
    refine ⟨fun r n hn ↦ ?_, fun r m hm ↦ ?_, fun r _ ↦ ?_, fun r hr ↦ ?_, fun r n ↦ ?_⟩
    · rw [hresults]
      exact hs.later r n (by omega)
    · rw [hgot] at hm
      exact (hs.lastGot_le r m hm).trans (by omega)
    · rw [hresults]
      exact hs.later r _ (by omega)
    · rw [hgot] at hr
      have := hs.lastGot_le r _ hr
      omega
    · rw [hresults]
      exact hs.exact r n
  · -- the receiver says of the frame what its results so far call for
    have hduplicate := hnear fun m hm ↦ by
      have hlt : s.sent < m + 1 + 2047 := hfew r rfl m hm
      omega
    have hother {r' : ρ} {n : ℕ} (hne : ¬ (r' = r ∧ n = s.sent)) :
        results (tr ++ [⟨s, .receive r, some duplicate, s'⟩]) r' n = results tr r' n := by
      rw [results_concat, if_neg (fun hi ↦ hne ⟨?_, ?_⟩), List.append_nil]
      · cases hi.1
        rfl
      · exact hi.2.symm
    have hself : results (tr ++ [⟨s, .receive r, some duplicate, s'⟩]) r s.sent =
        results tr r s.sent ++ [some duplicate] := by
      rw [results_concat, if_pos ⟨rfl, rfl⟩]
    refine ⟨fun r' n hn ↦ ?_, fun r' m hm ↦ ?_, fun r' hr' ↦ ?_, fun r' hr' ↦ ?_, fun r' n ↦ ?_⟩
    · rw [hother (by omega)]
      exact hs.later r' n (hsent ▸ hn)
    · rw [hgot] at hm
      rw [hsent]
      rcases eq_or_ne r' r with rfl | hr
      · rw [Function.update_self] at hm
        exact (Option.some.inj hm).ge
      · rw [Function.update_of_ne hr] at hm
        exact hs.lastGot_le r' m hm
    · rw [hgot, hsent] at hr'
      rcases eq_or_ne r' r with rfl | hr
      · rw [Function.update_self] at hr'
        exact absurd rfl hr'
      · rw [Function.update_of_ne hr] at hr'
        rw [hsent, hother (fun hi ↦ hr hi.1)]
        exact hs.unseen r' hr'
    · rw [hgot, hsent] at hr'
      rcases eq_or_ne r' r with rfl | hr
      · rw [hsent, hself]
        exact List.append_ne_nil_of_right_ne_nil _ (List.cons_ne_nil _ _)
      · rw [Function.update_of_ne hr] at hr'
        rw [hsent, hother (fun hi ↦ hr hi.1)]
        exact hs.seen r' hr'
    · by_cases hi : r' = r ∧ n = s.sent
      · obtain ⟨rfl, rfl⟩ := hi
        right
        rw [hself, hduplicate]
        by_cases hseen : s.lastGot r' = some s.sent
        · rw [decide_eq_true hseen]
          exact ((hs.exact r' s.sent).resolve_left (hs.seen r' hseen)).concat
        · rw [decide_eq_false hseen, hs.unseen r' hseen]
          exact ⟨0, rfl⟩
      · rw [hother hi]
        exact hs.exact r' n
  · have hresults (r : ρ) (n : ℕ) : results (tr ++ [⟨s, i, o, s'⟩]) r n = results tr r n := by
      rw [results_concat, if_neg (fun hi ↦ hno r hi.1), List.append_nil]
    refine ⟨fun r n hn ↦ ?_, fun r m hm ↦ ?_, fun r hr ↦ ?_, fun r hr ↦ ?_, fun r n ↦ ?_⟩
    · rw [hresults]
      exact hs.later r n (hsent ▸ hn)
    · rw [hsent]
      exact hs.lastGot_le r m (hgot ▸ hm)
    · rw [hresults, hsent]
      rw [hgot, hsent] at hr
      exact hs.unseen r hr
    · rw [hresults, hsent]
      rw [hgot, hsent] at hr
      exact hs.seen r hr
    · rw [hresults]
      exact hs.exact r n

theorem Run.settled (h : (system address).Run tr s) (hfew : ∀ t ∈ tr, MissesFewer 2047 t) :
    Settled tr s := by
  refine h.history (P := fun tr s ↦ (∀ t ∈ tr, MissesFewer 2047 t) → Settled tr s)
    (fun s hs _ ↦ ?_) (fun tr s i o s' hrun hs hstep hall ↦ ?_) hfew
  · obtain ⟨-, -, -, -, hgot, -⟩ := hs
    refine ⟨fun _ _ _ ↦ rfl, fun r m hm ↦ ?_, fun _ _ ↦ rfl, fun r hr ↦ ?_, fun _ _ ↦ .inl rfl⟩
    · cases (hgot r).symm.trans hm
    · cases (hgot r).symm.trans hr
  · obtain ⟨total, hadvanced⟩ := Run.advanced hrun
    exact (hs fun t ht ↦ hall t (List.mem_append_left _ ht)).step hadvanced hstep
      (hall _ (List.mem_append_right _ (List.mem_singleton.2 rfl)))

/-- Every call succeeds. If no receiver gets a frame after missing 2047 frames in a row or more,
every receiver takes exactly the first copy that it gets of a frame for a new frame, and all the
others for duplicates. -/
theorem isDuplicate_exact (h : (system address).Run tr s) :
    (∀ e, s.Allowed address e → ∃ o s', s.react e = .ok (o, s')) ∧
    ((∀ t ∈ tr, MissesFewer 2047 t) → ∀ r n, results tr r n = [] ∨
      ∃ k, results tr r n = some false :: List.replicate k (some true)) := by
  obtain ⟨total, hadvanced⟩ := Run.advanced h
  refine ⟨fun e hallowed ↦ ?_, fun hfew r n ↦ (Run.settled h hfew).exact r n⟩
  rcases e with frame | _ | r | ⟨r, frame⟩
  · obtain ⟨advance, s', hok, -⟩ := hadvanced.send hallowed
    exact ⟨_, s', hok⟩
  · exact ⟨_, _, rfl⟩
  · obtain ⟨duplicate, s', hok, -⟩ := hadvanced.receive hallowed
    exact ⟨_, s', hok⟩
  · obtain ⟨duplicate, s', hok, -⟩ := hadvanced.overhear hallowed
    exact ⟨_, s', hok⟩

/-- A frame of the sender with the address 0. -/
def frameTo (ra : MACAddress) : Ieee80211Header where
  type := .data
  receiverAddress := ra
  transmitterAddress := ⟨0⟩

/-- A frame of which both copies are received. -/
theorem isDuplicate_exact_twoCopies : ∃ tr s,
    (system ⟨0⟩ : TransitionSystem (NumberedTransmission Unit) _ _).Run tr s ∧ results tr () 1 ≠ [] ∧
    ∃ k, results tr () 1 = some false :: List.replicate k (some true) := by
  have hinit : (system ⟨0⟩).Init ({ receivers := fun _ ↦ {} } : NumberedTransmission Unit) :=
    ⟨by decide, rfl, rfl, rfl, fun _ ↦ rfl, fun _ ↦ rfl⟩
  have hrun := (((((TransitionSystem.Run.nil hinit).snoc
    (step_of (.send (frameTo ⟨1⟩)) (o := none) ⟨rfl, by decide, .inl rfl⟩ rfl)).snoc
    (step_of .transmit (o := none) (Option.some_ne_none _) rfl)).snoc
    (step_of (.receive ()) (o := some false) ⟨Option.some_ne_none _, Nat.one_pos, rfl⟩ rfl)).snoc
    (step_of .transmit (o := none) (Option.some_ne_none _) rfl)).snoc
    (step_of (.receive ()) (o := some true) ⟨Option.some_ne_none _, Nat.two_pos, rfl⟩ rfl)
  have hnonempty {l : List (Option Bool)} (h : l = [some false, some true]) : l ≠ [] :=
    h ▸ List.cons_ne_nil _ _
  refine ⟨_, _, hrun, hnonempty rfl,
    ((isDuplicate_exact hrun).2 (fun t ht r hr m hm ↦ ?_) () 1).resolve_left (hnonempty rfl)⟩
  have hle : t.pre.sent ≤ 1 := by
    simp only [List.mem_append, List.mem_singleton, List.not_mem_nil, false_or] at ht
    rcases ht with (((rfl | rfl) | rfl) | rfl) | rfl
    exacts [Nat.zero_le 1, le_rfl, le_rfl, le_rfl, le_rfl]
  omega

/-- The addresses of stations, and that of a group. -/
def station (k : ℕ) : MACAddress :=
  ⟨BitVec.ofNat 48 k⟩

def group : MACAddress :=
  station (2 ^ 40)

theorem station_inj {k k' : ℕ} (hk : k ≤ 2 ^ 40) (hk' : k' ≤ 2 ^ 40) (h : station k = station k') :
    k = k' := by
  have hnat := congrArg (fun a : MACAddress ↦ a.address.toNat) h
  simp only [station, BitVec.toNat_ofNat] at hnat
  omega

/-- A frame with a number has been transmitted once. -/
def sentTo (ra : MACAddress) (n : ℕ) (s : NumberedTransmission Unit) : NumberedTransmission Unit :=
  (s.goOn (s.sender.give n ra) { frameTo ra with sequenceNumber := n }).transmitCopy

/-- The states that are reached without missing 2047 frames in a row. -/
def Reached (s : NumberedTransmission Unit) : Prop :=
  ∃ tr, (system ⟨0⟩).Run tr s ∧ ∀ t ∈ tr, MissesFewer 2047 t

theorem Reached.step {s s' : NumberedTransmission Unit} {i : Event Unit} {o : Option Bool} (h : Reached s)
    (hstep : (system ⟨0⟩).Step s i o s') (hfew : MissesFewer 2047 ⟨s, i, o, s'⟩) : Reached s' := by
  obtain ⟨tr, hrun, hall⟩ := h
  refine ⟨_, hrun.snoc hstep, fun t ht ↦ ?_⟩
  rcases List.mem_append.1 ht with ht | ht
  · exact hall t ht
  · exact List.mem_singleton.1 ht ▸ hfew

theorem Reached.sendTo {s : NumberedTransmission Unit} {ra : MACAddress} {n : ℕ} (h : Reached s)
    (hready : s.frame = none ∨ 0 < s.copies)
    (hok : s.sender.assignSequenceNumber (frameTo ra) =
      .ok ({ frameTo ra with sequenceNumber := n }, s.sender.give n ra)) :
    Reached (s.sentTo ra n) := by
  have hsend : Reached (s.goOn (s.sender.give n ra) { frameTo ra with sequenceNumber := n }) :=
    h.step (i := .send (frameTo ra)) (o := none) ⟨⟨rfl, (show Ieee80211FrameType.data ≠ .dataWithQos by
      decide), hready⟩, by rw [react, hok]; rfl⟩ (fun r hr ↦ by cases hr)
  exact hsend.step (i := .transmit) (o := none) ⟨Option.some_ne_none _, rfl⟩ (fun r hr ↦ by cases hr)

/-- The first `m` frames have gone to as many stations. -/
structure FirstRound (m : ℕ) (s : NumberedTransmission Unit) : Prop where
  reached : Reached s
  ready : s.frame = none ∨ 0 < s.copies
  lastSeqNum_eq : s.sender.lastSeqNum = m
  sent_eq : s.sent = m
  lastGot_eq : s.lastGot () = none
  cache_eq : (s.receivers ()).lastSeenSeqNumCache.find ⟨0⟩ = none
  find_eq : ∀ k ≤ 2 ^ 40, s.sender.lastSentSeqNums.find (station k) =
    if 1 ≤ k ∧ k ≤ m then some k else none

theorem exists_firstRound {m : ℕ} (hm : m ≤ 4095) : ∃ s, FirstRound m s := by
  induction m with
  | zero =>
    refine ⟨{ receivers := fun _ ↦ {} }, ⟨[], .nil ⟨by decide, rfl, rfl, rfl, fun _ ↦ rfl,
      fun _ ↦ rfl⟩, by simp⟩, .inl rfl, rfl, rfl, rfl, rfl, fun k _ ↦ ?_⟩
    rw [if_neg (by omega)]
    rfl
  | succ m ih =>
    obtain ⟨s, hs⟩ := ih (by omega)
    have hlast : s.sender.lastSeqNum = m % 4096 := by
      rw [hs.lastSeqNum_eq, Nat.mod_eq_of_lt (by omega)]
    have hnext : (m + 1) % 4096 = m + 1 := Nat.mod_eq_of_lt (by omega)
    have hok := NonQoSDuplicateDetector.assignSequenceNumber_next (frameTo (station (m + 1)))
      (show Ieee80211FrameType.data ≠ .dataWithQos by decide) hlast (by
        show s.sender.lastSentSeqNums.find (station (m + 1)) ≠ _
        rw [hs.find_eq _ (by omega), if_neg (by omega)]
        exact fun h ↦ by cases h)
    rw [hnext] at hok
    refine ⟨s.sentTo (station (m + 1)) (m + 1), hs.reached.sendTo hs.ready hok, .inr Nat.one_pos, rfl,
      congrArg (· + 1) hs.sent_eq, hs.lastGot_eq,
      hs.cache_eq, fun k hk ↦ ?_⟩
    show (s.sender.lastSentSeqNums.insert (station (m + 1)) (m + 1)).find (station k) = _
    rw [OrderedMap.find_insert, hs.find_eq k hk]
    by_cases heq : k = m + 1
    · rw [if_pos (congrArg station heq), if_pos (by omega), heq]
    · rw [if_neg (fun h ↦ heq (station_inj hk (by omega) h))]
      split_ifs <;> first | rfl | omega

/-- A frame with the number 0 has been received, and then every other station of the first `2 * j`
ones has been sent a frame again. Each of these frames advances the counter by two. -/
structure SecondRound (j : ℕ) (s : NumberedTransmission Unit) : Prop where
  reached : Reached s
  ready : 0 < s.copies
  lastSeqNum_eq : s.sender.lastSeqNum = 2 * j
  sent_eq : s.sent = 4096 + j
  lastGot_eq : s.lastGot () = some 4096
  cache_eq : (s.receivers ()).lastSeenSeqNumCache.find ⟨0⟩ = some ⟨0, 0⟩
  find_eq : ∀ k, 2 * j < k → k ≤ 4095 → s.sender.lastSentSeqNums.find (station k) = some k

theorem FirstRound.second {s : NumberedTransmission Unit} (hs : FirstRound 4095 s) :
    ∃ s', SecondRound 0 s' := by
  have hok := NonQoSDuplicateDetector.assignSequenceNumber_next (frameTo group)
    (show Ieee80211FrameType.data ≠ .dataWithQos by decide)
    (hs.lastSeqNum_eq.trans (show 4095 = 4095 % 4096 by decide)) (by
      show s.sender.lastSentSeqNums.find (station (2 ^ 40)) ≠ _
      rw [hs.find_eq _ le_rfl, if_neg (by omega)]
      exact fun h ↦ by cases h)
  have hsent : Reached (s.sentTo group 0) := hs.reached.sendTo hs.ready hok
  obtain ⟨receiver, hreact, hfind⟩ := react_receive (s := s.sentTo group 0) rfl
    (show Ieee80211FrameType.data ≠ .dataWithQos by decide) ()
  have hreceive : Reached (((s.sentTo group 0).setReceiver () receiver).gotCopy ()) :=
    hsent.step (i := .receive ()) ⟨⟨Option.some_ne_none _, Nat.one_pos, rfl⟩, hreact⟩
      fun r hr m hm ↦ by cases hs.lastGot_eq.symm.trans hm
  refine ⟨_, hreceive, Nat.one_pos, rfl, congrArg (· + 1) hs.sent_eq, ?_, ?_, fun k hpos hk ↦ ?_⟩
  · exact congrArg (fun n ↦ some (n + 1)) hs.sent_eq
  · exact (hfind ⟨0⟩).trans (if_pos rfl)
  · show (s.sender.lastSentSeqNums.insert group 0).find (station k) = _
    rw [OrderedMap.find_insert, if_neg, hs.find_eq k (by omega), if_pos ⟨hpos, hk⟩]
    intro heq
    have := station_inj (by omega) le_rfl heq
    omega

theorem SecondRound.next {j : ℕ} {s : NumberedTransmission Unit} (hs : SecondRound j s) (hj : j < 2047) :
    SecondRound (j + 1) (s.sentTo (station (2 * j + 1)) (2 * j + 2)) := by
  have hlast : s.sender.lastSeqNum = 2 * j % 4096 := by
    rw [hs.lastSeqNum_eq, Nat.mod_eq_of_lt (by omega)]
  have hsame : (2 * j + 1) % 4096 = 2 * j + 1 := Nat.mod_eq_of_lt (by omega)
  have hskip : (2 * j + 2) % 4096 = 2 * j + 2 := Nat.mod_eq_of_lt (by omega)
  have hok := NonQoSDuplicateDetector.assignSequenceNumber_skip (frameTo (station (2 * j + 1)))
    (show Ieee80211FrameType.data ≠ .dataWithQos by decide) hlast (by
      show s.sender.lastSentSeqNums.find (station (2 * j + 1)) = _
      rw [hs.find_eq _ (by omega) (by omega), hsame])
  rw [hskip] at hok
  refine ⟨hs.reached.sendTo (.inr hs.ready) hok, Nat.one_pos, rfl, congrArg (· + 1) hs.sent_eq,
    hs.lastGot_eq, hs.cache_eq, fun k hlt hk ↦ ?_⟩
  show (s.sender.lastSentSeqNums.insert (station (2 * j + 1)) (2 * j + 2)).find (station k) = _
  rw [OrderedMap.find_insert, if_neg, hs.find_eq k (by omega) hk]
  intro heq
  have := station_inj (by omega) (by omega) heq
  omega

theorem exists_secondRound {j : ℕ} (hj : j ≤ 2047) : ∃ s, SecondRound j s := by
  induction j with
  | zero =>
    obtain ⟨s, hs⟩ := exists_firstRound le_rfl
    exact hs.second
  | succ j ih =>
    obtain ⟨s, hs⟩ := ih (by omega)
    exact ⟨_, hs.next hj⟩

/-- A receiver that gets a frame to a group, misses 2047 frames and then the first copy of the next
frame takes the second copy for a duplicate. And a `QoSDuplicateDetector` gives no answer to the
first frame. -/
theorem isDuplicate_notExact :
    (∃ tr s, (system ⟨0⟩ : TransitionSystem (NumberedTransmission Unit) _ _).Run tr s ∧
      (∀ t ∈ tr, MissesFewer 2048 t) ∧ results tr () 6144 = [some true]) ∧
    (∀ frame, ({} : QoSDuplicateDetector).isDuplicate frame = .error .endDereferenced) ∧
    ∀ (d : NonQoSDuplicateDetector) (frame : Ieee80211Header), frame.type = .dataWithQos →
      d.assignSequenceNumber frame = .error .assertionFailed := by
  refine ⟨?_, fun frame ↦ ?_, fun d frame htype ↦ if_pos htype⟩
  · obtain ⟨s, hs⟩ := exists_secondRound le_rfl
    have hok := NonQoSDuplicateDetector.assignSequenceNumber_skip (frameTo (station 4095))
      (show Ieee80211FrameType.data ≠ .dataWithQos by decide)
      (hs.lastSeqNum_eq.trans (show 2 * 2047 = 4094 % 4096 by decide))
      (hs.find_eq 4095 (by decide) le_rfl)
    have hsent : Reached (s.sentTo (station 4095) 0) := hs.reached.sendTo (.inr hs.ready) hok
    have hagain : Reached (s.sentTo (station 4095) 0).transmitCopy :=
      hsent.step (i := .transmit) (o := none) ⟨Option.some_ne_none _, rfl⟩ (fun r hr ↦ by cases hr)
    obtain ⟨tr, hrun, hfew⟩ := hagain
    obtain ⟨receiver, hreact, -⟩ := react_receive (s := (s.sentTo (station 4095) 0).transmitCopy) rfl
      (show Ieee80211FrameType.data ≠ .dataWithQos by decide) ()
    -- the first copy is lost, and the number is that of the frame to the group
    have hduplicate := hreact.trans (congrArg (fun b ↦ Except.ok (some b, _))
      (decide_eq_true ⟨hs.cache_eq, rfl⟩))
    have hnumber : (s.sentTo (station 4095) 0).transmitCopy.sent = 6144 :=
      congrArg (· + 1) hs.sent_eq
    have hstep : (system ⟨0⟩).Step (s.sentTo (station 4095) 0).transmitCopy (.receive ()) _ _ :=
      ⟨⟨Option.some_ne_none _, Nat.two_pos, rfl⟩, hduplicate⟩
    refine ⟨_, _, hrun.snoc hstep, fun t ht ↦ ?_, ?_⟩
    · rcases List.mem_append.1 ht with ht | ht
      · exact fun r hr m hm ↦ (hfew t ht r hr m hm).trans (Nat.lt_succ_self _)
      · obtain rfl := List.mem_singleton.1 ht
        intro r _ m hm
        obtain rfl := Option.some.inj (hs.lastGot_eq.symm.trans hm)
        exact hnumber.trans_lt (by decide)
    · have hunseen := (Run.settled hrun hfew).unseen () fun heq ↦ by
        have := Option.some.inj (hs.lastGot_eq.symm.trans heq)
        omega
      rw [hnumber] at hunseen
      rw [results_concat, if_pos ⟨rfl, hnumber⟩, hunseen]
      rfl
  · rw [QoSDuplicateDetector.isDuplicate]
    split_ifs <;> rfl

end NumberedTransmission

end Inet
