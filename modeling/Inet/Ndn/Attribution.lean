import Inet.Ndn.NetworkMoves

/-!
# Whose answer a Data is

A consumer tells its requests apart by their numbers, and looks up what it knows about a request
under the number of the Data that comes in. This module follows the numbers through a network: an
Interest of a consumer is on its way up, or pending in the forwarder, or settled and on its way
down, or answered, and it is only one of these (`Accounted.conserved`). Hence a Data that reaches a
consumer carries the number of an unanswered Interest of its own name, and what `onData` records
belongs to that Interest (`reply_attributed`).

All this holds while each forwarder answers an application with a Data of the right number
(`AnswersOwn`). A cached Data has the number of the Interest it was made for, which is another one
as soon as a name is requested twice; `cached_reply_misattributed` is such a run.
-/

namespace Inet.Ndn

namespace Network

open ForwardingBase (Event)

variable {ι : Type*} [DecidableEq ι]

/-- The number and the name of a Data. -/
def dataKey (d : Data) : Option (ℕ × CString) :=
  some (d.seqNo, d.name)

/-- The requests of the consumer at a gate, and where they are. -/
structure Accounted (port : Port ι) (tr : List (Trans ι)) (s : Network ι) (c : ConsumerAppBase) :
    Prop where
  /-- The Interests are numbered from 0, in the order they were sent. -/
  numbered : (expressed port tr).map (·.base.seqNo) = List.range c.intSeqNo
  /-- They are requests. -/
  requests : ∀ p ∈ expressed port tr, ∃ i, p = .interest i ∧ i.kind = 0
  /-- A request is on its way up, pending, on its way down or answered, once in all. -/
  conserved : ∀ k, keyCount requested k (s.up port) +
      keyCount (ticket port.2) k (s.forwarder port.1).pit.entries +
        keyCount settled k (s.down port) + keyCount dataKey k (answered port tr) ≤
    keyCount requested k (expressed port tr)

/-- Each forwarder answers an application with a Data of the right number, in this transition. -/
def AnswersOwn (t : Trans ι) : Prop :=
  ∀ e ∈ t.input.2.event, (t.pre.forwarder e.1).AnswersOwn e.2

instance (t : Trans ι) : Decidable (AnswersOwn t) := by
  unfold AnswersOwn
  infer_instance

/-- What a consumer does with a packet, in requests. -/
theorem requested_handlePacket (c : ConsumerAppBase) (now : SimTime) (p : Packet)
    (k : ℕ × CString) {port : Port ι} {t : Trans ι} (hact : t.input.2 = .toApp port p) :
    keyCount requested k (sentUp (c.handlePacket now p).2) +
      keyCount dataKey k (answersOf port t) ≤ keyCount settled k [p] := by
  cases p with
  | interest i =>
    have hanswers : answersOf port t = [] := by simp [answersOf, hact]
    rcases sentUp_handlePacket c now (.interest i) with hnil | ⟨j, hj, hkind, hone⟩
    · simp [hnil, hanswers]
    · obtain rfl := Packet.interest.inj hj
      have hreg : ¬ ((0 : ℤ) = REGISTER_PREFIX_CODE) := by decide
      simp [hone, hanswers, requested, settled, hkind, ConsumerAppBase.again, hreg]
  | data d =>
    have hanswers : answersOf port t = [d] := by simp [answersOf, hact]
    rcases sentUp_handlePacket c now (.data d) with hnil | ⟨j, hj, -⟩
    · simp [hnil, hanswers, settled, dataKey]
    · cases hj

/-- A transition that is not of the consumer sends no new Interest and delivers no Data. -/
theorem record_of_event (port : Port ι) {t : Trans ι} {n : ι} {ev : Event}
    (hact : t.input.2.event = some (n, ev)) : requestsOf port t = [] ∧ answersOf port t = [] := by
  cases ha : t.input.2 <;> simp [requestsOf, answersOf, ha, Action.event] at hact ⊢

/-- A transition in which the consumer sends no new Interest keeps the account if the requests it
moves are conserved. -/
theorem Accounted.snoc_of_silent {port : Port ι} {tr : List (Trans ι)} {t : Trans ι}
    {s s' : Network ι} {c c' : ConsumerAppBase} (h : Accounted port tr s c)
    (hreq : requestsOf port t = []) (hnext : c'.intSeqNo = c.intSeqNo)
    (hconserved : ∀ k, keyCount requested k (s'.up port) +
        keyCount (ticket port.2) k (s'.forwarder port.1).pit.entries +
          keyCount settled k (s'.down port) + keyCount dataKey k (answersOf port t) ≤
      keyCount requested k (s.up port) +
        keyCount (ticket port.2) k (s.forwarder port.1).pit.entries +
          keyCount settled k (s.down port)) : Accounted port (tr ++ [t]) s' c' := by
  have hsame : expressed port (tr ++ [t]) = expressed port tr := by
    rw [expressed_snoc, hreq, List.append_nil]
  refine ⟨?_, ?_, fun k ↦ ?_⟩
  · rw [hsame, hnext, h.numbered]
  · rw [hsame]
    exact h.requests
  · have hold := h.conserved k
    have hk := hconserved k
    rw [hsame, answered_snoc, keyCount_append]
    omega

/-- **A transition keeps the account.** -/
theorem PortMove.accounted {setup : Setup ι} {port : Port ι} {t : Trans ι}
    {c c' : ConsumerAppBase} (hmove : PortMove port t c c') {tr : List (Trans ι)}
    (h : Accounted port tr t.pre c) (hrun : (actions setup).Run tr t.pre)
    (htakes : (actions setup).Takes t) (hown : AnswersOwn t) :
    Accounted port (tr ++ [t]) t.post c' := by
  cases hmove with
  | @express draw hact hout hup hdown hfwd =>
    have hreq : requestsOf port t = [.interest (c.createNextInterest t.input.1 draw).1] := by
      simp [requestsOf, hact, hout, sentUp_handleTimer]
    have hans : answersOf port t = [] := by simp [answersOf, hact]
    refine ⟨?_, ?_, fun k ↦ ?_⟩
    · -- the new Interest has the next number
      obtain ⟨timer, fx, heq, -⟩ := c.handleTimer_spec t.input.1 draw
      have hnext : (c.handleTimer t.input.1 draw).1.intSeqNo = c.intSeqNo + 1 := by rw [heq]
      rw [expressed_snoc, hreq, List.map_append, h.numbered, hnext, List.range_succ]
      rfl
    · rw [expressed_snoc, hreq]
      intro p hp
      rcases List.mem_append.1 hp with hp | hp
      · exact h.requests p hp
      · exact ⟨_, List.mem_singleton.1 hp, rfl⟩
    · have hk := h.conserved k
      rw [expressed_snoc, answered_snoc, hreq, hans, hup, hdown, hfwd, sentUp_handleTimer]
      simp only [keyCount_append, List.append_nil]
      omega
  | @deliver p hact hp hout hup hdown hfwd =>
    refine h.snoc_of_silent (by simp [requestsOf, hact]) (c.handlePacket_intSeqNo _ _) fun k ↦ ?_
    have hdone := requested_handlePacket c t.input.1 p k hact
    have herase := keyCount_erase_add (f := settled) (k := k) hp
    rw [hup, hdown, hfwd, keyCount_append]
    omega
  | @serve ev fx hact hout hstep hup hdown =>
    obtain ⟨hreq, hans⟩ := record_of_event port hact
    refine h.snoc_of_silent hreq rfl fun k ↦ ?_
    -- an Interest that reads as a notification would settle a request nobody made
    have hkind : ∀ i, Broker.arriving ev = some (.interest i) → i.kind ≠ TIMEOUT_CODE :=
      fun i hi ↦ (Run.clean hrun).arriving htakes.2.1 hact hi
    have htickets := ForwardingBase.step_tickets (forwarder_reachable hrun port.1) (hstep _)
      (hown _ hact) hkind port.2 k
    have hk := hup k
    rw [hans, hdown, keyCount_append, keyCount_nil]
    omega
  | elsewhere hreq hans hsends hup hdown hfwd =>
    refine h.snoc_of_silent hreq rfl fun k ↦ ?_
    rw [hans, hup, hdown, hfwd, keyCount_nil, Nat.add_zero]

omit [DecidableEq ι] in
/-- A consumer of the initial network has sent nothing yet. -/
theorem consumer_initial {setup : Setup ι} {port : Port ι} {c : ConsumerAppBase}
    (hc : (initial setup).app port = some (.consumer c)) :
    (∃ par, c = .initial par) ∧ (initial setup).up port = [] := by
  cases happ : setup.app port with
  | none => simp [initial, happ] at hc
  | some par =>
    cases par with
    | consumer par =>
      have hc : App.consumer (.initial par) = App.consumer c := by
        simpa [initial, happ, App.initial] using hc
      exact ⟨⟨par, (App.consumer.inj hc).symm⟩, by simp [initial, happ, App.initial, sentUp]⟩
    | producer par => simp [initial, happ, App.initial] at hc

theorem accounted_initial {setup : Setup ι} {port : Port ι} {c : ConsumerAppBase}
    (hc : (initial setup).app port = some (.consumer c)) :
    Accounted port [] (initial setup) c := by
  obtain ⟨⟨par, rfl⟩, hup⟩ := consumer_initial hc
  refine ⟨?_, by simp [expressed], fun k ↦ ?_⟩
  · have hzero : (ConsumerAppBase.initial par).intSeqNo = 0 := ConsumerAppBase.initial_intSeqNo par
    rw [hzero]
    rfl
  · have hpit : ((initial setup).forwarder port.1).pit.entries = [] := rfl
    have hdown : (initial setup).down port = [] := rfl
    simp [hup, hpit, hdown, expressed, answered]

/-- **Requests are accounted for** in every run whose forwarders answer with the right numbers. -/
theorem Run.accounted {setup : Setup ι} {tr : List (Trans ι)} {s : Network ι}
    (h : (actions setup).Run tr s) (hown : ∀ t ∈ tr, AnswersOwn t) {port : Port ι}
    {c : ConsumerAppBase} (hc : s.app port = some (.consumer c)) : Accounted port tr s c := by
  refine h.history (P := fun tr s ↦ (∀ t ∈ tr, AnswersOwn t) → ∀ c,
    s.app port = some (.consumer c) → Accounted port tr s c) ?_ ?_ hown c hc
  · rintro s rfl - c hc
    exact accounted_initial hc
  · rintro tr s ⟨now, a⟩ o s' hrun ih hstep hown c' hc'
    obtain ⟨c, hc, hmove⟩ := port_move hstep hc'
    have hold := ih (fun t ht ↦ hown t (List.mem_append_left _ ht)) c hc
    exact hmove.accounted hold hrun hstep (hown _ (by simp))

/-! ### What the account says -/

section Account

variable {port : Port ι} {tr : List (Trans ι)} {s : Network ι} {c : ConsumerAppBase}

theorem Accounted.requested_eq (h : Accounted port tr s c) {p : Packet}
    (hp : p ∈ expressed port tr) :
    ∃ i, p = .interest i ∧ requested p = some (i.seqNo, i.name) := by
  obtain ⟨i, rfl, hkind⟩ := h.requests p hp
  have hreg : i.kind ≠ REGISTER_PREFIX_CODE := by
    rw [hkind]
    decide
  exact ⟨i, rfl, by simp [requested, hreg]⟩

/-- A request that is counted anywhere was sent as a new Interest. -/
theorem Accounted.exists_request (h : Accounted port tr s c) {k : ℕ × CString}
    (hpos : 0 < keyCount requested k (expressed port tr)) :
    ∃ i : Interest, .interest i ∈ expressed port tr ∧ (i.seqNo, i.name) = k ∧
      k.1 < c.intSeqNo := by
  obtain ⟨q, hq, hqk⟩ := exists_of_keyCount_pos hpos
  obtain ⟨i, rfl, hi⟩ := h.requested_eq hq
  obtain rfl := Option.some.inj (hi.symm.trans hqk)
  refine ⟨i, hq, rfl, ?_⟩
  have hmem : i.seqNo ∈ List.range c.intSeqNo := by
    rw [← h.numbered]
    exact List.mem_map.2 ⟨_, hq, rfl⟩
  exact List.mem_range.1 hmem

theorem Accounted.nodup (h : Accounted port tr s c) :
    ((expressed port tr).map (·.base.seqNo)).Nodup := by
  rw [h.numbered]
  exact List.nodup_range

/-- A number is given to one Interest only. -/
theorem Accounted.request_unique (h : Accounted port tr s c) {i j : Interest}
    (hi : .interest i ∈ expressed port tr) (hj : .interest j ∈ expressed port tr)
    (hnum : i.seqNo = j.seqNo) : i = j :=
  Packet.interest.inj (List.inj_on_of_nodup_map h.nodup hi hj hnum)

/-- A request is sent as a new Interest once. -/
theorem Accounted.keyCount_le_one (h : Accounted port tr s c) (k : ℕ × CString) :
    keyCount requested k (expressed port tr) ≤ 1 := by
  refine le_trans ?_ (List.nodup_iff_count_le_one.1 h.nodup k.1)
  rw [List.count, List.countP_map]
  refine List.countP_mono_left fun p hp hk ↦ ?_
  obtain ⟨i, rfl, hi⟩ := h.requested_eq hp
  have hk : some (i.seqNo, i.name) = some k := hi.symm.trans (by simpa using hk)
  rw [← Option.some.inj hk]
  simp [Packet.base]

/-- A Data on its way down carries the number of an Interest of its name, and no Data of this number
was delivered before. -/
theorem Accounted.unanswered (h : Accounted port tr s c) {d : Data}
    (hd : .data d ∈ s.down port) :
    ∃ i : Interest, .interest i ∈ expressed port tr ∧ i.seqNo = d.seqNo ∧ i.name = d.name ∧
      (∀ j : Interest, .interest j ∈ expressed port tr → j.seqNo = d.seqNo → j = i) ∧
      (∀ d' ∈ answered port tr, d'.seqNo ≠ d.seqNo) ∧ d.seqNo < c.intSeqNo := by
  have hconserved := h.conserved (d.seqNo, d.name)
  have hdown : 0 < keyCount settled (d.seqNo, d.name) (s.down port) := keyCount_pos hd rfl
  obtain ⟨i, hi, hik, hlt⟩ := h.exists_request (k := (d.seqNo, d.name)) (by omega)
  obtain ⟨hnum, hname⟩ := Prod.mk.inj hik
  refine ⟨i, hi, hnum, hname, fun j hj hjnum ↦ h.request_unique hj hi (hjnum.trans hnum.symm), ?_,
    hlt⟩
  intro d' hd' hnum'
  -- a Data of the same number would answer the same Interest, and count for the same request
  have hanswered : 0 < keyCount dataKey (d'.seqNo, d'.name) (answered port tr) :=
    keyCount_pos hd' rfl
  have hconserved' := h.conserved (d'.seqNo, d'.name)
  obtain ⟨j, hj, hjk, -⟩ := h.exists_request (k := (d'.seqNo, d'.name)) (by omega)
  obtain ⟨hjnum, hjname⟩ := Prod.mk.inj hjk
  obtain rfl := h.request_unique hj hi (hjnum.trans (hnum'.trans hnum.symm))
  have hsame : (d'.seqNo, d'.name) = (d.seqNo, d.name) := hjk.symm.trans hik
  have hone := h.keyCount_le_one (d.seqNo, d.name)
  rw [hsame] at hanswered
  omega

end Account

/-! ### What the consumer records -/

/-- A time-out that is delivered to a consumer in this transition is of one of its last
`HISTORY_SIZE` Interests. -/
def TimesOutInWindow (t : Trans ι) : Prop :=
  match t.input.2 with
  | .toApp port (.interest i) =>
    i.kind = TIMEOUT_CODE → ∀ n ∈ (t.pre.app port).bind App.intSeqNo, n ≤ i.seqNo + HISTORY_SIZE
  | _ => True

instance (t : Trans ι) : Decidable (TimesOutInWindow t) := by
  unfold TimesOutInWindow
  split <;> infer_instance

/-- The consumer remembers when and how often it sent its last Interests. -/
theorem Run.remembers {setup : Setup ι} {tr : List (Trans ι)} {s : Network ι}
    (h : (actions setup).Run tr s) (hown : ∀ t ∈ tr, AnswersOwn t)
    (hwindow : ∀ t ∈ tr, TimesOutInWindow t) {port : Port ι} {c : ConsumerAppBase}
    (hc : s.app port = some (.consumer c)) : c.Remembers (timesSent port tr) := by
  refine h.history (P := fun tr s ↦ (∀ t ∈ tr, AnswersOwn t) → (∀ t ∈ tr, TimesOutInWindow t) →
    ∀ c, s.app port = some (.consumer c) → c.Remembers (timesSent port tr)) ?_ ?_ hown hwindow c hc
  · rintro s rfl - - c hc
    obtain ⟨⟨par, rfl⟩, -⟩ := consumer_initial hc
    exact ConsumerAppBase.remembers_initial par
  · rintro tr s ⟨now, a⟩ o s' hrun ih hstep hown hwindow c' hc'
    obtain ⟨c, hc, hmove⟩ := port_move hstep hc'
    have hown' : ∀ t ∈ tr, AnswersOwn t := fun t ht ↦ hown t (List.mem_append_left _ ht)
    have hold := ih hown' (fun t ht ↦ hwindow t (List.mem_append_left _ ht)) c hc
    have hsnoc := timesSent_snoc port tr ⟨s, (now, a), o, s'⟩
    have hfun : timesSent port (tr ++ [⟨s, (now, a), o, s'⟩]) =
        fun q ↦ timesSent port tr q ++ sendsOf port q ⟨s, (now, a), o, s'⟩ := funext hsnoc
    rw [hfun]
    cases hmove with
    | @express draw hact hout =>
      simp only at hout
      simpa [sendsOf, hout] using hold.handleTimer now draw
    | @deliver p hact hp hout =>
      simp only at hact hout hp
      subst hact
      have hnew := hold.handlePacket now (p := p) ?_
      · simpa [sendsOf, hout] using hnew
      · rintro i rfl hkind
        have hacc := Run.accounted hrun hown' hc
        have hdown : 0 < keyCount settled (i.seqNo, i.name) (s.down port) :=
          keyCount_pos hp (by simp [settled, hkind])
        have hconserved := hacc.conserved (i.seqNo, i.name)
        obtain ⟨-, -, -, hlt⟩ := hacc.exists_request (k := (i.seqNo, i.name)) (by omega)
        have hwin : i.kind = TIMEOUT_CODE →
            ∀ n ∈ (s.app port).bind App.intSeqNo, n ≤ i.seqNo + HISTORY_SIZE :=
          hwindow ⟨s, (now, .toApp port (.interest i)), o, s'⟩ (by simp)
        exact ⟨hlt, hwin hkind c.intSeqNo (by simp [hc, App.intSeqNo])⟩
    | serve hact hout =>
      simp only at hout
      simpa [sendsOf, hout] using hold
    | elsewhere hreq hans hsends =>
      simpa [hsends] using hold

/-- **A reply is attributed to the Interest it answers.** In a run whose forwarders answer
applications with Data of the right numbers, a Data that reaches a consumer carries the number of an
Interest of its name that the consumer has sent, the only one of this number, and no Data of this
number came before. While that Interest is among the last `HISTORY_SIZE`, and time-outs came for
such Interests only, the round-trip times and the retransmission count recorded are its own. -/
theorem reply_attributed {setup : Setup ι} {tr : List (Trans ι)} {s : Network ι}
    (h : (actions setup).Run tr s) (hown : ∀ t ∈ tr, AnswersOwn t) :
    ∀ before t after, tr = before ++ t :: after → ∀ now port d,
      t.input = (now, .toApp port (.data d)) → ∀ c, t.pre.app port = some (.consumer c) →
        (∃ i : Interest, .interest i ∈ expressed port before ∧ i.seqNo = d.seqNo ∧
          i.name = d.name ∧
          ∀ j : Interest, .interest j ∈ expressed port before → j.seqNo = d.seqNo → j = i) ∧
        (∀ d' ∈ answered port before, d'.seqNo ≠ d.seqNo) ∧
        ((∀ u ∈ before, TimesOutInWindow u) → c.intSeqNo ≤ d.seqNo + HISTORY_SIZE →
          ∃ first last, (timesSent port before d.seqNo).head? = some first ∧
            (timesSent port before d.seqNo).getLast? = some last ∧
            t.output = .app port [.collect (now - first) (now - last)
              ((timesSent port before d.seqNo).length - 1) d.hopCount]) := by
  rintro before ⟨s₁, a, o, s₂⟩ after rfl now port d rfl c hc
  obtain ⟨m, hrun, hpath⟩ := h.split
  cases hpath with
  | cons hstep hpath =>
    have hown' : ∀ u ∈ before, AnswersOwn u := fun u hu ↦ hown u (by simp [hu])
    have hd : .data d ∈ s₁.down port := hstep.2.1
    have hacc := Run.accounted hrun hown' hc
    obtain ⟨i, hi, hnum, hname, hunique, hunanswered, hlt⟩ := hacc.unanswered hd
    refine ⟨⟨i, hi, hnum, hname, hunique⟩, hunanswered, fun hwindow hwin ↦ ?_⟩
    obtain ⟨first, last, hfirst, hlast, hcollect⟩ :=
      (Run.remembers hrun hown' hwindow hc).onData now hlt hwin
    refine ⟨first, last, hfirst, hlast, ?_⟩
    have hkind : d.kind ≠ TIMEOUT_CODE := (Run.clean hrun).down port d hd
    have hc : s₁.app port = some (.consumer c) := hc
    have hout : o = (s₁.handle now (.toApp port (.data d))).2 := congrArg Prod.snd hstep.2.2
    rw [hout]
    simp only [handle, hc, atApp, App.handlePacket, c.handlePacket_data now hkind, hcollect]

/-! ### A name requested twice -/

section Pair

/-- One node, with a consumer at gate 0 and a producer of its prefix `/a` at gate 1. A Data of the
producer stays fresh for five seconds. -/
def pair : Setup Unit where
  forwarder _ := { forwarding := false, myMacAddress := ⟨1⟩ }
  app port :=
    if port.2 = 0 then
      some (.consumer { cPrefix := ['/'.toUInt8, 'a'.toUInt8], numInterests := 2 })
    else if port.2 = 1 then
      some (.producer { pPrefix := ['/'.toUInt8, 'a'.toUInt8], dataFreshness := 5000 })
    else none

/-- What the consumer draws each time: the name is `/a/1/0`. -/
def sameName : ConsumerAppBase.Draw :=
  ⟨0, 0, 1, 2, 3, 4⟩

/-- The Interest of a number. -/
def ask (n : ℕ) : Interest :=
  (ConsumerAppBase.createNextInterest
    { cPrefix := ['/'.toUInt8, 'a'.toUInt8], intSeqNo := n } 0 sameName).1

/-- The Data for the first Interest, as the forwarder received it. -/
def reply : Data :=
  { ProducerAppBase.dataFor
      { pPrefix := ['/'.toUInt8, 'a'.toUInt8], dataFreshness := 5000 } (ask 0) with
    arrivalGate := .upperLayerIn 1 }

/-- After one second the first Interest goes to the producer and the Data comes back. -/
def fetch : List (SimTime × Action Unit) :=
  [(0, .toForwarder ((), 1)
      (.interest { name := ['/'.toUInt8, 'a'.toUInt8], kind := REGISTER_PREFIX_CODE }) 0),
    (SimTime.ms 1000, .express ((), 0) sameName),
    (SimTime.ms 1000, .toForwarder ((), 0) (.interest (ask 0)) 0),
    (SimTime.ms 1000, .toApp ((), 1)
      (.interest { ask 0 with arrivalGate := .upperLayerIn 0 })),
    (SimTime.ms 1001, .toForwarder ((), 1)
      (.data { reply with arrivalGate := .upperLayerIn 0 }) 0)]

/-- The first Data answers the first Interest, and its round trip took a millisecond. -/
theorem reply_attributed_fetched :
    (∃ i : Interest, .interest i ∈ expressed ((), 0) (trace pair fetch) ∧ i.seqNo = reply.seqNo ∧
      i.name = reply.name) ∧
    ((stateAfter pair fetch).handle (SimTime.ms 1001) (.toApp ((), 0) (.data reply))).2 =
      .app ((), 0) [.collect (SimTime.ms 1) (SimTime.ms 1) 0 0] := by
  have hown : ∀ t ∈ trace pair (fetch ++ [(SimTime.ms 1001, .toApp ((), 0) (.data reply))]),
      AnswersOwn t := by decide
  obtain ⟨⟨i, hi, hnum, hname, -⟩, -, hrecorded⟩ := reply_attributed (run_trace (by decide)) hown
    (trace pair fetch) _ [] rfl (SimTime.ms 1001) ((), 0) reply rfl _ rfl
  obtain ⟨first, last, hfirst, hlast, hout⟩ := hrecorded (by decide) (by decide)
  have htimes : timesSent ((), 0) (trace pair fetch) reply.seqNo = [SimTime.ms 1000] := by decide
  rw [htimes] at hfirst hlast hout
  obtain rfl : SimTime.ms 1000 = first := Option.some.inj hfirst
  obtain rfl : SimTime.ms 1000 = last := Option.some.inj hlast
  exact ⟨⟨i, hi, hnum, hname⟩, hout⟩

/-- After another second the consumer asks again. -/
def fetchAgain : List (SimTime × Action Unit) :=
  fetch ++
    [(SimTime.ms 1001, .toApp ((), 0) (.data reply)),
      (SimTime.ms 2000, .express ((), 0) sameName),
      (SimTime.ms 2000, .toForwarder ((), 0) (.interest (ask 1)) 0)]

/-- The content store answers the second Interest with the Data for the first one, at once: the
consumer gets number 0 again, which was answered before, and records a second as the round-trip
time. -/
theorem cached_reply_misattributed :
    (actions pair).Run (trace pair fetchAgain) (stateAfter pair fetchAgain) ∧
    (stateAfter pair fetchAgain).Enabled (.toApp ((), 0) (.data reply)) ∧
    (¬ ∃ i : Interest, .interest i ∈ expressed ((), 0) (trace pair fetchAgain) ∧
      i.seqNo = reply.seqNo ∧ i.name = reply.name ∧
      ∀ d' ∈ answered ((), 0) (trace pair fetchAgain), d'.seqNo ≠ reply.seqNo) ∧
    ((stateAfter pair fetchAgain).handle (SimTime.ms 2000) (.toApp ((), 0) (.data reply))).2 =
      .app ((), 0) [.collect (SimTime.ms 1000) (SimTime.ms 1000) 0 0] := by
  have hanswered : answered ((), 0) (trace pair fetchAgain) = [reply] := by decide
  refine ⟨run_trace (by decide), by decide, ?_, rfl⟩
  rintro ⟨i, -, -, -, hnew⟩
  exact hnew reply (by simp [hanswered]) rfl

end Pair

end Network

end Inet.Ndn
