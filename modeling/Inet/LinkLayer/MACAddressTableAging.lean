import Inet.Foundations.TransitionSystem
import Inet.LinkLayer.MACAddressTable

/-!
# Aged entries in the address table

A new entry makes the table remove its aged entries if at least one second has passed since the last
time, but the time stamp is renewed by every new entry, also by one that removes nothing. So a burst
of new addresses (`burstStart`) keeps what has aged since it began: what is left at any time had not
aged when the burst began (`aging_of_run`), and the bound of one second is kept as long as no burst
lasts longer (`keepsNoAged_of_shortBursts`).
-/

namespace Inet

namespace MACAddressTable

variable {agingTime bound now : SimTime} {addressTableFile : List (ℕ × MACAddress × ℤ)}
  {s s' : MACAddressTable} {vid : ℕ} {address : MACAddress}

/-! ### Bursts -/

/-- The start of the last burst among some times, newest first: there is less than one second
between a time of a burst and the next. -/
def burstStart : List SimTime → SimTime
  | [] => 0
  | t :: ts => if ts.headD 0 + SimTime.ms 1000 ≤ t then t else burstStart ts

/-- No burst lasts longer than one second. -/
def ShortBursts (times : List SimTime) : Prop :=
  ∀ ts ∈ times.tails, ts.headD 0 ≤ burstStart ts + SimTime.ms 1000

instance : DecidablePred ShortBursts :=
  fun times ↦ inferInstanceAs (Decidable (∀ ts ∈ times.tails, _))

/-! ### Calls -/

/-- A call of the table. -/
inductive Call
  | updateTableWithAddress (portno : ℤ) (address : MACAddress) (vid : ℕ)
  | getPortForAddress (address : MACAddress) (vid : ℕ)
  | flush (portno : ℤ)
  | copyTable (portA portB : ℤ)
  deriving DecidableEq, Repr

/-- The call is made. -/
def call (now : SimTime) (c : Call) (s : MACAddressTable) :
    Except MACAddressTableError MACAddressTable :=
  match c with
  | .updateTableWithAddress portno address vid =>
    (s.updateTableWithAddress now portno address vid).map Prod.snd
  | .getPortForAddress address vid => (s.getPortForAddress now address vid).map Prod.snd
  | .flush portno => s.flush portno
  | .copyTable portA portB => s.copyTable portA portB

/-- The call makes a new entry. -/
def Inserts (s : MACAddressTable) : Call → Prop
  | .updateTableWithAddress _ address vid =>
    address ≠ .BROADCAST_ADDRESS ∧ s.lookup vid address = none
  | _ => False

instance (s : MACAddressTable) : DecidablePred s.Inserts
  | .updateTableWithAddress _ address vid =>
    inferInstanceAs (Decidable (address ≠ .BROADCAST_ADDRESS ∧ s.lookup vid address = none))
  | .getPortForAddress _ _ | .flush _ | .copyTable _ _ => inferInstanceAs (Decidable False)

/-- No entry had aged before some time. -/
def Young (bound : SimTime) (s : MACAddressTable) : Prop :=
  ∀ vid address entry, s.lookup vid address = some entry →
    bound ≤ entry.insertionTime + s.agingTime

theorem Young.of_lookup (h : Young bound s) (hagingTime : s'.agingTime = s.agingTime)
    (hlookup : ∀ vid address entry, s'.lookup vid address = some entry →
      ∃ entry', s.lookup vid address = some entry' ∧ entry'.insertionTime = entry.insertionTime) :
    Young bound s' := by
  intro vid address entry hentry
  obtain ⟨entry', hentry', htime⟩ := hlookup vid address entry hentry
  rw [hagingTime, ← htime]
  exact h vid address entry' hentry'

/-- An address has been seen, and the other entries were young. -/
theorem Seen.young {portno : ℤ} (h : Seen now portno address vid s s') (hbound : bound ≤ now)
    (hothers : ∀ vid' address' entry, (vid', address') ≠ (vid, address) →
      s'.lookup vid' address' = some entry → bound ≤ entry.insertionTime + s.agingTime) :
    Young bound s' := by
  intro vid' address' entry' hentry'
  rw [h.agingTime]
  by_cases hsame : (vid', address') = (vid, address)
  · obtain ⟨rfl, rfl⟩ := Prod.ext_iff.1 hsame
    obtain ⟨entry, hentry, -, htime⟩ := h.entry
    obtain rfl := Option.some.inj (hentry.symm.trans hentry')
    rw [htime]
    exact hbound.trans (Nat.le_add_right _ _)
  · exact hothers vid' address' entry' hsame hentry'

theorem Seen.young_of_young {portno : ℤ} (h : Seen now portno address vid s s')
    (hyoung : Young bound s) (hbound : bound ≤ now) : Young bound s' := by
  refine h.young hbound fun vid' address' entry hne hentry ↦ ?_
  rcases h.other vid' address' hne with heq | ⟨hnone, -⟩
  · exact hyoung vid' address' entry (heq ▸ hentry)
  · rw [hnone] at hentry
    cases hentry

/-- What a call does to the age of the entries. -/
structure CallKeeps (now : SimTime) (c : Call) (s s' : MACAddressTable) : Prop where
  valid : Valid s'
  agingTime : s'.agingTime = s.agingTime
  lastPurge : s'.lastPurge = if s.Inserts c then now else s.lastPurge
  young : ∀ bound ≤ now, Young bound s → Young bound s'
  purged : s.Inserts c → s.lastPurge + SimTime.ms 1000 ≤ now → Young now s'

/-- **One call** does not fail. -/
theorem Valid.call (h : Valid s) (now : SimTime) (c : Call) :
    ∃ s', s.call now c = .ok s' ∧ CallKeeps now c s s' := by
  cases c with
  | updateTableWithAddress portno address vid =>
    by_cases haddress : address = .BROADCAST_ADDRESS
    · have hnot : ¬ s.Inserts (.updateTableWithAddress portno address vid) :=
        fun hinserts ↦ hinserts.1 haddress
      refine ⟨s, ?_, h, rfl, (if_neg hnot).symm, fun _ _ hyoung ↦ hyoung, fun h ↦ absurd h hnot⟩
      rw [MACAddressTable.call, haddress, updateTableWithAddress_broadcast]
      rfl
    · obtain ⟨s', hok, hseen, hnew, hold⟩ := h.updateTableWithAddress now portno vid haddress
      refine ⟨s', ?_, hseen.valid, hseen.agingTime, ?_,
        fun bound hbound hyoung ↦ hseen.young_of_young hyoung hbound, fun hinserts hdue ↦ ?_⟩
      · rw [MACAddressTable.call, hok]
        rfl
      · split_ifs with hinserts
        · exact (hnew hinserts.2).lastPurge
        · exact hold fun hnone ↦ hinserts ⟨haddress, hnone⟩
      · refine hseen.young le_rfl fun vid' address' entry hne hentry ↦ ?_
        have hfresh := (hnew hinserts.2).fresh hdue vid' address' entry hne hentry
        exact (not_le.1 (of_decide_eq_false hfresh)).le
  | getPortForAddress address vid =>
    obtain ⟨s', hok, hvalid, hthins, hpurge⟩ := h.getPortForAddress now address vid
    refine ⟨s', ?_, hvalid, hthins.agingTime, hpurge, fun bound _ hyoung ↦ ?_, fun h ↦ h.elim⟩
    · rw [MACAddressTable.call, hok]
      rfl
    · exact hyoung.of_lookup hthins.agingTime fun _ _ entry hentry ↦
        ⟨entry, hthins.lookup_eq_some hentry, rfl⟩
  | flush portno =>
    obtain ⟨heap, hok, hvalid, hlookup⟩ := h.flush portno
    refine ⟨_, hok, hvalid, rfl, rfl, fun bound _ hyoung ↦ ?_, fun h ↦ h.elim⟩
    refine hyoung.of_lookup rfl fun vid address entry hentry ↦ ⟨entry, ?_, rfl⟩
    rw [hlookup] at hentry
    exact (Option.filter_eq_some_iff.1 hentry).1
  | copyTable portA portB =>
    obtain ⟨heap, hok, hvalid, hlookup⟩ := h.copyTable portA portB
    refine ⟨_, hok, hvalid, rfl, rfl, fun bound _ hyoung ↦ ?_, fun h ↦ h.elim⟩
    refine hyoung.of_lookup rfl fun vid address entry hentry ↦ ?_
    rw [hlookup] at hentry
    obtain ⟨entry', hentry', rfl⟩ := Option.map_eq_some_iff.1 hentry
    refine ⟨entry', hentry', ?_⟩
    split_ifs <;> rfl

/-! ### Runs -/

/-- A table, and the time of the last call. -/
structure TimedTable where
  table : MACAddressTable
  now : SimTime

/-- The calls of a table, at times that do not descend. -/
def callSystem (agingTime : SimTime) (addressTableFile : List (ℕ × MACAddress × ℤ)) :
    TransitionSystem TimedTable (SimTime × Call) Unit where
  Init s := initialized agingTime addressTableFile = .ok s.table ∧ s.now = 0
  Step s i _ s' := s.now ≤ i.1 ∧ s.table.call i.1 i.2 = .ok s'.table ∧ s'.now = i.1

/-- The times of the new entries, newest first. -/
def insertionTimes (tr : List (Transition TimedTable (SimTime × Call) Unit)) : List SimTime :=
  ((tr.filter fun t ↦ t.pre.table.Inserts t.input.2).map fun t ↦ t.input.1).reverse

/-- What there is after a run: no entry had aged when the last burst of new addresses began. -/
structure Aging (agingTime : SimTime) (tr : List (Transition TimedTable (SimTime × Call) Unit))
    (s : TimedTable) : Prop where
  valid : Valid s.table
  agingTime : s.table.agingTime = agingTime
  lastPurge : s.table.lastPurge = (insertionTimes tr).headD 0
  burstStart_le : burstStart (insertionTimes tr) ≤ s.now
  young : Young (burstStart (insertionTimes tr)) s.table

variable {tr : List (Transition TimedTable (SimTime × Call) Unit)} {e : TimedTable}

theorem insertionTimes_append (tr₁ tr₂ : List (Transition TimedTable (SimTime × Call) Unit)) :
    insertionTimes (tr₁ ++ tr₂) = insertionTimes tr₂ ++ insertionTimes tr₁ := by
  rw [insertionTimes, List.filter_append, List.map_append, List.reverse_append]
  rfl

theorem insertionTimes_concat (tr : List (Transition TimedTable (SimTime × Call) Unit))
    (t : Transition TimedTable (SimTime × Call) Unit) : insertionTimes (tr ++ [t]) =
      if t.pre.table.Inserts t.input.2 then t.input.1 :: insertionTimes tr
      else insertionTimes tr := by
  rw [insertionTimes_append, insertionTimes, List.filter_singleton]
  split_ifs with hinserts
  · rw [decide_eq_true hinserts]
    rfl
  · rw [decide_eq_false hinserts]
    rfl

/-- **Bursts and entries**, after any calls. -/
theorem aging_of_run (h : (callSystem agingTime addressTableFile).Run tr e) :
    Aging agingTime tr e := by
  refine h.history (P := Aging agingTime) (fun s hinit ↦ ?_) fun tr s i o s' _ hs hstep ↦ ?_
  · obtain ⟨table, hok, hvalid, haging, hpurge, -, -⟩ := initialized_ok agingTime addressTableFile
    obtain rfl := Except.ok.inj (hok.symm.trans hinit.1)
    exact ⟨hvalid, haging, hpurge, Nat.zero_le _, fun _ _ _ _ ↦ Nat.zero_le _⟩
  · obtain ⟨hle, hcall, hnow⟩ := hstep
    obtain ⟨table, hok, hkeeps⟩ := hs.valid.call i.1 i.2
    obtain rfl := Except.ok.inj (hok.symm.trans hcall)
    have hbefore := hs.burstStart_le.trans hle
    have htimes := insertionTimes_concat tr ⟨s, i, o, s'⟩
    by_cases hinserts : s.table.Inserts i.2
    · rw [if_pos hinserts] at htimes
      have hpurge := hkeeps.lastPurge
      rw [if_pos hinserts] at hpurge
      by_cases hdue : s.table.lastPurge + SimTime.ms 1000 ≤ i.1
      · -- a burst begins
        have hstart : burstStart (insertionTimes (tr ++ [⟨s, i, o, s'⟩])) = i.1 := by
          rw [htimes, burstStart, ← hs.lastPurge, if_pos hdue]
        refine ⟨hkeeps.valid, hkeeps.agingTime.trans hs.agingTime, ?_, ?_, ?_⟩
        · rw [htimes, hpurge]
          rfl
        · rw [hstart, hnow]
        · rw [hstart]
          exact hkeeps.purged hinserts hdue
      · -- the burst goes on, and nothing is removed
        have hstart : burstStart (insertionTimes (tr ++ [⟨s, i, o, s'⟩])) =
            burstStart (insertionTimes tr) := by
          rw [htimes, burstStart, ← hs.lastPurge, if_neg hdue]
        refine ⟨hkeeps.valid, hkeeps.agingTime.trans hs.agingTime, ?_, ?_, ?_⟩
        · rw [htimes, hpurge]
          rfl
        · rw [hstart, hnow]
          exact hbefore
        · rw [hstart]
          exact hkeeps.young _ hbefore hs.young
    · rw [if_neg hinserts] at htimes
      have hpurge := hkeeps.lastPurge
      rw [if_neg hinserts] at hpurge
      refine ⟨hkeeps.valid, hkeeps.agingTime.trans hs.agingTime, ?_, ?_, ?_⟩
      · rw [htimes, hpurge, hs.lastPurge]
      · rw [htimes, hnow]
        exact hbefore
      · rw [htimes]
        exact hkeeps.young _ hbefore hs.young

/-- After a new entry there is none that had aged more than one second before. -/
def KeepsNoAged (agingTime : SimTime)
    (tr : List (Transition TimedTable (SimTime × Call) Unit)) : Prop :=
  ∀ t ∈ tr, t.pre.table.Inserts t.input.2 → ∀ vid address entry,
    t.post.table.lookup vid address = some entry →
      t.input.1 ≤ entry.insertionTime + agingTime + SimTime.ms 1000

/-- The bound of one second is kept as long as no burst of new addresses lasts longer. -/
theorem keepsNoAged_of_shortBursts (h : (callSystem agingTime addressTableFile).Run tr e)
    (hbursts : ShortBursts (insertionTimes tr)) : KeepsNoAged agingTime tr := by
  intro t ht hinserts vid address entry hentry
  obtain ⟨tr₁, tr₂, rfl, hpre, htakes, -⟩ := h.eq_append_of_mem ht
  have haging := aging_of_run (hpre.snoc htakes)
  have hyoung := haging.young vid address entry hentry
  rw [haging.agingTime] at hyoung
  -- the new entry is the last of a stretch of the insertions
  have hstretch : insertionTimes (tr₁ ++ [t]) <:+ insertionTimes (tr₁ ++ t :: tr₂) := by
    rw [List.append_cons tr₁ t tr₂, insertionTimes_append (tr₁ ++ [t]) tr₂]
    exact List.suffix_append _ _
  have hburst := hbursts _ ((List.mem_tails _ _).2 hstretch)
  have hhead : (insertionTimes (tr₁ ++ [t])).headD 0 = t.input.1 := by
    rw [insertionTimes_concat, if_pos hinserts]
    rfl
  rw [hhead] at hburst
  exact hburst.trans (Nat.add_le_add_right hyoung _)

/-! ### Streams of new addresses -/

/-- One call of a table at some time. -/
def timedCall (s : TimedTable) (i : SimTime × Call) : Except MACAddressTableError TimedTable :=
  (s.table.call i.1 i.2).map fun table ↦ ⟨table, i.1⟩

/-- What a list of calls does to a new table. -/
def trace (agingTime : SimTime) (calls : List (SimTime × Call)) :
    List (Transition TimedTable (SimTime × Call) Unit) :=
  TransitionSystem.transitionsOf (TransitionSystem.orStay timedCall) ⟨constructed agingTime, 0⟩
    calls

theorem run_trace (agingTime : SimTime) (calls : List (SimTime × Call))
    (h : ∀ t ∈ trace agingTime calls, t.pre.now ≤ t.input.1 ∧
      (timedCall t.pre t.input).toOption.isSome) :
    ∃ e, (callSystem agingTime []).Run (trace agingTime calls) e := by
  refine ⟨_, .ofFallible (C := fun s i ↦ s.now ≤ i.1) ⟨rfl, rfl⟩ (fun s i s' hle hok ↦ ?_)
    fun t ht ↦ ⟨(h t ht).1, eq_ok_getD (h t ht).2 _⟩⟩
  obtain ⟨table, hcall, rfl⟩ := exists_of_map_eq_ok hok
  exact ⟨hle, hcall, rfl⟩

/-- New addresses come at a steady rate. -/
def steadyStream (interval : SimTime) (n : ℕ) : List (SimTime × Call) :=
  (List.range n).map fun i ↦ (interval * (i + 1), .updateTableWithAddress 0 ⟨i⟩ 0)

/-- There is no burst when new addresses come every second. -/
theorem keepsNoAged_everySecond :
    KeepsNoAged (SimTime.ms 1000) (trace (SimTime.ms 1000) (steadyStream (SimTime.ms 1000) 4)) := by
  obtain ⟨e, hrun⟩ := run_trace (SimTime.ms 1000) (steadyStream (SimTime.ms 1000) 4)
    (by decide +kernel)
  exact keepsNoAged_of_shortBursts hrun (by decide +kernel)

/-- When they come every 0.9 s, nothing is ever removed. -/
theorem not_keepsNoAged_everyNineTenths :
    ¬ ∀ (agingTime : SimTime) (addressTableFile : List (ℕ × MACAddress × ℤ))
      (tr : List (Transition TimedTable (SimTime × Call) Unit)) (e : TimedTable),
      (callSystem agingTime addressTableFile).Run tr e → KeepsNoAged agingTime tr := by
  intro h
  obtain ⟨e, hrun⟩ := run_trace (SimTime.ms 1000) (steadyStream (SimTime.ms 900) 4)
    (by decide +kernel)
  have hkeeps := h _ _ _ _ hrun
  -- the entry of the first address is still there at the fourth
  have hold := hkeeps (trace (SimTime.ms 1000) (steadyStream (SimTime.ms 900) 4))[3]
    (List.getElem_mem (by decide +kernel)) (by decide +kernel) 0 ⟨0⟩ ⟨0, 0, SimTime.ms 900⟩
    (by decide +kernel)
  revert hold
  decide +kernel

end MACAddressTable

end Inet
