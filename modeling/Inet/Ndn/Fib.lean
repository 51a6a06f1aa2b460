import Inet.Ndn.Packets
import Inet.Foundations.ShadowFree
import Inet.Foundations.TransitionSystem

/-!
# The forwarding information base

`FibBase`: a list of prefixes, each with the gate and the MAC address of the next hop. `match` scans
the list from the front and stops at the first prefix of the name, whatever its length.

That the first hit is nevertheless the longest one (`match_finds_longest`) rests on the order in
which entries come in. A new prefix is inserted only when no entry matches: `registerPrefix` tests
the prefix itself, `create` the whole name the prefix is cut from, and an entry that is a prefix of
the cut would be a prefix of the name. So no entry is ever a prefix of a later one, which is
`ShadowFree`, and the library does the rest.

An expired entry is marked erased but stays in the list and keeps matching; `create` revives it.
-/

namespace Inet.Ndn

/-- `!strncmp(s, t, n)` for strings given without their terminating zero. -/
def strncmpEq : CString → CString → ℕ → Bool
  | _, _, 0 => true
  | [], [], _ + 1 => true
  | c :: s, d :: t, n + 1 => c == d && strncmpEq s t n
  | _, _, _ + 1 => false

/-- Comparing as many characters as the first string has is the prefix test. -/
theorem strncmpEq_length_iff (s t : CString) : strncmpEq s t s.length = true ↔ s <+: t := by
  induction s generalizing t with
  | nil => simp [strncmpEq]
  | cons c s ih =>
    cases t with
    | nil => simp [strncmpEq]
    | cons d t => simp [strncmpEq, ih, List.cons_prefix_cons]

/-- `IFib::FibEntry`. -/
structure FibEntry where
  macDest : MACAddress
  stringPrefix : CString
  face : Gate
  expireAt : SimTime
  erased : Bool
  deriving DecidableEq, Repr

/-- The constructor `FibEntry(prefix, face, dest, entryLifetime)`, at time `now`. -/
def FibEntry.make (now : SimTime) (stringPrefix : CString) (face : Gate) (dest : MACAddress)
    (entryLifetime : ℕ) : FibEntry where
  macDest := dest
  stringPrefix := stringPrefix
  face := face
  expireAt := now + SimTime.ms entryLifetime
  erased := false

/-- The test of `match` on one entry. -/
def FibEntry.matchesName (name : CString) (e : FibEntry) : Bool :=
  strncmpEq e.stringPrefix name e.stringPrefix.length

theorem FibEntry.matchesName_iff {name : CString} {e : FibEntry} :
    e.matchesName name = true ↔ e.stringPrefix <+: name :=
  strncmpEq_length_iff _ _

/-- `FibBase`, with the arrival time of its self-message `checkExpired` while it is scheduled. -/
structure FibBase where
  entries : List FibEntry := []
  maxSize : ℕ
  entryLifetime : ℕ
  checkExpired : Option SimTime := none
  numAdded : ℕ := 0
  numRemoved : ℕ := 0
  numMatched : ℕ := 0
  numMissed : ℕ := 0
  numExpired : ℕ := 0
  deriving DecidableEq, Repr

namespace FibBase

/-- `FibBase::match`: the index of the first entry that matches. -/
def matchIndex (fib : FibBase) (name : CString) : Option ℕ :=
  fib.entries.findIdx? (FibEntry.matchesName name)

/-- `FibBase::lookup`. A hit on an erased entry counts neither as a match nor as a miss. -/
def lookup (fib : FibBase) (name : CString) : Option FibEntry × FibBase :=
  match fib.matchIndex name with
  | some index =>
    match fib.entries[index]? with
    | some e =>
      if e.erased then (none, fib) else (some e, { fib with numMatched := fib.numMatched + 1 })
    | none => (none, fib)
  | none => (none, { fib with numMissed := fib.numMissed + 1 })

/-- `FibBase::registerPrefix`. -/
def registerPrefix (fib : FibBase) (now : SimTime) (stringPrefix : CString) (face : Gate)
    (dest : MACAddress) : Bool × FibBase :=
  if (fib.matchIndex stringPrefix).isNone ∧ fib.entries.length < fib.maxSize then
    (true,
      { fib with
        entries := fib.entries ++ [FibEntry.make now stringPrefix face dest 100000]
        numAdded := fib.numAdded + 1 })
  else (false, fib)

/-- `FibBase::create`. The new prefix is `std::string(name, length)`, which is defined when
`length` does not exceed the length of the name. -/
def create (fib : FibBase) (now : SimTime) (name : CString) (length : ℕ) (face : Gate)
    (dest : MACAddress) : Bool × FibBase :=
  match fib.matchIndex name with
  | some index =>
    -- erased or not, a matching entry is used again
    (true,
      { fib with
        entries := fib.entries.modify index fun e ↦
          { e with
            macDest := dest
            erased := false
            expireAt := now + SimTime.ms fib.entryLifetime } })
  | none =>
    if fib.maxSize ≤ fib.entries.length then (false, fib)
    else
      (true,
        { fib with
          entries := fib.entries ++ [FibEntry.make now (name.take length) face dest
            fib.entryLifetime]
          numAdded := fib.numAdded + 1
          checkExpired :=
            if fib.checkExpired.isNone then some (now + SimTime.ms 1000) else fib.checkExpired })

/-- `FibBase::remove`. -/
def remove (fib : FibBase) (stringPrefix : CString) : Bool × FibBase :=
  if fib.entries.any (·.stringPrefix == stringPrefix) then
    (true,
      { fib with
        entries := fib.entries.eraseP (·.stringPrefix == stringPrefix)
        numRemoved := fib.numRemoved + 1 })
  else (false, fib)

/-- The test of `cleanExpired`. -/
def isExpired (now : SimTime) (e : FibEntry) : Bool :=
  !e.erased && e.expireAt ≤ now

/-- `FibBase::cleanExpired`. Its signal only makes the forwarder print a line. -/
def cleanExpired (fib : FibBase) (now : SimTime) : FibBase :=
  { fib with
    entries := fib.entries.map fun e ↦ if isExpired now e then { e with erased := true } else e
    numExpired := fib.numExpired + (fib.entries.filter (isExpired now)).length }

/-- `FibBase::handleMessage` for the self-message. -/
def handleSelfMessage (fib : FibBase) (now : SimTime) : FibBase :=
  let fib := fib.cleanExpired now
  { fib with
    checkExpired := if fib.entries.isEmpty then none else some (now + SimTime.ms 1000) }

/-! ### The operations as a transition system -/

/-- The calls that change the table. -/
inductive Op
  | registerPrefix (now : SimTime) (stringPrefix : CString) (face : Gate) (dest : MACAddress)
  | create (now : SimTime) (name : CString) (length : ℕ) (face : Gate) (dest : MACAddress)
  | remove (stringPrefix : CString)
  | cleanExpired (now : SimTime)

/-- The table after a call. -/
def Op.apply (fib : FibBase) : Op → FibBase
  | .registerPrefix now stringPrefix face dest => (fib.registerPrefix now stringPrefix face dest).2
  | .create now name length face dest => (fib.create now name length face dest).2
  | .remove stringPrefix => (fib.remove stringPrefix).2
  | .cleanExpired now => fib.cleanExpired now

/-- The arguments a call may have: `create` cuts the prefix out of the name. -/
def Op.InRange : Op → Prop
  | .create _ name length _ _ => length ≤ name.length
  | _ => True

/-- A table after `initialize()`. -/
def IsInitial (fib : FibBase) : Prop :=
  ∃ maxSize entryLifetime, fib = { maxSize, entryLifetime }

/-- All sequences of calls with arguments in range. -/
def calls : TransitionSystem FibBase Op Unit where
  Init := IsInitial
  Step fib op _ fib' := op.InRange ∧ fib' = op.apply fib

/-! ### The order invariant -/

variable {fib : FibBase}

/-- A miss of `match` says that no entry matches. -/
theorem of_matchIndex_eq_none {name : CString} (h : fib.matchIndex name = none) {e : FibEntry}
    (he : e ∈ fib.entries) : ¬ e.stringPrefix <+: name := by
  rw [matchIndex, List.findIdx?_eq_none_iff] at h
  rw [← FibEntry.matchesName_iff, h e he]
  simp

/-- A hit of `match` splits the table at the first entry that matches. -/
theorem of_matchIndex_eq_some {name : CString} {index : ℕ} (h : fib.matchIndex name = some index) :
    ∃ l₁ e l₂, fib.entries = l₁ ++ e :: l₂ ∧ l₁.length = index ∧ e.stringPrefix <+: name ∧
      ∀ a ∈ l₁, ¬ a.stringPrefix <+: name := by
  obtain ⟨hlt, hhit, hbefore⟩ := List.findIdx?_eq_some_iff_getElem.1 h
  refine ⟨fib.entries.take index, fib.entries[index], fib.entries.drop (index + 1), ?_, ?_,
    FibEntry.matchesName_iff.1 hhit, fun a ha ↦ ?_⟩
  · rw [List.getElem_cons_drop, List.take_append_drop]
  · rw [List.length_take]
    omega
  · obtain ⟨j, hj, rfl⟩ := List.mem_iff_getElem.1 ha
    rw [List.length_take] at hj
    rw [List.getElem_take, ← FibEntry.matchesName_iff]
    exact hbefore j (by omega)

/-- No prefix in the table is a prefix of a later one. -/
def Ordered (fib : FibBase) : Prop :=
  ShadowFree FibEntry.stringPrefix fib.entries

/-- The update of an entry in place leaves its prefix alone. -/
theorem map_stringPrefix_modify (l : List FibEntry) (i : ℕ) {f : FibEntry → FibEntry}
    (hf : ∀ e, (f e).stringPrefix = e.stringPrefix) :
    (l.modify i f).map FibEntry.stringPrefix = l.map FibEntry.stringPrefix := by
  refine List.ext_getElem? fun j ↦ ?_
  rw [List.getElem?_map, List.getElem?_map, List.getElem?_modify]
  cases l[j]? with
  | none => rfl
  | some e => by_cases h : i = j <;> simp [h, hf]

theorem Ordered.registerPrefix (h : fib.Ordered) (now : SimTime) (p : CString) (face : Gate)
    (dest : MACAddress) : (fib.registerPrefix now p face dest).2.Ordered := by
  unfold FibBase.registerPrefix
  split
  · rename_i hmiss
    exact ShadowFree.append_singleton h fun a ha ↦
      of_matchIndex_eq_none (Option.isNone_iff_eq_none.1 hmiss.1) ha
  · exact h

theorem Ordered.create (h : fib.Ordered) (now : SimTime) (name : CString) (length : ℕ)
    (face : Gate) (dest : MACAddress) : (fib.create now name length face dest).2.Ordered := by
  unfold FibBase.create
  split
  · exact ShadowFree.of_map_eq h (map_stringPrefix_modify _ _ fun _ ↦ rfl)
  · rename_i hmiss
    split
    · exact h
    · -- a prefix of the cut would be a prefix of the name, which nothing matched
      exact ShadowFree.append_singleton h fun a ha hcut ↦
        of_matchIndex_eq_none hmiss ha (hcut.trans (List.take_prefix length name))

theorem Ordered.remove (h : fib.Ordered) (p : CString) : (fib.remove p).2.Ordered := by
  unfold FibBase.remove
  split
  · exact ShadowFree.sublist h List.eraseP_sublist
  · exact h

theorem Ordered.cleanExpired (h : fib.Ordered) (now : SimTime) :
    (fib.cleanExpired now).Ordered := by
  refine ShadowFree.of_map_eq h ?_
  show (fib.entries.map _).map FibEntry.stringPrefix = _
  rw [List.map_map]
  refine List.map_congr_left fun e _ ↦ ?_
  simp only [Function.comp_apply]
  split <;> rfl

/-- Every call keeps the order. -/
theorem Ordered.apply (h : fib.Ordered) (op : Op) : (op.apply fib).Ordered := by
  cases op with
  | registerPrefix now p face dest => exact h.registerPrefix now p face dest
  | create now name length face dest => exact h.create now name length face dest
  | remove p => exact h.remove p
  | cleanExpired now => exact h.cleanExpired now

/-- Any list of calls with arguments in range leads to a reachable table. -/
theorem reachable_foldl {fib₀ : FibBase} (h₀ : IsInitial fib₀) {ops : List Op}
    (hops : ∀ op ∈ ops, op.InRange) : calls.Reachable (ops.foldl Op.apply fib₀) := by
  induction ops using List.reverseRecOn with
  | nil => exact ⟨[], .nil h₀⟩
  | append_singleton ops op ih =>
    obtain ⟨tr, hrun⟩ := ih fun o ho ↦ hops o (List.mem_append_left _ ho)
    rw [List.foldl_append]
    exact ⟨_, hrun.snoc (o := ()) ⟨hops op (by simp), rfl⟩⟩

/-- The order holds in every reachable table. -/
theorem ordered_of_reachable (h : calls.Reachable fib) : fib.Ordered := by
  obtain ⟨tr, hrun⟩ := h
  refine hrun.invariant ?_ ?_
  · rintro s ⟨maxSize, entryLifetime, rfl⟩
    exact ShadowFree.nil
  · rintro s op - s' hs ⟨-, rfl⟩
    exact hs.apply op

/-- **First match is longest match.** In every reachable table, a name that some entry matches is
answered by an entry with the longest matching prefix, and no two entries hold the same prefix. -/
theorem match_finds_longest (h : calls.Reachable fib) :
    (∀ name, (∃ e ∈ fib.entries, e.stringPrefix <+: name) →
      ∃ index e, fib.matchIndex name = some index ∧ fib.entries[index]? = some e ∧
        e.stringPrefix <+: name ∧
        ∀ e' ∈ fib.entries, e'.stringPrefix <+: name →
          e'.stringPrefix.length ≤ e.stringPrefix.length) ∧
      (fib.entries.map FibEntry.stringPrefix).Nodup := by
  have hord := ordered_of_reachable h
  refine ⟨fun name ⟨e₀, he₀, hpre₀⟩ ↦ ?_, hord.nodup_words⟩
  cases hm : fib.matchIndex name with
  | none => exact absurd hpre₀ (of_matchIndex_eq_none hm he₀)
  | some index =>
    obtain ⟨l₁, e, l₂, hl, hlen, hpre, hbefore⟩ := of_matchIndex_eq_some hm
    refine ⟨index, e, rfl, ?_, hpre, fun e' he' hpre' ↦ ?_⟩
    · rw [hl, List.getElem?_append_right (by omega), hlen, Nat.sub_self, List.getElem?_cons_zero]
    · rw [Ordered, hl] at hord
      rw [hl] at he'
      exact hord.length_le_of_first hbefore hpre he' hpre'

/-- Two nested prefixes, the longer one registered first: both match a name below them, and the
scan stops at the longer. -/
theorem match_finds_longest_nested :
    let fib : FibBase := [Op.registerPrefix 0 [47, 97, 47, 98] (.upperLayerIn 0) ⟨1⟩,
      Op.registerPrefix 0 [47, 97] (.upperLayerIn 1) ⟨1⟩].foldl Op.apply
        { maxSize := 50, entryLifetime := 10000 }
    (∃ e ∈ fib.entries, e.stringPrefix <+: [47, 97, 47, 98, 47, 99] ∧ e.stringPrefix.length = 2) ∧
      ∃ index e, fib.matchIndex [47, 97, 47, 98, 47, 99] = some index ∧
        fib.entries[index]? = some e ∧ e.stringPrefix <+: [47, 97, 47, 98, 47, 99] ∧
        ∀ e' ∈ fib.entries, e'.stringPrefix <+: [47, 97, 47, 98, 47, 99] →
          e'.stringPrefix.length ≤ e.stringPrefix.length := by
  intro fib
  have hreach : calls.Reachable fib := reachable_foldl ⟨50, 10000, rfl⟩ (by simp [Op.InRange])
  have hhit : ∃ e ∈ fib.entries, e.stringPrefix <+: [47, 97, 47, 98, 47, 99] ∧
      e.stringPrefix.length = 2 := by decide
  refine ⟨hhit, (match_finds_longest hreach).1 _ ?_⟩
  obtain ⟨e, he, hpre, -⟩ := hhit
  exact ⟨e, he, hpre⟩

end FibBase

end Inet.Ndn
