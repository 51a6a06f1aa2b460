import Inet.Foundations.Words
import Inet.Ndn.Fib
import Inet.Ndn.Tools

/-!
# What a lookup finds

`match` stops at the longest matching prefix (`isLongestMatch_iff`), so `lookup` and `create` are
decided by one entry. Three things follow that are not what a forwarder would want:

* the comparison is of bytes, and the prefix found may end inside a component of the name;
* the entry found may be erased, and then `lookup` fails though a shorter prefix is live;
* erased entries take up room, and `create` revives one with the face it had before.

Each theorem below says exactly when this does not happen.
-/

namespace Inet.Ndn.FibBase

open Tools

variable {fib : FibBase} {name : CString} {e e' : FibEntry} {index : ℕ}

/-- The entry with the longest prefix among those that match, erased ones included. -/
structure IsLongestMatch (fib : FibBase) (name : CString) (e : FibEntry) : Prop where
  mem : e ∈ fib.entries
  hit : e.stringPrefix <+: name
  longest : ∀ e' ∈ fib.entries, e'.stringPrefix <+: name →
    e'.stringPrefix.length ≤ e.stringPrefix.length

/-- No two entries hold the same prefix. -/
theorem Ordered.eq_of_stringPrefix_eq (h : fib.Ordered) (he : e ∈ fib.entries)
    (he' : e' ∈ fib.entries) (heq : e.stringPrefix = e'.stringPrefix) : e = e' :=
  List.inj_on_of_nodup_map h.nodup_words he he' heq

/-- There is at most one longest match. -/
theorem IsLongestMatch.unique (h : fib.IsLongestMatch name e) (hord : fib.Ordered)
    (h' : fib.IsLongestMatch name e') : e = e' := by
  have hlen : e.stringPrefix.length = e'.stringPrefix.length :=
    le_antisymm (h'.longest e h.mem h.hit) (h.longest e' h'.mem h'.hit)
  exact hord.eq_of_stringPrefix_eq h.mem h'.mem
    (List.prefix_of_prefix_length_le h.hit h'.hit hlen.le |>.eq_of_length hlen)

/-- `match` finds the longest match. -/
theorem isLongestMatch_of_matchIndex (h : fib.Ordered) (hm : fib.matchIndex name = some index) :
    ∃ e, fib.entries[index]? = some e ∧ fib.IsLongestMatch name e := by
  obtain ⟨l₁, e, l₂, hl, hlen, hpre, hbefore⟩ := of_matchIndex_eq_some hm
  rw [Ordered, hl] at h
  refine ⟨e, ?_, ?_, hpre, fun e' he' hpre' ↦ ?_⟩
  · rw [hl, List.getElem?_append_right hlen.le, hlen, Nat.sub_self, List.getElem?_cons_zero]
  · rw [hl]
    exact List.mem_append_right _ List.mem_cons_self
  · rw [hl] at he'
    exact h.length_le_of_first hbefore hpre he' hpre'

/-- There is a longest match as soon as there is a match. -/
theorem exists_isLongestMatch (h : fib.Ordered) (he : e ∈ fib.entries)
    (hpre : e.stringPrefix <+: name) :
    ∃ index e', fib.matchIndex name = some index ∧ fib.entries[index]? = some e' ∧
      fib.IsLongestMatch name e' := by
  obtain hm | ⟨index, hm⟩ := Option.eq_none_or_eq_some (fib.matchIndex name)
  · exact absurd hpre (of_matchIndex_eq_none hm he)
  · obtain ⟨e', hget, hlongest⟩ := isLongestMatch_of_matchIndex h hm
    exact ⟨index, e', hm, hget, hlongest⟩

/-- **`match` stops at the longest match.** -/
theorem isLongestMatch_iff (h : fib.Ordered) :
    fib.IsLongestMatch name e ↔
      ∃ index, fib.matchIndex name = some index ∧ fib.entries[index]? = some e := by
  constructor
  · intro he
    obtain ⟨index, e', hm, hget, he'⟩ := exists_isLongestMatch h he.mem he.hit
    exact ⟨index, hm, by rw [hget, he.unique h he']⟩
  · rintro ⟨index, hm, hget⟩
    obtain ⟨e', hget', he'⟩ := isLongestMatch_of_matchIndex h hm
    rw [hget] at hget'
    exact Option.some.inj hget' ▸ he'

/-- `lookup` returns the longest match, unless it is erased. -/
theorem lookup_eq_some_iff (h : fib.Ordered) :
    (fib.lookup name).1 = some e ↔ fib.IsLongestMatch name e ∧ e.erased = false := by
  rw [isLongestMatch_iff h, lookup]
  obtain hm | ⟨index, hm⟩ := Option.eq_none_or_eq_some (fib.matchIndex name)
  · simp [hm]
  · obtain ⟨e', hget, -⟩ := isLongestMatch_of_matchIndex h hm
    obtain herased | herased := Bool.eq_false_or_eq_true e'.erased
    · simp only [hm, hget, herased, if_true]
      grind
    · simp only [hm, hget, herased, Bool.false_eq_true, if_false]
      grind

/-! ### Components -/

theorem components_eq_words (name : CString) : components name = words '/'.toUInt8 name :=
  rfl

/-- The name goes on after the prefix, if at all, with a new component. -/
def EndsComponent (stringPrefix name : CString) : Prop :=
  CutBetweenWords '/'.toUInt8 stringPrefix (name.drop stringPrefix.length)

theorem components_isPrefix_iff {p : CString} (h : p <+: name) :
    components p <+: components name ↔ EndsComponent p name := by
  obtain ⟨rest, rfl⟩ := h
  rw [components_eq_words, components_eq_words, words_isPrefix_iff, EndsComponent, List.drop_left]

/-- **Matching and components.** What `lookup` finds for a name begins with whole components of the
name exactly when the longest matching prefix, if its entry is live, ends where a component does;
and what `create` refreshes, when this is so for the longest matching prefix of any entry. -/
theorem lookup_respects_components_iff (h : calls.Reachable fib) (name : CString) :
    ((∀ e, (fib.lookup name).1 = some e → components e.stringPrefix <+: components name) ↔
      ∀ e, fib.IsLongestMatch name e → e.erased = false → EndsComponent e.stringPrefix name) ∧
    ((∀ index e, fib.matchIndex name = some index → fib.entries[index]? = some e →
        components e.stringPrefix <+: components name) ↔
      ∀ e, fib.IsLongestMatch name e → EndsComponent e.stringPrefix name) := by
  have hord := ordered_of_reachable h
  constructor
  · refine forall_congr' fun e ↦ ?_
    rw [lookup_eq_some_iff hord, and_imp]
    exact imp_congr_right fun he ↦ imp_congr_right fun _ ↦ components_isPrefix_iff he.hit
  · rw [forall_comm]
    refine forall_congr' fun e ↦ ?_
    rw [isLongestMatch_iff hord]
    constructor
    · rintro hall ⟨index, hm, hget⟩
      exact (components_isPrefix_iff ((isLongestMatch_iff hord).2 ⟨index, hm, hget⟩).hit).1
        (hall index hm hget)
    · intro hall index hm hget
      exact (components_isPrefix_iff ((isLongestMatch_iff hord).2 ⟨index, hm, hget⟩).hit).2
        (hall ⟨index, hm, hget⟩)

/-- `/a/1` and a name below it. -/
theorem lookup_respects_components_iff_below :
    let fib : FibBase := [Op.create 0 [47, 97, 47, 49] 4 (.lowerLayerIn 0) ⟨1⟩].foldl Op.apply
      { maxSize := 50, entryLifetime := 10000 }
    ∀ e, (fib.lookup [47, 97, 47, 49, 47, 53]).1 = some e →
      components e.stringPrefix <+: components [47, 97, 47, 49, 47, 53] := by
  intro fib
  have hreach : calls.Reachable fib := reachable_foldl ⟨50, 10000, rfl⟩ (by simp [Op.InRange])
  refine (lookup_respects_components_iff hreach _).1.2 fun e he _ ↦ ?_
  have hmem : e ∈ [FibEntry.make 0 [47, 97, 47, 49] (.lowerLayerIn 0) ⟨1⟩ 10000] := he.mem
  rw [List.mem_singleton] at hmem
  subst hmem
  intro c _ d hd
  exact .inr (Option.some.inj hd).symm

/-- `/a/1` is found for `/a/10`. -/
theorem lookup_breaks_components :
    let fib : FibBase := [Op.create 0 [47, 97, 47, 49] 4 (.lowerLayerIn 0) ⟨1⟩].foldl Op.apply
      { maxSize := 50, entryLifetime := 10000 }
    calls.Reachable fib ∧ ∃ e, (fib.lookup [47, 97, 47, 49, 48]).1 = some e ∧
      ¬components e.stringPrefix <+: components [47, 97, 47, 49, 48] := by
  intro fib
  refine ⟨reachable_foldl ⟨50, 10000, rfl⟩ (by simp [Op.InRange]), ?_⟩
  exact ⟨FibEntry.make 0 [47, 97, 47, 49] (.lowerLayerIn 0) ⟨1⟩ 10000, rfl, by decide⟩

/-! ### Erased entries -/

/-- A lookup is not misled by erased entries. -/
def FindsLive (fib : FibBase) (name : CString) : Prop :=
  ((∃ e ∈ fib.entries, e.erased = false ∧ e.stringPrefix <+: name) →
    ∃ e ∈ fib.entries, (fib.lookup name).1 = some e ∧ e.erased = false ∧
      e.stringPrefix <+: name ∧
      ∀ e' ∈ fib.entries, e'.erased = false → e'.stringPrefix <+: name →
        e'.stringPrefix.length ≤ e.stringPrefix.length) ∧
  ((fib.lookup name).1 = none →
    ∀ e ∈ fib.entries, e.stringPrefix <+: name → e.erased = true)

/-- **When a live entry is found.** Exactly when the longest match is live, or no match is. -/
theorem findsLive_iff (h : calls.Reachable fib) (name : CString) :
    fib.FindsLive name ↔ ∀ e, fib.IsLongestMatch name e → e.erased = true →
      ∀ e' ∈ fib.entries, e'.stringPrefix <+: name → e'.erased = true := by
  have hord := ordered_of_reachable h
  constructor
  · intro hfinds e he herased e' he' hpre'
    by_contra hlive
    obtain ⟨e₁, -, hlook, hlive₁, -⟩ := hfinds.1 ⟨e', he', Bool.eq_false_of_not_eq_true hlive, hpre'⟩
    have heq := he.unique hord ((lookup_eq_some_iff hord).1 hlook).1
    rw [heq, hlive₁] at herased
    exact Bool.false_ne_true herased
  · intro hall
    have hfound : ∀ e ∈ fib.entries, e.erased = false → e.stringPrefix <+: name →
        ∃ e', (fib.lookup name).1 = some e' ∧ fib.IsLongestMatch name e' ∧ e'.erased = false := by
      intro e he hlive hpre
      obtain ⟨-, e', -, -, he'⟩ := exists_isLongestMatch hord he hpre
      have hlive' : e'.erased = false := Bool.eq_false_of_not_eq_true fun herased ↦
        Bool.false_ne_true (hlive.symm.trans (hall e' he' herased e he hpre))
      exact ⟨e', (lookup_eq_some_iff hord).2 ⟨he', hlive'⟩, he', hlive'⟩
    refine ⟨?_, fun hnone e he hpre ↦ ?_⟩
    · rintro ⟨e, he, hlive, hpre⟩
      obtain ⟨e', hlook, he', hlive'⟩ := hfound e he hlive hpre
      exact ⟨e', he'.mem, hlook, hlive', he'.hit, fun e₁ he₁ _ ↦ he'.longest e₁ he₁⟩
    · refine Bool.eq_true_of_not_eq_false fun hlive ↦ ?_
      obtain ⟨e', hlook, -⟩ := hfound e he hlive hpre
      rw [hnone] at hlook
      exact Option.some_ne_none e' hlook.symm

/-- Both prefixes of a name are live, and the longer one is found. -/
theorem findsLive_iff_nested :
    let fib : FibBase := [Op.registerPrefix 0 [47, 97, 47, 98] (.upperLayerIn 0) ⟨1⟩,
      Op.registerPrefix 0 [47, 97] (.upperLayerIn 1) ⟨1⟩].foldl Op.apply
        { maxSize := 50, entryLifetime := 10000 }
    fib.FindsLive [47, 97, 47, 98, 47, 99] := by
  intro fib
  have hreach : calls.Reachable fib := reachable_foldl ⟨50, 10000, rfl⟩ (by simp [Op.InRange])
  have hlive : ∀ e ∈ fib.entries, e.erased = false := by decide
  refine (findsLive_iff hreach _).2 fun e he herased ↦ ?_
  exact absurd ((hlive e he.mem).symm.trans herased) Bool.false_ne_true

/-- `/a/b` is learned from Data, then `/a` is registered; after ten seconds `/a/b` hides `/a`. -/
theorem not_findsLive :
    let fib : FibBase := [Op.create 0 [47, 97, 47, 98] 4 (.lowerLayerIn 0) ⟨1⟩,
      Op.registerPrefix 0 [47, 97] (.upperLayerIn 1) ⟨1⟩,
      Op.cleanExpired (SimTime.ms 10000)].foldl Op.apply { maxSize := 50, entryLifetime := 10000 }
    calls.Reachable fib ∧ ¬fib.FindsLive [47, 97, 47, 98, 47, 99] := by
  intro fib
  refine ⟨reachable_foldl ⟨50, 10000, rfl⟩ (by simp [Op.InRange]), fun hfinds ↦ ?_⟩
  have hlive : FibEntry.make 0 [47, 97] (.upperLayerIn 1) ⟨1⟩ 100000 ∈ fib.entries := by decide
  have herased := hfinds.2 (by decide) _ hlive (by decide)
  exact Bool.false_ne_true herased

/-! ### Room -/

/-- `create` with these arguments succeeds, and the name then leads to this face and destination. -/
def Learns (fib : FibBase) (now : SimTime) (name : CString) (length : ℕ) (face : Gate)
    (dest : MACAddress) : Prop :=
  (fib.create now name length face dest).1 = true ∧
    ∃ e, ((fib.create now name length face dest).2.lookup name).1 = some e ∧ e.face = face ∧
      e.macDest = dest

/-- What `create` makes of the entry it finds. -/
def refreshed (fib : FibBase) (now : SimTime) (dest : MACAddress) (e : FibEntry) : FibEntry :=
  { e with
    macDest := dest
    erased := false
    expireAt := now + SimTime.ms fib.entryLifetime }

/-- `match` looks at the prefixes only. -/
theorem matchIndex_congr {fib' : FibBase}
    (h : fib'.entries.map FibEntry.stringPrefix = fib.entries.map FibEntry.stringPrefix) :
    fib'.matchIndex name = fib.matchIndex name := by
  have hmatch (l : List FibEntry) : l.findIdx? (FibEntry.matchesName name) =
      (l.map FibEntry.stringPrefix).findIdx? fun p ↦ strncmpEq p name p.length := by
    rw [List.findIdx?_map]
    rfl
  rw [matchIndex, matchIndex, hmatch, hmatch, h]

/-- After a refresh the name leads to the refreshed entry. -/
theorem lookup_create_of_hit (hm : fib.matchIndex name = some index)
    (hget : fib.entries[index]? = some e) (now : SimTime) (length : ℕ) (face : Gate)
    (dest : MACAddress) :
    (fib.create now name length face dest).1 = true ∧
      ((fib.create now name length face dest).2.lookup name).1 =
        some (fib.refreshed now dest e) := by
  have hcreate : fib.create now name length face dest =
      (true, { fib with entries := fib.entries.modify index (fib.refreshed now dest) }) := by
    rw [create, hm]
    rfl
  have hm' : (fib.create now name length face dest).2.matchIndex name = some index := by
    rw [hcreate, ← hm]
    exact matchIndex_congr (map_stringPrefix_modify _ _ fun _ ↦ rfl)
  have hget' : (fib.create now name length face dest).2.entries[index]? =
      some (fib.refreshed now dest e) := by
    rw [hcreate, List.getElem?_modify_eq, hget]
    rfl
  refine ⟨by rw [hcreate], ?_⟩
  rw [lookup, hm']
  simp only [hget']
  rfl

/-- After an insertion the name leads to the new entry. -/
theorem lookup_create_of_miss (hm : fib.matchIndex name = none)
    (hroom : fib.entries.length < fib.maxSize) (now : SimTime) (length : ℕ) (face : Gate)
    (dest : MACAddress) :
    (fib.create now name length face dest).1 = true ∧
      ((fib.create now name length face dest).2.lookup name).1 =
        some (FibEntry.make now (name.take length) face dest fib.entryLifetime) := by
  have hcreate : (fib.create now name length face dest).1 = true ∧
      (fib.create now name length face dest).2.entries =
        fib.entries ++ [FibEntry.make now (name.take length) face dest fib.entryLifetime] := by
    rw [create, hm]
    simp only [if_neg hroom.not_ge, and_self]
  have hm' : (fib.create now name length face dest).2.matchIndex name =
      some fib.entries.length := by
    have hnew : (FibEntry.make now (name.take length) face dest fib.entryLifetime).matchesName
        name = true := FibEntry.matchesName_iff.2 (List.take_prefix length name)
    rw [matchIndex] at hm
    rw [matchIndex, hcreate.2, List.findIdx?_append, hm, Option.none_or, List.findIdx?_cons,
      if_pos hnew, Option.map_some, Nat.zero_add]
  have hget : (fib.create now name length face dest).2.entries[fib.entries.length]? =
      some (FibEntry.make now (name.take length) face dest fib.entryLifetime) := by
    rw [hcreate.2, List.getElem?_concat_length]
  refine ⟨hcreate.1, ?_⟩
  rw [lookup, hm']
  simp only [hget]
  rfl

/-- **When a prefix is learned.** Exactly when no entry, live or erased, matches and the entries,
live and erased together, leave room; or the longest match has the right face already. -/
theorem learns_iff (h : calls.Reachable fib) (now : SimTime) (name : CString) (length : ℕ)
    (face : Gate) (dest : MACAddress) :
    fib.Learns now name length face dest ↔
      (∃ e, fib.IsLongestMatch name e ∧ e.face = face) ∨
        (∀ e ∈ fib.entries, ¬e.stringPrefix <+: name) ∧ fib.entries.length < fib.maxSize := by
  have hord := ordered_of_reachable h
  obtain hm | ⟨index, hm⟩ := Option.eq_none_or_eq_some (fib.matchIndex name)
  · have hno : ∀ e ∈ fib.entries, ¬e.stringPrefix <+: name := fun e he ↦ of_matchIndex_eq_none hm he
    have hnot : ¬∃ e, fib.IsLongestMatch name e ∧ e.face = face := by
      rintro ⟨e, he, -⟩
      exact hno e he.mem he.hit
    rw [or_iff_right hnot, and_iff_right hno]
    obtain hroom | hfull := lt_or_ge fib.entries.length fib.maxSize
    · obtain ⟨hok, hlook⟩ := lookup_create_of_miss hm hroom now length face dest
      exact iff_of_true ⟨hok, _, hlook, rfl, rfl⟩ hroom
    · refine iff_of_false (fun hlearns ↦ ?_) hfull.not_gt
      have hrefused : (fib.create now name length face dest).1 = false := by
        rw [create, hm]
        simp only [if_pos hfull]
      exact Bool.false_ne_true (hrefused.symm.trans hlearns.1)
  · obtain ⟨e, hget, he⟩ := isLongestMatch_of_matchIndex hord hm
    have hno : ¬((∀ e ∈ fib.entries, ¬e.stringPrefix <+: name) ∧
        fib.entries.length < fib.maxSize) := fun hall ↦ hall.1 e he.mem he.hit
    rw [or_iff_left hno]
    obtain ⟨hok, hlook⟩ := lookup_create_of_hit hm hget now length face dest
    constructor
    · rintro ⟨-, e', hlook', hface, -⟩
      rw [hlook] at hlook'
      obtain rfl := Option.some.inj hlook'
      exact ⟨e, he, hface⟩
    · rintro ⟨e', he', hface⟩
      obtain rfl := he.unique hord he'
      exact ⟨hok, _, hlook, hface, rfl⟩

/-- Nothing matches, and there is room. -/
theorem learns_iff_room :
    let fib : FibBase := [Op.create 0 [47, 97] 2 (.lowerLayerIn 0) ⟨1⟩].foldl Op.apply
      { maxSize := 2, entryLifetime := 10000 }
    fib.Learns (SimTime.ms 5) [47, 98, 47, 99] 2 (.lowerLayerIn 1) ⟨2⟩ := by
  intro fib
  have hreach : calls.Reachable fib := reachable_foldl ⟨2, 10000, rfl⟩ (by simp [Op.InRange])
  exact (learns_iff hreach _ _ _ _ _).2 (.inr (by decide))

/-- The only entry of a table of size one has expired, and another prefix is refused. -/
theorem not_learns_of_erased :
    let fib : FibBase := [Op.create 0 [47, 97] 2 (.lowerLayerIn 0) ⟨1⟩,
      Op.cleanExpired (SimTime.ms 10000)].foldl Op.apply { maxSize := 1, entryLifetime := 10000 }
    calls.Reachable fib ∧ (fib.entries.filter (!·.erased)).length < fib.maxSize ∧
      (∀ e ∈ fib.entries, e.erased = false → ¬e.stringPrefix <+: [47, 98]) ∧
      ¬fib.Learns (SimTime.ms 10001) [47, 98] 2 (.lowerLayerIn 1) ⟨2⟩ := by
  intro fib
  refine ⟨reachable_foldl ⟨1, 10000, rfl⟩ (by simp [Op.InRange]), by decide, by decide, ?_⟩
  exact fun hlearns ↦ Bool.false_ne_true ((by decide : _ = false).symm.trans hlearns.1)

end Inet.Ndn.FibBase
