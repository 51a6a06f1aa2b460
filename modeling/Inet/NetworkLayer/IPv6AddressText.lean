import Inet.Foundations.LongestRun
import Inet.Foundations.Numerals
import Inet.LinkLayer.MACAddress
import Inet.NetworkLayer.IPv6Datagram
import Mathlib.Data.List.GetD

/-!
# The text form of IPv6 addresses

`IPv6Address::str` prints the eight groups of an address with `::` in the place of a longest run of
zeros (`str_eq`), and `tryParse` reads groups from the left, then those behind `::`, and fills the
gap. On a text of hexadecimal digits and colons the parser accepts what denotes an address and
nothing else (`tryParse_eq_iff`). What is printed is such a text, so it is parsed as the address
that it stands for.
-/

namespace Inet.IPv6.IPv6Address

open Numerals

/-! ### The parser -/

/-- `isspace` of the C library. -/
def isspace (c : UInt8) : Bool :=
  c = ' '.toUInt8 || (9 ≤ c && c ≤ 13)

/-- The sign that `strtoul` accepts. -/
def skipSign : CString → Bool × CString
  | [] => (false, [])
  | c :: s => if c = '-'.toUInt8 then (true, s) else if c = '+'.toUInt8 then (false, s) else (false, c :: s)

/-- The `0x` that `strtoul` accepts in front of a hexadecimal digit. -/
def skip0x : CString → CString
  | c :: x :: d :: s =>
    if c = '0'.toUInt8 ∧ (x = 'x'.toUInt8 ∨ x = 'X'.toUInt8) ∧ isxdigit d = true then d :: s
    else c :: x :: d :: s
  | s => s

/-- `ULONG_MAX`. -/
abbrev ULONG_MAX : ℕ := 2 ^ 64 - 1

/-- The number that hexadecimal digits denote. -/
def hexNumber (s : CString) : ℕ :=
  value 16 (fun c ↦ (hexValue c).toNat) s

/-- `strtoul(s, &e, 16)`: the value and the text at `e`, or nothing where no digit is converted. -/
def strtoul (s : CString) : Option (ℕ × CString) :=
  let (negative, s) := skipSign (s.dropWhile isspace)
  let s := skip0x s
  let digits := s.takeWhile isxdigit
  if digits = [] then none
  else
    let n := hexNumber digits
    some (if ULONG_MAX < n then ULONG_MAX else if negative then (2 ^ 64 - n) % 2 ^ 64 else n,
      s.dropWhile isxdigit)

/-- The loop of `parseGroups`, with `n` of eight places left: the groups and where `s` points to. -/
def parseGroupsLoop : ℕ → CString → List UInt16 × CString
  | 0, s => ([], s)
  | n + 1, s =>
    match strtoul s with
    | none => ([], if n + 1 = 8 then s else ':'.toUInt8 :: s)
    | some (grp, e) =>
      if 0xffff < grp then ([], s)
      else
        match e with
        | [] => ([UInt16.ofNat grp], [])
        | c :: s =>
          if c ≠ ':'.toUInt8 ∨ n = 0 then ([UInt16.ofNat grp], c :: s)
          else
            let (groups, s) := parseGroupsLoop n s
            (UInt16.ofNat grp :: groups, s)

/-- `parseGroups`. -/
def parseGroups (s : CString) : List UInt16 × CString :=
  parseGroupsLoop 8 s

/-- The groups behind `::` are merged into the others. -/
def mergeGroups (groups suffixGroups : List UInt16) : List UInt16 :=
  groups ++ (List.range' groups.length (8 - groups.length)).map fun i ↦
    if i + suffixGroups.length < 8 then 0 else suffixGroups.getD (i + suffixGroups.length - 8) 0

/-- The part of `doTryParse` for a text with `::`. -/
def parseSuffix (groups : List UInt16) : CString → Option (List UInt16 × CString)
  | c :: c' :: addr =>
    if c = ':'.toUInt8 ∧ c' = ':'.toUInt8 then
      let (suffixGroups, addr) := parseGroups addr
      if 8 < groups.length + suffixGroups.length then none
      else some (mergeGroups groups suffixGroups, addr)
    else some (groups, c :: c' :: addr)
  | addr => some (groups, addr)

/-- The words of eight groups. -/
def ofGroups (groups : List UInt16) : IPv6Address :=
  let d (i : ℕ) := (groups.getD (2 * i) 0).toUInt32 <<< 16 + (groups.getD (2 * i + 1) 0).toUInt32
  ⟨d 0, d 1, d 2, d 3⟩

/-- `"<unspec>"`. -/
def unspec : CString :=
  ['<', 'u', 'n', 's', 'p', 'e', 'c', '>'].map Char.toUInt8

/-- `IPv6Address::doTryParse`: what is stored in the address, and where `addr` points to. -/
def doTryParse (addr : CString) : Option (IPv6Address × CString) :=
  if addr = unspec then some (⟨0, 0, 0, 0⟩, [])
  else
    let (groups, addr) := parseGroups addr
    match parseSuffix groups addr with
    | none => none
    | some (groups, addr) => if groups.length ≠ 8 then none else some (ofGroups groups, addr)

/-- `IPv6Address::tryParse`, on an object and a pointer that may be null. -/
def tryParse (a : IPv6Address) : Option CString → Bool × IPv6Address
  | none => (false, a)
  | some addr =>
    match doTryParse addr with
    | none => (false, a)
    | some (a, addr) => (addr = [], a)

/-! ### The printer -/

/-- The 16-bit groups of an address. -/
def groups (a : IPv6Address) : List UInt16 :=
  [(a.d0 >>> 16).toUInt16, (a.d0 &&& 0xffff).toUInt16, (a.d1 >>> 16).toUInt16,
    (a.d1 &&& 0xffff).toUInt16, (a.d2 >>> 16).toUInt16, (a.d2 &&& 0xffff).toUInt16,
    (a.d3 >>> 16).toUInt16, (a.d3 &&& 0xffff).toUInt16]

/-- Whether a group is zero. -/
def isZeroGroup (groups : List UInt16) (i : ℕ) : Bool :=
  groups.getD i 0 = 0

/-- `findGap`: `start` and `end`. -/
def findGap (groups : List UInt16) : ℕ × ℕ :=
  let g := (List.range 8).foldl (LongestRun.step (isZeroGroup groups) 2) {}
  match g.beg with
  | some beg => if beg ≤ 6 ∧ g.stop - g.start < 8 - beg then (beg, 8) else (g.start, g.stop)
  | none => (g.start, g.stop)

/-- A digit of `std::hex`. -/
def hexDigit (d : ℕ) : UInt8 :=
  if d < 10 then '0'.toUInt8 + UInt8.ofNat d else 'a'.toUInt8 + UInt8.ofNat (d - 10)

/-- A group as it is printed. -/
def hexText (group : UInt16) : CString :=
  numeral 16 hexDigit group.toNat

/-- The loops that print groups, all but the first behind a colon. -/
def printGroups : List UInt16 → CString
  | [] => []
  | group :: groups => hexText group ++ groups.flatMap fun group ↦ ':'.toUInt8 :: hexText group

/-- `IPv6Address::str`. -/
def str (a : IPv6Address) : CString :=
  if a.isUnspecified then unspec
  else
    match findGap a.groups with
    | (start, stop) =>
      if start = 0 ∧ stop = 8 then [':'.toUInt8, ':'.toUInt8, '0'.toUInt8]
      else
        printGroups (a.groups.take start) ++
          (if start ≠ stop then [':'.toUInt8, ':'.toUInt8] else []) ++ printGroups (a.groups.drop stop)

/-! ### What a text denotes -/

/-- A text of hexadecimal digits and colons. -/
def IsText (s : CString) : Prop :=
  ∀ c ∈ s, isxdigit c = true ∨ c = ':'.toUInt8

/-- Hexadecimal digits of a value up to ffff. -/
structure IsGroup (d : CString) : Prop where
  nonempty : d ≠ []
  digit : ∀ c ∈ d, isxdigit c = true
  le : hexNumber d ≤ 0xffff

/-- The value of a group. -/
def groupOf (d : CString) : UInt16 :=
  UInt16.ofNat (hexNumber d)

/-- What eight groups with colons between them denote, or two lists of at most eight with `::`. -/
def Denotes (s : CString) (groups : List UInt16) : Prop :=
  (∃ parts, parts.length = 8 ∧ (∀ d ∈ parts, IsGroup d) ∧ s = join ':'.toUInt8 parts ∧
    groups = parts.map groupOf) ∨
  ∃ front back, front.length + back.length ≤ 8 ∧ (∀ d ∈ front ++ back, IsGroup d) ∧
    s = join ':'.toUInt8 front ++ ':'.toUInt8 :: ':'.toUInt8 :: join ':'.toUInt8 back ∧
    groups = front.map groupOf ++ List.replicate (8 - (front.length + back.length)) 0 ++
      back.map groupOf

variable {s rest d : CString} {grps : List UInt16} {parts front back : List CString} {n : ℕ}

/-! ### `strtoul` on such a text -/

theorem IsText.tail {c : UInt8} (h : IsText (c :: s)) : IsText s :=
  fun c' hc' ↦ h c' (List.mem_cons_of_mem c hc')

theorem IsText.of_append_right (h : IsText (d ++ s)) : IsText s :=
  fun c hc ↦ h c (List.mem_append_right d hc)

theorem not_isspace {c : UInt8} (h : isxdigit c = true ∨ c = ':'.toUInt8) : isspace c = false := by
  have hall : ∀ n < 256, (isxdigit (UInt8.ofNat n) = true ∨ UInt8.ofNat n = ':'.toUInt8) →
      isspace (UInt8.ofNat n) = false := by
    decide +kernel
  simpa using hall c.toNat c.toNat_lt (by simpa using h)

theorem not_sign {c : UInt8} (h : isxdigit c = true ∨ c = ':'.toUInt8) :
    c ≠ '-'.toUInt8 ∧ c ≠ '+'.toUInt8 := by
  constructor <;>
    · rintro rfl
      revert h
      decide

theorem not_x {c : UInt8} (h : isxdigit c = true ∨ c = ':'.toUInt8) :
    c ≠ 'x'.toUInt8 ∧ c ≠ 'X'.toUInt8 := by
  constructor <;>
    · rintro rfl
      revert h
      decide

theorem skipSign_eq (h : IsText s) : skipSign s = (false, s) := by
  cases s with
  | nil => rfl
  | cons c s =>
    obtain ⟨hminus, hplus⟩ := not_sign (h c List.mem_cons_self)
    rw [skipSign, if_neg hminus, if_neg hplus]

theorem skip0x_eq (h : IsText s) : skip0x s = s := by
  match s, h with
  | [], _ => rfl
  | [_], _ => rfl
  | [_, _], _ => rfl
  | c :: x :: d :: s, h =>
    obtain ⟨hx, hX⟩ := not_x (h x (by simp))
    rw [skip0x, if_neg]
    rintro ⟨-, h | h, -⟩
    · exact hx h
    · exact hX h

/-- **`strtoul`** converts the digits that there are. -/
theorem strtoul_eq (h : IsText s) : strtoul s =
    if s.takeWhile isxdigit = [] then none
    else some (min (hexNumber (s.takeWhile isxdigit)) ULONG_MAX, s.dropWhile isxdigit) := by
  have hspace : s.dropWhile isspace = s := by
    cases s with
    | nil => rfl
    | cons c s => rw [List.dropWhile_cons_of_neg (by simp [not_isspace (h c List.mem_cons_self)])]
  rw [strtoul, hspace, skipSign_eq h]
  simp only [skip0x_eq h, Bool.false_eq_true, if_false]
  split_ifs with hnone hlarge
  · rfl
  · rw [Nat.min_eq_right (by omega)]
  · rw [Nat.min_eq_left (by omega)]

theorem strtoul_append (h : IsText (d ++ rest)) (hne : d ≠ []) (hd : ∀ c ∈ d, isxdigit c = true)
    (hrest : ∀ c, rest.head? = some c → isxdigit c = false) :
    strtoul (d ++ rest) = some (min (hexNumber d) ULONG_MAX, rest) := by
  rw [strtoul_eq h, takeWhile_append hd hrest, dropWhile_append hd hrest, if_neg hne]

theorem strtoul_eq_none (h : IsText s) (hs : ∀ c, s.head? = some c → isxdigit c = false) :
    strtoul s = none := by
  rw [strtoul_eq h, if_pos]
  cases s with
  | nil => rfl
  | cons c s => exact List.takeWhile_cons_of_neg (by simp [hs c rfl])

/-! ### Reading groups -/

theorem head?_colon {s : CString} : ∀ c, (':'.toUInt8 :: s).head? = some c → isxdigit c = false := by
  rintro c ⟨⟩
  rfl

/-- What ends a list of groups: the end of the text, or `::`. -/
def IsEnd (rest : CString) : Prop :=
  rest = [] ∨ ∃ s, rest = ':'.toUInt8 :: ':'.toUInt8 :: s

theorem IsEnd.head? (h : IsEnd rest) : ∀ c, rest.head? = some c → isxdigit c = false := by
  rcases h with rfl | ⟨s, rfl⟩
  · rintro c ⟨⟩
  · exact head?_colon

theorem strtoul_group (h : IsText (d ++ rest)) (hd : IsGroup d)
    (hrest : ∀ c, rest.head? = some c → isxdigit c = false) :
    strtoul (d ++ rest) = some (hexNumber d, rest) := by
  rw [strtoul_append h hd.nonempty hd.digit hrest, Nat.min_eq_left (hd.le.trans (by decide))]

/-- **A turn of the loop** reads a group at the end of the text, -/
theorem parseGroupsLoop_end (h : IsText d) (hd : IsGroup d) (n : ℕ) :
    parseGroupsLoop (n + 1) d = ([groupOf d], []) := by
  have htext : IsText (d ++ []) := by
    rwa [List.append_nil]
  have hread : strtoul d = some (hexNumber d, []) := by
    simpa using strtoul_group htext hd (by simp)
  rw [parseGroupsLoop, hread]
  simp only [if_neg (Nat.not_lt.2 hd.le)]
  rfl

/-- or a group and the colon behind it. -/
theorem parseGroupsLoop_append {c : UInt8} (h : IsText (d ++ c :: s)) (hd : IsGroup d)
    (hc : isxdigit c = false) (n : ℕ) :
    parseGroupsLoop (n + 1) (d ++ c :: s) =
      if c ≠ ':'.toUInt8 ∨ n = 0 then ([groupOf d], c :: s)
      else (groupOf d :: (parseGroupsLoop n s).1, (parseGroupsLoop n s).2) := by
  have hread := strtoul_group h hd (by rintro c ⟨⟩; exact hc)
  rw [parseGroupsLoop, hread]
  simp only [if_neg (Nat.not_lt.2 hd.le)]
  rfl

theorem parseGroupsLoop_none (h : IsText s) (hs : ∀ c, s.head? = some c → isxdigit c = false)
    (n : ℕ) : parseGroupsLoop (n + 1) s = ([], if n + 1 = 8 then s else ':'.toUInt8 :: s) := by
  rw [parseGroupsLoop, strtoul_eq_none h hs]

/-- **The loop** reads groups with colons between them, up to where the list ends. -/
theorem parseGroupsLoop_join (hne : parts ≠ []) (hparts : ∀ d ∈ parts, IsGroup d)
    (hlength : parts.length ≤ n) (hn : n ≤ 8) (hend : IsEnd rest)
    (htext : IsText (join ':'.toUInt8 parts ++ rest)) :
    parseGroupsLoop n (join ':'.toUInt8 parts ++ rest) = (parts.map groupOf, rest) := by
  induction parts generalizing n with
  | nil => exact absurd rfl hne
  | cons d parts ih =>
    obtain ⟨hd, hparts⟩ := List.forall_mem_cons.1 hparts
    rw [List.length_cons] at hlength
    obtain ⟨n, rfl⟩ : ∃ m, n = m + 1 := ⟨n - 1, by omega⟩
    rcases eq_or_ne parts [] with rfl | hne
    · rw [join_singleton] at htext ⊢
      rcases hend with rfl | ⟨s, rfl⟩
      · rw [List.append_nil] at htext ⊢
        exact parseGroupsLoop_end htext hd n
      · rw [parseGroupsLoop_append htext hd rfl]
        rcases n with _ | n
        · rfl
        · -- the next group is missing, so that the colon is taken back
          rw [parseGroupsLoop_none htext.of_append_right.tail head?_colon]
          simp only [ne_eq, not_true_eq_false, Nat.succ_ne_zero, or_self, if_false]
          rw [if_neg (by omega)]
          rfl
    · rw [join_cons_append hne] at htext ⊢
      have hzero : n ≠ 0 := by
        rintro rfl
        exact hne (List.length_eq_zero_iff.1 (by omega))
      rw [parseGroupsLoop_append htext hd rfl]
      simp only [ne_eq, not_true_eq_false, false_or, hzero, if_false]
      rw [ih hne hparts (by omega) (by omega) htext.of_append_right.tail]
      rfl

theorem parseGroups_join (hparts : ∀ d ∈ parts, IsGroup d) (hlength : parts.length ≤ 8)
    (hend : IsEnd rest) (htext : IsText (join ':'.toUInt8 parts ++ rest)) :
    parseGroups (join ':'.toUInt8 parts ++ rest) = (parts.map groupOf, rest) := by
  rcases eq_or_ne parts [] with rfl | hne
  · rw [join_nil, List.nil_append] at htext ⊢
    rw [parseGroups, parseGroupsLoop_none htext hend.head?]
    rfl
  · exact parseGroupsLoop_join hne hparts hlength le_rfl hend htext

/-- What a turn of the loop can find: no digit, a number that is too large, a last group, or a group
with a colon behind it. -/
theorem parseGroupsLoop_cases (htext : IsText s) (n : ℕ) :
    parseGroupsLoop (n + 1) s = ([], if n + 1 = 8 then s else ':'.toUInt8 :: s) ∨
      (∃ c, s.head? = some c ∧ isxdigit c = true ∧ parseGroupsLoop (n + 1) s = ([], s)) ∨
      (∃ d rest, IsGroup d ∧ s = d ++ rest ∧ parseGroupsLoop (n + 1) s = ([groupOf d], rest)) ∨
      ∃ d s', IsGroup d ∧ s = d ++ ':'.toUInt8 :: s' ∧ n ≠ 0 ∧
        parseGroupsLoop (n + 1) s = (groupOf d :: (parseGroupsLoop n s').1, (parseGroupsLoop n s').2) := by
  rcases eq_or_ne (s.takeWhile isxdigit) [] with hnone | hsome
  · refine .inl (parseGroupsLoop_none htext (fun c hc ↦ ?_) n)
    by_contra hdigit
    obtain ⟨s, rfl⟩ : ∃ s', s = c :: s' := List.head?_eq_some_iff.1 hc
    rw [List.takeWhile_cons_of_pos (by simpa using hdigit)] at hnone
    cases hnone
  · have hsplit : s = s.takeWhile isxdigit ++ s.dropWhile isxdigit :=
      List.takeWhile_append_dropWhile.symm
    have hstop : ∀ c, (s.dropWhile isxdigit).head? = some c → isxdigit c = false :=
      fun c ↦ head?_dropWhile_eq_false
    have hdigit : ∀ c ∈ s.takeWhile isxdigit, isxdigit c = true :=
      List.all_eq_true.1 List.all_takeWhile
    generalize s.takeWhile isxdigit = d at hsplit hsome hdigit
    generalize s.dropWhile isxdigit = rest at hsplit hstop
    subst hsplit
    rcases Nat.lt_or_ge 0xffff (hexNumber d) with hlarge | hle
    · refine .inr (.inl ?_)
      obtain ⟨c, d', rfl⟩ := List.exists_cons_of_ne_nil hsome
      refine ⟨c, rfl, hdigit c List.mem_cons_self, ?_⟩
      have hmin : 0xffff < min (hexNumber (c :: d')) ULONG_MAX := lt_min hlarge (by decide)
      rw [parseGroupsLoop, strtoul_append htext hsome hdigit hstop]
      simp only [if_pos hmin]
    · have hd : IsGroup d := ⟨hsome, hdigit, hle⟩
      cases rest with
      | nil =>
        rw [List.append_nil] at htext
        refine .inr (.inr (.inl ⟨d, [], hd, rfl, ?_⟩))
        rw [List.append_nil]
        exact parseGroupsLoop_end htext hd n
      | cons c rest =>
        have hturn := parseGroupsLoop_append htext hd (hstop c rfl) n
        by_cases hlast : c ≠ ':'.toUInt8 ∨ n = 0
        · rw [if_pos hlast] at hturn
          exact .inr (.inr (.inl ⟨d, c :: rest, hd, rfl, hturn⟩))
        · rw [if_neg hlast] at hturn
          obtain ⟨hcolon, hzero⟩ := not_or.1 hlast
          obtain rfl := not_not.1 hcolon
          exact .inr (.inr (.inr ⟨d, rest, hd, rfl, hzero, hturn⟩))

/-- **What has been read** stood there, unless the text behind begins with a number that is too
large. -/
theorem exists_of_parseGroupsLoop (h : parseGroupsLoop (n + 1) s = (grps, rest)) (hn : n < 8)
    (htext : IsText s) (hrest : ∀ c, rest.head? = some c → isxdigit c = false) :
    ∃ parts, (∀ d ∈ parts, IsGroup d) ∧ parts.length ≤ n + 1 ∧ grps = parts.map groupOf ∧
      (parts ≠ [] → s = join ':'.toUInt8 parts ++ rest) ∧
      (parts = [] → rest = if n + 1 = 8 then s else ':'.toUInt8 :: s) := by
  induction n using Nat.strong_induction_on generalizing s grps with
  | _ n ih =>
    rcases parseGroupsLoop_cases htext n with hnone | ⟨c, hc, hdigit, hlarge⟩ |
      ⟨d, rest', hd, rfl, hlast⟩ | ⟨d, s', hd, rfl, hzero, hmore⟩
    · obtain ⟨rfl, rfl⟩ := Prod.mk.inj (hnone.symm.trans h)
      exact ⟨[], by simp, by simp, rfl, fun hne ↦ absurd rfl hne, fun _ ↦ rfl⟩
    · obtain ⟨rfl, rfl⟩ := Prod.mk.inj (hlarge.symm.trans h)
      rw [hrest c hc] at hdigit
      cases hdigit
    · obtain ⟨rfl, rfl⟩ := Prod.mk.inj (hlast.symm.trans h)
      exact ⟨[d], List.forall_mem_singleton.2 hd, by simp, rfl, fun _ ↦ rfl, fun hnil ↦ by cases hnil⟩
    · obtain ⟨rfl, rfl⟩ := Prod.mk.inj (hmore.symm.trans h)
      obtain ⟨n, rfl⟩ := Nat.exists_eq_succ_of_ne_zero hzero
      have hrec : parseGroupsLoop (n + 1) s' =
        ((parseGroupsLoop (n + 1) s').1, (parseGroupsLoop (n + 1) s').2) := rfl
      obtain ⟨parts, hparts, hlength, hgrps, hjoin, hnil⟩ :=
        ih n (Nat.lt_succ_self n) hrec (by omega) htext.of_append_right.tail
      refine ⟨d :: parts, List.forall_mem_cons.2 ⟨hd, hparts⟩, by rw [List.length_cons]; omega,
        by rw [hgrps, List.map_cons], fun _ ↦ ?_, fun hnil ↦ by cases hnil⟩
      rcases eq_or_ne parts [] with rfl | hne
      · rw [hnil rfl, if_neg (by omega), join_singleton]
      · rw [join_cons_append hne, ← hjoin hne]

theorem exists_of_parseGroups (h : parseGroups s = (grps, rest)) (htext : IsText s)
    (hrest : ∀ c, rest.head? = some c → isxdigit c = false) :
    ∃ parts, (∀ d ∈ parts, IsGroup d) ∧ parts.length ≤ 8 ∧ grps = parts.map groupOf ∧
      s = join ':'.toUInt8 parts ++ rest := by
  obtain ⟨parts, hparts, hlength, hgrps, hjoin, hnil⟩ :=
    exists_of_parseGroupsLoop h (by decide) htext hrest
  refine ⟨parts, hparts, hlength, hgrps, ?_⟩
  rcases eq_or_ne parts [] with rfl | hne
  · exact (hnil rfl).symm
  · exact hjoin hne

/-! ### Parsing an address -/

theorem length_mergeGroups {suffixGroups : List UInt16} (h : grps.length ≤ 8) :
    (mergeGroups grps suffixGroups).length = 8 := by
  rw [mergeGroups, List.length_append, List.length_map, List.length_range']
  omega

/-- **The gap** is filled by zeros. -/
theorem mergeGroups_eq {suffixGroups : List UInt16} (h : grps.length + suffixGroups.length ≤ 8) :
    mergeGroups grps suffixGroups =
      grps ++ List.replicate (8 - (grps.length + suffixGroups.length)) 0 ++ suffixGroups := by
  rw [mergeGroups, List.append_assoc, List.append_cancel_left_eq]
  refine List.ext_getElem ?_ fun i hi hi' ↦ ?_
  · rw [List.length_map, List.length_range', List.length_append, List.length_replicate]
    omega
  · rw [List.length_map, List.length_range'] at hi
    rw [List.getElem_map, List.getElem_range', Nat.one_mul]
    rcases Nat.lt_or_ge i (8 - (grps.length + suffixGroups.length)) with hgap | hgap
    · rw [if_pos (by omega), List.getElem_append_left (by simpa using hgap), List.getElem_replicate]
    · rw [if_neg (by omega), List.getElem_append_right (by simpa using hgap),
        List.getD_eq_getElem _ _ (by omega)]
      congr 1
      rw [List.length_replicate]
      omega

/-- The groups that are printed are those of the words. -/
theorem groups_ofGroups (h : grps.length = 8) : (ofGroups grps).groups = grps := by
  match grps, h with
  | [g₀, g₁, g₂, g₃, g₄, g₅, g₆, g₇], _ =>
    have hhigh (x y : UInt16) : ((x.toUInt32 <<< 16 + y.toUInt32) >>> 16).toUInt16 = x := by
      have hx := x.toNat_lt
      have hy := y.toNat_lt
      rw [← UInt16.toNat_inj, UInt32.toNat_toUInt16, UInt32.toNat_shiftRight, UInt32.toNat_add,
        UInt32.toNat_shiftLeft, UInt16.toNat_toUInt32, UInt16.toNat_toUInt32]
      have hsixteen : (16 : UInt32).toNat % 32 = 16 := by decide
      rw [hsixteen, Nat.shiftLeft_eq, Nat.shiftRight_eq_div_pow]
      omega
    have hlow (x y : UInt16) : ((x.toUInt32 <<< 16 + y.toUInt32) &&& 0xffff).toUInt16 = y := by
      have hx := x.toNat_lt
      have hy := y.toNat_lt
      rw [← UInt16.toNat_inj, UInt32.toNat_toUInt16, UInt32.toNat_and, UInt32.toNat_add,
        UInt32.toNat_shiftLeft, UInt16.toNat_toUInt32, UInt16.toNat_toUInt32]
      have hsixteen : (16 : UInt32).toNat % 32 = 16 := by decide
      have hmask : (0xffff : UInt32).toNat = 2 ^ 16 - 1 := by decide
      rw [hsixteen, hmask, Nat.and_two_pow_sub_one_eq_mod, Nat.shiftLeft_eq]
      omega
    simp [ofGroups, groups, hhigh, hlow]

theorem ofGroups_groups (a : IPv6Address) : ofGroups a.groups = a := by
  have hword (x : UInt32) :
      (x >>> 16).toUInt16.toUInt32 <<< 16 + (x &&& 0xffff).toUInt16.toUInt32 = x := by
    have hx := x.toNat_lt
    rw [← UInt32.toNat_inj, UInt32.toNat_add, UInt32.toNat_shiftLeft, UInt16.toNat_toUInt32,
      UInt16.toNat_toUInt32, UInt32.toNat_toUInt16, UInt32.toNat_toUInt16, UInt32.toNat_shiftRight,
      UInt32.toNat_and]
    have hsixteen : (16 : UInt32).toNat % 32 = 16 := by decide
    have hmask : (0xffff : UInt32).toNat = 2 ^ 16 - 1 := by decide
    rw [hsixteen, hmask, Nat.and_two_pow_sub_one_eq_mod, Nat.shiftLeft_eq,
      Nat.shiftRight_eq_div_pow]
    omega
  obtain ⟨d0, d1, d2, d3⟩ := a
  show (⟨(d0 >>> 16).toUInt16.toUInt32 <<< 16 + (d0 &&& 0xffff).toUInt16.toUInt32,
    (d1 >>> 16).toUInt16.toUInt32 <<< 16 + (d1 &&& 0xffff).toUInt16.toUInt32,
    (d2 >>> 16).toUInt16.toUInt32 <<< 16 + (d2 &&& 0xffff).toUInt16.toUInt32,
    (d3 >>> 16).toUInt16.toUInt32 <<< 16 + (d3 &&& 0xffff).toUInt16.toUInt32⟩ : IPv6Address) = _
  rw [hword, hword, hword, hword]

theorem IsText.ne_unspec (h : IsText s) : s ≠ unspec := by
  rintro rfl
  exact absurd (h '<'.toUInt8 (by decide)) (by decide)

/-- **What denotes an address** is parsed as that. -/
theorem Denotes.doTryParse_eq (h : Denotes s grps) (htext : IsText s) :
    doTryParse s = some (ofGroups grps, []) := by
  rw [doTryParse, if_neg htext.ne_unspec]
  rcases h with ⟨parts, hlength, hparts, hs, rfl⟩ | ⟨front, back, hlength, hparts, hs, rfl⟩
  · have hjoin : s = join ':'.toUInt8 parts ++ [] := by rw [List.append_nil, hs]
    rw [hjoin] at htext ⊢
    rw [parseGroups_join hparts hlength.le (.inl rfl) htext]
    simp [parseSuffix, hlength]
  · rw [List.forall_mem_append] at hparts
    rw [hs] at htext ⊢
    have hback : IsText (join ':'.toUInt8 back ++ []) := by
      rw [List.append_nil]
      exact htext.of_append_right.tail.tail
    have hsuffix := parseGroups_join hparts.2 (by omega) (.inl rfl) hback
    rw [List.append_nil] at hsuffix
    rw [parseGroups_join hparts.1 (by omega) (.inr ⟨_, rfl⟩) htext]
    simp only [parseSuffix, and_self, if_true, hsuffix, List.length_map]
    rw [if_neg (by omega)]
    simp only
    have hfront : (front.map groupOf).length ≤ 8 := by
      rw [List.length_map]
      omega
    rw [if_neg (not_not.2 (length_mergeGroups hfront)), mergeGroups_eq (by simpa using hlength),
      List.length_map, List.length_map]

/-- **What is parsed** denotes an address. -/
theorem exists_of_doTryParse {a : IPv6Address} (h : doTryParse s = some (a, [])) (htext : IsText s) :
    ∃ grps, Denotes s grps ∧ a = ofGroups grps := by
  rw [doTryParse, if_neg htext.ne_unspec] at h
  obtain ⟨⟨grps, rest⟩, hparse⟩ : ∃ r, parseGroups s = r := ⟨_, rfl⟩
  simp only [hparse] at h
  obtain ⟨⟨all, rest'⟩, hmerge, h⟩ : ∃ r, parseSuffix grps rest = some r ∧
      (if r.1.length ≠ 8 then none else some (ofGroups r.1, r.2)) = some (a, []) := by
    cases hr : parseSuffix grps rest with
    | none =>
      rw [hr] at h
      cases h
    | some r =>
      rw [hr] at h
      exact ⟨r, rfl, h⟩
  split_ifs at h with height
  obtain ⟨rfl, rfl⟩ := Prod.mk.inj (Option.some.inj h)
  have hcolon : (∃ addr, rest = ':'.toUInt8 :: ':'.toUInt8 :: addr) ∨
      parseSuffix grps rest = some (grps, rest) := by
    match rest with
    | [] => exact .inr rfl
    | [_] => exact .inr rfl
    | c :: c' :: addr =>
      by_cases hc : c = ':'.toUInt8 ∧ c' = ':'.toUInt8
      · obtain ⟨rfl, rfl⟩ := hc
        exact .inl ⟨addr, rfl⟩
      · exact .inr (by rw [parseSuffix, if_neg hc])
  rcases hcolon with ⟨addr, rfl⟩ | hnone
  · obtain ⟨front, hfront, hflength, rfl, rfl⟩ := exists_of_parseGroups hparse htext head?_colon
    obtain ⟨⟨suffixGroups, rest''⟩, hsuffix⟩ : ∃ r, parseGroups addr = r := ⟨_, rfl⟩
    simp only [parseSuffix, and_self, if_true, hsuffix] at hmerge
    split_ifs at hmerge with hmany
    obtain ⟨rfl, rfl⟩ := Prod.mk.inj (Option.some.inj hmerge)
    obtain ⟨back, hback, hblength, rfl, rfl⟩ :=
      exists_of_parseGroups hsuffix htext.of_append_right.tail.tail (by simp)
    rw [List.length_map, List.length_map] at hmany
    refine ⟨_, .inr ⟨front, back, Nat.not_lt.1 hmany, List.forall_mem_append.2 ⟨hfront, hback⟩,
      ?_, rfl⟩, ?_⟩
    · rw [List.append_nil]
    · rw [mergeGroups_eq (by simpa using Nat.not_lt.1 hmany), List.length_map, List.length_map]
  · rw [hnone] at hmerge
    obtain ⟨rfl, rfl⟩ := Prod.mk.inj (Option.some.inj hmerge)
    obtain ⟨parts, hparts, hlength, rfl, rfl⟩ := exists_of_parseGroups hparse htext (by simp)
    refine ⟨_, .inl ⟨parts, ?_, hparts, by rw [List.append_nil], rfl⟩, rfl⟩
    rw [← List.length_map (f := groupOf)]
    exact not_not.1 height

/-- **A text of digits and colons** is parsed exactly when it denotes an address, and as that. -/
theorem tryParse_eq_iff (htext : IsText s) (a b : IPv6Address) :
    tryParse a (some s) = (true, b) ↔ Denotes s b.groups := by
  constructor
  · intro h
    rw [tryParse] at h
    cases hparse : doTryParse s with
    | none => simp [hparse] at h
    | some r =>
      obtain ⟨b', rest⟩ := r
      simp only [hparse, Prod.mk.injEq, decide_eq_true_eq] at h
      obtain ⟨rfl, rfl⟩ := h
      obtain ⟨grps, hdenotes, rfl⟩ := exists_of_doTryParse hparse htext
      have hlength : grps.length = 8 := by
        rcases hdenotes with ⟨parts, hlength, -, -, rfl⟩ | ⟨front, back, hlength, -, -, rfl⟩
        · rw [List.length_map, hlength]
        · simp only [List.length_append, List.length_map, List.length_replicate]
          omega
      rwa [groups_ofGroups hlength]
  · intro h
    rw [tryParse, h.doTryParse_eq htext, ofGroups_groups]
    rfl

/-! ### Printing an address -/

theorem isxdigit_hexDigit : ∀ d < 16, isxdigit (hexDigit d) = true := by
  decide

theorem toNat_hexValue_hexDigit : ∀ d < 16, (hexValue (hexDigit d)).toNat = d := by
  decide

theorem hexNumber_hexText (group : UInt16) : hexNumber (hexText group) = group.toNat :=
  value_numeral (fun c ↦ (hexValue c).toNat) hexDigit (by decide) toNat_hexValue_hexDigit _

theorem isGroup_hexText (group : UInt16) : IsGroup (hexText group) where
  nonempty := numeral_ne_nil _
  digit := forall_mem_numeral (by decide) isxdigit_hexDigit
  le := by
    rw [hexNumber_hexText]
    exact Nat.le_of_lt_succ group.toNat_lt

theorem groupOf_hexText (group : UInt16) : groupOf (hexText group) = group := by
  rw [groupOf, hexNumber_hexText, UInt16.ofNat_toNat]

/-- The groups as they are printed. -/
def hexTexts (groups : List UInt16) : List CString :=
  groups.map hexText

theorem hexTexts_cons (group : UInt16) (groups : List UInt16) :
    hexTexts (group :: groups) = hexText group :: hexTexts groups :=
  rfl

theorem isGroup_of_mem (groups : List UInt16) : ∀ d ∈ hexTexts groups, IsGroup d :=
  List.forall_mem_map.2 fun group _ ↦ isGroup_hexText group

theorem map_groupOf_hexTexts (groups : List UInt16) : (hexTexts groups).map groupOf = groups := by
  rw [hexTexts, List.map_map]
  exact (List.map_congr_left fun group _ ↦ groupOf_hexText group).trans (List.map_id groups)

/-- The loops print the groups with colons between them. -/
theorem printGroups_eq (groups : List UInt16) :
    printGroups groups = join ':'.toUInt8 (hexTexts groups) := by
  have hbehind : ∀ groups : List UInt16, groups ≠ [] →
      (groups.flatMap fun group ↦ ':'.toUInt8 :: hexText group) =
        ':'.toUInt8 :: join ':'.toUInt8 (hexTexts groups) := by
    intro groups
    induction groups with
    | nil => exact fun hne ↦ absurd rfl hne
    | cons group groups ih =>
      intro _
      rcases eq_or_ne groups [] with rfl | hne
      · simp [hexTexts]
      · have hne' : hexTexts groups ≠ [] := mt List.map_eq_nil_iff.1 hne
        rw [List.flatMap_cons, ih hne, hexTexts_cons, join_cons hne', List.cons_append]
  cases groups with
  | nil => rfl
  | cons group groups =>
    rw [printGroups]
    rcases eq_or_ne groups [] with rfl | hne
    · simp [hexTexts]
    · have hne' : hexTexts groups ≠ [] := mt List.map_eq_nil_iff.1 hne
      rw [hbehind groups hne, hexTexts_cons, join_cons hne']

theorem isText_join (groups : List UInt16) : IsText (join ':'.toUInt8 (hexTexts groups)) :=
  forall_mem_join (.inr rfl) fun d hd c hc ↦ .inl ((isGroup_of_mem groups d hd).digit c hc)

open LongestRun in
/-- **The gap** is a longest run of at least two zero groups; there is none where no two are in a
row. -/
theorem findGap_cases (groups : List UInt16) :
    IsLongest (isZeroGroup groups) 2 8 (findGap groups).1 (findGap groups).2 ∨
      findGap groups = (0, 0) ∧ ∀ i j, j ≤ 8 → IsRun (isZeroGroup groups) i j → j - i < 2 := by
  have hscanned := scanned_foldl (p := isZeroGroup groups) (by decide : 0 < 2) 8
  rw [findGap]
  generalize (List.range 8).foldl (step (isZeroGroup groups) 2) {} = g at hscanned
  -- the gap that has been found before the last run
  have hfound (hcurrent : ∀ b, g.beg = some b → 8 - b < 2 ∨ 8 - b ≤ g.stop - g.start) :
      IsLongest (isZeroGroup groups) 2 8 g.start g.stop ∨
        (g.start, g.stop) = (0, 0) ∧
          ∀ i j, j ≤ 8 → IsRun (isZeroGroup groups) i j → j - i < 2 := by
    rcases hscanned.found with ⟨hstart, hstop⟩ | ⟨hlength, -⟩
    · exact .inr ⟨by rw [hstart, hstop],
        fun i j hj hrun ↦ hscanned.lt_least hcurrent (by omega) hj hrun⟩
    · exact .inl (hscanned.isLongest_found hcurrent hlength (by decide))
  cases hbeg : g.beg with
  | none => exact hfound fun b hb ↦ by rw [hbeg] at hb; cases hb
  | some b =>
    simp only
    split_ifs with hlast
    · exact .inl (hscanned.isLongest_current hbeg (by omega) hlast.2)
    · refine hfound fun b' hb' ↦ ?_
      rw [hbeg] at hb'
      obtain rfl := Option.some.inj hb'
      omega

theorem eq_of_isUnspecified {a : IPv6Address} (h : a.isUnspecified = true) : a = ⟨0, 0, 0, 0⟩ := by
  obtain ⟨d0, d1, d2, d3⟩ := a
  have hor : d0 ||| d1 ||| d2 ||| d3 = 0 := by simpa [isUnspecified] using h
  simp only [UInt32.or_eq_zero_iff] at hor
  obtain ⟨⟨⟨rfl, rfl⟩, rfl⟩, rfl⟩ := hor
  rfl

/-- A run of zero groups, taken out and put back. -/
theorem eq_append_replicate {start stop : ℕ} (hlength : grps.length = 8) (hle : stop ≤ 8)
    (hrun : LongestRun.IsRun (isZeroGroup grps) start stop) (hlt : start < stop) :
    grps = grps.take start ++ List.replicate (stop - start) 0 ++ grps.drop stop := by
  refine List.ext_getElem ?_ fun i hi hi' ↦ ?_
  · rw [List.length_append, List.length_append, List.length_take, List.length_replicate,
      List.length_drop]
    omega
  · have htake : (grps.take start).length = start := by
      rw [List.length_take]
      omega
    have hmiddle : (grps.take start ++ List.replicate (stop - start) (0 : UInt16)).length = stop := by
      rw [List.length_append, htake, List.length_replicate]
      omega
    rcases Nat.lt_or_ge i stop with hstop | hstop
    · rw [List.getElem_append_left (by omega)]
      rcases Nat.lt_or_ge i start with hstart | hstart
      · rw [List.getElem_append_left (by omega), List.getElem_take]
      · rw [List.getElem_append_right (by omega), List.getElem_replicate]
        have hzero := hrun i hstart hstop
        rw [isZeroGroup, List.getD_eq_getElem _ _ (by omega)] at hzero
        simpa using hzero
    · rw [List.getElem_append_right (by omega), List.getElem_drop]
      congr 1
      omega

/-- The text in which the groups from `start` to `stop` are replaced by `::`. -/
def elided (groups : List UInt16) (start stop : ℕ) : CString :=
  join ':'.toUInt8 (hexTexts (groups.take start)) ++
    ':'.toUInt8 :: ':'.toUInt8 :: join ':'.toUInt8 (hexTexts (groups.drop stop))

open LongestRun in
/-- `::` stands for a longest run of at least two zero groups, and nothing is left out if there is
none. -/
def ElidesLongest (groups : List UInt16) (s : CString) : Prop :=
  (∃ start stop, IsLongest (isZeroGroup groups) 2 8 start stop ∧ s = elided groups start stop) ∨
    (∀ i j, j ≤ 8 → IsRun (isZeroGroup groups) i j → j - i < 2) ∧
      s = join ':'.toUInt8 (hexTexts groups)

/-- **The text of an address** that is not the unspecified one. -/
theorem str_eq {a : IPv6Address} (h : a.isUnspecified = false) : ElidesLongest a.groups a.str := by
  have hlength : a.groups.length = 8 := rfl
  rw [str, h, if_neg Bool.false_ne_true]
  rcases findGap_cases a.groups with hgap | ⟨hnone, hshort⟩
  · obtain ⟨⟨start, stop⟩, hfind⟩ : ∃ r, findGap a.groups = r := ⟨_, rfl⟩
    rw [hfind] at hgap ⊢
    have hlt : start < stop := by
      have htwo := hgap.length
      simp only at htwo
      omega
    have hnotall : ¬(start = 0 ∧ stop = 8) := by
      rintro ⟨rfl, rfl⟩
      -- all groups are zero, and so is the address
      have hzero := eq_append_replicate hlength le_rfl hgap.isRun hlt
      have haddress := ofGroups_groups a
      rw [hzero, List.take_zero, List.nil_append, List.drop_of_length_le hlength.le,
        List.append_nil] at haddress
      rw [← haddress] at h
      revert h
      decide
    refine .inl ⟨start, stop, hgap, ?_⟩
    simp only [if_neg hnotall, if_pos hlt.ne, printGroups_eq]
    rw [elided, List.append_assoc]
    rfl
  · refine .inr ⟨hshort, ?_⟩
    rw [hnone]
    simp only [Nat.reduceEqDiff, and_false, if_false, ne_eq, not_true_eq_false, List.take_zero,
      List.drop_zero, List.append_nil, printGroups_eq]
    rfl

theorem isText_elided (groups : List UInt16) (start stop : ℕ) : IsText (elided groups start stop) := by
  refine List.forall_mem_append.2 ⟨isText_join _, ?_⟩
  exact List.forall_mem_cons.2 ⟨.inr rfl, List.forall_mem_cons.2 ⟨.inr rfl, isText_join _⟩⟩

/-- What is printed is a text of digits and colons that denotes the groups. -/
theorem ElidesLongest.denotes (h : ElidesLongest grps s) (hlength : grps.length = 8) :
    IsText s ∧ Denotes s grps := by
  rcases h with ⟨start, stop, hgap, rfl⟩ | ⟨-, rfl⟩
  · refine ⟨isText_elided grps start stop, .inr ⟨_, _, ?_, ?_, rfl, ?_⟩⟩
    · have htwo := hgap.length
      have hstop := hgap.stop_le
      simp only [hexTexts, List.length_map, List.length_take, List.length_drop]
      omega
    · exact List.forall_mem_append.2 ⟨isGroup_of_mem _, isGroup_of_mem _⟩
    · have htwo := hgap.length
      have hstop := hgap.stop_le
      have hzeros : 8 - ((hexTexts (grps.take start)).length +
          (hexTexts (grps.drop stop)).length) = stop - start := by
        simp only [hexTexts, List.length_map, List.length_take, List.length_drop]
        omega
      rw [map_groupOf_hexTexts, map_groupOf_hexTexts, hzeros]
      exact eq_append_replicate hlength hstop hgap.isRun (by omega)
  · exact ⟨isText_join grps, .inl ⟨_, by rw [hexTexts, List.length_map, hlength], isGroup_of_mem grps,
      rfl, (map_groupOf_hexTexts grps).symm⟩⟩

/-- `::` stands at one place at most. -/
def AtMostOneGap (s : CString) : Prop :=
  ∀ x y x' y', s = x ++ ':'.toUInt8 :: ':'.toUInt8 :: y → s = x' ++ ':'.toUInt8 :: ':'.toUInt8 :: y' →
    x = x'

theorem colon_notMem (groups : List UInt16) :
    ∀ d ∈ hexTexts groups, d ≠ [] ∧ ':'.toUInt8 ∉ d := by
  intro d hd
  have hgroup := isGroup_of_mem groups d hd
  exact ⟨hgroup.nonempty, fun hcolon ↦ absurd (hgroup.digit _ hcolon) (by decide)⟩

theorem ElidesLongest.atMostOneGap (h : ElidesLongest grps s) : AtMostOneGap s := by
  intro x y x' y' hx hx'
  rcases h with ⟨start, stop, -, rfl⟩ | ⟨-, rfl⟩
  · rw [eq_of_join_append (colon_notMem _) (colon_notMem _) hx,
      eq_of_join_append (colon_notMem _) (colon_notMem _) hx']
  · exact absurd hx (join_ne_append (colon_notMem grps))

/-- **The text of an address** is parsed as the address. -/
theorem tryParse_str (a b : IPv6Address) : tryParse b (some a.str) = (true, a) := by
  cases h : a.isUnspecified with
  | true =>
    rw [str, h, if_pos rfl, eq_of_isUnspecified h]
    rfl
  | false =>
    obtain ⟨htext, hdenotes⟩ := (str_eq h).denotes rfl
    exact (tryParse_eq_iff htext b a).2 hdenotes

/-- **The text form of IPv6 addresses.** The text of every address is parsed as that address; it has
`::` at one place at most, in the place of a longest run of at least two zero groups, whenever there
is one; and a text of hexadecimal digits and colons is parsed exactly when it denotes an address,
and as that. -/
theorem textForm :
    (∀ a b : IPv6Address, tryParse b (some a.str) = (true, a)) ∧
      (∀ a : IPv6Address, a.isUnspecified = false →
        AtMostOneGap a.str ∧ ElidesLongest a.groups a.str) ∧
      ∀ (s : CString) (a b : IPv6Address), IsText s →
        (tryParse a (some s) = (true, b) ↔ Denotes s b.groups) :=
  ⟨tryParse_str, fun _ h ↦ ⟨(str_eq h).atMostOneGap, str_eq h⟩,
    fun _ a b htext ↦ tryParse_eq_iff htext a b⟩

end Inet.IPv6.IPv6Address
