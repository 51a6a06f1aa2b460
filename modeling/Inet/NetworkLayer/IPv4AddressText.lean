import Inet.Foundations.Numerals
import Inet.LinkLayer.MACAddress
import Inet.NetworkLayer.IPv4Route

/-!
# The text form of IPv4 addresses

`IPv4Address::parseIPAddress` is a scanner over the text: a number is accumulated in an `int` as
long as there are digits, and is stored if it is not above 255. The accumulator wraps around, so
that a number may be stored although the digits denote a larger one (`parseIPAddress_eq_some_iff`).
The texts in which this happens are the only ones that are not parsed as the dotted quads that they
are (`parsesExactly_iff`).
-/

namespace Inet.IPv4Address

open Numerals

/-! ### The scanner -/

/-- `*s - '0'`. -/
def decValue (c : UInt8) : ℕ :=
  c.toNat - '0'.toNat

/-- A digit of `sprintf("%u")`. -/
def decDigit (d : ℕ) : UInt8 :=
  '0'.toUInt8 + UInt8.ofNat d

/-- The loop over the digits of a number, which is an `int`. -/
def readNumber (num : Int32) : CString → Int32 × CString
  | [] => (num, [])
  | c :: s => if isdigit c then readNumber (10 * num + Int32.ofNat (decValue c)) s else (num, c :: s)

/-- The loop over the numbers, with `n` places left for them. -/
def readNumbers : ℕ → CString → Option (List UInt8)
  | 0, _ => none
  | _ + 1, [] => none
  | n + 1, c :: s =>
    if !isdigit c then none
    else
      match readNumber 0 (c :: s) with
      | (num, s) =>
        if 255 < num then none
        else
          match s with
          | [] => if n = 0 then some [num.toUInt32.toUInt8] else none
          | c :: s =>
            if c ≠ '.'.toUInt8 then none
            else if n = 0 then none
            else (readNumbers n s).map (num.toUInt32.toUInt8 :: ·)

/-- `"<unspec>"`. -/
def unspec : CString :=
  ['<', 'u', 'n', 's', 'p', 'e', 'c', '>'].map Char.toUInt8

/-- `IPv4Address::parseIPAddress`, with what is in `tobytes` when it succeeds. -/
def parseIPAddress : Option CString → Option (List UInt8)
  | none => none
  | some text => if text = unspec then some [0, 0, 0, 0] else readNumbers 4 text

/-- What `IPv4Address::set` throws. -/
inductive SetError
  | addressStringIsNullptr
  | invalidAddressString (text : CString)
  deriving DecidableEq, Repr

/-- `IPv4Address::set`, from four numbers. -/
def ofBytes (i0 i1 i2 i3 : UInt8) : IPv4Address :=
  i0.toUInt32 <<< 24 ||| i1.toUInt32 <<< 16 ||| i2.toUInt32 <<< 8 ||| i3.toUInt32

/-- `IPv4Address::set`. -/
def set : Option CString → Except SetError IPv4Address
  | none => .error .addressStringIsNullptr
  | some text =>
    match parseIPAddress (some text) with
    | some [i0, i1, i2, i3] => .ok (ofBytes i0 i1 i2 i3)
    | _ => .error (.invalidAddressString text)

/-- What `IPv4Address::str` prints. -/
def octets (addr : IPv4Address) : List ℕ :=
  [((addr >>> 24) &&& 255).toNat, ((addr >>> 16) &&& 255).toNat, ((addr >>> 8) &&& 255).toNat,
    (addr &&& 255).toNat]

/-- `IPv4Address::str`. -/
def str (addr : IPv4Address) (printUnspec : Bool) : CString :=
  if printUnspec && addr = 0 then unspec
  else join '.'.toUInt8 ((octets addr).map (numeral 10 decDigit))

/-! ### Dotted quads -/

/-- A digit string that is not empty. -/
structure IsNumeral (d : CString) : Prop where
  nonempty : d ≠ []
  digit : ∀ c ∈ d, isdigit c = true

/-- The number that it denotes. -/
def number (d : CString) : ℕ :=
  value 10 decValue d

/-- Four digit strings with dots between them. -/
structure IsQuad (parts : List CString) (s : CString) : Prop where
  length : parts.length = 4
  isNumeral : ∀ d ∈ parts, IsNumeral d
  text : s = join '.'.toUInt8 parts

/-- What a text denotes as an address. -/
def Denotes (s : CString) (bytes : List UInt8) : Prop :=
  (s = unspec ∧ bytes = [0, 0, 0, 0]) ∨
    ∃ parts, IsQuad parts s ∧ (∀ d ∈ parts, number d ≤ 255) ∧
      bytes = parts.map fun d ↦ UInt8.ofNat (number d)

variable {d rest s : CString} {bytes : List UInt8} {parts parts' : List CString} {n : ℕ}

/-! ### What the scanner reads -/

/-- The `int` that is accumulated is not above 255. -/
def InRange (d : CString) : Prop :=
  Int32.ofNat (number d) ≤ 255

/-- What is stored for a digit string. -/
def byteOf (d : CString) : UInt8 :=
  UInt8.ofNat (number d)

theorem readNumber_append (hd : ∀ c ∈ d, isdigit c = true)
    (hrest : ∀ c, rest.head? = some c → isdigit c = false) (n : ℕ) :
    readNumber (Int32.ofNat n) (d ++ rest) =
      (Int32.ofNat (d.foldl (fun n c ↦ 10 * n + decValue c) n), rest) := by
  induction d generalizing n with
  | nil =>
    cases rest with
    | nil => rfl
    | cons c rest =>
      rw [List.nil_append, readNumber, hrest c rfl]
      rfl
  | cons c d ih =>
    obtain ⟨hc, hd⟩ := List.forall_mem_cons.1 hd
    have hnum : 10 * Int32.ofNat n + Int32.ofNat (decValue c) = Int32.ofNat (10 * n + decValue c) := by
      rw [Int32.ofNat_add, Int32.ofNat_mul]
      rfl
    rw [List.cons_append, readNumber, if_pos hc, hnum, ih hd]
    rfl

/-- **A turn of the loop** reads a digit string. -/
theorem readNumbers_append (hd : IsNumeral d)
    (hrest : ∀ c, rest.head? = some c → isdigit c = false) (n : ℕ) :
    readNumbers (n + 1) (d ++ rest) =
      if 255 < Int32.ofNat (number d) then none
      else
        match rest with
        | [] => if n = 0 then some [byteOf d] else none
        | c :: s =>
          if c ≠ '.'.toUInt8 then none
          else if n = 0 then none
          else (readNumbers n s).map (byteOf d :: ·) := by
  obtain ⟨c, d', hd'⟩ := List.exists_cons_of_ne_nil hd.nonempty
  have hread := readNumber_append hd.digit hrest 0
  have hc : isdigit c = true := hd.digit c (by simp [hd'])
  have hbyte : (Int32.ofNat (number d)).toUInt32.toUInt8 = byteOf d := by
    rw [Int32.toUInt32_ofNat', UInt32.toUInt8_ofNat']
    rfl
  rw [hd', List.cons_append] at hread ⊢
  rw [readNumbers, hc, ← hd', ← hbyte]
  rw [← hd'] at hread
  have hzero : readNumber 0 (c :: (d' ++ rest)) = (Int32.ofNat (number d), rest) := hread
  simp only [Bool.not_true, Bool.false_eq_true, if_false, hzero]

theorem not_lt_iff_inRange : ¬255 < Int32.ofNat (number d) ↔ InRange d :=
  Int32.not_lt

theorem head?_dot {s : CString} : ∀ c, ('.'.toUInt8 :: s).head? = some c → isdigit c = false := by
  rintro c ⟨⟩
  rfl

/-- **The loop** stores digit strings with dots between them. -/
theorem readNumbers_join (hne : parts ≠ []) (h : ∀ d ∈ parts, IsNumeral d ∧ InRange d) :
    readNumbers parts.length (join '.'.toUInt8 parts) = some (parts.map byteOf) := by
  induction parts with
  | nil => exact absurd rfl hne
  | cons d parts ih =>
    obtain ⟨⟨hd, hrange⟩, h⟩ := List.forall_mem_cons.1 h
    rw [List.length_cons]
    rcases eq_or_ne parts [] with rfl | hne
    · rw [join_singleton, ← List.append_nil d, readNumbers_append hd (by simp),
        if_neg (not_lt_iff_inRange.2 hrange), List.append_nil]
      rfl
    · have hlength : parts.length ≠ 0 := fun h ↦ hne (List.length_eq_zero_iff.1 h)
      rw [join_cons hne, readNumbers_append hd head?_dot, if_neg (not_lt_iff_inRange.2 hrange)]
      simp only [ne_eq, not_true_eq_false, if_false, hlength]
      rw [ih hne h]
      rfl

/-- What has been stored stood there. -/
theorem exists_of_readNumbers (h : readNumbers n s = some bytes) :
    ∃ parts, parts.length = n ∧ (∀ d ∈ parts, IsNumeral d ∧ InRange d) ∧
      s = join '.'.toUInt8 parts ∧ bytes = parts.map byteOf := by
  induction n generalizing s bytes with
  | zero => cases h
  | succ n ih =>
    cases s with
    | nil => cases h
    | cons c s =>
      cases hc : isdigit c with
      | false => simp [readNumbers, hc] at h
      | true =>
        obtain ⟨d, rest, hs, hd, hrest⟩ : ∃ d rest, c :: s = d ++ rest ∧ IsNumeral d ∧
            ∀ c, rest.head? = some c → isdigit c = false := by
          refine ⟨(c :: s).takeWhile isdigit, (c :: s).dropWhile isdigit,
            List.takeWhile_append_dropWhile.symm, ⟨?_, List.all_eq_true.1 List.all_takeWhile⟩,
            fun c ↦ head?_dropWhile_eq_false⟩
          rw [List.takeWhile_cons_of_pos hc]
          exact List.cons_ne_nil _ _
        rw [hs, readNumbers_append hd hrest] at h
        have hlarge : ¬255 < Int32.ofNat (number d) := by
          intro hlarge
          rw [if_pos hlarge] at h
          cases h
        rw [if_neg hlarge] at h
        have hrange := not_lt_iff_inRange.1 hlarge
        cases rest with
        | nil =>
          simp only at h
          split_ifs at h with hzero
          refine ⟨[d], by rw [hzero]; rfl, List.forall_mem_singleton.2 ⟨hd, hrange⟩, ?_, ?_⟩
          · rw [hs, List.append_nil, join_singleton]
          · exact (Option.some.inj h).symm
        | cons c rest =>
          simp only at h
          split_ifs at h with hdot hzero
          obtain ⟨bytes, hbytes, rfl⟩ := Option.map_eq_some_iff.1 h
          obtain ⟨parts, hlength, hparts, rfl, rfl⟩ := ih hbytes
          have hne : parts ≠ [] := by
            rintro rfl
            exact hzero hlength.symm
          refine ⟨d :: parts, by rw [List.length_cons, hlength],
            List.forall_mem_cons.2 ⟨⟨hd, hrange⟩, hparts⟩, ?_, rfl⟩
          rw [hs, join_cons hne, not_not.1 hdot]

/-! ### What is parsed -/

theorem IsQuad.ne_nil (h : IsQuad parts s) : parts ≠ [] := by
  rintro rfl
  exact absurd h.length (by decide)

/-- A quad begins with a digit. -/
theorem IsQuad.ne_unspec (h : IsQuad parts s) : s ≠ unspec := by
  rintro rfl
  obtain ⟨d, parts, rfl⟩ := List.exists_cons_of_ne_nil h.ne_nil
  obtain ⟨hd, -⟩ := List.forall_mem_cons.1 h.isNumeral
  obtain ⟨c, d, rfl⟩ := List.exists_cons_of_ne_nil hd.nonempty
  have hne : parts ≠ [] := by
    rintro rfl
    exact absurd h.length (by simp)
  have htext := h.text
  rw [join_cons hne] at htext
  obtain ⟨rfl, -⟩ := List.cons.inj htext
  exact absurd (hd.digit _ List.mem_cons_self) (by decide)

/-- A text is a quad in one way at most. -/
theorem IsQuad.unique (h : IsQuad parts s) (h' : IsQuad parts' s) : parts = parts' := by
  have hnodot {parts : List CString} (h : IsQuad parts s) : ∀ d ∈ parts, '.'.toUInt8 ∉ d :=
    fun d hd hdot ↦ absurd ((h.isNumeral d hd).digit _ hdot) (by decide)
  exact join_inj (h.length.trans h'.length.symm) (hnodot h) (hnodot h') (h.text.symm.trans h'.text)

/-- **What is parsed**: a quad of digit strings that are not above 255 as an `int`. -/
theorem parseIPAddress_eq_some_iff : parseIPAddress (some s) = some bytes ↔
    (s = unspec ∧ bytes = [0, 0, 0, 0]) ∨
      ∃ parts, IsQuad parts s ∧ (∀ d ∈ parts, InRange d) ∧ bytes = parts.map byteOf := by
  rw [parseIPAddress]
  split_ifs with hunspec
  · constructor
    · rintro ⟨⟩
      exact .inl ⟨hunspec, rfl⟩
    · rintro (⟨-, rfl⟩ | ⟨parts, hquad, -⟩)
      · rfl
      · exact absurd hunspec hquad.ne_unspec
  · constructor
    · intro h
      obtain ⟨parts, hlength, hparts, htext, hbytes⟩ := exists_of_readNumbers h
      exact .inr ⟨parts, ⟨hlength, fun d hd ↦ (hparts d hd).1, htext⟩,
        fun d hd ↦ (hparts d hd).2, hbytes⟩
    · rintro (⟨h, -⟩ | ⟨parts, hquad, hrange, rfl⟩)
      · exact absurd h hunspec
      · rw [hquad.text, ← hquad.length]
        exact readNumbers_join hquad.ne_nil fun d hd ↦ ⟨hquad.isNumeral d hd, hrange d hd⟩

/-- A number up to 255 is the same as an `int`. -/
theorem inRange_of_le (h : number d ≤ 255) : InRange d := by
  have hall : ∀ n ≤ 255, Int32.ofNat n ≤ 255 := by decide +kernel
  exact hall _ h

/-- The text is parsed if and only if it denotes an address, and then as that. -/
def ParsesExactly (s : CString) : Prop :=
  ∀ bytes, parseIPAddress (some s) = some bytes ↔ Denotes s bytes

/-- A quad with a number above 255, of which every number is at most 255 as an `int`. -/
def WrapsAround (s : CString) : Prop :=
  ∃ parts, IsQuad parts s ∧ (∀ d ∈ parts, InRange d) ∧ ∃ d ∈ parts, 255 < number d

/-- What denotes an address is parsed as that. -/
theorem Denotes.parseIPAddress_eq (h : Denotes s bytes) :
    parseIPAddress (some s) = some bytes := by
  rw [parseIPAddress_eq_some_iff]
  rcases h with h | ⟨parts, hquad, hle, hbytes⟩
  · exact .inl h
  · exact .inr ⟨parts, hquad, fun d hd ↦ inRange_of_le (hle d hd), hbytes⟩

/-- **A text that wraps around** is parsed although it denotes nothing. -/
theorem WrapsAround.exists_parsed (h : WrapsAround s) :
    ∃ bytes, parseIPAddress (some s) = some bytes ∧ ¬Denotes s bytes := by
  obtain ⟨parts, hquad, hrange, d, hd, hlarge⟩ := h
  refine ⟨parts.map byteOf, parseIPAddress_eq_some_iff.2 (.inr ⟨parts, hquad, hrange, rfl⟩), ?_⟩
  rintro (⟨hunspec, -⟩ | ⟨parts', hquad', hle, -⟩)
  · exact hquad.ne_unspec hunspec
  · rw [← hquad.unique hquad'] at hle
    exact absurd (hle d hd) (Nat.not_le.2 hlarge)

/-- **Any other text** is parsed as what it denotes. -/
theorem parsesExactly_of_not_wrapsAround (h : ¬WrapsAround s) : ParsesExactly s := by
  intro bytes
  refine ⟨fun hparsed ↦ ?_, fun hdenotes ↦ hdenotes.parseIPAddress_eq⟩
  rcases parseIPAddress_eq_some_iff.1 hparsed with hunspec | ⟨parts, hquad, hrange, hbytes⟩
  · exact .inl hunspec
  · refine .inr ⟨parts, hquad, fun d hd ↦ ?_, hbytes⟩
    by_contra hlarge
    exact h ⟨parts, hquad, hrange, d, hd, Nat.not_le.1 hlarge⟩

/-! ### The text of an address -/

theorem decValue_decDigit : ∀ d < 10, decValue (decDigit d) = d := by
  decide

theorem isdigit_decDigit : ∀ d < 10, isdigit (decDigit d) = true := by
  decide

theorem number_numeral (n : ℕ) : number (numeral 10 decDigit n) = n :=
  value_numeral decValue decDigit (by decide) decValue_decDigit n

theorem toNat_octet (addr : IPv4Address) (i : UInt32) :
    ((addr >>> i) &&& 255).toNat = addr.toNat / 2 ^ (i.toNat % 32) % 2 ^ 8 := by
  have hmask : (255 : UInt32).toNat = 2 ^ 8 - 1 := by decide
  rw [UInt32.toNat_and, UInt32.toNat_shiftRight, hmask, Nat.and_two_pow_sub_one_eq_mod,
    Nat.shiftRight_eq_div_pow]

theorem octets_eq (addr : IPv4Address) :
    octets addr = [addr.toNat / 2 ^ 24 % 2 ^ 8, addr.toNat / 2 ^ 16 % 2 ^ 8,
      addr.toNat / 2 ^ 8 % 2 ^ 8, addr.toNat % 2 ^ 8] := by
  have hlast : (addr &&& 255).toNat = addr.toNat % 2 ^ 8 := by
    have hmask : (255 : UInt32).toNat = 2 ^ 8 - 1 := by decide
    rw [UInt32.toNat_and, hmask, Nat.and_two_pow_sub_one_eq_mod]
  rw [octets, toNat_octet, toNat_octet, toNat_octet, hlast]
  rfl

theorem toNat_ofBytes (i0 i1 i2 i3 : UInt8) : (ofBytes i0 i1 i2 i3).toNat =
    2 ^ 24 * i0.toNat + 2 ^ 16 * i1.toNat + 2 ^ 8 * i2.toNat + i3.toNat := by
  have h0 := i0.toNat_lt
  have h1 := i1.toNat_lt
  have h2 := i2.toNat_lt
  have h3 := i3.toNat_lt
  have hshift (x : UInt8) (i : UInt32) (hi : i.toNat ≤ 24) :
      (x.toUInt32 <<< i).toNat = 2 ^ i.toNat * x.toNat := by
    have hx := x.toNat_lt
    have hpow : 2 ^ i.toNat ≤ 2 ^ 24 := Nat.pow_le_pow_right (by decide) hi
    have hlt : x.toNat * 2 ^ i.toNat < 2 ^ 32 := by
      calc x.toNat * 2 ^ i.toNat ≤ x.toNat * 2 ^ 24 := Nat.mul_le_mul_left _ hpow
        _ < 2 ^ 8 * 2 ^ 24 := Nat.mul_lt_mul_of_pos_right hx (by decide)
    have hi' : i.toNat % 32 = i.toNat := Nat.mod_eq_of_lt (by omega)
    rw [UInt32.toNat_shiftLeft, UInt8.toNat_toUInt32, hi', Nat.shiftLeft_eq, Nat.mod_eq_of_lt hlt,
      Nat.mul_comm]
  rw [ofBytes, UInt32.toNat_or, UInt32.toNat_or, UInt32.toNat_or, hshift i0 24 (by decide),
    hshift i1 16 (by decide), hshift i2 8 (by decide), UInt8.toNat_toUInt32]
  have h24 : (24 : UInt32).toNat = 24 := rfl
  have h16 : (16 : UInt32).toNat = 16 := rfl
  have h8 : (8 : UInt32).toNat = 8 := rfl
  rw [h24, h16, h8, ← Nat.two_pow_add_eq_or_of_lt (by omega : 2 ^ 16 * i1.toNat < 2 ^ 24)]
  have hfirst : 2 ^ 24 * i0.toNat + 2 ^ 16 * i1.toNat = 2 ^ 16 * (2 ^ 8 * i0.toNat + i1.toNat) := by
    omega
  rw [hfirst, ← Nat.two_pow_add_eq_or_of_lt (by omega : 2 ^ 8 * i2.toNat < 2 ^ 16)]
  have hsecond : 2 ^ 16 * (2 ^ 8 * i0.toNat + i1.toNat) + 2 ^ 8 * i2.toNat =
      2 ^ 8 * (2 ^ 16 * i0.toNat + 2 ^ 8 * i1.toNat + i2.toNat) := by
    omega
  rw [hsecond, ← Nat.two_pow_add_eq_or_of_lt h3]

/-- The numerals of an address are a quad that denotes it. -/
theorem denotes_join (addr : IPv4Address) :
    Denotes (join '.'.toUInt8 ((octets addr).map (numeral 10 decDigit)))
      ((octets addr).map UInt8.ofNat) := by
  refine .inr ⟨_, ⟨rfl, ?_, rfl⟩, ?_, ?_⟩
  · rw [List.forall_mem_map]
    exact fun n _ ↦ ⟨numeral_ne_nil n, forall_mem_numeral (by decide) isdigit_decDigit⟩
  · rw [List.forall_mem_map, octets_eq]
    intro n hn
    rw [number_numeral]
    simp only [List.mem_cons, List.not_mem_nil, or_false] at hn
    omega
  · rw [List.map_map]
    refine List.map_congr_left fun n _ ↦ ?_
    show UInt8.ofNat n = UInt8.ofNat (number (numeral 10 decDigit n))
    rw [number_numeral]

/-- **The text of an address** is set as that address. -/
theorem set_str (addr : IPv4Address) (printUnspec : Bool) :
    set (some (str addr printUnspec)) = .ok addr := by
  rw [str]
  split_ifs with hunspec
  · obtain ⟨-, hzero⟩ := Bool.and_eq_true_iff.1 hunspec
    rw [of_decide_eq_true hzero]
    rfl
  · rw [set, (denotes_join addr).parseIPAddress_eq]
    refine congrArg Except.ok (UInt32.toNat_inj.1 ?_)
    have hlt := addr.toNat_lt
    have hoctets := octets_eq addr
    simp only [octets, List.cons.injEq, and_true] at hoctets
    obtain ⟨h0, h1, h2, h3⟩ := hoctets
    rw [toNat_ofBytes, h0, h1, h2, h3, UInt8.toNat_ofNat', UInt8.toNat_ofNat', UInt8.toNat_ofNat',
      UInt8.toNat_ofNat']
    omega

/-- **The texts that are parsed exactly** are those that do not wrap around; the text of an address
is set as that address. -/
theorem parsesExactly_iff (s : CString) (addr : IPv4Address) (printUnspec : Bool) :
    (ParsesExactly s ↔ ¬WrapsAround s) ∧ set (some (str addr printUnspec)) = .ok addr := by
  refine ⟨⟨fun hexact hwraps ↦ ?_, parsesExactly_of_not_wrapsAround⟩, set_str addr printUnspec⟩
  obtain ⟨bytes, hparsed, hnot⟩ := hwraps.exists_parsed
  exact hnot ((hexact bytes).1 hparsed)

/-- `"4294967296.0.0.0"`. -/
def wrappedParts : List CString :=
  [['4', '2', '9', '4', '9', '6', '7', '2', '9', '6'].map Char.toUInt8, ['0'.toUInt8], ['0'.toUInt8],
    ['0'.toUInt8]]

/-- It is parsed as the unspecified address, and denotes none. -/
theorem not_parsesExactly_wrapped :
    parseIPAddress (some (join '.'.toUInt8 wrappedParts)) = some [0, 0, 0, 0] ∧
      ¬ParsesExactly (join '.'.toUInt8 wrappedParts) := by
  have hnumeral : ∀ d ∈ wrappedParts, d ≠ [] ∧ ∀ c ∈ d, isdigit c = true := by decide +kernel
  have hrange : ∀ d ∈ wrappedParts, Int32.ofNat (number d) ≤ 255 := by decide +kernel
  have hwraps : WrapsAround (join '.'.toUInt8 wrappedParts) :=
    ⟨wrappedParts, ⟨rfl, fun d hd ↦ ⟨(hnumeral d hd).1, (hnumeral d hd).2⟩, rfl⟩, hrange,
      _, List.mem_cons_self, by decide⟩
  refine ⟨by decide +kernel, fun hexact ↦ ?_⟩
  obtain ⟨bytes, hparsed, hnot⟩ := hwraps.exists_parsed
  exact hnot ((hexact bytes).1 hparsed)

end Inet.IPv4Address
