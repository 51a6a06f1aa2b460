import Inet.Foundations.Numerals
import Inet.LinkLayer.MACAddress
import Mathlib.Data.List.GetD

/-!
# Parsing of MAC addresses

`MACAddress::tryParse` goes through the text twice: the first pass counts the digits and checks what
else there is, the second one packs the digits into bytes. Both skip the same characters
(`readByte_eq`), so a text that passes the first is read to its last digit, and the address is the
number that the digits denote (`IsHexText.tryParse_eq`). The object that is parsed into is written
only then (`tryParseOn_iff`).
-/

namespace Inet

namespace MACAddress

open Numerals

/-- The second pass of `tryParse`, over the bytes of the object. -/
def convert (a : MACAddress) (hexstr : CString) : MACAddress :=
  ((List.finRange 6).foldl
    (fun (as : MACAddress × CString) pos ↦
      ((as.1.setAddressByte pos (readByte as.2).1), (readByte as.2).2)) (a, hexstr)).1

/-- `MACAddress::tryParse`, on an object and a pointer that may be null. -/
def tryParseOn (a : MACAddress) : Option CString → Bool × MACAddress
  | none => (false, a)
  | some hexstr =>
    if !hexstr.all fun c ↦ isxdigit c || c == ' '.toUInt8 || c == ':'.toUInt8 || c == '-'.toUInt8 then
      (false, a)
    else if hexstr.countP isxdigit ≠ 2 * 6 then (false, a)
    else (true, convert { a with address := 0 } hexstr)

/-- `MACAddress::setAddress`, which throws where the syntax is wrong. -/
def setAddress (a : MACAddress) (hexstr : Option CString) : Except (Option CString) MACAddress :=
  match tryParseOn a hexstr with
  | (true, a) => .ok a
  | (false, _) => .error hexstr

theorem tryParseOn_eq (a : MACAddress) (hexstr : CString) :
    tryParseOn a (some hexstr) =
      match tryParse hexstr with
      | some b => (true, b)
      | none => (false, a) := by
  rw [tryParseOn, tryParse]
  split_ifs <;> rfl

/-! ### The digits of a text -/

/-- What may stand between the digits. -/
def IsSeparator (c : UInt8) : Prop :=
  c = ' '.toUInt8 ∨ c = ':'.toUInt8 ∨ c = '-'.toUInt8

/-- Twelve hexadecimal digits, with separators anywhere. -/
structure IsHexText (s : CString) : Prop where
  char : ∀ c ∈ s, isxdigit c = true ∨ IsSeparator c
  digits : (s.filter isxdigit).length = 12

/-- The number that the digits of a text denote. -/
def hexNumber (s : CString) : ℕ :=
  value 16 (fun c ↦ (hexValue c).toNat) (s.filter isxdigit)

variable {s : CString} {c c' : UInt8} {ds : CString}

theorem toNat_hexValue_lt (h : isxdigit c = true) : (hexValue c).toNat < 16 := by
  have hall : ∀ n < 256, isxdigit (UInt8.ofNat n) = true → (hexValue (UInt8.ofNat n)).toNat < 16 := by
    decide +kernel
  simpa using hall c.toNat c.toNat_lt (by simpa using h)

/-- Two digits are packed into a byte. -/
theorem toNat_packed (h : isxdigit c = true) (h' : isxdigit c' = true) :
    ((hexValue c <<< 4) + hexValue c').toNat = 16 * (hexValue c).toNat + (hexValue c').toNat := by
  have hc := toNat_hexValue_lt h
  have hc' := toNat_hexValue_lt h'
  rw [UInt8.toNat_add, UInt8.toNat_shiftLeft]
  have hfour : (4 : UInt8).toNat % 8 = 4 := by decide
  rw [hfour, Nat.shiftLeft_eq]
  omega

theorem dropWhile_of_filter (h : s.filter isxdigit = c :: ds) :
    ∃ rest, s.dropWhile (!isxdigit ·) = c :: rest ∧ rest.filter isxdigit = ds := by
  induction s with
  | nil => cases h
  | cons b s ih =>
    cases hb : isxdigit b with
    | true =>
      rw [List.filter_cons_of_pos hb] at h
      obtain ⟨rfl, rfl⟩ := List.cons.inj h
      exact ⟨s, List.dropWhile_cons_of_neg (by simp [hb]), rfl⟩
    | false =>
      rw [List.filter_cons_of_neg (by simp [hb])] at h
      rw [List.dropWhile_cons_of_pos (by simp [hb])]
      exact ih h

/-- **A turn of the second pass** packs the next two digits. -/
theorem readByte_eq (h : s.filter isxdigit = c :: c' :: ds) :
    ∃ rest, readByte s = ((hexValue c <<< 4) + hexValue c', rest) ∧ rest.filter isxdigit = ds := by
  obtain ⟨s₁, hdrop₁, hfilter₁⟩ := dropWhile_of_filter h
  obtain ⟨s₂, hdrop₂, hfilter₂⟩ := dropWhile_of_filter hfilter₁
  refine ⟨s₂, ?_, hfilter₂⟩
  rw [readByte, hdrop₁]
  simp only [hdrop₂]

theorem toNat_getAddressByte (n : ℕ) (k : Fin 6) :
    (getAddressByte ⟨BitVec.ofNat 48 n⟩ k).toNat = n % 2 ^ 48 / 2 ^ offset k % 2 ^ 8 := by
  rw [getAddressByte, UInt8.toNat_ofBitVec, BitVec.toNat_setWidth, BitVec.toNat_ushiftRight,
    BitVec.toNat_ofNat, Nat.shiftRight_eq_div_pow]

/-- The high and the low digit of a byte. -/
def hi (ds : CString) (k : Fin 6) : UInt8 :=
  ds.getD (2 * k) 0

def lo (ds : CString) (k : Fin 6) : UInt8 :=
  ds.getD (2 * k + 1) 0

theorem eq_flatMap (h : ds.length = 12) : ds = (List.finRange 6).flatMap fun k ↦ [hi ds k, lo ds k] := by
  match ds, h with
  | [_, _, _, _, _, _, _, _, _, _, _, _], _ => rfl

/-- The loop writes the bytes of an address when its digits are those. -/
theorem foldl_readByte {b : MACAddress} {hi lo : Fin 6 → UInt8}
    (hb : ∀ k, (hexValue (hi k) <<< 4) + hexValue (lo k) = b.getAddressByte k) {ks : List (Fin 6)}
    {a : MACAddress} (h : s.filter isxdigit = ks.flatMap fun k ↦ [hi k, lo k]) :
    (ks.foldl (fun (as : MACAddress × CString) pos ↦
      ((as.1.setAddressByte pos (readByte as.2).1), (readByte as.2).2)) (a, s)).1 =
      ks.foldl (fun c k ↦ c.setAddressByte k (b.getAddressByte k)) a := by
  induction ks generalizing a s with
  | nil => rfl
  | cons k ks ih =>
    obtain ⟨rest, hread, hrest⟩ := readByte_eq h
    rw [List.foldl_cons, List.foldl_cons, hread, hb]
    exact ih hrest

/-- Two digits of a number are a byte of its address. -/
theorem packed_eq (hdigit : ∀ c ∈ ds, isxdigit c = true) (h : ds.length = 12) (k : Fin 6) :
    (hexValue (hi ds k) <<< 4) + hexValue (lo ds k) =
      getAddressByte ⟨BitVec.ofNat 48 (value 16 (fun c ↦ (hexValue c).toNat) ds)⟩ k := by
  have hk : 2 * (k : ℕ) + 1 < ds.length := by omega
  have hhi : hi ds k = ds[2 * (k : ℕ)] := List.getD_eq_getElem _ _ _
  have hlo : lo ds k = ds[2 * (k : ℕ) + 1] := List.getD_eq_getElem _ _ _
  have hsplit : ds = ds.take (2 * k) ++ [hi ds k, lo ds k] ++ ds.drop (2 * k + 2) := by
    rw [List.append_assoc, hhi, hlo, List.cons_append, List.singleton_append,
      ← List.drop_eq_getElem_cons hk, ← List.drop_eq_getElem_cons, List.take_append_drop]
  have hmem : ∀ c ∈ [hi ds k, lo ds k], isxdigit c = true := by
    rw [hhi, hlo]
    simp [hdigit]
  have hlt : ∀ c ∈ ds, (hexValue c).toNat < 16 := fun c hc ↦ toNat_hexValue_lt (hdigit c hc)
  have hlength : (ds.drop (2 * k + 2)).length = 10 - 2 * k := by
    rw [List.length_drop]
    omega
  have hmiddle : value 16 (fun c ↦ (hexValue c).toNat)
        (ds.take (2 * k) ++ [hi ds k, lo ds k] ++ ds.drop (2 * k + 2)) /
          16 ^ (ds.drop (2 * k + 2)).length % 16 ^ 2 =
      value 16 (fun c ↦ (hexValue c).toNat) [hi ds k, lo ds k] :=
    value_div_mod (fun c hc ↦ toNat_hexValue_lt (hmem c hc))
      (fun c hc ↦ hlt c (List.mem_of_mem_drop hc))
  have hvalue : value 16 (fun c ↦ (hexValue c).toNat) [hi ds k, lo ds k] =
      16 * (hexValue (hi ds k)).toNat + (hexValue (lo ds k)).toNat := by
    simp [value]
  rw [← hsplit, hlength, hvalue] at hmiddle
  have hbound : value 16 (fun c ↦ (hexValue c).toNat) ds < 2 ^ 48 := by
    have hpow := value_lt hlt
    rwa [h] at hpow
  have hpow : 2 ^ offset k = 16 ^ (10 - 2 * (k : ℕ)) := by
    rw [offset, show (16 : ℕ) = 2 ^ 4 from rfl, ← pow_mul]
    congr 1
    omega
  rw [← UInt8.toNat_inj, toNat_packed (hmem _ (by simp)) (hmem _ (by simp)), toNat_getAddressByte,
    Nat.mod_eq_of_lt hbound, hpow]
  exact hmiddle.symm

/-- **The second pass** packs the number that the digits denote. -/
theorem convert_eq (h : (s.filter isxdigit).length = 12) (a : MACAddress) :
    convert a s = ⟨BitVec.ofNat 48 (hexNumber s)⟩ := by
  have hdigit : ∀ c ∈ s.filter isxdigit, isxdigit c = true := fun c hc ↦ (List.mem_filter.1 hc).2
  rw [convert, foldl_readByte (packed_eq hdigit h) (eq_flatMap h), foldl_setAddressByte]
  rfl

/-- The first pass accepts the texts with twelve digits. -/
theorem accepted_iff (s : CString) : IsHexText s ↔
    (s.all fun c ↦ isxdigit c || c == ' '.toUInt8 || c == ':'.toUInt8 || c == '-'.toUInt8) = true ∧
      s.countP isxdigit = 2 * 6 := by
  rw [List.all_eq_true, List.countP_eq_length_filter]
  simp only [Bool.or_eq_true, beq_iff_eq, or_assoc]
  exact ⟨fun h ↦ ⟨h.char, h.digits⟩, fun h ↦ ⟨h.1, h.2⟩⟩

/-- Parsing of a text with twelve digits. -/
theorem IsHexText.tryParse_eq (h : IsHexText s) :
    tryParse s = some ⟨BitVec.ofNat 48 (hexNumber s)⟩ := by
  obtain ⟨hall, hcount⟩ := (accepted_iff s).1 h
  rw [tryParse, if_neg (by simp [hall]), if_neg (not_not.2 hcount)]
  exact congrArg some (convert_eq h.digits ⟨0⟩)

theorem tryParse_eq_none (h : ¬IsHexText s) : tryParse s = none := by
  rw [tryParse]
  split_ifs with hall hcount
  · rfl
  · rfl
  · simp only [Bool.not_eq_true', Bool.not_eq_false] at hall
    exact absurd ((accepted_iff s).2 ⟨hall, not_not.1 hcount⟩) h

/-- Twelve digits denote a number of 48 bits. -/
theorem IsHexText.hexNumber_lt (h : IsHexText s) : hexNumber s < 2 ^ 48 := by
  have hlt : hexNumber s < 16 ^ (s.filter isxdigit).length :=
    value_lt fun c hc ↦ toNat_hexValue_lt (List.mem_filter.1 hc).2
  rwa [h.digits] at hlt

/-- **Parsing a text** succeeds exactly on twelve hexadecimal digits with separators anywhere. The
address is then the number of the digits, and otherwise what it was before. The text form of an
address is parsed as that address. -/
theorem tryParseOn_iff (a : MACAddress) (s : CString) :
    ((tryParseOn a (some s)).1 = true ↔ IsHexText s) ∧
      (IsHexText s → (tryParseOn a (some s)).2.address.toNat = hexNumber s) ∧
      (¬IsHexText s → (tryParseOn a (some s)).2 = a) ∧
      ∀ b : MACAddress, tryParseOn a (some b.str) = (true, b) := by
  refine ⟨⟨fun htrue ↦ ?_, fun h ↦ ?_⟩, fun h ↦ ?_, fun h ↦ ?_, fun b ↦ ?_⟩
  · by_contra h
    rw [tryParseOn_eq, tryParse_eq_none h] at htrue
    cases htrue
  · rw [tryParseOn_eq, h.tryParse_eq]
  · rw [tryParseOn_eq, h.tryParse_eq]
    exact (BitVec.toNat_ofNat _ _).trans (Nat.mod_eq_of_lt h.hexNumber_lt)
  · rw [tryParseOn_eq, tryParse_eq_none h]
  · rw [tryParseOn_eq, tryParse_str]

end MACAddress

end Inet
