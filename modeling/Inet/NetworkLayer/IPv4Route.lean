import Inet.Foundations.SortedScan
import Mathlib.Data.Prod.Lex
import Mathlib.Data.List.Range
import Mathlib.Algebra.Order.Ring.Int
import Mathlib.Data.Nat.Cast.Order.Ring

/-!
# IPv4 routes

Addresses, netmasks, and the routes of `IPv4RoutingTable`, with the comparison `routeLessThan` that
orders them. The comparison is that of a key (`routeLessThan_iff`), and of two routes that match one
address, the one with the smaller key is the better one (`asGoodAs_of_key_le`): its prefix is
longer, or as long and its administrative distance is smaller, or that is the same and its metric is
smaller.
-/

namespace Inet

/-- The value of an `IPv4Address`. -/
abbrev IPv4Address :=
  UInt32

namespace IPv4Address

/-- Addresses are ordered as numbers. -/
instance : LinearOrder IPv4Address where
  le_refl := UInt32.le_refl
  le_trans _ _ _ := UInt32.le_trans
  lt_iff_le_not_ge a b := by rw [UInt32.not_le]; exact ⟨fun h ↦ ⟨UInt32.le_of_lt h, h⟩, And.right⟩
  le_antisymm _ _ := UInt32.le_antisymm
  le_total := UInt32.le_total
  toDecidableLE := inferInstance
  toDecidableLT := inferInstance
  toDecidableEq := inferInstance

/-- `IPv4Address::getNetmaskLength`. -/
def getNetmaskLength (addr : IPv4Address) : ℕ :=
  match (List.range 32).find? fun i ↦ addr &&& (1 <<< UInt32.ofNat i) ≠ 0 with
  | some i => 32 - i
  | none => 0

/-- `IPv4Address::_makeNetmask`. -/
def makeNetmask (length : ℕ) : IPv4Address :=
  if 32 ≤ length then 0xffffffff else ~~~(0xffffffff >>> UInt32.ofNat length)

/-- `IPv4Address::isValidNetmask`. -/
def IsValidNetmask (addr : IPv4Address) : Prop :=
  addr = makeNetmask (getNetmaskLength addr)

instance (addr : IPv4Address) : Decidable (IsValidNetmask addr) :=
  inferInstanceAs (Decidable (_ = _))

/-- `IPv4Address::maskedAddrAreEqual`. -/
def maskedAddrAreEqual (addr1 addr2 netmask : IPv4Address) : Bool :=
  (addr1 ^^^ addr2) &&& netmask = 0

theorem getNetmaskLength_le (addr : IPv4Address) : getNetmaskLength addr ≤ 32 := by
  rw [getNetmaskLength]
  split <;> omega

/-- A longer netmask is a larger number. -/
theorem makeNetmask_lt : ∀ m ≤ 32, ∀ n < m, makeNetmask n < makeNetmask m := by
  decide +kernel

/-- Of valid netmasks, the larger number is the longer one. -/
theorem IsValidNetmask.length_le {a b : IPv4Address} (ha : IsValidNetmask a) (hb : IsValidNetmask b)
    (hle : a ≤ b) : getNetmaskLength a ≤ getNetmaskLength b := by
  by_contra hlt
  rw [not_le] at hlt
  have hmask := makeNetmask_lt _ (getNetmaskLength_le a) _ hlt
  rw [← ha, ← hb] at hmask
  exact absurd hle (UInt32.not_le.2 hmask)

theorem IsValidNetmask.eq_of_length_eq {a b : IPv4Address} (ha : IsValidNetmask a)
    (hb : IsValidNetmask b) (heq : getNetmaskLength a = getNetmaskLength b) : a = b := by
  rw [ha, hb, heq]

/-- Two prefixes under one netmask that match an address are the same. -/
theorem eq_of_maskedAddrAreEqual {addr a b netmask : IPv4Address} (ha : a &&& ~~~netmask = 0)
    (hb : b &&& ~~~netmask = 0) (hmatcha : maskedAddrAreEqual addr a netmask = true)
    (hmatchb : maskedAddrAreEqual addr b netmask = true) : a = b := by
  simp only [maskedAddrAreEqual, decide_eq_true_eq] at hmatcha hmatchb
  simp only [← UInt32.toBitVec_inj, UInt32.toBitVec_and, UInt32.toBitVec_xor, UInt32.toBitVec_not,
    UInt32.toBitVec_zero] at *
  refine BitVec.eq_of_getLsbD_eq fun i hi ↦ ?_
  have hbit {x y : BitVec 32} (h : x = y) : x.getLsbD i = y.getLsbD i := by rw [h]
  have ha' := hbit ha
  have hb' := hbit hb
  have hmatcha' := hbit hmatcha
  have hmatchb' := hbit hmatchb
  simp only [BitVec.getLsbD_and, BitVec.getLsbD_xor, BitVec.getLsbD_not, hi, decide_true,
    Bool.true_and, BitVec.getLsbD_zero] at ha' hb' hmatcha' hmatchb'
  revert ha' hb' hmatcha' hmatchb'
  cases a.toBitVec.getLsbD i <;> cases b.toBitVec.getLsbD i <;> cases addr.toBitVec.getLsbD i <;>
    cases netmask.toBitVec.getLsbD i <;> simp

end IPv4Address

/-- `IRoute::SourceType`. -/
inductive SourceType
  | MANUAL
  | IFACENETMASK
  | ROUTER_ADVERTISEMENT
  | OWN_ADV_PREFIX
  | ICMP_REDIRECT
  | RIP
  | OSPF
  | BGP
  | ZEBRA
  | MANET
  | MANET2
  | DYMO
  | AODV
  deriving DecidableEq, Repr

/-- `IRoute::ChangeCodes`. -/
inductive ChangeCodes
  | F_DESTINATION
  | F_PREFIX_LENGTH
  | F_NEXTHOP
  | F_IFACE
  | F_SOURCE
  | F_TYPE
  | F_ADMINDIST
  | F_METRIC
  | F_EXPIRYTIME
  deriving DecidableEq, Repr

/-- `class IPv4Route`. Interfaces and sources are objects of which only the identity matters. A
route of a derived class may expire: it is not valid then. -/
structure IPv4Route where
  dest : IPv4Address := 0
  netmask : IPv4Address := 0
  gateway : IPv4Address := 0
  interfacePtr : Option ℕ := none
  sourceType : SourceType := .MANUAL
  adminDist : ℕ := 255
  metric : ℤ := 0
  source : Option ℕ := none
  isValid : Bool := true
  deriving DecidableEq, Repr

namespace IPv4Route

open IPv4Address

variable {useAdminDist : Bool} {a b : IPv4Route} {addr : IPv4Address}

/-- `IPv4RoutingTable::routeLessThan`. -/
def routeLessThan (useAdminDist : Bool) (a b : IPv4Route) : Bool :=
  if a.netmask ≠ b.netmask then b.netmask < a.netmask
  else if a.dest ≠ b.dest then a.dest < b.dest
  else if useAdminDist ∧ a.adminDist ≠ b.adminDist then a.adminDist < b.adminDist
  else a.metric < b.metric

/-- What `routeLessThan` compares, one after the other. -/
def key (useAdminDist : Bool) (a : IPv4Route) : ℤ ×ₗ ℕ ×ₗ ℕ ×ₗ ℤ :=
  toLex (-(a.netmask.toNat : ℤ), toLex (a.dest.toNat,
    toLex (if useAdminDist then a.adminDist else 0, a.metric)))

theorem routeLessThan_iff :
    routeLessThan useAdminDist a b = true ↔ key useAdminDist a < key useAdminDist b := by
  simp only [routeLessThan, key, Prod.Lex.toLex_lt_toLex, ne_eq, neg_lt_neg_iff, neg_inj,
    Nat.cast_lt, Nat.cast_inj, UInt32.toNat_inj, ← UInt32.lt_iff_toNat_lt]
  by_cases hmask : a.netmask = b.netmask
  · by_cases hdest : a.dest = b.dest
    · cases useAdminDist with
      | false => simp [hmask, hdest]
      | true =>
        by_cases hdist : a.adminDist = b.adminDist <;>
          simp [hmask, hdest, hdist]
    · simp [hmask, hdest]
  · simp [hmask]

/-- A route matches an address. -/
def Matches (addr : IPv4Address) (a : IPv4Route) : Bool :=
  a.isValid && maskedAddrAreEqual addr a.dest a.netmask

/-- What a route of the table is like: the netmask is one, and the destination lies inside. -/
structure WellFormed (a : IPv4Route) : Prop where
  isValidNetmask : IsValidNetmask a.netmask
  inside : a.dest &&& ~~~a.netmask = 0

/-- A route is at least as good as another. -/
def AsGoodAs (useAdminDist : Bool) (a b : IPv4Route) : Prop :=
  getNetmaskLength b.netmask ≤ getNetmaskLength a.netmask ∧
    (getNetmaskLength b.netmask = getNetmaskLength a.netmask →
      (useAdminDist = true → a.adminDist ≤ b.adminDist) ∧
        ((useAdminDist = true → a.adminDist = b.adminDist) → a.metric ≤ b.metric))

/-- **Among the routes that match, those with smaller keys are better.** -/
theorem asGoodAs_of_key_le (hle : key useAdminDist a ≤ key useAdminDist b) (ha : a.WellFormed)
    (hb : b.WellFormed) (hmatcha : a.Matches addr = true) (hmatchb : b.Matches addr = true) :
    AsGoodAs useAdminDist a b := by
  simp only [Matches, Bool.and_eq_true] at hmatcha hmatchb
  simp only [key, Prod.Lex.toLex_le_toLex, neg_lt_neg_iff, neg_inj, Nat.cast_lt, Nat.cast_inj,
    UInt32.toNat_inj, ← UInt32.lt_iff_toNat_lt] at hle
  rcases hle with hlt | ⟨hmask, hle⟩
  · have hlength := hb.isValidNetmask.length_le ha.isValidNetmask (UInt32.le_of_lt hlt)
    refine ⟨hlength, fun heq ↦ ?_⟩
    rw [hb.isValidNetmask.eq_of_length_eq ha.isValidNetmask heq] at hlt
    exact absurd hlt (UInt32.lt_irrefl _)
  · refine ⟨by rw [hmask], fun _ ↦ ?_⟩
    have hinside := hb.inside
    have hmatch := hmatchb.2
    rw [← hmask] at hinside hmatch
    have hdest := eq_of_maskedAddrAreEqual ha.inside hinside hmatcha.2 hmatch
    rw [hdest] at hle
    rcases hle with hlt | ⟨-, hlt | ⟨hdist, hmetric⟩⟩
    · exact absurd hlt (UInt32.lt_irrefl _)
    · cases useAdminDist with
      | false => exact absurd hlt (lt_irrefl 0)
      | true => exact ⟨fun _ ↦ hlt.le, fun heq ↦ absurd (heq rfl) hlt.ne⟩
    · cases useAdminDist with
      | false => exact ⟨fun h ↦ Bool.noConfusion h, fun _ ↦ hmetric⟩
      | true => exact ⟨fun _ ↦ le_of_eq hdist, fun _ ↦ hmetric⟩

end IPv4Route

end Inet
