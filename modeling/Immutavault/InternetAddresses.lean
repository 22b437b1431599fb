import Mathlib.Algebra.GroupWithZero.Nat
import Mathlib.Data.List.Induction
import Mathlib.Data.Set.BooleanAlgebra
import Mathlib.Data.Set.Disjoint
import Mathlib.Order.CompletePartialOrder
import Immutavault.SeparatedTexts

/-!
# Internet addresses and their networks

An address of version 4 has thirty-two bits and is written as four decimal numbers. One
of version 6 has a hundred and twenty-eight bits and is written as eight hexadecimal
numbers, where the longest run of zeros is left out; it may name a zone. A network is an
address with the number of bits that its members share, and an interface is an address
together with the network around it.

What is read is what the usual library of addresses reads: octets without leading zeros,
numbers that are left out at one place only, a last part that is written as a version 4
address, lengths of prefixes and masks.

The check that compares the first and the last address of two networks finds out exactly
whether they have a common member.
-/

namespace Immutavault.InternetAddresses

open SeparatedTexts

/-- The two versions of the protocol. -/
inductive Version where
  | v4
  | v6
  deriving DecidableEq, Repr

/-- How many bits an address has. -/
def Version.width : Version → Nat
  | .v4 => 32
  | .v6 => 128

/-- The address with all bits set. -/
def Version.allOnes : Version → Nat
  | .v4 => 4294967295
  | .v6 => 340282366920938463463374607431768211455

/-- The bits that the members of a network share. -/
def Version.netmask (version : Version) (prefixlen : Nat) : Nat :=
  version.allOnes ^^^ (version.allOnes >>> prefixlen)

/-- The bits in which the members of a network differ. -/
def Version.hostmask (version : Version) (prefixlen : Nat) : Nat :=
  version.netmask prefixlen ^^^ version.allOnes

section Numerals

/-- The value of a hexadecimal digit. -/
def hexValue (digit : Char) : Nat :=
  if digit.isDigit then digit.toNat - 48
  else if 97 ≤ digit.toNat then digit.toNat - 87 else digit.toNat - 55

def isHexDigit (digit : Char) : Bool :=
  digit.isDigit || (97 ≤ digit.toNat && digit.toNat ≤ 102) ||
    (65 ≤ digit.toNat && digit.toNat ≤ 70)

/-- The number that groups of digits make up, from the most significant one on. -/
def whole (base : Nat) (groups : List Nat) : Nat :=
  groups.foldl (fun value group => base * value + group) 0

/-- The last groups of digits of a number. -/
def groupsOf (base : Nat) : Nat → Nat → List Nat
  | 0, _ => []
  | count + 1, value => groupsOf base count (value / base) ++ [value % base]

end Numerals

section Reading

/-- The name of a zone. -/
abbrev Zone := {name : List Char // name ≠ [] ∧ '%' ∉ name ∧ '/' ∉ name}

/-- One of the four numbers of a version 4 address. -/
def parseOctet (octet : List Char) : Option Nat :=
  if octet = [] ∨ ¬ octet.all Char.isDigit ∨ 3 < octet.length ∨
      octet ≠ ['0'] ∧ octet.head? = some '0' then none
  else
    let value := Nat.ofDigitChars 10 octet 0
    if 255 < value then none else some value

/-- The number behind the text of a version 4 address. -/
def parseIPv4 (text : List Char) : Option Nat :=
  let octets := text.splitOn '.'
  if octets.length ≠ 4 then none else (octets.mapM parseOctet).map (whole 256)

/-- One of the eight numbers of a version 6 address. -/
def parseHextet (hextet : List Char) : Option Nat :=
  if ¬ hextet.all isHexDigit ∨ 4 < hextet.length ∨ hextet = [] then none
  else some (whole 16 (hextet.map hexValue))

/-- The parts of a version 6 address. A last part in version 4 style stands for two. -/
def partsOf (text : List Char) : Option (List (List Char)) :=
  let parts := text.splitOn ':'
  let last := parts.getLast?.getD []
  if parts.length < 3 then none
  else if '.' ∈ last then
    (parseIPv4 last).map fun value =>
      parts.dropLast ++ [Nat.toDigits 16 (value / 65536), Nat.toDigits 16 (value % 65536)]
  else some parts

/-- Where numbers are left out: the one inner part without text. -/
def skipIndex (parts : List (List Char)) : Option (Option Nat) :=
  let inner := parts.tail.dropLast
  match inner.count [] with
  | 0 => some none
  | 1 => some (some (inner.idxOf [] + 1))
  | _ => none

/-- The parts on one side of the numbers that are left out. Without text at the outer end
there is nothing else on this side. -/
def sideOf (outer : List Char) (side : List (List Char)) : Option (List (List Char)) :=
  if outer ≠ [] then some side else if side.length = 1 then some [] else none

/-- The numbers of a version 6 address. -/
def hextetsOf (parts : List (List Char)) : Option (List Nat) := do
  match ← skipIndex parts with
  | some index =>
    let high ← sideOf (parts.head?.getD []) (parts.take index)
    let low ← sideOf (parts.getLast?.getD []) (parts.drop (index + 1))
    if 8 ≤ high.length + low.length then none
    let first ← high.mapM parseHextet
    let last ← low.mapM parseHextet
    return first ++ List.replicate (8 - (high.length + low.length)) 0 ++ last
  | none => if parts.length ≠ 8 then none else parts.mapM parseHextet

/-- The number behind the text of a version 6 address without a zone. -/
def parseIPv6 (text : List Char) : Option Nat := do
  let parts ← partsOf text
  if 9 < parts.length then none
  return whole 65536 (← hextetsOf parts)

/-- The text and the zone of a version 6 address. -/
def splitZone (text : List Char) : Option (List Char × Option Zone) :=
  match text.dropWhile (· ≠ '%') with
  | [] => some (text, none)
  | _ :: name =>
    if named : name ≠ [] ∧ '%' ∉ name ∧ '/' ∉ name then
      some (text.takeWhile (· ≠ '%'), some ⟨name, named⟩)
    else none

end Reading

section Writing

/-- A stretch of zeros in a version 6 address. -/
structure Stretch where
  start : Nat
  length : Nat

/-- The longest stretch so far, and the one that has just been read. -/
structure Stretches where
  best : Stretch
  current : Stretch

/-- Read the number at an index. -/
def Stretches.step (stretches : Stretches) (index hextet : Nat) : Stretches :=
  if hextet = 0 then
    let current : Stretch :=
      ⟨if stretches.current.length = 0 then index else stretches.current.start,
        stretches.current.length + 1⟩
    ⟨if stretches.best.length < current.length then current else stretches.best, current⟩
  else ⟨stretches.best, ⟨0, 0⟩⟩

def Stretches.scan (stretches : Stretches) (index : Nat) : List Nat → Stretches
  | [] => stretches
  | hextet :: rest => (stretches.step index hextet).scan (index + 1) rest

/-- The longest stretch of zeros; the first one of those that are as long. -/
def longestStretch (hextets : List Nat) : Stretch :=
  (Stretches.scan ⟨⟨0, 0⟩, ⟨0, 0⟩⟩ 0 hextets).best

/-- The parts of a version 6 address, without the longest stretch of zeros. -/
def compressed (hextets : List Nat) : List (List Char) :=
  let best := longestStretch hextets
  let texts := hextets.map (Nat.toDigits 16)
  if best.length ≤ 1 then texts
  else
    (if best.start = 0 then [[]] else texts.take best.start) ++ [] ::
      (if best.start + best.length = texts.length then [[]]
        else texts.drop (best.start + best.length))

def textIPv4 (value : Nat) : List Char :=
  ['.'].intercalate ((groupsOf 256 4 value).map (Nat.toDigits 10))

def textIPv6 (value : Nat) : List Char := [':'].intercalate (compressed (groupsOf 65536 8 value))

end Writing

section Bounds

/-- Groups below the base make up a number that is as long as they are. -/
theorem whole_lt {base : Nat} {groups : List Nat} (small : ∀ group ∈ groups, group < base) :
    whole base groups < base ^ groups.length := by
  induction groups using List.reverseRecOn with
  | nil => simp [whole]
  | append_singleton groups last inductionHypothesis =>
    have before := inductionHypothesis fun group member => small group (by simp [member])
    have below := small last (by simp)
    have step : whole base (groups ++ [last]) = base * whole base groups + last := by
      simp [whole]
    have room : base * whole base groups + base ≤ base * base ^ groups.length := by
      calc base * whole base groups + base = base * (whole base groups + 1) := by
            rw [Nat.mul_add, Nat.mul_one]
        _ ≤ base * base ^ groups.length := Nat.mul_le_mul_left base before
    rw [step, List.length_append, List.length_singleton, Nat.pow_succ, Nat.mul_comm _ base]
    omega

theorem parseOctet_lt {octet : List Char} {value : Nat} (read : parseOctet octet = some value) :
    value < 256 := by
  unfold parseOctet at read
  split at read
  · cases read
  · dsimp only at read
    split at read
    · cases read
    · cases read
      omega

theorem parseIPv4_le {text : List Char} {value : Nat} (read : parseIPv4 text = some value) :
    value ≤ Version.v4.allOnes := by
  unfold parseIPv4 at read
  dsimp only at read
  split at read
  · cases read
  · rename_i four
    obtain ⟨octets, each, rfl⟩ := Option.map_eq_some_iff.mp read
    have small : ∀ octet ∈ octets, octet < 256 := fun octet member => by
      obtain ⟨_, _, readOctet⟩ := mem_of_mapM each member
      exact parseOctet_lt readOctet
    have length : octets.length = 4 :=
      (length_mapM each).trans (not_not.mp four)
    have bound := whole_lt small
    rw [length] at bound
    exact Nat.le_of_lt_succ bound

theorem hexValue_lt {digit : Char} (hex : isHexDigit digit = true) : hexValue digit < 16 := by
  unfold hexValue
  split
  · rename_i numeral
    have bounds : 48 ≤ digit.toNat ∧ digit.toNat ≤ 57 := Char.isDigit_iff_toNat.mp numeral
    omega
  · rename_i other
    simp only [isHexDigit, other, Bool.false_or, Bool.or_eq_true, Bool.and_eq_true,
      decide_eq_true_eq] at hex
    split <;> omega

theorem parseHextet_lt {hextet : List Char} {value : Nat} (read : parseHextet hextet = some value) :
    value < 65536 := by
  unfold parseHextet at read
  split at read
  · cases read
  · rename_i fine
    cases read
    simp only [not_or, not_not, Nat.not_lt] at fine
    have small : ∀ digit ∈ hextet.map hexValue, digit < 16 := by
      intro digit member
      obtain ⟨character, present, rfl⟩ := List.mem_map.mp member
      exact hexValue_lt (List.all_eq_true.mp fine.1 character present)
    have bound := whole_lt small
    rw [List.length_map] at bound
    exact Nat.lt_of_lt_of_le bound (Nat.pow_le_pow_right (by decide) fine.2.1)

theorem hextetsOf_spec {parts : List (List Char)} {hextets : List Nat}
    (read : hextetsOf parts = some hextets) :
    hextets.length = 8 ∧ ∀ hextet ∈ hextets, hextet < 65536 := by
  have small : ∀ {texts : List (List Char)} {values : List Nat},
      texts.mapM parseHextet = some values → ∀ value ∈ values, value < 65536 := by
    intro texts values each value member
    obtain ⟨_, _, one⟩ := mem_of_mapM each member
    exact parseHextet_lt one
  unfold hextetsOf at read
  simp only [Option.bind_eq_bind, Option.bind_eq_some_iff] at read
  obtain ⟨skip, _, read⟩ := read
  cases skip with
  | none =>
    dsimp only at read
    split at read
    · cases read
    · rename_i eight
      exact ⟨(length_mapM read).trans (not_not.mp eight), small read⟩
  | some index =>
    simp only [Option.bind_eq_some_iff] at read
    obtain ⟨high, _, low, _, read⟩ := read
    split at read
    · cases read
    · rename_i room
      simp only [Option.pure_def, Option.bind_eq_some_iff, Option.some.injEq] at read
      obtain ⟨first, readFirst, last, readLast, rfl⟩ := read
      have firstLength := length_mapM readFirst
      have lastLength := length_mapM readLast
      refine ⟨by simp; omega, fun hextet member => ?_⟩
      rcases List.mem_append.mp member with front | back
      · rcases List.mem_append.mp front with inFirst | zero
        · exact small readFirst hextet inFirst
        · rw [List.eq_of_mem_replicate zero]
          decide
      · exact small readLast hextet back

theorem parseIPv6_le {text : List Char} {value : Nat} (read : parseIPv6 text = some value) :
    value ≤ Version.v6.allOnes := by
  unfold parseIPv6 at read
  simp only [Option.bind_eq_bind, Option.bind_eq_some_iff] at read
  obtain ⟨parts, _, read⟩ := read
  split at read
  · cases read
  · simp only [Option.pure_def, Option.bind_eq_some_iff, Option.some.injEq] at read
    obtain ⟨hextets, each, rfl⟩ := read
    obtain ⟨length, small⟩ := hextetsOf_spec each
    have bound := whole_lt small
    rw [length] at bound
    exact Nat.le_of_lt_succ bound

end Bounds

/-- An address. Only one of version 6 has a zone. -/
inductive Address where
  | v4 (value : Nat) (bounded : value ≤ Version.v4.allOnes)
  | v6 (value : Nat) (zone : Option Zone) (bounded : value ≤ Version.v6.allOnes)
  deriving DecidableEq

namespace Address

def version : Address → Version
  | v4 _ _ => .v4
  | v6 _ _ _ => .v6

def value : Address → Nat
  | v4 value _ => value
  | v6 value _ _ => value

theorem value_le : ∀ address : Address, address.value ≤ address.version.allOnes
  | v4 _ bounded => bounded
  | v6 _ _ bounded => bounded

def text : Address → List Char
  | v4 value _ => textIPv4 value
  | v6 value none _ => textIPv6 value
  | v6 value (some zone) _ => textIPv6 value ++ '%' :: zone.val

/-- The address without the bits outside a mask. It is in no zone. -/
def masked : Address → Nat → Address
  | v4 value bounded, mask => v4 (value &&& mask) (Nat.le_trans Nat.and_le_left bounded)
  | v6 value _ bounded, mask => v6 (value &&& mask) none (Nat.le_trans Nat.and_le_left bounded)

@[simp] theorem version_masked (address : Address) (mask : Nat) :
    (address.masked mask).version = address.version := by
  cases address <;> rfl

@[simp] theorem value_masked (address : Address) (mask : Nat) :
    (address.masked mask).value = address.value &&& mask := by
  cases address <;> rfl

end Address

def parseAddress (version : Version) (text : List Char) : Option Address :=
  match version with
  | .v4 => (parseIPv4 text).pmap Address.v4 fun _ read => parseIPv4_le read
  | .v6 =>
    if '/' ∈ text then none
    else (splitZone text).bind fun split =>
      (parseIPv6 split.1).pmap (fun value => Address.v6 value split.2) fun _ read => parseIPv6_le read

/-- The address that a text writes, of whichever version. -/
def ipAddress (text : List Char) : Option Address :=
  (parseAddress .v4 text).or (parseAddress .v6 text)

/-- An address with the length of the prefix that its network shares. -/
structure Interface where
  address : Address
  prefixlen : Nat
  bounded : prefixlen ≤ address.version.width
  deriving DecidableEq

def Interface.text (interface : Interface) : List Char :=
  interface.address.text ++ '/' :: Nat.toDigits 10 interface.prefixlen

def Interface.netmask (interface : Interface) : Nat :=
  interface.address.version.netmask interface.prefixlen

/-- No bit is set behind the prefix. -/
def Interface.Aligned (interface : Interface) : Prop :=
  interface.address.value &&& interface.netmask = interface.address.value

instance (interface : Interface) : Decidable interface.Aligned :=
  inferInstanceAs (Decidable (_ = _))

/-- A network: its first address with the length of the prefix. -/
structure Network extends Interface where
  aligned : toInterface.Aligned
  deriving DecidableEq

section Prefixes

/-- The length of a prefix whose mask is this number. -/
def prefixOfMask (mask : Nat) : Option Nat :=
  (List.range 33).find? fun prefixlen => Version.v4.netmask prefixlen = mask

/-- The length of a prefix from the text of a mask, or of its complement. -/
def prefixOfText (text : List Char) : Option Nat := do
  let mask ← parseIPv4 text
  (prefixOfMask mask).or (prefixOfMask (mask ^^^ Version.v4.allOnes))

/-- The length of a prefix in decimal digits. -/
def prefixOfDigits (version : Version) (digits : List Char) : Option Nat :=
  if digits = [] ∨ ¬ digits.all Char.isDigit then none
  else
    let prefixlen := Nat.ofDigitChars 10 digits 0
    if version.width < prefixlen then none else some prefixlen

/-- The length of a prefix. Only version 4 has masks. -/
def parsePrefix (version : Version) (text : List Char) : Option Nat :=
  match version with
  | .v4 => (prefixOfDigits .v4 text).or (prefixOfText text)
  | .v6 => prefixOfDigits .v6 text

theorem prefixOfMask_le {mask prefixlen : Nat} (read : prefixOfMask mask = some prefixlen) :
    prefixlen ≤ Version.v4.width := by
  have member := List.mem_of_find?_eq_some read
  exact Nat.le_of_lt_succ (List.mem_range.mp member)

theorem prefixOfDigits_le {version : Version} {digits : List Char} {prefixlen : Nat}
    (read : prefixOfDigits version digits = some prefixlen) : prefixlen ≤ version.width := by
  unfold prefixOfDigits at read
  split at read
  · cases read
  · dsimp only at read
    split at read
    · cases read
    · cases read
      omega

theorem parsePrefix_le {version : Version} {text : List Char} {prefixlen : Nat}
    (read : parsePrefix version text = some prefixlen) : prefixlen ≤ version.width := by
  cases version with
  | v6 => exact prefixOfDigits_le read
  | v4 =>
    rcases Option.or_eq_some_iff.mp read with digits | ⟨_, quad⟩
    · exact prefixOfDigits_le digits
    · obtain ⟨mask, _, found⟩ := Option.bind_eq_some_iff.mp quad
      rcases Option.or_eq_some_iff.mp found with mask | ⟨_, complement⟩
      · exact prefixOfMask_le mask
      · exact prefixOfMask_le complement

end Prefixes

section Networks

/-- The interface that a text writes for one version; without a slash its prefix is the
whole address. -/
def parseInterface (version : Version) (text : List Char) : Option Interface :=
  match text.splitOn '/' with
  | [address] => (parseAddress version address).map fun address => ⟨address, _, Nat.le_refl _⟩
  | [address, length] =>
    (parseAddress version address).bind fun address =>
      (parsePrefix address.version length).pmap (Interface.mk address) fun _ read =>
        parsePrefix_le read
  | _ => none

/-- The interface that a text writes, of whichever version. -/
def ipInterface (text : List Char) : Option Interface :=
  (parseInterface .v4 text).or (parseInterface .v6 text)

/-- Why a text is not that of a network. -/
inductive Fault where
  | malformed
  | hostBits (interface : Interface)

/-- The network that a text writes; it must not have bits set behind its prefix. -/
def ipNetwork (text : List Char) : Except Fault Network :=
  match ipInterface text with
  | none => .error .malformed
  | some interface =>
    if aligned : interface.Aligned then .ok ⟨interface, aligned⟩ else .error (.hostBits interface)

/-- The interface without the bits behind its prefix. -/
def Interface.masked (interface : Interface) : Interface where
  address := interface.address.masked interface.netmask
  prefixlen := interface.prefixlen
  bounded := by
    rw [Address.version_masked]
    exact interface.bounded

theorem Interface.netmask_masked (interface : Interface) :
    interface.masked.netmask = interface.netmask := by
  change (interface.address.masked _).version.netmask interface.prefixlen = _
  rw [Address.version_masked]
  rfl

theorem Interface.aligned_masked (interface : Interface) : interface.masked.Aligned := by
  have value : interface.masked.address.value = interface.address.value &&& interface.netmask :=
    Address.value_masked _ _
  unfold Aligned
  rw [netmask_masked, value, Nat.and_assoc, Nat.and_self]

/-- The network around an interface. -/
def Interface.network (interface : Interface) : Network :=
  if aligned : interface.Aligned then ⟨interface, aligned⟩
  else ⟨interface.masked, interface.aligned_masked⟩

namespace Network

/-- The last address of a network. -/
def broadcast (network : Network) : Nat :=
  network.address.value ||| network.address.version.hostmask network.prefixlen

/-- A number is an address of a network, for one version. -/
def holds (network : Network) (version : Version) (value : Nat) : Bool :=
  network.address.version = version && value &&& network.netmask = network.address.value

def contains (network : Network) (address : Address) : Bool :=
  network.holds address.version address.value

/-- One of the two networks holds the first or the last address of the other. -/
def overlaps (network other : Network) : Bool :=
  other.contains network.address || (other.holds network.address.version network.broadcast ||
    (network.contains other.address || network.holds other.address.version other.broadcast))

/-- The comparison of networks: first addresses with their zones, and masks. -/
def equal (network other : Network) : Bool :=
  network.address.version = other.address.version && network.address = other.address &&
    network.netmask = other.netmask

/-- The members of a network. -/
def addresses (network : Network) : Set Address := {address | network.contains address = true}

end Network

end Networks

section Overlap

theorem allOnes_eq (version : Version) : version.allOnes = 2 ^ version.width - 1 := by
  cases version <;> decide

theorem testBit_allOnes (version : Version) (index : Nat) :
    version.allOnes.testBit index = decide (index < version.width) := by
  rw [allOnes_eq, Nat.testBit_two_pow_sub_one]

theorem testBit_of_le {version : Version} {value : Nat} (bounded : value ≤ version.allOnes)
    {index : Nat} (outside : version.width ≤ index) : value.testBit index = false := by
  have positive := Nat.two_pow_pos version.width
  rw [allOnes_eq] at bounded
  exact Nat.testBit_lt_two_pow (Nat.lt_of_lt_of_le (show value < 2 ^ version.width by omega)
    (Nat.pow_le_pow_right (by decide) outside))

/-- The mask has the bits from the end of the prefix on. -/
theorem testBit_netmask (version : Version) (prefixlen index : Nat) :
    (version.netmask prefixlen).testBit index =
      decide (version.width - prefixlen ≤ index ∧ index < version.width) := by
  rw [Version.netmask, Nat.testBit_xor, Nat.testBit_shiftRight, testBit_allOnes, testBit_allOnes,
    Bool.eq_iff_iff]
  simp
  omega

theorem testBit_hostmask (version : Version) (prefixlen index : Nat) :
    (version.hostmask prefixlen).testBit index = decide (index < version.width - prefixlen) := by
  rw [Version.hostmask, Nat.testBit_xor, testBit_netmask, testBit_allOnes, Bool.eq_iff_iff]
  simp
  omega

/-- Two numbers have the same bits from one position on. -/
def AgreeFrom (position first second : Nat) : Prop :=
  ∀ index, position ≤ index → first.testBit index = second.testBit index

namespace Network

/-- The number of bits in which the members of a network differ. -/
def hostBits (network : Network) : Nat := network.address.version.width - network.prefixlen

theorem testBit_mask (network : Network) (index : Nat) : network.netmask.testBit index =
    decide (network.hostBits ≤ index ∧ index < network.address.version.width) :=
  testBit_netmask _ _ _

theorem testBit_address_of_le (network : Network) {index : Nat}
    (outside : network.address.version.width ≤ index) :
    network.address.value.testBit index = false :=
  testBit_of_le network.address.value_le outside

/-- The first address has no bits behind the prefix. -/
theorem testBit_address_of_lt (network : Network) {index : Nat} (host : index < network.hostBits) :
    network.address.value.testBit index = false := by
  have bit : (network.address.value &&& network.netmask).testBit index =
      network.address.value.testBit index := congrArg (Nat.testBit · index) network.aligned
  rw [Nat.testBit_and, testBit_mask, decide_eq_false fun both => Nat.not_le.mpr host both.1,
    Bool.and_false] at bit
  exact bit.symm

/-- A number is held exactly when it has the prefix of the network. -/
theorem holds_iff (network : Network) {version : Version} {value : Nat}
    (outside : ∀ index, version.width ≤ index → value.testBit index = false) :
    network.holds version value = true ↔ network.address.version = version ∧
      AgreeFrom network.hostBits value network.address.value := by
  rw [holds, Bool.and_eq_true, decide_eq_true_eq, decide_eq_true_eq]
  refine and_congr_right fun same => ?_
  subst same
  constructor
  · intro masked index shared
    by_cases inside : index < network.address.version.width
    · rw [← masked, Nat.testBit_and, testBit_mask, decide_eq_true (And.intro shared inside),
        Bool.and_true]
    · rw [outside index (Nat.not_lt.mp inside),
        network.testBit_address_of_le (Nat.not_lt.mp inside)]
  · intro agree
    refine Nat.eq_of_testBit_eq fun index => ?_
    rw [Nat.testBit_and, testBit_mask]
    by_cases shared : network.hostBits ≤ index
    · rw [agree index shared]
      by_cases inside : index < network.address.version.width
      · rw [decide_eq_true (And.intro shared inside), Bool.and_true]
      · rw [network.testBit_address_of_le (Nat.not_lt.mp inside), Bool.false_and]
    · rw [network.testBit_address_of_lt (Nat.not_le.mp shared),
        decide_eq_false fun both => shared both.1, Bool.and_false]

theorem contains_iff (network : Network) (address : Address) :
    network.contains address = true ↔ network.address.version = address.version ∧
      AgreeFrom network.hostBits address.value network.address.value :=
  network.holds_iff fun _ outside => testBit_of_le address.value_le outside

theorem contains_self (network : Network) : network.contains network.address = true :=
  (network.contains_iff _).mpr ⟨rfl, fun _ _ => rfl⟩

theorem testBit_broadcast (network : Network) (index : Nat) :
    network.broadcast.testBit index =
      (network.address.value.testBit index || decide (index < network.hostBits)) := by
  rw [broadcast, Nat.testBit_or, testBit_hostmask]
  rfl

theorem broadcast_outside (network : Network) {index : Nat}
    (outside : network.address.version.width ≤ index) : network.broadcast.testBit index = false := by
  have behind : ¬ index < network.hostBits := by
    unfold hostBits
    omega
  rw [testBit_broadcast, network.testBit_address_of_le outside, decide_eq_false behind]
  rfl

theorem broadcast_agrees (network : Network) :
    AgreeFrom network.hostBits network.broadcast network.address.value := by
  intro index shared
  rw [testBit_broadcast, decide_eq_false (Nat.not_lt.mpr shared), Bool.or_false]

/-- Two networks that share a number are nested: one holds the first address of the other. -/
theorem nested (network other : Network) {value : Nat}
    (same : network.address.version = other.address.version)
    (inside : AgreeFrom network.hostBits value network.address.value)
    (within : AgreeFrom other.hostBits value other.address.value) :
    other.contains network.address = true ∨ network.contains other.address = true := by
  rcases Nat.le_total network.hostBits other.hostBits with narrow | wide
  · refine .inl ((other.contains_iff _).mpr ⟨same.symm, fun index shared => ?_⟩)
    rw [← inside index (narrow.trans shared), within index shared]
  · refine .inr ((network.contains_iff _).mpr ⟨same, fun index shared => ?_⟩)
    rw [← within index (wide.trans shared), inside index shared]

/-- The check finds out whether two networks have a common member. -/
theorem overlaps_iff (network other : Network) :
    network.overlaps other = true ↔
      ∃ address, network.contains address = true ∧ other.contains address = true := by
  have common : other.contains network.address = true ∨ network.contains other.address = true →
      ∃ address, network.contains address = true ∧ other.contains address = true := by
    rintro (first | second)
    · exact ⟨network.address, network.contains_self, first⟩
    · exact ⟨other.address, second, other.contains_self⟩
  simp only [overlaps, Bool.or_eq_true]
  constructor
  · rintro (first | last | first | last)
    · exact common (.inl first)
    · obtain ⟨same, within⟩ := (other.holds_iff fun _ => network.broadcast_outside).mp last
      exact common (network.nested other same.symm network.broadcast_agrees within)
    · exact common (.inr first)
    · obtain ⟨same, within⟩ := (network.holds_iff fun _ => other.broadcast_outside).mp last
      exact common (network.nested other same within other.broadcast_agrees)
  · rintro ⟨address, inside, within⟩
    obtain ⟨same, inside⟩ := (network.contains_iff address).mp inside
    obtain ⟨other_same, within⟩ := (other.contains_iff address).mp within
    rcases network.nested other (same.trans other_same.symm) inside within with first | second
    · exact .inl first
    · exact .inr (.inr (.inl second))

theorem disjoint_iff (network other : Network) :
    Disjoint network.addresses other.addresses ↔ network.overlaps other = false := by
  rw [← Bool.not_eq_true, overlaps_iff, Set.disjoint_left]
  simp [addresses]

/-- Masks tell lengths of prefixes apart. -/
theorem netmask_injective {version : Version} {first second : Nat} (bounded : first ≤ version.width)
    (limit : second ≤ version.width) (same : version.netmask first = version.netmask second) :
    first = second := by
  have bits : ∀ index, index < version.width →
      (version.width - first ≤ index ↔ version.width - second ≤ index) := by
    intro index inside
    have bit := congrArg (Nat.testBit · index) same
    simpa [testBit_netmask, inside] using bit
  by_contra different
  have atFirst := bits (version.width - first)
  have atSecond := bits (version.width - second)
  omega

/-- Networks that compare equal are equal. -/
theorem equal_iff (network other : Network) : network.equal other = true ↔ network = other := by
  rw [equal, Bool.and_eq_true, Bool.and_eq_true, decide_eq_true_eq, decide_eq_true_eq,
    decide_eq_true_eq]
  constructor
  · rintro ⟨⟨_, address⟩, mask⟩
    obtain ⟨⟨first, length, bounded⟩, aligned⟩ := network
    obtain ⟨⟨second, limit, held⟩, other_aligned⟩ := other
    obtain rfl : first = second := address
    obtain rfl : length = limit := netmask_injective bounded held mask
    rfl
  · rintro rfl
    exact ⟨⟨rfl, rfl⟩, rfl⟩

end Network

end Overlap

end Immutavault.InternetAddresses
