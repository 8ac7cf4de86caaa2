import BundleProtocol.Decimal
import Mathlib.Algebra.Order.Ring.Int
import Mathlib.Data.List.Basic
import Mathlib.Data.List.TakeWhile

/-! # Endpoint ids

`BpEndpointId` keeps the whole URI in one string together with the offset and
length of its scheme and its scheme-specific part.  The two constructors compute
these pairs at different moments: `ofComponents` when the URI is already there,
`ofUri` while it is still empty, so that the length of the ssp underflows and only
the clamping of `substr` makes it the rest of the URI.  Equality and order are
those of the URI strings.
-/
namespace BundleProtocol

/-- `std::string::substr`, which throws `std::out_of_range` when the position lies
beyond the end and clamps the length. -/
def substr (s : List UInt8) (pos len : ℕ) : Option (List UInt8) :=
  if pos ≤ s.length then some ((s.drop pos).take len) else none

/-- What a C string function sees of a byte string: everything before the first NUL. -/
def cStr (s : List UInt8) : List UInt8 := s.takeWhile (· != 0)

/-- Subtraction of `size_t` values. -/
def sizeSub (a b : ℕ) : ℕ := (a + 2 ^ 64 - b) % 2 ^ 64

/-- `std::string::operator <`: byte by byte, as unsigned characters. -/
def stringLt (a b : List UInt8) : Bool := a.map UInt8.toNat < b.map UInt8.toNat

/-- Offset and length of a part of an endpoint id. -/
structure Component where
  offset : ℕ
  length : ℕ

/-- An endpoint id. -/
structure BpEndpointId where
  uri : List UInt8
  scheme : Component
  ssp : Component

namespace BpEndpointId

/-- `operator ==` compares the URIs. -/
instance : BEq BpEndpointId := ⟨fun a b => a.uri == b.uri⟩

theorem beq_iff {a b : BpEndpointId} : (a == b) = true ↔ a.uri = b.uri := by
  show (a.uri == b.uri) = true ↔ a.uri = b.uri
  exact beq_iff_eq

theorem beq_eq_false_iff {a b : BpEndpointId} : (a == b) = false ↔ a.uri ≠ b.uri := by
  show (a.uri == b.uri) = false ↔ a.uri ≠ b.uri
  exact beq_eq_false_iff_ne

@[simp] theorem beq_self (a : BpEndpointId) : (a == a) = true := beq_iff.mpr rfl

instance : EquivBEq BpEndpointId where
  rfl := beq_self _
  symm h := beq_iff.mpr (beq_iff.mp h).symm
  trans h₁ h₂ := beq_iff.mpr ((beq_iff.mp h₁).trans (beq_iff.mp h₂))

/-- The character `:`. -/
def colon : UInt8 := 58

/-- `"dtn"`. -/
def dtnScheme : List UInt8 := [100, 116, 110]

/-- `"none"`. -/
def noneSsp : List UInt8 := [110, 111, 110, 101]

/-- `"ipn"`. -/
def ipnScheme : List UInt8 := [105, 112, 110]

/-- `BpEndpointId::ParseComponent`, given what `m_uri` holds when it is called. -/
def parseComponent (mUri scheme ssp : List UInt8) : Component × Component :=
  let (schemeStr, sspStr) :=
    if scheme.length = 0 ∨ ssp.length = 0 then (dtnScheme, noneSsp) else (scheme, ssp)
  let (schemeStr, _) :=
    if 1023 < schemeStr.length ∨ 1023 < sspStr.length then
      (schemeStr.take 1023, sspStr.take 1023)
    else (schemeStr, sspStr)
  (⟨0, schemeStr.length⟩, ⟨schemeStr.length + 1, sizeSub mUri.length (schemeStr.length + 1)⟩)

/-- `BpEndpointId::BpEndpointId (scheme, ssp)`. -/
def ofComponents (scheme ssp : List UInt8) : BpEndpointId :=
  let mUri := scheme ++ colon :: ssp
  let parts := parseComponent mUri scheme ssp
  ⟨mUri, parts.1, parts.2⟩

/-- `BpEndpointId::BpEndpointId (uri)`: the URI is parsed while `m_uri` is empty.
Without a colon both parts are read off the replacement string `"dtn:none"`, the
position found being `npos` and `npos + 1` being `0`. -/
def ofUri (uri : List UInt8) : BpEndpointId :=
  let parts :=
    match uri.findIdx? (· == colon) with
    | some pos => parseComponent [] (uri.take pos) (uri.drop (pos + 1))
    | none =>
      parseComponent [] (dtnScheme ++ colon :: noneSsp) (dtnScheme ++ colon :: noneSsp)
  ⟨uri, parts.1, parts.2⟩

/-- `BpEndpointId::Scheme`. -/
def getScheme (eid : BpEndpointId) : Option (List UInt8) :=
  substr eid.uri eid.scheme.offset eid.scheme.length

/-- `BpEndpointId::Ssp`. -/
def getSsp (eid : BpEndpointId) : Option (List UInt8) :=
  substr eid.uri eid.ssp.offset eid.ssp.length

@[simp] theorem uri_ofComponents (scheme ssp : List UInt8) :
    (ofComponents scheme ssp).uri = scheme ++ colon :: ssp := rfl

@[simp] theorem uri_ofUri (uri : List UInt8) : (ofUri uri).uri = uri := rfl

end BpEndpointId

/-- `defaultEid`: `dtn:none`. -/
def defaultEid : BpEndpointId :=
  .ofUri (BpEndpointId.dtnScheme ++ BpEndpointId.colon :: BpEndpointId.noneSsp)

/-! ## Numbers in endpoint ids -/

/-- `%d` of `sscanf`: white space, a sign, digits.  The value saturates at 64 bits and
is stored in 32.  No match leaves the variable unassigned. -/
def scanDecimal (s : List UInt8) : Option (UInt32 × List UInt8) :=
  let s := s.dropWhile fun c => (9 ≤ c && c ≤ 13) || c == 32
  let negative := s.head? == some 45
  let s := if negative || s.head? == some 43 then s.drop 1 else s
  let digits := s.takeWhile fun c => 48 ≤ c && c ≤ 57
  if digits = [] then none
  else
    let magnitude : ℕ := digits.foldl (fun n c => n * 10 + (c.toNat - 48)) 0
    let value : ℤ := if negative then max (-magnitude) (-2 ^ 63) else min magnitude (2 ^ 63 - 1)
    some (UInt32.ofNat (value % 2 ^ 32).toNat, s.drop digits.length)

/-- `BpHeader::IpnNode`: the first number of `"%d.%d"`; reading it when nothing was
assigned is undefined. -/
def ipnNode (ssp : List UInt8) : Option UInt32 := (scanDecimal (cStr ssp)).map Prod.fst

/-- `BpHeader::IpnService`: the second number of `"%d.%d"`. -/
def ipnService (ssp : List UInt8) : Option UInt32 :=
  match scanDecimal (cStr ssp) with
  | some (_, 46 :: rest) => (scanDecimal rest).map Prod.fst
  | _ => none

/-- `%u` of `sprintf`. -/
def printDecimal (n : UInt32) : List UInt8 :=
  (Nat.toDigits 10 n.toNat).map fun c => UInt8.ofNat c.toNat

/-- `BpHeader::IpnSsp`. -/
def ipnSsp (node service : UInt32) : List UInt8 := printDecimal node ++ 46 :: printDecimal service

/-- `strtoll` in base 10: white space, a sign, digits.  The value saturates at 64 bits; without digits
it is zero. -/
def strtoll (s : List UInt8) : ℤ :=
  let s := s.dropWhile fun c => (9 ≤ c && c ≤ 13) || c == 32
  let negative := s.head? == some 45
  let s := if negative || s.head? == some 43 then s.drop 1 else s
  let digits := s.takeWhile fun c => 48 ≤ c && c ≤ 57
  let magnitude : ℕ := digits.foldl (fun n c => n * 10 + (c.toNat - 48)) 0
  if negative then max (-magnitude) (-2 ^ 63) else min magnitude (2 ^ 63 - 1)

/-- The numbers that `IsIpnCbhe` turns down: zero, `LLONG_MAX` and `LLONG_MIN`. -/
def noNumber (number : ℤ) : Bool := number == 0 || number == 2 ^ 63 - 1 || number == -2 ^ 63

/-- `BpEndpointId::IsIpnCbhe`. -/
def BpEndpointId.isIpnCbhe (eid : BpEndpointId) : Option Bool := do
  let scheme ← eid.getScheme
  if scheme ≠ ipnScheme then some false
  else
    let ssp ← eid.getSsp
    match ssp.findIdx? (· == 46) with
    | none => some false
    | some dot =>
      if noNumber (strtoll (cStr ssp)) then some false
      else if dot + 1 = ssp.length then some false
      else some !noNumber (strtoll (cStr (ssp.drop (dot + 1))))

/-! ## What is printed is read back -/

/-- The characters that `%u` prints are digits. -/
theorem digit_of_mem_printDecimal {n : UInt32} {b : UInt8} (h : b ∈ printDecimal n) :
    48 ≤ b ∧ b ≤ 57 := by
  rw [UInt8.le_iff_toNat_le, UInt8.le_iff_toNat_le]
  exact Decimal.digit_of_mem_print h

theorem printDecimal_ne_nil (n : UInt32) : printDecimal n ≠ [] := Decimal.print_ne_nil n.toNat

/-- Reading the digits of a number gives the number. -/
theorem foldl_printDecimal (n : UInt32) :
    (printDecimal n).foldl (fun n c => n * 10 + (c.toNat - 48)) 0 = n.toNat :=
  Decimal.value_print n.toNat

/-- **`%d` reads what `%u` printed**, up to a character that is no digit. -/
theorem scanDecimal_printDecimal (n : UInt32) {rest : List UInt8}
    (hrest : rest.takeWhile (fun c => 48 ≤ c && c ≤ 57) = []) :
    scanDecimal (printDecimal n ++ rest) = some (n, rest) := by
  obtain ⟨d, ds, hprint⟩ := List.exists_cons_of_ne_nil (printDecimal_ne_nil n)
  have hmem : d ∈ printDecimal n := by
    rw [hprint]
    exact List.mem_cons_self
  obtain ⟨hlow, hhigh⟩ := digit_of_mem_printDecimal hmem
  have hspace : (printDecimal n ++ rest).dropWhile (fun c => (9 ≤ c && c ≤ 13) || c == 32) =
      printDecimal n ++ rest := by
    rw [hprint, List.cons_append, List.dropWhile_cons_of_neg]
    rw [UInt8.le_iff_toNat_le] at hlow hhigh
    simp [UInt8.le_iff_toNat_le, ← UInt8.toNat_inj] at *
    omega
  have hsign : ∀ c : UInt8, c < 48 → ((printDecimal n ++ rest).head? == some c) = false := by
    intro c hc
    rw [hprint, List.cons_append, List.head?_cons, beq_eq_false_iff_ne]
    rintro h
    cases h
    exact absurd hlow (UInt8.not_le.mpr hc)
  have hdigits : (printDecimal n ++ rest).takeWhile (fun c => 48 ≤ c && c ≤ 57) = printDecimal n := by
    rw [List.takeWhile_append_of_pos, hrest, List.append_nil]
    intro b hb
    simpa using digit_of_mem_printDecimal hb
  have hlt := n.toNat_lt
  unfold scanDecimal
  simp only [hspace, hsign 45 (by decide), hsign 43 (by decide), Bool.or_self, Bool.false_eq_true, if_false,
    hdigits, if_neg (printDecimal_ne_nil n), foldl_printDecimal, List.drop_left]
  have hvalue : (min (n.toNat : ℤ) (2 ^ 63 - 1) % 2 ^ 32).toNat = n.toNat := by omega
  rw [hvalue, UInt32.ofNat_toNat]

/-- Nothing that is printed looks like the end of a C string. -/
theorem cStr_ipnSsp (node service : UInt32) : cStr (ipnSsp node service) = ipnSsp node service := by
  have hall : ∀ b ∈ ipnSsp node service, (b != 0) = true := by
    intro b hb
    rw [bne_iff_ne]
    rintro rfl
    rcases List.mem_append.mp hb with hb | hb
    · exact absurd (digit_of_mem_printDecimal hb).1 (by decide)
    · rcases List.mem_cons.mp hb with hb | hb
      · exact absurd hb (by decide)
      · exact absurd (digit_of_mem_printDecimal hb).1 (by decide)
  exact List.takeWhile_eq_self_iff.mpr hall

theorem scanDecimal_ipnSsp (node service : UInt32) :
    scanDecimal (cStr (ipnSsp node service)) = some (node, 46 :: printDecimal service) := by
  rw [cStr_ipnSsp]
  exact scanDecimal_printDecimal node (by simp)

@[simp] theorem ipnNode_ipnSsp (node service : UInt32) : ipnNode (ipnSsp node service) = some node := by
  rw [ipnNode, scanDecimal_ipnSsp]
  rfl

@[simp] theorem ipnService_ipnSsp (node service : UInt32) :
    ipnService (ipnSsp node service) = some service := by
  have hscan : scanDecimal (printDecimal service ++ []) = some (service, []) :=
    scanDecimal_printDecimal service rfl
  rw [List.append_nil] at hscan
  rw [ipnService, scanDecimal_ipnSsp]
  show (scanDecimal (printDecimal service)).map Prod.fst = some service
  rw [hscan]
  rfl

end BundleProtocol
