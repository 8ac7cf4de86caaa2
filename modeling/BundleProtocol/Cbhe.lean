import BundleProtocol.CbheLossless
import BundleProtocol.SendSockets

/-! # Endpoint ids on the wire with and without CBHE

The eight offsets of a primary header are positions in its dictionary or, with CBHE, node and
service numbers.  Which of the two is not on the wire: the sender of a bundle takes it from the
bundle's header, where it is always off, and both ends of a convergence layer take it from their own
`m_cbhe`.  So endpoint ids arrive without CBHE, and with CBHE only those that happen to be made of
their own positions (`eidsAgree_iff_offsets`).  Of the endpoint ids `ipn:n.s` that a program sets,
these are the ones whose numbers count the bytes of the dictionary at the time (`AtOwnPlaces`); a
bundle of `Send` always has one that is not of the scheme `ipn` (`DefaultReport`).
-/
namespace BundleProtocol
open ByteParser BpEndpointId

/-- A setter is called with an endpoint id `ipn:node.service`. -/
structure IpnCall where
  role : EidRole
  node : UInt16
  service : UInt16
deriving DecidableEq

namespace IpnCall

/-- The ssp of the endpoint id. -/
def ssp (c : IpnCall) : List UInt8 := ipnSsp c.node.toUInt32 c.service.toUInt32

/-- What the call appends to the dictionary: `ipn`, a NUL, the ssp and a NUL. -/
def entry (c : IpnCall) : List UInt8 := dictionaryEntry ipnScheme c.ssp

/-- The calls with the lengths of the dictionary at which they are made, `place` for the first. -/
def places (place : ℕ) : List IpnCall → List (ℕ × IpnCall)
  | [] => []
  | c :: calls => (place, c) :: places (place + c.entry.length) calls

/-- The last call for `role`, with the length of the dictionary when it is made.  The four default
endpoint ids of the constructor take 36 bytes. -/
def lastFor (calls : List IpnCall) (role : EidRole) : Option (ℕ × IpnCall) :=
  (places 36 calls).reverse.find? fun e => e.2.role = role

/-- An endpoint id is set for each role and, where `place` is the length of the dictionary at the
last call for it, in 16 bits, `ipn:place.(place + 4)` is what was set at that length.  In a
dictionary below 64 KiB this is the endpoint id of that last call. -/
def AtOwnPlaces (calls : List IpnCall) : Prop :=
  ∀ role, ∃ place c, lastFor calls role = some (place, c) ∧
    ∃ d, (place % 2 ^ 16, d) ∈ places 36 calls ∧
      d.node.toNat = place % 2 ^ 16 ∧ d.service.toNat = place % 2 ^ 16 + 4

end IpnCall

/-- The two headers have the same endpoint ids, in the same form. -/
structure SameEids (h h' : BpHeader6) : Prop where
  cbhe : h'.cbhe = h.cbhe
  dictionary : h'.dictionary = h.dictionary
  schemeOffset : ∀ role, h'.schemeOffset role = h.schemeOffset role
  sspOffset : ∀ role, h'.sspOffset role = h.sspOffset role

/-- The header is made by the constructor of `Bundle6`, these calls, and setters of other fields. -/
inductive BuiltBy : List IpnCall → BpHeader6 → Prop
  | new {h} (hdefault : Bundle6.defaultHeader = some h) : BuiltBy [] h
  | set {calls h h' eid c} (hbuilt : BuiltBy calls h) (hmade : MadeOf eid ipnScheme c.ssp)
      (hset : h.setEid c.role eid = some h') : BuiltBy (calls ++ [c]) h'
  | fields {calls h h'} (hbuilt : BuiltBy calls h) (hsame : SameEids h h') : BuiltBy calls h'

/-- The header has the endpoint ids that `Send` gives to a bundle. -/
def FromSend (h : BpHeader6) : Prop :=
  ∃ own size src dst lifetime custody priority now seq h₀,
    BpAgent6.newHeader own size src dst lifetime custody priority now seq = some h₀ ∧ SameEids h₀ h

/-- The endpoint id that two offsets stand for with CBHE. -/
def ipnEid (schemeOffset sspOffset : UInt16) : BpEndpointId :=
  .ofComponents ipnScheme (ipnSsp schemeOffset.toUInt32 sspOffset.toUInt32)

/-- Each endpoint id of the header is made of the two positions where it stands. -/
def OffsetsNameEids (h : BpHeader6) : Prop :=
  ∀ role, (ipnEid (h.schemeOffset role) (h.sspOffset role) == h.getEid role) = true

/-- What a convergence layer with this `m_cbhe` makes of the packet's endpoint ids are those of
the bundle with the header `h`: the source peeked to find a socket, and all four on arrival. -/
def EidsAgree (cbhe : Bool) (h : BpHeader6) (p : Packet) : Prop :=
  ∃ peeked rx, p.peekHeader cbhe = some peeked ∧ dataRecv cbhe p.bytes = some rx ∧
    (peeked.getSourceEid == h.getSourceEid) = true ∧
    (rx.header.getDestinationEid == h.getDestinationEid) = true ∧
    (rx.header.getSourceEid == h.getSourceEid) = true ∧
    (rx.header.getReportEid == h.getReportEid) = true ∧
    (rx.header.getCustEid == h.getCustEid) = true

/-! ## The dictionary of a bundle that is built by calls -/

namespace IpnCall
variable {calls : List IpnCall} {c : IpnCall} {n p q : ℕ}

theorem entry_eq (c : IpnCall) : c.entry = 105 :: 112 :: 110 :: 0 :: (c.ssp ++ [0]) := by
  simp [entry, dictionaryEntry, ipnScheme]

theorem nul_not_mem_ssp (c : IpnCall) : 0 ∉ c.ssp := (plainParts_ipnSsp _ _).nul_ssp

theorem places_concat (p : ℕ) (calls : List IpnCall) (c : IpnCall) :
    places p (calls ++ [c]) = places p calls ++ [(p + (calls.flatMap entry).length, c)] := by
  induction calls generalizing p with
  | nil => rfl
  | cons d calls ih => simp [places, ih, Nat.add_assoc]

theorem lastFor_concat (calls : List IpnCall) (c : IpnCall) (role : EidRole) :
    lastFor (calls ++ [c]) role =
      if c.role = role then some (36 + (calls.flatMap entry).length, c) else lastFor calls role := by
  unfold lastFor
  rw [places_concat, List.reverse_append, List.reverse_singleton, List.singleton_append,
    List.find?_cons]
  by_cases hrole : c.role = role <;> simp [hrole]

/-- What a call put into the dictionary is still there. -/
theorem drop_of_mem_places (h : (q, c) ∈ places p calls) :
    p ≤ q ∧ ∃ rest, (calls.flatMap entry).drop (q - p) = c.entry ++ rest := by
  induction calls generalizing p with
  | nil => cases h
  | cons d calls ih =>
    rcases List.mem_cons.mp h with heq | hmem
    · cases heq
      refine ⟨le_rfl, calls.flatMap entry, ?_⟩
      rw [Nat.sub_self, List.drop_zero, List.flatMap_cons]
    · obtain ⟨hle, rest, hdrop⟩ := ih hmem
      refine ⟨by omega, rest, ?_⟩
      have hsplit : q - p = d.entry.length + (q - (p + d.entry.length)) := by omega
      rw [hsplit, ← List.drop_drop, List.flatMap_cons, List.drop_left, hdrop]

/-- No two calls put their entries at one place. -/
theorem mem_places_unique {d : IpnCall} (hc : (q, c) ∈ places p calls) (hd : (q, d) ∈ places p calls) :
    c = d := by
  induction calls generalizing p with
  | nil => cases hc
  | cons e calls ih =>
    have hbehind : ∀ x, (p, x) ∉ places (p + e.entry.length) calls := by
      intro x hx
      have hle := (drop_of_mem_places hx).1
      rw [entry_eq, List.length_cons] at hle
      omega
    rcases List.mem_cons.mp hc with hc | hc <;> rcases List.mem_cons.mp hd with hd | hd
    · cases hc
      cases hd
      rfl
    · cases hc
      exact absurd hd (hbehind d)
    · cases hd
      exact absurd hc (hbehind c)
    · exact ih hc hd

/-- Where the scheme `ipn` can be read, a call put it. -/
theorem exists_mem_places (p : ℕ) (h : cStr ((calls.flatMap entry).drop n) = ipnScheme) :
    ∃ c, (p + n, c) ∈ places p calls := by
  induction calls generalizing n p with
  | nil => simp [cStr, ipnScheme] at h
  | cons d calls ih =>
    rw [List.flatMap_cons] at h
    by_cases hn : d.entry.length ≤ n
    · -- behind the first entry
      obtain ⟨m, rfl⟩ := Nat.exists_eq_add_of_le hn
      rw [← List.drop_drop, List.drop_left] at h
      obtain ⟨c, hmem⟩ := ih (p + d.entry.length) h
      exact ⟨c, List.mem_cons_of_mem _ (by rwa [← Nat.add_assoc])⟩
    · rw [entry_eq, List.length_cons, List.length_cons, List.length_cons, List.length_cons,
        List.length_append, List.length_singleton] at hn
      rw [entry_eq] at h
      match n with
      | 0 => exact ⟨d, List.mem_cons_self⟩
      | 1 | 2 | 3 => simp [cStr, ipnScheme] at h
      | m + 4 =>
        -- within the ssp of the first entry there is no letter
        exfalso
        have htail : (d.ssp ++ [0] ++ calls.flatMap entry).drop m =
            d.ssp.drop m ++ 0 :: calls.flatMap entry := by
          rw [List.append_assoc, List.drop_append_of_le_length (by omega)]
          rfl
        have hread : d.ssp.drop m = ipnScheme := by
          have hnul : (0 : UInt8) ∉ d.ssp.drop m := fun hmem =>
            d.nul_not_mem_ssp (List.mem_of_mem_drop hmem)
          have hcut : cStr (d.ssp.drop m ++ 0 :: calls.flatMap entry) = d.ssp.drop m :=
            cStr_append_nul hnul
          rw [← hcut, ← htail]
          exact h
        have hletter : (105 : UInt8) ∈ d.ssp := by
          refine List.mem_of_mem_drop (i := m) ?_
          rw [hread]
          exact List.mem_cons_self
        rcases mem_ipnSsp hletter with hdot | hdigit
        · exact absurd hdot (by decide)
        · exact absurd hdigit.2 (by decide)

/-- Within the four default endpoint ids one reads what the constructor put there. -/
theorem cStr_drop_default (hn : n < 36) (rest : List UInt8) :
    cStr ((defaultDictionary ++ rest).drop n) = cStr (defaultDictionary.drop n) := by
  have hnul : defaultDictionary = defaultDictionary.take 35 ++ 0 :: [] := by decide
  have hlength : n ≤ (defaultDictionary.take 35).length := by
    rw [List.length_take, show defaultDictionary.length = 36 from rfl]
    omega
  rw [hnul, List.append_assoc, List.drop_append_of_le_length hlength,
    List.drop_append_of_le_length hlength, List.cons_append, cStr_append_cons, cStr_append_cons]

theorem cStr_drop_dictionary (hn : 36 ≤ n) (rest : List UInt8) :
    cStr ((defaultDictionary ++ rest).drop n) = cStr (rest.drop (n - 36)) := by
  obtain ⟨m, rfl⟩ := Nat.exists_eq_add_of_le hn
  rw [Nat.add_sub_cancel_left, ← List.drop_drop]
  exact congrArg (fun l => cStr (l.drop m)) (@List.drop_left _ defaultDictionary rest)

/-- None of them is of the scheme `ipn`, or has a dot. -/
theorem ipnScheme_not_default :
    ∀ n < 36, cStr (defaultDictionary.drop n) ≠ ipnScheme ∧ 46 ∉ cStr (defaultDictionary.drop n) := by
  decide

theorem mem_places_of_lastFor {role : EidRole} (h : lastFor calls role = some (n, c)) :
    (n, c) ∈ places 36 calls :=
  List.mem_reverse.mp (List.mem_of_find?_eq_some h)

/-- In a dictionary below 64 KiB it is the last endpoint id set for each role that counts. -/
theorem atOwnPlaces_iff_of_short (hshort : ∀ e ∈ places 36 calls, e.1 < 2 ^ 16) :
    AtOwnPlaces calls ↔ ∀ role, ∃ place c, lastFor calls role = some (place, c) ∧
      c.node.toNat = place ∧ c.service.toNat = place + 4 := by
  refine forall_congr' fun role => exists_congr fun place => exists_congr fun c =>
    and_congr_right fun hlast => ?_
  have hmem := mem_places_of_lastFor hlast
  rw [Nat.mod_eq_of_lt (hshort _ hmem)]
  constructor
  · rintro ⟨d, hd, hnames⟩
    obtain rfl := mem_places_unique hmem hd
    exact hnames
  · intro hnames
    exact ⟨c, hmem, hnames⟩

theorem dot_mem_ipnSsp (node service : UInt32) : 46 ∈ ipnSsp node service :=
  List.mem_append_right _ List.mem_cons_self

theorem ipnSsp_inj {node service node' service' : UInt32}
    (h : ipnSsp node service = ipnSsp node' service') : node = node' ∧ service = service' := by
  have hnode := congrArg ipnNode h
  have hservice := congrArg ipnService h
  rw [ipnNode_ipnSsp, ipnNode_ipnSsp] at hnode
  rw [ipnService_ipnSsp, ipnService_ipnSsp] at hservice
  exact ⟨Option.some.inj hnode, Option.some.inj hservice⟩

/-- **What stands at two positions four bytes apart** is the endpoint id made of them exactly when
a call put it there. -/
theorem uriAt_eq_ipnEid_iff {a b : UInt16} (hb : b.toNat = (a.toNat + 4) % 2 ^ 16) :
    uriAt (defaultDictionary ++ calls.flatMap entry) a.toNat b.toNat = (ipnEid a b).uri ↔
      ∃ d, (a.toNat, d) ∈ places 36 calls ∧ d.node.toNat = a.toNat ∧
        d.service.toNat = a.toNat + 4 := by
  constructor
  · intro huri
    obtain ⟨hscheme, hssp⟩ := parts_unique huri (by decide) (colon_not_mem_ipnSsp _ _)
    have ha : 36 ≤ a.toNat := by
      by_contra hlt
      rw [cStr_drop_default (by omega)] at hscheme
      exact (ipnScheme_not_default _ (by omega)).1 hscheme
    rw [cStr_drop_dictionary ha] at hscheme
    obtain ⟨d, hmem⟩ := exists_mem_places 36 hscheme
    rw [Nat.add_sub_cancel' ha] at hmem
    have hb' : b.toNat = a.toNat + 4 := by
      by_contra hwrap
      have hlt := a.toNat_lt
      rw [cStr_drop_default (by omega)] at hssp
      refine (ipnScheme_not_default b.toNat (by omega)).2 ?_
      rw [hssp]
      exact dot_mem_ipnSsp _ _
    obtain ⟨-, rest, hdrop⟩ := drop_of_mem_places hmem
    have hread : cStr ((calls.flatMap entry).drop (b.toNat - 36)) = d.ssp := by
      have hsplit : b.toNat - 36 = a.toNat - 36 + 4 := by omega
      rw [hsplit, ← List.drop_drop, hdrop, entry_eq]
      simp only [List.cons_append, List.drop_succ_cons, List.drop_zero, List.append_assoc]
      exact cStr_append_nul d.nul_not_mem_ssp
    rw [cStr_drop_dictionary (by omega), hread] at hssp
    obtain ⟨hnode, hservice⟩ := ipnSsp_inj hssp
    refine ⟨d, hmem, ?_, ?_⟩
    · rw [← UInt16.toNat_toUInt32, hnode, UInt16.toNat_toUInt32]
    · rw [← hb', ← UInt16.toNat_toUInt32, hservice, UInt16.toNat_toUInt32]
  · rintro ⟨d, hmem, hnode, hservice⟩
    have hlt := d.service.toNat_lt
    have hb' : b.toNat = a.toNat + 4 := by omega
    obtain ⟨ha, rest, hdrop⟩ := drop_of_mem_places hmem
    have hnode' : d.node = a := UInt16.toNat_inj.mp hnode
    have hservice' : d.service = b := UInt16.toNat_inj.mp (by omega)
    have hsplit : b.toNat - 36 = a.toNat - 36 + 4 := by omega
    rw [uriAt, cStr_drop_dictionary ha, cStr_drop_dictionary (by omega), hsplit, ← List.drop_drop,
      hdrop, entry_eq]
    simp only [List.cons_append, List.drop_succ_cons, List.drop_zero, List.append_assoc]
    rw [cStr_append_nul d.nul_not_mem_ssp, ssp, hnode', hservice']
    rfl

end IpnCall

theorem SameEids.readable {h h' : BpHeader6} (hsame : SameEids h h') (hread : h.Readable) :
    h'.Readable := by
  have hoffsets : h'.offsets = h.offsets := by
    have hscheme := hsame.schemeOffset
    have hssp := hsame.sspOffset
    show [h'.schemeOffset .destination, h'.sspOffset .destination, h'.schemeOffset .source,
      h'.sspOffset .source, h'.schemeOffset .report, h'.sspOffset .report,
      h'.schemeOffset .custodian, h'.sspOffset .custodian] = h.offsets
    rw [hscheme, hscheme, hscheme, hscheme, hssp, hssp, hssp, hssp]
    rfl
  unfold BpHeader6.Readable
  rw [hsame.cbhe, hsame.dictionary, hoffsets]
  exact hread

/-- How the calls lie in the dictionary. -/
structure Laid (calls : List IpnCall) (h : BpHeader6) : Prop where
  cbhe : h.cbhe = false
  readable : h.Readable
  dictionary : h.dictionary = defaultDictionary ++ calls.flatMap IpnCall.entry
  last : ∀ role place c, IpnCall.lastFor calls role = some (place, c) →
    h.schemeOffset role = UInt16.ofNat place ∧ h.sspOffset role = UInt16.ofNat (place + 4)
  default : ∀ role, IpnCall.lastFor calls role = none → (h.schemeOffset role).toNat < 36

theorem BuiltBy.laid {calls : List IpnCall} {h : BpHeader6} (hbuilt : BuiltBy calls h) :
    Laid calls h := by
  induction hbuilt with
  | @new h hdefault =>
    obtain ⟨hcbhe, hdictionary, hread⟩ := defaultHeader_spec hdefault
    refine ⟨hcbhe, hread, by rw [hdictionary, List.flatMap_nil, List.append_nil], ?_, ?_⟩
    · rintro role place c ⟨⟩
    · intro role _
      have htest : Bundle6.defaultHeader.all (fun h =>
          [EidRole.destination, .source, .report, .custodian].all fun role =>
            decide ((h.schemeOffset role).toNat < 36)) = true := by decide +kernel
      rw [hdefault, Option.all_some, List.all_eq_true] at htest
      exact of_decide_eq_true (htest role (by cases role <;> decide))
  | @set calls h h' eid c _ hmade hset ih =>
    obtain ⟨scheme, ssp, hscheme, hssp, rfl⟩ := BpHeader6.of_setEid c.role ih.cbhe hset
    obtain rfl : ipnScheme = scheme := Option.some.inj (hmade.parts.1.symm.trans hscheme)
    obtain rfl : c.ssp = ssp := Option.some.inj (hmade.parts.2.symm.trans hssp)
    have hlength : h.dictionary.length = 36 + (calls.flatMap IpnCall.entry).length := by
      rw [ih.dictionary, List.length_append]
      rfl
    refine ⟨by simpa using ih.cbhe, ih.readable.setEid c.role ih.cbhe hset, ?_, ?_, ?_⟩
    · rw [BpHeader6.dictionary_putEid, ih.dictionary, List.flatMap_append, List.flatMap_singleton,
        List.append_assoc]
      rfl
    · intro role place d hlast
      rw [IpnCall.lastFor_concat] at hlast
      rw [BpHeader6.schemeOffset_putEid, BpHeader6.sspOffset_putEid]
      by_cases hrole : c.role = role
      · rw [if_pos hrole] at hlast
        cases hlast
        rw [if_pos hrole.symm, if_pos hrole.symm, hlength]
        exact ⟨rfl, rfl⟩
      · rw [if_neg hrole] at hlast
        rw [if_neg (Ne.symm hrole), if_neg (Ne.symm hrole)]
        exact ih.last role place d hlast
    · intro role hnone
      rw [IpnCall.lastFor_concat] at hnone
      split at hnone
      · cases hnone
      · rename_i hrole
        rw [BpHeader6.schemeOffset_putEid, if_neg (Ne.symm hrole)]
        exact ih.default role hnone
  | fields _ hsame ih =>
    refine ⟨hsame.cbhe.trans ih.cbhe, hsame.readable ih.readable,
      hsame.dictionary.trans ih.dictionary, fun role place c hlast => ?_, fun role hnone => ?_⟩
    · rw [hsame.schemeOffset, hsame.sspOffset]
      exact ih.last role place c hlast
    · rw [hsame.schemeOffset]
      exact ih.default role hnone

/-- **Which endpoint ids name their own positions.** -/
theorem Laid.offsetsNameEids_iff {calls : List IpnCall} {h : BpHeader6} (hlaid : Laid calls h) :
    OffsetsNameEids h ↔ IpnCall.AtOwnPlaces calls := by
  have hshown : ∀ role, (h.getEid role).uri = uriAt (defaultDictionary ++ calls.flatMap IpnCall.entry)
      (h.schemeOffset role).toNat (h.sspOffset role).toNat := by
    intro role
    rw [BpHeader6.getEid_eq_eidAt, BpHeader6.eidAt, hlaid.cbhe, hlaid.dictionary]
    rfl
  refine forall_congr' fun role => ?_
  rw [beq_iff, hshown, eq_comm]
  cases hlast : IpnCall.lastFor calls role with
  | none =>
    -- the default endpoint id is not of the scheme ipn
    refine iff_of_false (fun huri => ?_) (by simp)
    have hlt := hlaid.default role hlast
    obtain ⟨hscheme, -⟩ := parts_unique huri (by decide) (colon_not_mem_ipnSsp _ _)
    rw [IpnCall.cStr_drop_default hlt] at hscheme
    exact (IpnCall.ipnScheme_not_default _ hlt).1 hscheme
  | some e =>
    obtain ⟨place, c⟩ := e
    obtain ⟨hscheme, hssp⟩ := hlaid.last role place c hlast
    have hplace : (h.schemeOffset role).toNat = place % 2 ^ 16 := by
      rw [hscheme, UInt16.toNat_ofNat']
    have hnext : (h.sspOffset role).toNat = ((h.schemeOffset role).toNat + 4) % 2 ^ 16 := by
      rw [hssp, hplace, UInt16.toNat_ofNat', Nat.mod_add_mod]
    rw [IpnCall.uriAt_eq_ipnEid_iff hnext, hplace]
    constructor
    · intro hnames
      exact ⟨place, c, rfl, hnames⟩
    · rintro ⟨_, _, heq, hnames⟩
      cases heq
      exact hnames

/-! ## Both ends of a convergence layer -/

/-- What arrives, for any `m_cbhe`: the header with that setting. -/
theorem dataRecv_of_wire {tx : Transmission} {reserved : List UInt8} {p : Packet}
    (hp : Packet.ofBytes (tx.wire reserved) = some p) {cbhe : Bool}
    (hread : (tx.header.onWire cbhe).Readable) :
    ∃ rx, dataRecv cbhe p.bytes = some rx ∧ rx.header = tx.header.onWire cbhe := by
  have hheader := tx.header.reads_onWire (BpHeader6.new cbhe)
    (tx.length_dictionary_lt (Packet.bytes_of_ofBytes hp))
    (tx.payloadHeader.addTo reserved tx.payload.bytes)
  have hpayload : BpBlockHeader6.deserialize (tx.payloadHeader.addTo reserved tx.payload.bytes) =
      some (tx.payloadHeader, _) := tx.payloadHeader.reads_deserialize _
  have hsize : ((tx.payloadHeader.addTo reserved tx.payload.bytes).drop 6).length < 2 ^ 32 := by
    have hlt := p.size_lt
    rw [Packet.bytes_of_ofBytes hp, Transmission.wire, List.length_append] at hlt
    rw [List.length_drop]
    omega
  rw [Packet.bytes_of_ofBytes hp, Transmission.wire, dataRecv, hheader]
  simp only [BpBlockHeader6.removeFrom, BpBlockHeader6.getSerializedSize, hpayload,
    Option.bind_eq_bind, Option.bind_some, Packet.ofBytes_eq_some hsize]
  exact ⟨_, dif_pos hread.onArrival, rfl⟩

/-- What both ends see of the four endpoint ids, when the packet arrives. -/
theorem eidsAgree_iff_onWire {h : BpHeader6} {cbhe : Bool} {p : Packet} {rx : ReceivedBundle}
    (hpeek : p.peekHeader cbhe = some (h.onWire cbhe)) (hrecv : dataRecv cbhe p.bytes = some rx)
    (hrx : rx.header = h.onWire cbhe) : EidsAgree cbhe h p ↔
      ((h.onWire cbhe).getSourceEid == h.getSourceEid) = true ∧
      ((h.onWire cbhe).getDestinationEid == h.getDestinationEid) = true ∧
      ((h.onWire cbhe).getReportEid == h.getReportEid) = true ∧
      ((h.onWire cbhe).getCustEid == h.getCustEid) = true := by
  unfold EidsAgree
  rw [hpeek, hrecv]
  constructor
  · rintro ⟨peeked, rx', hpeeked, hrx', -, hdst, hsrc, hreport, hcust⟩
    cases hrx'
    rw [hrx] at hdst hsrc hreport hcust
    exact ⟨hsrc, hdst, hreport, hcust⟩
  · rintro ⟨hsrc, hdst, hreport, hcust⟩
    refine ⟨_, rx, rfl, rfl, hsrc, ?_⟩
    rw [hrx]
    exact ⟨hdst, hsrc, hreport, hcust⟩

theorem header_sendBundle {bundle : Bundle6} {time : Time} {b : Ptr} {cla : ClaId}
    {dstAddress : InetSocketAddress} {tx : Transmission}
    (hsend : sendBundle time b bundle cla dstAddress = some tx) : tx.header = bundle.primaryHeader := by
  obtain ⟨adu, -, hsend⟩ := Option.bind_eq_some_iff.mp hsend
  obtain ⟨payload, -, hsend⟩ := Option.bind_eq_some_iff.mp hsend
  cases hsend
  rfl

/-- Endpoint ids agree exactly without CBHE or by coincidence: for every bundle whose header is
read without CBHE. -/
theorem eidsAgree_iff_offsets {bundle : Bundle6} {time : Time} {b : Ptr} {cla : ClaId}
    {dstAddress : InetSocketAddress} {tx : Transmission} {reserved : List UInt8} {p : Packet}
    {cbhe : Bool} (hcbhe : bundle.primaryHeader.cbhe = false) (hread : bundle.primaryHeader.Readable)
    (hsend : sendBundle time b bundle cla dstAddress = some tx)
    (hp : Packet.ofBytes (tx.wire reserved) = some p) :
    EidsAgree cbhe bundle.primaryHeader p ↔ cbhe = false ∨ OffsetsNameEids bundle.primaryHeader := by
  have hheader := header_sendBundle hsend
  have hread' : (tx.header.onWire cbhe).Readable := by
    rw [hheader]
    cases cbhe with
    | true => exact Or.inl rfl
    | false => exact Or.inr (hread.resolve_left (by simp [hcbhe]))
  obtain ⟨rx, hrecv, hrx⟩ := dataRecv_of_wire hp hread'
  have hpeek := tx.peekHeader_wire hp cbhe
  rw [hheader] at hrx hpeek
  rw [eidsAgree_iff_onWire hpeek hrecv hrx]
  cases cbhe with
  | false =>
    -- the receiver reads the dictionary at the positions where the sender wrote
    have hself : ∀ schemeOffset sspOffset, (bundle.primaryHeader.onWire false).eidAt schemeOffset
        sspOffset = bundle.primaryHeader.eidAt schemeOffset sspOffset := by
      intro schemeOffset sspOffset
      unfold BpHeader6.eidAt
      rw [hcbhe]
      rfl
    refine iff_of_true ⟨?_, ?_, ?_, ?_⟩ (Or.inl rfl) <;> exact beq_iff.mpr (congrArg uri (hself _ _))
  | true =>
    constructor
    · rintro ⟨hsrc, hdst, hreport, hcust⟩
      refine Or.inr fun role => ?_
      cases role
      · exact hdst
      · exact hsrc
      · exact hreport
      · exact hcust
    · rintro (hfalse | h)
      · cases hfalse
      · exact ⟨h .source, h .destination, h .report, h .custodian⟩

/-! ## Bundles of `Send` -/

/-- The report-to endpoint id that the constructor sets. -/
structure DefaultReport (h : BpHeader6) : Prop where
  cbhe : h.cbhe = false
  schemeOffset : h.reportSchemeOffset = 18
  sspOffset : h.reportSspOffset = 22
  dictionary : ∃ rest, h.dictionary = defaultDictionary ++ rest

theorem DefaultReport.append {h h' : BpHeader6} (hreport : DefaultReport h) (hcbhe : h'.cbhe = h.cbhe)
    (hscheme : h'.reportSchemeOffset = h.reportSchemeOffset)
    (hssp : h'.reportSspOffset = h.reportSspOffset) {entry : List UInt8}
    (hdict : h'.dictionary = h.dictionary ++ entry) : DefaultReport h' := by
  obtain ⟨rest, hrest⟩ := hreport.dictionary
  refine ⟨hcbhe.trans hreport.cbhe, hscheme.trans hreport.schemeOffset,
    hssp.trans hreport.sspOffset, rest ++ entry, ?_⟩
  rw [hdict, hrest, List.append_assoc]

/-- It is `dtn:none`. -/
theorem DefaultReport.uri {h : BpHeader6} (hreport : DefaultReport h) :
    h.getReportEid.uri = dtnScheme ++ colon :: noneSsp := by
  obtain ⟨rest, hrest⟩ := hreport.dictionary
  rw [BpHeader6.getReportEid, BpHeader6.eidAt, hreport.cbhe, hreport.schemeOffset, hreport.sspOffset,
    hrest]
  rfl

/-- A header that `Send` makes keeps the constructor's report-to endpoint id. -/
theorem defaultReport_newHeader {own src dst : BpEndpointId} {size : ℕ} {lifetime now : Time}
    {custody : Bool} {priority seq : UInt32} {h : BpHeader6}
    (hnew : BpAgent6.newHeader own size src dst lifetime custody priority now seq = some h) :
    DefaultReport h := by
  obtain ⟨h₀, h₁, h₂, hdefault, hsrc, hdst, hcase⟩ := BpAgent6.newHeader_eq_some hnew
  have hreport₀ : DefaultReport h₀ := by
    have htest : Bundle6.defaultHeader.all (fun h =>
        decide (h.reportSchemeOffset = 18 ∧ h.reportSspOffset = 22)) = true := by decide +kernel
    rw [hdefault] at htest
    obtain ⟨hscheme, hssp⟩ := of_decide_eq_true htest
    obtain ⟨hcbhe, hdictionary, -⟩ := defaultHeader_spec hdefault
    exact ⟨hcbhe, hscheme, hssp, [], by rw [hdictionary, List.append_nil]⟩
  have hreport₁ : DefaultReport h₁ := by
    obtain ⟨_, _, -, -, rfl⟩ := BpHeader6.of_setEid .source hreport₀.cbhe hsrc
    exact hreport₀.append rfl rfl rfl rfl
  have hreport₂ : DefaultReport h₂ := by
    obtain ⟨_, _, -, -, rfl⟩ := BpHeader6.of_setEid .destination hreport₁.cbhe hdst
    exact hreport₁.append rfl rfl rfl rfl
  have hfilled : DefaultReport (BpAgent6.fillHeader h₂ size lifetime custody priority now seq) :=
    ⟨hreport₂.cbhe, hreport₂.schemeOffset, hreport₂.sspOffset, hreport₂.dictionary⟩
  rcases hcase with ⟨-, hcust⟩ | ⟨-, rfl⟩
  · obtain ⟨_, _, -, -, rfl⟩ := BpHeader6.of_setEid .custodian hfilled.cbhe hcust
    exact hfilled.append rfl rfl rfl rfl
  · exact hfilled

theorem DefaultReport.not_offsetsNameEids {h : BpHeader6} (hreport : DefaultReport h) :
    ¬OffsetsNameEids h := by
  intro hnames
  have huri := beq_iff.mp (hnames .report)
  rw [show h.getEid .report = h.getReportEid from rfl, hreport.uri] at huri
  cases huri

/-- What the headers of `Send` have in common: no CBHE, and a report-to endpoint id that is not of
the scheme `ipn`. -/
theorem FromSend.spec {h : BpHeader6} (hsent : FromSend h) :
    h.cbhe = false ∧ h.Readable ∧ ¬OffsetsNameEids h := by
  obtain ⟨own, size, src, dst, lifetime, custody, priority, now, seq, h₀, hnew, hsame⟩ := hsent
  have hreport := defaultReport_newHeader hnew
  have hreport' : DefaultReport h := by
    obtain ⟨rest, hrest⟩ := hreport.dictionary
    exact ⟨hsame.cbhe.trans hreport.cbhe, (hsame.schemeOffset .report).trans hreport.schemeOffset,
      (hsame.sspOffset .report).trans hreport.sspOffset, rest, hsame.dictionary.trans hrest⟩
  exact ⟨hreport'.cbhe, hsame.readable (BpAgent6.newHeader_destination hnew).1,
    hreport'.not_offsetsNameEids⟩

/-- **When both ends see the endpoint ids of a bundle.**  Of a bundle made by the constructor and by
setting endpoint ids `ipn:n.s`: without CBHE, and with CBHE exactly if each role's endpoint id is
made of the length that the dictionary had.  Of a bundle of `Send`: without CBHE only. -/
theorem eidsAgree_iff {bundle : Bundle6} {time : Time} {b : Ptr} {cla : ClaId}
    {dstAddress : InetSocketAddress} {tx : Transmission} {reserved : List UInt8} {p : Packet}
    {cbhe : Bool} (hsend : sendBundle time b bundle cla dstAddress = some tx)
    (hp : Packet.ofBytes (tx.wire reserved) = some p) :
    (∀ calls, BuiltBy calls bundle.primaryHeader →
      (EidsAgree cbhe bundle.primaryHeader p ↔ cbhe = false ∨ IpnCall.AtOwnPlaces calls)) ∧
    (FromSend bundle.primaryHeader → (EidsAgree cbhe bundle.primaryHeader p ↔ cbhe = false)) := by
  constructor
  · intro calls hbuilt
    have hlaid := hbuilt.laid
    rw [eidsAgree_iff_offsets hlaid.cbhe hlaid.readable hsend hp, hlaid.offsetsNameEids_iff]
  · intro hsent
    obtain ⟨hcbhe, hread, hnot⟩ := hsent.spec
    rw [eidsAgree_iff_offsets hcbhe hread hsend hp, or_iff_left hnot]

/-! ## Two bundles -/

namespace Sample

/-- The endpoint id of a call. -/
def ipn (c : IpnCall) : BpEndpointId := .ofUri (ipnScheme ++ colon :: c.ssp)

/-- The header of a new bundle after these calls. -/
def ipnHeader (calls : List IpnCall) : Option BpHeader6 := do
  let h ← Bundle6.defaultHeader
  calls.foldlM (fun h c => h.setEid c.role (ipn c)) h

theorem builtBy_foldlM {before calls : List IpnCall} {h h' : BpHeader6} (hbuilt : BuiltBy before h)
    (hset : calls.foldlM (fun h c => h.setEid c.role (ipn c)) h = some h') :
    BuiltBy (before ++ calls) h' := by
  induction calls generalizing before h with
  | nil =>
    cases hset
    rwa [List.append_nil]
  | cons c calls ih =>
    rw [List.foldlM_cons] at hset
    obtain ⟨h₁, hfirst, hrest⟩ := Option.bind_eq_some_iff.mp hset
    rw [← List.singleton_append, ← List.append_assoc]
    exact ih (.set hbuilt (.uri (plainParts_ipnSsp _ _)) hfirst) hrest

theorem builtBy_ipnHeader {calls : List IpnCall} {h : BpHeader6} (hset : ipnHeader calls = some h) :
    BuiltBy calls h := by
  unfold ipnHeader at hset
  obtain ⟨h₀, hdefault, hcalls⟩ := Option.bind_eq_some_iff.mp hset
  exact builtBy_foldlM (.new hdefault) hcalls

/-- A bundle with one byte of payload. -/
def ipnBundle (h : BpHeader6) : Bundle6 :=
  .new ((h.setBlockLength 1).setFragOffset 0) (.setBlockLength (.new BpBlockHeader6.bundlePayloadBlock) 1)
    samplePayload

theorem sameEids_ipnBundle (h : BpHeader6) : SameEids h (ipnBundle h).primaryHeader :=
  ⟨rfl, rfl, fun role => by cases role <;> rfl, fun role => by cases role <;> rfl⟩

/-- What `SendBundle` makes of it. -/
def ipnTransmission (h : BpHeader6) : Transmission where
  time := 0
  bundle := 1
  cla := 0
  dstAddress := ⟨0x0A000001, 4556⟩
  header := (ipnBundle h).primaryHeader
  payloadHeader := (ipnBundle h).payloadHeader
  payload := samplePayload

theorem sendBundle_ipnBundle (h : BpHeader6) :
    sendBundle 0 1 (ipnBundle h) 0 ⟨0x0A000001, 4556⟩ = some (ipnTransmission h) := rfl

/-- The endpoint ids `ipn:36.40`, `ipn:46.50`, `ipn:56.60` and `ipn:66.70`, in this order. -/
def ownPlaces : List IpnCall :=
  [⟨.source, 36, 40⟩, ⟨.destination, 46, 50⟩, ⟨.report, 56, 60⟩, ⟨.custodian, 66, 70⟩]

theorem atOwnPlaces_ownPlaces : IpnCall.AtOwnPlaces ownPlaces := by
  have hplaces : IpnCall.places 36 ownPlaces = [(36, ⟨.source, 36, 40⟩), (46, ⟨.destination, 46, 50⟩),
      (56, ⟨.report, 56, 60⟩), (66, ⟨.custodian, 66, 70⟩)] := by decide +kernel
  rw [IpnCall.atOwnPlaces_iff_of_short (by rw [hplaces]; decide)]
  unfold IpnCall.lastFor
  rw [hplaces]
  rintro (_ | _ | _ | _)
  · exact ⟨46, _, rfl, rfl, rfl⟩
  · exact ⟨36, _, rfl, rfl, rfl⟩
  · exact ⟨56, _, rfl, rfl, rfl⟩
  · exact ⟨66, _, rfl, rfl, rfl⟩

/-- The header that `Send` makes for one byte from `ipn:1.1` to `ipn:2.1`, with custody. -/
def sentHeader : Option BpHeader6 :=
  BpAgent6.newHeader (ipn ⟨.custodian, 1, 1⟩) 1 (ipn ⟨.source, 1, 1⟩) (ipn ⟨.destination, 2, 1⟩) 0 true
    0 0 0

end Sample

/-- The bundles of `Sample.ownPlaces` and of `Sample.sentHeader`, without CBHE and with it. -/
theorem eidsAgree_iff_sample :
    (∃ h p, Sample.ipnHeader Sample.ownPlaces = some h ∧
      Packet.ofBytes ((Sample.ipnTransmission h).wire (List.replicate 6 0)) = some p ∧
      EidsAgree false (Sample.ipnBundle h).primaryHeader p ∧
      EidsAgree true (Sample.ipnBundle h).primaryHeader p) ∧
    ∃ h p, Sample.sentHeader = some h ∧
      Packet.ofBytes ((Sample.ipnTransmission h).wire (List.replicate 6 0)) = some p ∧
      EidsAgree false (Sample.ipnBundle h).primaryHeader p ∧
      ¬EidsAgree true (Sample.ipnBundle h).primaryHeader p := by
  constructor
  · obtain ⟨h, hset, hsome⟩ := (Option.any_eq_true (fun h : BpHeader6 =>
      (Packet.ofBytes ((Sample.ipnTransmission h).wire (List.replicate 6 0))).isSome) _).mp
      (by decide +kernel : (Sample.ipnHeader Sample.ownPlaces).any _ = true)
    obtain ⟨p, hp⟩ := Option.isSome_iff_exists.mp hsome
    have hbuilt : BuiltBy Sample.ownPlaces (Sample.ipnBundle h).primaryHeader :=
      .fields (Sample.builtBy_ipnHeader hset) (Sample.sameEids_ipnBundle h)
    have hsend := Sample.sendBundle_ipnBundle h
    exact ⟨h, p, hset, hp, ((eidsAgree_iff hsend hp).1 _ hbuilt).mpr (Or.inl rfl),
      ((eidsAgree_iff hsend hp).1 _ hbuilt).mpr (Or.inr Sample.atOwnPlaces_ownPlaces)⟩
  · obtain ⟨h, hnew, hsome⟩ := (Option.any_eq_true (fun h : BpHeader6 =>
      (Packet.ofBytes ((Sample.ipnTransmission h).wire (List.replicate 6 0))).isSome) _).mp
      (by decide +kernel : Sample.sentHeader.any _ = true)
    obtain ⟨p, hp⟩ := Option.isSome_iff_exists.mp hsome
    have hsent : FromSend (Sample.ipnBundle h).primaryHeader :=
      ⟨_, _, _, _, _, _, _, _, _, h, hnew, Sample.sameEids_ipnBundle h⟩
    have hsend := Sample.sendBundle_ipnBundle h
    exact ⟨h, p, hnew, hp, ((eidsAgree_iff hsend hp).2 hsent).mpr rfl,
      fun hagree => Bool.noConfusion (((eidsAgree_iff hsend hp).2 hsent).mp hagree)⟩

/-- With CBHE a bundle from `ipn:1.1` to `ipn:2.1` shows the source `ipn:36.40`. -/
theorem eids_disagree :
    ∃ h tx p, BuiltBy [⟨.source, 1, 1⟩, ⟨.destination, 2, 1⟩, ⟨.report, 1, 1⟩, ⟨.custodian, 1, 1⟩]
        (Sample.ipnBundle h).primaryHeader ∧
      sendBundle 0 1 (Sample.ipnBundle h) 0 ⟨0x0A000001, 4556⟩ = some tx ∧
      Packet.ofBytes (tx.wire (List.replicate 6 0)) = some p ∧
      ¬EidsAgree true (Sample.ipnBundle h).primaryHeader p := by
  obtain ⟨h, hset, htest⟩ := (Option.any_eq_true (fun h : BpHeader6 =>
    (Packet.ofBytes ((Sample.ipnTransmission h).wire (List.replicate 6 0))).any fun p =>
      (p.peekHeader true).all fun peeked =>
        !(peeked.getSourceEid == (Sample.ipnBundle h).primaryHeader.getSourceEid)) _).mp
    (by decide +kernel : (Sample.ipnHeader [⟨.source, 1, 1⟩, ⟨.destination, 2, 1⟩, ⟨.report, 1, 1⟩,
      ⟨.custodian, 1, 1⟩]).any _ = true)
  obtain ⟨p, hp, hall⟩ := (Option.any_eq_true _ _).mp htest
  refine ⟨h, Sample.ipnTransmission h, p,
    .fields (Sample.builtBy_ipnHeader hset) (Sample.sameEids_ipnBundle h),
    Sample.sendBundle_ipnBundle h, hp, ?_⟩
  rintro ⟨peeked, -, hpeeked, -, hsrc, -⟩
  rw [hpeeked, Option.all_some, hsrc] at hall
  cases hall

end BundleProtocol
