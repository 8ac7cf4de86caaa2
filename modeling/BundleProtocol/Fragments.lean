import BundleProtocol.AgentRun
import BundleProtocol.Coalescing
import BundleProtocol.ForwardSpec

/-! # Fragments of one ADU

A bundle object holds a piece of an ADU when its bytes are the ones at its fragment offset
(`PartOf`).  Coalescing fragments of one ADU only ever makes larger pieces of it
(`PartOf.grown`), and their offsets and sizes are plain numbers: nothing wraps around.
-/
namespace BundleProtocol
open Tiling

/-- Consecutive pieces make up one piece. -/
theorem Packet.addAtEnd_piece {p : Packet} {o n m : ℕ} :
    (p.piece o n).addAtEnd (p.piece (o + n) m) = some (p.piece o (n + m)) := by
  have hbytes : (p.piece o n).bytes ++ (p.piece (o + n) m).bytes = (p.piece o (n + m)).bytes :=
    slice_append p.bytes o n m
  unfold addAtEnd
  rw [hbytes]
  exact ofBytes_eq_some (p.piece o (n + m)).size_lt

/-- The piece that is everything. -/
theorem Packet.piece_size (p : Packet) : p.piece 0 p.size = p := Packet.ext (slice_length p.bytes)

/-- The object `y` holds the piece `r` of the ADU `p`, and is marked as a fragment unless that
is all of it. -/
structure Bundle6.PartOf (p : Packet) (r : ℕ × ℕ) (y : Bundle6) : Prop where
  adu : y.adu = some (p.piece r.1 r.2)
  fragOffset : y.primaryHeader.fragOffset.toNat = r.1
  aduLength : y.primaryHeader.aduLength = p.getSize
  pos : 0 < r.2
  le : r.1 + r.2 ≤ p.size
  whole : y.primaryHeader.isFragment = false → r.2 = p.size

namespace Bundle6.PartOf
variable {p : Packet} {q r : ℕ × ℕ} {y : Bundle6}

/-- A piece of full length has the full length as ADU length. -/
theorem getSize_piece_iff (h : r.1 + r.2 ≤ p.size) :
    (p.piece r.1 r.2).getSize = p.getSize ↔ r.2 = p.size := by
  rw [← UInt32.toNat_inj, Packet.toNat_getSize, Packet.toNat_getSize, Packet.size_piece h]

/-- **Taking in the piece behind.** -/
theorem grown (hy : y.PartOf p r) (hle : r.1 + (r.2 + q.2) ≤ p.size) :
    (y.grown (p.piece r.1 (r.2 + q.2))).PartOf p (r.1, r.2 + q.2) where
  adu := rfl
  fragOffset := by
    rw [fragOffset_grown]
    exact hy.fragOffset
  aduLength := (sameBundle_grown y _).aduLength.trans hy.aduLength
  pos := Nat.add_pos_left hy.pos _
  le := hle
  whole := by
    intro hmark
    rw [isFragment_grown, Bool.and_eq_false_iff, hy.aduLength] at hmark
    have hpos := hy.pos
    rcases hmark with hmark | hmark
    · have hfull := hy.whole hmark
      dsimp only
      omega
    · have hfull : (p.piece r.1 (r.2 + q.2)).getSize = p.getSize := by simpa using hmark
      exact (getSize_piece_iff (r := (r.1, r.2 + q.2)) hle).mp hfull

end Bundle6.PartOf

/-! ## Touching -/

namespace BpAgent6
variable {s t u : BpAgent6} {b x it : Ptr} {p : Packet} {q r : ℕ × ℕ}

theorem aduSize_of_partOf (h : (s.heap x).PartOf p r) : s.aduSize x = r.2 := by
  rw [BundleStore.aduSize_of_adu h.adu, Packet.size_piece h.le]

/-- The end of a piece, as the code computes it. -/
theorem toNat_end (h : (s.heap x).PartOf p r) :
    ((s.header x).fragOffset + UInt32.ofNat (s.aduSize x)).toNat = r.1 + r.2 := by
  have hlt := p.size_lt_two_pow
  have hle := h.le
  have hsize : r.2 < 2 ^ 32 := by omega
  have hoffset : (s.header x).fragOffset.toNat = r.1 := h.fragOffset
  rw [aduSize_of_partOf h, UInt32.toNat_add, hoffset, UInt32.toNat_ofNat_of_lt' hsize,
    Nat.mod_eq_of_lt (by omega)]

theorem tail_iff (hb : (s.heap b).PartOf p r) (hit : (s.heap it).PartOf p q) :
    s.Tail b it ↔ q.1 + q.2 = r.1 := by
  have hoffset : (s.header b).fragOffset.toNat = r.1 := hb.fragOffset
  unfold Tail
  rw [← UInt32.toNat_inj, toNat_end hit, hoffset, eq_comm]

theorem head_iff (hb : (s.heap b).PartOf p r) (hit : (s.heap it).PartOf p q) :
    s.Head b it ↔ r.1 + r.2 = q.1 := by
  have hoffset : (s.header it).fragOffset.toNat = q.1 := hit.fragOffset
  unfold Head
  rw [← UInt32.toNat_inj, toNat_end hb, hoffset]

/-- **One iteration on two fragments of an ADU**: the one in front takes in the one behind,
or nothing happens. -/
theorem coalesceWith_parts (hb : (s.heap b).PartOf p r) (hit : (s.heap it).PartOf p q)
    (hrun : s.coalesceWith b it = some t) :
    (q.1 + q.2 = r.1 ∧ t = s.absorbed it b (p.piece q.1 (q.2 + r.2))) ∨
      (q.1 + q.2 ≠ r.1 ∧ r.1 + r.2 = q.1 ∧ t = s.absorbed b it (p.piece r.1 (r.2 + q.2))) ∨
      (q.1 + q.2 ≠ r.1 ∧ r.1 + r.2 ≠ q.1 ∧ t = s) := by
  obtain ⟨itAdu, adu, hitAdu, hbAdu, hcase⟩ := coalesceWith_cases hrun
  rw [hit.adu] at hitAdu
  rw [hb.adu] at hbAdu
  cases hitAdu
  cases hbAdu
  rw [tail_iff hb hit, head_iff hb hit] at hcase
  rcases hcase with ⟨htail, -, joined, hjoin, rfl⟩ | ⟨htail, hhead, -, joined, hjoin, rfl⟩ | h
  · rw [← htail, Packet.addAtEnd_piece] at hjoin
    cases hjoin
    exact Or.inl ⟨htail, rfl⟩
  · rw [← hhead, Packet.addAtEnd_piece] at hjoin
    cases hjoin
    exact Or.inr (Or.inl ⟨htail, hhead, rfl⟩)
  · exact Or.inr (Or.inr h)

/-- In an ordered store every iteration returns. -/
theorem exists_coalesceWith (hord : s.Ordered) (hb : (s.heap b).PartOf p r)
    (hit : (s.heap it).PartOf p q) : ∃ t, s.coalesceWith b it = some t := by
  have htail : s.AtTail b it (p.piece q.1 q.2) ↔ q.1 + q.2 = r.1 := by
    rw [← tail_iff hb hit, Tail, BundleStore.aduSize_of_adu hit.adu]
    rfl
  have hhead : s.AtHead b it (p.piece r.1 r.2) ↔ r.1 + r.2 = q.1 := by
    rw [← head_iff hb hit, Head, BundleStore.aduSize_of_adu hb.adu]
    rfl
  by_cases hq : q.1 + q.2 = r.1
  · have hjoin : (p.piece q.1 q.2).addAtEnd (p.piece r.1 r.2) = some (p.piece q.1 (q.2 + r.2)) := by
      rw [← hq, Packet.addAtEnd_piece]
    exact ⟨_, coalesceWith_eq_some.mpr
      ⟨_, _, hit.adu, hb.adu, Or.inl ⟨htail.mpr hq, _, hjoin, hord, rfl⟩⟩⟩
  · have hnot : ¬s.AtTail b it (p.piece q.1 q.2) := fun h => hq (htail.mp h)
    by_cases hr : r.1 + r.2 = q.1
    · have hjoin : (p.piece r.1 r.2).addAtEnd (p.piece q.1 q.2) =
          some (p.piece r.1 (r.2 + q.2)) := by
        rw [← hr, Packet.addAtEnd_piece]
      exact ⟨_, coalesceWith_eq_some.mpr
        ⟨_, _, hit.adu, hb.adu, Or.inr (Or.inl ⟨hnot, hhead.mpr hr, _, hjoin, hord, rfl⟩)⟩⟩
    · exact ⟨_, coalesceWith_eq_some.mpr
        ⟨_, _, hit.adu, hb.adu, Or.inr (Or.inr ⟨hnot, fun h => hr (hhead.mp h), rfl⟩)⟩⟩

/-- The bundle in front takes the fragment in. -/
theorem coalesceWith_front (hord : s.Ordered) (hb : (s.heap b).PartOf p r)
    (hit : (s.heap it).PartOf p q) (hfront : q.1 + q.2 = r.1) :
    s.coalesceWith b it = some (s.absorbed it b (p.piece q.1 (q.2 + r.2))) := by
  obtain ⟨t, ht⟩ := exists_coalesceWith hord hb hit
  rw [ht]
  rcases coalesceWith_parts hb hit ht with ⟨-, rfl⟩ | ⟨hnot, -⟩ | ⟨hnot, -⟩
  · rfl
  · exact absurd hfront hnot
  · exact absurd hfront hnot

/-- The fragment takes in the bundle behind it. -/
theorem coalesceWith_behind (hord : s.Ordered) (hb : (s.heap b).PartOf p r)
    (hit : (s.heap it).PartOf p q) (hbehind : r.1 + r.2 = q.1) :
    s.coalesceWith b it = some (s.absorbed b it (p.piece r.1 (r.2 + q.2))) := by
  obtain ⟨t, ht⟩ := exists_coalesceWith hord hb hit
  have hrpos := hb.pos
  have hqpos := hit.pos
  rw [ht]
  rcases coalesceWith_parts hb hit ht with ⟨hfront, -⟩ | ⟨-, -, rfl⟩ | ⟨-, hnot, -⟩
  · omega
  · rfl
  · exact absurd hbehind hnot

/-- Bundles that the fragment does not touch are passed over. -/
theorem coalesce_of_apart {l : List Ptr} (hord : s.Ordered) (hb : (s.heap b).PartOf p r)
    (hl : ∀ it ∈ l, ∃ q, (s.heap it).PartOf p q ∧ q.1 + q.2 ≠ r.1 ∧ r.1 + r.2 ≠ q.1) :
    s.coalesce b l = some s := by
  induction l with
  | nil => rfl
  | cons it l ih =>
    obtain ⟨q, hit, hfront, hbehind⟩ := hl it List.mem_cons_self
    obtain ⟨t, ht⟩ := exists_coalesceWith hord hb hit
    have hsame : t = s := by
      rcases coalesceWith_parts hb hit ht with ⟨h, -⟩ | ⟨-, h, -⟩ | ⟨-, -, h⟩
      · exact absurd h hfront
      · exact absurd h hbehind
      · exact h
    rw [hsame] at ht
    refine Option.bind_eq_some_iff.mpr ⟨s, ht, ih fun y hy => hl y (List.mem_cons_of_mem it hy)⟩

/-- The loop up to the first bundle that the fragment touches. -/
theorem coalesce_append_cons {l₁ l₂ : List Ptr} (hl₁ : s.coalesce b l₁ = some s)
    (hit : s.coalesceWith b it = some t) : s.coalesce b (l₁ ++ it :: l₂) = t.coalesce b l₂ := by
  have happend : ∀ (l : List Ptr) (v : BpAgent6),
      v.coalesce b (l ++ it :: l₂) = (v.coalesce b l).bind (coalesce b (it :: l₂)) := by
    intro l
    induction l with
    | nil => exact fun v => rfl
    | cons y l ih =>
      intro v
      show (v.coalesceWith b y).bind (coalesce b (l ++ it :: l₂)) =
        ((v.coalesceWith b y).bind (coalesce b l)).bind (coalesce b (it :: l₂))
      rw [Option.bind_assoc, funext ih]
  rw [happend, hl₁]
  show (s.coalesceWith b it).bind (coalesce b l₂) = _
  rw [hit]
  rfl

end BpAgent6

/-! ## Fragments on arrival -/

/-- The header `g` shows the source, the creation timestamp and the sequence number of `h`. -/
def Named (h g : BpHeader6) : Prop :=
  BundleStore.Names g h.getSourceEid h.createTimestamp h.timestampSeqNum

instance (h g : BpHeader6) : Decidable (Named h g) :=
  inferInstanceAs (Decidable (BundleStore.Names _ _ _ _))

theorem names_iff_of_named {h g : BpHeader6} (hg : Named h g) (g' : BpHeader6) :
    BundleStore.Names g' g.getSourceEid g.createTimestamp g.timestampSeqNum ↔ Named h g' := by
  obtain ⟨hsrc, hts, hseq⟩ := hg
  unfold Named BundleStore.Names
  rw [BpEndpointId.beq_iff] at hsrc
  rw [BpEndpointId.beq_iff, BpEndpointId.beq_iff, hsrc, hts, hseq]

/-- `Named` reads nothing that processing changes. -/
theorem named_congr {h g g' : BpHeader6} (hg : g.SameBundle g') : Named h g' ↔ Named h g := by
  unfold Named BundleStore.Names
  rw [hg.source, hg.createTimestamp, hg.timestampSeqNum]

/-- The range of the ADU that a received bundle claims to carry. -/
def ReceivedBundle.piece (rx : ReceivedBundle) : ℕ × ℕ :=
  (rx.header.fragOffset.toNat, rx.adu.size)

/-- `rx` is a fragment of the ADU `p`, with the identity and the destination of `h`. -/
structure FragmentOf (h : BpHeader6) (p : Packet) (rx : ReceivedBundle) : Prop where
  named : Named h rx.header
  destination : rx.header.getDestinationEid.uri = h.getDestinationEid.uri
  isFragment : rx.header.isFragment = true
  aduLength : rx.header.aduLength = p.getSize
  pos : 0 < rx.adu.size
  le : rx.piece.1 + rx.piece.2 ≤ p.size
  bytes : rx.adu.bytes = slice p.bytes rx.piece.1 rx.piece.2

namespace BpAgent6
variable {s t u : BpAgent6} {b x it : Ptr} {p : Packet} {h : BpHeader6}

/-- The accepted fragment holds its piece. -/
theorem partOf_acceptBundle {rx : ReceivedBundle} (hrx : FragmentOf h p rx)
    (haccept : s.acceptBundle b rx = some u) : (u.heap b).PartOf p rx.piece := by
  have hadu : rx.adu = p.piece rx.piece.1 rx.piece.2 := Packet.ext hrx.bytes
  obtain ⟨id, hid⟩ := heap_acceptBundle haccept
  rw [hid]
  refine ⟨congrArg some hadu, rfl, hrx.aduLength, hrx.pos, hrx.le, fun hmark => ?_⟩
  have hfrag := hrx.isFragment
  rw [show rx.header.isFragment = false from hmark] at hfrag
  cases hfrag

end BpAgent6

namespace Sample

/-- A fragment of one byte of the ADU `p`. -/
theorem fragmentOf_fragment {p : Packet} {length offset : UInt32} {byte : UInt8}
    (hbyte : [byte] = slice p.bytes offset.toNat 1) (hle : offset.toNat + 1 ≤ p.size)
    (hlength : length = p.getSize) :
    FragmentOf (header 2 6 1 0 length) p (fragment length offset byte) :=
  ⟨⟨BpEndpointId.beq_self _, rfl, rfl⟩, rfl,
    show (header 2 6 1 0 0).isFragment = true by decide, hlength, Nat.one_pos, hle, hbyte⟩

end Sample
end BundleProtocol
