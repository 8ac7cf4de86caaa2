import BundleProtocol.StoreHealth

/-! # One iteration of the coalescing loop

The fragment that has arrived and a stored bundle are joined when one starts where the other
ends (`Tail`, `Head`): one of the two absorbs the other, which leaves the store.  Offsets and
sizes decide, and an iteration changes the object of the absorbing bundle only.
-/
namespace BundleProtocol

/-- A bundle object after its ADU has become `joined`. -/
def Bundle6.grown (x : Bundle6) (joined : Packet) : Bundle6 :=
  { x with
    adu := some joined
    primaryHeader := if joined.getSize = x.primaryHeader.aduLength then
      x.primaryHeader.setIsFragment false else x.primaryHeader }

theorem Bundle6.sameBundle_grown (x : Bundle6) (joined : Packet) :
    x.primaryHeader.SameBundle (x.grown joined).primaryHeader := by
  unfold grown
  dsimp only
  split
  · exact BpHeader6.sameBundle_setIsFragment _ _
  · exact .refl _

theorem Bundle6.isFragment_grown (x : Bundle6) (joined : Packet) :
    (x.grown joined).primaryHeader.isFragment = (x.primaryHeader.isFragment &&
      !decide (joined.getSize = x.primaryHeader.aduLength)) := by
  unfold grown
  dsimp only
  split
  · rename_i hwhole
    simp [hwhole]
  · rename_i hpart
    simp [hpart]

theorem Bundle6.fragOffset_grown (x : Bundle6) (joined : Packet) :
    (x.grown joined).primaryHeader.fragOffset = x.primaryHeader.fragOffset := by
  unfold grown
  dsimp only
  split <;> rfl

namespace BpAgent6
variable {s t u : BpAgent6} {b x y z it : Ptr} {joined : Packet}

/-! ## Absorbing -/

/-- Absorbing changes one object. -/
theorem heap_absorbed (s : BpAgent6) (x y : Ptr) (joined : Packet) :
    (s.absorbed x y joined).heap = Function.update s.heap x ((s.heap x).grown joined) := by
  have hadu : ((s.withAdu x joined).removed y).heap =
      Function.update s.heap x { s.heap x with adu := some joined } := rfl
  have hheader : ((s.withAdu x joined).removed y).header x = (s.heap x).primaryHeader := by
    rw [header_removed, header_withAdu, BundleStore.header]
  unfold absorbed markIfWhole Bundle6.grown
  rw [hheader]
  by_cases hwhole : joined.getSize = (s.heap x).primaryHeader.aduLength
  · rw [if_pos hwhole, if_pos hwhole]
    have hmark : ∀ v : BpAgent6, (v.modifyHeader x fun h => h.setIsFragment false).heap =
        Function.update v.heap x { v.heap x with
          primaryHeader := (v.heap x).primaryHeader.setIsFragment false } := fun _ => rfl
    rw [hmark, hadu, Function.update_idem, Function.update_self]
  · rw [if_neg hwhole, if_neg hwhole, hadu]

theorem heap_absorbed_self (s : BpAgent6) (x y : Ptr) (joined : Packet) :
    (s.absorbed x y joined).heap x = (s.heap x).grown joined := by
  rw [heap_absorbed, Function.update_self]

theorem heap_absorbed_of_ne (s : BpAgent6) (h : z ≠ x) (y : Ptr) (joined : Packet) :
    (s.absorbed x y joined).heap z = s.heap z := by
  rw [heap_absorbed, Function.update_of_ne h]

theorem mStore_absorbed (s : BpAgent6) (x y : Ptr) (joined : Packet) :
    (s.absorbed x y joined).mStore = s.mStore.erase y := by
  unfold absorbed markIfWhole
  split <;> rfl

theorem aduSize_absorbed_self (s : BpAgent6) (x y : Ptr) (joined : Packet) :
    (s.absorbed x y joined).aduSize x = joined.size := by
  unfold BundleStore.aduSize
  rw [heap_absorbed_self]
  rfl

theorem aduSize_absorbed_of_ne (s : BpAgent6) (h : z ≠ x) (joined : Packet) :
    (s.absorbed x y joined).aduSize z = s.aduSize z :=
  BundleStore.aduSize_congr (congrArg Bundle6.adu (heap_absorbed_of_ne s h y joined))

theorem fragOffset_absorbed (s : BpAgent6) (x y z : Ptr) (joined : Packet) :
    ((s.absorbed x y joined).header z).fragOffset = (s.header z).fragOffset := by
  by_cases hz : z = x
  · subst hz
    unfold BundleStore.header
    rw [heap_absorbed_self, Bundle6.fragOffset_grown]
  · rw [BundleStore.header_congr (heap_absorbed_of_ne s hz y joined)]

theorem sameKeys_absorbed (s : BpAgent6) (x y : Ptr) (joined : Packet) :
    SameKeys s (s.absorbed x y joined) := by
  refine ⟨?_, fun z _ => ?_, fun z _ => fragOffset_absorbed s x y z joined, fun z _ hadu => ?_⟩
  · rw [mStore_absorbed]
    exact List.erase_sublist
  · unfold BundleStore.header
    by_cases hz : z = x
    · subst hz
      rw [heap_absorbed_self]
      exact Bundle6.sameBundle_grown _ _
    · rw [heap_absorbed_of_ne s hz]
      exact .refl _
  · by_cases hz : z = x
    · subst hz
      rw [heap_absorbed_self]
      exact Option.some_ne_none joined
    · rwa [heap_absorbed_of_ne s hz]

/-! ## Touching -/

/-- The fragment at `b` starts where the bundle at `it` ends. -/
def Tail (s : BpAgent6) (b it : Ptr) : Prop :=
  (s.header b).fragOffset = (s.header it).fragOffset + UInt32.ofNat (s.aduSize it)

/-- The fragment at `b` ends where the bundle at `it` starts. -/
def Head (s : BpAgent6) (b it : Ptr) : Prop :=
  (s.header b).fragOffset + UInt32.ofNat (s.aduSize b) = (s.header it).fragOffset

/-- Only an empty fragment starts where it ends. -/
theorem eq_zero_of_eq_add {offset : UInt32} {n : ℕ} (hn : n < 2 ^ 32)
    (h : offset = offset + UInt32.ofNat n) : n = 0 := by
  have hnat := congrArg UInt32.toNat h
  have hlt := offset.toNat_lt
  rw [UInt32.toNat_add, UInt32.toNat_ofNat_of_lt' hn] at hnat
  omega

/-- **One iteration, by offsets and sizes.** -/
theorem coalesceWith_cases (hrun : s.coalesceWith b it = some t) :
    ∃ itAdu adu, (s.heap it).adu = some itAdu ∧ (s.heap b).adu = some adu ∧
      ((s.Tail b it ∧ s.Ordered ∧
          ∃ joined, itAdu.addAtEnd adu = some joined ∧ t = s.absorbed it b joined) ∨
        (¬s.Tail b it ∧ s.Head b it ∧ s.Ordered ∧
          ∃ joined, adu.addAtEnd itAdu = some joined ∧ t = s.absorbed b it joined) ∨
        (¬s.Tail b it ∧ ¬s.Head b it ∧ t = s)) := by
  obtain ⟨itAdu, adu, hit, hb, hcase⟩ := coalesceWith_eq_some.mp hrun
  have htail : s.Tail b it ↔ s.AtTail b it itAdu := by
    unfold Tail
    rw [BundleStore.aduSize_of_adu hit]
    rfl
  have hhead : s.Head b it ↔ s.AtHead b it adu := by
    unfold Head
    rw [BundleStore.aduSize_of_adu hb]
    rfl
  refine ⟨itAdu, adu, hit, hb, ?_⟩
  rw [htail, hhead]
  rcases hcase with ⟨h, joined, hjoin, hord, ht⟩ | ⟨h, h', joined, hjoin, hord, ht⟩ | h
  · exact Or.inl ⟨h, hord, joined, hjoin, ht⟩
  · exact Or.inr (Or.inl ⟨h, h', hord, joined, hjoin, ht⟩)
  · exact Or.inr (Or.inr h)

/-- A fragment with bytes does not touch itself. -/
theorem coalesceWith_self (hpos : s.aduSize b ≠ 0) (hrun : s.coalesceWith b b = some t) :
    t = s := by
  obtain ⟨itAdu, adu, hit, hb, hcase⟩ := coalesceWith_cases hrun
  have hlt : s.aduSize b < 2 ^ 32 := by
    rw [BundleStore.aduSize_of_adu hb]
    exact adu.size_lt_two_pow
  rcases hcase with ⟨htail, -⟩ | ⟨-, hhead, -⟩ | ⟨-, -, ht⟩
  · exact absurd (eq_zero_of_eq_add hlt htail) hpos
  · exact absurd (eq_zero_of_eq_add hlt hhead.symm) hpos
  · exact ht

/-- One iteration against another bundle, as the fragment sees it: it takes the other one in
or stays as it is, and no third bundle changes. -/
theorem coalesceWith_view (hne : it ≠ b) (hrun : s.coalesceWith b it = some t) :
    (∀ z, z ≠ b → z ≠ it → t.heap z = s.heap z) ∧
      ((¬(¬s.Tail b it ∧ s.Head b it) ∧ t.heap b = s.heap b) ∨
        ((¬s.Tail b it ∧ s.Head b it) ∧ ∃ joined, joined.size = s.aduSize b + s.aduSize it ∧
          t.heap b = (s.heap b).grown joined)) := by
  obtain ⟨itAdu, adu, hit, hb, hcase⟩ := coalesceWith_cases hrun
  rcases hcase with ⟨htail, -, joined, hjoin, rfl⟩ | ⟨htail, hhead, -, joined, hjoin, rfl⟩ |
    ⟨-, hhead, rfl⟩
  · refine ⟨fun z _ hz => heap_absorbed_of_ne s hz b joined, Or.inl ⟨fun h => h.1 htail, ?_⟩⟩
    exact heap_absorbed_of_ne s (Ne.symm hne) b joined
  · refine ⟨fun z hz _ => heap_absorbed_of_ne s hz it joined,
      Or.inr ⟨⟨htail, hhead⟩, joined, ?_, heap_absorbed_self s b it joined⟩⟩
    rw [BundleStore.aduSize_of_adu hit, BundleStore.aduSize_of_adu hb]
    exact Packet.size_of_addAtEnd hjoin
  · exact ⟨fun _ _ _ => rfl, Or.inl ⟨fun h => hhead h.2, rfl⟩⟩

end BpAgent6
end BundleProtocol
