import BundleProtocol.PrimaryHeader

/-! # The four endpoint ids of a header

A header has an endpoint id for each role, with a setter and a getter, and keeps it as two 16-bit
numbers.  All setters do the same with the two numbers of their role (`setEid_eq_map`), and none
touches those of another (`schemeOffset_putEid`, `sspOffset_putEid`).
-/
namespace BundleProtocol

/-- What an endpoint id is to a bundle. -/
inductive EidRole
  | destination | source | report | custodian
deriving DecidableEq

namespace BpHeader6
variable {h h' : BpHeader6} {role r : EidRole} {eid : BpEndpointId}

/-- The setter of a role. -/
def setEid (h : BpHeader6) : EidRole → BpEndpointId → Option BpHeader6
  | .destination => h.setDestinationEid
  | .source => h.setSourceEid
  | .report => h.setReportEid
  | .custodian => h.setCustEid

/-- The getter of a role. -/
def getEid (h : BpHeader6) : EidRole → BpEndpointId
  | .destination => h.getDestinationEid
  | .source => h.getSourceEid
  | .report => h.getReportEid
  | .custodian => h.getCustEid

def schemeOffset (h : BpHeader6) : EidRole → UInt16
  | .destination => h.dstSchemeOffset
  | .source => h.srcSchemeOffset
  | .report => h.reportSchemeOffset
  | .custodian => h.custSchemeOffset

def sspOffset (h : BpHeader6) : EidRole → UInt16
  | .destination => h.dstSspOffset
  | .source => h.srcSspOffset
  | .report => h.reportSspOffset
  | .custodian => h.custSspOffset

/-- The header with these two numbers for `role`, and this dictionary. -/
def putEid (h : BpHeader6) (role : EidRole) (scheme ssp : UInt16) (dictionary : List UInt8) :
    BpHeader6 :=
  match role with
  | .destination => { h with dstSchemeOffset := scheme, dstSspOffset := ssp, dictionary := dictionary }
  | .source => { h with srcSchemeOffset := scheme, srcSspOffset := ssp, dictionary := dictionary }
  | .report => { h with
      reportSchemeOffset := scheme, reportSspOffset := ssp, dictionary := dictionary }
  | .custodian => { h with custSchemeOffset := scheme, custSspOffset := ssp, dictionary := dictionary }

/-- **What a setter does.** -/
theorem setEid_eq_map (h : BpHeader6) (role : EidRole) (eid : BpEndpointId) :
    h.setEid role eid = (h.placeEid eid).map fun p => h.putEid role p.1 p.2.1 p.2.2 := by
  cases role <;> exact Option.map_eq_bind.symm

theorem getEid_eq_eidAt (h : BpHeader6) (role : EidRole) :
    h.getEid role = h.eidAt (h.schemeOffset role) (h.sspOffset role) := by
  cases role <;> rfl

section Put
variable (h : BpHeader6) (role r : EidRole) (scheme ssp : UInt16) (dictionary : List UInt8)

@[simp] theorem cbhe_putEid : (h.putEid role scheme ssp dictionary).cbhe = h.cbhe := by
  cases role <;> rfl

@[simp] theorem dictionary_putEid :
    (h.putEid role scheme ssp dictionary).dictionary = dictionary := by
  cases role <;> rfl

@[simp] theorem schemeOffset_putEid : (h.putEid role scheme ssp dictionary).schemeOffset r =
    if r = role then scheme else h.schemeOffset r := by
  cases role <;> cases r <;> rfl

@[simp] theorem sspOffset_putEid : (h.putEid role scheme ssp dictionary).sspOffset r =
    if r = role then ssp else h.sspOffset r := by
  cases role <;> cases r <;> rfl

/-- A new number is one of the two. -/
theorem mem_offsets_putEid {o : UInt16} (ho : o ∈ (h.putEid role scheme ssp dictionary).offsets) :
    o ∈ h.offsets ∨ o = scheme ∨ o = ssp := by
  cases role <;> simp only [putEid, offsets, List.mem_cons, List.not_mem_nil, or_false] at ho ⊢ <;>
    grind

theorem sameNumbers_putEid : SameNumbers h (h.putEid role scheme ssp dictionary) := by
  cases role <;> exact ⟨rfl, rfl, rfl, rfl, rfl, rfl, rfl⟩

end Put

/-- A setter touches the endpoint ids only. -/
theorem sameNumbers_setEid (role : EidRole) (hset : h.setEid role eid = some h') :
    SameNumbers h h' := by
  rw [setEid_eq_map] at hset
  obtain ⟨p, -, rfl⟩ := Option.map_eq_some_iff.mp hset
  exact h.sameNumbers_putEid role p.1 p.2.1 p.2.2

/-! ## Over the wire -/

@[simp] theorem schemeOffset_onWire (h : BpHeader6) (cbhe : Bool) (role : EidRole) :
    (h.onWire cbhe).schemeOffset role = h.schemeOffset role := by
  cases role <;> rfl

@[simp] theorem sspOffset_onWire (h : BpHeader6) (cbhe : Bool) (role : EidRole) :
    (h.onWire cbhe).sspOffset role = h.sspOffset role := by
  cases role <;> rfl

/-- The wire leaves the endpoint ids alone where both ends agree on CBHE. -/
theorem getEid_onWire (h : BpHeader6) (role : EidRole) :
    (h.onWire h.cbhe).getEid role = h.getEid role := by
  rw [getEid_eq_eidAt, getEid_eq_eidAt, schemeOffset_onWire, sspOffset_onWire]
  rfl

end BpHeader6
end BundleProtocol
