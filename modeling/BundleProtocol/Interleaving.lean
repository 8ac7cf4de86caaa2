import BundleProtocol.TransitionSystem
import Mathlib.Logic.Function.Basic
import Mathlib.Data.Nat.ModEq

/-! # Parties over an unreliable medium

Parties of one kind, each stepped by operations of its own.  What a party has sent stays with the
medium, which may hand it to any party, any number of times, in any order, or to nobody.  A global
invariant is proved for one party at a time (`Party.invariant`): a step keeps it if what
the step takes from the medium is good, and what a party that has it has sent is good.  The rule
also says of each step that it is one of the run (`Party.Occurs`), so that an invariant may speak
of what was done before.
-/
namespace TransitionSystem
variable {State Op : Type*} {guard : State → Op → Prop} {step : Op → State → Option State}

/-- Performing two lists of operations one after the other. -/
theorem Run.append_iff {s t : State} {before after : List Op} :
    Run guard step s (before ++ after) t ↔
      ∃ u, Run guard step s before u ∧ Run guard step u after t := by
  induction before generalizing s with
  | nil =>
    refine ⟨fun h => ⟨s, .nil s, h⟩, ?_⟩
    rintro ⟨u, hnil, h⟩
    cases hnil
    exact h
  | cons op before ih =>
    constructor
    · intro h
      cases h with
      | cons hguard hstep hrest =>
        obtain ⟨u, hbefore, hafter⟩ := ih.mp hrest
        exact ⟨u, .cons hguard hstep hbefore, hafter⟩
    · rintro ⟨u, hbefore, hafter⟩
      cases hbefore with
      | cons hguard hstep hrest => exact .cons hguard hstep (ih.mpr ⟨u, hrest, hafter⟩)

/-- The operations determine where a run leads. -/
theorem Run.deterministic {s t t' : State} {ops : List Op} (h : Run guard step s ops t)
    (h' : Run guard step s ops t') : t = t' := by
  induction h with
  | nil s =>
    cases h'
    rfl
  | cons hguard hstep _ ih =>
    cases h' with
    | cons hguard' hstep' hrest' =>
      cases hstep.symm.trans hstep'
      exact ih hrest'

/-- Each step of a run is made after a part of the run. -/
theorem Run.recorded {s t : State} {ops : List Op} (h : Run guard step s ops t) :
    Run (fun u op => guard u op ∧
      ∃ before after, ops = before ++ op :: after ∧ Run guard step s before u) step s ops t := by
  suffices hrest : ∀ before u rest, Run guard step s before u → Run guard step u rest t →
      Run (fun u op => guard u op ∧ ∃ before' after, before ++ rest = before' ++ op :: after ∧
        Run guard step s before' u) step u rest t from
    hrest [] s ops (.nil s) h
  intro before u rest hbefore hrest
  -- the induction is on what is left to do
  induction hrest generalizing before with
  | nil u => exact .nil u
  | @cons u v t op rest hguard hstep _ ih =>
    refine .cons ⟨hguard, before, rest, rfl, hbefore⟩ hstep ?_
    have hnext := ih h (before ++ [op]) (Run.append_iff.mpr ⟨u, hbefore, .cons hguard hstep (.nil v)⟩)
    rwa [List.append_assoc, List.singleton_append] at hnext

end TransitionSystem

namespace Interleaving
open TransitionSystem
variable {Node State Op Msg : Type*} [DecidableEq Node]

/-- One kind of party: what it may do at a node, what that leads to, what it has sent so far, and
what an operation takes from the medium. -/
structure Party (Node State Op Msg : Type*) where
  guard : Node → State → Op → Prop
  step : Op → State → Option State
  sent : State → Msg → Prop
  takes : Op → Msg → Prop

namespace Party
variable (m : Party Node State Op Msg)

/-- The party at the node may do it, and what it takes has been sent by some party. -/
def Permits (n : Node → State) (e : Node × Op) : Prop :=
  m.guard e.1 (n e.1) e.2 ∧ ∀ msg, m.takes e.2 msg → ∃ j, m.sent (n j) msg

/-- One party moves, the others stay. -/
def move (e : Node × Op) (n : Node → State) : Option (Node → State) :=
  (m.step e.2 (n e.1)).map (Function.update n e.1)

/-- The parties perform the operations in turn. -/
abbrev Run (n : Node → State) (ops : List (Node × Op)) (n' : Node → State) : Prop :=
  TransitionSystem.Run m.Permits m.move n ops n'

/-- While `ops` is performed from `n`, the party at `i` performs `op` in the state `s`. -/
def Occurs (n : Node → State) (ops : List (Node × Op)) (i : Node) (s : State) (op : Op) : Prop :=
  ∃ before after u, ops = before ++ (i, op) :: after ∧ m.Run n before u ∧ u i = s

variable {m} in
/-- A party moves first. -/
theorem run_cons {n n' : Node → State} {i : Node} {t : State} {op : Op} {ops : List (Node × Op)}
    (hguard : m.guard i (n i) op) (htakes : ∀ msg, m.takes op msg → ∃ j, m.sent (n j) msg)
    (hstep : m.step op (n i) = some t) (hrest : m.Run (Function.update n i t) ops n') :
    m.Run n ((i, op) :: ops) n' :=
  .cons ⟨hguard, htakes⟩ (Option.map_eq_some_iff.mpr ⟨t, hstep, rfl⟩) hrest

variable {m} in
/-- What occurs in a run is permitted and returns. -/
theorem Occurs.permitted {n n' : Node → State} {ops : List (Node × Op)} {i : Node} {s : State} {op : Op}
    (h : m.Occurs n ops i s op) (hrun : m.Run n ops n') :
    m.guard i s op ∧ ∃ t, m.step op s = some t := by
  obtain ⟨before, after, u, rfl, hbefore, rfl⟩ := h
  obtain ⟨u', hbefore', hrest⟩ := Run.append_iff.mp hrun
  cases hbefore.deterministic hbefore'
  cases hrest with
  | cons hguard hmove _ =>
    obtain ⟨t, ht, -⟩ := Option.map_eq_some_iff.mp hmove
    exact ⟨hguard.1, t, ht⟩

/-- **The invariant rule**, one party at a time. -/
theorem invariant (Inv : Node → State → Prop) (Good : Msg → Prop)
    (hsent : ∀ i s msg, Inv i s → m.sent s msg → Good msg)
    {n n' : Node → State} {ops : List (Node × Op)}
    (hstep : ∀ i s op t, Inv i s → m.guard i s op → (∀ msg, m.takes op msg → Good msg) →
      m.Occurs n ops i s op → m.step op s = some t → Inv i t)
    (hrun : m.Run n ops n') (h : ∀ i, Inv i (n i)) : ∀ i, Inv i (n' i) := by
  refine hrun.recorded.invariant (fun u => ∀ i, Inv i (u i)) ?_ h
  rintro u ⟨i, op⟩ v hu ⟨⟨hguard, htakes⟩, before, after, hops, hbefore⟩ hmove
  obtain ⟨t, ht, rfl⟩ := Option.map_eq_some_iff.mp hmove
  have hgood : ∀ msg, m.takes op msg → Good msg := by
    intro msg hmsg
    obtain ⟨j, hj⟩ := htakes msg hmsg
    exact hsent j (u j) msg (hu j) hj
  intro j
  by_cases hj : j = i
  · subst hj
    rw [Function.update_self]
    exact hstep j (u j) op t (hu j) hguard hgood ⟨before, after, u, hops, hbefore, rfl⟩ ht
  · rw [Function.update_of_ne hj]
    exact hu j

/-! ## Counting -/

section Counting
variable {m : Party Node State Op Msg} {n n' u : Node → State} {ops : List (Node × Op)} {i : Node}
  {s s' : State} {op op' : Op} {k : ℕ} {f : State → ℕ}

/-- Every operation raises the number by one, or not at all. -/
def Counter (m : Party Node State Op Msg) (k : ℕ) (f : State → ℕ) : Prop :=
  ∀ i s op t, m.guard i s op → m.step op s = some t → f t ≡ f s [MOD k] ∨ f t ≡ f s + 1 [MOD k]

/-- The operations of a party raise its number at most once each. -/
theorem Counter.counted (hf : m.Counter k f) (hrun : m.Run n ops n') :
    ∃ c ≤ ops.countP (fun e => e.1 = i), f (n' i) ≡ f (n i) + c [MOD k] := by
  induction hrun with
  | nil n => exact ⟨0, Nat.zero_le _, Nat.ModEq.refl _⟩
  | @cons n u n' e ops hguard hmove _ ih =>
    obtain ⟨c, hle, hcount⟩ := ih
    obtain ⟨t, ht, rfl⟩ := Option.map_eq_some_iff.mp hmove
    by_cases hi : i = e.1
    · subst hi
      rw [Function.update_self] at hcount
      have hmore : (e :: ops).countP (fun e' => e'.1 = e.1) = ops.countP (fun e' => e'.1 = e.1) + 1 :=
        List.countP_cons_of_pos (by simp)
      rw [hmore]
      rcases hf e.1 (n e.1) e.2 t hguard.1 ht with hsame | hraise
      · exact ⟨c, Nat.le_succ_of_le hle, hcount.trans (hsame.add_right c)⟩
      · refine ⟨c + 1, Nat.succ_le_succ hle, hcount.trans ?_⟩
        rw [Nat.add_comm c 1, ← Nat.add_assoc]
        exact hraise.add_right c
    · rw [Function.update_of_ne hi] at hcount
      refine ⟨c, hle.trans ?_, hcount⟩
      exact (List.sublist_cons_self e ops).countP_le

/-- After it is raised, the number stays different while there are fewer than `k` operations. -/
theorem Counter.ne_of_raised {mid after : List (Node × Op)} (hf : m.Counter k f)
    (hrun : m.Run u ((i, op) :: (mid ++ after)) n') (hraise : ∀ t, m.step op (u i) = some t →
      f t ≡ f (u i) + 1 [MOD k]) (hcount : mid.countP (fun e => e.1 = i) + 1 < k) :
    ∃ v, m.Run u ((i, op) :: mid) v ∧ ¬f (v i) ≡ f (u i) [MOD k] := by
  rw [← List.cons_append] at hrun
  obtain ⟨v, hmid, -⟩ := Run.append_iff.mp hrun
  refine ⟨v, hmid, fun hsame => ?_⟩
  cases hmid with
  | cons hguard hmove hrest =>
    obtain ⟨t, ht, rfl⟩ := Option.map_eq_some_iff.mp hmove
    obtain ⟨c, hle, hc⟩ := hf.counted (i := i) hrest
    rw [Function.update_self] at hc
    -- the number has been raised between one and `k - 1` times
    have hraised : f (u i) + 0 ≡ f (u i) + (1 + c) [MOD k] := by
      rw [← Nat.add_assoc, Nat.add_zero]
      exact hsame.symm.trans (hc.trans ((hraise t ht).add_right c))
    have hdvd : k ∣ 1 + c := (Nat.modEq_zero_iff_dvd).mp hraised.add_left_cancel'.symm
    have hle' := Nat.le_of_dvd (by omega) hdvd
    omega

/-- **The counting rule.**  When a party performs no more than `k` operations, those that raise its
number modulo `k` find it at different values. -/
theorem Counter.distinct (hf : m.Counter k f) (hrun : m.Run n ops n')
    (hcount : ops.countP (fun e => e.1 = i) ≤ k)
    (h : m.Occurs n ops i s op) (h' : m.Occurs n ops i s' op')
    (hraise : ∀ t, m.step op s = some t → f t ≡ f s + 1 [MOD k])
    (hraise' : ∀ t, m.step op' s' = some t → f t ≡ f s' + 1 [MOD k])
    (hsame : f s ≡ f s' [MOD k]) : s = s' ∧ op = op' := by
  -- one of the two is done first
  suffices hfirst : ∀ s op before after u s' op' before' after' u' mid,
      ops = before ++ (i, op) :: after → m.Run n before u → u i = s →
      ops = before' ++ (i, op') :: after' → m.Run n before' u' → u' i = s' →
      before' = before ++ mid → (i, op) :: after = mid ++ (i, op') :: after' →
      (∀ t, m.step op s = some t → f t ≡ f s + 1 [MOD k]) → f s' ≡ f s [MOD k] →
      s = s' ∧ op = op' by
    obtain ⟨before, after, u, hops, hbefore, hu⟩ := h
    obtain ⟨before', after', u', hops', hbefore', hu'⟩ := h'
    rcases List.append_eq_append_iff.mp (hops.symm.trans hops') with ⟨mid, hmid, hrest⟩ | ⟨mid, hmid, hrest⟩
    · exact hfirst s op before after u s' op' before' after' u' mid hops hbefore hu hops' hbefore' hu'
        hmid hrest hraise hsame.symm
    · obtain ⟨hs, hop⟩ := hfirst s' op' before' after' u' s op before after u mid hops' hbefore' hu'
        hops hbefore hu hmid hrest hraise' hsame
      exact ⟨hs.symm, hop.symm⟩
  intro s op before after u s' op' before' after' u' mid hops hbefore hu hops' hbefore' hu' hmid hrest
    hraise hsame
  cases mid with
  | nil =>
    rw [List.append_nil] at hmid
    subst hmid
    cases hbefore.deterministic hbefore'
    rw [List.nil_append] at hrest
    cases hrest
    exact ⟨hu.symm.trans hu', rfl⟩
  | cons e mid =>
    have hafter : after = mid ++ (i, op') :: after' := (List.cons_eq_cons.mp hrest).2
    obtain rfl : (i, op) = e := (List.cons_eq_cons.mp hrest).1
    subst hu hu' hafter
    rw [hops] at hrun
    obtain ⟨u₂, hbefore₂, hrun⟩ := Run.append_iff.mp hrun
    cases hbefore.deterministic hbefore₂
    have hlt : mid.countP (fun e => e.1 = i) + 1 < k := by
      rw [hops] at hcount
      simp only [List.countP_append, List.countP_cons, decide_true, if_true] at hcount
      omega
    obtain ⟨v, hv, hne⟩ := hf.ne_of_raised hrun hraise hlt
    rw [hmid] at hbefore'
    obtain ⟨u₃, hbefore₃, hafter⟩ := Run.append_iff.mp hbefore'
    cases hbefore.deterministic hbefore₃
    cases hv.deterministic hafter
    exact absurd hsame hne

end Counting

end Party
end Interleaving
