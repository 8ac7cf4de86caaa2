import Mathlib.Logic.Basic

/-! # Runs of a guarded partial step function

A system is given by what one operation does to a state, `step : Op → State →
Option State` (`none` when the operation does not return normally), and by which
operations the environment may perform there, `guard : State → Op → Prop`.  A
run performs permitted operations one after another.  What one step preserves,
every run preserves (`Run.invariant`), and what one step does exactly when it is permitted,
the steps of a run do (`Run.steps_iff`).
-/
namespace TransitionSystem
variable {State Op : Type*} {guard guard' : State → Op → Prop} {step : Op → State → Option State}

/-- `Run guard step s ops t`: performing `ops` in turn leads from `s` to `t`, each
operation permitted where it is performed and returning normally. -/
inductive Run (guard : State → Op → Prop) (step : Op → State → Option State) :
    State → List Op → State → Prop
  | nil (s : State) : Run guard step s [] s
  | cons {s t u : State} {op : Op} {ops : List Op} (hguard : guard s op)
      (hstep : step op s = some t) (hrest : Run guard step t ops u) :
      Run guard step s (op :: ops) u

/-- **The invariant rule.** -/
theorem Run.invariant (Inv : State → Prop)
    (hinv : ∀ s op t, Inv s → guard s op → step op s = some t → Inv t)
    {s t : State} {ops : List Op} (h : Run guard step s ops t) (hs : Inv s) : Inv t := by
  induction h with
  | nil s => exact hs
  | cons hguard hstep _ ih => exact ih (hinv _ _ _ hs hguard hstep)

/-- A run is a run of any system that permits its operations. -/
theorem Run.weaken {s t : State} {ops : List Op} (h : Run guard step s ops t)
    (hle : ∀ op ∈ ops, ∀ s, guard s op → guard' s op) : Run guard' step s ops t := by
  induction h with
  | nil s => exact .nil s
  | cons hguard hstep _ ih =>
    have hrest := ih fun op hop => hle op (List.mem_cons_of_mem _ hop)
    exact .cons (hle _ List.mem_cons_self _ hguard) hstep hrest

/-- **The simulation rule.**  What relates a step to the step of a total system that is given the same
operation relates the runs. -/
theorem Run.simulates {Abs : Type*} (R : State → Abs → Prop) (abs : Abs → Op → Abs)
    (hsim : ∀ s op t a, R s a → guard s op → step op s = some t → R t (abs a op))
    {s t : State} {ops : List Op} (h : Run guard step s ops t) {a : Abs} (hs : R s a) :
    R t (ops.foldl abs a) := by
  induction h generalizing a with
  | nil s => exact hs
  | cons hguard hstep _ ih => exact ih (hsim _ _ _ _ hs hguard hstep)

/-- **The exact rule for steps.**  Where, under an invariant that permitted operations keep, a step is
good exactly when `guard'` permits it, the steps of a run are all good exactly when `guard'` permits
all of them. -/
theorem Run.steps_iff (Inv : State → Prop) (Good : State → State → Prop)
    (hgood : ∀ s op t, Inv s → guard s op → step op s = some t → (Good s t ↔ guard' s op))
    (hinv : ∀ s op t, Inv s → guard s op → guard' s op → step op s = some t → Inv t)
    {s t : State} {ops : List Op} (h : Run guard step s ops t) (hs : Inv s) :
    (∀ before op after u v, ops = before ++ op :: after → Run guard step s before u →
      step op u = some v → Good u v) ↔ Run (fun s op => guard s op ∧ guard' s op) step s ops t := by
  induction h with
  | nil s =>
    refine iff_of_true (fun before op after u v hops => ?_) (.nil s)
    simp at hops
  | @cons s t u op ops hguard hstep _ ih =>
    constructor
    · intro hall
      have hguard' := (hgood s op t hs hguard hstep).mp (hall [] op ops s t rfl (.nil s) hstep)
      refine .cons ⟨hguard, hguard'⟩ hstep ((ih (hinv s op t hs hguard hguard' hstep)).mp ?_)
      intro before op' after v w hops hrun hlast
      exact hall (op :: before) op' after v w (congrArg (op :: ·) hops) (.cons hguard hstep hrun)
        hlast
    · rintro ⟨⟩ before op' after v w hops hbefore hlast
      rename_i t' hguard' hstep' hrest'
      cases hstep.symm.trans hstep'
      cases hbefore with
      | nil =>
        cases (List.cons_eq_cons.mp hops).1
        cases hstep.symm.trans hlast
        exact (hgood s op t hs hguard hstep).mpr hguard'.2
      | cons _ hfirst hbefore =>
        cases (List.cons_eq_cons.mp hops).1
        cases hstep.symm.trans hfirst
        exact (ih (hinv s op t hs hguard hguard'.2 hstep)).mpr hrest' _ op' after v w
          (List.cons_eq_cons.mp hops).2 hbefore hlast

/-- What is on, and gone for good once an operation clears it, stays on exactly in the runs in which
none does. -/
theorem Run.on_iff (On Gone : State → Prop) (Clears : State → Op → Prop)
    (hon : ∀ s op t, On s → guard s op → step op s = some t →
      (Clears s op → Gone t) ∧ (¬Clears s op → On t))
    (hgone : ∀ s op t, Gone s → guard s op → step op s = some t → Gone t)
    (hnot : ∀ s, Gone s → ¬On s) {s t : State} {ops : List Op} (h : Run guard step s ops t)
    (hs : On s) : On t ↔ Run (fun s op => guard s op ∧ ¬Clears s op) step s ops t := by
  induction h with
  | nil s => exact iff_of_true hs (.nil s)
  | @cons s t u op ops hguard hstep hrest ih =>
    obtain ⟨hclears, hkeeps⟩ := hon s op t hs hguard hstep
    by_cases hclear : Clears s op
    · refine iff_of_false (hnot u (hrest.invariant Gone hgone (hclears hclear))) ?_
      rintro ⟨⟩
      rename_i _ hguard' _ _
      exact hguard'.2 hclear
    · rw [ih (hkeeps hclear)]
      constructor
      · exact .cons ⟨hguard, hclear⟩ hstep
      · rintro ⟨⟩
        rename_i _ _ hstep' hrest'
        cases hstep.symm.trans hstep'
        exact hrest'

/-- **The latch rule.**  What is fresh is turned on by the first operation that sets it, and then
gone for good once an operation clears it: after a run it is on exactly when the run is one in which
it is set and, from there on, not cleared. -/
theorem Run.latch_iff (Fresh On Gone : State → Prop) (Sets Clears : State → Op → Prop)
    (hfresh : ∀ s op t, Fresh s → guard s op → step op s = some t →
      (Sets s op → On t) ∧ (¬Sets s op → Fresh t))
    (hon : ∀ s op t, On s → guard s op → step op s = some t →
      (Clears s op → Gone t) ∧ (¬Clears s op → On t))
    (hgone : ∀ s op t, Gone s → guard s op → step op s = some t → Gone t)
    (hnot : ∀ s, Fresh s ∨ Gone s → ¬On s) {s t : State} {ops : List Op}
    (h : Run guard step s ops t) (hs : Fresh s) :
    On t ↔ ∃ before op after u v, ops = before ++ op :: after ∧
      Run (fun s op => guard s op ∧ ¬Sets s op) step s before u ∧ Sets u op ∧ step op u = some v ∧
      Run (fun s op => guard s op ∧ ¬Clears s op) step v after t := by
  induction h with
  | nil s =>
    refine iff_of_false (hnot s (Or.inl hs)) ?_
    rintro ⟨before, op, after, u, v, hops, -⟩
    simp at hops
  | @cons s t u op ops hguard hstep hrest ih =>
    obtain ⟨hsets, hstays⟩ := hfresh s op t hs hguard hstep
    by_cases hset : Sets s op
    · rw [hrest.on_iff On Gone Clears hon hgone (fun s hs => hnot s (Or.inr hs)) (hsets hset)]
      constructor
      · intro hafter
        exact ⟨[], op, ops, s, t, rfl, .nil s, hset, hstep, hafter⟩
      · rintro ⟨before, op', after, v, w, hops, hbefore, hset', hstep', hafter⟩
        cases hbefore with
        | nil =>
          cases (List.cons_eq_cons.mp hops).1
          cases (List.cons_eq_cons.mp hops).2
          cases hstep.symm.trans hstep'
          exact hafter
        | cons hguard' _ _ =>
          -- the first operation sets it already
          cases (List.cons_eq_cons.mp hops).1
          exact absurd hset hguard'.2
    · rw [ih (hstays hset)]
      constructor
      · rintro ⟨before, op', after, v, w, rfl, hbefore, hset', hstep', hafter⟩
        exact ⟨op :: before, op', after, v, w, rfl, .cons ⟨hguard, hset⟩ hstep hbefore, hset', hstep',
          hafter⟩
      · rintro ⟨before, op', after, v, w, hops, hbefore, hset', hstep', hafter⟩
        cases hbefore with
        | nil =>
          cases (List.cons_eq_cons.mp hops).1
          exact absurd hset' hset
        | cons hguard' hfirst hbefore =>
          cases (List.cons_eq_cons.mp hops).1
          cases hstep.symm.trans hfirst
          exact ⟨_, op', after, v, w, (List.cons_eq_cons.mp hops).2, hbefore, hset', hstep', hafter⟩

/-- Performs the operations in turn, as long as each is permitted and returns. -/
def exec (guard : State → Op → Prop) [∀ s op, Decidable (guard s op)]
    (step : Op → State → Option State) : List Op → State → Option State
  | [], s => some s
  | op :: ops, s => if guard s op then (step op s).bind (exec guard step ops) else none

/-- What `exec` reaches is reached by a run. -/
theorem run_of_exec [∀ s op, Decidable (guard s op)] {s t : State} {ops : List Op}
    (h : exec guard step ops s = some t) : Run guard step s ops t := by
  induction ops generalizing s with
  | nil =>
    cases h
    exact .nil _
  | cons op ops ih =>
    unfold exec at h
    split at h
    · rename_i hguard
      obtain ⟨u, hu, h⟩ := Option.bind_eq_some_iff.mp h
      exact .cons hguard hu (ih h)
    · cases h

/-- A run to a state that passes a test, found by performing it. -/
theorem exists_run_of_exec (guard : State → Op → Prop) [∀ s op, Decidable (guard s op)]
    (step : Op → State → Option State) (s : State) (ops : List Op) (p : State → Bool)
    (h : (exec guard step ops s).any p = true) :
    ∃ t, Run guard step s ops t ∧ p t = true := by
  obtain ⟨t, ht, hp⟩ := (Option.any_eq_true p _).mp h
  exact ⟨t, run_of_exec ht, hp⟩

end TransitionSystem
