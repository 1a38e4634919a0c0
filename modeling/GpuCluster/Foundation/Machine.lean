import Mathlib.Data.List.Basic

/-! # Labelled machines and the runs that obey a schedule

A machine is a partial function of a state and an action. Nondeterminism lies
in the choice of the action, so a run is a list of actions. Two judgements are
made about a run: what holds in every state it visits, and what holds of every
step it takes. Nothing here mentions time, processes or a particular program.
-/

namespace GpuCluster.Foundation

universe u v

/-- A transition system whose step is a function of the state and the action.
`none` means that the action is not enabled. -/
structure Machine (σ : Type u) (α : Type v) where
  init : σ → Prop
  step : σ → α → Option σ

namespace Machine

variable {σ : Type u} {α : Type v} (M : Machine σ α)

/-- States reached from an initial one. -/
inductive Reachable : σ → Prop
  | init {state : σ} : M.init state → Reachable state
  | step {state next : σ} {action : α} : Reachable state →
      M.step state action = some next → Reachable next

/-- Execute a list of actions in order; `none` when one of them is not enabled. -/
def exec (state : σ) : List α → Option σ
  | [] => some state
  | action :: rest => (M.step state action).bind fun next => exec next rest

/-- Every state the run visits satisfies `P`. The run ends at the first action
that is not enabled. -/
def Throughout (P : σ → Prop) (state : σ) : List α → Prop
  | [] => P state
  | action :: rest => P state ∧
      ∀ next, M.step state action = some next → Throughout P next rest

/-- Every step the run takes satisfies `P`, a predicate of the action and of
the state it is taken in. -/
def Meets (P : σ → α → Prop) (state : σ) : List α → Prop
  | [] => True
  | action :: rest => ∀ next, M.step state action = some next →
      P state action ∧ Meets P next rest

variable {M}

theorem exec_cons {state next : σ} {action : α} (hstep : M.step state action = some next)
    (rest : List α) : M.exec state (action :: rest) = M.exec next rest := by
  rw [exec, hstep, Option.bind_some]

theorem exec_append {state middle : σ} {before : List α}
    (hbefore : M.exec state before = some middle) (after : List α) :
    M.exec state (before ++ after) = M.exec middle after := by
  induction before generalizing state with
  | nil =>
      cases hbefore
      rfl
  | cons action rest ih =>
      obtain ⟨next, hnext, hrest⟩ := Option.bind_eq_some_iff.mp hbefore
      rw [List.cons_append, exec_cons hnext]
      exact ih hrest

/-- The run rule: what holds initially and is preserved by every step holds in
every reachable state. -/
theorem Reachable.invariant (inv : σ → Prop)
    (hinit : ∀ state, M.init state → inv state)
    (hstep : ∀ state action next, inv state → M.step state action = some next → inv next)
    {state : σ} (hreach : M.Reachable state) : inv state := by
  induction hreach with
  | init h => exact hinit _ h
  | step _ h ih => exact hstep _ _ _ ih h

/-- The run rule for one list of actions. -/
theorem exec_invariant (inv : σ → Prop)
    (hstep : ∀ state action next, inv state → M.step state action = some next → inv next)
    {state last : σ} {actions : List α} (hstate : inv state)
    (hexec : M.exec state actions = some last) : inv last := by
  induction actions generalizing state with
  | nil =>
      simp only [Machine.exec, Option.some.injEq] at hexec
      subst last
      exact hstate
  | cons action rest ih =>
      obtain ⟨middle, hmiddle, hrest⟩ := Option.bind_eq_some_iff.mp hexec
      exact ih (hstep _ _ _ hstate hmiddle) hrest

/-- A run from a reachable state ends in one. -/
theorem Reachable.exec {state last : σ} (hreach : M.Reachable state) {actions : List α}
    (hexec : M.exec state actions = some last) : M.Reachable last :=
  exec_invariant M.Reachable (fun _ _ _ hstate hstep => hstate.step hstep) hreach hexec

theorem Throughout.start {P : σ → Prop} {state : σ} {actions : List α}
    (hall : M.Throughout P state actions) : P state := by
  cases actions with
  | nil => exact hall
  | cons => exact hall.1

/-- What holds in every state of a run holds where the run ends. -/
theorem Throughout.last {P : σ → Prop} {state last : σ} {actions : List α}
    (hall : M.Throughout P state actions) (hexec : M.exec state actions = some last) : P last := by
  induction actions generalizing state with
  | nil =>
      cases hexec
      exact hall
  | cons action rest ih =>
      obtain ⟨middle, hmiddle, hrest⟩ := Option.bind_eq_some_iff.mp hexec
      exact ih (hall.2 middle hmiddle) hrest

/-- The step taken after a part of a run satisfies the run's step predicate. -/
theorem Meets.after {P : σ → α → Prop} {state middle next : σ} {action : α} {before rest : List α}
    (hmeets : M.Meets P state (before ++ action :: rest))
    (hexec : M.exec state before = some middle) (hstep : M.step middle action = some next) :
    P middle action := by
  induction before generalizing state with
  | nil =>
      cases hexec
      exact (hmeets next hstep).1
  | cons first more ih =>
      obtain ⟨second, hsecond, hmore⟩ := Option.bind_eq_some_iff.mp hexec
      exact ih (hmeets second hsecond).2 hmore

/-- A run from its first step. -/
theorem Meets.cons {P : σ → α → Prop} {state next : σ} {action : α} {rest : List α}
    (hstep : M.step state action = some next) (hP : P state action)
    (hrest : M.Meets P next rest) : M.Meets P state (action :: rest) := by
  intro other hother
  cases hstep.symm.trans hother
  exact ⟨hP, hrest⟩

/-- A run that continues where another one ends. -/
theorem Meets.append {P : σ → α → Prop} {state : σ} {before after : List α}
    (hbefore : M.Meets P state before)
    (hafter : ∀ middle, M.exec state before = some middle → M.Meets P middle after) :
    M.Meets P state (before ++ after) := by
  induction before generalizing state with
  | nil => exact hafter state rfl
  | cons first more ih =>
      intro second hsecond
      obtain ⟨hfirst, hmore⟩ := hbefore second hsecond
      refine ⟨hfirst, ih hmore fun middle hexec => hafter middle ?_⟩
      rw [exec, hsecond]
      exact hexec

/-- A run none of whose actions is judged. -/
theorem Meets.of_forall {P : σ → α → Prop} {actions : List α}
    (hall : ∀ action ∈ actions, ∀ state, P state action) (state : σ) :
    M.Meets P state actions := by
  induction actions generalizing state with
  | nil => trivial
  | cons first rest ih =>
      intro next _
      exact ⟨hall first List.mem_cons_self state,
        ih (fun action hmem => hall action (List.mem_cons_of_mem _ hmem)) next⟩

/-- An invariant kept by the steps that satisfy `Q` holds along the runs whose steps do. -/
theorem Meets.throughout {inv P : σ → Prop} {Q : σ → α → Prop}
    (hkeeps : ∀ state action next, inv state → Q state action →
      M.step state action = some next → inv next)
    (hP : ∀ state, inv state → P state)
    {state : σ} (hstate : inv state) {actions : List α} (hmeets : M.Meets Q state actions) :
    M.Throughout P state actions := by
  induction actions generalizing state with
  | nil => exact hP state hstate
  | cons action rest ih =>
      refine ⟨hP state hstate, fun next hnext => ?_⟩
      obtain ⟨hQ, hrest⟩ := hmeets next hnext
      exact ih (hkeeps state action next hstate hQ hnext) hrest

section Runs

variable {inv : σ → Prop}
  (hinv : ∀ state action next, inv state → M.step state action = some next → inv next)

include hinv

/-- A step predicate that implies another where an invariant holds does so on runs. -/
theorem Meets.imp {P Q : σ → α → Prop}
    (himp : ∀ state action next, inv state → M.step state action = some next →
      P state action → Q state action)
    {state : σ} (hstate : inv state) {actions : List α} (hmeets : M.Meets P state actions) :
    M.Meets Q state actions := by
  induction actions generalizing state with
  | nil => trivial
  | cons action rest ih =>
      intro next hnext
      obtain ⟨hP, hrest⟩ := hmeets next hnext
      exact ⟨himp _ _ _ hstate hnext hP, ih (hinv _ _ _ hstate hnext) hrest⟩

/-- Two step predicates that agree where an invariant holds agree on runs. -/
theorem meets_iff {P Q : σ → α → Prop}
    (hagree : ∀ state action next, inv state → M.step state action = some next →
      (P state action ↔ Q state action))
    {state : σ} (hstate : inv state) (actions : List α) :
    M.Meets P state actions ↔ M.Meets Q state actions :=
  ⟨Meets.imp hinv (fun _ _ _ hs hnext => (hagree _ _ _ hs hnext).mp) hstate,
    Meets.imp hinv (fun _ _ _ hs hnext => (hagree _ _ _ hs hnext).mpr) hstate⟩

/-- A state predicate that holds where the run starts holds in every state of
the run exactly when no step breaks it. -/
theorem throughout_iff_meets {P : σ → Prop} {Q : σ → α → Prop}
    (hkeeps : ∀ state action next, inv state → P state →
      M.step state action = some next → (P next ↔ Q state action))
    {state : σ} (hstate : inv state) (hP : P state) (actions : List α) :
    M.Throughout P state actions ↔ M.Meets Q state actions := by
  induction actions generalizing state with
  | nil => simpa only [Throughout, Meets, iff_true] using hP
  | cons action rest ih =>
      simp only [Throughout, Meets, hP, true_and]
      refine forall_congr' fun next => forall_congr' fun hnext => ?_
      rw [← hkeeps state action next hstate hP hnext]
      -- the state after the step is where the rest of the run starts
      constructor
      · intro hall
        have hnextP : P next := hall.start
        exact ⟨hnextP, (ih (hinv _ _ _ hstate hnext) hnextP).mp hall⟩
      · intro ⟨hnextP, hmeets⟩
        exact (ih (hinv _ _ _ hstate hnext) hnextP).mpr hmeets

end Runs

end Machine

end GpuCluster.Foundation
