import GpuCluster.Foundation.Machine

/-! # Simulation of one machine by another

A relation between the states of two machines that each step of the first keeps,
with a run of the second to match it. An empty run is a stutter. Runs of the
first machine then have matching runs of the second. Where one machine only shows
less of the states of another, their runs are the same.
-/

namespace GpuCluster.Foundation

namespace Machine

universe u v

variable {σ τ : Type u} {α β : Type v} {M : Machine σ α} {N : Machine τ β} {R : σ → τ → Prop}

/-- Every step of `M` from related states is matched by a run of `N`. -/
def Simulates (M : Machine σ α) (N : Machine τ β) (R : σ → τ → Prop) : Prop :=
  ∀ state spec action next, R state spec → M.step state action = some next →
    ∃ actions later, N.exec spec actions = some later ∧ R next later

/-- A run is matched by a run. -/
theorem Simulates.exec (hsim : M.Simulates N R) {state last : σ} {spec : τ}
    (hrel : R state spec) {actions : List α} (hexec : M.exec state actions = some last) :
    ∃ matching later, N.exec spec matching = some later ∧ R last later := by
  induction actions generalizing state spec with
  | nil =>
      cases hexec
      exact ⟨[], spec, rfl, hrel⟩
  | cons action rest ih =>
      obtain ⟨middle, hmiddle, hrest⟩ := Option.bind_eq_some_iff.mp hexec
      obtain ⟨first, between, hfirst, hbetween⟩ := hsim state spec action middle hrel hmiddle
      obtain ⟨second, later, hsecond, hlater⟩ := ih hbetween hrest
      exact ⟨first ++ second, later, (exec_append hfirst second).trans hsecond, hlater⟩

/-- Where the machines start from related states, every reachable state of the first is
related to one of the second. -/
theorem Simulates.reachable (hsim : M.Simulates N R)
    (hinit : ∀ state, M.init state → ∃ spec, N.init spec ∧ R state spec) {state : σ}
    (hreach : M.Reachable state) : ∃ spec, N.Reachable spec ∧ R state spec := by
  refine hreach.invariant (fun state => ∃ spec, N.Reachable spec ∧ R state spec) ?_ ?_
  · intro state hstart
    obtain ⟨spec, hspec, hrel⟩ := hinit state hstart
    exact ⟨spec, .init hspec, hrel⟩
  · rintro state action next ⟨spec, hspec, hrel⟩ hstep
    obtain ⟨actions, later, hexec, hlater⟩ := hsim state spec action next hrel hstep
    exact ⟨later, hspec.exec hexec, hlater⟩

/-- Where a view of the states commutes with every step, it commutes with runs: what the
view leaves out decides nothing. -/
theorem exec_map {N : Machine τ α} {view : σ → τ}
    (hview : ∀ state action, N.step (view state) action = (M.step state action).map view)
    (state : σ) (actions : List α) :
    N.exec (view state) actions = (M.exec state actions).map view := by
  induction actions generalizing state with
  | nil => rfl
  | cons action rest ih =>
      rw [exec, exec, hview, Option.bind_map, Option.map_bind]
      exact congrArg _ (funext fun next => ih next)

/-- A step that the second machine matches with one step of its own. -/
theorem exec_singleton {spec later : τ} {action : β} (hstep : N.step spec action = some later) :
    N.exec spec [action] = some later :=
  exec_cons hstep []

end Machine

end GpuCluster.Foundation
