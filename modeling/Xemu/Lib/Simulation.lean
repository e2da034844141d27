import Mathlib

/-! # Runs of fallible steps and simulation between them

    A system whose step on an input may fail: `run` feeds it a list of
    inputs and stops at the first failure.  Two such systems, a concrete
    and an abstract one, simulate each other under a relation `R` when a
    step from related states on the same input fails alike on both or
    succeeds on both into related states (`ExceptRel R`).  One step is
    enough: `run_rel` lifts it to whole runs, and `run_inv` does the same
    for an invariant of one system.

    Nothing here mentions a particular program.
-/

namespace Xemu.Sim

variable {σ τ α ε : Type _}

/-- Two results that fail with the same error, or succeed with related
    values. -/
inductive ExceptRel (R : σ → τ → Prop) : Except ε σ → Except ε τ → Prop
  | error (e : ε) : ExceptRel R (.error e) (.error e)
  | ok {s : σ} {t : τ} : R s t → ExceptRel R (.ok s) (.ok t)

/-- The inputs fed one after the other, up to the first failure. -/
def run (step : σ → α → Except ε σ) : σ → List α → Except ε σ
  | s, [] => .ok s
  | s, a :: as =>
    match step s a with
    | .error e => .error e
    | .ok s' => run step s' as

@[simp] theorem run_nil (step : σ → α → Except ε σ) (s : σ) : run step s [] = .ok s := rfl

theorem run_cons (step : σ → α → Except ε σ) (s : σ) (a : α) (as : List α) :
    run step s (a :: as) = match step s a with
      | .error e => .error e
      | .ok s' => run step s' as := rfl

theorem ExceptRel.mono {R R' : σ → τ → Prop} {x : Except ε σ} {y : Except ε τ}
    (h : ExceptRel R x y) (hR : ∀ s t, R s t → R' s t) : ExceptRel R' x y := by
  cases h with
  | error e => exact .error e
  | ok hst => exact .ok (hR _ _ hst)

/-- A relation joined with a fact every successful right-hand result has. -/
theorem ExceptRel.and_right {R : σ → τ → Prop} {P : τ → Prop} {x : Except ε σ} {y : Except ε τ}
    (h : ExceptRel R x y) (hP : ∀ t, y = .ok t → P t) : ExceptRel (fun s t => R s t ∧ P t) x y := by
  cases h with
  | error e => exact .error e
  | ok hst => exact .ok ⟨hst, hP _ rfl⟩

/-- The error of one side is the error of the other. -/
theorem ExceptRel.error_iff {R : σ → τ → Prop} {x : Except ε σ} {y : Except ε τ}
    (h : ExceptRel R x y) (e : ε) : x = .error e ↔ y = .error e := by
  cases h <;> simp

section simulation

variable {step : σ → α → Except ε σ} {step' : τ → α → Except ε τ} {R : σ → τ → Prop}

/-- Steps that keep the relation give runs that keep it: by induction on the
    inputs, one step at a time. -/
theorem run_rel (hstep : ∀ s t a, R s t → ExceptRel R (step s a) (step' t a)) :
    ∀ (as : List α) {s : σ} {t : τ}, R s t → ExceptRel R (run step s as) (run step' t as)
  | [], _, _, h => .ok h
  | a :: as, s, t, h => by
    have hst := hstep s t a h
    rw [run_cons, run_cons]
    generalize step s a = x, step' t a = y at hst ⊢
    cases hst with
    | error e => exact .error e
    | ok h' => exact run_rel hstep as h'

/-- Steps that keep an invariant give runs that keep it. -/
theorem run_inv {I : σ → Prop} (hstep : ∀ s a s', I s → step s a = .ok s' → I s') :
    ∀ (as : List α) {s s' : σ}, I s → run step s as = .ok s' → I s'
  | [], _, _, h, hrun => by
    cases hrun
    exact h
  | a :: as, s, s', h, hrun => by
    rw [run_cons] at hrun
    split at hrun
    · cases hrun
    · exact run_inv hstep as (hstep s a _ h ‹_›) hrun

end simulation

end Xemu.Sim
