import Mathlib

/-! # Runs that record events and may abort

    A `Run ε α` is what a C function with `assert`s does: the events it
    records in order (here, the stores it performs) and the value it ends
    with, or `none` when an `assert` fails.  The events before the failing
    `assert` stay recorded: they happened.

    `Run.Sat r E Q` is the triple of such a run: every event satisfies `E`,
    and a run that does not abort ends in a value satisfying `Q`.  The rules
    below (`sat_pure`, `sat_emit`, `sat_guard`, `sat_guard_bind`,
    `sat_bind`, `sat_steps`) are the usual ones of a Hoare logic for this
    monad; `sat_steps` is the invariant rule over a sequence of calls.

    Nothing here mentions a particular program.
-/

namespace Xemu.Logged

/-- The events a run records, and its value, or `none` if it aborts. -/
structure Run (ε α : Type _) where
  events : List ε
  result : Option α
deriving DecidableEq, Repr

namespace Run

variable {ε α β γ : Type _}

/-- End with `a`, recording nothing. -/
def pure (a : α) : Run ε α := ⟨[], some a⟩

/-- Record `es`, then end with `a`. -/
def emit (es : List ε) (a : α) : Run ε α := ⟨es, some a⟩

/-- `assert (c)`, then go on with `a`. -/
def guard (c : Prop) [Decidable c] (a : α) : Run ε α := if c then ⟨[], some a⟩ else ⟨[], none⟩

/-- Run `r`, then `k` on its value; an abort stops the run. -/
def bind (r : Run ε α) (k : α → Run ε β) : Run ε β :=
  match r.result with
  | none => ⟨r.events, none⟩
  | some a => ⟨r.events ++ (k a).events, (k a).result⟩

/-- The calls `cs`, one after the other, from `s`. -/
def steps (step : α → γ → Run ε α) : α → List γ → Run ε α
  | s, [] => pure s
  | s, c :: cs => (step s c).bind fun s' => steps step s' cs

/-- Every event satisfies `E`, and a value the run ends with satisfies
    `Q`. -/
def Sat (r : Run ε α) (E : ε → Prop) (Q : α → Prop) : Prop :=
  (∀ e ∈ r.events, E e) ∧ ∀ a, r.result = some a → Q a

section rules

variable {E : ε → Prop} {P Q : α → Prop}

theorem bind_of_result {r : Run ε α} {a : α} (h : r.result = some a) (k : α → Run ε β) :
    r.bind k = ⟨r.events ++ (k a).events, (k a).result⟩ := by
  rw [bind, h]

@[simp] theorem pure_bind (a : α) (k : α → Run ε β) : (pure a : Run ε α).bind k = k a := by
  simp [pure, bind]

theorem sat_pure {a : α} (h : Q a) : (pure a : Run ε α).Sat E Q :=
  ⟨fun _ he => by simp [pure] at he, fun _ hb => by cases hb; exact h⟩

theorem sat_emit {es : List ε} {a : α} (hes : ∀ e ∈ es, E e) (h : Q a) : (emit es a).Sat E Q :=
  ⟨hes, fun _ hb => by cases hb; exact h⟩

/-- A failing `assert` ends the run; a passing one hands on its fact. -/
theorem sat_guard {c : Prop} [Decidable c] {a : α} (h : c → Q a) : (guard c a : Run ε α).Sat E Q := by
  unfold guard
  split_ifs with hc
  · exact ⟨fun _ he => by simp at he, fun _ hb => by cases hb; exact h hc⟩
  · exact ⟨fun _ he => by simp at he, fun _ hb => by cases hb⟩

/-- An `assert` followed by the rest of the function: the rest runs only
    when the condition holds. -/
theorem sat_guard_bind {c : Prop} [Decidable c] {a : α} {k : α → Run ε β} {Q : β → Prop}
    (h : c → (k a).Sat E Q) : ((guard c a : Run ε α).bind k).Sat E Q := by
  unfold guard
  split_ifs with hc
  · simpa [bind] using h hc
  · exact ⟨fun _ he => by simp [bind] at he, fun _ hb => by simp [bind] at hb⟩

theorem sat_bind {R : α → Prop} {Q : β → Prop} {r : Run ε α} {k : α → Run ε β}
    (hr : r.Sat E R) (hk : ∀ a, R a → (k a).Sat E Q) : (r.bind k).Sat E Q := by
  unfold bind
  cases hres : r.result with
  | none => exact ⟨hr.1, fun _ hb => by cases hb⟩
  | some a =>
    -- the events of `r`, then those of `k a`, whose start `r` guarantees
    have hka := hk a (hr.2 a hres)
    refine ⟨fun e he => ?_, hka.2⟩
    rcases List.mem_append.mp he with he | he
    · exact hr.1 e he
    · exact hka.1 e he

theorem Sat.mono {r : Run ε α} {E' : ε → Prop} {Q' : α → Prop} (h : r.Sat E Q)
    (hE : ∀ e, E e → E' e) (hQ : ∀ a, Q a → Q' a) : r.Sat E' Q' :=
  ⟨fun e he => hE e (h.1 e he), fun a ha => hQ a (h.2 a ha)⟩

/-- The invariant rule: calls of a kind `C` that each keep `P` and record
    only events satisfying `E` do so in any sequence of such calls. -/
theorem sat_steps {C : γ → Prop} {step : α → γ → Run ε α}
    (hstep : ∀ s c, C c → P s → (step s c).Sat E P) :
    ∀ (cs : List γ) (s : α), (∀ c ∈ cs, C c) → P s → (steps step s cs).Sat E P
  | [], _, _, hs => sat_pure hs
  | c :: cs, s, hcs, hs =>
    sat_bind (hstep s c (hcs c (List.mem_cons_self ..)) hs) fun s' hs' =>
      sat_steps hstep cs s' (fun c' hc' => hcs c' (List.mem_cons_of_mem _ hc')) hs'

end rules

theorem bind_pure (r : Run ε α) : r.bind pure = r := by
  obtain ⟨events, result⟩ := r
  cases result <;> simp [bind, pure]

theorem steps_singleton (step : α → γ → Run ε α) (s : α) (c : γ) : steps step s [c] = step s c := by
  rw [steps]
  exact bind_pure _

/-- Calls that do not abort add their events in order. -/
theorem steps_append {step : α → γ → Run ε α} (cs cs' : List γ) (s s' : α)
    (h : (steps step s cs).result = some s') :
    steps step s (cs ++ cs') =
      ⟨(steps step s cs).events ++ (steps step s' cs').events, (steps step s' cs').result⟩ := by
  induction cs generalizing s with
  | nil =>
    cases h
    simp [steps, pure]
  | cons c cs ih =>
    cases hc : (step s c).result with
    | none => simp [steps, bind, hc] at h
    | some t =>
      -- the first call ends in `t`, from which the rest of `cs` ends in `s'`
      have ht : (steps step t cs).result = some s' := by
        rw [steps, bind_of_result hc] at h
        exact h
      rw [List.cons_append, steps, bind_of_result hc, ih t ht, steps, bind_of_result hc,
        List.append_assoc]

end Run

end Xemu.Logged
