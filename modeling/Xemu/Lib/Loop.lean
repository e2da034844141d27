import Mathlib

/-! # Counted loops

    `forLoop n body s` is the C loop
    `for (i = 0; i < n; i++) s = body(i, s);` over an explicit loop state.
    It is structurally recursive on the trip count, so a run on concrete
    inputs evaluates by `decide`, and its proof rule is the usual
    invariant rule: an invariant indexed by the number of iterations done,
    established before the loop and kept by one iteration.

    Nothing here mentions a particular program.
-/

namespace Xemu.Loop

/-- `for (i = 0; i < n; i++) s = body i s`: iterations `0, 1, ..., n - 1`. -/
def forLoop {σ : Type _} : Nat → (Nat → σ → σ) → σ → σ
  | 0, _, s => s
  | n + 1, body, s => body n (forLoop n body s)

section rules

variable {σ : Type _}

@[simp] theorem forLoop_zero (body : Nat → σ → σ) (s : σ) : forLoop 0 body s = s := rfl

theorem forLoop_succ (n : Nat) (body : Nat → σ → σ) (s : σ) :
    forLoop (n + 1) body s = body n (forLoop n body s) := rfl

/-- The invariant rule: `inv i` holds after `i` iterations. -/
theorem forLoop_inv (inv : Nat → σ → Prop) (n : Nat) (body : Nat → σ → σ) (s : σ)
    (hinit : inv 0 s) (hstep : ∀ i t, i < n → inv i t → inv (i + 1) (body i t)) :
    inv n (forLoop n body s) := by
  induction n with
  | zero => exact hinit
  | succ n ih =>
    rw [forLoop_succ]
    exact hstep n _ (Nat.lt_succ_self n) (ih fun i t hi => hstep i t (by omega))

/-- A loop whose body folds a list per iteration folds the concatenation. -/
theorem forLoop_foldl {α : Type _} (n : Nat) (f : σ → α → σ) (items : Nat → List α) (s : σ) :
    forLoop n (fun i t => (items i).foldl f t) s = ((List.range n).flatMap items).foldl f s := by
  induction n with
  | zero => rfl
  | succ n ih => rw [forLoop_succ, ih, List.range_succ, List.flatMap_append, List.foldl_append,
      List.flatMap_singleton]

/-- A loop whose state carries a counter (an offset, a pointer) that each
    iteration advances by the same `next`, whatever the rest of the state:
    the counter at iteration `i` is `next^[i] c`, and the rest of the state
    is a fold over the iterations that reads it. -/
theorem forLoop_counter {τ : Type _} (n : Nat) (body : Nat → σ × τ → σ × τ) (next : τ → τ)
    (hnext : ∀ i st, (body i st).2 = next st.2) (s : σ) (c : τ) :
    forLoop n body (s, c) =
      ((List.range n).foldl (fun t i => (body i (t, next^[i] c)).1) s, next^[n] c) := by
  induction n with
  | zero => rfl
  | succ n ih =>
    rw [forLoop_succ, ih, List.range_succ, List.foldl_append, List.foldl_cons, List.foldl_nil,
      Function.iterate_succ_apply']
    exact Prod.ext rfl (hnext n _)

/-- Peeling off the first iteration. -/
theorem forLoop_succ' (n : Nat) (body : Nat → σ → σ) (s : σ) :
    forLoop (n + 1) body s = forLoop n (fun i => body (i + 1)) (body 0 s) := by
  induction n with
  | zero => rfl
  | succ n ih => rw [forLoop_succ, ih, forLoop_succ]

/-- A property every iteration keeps holds after the loop. -/
theorem forLoop_keeps (P : σ → Prop) (n : Nat) (body : Nat → σ → σ) (s : σ)
    (hkeep : ∀ i t, P t → P (body i t)) (hs : P s) : P (forLoop n body s) :=
  forLoop_inv (fun _ => P) n body s hs fun i t _ ht => hkeep i t ht

/-- A loop whose body only extends a list of the state keeps the list
    it started with as a prefix. -/
theorem forLoop_grows {α : Type _} (f : σ → List α) (n : Nat) (body : Nat → σ → σ) (s : σ)
    (hstep : ∀ i t, f t <+: f (body i t)) : f s <+: f (forLoop n body s) :=
  forLoop_keeps (fun t => f s <+: f t) n body s (fun i t h => h.trans (hstep i t)) (List.prefix_refl _)

/-- A loop whose body adds `k` elements to a list adds `k` per
    iteration. -/
theorem forLoop_length {α : Type _} (n k : Nat) (body : Nat → List α → List α)
    (hbody : ∀ i t, (body i t).length = t.length + k) (l : List α) :
    (forLoop n body l).length = l.length + k * n := by
  induction n with
  | zero => simp
  | succ n ih => rw [forLoop_succ, hbody, ih, Nat.mul_succ, Nat.add_assoc]

end rules

/-! ## Strided loops over a 32-bit counter

    `for (unsigned int i = 0; i + w < count; i += s)` with `i`, `w`, `s`
    and `count` 32-bit words: the test and the step wrap.  The counter
    alone decides when the loop stops, so a loop still running after
    `2 ^ 32` iterations has repeated a counter value and never stops;
    `strideLoop` runs on that much fuel and returns `none` for it.  When
    `count + s + w ≤ 2 ^ 32` nothing wraps, and the loop is `forLoop` over
    `strideTrips` iterations at `i = j * s`. -/

/-- `for (i = i0; i + w < count; i += s) st = body(i, st)` over 32-bit
    words, for at most `fuel` iterations. -/
def strideLoop {σ : Type _} (w s count : UInt32) (body : UInt32 → σ → σ) :
    Nat → UInt32 → σ → Option σ
  | 0, _, _ => none
  | fuel + 1, i, st =>
    if i + w < count then strideLoop w s count body fuel (i + s) (body i st) else some st

/-- The number of `j` with `j * s + w < count`. -/
def strideTrips (w s count : Nat) : Nat := (count - w + s - 1) / s

theorem lt_strideTrips_iff {w s count : Nat} (hs : 0 < s) (j : Nat) :
    j < strideTrips w s count ↔ j * s + w < count := by
  rw [strideTrips, Nat.lt_iff_add_one_le, Nat.le_div_iff_mul_le hs, Nat.succ_mul]
  omega

theorem le_strideTrips_iff {w s count : Nat} (hs : 0 < s) (j : Nat) :
    j ≤ strideTrips w s count ↔ j * s ≤ count - w + s - 1 := by
  rw [strideTrips, Nat.le_div_iff_mul_le hs]

section stride

variable {σ : Type _} {w s count : UInt32} {body : UInt32 → σ → σ}

/-- Without wrap-around the strided loop runs `strideTrips` iterations,
    at `i = j * s`.  The induction is on the fuel, from any iteration
    `j` that has not passed the last one. -/
theorem strideLoop_run (hs : 0 < s.toNat) (hfit : count.toNat + s.toNat + w.toNat ≤ 2 ^ 32)
    (st : σ) : ∀ (fuel j : Nat), j ≤ strideTrips w.toNat s.toNat count.toNat →
      strideTrips w.toNat s.toNat count.toNat - j < fuel →
      strideLoop w s count body fuel (UInt32.ofNat (j * s.toNat))
          (forLoop j (fun j => body (UInt32.ofNat (j * s.toNat))) st) =
        some (forLoop (strideTrips w.toNat s.toNat count.toNat)
          (fun j => body (UInt32.ofNat (j * s.toNat))) st) := by
  intro fuel
  induction fuel with
  | zero => intro j _ hfuel; omega
  | succ fuel ih =>
    intro j hj hfuel
    have hle := (le_strideTrips_iff hs j).mp hj
    -- the tested value `j * s + w` is below `2 ^ 32`, so the test is exact
    have hnowrap : j * s.toNat + w.toNat < 2 ^ 32 := by omega
    have htest : UInt32.ofNat (j * s.toNat) + w < count ↔ j * s.toNat + w.toNat < count.toNat := by
      rw [UInt32.lt_iff_toNat_lt, UInt32.toNat_add, UInt32.toNat_ofNat',
        Nat.mod_eq_of_lt (by omega : j * s.toNat < 2 ^ 32), Nat.mod_eq_of_lt hnowrap]
    rw [strideLoop]
    by_cases hlt : j < strideTrips w.toNat s.toNat count.toNat
    · -- one more iteration, and the counter steps to `(j + 1) * s`
      rw [if_pos (htest.mpr ((lt_strideTrips_iff hs j).mp hlt))]
      have hnext : UInt32.ofNat (j * s.toNat) + s = UInt32.ofNat ((j + 1) * s.toNat) := by
        rw [Nat.succ_mul, UInt32.ofNat_add, UInt32.ofNat_toNat]
      rw [hnext]
      exact ih (j + 1) hlt (by omega)
    · -- the last test fails: `j` is the trip count
      have hj' : j = strideTrips w.toNat s.toNat count.toNat := by omega
      rw [if_neg (fun h => hlt ((lt_strideTrips_iff hs j).mpr (htest.mp h))), hj']

/-- The strided loop from `i = 0`, on the fuel of a 32-bit counter. -/
theorem strideLoop_eq (hs : 0 < s.toNat) (hfit : count.toNat + s.toNat + w.toNat ≤ 2 ^ 32)
    (st : σ) :
    strideLoop w s count body (2 ^ 32) 0 st =
      some (forLoop (strideTrips w.toNat s.toNat count.toNat)
        (fun j => body (UInt32.ofNat (j * s.toNat))) st) := by
  have hT : strideTrips w.toNat s.toNat count.toNat < 2 ^ 32 := by
    have hle := (le_strideTrips_iff hs (strideTrips w.toNat s.toNat count.toNat)).mp le_rfl
    have hmul : strideTrips w.toNat s.toNat count.toNat ≤
        strideTrips w.toNat s.toNat count.toNat * s.toNat := Nat.le_mul_of_pos_right _ hs
    omega
  have h := @strideLoop_run σ w s count body hs hfit st (2 ^ 32) 0 (Nat.zero_le _) (by omega)
  rw [Nat.zero_mul, forLoop_zero] at h
  exact h

/-- A strided loop that adds `k` elements to a list per iteration stops,
    having added `k` per trip. -/
theorem strideLoop_length {α : Type _} {body : UInt32 → List α → List α} (k m : Nat)
    (hbody : ∀ i t, (body i t).length = t.length + k) (hs : 0 < s.toNat)
    (hfit : count.toNat + s.toNat + w.toNat ≤ 2 ^ 32)
    (hm : k * strideTrips w.toNat s.toNat count.toNat = m) (l : List α) :
    ∃ l', strideLoop w s count body (2 ^ 32) 0 l = some l' ∧ l'.length = l.length + m :=
  ⟨_, strideLoop_eq hs hfit l, by rw [forLoop_length _ k _ (fun _ t => hbody _ t) l, hm]⟩

/-- The same, followed by a step `g` that adds `j` elements. -/
theorem strideLoop_map_length {α : Type _} {body : UInt32 → List α → List α}
    {g : List α → List α} (k j m : Nat) (hbody : ∀ i t, (body i t).length = t.length + k)
    (hg : ∀ t, (g t).length = t.length + j) (hs : 0 < s.toNat)
    (hfit : count.toNat + s.toNat + w.toNat ≤ 2 ^ 32)
    (hm : k * strideTrips w.toNat s.toNat count.toNat + j = m) (l : List α) :
    ∃ l', (strideLoop w s count body (2 ^ 32) 0 l).map g = some l' ∧
      l'.length = l.length + m := by
  obtain ⟨l', h, hlen⟩ := strideLoop_length k _ hbody hs hfit rfl l
  refine ⟨g l', by rw [h, Option.map_some], ?_⟩
  rw [hg, hlen, ← hm, Nat.add_assoc]

end stride

end Xemu.Loop
