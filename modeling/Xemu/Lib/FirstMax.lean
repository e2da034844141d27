import Mathlib

/-! # The first of the greatest

    A scan over the indices `0, 1, …, n - 1` that keeps the best index seen
    so far and replaces it only by a strictly greater one: it ends on the
    least index among those of the greatest value (`IsFirstMax`), or on
    nothing when no index is acceptable.  Arbitration loops of this shape
    pick a winner by level with the lowest index winning ties.

    The scan here is a `foldl` of `step`; a loop of a program that keeps its
    best so far in other variables, or stops early at a value nothing can
    beat, is related to it by its own lemma.  `foldl_step_of_top` is what
    such an early stop rests on.

    Nothing here mentions a particular program.
-/

namespace Xemu.FirstMax

variable {β : Type _} [LinearOrder β] (p : Nat → Bool) (v : Nat → β)

/-- One index of the scan: `a` replaces the best so far when it is
    acceptable and strictly greater. -/
def step (best : Option Nat) (a : Nat) : Option Nat :=
  if p a ∧ best.all fun b => v b < v a then some a else best

/-- The scan over the indices below `n`. -/
def firstMax (n : Nat) : Option Nat :=
  (List.range n).foldl (step p v) none

/-- `a` is the least of the acceptable indices below `n` with the greatest
    value. -/
structure IsFirstMax (n a : Nat) : Prop where
  lt : a < n
  accepted : p a
  le : ∀ b < n, p b → v b ≤ v a
  lt_of_lt : ∀ b < a, p b → v b < v a

/-- What the scan keeps after the indices below `n`: nothing while none is
    acceptable, then the first maximum. -/
def Kept (n : Nat) : Option Nat → Prop
  | none => ∀ b < n, p b = false
  | some a => IsFirstMax p v n a

variable {p v}

/-- There is one first maximum. -/
theorem IsFirstMax.unique {n a a' : Nat} (h : IsFirstMax p v n a) (h' : IsFirstMax p v n a') :
    a = a' := by
  rcases lt_trichotomy a a' with hlt | heq | hgt
  · exact absurd (h.le a' h'.lt h'.accepted) (not_le.mpr (h'.lt_of_lt a hlt h.accepted))
  · exact heq
  · exact absurd (h'.le a h.lt h.accepted) (not_le.mpr (h.lt_of_lt a' hgt h'.accepted))

theorem kept_zero : Kept p v 0 none := fun _ hb => absurd hb (Nat.not_lt_zero _)

/-- One more index keeps `Kept`. -/
theorem Kept.succ {n : Nat} {best : Option Nat} (h : Kept p v n best) :
    Kept p v (n + 1) (step p v best n) := by
  unfold step
  cases best with
  | none =>
    by_cases hn : p n
    · -- the first acceptable index
      simp only [hn, Option.all_none, and_self, if_true]
      refine ⟨Nat.lt_succ_self n, hn, fun b hb hok => ?_, fun b hb hok => absurd hok (by simp [h b hb])⟩
      rcases Nat.lt_succ_iff_lt_or_eq.mp hb with hb | rfl
      · exact absurd hok (by simp [h b hb])
      · exact le_refl _
    · simp only [hn]
      intro b hb
      rcases Nat.lt_succ_iff_lt_or_eq.mp hb with hb | rfl
      · exact h b hb
      · simpa using hn
  | some a =>
    simp only [Option.all_some, decide_eq_true_eq]
    by_cases hbeat : p n ∧ v a < v n
    · -- `n` beats every acceptable index before it
      rw [if_pos hbeat]
      refine ⟨Nat.lt_succ_self n, hbeat.1, fun b hb hok => ?_, fun b hb hok => ?_⟩
      · rcases Nat.lt_succ_iff_lt_or_eq.mp hb with hb | rfl
        · exact (h.le b hb hok).trans hbeat.2.le
        · exact le_refl _
      · exact lt_of_le_of_lt (h.le b hb hok) hbeat.2
    · -- `a` stays: `n` is not acceptable or not greater
      rw [if_neg hbeat]
      refine ⟨Nat.lt_succ_of_lt h.lt, h.accepted, fun b hb hok => ?_, h.lt_of_lt⟩
      rcases Nat.lt_succ_iff_lt_or_eq.mp hb with hb | rfl
      · exact h.le b hb hok
      · exact not_lt.mp fun hlt => hbeat ⟨hok, hlt⟩

/-- The scan's result is the first maximum, or nothing when no index is
    acceptable. -/
theorem kept_firstMax (n : Nat) : Kept p v n (firstMax p v n) := by
  induction n with
  | zero => exact kept_zero
  | succ n ih =>
    rw [firstMax, List.range_succ, List.foldl_append, List.foldl_cons, List.foldl_nil]
    exact ih.succ

theorem firstMax_eq_some_iff {n a : Nat} : firstMax p v n = some a ↔ IsFirstMax p v n a := by
  constructor
  · intro h
    have := kept_firstMax (p := p) (v := v) n
    rwa [h] at this
  · intro ha
    have hk := kept_firstMax (p := p) (v := v) n
    cases hbest : firstMax p v n with
    | none =>
      rw [hbest] at hk
      exact absurd ha.accepted (by simp [hk a ha.lt])
    | some a' =>
      rw [hbest] at hk
      exact congrArg some (IsFirstMax.unique hk ha)

theorem firstMax_eq_none_iff {n : Nat} : firstMax p v n = none ↔ ∀ b < n, p b = false := by
  constructor
  · intro h
    have := kept_firstMax (p := p) (v := v) n
    rwa [h] at this
  · intro hnone
    cases hbest : firstMax p v n with
    | none => rfl
    | some a =>
      have hk := kept_firstMax (p := p) (v := v) n
      rw [hbest] at hk
      exact absurd hk.accepted (by simp [hnone a hk.lt])

/-- A kept index whose value nothing in the rest of the scan exceeds stays:
    the scan may stop there. -/
theorem foldl_step_of_top {a : Nat} {l : List Nat} (htop : ∀ b ∈ l, v b ≤ v a) :
    l.foldl (step p v) (some a) = some a := by
  induction l with
  | nil => rfl
  | cons b l ih =>
    have hb : ¬(p b ∧ v a < v b) := fun h => absurd (htop b List.mem_cons_self) (not_le.mpr h.2)
    rw [List.foldl_cons, step, Option.all_some, if_neg (by simpa using hb)]
    exact ih fun c hc => htop c (List.mem_cons_of_mem _ hc)

end Xemu.FirstMax
