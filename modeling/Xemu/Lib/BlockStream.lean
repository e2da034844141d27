import Mathlib

/-! # Streaming input into fixed-size blocks

    A block function `process : σ → List α → σ` consumes its input in
    blocks of `n` elements.  A streaming implementation feeds elements one
    at a time into a buffer and processes the buffer whenever it holds a
    block (`absorbByte`, `absorb`); a specification processes whole
    blocks from the front of the input (`processBlocks`).

    The lemmas:
    * `absorb_append`: streaming two pieces is streaming their
      concatenation;
    * `absorb_partial` and `absorb_complete`: a piece that does not fill
      the buffer stays in it, and one that fills it exactly is processed
      with the buffer;
    * `absorb_blocks`: streaming whole blocks into an empty buffer is
      processing them, and `processBlocks_append` splits a block run;
    * `absorb_eq_processBlocks`: streaming any input into an empty buffer
      processes its whole blocks and keeps the rest.

    Nothing here mentions a particular program.
-/

namespace Xemu.BlockStream

variable {σ α : Type} (n : Nat) (process : σ → List α → σ)

/-- Feed one element: buffer it, and process the buffer once it holds a
    block. -/
def absorbByte (sb : σ × List α) (x : α) : σ × List α :=
  if sb.2.length + 1 = n then (process sb.1 (sb.2 ++ [x]), []) else (sb.1, sb.2 ++ [x])

/-- Feed a list of elements, one at a time. -/
def absorb (sb : σ × List α) (xs : List α) : σ × List α :=
  xs.foldl (absorbByte n process) sb

/-- Process `k` whole blocks from the front of `xs`. -/
def processBlocks (s : σ) (xs : List α) : Nat → σ
  | 0 => s
  | k + 1 => processBlocks (process s (xs.take n)) (xs.drop n) k

@[simp] theorem absorb_nil (sb : σ × List α) : absorb n process sb [] = sb := rfl

theorem absorb_cons (sb : σ × List α) (x : α) (xs : List α) :
    absorb n process sb (x :: xs) = absorb n process (absorbByte n process sb x) xs := rfl

theorem absorb_append (sb : σ × List α) (xs ys : List α) :
    absorb n process sb (xs ++ ys) = absorb n process (absorb n process sb xs) ys :=
  List.foldl_append

/-- Elements that do not fill the buffer are only buffered. -/
theorem absorb_partial (s : σ) (p xs : List α) (h : p.length + xs.length < n) :
    absorb n process (s, p) xs = (s, p ++ xs) := by
  induction xs generalizing p with
  | nil => simp
  | cons x xs ih =>
    rw [absorb_cons, absorbByte]
    dsimp only
    simp only [List.length_cons] at h
    rw [if_neg (by omega), ih (p ++ [x]) (by simp; omega)]
    simp

/-- Elements that fill the buffer exactly are processed with it. -/
theorem absorb_complete (s : σ) (p xs : List α) (h : p.length + xs.length = n) (hxs : xs ≠ []) :
    absorb n process (s, p) xs = (process s (p ++ xs), []) := by
  obtain ⟨ys, y, rfl⟩ := List.eq_nil_or_concat xs |>.resolve_left hxs
  simp only [List.concat_eq_append, List.length_append, List.length_singleton] at h ⊢
  rw [absorb_append, absorb_partial n process s p ys (by omega), absorb_cons, absorbByte]
  dsimp only
  rw [if_pos (by simp only [List.length_append]; omega)]
  simp

/-- `k` whole blocks streamed into an empty buffer are `k` blocks
    processed, and leave the buffer empty. -/
theorem absorb_blocks (hn : 0 < n) (s : σ) (k : Nat) :
    ∀ xs : List α, xs.length = n * k → absorb n process (s, []) xs = (processBlocks n process s xs k, []) := by
  induction k generalizing s with
  | zero =>
    intro xs hxs
    rw [Nat.mul_zero, List.length_eq_zero_iff] at hxs
    subst hxs
    rfl
  | succ k ih =>
    intro xs hxs
    -- the first block completes the buffer; the rest is `k` blocks
    have hfirst : (xs.take n).length = n := by
      rw [List.length_take]
      rw [Nat.mul_succ] at hxs
      omega
    rw [← List.take_append_drop n xs, absorb_append,
      absorb_complete n process s [] _ (by simpa using hfirst)
        (List.ne_nil_of_length_pos (by omega)),
      List.nil_append, ih _ _ (by rw [List.length_drop, hxs, Nat.mul_succ]; omega)]
    simp [processBlocks]

/-- Blocks of a concatenation whose first part is `k` whole blocks. -/
theorem processBlocks_append (s : σ) (k l : Nat) :
    ∀ xs ys : List α, xs.length = n * k →
      processBlocks n process s (xs ++ ys) (k + l) =
        processBlocks n process (processBlocks n process s xs k) ys l := by
  induction k generalizing s with
  | zero =>
    intro xs ys hxs
    rw [Nat.mul_zero, List.length_eq_zero_iff] at hxs
    subst hxs
    simp [processBlocks]
  | succ k ih =>
    intro xs ys hxs
    have hn : n ≤ xs.length := by rw [hxs, Nat.mul_succ]; omega
    rw [Nat.succ_add, processBlocks, processBlocks, List.take_append_of_le_length hn,
      List.drop_append_of_le_length hn,
      ih _ _ _ (by rw [List.length_drop, hxs, Nat.mul_succ]; omega)]

theorem processBlocks_one (s : σ) (xs : List α) (h : xs.length = n) :
    processBlocks n process s xs 1 = process s xs := by
  rw [processBlocks, processBlocks, List.take_of_length_le (by omega)]

/-- `k` blocks read only the first `n * k` elements. -/
theorem processBlocks_take (s : σ) (xs : List α) (k : Nat) (h : (xs.take (n * k)).length = n * k) :
    processBlocks n process s xs k = processBlocks n process s (xs.take (n * k)) k := by
  have h := processBlocks_append n process s k 0 _ (xs.drop (n * k)) h
  rw [Nat.add_zero, List.take_append_drop] at h
  exact h

/-- Streaming any input into an empty buffer processes its whole blocks
    and leaves the remainder in the buffer. -/
theorem absorb_eq_processBlocks (hn : 0 < n) (s : σ) (xs : List α) :
    absorb n process (s, []) xs =
      (processBlocks n process s xs (xs.length / n), xs.drop (n * (xs.length / n))) := by
  set k := xs.length / n
  have htake : (xs.take (n * k)).length = n * k := by
    rw [List.length_take]
    exact Nat.min_eq_left (Nat.mul_div_le xs.length n)
  have hdrop : (xs.drop (n * k)).length < n := by
    rw [List.length_drop, ← Nat.mod_eq_sub_mul_div]
    exact Nat.mod_lt _ hn
  conv_lhs => rw [← List.take_append_drop (n * k) xs]
  rw [absorb_append, absorb_blocks n process hn s k _ htake,
    absorb_partial n process _ [] _ (by simpa using hdrop), List.nil_append,
    processBlocks_take n process s xs k htake]

end Xemu.BlockStream
