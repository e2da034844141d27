import Mathlib.Logic.Function.Basic

/-! # Memo tables and direct-mapped caches of a decoder

    Two ways a program avoids recomputing a partial function `f : W → Option V`
    (a decoder, where `none` is "no result"):

    * a per-address memo over a memory `mem : A → W`, a table `memo : A → Option V`
      filled with `f (mem a)` on first use and emptied at `a` when `mem a` is
      written;
    * a direct-mapped cache: `Nat`-indexed slots, the slot for a key chosen by
      a tag function, each slot keeping the key it was filled for and its value.

    For both, coherence says that a filled entry holds what `f` gives now.  A
    memo stays coherent under any change that empties the entry of every
    address it changes (`Invalidates`, a preorder on memory/memo pairs), and
    a direct-mapped lookup returns `f k` and stays coherent, whatever the tag
    function, because it compares keys.

    Nothing here mentions a particular program.
-/

namespace Xemu.Cache

open Function

/-! ## Section 1: Per-address memo tables -/

section memo

variable {A W V : Type _} (f : W → Option V)

/-- Every entry of the memo is empty or holds `f` of the word now at its
    address. -/
def Coherent (mem : A → W) (memo : A → Option V) : Prop :=
  ∀ a, memo a = none ∨ memo a = f (mem a)

variable {f}

/-- An empty memo is coherent with any memory. -/
theorem coherent_empty (mem : A → W) : Coherent f mem (fun _ => none) :=
  fun _ => Or.inl rfl

/-- A filled entry holds `f` of the current word. -/
theorem Coherent.eq_of_some {mem : A → W} {memo : A → Option V} (h : Coherent f mem memo)
    {a : A} {v : V} (hv : memo a = some v) : f (mem a) = some v := by
  rcases h a with h0 | heq
  · rw [h0] at hv
    cases hv
  · rw [← heq, hv]

variable [DecidableEq A]

/-- Recording `f` of the word at `a` keeps the memo coherent. -/
theorem Coherent.record {mem : A → W} {memo : A → Option V} (h : Coherent f mem memo) (a : A) :
    Coherent f mem (update memo a (f (mem a))) := by
  intro b
  by_cases hb : b = a
  · subst hb
    exact Or.inr (update_self b _ memo)
  · rw [update_of_ne hb]
    exact h b

/-- Recording the entry a coherent memo already holds changes nothing. -/
theorem Coherent.record_eq {mem : A → W} {memo : A → Option V} (h : Coherent f mem memo)
    {a : A} {v : V} (hv : memo a = some v) : update memo a (f (mem a)) = memo := by
  rw [h.eq_of_some hv, ← hv, update_eq_self]

end memo

/-! ## Section 2: Changes that invalidate what they change -/

section invalidates

variable {A W V : Type _}

/-- From `(mem, memo)` to `(mem', memo')`, every address either keeps its word
    and its entry, or has an empty entry afterwards. -/
def Invalidates (mem : A → W) (memo : A → Option V) (mem' : A → W) (memo' : A → Option V) :
    Prop :=
  ∀ a, (mem' a = mem a ∧ memo' a = memo a) ∨ memo' a = none

theorem Invalidates.refl (mem : A → W) (memo : A → Option V) : Invalidates mem memo mem memo :=
  fun _ => Or.inl ⟨rfl, rfl⟩

theorem Invalidates.trans {m₁ m₂ m₃ : A → W} {c₁ c₂ c₃ : A → Option V}
    (h₁ : Invalidates m₁ c₁ m₂ c₂) (h₂ : Invalidates m₂ c₂ m₃ c₃) : Invalidates m₁ c₁ m₃ c₃ := by
  intro a
  rcases h₂ a with ⟨hm, hc⟩ | hnone
  · rcases h₁ a with ⟨hm', hc'⟩ | hnone'
    · exact Or.inl ⟨hm.trans hm', hc.trans hc'⟩
    · exact Or.inr (hc.trans hnone')
  · exact Or.inr hnone

/-- A write of one word that empties its entry invalidates what it changes. -/
theorem invalidates_write [DecidableEq A] (mem : A → W) (memo : A → Option V) (a : A) (w : W) :
    Invalidates mem memo (update mem a w) (update memo a none) := by
  intro b
  by_cases hb : b = a
  · subst hb
    exact Or.inr (update_self b _ memo)
  · exact Or.inl ⟨update_of_ne hb _ mem, update_of_ne hb _ memo⟩

/-- Emptying the whole memo invalidates any change of the memory. -/
theorem invalidates_clear (mem mem' : A → W) (memo : A → Option V) :
    Invalidates mem memo mem' (fun _ => none) :=
  fun _ => Or.inr rfl

/-- Coherence survives a change that invalidates what it changes. -/
theorem Coherent.of_invalidates {f : W → Option V} {mem mem' : A → W}
    {memo memo' : A → Option V} (h : Coherent f mem memo)
    (hinv : Invalidates mem memo mem' memo') : Coherent f mem' memo' := by
  intro a
  rcases hinv a with ⟨hm, hc⟩ | hnone
  · rw [hc, hm]
    exact h a
  · exact Or.inl hnone

end invalidates

/-! ## Section 3: Direct-mapped caches -/

section direct

variable {K V : Type _}

/-- One slot of a direct-mapped cache: the key it was last filled for and
    the value found, `none` for an empty slot. -/
structure Slot (K V : Type _) where
  key : K
  value : Option V

/-- Every slot is empty or holds `f` of its own key. -/
def SlotsCoherent (f : K → Option V) (c : Nat → Slot K V) : Prop :=
  ∀ i, (c i).value = none ∨ (c i).value = f (c i).key

/-- Slots that all hold one key and no value are coherent. -/
theorem slotsCoherent_const (f : K → Option V) (k : K) :
    SlotsCoherent f (fun _ => (⟨k, none⟩ : Slot K V)) :=
  fun _ => Or.inl rfl

variable [DecidableEq K] (f : K → Option V) (tag : K → Nat)

/-- A lookup of `k`: the slot `tag k` is refilled with `f k` unless it holds
    `k` with a value; the value is read from the slot afterwards. -/
def lookup (c : Nat → Slot K V) (k : K) : Option V × (Nat → Slot K V) :=
  let c := if (c (tag k)).key ≠ k ∨ (c (tag k)).value.isNone then
    update c (tag k) ⟨k, f k⟩ else c
  ((c (tag k)).value, c)

variable {f}

/-- On a coherent cache a lookup returns `f k`, whatever slot `k` shares, and
    leaves the cache coherent. -/
theorem lookup_spec {c : Nat → Slot K V} (h : SlotsCoherent f c) (k : K) :
    (lookup f tag c k).1 = f k ∧ SlotsCoherent f (lookup f tag c k).2 := by
  by_cases hmiss : (c (tag k)).key ≠ k ∨ (c (tag k)).value.isNone
  · -- a miss: the slot is refilled with `f k`
    have hfill : SlotsCoherent f (update c (tag k) ⟨k, f k⟩) := by
      intro i
      by_cases hi : i = tag k
      · subst hi
        exact Or.inr (by rw [update_self])
      · rw [update_of_ne hi]
        exact h i
    refine ⟨?_, ?_⟩
    · simp only [lookup, if_pos hmiss, update_self]
    · simp only [lookup, if_pos hmiss]
      exact hfill
  · -- a hit: the slot holds `k` and a value, which coherence says is `f k`
    have hkey : (c (tag k)).key = k := by
      by_contra hne
      exact hmiss (Or.inl hne)
    have hval : (c (tag k)).value ≠ none := by
      intro hnone
      exact hmiss (Or.inr (by rw [hnone]; rfl))
    have hf : (c (tag k)).value = f k := by
      rcases h (tag k) with h0 | heq
      · exact absurd h0 hval
      · rw [heq, hkey]
    simp only [lookup, if_neg hmiss]
    exact ⟨hf, h⟩

end direct

end Xemu.Cache
