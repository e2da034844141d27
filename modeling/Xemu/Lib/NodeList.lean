import Mathlib

/-! # Lists of distinct nodes

    Intrusive lists, read as lists of distinct nodes: a search from the
    tail is a `find?` on the reversed list, and a per-node flag counted
    over the list changes by one when one node's flag flips.

    Nothing here mentions a particular program.
-/

namespace Xemu.NodeList

open Function

variable {α : Type _}

/-- A search from the tail stops at the last node satisfying `p`: every
    node after it fails `p`. -/
theorem find?_reverse_eq_some {l : List α} {p : α → Bool} {b : α} :
    l.reverse.find? p = some b ↔ p b ∧ ∃ as bs, l = as ++ b :: bs ∧ ∀ x ∈ bs, p x = false := by
  rw [List.find?_eq_some_iff_append]
  refine and_congr_right fun _ => ⟨?_, ?_⟩
  · rintro ⟨as, bs, hl, hbs⟩
    refine ⟨bs.reverse, as.reverse, ?_, fun x hx => by simpa using hbs x (List.mem_reverse.mp hx)⟩
    rw [← List.reverse_reverse l, hl]
    simp
  · rintro ⟨as, bs, rfl, hbs⟩
    exact ⟨bs.reverse, as.reverse, by simp, fun x hx => by simpa using hbs x (List.mem_reverse.mp hx)⟩

theorem find?_reverse_eq_none {l : List α} {p : α → Bool} :
    l.reverse.find? p = none ↔ ∀ x ∈ l, p x = false := by
  simp [List.find?_eq_none]

variable [DecidableEq α]

/-- Flipping the flag of one node of a duplicate-free list changes the
    count of flagged nodes by the difference of the two flags. -/
theorem countP_update {l : List α} (hl : l.Nodup) {a : α} (ha : a ∈ l) (f : α → Bool) (v : Bool) :
    l.countP (update f a v) + (if f a then 1 else 0) = l.countP f + (if v then 1 else 0) := by
  -- `a` once, then the other nodes, on which the two flags agree
  have hp := List.perm_cons_erase ha
  have hnot : a ∉ l.erase a := hl.not_mem_erase
  have hrest : (l.erase a).countP (update f a v) = (l.erase a).countP f :=
    List.countP_congr fun x hx => by
      have hxa : x ≠ a := by
        rintro rfl
        exact hnot hx
      rw [update_of_ne hxa]
  rw [hp.countP_eq, hp.countP_eq (p := f), List.countP_cons, List.countP_cons, hrest, update_self]
  cases f a <;> cases v <;> simp

/-- The negated flag of an updated node. -/
theorem not_update (f : α → Bool) (a : α) (v : Bool) :
    (fun x => !update f a v x) = update (fun x => !f x) a (!v) := by
  funext x
  by_cases hx : x = a
  · subst hx
    simp
  · simp [update_of_ne hx]

/-- Outside the node it updates, a flag set on a node moved to the head
    filters the rest of the list as before. -/
theorem filter_cons_erase_update {l : List α} (hl : l.Nodup) {a : α} {f f' : α → Bool}
    (hf : ∀ x, x ≠ a → f' x = f x) :
    (a :: l.erase a).filter (update f' a true) = a :: (l.erase a).filter f := by
  have hnot : a ∉ l.erase a := hl.not_mem_erase
  rw [List.filter_cons, if_pos (by rw [update_self])]
  congr 1
  refine List.filter_congr fun x hx => ?_
  have hxa : x ≠ a := by
    rintro rfl
    exact hnot hx
  rw [update_of_ne hxa, hf x hxa]

/-! ## Recency

    A history `h` lists nodes most recent first; a list `l` is in recency
    order when its nodes occur in `h` and each comes before the nodes whose
    latest occurrence in `h` is older. -/

/-- Every node of `l` occurs in the history `h`, and `l` lists them from
    the most recent to the least recent. -/
def RecencyOrdered (h l : List α) : Prop :=
  (∀ a ∈ l, a ∈ h) ∧ l.Pairwise fun a b => h.idxOf a < h.idxOf b

theorem RecencyOrdered.nil (h : List α) : RecencyOrdered h [] :=
  ⟨fun _ ha => absurd ha List.not_mem_nil, List.Pairwise.nil⟩

theorem RecencyOrdered.sublist {h l l' : List α} (hr : RecencyOrdered h l) (hs : l'.Sublist l) :
    RecencyOrdered h l' :=
  ⟨fun a ha => hr.1 a (hs.subset ha), hr.2.sublist hs⟩

/-- The node just used goes to the front of the history and of the list. -/
theorem RecencyOrdered.cons {h l : List α} (hr : RecencyOrdered h l) {a : α} (ha : a ∉ l) :
    RecencyOrdered (a :: h) (a :: l) := by
  -- in `a :: h` the node `a` has index 0 and every other node moves up by one
  have hidx : ∀ b ∈ l, (a :: h).idxOf b = h.idxOf b + 1 := fun b hb =>
    List.idxOf_cons_ne h (by rintro rfl; exact ha hb)
  refine ⟨fun b hb => ?_, List.pairwise_cons.mpr ⟨fun b hb => ?_, ?_⟩⟩
  · rcases List.mem_cons.mp hb with rfl | hb
    · exact List.mem_cons_self ..
    · exact List.mem_cons_of_mem _ (hr.1 b hb)
  · rw [List.idxOf_cons_self, hidx b hb]
    omega
  · refine hr.2.imp_of_mem fun {b c} hb hc hbc => ?_
    rw [hidx b hb, hidx c hc]
    omega

/-- Of a list in recency order, a node before `b` is more recent than `b`. -/
theorem RecencyOrdered.lt_of_mem_left {h as bs : List α} {b : α}
    (hr : RecencyOrdered h (as ++ b :: bs)) {a : α} (ha : a ∈ as) : h.idxOf a < h.idxOf b :=
  (List.pairwise_append.mp hr.2).2.2 a ha b (List.mem_cons_self ..)

end Xemu.NodeList
