import Mathlib

/-! # Rings of slots handed between a producer and a consumer

    A ring of `n` slots shared by a producer and a consumer: the producer
    hands a slot over by setting its ownership flag, the consumer hands it
    back by clearing it.  The consumer works through the ring from its
    position `k`, slot after slot, from the last slot back to the first.

    `ringFrom n k` is the order in which the consumer visits the slots from
    `k`; `ownedRun` is what it may take from there, the owned slots up to
    the first that is not owned.  `Contiguous` says that the owned slots
    are exactly that run, which holds as long as the producer hands slots
    over right after the run and the consumer takes them from its front.

    The lemmas say what the two hand-overs do to the run: clearing the flag
    of the first slot of the run and moving past it leaves the rest of the
    run (`ownedRun_take`), and setting the flag of the first slot after the
    run puts it at the end (`ownedRun_give`); both keep `Contiguous`.  A
    change of the flags off the ring changes nothing (`ownedRun_congr`).

    Nothing here mentions a particular program.
-/

namespace Xemu.Ring

open Function

/-- The slots of a ring of `n` from slot `k` on, once round. -/
def ringFrom (n k : Nat) : List Nat := (List.range n).map fun i => (k + i) % n

/-- The slots the consumer at `k` may take: the owned ones from `k` on, up
    to the first that is not owned. -/
def ownedRun (owned : Nat → Bool) (n k : Nat) : List Nat := (ringFrom n k).takeWhile owned

/-- Every owned slot is on the run from `k`. -/
def Contiguous (owned : Nat → Bool) (n k : Nat) : Prop :=
  ∀ i < n, owned i = true → i ∈ ownedRun owned n k

/-! ## The visiting order -/

section order

variable {n k : Nat}

/-- A `takeWhile` only reads its test on the list. -/
theorem takeWhile_congr_of_mem {α : Type _} {p q : α → Bool} {l : List α} (h : ∀ a ∈ l, p a = q a) :
    l.takeWhile p = l.takeWhile q := by
  induction l with
  | nil => rfl
  | cons a l ih =>
    rw [List.takeWhile_cons, List.takeWhile_cons, h a List.mem_cons_self,
      ih fun b hb => h b (List.mem_cons_of_mem _ hb)]

@[simp] theorem length_ringFrom : (ringFrom n k).length = n := by simp [ringFrom]

theorem getElem_ringFrom {i : Nat} (hi : i < (ringFrom n k).length) : (ringFrom n k)[i] = (k + i) % n := by
  simp [ringFrom]

theorem nodup_ringFrom : (ringFrom n k).Nodup := by
  refine List.Nodup.map_on (fun i hi j hj h => ?_) List.nodup_range
  rw [List.mem_range] at hi hj
  exact (Nat.ModEq.add_left_cancel' k h).eq_of_lt_of_lt hi hj

theorem lt_of_mem_ringFrom {i : Nat} (h : i ∈ ringFrom n k) : i < n := by
  obtain ⟨j, hj, rfl⟩ := List.mem_map.mp h
  exact Nat.mod_lt _ (by have := List.mem_range.mp hj; omega)

/-- The ring from `k` visits every slot: it has `n` distinct slots below
    `n`. -/
theorem mem_ringFrom {i : Nat} : i ∈ ringFrom n k ↔ i < n := by
  refine ⟨lt_of_mem_ringFrom, fun hi => ?_⟩
  have hsub : (ringFrom n k).toFinset ⊆ Finset.range n := fun j hj =>
    Finset.mem_range.mpr (lt_of_mem_ringFrom (List.mem_toFinset.mp hj))
  have hcard : (Finset.range n).card ≤ (ringFrom n k).toFinset.card := by
    rw [List.toFinset_card_of_nodup nodup_ringFrom, length_ringFrom, Finset.card_range]
  rw [← List.mem_toFinset, Finset.eq_of_subset_of_card_le hsub hcard]
  exact Finset.mem_range.mpr hi

theorem ringFrom_eq_cons (hk : k < n) : ringFrom n k = k :: (ringFrom n k).tail := by
  obtain ⟨m, rfl⟩ : ∃ m, n = m + 1 := ⟨n - 1, by omega⟩
  simp [ringFrom, List.range_succ_eq_map, Nat.mod_eq_of_lt hk]

/-- One slot on, the ring visits the same slots in the same order, with
    `k` last. -/
theorem ringFrom_succ (hk : k < n) : ringFrom n ((k + 1) % n) = (ringFrom n k).tail ++ [k] := by
  obtain ⟨m, rfl⟩ : ∃ m, n = m + 1 := ⟨n - 1, by omega⟩
  have hlast : (k + 1 + m) % (m + 1) = k := by
    rw [show k + 1 + m = k + (m + 1) by omega, Nat.add_mod_right, Nat.mod_eq_of_lt hk]
  conv_rhs => rw [ringFrom, List.range_succ_eq_map, List.map_cons, List.tail_cons, List.map_map]
  simp only [ringFrom, List.range_succ, List.map_append, List.map_singleton, Nat.mod_add_mod, hlast]
  congr 1
  apply List.map_congr_left
  intro i _
  simp only [comp_apply, Nat.succ_eq_add_one]
  congr 1
  omega

end order

/-! ## The run -/

section run

variable {owned owned' : Nat → Bool} {n k : Nat}

theorem lt_of_mem_ownedRun {i : Nat} (h : i ∈ ownedRun owned n k) : i < n :=
  lt_of_mem_ringFrom ((List.takeWhile_sublist _).subset h)

theorem owned_of_mem_ownedRun {i : Nat} (h : i ∈ ownedRun owned n k) : owned i = true :=
  List.mem_takeWhile_imp h

theorem nodup_ownedRun : (ownedRun owned n k).Nodup :=
  nodup_ringFrom.sublist (List.takeWhile_sublist _)

theorem length_ownedRun_le : (ownedRun owned n k).length ≤ n :=
  (List.takeWhile_sublist _).length_le.trans length_ringFrom.le

/-- The run only reads the flags of the ring. -/
theorem ownedRun_congr (h : ∀ i < n, owned' i = owned i) : ownedRun owned' n k = ownedRun owned n k :=
  takeWhile_congr_of_mem fun i hi => h i (lt_of_mem_ringFrom hi)

theorem Contiguous.congr (hc : Contiguous owned n k) (h : ∀ i < n, owned' i = owned i) :
    Contiguous owned' n k := by
  intro i hi hown
  rw [ownedRun_congr h]
  exact hc i hi (h i hi ▸ hown)

/-- With no slot owned the run is empty, and contiguous. -/
theorem contiguous_of_none (h : ∀ i < n, owned i = false) : Contiguous owned n k :=
  fun i hi hown => absurd hown (by simp [h i hi])

theorem ownedRun_of_not (hk : k < n) (hnot : owned k = false) : ownedRun owned n k = [] := by
  rw [ownedRun, ringFrom_eq_cons hk, List.takeWhile_cons_of_neg (by simp [hnot])]

theorem ownedRun_of_owned (hk : k < n) (hown : owned k = true) :
    ownedRun owned n k = k :: (ringFrom n k).tail.takeWhile owned := by
  rw [ownedRun, ringFrom_eq_cons hk, List.takeWhile_cons_of_pos (by simp [hown]), List.tail_cons]

/-- A run shorter than the ring is followed on the ring by the slot after
    it, which is not owned. -/
theorem ringFrom_eq_run_append (hlen : (ownedRun owned n k).length < n) :
    ∃ D, ringFrom n k = ownedRun owned n k ++ (k + (ownedRun owned n k).length) % n :: D ∧
      owned ((k + (ownedRun owned n k).length) % n) = false := by
  have hsplit := (List.takeWhile_append_dropWhile (p := owned) (l := ringFrom n k)).symm
  obtain ⟨j, D, hD⟩ : ∃ j D, (ringFrom n k).dropWhile owned = j :: D := by
    cases h : (ringFrom n k).dropWhile owned with
    | nil =>
      have := congrArg List.length hsplit
      rw [h, List.append_nil, length_ringFrom] at this
      exact absurd this (by unfold ownedRun at hlen; omega)
    | cons j D => exact ⟨j, D, rfl⟩
  rw [hD] at hsplit
  -- the slot after the run is the one at its length on the ring
  have hj : (k + (ownedRun owned n k).length) % n = j := by
    have hget := getElem_ringFrom (n := n) (k := k) (i := (ownedRun owned n k).length) (by simpa using hlen)
    rw [← hget]
    simp only [ownedRun] at hsplit ⊢
    simp [List.getElem_of_eq hsplit]
  have hnot : owned j = false := by
    have := List.head_dropWhile_not owned (l := ringFrom n k) (by simp [hD])
    simpa [hD] using this
  refine ⟨D, ?_, hj ▸ hnot⟩
  rw [hj]
  exact hsplit

/-- A run shorter than the ring stops at a slot that is not owned. -/
theorem not_owned_after_run (hlen : (ownedRun owned n k).length < n) :
    owned ((k + (ownedRun owned n k).length) % n) = false :=
  (ringFrom_eq_run_append hlen).choose_spec.2

/-- A run as long as the ring starts with its first slot. -/
theorem owned_of_length_eq (hk : k < n) (hlen : (ownedRun owned n k).length = n) : owned k = true := by
  by_contra hnot
  rw [ownedRun_of_not hk (by simpa using hnot)] at hlen
  simp at hlen
  omega

/-- Handing back the first slot of the run and moving past it leaves the
    rest of the run. -/
theorem ownedRun_take (hk : k < n) (hown : owned k = true) :
    ownedRun (update owned k false) n ((k + 1) % n) = (ownedRun owned n k).tail := by
  have hnd := nodup_ringFrom (n := n) (k := k)
  rw [ringFrom_eq_cons hk, List.nodup_cons] at hnd
  rw [ownedRun_of_owned hk hown, List.tail_cons, ownedRun, ringFrom_succ hk, List.takeWhile_append]
  -- the cleared `k` ends the run at the latest; before it the flags are the old ones
  have hsame : (ringFrom n k).tail.takeWhile (update owned k false) =
      (ringFrom n k).tail.takeWhile owned :=
    takeWhile_congr_of_mem fun i hi => update_of_ne (fun (h : i = k) => hnd.1 (h ▸ hi)) _ _
  split_ifs with hall
  · rw [List.takeWhile_cons_of_neg (by simp), List.append_nil, ← hsame]
    exact ((List.takeWhile_prefix _).eq_of_length hall).symm
  · exact hsame

theorem Contiguous.take (hc : Contiguous owned n k) (hk : k < n) (hown : owned k = true) :
    Contiguous (update owned k false) n ((k + 1) % n) := by
  intro i hi hi'
  have hik : i ≠ k := by
    rintro rfl
    simp at hi'
  rw [update_of_ne hik] at hi'
  have hmem := hc i hi hi'
  rw [ownedRun_take hk hown]
  rw [ownedRun_of_owned hk hown] at hmem ⊢
  simpa [hik] using hmem

/-- Handing over the first slot after the run, when the run is not the
    whole ring, puts that slot at the end of the run. -/
theorem ownedRun_give (hc : Contiguous owned n k) (hlen : (ownedRun owned n k).length < n) :
    ownedRun (update owned ((k + (ownedRun owned n k).length) % n) true) n k =
      ownedRun owned n k ++ [(k + (ownedRun owned n k).length) % n] := by
  -- the ring from `k` is the run, then the slot after it, then slots none of which is owned
  obtain ⟨D, hsplit, -⟩ := ringFrom_eq_run_append hlen
  generalize (k + (ownedRun owned n k).length) % n = j at hsplit ⊢
  have hnd : (ownedRun owned n k ++ j :: D).Nodup := hsplit ▸ nodup_ringFrom
  have hjR : j ∉ ownedRun owned n k := fun h => (List.nodup_append.mp hnd).2.2 j h j List.mem_cons_self rfl
  have hDnot : ∀ i ∈ D, owned i = false := by
    intro i hi
    by_contra hown
    have hiR := hc i (lt_of_mem_ringFrom (by rw [hsplit]; simp [hi]))
      (by simpa using hown)
    exact (List.nodup_append.mp hnd).2.2 i hiR i (List.mem_cons_of_mem _ hi) rfl
  conv_lhs => rw [ownedRun, hsplit]
  rw [List.takeWhile_append_of_pos, List.takeWhile_cons_of_pos (by simp)]
  · congr 1
    cases D with
    | nil => rfl
    | cons i D =>
      have hij : i ≠ j := fun h => (List.nodup_cons.mp (List.nodup_append.mp hnd).2.1).1 (h ▸ List.mem_cons_self)
      rw [List.takeWhile_cons_of_neg (by simp [update_of_ne hij, hDnot i List.mem_cons_self])]
  · intro i hi
    rw [update_of_ne (fun (h : i = j) => hjR (h ▸ hi))]
    exact owned_of_mem_ownedRun hi

theorem Contiguous.give (hc : Contiguous owned n k) (hlen : (ownedRun owned n k).length < n) :
    Contiguous (update owned ((k + (ownedRun owned n k).length) % n) true) n k := by
  intro i hi hown
  rw [ownedRun_give hc hlen]
  by_cases hij : i = (k + (ownedRun owned n k).length) % n
  · simp [hij]
  · rw [update_of_ne hij] at hown
    exact List.mem_append_left _ (hc i hi hown)

end run

end Xemu.Ring
