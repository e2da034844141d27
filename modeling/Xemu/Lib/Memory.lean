import Mathlib

/-! # Flat memories and block copies

    A memory is a function from addresses to contents.  `copy` is
    `memcpy(dst + d, src + s, n)`; `copyAll` runs a list of such copies of
    one size from one source, in order.  The two facts every copy loop
    needs are proved once here:

    - a frame rule (`copyAll_outside`): an address no copy writes keeps
      its contents;
    - a last-writer rule (`copyAll_at`): if every other copy of the list
      either is the same copy or writes a disjoint range, a copy's range
      ends up holding its source bytes.

    `storeAll` runs a list of single stores; when no address is stored
    twice, each stored address holds its value (`storeAll_of_mem`).

    Nothing here mentions a particular program.
-/

namespace Xemu.Memory

/-- `memcpy(dst + d, src + s, n)` on flat memories. -/
def copy {α : Type _} (dst : Nat → α) (d : Nat) (src : Nat → α) (s n : Nat) : Nat → α :=
  fun a => if d ≤ a ∧ a < d + n then src (s + (a - d)) else dst a

/-- Copies of `n` elements from `src`, one per `(destination, source)` offset
    pair, in list order. -/
def copyAll {α : Type _} (dst : Nat → α) (src : Nat → α) (n : Nat) (ops : List (Nat × Nat)) :
    Nat → α :=
  ops.foldl (fun m op => copy m op.1 src op.2 n) dst

/-- Two copies of `n` elements write disjoint ranges. -/
def RangesDisjoint (n : Nat) (op op' : Nat × Nat) : Prop := op.1 + n ≤ op'.1 ∨ op'.1 + n ≤ op.1

section rules

variable {α : Type _} {dst src : Nat → α} {n : Nat}

theorem copy_inside {d s a : Nat} (h1 : d ≤ a) (h2 : a < d + n) :
    copy dst d src s n a = src (s + (a - d)) := by
  simp [copy, h1, h2]

theorem copy_outside {d s a : Nat} (h : ¬ (d ≤ a ∧ a < d + n)) : copy dst d src s n a = dst a := by
  simp only [copy, if_neg h]

@[simp] theorem copyAll_nil : copyAll dst src n [] = dst := rfl

theorem copyAll_cons (op : Nat × Nat) (ops : List (Nat × Nat)) :
    copyAll dst src n (op :: ops) = copyAll (copy dst op.1 src op.2 n) src n ops := rfl

theorem copyAll_append (ops ops' : List (Nat × Nat)) :
    copyAll dst src n (ops ++ ops') = copyAll (copyAll dst src n ops) src n ops' := by
  simp [copyAll, List.foldl_append]

/-- A fold of single copies, one per element of a list, is `copyAll` of
    their offsets. -/
theorem foldl_copy_eq_copyAll {β : Type _} (l : List β) (op : β → Nat × Nat) :
    l.foldl (fun m b => copy m (op b).1 src (op b).2 n) dst = copyAll dst src n (l.map op) := by
  rw [copyAll, List.foldl_map]

/-- A fold of `copyAll` runs, one per element of a list, is `copyAll` of
    the concatenated runs. -/
theorem foldl_copyAll_eq {β : Type _} (l : List β) (ops : β → List (Nat × Nat)) :
    l.foldl (fun m b => copyAll m src n (ops b)) dst = copyAll dst src n (l.flatMap ops) := by
  induction l generalizing dst with
  | nil => rfl
  | cons b l ih => rw [List.foldl_cons, ih, List.flatMap_cons, copyAll_append]

/-- Frame rule: an address outside every written range is unchanged. -/
theorem copyAll_outside (ops : List (Nat × Nat)) (a : Nat)
    (h : ∀ op ∈ ops, ¬ (op.1 ≤ a ∧ a < op.1 + n)) : copyAll dst src n ops a = dst a := by
  induction ops generalizing dst with
  | nil => rfl
  | cons op ops ih =>
    rw [copyAll_cons, ih (fun op' hop' => h op' (List.mem_cons_of_mem _ hop'))]
    exact copy_outside (h op List.mem_cons_self)

/-- Last-writer rule: when every copy of the list is `op` itself or writes
    a range disjoint from `op`'s, the range of `op` ends up holding its
    source elements.  The induction carries "`op` is still to come, or its
    element is already in place". -/
theorem copyAll_at (ops : List (Nat × Nat)) (op : Nat × Nat) (i : Nat) (hi : i < n)
    (hops : ∀ op' ∈ ops, op' = op ∨ RangesDisjoint n op op')
    (hpending : op ∈ ops ∨ dst (op.1 + i) = src (op.2 + i)) :
    copyAll dst src n ops (op.1 + i) = src (op.2 + i) := by
  induction ops generalizing dst with
  | nil =>
    rcases hpending with h | h
    · cases h
    · exact h
  | cons o ops ih =>
    rw [copyAll_cons]
    apply ih (fun op' hop' => hops op' (List.mem_cons_of_mem _ hop'))
    rcases hops o List.mem_cons_self with rfl | hdis
    · -- `o` is `op`: its range now holds the source elements
      right
      rw [copy_inside (by omega) (by omega)]
      congr 1
      omega
    · -- `o` misses `op`'s range, which keeps its contents
      rcases hpending with h | h
      · rcases List.mem_cons.mp h with rfl | h
        · exfalso; unfold RangesDisjoint at hdis; omega
        · exact Or.inl h
      · right
        rw [copy_outside (by unfold RangesDisjoint at hdis; omega)]
        exact h

end rules

/-! ## Single stores -/

/-- The stores `*(base + a) = v` of a list, in order. -/
def storeAll {ι α : Type _} [DecidableEq ι] (m : ι → α) (stores : List (ι × α)) : ι → α :=
  stores.foldl (fun m st => Function.update m st.1 st.2) m

section stores

variable {ι α : Type _} [DecidableEq ι]

/-- An address no store names keeps its contents. -/
theorem storeAll_of_not_mem (m : ι → α) (stores : List (ι × α)) {a : ι}
    (h : a ∉ stores.map Prod.fst) : storeAll m stores a = m a := by
  induction stores generalizing m with
  | nil => rfl
  | cons st stores ih =>
    simp only [List.map_cons, List.mem_cons, not_or] at h
    rw [storeAll, List.foldl_cons, ← storeAll, ih _ h.2, Function.update_of_ne h.1]

/-- With every address stored at most once, a stored address holds its
    value. -/
theorem storeAll_of_mem (m : ι → α) (stores : List (ι × α)) {a : ι} {v : α}
    (hnd : (stores.map Prod.fst).Nodup) (h : (a, v) ∈ stores) : storeAll m stores a = v := by
  induction stores generalizing m with
  | nil => cases h
  | cons st stores ih =>
    rw [List.map_cons, List.nodup_cons] at hnd
    rw [storeAll, List.foldl_cons, ← storeAll]
    rcases List.mem_cons.mp h with rfl | h
    · -- the first store is the only one to `a`
      rw [storeAll_of_not_mem _ _ hnd.1, Function.update_self]
    · exact ih _ hnd.2 h

end stores

/-- The lists `f a` of a duplicate-free `l` concatenate without
    duplicates when each is duplicate-free and every element of `f a`
    carries the key `a`. -/
theorem nodup_flatMap_of_key {α β : Type _} {l : List α} {f : α → List β} (key : β → α)
    (hl : l.Nodup) (hf : ∀ a ∈ l, (f a).Nodup) (hkey : ∀ a ∈ l, ∀ b ∈ f a, key b = a) :
    (l.flatMap f).Nodup := by
  refine List.nodup_flatMap.mpr ⟨hf, hl.imp_of_mem fun {a a'} ha ha' hne => ?_⟩
  rw [Function.onFun, List.disjoint_left]
  intro b hb hb'
  exact hne ((hkey a ha b hb).symm.trans (hkey a' ha' b hb'))

/-! ## Lists of contents -/

/-- The `n` contents from address `a`, in order. -/
def load {α : Type _} (m : Nat → α) (a n : Nat) : List α := (List.range n).map fun i => m (a + i)

/-- `memcpy(m + a, xs, |xs|)` of a list. -/
def storeList {α : Type _} [Inhabited α] (m : Nat → α) (a : Nat) (xs : List α) : Nat → α :=
  copy m a (fun i => xs.getD i default) 0 xs.length

section lists

variable {α : Type _}

@[simp] theorem length_load (m : Nat → α) (a n : Nat) : (load m a n).length = n := by simp [load]

theorem load_storeList_self [Inhabited α] (m : Nat → α) (a : Nat) (xs : List α) :
    load (storeList m a xs) a xs.length = xs := by
  apply List.ext_getElem (by simp)
  intro i h₁ h₂
  simp [load, storeList, copy_inside, h₂]

theorem load_storeList_eq [Inhabited α] (m : Nat → α) (a : Nat) {xs : List α} {n : Nat}
    (h : xs.length = n) : load (storeList m a xs) a n = xs := by
  subst h
  exact load_storeList_self m a xs

/-- A range the store misses keeps its contents. -/
theorem load_storeList_of_disjoint [Inhabited α] (m : Nat → α) {a b n : Nat} (xs : List α)
    (h : b + n ≤ a ∨ a + xs.length ≤ b) : load (storeList m a xs) b n = load m b n := by
  apply List.map_congr_left
  intro i hi
  rw [List.mem_range] at hi
  exact copy_outside (by omega)

theorem load_add (m : Nat → α) (a n k : Nat) : load m a (n + k) = load m a n ++ load m (a + n) k := by
  simp only [load, List.range_add, List.map_append, List.map_map]
  congr 1
  apply List.map_congr_left
  intro i _
  simp [Nat.add_assoc]

theorem take_load (m : Nat → α) (a : Nat) {n k : Nat} (h : k ≤ n) : (load m a n).take k = load m a k := by
  obtain ⟨j, rfl⟩ := Nat.exists_eq_add_of_le h
  rw [load_add, List.take_left' (length_load m a k)]

theorem drop_load (m : Nat → α) (a : Nat) {n k : Nat} (h : k ≤ n) :
    (load m a n).drop k = load m (a + k) (n - k) := by
  obtain ⟨j, rfl⟩ := Nat.exists_eq_add_of_le h
  rw [load_add, List.drop_left' (length_load m a k), Nat.add_sub_cancel_left]

/-- A copy to the end of a prefix appends the copied contents to it. -/
theorem load_copy_append (dst src : Nat → α) (d s n : Nat) :
    load (copy dst d src s n) 0 (d + n) = load dst 0 d ++ load src s n := by
  rw [load_add]
  congr 1
  · apply List.map_congr_left
    intro i hi
    rw [List.mem_range] at hi
    exact copy_outside (by omega)
  · apply List.map_congr_left
    intro i hi
    rw [List.mem_range] at hi
    rw [copy_inside (by omega) (by omega)]
    congr 1
    omega

/-- A loop of single stores whose addresses all miss `a` keeps `a`'s
    contents, whatever values it stores. -/
theorem foldl_update_of_forall_ne {β : Type _} (l : List β) (addr : β → Nat) (val : (Nat → α) → β → α)
    (m : Nat → α) {a : Nat} (h : ∀ b ∈ l, addr b ≠ a) :
    l.foldl (fun m b => Function.update m (addr b) (val m b)) m a = m a := by
  induction l generalizing m with
  | nil => rfl
  | cons b l ih =>
    rw [List.foldl_cons, ih _ (fun b' hb' => h b' (List.mem_cons_of_mem _ hb')),
      Function.update_of_ne (h b List.mem_cons_self).symm]

end lists

/-! ## Little-endian numbers

    A number kept in memory as bytes, least significant first, as the
    `cpu_to_le*` and `le*_to_cpu` conversions lay it out. -/

/-- The `n` low bytes of `x`, least significant first. -/
def leBytes : Nat → Nat → List UInt8
  | 0, _ => []
  | n + 1, x => UInt8.ofNat x :: leBytes n (x / 256)

/-- The number whose bytes, least significant first, are `bs`. -/
def ofLeBytes (bs : List UInt8) : Nat := Nat.ofDigits 256 (bs.map UInt8.toNat)

@[simp] theorem length_leBytes (n x : Nat) : (leBytes n x).length = n := by
  induction n generalizing x with
  | zero => rfl
  | succ n ih => simp [leBytes, ih]

/-- Reading the bytes back gives the number, cut to `n` bytes. -/
theorem ofLeBytes_leBytes (n x : Nat) : ofLeBytes (leBytes n x) = x % 256 ^ n := by
  induction n generalizing x with
  | zero => simp [leBytes, ofLeBytes, Nat.mod_one]
  | succ n ih =>
    have hx := ih (x / 256)
    rw [ofLeBytes] at hx
    have hmod : x % 256 ^ (n + 1) = x % 256 + 256 * (x / 256 % 256 ^ n) := by
      rw [pow_succ', Nat.mod_mul]
    rw [leBytes, ofLeBytes, List.map_cons, Nat.ofDigits_cons, hx, UInt8.toNat_ofNat', hmod]

theorem ofLeBytes_append (bs bs' : List UInt8) :
    ofLeBytes (bs ++ bs') = ofLeBytes bs + 256 ^ bs.length * ofLeBytes bs' := by
  simp [ofLeBytes, Nat.ofDigits_append]

theorem ofLeBytes_lt (bs : List UInt8) : ofLeBytes bs < 256 ^ bs.length := by
  have h := Nat.ofDigits_lt_base_pow_length (b := 256) (l := bs.map UInt8.toNat) (by norm_num)
    (fun d hd => by
      obtain ⟨b, -, rfl⟩ := List.mem_map.mp hd
      exact b.toNat_lt)
  simpa [ofLeBytes] using h

end Xemu.Memory
