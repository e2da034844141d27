import Mathlib

/-! # Lists linked through a successor map

    A list kept in memory as nodes with a `next` field: from its head,
    following `next` visits the nodes in order until a sentinel `nil`.
    `Seg next nil a l b` says that the walk from `a` visits the nodes of
    `l`, none of them `nil`, and then stands at `b`; `Links` is a whole
    list, one that ends at `nil`.  `walk` is the bounded loop that reads a
    list back.

    The lemmas say what a write to `next` does to a list: nothing when it
    changes no node of the list (`Seg.congr`), a new head when it links a
    node in front (`Links.cons`), and one node more after `b` when it links
    a node in behind `b` (`Links.insertAfter`).  A list read this way has
    no node twice (`Links.nodup`), so a bounded walk of at least its length
    reads exactly it (`walk_of_links`).

    Nothing here mentions a particular program.
-/

namespace Xemu.LinkList

variable {α : Type _}

section defs

variable (next : α → α) (nil : α)

/-- The walk from `a` visits the nodes of `l`, none of them `nil`, and then
    stands at `b`. -/
def Seg : α → List α → α → Prop
  | a, [], b => a = b
  | a, c :: l, b => a = c ∧ a ≠ nil ∧ Seg (next a) l b

/-- The list with head `a` is `l`: the walk from `a` visits `l` and ends at
    `nil`. -/
def Links (a : α) (l : List α) : Prop := Seg next nil a l nil

/-- Follow `next` from `a` for at most `n` nodes, up to `nil`. -/
def walk [DecidableEq α] : Nat → α → List α
  | 0, _ => []
  | n + 1, a => if a = nil then [] else a :: walk n (next a)

end defs

/-- `l` with `h` placed right after the first `b`, or `l` itself when `b`
    is not in it. -/
def insertAfter [DecidableEq α] (b h : α) : List α → List α
  | [] => []
  | x :: l => if x = b then x :: h :: l else x :: insertAfter b h l

variable {next next' : α → α} {nil : α}

@[simp] theorem seg_nil {a b : α} : Seg next nil a [] b ↔ a = b := Iff.rfl

@[simp] theorem seg_cons {a b c : α} {l : List α} :
    Seg next nil a (c :: l) b ↔ a = c ∧ a ≠ nil ∧ Seg next nil (next a) l b := Iff.rfl

/-- A walk splits where its list does. -/
theorem seg_append {a b : α} {p q : List α} :
    Seg next nil a (p ++ q) b ↔ ∃ m, Seg next nil a p m ∧ Seg next nil m q b := by
  induction p generalizing a with
  | nil => simp
  | cons c p ih =>
    simp only [List.cons_append, seg_cons, ih]
    constructor
    · rintro ⟨rfl, hnil, m, hp, hq⟩
      exact ⟨m, ⟨rfl, hnil, hp⟩, hq⟩
    · rintro ⟨m, ⟨rfl, hnil, hp⟩, hq⟩
      exact ⟨rfl, hnil, m, hp, hq⟩

/-- A walk only reads `next` at the nodes it visits: any map that agrees
    there gives the same walk. -/
theorem Seg.congr {a b : α} {l : List α} (h : Seg next nil a l b)
    (hagree : ∀ x ∈ l, next' x = next x) : Seg next' nil a l b := by
  induction l generalizing a with
  | nil => exact h
  | cons c l ih =>
    obtain ⟨rfl, hnil, hl⟩ := h
    refine ⟨rfl, hnil, ?_⟩
    rw [hagree a List.mem_cons_self]
    exact ih hl fun x hx => hagree x (List.mem_cons_of_mem _ hx)

theorem Seg.not_mem_nil {a b : α} {l : List α} (h : Seg next nil a l b) : nil ∉ l := by
  induction l generalizing a with
  | nil => exact List.not_mem_nil
  | cons c l ih =>
    obtain ⟨rfl, hnil, hl⟩ := h
    simpa [List.mem_cons, Ne.symm hnil] using ih hl

/-- The walk from a node is determined by the node. -/
theorem Links.unique {a : α} {l l' : List α} (h : Links next nil a l) (h' : Links next nil a l') :
    l = l' := by
  induction l generalizing a l' with
  | nil =>
    cases l' with
    | nil => rfl
    | cons c l' => exact absurd h (h'.2.1)
  | cons c l ih =>
    cases l' with
    | nil => exact absurd h' h.2.1
    | cons c' l' =>
      obtain ⟨rfl, -, hl⟩ := h
      obtain ⟨rfl, -, hl'⟩ := h'
      rw [ih hl hl']

/-- A list that ends at `nil` has no node twice: from a repeated node the
    walk would go round for ever. -/
theorem Links.nodup {a : α} {l : List α} (h : Links next nil a l) : l.Nodup := by
  induction l generalizing a with
  | nil => exact List.nodup_nil
  | cons c l ih =>
    obtain ⟨rfl, hnil, hl⟩ := h
    refine List.nodup_cons.mpr ⟨fun hmem => ?_, ih hl⟩
    -- the walk from `a` again after `p`: its list is both `l` and the shorter `s`
    obtain ⟨p, s, rfl⟩ := List.append_of_mem hmem
    obtain ⟨m, hp, hs⟩ := seg_append.mp hl
    obtain ⟨rfl, -, hs'⟩ := hs
    have hsame : s = p ++ m :: s := Links.unique hs' hl
    have hlen := congrArg List.length hsame
    simp at hlen
    omega

/-- Linking `h` in front of the list with head `a` makes `h` the head of
    `h :: l`. -/
theorem Links.cons {a h : α} {l : List α} (hl : Links next nil a l) (hh : h ≠ nil)
    (hlink : next' h = a) (hagree : ∀ x ∈ l, next' x = next x) :
    Links next' nil h (h :: l) :=
  ⟨rfl, hh, hlink ▸ hl.congr hagree⟩

/-- The head of a list is `nil`, for the empty list, or its first node. -/
theorem Links.head_eq {a : α} {l : List α} (h : Links next nil a l) : a = nil ∨ a ∈ l := by
  cases l with
  | nil => exact .inl h
  | cons c l => exact .inr (h.1 ▸ List.mem_cons_self)

/-! ## Families of lists

    Several lists kept side by side, such as lists that must share no
    node: their concatenation has no node twice. -/

section family

variable {ι : Type _} {ks : List ι} {f : ι → List α}

/-- In a family whose concatenation has no node twice, a node is on one
    list only. -/
theorem eq_of_mem_of_nodup_flatMap (hnd : (ks.flatMap f).Nodup) {j k : ι} (hj : j ∈ ks)
    (hk : k ∈ ks) {x : α} (hxj : x ∈ f j) (hxk : x ∈ f k) : j = k := by
  by_contra hne
  -- the lists of distinct indices are disjoint, and disjointness is symmetric
  have : Std.Symm (Function.onFun List.Disjoint f) := ⟨fun _ _ h => h.symm⟩
  exact (List.nodup_flatMap.mp hnd).2.forall hj hk hne hxj hxk

variable [DecidableEq ι]

/-- Growing one list of the family by a node grows the concatenation by
    it. -/
theorem flatMap_update_perm (hks : ks.Nodup) {k : ι} (hk : k ∈ ks) {h : α} {l : List α}
    (hl : l.Perm (h :: f k)) : (ks.flatMap (Function.update f k l)).Perm (h :: ks.flatMap f) := by
  induction ks with
  | nil => exact absurd hk List.not_mem_nil
  | cons j ks ih =>
    obtain ⟨hjks, hnd⟩ := List.nodup_cons.mp hks
    simp only [List.flatMap_cons]
    by_cases hj : j = k
    · subst hj
      -- the other lists are untouched
      have hrest : ks.flatMap (Function.update f j l) = ks.flatMap f :=
        List.flatMap_congr fun i hi => Function.update_of_ne (by rintro rfl; exact hjks hi) _ _
      rw [Function.update_self, hrest]
      exact hl.append_right _
    · have hkks : k ∈ ks := (List.mem_cons.mp hk).resolve_left (Ne.symm hj)
      rw [Function.update_of_ne hj]
      exact ((ih hnd hkks).append_left (f j)).trans List.perm_middle

end family

variable [DecidableEq α]

/-- A bounded walk of at least the list's length reads the list. -/
theorem walk_of_links {a : α} {l : List α} (h : Links next nil a l) {n : Nat} (hn : l.length ≤ n) :
    walk next nil n a = l := by
  induction l generalizing a n with
  | nil =>
    cases n with
    | zero => rfl
    | succ n => simp [walk, show a = nil from h]
  | cons c l ih =>
    obtain ⟨rfl, hnil, hl⟩ := h
    obtain ⟨n, rfl⟩ : ∃ m, n = m + 1 := ⟨n - 1, by simp at hn; omega⟩
    simp only [walk, if_neg hnil, ih hl (by simpa using hn)]

@[simp] theorem insertAfter_nil (b h : α) : insertAfter b h [] = [] := rfl

theorem insertAfter_of_not_mem {b h : α} {l : List α} (hb : b ∉ l) : insertAfter b h l = l := by
  induction l with
  | nil => rfl
  | cons x l ih =>
    have hx : x ≠ b := fun hx => hb (hx ▸ List.mem_cons_self)
    simp only [insertAfter, if_neg hx, ih (fun hm => hb (List.mem_cons_of_mem _ hm))]

theorem insertAfter_append_cons {b h : α} {p s : List α} (hb : b ∉ p) :
    insertAfter b h (p ++ b :: s) = p ++ b :: h :: s := by
  induction p with
  | nil => simp [insertAfter]
  | cons x p ih =>
    have hx : x ≠ b := fun hx => hb (hx ▸ List.mem_cons_self)
    simp only [List.cons_append, insertAfter, if_neg hx, ih (fun hm => hb (List.mem_cons_of_mem _ hm))]

/-- Inserting after a node of the list adds `h` and keeps the other nodes. -/
theorem insertAfter_perm {b h : α} {l : List α} (hb : b ∈ l) : (insertAfter b h l).Perm (h :: l) := by
  induction l with
  | nil => exact absurd hb List.not_mem_nil
  | cons x l ih =>
    by_cases hx : x = b
    · rw [insertAfter, if_pos hx]
      exact List.Perm.swap h x l
    · have hbl : b ∈ l := (List.mem_cons.mp hb).resolve_left (Ne.symm hx)
      rw [insertAfter, if_neg hx]
      exact ((ih hbl).cons x).trans (List.Perm.swap h x l)

/-- Linking `h` in behind `b`, a node of the list: `h` takes over `b`'s
    successor and becomes `b`'s. -/
theorem Links.insertAfter {a b h : α} {l : List α} (hl : Links next nil a l) (hb : b ∈ l)
    (hh : h ≠ nil) (hlink : next' b = h) (hnext : next' h = next b)
    (hagree : ∀ x ∈ l, x ≠ b → next' x = next x) :
    Links next' nil a (insertAfter b h l) := by
  have hnd := hl.nodup
  obtain ⟨p, s, rfl⟩ := List.append_of_mem hb
  have hbp : b ∉ p := fun hm => List.disjoint_of_nodup_append hnd hm List.mem_cons_self
  have hbs : b ∉ s := (List.nodup_cons.mp (List.nodup_append.mp hnd).2.1).1
  -- the walk reaches `b` after `p`, then goes on through `s`
  obtain ⟨m, hp, hm, hbnil, hs⟩ := seg_append.mp hl
  subst hm
  have hhead : Seg next' nil a p m :=
    hp.congr fun x hx => hagree x (by simp [hx]) (by rintro rfl; exact hbp hx)
  have htail : Seg next' nil (next' h) s nil := by
    rw [hnext]
    exact hs.congr fun x hx => hagree x (by simp [hx]) (by rintro rfl; exact hbs hx)
  rw [insertAfter_append_cons hbp]
  refine seg_append.mpr ⟨m, hhead, rfl, hbnil, ?_⟩
  rw [hlink]
  exact ⟨rfl, hh, htail⟩

end Xemu.LinkList
