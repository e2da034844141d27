import Mathlib
import Xemu.Lib.Loop
import Xemu.Lib.NodeList

/-! # The LRU object list of `qemu/lru.h`

    Model of `include/qemu/lru.h`, the cache behind the texture, surface,
    shader and vertex caches of both renderers.  The two intrusive tail
    queues of each node are read as lists of nodes, head first: `global`
    (`next_global`) and the 65536 `bins` (`next_bin`).  `inUse` is the
    `next_bin.tqe_circ.tql_prev != NULL` that `QTAILQ_IN_USE` tests: it is
    cleared by `lru_add_free` and `QTAILQ_REMOVE` and set by
    `QTAILQ_INSERT_HEAD`, independently of the lists, which is what makes
    "in use iff linked in a bin" something to prove.  Nodes are of any type
    `N` with equality (their addresses); their contents are of a type `C`,
    which `init_node` writes and `compare_nodes` reads.  `pre_node_evict`
    answers arbitrarily, so each call that may evict takes its answers as a
    function; `post_node_evict` only reclaims resources outside the lists.

    The results:
    * `LruInv` (each list duplicate-free; a node is in a bin only if it is
      on the global list, and only in the bin of its hash; a node of the
      global list is in use iff it is in that bin; the two counters count
      the nodes in use and the free ones) holds after `lru_init` and is kept
      by every operation (`lruStep_inv`, `lruRun_inv`);
    * `lru_lookup` returns a matching node in use without calling any other
      callback; otherwise the free node nearest the tail, otherwise the
      in-use node nearest the tail that `pre_node_evict` lets go, freshly
      initialised; otherwise it aborts.  The node it returns is in use and
      at the head of the global list, which is thus ordered by lookups.
-/

namespace Xemu.Qemu

open Function Xemu.Loop Xemu.NodeList

/-! ## Section 1: The state and the operations -/

/-- `LRU_NUM_BINS` -/
abbrev lruNumBins : Nat := 1 <<< 16

/-- The callbacks `init_node` and `compare_nodes`, on node contents `C` and
    keys `K`; `compare_nodes` answers `true` when the node differs. -/
structure LruCallbacks (C K : Type _) where
  initNode : C → K → C
  compareNodes : C → K → Bool

/-- `struct Lru` with the fields of the nodes it links. -/
structure Lru (N C : Type _) where
  global : List N
  bins : Nat → List N
  inUse : N → Bool
  hash : N → UInt64
  content : N → C
  numUsed : Int
  numFree : Int

variable {N C K : Type _} [DecidableEq N]

/-- `lru_init`: empty lists and counters; the nodes keep whatever their
    fields hold. -/
def lruInit (inUse : N → Bool) (hash : N → UInt64) (content : N → C) : Lru N C where
  global := []
  bins := fun _ => []
  inUse := inUse
  hash := hash
  content := content
  numUsed := 0
  numFree := 0

/-- `lru_hash_to_bin` -/
def lruHashToBin (hash : UInt64) : Nat := (hash % UInt64.ofNat lruNumBins).toNat

/-- `lru_get_node_bin` -/
def lruGetNodeBin (lru : Lru N C) (node : N) : Nat := lruHashToBin (lru.hash node)

/-- `lru_is_node_in_use` -/
def lruIsNodeInUse (lru : Lru N C) (node : N) : Bool := lru.inUse node

/-- `lru_add_free` -/
def lruAddFree (lru : Lru N C) (node : N) : Lru N C :=
  { lru with inUse := update lru.inUse node false, global := lru.global ++ [node],
             numFree := lru.numFree + 1 }

/-- `lru_evict_node`: a node in use leaves its bin. -/
def lruEvictNode (lru : Lru N C) (node : N) : Lru N C :=
  if !lruIsNodeInUse lru node then lru
  else
    let bin := lruGetNodeBin lru node
    { lru with bins := update lru.bins bin ((lru.bins bin).erase node),
               inUse := update lru.inUse node false,
               numUsed := lru.numUsed - 1, numFree := lru.numFree + 1 }

@[simp] theorem lruEvictNode_global (lru : Lru N C) (node : N) :
    (lruEvictNode lru node).global = lru.global := by
  unfold lruEvictNode
  split <;> rfl

@[simp] theorem lruEvictNode_hash (lru : Lru N C) (node : N) :
    (lruEvictNode lru node).hash = lru.hash := by
  unfold lruEvictNode
  split <;> rfl

@[simp] theorem lruEvictNode_content (lru : Lru N C) (node : N) :
    (lruEvictNode lru node).content = lru.content := by
  unfold lruEvictNode
  split <;> rfl

/-- Whether or not the node was in use, it is free afterwards and no other
    node's flag changes. -/
theorem lruEvictNode_inUse (lru : Lru N C) (node : N) :
    (lruEvictNode lru node).inUse = update lru.inUse node false := by
  unfold lruEvictNode lruIsNodeInUse
  split_ifs with hu
  · -- a free node: clearing its flag again changes nothing
    have hfree : lru.inUse node = false := by simpa using hu
    exact (update_eq_self_iff.mpr hfree.symm).symm
  · rfl

/-- `lru_try_evict_one`: from the tail of the global list, the first node
    in use that `pre_node_evict` lets go. -/
def lruTryEvictOne (lru : Lru N C) (preNodeEvict : N → Bool) : Option N × Lru N C :=
  match lru.global.reverse.find? fun n => lruIsNodeInUse lru n && preNodeEvict n with
  | some n => (some n, lruEvictNode lru n)
  | none => (none, lru)

/-- `lru_evict_one`: `none` where its `assert` fails. -/
def lruEvictOne (lru : Lru N C) (preNodeEvict : N → Bool) : Option (N × Lru N C) :=
  match lruTryEvictOne lru preNodeEvict with
  | (some n, lru) => some (n, lru)
  | (none, _) => none

/-- `lru_get_one_free`: the free node nearest the tail, or an evicted one. -/
def lruGetOneFree (lru : Lru N C) (preNodeEvict : N → Bool) : Option (N × Lru N C) :=
  match lru.global.reverse.find? fun n => !lruIsNodeInUse lru n with
  | some n => some (n, lru)
  | none => lruEvictOne lru preNodeEvict

/-- `lru_contains_hash` -/
def lruContainsHash (lru : Lru N C) (hash : UInt64) : Bool :=
  (lru.bins (lruHashToBin hash)).any fun n => lru.hash n == hash

/-- `lru_lookup`: a node of the bin with the hash that matches the key is
    taken out of its bin; otherwise a free node is taken and initialised
    for the key.  Either way the node goes to the head of the global list
    and of the bin.  `none` where an `assert` fails. -/
def lruLookup (cb : LruCallbacks C K) (lru : Lru N C) (preNodeEvict : N → Bool) (hash : UInt64)
    (key : K) : Option (N × Lru N C) :=
  let bin := lruHashToBin hash
  let found := (lru.bins bin).find? fun n => lru.hash n == hash && !cb.compareNodes (lru.content n) key
  let taken : Option (N × Lru N C) :=
    match found with
    | some n =>
      some (n, { lru with bins := update lru.bins bin ((lru.bins bin).erase n),
                          inUse := update lru.inUse n false })
    | none =>
      (lruGetOneFree lru preNodeEvict).bind fun (n, lru) =>
        let lru := { lru with hash := update lru.hash n hash }
        let lru := { lru with content := update lru.content n (cb.initNode (lru.content n) key) }
        if lru.hash n = hash then
          some (n, { lru with numUsed := lru.numUsed + 1, numFree := lru.numFree - 1 })
        else none
  taken.map fun (n, lru) =>
    (n, { lru with global := n :: lru.global.erase n, bins := update lru.bins bin (n :: lru.bins bin),
                   inUse := update lru.inUse n true })

/-- One node of a bin in `lru_flush`: evicted and moved to the tail of the
    global list when `pre_node_evict` lets it go. -/
def lruFlushNode (preNodeEvict : N → Bool) (lru : Lru N C) (node : N) : Lru N C :=
  if preNodeEvict node then
    let lru := lruEvictNode lru node
    { lru with global := lru.global.erase node ++ [node] }
  else lru

/-- `lru_flush`: bin by bin, over the nodes the bin holds when its loop
    starts (`QTAILQ_FOREACH_SAFE` reads the next node before the body
    unlinks the current one). -/
def lruFlush (lru : Lru N C) (preNodeEvict : N → Bool) : Lru N C :=
  forLoop lruNumBins (fun bin lru => (lru.bins bin).foldl (lruFlushNode preNodeEvict) lru) lru

/-- A call into the cache. -/
inductive LruCall (N K : Type _)
  | addFree (node : N)
  | lookup (hash : UInt64) (key : K) (preNodeEvict : N → Bool)
  | evictNode (node : N)
  | tryEvictOne (preNodeEvict : N → Bool)
  | evictOne (preNodeEvict : N → Bool)
  | flush (preNodeEvict : N → Bool)

/-- One call; `none` where an `assert` fails. -/
def lruStep (cb : LruCallbacks C K) (lru : Lru N C) : LruCall N K → Option (Lru N C)
  | .addFree node => some (lruAddFree lru node)
  | .lookup hash key pre => (lruLookup cb lru pre hash key).map Prod.snd
  | .evictNode node => some (lruEvictNode lru node)
  | .tryEvictOne pre => some (lruTryEvictOne lru pre).2
  | .evictOne pre => (lruEvictOne lru pre).map Prod.snd
  | .flush pre => some (lruFlush lru pre)

/-- A sequence of calls, stopping at a failed `assert`. -/
def lruRun (cb : LruCallbacks C K) : Lru N C → List (LruCall N K) → Option (Lru N C)
  | lru, [] => some lru
  | lru, c :: cs => (lruStep cb lru c).bind fun lru => lruRun cb lru cs

/-! ## Section 2: The invariant -/

/-- What the lists and counters keep: no node twice on a list; a node in a
    bin is on the global list and in the bin of its hash; a node of the
    global list is in use iff it is in that bin; `num_used` and `num_free`
    count the nodes in use and the free ones. -/
structure LruInv (lru : Lru N C) : Prop where
  global_nodup : lru.global.Nodup
  bins_nodup : ∀ b, (lru.bins b).Nodup
  mem_bin : ∀ b n, n ∈ lru.bins b → n ∈ lru.global ∧ lruGetNodeBin lru n = b
  inUse_iff : ∀ n ∈ lru.global, lru.inUse n = true ↔ n ∈ lru.bins (lruGetNodeBin lru n)
  numUsed_eq : lru.numUsed = lru.global.countP lru.inUse
  numFree_eq : lru.numFree = lru.global.countP fun n => !lru.inUse n

omit [DecidableEq N] in
theorem lruInit_inv (inUse : N → Bool) (hash : N → UInt64) (content : N → C) :
    LruInv (lruInit inUse hash content) where
  global_nodup := List.nodup_nil
  bins_nodup _ := List.nodup_nil
  mem_bin _ _ h := absurd h List.not_mem_nil
  inUse_iff _ h := absurd h List.not_mem_nil
  numUsed_eq := by simp [lruInit]
  numFree_eq := by simp [lruInit]

section inv

variable {lru : Lru N C}

omit [DecidableEq N] in
/-- A free node is in no bin. -/
theorem LruInv.not_mem_bins_of_free (h : LruInv lru) {n : N} (hn : lru.inUse n = false) (b : Nat) :
    n ∉ lru.bins b := by
  intro hb
  obtain ⟨hg, hbin⟩ := h.mem_bin b n hb
  have := (h.inUse_iff n hg).mpr (hbin ▸ hb)
  rw [hn] at this
  cases this

omit [DecidableEq N] in
/-- Reordering the global list keeps the invariant. -/
theorem LruInv.perm_global (h : LruInv lru) {g : List N} (hp : g.Perm lru.global) :
    LruInv { lru with global := g } where
  global_nodup := hp.nodup_iff.mpr h.global_nodup
  bins_nodup := h.bins_nodup
  mem_bin b n hn := ⟨hp.mem_iff.mpr (h.mem_bin b n hn).1, (h.mem_bin b n hn).2⟩
  inUse_iff n hn := h.inUse_iff n (hp.mem_iff.mp hn)
  numUsed_eq := by
    show lru.numUsed = (g.countP lru.inUse : Int)
    rw [h.numUsed_eq, hp.countP_eq]
  numFree_eq := by
    show lru.numFree = (g.countP fun n => !lru.inUse n : Int)
    rw [h.numFree_eq, hp.countP_eq]

theorem lruAddFree_inv (h : LruInv lru) {node : N} (hn : node ∉ lru.global) :
    LruInv (lruAddFree lru node) := by
  -- the flag cleared is that of a node not yet on the global list
  have hagree : ∀ m ∈ lru.global, update lru.inUse node false m = lru.inUse m := fun m hm =>
    update_of_ne (by rintro rfl; exact hn hm) _ _
  constructor
  · show (lru.global ++ [node]).Nodup
    rw [List.nodup_append_comm, List.singleton_append]
    exact List.nodup_cons.mpr ⟨hn, h.global_nodup⟩
  · exact h.bins_nodup
  · intro b n hb
    exact ⟨List.mem_append_left _ (h.mem_bin b n hb).1, (h.mem_bin b n hb).2⟩
  · intro n hn'
    show update lru.inUse node false n = true ↔ n ∈ lru.bins (lruGetNodeBin lru n)
    rcases List.mem_append.mp hn' with hg | hs
    · rw [hagree n hg]
      exact h.inUse_iff n hg
    · obtain rfl := List.mem_singleton.mp hs
      rw [update_self]
      exact ⟨fun hf => absurd hf Bool.false_ne_true, fun hb => absurd (h.mem_bin _ n hb).1 hn⟩
  · show lru.numUsed = ((lru.global ++ [node]).countP (update lru.inUse node false) : Int)
    rw [List.countP_append, List.countP_congr fun m hm => by rw [hagree m hm], h.numUsed_eq]
    simp
  · show lru.numFree + 1 = ((lru.global ++ [node]).countP fun n => !update lru.inUse node false n : Int)
    rw [List.countP_append, List.countP_congr fun m hm => by rw [hagree m hm], h.numFree_eq]
    simp

/-- `lru_evict_node` on a node of the global list. -/
theorem lruEvictNode_inv (h : LruInv lru) {node : N} (hn : node ∈ lru.global) :
    LruInv (lruEvictNode lru node) := by
  unfold lruEvictNode lruIsNodeInUse
  by_cases hu : lru.inUse node = true
  · rw [if_neg (by simp [hu])]
    have hbin := (h.inUse_iff node hn).mp hu
    -- the node leaves the bin of its hash and only that bin changes
    have hcount := countP_update h.global_nodup hn lru.inUse false
    have hcount' := countP_update h.global_nodup hn (fun n => !lru.inUse n) true
    simp only [hu, if_true, Bool.false_eq_true, if_false, Bool.not_true] at hcount hcount'
    constructor
    · exact h.global_nodup
    · intro b
      by_cases hb : b = lruGetNodeBin lru node
      · subst hb
        simp only [update_self]
        exact (h.bins_nodup _).erase node
      · simp only [update_of_ne hb]
        exact h.bins_nodup b
    · intro b n hnb
      by_cases hb : b = lruGetNodeBin lru node
      · subst hb
        simp only [update_self] at hnb
        exact h.mem_bin _ n (List.mem_of_mem_erase hnb)
      · simp only [update_of_ne hb] at hnb
        exact h.mem_bin b n hnb
    · intro n hng
      show update lru.inUse node false n = true ↔
        n ∈ update lru.bins (lruGetNodeBin lru node) _ (lruGetNodeBin lru n)
      by_cases hnn : n = node
      · subst hnn
        simp only [update_self]
        exact ⟨fun hf => absurd hf Bool.false_ne_true,
          fun hm => absurd hm ((h.bins_nodup _).not_mem_erase)⟩
      · rw [update_of_ne hnn]
        by_cases hb : lruGetNodeBin lru n = lruGetNodeBin lru node
        · rw [hb, update_self, List.mem_erase_of_ne hnn, ← hb]
          exact h.inUse_iff n hng
        · rw [update_of_ne hb]
          exact h.inUse_iff n hng
    · show lru.numUsed - 1 = (lru.global.countP (update lru.inUse node false) : Int)
      rw [h.numUsed_eq]
      omega
    · show lru.numFree + 1 = (lru.global.countP fun n => !update lru.inUse node false n : Int)
      rw [not_update, Bool.not_false, h.numFree_eq]
      omega
  · rw [if_pos (by simpa using hu)]
    exact h

omit [DecidableEq N] in
/-- Reordering one bin keeps the invariant. -/
theorem LruInv.perm_bin (h : LruInv lru) (b : Nat) {l : List N} (hp : l.Perm (lru.bins b)) :
    LruInv { lru with bins := update lru.bins b l } where
  global_nodup := h.global_nodup
  bins_nodup b' := by
    by_cases hb : b' = b
    · subst hb
      simpa using hp.nodup_iff.mpr (h.bins_nodup b')
    · simpa [update_of_ne hb] using h.bins_nodup b'
  mem_bin b' n hn := by
    by_cases hb : b' = b
    · subst hb
      simp only [update_self] at hn
      exact h.mem_bin b' n (hp.mem_iff.mp hn)
    · simp only [update_of_ne hb] at hn
      exact h.mem_bin b' n hn
  inUse_iff n hn := by
    show lru.inUse n = true ↔ n ∈ update lru.bins b l (lruGetNodeBin lru n)
    by_cases hb : lruGetNodeBin lru n = b
    · rw [hb, update_self, hp.mem_iff, ← hb]
      exact h.inUse_iff n hn
    · rw [update_of_ne hb]
      exact h.inUse_iff n hn
  numUsed_eq := h.numUsed_eq
  numFree_eq := h.numFree_eq

/-- A free node of the global list, given a hash and linked at the head of
    its bin and of the global list, is in use: the end of `lru_lookup` when
    no node matched.  Its contents do not matter. -/
theorem LruInv.link (h : LruInv lru) {n : N} (hn : n ∈ lru.global) (hfree : lru.inUse n = false)
    (hash : UInt64) (content : N → C) :
    LruInv { lru with hash := update lru.hash n hash, content := content,
                      numUsed := lru.numUsed + 1, numFree := lru.numFree - 1,
                      global := n :: lru.global.erase n,
                      bins := update lru.bins (lruHashToBin hash) (n :: lru.bins (lruHashToBin hash)),
                      inUse := update lru.inUse n true } := by
  have hp := List.perm_cons_erase hn
  -- the other nodes keep their hashes, bins and flags
  have hnot : ∀ b, n ∉ lru.bins b := h.not_mem_bins_of_free hfree
  have hbin_ne : ∀ m, m ≠ n → lruHashToBin (update lru.hash n hash m) = lruGetNodeBin lru m :=
    fun m hm => by rw [update_of_ne hm]; rfl
  have hcount := countP_update h.global_nodup hn lru.inUse true
  have hcount' := countP_update h.global_nodup hn (fun m => !lru.inUse m) false
  simp only [hfree, Bool.false_eq_true, if_false, if_true, Bool.not_false] at hcount hcount'
  constructor
  · exact hp.nodup_iff.mp h.global_nodup
  · intro b
    by_cases hb : b = lruHashToBin hash
    · subst hb
      simp only [update_self]
      exact List.nodup_cons.mpr ⟨hnot _, h.bins_nodup _⟩
    · simp only [update_of_ne hb]
      exact h.bins_nodup b
  · intro b m hm
    by_cases hmn : m = n
    · subst hmn
      by_cases hb : b = lruHashToBin hash
      · subst hb
        exact ⟨List.mem_cons_self .., by simp [lruGetNodeBin]⟩
      · simp only [update_of_ne hb] at hm
        exact absurd hm (hnot b)
    · have hm' : m ∈ lru.bins b := by
        by_cases hb : b = lruHashToBin hash
        · subst hb
          simpa [hmn] using hm
        · simpa [update_of_ne hb] using hm
      obtain ⟨hg, hbin⟩ := h.mem_bin b m hm'
      refine ⟨List.mem_cons_of_mem _ ((List.mem_erase_of_ne hmn).mpr hg), ?_⟩
      show lruHashToBin (update lru.hash n hash m) = b
      rw [hbin_ne m hmn, hbin]
  · intro m hm
    show update lru.inUse n true m = true ↔
      m ∈ update lru.bins (lruHashToBin hash) _ (lruHashToBin (update lru.hash n hash m))
    by_cases hmn : m = n
    · subst hmn
      simp
    · have hg : m ∈ lru.global := List.mem_of_mem_erase ((List.mem_cons.mp hm).resolve_left hmn)
      rw [update_of_ne hmn, hbin_ne m hmn]
      by_cases hb : lruGetNodeBin lru m = lruHashToBin hash
      · rw [hb, update_self, List.mem_cons, or_iff_right hmn, ← hb]
        exact h.inUse_iff m hg
      · rw [update_of_ne hb]
        exact h.inUse_iff m hg
  · show lru.numUsed + 1 = ((n :: lru.global.erase n).countP (update lru.inUse n true) : Int)
    rw [← hp.countP_eq, h.numUsed_eq]
    omega
  · show lru.numFree - 1 = ((n :: lru.global.erase n).countP fun m => !update lru.inUse n true m : Int)
    rw [← hp.countP_eq, not_update, Bool.not_true, h.numFree_eq]
    omega

/-! ### Which node `lru_get_one_free` hands out -/

/-- What `lru_get_one_free` can do: hand out the free node nearest the tail
    and change nothing, or, with no free node, evict the in-use node nearest
    the tail that `pre_node_evict` lets go. -/
theorem lruGetOneFree_cases {pre : N → Bool} {n : N} {lru' : Lru N C}
    (hg : lruGetOneFree lru pre = some (n, lru')) :
    (lru.global.reverse.find? (fun m => !lruIsNodeInUse lru m) = some n ∧ lru' = lru) ∨
    (lru.global.reverse.find? (fun m => !lruIsNodeInUse lru m) = none ∧
      lru.global.reverse.find? (fun m => lruIsNodeInUse lru m && pre m) = some n ∧
      lru' = lruEvictNode lru n) := by
  unfold lruGetOneFree at hg
  split at hg
  · rename_i m hm
    obtain ⟨rfl, rfl⟩ := Prod.mk.inj (Option.some.inj hg)
    exact .inl ⟨hm, rfl⟩
  · rename_i hfree
    -- no free node: the eviction path, which aborts when nothing may go
    cases he : lru.global.reverse.find? (fun m => lruIsNodeInUse lru m && pre m) with
    | none => simp [lruEvictOne, lruTryEvictOne, he] at hg
    | some m =>
      simp only [lruEvictOne, lruTryEvictOne, he, Option.some.injEq, Prod.mk.injEq] at hg
      obtain ⟨rfl, rfl⟩ := hg
      exact .inr ⟨hfree, rfl, rfl⟩

/-- The node `lru_get_one_free` hands out is on the global list and free
    afterwards; nothing else changes but the flag of an evicted node. -/
theorem lruGetOneFree_spec (h : LruInv lru) {pre : N → Bool} {n : N} {lru' : Lru N C}
    (hg : lruGetOneFree lru pre = some (n, lru')) :
    LruInv lru' ∧ n ∈ lru.global ∧ lru'.global = lru.global ∧ lru'.inUse n = false ∧
      (∀ x, x ≠ n → lru'.inUse x = lru.inUse x) ∧ lru'.hash = lru.hash ∧
      lru'.content = lru.content := by
  rcases lruGetOneFree_cases hg with ⟨hf, hl⟩ | ⟨-, he, hl⟩ <;> subst lru'
  · have hn := List.mem_reverse.mp (List.mem_of_find?_eq_some hf)
    have hfree : lru.inUse n = false := by simpa [lruIsNodeInUse] using List.find?_some hf
    exact ⟨h, hn, rfl, hfree, fun _ _ => rfl, rfl, rfl⟩
  · have hn := List.mem_reverse.mp (List.mem_of_find?_eq_some he)
    refine ⟨lruEvictNode_inv h hn, hn, lruEvictNode_global .., ?_, fun x hx => ?_,
      lruEvictNode_hash .., lruEvictNode_content ..⟩
    · rw [lruEvictNode_inUse, update_self]
    · rw [lruEvictNode_inUse, update_of_ne hx]

/-! ### The three ends of `lru_lookup` -/

section lookup

variable (cb : LruCallbacks C K) (pre : N → Bool) (hash : UInt64) (key : K)

/-- A node of the bin matches: it moves to the head of the bin and of the
    global list. -/
theorem lruLookup_of_found {n : N}
    (hf : (lru.bins (lruHashToBin hash)).find?
      (fun m => lru.hash m == hash && !cb.compareNodes (lru.content m) key) = some n) :
    lruLookup cb lru pre hash key = some (n, { lru with
      global := n :: lru.global.erase n,
      bins := update lru.bins (lruHashToBin hash) (n :: (lru.bins (lruHashToBin hash)).erase n),
      inUse := update lru.inUse n true }) := by
  simp [lruLookup, hf, update_idem]

/-- No node matches: the node `lru_get_one_free` hands out takes the hash,
    is initialised for the key and is linked at both heads. -/
theorem lruLookup_of_miss {n : N} {lru' : Lru N C}
    (hf : (lru.bins (lruHashToBin hash)).find?
      (fun m => lru.hash m == hash && !cb.compareNodes (lru.content m) key) = none)
    (hg : lruGetOneFree lru pre = some (n, lru')) :
    lruLookup cb lru pre hash key = some (n, { lru' with
      hash := update lru'.hash n hash,
      content := update lru'.content n (cb.initNode (lru'.content n) key),
      numUsed := lru'.numUsed + 1, numFree := lru'.numFree - 1,
      global := n :: lru'.global.erase n,
      bins := update lru'.bins (lruHashToBin hash) (n :: lru'.bins (lruHashToBin hash)),
      inUse := update lru'.inUse n true }) := by
  simp [lruLookup, hf, hg]

/-- No node matches and none can be freed: the `assert` fails. -/
theorem lruLookup_of_none
    (hf : (lru.bins (lruHashToBin hash)).find?
      (fun m => lru.hash m == hash && !cb.compareNodes (lru.content m) key) = none)
    (hg : lruGetOneFree lru pre = none) :
    lruLookup cb lru pre hash key = none := by
  simp [lruLookup, hf, hg]

end lookup

omit [DecidableEq N] in
/-- A matching node found in its bin is on the global list and in use. -/
theorem LruInv.found_in_use (h : LruInv lru) {b : Nat} {p : N → Bool} {n : N}
    (hf : (lru.bins b).find? p = some n) :
    n ∈ lru.bins b ∧ n ∈ lru.global ∧ lru.inUse n = true := by
  have hb := List.mem_of_find?_eq_some hf
  obtain ⟨hg, hbin⟩ := h.mem_bin b n hb
  exact ⟨hb, hg, (h.inUse_iff n hg).mpr (hbin ▸ hb)⟩

section lookup

variable {cb : LruCallbacks C K} {pre : N → Bool} {hash : UInt64} {key : K} {n : N} {lru' : Lru N C}

theorem lruLookup_inv (h : LruInv lru) (hres : lruLookup cb lru pre hash key = some (n, lru')) :
    LruInv lru' := by
  cases hf : (lru.bins (lruHashToBin hash)).find?
      (fun m => lru.hash m == hash && !cb.compareNodes (lru.content m) key) with
  | some m =>
    -- the found node is in use: only the order of its bin and of the global list changes
    rw [lruLookup_of_found cb pre hash key hf] at hres
    obtain ⟨rfl, rfl⟩ := Prod.mk.inj (Option.some.inj hres)
    obtain ⟨hb, hg, hu⟩ := h.found_in_use hf
    rw [show update lru.inUse m true = lru.inUse from update_eq_self_iff.mpr hu.symm]
    exact (h.perm_bin _ (List.perm_cons_erase hb).symm).perm_global (List.perm_cons_erase hg).symm
  | none =>
    cases hg : lruGetOneFree lru pre with
    | none => rw [lruLookup_of_none cb pre hash key hf hg] at hres; cases hres
    | some r =>
      obtain ⟨m, lru1⟩ := r
      rw [lruLookup_of_miss cb pre hash key hf hg] at hres
      obtain ⟨rfl, rfl⟩ := Prod.mk.inj (Option.some.inj hres)
      obtain ⟨h1, hm, hglobal, hfree, -⟩ := lruGetOneFree_spec h hg
      exact h1.link (hglobal ▸ hm) hfree hash _

/-- Either way, the node returned heads the global list, which otherwise
    keeps its order, and the nodes in use are it and those in use before. -/
theorem lruLookup_lists (h : LruInv lru) (hres : lruLookup cb lru pre hash key = some (n, lru')) :
    n ∈ lru.global ∧ lru'.global = n :: lru.global.erase n ∧
      lru'.global.filter lru'.inUse = n :: (lru.global.erase n).filter lru.inUse := by
  cases hf : (lru.bins (lruHashToBin hash)).find?
      (fun m => lru.hash m == hash && !cb.compareNodes (lru.content m) key) with
  | some m =>
    rw [lruLookup_of_found cb pre hash key hf] at hres
    obtain ⟨rfl, rfl⟩ := Prod.mk.inj (Option.some.inj hres)
    obtain ⟨-, hg, -⟩ := h.found_in_use hf
    exact ⟨hg, rfl, filter_cons_erase_update h.global_nodup fun _ _ => rfl⟩
  | none =>
    cases hg : lruGetOneFree lru pre with
    | none => rw [lruLookup_of_none cb pre hash key hf hg] at hres; cases hres
    | some r =>
      obtain ⟨m, lru1⟩ := r
      rw [lruLookup_of_miss cb pre hash key hf hg] at hres
      obtain ⟨rfl, rfl⟩ := Prod.mk.inj (Option.some.inj hres)
      obtain ⟨-, hm, hglobal, -, hother, -⟩ := lruGetOneFree_spec h hg
      refine ⟨hm, by simp only [hglobal], ?_⟩
      show (m :: lru1.global.erase m).filter (update lru1.inUse m true) = _
      rw [hglobal]
      exact filter_cons_erase_update h.global_nodup hother

end lookup

/-! ### Calls that only free nodes -/

/-- `lru'` is `lru` with some nodes freed and the global list reordered:
    what every call but `lru_add_free` and `lru_lookup` does. -/
structure LruFrees (lru lru' : Lru N C) : Prop where
  inv : LruInv lru'
  perm : lru'.global.Perm lru.global
  inUse_sublist : (lru'.global.filter lru'.inUse).Sublist (lru.global.filter lru.inUse)

omit [DecidableEq N] in
theorem LruFrees.refl (h : LruInv lru) : LruFrees lru lru :=
  ⟨h, List.Perm.refl _, List.Sublist.refl _⟩

omit [DecidableEq N] in
theorem LruFrees.trans {lru' lru'' : Lru N C} (h1 : LruFrees lru lru') (h2 : LruFrees lru' lru'') :
    LruFrees lru lru'' :=
  ⟨h2.inv, h2.perm.trans h1.perm, h2.inUse_sublist.trans h1.inUse_sublist⟩

theorem lruEvictNode_frees (h : LruInv lru) {node : N} (hn : node ∈ lru.global) :
    LruFrees lru (lruEvictNode lru node) where
  inv := lruEvictNode_inv h hn
  perm := by rw [lruEvictNode_global]
  inUse_sublist := by
    rw [lruEvictNode_global, lruEvictNode_inUse]
    refine List.monotone_filter_right _ fun x hx => ?_
    by_cases hxn : x = node
    · subst hxn
      simp at hx
    · rwa [update_of_ne hxn] at hx

theorem lruTryEvictOne_frees (h : LruInv lru) (pre : N → Bool) :
    LruFrees lru (lruTryEvictOne lru pre).2 := by
  unfold lruTryEvictOne
  split
  · rename_i n hn
    exact lruEvictNode_frees h (List.mem_reverse.mp (List.mem_of_find?_eq_some hn))
  · exact LruFrees.refl h

theorem lruEvictOne_frees (h : LruInv lru) {pre : N → Bool} {n : N} {lru' : Lru N C}
    (he : lruEvictOne lru pre = some (n, lru')) : LruFrees lru lru' := by
  unfold lruEvictOne at he
  split at he
  · rename_i n' t ht
    obtain ⟨rfl, rfl⟩ := Prod.mk.inj (Option.some.inj he)
    have := lruTryEvictOne_frees h pre
    rwa [ht] at this
  · cases he

/-- A free node moved to the tail of the global list. -/
theorem LruInv.frees_move_tail (h : LruInv lru) {node : N} (hn : node ∈ lru.global)
    (hfree : lru.inUse node = false) :
    LruFrees lru { lru with global := lru.global.erase node ++ [node] } := by
  have hp : (lru.global.erase node ++ [node]).Perm lru.global :=
    List.perm_append_singleton _ _ |>.trans (List.perm_cons_erase hn).symm
  refine ⟨h.perm_global hp, hp, ?_⟩
  show ((lru.global.erase node ++ [node]).filter lru.inUse).Sublist _
  rw [List.filter_append, List.filter_singleton, hfree, cond_false, List.append_nil]
  exact List.erase_sublist.filter _

theorem lruFlushNode_frees (h : LruInv lru) (pre : N → Bool) {node : N} (hn : node ∈ lru.global) :
    LruFrees lru (lruFlushNode pre lru node) := by
  unfold lruFlushNode
  split_ifs
  · -- evicted, then moved to the tail
    have he := lruEvictNode_frees h hn
    have hfree : (lruEvictNode lru node).inUse node = false := by
      rw [lruEvictNode_inUse, update_self]
    exact he.trans (he.inv.frees_move_tail (by rwa [lruEvictNode_global]) hfree)
  · exact LruFrees.refl h

/-- One bin of `lru_flush`: its nodes as the loop found them, each still on
    the global list when its turn comes. -/
theorem foldl_flushNode_frees (pre : N → Bool) :
    ∀ (l : List N) (t : Lru N C), LruInv t → (∀ x ∈ l, x ∈ t.global) →
      LruFrees t (l.foldl (lruFlushNode pre) t)
  | [], t, ht, _ => LruFrees.refl ht
  | x :: xs, t, ht, hl => by
    have h1 := lruFlushNode_frees ht pre (hl x (List.mem_cons_self ..))
    -- the global list is only reordered, so the rest of the bin is still on it
    have hrest : ∀ y ∈ xs, y ∈ (lruFlushNode pre t x).global := fun y hy =>
      h1.perm.mem_iff.mpr (hl y (List.mem_cons_of_mem _ hy))
    exact h1.trans (foldl_flushNode_frees pre xs _ h1.inv hrest)

theorem lruFlush_frees (h : LruInv lru) (pre : N → Bool) : LruFrees lru (lruFlush lru pre) := by
  unfold lruFlush
  refine forLoop_keeps (LruFrees lru) _ _ lru (fun b t ht => ?_) (LruFrees.refl h)
  exact ht.trans (foldl_flushNode_frees pre _ t ht.inv fun x hx => (ht.inv.mem_bin b x hx).1)

end inv

/-! ## Section 3: What `lru_lookup` returns -/

/-- A node of the global list, in use, with the hash, that matches the key. -/
def LruMatches (cb : LruCallbacks C K) (lru : Lru N C) (hash : UInt64) (key : K) (m : N) : Prop :=
  m ∈ lru.global ∧ lru.inUse m = true ∧ lru.hash m = hash ∧ cb.compareNodes (lru.content m) key = false

/-- What `lru_lookup` is for, from a state whose past lookups returned
    `hist`, most recent first.  The node returned is in use, heads the
    global list and the bin, has the hash and matches the key.  It is a
    matching node if there is one, and then the contents are untouched;
    otherwise it is initialised for the key and is a free node if there is
    one, else the in-use node `pre_node_evict` lets go that was looked up
    least recently.  The lookup aborts only when nothing matches, no node
    is free and `pre_node_evict` refuses every node. -/
def LookupMeets (cb : LruCallbacks C K) (lru : Lru N C) (hist : List N) (pre : N → Bool)
    (hash : UInt64) (key : K) : Option (N × Lru N C) → Prop
  | some (n, lru') =>
    lru'.inUse n = true ∧ lru'.global.head? = some n ∧
      (lru'.bins (lruHashToBin hash)).head? = some n ∧ lru'.hash n = hash ∧
      cb.compareNodes (lru'.content n) key = false ∧
      ((∃ m, LruMatches cb lru hash key m) → LruMatches cb lru hash key n ∧ lru'.content = lru.content) ∧
      ((¬∃ m, LruMatches cb lru hash key m) →
        lru'.content = update lru.content n (cb.initNode (lru.content n) key) ∧ n ∈ lru.global ∧
        ((∃ m ∈ lru.global, lru.inUse m = false) → lru.inUse n = false) ∧
        ((¬∃ m ∈ lru.global, lru.inUse m = false) →
          lru.inUse n = true ∧ pre n = true ∧
          ∀ m ∈ lru.global, m ≠ n → lru.inUse m = true → pre m = true →
            hist.idxOf m < hist.idxOf n))
  | none =>
    (¬∃ m, LruMatches cb lru hash key m) ∧ ∀ m ∈ lru.global, lru.inUse m = true ∧ pre m = false

section lookupSpec

variable {lru : Lru N C} {cb : LruCallbacks C K} {pre : N → Bool} {hash : UInt64} {key : K}

omit [DecidableEq N] in
/-- Every matching node is in the bin of the hash, so a search of the bin
    that finds nothing means that nothing matches. -/
theorem LruInv.no_match (h : LruInv lru)
    (hf : (lru.bins (lruHashToBin hash)).find?
      (fun m => lru.hash m == hash && !cb.compareNodes (lru.content m) key) = none) :
    ¬∃ m, LruMatches cb lru hash key m := by
  rintro ⟨m, hg, hu, hh, hc⟩
  have hb : m ∈ lru.bins (lruHashToBin hash) := by
    have := (h.inUse_iff m hg).mp hu
    rwa [lruGetNodeBin, hh] at this
  have := List.find?_eq_none.mp hf m hb
  simp [hh, hc] at this

/-- `lru_get_one_free` aborts only when every node is in use and
    `pre_node_evict` refuses each. -/
theorem lruGetOneFree_eq_none (hg : lruGetOneFree lru pre = none) :
    ∀ m ∈ lru.global, lru.inUse m = true ∧ pre m = false := by
  unfold lruGetOneFree at hg
  split at hg
  · cases hg
  · rename_i hfree
    cases he : lru.global.reverse.find? (fun m => lruIsNodeInUse lru m && pre m) with
    | some m => simp [lruEvictOne, lruTryEvictOne, he] at hg
    | none =>
      intro m hm
      have hu := (find?_reverse_eq_none.mp hfree) m hm
      have hp := (find?_reverse_eq_none.mp he) m hm
      simp only [lruIsNodeInUse, Bool.not_eq_false'] at hu
      simp only [lruIsNodeInUse, hu, Bool.true_and] at hp
      exact ⟨hu, hp⟩

/-- The in-use node nearest the tail that `pre_node_evict` lets go was
    looked up before every other such node, when the nodes in use are in
    recency order. -/
theorem evict_least_recent {hist : List N}
    (ho : RecencyOrdered hist (lru.global.filter lru.inUse)) {n : N}
    (he : lru.global.reverse.find? (fun m => lruIsNodeInUse lru m && pre m) = some n) :
    ∀ m ∈ lru.global, m ≠ n → lru.inUse m = true → pre m = true → hist.idxOf m < hist.idxOf n := by
  obtain ⟨hn, as, bs, hl, hbs⟩ := find?_reverse_eq_some.mp he
  intro m hm hmn hu hp
  -- the nodes after `n` all fail the test, so `m` comes before it
  have has : m ∈ as := by
    rw [hl] at hm
    rcases List.mem_append.mp hm with hm | hm
    · exact hm
    · rcases List.mem_cons.mp hm with rfl | hm
      · exact absurd rfl hmn
      · have := hbs m hm
        simp [lruIsNodeInUse, hu, hp] at this
  have hnu : lru.inUse n = true := by
    simp only [lruIsNodeInUse, Bool.and_eq_true] at hn
    exact hn.1
  rw [hl, List.filter_append, List.filter_cons, if_pos hnu] at ho
  exact ho.lt_of_mem_left (List.mem_filter.mpr ⟨has, hu⟩)

/-- `lru_lookup` meets its purpose from every state of the invariant whose
    nodes in use are in recency order, when `init_node` makes the node
    match its key. -/
theorem lruLookup_meets (h : LruInv lru) {hist : List N}
    (ho : RecencyOrdered hist (lru.global.filter lru.inUse))
    (hinit : ∀ c k, cb.compareNodes (cb.initNode c k) k = false) :
    LookupMeets cb lru hist pre hash key (lruLookup cb lru pre hash key) := by
  cases hf : (lru.bins (lruHashToBin hash)).find?
      (fun m => lru.hash m == hash && !cb.compareNodes (lru.content m) key) with
  | some n =>
    -- a matching node is returned and the contents stay
    rw [lruLookup_of_found cb pre hash key hf]
    obtain ⟨-, hg, hu⟩ := h.found_in_use hf
    have hp := List.find?_some hf
    simp only [Bool.and_eq_true, beq_iff_eq, Bool.not_eq_true'] at hp
    have hmatch : LruMatches cb lru hash key n := ⟨hg, hu, hp.1, hp.2⟩
    refine ⟨by simp, rfl, by simp, hp.1, hp.2, fun _ => ⟨hmatch, rfl⟩, fun hno => ?_⟩
    exact absurd ⟨n, hmatch⟩ hno
  | none =>
    have hno := h.no_match hf
    cases hg : lruGetOneFree lru pre with
    | none =>
      rw [lruLookup_of_none cb pre hash key hf hg]
      exact ⟨hno, lruGetOneFree_eq_none hg⟩
    | some r =>
      obtain ⟨n, lru1⟩ := r
      rw [lruLookup_of_miss cb pre hash key hf hg]
      obtain ⟨-, hn, -, -, -, -, hcontent⟩ := lruGetOneFree_spec h hg
      refine ⟨by simp, rfl, by simp, by simp, by simp [hinit], fun hm => absurd hm hno,
        fun _ => ⟨by rw [hcontent], hn, ?_, ?_⟩⟩
      -- which of its two ways `lru_get_one_free` took decides the rest
      · intro hsome
        rcases lruGetOneFree_cases hg with ⟨hfree, -⟩ | ⟨hfree, -⟩
        · simpa [lruIsNodeInUse] using List.find?_some hfree
        · obtain ⟨m, hm, hmu⟩ := hsome
          have := find?_reverse_eq_none.mp hfree m hm
          simp [lruIsNodeInUse, hmu] at this
      · intro hnone
        rcases lruGetOneFree_cases hg with ⟨hfree, -⟩ | ⟨-, he, -⟩
        · have hnu : lru.inUse n = false := by
            simpa [lruIsNodeInUse] using List.find?_some hfree
          exact absurd ⟨n, hn, hnu⟩ hnone
        · have hp := List.find?_some he
          simp only [lruIsNodeInUse, Bool.and_eq_true] at hp
          exact ⟨hp.1, hp.2, evict_least_recent ho he⟩

/-- When a node matches, `lru_lookup` calls neither `init_node` nor
    `pre_node_evict`: its result depends on the callbacks only through
    `compare_nodes`. -/
theorem lruLookup_of_match (h : LruInv lru) (hm : ∃ m, LruMatches cb lru hash key m)
    (cb' : LruCallbacks C K) (pre' : N → Bool) (hcmp : cb'.compareNodes = cb.compareNodes) :
    lruLookup cb' lru pre' hash key = lruLookup cb lru pre hash key := by
  cases hf : (lru.bins (lruHashToBin hash)).find?
      (fun m => lru.hash m == hash && !cb.compareNodes (lru.content m) key) with
  | some n =>
    have hf' := hf
    rw [← hcmp] at hf'
    rw [lruLookup_of_found cb pre hash key hf, lruLookup_of_found cb' pre' hash key hf']
  | none => exact absurd hm (h.no_match hf)

end lookupSpec

/-! ## Section 4: Runs of calls

    The callers hand `lru_add_free` each node once, before anything else
    touches it, and `lru_evict_node` only nodes they added. -/

/-- The nodes a call adds. -/
def lruCallAdds : LruCall N K → List N
  | .addFree node => [node]
  | _ => []

/-- A call is allowed after the nodes `added`: a fresh node for
    `lru_add_free`, an added one for `lru_evict_node`. -/
def lruCallOk (added : List N) : LruCall N K → Bool
  | .addFree node => !added.contains node
  | .evictNode node => added.contains node
  | _ => true

/-- Every call of the sequence is allowed after the nodes added before it. -/
def lruCallsOk : List N → List (LruCall N K) → Bool
  | _, [] => true
  | added, c :: cs => lruCallOk added c && lruCallsOk (added ++ lruCallAdds c) cs

/-- The nodes a sequence of calls adds, in order. -/
def lruAdded (cs : List (LruCall N K)) : List N := cs.flatMap lruCallAdds

/-- The node a lookup returns, if the call is one. -/
def lruLookedUp (cb : LruCallbacks C K) (lru : Lru N C) : LruCall N K → List N
  | .lookup hash key pre => ((lruLookup cb lru pre hash key).map Prod.fst).toList
  | _ => []

/-- The nodes the lookups of a run return, most recent first. -/
def lruHistory (cb : LruCallbacks C K) : Lru N C → List (LruCall N K) → List N
  | _, [] => []
  | lru, c :: cs =>
    match lruStep cb lru c with
    | none => []
    | some lru' => lruHistory cb lru' cs ++ lruLookedUp cb lru c

/-- What holds between calls: the invariant, the global list holds the
    nodes added, and the nodes in use are in recency order of the lookups. -/
structure LruGood (lru : Lru N C) (added hist : List N) : Prop where
  inv : LruInv lru
  perm : lru.global.Perm added
  recency : RecencyOrdered hist (lru.global.filter lru.inUse)

section runs

variable {cb : LruCallbacks C K} {lru lru' : Lru N C} {added hist : List N}

theorem LruGood.of_frees (hg : LruGood lru added hist) (hf : LruFrees lru lru') :
    LruGood lru' added hist :=
  ⟨hf.inv, hf.perm.trans hg.perm, hg.recency.sublist hf.inUse_sublist⟩

/-- The step lemma: an allowed call keeps the invariant; `lru_add_free`
    extends the nodes added, a lookup the history. -/
theorem lruStep_good (hg : LruGood lru added hist) {c : LruCall N K}
    (hok : lruCallOk added c = true) (hs : lruStep cb lru c = some lru') :
    LruGood lru' (added ++ lruCallAdds c) (lruLookedUp cb lru c ++ hist) := by
  have hinv := hg.inv
  cases c with
  | addFree node =>
    obtain rfl := Option.some.inj hs
    have hnot : node ∉ lru.global := by
      rw [hg.perm.mem_iff]
      simpa [lruCallOk] using hok
    -- the new node is free: the nodes in use are those of before
    have hfilter : (lru.global ++ [node]).filter (update lru.inUse node false) =
        lru.global.filter lru.inUse := by
      rw [List.filter_append, List.filter_singleton, update_self, cond_false, List.append_nil]
      exact List.filter_congr fun m hm => by rw [update_of_ne (by rintro rfl; exact hnot hm)]
    refine ⟨lruAddFree_inv hinv hnot, hg.perm.append_right _, ?_⟩
    show RecencyOrdered hist ((lru.global ++ [node]).filter (update lru.inUse node false))
    rw [hfilter]
    exact hg.recency
  | lookup hash key pre =>
    cases hres : lruLookup cb lru pre hash key with
    | none => simp [lruStep, hres] at hs
    | some r =>
      obtain ⟨n, lru1⟩ := r
      simp only [lruStep, hres, Option.map_some, Option.some.injEq] at hs
      subst hs
      obtain ⟨hn, hglobal, hfilter⟩ := lruLookup_lists hinv hres
      have hnot : n ∉ (lru.global.erase n).filter lru.inUse := fun hm =>
        hinv.global_nodup.not_mem_erase (List.mem_filter.mp hm).1
      refine ⟨lruLookup_inv hinv hres, ?_, ?_⟩
      · rw [hglobal]
        exact (List.perm_cons_erase hn).symm.trans (by simpa [lruCallAdds] using hg.perm)
      · rw [hfilter]
        simp only [lruLookedUp, hres, Option.map_some, Option.toList_some, List.singleton_append]
        exact (hg.recency.sublist (List.erase_sublist.filter _)).cons hnot
  | evictNode node =>
    obtain rfl := Option.some.inj hs
    have hn : node ∈ lru.global := by
      rw [hg.perm.mem_iff]
      simpa [lruCallOk] using hok
    simpa only [lruCallAdds, lruLookedUp, List.append_nil, List.nil_append] using
      hg.of_frees (lruEvictNode_frees hinv hn)
  | tryEvictOne pre =>
    obtain rfl := Option.some.inj hs
    simpa only [lruCallAdds, lruLookedUp, List.append_nil, List.nil_append] using
      hg.of_frees (lruTryEvictOne_frees hinv pre)
  | evictOne pre =>
    cases he : lruEvictOne lru pre with
    | none => simp [lruStep, he] at hs
    | some r =>
      simp only [lruStep, he, Option.map_some, Option.some.injEq] at hs
      subst hs
      simpa only [lruCallAdds, lruLookedUp, List.append_nil, List.nil_append] using
        hg.of_frees (lruEvictOne_frees hinv he)
  | flush pre =>
    -- `lru_flush` runs over all 65536 bins: keep it folded
    obtain rfl := Option.some.inj hs
    simpa only [lruCallAdds, lruLookedUp, List.append_nil, List.nil_append] using
      hg.of_frees (lruFlush_frees hinv pre)

/-- The run lemma: allowed calls keep the invariant over a whole run. -/
theorem lruRun_good (cs : List (LruCall N K)) (hg : LruGood lru added hist)
    (hok : lruCallsOk added cs = true) (hrun : lruRun cb lru cs = some lru') :
    LruGood lru' (added ++ lruAdded cs) (lruHistory cb lru cs ++ hist) := by
  induction cs generalizing lru added hist with
  | nil =>
    cases hrun
    simpa [lruAdded, lruHistory] using hg
  | cons c cs ih =>
    simp only [lruCallsOk, Bool.and_eq_true] at hok
    cases hs : lruStep cb lru c with
    | none => simp [lruRun, hs] at hrun
    | some t =>
      simp only [lruRun, hs, Option.bind_some] at hrun
      -- one step, then the rest of the run from the state it reaches
      have := ih (lruStep_good hg hok.1 hs) hok.2 hrun
      simpa [lruAdded, lruHistory, hs, List.append_assoc] using this

end runs

/-- What every run from `lru_init` keeps, item by item: the node lists,
    the use counters, and what `lru_lookup` returns. -/
structure LruRunMeets (cb : LruCallbacks C K) (cs : List (LruCall N K)) (hist : List N)
    (lru : Lru N C) : Prop where
  /-- every added node is on the global list exactly once -/
  global_perm_added : lru.global.Perm (lruAdded cs)
  global_nodup : lru.global.Nodup
  /-- a node is in use iff it is linked in a bin, and then only in the bin
      of its hash -/
  inUse_iff_binned : ∀ n ∈ lru.global, lru.inUse n = true ↔ ∃ b, n ∈ lru.bins b
  bin_of_hash : ∀ n ∈ lru.global, ∀ b, n ∈ lru.bins b → b = (lru.hash n).toNat % 65536
  numUsed_eq : lru.numUsed = lru.global.countP lru.inUse
  numFree_eq : lru.numFree = lru.global.countP fun n => !lru.inUse n
  lookup_meets : ∀ pre hash key, LookupMeets cb lru hist pre hash key (lruLookup cb lru pre hash key)
  lookup_of_match : ∀ pre hash key, (∃ m, LruMatches cb lru hash key m) →
    ∀ (cb' : LruCallbacks C K) pre', cb'.compareNodes = cb.compareNodes →
      lruLookup cb' lru pre' hash key = lruLookup cb lru pre hash key

theorem lruHashToBin_eq (hash : UInt64) : lruHashToBin hash = hash.toNat % 65536 := by
  simp [lruHashToBin, UInt64.toNat_mod]

/-- From `lru_init`, every sequence of allowed calls keeps the index of the
    cache consistent and the counters exact, and `lru_lookup` then returns
    a matching node, else a free one, else the node `pre_node_evict` lets
    go that was looked up least recently. -/
theorem lru_index_and_lookup_order (cb : LruCallbacks C K)
    (hinit : ∀ c k, cb.compareNodes (cb.initNode c k) k = false)
    (inUse : N → Bool) (hash : N → UInt64) (content : N → C) (cs : List (LruCall N K))
    (lru : Lru N C) (hcalls : lruCallsOk [] cs = true)
    (hrun : lruRun cb (lruInit inUse hash content) cs = some lru) :
    LruRunMeets cb cs (lruHistory cb (lruInit inUse hash content) cs) lru := by
  have hstart : LruGood (lruInit inUse hash content) [] [] :=
    ⟨lruInit_inv inUse hash content, List.Perm.refl _, RecencyOrdered.nil _⟩
  have hgood := lruRun_good cs hstart hcalls hrun
  rw [List.nil_append, List.append_nil] at hgood
  obtain ⟨h, hperm, ho⟩ := hgood
  -- a node linked in some bin is linked in the bin of its hash
  have hbinned : ∀ n ∈ lru.global, ∀ b, n ∈ lru.bins b → b = lruGetNodeBin lru n :=
    fun n _ b hb => (h.mem_bin b n hb).2.symm
  refine ⟨hperm, h.global_nodup, fun n hn => ⟨fun hu => ⟨_, (h.inUse_iff n hn).mp hu⟩, ?_⟩,
    fun n hn b hb => ?_, h.numUsed_eq, h.numFree_eq, fun _ _ _ => lruLookup_meets h ho hinit,
    fun _ _ _ hm cb' pre' hcmp => lruLookup_of_match h hm cb' pre' hcmp⟩
  · rintro ⟨b, hb⟩
    rw [hbinned n hn b hb] at hb
    exact (h.inUse_iff n hn).mpr hb
  · rw [hbinned n hn b hb, lruGetNodeBin, lruHashToBin_eq]

theorem lru_index_and_lookup_order_two_lookups :
    let cb : LruCallbacks Nat Nat := ⟨fun _ k => k, fun c k => c != k⟩
    let start : Lru Nat Nat := lruInit (fun _ => false) (fun _ => 0) (fun _ => 0)
    let cs : List (LruCall Nat Nat) :=
      [.addFree 1, .addFree 2, .lookup 5 7 fun _ => true, .lookup 5 8 fun _ => true]
    LruRunMeets cb cs (lruHistory cb start cs) ((lruRun cb start cs).getD start) :=
  lru_index_and_lookup_order _ (fun _ k => bne_self_eq_false k) _ _ _ _ _ rfl rfl

end Xemu.Qemu
