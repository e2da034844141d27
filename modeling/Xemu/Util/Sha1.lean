import Mathlib
import Xemu.Lib.Sha1Spec

/-! # SHA-1 of util/sha1.c

    `SHA1Context` keeps the hash value so far (`intermediate`), the block
    being filled (`msg_blk`, with `msg_blk_index` its next free byte), the
    message length in bits as a 32-bit counter, and whether the digest has
    been padded (`computed`).  `sha1_input` buffers bytes and runs
    `sha1_process` on every full block; `sha1_result` pads once and writes
    the digest.  The block is a memory of bytes of which the first 64 are
    used; the index stays below 64, so it is a `Nat`.  The length wraps
    modulo `2 ^ 32` as in the source.  `cpu_to_be32` of a word loaded from
    or stored to `msg_blk` is read for a little-endian host: the words of a
    block are big-endian.  `sha1_input` may read from the context's own
    `msg_blk` (as `xbox_sha1_compute` does), so its source is either a
    caller's buffer or that block.

    The model refines the FIPS 180-4 hash of `Xemu.Sha1Spec`:

    * `sha1Process_intermediate`: `sha1_process` is the compression of the
      buffered block: its schedule is `W` (each step of the second loop
      keeps the words built so far equal to `W`), each round is the FIPS
      round (the `|` forms of `Ch` and `Maj`, the sums reordered);
    * `Represents`: the context holds a hash value and a partial block;
      `sha1InputByte` keeps it as the streaming buffer of
      `Xemu.BlockStream` does (`Represents.inputByte`, `Represents.input`);
    * `sha1Pad_intermediate`: padding compresses the partial block with the
      FIPS padding, in one block or two, when the bit length fits in
      32 bits;
    * `sha1Result_input`: from a represented state with no partial block,
      input and result give the hash of `Xemu.Sha1Spec.hashFrom`, and
      `sha1Input_msgBlk_eq_bytes`: input from the context's own block at
      index 0 is input of the bytes it held.
-/

namespace Xemu.Sha1

open Xemu.Sha1Spec Xemu.BlockStream

/-! ## Section 1: The model -/

/-- The arrays `intermediate[5]` and `k[4]` are not empty.  The indices
    written as literals below take these instances, so that no definition
    carries a proof term of its own. -/
theorem neZero_five : NeZero 5 := ⟨by decide⟩

theorem neZero_four : NeZero 4 := ⟨by decide⟩

attribute [local instance] neZero_five neZero_four

/-- `SHA1Context` -/
structure SHA1Context where
  /-- `intermediate[5]`: the hash value so far -/
  intermediate : Fin 5 → UInt32
  /-- `msg_blk[64]`: the block being filled -/
  msgBlk : Nat → UInt8
  /-- `msg_blk_index`: the next free byte of the block -/
  msgBlkIndex : Nat
  /-- `length`: the message length in bits, modulo `2 ^ 32` -/
  length : UInt32
  /-- `computed`: the digest has been padded -/
  computed : Bool

/-- `sha1_rotate(bits, val)` -/
def sha1Rotate (bits val : UInt32) : UInt32 := (val <<< bits) ||| (val >>> (32 - bits))

/-- `sha1_fill` -/
def sha1Fill (ctx : SHA1Context) (a b c d e : UInt32) : SHA1Context :=
  { ctx with intermediate := ![a, b, c, d, e] }

/-- The constants `k[]` of `sha1_process`. -/
def sha1K : Fin 4 → UInt32 := ![0x5A827999, 0x6ED9EBA1, 0x8F1BBCDC, 0xCA62C1D6]

/-- `cpu_to_be32(((uint32_t *)msg_blk)[i])`: word `i` of the block,
    big-endian. -/
def loadBe32 (blk : Nat → UInt8) (i : Nat) : UInt32 :=
  (blk (4 * i)).toUInt32 <<< 24 ||| (blk (4 * i + 1)).toUInt32 <<< 16 |||
    (blk (4 * i + 2)).toUInt32 <<< 8 ||| (blk (4 * i + 3)).toUInt32

/-- One iteration of the second loop of `sha1_process`. -/
def sha1ScheduleStep (w : Nat → UInt32) (i : Nat) : Nat → UInt32 :=
  Function.update w i (sha1Rotate 1 (w (i - 3) ^^^ w (i - 8) ^^^ w (i - 14) ^^^ w (i - 16)))

/-- `w[80]` of `sha1_process`: the first loop loads words 0 to 15, the
    second computes words 16 to 79. -/
def sha1Schedule (blk : Nat → UInt8) : Nat → UInt32 :=
  (List.range' 16 64).foldl sha1ScheduleStep (loadBe32 blk)

/-- One iteration of the third loop of `sha1_process`. -/
def sha1Round (w : Nat → UInt32) (v : Vars) (i : Nat) : Vars :=
  let (a, b, c, d, e) := v
  let temp := sha1Rotate 5 a + w i + e
  let temp := match i / 20 with
    | 0 => temp + (sha1K 0 + ((b &&& c) ||| (~~~b &&& d)))
    | 1 => temp + (sha1K 1 + (b ^^^ c ^^^ d))
    | 2 => temp + (sha1K 2 + ((b &&& c) ||| (b &&& d) ||| (c &&& d)))
    | 3 => temp + (sha1K 3 + (b ^^^ c ^^^ d))
    | _ => temp
  (temp, a, sha1Rotate 30 b, c, d)

/-- `sha1_process` -/
def sha1Process (ctx : SHA1Context) : SHA1Context :=
  let w := sha1Schedule ctx.msgBlk
  let h := ctx.intermediate
  let (a, b, c, d, e) := (List.range 80).foldl (sha1Round w) (h 0, h 1, h 2, h 3, h 4)
  { ctx with intermediate := ![h 0 + a, h 1 + b, h 2 + c, h 3 + d, h 4 + e], msgBlkIndex := 0 }

/-- `ctx->msg_blk[ctx->msg_blk_index++] = x` -/
def sha1PutByte (ctx : SHA1Context) (x : UInt8) : SHA1Context :=
  { ctx with msgBlk := Function.update ctx.msgBlk ctx.msgBlkIndex x,
             msgBlkIndex := ctx.msgBlkIndex + 1 }

/-- `while (ctx->msg_blk_index < n) ctx->msg_blk[ctx->msg_blk_index++] = 0;` -/
def sha1ZeroTo (n : Nat) (ctx : SHA1Context) : SHA1Context :=
  (fun c => sha1PutByte c 0)^[n - ctx.msgBlkIndex] ctx

/-- `*(uint32_t *)&msg_blk[off] = cpu_to_be32(x)`: the bytes of `x`, most
    significant first. -/
def storeBe32 (blk : Nat → UInt8) (off : Nat) (x : UInt32) : Nat → UInt8 :=
  fun i => if off ≤ i ∧ i < off + 4 then (x >>> (8 * (3 - (i - off))).toUInt32).toUInt8 else blk i

/-- `sha1_pad`; the store of `0` at byte 56 is four zero bytes. -/
def sha1Pad (ctx : SHA1Context) : SHA1Context :=
  let ctx := sha1PutByte ctx 0x80
  let ctx := if ctx.msgBlkIndex > 56 then sha1Process (sha1ZeroTo 64 ctx) else ctx
  let ctx := sha1ZeroTo 56 ctx
  let ctx := { ctx with msgBlk := storeBe32 (storeBe32 ctx.msgBlk 56 0) 60 ctx.length }
  sha1Process ctx

/-- The `data` argument of `sha1_input`: a caller's buffer, or the
    context's own `msg_blk`. -/
inductive Sha1Source where
  | bytes (data : List UInt8)
  | msgBlk

/-- `data[i]`, read when the loop of `sha1_input` reaches byte `i`. -/
def Sha1Source.read : Sha1Source → SHA1Context → Nat → UInt8
  | .bytes data, _, i => data.getD i 0
  | .msgBlk, ctx, i => ctx.msgBlk i

/-- One iteration of the loop of `sha1_input`. -/
def sha1InputByte (ctx : SHA1Context) (x : UInt8) : SHA1Context :=
  let ctx := sha1PutByte ctx x
  if ctx.msgBlkIndex = 64 then sha1Process ctx else ctx

/-- `sha1_input(ctx, data, len)` -/
def sha1Input (ctx : SHA1Context) (data : Sha1Source) (len : Nat) : SHA1Context :=
  (List.range len).foldl (fun ctx i => sha1InputByte ctx (data.read ctx i))
    { ctx with length := ctx.length + UInt32.ofNat (len <<< 3) }

/-- `sha1_result(ctx, data)`: the context after it and the 20 bytes it
    writes to `data`. -/
def sha1Result (ctx : SHA1Context) : SHA1Context × List UInt8 :=
  let ctx := if !ctx.computed then { sha1Pad ctx with length := 0, computed := true } else ctx
  (ctx, (List.range 20).map fun i =>
    (ctx.intermediate (Fin.ofNat 5 (i >>> 2)) >>> (8 * (3 - (i &&& 3))).toUInt32).toUInt8)

/-- `sha1_reset` -/
def sha1Reset (ctx : SHA1Context) : SHA1Context :=
  { sha1Fill ctx 0x67452301 0xEFCDAB89 0x98BADCFE 0x10325476 0xC3D2E1F0 with
    msgBlkIndex := 0, computed := false, length := 0 }

@[simp] theorem sha1PutByte_intermediate (ctx : SHA1Context) (x : UInt8) :
    (sha1PutByte ctx x).intermediate = ctx.intermediate := rfl

@[simp] theorem sha1PutByte_length (ctx : SHA1Context) (x : UInt8) :
    (sha1PutByte ctx x).length = ctx.length := rfl

@[simp] theorem sha1PutByte_computed (ctx : SHA1Context) (x : UInt8) :
    (sha1PutByte ctx x).computed = ctx.computed := rfl

@[simp] theorem sha1PutByte_msgBlkIndex (ctx : SHA1Context) (x : UInt8) :
    (sha1PutByte ctx x).msgBlkIndex = ctx.msgBlkIndex + 1 := rfl

@[simp] theorem sha1Process_msgBlk (ctx : SHA1Context) : (sha1Process ctx).msgBlk = ctx.msgBlk := rfl

@[simp] theorem sha1Process_msgBlkIndex (ctx : SHA1Context) : (sha1Process ctx).msgBlkIndex = 0 := rfl

@[simp] theorem sha1Process_length (ctx : SHA1Context) : (sha1Process ctx).length = ctx.length := rfl

@[simp] theorem sha1Process_computed (ctx : SHA1Context) :
    (sha1Process ctx).computed = ctx.computed := rfl

theorem sha1Rotate_eq_rotl : sha1Rotate = rotl := rfl

/-! ## Section 2: `sha1_process` is the FIPS compression -/

/-- The memory `blk` holds the bytes `b` from address 0. -/
def BufferHolds (blk : Nat → UInt8) (b : List UInt8) : Prop := ∀ i (h : i < b.length), blk i = b[i]

theorem bufferHolds_nil (blk : Nat → UInt8) : BufferHolds blk [] := fun _ h => absurd h (by simp)

/-- Region by region: a memory that keeps the bytes of `b` and holds `ys`
    after them holds `b ++ ys`. -/
theorem BufferHolds.append {blk blk' : Nat → UInt8} {b : List UInt8} (ys : List UInt8)
    (hb : BufferHolds blk b) (hkeep : ∀ i < b.length, blk' i = blk i)
    (hys : ∀ i (h : i < ys.length), blk' (b.length + i) = ys[i]) : BufferHolds blk' (b ++ ys) := by
  intro i hi
  by_cases hib : i < b.length
  · rw [List.getElem_append_left hib, hkeep i hib, hb i hib]
  · have hiy : i - b.length < ys.length := by simp at hi; omega
    rw [List.getElem_append_right (by omega), ← hys _ hiy, Nat.add_sub_cancel' (by omega)]

/-- Writing a byte at the end of the held bytes. -/
theorem BufferHolds.update {blk : Nat → UInt8} {b : List UInt8} (hb : BufferHolds blk b) (x : UInt8) :
    BufferHolds (Function.update blk b.length x) (b ++ [x]) := by
  refine hb.append [x] (fun i hi => Function.update_of_ne (by omega) _ _) ?_
  intro i hi
  obtain rfl : i = 0 := by simpa using hi
  simp

theorem loadBe32_eq_blockWords {blk : Nat → UInt8} {b : List UInt8} (hb : BufferHolds blk b)
    (hlen : b.length = 64) {i : Nat} (hi : i < 16) : loadBe32 blk i = blockWords b i := by
  have hget : ∀ j < 64, blk j = b.getD j 0 := fun j hj => by
    rw [hb j (by omega), List.getD_eq_getElem]
  rw [loadBe32, blockWords, hget _ (by omega), hget _ (by omega), hget _ (by omega), hget _ (by omega)]

/-- The second loop keeps every word it has built equal to `W`: after
    `j` steps, words `0` to `15 + j`. -/
theorem sha1Schedule_agrees {blk : Nat → UInt8} {M : Nat → UInt32} (hM : ∀ i < 16, loadBe32 blk i = M i)
    (j : Nat) : ∀ t < 16 + j, (List.range' 16 j).foldl sha1ScheduleStep (loadBe32 blk) t = W M t := by
  induction j with
  | zero =>
    intro t ht
    rw [W_of_lt ht]
    exact hM t ht
  | succ j ih =>
    intro t ht
    rw [List.range'_concat, Nat.one_mul, List.foldl_append, List.foldl_cons, List.foldl_nil,
      sha1ScheduleStep]
    by_cases htj : t = 16 + j
    · -- the new word is built from four earlier ones, already equal to `W`
      subst htj
      rw [Function.update_self, W_of_ge (by omega), ih _ (by omega), ih _ (by omega),
        ih _ (by omega), ih _ (by omega), sha1Rotate_eq_rotl]
    · rw [Function.update_of_ne htj]
      exact ih t (by omega)

theorem sha1Schedule_eq_W {blk : Nat → UInt8} {M : Nat → UInt32} (hM : ∀ i < 16, loadBe32 blk i = M i)
    {t : Nat} (ht : t < 80) : sha1Schedule blk t = W M t :=
  sha1Schedule_agrees hM 64 t ht

/-- Each round of the source is the FIPS round: `Ch` and `Maj` with `|`,
    and the five terms summed in another order. -/
theorem sha1Round_eq_compressRound {w M : Nat → UInt32} {i : Nat} (hi : i < 80) (hw : w i = W M i)
    (v : Vars) : sha1Round w v i = compressRound M v i := by
  obtain ⟨a, b, c, d, e⟩ := v
  simp only [sha1Round, compressRound, f, K, hw, sha1Rotate_eq_rotl]
  have hsum : ∀ x y : UInt32, rotl 5 a + W M i + e + (x + y) = rotl 5 a + y + e + x + W M i := by
    intro x y
    ac_rfl
  -- the case of the switch on `i / 20` is the range of `t` in `f_t` and `K_t`
  rcases (by omega : i / 20 = 0 ∧ i ≤ 19 ∨ i / 20 = 1 ∧ ¬i ≤ 19 ∧ i ≤ 39 ∨
      i / 20 = 2 ∧ ¬i ≤ 19 ∧ ¬i ≤ 39 ∧ i ≤ 59 ∨ i / 20 = 3 ∧ ¬i ≤ 19 ∧ ¬i ≤ 39 ∧ ¬i ≤ 59) with
    ⟨h20, h⟩ | ⟨h20, h⟩ | ⟨h20, h⟩ | ⟨h20, h⟩
  · simp [h20, h, ch_or_eq_xor, hsum, sha1K]
  · simp [h20, h, hsum, sha1K]
  · simp [h20, h, maj_or_eq_xor, hsum, sha1K]
  · simp [h20, h, hsum, sha1K]

/-- `sha1_process` adds the compression of the block it holds to the hash
    value. -/
theorem sha1Process_intermediate (ctx : SHA1Context) {b : List UInt8} (hlen : b.length = 64)
    (hb : BufferHolds ctx.msgBlk b) : (sha1Process ctx).intermediate = compressBlock ctx.intermediate b := by
  have hrounds : ∀ v : Vars, (List.range 80).foldl (sha1Round (sha1Schedule ctx.msgBlk)) v =
      (List.range 80).foldl (compressRound (blockWords b)) v := by
    intro v
    apply List.foldl_ext
    intro v i hi
    have hi : i < 80 := List.mem_range.mp hi
    exact sha1Round_eq_compressRound hi
      (sha1Schedule_eq_W (fun j hj => loadBe32_eq_blockWords hb hlen hj) hi) v
  simp only [sha1Process, compressBlock, compress, hrounds]
  generalize (List.range 80).foldl (compressRound (blockWords b)) _ = v
  obtain ⟨a, b', c, d, e⟩ := v
  funext j
  fin_cases j <;> simp [add_comm]

/-! ## Section 3: Input is the streaming buffer -/

/-- The context holds the hash value `sb.1` and the partial block `sb.2`. -/
structure Represents (ctx : SHA1Context) (sb : Digest × List UInt8) : Prop where
  intermediate_eq : ctx.intermediate = sb.1
  index_eq : ctx.msgBlkIndex = sb.2.length
  length_lt : sb.2.length < 64
  buffer : BufferHolds ctx.msgBlk sb.2

/-- One byte of `sha1_input` is one byte of the streaming buffer. -/
theorem Represents.inputByte {ctx : SHA1Context} {sb : Digest × List UInt8} (h : Represents ctx sb)
    (x : UInt8) : Represents (sha1InputByte ctx x) (absorbByte 64 compressBlock sb x) := by
  obtain ⟨s, p⟩ := sb
  have hput : BufferHolds (sha1PutByte ctx x).msgBlk (p ++ [x]) := by
    simpa [sha1PutByte, h.index_eq] using h.buffer.update x
  have hidx : (sha1PutByte ctx x).msgBlkIndex = p.length + 1 := by simp [h.index_eq]
  simp only [sha1InputByte, absorbByte, hidx]
  by_cases hfull : p.length + 1 = 64
  · -- the block is full: `sha1_process` compresses it and empties the buffer
    rw [if_pos hfull, if_pos hfull]
    refine ⟨?_, by simp, by simp, bufferHolds_nil _⟩
    rw [sha1Process_intermediate _ (by simpa using hfull) hput, sha1PutByte_intermediate,
      h.intermediate_eq]
  · have hlt : p.length < 64 := h.length_lt
    rw [if_neg hfull, if_neg hfull]
    exact ⟨h.intermediate_eq, by simpa using hidx, by simp; omega, hput⟩

/-- The run of `sha1_input`'s loop over a list of bytes is `absorb`. -/
theorem Represents.input {ctx : SHA1Context} {sb : Digest × List UInt8} (h : Represents ctx sb)
    (xs : List UInt8) : Represents (xs.foldl sha1InputByte ctx) (absorb 64 compressBlock sb xs) := by
  induction xs generalizing ctx sb with
  | nil => exact h
  | cons x xs ih => exact ih (h.inputByte x)

@[simp] theorem sha1InputByte_length (ctx : SHA1Context) (x : UInt8) :
    (sha1InputByte ctx x).length = ctx.length := by
  unfold sha1InputByte
  dsimp only
  split <;> rfl

@[simp] theorem sha1InputByte_computed (ctx : SHA1Context) (x : UInt8) :
    (sha1InputByte ctx x).computed = ctx.computed := by
  unfold sha1InputByte
  dsimp only
  split <;> rfl

theorem foldl_sha1InputByte_length (ctx : SHA1Context) (xs : List UInt8) :
    (xs.foldl sha1InputByte ctx).length = ctx.length := by
  induction xs generalizing ctx with
  | nil => rfl
  | cons x xs ih => rw [List.foldl_cons, ih, sha1InputByte_length]

theorem foldl_sha1InputByte_computed (ctx : SHA1Context) (xs : List UInt8) :
    (xs.foldl sha1InputByte ctx).computed = ctx.computed := by
  induction xs generalizing ctx with
  | nil => rfl
  | cons x xs ih => rw [List.foldl_cons, ih, sha1InputByte_computed]

/-- `sha1_input` from a caller's buffer feeds its bytes in order. -/
theorem sha1Input_bytes (ctx : SHA1Context) (data : List UInt8) :
    sha1Input ctx (.bytes data) data.length =
      data.foldl sha1InputByte { ctx with length := ctx.length + UInt32.ofNat (data.length <<< 3) } := by
  have hbytes : (List.range data.length).map (fun i => data.getD i 0) = data := by
    apply List.ext_getElem (by simp)
    intro i h₁ h₂
    simp [List.getElem?_eq_getElem h₂]
  calc sha1Input ctx (.bytes data) data.length
      = ((List.range data.length).map (fun i => data.getD i 0)).foldl sha1InputByte
          { ctx with length := ctx.length + UInt32.ofNat (data.length <<< 3) } := by
        rw [List.foldl_map]
        rfl
    _ = _ := by rw [hbytes]

/-- From index 0, input whose every byte is the one already at its place
    in the block leaves the block as it is and only moves the index. -/
theorem sha1Input_rewrite_block (ctx : SHA1Context) (src : Sha1Source) (len : Nat)
    (hidx : ctx.msgBlkIndex = 0) (hlen : len < 64)
    (hread : ∀ c : SHA1Context, c.msgBlk = ctx.msgBlk → ∀ i < len, src.read c i = ctx.msgBlk i) :
    sha1Input ctx src len =
      { ctx with length := ctx.length + UInt32.ofNat (len <<< 3), msgBlkIndex := len } := by
  -- after `j` bytes only the index has moved
  have hrun : ∀ j ≤ len, (List.range j).foldl (fun c i => sha1InputByte c (src.read c i))
      { ctx with length := ctx.length + UInt32.ofNat (len <<< 3) } =
        { ctx with length := ctx.length + UInt32.ofNat (len <<< 3), msgBlkIndex := j } := by
    intro j hj
    induction j with
    | zero => simp [hidx]
    | succ j ih =>
      rw [List.range_succ, List.foldl_append, ih (by omega), List.foldl_cons, List.foldl_nil,
        hread { ctx with length := _, msgBlkIndex := j } rfl j (by omega)]
      simp only [sha1InputByte, sha1PutByte, Function.update_eq_self]
      rw [if_neg (by omega)]
  exact hrun len le_rfl

/-- `sha1_input` from the context's own block at index 0 reads the bytes
    the block held before: the aliasing of `data` and `msg_blk` in
    `xbox_sha1_compute` is harmless. -/
theorem sha1Input_msgBlk_eq_bytes (ctx : SHA1Context) (len : Nat) (hidx : ctx.msgBlkIndex = 0)
    (hlen : len < 64) :
    sha1Input ctx .msgBlk len = sha1Input ctx (.bytes ((List.range len).map ctx.msgBlk)) len := by
  rw [sha1Input_rewrite_block ctx .msgBlk len hidx hlen (fun c hc i _ => by rw [Sha1Source.read, hc]),
    sha1Input_rewrite_block ctx _ len hidx hlen (fun c _ i hi => by simp [Sha1Source.read, hi])]

/-! ## Section 4: Padding and the digest -/

/-- `j` zero bytes written from the index on. -/
theorem putZeros_iterate (j : Nat) (ctx : SHA1Context) :
    (fun c => sha1PutByte c 0)^[j] ctx =
      { ctx with
        msgBlk := fun i => if ctx.msgBlkIndex ≤ i ∧ i < ctx.msgBlkIndex + j then 0 else ctx.msgBlk i,
        msgBlkIndex := ctx.msgBlkIndex + j } := by
  induction j with
  | zero =>
    obtain ⟨h, blk, idx, len, comp⟩ := ctx
    simp only [Function.iterate_zero, id_eq, Nat.add_zero, SHA1Context.mk.injEq, true_and, and_true]
    funext i
    exact (if_neg (by omega)).symm
  | succ j ih =>
    rw [Function.iterate_succ_apply', ih]
    simp only [sha1PutByte, SHA1Context.mk.injEq, true_and, and_true]
    constructor
    · funext i
      by_cases hi : i = ctx.msgBlkIndex + j
      · simp [hi]
      · rw [Function.update_of_ne hi]
        congr 1
        apply propext
        omega
    · omega

/-- Zeros written after the held bytes are held after them. -/
theorem BufferHolds.zeros {blk : Nat → UInt8} {b : List UInt8} (hb : BufferHolds blk b) (j : Nat) :
    BufferHolds (fun i => if b.length ≤ i ∧ i < b.length + j then 0 else blk i)
      (b ++ List.replicate j 0) := by
  refine hb.append _ (fun i hi => if_neg (by omega)) ?_
  intro i hi
  rw [if_pos (by simp at hi; omega), List.getElem_replicate]

theorem sha1ZeroTo_eq (n : Nat) (ctx : SHA1Context) :
    sha1ZeroTo n ctx =
      { ctx with
        msgBlk := fun i => if ctx.msgBlkIndex ≤ i ∧ i < ctx.msgBlkIndex + (n - ctx.msgBlkIndex) then 0
          else ctx.msgBlk i,
        msgBlkIndex := ctx.msgBlkIndex + (n - ctx.msgBlkIndex) } :=
  putZeros_iterate _ ctx

/-- The padding's zeros up to byte `n`. -/
theorem sha1ZeroTo_holds {ctx : SHA1Context} {b : List UInt8} (hb : BufferHolds ctx.msgBlk b)
    (hidx : ctx.msgBlkIndex = b.length) {n : Nat} (hn : b.length ≤ n) :
    BufferHolds (sha1ZeroTo n ctx).msgBlk (b ++ List.replicate (n - b.length) 0) ∧
      (sha1ZeroTo n ctx).msgBlkIndex = n := by
  rw [sha1ZeroTo_eq, hidx]
  exact ⟨hb.zeros _, by dsimp only; omega⟩

@[simp] theorem sha1ZeroTo_intermediate (n : Nat) (ctx : SHA1Context) :
    (sha1ZeroTo n ctx).intermediate = ctx.intermediate := by
  rw [sha1ZeroTo_eq]

@[simp] theorem sha1ZeroTo_length (n : Nat) (ctx : SHA1Context) :
    (sha1ZeroTo n ctx).length = ctx.length := by
  rw [sha1ZeroTo_eq]

/-- The last eight bytes of the padding: four zeros, then the length. -/
theorem BufferHolds.storeLength {blk : Nat → UInt8} {b : List UInt8} (hb : BufferHolds blk b)
    (hlen : b.length = 56) (x : UInt32) :
    BufferHolds (storeBe32 (storeBe32 blk 56 0) 60 x) (b ++ ([0, 0, 0, 0] ++ be32 x)) := by
  rw [← List.append_assoc]
  have hzero : BufferHolds (storeBe32 (storeBe32 blk 56 0) 60 x) (b ++ [0, 0, 0, 0]) := by
    refine hb.append _ (fun i hi => ?_) (fun i hi => ?_)
    · simp only [storeBe32]
      rw [if_neg (by omega), if_neg (by omega)]
    · simp only [List.length_cons, List.length_nil] at hi
      interval_cases i <;> simp [storeBe32, hlen]
  refine hzero.append _ (fun _ _ => rfl) (fun i hi => ?_)
  simp only [be32, List.length_cons, List.length_nil] at hi
  simp only [List.length_append, hlen, List.length_cons, List.length_nil]
  interval_cases i <;> rfl

/-- The last block of the padding: zeros up to byte 56, then the 64-bit
    length, compressed. -/
theorem sha1Pad_last {ctx : SHA1Context} {b : List UInt8} (hb : BufferHolds ctx.msgBlk b)
    (hidx : ctx.msgBlkIndex = b.length) (hl : b.length ≤ 56) :
    (sha1Process { sha1ZeroTo 56 ctx with
      msgBlk := storeBe32 (storeBe32 (sha1ZeroTo 56 ctx).msgBlk 56 0) 60 (sha1ZeroTo 56 ctx).length }).intermediate =
      compressBlock ctx.intermediate (b ++ List.replicate (56 - b.length) 0 ++ ([0, 0, 0, 0] ++ be32 ctx.length)) := by
  obtain ⟨hz, -⟩ := sha1ZeroTo_holds hb hidx hl
  rw [sha1Process_intermediate _ (by simp [be32]; omega) (hz.storeLength (by simp; omega) _)]
  simp

/-- `sha1_pad` compresses the partial block with the FIPS padding of a
    message of `len` bytes, whose bit length the context counts: one block
    when the marker leaves room for the length, two otherwise. -/
theorem sha1Pad_intermediate {ctx : SHA1Context} {s : Digest} {p : List UInt8} (h : Represents ctx (s, p))
    {len : Nat} (hlen : ctx.length = UInt32.ofNat (8 * len)) (hbound : 8 * len < 2 ^ 32)
    (hmod : len % 64 = p.length) :
    (sha1Pad ctx).intermediate =
      processBlocks 64 compressBlock s (p ++ padTail len) ((p.length + (padTail len).length) / 64) := by
  have hp : p.length < 64 := h.length_lt
  have hz := padZeros_spec len
  rw [hmod] at hz
  have htail : padTail len =
      ([0x80] : List UInt8) ++ List.replicate (padZeros len) 0 ++ ([0, 0, 0, 0] ++ be32 ctx.length) := by
    rw [padTail, hlen, be64_of_lt hbound]
  have hput : BufferHolds (sha1PutByte ctx 0x80).msgBlk (p ++ [0x80]) := by
    simpa [sha1PutByte, h.index_eq] using h.buffer.update 0x80
  have hidx : (sha1PutByte ctx 0x80).msgBlkIndex = (p ++ [0x80]).length := by simp [h.index_eq]
  unfold sha1Pad
  dsimp only
  by_cases hfit : p.length ≤ 55
  · -- the length fits after the marker: one block
    rw [if_neg (by simp [h.index_eq]; omega), sha1Pad_last hput hidx (by simp; omega),
      sha1PutByte_length, sha1PutByte_intermediate, h.intermediate_eq]
    have hcount : (p.length + (padTail len).length) / 64 = 1 := by
      rw [length_padTail]
      omega
    rw [hcount, processBlocks_one 64 compressBlock _ _ (by rw [List.length_append, length_padTail]; omega),
      htail, show padZeros len = 56 - (p ++ [0x80]).length by simp; omega]
    simp only [List.append_assoc]
  · -- no room for the length: the marker's block, then zeros and the length
    have hzero := sha1ZeroTo_holds hput hidx (by simp; omega)
    rw [if_pos (by simp [h.index_eq]; omega),
      sha1Pad_last (bufferHolds_nil _) (sha1Process_msgBlkIndex _) (by simp), sha1Process_length,
      sha1ZeroTo_length, sha1PutByte_length,
      sha1Process_intermediate _ (by simp; omega) hzero.1, sha1ZeroTo_intermediate,
      sha1PutByte_intermediate, h.intermediate_eq]
    have hcount : (p.length + (padTail len).length) / 64 = 1 + 1 := by
      rw [length_padTail]
      omega
    have hfirst : (p ++ ([0x80] : List UInt8) ++ List.replicate (64 - (p ++ [0x80]).length) (0 : UInt8)).length = 64 * 1 := by
      simp
      omega
    rw [hcount, htail, show padZeros len = (64 - (p ++ [0x80]).length) + 56 by simp; omega,
      List.replicate_add]
    have hsplit : p ++ (([0x80] : List UInt8) ++
        (List.replicate (64 - (p ++ [0x80]).length) 0 ++ List.replicate 56 0) ++
        ([0, 0, 0, 0] ++ be32 ctx.length)) =
        (p ++ [0x80] ++ List.replicate (64 - (p ++ [0x80]).length) 0) ++
          (List.replicate 56 0 ++ ([0, 0, 0, 0] ++ be32 ctx.length)) := by
      simp only [List.append_assoc]
    rw [hsplit, processBlocks_append 64 compressBlock s 1 1 _ _ hfirst,
      processBlocks_one 64 compressBlock _ _ (by simp [be32]),
      processBlocks_one 64 compressBlock _ _ (by simpa using hfirst)]
    simp

/-- The twenty bytes `sha1_result` writes are the digest of the hash
    value. -/
theorem sha1Result_bytes (H : Digest) :
    ((List.range 20).map fun i =>
      (H (Fin.ofNat 5 (i >>> 2)) >>> (8 * (3 - (i &&& 3))).toUInt32).toUInt8) = digestBytes H := by
  -- the word and the shift of each of the twenty bytes evaluate
  rfl

@[simp] theorem length_sha1Result_snd (ctx : SHA1Context) : (sha1Result ctx).2.length = 20 := by
  simp [sha1Result]

theorem sha1Result_snd (ctx : SHA1Context) (hc : ctx.computed = false) :
    (sha1Result ctx).2 = digestBytes (sha1Pad ctx).intermediate := by
  simp only [sha1Result, hc]
  exact sha1Result_bytes _

/-- The 32-bit counter after `sha1_input` of `m` from `8 n`. -/
theorem length_add_shiftLeft (n : Nat) (m : List UInt8) :
    UInt32.ofNat (8 * n) + UInt32.ofNat (m.length <<< 3) = UInt32.ofNat (8 * (n + m.length)) := by
  rw [Nat.shiftLeft_eq, ← UInt32.ofNat_add]
  congr 1
  ring

/-- From a context that holds the hash value `H` of `n` bytes (a multiple
    of 64) and no partial block, `sha1_input` of `m` and `sha1_result` give
    the hash continued over `m`, as long as the bit length of the whole
    message fits the 32-bit counter. -/
theorem sha1Result_input {ctx : SHA1Context} {H : Digest} (h : Represents ctx (H, []))
    (hc : ctx.computed = false) {n : Nat} (hlen : ctx.length = UInt32.ofNat (8 * n)) (hn : n % 64 = 0)
    (m : List UInt8) (hbound : 8 * (n + m.length) < 2 ^ 32) :
    (sha1Result (sha1Input ctx (.bytes m) m.length)).2 = digestBytes (hashFrom H n m) := by
  have hrep := (show Represents { ctx with length := ctx.length + UInt32.ofNat (m.length <<< 3) } (H, [])
    from ⟨h.intermediate_eq, h.index_eq, h.length_lt, h.buffer⟩).input m
  -- the buffer keeps the bytes past the last whole block
  have hmod : (n + m.length) % 64 = (absorb 64 compressBlock (H, []) m).2.length := by
    rw [absorb_eq_processBlocks 64 compressBlock (by omega), List.length_drop, Nat.add_mod, hn,
      Nat.zero_add, Nat.mod_mod, Nat.mod_eq_sub_mul_div]
  have hlen' : (m.foldl sha1InputByte { ctx with length := ctx.length + UInt32.ofNat (m.length <<< 3) }).length =
      UInt32.ofNat (8 * (n + m.length)) := by
    rw [foldl_sha1InputByte_length]
    dsimp only
    rw [hlen, length_add_shiftLeft]
  rw [sha1Input_bytes, sha1Result_snd _ (by rw [foldl_sha1InputByte_computed]; exact hc),
    sha1Pad_intermediate hrep hlen' hbound hmod, hashFrom_eq_absorb]
  rfl

/-- `sha1_reset`, `sha1_input` and `sha1_result` compute SHA-1 of messages
    shorter than `2 ^ 29` bytes. -/
theorem sha1_reset_input_result (ctx : SHA1Context) (m : List UInt8) (hbound : 8 * m.length < 2 ^ 32) :
    (sha1Result (sha1Input (sha1Reset ctx) (.bytes m) m.length)).2 = sha1 m := by
  have h : Represents (sha1Reset ctx) (initialHash, []) := by
    refine ⟨?_, rfl, by simp, bufferHolds_nil _⟩
    funext j
    fin_cases j <;> rfl
  rw [sha1Result_input h rfl (n := 0) rfl rfl m (by simpa using hbound), sha1]

example : (sha1Result (sha1Input (sha1Reset ⟨fun _ => 0, fun _ => 0, 0, 0, false⟩)
    (.bytes [0x61, 0x62, 0x63]) 3)).2 =
      [0xa9, 0x99, 0x3e, 0x36, 0x47, 0x06, 0x81, 0x6a, 0xba, 0x3e,
       0x25, 0x71, 0x78, 0x50, 0xc2, 0x6c, 0x9c, 0xd0, 0xd8, 0x9d] := by
  decide +kernel

end Xemu.Sha1
