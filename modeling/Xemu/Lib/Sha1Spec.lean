import Mathlib
import Xemu.Lib.BlockStream

/-! # SHA-1 (FIPS 180-4), continued from any intermediate hash value

    The hash of FIPS 180-4 §6.1, started from an arbitrary intermediate
    hash value `H` that stands for a prefix of `prefixLen` bytes (a
    multiple of 64): the remaining message is padded as the end of the
    whole message (§5.1.1, the length `ℓ` counting the prefix), and its
    blocks are compressed from `H` (`hashFrom`).  With the initial hash
    value of §5.3.1 and no prefix this is SHA-1.

    The functions follow the standard: `f_t` with `⊕` (§4.1.1), the
    constants `K_t` (§4.2.1), the schedule `W_t` by its recurrence
    (§6.1.2), and the digest as the big-endian bytes of `H₀ ‖ … ‖ H₄`.
    The lemmas split the padded message into the whole blocks of the
    message and a tail of one or two blocks, and write the 64-bit length
    as four zero bytes and a 32-bit word when it is below `2 ^ 32`.

    Nothing here mentions a particular program.
-/

namespace Xemu.Sha1Spec

open Xemu.BlockStream

/-! ## Section 1: The compression function -/

/-- An intermediate hash value `H₀ … H₄`. -/
abbrev Digest := Fin 5 → UInt32

/-- `ROTL^n(x)` (§3.2) -/
def rotl (n x : UInt32) : UInt32 := (x <<< n) ||| (x >>> (32 - n))

/-- `f_t` (§4.1.1): `Ch`, `Parity`, `Maj`, `Parity`. -/
def f (t : Nat) (x y z : UInt32) : UInt32 :=
  if t ≤ 19 then (x &&& y) ^^^ (~~~x &&& z)
  else if t ≤ 39 then x ^^^ y ^^^ z
  else if t ≤ 59 then (x &&& y) ^^^ (x &&& z) ^^^ (y &&& z)
  else x ^^^ y ^^^ z

/-- `K_t` (§4.2.1) -/
def K (t : Nat) : UInt32 :=
  if t ≤ 19 then 0x5a827999
  else if t ≤ 39 then 0x6ed9eba1
  else if t ≤ 59 then 0x8f1bbcdc
  else 0xca62c1d6

/-- The message schedule `W_t` of a block of words `M` (§6.1.2, step 1). -/
def W (M : Nat → UInt32) (t : Nat) : UInt32 :=
  if t < 16 then M t
  else rotl 1 (W M (t - 3) ^^^ W M (t - 8) ^^^ W M (t - 14) ^^^ W M (t - 16))
termination_by t
decreasing_by all_goals omega

theorem W_of_lt {M : Nat → UInt32} {t : Nat} (h : t < 16) : W M t = M t := by
  rw [W, if_pos h]

theorem W_of_ge {M : Nat → UInt32} {t : Nat} (h : 16 ≤ t) :
    W M t = rotl 1 (W M (t - 3) ^^^ W M (t - 8) ^^^ W M (t - 14) ^^^ W M (t - 16)) := by
  rw [W, if_neg (by omega)]

/-- `Ch` with `∨` for `⊕`: the two conjunctions never share a bit. -/
theorem ch_or_eq_xor (x y z : UInt32) : (x &&& y) ||| (~~~x &&& z) = (x &&& y) ^^^ (~~~x &&& z) := by
  apply UInt32.toBitVec_inj.mp
  ext i hi
  simp only [UInt32.toBitVec_and, UInt32.toBitVec_or, UInt32.toBitVec_xor, UInt32.toBitVec_not,
    BitVec.getElem_and, BitVec.getElem_or, BitVec.getElem_xor, BitVec.getElem_not]
  cases x.toBitVec[i] <;> cases y.toBitVec[i] <;> cases z.toBitVec[i] <;> rfl

/-- `Maj` with `∨` for `⊕`: a bit set in two of the words is set in all
    three conjunctions or in exactly one. -/
theorem maj_or_eq_xor (x y z : UInt32) :
    (x &&& y) ||| (x &&& z) ||| (y &&& z) = (x &&& y) ^^^ (x &&& z) ^^^ (y &&& z) := by
  apply UInt32.toBitVec_inj.mp
  ext i hi
  simp only [UInt32.toBitVec_and, UInt32.toBitVec_or, UInt32.toBitVec_xor,
    BitVec.getElem_and, BitVec.getElem_or, BitVec.getElem_xor]
  cases x.toBitVec[i] <;> cases y.toBitVec[i] <;> cases z.toBitVec[i] <;> rfl

/-- The working variables `a, b, c, d, e`. -/
abbrev Vars := UInt32 × UInt32 × UInt32 × UInt32 × UInt32

/-- Round `t` (§6.1.2, step 3). -/
def compressRound (M : Nat → UInt32) (v : Vars) (t : Nat) : Vars :=
  let (a, b, c, d, e) := v
  let T := rotl 5 a + f t b c d + e + K t + W M t
  (T, a, rotl 30 b, c, d)

/-- The compression of one block of words (§6.1.2, steps 2 to 4). -/
def compress (H : Digest) (M : Nat → UInt32) : Digest :=
  let (a, b, c, d, e) := (List.range 80).foldl (compressRound M) (H 0, H 1, H 2, H 3, H 4)
  ![a + H 0, b + H 1, c + H 2, d + H 3, e + H 4]

/-! ## Section 2: Bytes, padding and the hash -/

/-- The big-endian bytes of a word. -/
def be32 (x : UInt32) : List UInt8 :=
  [(x >>> 24).toUInt8, (x >>> 16).toUInt8, (x >>> 8).toUInt8, x.toUInt8]

/-- The big-endian word of the bytes `4 i` to `4 i + 3` of a block. -/
def blockWords (b : List UInt8) (i : Nat) : UInt32 :=
  (b.getD (4 * i) 0).toUInt32 <<< 24 ||| (b.getD (4 * i + 1) 0).toUInt32 <<< 16 |||
    (b.getD (4 * i + 2) 0).toUInt32 <<< 8 ||| (b.getD (4 * i + 3) 0).toUInt32

/-- A block of bytes compressed into the hash value. -/
def compressBlock (H : Digest) (b : List UInt8) : Digest := compress H (blockWords b)

/-- The eight big-endian bytes of a 64-bit length. -/
def be64 (x : Nat) : List UInt8 :=
  (List.range 8).map fun i => UInt8.ofNat (x / 2 ^ (8 * (7 - i)))

/-- The zero bytes after the `0x80` marker for a message of `len` bytes:
    the least `k` with `len + 1 + k ≡ 56 (mod 64)`. -/
def padZeros (len : Nat) : Nat := (119 - len % 64) % 64

/-- What the padding (§5.1.1) appends to a message of `len` bytes: the
    marker, the zeros and the bit length. -/
def padTail (len : Nat) : List UInt8 := [0x80] ++ List.replicate (padZeros len) 0 ++ be64 (8 * len)

/-- The padded last `m` bytes of a message of `prefixLen + |m|` bytes. -/
def pad (prefixLen : Nat) (m : List UInt8) : List UInt8 := m ++ padTail (prefixLen + m.length)

/-- SHA-1 continued from `H`, standing for `prefixLen` bytes, over `m`. -/
def hashFrom (H : Digest) (prefixLen : Nat) (m : List UInt8) : Digest :=
  processBlocks 64 compressBlock H (pad prefixLen m) ((pad prefixLen m).length / 64)

/-- The initial hash value `H⁽⁰⁾` (§5.3.1). -/
def initialHash : Digest := ![0x67452301, 0xefcdab89, 0x98badcfe, 0x10325476, 0xc3d2e1f0]

/-- The digest `H₀ ‖ H₁ ‖ H₂ ‖ H₃ ‖ H₄` as bytes. -/
def digestBytes (H : Digest) : List UInt8 :=
  be32 (H 0) ++ be32 (H 1) ++ be32 (H 2) ++ be32 (H 3) ++ be32 (H 4)

@[simp] theorem length_digestBytes (H : Digest) : (digestBytes H).length = 20 := rfl

/-- SHA-1 of a message (§6.1). -/
def sha1 (m : List UInt8) : List UInt8 := digestBytes (hashFrom initialHash 0 m)

/-! ## Section 3: The padded message, block by block -/

theorem padZeros_add_mul (len q : Nat) : padZeros (len + 64 * q) = padZeros len := by
  simp [padZeros, Nat.add_mul_mod_self_left]

theorem length_be64 (x : Nat) : (be64 x).length = 8 := by simp [be64]

/-- The tail of the padding after the last partial block of `r` bytes:
    with the length it fills one block when `r ≤ 55`, two otherwise. -/
theorem padZeros_spec (len : Nat) :
    (len % 64 ≤ 55 → len % 64 + 1 + padZeros len + 8 = 64) ∧
      (55 < len % 64 → len % 64 + 1 + padZeros len + 8 = 128) := by
  unfold padZeros
  have := Nat.mod_lt len (show 0 < 64 by omega)
  constructor <;> intro h <;> omega

/-- A length below `2 ^ 32` is four zero bytes and its 32-bit word. -/
theorem be64_of_lt {x : Nat} (h : x < 2 ^ 32) : be64 x = [0, 0, 0, 0] ++ be32 (UInt32.ofNat x) := by
  have hhigh : ∀ e, 32 ≤ e → UInt8.ofNat (x / 2 ^ e) = 0 := fun e he => by
    rw [Nat.div_eq_of_lt (lt_of_lt_of_le h (Nat.pow_le_pow_right (by omega) he))]
    rfl
  -- the low four bytes of the 64-bit length are the bytes of the word
  have hlow : ∀ s : UInt32, s.toNat < 32 →
      UInt8.ofNat (x / 2 ^ s.toNat) = (UInt32.ofNat x >>> s).toUInt8 := by
    intro s hs
    apply UInt8.toNat_inj.mp
    simp [UInt32.toNat_shiftRight, Nat.shiftRight_eq_div_pow, Nat.mod_eq_of_lt hs]
    rw [Nat.mod_eq_of_lt (show x < 4294967296 from h)]
  simp only [be64, be32, List.range_succ, List.range_zero, List.nil_append,
    List.map_cons, List.map_nil, List.cons_append, Nat.reduceSub, Nat.reduceMul]
  rw [hhigh 56 (by omega), hhigh 48 (by omega), hhigh 40 (by omega), hhigh 32 (by omega),
    ← hlow 24 (by decide), ← hlow 16 (by decide), ← hlow 8 (by decide)]
  simp

theorem length_padTail (len : Nat) : (padTail len).length = 1 + padZeros len + 8 := by
  simp [padTail, length_be64]
  omega

/-- The hash continued over `m` is the hash of the whole blocks of `m`,
    streamed, then of the remainder with the padding: one block, or two
    when the remainder leaves no room for the length. -/
theorem hashFrom_eq_absorb (H : Digest) (prefixLen : Nat) (m : List UInt8) :
    hashFrom H prefixLen m =
      processBlocks 64 compressBlock (absorb 64 compressBlock (H, []) m).1
        ((absorb 64 compressBlock (H, []) m).2 ++ padTail (prefixLen + m.length))
        (((absorb 64 compressBlock (H, []) m).2.length + (padTail (prefixLen + m.length)).length) / 64) := by
  set q := m.length / 64 with hq
  set tail := padTail (prefixLen + m.length) with htail
  rw [absorb_eq_processBlocks 64 compressBlock (by omega)]
  dsimp only
  have htake : (m.take (64 * q)).length = 64 * q := by
    rw [List.length_take]
    exact Nat.min_eq_left (Nat.mul_div_le m.length 64)
  have hcount : (pad prefixLen m).length / 64 =
      q + ((m.drop (64 * q)).length + tail.length) / 64 := by
    have hq' : 64 * q ≤ m.length := Nat.mul_div_le m.length 64
    rw [pad, ← htail, List.length_append, List.length_drop]
    omega
  rw [hashFrom, hcount, pad, ← htail, ← List.take_append_drop (64 * q) m, List.append_assoc,
    processBlocks_append 64 compressBlock H q _ _ _ htake, List.take_append_drop,
    processBlocks_take 64 compressBlock H m q htake]

end Xemu.Sha1Spec
