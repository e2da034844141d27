import Mathlib
import Xemu.Lib.Deposit
import Xemu.Lib.Loop
import Xemu.Lib.Memory

/-! # Swizzled (Z-order) textures

    A model of hw/xbox/nv2a/pgraph/swizzle.c.  `generate_swizzle_masks`
    interleaves the address bits of the three axes of a `width × height ×
    depth` box (each a power of two) into three disjoint masks, and the two
    copy loops walk the box in linear order while stepping each axis'
    swizzled offset by the masked increment `off = (off - mask) & mask`.

    The model keeps the code's arithmetic: masks and offsets are `UInt32`,
    the products `y * row_pitch`, `x * bytes_per_pixel` and
    `(off_y + off_z) * bytes_per_pixel` are 32-bit unsigned products, and
    pointers are natural numbers (the buffers are flat memories indexed
    from their base).  The mask loop, which does not stop for a dimension
    above `2 ^ 31`, runs on fuel.

    The results:
    - for a `2 ^ a × 2 ^ b × 2 ^ c` box with `a + b + c ≤ 32` the masks are
      disjoint, fill the low `a + b + c` bits and give each axis its own
      number of bits (`generateSwizzleMasks_spec`);
    - each loop nest is one `copyAll` over the texels in loop order, with
      the offset of an axis after `i` steps equal to the deposit of `i`
      into its mask (`boxInternal_eq`, `axisOffset_toNat`);
    - a swizzle followed by an unswizzle gives back every texel, and the
      unswizzle writes nothing but texels, when the whole swizzled box
      fits in 32-bit byte offsets; without that bound the 32-bit product
      `(off_y + off_z) * bytes_per_pixel` wraps and two texels share
      swizzled bytes.
-/

namespace Xemu.Nv2a

open Xemu.Deposit Xemu.Loop Xemu.Memory

/-! ## Section 1: The interleaving masks -/

/-- The locals of the loop of `generate_swizzle_masks`. -/
structure MaskState where
  x : UInt32
  y : UInt32
  z : UInt32
  bit : UInt32
  maskBit : UInt32
  deriving DecidableEq, Repr

/-- `if (bit < dim) { v |= mask_bit; mask_bit <<= 1; }`: hand the next
    address bit to one axis while it still needs bits. -/
def takeBit (bit dim v maskBit : UInt32) : UInt32 × UInt32 :=
  if bit < dim then (v ||| maskBit, maskBit <<< 1) else (v, maskBit)

/-- One pass of the body of the `do ... while (!done)` loop; the flag
    returned is `done`. -/
def maskIteration (width height depth : UInt32) (s : MaskState) : MaskState × Bool :=
  let rx := takeBit s.bit width s.x s.maskBit
  let ry := takeBit s.bit height s.y rx.2
  let rz := takeBit s.bit depth s.z ry.2
  ({ x := rx.1, y := ry.1, z := rz.1, bit := s.bit <<< 1, maskBit := rz.2 },
    !(decide (s.bit < width) || decide (s.bit < height) || decide (s.bit < depth)))

/-- The `do ... while (!done)` loop, for at most `fuel` passes. -/
def maskLoop (width height depth : UInt32) : Nat → MaskState → Option MaskState
  | 0, _ => none
  | fuel + 1, s =>
    let r := maskIteration width height depth s
    if r.2 then some r.1 else maskLoop width height depth fuel r.1

/-- `generate_swizzle_masks`, returning `(mask_x, mask_y, mask_z)`.  A
    loop still running after 32 passes has shifted `bit` out to `0` with
    some `dim > 2 ^ 31`, so `bit < dim` holds from then on and it never
    stops; `none` stands for that and for a failed `assert`. -/
def generateSwizzleMasks (width height depth : UInt32) : Option (UInt32 × UInt32 × UInt32) :=
  match maskLoop width height depth 32 ⟨0, 0, 0, 1, 1⟩ with
  | some s => if s.x ^^^ s.y ^^^ s.z = s.maskBit - 1 then some (s.x, s.y, s.z) else none
  | none => none

-- the source's own example: an `8 × 32` texture is `yyyxyxyx`
example : generateSwizzleMasks 8 32 1 = some (0x15, 0xEA, 0) := by decide

/-! ## Section 2: The masks partition the low address bits

    The loop invariant, in `Nat`: after `i` passes the axes hold
    `min i a`, `min i b` and `min i c` bits of a `2 ^ a × 2 ^ b × 2 ^ c`
    box, disjoint and filling the low bits in the order handed out. -/

/-- Three bit-disjoint numbers that together fill the low `n` bits. -/
structure Partition (n x y z : Nat) : Prop where
  sum : x + y + z = 2 ^ n - 1
  xy : x &&& y = 0
  xz : x &&& z = 0
  yz : y &&& z = 0

namespace Partition

variable {n x y z : Nat}

theorem lt_x (h : Partition n x y z) : x < 2 ^ n := by
  have := h.sum; have := Nat.two_pow_pos n; omega

theorem lt_y (h : Partition n x y z) : y < 2 ^ n := by
  have := h.sum; have := Nat.two_pow_pos n; omega

theorem lt_z (h : Partition n x y z) : z < 2 ^ n := by
  have := h.sum; have := Nat.two_pow_pos n; omega

theorem swap_xy (h : Partition n x y z) : Partition n y x z where
  sum := by have := h.sum; omega
  xy := by rw [Nat.and_comm]; exact h.xy
  xz := h.yz
  yz := h.xz

theorem swap_xz (h : Partition n x y z) : Partition n z y x where
  sum := by have := h.sum; omega
  xy := by rw [Nat.and_comm]; exact h.yz
  xz := by rw [Nat.and_comm]; exact h.xz
  yz := by rw [Nat.and_comm]; exact h.xy

/-- Hand bit `n` to `x` when `g = 1`; nothing changes when `g = 0`. -/
theorem grant_x (h : Partition n x y z) (g : Nat) (hg : g ≤ 1) :
    Partition (n + g) (x + g * 2 ^ n) y z := by
  obtain rfl | rfl : g = 0 ∨ g = 1 := by omega
  · simpa using h
  · have hx := h.lt_x
    rw [Nat.one_mul, Nat.add_comm x]
    refine ⟨?_, two_pow_add_and_eq_zero n x y hx h.lt_y h.xy,
      two_pow_add_and_eq_zero n x z hx h.lt_z h.xz, h.yz⟩
    have := h.sum
    rw [Nat.pow_succ]
    omega

theorem grant_y (h : Partition n x y z) (g : Nat) (hg : g ≤ 1) :
    Partition (n + g) x (y + g * 2 ^ n) z :=
  (h.swap_xy.grant_x g hg).swap_xy

theorem grant_z (h : Partition n x y z) (g : Nat) (hg : g ≤ 1) :
    Partition (n + g) x y (z + g * 2 ^ n) :=
  (h.swap_xz.grant_x g hg).swap_xz

end Partition

/-- Whether pass `i` of the loop hands a bit to an axis of `2 ^ d`
    texels. -/
def passGrant (i d : Nat) : Nat := if i < d then 1 else 0

theorem passGrant_le (i d : Nat) : passGrant i d ≤ 1 := by
  unfold passGrant; split_ifs <;> omega

theorem min_succ_eq (i d : Nat) : min (i + 1) d = min i d + passGrant i d := by
  unfold passGrant; split_ifs <;> omega

/-- A granted bit above all bits of `v` adds one to its bit count. -/
theorem bitCount_grant (v g n : Nat) (hv : v < 2 ^ n) (hg : g ≤ 1) (hn : g = 1 → n < 32) :
    bitCount 32 (v + g * 2 ^ n) = bitCount 32 v + g := by
  obtain rfl | rfl : g = 0 ∨ g = 1 := by omega
  · simp
  · rw [Nat.one_mul, Nat.add_comm v, bitCount_two_pow_add 32 n v (hn rfl) hv]

/-- `takeBit` at pass `i` (`bit = 2 ^ i`) for an axis of `2 ^ d` texels,
    with `mask_bit = 2 ^ n` (`0` once shifted out) and `v` below it. -/
theorem takeBit_toNat (bit dim v maskBit : UInt32) (i d n : Nat) (hbit : bit.toNat = 2 ^ i)
    (hdim : dim.toNat = 2 ^ d) (hmask : maskBit.toNat = 2 ^ n % 2 ^ 32) (hv : v.toNat < 2 ^ n)
    (hroom : i < d → n < 32) :
    (takeBit bit dim v maskBit).1.toNat = v.toNat + passGrant i d * 2 ^ n ∧
      (takeBit bit dim v maskBit).2.toNat = 2 ^ (n + passGrant i d) % 2 ^ 32 := by
  have hlt : bit < dim ↔ i < d := by
    rw [UInt32.lt_iff_toNat_lt, hbit, hdim]
    exact Nat.pow_lt_pow_iff_right (by norm_num)
  unfold takeBit passGrant
  by_cases hid : i < d
  · -- the axis takes bit `n`, which is still inside the word
    have hpow : 2 ^ n < 2 ^ 32 := Nat.pow_lt_pow_right (by norm_num) (hroom hid)
    rw [Nat.mod_eq_of_lt hpow] at hmask
    rw [if_pos (hlt.mpr hid), if_pos hid]
    constructor
    · rw [UInt32.toNat_or, hmask, Nat.or_two_pow_eq_add_of_lt hv]
      omega
    · rw [UInt32.toNat_shiftLeft, hmask]
      simp [Nat.shiftLeft_eq, Nat.pow_succ]
  · rw [if_neg (mt hlt.mp hid), if_neg hid]
    simp [hmask]

/-- The number of bits handed out after `i` passes. -/
def handedOut (a b c i : Nat) : Nat := min i a + min i b + min i c

/-- The invariant of the mask loop after `i` passes over a
    `2 ^ a × 2 ^ b × 2 ^ c` box: `bit` and `mask_bit` are the next powers
    of two (`0` once shifted out), and the axes share the low bits handed
    out so far, each holding as many as it has been given. -/
structure MaskInv (a b c i : Nat) (s : MaskState) : Prop where
  bit : s.bit.toNat = 2 ^ i % 2 ^ 32
  maskBit : s.maskBit.toNat = 2 ^ handedOut a b c i % 2 ^ 32
  part : Partition (handedOut a b c i) s.x.toNat s.y.toNat s.z.toNat
  countX : bitCount 32 s.x.toNat = min i a
  countY : bitCount 32 s.y.toNat = min i b
  countZ : bitCount 32 s.z.toNat = min i c

theorem maskInv_init (a b c : Nat) : MaskInv a b c 0 ⟨0, 0, 0, 1, 1⟩ where
  bit := rfl
  maskBit := by simp [handedOut]
  part := ⟨by simp [handedOut], by simp, by simp, by simp⟩
  countX := by simp
  countY := by simp
  countZ := by simp

section passes

variable {width height depth : UInt32} {a b c : Nat}

/-- One pass keeps the invariant: each axis still short of bits takes the
    next one, in the order `x`, `y`, `z`. -/
theorem maskIteration_inv (hw : width.toNat = 2 ^ a) (hh : height.toNat = 2 ^ b)
    (hd : depth.toNat = 2 ^ c) (habc : a + b + c ≤ 32) {i : Nat} (hi : i < 32) {s : MaskState}
    (hs : MaskInv a b c i s) : MaskInv a b c (i + 1) (maskIteration width height depth s).1 := by
  have hbit : s.bit.toNat = 2 ^ i := by
    rw [hs.bit, Nat.mod_eq_of_lt (Nat.pow_lt_pow_right (by norm_num) hi)]
  have ga := passGrant_le i a
  have gb := passGrant_le i b
  have gc := passGrant_le i c
  -- after this pass `handedOut` is `n0 + ga + gb + gc ≤ a + b + c ≤ 32`
  have hnext : handedOut a b c (i + 1) =
      handedOut a b c i + passGrant i a + passGrant i b + passGrant i c := by
    simp only [handedOut, min_succ_eq]; omega
  have hroom : handedOut a b c (i + 1) ≤ 32 := by unfold handedOut; omega
  have hone : ∀ d, i < d → passGrant i d = 1 := fun d h => if_pos h
  -- the three `takeBit` steps, each on the partition left by the one before
  obtain ⟨hx, hmx⟩ := takeBit_toNat s.bit width s.x s.maskBit i a _ hbit hw hs.maskBit
    hs.part.lt_x (fun h => by have := hone a h; omega)
  have p1 := hs.part.grant_x (passGrant i a) ga
  obtain ⟨hy, hmy⟩ := takeBit_toNat s.bit height s.y _ i b _ hbit hh hmx p1.lt_y
    (fun h => by have := hone b h; omega)
  have p2 := p1.grant_y (passGrant i b) gb
  obtain ⟨hz, hmz⟩ := takeBit_toNat s.bit depth s.z _ i c _ hbit hd hmy p2.lt_z
    (fun h => by have := hone c h; omega)
  have p3 := p2.grant_z (passGrant i c) gc
  simp only [maskIteration]
  refine ⟨?_, ?_, ?_, ?_, ?_, ?_⟩
  · rw [UInt32.toNat_shiftLeft, hbit]
    simp [Nat.shiftLeft_eq, Nat.pow_succ]
  · rw [hmz, hnext]
  · rw [hx, hy, hz, hnext]
    exact p3
  · rw [hx, bitCount_grant _ _ _ hs.part.lt_x ga (fun h => by omega), hs.countX, min_succ_eq]
  · rw [hy, bitCount_grant _ _ _ p1.lt_y gb (fun h => by omega), hs.countY, min_succ_eq]
  · rw [hz, bitCount_grant _ _ _ p2.lt_z gc (fun h => by omega), hs.countZ, min_succ_eq]

/-- A pass ends the loop exactly when every axis has all its bits. -/
theorem maskIteration_done (hw : width.toNat = 2 ^ a) (hh : height.toNat = 2 ^ b)
    (hd : depth.toNat = 2 ^ c) {i : Nat} (s : MaskState) (hbit : s.bit.toNat = 2 ^ i) :
    (maskIteration width height depth s).2 = decide (a ≤ i ∧ b ≤ i ∧ c ≤ i) := by
  have hlt : ∀ (dim : UInt32) (d : Nat), dim.toNat = 2 ^ d → (s.bit < dim ↔ i < d) := by
    intro dim d hdim
    rw [UInt32.lt_iff_toNat_lt, hbit, hdim]
    exact Nat.pow_lt_pow_iff_right (by norm_num)
  simp only [maskIteration, hlt width a hw, hlt height b hh, hlt depth c hd]
  simp only [Bool.not_or, ← decide_not, not_lt, Bool.decide_and, Bool.and_assoc]

end passes

/-- A dimension `2 ^ d` held in a 32-bit word has `d < 32`. -/
theorem exponent_lt {dim : UInt32} {d : Nat} (hdim : dim.toNat = 2 ^ d) : d < 32 :=
  (Nat.pow_lt_pow_iff_right (by norm_num : 1 < 2)).mp (hdim ▸ UInt32.toNat_lt dim)

section loop

variable {width height depth : UInt32} {a b c : Nat}

/-- The loop stops after pass `max a b c`, with every axis holding all
    its bits.  The induction is on the fuel left, from any pass `i` that
    has not yet ended the loop. -/
theorem maskLoop_spec (hw : width.toNat = 2 ^ a) (hh : height.toNat = 2 ^ b)
    (hd : depth.toNat = 2 ^ c) (habc : a + b + c ≤ 32) :
    ∀ (fuel i : Nat) (s : MaskState), MaskInv a b c i s → i ≤ max a (max b c) →
      max a (max b c) < i + fuel →
      ∃ s', maskLoop width height depth fuel s = some s' ∧
        MaskInv a b c (max a (max b c) + 1) s' := by
  have ha := exponent_lt hw
  have hb := exponent_lt hh
  have hc := exponent_lt hd
  intro fuel
  induction fuel with
  | zero =>
    intro i s _ hi hfuel
    omega
  | succ fuel ih =>
    intro i s hs hi hfuel
    have hi32 : i < 32 := by omega
    have hbit : s.bit.toNat = 2 ^ i := by
      rw [hs.bit, Nat.mod_eq_of_lt (Nat.pow_lt_pow_right (by norm_num) hi32)]
    have hstep := maskIteration_inv hw hh hd habc hi32 hs
    have hdone := maskIteration_done hw hh hd s hbit
    simp only [maskLoop, hdone]
    by_cases hend : a ≤ i ∧ b ≤ i ∧ c ≤ i
    · -- this pass is the last one
      have hmax : i = max a (max b c) := by omega
      rw [decide_eq_true hend, if_pos rfl]
      exact ⟨_, rfl, hmax ▸ hstep⟩
    · rw [decide_eq_false hend]
      exact ih (i + 1) _ hstep (by omega) (by omega)

/-- What `generate_swizzle_masks` computes for a `2 ^ a × 2 ^ b × 2 ^ c`
    box: disjoint masks that fill the low `a + b + c` bits, with `a`, `b`
    and `c` bits. -/
structure MasksSpec (a b c : Nat) (masks : UInt32 × UInt32 × UInt32) : Prop where
  part : Partition (a + b + c) masks.1.toNat masks.2.1.toNat masks.2.2.toNat
  countX : bitCount 32 masks.1.toNat = a
  countY : bitCount 32 masks.2.1.toNat = b
  countZ : bitCount 32 masks.2.2.toNat = c

/-- For a box of at most `2 ^ 32` texels the loop stops, the assertion
    holds, and the masks meet `MasksSpec`. -/
theorem generateSwizzleMasks_spec (hw : width.toNat = 2 ^ a) (hh : height.toNat = 2 ^ b)
    (hd : depth.toNat = 2 ^ c) (habc : a + b + c ≤ 32) :
    ∃ masks, generateSwizzleMasks width height depth = some masks ∧ MasksSpec a b c masks := by
  have ha := exponent_lt hw
  have hb := exponent_lt hh
  have hc := exponent_lt hd
  obtain ⟨s, hloop, hs⟩ := maskLoop_spec hw hh hd habc 32 0 _ (maskInv_init a b c)
    (Nat.zero_le _) (by omega)
  have hN : handedOut a b c (max a (max b c) + 1) = a + b + c := by
    unfold handedOut; omega
  have hpart := hs.part
  have hmask := hs.maskBit
  rw [hN] at hpart hmask
  -- the assertion: on disjoint masks `^^^` is the sum, `2 ^ (a + b + c) - 1`
  have hxor : s.x ^^^ s.y ^^^ s.z = s.maskBit - 1 := by
    apply UInt32.toNat_inj.mp
    have hxy := xor_eq_add_of_and_eq_zero _ _ hpart.xy
    have hxyz := xor_eq_add_of_and_eq_zero _ _
      (add_and_eq_zero _ _ _ hpart.xy hpart.xz hpart.yz)
    rw [UInt32.toNat_xor, UInt32.toNat_xor, hxy, hxyz, hpart.sum, UInt32.toNat_sub, hmask]
    rcases Nat.lt_or_ge (a + b + c) 32 with hlt | hge
    · have hpow : 2 ^ (a + b + c) < 2 ^ 32 := Nat.pow_lt_pow_right (by norm_num) hlt
      have hpos := Nat.two_pow_pos (a + b + c)
      rw [Nat.mod_eq_of_lt hpow, show 2 ^ 32 - (1 : UInt32).toNat + 2 ^ (a + b + c) =
        2 ^ (a + b + c) - 1 + 2 ^ 32 by simp; omega, Nat.add_mod_right, Nat.mod_eq_of_lt (by omega)]
    · have h32 : a + b + c = 32 := by omega
      rw [h32]
      rfl
  unfold generateSwizzleMasks
  rw [hloop]
  simp only [if_pos hxor]
  refine ⟨_, rfl, hpart, ?_, ?_, ?_⟩
  · rw [hs.countX]; omega
  · rw [hs.countY]; omega
  · rw [hs.countZ]; omega

end loop

/-! ## Section 3: The copy loops

    `swizzle_box_internal` and `unswizzle_box_internal` run the same loop
    nest and differ only in which side of each `memcpy` is the linear
    texel and which the swizzled one, and in which buffer pointer moves on
    by `slice_pitch` after each slice (always the linear one).  So both
    are `boxInternal` of a `Direction`. -/

/-- `off = (off - mask) & mask`: the next swizzled offset along one axis. -/
def nextOffset (mask off : UInt32) : UInt32 := (off - mask) &&& mask

/-- Which side of each `memcpy` is the swizzled texel. -/
inductive Direction
  /-- `swizzle_box`: linear source, swizzled destination. -/
  | swizzle
  /-- `unswizzle_box`: swizzled source, linear destination. -/
  | unswizzle
  deriving DecidableEq, Repr

/-- The `(dst, src)` offsets of one `memcpy`, from the texel's linear and
    swizzled offsets. -/
def Direction.place : Direction → Nat → Nat → Nat × Nat
  | .swizzle, linear, swizzled => (swizzled, linear)
  | .unswizzle, linear, swizzled => (linear, swizzled)

/-- The body of the `x` loop: copy one texel, step `off_x`.  `linTmp` and
    `swzTmp` are the row's linear and swizzled pointers. -/
def texelStep (dir : Direction) (src : Nat → UInt8) (maskX bytesPerPixel : UInt32)
    (linTmp swzTmp : Nat) (x : Nat) (st : (Nat → UInt8) × UInt32) : (Nat → UInt8) × UInt32 :=
  let op := dir.place (linTmp + (UInt32.ofNat x * bytesPerPixel).toNat)
    (swzTmp + (st.2 * bytesPerPixel).toNat)
  (copy st.1 op.1 src op.2 bytesPerPixel.toNat, nextOffset maskX st.2)

/-- The body of the `y` loop: one row, then step `off_y`.  `linBuf` is the
    slice's linear pointer. -/
def rowStep (dir : Direction) (src : Nat → UInt8) (width maskX maskY rowPitch bytesPerPixel : UInt32)
    (linBuf : Nat) (offZ : UInt32) (y : Nat) (st : (Nat → UInt8) × UInt32) :
    (Nat → UInt8) × UInt32 :=
  let linTmp := linBuf + (UInt32.ofNat y * rowPitch).toNat
  let swzTmp := ((st.2 + offZ) * bytesPerPixel).toNat
  ((forLoop width.toNat (texelStep dir src maskX bytesPerPixel linTmp swzTmp) (st.1, 0)).1,
    nextOffset maskY st.2)

/-- The body of the `z` loop: one slice, then move the linear pointer on
    by `slice_pitch` and step `off_z`. -/
def sliceStep (dir : Direction) (src : Nat → UInt8)
    (width height maskX maskY maskZ rowPitch slicePitch bytesPerPixel : UInt32) (_z : Nat)
    (st : (Nat → UInt8) × (Nat × UInt32)) : (Nat → UInt8) × (Nat × UInt32) :=
  ((forLoop height.toNat (rowStep dir src width maskX maskY rowPitch bytesPerPixel st.2.1 st.2.2)
      (st.1, 0)).1,
    (st.2.1 + slicePitch.toNat, nextOffset maskZ st.2.2))

/-- The loop nest of both directions, after the masks; `none` when
    `generate_swizzle_masks` does not return. -/
def boxInternal (dir : Direction) (src : Nat → UInt8) (width height depth : UInt32)
    (dst : Nat → UInt8) (rowPitch slicePitch bytesPerPixel : UInt32) : Option (Nat → UInt8) :=
  (generateSwizzleMasks width height depth).map fun masks =>
    (forLoop depth.toNat
      (sliceStep dir src width height masks.1 masks.2.1 masks.2.2 rowPitch slicePitch bytesPerPixel)
      (dst, (0, 0))).1

/-- `swizzle_box_internal`: linear `src_buf` into swizzled `dst_buf`. -/
def swizzleBoxInternal (src : Nat → UInt8) (width height depth : UInt32) (dst : Nat → UInt8)
    (rowPitch slicePitch bytesPerPixel : UInt32) : Option (Nat → UInt8) :=
  boxInternal .swizzle src width height depth dst rowPitch slicePitch bytesPerPixel

/-- `unswizzle_box_internal`: swizzled `src_buf` into linear `dst_buf`. -/
def unswizzleBoxInternal (src : Nat → UInt8) (width height depth : UInt32) (dst : Nat → UInt8)
    (rowPitch slicePitch bytesPerPixel : UInt32) : Option (Nat → UInt8) :=
  boxInternal .unswizzle src width height depth dst rowPitch slicePitch bytesPerPixel

/-- `swizzle_box`: the `MULTIVERSION` switch on `bytes_per_pixel` calls
    `swizzle_box_internal` with the same value in every case (the
    constants only let the compiler specialise). -/
def swizzleBox (src : Nat → UInt8) (width height depth : UInt32) (dst : Nat → UInt8)
    (rowPitch slicePitch bytesPerPixel : UInt32) : Option (Nat → UInt8) :=
  swizzleBoxInternal src width height depth dst rowPitch slicePitch bytesPerPixel

/-- `unswizzle_box`, through the same `MULTIVERSION` switch. -/
def unswizzleBox (src : Nat → UInt8) (width height depth : UInt32) (dst : Nat → UInt8)
    (rowPitch slicePitch bytesPerPixel : UInt32) : Option (Nat → UInt8) :=
  unswizzleBoxInternal src width height depth dst rowPitch slicePitch bytesPerPixel

/-! ## Section 4: The loops as one list of copies -/

/-- The offset along an axis after `i` steps of its loop. -/
def axisOffset (mask : UInt32) (i : Nat) : UInt32 := (nextOffset mask)^[i] 0

/-- The linear offset of texel `(x, y, z)` as the loops compute it: the
    slice pointer plus the two 32-bit products. -/
def linearOffset (rowPitch slicePitch bytesPerPixel : UInt32) (x y z : Nat) : Nat :=
  z * slicePitch.toNat + (UInt32.ofNat y * rowPitch).toNat +
    (UInt32.ofNat x * bytesPerPixel).toNat

/-- The swizzled offset of texel `(x, y, z)` as the loops compute it. -/
def swizzledOffset (maskX maskY maskZ bytesPerPixel : UInt32) (x y z : Nat) : Nat :=
  ((axisOffset maskY y + axisOffset maskZ z) * bytesPerPixel).toNat +
    (axisOffset maskX x * bytesPerPixel).toNat

/-- The `memcpy` offsets of every texel, in loop order. -/
def boxOps (dir : Direction) (width height depth maskX maskY maskZ rowPitch slicePitch
    bytesPerPixel : UInt32) : List (Nat × Nat) :=
  (List.range depth.toNat).flatMap fun z => (List.range height.toNat).flatMap fun y =>
    (List.range width.toNat).map fun x =>
      dir.place (linearOffset rowPitch slicePitch bytesPerPixel x y z)
        (swizzledOffset maskX maskY maskZ bytesPerPixel x y z)

section ops

variable (dir : Direction) (src : Nat → UInt8)
  (width height depth maskX maskY maskZ rowPitch slicePitch bytesPerPixel : UInt32)

theorem rowLoop_eq (linTmp swzTmp : Nat) (m : Nat → UInt8) :
    (forLoop width.toNat (texelStep dir src maskX bytesPerPixel linTmp swzTmp) (m, 0)).1 =
      copyAll m src bytesPerPixel.toNat ((List.range width.toNat).map fun x =>
        dir.place (linTmp + (UInt32.ofNat x * bytesPerPixel).toNat)
          (swzTmp + (axisOffset maskX x * bytesPerPixel).toNat)) := by
  rw [forLoop_counter _ _ (nextOffset maskX) (fun _ _ => rfl)]
  exact foldl_copy_eq_copyAll (List.range width.toNat) fun x =>
    dir.place (linTmp + (UInt32.ofNat x * bytesPerPixel).toNat)
      (swzTmp + (axisOffset maskX x * bytesPerPixel).toNat)

theorem sliceLoop_eq (linBuf : Nat) (offZ : UInt32) (m : Nat → UInt8) :
    (forLoop height.toNat (rowStep dir src width maskX maskY rowPitch bytesPerPixel linBuf offZ)
        (m, 0)).1 =
      copyAll m src bytesPerPixel.toNat ((List.range height.toNat).flatMap fun y =>
        (List.range width.toNat).map fun x =>
          dir.place (linBuf + (UInt32.ofNat y * rowPitch).toNat +
              (UInt32.ofNat x * bytesPerPixel).toNat)
            (((axisOffset maskY y + offZ) * bytesPerPixel).toNat +
              (axisOffset maskX x * bytesPerPixel).toNat)) := by
  rw [forLoop_counter _ _ (nextOffset maskY) (fun _ _ => rfl)]
  simp only [rowStep, rowLoop_eq]
  exact foldl_copyAll_eq _ _

/-- The slice pointer and `off_z` after `z` slices. -/
theorem slice_counter (z : Nat) :
    (Prod.map (· + slicePitch.toNat) (nextOffset maskZ))^[z] (0, 0) =
      (z * slicePitch.toNat, axisOffset maskZ z) := by
  rw [Prod.map_iterate]
  simp [axisOffset, add_right_iterate]

/-- Each loop nest is one `copyAll` over the texels in loop order. -/
theorem boxLoop_eq (m : Nat → UInt8) :
    (forLoop depth.toNat
        (sliceStep dir src width height maskX maskY maskZ rowPitch slicePitch bytesPerPixel)
        (m, (0, 0))).1 =
      copyAll m src bytesPerPixel.toNat
        (boxOps dir width height depth maskX maskY maskZ rowPitch slicePitch bytesPerPixel) := by
  rw [forLoop_counter _ _ (Prod.map (· + slicePitch.toNat) (nextOffset maskZ)) (fun _ _ => rfl)]
  simp only [sliceStep, slice_counter, sliceLoop_eq]
  exact foldl_copyAll_eq _ _

end ops

/-! ## Section 5: Offsets

    The masked increment steps an axis offset through the deposits of
    `0, 1, 2, ...` into the axis' mask.  The linear offsets never wrap
    when the pitches hold a row and a slice; the swizzled ones never wrap
    when the swizzled box fits in 32-bit byte offsets. -/

/-- The offset along an axis after `i` steps is `i` deposited into its
    mask. -/
theorem axisOffset_toNat (mask : UInt32) (i : Nat) :
    (axisOffset mask i).toNat = deposit 32 i mask.toNat := by
  induction i with
  | zero => simp [axisOffset]
  | succ i ih =>
    have hstep : axisOffset mask (i + 1) = nextOffset mask (axisOffset mask i) :=
      Function.iterate_succ_apply' _ _ _
    rw [hstep, nextOffset, UInt32.toNat_and, UInt32.toNat_sub, ih]
    exact maskedInc_deposit i mask.toNat (UInt32.toNat_lt mask)

/-- `k * P + r ≤ k' * P` for `k < k'` and a remainder `r ≤ P`: a later
    row (slice, texel) starts after all of an earlier one. -/
theorem mul_add_le_mul {k k' : Nat} (P : Nat) {r : Nat} (hk : k < k') (hr : r ≤ P) :
    k * P + r ≤ k' * P :=
  calc k * P + r ≤ k * P + P := Nat.add_le_add_left hr _
    _ = (k + 1) * P := (Nat.succ_mul k P).symm
    _ ≤ k' * P := Nat.mul_le_mul_right P hk

/-- The byte offset of texel `(x, y, z)` in a pitched linear layout. -/
def texelAddr (rowPitch slicePitch bytesPerPixel x y z : Nat) : Nat :=
  z * slicePitch + y * rowPitch + x * bytesPerPixel

/-- The preconditions of the copy loops: sides `2 ^ a`, `2 ^ b`, `2 ^ c`,
    at least one byte per texel, and pitches that hold a row and a
    slice. -/
structure PitchedBox (width height depth rowPitch slicePitch bytesPerPixel : UInt32)
    (a b c : Nat) : Prop where
  widthPow : width.toNat = 2 ^ a
  heightPow : height.toNat = 2 ^ b
  depthPow : depth.toNat = 2 ^ c
  bppPos : 1 ≤ bytesPerPixel.toNat
  rowFits : width.toNat * bytesPerPixel.toNat ≤ rowPitch.toNat
  sliceFits : height.toNat * rowPitch.toNat ≤ slicePitch.toNat

section linear

variable {width height depth rowPitch slicePitch bytesPerPixel : UInt32} {a b c : Nat}

/-- Texel `(x, y, z)` ends inside its slice. -/
theorem texel_in_slice (hbox : PitchedBox width height depth rowPitch slicePitch bytesPerPixel a b c)
    {x y : Nat} (hx : x < width.toNat) (hy : y < height.toNat) :
    y * rowPitch.toNat + x * bytesPerPixel.toNat + bytesPerPixel.toNat ≤ slicePitch.toNat := by
  have hrow := mul_add_le_mul bytesPerPixel.toNat hx (le_refl _)
  have hslice := mul_add_le_mul rowPitch.toNat hy (show x * bytesPerPixel.toNat +
    bytesPerPixel.toNat ≤ rowPitch.toNat by have := hbox.rowFits; omega)
  have := hbox.sliceFits
  omega

/-- Without wrap, the loops' linear offset is the pitched layout's. -/
theorem linearOffset_eq (hbox : PitchedBox width height depth rowPitch slicePitch bytesPerPixel a b c)
    {x y : Nat} (z : Nat) (hx : x < width.toNat) (hy : y < height.toNat) :
    linearOffset rowPitch slicePitch bytesPerPixel x y z =
      texelAddr rowPitch.toNat slicePitch.toNat bytesPerPixel.toNat x y z := by
  have hin := texel_in_slice hbox hx hy
  have hsp := UInt32.toNat_lt slicePitch
  have hw := UInt32.toNat_lt width
  have hh := UInt32.toNat_lt height
  unfold linearOffset texelAddr
  rw [UInt32.toNat_mul, UInt32.toNat_mul, UInt32.toNat_ofNat', UInt32.toNat_ofNat',
    Nat.mod_eq_of_lt (show x < 2 ^ 32 by omega), Nat.mod_eq_of_lt (show y < 2 ^ 32 by omega),
    Nat.mod_eq_of_lt (show y * rowPitch.toNat < 2 ^ 32 by omega),
    Nat.mod_eq_of_lt (show x * bytesPerPixel.toNat < 2 ^ 32 by omega)]

/-- Distinct texels occupy disjoint byte ranges of the linear layout; the
    case split is on the first axis, from `z` inwards, where they differ. -/
theorem texelAddr_disjoint (hbox : PitchedBox width height depth rowPitch slicePitch bytesPerPixel a b c)
    {x y z x' y' z' : Nat} (hx : x < width.toNat) (hy : y < height.toNat) (hx' : x' < width.toNat)
    (hy' : y' < height.toNat) (hne : (x, y, z) ≠ (x', y', z')) :
    texelAddr rowPitch.toNat slicePitch.toNat bytesPerPixel.toNat x y z + bytesPerPixel.toNat ≤
        texelAddr rowPitch.toNat slicePitch.toNat bytesPerPixel.toNat x' y' z' ∨
      texelAddr rowPitch.toNat slicePitch.toNat bytesPerPixel.toNat x' y' z' + bytesPerPixel.toNat ≤
        texelAddr rowPitch.toNat slicePitch.toNat bytesPerPixel.toNat x y z := by
  unfold texelAddr
  have hin := texel_in_slice hbox hx hy
  have hin' := texel_in_slice hbox hx' hy'
  have hrow : x * bytesPerPixel.toNat + bytesPerPixel.toNat ≤ rowPitch.toNat := by
    have := mul_add_le_mul bytesPerPixel.toNat hx (le_refl _); have := hbox.rowFits; omega
  have hrow' : x' * bytesPerPixel.toNat + bytesPerPixel.toNat ≤ rowPitch.toNat := by
    have := mul_add_le_mul bytesPerPixel.toNat hx' (le_refl _); have := hbox.rowFits; omega
  rcases Nat.lt_trichotomy z z' with hz | rfl | hz
  · have := mul_add_le_mul slicePitch.toNat hz hin; omega
  · rcases Nat.lt_trichotomy y y' with hy | rfl | hy
    · have := mul_add_le_mul rowPitch.toNat hy hrow; omega
    · rcases Nat.lt_trichotomy x x' with hx | rfl | hx
      · have := mul_add_le_mul bytesPerPixel.toNat hx (le_refl _); omega
      · exact absurd rfl hne
      · have := mul_add_le_mul bytesPerPixel.toNat hx (le_refl _); omega
    · have := mul_add_le_mul rowPitch.toNat hy hrow'; omega
  · have := mul_add_le_mul slicePitch.toNat hz hin'; omega

end linear

/-! ## Section 6: The swizzled index

    With disjoint masks the three deposits never carry into each other,
    so `extract` along a mask reads its coordinate back from the sum: the
    swizzled index is injective on the box. -/

/-- The swizzled index of texel `(x, y, z)`: each coordinate deposited
    into its axis' mask. -/
def swizzleIndex (masks : UInt32 × UInt32 × UInt32) (x y z : Nat) : Nat :=
  deposit 32 x masks.1.toNat + deposit 32 y masks.2.1.toNat + deposit 32 z masks.2.2.toNat

/-- Extracting along the first of three disjoint masks reads the first
    deposit back. -/
theorem extract_deposit_sum {n mx my mz : Nat} (h : Partition n mx my mz) (kx ky kz : Nat) :
    extract 32 (deposit 32 kx mx + deposit 32 ky my + deposit 32 kz mz) mx =
      kx % 2 ^ bitCount 32 mx := by
  have hxy := deposit_and_deposit (w := 32) kx ky mx my h.xy
  have hxz := deposit_and_deposit (w := 32) kx kz mx mz h.xz
  have hyz := deposit_and_deposit (w := 32) ky kz my mz h.yz
  rw [extract_add _ _ _ (add_and_eq_zero _ _ _ hxy hxz hyz), extract_add _ _ _ hxy,
    extract_deposit, extract_deposit_of_disjoint _ _ _ h.xy,
    extract_deposit_of_disjoint _ _ _ h.xz]
  rfl

section index

variable {masks : UInt32 × UInt32 × UInt32} {a b c : Nat}

theorem swizzleIndex_le (h : MasksSpec a b c masks) (x y z : Nat) :
    swizzleIndex masks x y z ≤ 2 ^ (a + b + c) - 1 := by
  have hx := deposit_le (w := 32) x masks.1.toNat
  have hy := deposit_le (w := 32) y masks.2.1.toNat
  have hz := deposit_le (w := 32) z masks.2.2.toNat
  have := h.part.sum
  unfold swizzleIndex
  omega

/-- The coordinates of a texel of the box are read back from its swizzled
    index; for `y` and `z` the sum is reordered to put their deposit
    first. -/
theorem swizzleIndex_inj (h : MasksSpec a b c masks) {x y z x' y' z' : Nat} (hx : x < 2 ^ a)
    (hy : y < 2 ^ b) (hz : z < 2 ^ c) (hx' : x' < 2 ^ a) (hy' : y' < 2 ^ b) (hz' : z' < 2 ^ c)
    (heq : swizzleIndex masks x y z = swizzleIndex masks x' y' z') : (x, y, z) = (x', y', z') := by
  unfold swizzleIndex at heq
  have ex := congrArg (extract 32 · masks.1.toNat) heq
  have ey := congrArg (extract 32 · masks.2.1.toNat) heq
  have ez := congrArg (extract 32 · masks.2.2.toNat) heq
  rw [extract_deposit_sum h.part, extract_deposit_sum h.part, h.countX, Nat.mod_eq_of_lt hx,
    Nat.mod_eq_of_lt hx'] at ex
  rw [add_comm (deposit 32 x _), add_comm (deposit 32 x' _), extract_deposit_sum h.part.swap_xy,
    extract_deposit_sum h.part.swap_xy, h.countY, Nat.mod_eq_of_lt hy,
    Nat.mod_eq_of_lt hy'] at ey
  rw [add_comm, add_comm (deposit 32 x _), ← add_assoc, add_comm _ (deposit 32 z' _),
    add_comm (deposit 32 x' _), ← add_assoc, extract_deposit_sum h.part.swap_xz,
    extract_deposit_sum h.part.swap_xz, h.countZ, Nat.mod_eq_of_lt hz,
    Nat.mod_eq_of_lt hz'] at ez
  rw [ex, ey, ez]

end index

/-! ## Section 7: Swizzle then unswizzle

    Each loop nest is a `copyAll` whose destination ranges are pairwise
    disjoint (linear ranges by the pitches, swizzled ranges by the
    injective index), so every texel's range ends up holding its source
    bytes, whatever the order of the copies. -/

/-- Every texel of the box holds the bytes `src` has at its linear
    offset. -/
def RoundTrip (width height depth rowPitch slicePitch bytesPerPixel : Nat)
    (src dst : Nat → UInt8) : Prop :=
  ∀ x y z i, x < width → y < height → z < depth → i < bytesPerPixel →
    dst (texelAddr rowPitch slicePitch bytesPerPixel x y z + i) =
      src (texelAddr rowPitch slicePitch bytesPerPixel x y z + i)

/-- Every byte outside the texels' ranges (row and slice padding, and
    everything past the box) keeps its contents. -/
def TexelsOnly (width height depth rowPitch slicePitch bytesPerPixel : Nat)
    (before after : Nat → UInt8) : Prop :=
  ∀ addr, (∀ x y z, x < width → y < height → z < depth →
      ¬ (texelAddr rowPitch slicePitch bytesPerPixel x y z ≤ addr ∧
        addr < texelAddr rowPitch slicePitch bytesPerPixel x y z + bytesPerPixel)) →
    after addr = before addr

section ops

variable {dir : Direction}
  {width height depth maskX maskY maskZ rowPitch slicePitch bytesPerPixel : UInt32}

theorem mem_boxOps {op : Nat × Nat} :
    op ∈ boxOps dir width height depth maskX maskY maskZ rowPitch slicePitch bytesPerPixel ↔
      ∃ x y z, x < width.toNat ∧ y < height.toNat ∧ z < depth.toNat ∧
        op = dir.place (linearOffset rowPitch slicePitch bytesPerPixel x y z)
          (swizzledOffset maskX maskY maskZ bytesPerPixel x y z) := by
  simp only [boxOps, List.mem_flatMap, List.mem_map, List.mem_range]
  constructor
  · rintro ⟨z, hz, y, hy, x, hx, rfl⟩
    exact ⟨x, y, z, hx, hy, hz, rfl⟩
  · rintro ⟨x, y, z, hx, hy, hz, rfl⟩
    exact ⟨z, hz, y, hy, x, hx, rfl⟩

end ops

/-- The last-writer rule for a loop nest whose destination ranges are
    pairwise disjoint: each texel's destination range holds its source
    bytes. -/
theorem copyAll_boxOps_at (dir : Direction)
    (width height depth maskX maskY maskZ rowPitch slicePitch bytesPerPixel : UInt32)
    (m src : Nat → UInt8)
    (hdisj : ∀ x y z x' y' z', x < width.toNat → y < height.toNat → z < depth.toNat →
      x' < width.toNat → y' < height.toNat → z' < depth.toNat → (x, y, z) ≠ (x', y', z') →
      RangesDisjoint bytesPerPixel.toNat
        (dir.place (linearOffset rowPitch slicePitch bytesPerPixel x y z)
          (swizzledOffset maskX maskY maskZ bytesPerPixel x y z))
        (dir.place (linearOffset rowPitch slicePitch bytesPerPixel x' y' z')
          (swizzledOffset maskX maskY maskZ bytesPerPixel x' y' z')))
    {x y z i : Nat} (hx : x < width.toNat) (hy : y < height.toNat) (hz : z < depth.toNat)
    (hi : i < bytesPerPixel.toNat) :
    copyAll m src bytesPerPixel.toNat
        (boxOps dir width height depth maskX maskY maskZ rowPitch slicePitch bytesPerPixel)
        ((dir.place (linearOffset rowPitch slicePitch bytesPerPixel x y z)
          (swizzledOffset maskX maskY maskZ bytesPerPixel x y z)).1 + i) =
      src ((dir.place (linearOffset rowPitch slicePitch bytesPerPixel x y z)
          (swizzledOffset maskX maskY maskZ bytesPerPixel x y z)).2 + i) := by
  apply copyAll_at _ _ i hi
  · intro op' hop'
    obtain ⟨x', y', z', hx', hy', hz', rfl⟩ := mem_boxOps.mp hop'
    by_cases heq : (x, y, z) = (x', y', z')
    · simp only [Prod.mk.injEq] at heq
      obtain ⟨rfl, rfl, rfl⟩ := heq
      exact Or.inl rfl
    · exact Or.inr (hdisj x y z x' y' z' hx hy hz hx' hy' hz' heq)
  · exact Or.inl (mem_boxOps.mpr ⟨x, y, z, hx, hy, hz, rfl⟩)

section sides

variable {width height depth rowPitch slicePitch bytesPerPixel : UInt32} {a b c : Nat}
  {masks : UInt32 × UInt32 × UInt32}

/-- When the swizzled box fits in 32-bit byte offsets, the loops'
    swizzled offset is the swizzled index times the texel size. -/
theorem swizzledOffset_eq (h : MasksSpec a b c masks) (hbpp : 1 ≤ bytesPerPixel.toNat)
    (hfit : 2 ^ (a + b + c) * bytesPerPixel.toNat ≤ 2 ^ 32) (x y z : Nat) :
    swizzledOffset masks.1 masks.2.1 masks.2.2 bytesPerPixel x y z =
      swizzleIndex masks x y z * bytesPerPixel.toNat := by
  have hle := swizzleIndex_le h x y z
  unfold swizzleIndex at hle ⊢
  have htop : (2 ^ (a + b + c) - 1) * bytesPerPixel.toNat + bytesPerPixel.toNat ≤ 2 ^ 32 := by
    rw [← Nat.succ_mul, Nat.succ_eq_add_one, Nat.sub_add_cancel Nat.one_le_two_pow]
    exact hfit
  have hyz : (deposit 32 y masks.2.1.toNat + deposit 32 z masks.2.2.toNat) * bytesPerPixel.toNat ≤
      (2 ^ (a + b + c) - 1) * bytesPerPixel.toNat := Nat.mul_le_mul_right _ (by omega)
  have hx : deposit 32 x masks.1.toNat * bytesPerPixel.toNat ≤
      (2 ^ (a + b + c) - 1) * bytesPerPixel.toNat := Nat.mul_le_mul_right _ (by omega)
  have hsum : deposit 32 y masks.2.1.toNat + deposit 32 z masks.2.2.toNat < 2 ^ 32 := by
    have := Nat.le_mul_of_pos_right (2 ^ (a + b + c) - 1) (show 0 < bytesPerPixel.toNat by omega)
    omega
  unfold swizzledOffset
  rw [UInt32.toNat_mul, UInt32.toNat_add, UInt32.toNat_mul, axisOffset_toNat, axisOffset_toNat,
    axisOffset_toNat, Nat.mod_eq_of_lt hsum, Nat.mod_eq_of_lt (by omega),
    Nat.mod_eq_of_lt (by omega)]
  ring

/-- Distinct texels of the box own disjoint swizzled byte ranges. -/
theorem swizzledOffset_disjoint (h : MasksSpec a b c masks) (hbpp : 1 ≤ bytesPerPixel.toNat)
    (hfit : 2 ^ (a + b + c) * bytesPerPixel.toNat ≤ 2 ^ 32) {x y z x' y' z' : Nat}
    (hx : x < 2 ^ a) (hy : y < 2 ^ b) (hz : z < 2 ^ c) (hx' : x' < 2 ^ a) (hy' : y' < 2 ^ b)
    (hz' : z' < 2 ^ c) (hne : (x, y, z) ≠ (x', y', z')) :
    swizzledOffset masks.1 masks.2.1 masks.2.2 bytesPerPixel x y z + bytesPerPixel.toNat ≤
        swizzledOffset masks.1 masks.2.1 masks.2.2 bytesPerPixel x' y' z' ∨
      swizzledOffset masks.1 masks.2.1 masks.2.2 bytesPerPixel x' y' z' + bytesPerPixel.toNat ≤
        swizzledOffset masks.1 masks.2.1 masks.2.2 bytesPerPixel x y z := by
  rw [swizzledOffset_eq h hbpp hfit, swizzledOffset_eq h hbpp hfit]
  have hS : swizzleIndex masks x y z ≠ swizzleIndex masks x' y' z' :=
    fun heq => hne (swizzleIndex_inj h hx hy hz hx' hy' hz' heq)
  rcases Nat.lt_or_gt_of_ne hS with hlt | hlt
  · exact Or.inl (mul_add_le_mul _ hlt (le_refl _))
  · exact Or.inr (mul_add_le_mul _ hlt (le_refl _))

end sides

/-- Once the masks are known, each direction is one `copyAll` over the
    texels in loop order. -/
theorem boxInternal_eq (dir : Direction) (src : Nat → UInt8)
    {width height depth : UInt32} (dst : Nat → UInt8) (rowPitch slicePitch bytesPerPixel : UInt32)
    {masks : UInt32 × UInt32 × UInt32} (hgen : generateSwizzleMasks width height depth = some masks) :
    boxInternal dir src width height depth dst rowPitch slicePitch bytesPerPixel =
      some (copyAll dst src bytesPerPixel.toNat (boxOps dir width height depth masks.1 masks.2.1
        masks.2.2 rowPitch slicePitch bytesPerPixel)) := by
  simp only [boxInternal, hgen, Option.map_some, boxLoop_eq]

section directions

variable {width height depth rowPitch slicePitch bytesPerPixel : UInt32} {a b c : Nat}

/-- The unswizzle fills each texel's linear range from its swizzled
    range, whatever the masks: the linear ranges never overlap. -/
theorem unswizzle_copy_at
    (hbox : PitchedBox width height depth rowPitch slicePitch bytesPerPixel a b c)
    (masks : UInt32 × UInt32 × UInt32) (m src : Nat → UInt8) {x y z i : Nat}
    (hx : x < width.toNat) (hy : y < height.toNat) (hz : z < depth.toNat)
    (hi : i < bytesPerPixel.toNat) :
    copyAll m src bytesPerPixel.toNat (boxOps .unswizzle width height depth masks.1 masks.2.1
        masks.2.2 rowPitch slicePitch bytesPerPixel)
        (texelAddr rowPitch.toNat slicePitch.toNat bytesPerPixel.toNat x y z + i) =
      src (swizzledOffset masks.1 masks.2.1 masks.2.2 bytesPerPixel x y z + i) := by
  have h := copyAll_boxOps_at .unswizzle width height depth masks.1 masks.2.1 masks.2.2
    rowPitch slicePitch bytesPerPixel m src
    (fun x y z x' y' z' hx hy _ hx' hy' _ hne => by
      simp only [RangesDisjoint, Direction.place]
      rw [linearOffset_eq hbox z hx hy, linearOffset_eq hbox z' hx' hy']
      exact texelAddr_disjoint hbox hx hy hx' hy' hne) hx hy hz hi
  simp only [Direction.place] at h
  rwa [linearOffset_eq hbox z hx hy] at h

/-- The unswizzle writes only the texels' linear ranges. -/
theorem unswizzle_frame
    (hbox : PitchedBox width height depth rowPitch slicePitch bytesPerPixel a b c)
    (masks : UInt32 × UInt32 × UInt32) (m src : Nat → UInt8) :
    TexelsOnly width.toNat height.toNat depth.toNat rowPitch.toNat slicePitch.toNat
      bytesPerPixel.toNat m (copyAll m src bytesPerPixel.toNat (boxOps .unswizzle width height
        depth masks.1 masks.2.1 masks.2.2 rowPitch slicePitch bytesPerPixel)) := by
  intro addr hout
  apply copyAll_outside
  intro op hop
  obtain ⟨x, y, z, hx, hy, hz, rfl⟩ := mem_boxOps.mp hop
  simp only [Direction.place]
  rw [linearOffset_eq hbox z hx hy]
  exact hout x y z hx hy hz

/-- With the masks of the box and a swizzled box that fits in 32-bit byte
    offsets, the swizzle fills each texel's swizzled range from its
    linear range. -/
theorem swizzle_copy_at
    (hbox : PitchedBox width height depth rowPitch slicePitch bytesPerPixel a b c)
    {masks : UInt32 × UInt32 × UInt32} (hspec : MasksSpec a b c masks)
    (hfit : 2 ^ (a + b + c) * bytesPerPixel.toNat ≤ 2 ^ 32) (m src : Nat → UInt8) {x y z i : Nat}
    (hx : x < width.toNat) (hy : y < height.toNat) (hz : z < depth.toNat)
    (hi : i < bytesPerPixel.toNat) :
    copyAll m src bytesPerPixel.toNat (boxOps .swizzle width height depth masks.1 masks.2.1
        masks.2.2 rowPitch slicePitch bytesPerPixel)
        (swizzledOffset masks.1 masks.2.1 masks.2.2 bytesPerPixel x y z + i) =
      src (texelAddr rowPitch.toNat slicePitch.toNat bytesPerPixel.toNat x y z + i) := by
  have hx2 : ∀ {x}, x < width.toNat → x < 2 ^ a := fun hx => hbox.widthPow ▸ hx
  have hy2 : ∀ {y}, y < height.toNat → y < 2 ^ b := fun hy => hbox.heightPow ▸ hy
  have hz2 : ∀ {z}, z < depth.toNat → z < 2 ^ c := fun hz => hbox.depthPow ▸ hz
  have h := copyAll_boxOps_at .swizzle width height depth masks.1 masks.2.1 masks.2.2
    rowPitch slicePitch bytesPerPixel m src
    (fun x y z x' y' z' hx hy hz hx' hy' hz' hne => by
      simp only [RangesDisjoint, Direction.place]
      exact swizzledOffset_disjoint hspec hbox.bppPos hfit (hx2 hx) (hy2 hy) (hz2 hz)
        (hx2 hx') (hy2 hy') (hz2 hz') hne) hx hy hz hi
  simp only [Direction.place] at h
  rwa [linearOffset_eq hbox z hx hy] at h

end directions

/-- A swizzle followed by an unswizzle gives back every texel, and the
    unswizzle writes nothing but texels, for every box whose swizzled
    copy fits in 32-bit byte offsets. -/
theorem swizzle_unswizzle_round_trip (src swz0 dst0 : Nat → UInt8)
    (width height depth rowPitch slicePitch bytesPerPixel : UInt32) (a b c : Nat)
    (hbox : PitchedBox width height depth rowPitch slicePitch bytesPerPixel a b c)
    (hfit : width.toNat * height.toNat * depth.toNat * bytesPerPixel.toNat ≤ 2 ^ 32) :
    ∃ swz dst, swizzleBox src width height depth swz0 rowPitch slicePitch bytesPerPixel = some swz ∧
      unswizzleBox swz width height depth dst0 rowPitch slicePitch bytesPerPixel = some dst ∧
      RoundTrip width.toNat height.toNat depth.toNat rowPitch.toNat slicePitch.toNat
        bytesPerPixel.toNat src dst ∧
      TexelsOnly width.toNat height.toNat depth.toNat rowPitch.toNat slicePitch.toNat
        bytesPerPixel.toNat dst0 dst := by
  have hN : width.toNat * height.toNat * depth.toNat = 2 ^ (a + b + c) := by
    rw [hbox.widthPow, hbox.heightPow, hbox.depthPow, ← Nat.pow_add, ← Nat.pow_add]
  rw [hN] at hfit
  have habc : a + b + c ≤ 32 := by
    have hle : 2 ^ (a + b + c) ≤ 2 ^ 32 := le_trans (Nat.le_mul_of_pos_right _ hbox.bppPos) hfit
    exact (Nat.pow_le_pow_iff_right (by norm_num)).mp hle
  obtain ⟨masks, hgen, hspec⟩ :=
    generateSwizzleMasks_spec hbox.widthPow hbox.heightPow hbox.depthPow habc
  refine ⟨_, _, boxInternal_eq .swizzle src swz0 rowPitch slicePitch bytesPerPixel hgen,
    boxInternal_eq .unswizzle _ dst0 rowPitch slicePitch bytesPerPixel hgen, ?_,
    unswizzle_frame hbox masks dst0 _⟩
  -- each texel: linear ← swizzled (unswizzle), swizzled ← linear (swizzle)
  intro x y z i hx hy hz hi
  rw [unswizzle_copy_at hbox masks dst0 _ hx hy hz hi]
  exact swizzle_copy_at hbox hspec hfit swz0 src hx hy hz hi

/-- The round trip on a `4 × 2` texture of 2-byte texels with padded
    rows (pitch 12) and slices (pitch 32). -/
theorem swizzle_unswizzle_round_trip_4x2 :
    PitchedBox 4 2 1 12 32 2 2 1 0 ∧
      ∃ swz dst, swizzleBox (fun addr => UInt8.ofNat addr) 4 2 1 (fun _ => 0) 12 32 2 = some swz ∧
        unswizzleBox swz 4 2 1 (fun _ => 0xff) 12 32 2 = some dst ∧
        RoundTrip 4 2 1 12 32 2 (fun addr => UInt8.ofNat addr) dst ∧
        TexelsOnly 4 2 1 12 32 2 (fun _ => 0xff) dst :=
  have hbox : PitchedBox 4 2 1 12 32 2 2 1 0 :=
    ⟨by decide, by decide, by decide, by decide, by decide, by decide⟩
  ⟨hbox, swizzle_unswizzle_round_trip _ _ _ 4 2 1 12 32 2 2 1 0 hbox (by decide)⟩

/-- A source texture whose only non-zero byte is the first byte of texel
    `(0, 2 ^ 14, 0)` of a `2 ^ 15 × 2 ^ 15 × 4` box with tight pitches. -/
def wrapProbe (addr : Nat) : UInt8 := if addr = 0x40000000 then 1 else 0

/-- Without the 32-bit bound the round trip fails.  In a `2 ^ 15 × 2 ^ 15 × 4`
    box of 2-byte texels (with pitches as small as `PitchedBox` allows) the
    swizzled index of texel `(0, 2 ^ 14, 0)` is `2 ^ 31`, and the 32-bit
    product `(off_y + off_z) * bytes_per_pixel` wraps it to the byte offset
    of texel `(0, 0, 0)`: the unswizzle reads both texels from the same
    two bytes, so they cannot both come back. -/
theorem swizzle_round_trip_wraps :
    PitchedBox 0x8000 0x8000 4 0x10000 0x80000000 2 15 15 2 ∧
      ∃ swz dst, swizzleBox wrapProbe 0x8000 0x8000 4 (fun _ => 0) 0x10000 0x80000000 2 = some swz ∧
        unswizzleBox swz 0x8000 0x8000 4 (fun _ => 0) 0x10000 0x80000000 2 = some dst ∧
        ¬ RoundTrip 0x8000 0x8000 4 0x10000 0x80000000 2 wrapProbe dst := by
  have hbox : PitchedBox 0x8000 0x8000 4 0x10000 0x80000000 2 15 15 2 :=
    ⟨by decide, by decide, by decide, by decide, by decide, by decide⟩
  have hgen : generateSwizzleMasks 0x8000 0x8000 4 = some (0x55555549, 0xAAAAAA92, 0x24) := by
    decide
  refine ⟨hbox, _, _, boxInternal_eq .swizzle wrapProbe _ _ _ _ hgen,
    boxInternal_eq .unswizzle _ _ _ _ _ hgen, ?_⟩
  intro hrt
  -- `y = 2 ^ 14` deposits to the top bit of `mask_y`
  have hoffY : axisOffset 0xAAAAAA92 0x4000 = 0x80000000 :=
    UInt32.toNat_inj.mp (by rw [axisOffset_toNat]; decide)
  let swz := copyAll (fun _ => 0) wrapProbe (2 : UInt32).toNat
    (boxOps .swizzle 0x8000 0x8000 4 0x55555549 0xAAAAAA92 0x24 0x10000 0x80000000 2)
  have hfirst := unswizzle_copy_at hbox (0x55555549, 0xAAAAAA92, 0x24) (fun _ => 0) swz
    (x := 0) (y := 0) (z := 0) (i := 0) (by decide) (by decide) (by decide) (by decide)
  have hlast := unswizzle_copy_at hbox (0x55555549, 0xAAAAAA92, 0x24) (fun _ => 0) swz
    (x := 0) (y := 0x4000) (z := 0) (i := 0) (by decide) (by decide) (by decide) (by decide)
  have hsame : swizzledOffset 0x55555549 0xAAAAAA92 0x24 2 0 0x4000 0 =
      swizzledOffset 0x55555549 0xAAAAAA92 0x24 2 0 0 0 := by
    simp only [swizzledOffset, hoffY]
    rfl
  have h0 := hrt 0 0 0 0 (by decide) (by decide) (by decide) (by decide)
  have h1 := hrt 0 0x4000 0 0 (by decide) (by decide) (by decide) (by decide)
  -- both texels come back from the same swizzled bytes, but their sources differ
  have hcollide : wrapProbe (texelAddr 0x10000 0x80000000 2 0 0 0 + 0) =
      wrapProbe (texelAddr 0x10000 0x80000000 2 0 0x4000 0 + 0) := by
    rw [← h0, ← h1]
    refine hfirst.trans ?_
    rw [← hsame]
    exact hlast.symm
  exact absurd hcollide (by decide)

end Xemu.Nv2a
