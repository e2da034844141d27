import Mathlib
import Xemu.Nv2a.Swizzle

/-! # Swizzled textures: every swizzled byte is written once

    Built on the model of `hw/xbox/nv2a/pgraph/swizzle.c` in
    `Xemu.Nv2a.Swizzle`.  For a `2 ^ a × 2 ^ b × 2 ^ c` box the swizzled
    index of texel `(x, y, z)` is the `or` of the deposits of `x`, `y` and
    `z` into the three masks; it maps the box one to one onto
    `[0, 2 ^ (a + b + c))`.  So the copies of `swizzle_box` write every
    byte of the first `width * height * depth * bytes_per_pixel` bytes of
    the swizzled buffer exactly once, and nothing past them.

    The results:
    - `swizzleIndex_bijOn`: the index is a bijection from the box onto
      `[0, width * height * depth)`, when the box has at most `2 ^ 32`
      texels;
    - `swizzle_write_count`: each byte is in exactly one copy's
      destination range when it is below `width * height * depth *
      bytes_per_pixel ≤ 2 ^ 32`, and in none above;
    - above `2 ^ 32` texels the masks cannot hold the box: the `do ...
      while` loop shifts the last mask bits out of the 32-bit `mask_bit`,
      the assertion still holds, and two texels share an index.
-/

namespace Xemu.Nv2a

open Xemu.Deposit Xemu.Memory

/-! ## Section 1: The index as an `or` of deposits -/

theorem Partition.or_eq {n x y z : Nat} (h : Partition n x y z) : x ||| y ||| z = 2 ^ n - 1 := by
  rw [or_eq_add_of_and_eq_zero _ _ h.xy,
    or_eq_add_of_and_eq_zero _ _ (add_and_eq_zero _ _ _ h.xy h.xz h.yz), h.sum]

section index

variable {masks : UInt32 × UInt32 × UInt32} {a b c : Nat}

/-- The masks' union covers the low `a + b + c` bits. -/
theorem MasksSpec.or_toNat (h : MasksSpec a b c masks) :
    (masks.1 ||| masks.2.1 ||| masks.2.2).toNat = 2 ^ (a + b + c) - 1 := by
  rw [UInt32.toNat_or, UInt32.toNat_or]
  exact h.part.or_eq

/-- Deposits into disjoint masks do not overlap, so their sum is their
    `or`. -/
theorem swizzleIndex_eq_or (h : MasksSpec a b c masks) (x y z : Nat) :
    swizzleIndex masks x y z =
      deposit 32 x masks.1.toNat ||| deposit 32 y masks.2.1.toNat ||| deposit 32 z masks.2.2.toNat := by
  have hxy := deposit_and_deposit (w := 32) x y _ _ h.part.xy
  have hxz := deposit_and_deposit (w := 32) x z _ _ h.part.xz
  have hyz := deposit_and_deposit (w := 32) y z _ _ h.part.yz
  rw [or_eq_add_of_and_eq_zero _ _ hxy,
    or_eq_add_of_and_eq_zero _ _ (add_and_eq_zero _ _ _ hxy hxz hyz)]
  rfl

end index

/-! ## Section 2: The texels of the box

    The loops visit the texels in the order of `texelList` (`z`
    outermost); as a set they are `texelBox`.  Counting the copies that
    touch a byte is counting texels. -/

/-- The texels of a `w × h × d` box. -/
def texelBox (w h d : Nat) : Finset (Nat × Nat × Nat) :=
  Finset.range w ×ˢ Finset.range h ×ˢ Finset.range d

/-- The texels in the loops' order: `z`, then `y`, then `x`. -/
def texelList (w h d : Nat) : List (Nat × Nat × Nat) :=
  (List.range d).flatMap fun z => (List.range h).flatMap fun y =>
    (List.range w).map fun x => (x, y, z)

section box

variable {w h d : Nat}

@[simp] theorem mem_texelBox {t : Nat × Nat × Nat} :
    t ∈ texelBox w h d ↔ t.1 < w ∧ t.2.1 < h ∧ t.2.2 < d := by
  simp [texelBox]

theorem card_texelBox : (texelBox w h d).card = w * h * d := by
  simp [texelBox, Finset.card_product, Nat.mul_assoc]

theorem mem_texelList {t : Nat × Nat × Nat} :
    t ∈ texelList w h d ↔ t.1 < w ∧ t.2.1 < h ∧ t.2.2 < d := by
  obtain ⟨x, y, z⟩ := t
  simp only [texelList, List.mem_flatMap, List.mem_map, List.mem_range, Prod.mk.injEq]
  constructor
  · rintro ⟨z', hz, y', hy, x', hx, rfl, rfl, rfl⟩
    exact ⟨hx, hy, hz⟩
  · rintro ⟨hx, hy, hz⟩
    exact ⟨z, hz, y, hy, x, hx, rfl, rfl, rfl⟩

/-- Each texel is visited once: the rows, and the slices, hold
    different texels. -/
theorem texelList_nodup : (texelList w h d).Nodup := by
  rw [texelList, List.nodup_flatMap]
  refine ⟨fun z _ => ?_, ?_⟩
  · rw [List.nodup_flatMap]
    refine ⟨fun y _ => List.nodup_range.map (fun x x' hx => by simpa using hx), ?_⟩
    exact List.nodup_range.pairwise_of_forall_ne fun y _ y' _ hne => by
      simp only [Function.onFun, List.disjoint_left, List.mem_map, List.mem_range]
      rintro _ ⟨x, _, rfl⟩ ⟨x', _, hx'⟩
      simp only [Prod.mk.injEq] at hx'
      exact hne hx'.2.1.symm
  · exact List.nodup_range.pairwise_of_forall_ne fun z _ z' _ hne => by
      simp only [Function.onFun, List.disjoint_left, List.mem_flatMap, List.mem_map,
        List.mem_range]
      rintro _ ⟨y, _, x, _, rfl⟩ ⟨y', _, x', _, hx'⟩
      simp only [Prod.mk.injEq] at hx'
      exact hne hx'.2.2.symm

theorem toFinset_texelList : (texelList w h d).toFinset = texelBox w h d := by
  ext t
  rw [List.mem_toFinset, mem_texelList, mem_texelBox]

/-- Counting texels of the loop order that pass a test. -/
theorem countP_texelList (q : Nat × Nat × Nat → Bool) :
    (texelList w h d).countP q = ((texelBox w h d).filter fun t => q t = true).card := by
  rw [List.countP_eq_length_filter, ← List.toFinset_card_of_nodup (texelList_nodup.filter _),
    List.toFinset_filter, toFinset_texelList]

end box

/-- The copies of a loop nest are one per texel, in loop order. -/
theorem boxOps_eq_map (dir : Direction)
    (width height depth maskX maskY maskZ rowPitch slicePitch bytesPerPixel : UInt32) :
    boxOps dir width height depth maskX maskY maskZ rowPitch slicePitch bytesPerPixel =
      (texelList width.toNat height.toNat depth.toNat).map fun t =>
        dir.place (linearOffset rowPitch slicePitch bytesPerPixel t.1 t.2.1 t.2.2)
          (swizzledOffset maskX maskY maskZ bytesPerPixel t.1 t.2.1 t.2.2) := by
  simp only [boxOps, texelList, List.map_flatMap, List.map_map]
  rfl

/-! ## Section 3: The index is a bijection

    Injective on the box (`swizzleIndex_inj`) and into `[0, 2 ^ (a + b +
    c))` (`swizzleIndex_le`), between two sets of `2 ^ (a + b + c)`
    elements: so onto. -/

section bijection

variable {masks : UInt32 × UInt32 × UInt32} {a b c : Nat}

theorem swizzleIndex_mapsTo (h : MasksSpec a b c masks) :
    Set.MapsTo (fun t : Nat × Nat × Nat => swizzleIndex masks t.1 t.2.1 t.2.2)
      ↑(texelBox (2 ^ a) (2 ^ b) (2 ^ c)) ↑(Finset.range (2 ^ (a + b + c))) := by
  intro t _
  have := swizzleIndex_le h t.1 t.2.1 t.2.2
  have hpos := Nat.two_pow_pos (a + b + c)
  simp only [Finset.coe_range, Set.mem_Iio]
  omega

theorem swizzleIndex_injOn (h : MasksSpec a b c masks) :
    Set.InjOn (fun t : Nat × Nat × Nat => swizzleIndex masks t.1 t.2.1 t.2.2)
      ↑(texelBox (2 ^ a) (2 ^ b) (2 ^ c)) := by
  rintro ⟨x, y, z⟩ ht ⟨x', y', z'⟩ ht' heq
  simp only [Finset.mem_coe, mem_texelBox] at ht ht'
  exact swizzleIndex_inj h ht.1 ht.2.1 ht.2.2 ht'.1 ht'.2.1 ht'.2.2 heq

/-- Every index below `2 ^ (a + b + c)` is a texel's: the box and the
    index range have the same size. -/
theorem swizzleIndex_surjOn (h : MasksSpec a b c masks) :
    Set.SurjOn (fun t : Nat × Nat × Nat => swizzleIndex masks t.1 t.2.1 t.2.2)
      ↑(texelBox (2 ^ a) (2 ^ b) (2 ^ c)) ↑(Finset.range (2 ^ (a + b + c))) := by
  have hcard : (Finset.range (2 ^ (a + b + c))).card ≤ (texelBox (2 ^ a) (2 ^ b) (2 ^ c)).card := by
    rw [Finset.card_range, card_texelBox, ← Nat.pow_add, ← Nat.pow_add]
  exact Finset.surjOn_of_injOn_of_card_le _ (swizzleIndex_mapsTo h) (swizzleIndex_injOn h) hcard

theorem swizzleIndex_bijOn (h : MasksSpec a b c masks) :
    Set.BijOn (fun t : Nat × Nat × Nat => swizzleIndex masks t.1 t.2.1 t.2.2)
      ↑(texelBox (2 ^ a) (2 ^ b) (2 ^ c)) ↑(Finset.range (2 ^ (a + b + c))) :=
  ⟨swizzleIndex_mapsTo h, swizzleIndex_injOn h, swizzleIndex_surjOn h⟩

/-- Exactly one texel of the box has a given index below `2 ^ (a + b +
    c)`, and none has an index above. -/
theorem card_filter_swizzleIndex (h : MasksSpec a b c masks) (n : Nat) :
    ((texelBox (2 ^ a) (2 ^ b) (2 ^ c)).filter
        fun t => swizzleIndex masks t.1 t.2.1 t.2.2 = n).card =
      if n < 2 ^ (a + b + c) then 1 else 0 := by
  split_ifs with hn
  · obtain ⟨t, ht, rfl⟩ := swizzleIndex_surjOn h (by simpa using hn)
    rw [Finset.card_eq_one]
    refine ⟨t, Finset.eq_singleton_iff_unique_mem.mpr ⟨Finset.mem_filter.mpr ⟨ht, rfl⟩, ?_⟩⟩
    intro t' ht'
    rw [Finset.mem_filter] at ht'
    exact swizzleIndex_injOn h ht'.1 ht ht'.2
  · rw [Finset.card_eq_zero, Finset.filter_eq_empty_iff]
    intro t ht heq
    have := swizzleIndex_mapsTo h ht
    simp only [heq, Finset.coe_range, Set.mem_Iio] at this
    exact hn this

end bijection

/-! ## Section 4: The copies of `swizzle_box` -/

/-- A byte lies in the range of the `k`-th block of `n` bytes exactly
    when `k = addr / n`. -/
theorem mem_block_iff (k n addr : Nat) (hn : 0 < n) :
    (k * n ≤ addr ∧ addr < k * n + n) ↔ k = addr / n := by
  constructor
  · rintro ⟨hlo, hhi⟩
    exact (Nat.div_eq_of_lt_le hlo (by rw [Nat.add_mul, Nat.one_mul]; exact hhi)).symm
  · rintro rfl
    exact ⟨Nat.div_mul_le_self addr n, by
      have := Nat.lt_div_mul_add (a := addr) hn
      omega⟩

section writes

variable {width height depth rowPitch slicePitch bytesPerPixel : UInt32} {a b c : Nat}
  {masks : UInt32 × UInt32 × UInt32}

/-- Every byte below `width * height * depth * bytes_per_pixel` is in
    the destination range of exactly one copy of `swizzle_box`, and every
    byte above in none, when that size fits in 32-bit byte offsets. -/
theorem swizzle_write_count (hw : width.toNat = 2 ^ a) (hh : height.toNat = 2 ^ b)
    (hd : depth.toNat = 2 ^ c) (h : MasksSpec a b c masks)
    (hfit : 2 ^ (a + b + c) * bytesPerPixel.toNat ≤ 2 ^ 32) (addr : Nat) :
    (boxOps .swizzle width height depth masks.1 masks.2.1 masks.2.2 rowPitch slicePitch
        bytesPerPixel).countP (fun op => decide (op.1 ≤ addr ∧ addr < op.1 + bytesPerPixel.toNat)) =
      if addr < 2 ^ (a + b + c) * bytesPerPixel.toNat then 1 else 0 := by
  rw [boxOps_eq_map, List.countP_map, hw, hh, hd]
  rcases Nat.eq_zero_or_pos bytesPerPixel.toNat with h0 | hbpp
  · -- no bytes per texel: every range is empty
    rw [h0, Nat.mul_zero, if_neg (Nat.not_lt_zero _), List.countP_eq_zero]
    intro t _
    simp [Direction.place]
  -- a byte is in texel `t`'s range exactly when `t` has index `addr / bytes_per_pixel`
  rw [countP_texelList, Finset.filter_congr (q := fun t => swizzleIndex masks t.1 t.2.1 t.2.2 =
    addr / bytesPerPixel.toNat), card_filter_swizzleIndex h]
  · exact if_congr (Nat.div_lt_iff_lt_mul hbpp) rfl rfl
  intro t _
  simp only [Function.comp_apply, Direction.place, decide_eq_true_eq]
  rw [swizzledOffset_eq h hbpp hfit]
  exact mem_block_iff _ _ _ hbpp

/-- The loops' swizzled byte offset is the `or` of the deposits times the
    texel size, when the swizzled box fits in 32-bit byte offsets. -/
theorem swizzledOffset_eq_or (h : MasksSpec a b c masks)
    (hfit : 2 ^ (a + b + c) * bytesPerPixel.toNat ≤ 2 ^ 32) (x y z : Nat) :
    swizzledOffset masks.1 masks.2.1 masks.2.2 bytesPerPixel x y z =
      (deposit 32 x masks.1.toNat ||| deposit 32 y masks.2.1.toNat ||| deposit 32 z masks.2.2.toNat) *
        bytesPerPixel.toNat := by
  rcases Nat.eq_zero_or_pos bytesPerPixel.toNat with h0 | hbpp
  · have hzero : bytesPerPixel = 0 := UInt32.toNat_inj.mp h0
    simp [swizzledOffset, hzero]
  · rw [swizzledOffset_eq h hbpp hfit, swizzleIndex_eq_or h]

end writes

/-! ## Section 5: `swizzle_box` on at most `2 ^ 32` texels and bytes -/

/-- For a power-of-two box of at most `2 ^ 32` texels whose swizzled copy
    fits in `2 ^ 32` bytes: the masks are disjoint with union `width *
    height * depth - 1`; the loops' swizzled byte offset of a texel is the
    `or` of its deposits times the texel size; the swizzled index maps the
    box one to one onto `[0, width * height * depth)`; and `swizzle_box`
    writes every byte below `width * height * depth * bytes_per_pixel`
    exactly once and no byte above. -/
theorem swizzle_box_exactly_once (src swz0 : Nat → UInt8)
    (width height depth rowPitch slicePitch bytesPerPixel : UInt32) (a b c : Nat)
    (hw : width.toNat = 2 ^ a) (hh : height.toNat = 2 ^ b) (hd : depth.toNat = 2 ^ c)
    (hN : width.toNat * height.toNat * depth.toNat ≤ 2 ^ 32)
    (hfit : width.toNat * height.toNat * depth.toNat * bytesPerPixel.toNat ≤ 2 ^ 32) :
    ∃ masks swz, generateSwizzleMasks width height depth = some masks ∧
      masks.1 &&& masks.2.1 = 0 ∧ masks.1 &&& masks.2.2 = 0 ∧ masks.2.1 &&& masks.2.2 = 0 ∧
      (masks.1 ||| masks.2.1 ||| masks.2.2).toNat = width.toNat * height.toNat * depth.toNat - 1 ∧
      (∀ x y z, swizzledOffset masks.1 masks.2.1 masks.2.2 bytesPerPixel x y z =
        (deposit 32 x masks.1.toNat ||| deposit 32 y masks.2.1.toNat |||
          deposit 32 z masks.2.2.toNat) * bytesPerPixel.toNat) ∧
      Set.BijOn (fun t : Nat × Nat × Nat => swizzleIndex masks t.1 t.2.1 t.2.2)
        ↑(texelBox width.toNat height.toNat depth.toNat)
        ↑(Finset.range (width.toNat * height.toNat * depth.toNat)) ∧
      swizzleBox src width height depth swz0 rowPitch slicePitch bytesPerPixel = some swz ∧
      swz = copyAll swz0 src bytesPerPixel.toNat (boxOps .swizzle width height depth masks.1
        masks.2.1 masks.2.2 rowPitch slicePitch bytesPerPixel) ∧
      (∀ addr, (boxOps .swizzle width height depth masks.1 masks.2.1 masks.2.2 rowPitch slicePitch
          bytesPerPixel).countP (fun op => decide (op.1 ≤ addr ∧ addr < op.1 + bytesPerPixel.toNat)) =
        if addr < width.toNat * height.toNat * depth.toNat * bytesPerPixel.toNat then 1 else 0) ∧
      (∀ addr, width.toNat * height.toNat * depth.toNat * bytesPerPixel.toNat ≤ addr →
        swz addr = swz0 addr) := by
  have hbox : width.toNat * height.toNat * depth.toNat = 2 ^ (a + b + c) := by
    rw [hw, hh, hd, ← Nat.pow_add, ← Nat.pow_add]
  have habc : a + b + c ≤ 32 := (Nat.pow_le_pow_iff_right (by norm_num)).mp (hbox ▸ hN)
  rw [hbox] at hfit ⊢
  obtain ⟨masks, hgen, hspec⟩ := generateSwizzleMasks_spec hw hh hd habc
  refine ⟨masks, _, hgen, ?_, ?_, ?_, hspec.or_toNat, swizzledOffset_eq_or hspec hfit, ?_,
    boxInternal_eq .swizzle src swz0 rowPitch slicePitch bytesPerPixel hgen, rfl,
    fun addr => swizzle_write_count hw hh hd hspec hfit addr, ?_⟩
  · exact UInt32.toNat_inj.mp (by rw [UInt32.toNat_and]; exact hspec.part.xy)
  · exact UInt32.toNat_inj.mp (by rw [UInt32.toNat_and]; exact hspec.part.xz)
  · exact UInt32.toNat_inj.mp (by rw [UInt32.toNat_and]; exact hspec.part.yz)
  · rw [hw, hh, hd]
    exact swizzleIndex_bijOn hspec
  · -- a byte above the box is in no copy's range
    intro addr haddr
    apply copyAll_outside
    have hnone : (boxOps .swizzle width height depth masks.1 masks.2.1 masks.2.2 rowPitch
        slicePitch bytesPerPixel).countP
          (fun op => decide (op.1 ≤ addr ∧ addr < op.1 + bytesPerPixel.toNat)) = 0 := by
      rw [swizzle_write_count hw hh hd hspec hfit addr, if_neg (by omega)]
    rw [List.countP_eq_zero] at hnone
    intro op hop
    simpa using hnone op hop

/-- A `4 × 2` texture of 2-byte texels: `swizzle_box` leaves every byte
    from 16 on as it was. -/
theorem swizzle_box_exactly_once_4x2 :
    ∃ swz, swizzleBox (fun addr => UInt8.ofNat addr) 4 2 1 (fun _ => 0) 12 32 2 = some swz ∧
      ∀ addr, 16 ≤ addr → swz addr = 0 := by
  obtain ⟨_, swz, -, -, -, -, -, -, -, hswz, -, -, hframe⟩ :=
    swizzle_box_exactly_once (fun addr => UInt8.ofNat addr) (fun _ => 0) 4 2 1 12 32 2 2 1 0
      (by decide) (by decide) (by decide) (by decide) (by decide)
  exact ⟨swz, hswz, fun addr haddr => hframe addr haddr⟩

/-- Above `2 ^ 32` texels the masks cannot hold the box.  For
    `0x10000 × 0x10000 × 2` the loop hands out 33 bits and the last one is
    shifted out of the 32-bit `mask_bit`; the assertion still holds
    (`mask_bit` has wrapped to `0`), the union is `2 ^ 32 - 1` instead of
    `2 ^ 33 - 1`, and texels `(0, 0, 0)` and `(0, 0x8000, 0)` share
    index `0`. -/
theorem swizzle_masks_short :
    generateSwizzleMasks 0x10000 0x10000 2 = some (0xAAAAAAA9, 0x55555552, 4) ∧
    ((0xAAAAAAA9 : UInt32) ||| 0x55555552 ||| 4).toNat ≠ 0x10000 * 0x10000 * 2 - 1 ∧
    swizzleIndex (0xAAAAAAA9, 0x55555552, 4) 0 0x8000 0 =
      swizzleIndex (0xAAAAAAA9, 0x55555552, 4) 0 0 0 := by
  decide

end Xemu.Nv2a
