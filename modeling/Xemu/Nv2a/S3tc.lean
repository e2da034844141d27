import Mathlib
import Xemu.Lib.Loop
import Xemu.Lib.Memory
import Xemu.Lib.Word

/-! # S3TC texture decompression

    A model of `hw/xbox/nv2a/pgraph/s3tc.c`.  `s3tc_decompress_3d` walks
    the blocks of a DXT1, DXT3 or DXT5 texture in groups of up to four
    slices, numbering them with a running `sub_block_index`, and each
    block writes the texels of its `4 × 4` square that lie inside the
    image; `s3tc_decompress_2d` does the same for one slice.

    The model keeps the code's types: the sizes are `unsigned int`
    (`UInt32`), the locals and the parameters of the block writers are
    `int` (`Int32`, wrapping as QEMU builds with `-fwrapv`).  The input is
    a byte memory indexed from `data`, and a run returns the size passed to
    `g_malloc` and the list of byte stores into `converted_data`, in order,
    at their offsets from it.
-/

namespace Xemu.Nv2a

open Xemu.Loop Xemu.Memory Xemu.Word

/-! ## Section 1: Decoding one block -/

/-- `enum S3TC_DECOMPRESS_FORMAT` -/
inductive S3tcFormat
  | dxt1
  | dxt3
  | dxt5
  deriving DecidableEq, Repr

/-- `n` bytes from `addr`, little-endian: what the casts
    `((uint16_t*)block_data)[k]`, `((uint32_t*)block_data)[k]` and
    `((uint64_t*)block_data)[0]` read. -/
def readLE (data : Int → UInt8) (addr : Int) : Nat → Nat
  | 0 => 0
  | n + 1 => (data addr).toNat + 256 * readLE data (addr + 1) n

/-- The tables `uint8_t r[4], g[4], b[4], a[16]` of one block.  An entry
    the code leaves unset is never read; it reads as `0` here. -/
structure BlockPalette where
  r : List UInt8
  g : List UInt8
  b : List UInt8
  a : List UInt8
  deriving DecidableEq, Repr

/-- One 5:6:5 colour expanded to 8-bit channels, as `decode_bc1_colors`
    computes them in `int`. -/
def expand565 (c : UInt16) : UInt8 × UInt8 × UInt8 :=
  (UInt8.ofNat (((c &&& 0xF800) >>> 8).toNat * 0xFF / 0xF8),
    UInt8.ofNat (((c &&& 0x07E0) >>> 3).toNat * 0xFF / 0xFC),
    UInt8.ofNat (((c &&& 0x001F) <<< 3).toNat * 0xFF / 0xF8))

/-- The two colours between two channel values: their midpoint and
    transparent black, or the thirds. -/
def bc1Channel (v0 v1 : UInt8) (transparent : Bool) : List UInt8 :=
  if transparent then [v0, v1, UInt8.ofNat ((v0.toNat + v1.toNat) / 2), 0]
  else [v0, v1, UInt8.ofNat ((2 * v0.toNat + v1.toNat) / 3),
    UInt8.ofNat ((v0.toNat + 2 * v1.toNat) / 3)]

/-- `decode_bc1_colors` -/
def decodeBc1Colors (c0 c1 : UInt16) (transparent : Bool) : BlockPalette :=
  let e0 := expand565 c0
  let e1 := expand565 c1
  { r := bc1Channel e0.1 e1.1 transparent
    g := bc1Channel e0.2.1 e1.2.1 transparent
    b := bc1Channel e0.2.2 e1.2.2 transparent
    a := if transparent then [255, 255, 255, 0] else [255, 255, 255, 255] }

/-- The bytes `*p++ = r[index]; *p++ = g[index]; *p++ = b[index];
    *p++ = a[alpha_index];` at offset `p`. -/
def storeRgba (p : Int) (pal : BlockPalette) (index alphaIndex : Nat) : List (Int × UInt8) :=
  [(p, pal.r.getD index 0), (p + 1, pal.g.getD index 0), (p + 2, pal.b.getD index 0),
    (p + 3, pal.a.getD alphaIndex 0)]

/-- One texel of `write_block_to_texture`: the colour index is the texel's
    two bits of `indices`; the alpha index is the texel's position with
    `separate_alpha`, else the colour index. -/
def writeTexel (indices : UInt32) (pal : BlockPalette) (separateAlpha : Bool)
    (xyIndex p : Int32) : List (Int × UInt8) :=
  let index := (indices >>> (2 * xyIndex).toUInt32) &&& 0x03
  let alphaIndex := if separateAlpha then xyIndex.toNatClampNeg % 256 else index.toNat
  storeRgba p.toInt pal index.toNat alphaIndex

/-- The `x` loop of `write_block_to_texture`,
    `for (int x = x0; x < x1 && x < width; x++)`, from `x`.  It runs at
    most four times (`x1 = x0 + 4`, and when that wraps `x0 < x1` fails at
    once), so four passes of fuel never cut it short. -/
def blockColumns (indices : UInt32) (pal : BlockPalette) (separateAlpha : Bool)
    (x0 x1 width yIndex zPlusYPosFactor : Int32) : Nat → Int32 → List (Int × UInt8)
  | 0, _ => []
  | fuel + 1, x =>
    if x < x1 ∧ x < width then
      writeTexel indices pal separateAlpha (yIndex + x - x0) ((zPlusYPosFactor + x) * 4) ++
        blockColumns indices pal separateAlpha x0 x1 width yIndex zPlusYPosFactor fuel (x + 1)
    else []

/-- The `y` loop of `write_block_to_texture`, from `y`, with the same
    fuel. -/
def blockRows (indices : UInt32) (pal : BlockPalette) (separateAlpha : Bool)
    (x0 y0 x1 y1 width height zPosFactor : Int32) : Nat → Int32 → List (Int × UInt8)
  | 0, _ => []
  | fuel + 1, y =>
    if y < y1 ∧ y < height then
      blockColumns indices pal separateAlpha x0 x1 width (4 * (y - y0)) (zPosFactor + y * width) 4
          x0 ++
        blockRows indices pal separateAlpha x0 y0 x1 y1 width height zPosFactor fuel (y + 1)
    else []

/-- `write_block_to_texture`: the stores of the texels of block `(i, j)`
    that lie inside the image, in loop order. -/
def writeBlockToTexture (indices : UInt32) (i j width height zPosFactor : Int32)
    (pal : BlockPalette) (separateAlpha : Bool) : List (Int × UInt8) :=
  let x0 := i * 4
  let y0 := j * 4
  blockRows indices pal separateAlpha x0 y0 (x0 + 4) (y0 + 4) width height zPosFactor 4 y0

/-- The `uint16_t` at byte `k` of a block. -/
def blockWord16 (data : Int → UInt8) (blockData : Int) (k : Nat) : UInt16 :=
  UInt16.ofNat (readLE data (blockData + k) 2)

/-- The `uint32_t` colour indices at byte `k` of a block. -/
def blockIndices (data : Int → UInt8) (blockData : Int) (k : Nat) : UInt32 :=
  UInt32.ofNat (readLE data (blockData + k) 4)

/-- The locals of `decompress_dxt1_block` before the call to
    `write_block_to_texture`: the indices and the tables. -/
def dxt1Decode (data : Int → UInt8) (blockData : Int) : UInt32 × BlockPalette :=
  let c0 := blockWord16 data blockData 0
  let c1 := blockWord16 data blockData 2
  (blockIndices data blockData 4, decodeBc1Colors c0 c1 (c0 ≤ c1))

/-- `decompress_dxt1_block` -/
def decompressDxt1Block (data : Int → UInt8) (blockData : Int) (i j width height zPosFactor : Int32) :
    List (Int × UInt8) :=
  let d := dxt1Decode data blockData
  writeBlockToTexture d.1 i j width height zPosFactor d.2 false

/-- The sixteen explicit 4-bit alphas of a DXT3 block, expanded to 8 bits. -/
def dxt3Alpha (alpha : UInt64) : List UInt8 :=
  (List.range 16).map fun aI =>
    UInt8.ofNat ((((alpha >>> (4 * aI).toUInt64) &&& 0x0F) <<< 4).toNat * 0xFF / 0xF0)

/-- The locals of `decompress_dxt3_block` before its call. -/
def dxt3Decode (data : Int → UInt8) (blockData : Int) : UInt32 × BlockPalette :=
  let pal := decodeBc1Colors (blockWord16 data blockData 8) (blockWord16 data blockData 10) false
  let alpha : UInt64 := UInt64.ofNat (readLE data blockData 8)
  (blockIndices data blockData 12, { pal with a := dxt3Alpha alpha })

/-- `decompress_dxt3_block` -/
def decompressDxt3Block (data : Int → UInt8) (blockData : Int) (i j width height zPosFactor : Int32) :
    List (Int × UInt8) :=
  let d := dxt3Decode data blockData
  writeBlockToTexture d.1 i j width height zPosFactor d.2 true

/-- `a_palette` of a DXT5 block: the two endpoint alphas and six between
    them, or four between them with `0` and `255`. -/
def dxt5AlphaPalette (a0 a1 : UInt8) : List UInt8 :=
  let a0 := a0.toNat
  let a1 := a1.toNat
  if a0 > a1 then
    [a0, a1, (6 * a0 + 1 * a1) / 7, (5 * a0 + 2 * a1) / 7, (4 * a0 + 3 * a1) / 7,
      (3 * a0 + 4 * a1) / 7, (2 * a0 + 5 * a1) / 7, (1 * a0 + 6 * a1) / 7].map UInt8.ofNat
  else
    [a0, a1, (4 * a0 + 1 * a1) / 5, (3 * a0 + 2 * a1) / 5, (2 * a0 + 3 * a1) / 5,
      (1 * a0 + 4 * a1) / 5, 0, 255].map UInt8.ofNat

/-- The sixteen 3-bit alpha indices of a DXT5 block, looked up. -/
def dxt5Alpha (alpha : UInt64) (aPalette : List UInt8) : List UInt8 :=
  (List.range 16).map fun aI =>
    aPalette.getD ((alpha >>> (16 + 3 * aI).toUInt64) &&& 0x07).toNat 0

/-- The locals of `decompress_dxt5_block` before its call. -/
def dxt5Decode (data : Int → UInt8) (blockData : Int) : UInt32 × BlockPalette :=
  let pal := decodeBc1Colors (blockWord16 data blockData 8) (blockWord16 data blockData 10) false
  let alpha : UInt64 := UInt64.ofNat (readLE data blockData 8)
  let aPalette := dxt5AlphaPalette (data blockData) (data (blockData + 1))
  (blockIndices data blockData 12, { pal with a := dxt5Alpha alpha aPalette })

/-- `decompress_dxt5_block` -/
def decompressDxt5Block (data : Int → UInt8) (blockData : Int) (i j width height zPosFactor : Int32) :
    List (Int × UInt8) :=
  let d := dxt5Decode data blockData
  writeBlockToTexture d.1 i j width height zPosFactor d.2 true

/-- The per-format branch of the loops: the block's bytes start at
    `data + 8 * index` for DXT1 and `data + 16 * index` otherwise, the
    product taken in `int`. -/
def decompressBlock (fmt : S3tcFormat) (data : Int → UInt8) (index i j width height zPosFactor : Int32) :
    List (Int × UInt8) :=
  match fmt with
  | .dxt1 => decompressDxt1Block data (8 * index).toInt i j width height zPosFactor
  | .dxt3 => decompressDxt3Block data (16 * index).toInt i j width height zPosFactor
  | .dxt5 => decompressDxt5Block data (16 * index).toInt i j width height zPosFactor

/-! ## Section 2: The loops, as `s3tc.c` writes them -/

/-- `num_blocks = ((size + 3) & ~3) / 4`, the blocks across one side. -/
def numBlocks (size : UInt32) : Int32 := (((size + 3) &&& ~~~3) / 4).toInt32

/-- The `slice` loop of `s3tc_decompress_3d` for block `(i, j)`: one block
    per slice of the group, numbered by the running `sub_block_index`; the
    state is `(sub_block_index, stores)`. -/
def sliceLoop (fmt : S3tcFormat) (data : Int → UInt8) (width height : UInt32) (curDepth : Int32)
    (blockDepth : Nat) (i j : Int32) (st : Int32 × List (Int × UInt8)) : Int32 × List (Int × UInt8) :=
  forLoop blockDepth (fun slice st =>
      let zPosFactor : Int32 := ((curDepth + Int32.ofNat slice).toUInt32 * width * height).toInt32
      (st.1 + 1, st.2 ++ decompressBlock fmt data st.1 i j width.toInt32 height.toInt32 zPosFactor))
    st

/-- One pass of the `k` loop of `s3tc_decompress_3d`: a group of
    `MIN(depth - cur_depth, 4)` slices.  The state is
    `(cur_depth, sub_block_index, stores)`. -/
def depthGroup (fmt : S3tcFormat) (data : Int → UInt8) (width height depth : UInt32)
    (st : Int32 × Int32 × List (Int × UInt8)) : Int32 × Int32 × List (Int × UInt8) :=
  let curDepth := st.1
  let residualDepth : Int32 := (depth - curDepth.toUInt32).toInt32
  let blockDepth : Int32 := if residualDepth < 4 then residualDepth else 4
  let inner := forLoop (numBlocks height).toNatClampNeg (fun j st =>
      forLoop (numBlocks width).toNatClampNeg (fun i st =>
        sliceLoop fmt data width height curDepth blockDepth.toNatClampNeg (Int32.ofNat i)
          (Int32.ofNat j) st) st)
    st.2
  (curDepth + blockDepth, inner)

/-- `s3tc_decompress_3d`: the size passed to `g_malloc` and the stores into
    the buffer; `none` when an assertion fails. -/
def s3tcDecompress3d (fmt : S3tcFormat) (data : Int → UInt8) (width height depth : UInt32) :
    Option (UInt32 × List (Int × UInt8)) :=
  if width = 0 ∨ height = 0 ∨ depth = 0 then none
  else
    let numBlocksZ : Int32 := ((depth + 3) / 4).toInt32
    let st := forLoop numBlocksZ.toNatClampNeg (fun _ st => depthGroup fmt data width height depth st)
      (0, 0, [])
    some (width * height * depth * 4, st.2.2)

/-- `s3tc_decompress_2d` -/
def s3tcDecompress2d (fmt : S3tcFormat) (data : Int → UInt8) (width height : UInt32) :
    Option (UInt32 × List (Int × UInt8)) :=
  if width = 0 ∨ height = 0 then none
  else
    let numBlocksX := numBlocks width
    let stores := forLoop (numBlocks height).toNatClampNeg (fun j st =>
        forLoop numBlocksX.toNatClampNeg (fun i st =>
          let blockIndex := Int32.ofNat j * numBlocksX + Int32.ofNat i
          st ++ decompressBlock fmt data blockIndex (Int32.ofNat i) (Int32.ofNat j) width.toInt32
            height.toInt32 0) st)
      []
    some (width * height * 4, stores)

/-! ## Section 3: What the loops compute

    Texel `(x, y, z)` comes from texel `(x % 4, y % 4)` of block
    `blockNumber`: the groups of four slices come one after the other, and
    inside a group each block position holds the group's slices one after
    the other.  `s3tcStores` lists the stores texel by texel, in the loops'
    order. -/

/-- `⌈n / 4⌉`, the blocks across a side of `n` texels. -/
def blocksAcross (n : Nat) : Nat := (n + 3) / 4

/-- `MIN(depth - 4 * k, 4)`, the slices of depth group `k`. -/
def groupDepth (d k : Nat) : Nat := min 4 (d - 4 * k)

/-- The number of the block that holds texel `(x, y, z)`. -/
def blockNumber (w h d : Nat) (t : Nat × Nat × Nat) : Nat :=
  4 * (t.2.2 / 4) * blocksAcross w * blocksAcross h +
    (t.2.1 / 4 * blocksAcross w + t.1 / 4) * groupDepth d (t.2.2 / 4) + t.2.2 % 4

/-- Bytes per block. -/
def S3tcFormat.blockSize : S3tcFormat → Nat
  | .dxt1 => 8
  | .dxt3 => 16
  | .dxt5 => 16

/-- Whether the format's alpha is per texel (`separate_alpha`). -/
def S3tcFormat.separateAlpha : S3tcFormat → Bool
  | .dxt1 => false
  | .dxt3 => true
  | .dxt5 => true

/-- The indices and tables of a block of the format. -/
def blockDecode (fmt : S3tcFormat) (data : Int → UInt8) (blockData : Int) : UInt32 × BlockPalette :=
  match fmt with
  | .dxt1 => dxt1Decode data blockData
  | .dxt3 => dxt3Decode data blockData
  | .dxt5 => dxt5Decode data blockData

/-- The four bytes of texel `(u, v)` of block `n`. -/
def decodedTexel (fmt : S3tcFormat) (data : Int → UInt8) (n u v : Nat) : List UInt8 :=
  let d := blockDecode fmt data (fmt.blockSize * n)
  let xy := 4 * v + u
  let index := ((d.1 >>> UInt32.ofNat (2 * xy)) &&& 0x03).toNat
  let alphaIndex := if fmt.separateAlpha then xy else index
  [d.2.r.getD index 0, d.2.g.getD index 0, d.2.b.getD index 0, d.2.a.getD alphaIndex 0]

/-- The byte stores of one texel at byte offset `p`. -/
def texelStores (p : Nat) (bytes : List UInt8) : List (Int × UInt8) :=
  bytes.mapIdx fun c v => (((p + c : Nat) : Int), v)

/-- The texel index of `(x, y, z)` in a `w × h` slice layout. -/
def texelOffset (w h : Nat) (t : Nat × Nat × Nat) : Nat := t.2.2 * w * h + t.2.1 * w + t.1

/-- The stores of block `n` at block position `(i, j)` into slice `z`:
    its texels inside the image, row by row. -/
def blockStores (fmt : S3tcFormat) (data : Int → UInt8) (n i j w h z : Nat) : List (Int × UInt8) :=
  (List.range (min 4 (h - 4 * j))).flatMap fun dy => (List.range (min 4 (w - 4 * i))).flatMap fun dx =>
    texelStores (4 * texelOffset w h (4 * i + dx, 4 * j + dy, z)) (decodedTexel fmt data n dx dy)

/-! ## Section 4: One block

    On values below `2 ^ 31` the `int` arithmetic of
    `write_block_to_texture` is the arithmetic of naturals, and its two
    loops stop at the image's edge. -/

theorem decompressBlock_eq (fmt : S3tcFormat) (data : Int → UInt8) (index i j width height zPosFactor : Int32) :
    decompressBlock fmt data index i j width height zPosFactor =
      writeBlockToTexture (blockDecode fmt data (Int32.ofNat fmt.blockSize * index).toInt).1 i j width
        height zPosFactor (blockDecode fmt data (Int32.ofNat fmt.blockSize * index).toInt).2
        fmt.separateAlpha := by
  cases fmt <;> rfl

/-- One texel's stores at byte offset `p < 2 ^ 31` are the four bytes of
    its decoded texel. -/
theorem writeTexel_eq (fmt : S3tcFormat) (data : Int → UInt8) (n u v p : Nat) (hu : u < 4) (hv : v < 4)
    (hp : p < 2 ^ 31) :
    writeTexel (blockDecode fmt data (fmt.blockSize * n)).1 (blockDecode fmt data (fmt.blockSize * n)).2
        fmt.separateAlpha (Int32.ofNat (4 * v + u)) (Int32.ofNat p) =
      texelStores p (decodedTexel fmt data n u v) := by
  have hshift : (2 * Int32.ofNat (4 * v + u)).toUInt32 = UInt32.ofNat (2 * (4 * v + u)) := by
    rw [show (2 : Int32) = Int32.ofNat 2 from rfl, ← Int32.ofNat_mul, Int32.toUInt32_ofNat']
  have hxy : (Int32.ofNat (4 * v + u)).toNatClampNeg % 256 = 4 * v + u := by
    rw [toNatClampNeg_ofNat_of_lt _ (by omega)]
    omega
  simp only [writeTexel, hshift, hxy, toInt_ofNat32_of_lt p hp, storeRgba, texelStores, decodedTexel]
  simp

section block

variable (fmt : S3tcFormat) (data : Int → UInt8) (n : Nat)

/-- The `x` loop from `x = 4 i + t` with `4 - t` passes of fuel: the
    texels `t, t + 1, ...` of the row that lie inside the image.  The
    induction is on the fuel; at each pass `x < x1` holds, and `x < width`
    decides whether the row goes on. -/
theorem blockColumns_eq (i w dy zy : Nat) (hi : 4 * i + 4 < 2 ^ 31) (hw : w < 2 ^ 31)
    (hrow : 4 * (zy + w) ≤ 2 ^ 31) (hdy : dy < 4) :
    ∀ f t, t + f = 4 →
      blockColumns (blockDecode fmt data (fmt.blockSize * n)).1
          (blockDecode fmt data (fmt.blockSize * n)).2 fmt.separateAlpha (Int32.ofNat (4 * i))
          (Int32.ofNat (4 * i + 4)) (Int32.ofNat w) (Int32.ofNat (4 * dy)) (Int32.ofNat zy) f
          (Int32.ofNat (4 * i + t)) =
        (List.range' t (min 4 (w - 4 * i) - t)).flatMap fun dx =>
          texelStores (4 * (zy + (4 * i + dx))) (decodedTexel fmt data n dx dy) := by
  intro f
  induction f with
  | zero =>
    intro t ht
    rw [blockColumns, show min 4 (w - 4 * i) - t = 0 by omega, List.range'_zero, List.flatMap_nil]
  | succ f ih =>
    intro t ht
    have hx1 : Int32.ofNat (4 * i + t) < Int32.ofNat (4 * i + 4) :=
      (Int32.ofNat_lt_iff_lt (by omega) hi).mpr (by omega)
    have hxw : Int32.ofNat (4 * i + t) < Int32.ofNat w ↔ 4 * i + t < w :=
      Int32.ofNat_lt_iff_lt (by omega) hw
    rw [blockColumns]
    by_cases hin : 4 * i + t < w
    · -- texel `t` is inside: its stores, then the rest of the row
      rw [if_pos ⟨hx1, hxw.mpr hin⟩]
      have hxy : Int32.ofNat (4 * dy) + Int32.ofNat (4 * i + t) - Int32.ofNat (4 * i) =
          Int32.ofNat (4 * dy + t) := by
        rw [← Int32.ofNat_add, ← Int32.ofNat_sub _ _ (by omega)]
        congr 1
        omega
      have hp : (Int32.ofNat zy + Int32.ofNat (4 * i + t)) * 4 =
          Int32.ofNat (4 * (zy + (4 * i + t))) := by
        rw [← Int32.ofNat_add, show (4 : Int32) = Int32.ofNat 4 from rfl, ← Int32.ofNat_mul,
          Nat.mul_comm]
      have hnext : Int32.ofNat (4 * i + t) + 1 = Int32.ofNat (4 * i + (t + 1)) := by
        rw [show (1 : Int32) = Int32.ofNat 1 from rfl, ← Int32.ofNat_add, Nat.add_assoc]
      rw [hxy, hp, writeTexel_eq fmt data n t dy _ (by omega) hdy (by omega), hnext,
        ih (t + 1) (by omega), show min 4 (w - 4 * i) - t = (min 4 (w - 4 * i) - (t + 1)) + 1 by omega,
        List.range'_succ, List.flatMap_cons]
    · -- the row ends at the image's edge
      rw [if_neg (fun h => hin (hxw.mp h.2)), show min 4 (w - 4 * i) - t = 0 by omega,
        List.range'_zero, List.flatMap_nil]

/-- The `y` loop from `y = 4 j + t` with `4 - t` passes of fuel: the rows
    `t, t + 1, ...` of the block that lie inside the image, each by
    `blockColumns_eq`. -/
theorem blockRows_eq (i j w h z : Nat) (hi : 4 * i + 4 < 2 ^ 31) (hj : 4 * j + 4 < 2 ^ 31)
    (hw : w < 2 ^ 31) (hh : h < 2 ^ 31) (hslice : 4 * (z * w * h + h * w) ≤ 2 ^ 31) :
    ∀ f t, t + f = 4 →
      blockRows (blockDecode fmt data (fmt.blockSize * n)).1
          (blockDecode fmt data (fmt.blockSize * n)).2 fmt.separateAlpha (Int32.ofNat (4 * i))
          (Int32.ofNat (4 * j)) (Int32.ofNat (4 * i + 4)) (Int32.ofNat (4 * j + 4)) (Int32.ofNat w)
          (Int32.ofNat h) (Int32.ofNat (z * w * h)) f (Int32.ofNat (4 * j + t)) =
        (List.range' t (min 4 (h - 4 * j) - t)).flatMap fun dy =>
          (List.range (min 4 (w - 4 * i))).flatMap fun dx =>
            texelStores (4 * texelOffset w h (4 * i + dx, 4 * j + dy, z)) (decodedTexel fmt data n dx dy) := by
  intro f
  induction f with
  | zero =>
    intro t ht
    rw [blockRows, show min 4 (h - 4 * j) - t = 0 by omega, List.range'_zero, List.flatMap_nil]
  | succ f ih =>
    intro t ht
    have hy1 : Int32.ofNat (4 * j + t) < Int32.ofNat (4 * j + 4) :=
      (Int32.ofNat_lt_iff_lt (by omega) hj).mpr (by omega)
    have hyh : Int32.ofNat (4 * j + t) < Int32.ofNat h ↔ 4 * j + t < h :=
      Int32.ofNat_lt_iff_lt (by omega) hh
    rw [blockRows]
    by_cases hin : 4 * j + t < h
    · -- row `t` is inside: its texels, then the rest of the block
      rw [if_pos ⟨hy1, hyh.mpr hin⟩]
      have hyIndex : 4 * (Int32.ofNat (4 * j + t) - Int32.ofNat (4 * j)) = Int32.ofNat (4 * t) := by
        rw [← Int32.ofNat_sub _ _ (by omega), show (4 : Int32) = Int32.ofNat 4 from rfl,
          ← Int32.ofNat_mul]
        congr 1
        omega
      have hzy : Int32.ofNat (z * w * h) + Int32.ofNat (4 * j + t) * Int32.ofNat w =
          Int32.ofNat (z * w * h + (4 * j + t) * w) := by
        rw [← Int32.ofNat_mul, ← Int32.ofNat_add]
      have hnext : Int32.ofNat (4 * j + t) + 1 = Int32.ofNat (4 * j + (t + 1)) := by
        rw [show (1 : Int32) = Int32.ofNat 1 from rfl, ← Int32.ofNat_add, Nat.add_assoc]
      -- the row ends before the slice does
      have hrow : (4 * j + t) * w + w ≤ h * w := by
        rw [← Nat.succ_mul]
        exact Nat.mul_le_mul_right w hin
      have hcols := blockColumns_eq fmt data n i w t (z * w * h + (4 * j + t) * w) hi hw (by omega)
        (by omega) 4 0 rfl
      simp only [Nat.add_zero, Nat.sub_zero] at hcols
      rw [hyIndex, hzy, hcols, hnext,
        ih (t + 1) (by omega), show min 4 (h - 4 * j) - t = (min 4 (h - 4 * j) - (t + 1)) + 1 by omega,
        List.range'_succ, List.flatMap_cons, ← List.range_eq_range']
      rfl
    · -- the block ends at the image's edge
      rw [if_neg (fun h => hin (hyh.mp h.2)), show min 4 (h - 4 * j) - t = 0 by omega,
        List.range'_zero, List.flatMap_nil]

/-- `write_block_to_texture` of block `n` at `(i, j)` into slice `z`, on
    values below `2 ^ 31`, stores its texels inside the image. -/
theorem writeBlockToTexture_eq (i j w h z : Nat) (hi : 4 * i + 4 < 2 ^ 31) (hj : 4 * j + 4 < 2 ^ 31)
    (hw : w < 2 ^ 31) (hh : h < 2 ^ 31) (hslice : 4 * (z * w * h + h * w) ≤ 2 ^ 31) :
    writeBlockToTexture (blockDecode fmt data (fmt.blockSize * n)).1 (Int32.ofNat i) (Int32.ofNat j)
        (Int32.ofNat w) (Int32.ofNat h) (Int32.ofNat (z * w * h))
        (blockDecode fmt data (fmt.blockSize * n)).2 fmt.separateAlpha =
      blockStores fmt data n i j w h z := by
  have hx0 : Int32.ofNat i * 4 = Int32.ofNat (4 * i) := by
    rw [show (4 : Int32) = Int32.ofNat 4 from rfl, ← Int32.ofNat_mul, Nat.mul_comm]
  have hy0 : Int32.ofNat j * 4 = Int32.ofNat (4 * j) := by
    rw [show (4 : Int32) = Int32.ofNat 4 from rfl, ← Int32.ofNat_mul, Nat.mul_comm]
  have hx1 : Int32.ofNat (4 * i) + 4 = Int32.ofNat (4 * i + 4) := by
    rw [show (4 : Int32) = Int32.ofNat 4 from rfl, ← Int32.ofNat_add]
  have hy1 : Int32.ofNat (4 * j) + 4 = Int32.ofNat (4 * j + 4) := by
    rw [show (4 : Int32) = Int32.ofNat 4 from rfl, ← Int32.ofNat_add]
  have hrows := blockRows_eq fmt data n i j w h z hi hj hw hh hslice 4 0 rfl
  simp only [Nat.add_zero, Nat.sub_zero] at hrows
  simp only [writeBlockToTexture, hx0, hy0, hx1, hy1]
  rw [hrows, ← List.range_eq_range']
  rfl

end block

/-! ## Section 5: The loops of `s3tc_decompress_3d`

    Each loop appends the stores of its iterations and moves the running
    `sub_block_index` on by the blocks it visits; `cur_depth` moves on by
    whole groups.  On values below `2 ^ 31` each loop is the concatenation
    of its iterations' block stores, numbered as `blockNumber` says. -/

/-- The stores of depth group `k`: block positions row by row, each with
    the group's slices. -/
def groupStores (fmt : S3tcFormat) (data : Int → UInt8) (w h d k : Nat) : List (Int × UInt8) :=
  (List.range (blocksAcross h)).flatMap fun j => (List.range (blocksAcross w)).flatMap fun i =>
    (List.range (groupDepth d k)).flatMap fun slice =>
      blockStores fmt data (4 * k * blocksAcross w * blocksAcross h +
        (j * blocksAcross w + i) * groupDepth d k + slice) i j w h (4 * k + slice)

/-- The stores of `s3tc_decompress_3d`, group by group. -/
def s3tcStores (fmt : S3tcFormat) (data : Int → UInt8) (w h d : Nat) : List (Int × UInt8) :=
  (List.range (blocksAcross d)).flatMap (groupStores fmt data w h d)

section loops

variable (fmt : S3tcFormat) (data : Int → UInt8)

/-- The `slice` loop from `sub_block_index = idx`: `bd` blocks numbered
    from `idx`, into slices `cd, cd + 1, ...`. -/
theorem sliceLoop_eq_blocks (w h cd bd i j idx : Nat) (acc : List (Int × UInt8))
    (hi : 4 * i + 4 < 2 ^ 31) (hj : 4 * j + 4 < 2 ^ 31) (hw : w < 2 ^ 31) (hh : h < 2 ^ 31)
    (hz : 4 * ((cd + bd) * w * h) ≤ 2 ^ 31) (hidx : fmt.blockSize * (idx + bd) ≤ 2 ^ 31) :
    sliceLoop fmt data (UInt32.ofNat w) (UInt32.ofNat h) (Int32.ofNat cd) bd (Int32.ofNat i)
        (Int32.ofNat j) (Int32.ofNat idx, acc) =
      (Int32.ofNat (idx + bd), acc ++ (List.range bd).flatMap fun slice =>
        blockStores fmt data (idx + slice) i j w h (cd + slice)) := by
  have hw' : (UInt32.ofNat w).toInt32 = Int32.ofNat w := UInt32.toInt32_ofNat'
  have hh' : (UInt32.ofNat h).toInt32 = Int32.ofNat h := UInt32.toInt32_ofNat'
  unfold sliceLoop
  -- after `s` slices the index is `idx + s` and the stores hold `s` blocks
  apply forLoop_inv (fun s st => st = (Int32.ofNat (idx + s), acc ++ (List.range s).flatMap fun slice =>
    blockStores fmt data (idx + slice) i j w h (cd + slice))) bd
  · simp
  · rintro s st hs rfl
    have hzpos : ((Int32.ofNat cd + Int32.ofNat s).toUInt32 * UInt32.ofNat w * UInt32.ofNat h).toInt32 =
        Int32.ofNat ((cd + s) * w * h) := by
      rw [← Int32.ofNat_add, Int32.toUInt32_ofNat', ← UInt32.ofNat_mul, ← UInt32.ofNat_mul,
        UInt32.toInt32_ofNat']
    have hblock : (Int32.ofNat fmt.blockSize * Int32.ofNat (idx + s)).toInt =
        (fmt.blockSize : Int) * ((idx + s : Nat) : Int) := by
      have hpos : 0 < fmt.blockSize := by cases fmt <;> decide
      have hlt : fmt.blockSize * (idx + s) < fmt.blockSize * (idx + bd) :=
        (Nat.mul_lt_mul_left hpos).mpr (by omega)
      rw [← Int32.ofNat_mul, toInt_ofNat32_of_lt _ (by omega)]
      push_cast
      rfl
    -- the slice ends inside the image
    have hslice : 4 * ((cd + s) * w * h + h * w) ≤ 2 ^ 31 := by
      have heq : (cd + s) * w * h + h * w = (cd + s + 1) * (w * h) := by ring
      have hle : (cd + s + 1) * (w * h) ≤ (cd + bd) * (w * h) := Nat.mul_le_mul_right _ (by omega)
      have hend : (cd + bd) * (w * h) = (cd + bd) * w * h := by ring
      omega
    simp only [hzpos, hw', hh', decompressBlock_eq, hblock]
    rw [writeBlockToTexture_eq fmt data (idx + s) i j w h (cd + s) hi hj hw hh hslice,
      show (1 : Int32) = Int32.ofNat 1 from rfl, ← Int32.ofNat_add, List.range_succ,
      List.flatMap_append, List.flatMap_singleton, List.append_assoc, Nat.add_assoc]

/-- The `i` loop of block row `j`: `nbx` block positions, `bd` blocks
    each, numbered on from `idx`. -/
theorem blockRowLoop_eq (w h cd bd j idx : Nat) (acc : List (Int × UInt8))
    (hbx : 4 * blocksAcross w < 2 ^ 31) (hj : 4 * j + 4 < 2 ^ 31) (hw : w < 2 ^ 31)
    (hh : h < 2 ^ 31) (hz : 4 * ((cd + bd) * w * h) ≤ 2 ^ 31)
    (hidx : fmt.blockSize * (idx + blocksAcross w * bd) ≤ 2 ^ 31) :
    forLoop (blocksAcross w) (fun i st => sliceLoop fmt data (UInt32.ofNat w) (UInt32.ofNat h)
        (Int32.ofNat cd) bd (Int32.ofNat i) (Int32.ofNat j) st) (Int32.ofNat idx, acc) =
      (Int32.ofNat (idx + blocksAcross w * bd), acc ++ (List.range (blocksAcross w)).flatMap fun i =>
        (List.range bd).flatMap fun slice =>
          blockStores fmt data (idx + i * bd + slice) i j w h (cd + slice)) := by
  apply forLoop_inv (fun n st => st = (Int32.ofNat (idx + n * bd), acc ++ (List.range n).flatMap
    fun i => (List.range bd).flatMap fun slice =>
      blockStores fmt data (idx + i * bd + slice) i j w h (cd + slice)))
  · simp
  · rintro i st hi rfl
    have hidx' : fmt.blockSize * (idx + i * bd + bd) ≤ 2 ^ 31 := by
      have := Nat.mul_le_mul_right bd (show i + 1 ≤ blocksAcross w by omega)
      have := Nat.mul_le_mul_left fmt.blockSize (show idx + i * bd + bd ≤ idx + blocksAcross w * bd by
        rw [Nat.succ_mul] at this; omega)
      omega
    rw [sliceLoop_eq_blocks fmt data w h cd bd i j (idx + i * bd) _ (by omega) hj hw hh hz hidx',
      List.range_succ, List.flatMap_append, List.flatMap_singleton, List.append_assoc, Nat.succ_mul,
      Nat.add_assoc idx]

/-- The `j` and `i` loops of one depth group: every block position of the
    image, `bd` blocks each, numbered on from `idx`. -/
theorem blockGridLoop_eq (w h cd bd idx : Nat) (acc : List (Int × UInt8))
    (hbx : 4 * blocksAcross w < 2 ^ 31) (hby : 4 * blocksAcross h < 2 ^ 31) (hw : w < 2 ^ 31)
    (hh : h < 2 ^ 31) (hz : 4 * ((cd + bd) * w * h) ≤ 2 ^ 31)
    (hidx : fmt.blockSize * (idx + blocksAcross h * (blocksAcross w * bd)) ≤ 2 ^ 31) :
    forLoop (blocksAcross h) (fun j st => forLoop (blocksAcross w) (fun i st =>
        sliceLoop fmt data (UInt32.ofNat w) (UInt32.ofNat h) (Int32.ofNat cd) bd (Int32.ofNat i)
          (Int32.ofNat j) st) st) (Int32.ofNat idx, acc) =
      (Int32.ofNat (idx + blocksAcross h * (blocksAcross w * bd)),
        acc ++ (List.range (blocksAcross h)).flatMap fun j => (List.range (blocksAcross w)).flatMap
          fun i => (List.range bd).flatMap fun slice =>
            blockStores fmt data (idx + (j * blocksAcross w + i) * bd + slice) i j w h (cd + slice)) := by
  apply forLoop_inv (fun n st => st = (Int32.ofNat (idx + n * (blocksAcross w * bd)),
    acc ++ (List.range n).flatMap fun j => (List.range (blocksAcross w)).flatMap fun i =>
      (List.range bd).flatMap fun slice =>
        blockStores fmt data (idx + (j * blocksAcross w + i) * bd + slice) i j w h (cd + slice)))
  · simp
  · rintro j st hj rfl
    have hidx' : fmt.blockSize * (idx + j * (blocksAcross w * bd) + blocksAcross w * bd) ≤ 2 ^ 31 := by
      have := Nat.mul_le_mul_right (blocksAcross w * bd) (show j + 1 ≤ blocksAcross h by omega)
      have := Nat.mul_le_mul_left fmt.blockSize
        (show idx + j * (blocksAcross w * bd) + blocksAcross w * bd ≤
          idx + blocksAcross h * (blocksAcross w * bd) by rw [Nat.succ_mul] at this; omega)
      omega
    -- the blocks of row `j` are numbered on from the `j` rows before it
    have hnum : ∀ i slice, idx + j * (blocksAcross w * bd) + i * bd + slice =
        idx + (j * blocksAcross w + i) * bd + slice := fun i slice => by ring
    rw [blockRowLoop_eq fmt data w h cd bd j _ _ hbx (by omega) hw hh hz hidx', List.range_succ,
      List.flatMap_append, List.flatMap_singleton, List.append_assoc, Nat.succ_mul, Nat.add_assoc idx]
    simp only [hnum]

/-- `((n + 3) & ~3) / 4` is `⌈n / 4⌉`. -/
theorem numBlocks_eq (n : Nat) (hn : n + 3 < 2 ^ 32) :
    numBlocks (UInt32.ofNat n) = Int32.ofNat (blocksAcross n) := by
  have hmask : ~~~(3 : UInt32) = UInt32.ofNat (2 ^ 32 - 2 ^ 2) := by decide
  have hsum : (UInt32.ofNat n + 3).toNat = n + 3 := by
    rw [UInt32.toNat_add, UInt32.toNat_ofNat', Nat.mod_eq_of_lt (show n < 2 ^ 32 by omega)]
    exact Nat.mod_eq_of_lt hn
  rw [numBlocks, toInt32_eq_ofNat, UInt32.toNat_div, hmask,
    toNat_and_highBits _ 2 32 (by norm_num) (by norm_num) (UInt32.toNat_lt _), hsum]
  congr 1
  simp [blocksAcross]

/-- One pass of the `k` loop, from group `k`: `cur_depth = 4 k` and
    `sub_block_index = 4 k * nbx * nby`. -/
theorem depthGroup_eq (w h d k : Nat) (acc : List (Int × UInt8)) (hk : 4 * k < d)
    (hbx : 4 * blocksAcross w < 2 ^ 31) (hby : 4 * blocksAcross h < 2 ^ 31) (hw : w < 2 ^ 31)
    (hh : h < 2 ^ 31) (hd : d < 2 ^ 31) (hz : 4 * (d * w * h) ≤ 2 ^ 31)
    (hidx : fmt.blockSize * (blocksAcross w * blocksAcross h * d) ≤ 2 ^ 31) :
    depthGroup fmt data (UInt32.ofNat w) (UInt32.ofNat h) (UInt32.ofNat d)
        (Int32.ofNat (4 * k), Int32.ofNat (4 * k * blocksAcross w * blocksAcross h), acc) =
      (Int32.ofNat (4 * k + groupDepth d k),
        Int32.ofNat (4 * k * blocksAcross w * blocksAcross h +
          blocksAcross h * (blocksAcross w * groupDepth d k)),
        acc ++ groupStores fmt data w h d k) := by
  have hgd : groupDepth d k ≤ d - 4 * k := Nat.min_le_right _ _
  -- `MIN(depth - cur_depth, 4)` on naturals
  have hresidual : (UInt32.ofNat d - (Int32.ofNat (4 * k)).toUInt32).toInt32 = Int32.ofNat (d - 4 * k) := by
    rw [Int32.toUInt32_ofNat', ← UInt32.ofNat_sub (by omega), UInt32.toInt32_ofNat']
  have hdepth : (if Int32.ofNat (d - 4 * k) < 4 then Int32.ofNat (d - 4 * k) else 4) =
      Int32.ofNat (groupDepth d k) := by
    have hlt : Int32.ofNat (d - 4 * k) < 4 ↔ d - 4 * k < 4 :=
      Int32.ofNat_lt_iff_lt (by omega) (by norm_num)
    unfold groupDepth
    by_cases h4 : d - 4 * k < 4
    · rw [if_pos (hlt.mpr h4), Nat.min_eq_right (by omega)]
    · rw [if_neg (mt hlt.mp h4), Nat.min_eq_left (by omega)]
      rfl
  have hbound : fmt.blockSize * (4 * k * blocksAcross w * blocksAcross h +
      blocksAcross h * (blocksAcross w * groupDepth d k)) ≤ 2 ^ 31 := by
    have heq : 4 * k * blocksAcross w * blocksAcross h +
        blocksAcross h * (blocksAcross w * groupDepth d k) =
        blocksAcross w * blocksAcross h * (4 * k + groupDepth d k) := by ring
    rw [heq]
    exact le_trans (Nat.mul_le_mul_left _ (Nat.mul_le_mul_left _ (by omega))) hidx
  have hz' : 4 * ((4 * k + groupDepth d k) * w * h) ≤ 2 ^ 31 :=
    le_trans (Nat.mul_le_mul_left 4 (Nat.mul_le_mul_right h (Nat.mul_le_mul_right w (by omega)))) hz
  simp only [depthGroup, hresidual, hdepth, toNatClampNeg_ofNat_of_lt _ (show groupDepth d k < 2 ^ 31 by
    unfold groupDepth; omega), numBlocks_eq w (by omega), numBlocks_eq h (by omega),
    toNatClampNeg_ofNat_of_lt _ (show blocksAcross w < 2 ^ 31 by omega),
    toNatClampNeg_ofNat_of_lt _ (show blocksAcross h < 2 ^ 31 by omega)]
  rw [blockGridLoop_eq fmt data w h (4 * k) (groupDepth d k) _ acc hbx hby hw hh hz' hbound,
    ← Int32.ofNat_add]
  rfl

/-- `s3tc_decompress_3d` on an image of at most `2 ^ 31` bytes whose
    blocks span at most `2 ^ 31` bytes: `g_malloc` gets the image's size,
    and the stores are `s3tcStores`.  The `k` loop's invariant: after `k`
    groups `cur_depth` is `min (4 k) d`, `sub_block_index` has counted the
    blocks of those slices, and the groups' stores are in. -/
theorem s3tcDecompress3d_eq (w h d : Nat) (hw1 : 1 ≤ w) (hh1 : 1 ≤ h) (hd1 : 1 ≤ d)
    (hsize : 4 * (w * h * d) ≤ 2 ^ 31)
    (hblocks : fmt.blockSize * (blocksAcross w * blocksAcross h * d) ≤ 2 ^ 31) :
    s3tcDecompress3d fmt data (UInt32.ofNat w) (UInt32.ofNat h) (UInt32.ofNat d) =
      some (UInt32.ofNat (w * h * d * 4), s3tcStores fmt data w h d) := by
  have hw : w ≤ w * h * d := Nat.le_mul_of_pos_right _ (by omega) |>.trans'
    (Nat.le_mul_of_pos_right _ (by omega))
  have hh : h ≤ w * h * d := by
    rw [Nat.mul_comm w h]
    exact Nat.le_mul_of_pos_right _ (by omega) |>.trans' (Nat.le_mul_of_pos_right _ (by omega))
  have hd : d ≤ w * h * d := Nat.le_mul_of_pos_left _ (Nat.mul_pos (by omega) (by omega))
  have hne : ∀ n, 1 ≤ n → n < 2 ^ 32 → UInt32.ofNat n ≠ 0 := fun n h1 h2 h0 => by
    have := congrArg UInt32.toNat h0
    rw [UInt32.toNat_ofNat', Nat.mod_eq_of_lt h2] at this
    simp at this
    omega
  have hz : 4 * (d * w * h) ≤ 2 ^ 31 := by
    rw [show d * w * h = w * h * d by ring]
    exact hsize
  have hgroups : ((UInt32.ofNat d + 3) / 4).toInt32 = Int32.ofNat (blocksAcross d) := by
    rw [toInt32_eq_ofNat, UInt32.toNat_div, UInt32.toNat_add, UInt32.toNat_ofNat',
      Nat.mod_eq_of_lt (show d < 2 ^ 32 by omega)]
    congr 1
    simp only [UInt32.reduceToNat]
    rw [Nat.mod_eq_of_lt (by omega)]
    rfl
  have hsz : UInt32.ofNat w * UInt32.ofNat h * UInt32.ofNat d * 4 = UInt32.ofNat (w * h * d * 4) := by
    rw [UInt32.ofNat_mul, UInt32.ofNat_mul, UInt32.ofNat_mul]
    rfl
  simp only [s3tcDecompress3d, hne w hw1 (by omega), hne h hh1 (by omega), hne d hd1 (by omega),
    or_self, if_false, hgroups, toNatClampNeg_ofNat_of_lt _ (show blocksAcross d < 2 ^ 31 by
      unfold blocksAcross; omega), hsz]
  congr 2
  -- the `k` loop, group by group
  have hrun := forLoop_inv (fun k (st : Int32 × Int32 × List (Int × UInt8)) =>
      st = (Int32.ofNat (min (4 * k) d), Int32.ofNat (blocksAcross w * blocksAcross h * min (4 * k) d),
        (List.range k).flatMap (groupStores fmt data w h d))) (blocksAcross d)
      (fun _ st => depthGroup fmt data (UInt32.ofNat w) (UInt32.ofNat h) (UInt32.ofNat d) st)
      (0, 0, []) (by simp) (by
        rintro k st hk rfl
        have hk4 : 4 * k < d := by unfold blocksAcross at hk; omega
        have hgd : 4 * k + groupDepth d k = min (4 * (k + 1)) d := by unfold groupDepth; omega
        rw [Nat.min_eq_left (by omega), show blocksAcross w * blocksAcross h * (4 * k) =
          4 * k * blocksAcross w * blocksAcross h by ring,
          depthGroup_eq fmt data w h d k _ hk4 (by unfold blocksAcross; omega)
            (by unfold blocksAcross; omega) (by omega) (by omega) (by omega) hz
            (le_trans (Nat.mul_le_mul_right _ (by cases fmt <;> decide)) hblocks),
          List.range_succ, List.flatMap_append, List.flatMap_singleton, ← hgd]
        congr 3
        ring)
  rw [hrun]
  rfl

/-- `s3tc_decompress_2d` under the same bounds stores what
    `s3tc_decompress_3d` stores for one slice. -/
theorem s3tcDecompress2d_eq (w h : Nat) (hw1 : 1 ≤ w) (hh1 : 1 ≤ h) (hsize : 4 * (w * h * 1) ≤ 2 ^ 31)
    (hblocks : fmt.blockSize * (blocksAcross w * blocksAcross h * 1) ≤ 2 ^ 31) :
    s3tcDecompress2d fmt data (UInt32.ofNat w) (UInt32.ofNat h) =
      some (UInt32.ofNat (w * h * 4), s3tcStores fmt data w h 1) := by
  rw [Nat.mul_one] at hsize hblocks
  have hw : w ≤ w * h := Nat.le_mul_of_pos_right _ (by omega)
  have hh : h ≤ w * h := Nat.le_mul_of_pos_left _ (by omega)
  have hne : ∀ n, 1 ≤ n → n < 2 ^ 32 → UInt32.ofNat n ≠ 0 := fun n h1 h2 h0 => by
    have := congrArg UInt32.toNat h0
    rw [UInt32.toNat_ofNat', Nat.mod_eq_of_lt h2] at this
    simp at this
    omega
  have hbpos : 0 < fmt.blockSize := by cases fmt <;> decide
  have hsz : UInt32.ofNat w * UInt32.ofNat h * 4 = UInt32.ofNat (w * h * 4) := by
    rw [UInt32.ofNat_mul, UInt32.ofNat_mul]
    rfl
  have hwi : (UInt32.ofNat w).toInt32 = Int32.ofNat w := UInt32.toInt32_ofNat'
  have hhi : (UInt32.ofNat h).toInt32 = Int32.ofNat h := UInt32.toInt32_ofNat'
  simp only [s3tcDecompress2d, hne w hw1 (by omega), hne h hh1 (by omega), or_self, if_false,
    numBlocks_eq w (by omega), numBlocks_eq h (by omega), hsz, hwi, hhi,
    toNatClampNeg_ofNat_of_lt _ (show blocksAcross w < 2 ^ 31 by unfold blocksAcross; omega),
    toNatClampNeg_ofNat_of_lt _ (show blocksAcross h < 2 ^ 31 by unfold blocksAcross; omega)]
  congr 2
  -- one slice: block `j * nbx + i` at `(i, j)`, into slice `0`
  have hblock : ∀ i j, i < blocksAcross w → j < blocksAcross h →
      decompressBlock fmt data (Int32.ofNat j * Int32.ofNat (blocksAcross w) + Int32.ofNat i)
        (Int32.ofNat i) (Int32.ofNat j) (Int32.ofNat w) (Int32.ofNat h) 0 =
      blockStores fmt data (j * blocksAcross w + i) i j w h 0 := by
    intro i j hi hj
    have hidx : j * blocksAcross w + i < blocksAcross w * blocksAcross h := by
      have := Nat.mul_le_mul_right (blocksAcross w) (show j + 1 ≤ blocksAcross h by omega)
      rw [Nat.succ_mul] at this
      rw [Nat.mul_comm (blocksAcross w)]
      omega
    have hoff : (Int32.ofNat fmt.blockSize * (Int32.ofNat j * Int32.ofNat (blocksAcross w) +
        Int32.ofNat i)).toInt = (fmt.blockSize : Int) * ((j * blocksAcross w + i : Nat) : Int) := by
      rw [← Int32.ofNat_mul, ← Int32.ofNat_add, ← Int32.ofNat_mul, toInt_ofNat32_of_lt _ (by
        have := (Nat.mul_lt_mul_left hbpos).mpr hidx
        omega)]
      push_cast
      rfl
    rw [decompressBlock_eq, hoff, show (0 : Int32) = Int32.ofNat (0 * w * h) by simp]
    exact writeBlockToTexture_eq fmt data _ i j w h 0 (by unfold blocksAcross at hi; omega)
      (by unfold blocksAcross at hj; omega) (by omega) (by omega) (by rw [Nat.mul_comm h w]; omega)
  have hrun := forLoop_inv (fun n (st : List (Int × UInt8)) => st = (List.range n).flatMap fun j =>
      (List.range (blocksAcross w)).flatMap fun i => blockStores fmt data (j * blocksAcross w + i) i j w h 0)
    (blocksAcross h) (fun j st => forLoop (blocksAcross w) (fun i st =>
      st ++ decompressBlock fmt data (Int32.ofNat j * Int32.ofNat (blocksAcross w) + Int32.ofNat i)
        (Int32.ofNat i) (Int32.ofNat j) (Int32.ofNat w) (Int32.ofNat h) 0) st) [] (by simp) (by
      intro j st hj hst
      have hrow := forLoop_inv (fun n (st' : List (Int × UInt8)) => st' = st ++ (List.range n).flatMap
          fun i => blockStores fmt data (j * blocksAcross w + i) i j w h 0) (blocksAcross w)
        (fun i st => st ++ decompressBlock fmt data (Int32.ofNat j * Int32.ofNat (blocksAcross w) +
          Int32.ofNat i) (Int32.ofNat i) (Int32.ofNat j) (Int32.ofNat w) (Int32.ofNat h) 0) st (by simp)
        (by
          rintro i st' hi rfl
          rw [hblock i j hi hj, List.range_succ, List.flatMap_append, List.flatMap_singleton,
            List.append_assoc])
      rw [hrow, hst, List.range_succ, List.flatMap_append, List.flatMap_singleton])
  rw [hrun, s3tcStores, show blocksAcross 1 = 1 from rfl, List.range_one, List.flatMap_singleton,
    groupStores, show groupDepth 1 0 = 1 from rfl]
  simp

end loops

/-! ## Section 6: Texel by texel

    Reordered, the stores of `s3tcStores` are those of the image's texels
    one after the other, in the order the loops reach them, each texel's
    four bytes at its own offset. -/

/-- The texels in the order the loops of `s3tc_decompress_3d` write them:
    depth group, block row, block column, slice, then row and column inside
    the block. -/
def texelOrder (w h d : Nat) : List (Nat × Nat × Nat) :=
  (List.range (blocksAcross d)).flatMap fun k => (List.range (blocksAcross h)).flatMap fun j =>
    (List.range (blocksAcross w)).flatMap fun i => (List.range (groupDepth d k)).flatMap fun slice =>
      (List.range (min 4 (h - 4 * j))).flatMap fun dy => (List.range (min 4 (w - 4 * i))).map
        fun dx => (4 * i + dx, 4 * j + dy, 4 * k + slice)

/-- The stores of texel `t`: its decoded bytes at its byte offset. -/
def texelWrites (fmt : S3tcFormat) (data : Int → UInt8) (w h d : Nat) (t : Nat × Nat × Nat) :
    List (Int × UInt8) :=
  texelStores (4 * texelOffset w h t) (decodedTexel fmt data (blockNumber w h d t) (t.1 % 4) (t.2.1 % 4))

/-- The texel at texel index `o` of a `w × h` slice layout. -/
def texelAt (w h o : Nat) : Nat × Nat × Nat := (o % w, o / w % h, o / w / h)

theorem texelOffset_texelAt (w h o : Nat) : texelOffset w h (texelAt w h o) = o := by
  simp only [texelOffset, texelAt]
  rw [show o / w / h * w * h + o / w % h * w = (o / w / h * h + o / w % h) * w by ring,
    Nat.div_add_mod', Nat.div_add_mod']

theorem texelAt_texelOffset {w h : Nat} {t : Nat × Nat × Nat} (hx : t.1 < w) (hy : t.2.1 < h) :
    texelAt w h (texelOffset w h t) = t := by
  obtain ⟨x, y, z⟩ := t
  simp only at hx hy
  have hxw : z * w * h + y * w + x = x + w * (z * h + y) := by ring
  have hyh : z * h + y = y + h * z := by ring
  have h1 : (x + w * (z * h + y)) / w = z * h + y := by
    rw [Nat.add_mul_div_left _ _ (by omega), Nat.div_eq_of_lt hx, Nat.zero_add]
  have h2 : (y + h * z) / h = z := by
    rw [Nat.add_mul_div_left _ _ (by omega), Nat.div_eq_of_lt hy, Nat.zero_add]
  simp only [texelAt, texelOffset]
  rw [hxw, Nat.add_mul_mod_self_left, Nat.mod_eq_of_lt hx, h1, hyh, Nat.add_mul_mod_self_left,
    Nat.mod_eq_of_lt hy, h2]

/-- A texel of the image lies below `w * h * d`. -/
theorem texelOffset_lt {w h d : Nat} {t : Nat × Nat × Nat} (hx : t.1 < w) (hy : t.2.1 < h)
    (hz : t.2.2 < d) : texelOffset w h t < w * h * d := by
  obtain ⟨x, y, z⟩ := t
  simp only at hx hy hz
  have hrow : y * w + x < w * h := by
    have := Nat.mul_le_mul_right w (show y + 1 ≤ h from hy)
    rw [Nat.succ_mul, Nat.mul_comm h] at this
    omega
  have hslice := Nat.mul_le_mul_right (w * h) (show z + 1 ≤ d from hz)
  rw [Nat.succ_mul] at hslice
  simp only [texelOffset]
  rw [Nat.mul_assoc z, Nat.mul_comm (w * h) d]
  omega

/-- Every texel index below `w * h * d` is a texel of the image. -/
theorem texelAt_lt {w h d o : Nat} (ho : o < w * h * d) :
    (texelAt w h o).1 < w ∧ (texelAt w h o).2.1 < h ∧ (texelAt w h o).2.2 < d := by
  have hw : 0 < w := Nat.pos_of_ne_zero (by rintro rfl; simp at ho)
  have hh : 0 < h := Nat.pos_of_ne_zero (by rintro rfl; simp at ho)
  refine ⟨Nat.mod_lt _ hw, Nat.mod_lt _ hh, ?_⟩
  rw [texelAt, Nat.div_div_eq_div_mul, Nat.div_lt_iff_lt_mul (Nat.mul_pos hw hh), Nat.mul_comm d]
  exact ho

section texels

variable (fmt : S3tcFormat) (data : Int → UInt8) (w h d : Nat)

theorem mem_texelOrder (t : Nat × Nat × Nat) :
    t ∈ texelOrder w h d ↔ t.1 < w ∧ t.2.1 < h ∧ t.2.2 < d := by
  obtain ⟨x, y, z⟩ := t
  simp only [texelOrder, List.mem_flatMap, List.mem_map, List.mem_range, Prod.mk.injEq,
    groupDepth, blocksAcross]
  constructor
  · rintro ⟨k, hk, j, hj, i, hi, slice, hs, dy, hdy, dx, hdx, rfl, rfl, rfl⟩
    omega
  · rintro ⟨hx, hy, hz⟩
    exact ⟨z / 4, by omega, y / 4, by omega, x / 4, by omega, z % 4, by omega, y % 4, by omega,
      x % 4, by omega, by omega, by omega, by omega⟩

/-- No texel is written twice: each level of the loops is told apart by
    one coordinate of the texels it reaches. -/
theorem texelOrder_nodup : (texelOrder w h d).Nodup := by
  unfold texelOrder
  refine nodup_flatMap_of_key (fun t => t.2.2 / 4) List.nodup_range (fun k _ => ?_) ?_
  · refine nodup_flatMap_of_key (fun t => t.2.1 / 4) List.nodup_range (fun j _ => ?_) ?_
    · refine nodup_flatMap_of_key (fun t => t.1 / 4) List.nodup_range (fun i _ => ?_) ?_
      · refine nodup_flatMap_of_key (fun t => t.2.2 % 4) List.nodup_range (fun slice _ => ?_) ?_
        · refine nodup_flatMap_of_key (fun t => t.2.1 % 4) List.nodup_range (fun dy _ => ?_) ?_
          · exact List.nodup_range.map fun a b hab => by simp only [Prod.mk.injEq] at hab; omega
          · intro dy hdy t ht
            simp only [List.mem_map, List.mem_range] at hdy ht
            obtain ⟨dx, hdx, rfl⟩ := ht
            dsimp only
            omega
        · intro slice hs t ht
          simp only [List.mem_flatMap, List.mem_map, List.mem_range, groupDepth] at hs ht
          obtain ⟨dy, hdy, dx, hdx, rfl⟩ := ht
          dsimp only
          omega
      · intro i hi t ht
        simp only [List.mem_flatMap, List.mem_map, List.mem_range, groupDepth] at hi ht
        obtain ⟨slice, hs, dy, hdy, dx, hdx, rfl⟩ := ht
        dsimp only
        omega
    · intro j hj t ht
      simp only [List.mem_flatMap, List.mem_map, List.mem_range, groupDepth] at hj ht
      obtain ⟨i, hi, slice, hs, dy, hdy, dx, hdx, rfl⟩ := ht
      dsimp only
      omega
  · intro k hk t ht
    simp only [List.mem_flatMap, List.mem_map, List.mem_range, groupDepth] at hk ht
    obtain ⟨j, hj, i, hi, slice, hs, dy, hdy, dx, hdx, rfl⟩ := ht
    dsimp only
    omega

/-- The stores, texel by texel. -/
theorem s3tcStores_eq_texels :
    s3tcStores fmt data w h d = (texelOrder w h d).flatMap (texelWrites fmt data w h d) := by
  simp only [s3tcStores, texelOrder, List.flatMap_assoc, List.flatMap_map]
  refine List.flatMap_congr fun k _ => List.flatMap_congr fun j _ => List.flatMap_congr fun i _ =>
    List.flatMap_congr fun slice hs => List.flatMap_congr fun dy hdy => List.flatMap_congr
      fun dx hdx => ?_
  simp only [List.mem_range, groupDepth] at hs hdy hdx
  -- the block of texel `(4 i + dx, 4 j + dy, 4 k + slice)` is the one the loops decode
  have hk : (4 * k + slice) / 4 = k := by omega
  have hslice : (4 * k + slice) % 4 = slice := by omega
  have hj : (4 * j + dy) / 4 = j := by omega
  have hdy : (4 * j + dy) % 4 = dy := by omega
  have hi : (4 * i + dx) / 4 = i := by omega
  have hdx : (4 * i + dx) % 4 = dx := by omega
  simp only [texelWrites, blockNumber, hk, hslice, hj, hdy, hi, hdx]

/-- A texel's four stores are at its four byte offsets. -/
theorem texelWrites_offsets (t : Nat × Nat × Nat) :
    (texelWrites fmt data w h d t).map Prod.fst =
      (List.range 4).map fun c => ((4 * texelOffset w h t + c : Nat) : Int) := by
  simp [texelWrites, texelStores, decodedTexel, List.range_succ]

/-- Byte `c` of texel `t` is stored with component `c` of its decoded
    texel. -/
theorem mem_texelWrites (t : Nat × Nat × Nat) {c : Nat} (hc : c < 4) :
    (((4 * texelOffset w h t + c : Nat) : Int),
      (decodedTexel fmt data (blockNumber w h d t) (t.1 % 4) (t.2.1 % 4)).getD c 0) ∈
      texelWrites fmt data w h d t := by
  rw [texelWrites, texelStores, List.mem_mapIdx]
  have hlen : c < (decodedTexel fmt data (blockNumber w h d t) (t.1 % 4) (t.2.1 % 4)).length := hc
  exact ⟨c, hlen, by rw [List.getD_eq_getElem _ _ hlen]⟩

/-- The byte offsets the decoder stores to, texel by texel. -/
theorem s3tcStores_offsets :
    (s3tcStores fmt data w h d).map Prod.fst =
      ((texelOrder w h d).map (texelOffset w h)).flatMap
        fun o => (List.range 4).map fun c => ((4 * o + c : Nat) : Int) := by
  rw [s3tcStores_eq_texels, List.map_flatMap, List.flatMap_map]
  exact List.flatMap_congr fun t _ => texelWrites_offsets fmt data w h d t

/-- No byte is stored twice. -/
theorem s3tcStores_offsets_nodup : ((s3tcStores fmt data w h d).map Prod.fst).Nodup := by
  rw [s3tcStores_offsets]
  refine nodup_flatMap_of_key (fun a : Int => a.toNat / 4) ?_ (fun o _ => ?_) ?_
  · -- distinct texels of the image have distinct offsets
    refine (texelOrder_nodup w h d).map_on fun t ht t' ht' heq => ?_
    have hb := (mem_texelOrder w h d t).mp ht
    have hb' := (mem_texelOrder w h d t').mp ht'
    rw [← texelAt_texelOffset hb.1 hb.2.1, heq, texelAt_texelOffset hb'.1 hb'.2.1]
  · exact List.nodup_range.map fun a b hab => by simp only [Nat.cast_inj] at hab; omega
  · intro o _ a ha
    simp only [List.mem_map, List.mem_range] at ha
    obtain ⟨c, hc, rfl⟩ := ha
    simp only [Int.toNat_natCast]
    omega

/-- The bytes stored are exactly those of the `w * h * d * 4` byte image. -/
theorem mem_s3tcStores_offsets (a : Int) :
    a ∈ (s3tcStores fmt data w h d).map Prod.fst ↔ 0 ≤ a ∧ a < ((4 * (w * h * d) : Nat) : Int) := by
  rw [s3tcStores_offsets]
  simp only [List.mem_flatMap, List.mem_map, List.mem_range]
  constructor
  · rintro ⟨_, ⟨t, ht, rfl⟩, c, hc, rfl⟩
    have hb := (mem_texelOrder w h d t).mp ht
    have := texelOffset_lt hb.1 hb.2.1 hb.2.2
    omega
  · rintro ⟨h0, hlt⟩
    -- byte `a` is byte `a % 4` of texel `a / 4`
    have ho : a.toNat / 4 < w * h * d := by omega
    refine ⟨a.toNat / 4, ⟨texelAt w h (a.toNat / 4), (mem_texelOrder w h d _).mpr (texelAt_lt ho),
      texelOffset_texelAt w h _⟩, a.toNat % 4, by omega, by omega⟩

/-- Texel `(x, y, z)` of the image holds component `c` of texel
    `(x mod 4, y mod 4)` of its block. -/
theorem storeAll_s3tcStores (m : Int → UInt8) (t : Nat × Nat × Nat) (ht : t.1 < w ∧ t.2.1 < h ∧ t.2.2 < d)
    {c : Nat} (hc : c < 4) :
    storeAll m (s3tcStores fmt data w h d) ((4 * texelOffset w h t + c : Nat) : Int) =
      (decodedTexel fmt data (blockNumber w h d t) (t.1 % 4) (t.2.1 % 4)).getD c 0 := by
  refine storeAll_of_mem m _ (s3tcStores_offsets_nodup fmt data w h d) ?_
  rw [s3tcStores_eq_texels, List.mem_flatMap]
  exact ⟨t, (mem_texelOrder w h d t).mpr ht, mem_texelWrites fmt data w h d t hc⟩

end texels

/-! ## Section 7: What is read

    A block is read only in its own `blockSize` bytes, and the image's
    blocks are the first `nbx * nby * depth` of the input. -/

theorem readLE_congr {data data' : Int → UInt8} (addr : Int) (n : Nat)
    (h : ∀ k < n, data' (addr + k) = data (addr + k)) : readLE data' addr n = readLE data addr n := by
  induction n generalizing addr with
  | zero => rfl
  | succ n ih =>
    have h0 := h 0 (by omega)
    rw [Nat.cast_zero, Int.add_zero] at h0
    have hrest : ∀ k < n, data' (addr + 1 + k) = data (addr + 1 + k) := fun k hk => by
      have := h (k + 1) (by omega)
      rwa [Nat.cast_add, Nat.cast_one, Int.add_comm (k : Int) 1, ← Int.add_assoc] at this
    rw [readLE, readLE, h0, ih (addr + 1) hrest]

/-- A block's decoding reads only its own bytes. -/
theorem blockDecode_congr (fmt : S3tcFormat) {data data' : Int → UInt8} (base : Int)
    (h : ∀ k < fmt.blockSize, data' (base + k) = data (base + k)) :
    blockDecode fmt data' base = blockDecode fmt data base := by
  -- every read is `n` bytes from byte `k` of the block, with `k + n` within the block
  have hread : ∀ k n, k + n ≤ fmt.blockSize →
      readLE data' (base + k) n = readLE data (base + k) n := fun k n hkn =>
    readLE_congr _ n fun i hi => by
      have := h (k + i) (by omega)
      rwa [Nat.cast_add, ← Int.add_assoc] at this
  have hread0 : ∀ n, n ≤ fmt.blockSize → readLE data' base n = readLE data base n := fun n hn => by
    have := hread 0 n (by omega)
    rwa [Nat.cast_zero, Int.add_zero] at this
  have hword : ∀ k, k + 2 ≤ fmt.blockSize → blockWord16 data' base k = blockWord16 data base k :=
    fun k hk => by rw [blockWord16, blockWord16, hread k 2 hk]
  have hindices : ∀ k, k + 4 ≤ fmt.blockSize → blockIndices data' base k = blockIndices data base k :=
    fun k hk => by rw [blockIndices, blockIndices, hread k 4 hk]
  -- rewrite with rw: the `decide` of DXT1's comparison carries its words in its instance
  cases fmt with
  | dxt1 =>
    simp only [blockDecode, dxt1Decode]
    rw [hword 0 (by decide), hword 2 (by decide), hindices 4 (by decide)]
  | dxt3 =>
    simp only [blockDecode, dxt3Decode]
    rw [hword 8 (by decide), hword 10 (by decide), hindices 12 (by decide), hread0 8 (by decide)]
  | dxt5 =>
    have h0 := h 0 (by decide)
    have h1 := h 1 (by decide)
    rw [Nat.cast_zero, Int.add_zero] at h0
    rw [Nat.cast_one] at h1
    simp only [blockDecode, dxt5Decode]
    rw [hword 8 (by decide), hword 10 (by decide), hindices 12 (by decide), hread0 8 (by decide),
      h0, h1]

/-- The block of a texel of the image is one of its first
    `nbx * nby * d`, in the arithmetic of the block number: `J < nby`,
    `I < nbx`, the slice `S` inside the group, and the group inside the
    image. -/
theorem block_index_lt {K J I S G nbx nby d : Nat} (hJ : J < nby) (hI : I < nbx) (hS : S < G)
    (hG : 4 * K + G ≤ d) : 4 * K * nbx * nby + (J * nbx + I) * G + S < nbx * nby * d := by
  have hpos : J * nbx + I + 1 ≤ nbx * nby := by
    have := Nat.mul_le_mul_right nbx (show J + 1 ≤ nby from hJ)
    rw [Nat.succ_mul, Nat.mul_comm nby] at this
    omega
  calc 4 * K * nbx * nby + (J * nbx + I) * G + S
      < 4 * K * nbx * nby + (J * nbx + I) * G + G := by omega
    _ = 4 * K * nbx * nby + (J * nbx + I + 1) * G := by ring
    _ ≤ 4 * K * nbx * nby + nbx * nby * G := by gcongr
    _ = nbx * nby * (4 * K + G) := by ring
    _ ≤ nbx * nby * d := by gcongr

theorem blockNumber_lt {w h d : Nat} {t : Nat × Nat × Nat} (ht : t.1 < w ∧ t.2.1 < h ∧ t.2.2 < d) :
    blockNumber w h d t < blocksAcross w * blocksAcross h * d := by
  obtain ⟨hx, hy, hz⟩ := ht
  exact block_index_lt (by unfold blocksAcross; omega) (by unfold blocksAcross; omega)
    (by unfold groupDepth; omega) (by unfold groupDepth; omega)

/-- The stores depend on the input only through its first
    `nbx * nby * d` blocks. -/
theorem s3tcStores_congr (fmt : S3tcFormat) {data data' : Int → UInt8} (w h d : Nat)
    (hdata : ∀ a : Int, 0 ≤ a →
      a < ((fmt.blockSize * (blocksAcross w * blocksAcross h * d) : Nat) : Int) → data' a = data a) :
    s3tcStores fmt data' w h d = s3tcStores fmt data w h d := by
  rw [s3tcStores_eq_texels, s3tcStores_eq_texels]
  refine List.flatMap_congr fun t ht => ?_
  have hn := blockNumber_lt ((mem_texelOrder w h d t).mp ht)
  -- the bytes of block `n` lie below `blockSize * (n + 1)`
  have hread : ∀ k < fmt.blockSize, data' (fmt.blockSize * blockNumber w h d t + k) =
      data (fmt.blockSize * blockNumber w h d t + k) := fun k hk => by
    have hlt : fmt.blockSize * blockNumber w h d t + k <
        fmt.blockSize * (blocksAcross w * blocksAcross h * d) := by
      have := Nat.mul_le_mul_left fmt.blockSize (show blockNumber w h d t + 1 ≤ _ from hn)
      rw [Nat.mul_succ] at this
      omega
    exact hdata _ (by positivity) (by exact_mod_cast hlt)
  simp only [texelWrites, decodedTexel, blockDecode_congr fmt _ hread]

/-! ## Section 8: The image, exactly once

    Under bounds that keep the `int` block and byte offsets and the
    unsigned size below `2 ^ 31`, `s3tc_decompress_3d` stores every byte
    of its `width * height * depth * 4` byte buffer once and nothing
    else, with texel `(x, y, z)` from texel `(x mod 4, y mod 4)` of block
    `blockNumber`, and it reads only the image's blocks.  Without the
    bounds the size passed to `g_malloc` wraps. -/

theorem s3tc_decompress_covers_image (fmt : S3tcFormat) (data : Int → UInt8) (width height depth : UInt32)
    (hw : 1 ≤ width.toNat) (hh : 1 ≤ height.toNat) (hd : 1 ≤ depth.toNat)
    (hsize : 4 * (width.toNat * height.toNat * depth.toNat) ≤ 2 ^ 31)
    (hblocks : fmt.blockSize * (blocksAcross width.toNat * blocksAcross height.toNat * depth.toNat) ≤
      2 ^ 31) :
    ∃ stores, s3tcDecompress3d fmt data width height depth = some (width * height * depth * 4, stores) ∧
      (width * height * depth * 4).toNat = 4 * (width.toNat * height.toNat * depth.toNat) ∧
      (stores.map Prod.fst).Nodup ∧
      (∀ a : Int, a ∈ stores.map Prod.fst ↔
        0 ≤ a ∧ a < ((4 * (width.toNat * height.toNat * depth.toNat) : Nat) : Int)) ∧
      (∀ (m : Int → UInt8) (x y z c : Nat), x < width.toNat → y < height.toNat → z < depth.toNat →
        c < 4 → storeAll m stores ((4 * texelOffset width.toNat height.toNat (x, y, z) + c : Nat) : Int) =
          (decodedTexel fmt data (blockNumber width.toNat height.toNat depth.toNat (x, y, z)) (x % 4)
            (y % 4)).getD c 0) ∧
      (∀ data' : Int → UInt8, (∀ a : Int, 0 ≤ a →
          a < ((fmt.blockSize * (blocksAcross width.toNat * blocksAcross height.toNat * depth.toNat) :
            Nat) : Int) → data' a = data a) →
        s3tcDecompress3d fmt data' width height depth = s3tcDecompress3d fmt data width height depth) ∧
      (depth = 1 → s3tcDecompress3d fmt data width height depth = s3tcDecompress2d fmt data width height) := by
  have hbuf : UInt32.ofNat (width.toNat * height.toNat * depth.toNat * 4) = width * height * depth * 4 := by
    rw [UInt32.ofNat_mul, UInt32.ofNat_mul, UInt32.ofNat_mul, UInt32.ofNat_toNat, UInt32.ofNat_toNat,
      UInt32.ofNat_toNat]
    rfl
  have h3 : ∀ data : Int → UInt8, s3tcDecompress3d fmt data width height depth =
      some (width * height * depth * 4, s3tcStores fmt data width.toNat height.toNat depth.toNat) := by
    intro data
    have := s3tcDecompress3d_eq fmt data _ _ _ hw hh hd hsize hblocks
    rwa [UInt32.ofNat_toNat, UInt32.ofNat_toNat, UInt32.ofNat_toNat, hbuf] at this
  refine ⟨_, h3 data, ?_, s3tcStores_offsets_nodup .., mem_s3tcStores_offsets fmt data _ _ _,
    fun m x y z c hx hy hz hc => storeAll_s3tcStores fmt data _ _ _ m (x, y, z) ⟨hx, hy, hz⟩ hc,
    fun data' hdata => ?_, fun hd1 => ?_⟩
  · rw [← hbuf, UInt32.toNat_ofNat', Nat.mod_eq_of_lt (by omega), Nat.mul_comm]
  · rw [h3, h3, s3tcStores_congr fmt _ _ _ hdata]
  · -- one slice: the 2-D loops store the same bytes
    subst hd1
    rw [UInt32.toNat_one] at hsize hblocks
    have h2 := s3tcDecompress2d_eq fmt data width.toNat height.toNat hw hh hsize hblocks
    rw [UInt32.ofNat_toNat, UInt32.ofNat_toNat, UInt32.ofNat_mul, UInt32.ofNat_mul, UInt32.ofNat_toNat,
      UInt32.ofNat_toNat] at h2
    rw [h3, h2, UInt32.toNat_one, UInt32.mul_one]
    rfl

theorem s3tc_decompress_covers_5x3 : ∃ stores, s3tcDecompress3d .dxt1 (fun _ => 0) 5 3 1 = some (60, stores) ∧
    (stores.map Prod.fst).Nodup ∧ ∀ a : Int, a ∈ stores.map Prod.fst ↔ 0 ≤ a ∧ a < 60 := by
  obtain ⟨stores, hrun, -, hnd, hmem, -⟩ := s3tc_decompress_covers_image .dxt1 (fun _ => 0) 5 3 1
    (by decide) (by decide) (by decide) (by decide) (by decide)
  exact ⟨stores, hrun, hnd, hmem⟩

section firstBlock

variable (fmt : S3tcFormat) (data : Int → UInt8) (width height : UInt32)

/-- The slice loop only appends. -/
theorem sliceLoop_grows (curDepth : Int32) (bd : Nat) (i j : Int32) (st : Int32 × List (Int × UInt8)) :
    st.2 <+: (sliceLoop fmt data width height curDepth bd i j st).2 :=
  forLoop_grows Prod.snd bd _ st fun _ _ => List.prefix_append _ _

/-- A slice loop of at least one slice starts with the block of slice
    `curDepth`. -/
theorem sliceLoop_first (curDepth : Int32) (bd : Nat) (i j : Int32) (st : Int32 × List (Int × UInt8)) :
    st.2 ++ decompressBlock fmt data st.1 i j width.toInt32 height.toInt32
        (curDepth.toUInt32 * width * height).toInt32 <+:
      (sliceLoop fmt data width height curDepth (bd + 1) i j st).2 := by
  rw [sliceLoop, forLoop_succ']
  dsimp only
  rw [show curDepth + Int32.ofNat 0 = curDepth from Int32.add_zero curDepth]
  refine forLoop_grows Prod.snd bd _ (_, _) fun _ _ => ?_
  exact List.prefix_append _ _

/-- A depth group with a block in each direction starts with the block at
    `(0, 0)` of its first slice, whatever the counts do after. -/
theorem depthGroup_first (depth : UInt32) (st : Int32 × Int32 × List (Int × UInt8)) (nbx nby bd : Nat)
    (hx : (numBlocks width).toNatClampNeg = nbx + 1) (hy : (numBlocks height).toNatClampNeg = nby + 1)
    (hbd : (if (depth - st.1.toUInt32).toInt32 < 4 then (depth - st.1.toUInt32).toInt32 else 4).toNatClampNeg =
      bd + 1) :
    st.2.2 ++ decompressBlock fmt data st.2.1 0 0 width.toInt32 height.toInt32
        (st.1.toUInt32 * width * height).toInt32 <+: (depthGroup fmt data width height depth st).2.2 := by
  simp only [depthGroup, hx, hy, hbd, forLoop_succ']
  have hrow : ∀ (j : Int32) t, t.2 <+: (forLoop nbx (fun i s => sliceLoop fmt data width height st.1
      (bd + 1) (Int32.ofNat (i + 1)) j s) t).2 := fun j t =>
    forLoop_grows Prod.snd nbx _ t fun _ _ => sliceLoop_grows ..
  -- the first block of the first row, the rest of that row, then the other rows
  exact ((sliceLoop_first fmt data width height st.1 bd 0 0 st.2).trans (hrow 0 _)).trans
    (forLoop_grows Prod.snd nby _ _ fun j t => (sliceLoop_grows ..).trans (hrow _ _))

end firstBlock

/-- At `0x8000 × 0x8000 × 4` the buffer size `width * height * depth * 4`
    wraps to `0`, and byte `0` is still stored. -/
theorem s3tc_malloc_size_wraps : ∃ stores, s3tcDecompress3d .dxt1 (fun _ => 0) 0x8000 0x8000 4 =
    some (0, stores) ∧ (0 : Int) ∈ stores.map Prod.fst := by
  have hsize : (0x8000 : UInt32) * 0x8000 * 4 * 4 = 0 := by decide
  have hgroups : (((4 : UInt32) + 3) / 4).toInt32.toNatClampNeg = 0 + 1 := by decide
  -- byte 0 is the first store of block 0: texel (0, 0) of slice 0
  have hfirst : (0 : Int) ∈ (decompressBlock .dxt1 (fun _ => 0) 0 0 0 (0x8000 : UInt32).toInt32
      (0x8000 : UInt32).toInt32 ((0 : Int32).toUInt32 * 0x8000 * 0x8000).toInt32).map Prod.fst := by
    decide
  have hpre := depthGroup_first .dxt1 (fun _ => 0) 0x8000 0x8000 4 (0, 0, []) 0x1fff 0x1fff 3
    (by decide) (by decide) (by decide)
  rw [s3tcDecompress3d, if_neg (by decide), hsize]
  refine ⟨_, rfl, ?_⟩
  rw [hgroups, forLoop_succ, forLoop_zero]
  refine (hpre.map Prod.fst).subset ?_
  rw [List.map_append]
  exact List.mem_append_right _ hfirst

end Xemu.Nv2a
