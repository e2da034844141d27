import Mathlib
import Xemu.Lib.Word

/-! # Texture sizes: the cache key length and the upload's reads

    Model of `pgraph_get_texture_shape` and `pgraph_get_texture_length` of
    `hw/xbox/nv2a/pgraph/texture.c`, and of the guest memory that
    `get_texture_layout` and `get_cubemap_layer_size` of
    `pgraph/vk/texture.c` read for a swizzled or compressed texture.  The
    length is what keys the texture cache and what dirty tracking watches,
    from the texture's offset in guest memory; an upload reading beyond it
    reads bytes whose changes the cache does not see.

    Every size is computed as the source computes it: the per-level
    products in 32-bit `unsigned int`, the sums in `size_t`, here `Nat`.
    The four mipmap loops of the source (the length, the two upload paths
    and the cubemap face size) are one definition, `mipSizes`, with the
    clamp `MAX(w, 1)` and the per-level size as parameters.  Linear
    textures, the palette and the OpenGL upload are not modelled.

    The results:
    * without a border, the upload of a two-dimensional texture reads
      exactly the ranges that make up `pgraph_get_texture_length`;
    * with a border (the default border source, `TEXTURE`) the upload
      reads each level at `MAX(16, 2w) × MAX(16, 2h)`, which
      `pgraph_get_texture_length` ignores, and a cubemap's face stride
      from `get_cubemap_layer_size` is then more than a sixth of the
      length.
-/

namespace Xemu.Nv2a

open Xemu.Word

/-! ## Section 1: Color formats -/

/-- An entry of `kelvin_color_format_info_map`: bytes per pixel and whether
    the format is linear (unswizzled).  The depth flag is not read by the
    modelled functions and is left out. -/
structure BasicColorFormatInfo where
  bytesPerPixel : UInt32
  linear : Bool
deriving DecidableEq, Repr

/-- `kelvin_color_format_info_map`; formats without an entry are zero. -/
def kelvinColorFormatInfoMap (colorFormat : Nat) : BasicColorFormatInfo :=
  match colorFormat with
  | 0x00 => ⟨1, false⟩  -- SZ_Y8
  | 0x01 => ⟨1, false⟩  -- SZ_AY8
  | 0x02 => ⟨2, false⟩  -- SZ_A1R5G5B5
  | 0x03 => ⟨2, false⟩  -- SZ_X1R5G5B5
  | 0x04 => ⟨2, false⟩  -- SZ_A4R4G4B4
  | 0x05 => ⟨2, false⟩  -- SZ_R5G6B5
  | 0x06 => ⟨4, false⟩  -- SZ_A8R8G8B8
  | 0x07 => ⟨4, false⟩  -- SZ_X8R8G8B8
  | 0x0B => ⟨1, false⟩  -- SZ_I8_A8R8G8B8
  | 0x0C => ⟨4, false⟩  -- L_DXT1_A1R5G5B5
  | 0x0E => ⟨4, false⟩  -- L_DXT23_A8R8G8B8
  | 0x0F => ⟨4, false⟩  -- L_DXT45_A8R8G8B8
  | 0x10 => ⟨2, true⟩   -- LU_IMAGE_A1R5G5B5
  | 0x11 => ⟨2, true⟩   -- LU_IMAGE_R5G6B5
  | 0x12 => ⟨4, true⟩   -- LU_IMAGE_A8R8G8B8
  | 0x13 => ⟨1, true⟩   -- LU_IMAGE_Y8
  | 0x17 => ⟨2, true⟩   -- LU_IMAGE_G8B8
  | 0x19 => ⟨1, false⟩  -- SZ_A8
  | 0x1A => ⟨2, false⟩  -- SZ_A8Y8
  | 0x1B => ⟨1, true⟩   -- LU_IMAGE_AY8
  | 0x1C => ⟨2, true⟩   -- LU_IMAGE_X1R5G5B5
  | 0x1D => ⟨2, true⟩   -- LU_IMAGE_A4R4G4B4
  | 0x1E => ⟨4, true⟩   -- LU_IMAGE_X8R8G8B8
  | 0x1F => ⟨1, true⟩   -- LU_IMAGE_A8
  | 0x20 => ⟨2, true⟩   -- LU_IMAGE_A8Y8
  | 0x24 => ⟨2, true⟩   -- LC_IMAGE_CR8YB8CB8YA8
  | 0x25 => ⟨2, true⟩   -- LC_IMAGE_YB8CR8YA8CB8
  | 0x27 => ⟨2, false⟩  -- SZ_R6G5B5
  | 0x28 => ⟨2, false⟩  -- SZ_G8B8
  | 0x29 => ⟨2, false⟩  -- SZ_R8B8
  | 0x2C => ⟨2, false⟩  -- SZ_DEPTH_Y16_FIXED
  | 0x2E => ⟨4, true⟩   -- LU_IMAGE_DEPTH_X8_Y24_FIXED
  | 0x2F => ⟨4, true⟩   -- LU_IMAGE_DEPTH_X8_Y24_FLOAT
  | 0x30 => ⟨2, true⟩   -- LU_IMAGE_DEPTH_Y16_FIXED
  | 0x31 => ⟨2, true⟩   -- LU_IMAGE_DEPTH_Y16_FLOAT
  | 0x35 => ⟨2, true⟩   -- LU_IMAGE_Y16
  | 0x3A => ⟨4, false⟩  -- SZ_A8B8G8R8
  | 0x3B => ⟨4, false⟩  -- SZ_B8G8R8A8
  | 0x3C => ⟨4, false⟩  -- SZ_R8G8B8A8
  | 0x3F => ⟨4, true⟩   -- LU_IMAGE_A8B8G8R8
  | 0x40 => ⟨4, true⟩   -- LU_IMAGE_B8G8R8A8
  | 0x41 => ⟨4, true⟩   -- LU_IMAGE_R8G8B8A8
  | _ => ⟨0, false⟩

/-- `NV097_SET_TEXTURE_FORMAT_COLOR_L_DXT1_A1R5G5B5` -/
abbrev colorLDxt1A1r5g5b5 : Nat := 0x0C
/-- `NV097_SET_TEXTURE_FORMAT_COLOR_L_DXT23_A8R8G8B8` -/
abbrev colorLDxt23A8r8g8b8 : Nat := 0x0E
/-- `NV097_SET_TEXTURE_FORMAT_COLOR_L_DXT45_A8R8G8B8` -/
abbrev colorLDxt45A8r8g8b8 : Nat := 0x0F

/-- `pgraph_is_texture_format_compressed` -/
def pgraphIsTextureFormatCompressed (colorFormat : Nat) : Bool :=
  colorFormat = colorLDxt1A1r5g5b5 || colorFormat = colorLDxt23A8r8g8b8 ||
    colorFormat = colorLDxt45A8r8g8b8

/-- The bytes of one 4 × 4 block of a compressed format: 8 for DXT1, 16
    otherwise. -/
def compressedBlockSize (colorFormat : Nat) : UInt32 :=
  if colorFormat = colorLDxt1A1r5g5b5 then 8 else 16

/-! ## Section 2: The texture shape -/

/-- `TextureShape` -/
structure TextureShape where
  cubemap : Bool
  dimensionality : Nat
  colorFormat : Nat
  levels : Nat
  width : UInt32
  height : UInt32
  depth : UInt32
  border : Bool
  minMipmapLevel : Nat
  maxMipmapLevel : Nat
  pitch : UInt32
deriving DecidableEq, Repr

/-- `pgraph_get_texture_shape`, from the texture's `TEXCTL0`, `TEXCTL1`,
    `TEXFMT` and `TEXIMAGERECT` registers; `none` for its `assert`s and its
    `abort` on a format without an entry.  A swizzled texture is
    `2^u × 2^v × 2^p` with no more levels than the clamp and the base size
    allow. -/
def pgraphGetTextureShape (ctl0 ctl1 fmt rect : UInt32) : Option TextureShape :=
  let minMipmapLevel := (getMask ctl0 0x3FFC0000).toNat
  let maxMipmapLevel := (getMask ctl0 0x0003FFC0).toNat
  let pitch := getMask ctl1 0xFFFF0000
  let cubemap := getMask fmt (1 <<< (2 : UInt32)) ≠ 0
  let dimensionality := (getMask fmt 0x000000C0).toNat
  let colorFormat := (getMask fmt 0x00007F00).toNat
  let levels := (getMask fmt 0x000F0000).toNat
  let logWidth := (getMask fmt 0x00F00000).toNat
  let logHeight := (getMask fmt 0x0F000000).toNat
  let logDepth := (getMask fmt 0xF0000000).toNat
  let rectWidth := getMask rect 0x1FFF0000
  let rectHeight := getMask rect 0x00001FFF
  -- `border_source != NV_PGRAPH_TEXFMT0_BORDER_SOURCE_COLOR`
  let border := getMask fmt (1 <<< (3 : UInt32)) ≠ 1
  if colorFormat ≥ 66 then none
  else
    let f := kelvinColorFormatInfoMap colorFormat
    if f.bytesPerPixel = 0 then none
    else if f.linear then
      if dimensionality ≠ 2 then none
      else some ⟨cubemap, dimensionality, colorFormat, levels, rectWidth, rectHeight, 1, border,
        minMipmapLevel, maxMipmapLevel, pitch⟩
    else
      let levels := min levels (maxMipmapLevel + 1)
      -- discard the levels that would be smaller than 1 × 1
      let levels := min levels (max logWidth logHeight + 1)
      if levels = 0 then none
      else
        let levels :=
          if dimensionality = 3 then
            if logWidth < 2 ∨ logHeight < 2 then 1 else min levels (min logWidth logHeight - 1)
          else levels
        some ⟨cubemap, dimensionality, colorFormat, levels, (1 : UInt32) <<< logWidth.toUInt32,
          (1 : UInt32) <<< logHeight.toUInt32, (1 : UInt32) <<< logDepth.toUInt32, border,
          min (levels - 1) minMipmapLevel, min (levels - 1) maxMipmapLevel, 0⟩

/-! ## Section 3: Mipmap loops -/

/-- The level sizes a mipmap loop adds up over `levels` levels from a base
    of `w × h × d`: each level's `size w h d`, then `w`, `h` and `d` halved,
    all three first clamped to at least 1 when `clamp` is set. -/
def mipSizes (clamp : Bool) (size : UInt32 → UInt32 → UInt32 → UInt32) :
    Nat → UInt32 → UInt32 → UInt32 → List Nat
  | 0, _, _, _ => []
  | n + 1, w, h, d =>
    let w := if clamp then max w 1 else w
    let h := if clamp then max h 1 else h
    let d := if clamp then max d 1 else d
    (size w h d).toNat :: mipSizes clamp size n (w / 2) (h / 2) (d / 2)

/-- An uncompressed level of a two-dimensional texture: `w * h * bpp`. -/
def planeSize (bpp : UInt32) (w h _ : UInt32) : UInt32 := w * h * bpp

/-- A compressed level in whole 4 × 4 blocks of `blockSize` bytes, the
    sides rounded up to multiples of 4: `phys_w/4 * phys_h/4 * block_size`. -/
def blocksSize (blockSize : UInt32) (w h _ : UInt32) : UInt32 :=
  ((w + 3) &&& ~~~3) / 4 * ((h + 3) &&& ~~~3) / 4 * blockSize

/-- `NV2A_CUBEMAP_FACE_ALIGNMENT` -/
abbrev nv2aCubemapFaceAlignment : Nat := 128

/-- `(n + ALIGN - 1) & ~(ALIGN - 1)` for the power-of-two alignment of a
    cubemap face, in `size_t`. -/
def alignFace (n : Nat) : Nat :=
  (n + nv2aCubemapFaceAlignment - 1) / nv2aCubemapFaceAlignment * nv2aCubemapFaceAlignment

/-- `pgraph_get_texture_length` -/
def pgraphGetTextureLength (shape : TextureShape) : Nat :=
  let f := kelvinColorFormatInfoMap shape.colorFormat
  if f.linear then (shape.height * shape.pitch).toNat
  else if shape.dimensionality ≥ 2 then
    let length :=
      if !pgraphIsTextureFormatCompressed shape.colorFormat then
        (mipSizes true (planeSize f.bytesPerPixel) shape.levels shape.width shape.height 1).sum
      else
        (mipSizes true (blocksSize (compressedBlockSize shape.colorFormat)) shape.levels
          shape.width shape.height 1).sum
    let length := if shape.cubemap then alignFace length * 6 else length
    if shape.dimensionality ≥ 3 then length * shape.depth.toNat else length
  else 0

/-! ## Section 4: What the upload reads -/

/-- The base size the upload works from: with a border, a swizzled texture
    is stored at `MAX(16, 2w) × MAX(16, 2h) × MAX(16, 2d)`. -/
def adjustedSize (s : TextureShape) : UInt32 × UInt32 × UInt32 :=
  if !(kelvinColorFormatInfoMap s.colorFormat).linear && s.border then
    (max 16 (s.width * 2), max 16 (s.height * 2), max 16 (s.depth * 2))
  else (s.width, s.height, s.depth)

/-- `get_cubemap_layer_size`: the face stride of a cubemap, from the
    adjusted size and without clamping small levels. -/
def getCubemapLayerSize (s : TextureShape) : Nat :=
  let f := kelvinColorFormatInfoMap s.colorFormat
  let (w, h, _) := adjustedSize s
  let blockSize := compressedBlockSize s.colorFormat
  let sizes :=
    if pgraphIsTextureFormatCompressed s.colorFormat then
      mipSizes false (fun w h _ => w / 4 * h / 4 * blockSize) s.levels w h 1
    else mipSizes false (planeSize f.bytesPerPixel) s.levels w h 1
  alignFace sizes.sum

/-- The byte ranges `(offset, length)` of consecutive reads of the given
    lengths from `base`. -/
def consecutiveRanges : Nat → List Nat → List (Nat × Nat)
  | _, [] => []
  | base, size :: sizes => (base, size) :: consecutiveRanges (base + size) sizes

/-- The guest bytes `get_texture_layout` reads for a swizzled or compressed
    texture, from the texture's offset: per layer (six faces `layer_size`
    apart for a cubemap) and per level, `unswizzle_rect` or
    `s3tc_decompress_2d` over the level's bytes; for a 3D texture,
    `unswizzle_box` or `s3tc_decompress_3d` per level. -/
def getTextureLayoutReads (s : TextureShape) : List (Nat × Nat) :=
  let f := kelvinColorFormatInfoMap s.colorFormat
  let (w, h, d) := adjustedSize s
  let compressed := pgraphIsTextureFormatCompressed s.colorFormat
  let blockSize := compressedBlockSize s.colorFormat
  if s.dimensionality = 2 then
    let layerSize := if s.cubemap then getCubemapLayerSize s else 0
    let numLayers := if s.cubemap then 6 else 1
    let sizes :=
      if compressed then mipSizes true (blocksSize blockSize) s.levels w h 1
      else mipSizes true (planeSize f.bytesPerPixel) s.levels w h 1
    (List.range numLayers).flatMap fun layer => consecutiveRanges (layer * layerSize) sizes
  else if s.dimensionality = 3 then
    let sizes :=
      if compressed then
        mipSizes true (fun w h d => ((w + 3) &&& ~~~3) / 4 * ((h + 3) &&& ~~~3) / 4 * d * blockSize)
          s.levels w h d
      else mipSizes true (fun w h d => w * h * d * f.bytesPerPixel) s.levels w h d
    consecutiveRanges 0 sizes
  else []

/-- Consecutive reads stay between their base and the base plus their
    total; the induction is on the list of lengths. -/
theorem consecutiveRanges_within (sizes : List Nat) :
    ∀ base, ∀ r ∈ consecutiveRanges base sizes, base ≤ r.1 ∧ r.1 + r.2 ≤ base + sizes.sum := by
  induction sizes with
  | nil =>
    intro base r hr
    simp [consecutiveRanges] at hr
  | cons size sizes ih =>
    intro base r hr
    simp only [consecutiveRanges, List.mem_cons] at hr
    rcases hr with rfl | hr
    · simp
    · obtain ⟨hlo, hhi⟩ := ih (base + size) r hr
      simp only [List.sum_cons]
      omega

/-! ## Section 5: The reads against the length -/

/-- Without a border, a two-dimensional texture that is not a cubemap is
    read as the consecutive levels `pgraph_get_texture_length` adds up:
    every read lies inside the length. -/
theorem textureLayout_reads_within_length (s : TextureShape)
    (hlin : (kelvinColorFormatInfoMap s.colorFormat).linear = false) (hdim : s.dimensionality = 2)
    (hcube : s.cubemap = false) (hborder : s.border = false) :
    ∀ r ∈ getTextureLayoutReads s, r.1 + r.2 ≤ pgraphGetTextureLength s := by
  intro r hr
  have hadj : adjustedSize s = (s.width, s.height, s.depth) := by
    simp [adjustedSize, hborder]
  -- both walk the same level sizes from the same base
  cases hc : pgraphIsTextureFormatCompressed s.colorFormat
  all_goals
    simp only [getTextureLayoutReads, pgraphGetTextureLength, hadj, hdim, hcube, hlin, hc,
      Bool.false_eq_true, Bool.not_false, Bool.not_true, ↓reduceIte, List.range_one,
      List.flatMap_cons, List.flatMap_nil, List.append_nil, Nat.zero_mul, le_refl] at hr ⊢
    have := (consecutiveRanges_within _ 0 r hr).2
    simpa using this

/-- The `TEXFMT` of a 4 × 4 swizzled `A8R8G8B8` texture of one level, two
    dimensions, border source `TEXTURE` (bit 3 clear). -/
def borderProbeFmt : UInt32 := 0x02210680

/-- With its border, the probe texture is read over 1024 bytes by the
    upload while `pgraph_get_texture_length` gives 64; made a cubemap
    (bit 2), its faces are 1024 bytes apart in the upload while the length
    covers 768 bytes for all six. -/
theorem textureLength_misses_border :
    pgraphGetTextureShape 0 0 borderProbeFmt 0 = some ⟨false, 2, 6, 1, 4, 4, 1, true, 0, 0, 0⟩ ∧
    pgraphGetTextureLength ⟨false, 2, 6, 1, 4, 4, 1, true, 0, 0, 0⟩ = 64 ∧
    getTextureLayoutReads ⟨false, 2, 6, 1, 4, 4, 1, true, 0, 0, 0⟩ = [(0, 1024)] ∧
    pgraphGetTextureShape 0 0 (borderProbeFmt ||| 4) 0 =
      some ⟨true, 2, 6, 1, 4, 4, 1, true, 0, 0, 0⟩ ∧
    getCubemapLayerSize ⟨true, 2, 6, 1, 4, 4, 1, true, 0, 0, 0⟩ = 1024 ∧
    pgraphGetTextureLength ⟨true, 2, 6, 1, 4, 4, 1, true, 0, 0, 0⟩ = 768 := by
  decide

end Xemu.Nv2a
