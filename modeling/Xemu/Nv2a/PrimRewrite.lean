import Mathlib
import Xemu.Lib.Loop
import Xemu.Lib.Word

/-! # Primitive rewriting

    A model of hw/xbox/nv2a/pgraph/prim_rewrite.c.  The NV2A draws quads,
    quad strips, polygons, fans, loops and strips, and its flat shading
    takes the colour of a per-primitive provoking vertex; the host API
    does not have all of these.  `rewrite_indices` turns an index list (or
    a run `base, base + 1, ...`) into plain lines or triangles, with the
    provoking vertex first when shading is flat, into a buffer whose
    capacity `max_output_indices` computes beforehand.

    The model keeps the code's arithmetic: counts, loop counters and the
    capacity are 32-bit words, and every loop is `strideLoop` over a 32-bit
    counter.  The output buffer is the list of indices written, in order.

    The results:
    - every rewrite loop stops and writes `rewrittenCount` indices, a
      multiple of two for line output and of three for triangle output;
    - `rewrittenCount` is at most the Nat value of `max_output_indices`,
      so the buffer holds what is written whenever that value fits in 32
      bits; for `2 ^ 31 + 1` indices of a line loop the 32-bit product
      wraps, and for the ranges of `DRAW_ARRAYS`, which contiguous draws
      merge into ranges of up to `2 ^ 24` indices, the 32-bit sum over the
      ranges wraps: sixty-five wireframe quad-strip ranges overrun the
      buffer (`quadStripRanges_capacity_wraps`);
    - in line mode, quads, quad strips and polygons are outlined edge by
      edge whatever the shading, so flat-shaded wireframes take each
      edge's colour from its first vertex, not from the primitive's
      provoking vertex.
-/

namespace Xemu.Nv2a

open Xemu.Loop Xemu.Word

/-! ## Section 1: Modes -/

/-- `enum ShaderPrimitiveMode`. -/
inductive ShaderPrimitiveMode
  | invalid | points | lines | lineLoop | lineStrip | triangles | triangleStrip | triangleFan
  | quads | quadStrip | polygon
  deriving DecidableEq, Repr

/-- `enum ShaderPolygonMode`. -/
inductive ShaderPolygonMode
  | fill | point | line
  deriving DecidableEq, Repr

/-- `PrimAssemblyState`. -/
structure PrimAssemblyState where
  primitiveMode : ShaderPrimitiveMode
  polygonMode : ShaderPolygonMode
  lastProvoking : Bool
  flatShading : Bool
  deriving DecidableEq, Repr

/-- `pgraph_prim_rewrite_get_output_mode`; `none` is the failed
    `assert` of an invalid mode. -/
def getOutputMode (primitiveMode : ShaderPrimitiveMode) (polygonMode : ShaderPolygonMode) :
    Option ShaderPrimitiveMode :=
  match primitiveMode with
  | .points => some .points
  | .lines | .lineStrip | .lineLoop => some .lines
  | .triangles | .triangleStrip | .triangleFan => some .triangles
  | .quads | .quadStrip | .polygon =>
    some (if polygonMode = .line then .lines else .triangles)
  | .invalid => none

/-- `needs_rewrite`. -/
def needsRewrite (mode : PrimAssemblyState) : Bool :=
  match mode.primitiveMode with
  | .points => false
  | .lines | .triangles => mode.lastProvoking && mode.flatShading
  | _ => true

/-- `max_output_indices`, in `unsigned int` arithmetic. -/
def maxOutputIndices (mode : ShaderPrimitiveMode) (polygonMode : ShaderPolygonMode)
    (inputCount : UInt32) : UInt32 :=
  match mode with
  | .lines => inputCount
  | .lineStrip => if inputCount ≥ 2 then (inputCount - 1) * 2 else 0
  | .lineLoop => if inputCount ≥ 2 then inputCount * 2 else 0
  | .triangles => inputCount
  | .triangleStrip | .triangleFan => if inputCount ≥ 3 then (inputCount - 2) * 3 else 0
  | .polygon =>
    if polygonMode = .line then (if inputCount ≥ 2 then inputCount * 2 else 0)
    else if inputCount ≥ 3 then (inputCount - 2) * 3 else 0
  | .quads => if polygonMode = .line then inputCount / 4 * 8 else inputCount / 4 * 6
  | .quadStrip =>
    if polygonMode = .line then (if inputCount ≥ 4 then (inputCount - 2) / 2 * 8 else 0)
    else if inputCount ≥ 4 then (inputCount - 2) / 2 * 6 else 0
  | .points | .invalid => 0

/-! ## Section 2: Emitting -/

/-- `idx_at`: the `i`-th input index, or `base + i` for a run. -/
def idxAt (idx : Option (List UInt32)) (i base : UInt32) : UInt32 :=
  match idx with
  | some l => l.getD i.toNat 0
  | none => base + i

def emitLine (r : List UInt32) (a b : UInt32) : List UInt32 := r ++ [a, b]

/-- `emit_line_pv`: the provoking vertex `p` first. -/
def emitLinePv (r : List UInt32) (a b p : UInt32) : List UInt32 :=
  if p = a then emitLine r a b else emitLine r b a

def emitTri (r : List UInt32) (a b c : UInt32) : List UInt32 := r ++ [a, b, c]

/-- `emit_tri_pv`: rotate the provoking vertex `p` to the front. -/
def emitTriPv (r : List UInt32) (a b c p : UInt32) : List UInt32 :=
  if p = a then emitTri r a b c
  else if p = b then emitTri r b c a
  else emitTri r c a b

@[simp] theorem emitLine_length (r : List UInt32) (a b : UInt32) :
    (emitLine r a b).length = r.length + 2 := by simp [emitLine]

@[simp] theorem emitLinePv_length (r : List UInt32) (a b p : UInt32) :
    (emitLinePv r a b p).length = r.length + 2 := by
  unfold emitLinePv; split <;> simp

@[simp] theorem emitTri_length (r : List UInt32) (a b c : UInt32) :
    (emitTri r a b c).length = r.length + 3 := by simp [emitTri]

@[simp] theorem emitTriPv_length (r : List UInt32) (a b c p : UInt32) :
    (emitTriPv r a b c p).length = r.length + 3 := by
  unfold emitTriPv; split_ifs <;> simp

/-! ## Section 3: The rewrite loops

    Each `rewrite_*` function of the source, on the indices written so
    far; `none` is a loop that does not stop. -/

def rewriteLines (r : List UInt32) (idx : Option (List UInt32)) (base count : UInt32)
    (lastProvoking : Bool) : Option (List UInt32) :=
  strideLoop 1 2 count (fun i r =>
    let v0 := idxAt idx i base
    let v1 := idxAt idx (i + 1) base
    emitLinePv r v0 v1 (if lastProvoking then v1 else v0)) (2 ^ 32) 0 r

def rewriteLineStrip (r : List UInt32) (idx : Option (List UInt32)) (base count : UInt32)
    (lastProvoking : Bool) : Option (List UInt32) :=
  strideLoop 1 1 count (fun i r =>
    let v0 := idxAt idx i base
    let v1 := idxAt idx (i + 1) base
    emitLinePv r v0 v1 (if lastProvoking then v1 else v0)) (2 ^ 32) 0 r

def rewriteLineLoop (r : List UInt32) (idx : Option (List UInt32)) (base count : UInt32)
    (lastProvoking : Bool) : Option (List UInt32) :=
  if count < 2 then some r else
  (strideLoop 1 1 count (fun i r =>
    let v0 := idxAt idx i base
    let v1 := idxAt idx (i + 1) base
    emitLinePv r v0 v1 (if lastProvoking then v1 else v0)) (2 ^ 32) 0 r).map fun r =>
    -- the closing edge, from the last vertex back to the first
    let vLast := idxAt idx (count - 1) base
    let vFirst := idxAt idx 0 base
    emitLinePv r vLast vFirst (if lastProvoking then vFirst else vLast)

def rewriteTriangles (r : List UInt32) (idx : Option (List UInt32)) (base count : UInt32)
    (lastProvoking : Bool) : Option (List UInt32) :=
  strideLoop 2 3 count (fun i r =>
    let v0 := idxAt idx i base
    let v1 := idxAt idx (i + 1) base
    let v2 := idxAt idx (i + 2) base
    emitTriPv r v0 v1 v2 (if lastProvoking then v2 else v0)) (2 ^ 32) 0 r

def rewriteTriangleStrip (r : List UInt32) (idx : Option (List UInt32)) (base count : UInt32)
    (lastProvoking : Bool) : Option (List UInt32) :=
  strideLoop 2 1 count (fun i r =>
    let v0 := idxAt idx i base
    let v1 := idxAt idx (i + 1) base
    let v2 := idxAt idx (i + 2) base
    let pv := if lastProvoking then v2 else v0
    -- odd triangles of a strip have the opposite winding
    if i &&& 1 ≠ 0 then emitTriPv r v1 v0 v2 pv else emitTriPv r v0 v1 v2 pv) (2 ^ 32) 0 r

def rewriteTriangleFan (r : List UInt32) (idx : Option (List UInt32)) (base count : UInt32)
    (lastProvoking : Bool) : Option (List UInt32) :=
  if count < 3 then some r else
  let hub := idxAt idx 0 base
  strideLoop 2 1 count (fun i r =>
    let v1 := idxAt idx (i + 1) base
    let v2 := idxAt idx (i + 2) base
    emitTriPv r hub v1 v2 (if lastProvoking then v2 else v1)) (2 ^ 32) 0 r

def rewriteQuads (r : List UInt32) (idx : Option (List UInt32)) (base count : UInt32)
    (flatShading : Bool) : Option (List UInt32) :=
  strideLoop 3 4 count (fun i r =>
    let v0 := idxAt idx i base
    let v1 := idxAt idx (i + 1) base
    let v2 := idxAt idx (i + 2) base
    let v3 := idxAt idx (i + 3) base
    -- flat: the `v1`-`v3` diagonal keeps the provoking `v3` in both halves
    if flatShading then emitTri (emitTri r v3 v0 v1) v3 v1 v2
    else emitTri (emitTri r v0 v1 v2) v0 v2 v3) (2 ^ 32) 0 r

def rewriteQuadsLine (r : List UInt32) (idx : Option (List UInt32)) (base count : UInt32) :
    Option (List UInt32) :=
  strideLoop 3 4 count (fun i r =>
    let v0 := idxAt idx i base
    let v1 := idxAt idx (i + 1) base
    let v2 := idxAt idx (i + 2) base
    let v3 := idxAt idx (i + 3) base
    emitLine (emitLine (emitLine (emitLine r v0 v1) v1 v2) v2 v3) v3 v0) (2 ^ 32) 0 r

def rewriteQuadStrip (r : List UInt32) (idx : Option (List UInt32)) (base count : UInt32)
    (flatShading : Bool) : Option (List UInt32) :=
  if count < 4 then some r else
  strideLoop 3 2 count (fun i r =>
    let v0 := idxAt idx i base
    let v1 := idxAt idx (i + 1) base
    let v2 := idxAt idx (i + 2) base
    let v3 := idxAt idx (i + 3) base
    -- flat: the `v0`-`v3` diagonal keeps the provoking `v3` in both halves
    if flatShading then emitTri (emitTri r v3 v2 v0) v3 v0 v1
    else emitTri (emitTri r v0 v1 v2) v2 v1 v3) (2 ^ 32) 0 r

def rewriteQuadStripLine (r : List UInt32) (idx : Option (List UInt32)) (base count : UInt32) :
    Option (List UInt32) :=
  if count < 4 then some r else
  strideLoop 3 2 count (fun i r =>
    let v0 := idxAt idx i base
    let v1 := idxAt idx (i + 1) base
    let v2 := idxAt idx (i + 2) base
    let v3 := idxAt idx (i + 3) base
    emitLine (emitLine (emitLine (emitLine r v0 v1) v1 v3) v3 v2) v2 v0) (2 ^ 32) 0 r

def rewritePolygon (r : List UInt32) (idx : Option (List UInt32)) (base count : UInt32) :
    Option (List UInt32) :=
  if count < 3 then some r else
  let hub := idxAt idx 0 base
  strideLoop 2 1 count (fun i r =>
    emitTri r hub (idxAt idx (i + 1) base) (idxAt idx (i + 2) base)) (2 ^ 32) 0 r

def rewritePolygonLine (r : List UInt32) (idx : Option (List UInt32)) (base count : UInt32) :
    Option (List UInt32) :=
  if count < 2 then some r else
  (strideLoop 1 1 count (fun i r =>
    emitLine r (idxAt idx i base) (idxAt idx (i + 1) base)) (2 ^ 32) 0 r).map fun r =>
    -- close the loop
    emitLine r (idxAt idx (count - 1) base) (idxAt idx 0 base)

/-- `rewrite_indices`: dispatch on the primitive and polygon modes.  The
    `assert` of the default case is unreachable from both entry points
    (points need no rewrite, and an invalid mode has no output). -/
def rewriteIndices (r : List UInt32) (mode : PrimAssemblyState) (idx : Option (List UInt32))
    (base numIndices : UInt32) : Option (List UInt32) :=
  match mode.primitiveMode with
  | .lines => rewriteLines r idx base numIndices mode.lastProvoking
  | .lineStrip => rewriteLineStrip r idx base numIndices mode.lastProvoking
  | .lineLoop => rewriteLineLoop r idx base numIndices mode.lastProvoking
  | .triangles => rewriteTriangles r idx base numIndices mode.lastProvoking
  | .triangleStrip => rewriteTriangleStrip r idx base numIndices mode.lastProvoking
  | .triangleFan => rewriteTriangleFan r idx base numIndices mode.lastProvoking
  | .quads =>
    if mode.polygonMode = .line then rewriteQuadsLine r idx base numIndices
    else rewriteQuads r idx base numIndices mode.flatShading
  | .quadStrip =>
    if mode.polygonMode = .line then rewriteQuadStripLine r idx base numIndices
    else rewriteQuadStrip r idx base numIndices mode.flatShading
  | .polygon =>
    if mode.polygonMode = .line then rewritePolygonLine r idx base numIndices
    else rewritePolygon r idx base numIndices
  | .points | .invalid => some r

-- a strip of four: the second triangle, wound `12, 11, 13`, is rotated to
-- start at its provoking vertex `11`
example : rewriteIndices [] ⟨.triangleStrip, .fill, false, true⟩ (some [10, 11, 12, 13]) 0 4 =
    some [10, 11, 12, 11, 13, 12] := by decide

/-! ## Section 4: The entry points -/

/-- `PrimRewriteBuf`; its contents are rewritten on every call, so only
    the capacity is kept. -/
structure PrimRewriteBuf where
  capacity : UInt32
  deriving DecidableEq, Repr

/-- `PrimRewrite`: the indices written into the buffer, in order
    (`num_indices` is their number as an `unsigned int`). -/
structure PrimRewrite where
  indices : List UInt32
  deriving DecidableEq, Repr

/-- `ensure_capacity`. -/
def ensureCapacity (buf : PrimRewriteBuf) (needed : UInt32) : PrimRewriteBuf :=
  if needed ≤ buf.capacity then buf else ⟨max needed (buf.capacity * 2)⟩

/-- The `assert` of both entry points: no polygon drawn as points. -/
def PrimAssemblyState.Supported (mode : PrimAssemblyState) : Prop :=
  ¬ (mode.polygonMode = .point ∧ mode.primitiveMode = .polygon)

instance (mode : PrimAssemblyState) : Decidable mode.Supported :=
  inferInstanceAs (Decidable (¬ _))

/-- `pgraph_prim_rewrite_indexed`, returning the buffer and the result;
    `none` is a failed `assert` or a loop that does not stop. -/
def pgraphPrimRewriteIndexed (buf : PrimRewriteBuf) (mode : PrimAssemblyState)
    (inputIndices : List UInt32) (numInputIndices : UInt32) :
    Option (PrimRewriteBuf × PrimRewrite) :=
  if ¬ mode.Supported then none
  else if !needsRewrite mode then some (buf, ⟨[]⟩)
  else
    let maxOutput := maxOutputIndices mode.primitiveMode mode.polygonMode numInputIndices
    if maxOutput = 0 then some (buf, ⟨[]⟩)
    else (rewriteIndices [] mode (some inputIndices) 0 numInputIndices).map fun out =>
      (ensureCapacity buf maxOutput, ⟨out⟩)

/-- `pgraph_prim_rewrite_ranges`, with `starts[r]` and `counts[r]` paired
    in `ranges`; the `int32_t` values are passed on as unsigned words. -/
def pgraphPrimRewriteRanges (buf : PrimRewriteBuf) (mode : PrimAssemblyState)
    (ranges : List (Int32 × Int32)) : Option (PrimRewriteBuf × PrimRewrite) :=
  if ¬ mode.Supported then none
  else if !needsRewrite mode then some (buf, ⟨[]⟩)
  else
    let totalMaxOutput := ranges.foldl (fun total range =>
      total + maxOutputIndices mode.primitiveMode mode.polygonMode range.2.toUInt32) 0
    if totalMaxOutput = 0 then some (buf, ⟨[]⟩)
    else (ranges.foldlM (fun out range =>
        if range.2 = 0 then some out
        else rewriteIndices out mode none range.1.toUInt32 range.2.toUInt32) []).map fun out =>
      (ensureCapacity buf totalMaxOutput, ⟨out⟩)

/-! ## Section 5: How many indices each loop writes

    Every loop writes a fixed number of indices per trip, so each rewrite
    writes its trip count times that; the trip counts are those of
    `strideLoop` (nothing wraps below `2 ^ 32 - 7` input indices). -/

/-- The number of indices `rewrite_indices` writes for `n` input indices:
    two per line and three per triangle of the decomposition. -/
def rewrittenCount (mode : PrimAssemblyState) (n : Nat) : Nat :=
  match mode.primitiveMode with
  | .lines => 2 * (n / 2)
  | .lineStrip => 2 * (n - 1)
  | .lineLoop => if n < 2 then 0 else 2 * n
  | .triangles => 3 * (n / 3)
  | .triangleStrip | .triangleFan => 3 * (n - 2)
  | .quads => if mode.polygonMode = .line then 8 * (n / 4) else 6 * (n / 4)
  | .quadStrip =>
    if mode.polygonMode = .line then (if n < 4 then 0 else 8 * ((n - 2) / 2))
    else if n < 4 then 0 else 6 * ((n - 2) / 2)
  | .polygon => if mode.polygonMode = .line then (if n < 2 then 0 else 2 * n) else 3 * (n - 2)
  | .points | .invalid => 0

section counts

variable (r : List UInt32) (idx : Option (List UInt32)) (base count : UInt32)

theorem rewriteLines_length (lastProvoking : Bool) (hfit : count.toNat + 7 ≤ 2 ^ 32) :
    ∃ r', rewriteLines r idx base count lastProvoking = some r' ∧
      r'.length = r.length + 2 * (count.toNat / 2) := by
  unfold rewriteLines
  exact strideLoop_length 2 _ (fun _ _ => by simp) (by decide) (by simp; omega)
    (by simp [strideTrips]; omega) r

theorem rewriteLineStrip_length (lastProvoking : Bool) (hfit : count.toNat + 7 ≤ 2 ^ 32) :
    ∃ r', rewriteLineStrip r idx base count lastProvoking = some r' ∧
      r'.length = r.length + 2 * (count.toNat - 1) := by
  unfold rewriteLineStrip
  exact strideLoop_length 2 _ (fun _ _ => by simp) (by decide) (by simp; omega)
    (by simp [strideTrips]) r

theorem rewriteLineLoop_length (lastProvoking : Bool) (hfit : count.toNat + 7 ≤ 2 ^ 32) :
    ∃ r', rewriteLineLoop r idx base count lastProvoking = some r' ∧
      r'.length = r.length + (if count.toNat < 2 then 0 else 2 * count.toNat) := by
  have hlt : count < 2 ↔ count.toNat < 2 := UInt32.lt_iff_toNat_lt
  unfold rewriteLineLoop
  by_cases hc : count.toNat < 2
  · rw [if_pos (hlt.mpr hc), if_pos hc]
    exact ⟨r, rfl, rfl⟩
  · -- `count - 1` lines of the loop, then the closing one
    rw [if_neg (mt hlt.mp hc), if_neg hc]
    exact strideLoop_map_length 2 2 _ (fun _ _ => by simp) (fun _ => by simp) (by decide)
      (by simp; omega) (by simp [strideTrips]; omega) r

theorem rewriteTriangles_length (lastProvoking : Bool) (hfit : count.toNat + 7 ≤ 2 ^ 32) :
    ∃ r', rewriteTriangles r idx base count lastProvoking = some r' ∧
      r'.length = r.length + 3 * (count.toNat / 3) := by
  unfold rewriteTriangles
  exact strideLoop_length 3 _ (fun _ _ => by simp) (by decide) (by simp; omega)
    (by simp [strideTrips]; omega) r

theorem rewriteTriangleStrip_length (lastProvoking : Bool) (hfit : count.toNat + 7 ≤ 2 ^ 32) :
    ∃ r', rewriteTriangleStrip r idx base count lastProvoking = some r' ∧
      r'.length = r.length + 3 * (count.toNat - 2) := by
  unfold rewriteTriangleStrip
  exact strideLoop_length 3 _ (fun _ _ => by split_ifs <;> simp) (by decide) (by simp; omega)
    (by simp [strideTrips]) r

theorem rewriteTriangleFan_length (lastProvoking : Bool) (hfit : count.toNat + 7 ≤ 2 ^ 32) :
    ∃ r', rewriteTriangleFan r idx base count lastProvoking = some r' ∧
      r'.length = r.length + 3 * (count.toNat - 2) := by
  have hlt : count < 3 ↔ count.toNat < 3 := UInt32.lt_iff_toNat_lt
  unfold rewriteTriangleFan
  by_cases hc : count.toNat < 3
  · rw [if_pos (hlt.mpr hc)]
    exact ⟨r, rfl, by omega⟩
  · rw [if_neg (mt hlt.mp hc)]
    exact strideLoop_length 3 _ (fun _ _ => by simp) (by decide) (by simp; omega)
      (by simp [strideTrips]) r

theorem rewriteQuads_length (flatShading : Bool) (hfit : count.toNat + 7 ≤ 2 ^ 32) :
    ∃ r', rewriteQuads r idx base count flatShading = some r' ∧
      r'.length = r.length + 6 * (count.toNat / 4) := by
  unfold rewriteQuads
  exact strideLoop_length 6 _ (fun _ _ => by split <;> simp) (by decide) (by simp; omega)
    (by simp [strideTrips]; omega) r

theorem rewriteQuadsLine_length (hfit : count.toNat + 7 ≤ 2 ^ 32) :
    ∃ r', rewriteQuadsLine r idx base count = some r' ∧
      r'.length = r.length + 8 * (count.toNat / 4) := by
  unfold rewriteQuadsLine
  exact strideLoop_length 8 _ (fun _ _ => by simp) (by decide) (by simp; omega)
    (by simp [strideTrips]; omega) r

theorem rewriteQuadStrip_length (flatShading : Bool) (hfit : count.toNat + 7 ≤ 2 ^ 32) :
    ∃ r', rewriteQuadStrip r idx base count flatShading = some r' ∧
      r'.length = r.length + (if count.toNat < 4 then 0 else 6 * ((count.toNat - 2) / 2)) := by
  have hlt : count < 4 ↔ count.toNat < 4 := UInt32.lt_iff_toNat_lt
  unfold rewriteQuadStrip
  by_cases hc : count.toNat < 4
  · rw [if_pos (hlt.mpr hc), if_pos hc]
    exact ⟨r, rfl, rfl⟩
  · rw [if_neg (mt hlt.mp hc), if_neg hc]
    exact strideLoop_length 6 _ (fun _ _ => by split <;> simp) (by decide) (by simp; omega)
      (by simp [strideTrips]; omega) r

theorem rewriteQuadStripLine_length (hfit : count.toNat + 7 ≤ 2 ^ 32) :
    ∃ r', rewriteQuadStripLine r idx base count = some r' ∧
      r'.length = r.length + (if count.toNat < 4 then 0 else 8 * ((count.toNat - 2) / 2)) := by
  have hlt : count < 4 ↔ count.toNat < 4 := UInt32.lt_iff_toNat_lt
  unfold rewriteQuadStripLine
  by_cases hc : count.toNat < 4
  · rw [if_pos (hlt.mpr hc), if_pos hc]
    exact ⟨r, rfl, rfl⟩
  · rw [if_neg (mt hlt.mp hc), if_neg hc]
    exact strideLoop_length 8 _ (fun _ _ => by simp) (by decide) (by simp; omega)
      (by simp [strideTrips]; omega) r

theorem rewritePolygon_length (hfit : count.toNat + 7 ≤ 2 ^ 32) :
    ∃ r', rewritePolygon r idx base count = some r' ∧
      r'.length = r.length + 3 * (count.toNat - 2) := by
  have hlt : count < 3 ↔ count.toNat < 3 := UInt32.lt_iff_toNat_lt
  unfold rewritePolygon
  by_cases hc : count.toNat < 3
  · rw [if_pos (hlt.mpr hc)]
    exact ⟨r, rfl, by omega⟩
  · rw [if_neg (mt hlt.mp hc)]
    exact strideLoop_length 3 _ (fun _ _ => by simp) (by decide) (by simp; omega)
      (by simp [strideTrips]) r

theorem rewritePolygonLine_length (hfit : count.toNat + 7 ≤ 2 ^ 32) :
    ∃ r', rewritePolygonLine r idx base count = some r' ∧
      r'.length = r.length + (if count.toNat < 2 then 0 else 2 * count.toNat) := by
  have hlt : count < 2 ↔ count.toNat < 2 := UInt32.lt_iff_toNat_lt
  unfold rewritePolygonLine
  by_cases hc : count.toNat < 2
  · rw [if_pos (hlt.mpr hc), if_pos hc]
    exact ⟨r, rfl, rfl⟩
  · rw [if_neg (mt hlt.mp hc), if_neg hc]
    exact strideLoop_map_length 2 2 _ (fun _ _ => by simp) (fun _ => by simp) (by decide)
      (by simp; omega) (by simp [strideTrips]; omega) r

/-- Every rewrite stops and writes `rewrittenCount` indices. -/
theorem rewriteIndices_length (mode : PrimAssemblyState) (hfit : count.toNat + 7 ≤ 2 ^ 32) :
    ∃ r', rewriteIndices r mode idx base count = some r' ∧
      r'.length = r.length + rewrittenCount mode count.toNat := by
  rcases mode with ⟨pm, poly, lastProvoking, flatShading⟩
  cases pm with
  | lines => exact rewriteLines_length r idx base count lastProvoking hfit
  | lineStrip => exact rewriteLineStrip_length r idx base count lastProvoking hfit
  | lineLoop => exact rewriteLineLoop_length r idx base count lastProvoking hfit
  | triangles => exact rewriteTriangles_length r idx base count lastProvoking hfit
  | triangleStrip => exact rewriteTriangleStrip_length r idx base count lastProvoking hfit
  | triangleFan => exact rewriteTriangleFan_length r idx base count lastProvoking hfit
  | quads =>
    by_cases hl : poly = .line
    · simp only [rewriteIndices, rewrittenCount, if_pos hl]
      exact rewriteQuadsLine_length r idx base count hfit
    · simp only [rewriteIndices, rewrittenCount, if_neg hl]
      exact rewriteQuads_length r idx base count flatShading hfit
  | quadStrip =>
    by_cases hl : poly = .line
    · simp only [rewriteIndices, rewrittenCount, if_pos hl]
      exact rewriteQuadStripLine_length r idx base count hfit
    · simp only [rewriteIndices, rewrittenCount, if_neg hl]
      exact rewriteQuadStrip_length r idx base count flatShading hfit
  | polygon =>
    by_cases hl : poly = .line
    · simp only [rewriteIndices, rewrittenCount, if_pos hl]
      exact rewritePolygonLine_length r idx base count hfit
    · simp only [rewriteIndices, rewrittenCount, if_neg hl]
      exact rewritePolygon_length r idx base count hfit
  | points | invalid => exact ⟨r, rfl, rfl⟩

end counts

/-! ## Section 6: The capacity

    `max_output_indices` is the decomposition's size rounded up, so it
    bounds what is written as long as its 32-bit arithmetic does not wrap:
    below `2 ^ 30` input indices every value of the formula is below
    `2 ^ 32`.  The callers pass at most `NV2A_MAX_BATCH_LENGTH = 0x7FFFF`
    inline indices, but the ranges of `DRAW_ARRAYS` are bounded only by
    the 1250 entries of `draw_arrays_start` and the 24-bit start index. -/

/-- `max_output_indices` in unbounded arithmetic. -/
def maxOutputNat (mode : ShaderPrimitiveMode) (polygonMode : ShaderPolygonMode) (n : Nat) : Nat :=
  match mode with
  | .lines => n
  | .lineStrip => if n ≥ 2 then (n - 1) * 2 else 0
  | .lineLoop => if n ≥ 2 then n * 2 else 0
  | .triangles => n
  | .triangleStrip | .triangleFan => if n ≥ 3 then (n - 2) * 3 else 0
  | .polygon =>
    if polygonMode = .line then (if n ≥ 2 then n * 2 else 0)
    else if n ≥ 3 then (n - 2) * 3 else 0
  | .quads => if polygonMode = .line then n / 4 * 8 else n / 4 * 6
  | .quadStrip =>
    if polygonMode = .line then (if n ≥ 4 then (n - 2) / 2 * 8 else 0)
    else if n ≥ 4 then (n - 2) / 2 * 6 else 0
  | .points | .invalid => 0

/-- No value of the formula exceeds four indices per input index. -/
theorem maxOutputNat_le (mode : ShaderPrimitiveMode) (polygonMode : ShaderPolygonMode) (n : Nat) :
    maxOutputNat mode polygonMode n ≤ 4 * n := by
  cases mode <;> cases polygonMode <;> simp only [maxOutputNat] <;> (try split_ifs) <;> omega

/-- Below `2 ^ 30` input indices the 32-bit formula does not wrap. -/
theorem maxOutputIndices_toNat (mode : ShaderPrimitiveMode) (polygonMode : ShaderPolygonMode)
    (count : UInt32) (hn : 4 * count.toNat < 2 ^ 32) :
    (maxOutputIndices mode polygonMode count).toNat = maxOutputNat mode polygonMode count.toNat := by
  -- per mode: turn the range tests into `Nat` ones, split them, and push
  -- `toNat` through the products, each below `4 * count`
  cases mode <;> cases polygonMode <;> simp only [maxOutputIndices, maxOutputNat, ge_iff_le,
    UInt32.le_iff_toNat_le, UInt32.reduceToNat] <;> (try split_ifs) <;>
    simp (disch := (simp only [UInt32.reduceToNat]; omega)) only [toNat_sub_div_mul_of_lt,
      toNat_sub_mul_of_lt, toNat_div_mul_of_lt, toNat_mul_of_lt, UInt32.reduceToNat]

/-- The decomposition fits the formula. -/
theorem rewrittenCount_le_maxOutputNat (mode : PrimAssemblyState) (n : Nat) :
    rewrittenCount mode n ≤ maxOutputNat mode.primitiveMode mode.polygonMode n := by
  rcases mode with ⟨pm, poly, lastProvoking, flatShading⟩
  cases pm <;> cases poly <;> simp only [rewrittenCount, maxOutputNat] <;> (try split_ifs) <;>
    omega

theorem rewrittenCount_le (mode : PrimAssemblyState) (count : UInt32)
    (hn : 4 * count.toNat < 2 ^ 32) :
    rewrittenCount mode count.toNat ≤
      (maxOutputIndices mode.primitiveMode mode.polygonMode count).toNat := by
  rw [maxOutputIndices_toNat _ _ count hn]
  exact rewrittenCount_le_maxOutputNat mode _

/-- The decomposition is in whole lines or whole triangles. -/
theorem rewrittenCount_dvd (mode : PrimAssemblyState) (n : Nat) :
    (getOutputMode mode.primitiveMode mode.polygonMode = some .lines →
        2 ∣ rewrittenCount mode n) ∧
      (getOutputMode mode.primitiveMode mode.polygonMode = some .triangles →
        3 ∣ rewrittenCount mode n) := by
  rcases mode with ⟨pm, poly, lastProvoking, flatShading⟩
  cases pm <;> cases poly <;> simp [getOutputMode, rewrittenCount] <;> (try split_ifs) <;> omega

@[simp] theorem rewrittenCount_zero (mode : PrimAssemblyState) : rewrittenCount mode 0 = 0 := by
  rcases mode with ⟨pm, poly, lastProvoking, flatShading⟩
  cases pm <;> cases poly <;> simp [rewrittenCount]

theorem ensureCapacity_ge (buf : PrimRewriteBuf) (needed : UInt32) :
    needed.toNat ≤ (ensureCapacity buf needed).capacity.toNat := by
  unfold ensureCapacity
  split_ifs with h
  · exact UInt32.le_iff_toNat_le.mp h
  · -- `MAX(needed, capacity * 2)`, whatever the doubling wraps to
    show needed.toNat ≤ (if needed ≤ buf.capacity * 2 then buf.capacity * 2 else needed).toNat
    split_ifs with hle
    · exact UInt32.le_iff_toNat_le.mp hle
    · exact le_rfl

/-- What the capacity computation promises of a result: the indices
    written fit the bound and the buffer, in whole lines or triangles. -/
def FitsBuffer (mode : PrimAssemblyState) (bound : Nat) :
    Option (PrimRewriteBuf × PrimRewrite) → Prop
  | some (buf, res) =>
    res.indices.length ≤ bound ∧ res.indices.length ≤ buf.capacity.toNat ∧
      (getOutputMode mode.primitiveMode mode.polygonMode = some .lines →
        2 ∣ res.indices.length) ∧
      (getOutputMode mode.primitiveMode mode.polygonMode = some .triangles →
        3 ∣ res.indices.length)
  | none => False

theorem fitsBuffer_empty (mode : PrimAssemblyState) (bound : Nat) (buf : PrimRewriteBuf) :
    FitsBuffer mode bound (some (buf, ⟨[]⟩)) :=
  ⟨Nat.zero_le _, Nat.zero_le _, fun _ => dvd_zero _, fun _ => dvd_zero _⟩

/-- A rewrite of `count` indices into a buffer sized by the bound `total`
    fits. -/
theorem fitsBuffer_of_count (mode : PrimAssemblyState) (buf : PrimRewriteBuf) (total : UInt32)
    (out : List UInt32) (bound : Nat) (hout : out.length ≤ bound)
    (hbound : bound ≤ total.toNat)
    (hdvd : (getOutputMode mode.primitiveMode mode.polygonMode = some .lines → 2 ∣ out.length) ∧
      (getOutputMode mode.primitiveMode mode.polygonMode = some .triangles → 3 ∣ out.length)) :
    FitsBuffer mode bound (some (ensureCapacity buf total, ⟨out⟩)) :=
  ⟨hout, le_trans hout (le_trans hbound (ensureCapacity_ge buf total)), hdvd.1, hdvd.2⟩

/-- `pgraph_prim_rewrite_indexed` writes at most `max_output_indices`
    indices, into a buffer of at least that capacity, in whole lines or
    triangles, for fewer than `2 ^ 30` input indices. -/
theorem pgraphPrimRewriteIndexed_fits (buf : PrimRewriteBuf) (mode : PrimAssemblyState)
    (input : List UInt32) (n : UInt32) (hmode : mode.Supported) (hn : 4 * n.toNat < 2 ^ 32) :
    FitsBuffer mode (maxOutputIndices mode.primitiveMode mode.polygonMode n).toNat
      (pgraphPrimRewriteIndexed buf mode input n) := by
  unfold pgraphPrimRewriteIndexed
  rw [if_neg (not_not.mpr hmode)]
  cases hneed : needsRewrite mode
  · exact fitsBuffer_empty _ _ _
  · simp only [Bool.not_true, Bool.false_eq_true, if_false]
    split_ifs with hzero
    · exact fitsBuffer_empty _ _ _
    · obtain ⟨out, hout, hlen⟩ := rewriteIndices_length [] (some input) 0 n mode (by omega)
      rw [hout, Option.map_some]
      rw [List.length_nil, Nat.zero_add] at hlen
      refine fitsBuffer_of_count mode buf _ out _ ?_ le_rfl ?_
      · rw [hlen]
        exact rewrittenCount_le mode n hn
      · rw [hlen]
        exact rewrittenCount_dvd mode _

/-- The loop over the ranges: each non-empty range is rewritten after the
    ones before it. -/
theorem rangesLoop_length (mode : PrimAssemblyState) (ranges : List (Int32 × Int32))
    (r : List UInt32) (hfit : ∀ range ∈ ranges, range.2.toUInt32.toNat + 7 ≤ 2 ^ 32) :
    ∃ r', ranges.foldlM (fun out range =>
        if range.2 = 0 then some out
        else rewriteIndices out mode none range.1.toUInt32 range.2.toUInt32) r = some r' ∧
      r'.length = r.length +
        (ranges.map fun range => rewrittenCount mode range.2.toUInt32.toNat).sum := by
  induction ranges generalizing r with
  | nil => exact ⟨r, rfl, by simp⟩
  | cons range ranges ih =>
    have hrest : ∀ range' ∈ ranges, range'.2.toUInt32.toNat + 7 ≤ 2 ^ 32 :=
      fun range' h => hfit range' (List.mem_cons_of_mem _ h)
    simp only [List.foldlM_cons, List.map_cons, List.sum_cons]
    by_cases hzero : range.2 = 0
    · -- `counts[r] == 0`: skipped, and it would have written nothing
      obtain ⟨r', h, hlen⟩ := ih r hrest
      refine ⟨r', by rw [if_pos hzero]; exact h, ?_⟩
      have hcount : range.2.toUInt32.toNat = 0 := by rw [hzero]; rfl
      rw [hlen, hcount, rewrittenCount_zero, Nat.zero_add]
    · obtain ⟨r1, h1, hl1⟩ := rewriteIndices_length r none range.1.toUInt32 range.2.toUInt32 mode
        (hfit range List.mem_cons_self)
      obtain ⟨r', h, hlen⟩ := ih r1 hrest
      refine ⟨r', by rw [if_neg hzero, h1]; exact h, ?_⟩
      rw [hlen, hl1, Nat.add_assoc]

/-- `pgraph_prim_rewrite_ranges` writes at most the sum of the ranges'
    `max_output_indices`, into a buffer of at least that capacity, in whole
    lines or triangles, for ranges of fewer than `2 ^ 30` indices in all. -/
theorem pgraphPrimRewriteRanges_fits (buf : PrimRewriteBuf) (mode : PrimAssemblyState)
    (ranges : List (Int32 × Int32)) (hmode : mode.Supported)
    (hn : 4 * (ranges.map fun range => range.2.toUInt32.toNat).sum < 2 ^ 32) :
    FitsBuffer mode (ranges.map fun range =>
        (maxOutputIndices mode.primitiveMode mode.polygonMode range.2.toUInt32).toNat).sum
      (pgraphPrimRewriteRanges buf mode ranges) := by
  -- each range is below the total
  have hone : ∀ range ∈ ranges, 4 * range.2.toUInt32.toNat < 2 ^ 32 := fun range h =>
    lt_of_le_of_lt (Nat.mul_le_mul_left 4
      (List.le_sum_of_mem (List.mem_map_of_mem (f := fun range => range.2.toUInt32.toNat) h))) hn
  have hmax : (ranges.map fun range =>
      (maxOutputIndices mode.primitiveMode mode.polygonMode range.2.toUInt32).toNat).sum < 2 ^ 32 := by
    have hle : (ranges.map fun range =>
        (maxOutputIndices mode.primitiveMode mode.polygonMode range.2.toUInt32).toNat).sum ≤
        (ranges.map fun range => 4 * range.2.toUInt32.toNat).sum :=
      List.sum_le_sum (fun range h => by
        rw [maxOutputIndices_toNat _ _ _ (hone range h)]
        exact maxOutputNat_le mode.primitiveMode mode.polygonMode range.2.toUInt32.toNat)
    rw [List.sum_map_mul_left] at hle
    omega
  unfold pgraphPrimRewriteRanges
  rw [if_neg (not_not.mpr hmode)]
  cases hneed : needsRewrite mode
  · exact fitsBuffer_empty _ _ _
  · simp only [Bool.not_true, Bool.false_eq_true, if_false]
    have htotal := toNat_foldl_add
      (fun range => maxOutputIndices mode.primitiveMode mode.polygonMode range.2.toUInt32)
      ranges 0 (by simpa using hmax)
    split_ifs with hzero
    · exact fitsBuffer_empty _ _ _
    · obtain ⟨out, hout, hlen⟩ := rangesLoop_length mode ranges [] (fun range h => by
        have := hone range h; omega)
      rw [hout, Option.map_some]
      rw [List.length_nil, Nat.zero_add] at hlen
      refine fitsBuffer_of_count mode buf _ out _ ?_ (by rw [htotal]; simp) ?_
      · rw [hlen]
        exact List.sum_le_sum (fun range h => rewrittenCount_le mode _ (hone range h))
      · rw [hlen]
        exact ⟨fun h => List.dvd_sum (fun x hx => by
            obtain ⟨range, -, rfl⟩ := List.mem_map.mp hx
            exact (rewrittenCount_dvd mode _).1 h),
          fun h => List.dvd_sum (fun x hx => by
            obtain ⟨range, -, rfl⟩ := List.mem_map.mp hx
            exact (rewrittenCount_dvd mode _).2 h)⟩

/-- Both entry points write at most what `max_output_indices` promised
    (summed over the ranges), into a buffer that `ensure_capacity` made at
    least that large, in whole lines or triangles, as long as the input
    counts stay below `2 ^ 30`. -/
theorem prim_rewrite_within_capacity (buf : PrimRewriteBuf) (mode : PrimAssemblyState)
    (hmode : mode.Supported) (input : List UInt32) (n : UInt32) (hn : 4 * n.toNat < 2 ^ 32)
    (ranges : List (Int32 × Int32))
    (hranges : 4 * (ranges.map fun range => range.2.toUInt32.toNat).sum < 2 ^ 32) :
    FitsBuffer mode (maxOutputIndices mode.primitiveMode mode.polygonMode n).toNat
        (pgraphPrimRewriteIndexed buf mode input n) ∧
      FitsBuffer mode (ranges.map fun range =>
          (maxOutputIndices mode.primitiveMode mode.polygonMode range.2.toUInt32).toNat).sum
        (pgraphPrimRewriteRanges buf mode ranges) :=
  ⟨pgraphPrimRewriteIndexed_fits buf mode input n hmode hn,
    pgraphPrimRewriteRanges_fits buf mode ranges hmode hranges⟩

/-- The `unsigned int` sum of the capacities, wrapping or not. -/
theorem foldl_add_eq_sum {α : Type _} (f : α → UInt32) (l : List α) (init : UInt32) :
    l.foldl (fun total x => total + f x) init = init + (l.map f).sum := by
  induction l generalizing init with
  | nil => simp
  | cons x l ih => rw [List.foldl_cons, ih, List.map_cons, List.sum_cons, add_assoc]

/-- Sixty-five ranges of `2 ^ 24` indices each, drawn as wireframe quad
    strips.  `DRAW_ARRAYS` builds them: 65536 contiguous draws of 256
    indices from start 0 extend one range to `2 ^ 24`, and the next draw
    from start 0 opens another.  Each range's `max_output_indices` is
    `2 ^ 26 - 8`; the `unsigned int` sum, `2 ^ 32 + 2 ^ 26 - 520`, wraps to
    `2 ^ 26 - 520`, which `ensure_capacity` reserves, while the loops write
    `2 ^ 32 + 2 ^ 26 - 520` indices. -/
theorem quadStripRanges_capacity_wraps :
    ∃ buf res, pgraphPrimRewriteRanges ⟨0⟩ ⟨.quadStrip, .line, false, false⟩
        (List.replicate 65 (0, 0x1000000)) = some (buf, res) ∧
      buf.capacity.toNat = 0x3FFFDF8 ∧ res.indices.length = 0x103FFFDF8 := by
  have htotal : (List.replicate 65 ((0 : Int32), (0x1000000 : Int32))).foldl (fun total range =>
      total + maxOutputIndices .quadStrip .line range.2.toUInt32) 0 = 0x3FFFDF8 := by
    rw [foldl_add_eq_sum, List.map_replicate, List.sum_replicate, zero_add]
    decide
  obtain ⟨out, hout, hlen⟩ := rangesLoop_length ⟨.quadStrip, .line, false, false⟩
    (List.replicate 65 (0, 0x1000000)) [] (fun range h => by
      rw [List.eq_of_mem_replicate h]
      decide)
  -- every range writes its `2 ^ 26 - 8` indices
  have hcount : out.length = 0x103FFFDF8 := by
    rw [hlen, List.map_replicate, List.sum_replicate]
    decide
  refine ⟨ensureCapacity ⟨0⟩ 0x3FFFDF8, ⟨out⟩, ?_, by decide, hcount⟩
  unfold pgraphPrimRewriteRanges
  simp only [htotal, hout]
  rw [if_neg (by decide), if_neg (by decide), if_neg (by decide)]
  rfl

/-- For `2 ^ 31 + 1` indices of a line loop, `max_output_indices`
    computes `(2 ^ 31 + 1) * 2`, which wraps to `2` in 32 bits, while the
    loop writes `2 ^ 32 + 2` indices. -/
theorem lineLoop_capacity_wraps :
    ¬ FitsBuffer ⟨.lineLoop, .fill, false, false⟩ (maxOutputIndices .lineLoop .fill 0x80000001).toNat
      (pgraphPrimRewriteIndexed ⟨0⟩ ⟨.lineLoop, .fill, false, false⟩
        (List.replicate 0x80000001 0) 0x80000001) := by
  have hmax : maxOutputIndices .lineLoop .fill 0x80000001 = 2 := by decide
  obtain ⟨out, hout, hlen⟩ := rewriteIndices_length [] (some (List.replicate 0x80000001 0)) 0
    0x80000001 ⟨.lineLoop, .fill, false, false⟩ (by decide)
  have hcount : out.length = 0x100000002 := by
    rw [hlen]
    decide
  unfold pgraphPrimRewriteIndexed
  simp only [hmax, hout]
  rintro ⟨hle, -⟩
  rw [hcount] at hle
  exact absurd hle (by decide)

/-- Wireframe quads ignore flat shading: the quad `0, 1, 2, 3`, whose
    provoking vertex is its last, `3`, is outlined as the edges `(0, 1)`,
    `(1, 2)`, `(2, 3)` and `(3, 0)`, so three of its four edges start
    with a vertex other than `3` and take their flat colour from it. -/
theorem quadsLine_flat_edges :
    rewriteIndices [] ⟨.quads, .line, true, true⟩ (some [0, 1, 2, 3]) 0 4 =
      some [0, 1, 1, 2, 2, 3, 3, 0] := by
  decide

end Xemu.Nv2a
