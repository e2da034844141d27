import Mathlib
import Xemu.Nv2a.BatchBounds

/-! # The values of immediate-mode vertices

    Model of the values the immediate attribute methods of
    `hw/xbox/nv2a/pgraph/pgraph.c` store (`SET_VERTEX3F` to
    `SET_VERTEX_DATA4S_M`), of `pgraph_allocate_inline_buffer_vertices` and
    `pgraph_finish_inline_buffer_vertex` in `pgraph/vertex.c`, and of the
    inline-buffer path of `pgraph_gl_flush_draw` in `pgraph/gl/draw.c`.
    `Nv2a/BatchBounds` models where these methods store; this module models
    what they store.

    Each attribute has a current value `inline_value` and, once populated, a
    buffer with one row per vertex.  Attributes are captured lazily: the
    first write to an attribute after `k` vertices fills rows `0 .. k - 1`
    with its old value, and from then on each vertex copies it.  The float
    conversions of the handlers are parameters (`FloatConv`): the results
    are about where values go, not how they are computed.

    The results:
    * the draw feeds attribute `a` for vertex `i` the value `a` had when
      vertex `i` was completed, for every sequence of attribute methods from
      the start of a block and whatever populated flags an earlier block
      left (`inlineRunSnaps_drawn`);
    * the draw then sets a populated attribute's `inline_value` to its last
      row, so a value written after the last vertex is lost
      (`flush_draw_loses_write_after_last_vertex`).
-/

namespace Xemu.Nv2a.Inline

open Function Xemu.Nv2a.Batch

/-! ## Section 1: Attributes and their buffers -/

/-- The attribute table and the four components of a value are not empty.
    The indices written as literals below take these instances, and the
    indices computed from a method's slot take the bounds after them, so
    that no definition carries a proof term of its own. -/
theorem neZero_attributes : NeZero nv2aVertexshaderAttributes := ⟨by decide⟩

theorem neZero_components : NeZero 4 := ⟨by decide⟩

attribute [local instance] neZero_attributes neZero_components

theorem slot_div_two_lt (slot : Fin 32) : slot.val / 2 < nv2aVertexshaderAttributes := by
  unfold nv2aVertexshaderAttributes
  omega

theorem slot_div_four_lt (slot : Fin 64) : slot.val / 4 < nv2aVertexshaderAttributes := by
  unfold nv2aVertexshaderAttributes
  omega

theorem slot_mod_two_lt (slot : Fin 32) : slot.val % 2 < 2 := Nat.mod_lt _ (by decide)

theorem slot_mod_four_lt (slot : Fin 64) : slot.val % 4 < 4 := Nat.mod_lt _ (by decide)

/-- `NV2A_VERTEX_ATTR_WEIGHT` -/
abbrev nv2aVertexAttrWeight : Fin nv2aVertexshaderAttributes := 1
/-- `NV2A_VERTEX_ATTR_NORMAL` -/
abbrev nv2aVertexAttrNormal : Fin nv2aVertexshaderAttributes := 2
/-- `NV2A_VERTEX_ATTR_DIFFUSE` -/
abbrev nv2aVertexAttrDiffuse : Fin nv2aVertexshaderAttributes := 3
/-- `NV2A_VERTEX_ATTR_SPECULAR` -/
abbrev nv2aVertexAttrSpecular : Fin nv2aVertexshaderAttributes := 4
/-- `NV2A_VERTEX_ATTR_FOG` -/
abbrev nv2aVertexAttrFog : Fin nv2aVertexshaderAttributes := 5

/-- `NV2A_VERTEX_ATTR_TEXTURE0` to `TEXTURE3` -/
def nv2aVertexAttrTexture (n : Fin 4) : Fin nv2aVertexshaderAttributes :=
  ⟨9 + n.val, by unfold nv2aVertexshaderAttributes; omega⟩

/-- The float conversions the handlers make; `F` is the type of a `float`. -/
structure FloatConv (F : Type) where
  /-- `*(float*)&parameter` -/
  ofBits : UInt32 → F
  /-- `(float)(int16_t)x` -/
  ofInt16 : Int16 → F
  /-- `MAX(-1.0f, (float)val / 32767.0f)` -/
  ofSnorm16 : Int16 → F
  /-- `x / 255.0f` -/
  ofUnorm8 : UInt8 → F
  /-- `x / 255.0`, in `double` and then stored as a `float` -/
  ofUnorm8Double : UInt8 → F
  /-- `0.0f` -/
  zero : F
  /-- `1.0f` -/
  one : F

/-- The inline data of one `VertexAttribute`. -/
structure InlineAttr (F : Type) where
  /-- `inline_value` -/
  inlineValue : Fin 4 → F
  /-- `inline_buffer`, by row: row `k` is floats `4 k` to `4 k + 3` -/
  inlineBuffer : Nat → Fin 4 → F
  /-- `inline_buffer_populated` -/
  inlineBufferPopulated : Bool

/-- The part of `PGRAPHState` the immediate attribute methods use. -/
structure InlineState (F : Type) where
  /-- `inline_buffer_length` -/
  inlineBufferLength : Nat
  /-- `vertex_attributes` -/
  attrs : Fin nv2aVertexshaderAttributes → InlineAttr F

variable {F : Type}

/-- The state `pgraph_init` leaves: every value and row zero, no buffer
    populated. -/
def inlineInit (zero : F) : InlineState F :=
  ⟨0, fun _ => ⟨fun _ => zero, fun _ _ => zero, false⟩⟩

/-- `pgraph_allocate_inline_buffer_vertices`: the first write to an
    attribute after some vertices fills their rows with its previous
    value. -/
def pgraphAllocateInlineBufferVertices (s : InlineState F) (attr : Fin nv2aVertexshaderAttributes) :
    InlineState F :=
  let attrib := s.attrs attr
  if attrib.inlineBufferPopulated || s.inlineBufferLength == 0 then s
  else
    let rows := fun i => if i < s.inlineBufferLength then attrib.inlineValue
      else attrib.inlineBuffer i
    { s with
      attrs := update s.attrs attr
        { attrib with inlineBufferPopulated := true, inlineBuffer := rows } }

/-- `pgraph_finish_inline_buffer_vertex`: the current values of the
    populated attributes become the next row.  The check that a block is
    open only prints; the length is asserted below `NV2A_MAX_BATCH_LENGTH`. -/
def pgraphFinishInlineBufferVertex (s : InlineState F) : Option (InlineState F) :=
  if s.inlineBufferLength < nv2aMaxBatchLength.toNat then
    let copy := fun (attrib : InlineAttr F) =>
      if attrib.inlineBufferPopulated then
        { attrib with
          inlineBuffer := update attrib.inlineBuffer s.inlineBufferLength attrib.inlineValue }
      else attrib
    some ⟨s.inlineBufferLength + 1, fun i => copy (s.attrs i)⟩
  else none

/-- The body every immediate attribute method shares: allocate the
    attribute's buffer, write its `inline_value`, and finish a vertex when
    the method completes attribute 0. -/
def setInlineValue (s : InlineState F) (attr : Fin nv2aVertexshaderAttributes)
    (write : (Fin 4 → F) → Fin 4 → F) (finishes : Bool) : Option (InlineState F) :=
  let s := pgraphAllocateInlineBufferVertices s attr
  let attrib := s.attrs attr
  let s := { s with attrs := update s.attrs attr { attrib with inlineValue := write attrib.inlineValue } }
  if finishes then pgraphFinishInlineBufferVertex s else some s

/-! ## Section 2: The methods -/

/-- `inline_value[slot] = x` -/
def writeSlot (x : F) (slot : Fin 4) (v : Fin 4 → F) : Fin 4 → F := update v slot x

/-- `inline_value[slot] = x; inline_value[3] = 1.0f` -/
def writeSlotW (conv : FloatConv F) (x : F) (slot : Fin 4) (v : Fin 4 → F) : Fin 4 → F :=
  update (update v slot x) 3 conv.one

/-- `inline_value[slot] = x; inline_value[2] = 0.0f; inline_value[3] = 1.0f` -/
def writeSlotZW (conv : FloatConv F) (x : F) (slot : Fin 4) (v : Fin 4 → F) : Fin 4 → F :=
  update (update (update v slot x) 2 conv.zero) 3 conv.one

/-- `inline_value[part * 2 + 0] = a; inline_value[part * 2 + 1] = b` -/
def writePair (a b : F) (part : Fin 2) (v : Fin 4 → F) : Fin 4 → F :=
  update (update v ⟨part.val * 2, by omega⟩ a) ⟨part.val * 2 + 1, by omega⟩ b

/-- All four components. -/
def writeAll (x y z w : F) (_ : Fin 4 → F) : Fin 4 → F := ![x, y, z, w]

/-- The low and high halves of a word as `int16_t`. -/
def lowInt16 (parameter : UInt32) : Int16 := (parameter &&& 0xFFFF).toUInt16.toInt16
def highInt16 (parameter : UInt32) : Int16 := (parameter >>> 16).toUInt16.toInt16

/-- Byte `k` of a word: `(parameter >> 8 k) & 0xFF`. -/
def byteOf (parameter : UInt32) (k : Nat) : UInt8 := ((parameter >>> (8 * k).toUInt32) &&& 0xFF).toUInt8

/-- The immediate attribute methods, each with the word of the method that
    is written (`slot`) where it has several. -/
inductive InlineCall
  /-- `SET_VERTEX3F` -/
  | vertex3f (slot : Fin 3) (parameter : UInt32)
  /-- `SET_VERTEX4F` -/
  | vertex4f (slot : Fin 4) (parameter : UInt32)
  /-- `SET_FOG_COORD` -/
  | fogCoord (parameter : UInt32)
  /-- `SET_WEIGHT1F` -/
  | weight1f (parameter : UInt32)
  /-- `SET_WEIGHT2F` -/
  | weight2f (slot : Fin 2) (parameter : UInt32)
  /-- `SET_WEIGHT3F` -/
  | weight3f (slot : Fin 3) (parameter : UInt32)
  /-- `SET_WEIGHT4F` -/
  | weight4f (slot : Fin 4) (parameter : UInt32)
  /-- `SET_NORMAL3S` -/
  | normal3s (slot : Fin 2) (parameter : UInt32)
  /-- `SET_NORMAL3F` -/
  | normal3f (slot : Fin 3) (parameter : UInt32)
  /-- `SET_DIFFUSE_COLOR3F` -/
  | diffuseColor3f (slot : Fin 3) (parameter : UInt32)
  /-- `SET_SPECULAR_COLOR3F` -/
  | specularColor3f (slot : Fin 3) (parameter : UInt32)
  /-- `SET_DIFFUSE_COLOR4F` -/
  | diffuseColor4f (slot : Fin 4) (parameter : UInt32)
  /-- `SET_SPECULAR_COLOR4F` -/
  | specularColor4f (slot : Fin 4) (parameter : UInt32)
  /-- `SET_DIFFUSE_COLOR4UB` -/
  | diffuseColor4ub (parameter : UInt32)
  /-- `SET_SPECULAR_COLOR4UB` -/
  | specularColor4ub (parameter : UInt32)
  /-- `SET_TEXCOORDn_2S` -/
  | texcoord2s (n : Fin 4) (parameter : UInt32)
  /-- `SET_TEXCOORDn_4S` -/
  | texcoord4s (n : Fin 4) (slot : Fin 2) (parameter : UInt32)
  /-- `SET_TEXCOORDn_2F` -/
  | texcoord2f (n : Fin 4) (slot : Fin 2) (parameter : UInt32)
  /-- `SET_TEXCOORDn_4F` -/
  | texcoord4f (n : Fin 4) (slot : Fin 4) (parameter : UInt32)
  /-- `SET_VERTEX_DATA2F_M` -/
  | vertexData2fM (slot : Fin 32) (parameter : UInt32)
  /-- `SET_VERTEX_DATA4F_M` -/
  | vertexData4fM (slot : Fin 64) (parameter : UInt32)
  /-- `SET_VERTEX_DATA2S` -/
  | vertexData2s (slot : Fin 16) (parameter : UInt32)
  /-- `SET_VERTEX_DATA4UB` -/
  | vertexData4ub (slot : Fin 16) (parameter : UInt32)
  /-- `SET_VERTEX_DATA4S_M` -/
  | vertexData4sM (slot : Fin 32) (parameter : UInt32)
  deriving DecidableEq, Repr

/-- `SET_VERTEX_DATA2F_M`: attribute `slot / 2`, component `slot % 2`; word
    1 of attribute 0 completes a vertex. -/
def setVertexData2fM (conv : FloatConv F) (s : InlineState F) (slot : Fin 32) (parameter : UInt32) :
    Option (InlineState F) :=
  setInlineValue s ⟨slot.val / 2, slot_div_two_lt slot⟩
    (writeSlotZW conv (conv.ofBits parameter) (Fin.castAdd 2 ⟨slot.val % 2, slot_mod_two_lt slot⟩))
    (slot.val / 2 == 0 && slot.val % 2 == 1)

/-- `SET_VERTEX_DATA4F_M`: attribute `slot / 4`, component `slot % 4`; word
    3 of attribute 0 completes a vertex. -/
def setVertexData4fM (conv : FloatConv F) (s : InlineState F) (slot : Fin 64) (parameter : UInt32) :
    Option (InlineState F) :=
  setInlineValue s ⟨slot.val / 4, slot_div_four_lt slot⟩
    (writeSlot (conv.ofBits parameter) ⟨slot.val % 4, slot_mod_four_lt slot⟩)
    (slot.val / 4 == 0 && slot.val % 4 == 3)

/-- `SET_VERTEX_DATA2S`: two `int16_t`, then `0` and `1`. -/
def setVertexData2s (conv : FloatConv F) (s : InlineState F) (slot : Fin 16) (parameter : UInt32) :
    Option (InlineState F) :=
  setInlineValue s slot
    (writeAll (conv.ofInt16 (lowInt16 parameter)) (conv.ofInt16 (highInt16 parameter)) conv.zero
      conv.one)
    (slot.val == 0)

/-- `SET_VERTEX_DATA4UB`: four bytes over `255.0`. -/
def setVertexData4ub (conv : FloatConv F) (s : InlineState F) (slot : Fin 16) (parameter : UInt32) :
    Option (InlineState F) :=
  setInlineValue s slot
    (writeAll (conv.ofUnorm8Double (byteOf parameter 0)) (conv.ofUnorm8Double (byteOf parameter 1))
      (conv.ofUnorm8Double (byteOf parameter 2)) (conv.ofUnorm8Double (byteOf parameter 3)))
    (slot.val == 0)

/-- `SET_VERTEX_DATA4S_M`: attribute `slot / 2`, two `int16_t` into pair
    `slot % 2`; word 1 of attribute 0 completes a vertex. -/
def setVertexData4sM (conv : FloatConv F) (s : InlineState F) (slot : Fin 32) (parameter : UInt32) :
    Option (InlineState F) :=
  setInlineValue s ⟨slot.val / 2, slot_div_two_lt slot⟩
    (writePair (conv.ofInt16 (lowInt16 parameter)) (conv.ofInt16 (highInt16 parameter))
      ⟨slot.val % 2, slot_mod_two_lt slot⟩)
    (slot.val / 2 == 0 && slot.val % 2 == 1)

/-- One immediate attribute method. -/
def inlineStep (conv : FloatConv F) (s : InlineState F) : InlineCall → Option (InlineState F)
  | .vertex3f slot p =>
    setInlineValue s nv2aVertexAttrPosition (writeSlotW conv (conv.ofBits p) slot.castSucc)
      (slot.val == 2)
  | .vertex4f slot p =>
    setInlineValue s nv2aVertexAttrPosition (writeSlot (conv.ofBits p) slot) (slot.val == 3)
  | .fogCoord p =>
    let x := conv.ofBits p
    setInlineValue s nv2aVertexAttrFog (writeAll x x x x) false
  | .weight1f p =>
    setInlineValue s nv2aVertexAttrWeight (writeAll (conv.ofBits p) conv.zero conv.zero conv.one)
      false
  | .weight2f slot p =>
    setInlineValue s nv2aVertexAttrWeight
      (writeSlotZW conv (conv.ofBits p) ⟨slot.val, by omega⟩) false
  | .weight3f slot p =>
    setInlineValue s nv2aVertexAttrWeight (writeSlotW conv (conv.ofBits p) slot.castSucc) false
  | .weight4f slot p => setInlineValue s nv2aVertexAttrWeight (writeSlot (conv.ofBits p) slot) false
  | .normal3s slot p =>
    setInlineValue s nv2aVertexAttrNormal
      (writePair (conv.ofSnorm16 (lowInt16 p)) (conv.ofSnorm16 (highInt16 p)) slot) false
  | .normal3f slot p =>
    setInlineValue s nv2aVertexAttrNormal (writeSlot (conv.ofBits p) slot.castSucc) false
  | .diffuseColor3f slot p =>
    setInlineValue s nv2aVertexAttrDiffuse (writeSlotW conv (conv.ofBits p) slot.castSucc) false
  | .specularColor3f slot p =>
    setInlineValue s nv2aVertexAttrSpecular (writeSlotW conv (conv.ofBits p) slot.castSucc) false
  | .diffuseColor4f slot p =>
    setInlineValue s nv2aVertexAttrDiffuse (writeSlot (conv.ofBits p) slot) false
  | .specularColor4f slot p =>
    setInlineValue s nv2aVertexAttrSpecular (writeSlot (conv.ofBits p) slot) false
  | .diffuseColor4ub p =>
    setInlineValue s nv2aVertexAttrDiffuse
      (writeAll (conv.ofUnorm8 (byteOf p 0)) (conv.ofUnorm8 (byteOf p 1))
        (conv.ofUnorm8 (byteOf p 2)) (conv.ofUnorm8 (byteOf p 3))) false
  | .specularColor4ub p =>
    setInlineValue s nv2aVertexAttrSpecular
      (writeAll (conv.ofUnorm8 (byteOf p 0)) (conv.ofUnorm8 (byteOf p 1))
        (conv.ofUnorm8 (byteOf p 2)) (conv.ofUnorm8 (byteOf p 3))) false
  | .texcoord2s n p =>
    setInlineValue s (nv2aVertexAttrTexture n)
      (writeAll (conv.ofInt16 (lowInt16 p)) (conv.ofInt16 (highInt16 p)) conv.zero conv.one) false
  | .texcoord4s n slot p =>
    setInlineValue s (nv2aVertexAttrTexture n)
      (writePair (conv.ofInt16 (lowInt16 p)) (conv.ofInt16 (highInt16 p)) slot) false
  | .texcoord2f n slot p =>
    setInlineValue s (nv2aVertexAttrTexture n)
      (writeSlotZW conv (conv.ofBits p) ⟨slot.val, by omega⟩) false
  | .texcoord4f n slot p =>
    setInlineValue s (nv2aVertexAttrTexture n) (writeSlot (conv.ofBits p) slot) false
  | .vertexData2fM slot p => setVertexData2fM conv s slot p
  | .vertexData4fM slot p => setVertexData4fM conv s slot p
  | .vertexData2s slot p => setVertexData2s conv s slot p
  | .vertexData4ub slot p => setVertexData4ub conv s slot p
  | .vertexData4sM slot p => setVertexData4sM conv s slot p

/-- A run of attribute methods; a failed assert ends it. -/
def inlineRun (conv : FloatConv F) (s : InlineState F) : List InlineCall → Option (InlineState F)
  | [] => some s
  | c :: cs =>
    match inlineStep conv s c with
    | none => none
    | some s => inlineRun conv s cs

/-! ## Section 3: The draw -/

/-- What the inline-buffer draw of `pgraph_gl_flush_draw` feeds attribute
    `i` for vertex `k`: row `k` of a populated buffer (`glBufferData`), and
    otherwise the constant `inline_value` (`glVertexAttrib4fv`). -/
def drawnValue (s : InlineState F) (i : Fin nv2aVertexshaderAttributes) (k : Nat) : Fin 4 → F :=
  let attrib := s.attrs i
  if attrib.inlineBufferPopulated then attrib.inlineBuffer k else attrib.inlineValue

/-- The attributes as the inline-buffer draw of `pgraph_gl_flush_draw`
    leaves them: a populated buffer is released, and its attribute's
    `inline_value` becomes its last row. -/
def pgraphGlFlushDrawInline (s : InlineState F) : InlineState F :=
  let release := fun (attrib : InlineAttr F) =>
    if attrib.inlineBufferPopulated then
      { attrib with
        inlineBufferPopulated := false
        inlineValue := attrib.inlineBuffer (s.inlineBufferLength - 1) }
    else attrib
  { s with attrs := fun i => release (s.attrs i) }

/-! ## Section 4: Each vertex keeps the values of its completion

    The code keeps no record of the values at each vertex; the ghost list
    `inlineRunSnaps` keeps one beside the run, and `SnapInv` says that the
    rows hold it.  Each of the three steps of an attribute method
    (allocate, write, finish) is checked against it once. -/

/-- The values of every attribute at one moment. -/
abbrev Snapshot (F : Type) := Fin nv2aVertexshaderAttributes → Fin 4 → F

/-- The run with a ghost record beside it: after each method that completes
    a vertex, the values of every attribute at that moment. -/
def inlineRunSnaps (conv : FloatConv F) (s : InlineState F) (snaps : List (Snapshot F)) :
    List InlineCall → Option (InlineState F × List (Snapshot F))
  | [] => some (s, snaps)
  | c :: cs =>
    match inlineStep conv s c with
    | none => none
    | some s' =>
      let snaps := if s'.inlineBufferLength = s.inlineBufferLength + 1 then
        snaps ++ [fun i => (s'.attrs i).inlineValue] else snaps
      inlineRunSnaps conv s' snaps cs

/-- The ghost record changes nothing of the run. -/
theorem inlineRunSnaps_fst (conv : FloatConv F) (cs : List InlineCall) :
    ∀ (s : InlineState F) (snaps : List (Snapshot F)),
      (inlineRunSnaps conv s snaps cs).map Prod.fst = inlineRun conv s cs := by
  induction cs with
  | nil => intro s snaps; rfl
  | cons c cs ih =>
    intro s snaps
    simp only [inlineRunSnaps, inlineRun]
    split <;> simp [ih]

/-- Every method is the shared body with its own attribute, write and
    completion flag. -/
theorem inlineStep_eq (conv : FloatConv F) (s : InlineState F) (c : InlineCall) :
    ∃ attr write finishes, inlineStep conv s c = setInlineValue s attr write finishes := by
  cases c <;>
    simp only [inlineStep, setVertexData2fM, setVertexData4fM, setVertexData2s, setVertexData4ub,
      setVertexData4sM] <;>
    exact ⟨_, _, _, rfl⟩

/-- The rows so far hold the snapshots: for every completed vertex `k` and
    every attribute, the draw would feed the snapshot of `k`. -/
structure SnapInv (s : InlineState F) (snaps : List (Snapshot F)) : Prop where
  length_eq : snaps.length = s.inlineBufferLength
  drawn_eq : ∀ i k (hk : k < snaps.length), drawnValue s i k = snaps[k] i

theorem allocate_length (s : InlineState F) (attr : Fin nv2aVertexshaderAttributes) :
    (pgraphAllocateInlineBufferVertices s attr).inlineBufferLength = s.inlineBufferLength := by
  unfold pgraphAllocateInlineBufferVertices
  dsimp only
  split_ifs <;> rfl

/-- After allocation the attribute is populated, unless no vertex is done. -/
theorem allocate_populated (s : InlineState F) (attr : Fin nv2aVertexshaderAttributes) :
    ((pgraphAllocateInlineBufferVertices s attr).attrs attr).inlineBufferPopulated = true ∨
      s.inlineBufferLength = 0 := by
  unfold pgraphAllocateInlineBufferVertices
  dsimp only
  split_ifs with h
  · simp only [Bool.or_eq_true, beq_iff_eq] at h
    exact h
  · simp

/-- Allocation fills the rows of finished vertices with the value the draw
    would have fed: it feeds the same. -/
theorem drawnValue_allocate (s : InlineState F) (attr i : Fin nv2aVertexshaderAttributes) {k : Nat}
    (hk : k < s.inlineBufferLength) :
    drawnValue (pgraphAllocateInlineBufferVertices s attr) i k = drawnValue s i k := by
  unfold pgraphAllocateInlineBufferVertices
  dsimp only
  split_ifs with h
  · rfl
  · simp only [Bool.or_eq_true, beq_iff_eq, not_or, Bool.not_eq_true] at h
    by_cases hi : i = attr
    · subst hi
      simp [drawnValue, h.1, hk]
    · simp [drawnValue, hi]

/-- Writing the value of a populated attribute changes no row. -/
theorem drawnValue_write (s : InlineState F) (attr i : Fin nv2aVertexshaderAttributes)
    (v : Fin 4 → F) (hp : (s.attrs attr).inlineBufferPopulated = true) (k : Nat) :
    drawnValue { s with attrs := update s.attrs attr { s.attrs attr with inlineValue := v } } i k =
      drawnValue s i k := by
  by_cases hi : i = attr
  · subst hi
    simp [drawnValue, hp]
  · simp [drawnValue, hi]

/-- Finishing a vertex adds one row: the current values. -/
theorem finish_spec {s s' : InlineState F} (h : pgraphFinishInlineBufferVertex s = some s') :
    s'.inlineBufferLength = s.inlineBufferLength + 1 ∧
      (∀ i, (s'.attrs i).inlineValue = (s.attrs i).inlineValue) ∧
      ∀ i k, drawnValue s' i k =
        if k = s.inlineBufferLength then (s.attrs i).inlineValue else drawnValue s i k := by
  unfold pgraphFinishInlineBufferVertex at h
  split_ifs at h
  cases h
  refine ⟨rfl, fun i => ?_, fun i k => ?_⟩
  · dsimp only
    split_ifs <;> rfl
  · unfold drawnValue
    dsimp only
    by_cases hp : (s.attrs i).inlineBufferPopulated = true
    · by_cases hk : k = s.inlineBufferLength
      · subst hk
        simp [hp]
      · simp [hp, hk]
    · simp only [hp, Bool.false_eq_true, ↓reduceIte]
      split_ifs <;> rfl

/-- One attribute method keeps the invariant, the ghost record growing by
    the values of the vertex it completes, if any. -/
theorem SnapInv.step {s s' : InlineState F} {snaps : List (Snapshot F)}
    (h : SnapInv s snaps) {attr : Fin nv2aVertexshaderAttributes} {write : (Fin 4 → F) → Fin 4 → F}
    {finishes : Bool} (hs : setInlineValue s attr write finishes = some s') :
    SnapInv s' (if s'.inlineBufferLength = s.inlineBufferLength + 1 then
      snaps ++ [fun i => (s'.attrs i).inlineValue] else snaps) := by
  unfold setInlineValue at hs
  dsimp only at hs
  set s₁ := pgraphAllocateInlineBufferVertices s attr
  set a₂ : InlineAttr F := { s₁.attrs attr with inlineValue := write (s₁.attrs attr).inlineValue }
  set s₂ : InlineState F := { s₁ with attrs := update s₁.attrs attr a₂ } with hs₂
  have hlen₂ : s₂.inlineBufferLength = s.inlineBufferLength := allocate_length s attr
  -- the rows of finished vertices are the same in `s₂` as in `s`
  have hdrawn₂ : ∀ i k, k < s.inlineBufferLength → drawnValue s₂ i k = drawnValue s i k := by
    intro i k hk
    rcases allocate_populated s attr with hp | hz
    · rw [hs₂, drawnValue_write s₁ attr i _ hp k, drawnValue_allocate s attr i hk]
    · omega
  cases finishes with
  | false =>
    obtain rfl : s' = s₂ := (Option.some.inj hs).symm
    rw [if_neg (by omega)]
    refine ⟨by rw [h.length_eq, hlen₂], fun i k hk => ?_⟩
    rw [hdrawn₂ i k (h.length_eq ▸ hk), h.drawn_eq i k hk]
  | true =>
    obtain ⟨hlen, hval, hrow⟩ := finish_spec hs
    rw [if_pos (by omega)]
    refine ⟨by simp [h.length_eq, hlen, hlen₂], fun i k hk => ?_⟩
    rw [hrow i k]
    rw [List.length_append, List.length_singleton, h.length_eq, ← hlen₂] at hk
    by_cases hkl : k = s₂.inlineBufferLength
    · -- the new row: the values at this completion
      subst hkl
      rw [if_pos rfl, List.getElem_append_right (by rw [h.length_eq, hlen₂])]
      simp [hval i]
    · rw [if_neg hkl, List.getElem_append_left (by rw [h.length_eq]; omega)]
      rw [hdrawn₂ i k (by omega), h.drawn_eq]

/-- Along every run the invariant holds of the state and its ghost record. -/
theorem SnapInv.run (conv : FloatConv F) (cs : List InlineCall) :
    ∀ {s s' : InlineState F} {snaps snaps' : List (Snapshot F)}, SnapInv s snaps →
      inlineRunSnaps conv s snaps cs = some (s', snaps') → SnapInv s' snaps' := by
  induction cs with
  | nil =>
    intro s s' snaps snaps' h hr
    cases hr
    exact h
  | cons c cs ih =>
    intro s s' snaps snaps' h hr
    simp only [inlineRunSnaps] at hr
    split at hr
    · cases hr
    rename_i s₁ hstep
    obtain ⟨attr, write, finishes, heq⟩ := inlineStep_eq conv s c
    rw [heq] at hstep
    exact ih (h.step hstep) hr

/-- From the start of a block (no vertex yet, whatever the populated flags),
    for every run of attribute methods: there is one snapshot per vertex,
    and the draw feeds each attribute, for each vertex, its value when the
    vertex was completed. -/
theorem inlineRunSnaps_drawn (conv : FloatConv F) {s₀ s : InlineState F}
    (h0 : s₀.inlineBufferLength = 0) (cs : List InlineCall) {snaps : List (Snapshot F)}
    (h : inlineRunSnaps conv s₀ [] cs = some (s, snaps)) :
    snaps.length = s.inlineBufferLength ∧
      ∀ i k (hk : k < snaps.length), drawnValue s i k = snaps[k] i := by
  have hinv : SnapInv s snaps :=
    SnapInv.run conv cs ⟨by simp [h0], fun _ _ hk => absurd hk (by simp)⟩ h
  exact ⟨hinv.length_eq, hinv.drawn_eq⟩

/-- After the draw a populated attribute's `inline_value` is what the draw
    fed for the last vertex, and another attribute's is as it was. -/
theorem flushDrawInline_inlineValue (s : InlineState F) (i : Fin nv2aVertexshaderAttributes) :
    ((pgraphGlFlushDrawInline s).attrs i).inlineValue =
      drawnValue s i (s.inlineBufferLength - 1) := by
  unfold pgraphGlFlushDrawInline drawnValue
  dsimp only
  split_ifs <;> rfl

/-- A block from reset: diffuse colour `p₁`, one vertex, diffuse colour
    `p₂`.  The vertex was completed with `p₁`, and `p₂` is the colour's
    last write; after the draw, the colour is `p₁` again. -/
theorem flush_draw_loses_write_after_last_vertex (conv : FloatConv F) (p₁ p₂ x y : UInt32) :
    ∃ s, inlineRun conv (inlineInit conv.zero)
        [.diffuseColor4f 0 p₁, .vertexData2fM 0 x, .vertexData2fM 1 y, .diffuseColor4f 0 p₂] =
          some s ∧
      (s.attrs nv2aVertexAttrDiffuse).inlineValue 0 = conv.ofBits p₂ ∧
      ((pgraphGlFlushDrawInline s).attrs nv2aVertexAttrDiffuse).inlineValue 0 = conv.ofBits p₁ :=
  ⟨_, rfl, rfl, rfl⟩

end Xemu.Nv2a.Inline
