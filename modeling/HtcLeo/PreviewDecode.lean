import HtcLeo.CInt
import HtcLeo.Mem

/-!
# Preview frames (`camera/QcomCamera.cpp`)

`internal_decode_sw` turns a yuv420sp frame into 32-bit pixels. Two running
indices go through the frame at different rates, `yp` by one for each pixel
and `uvp` by two for each pair of pixels, and the chroma of a pair is
carried from its first pixel to its second.

The model has no value where the code reads outside the frame or where an
`int` operation overflows, so that it returns a result at all
(`preview_decoded`) says that neither happens. The result is the output
memory and the list of the indices assigned.
-/

namespace HtcLeo

/-! ## The code -/

/-- `0xff & yuv420sp[k]`. -/
def byteAt (yuv420sp : List Byte) (k : Int) : Option Int :=
  if k < 0 then none else yuv420sp[k.toNat]?.map fun b => (b.toNat : Int)

/-- The variables of the loops, the output, and the indices of it that were assigned. -/
structure DecodeState where
  rgb : Int → Word
  writes : List Int
  yp : Int
  uvp : Int
  u : Int
  v : Int

def decodeY (yuv420sp : List Byte) (yp : Int) : Option Int := do
  let b ← byteAt yuv420sp yp
  let y ← int32 (b - 16)
  return if y < 0 then 0 else y

/-- `(0xff & yuv420sp[uvp++]) - 128`: the value and the next index. -/
def nextChroma (yuv420sp : List Byte) (uvp : Int) : Option (Int × Int) := do
  let b ← byteAt yuv420sp uvp
  let c ← int32 (b - 128)
  let uvp ← int32 (uvp + 1)
  return (c, uvp)

/-- The chroma is read at the first pixel of a pair. -/
def decodeUv (yuv420sp : List Byte) (i : Int) (s : DecodeState) : Option DecodeState :=
  if i % 2 = 0 then do
    let (v, uvp) ← nextChroma yuv420sp s.uvp
    let (u, uvp) ← nextChroma yuv420sp uvp
    return { s with uvp := uvp, u := u, v := v }
  else some s

def clamp18 (x : Int) : Int := if x < 0 then 0 else if x > 262143 then 262143 else x

/-- `0xff000000 | ((b << 6) & 0xff0000) | ((g >> 2) & 0xff00) | ((r >> 10) & 0xff)`. -/
def packRgb (r g b : Int) : Option Word := do
  let b ← int32 (b * 2 ^ 6)
  return 0xff000000#32 ||| (BitVec.ofInt 32 b &&& 0xff0000#32)
    ||| (BitVec.ofInt 32 (g / 2 ^ 2) &&& 0xff00#32) ||| (BitVec.ofInt 32 (r / 2 ^ 10) &&& 0xff#32)

def decodeRgb (y u v : Int) : Option Word := do
  let y1192 ← int32 (1192 * y)
  let rv ← int32 (1634 * v)
  let r ← int32 (y1192 + rv)
  let gv ← int32 (833 * v)
  let gy ← int32 (y1192 - gv)
  let gu ← int32 (400 * u)
  let g ← int32 (gy - gu)
  let bu ← int32 (2066 * u)
  let b ← int32 (y1192 + bu)
  packRgb (clamp18 r) (clamp18 g) (clamp18 b)

/-- The body of the inner loop, with `yp++`. -/
def decodePixel (yuv420sp : List Byte) (i : Int) (s : DecodeState) : Option DecodeState := do
  let y ← decodeY yuv420sp s.yp
  let s ← decodeUv yuv420sp i s
  let pixel ← decodeRgb y s.u s.v
  let yp ← int32 (s.yp + 1)
  return { s with
    rgb := Function.update s.rgb s.yp pixel
    writes := s.writes ++ [s.yp]
    yp := yp }

/-- The inner loop: `n` rounds are left, the next one for column `i`. -/
def decodeRow (yuv420sp : List Byte) : (n : Nat) → (i : Int) → DecodeState → Option DecodeState
  | 0, _, s => some s
  | n + 1, i, s => do
      let s ← decodePixel yuv420sp i s
      let i ← int32 (i + 1)
      decodeRow yuv420sp n i s

/-- The outer loop: `n` rounds are left, the next one for row `j`. -/
def decodeRows (yuv420sp : List Byte) (width frameSize : Int) :
    (n : Nat) → (j : Int) → DecodeState → Option DecodeState
  | 0, _, s => some s
  | n + 1, j, s => do
      let row ← int32 (j / 2 * width)
      let uvp ← int32 (frameSize + row)
      let s ← decodeRow yuv420sp width.toNat 0 { s with uvp := uvp, u := 0, v := 0 }
      let j ← int32 (j + 1)
      decodeRows yuv420sp width frameSize n j s

/-- The output and the indices assigned; `rgb` is the output before. -/
def internalDecodeSw (previewEnabled : Bool) (rgb : Int → Word) (yuv420sp : List Byte)
    (width height : Int) : Option ((Int → Word) × List Int) := do
  let frameSize ← int32 (width * height)
  if previewEnabled then
    let s ← decodeRows yuv420sp width frameSize height.toNat 0 ⟨rgb, [], 0, 0, 0, 0⟩
    return (s.rgb, s.writes)
  else return (rgb, [])

/-! ## The conversion -/

section Spec

variable (frame : List Byte) (w h : Nat)

/-- Byte `k` of the frame. -/
def sample (k : Nat) : Int := (frame.getD k 0).toNat

/-- `max (Y - 16) 0` at column `i` of row `j`. -/
def lumaAt (i j : Nat) : Int := max (sample frame (j * w + i) - 16) 0

/-- Where the chroma of the pair of column `i` is stored: V, and U behind it. -/
def chromaIndex (i j : Nat) : Nat := w * h + j / 2 * w + 2 * (i / 2)

def vAt (i j : Nat) : Int := sample frame (chromaIndex w h i j) - 128

def uAt (i j : Nat) : Int := sample frame (chromaIndex w h i j + 1) - 128

end Spec

/-- A colour, clamped to 18 bits, of which the upper 8 count. -/
def level (x : Int) : Word := BitVec.ofNat 32 ((min (max x 0) 262143).toNat / 1024)

/-- The pixel of a luma and a chroma. -/
def pixelOf (y u v : Int) : Word :=
  0xff000000#32 ||| level (1192 * y + 2066 * u) <<< 16
    ||| level (1192 * y - 833 * v - 400 * u) <<< 8 ||| level (1192 * y + 1634 * v)

/-- The pixel at column `i` of row `j`. -/
def pixelAt (frame : List Byte) (w h i j : Nat) : Word :=
  pixelOf (lumaAt frame w i j) (uAt frame w h i j) (vAt frame w h i j)

/-! ## One pixel -/

/-- A mask of eight bits keeps a digit to the base 256. -/
theorem and_byte_mask (n s : Nat) : n &&& (255 * 2 ^ s) = n / 2 ^ s % 2 ^ 8 * 2 ^ s := by
  refine Nat.eq_of_testBit_eq fun i => ?_
  rw [Nat.testBit_and, Nat.testBit_mul_two_pow, Nat.testBit_mul_two_pow, Nat.testBit_mod_two_pow,
    Nat.testBit_div_two_pow, show 255 = 2 ^ 8 - 1 by rfl, Nat.testBit_two_pow_sub_one]
  by_cases hs : s ≤ i
  · rw [Nat.sub_add_cancel hs]
    simp [hs, Bool.and_comm]
  · simp [hs]

theorem ofNat_and_mask {n s : Nat} (hn : n < 2 ^ 32) (hs : 255 * 2 ^ s < 2 ^ 32) :
    BitVec.ofNat 32 n &&& BitVec.ofNat 32 (255 * 2 ^ s)
      = BitVec.ofNat 32 (n / 2 ^ s % 2 ^ 8) <<< s := by
  have hdigit : n / 2 ^ s % 2 ^ 8 ≤ 255 := Nat.le_of_lt_succ (Nat.mod_lt _ (by decide))
  have hsmall : n / 2 ^ s % 2 ^ 8 * 2 ^ s < 2 ^ 32 :=
    Nat.lt_of_le_of_lt (Nat.mul_le_mul_right _ hdigit) hs
  refine BitVec.eq_of_toNat_eq ?_
  rw [BitVec.toNat_and, BitVec.toNat_ofNat, BitVec.toNat_ofNat, Nat.mod_eq_of_lt hn,
    Nat.mod_eq_of_lt hs, and_byte_mask, BitVec.toNat_shiftLeft, BitVec.toNat_ofNat,
    Nat.mod_eq_of_lt (by omega : n / 2 ^ s % 2 ^ 8 < 2 ^ 32), Nat.shiftLeft_eq,
    Nat.mod_eq_of_lt hsmall]

/-- The colours after the clamp: 18 bits, so that a shift by 6 does not overflow and the
masks cut nothing off. -/
theorem packRgb_eq {r g b : Nat} (hr : r < 2 ^ 18) (hg : g < 2 ^ 18) (hb : b < 2 ^ 18) :
    packRgb r g b = some (0xff000000#32 ||| BitVec.ofNat 32 (b / 1024) <<< 16
      ||| BitVec.ofNat 32 (g / 1024) <<< 8 ||| BitVec.ofNat 32 (r / 1024)) := by
  have hblue : BitVec.ofInt 32 ((b : Int) * 2 ^ 6) &&& 0xff0000#32
      = BitVec.ofNat 32 (b / 1024) <<< 16 := by
    have hmask := ofNat_and_mask (n := b * 2 ^ 6) (s := 16) (by omega) (by decide)
    rw [show b * 2 ^ 6 / 2 ^ 16 % 2 ^ 8 = b / 1024 by omega] at hmask
    rw [show (b : Int) * 2 ^ 6 = ((b * 2 ^ 6 : Nat) : Int) by omega, BitVec.ofInt_natCast]
    exact hmask
  have hgreen : BitVec.ofInt 32 ((g : Int) / 2 ^ 2) &&& 0xff00#32
      = BitVec.ofNat 32 (g / 1024) <<< 8 := by
    have hmask := ofNat_and_mask (n := g / 2 ^ 2) (s := 8) (by omega) (by decide)
    rw [show g / 2 ^ 2 / 2 ^ 8 % 2 ^ 8 = g / 1024 by omega] at hmask
    rw [show (g : Int) / 2 ^ 2 = ((g / 2 ^ 2 : Nat) : Int) by omega, BitVec.ofInt_natCast]
    exact hmask
  have hred : BitVec.ofInt 32 ((r : Int) / 2 ^ 10) &&& 0xff#32 = BitVec.ofNat 32 (r / 1024) := by
    have hmask := ofNat_and_mask (n := r / 2 ^ 10) (s := 0) (by omega) (by decide)
    rw [show r / 2 ^ 10 / 2 ^ 0 % 2 ^ 8 = r / 1024 by omega, BitVec.shiftLeft_zero] at hmask
    rw [show (r : Int) / 2 ^ 10 = ((r / 2 ^ 10 : Nat) : Int) by omega, BitVec.ofInt_natCast]
    exact hmask
  rw [packRgb, int32_eq (by omega) (by omega)]
  simp only [Option.bind_eq_bind, Option.bind_some, hblue, hgreen, hred]
  rfl

theorem clamp18_eq (x : Int) : clamp18 x = ((min (max x 0) 262143).toNat : Int) := by
  unfold clamp18
  split_ifs <;> omega

/-- Samples of eight bits do not make any intermediate result overflow. -/
theorem decodeRgb_eq {y u v : Int} (hy : 0 ≤ y ∧ y ≤ 239) (hu : -128 ≤ u ∧ u ≤ 127)
    (hv : -128 ≤ v ∧ v ≤ 127) : decodeRgb y u v = some (pixelOf y u v) := by
  have hbound : ∀ x : Int, (min (max x 0) 262143).toNat < 2 ^ 18 := by
    intro x
    omega
  rw [decodeRgb]
  simp only [Option.bind_eq_bind]
  rw [int32_eq (x := 1192 * y) (by omega) (by omega), Option.bind_some,
    int32_eq (x := 1634 * v) (by omega) (by omega), Option.bind_some,
    int32_eq (x := 1192 * y + 1634 * v) (by omega) (by omega), Option.bind_some,
    int32_eq (x := 833 * v) (by omega) (by omega), Option.bind_some,
    int32_eq (x := 1192 * y - 833 * v) (by omega) (by omega), Option.bind_some,
    int32_eq (x := 400 * u) (by omega) (by omega), Option.bind_some,
    int32_eq (x := 1192 * y - 833 * v - 400 * u) (by omega) (by omega), Option.bind_some,
    int32_eq (x := 2066 * u) (by omega) (by omega), Option.bind_some,
    int32_eq (x := 1192 * y + 2066 * u) (by omega) (by omega), Option.bind_some,
    clamp18_eq, clamp18_eq, clamp18_eq, packRgb_eq (hbound _) (hbound _) (hbound _)]
  rfl

/-! ## The indices -/

/-- A frame of `w` times `h` pixels. -/
structure PreviewFrame (frame : List Byte) (w h : Nat) : Prop where
  evenWidth : w % 2 = 0
  evenHeight : h % 2 = 0
  width : 0 < w
  height : 0 < h
  length : frame.length = 3 * w * h / 2
  int : 3 * w * h / 2 < 2 ^ 31

theorem sample_bounds (frame : List Byte) (k : Nat) : 0 ≤ sample frame k ∧ sample frame k ≤ 255 := by
  have := (frame.getD k 0).isLt
  unfold sample
  omega

theorem byteAt_eq {frame : List Byte} {k : Nat} (hk : k < frame.length) :
    byteAt frame k = some (sample frame k) := by
  rw [byteAt, if_neg (by omega), Int.toNat_natCast, sample, List.getD_eq_getElem?_getD,
    List.getElem?_eq_getElem hk]
  rfl

namespace PreviewFrame

variable {frame : List Byte} {w h i j : Nat}

/-- Three halves of the pixels. -/
theorem size (hf : PreviewFrame frame w h) : 2 * frame.length = 3 * (w * h) := by
  obtain ⟨x, rfl⟩ : ∃ x, w = 2 * x := ⟨w / 2, by have := hf.evenWidth; omega⟩
  rw [hf.length, Nat.mul_assoc 3, Nat.mul_assoc 2, Nat.mul_left_comm 3]
  omega

theorem luma_lt (_ : PreviewFrame frame w h) (hi : i < w) (hj : j < h) : j * w + i < w * h := by
  have hrow : (j + 1) * w ≤ h * w := Nat.mul_le_mul_right w hj
  rw [Nat.add_mul, Nat.one_mul, Nat.mul_comm h] at hrow
  omega

/-- Half a row of pairs for each pair of rows. -/
theorem chroma_lt (hf : PreviewFrame frame w h) (hi : i < w) (hj : j < h) :
    chromaIndex w h i j + 1 < frame.length := by
  have hsize := hf.size
  have hi' := hf.evenWidth
  have hj' := hf.evenHeight
  have hrow : (j / 2 + 1) * w ≤ h / 2 * w := Nat.mul_le_mul_right w (by omega)
  have hhalf : 2 * (h / 2 * w) = w * h := by
    rw [← Nat.mul_assoc, Nat.mul_comm w, show 2 * (h / 2) = h by omega]
  rw [Nat.add_mul, Nat.one_mul] at hrow
  unfold chromaIndex
  omega

theorem width_lt (hf : PreviewFrame frame w h) : w < 2 ^ 31 ∧ h < 2 ^ 31 := by
  have hsize := hf.size
  have hint := hf.int
  have hwh : w * 1 ≤ w * h := Nat.mul_le_mul_left w hf.height
  have hhw : 1 * h ≤ w * h := Nat.mul_le_mul_right h hf.width
  rw [← hf.length] at hint
  omega

theorem length_lt (hf : PreviewFrame frame w h) : frame.length < 2 ^ 31 := by
  rw [hf.length]
  exact hf.int

end PreviewFrame

theorem decodeY_eq {frame : List Byte} {k : Nat} (hk : k < frame.length) :
    decodeY frame k = some (max (sample frame k - 16) 0) := by
  have hbounds := sample_bounds frame k
  rw [decodeY, byteAt_eq hk]
  simp only [Option.bind_eq_bind, Option.bind_some]
  rw [int32_eq (by omega) (by omega), Option.bind_some]
  congr 1
  split <;> omega

theorem nextChroma_eq {frame : List Byte} {c : Nat} (hc : c < frame.length)
    (hint : frame.length < 2 ^ 31) :
    nextChroma frame c = some (sample frame c - 128, ((c + 1 : Nat) : Int)) := by
  have hbounds := sample_bounds frame c
  rw [nextChroma, byteAt_eq hc, Option.bind_eq_bind, Option.bind_some,
    int32_eq (by omega) (by omega), Option.bind_some, int32_eq (by omega) (by omega),
    Option.bind_some]
  rfl

/-- The two bytes of chroma at an even column. -/
theorem decodeUv_even {frame : List Byte} {i c : Nat} {s : DecodeState} (hi : i % 2 = 0)
    (huvp : s.uvp = c) (hc : c + 1 < frame.length) (hint : frame.length < 2 ^ 31) :
    decodeUv frame i s = some { s with
      uvp := (c + 2 : Nat)
      u := sample frame (c + 1) - 128
      v := sample frame c - 128 } := by
  rw [decodeUv, if_pos (by omega), huvp, nextChroma_eq (by omega) hint, Option.bind_eq_bind,
    Option.bind_some]
  dsimp only
  rw [nextChroma_eq hc hint]
  rfl

/-! ## The loops -/

/-- The first `n` pixels, each assigned once, and nothing else. -/
structure PixelsInv (frame : List Byte) (w h : Nat) (rgb : Int → Word) (n : Nat)
    (s : DecodeState) : Prop where
  yp : s.yp = n
  writes : s.writes = (List.range n).map fun k : Nat => (k : Int)
  done : ∀ k < n, s.rgb (k : Nat) = pixelAt frame w h (k % w) (k / w)
  rest : ∀ k : Int, k < 0 ∨ n ≤ k → s.rgb k = rgb k

/-- Where the inner loop is in row `j` before column `i`: at an odd column the chroma is
that of the pixel before. -/
structure DecodeInv (frame : List Byte) (w h : Nat) (rgb : Int → Word) (j i : Nat)
    (s : DecodeState) : Prop where
  pixels : PixelsInv frame w h rgb (j * w + i) s
  uvp : s.uvp = (w * h + j / 2 * w + 2 * ((i + 1) / 2) : Nat)
  chroma : i % 2 = 1 → s.u = uAt frame w h i j ∧ s.v = vAt frame w h i j

section Loops

variable {frame : List Byte} {w h : Nat} {rgb : Int → Word}

/-- The next pixel. -/
theorem PixelsInv.assign (hf : PreviewFrame frame w h) {i j : Nat} (hi : i < w) {s : DecodeState}
    (hs : PixelsInv frame w h rgb (j * w + i) s) (uvp u v : Int) :
    PixelsInv frame w h rgb (j * w + (i + 1)) {
      rgb := Function.update s.rgb ((j * w + i : Nat) : Int) (pixelAt frame w h i j)
      writes := s.writes ++ [((j * w + i : Nat) : Int)]
      yp := ((j * w + i : Nat) : Int) + 1
      uvp := uvp
      u := u
      v := v } := by
  constructor
  · show ((j * w + i : Nat) : Int) + 1 = (j * w + (i + 1) : Nat)
    omega
  · show s.writes ++ [((j * w + i : Nat) : Int)] = _
    rw [hs.writes, ← Nat.add_assoc, List.range_succ, List.map_append]
    rfl
  · intro k hk
    show Function.update s.rgb ((j * w + i : Nat) : Int) _ (k : Int) = _
    by_cases hlast : k = j * w + i
    · have hrow : (j * w + i) / w = j := by
        rw [Nat.mul_comm, Nat.mul_add_div hf.width, Nat.div_eq_of_lt hi, Nat.add_zero]
      rw [hlast, Function.update_self, Nat.mul_add_mod_of_lt hi, hrow]
    · rw [Function.update_of_ne (by omega)]
      exact hs.done k (by omega)
  · intro k hk
    show Function.update s.rgb ((j * w + i : Nat) : Int) _ k = _
    rw [Function.update_of_ne (by omega)]
    exact hs.rest k (by omega)

/-- The chroma of a pixel is there after `decodeUv`: just read, or that of the pixel before. -/
theorem decodeUv_inv (hf : PreviewFrame frame w h) {i j : Nat} (hi : i < w) (hj : j < h)
    {s : DecodeState} (hs : DecodeInv frame w h rgb j i s) :
    decodeUv frame i s = some { s with
      uvp := (w * h + j / 2 * w + 2 * ((i + 1 + 1) / 2) : Nat)
      u := uAt frame w h i j
      v := vAt frame w h i j } := by
  rcases Nat.mod_two_eq_zero_or_one i with heven | hodd
  · have huvp : s.uvp = (chromaIndex w h i j : Nat) := by
      rw [hs.uvp, chromaIndex, show 2 * ((i + 1) / 2) = 2 * (i / 2) by omega]
    rw [decodeUv_even heven huvp (hf.chroma_lt hi hj) hf.length_lt, chromaIndex,
      show 2 * ((i + 1 + 1) / 2) = 2 * (i / 2) + 2 by omega]
    rfl
  · obtain ⟨hu, hv⟩ := hs.chroma hodd
    rw [decodeUv, if_neg (by omega), ← hu, ← hv,
      show 2 * ((i + 1 + 1) / 2) = 2 * ((i + 1) / 2) by omega, ← hs.uvp]

/-- The step: one pixel. -/
theorem decodePixel_inv (hf : PreviewFrame frame w h) {i j : Nat} (hi : i < w) (hj : j < h)
    {s : DecodeState} (hs : DecodeInv frame w h rgb j i s) :
    ∃ s', decodePixel frame i s = some s' ∧ DecodeInv frame w h rgb j (i + 1) s' := by
  have hluma := hf.luma_lt hi hj
  have hsize := hf.size
  have hint := hf.length_lt
  have hybounds := sample_bounds frame (j * w + i)
  have hubounds := sample_bounds frame (chromaIndex w h i j + 1)
  have hvbounds := sample_bounds frame (chromaIndex w h i j)
  have hpixel : decodeRgb (max (sample frame (j * w + i) - 16) 0) (uAt frame w h i j)
      (vAt frame w h i j) = some (pixelAt frame w h i j) := by
    refine decodeRgb_eq ⟨by omega, by omega⟩ ?_ ?_
    · unfold uAt
      omega
    · unfold vAt
      omega
  rw [decodePixel]
  simp only [Option.bind_eq_bind]
  rw [hs.pixels.yp, decodeY_eq (by omega), Option.bind_some, decodeUv_inv hf hi hj hs,
    Option.bind_some]
  simp only
  rw [hpixel, Option.bind_some, hs.pixels.yp, int32_eq (by omega) (by omega), Option.bind_some]
  refine ⟨_, rfl, ?_, rfl, ?_⟩
  · exact hs.pixels.assign hf hi _ _ _
  · intro hodd
    show uAt frame w h i j = uAt frame w h (i + 1) j ∧ vAt frame w h i j = vAt frame w h (i + 1) j
    rw [uAt, uAt, vAt, vAt, chromaIndex, chromaIndex, show (i + 1) / 2 = i / 2 by omega]
    exact ⟨rfl, rfl⟩

/-- The inner loop: from column `i` to the end of the row. -/
theorem decodeRow_inv (hf : PreviewFrame frame w h) {j : Nat} (hj : j < h) {n i : Nat}
    (hn : i + n = w) {s : DecodeState} (hs : DecodeInv frame w h rgb j i s) :
    ∃ s', decodeRow frame n i s = some s' ∧ PixelsInv frame w h rgb ((j + 1) * w) s' := by
  induction n generalizing i s with
  | zero =>
      obtain rfl : i = w := hn
      refine ⟨s, rfl, ?_⟩
      rw [Nat.add_mul, Nat.one_mul]
      exact hs.pixels
  | succ n ih =>
      have hwidth := hf.width_lt
      obtain ⟨s₁, hpixel, hs₁⟩ := decodePixel_inv hf (by omega) hj hs
      obtain ⟨s', hrest, hs'⟩ := ih (i := i + 1) (by omega) hs₁
      refine ⟨s', ?_, hs'⟩
      rw [decodeRow, hpixel, Option.bind_eq_bind, Option.bind_some, int32_eq (by omega) (by omega),
        Option.bind_eq_bind, Option.bind_some]
      exact hrest

/-- The outer loop: from row `j` to the end of the frame. -/
theorem decodeRows_inv (hf : PreviewFrame frame w h) {n j : Nat} (hn : j + n = h)
    {s : DecodeState} (hs : PixelsInv frame w h rgb (j * w) s) :
    ∃ s', decodeRows frame w (w * h : Nat) n j s = some s'
      ∧ PixelsInv frame w h rgb (h * w) s' := by
  induction n generalizing j s with
  | zero =>
      obtain rfl : j = h := hn
      exact ⟨s, rfl, hs⟩
  | succ n ih =>
      have hwidth := hf.width_lt
      have hint := hf.length_lt
      have hfirst := hf.chroma_lt hf.width (j := j) (by omega)
      have hstart : chromaIndex w h 0 j = w * h + j / 2 * w := rfl
      have hrow : (j : Int) / 2 * w = (j / 2 * w : Nat) := by
        rw [Nat.cast_mul]
        rfl
      have huvp : ((w * h : Nat) : Int) + (j / 2 * w : Nat) = (w * h + j / 2 * w : Nat) := by omega
      obtain ⟨s₁, hdecode, hs₁⟩ := decodeRow_inv hf (j := j) (by omega) (i := 0) (Nat.zero_add w)
        (s := { s with uvp := (w * h + j / 2 * w : Nat), u := 0, v := 0 })
        ⟨⟨hs.yp, hs.writes, hs.done, hs.rest⟩, rfl, fun hodd => by cases hodd⟩
      obtain ⟨s', hrest, hs'⟩ := ih (j := j + 1) (by omega) hs₁
      refine ⟨s', ?_, hs'⟩
      rw [decodeRows, hrow, int32_eq (by omega) (by omega), Option.bind_eq_bind, Option.bind_some,
        huvp, int32_eq (by omega) (by omega), Option.bind_eq_bind, Option.bind_some,
        Int.toNat_natCast]
      rw [Nat.cast_zero] at hdecode
      rw [hdecode, Option.bind_some, int32_eq (by omega) (by omega), Option.bind_some]
      exact hrest

end Loops

/-- **The preview.** For every frame of even width and height whose size is an `int`: the
conversion reads only bytes of the frame and no intermediate result overflows, so that there
is a result; every pixel is assigned exactly once, pixel `(i, j)` the one of its luma and
chroma, and nothing else is written. -/
theorem preview_decoded {frame : List Byte} {w h : Nat} (hf : PreviewFrame frame w h)
    (rgb : Int → Word) :
    ∃ rgb', internalDecodeSw true rgb frame w h
        = some (rgb', (List.range (w * h)).map fun k : Nat => (k : Int))
      ∧ (∀ i j, i < w → j < h → rgb' (j * w + i : Nat) = pixelAt frame w h i j)
      ∧ ∀ k : Int, k < 0 ∨ (w * h : Nat) ≤ k → rgb' k = rgb k := by
  have hsize := hf.size
  have hint := hf.length_lt
  have hstart : PixelsInv frame w h rgb (0 * w) ⟨rgb, [], 0, 0, 0, 0⟩ := by
    rw [Nat.zero_mul]
    exact ⟨rfl, rfl, fun k hk => by omega, fun _ _ => rfl⟩
  obtain ⟨s, hrun, hs⟩ := decodeRows_inv hf (Nat.zero_add h) hstart
  rw [Nat.mul_comm h] at hs
  rw [Nat.cast_zero] at hrun
  refine ⟨s.rgb, ?_, fun i j hi hj => ?_, hs.rest⟩
  · rw [internalDecodeSw, ← Nat.cast_mul, int32_eq (by omega) (by omega), Option.bind_eq_bind,
      Option.bind_some, if_pos rfl, Int.toNat_natCast, hrun, ← hs.writes]
    rfl
  · have hrow : (j * w + i) / w = j := by
      rw [Nat.mul_comm, Nat.mul_add_div hf.width, Nat.div_eq_of_lt hi, Nat.add_zero]
    rw [hs.done _ (hf.luma_lt hi hj), Nat.mul_add_mod_of_lt hi, hrow]

/-- A frame of two by two pixels. -/
def smallFrame : List Byte := [16, 81, 145, 235, 240, 90]

theorem small_frame_decoded :
    PreviewFrame smallFrame 2 2
      ∧ ∃ rgb', internalDecodeSw true (fun _ => 0) smallFrame (2 : Nat) (2 : Nat)
          = some (rgb', (List.range (2 * 2)).map fun k : Nat => (k : Int))
        ∧ rgb' (1 * 2 + 1 : Nat) = pixelAt smallFrame 2 2 1 1 := by
  have hf : PreviewFrame smallFrame 2 2 := by
    constructor <;> decide
  obtain ⟨rgb', hrun, hpixels, -⟩ := preview_decoded hf fun _ => 0
  exact ⟨hf, rgb', hrun, hpixels 1 1 (by decide) (by decide)⟩

end HtcLeo
