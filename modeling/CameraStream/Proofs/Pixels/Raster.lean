import CameraStream.Format.Family
import CameraStream.Pixels.Demosaic

/-!
# Pictures as lists of pixels

Where kernels meet, a payload is a list of bytes; what they agree on is a list of pixels, row by row
(`raster`). Painting writes every pixel of it in as many bytes as the encoding takes (`paint_eq`),
so that the bytes of a pixel are found at its place in the list (`pixelAt_paint`), and a frame under
a mosaic is painted in the colours of its cells (`demosaic_eq`).
-/

namespace CameraStream

/-- Formats of frames that are given colours: one byte a sample under a mosaic, and of two by two
pixels at least. -/
structure Mosaicked (f : VideoFormat) : Prop where
  bayer : f.encoding ∈ Family.bayer8.members
  width : 2 ≤ f.size.width
  height : 2 ≤ f.size.height

theorem Encoding.exists_mosaic {e : Encoding} (h : e ∈ Family.bayer8.members) :
    ∃ m, e.mosaic = some m := by
  have hall : ∀ e ∈ Family.bayer8.members, (Encoding.mosaic e).isSome := by decide
  exact Option.isSome_iff_exists.mp (hall e h)

theorem Mosaicked.exists_mosaic {f : VideoFormat} (h : Mosaicked f) :
    ∃ m, f.encoding.mosaic = some m :=
  Encoding.exists_mosaic h.bayer

namespace Pixels

/-! ### Blocks of one length -/

/-- One of several blocks of one length, found by its number. -/
theorem take_drop_flatMap {α β : Type} {f : α → List β} {k : Nat} (hf : ∀ a, (f a).length = k)
    {xs : List α} {i : Nat} {a : α} (h : xs[i]? = some a) :
    ((xs.flatMap f).drop (i * k)).take k = f a := by
  induction xs generalizing i with
  | nil => simp at h
  | cons b rest ih =>
    rw [List.flatMap_cons]
    cases i with
    | zero =>
      simp only [List.getElem?_cons_zero, Option.some.injEq] at h
      rw [Nat.zero_mul, List.drop_zero, List.take_left' (hf b), h]
    | succ i =>
      rw [List.getElem?_cons_succ] at h
      rw [Nat.succ_mul, Nat.add_comm, ← hf b, List.drop_length_add_append, hf b]
      exact ih h

/-! ### Pixels -/

/-- The colours of all pixels, row by row. -/
def raster (size : FrameSize) (color : Nat → Nat → Rgb) : List Rgb :=
  (List.range size.height).flatMap fun y => (List.range size.width).map fun x => color x y

theorem length_raster (size : FrameSize) (color : Nat → Nat → Rgb) :
    (raster size color).length = size.height * size.width := by
  simp [raster, List.length_flatMap, List.map_const']

theorem getElem?_raster (size : FrameSize) (color : Nat → Nat → Rgb) {x y : Nat}
    (hx : x < size.width) (hy : y < size.height) :
    (raster size color)[y * size.width + x]? = some (color x y) := by
  have hrow : ∀ y, ((List.range size.width).map fun x => color x y).length = size.width := by simp
  have hline := take_drop_flatMap hrow (List.getElem?_range hy)
  have hpixel := congrArg (·[x]?) hline
  simpa [raster, List.getElem?_take_of_lt hx, List.getElem?_drop, List.getElem?_range hx] using hpixel

theorem paint_eq (o : ColorOrder) (size : FrameSize) (color : Nat → Nat → Rgb) :
    paint o size color = (raster size color).flatMap o.write := by
  simp only [paint, raster, List.flatMap_assoc, List.flatMap_map]

/-- The bytes of the pixel at a column and row. -/
def pixelAt (o : ColorOrder) (size : FrameSize) (data : List UInt8) (x y : Nat) : List UInt8 :=
  (data.drop ((y * size.width + x) * o.channels)).take o.channels

theorem pixelAt_paint (o : ColorOrder) (size : FrameSize) (color : Nat → Nat → Rgb) {x y : Nat}
    (hx : x < size.width) (hy : y < size.height) :
    pixelAt o size (paint o size color) x y = o.write (color x y) := by
  rw [pixelAt, paint_eq]
  exact take_drop_flatMap o.length_write (getElem?_raster size color hx hy)

/-- A whole frame of two by two pixels at least is painted in the colours of its cells, whatever its
samples are. -/
theorem demosaic_of_whole {f output : VideoFormat} {m : Mosaic} (hm : f.encoding.mosaic = some m)
    {o : ColorOrder} (ho : output.encoding.colorOrder = some o) {data : List UInt8}
    (hdata : f.pixels ≤ data.length) (hwidth : 2 ≤ f.size.width) (hheight : 2 ≤ f.size.height) :
    demosaic f output data = paint o f.size (pixelColors m data.toArray f.size) := by
  have hwhole : ¬(data.length < f.pixels ∨ f.size.width < 2 ∨ f.size.height < 2) := by omega
  simp only [demosaic, hm, ho, if_neg hwhole]

theorem demosaic_eq {f output : VideoFormat} (hf : Mosaicked f) {m : Mosaic}
    (hm : f.encoding.mosaic = some m) {o : ColorOrder} (ho : output.encoding.colorOrder = some o)
    {data : List UInt8} (hdata : f.pixels ≤ data.length) :
    demosaic f output data = paint o f.size (pixelColors m data.toArray f.size) :=
  demosaic_of_whole hm ho hdata hf.width hf.height

/-- Frames whose last column has no partner. -/
def oddFrame (e : Encoding) : VideoFormat := ⟨e, ⟨3, 2⟩, .fps 30⟩

end Pixels
end CameraStream
