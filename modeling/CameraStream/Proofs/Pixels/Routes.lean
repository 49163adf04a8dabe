import CameraStream.Pixels.Color
import CameraStream.Proofs.Pixels.Raster
import CameraStream.Stage.Builtin

/-!
# Ways to the same picture

Which packed encoding lies between a mosaic and grey, or between a mosaic and another packed
encoding, is for the negotiation to say, and it goes by the order of stages and preferences. The
picture must not depend on it. All that a packed encoding keeps of a picture are its pixels, so a
conversion is a map over pixels: what is written in an order of colours and read in the same order
is what it was (`toGray_flatMap_write`, `swapRedBlue_flatMap_write`). Hence all ways from a mosaic
lead to the same bytes (**`convertColor_demosaic`**).
-/

namespace CameraStream.Pixels

/-! ### Pixels written and read -/

/-- Grey made of written pixels is the brightness of each, whatever they were written as. -/
theorem toGray_flatMap_write (o : ColorOrder) (cs : List Rgb) :
    toGray o (cs.flatMap o.write) = cs.map luma := by
  obtain ⟨padded, blueFirst⟩ := o
  induction cs with
  | nil => cases padded <;> rfl
  | cons c rest ih =>
    cases padded <;> cases blueFirst <;>
      simpa [toGray, lumaOfThree, lumaOfFour, ColorOrder.write, ColorOrder.read] using ih

/-- Exchanging red and blue writes the same pixels in the other order. -/
theorem swapRedBlue_flatMap_write (blueFirst : Bool) (cs : List Rgb) :
    swapRedBlue (cs.flatMap (ColorOrder.mk false blueFirst).write) =
      cs.flatMap (ColorOrder.mk false !blueFirst).write := by
  induction cs with
  | nil => rfl
  | cons c rest ih =>
    cases blueFirst <;> simpa [swapRedBlue, ColorOrder.write] using ih

theorem exists_colorOrder {e : Encoding} (h : e ∈ StageDescriptor.packedColors) :
    ∃ o, e.colorOrder = some o := by
  have hall : ∀ e ∈ StageDescriptor.packedColors, (Encoding.colorOrder e).isSome := by decide
  exact Option.isSome_iff_exists.mp (hall e h)

theorem isSwap_mono8 (e : Encoding) : isSwap e .mono8 = false := by
  have hrgb : (Encoding.mono8 == .rgb24) = false := by decide
  have hbgr : (Encoding.mono8 == .bgr24) = false := by decide
  simp [isSwap, hrgb, hbgr]

theorem convertColor_to_mono8 {input output : VideoFormat} {o : ColorOrder}
    (hinput : input.encoding.colorOrder = some o) (houtput : output.encoding = .mono8)
    (data : List UInt8) : convertColor input output data = toGray o data := by
  simp [convertColor, houtput, isSwap_mono8, hinput]

/-! ### Pictures of a mosaic -/

/-- Grey by way of any packed encoding is the brightness of the pixels. -/
theorem convertColor_demosaic_to_mono8 {f : VideoFormat} (hf : Mosaicked f) {m : Mosaic}
    (hm : f.encoding.mosaic = some m) {data : List UInt8} (hdata : f.pixels ≤ data.length)
    {packed gray : VideoFormat} (hpacked : packed.encoding ∈ StageDescriptor.packedColors)
    (hgray : gray.encoding = .mono8) :
    convertColor packed gray (demosaic f packed data) =
      (raster f.size (pixelColors m data.toArray f.size)).map luma := by
  obtain ⟨o, ho⟩ := exists_colorOrder hpacked
  calc
    _ = toGray o (demosaic f packed data) := convertColor_to_mono8 ho hgray _
    _ = toGray o ((raster f.size (pixelColors m data.toArray f.size)).flatMap o.write) := by
      rw [demosaic_eq hf hm ho hdata, paint_eq]
    _ = _ := toGray_flatMap_write o _

theorem combined_to_mono8 {f gray : VideoFormat} (hgray : gray.encoding = .mono8)
    (data : List UInt8) :
    combined f gray data =
      convertColor (gray.withEncoding .rgb24) gray (demosaic f (gray.withEncoding .rgb24) data) := by
  have hnone : gray.encoding.colorOrder = none := by
    rw [hgray]
    decide
  simp [combined, hnone]

/-- The two orders of three bytes turn into each other. -/
theorem convertColor_demosaic_of_swap {f : VideoFormat} (hf : Mosaicked f) {data : List UInt8}
    (hdata : f.pixels ≤ data.length) {packed swapped : VideoFormat} {blueFirst : Bool}
    (hpacked : packed.encoding.colorOrder = some ⟨false, blueFirst⟩)
    (hswapped : swapped.encoding.colorOrder = some ⟨false, !blueFirst⟩)
    (hswap : isSwap packed.encoding swapped.encoding = true) :
    convertColor packed swapped (demosaic f packed data) = demosaic f swapped data := by
  obtain ⟨m, hm⟩ := hf.exists_mosaic
  rw [demosaic_eq hf hm hpacked hdata, demosaic_eq hf hm hswapped hdata, paint_eq, paint_eq,
    convertColor, if_pos hswap]
  exact swapRedBlue_flatMap_write blueFirst _

/-- **All ways from a mosaic lead to the same picture.** Grey is what the combined conversion makes
of it, by way of whichever packed encoding, and has one byte a pixel; and of the two orders of three
bytes either is what conversion makes of the other. -/
theorem convertColor_demosaic {f : VideoFormat} (hf : Mosaicked f) {data : List UInt8}
    (hdata : f.pixels ≤ data.length) :
    (∀ packed gray : VideoFormat, packed.encoding ∈ StageDescriptor.packedColors →
      gray.encoding = .mono8 →
        convertColor packed gray (demosaic f packed data) = combined f gray data ∧
          (combined f gray data).length = f.pixels) ∧
    ∀ rgb bgr : VideoFormat, rgb.encoding = .rgb24 → bgr.encoding = .bgr24 →
      convertColor rgb bgr (demosaic f rgb data) = demosaic f bgr data ∧
        convertColor bgr rgb (demosaic f bgr data) = demosaic f rgb data := by
  obtain ⟨m, hm⟩ := hf.exists_mosaic
  refine ⟨?_, ?_⟩
  · intro packed gray hpacked hgray
    have hcombined : combined f gray data =
        (raster f.size (pixelColors m data.toArray f.size)).map luma := by
      rw [combined_to_mono8 hgray]
      exact convertColor_demosaic_to_mono8 hf hm hdata List.mem_cons_self hgray
    refine ⟨?_, ?_⟩
    · rw [convertColor_demosaic_to_mono8 hf hm hdata hpacked hgray, hcombined]
    · rw [hcombined, List.length_map, length_raster, VideoFormat.pixels, Nat.mul_comm]
  · intro rgb bgr hrgb hbgr
    have hred : rgb.encoding.colorOrder = some ⟨false, false⟩ := by
      rw [hrgb]
      rfl
    have hblue : bgr.encoding.colorOrder = some ⟨false, true⟩ := by
      rw [hbgr]
      rfl
    refine ⟨?_, ?_⟩
    · exact convertColor_demosaic_of_swap hf hdata hred hblue (by rw [hrgb, hbgr]; rfl)
    · exact convertColor_demosaic_of_swap hf hdata hblue hred (by rw [hrgb, hbgr]; rfl)

/-- Six samples, and two bytes that no pixel has. -/
def sixAndTwo : List UInt8 := [10, 20, 30, 40, 50, 60, 70, 80]

theorem convertColor_demosaic_oddFrame :
    Mosaicked (oddFrame .grbg8) ∧ (oddFrame .grbg8).pixels ≤ sixAndTwo.length ∧
    combined (oddFrame .grbg8) (oddFrame .mono8) sixAndTwo = [28, 28, 38, 28, 28, 38] ∧
    convertColor (oddFrame .bgra32) (oddFrame .mono8)
        (demosaic (oddFrame .grbg8) (oddFrame .bgra32) sixAndTwo) =
      combined (oddFrame .grbg8) (oddFrame .mono8) sixAndTwo ∧
    convertColor (oddFrame .bgr24) (oddFrame .rgb24)
        (demosaic (oddFrame .grbg8) (oddFrame .bgr24) sixAndTwo) =
      demosaic (oddFrame .grbg8) (oddFrame .rgb24) sixAndTwo := by
  have hf : Mosaicked (oddFrame .grbg8) := ⟨by decide, by decide, by decide⟩
  have hdata : (oddFrame .grbg8).pixels ≤ sixAndTwo.length := by decide
  obtain ⟨hgray, hswap⟩ := convertColor_demosaic hf hdata
  refine ⟨hf, hdata, by decide, ?_, ?_⟩
  · exact (hgray (oddFrame .bgra32) (oddFrame .mono8) (by decide) rfl).1
  · exact (hswap (oddFrame .rgb24) (oddFrame .bgr24) rfl rfl).2

end CameraStream.Pixels
