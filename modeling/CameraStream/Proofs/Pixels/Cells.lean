import CameraStream.Pixels.WhiteBalance
import CameraStream.Proofs.Pixels.Raster

/-!
# Where the colours of a pixel are read

A pixel is given the colours of one cell of two by two sites. It lies in that cell, the cell lies in
the frame, and red, green and blue are read at four different sites of it, which are chosen as if
the cell started at an even column and row. The last cell of an odd dimension does not. There the
site of red is one of green, or of blue where both dimensions are odd (`colors_cellSites`). So
exactly the pixels of a last column or row without a partner are given colours of other sites
(**`trueColors_iff`**).
-/

namespace CameraStream

/-- The colour of the sensor at a column and row. -/
def Mosaic.siteColor (m : Mosaic) (p : Nat × Nat) : SiteColor :=
  if (p.1 % 2, p.2 % 2) = m.redSite then .red
  else if (p.1 % 2, p.2 % 2) = m.blueSite then .blue
  else .green

/-- White balance goes by the same colours. -/
theorem Mosaic.colorAt_eq_siteColor (m : Mosaic) {width x : Nat} (hx : x < width) (y : Nat) :
    m.colorAt width (y * width + x) = m.siteColor (x, y) := by
  have hpos : 0 < width := Nat.zero_lt_of_lt hx
  have hcolumn : (y * width + x) % width = x := by
    rw [Nat.add_comm, Nat.add_mul_mod_self_right, Nat.mod_eq_of_lt hx]
  have hrow : (y * width + x) / width = y := by
    rw [Nat.add_comm, Nat.add_mul_div_right _ _ hpos, Nat.div_eq_of_lt hx, Nat.zero_add]
  simp only [colorAt, siteColor, hcolumn, hrow]

namespace Pixels

/-! ### Cells -/

theorem cellStart_le {n i : Nat} (hn : 2 ≤ n) (hi : i < n) :
    cellStart n i ≤ i ∧ i ≤ cellStart n i + 1 ∧ cellStart n i + 1 < n := by
  unfold cellStart
  omega

/-- Cells start at even coordinates, except for the last one of an odd dimension. -/
theorem even_cellStart_iff {n i : Nat} (hn : 2 ≤ n) (hi : i < n) :
    cellStart n i % 2 = 0 ↔ n % 2 = 0 ∨ i + 1 < n := by
  unfold cellStart
  omega

/-- Whether a place is in the cell of the pixel at a column and row. -/
structure InCell (size : FrameSize) (x y : Nat) (p : Nat × Nat) : Prop where
  column : cellStart size.width x ≤ p.1 ∧ p.1 ≤ cellStart size.width x + 1
  row : cellStart size.height y ≤ p.2 ∧ p.2 ≤ cellStart size.height y + 1

/-- The places, by column and row, at which the colours of a pixel are read. -/
structure Sites where
  red : Nat × Nat
  green : Nat × Nat
  green' : Nat × Nat
  blue : Nat × Nat

namespace Sites

def toList (s : Sites) : List (Nat × Nat) := [s.red, s.green, s.green', s.blue]

def colors (m : Mosaic) (s : Sites) : List SiteColor := s.toList.map m.siteColor

/-- The sites of a cell that starts at a column and row, chosen as if both were even. -/
def ofCell (m : Mosaic) (cx cy : Nat) : Sites where
  red := (cx + m.redSite.1, cy + m.redSite.2)
  green := (cx + (1 - m.redSite.1), cy + m.redSite.2)
  green' := (cx + m.redSite.1, cy + (1 - m.redSite.2))
  blue := (cx + m.blueSite.1, cy + m.blueSite.2)

/-- What stands at the sites that red, green, green and blue are read at, if the cell starts at an
odd column or an odd row. -/
def standing (oddColumn oddRow : Bool) : List SiteColor :=
  match oddColumn, oddRow with
  | false, false => [.red, .green, .green, .blue]
  | true, false => [.green, .red, .blue, .green]
  | false, true => [.green, .blue, .red, .green]
  | true, true => [.blue, .green, .green, .red]

theorem colors_ofCell (m : Mosaic) (cx cy : Nat) :
    (ofCell m cx cy).colors m = standing (cx % 2 == 1) (cy % 2 == 1) := by
  -- Colours go by parity, so the cell may as well start at zero or one.
  have hparity (dx dy : Nat) :
      m.siteColor (cx + dx, cy + dy) = m.siteColor (cx % 2 + dx, cy % 2 + dy) := by
    simp only [Mosaic.siteColor, Nat.mod_add_mod]
  simp only [colors, toList, ofCell, List.map_cons, List.map_nil, hparity]
  rcases Nat.mod_two_eq_zero_or_one cx with hx | hx <;>
    rcases Nat.mod_two_eq_zero_or_one cy with hy | hy <;>
      rw [hx, hy] <;> cases m <;> rfl

theorem inCell_ofCell (m : Mosaic) (size : FrameSize) (x y : Nat) :
    ∀ p ∈ (ofCell m (cellStart size.width x) (cellStart size.height y)).toList,
      InCell size x y p := by
  have hred := m.redSite_le_one
  intro p hp
  simp only [toList, ofCell, Mosaic.blueSite, List.mem_cons, List.not_mem_nil, or_false] at hp
  rcases hp with rfl | rfl | rfl | rfl <;> constructor <;> dsimp only <;> omega

theorem green_ne_green' (m : Mosaic) (cx cy : Nat) :
    (ofCell m cx cy).green ≠ (ofCell m cx cy).green' := by
  have hred := m.redSite_le_one
  simp only [ofCell, ne_eq, Prod.mk.injEq]
  omega

theorem siteColor_red_ofCell_iff (m : Mosaic) (cx cy : Nat) :
    m.siteColor (ofCell m cx cy).red = .red ↔ cx % 2 = 0 ∧ cy % 2 = 0 := by
  have hred : m.siteColor (ofCell m cx cy).red :: _ = standing (cx % 2 == 1) (cy % 2 == 1) :=
    colors_ofCell m cx cy
  rcases Nat.mod_two_eq_zero_or_one cx with hx | hx <;>
    rcases Nat.mod_two_eq_zero_or_one cy with hy | hy <;>
      rw [hx, hy] at hred ⊢ <;> simp [(List.cons.inj hred).1]

end Sites

/-! ### Samples -/

theorem lt_pixels {size : FrameSize} {p : Nat × Nat} (hcolumn : p.1 < size.width)
    (hrow : p.2 < size.height) : p.2 * size.width + p.1 < size.width * size.height := by
  calc
    p.2 * size.width + p.1 < (p.2 + 1) * size.width := by
      rw [Nat.succ_mul]
      omega
    _ ≤ size.height * size.width := Nat.mul_le_mul_right _ hrow
    _ = size.width * size.height := Nat.mul_comm ..

theorem InCell.lt {size : FrameSize} (hwidth : 2 ≤ size.width) (hheight : 2 ≤ size.height)
    {x y : Nat} (hx : x < size.width) (hy : y < size.height) {p : Nat × Nat}
    (hp : InCell size x y p) : p.1 < size.width ∧ p.2 < size.height := by
  have hcolumn := (cellStart_le hwidth hx).2.2
  have hrow := (cellStart_le hheight hy).2.2
  have hpcolumn := hp.column.2
  have hprow := hp.row.2
  omega

/-- A sample of a whole frame is there. -/
theorem getElem?_eq_sampleAt {f : VideoFormat} {data : List UInt8} (hdata : f.pixels ≤ data.length)
    {p : Nat × Nat} (hp : p.1 < f.size.width ∧ p.2 < f.size.height) :
    data[p.2 * f.size.width + p.1]? = some (sampleAt data.toArray f.size.width p.1 p.2) := by
  have hlt : p.2 * f.size.width + p.1 < data.length :=
    Nat.lt_of_lt_of_le (lt_pixels hp.1 hp.2) hdata
  simp [sampleAt, hlt]

theorem toNat_mean (a b : UInt8) : (mean a b).toNat = (a.toNat + b.toNat) / 2 := by
  have ha := a.toNat_lt
  have hb := b.toNat_lt
  rw [mean, UInt8.toNat_ofNat']
  omega

/-- The colours of a pixel are the samples at four places: red, blue, and of the two greens the
mean. -/
structure ReadFrom (f : VideoFormat) (data : List UInt8) (s : Sites) (c : Rgb) : Prop where
  red : data[s.red.2 * f.size.width + s.red.1]? = some c.r
  green : ∃ a b, data[s.green.2 * f.size.width + s.green.1]? = some a ∧
    data[s.green'.2 * f.size.width + s.green'.1]? = some b ∧ c.g.toNat = (a.toNat + b.toNat) / 2
  blue : data[s.blue.2 * f.size.width + s.blue.1]? = some c.b

/-- Every colour of a pixel is read at sites of that colour, in the cell of the pixel. -/
def TrueColors (m : Mosaic) (f : VideoFormat) (data : List UInt8) (x y : Nat) (c : Rgb) : Prop :=
  ∃ s : Sites, (∀ p ∈ s.toList, InCell f.size x y p) ∧ s.green ≠ s.green' ∧
    s.colors m = [.red, .green, .green, .blue] ∧ ReadFrom f data s c

/-! ### Pixels -/

section

variable {f : VideoFormat} (hf : Mosaicked f) {m : Mosaic} {x y : Nat} (hx : x < f.size.width)
  (hy : y < f.size.height)

include hf hx hy in
theorem readFrom_pixelColors {data : List UInt8} (hdata : f.pixels ≤ data.length) :
    ReadFrom f data (.ofCell m (cellStart f.size.width x) (cellStart f.size.height y))
      (pixelColors m data.toArray f.size x y) := by
  have hin := Sites.inCell_ofCell m f.size x y
  simp only [Sites.toList, List.forall_mem_cons] at hin
  obtain ⟨hred, hgreen, hgreen', hblue, -⟩ := hin
  exact {
    red := getElem?_eq_sampleAt hdata (hred.lt hf.width hf.height hx hy)
    green := ⟨_, _, getElem?_eq_sampleAt hdata (hgreen.lt hf.width hf.height hx hy),
      getElem?_eq_sampleAt hdata (hgreen'.lt hf.width hf.height hx hy), toNat_mean ..⟩
    blue := getElem?_eq_sampleAt hdata (hblue.lt hf.width hf.height hx hy) }

include hf hx hy in
/-- The bytes of a pixel are its colours, read in its cell. -/
theorem pixelAt_demosaic (hm : f.encoding.mosaic = some m) {output : VideoFormat} {o : ColorOrder}
    (ho : output.encoding.colorOrder = some o) {data : List UInt8} (hdata : f.pixels ≤ data.length) :
    ∃ c, pixelAt o f.size (demosaic f output data) x y = o.write c ∧
      ReadFrom f data (.ofCell m (cellStart f.size.width x) (cellStart f.size.height y)) c := by
  refine ⟨_, ?_, readFrom_pixelColors hf hx hy hdata⟩
  rw [demosaic_eq hf hm ho hdata]
  exact pixelAt_paint o f.size _ hx hy

include hf hx hy in
/-- A pixel whose cell starts at an even column and row has true colours. -/
theorem trueColors_of_even {data : List UInt8} {c : Rgb}
    (hread : ReadFrom f data (.ofCell m (cellStart f.size.width x) (cellStart f.size.height y)) c)
    (hcolumn : f.size.width % 2 = 0 ∨ x + 1 < f.size.width)
    (hrow : f.size.height % 2 = 0 ∨ y + 1 < f.size.height) : TrueColors m f data x y c := by
  refine ⟨_, Sites.inCell_ofCell m f.size x y, Sites.green_ne_green' m _ _, ?_, hread⟩
  rw [Sites.colors_ofCell, (even_cellStart_iff hf.width hx).mpr hcolumn,
    (even_cellStart_iff hf.height hy).mpr hrow]
  rfl

/-- A frame that is full at the sites of red, and empty elsewhere. -/
def allRed (m : Mosaic) (f : VideoFormat) : List UInt8 :=
  (List.range f.pixels).map fun i => if m.colorAt f.size.width i = .red then 255 else 0

theorem getElem?_allRed (m : Mosaic) {p : Nat × Nat}
    (hp : p.1 < f.size.width ∧ p.2 < f.size.height) :
    (allRed m f)[p.2 * f.size.width + p.1]? = some (if m.siteColor p = .red then 255 else 0) := by
  have hlt : p.2 * f.size.width + p.1 < f.pixels := lt_pixels hp.1 hp.2
  rw [allRed, List.getElem?_map, List.getElem?_range hlt, Option.map_some,
    m.colorAt_eq_siteColor hp.1]

include hf hx hy in
/-- Of a frame that is full at the sites of red, only pixels whose red is read at one have true
colours. -/
theorem red_of_trueColors_allRed {c c' : Rgb} {s : Sites} (hs : InCell f.size x y s.red)
    (hread : ReadFrom f (allRed m f) s c) (htrue : TrueColors m f (allRed m f) x y c')
    (hc : c = c') : m.siteColor s.red = .red := by
  obtain ⟨t, hin, -, hcolors, ht⟩ := htrue
  have hred : m.siteColor t.red = .red := (List.cons.inj hcolors).1
  have hfull : some (if m.siteColor t.red = .red then 255 else 0) = some c'.r :=
    (getElem?_allRed m ((hin _ List.mem_cons_self).lt hf.width hf.height hx hy)).symm.trans ht.red
  have hsame : some (if m.siteColor s.red = .red then 255 else 0) = some c.r :=
    (getElem?_allRed m (hs.lt hf.width hf.height hx hy)).symm.trans hread.red
  rw [hc, ← hfull, if_pos hred, Option.some.injEq] at hsame
  split at hsame
  · next hs => exact hs
  · exact absurd hsame (by decide)

theorem write_injective (o : ColorOrder) {c c' : Rgb} (h : o.write c = o.write c') : c = c' := by
  obtain ⟨padded, blueFirst⟩ := o
  cases c
  cases c'
  cases padded <;> cases blueFirst <;> simp_all [ColorOrder.write]

include hf hx hy in
/-- **Where colours are true.** A pixel is in its cell, the cell is in the frame, and its colours
are read at four sites of it; in a cell that starts at an odd column or row these are not the sites
they are taken for. So a pixel has true colours in every frame exactly if it is not in a last column
or row without a partner. -/
theorem trueColors_iff (hm : f.encoding.mosaic = some m) {output : VideoFormat} {o : ColorOrder}
    (ho : output.encoding.colorOrder = some o) :
    let cx := cellStart f.size.width x
    let cy := cellStart f.size.height y
    InCell f.size x y (x, y) ∧ cx + 1 < f.size.width ∧ cy + 1 < f.size.height ∧
    (∀ p ∈ (Sites.ofCell m cx cy).toList, InCell f.size x y p) ∧
    (Sites.ofCell m cx cy).colors m = Sites.standing (cx % 2 == 1) (cy % 2 == 1) ∧
    (∀ data, f.pixels ≤ data.length →
      ∃ c, pixelAt o f.size (demosaic f output data) x y = o.write c ∧
        ReadFrom f data (.ofCell m cx cy) c) ∧
    ((∀ data, f.pixels ≤ data.length →
      ∃ c, pixelAt o f.size (demosaic f output data) x y = o.write c ∧ TrueColors m f data x y c) ↔
      (f.size.width % 2 = 0 ∨ x + 1 < f.size.width) ∧
        (f.size.height % 2 = 0 ∨ y + 1 < f.size.height)) := by
  intro cx cy
  obtain ⟨hleft, hright, hwidth⟩ := cellStart_le hf.width hx
  obtain ⟨habove, hbelow, hheight⟩ := cellStart_le hf.height hy
  have hin := Sites.inCell_ofCell m f.size x y
  have hread := fun (data : List UInt8) (hdata : f.pixels ≤ data.length) =>
    pixelAt_demosaic hf hx hy hm ho hdata
  refine ⟨⟨⟨hleft, hright⟩, ⟨habove, hbelow⟩⟩, hwidth, hheight, hin, Sites.colors_ofCell m cx cy,
    hread, ?_, ?_⟩
  · intro htrue
    have hall : f.pixels ≤ (allRed m f).length := by simp [allRed]
    obtain ⟨c, hc, hfrom⟩ := hread _ hall
    obtain ⟨c', hc', hcolors⟩ := htrue _ hall
    have hred := red_of_trueColors_allRed hf hx hy (hin _ List.mem_cons_self) hfrom hcolors
      (write_injective o (hc.symm.trans hc'))
    rw [Sites.siteColor_red_ofCell_iff] at hred
    exact ⟨(even_cellStart_iff hf.width hx).mp hred.1, (even_cellStart_iff hf.height hy).mp hred.2⟩
  · rintro ⟨hcolumn, hrow⟩ data hdata
    obtain ⟨c, hc, hfrom⟩ := hread data hdata
    exact ⟨c, hc, trueColors_of_even hf hx hy hfrom hcolumn hrow⟩

end

/-- In the last column of a frame of odd width red comes from a site of green. -/
theorem trueColors_oddFrame :
    Mosaicked (oddFrame .rggb8) ∧
    demosaic (oddFrame .rggb8) (oddFrame .rgb24) [10, 20, 30, 40, 50, 60] =
      [10, 30, 50, 10, 30, 50, 20, 40, 60, 10, 30, 50, 10, 30, 50, 20, 40, 60] ∧
    (Sites.ofCell .rggb 1 0).colors .rggb = [.green, .red, .blue, .green] ∧
    ¬ ∀ data, (oddFrame .rggb8).pixels ≤ data.length →
      ∃ c, pixelAt ⟨false, false⟩ (oddFrame .rggb8).size
          (demosaic (oddFrame .rggb8) (oddFrame .rgb24) data) 2 0 =
          (ColorOrder.mk false false).write c ∧
        TrueColors .rggb (oddFrame .rggb8) data 2 0 c := by
  have hf : Mosaicked (oddFrame .rggb8) := ⟨by decide, by decide, by decide⟩
  have ho : (oddFrame .rgb24).encoding.colorOrder = some ⟨false, false⟩ := rfl
  obtain ⟨-, -, -, -, hcolors, -, htrue⟩ := trueColors_iff hf (x := 2) (y := 0) (by decide)
    (by decide) (m := .rggb) rfl ho
  refine ⟨hf, by decide, hcolors, ?_⟩
  rw [htrue]
  decide

end Pixels
end CameraStream
