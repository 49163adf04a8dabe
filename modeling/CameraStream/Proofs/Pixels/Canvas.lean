import CameraStream.Proofs.Arithmetic
import CameraStream.Proofs.Pixels.Cells
import Mathlib.Data.List.Nodup

/-!
# Pictures painted in place

`Pixels.demosaic` lists the bytes of a picture. `Canvas.demosaic?` paints it, as a machine does: a
canvas of full bytes is gone over row by row, and for every pixel it is computed in words of 64 bits
where its samples are and where its colours belong. There is no result as soon as a number does not
fit, a difference would be negative, or a sample or a place on the canvas is not there. None of this
ever happens, and what is painted is the picture (**`Canvas.demosaic?_spec`**). That there is memory
for the canvas, of at most four bytes for each of the payload, is taken for granted.

Pixels are put in place in the order of the picture, hence what each of them preserves is that the
picture is there up to it and the canvas is blank from there on (`Canvas.Painted`).
-/

namespace CameraStream

/-- Sizes whose width and height are unsigned words of 32 bits. -/
structure FrameSize.InWords (s : FrameSize) : Prop where
  width : s.width < 2 ^ 32
  height : s.height < 2 ^ 32

namespace ColorOrder

/-- The colours of a pixel, without what follows them. -/
def colors (o : ColorOrder) (c : Rgb) : List UInt8 :=
  if o.blueFirst then [c.b, c.g, c.r] else [c.r, c.g, c.b]

/-- What follows the colours of a pixel. -/
def padding (o : ColorOrder) : List UInt8 := if o.padded then [0xff] else []

theorem write_eq (o : ColorOrder) (c : Rgb) : o.write c = o.colors c ++ o.padding := rfl

theorem length_colors (o : ColorOrder) (c : Rgb) : (o.colors c).length = 3 := by
  unfold colors
  split <;> rfl

theorem replicate_channels (o : ColorOrder) :
    List.replicate o.channels 0xff = List.replicate 3 0xff ++ o.padding := by
  unfold channels padding
  split <;> rfl

theorem channels_bounds (o : ColorOrder) : 3 ≤ o.channels ∧ o.channels ≤ 4 := by
  unfold channels
  split <;> omega

end ColorOrder

/-- A picture in the making: its bytes, and the places at which pixels were put, in the order in
which they were. -/
structure Canvas where
  bytes : List UInt8
  puts : List Nat
deriving DecidableEq, Repr

namespace Canvas

open Word Pixels

/-! ### The computation -/

def blank (size : Nat) : Canvas := ⟨List.replicate size 0xff, []⟩

/-- Puts a pixel in the place of as many bytes, if they are all there. -/
def put? (c : Canvas) (place : Nat) (pixel : List UInt8) : Option Canvas :=
  if place + pixel.length ≤ c.bytes.length then
    some ⟨c.bytes.take place ++ pixel ++ c.bytes.drop (place + pixel.length), c.puts ++ [place]⟩
  else none

def cellStart? (n i : Nat) : Option Nat := do
  return min (i - i % 2) (← sub? n 2)

/-- The sample at a site of the cell that starts at a column and row. -/
def sample? (data : List UInt8) (width cx cy dx dy : Nat) : Option UInt8 := do
  let line ← mul? (← add? cy dy) width
  data[← add? (← add? line cx) dx]?

/-- The mean of two samples, by way of a sum of 16 bits. -/
def mean? (a b : UInt8) : Option UInt8 := do
  let sum ← fit? 16 (a.toNat + b.toNat)
  return UInt8.ofNat (← fit? 8 (sum / 2))

def cellColors? (m : Mosaic) (data : List UInt8) (width cx cy : Nat) : Option Rgb := do
  let (rx, ry) := m.redSite
  let bx ← sub? 1 rx
  let by_ ← sub? 1 ry
  let red ← sample? data width cx cy rx ry
  let blue ← sample? data width cx cy bx by_
  let green ← sample? data width cx cy (← sub? 1 rx) ry
  let green' ← sample? data width cx cy rx (← sub? 1 ry)
  return ⟨red, ← mean? green green', blue⟩

section

variable (m : Mosaic) (o : ColorOrder) (size : FrameSize) (data : List UInt8)

/-- Puts the pixel at column `x` of row `y` in place. Cells of that row start at row `cy`. -/
def paintPixel? (y cy : Nat) (c : Canvas) (x : Nat) : Option Canvas := do
  let cx ← cellStart? size.width x
  let color ← cellColors? m data size.width cx cy
  let pixel ← add? (← mul? y size.width) x
  c.put? (← mul? pixel o.channels) (o.colors color)

def paintRow? (c : Canvas) (y : Nat) : Option Canvas := do
  let cy ← cellStart? size.height y
  (List.range size.width).foldlM (paintPixel? m o size data y cy) c

def paint? (c : Canvas) : Option Canvas :=
  (List.range size.height).foldlM (paintRow? m o size data) c

end

/-- What takes the place of a payload: a painted canvas, or nothing if the payload stays. -/
def demosaic? (input output : VideoFormat) (data : List UInt8) : Option (Option Canvas) :=
  match input.encoding.mosaic with
  | none => some none
  | some m => do
    let pixels ← mul? input.size.width input.size.height
    if data.length < pixels ∨ input.size.width < 2 ∨ input.size.height < 2 then return none
    match output.encoding.colorOrder with
    | none => return none
    | some o =>
      let size ← mul? pixels o.channels
      return some (← paint? m o input.size data (blank size))

/-! ### Loops -/

/-- What every step of a loop preserves, a whole run does. -/
theorem exists_foldlM_range {σ : Type} {step : σ → Nat → Option σ} {P : Nat → σ → Prop} {n : Nat}
    {s : σ} (hzero : P 0 s) (hstep : ∀ i < n, ∀ s, P i s → ∃ t, step s i = some t ∧ P (i + 1) t) :
    ∃ t, (List.range n).foldlM step s = some t ∧ P n t := by
  induction n with
  | zero => exact ⟨s, rfl, hzero⟩
  | succ n ih =>
    obtain ⟨t, hrun, ht⟩ := ih fun i hi => hstep i (by omega)
    obtain ⟨u, hlast, hu⟩ := hstep n (by omega) t ht
    refine ⟨u, ?_, hu⟩
    rw [List.range_succ, List.foldlM_append, hrun]
    simpa using hlast

/-- The first pixels of a picture are in place, each put there once, and the rest is blank. -/
structure Painted (o : ColorOrder) (picture : List Rgb) (k : Nat) (c : Canvas) : Prop where
  bytes : c.bytes = (picture.take k).flatMap o.write ++
    List.replicate ((picture.length - k) * o.channels) 0xff
  puts : c.puts = (List.range k).map (· * o.channels)

theorem length_flatMap_write (o : ColorOrder) (picture : List Rgb) :
    (picture.flatMap o.write).length = picture.length * o.channels := by
  simp [List.length_flatMap, o.length_write]

theorem put?_eq {c : Canvas} {before old rest pixel : List UInt8}
    (hbytes : c.bytes = before ++ old ++ rest) (hold : old.length = pixel.length) :
    c.put? before.length pixel = some ⟨before ++ pixel ++ rest, c.puts ++ [before.length]⟩ := by
  have hroom : before.length + pixel.length ≤ c.bytes.length := by
    simp only [hbytes, List.length_append]
    omega
  have hrest : c.bytes.drop (before.length + pixel.length) = rest := by
    rw [hbytes, ← hold, ← List.length_append, List.drop_left]
  have hbefore : c.bytes.take before.length = before := by
    rw [hbytes, List.append_assoc, List.take_left]
  rw [put?, if_pos hroom, hbefore, hrest]

section

variable {o : ColorOrder} {picture : List Rgb} {k : Nat} {c : Canvas}

theorem painted_blank (o : ColorOrder) (picture : List Rgb) :
    Painted o picture 0 (blank (picture.length * o.channels)) where
  bytes := by simp [blank]
  puts := rfl

/-- The next pixel finds its place. -/
theorem Painted.put (hc : Painted o picture k c) {color : Rgb} (hcolor : picture[k]? = some color) :
    ∃ c', c.put? (k * o.channels) (o.colors color) = some c' ∧ Painted o picture (k + 1) c' := by
  obtain ⟨hlt, -⟩ := List.getElem?_eq_some_iff.mp hcolor
  have hplace : ((picture.take k).flatMap o.write).length = k * o.channels := by
    rw [length_flatMap_write, List.length_take, Nat.min_eq_left (Nat.le_of_lt hlt)]
  have hrest : (picture.length - k) * o.channels =
      o.channels + (picture.length - (k + 1)) * o.channels := by
    rw [show picture.length - k = picture.length - (k + 1) + 1 by omega, Nat.succ_mul, Nat.add_comm]
  -- What is blank starts with three bytes for the colours and, as it will stay, the padding.
  have hbytes : c.bytes = (picture.take k).flatMap o.write ++ List.replicate 3 0xff ++
      (o.padding ++ List.replicate ((picture.length - (k + 1)) * o.channels) 0xff) := by
    rw [hc.bytes, hrest, List.replicate_add, o.replicate_channels]
    simp only [List.append_assoc]
  have hput := put?_eq hbytes (List.length_replicate.trans (o.length_colors color).symm)
  rw [hplace] at hput
  refine ⟨_, hput, ?_, ?_⟩
  · simp [List.take_add_one, hcolor, o.write_eq]
  · simp [hc.puts, List.range_succ]

theorem Painted.mem_puts_iff (hc : Painted o picture k c) {place : Nat} :
    place ∈ c.puts ↔ ∃ i < k, i * o.channels = place := by
  rw [hc.puts, List.mem_map]
  simp only [List.mem_range]

theorem Painted.nodup_puts (hc : Painted o picture k c) : c.puts.Nodup := by
  have hchannels := o.channels_bounds.1
  rw [hc.puts]
  exact List.nodup_range.map fun i j => Nat.eq_of_mul_eq_mul_right (by omega)

end

/-! ### Nothing is out of bounds -/

/-- Formats and payloads of which demosaicing makes a picture. -/
structure Paintable (m : Mosaic) (o : ColorOrder) (input output : VideoFormat)
    (data : List UInt8) : Prop where
  mosaic : input.encoding.mosaic = some m
  order : output.encoding.colorOrder = some o
  whole : input.pixels ≤ data.length
  width : 2 ≤ input.size.width
  height : 2 ≤ input.size.height

/-- The pixels of the picture of a payload. -/
abbrev picture (m : Mosaic) (input : VideoFormat) (data : List UInt8) : List Rgb :=
  raster input.size (pixelColors m data.toArray input.size)

theorem Paintable.of_large {m : Mosaic} {o : ColorOrder} {input output : VideoFormat}
    {data : List UInt8} (hm : input.encoding.mosaic = some m)
    (ho : output.encoding.colorOrder = some o)
    (h : ¬(data.length < input.pixels ∨ input.size.width < 2 ∨ input.size.height < 2)) :
    Paintable m o input output data := by
  simp only [not_or, Nat.not_lt] at h
  exact ⟨hm, ho, h.1, h.2.1, h.2.2⟩

theorem cellStart?_eq {n : Nat} (hn : 2 ≤ n) (i : Nat) : cellStart? n i = some (cellStart n i) := by
  simp [cellStart?, sub?_eq hn, cellStart]

theorem mean?_eq (a b : UInt8) : mean? a b = some (mean a b) := by
  have ha := a.toNat_lt
  have hb := b.toNat_lt
  have hsum : fit? 16 (a.toNat + b.toNat) = some (a.toNat + b.toNat) := fit?_eq (by omega)
  have hhalf : fit? 8 ((a.toNat + b.toNat) / 2) = some ((a.toNat + b.toNat) / 2) :=
    fit?_eq (by omega)
  simp [mean?, hsum, hhalf, mean]

section

variable {m : Mosaic} {o : ColorOrder} {input output : VideoFormat} {data : List UInt8}
  (h : Paintable m o input output data) (hdata : data.length < 2 ^ 62)

include h hdata

theorem sample?_eq {cx cy dx dy : Nat}
    (hp : cx + dx < input.size.width ∧ cy + dy < input.size.height) :
    sample? data input.size.width cx cy dx dy =
      some (sampleAt data.toArray input.size.width (cx + dx) (cy + dy)) := by
  have hfound := getElem?_eq_sampleAt h.whole (p := (cx + dx, cy + dy)) hp
  have hindex : (cy + dy) * input.size.width + (cx + dx) < input.pixels :=
    lt_pixels (p := (cx + dx, cy + dy)) hp.1 hp.2
  have hrow : input.size.height ≤ input.pixels :=
    Nat.le_mul_of_pos_left _ (Nat.lt_of_lt_of_le Nat.zero_lt_two h.width)
  have hwhole := h.whole
  simp only [sample?, Option.bind_eq_bind, add?_eq (show cy + dy < 2 ^ 64 by omega),
    Option.bind_some, mul?_eq (show (cy + dy) * input.size.width < 2 ^ 64 by omega),
    add?_eq (show (cy + dy) * input.size.width + cx < 2 ^ 64 by omega),
    add?_eq (show (cy + dy) * input.size.width + cx + dx < 2 ^ 64 by omega)]
  rw [Nat.add_assoc]
  exact hfound

theorem cellColors?_eq {x y : Nat} (hx : x < input.size.width) (hy : y < input.size.height) :
    cellColors? m data input.size.width (cellStart input.size.width x)
        (cellStart input.size.height y) =
      some (pixelColors m data.toArray input.size x y) := by
  have hsample {dx dy : Nat} (hp : InCell input.size x y
      (cellStart input.size.width x + dx, cellStart input.size.height y + dy)) :=
    sample?_eq h hdata (hp.lt h.width h.height hx hy)
  have hin := Sites.inCell_ofCell m input.size x y
  simp only [Sites.toList, Sites.ofCell, Mosaic.blueSite, List.forall_mem_cons] at hin
  obtain ⟨hred, hgreen, hgreen', hblue, -⟩ := hin
  have hsite := m.redSite_le_one
  simp only [cellColors?, sub?_eq hsite.1, sub?_eq hsite.2, hsample hred, hsample hgreen,
    hsample hgreen', hsample hblue, mean?_eq, Option.bind_eq_bind, Option.bind_some]
  rfl

theorem exists_paintPixel? {x y : Nat} (hx : x < input.size.width) (hy : y < input.size.height)
    {c : Canvas} (hc : Painted o (picture m input data) (y * input.size.width + x) c) :
    ∃ c', paintPixel? m o input.size data y (cellStart input.size.height y) c x = some c' ∧
      Painted o (picture m input data) (y * input.size.width + (x + 1)) c' := by
  have hindex : y * input.size.width + x < input.pixels := lt_pixels (p := (x, y)) hx hy
  have hwhole := h.whole
  have hplace : (y * input.size.width + x) * o.channels < 2 ^ 64 := by
    have hchannels := Nat.mul_le_mul_left (y * input.size.width + x) o.channels_bounds.2
    omega
  obtain ⟨c', hput, hc'⟩ := hc.put (getElem?_raster input.size _ hx hy)
  refine ⟨c', ?_, hc'⟩
  simp only [paintPixel?, cellStart?_eq h.width, cellColors?_eq h hdata hx hy, Option.bind_eq_bind,
    Option.bind_some, mul?_eq (show y * input.size.width < 2 ^ 64 by omega),
    add?_eq (show y * input.size.width + x < 2 ^ 64 by omega), mul?_eq hplace]
  exact hput

theorem exists_paintRow? {y : Nat} (hy : y < input.size.height) {c : Canvas}
    (hc : Painted o (picture m input data) (y * input.size.width) c) :
    ∃ c', paintRow? m o input.size data c y = some c' ∧
      Painted o (picture m input data) ((y + 1) * input.size.width) c' := by
  simp only [paintRow?, cellStart?_eq h.height, Option.bind_eq_bind, Option.bind_some,
    Nat.succ_mul]
  exact exists_foldlM_range (P := fun x => Painted o _ (y * input.size.width + x)) hc
    fun x hx _ hpainted => exists_paintPixel? h hdata hx hy hpainted

theorem exists_paint? :
    ∃ c, paint? m o input.size data (blank (input.pixels * o.channels)) = some c ∧
      Painted o (picture m input data) (input.size.height * input.size.width) c := by
  have hblank := painted_blank o (picture m input data)
  rw [length_raster, Nat.mul_comm input.size.height] at hblank
  refine exists_foldlM_range (P := fun y => Painted o _ (y * input.size.width)) ?_
    fun y hy _ hpainted => exists_paintRow? h hdata hy hpainted
  rwa [Nat.zero_mul]

end

/-! ### Whole pictures -/

/-- Canvases on which every pixel was put in place once, and nothing else anywhere. A fourth byte of
a pixel is full. -/
structure Complete (o : ColorOrder) (size : FrameSize) (c : Canvas) : Prop where
  length : c.bytes.length = size.width * size.height * o.channels
  inside : ∀ place ∈ c.puts, place + 3 ≤ c.bytes.length
  once : ∀ x < size.width, ∀ y < size.height,
    c.puts.count ((y * size.width + x) * o.channels) = 1
  only : ∀ place ∈ c.puts, ∃ x < size.width, ∃ y < size.height,
    place = (y * size.width + x) * o.channels
  full : o.padded → ∀ x < size.width, ∀ y < size.height,
    c.bytes[(y * size.width + x) * o.channels + 3]? = some 0xff

section

variable {o : ColorOrder} {size : FrameSize} {color : Nat → Nat → Rgb} {c : Canvas}

theorem getElem?_paint_of_padded (ho : o.padded) {x y : Nat} (hx : x < size.width)
    (hy : y < size.height) :
    (paint o size color)[(y * size.width + x) * o.channels + 3]? = some 0xff := by
  have hchannels : o.channels = 4 := if_pos ho
  have hlast : (o.write (color x y))[3]? = some 0xff := by
    rw [o.write_eq, List.getElem?_append_right (Nat.le_of_eq (o.length_colors _)), o.length_colors,
      ColorOrder.padding, if_pos ho]
    rfl
  have hpixel := pixelAt_paint o size color hx hy
  rwa [← hpixel, pixelAt, List.getElem?_take_of_lt (by omega), List.getElem?_drop] at hlast

theorem Painted.bytes_eq_paint
    (hc : Painted o (raster size color) (size.height * size.width) c) :
    c.bytes = paint o size color := by
  have hall := length_raster size color
  rw [hc.bytes, paint_eq, hall, List.take_of_length_le (Nat.le_of_eq hall), Nat.sub_self,
    Nat.zero_mul, List.replicate_zero, List.append_nil]

theorem Painted.complete (hc : Painted o (raster size color) (size.height * size.width) c) :
    Complete o size c := by
  have hlength : c.bytes.length = size.width * size.height * o.channels := by
    rw [hc.bytes_eq_paint, paint_eq, length_flatMap_write, length_raster,
      Nat.mul_comm size.height]
  refine ⟨hlength, ?_, ?_, ?_, ?_⟩
  · intro place hplace
    obtain ⟨i, hi, rfl⟩ := hc.mem_puts_iff.mp hplace
    calc
      i * o.channels + 3 ≤ (i + 1) * o.channels := by
        rw [Nat.succ_mul]
        exact Nat.add_le_add_left o.channels_bounds.1 _
      _ ≤ size.height * size.width * o.channels := Nat.mul_le_mul_right _ hi
      _ = c.bytes.length := by rw [hlength, Nat.mul_comm size.height]
  · intro x hx y hy
    have hlt : y * size.width + x < size.width * size.height := lt_pixels (p := (x, y)) hx hy
    exact List.count_eq_one_of_mem hc.nodup_puts
      (hc.mem_puts_iff.mpr ⟨_, by rwa [Nat.mul_comm size.height], rfl⟩)
  · intro place hplace
    obtain ⟨i, hi, rfl⟩ := hc.mem_puts_iff.mp hplace
    have hwidth : 0 < size.width := Nat.pos_of_ne_zero fun hzero => by simp [hzero] at hi
    refine ⟨i % size.width, Nat.mod_lt _ hwidth, i / size.width,
      Nat.div_lt_of_lt_mul (by rwa [Nat.mul_comm]), ?_⟩
    rw [Nat.div_add_mod']
  · intro ho x hx y hy
    rw [hc.bytes_eq_paint]
    exact getElem?_paint_of_padded ho hx hy

end

section

variable {input output : VideoFormat} {data : List UInt8}

theorem demosaic_eq_self (h : ∀ m o, ¬Paintable m o input output data) :
    demosaic input output data = data := by
  unfold demosaic
  split
  · next m o hm ho =>
    split
    · rfl
    · next hlarge => exact absurd (.of_large hm ho hlarge) (h m o)
  · rfl

theorem demosaic?_eq_none (hinput : input.size.InWords)
    (h : ∀ m o, ¬Paintable m o input output data) : demosaic? input output data = some none := by
  have hpixels : input.size.width * input.size.height < 2 ^ 64 := by
    calc
      input.size.width * input.size.height < 2 ^ 32 * 2 ^ 32 :=
        Nat.mul_lt_mul'' hinput.width hinput.height
      _ = 2 ^ 64 := by decide
  unfold demosaic?
  split
  · rfl
  · next m hm =>
    simp only [mul?_eq hpixels, Option.bind_eq_bind, Option.bind_some]
    split
    · rfl
    · next hlarge =>
      split
      · rfl
      · next o ho => exact absurd (.of_large hm ho hlarge) (h m o)

theorem exists_demosaic? {m : Mosaic} {o : ColorOrder} (h : Paintable m o input output data)
    (hdata : data.length < 2 ^ 62) :
    ∃ c, demosaic? input output data = some (some c) ∧
      Painted o (picture m input data) (input.size.height * input.size.width) c := by
  obtain ⟨hmosaic, horder, hwhole, hwidth, hheight⟩ := id h
  have hpixels : mul? input.size.width input.size.height = some input.pixels :=
    mul?_eq (show input.pixels < 2 ^ 64 by omega)
  have hsize : mul? input.pixels o.channels = some (input.pixels * o.channels) := by
    have hchannels := Nat.mul_le_mul_left input.pixels o.channels_bounds.2
    exact mul?_eq (by omega)
  have hlarge : ¬(data.length < input.pixels ∨ input.size.width < 2 ∨ input.size.height < 2) := by
    omega
  obtain ⟨c, hpaint, hc⟩ := exists_paint? h hdata
  refine ⟨c, ?_, hc⟩
  simp only [demosaic?, hmosaic, horder, hpixels, hsize, if_neg hlarge, hpaint,
    Option.bind_eq_bind, Option.bind_some]
  rfl

/-- What becomes of a payload: it stays as it is, or a whole picture takes its place, for which all
samples that are read are there. -/
inductive Outcome (input output : VideoFormat) (data : List UInt8) : Option Canvas → Prop
  | stays (impossible : ∀ m o, ¬Paintable m o input output data)
      (same : demosaic input output data = data) : Outcome input output data none
  | painted {m o c} (possible : Paintable m o input output data)
      (samples : ∀ x < input.size.width, ∀ y < input.size.height,
        ∀ p ∈ (Sites.ofCell m (cellStart input.size.width x) (cellStart input.size.height y)).toList,
          p.2 * input.size.width + p.1 < data.length)
      (bytes : c.bytes = demosaic input output data) (complete : Complete o input.size c) :
      Outcome input output data (some c)

/-- **Demosaicing can be done in words**, whatever the formats are and for payloads of less than
2^62 bytes. No number is too large, no difference negative, no sample and no place out of bounds.
Either the payload stays, or every pixel of the picture is put in place once, and the bytes are
those that demosaicing lists. -/
theorem demosaic?_spec (hinput : input.size.InWords) (output : VideoFormat)
    (hdata : data.length < 2 ^ 62) :
    ∃ result, demosaic? input output data = some result ∧ Outcome input output data result := by
  by_cases h : ∃ m o, Paintable m o input output data
  · obtain ⟨m, o, h⟩ := h
    obtain ⟨c, hrun, hc⟩ := exists_demosaic? h hdata
    refine ⟨some c, hrun, .painted h ?_ ?_ hc.complete⟩
    · intro x hx y hy p hp
      have hin := (Sites.inCell_ofCell m input.size x y p hp).lt h.width h.height hx hy
      exact Nat.lt_of_lt_of_le (lt_pixels hin.1 hin.2) h.whole
    · rw [hc.bytes_eq_paint, demosaic_of_whole h.mosaic h.order h.whole h.width h.height]
  · have hnone : ∀ m o, ¬Paintable m o input output data := fun m o hpaint => h ⟨m, o, hpaint⟩
    exact ⟨none, demosaic?_eq_none hinput hnone, .stays hnone (demosaic_eq_self hnone)⟩

end

/-- The samples of three columns and two rows. -/
def sixSamples : List UInt8 := [10, 20, 30, 40, 50, 60]

/-- Their picture in pixels of four bytes. -/
def sixPainted : Canvas where
  bytes := [40, 30, 20, 255, 40, 30, 20, 255, 50, 40, 30, 255,
    40, 30, 20, 255, 40, 30, 20, 255, 50, 40, 30, 255]
  puts := [0, 4, 8, 12, 16, 20]

theorem demosaic?_sixSamples :
    (oddFrame .grbg8).size.InWords ∧ sixSamples.length < 2 ^ 62 ∧
    demosaic? (oddFrame .grbg8) (oddFrame .bgra32) sixSamples = some (some sixPainted) ∧
    Outcome (oddFrame .grbg8) (oddFrame .bgra32) sixSamples (some sixPainted) := by
  have hinput : (oddFrame .grbg8).size.InWords := ⟨by decide, by decide⟩
  have hdata : sixSamples.length < 2 ^ 62 := by decide
  have hpainted : demosaic? (oddFrame .grbg8) (oddFrame .bgra32) sixSamples =
      some (some sixPainted) := by decide
  obtain ⟨result, hrun, houtcome⟩ := demosaic?_spec hinput (oddFrame .bgra32) hdata
  rw [hpainted, Option.some.injEq] at hrun
  exact ⟨hinput, hdata, hpainted, hrun ▸ houtcome⟩

end Canvas
end CameraStream
