import CameraStream.Proofs.Pixels.Cells
import CameraStream.Stage.Instance

/-!
# Samples that are there

Demosaicing looks samples up by their number, in payloads of any length. Where there is no sample of
that number, the lookup of `sampleAt` makes one up. `demosaic?` is the same conversion without that
help: it fails as soon as a sample is missing. But it never does, whatever the formats and the
payload are (**`demosaic?_eq`**): a payload short of a frame is not looked into, and the cell of a
pixel is in the frame. So no sample is ever made up.

The other kernels take a payload apart from its front and have nothing to look up. `Kernel.checked`
has each kernel of the library side by side with what it is when nothing is made up.
-/

namespace CameraStream

/-- A kernel that may fail to find a sample. -/
abbrev CheckedKernel := VideoFormat → VideoFormat → List UInt8 → Option (List UInt8)

namespace Pixels

/-! ### Looking samples up -/

/-- The colours of the cell that starts at a column and row, if all of its samples are there. -/
def cellColors? (m : Mosaic) (src : Array UInt8) (width cx cy : Nat) : Option Rgb := do
  let at_ (dx dy : Nat) := src[(cy + dy) * width + (cx + dx)]?
  let (rx, ry) := m.redSite
  let (bx, by_) := m.blueSite
  let red ← at_ rx ry
  let blue ← at_ bx by_
  let green ← at_ (1 - rx) ry
  let green' ← at_ rx (1 - ry)
  return ⟨red, mean green green', blue⟩

def pixelColors? (m : Mosaic) (src : Array UInt8) (size : FrameSize) (x y : Nat) : Option Rgb :=
  cellColors? m src size.width (cellStart size.width x) (cellStart size.height y)

def paint? (o : ColorOrder) (size : FrameSize) (color? : Nat → Nat → Option Rgb) :
    Option (List UInt8) := do
  let rows ← (List.range size.height).mapM fun y => (List.range size.width).mapM fun x => color? x y
  return rows.flatten.flatMap o.write

/-- Demosaicing that fails where it looks for a sample that is not there. -/
def demosaic? : CheckedKernel := fun input output data =>
  match input.encoding.mosaic, output.encoding.colorOrder with
  | some m, some o =>
    if data.length < input.pixels ∨ input.size.width < 2 ∨ input.size.height < 2 then some data
    else paint? o input.size (pixelColors? m data.toArray input.size)
  | _, _ => some data

/-- The combined conversion on top of such a demosaicing. -/
def combined? : CheckedKernel := fun input output data =>
  if output.encoding.colorOrder.isSome then demosaic? input output data
  else
    let rgb := output.withEncoding .rgb24
    (demosaic? input rgb data).map (convertColor rgb output)

/-! ### Finding them -/

theorem mapM_eq_some {α β : Type} {f : α → Option β} {g : α → β} {xs : List α}
    (h : ∀ a ∈ xs, f a = some (g a)) : xs.mapM f = some (xs.map g) := by
  induction xs with
  | nil => rfl
  | cons a rest ih =>
    rw [List.forall_mem_cons] at h
    rw [List.mapM_cons, h.1, ih h.2]
    rfl

theorem pixelColors?_eq (m : Mosaic) {f : VideoFormat} {data : List UInt8}
    (hdata : f.pixels ≤ data.length) (hwidth : 2 ≤ f.size.width) (hheight : 2 ≤ f.size.height)
    {x y : Nat} (hx : x < f.size.width) (hy : y < f.size.height) :
    pixelColors? m data.toArray f.size x y = some (pixelColors m data.toArray f.size x y) := by
  have hin := Sites.inCell_ofCell m f.size x y
  have hfound : ∀ p ∈
      (Sites.ofCell m (cellStart f.size.width x) (cellStart f.size.height y)).toList,
        data.toArray[p.2 * f.size.width + p.1]? =
          some (sampleAt data.toArray f.size.width p.1 p.2) := by
    intro p hp
    rw [List.getElem?_toArray]
    exact getElem?_eq_sampleAt hdata ((hin p hp).lt hwidth hheight hx hy)
  simp only [Sites.toList, Sites.ofCell, List.forall_mem_cons] at hfound
  obtain ⟨hred, hgreen, hgreen', hblue, -⟩ := hfound
  simp only [pixelColors?, cellColors?, hred, hgreen, hgreen', hblue]
  rfl

theorem paint?_eq (o : ColorOrder) {size : FrameSize} {color? : Nat → Nat → Option Rgb}
    {color : Nat → Nat → Rgb}
    (h : ∀ x < size.width, ∀ y < size.height, color? x y = some (color x y)) :
    paint? o size color? = some (paint o size color) := by
  have hrows : (List.range size.height).mapM
      (fun y => (List.range size.width).mapM fun x => color? x y) =
        some ((List.range size.height).map fun y =>
          (List.range size.width).map fun x => color x y) := by
    apply mapM_eq_some
    intro y hy
    apply mapM_eq_some
    intro x hx
    exact h x (List.mem_range.mp hx) y (List.mem_range.mp hy)
  rw [paint?, hrows, paint_eq]
  rfl

/-- **No sample is made up**: demosaicing finds every sample that it looks for. -/
theorem demosaic?_eq (input output : VideoFormat) (data : List UInt8) :
    demosaic? input output data = some (demosaic input output data) := by
  rcases hm : input.encoding.mosaic with _ | m
  · simp only [demosaic?, demosaic, hm]
  rcases ho : output.encoding.colorOrder with _ | o
  · simp only [demosaic?, demosaic, hm, ho]
  simp only [demosaic?, demosaic, hm, ho]
  split
  · rfl
  · next hwhole =>
    simp only [not_or, Nat.not_lt] at hwhole
    obtain ⟨hdata, hwidth, hheight⟩ := hwhole
    apply paint?_eq
    intro x hx y hy
    exact pixelColors?_eq m hdata hwidth hheight hx hy

theorem combined?_eq (input output : VideoFormat) (data : List UInt8) :
    combined? input output data = some (combined input output data) := by
  simp only [combined?, combined, demosaic?_eq, Option.map_some]
  split <;> rfl

end Pixels

/-! ### Kernels of the library -/

/-- Every kernel of the library, and what it is where no sample is made up. -/
def Kernel.checked : List (Kernel × CheckedKernel) :=
  [(Pixels.normalize, fun input output data => some (Pixels.normalize input output data)),
    (Pixels.demosaic, Pixels.demosaic?),
    (Pixels.convertColor, fun input output data => some (Pixels.convertColor input output data)),
    (Kernel.relabel, fun _ _ data => some data),
    (Pixels.combined, Pixels.combined?)]

theorem Kernel.checked_eq {k : Kernel} {k? : CheckedKernel} (h : (k, k?) ∈ checked)
    (input output : VideoFormat) (data : List UInt8) :
    k? input output data = some (k input output data) := by
  simp only [checked, List.mem_cons, Prod.mk.injEq, List.not_mem_nil, or_false] at h
  rcases h with ⟨rfl, rfl⟩ | ⟨rfl, rfl⟩ | ⟨rfl, rfl⟩ | ⟨rfl, rfl⟩ | ⟨rfl, rfl⟩
  · rfl
  · exact Pixels.demosaic?_eq input output data
  · rfl
  · rfl
  · exact Pixels.combined?_eq input output data

end CameraStream
