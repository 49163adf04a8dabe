import CameraStream.Proofs.Pixels.Cells
import CameraStream.Stage.Instance

/-!
# What white balance touches

White balance learns its gains from the samples of a frame (`Gains.learn_take`), and then scales
each byte of the payload by the gain of the site at its place (`Gains.getElem?_apply`). It leaves
green samples as they are, and all that is known of the frame. But a payload may be longer than the
frame, and what is behind the frame is taken for samples of further rows. So nothing behind the
frame is safe, whatever the format is (**`WhiteBalancer.transform_spec`**).
-/

namespace CameraStream

/-- Sites of red or blue do not end. -/
theorem Mosaic.exists_colorAt_ne_green (m : Mosaic) {width : Nat} (hwidth : 0 < width) (n : Nat) :
    ∃ i, n ≤ i ∧ m.colorAt width i ≠ .green := by
  have hle (row : Nat) : n ≤ (2 * n + row) * width + 0 := by
    have := Nat.le_mul_of_pos_right (2 * n + row) hwidth
    omega
  have hcolor (row : Nat) : m.colorAt width ((2 * n + row) * width + 0) = m.siteColor (0, row) := by
    rw [m.colorAt_eq_siteColor hwidth]
    simp only [siteColor, Nat.mul_add_mod]
  -- In the first column they are in every other row.
  cases m with
  | rggb | bggr => exact ⟨_, hle 0, by rw [hcolor]; decide⟩
  | gbrg | grbg => exact ⟨_, hle 1, by rw [hcolor]; decide⟩

namespace Gains

variable {m : Mosaic} {width i : Nat}

/-! ### Scaling -/

theorem applyAt_of_red (g : Gains) (h : m.colorAt width i = .red) (v : UInt8) :
    g.applyAt m width (v, i) = scale g.red v := by
  unfold applyAt
  rw [h]

theorem applyAt_of_blue (g : Gains) (h : m.colorAt width i = .blue) (v : UInt8) :
    g.applyAt m width (v, i) = scale g.blue v := by
  unfold applyAt
  rw [h]

theorem applyAt_of_green (g : Gains) (h : m.colorAt width i = .green) (v : UInt8) :
    g.applyAt m width (v, i) = v := by
  unfold applyAt
  rw [h]

theorem length_apply (g : Gains) (m : Mosaic) (width : Nat) (data : List UInt8) :
    (g.apply m width data).length = data.length := by
  rw [apply, List.length_map, List.length_zipIdx]

theorem getElem?_apply (g : Gains) (m : Mosaic) (width : Nat) (data : List UInt8) (i : Nat) :
    (g.apply m width data)[i]? = data[i]?.map fun v => g.applyAt m width (v, i) := by
  rw [apply, List.getElem?_map, List.getElem?_zipIdx, Option.map_map, Nat.zero_add]
  rfl

/-! ### Learning -/

/-- Only the frame counts, not what is behind it. -/
theorem learn_take (g : Gains) (m : Mosaic) (size : FrameSize) (data : List UInt8) :
    g.learn m size (data.take (size.width * size.height)) = g.learn m size data := by
  simp only [learn, List.take_take, Nat.min_self]

theorem siteSum_of_dark {data : List UInt8} (h : ∀ v ∈ data, v = 0) (color : SiteColor) :
    siteSum m width color data = 0 := by
  have hfold : ∀ samples : List (UInt8 × Nat), (∀ s ∈ samples, s.1 = 0) →
      samples.foldl (fun n s => if m.colorAt width s.2 = color then n + s.1.toNat else n) 0 = 0 := by
    intro samples hdark
    induction samples with
    | nil => rfl
    | cons s rest ih =>
      rw [List.forall_mem_cons] at hdark
      rw [List.foldl_cons, hdark.1, UInt8.toNat_zero, Nat.add_zero, ite_self]
      exact ih hdark.2
  apply hfold
  intro s hs
  exact h _ (List.fst_mem_of_mem_zipIdx hs)

/-- Nothing is learned from a frame that is dark. -/
theorem learn_of_dark (g : Gains) (m : Mosaic) {size : FrameSize} {data : List UInt8}
    (h : ∀ v ∈ data.take (size.width * size.height), v = 0) : g.learn m size data = g := by
  simp only [learn, siteSum_of_dark h, true_or, if_true]

/-- The largest gains. -/
def full : Gains := ⟨4.0, 4.0⟩

theorem applyAt_full (h : m.colorAt width i ≠ .green) : full.applyAt m width (10, i) = 40 := by
  cases hcolor : m.colorAt width i with
  | red =>
    rw [applyAt_of_red _ hcolor]
    decide
  | blue =>
    rw [applyAt_of_blue _ hcolor]
    decide
  | green => exact absurd hcolor h

end Gains

/-- A frame and what it is after all of its payload was scaled by the gains of the sites. -/
structure Rescaled (m : Mosaic) (width : Nat) (g : Gains) (f f' : Frame) : Prop where
  info : f'.info = f.info
  length : f'.data.length = f.data.length
  red : ∀ i, m.colorAt width i = .red → f'.data[i]? = f.data[i]?.map (Gains.scale g.red)
  blue : ∀ i, m.colorAt width i = .blue → f'.data[i]? = f.data[i]?.map (Gains.scale g.blue)
  green : ∀ i, m.colorAt width i = .green → f'.data[i]? = f.data[i]?

theorem rescaled_apply (m : Mosaic) (width : Nat) (g : Gains) (f : Frame) :
    Rescaled m width g f (f.withData (g.apply m width f.data)) where
  info := rfl
  length := g.length_apply m width f.data
  red := by
    intro i hcolor
    exact (g.getElem?_apply m width f.data i).trans (by simp only [Gains.applyAt_of_red _ hcolor])
  blue := by
    intro i hcolor
    exact (g.getElem?_apply m width f.data i).trans (by simp only [Gains.applyAt_of_blue _ hcolor])
  green := by
    intro i hcolor
    refine (g.getElem?_apply m width f.data i).trans ?_
    simp only [Gains.applyAt_of_green _ hcolor, Option.map_id']

namespace WhiteBalancer

variable {w : WhiteBalancer} {format : VideoFormat} {m : Mosaic} {f : Frame}

theorem transform_eq (hbound : w.format = some format) (hm : format.encoding.mosaic = some m)
    (hf : f.format = format) :
    w.transform f =
      .ok (f.withData ((w.gains.learn m format.size f.data).apply m format.size.width f.data),
        { w with gains := w.gains.learn m format.size f.data }) := by
  simp only [transform, hbound, checkFormat, hf, if_true, hm]
  rfl

/-- What is behind a dark frame is scaled by the gains from before. -/
theorem transform_behind_dark (hbound : w.format = some format)
    (hm : format.encoding.mosaic = some m) (hwidth : 0 < format.size.width) :
    ∃ f f' w' i, f.format = format ∧ { w with gains := .full }.transform f = .ok (f', w') ∧
      format.pixels ≤ i ∧ f.data[i]? = some 10 ∧ f'.data[i]? = some 40 := by
  obtain ⟨i, hi, hcolor⟩ := m.exists_colorAt_ne_green hwidth format.pixels
  let dark : List UInt8 := List.replicate i 0
  let f : Frame := ⟨dark ++ [10], { format }⟩
  have hlength : dark.length = i := List.length_replicate
  have hbyte : f.data[i]? = some 10 := by
    show (dark ++ [10])[i]? = some 10
    rw [List.getElem?_append_right (Nat.le_of_eq hlength), hlength, Nat.sub_self]
    rfl
  have hlearn : Gains.full.learn m format.size f.data = .full := by
    apply Gains.learn_of_dark
    intro v hv
    have hv' : v ∈ (dark ++ [10]).take format.pixels := hv
    rw [List.take_append_of_le_length (hlength.symm ▸ hi)] at hv'
    exact List.eq_of_mem_replicate (List.mem_of_mem_take hv')
  have hdone := transform_eq (w := { w with gains := .full }) hbound hm (f := f) rfl
  refine ⟨f, _, _, i, rfl, hdone, hi, hbyte, ?_⟩
  show (Gains.apply (Gains.learn .full m format.size f.data) m _ f.data)[i]? = some 40
  rw [hlearn, Gains.getElem?_apply, hbyte, Option.map_some, Gains.applyAt_full hcolor]

/-- **What white balance does to a frame.** The gains are learned from the frame and not from what
is behind it. Then every byte at a site of red or blue is scaled, and nothing else is changed: not
the bytes at sites of green, nor the length, nor anything that is known of the frame. Whether a byte
is part of the frame makes no difference to that. So what is behind the frame stays as it was only
where scaling leaves the bytes the same, and with no format does it always stay as it was. -/
theorem transform_spec (hbound : w.format = some format)
    (hbayer : format.encoding ∈ Family.bayer8.members) (hwidth : format.size.width ≠ 0) :
    ∃ m, format.encoding.mosaic = some m ∧
      (∀ f, f.format = format →
        let gains := w.gains.learn m format.size (f.data.take format.pixels)
        ∃ f', w.transform f = .ok (f', { w with gains }) ∧
          Rescaled m format.size.width gains f f' ∧
          ((∀ i, format.pixels ≤ i → f'.data[i]? = f.data[i]?) ↔
            ∀ i v, format.pixels ≤ i → f.data[i]? = some v →
              gains.applyAt m format.size.width (v, i) = v)) ∧
      ∃ g f f' w' i, f.format = format ∧ { w with gains := g }.transform f = .ok (f', w') ∧
        format.pixels ≤ i ∧ f'.data[i]? ≠ f.data[i]? := by
  obtain ⟨m, hm⟩ := Encoding.exists_mosaic hbayer
  refine ⟨m, hm, ?_, ?_⟩
  · intro f hf gains
    have hlearn : gains = w.gains.learn m format.size f.data :=
      w.gains.learn_take m format.size f.data
    refine ⟨f.withData (gains.apply m format.size.width f.data), ?_, rescaled_apply m _ gains f, ?_⟩
    · rw [hlearn]
      exact transform_eq hbound hm hf
    · have hget (i : Nat) := gains.getElem?_apply m format.size.width f.data i
      constructor
      · intro hsame i v hi hv
        have hi' := (hget i).symm.trans (hsame i hi)
        rw [hv, Option.map_some] at hi'
        exact Option.some.inj hi'
      · intro hsame i hi
        refine (hget i).trans ?_
        cases hv : f.data[i]? with
        | none => rfl
        | some v => rw [Option.map_some, hsame i v hi hv]
  · obtain ⟨f, f', w', i, hf, hdone, hi, hbyte, hbyte'⟩ :=
      transform_behind_dark hbound hm (Nat.pos_of_ne_zero hwidth)
    refine ⟨.full, f, f', w', i, hf, hdone, hi, ?_⟩
    rw [hbyte, hbyte']
    decide

/-- A frame of four samples in a payload of five bytes. -/
def overlong : Frame :=
  ⟨[50, 100, 100, 100, 50], { format := ⟨.rggb8, ⟨2, 2⟩, .fps 30⟩ }⟩

/-- The fifth byte is scaled like the red sample. -/
theorem transform_spec_overlong :
    Encoding.rggb8 ∈ Family.bayer8.members ∧ overlong.format.size.width ≠ 0 ∧
    ∃ f' gains,
      (WhiteBalancer.mk (some overlong.format) .playing {}).transform overlong =
        .ok (f', ⟨some overlong.format, .playing, gains⟩) ∧
      f'.data = [100, 100, 100, 100, 100] ∧ overlong.format.pixels = 4 ∧
      ¬ ∀ i, overlong.format.pixels ≤ i → f'.data[i]? = overlong.data[i]? := by
  have hbound : (WhiteBalancer.mk (some overlong.format) .playing {}).format =
      some overlong.format := rfl
  obtain ⟨m, hm, hall, -⟩ := transform_spec hbound (by decide) (by decide)
  cases hm
  obtain ⟨f', hdone, -, hbehind⟩ := hall overlong rfl
  refine ⟨by decide, by decide, f', _, hdone, ?_, rfl, ?_⟩
  · cases hdone
    decide
  · rw [hbehind]
    intro hsame
    exact absurd (hsame 4 50 (by decide) rfl) (by decide)

end WhiteBalancer
end CameraStream
