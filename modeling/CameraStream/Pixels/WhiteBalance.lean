import CameraStream.Format.Mosaic
import CameraStream.Format.Video

/-!
# White balance

The colours of a frame are taken to average to grey. From the sums of the samples at red, green and
blue sites follow the gains for red and blue, held between one and four; green samples, of which
there are twice as many, count half. A frame without red or without blue keeps the earlier gains.
-/

namespace CameraStream

/-- The colour a site of a mosaic is sensitive to. -/
inductive SiteColor where
  | red | green | blue
deriving DecidableEq, Repr

/-- The colour of the sample at a place of a payload, for frames of some width. -/
def Mosaic.colorAt (m : Mosaic) (width i : Nat) : SiteColor :=
  let site := (i % width % 2, i / width % 2)
  if site = m.redSite then .red
  else if site = m.blueSite then .blue
  else .green

structure Gains where
  red : Float32 := 1.0
  blue : Float32 := 1.0

namespace Gains

/-- A factor held between one and four. -/
def limit (x : Float32) : Float32 := if x < 1.0 then 1.0 else if 4.0 < x then 4.0 else x

/-- Sum of the samples of one colour. -/
def siteSum (m : Mosaic) (width : Nat) (color : SiteColor) (data : List UInt8) : Nat :=
  data.zipIdx.foldl (fun n s => if m.colorAt width s.2 = color then n + s.1.toNat else n) 0

/-- The gains that make the colours of a frame average to grey. -/
def learn (g : Gains) (m : Mosaic) (size : FrameSize) (data : List UInt8) : Gains :=
  let frame := data.take (size.width * size.height)
  let red := siteSum m size.width .red frame
  let blue := siteSum m size.width .blue frame
  if red = 0 ∨ blue = 0 then g
  else
    let green := (siteSum m size.width .green frame).toUInt64.toFloat32 / 2.0
    ⟨limit (green / red.toUInt64.toFloat32), limit (green / blue.toUInt64.toFloat32)⟩

/-- A sample times a factor, at most full and rounded down. -/
def scale (factor : Float32) (v : UInt8) : UInt8 :=
  let x := v.toFloat32 * factor
  (if x < 255.0 then x else 255.0).toUInt8

/-- The sample at a place, scaled by the gain of its colour. -/
def applyAt (g : Gains) (m : Mosaic) (width : Nat) (s : UInt8 × Nat) : UInt8 :=
  match m.colorAt width s.2 with
  | .red => scale g.red s.1
  | .blue => scale g.blue s.1
  | .green => s.1

/-- Every sample scaled by the gain of its colour. -/
def apply (g : Gains) (m : Mosaic) (width : Nat) (data : List UInt8) : List UInt8 :=
  data.zipIdx.map (g.applyAt m width)

end Gains
end CameraStream
