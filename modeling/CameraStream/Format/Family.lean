import CameraStream.Format.Mosaic

/-!
# Encoding families

Families group encodings coarsely enough to say which ones a consumer without a wish of its own
would rather have (`CameraStream.Negotiation.Ranking`). No encoding belongs to two families, so
looking an encoding up does not depend on the order of the families.
-/

namespace CameraStream

inductive Family where
  | bayer8 | rgb | yuv | compressed | mono16 | mono8
  | bayerPwl | bayer10 | bayer12 | bayer16 | polarizedBayer | polarizedMono
deriving DecidableEq, Repr

namespace Family

def all : List Family :=
  [bayer8, rgb, yuv, compressed, mono16, mono8,
    bayerPwl, bayer10, bayer12, bayer16, polarizedBayer, polarizedMono]

def members : Family → List Encoding
  | bayer8 => [.rggb8, .gbrg8, .grbg8, .bggr8]
  | rgb => [.rgb24, .bgr24, .rgbx32, .bgra32, .bgra64]
  | yuv => [.yuyv, .uyvy, .nv12, .y411, .iyu1, .iyu2]
  | compressed => [.mjpeg]
  | mono16 => [.mono16]
  | mono8 => [.mono8]
  | bayerPwl => [.pwl12, .pwl12Packed, .pwl12InWords]
  | bayer10 => [.rggb10, .gbrg10, .grbg10, .bggr10,
      .rggb10Packed, .gbrg10Packed, .grbg10Packed, .bggr10Packed]
  | bayer12 => [.rggb12, .gbrg12, .grbg12, .bggr12,
      .rggb12Packed, .gbrg12Packed, .grbg12Packed, .bggr12Packed]
  | bayer16 => [.rggb16, .gbrg16, .grbg16, .bggr16]
  | polarizedBayer => [.polarizedBayer8, .polarizedBayer12Packed, .polarizedBayer16]
  | polarizedMono => [.polarizedMono8, .polarizedMono12Packed, .polarizedMono16]

/-- Whether the samples lie under a plain colour filter mosaic. -/
def isBayer : Family → Bool
  | bayer8 | bayerPwl | bayer10 | bayer12 | bayer16 => true
  | _ => false

def name : Family → String
  | bayer8 => "Bayer8"
  | rgb => "Rgb"
  | yuv => "Yuv"
  | compressed => "Compressed"
  | mono16 => "Mono16"
  | mono8 => "Mono8"
  | bayerPwl => "BayerPwl"
  | bayer10 => "Bayer10"
  | bayer12 => "Bayer12"
  | bayer16 => "Bayer16"
  | polarizedBayer => "PolarizedBayer"
  | polarizedMono => "PolarizedMono"

def ofName? (name : String) : Option Family :=
  all.find? fun f => f.name == name

end Family

/-- The family of an encoding, if it is a known one. -/
def Encoding.family (e : Encoding) : Option Family :=
  Family.all.find? fun f => f.members.contains e

end CameraStream
