import CameraStream.Stage.Descriptor

/-!
# Stages of the library

Descriptors of the stages that come with the library. What they do to payloads is in
`CameraStream.Pixels`; pairs of encodings that no kernel knows are relabelled only.
-/

namespace CameraStream.StageDescriptor

def packedColors : List Encoding := [.rgb24, .bgr24, .rgbx32, .bgra32]

def colors : List Encoding :=
  packedColors ++ [.yuyv, .uyvy, .nv12, .mono8, .mono16]

/-- Deep samples to one byte a sample of the same mosaic. -/
def bayerNormalize : StageDescriptor where
  name := "bayer-normalize"
  kind := .conversion .bayerNormalize
  input := .ofFamilies [.bayer10, .bayer12, .bayer16, .bayerPwl]
  output := .ofFamilies [.bayer8]
  keepsMosaic := true

/-- One byte a sample to packed colour. -/
def debayer : StageDescriptor where
  name := "debayer"
  kind := .conversion .debayer
  input := .ofFamilies [.bayer8]
  output := .only packedColors

/-- Between colour encodings. -/
def colorConvert : StageDescriptor where
  name := "color-convert"
  kind := .conversion .colorConvert
  input := .only colors
  output := .only colors

def jpegDecode : StageDescriptor where
  name := "jpeg-decode"
  kind := .conversion .decode
  input := .only [.mjpeg]
  output := .only [.rgb24, .bgra32, .yuyv, .mono8]

/-- Mosaics to any colour encoding. -/
def combined : StageDescriptor where
  name := "combined"
  kind := .conversion .combined
  input := .ofFamilies [.bayer8]
  output := .only colors

/-- Gains for red and blue samples of a mosaic. -/
def whiteBalance : StageDescriptor where
  name := "white-balance"
  kind := .interpretation
  input := .ofFamilies [.bayer8]
  output := .any

/-- Counts of passing frames. -/
def frameStatistics : StageDescriptor where
  name := "frame-statistics"
  kind := .interpretation
  input := .any
  output := .any

end CameraStream.StageDescriptor
