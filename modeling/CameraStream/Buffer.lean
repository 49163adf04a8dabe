import CameraStream.Format.Video

/-!
# Frames and buffers

A `Frame` is one captured picture: its payload and what is known about it. A `Buffer` is a frame in
memory, and that memory may be the slot of a pool. A buffer has one owner at a time; the pipeline
hands it on, in the end gives it back, and never copies it. Parts from outside are shown the frame
and may change it, but they cannot exchange the memory behind it.
-/

namespace CameraStream

/-- What is known about a captured frame. -/
structure FrameInfo where
  format : VideoFormat
  /-- Place in the stream. -/
  sequence : Nat := 0
  /-- Time of capture, in nanoseconds since the stream began. -/
  timestamp : Nat := 0
  /-- Whether the frame arrived incomplete. -/
  damaged : Bool := false
deriving DecidableEq, Repr

/-- A payload and what is known about it. -/
structure Frame where
  data : List UInt8
  info : FrameInfo
deriving DecidableEq, Repr

/-- A slot of a pool. -/
structure Slot where
  pool : Nat
  index : Nat
deriving DecidableEq, Repr

/-- A frame and where its memory belongs. -/
structure Buffer extends Frame where
  slot : Option Slot := none
deriving DecidableEq, Repr

namespace Frame

def format (f : Frame) : VideoFormat := f.info.format

def withData (f : Frame) (data : List UInt8) : Frame := { f with data }

/-- The same payload under another format. -/
def relabel (f : Frame) (format : VideoFormat) : Frame := { f with info := { f.info with format } }

/-- The payload with its first bytes overwritten, as many as there is room for. -/
def overwrite (f : Frame) (bytes : List UInt8) : Frame :=
  f.withData (bytes.take f.data.length ++ f.data.drop bytes.length)

end Frame

namespace Buffer

/-- Another frame in the same memory. -/
def withFrame (b : Buffer) (f : Frame) : Buffer := { b with toFrame := f }

@[simp] theorem toFrame_withFrame (b : Buffer) (f : Frame) : (b.withFrame f).toFrame = f := rfl

@[simp] theorem slot_withFrame (b : Buffer) (f : Frame) : (b.withFrame f).slot = b.slot := rfl

end Buffer
end CameraStream
