-- SUMMARY: The three kinds of input sources, how a frame is captured from each and given back to it.
import Mathlib.Data.List.Basic

/-!
# Input sources

Model of input_source_factory.hpp, v4l2_camera.cpp, rtsp_source.cpp and
mpp_decoder.cpp, from the start of a source to its stop. The decoder is a parameter
of the video file: which frames a packet completes. It accepts every packet.
-/

/-- A frame as the decoder gives it. -/
structure MppFrame where
  picture : Nat
  errinfo : Bool := false
  discard : Bool := false
  /-- it comes with a buffer -/
  buffer : Bool := true
  deriving DecidableEq

/-- `Decode` gives it to the caller. -/
def MppFrame.intact (f : MppFrame) : Bool := !f.errinfo && !f.discard && f.buffer

/-- The buffer that a frame lives in. -/
inductive FrameBuffer where
  /-- memory that is shared with the driver of the camera -/
  | v4l2Mmap (index : Nat)
  | dma
  | mppFrame (frame : MppFrame)
  deriving DecidableEq

/-! ## Camera -/

/-- A camera that streams: the buffers that its driver has. -/
structure V4L2Camera where
  queued : List Nat
  deriving DecidableEq

namespace V4L2Camera

/-- With all its buffers queued. -/
def new (bufferCount : Nat) : V4L2Camera := ⟨List.range bufferCount⟩

/-- `dequeued` is the buffer that the driver has filled, if one comes in time. -/
def captureFrame (cam : V4L2Camera) (dequeued : Option Nat) : Option FrameBuffer × V4L2Camera :=
  match dequeued with
  | none => (none, cam)
  | some index =>
    if index ∈ cam.queued then (some (.v4l2Mmap index), ⟨cam.queued.erase index⟩) else (none, cam)

/-- `VIDIOC_QBUF`: from here on the driver may write to the buffer. -/
def releaseFrame (cam : V4L2Camera) : FrameBuffer → V4L2Camera
  | .v4l2Mmap index => ⟨cam.queued ++ [index]⟩
  | .dma | .mppFrame _ => cam

end V4L2Camera

/-! ## Video file -/

/-- The decoder: the packets it was given and the frames it has not given out. -/
structure MppDecoder where
  /-- the frames that the last of some packets completes -/
  completes : List (List UInt8) → List MppFrame
  packets : List (List UInt8) := []
  frames : List MppFrame := []

namespace MppDecoder

def putPacket (d : MppDecoder) (data : List UInt8) : MppDecoder :=
  { d with
    packets := d.packets ++ [data]
    frames := d.frames ++ d.completes (d.packets ++ [data]) }

def getFrame (d : MppDecoder) : Option MppFrame × MppDecoder :=
  (d.frames.head?, { d with frames := d.frames.tail })

/-- One packet in, at most one frame out. -/
def decode (d : MppDecoder) (data : List UInt8) : Option MppFrame × MppDecoder :=
  let (frame, d) := (d.putPacket data).getFrame
  (frame.filter MppFrame.intact, d)

end MppDecoder

structure VideoFileInputSource where
  /-- what has not been read of the file -/
  file : List UInt8
  decoder : MppDecoder

namespace VideoFileInputSource

def kChunk : Nat := 64 * 1024

def new (completes : List (List UInt8) → List MppFrame) (file : List UInt8) :
    VideoFileInputSource where
  file := file
  decoder := { completes := completes }

def captureFrame (src : VideoFileInputSource) : Option MppFrame × VideoFileInputSource :=
  if src.file.isEmpty then (none, src)
  else
    let (frame, decoder) := src.decoder.decode (src.file.take kChunk)
    (frame, ⟨src.file.drop kChunk, decoder⟩)

end VideoFileInputSource

/-! ## Any source -/

inductive InputSource where
  | v4l2 (cam : V4L2Camera)
  | rtsp
  | videoFile (src : VideoFileInputSource)

namespace InputSource

/-- `dequeued` is what the driver of a camera answers. -/
def captureFrame (dequeued : Option Nat) : InputSource → Option FrameBuffer × InputSource
  | .v4l2 cam => (cam.captureFrame dequeued).map id .v4l2
  | .rtsp => (some .dma, .rtsp)
  | .videoFile src => src.captureFrame.map (Option.map .mppFrame) .videoFile

def releaseFrame (buffer : FrameBuffer) : InputSource → InputSource
  | .v4l2 cam => .v4l2 (cam.releaseFrame buffer)
  | .rtsp => .rtsp
  | .videoFile src => .videoFile src

end InputSource
