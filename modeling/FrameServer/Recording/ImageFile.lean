import FrameServer.Recording.Archive

/-!
# FrameServer.Recording.ImageFile — frames as image files

An encoder turns a frame into the content of a file, or says why it cannot. Image
files hold the pixels that the header announces and want all of them. What writes
the images is a parameter, since it has limits of its own.

1. **Encoders**
2. **Writers** of images.
3. **The encoder of a format**
-/

namespace FrameServer

/-! ## Encoders -/

/-- Turns the frame with a given number into the content of a file. -/
structure Encoder where
  /-- The extension of the file's name, without its point. -/
  extension : String
  encode : (path : String) → (number : Nat) → Header → Bytes → Except RecordingError Content

/-- Writes the bytes of a frame as they are, and refuses the frames with some
numbers. -/
def Encoder.raw (extension : String) (refused : List Nat) : Encoder where
  extension
  encode path number _ data :=
    if refused.contains number then .error (.encode path (.codec "refused")) else .ok (.raw data)

/-! ## Writers -/

/-- Makes an image file of some pixels, in rows of a given width, or says why it cannot. -/
abbrev ImageWriter := ImageFormat → (width height : Nat) → Bytes → Except String Content

namespace ImageWriter

/-- The most pixels in a row or column that fit the fields of a format. -/
def sideLimit : ImageFormat → Nat
  | .jpeg => 65535
  | _ => UInt32.size - 1

/-- The writer of all images of at least one pixel that fit their format. -/
def plain : ImageWriter := fun format width height pixels =>
  let limit := sideLimit format
  if 0 < width && 0 < height && width ≤ limit && height ≤ limit then
    .ok (.image format width height pixels)
  else .error "invalid image dimensions"

end ImageWriter

/-! ## The encoder of a format -/

namespace ImageFormat

def extension : ImageFormat → String
  | tiff => "tif"
  | png => "png"
  | jpeg => "jpg"

/-- The image of a frame, or why there is none. -/
def image (format : ImageFormat) (writer : ImageWriter) (h : Header) (pixels : Bytes) :
    Except EncodeFault Content :=
  let width := h.width.toNat
  let height := h.height.toNat
  let needed := h.pixelCount.toNat
  if UInt32.size ≤ width then .error .widthOverflow
  else if UInt32.size ≤ height then .error .heightOverflow
  else if pixels.length < needed then .error (.missingPixels pixels.length width height)
  else (writer format width height (pixels.take needed)).mapError .codec

/-- The encoder of a format, with what writes its images. -/
def encoder (format : ImageFormat) (writer : ImageWriter := ImageWriter.plain) : Encoder where
  extension := format.extension
  encode path _ h pixels := (format.image writer h pixels).mapError (.encode path)

end ImageFormat

end FrameServer
