import Tapestry.Image

/-!
# Images as PNG files

An image is written with eight bits for each of its four channels, without filters and without
compression: the pixel data is cut into stored blocks, so the file is a little larger than the image
and every byte of it can be read off the image directly.

* `fault?_eq_none`  an image has a file exactly when it has a pixel
-/

namespace Tapestry.Png

/-! ## Numbers -/

/-- Append a number in four bytes, the most significant first. -/
def pushWord (bytes : ByteArray) (n : UInt32) : ByteArray :=
  (((bytes.push (n >>> 24).toUInt8).push (n >>> 16).toUInt8).push (n >>> 8).toUInt8).push n.toUInt8

/-- Append a number in two bytes, the least significant first. -/
def pushHalf (bytes : ByteArray) (n : UInt16) : ByteArray :=
  (bytes.push n.toUInt8).push (n >>> 8).toUInt8

/-! ## Check sums -/

/-- The remainder of a byte under the polynomial of the cyclic check sum. -/
def crcStep (c : UInt32) : UInt32 :=
  if (c &&& 1) = 1 then (c >>> 1) ^^^ 0xEDB88320 else c >>> 1

/-- The cyclic check sum of some bytes. -/
def crc (bytes : ByteArray) : UInt32 :=
  let sum := bytes.foldl (fun (c : UInt32) b =>
    (List.range 8).foldl (fun c _ => crcStep c) (c ^^^ b.toUInt32)) 0xFFFFFFFF
  sum ^^^ 0xFFFFFFFF

/-- The modulus of the check sum of compressed data. -/
def adlerModulus : UInt32 := 65521

/-- The check sum of compressed data: the sum of the bytes, and the sum of those sums. -/
def adler (bytes : ByteArray) : UInt32 :=
  let (a, b) := bytes.foldl (fun (p : UInt32 × UInt32) x =>
    let a := (p.1 + x.toUInt32) % adlerModulus
    (a, (p.2 + a) % adlerModulus)) (1, 0)
  (b <<< 16) ||| a

/-! ## Parts of a file -/

/-- The bytes that every file begins with. -/
def signature : ByteArray := ⟨#[0x89, 0x50, 0x4E, 0x47, 0x0D, 0x0A, 0x1A, 0x0A]⟩

/-- A chunk of a file: its length, its name, its data and the check sum of the last two. -/
def chunk (name : String) (data : ByteArray) : ByteArray :=
  let body := name.toUTF8 ++ data
  pushWord (pushWord ByteArray.empty data.size.toUInt32 ++ body) (crc body)

/-- The first chunk: the size of the image and the way its pixels are written. -/
def header (image : Image) : ByteArray :=
  let size := pushWord (pushWord ByteArray.empty image.width.toUInt32) image.height.toUInt32
  chunk "IHDR" (size ++ ⟨#[8, 6, 0, 0, 0]⟩)

/-- Append the four bytes of a colour. -/
def pushColour (bytes : ByteArray) (c : Colour) : ByteArray :=
  (((bytes.push c.red).push c.green).push c.blue).push c.alpha

/-- The pixels row by row, each row behind a byte that says that it is not filtered. -/
def scanlines (image : Image) : ByteArray :=
  (List.range image.height).foldl (fun bytes y =>
    (List.range image.width).foldl (fun bytes x => pushColour bytes (image.pixel x y))
      (bytes.push 0)) ByteArray.empty

/-- The largest number of bytes in a stored block. -/
def blockSize : Nat := 65535

/-- Append a stored block. -/
def pushBlock (bytes : ByteArray) (last : Bool) (data : ByteArray) : ByteArray :=
  let length := data.size.toUInt16
  pushHalf (pushHalf (bytes.push (if last then 1 else 0)) length) (length ^^^ 0xFFFF) ++ data

/-- Data as a compressed stream of stored blocks, of which there is at least one. -/
def stored (data : ByteArray) : ByteArray :=
  let last := (data.size - 1) / blockSize
  let blocks := (List.range (last + 1)).foldl (fun bytes i =>
    pushBlock bytes (i = last) (data.extract (i * blockSize) ((i + 1) * blockSize)))
    ⟨#[0x78, 0x01]⟩
  pushWord blocks (adler data)

/-- The chunk that every file ends with. -/
def endChunk : ByteArray := chunk "IEND" ByteArray.empty

/-- The file of an image. -/
def encode (image : Image) : ByteArray :=
  signature ++ header image ++ chunk "IDAT" (stored (scanlines image)) ++ endChunk

/-! ## Images without a file -/

/-- Why an image has no file: the format has no room for a side without pixels. -/
inductive Fault where
  | noWidth
  | noHeight
  deriving DecidableEq, Repr

/-- The wording of a fault. -/
def Fault.message : Fault → String
  | noWidth => "Zero width not allowed"
  | noHeight => "Zero height not allowed"

/-- Why an image has no file, if it has none. The width is looked at first. -/
def fault? (image : Image) : Option Fault :=
  if image.width = 0 then some .noWidth
  else if image.height = 0 then some .noHeight
  else none

/-- The images that have a file are those with at least one pixel. -/
theorem fault?_eq_none {image : Image} :
    fault? image = none ↔ 0 < image.width ∧ 0 < image.height := by
  unfold fault?
  by_cases hw : image.width = 0
  · simp [hw]
  · by_cases hh : image.height = 0
    · simp [hw, hh]
    · simp only [hw, hh, ↓reduceIte, true_iff]
      omega

end Tapestry.Png
