-- Three-dimensional extents and coordinates, and the odometer that walks them:
-- x turns fastest, then y, then z. The z wheel never turns back, so a finished
-- walk stands at z equal to the extent.
import Simt.Word

namespace Simt

open Numeral (decimal)

/-- The size of a grid or a block, or a place in one. -/
structure Dim3 where
  x : UInt32
  y : UInt32
  z : UInt32
  deriving DecidableEq

namespace Dim3

def zero : Dim3 := ⟨0, 0, 0⟩

/-- The extent of a row of `x` places. -/
def line (x : UInt32) : Dim3 := ⟨x, 1, 1⟩

/-- The number of places of an extent, in exact arithmetic. -/
def volume (d : Dim3) : Nat :=
  d.x.toNat * d.y.toNat * d.z.toNat

/-- The number of places of an extent, as a word. The product of x and y has to fit too,
also when z is zero. -/
def size (d : Dim3) : Outcome UInt64 := do
  let plane ← Word.mul64 d.x.toUInt64 d.y.toUInt64
  Word.mul64 plane d.z.toUInt64

/-- The place after `i`. A wheel is stepped before it is compared with its bound. -/
def next (i bound : Dim3) : Outcome Dim3 := do
  let x ← Word.add32 i.x 1
  if x < bound.x then return { i with x } else
  let y ← Word.add32 i.y 1
  if y < bound.y then return { x := 0, y, z := i.z } else
  let z ← Word.add32 i.z 1
  return { x := 0, y := 0, z }

/-- Each coordinate is below its bound. -/
def inside (i bound : Dim3) : Bool :=
  i.x < bound.x && i.y < bound.y && i.z < bound.z

/-- The number of a place, x fastest. -/
def index (i bound : Dim3) : Outcome UInt64 := do
  let layers ← Word.mul64 bound.y.toUInt64 i.z.toUInt64
  let rows ← Word.add64 i.y.toUInt64 layers
  let places ← Word.mul64 bound.x.toUInt64 rows
  Word.add64 i.x.toUInt64 places

/-- The number of a place, x fastest, modulo 2^32. -/
def wrappedIndex (i bound : Dim3) : UInt32 :=
  i.x + bound.x * i.y + bound.x * bound.y * i.z

def text (d : Dim3) : String :=
  "(" ++ decimal d.x.toNat ++ "," ++ decimal d.y.toNat ++ "," ++ decimal d.z.toNat ++ ")"

/-- The text of a coordinate in a listing of fields. -/
def listing (d : Dim3) : String :=
  "Dim3 \x7b x: " ++ decimal d.x.toNat ++ ", y: " ++ decimal d.y.toNat ++
    ", z: " ++ decimal d.z.toNat ++ " \x7d"

end Dim3

end Simt
