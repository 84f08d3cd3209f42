import NetworkProgramming.CText
import NetworkProgramming.Framing

/-!
The interface of Framer.h. A stdio stream is the bytes on it that nobody has
read; what fwrite and fputc put on it is accepted whole.
-/

namespace NetworkProgramming

inductive Stop where
  /-- DieWithUserMessage. -/
  | died (msg detail : String)
  /-- A signed integer is counted past INT_MAX. -/
  | overflow
  /-- A library function writes past the end of the array it is given. -/
  | overrun
  deriving DecidableEq

/-- What GetNextMsg returns, stores in buf and prints. -/
structure Received where
  result : Int
  buf : List UInt8
  stderr : String := ""
  deriving DecidableEq

namespace Framer

abbrev Stream := List UInt8

def INT_MAX : Int := 2147483647
def EOF : Int := -1

-- The byte comes as an unsigned char, so that 0xFF is 255 and not EOF.
def getc : Stream → Int × Stream
  | [] => (EOF, [])
  | b :: rest => (b.toNat, rest)

/-- fread of `count` bytes into an array of `size`: those that are there, and what
is left. -/
def fread (size count : Nat) (stream : Stream) : Except Stop (List UInt8 × Stream) :=
  if size < (stream.take count).length then .error .overrun
  else .ok (stream.take count, stream.drop count)

theorem fread_append (size : Nat) (bytes rest : List UInt8) :
    fread size bytes.length (bytes ++ rest) =
      if size < bytes.length then .error .overrun else .ok (bytes, rest) := by
  rw [fread, List.take_left, List.drop_left]

def whole (message : List UInt8) : Received := { result := message.length, buf := message }

end Framer

structure Framer where
  getNextMsg : Nat → Framer.Stream → Except Stop (Received × Framer.Stream)
  putMsg : List UInt8 → Framer.Stream → Except Stop (Int × Framer.Stream)

/-- A message that PutMsg writes, and GetNextMsg returns whatever follows it. -/
def Framer.Carries (f : Framer) (bufSize : Nat) (message : List UInt8) : Prop :=
  ∃ stream, f.putMsg message [] = .ok (message.length, stream) ∧
    ∀ later, f.getNextMsg bufSize (stream ++ later) = .ok (Framer.whole message, later)

end NetworkProgramming
