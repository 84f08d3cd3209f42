import NetworkProgramming.Framer
import NetworkProgramming.LinearBuffer

/-!
VoteProtocol.h, and the encoder and decoder of VoteEncoding.h. An encoder is
followed by the stores it makes to outBuf, so that what it leaves there is known
whatever was there before. A decoder is given all of inBuf, of which the first
mSize bytes are the message.
-/

namespace NetworkProgramming.VoteProtocol

open LinearBuffer

structure VoteInfo where
  count : UInt64
  candidate : Int
  isInquiry : Bool
  isResponse : Bool
  deriving DecidableEq

def MAX_CANDIDATE : Int := 1000
def MAX_WIRE_SIZE : Nat := 500

/-- The invariants that the comments of the fields give. -/
structure VoteInfo.Valid (v : VoteInfo) : Prop where
  candidate : 0 ≤ v.candidate ∧ v.candidate ≤ MAX_CANDIDATE
  count : v.isResponse = false → v.count = 0

abbrev Stores := List (Nat × List UInt8)

def Stores.after (stores : Stores) (outBuf : Nat → UInt8) : Nat → UInt8 :=
  stores.foldl (fun cells (s : Nat × List UInt8) => store cells s.1 s.2) outBuf

structure Encoded where
  size : Nat
  stores : Stores

def Encoded.message (e : Encoded) (outBuf : Nat → UInt8) : List UInt8 :=
  load (e.stores.after outBuf) 0 e.size

/-- An object file that defines Encode. -/
structure VoteEncoding where
  encode : VoteInfo → Nat → Except Stop Encoded

structure Decoded where
  result : Bool
  v : VoteInfo
  inBuf : List UInt8
  deriving DecidableEq

def Decoded.outcome (d : Decoded) : Option VoteInfo := if d.result then some d.v else none

def zeroed : VoteInfo := { count := 0, candidate := 0, isInquiry := false, isResponse := false }

/-- GetNextMsg puts the message at the beginning of inBuf. -/
def received (message previous : List UInt8) : List UInt8 :=
  message ++ previous.drop message.length

end NetworkProgramming.VoteProtocol
