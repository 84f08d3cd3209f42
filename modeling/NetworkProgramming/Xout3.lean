import NetworkProgramming.NetworkOrder
import NetworkProgramming.Tselect

/-!
xout3.c: each message is sent with a cookie and kept in a record until its ACK comes
back. A timer of tselect for each record has it sent once more, and a second one
has it dropped. A function that tselect calls runs to its end in one step.
-/

namespace NetworkProgramming.Xout3

open NetworkOrder Tselect

def ACK : UInt8 := 6
def MRSZ : Nat := 128
def T1 : Int := 3000
def T2 : Int := 5000
def ACKSZ : Nat := 5

def bufSize : Nat := 128

/-- The number of a record in mr. -/
abbrev Record := Fin MRSZ

/-- `len` is what lies in memory, in network order. -/
structure Packet where
  len : List UInt8
  cookie : UInt32
  buf : Nat → UInt8

structure Msgrec where
  pkt : Packet
  id : UInt32

def free : List UInt8 := [255, 255, 255, 255]

def Msgrec.inUse (r : Msgrec) : Bool := r.pkt.len != free

inductive Tofunc where
  | lostACK
  | drop
  deriving DecidableEq

structure FdSet where
  s : Bool
  stdin : Bool
  deriving DecidableEq

inductive Place where
  | top
  | tselect
  | calling (func : Tofunc) (mp : Record)
  | socket (readmask : FdSet)
  | input (readmask : FdSet)
  | exited
  deriving DecidableEq

/-- Of the ack buffer what has been filled, cnt bytes. -/
structure State where
  timers : Tselect.State Tofunc Record FdSet
  mr : Record → Msgrec
  msgid : UInt32
  ack : List UInt8
  place : Place

/-- What the calls of the system return: none is an error. -/
inductive Action where
  | enter (now : Option Nat)
  | turn
  | call (sent malloc : Bool) (now : Option Nat)
  | select (n : Int) (readmask : FdSet) (now : Option Nat)
  | recv (bytes : Option (List UInt8))
  | read (bytes : Option (List UInt8)) (sent malloc : Bool) (now : Option Nat)
  deriving DecidableEq

inductive Answer where
  | sent (mp : Record) (size : Nat) (written : List Nat)
  | resent (mp : Record) (size : Nat)
  | acked (mp : Record)
  | dropped (mp : Record)
  | unknown (mid : UInt32)
  | illegal
  | silent
  deriving DecidableEq

def getfreerec (mr : Record → Msgrec) : Option Record :=
  (List.finRange MRSZ).find? fun mp => !(mr mp).inUse

def findmsgrec (mr : Record → Msgrec) (mid : UInt32) : Option Record :=
  (List.finRange MRSZ).find? fun mp => (mr mp).inUse && (mr mp).pkt.cookie == mid

/-- None: the record is free already, and the program exits. -/
def freemsgrec (mr : Record → Msgrec) (mp : Record) : Option (Record → Msgrec) :=
  if (mr mp).inUse then
    some (Function.update mr mp { mr mp with pkt := { (mr mp).pkt with len := free } })
  else none

/-- A byte is stored at an offset in buf. Behind buf lies the id; the offset is never one
beyond its first byte. -/
def Msgrec.store (r : Msgrec) (k : Nat) (b : UInt8) : Msgrec :=
  if k < bufSize then { r with pkt := { r.pkt with buf := Function.update r.pkt.buf k b } }
  else { r with id := r.id >>> 8 <<< 8 ||| b.toUInt32 }

def Msgrec.fill (r : Msgrec) (bytes : List UInt8) : Msgrec :=
  { r with pkt := { r.pkt with buf := fun k => bytes[k]?.getD (r.pkt.buf k) } }

abbrev Result := Option (State × Answer)

def State.exit (s : State) : State × Answer := ({ s with place := .exited }, .silent)

def inside (timers : Tselect.State Tofunc Record FdSet) : Place :=
  match timers.place with
  | .exited => .exited
  | _ => .tselect

def State.arm (s : State) (func : Tofunc) (mp : Record) (ms : Int) (malloc : Bool)
    (now : Option Nat) (onward : State → Result) : Result :=
  match Tselect.step s.timers (.timeout func mp ms malloc now) with
  | some (timers, .created _ id) =>
      onward { s with timers := timers, mr := Function.update s.mr mp { s.mr mp with id := id } }
  | some _ => some s.exit
  | none => none

/-- The function that has been called returns to tselect. -/
def State.back (s : State) (answer : Answer) : Result :=
  (Tselect.step s.timers .return_).map fun r =>
    ({ s with timers := r.1, place := .tselect }, answer)

def lost_ACK (s : State) (mp : Record) (sent malloc : Bool) (now : Option Nat) : Result :=
  if sent then
    s.arm .drop mp T2 malloc now fun s => s.back (.resent mp (4 + (ntohl (s.mr mp).pkt.len).toNat))
  else some s.exit

def drop (s : State) (mp : Record) : Result :=
  match freemsgrec s.mr mp with
  | some mr => { s with mr := mr }.back (.dropped mp)
  | none => some s.exit

def acknowledged (s : State) (ack : List UInt8) : Option (UInt32 × Option Record) :=
  if ack[0]? = some ACK then
    let mid := UInt32.ofNat (value (ack.drop 1).reverse)
    some (mid, findmsgrec s.mr mid)
  else none

def receive (s : State) (readmask : FdSet) (bytes : List UInt8) : Result :=
  let ack := s.ack ++ bytes
  if ack.length < ACKSZ then some ({ s with ack := ack, place := .top }, .silent)
  else
    let s := { s with ack := [] }
    match acknowledged s ack with
    | none => some ({ s with place := .top }, .illegal)
    | some (mid, none) => some ({ s with place := .input readmask }, .unknown mid)
    | some (_, some mp) =>
        (Tselect.step s.timers (.untimeout (s.mr mp).id)).map fun r =>
          match freemsgrec s.mr mp with
          | some mr => ({ s with timers := r.1, mr := mr, place := .input readmask }, .acked mp)
          | none => s.exit

def submit (s : State) (bytes : List UInt8) (sent malloc : Bool) (now : Option Nat)
    (mp : Record) : Result :=
  let rc := bytes.length
  let r := ((s.mr mp).fill bytes).store rc 0
  let r := { r with pkt := { r.pkt with cookie := s.msgid, len := htonl (UInt32.ofNat (4 + rc)) } }
  let s := { s with mr := Function.update s.mr mp r, msgid := s.msgid + 1 }
  if sent then
    s.arm .lostACK mp T1 malloc now fun s =>
      some ({ s with place := .top }, .sent mp (8 + rc) (List.range rc ++ [rc]))
  else some s.exit

/-- recv and read return no more bytes than there is room for. -/
def step (s : State) : Action → Result
  | .enter now =>
      match s.place with
      | .top =>
          (Tselect.step s.timers (.tselect ⟨some ⟨true, true⟩, none, none⟩ now)).map fun r =>
            ({ s with timers := r.1, place := inside r.1 }, .silent)
      | _ => none
  | .turn =>
      match s.place with
      | .tselect =>
          match Tselect.step s.timers .turn with
          | some (timers, .called _ func mp) =>
              some ({ s with timers := timers, place := .calling func mp }, .silent)
          | some (timers, .silent) => some ({ s with timers := timers }, .silent)
          | some _ => some s.exit
          | none => none
      | _ => none
  | .call sent malloc now =>
      match s.place with
      | .calling .lostACK mp => lost_ACK s mp sent malloc now
      | .calling .drop mp => drop s mp
      | _ => none
  | .select n readmask now =>
      match s.place with
      | .tselect =>
          match Tselect.step s.timers (.select n ⟨some readmask, none, none⟩ now) with
          | some (timers, .returned rc _) =>
              if rc < 0 then some s.exit
              else some ({ s with timers := timers, place := .socket readmask }, .silent)
          | some (timers, _) => some ({ s with timers := timers, place := inside timers }, .silent)
          | none => none
      | _ => none
  | .recv bytes =>
      match s.place with
      | .socket readmask =>
          if readmask.s then
            match bytes with
            | none | some [] => some s.exit
            | some bytes =>
                if bytes.length ≤ ACKSZ - s.ack.length then receive s readmask bytes else none
          else some ({ s with place := .input readmask }, .silent)
      | _ => none
  | .read bytes sent malloc now =>
      match s.place with
      | .input readmask =>
          if readmask.stdin then
            match getfreerec s.mr, bytes with
            | none, _ | some _, none => some s.exit
            | some mp, some bytes =>
                if bytes.length ≤ bufSize then submit s bytes sent malloc now mp else none
          else some ({ s with place := .top }, .silent)
      | _ => none

abbrev Step := Transition State Action Answer

def machine : Machine State Action Answer where
  start s := (Tselect.machine Tofunc Record FdSet).start s.timers ∧
    (∀ mp, (s.mr mp).inUse = false) ∧ s.msgid = 0 ∧ s.ack = [] ∧ s.place = .top
  step := step

end NetworkProgramming.Xout3
