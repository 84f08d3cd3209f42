import NetworkProgramming.Datagrams
import NetworkProgramming.Machine

/-!
Request and reply with retransmission over UDP: dg_send_recv of unpv13e/rtt,
the timestamps of lib/rtt.c that it uses, and dg_echo as the peer. SIGALRM may
strike anywhere in the receive loop, from before Recvmsg to before `alarm(0)`.
The estimators of the round trip time are floating point and decide only when
SIGALRM is due, so they are left out.
-/

namespace NetworkProgramming.DgSendRecv

def maxline : Nat := 4096
def rttMaxnrexmt : Nat := 3

structure Timeval where
  sec : Int
  usec : Nat
  deriving DecidableEq

structure RttInfo where
  nrexmt : Nat
  base : UInt32

def rttInit (ptr : RttInfo) (tv : Timeval) : RttInfo := { ptr with base := UInt32.ofInt tv.sec }

def rttTs (ptr : RttInfo) (tv : Timeval) : UInt32 :=
  UInt32.ofInt ((tv.sec - ptr.base.toNat) * 1000 + (tv.usec / 1000 : Nat))

def rttNewpack (ptr : RttInfo) : RttInfo := { ptr with nrexmt := 0 }

/-- The second component: time to give up for this packet. -/
def rttTimeout (ptr : RttInfo) : RttInfo × Bool :=
  ({ ptr with nrexmt := ptr.nrexmt + 1 }, decide (ptr.nrexmt + 1 > rttMaxnrexmt))

structure Hdr where
  seq : UInt32
  ts : UInt32
  deriving DecidableEq

/-! A header travels as it lies in memory; all that matters of the byte order is
that the same host reads it back. -/

def sizeofHdr : Nat := 8

def wordBytes (w : UInt32) : List UInt8 :=
  [UInt8.ofNat w.toNat, UInt8.ofNat (w.toNat / 256), UInt8.ofNat (w.toNat / 65536),
    UInt8.ofNat (w.toNat / 16777216)]

def wordAt (memory : List UInt8) (offset : Nat) : UInt32 :=
  let byte (i : Nat) : Nat := (memory.getD (offset + i) 0).toNat
  UInt32.ofNat (byte 0 + byte 1 * 256 + byte 2 * 65536 + byte 3 * 16777216)

def Hdr.bytes (h : Hdr) : List UInt8 := wordBytes h.seq ++ wordBytes h.ts

abbrev Datagram := List UInt8

structure Static where
  rttinfo : RttInfo
  rttinit : Bool
  sendhdr : Hdr
  recvhdr : List UInt8

inductive Place where
  | idle
  | sendagain
  | recvmsg
  | test
  | stop
  deriving DecidableEq

structure Args where
  outbuff : List UInt8
  inbytes : Nat
  inbuff : List UInt8
  n : Nat

structure State where
  static : Static
  place : Place
  args : Args
  toPeer : Multiset Datagram
  toSocket : Multiset Datagram

inductive Action where
  | call (outbuff : List UInt8) (inbytes : Nat) (inbuff : List UInt8) (tv : Timeval)
  | send (tv : Timeval)
  | recvmsg (d : Datagram)
  | test
  | stop (tv : Timeval)
  | alarm
  | echo (d : Datagram)
  | disturbToPeer (fault : Datagrams.Fault Datagram)
  | disturbToSocket (fault : Datagrams.Fault Datagram)
  deriving DecidableEq

/-- `returned` carries what the call returns, the bytes it leaves in `inbuff`
and the argument of rtt_stop. -/
inductive Event where
  | quiet
  | returned (n : Nat) (bytes : List UInt8) (ms : UInt32) (tv : Timeval)
  | gaveUp
  deriving DecidableEq

abbrev Step := Transition State Action Event

def begin (static : Static) (tv : Timeval) : Static :=
  let rttinfo := if static.rttinit then static.rttinfo else rttInit static.rttinfo tv
  { static with
    rttinfo := rttNewpack rttinfo
    rttinit := true
    sendhdr := { static.sendhdr with seq := static.sendhdr.seq + 1 } }

def stamp (static : Static) (tv : Timeval) : Static :=
  { static with sendhdr := { static.sendhdr with ts := rttTs static.rttinfo tv } }

/-- A datagram is scattered over `recvhdr` and `inbuff` and cut to their size. -/
def scatter (s : State) (d : Datagram) : State :=
  let bytes := d.take (sizeofHdr + s.args.inbytes)
  { s with
    static := { s.static with
      recvhdr := bytes.take sizeofHdr ++ s.static.recvhdr.drop bytes.length }
    args := { s.args with
      inbuff := bytes.drop sizeofHdr ++ s.args.inbuff.drop (bytes.length - sizeofHdr)
      n := bytes.length }
    place := .test }

def dgEcho (d : Datagram) : Datagram := d.take maxline

def timeout (s : State) : State × Event :=
  let (rttinfo, giveUp) := rttTimeout s.static.rttinfo
  if giveUp then
    ({ s with
      static := { s.static with rttinfo := rttinfo, rttinit := false }
      place := .idle }, .gaveUp)
  else ({ s with static := { s.static with rttinfo := rttinfo }, place := .sendagain }, .quiet)

def step (s : State) : Action → Option (State × Event)
  | .call outbuff inbytes inbuff tv =>
      if s.place = .idle then
        some ({ s with
          static := begin s.static tv
          place := .sendagain
          args := ⟨outbuff, inbytes, inbuff, 0⟩ }, .quiet)
      else none
  | .send tv =>
      if s.place = .sendagain then
        let static := stamp s.static tv
        some ({ s with
          static := static
          place := .recvmsg
          toPeer := (static.sendhdr.bytes ++ s.args.outbuff) ::ₘ s.toPeer }, .quiet)
      else none
  | .recvmsg d =>
      if s.place = .recvmsg then
        (Datagrams.receive s.toSocket d).map fun rest =>
          ({ scatter s d with toSocket := rest }, .quiet)
      else none
  | .test =>
      if s.place = .test then
        if s.args.n < sizeofHdr ∨ wordAt s.static.recvhdr 0 ≠ s.static.sendhdr.seq then
          some ({ s with place := .recvmsg }, .quiet)
        else some ({ s with place := .stop }, .quiet)
      else none
  | .stop tv =>
      if s.place = .stop then
        some ({ s with place := .idle },
          .returned (s.args.n - sizeofHdr) (s.args.inbuff.take (s.args.n - sizeofHdr))
            (rttTs s.static.rttinfo tv - wordAt s.static.recvhdr 4) tv)
      else none
  | .alarm =>
      match s.place with
      | .recvmsg | .test | .stop => some (timeout s)
      | _ => none
  | .echo d => (Datagrams.receive s.toPeer d).map fun rest =>
      ({ s with toPeer := rest, toSocket := dgEcho d ::ₘ s.toSocket }, .quiet)
  | .disturbToPeer fault => (Datagrams.disturb s.toPeer fault).map fun rest =>
      ({ s with toPeer := rest }, .quiet)
  | .disturbToSocket fault => (Datagrams.disturb s.toSocket fault).map fun rest =>
      ({ s with toSocket := rest }, .quiet)

/-- Static storage starts out as zeros. -/
def start : State where
  static := ⟨⟨0, 0⟩, false, ⟨0, 0⟩, List.replicate sizeofHdr 0⟩
  place := .idle
  args := ⟨[], 0, [], 0⟩
  toPeer := 0
  toSocket := 0

def machine : Machine State Action Event where
  start s := s = start
  step := step

def State.retransmit (s : State) : State :=
  { s with
    static := { s.static with rttinfo := (rttTimeout s.static.rttinfo).1 }
    place := .sendagain }

def State.giveUp (s : State) : State :=
  { s with
    static := { s.static with rttinfo := (rttTimeout s.static.rttinfo).1, rttinit := false }
    place := .idle }

inductive Effect (s : State) : Action → State → Event → Prop where
  | call (outbuff : List UInt8) (inbytes : Nat) (inbuff : List UInt8) (tv : Timeval)
      (here : s.place = .idle) :
      Effect s (.call outbuff inbytes inbuff tv)
        { s with
          static := begin s.static tv
          place := .sendagain
          args := ⟨outbuff, inbytes, inbuff, 0⟩ } .quiet
  | send (tv : Timeval) (here : s.place = .sendagain) :
      Effect s (.send tv)
        { s with
          static := stamp s.static tv
          place := .recvmsg
          toPeer := ((stamp s.static tv).sendhdr.bytes ++ s.args.outbuff) ::ₘ s.toPeer } .quiet
  | recvmsg (d : Datagram) (rest : Multiset Datagram) (here : s.place = .recvmsg)
      (received : Datagrams.receive s.toSocket d = some rest) :
      Effect s (.recvmsg d) { scatter s d with toSocket := rest } .quiet
  | again (here : s.place = .test) : Effect s .test { s with place := .recvmsg } .quiet
  | accept (here : s.place = .test) (whole : sizeofHdr ≤ s.args.n)
      (same : wordAt s.static.recvhdr 0 = s.static.sendhdr.seq) :
      Effect s .test { s with place := .stop } .quiet
  | stop (tv : Timeval) (here : s.place = .stop) :
      Effect s (.stop tv) { s with place := .idle }
        (.returned (s.args.n - sizeofHdr) (s.args.inbuff.take (s.args.n - sizeofHdr))
          (rttTs s.static.rttinfo tv - wordAt s.static.recvhdr 4) tv)
  | retransmit (here : s.place ≠ .idle) : Effect s .alarm s.retransmit .quiet
  | giveUp (here : s.place ≠ .idle) : Effect s .alarm s.giveUp .gaveUp
  | echo (d : Datagram) (rest : Multiset Datagram)
      (received : Datagrams.receive s.toPeer d = some rest) :
      Effect s (.echo d) { s with toPeer := rest, toSocket := dgEcho d ::ₘ s.toSocket } .quiet
  | disturbToPeer (fault : Datagrams.Fault Datagram) (rest : Multiset Datagram)
      (disturbed : Datagrams.disturb s.toPeer fault = some rest) :
      Effect s (.disturbToPeer fault) { s with toPeer := rest } .quiet
  | disturbToSocket (fault : Datagrams.Fault Datagram) (rest : Multiset Datagram)
      (disturbed : Datagrams.disturb s.toSocket fault = some rest) :
      Effect s (.disturbToSocket fault) { s with toSocket := rest } .quiet

theorem timeout_effect (s after : State) (event : Event) (here : s.place ≠ .idle)
    (ran : timeout s = (after, event)) : Effect s .alarm after event := by
  simp only [timeout] at ran
  split at ran <;> cases ran
  · exact .giveUp here
  · exact .retransmit here

theorem step_effect (s after : State) (action : Action) (event : Event)
    (stepped : step s action = some (after, event)) : Effect s action after event := by
  cases action with
  | call outbuff inbytes inbuff tv =>
      simp only [step, Option.ite_none_right_eq_some, Option.some.injEq, Prod.mk.injEq] at stepped
      obtain ⟨here, rfl, rfl⟩ := stepped
      exact .call outbuff inbytes inbuff tv here
  | send tv =>
      simp only [step, Option.ite_none_right_eq_some, Option.some.injEq, Prod.mk.injEq] at stepped
      obtain ⟨here, rfl, rfl⟩ := stepped
      exact .send tv here
  | recvmsg d =>
      simp only [step, Option.ite_none_right_eq_some, Option.map_eq_some_iff,
        Prod.mk.injEq] at stepped
      obtain ⟨here, rest, received, rfl, rfl⟩ := stepped
      exact .recvmsg d rest here received
  | test =>
      simp only [step, Option.ite_none_right_eq_some] at stepped
      obtain ⟨here, stepped⟩ := stepped
      split at stepped <;> simp only [Option.some.injEq, Prod.mk.injEq] at stepped <;>
        obtain ⟨rfl, rfl⟩ := stepped
      · exact .again here
      · rename_i passed
        rw [not_or, not_lt, not_ne_iff] at passed
        exact .accept here passed.1 passed.2
  | stop tv =>
      simp only [step, Option.ite_none_right_eq_some, Option.some.injEq, Prod.mk.injEq] at stepped
      obtain ⟨here, rfl, rfl⟩ := stepped
      exact .stop tv here
  | alarm =>
      cases here : s.place with
      | idle => simp [step, here] at stepped
      | sendagain => simp [step, here] at stepped
      | _ =>
          simp only [step, here, Option.some.injEq] at stepped
          exact timeout_effect s after event (by simp [here]) stepped
  | echo d =>
      simp only [step, Option.map_eq_some_iff, Prod.mk.injEq] at stepped
      obtain ⟨rest, received, rfl, rfl⟩ := stepped
      exact .echo d rest received
  | disturbToPeer fault =>
      simp only [step, Option.map_eq_some_iff, Prod.mk.injEq] at stepped
      obtain ⟨rest, disturbed, rfl, rfl⟩ := stepped
      exact .disturbToPeer fault rest disturbed
  | disturbToSocket fault =>
      simp only [step, Option.map_eq_some_iff, Prod.mk.injEq] at stepped
      obtain ⟨rest, disturbed, rfl, rfl⟩ := stepped
      exact .disturbToSocket fault rest disturbed

end NetworkProgramming.DgSendRecv
