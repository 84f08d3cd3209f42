import NetworkProgramming.Chain
import NetworkProgramming.Monitor
import NetworkProgramming.Posix

/-!
The memory-mapped message queue of unpv22e/my_pxmsg_mmap. A queue is one mapped
file: a header, then `mq_maxmsg` slots of equal size, each a `mymsg_hdr` and
room for `mq_msgsize` bytes. Offsets into the file are naturals and 0 is the end
of a list. Slot headers and message bytes are kept apart, since no code reads
one as the other. Sizes are those of an LP64 system.
-/

namespace NetworkProgramming.Mymq

structure MymqAttr where
  mqFlags : BitVec 64
  mqMaxmsg : Int
  mqMsgsize : Int
  mqCurmsgs : Int
  deriving DecidableEq

structure Sigevent where
  sigevNotify : Int
  sigevSigno : Int
  sigevValue : Int
  deriving DecidableEq

structure MymqHdr where
  mqhAttr : MymqAttr
  mqhHead : Nat
  mqhFree : Nat
  mqhNwait : Int
  mqhPid : Int
  mqhEvent : Sigevent
  deriving DecidableEq

structure MymsgHdr where
  msgNext : Nat
  msgLen : Nat
  msgPrio : UInt32
  deriving DecidableEq

structure MappedFile where
  hdr : MymqHdr
  msg : Nat → MymsgHdr
  byte : Nat → UInt8

/-- One per `mymq_open`; `mqi_hdr` is the one mapped file. -/
structure MymqInfo where
  mqiMagic : Nat
  mqiFlags : BitVec 32
  deriving DecidableEq

def mqiMagic : Nat := 0x98765432
def oNonblock : BitVec 32 := 0x800
def sigevSignal : Int := 0

def sizeofMymqHdr : Nat := 216
def sizeofMymsgHdr : Nat := 24
def sizeofLong : Nat := 8
def longMax : Nat := 2 ^ 63 - 1
def intMax : Nat := 2 ^ 31 - 1

/-- A `long` compared with a `size_t` is converted to it. -/
def sizeT (n : Int) : Nat := (n % 2 ^ 64).toNat

def msgSize (i : Nat) : Nat := (i + sizeofLong - 1) / sizeofLong * sizeofLong

/-! ### mq_open.c: the first opener lays the file out. -/

def defattr : MymqAttr := ⟨0, 128, 1024, 0⟩

inductive Opened where
  | failed (error : Errno)
  /-- A size or the `int` that counts slots is too large for its type. -/
  | overflows
  | created (file : MappedFile)

def stride (attr : MymqAttr) : Nat := sizeofMymsgHdr + msgSize attr.mqMsgsize.toNat

def fileSize (attr : MymqAttr) : Nat := sizeofMymqHdr + attr.mqMaxmsg.toNat * stride attr

def linkFree (step : Nat) : Nat → Nat → (Nat → MymsgHdr) → Nat × (Nat → MymsgHdr)
  | 0, index, msg => (index, msg)
  | more + 1, index, msg => linkFree step more (index + step)
      (Function.update msg index { msg index with msgNext := index + step })

def endFree (linked : Nat × (Nat → MymsgHdr)) : Nat → MymsgHdr :=
  Function.update linked.2 linked.1 { linked.2 linked.1 with msgNext := 0 }

def initialHdrs : Nat → MymsgHdr := fun _ => ⟨0, 0, 0⟩

def initialized (attr : MymqAttr) : MappedFile :=
  { hdr :=
      { mqhAttr := ⟨0, attr.mqMaxmsg, attr.mqMsgsize, 0⟩
        mqhHead := 0
        mqhFree := sizeofMymqHdr
        mqhNwait := 0
        mqhPid := 0
        mqhEvent := ⟨0, 0, 0⟩ }
    msg := endFree (linkFree (stride attr) (attr.mqMaxmsg.toNat - 1) sizeofMymqHdr initialHdrs)
    byte := fun _ => 0 }

/-- The part of `mymq_open` that decides what a created queue looks like; a null
`attr` is `none`. -/
def mymqOpen (attr : Option MymqAttr) : Opened :=
  match attr with
  | none => .created (initialized defattr)
  | some attr =>
      if attr.mqMaxmsg ≤ 0 ∨ attr.mqMsgsize ≤ 0 then .failed .einval
      else if fileSize attr > longMax ∨ attr.mqMaxmsg - 1 > intMax then .overflows
      else .created (initialized attr)

/-! ### The functions on an open queue. -/

structure Message where
  bytes : List UInt8
  prio : UInt32
  deriving DecidableEq

structure Sigqueue where
  pid : Int
  signo : Int
  value : Int
  deriving DecidableEq

inductive Reply where
  | sent
  | received (bytes : List UInt8) (len : Nat) (prio : Option UInt32)
  | notified
  | attributes (mqstat : Option MymqAttr)
  | failed (error : Errno)
  | waits
  /-- `err_dump`. -/
  | dumps
  /-- The search for a place in the list never ends. -/
  | loops
  deriving DecidableEq

structure Output where
  reply : Reply
  sigqueued : Option Sigqueue
  deriving DecidableEq

/-- A call inside its `pthread_cond_wait`, with the arguments it still needs. -/
inductive Waiter where
  | send (m : Message)
  | receive (priop : Bool)
  deriving DecidableEq

structure Shared (Handle : Type*) where
  file : MappedFile
  info : Handle → MymqInfo

variable {Handle : Type*}

abbrev MqSection (Handle : Type*) := Section (Shared Handle) Unit Waiter Unit Output

def finish (shared : Shared Handle) (reply : Reply) : MqSection Handle :=
  ⟨shared, .quiet, ⟨reply, none⟩, .leave ()⟩

/-- How all five functions begin. `locked` is what `pthread_mutex_lock` returned. -/
def withLock (handle : Handle) (locked : Option Errno) (shared : Shared Handle)
    (body : MqSection Handle) : MqSection Handle :=
  if (shared.info handle).mqiMagic ≠ mqiMagic then finish shared (.failed .ebadf)
  else match locked with
    | some n => finish shared (.failed n)
    | none => body

def nonblocking (info : MymqInfo) : Bool := decide (info.mqiFlags &&& oNonblock ≠ 0)

def memcpy (byte : Nat → UInt8) (dst : Nat) (bytes : List UInt8) : Nat → UInt8 :=
  fun at_ => if dst ≤ at_ then bytes.getD (at_ - dst) (byte at_) else byte at_

def bytesAt (byte : Nat → UInt8) (src len : Nat) : List UInt8 :=
  (List.range len).map fun k => byte (src + k)

/-- A `msg_next`, or `mqh_head` at `none`: `pmsghdr` may point to either. -/
def MappedFile.next (file : MappedFile) : Option Nat → Nat
  | none => file.hdr.mqhHead
  | some index => (file.msg index).msgNext

def MappedFile.setNext (file : MappedFile) (p : Option Nat) (index : Nat) : MappedFile :=
  match p with
  | none => { file with hdr := { file.hdr with mqhHead := index } }
  | some i => { file with msg := Function.update file.msg i { file.msg i with msgNext := index } }

def MappedFile.addCurmsgs (file : MappedFile) (n : Int) : MappedFile :=
  { file with hdr := { file.hdr with
      mqhAttr := { file.hdr.mqhAttr with mqCurmsgs := file.hdr.mqhAttr.mqCurmsgs + n } } }

def MappedFile.addNwait (file : MappedFile) (n : Int) : MappedFile :=
  { file with hdr := { file.hdr with mqhNwait := file.hdr.mqhNwait + n } }

/-- The `while (index != 0)` of `mymq_send` and the test after it. -/
def place (freeindex : Nat) (prio : UInt32) :
    Nat → MappedFile → Option Nat → Nat → Option MappedFile
  | 0, _, _, _ => none
  | fuel + 1, file, pmsghdr, index =>
      if index = 0 then some ((file.setNext pmsghdr freeindex).setNext (some freeindex) 0)
      else if prio > (file.msg index).msgPrio then
        some ((file.setNext (some freeindex) index).setNext pmsghdr freeindex)
      else place freeindex prio fuel file (some index) (file.msg index).msgNext

def MappedFile.fill (file : MappedFile) (m : Message) : MappedFile :=
  let freeindex := file.hdr.mqhFree
  { hdr := { file.hdr with mqhFree := (file.msg freeindex).msgNext }
    msg := Function.update file.msg freeindex
      { file.msg freeindex with msgPrio := m.prio, msgLen := m.bytes.length }
    byte := memcpy file.byte (freeindex + sizeofMymsgHdr) m.bytes }

/-- `mymq_send` from the point where it has room, `sigqueued` before. -/
def sendLink (m : Message) (sigqueued : Option Sigqueue) (shared : Shared Handle) :
    MqSection Handle :=
  let attr := shared.file.hdr.mqhAttr
  let freeindex := shared.file.hdr.mqhFree
  if freeindex = 0 then ⟨shared, .quiet, ⟨.dumps, sigqueued⟩, .leave ()⟩
  else match place freeindex m.prio (attr.mqMaxmsg.toNat + 1) (shared.file.fill m) none
      shared.file.hdr.mqhHead with
    | none => ⟨shared, .quiet, ⟨.loops, sigqueued⟩, .leave ()⟩
    | some linked =>
        { shared := { shared with file := linked.addCurmsgs 1 }
          wake := if attr.mqCurmsgs = 0 then .signal () else .quiet
          output := ⟨.sent, sigqueued⟩
          exit := .leave () }

-- `while (attr->mq_curmsgs >= attr->mq_maxmsg)`, from a test of its condition.
def sendLoop (m : Message) (shared : Shared Handle) : MqSection Handle :=
  let attr := shared.file.hdr.mqhAttr
  if attr.mqCurmsgs ≥ attr.mqMaxmsg then ⟨shared, .quiet, ⟨.waits, none⟩, .wait (.send m)⟩
  else sendLink m none shared

def notifyRegistered (hdr : MymqHdr) : MymqHdr × Option Sigqueue :=
  if hdr.mqhPid ≠ 0 ∧ hdr.mqhNwait = 0 then
    ({ hdr with mqhPid := 0 },
      if hdr.mqhEvent.sigevNotify = sigevSignal then
        some ⟨hdr.mqhPid, hdr.mqhEvent.sigevSigno, hdr.mqhEvent.sigevValue⟩
      else none)
  else (hdr, none)

def mymqSend (handle : Handle) (locked : Option Errno) (m : Message) (shared : Shared Handle) :
    MqSection Handle :=
  withLock handle locked shared <|
    let attr := shared.file.hdr.mqhAttr
    if m.bytes.length > sizeT attr.mqMsgsize then finish shared (.failed .emsgsize)
    else if attr.mqCurmsgs = 0 then
      let (hdr, sigqueued) := notifyRegistered shared.file.hdr
      sendLink m sigqueued { shared with file := { shared.file with hdr := hdr } }
    else if attr.mqCurmsgs ≥ attr.mqMaxmsg then
      if nonblocking (shared.info handle) then finish shared (.failed .eagain)
      else sendLoop m shared
    else sendLink m none shared

/-- `mymq_receive` from the point where there is a message. -/
def receiveTake (priop : Bool) (shared : Shared Handle) : MqSection Handle :=
  let file := shared.file
  let index := file.hdr.mqhHead
  let msghdr := file.msg index
  if index = 0 then finish shared .dumps
  else
    let taken : MappedFile :=
      { file with
        hdr := { file.hdr with mqhHead := msghdr.msgNext, mqhFree := index }
        msg := Function.update file.msg index { msghdr with msgNext := file.hdr.mqhFree } }
    { shared := { shared with file := taken.addCurmsgs (-1) }
      wake := if file.hdr.mqhAttr.mqCurmsgs = file.hdr.mqhAttr.mqMaxmsg then .signal () else .quiet
      output := ⟨.received (bytesAt file.byte (index + sizeofMymsgHdr) msghdr.msgLen)
        msghdr.msgLen (if priop then some msghdr.msgPrio else none), none⟩
      exit := .leave () }

-- `while (attr->mq_curmsgs == 0)`, from a test of its condition, to `mqh_nwait--`.
def receiveLoop (priop : Bool) (shared : Shared Handle) : MqSection Handle :=
  if shared.file.hdr.mqhAttr.mqCurmsgs = 0 then
    ⟨shared, .quiet, ⟨.waits, none⟩, .wait (.receive priop)⟩
  else receiveTake priop { shared with file := shared.file.addNwait (-1) }

def mymqReceive (handle : Handle) (locked : Option Errno) (maxlen : Nat) (priop : Bool)
    (shared : Shared Handle) : MqSection Handle :=
  withLock handle locked shared <|
    let attr := shared.file.hdr.mqhAttr
    if maxlen < sizeT attr.mqMsgsize then finish shared (.failed .emsgsize)
    else if attr.mqCurmsgs = 0 then
      if nonblocking (shared.info handle) then finish shared (.failed .eagain)
      else receiveLoop priop { shared with file := shared.file.addNwait 1 }
    else receiveTake priop shared

/-- `pid` is the caller's; `gone` says that `kill(mqh_pid, 0)` fails with ESRCH. -/
def mymqNotify (handle : Handle) (locked : Option Errno) (pid : Int)
    (notification : Option Sigevent) (gone : Bool) (shared : Shared Handle) : MqSection Handle :=
  withLock handle locked shared <|
    let hdr := shared.file.hdr
    match notification with
    | none =>
        if hdr.mqhPid = pid then
          finish { shared with file := { shared.file with hdr := { hdr with mqhPid := 0 } } }
            .notified
        else finish shared .notified
    | some event =>
        if hdr.mqhPid ≠ 0 ∧ gone = false then finish shared (.failed .ebusy)
        else finish { shared with file := { shared.file with
          hdr := { hdr with mqhPid := pid, mqhEvent := event } } } .notified

def attributes (info : MymqInfo) (attr : MymqAttr) : MymqAttr :=
  { attr with mqFlags := info.mqiFlags.signExtend 64 }

/-- `wanted` says that `omqstat` is not null. -/
def mymqSetattr [DecidableEq Handle] (handle : Handle) (locked : Option Errno)
    (mqFlags : BitVec 64) (wanted : Bool) (shared : Shared Handle) : MqSection Handle :=
  withLock handle locked shared <|
    let info := shared.info handle
    let flags := if mqFlags &&& oNonblock.signExtend 64 ≠ 0 then info.mqiFlags ||| oNonblock
      else info.mqiFlags &&& ~~~oNonblock
    finish { shared with
        info := Function.update shared.info handle { info with mqiFlags := flags } }
      (.attributes (if wanted then some (attributes info shared.file.hdr.mqhAttr) else none))

def mymqGetattr (handle : Handle) (locked : Option Errno) (shared : Shared Handle) :
    MqSection Handle :=
  withLock handle locked shared <|
    finish shared (.attributes (some (attributes (shared.info handle) shared.file.hdr.mqhAttr)))

inductive Op where
  | send (m : Message)
  | receive (maxlen : Nat) (priop : Bool)
  | notify (pid : Int) (notification : Option Sigevent) (gone : Bool)
  | setattr (mqFlags : BitVec 64) (wanted : Bool)
  | getattr
  deriving DecidableEq

structure Call (Handle : Type*) where
  handle : Handle
  locked : Option Errno
  op : Op
  deriving DecidableEq

variable [DecidableEq Handle]

def enter (shared : Shared Handle) (call : Call Handle) : MqSection Handle :=
  match call.op with
  | .send m => mymqSend call.handle call.locked m shared
  | .receive maxlen priop => mymqReceive call.handle call.locked maxlen priop shared
  | .notify pid notification gone =>
      mymqNotify call.handle call.locked pid notification gone shared
  | .setattr mqFlags wanted => mymqSetattr call.handle call.locked mqFlags wanted shared
  | .getattr => mymqGetattr call.handle call.locked shared

/-- `pthread_cond_wait` has returned, whatever it returned. -/
def resume (shared : Shared Handle) : Waiter → MqSection Handle
  | .send m => sendLoop m shared
  | .receive priop => receiveLoop priop shared

def monitor : Monitor (Shared Handle) Unit Waiter Unit (Call Handle) Unit Output where
  condOf _ := ()
  enter _ call shared := some (enter shared call)
  resume _ call shared := resume shared call
  cleanup _ _ := none

abbrev State (Thread Handle : Type*) := Monitor.State Thread (Shared Handle) Unit Waiter
abbrev Step (Thread Handle : Type*) :=
  Transition (State Thread Handle) (Monitor.Action Thread (Call Handle) Unit) (Option Output)

/-- All runs on a queue that `mymq_open` created with these attributes, through
any handles. -/
def machine {Thread : Type*} [Fintype Thread] [DecidableEq Thread] (attr : Option MymqAttr) :
    Machine (State Thread Handle) (Monitor.Action Thread (Call Handle) Unit) (Option Output) :=
  monitor.machine () fun shared => mymqOpen attr = .created shared.file

end NetworkProgramming.Mymq
