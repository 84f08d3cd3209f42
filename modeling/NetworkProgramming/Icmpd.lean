import Mathlib.Data.List.FinRange
import NetworkProgramming.Machine

/-!
The ICMP error daemon of unpv13e/icmpd: readable_listen, readable_conn,
readable_v4 and readable_v6 over the table `client`. The environment decides
which of them runs next, what accept, the clients and the raw sockets deliver,
and which writes fail. The descriptor sets only tell select what to watch and
are left out. Ports keep the 16 bits of the packet, in the order of the host
that reads them; they are compared and copied, nothing else.
-/

namespace NetworkProgramming.Icmpd

inductive Family where
  | unspec
  | inet
  | inet6
  | other
  deriving DecidableEq

/-- `connfd` is `none` for -1, an available entry. -/
structure Client where
  connfd : Option Nat
  family : Family
  lport : Int
  deriving DecidableEq

/-- A descriptor from a client: what getsockname says, and the port that a bind
to port 0 gives it. -/
structure Passed where
  name : Option (Family × UInt16)
  bound : Option UInt16
  deriving DecidableEq

inductive Request where
  | readError
  | terminated
  | noDescriptor
  | descriptor (passed : Passed)
  deriving DecidableEq

inductive Verdict where
  | errSys
  | clientdone
  | clienterr
  | registered
  deriving DecidableEq

def sockGetPort : Family → UInt16 → Int
  | .inet, port | .inet6, port => port.toNat
  | _, _ => -1

def sockBindWild : Family → Option UInt16 → Int
  | .inet, some port | .inet6, some port => port.toNat
  | _, _ => -1

/-- The entry is updated before the error paths are known. -/
def readableConn (client : Client) : Request → Client × Verdict
  | .readError => (client, .errSys)
  | .terminated => ({ client with connfd := none }, .clientdone)
  | .noDescriptor => ({ client with connfd := none }, .clienterr)
  | .descriptor passed =>
      match passed.name with
      | none => ({ client with connfd := none }, .clienterr)
      | some (family, port) =>
          let lport := sockGetPort family port
          if lport = 0 then
            let lport := sockBindWild family passed.bound
            if lport ≤ 0 then (⟨none, family, lport⟩, .clienterr)
            else (⟨client.connfd, family, lport⟩, .registered)
          else (⟨client.connfd, family, lport⟩, .registered)

inductive IcmpdErrno where
  | ehostunreach
  | emsgsize
  | econnrefused
  deriving DecidableEq

structure Dest where
  family : Family
  addr : List UInt8
  port : UInt16
  deriving DecidableEq

structure IcmpdErr where
  icmpdErrno : IcmpdErrno
  icmpdType : UInt8
  icmpdCode : UInt8
  icmpdLen : Nat
  icmpdDest : Dest
  deriving DecidableEq

/-- `n` bytes have been received into `buf`; the rest of it is as it was. -/
structure Packet where
  n : Nat
  buf : Nat → UInt8

def Packet.port (packet : Packet) (k : Nat) : UInt16 :=
  UInt16.ofNat ((packet.buf k).toNat + 256 * (packet.buf (k + 1)).toNat)

def Packet.bytes (packet : Packet) (k len : Nat) : List UInt8 :=
  (List.range len).map fun j => packet.buf (k + j)

/-- `ip_hl << 2` of the IP header at `k`. -/
def Packet.hlen (packet : Packet) (k : Nat) : Nat := (packet.buf k).toNat % 16 * 4

def icmpUnreach : UInt8 := 3
def icmpSourcequench : UInt8 := 4
def icmpTimxceed : UInt8 := 11
def icmpUnreachPort : UInt8 := 3
def icmpUnreachNeedfrag : UInt8 := 4
def icmp6DstUnreach : UInt8 := 1
def icmp6PacketTooBig : UInt8 := 2
def icmp6TimeExceeded : UInt8 := 3
def icmp6DstUnreachNoport : UInt8 := 4
def ipprotoUdp : UInt8 := 17

/-- What a message asks for: nothing, the end of the daemon (err_quit), or a
report to whoever sends from the port in the quoted datagram. -/
inductive Quoted where
  | ignored
  | errQuit
  | udp (sport : UInt16) (err : IcmpdErr)
  deriving DecidableEq

def errno4 (type code : UInt8) : IcmpdErrno :=
  if type = icmpUnreach then
    if code = icmpUnreachPort then .econnrefused
    else if code = icmpUnreachNeedfrag then .emsgsize
    else .ehostunreach
  else .ehostunreach

def errno6 (type code : UInt8) : IcmpdErrno :=
  if type = icmp6PacketTooBig then .emsgsize
  else if type = icmp6DstUnreach ∧ code = icmp6DstUnreachNoport then .econnrefused
  else .ehostunreach

def quoted4 (packet : Packet) : Quoted :=
  let hlen1 := packet.hlen 0
  let type := packet.buf hlen1
  let code := packet.buf (hlen1 + 1)
  if packet.n < hlen1 + 8 then .errQuit
  else if type = icmpUnreach ∨ type = icmpTimxceed ∨ type = icmpSourcequench then
    if packet.n < hlen1 + (8 + 20 + 8) then .errQuit
    else
      let hip := hlen1 + 8
      let udp := hip + packet.hlen hip
      if packet.buf (hip + 9) = ipprotoUdp then
        .udp (packet.port udp)
          ⟨errno4 type code, type, code, 16,
            ⟨.inet, packet.bytes (hip + 16) 4, packet.port (udp + 2)⟩⟩
      else .ignored
  else .ignored

def quoted6 (packet : Packet) : Quoted :=
  let type := packet.buf 0
  let code := packet.buf 1
  if packet.n < 8 then .errQuit
  else if type = icmp6DstUnreach ∨ type = icmp6PacketTooBig ∨ type = icmp6TimeExceeded then
    if packet.n < 8 + 8 then .errQuit
    else
      let hip6 := 8
      let udp := hip6 + 40
      if packet.buf (hip6 + 6) = ipprotoUdp then
        .udp (packet.port udp)
          ⟨errno6 type code, type, code, 28,
            ⟨.inet6, packet.bytes (hip6 + 24) 16, packet.port (udp + 2)⟩⟩
      else .ignored
  else .ignored

inductive Version where
  | v4
  | v6
  deriving DecidableEq

def Version.family : Version → Family
  | .v4 => .inet
  | .v6 => .inet6

def Version.quoted : Version → Packet → Quoted
  | .v4 => quoted4
  | .v6 => quoted6

variable {fdSetsize : Nat}

structure State (fdSetsize : Nat) where
  client : Fin fdSetsize → Client
  maxi : Int
  quit : Bool

/-- `written` is whether a Write succeeds; of several, `some k` means that only
the first `k` do. -/
inductive Action (fdSetsize : Nat) where
  | listen (connfd : Nat)
  | conn (i : Fin fdSetsize) (request : Request) (written : Bool)
  | icmp (version : Version) (packet : Packet) (written : Option Nat)

inductive Event (fdSetsize : Nat) where
  | quiet
  | reported (clients : List (Fin fdSetsize)) (family : Family) (sport : UInt16) (err : IcmpdErr)
  deriving DecidableEq

abbrev Step (fdSetsize : Nat) :=
  Transition (State fdSetsize) (Action fdSetsize) (Event fdSetsize)

def State.set (s : State fdSetsize) (i : Fin fdSetsize) (client : Client) : State fdSetsize :=
  { s with client := Function.update s.client i client }

def available (s : State fdSetsize) : Option (Fin fdSetsize) :=
  (List.finRange fdSetsize).find? fun i => (s.client i).connfd = none

def readableListen (s : State fdSetsize) (connfd : Nat) : State fdSetsize :=
  match available s with
  | none => s
  | some i => { s.set i { s.client i with connfd := some connfd } with maxi := max s.maxi i }

def recipients (s : State fdSetsize) (family : Family) (sport : UInt16) : List (Fin fdSetsize) :=
  (List.finRange fdSetsize).filter fun i =>
    (i : Int) ≤ s.maxi ∧ (s.client i).connfd ≠ none ∧ (s.client i).family = family ∧
      (s.client i).lport = sport.toNat

def readableIcmp (s : State fdSetsize) (version : Version) (packet : Packet)
    (written : Option Nat) : State fdSetsize × Event fdSetsize :=
  match version.quoted packet with
  | .ignored => (s, .quiet)
  | .errQuit => ({ s with quit := true }, .quiet)
  | .udp sport err =>
      let clients := recipients s version.family sport
      match written with
      | none => (s, .reported clients version.family sport err)
      | some k => ({ s with quit := true }, .reported (clients.take k) version.family sport err)

def step (s : State fdSetsize) : Action fdSetsize → Option (State fdSetsize × Event fdSetsize)
  | .listen connfd =>
      if s.quit = false ∧ ∀ i, (s.client i).connfd ≠ some connfd then
        some (readableListen s connfd, .quiet)
      else none
  | .conn i request written =>
      if s.quit = false ∧ (s.client i).connfd ≠ none then
        let did := readableConn (s.client i) request
        match did.2, written with
        | .errSys, _ | .clienterr, false | .registered, false =>
            some ({ s with quit := true }, .quiet)
        | .clientdone, _ | .clienterr, true | .registered, true => some (s.set i did.1, .quiet)
      else none
  | .icmp version packet written =>
      if s.quit = false then some (readableIcmp s version packet written) else none

/-- The table is static, so its entries begin with family 0 and port 0. -/
def start (fdSetsize : Nat) : State fdSetsize := ⟨fun _ => ⟨none, .unspec, 0⟩, -1, false⟩

def machine (fdSetsize : Nat) :
    Machine (State fdSetsize) (Action fdSetsize) (Event fdSetsize) where
  start s := s = start fdSetsize
  step := step

/-! What readable_conn leaves in the entry. -/

theorem readable_conn_closed (client : Client) (request : Request)
    (verdict : (readableConn client request).2 = .clientdone ∨
      (readableConn client request).2 = .clienterr) :
    (readableConn client request).1.connfd = none := by
  cases request with
  | readError => simp [readableConn] at verdict
  | terminated => rfl
  | noDescriptor => rfl
  | descriptor passed =>
      cases name : passed.name with
      | none => simp [readableConn, name]
      | some socket =>
          obtain ⟨family, port⟩ := socket
          simp only [readableConn, name] at verdict ⊢
          split at verdict
          · rename_i unbound
            rw [if_pos unbound]
            split at verdict
            · rename_i failed
              rw [if_pos failed]
            · simp at verdict
          · simp at verdict

def Passed.socket (passed : Passed) : Option (Family × UInt16) :=
  match passed.name with
  | none => none
  | some (family, port) =>
      if port = 0 then passed.bound.map fun port => (family, port) else some (family, port)

def Client.Names (client : Client) (port : UInt16) : Prop :=
  (client.family = .inet ∨ client.family = .inet6) ∧ client.lport = port.toNat

theorem sock_get_port (family : Family) (port : UInt16)
    (internet : family = .inet ∨ family = .inet6) : sockGetPort family port = port.toNat := by
  rcases internet with rfl | rfl <;> rfl

theorem sock_bind_wild (family : Family) (port : UInt16)
    (internet : family = .inet ∨ family = .inet6) :
    sockBindWild family (some port) = port.toNat := by
  rcases internet with rfl | rfl <;> rfl

theorem readable_conn_registered (client : Client) (request : Request) (port : UInt16)
    (verdict : (readableConn client request).2 = .registered)
    (names : (readableConn client request).1.Names port) : ∃ passed,
      request = .descriptor passed ∧
      passed.socket = some ((readableConn client request).1.family, port) := by
  cases request with
  | readError => cases verdict
  | terminated => cases verdict
  | noDescriptor => cases verdict
  | descriptor passed =>
      refine ⟨passed, rfl, ?_⟩
      obtain ⟨name, bound⟩ := passed
      cases name with
      | none => cases verdict
      | some socket =>
          obtain ⟨family, bindPort⟩ := socket
          simp only [readableConn] at verdict names ⊢
          split at verdict
          · rename_i unbound
            rw [if_pos unbound] at names ⊢
            split at verdict
            · cases verdict
            · rename_i positive
              rw [if_neg positive] at names ⊢
              obtain ⟨internet, lport⟩ := names
              simp only at internet lport
              -- sock_bind_wild has given the socket its port
              have zero : bindPort = 0 := by
                rw [sock_get_port family bindPort internet] at unbound
                rw [← UInt16.toNat_inj]
                exact Int.natCast_inj.mp unbound
              cases bound with
              | none =>
                  have wild : sockBindWild family none = -1 := by
                    rcases internet with rfl | rfl <;> rfl
                  omega
              | some found =>
                  rw [sock_bind_wild family found internet, Int.natCast_inj,
                    UInt16.toNat_inj] at lport
                  rw [Passed.socket, zero, lport]
                  rfl
          · rename_i named
            rw [if_neg named] at names ⊢
            obtain ⟨internet, lport⟩ := names
            simp only at internet lport
            rw [sock_get_port family bindPort internet] at named lport
            -- the socket was bound by the client
            have same : bindPort = port := by
              rw [← UInt16.toNat_inj]
              exact Int.natCast_inj.mp lport
            have nonzero : port ≠ 0 := by
              rintro rfl
              rw [same] at named
              exact named rfl
            simp only [Passed.socket, same, if_neg nonzero]

inductive Effect (s : State fdSetsize) :
    Action fdSetsize → State fdSetsize → Event fdSetsize → Prop where
  | accepted (connfd : Nat) (i : Fin fdSetsize) (found : available s = some i) :
      Effect s (.listen connfd)
        { s.set i { s.client i with connfd := some connfd } with maxi := max s.maxi i } .quiet
  | quit (action : Action fdSetsize) : Effect s action { s with quit := true } .quiet
  | closed (i : Fin fdSetsize) (request : Request) (written : Bool) (client : Client)
      (available : client.connfd = none) :
      Effect s (.conn i request written) (s.set i client) .quiet
  | registered (i : Fin fdSetsize) (request : Request) (used : (s.client i).connfd ≠ none)
      (registered : (readableConn (s.client i) request).2 = .registered) :
      Effect s (.conn i request true) (s.set i (readableConn (s.client i) request).1) .quiet
  | ignored (action : Action fdSetsize) : Effect s action s .quiet
  | reported (version : Version) (packet : Packet) (written : Option Nat)
      (clients : List (Fin fdSetsize)) (sport : UInt16) (err : IcmpdErr) (quit : Bool)
      (some_ : ∀ i ∈ clients, i ∈ recipients s version.family sport) :
      Effect s (.icmp version packet written) { s with quit := quit }
        (.reported clients version.family sport err)

theorem conn_effect (s after : State fdSetsize) (i : Fin fdSetsize) (request : Request)
    (written : Bool) (event : Event fdSetsize)
    (stepped : step s (.conn i request written) = some (after, event)) :
    Effect s (.conn i request written) after event := by
  simp only [step, Option.ite_none_right_eq_some] at stepped
  obtain ⟨⟨_, used⟩, ran⟩ := stepped
  cases verdict : (readableConn (s.client i) request).2 with
  | errSys =>
      simp only [verdict, Option.some.injEq, Prod.mk.injEq] at ran
      obtain ⟨rfl, rfl⟩ := ran
      exact .quit _
  | clientdone =>
      simp only [verdict, Option.some.injEq, Prod.mk.injEq] at ran
      obtain ⟨rfl, rfl⟩ := ran
      exact .closed i request written _ (readable_conn_closed _ request (Or.inl verdict))
  | clienterr =>
      cases written with
      | false =>
          simp only [verdict, Option.some.injEq, Prod.mk.injEq] at ran
          obtain ⟨rfl, rfl⟩ := ran
          exact .quit _
      | true =>
          simp only [verdict, Option.some.injEq, Prod.mk.injEq] at ran
          obtain ⟨rfl, rfl⟩ := ran
          exact .closed i request true _ (readable_conn_closed _ request (Or.inr verdict))
  | registered =>
      cases written with
      | false =>
          simp only [verdict, Option.some.injEq, Prod.mk.injEq] at ran
          obtain ⟨rfl, rfl⟩ := ran
          exact .quit _
      | true =>
          simp only [verdict, Option.some.injEq, Prod.mk.injEq] at ran
          obtain ⟨rfl, rfl⟩ := ran
          exact .registered i request used verdict

theorem step_effect (s after : State fdSetsize) (action : Action fdSetsize)
    (event : Event fdSetsize) (stepped : step s action = some (after, event)) :
    Effect s action after event := by
  cases action with
  | listen connfd =>
      simp only [step, Option.ite_none_right_eq_some, Option.some.injEq] at stepped
      obtain ⟨_, ran⟩ := stepped
      cases found : available s with
      | none =>
          simp only [readableListen, found, Prod.mk.injEq] at ran
          obtain ⟨rfl, rfl⟩ := ran
          exact .ignored _
      | some i =>
          simp only [readableListen, found, Prod.mk.injEq] at ran
          obtain ⟨rfl, rfl⟩ := ran
          exact .accepted connfd i found
  | conn i request written => exact conn_effect s after i request written event stepped
  | icmp version packet written =>
      simp only [step, Option.ite_none_right_eq_some, Option.some.injEq] at stepped
      obtain ⟨_, ran⟩ := stepped
      cases asked : version.quoted packet with
      | ignored =>
          simp only [readableIcmp, asked, Prod.mk.injEq] at ran
          obtain ⟨rfl, rfl⟩ := ran
          exact .ignored _
      | errQuit =>
          simp only [readableIcmp, asked, Prod.mk.injEq] at ran
          obtain ⟨rfl, rfl⟩ := ran
          exact .quit _
      | udp sport err =>
          simp only [readableIcmp, asked] at ran
          cases written with
          | none =>
              simp only [Prod.mk.injEq] at ran
              obtain ⟨rfl, rfl⟩ := ran
              exact .reported version packet none _ sport err s.quit (fun _ member => member)
          | some k =>
              simp only [Prod.mk.injEq] at ran
              obtain ⟨rfl, rfl⟩ := ran
              exact .reported version packet (some k) _ sport err true
                (fun _ member => List.mem_of_mem_take member)

end NetworkProgramming.Icmpd
