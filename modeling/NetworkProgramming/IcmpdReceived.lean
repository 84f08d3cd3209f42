import NetworkProgramming.Icmpd

/-!
What the reports of the ICMP daemon are made of. The checks of readable_v4 and
readable_v6 compare the length with fixed minima; the ports of the quoted UDP header
lie where the header length of the quoted packet says, or behind a whole IPv6 header,
and may be stack that the datagram did not reach.
-/

namespace NetworkProgramming.Icmpd

variable {fdSetsize : Nat}

/-- The stack of a run of readable_v4 or readable_v6: what buf and icmpd_err hold
before anything is stored in them. -/
structure Frame where
  buf : Nat → UInt8
  icmpdErr : Nat → UInt8

def Frame.packet (frame : Frame) (received : List UInt8) : Packet :=
  ⟨received.length, fun k => received.getD k (frame.buf k)⟩

/-- The bytes of struct icmpd_err that no assignment reaches: its padding, and the
end of the sockaddr_storage behind an address of `len` bytes. -/
def unset (len : Nat) : List Nat :=
  [6, 7, 12, 13, 14, 15] ++ (List.range (128 - len)).map (16 + len + ·)

structure Written where
  err : IcmpdErr
  rest : List UInt8
  deriving DecidableEq

def records (s : State fdSetsize) (version : Version) (frame : Frame) (received : List UInt8) :
    List (Fin fdSetsize × Written) :=
  match version.quoted (frame.packet received) with
  | .udp sport err => (recipients s version.family sport).map fun i =>
      (i, ⟨err, (unset err.icmpdLen).map frame.icmpdErr⟩)
  | _ => []

theorem records_reported (s : State fdSetsize) (version : Version) (frame : Frame)
    (received : List UInt8) (written : Option Nat) :
    match (readableIcmp s version (frame.packet received) written).2 with
    | .reported clients _ _ err =>
        clients.map (fun i => (i, Written.mk err ((unset err.icmpdLen).map frame.icmpdErr))) =
          match written with
          | none => records s version frame received
          | some k => (records s version frame received).take k
    | _ => records s version frame received = [] := by
  cases quoted : version.quoted (frame.packet received) with
  | ignored => simp [readableIcmp, records, quoted]
  | errQuit => simp [readableIcmp, records, quoted]
  | udp sport err => cases written <;> simp [readableIcmp, records, quoted, List.map_take]

def report : Version → Packet → Nat → IcmpdErr
  | .v4, packet, udp =>
      let type := packet.buf (packet.hlen 0)
      let code := packet.buf (packet.hlen 0 + 1)
      ⟨errno4 type code, type, code, 16,
        ⟨.inet, packet.bytes (packet.hlen 0 + 8 + 16) 4, packet.port (udp + 2)⟩⟩
  | .v6, packet, udp =>
      ⟨errno6 (packet.buf 0) (packet.buf 1), packet.buf 0, packet.buf 1, 28,
        ⟨.inet6, packet.bytes (8 + 24) 16, packet.port (udp + 2)⟩⟩

def udpAt : Version → Packet → Option Nat
  | .v4, packet =>
      let icmp := packet.hlen 0
      let hip := icmp + 8
      if icmp + 36 ≤ packet.n ∧ packet.buf icmp ∈ [icmpUnreach, icmpTimxceed, icmpSourcequench] ∧
          packet.buf (hip + 9) = ipprotoUdp then some (hip + packet.hlen hip)
      else none
  | .v6, packet =>
      if 16 ≤ packet.n ∧
          packet.buf 0 ∈ [icmp6DstUnreach, icmp6PacketTooBig, icmp6TimeExceeded] ∧
          packet.buf (8 + 6) = ipprotoUdp then some (8 + 40)
      else none

theorem quoted_udp {version : Version} {packet : Packet} {udp : Nat}
    (quotes : udpAt version packet = some udp) :
    version.quoted packet = .udp (packet.port udp) (report version packet udp) := by
  cases version with
  | v4 =>
      simp only [udpAt, Option.ite_none_right_eq_some, Option.some.injEq, List.mem_cons,
        List.not_mem_nil, or_false] at quotes
      obtain ⟨⟨long, kind, proto⟩, rfl⟩ := quotes
      simp only [Version.quoted, quoted4]
      rw [if_neg (by omega), if_pos kind, if_neg (by omega), if_pos proto]
      rfl
  | v6 =>
      simp only [udpAt, Option.ite_none_right_eq_some, Option.some.injEq, List.mem_cons,
        List.not_mem_nil, or_false] at quotes
      obtain ⟨⟨long, kind, proto⟩, rfl⟩ := quotes
      simp only [Version.quoted, quoted6]
      rw [if_neg (by omega), if_pos kind, if_neg (by omega), if_pos proto]
      rfl

theorem quoted_other {version : Version} {packet : Packet} (other : udpAt version packet = none) :
    version.quoted packet = .ignored ∨ version.quoted packet = .errQuit := by
  cases version with
  | v4 =>
      simp only [udpAt, ite_eq_right_iff, reduceCtorEq, imp_false] at other
      simp only [Version.quoted, quoted4]
      split
      · exact Or.inr rfl
      · split
        · rename_i kind
          split
          · exact Or.inr rfl
          · rename_i long
            split
            · rename_i proto
              exact absurd ⟨by omega, by simpa using kind, proto⟩ other
            · exact Or.inl rfl
        · exact Or.inl rfl
  | v6 =>
      simp only [udpAt, ite_eq_right_iff, reduceCtorEq, imp_false] at other
      simp only [Version.quoted, quoted6]
      split
      · exact Or.inr rfl
      · split
        · rename_i kind
          split
          · exact Or.inr rfl
          · rename_i long
            split
            · rename_i proto
              exact absurd ⟨by omega, by simpa using kind, proto⟩ other
            · exact Or.inl rfl
        · exact Or.inl rfl

theorem records_udp {s : State fdSetsize} {version : Version} {frame : Frame}
    {received : List UInt8} {udp : Nat}
    (quotes : udpAt version (frame.packet received) = some udp) :
    records s version frame received =
      (recipients s version.family ((frame.packet received).port udp)).map fun i =>
        (i, ⟨report version (frame.packet received) udp,
          (unset (report version (frame.packet received) udp).icmpdLen).map frame.icmpdErr⟩) := by
  rw [records, quoted_udp quotes]

theorem records_other {s : State fdSetsize} {version : Version} {frame : Frame}
    {received : List UInt8} (other : udpAt version (frame.packet received) = none) :
    records s version frame received = [] := by
  rcases quoted_other other with quoted | quoted <;> rw [records, quoted]

/-! What two runs agree on that differ in their stacks. -/

theorem packet_buf (frame other : Frame) {received : List UInt8} {k : Nat}
    (inside : k < received.length) :
    (frame.packet received).buf k = (other.packet received).buf k := by
  simp [Frame.packet, List.getD_eq_getElem?_getD, List.getElem?_eq_getElem inside]

theorem packet_bytes (frame other : Frame) {received : List UInt8} {k len : Nat}
    (inside : k + len ≤ received.length) :
    (frame.packet received).bytes k len = (other.packet received).bytes k len := by
  apply List.map_congr_left
  intro j member
  exact packet_buf frame other (by have := List.mem_range.mp member; omega)

theorem packet_port (frame other : Frame) {received : List UInt8} {k : Nat}
    (inside : k + 2 ≤ received.length) :
    (frame.packet received).port k = (other.packet received).port k := by
  rw [Packet.port, Packet.port, packet_buf frame other (by omega),
    packet_buf frame other (by omega : k + 1 < received.length)]

theorem packet_hlen (frame other : Frame) {received : List UInt8} {k : Nat}
    (inside : k < received.length) :
    (frame.packet received).hlen k = (other.packet received).hlen k := by
  rw [Packet.hlen, Packet.hlen, packet_buf frame other inside]

theorem udpAt_received {version : Version} {frame : Frame} (other : Frame)
    {received : List UInt8} {udp : Nat}
    (quotes : udpAt version (frame.packet received) = some udp) :
    udpAt version (other.packet received) = some udp := by
  cases version with
  | v4 =>
      simp only [udpAt, Option.ite_none_right_eq_some, Option.some.injEq] at quotes ⊢
      obtain ⟨⟨long, kind, proto⟩, here⟩ := quotes
      change _ ≤ received.length at long
      rw [packet_hlen other frame (by omega : 0 < received.length)]
      rw [packet_buf other frame (by omega), packet_buf other frame (by omega),
        packet_hlen other frame (by omega)]
      exact ⟨⟨long, kind, proto⟩, here⟩
  | v6 =>
      simp only [udpAt, Option.ite_none_right_eq_some, Option.some.injEq] at quotes ⊢
      obtain ⟨⟨long, kind, proto⟩, here⟩ := quotes
      change _ ≤ received.length at long
      rw [packet_buf other frame (by omega), packet_buf other frame (by omega)]
      exact ⟨⟨long, kind, proto⟩, here⟩

theorem report_received {version : Version} {frame : Frame} (other : Frame)
    {received : List UInt8} {udp : Nat}
    (quotes : udpAt version (frame.packet received) = some udp)
    (long : udp + 4 ≤ received.length) :
    report version (frame.packet received) udp = report version (other.packet received) udp := by
  have dport := packet_port frame other (by omega : udp + 2 + 2 ≤ received.length)
  cases version with
  | v4 =>
      simp only [udpAt, Option.ite_none_right_eq_some, Option.some.injEq] at quotes
      obtain ⟨⟨whole, -, -⟩, -⟩ := quotes
      change _ ≤ received.length at whole
      have first := packet_hlen frame other (by omega : 0 < received.length)
      rw [first] at whole
      simp only [report, dport, first]
      rw [packet_buf frame other (by omega), packet_buf frame other (by omega),
        packet_bytes frame other (by omega)]
  | v6 =>
      simp only [udpAt, Option.ite_none_right_eq_some, Option.some.injEq] at quotes
      obtain ⟨-, rfl⟩ := quotes
      simp only [report, dport]
      rw [packet_buf frame other (by omega), packet_buf frame other (by omega),
        packet_bytes frame other (by omega)]

def Frame.disturb (frame : Frame) (k : Nat) : Frame :=
  { frame with buf := Function.update frame.buf k (frame.buf k + 1) }

theorem disturb_other (frame : Frame) (received : List UInt8) {k j : Nat} (other : j ≠ k) :
    ((frame.disturb k).packet received).buf j = (frame.packet received).buf j := by
  simp [Frame.disturb, Frame.packet, Function.update_of_ne other]

theorem disturb_here (frame : Frame) {received : List UInt8} {k : Nat}
    (outside : received.length ≤ k) :
    ((frame.disturb k).packet received).buf k = (frame.packet received).buf k + 1 := by
  simp [Frame.disturb, Frame.packet, List.getD_eq_getElem?_getD, List.getElem?_eq_none outside]

theorem report_port (version : Version) (packet : Packet) (udp : Nat) :
    (report version packet udp).icmpdDest.port = packet.port (udp + 2) := by
  cases version <;> rfl

theorem port_disturbed (frame : Frame) {received : List UInt8} {k : Nat}
    (outside : received.length ≤ k + 1) :
    ((frame.disturb (k + 1)).packet received).port k ≠ (frame.packet received).port k := by
  rw [Packet.port, Packet.port, disturb_here frame outside, disturb_other frame received (by omega)]
  intro same
  have values := congrArg UInt16.toNat same
  have low := ((frame.packet received).buf k).toNat_lt
  have high := ((frame.packet received).buf (k + 1)).toNat_lt
  simp only [UInt16.toNat_ofNat', UInt8.toNat_add, UInt8.toNat_one] at values
  omega

/-- The clients that are notified, and what is written to them, are up to the received
bytes and the table: the rest of buf makes no difference. -/
def Decided (s : State fdSetsize) (version : Version) (received : List UInt8) : Prop :=
  ∀ frame other : Frame, frame.icmpdErr = other.icmpdErr →
    records s version frame received = records s version other received

theorem decided_iff (s : State fdSetsize) (version : Version) (received : List UInt8) :
    Decided s version received ↔
      ∀ frame udp, udpAt version (Frame.packet frame received) = some udp →
        recipients s version.family ((frame.packet received).port udp) ≠ [] →
          udp + 4 ≤ received.length := by
  constructor
  · intro decided frame udp quotes notified
    by_contra short
    -- a frame that differs in a byte not received, the second one of the destination port
    have same := decided frame (frame.disturb (udp + 3)) rfl
    rw [records_udp quotes, records_udp (udpAt_received _ quotes)] at same
    have sport : ((frame.disturb (udp + 3)).packet received).port udp =
        (frame.packet received).port udp := by
      rw [Packet.port, Packet.port, disturb_other frame received (by omega),
        disturb_other frame received (by omega)]
    rw [sport] at same
    obtain ⟨i, rest, clients⟩ := List.exists_cons_of_ne_nil notified
    rw [clients, List.map_cons, List.map_cons] at same
    have err := congrArg Written.err (congrArg Prod.snd (List.cons.inj same).1)
    have dport := congrArg (fun e => e.icmpdDest.port) err
    simp only [report_port] at dport
    exact port_disturbed frame (k := udp + 2) (by omega) dport.symm
  · intro long frame other untouched
    cases quotes : udpAt version (frame.packet received) with
    | none =>
        have silent : udpAt version (other.packet received) = none := by
          cases there : udpAt version (other.packet received) with
          | none => rfl
          | some udp => exact (quotes.symm.trans (udpAt_received frame there)).symm ▸ rfl
        rw [records_other quotes, records_other silent]
    | some udp =>
        have there := udpAt_received other quotes
        rw [records_udp quotes, records_udp there]
        by_cases whole : udp + 4 ≤ received.length
        -- both ports were received, and all the records are made of
        · rw [report_received other quotes whole, untouched,
            packet_port frame other (by omega : udp + 2 ≤ received.length)]
        · have none_here : recipients s version.family ((frame.packet received).port udp) = [] := by
            by_contra notified
            exact whole (long frame udp quotes notified)
          have none_there : recipients s version.family ((other.packet received).port udp) = [] := by
            by_contra notified
            exact whole (long other udp there notified)
          rw [none_here, none_there]
          rfl

def DecidedWhole (s : State fdSetsize) (version : Version) (received : List UInt8) : Prop :=
  ∀ frame other : Frame, records s version frame received = records s version other received

theorem decided_whole_iff (s : State fdSetsize) (version : Version) (received : List UInt8) :
    DecidedWhole s version received ↔
      ∀ frame udp, udpAt version (Frame.packet frame received) = some udp →
        recipients s version.family ((frame.packet received).port udp) = [] := by
  constructor
  · intro decided frame udp quotes
    by_contra notified
    let other : Frame := { frame with icmpdErr := fun k => frame.icmpdErr k + 1 }
    have same := decided frame other
    have packet : other.packet received = frame.packet received := rfl
    rw [records_udp quotes, records_udp (packet ▸ quotes), packet] at same
    obtain ⟨i, rest, clients⟩ := List.exists_cons_of_ne_nil notified
    rw [clients, List.map_cons, List.map_cons] at same
    have bytes := congrArg Written.rest (congrArg Prod.snd (List.cons.inj same).1)
    simp only [unset, List.cons_append, List.map_cons, List.cons.injEq] at bytes
    have first := congrArg UInt8.toNat bytes.1
    have bounded := (frame.icmpdErr 6).toNat_lt
    simp only [other, UInt8.toNat_add, UInt8.toNat_one] at first
    omega
  · intro silent frame other
    have nothing : ∀ f : Frame, records s version f received = [] := by
      intro f
      cases quotes : udpAt version (f.packet received) with
      | none => exact records_other quotes
      | some udp => rw [records_udp quotes, silent f udp quotes, List.map_nil]
    rw [nothing frame, nothing other]

/-- A report is decided by what was received exactly when, whatever is in the stack,
a client is only found for a UDP header that was received with both ports; and the
bytes of the record that are never set are decided by it only when no client is found. -/
theorem received_decides_iff (s : State fdSetsize) (version : Version) (received : List UInt8) :
    (Decided s version received ↔
      ∀ frame udp, udpAt version (Frame.packet frame received) = some udp →
        recipients s version.family ((frame.packet received).port udp) ≠ [] →
          udp + 4 ≤ received.length) ∧
    (DecidedWhole s version received ↔
      ∀ frame udp, udpAt version (Frame.packet frame received) = some udp →
        recipients s version.family ((frame.packet received).port udp) = []) :=
  ⟨decided_iff s version received, decided_whole_iff s version received⟩

/-- A destination unreachable of 56 bytes whose quoted IP header claims 60 bytes: its
UDP header would begin behind the datagram. -/
def shortQuote : List UInt8 :=
  [0x45] ++ List.replicate 19 0 ++ [icmpUnreach, icmpUnreachPort] ++ List.replicate 6 0 ++
    [0x4f] ++ List.replicate 8 0 ++ [ipprotoUdp] ++ List.replicate 18 0

def oneClient : State 1 := ⟨fun _ => ⟨some 4, .inet, 0x3535⟩, 0, false⟩

theorem not_decided : ¬ ∀ (s : State 1) (version : Version) (received : List UInt8),
    Decided s version received := by
  intro always
  have same := always oneClient .v4 shortQuote ⟨fun _ => 0x35, fun _ => 0⟩ ⟨fun _ => 0, fun _ => 0⟩
    rfl
  exact absurd same (by decide)

end NetworkProgramming.Icmpd
