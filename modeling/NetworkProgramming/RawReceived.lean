import NetworkProgramming.RawPackets

/-!
What recv_proc of chapter10/l3_sockraw.c reads of one packet. An access is an offset and a length
in an array; what a conversion "%s" reads behind a header is left out.
-/

namespace NetworkProgramming.RawPackets

open NetworkOrder

def ETH_FRAME_LEN : Nat := 1514
def IPPROTO_ICMP : UInt8 := 1

def TMP_LEN : Nat := 2048
def PSEUDO_LEN : Nat := 12

/-- What an access is for; all but the last are reads of rbuf. -/
inductive Part where
  | ip
  | icmp
  | udp
  | datagram
  | tmp
  deriving DecidableEq

structure Access where
  part : Part
  offset : Nat
  len : Nat
  deriving DecidableEq

def rbuf (received : List UInt8) (offset len : Nat) : List UInt8 :=
  (List.range len).map fun i => received.getD (offset + i) 0

def printIphdr : List Access :=
  [⟨.ip, 0, 1⟩, ⟨.ip, 1, 1⟩, ⟨.ip, 2, 2⟩, ⟨.ip, 4, 2⟩, ⟨.ip, 6, 2⟩, ⟨.ip, 8, 1⟩, ⟨.ip, 9, 1⟩,
    ⟨.ip, 10, 2⟩, ⟨.ip, 12, 4⟩, ⟨.ip, 16, 4⟩]

def printIcmp : List Access :=
  [⟨.icmp, IPHDR_LEN, 1⟩, ⟨.icmp, IPHDR_LEN + 1, 1⟩, ⟨.icmp, IPHDR_LEN + 2, 2⟩,
    ⟨.icmp, IPHDR_LEN + 4, 2⟩, ⟨.icmp, IPHDR_LEN + 6, 2⟩]

def printUdp : List Access :=
  [⟨.udp, IPHDR_LEN, 2⟩, ⟨.udp, IPHDR_LEN + 2, 2⟩, ⟨.udp, IPHDR_LEN + 4, 2⟩,
    ⟨.udp, IPHDR_LEN + 6, 2⟩]

def words (part : Part) (size : Nat) : List Access :=
  (List.range (size / 2)).map fun i => ⟨part, 2 * i, 2⟩

def saddr (received : List UInt8) : List UInt8 := rbuf received 12 4
def protocol (received : List UInt8) : UInt8 := received.getD 9 0
def uhUlen (received : List UInt8) : Nat := (ntohs (rbuf received (IPHDR_LEN + 4) 2)).toNat

def verify (received : List UInt8) : List Access :=
  let ulen := uhUlen received
  let even := if ulen % 2 ≠ 0 then ulen + 1 else ulen
  words .ip IPHDR_LEN ++
    [⟨.ip, 12, 4⟩, ⟨.tmp, 0, 4⟩, ⟨.ip, 16, 4⟩, ⟨.tmp, 4, 4⟩, ⟨.tmp, 8, 1⟩, ⟨.tmp, 9, 1⟩,
      ⟨.udp, IPHDR_LEN + 4, 2⟩, ⟨.tmp, 10, 2⟩, ⟨.udp, IPHDR_LEN + 4, 2⟩,
      ⟨.datagram, IPHDR_LEN, ulen⟩, ⟨.tmp, PSEUDO_LEN, ulen⟩] ++
    words .tmp (PSEUDO_LEN + even)

/-- What follows recvfrom: a return of 0 ends the loop. -/
def recvProc (peer received : List UInt8) : List Access :=
  if received = [] then [] else
  ⟨.ip, 12, 4⟩ :: printIphdr ++ ⟨.ip, 12, 4⟩ ::
    if saddr received = peer then
      if protocol received = IPPROTO_ICMP then ⟨.ip, 9, 1⟩ :: printIphdr ++ printIcmp
      else if protocol received = IPPROTO_UDP then
        ⟨.ip, 9, 1⟩ :: ⟨.ip, 9, 1⟩ :: printIphdr ++ verify received ++ printUdp
      else [⟨.ip, 9, 1⟩, ⟨.ip, 9, 1⟩]
    else []

/-- In the bytes received, or in tmp. The fields of an ICMP message are another matter. -/
def Access.Inside (n : Nat) (a : Access) : Prop :=
  match a.part with
  | .ip | .udp | .datagram => a.offset + a.len ≤ n
  | .tmp => a.offset + a.len ≤ TMP_LEN
  | .icmp => True

instance (n : Nat) (a : Access) : Decidable (a.Inside n) := by
  unfold Access.Inside
  split <;> infer_instance

theorem words_inside (part : Part) (size n : Nat) (within : size ≤ n) :
    ∀ a ∈ words part size, a.offset + a.len ≤ n := by
  intro a member
  obtain ⟨i, below, rfl⟩ := List.mem_map.mp member
  have less := List.mem_range.mp below
  change 2 * i + 2 ≤ n
  omega

theorem iphdr_fields : ∀ a ∈ printIphdr, a.part = .ip ∧ a.offset + a.len ≤ IPHDR_LEN := by
  simp [printIphdr, IPHDR_LEN]

theorem udp_reads (n : Nat) : (∀ a ∈ printUdp, a.Inside n) ↔ IPHDR_LEN + UDPHDR_LEN ≤ n := by
  simp only [printUdp, Access.Inside, List.forall_mem_cons, List.not_mem_nil, IPHDR_LEN,
    UDPHDR_LEN]
  constructor
  · intro all
    omega
  · intro long
    exact ⟨by omega, by omega, by omega, by omega, fun _ none => none.elim⟩

theorem icmp_reads (n : Nat) : ∀ a ∈ printIcmp, a.Inside n := by
  simp [printIcmp, Access.Inside]

theorem datagram_copied (received : List UInt8) :
    ⟨.datagram, IPHDR_LEN, uhUlen received⟩ ∈ verify received := by
  apply List.mem_append_left
  apply List.mem_append_right
  simp

theorem datagram_stored (received : List UInt8) :
    ⟨.tmp, PSEUDO_LEN, uhUlen received⟩ ∈ verify received := by
  apply List.mem_append_left
  apply List.mem_append_right
  simp

theorem verify_reads (received : List UInt8) (n : Nat) (short : n ≤ ETH_FRAME_LEN)
    (udp : IPHDR_LEN + UDPHDR_LEN ≤ n) :
    (∀ a ∈ verify received, a.Inside n) ↔ IPHDR_LEN + uhUlen received ≤ n := by
  simp only [IPHDR_LEN, UDPHDR_LEN, ETH_FRAME_LEN] at udp short
  constructor
  · intro all
    exact all _ (datagram_copied received)
  · intro copied a member
    rw [IPHDR_LEN] at copied
    -- What has arrived is shorter than tmp, and so is the copy of a part of it.
    have even : (if uhUlen received % 2 ≠ 0 then uhUlen received + 1 else uhUlen received) ≤
        uhUlen received + 1 := by
      split <;> omega
    rw [verify, List.mem_append, List.mem_append] at member
    rcases member with (header | field) | word
    · have part : a.part = .ip := by
        obtain ⟨i, below, rfl⟩ := List.mem_map.mp header
        rfl
      rw [Access.Inside, part]
      exact words_inside .ip IPHDR_LEN n (by rw [IPHDR_LEN]; omega) a header
    · simp only [List.mem_cons, List.not_mem_nil, or_false] at field
      rcases field with rfl | rfl | rfl | rfl | rfl | rfl | rfl | rfl | rfl | rfl | rfl <;>
        simp only [Access.Inside, IPHDR_LEN, TMP_LEN, PSEUDO_LEN] <;> omega
    · have part : a.part = .tmp := by
        obtain ⟨i, below, rfl⟩ := List.mem_map.mp word
        rfl
      rw [Access.Inside, part]
      apply words_inside .tmp _ TMP_LEN _ a word
      rw [PSEUDO_LEN, TMP_LEN]
      omega

theorem recv_udp {peer received : List UInt8} (more : received ≠ [])
    (from_peer : saddr received = peer) (udp : protocol received = IPPROTO_UDP) :
    recvProc peer received = ⟨.ip, 12, 4⟩ :: printIphdr ++ ⟨.ip, 12, 4⟩ ::
      (⟨.ip, 9, 1⟩ :: ⟨.ip, 9, 1⟩ :: printIphdr ++ verify received ++ printUdp) := by
  have other : protocol received ≠ IPPROTO_ICMP := by
    rw [udp]
    decide
  rw [recvProc, if_neg more, if_pos from_peer, if_neg other, if_pos udp]

theorem recv_cases {peer received : List UInt8} {a : Access} (member : a ∈ recvProc peer received) :
    (a.part = .ip ∧ a.offset + a.len ≤ IPHDR_LEN) ∨ a ∈ printIcmp ∨
      (saddr received = peer ∧ protocol received = IPPROTO_UDP ∧
        (a ∈ verify received ∨ a ∈ printUdp)) := by
  have address : (12 : Nat) + 4 ≤ IPHDR_LEN := by decide
  have field : (9 : Nat) + 1 ≤ IPHDR_LEN := by decide
  have more : received ≠ [] := by
    rintro rfl
    cases member
  rw [recvProc, if_neg more] at member
  simp only [List.mem_cons, List.mem_append] at member
  rcases member with (rfl | printed) | rfl | rest
  · exact Or.inl ⟨rfl, address⟩
  · exact Or.inl (iphdr_fields a printed)
  · exact Or.inl ⟨rfl, address⟩
  · by_cases from_peer : saddr received = peer
    · rw [if_pos from_peer] at rest
      by_cases message : protocol received = IPPROTO_ICMP
      · rw [if_pos message, List.mem_append, List.mem_cons] at rest
        rcases rest with (rfl | printed) | icmp
        · exact Or.inl ⟨rfl, field⟩
        · exact Or.inl (iphdr_fields a printed)
        · exact Or.inr (Or.inl icmp)
      · rw [if_neg message] at rest
        by_cases udp : protocol received = IPPROTO_UDP
        · rw [if_pos udp, List.mem_append, List.mem_append, List.mem_cons, List.mem_cons] at rest
          rcases rest with ((rfl | rfl | printed) | checked) | header
          · exact Or.inl ⟨rfl, field⟩
          · exact Or.inl ⟨rfl, field⟩
          · exact Or.inl (iphdr_fields a printed)
          · exact Or.inr (Or.inr ⟨from_peer, udp, Or.inl checked⟩)
          · exact Or.inr (Or.inr ⟨from_peer, udp, Or.inr header⟩)
        · rw [if_neg udp, List.mem_cons, List.mem_singleton] at rest
          rcases rest with rfl | rfl <;> exact Or.inl ⟨rfl, field⟩
    · rw [if_neg from_peer] at rest
      cases rest

/-- The length of the datagram is taken from the packet and checked against nothing. -/
theorem packet_inside_iff (peer received : List UInt8)
    (short : received.length ≤ ETH_FRAME_LEN) :
    (∀ a ∈ recvProc peer received, a.Inside received.length) ↔
      received = [] ∨ IPHDR_LEN ≤ received.length ∧
        (saddr received = peer → protocol received = IPPROTO_UDP →
          IPHDR_LEN + UDPHDR_LEN ≤ received.length ∧
            IPHDR_LEN + uhUlen received ≤ received.length) := by
  constructor
  · intro all
    rw [or_iff_not_imp_left]
    intro more
    constructor
    · exact all ⟨.ip, 16, 4⟩ (by simp [recvProc, more, printIphdr])
    · intro from_peer udp
      rw [recv_udp more from_peer udp] at all
      have headers : IPHDR_LEN + UDPHDR_LEN ≤ received.length := by
        apply (udp_reads received.length).mp
        intro a member
        exact all a (by simp [member])
      refine ⟨headers, (verify_reads received _ short headers).mp ?_⟩
      intro a member
      exact all a (by simp [member])
  · rintro (rfl | ⟨header, datagram⟩) a member
    · cases member
    rcases recv_cases member with ⟨part, within⟩ | icmp | ⟨from_peer, udp, checked⟩
    · rw [Access.Inside, part]
      exact Nat.le_trans within header
    · exact icmp_reads _ a icmp
    · obtain ⟨headers, copied⟩ := datagram from_peer udp
      rcases checked with checked | printed
      · exact (verify_reads received _ short headers).mpr copied a checked
      · exact (udp_reads _).mpr headers a printed

def udpPacket (high low : UInt8) (data : List UInt8) : List UInt8 :=
  [0x45, 0, 0, 30, 0, 99, 0x40, 0, 64, IPPROTO_UDP, 0, 0, 10, 0, 0, 2, 10, 0, 0, 1,
    0, 7, 0, 9, high, low, 0, 0] ++ data

theorem ten_bytes_inside :
    (udpPacket 0 10 [104, 105]).length ≤ ETH_FRAME_LEN ∧
      ∀ a ∈ recvProc [10, 0, 0, 2] (udpPacket 0 10 [104, 105]),
        a.Inside (udpPacket 0 10 [104, 105]).length :=
  ⟨by decide, (packet_inside_iff [10, 0, 0, 2] (udpPacket 0 10 [104, 105]) (by decide)).mpr
    (by decide)⟩

/-- The header says 65535, and memcpy reads and writes that many bytes. -/
theorem length_believed :
    (udpPacket 255 255 [104, 105]).length ≤ ETH_FRAME_LEN ∧
      ⟨.datagram, IPHDR_LEN, 65535⟩ ∈ recvProc [10, 0, 0, 2] (udpPacket 255 255 [104, 105]) ∧
      ¬ (Access.Inside (udpPacket 255 255 [104, 105]).length ⟨.datagram, IPHDR_LEN, 65535⟩) ∧
      ⟨.tmp, PSEUDO_LEN, 65535⟩ ∈ recvProc [10, 0, 0, 2] (udpPacket 255 255 [104, 105]) ∧
      ¬ (Access.Inside (udpPacket 255 255 [104, 105]).length ⟨.tmp, PSEUDO_LEN, 65535⟩) := by
  have taken : recvProc [10, 0, 0, 2] (udpPacket 255 255 [104, 105]) = _ :=
    recv_udp (by decide) (by decide) (by decide)
  have length : uhUlen (udpPacket 255 255 [104, 105]) = 65535 := by
    decide
  have copied := datagram_copied (udpPacket 255 255 [104, 105])
  have stored := datagram_stored (udpPacket 255 255 [104, 105])
  rw [length] at copied stored
  rw [taken]
  exact ⟨by decide, by simp [copied], by decide, by simp [stored], by decide⟩

end NetworkProgramming.RawPackets
