import NetworkProgramming.NetworkOrder
import NetworkProgramming.OnesComplement

/-!
chapter10: headers that raw sockets send. A header is the bytes in memory of
its struct; `order` is the byte order of the host.
-/

namespace NetworkProgramming.RawPackets

open NetworkOrder OnesComplement

def IPHDR_LEN : Nat := 20
def UDPHDR_LEN : Nat := 8
def IPPROTO_UDP : UInt8 := 17

/-- The first loop of checksum, with a sum of 32 bits. -/
def addWords (order : ByteOrder) : List UInt8 → Nat → Nat
  | first :: second :: rest, sum => addWords order rest ((sum + load order first second) % 2 ^ 32)
  | _, sum => sum

def checksum (order : ByteOrder) (buf : List UInt8) : UInt16 :=
  UInt16.ofNat (fold 65535 (addWords order buf 0))

def iphdr (order : ByteOrder) (saddr daddr : UInt32) (protocol : UInt8) (data_len : Nat)
    (check : UInt16) : List UInt8 :=
  [4 * 16 + 5, 0] ++ toBytes 2 (IPHDR_LEN + data_len) ++ htons 99 ++ htons 0x4000 ++
    [255, protocol] ++ store order check ++ (htonl saddr ++ htonl daddr)

def create_iphdr (order : ByteOrder) (saddr daddr : UInt32) (protocol : UInt8) (data_len : Nat) :
    List UInt8 :=
  iphdr order saddr daddr protocol data_len
    (~~~ checksum order (iphdr order saddr daddr protocol data_len 0))

def pseudo_udphdr (saddr daddr : UInt32) (len : Nat) : List UInt8 :=
  htonl saddr ++ htonl daddr ++ [0, IPPROTO_UDP] ++ toBytes 2 len

def udphdr (order : ByteOrder) (sport dport : UInt16) (check : UInt16) (data : List UInt8) :
    List UInt8 :=
  htons sport ++ htons dport ++ toBytes 2 (UDPHDR_LEN + data.length) ++ store order check ++ data

/-- `tmp`, which has 2048 bytes, holds the pseudo header and the datagram. -/
def create_udp_pack (order : ByteOrder) (sport dport : UInt16) (saddr daddr : UInt32)
    (data : List UInt8) : List UInt8 :=
  let tmp := pseudo_udphdr saddr daddr (UDPHDR_LEN + data.length) ++
    udphdr order sport dport 0 data
  udphdr order sport dport (~~~ checksum order tmp) data

def icmp (order : ByteOrder) (icmp_type : UInt8) (icmp_cksum : UInt16) (data : List UInt8) :
    List UInt8 :=
  [icmp_type, 0] ++ store order icmp_cksum ++ (store order 10 ++ store order 20 ++ data)

/-- The identifier and the sequence number are in the order of the host, as the source has them. -/
def create_icmp_request (order : ByteOrder) (icmp_type : UInt8) (data : List UInt8) : List UInt8 :=
  icmp order icmp_type (~~~ checksum order (icmp order icmp_type 0 data)) data

def Verifies (text : List UInt8) : Prop := total 65535 (paddedWords .big text) = 65535

instance (text : List UInt8) : Decidable (Verifies text) :=
  inferInstanceAs (Decidable (total 65535 (paddedWords .big text) = 65535))

/-- No byte but a zero is left out by a loop that takes two of them at a time. -/
def Covered (data : List UInt8) : Prop := data.length % 2 = 0 ∨ data.getLast? = some 0

instance (data : List UInt8) : Decidable (Covered data) :=
  inferInstanceAs (Decidable (data.length % 2 = 0 ∨ data.getLast? = some 0))

theorem add_words_sum (order : ByteOrder) (buf : List UInt8) (sum : Nat)
    (small : sum + (wholeWords order buf).sum < 2 ^ 32) :
    addWords order buf sum = sum + (wholeWords order buf).sum := by
  fun_induction addWords order buf sum with
  | case1 first second rest sum ih =>
      rw [wholeWords, List.sum_cons] at small ⊢
      have next : (sum + load order first second) % 2 ^ 32 = sum + load order first second :=
        Nat.mod_eq_of_lt (by omega)
      rw [ih (by rw [next]; omega), next, Nat.add_assoc]
  | case2 sum buf short =>
      rw [wholeWords.eq_def]
      split
      · rename_i first second rest
        exact absurd rfl (short first second rest)
      · rfl

theorem checksum_sum (order : ByteOrder) (buf : List UInt8) (short : buf.length ≤ 2048) :
    (checksum order buf).toNat = fold 65535 (wholeWords order buf).sum := by
  have bound := whole_sum_le order buf
  have below := (fold_stands 65535 (wholeWords order buf).sum (by omega)).1
  rw [checksum, add_words_sum order buf 0 (by omega), Nat.zero_add, UInt16.toNat_ofNat']
  exact Nat.mod_eq_of_lt (by omega)

/-- A field that holds the complement of what checksum has made of the rest: the receiver's sum is
    full exactly when the byte that checksum leaves out is zero. -/
theorem complement_verifies (order : ByteOrder) (front back : List UInt8) (check : UInt16)
    (even : front.length % 2 = 0) (short : front.length + back.length ≤ 2046)
    (computed : check = ~~~ checksum order (front ++ store order 0 ++ back)) :
    Verifies (front ++ store order check ++ back) ↔ oddByte back = 0 := by
  have words (n : UInt16) : (wholeWords order (front ++ store order n ++ back)).sum =
      (wholeWords order front).sum + (n.toNat + (wholeWords order back).sum) := by
    rw [List.append_assoc, whole_append order front _ even, load_store, List.sum_append,
      List.sum_cons]
  have last (n : UInt16) : oddByte (front ++ store order n ++ back) = oddByte back := by
    rw [List.append_assoc, odd_append front _ even, odd_append _ back (by rw [store_length])]
  have stored : check.toNat =
      65535 - fold 65535 (wholeWords order (front ++ store order 0 ++ back)).sum := by
    have fits : (front ++ store order 0 ++ back).length ≤ 2048 := by
      rw [List.length_append, List.length_append, store_length]
      omega
    rw [computed, UInt16.toNat_not, checksum_sum order _ fits]
    rfl
  have odd : 65535 ∣ load order (oddByte back) 0 ↔ oddByte back = 0 := by
    have small := (oddByte back).toNat_lt
    rw [← UInt8.toNat_inj]
    cases order <;> simp only [load, UInt8.toNat_zero] <;> omega
  have sum : (paddedWords order (front ++ store order check ++ back)).sum =
      (wholeWords order (front ++ store order 0 ++ back)).sum +
        (65535 - fold 65535 (wholeWords order (front ++ store order 0 ++ back)).sum) +
        load order (oddByte back) 0 := by
    rw [padded_sum, last, words check, stored, words 0, UInt16.toNat_zero]
    omega
  rw [Verifies, full_either order, sum, complemented_iff 65535 _ _ (by omega), odd]

theorem iphdr_verifies (order : ByteOrder) (saddr daddr : UInt32) (protocol : UInt8)
    (data_len : Nat) : Verifies (create_iphdr order saddr daddr protocol data_len) := by
  have even : oddByte (htonl saddr ++ htonl daddr) = 0 :=
    (odd_zero_iff _).mpr (Or.inl (by simp [htonl]))
  exact (complement_verifies order _ (htonl saddr ++ htonl daddr) _ (by simp [htons])
    (by simp [htons, htonl]) rfl).mpr even

theorem udp_verifies_iff (order : ByteOrder) (sport dport : UInt16) (saddr daddr : UInt32)
    (data : List UInt8) (short : data.length ≤ 1400) :
    Verifies (pseudo_udphdr saddr daddr (UDPHDR_LEN + data.length) ++
      create_udp_pack order sport dport saddr daddr data) ↔ Covered data := by
  have whole (check : UInt16) : pseudo_udphdr saddr daddr (UDPHDR_LEN + data.length) ++
      udphdr order sport dport check data =
        (pseudo_udphdr saddr daddr (UDPHDR_LEN + data.length) ++ (htons sport ++ htons dport ++
          toBytes 2 (UDPHDR_LEN + data.length))) ++ store order check ++ data := by
    simp only [udphdr, List.append_assoc]
  rw [create_udp_pack, whole, complement_verifies order _ data _ ?_ ?_ (by rw [whole])]
  · exact odd_zero_iff data
  · simp [pseudo_udphdr, htons, htonl]
  · simp [pseudo_udphdr, htons, htonl]
    omega

theorem icmp_verifies_iff (order : ByteOrder) (icmp_type : UInt8) (data : List UInt8)
    (short : data.length ≤ 1400) :
    Verifies (create_icmp_request order icmp_type data) ↔ Covered data := by
  rw [create_icmp_request, icmp, complement_verifies order _ _ _ ?_ ?_ (by rw [icmp]),
    odd_append _ data (by rw [List.length_append, store_length, store_length])]
  · exact odd_zero_iff data
  · simp
  · simp
    omega

theorem packets_verify_iff (order : ByteOrder) (saddr daddr : UInt32) (sport dport : UInt16)
    (protocol icmp_type : UInt8) (data_len : Nat) (data : List UInt8) (short : data.length ≤ 1400) :
    (Verifies (create_iphdr order saddr daddr protocol data_len) ∧
      Verifies (pseudo_udphdr saddr daddr (UDPHDR_LEN + data.length) ++
        create_udp_pack order sport dport saddr daddr data) ∧
      Verifies (create_icmp_request order icmp_type data)) ↔
      data.length % 2 = 0 ∨ data.getLast? = some 0 := by
  rw [udp_verifies_iff order sport dport saddr daddr data short,
    icmp_verifies_iff order icmp_type data short, and_self]
  exact and_iff_right (iphdr_verifies order saddr daddr protocol data_len)

theorem two_bytes_verify : [(104 : UInt8), 105].length ≤ 1400 ∧
    Verifies (create_icmp_request .little 8 [104, 105]) :=
  ⟨by decide, ((packets_verify_iff .little 0x0a000001 0x0a000002 4000 53 1 8 10 [104, 105]
    (by decide)).mpr (by decide)).2.2⟩

theorem one_byte_fails : [(1 : UInt8)].length ≤ 1400 ∧
    ¬ Verifies (create_icmp_request .little 8 [1]) ∧
    ¬ Verifies (pseudo_udphdr 0x0a000001 0x0a000002 (UDPHDR_LEN + 1) ++
      create_udp_pack .little 4000 53 0x0a000001 0x0a000002 [1]) := by
  have odd : ¬ Covered [1] := by decide
  exact ⟨by decide, fun right => odd ((icmp_verifies_iff .little 8 [1] (by decide)).mp right),
    fun right => odd ((udp_verifies_iff .little 4000 53 0x0a000001 0x0a000002 [1]
      (by decide)).mp right)⟩

end NetworkProgramming.RawPackets
