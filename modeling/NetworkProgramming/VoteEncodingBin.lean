import NetworkProgramming.NetworkOrder
import NetworkProgramming.VoteProtocol

/-!
VoteEncodingBin.c: a message of four bytes, or of twelve with the count of a
response.
-/

namespace NetworkProgramming.VoteEncodingBin

open LinearBuffer NetworkOrder VoteProtocol

def REQUEST_SIZE : Nat := 4
def RESPONSE_SIZE : Nat := 12
def COUNT_SHIFT : UInt64 := 32
def INQUIRE_FLAG : UInt16 := 0x0100
def RESPONSE_FLAG : UInt16 := 0x0200
def MAGIC : UInt16 := 0x5400

/-- sizeof(voteMsgBin): header at 0, candidateID at 2, countHigh at 4, countLow at 8. -/
def sizeofMsg : Nat := 12

def header (v : VoteInfo) : UInt16 :=
  MAGIC ||| (if v.isInquiry then INQUIRE_FLAG else 0) ||| (if v.isResponse then RESPONSE_FLAG else 0)

def countHigh (v : VoteInfo) : UInt32 := (v.count >>> COUNT_SHIFT).toUInt32
def countLow (v : VoteInfo) : UInt32 := v.count.toUInt32

def encode (v : VoteInfo) (bufSize : Nat) : Except Stop Encoded :=
  if v.isResponse ∧ bufSize < sizeofMsg ∨ bufSize < 2 * 2 then
    .error (.died "Output buffer too small" "")
  else
    -- The header is put together in place, and swapped.
    let stores : Stores := [(0, List.replicate sizeofMsg 0), (0, htons (header v)),
      (2, htons (UInt16.ofInt v.candidate))]
    if v.isResponse then
      .ok { size := RESPONSE_SIZE
            stores := stores ++ [(4, htonl (countHigh v)), (8, htonl (countLow v))] }
    else .ok { size := REQUEST_SIZE, stores := stores }

def encoding : VoteEncoding := ⟨encode⟩

def wire (v : VoteInfo) : List UInt8 :=
  htons (header v) ++ (htons (UInt16.ofInt v.candidate) ++
    if v.isResponse then toBytes 8 v.count.toNat else [])

theorem count_high (v : VoteInfo) : (countHigh v).toNat = v.count.toNat / 256 ^ 4 := by
  have small := v.count.toNat_lt
  simp only [countHigh, COUNT_SHIFT, UInt64.toNat_toUInt32, UInt64.toNat_shiftRight]
  rw [show (32 : UInt64).toNat % 64 = 32 from rfl, Nat.shiftRight_eq_div_pow]
  omega

theorem count_halves (v : VoteInfo) :
    htonl (countHigh v) ++ htonl (countLow v) = toBytes 8 v.count.toNat := by
  have high := count_high v
  have low : (countLow v).toNat = v.count.toNat % 256 ^ 4 := UInt64.toNat_toUInt32 v.count
  rw [htonl, htonl, high, low, to_bytes_mod, ← to_bytes_add]

theorem encode_message (v : VoteInfo) (outBuf : Nat → UInt8) :
    ∃ e, encode v MAX_WIRE_SIZE = .ok e ∧ e.message outBuf = wire v := by
  have small : ¬ (v.isResponse ∧ MAX_WIRE_SIZE < sizeofMsg ∨ MAX_WIRE_SIZE < 2 * 2) := by
    rintro (⟨-, small⟩ | small) <;> exact absurd small (by decide)
  -- The stores after the memset lie one behind the other.
  have request (cells : Nat → UInt8) :
      store (store cells 0 (htons (header v))) 2 (htons (UInt16.ofInt v.candidate)) =
        store cells 0 (htons (header v) ++ htons (UInt16.ofInt v.candidate)) := by
    rw [store_append, htons_length]
  have response (cells : Nat → UInt8) (bytes : List UInt8) (four_ : bytes.length = 4) :
      store (store (store cells 0 bytes) 4 (htonl (countHigh v))) 8 (htonl (countLow v)) =
        store cells 0 (bytes ++ toBytes 8 v.count.toNat) := by
    rw [← count_halves, store_append, store_append, four_, htonl_length]
  have head : (htons (header v) ++ htons (UInt16.ofInt v.candidate)).length = 4 := by
    rw [List.length_append, htons_length, htons_length]
  rw [encode, if_neg small, wire]
  split
  · refine ⟨_, rfl, ?_⟩
    simp only [Encoded.message, Stores.after, List.cons_append, List.nil_append, List.foldl_cons,
      List.foldl_nil, request, response _ _ head]
    rw [← List.append_assoc]
    have size : RESPONSE_SIZE = (htons (header v) ++ htons (UInt16.ofInt v.candidate) ++
        toBytes 8 v.count.toNat).length := by
      rw [List.length_append, head, to_bytes_length]
      rfl
    rw [size, load_store]
  · refine ⟨_, rfl, ?_⟩
    simp only [Encoded.message, Stores.after, List.foldl_cons, List.foldl_nil, request]
    have size : REQUEST_SIZE = (htons (header v) ++ htons (UInt16.ofInt v.candidate)).length :=
      head.symm
    rw [size, load_store, List.append_nil]

theorem wire_length (v : VoteInfo) : (wire v).length ≤ RESPONSE_SIZE := by
  rw [wire, List.length_append, List.length_append, htons, htons, to_bytes_length, to_bytes_length]
  split
  · rw [to_bytes_length]
    exact Nat.le_refl 12
  · exact Nat.le_of_ble_eq_true rfl

/-! Which votes have a byte 0x0A in their message. -/

/-- No byte of the candidate's number is a newline, nor of the count if that is sent. -/
def NewlineFree (v : VoteInfo) : Prop :=
  v.candidate % 256 ≠ 10 ∧ (v.isResponse = true → ∀ k < 8, v.count.toNat / 256 ^ k % 256 ≠ 10)

theorem newline_not_header (v : VoteInfo) : CText.newline ∉ htons (header v) := by
  rw [header]
  cases v.isInquiry <;> cases v.isResponse <;> decide

theorem newline_candidate (candidate : Int) (valid : 0 ≤ candidate ∧ candidate ≤ MAX_CANDIDATE) :
    CText.newline ∈ htons (UInt16.ofInt candidate) ↔ candidate % 256 = 10 := by
  rw [MAX_CANDIDATE] at valid
  have value : (UInt16.ofInt candidate).toNat = candidate.toNat := by
    rw [UInt16.ofInt, UInt16.toNat_ofNat']
    omega
  have byte : CText.newline.toNat = 10 := rfl
  rw [htons, value, mem_to_bytes, byte]
  constructor
  · rintro ⟨k, below, same⟩
    -- The high byte of a candidate is at most 3.
    obtain rfl | rfl : k = 0 ∨ k = 1 := by omega
    · rw [Nat.pow_zero, Nat.div_one] at same
      omega
    · rw [Nat.pow_one] at same
      omega
  · intro low
    refine ⟨0, by omega, ?_⟩
    rw [Nat.pow_zero, Nat.div_one]
    omega

theorem newline_wire (v : VoteInfo) (valid : v.Valid) :
    CText.newline ∉ wire v ↔ NewlineFree v := by
  rw [wire, List.mem_append, List.mem_append, not_or, not_or,
    newline_candidate v.candidate valid.candidate, NewlineFree]
  constructor
  · rintro ⟨-, candidate, count⟩
    refine ⟨candidate, fun response k below same => count ?_⟩
    rw [if_pos response, mem_to_bytes]
    exact ⟨k, below, same⟩
  · rintro ⟨candidate, count⟩
    refine ⟨newline_not_header v, candidate, fun member => ?_⟩
    split at member
    · rename_i response
      obtain ⟨k, below, same⟩ := (mem_to_bytes 8 v.count.toNat CText.newline).mp member
      exact count response k below same
    · exact List.not_mem_nil member

/-! Decode. The structure lies in inBuf, which is larger. -/

def MAGIC_MASK : UInt16 := 0xfc00

def field (inBuf : List UInt8) (offset size : Nat) : List UInt8 := (inBuf.drop offset).take size

-- The header is read before mSize is looked at.
def decode (inBuf : List UInt8) (mSize : Nat) (v : VoteInfo) : Decoded :=
  let header := ntohs (field inBuf 0 2)
  if mSize < REQUEST_SIZE ∨ header &&& MAGIC_MASK ≠ MAGIC then ⟨false, v, inBuf⟩
  else
    let isResponse := decide (header &&& RESPONSE_FLAG ≠ 0)
    let count := if isResponse ∧ RESPONSE_SIZE ≤ mSize then
        (ntohl (field inBuf 4 4)).toUInt64 <<< COUNT_SHIFT ||| (ntohl (field inBuf 8 4)).toUInt64
      else v.count
    ⟨true, { count := count
             candidate := (ntohs (field inBuf 2 2)).toNat
             isInquiry := decide (header &&& INQUIRE_FLAG ≠ 0)
             isResponse := isResponse }, inBuf⟩

theorem field_append (message tail : List UInt8) (offset size : Nat)
    (inside : offset + size ≤ message.length) :
    field (message ++ tail) offset size = field message offset size := by
  rw [field, field, List.drop_append_of_le_length (by omega), List.take_append_of_le_length]
  rw [List.length_drop]
  omega

theorem decode_append (message tail : List UInt8) (v : VoteInfo) :
    (decode (message ++ tail) message.length v).outcome =
      (decode message message.length v).outcome := by
  by_cases short : message.length < REQUEST_SIZE
  · rw [decode, decode, if_pos (Or.inl short), if_pos (Or.inl short)]
    rfl
  · rw [REQUEST_SIZE] at short
    have header := field_append message tail 0 2 (by omega)
    have candidateID := field_append message tail 2 2 (by omega)
    by_cases counted : RESPONSE_SIZE ≤ message.length
    · have long := counted
      rw [RESPONSE_SIZE] at long
      have countHigh := field_append message tail 4 4 (by omega)
      have countLow := field_append message tail 8 4 (by omega)
      simp only [decode, header, candidateID, countHigh, countLow]
      split <;> rfl
    · simp only [decode, header, candidateID, counted, and_false, ↓reduceIte]
      split <;> rfl

/-! A message that Encode has written. -/

theorem count_joined (v : VoteInfo) :
    (countHigh v).toUInt64 <<< COUNT_SHIFT ||| (countLow v).toUInt64 = v.count := by
  have small := v.count.toNat_lt
  have low : (countLow v).toNat = v.count.toNat % 2 ^ 32 := UInt64.toNat_toUInt32 v.count
  have below : (countHigh v).toNat < 2 ^ 32 := (countHigh v).toNat_lt
  have shifted : ((countHigh v).toUInt64 <<< COUNT_SHIFT).toNat = (countHigh v).toNat <<< 32 := by
    rw [COUNT_SHIFT, UInt64.toNat_shiftLeft, UInt32.toNat_toUInt64,
      show (32 : UInt64).toNat % 64 = 32 from rfl, Nat.mod_eq_of_lt]
    rw [Nat.shiftLeft_eq]
    omega
  rw [← UInt64.toNat_inj, UInt64.toNat_or, shifted, UInt32.toNat_toUInt64, low,
    ← Nat.shiftLeft_add_eq_or_of_lt (Nat.mod_lt _ (by decide)), count_high, Nat.shiftLeft_eq]
  omega

theorem header_magic (v : VoteInfo) : header v &&& MAGIC_MASK = MAGIC := by
  rw [header]
  cases v.isInquiry <;> cases v.isResponse <;> decide

theorem header_inquire (v : VoteInfo) : decide (header v &&& INQUIRE_FLAG ≠ 0) = v.isInquiry := by
  rw [header]
  cases v.isInquiry <;> cases v.isResponse <;> decide

theorem header_response (v : VoteInfo) : decide (header v &&& RESPONSE_FLAG ≠ 0) = v.isResponse := by
  rw [header]
  cases v.isInquiry <;> cases v.isResponse <;> decide

theorem candidate_kept (v : VoteInfo) (valid : v.Valid) :
    ((UInt16.ofInt v.candidate).toNat : Int) = v.candidate := by
  have range := valid.candidate
  rw [MAX_CANDIDATE] at range
  rw [UInt16.ofInt, UInt16.toNat_ofNat']
  omega

theorem field_at (before bytes after : List UInt8) (offset size : Nat)
    (placed : before.length = offset) (sized : bytes.length = size) :
    field (before ++ (bytes ++ after)) offset size = bytes := by
  rw [field, List.drop_left' placed, List.take_left' sized]

/-- All comes back of a response; for a request Decode leaves the count that it finds. -/
theorem decode_wire (v old : VoteInfo) (valid : v.Valid) (tail : List UInt8) :
    (decode (wire v ++ tail) (wire v).length old).outcome =
      some { v with count := if v.isResponse then v.count else old.count } := by
  have header_ : field (wire v) 0 2 = htons (header v) :=
    field_at [] (htons (header v)) _ 0 2 rfl (htons_length _)
  have candidate_ : field (wire v) 2 2 = htons (UInt16.ofInt v.candidate) :=
    field_at (htons (header v)) _ _ 2 2 (htons_length _) (htons_length _)
  have magic : ¬ ((wire v).length < REQUEST_SIZE ∨ header v &&& MAGIC_MASK ≠ MAGIC) := by
    rw [header_magic, wire, List.length_append, List.length_append, htons_length, htons_length,
      REQUEST_SIZE, not_or, not_not]
    exact ⟨by omega, rfl⟩
  rw [decode_append]
  simp only [decode, header_, candidate_, ntohs_htons, if_neg magic, header_inquire,
    header_response, candidate_kept v valid, Decoded.outcome, ↓reduceIte]
  cases response : v.isResponse with
  | false => rfl
  | true =>
      have text : wire v = (htons (header v) ++ htons (UInt16.ofInt v.candidate)) ++
          (htonl (countHigh v) ++ (htonl (countLow v) ++ [])) := by
        rw [wire, if_pos response, List.append_nil, count_halves, List.append_assoc]
      have high : field (wire v) 4 4 = htonl (countHigh v) := by
        rw [text]
        exact field_at _ _ _ 4 4 (by simp) (htonl_length _)
      have low : field (wire v) 8 4 = htonl (countLow v) := by
        rw [text, ← List.append_assoc]
        exact field_at _ _ _ 8 4 (by simp) (htonl_length _)
      have long : RESPONSE_SIZE ≤ (wire v).length := by
        rw [text]
        simp [RESPONSE_SIZE]
      simp only [high, low, long, ntohl_htonl, count_joined, and_self, ↓reduceIte]

end NetworkProgramming.VoteEncodingBin
