import Mathlib.Algebra.Order.Ring.Int
import Mathlib.Data.List.Range
import Mathlib.Logic.Function.Basic
import NetworkProgramming.IntCounter

/-!
BruteForceCoding.c: integers of one to eight bytes, put into an array one after
the other with the most significant byte first. The array goes on in both
directions, so that a byte out of place is seen. The offsets are `int`: one more
than INT_MAX is taken to be INT_MIN.
-/

namespace NetworkProgramming.BruteForceCoding

def CHAR_BIT : Nat := 8

/-- One turn of the loop: `dst[offset++]`. -/
def encodeByte (val : UInt64) (size : Nat) (s : (Int → UInt8) × Int32) (i : Nat) :
    (Int → UInt8) × Int32 :=
  (Function.update s.1 s.2.toInt (val >>> UInt64.ofNat ((size - 1 - i) * CHAR_BIT)).toUInt8,
    s.2 + 1)

def encodeIntBigEndian (dst : Int → UInt8) (val : UInt64) (offset : Int32) (size : Nat) :
    (Int → UInt8) × Int32 :=
  (List.range size).foldl (encodeByte val size) (dst, offset)

def decodeByte (val : Int → UInt8) (offset : Int32) (rtn : UInt64) (i : Nat) : UInt64 :=
  (rtn <<< UInt64.ofNat CHAR_BIT) ||| (val (offset + Int32.ofNat i).toInt).toUInt64

def decodeIntBigEndian (val : Int → UInt8) (offset : Int32) (size : Nat) : UInt64 :=
  (List.range size).foldl (decodeByte val offset) 0

structure Field where
  size : Nat
  val : UInt64
  deriving DecidableEq

/-- The preconditions that are not tested. -/
structure Field.Fits (f : Field) : Prop where
  size : f.size ≤ 8
  val : f.val.toNat < 2 ^ (8 * f.size)

def encodeAll (dst : Int → UInt8) (offset : Int32) :
    List Field → (Int → UInt8) × List (Int32 × Field)
  | [] => (dst, [])
  | f :: rest =>
      let next := encodeIntBigEndian dst f.val offset f.size
      let others := encodeAll next.1 next.2 rest
      (others.1, (offset, f) :: others.2)

def total : List Field → Nat
  | [] => 0
  | f :: rest => f.size + total rest

/-! One field. -/

theorem shift_byte (val : UInt64) (k : Nat) (small : k < 8) :
    (val >>> UInt64.ofNat (k * CHAR_BIT)).toUInt8.toNat = val.toNat / 256 ^ k % 256 := by
  have shift : (UInt64.ofNat (k * CHAR_BIT)).toNat % 64 = 8 * k := by
    rw [CHAR_BIT, UInt64.toNat_ofNat']
    omega
  rw [UInt64.toNat_toUInt8, UInt64.toNat_shiftRight, shift, Nat.shiftRight_eq_div_pow, Nat.pow_mul]

/-- After some of the turns; the byte that a turn stores is not stored again. -/
theorem encoded_bytes (dst : Int → UInt8) (val : UInt64) (offset : Int32) (size count : Nat)
    (room : offset.toInt + count < 2 ^ 31) :
    (List.range count).foldl (encodeByte val size) (dst, offset) =
      (fun a => if offset.toInt ≤ a ∧ a < offset.toInt + count then
        (val >>> UInt64.ofNat ((size - 1 - (a - offset.toInt).toNat) * CHAR_BIT)).toUInt8
          else dst a,
      offset + Int32.ofNat count) := by
  induction count with
  | zero =>
      refine Prod.ext (funext fun a => ?_) (Int32.add_zero offset).symm
      have outside : ¬ (offset.toInt ≤ a ∧ a < offset.toInt + (0 : Nat)) := by omega
      exact (if_neg outside).symm
  | succ count ih =>
      have before : (offset + Int32.ofNat count).toInt = offset.toInt + count :=
        IntCounter.add_value offset count (by omega)
      rw [List.range_succ, List.foldl_append, ih (by omega), List.foldl_cons, List.foldl_nil,
        encodeByte, before, Int32.add_assoc, IntCounter.succ]
      refine Prod.ext (funext fun a => ?_) rfl
      dsimp only
      by_cases here : a = offset.toInt + count
      · have index : (a - offset.toInt).toNat = count := by omega
        have inside : offset.toInt ≤ a ∧ a < offset.toInt + (count + 1 : Nat) := by omega
        rw [if_pos inside, index, here, Function.update_self]
      · rw [Function.update_of_ne here]
        have same : (offset.toInt ≤ a ∧ a < offset.toInt + (count + 1 : Nat)) ↔
            offset.toInt ≤ a ∧ a < offset.toInt + count := by omega
        simp only [same]

theorem encode_offset (dst : Int → UInt8) (val : UInt64) (offset : Int32) (size : Nat)
    (room : offset.toInt + size < 2 ^ 31) :
    (encodeIntBigEndian dst val offset size).2.toInt = offset.toInt + size := by
  rw [encodeIntBigEndian, encoded_bytes dst val offset size size room]
  exact IntCounter.add_value offset size room

theorem encode_outside (dst : Int → UInt8) (val : UInt64) (offset : Int32) (size : Nat)
    (room : offset.toInt + size < 2 ^ 31) (a : Int)
    (outside : a < offset.toInt ∨ offset.toInt + size ≤ a) :
    (encodeIntBigEndian dst val offset size).1 a = dst a := by
  rw [encodeIntBigEndian, encoded_bytes dst val offset size size room]
  exact if_neg (by omega)

theorem encode_inside (dst : Int → UInt8) (val : UInt64) (offset : Int32) (size i : Nat)
    (small : size ≤ 8) (room : offset.toInt + size < 2 ^ 31) (inside : i < size) :
    ((encodeIntBigEndian dst val offset size).1 (offset.toInt + i)).toNat =
      val.toNat / 256 ^ (size - 1 - i) % 256 := by
  have index : (offset.toInt + i - offset.toInt).toNat = i := by omega
  rw [encodeIntBigEndian, encoded_bytes dst val offset size size room]
  dsimp only
  rw [if_pos (by omega), index, shift_byte _ _ (by omega)]

theorem decode_congr (left right : Int → UInt8) (offset : Int32) (size : Nat)
    (room : offset.toInt + size < 2 ^ 31)
    (same : ∀ i < size, left (offset.toInt + i) = right (offset.toInt + i)) :
    decodeIntBigEndian left offset size = decodeIntBigEndian right offset size := by
  apply List.foldl_ext
  intro rtn i member
  have inside := List.mem_range.mp member
  rw [decodeByte, decodeByte, IntCounter.add_value offset i (by omega), same i inside]

/-- After some of the turns rtn is the high bytes; as the value fits, none is shifted out. -/
theorem decoded_bytes (cells : Int → UInt8) (n : Nat) (offset : Int32) (size : Nat)
    (small : size ≤ 8) (room : offset.toInt + size < 2 ^ 31) (fits : n < 256 ^ size)
    (bytes : ∀ i < size, (cells (offset.toInt + i)).toNat = n / 256 ^ (size - 1 - i) % 256)
    (count : Nat) (within : count ≤ size) :
    ((List.range count).foldl (decodeByte cells offset) 0).toNat = n / 256 ^ (size - count) := by
  induction count with
  | zero =>
      rw [Nat.sub_zero, Nat.div_eq_of_lt fits]
      rfl
  | succ count ih =>
      have later : size - (count + 1) = size - 1 - count := by omega
      -- the bytes so far are those of the quotient by one power less, but for its last byte
      have high : n / 256 ^ (size - count) = n / 256 ^ (size - 1 - count) / 256 := by
        rw [Nat.div_div_eq_div_mul, ← Nat.pow_succ]
        congr 2
        omega
      have room : n / 256 ^ (size - count) < 256 ^ count := by
        apply Nat.div_lt_of_lt_mul
        rwa [← Nat.pow_add, Nat.sub_add_cancel (by omega)]
      have most : 256 ^ count ≤ 256 ^ 7 := Nat.pow_le_pow_right (by decide) (by omega)
      have shift : (UInt64.ofNat CHAR_BIT).toNat % 64 = 8 := rfl
      have kept : (n / 256 ^ (size - count)) <<< 8 < 2 ^ 64 := by
        rw [Nat.shiftLeft_eq]
        omega
      rw [List.range_succ, List.foldl_append, List.foldl_cons, List.foldl_nil, decodeByte,
        IntCounter.add_value offset count (by omega), UInt64.toNat_or, UInt64.toNat_shiftLeft,
        shift, ih (by omega), UInt8.toNat_toUInt64,
        bytes count (by omega), Nat.mod_eq_of_lt kept,
        ← Nat.shiftLeft_add_eq_or_of_lt (Nat.mod_lt _ (by decide)), Nat.shiftLeft_eq, high, later]
      omega

theorem decode_encode (cells dst : Int → UInt8) (f : Field) (fits : f.Fits) (offset : Int32)
    (room : offset.toInt + f.size < 2 ^ 31)
    (same : ∀ i < f.size, cells (offset.toInt + i) =
      (encodeIntBigEndian dst f.val offset f.size).1 (offset.toInt + i)) :
    decodeIntBigEndian cells offset f.size = f.val := by
  obtain ⟨small, val⟩ := fits
  rw [Nat.pow_mul] at val
  rw [decode_congr cells _ offset f.size room same, ← UInt64.toNat_inj, decodeIntBigEndian,
    decoded_bytes _ f.val.toNat offset f.size small room val
      (fun i inside => encode_inside dst f.val offset f.size i small room inside) f.size
      (Nat.le_refl _),
    Nat.sub_self, Nat.pow_zero, Nat.div_one]

/-! Fields in a row. -/

theorem encode_all_outside (fields : List Field) (dst : Int → UInt8) (start : Int32)
    (room : start.toInt + total fields < 2 ^ 31) (a : Int)
    (outside : a < start.toInt ∨ start.toInt + total fields ≤ a) :
    (encodeAll dst start fields).1 a = dst a := by
  induction fields generalizing dst start with
  | nil => rfl
  | cons f rest ih =>
      rw [total] at outside room
      have next := encode_offset dst f.val start f.size (by omega)
      rw [encodeAll]
      dsimp only
      rw [ih _ _ (by omega) (by omega), encode_outside _ _ _ _ (by omega) _ (by omega)]

theorem encode_all_decoded (fields : List Field) (fits : ∀ f ∈ fields, f.Fits) (dst : Int → UInt8)
    (start : Int32) (room : start.toInt + total fields < 2 ^ 31) :
    ∀ p ∈ (encodeAll dst start fields).2,
      decodeIntBigEndian (encodeAll dst start fields).1 p.1 p.2.size = p.2.val := by
  induction fields generalizing dst start with
  | nil => exact List.forall_mem_nil _
  | cons f rest ih =>
      rw [total] at room
      have next := encode_offset dst f.val start f.size (by omega)
      rw [encodeAll]
      dsimp only
      rw [List.forall_mem_cons]
      constructor
      · -- the fields behind it leave this one as it is
        apply decode_encode _ dst f (fits f List.mem_cons_self) start (by omega)
        intro i inside
        apply encode_all_outside
        · omega
        · omega
      · exact ih (fun g member => fits g (List.mem_cons_of_mem f member)) _ _ (by omega)

theorem encode_all_fields (fields : List Field) (dst : Int → UInt8) (start : Int32) :
    (encodeAll dst start fields).2.map Prod.snd = fields := by
  induction fields generalizing dst start with
  | nil => rfl
  | cons f rest ih => rw [encodeAll, List.map_cons, ih]

theorem big_endian_sequence (fields : List Field) (fits : ∀ f ∈ fields, f.Fits)
    (dst : Int → UInt8) (start : Int32) (room : start.toInt + total fields ≤ 2 ^ 31 - 1) :
    (encodeAll dst start fields).2.map Prod.snd = fields ∧
      (∀ a, a < start.toInt ∨ start.toInt + total fields ≤ a →
        (encodeAll dst start fields).1 a = dst a) ∧
      ∀ p ∈ (encodeAll dst start fields).2,
        decodeIntBigEndian (encodeAll dst start fields).1 p.1 p.2.size = p.2.val := by
  have below : start.toInt + total fields < 2 ^ 31 := by omega
  exact ⟨encode_all_fields fields dst start, encode_all_outside fields dst start below,
    encode_all_decoded fields fits dst start below⟩

def message : List Field := [⟨1, 101⟩, ⟨2, 10001⟩, ⟨4, 100000001⟩, ⟨8, 1000000000001⟩]

theorem message_decoded :
    ((encodeAll (fun _ => 0) 0 message).2.map fun p =>
      decodeIntBigEndian (encodeAll (fun _ => 0) 0 message).1 p.1 p.2.size) =
        message.map Field.val := by
  have fits : ∀ f ∈ message, f.Fits := by
    intro f member
    simp only [message, List.mem_cons, List.not_mem_nil, or_false] at member
    rcases member with rfl | rfl | rfl | rfl <;> exact ⟨by decide, by decide⟩
  have kept := big_endian_sequence message fits (fun _ => 0) 0 (by decide)
  calc
    _ = (encodeAll (fun _ => 0) 0 message).2.map fun p => p.2.val :=
      List.map_congr_left kept.2.2
    _ = ((encodeAll (fun _ => 0) 0 message).2.map Prod.snd).map Field.val := by
      rw [List.map_map]
      rfl
    _ = message.map Field.val := by rw [kept.1]

-- the second byte of the field is stored at INT_MIN
theorem past_int_max : ¬ ∀ (fields : List Field) (dst : Int → UInt8) (start : Int32),
    (∀ f ∈ fields, f.Fits) → ∀ a, a < start.toInt ∨ start.toInt + total fields ≤ a →
      (encodeAll dst start fields).1 a = dst a := by
  intro kept
  have fits : ∀ f ∈ [(⟨2, 1⟩ : Field)], f.Fits := by
    intro f member
    rw [List.mem_singleton.mp member]
    exact ⟨by decide, by decide⟩
  have same := kept [⟨2, 1⟩] (fun _ => 0) Int32.maxValue fits (-2147483648) (.inl (by decide))
  exact absurd same (by decide)

end NetworkProgramming.BruteForceCoding
