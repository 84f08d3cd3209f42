import Mathlib.Algebra.Order.Ring.Nat
import Mathlib.Data.List.Induction

/-!
Numbers in network order, the most significant byte first.
-/

namespace NetworkProgramming.NetworkOrder

def toBytes : Nat → Nat → List UInt8
  | 0, _ => []
  | width + 1, n => toBytes width (n / 256) ++ [UInt8.ofNat n]

def value (bytes : List UInt8) : Nat := bytes.foldl (fun high b => 256 * high + b.toNat) 0

@[simp] theorem to_bytes_length (width n : Nat) : (toBytes width n).length = width := by
  induction width generalizing n with
  | zero => rfl
  | succ width ih => rw [toBytes, List.length_append, ih, List.length_singleton]

theorem value_append (bytes : List UInt8) (b : UInt8) :
    value (bytes ++ [b]) = 256 * value bytes + b.toNat := by
  rw [value, List.foldl_append]
  rfl

theorem value_to_bytes (width n : Nat) : value (toBytes width n) = n % 256 ^ width := by
  induction width generalizing n with
  | zero => rw [Nat.pow_zero, Nat.mod_one, toBytes, value, List.foldl_nil]
  | succ width ih =>
      have split : n % 256 ^ (width + 1) = n % 256 + 256 * (n / 256 % 256 ^ width) := by
        rw [Nat.pow_succ', Nat.mod_mul]
      rw [toBytes, value_append, ih, split, UInt8.toNat_ofNat', Nat.add_comm]

theorem mem_to_bytes (width n : Nat) (b : UInt8) :
    b ∈ toBytes width n ↔ ∃ k < width, n / 256 ^ k % 256 = b.toNat := by
  induction width generalizing n with
  | zero => simp [toBytes]
  | succ width ih =>
      have last : b = UInt8.ofNat n ↔ n % 256 = b.toNat := by
        rw [← UInt8.toNat_inj, UInt8.toNat_ofNat']
        exact eq_comm
      rw [toBytes, List.mem_append, ih, List.mem_singleton, last]
      constructor
      · rintro (⟨k, below, byte⟩ | low)
        · refine ⟨k + 1, by omega, ?_⟩
          rwa [Nat.pow_succ', ← Nat.div_div_eq_div_mul]
        · exact ⟨0, by omega, by rwa [Nat.pow_zero, Nat.div_one]⟩
      · rintro ⟨k, below, byte⟩
        cases k with
        | zero => exact Or.inr (by rwa [Nat.pow_zero, Nat.div_one] at byte)
        | succ k =>
            rw [Nat.pow_succ', ← Nat.div_div_eq_div_mul] at byte
            exact Or.inl ⟨k, by omega, byte⟩

theorem to_bytes_add (high low n : Nat) :
    toBytes (high + low) n = toBytes high (n / 256 ^ low) ++ toBytes low n := by
  induction low generalizing n with
  | zero => simp [toBytes]
  | succ low ih =>
      rw [← Nat.add_assoc, toBytes, toBytes, ih, List.append_assoc, Nat.div_div_eq_div_mul,
        ← Nat.pow_succ']

theorem to_bytes_mod (width n : Nat) : toBytes width (n % 256 ^ width) = toBytes width n := by
  induction width generalizing n with
  | zero => rfl
  | succ width ih =>
      have high : n % 256 ^ (width + 1) / 256 = n / 256 % 256 ^ width := by
        rw [Nat.pow_succ', Nat.mod_mul_right_div_self]
      have low : UInt8.ofNat (n % 256 ^ (width + 1)) = UInt8.ofNat n := by
        rw [← UInt8.toNat_inj, UInt8.toNat_ofNat', UInt8.toNat_ofNat', Nat.pow_succ']
        exact Nat.mod_mul_right_mod n 256 _
      rw [toBytes, toBytes, high, low, ih]

theorem to_bytes_value (bytes : List UInt8) : toBytes bytes.length (value bytes) = bytes := by
  induction bytes using List.reverseRecOn with
  | nil => rfl
  | append_singleton bytes b ih =>
      have small : b.toNat < 256 := b.toNat_lt
      have high : (256 * value bytes + b.toNat) / 256 = value bytes := by omega
      have low : UInt8.ofNat (256 * value bytes + b.toNat) = b := by
        rw [← UInt8.toNat_inj, UInt8.toNat_ofNat']
        omega
      rw [List.length_append, List.length_singleton, toBytes, value_append, high, low, ih]

/-! The bytes in memory of what htons and htonl return. -/

def htons (n : UInt16) : List UInt8 := toBytes 2 n.toNat
def htonl (n : UInt32) : List UInt8 := toBytes 4 n.toNat
def ntohs (bytes : List UInt8) : UInt16 := UInt16.ofNat (value bytes)
def ntohl (bytes : List UInt8) : UInt32 := UInt32.ofNat (value bytes)

@[simp] theorem htons_length (n : UInt16) : (htons n).length = 2 := to_bytes_length 2 _
@[simp] theorem htonl_length (n : UInt32) : (htonl n).length = 4 := to_bytes_length 4 _

theorem ntohs_htons (n : UInt16) : ntohs (htons n) = n := by
  have small : n.toNat < 256 ^ 2 := n.toNat_lt
  rw [ntohs, htons, value_to_bytes, Nat.mod_eq_of_lt small, UInt16.ofNat_toNat]

theorem ntohl_htonl (n : UInt32) : ntohl (htonl n) = n := by
  have small : n.toNat < 256 ^ 4 := n.toNat_lt
  rw [ntohl, htonl, value_to_bytes, Nat.mod_eq_of_lt small, UInt32.ofNat_toNat]

end NetworkProgramming.NetworkOrder
