import NetworkProgramming.MymqLayout

/-!
The sizes that mymq_open computes for a new queue, in the types of the source:
long is 64 bits and signed, size_t 64 bits and unsigned, and the index of the loop
that links the free list is an int. `fileSize` and `stride` are the same sizes
without a bound.
-/

namespace NetworkProgramming

namespace Long

theorem unsigned_of_nonneg {n : Int64} (nonneg : 0 ≤ n.toInt) :
    n.toUInt64.toNat = n.toInt.toNat := by
  have bits : n.toUInt64.toNat = n.toBitVec.toNat := rfl
  have signed : n.toInt = n.toBitVec.toInt := rfl
  rw [signed, BitVec.toInt_eq_toNat_cond] at nonneg
  rw [bits, signed, BitVec.toInt_eq_toNat_cond]
  have bounded := n.toBitVec.isLt
  split at nonneg <;> omega

theorem signed_of_small {n : UInt64} (small : n.toNat < 2 ^ 63) : n.toInt64.toInt = n.toNat := by
  have signed : n.toInt64.toInt = n.toBitVec.toInt := rfl
  have bits : n.toBitVec.toNat = n.toNat := rfl
  rw [signed, BitVec.toInt_eq_toNat_cond, bits, if_pos (by omega)]

theorem toUInt64_toInt64 (n : UInt64) : n.toInt64.toUInt64 = n := rfl

end Long

namespace Mymq.Sizes

structure Attr where
  mqMaxmsg : Int64
  mqMsgsize : Int64
  deriving DecidableEq

def Attr.exact (attr : Attr) : MymqAttr := ⟨0, attr.mqMaxmsg.toInt, attr.mqMsgsize.toInt, 0⟩

def defattr : Attr := ⟨128, 1024⟩

/-- `MSGSIZE`: sizeof makes it unsigned. -/
def msgSize (i : Int64) : UInt64 := (i.toUInt64 + 8 - 1) / 8 * 8

def msgsize (attr : Attr) : Int64 := (msgSize attr.mqMsgsize).toInt64

def filesize (attr : Attr) : Int64 :=
  (216 + attr.mqMaxmsg.toUInt64 * (24 + (msgsize attr).toUInt64)).toInt64

/-- The loop over the free list after so many turns, `i` and `index`; `none` once it
has ended before. -/
def turns (attr : Attr) : Nat → Option (Int32 × Int64)
  | 0 => some (0, 216)
  | n + 1 =>
      (turns attr n).bind fun (i, index) =>
        if i.toInt64 < attr.mqMaxmsg - 1 then
          some (i + 1, (index.toUInt64 + (24 + (msgsize attr).toUInt64)).toInt64)
        else none

def header (attr : Attr) (n : Nat) : Option Int64 := (turns attr n).map Prod.snd

structure Kernel where
  lseek : Int64 → Bool
  write : Bool
  mmap : Bool
  malloc : Bool

inductive Opened where
  | einval
  | notExtended
  /-- The file has been extended; `headers` are the ones then written, in order. -/
  | extended (filesize : Int64) (headers : Nat → Option Int64)

def layOut (k : Kernel) (attr : Attr) : Opened :=
  if k.lseek (filesize attr - 1) && k.write then
    .extended (filesize attr) (if k.mmap && k.malloc then header attr else fun _ => none)
  else .notExtended

def mymqOpen (k : Kernel) : Option Attr → Opened
  | none => layOut k defattr
  | some attr =>
      if attr.mqMaxmsg ≤ 0 ∨ attr.mqMsgsize ≤ 0 then .einval else layOut k attr

/-- The size is the exact one, and each header that is written lies in the file with
the bytes of a message behind it. -/
def Fits (attr : Attr) : Opened → Prop
  | .extended filesize headers =>
      filesize.toInt = fileSize attr.exact ∧
        ∀ n, ∀ index ∈ headers n, sizeofMymqHdr ≤ index.toInt ∧
          index.toInt + sizeofMymsgHdr + attr.mqMsgsize.toInt ≤ filesize.toInt
  | _ => True

structure Attr.Admitted (attr : Attr) : Prop where
  maxmsg : 0 < attr.mqMaxmsg.toInt
  msgsize : 0 < attr.mqMsgsize.toInt

variable {attr : Attr}

theorem msg_size_exact (admitted : attr.Admitted) :
    (msgSize attr.mqMsgsize).toNat = Mymq.msgSize attr.mqMsgsize.toInt.toNat := by
  have bounded : attr.mqMsgsize.toInt < 2 ^ 63 := attr.mqMsgsize.toInt_lt
  have positive := admitted.msgsize
  have plain := Long.unsigned_of_nonneg (n := attr.mqMsgsize) positive.le
  simp only [msgSize, Mymq.msgSize, sizeofLong, UInt64.toNat_mul, UInt64.toNat_div,
    UInt64.toNat_sub, UInt64.toNat_add, plain, UInt64.reduceToNat]
  omega

theorem stride_exact (admitted : attr.Admitted) :
    (24 + (msgsize attr).toUInt64).toNat = stride attr.exact := by
  have rounded := msg_size_exact admitted
  have bounded : attr.mqMsgsize.toInt < 2 ^ 63 := attr.mqMsgsize.toInt_lt
  have nonneg := admitted.msgsize
  rw [msgsize, Long.toUInt64_toInt64, UInt64.toNat_add, rounded, stride, Attr.exact]
  simp only [Mymq.msgSize, sizeofLong, sizeofMymsgHdr, UInt64.reduceToNat]
  omega

theorem filesize_exact_iff (admitted : attr.Admitted) :
    (filesize attr).toInt = fileSize attr.exact ↔ fileSize attr.exact ≤ longMax := by
  have count := Long.unsigned_of_nonneg admitted.maxmsg.le
  constructor
  · intro same
    have bounded : (filesize attr).toInt < 2 ^ 63 := (filesize attr).toInt_lt
    simp only [longMax]
    omega
  · intro small
    have exact_size : fileSize attr.exact =
        216 + attr.mqMaxmsg.toUInt64.toNat * (24 + (msgsize attr).toUInt64).toNat := by
      rw [count, stride_exact admitted]
      rfl
    have plain : (216 + attr.mqMaxmsg.toUInt64 * (24 + (msgsize attr).toUInt64)).toNat =
        fileSize attr.exact := by
      rw [UInt64.toNat_add, UInt64.toNat_mul, exact_size]
      rw [exact_size, longMax] at small
      simp only [UInt64.reduceToNat]
      omega
    rw [filesize, Long.signed_of_small (by rw [plain]; simp only [longMax] at small; omega), plain]

/-- The int counts the turns, and starts again from below after 2 ^ 31 - 1. -/
theorem turns_counter {n : Nat} {i : Int32} {index : Int64}
    (begun : turns attr n = some (i, index)) : i = Int32.ofNat n := by
  induction n generalizing i index with
  | zero =>
      cases begun
      rfl
  | succ n ih =>
      obtain ⟨⟨j, earlier⟩, before, here⟩ := Option.bind_eq_some_iff.mp begun
      simp only [Option.ite_none_right_eq_some, Option.some.injEq, Prod.mk.injEq] at here
      rw [← here.2.1, ih before, Int32.ofNat_add]
      rfl

theorem turns_index (admitted : attr.Admitted) {n : Nat} {i : Int32} {index : Int64}
    (begun : turns attr n = some (i, index))
    (small : sizeofMymqHdr + n * stride attr.exact ≤ longMax) :
    index.toInt = sizeofMymqHdr + n * stride attr.exact := by
  induction n generalizing i index with
  | zero =>
      cases begun
      simp [sizeofMymqHdr]
  | succ n ih =>
      obtain ⟨⟨j, earlier⟩, before, here⟩ := Option.bind_eq_some_iff.mp begun
      simp only [Option.ite_none_right_eq_some, Option.some.injEq, Prod.mk.injEq] at here
      rw [Nat.add_mul, Nat.one_mul] at small
      have reached := ih before (by omega)
      have kept := Long.unsigned_of_nonneg (n := earlier) (by omega)
      have next : (earlier.toUInt64 + (24 + (msgsize attr).toUInt64)).toNat =
          sizeofMymqHdr + n * stride attr.exact + stride attr.exact := by
        rw [UInt64.toNat_add, stride_exact admitted, kept, reached]
        simp only [longMax] at small
        omega
      rw [← here.2.2, Long.signed_of_small (by rw [next]; simp only [longMax] at small; omega), next]
      push_cast
      rw [Int.add_mul, Int.one_mul, Int.add_assoc]

theorem last_index (admitted : attr.Admitted) :
    (attr.mqMaxmsg - 1).toInt = attr.mqMaxmsg.toInt - 1 := by
  have positive := admitted.maxmsg
  have bounded := attr.mqMaxmsg.toInt_lt
  have one : (1 : Int64).toInt = 1 := rfl
  rw [Int64.toInt_sub, one, Int.bmod_eq_of_le (by omega) (by omega)]

theorem turns_end (admitted : attr.Admitted) (short : attr.mqMaxmsg.toInt ≤ 2 ^ 31) {n : Nat}
    {i : Int32} {index : Int64} (begun : turns attr n = some (i, index)) :
    n < attr.mqMaxmsg.toInt := by
  induction n generalizing i index with
  | zero => exact admitted.maxmsg
  | succ n ih =>
      obtain ⟨⟨j, earlier⟩, before, here⟩ := Option.bind_eq_some_iff.mp begun
      simp only [Option.ite_none_right_eq_some] at here
      have inside := ih before
      have less := Int64.lt_iff_toInt_lt.mp here.1
      rw [Int32.toInt_toInt64, turns_counter before, last_index admitted,
        Int32.toInt_ofNat_of_lt (by omega)] at less
      push_cast
      omega

theorem turns_endless (admitted : attr.Admitted) (long : 2 ^ 31 < attr.mqMaxmsg.toInt) (n : Nat) :
    ∃ i index, turns attr n = some (i, index) := by
  induction n with
  | zero => exact ⟨_, _, rfl⟩
  | succ n ih =>
      obtain ⟨i, index, before⟩ := ih
      have bounded := i.toInt_lt
      have less : i.toInt64 < attr.mqMaxmsg - 1 := by
        rw [Int64.lt_iff_toInt_lt, Int32.toInt_toInt64, last_index admitted]
        omega
      refine ⟨i + 1, (index.toUInt64 + (24 + (msgsize attr).toUInt64)).toInt64, ?_⟩
      simp [turns, before, less]

theorem file_size_split {n : Nat} (slot : n < attr.mqMaxmsg.toInt) :
    sizeofMymqHdr + n * stride attr.exact + stride attr.exact ≤ fileSize attr.exact := by
  have fewer : n + 1 ≤ attr.mqMaxmsg.toInt.toNat := by omega
  have room := Nat.mul_le_mul_right (stride attr.exact) fewer
  rw [Nat.add_mul, Nat.one_mul] at room
  have whole : fileSize attr.exact =
      sizeofMymqHdr + attr.mqMaxmsg.toInt.toNat * stride attr.exact := rfl
  omega

theorem layOut_fits (admitted : attr.Admitted) (size : fileSize attr.exact ≤ longMax)
    (headers : Nat → Option Int64)
    (written : ∀ n, ∀ index ∈ headers n, attr.mqMaxmsg.toInt ≤ 2 ^ 31 ∧ header attr n = some index) :
    Fits attr (.extended (filesize attr) headers) := by
  have right := (filesize_exact_iff admitted).mpr size
  refine ⟨right, ?_⟩
  intro n index member
  obtain ⟨short, from_turn⟩ := written n index member
  obtain ⟨⟨i, found⟩, begun, rfl⟩ := Option.map_eq_some_iff.mp from_turn
  have room := file_size_split (turns_end admitted short begun)
  have data : attr.mqMsgsize.toInt.toNat ≤ Mymq.msgSize attr.mqMsgsize.toInt.toNat :=
    le_msg_size _
  have slot : stride attr.exact = sizeofMymsgHdr + Mymq.msgSize attr.mqMsgsize.toInt.toNat := rfl
  have place := turns_index admitted begun (by omega)
  have positive := admitted.msgsize
  rw [right, place]
  constructor <;> omega

theorem header_outside (admitted : attr.Admitted) (long : 2 ^ 31 < attr.mqMaxmsg.toInt) :
    ¬ Fits attr (.extended (filesize attr) (header attr)) := by
  rintro ⟨right, inside⟩
  have size := (filesize_exact_iff admitted).mp right
  obtain ⟨i, index, begun⟩ := turns_endless admitted long attr.mqMaxmsg.toInt.toNat
  have whole : fileSize attr.exact =
      sizeofMymqHdr + attr.mqMaxmsg.toInt.toNat * stride attr.exact := rfl
  have place := turns_index admitted begun (by omega)
  have written : index ∈ header attr attr.mqMaxmsg.toInt.toNat := by
    rw [header, begun]
    rfl
  have room := (inside _ index written).2
  have positive := admitted.msgsize
  rw [right, place, sizeofMymsgHdr] at room
  omega

/-- Where the file has been extended, the size and the headers are right exactly when
the exact size is a long and the int of the loop reaches the number of messages, unless
the file is not mapped or no room is left for the mymq_info and the loop is not reached. -/
theorem sizes_right_iff (k : Kernel) (admitted : attr.Admitted)
    (extended : k.lseek (filesize attr - 1) = true ∧ k.write = true) :
    Fits attr (mymqOpen k (some attr)) ↔
      fileSize attr.exact ≤ longMax ∧
        (attr.mqMaxmsg.toInt ≤ 2 ^ 31 ∨ k.mmap = false ∨ k.malloc = false) := by
  have zero : (0 : Int64).toInt = 0 := rfl
  have checked : ¬ (attr.mqMaxmsg ≤ 0 ∨ attr.mqMsgsize ≤ 0) := by
    have maxmsg := admitted.maxmsg
    have msgsize := admitted.msgsize
    rw [Int64.le_iff_toInt_le, Int64.le_iff_toInt_le, zero]
    omega
  rw [mymqOpen, if_neg checked, layOut, if_pos (by simp [extended])]
  by_cases reached : (k.mmap && k.malloc) = true
  · rw [if_pos reached]
    obtain ⟨mapped, room⟩ := Bool.and_eq_true_iff.mp reached
    simp only [mapped, room, Bool.true_eq_false, or_false]
    constructor
    · intro fits
      refine ⟨(filesize_exact_iff admitted).mp fits.1, ?_⟩
      by_contra long
      exact header_outside admitted (not_le.mp long) fits
    · rintro ⟨size, short⟩
      exact layOut_fits admitted size _ fun n index written => ⟨short, written⟩
  · rw [if_neg reached]
    have unreached : k.mmap = false ∨ k.malloc = false :=
      Bool.and_eq_false_iff.mp (Bool.not_eq_true _ ▸ reached)
    simp only [unreached, or_true, and_true]
    constructor
    · exact fun fits => (filesize_exact_iff admitted).mp fits.1
    · exact fun size => layOut_fits admitted size _ (by simp)

/-- A file system that lets a file grow as far as an offset can be. -/
def sparse : Kernel := ⟨fun offset => 0 ≤ offset, true, true, true⟩

theorem sizes_right_default : Fits ⟨128, 1024⟩ (mymqOpen sparse (some ⟨128, 1024⟩)) :=
  (sizes_right_iff sparse ⟨by decide, by decide⟩ ⟨by decide, rfl⟩).mpr ⟨by decide, by decide⟩

theorem sizes_wrap : ¬ ∀ (k : Kernel) (attr : Attr), attr.Admitted →
    k.lseek (filesize attr - 1) = true ∧ k.write = true → Fits attr (mymqOpen k (some attr)) := by
  intro always
  have fits := always sparse ⟨576460752303423488, 8⟩ ⟨by decide, by decide⟩ ⟨by decide, rfl⟩
  exact absurd fits.1 (by decide)

end Mymq.Sizes

end NetworkProgramming
