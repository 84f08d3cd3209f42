import NetworkProgramming.Mymq
import NetworkProgramming.StablePriority

/-!
The layout of a mapped message queue: two chains that share out the slots, the
first in order of falling priority. Linking a message moves the first free slot
to its place in the queue, taking one moves the first queued slot to the front
of the free list, and neither touches the message of another slot.
-/

namespace NetworkProgramming.Mymq

def MappedFile.nextFree (file : MappedFile) : Option Nat → Nat
  | none => file.hdr.mqhFree
  | some index => (file.msg index).msgNext

def offsets (first step count : Nat) : List Nat :=
  (List.range count).map fun k => first + k * step

def slots (attr : MymqAttr) : List Nat :=
  offsets sizeofMymqHdr (stride attr) attr.mqMaxmsg.toNat

structure Layout (file : MappedFile) (queue free : List Nat) : Prop where
  queued : Chain file.next 0 none queue
  unused : Chain file.nextFree 0 none free
  shared_out : (queue ++ free).Perm (slots file.hdr.mqhAttr)
  curmsgs : file.hdr.mqhAttr.mqCurmsgs = queue.length
  ordered : queue.Pairwise fun a b => (file.msg b).msgPrio ≤ (file.msg a).msgPrio
  lens : ∀ index ∈ queue, ((file.msg index).msgLen : Int) ≤ file.hdr.mqhAttr.mqMsgsize
  maxmsg_pos : 0 < file.hdr.mqhAttr.mqMaxmsg
  msgsize_pos : 0 < file.hdr.mqhAttr.mqMsgsize
  msgsize_max : file.hdr.mqhAttr.mqMsgsize ≤ longMax

def messageAt (file : MappedFile) (index : Nat) : Message :=
  ⟨bytesAt file.byte (index + sizeofMymsgHdr) (file.msg index).msgLen, (file.msg index).msgPrio⟩

def contents (file : MappedFile) (queue : List Nat) : List Message := queue.map (messageAt file)

/-! ### Slots do not overlap. -/

theorem le_msg_size (i : Nat) : i ≤ msgSize i := by
  simp only [msgSize, sizeofLong]
  omega

theorem offsets_succ (first step count : Nat) :
    offsets first step (count + 1) = first :: offsets (first + step) step count := by
  simp only [offsets, List.range_succ_eq_map, List.map_cons, List.map_map, Nat.zero_mul,
    Nat.add_zero]
  congr 1
  apply List.map_congr_left
  intro k _
  simp only [Function.comp, Nat.succ_eq_add_one, Nat.add_mul]
  omega

theorem offsets_apart (first step count i j : Nat) (here : i ∈ offsets first step count)
    (there : j ∈ offsets first step count) (other : i ≠ j) : i + step ≤ j ∨ j + step ≤ i := by
  simp only [offsets, List.mem_map, List.mem_range] at here there
  obtain ⟨k, _, rfl⟩ := here
  obtain ⟨l, _, rfl⟩ := there
  rcases Nat.lt_trichotomy k l with less | same | more
  · have far := Nat.mul_le_mul_right step (Nat.succ_le_of_lt less)
    rw [Nat.succ_mul] at far
    omega
  · exact absurd (by rw [same]) other
  · have far := Nat.mul_le_mul_right step (Nat.succ_le_of_lt more)
    rw [Nat.succ_mul] at far
    omega

theorem offsets_nodup (first step count : Nat) (positive : 0 < step) :
    (offsets first step count).Nodup := by
  refine List.Nodup.map ?_ List.nodup_range
  intro k l same
  have equal : first + k * step = first + l * step := same
  exact Nat.eq_of_mul_eq_mul_right positive (by omega)

theorem stride_pos (attr : MymqAttr) : 0 < stride attr := by
  simp only [stride, sizeofMymsgHdr]
  omega

/-- No byte is in the header of one slot and in the message of another, and all
slots lie between the queue's header and the end of the file. -/
structure Separate (attr : MymqAttr) (cells : List Nat) : Prop where
  inside : ∀ i ∈ cells, sizeofMymqHdr ≤ i ∧ i + stride attr ≤ fileSize attr
  apart : ∀ i ∈ cells, ∀ j ∈ cells,
    i + sizeofMymsgHdr ≤ j + sizeofMymsgHdr ∨ j + stride attr ≤ i

theorem slots_separate (attr : MymqAttr) : Separate attr (slots attr) := by
  constructor
  · intro i member
    simp only [slots, offsets, List.mem_map, List.mem_range] at member
    obtain ⟨k, below, rfl⟩ := member
    have ends := Nat.mul_le_mul_right (stride attr) (Nat.succ_le_of_lt below)
    rw [Nat.succ_mul] at ends
    simp only [fileSize]
    omega
  · intro i here j there
    by_cases same : i = j
    · exact Or.inl (by omega)
    · rcases offsets_apart _ _ _ i j here there same with before | behind
      · exact Or.inl (by omega)
      · exact Or.inr behind

/-! ### Copies of bytes. -/

theorem bytes_at_memcpy (byte : Nat → UInt8) (dst : Nat) (bytes : List UInt8) :
    bytesAt (memcpy byte dst bytes) dst bytes.length = bytes := by
  apply List.ext_getElem
  · simp [bytesAt]
  · intro k low high
    simp [bytesAt, memcpy, high]

theorem bytes_at_other (byte : Nat → UInt8) (dst src len : Nat) (bytes : List UInt8)
    (apart : src + len ≤ dst ∨ dst + bytes.length ≤ src) :
    bytesAt (memcpy byte dst bytes) src len = bytesAt byte src len := by
  apply List.map_congr_left
  intro k member
  rw [List.mem_range] at member
  simp only [memcpy]
  split
  · rw [List.getD_eq_getElem?_getD, List.getElem?_eq_none (by omega), Option.getD_none]
  · rfl

/-! ### The free list that `mymq_open` builds. -/

theorem link_free_last (step more index : Nat) (msg : Nat → MymsgHdr) :
    (linkFree step more index msg).1 = index + more * step := by
  induction more generalizing index msg with
  | zero => simp [linkFree]
  | succ more ih =>
      rw [linkFree, ih, Nat.add_mul]
      omega

theorem link_free_below (step more index i : Nat) (msg : Nat → MymsgHdr) (below : i < index) :
    (linkFree step more index msg).2 i = msg i := by
  induction more generalizing index msg with
  | zero => rfl
  | succ more ih =>
      rw [linkFree, ih _ _ (by omega), Function.update_of_ne (by omega)]

def linksFrom (first : Nat) (msg : Nat → MymsgHdr) : Option Nat → Nat
  | none => first
  | some i => (msg i).msgNext

theorem link_free_chain (step more index : Nat) (msg : Nat → MymsgHdr) (positive : 0 < index)
    (forward : 0 < step) :
    Chain (linksFrom index (endFree (linkFree step more index msg))) 0 none
      (offsets index step (more + 1)) := by
  induction more generalizing index msg with
  | zero => simp [linkFree, endFree, offsets, linksFrom, Nat.ne_of_gt positive]
  | succ more ih =>
      rw [offsets_succ, linkFree]
      -- the later iterations do not touch the slot linked first
      generalize once :
        Function.update msg index { msg index with msgNext := index + step } = linked
      have tail := ih (index + step) linked (by omega)
      have last := link_free_last step more (index + step) linked
      refine ⟨rfl, Nat.ne_of_gt positive, tail.restart none (some index) _ ?_ ?_⟩
      · have kept : endFree (linkFree step more (index + step) linked) index = linked index := by
          rw [endFree, Function.update_of_ne (by omega), link_free_below _ _ _ _ _ (by omega)]
        simp only [linksFrom]
        rw [kept, ← once, Function.update_self]
      · intro x _
        rfl

theorem initialized_layout (attr : MymqAttr) (maxmsg : 0 < attr.mqMaxmsg)
    (msgsize : 0 < attr.mqMsgsize) (most : attr.mqMsgsize ≤ longMax) :
    Layout (initialized attr) [] (slots attr) := by
  have chain := link_free_chain (stride attr) (attr.mqMaxmsg.toNat - 1) sizeofMymqHdr
    initialHdrs (by decide) (stride_pos attr)
  rw [Nat.sub_add_cancel (by omega)] at chain
  refine ⟨rfl, ?_, List.Perm.refl _, rfl, List.Pairwise.nil, by simp, maxmsg, msgsize, most⟩
  refine Chain.frame none _ rfl ?_ chain
  intro x _
  rfl

theorem msgsize_le_file_size (attr : MymqAttr) (maxmsg : 0 < attr.mqMaxmsg) :
    attr.mqMsgsize.toNat ≤ fileSize attr := by
  have fits := le_msg_size attr.mqMsgsize.toNat
  have one := Nat.mul_le_mul_right (stride attr) (show 1 ≤ attr.mqMaxmsg.toNat by omega)
  simp only [fileSize, stride] at one ⊢
  omega

theorem mymq_open_created (attr : Option MymqAttr) (file : MappedFile)
    (opened : mymqOpen attr = .created file) :
    file = initialized (attr.getD defattr) ∧ 0 < (attr.getD defattr).mqMaxmsg ∧
      0 < (attr.getD defattr).mqMsgsize ∧ (attr.getD defattr).mqMsgsize ≤ longMax := by
  cases attr with
  | none =>
      simp only [mymqOpen, Opened.created.injEq] at opened
      exact ⟨opened.symm, by decide, by decide, by decide⟩
  | some attr =>
      simp only [mymqOpen] at opened
      split at opened
      · cases opened
      · rename_i positive
        split at opened
        · cases opened
        · rename_i fits
          simp only [Opened.created.injEq] at opened
          have small := msgsize_le_file_size attr (by omega)
          simp only [Option.getD_some]
          exact ⟨opened.symm, by omega, by omega, by omega⟩

theorem mymq_open_layout (attr : Option MymqAttr) (file : MappedFile)
    (opened : mymqOpen attr = .created file) :
    Layout file [] (slots file.hdr.mqhAttr) := by
  obtain ⟨rfl, maxmsg, msgsize, most⟩ := mymq_open_created attr file opened
  exact initialized_layout _ maxmsg msgsize most

end NetworkProgramming.Mymq
