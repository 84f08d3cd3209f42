import Mathlib.Tactic.Common
import NetworkProgramming.Framing
import NetworkProgramming.NetworkOrder

/-!
The blocks of fopnp-3/chapter05/blocks.py. The receiver asks again until it has a whole block, the
sender does not look at how much of a block it has sent.
-/

namespace NetworkProgramming.Blocks

open NetworkOrder Framing

/-! The sender. -/

def headerSize : Nat := 4

inductive Stop where
  /-- struct.error: the length does not fit into the header -/
  | pack
  /-- EOFError: the socket closed with so many bytes left in the block -/
  | eof (left : Nat)
  deriving DecidableEq

def pack (length : Nat) : Except Stop (List UInt8) :=
  if length < 2 ^ 32 then .ok (toBytes headerSize length) else .error .pack

def Takes (sent : Nat) (bytes : List UInt8) : Prop :=
  sent ≤ bytes.length ∧ (bytes ≠ [] → 0 < sent)

structure Put where
  message : List UInt8
  header : Nat
  block : Nat

def putBlock (put : Put) (stream : List UInt8) : Except Stop (Unit × List UInt8) :=
  (pack put.message.length).map fun header =>
    ((), stream ++ header.take put.header ++ put.message.take put.block)

/-! The receiver. -/

variable (chosen : Nat → Nat)

/-- At least one byte of what is left of the stream, if there is one, and at most `length`. How
many is chosen by how many are left, and no two calls that return any find as many left. -/
def recv (length : Nat) (stream : List UInt8) : List UInt8 × List UInt8 :=
  stream.splitAt (min length (chosen stream.length + 1))

theorem recv_length (length : Nat) (stream : List UInt8) :
    (recv chosen length stream).1.length =
      min (min length (chosen stream.length + 1)) stream.length := by
  rw [recv, List.splitAt_eq, List.length_take]

def recvall (length : Nat) (stream : List UInt8) : Except Stop (List UInt8 × List UInt8) :=
  if length = 0 then .ok ([], stream)
  else match recv chosen length stream with
    | ([], _) => .error (.eof length)
    | (b :: block, rest) =>
        (recvall (length - (b :: block).length) rest).map fun r => (b :: block ++ r.1, r.2)
termination_by length
decreasing_by
  rw [List.length_cons]
  omega

def getBlock (_ : Unit) (stream : List UInt8) : Except Stop (List UInt8 × List UInt8) :=
  match recvall chosen headerSize stream with
  | .error stop => .error stop
  | .ok (header, rest) => recvall chosen (value header) rest

theorem recvall_eq (length : Nat) (stream : List UInt8) : recvall chosen length stream =
    if length ≤ stream.length then .ok (stream.take length, stream.drop length)
    else .error (.eof (length - stream.length)) := by
  induction length using Nat.strongRecOn generalizing stream with
  | ind length ih =>
      unfold recvall
      by_cases zero : length = 0
      · simp [zero]
      · rw [if_neg zero, recv, List.splitAt_eq]
        obtain ⟨portion, same⟩ : ∃ portion, portion + 1 = min length (chosen stream.length + 1) :=
          ⟨min length (chosen stream.length + 1) - 1, by omega⟩
        rw [← same]
        have within : portion + 1 ≤ length := by omega
        cases stream with
        | nil => simp [zero]
        | cons b stream =>
            have got : min portion stream.length + 1 ≤ length := by omega
            rw [List.take_succ_cons, List.drop_succ_cons]
            dsimp only
            rw [List.length_cons, List.length_take, ih _ (by omega), List.length_drop,
              List.length_cons]
            rcases Nat.lt_or_ge stream.length portion with long | short
            · -- everything that was left has been returned, and it is not enough
              rw [Nat.min_eq_right (by omega), if_neg (by omega), if_neg (by omega)]
              have none_ : stream.length - portion = 0 := by omega
              rw [none_, Nat.sub_zero]
              rfl
            · obtain ⟨more, rfl⟩ : ∃ more, length = portion + 1 + more :=
                ⟨length - (portion + 1), by omega⟩
              rw [Nat.min_eq_left short, Nat.add_sub_cancel_left]
              -- the rest is asked for in the next turn
              by_cases enough : more ≤ stream.length - portion
              · have next : portion + 1 + more = portion + more + 1 := Nat.add_right_comm _ _ _
                rw [if_pos enough, if_pos (by omega), next, List.take_succ_cons,
                  List.drop_succ_cons, List.take_add]
                simp only [Except.map, List.drop_drop, List.cons_append]
              · rw [if_neg enough, if_neg (by omega)]
                have rest : portion + 1 + more - (stream.length + 1) =
                    more - (stream.length - portion) := by omega
                rw [rest]
                rfl

theorem recvall_prefix (block left : List UInt8) :
    recvall chosen block.length (block ++ left) = .ok (block, left) := by
  rw [recvall_eq, if_pos (by simp), List.take_left, List.drop_left]

theorem get_block_whole (stream message left : List UInt8)
    (got : getBlock chosen () stream = .ok (message, left)) :
    stream.length = headerSize + message.length + left.length := by
  rw [getBlock, recvall_eq] at got
  split at got
  · cases got
  · rename_i header rest read
    split at read
    · rename_i enough
      cases read
      rw [recvall_eq] at got
      split at got
      · rename_i enough'
        cases got
        rw [List.length_take_of_le enough', List.length_drop, List.length_drop]
        rw [List.length_drop] at enough'
        omega
      · cases got
    · cases read

theorem get_blocks_whole (count : Nat) (stream left : List UInt8) (messages : List (List UInt8))
    (got : inTurn (getBlock chosen) (List.replicate count ()) stream = .ok (messages, left)) :
    stream.length = (messages.map fun message => headerSize + message.length).sum + left.length := by
  induction count generalizing stream messages with
  | zero =>
      cases got
      simp
  | succ count ih =>
      rw [List.replicate_succ, inTurn] at got
      split at got
      · cases got
      · rename_i message rest one
        cases later : inTurn (getBlock chosen) (List.replicate count ()) rest with
        | error stop => simp [later, Except.map] at got
        | ok more =>
            rw [later] at got
            cases got
            have first := get_block_whole chosen stream message rest one
            have others := ih rest more.1 later
            rw [List.map_cons, List.sum_cons]
            omega

def frame (message : List UInt8) : List UInt8 := toBytes headerSize message.length ++ message

theorem get_block_frame (message left : List UInt8) (short : message.length < 2 ^ 32) :
    getBlock chosen () (frame message ++ left) = .ok (message, left) := by
  have size : (toBytes headerSize message.length).length = headerSize :=
    to_bytes_length headerSize message.length
  have header := recvall_prefix chosen (toBytes headerSize message.length) (message ++ left)
  rw [size] at header
  have length : value (toBytes headerSize message.length) = message.length := by
    rw [value_to_bytes]
    exact Nat.mod_eq_of_lt short
  rw [getBlock, frame, List.append_assoc, header]
  dsimp only
  rw [length, recvall_prefix]

/-! Both sides. -/

/-- The messages come out of the stream as they have been put into it, and after them a call
raises EOFError. -/
def Received (puts : List Put) (stream : List UInt8) : Prop :=
  ∃ left, inTurn (getBlock chosen) (List.replicate puts.length ()) stream =
      .ok (puts.map Put.message, left) ∧
    ∃ missing, getBlock chosen () left = .error (.eof missing)

def Put.sent (put : Put) : List UInt8 :=
  (toBytes headerSize put.message.length).take put.header ++ put.message.take put.block

theorem put_blocks (puts : List Put) (short : ∀ put ∈ puts, put.message.length < 2 ^ 32) :
    inTurn putBlock puts [] = .ok (puts.map fun _ => (), puts.flatMap Put.sent) := by
  have writes := in_turn_writes putBlock id Put.sent (fun _ => ()) puts [] fun put member before => by
    change putBlock put before = .ok ((), before ++ put.sent)
    rw [putBlock, pack, if_pos (short put member)]
    simp [Except.map, Put.sent]
  rw [List.map_id] at writes
  exact writes

def Put.Whole (put : Put) : Prop := put.header = headerSize ∧ put.block = put.message.length

theorem whole_sent (put : Put) (whole : put.Whole) : put.sent = frame put.message := by
  have size : (toBytes headerSize put.message.length).length = headerSize := to_bytes_length _ _
  rw [Put.sent, frame, whole.1, whole.2, List.take_length]
  nth_rewrite 1 [← size]
  rw [List.take_length]

theorem sent_length (put : Put) (header : put.header ≤ headerSize)
    (block : put.block ≤ put.message.length) : put.sent.length = put.header + put.block := by
  rw [Put.sent, List.length_append, List.length_take_of_le, List.length_take_of_le block]
  rw [to_bytes_length]
  exact header

theorem sent_whole (puts : List Put)
    (takes : ∀ put ∈ puts, put.header ≤ headerSize ∧ put.block ≤ put.message.length)
    (enough : (puts.map fun put => headerSize + put.message.length).sum ≤
      (puts.flatMap Put.sent).length) : ∀ put ∈ puts, put.Whole := by
  have below (puts : List Put)
      (takes : ∀ put ∈ puts, put.header ≤ headerSize ∧ put.block ≤ put.message.length) :
      (puts.flatMap Put.sent).length ≤ (puts.map fun put => headerSize + put.message.length).sum := by
    induction puts with
    | nil => exact Nat.le_refl 0
    | cons put puts ih =>
        obtain ⟨⟨header, block⟩, others⟩ := List.forall_mem_cons.mp takes
        have rest := ih others
        rw [List.flatMap_cons, List.length_append, sent_length put header block, List.map_cons,
          List.sum_cons]
        omega
  induction puts with
  | nil => exact List.forall_mem_nil _
  | cons put puts ih =>
      obtain ⟨⟨header, block⟩, others⟩ := List.forall_mem_cons.mp takes
      have rest := below puts others
      rw [List.flatMap_cons, List.length_append, sent_length put header block, List.map_cons,
        List.sum_cons] at enough
      -- what this block lacks the later ones cannot make up for
      refine List.forall_mem_cons.mpr ⟨⟨by omega, by omega⟩, ih others (by omega)⟩

/-- Exactly when the blocks come through, whatever each recv returns: every send takes all of the
bytes that it is given. -/
theorem blocks_received_iff (puts : List Put) (chosen : Nat → Nat)
    (short : ∀ put ∈ puts, put.message.length < 2 ^ 32)
    (takes : ∀ put ∈ puts, Takes put.header (toBytes headerSize put.message.length) ∧
      Takes put.block put.message) :
    ∃ stream, inTurn putBlock puts [] = .ok (puts.map fun _ => (), stream) ∧
      (Received chosen puts stream ↔ ∀ put ∈ puts, put.Whole) := by
  have within : ∀ put ∈ puts, put.header ≤ headerSize ∧ put.block ≤ put.message.length := by
    intro put member
    have header := (takes put member).1.1
    rw [to_bytes_length] at header
    exact ⟨header, (takes put member).2.1⟩
  refine ⟨_, put_blocks puts short, ?_, fun whole => ?_⟩
  · rintro ⟨left, got, -⟩
    have size := get_blocks_whole chosen _ _ _ _ got
    rw [List.map_map] at size
    exact sent_whole puts within (by rw [size]; exact Nat.le_add_right _ _)
  · have same : puts.flatMap Put.sent = puts.flatMap fun put => frame put.message :=
      List.flatMap_congr fun put member => whole_sent put (whole put member)
    have each : ∀ put ∈ puts, ∀ left,
        getBlock chosen () (frame put.message ++ left) = .ok (put.message, left) :=
      fun put member left => get_block_frame chosen put.message left (short put member)
    have reads := in_turn_reads (getBlock chosen) (fun _ : Put => ())
      (fun put => frame put.message) Put.message puts [] each
    rw [List.append_nil, ← same, List.map_const'] at reads
    exact ⟨[], reads, headerSize, by rw [getBlock, recvall_eq]; rfl⟩

def greeting : List Put := [⟨[104, 105], 4, 2⟩, ⟨[], 4, 0⟩]

theorem greeting_received : ∃ stream,
    inTurn putBlock greeting [] = .ok (greeting.map fun _ => (), stream) ∧
    Received (fun _ => 1) greeting stream := by
  have short : ∀ put ∈ greeting, put.message.length < 2 ^ 32 := by decide
  have takes : ∀ put ∈ greeting, Takes put.header (toBytes headerSize put.message.length) ∧
      Takes put.block put.message := by simp [greeting, Takes, headerSize]
  have whole : ∀ put ∈ greeting, put.Whole := by simp [greeting, Put.Whole, headerSize]
  obtain ⟨stream, put, received⟩ := blocks_received_iff greeting (fun _ => 1) short takes
  exact ⟨stream, put, received.mpr whole⟩

def half : List Put := [⟨[104, 105], 4, 1⟩]

theorem half_not_received : ∃ stream, inTurn putBlock half [] = .ok ([()], stream) ∧
    (∀ put ∈ half, put.message.length < 2 ^ 32 ∧
      Takes put.header (toBytes headerSize put.message.length) ∧ Takes put.block put.message) ∧
    ¬ Received (fun _ => 0) half stream := by
  refine ⟨_, put_blocks half (by decide), by simp [half, Takes, headerSize], ?_⟩
  rintro ⟨left, got, -⟩
  have size := get_blocks_whole _ _ _ _ _ got
  simp only [half, Put.sent, headerSize, List.flatMap_cons, List.flatMap_nil, List.length_append,
    List.length_take, to_bytes_length, List.map_cons, List.map_nil, List.sum_cons, List.sum_nil,
    List.length_cons, List.length_nil] at size
  omega

end NetworkProgramming.Blocks
