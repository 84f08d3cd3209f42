import NetworkProgramming.LinearBuffer
import NetworkProgramming.SurveyCommon

/-!
One client of chapter05/op_server.c. read on a socket is recv, the server stores integers with
the low byte first, and an int that overflows wraps. opinfo holds what it held before.
-/

namespace NetworkProgramming.OpServer

open LinearBuffer NetworkOrder
open SurveyCommon (Chunks Socket recv recv_length recv_split)

def BUF_SIZE : Nat := 1024
def OPSZ : Nat := 4

def operand (bytes : List UInt8) : Int32 := (UInt32.ofNat (value bytes.reverse)).toInt32

def calculate (opnum : Nat) (opnds : Nat → Int32) (op : UInt8) : Int32 :=
  let rest := (List.range' 1 (opnum - 1)).map opnds
  match op with
  | 43 => rest.foldl (· + ·) (opnds 0)
  | 45 => rest.foldl (· - ·) (opnds 0)
  | 42 => rest.foldl (· * ·) (opnds 0)
  | _ => opnds 0

inductive Received where
  | all (opinfo : Nat → UInt8) (recv_len : Nat)
  /-- A byte was stored behind opinfo. -/
  | outside

/-- The receive loop; `none` if it goes on after so many turns. -/
def receive (chunk : Chunks) (opnd_cnt : Nat) :
    Nat → Nat → (Nat → UInt8) → Socket → Option Received
  | 0, _, _, _ => none
  | turns + 1, recv_len, opinfo, clnt_sock =>
      if opnd_cnt * OPSZ + 1 > recv_len then
        match recv chunk (BUF_SIZE - 1) clnt_sock with
        | (bytes, clnt_sock) =>
            if recv_len + bytes.length ≤ BUF_SIZE then
              receive chunk opnd_cnt turns (recv_len + bytes.length) (store opinfo recv_len bytes)
                clnt_sock
            else some .outside
      else some (.all opinfo recv_len)

inductive Served where
  | result (n : Int32)
  | outside
  deriving DecidableEq

def serve (chunk : Chunks) (turns : Nat) (opinfo : Nat → UInt8) (sent : List UInt8) :
    Option Served :=
  match recv chunk 1 ⟨sent, 0⟩ with
  | (count, clnt_sock) =>
      let opnd_cnt := (count.head?.map UInt8.toNat).getD 0
      (receive chunk opnd_cnt turns 0 opinfo clnt_sock).map fun
        | .all opinfo recv_len => .result
            (calculate opnd_cnt (fun i => operand (load opinfo (OPSZ * i) OPSZ)) (opinfo (recv_len - 1)))
        | .outside => .outside

/-! What the client asks for. -/

def operands (count : Nat) (data : List UInt8) : List Int32 :=
  (List.range count).map fun i => operand ((data.drop (OPSZ * i)).take OPSZ)

def operator (count : Nat) (data : List UInt8) : UInt8 := data.getD (count * OPSZ) 0

def combine (op : UInt8) (a b : Int32) : Int32 :=
  match op with
  | 43 => a + b
  | 45 => a - b
  | 42 => a * b
  | _ => a

def fold (op : UInt8) : List Int32 → Option Int32
  | [] => none
  | first :: rest => some (rest.foldl (combine op) first)

def Whole (count : Nat) (data : List UInt8) : Prop := count * OPSZ + 1 ≤ data.length

instance (count : Nat) (data : List UInt8) : Decidable (Whole count data) :=
  inferInstanceAs (Decidable (count * OPSZ + 1 ≤ data.length))

/-- The loop ends, with all stores inside opinfo, and a whole request is answered. -/
def Answered (chunk : Chunks) (opinfo : Nat → UInt8) (count : UInt8) (data : List UInt8) : Prop :=
  ∃ turns n, serve chunk turns opinfo (count :: data) = some (.result n) ∧
    (Whole count.toNat data →
      fold (operator count.toNat data) (operands count.toNat data) = some n)

def arrived (chunk : Chunks) (size : Nat) : Nat → Nat
  | 0 => 0
  | k + 1 => arrived chunk size k +
      min (max 1 (chunk (k + 1))) (min (BUF_SIZE - 1) (size - arrived chunk size k))

/-! The receive loop. -/

theorem arrived_within (chunk : Chunks) (size k : Nat) : arrived chunk size k ≤ size := by
  induction k with
  | zero => exact Nat.zero_le _
  | succ k ih =>
      rw [arrived]
      omega

theorem arrived_le (chunk : Chunks) (size j k : Nat) :
    arrived chunk size j ≤ arrived chunk size (j + k) := by
  induction k with
  | zero => exact Nat.le_refl _
  | succ k ih => exact Nat.le_trans ih (Nat.le_add_right _ _)

theorem recv_arrived (chunk : Chunks) (data : List UInt8) (k : Nat) :
    ∃ bytes, recv chunk (BUF_SIZE - 1) ⟨data.drop (arrived chunk data.length k), k + 1⟩ =
        (bytes, ⟨data.drop (arrived chunk data.length (k + 1)), k + 2⟩) ∧
      arrived chunk data.length (k + 1) = arrived chunk data.length k + bytes.length ∧
      data.take (arrived chunk data.length (k + 1)) =
        data.take (arrived chunk data.length k) ++ bytes := by
  have within := arrived_within chunk data.length k
  rw [arrived]
  generalize arrived chunk data.length k = before at within ⊢
  have length : (data.drop before).length = data.length - before := List.length_drop
  refine ⟨(data.drop before).take
    (min (max 1 (chunk (k + 1))) (min (BUF_SIZE - 1) (data.length - before))), ?_, ?_, ?_⟩
  · simp only [recv, length, List.drop_drop]
  · rw [List.length_take, length]
    omega
  · rw [List.take_add]

structure Holds (chunk : Chunks) (data : List UInt8) (k : Nat) (opinfo : Nat → UInt8)
    (clnt_sock : Socket) : Prop where
  stored : load opinfo 0 (arrived chunk data.length k) = data.take (arrived chunk data.length k)
  left : clnt_sock = ⟨data.drop (arrived chunk data.length k), k + 1⟩

theorem receive_turn {chunk : Chunks} {data : List UInt8} {k : Nat} {opinfo : Nat → UInt8}
    {clnt_sock : Socket} (holds : Holds chunk data k opinfo clnt_sock) (opnd_cnt turns : Nat)
    (more : arrived chunk data.length k < opnd_cnt * OPSZ + 1) :
    ∃ opinfo' clnt_sock', Holds chunk data (k + 1) opinfo' clnt_sock' ∧
      receive chunk opnd_cnt (turns + 1) (arrived chunk data.length k) opinfo clnt_sock =
        if arrived chunk data.length (k + 1) ≤ BUF_SIZE then
          receive chunk opnd_cnt turns (arrived chunk data.length (k + 1)) opinfo' clnt_sock'
        else some .outside := by
  obtain ⟨stored, rfl⟩ := holds
  obtain ⟨bytes, got, count, taken⟩ := recv_arrived chunk data k
  have kept : Holds chunk data (k + 1) (store opinfo (arrived chunk data.length k) bytes)
      ⟨data.drop (arrived chunk data.length (k + 1)), k + 2⟩ := by
    refine ⟨?_, rfl⟩
    rw [taken, count, load_add, load_store_below _ _ _ _ _ (by omega), stored, Nat.zero_add,
      load_store]
  refine ⟨_, _, kept, ?_⟩
  rw [receive, if_pos more, got]
  simp only [count]

structure Completes (chunk : Chunks) (data : List UInt8) (opnd_cnt j k : Nat) : Prop where
  short : ∀ i, j ≤ i → i < k → arrived chunk data.length i < opnd_cnt * OPSZ + 1
  whole : opnd_cnt * OPSZ + 1 ≤ arrived chunk data.length k
  room : arrived chunk data.length k ≤ BUF_SIZE

theorem receive_completes {chunk : Chunks} {data : List UInt8} {opnd_cnt k : Nat} (turns : Nat)
    {j : Nat} {opinfo : Nat → UInt8} {clnt_sock : Socket} (holds : Holds chunk data j opinfo clnt_sock)
    (last : j + turns = k) (completes : Completes chunk data opnd_cnt j k) :
    ∃ opinfo' clnt_sock', Holds chunk data k opinfo' clnt_sock' ∧
      receive chunk opnd_cnt (turns + 1) (arrived chunk data.length j) opinfo clnt_sock =
        some (.all opinfo' (arrived chunk data.length k)) := by
  induction turns generalizing j opinfo clnt_sock with
  | zero =>
      obtain rfl : j = k := last
      refine ⟨opinfo, clnt_sock, holds, ?_⟩
      rw [receive, if_neg (Nat.not_lt.mpr completes.whole)]
  | succ turns ih =>
      obtain ⟨opinfo', clnt_sock', next, ran⟩ := receive_turn holds opnd_cnt (turns + 1)
        (completes.short j (Nat.le_refl j) (by omega))
      have within : arrived chunk data.length (j + 1) ≤ BUF_SIZE := by
        have grows := arrived_le chunk data.length (j + 1) turns
        rw [Nat.add_assoc, Nat.add_comm 1, last] at grows
        exact Nat.le_trans grows completes.room
      obtain ⟨opinfo'', clnt_sock'', done, all⟩ := ih next (by omega)
        ⟨fun i least => completes.short i (by omega), completes.whole, completes.room⟩
      exact ⟨opinfo'', clnt_sock'', done, by rw [ran, if_pos within, all]⟩

theorem receive_all {chunk : Chunks} {data : List UInt8} {opnd_cnt : Nat} (turns : Nat)
    {j recv_len : Nat} {opinfo opinfo' : Nat → UInt8} {clnt_sock : Socket}
    (holds : Holds chunk data j opinfo clnt_sock) (room : arrived chunk data.length j ≤ BUF_SIZE)
    (ran : receive chunk opnd_cnt turns (arrived chunk data.length j) opinfo clnt_sock =
      some (.all opinfo' recv_len)) :
    ∃ k clnt_sock', recv_len = arrived chunk data.length k ∧ Holds chunk data k opinfo' clnt_sock' ∧
      Completes chunk data opnd_cnt j k := by
  induction turns generalizing j opinfo clnt_sock with
  | zero => cases ran
  | succ turns ih =>
      by_cases more : arrived chunk data.length j < opnd_cnt * OPSZ + 1
      · obtain ⟨middle, between, next, turn⟩ := receive_turn holds opnd_cnt turns more
        rw [turn] at ran
        split at ran
        · rename_i within
          obtain ⟨k, clnt_sock', same, done, short, whole, fits⟩ := ih next within ran
          refine ⟨k, clnt_sock', same, done, ?_, whole, fits⟩
          intro i least before
          by_cases first : i = j
          · rw [first]
            exact more
          · exact short i (by omega) before
        · cases ran
      · rw [receive, if_neg more] at ran
        cases ran
        exact ⟨j, clnt_sock, rfl, holds, fun i least before => by omega, Nat.not_lt.mp more, room⟩

/-! The result. -/

theorem calculate_fold (opnum : Nat) (opnds : Nat → Int32) (op : UInt8) :
    calculate opnum opnds op = ((List.range' 1 (opnum - 1)).map opnds).foldl (combine op) (opnds 0) := by
  unfold calculate
  split
  · rfl
  · rfl
  · rfl
  · rename_i plus minus times
    have first : combine op = fun a _ => a := by
      funext a b
      unfold combine
      split <;> first | rfl | contradiction
    rw [first, List.foldl_const, Function.iterate_fixed rfl]

theorem operands_read {data : List UInt8} {opinfo : Nat → UInt8} {recv_len count : Nat}
    (stored : load opinfo 0 recv_len = data.take recv_len) (whole : count * OPSZ + 1 ≤ recv_len)
    (op : UInt8) (some_ : 0 < count) : fold op (operands count data) =
      some (calculate count (fun i => operand (load opinfo (OPSZ * i) OPSZ)) op) := by
  have four : OPSZ = 4 := rfl
  have read : operands count data =
      (List.range count).map fun i => operand (load opinfo (OPSZ * i) OPSZ) := by
    apply List.map_congr_left
    intro i member
    have below := List.mem_range.mp member
    have inside : OPSZ * i + OPSZ ≤ recv_len := by
      rw [four] at whole ⊢
      omega
    have part : load opinfo (OPSZ * i) OPSZ = (data.drop (OPSZ * i)).take OPSZ := by
      have behind := load_drop opinfo 0 recv_len (OPSZ * i) (by omega)
      have front := load_take opinfo (OPSZ * i) (recv_len - OPSZ * i) OPSZ (by omega)
      rw [Nat.zero_add, stored, List.drop_take] at behind
      rw [← front, ← behind, List.take_take, Nat.min_eq_left (by omega)]
    rw [part]
  obtain ⟨more, rfl⟩ : ∃ more, count = more + 1 := ⟨count - 1, by omega⟩
  rw [read, calculate_fold, List.range_eq_range', List.range'_succ, List.map_cons, fold]
  rfl

theorem serve_count (chunk : Chunks) (turns : Nat) (opinfo : Nat → UInt8) (count : UInt8)
    (data : List UInt8) : serve chunk turns opinfo (count :: data) =
      (receive chunk count.toNat turns 0 opinfo ⟨data, 1⟩).map fun
        | .all opinfo recv_len => .result
            (calculate count.toNat (fun i => operand (load opinfo (OPSZ * i) OPSZ))
              (opinfo (recv_len - 1)))
        | .outside => .outside := by
  have one : min (max 1 (chunk 0)) (min 1 (data.length + 1)) = 1 := by omega
  rw [serve]
  simp only [recv, List.length_cons, one]
  rfl

theorem holds_start (chunk : Chunks) (opinfo : Nat → UInt8) (data : List UInt8) :
    Holds chunk data 0 opinfo ⟨data, 1⟩ := ⟨rfl, rfl⟩

theorem last_byte {chunk : Chunks} {data : List UInt8} {opnd_cnt k : Nat} {opinfo : Nat → UInt8}
    {clnt_sock : Socket} (holds : Holds chunk data k opinfo clnt_sock)
    (completes : Completes chunk data opnd_cnt 0 k) :
    opinfo (arrived chunk data.length k - 1) = data.getD (arrived chunk data.length k - 1) 0 := by
  have whole := completes.whole
  have below : arrived chunk data.length k - 1 < arrived chunk data.length k := by omega
  have got := load_get opinfo 0 _ _ below
  rw [holds.stored, List.getElem?_take_of_lt below, Nat.zero_add] at got
  rw [List.getD_eq_getElem?_getD, got]
  rfl

/-- With at least one operand, and with what the last read has brought inside opinfo and
its last byte as good as the operator. -/
theorem answered_exact (chunk : Chunks) (opinfo : Nat → UInt8) (count : UInt8)
    (data : List UInt8) : Answered chunk opinfo count data ↔ 0 < count.toNat ∧
      ∃ k, Completes chunk data count.toNat 0 k ∧
        fold (data.getD (arrived chunk data.length k - 1) 0) (operands count.toNat data) =
          fold (operator count.toNat data) (operands count.toNat data) := by
  have start := holds_start chunk opinfo data
  constructor
  · rintro ⟨turns, n, served, result⟩
    rw [serve_count, Option.map_eq_some_iff] at served
    obtain ⟨received, ran, answer⟩ := served
    cases received with
    | outside => cases answer
    | all opinfo' recv_len =>
        obtain ⟨k, clnt_sock, rfl, holds, completes⟩ := receive_all turns start (Nat.zero_le _) ran
        have whole : Whole count.toNat data :=
          Nat.le_trans completes.whole (arrived_within chunk data.length k)
        have folded := result whole
        have some_ : 0 < count.toNat := by
          by_contra none_
          rw [Nat.eq_zero_of_not_pos none_] at folded
          cases folded
        refine ⟨some_, k, completes, ?_⟩
        rw [folded, ← last_byte holds completes,
          operands_read holds.stored completes.whole _ some_]
        exact congrArg some (Served.result.inj answer)
  · rintro ⟨some_, k, completes, same⟩
    obtain ⟨opinfo', clnt_sock, holds, ran⟩ := receive_completes k start (Nat.zero_add k) completes
    refine ⟨k + 1, _, by rw [serve_count]; exact congrArg (Option.map _) ran, fun _ => ?_⟩
    rw [← same, ← last_byte holds completes, operands_read holds.stored completes.whole _ some_]

theorem bytes_answered : Answered (fun _ => 1) (fun _ => 0) 2 [5, 0, 0, 0, 3, 0, 0, 0, 43] := by
  apply (answered_exact _ _ 2 _).mpr
  exact ⟨by decide, 9, ⟨by decide, by decide, by decide⟩, by decide⟩

theorem newline_taken : ∃ n,
    serve (fun _ => 10) 2 (fun _ => 0) [2, 5, 0, 0, 0, 3, 0, 0, 0, 43, 10] = some (.result n) ∧
      Whole 2 [5, 0, 0, 0, 3, 0, 0, 0, 43, 10] ∧
      fold (operator 2 [5, 0, 0, 0, 3, 0, 0, 0, 43, 10])
        (operands 2 [5, 0, 0, 0, 3, 0, 0, 0, 43, 10]) ≠ some n :=
  ⟨5, by decide, by decide, by decide⟩

end NetworkProgramming.OpServer
