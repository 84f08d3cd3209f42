import NetworkProgramming.NetworkOrder
import NetworkProgramming.RecvCalls

/-!
readvrec and readn of Effective TCP/IP Programming. A size_t and a u_int32_t are a Nat, an
int is an Int, with the conversions where the code has them; recv fails with EINTR only.
-/

namespace NetworkProgramming.Readvrec

open NetworkOrder RecvCalls

/-- The value as an int, as a u_int32_t and as a size_t. -/
def int (n : Int) : Int := (n + 2 ^ 31) % 2 ^ 32 - 2 ^ 31
def u32 (n : Int) : Nat := (n % 2 ^ 32).toNat
def size (n : Int) : Nat := (n % 2 ^ 64).toNat

def readnLoop (network : Network) (len : Nat) (cnt : Int) (got : List UInt8) (fd : Socket) :
    Int × List UInt8 × Socket :=
  if cnt > 0 then
    match _returned : recv network cnt.toNat fd with
    | (none, fd') => readnLoop network len cnt got fd'
    | (some [], fd') => (int (len - cnt), got, fd')
    | (some (b :: bytes), fd') =>
        readnLoop network len (cnt - (b :: bytes).length) (got ++ b :: bytes) fd'
  else (int len, got, fd)
termination_by (cnt.toNat, fd.interrupts)
decreasing_by
  · exact Prod.Lex.right _ (recv_interrupted _returned).2
  · apply Prod.Lex.left
    simp only [List.length_cons]
    omega

def readn (network : Network) (len : Nat) (fd : Socket) : Int × List UInt8 × Socket :=
  readnLoop network len (int len) [] fd

inductive Errno where
  | EMSGSIZE
  deriving DecidableEq

structure Call where
  rc : Int
  errno : Option Errno
  bp : List UInt8
  deriving DecidableEq

/-- The loop that discards a record; `none` if it goes on after so many rounds. -/
def discard (network : Network) : Nat → Nat → Nat → List UInt8 → Socket → Option (Call × Socket)
  | 0, _, _, _, _ => none
  | rounds + 1, reclen, len, bp, fd =>
      if reclen > 0 then
        match readn network len fd with
        | (rc, bp, fd) =>
            if size rc ≠ len then some (⟨if rc < 0 then -1 else 0, none, bp⟩, fd)
            else
              let reclen := u32 (reclen - len)
              discard network rounds reclen (if reclen < len then reclen else len) bp fd
      else some (⟨-1, some .EMSGSIZE, bp⟩, fd)

def readvrec (network : Network) (len : Nat) (fd : Socket) : Option (Call × Socket) :=
  -- Retrieve the length of the record
  match readn network 4 fd with
  | (rc, reclen, fd) =>
      if size rc ≠ 4 then some (⟨if rc < 0 then -1 else 0, none, []⟩, fd)
      else
        let reclen := (ntohl reclen).toNat
        if reclen > len then discard network (reclen + 1) reclen len [] fd
        else
          -- Retrieve the record itself
          match readn network reclen fd with
          | (rc, bp, fd) =>
              if u32 rc ≠ reclen then some (⟨if rc < 0 then -1 else 0, none, bp⟩, fd)
              else some (⟨rc, none, bp⟩, fd)

def called (network : Network) (len : Nat) (fd : Socket) : Nat → Option Socket
  | 0 => some fd
  | k + 1 => (called network len fd k).bind fun fd => (readvrec network len fd).map (·.2)

def frame (record : List UInt8) : List UInt8 := htonl (UInt32.ofNat record.length) ++ record

/-! readn gets what it asks for, as far as the stream goes. -/

theorem int_small {n : Int} (low : -2 ^ 31 ≤ n) (high : n < 2 ^ 31) : int n = n := by
  rw [int]
  omega

theorem readn_loop_take (network : Network) (len : Nat) (cnt : Int) (got : List UInt8)
    (fd : Socket) : ∃ fd', readnLoop network len cnt got fd =
        (int (len - (cnt.toNat - fd.stream.length : Nat)), got ++ fd.stream.take cnt.toNat, fd') ∧
      fd'.stream = fd.stream.drop cnt.toNat := by
  -- one case for each thing that recv can do, and one for the end of the loop
  induction cnt, got, fd using readnLoop.induct network with
  | case1 cnt got fd more fd' called ih =>
      obtain ⟨last, ran, left⟩ := ih
      rw [(recv_interrupted called).1] at ran left
      refine ⟨last, ?_, left⟩
      rw [readnLoop, if_pos more]
      split <;> rename_i here <;> rw [called] at here <;> cases here
      exact ran
  | case2 cnt got fd more fd' called =>
      obtain ⟨done, left⟩ := recv_zero (by omega) called
      refine ⟨fd', ?_, by rw [left, done, List.drop_nil]⟩
      rw [readnLoop, if_pos more]
      split <;> rename_i here <;> rw [called] at here <;> cases here
      have all : (cnt.toNat : Int) = cnt := Int.toNat_of_nonneg (by omega)
      rw [done, List.length_nil, Nat.sub_zero, all, List.take_nil, List.append_nil]
  | case3 cnt got fd more b bytes fd' called ih =>
      obtain ⟨whole, within, -⟩ := recv_returned called
      obtain ⟨last, ran, left⟩ := ih
      have fewer : (cnt - (b :: bytes).length).toNat = cnt.toNat - (b :: bytes).length := by omega
      have length : fd.stream.length = (b :: bytes).length + fd'.stream.length := by
        rw [← whole, List.length_append]
      have short : cnt.toNat - (b :: bytes).length - fd'.stream.length =
          cnt.toNat - fd.stream.length := by omega
      rw [fewer] at ran left
      refine ⟨last, ?_, ?_⟩
      · rw [readnLoop, if_pos more]
        split <;> rename_i here <;> rw [called] at here <;> cases here
        rw [ran, short, ← whole, List.take_append, List.take_of_length_le within,
          List.append_assoc]
      · rw [left, ← whole, List.drop_append, List.drop_of_length_le within, List.nil_append]
  | case4 cnt got fd done =>
      refine ⟨fd, ?_, ?_⟩
      · rw [readnLoop, if_neg done, Int.toNat_of_nonpos (by omega)]
        simp
      · rw [Int.toNat_of_nonpos (by omega), List.drop_zero]

theorem readn_take (network : Network) (len : Nat) (fd : Socket) (small : len < 2 ^ 31) :
    ∃ fd', readn network len fd =
        (((min len fd.stream.length : Nat) : Int), fd.stream.take len, fd') ∧
      fd'.stream = fd.stream.drop len := by
  have same : int len = len := int_small (by omega) (by omega)
  obtain ⟨fd', ran, left⟩ := readn_loop_take network len len [] fd
  rw [Int.toNat_natCast] at ran left
  have count : (len : Int) - ((len - fd.stream.length : Nat) : Int) =
      ((min len fd.stream.length : Nat) : Int) := by omega
  refine ⟨fd', ?_, left⟩
  rw [readn, same, ran, count, int_small (by omega) (by omega), List.nil_append]

theorem readn_whole (network : Network) (data rest : List UInt8) (fd : Socket)
    (small : data.length < 2 ^ 31) (stream : fd.stream = data ++ rest) :
    ∃ fd', readn network data.length fd = ((data.length : Int), data, fd') ∧
      fd'.stream = rest := by
  obtain ⟨fd', ran, left⟩ := readn_take network data.length fd small
  have all : min data.length (data ++ rest).length = data.length := by
    rw [List.length_append]
    omega
  rw [stream, List.take_left, all] at ran
  rw [stream, List.drop_left] at left
  exact ⟨fd', ran, left⟩

theorem size_small {n : Nat} (small : n < 2 ^ 31) : size n = n ∧ u32 n = n := by
  rw [size, u32]
  omega

/-! One record. -/

/-- The discard loop takes off what is left of the record and no byte more: `len` is never
more than that, and not 0 before it is all. -/
theorem discard_takes (network : Network) (rounds len : Nat) (data rest bp : List UInt8)
    (fd : Socket) (part : data = [] ∨ 0 < len ∧ len ≤ data.length)
    (small : data.length < 2 ^ 31) (enough : data.length < rounds)
    (stream : fd.stream = data ++ rest) :
    ∃ stored fd', discard network rounds data.length len bp fd =
        some (⟨-1, some .EMSGSIZE, stored⟩, fd') ∧ fd'.stream = rest := by
  induction rounds generalizing len data bp fd with
  | zero => omega
  | succ rounds ih =>
      rw [discard]
      rcases part with rfl | ⟨some_, within⟩
      · exact ⟨bp, fd, by rw [if_neg (by simp)], stream⟩
      · have cut : (data.take len).length = len := by
          rw [List.length_take]
          omega
        have length : (data.drop len).length = data.length - len := List.length_drop
        have remaining : u32 ((data.length : Int) - len) = (data.drop len).length := by
          rw [u32, length]
          omega
        obtain ⟨middle, ran, left⟩ := readn_whole network (data.take len) (data.drop len ++ rest)
          fd (by omega) (by rw [stream, ← List.append_assoc, List.take_append_drop])
        rw [cut] at ran
        rw [if_pos (by omega)]
        simp only [ran, (size_small (by omega : len < 2 ^ 31)).1, ne_eq, not_true, ↓reduceIte,
          remaining]
        apply ih
        · by_cases nothing : data.drop len = []
          · exact Or.inl nothing
          · have positive := List.length_pos_iff.mpr nothing
            right
            split <;> omega
        · omega
        · omega
        · exact left

theorem frame_length (record : List UInt8) (short : record.length < 2 ^ 31) :
    (ntohl (htonl (UInt32.ofNat record.length))).toNat = record.length := by
  rw [ntohl_htonl, UInt32.toNat_ofNat']
  omega

theorem readvrec_record (network : Network) (len : Nat) (record rest : List UInt8) (fd : Socket)
    (some_ : 0 < len) (short : record.length < 2 ^ 31) (stream : fd.stream = frame record ++ rest) :
    ∃ call fd', readvrec network len fd = some (call, fd') ∧ fd'.stream = rest ∧
      (record.length ≤ len → call = ⟨record.length, none, record⟩) ∧
      (len < record.length → call.rc = -1 ∧ call.errno = some .EMSGSIZE) := by
  obtain ⟨middle, counted, left⟩ := readn_whole network (htonl (UInt32.ofNat record.length))
    (record ++ rest) fd (by rw [htonl_length]; decide)
    (by rw [stream, frame, List.append_assoc])
  rw [htonl_length] at counted
  have four : size ((4 : Nat) : Int) = 4 := by decide
  rw [readvrec]
  simp only [counted, four, ne_eq, not_true, ↓reduceIte, frame_length record short]
  by_cases large : record.length > len
  · obtain ⟨stored, fd', ran, rest_⟩ := discard_takes network (record.length + 1) len record rest
      [] middle (Or.inr ⟨some_, by omega⟩) short (by omega) left
    rw [if_pos large]
    exact ⟨_, fd', ran, rest_, fun fits => absurd fits (by omega), fun _ => ⟨rfl, rfl⟩⟩
  · obtain ⟨fd', ran, rest_⟩ := readn_whole network record rest middle short left
    rw [if_neg large]
    simp only [ran, (size_small short).2, not_true, ↓reduceIte]
    exact ⟨_, fd', rfl, rest_, fun _ => rfl, fun longer => absurd longer large⟩

theorem readvrec_end (network : Network) (len : Nat) (fd : Socket) (done : fd.stream = []) :
    ∃ fd', readvrec network len fd = some (⟨0, none, []⟩, fd') ∧ fd'.stream = [] := by
  obtain ⟨fd', counted, left⟩ := readn_take network 4 fd (by decide)
  rw [done] at counted left
  exact ⟨fd', by rw [readvrec, counted]; rfl, left⟩

/-! The records in turn. -/

theorem called_behind (network : Network) (len : Nat) (records : List (List UInt8)) (fd : Socket)
    (some_ : 0 < len) (short : ∀ record ∈ records, record.length ≤ 2 ^ 31 - 1)
    (stream : fd.stream = records.flatMap frame) (k : Nat) :
    ∃ before, called network len fd k = some before ∧
      before.stream = (records.drop k).flatMap frame := by
  induction k with
  | zero => exact ⟨fd, rfl, stream⟩
  | succ k ih =>
      obtain ⟨before, reached, left⟩ := ih
      rw [called, reached, Option.bind_some, List.drop_add_one_eq_tail_drop]
      cases behind : records.drop k with
      | nil =>
          rw [behind] at left
          obtain ⟨after, ran, done⟩ := readvrec_end network len before left
          exact ⟨after, by rw [ran]; rfl, done⟩
      | cons record others =>
          have member : record ∈ records :=
            List.mem_of_mem_drop (by rw [behind]; exact List.mem_cons_self)
          have most := short record member
          rw [behind, List.flatMap_cons] at left
          obtain ⟨call, after, ran, rest, -, -⟩ :=
            readvrec_record network len record _ before some_ (by omega) left
          exact ⟨after, by rw [ran]; rfl, rest⟩

theorem readvrec_in_turn (network : Network) (len : Nat) (records : List (List UInt8))
    (fd : Socket) (some_ : 0 < len) (short : ∀ record ∈ records, record.length ≤ 2 ^ 31 - 1)
    (stream : fd.stream = records.flatMap frame) (k : Nat) :
    ∃ before call after, called network len fd k = some before ∧
      readvrec network len before = some (call, after) ∧
      (∀ record, records[k]? = some record →
        after.stream = (records.drop (k + 1)).flatMap frame ∧
        (record.length ≤ len → call = ⟨record.length, none, record⟩) ∧
        (len < record.length → call.rc = -1 ∧ call.errno = some .EMSGSIZE)) ∧
      (call.rc = 0 ↔ before.stream = [] ∨ records[k]? = some []) := by
  obtain ⟨before, reached, left⟩ := called_behind network len records fd some_ short stream k
  have first : records[k]? = (records.drop k).head? := by rw [List.head?_drop]
  have others : records.drop (k + 1) = (records.drop k).tail := List.drop_add_one_eq_tail_drop
  rw [first, others]
  cases behind : records.drop k with
  | nil =>
      rw [behind] at left
      obtain ⟨after, ran, -⟩ := readvrec_end network len before left
      exact ⟨before, _, after, reached, ran, fun record none_ => (Option.some_ne_none record none_.symm).elim,
        iff_of_true rfl (Or.inl left)⟩
  | cons record later =>
      have member : record ∈ records :=
        List.mem_of_mem_drop (by rw [behind]; exact List.mem_cons_self)
      have most := short record member
      rw [behind, List.flatMap_cons] at left
      obtain ⟨call, after, ran, rest, fits, large⟩ :=
        readvrec_record network len record _ before some_ (by omega) left
      -- a frame begins with the four bytes of its length
      have goes : before.stream ≠ [] := by
        intro ended
        have four := congrArg List.length (left.symm.trans ended)
        simp only [frame, List.length_append, htonl_length, List.length_nil] at four
        omega
      have zero : call.rc = 0 ↔ record = [] := by
        rw [← List.length_eq_zero_iff]
        by_cases within : record.length ≤ len
        · rw [fits within]
          exact Int.natCast_eq_zero
        · rw [(large (by omega)).1]
          exact iff_of_false (by decide) (by omega)
      refine ⟨before, call, after, reached, ran, ?_, ?_⟩
      · rintro _ ⟨⟩
        exact ⟨rest, fits, large⟩
      · rw [zero, List.head?_cons, Option.some.injEq]
        exact (or_iff_right goes).symm

theorem second_record_discarded : ∃ before call after,
    called (fun n => ⟨n, n⟩) 2 ⟨[[], [7, 8, 9]].flatMap frame, 0, 1⟩ 1 = some before ∧
      readvrec (fun n => ⟨n, n⟩) 2 before = some (call, after) ∧ call.rc = -1 := by
  obtain ⟨before, call, after, reached, ran, record, -⟩ := readvrec_in_turn (fun n => ⟨n, n⟩) 2
    [[], [7, 8, 9]] ⟨[[], [7, 8, 9]].flatMap frame, 0, 1⟩ (by decide) (by decide) rfl 1
  exact ⟨before, call, after, reached, ran, ((record [7, 8, 9] rfl).2.2 (by decide)).1⟩

/-- For an empty record a call returns 0 though the stream goes on. -/
theorem empty_record_returns_zero : ∃ call after,
    readvrec (fun _ => ⟨0, 1⟩) 16 ⟨[[], [7]].flatMap frame, 0, 0⟩ = some (call, after) ∧
      ¬ (call.rc = 0 ↔ [[], [7]].flatMap frame = []) := by
  obtain ⟨call, after, ran, -, fits, -⟩ := readvrec_record (fun _ => ⟨0, 1⟩) 16 [] (frame [7])
    ⟨[[], [7]].flatMap frame, 0, 0⟩ (by decide) (by decide) rfl
  refine ⟨call, after, ran, ?_⟩
  rw [fits (by decide)]
  decide

end NetworkProgramming.Readvrec
