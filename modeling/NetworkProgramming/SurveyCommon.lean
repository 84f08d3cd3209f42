import NetworkProgramming.CText
import NetworkProgramming.NetworkOrder

/-!
SurveyCommon.cpp over CommunicatingSocket of PracticalSocket.cpp. The socket is
what has not been received of all that the peer sends before it closes; how many
bytes each recv returns is up to the network, and recv and send do not fail. A
recv that asks for no bytes returns at once, without any.
-/

namespace NetworkProgramming.SurveyCommon

open CText NetworkOrder

structure Socket where
  stream : List UInt8
  calls : Nat
  deriving DecidableEq

/-- How many bytes the calls of recv return, as far as they may. -/
abbrev Chunks := Nat → Nat

inductive Failure where
  | runtimeError (what : String)
  /-- A length from 2^31 on, which recvFully takes as an int. -/
  | negative
  deriving DecidableEq

/-- At least a byte, unless the stream is at its end or none is requested. -/
def recv (chunk : Chunks) (requested : Nat) (s : Socket) : List UInt8 × Socket :=
  let count := min (max 1 (chunk s.calls)) (min requested s.stream.length)
  (s.stream.take count, ⟨s.stream.drop count, s.calls + 1⟩)

/-- The loop of recvFully, whose turns each store at least a byte before the next. -/
def recvLoop (chunk : Chunks) (bufferLen : Nat) :
    Nat → Nat → Nat → List UInt8 → Socket → Nat × List UInt8 × Socket
  | 0, rcount, len, buffer, s => (rcount + len, buffer, s)
  | turns + 1, rcount, len, buffer, s =>
      if 0 < len ∧ rcount + len < bufferLen then
        let rcount := rcount + len
        let (bytes, s) := recv chunk (bufferLen - rcount) s
        recvLoop chunk bufferLen turns rcount bytes.length (buffer ++ bytes) s
      else (rcount + len, buffer, s)

def recvFully (chunk : Chunks) (bufferLen : Nat) (s : Socket) : Nat × List UInt8 × Socket :=
  let (bytes, s) := recv chunk bufferLen s
  recvLoop chunk bufferLen bufferLen 0 bytes.length bytes s

def sendInt (val : UInt32) (sent : List UInt8) : List UInt8 := sent ++ htonl val

def sendString (str sent : List UInt8) : List UInt8 :=
  sendInt (UInt32.ofNat str.length) sent ++ str

def recvInt (chunk : Chunks) (s : Socket) : Except Failure (UInt32 × Socket) :=
  let (count, val, s) := recvFully chunk 4 s
  if count ≠ 4 then .error (.runtimeError "Socket closed while reading int")
  else .ok (ntohl val, s)

def recvString (chunk : Chunks) (s : Socket) : Except Failure (List UInt8 × Socket) :=
  match recvInt chunk s with
  | .error failure => .error failure
  | .ok (len, s) =>
      if 2 ^ 31 ≤ len.toNat then .error .negative
      else
        let (count, buffer, s) := recvFully chunk len.toNat s
        if count ≠ len.toNat then
          .error (.runtimeError "Socket closed while reading string")
        -- Null terminate the received string.
        else .ok (cString (buffer ++ [0]), s)

def recvStrings (chunk : Chunks) : Nat → Socket → Except Failure (List (List UInt8) × Socket)
  | 0, s => .ok ([], s)
  | count + 1, s =>
      match recvString chunk s with
      | .error failure => .error failure
      | .ok (str, s) => (recvStrings chunk count s).map fun r => (str :: r.1, r.2)

def sent (strings : List (List UInt8)) : List UInt8 :=
  strings.foldl (fun before str => sendString str before) []

def frame (str : List UInt8) : List UInt8 := htonl (UInt32.ofNat str.length) ++ str

/-! recvFully gets all that it asks for, as far as the stream goes. -/

theorem recv_split (chunk : Chunks) (requested : Nat) (s : Socket) :
    (recv chunk requested s).1 ++ (recv chunk requested s).2.stream = s.stream :=
  List.take_append_drop _ _

theorem recv_length (chunk : Chunks) (requested : Nat) (s : Socket) :
    (recv chunk requested s).1.length ≤ requested ∧
      ((recv chunk requested s).1 = [] → requested = 0 ∨ s.stream = []) := by
  simp only [recv, List.length_take, List.take_eq_nil_iff]
  refine ⟨by omega, ?_⟩
  rintro (none_ | done)
  · rw [← List.length_eq_zero_iff]
    omega
  · exact Or.inr done

/-- What is in the buffer when the loop tests its condition. -/
structure Stored (bufferLen rcount len : Nat) (buffer : List UInt8) (s : Socket) : Prop where
  count : buffer.length = rcount + len
  within : rcount + len ≤ bufferLen
  ended : len = 0 → rcount + len = bufferLen ∨ s.stream = []

theorem Stored.ends {bufferLen rcount len : Nat} {buffer : List UInt8} {s : Socket}
    (stored : Stored bufferLen rcount len buffer s) (done : len = 0 ∨ bufferLen ≤ rcount + len) :
    buffer.length = bufferLen ∨ s.stream = [] := by
  obtain ⟨count, within, ended⟩ := stored
  rcases done with none_ | full
  · rcases ended none_ with full | done
    · exact Or.inl (by omega)
    · exact Or.inr done
  · exact Or.inl (by omega)

theorem recv_stored (chunk : Chunks) (bufferLen rcount : Nat) (buffer bytes : List UInt8)
    (s after : Socket) (count : buffer.length = rcount) (within : rcount ≤ bufferLen)
    (got : recv chunk (bufferLen - rcount) s = (bytes, after)) :
    Stored bufferLen rcount bytes.length (buffer ++ bytes) after ∧
      bytes ++ after.stream = s.stream := by
  have split := recv_split chunk (bufferLen - rcount) s
  obtain ⟨atMost, nothing⟩ := recv_length chunk (bufferLen - rcount) s
  rw [got] at split atMost nothing
  simp only at split atMost nothing
  refine ⟨⟨by rw [List.length_append, count], by omega, ?_⟩, split⟩
  intro none_
  rcases nothing (List.length_eq_zero_iff.mp none_) with full | done
  · exact Or.inl (by omega)
  · rw [done, List.append_eq_nil_iff] at split
    exact Or.inr split.2

theorem recv_loop_stored (chunk : Chunks) (bufferLen turns rcount len : Nat)
    (buffer : List UInt8) (s : Socket) (stored : Stored bufferLen rcount len buffer s)
    (enough : 0 < len → bufferLen ≤ turns + (rcount + len)) :
    ∃ bytes after, recvLoop chunk bufferLen turns rcount len buffer s =
        (bytes.length, bytes, after) ∧ bytes ++ after.stream = buffer ++ s.stream ∧
      bytes.length ≤ bufferLen ∧ (bytes.length = bufferLen ∨ after.stream = []) := by
  have count := stored.count
  have within := stored.within
  induction turns generalizing rcount len buffer s with
  | zero => exact ⟨buffer, s, by rw [recvLoop, count], rfl, by omega, stored.ends (by omega)⟩
  | succ turns ih =>
      rw [recvLoop]
      by_cases more : 0 < len ∧ rcount + len < bufferLen
      · rw [if_pos more]
        cases got : recv chunk (bufferLen - (rcount + len)) s with
        | mk bytes after =>
            obtain ⟨next, split⟩ :=
              recv_stored chunk bufferLen (rcount + len) buffer bytes s after count within got
            obtain ⟨all, last, ran, whole, rest⟩ :=
              ih _ _ _ _ next (by omega) next.count next.within
            refine ⟨all, last, ?_, by rw [whole, List.append_assoc, split], rest⟩
            simp only [got, ran]
      · rw [if_neg more]
        exact ⟨buffer, s, by rw [count], rfl, by omega, stored.ends (by omega)⟩

theorem recv_fully_take (chunk : Chunks) (bufferLen : Nat) (s : Socket) :
    ∃ calls, recvFully chunk bufferLen s = ((s.stream.take bufferLen).length,
      s.stream.take bufferLen, ⟨s.stream.drop bufferLen, calls⟩) := by
  rw [recvFully]
  cases got : recv chunk bufferLen s with
  | mk bytes after =>
      obtain ⟨first, split⟩ := recv_stored chunk bufferLen 0 [] bytes s after rfl (Nat.zero_le _) got
      obtain ⟨all, last, ran, whole, within, ended⟩ :=
        recv_loop_stored chunk bufferLen bufferLen 0 bytes.length bytes after first (by omega)
      obtain ⟨stream, calls⟩ := last
      rw [split] at whole
      simp only at whole ended
      have parts : s.stream.take bufferLen = all ∧ s.stream.drop bufferLen = stream := by
        rw [← whole]
        rcases ended with full | done
        · rw [← full]
          exact ⟨List.take_left, List.drop_left⟩
        · rw [done, List.append_nil]
          exact ⟨List.take_of_length_le within, List.drop_eq_nil_of_le within⟩
      exact ⟨calls, by simp only [ran, parts.1, parts.2]⟩

/-! The strings in turn. -/

theorem sent_frames (strings : List (List UInt8)) : sent strings = strings.flatMap frame := by
  have onto (before : List UInt8) : strings.foldl (fun before str => sendString str before) before =
      before ++ strings.flatMap frame := by
    induction strings generalizing before with
    | nil => simp
    | cons str strings ih =>
        rw [List.foldl_cons, ih, sendString, sendInt, List.flatMap_cons, frame]
        simp only [List.append_assoc]
  rw [sent, onto, List.nil_append]

theorem recv_int_whole (chunk : Chunks) (n : UInt32) (rest : List UInt8) (calls : Nat) :
    ∃ later, recvInt chunk ⟨htonl n ++ rest, calls⟩ = .ok (n, ⟨rest, later⟩) := by
  obtain ⟨later, read⟩ := recv_fully_take chunk 4 ⟨htonl n ++ rest, calls⟩
  have four := htonl_length n
  have parts : (htonl n ++ rest).take 4 = htonl n ∧ (htonl n ++ rest).drop 4 = rest :=
    ⟨List.take_left' four, List.drop_left' four⟩
  refine ⟨later, ?_⟩
  rw [recvInt, read]
  simp only [parts.1, parts.2, four, ne_eq, not_true, if_false, ntohl_htonl]

theorem recv_string_whole (chunk : Chunks) (str rest : List UInt8) (calls : Nat)
    (short : str.length < 2 ^ 31) :
    ∃ later, recvString chunk ⟨frame str ++ rest, calls⟩ = .ok (cString str, ⟨rest, later⟩) := by
  have length : (UInt32.ofNat str.length).toNat = str.length := by
    rw [UInt32.toNat_ofNat']
    omega
  obtain ⟨middle, counted⟩ := recv_int_whole chunk (UInt32.ofNat str.length) (str ++ rest) calls
  obtain ⟨later, read⟩ := recv_fully_take chunk str.length ⟨str ++ rest, middle⟩
  refine ⟨later, ?_⟩
  rw [frame, List.append_assoc, recvString, counted]
  simp only [length, read, List.take_left, List.drop_left, c_string_terminated, ne_eq, not_true,
    if_false]
  rw [if_neg (by omega)]

theorem recv_strings_whole (chunk : Chunks) (strings : List (List UInt8)) (rest : List UInt8)
    (calls : Nat) (short : ∀ str ∈ strings, str.length < 2 ^ 31) :
    ∃ later, recvStrings chunk strings.length ⟨sent strings ++ rest, calls⟩ =
      .ok (strings.map cString, ⟨rest, later⟩) := by
  rw [sent_frames]
  induction strings generalizing calls with
  | nil => exact ⟨calls, rfl⟩
  | cons str strings ih =>
      obtain ⟨middle, first⟩ := recv_string_whole chunk str (strings.flatMap frame ++ rest) calls
        (short str List.mem_cons_self)
      obtain ⟨later, others⟩ := ih middle fun other member =>
        short other (List.mem_cons_of_mem str member)
      refine ⟨later, ?_⟩
      rw [List.flatMap_cons, List.append_assoc, List.length_cons, recvStrings, first]
      simp only [others, Except.map, List.map_cons]

theorem recv_string_cut (chunk : Chunks) (str cut : List UInt8) (calls : Nat)
    (short : str.length < 2 ^ 31) (start : cut <+: frame str) (before : cut ≠ frame str) :
    ∃ what, recvString chunk ⟨cut, calls⟩ = .error (.runtimeError what) := by
  have length : (UInt32.ofNat str.length).toNat = str.length := by
    rw [UInt32.toNat_ofNat']
    omega
  have four := htonl_length (UInt32.ofNat str.length)
  obtain ⟨missing, whole⟩ := start
  have some_ : missing ≠ [] := by
    rintro rfl
    exact before (by rw [← whole, List.append_nil])
  have positive := List.length_pos_iff.mpr some_
  have size := congrArg List.length whole
  rw [frame, List.length_append, List.length_append, four] at size
  by_cases header : cut.length < 4
  · obtain ⟨later, read⟩ := recv_fully_take chunk 4 ⟨cut, calls⟩
    have few : (cut.take 4).length ≠ 4 := by
      rw [List.length_take]
      omega
    refine ⟨"Socket closed while reading int", ?_⟩
    rw [recvString, recvInt, read]
    simp only [ne_eq, few, not_false_eq_true, if_true]
  · -- the length is there, and less than that behind it
    obtain ⟨body, rfl⟩ : ∃ body, cut = htonl (UInt32.ofNat str.length) ++ body := by
      have front := congrArg (List.take 4) whole
      rw [frame, List.take_append_of_le_length (by omega), List.take_left' four] at front
      exact ⟨cut.drop 4, by rw [← front, List.take_append_drop]⟩
    rw [List.length_append, four] at size
    obtain ⟨middle, counted⟩ := recv_int_whole chunk (UInt32.ofNat str.length) body calls
    obtain ⟨later, read⟩ := recv_fully_take chunk str.length ⟨body, middle⟩
    have few : (body.take str.length).length ≠ str.length := by
      rw [List.length_take]
      omega
    refine ⟨"Socket closed while reading string", ?_⟩
    rw [recvString, counted]
    simp only [length, read, ne_eq, few, not_false_eq_true, if_true]
    rw [if_neg (by omega)]

def Transported (strings : List (List UInt8)) : Prop :=
  ∀ first others, strings = first ++ others → ∀ chunk rest calls, ∃ later,
    recvStrings chunk first.length ⟨sent strings ++ rest, calls⟩ =
      .ok (first, ⟨sent others ++ rest, later⟩)

/-- The call for the string in which the stream ends throws. -/
def CutReported (strings : List (List UInt8)) : Prop :=
  ∀ first str others, strings = first ++ str :: others → ∀ cut, cut <+: frame str →
    cut ≠ frame str → ∀ chunk calls, ∃ got later what,
      recvStrings chunk first.length ⟨sent first ++ cut, calls⟩ = .ok (got, ⟨cut, later⟩) ∧
      recvString chunk ⟨cut, later⟩ = .error (.runtimeError what)

theorem cut_reported (strings : List (List UInt8))
    (short : ∀ str ∈ strings, str.length < 2 ^ 31) : CutReported strings := by
  rintro first str others rfl cut start before chunk calls
  obtain ⟨later, read⟩ := recv_strings_whole chunk first cut calls fun s member =>
    short s (List.mem_append_left _ member)
  obtain ⟨what, thrown⟩ := recv_string_cut chunk str cut later (short str (by simp)) start before
  exact ⟨_, later, what, read, thrown⟩

theorem strings_transported_iff (strings : List (List UInt8))
    (short : ∀ str ∈ strings, str.length < 2 ^ 31) :
    Transported strings ∧ CutReported strings ↔ ∀ str ∈ strings, 0 ∉ str := by
  constructor
  · rintro ⟨transported, -⟩ str member
    obtain ⟨later, read⟩ := transported strings [] (List.append_nil _).symm (fun _ => 1) [] 0
    obtain ⟨last, whole⟩ := recv_strings_whole (fun _ => 1) strings [] 0 short
    have same : strings.map cString = strings :=
      congrArg Prod.fst (Except.ok.inj (whole.symm.trans read))
    have each := List.map_inj_left.mp (same.trans (List.map_id strings).symm)
    exact (c_string_iff str).mp (each str member)
  · intro free
    refine ⟨?_, cut_reported strings short⟩
    rintro first others rfl chunk rest calls
    have same : first.map cString = first.map id := List.map_inj_left.mpr fun str member =>
      c_string_whole str (free str (List.mem_append_left _ member))
    obtain ⟨later, read⟩ := recv_strings_whole chunk first (sent others ++ rest) calls
      fun s member => short s (List.mem_append_left _ member)
    refine ⟨later, ?_⟩
    have parts : sent (first ++ others) ++ rest = sent first ++ (sent others ++ rest) := by
      simp only [sent_frames, List.flatMap_append, List.append_assoc]
    rw [parts, read, same, List.map_id]

theorem three_strings_transported :
    Transported [[104, 105], [], [33]] ∧ CutReported [[104, 105], [], [33]] :=
  (strings_transported_iff [[104, 105], [], [33]] (by decide)).mpr (by decide)

theorem embedded_nul_cut :
    recvStrings (fun _ => 1) 1 ⟨sent [[65, 0, 66]], 0⟩ = .ok ([[65]], ⟨[], 7⟩) ∧
    ¬ Transported [[65, 0, 66]] := by
  refine ⟨by decide, fun transported => ?_⟩
  obtain ⟨later, read⟩ := transported [[65, 0, 66]] [] rfl (fun _ => 1) [] 0
  have cut : (recvStrings (fun _ => 1) 1 ⟨sent [[65, 0, 66]] ++ [], 0⟩).toOption.map Prod.fst =
      some [[65]] := by decide
  change recvStrings (fun _ => 1) 1 ⟨sent [[65, 0, 66]] ++ [], 0⟩ = _ at read
  rw [read] at cut
  cases cut

end NetworkProgramming.SurveyCommon
