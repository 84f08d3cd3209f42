import NetworkProgramming.Readline

/-!
The four copies of readline. Those of lib and unpv13e/threads are `readline`;
readline_r and the one that reads a byte at a time, both in unpv13e/server, leave
their loop at end-of-file as they leave it at a newline, with `n` one more than what
they have stored. A copy that asks read for one byte does not go on after an
interrupted one.
-/

namespace NetworkProgramming.Readline

open CText

structure Source where
  read : Reader → Got × Reader
  consumes : ∀ r c r', read r = (.byte c, r') → r.stream = c :: r'.stream

/-- read for one byte: `lookAhead` is what is left of a segment in the socket. -/
def readByte : Reader → Got × Reader
  | ⟨c :: chunk, channel⟩ => (.byte c, ⟨chunk, channel⟩)
  | ⟨[], []⟩ => (.eof, ⟨[], []⟩)
  | ⟨[], .data first more :: rest⟩ => (.byte first, ⟨more, rest⟩)
  | ⟨[], .eintr :: rest⟩ => (.error, ⟨[], rest⟩)
  | ⟨[], .error :: rest⟩ => (.error, ⟨[], rest⟩)

theorem read_byte_byte (r : Reader) (c : UInt8) (r' : Reader) (got : readByte r = (.byte c, r')) :
    r.stream = c :: r'.stream := by
  obtain ⟨chunk, channel⟩ := r
  match chunk, channel with
  | first :: chunk, channel =>
      simp only [readByte, Prod.mk.injEq, Got.byte.injEq] at got
      obtain ⟨rfl, rfl⟩ := got
      rfl
  | [], [] => simp [readByte] at got
  | [], .data first more :: rest =>
      simp only [readByte, Prod.mk.injEq, Got.byte.injEq] at got
      obtain ⟨rfl, rfl⟩ := got
      rfl
  | [], .eintr :: rest => simp [readByte] at got
  | [], .error :: rest => simp [readByte] at got

def oneByte : Source := ⟨readByte, read_byte_byte⟩

def buffered : Source := ⟨myRead, fun r c r' => my_read_byte r r' c⟩

section Loop

variable {ν : Type} [DecidableEq ν] [OfNat ν 0] [OfNat ν 1] [Add ν]

def Source.loop (src : Source) (less : ν → Bool) (n : ν) (r : Reader) :
    Option (ν × List UInt8) × Reader :=
  if less n then
    match got : src.read r with
    | (.byte c, r') =>
        if c = newline then (some (n, [c]), r')
        else
          ((src.loop less (n + 1) r').1.map fun stored => (stored.1, c :: stored.2),
            (src.loop less (n + 1) r').2)
    | (.eof, r') => if n = 1 then (some (0, []), r') else (some (n, []), r')
    | (.error, r') => (none, r')
  else (some (n, []), r)
termination_by r.stream.length
decreasing_by all_goals rw [src.consumes r c r' got]; exact Nat.lt_succ_self _

end Loop

def readlineServer (maxlen : UInt64) (r : Reader) : Option (Nat × List UInt8) × Reader :=
  oneByte.loop (fun n => decide (n < maxlen.toNat)) 1 r

/-- The counter is an int, and compared as a size_t. -/
def readlineR (maxlen : UInt64) (r : Reader) : Option (Int32 × List UInt8) × Reader :=
  buffered.loop (fun n => decide (n.toInt64.toUInt64 < maxlen)) 1 r

inductive Variant where
  | lib
  | threads
  | reentrant
  | server
  deriving DecidableEq

/-- A return value and the bytes stored in front of the NUL; `none` for -1. -/
abbrev Answer := Option (Int × List UInt8)

def call (v : Variant) (maxlen : UInt64) (r : Reader) : Answer × Reader :=
  match v with
  | .lib | .threads =>
      ((readline maxlen.toNat r).1.map fun s => ((s.1 : Int), s.2), (readline maxlen.toNat r).2)
  | .reentrant => ((readlineR maxlen r).1.map fun s => (s.1.toInt, s.2), (readlineR maxlen r).2)
  | .server =>
      ((readlineServer maxlen r).1.map fun s => ((s.1 : Int), s.2), (readlineServer maxlen r).2)

def after (v : Variant) (maxlen : UInt64) (r : Reader) : Nat → Reader
  | 0 => r
  | k + 1 => (call v maxlen (after v maxlen r k)).2

def answer (v : Variant) (maxlen : UInt64) (r : Reader) (k : Nat) : Answer :=
  (call v maxlen (after v maxlen r k)).1

def rest (count : Nat) (stream : List UInt8) : Nat → List UInt8
  | 0 => stream
  | k + 1 => (getsLine count (rest count stream k)).2

def line (count : Nat) (stream : List UInt8) (k : Nat) : List UInt8 :=
  (getsLine count (rest count stream k)).1

/-- Every call of every copy stores the next line and returns its length, and 0 only at
the end of the stream. -/
def Agree (maxlen : UInt64) (channel : Channel) : Prop :=
  ∀ v k, answer v maxlen ⟨[], channel⟩ k =
      some (((line (maxlen.toNat - 1) (bytes channel) k).length : Int),
        line (maxlen.toNat - 1) (bytes channel) k) ∧
    ((line (maxlen.toNat - 1) (bytes channel) k).length = 0 →
      rest (maxlen.toNat - 1) (bytes channel) k = [])

inductive Lines (limit : Nat) : List UInt8 → Prop where
  | nil : Lines limit []
  | line (text stream : List UInt8) (inside : newline ∉ text) (short : text.length + 1 ≤ limit) :
      Lines limit stream → Lines limit (text ++ newline :: stream)

/-! Reads that are not interrupted. -/

def Clean (r : Reader) : Prop := ∀ read ∈ r.channel, read ≠ .eintr ∧ read ≠ .error

theorem read_byte_clean {r : Reader} (clean : Clean r) : readByte r = myRead r := by
  obtain ⟨chunk, channel⟩ := r
  match chunk, channel with
  | first :: chunk, channel => rfl
  | [], [] => rfl
  | [], .data first more :: rest => rfl
  | [], .eintr :: rest => exact absurd rfl (clean .eintr (by simp)).1
  | [], .error :: rest => exact absurd rfl (clean .error (by simp)).2

theorem my_read_clean {r : Reader} (clean : Clean r) {c : UInt8} {stream : List UInt8}
    (whole : r.stream = c :: stream) :
    ∃ r', myRead r = (.byte c, r') ∧ r'.stream = stream ∧ Clean r' := by
  obtain ⟨chunk, channel⟩ := r
  match chunk, channel with
  | first :: chunk, channel =>
      obtain ⟨rfl, rfl⟩ := List.cons.inj whole
      exact ⟨_, rfl, rfl, clean⟩
  | [], [] => cases whole
  | [], .data first more :: rest =>
      obtain ⟨rfl, rfl⟩ := List.cons.inj whole
      exact ⟨_, rfl, rfl, fun read member => clean read (List.mem_cons_of_mem _ member)⟩
  | [], .eintr :: rest => exact absurd rfl (clean .eintr (by simp)).1
  | [], .error :: rest => exact absurd rfl (clean .error (by simp)).2

theorem my_read_end {r : Reader} (clean : Clean r) (empty : r.stream = []) :
    myRead r = (.eof, ⟨[], []⟩) := by
  obtain ⟨chunk, channel⟩ := r
  match chunk, channel with
  | first :: chunk, channel => cases empty
  | [], [] => rfl
  | [], .data first more :: rest => cases empty
  | [], .eintr :: rest => exact absurd rfl (clean .eintr (by simp)).1
  | [], .error :: rest => exact absurd rfl (clean .error (by simp)).2

theorem loop_text {text stream : List UInt8} (inside : newline ∉ text) {left n : Nat}
    (rounds : text.length < left) {r : Reader} (clean : Clean r)
    (whole : r.stream = text ++ newline :: stream) :
    ∃ r', loop left n r = (some (n + text.length, text ++ [newline]), r') ∧
      r'.stream = stream ∧ Clean r' := by
  induction text generalizing left n r with
  | nil =>
      obtain ⟨left, rfl⟩ : ∃ more, left = more + 1 := ⟨left - 1, by simp at rounds; omega⟩
      obtain ⟨r', got, tail, still⟩ := my_read_clean clean whole
      refine ⟨r', ?_, tail, still⟩
      rw [loop, got]
      simp
  | cons c text ih =>
      simp only [List.mem_cons, not_or] at inside
      obtain ⟨left, rfl⟩ : ∃ more, left = more + 1 := ⟨left - 1, by omega⟩
      obtain ⟨next, got, tail, still⟩ := my_read_clean clean whole
      have fewer : text.length < left := by simpa using rounds
      obtain ⟨r', did, last, kept⟩ := ih (n := n + 1) inside.2 fewer still tail
      refine ⟨r', ?_, last, kept⟩
      rw [loop, got]
      simp only [if_neg (Ne.symm inside.1), did, Option.map_some, List.length_cons, List.cons_append]
      rw [Nat.add_assoc, Nat.add_comm 1]

section Loop

variable {ν : Type} [DecidableEq ν] [OfNat ν 0] [OfNat ν 1] [Add ν] (src : Source) (less : ν → Bool)

/-- A line by the loop of readline_r and of the copy in server: `count` is what the counter goes
through. -/
theorem source_text (count : Nat → ν) (k : Nat) (same : ∀ r, Clean r → src.read r = myRead r)
    (counts : ∀ j, count (j + 1) = count j + 1) {text stream : List UInt8}
    (inside : newline ∉ text) (goes : ∀ j ≤ k + text.length, less (count j) = true)
    {r : Reader} (clean : Clean r) (whole : r.stream = text ++ newline :: stream) :
    ∃ r', src.loop less (count k) r = (some (count (k + text.length), text ++ [newline]), r') ∧
      r'.stream = stream ∧ Clean r' := by
  -- over the bytes in front of the newline; none of them ends the loop
  induction text generalizing k r with
  | nil =>
      obtain ⟨r', got, tail, still⟩ := my_read_clean clean whole
      refine ⟨r', ?_, tail, still⟩
      rw [Source.loop, if_pos (goes k (Nat.le_add_right _ _))]
      split
      · rename_i c next here
        rw [same r clean, got] at here
        cases here
        simp
      · rename_i next here
        rw [same r clean, got] at here
        cases here
      · rename_i next here
        rw [same r clean, got] at here
        cases here
  | cons c text ih =>
      simp only [List.mem_cons, not_or] at inside
      obtain ⟨next, got, tail, still⟩ := my_read_clean clean whole
      obtain ⟨r', did, last, kept⟩ := ih (k + 1) inside.2
        (fun j most => goes j (by simp only [List.length_cons]; omega)) still tail
      refine ⟨r', ?_, last, kept⟩
      rw [Source.loop, if_pos (goes k (Nat.le_add_right _ _))]
      split
      · rename_i d after here
        rw [same r clean, got] at here
        cases here
        rw [if_neg (Ne.symm inside.1), ← counts, did]
        simp only [Option.map_some, List.length_cons, List.cons_append]
        rw [Nat.add_assoc, Nat.add_comm 1]
      · rename_i after here
        rw [same r clean, got] at here
        cases here
      · rename_i after here
        rw [same r clean, got] at here
        cases here

theorem source_end (same : ∀ r, Clean r → src.read r = myRead r) (begins : less 1 = true)
    {r : Reader} (clean : Clean r) (empty : r.stream = []) :
    src.loop less 1 r = (some (0, []), ⟨[], []⟩) := by
  have got := my_read_end clean empty
  rw [Source.loop, if_pos begins]
  split
  · rename_i c next here
    rw [same r clean, got] at here
    cases here
  · rename_i next here
    rw [same r clean, got] at here
    cases here
    rw [if_pos rfl]
  · rename_i next here
    rw [same r clean, got] at here
    cases here

end Loop

theorem int_counts {n : Nat} (small : n < 2 ^ 31) : (Int32.ofNat n).toInt64.toUInt64.toNat = n := by
  have value : (Int32.ofNat n).toInt64.toInt = n := by
    rw [Int32.toInt_toInt64, Int32.toInt_ofNat_of_lt small]
  have bits : (Int32.ofNat n).toInt64.toUInt64.toNat = (Int32.ofNat n).toInt64.toBitVec.toNat := rfl
  have signed : (Int32.ofNat n).toInt64.toInt = (Int32.ofNat n).toInt64.toBitVec.toInt := rfl
  rw [signed, BitVec.toInt_eq_toNat_cond] at value
  rw [bits]
  split at value <;> omega

theorem line_call (v : Variant) {maxlen : UInt64} {r : Reader} (clean : Clean r)
    {text stream : List UInt8} (inside : newline ∉ text) (short : text.length + 1 < maxlen.toNat)
    (counted : text.length + 1 < 2 ^ 31) (whole : r.stream = text ++ newline :: stream) :
    ∃ r', call v maxlen r = (some (((text ++ [newline]).length : Int), text ++ [newline]), r') ∧
      r'.stream = stream ∧ Clean r' := by
  have buffering : ∃ r', readline maxlen.toNat r =
      (some (1 + text.length, text ++ [newline]), r') ∧ r'.stream = stream ∧ Clean r' :=
    loop_text inside (by omega) clean whole
  have length : ((text ++ [newline]).length : Int) = ((1 + text.length : Nat) : Int) := by
    simp [Nat.add_comm]
  rw [length]
  cases v with
  | lib | threads =>
      obtain ⟨r', did, tail, still⟩ := buffering
      exact ⟨r', by simp [call, did], tail, still⟩
  | reentrant =>
      obtain ⟨r', did, tail, still⟩ := source_text buffered
        (fun n : Int32 => decide (n.toInt64.toUInt64 < maxlen)) Int32.ofNat 1 (fun _ _ => rfl)
        (fun j => Int32.ofNat_add j 1) inside
        (fun j most => by
          rw [decide_eq_true_eq, UInt64.lt_iff_toNat_lt, int_counts (by omega)]
          omega) clean whole
      have value : (Int32.ofNat (1 + text.length)).toInt = ((1 + text.length : Nat) : Int) :=
        Int32.toInt_ofNat_of_lt (by omega)
      refine ⟨r', ?_, tail, still⟩
      change ((readlineR maxlen r).1.map _, (readlineR maxlen r).2) = _
      have done : readlineR maxlen r = _ := did
      rw [done, Option.map_some, value]
  | server =>
      obtain ⟨r', did, tail, still⟩ := source_text oneByte
        (fun n : Nat => decide (n < maxlen.toNat)) id 1 (fun _ => read_byte_clean)
        (fun _ => rfl) inside
        (fun j most => by rw [decide_eq_true_eq]; simp only [id]; omega) clean whole
      have done : readlineServer maxlen r = _ := did
      exact ⟨r', by simp [call, done], tail, still⟩

theorem end_call {v : Variant} {maxlen : UInt64} (two : 2 ≤ maxlen.toNat) {r : Reader}
    (clean : Clean r) (empty : r.stream = []) :
    call v maxlen r = (some (0, []), ⟨[], []⟩) := by
  have buffering : readline maxlen.toNat r = (some (0, []), ⟨[], []⟩) := by
    obtain ⟨left, more⟩ : ∃ left, maxlen.toNat - 1 = left + 1 := ⟨maxlen.toNat - 2, by omega⟩
    rw [readline, more, loop, my_read_end clean empty]
  cases v with
  | lib | threads => simp [call, buffering]
  | reentrant =>
      have done : readlineR maxlen r = (some (0, []), ⟨[], []⟩) :=
        source_end buffered _ (fun _ _ => rfl)
          (by rw [decide_eq_true_eq, UInt64.lt_iff_toNat_lt]; exact two) clean empty
      simp [call, done]
  | server =>
      have done : readlineServer maxlen r = (some (0, []), ⟨[], []⟩) :=
        source_end oneByte _ (fun _ => read_byte_clean) (by rw [decide_eq_true_eq]; omega)
          clean empty
      simp [call, done]

/-! Lines of a stream. -/

theorem gets_line_ended {count : Nat} {stream : List UInt8}
    (ended : (getsLine count stream).1.getLast? = some newline) :
    ∃ text, (getsLine count stream).1 = text ++ [newline] ∧ newline ∉ text ∧
      text.length + 1 ≤ count := by
  induction count generalizing stream with
  | zero => cases ended
  | succ count ih =>
      cases stream with
      | nil => cases ended
      | cons c stream =>
          rw [getsLine] at ended ⊢
          split at ended
          · rename_i last
            subst last
            exact ⟨[], by simp, by simp, by simp⟩
          · rename_i other
            rw [if_neg other]
            have tail : (getsLine count stream).1.getLast? = some newline := by
              cases found : (getsLine count stream).1 with
              | nil =>
                  simp only [found, List.getLast?_singleton, Option.some.injEq] at ended
                  exact absurd ended other
              | cons d more => simpa [found, List.getLast?_cons_cons] using ended
            obtain ⟨text, whole, inside, short⟩ := ih tail
            refine ⟨c :: text, by simp [whole], ?_, by simpa using short⟩
            simp only [List.mem_cons, not_or]
            exact ⟨Ne.symm other, inside⟩

theorem rest_succ (count : Nat) (stream : List UInt8) (k : Nat) :
    rest count stream (k + 1) = rest count (getsLine count stream).2 k := by
  induction k with
  | zero => rfl
  | succ k ih => rw [rest, ih, rest]

theorem line_succ (count : Nat) (stream : List UInt8) (k : Nat) :
    line count stream (k + 1) = line count (getsLine count stream).2 k := by
  rw [line, rest_succ, line]

theorem lines_of_each {count limit : Nat} (positive : 0 < count) {stream : List UInt8}
    (each : ∀ k, line count stream k = [] ∨
      (line count stream k).getLast? = some newline ∧ (line count stream k).length ≤ limit) :
    Lines limit stream := by
  induction size : stream.length using Nat.strongRecOn generalizing stream with
  | ind size ih =>
      cases stream with
      | nil => exact .nil
      | cons c tail =>
          obtain ⟨more, rfl⟩ : ∃ more, count = more + 1 := ⟨count - 1, by omega⟩
          have head : line (more + 1) (c :: tail) 0 = (getsLine (more + 1) (c :: tail)).1 := rfl
          rcases each 0 with empty | ⟨ended, counted⟩
          · exact absurd empty (gets_line_cons more c tail)
          · rw [head] at ended counted
            obtain ⟨text, first, inside, -⟩ := gets_line_ended ended
            have whole := gets_line_append (more + 1) (c :: tail)
            obtain ⟨later, follows⟩ : ∃ later, (getsLine (more + 1) (c :: tail)).2 = later := ⟨_, rfl⟩
            rw [first, follows, List.append_assoc, List.singleton_append] at whole
            have shorter := congrArg List.length whole
            simp only [List.length_append, List.length_cons] at shorter
            rw [← whole]
            refine .line text later inside (by simpa [first] using counted) (ih _ ?_ ?_ rfl)
            · rw [← size, List.length_cons]
              omega
            · intro k
              have next := each (k + 1)
              rwa [line_succ, follows] at next

/-! The copy that asks for one byte at a time. -/

theorem read_byte_eof {r r' : Reader} (got : readByte r = (.eof, r')) :
    r = ⟨[], []⟩ ∧ r' = ⟨[], []⟩ := by
  obtain ⟨chunk, channel⟩ := r
  match chunk, channel with
  | first :: chunk, channel => simp [readByte] at got
  | [], [] => exact ⟨rfl, (Prod.mk.inj got).2.symm⟩
  | [], .data first more :: rest => simp [readByte] at got
  | [], .eintr :: rest => simp [readByte] at got
  | [], .error :: rest => simp [readByte] at got

theorem read_byte_interrupt {r r' : Reader} {c : UInt8} (got : readByte r = (.byte c, r'))
    (interrupt : Read.eintr ∈ r.channel) : Read.eintr ∈ r'.channel := by
  obtain ⟨chunk, channel⟩ := r
  match chunk, channel with
  | first :: chunk, channel =>
      simp only [readByte, Prod.mk.injEq] at got
      rw [← got.2]
      exact interrupt
  | [], [] => simp [readByte] at got
  | [], .data first more :: rest =>
      simp only [readByte, Prod.mk.injEq] at got
      rw [← got.2]
      simpa using interrupt
  | [], .eintr :: rest => simp [readByte] at got
  | [], .error :: rest => simp [readByte] at got

/-- What a call does that does not fail: an interrupt is still to come, and the count is
one too many unless the line has its newline or nothing is left. -/
structure Served (n : Nat) (r : Reader) (v : Nat) (stored : List UInt8) (r' : Reader) : Prop where
  stream : stored ++ r'.stream = r.stream
  interrupt : Read.eintr ∈ r.channel → Read.eintr ∈ r'.channel
  count : stored.getLast? = some newline ∨ n = 1 ∧ stored = [] ∨ v = n + stored.length

theorem served {maxlen n : Nat} (positive : 1 ≤ n) {r r' : Reader} {v : Nat} {stored : List UInt8}
    (done : oneByte.loop (fun n : Nat => decide (n < maxlen)) n r = (some (v, stored), r')) :
    Served n r v stored r' := by
  -- every byte read shortens the stream
  induction size : r.stream.length using Nat.strongRecOn generalizing n r r' v stored with
  | ind size ih =>
      rw [Source.loop] at done
      split at done
      · split at done
        · rename_i c next got
          have first := read_byte_byte r c next got
          split at done
          · rename_i last
            cases done
            exact ⟨first.symm, read_byte_interrupt got, by simp [last]⟩
          · simp only [Prod.mk.injEq, Option.map_eq_some_iff] at done
            obtain ⟨⟨⟨w, tail⟩, did, values⟩, rfl⟩ := done
            obtain ⟨rfl, rfl⟩ := values
            have later := ih next.stream.length (by rw [← size, first]; exact Nat.lt_succ_self _)
              (Nat.le_succ_of_le positive) (Prod.ext did rfl) rfl
            refine ⟨by rw [first, ← later.stream]; rfl,
              fun interrupt => later.interrupt (read_byte_interrupt got interrupt), ?_⟩
            rcases later.count with ended | ⟨one, -⟩ | counted
            · refine Or.inl ?_
              cases tail with
              | nil => cases ended
              | cons d more => simpa [List.getLast?_cons_cons] using ended
            · omega
            · refine Or.inr (Or.inr ?_)
              have one_more : w = n + 1 + tail.length := counted
              change w = n + (c :: tail).length
              rw [List.length_cons]
              omega
        · rename_i next got
          obtain ⟨rfl, rfl⟩ := read_byte_eof got
          split at done
          · rename_i one
            cases done
            exact ⟨rfl, id, Or.inr (Or.inl ⟨one, rfl⟩)⟩
          · cases done
            exact ⟨rfl, id, Or.inr (Or.inr rfl)⟩
        · cases done
      · cases done
        exact ⟨rfl, id, Or.inr (Or.inr rfl)⟩

/-! Agreement. -/

theorem lines_next {v : Variant} {maxlen : UInt64} (two : 2 ≤ maxlen.toNat) {r : Reader}
    (clean : Clean r) (lines : Lines (min (maxlen.toNat - 1) (2 ^ 31 - 1)) r.stream) :
    ∃ r', call v maxlen r = (some (((getsLine (maxlen.toNat - 1) r.stream).1.length : Int),
        (getsLine (maxlen.toNat - 1) r.stream).1), r') ∧
      r'.stream = (getsLine (maxlen.toNat - 1) r.stream).2 ∧ Clean r' ∧
      Lines (min (maxlen.toNat - 1) (2 ^ 31 - 1)) r'.stream := by
  generalize whole : r.stream = stream at lines
  cases lines with
  | nil =>
      have empty : getsLine (maxlen.toNat - 1) [] = ([], []) := by
        cases maxlen.toNat - 1 <;> rfl
      rw [empty, end_call two clean whole]
      exact ⟨_, rfl, rfl, by simp [Clean], .nil⟩
  | line text stream inside short later =>
      rw [gets_line_text inside (by omega)]
      have counted : text.length + 1 < 2 ^ 31 := by omega
      have fits : text.length + 1 < maxlen.toNat := by omega
      obtain ⟨r', did, tail, still⟩ := line_call v clean inside fits counted whole
      exact ⟨r', did, tail, still, tail ▸ later⟩

theorem lines_agree {maxlen : UInt64} (two : 2 ≤ maxlen.toNat) {channel : Channel}
    (clean : Clean ⟨[], channel⟩)
    (lines : Lines (min (maxlen.toNat - 1) (2 ^ 31 - 1)) (bytes channel)) : Agree maxlen channel := by
  intro v k
  have reached : (after v maxlen ⟨[], channel⟩ k).stream =
        rest (maxlen.toNat - 1) (bytes channel) k ∧ Clean (after v maxlen ⟨[], channel⟩ k) ∧
      Lines (min (maxlen.toNat - 1) (2 ^ 31 - 1)) (after v maxlen ⟨[], channel⟩ k).stream := by
    induction k with
    | zero => exact ⟨rfl, clean, lines⟩
    | succ k ih =>
        obtain ⟨place, still, whole⟩ := ih
        obtain ⟨r', did, tail, kept, more⟩ := lines_next (v := v) two still whole
        rw [after, did, rest, ← place]
        exact ⟨tail, kept, more⟩
  obtain ⟨place, still, whole⟩ := reached
  obtain ⟨r', did, -⟩ := lines_next (v := v) two still whole
  constructor
  · rw [answer, did, place]
    rfl
  · intro empty
    by_contra left_over
    obtain ⟨c, stream, starts⟩ := List.exists_cons_of_ne_nil left_over
    obtain ⟨count, enough⟩ : ∃ count, maxlen.toNat - 1 = count + 1 := ⟨maxlen.toNat - 2, by omega⟩
    rw [line, starts, enough] at empty
    exact gets_line_cons count c stream (List.length_eq_zero_iff.mp empty)

theorem agree_served {maxlen : UInt64} {channel : Channel} (agree : Agree maxlen channel) (k : Nat) :
    ∃ v, Served 1 (after .server maxlen ⟨[], channel⟩ k) v
        (line (maxlen.toNat - 1) (bytes channel) k) (after .server maxlen ⟨[], channel⟩ (k + 1)) ∧
      v = (line (maxlen.toNat - 1) (bytes channel) k).length := by
  have answered := (agree .server k).1
  simp only [answer, call, Option.map_eq_some_iff, Prod.mk.injEq] at answered
  obtain ⟨⟨v, stored⟩, did, value, same⟩ := answered
  dsimp only at value same
  subst same
  have done : readlineServer maxlen (after .server maxlen ⟨[], channel⟩ k) =
      (some (v, _), after .server maxlen ⟨[], channel⟩ (k + 1)) := Prod.ext did rfl
  exact ⟨v, served (le_refl 1) done, by exact_mod_cast value⟩

theorem agree_place {maxlen : UInt64} {channel : Channel} (agree : Agree maxlen channel) (k : Nat) :
    (after .server maxlen ⟨[], channel⟩ k).stream = rest (maxlen.toNat - 1) (bytes channel) k ∧
      (Read.eintr ∈ channel → Read.eintr ∈ (after .server maxlen ⟨[], channel⟩ k).channel) := by
  induction k with
  | zero => exact ⟨rfl, id⟩
  | succ k ih =>
      obtain ⟨place, waits⟩ := ih
      obtain ⟨v, did, -⟩ := agree_served agree k
      refine ⟨?_, fun interrupt => did.interrupt (waits interrupt)⟩
      have cut : line (maxlen.toNat - 1) (bytes channel) k ++
          rest (maxlen.toNat - 1) (bytes channel) (k + 1) =
          rest (maxlen.toNat - 1) (bytes channel) k := gets_line_append _ _
      exact List.append_cancel_left (did.stream.trans (place.trans cut.symm))

theorem rest_length {count : Nat} (positive : 0 < count) (stream : List UInt8) (k : Nat) :
    (rest count stream k).length ≤ stream.length - k := by
  induction k with
  | zero => exact le_refl _
  | succ k ih =>
      obtain ⟨more, rfl⟩ : ∃ more, count = more + 1 := ⟨count - 1, by omega⟩
      have whole := congrArg List.length (gets_line_append (more + 1) (rest (more + 1) stream k))
      rw [List.length_append] at whole
      rw [rest]
      cases before : rest (more + 1) stream k with
      | nil => exact Nat.zero_le _
      | cons c tail =>
          have some_byte := List.length_pos_iff.mpr (gets_line_cons more c tail)
          rw [before] at whole ih
          omega

theorem interrupted_end {maxlen : UInt64} (two : 2 ≤ maxlen.toNat) {r : Reader}
    (empty : r.stream = []) (interrupt : Read.eintr ∈ r.channel) :
    (call .server maxlen r).1 = none := by
  have failed : ∃ r', readByte r = (.error, r') := by
    obtain ⟨chunk, channel⟩ := r
    match chunk, channel with
    | first :: chunk, channel => cases empty
    | [], [] => cases interrupt
    | [], .data first more :: rest => cases empty
    | [], .eintr :: rest => exact ⟨_, rfl⟩
    | [], .error :: rest => exact ⟨_, rfl⟩
  obtain ⟨r', got⟩ := failed
  have done : readlineServer maxlen r = (none, r') := by
    rw [readlineServer, Source.loop, if_pos (by rw [decide_eq_true_eq]; omega)]
    split
    · rename_i c next here
      cases got.symm.trans here
    · rename_i next here
      cases got.symm.trans here
    · rename_i next here
      cases got.symm.trans here
      rfl
  simp [call, done]

theorem agree_uninterrupted {maxlen : UInt64} (two : 2 ≤ maxlen.toNat) {channel : Channel}
    (agree : Agree maxlen channel) : Read.eintr ∉ channel := by
  intro interrupt
  obtain ⟨place, waits⟩ := agree_place agree (bytes channel).length
  have short := rest_length (by omega : 0 < maxlen.toNat - 1) (bytes channel) (bytes channel).length
  have empty : rest (maxlen.toNat - 1) (bytes channel) (bytes channel).length = [] :=
    List.length_eq_zero_iff.mp (by omega)
  have failed := interrupted_end two (place.trans empty) (waits interrupt)
  have answered := (agree .server (bytes channel).length).1
  rw [answer, failed] at answered
  cases answered

theorem agree_lines {maxlen : UInt64} (two : 2 ≤ maxlen.toNat) {channel : Channel}
    (agree : Agree maxlen channel) :
    Lines (min (maxlen.toNat - 1) (2 ^ 31 - 1)) (bytes channel) := by
  apply lines_of_each (by omega : 0 < maxlen.toNat - 1)
  intro k
  obtain ⟨v, did, counted⟩ := agree_served agree k
  rcases did.count with ended | ⟨-, empty⟩ | more
  · refine Or.inr ⟨ended, ?_⟩
    obtain ⟨text, whole, -, short⟩ := gets_line_ended ended
    have cut : (line (maxlen.toNat - 1) (bytes channel) k).length ≤ maxlen.toNat - 1 := by
      rw [line, whole]
      simpa using short
    have small : ((line (maxlen.toNat - 1) (bytes channel) k).length : Int) < 2 ^ 31 := by
      have answered := (agree .reentrant k).1
      simp only [answer, call, Option.map_eq_some_iff, Prod.mk.injEq] at answered
      obtain ⟨⟨n, stored⟩, -, value, -⟩ := answered
      rw [← value]
      exact n.toInt_lt
    omega
  · exact Or.inl empty
  · omega

/-- The copies agree on a stream, however it comes in, exactly when no read of it is
interrupted and it is made of whole lines that leave room for the NUL and that an int
can count. -/
theorem readlines_agree_iff (maxlen : UInt64) (two : 2 ≤ maxlen) (channel : Channel)
    (works : Read.error ∉ channel) :
    Agree maxlen channel ↔ Read.eintr ∉ channel ∧
      Lines (min (maxlen.toNat - 1) (2 ^ 31 - 1)) (bytes channel) := by
  have two' : 2 ≤ maxlen.toNat := UInt64.le_iff_toNat_le.mp two
  constructor
  · exact fun agree => ⟨agree_uninterrupted two' agree, agree_lines two' agree⟩
  · rintro ⟨calm, lines⟩
    refine lines_agree two' ?_ lines
    intro read member
    exact ⟨fun interrupt => calm (interrupt ▸ member), fun failed => works (failed ▸ member)⟩

theorem agree_two_lines : Agree 4096 [.data 97 [10, 98], .data 10 []] :=
  (readlines_agree_iff 4096 (by decide) _ (by decide)).mpr
    ⟨by decide, .line [97] [98, 10] (by decide) (by decide)
      (.line [98] [] (by decide) (by decide) .nil)⟩

theorem readlines_differ : ¬ ∀ (maxlen : UInt64) (channel : Channel), 2 ≤ maxlen →
    Read.error ∉ channel → Agree maxlen channel := by
  intro always
  have agree := always 4096 [.data 97 []] (by decide) (by decide)
  have lines := agree_lines (by decide) agree
  generalize stream : bytes [Read.data 97 []] = s at lines
  cases lines with
  | nil => cases stream
  | line text tail inside short later =>
      match text with
      | [] => cases stream
      | c :: text => simp [bytes] at stream

end NetworkProgramming.Readline
