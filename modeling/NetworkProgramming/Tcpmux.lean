import NetworkProgramming.CText
import NetworkProgramming.Delimited

/-!
parsetab of tcpmux, which is called once, with service_table as the program starts. The
configuration can be opened, and strdup does not run out of memory.
-/

namespace NetworkProgramming.Tcpmux

open CText Delimited

def MAXARGS : Nat := 10
def MAXLINE : Nat := 256
def NSERVTAB : Nat := 10

structure Servtab where
  flag : Bool
  service : Option (List UInt8)
  path : Option (List UInt8)
  args : List (Option (List UInt8))
  deriving DecidableEq

def Servtab.zero : Servtab := ⟨false, none, none, List.replicate (MAXARGS + 1) none⟩

abbrev Table := List Servtab

def serviceTable : Table := List.replicate (NSERVTAB + 1) .zero

/-- The calls of error, each of which exits. -/
inductive Stop where
  /-- "line %d is too long" -/
  | tooLong (lineno : Nat)
  /-- "too many entries in tcpmux.conf" -/
  | tooManyEntries
  /-- "line %d: white space after `+'" -/
  | whiteSpace (lineno : Nat)
  /-- "line %d: missing path name (%s)" -/
  | missingPath (lineno : Nat) (service : List UInt8)
  /-- "line %d: too many arguments (%s)" -/
  | tooManyArguments (lineno : Nat) (service : List UInt8)
  /-- None of them, but an access outside of an array. -/
  | outside
  deriving DecidableEq

def blank (b : UInt8) : Bool := decide (b = space ∨ b = 9 ∨ b = newline)

def plus : UInt8 := 43
def hash : UInt8 := 35

def Servtab.put (stp : Servtab) (i : Nat) (arg : Option (List UInt8)) : Except Stop Servtab :=
  if i < stp.args.length then .ok { stp with args := stp.args.set i arg } else .error .outside

def arguments : Nat → Nat → List UInt8 → Servtab → Except Stop (Nat × List UInt8 × Servtab)
  | 0, i, line, stp => .ok (i, line, stp)
  | left + 1, i, line, stp => match strtok blank line with
      | (none, line) => .ok (i, line, stp)
      | (some cp, line) => match stp.put i (some cp) with
          | .error stop => .error stop
          | .ok stp => arguments left (i + 1) line stp

def entry (lineno : Nat) (flag : Bool) (service line : List UInt8) (stp : Servtab) :
    Except Stop Servtab :=
  match strtok blank line with
  | (none, _) => .error (.missingPath lineno service)
  | (some path, line) =>
      match arguments MAXARGS 0 line { stp with flag, service := some service, path := some path } with
      | .error stop => .error stop
      | .ok (i, line, stp) =>
          if i ≥ MAXARGS ∧ (strtok blank line).1 ≠ none then
            .error (.tooManyArguments lineno service)
          else stp.put i none

def service (lineno : Nat) (cp line : List UInt8) (stp : Servtab) : Except Stop Servtab :=
  if cp.head? = some plus then
    if cp.tail = [] ∨ cp.tail.head?.any blank then .error (.whiteSpace lineno)
    else entry lineno true cp.tail line stp
  else entry lineno stp.flag cp line stp

def parseLine (lineno : Nat) (line : List UInt8) (stp : Nat) (table : Table) :
    Except Stop (Nat × Table) :=
  match (cString line).getLast? with
  | none => .error .outside
  | some last =>
      if last ≠ newline then .error (.tooLong lineno)
      else if stp ≥ NSERVTAB then .error .tooManyEntries
      else
        match strtok blank (((strchr hash line).map (·.1)).getD (cString line)) with
        | (none, _) => .ok (stp, table)
        | (some cp, line) => match table[stp]? with
            | none => .error .outside
            | some row =>
                (service lineno cp line row).map fun row => (stp + 1, table.set stp row)

def parseLines (lineno stp : Nat) (table : Table) (fp : List UInt8) : Except Stop Table :=
  match _got : fgets MAXLINE fp with
  | none => match table[stp]? with
      | none => .error .outside
      | some row => .ok (table.set stp { row with service := none })
  | some (line, fp) => match parseLine (lineno + 1) line stp table with
      | .error stop => .error stop
      | .ok (stp, table) => parseLines (lineno + 1) stp table fp
termination_by fp.length
decreasing_by exact (fgets_some 254 _ line fp _got).2.2

def parsetab (fp : List UInt8) : Except Stop Table := parseLines 0 0 serviceTable fp

/-! What a configuration file says. -/

def Word (word : List UInt8) : Prop :=
  word ≠ [] ∧ ∀ b ∈ word, blank b = false ∧ b ≠ hash ∧ b ≠ 0

structure Entry where
  flag : Bool
  service : List UInt8
  path : List UInt8
  args : List (List UInt8)
  formed : Word service ∧ Word path ∧ ∀ arg ∈ args, Word arg
  plain : flag = false → service.head? ≠ some plus
  few : args.length ≤ MAXARGS

def Entry.words (e : Entry) : List (List UInt8) :=
  (if e.flag then plus :: e.service else e.service) :: e.path :: e.args

/-- Blanks, at most one entry, and a comment, without the newline. -/
structure Line where
  entry : Option Entry
  body : List UInt8
  comment : List UInt8
  words : Words blank ((entry.map Entry.words).getD []) body
  free : newline ∉ body ++ comment
  commented : comment = [] ∨ comment.head? = some hash ∧ 0 ∉ comment
  short : body.length + comment.length < MAXLINE

def Line.text (line : Line) : List UInt8 := line.body ++ line.comment

def written (lines : List Line) (last : Option Line) : List UInt8 :=
  lines.flatMap (fun line => line.text ++ [newline]) ++ (last.map Line.text).getD []

def entries (lines : List Line) : List Entry := lines.filterMap Line.entry

def padded {α β : Type} (n : Nat) (zero : β) (f : α → β) (elements : List α) : List β :=
  elements.map f ++ List.replicate (n - elements.length) zero

def Entry.row (e : Entry) : Servtab :=
  ⟨e.flag, some e.service, some e.path, padded (MAXARGS + 1) none some e.args⟩

/-- The table of these entries, with a terminating entry behind them. -/
def tableOf (entries : List Entry) : Table := padded (NSERVTAB + 1) .zero Entry.row entries

section Padded

variable {α β : Type} {n : Nat} {zero : β} {f : α → β} {elements : List α}

theorem padded_length (few : elements.length ≤ n) : (padded n zero f elements).length = n := by
  rw [padded, List.length_append, List.length_map, List.length_replicate]
  omega

theorem padded_get (few : elements.length < n) :
    (padded n zero f elements)[elements.length]? = some zero := by
  rw [padded, List.getElem?_append_right (by rw [List.length_map]), List.length_map, Nat.sub_self,
    List.getElem?_replicate_of_lt (by omega)]

theorem padded_set (x : α) (few : elements.length < n) :
    (padded n zero f elements).set elements.length (f x) = padded n zero f (elements ++ [x]) := by
  obtain ⟨left, more⟩ : ∃ left, n - elements.length = left + 1 := ⟨n - elements.length - 1, by omega⟩
  have fewer : n - (elements ++ [x]).length = left := by
    rw [List.length_append, List.length_singleton]
    omega
  rw [padded, padded, fewer, more, List.set_append_right _ _ (by rw [List.length_map]),
    List.length_map, Nat.sub_self, List.replicate_succ, List.set_cons_zero, List.map_append,
    List.append_assoc]
  rfl

theorem padded_end (few : elements.length < n) :
    (padded n zero f elements).set elements.length zero = padded n zero f elements := by
  have first : (padded n zero f elements)[elements.length]? = some zero := padded_get few
  obtain ⟨inside, same⟩ := List.getElem?_eq_some_iff.mp first
  have kept := List.set_getElem_self inside
  rwa [same] at kept

end Padded

/-! One entry. -/

theorem arguments_read (args done : List (List UInt8)) (left : Nat) (line : List UInt8)
    (stp : Servtab) (found : Words blank args line) (few : args.length ≤ left)
    (rounds : done.length + left = MAXARGS)
    (stored : stp.args = padded (MAXARGS + 1) none some done) :
    ∃ rest, arguments left done.length line stp = .ok ((done ++ args).length, rest,
      { stp with args := padded (MAXARGS + 1) none some (done ++ args) }) ∧ Words blank [] rest := by
  induction args generalizing done left line stp with
  | nil =>
      have same : { stp with args := padded (MAXARGS + 1) none some done } = stp := by rw [← stored]
      rw [List.append_nil, same]
      cases left with
      | zero => exact ⟨line, rfl, found⟩
      | succ left =>
          refine ⟨[], ?_, .blank [] (List.forall_mem_nil _)⟩
          rw [arguments, strtok_blank found]
  | cons arg args ih =>
      rw [List.length_cons] at few
      obtain ⟨left, rfl⟩ : ∃ fewer, left = fewer + 1 := ⟨left - 1, by omega⟩
      obtain ⟨behind, token, words⟩ := strtok_word found
      have room : done.length < MAXARGS + 1 := by omega
      have put : stp.put done.length (some arg) =
          .ok { stp with args := padded (MAXARGS + 1) none some (done ++ [arg]) } := by
        rw [Servtab.put, stored, if_pos (by rw [padded_length (by omega)]; exact room),
          padded_set arg room]
      obtain ⟨rest, ran, blanks⟩ := ih (done ++ [arg]) left behind
        { stp with args := padded (MAXARGS + 1) none some (done ++ [arg]) } words (by omega)
        (by rw [List.length_append, List.length_singleton]; omega) rfl
      rw [List.append_assoc, List.singleton_append, List.length_append, List.length_singleton] at ran
      refine ⟨rest, ?_, blanks⟩
      rw [arguments, token]
      simp only [put, ran]

theorem entry_read (lineno : Nat) (flag : Bool) (service path : List UInt8)
    (args : List (List UInt8)) (line : List UInt8) (stp : Servtab)
    (found : Words blank (path :: args) line) (few : args.length ≤ MAXARGS)
    (empty : stp.args = padded (MAXARGS + 1) none some ([] : List (List UInt8))) :
    entry lineno flag service line stp =
      .ok ⟨flag, some service, some path, padded (MAXARGS + 1) none some args⟩ := by
  obtain ⟨behind, token, words⟩ := strtok_word found
  obtain ⟨rest, ran, blanks⟩ := arguments_read args [] MAXARGS behind
    { stp with flag, service := some service, path := some path } words few rfl empty
  rw [List.nil_append, List.length_nil] at ran
  have last : args.length < MAXARGS + 1 := Nat.lt_succ_of_le few
  rw [entry, token]
  simp only [ran, strtok_blank blanks, ne_eq, not_true, and_false, ↓reduceIte]
  rw [Servtab.put]
  simp only [padded_length (Nat.le_of_lt last), last, ↓reduceIte, padded_end last]

theorem service_read (lineno : Nat) (e : Entry) (cp line : List UInt8)
    (token : cp = if e.flag then plus :: e.service else e.service)
    (found : Words blank (e.path :: e.args) line) :
    service lineno cp line .zero = .ok e.row := by
  have read (flag : Bool) : entry lineno flag e.service line .zero =
      .ok ⟨flag, some e.service, some e.path, padded (MAXARGS + 1) none some e.args⟩ :=
    entry_read lineno flag e.service e.path e.args line .zero found e.few rfl
  obtain ⟨some_, bytes⟩ := e.formed.1
  rw [service, Entry.row]
  cases flag : e.flag with
  | true =>
      obtain ⟨c, more, same⟩ := List.exists_cons_of_ne_nil some_
      have visible : blank c = false := (bytes c (by rw [same]; exact List.mem_cons_self)).1
      obtain rfl : cp = plus :: e.service := by simpa [flag] using token
      rw [if_pos (by rw [List.head?_cons]), List.tail_cons, if_neg, read]
      rw [same]
      simp [visible]
  | false =>
      obtain rfl : cp = e.service := by simpa [flag] using token
      rw [if_neg (e.plain flag)]
      exact read false

/-! One line. -/

theorem body_bytes (line : Line) : ∀ b ∈ line.body, b ≠ hash ∧ b ≠ 0 := by
  intro b member
  have other : ¬ (blank hash = true ∨ blank 0 = true) := by decide
  rcases line.words.bytes b member with delimiter | ⟨word, found, inside⟩
  · constructor
    · rintro rfl
      exact other (Or.inl delimiter)
    · rintro rfl
      exact other (Or.inr delimiter)
  · cases some_ : line.entry with
    | none =>
        rw [some_] at found
        cases found
    | some e =>
        rw [some_] at found
        have bytes : ∀ b ∈ word, b = plus ∨ b ≠ hash ∧ b ≠ 0 := by
          obtain ⟨service, path, args⟩ := e.formed
          have ofWord (w : List UInt8) (formed : Word w) (b : UInt8) (inside : b ∈ w) :
              b = plus ∨ b ≠ hash ∧ b ≠ 0 := Or.inr (formed.2 b inside).2
          rcases List.mem_cons.mp found with rfl | found
          · intro b inside
            cases flag : e.flag with
            | true =>
                rcases List.mem_cons.mp (by simpa [flag] using inside) with rfl | more
                · exact Or.inl rfl
                · exact ofWord e.service service b more
            | false => exact ofWord e.service service b (by simpa [flag] using inside)
          · rcases List.mem_cons.mp found with rfl | found
            · exact ofWord e.path path
            · exact ofWord word (args word found)
        rcases bytes b inside with rfl | fine
        · exact ⟨by decide, by decide⟩
        · exact fine

theorem text_free (line : Line) : newline ∉ line.text ∧ 0 ∉ line.text := by
  refine ⟨line.free, ?_⟩
  intro member
  rcases List.mem_append.mp member with inside | comment
  · exact (body_bytes line 0 inside).2 rfl
  · rcases line.commented with none_ | ⟨-, free⟩
    · rw [none_] at comment
      cases comment
    · exact free comment

theorem text_string (line : Line) (rest : List UInt8) (tail : rest = [] ∨ rest = [newline]) :
    cString (line.text ++ rest) = line.text ++ rest := by
  apply c_string_whole
  intro member
  rcases List.mem_append.mp member with inside | last
  · exact (text_free line).2 inside
  · rcases tail with rfl | rfl
    · cases last
    · exact absurd last (by decide)

theorem uncommented (line : Line) : ∃ tail, (∀ b ∈ tail, blank b = true) ∧
    ((strchr hash (line.text ++ [newline])).map (·.1)).getD (line.text ++ [newline]) =
      line.body ++ tail := by
  have absent : hash ∉ line.body := fun member => (body_bytes line hash member).1 rfl
  have free : 0 ∉ line.body := fun member => (body_bytes line 0 member).2 rfl
  rw [Line.text]
  rcases line.commented with none_ | ⟨first, -⟩
  · refine ⟨[newline], List.forall_mem_singleton.mpr rfl, ?_⟩
    rw [none_, List.append_nil, strchr_absent hash _ (by
      rw [List.mem_append, not_or]
      exact ⟨absent, by decide⟩)]
    rfl
  · obtain ⟨more, same⟩ : ∃ more, line.comment = hash :: more := by
      cases comment : line.comment with
      | nil => simp [comment] at first
      | cons b more =>
          rw [comment, List.head?_cons, Option.some.injEq] at first
          exact ⟨more, by rw [first]⟩
    refine ⟨[], List.forall_mem_nil _, ?_⟩
    rw [same, List.append_assoc, List.cons_append, strchr_append hash _ _ absent free]
    simp

theorem static_table : serviceTable = tableOf [] := rfl

theorem parse_line_read (lineno : Nat) (line : Line) (done : List Entry)
    (room : done.length < NSERVTAB) :
    parseLine lineno (line.text ++ [newline]) done.length (tableOf done) =
      .ok ((done ++ line.entry.toList).length, tableOf (done ++ line.entry.toList)) := by
  have below : done.length < NSERVTAB + 1 := Nat.lt_succ_of_lt room
  obtain ⟨tail, blanks, text⟩ := uncommented line
  have words := line.words.append tail blanks
  rw [parseLine, text_string line _ (Or.inr rfl), List.getLast?_concat]
  simp only [ne_eq, not_true, ↓reduceIte, if_neg (Nat.not_le.mpr room), text]
  cases some_ : line.entry with
  | none =>
      rw [some_] at words
      rw [strtok_blank words, Option.toList_none, List.append_nil]
  | some e =>
      rw [some_] at words
      obtain ⟨behind, token, others⟩ := strtok_word words
      rw [token, Option.toList_some, tableOf, padded_get below]
      simp only [service_read lineno e _ behind rfl others, Except.map, padded_set e below,
        List.length_append, List.length_singleton]
      rfl

theorem parse_line_full (lineno : Nat) (line : Line) (stp : Nat) (table : Table)
    (full : NSERVTAB ≤ stp) :
    parseLine lineno (line.text ++ [newline]) stp table = .error .tooManyEntries := by
  rw [parseLine, text_string line _ (Or.inr rfl), List.getLast?_concat]
  simp only [ne_eq, not_true, ↓reduceIte, ge_iff_le, full]

theorem parse_line_long (lineno : Nat) (line : Line) (stp : Nat) (table : Table)
    (some_ : line.text ≠ []) : parseLine lineno line.text stp table = .error (.tooLong lineno) := by
  have other : line.text.getLast some_ ≠ newline := by
    intro same
    exact (text_free line).1 (same ▸ List.getLast_mem some_)
  have string := text_string line [] (Or.inl rfl)
  rw [List.append_nil] at string
  rw [parseLine, string, List.getLast?_eq_some_getLast some_]
  simp only [ne_eq, other, not_false_eq_true, ↓reduceIte]

/-! The whole file. -/

theorem gets_line_free {text rest : List UInt8} {count : Nat} (free : newline ∉ text)
    (within : text.length ≤ count) (ends : text.length = count ∨ rest = []) :
    getsLine count (text ++ rest) = (text, rest) := by
  induction text generalizing count with
  | nil =>
      rcases ends with rfl | rfl
      · rfl
      · cases count <;> rfl
  | cons c text ih =>
      simp only [List.mem_cons, not_or, List.length_cons] at free within ends
      obtain ⟨more, rfl⟩ : ∃ more, count = more + 1 := ⟨count - 1, by omega⟩
      rw [List.cons_append, getsLine, if_neg (Ne.symm free.1),
        ih free.2 (by omega) (ends.imp_left fun full => by omega)]

theorem written_cons (line : Line) (lines : List Line) (last : Option Line) :
    written (line :: lines) last = line.text ++ newline :: written lines last := by
  simp [written]

theorem fgets_some_line (size : Nat) (stream : List UInt8) (some_ : stream ≠ []) :
    fgets size stream = some (getsLine (size - 1) stream) := by
  obtain ⟨b, more, rfl⟩ := List.exists_cons_of_ne_nil some_
  rfl

/-- The condition for a table with `done` entries and these lines to come. -/
structure Accepted (done : Nat) (lines : List Line) (last : Option Line) : Prop where
  ended : last = none
  fits : ∀ line ∈ lines, line.text.length + 1 < MAXLINE
  room : ∀ before line after, lines = before ++ line :: after →
    done + (entries before).length < NSERVTAB

theorem entries_cons (line : Line) (lines : List Line) :
    entries (line :: lines) = line.entry.toList ++ entries lines := by
  cases some_ : line.entry <;> simp [entries, some_]

theorem accepted_cons {done : Nat} {line : Line} {lines : List Line} {last : Option Line} :
    Accepted done (line :: lines) last ↔ line.text.length + 1 < MAXLINE ∧ done < NSERVTAB ∧
      Accepted (done + line.entry.toList.length) lines last := by
  constructor
  · intro ⟨ended, fits, room⟩
    refine ⟨fits line List.mem_cons_self, by simpa [entries] using room [] line lines rfl, ended,
      fun other member => fits other (List.mem_cons_of_mem line member), ?_⟩
    intro before other after split
    have within := room (line :: before) other after (by rw [split]; rfl)
    rw [entries_cons, List.length_append] at within
    omega
  · intro ⟨fit, free, ended, fits, room⟩
    refine ⟨ended, List.forall_mem_cons.mpr ⟨fit, fits⟩, ?_⟩
    intro before other after split
    cases before with
    | nil => simpa [entries] using free
    | cons first before =>
        obtain ⟨rfl, others⟩ := List.cons.inj split
        have within := room before other after others
        rw [entries_cons, List.length_append]
        omega

theorem parse_lines_end (lineno : Nat) (done : List Entry) (few : done.length ≤ NSERVTAB) :
    parseLines lineno done.length (tableOf done) [] = .ok (tableOf done) := by
  have below : done.length < NSERVTAB + 1 := Nat.lt_succ_of_le few
  have zero : (tableOf done)[done.length]? = some .zero := padded_get below
  have kept : (tableOf done).set done.length { Servtab.zero with service := none } = tableOf done :=
    padded_end below
  rw [parseLines]
  simp only [fgets, zero, kept]

theorem parse_lines_step (lineno stp : Nat) (table : Table) (fp line rest : List UInt8)
    (got : fgets MAXLINE fp = some (line, rest)) : parseLines lineno stp table fp =
      match parseLine (lineno + 1) line stp table with
      | .error stop => .error stop
      | .ok (stp, table) => parseLines (lineno + 1) stp table rest := by
  rw [parseLines]
  split <;> rename_i here <;> rw [got] at here <;> cases here
  rfl

theorem text_short (line : Line) : line.text.length < MAXLINE := by
  rw [Line.text, List.length_append]
  exact line.short

theorem fgets_line (line : Line) (rest : List UInt8) (fit : line.text.length + 1 < MAXLINE) :
    fgets MAXLINE (line.text ++ newline :: rest) = some (line.text ++ [newline], rest) := by
  rw [fgets_some_line _ _ (by simp), gets_line_text (text_free line).1 (by omega)]

theorem fgets_unended (line : Line) (inhabited : line.text ≠ []) :
    fgets MAXLINE (written [] (some line)) = some (line.text, []) := by
  have taken : getsLine (MAXLINE - 1) (line.text ++ []) = (line.text, []) := by
    apply gets_line_free line.free _ (Or.inr rfl)
    exact Nat.le_sub_one_of_lt (text_short line)
  rw [List.append_nil] at taken
  exact (fgets_some_line MAXLINE line.text inhabited).trans (congrArg some taken)

theorem fgets_full (line : Line) (rest : List UInt8) (full : ¬ line.text.length + 1 < MAXLINE) :
    fgets MAXLINE (line.text ++ newline :: rest) = some (line.text, newline :: rest) := by
  have most : MAXLINE = 256 := rfl
  have short := text_short line
  rw [fgets_some_line _ _ (by simp),
    gets_line_free (text_free line).1 (by omega) (Or.inl (by omega))]

theorem parse_lines_long (lineno stp : Nat) (table : Table) {fp rest : List UInt8} {line : Line}
    (inhabited : line.text ≠ []) (got : fgets MAXLINE fp = some (line.text, rest)) :
    parseLines lineno stp table fp = .error (.tooLong (lineno + 1)) := by
  rw [parse_lines_step _ _ _ _ _ _ got, parse_line_long _ _ _ _ inhabited]

theorem parse_lines_exact (lines : List Line) (last : Option Line) (done : List Entry)
    (lineno : Nat) (few : done.length + (entries lines).length ≤ NSERVTAB)
    (some_ : ∀ line ∈ last, line.text ≠ []) :
    (Accepted done.length lines last →
      parseLines lineno done.length (tableOf done) (written lines last) =
        .ok (tableOf (done ++ entries lines))) ∧
    (¬ Accepted done.length lines last → ∃ stop, stop ≠ .outside ∧
      parseLines lineno done.length (tableOf done) (written lines last) = .error stop) := by
  -- `done` are the entries of the lines before, which the table holds already
  induction lines generalizing done lineno with
  | nil =>
      cases last with
      | none =>
          have accepted : Accepted done.length [] none :=
            ⟨rfl, List.forall_mem_nil _, fun before line after split => by simp at split⟩
          refine ⟨fun _ => ?_, fun refused => absurd accepted refused⟩
          have ended := parse_lines_end lineno done (by simpa [entries] using few)
          simpa [written, entries] using ended
      | some line =>
          have inhabited := some_ line rfl
          have long := parse_lines_long lineno done.length (tableOf done) inhabited
            (fgets_unended line inhabited)
          exact ⟨fun accepted => absurd accepted.ended (Option.some_ne_none line),
            fun _ => ⟨.tooLong (lineno + 1), nofun, long⟩⟩
  | cons line lines ih =>
      rw [accepted_cons, written_cons]
      by_cases fit : line.text.length + 1 < MAXLINE
      · rw [parse_lines_step _ _ _ _ _ _ (fgets_line line (written lines last) fit)]
        -- a full table refuses any further line, a comment too
        by_cases free : done.length < NSERVTAB
        · rw [entries_cons, List.length_append] at few
          obtain ⟨accepts, refuses⟩ := ih (done ++ line.entry.toList) (lineno + 1)
            (by rw [List.length_append]; omega)
          rw [List.length_append] at accepts refuses
          rw [parse_line_read _ line done free, entries_cons, ← List.append_assoc]
          simp only [List.length_append]
          exact ⟨fun accepted => accepts accepted.2.2,
            fun refused => refuses fun later => refused ⟨fit, free, later⟩⟩
        · rw [parse_line_full _ line _ _ (Nat.not_lt.mp free)]
          exact ⟨fun accepted => absurd accepted.2.1 free,
            fun _ => ⟨.tooManyEntries, nofun, rfl⟩⟩
      · have visible : line.text ≠ [] := by
          intro none_
          rw [none_] at fit
          exact fit (by decide)
        have long := parse_lines_long lineno done.length (tableOf done) visible
          (fgets_full line (written lines last) fit)
        exact ⟨fun accepted => absurd accepted.1 fit,
          fun _ => ⟨.tooLong (lineno + 1), nofun, long⟩⟩

/-- The whole table, and only, if every line ends in a newline within MAXLINE and no line
follows the entry that fills the table. -/
theorem parsetab_exact (lines : List Line) (last : Option Line)
    (some_ : ∀ line ∈ last, line.text ≠ [])
    (few : (entries (lines ++ last.toList)).length ≤ NSERVTAB) :
    parsetab (written lines last) ≠ .error .outside ∧
      (parsetab (written lines last) = .ok (tableOf (entries (lines ++ last.toList))) ↔
        last = none ∧ (∀ line ∈ lines, line.text.length + 1 < MAXLINE) ∧
          ∀ before line after, lines = before ++ line :: after →
            (entries before).length < NSERVTAB) := by
  have fewer : ([] : List Entry).length + (entries lines).length ≤ NSERVTAB := by
    rw [entries, List.filterMap_append, List.length_append] at few
    rw [entries, List.length_nil]
    omega
  obtain ⟨accepts, refuses⟩ := parse_lines_exact lines last [] 0 fewer some_
  have same : Accepted 0 lines last ↔ last = none ∧
      (∀ line ∈ lines, line.text.length + 1 < MAXLINE) ∧
      ∀ before line after, lines = before ++ line :: after →
        (entries before).length < NSERVTAB := by
    constructor
    · intro ⟨ended, fits, room⟩
      exact ⟨ended, fits, by simpa using room⟩
    · intro ⟨ended, fits, room⟩
      exact ⟨ended, fits, by simpa using room⟩
  rw [parsetab, static_table, ← same]
  by_cases accepted : Accepted 0 lines last
  · have read := accepts accepted
    rw [List.nil_append, List.length_nil] at read
    rw [read, accepted.ended, Option.toList_none, List.append_nil]
    exact ⟨nofun, iff_of_true rfl (accepted.ended ▸ accepted)⟩
  · obtain ⟨stop, other, stopped⟩ := refuses accepted
    rw [List.length_nil] at stopped
    rw [stopped]
    exact ⟨fun same => other (Except.error.inj same), iff_of_false nofun accepted⟩

def entryLine : Line where
  entry := some ⟨false, [115], [112], [], by simp [Word, blank, hash, space, newline],
    by decide, by decide⟩
  body := [115, 32, 112]
  comment := []
  words := .word [] [115] [32, 112] (by simp) (by decide) (by simp [blank, space, newline])
    (by simp [blank, space]) (.word [32] [112] [] (by simp [blank, space]) (by decide)
      (by simp [blank, space, newline]) (by simp) (.blank [] (by simp)))
  free := by decide
  commented := Or.inl rfl
  short := by decide

def commentLine : Line where
  entry := none
  body := []
  comment := [hash, 99]
  words := .blank [] (List.forall_mem_nil _)
  free := by decide
  commented := Or.inr (by decide)
  short := by decide

theorem comment_before_entry : parsetab (written [commentLine, entryLine] none) =
    .ok (tableOf (entries [commentLine, entryLine])) := by
  apply (parsetab_exact [commentLine, entryLine] none (by simp) (by decide)).2.mpr
  refine ⟨rfl, by decide, ?_⟩
  intro before line after split
  have fewer : before.length + after.length = 1 := by
    have length := congrArg List.length split
    simp only [List.length_cons, List.length_nil, List.length_append] at length
    omega
  have most : (entries before).length ≤ before.length := List.length_filterMap_le _ _
  have ten : NSERVTAB = 10 := rfl
  omega

/-- A comment behind the entry that fills the table. -/
theorem comment_refused :
    (entries (List.replicate 10 entryLine ++ [commentLine])).length = NSERVTAB ∧
      parsetab (written (List.replicate 10 entryLine ++ [commentLine]) none) ≠
        .ok (tableOf (entries (List.replicate 10 entryLine ++ [commentLine]))) := by
  have ten : (entries (List.replicate 10 entryLine)).length = NSERVTAB := rfl
  obtain ⟨-, refuses⟩ := parse_lines_exact (List.replicate 10 entryLine ++ [commentLine]) none [] 0
    (by decide) (by simp)
  obtain ⟨stop, -, stopped⟩ := refuses fun accepted => by
    have room := accepted.room (List.replicate 10 entryLine) commentLine [] rfl
    rw [ten, List.length_nil, Nat.zero_add] at room
    exact Nat.lt_irrefl _ room
  rw [List.length_nil] at stopped
  exact ⟨by decide, by rw [parsetab, static_table, stopped]; exact nofun⟩

end NetworkProgramming.Tcpmux
