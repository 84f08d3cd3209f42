import Mathlib.Data.List.Infix
import NetworkProgramming.CText
import NetworkProgramming.Delimited

/-!
request_handler of chapter24/webserv_linux.c. Which files can be opened is a parameter, and so
is what the stack holds at req_line, since at end-of-file fgets leaves the array as it is. One
handler runs at a time: strtok has one static pointer for all the threads.
-/

namespace NetworkProgramming.WebservLinux

open CText Delimited

def SMALL_BUF : Nat := 100

inductive Fault where
  /-- The source is NULL. -/
  | null
  /-- The source with its NUL is longer than the destination. -/
  | overflow
  deriving DecidableEq

inductive Reply where
  | file (file_name ct : List UInt8)
  | badRequest
  deriving DecidableEq

/-- Into an array of `size` bytes. -/
def strcpy (size : Nat) : Option (List UInt8) → Except Fault (List UInt8)
  | none => .error .null
  | some src => if src.length + 1 ≤ size then .ok src else .error .overflow

def blankOrSlash (b : UInt8) : Bool := decide (b = space ∨ b = 47)
def dot (b : UInt8) : Bool := decide (b = 46)

def contentType (file : List UInt8) : Except Fault (List UInt8) :=
  match strcpy SMALL_BUF (some file) with
  | .error fault => .error fault
  | .ok file_name =>
      match strcpy SMALL_BUF (strtok dot (strtok dot file_name).2).1 with
      | .error fault => .error fault
      | .ok extension =>
          if extension = bytes "html" ∨ extension = bytes "htm" then .ok (bytes "text/html")
          else .ok (bytes "text/plain")

def sendData (opens : List UInt8 → Bool) (ct file_name : List UInt8) : Reply :=
  if opens file_name then .file file_name ct else .badRequest

def reqLine (stack stream : List UInt8) : List UInt8 :=
  match fgets SMALL_BUF stream with
  | some (line, _) => cString line
  | none => cString stack

def requestHandler (opens : List UInt8 → Bool) (stack stream : List UInt8) : Except Fault Reply :=
  let req_line := reqLine stack stream
  if ¬ bytes "HTTP/" <:+: req_line then .ok .badRequest
  else
    let first := strtok blankOrSlash req_line
    match strcpy 10 first.1, strcpy 30 (strtok blankOrSlash first.2).1 with
    | .error fault, _ => .error fault
    | .ok _, .error fault => .error fault
    | .ok method, .ok file_name => match contentType file_name with
        | .error fault => .error fault
        | .ok ct => match strcpy 15 (some ct) with
            | .error fault => .error fault
            | .ok ct =>
                if method ≠ bytes "GET" then .ok .badRequest
                else .ok (sendData opens ct file_name)

/-! What a line has to have. -/

/-- At least two words between dots. -/
def Extended (file : List UInt8) : Prop :=
  ∃ name extension more, Words dot (name :: extension :: more) file

/-- A line without HTTP/, or one whose first two words fit, the second with an extension. -/
def Fits (req_line : List UInt8) : Prop :=
  bytes "HTTP/" <:+: req_line → ∃ method file more,
    Words blankOrSlash (method :: file :: more) req_line ∧ method.length < 10 ∧ file.length < 30 ∧
      Extended file

theorem strcpy_ok {size : Nat} {src : Option (List UInt8)} {copied : List UInt8}
    (ok : strcpy size src = .ok copied) : src = some copied ∧ copied.length < size := by
  cases src with
  | none => cases ok
  | some text =>
      rw [strcpy] at ok
      split at ok
      · rename_i fits
        cases ok
        exact ⟨rfl, fits⟩
      · cases ok

theorem strcpy_fits {size : Nat} {text : List UInt8} (fits : text.length < size) :
    strcpy size (some text) = .ok text := by
  have room : text.length + 1 ≤ size := fits
  rw [strcpy, if_pos room]

/-- The extension is a part of the name, so it fits wherever the name does. -/
theorem content_type_iff {file : List UInt8} (short : file.length < 30) :
    (∃ ct, contentType file = .ok ct) ↔ Extended file := by
  have whole : strcpy SMALL_BUF (some file) = .ok file :=
    strcpy_fits (Nat.lt_trans short (by decide))
  rw [contentType, whole]
  constructor
  · rintro ⟨ct, made⟩
    simp only at made
    cases copied : strcpy SMALL_BUF (strtok dot (strtok dot file).2).1 with
    | error fault =>
        rw [copied] at made
        cases made
    | ok extension =>
        obtain ⟨name, more, found⟩ := second_token_some (strcpy_ok copied).1
        exact ⟨name, extension, more, found⟩
  · rintro ⟨name, extension, more, found⟩
    have part := found.length_le extension (by simp)
    have fits : strcpy SMALL_BUF (some extension) = .ok extension :=
      strcpy_fits (Nat.lt_of_le_of_lt part (Nat.lt_trans short (by decide)))
    simp only [(second_token found).2, fits]
    split
    · exact ⟨_, rfl⟩
    · exact ⟨_, rfl⟩

theorem content_type_short {file ct : List UInt8} (made : contentType file = .ok ct) :
    ct.length < 15 := by
  rw [contentType] at made
  split at made
  · cases made
  · split at made
    · cases made
    · split at made <;> cases made
      · decide
      · decide

theorem request_handler_replies_iff (opens : List UInt8 → Bool) (stack stream : List UInt8) :
    (∃ reply, requestHandler opens stack stream = .ok reply) ↔ Fits (reqLine stack stream) := by
  rw [requestHandler, Fits]
  generalize reqLine stack stream = req_line
  by_cases http : bytes "HTTP/" <:+: req_line
  · simp only [http, not_true, ↓reduceIte, forall_const]
    constructor
    · rintro ⟨reply, replied⟩
      cases first : strcpy 10 (strtok blankOrSlash req_line).1 with
      | error fault => simp [first] at replied
      | ok method =>
          cases second : strcpy 30 (strtok blankOrSlash (strtok blankOrSlash req_line).2).1 with
          | error fault => simp [first, second] at replied
          | ok file =>
              simp only [first, second] at replied
              obtain ⟨token, small⟩ := strcpy_ok first
              obtain ⟨next, short⟩ := strcpy_ok second
              obtain ⟨word, more, found⟩ := second_token_some next
              have same := (second_token found).1
              rw [token, Option.some.injEq] at same
              refine ⟨method, file, more, same ▸ found, small, short, ?_⟩
              apply (content_type_iff short).mp
              cases made : contentType file with
              | error fault => simp [made] at replied
              | ok ct => exact ⟨ct, rfl⟩
    · rintro ⟨method, file, more, found, small, short, extended⟩
      obtain ⟨token, next⟩ := second_token found
      obtain ⟨ct, made⟩ := (content_type_iff short).mpr extended
      simp only [token, next, strcpy_fits small, strcpy_fits short, made,
        strcpy_fits (content_type_short made)]
      split
      · exact ⟨_, rfl⟩
      · exact ⟨_, rfl⟩
  · simp [http]

/-- "GET /a.htm HTTP/1.0". -/
example : requestHandler (fun _ => true) [] (bytes "GET /a.htm HTTP/1.0\r\n") =
    .ok (.file (bytes "a.htm") (bytes "text/html")) := by
  decide +kernel

theorem root_request_faults :
    requestHandler (fun _ => true) [] (bytes "GET / HTTP/1.0\r\n") = .error .null := by
  decide +kernel

end NetworkProgramming.WebservLinux
