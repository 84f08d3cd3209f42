import Mathlib.Data.List.Induction
import Mathlib.Data.Multiset.Replicate
import NetworkProgramming.CText
import NetworkProgramming.CountedArray

/-!
The dictionary of RPC.ex: the procedures of dict.c, which rdict_srp.c has once more for the remote
program. The words are a multiset as long as they fit in dict.
-/

namespace NetworkProgramming.Rdict

open CText CountedArray

def MAXWORD : Nat := 50
def DICTSIZ : Nat := 100

@[ext] structure Word where
  text : List UInt8
  free : 0 ∉ text
  short : text.length ≤ MAXWORD
  deriving DecidableEq

structure Row where
  bytes : List UInt8
  size : bytes.length = MAXWORD + 1
  ends : 0 ∈ bytes

def Row.word (row : Row) : Word where
  text := cString row.bytes
  free := c_string_free row.bytes
  short := by
    obtain ⟨rest, same⟩ := c_string_ends row.ends
    have size := congrArg List.length same
    rw [row.size, List.length_append, List.length_cons] at size
    omega

/-- The rows from DICTSIZ on are no part of dict. -/
structure Dictionary where
  dict : Nat → Row
  nwords : Nat

structure Access where
  row : Nat
  len : Nat
  deriving DecidableEq

def Access.Inside (a : Access) : Prop := a.row < DICTSIZ ∧ a.len ≤ MAXWORD + 1

instance (a : Access) : Decidable a.Inside :=
  inferInstanceAs (Decidable (a.row < DICTSIZ ∧ a.len ≤ MAXWORD + 1))

/-- Whether two strings are equal, and how many bytes of them are compared. -/
def strcmp : List UInt8 → List UInt8 → Bool × Nat
  | a :: first, b :: second =>
      if a = b then
        if a = 0 then (true, 1) else ((strcmp first second).1, (strcmp first second).2 + 1)
      else (false, 1)
  | _, _ => (false, 1)

def strcpy (dest : Row) (src : Word) : Row where
  bytes := src.text ++ 0 :: dest.bytes.drop (src.text.length + 1)
  size := by
    have size := dest.size
    have short := src.short
    rw [List.length_append, List.length_cons, List.length_drop]
    omega
  ends := List.mem_append_right _ List.mem_cons_self

structure Reply where
  result : Nat
  after : Dictionary
  accesses : List Access

/-- The loop of deletew and of lookupw, with `more` rows to go from row `i` on. -/
def search (s : Dictionary) (word : Word) : Nat → Nat → Option Nat × List Access
  | 0, _ => (none, [])
  | more + 1, i =>
      let compared := strcmp (word.text ++ [0]) (s.dict i).bytes
      if compared.1 then (some i, [⟨i, compared.2⟩])
      else
        let rest := search s word more (i + 1)
        (rest.1, ⟨i, compared.2⟩ :: rest.2)

def initw (s : Dictionary) : Reply := ⟨1, { s with nwords := 0 }, []⟩

def insertw (s : Dictionary) (word : Word) : Reply :=
  ⟨s.nwords + 1,
    ⟨Function.update s.dict s.nwords (strcpy (s.dict s.nwords) word), s.nwords + 1⟩,
    [⟨s.nwords, word.text.length + 1⟩]⟩

def deletew (s : Dictionary) (word : Word) : Reply :=
  match search s word s.nwords 0 with
  | (none, reads) => ⟨0, s, reads⟩
  | (some i, reads) =>
      let last := s.dict (s.nwords - 1)
      -- The last row may be the one found: then it is copied onto itself.
      ⟨1, ⟨Function.update s.dict i (strcpy (s.dict i) last.word), s.nwords - 1⟩,
        reads ++ [⟨s.nwords - 1, last.word.text.length + 1⟩, ⟨i, last.word.text.length + 1⟩]⟩

def lookupw (s : Dictionary) (word : Word) : Reply :=
  match search s word s.nwords 0 with
  | (none, reads) => ⟨0, s, reads⟩
  | (some _, reads) => ⟨1, s, reads⟩

inductive Call where
  | initw
  | insertw (word : Word)
  | deletew (word : Word)
  | lookupw (word : Word)

def serve (s : Dictionary) : Call → Reply
  | .initw => initw s
  | .insertw word => insertw s word
  | .deletew word => deletew s word
  | .lookupw word => lookupw s word

def zeros : Row := ⟨List.replicate (MAXWORD + 1) 0, by decide, by decide⟩

/-- What there is after the calls; nothing is known of it after an access outside of dict. -/
def run (calls : List Call) : Option Dictionary :=
  calls.foldl (fun state call => state.bind fun s =>
    if ∀ a ∈ (serve s call).accesses, a.Inside then some (serve s call).after else none)
    (some ⟨fun _ => zeros, 0⟩)

def answer (bag : Multiset Word) : Call → Nat × Multiset Word
  | .initw => (1, 0)
  | .insertw word => (bag.card + 1, word ::ₘ bag)
  | .deletew word => (if word ∈ bag then 1 else 0, bag.erase word)
  | .lookupw word => (if word ∈ bag then 1 else 0, bag)

def contents (calls : List Call) : Multiset Word :=
  calls.foldl (fun bag call => (answer bag call).2) 0

def words (s : Dictionary) : Multiset Word := held (fun i => (s.dict i).word) s.nwords

def Answers (reply : Reply) (expected : Nat × Multiset Word) : Prop :=
  reply.result = expected.1 ∧ words reply.after = expected.2

/-- After the calls `before`, the next one does what it does with a multiset, inside of dict. -/
def Obeys (before : List Call) (call : Call) : Prop :=
  ∃ s, run before = some s ∧ Answers (serve s call) (answer (contents before) call) ∧
    ∀ a ∈ (serve s call).accesses, a.Inside

theorem strcmp_exact (first second rest : List UInt8) (free : 0 ∉ first) (clear : 0 ∉ second) :
    (strcmp (first ++ [0]) (second ++ 0 :: rest)).1 = decide (first = second) ∧
      (strcmp (first ++ [0]) (second ++ 0 :: rest)).2 ≤ second.length + 1 := by
  induction first generalizing second with
  | nil =>
      cases second with
      | nil => simp [strcmp]
      | cons b second =>
          simp only [List.mem_cons, not_or] at clear
          simp [strcmp, clear.1]
  | cons a first ih =>
      simp only [List.mem_cons, not_or] at free
      cases second with
      | nil => simp [strcmp, Ne.symm free.1]
      | cons b second =>
          simp only [List.mem_cons, not_or] at clear
          have later := ih second free.2 clear.2
          rw [List.cons_append, List.cons_append, strcmp]
          by_cases same : a = b
          · rw [if_pos same, if_neg (Ne.symm free.1)]
            simp only [List.cons.injEq, same, true_and, List.length_cons]
            exact ⟨later.1, Nat.succ_le_succ later.2⟩
          · simp [same]

theorem row_compared (word : Word) (row : Row) :
    (strcmp (word.text ++ [0]) row.bytes).1 = decide (row.word = word) ∧
      (strcmp (word.text ++ [0]) row.bytes).2 ≤ MAXWORD + 1 := by
  obtain ⟨rest, whole⟩ := c_string_ends row.ends
  have compared := strcmp_exact word.text row.word.text rest word.free row.word.free
  have short := row.word.short
  rw [whole]
  refine ⟨?_, Nat.le_trans compared.2 (Nat.succ_le_succ short)⟩
  rw [show cString row.bytes = row.word.text from rfl, compared.1]
  apply decide_eq_decide.mpr
  constructor
  · intro same
    exact Word.ext same.symm
  · intro same
    rw [same]

theorem strcpy_word (dest : Row) (src : Word) : (strcpy dest src).word = src := by
  apply Word.ext
  change cString (src.text ++ 0 :: dest.bytes.drop (src.text.length + 1)) = src.text
  rw [c_string_append src.text _ src.free]
  simp [cString]

theorem search_exact (s : Dictionary) (word : Word) (more i : Nat) :
    (match (search s word more i).1 with
      | none => ∀ j, i ≤ j → j < i + more → (s.dict j).word ≠ word
      | some j => j < i + more ∧ (s.dict j).word = word) ∧
    ∀ a ∈ (search s word more i).2, a.row < i + more ∧ a.len ≤ MAXWORD + 1 := by
  induction more generalizing i with
  | zero =>
      refine ⟨?_, List.forall_mem_nil _⟩
      intro j from_ below
      omega
  | succ more ih =>
      have compared := row_compared word (s.dict i)
      have later := ih (i + 1)
      rw [Nat.add_right_comm, Nat.add_assoc] at later
      rw [search]
      by_cases here : (s.dict i).word = word
      · rw [compared.1, if_pos (decide_eq_true here)]
        refine ⟨⟨by omega, here⟩, ?_⟩
        intro a member
        rw [List.mem_singleton.mp member]
        exact ⟨Nat.lt_add_of_pos_right (Nat.succ_pos more), compared.2⟩
      · rw [compared.1, if_neg (by simpa using here)]
        constructor
        · cases found : (search s word more (i + 1)).1 with
          | none =>
              have absent := later.1
              rw [found] at absent
              intro j from_ below
              rcases Nat.eq_or_lt_of_le from_ with rfl | after
              · exact here
              · exact absent j after below
          | some j =>
              have there := later.1
              rw [found] at there
              exact there
        · intro a member
          rcases List.mem_cons.mp member with rfl | member
          · exact ⟨Nat.lt_add_of_pos_right (Nat.succ_pos more), compared.2⟩
          · exact later.2 a member

theorem words_card (s : Dictionary) : (words s).card = s.nwords := held_card _ s.nwords

theorem words_update (s : Dictionary) (i count : Nat) (row : Row) :
    words ⟨Function.update s.dict i row, count⟩ =
      held (Function.update (fun j => (s.dict j).word) i row.word) count := by
  have same : (fun j => (Function.update s.dict i row j).word) =
      Function.update (fun j => (s.dict j).word) i row.word := by
    funext j
    exact Function.apply_update (fun _ (r : Row) => r.word) s.dict i row j
  exact congrArg (held · count) same

theorem search_none {s : Dictionary} {word : Word} {reads : List Access}
    (none_ : search s word s.nwords 0 = (none, reads)) : word ∉ words s := by
  have absent := (search_exact s word s.nwords 0).1
  rw [none_] at absent
  intro member
  obtain ⟨i, below, here⟩ := (held_mem_iff _ s.nwords word).mp member
  exact absent i (Nat.zero_le i) (by omega) here

theorem search_some {s : Dictionary} {word : Word} {i : Nat} {reads : List Access}
    (some_ : search s word s.nwords 0 = (some i, reads)) :
    i < s.nwords ∧ (s.dict i).word = word := by
  have there := (search_exact s word s.nwords 0).1
  rw [some_] at there
  simpa using there

theorem some_member {s : Dictionary} {word : Word} {i : Nat} {reads : List Access}
    (some_ : search s word s.nwords 0 = (some i, reads)) : word ∈ words s :=
  (held_mem_iff _ s.nwords word).mpr ⟨i, search_some some_⟩

theorem search_inside {s : Dictionary} {word : Word} {found : Option Nat} {reads : List Access}
    (searched : search s word s.nwords 0 = (found, reads)) (room : s.nwords ≤ DICTSIZ) :
    ∀ a ∈ reads, a.Inside := by
  have inside := (search_exact s word s.nwords 0).2
  rw [searched, Nat.zero_add] at inside
  intro a member
  exact ⟨Nat.lt_of_lt_of_le (inside a member).1 room, (inside a member).2⟩

theorem insertw_answers (s : Dictionary) (word : Word) :
    Answers (insertw s word) (answer (words s) (.insertw word)) := by
  refine ⟨congrArg (· + 1) (words_card s).symm, ?_⟩
  change words ⟨_, s.nwords + 1⟩ = word ::ₘ words s
  rw [words_update, strcpy_word, held_push]
  rfl

theorem deletew_answers (s : Dictionary) (word : Word) :
    Answers (deletew s word) (answer (words s) (.deletew word)) := by
  change (deletew s word).result = (if word ∈ words s then 1 else 0) ∧
    words (deletew s word).after = (words s).erase word
  unfold deletew
  split
  · rename_i none_
    have absent := search_none none_
    rw [if_neg absent, Multiset.erase_of_notMem absent]
    exact ⟨rfl, rfl⟩
  · rename_i i reads some_
    obtain ⟨below, here⟩ := search_some some_
    rw [if_pos (some_member some_)]
    refine ⟨rfl, ?_⟩
    obtain ⟨last, count⟩ : ∃ last, s.nwords = last + 1 := ⟨s.nwords - 1, by omega⟩
    have filled := held_fill (fun j => (s.dict j).word) last i (by omega)
    rw [words_update, strcpy_word, words, count, ← here]
    exact filled

theorem lookupw_answers (s : Dictionary) (word : Word) :
    Answers (lookupw s word) (answer (words s) (.lookupw word)) := by
  change (lookupw s word).result = (if word ∈ words s then 1 else 0) ∧
    words (lookupw s word).after = words s
  unfold lookupw
  split
  · rename_i none_
    rw [if_neg (search_none none_)]
    exact ⟨rfl, rfl⟩
  · rename_i some_
    rw [if_pos (some_member some_)]
    exact ⟨rfl, rfl⟩

theorem serve_answers (s : Dictionary) (call : Call) :
    Answers (serve s call) (answer (words s) call) := by
  cases call with
  | initw => exact ⟨rfl, rfl⟩
  | insertw word => exact insertw_answers s word
  | deletew word => exact deletew_answers s word
  | lookupw word => exact lookupw_answers s word

theorem insertw_inside (s : Dictionary) (word : Word) :
    (∀ a ∈ (insertw s word).accesses, a.Inside) ↔ s.nwords < DICTSIZ := by
  have short := word.short
  constructor
  · intro all
    exact (all _ List.mem_cons_self).1
  · intro less a member
    rw [List.mem_singleton.mp member]
    exact ⟨less, Nat.succ_le_succ short⟩

theorem deletew_inside (s : Dictionary) (word : Word) (room : s.nwords ≤ DICTSIZ) :
    ∀ a ∈ (deletew s word).accesses, a.Inside := by
  unfold deletew
  split
  · rename_i none_
    exact search_inside none_ room
  · rename_i i reads some_
    have below := (search_some some_).1
    have short := (s.dict (s.nwords - 1)).word.short
    have last : s.nwords - 1 < DICTSIZ := by omega
    intro a member
    rcases List.mem_append.mp member with compared | copied
    · exact search_inside some_ room a compared
    · simp only [List.mem_cons, List.not_mem_nil, or_false] at copied
      rcases copied with rfl | rfl
      · exact ⟨last, Nat.succ_le_succ short⟩
      · exact ⟨Nat.lt_of_lt_of_le below room, Nat.succ_le_succ short⟩

theorem lookupw_inside (s : Dictionary) (word : Word) (room : s.nwords ≤ DICTSIZ) :
    ∀ a ∈ (lookupw s word).accesses, a.Inside := by
  unfold lookupw
  split
  · rename_i none_
    exact search_inside none_ room
  · rename_i some_
    exact search_inside some_ room

theorem serve_inside (s : Dictionary) (call : Call) (room : s.nwords ≤ DICTSIZ) :
    (∀ a ∈ (serve s call).accesses, a.Inside) ↔
      ∀ word, call = .insertw word → s.nwords < DICTSIZ := by
  cases call with
  | initw => exact iff_of_true (List.forall_mem_nil _) nofun
  | insertw word =>
      have inside := insertw_inside s word
      constructor
      · intro all other _
        exact inside.mp all
      · intro less
        exact inside.mpr (less word rfl)
  | deletew word => exact iff_of_true (deletew_inside s word room) nofun
  | lookupw word => exact iff_of_true (lookupw_inside s word room) nofun

theorem run_snoc (before : List Call) (call : Call) :
    run (before ++ [call]) = (run before).bind fun s =>
      if ∀ a ∈ (serve s call).accesses, a.Inside then some (serve s call).after else none := by
  rw [run, List.foldl_append]
  rfl

theorem contents_snoc (before : List Call) (call : Call) :
    contents (before ++ [call]) = (answer (contents before) call).2 := by
  rw [contents, List.foldl_append]
  rfl

theorem run_words {before : List Call} {s : Dictionary} (known : run before = some s) :
    words s = contents before ∧ s.nwords ≤ DICTSIZ := by
  induction before using List.reverseRecOn generalizing s with
  | nil =>
      cases known
      exact ⟨rfl, Nat.zero_le DICTSIZ⟩
  | append_singleton before call ih =>
      rw [run_snoc] at known
      obtain ⟨earlier, was, went⟩ := Option.bind_eq_some_iff.mp known
      obtain ⟨all, left⟩ := Option.ite_none_right_eq_some.mp went
      cases left
      obtain ⟨same, room⟩ := ih was
      have served := (serve_answers earlier call).2
      rw [same, ← contents_snoc] at served
      refine ⟨served, ?_⟩
      have inserted := (serve_inside earlier call room).mp all
      cases call with
      | initw => exact Nat.zero_le DICTSIZ
      | insertw word => exact inserted word rfl
      | deletew word =>
          change (deletew earlier word).after.nwords ≤ DICTSIZ
          unfold deletew
          split
          · exact room
          · exact Nat.le_trans (Nat.sub_le earlier.nwords 1) room
      | lookupw word =>
          change (lookupw earlier word).after.nwords ≤ DICTSIZ
          unfold lookupw
          split <;> exact room

theorem obeys_room {before : List Call} {word : Word} (obeys : Obeys before (.insertw word)) :
    (contents before).card < DICTSIZ := by
  obtain ⟨s, known, -, all⟩ := obeys
  obtain ⟨same, room⟩ := run_words known
  rw [← same, words_card]
  exact (serve_inside s _ room).mp all word rfl

theorem room_obeys {before : List Call} {call : Call} (known : (run before).isSome = true)
    (room : ∀ word, call = .insertw word → (contents before).card < DICTSIZ) :
    Obeys before call ∧ (run (before ++ [call])).isSome = true := by
  obtain ⟨s, known⟩ := Option.isSome_iff_exists.mp known
  obtain ⟨same, few⟩ := run_words known
  have served := serve_answers s call
  rw [same] at served
  have all : ∀ a ∈ (serve s call).accesses, a.Inside := by
    apply (serve_inside s call few).mpr
    intro word inserted
    have less := room word inserted
    rwa [← same, words_card] at less
  refine ⟨⟨s, known, served, all⟩, ?_⟩
  rw [run_snoc, known, Option.bind_some, if_pos all]
  rfl

theorem room_known (calls : List Call)
    (room : ∀ before word after, calls = before ++ .insertw word :: after →
      (contents before).card < DICTSIZ) : (run calls).isSome = true := by
  induction calls using List.reverseRecOn with
  | nil => rfl
  | append_singleton before call ih =>
      have known : (run before).isSome = true := by
        apply ih
        intro front word back same
        apply room front word (back ++ [call])
        rw [same, List.append_assoc, List.cons_append]
      apply (room_obeys known _).2
      rintro word rfl
      exact room before word [] rfl

/-- The dictionary is a multiset in a run of calls exactly when no insertion finds DICTSIZ words:
    insertw compares nwords with nothing. -/
theorem multiset_iff (calls : List Call) :
    (∀ before call after, calls = before ++ call :: after → Obeys before call) ↔
      ∀ before word after, calls = before ++ .insertw word :: after →
        (contents before).card < DICTSIZ := by
  constructor
  · intro all before word after same
    exact obeys_room (all before _ after same)
  · intro room before call after same
    have known : (run before).isSome = true := by
      apply room_known before
      intro front word back earlier
      apply room front word (back ++ call :: after)
      rw [same, earlier, List.append_assoc, List.cons_append]
    apply (room_obeys known _).1
    rintro word rfl
    exact room before word after same

def cat : Word := ⟨[99, 97, 116], by decide, by decide⟩

theorem contents_cats (n : Nat) :
    contents (List.replicate n (.insertw cat)) = Multiset.replicate n cat := by
  induction n with
  | zero => rfl
  | succ n ih => rw [List.replicate_succ', contents_snoc, ih, answer, Multiset.replicate_succ]

theorem hundred_and_first :
    (run (List.replicate 100 (.insertw cat))).isSome = true ∧
      ¬ Obeys (List.replicate 100 (.insertw cat)) (.insertw cat) := by
  constructor
  · apply room_known
    intro before word after same
    have length := congrArg List.length same
    rw [List.length_replicate, List.length_append, List.length_cons] at length
    have front := congrArg (List.take before.length) same
    rw [List.take_replicate, List.take_left, Nat.min_eq_left (by omega)] at front
    rw [← front, contents_cats, Multiset.card_replicate, DICTSIZ]
    omega
  · intro obeys
    have less := obeys_room obeys
    rw [contents_cats, Multiset.card_replicate] at less
    exact absurd less (by decide)

end NetworkProgramming.Rdict
