import Mathlib.Logic.Function.Basic
import NetworkProgramming.CText
import NetworkProgramming.Machine
import NetworkProgramming.Threads

/-!
The threads of SurveyServer2.cpp that conduct the survey, one for each client.
What a client sends until it disconnects is a text, and `response` is declared
in the loop without a value: what is in it before each extraction is up to the
compiler. Load and store of a tally are steps of their own. A getForeignAddress
that throws, which would leave the lock held, is left out.
-/

namespace NetworkProgramming.SurveyServer2

open CText

def UINT_MAX : Nat := 4294967295
def INT_MAX : Int := 2147483647

structure IStream where
  text : List UInt8
  good : Bool
  deriving DecidableEq

/-- stream >> response. A failure leaves the stream failed, and what is left of the
text is then never read. -/
def extract (response : UInt32) (stream : IStream) : UInt32 × IStream :=
  if !stream.good then (response, stream)
  else
    match stream.text.dropWhile isspace with
    | [] => (response, ⟨[], false⟩)
    | first =>
        match leading first with
        | none => (0, ⟨first, false⟩)
        | some (n, rest) =>
            if UINT_MAX < n.natAbs then (UInt32.ofNat UINT_MAX, ⟨rest, false⟩)
            -- A negative number wraps; at the end of the text the stream is not good any more.
            else (UInt32.ofInt n, ⟨rest, decide (rest ≠ [])⟩)

structure Survey (Client : Type*) where
  /-- qList[q].rList.size() for each question. -/
  sizes : List Nat
  text : Client → List UInt8
  /-- What is in `response` before the extraction for a question. -/
  stale : Client → Nat → UInt32

inductive Place where
  | extract (q : Nat) (stream : IStream)
  | lock (q : Nat) (response : UInt32) (stream : IStream)
  | load (q : Nat) (response : UInt32) (stream : IStream)
  | store (q : Nat) (response : UInt32) (loaded : Option Int) (stream : IStream)
  | unlock (q : Nat) (stream : IStream)
  | lockLog
  | log
  | unlockLog
  | finished
  deriving DecidableEq

variable {Client : Type*} [DecidableEq Client]

/-- A tally is `none` after a signed overflow. -/
structure State (Client : Type*) where
  rCount : Nat → Nat → Option Int
  addrList : List Client
  mutex : Option Client
  place : Client → Place

def State.move (s : State Client) (t : Client) (place : Place) : State Client :=
  { s with place := Function.update s.place t place }

def increment (tally : Option Int) : Option Int :=
  tally.bind fun n => if n < INT_MAX then some (n + 1) else none

def step (v : Survey Client) (s : State Client) (t : Client) : Option (State Client) :=
  match s.place t with
  | .extract q stream =>
      if inside : q < v.sizes.length then
        let (response, stream) := extract (v.stale t q) stream
        if response.toNat < v.sizes[q] then some (s.move t (.lock q response stream))
        else some (s.move t (.extract (q + 1) stream))
      else some (s.move t .lockLog)
  | .lock q response stream =>
      if s.mutex = none then some { s.move t (.load q response stream) with mutex := some t }
      else none
  | .load q response stream =>
      some (s.move t (.store q response (s.rCount q response.toNat) stream))
  | .store q response loaded stream =>
      some { s.move t (.unlock q stream) with
        rCount := Function.update s.rCount q
          (Function.update (s.rCount q) response.toNat (increment loaded)) }
  | .unlock q stream => some { s.move t (.extract (q + 1) stream) with mutex := none }
  | .lockLog => if s.mutex = none then some { s.move t .log with mutex := some t } else none
  | .log => some { s.move t .unlockLog with addrList := s.addrList ++ [t] }
  | .unlockLog => some { s.move t .finished with mutex := none }
  | .finished => none

def machine (v : Survey Client) : Machine (State Client) Client Unit where
  start s := s = { rCount := fun _ _ => some 0
                   addrList := []
                   mutex := none
                   place := fun t => .extract 0 ⟨v.text t, true⟩ }
  step s t := (step v s t).map fun next => (next, ())

/-! What a thread extracts depends on its own text only. -/

def streamAt (v : Survey Client) (t : Client) : Nat → IStream
  | 0 => ⟨v.text t, true⟩
  | q + 1 => (extract (v.stale t q) (streamAt v t q)).2

def response (v : Survey Client) (t : Client) (q : Nat) : UInt32 :=
  (extract (v.stale t q) (streamAt v t q)).1

/-- Where a thread can be. -/
inductive Follows (v : Survey Client) (t : Client) : Place → Prop where
  | extract {q : Nat} : q ≤ v.sizes.length → Follows v t (.extract q (streamAt v t q))
  | lock {q : Nat} (inside : q < v.sizes.length) :
      (response v t q).toNat < v.sizes[q] →
      Follows v t (.lock q (response v t q) (streamAt v t (q + 1)))
  | load {q : Nat} (inside : q < v.sizes.length) :
      (response v t q).toNat < v.sizes[q] →
      Follows v t (.load q (response v t q) (streamAt v t (q + 1)))
  | store {q : Nat} {loaded : Option Int} (inside : q < v.sizes.length) :
      (response v t q).toNat < v.sizes[q] →
      Follows v t (.store q (response v t q) loaded (streamAt v t (q + 1)))
  | unlock {q : Nat} : q < v.sizes.length → Follows v t (.unlock q (streamAt v t (q + 1)))
  | lockLog : Follows v t .lockLog
  | log : Follows v t .log
  | unlockLog : Follows v t .unlockLog
  | finished : Follows v t .finished

def Place.passed (questions : Nat) : Place → Nat
  | .extract q _ | .lock q _ _ | .load q _ _ | .store q _ _ _ => q
  | .unlock q _ => q + 1
  | .lockLog | .log | .unlockLog | .finished => questions

def Place.critical : Place → Bool
  | .load _ _ _ | .store _ _ _ _ | .unlock _ _ | .log | .unlockLog => true
  | .extract _ _ | .lock _ _ _ | .lockLog | .finished => false

/-- Has the thread raised the tally of response `r` to question `q`? -/
def raised (v : Survey Client) (q r : Nat) (thread : Client × Place) : Bool :=
  decide (q < thread.2.passed v.sizes.length ∧ (response v thread.1 q).toNat = r ∧
    ∃ inside : q < v.sizes.length, r < v.sizes[q])

def tally (count : Nat) : Option Int := if (count : Int) ≤ INT_MAX then some count else none

theorem increment_tally (count : Nat) : increment (tally count) = tally (count + 1) := by
  rw [tally, tally]
  split
  · rename_i small
    rw [increment, Option.bind_some]
    split
    · rw [if_pos (by omega)]
      rfl
    · rw [if_neg (by omega)]
  · rw [if_neg (by omega)]
    rfl

variable [Fintype Client]

structure Kept (v : Survey Client) (s : State Client) : Prop where
  follows : ∀ t, Follows v t (s.place t)
  holder : ∀ t, (s.place t).critical = true ↔ s.mutex = some t
  fresh : ∀ t q r loaded stream, s.place t = .store q r loaded stream →
    loaded = s.rCount q r.toNat
  counted : ∀ q r, s.rCount q r =
    tally (Threads.count (fun t => (t, s.place t)) (raised v q r))

theorem kept_start (v : Survey Client) (s : State Client) (first : (machine v).start s) :
    Kept v s := by
  obtain rfl : s = _ := first
  refine ⟨fun t => .extract (Nat.zero_le _), by simp [Place.critical], by simp, ?_⟩
  intro q r
  have none_ : Threads.count (fun t => (t, Place.extract 0 ⟨v.text t, true⟩)) (raised v q r) = 0 :=
    (Threads.count_eq_zero _ _).mpr fun t => by simp [raised, Place.passed]
  simp only [none_]
  rfl

omit [Fintype Client] in
theorem pairs_update (place : Client → Place) (t : Client) (p : Place) :
    (fun u => (u, Function.update place t p u)) =
      Function.update (fun u => (u, place u)) t (t, p) := by
  funext u
  by_cases same : u = t
  · subst u
    simp
  · simp [same]

theorem kept_move (v : Survey Client) (s : State Client) (kept : Kept v s) (t : Client) (p : Place)
    (mutex : Option Client) (addrList : List Client) (follows : Follows v t p)
    (quiet : ∀ q r, raised v q r (t, p) = raised v q r (t, s.place t))
    (holds : p.critical = true ↔ mutex = some t)
    (others : ∀ u, u ≠ t → (mutex = some u ↔ s.mutex = some u))
    (fresh : ∀ q r loaded stream, p = .store q r loaded stream → loaded = s.rCount q r.toNat) :
    Kept v { s.move t p with mutex := mutex, addrList := addrList } where
  follows u := by
    by_cases same : u = t
    · subst u
      simpa [State.move] using follows
    · simpa [State.move, same] using kept.follows u
  holder u := by
    by_cases same : u = t
    · subst u
      simpa [State.move] using holds
    · simpa [State.move, same, others u same] using kept.holder u
  fresh u q r loaded stream here := by
    by_cases same : u = t
    · subst u
      exact fresh q r loaded stream (by simpa [State.move] using here)
    · exact kept.fresh u q r loaded stream (by simpa [State.move, same] using here)
  counted q r := by
    have moved := Threads.count_update (fun u => (u, s.place u)) t (t, p) (raised v q r)
    rw [quiet q r, ← pairs_update] at moved
    simp only [State.move, kept.counted q r]
    rw [Nat.add_right_cancel moved]

omit [DecidableEq Client] [Fintype Client] in
theorem raised_store (v : Survey Client) (t : Client) (q : Nat) (inside : q < v.sizes.length)
    (below : (response v t q).toNat < v.sizes[q]) (loaded : Option Int) (stream stream' : IStream) :
    raised v q (response v t q).toNat (t, .store q (response v t q) loaded stream) = false ∧
      raised v q (response v t q).toNat (t, .unlock q stream') = true := by
  constructor
  · simp [raised, Place.passed]
  · simp [raised, Place.passed, inside, below]

omit [DecidableEq Client] [Fintype Client] in
theorem raised_store_other (v : Survey Client) (t : Client) (q q' r' : Nat) (loaded : Option Int)
    (stream stream' : IStream) (chosen : ¬ (q' = q ∧ r' = (response v t q).toNat)) :
    raised v q' r' (t, .unlock q stream') =
      raised v q' r' (t, .store q (response v t q) loaded stream) := by
  rw [raised, raised, decide_eq_decide]
  simp only [Place.passed]
  constructor
  · rintro ⟨earlier, rfl, size⟩
    have other : q' ≠ q := fun here => chosen ⟨here, by rw [here]⟩
    exact ⟨by omega, rfl, size⟩
  · rintro ⟨earlier, rfl, size⟩
    exact ⟨by omega, rfl, size⟩

theorem kept_store (v : Survey Client) (s : State Client) (kept : Kept v s) (t : Client) (q : Nat)
    (r : UInt32) (loaded : Option Int) (stream : IStream)
    (here : s.place t = .store q r loaded stream) :
    Kept v { s.move t (.unlock q stream) with
      rCount := Function.update s.rCount q
        (Function.update (s.rCount q) r.toNat (increment loaded)) } where
  follows u := by
    by_cases same : u = t
    · subst u
      have follows := kept.follows t
      rw [here] at follows
      cases follows with
      | store inside _ => simpa [State.move] using Follows.unlock inside
    · simpa [State.move, same] using kept.follows u
  holder u := by
    by_cases same : u = t
    · subst u
      have holder := kept.holder t
      rw [here] at holder
      simpa [State.move, Place.critical] using holder
    · simpa [State.move, same] using kept.holder u
  fresh u q' r' loaded' stream' there := by
    -- a second thread about to store would hold the mutex as well
    have other : u ≠ t := by
      rintro rfl
      simp [State.move] at there
    have two := (kept.holder u).mp (by
      simp only [State.move, Function.update_of_ne other] at there
      rw [there]
      rfl)
    have one := (kept.holder t).mp (by rw [here]; rfl)
    rw [one] at two
    exact absurd (Option.some.inj two).symm other
  counted q' r' := by
    have follows := kept.follows t
    rw [here] at follows
    cases follows with
    | store inside below =>
        have moved := Threads.count_update (fun u => (u, s.place u)) t
          (t, .unlock q (streamAt v t (q + 1))) (raised v q' r')
        have fresh := kept.fresh t q _ loaded _ here
        rw [← pairs_update] at moved
        simp only [here] at moved
        simp only [State.move]
        by_cases chosen : q' = q ∧ r' = (response v t q).toNat
        · obtain ⟨rfl, rfl⟩ := chosen
          obtain ⟨before, after⟩ := raised_store v t q' inside below loaded
            (streamAt v t (q' + 1)) (streamAt v t (q' + 1))
          rw [before, after, Bool.toNat_false, Bool.toNat_true, Nat.add_zero] at moved
          rw [Function.update_self, Function.update_self, moved, fresh, kept.counted,
            increment_tally]
        · rw [raised_store_other v t q q' r' loaded (streamAt v t (q + 1)) _ chosen] at moved
          rw [Nat.add_right_cancel moved, ← kept.counted q' r']
          by_cases question : q' = q
          · subst q'
            have other : r' ≠ (response v t q).toNat := fun here => chosen ⟨rfl, here⟩
            rw [Function.update_self, Function.update_of_ne other]
          · rw [Function.update_of_ne question]

omit [DecidableEq Client] [Fintype Client] in
theorem raised_congr (v : Survey Client) (t : Client) (p p' : Place)
    (same : p.passed v.sizes.length = p'.passed v.sizes.length) (q r : Nat) :
    raised v q r (t, p) = raised v q r (t, p') := by
  simp only [raised, same]

omit [DecidableEq Client] [Fintype Client] in
theorem raised_skip (v : Survey Client) (t : Client) (q : Nat) (inside : q < v.sizes.length)
    (range : ¬ (response v t q).toNat < v.sizes[q]) (stream stream' : IStream) (q' r : Nat) :
    raised v q' r (t, .extract (q + 1) stream) = raised v q' r (t, .extract q stream') := by
  rw [raised, raised, decide_eq_decide]
  simp only [Place.passed]
  constructor
  · rintro ⟨earlier, rfl, size⟩
    refine ⟨?_, rfl, size⟩
    by_contra later
    obtain rfl : q' = q := by omega
    exact range size.2
  · rintro ⟨earlier, rfl, size⟩
    exact ⟨by omega, rfl, size⟩

omit [DecidableEq Client] [Fintype Client] in
theorem raised_here (v : Survey Client) (s : State Client) (t : Client) (p p' : Place)
    (here : s.place t = p) (same : p'.passed v.sizes.length = p.passed v.sizes.length) (q r : Nat) :
    raised v q r (t, p') = raised v q r (t, s.place t) := by
  rw [here]
  exact raised_congr v t p' p same q r

theorem kept_extract (v : Survey Client) (s after : State Client) (t : Client) (q : Nat)
    (stream : IStream) (here : s.place t = .extract q stream) (stepped : step v s t = some after)
    (kept : Kept v s) : Kept v after := by
  have follows := kept.follows t
  have holder := kept.holder t
  rw [here] at follows holder
  have outside (p : Place) (calm : p.critical = false) : p.critical = true ↔ s.mutex = some t := by
    rw [calm]
    exact holder
  simp only [step, here] at stepped
  cases follows with
  | extract bound =>
      split at stepped
      · rename_i inside
        have extracted : extract (v.stale t q) (streamAt v t q) =
            (response v t q, streamAt v t (q + 1)) := rfl
        simp only [extracted] at stepped
        by_cases range : (response v t q).toNat < v.sizes[q]
        · rw [if_pos range] at stepped
          obtain rfl := Option.some.inj stepped
          exact kept_move v s kept t _ s.mutex s.addrList (.lock inside range)
            (raised_here v s t _ _ here rfl) (outside _ rfl) (fun _ _ => Iff.rfl)
            (by rintro _ _ _ _ ⟨⟩)
        · rw [if_neg range] at stepped
          obtain rfl := Option.some.inj stepped
          refine kept_move v s kept t _ s.mutex s.addrList (.extract inside) ?_
            (outside _ rfl) (fun _ _ => Iff.rfl) (by rintro _ _ _ _ ⟨⟩)
          rw [here]
          exact raised_skip v t q inside range _ _
      · obtain rfl := Option.some.inj stepped
        refine kept_move v s kept t _ s.mutex s.addrList .lockLog (raised_here v s t _ _ here ?_)
          (outside _ rfl) (fun _ _ => Iff.rfl) (by rintro _ _ _ _ ⟨⟩)
        simp only [Place.passed]
        omega

theorem kept_step (v : Survey Client) (s after : State Client) (t : Client)
    (stepped : step v s t = some after) (kept : Kept v s) : Kept v after := by
  have follows := kept.follows t
  have holder := kept.holder t
  -- who takes the mutex finds it free, who gives it back has it
  have taken (free : s.mutex = none) (u : Client) (other : u ≠ t) :
      some t = some u ↔ s.mutex = some u := by
    simp [free, Ne.symm other]
  have released (u : Client) (other : u ≠ t) (held : s.mutex = some t) :
      none = some u ↔ s.mutex = some u := by
    simp [held, Ne.symm other]
  have alike := raised_here v s t
  cases here : s.place t with
  | extract q stream => exact kept_extract v s after t q stream here stepped kept
  | lock q response stream =>
      rw [here] at follows
      simp only [step, here] at stepped
      split at stepped
      · rename_i free
        obtain rfl := Option.some.inj stepped
        cases follows with
        | lock inside range =>
            exact kept_move v s kept t _ (some t) s.addrList (.load inside range)
              (alike _ _ here rfl) (by simp [Place.critical]) (taken free)
              (by rintro _ _ _ _ ⟨⟩)
      · cases stepped
  | load q response stream =>
      rw [here] at follows holder
      simp only [step, here] at stepped
      obtain rfl := Option.some.inj stepped
      cases follows with
      | load inside range =>
          exact kept_move v s kept t _ s.mutex s.addrList (.store inside range)
            (alike _ _ here rfl) holder (fun _ _ => Iff.rfl) (by rintro _ _ _ _ ⟨⟩; rfl)
  | store q response loaded stream =>
      simp only [step, here] at stepped
      obtain rfl := Option.some.inj stepped
      exact kept_store v s kept t q response loaded stream here
  | unlock q stream =>
      rw [here] at follows holder
      simp only [step, here] at stepped
      obtain rfl := Option.some.inj stepped
      cases follows with
      | unlock inside =>
          exact kept_move v s kept t _ none s.addrList (.extract inside) (alike _ _ here rfl)
            (by simp [Place.critical]) (fun u other => released u other (holder.mp rfl))
            (by rintro _ _ _ _ ⟨⟩)
  | lockLog =>
      simp only [step, here] at stepped
      split at stepped
      · rename_i free
        obtain rfl := Option.some.inj stepped
        exact kept_move v s kept t _ (some t) s.addrList .log (alike _ _ here rfl)
          (by simp [Place.critical]) (taken free) (by rintro _ _ _ _ ⟨⟩)
      · cases stepped
  | log =>
      rw [here] at holder
      simp only [step, here] at stepped
      obtain rfl := Option.some.inj stepped
      exact kept_move v s kept t _ s.mutex _ .unlockLog (alike _ _ here rfl) holder
        (fun _ _ => Iff.rfl) (by rintro _ _ _ _ ⟨⟩)
  | unlockLog =>
      rw [here] at holder
      simp only [step, here] at stepped
      obtain rfl := Option.some.inj stepped
      exact kept_move v s kept t _ none s.addrList .finished (alike _ _ here rfl)
        (by simp [Place.critical]) (fun u other => released u other (holder.mp rfl))
        (by rintro _ _ _ _ ⟨⟩)
  | finished =>
      simp only [step, here] at stepped
      cases stepped

theorem kept_run (v : Survey Client) {trace : List (Transition (State Client) Client Unit)}
    {s : State Client} (run : (machine v).Run trace s) : Kept v s := by
  refine run.invariant (kept_start v) fun e stepped kept => ?_
  obtain ⟨after, moved, same⟩ := Option.map_eq_some_iff.mp stepped
  have last : after = e.after := congrArg Prod.fst same
  exact kept_step v e.before e.after e.action (last ▸ moved) kept

/-- When all threads have finished, a tally is the number of threads that extracted
the response. -/
theorem final_tally (v : Survey Client) {trace : List (Transition (State Client) Client Unit)}
    {s : State Client} (run : (machine v).Run trace s) (done : ∀ t, s.place t = .finished)
    (q r : Nat) (inside : q < v.sizes.length) (range : r < v.sizes[q]) :
    s.rCount q r = tally (Threads.count id fun t => decide ((response v t q).toNat = r)) := by
  rw [(kept_run v run).counted q r]
  refine congrArg tally (Finset.sum_congr rfl fun t _ => ?_)
  simp [raised, done t, Place.passed, inside, range]

/-! Clients whose answers are all extracted as they are meant. -/

/-- Is the token for question `q` the decimal number `r`? -/
def answers (text : List UInt8) (q r : Nat) : Bool :=
  (tokens text)[q]?.any fun token => decide (leading token = some ((r : Int), []))

def chose (v : Survey Client) (q r : Nat) : Nat := Threads.count v.text fun text => answers text q r

def stored (n : Int) : Nat := if UINT_MAX < n.natAbs then UINT_MAX else (UInt32.ofInt n).toNat

/-- Up to the last question with responses there is a token for each that is a number
in range; the last one may also begin with a number that is no response. -/
def Answered : List Nat → List (List UInt8) → Prop
  | [], _ => True
  | size :: sizes, words =>
      (∀ s ∈ size :: sizes, s = 0) ∨
      ∃ token others n rest, words = token :: others ∧ leading token = some (n, rest) ∧
        (rest = [] ∧ n.natAbs ≤ UINT_MAX ∧ (n < 0 → size ≤ stored n) ∧ Answered sizes others ∨
          (∀ s ∈ sizes, s = 0) ∧ size ≤ stored n)

theorem stored_exact (n : Int) (small : n.natAbs ≤ UINT_MAX) (positive : 0 ≤ n) :
    (stored n : Int) = n := by
  rw [UINT_MAX] at small
  rw [stored, if_neg (by rw [UINT_MAX]; omega), UInt32.ofInt, UInt32.toNat_ofNat']
  omega

theorem extract_token (before : UInt32) (stream : IStream) (token rest : List UInt8)
    (others : List (List UInt8)) (n : Int) (good : stream.good = true)
    (split : tokens stream.text = token :: others) (number : leading token = some (n, rest)) :
    (extract before stream).1.toNat = stored n ∧
      (rest = [] → n.natAbs ≤ UINT_MAX → tokens (extract before stream).2.text = others ∧
        ((extract before stream).2.good = false → others = [])) := by
  obtain ⟨after, first, ends, more⟩ := tokens_cons stream.text token others split
  have found := leading_append token after rest n ends number
  have some_ : token ++ after ≠ [] := by
    intro none_
    rw [List.append_eq_nil_iff] at none_
    rw [none_.1] at number
    cases number
  have extracted : extract before stream =
      if UINT_MAX < n.natAbs then (UInt32.ofNat UINT_MAX, ⟨rest ++ after, false⟩)
      else (UInt32.ofInt n, ⟨rest ++ after, decide (rest ++ after ≠ [])⟩) := by
    rw [extract, good, first]
    cases text : token ++ after with
    | nil => exact absurd text some_
    | cons b tail =>
        rw [text] at found
        simp only [Bool.not_true, Bool.false_eq_true, ↓reduceIte, found]
  rw [extracted, stored]
  by_cases large : UINT_MAX < n.natAbs
  · rw [if_pos large, if_pos large]
    exact ⟨rfl, fun _ small => absurd large (Nat.not_lt.mpr small)⟩
  · rw [if_neg large, if_neg large]
    refine ⟨rfl, ?_⟩
    rintro rfl -
    refine ⟨more, ?_⟩
    intro failed
    have none_ : after = [] := by simpa using failed
    rw [← more, none_]
    rfl

def AtQuestion (v : Survey Client) (t : Client) (q : Nat) : Prop :=
  (∀ s ∈ v.sizes.drop q, s = 0) ∨
    Answered (v.sizes.drop q) ((tokens (v.text t)).drop q) ∧
      tokens (streamAt v t q).text = (tokens (v.text t)).drop q ∧
      ((streamAt v t q).good = false → (tokens (v.text t)).drop q = [])

theorem answers_head (text token : List UInt8) (others : List (List UInt8)) (q r : Nat)
    (here : (tokens text).drop q = token :: others) :
    answers text q r = true ↔ leading token = some ((r : Int), []) := by
  have head : (tokens text)[q]? = some token := by
    rw [← List.head?_drop, here, List.head?_cons]
  simp [answers, head]

omit [DecidableEq Client] [Fintype Client] in
theorem question_extracted (v : Survey Client) (t : Client) (q : Nat) (inside : q < v.sizes.length)
    (here : AtQuestion v t q) :
    (∀ r < v.sizes[q], (response v t q).toNat = r ↔ answers (v.text t) q r = true) ∧
      AtQuestion v t (q + 1) := by
  have sizes := List.drop_eq_getElem_cons inside
  rw [AtQuestion, sizes] at here
  rcases here with closed | ⟨answered, words, failed⟩
  · refine ⟨fun r range => ?_, Or.inl fun s member => closed s (List.mem_cons_of_mem _ member)⟩
    rw [closed _ List.mem_cons_self] at range
    exact absurd range (Nat.not_lt_zero r)
  · rcases answered with closed | ⟨token, others, n, rest, split, number, read⟩
    · refine ⟨fun r range => ?_, Or.inl fun s member => closed s (List.mem_cons_of_mem _ member)⟩
      rw [closed _ List.mem_cons_self] at range
      exact absurd range (Nat.not_lt_zero r)
    · have next : (tokens (v.text t)).drop (q + 1) = others := by
        rw [← List.tail_drop, split, List.tail_cons]
      have good : (streamAt v t q).good = true := by
        by_contra other
        rw [split] at failed
        exact List.cons_ne_nil _ _ (failed (Bool.not_eq_true _ ▸ other))
      obtain ⟨value, after⟩ := extract_token (v.stale t q) (streamAt v t q) token rest others n good
        (words.trans split) number
      change (response v t q).toNat = stored n at value
      have meant (r : Nat) : answers (v.text t) q r = true ↔ n = r ∧ rest = [] := by
        rw [answers_head _ token others q r split, number]
        simp
      rcases read with ⟨rfl, small, negative, answered⟩ | ⟨closed, unused⟩
      · refine ⟨fun r range => ?_, Or.inr ⟨next.symm ▸ answered, ?_⟩⟩
        · rw [value, meant]
          by_cases positive : 0 ≤ n
          · have exact_ := stored_exact n small positive
            constructor
            · intro same
              exact ⟨by omega, rfl⟩
            · rintro ⟨same, -⟩
              omega
          · have large := negative (by omega)
            constructor
            · intro same
              omega
            · rintro ⟨same, -⟩
              omega
        · rw [next]
          exact after rfl small
      · refine ⟨fun r range => ?_, Or.inl closed⟩
        rw [value, meant]
        constructor
        · intro same
          omega
        · rintro ⟨same, -⟩
          -- a number that is stored as it is
          by_cases large : UINT_MAX < n.natAbs
          · rw [stored, if_pos large] at unused
            omega
          · have exact_ := stored_exact n (by omega) (by omega)
            omega

omit [DecidableEq Client] [Fintype Client] in
theorem answered_extracted (v : Survey Client) (t : Client)
    (answered : Answered v.sizes (tokens (v.text t))) (q : Nat) (inside : q ≤ v.sizes.length) :
    AtQuestion v t q := by
  induction q with
  | zero => exact Or.inr ⟨answered, rfl, fun failed => by cases failed⟩
  | succ q ih => exact (question_extracted v t q inside (ih (by omega))).2

omit [DecidableEq Client] in
theorem chose_le (v : Survey Client) (q r : Nat) : chose v q r ≤ Fintype.card Client := by
  rw [← Finset.card_univ, Finset.card_eq_sum_ones]
  exact Finset.sum_le_sum fun t _ => Bool.toNat_le _

def twoClients : Survey Bool where
  sizes := [2, 3]
  text t := if t then bytes "01\t7up\n" else bytes "1 +2\n"
  stale := fun _ _ => 0

def allFinished (r : List (Transition (State Bool) Bool Unit) × State Bool) : Bool :=
  decide (∀ t, r.2.place t = .finished)

def wordClient : Survey Bool where
  sizes := [2, 2]
  text t := if t then [] else bytes "yes 1\n"
  stale := fun _ _ => 0

end NetworkProgramming.SurveyServer2
