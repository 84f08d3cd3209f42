import NetworkProgramming.SlotTable
import NetworkProgramming.TcpServPoll01

/-!
Which connections tcpservpoll01 reads. Every reported one is read; the scan goes
beyond them only while it still counts an entry that was reported for something
else, and then it comes to the entry of a connection just accepted, whose
`revents` Poll has not written.
-/

namespace NetworkProgramming.TcpServPoll01

variable {openMax listenfd : Nat}

/-! The entries `i` to `m`. -/

theorem range_cons {i m : Nat} (inside : i ≤ m) :
    List.range' i (m + 1 - i) = i :: List.range' (i + 1) (m + 1 - (i + 1)) := by
  have more : m + 1 - i = (m + 1 - (i + 1)) + 1 := by omega
  rw [more, List.range'_succ]

theorem reported_nil (client : Nat → Pollfd) {i m : Nat} (past : m < i) :
    reported client i m = [] := by
  have none_left : m + 1 - i = 0 := by omega
  rw [reported, none_left]
  rfl

theorem reported_cons (client : Nat → Pollfd) {i m : Nat} (inside : i ≤ m) :
    reported client i m = (reportedFd (client i)).toList ++ reported client (i + 1) m := by
  rw [reported, range_cons inside]
  cases found : reportedFd (client i) <;> simp [reported, found]

theorem reported_congr {client next : Nat → Pollfd} {i m : Nat}
    (same : ∀ k, i ≤ k → k ≤ m → next k = client k) :
    reported next i m = reported client i m := by
  apply List.filterMap_congr
  intro k member
  have bounds := List.mem_range'_1.mp member
  rw [same k (by omega) (by omega)]

theorem touched_cons (client : Nat → Pollfd) {i m : Nat} (inside : i ≤ m) :
    touched client i m =
      touched client (i + 1) m + if (client i).revents ≠ Revents.zero then 1 else 0 := by
  rw [touched, range_cons inside, List.countP_cons]
  simp [touched]

theorem touched_zero (client : Nat → Pollfd) (m : Nat) :
    touched client 0 m =
      touched client 1 m + if (client 0).revents ≠ Revents.zero then 1 else 0 :=
  touched_cons client (Nat.zero_le m)

theorem reported_beyond {client : Nat → Pollfd} {i m last : Nat} (below : m ≤ last)
    (silent : ∀ k, m < k → k ≤ last → reportedFd (client k) = none) :
    reported client i last = reported client i m := by
  -- the induction is on how many entries are left before `last`
  induction left : last + 1 - i generalizing i with
  | zero => rw [reported_nil client (by omega), reported_nil client (by omega)]
  | succ n ih =>
      have tail := ih (i := i + 1) (by omega)
      by_cases inside : i ≤ m
      · rw [reported_cons client inside, reported_cons client (by omega : i ≤ last), tail]
      · rw [reported_cons client (by omega : i ≤ last), silent i (by omega) (by omega), tail,
          reported_nil client (by omega), reported_nil client (by omega)]
        rfl

def Zeroed (client : Nat → Pollfd) (maxi : Nat) : Prop :=
  ∀ k, k ≤ maxi → (client k).fd = none → (client k).revents = Revents.zero

def Other (p : Pollfd) : Prop := p.revents ≠ Revents.zero ∧ p.revents.readable = false

theorem readable_touched {p : Pollfd} (ready : p.revents.readable = true) :
    p.revents ≠ Revents.zero := by
  intro zero
  rw [zero] at ready
  cases ready

theorem reported_fd_some {p : Pollfd} {fd : Nat} (found : reportedFd p = some fd) :
    p.fd = some fd ∧ p.revents.readable = true := by
  simp only [reportedFd, Option.ite_none_right_eq_some] at found
  exact ⟨found.2, found.1⟩

theorem reported_le_touched (client : Nat → Pollfd) (i m : Nat) :
    (reported client i m).length ≤ touched client i m := by
  induction left : m + 1 - i generalizing i with
  | zero =>
      rw [reported_nil client (by omega)]
      exact Nat.zero_le _
  | succ n ih =>
      have tail := ih (i + 1) (by omega)
      rw [reported_cons client (by omega : i ≤ m), touched_cons client (by omega : i ≤ m),
        List.length_append]
      cases found : reportedFd (client i) with
      | none => exact Nat.le_trans (by simpa using tail) (Nat.le_add_right _ _)
      | some fd =>
          rw [if_pos (readable_touched (reported_fd_some found).2)]
          simp only [Option.toList_some, List.length_singleton]
          omega

theorem reported_eq_touched {client : Nat → Pollfd} {i m : Nat} (zeroed : Zeroed client m)
    (tidy : ∀ k, i ≤ k → k ≤ m → ¬ Other (client k)) :
    (reported client i m).length = touched client i m := by
  induction left : m + 1 - i generalizing i with
  | zero =>
      have none_left : m + 1 - i = 0 := left
      rw [reported_nil client (by omega), touched, none_left]
      rfl
  | succ n ih =>
      have tail := ih (i := i + 1) (fun k from_i inside => tidy k (by omega) inside) (by omega)
      rw [reported_cons client (by omega : i ≤ m), touched_cons client (by omega : i ≤ m),
        List.length_append, tail]
      cases found : reportedFd (client i) with
      | some fd =>
          rw [if_pos (readable_touched (reported_fd_some found).2)]
          simp only [Option.toList_some, List.length_singleton]
          omega
      | none =>
          have zero : (client i).revents = Revents.zero := by
            by_contra touched_here
            have ready : (client i).revents.readable = true := by
              by_contra silent
              exact tidy i (Nat.le_refl i) (by omega) ⟨touched_here, by simpa using silent⟩
            simp only [reportedFd, if_pos ready] at found
            exact touched_here (zeroed i (by omega) found)
          simp [zero]

theorem reported_lt_touched {client : Nat → Pollfd} {i m k : Nat} (from_i : i ≤ k)
    (inside : k ≤ m) (other : Other (client k)) :
    (reported client i m).length < touched client i m := by
  induction left : m + 1 - i generalizing i with
  | zero => omega
  | succ n ih =>
      rw [reported_cons client (by omega : i ≤ m), touched_cons client (by omega : i ≤ m),
        List.length_append]
      by_cases here : k = i
      · subst k
        have tail := reported_le_touched client (i + 1) m
        rw [if_pos other.1]
        simp only [reportedFd, other.2, Bool.false_eq_true, if_false, Option.toList_none,
          List.length_nil]
        omega
      · have tail := ih (i := i + 1) (by omega) (by omega)
        cases found : reportedFd (client i) with
        | none =>
            simp only [Option.toList_none, List.length_nil]
            omega
        | some fd =>
            rw [if_pos (readable_touched (reported_fd_some found).2)]
            simp only [Option.toList_some, List.length_singleton]
            omega

/-! Rounds: how far the last Poll wrote, what it reported to be read, and what
has been read since. -/

structure Round where
  maxi : Nat
  reports : List Nat
  handled : List Nat
  deriving DecidableEq

def Round.next (r : Round) : Event → Round
  | .polled maxi fds => ⟨maxi, fds, []⟩
  | .read sockfd _ => { r with handled := r.handled ++ [sockfd] }
  | .accepted _ => r
  | .quiet => r

def round (trace : List Step) : Round := trace.foldl (fun r e => r.next e.output) ⟨0, [], []⟩

theorem round_snoc (trace : List Step) (e : Step) :
    round (trace ++ [e]) = (round trace).next e.output := by
  rw [round, List.foldl_append]
  rfl

/-- Only what Poll reported is read, and before the next Poll all of it. -/
structure Faithful (trace : List Step) (s : State) : Prop where
  only : ∀ fd ∈ (round trace).handled, fd ∈ (round trace).reports
  all : s.place = .poll → ∀ fd ∈ (round trace).reports, fd ∈ (round trace).handled

/-! What every run keeps. -/

theorem available_some {client : Nat → Pollfd} {k : Nat}
    (found : available openMax client = some k) : 1 ≤ k ∧ (client k).fd = none := by
  have inside := List.mem_of_find?_eq_some found
  have free := List.find?_some found
  exact ⟨(List.mem_range'_1.mp inside).1, by simpa using free⟩

structure Tables (s : State) : Prop where
  beyond : ∀ k, s.maxi < k → (s.client k).fd = none
  opened : ∀ k fd, (s.client k).fd = some fd → fd ∈ s.opened
  distinct : ∀ j k fd, (s.client j).fd = some fd → (s.client k).fd = some fd → j = k

structure Polled (r : Round) (s : State) (nready : Int) : Prop where
  round : r = ⟨s.maxi, reported s.client 1 s.maxi, []⟩
  count : nready = touched s.client 0 s.maxi
  zeroed : Zeroed s.client s.maxi
  positive : 0 < nready

theorem polled_fd (client : Nat → Pollfd) (maxi : Nat) (revents : Nat → Revents) (k : Nat) :
    (polled client maxi revents k).fd = (client k).fd := by
  simp only [polled]
  split <;> rfl

theorem polled_zeroed (client : Nat → Pollfd) (maxi : Nat) (revents : Nat → Revents) :
    Zeroed (polled client maxi revents) maxi := by
  intro k inside free
  rw [polled_fd] at free
  simp [polled, inside, free]

def fds (client : Nat → Pollfd) : Nat → Option Nat := fun k => (client k).fd

theorem fds_update (client : Nat → Pollfd) (k : Nat) (p : Pollfd) :
    fds (Function.update client k p) = Function.update (fds client) k p.fd := by
  funext j
  by_cases same : j = k
  · subst j
    simp only [fds, Function.update_self]
  · simp only [fds, Function.update_of_ne same]

theorem Tables.slots {s : State} (tables : Tables s) : SlotTable.Distinct (fds s.client) :=
  tables.distinct

theorem Tables.clear {s after : State} {i sockfd : Nat} (tables : Tables s)
    (filled : (s.client i).fd = some sockfd)
    (client : after.client = Function.update s.client i { s.client i with fd := none })
    (opened : after.opened = s.opened.erase sockfd) (maxi : after.maxi = s.maxi) :
    Tables after := by
  have slots : fds after.client = Function.update (fds s.client) i none := by
    rw [client, fds_update]
  refine ⟨?_, ?_, ?_⟩
  · intro k far
    change fds after.client k = none
    rw [slots]
    by_cases same : k = i
    · subst k
      exact Function.update_self i none (fds s.client)
    · rw [Function.update_of_ne same]
      exact tables.beyond k (by rwa [maxi] at far)
  · intro k fd here
    have cleared : Function.update (fds s.client) i none k = some fd := by
      rw [← slots]
      exact here
    obtain ⟨other, j, old⟩ := (tables.slots.holds_clear filled fd).mp ⟨k, cleared⟩
    rw [opened]
    exact Finset.mem_erase.mpr ⟨other, tables.opened j fd old⟩
  · have distinct := tables.slots.clear i
    rw [← slots] at distinct
    exact distinct

theorem accept_client_eq {s : State} {connfd k : Nat} {nready : Int}
    (free : available openMax s.client = some k) :
    acceptClient openMax s connfd nready =
      { client := Function.update s.client k { s.client k with fd := some connfd }
        maxi := if k > s.maxi then k else s.maxi
        opened := insert connfd s.opened
        place := if nready - 1 ≤ 0 then .poll else .scan 1 (nready - 1) } := by
  simp only [acceptClient, free]

theorem accept_tables {s : State} {connfd : Nat} {nready : Int} (tables : Tables s)
    (unused : connfd ∉ s.opened) : Tables (acceptClient openMax s connfd nready) := by
  cases free : available openMax s.client with
  | none =>
      simp only [acceptClient, free]
      exact ⟨tables.beyond, fun k fd here => Finset.mem_insert_of_mem (tables.opened k fd here),
        tables.distinct⟩
  | some i =>
      have empty : fds s.client i = none := (available_some free).2
      have fresh : ∀ k, fds s.client k ≠ some connfd :=
        fun k here => unused (tables.opened k connfd here)
      have slots := fds_update s.client i { s.client i with fd := some connfd }
      rw [accept_client_eq free]
      refine ⟨?_, ?_, ?_⟩
      · intro k far
        dsimp only at far ⊢
        have other : k ≠ i := by
          rintro rfl
          split at far <;> omega
        rw [Function.update_of_ne other]
        exact tables.beyond k (by split at far <;> omega)
      · intro k fd here
        have held : Function.update (fds s.client) i (some connfd) k = some fd := by
          rw [← slots]
          exact here
        rcases (SlotTable.holds_put empty connfd fd).mp ⟨k, held⟩ with rfl | ⟨j, old⟩
        · exact Finset.mem_insert_self _ _
        · exact Finset.mem_insert_of_mem (tables.opened j fd old)
      · have distinct := tables.slots.put i connfd fresh
        rw [← slots] at distinct
        exact distinct

theorem does_tables {s after : State} {a : Action} {event : Event}
    (does : Does openMax s a event after) (tables : Tables s) : Tables after := by
  cases does with
  | poll _ _ =>
      refine ⟨?_, ?_, ?_⟩
      · intro k far
        rw [polled_fd]
        exact tables.beyond k far
      · intro k fd here
        rw [polled_fd] at here
        exact tables.opened k fd here
      · intro j k fd left right
        rw [polled_fd] at left right
        exact tables.distinct j k fd left right
  | accept _ _ unused => exact accept_tables tables unused
  | skip _ => exact { tables with }
  | read received _ _ filled _ =>
      match received with
      | .error => exact { tables with }
      | .econnreset => exact tables.clear filled rfl rfl rfl
      | .bytes [] => exact tables.clear filled rfl rfl rfl
      | .bytes (_ :: _) => exact { tables with }
  | pass _ _ _ => exact { tables with }
  | finish _ _ => exact { tables with }

theorem does_polled {r : Round} {s after : State} {a : Action} {event : Event}
    (does : Does openMax s a event after) (nready : Int) (there : after.place = .test nready) :
    Polled (r.next event) after nready := by
  cases does with
  | poll here some_ready =>
      simp only [Place.test.injEq] at there
      exact ⟨rfl, there.symm, polled_zeroed _ _ _, by omega⟩
  | accept _ _ _ =>
      simp only [acceptClient] at there
      split at there
      · cases there
      · dsimp only at there
        split at there <;> cases there
  | skip _ => cases there
  | read received _ _ _ _ =>
      match received with
      | .error => cases there
      | .econnreset =>
          simp only [readClient, closeClient, Place.after] at there
          split at there <;> cases there
      | .bytes [] =>
          simp only [readClient, closeClient, Place.after] at there
          split at there <;> cases there
      | .bytes (_ :: _) =>
          simp only [readClient, Place.after] at there
          split at there <;> cases there
  | pass _ _ _ => cases there
  | finish _ _ => cases there

theorem start_tables (s : State) (first : (machine openMax listenfd).start s) : Tables s := by
  obtain ⟨zero, free, maxi, opened, _⟩ := first
  have only_zero : ∀ k fd, (s.client k).fd = some fd → k = 0 := by
    intro k fd here
    by_contra later
    rw [free k (by omega)] at here
    cases here
  refine ⟨fun k far => free k (by omega), ?_, ?_⟩
  · intro k fd here
    obtain rfl := only_zero k fd here
    rw [zero, Option.some.injEq] at here
    rwa [← here]
  · intro j k fd left right
    rw [only_zero j fd left, only_zero k fd right]

theorem run_tables (trace : List Step) (s : State)
    (run : (machine openMax listenfd).Run trace s) : Tables s :=
  run.invariant start_tables fun e stepped tables =>
    does_tables (step_does openMax listenfd e stepped) tables

theorem run_polled (trace : List Step) (s : State)
    (run : (machine openMax listenfd).Run trace s) (nready : Int)
    (here : s.place = .test nready) : Polled (round trace) s nready := by
  refine run.history (C := fun _ => True)
    (I := fun trace s => ∀ nready, s.place = .test nready → Polled (round trace) s nready)
    ?_ ?_ (fun _ _ => trivial) nready here
  · intro s first nready here
    rw [first.2.2.2.2] at here
    cases here
  · intro trace e stepped _ _ nready there
    rw [round_snoc]
    exact does_polled (step_does openMax listenfd e stepped) nready there

/-! Runs in which no connection gets an entry with something in it to be taken
for a report. -/

/-- The next connection gets an entry that Poll has not written, which looks as
if it were to be read, and something else was reported, so that the scan goes on
to it. -/
def Stale (openMax : Nat) (s : State) : Prop :=
  ∃ k, available openMax s.client = some k ∧ s.maxi < k ∧
    (s.client k).revents.readable = true ∧ ∃ j, 1 ≤ j ∧ j ≤ s.maxi ∧ Other (s.client j)

def accepts : Action → Bool
  | .accept _ => true
  | _ => false

def Clean (openMax : Nat) (e : Step) : Prop := accepts e.action = true → ¬ Stale openMax e.before

/-- How far the round is. In the scan, either the count is that of the reports
still ahead, or nothing beyond what Poll wrote is to be read. -/
def Round.At (r : Round) (s : State) : Prop :=
  match s.place with
  | .poll => r.handled = r.reports
  | .test _ => r.handled = []
  | .scan i nready => r.maxi ≤ s.maxi ∧ 0 < nready ∧
      r.reports = r.handled ++ reported s.client i r.maxi ∧
      (reported s.client i r.maxi).length ≤ nready ∧
      (nready = (reported s.client i r.maxi).length ∨
        reported s.client i s.maxi = reported s.client i r.maxi)
  | .tooManyClients => r.handled = []
  | .exited => r.handled <+: r.reports

theorem at_here {r : Round} {s : State} {place : Place} (at_ : r.At s) (here : s.place = place) :
    r.At { s with place := place } := by
  subst here
  exact at_

theorem accept_round {r : Round} {s : State} {connfd : Nat} {nready : Int} (tables : Tables s)
    (polled : Polled r s nready) (ready : (s.client 0).revents.pollrdnorm = true)
    (clean : ¬ Stale openMax s) : r.At (acceptClient openMax s connfd nready) := by
  obtain ⟨rfl, rfl, zeroed, _⟩ := polled
  have listening : (s.client 0).revents ≠ Revents.zero := by
    intro zero
    rw [zero] at ready
    cases ready
  have count := touched_zero s.client s.maxi
  rw [if_pos listening] at count
  have enough := reported_le_touched s.client 1 s.maxi
  cases free : available openMax s.client with
  | none => simp [acceptClient, free, Round.At]
  | some k =>
      obtain ⟨from_one, empty⟩ := available_some free
      rw [accept_client_eq free]
      by_cases last : (touched s.client 0 s.maxi : Int) - 1 ≤ 0
      · simp only [Round.At, if_pos last]
        exact (List.eq_nil_of_length_eq_zero (by omega)).symm
      · simp only [Round.At, if_neg last]
        by_cases inside : k ≤ s.maxi
        · -- an entry that Poll has written, and zeroed
          have silent : (s.client k).revents = Revents.zero := zeroed k inside empty
          have same : reported (Function.update s.client k { s.client k with fd := some connfd })
              1 s.maxi = reported s.client 1 s.maxi := by
            apply List.filterMap_congr
            intro j _
            by_cases here : j = k
            · subst j
              simp [reportedFd, silent, Revents.zero, Revents.readable]
            · rw [Function.update_of_ne here]
          rw [if_neg (by omega : ¬ k > s.maxi), same]
          exact ⟨Nat.le_refl _, by omega, rfl, by omega, Or.inr rfl⟩
        · have same : reported (Function.update s.client k { s.client k with fd := some connfd })
              1 s.maxi = reported s.client 1 s.maxi :=
            reported_congr fun j _ below => Function.update_of_ne (by omega) _ _
          rw [if_pos (by omega : k > s.maxi)]
          refine ⟨by omega, by omega, by rw [same, List.nil_append], ?_, ?_⟩
          · simp only [same]
            omega
          · by_cases garbage : (s.client k).revents.readable = true
            · -- the scan ends before it comes to the entry
              left
              have tidy : ∀ j, 1 ≤ j → j ≤ s.maxi → ¬ Other (s.client j) :=
                fun j from_j below other =>
                  clean ⟨k, free, by omega, garbage, j, from_j, below, other⟩
              have exact_count := reported_eq_touched zeroed tidy
              simp only [same]
              omega
            · right
              refine reported_beyond (by omega) ?_
              intro j far _
              by_cases here : j = k
              · subst j
                rw [Function.update_self, reportedFd, if_neg garbage]
              · rw [Function.update_of_ne here, reportedFd, tables.beyond j far, ite_self]

theorem skip_round {r : Round} {s : State} {nready : Int} (polled : Polled r s nready) :
    r.At { s with place := .scan 1 nready } := by
  obtain ⟨rfl, rfl, _, positive⟩ := polled
  have enough := reported_le_touched s.client 1 s.maxi
  have count := touched_zero s.client s.maxi
  refine ⟨Nat.le_refl _, positive, rfl, ?_, Or.inr rfl⟩
  simp only
  split at count <;> omega

/-- Beyond what Poll wrote nothing is read while anything is counted. -/
theorem read_covered {r : Round} {s : State} {i sockfd : Nat} {nready : Int} (at_ : r.At s)
    (here : s.place = .scan i nready) (inside : i ≤ s.maxi)
    (found : reportedFd (s.client i) = some sockfd) : i ≤ r.maxi := by
  obtain ⟨_, positive, _, _, ahead⟩ := at_here at_ here
  simp only at ahead
  by_contra far
  rw [reported_nil s.client (by omega : r.maxi < i)] at ahead
  rcases ahead with none_left | nothing
  · simp only [List.length_nil] at none_left
    omega
  · rw [reported_cons s.client inside, found] at nothing
    cases nothing

theorem read_round {r : Round} {s after : State} {i sockfd : Nat} {nready : Int} (at_ : r.At s)
    (here : s.place = .scan i nready) (inside : i ≤ s.maxi)
    (found : reportedFd (s.client i) = some sockfd) (place : after.place = .after i nready)
    (maxi : after.maxi = s.maxi) (same : ∀ k, i < k → after.client k = s.client k) :
    Round.At { r with handled := r.handled ++ [sockfd] } after := by
  obtain ⟨below, positive, split, enough, ahead⟩ := at_here at_ here
  simp only at below split enough ahead
  have covered := read_covered at_ here inside found
  have later : ∀ m, reported after.client (i + 1) m = reported s.client (i + 1) m :=
    fun m => reported_congr fun k from_k _ => same k (by omega)
  rw [reported_cons s.client covered, found] at split enough ahead
  rw [reported_cons s.client inside, found] at ahead
  simp only [Option.toList_some, List.singleton_append, List.length_cons] at split enough ahead
  by_cases last : nready - 1 ≤ 0
  · have none_left : reported s.client (i + 1) r.maxi = [] :=
      List.eq_nil_of_length_eq_zero (by omega)
    simp only [Round.At, place, Place.after, if_pos last]
    rw [split, none_left]
  · simp only [Round.At, place, Place.after, if_neg last, maxi, later]
    refine ⟨below, by omega, ?_, by omega, ?_⟩
    · rw [split, List.append_assoc]
      rfl
    · rcases ahead with counted | equal
      · left
        omega
      · right
        exact (List.cons.inj equal).2

theorem pass_round {r : Round} {s : State} {i : Nat} {nready : Int} (at_ : r.At s)
    (here : s.place = .scan i nready) (inside : i ≤ s.maxi)
    (unready : reportedFd (s.client i) = none) :
    r.At { s with place := .scan (i + 1) nready } := by
  obtain ⟨below, positive, split, enough, ahead⟩ := at_here at_ here
  have moved : reported s.client i r.maxi = reported s.client (i + 1) r.maxi := by
    by_cases covered : i ≤ r.maxi
    · rw [reported_cons s.client covered, unready]
      rfl
    · rw [reported_nil s.client (by omega), reported_nil s.client (by omega)]
  rw [moved] at split enough ahead
  rw [reported_cons s.client inside, unready] at ahead
  exact ⟨below, positive, split, enough, ahead⟩

theorem finish_round {r : Round} {s : State} {i : Nat} {nready : Int} (at_ : r.At s)
    (here : s.place = .scan i nready) (last : s.maxi < i) : r.At { s with place := .poll } := by
  obtain ⟨below, _, split, _, _⟩ := at_here at_ here
  simp only at below split
  rw [reported_nil s.client (by omega), List.append_nil] at split
  exact split.symm

theorem does_round {r : Round} {s after : State} {a : Action} {event : Event}
    (does : Does openMax s a event after) (tables : Tables s)
    (polled : ∀ nready, s.place = .test nready → Polled r s nready)
    (clean : accepts a = true → ¬ Stale openMax s) (at_ : r.At s) : (r.next event).At after := by
  cases does with
  | poll _ _ => rfl
  | accept here ready _ => exact accept_round tables (polled _ here) ready (clean rfl)
  | skip here => exact skip_round (polled _ here)
  | @read i sockfd nready received here inside filled ready =>
      have found : reportedFd (s.client i) = some sockfd := by rw [reportedFd, if_pos ready, filled]
      cases received with
      | error =>
          obtain ⟨_, _, split, _, _⟩ := at_here at_ here
          simp only at split
          rw [reported_cons s.client (read_covered at_ here inside found), found,
            ← List.append_assoc] at split
          exact ⟨_, split.symm⟩
      | econnreset =>
          exact read_round at_ here inside found rfl rfl fun k far =>
            Function.update_of_ne (by omega) _ _
      | bytes buf =>
          cases buf with
          | nil =>
              exact read_round at_ here inside found rfl rfl fun k far =>
                Function.update_of_ne (by omega) _ _
          | cons c more => exact read_round at_ here inside found rfl rfl fun _ _ => rfl
  | pass here inside unready => exact pass_round at_ here inside unready
  | finish here last => exact finish_round at_ here last

theorem run_round (trace : List Step) (s : State) (run : (machine openMax listenfd).Run trace s)
    (met : ∀ e ∈ trace, Clean openMax e) : (round trace).At s := by
  have kept : (machine openMax listenfd).Run trace s ∧ (round trace).At s := by
    refine run.history (C := Clean openMax)
      (I := fun trace s => (machine openMax listenfd).Run trace s ∧ (round trace).At s) ?_ ?_ met
    · intro s first
      refine ⟨.start first, ?_⟩
      simp [Round.At, first.2.2.2.2, round]
    · rintro trace e stepped clean ⟨before, at_⟩
      refine ⟨before.next e stepped, ?_⟩
      rw [round_snoc]
      exact does_round (step_does openMax listenfd e stepped) (run_tables trace e.before before)
        (run_polled trace e.before before) clean at_
  exact kept.2

theorem read_in_order {r : Round} {s : State} (at_ : r.At s) : r.handled <+: r.reports := by
  cases here : s.place with
  | poll =>
      have all : r.handled = r.reports := at_here at_ here
      rw [all]
  | test nready =>
      have nothing : r.handled = [] := at_here at_ here
      rw [nothing]
      exact List.nil_prefix
  | scan i nready =>
      obtain ⟨_, _, split, _, _⟩ := at_here at_ here
      exact ⟨_, split.symm⟩
  | tooManyClients =>
      have nothing : r.handled = [] := at_here at_ here
      rw [nothing]
      exact List.nil_prefix
  | exited => exact at_here at_ here

theorem run_faithful (trace : List Step) (s : State)
    (run : (machine openMax listenfd).Run trace s) (met : ∀ e ∈ trace, Clean openMax e) :
    Faithful trace s := by
  have at_ := run_round trace s run met
  refine ⟨fun fd member => (read_in_order at_).subset member, ?_⟩
  intro top
  have all : (round trace).handled = (round trace).reports := at_here at_ top
  rw [all]
  exact fun fd member => member

/-! A stale entry is read. -/

theorem mem_reported {client : Nat → Pollfd} {i m fd : Nat} (member : fd ∈ reported client i m) :
    ∃ k, (client k).fd = some fd := by
  obtain ⟨k, _, found⟩ := List.mem_filterMap.mp member
  exact ⟨k, (reported_fd_some found).1⟩

def Unpolled (e : Step) : Prop := ∀ maxi fds, e.output ≠ .polled maxi fds

theorem round_reports (trace more : List Step) (quiet : ∀ e ∈ more, Unpolled e) :
    (round (trace ++ more)).reports = (round trace).reports := by
  induction more generalizing trace with
  | nil => rw [List.append_nil]
  | cons e rest ih =>
      have first := quiet e List.mem_cons_self
      rw [List.append_cons, ih _ fun d member => quiet d (List.mem_cons_of_mem e member),
        round_snoc]
      cases happened : e.output with
      | polled maxi fds => exact absurd happened (first maxi fds)
      | accepted connfd => rfl
      | read sockfd received => rfl
      | quiet => rfl

structure Heading (client : Nat → Pollfd) (m k : Nat) (s : State) : Prop where
  same : s.client = client
  maxi : s.maxi = k
  place : ∃ i nready, s.place = .scan i nready ∧ i ≤ k ∧ ((reported client i m).length : Int) < nready

def distance (k : Nat) (s : State) : Nat :=
  match s.place with
  | .scan i _ => k - i
  | _ => 0

theorem heading_goes {client : Nat → Pollfd} {m k : Nat} {s : State}
    (free : ∀ j, m < j → j < k → (client j).fd = none) (heading : Heading client m k s)
    (away : distance k s ≠ 0) :
    ∃ e, e.before = s ∧ (machine openMax listenfd).Stepped e ∧ Unpolled e ∧
      Heading client m k e.after ∧ distance k e.after < distance k s := by
  obtain ⟨rfl, maxi, i, nready, here, _, more⟩ := heading
  simp only [distance, here] at away
  have inside : i ≤ s.maxi := by omega
  cases found : reportedFd (s.client i) with
  | none =>
      have passes : step openMax s .loop = some ({ s with place := .scan (i + 1) nready }, .quiet) := by
        cases used : (s.client i).fd with
        | none => simp [step, here, inside, used]
        | some sockfd =>
            have idle : (s.client i).revents.readable = false := by
              simpa [reportedFd, used] using found
            simp [step, here, inside, used, idle]
      refine ⟨⟨s, .loop, .quiet, { s with place := .scan (i + 1) nready }⟩, rfl, passes, ?_,
        ⟨rfl, maxi, i + 1, nready, rfl, by omega, ?_⟩, ?_⟩
      · intro _ _ same
        cases same
      · by_cases covered : i ≤ m
        · rw [reported_cons s.client covered, found] at more
          simpa using more
        · rw [reported_nil s.client (by omega)] at more ⊢
          exact more
      · simp only [distance, here]
        omega
  | some sockfd =>
      obtain ⟨filled, ready⟩ := reported_fd_some found
      have covered : i ≤ m := by
        by_contra far
        rw [free i (by omega) (by omega)] at filled
        cases filled
      rw [reported_cons s.client covered, found] at more
      simp only [Option.toList_some, List.singleton_append, List.length_cons] at more
      have goes_on : Place.after i nready = .scan (i + 1) (nready - 1) := if_neg (by omega)
      have reads : step openMax s (.read (.bytes [0])) =
          some ({ s with place := .scan (i + 1) (nready - 1) }, .read sockfd (.bytes [0])) := by
        simp [step, here, inside, filled, ready, readClient, goes_on]
      refine ⟨⟨s, .read (.bytes [0]), .read sockfd (.bytes [0]),
        { s with place := .scan (i + 1) (nready - 1) }⟩, rfl, reads, ?_,
        ⟨rfl, maxi, i + 1, nready - 1, rfl, by omega, by omega⟩, ?_⟩
      · intro _ _ same
        cases same
      · simp only [distance, here]
        omega

theorem stale_heading {s : State} (connfd : Nat) {k : Nat} {nready : Int} {r : Round}
    (polled : Polled r s nready) (ready : (s.client 0).revents.pollrdnorm = true)
    (free : available openMax s.client = some k) (beyond : s.maxi < k)
    (other : ∃ j, 1 ≤ j ∧ j ≤ s.maxi ∧ Other (s.client j)) :
    Heading (Function.update s.client k { s.client k with fd := some connfd }) s.maxi k
      (acceptClient openMax s connfd nready) := by
  obtain ⟨j, from_one, inside, reported_else⟩ := other
  have more := reported_lt_touched from_one inside reported_else
  have count := touched_zero s.client s.maxi
  have listening : (s.client 0).revents ≠ Revents.zero := by
    intro zero
    rw [zero] at ready
    cases ready
  rw [if_pos listening, ← Int.ofNat_inj, ← polled.count] at count
  have same : reported (Function.update s.client k { s.client k with fd := some connfd })
      1 s.maxi = reported s.client 1 s.maxi :=
    reported_congr fun j _ below => Function.update_of_ne (by omega) _ _
  rw [accept_client_eq free]
  refine ⟨rfl, if_pos beyond, 1, nready - 1, if_neg (by omega), by omega, ?_⟩
  rw [same]
  omega

theorem heading_unfaithful {client : Nat → Pollfd} {m k : Nat} (connfd : Nat) (trace : List Step)
    (s : State) (run : (machine openMax listenfd).Run trace s) (heading : Heading client m k s)
    (between : ∀ j, m < j → j < k → (client j).fd = none) (filled : (client k).fd = some connfd)
    (garbage : (client k).revents.readable = true) (unreported : connfd ∉ (round trace).reports) :
    ∃ more last, (machine openMax listenfd).Run (trace ++ more) last ∧
      ¬ Faithful (trace ++ more) last := by
  obtain ⟨more, last, longer, quiet, there, arrived⟩ :=
    run.drain (C := Unpolled) (distance k)
      (fun _ _ _ heading away => heading_goes between heading away) heading
  obtain ⟨same, maxi, i, count, place, near, _⟩ := there
  simp only [distance, place] at arrived
  obtain rfl : i = k := by omega
  let final : Step := ⟨last, .read (.bytes [0]), .read connfd (.bytes [0]),
    { last with place := .after i count }⟩
  have reads : (machine openMax listenfd).Stepped final := by
    simp [Machine.Stepped, machine, step, final, place, maxi, same, filled, garbage, readClient]
  have longest := longer.next final reads
  rw [List.append_assoc] at longest
  refine ⟨more ++ [final], final.after, longest, ?_⟩
  intro faithful
  rw [← List.append_assoc] at faithful
  -- the last read is handled, and Poll has not been called since the accept
  have handled : connfd ∈ (round (trace ++ more ++ [final])).handled := by
    rw [round_snoc]
    simp [Round.next, final]
  have reported_too := faithful.only connfd handled
  rw [round_snoc] at reported_too
  simp only [Round.next, final, round_reports trace more quiet] at reported_too
  exact unreported reported_too

theorem stale_unfaithful (trace : List Step) (e : Step)
    (run : (machine openMax listenfd).Run trace e.before)
    (stepped : (machine openMax listenfd).Stepped e) (unclean : ¬ Clean openMax e) :
    ∃ more last, (machine openMax listenfd).Run (trace ++ e :: more) last ∧
      ¬ Faithful (trace ++ e :: more) last := by
  simp only [Clean, Classical.not_imp, not_not] at unclean
  obtain ⟨does_accept, k, free, beyond, garbage, other⟩ := unclean
  have does := step_does openMax listenfd e stepped
  have tables := run_tables trace e.before run
  have reached := run.next e stepped
  have polledThere := run_polled trace e.before run
  suffices goes : ∃ more last, (machine openMax listenfd).Run (trace ++ [e] ++ more) last ∧
      ¬ Faithful (trace ++ [e] ++ more) last by
    obtain ⟨more, last, longer, unfaithful⟩ := goes
    rw [← List.append_cons] at longer unfaithful
    exact ⟨more, last, longer, unfaithful⟩
  have reports := congrArg Round.reports (round_snoc trace e)
  obtain ⟨s, a, event, after⟩ := e
  simp only at does does_accept free beyond garbage other tables reached polledThere reports
  cases does with
  | @accept nready connfd here ready unused =>
      have polled := polledThere nready here
      refine heading_unfaithful connfd _ _ reached
        (stale_heading connfd polled ready free beyond other) ?_ ?_ ?_ ?_
      · intro j far near
        rw [Function.update_of_ne (by omega)]
        exact tables.beyond j far
      · rw [Function.update_self]
      · rw [Function.update_self]
        exact garbage
      · -- a reported descriptor is in an entry, and this one is new
        rw [reports, polled.round]
        intro member
        obtain ⟨j, held⟩ := mem_reported member
        exact unused (tables.opened j connfd held)
  | poll _ _ => cases does_accept
  | skip _ => cases does_accept
  | read _ _ _ _ _ => cases does_accept
  | pass _ _ _ => cases does_accept
  | finish _ _ => cases does_accept

/-- In a run in which no connection gets a stale entry, read is called for what
Poll reported and for all of it. Once one does get such an entry, the run goes on
to a read that nothing was reported for. -/
theorem tcpservpoll01_reads_reported (openMax listenfd : Nat) :
    (∀ (trace : List Step) (s : State), (machine openMax listenfd).Run trace s →
      (∀ e ∈ trace, Clean openMax e) → Faithful trace s) ∧
    (∀ (trace : List Step) (e : Step), (machine openMax listenfd).Run trace e.before →
      (machine openMax listenfd).Stepped e → ¬ Clean openMax e →
      ∃ more last, (machine openMax listenfd).Run (trace ++ e :: more) last ∧
        ¬ Faithful (trace ++ e :: more) last) :=
  ⟨run_faithful, stale_unfaithful⟩

/-! One connection is there and a second arrives; the memory of its entry, 2, has
POLLRDNORM in it. With the first connection reported to be read nothing goes
wrong; with POLLHUP for it, the server reads from the second. -/

def rdnorm : Revents := ⟨true, false, false, false⟩
def hangup : Revents := ⟨false, false, true, false⟩

def begun : State where
  client i := if i = 0 then ⟨some 3, Revents.zero⟩
    else if i = 2 then ⟨none, rdnorm⟩ else ⟨none, Revents.zero⟩
  maxi := 0
  opened := {0, 1, 2, 3}
  place := .poll

theorem begun_start : (machine 1024 3).start begun := by
  refine ⟨rfl, ?_, rfl, by decide, rfl⟩
  intro i later
  have nonzero : i ≠ 0 := by omega
  simp only [begun, nonzero, if_false]
  split <;> rfl

def secondArrives (first : Revents) : List Action :=
  [.poll fun i => if i = 0 then rdnorm else Revents.zero, .accept 4,
    .poll fun i => if i = 0 then rdnorm else first, .accept 5]

instance (s : State) (k : Nat) : Decidable (∃ j, 1 ≤ j ∧ j ≤ k ∧ Other (s.client j)) :=
  decidable_of_iff (∃ j, j < k + 1 ∧ 1 ≤ j ∧
      ((s.client j).revents ≠ Revents.zero ∧ (s.client j).revents.readable = false)) <| by
    constructor
    · rintro ⟨j, below, from_one, other⟩
      exact ⟨j, from_one, by omega, other⟩
    · rintro ⟨j, from_one, below, other⟩
      exact ⟨j, by omega, from_one, other⟩

theorem first_connection_read :
    ∃ (trace : List Step) (s : State), (machine 1024 3).Run trace s ∧
      s.place = .poll ∧ (round trace).handled = [4] ∧ Faithful trace s := by
  obtain ⟨trace, s, run, checked⟩ := Machine.run_of_check begun_start
    (secondArrives rdnorm ++ [.read (.bytes [7])])
    (fun r => decide (r.2.place = .poll ∧ (round r.1).handled = [4] ∧ ∀ e ∈ r.1,
      ¬ (accepts e.action = true ∧
        ∃ j, 1 ≤ j ∧ j ≤ e.before.maxi ∧ Other (e.before.client j))))
    (by decide +kernel)
  obtain ⟨top, handled, clean⟩ := of_decide_eq_true checked
  refine ⟨trace, s, run, top, handled, (tcpservpoll01_reads_reported 1024 3).1 trace s run ?_⟩
  rintro e member does ⟨_, _, _, _, other⟩
  exact clean e member ⟨does, other⟩

theorem unreported_connection_read :
    ∃ (trace : List Step) (s : State), (machine 1024 3).Run trace s ∧ ¬ Faithful trace s := by
  obtain ⟨trace, s, run, checked⟩ := Machine.run_of_check begun_start
    (secondArrives hangup ++ ([.loop, .read (.bytes [7])] : List Action))
    (fun r => decide (5 ∈ (round r.1).handled ∧ 5 ∉ (round r.1).reports))
    (by decide +kernel)
  obtain ⟨handled, unreported⟩ := of_decide_eq_true checked
  exact ⟨trace, s, run, fun faithful => unreported (faithful.only 5 handled)⟩

end NetworkProgramming.TcpServPoll01
