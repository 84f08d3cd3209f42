import Mathlib.Data.List.Infix
import NetworkProgramming.StrCliEpoll06

/-!
When str_cli with epoll gets to its end. All that has arrived is on stdout, in
Readline, or still in the socket. What Readline keeps is hidden from epoll_wait,
so a line there waits for the next byte from the server; and once stdin is out
of the interest list the loop must not come back to its top.
-/

namespace NetworkProgramming.StrCliEpoll06

open CText

def inHand : Place → List UInt8
  | .readline stored _ => stored
  | _ => []

/-- The echo carries no NUL, and every byte of it is somewhere. -/
structure Stream (s : State) : Prop where
  sent : 0 ∉ s.sent
  arrived : 0 ∉ s.arrived
  split : s.arrived = s.stdout ++ inHand s.place ++ s.lookAhead ++ s.pending

/-- What the end of the input and the server's FIN mean. -/
structure Ending (s : State) : Prop where
  input : s.stdineof = true → s.input = []
  fin : s.fin = true → s.stdineof = true ∧ s.sent = []

theorem Stream.moved {s : State} {place : Place} (stream : Stream s)
    (before : inHand s.place = []) (after : inHand place = []) :
    Stream { s with place := place } := by
  obtain ⟨sent, arrived, split⟩ := stream
  rw [before] at split
  refine ⟨sent, arrived, ?_⟩
  rw [after]
  exact split

theorem Stream.added {s : State} {fd : Fd} {added : Bool} {place : Place} (stream : Stream s)
    (before : inHand s.place = []) (after : inHand place = []) :
    Stream (addFd s fd added place) := by
  have moved : Stream { s with place := place } := stream.moved before after
  unfold addFd
  split
  · exact ⟨moved.sent, moved.arrived, moved.split⟩
  · exact stream.moved before rfl

theorem read_stdin_stream (s : State) (evlist : List EpollEvent) (stream : Stream s)
    (none_in_hand : inHand s.place = []) : Stream (readStdin s evlist) := by
  obtain ⟨sent, arrived, split⟩ := stream
  rw [none_in_hand] at split
  unfold readStdin
  split
  · exact ⟨sent, arrived, split⟩
  · refine ⟨?_, arrived, split⟩
    rw [List.mem_append, not_or]
    exact ⟨sent, c_string_free _⟩

theorem finished_written {s : State} {c : UInt8} {stored lookAhead : List UInt8}
    {evlist : List EpollEvent} (stream : Stream s) (here : s.place = .readline stored evlist)
    (buffered : s.lookAhead = c :: lookAhead) : cString (stored ++ [c]) = stored ++ [c] := by
  apply c_string_whole
  intro zero
  apply stream.arrived
  rw [stream.split, here, buffered]
  simp only [inHand, List.mem_append, List.mem_cons, List.not_mem_nil, or_false] at zero ⊢
  rcases zero with early | last
  · exact Or.inl (Or.inl (Or.inr early))
  · exact Or.inl (Or.inr (Or.inl last))

theorem does_stream {s after : State} {a : Action} (does : Does s a after) (stream : Stream s) :
    Stream after := by
  have ⟨sent, arrived, split⟩ := stream
  cases does with
  | addStdin here => exact stream.added (by rw [here]; rfl) rfl
  | addSockfd here => exact stream.added (by rw [here]; rfl) rfl
  | @echo count _ _ =>
      refine ⟨fun zero => sent (List.mem_of_mem_drop zero), ?_, ?_⟩
      · rw [List.mem_append, not_or]
        exact ⟨arrived, fun zero => sent (List.mem_of_mem_take zero)⟩
      · rw [split]
        simp only [List.append_assoc]
  | close _ _ => exact ⟨sent, arrived, split⟩
  | epollWait here _ => exact stream.moved (by rw [here]; rfl) rfl
  | delStdin here _ =>
      have outside : inHand s.place = [] := by
        rw [here]
        rfl
      have moved : Stream { s with place := .wait } := stream.moved outside rfl
      unfold delStdin
      split
      · exact ⟨sent, arrived, moved.split⟩
      · exact stream.moved outside rfl
  | top here _ => exact stream.moved (by rw [here]; rfl) rfl
  | bottom here => exact stream.moved (by rw [here]; rfl) rfl
  | socket here => exact stream.moved (by rw [here]; rfl) rfl
  | stdin here => exact read_stdin_stream s _ stream (by rw [here]; rfl)
  | skip here => exact stream.moved (by rw [here]; rfl) rfl
  | read here empty _ =>
      refine ⟨sent, arrived, ?_⟩
      rw [split, empty]
      simp
  | finish here buffered _ =>
      -- no NUL in the line, so Fputs writes all of it
      refine ⟨sent, arrived, ?_⟩
      rw [finished_written stream here buffered, split, here, buffered]
      simp [inHand]
  | store here buffered _ =>
      refine ⟨sent, arrived, ?_⟩
      rw [split, here, buffered]
      simp [inHand]
  | @eof stored evlist here empty _ _ =>
      rw [here] at split
      cases stored with
      | nil => exact stream.moved (by rw [here]; rfl) (by cases s.stdineof <;> rfl)
      | cons c more =>
          have whole : cString (c :: more) = c :: more := by
            apply c_string_whole
            intro zero
            apply arrived
            rw [split]
            exact List.mem_append_left _ (List.mem_append_left _ (List.mem_append_right _ zero))
          refine ⟨sent, arrived, ?_⟩
          simpa [readlineReturns, whole, inHand] using split

theorem does_ending {s after : State} {a : Action} (does : Does s a after) (ending : Ending s) :
    Ending after := by
  obtain ⟨input, fin⟩ := ending
  cases does with
  | @addStdin added _ => cases added <;> exact ⟨input, fin⟩
  | @addSockfd added _ => cases added <;> exact ⟨input, fin⟩
  | @echo count _ inside =>
      refine ⟨input, ?_⟩
      intro ended
      refine ⟨(fin ended).1, ?_⟩
      simp only [(fin ended).2, List.drop_nil]
  | close ended echoed => exact ⟨input, fun _ => ⟨ended, echoed⟩⟩
  | stdin here =>
      unfold readStdin
      split
      · rename_i none_left
        exact ⟨fun _ => (fgets_none maxline s.input).mp none_left,
          fun ended => ⟨rfl, (fin ended).2⟩⟩
      · rename_i sendline rest got
        have more : s.stdineof = false := by
          by_contra ended
          rw [input (by simpa using ended)] at got
          cases got
        refine ⟨?_, ?_⟩
        · intro ended
          rw [more] at ended
          cases ended
        · intro ended
          rw [(fin ended).1] at more
          cases more
  | delStdin _ _ =>
      unfold delStdin
      split <;> exact ⟨input, fin⟩
  | @eof stored evlist _ _ _ _ =>
      cases stored <;> exact ⟨input, fin⟩
  | epollWait _ _ => exact ⟨input, fin⟩
  | top _ _ => exact ⟨input, fin⟩
  | bottom _ => exact ⟨input, fin⟩
  | socket _ => exact ⟨input, fin⟩
  | skip _ => exact ⟨input, fin⟩
  | read _ _ _ => exact ⟨input, fin⟩
  | finish _ _ _ => exact ⟨input, fin⟩
  | store _ _ _ => exact ⟨input, fin⟩

/-! The condition. -/

structure AtEnd (s : State) : Prop where
  buffered : s.lookAhead = []
  pending : s.pending = []
  fin : s.fin = true

/-- Both descriptors can be added, an epoll_wait without stdin wakes for nothing
but the end of the socket, and a Readline that empties the socket leaves no
other line in its buffer. -/
def Fits (e : Step) : Prop :=
  match e.action with
  | .add added => added = true
  | .epollWait evlist => e.before.registered .stdin = false →
      evlist = [⟨.sockfd, true⟩] ∧ e.before.lookAhead = [] ∧ e.before.pending = []
  | .myRead => match e.before.place, e.before.lookAhead with
      | .readline stored _, c :: lookAhead =>
          Finished stored c → e.before.pending = [] → newline ∉ lookAhead
      | _, _ => True
  | _ => True

def Started (place : Place) : Prop :=
  match place with
  | .addStdin | .epollCtlError => False
  | _ => True

def Last (s : State) : Prop :=
  match s.place with
  | .addStdin => True
  | .addSockfd => False
  | .wait => True
  | .events evlist => evlist = [⟨.sockfd, true⟩] ∧ AtEnd s
  | .readline stored evlist => stored = [] ∧ evlist = [] ∧ AtEnd s
  | .returned => True
  | .top => False
  | .terminatedPrematurely => False
  | .epollCtlError => False

structure Removed (s : State) : Prop where
  alive : s.place ≠ .epollCtlError
  ended : s.registered .stdin = false → Started s.place → s.stdineof = true
  last : s.registered .stdin = false → Last s

theorem last_here {s : State} {place : Place} (last : Last s) (here : s.place = place) :
    Last { s with place := place } := by
  subst here
  exact last

theorem Last.mono {s t : State} (last : Last s) (same : t.place = s.place)
    (at_end : AtEnd s → AtEnd t) : Last t := by
  unfold Last at last ⊢
  rw [same]
  cases here : s.place with
  | events evlist =>
      rw [here] at last
      exact ⟨last.1, at_end last.2⟩
  | readline stored evlist =>
      rw [here] at last
      exact ⟨last.1, last.2.1, at_end last.2.2⟩
  | addStdin => trivial
  | addSockfd => rwa [here] at last
  | wait => trivial
  | returned => trivial
  | top => rwa [here] at last
  | terminatedPrematurely => rwa [here] at last
  | epollCtlError => rwa [here] at last

theorem does_over {s after : State} {a : Action} (does : Does s a after)
    (ended : s.registered .stdin = false → Started s.place → s.stdineof = true) :
    after.registered .stdin = false → Started after.place → after.stdineof = true := by
  intro gone started
  cases does with
  | @addStdin added here =>
      cases added with
      | true => simp [addFd] at gone
      | false => exact absurd started id
  | @addSockfd added here =>
      cases added with
      | true => exact ended (by simpa [addFd] using gone) (by rw [here]; trivial)
      | false => exact absurd started id
  | delStdin _ eof =>
      unfold delStdin
      split <;> exact eof
  | stdin here =>
      unfold readStdin at gone ⊢
      split
      · rfl
      · rename_i got
        rw [got] at gone
        exact ended gone (by rw [here]; trivial)
  | @eof stored _ here _ _ _ =>
      have before := fun gone => ended gone (by rw [here]; trivial)
      cases stored <;> exact before gone
  | echo _ _ => exact ended gone started
  | close _ _ => exact ended gone started
  | epollWait here _ => exact ended gone (by rw [here]; trivial)
  | top here _ => exact ended gone (by rw [here]; trivial)
  | bottom here => exact ended gone (by rw [here]; trivial)
  | socket here => exact ended gone (by rw [here]; trivial)
  | skip here => exact ended gone (by rw [here]; trivial)
  | read here _ _ => exact ended gone (by rw [here]; trivial)
  | finish here _ _ => exact ended gone (by rw [here]; trivial)
  | store here _ _ => exact ended gone (by rw [here]; trivial)

theorem Removed.watched {s : State} {place : Place} (removed : Removed s) (here : s.place = place)
    (other : ¬ Last { s with place := place }) : s.registered .stdin = true := by
  cases there : s.registered .stdin with
  | true => rfl
  | false => exact absurd (last_here (removed.last there) here) other

theorem watched_removed {s : State} (alive : s.place ≠ .epollCtlError)
    (there : s.registered .stdin = true) : Removed s := by
  have watched : s.registered .stdin ≠ false := by
    rw [there]
    exact Bool.noConfusion
  exact ⟨alive, fun gone _ => absurd gone watched, fun gone => absurd gone watched⟩

theorem does_removed {s after : State} {a : Action} (does : Does s a after) (ending : Ending s)
    (fits : Fits ⟨s, a, (), after⟩) (removed : Removed s) : Removed after := by
  have ended := does_over does removed.ended
  cases does with
  | addStdin here =>
      cases fits
      exact watched_removed (by simp [addFd]) (by simp [addFd])
  | addSockfd here =>
      cases fits
      have there := removed.watched here id
      exact watched_removed (by simp [addFd]) (by simpa [addFd] using there)
  | @echo count some_ inside =>
      refine ⟨removed.alive, ended, ?_⟩
      intro gone
      -- at the end of the socket the server has nothing to send
      refine (removed.last gone).mono rfl fun at_end => ?_
      have nothing := (ending.fin at_end.fin).2
      rw [nothing, List.length_nil] at inside
      omega
  | close _ _ =>
      exact ⟨removed.alive, ended, fun gone => (removed.last gone).mono rfl fun at_end =>
        ⟨at_end.buffered, at_end.pending, rfl⟩⟩
  | epollWait here reported =>
      refine ⟨by simp, ended, ?_⟩
      intro gone
      obtain ⟨rfl, buffered, pending⟩ := fits gone
      refine ⟨rfl, buffered, pending, ?_⟩
      rcases reported.2.2.2 List.mem_cons_self with more | fin
      · exact absurd pending more
      · exact fin
  | delStdin here eof =>
      -- the loop is back at its top, so this is the first Epoll_ctl
      have there := removed.watched here id
      rw [delStdin, if_pos there]
      exact ⟨by simp, fun _ _ => eof, fun _ => trivial⟩
  | top here more => exact ⟨by simp, ended, fun _ => trivial⟩
  | bottom here =>
      have there := removed.watched here fun last => nomatch last.1
      exact watched_removed (by simp) there
  | socket here =>
      refine ⟨by simp, ended, ?_⟩
      intro gone
      obtain ⟨same, at_end⟩ := last_here (removed.last gone) here
      cases same
      exact ⟨rfl, rfl, at_end.buffered, at_end.pending, at_end.fin⟩
  | @stdin evlist here =>
      have there := removed.watched here fun last => nomatch last.1
      unfold readStdin
      split
      · exact watched_removed (by simp) there
      · exact watched_removed (by simp) there
  | skip here =>
      have there := removed.watched here fun last => nomatch last.1
      exact watched_removed (by simp) there
  | @read count stored evlist here empty inside =>
      refine ⟨by simp [here], ended, ?_⟩
      intro gone
      obtain ⟨none_stored, rfl, at_end⟩ := last_here (removed.last gone) here
      have drained : s.pending = [] := at_end.pending
      simp only [Last, here]
      exact ⟨none_stored, trivial, by simp [drained], by simp [drained], at_end.fin⟩
  | finish here buffered _ =>
      have there := removed.watched here fun last => by
        rw [show s.lookAhead = [] from last.2.2.buffered] at buffered
        cases buffered
      exact watched_removed (by simp) there
  | store here buffered _ =>
      have there := removed.watched here fun last => by
        rw [show s.lookAhead = [] from last.2.2.buffered] at buffered
        cases buffered
      exact watched_removed (by simp) there
  | @eof stored evlist here empty drained fin =>
      cases stored with
      | nil =>
          -- the FIN comes after the end of the input, so Readline's 0 is expected
          have eof : s.stdineof = true := (ending.fin fin).1
          simp only [readlineReturns, eof, if_true]
          exact ⟨by simp, fun _ _ => rfl, fun _ => trivial⟩
      | cons c more =>
          have there := removed.watched here fun last => nomatch last.1
          exact watched_removed (by simp [readlineReturns]) there

/-! Lines in Readline's buffer. -/

/-- Outside Readline, a line in the buffer has bytes behind it in the socket. -/
def Announced (s : State) : Prop :=
  (∀ stored evlist, s.place ≠ .readline stored evlist) → s.pending = [] → newline ∉ s.lookAhead

theorem Announced.outside {s : State} (announced : Announced s)
    (outside : ∀ stored evlist, s.place ≠ .readline stored evlist) (place : Place) :
    Announced { s with place := place } :=
  fun _ drained => announced outside drained

theorem does_announced {s after : State} {a : Action} (does : Does s a after)
    (fits : Fits ⟨s, a, (), after⟩) (announced : Announced s) : Announced after := by
  cases does with
  | @addStdin added here => cases added <;> exact announced.outside (by simp [here]) _
  | @addSockfd added here => cases added <;> exact announced.outside (by simp [here]) _
  | @echo count some_ inside =>
      intro outside drained
      -- bytes have just come, so the stream is not drained
      have nothing := (List.append_eq_nil_iff.mp drained).2
      have length := congrArg List.length nothing
      simp only [List.length_take, List.length_nil] at length
      omega
  | close _ _ => exact announced
  | epollWait here _ => exact announced.outside (by simp [here]) _
  | delStdin here _ =>
      unfold delStdin
      split
      · exact announced.outside (by simp [here]) _
      · exact announced.outside (by simp [here]) _
  | top here _ => exact announced.outside (by simp [here]) _
  | bottom here => exact announced.outside (by simp [here]) _
  | socket here => exact announced.outside (by simp [here]) _
  | stdin here =>
      unfold readStdin
      split
      · exact announced.outside (by simp [here]) _
      · exact announced.outside (by simp [here]) _
  | skip here => exact announced.outside (by simp [here]) _
  | read here _ _ =>
      intro outside
      exact absurd here (outside _ _)
  | finish here buffered finished =>
      intro _ drained
      -- the line ends here, and the condition says what the look-ahead may still hold
      simp only [Fits, here, buffered] at fits
      exact fits finished drained
  | store here _ _ =>
      intro outside
      exact absurd rfl (outside _ _)
  | @eof stored evlist here empty _ _ =>
      intro _ _
      have same : (readlineReturns s stored evlist).lookAhead = s.lookAhead := by
        cases stored <;> rfl
      rw [same, empty]
      exact List.not_mem_nil

/-! What str_cli promises. -/

/-- Epoll_ctl has not failed, and in an epoll_wait with nothing in the socket
every complete line is on stdout. -/
structure Promise (s : State) : Prop where
  alive : s.place ≠ .epollCtlError
  written : s.place = .wait → s.pending = [] →
    ∀ lines, lines <+: s.arrived → lines.getLast? = some newline → lines <+: s.stdout

/-- A part of `whole` that ends in `last` does not go on into a `rest` without it. -/
theorem ends_before {part whole rest : List UInt8} {last : UInt8} (absent : last ∉ rest)
    (begins : part <+: whole ++ rest) (ends : part.getLast? = some last) : part <+: whole := by
  rcases List.prefix_or_prefix_of_prefix begins (List.prefix_append whole rest) with inside | ended
  · exact inside
  · obtain ⟨more, rfl⟩ := ended
    have into := (List.prefix_append_right_inj whole).mp begins
    cases more with
    | nil => rw [List.append_nil]
    | cons b tail =>
        rw [List.getLast?_append_of_ne_nil _ (List.cons_ne_nil b tail)] at ends
        exact absurd (into.subset (List.mem_of_getLast? ends)) absent

structure Inv (s : State) : Prop where
  stream : Stream s
  ending : Ending s

theorem begin_inv (input : List UInt8) : Inv (begin input) :=
  ⟨⟨List.not_mem_nil, List.not_mem_nil, rfl⟩, ⟨by simp [begin], by simp [begin]⟩⟩

theorem run_inv (input : List UInt8) (trace : List Step) (s : State)
    (run : (machine input).Run trace s) : Inv s :=
  run.invariant (fun _ first => first ▸ begin_inv input) fun e stepped inv =>
    ⟨does_stream (step_does input e stepped) inv.stream,
      does_ending (step_does input e stepped) inv.ending⟩

theorem run_promise (input : List UInt8) (trace : List Step) (s : State)
    (run : (machine input).Run trace s) (met : ∀ e ∈ trace, Fits e) : Promise s := by
  have kept : Inv s ∧ Removed s ∧ Announced s := by
    refine run.preserves (C := Fits) (I := fun s => Inv s ∧ Removed s ∧ Announced s) ?_ ?_ met
    · rintro s rfl
      exact ⟨begin_inv input, ⟨by simp [begin], fun _ started => absurd started id, fun _ => trivial⟩,
        fun _ _ => List.not_mem_nil⟩
    · rintro e stepped fits ⟨inv, removed, announced⟩
      have does := step_does input e stepped
      exact ⟨⟨does_stream does inv.stream, does_ending does inv.ending⟩,
        does_removed does inv.ending fits removed, does_announced does fits announced⟩
  obtain ⟨inv, removed, announced⟩ := kept
  refine ⟨removed.alive, ?_⟩
  intro here drained lines begins ends
  have absent := announced (by simp [here]) drained
  have split := inv.stream.split
  rw [here, drained] at split
  simp only [inHand, List.append_nil] at split
  rw [split] at begins
  exact ends_before absent begins ends

/-! The condition is exact: what happens after a step that misses it. -/

def Distinct (s : State) : Prop :=
  match s.place with
  | .events evlist => (evlist.map EpollEvent.fd).Nodup
  | .readline _ evlist => (Fd.sockfd :: evlist.map EpollEvent.fd).Nodup
  | _ => True

theorem distinct_here {s : State} {place : Place} (distinct : Distinct s) (here : s.place = place) :
    Distinct { s with place := place } := by
  subst here
  exact distinct

theorem does_distinct {s after : State} {a : Action} (does : Does s a after)
    (distinct : Distinct s) : Distinct after := by
  cases does with
  | @addStdin added here => cases added <;> trivial
  | @addSockfd added here => cases added <;> trivial
  | epollWait _ reported => exact reported.2.1
  | socket here =>
      have before := distinct_here distinct here
      exact before
  | stdin here =>
      have before := distinct_here distinct here
      unfold readStdin
      split <;> exact (List.nodup_cons.mp before).2
  | skip here => exact (List.nodup_cons.mp (distinct_here distinct here)).2
  | finish here _ _ => exact (List.nodup_cons.mp (distinct_here distinct here)).2
  | store here _ _ => exact distinct_here distinct here
  | @eof stored evlist here _ _ _ =>
      have before := distinct_here distinct here
      cases stored with
      | nil => cases ended : s.stdineof <;> simp [readlineReturns, ended, Distinct]
      | cons c more => exact (List.nodup_cons.mp before).2
  | delStdin _ _ =>
      unfold delStdin
      split <;> trivial
  | top _ _ => trivial
  | bottom _ => trivial
  | echo _ _ => exact distinct
  | close _ _ => exact distinct
  | read _ _ _ => exact distinct

theorem run_distinct (input : List UInt8) (trace : List Step) (s : State)
    (run : (machine input).Run trace s) :
    Distinct s ∧ (s.registered .stdin = false → Started s.place → s.stdineof = true) :=
  run.invariant
    (I := fun s => Distinct s ∧ (s.registered .stdin = false → Started s.place → s.stdineof = true))
    (fun s first => by subst first; exact ⟨trivial, fun _ started => absurd started id⟩)
    fun e stepped kept => ⟨does_distinct (step_does input e stepped) kept.1,
      does_over (step_does input e stepped) kept.2⟩

theorem went_stepped (input : List UInt8) {s after : State} {a : Action}
    (went : next s a = some after) : (machine input).Stepped ⟨s, a, (), after⟩ := by
  simp [Machine.Stepped, machine, went]

/-! A line left in Readline's buffer is still there in the next epoll_wait. -/

/-- On the way to the next epoll_wait with nothing in the socket. -/
structure Stranded (s : State) : Prop where
  line : newline ∈ s.lookAhead
  drained : s.pending = []
  place : (∃ evlist, s.place = .events evlist ∧ Fd.sockfd ∉ evlist.map EpollEvent.fd) ∨
    s.place = .top ∨ s.place = .wait ∨ s.place = .epollCtlError

def beforeWait (s : State) : Nat :=
  match s.place with
  | .events evlist => evlist.length + 2
  | .top => 1
  | _ => 0

theorem stranded_goes (input : List UInt8) {s : State} (stranded : Stranded s)
    (away : beforeWait s ≠ 0) :
    ∃ e : Step, e.before = s ∧ (machine input).Stepped e ∧ True ∧ Stranded e.after ∧
      beforeWait e.after < beforeWait s := by
  obtain ⟨line, drained, ⟨evlist, here, no_socket⟩ | here | here | here⟩ := stranded
  -- none of the events that are left is of the socket, so no Readline comes
  · cases evlist with
    | nil =>
        refine ⟨⟨s, .loop, (), { s with place := .top }⟩, rfl,
          went_stepped input (by simp [next, loop, here]), trivial,
          ⟨line, drained, Or.inr (Or.inl rfl)⟩, ?_⟩
        simp [beforeWait, here]
    | cons ev rest =>
        obtain ⟨fd, readable⟩ := ev
        simp only [List.map_cons, List.mem_cons, not_or] at no_socket
        cases readable with
        | false =>
            refine ⟨⟨s, .loop, (), { s with place := .events rest }⟩, rfl,
              went_stepped input (by simp [next, loop, here]), trivial,
              ⟨line, drained, Or.inl ⟨rest, rfl, no_socket.2⟩⟩, ?_⟩
            simp [beforeWait, here]
        | true =>
            cases fd with
            | sockfd => exact absurd rfl no_socket.1
            | stdin =>
                have same : (readStdin s rest).lookAhead = s.lookAhead ∧
                    (readStdin s rest).pending = s.pending ∧
                    (readStdin s rest).place = .events rest := by
                  unfold readStdin
                  split <;> exact ⟨rfl, rfl, rfl⟩
                refine ⟨⟨s, .loop, (), readStdin s rest⟩, rfl,
                  went_stepped input (by simp [next, loop, here]), trivial,
                  ⟨by rw [same.1]; exact line, by rw [same.2.1]; exact drained,
                    Or.inl ⟨rest, same.2.2, no_socket.2⟩⟩, ?_⟩
                simp [beforeWait, here, same]
  · by_cases ended : s.stdineof = true
    · refine ⟨⟨s, .loop, (), delStdin s⟩, rfl, went_stepped input (by simp [next, loop, here, ended]),
        trivial, ?_, ?_⟩
      · unfold delStdin
        split
        · exact ⟨line, drained, Or.inr (Or.inr (Or.inl rfl))⟩
        · exact ⟨line, drained, Or.inr (Or.inr (Or.inr rfl))⟩
      · unfold delStdin
        split <;> simp [beforeWait, here]
    · refine ⟨⟨s, .loop, (), { s with place := .wait }⟩, rfl,
        went_stepped input (by simp [next, loop, here, ended]), trivial,
        ⟨line, drained, Or.inr (Or.inr (Or.inl rfl))⟩, ?_⟩
      simp [beforeWait, here]
  · simp [beforeWait, here] at away
  · simp [beforeWait, here] at away

theorem stranded_breaks (input : List UInt8) (trace : List Step) (s : State)
    (run : (machine input).Run trace s) (stranded : Stranded s) :
    ∃ more last, (machine input).Run (trace ++ more) last ∧ ¬ Promise last := by
  obtain ⟨more, last, longer, _, there, arrived⟩ :=
    run.drain (C := fun _ => True) beforeWait
      (fun _ _ _ stranded away => stranded_goes input stranded away) stranded
  refine ⟨more, last, longer, ?_⟩
  intro promise
  obtain ⟨line, drained, ⟨evlist, here, _⟩ | here | here | here⟩ := there
  · simp [beforeWait, here] at arrived
  · simp [beforeWait, here] at arrived
  · -- the line in the buffer has arrived and is not on stdout
    have split := (run_inv input _ last longer).stream.split
    rw [here, drained] at split
    simp only [inHand, List.append_nil] at split
    obtain ⟨before, after, cut⟩ := List.append_of_mem line
    have written := promise.written here drained (last.stdout ++ (before ++ [newline]))
      ⟨after, by rw [split, cut]; simp⟩ (by simp)
    have longer_than := written.length_le
    simp only [List.length_append, List.length_singleton] at longer_than
    omega
  · exact promise.alive here

/-! Once stdin is out of the interest list, bytes from the server lead back to
the top of the loop. -/

/-- Readline is going to return something, or has. -/
structure Doomed (s : State) : Prop where
  gone : s.registered .stdin = false
  ended : s.stdineof = true
  place : (∃ stored, s.place = .readline stored [] ∧
      (stored ≠ [] ∨ s.lookAhead ≠ [] ∨ s.pending ≠ [])) ∨
    s.place = .events [] ∨ s.place = .top ∨ s.place = .epollCtlError

def beforeError (s : State) : Nat :=
  match s.place with
  | .readline _ _ =>
      3 * s.sent.length + 2 * s.pending.length + s.lookAhead.length + (!s.fin).toNat + 3
  | .events _ => 2
  | .top => 1
  | _ => 0

theorem doomed_goes (input : List UInt8) {s : State} (doomed : Doomed s)
    (away : beforeError s ≠ 0) :
    ∃ e : Step, e.before = s ∧ (machine input).Stepped e ∧ True ∧ Doomed e.after ∧
      beforeError e.after < beforeError s := by
  obtain ⟨gone, ended, ⟨stored, here, something⟩ | here | here | here⟩ := doomed
  -- Readline takes what is buffered, then the socket, then what the server has, up to the FIN
  · cases buffered : s.lookAhead with
    | cons c lookAhead =>
        by_cases finished : Finished stored c
        · refine ⟨⟨s, .myRead, (), _⟩, rfl,
            went_stepped input (by simp [next, myRead, here, buffered, finished]; rfl), trivial,
            ?_, ?_⟩
          · rw [readline_returns_some]
            exact ⟨gone, ended, Or.inr (Or.inl rfl)⟩
          · rw [readline_returns_some]
            simp only [beforeError, here]
            omega
        · refine ⟨⟨s, .myRead, (), { s with
              lookAhead := lookAhead, place := .readline (stored ++ [c]) [] }⟩, rfl,
            went_stepped input (by simp [next, myRead, here, buffered, finished]), trivial,
            ⟨gone, ended, Or.inl ⟨stored ++ [c], rfl, Or.inl (by simp)⟩⟩, ?_⟩
          simp [beforeError, here, buffered]
    | nil =>
        cases waiting : s.pending with
        | cons b rest =>
            refine ⟨⟨s, .read 1, (), { s with lookAhead := [b], pending := rest }⟩, rfl,
              went_stepped input (by simp [next, read, here, buffered, waiting, maxline]), trivial,
              ⟨gone, ended, Or.inl ⟨stored, here, Or.inr (Or.inl (by simp))⟩⟩, ?_⟩
            simp only [beforeError, here, buffered, waiting, List.length_cons, List.length_nil]
            omega
        | nil =>
            rw [buffered, waiting] at something
            simp only [ne_eq, not_true_eq_false, or_false] at something
            by_cases fin : s.fin = true
            · have returns : readlineReturns s stored [] =
                  { s with stdout := s.stdout ++ cString stored, place := .events [] } := by
                cases stored with
                | nil => exact absurd rfl something
                | cons c more => rfl
              refine ⟨⟨s, .eof, (), readlineReturns s stored []⟩, rfl,
                went_stepped input (by simp [next, readEof, here, buffered, waiting, fin]), trivial,
                ?_, ?_⟩
              · rw [returns]
                exact ⟨gone, ended, Or.inr (Or.inl rfl)⟩
              · rw [returns]
                simp only [beforeError, here]
                omega
            · cases echo : s.sent with
              | nil =>
                  refine ⟨⟨s, .close, (), { s with fin := true }⟩, rfl,
                    went_stepped input (by simp [next, ended, echo, fin]), trivial,
                    ⟨gone, ended, Or.inl ⟨stored, here, Or.inl something⟩⟩, ?_⟩
                  simp only [beforeError, here, fin]
                  simp
              | cons b rest =>
                  refine ⟨⟨s, .echo 1, (), { s with
                      sent := rest, arrived := s.arrived ++ [b], pending := s.pending ++ [b] }⟩, rfl,
                    went_stepped input (by simp [next, echo]), trivial,
                    ⟨gone, ended, Or.inl ⟨stored, here, Or.inl something⟩⟩, ?_⟩
                  simp only [beforeError, here, echo, List.length_append, List.length_cons,
                    List.length_nil]
                  omega
  · refine ⟨⟨s, .loop, (), { s with place := .top }⟩, rfl,
      went_stepped input (by simp [next, loop, here]), trivial,
      ⟨gone, ended, Or.inr (Or.inr (Or.inl rfl))⟩, ?_⟩
    simp [beforeError, here]
  -- stdin is no longer registered, so it cannot be deleted again
  · refine ⟨⟨s, .loop, (), { s with place := .epollCtlError }⟩, rfl,
      went_stepped input (by simp [next, loop, here, ended, delStdin, gone]), trivial,
      ⟨gone, ended, Or.inr (Or.inr (Or.inr rfl))⟩, ?_⟩
    simp [beforeError, here]
  · simp [beforeError, here] at away

theorem doomed_breaks (input : List UInt8) (trace : List Step) (s : State)
    (run : (machine input).Run trace s) (doomed : Doomed s) :
    ∃ more last, (machine input).Run (trace ++ more) last ∧ ¬ Promise last := by
  obtain ⟨more, last, longer, _, there, arrived⟩ :=
    run.drain (C := fun _ => True) beforeError
      (fun _ _ _ doomed away => doomed_goes input doomed away) doomed
  refine ⟨more, last, longer, ?_⟩
  intro promise
  obtain ⟨_, _, ⟨stored, here, _⟩ | here | here | here⟩ := there
  · simp [beforeError, here] at arrived
  · simp [beforeError, here] at arrived
  · simp [beforeError, here] at arrived
  · exact promise.alive here

theorem reported_socket {s : State} {evlist : List EpollEvent} (reported : Reported s evlist)
    (gone : s.registered .stdin = false) : ∃ readable, evlist = [⟨.sockfd, readable⟩] := by
  obtain ⟨some_, distinct, registered, _⟩ := reported
  have socket : ∀ ev ∈ evlist, ev.fd = .sockfd := by
    intro ev member
    cases same : ev.fd with
    | sockfd => rfl
    | stdin =>
        have there := registered ev member
        rw [same, gone] at there
        cases there
  cases evlist with
  | nil => exact absurd rfl some_
  | cons ev rest =>
      have first := socket ev List.mem_cons_self
      cases rest with
      | nil => exact ⟨ev.readable, by rw [← first]⟩
      | cons other more =>
          have second := socket other (List.mem_cons_of_mem ev List.mem_cons_self)
          simp [first, second] at distinct

theorem misfit_breaks (input : List UInt8) (trace : List Step) (e : Step)
    (run : (machine input).Run trace e.before) (stepped : (machine input).Stepped e)
    (misfit : ¬ Fits e) :
    ∃ more last, (machine input).Run (trace ++ e :: more) last ∧ ¬ Promise last := by
  have does := step_does input e stepped
  have reached := run.next e stepped
  obtain ⟨distinct, eof⟩ := run_distinct input trace e.before run
  -- it is enough to go on from the step
  suffices goes : ∃ more last, (machine input).Run ((trace ++ [e]) ++ more) last ∧
      ¬ Promise last by
    obtain ⟨more, last, longer, broken⟩ := goes
    exact ⟨more, last, by simpa using longer, broken⟩
  obtain ⟨s, a, _, after⟩ := e
  simp only at does distinct eof
  cases does with
  | @addStdin added here =>
      simp only [Fits, Bool.not_eq_true] at misfit
      subst misfit
      exact ⟨[], _, by simpa using reached, fun promise => promise.alive rfl⟩
  | @addSockfd added here =>
      simp only [Fits, Bool.not_eq_true] at misfit
      subst misfit
      exact ⟨[], _, by simpa using reached, fun promise => promise.alive rfl⟩
  | @finish c stored lookAhead evlist here buffered finished =>
      simp only [Fits, here, buffered, Classical.not_imp, not_not] at misfit
      obtain ⟨_, drained, line⟩ := misfit
      have apart := distinct_here distinct here
      exact stranded_breaks input _ _ reached
        ⟨line, drained, Or.inl ⟨evlist, rfl, (List.nodup_cons.mp apart).1⟩⟩
  | store here buffered inside =>
      simp only [Fits, here, buffered] at misfit
      exact absurd (fun finished => absurd finished inside) misfit
  | @epollWait evlist here reported =>
      simp only [Fits, Classical.not_imp] at misfit
      obtain ⟨gone, other⟩ := misfit
      obtain ⟨readable, rfl⟩ := reported_socket reported gone
      have ended := eof gone (by rw [here]; trivial)
      cases readable with
      | false =>
          let later : Step := ⟨{ s with place := .events [⟨.sockfd, false⟩] }, .loop, (),
            { s with place := .events [] }⟩
          have next_step := reached.next later (went_stepped input rfl)
          obtain ⟨more, last, longer, broken⟩ := doomed_breaks input _ _ next_step
            ⟨gone, ended, Or.inr (Or.inl rfl)⟩
          exact ⟨later :: more, last, by simpa using longer, broken⟩
      | true =>
          have something : s.lookAhead ≠ [] ∨ s.pending ≠ [] := by
            by_contra! nothing
            exact other ⟨rfl, nothing⟩
          let later : Step := ⟨{ s with place := .events [⟨.sockfd, true⟩] }, .loop, (),
            { s with place := .readline [] [] }⟩
          have next_step := reached.next later (went_stepped input rfl)
          obtain ⟨more, last, longer, broken⟩ := doomed_breaks input _ _ next_step
            ⟨gone, ended, Or.inl ⟨[], rfl, Or.inr something⟩⟩
          exact ⟨later :: more, last, by simpa using longer, broken⟩
  | echo _ _ => exact absurd trivial misfit
  | close _ _ => exact absurd trivial misfit
  | delStdin _ _ => exact absurd trivial misfit
  | top _ _ => exact absurd trivial misfit
  | bottom _ => exact absurd trivial misfit
  | socket _ => exact absurd trivial misfit
  | stdin _ => exact absurd trivial misfit
  | skip _ => exact absurd trivial misfit
  | read _ _ _ => exact absurd trivial misfit
  | eof _ _ _ _ => exact absurd trivial misfit

/-- A run keeps the promise as long as its steps meet the condition, and a step
that misses it leads on to a state that breaks the promise. -/
theorem str_cli_epoll06_keeps (input : List UInt8) :
    (∀ (trace : List Step) (s : State), (machine input).Run trace s →
      (∀ e ∈ trace, Fits e) → Promise s) ∧
    (∀ (trace : List Step) (e : Step), (machine input).Run trace e.before →
      (machine input).Stepped e → ¬ Fits e →
      ∃ more last, (machine input).Run (trace ++ e :: more) last ∧ ¬ Promise last) :=
  ⟨run_promise input, misfit_breaks input⟩

/-! Two lines. Echoed and read one at a time, before the end of the input is seen,
they are printed and str_cli returns; with the echo outstanding at that point
Epoll_ctl is called twice, and echoed together the second is not printed. -/

def twoLines : List UInt8 := [97, newline, 98, newline]

def addBoth : List Action := [.add true, .add true]

def sendLine : List Action := [.loop, .epollWait [⟨.stdin, true⟩], .loop, .loop]

def printLine : List Action :=
  [.echo 2, .loop, .epollWait [⟨.sockfd, true⟩], .loop, .read 2, .myRead, .myRead, .loop]

instance (e : Step) : Decidable (Fits e) := by
  unfold Fits
  split
  · infer_instance
  · exact inferInstanceAs (Decidable (_ → _))
  · split
    · exact inferInstanceAs (Decidable (_ → _ → _))
    · exact isTrue trivial
  · exact isTrue trivial

theorem two_lines_printed :
    ∃ (trace : List Step) (s : State), (machine twoLines).Run trace s ∧
      s.place = .returned ∧ s.stdout = twoLines ∧ Promise s := by
  obtain ⟨trace, s, run, checked⟩ := Machine.run_of_check (M := machine twoLines) rfl
    (addBoth ++ sendLine ++ printLine ++ sendLine ++ printLine ++ sendLine ++
      ([.close, .loop, .epollWait [⟨.sockfd, true⟩], .loop, .eof] : List Action))
    (fun r => decide (r.2.place = .returned ∧ r.2.stdout = twoLines ∧ ∀ e ∈ r.1, Fits e))
    (by decide +kernel)
  obtain ⟨returned, printed, fits⟩ := of_decide_eq_true checked
  exact ⟨trace, s, run, returned, printed, (str_cli_epoll06_keeps twoLines).1 trace s run fits⟩

theorem echo_after_eof_fails :
    (∃ (trace : List Step) (s : State), (machine [97, newline]).Run trace s ∧ ¬ Promise s) ∧
      ∃ (trace : List Step) (s : State), (machine twoLines).Run trace s ∧
        s.stdineof = false ∧ ¬ Promise s := by
  constructor
  · obtain ⟨trace, s, run, checked⟩ := Machine.run_of_check (M := machine [97, newline]) rfl
      (addBoth ++ sendLine ++ sendLine ++ printLine ++ ([.loop] : List Action))
      (fun r => decide (r.2.place = .epollCtlError))
      (by decide +kernel)
    exact ⟨trace, s, run, fun promise => promise.alive (of_decide_eq_true checked)⟩
  · obtain ⟨trace, s, run, checked⟩ := Machine.run_of_check (M := machine twoLines) rfl
      (addBoth ++ sendLine ++ sendLine ++ ([.echo 4, .loop, .epollWait [⟨.sockfd, true⟩], .loop, .read 4,
        .myRead, .myRead, .loop, .loop] : List Action))
      (fun r => decide (r.2.place = .wait ∧ r.2.pending = [] ∧ r.2.arrived = twoLines ∧
        r.2.stdout = [97, newline] ∧ r.2.stdineof = false))
      (by decide +kernel)
    obtain ⟨waits, drained, arrived, stdout, more⟩ := of_decide_eq_true checked
    refine ⟨trace, s, run, more, ?_⟩
    intro promise
    have printed := promise.written waits drained twoLines (by rw [arrived]) rfl
    rw [stdout] at printed
    exact absurd printed (by decide)

end NetworkProgramming.StrCliEpoll06
