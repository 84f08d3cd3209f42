import NetworkProgramming.TcpServSelect01

/-!
The descriptor sets of tcpservselect01, and its rounds. The table holds every
connection once, below the two bounds that never shrink, so a scan that has not
counted down to zero still has a reported descriptor ahead of it, and one that
has counted down has handled them all.
-/

namespace NetworkProgramming.TcpServSelect01

variable {fdSetsize listenfd : Nat}

structure Tables (fdSetsize listenfd : Nat) (s : State) : Prop where
  allset : ∀ fd, fd ∈ s.allset ↔ fd = listenfd ∨ ∃ i, s.client i = some fd
  distinct : SlotTable.Distinct s.client
  listen : ∀ i, s.client i ≠ some listenfd
  maxi : ∀ i fd, s.client i = some fd → (i : Int) ≤ s.maxi
  inside : s.maxi < fdSetsize
  maxfd : ∀ fd ∈ s.allset, fd ≤ s.maxfd

structure Opened (fdSetsize listenfd : Nat) (s : State) : Prop where
  listen : listenfd ∈ s.opened
  opened : ∀ i fd, s.client i = some fd → fd ∈ s.opened
  small : ∀ i fd, s.client i = some fd → fd < fdSetsize

theorem start_tables (s : State) (first : (machine fdSetsize listenfd).start s) :
    Tables fdSetsize listenfd s ∧ Opened fdSetsize listenfd s := by
  obtain ⟨empty, maxi, maxfd, allset, opened, _⟩ := first
  have none_held : ∀ i fd, s.client i ≠ some fd := fun i fd => by simp [empty i]
  refine ⟨⟨?_, ?_, ?_, ?_, ?_, ?_⟩, opened, ?_, ?_⟩
  · intro fd
    simp [allset, none_held]
  · intro i j fd here
    exact absurd here (none_held i fd)
  · exact fun i => none_held i listenfd
  · intro i fd here
    exact absurd here (none_held i fd)
  · rw [maxi]
    omega
  · intro fd member
    rw [allset, Finset.mem_singleton] at member
    omega
  · intro i fd here
    exact absurd here (none_held i fd)
  · intro i fd here
    exact absurd here (none_held i fd)

theorem Tables.at_place {s : State} (tables : Tables fdSetsize listenfd s) (place : Place) :
    Tables fdSetsize listenfd { s with place := place } :=
  ⟨tables.allset, tables.distinct, tables.listen, tables.maxi, tables.inside, tables.maxfd⟩

theorem Opened.at_place {s : State} (opened : Opened fdSetsize listenfd s) (place : Place) :
    Opened fdSetsize listenfd { s with place := place } :=
  ⟨opened.listen, opened.opened, opened.small⟩

/-- A free slot for a descriptor that is not in use: "too many clients" is not
reached. -/
theorem free_slot {s : State} {connfd : Nat} (tables : Tables fdSetsize listenfd s)
    (opened : Opened fdSetsize listenfd s) (unused : connfd ∉ s.opened)
    (inside : connfd < fdSetsize) : ∃ i, SlotTable.firstFree fdSetsize s.client = some i :=
  tables.distinct.room fdSetsize connfd opened.small inside
    fun i here => unused (opened.opened i connfd here)

theorem accept_client_eq {s : State} {connfd i : Nat} {rset : Finset Nat} {nready : Int}
    (free : SlotTable.firstFree fdSetsize s.client = some i) :
    acceptClient fdSetsize s connfd rset nready =
      { client := Function.update s.client i (some connfd)
        maxi := if i > s.maxi then i else s.maxi
        maxfd := if connfd > s.maxfd then connfd else s.maxfd
        allset := insert connfd s.allset
        opened := insert connfd s.opened
        place := if nready - 1 ≤ 0 then .select else .scan 0 rset (nready - 1) } := by
  simp only [acceptClient, free]

theorem accept_tables {s : State} {connfd : Nat} {rset : Finset Nat} {nready : Int}
    (tables : Tables fdSetsize listenfd s) (opened : Opened fdSetsize listenfd s)
    (unused : connfd ∉ s.opened) (small : connfd < fdSetsize) :
    Tables fdSetsize listenfd (acceptClient fdSetsize s connfd rset nready) ∧
      Opened fdSetsize listenfd (acceptClient fdSetsize s connfd rset nready) := by
  obtain ⟨i, free⟩ := free_slot tables opened unused small
  obtain ⟨inside, empty⟩ := SlotTable.first_free_some free
  have fresh : ∀ j, s.client j ≠ some connfd := fun j here => unused (opened.opened j connfd here)
  have other : connfd ≠ listenfd := by
    rintro rfl
    exact unused opened.listen
  -- an entry of the new table is the new one, or an old one
  have from_old : ∀ j fd, Function.update s.client i (some connfd) j = some fd →
      (j = i ∧ fd = connfd) ∨ s.client j = some fd := by
    intro j fd here
    by_cases same : j = i
    · subst j
      rw [Function.update_self, Option.some.injEq] at here
      exact Or.inl ⟨rfl, here.symm⟩
    · rw [Function.update_of_ne same] at here
      exact Or.inr here
  rw [accept_client_eq free]
  refine ⟨⟨?_, tables.distinct.put i connfd fresh, ?_, ?_, ?_, ?_⟩, ?_, ?_, ?_⟩
  · intro fd
    rw [Finset.mem_insert, tables.allset fd, SlotTable.holds_put empty]
    constructor
    · rintro (new | listen | old)
      · exact Or.inr (Or.inl new)
      · exact Or.inl listen
      · exact Or.inr (Or.inr old)
    · rintro (listen | new | old)
      · exact Or.inr (Or.inl listen)
      · exact Or.inl new
      · exact Or.inr (Or.inr old)
  · intro j here
    rcases from_old j listenfd here with ⟨_, same⟩ | old
    · exact other same.symm
    · exact tables.listen j old
  · intro j fd here
    dsimp only
    rcases from_old j fd here with ⟨rfl, _⟩ | old
    · split <;> omega
    · have below := tables.maxi j fd old
      split <;> omega
  · have before := tables.inside
    dsimp only
    split <;> omega
  · intro fd member
    dsimp only
    rcases Finset.mem_insert.mp member with rfl | old
    · split <;> omega
    · have below := tables.maxfd fd old
      split <;> omega
  · exact Finset.mem_insert_of_mem opened.listen
  · intro j fd here
    rcases from_old j fd here with ⟨_, rfl⟩ | old
    · exact Finset.mem_insert_self _ _
    · exact Finset.mem_insert_of_mem (opened.opened j fd old)
  · intro j fd here
    rcases from_old j fd here with ⟨_, rfl⟩ | old
    · exact small
    · exact opened.small j fd old

theorem read_tables {s : State} {i sockfd : Nat} {rset : Finset Nat} {nready : Int}
    (received : Received) (tables : Tables fdSetsize listenfd s)
    (opened : Opened fdSetsize listenfd s) (filled : s.client i = some sockfd) :
    Tables fdSetsize listenfd (readClient s i sockfd rset nready received).1 ∧
      Opened fdSetsize listenfd (readClient s i sockfd rset nready received).1 := by
  have other : sockfd ≠ listenfd := by
    rintro rfl
    exact tables.listen i filled
  -- the slot is cleared, and nothing is put into another
  have from_old : ∀ j fd, Function.update s.client i none j = some fd →
      s.client j = some fd ∧ fd ≠ sockfd := by
    intro j fd here
    have present := (tables.distinct.holds_clear filled fd).mp ⟨j, here⟩
    refine ⟨?_, present.1⟩
    by_cases same : j = i
    · subst j
      simp at here
    · rwa [Function.update_of_ne same] at here
  match received with
  | none => exact ⟨tables.at_place _, opened.at_place _⟩
  | some (b :: buf) => exact ⟨tables.at_place _, opened.at_place _⟩
  | some [] =>
      refine ⟨⟨?_, tables.distinct.clear i, ?_, ?_, tables.inside, ?_⟩, ?_, ?_, ?_⟩
      · intro fd
        simp only [readClient]
        rw [Finset.mem_erase, tables.allset fd, tables.distinct.holds_clear filled fd]
        constructor
        · rintro ⟨different, listen | old⟩
          · exact Or.inl listen
          · exact Or.inr ⟨different, old⟩
        · rintro (rfl | ⟨different, old⟩)
          · exact ⟨Ne.symm other, Or.inl rfl⟩
          · exact ⟨different, Or.inr old⟩
      · intro j here
        exact tables.listen j (from_old j listenfd here).1
      · intro j fd here
        exact tables.maxi j fd (from_old j fd here).1
      · intro fd member
        exact tables.maxfd fd (Finset.mem_of_mem_erase member)
      · exact Finset.mem_erase.mpr ⟨Ne.symm other, opened.listen⟩
      · intro j fd here
        obtain ⟨old, different⟩ := from_old j fd here
        exact Finset.mem_erase.mpr ⟨different, opened.opened j fd old⟩
      · intro j fd here
        exact opened.small j fd (from_old j fd here).1

theorem does_tables {s after : State} {event : Event} (does : Does fdSetsize listenfd s event after)
    (tables : Tables fdSetsize listenfd s) (opened : Opened fdSetsize listenfd s) :
    Tables fdSetsize listenfd after ∧ Opened fdSetsize listenfd after := by
  cases does with
  | select _ _ _ => exact ⟨tables.at_place _, opened.at_place _⟩
  | accept _ _ unused inside => exact accept_tables tables opened unused inside
  | skip _ _ => exact ⟨tables.at_place _, opened.at_place _⟩
  | read received _ filled _ => exact read_tables received tables opened filled
  | pass _ _ => exact ⟨tables.at_place _, opened.at_place _⟩
  | finish _ _ => exact ⟨tables.at_place _, opened.at_place _⟩

/-! Rounds: what the last Select reported, and what has been accepted on or read
since. -/

structure Round where
  reported : Finset Nat
  handled : List Nat
  deriving DecidableEq

def Round.next (listenfd : Nat) (r : Round) : Event → Round
  | .selected rset => ⟨rset, []⟩
  | .accepted _ => { r with handled := r.handled ++ [listenfd] }
  | .echoed sockfd _ => { r with handled := r.handled ++ [sockfd] }
  | .closed sockfd => { r with handled := r.handled ++ [sockfd] }
  | .errSys sockfd => { r with handled := r.handled ++ [sockfd] }
  | .quiet => r

def round (listenfd : Nat) (trace : List Step) : Round :=
  trace.foldl (fun r e => r.next listenfd e.output) ⟨∅, []⟩

theorem round_snoc (trace : List Step) (e : Step) :
    round listenfd (trace ++ [e]) = (round listenfd trace).next listenfd e.output := by
  rw [round, List.foldl_append]
  rfl

/-- Nothing is handled that was not reported, and nothing twice. -/
structure Round.Proper (r : Round) : Prop where
  nodup : r.handled.Nodup
  part : ∀ fd ∈ r.handled, fd ∈ r.reported

def Round.Complete (r : Round) : Prop := ∀ fd ∈ r.reported, fd ∈ r.handled

/-- The scan still gets to the descriptor. -/
def Ahead (client : Nat → Option Nat) (i fd : Nat) : Prop := ∃ j, i ≤ j ∧ client j = some fd

def Round.At (r : Round) (s : State) : Prop :=
  match s.place with
  | .select => r.Complete
  | .test rset nready => r = ⟨rset, []⟩ ∧ rset ⊆ s.allset ∧ rset.Nonempty ∧ nready = rset.card
  | .scan i rset nready => r.reported = rset ∧ 0 < nready ∧
      nready + r.handled.length = rset.card ∧
      ∀ fd ∈ rset, Ahead s.client i fd ↔ fd ∉ r.handled
  | .tooManyClients => False
  | .exited => True

theorem Round.Proper.push {r : Round} (proper : r.Proper) {fd : Nat} (ready : fd ∈ r.reported)
    (unhandled : fd ∉ r.handled) : Round.Proper { r with handled := r.handled ++ [fd] } := by
  refine ⟨?_, ?_⟩
  · exact List.nodup_append.mpr ⟨proper.nodup, List.nodup_singleton fd,
      fun a handled b here same => unhandled (by
        rw [List.mem_singleton] at here
        rwa [← here, ← same])⟩
  · intro other member
    rcases List.mem_append.mp member with old | new
    · exact proper.part other old
    · rwa [List.mem_singleton.mp new]

theorem Round.Proper.complete {r : Round} (proper : r.Proper)
    (enough : r.reported.card ≤ r.handled.length) : r.Complete := by
  have part : r.handled.toFinset ⊆ r.reported := by
    intro fd member
    exact proper.part fd (List.mem_toFinset.mp member)
  have all : r.handled.toFinset = r.reported := by
    apply Finset.eq_of_subset_of_card_le part
    rwa [List.toFinset_card_of_nodup proper.nodup]
  intro fd member
  rw [← all] at member
  exact List.mem_toFinset.mp member

theorem ahead_succ {client next : Nat → Option Nat} {i sockfd : Nat}
    (distinct : SlotTable.Distinct client) (here : client i = some sockfd)
    (same : ∀ j, i < j → next j = client j) (fd : Nat) :
    Ahead next (i + 1) fd ↔ Ahead client i fd ∧ fd ≠ sockfd := by
  constructor
  · rintro ⟨j, beyond, found⟩
    rw [same j beyond] at found
    refine ⟨⟨j, by omega, found⟩, ?_⟩
    rintro rfl
    have equal := distinct j i fd found here
    omega
  · rintro ⟨⟨j, from_here, found⟩, different⟩
    have other : j ≠ i := by
      rintro rfl
      rw [here, Option.some.injEq] at found
      exact different found.symm
    exact ⟨j, by omega, by rw [same j (by omega), found]⟩

theorem ahead_pass {client : Nat → Option Nat} {i fd : Nat} (not_here : client i ≠ some fd) :
    Ahead client (i + 1) fd ↔ Ahead client i fd := by
  constructor
  · rintro ⟨j, beyond, found⟩
    exact ⟨j, by omega, found⟩
  · rintro ⟨j, from_here, found⟩
    have other : j ≠ i := by
      rintro rfl
      exact not_here found
    exact ⟨j, by omega, found⟩

theorem ahead_zero {s : State} (tables : Tables fdSetsize listenfd s) {fd : Nat}
    (member : fd ∈ s.allset) : Ahead s.client 0 fd ↔ fd ≠ listenfd := by
  constructor
  · rintro ⟨j, _, found⟩ rfl
    exact tables.listen j found
  · intro other
    obtain ⟨j, found⟩ := ((tables.allset fd).mp member).resolve_left other
    exact ⟨j, Nat.zero_le j, found⟩

theorem at_here {r : Round} {s : State} {place : Place} (at_ : r.At s) (here : s.place = place) :
    r.At { s with place := place } := by
  subst here
  exact at_

theorem accept_round {r : Round} {s : State} {connfd : Nat} {rset : Finset Nat} {nready : Int}
    (tables : Tables fdSetsize listenfd s) (opened : Opened fdSetsize listenfd s)
    (at_ : r.At s) (here : s.place = .test rset nready) (ready : listenfd ∈ rset)
    (unused : connfd ∉ s.opened) (inside : connfd < fdSetsize) :
    (r.next listenfd (.accepted connfd)).Proper ∧
      (r.next listenfd (.accepted connfd)).At (acceptClient fdSetsize s connfd rset nready) := by
  obtain ⟨rfl, part, _, rfl⟩ := at_here at_ here
  obtain ⟨i, free⟩ := free_slot tables opened unused inside
  have empty := (SlotTable.first_free_some free).2
  have proper : Round.Proper ⟨rset, [listenfd]⟩ :=
    ⟨List.nodup_singleton _, fun fd member => by rwa [List.mem_singleton.mp member]⟩
  refine ⟨proper, ?_⟩
  rw [accept_client_eq free]
  by_cases last : (rset.card : Int) - 1 ≤ 0
  · simp only [Round.At, if_pos last]
    refine proper.complete ?_
    simp only [List.length_singleton]
    omega
  · simp only [Round.At, if_neg last]
    refine ⟨rfl, by omega, by simp [Round.next], ?_⟩
    intro fd member
    have known := part member
    -- the new connection was not in `allset` when Select returned
    have other : fd ≠ connfd := by
      rintro rfl
      rcases (tables.allset fd).mp known with rfl | ⟨j, found⟩
      · exact unused opened.listen
      · exact unused (opened.opened j fd found)
    have held := SlotTable.holds_put empty connfd fd
    simp only [other, false_or] at held
    have before := ahead_zero tables known
    simp only [Ahead, Nat.zero_le, true_and] at before ⊢
    rw [held, before]
    simp [Round.next]

theorem skip_round {r : Round} {s : State} {rset : Finset Nat} {nready : Int}
    (tables : Tables fdSetsize listenfd s) (at_ : r.At s) (here : s.place = .test rset nready)
    (idle : listenfd ∉ rset) : r.At { s with place := .scan 0 rset nready } := by
  obtain ⟨rfl, part, some_ready, rfl⟩ := at_here at_ here
  refine ⟨rfl, by exact_mod_cast some_ready.card_pos, by simp, ?_⟩
  intro fd member
  have other : fd ≠ listenfd := by
    rintro rfl
    exact idle member
  simpa [other] using ahead_zero tables (part member)

theorem read_round {r : Round} {s : State} {i sockfd : Nat} {rset : Finset Nat} {nready : Int}
    (tables : Tables fdSetsize listenfd s) (proper : r.Proper) (at_ : r.At s)
    (here : s.place = .scan i rset nready) (filled : s.client i = some sockfd)
    (ready : sockfd ∈ rset) (after : State) (place : after.place = .after i rset nready)
    (same : ∀ j, i < j → after.client j = s.client j) :
    Round.Proper { r with handled := r.handled ++ [sockfd] } ∧
      Round.At { r with handled := r.handled ++ [sockfd] } after := by
  obtain ⟨reported, positive, counted, ahead⟩ := at_here at_ here
  have unhandled := (ahead sockfd ready).mp ⟨i, Nat.le_refl i, filled⟩
  have more : Round.Proper { r with handled := r.handled ++ [sockfd] } :=
    proper.push (by rwa [reported]) unhandled
  refine ⟨more, ?_⟩
  by_cases last : nready - 1 ≤ 0
  · simp only [Round.At, place, Place.after, if_pos last]
    refine more.complete ?_
    simp only [reported, List.length_append, List.length_singleton]
    omega
  · simp only [Round.At, place, Place.after, if_neg last]
    refine ⟨reported, by omega, ?_, ?_⟩
    · rw [List.length_append, List.length_singleton]
      omega
    · intro fd member
      rw [ahead_succ tables.distinct filled same, ahead fd member]
      simp

theorem pass_round {r : Round} {s : State} {i : Nat} {rset : Finset Nat} {nready : Int}
    (at_ : r.At s) (here : s.place = .scan i rset nready)
    (unready : ∀ sockfd, s.client i = some sockfd → sockfd ∉ rset) :
    r.At { s with place := .scan (i + 1) rset nready } := by
  obtain ⟨reported, positive, counted, ahead⟩ := at_here at_ here
  refine ⟨reported, positive, counted, ?_⟩
  intro fd member
  rw [ahead_pass fun found => unready fd found member]
  exact ahead fd member

theorem finish_round {r : Round} {s : State} {i : Nat} {rset : Finset Nat} {nready : Int}
    (tables : Tables fdSetsize listenfd s) (at_ : r.At s) (here : s.place = .scan i rset nready)
    (last : s.maxi < i) : r.At { s with place := .select } := by
  obtain ⟨reported, _, _, ahead⟩ := at_here at_ here
  intro fd member
  rw [reported] at member
  by_contra unhandled
  obtain ⟨j, beyond, found⟩ := (ahead fd member).mpr unhandled
  have below := tables.maxi j fd found
  omega

theorem does_round {r : Round} {s after : State} {event : Event}
    (does : Does fdSetsize listenfd s event after) (tables : Tables fdSetsize listenfd s)
    (opened : Opened fdSetsize listenfd s) (proper : r.Proper) (at_ : r.At s) :
    (r.next listenfd event).Proper ∧ (r.next listenfd event).At after := by
  cases does with
  | select _ part some_ready =>
      exact ⟨⟨List.nodup_nil, fun fd member => absurd member List.not_mem_nil⟩, rfl, part,
        some_ready, rfl⟩
  | accept here ready unused inside =>
      exact accept_round tables opened at_ here ready unused inside
  | skip here idle => exact ⟨proper, skip_round tables at_ here idle⟩
  | read received here filled ready =>
      match received with
      | none =>
          obtain ⟨reported, _, _, ahead⟩ := at_here at_ here
          have unhandled := (ahead _ ready).mp ⟨_, Nat.le_refl _, filled⟩
          exact ⟨proper.push (by rwa [reported]) unhandled, trivial⟩
      | some [] =>
          exact read_round tables proper at_ here filled ready _ rfl fun j beyond =>
            Function.update_of_ne (by omega) _ _
      | some (b :: buf) => exact read_round tables proper at_ here filled ready _ rfl fun _ _ => rfl
  | pass here unready => exact ⟨proper, pass_round at_ here unready⟩
  | finish here last => exact ⟨proper, finish_round tables at_ here last⟩

structure Inv (fdSetsize listenfd : Nat) (trace : List Step) (s : State) : Prop where
  tables : Tables fdSetsize listenfd s
  opened : Opened fdSetsize listenfd s
  proper : (round listenfd trace).Proper
  along : (round listenfd trace).At s

theorem run_inv (trace : List Step) (s : State) (run : (machine fdSetsize listenfd).Run trace s) :
    Inv fdSetsize listenfd trace s := by
  refine run.history (C := fun _ => True) ?_ ?_ fun _ _ => trivial
  · intro s first
    obtain ⟨tables, opened⟩ := start_tables s first
    refine ⟨tables, opened, ⟨List.nodup_nil, fun fd member => absurd member List.not_mem_nil⟩, ?_⟩
    simp [Round.At, first.2.2.2.2.2, Round.Complete, round]
  · intro trace e stepped _ inv
    have does := step_does fdSetsize listenfd e stepped
    obtain ⟨tables, opened⟩ := does_tables does inv.tables inv.opened
    obtain ⟨proper, along⟩ := does_round does inv.tables inv.opened inv.proper inv.along
    rw [← round_snoc] at proper along
    exact ⟨tables, opened, proper, along⟩

/-- The descriptor sets are right between any two steps, a slot is always found,
and at the top of the loop every reported descriptor has been handled once. -/
theorem tcpservselect01_rounds (fdSetsize listenfd : Nat) (trace : List Step) (s : State)
    (run : (machine fdSetsize listenfd).Run trace s) :
    Tables fdSetsize listenfd s ∧ s.place ≠ .tooManyClients ∧
      (round listenfd trace).Proper ∧
      (s.place = .select → (round listenfd trace).Complete) := by
  have inv := run_inv trace s run
  refine ⟨inv.tables, ?_, inv.proper, ?_⟩
  · intro full
    exact at_here inv.along full
  · intro top
    exact at_here inv.along top

/-! Two connections, both readable at once while a third arrives; the second of
them is closed. -/

def begun : State := ⟨fun _ => none, -1, 3, {3}, {0, 1, 2, 3}, .select⟩

theorem three_connections_served :
    ∃ (trace : List Step) (s : State), (machine 1024 3).Run trace s ∧
      s.place = .select ∧ s.allset = {3, 4, 6} ∧ (round 3 trace).handled = [3, 4, 5] ∧
      Tables 1024 3 s ∧ (round 3 trace).Complete := by
  obtain ⟨trace, s, run, checked⟩ := Machine.run_of_check
    (M := machine 1024 3) (s := begun) ⟨fun _ => rfl, rfl, rfl, rfl, by decide, rfl⟩
    [.select {3}, .accept 4, .select {3}, .accept 5, .select {3, 4, 5}, .accept 6,
      .read (some [7]), .read (some [])]
    (fun r => decide (r.2.place = .select ∧ r.2.allset = {3, 4, 6} ∧
      (round 3 r.1).handled = [3, 4, 5]))
    (by decide +kernel)
  obtain ⟨top, all, handled⟩ := of_decide_eq_true checked
  obtain ⟨tables, _, _, complete⟩ := tcpservselect01_rounds 1024 3 trace s run
  exact ⟨trace, s, run, top, all, handled, tables, complete top⟩

end NetworkProgramming.TcpServSelect01
