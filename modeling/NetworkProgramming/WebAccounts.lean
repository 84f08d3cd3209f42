import NetworkProgramming.Threads
import NetworkProgramming.Web

/-!
The accounts of the nonblocking web client: its three counters count files by
their flags, its two descriptor sets are those of the files in progress, and
whoever is done has been read to the end once.
-/

namespace NetworkProgramming.Web

variable {nfiles : Nat}

def Flags.active : Flags → Bool
  | .connecting | .reading => true
  | _ => false

def Flags.unstarted : Flags → Bool
  | .zero => true
  | _ => false

def Flags.unread : Flags → Bool
  | .done => false
  | _ => true

@[simp] theorem Flags.zero_active : Flags.zero.active = false := rfl
@[simp] theorem Flags.zero_unstarted : Flags.zero.unstarted = true := rfl
@[simp] theorem Flags.zero_unread : Flags.zero.unread = true := rfl
@[simp] theorem Flags.connecting_active : Flags.connecting.active = true := rfl
@[simp] theorem Flags.connecting_unstarted : Flags.connecting.unstarted = false := rfl
@[simp] theorem Flags.connecting_unread : Flags.connecting.unread = true := rfl
@[simp] theorem Flags.reading_active : Flags.reading.active = true := rfl
@[simp] theorem Flags.reading_unstarted : Flags.reading.unstarted = false := rfl
@[simp] theorem Flags.reading_unread : Flags.reading.unread = true := rfl
@[simp] theorem Flags.done_active : Flags.done.active = false := rfl
@[simp] theorem Flags.done_unstarted : Flags.done.unstarted = false := rfl
@[simp] theorem Flags.done_unread : Flags.done.unread = false := rfl

def filesAt (s : State nfiles) (at_ : Flags → Bool) : Nat :=
  Threads.count s.file fun f => at_ f.flags

structure Counted (maxnconn : Int) (s : State nfiles) : Prop where
  nconn : s.nconn = filesAt s Flags.active
  bound : s.nconn ≤ maxnconn
  nlefttoconn : s.nlefttoconn = filesAt s Flags.unstarted
  nlefttoread : s.nlefttoread = filesAt s Flags.unread

structure Descriptors (s : State nfiles) : Prop where
  opened : ∀ i, (s.file i).flags.active = true → (s.file i).fd ∈ s.opened
  apart : ∀ i j, (s.file i).flags.active = true → (s.file j).flags.active = true →
    (s.file i).fd = (s.file j).fd → i = j
  rset : ∀ fd, fd ∈ s.rset ↔ ∃ i, (s.file i).flags.active = true ∧ (s.file i).fd = fd
  wset : ∀ fd, fd ∈ s.wset ↔ ∃ i, (s.file i).flags = .connecting ∧ (s.file i).fd = fd

/-! What starting a connection leaves. -/

theorem start_connect_einprogress (s : State nfiles) (i : Fin nfiles) (fd : Nat) :
    startConnect s i fd .einprogress =
      { s with
        file := Function.update s.file i ⟨fd, .connecting⟩
        rset := insert fd s.rset
        wset := insert fd s.wset
        maxfd := max s.maxfd fd
        opened := insert fd s.opened } := by
  simp [startConnect, State.setFlags]

theorem start_connect_established (s : State nfiles) (i : Fin nfiles) (fd : Nat) :
    startConnect s i fd .established =
      { s with
        file := Function.update s.file i ⟨fd, .reading⟩
        rset := insert fd s.rset
        maxfd := max s.maxfd fd
        opened := insert fd s.opened } := by
  simp [startConnect, writeGetCmd, State.setFlags]

theorem files_after (s next : State nfiles) (i : Fin nfiles) (f : File)
    (file : next.file = Function.update s.file i f) (at_ : Flags → Bool) :
    filesAt next at_ + (at_ (s.file i).flags).toNat = filesAt s at_ + (at_ f.flags).toNat := by
  rw [filesAt, file]
  exact Threads.count_update s.file i f fun f => at_ f.flags

theorem find_file_zero (s : State nfiles) (i : Fin nfiles) (found : findFile s = some i) :
    (s.file i).flags = .zero := by
  have test := List.find?_some found
  simpa using test

theorem find_file_some (s : State nfiles) (left : 0 < filesAt s Flags.unstarted) :
    findFile s ≠ none := by
  intro absent
  obtain ⟨i, unstarted⟩ := (Threads.count_pos s.file _).mp left
  have test := List.find?_eq_none.mp absent i (List.mem_finRange i)
  cases here : (s.file i).flags <;> simp_all [Flags.unstarted]

/-- The descriptors after file `i`, not in progress, has got a fresh one. -/
theorem started_descriptors (s next : State nfiles) (i : Fin nfiles) (fd : Nat) (flags : Flags)
    (idle : (s.file i).flags = .zero) (fresh : fd ∉ s.opened) (active : flags.active = true)
    (file : next.file = Function.update s.file i ⟨fd, flags⟩)
    (rset : next.rset = insert fd s.rset) (opened : next.opened = insert fd s.opened)
    (wset : ∀ d, d ∈ next.wset ↔ d ∈ s.wset ∨ (flags = .connecting ∧ d = fd))
    (descriptors : Descriptors s) : Descriptors next := by
  obtain ⟨held, apart, readers, writers⟩ := descriptors
  have others (j : Fin nfiles) (other : (s.file j).flags.active = true) : (s.file j).fd ≠ fd := by
    rintro rfl
    exact fresh (held j other)
  have unlike (j : Fin nfiles) (other : (s.file j).flags.active = true) : j ≠ i := by
    rintro rfl
    simp [idle, Flags.active] at other
  -- file i was not in progress and fd not open, so nothing changes for the others
  constructor <;> simp only [file, rset, opened, wset]
  · intro j here
    by_cases same : j = i
    · subst j
      simp
    · rw [Function.update_of_ne same] at here ⊢
      exact Finset.mem_insert_of_mem (held j here)
  · intro j k left right same
    by_cases first : j = i <;> by_cases second : k = i
    · rw [first, second]
    · subst j
      rw [Function.update_of_ne second] at right
      rw [Function.update_self, Function.update_of_ne second] at same
      exact absurd same.symm (others k right)
    · subst k
      rw [Function.update_of_ne first] at left
      rw [Function.update_self, Function.update_of_ne first] at same
      exact absurd same (others j left)
    · rw [Function.update_of_ne first] at left same
      rw [Function.update_of_ne second] at right same
      exact apart j k left right same
  · intro d
    rw [Finset.mem_insert, readers]
    constructor
    · rintro (rfl | ⟨j, here, found⟩)
      · exact ⟨i, by simp [active], by simp⟩
      · exact ⟨j, by rw [Function.update_of_ne (unlike j here), found]; exact ⟨here, rfl⟩⟩
    · rintro ⟨j, here, found⟩
      by_cases same : j = i
      · subst j
        rw [Function.update_self] at found
        exact Or.inl found.symm
      · rw [Function.update_of_ne same] at here found
        exact Or.inr ⟨j, here, found⟩
  · intro d
    rw [writers]
    constructor
    · rintro (⟨j, here, found⟩ | ⟨connecting, rfl⟩)
      · have other := unlike j (by rw [here]; rfl)
        exact ⟨j, by rw [Function.update_of_ne other, found]; exact ⟨here, rfl⟩⟩
      · exact ⟨i, by simp [connecting], by simp⟩
    · rintro ⟨j, here, found⟩
      by_cases same : j = i
      · subst j
        rw [Function.update_self] at here found
        exact Or.inr ⟨here, found.symm⟩
      · rw [Function.update_of_ne same] at here found
        exact Or.inl ⟨j, here, found⟩

theorem connected_file (s : State nfiles) (i : Fin nfiles) :
    (writeGetCmd s i).file = Function.update s.file i ⟨(s.file i).fd, .reading⟩ := rfl

theorem connected_descriptors (s : State nfiles) (i : Fin nfiles) (place : Place)
    (here : (s.file i).flags = .connecting) (descriptors : Descriptors s) :
    Descriptors (writeGetCmd { s with place := place, wset := s.wset.erase (s.file i).fd } i) := by
  obtain ⟨held, apart, readers, writers⟩ := descriptors
  have active : (s.file i).flags.active = true := by rw [here]; rfl
  have kept (j : Fin nfiles) :
      (Function.update s.file i ⟨(s.file i).fd, .reading⟩ j).fd = (s.file j).fd ∧
      (Function.update s.file i ⟨(s.file i).fd, .reading⟩ j).flags.active =
        (s.file j).flags.active := by
    by_cases same : j = i
    · subst j
      simp [here, Flags.active]
    · rw [Function.update_of_ne same]
      exact ⟨rfl, rfl⟩
  constructor <;> simp only [connected_file, kept]
  · exact held
  · exact apart
  · intro d
    simp only [writeGetCmd, State.setFlags, Finset.mem_insert, readers]
    constructor
    · rintro (rfl | found)
      · exact ⟨i, active, rfl⟩
      · exact found
    · exact Or.inr
  · intro d
    simp only [writeGetCmd, State.setFlags, Finset.mem_erase, writers]
    constructor
    · rintro ⟨other, j, connecting, rfl⟩
      have unlike : j ≠ i := by
        rintro rfl
        exact other rfl
      exact ⟨j, by rwa [Function.update_of_ne unlike], rfl⟩
    · rintro ⟨j, connecting, rfl⟩
      by_cases same : j = i
      · subst j
        simp at connecting
      · rw [Function.update_of_ne same] at connecting
        constructor
        · intro equal
          exact same (apart j i (by rw [connecting]; rfl) active equal)
        · exact ⟨j, connecting, rfl⟩

theorem done_file (s : State nfiles) (i : Fin nfiles) :
    (readEof s i).file = Function.update s.file i ⟨(s.file i).fd, .done⟩ := rfl

theorem done_descriptors (s : State nfiles) (i : Fin nfiles) (place : Place)
    (here : (s.file i).flags = .reading) (descriptors : Descriptors s) :
    Descriptors (readEof { s with place := place } i) := by
  obtain ⟨held, apart, readers, writers⟩ := descriptors
  have active : (s.file i).flags.active = true := by rw [here]; rfl
  have others (j : Fin nfiles)
      (still : (Function.update s.file i ⟨(s.file i).fd, .done⟩ j).flags.active = true) :
      j ≠ i ∧ (s.file j).flags.active = true := by
    by_cases same : j = i
    · subst j
      simp [Flags.active] at still
    · rw [Function.update_of_ne same] at still
      exact ⟨same, still⟩
  -- no other file in progress has the descriptor that is closed
  constructor <;> simp only [done_file]
  · intro j still
    obtain ⟨other, was⟩ := others j still
    rw [Function.update_of_ne other]
    apply Finset.mem_erase_of_ne_of_mem
    · intro equal
      exact other (apart j i was active equal)
    · exact held j was
  · intro j k left right same
    obtain ⟨first, wasFirst⟩ := others j left
    obtain ⟨second, wasSecond⟩ := others k right
    rw [Function.update_of_ne first, Function.update_of_ne second] at same
    exact apart j k wasFirst wasSecond same
  · intro d
    simp only [readEof, State.setFlags, Finset.mem_erase, readers]
    constructor
    · rintro ⟨other, j, was, rfl⟩
      have unlike : j ≠ i := by
        rintro rfl
        exact other rfl
      exact ⟨j, by rw [Function.update_of_ne unlike]; exact ⟨was, rfl⟩⟩
    · rintro ⟨j, still, found⟩
      obtain ⟨other, was⟩ := others j still
      rw [Function.update_of_ne other] at found
      subst found
      constructor
      · intro equal
        exact other (apart j i was active equal)
      · exact ⟨j, was, rfl⟩
  · intro d
    simp only [readEof, State.setFlags, writers]
    constructor
    · rintro ⟨j, connecting, rfl⟩
      have unlike : j ≠ i := by
        rintro rfl
        rw [here] at connecting
        cases connecting
      exact ⟨j, by rw [Function.update_of_ne unlike]; exact ⟨connecting, rfl⟩⟩
    · rintro ⟨j, connecting, found⟩
      have still : (Function.update s.file i ⟨(s.file i).fd, .done⟩ j).flags.active = true := by
        rw [connecting]
        rfl
      obtain ⟨other, _⟩ := others j still
      rw [Function.update_of_ne other] at connecting found
      exact ⟨j, connecting, found⟩

/-! What holds at every place that the program can still go on from. -/

structure Accounts (maxnconn : Int) (s : State nfiles) : Prop where
  counted : Counted maxnconn s
  descriptors : Descriptors s
  ended : s.place = .exited → s.nlefttoread = 0
  found : s.place ≠ .nothingFound

theorem moved_counted (maxnconn : Int) (s next : State nfiles) (i : Fin nfiles) (f : File)
    (file : next.file = Function.update s.file i f) (bound : next.nconn ≤ maxnconn)
    (nconn : next.nconn + (s.file i).flags.active.toNat = s.nconn + f.flags.active.toNat)
    (nlefttoconn : next.nlefttoconn + (s.file i).flags.unstarted.toNat =
      s.nlefttoconn + f.flags.unstarted.toNat)
    (nlefttoread : next.nlefttoread + (s.file i).flags.unread.toNat =
      s.nlefttoread + f.flags.unread.toNat)
    (counted : Counted maxnconn s) : Counted maxnconn next := by
  have counts := files_after s next i f file
  have busy := counts Flags.active
  have unstarted := counts Flags.unstarted
  have unread := counts Flags.unread
  obtain ⟨count, _, left, reads⟩ := counted
  constructor
  · omega
  · exact bound
  · omega
  · omega

theorem Accounts.moved {maxnconn : Int} {s : State nfiles} (accounts : Accounts maxnconn s)
    {place : Place} (ended : place = .exited → s.nlefttoread = 0)
    (found : place ≠ .nothingFound) : Accounts maxnconn { s with place := place } := by
  obtain ⟨counted, descriptors, _, _⟩ := accounts
  exact ⟨⟨counted.nconn, counted.bound, counted.nlefttoconn, counted.nlefttoread⟩,
    ⟨descriptors.opened, descriptors.apart, descriptors.rset, descriptors.wset⟩, ended, found⟩

theorem step_accounts (maxnconn : Int) (s after : State nfiles) (action : Action)
    (event : Event nfiles) (effect : Effect maxnconn s action after event)
    (accounts : Accounts maxnconn s) (alive : after.place ≠ .errSys) :
    Accounts maxnconn after := by
  have ⟨counted, descriptors, ended, found⟩ := accounts
  have nonneg : s.nlefttoread ≥ 0 := by
    rw [counted.nlefttoread]
    omega
  cases effect with
  | loop place here turn =>
      subst turn
      refine accounts.moved ?_ ?_
      · intro out
        split at out
        · cases out
        · omega
      · split <;> simp
  | nothingFound fd result left absent =>
      -- a counter that says a file is left is right, so the search finds one
      rw [counted.nlefttoconn] at left
      exact absurd absent (find_file_some s (by omega))
  | startConnect fd result i room fresh first =>
      -- the file gets a descriptor that is not open, and is in progress from here on
      have idle := find_file_zero s i first
      cases result with
      | einprogress =>
          rw [start_connect_einprogress] at alive ⊢
          constructor
          · refine moved_counted maxnconn s _ i ⟨fd, .connecting⟩ rfl ?_ ?_ ?_ ?_ counted
            · exact room
            · simp [idle]
            · simp [idle]
            · simp [idle]
          · apply started_descriptors s _ i fd .connecting idle fresh rfl rfl rfl rfl _ descriptors
            intro d
            rw [Finset.mem_insert]
            tauto
          · exact ended
          · exact found
      | established =>
          rw [start_connect_established] at alive ⊢
          constructor
          · refine moved_counted maxnconn s _ i ⟨fd, .reading⟩ rfl ?_ ?_ ?_ ?_ counted
            · exact room
            · simp [idle]
            · simp [idle]
            · simp [idle]
          · apply started_descriptors s _ i fd .reading idle fresh rfl rfl rfl rfl _ descriptors
            simp
          · exact ended
          · exact found
      | error => exact absurd rfl alive
  | select readable writable =>
      refine accounts.moved ?_ ?_
      · intro out
        cases out
      · intro none_found
        cases none_found
  | pass io place other =>
      refine accounts.moved ?_ ?_
      · rcases other with rfl | rfl | ⟨i, rs, ws, rfl⟩ <;> simp
      · rcases other with rfl | rfl | ⟨i, rs, ws, rfl⟩ <;> simp
  | connected i place here other =>
      obtain ⟨next, rs, ws, rfl⟩ := other
      constructor
      · refine moved_counted maxnconn s _ i _ (connected_file _ i) ?_ ?_ ?_ ?_ counted
        · exact counted.bound
        · simp [writeGetCmd, State.setFlags, here]
        · simp [writeGetCmd, State.setFlags, here]
        · simp [writeGetCmd, State.setFlags, here]
      · exact connected_descriptors s i _ here descriptors
      · simp [writeGetCmd, State.setFlags]
      · simp [writeGetCmd, State.setFlags]
  | readEof i place here other =>
      obtain ⟨next, rs, ws, rfl⟩ := other
      constructor
      · refine moved_counted maxnconn s _ i _ (done_file _ i) ?_ ?_ ?_ ?_ counted
        · have bound := counted.bound
          simp only [readEof, State.setFlags]
          omega
        · simp [readEof, State.setFlags, here]
        · simp [readEof, State.setFlags, here]
        · simp [readEof, State.setFlags, here]
      · exact done_descriptors s i _ here descriptors
      · simp [readEof, State.setFlags]
      · simp [readEof, State.setFlags]

/-! What the run has read to the end. -/

abbrev Trace (nfiles : Nat) := List (Step nfiles)

def eofs (trace : Trace nfiles) (i : Fin nfiles) : Nat :=
  trace.countP fun e => e.output = .eof i

/-- One end of file for whoever is done, none for the others. -/
def Ended (trace : Trace nfiles) (s : State nfiles) : Prop :=
  ∀ i, eofs trace i = if (s.file i).flags = .done then 1 else 0

theorem eofs_next (trace : Trace nfiles) (e : Step nfiles) (i : Fin nfiles) :
    eofs (trace ++ [e]) i = eofs trace i + if e.output = .eof i then 1 else 0 := by
  simp [eofs, List.countP_append, List.countP_cons]

theorem quiet_ended (trace : Trace nfiles) (s after : State nfiles) (action : Action)
    (same : ∀ i, (after.file i).flags = .done ↔ (s.file i).flags = .done)
    (ended : Ended trace s) : Ended (trace ++ [⟨s, action, .quiet, after⟩]) after := by
  intro i
  rw [eofs_next, ended i]
  simp [same i]

theorem update_not_done (s : State nfiles) (i : Fin nfiles) (f : File)
    (before : (s.file i).flags ≠ .done) (now : f.flags ≠ .done) (j : Fin nfiles) :
    (Function.update s.file i f j).flags = .done ↔ (s.file j).flags = .done := by
  by_cases same : j = i
  · subst j
    simp [before, now]
  · rw [Function.update_of_ne same]

theorem step_ended (maxnconn : Int) (trace : Trace nfiles) (s after : State nfiles)
    (action : Action) (event : Event nfiles) (effect : Effect maxnconn s action after event)
    (ended : Ended trace s) :
    Ended (trace ++ [⟨s, action, event, after⟩]) after := by
  cases effect with
  | loop place here turn => exact quiet_ended trace s _ _ (fun _ => Iff.rfl) ended
  | nothingFound fd result left absent => exact quiet_ended trace s _ _ (fun _ => Iff.rfl) ended
  | startConnect fd result i room fresh first =>
      have idle : (s.file i).flags ≠ .done := by
        rw [find_file_zero s i first]
        simp
      apply quiet_ended trace s _ _ _ ended
      cases result with
      | einprogress =>
          rw [start_connect_einprogress]
          exact update_not_done s i _ idle (by simp)
      | established =>
          rw [start_connect_established]
          exact update_not_done s i _ idle (by simp)
      | error => exact update_not_done s i _ idle idle
  | select readable writable => exact quiet_ended trace s _ _ (fun _ => Iff.rfl) ended
  | pass io place other => exact quiet_ended trace s _ _ (fun _ => Iff.rfl) ended
  | connected i place here other =>
      apply quiet_ended trace s _ _ _ ended
      exact update_not_done s i _ (by simp [here]) (by simp)
  | readEof i place here other =>
      intro j
      rw [eofs_next, ended j]
      by_cases same : j = i
      · subst j
        simp [here, done_file]
      · have other : i ≠ j := fun equal => same equal.symm
        simp [done_file, Function.update_of_ne same, other]

theorem errors_end (maxnconn : Int) (s : State nfiles) (action : Action)
    (here : s.place = .errSys) : step maxnconn s action = none := by
  cases action <;> simp [step, here]

theorem start_accounts (maxnconn : Int) (room : 1 ≤ maxnconn) (opened : Finset Nat) :
    Accounts maxnconn (start nfiles opened) := by
  constructor
  · constructor
    · simp [start, filesAt, Threads.count, Threads.total]
    · simp only [start]
      omega
    · simp [start, filesAt, Threads.count, Threads.total]
    · simp [start, filesAt, Threads.count, Threads.total]
  · constructor <;> simp [start]
  · simp [start]
  · simp [start]

theorem run_ended (maxnconn : Int) (trace : Trace nfiles) (s : State nfiles)
    (run : (machine nfiles maxnconn).Run trace s) : Ended trace s := by
  apply run.history (C := fun _ => True)
  · rintro s ⟨opened, rfl⟩ i
    simp [eofs, start]
  · rintro trace ⟨s, action, event, after⟩ stepped _ ended
    have effect : Effect maxnconn s action after event :=
      step_effect maxnconn s after action event stepped
    exact step_ended maxnconn trace s after action event effect ended
  · simp

/-- An error ends the program, so the accounts hold wherever it can go on. -/
theorem run_accounts (maxnconn : Int) (room : 1 ≤ maxnconn) (trace : Trace nfiles)
    (s : State nfiles) (run : (machine nfiles maxnconn).Run trace s) :
    s.place ≠ .errSys → Accounts maxnconn s := by
  apply run.invariant (I := fun s => s.place ≠ .errSys → Accounts maxnconn s)
  · rintro s ⟨opened, rfl⟩ _
    exact start_accounts maxnconn room opened
  · rintro ⟨s, action, event, after⟩ stepped ih alive
    have before : s.place ≠ .errSys := by
      intro here
      have refused := errors_end maxnconn s action here
      simp [Machine.Stepped, machine, refused] at stepped
    have effect : Effect maxnconn s action after event :=
      step_effect maxnconn s after action event stepped
    exact step_accounts maxnconn s after action event effect (ih before) alive

theorem all_done (maxnconn : Int) (s : State nfiles) (counted : Counted maxnconn s)
    (nothing : s.nlefttoread = 0) (i : Fin nfiles) : (s.file i).flags = .done := by
  have none_unread : filesAt s Flags.unread = 0 := by
    have reads := counted.nlefttoread
    omega
  have unread := (Threads.count_eq_zero s.file _).mp none_unread i
  cases here : (s.file i).flags <;> simp [here] at unread ⊢

theorem reading_not_written (s : State nfiles) (i : Fin nfiles)
    (reading : (s.file i).flags = .reading) (descriptors : Descriptors s) :
    (s.file i).fd ∉ s.wset := by
  intro writer
  obtain ⟨j, connecting, found⟩ := (descriptors.wset _).mp writer
  have same : j = i :=
    descriptors.apart j i (by rw [connecting]; rfl) (by rw [reading]; rfl) found
  subst j
  rw [reading] at connecting
  cases connecting

/-- Connection accounting, in every state of every run, whatever descriptors and
results the environment hands out. -/
theorem web_accounts (maxnconn : Int) (room : 1 ≤ maxnconn) (trace : Trace nfiles)
    (s : State nfiles) (run : (machine nfiles maxnconn).Run trace s) :
    (s.place = .outer →
      (s.nconn = filesAt s Flags.active ∧ s.nconn ≤ maxnconn) ∧
      s.nlefttoconn = filesAt s Flags.unstarted ∧
      s.nlefttoread = filesAt s Flags.unread ∧
      (∀ fd, fd ∈ s.rset ∨ fd ∈ s.wset →
        ∃ i, (s.file i).flags.active = true ∧ (s.file i).fd = fd) ∧
      (∀ i, (s.file i).flags = .reading → (s.file i).fd ∈ s.rset ∧ (s.file i).fd ∉ s.wset)) ∧
    s.place ≠ .nothingFound ∧
    (∀ i, eofs trace i ≤ 1) ∧
    (s.place = .exited → ∀ i, eofs trace i = 1) := by
  have ended := run_ended maxnconn trace s run
  have accounts := run_accounts maxnconn room trace s run
  constructor
  · intro top
    obtain ⟨counted, descriptors, _, _⟩ := accounts (by simp [top])
    refine ⟨⟨counted.nconn, counted.bound⟩, counted.nlefttoconn, counted.nlefttoread, ?_, ?_⟩
    · rintro fd (reader | writer)
      · exact (descriptors.rset fd).mp reader
      · obtain ⟨i, connecting, found⟩ := (descriptors.wset fd).mp writer
        exact ⟨i, by rw [connecting]; rfl, found⟩
    · intro i reading
      constructor
      · exact (descriptors.rset _).mpr ⟨i, by rw [reading]; rfl, rfl⟩
      · exact reading_not_written s i reading descriptors
  constructor
  · intro here
    exact (accounts (by simp [here])).found here
  constructor
  · intro i
    rw [ended i]
    split <;> omega
  · intro here i
    have books := accounts (by simp [here])
    rw [ended i, all_done maxnconn s books.counted (books.ended here) i]
    rfl

theorem three_files_read : ∃ trace s, (machine 3 2).Run trace s ∧ s.place = .exited ∧
    ((s.place = .outer →
      (s.nconn = filesAt s Flags.active ∧ s.nconn ≤ 2) ∧
      s.nlefttoconn = filesAt s Flags.unstarted ∧
      s.nlefttoread = filesAt s Flags.unread ∧
      (∀ fd, fd ∈ s.rset ∨ fd ∈ s.wset →
        ∃ i, (s.file i).flags.active = true ∧ (s.file i).fd = fd) ∧
      (∀ i, (s.file i).flags = .reading → (s.file i).fd ∈ s.rset ∧ (s.file i).fd ∉ s.wset)) ∧
    s.place ≠ .nothingFound ∧
    (∀ i, eofs trace i ≤ 1) ∧
    (s.place = .exited → ∀ i, eofs trace i = 1)) := by
  have first : (machine 3 2).start (start 3 {0, 1, 2}) := ⟨_, rfl⟩
  have ran := Machine.run_of_check (M := machine 3 2) first
    ([.loop, .startConnect 3 .einprogress, .startConnect 4 .established,
      .select (fun _ => false) (fun _ => true), .visit .ok, .visit .ok, .visit .ok, .visit .ok,
      .loop, .select (fun _ => true) (fun _ => false), .visit .eof, .visit .ok, .visit .ok,
      .visit .ok, .loop, .startConnect 3 .established,
      .select (fun _ => true) (fun _ => false), .visit .ok, .visit .eof, .visit .eof, .visit .ok,
      .loop])
    (fun r => decide (r.2.place = .exited)) (by decide +kernel)
  obtain ⟨trace, s, run, here⟩ := ran
  exact ⟨trace, s, run, by simpa using here, web_accounts 2 (by omega) trace s run⟩

end NetworkProgramming.Web
