import NetworkProgramming.TcpEpoll

/-!
The buffer of the inner loop of chapter8/tcp_epoll.c: every call of recv is given ONCE_LEN bytes
behind pos, however many there are left.
-/

namespace NetworkProgramming.TcpEpoll

def received (trace : List Step) : Nat :=
  trace.foldl (fun sum e => match e.action with
    | .recv (.bytes len) => sum + len
    | .loop => 0
    | _ => sum) 0

/-- The range that a call of recv is given lies in buf. -/
def insideAt (s : State) : Action → Bool
  | .recv _ => match s.place with
      | .read _ pos _ => decide (pos + ONCE_LEN ≤ BUF_LEN)
      | _ => true
  | _ => true

def inside (e : Step) : Bool := insideAt e.before e.action

inductive Enters (s : State) (fd pos : Nat) (events : List Nat) : Action → Prop where
  | begins : pos = 0 → Enters s fd pos events .loop
  | receives (before len : Nat) : s.place = .read fd before events → pos = before + len →
      Enters s fd pos events (.recv (.bytes len))
  | arrival (a : Action) : s.place = .read fd pos events → (arrive s a).isSome = true →
      Enters s fd pos events a

theorem arrive_place {s after : State} {a : Action} (arrived : arrive s a = some after) :
    after.place = s.place := by
  cases a with
  | connect | sendQueued _ _ | endQueued _ | send _ _ | endOpen _ =>
      simp only [arrive, Option.some.injEq] at arrived
      rw [← arrived]
  | wait _ | timeout | waitFails | accept _ | recv _ | loop => cases arrived

theorem arrive_other {s : State} {a : Action} (arrived : (arrive s a).isSome = true) :
    a ≠ .loop ∧ ∀ got, a ≠ .recv got := by
  cases a with
  | connect | sendQueued _ _ | endQueued _ | send _ _ | endOpen _ =>
      exact ⟨Action.noConfusion, fun got => Action.noConfusion⟩
  | wait _ | timeout | waitFails | accept _ | recv _ | loop => cases arrived

theorem wait_place {sockfd : Nat} {s after : State} {a : Action}
    (stepped : waitStep sockfd s a = some after) (here : s.place = .wait) :
    after.place.reads = none := by
  cases a with
  | wait events =>
      simp only [waitStep, Option.ite_none_right_eq_some, Option.some.injEq] at stepped
      rw [← stepped.2]
      rfl
  | timeout =>
      simp only [waitStep, Option.some.injEq] at stepped
      rw [← stepped, here]
      rfl
  | waitFails =>
      simp only [waitStep, Option.some.injEq] at stepped
      rw [← stepped]
      rfl
  | connect | sendQueued _ _ | endQueued _ | send _ _ | endOpen _ | accept _ | recv _ | loop =>
      cases stepped

theorem accept_place {sockfd : Nat} {s after : State} {rest : List Nat} {new_sockfd : Option Nat}
    (accepted : acceptConnection sockfd s rest new_sockfd = some after) :
    after.place = .serve rest := by
  cases new_sockfd with
  | none =>
      simp only [acceptConnection, Option.some.injEq] at accepted
      rw [← accepted]
  | some fd =>
      rw [acceptConnection] at accepted
      split at accepted
      · cases accepted
      · split at accepted <;> cases accepted
        rfl

theorem serve_enters {sockfd : Nat} {s after : State} {events rest : List Nat} {a : Action}
    {fd pos : Nat} (stepped : serveStep sockfd s events a = some after)
    (reads : after.place = .read fd pos rest) : Enters s fd pos rest a := by
  unfold serveStep at stepped
  split at stepped
  · simp only [Option.some.injEq] at stepped
    rw [← stepped] at reads
    cases reads
  · obtain ⟨-, accepted⟩ := Option.ite_none_right_eq_some.mp stepped
    rw [accept_place accepted] at reads
    cases reads
  · split at stepped
    · cases stepped
    · simp only [Option.some.injEq] at stepped
      rw [← stepped] at reads
      cases reads
      exact .begins rfl
  · cases stepped

theorem receive_enters {s after : State} {events rest : List Nat} {got : Received}
    {old before fd pos : Nat} (stepped : receive s old before events got = some after)
    (here : s.place = .read old before events) (reads : after.place = .read fd pos rest) :
    Enters s fd pos rest (.recv got) := by
  cases got with
  | bytes len =>
      rw [receive] at stepped
      split at stepped
      · obtain ⟨-, moved⟩ := Option.ite_none_right_eq_some.mp stepped
        simp only [Option.some.injEq] at moved
        rw [← moved] at reads
        simp only at reads
        split at reads <;> cases reads
        exact .receives before len here rfl
      · cases stepped
  | again | ended =>
      rw [receive] at stepped
      split at stepped
      · obtain ⟨-, moved⟩ := Option.ite_none_right_eq_some.mp stepped
        simp only [Option.some.injEq] at moved
        rw [← moved] at reads
        cases reads
      · cases stepped
  | failed =>
      simp only [receive, Option.some.injEq] at stepped
      rw [← stepped] at reads
      cases reads

theorem step_enters {sockfd : Nat} {e : Step} (stepped : (machine sockfd).Stepped e) {fd pos : Nat}
    {events : List Nat} (reads : e.after.place = .read fd pos events) :
    Enters e.before fd pos events e.action := by
  obtain ⟨s, a, output, after⟩ := e
  simp only [Machine.Stepped, machine, step, Option.map_eq_some_iff, Prod.mk.injEq] at stepped
  obtain ⟨result, moved, rfl, -⟩ := stepped
  rcases Option.or_eq_some_iff.mp moved with arrived | ⟨-, served⟩
  · exact .arrival a (by rw [← arrive_place arrived, reads]) (by rw [arrived]; rfl)
  · simp only [serverStep] at served
    split at served
    · rename_i here
      have none_ := wait_place served here
      rw [reads] at none_
      cases none_
    · exact serve_enters served reads
    · rename_i old before rest here
      split at served
      · exact receive_enters served here reads
      · cases served
    · cases served

theorem received_snoc (trace : List Step) (e : Step) :
    received (trace ++ [e]) = match e.action with
      | .recv (.bytes len) => received trace + len
      | .loop => 0
      | _ => received trace := by
  rw [received, List.foldl_append]
  rfl

theorem pos_received {sockfd : Nat} {trace : List Step} {s : State}
    (run : (machine sockfd).Run trace s) :
    ∀ fd pos events, s.place = .read fd pos events → pos = received trace := by
  refine run.history (C := fun _ => True)
    (I := fun trace s => ∀ fd pos events, s.place = .read fd pos events → pos = received trace)
    ?_ ?_ fun _ _ => trivial
  · intro first start fd pos events reads
    rw [start.2.2.2] at reads
    cases reads
  · intro trace e stepped _ ih fd pos events reads
    rw [received_snoc]
    have enters := step_enters stepped reads
    generalize same : e.action = a at enters ⊢
    cases enters with
    | begins none_ => exact none_
    | receives before len here sum =>
        rw [sum, ih fd before events here]
    | arrival _ here arrived =>
        obtain ⟨notLoop, notRecv⟩ := arrive_other arrived
        have kept := ih fd pos events here
        split
        · rename_i len
          exact absurd rfl (notRecv (.bytes len))
        · exact absurd rfl notLoop
        · exact kept

theorem recv_reads {sockfd : Nat} {e : Step} (stepped : (machine sockfd).Stepped e) {got : Received}
    (called : e.action = .recv got) : ∃ fd pos events, e.before.place = .read fd pos events := by
  obtain ⟨s, a, output, after⟩ := e
  obtain rfl : a = .recv got := called
  simp only [Machine.Stepped, machine, step, Option.map_eq_some_iff, Prod.mk.injEq] at stepped
  obtain ⟨result, moved, rfl, -⟩ := stepped
  have served : serverStep sockfd s (.recv got) = some result := moved
  simp only [serverStep] at served
  split at served
  · cases served
  · rename_i events here
    unfold serveStep at served
    split at served <;> contradiction
  · rename_i fd pos rest here
    exact ⟨fd, pos, rest, here⟩
  · cases served

/-- All calls are given ranges in buf just when none of them is made with more bytes received
than leave room for another ONCE_LEN. -/
theorem ranges_inside_iff (sockfd : Nat) (trace : List Step) (s : State)
    (run : (machine sockfd).Run trace s) :
    (∀ fd pos events, s.place = .read fd pos events → pos = received trace) ∧
      ((∀ e ∈ trace, inside e = true) ↔ ∀ pre e post, trace = pre ++ e :: post →
        ∀ got, e.action = .recv got → received pre ≤ BUF_LEN - ONCE_LEN) := by
  refine ⟨pos_received run, ?_⟩
  have each (pre post : List Step) (e : Step) (whole : trace = pre ++ e :: post) (got : Received)
      (called : e.action = .recv got) :
      inside e = true ↔ received pre ≤ BUF_LEN - ONCE_LEN := by
    rw [whole] at run
    obtain ⟨before, stepped⟩ := run.split
    obtain ⟨fd, pos, events, here⟩ := recv_reads stepped called
    rw [inside, insideAt.eq_def, called, here, ← pos_received before fd pos events here,
      decide_eq_true_eq]
    have room : BUF_LEN = 4096 ∧ ONCE_LEN = 1500 := ⟨rfl, rfl⟩
    omega
  constructor
  · intro all pre e post whole got called
    exact (each pre post e whole got called).mp (all e (by simp [whole]))
  · intro few e member
    obtain ⟨pre, post, whole⟩ := List.append_of_mem member
    cases action : e.action with
    | recv got => exact (each pre post e whole got action).mpr (few pre e post whole got action)
    | connect | sendQueued _ _ | endQueued _ | send _ _ | endOpen _ | wait _ | timeout | waitFails
    | accept _ | loop => rw [inside, action]; rfl

def hundredRead : List Action :=
  oneConnects ++ [.send 4 100, .wait [4], .loop, .recv (.bytes 100), .recv .again, .loop]

def thousandsRead : List Action :=
  oneConnects ++ [.send 4 3000, .wait [4], .loop, .recv (.bytes 1500), .recv (.bytes 1500),
    .recv .again]

theorem hundred_inside : ∃ (trace : List Step) (s : State), (machine 3).Run trace s ∧
    trace.length = hundredRead.length ∧ ∀ pre e post, trace = pre ++ e :: post →
      ∀ got, e.action = .recv got → received pre ≤ BUF_LEN - ONCE_LEN := by
  have run := Machine.replay_run (Machine.Run.start begun_start) hundredRead _ _ rfl
  exact ⟨_, _, run, by decide, (ranges_inside_iff 3 _ _ run).2.mp (by decide)⟩

theorem third_call_outside : ∃ (trace : List Step) (s : State), (machine 3).Run trace s ∧
    ∃ e ∈ trace, inside e = false := by
  have run := Machine.replay_run (Machine.Run.start begun_start) thousandsRead _ _ rfl
  exact ⟨_, _, run, by decide⟩

end NetworkProgramming.TcpEpoll
