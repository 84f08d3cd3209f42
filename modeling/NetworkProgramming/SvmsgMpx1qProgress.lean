import Mathlib.Data.Fintype.Card
import NetworkProgramming.SvmsgMpx1qReplies

/-!
When the file server and its clients can deadlock. Requests and replies share
the places of one queue, and only the server takes requests off it: while it
sends a reply, the requests of the other clients stay. They fill the queue just
when there are more clients than places.
-/

namespace NetworkProgramming.SvmsgMpx1q

variable {Proc : Type*}

/-! What a state in which nobody moves looks like. -/

/-- A client has one request on the queue at most, and none while it is served. -/
theorem count_request (setup : Setup Proc) (s : State Proc) (sound : Sound setup s) (c : Proc) :
    s.queue.count (setup.request c) ≤ 1 ∧
      (s.server.To (setup.pid c) → s.queue.count (setup.request c) = 0) := by
  have balance := congrArg List.length (sound.balance c)
  have inhabited : 1 ≤ (reply setup c).length := by simp [reply]
  have bound : (if (s.client c).place = .send then [] else reply setup c).length ≤
      (reply setup c).length := by
    split <;> simp
  simp only [account, requested, List.length_append, List.length_flatten, List.map_replicate,
    List.sum_replicate_nat] at balance
  constructor
  · by_contra more
    have twice := Nat.mul_le_mul_right (reply setup c).length (Nat.lt_of_not_le more)
    omega
  · rintro ⟨m, left, here, to_⟩
    have owed : 1 ≤ (s.server.owes (setup.pid c)).length := by
      rw [here, Server.owes, if_pos to_]
      simp
    by_contra some_
    have once := Nat.mul_le_mul_right (reply setup c).length (Nat.pos_of_ne_zero some_)
    omega

variable [DecidableEq Proc]

theorem server_can (setup : Setup Proc) (s : State Proc)
    (able : (serverStep setup s).isSome = true) : (machine setup).CanStep s := by
  obtain ⟨after, ran⟩ := Option.isSome_iff_exists.mp able
  exact ⟨.server, (after, ()), by simp [machine, step, ran]⟩

theorem client_can (setup : Setup Proc) (s : State Proc) (c : Proc)
    (able : (clientStep setup s c).isSome = true) : (machine setup).CanStep s := by
  obtain ⟨after, ran⟩ := Option.isSome_iff_exists.mp able
  exact ⟨.client c, (after, ()), by simp [machine, step, ran]⟩

theorem server_receives (setup : Setup Proc) (s : State Proc)
    (stuck : ¬ (machine setup).CanStep s) (here : s.server = .receive) :
    MessageQueue.ofKind Mymesg.mesgType 1 s.queue = [] := by
  rw [← MessageQueue.receive_none]
  by_contra some_
  apply stuck
  apply server_can setup s
  simpa [serverStep, here, Option.isSome_iff_ne_none] using some_

theorem client_receives (setup : Setup Proc) (s : State Proc)
    (stuck : ¬ (machine setup).CanStep s) (c : Proc) (here : (s.client c).place = .receive) :
    MessageQueue.ofKind Mymesg.mesgType (setup.pid c) s.queue = [] := by
  rw [← MessageQueue.receive_none]
  by_contra some_
  apply stuck
  apply client_can setup s c
  simpa [clientStep, here, Option.isSome_iff_ne_none] using some_

theorem client_sends (setup : Setup Proc) (s : State Proc)
    (stuck : ¬ (machine setup).CanStep s) (c : Proc) (here : (s.client c).place = .send) :
    setup.capacity ≤ s.queue.length := by
  by_contra room
  apply stuck
  apply client_can setup s c
  simp [clientStep, here, Nat.lt_of_not_le room]

theorem server_sends (setup : Setup Proc) (s : State Proc)
    (stuck : ¬ (machine setup).CanStep s) (m : Mymesg) (left : Left)
    (here : s.server = .send m left) (positive : 0 < m.mesgType) :
    setup.capacity ≤ s.queue.length := by
  by_contra room
  apply stuck
  apply server_can setup s
  simp [serverStep, here, not_le.mpr positive, Nat.lt_of_not_le room]

theorem stuck_queue (setup : Setup Proc) (s : State Proc) (sound : Sound setup s)
    (stuck : ¬ (machine setup).CanStep s) : ∀ m ∈ s.queue, ∃ c, m = setup.request c := by
  intro m member
  obtain ⟨c, request | to_⟩ := sound.queued m member
  · exact ⟨c, request⟩
  · have found := (MessageQueue.mem_of_kind Mymesg.mesgType (setup.pid c) s.queue m).mpr
      ⟨member, to_⟩
    have underway : underway setup s.queue c = [] → False := by
      intro nothing
      rw [List.map_eq_nil_iff.mp nothing] at found
      cases found
    cases here : (s.client c).place with
    | send =>
        have balance := sound.balance c
        rw [if_pos here, account, List.append_eq_nil_iff, List.append_eq_nil_iff] at balance
        exact absurd balance.2.1 underway
    | receive =>
        rw [client_receives setup s stuck c here] at found
        cases found
    | returned => exact absurd (returned_account setup s sound c here).2 underway

variable [Fintype Proc]

/-- The queue has no room for the server only if all other clients have put
their requests there. -/
theorem requests_lt (setup : Setup Proc) (s : State Proc) (sound : Sound setup s)
    (requests : ∀ m ∈ s.queue, ∃ c, m = setup.request c) (d : Proc)
    (serving : s.server.To (setup.pid d)) : s.queue.length < Fintype.card Proc := by
  have nodup : s.queue.Nodup := by
    rw [List.nodup_iff_count_le_one]
    intro m
    by_cases member : m ∈ s.queue
    · obtain ⟨c, rfl⟩ := requests m member
      exact (count_request setup s sound c).1
    · rw [List.count_eq_zero_of_not_mem member]
      omega
  have inside : s.queue.toFinset ⊆ (Finset.univ.erase d).image setup.request := by
    intro m member
    obtain ⟨c, rfl⟩ := requests m (List.mem_toFinset.mp member)
    refine Finset.mem_image.mpr ⟨c, Finset.mem_erase.mpr ⟨?_, Finset.mem_univ c⟩, rfl⟩
    rintro rfl
    exact List.count_eq_zero.mp ((count_request setup s sound c).2 serving)
      (List.mem_toFinset.mp member)
  have others := (Finset.card_le_card inside).trans Finset.card_image_le
  rw [List.toFinset_card_of_nodup nodup, Finset.card_erase_of_mem (Finset.mem_univ d),
    Finset.card_univ] at others
  have someone := Fintype.card_pos_iff.mpr ⟨d⟩
  omega

theorem goes_on (setup : Setup Proc) (s : State Proc) (sound : Sound setup s)
    (few : Fintype.card Proc ≤ setup.capacity) (waiting : ∃ c, (s.client c).place ≠ .returned) :
    (machine setup).CanStep s := by
  by_contra stuck
  have requests := stuck_queue setup s sound stuck
  obtain ⟨c, unserved⟩ := waiting
  have someone := Fintype.card_pos_iff.mpr ⟨c⟩
  rcases sound.serving with idle | ⟨d, serving⟩
  · -- the server waits for a request, and there is none
    have empty : s.queue = [] := by
      apply List.eq_nil_iff_forall_not_mem.mpr
      intro m member
      obtain ⟨d, rfl⟩ := requests m member
      have found := (MessageQueue.mem_of_kind Mymesg.mesgType 1 s.queue _).mpr
        ⟨member, request_type setup d⟩
      rw [server_receives setup s stuck idle] at found
      cases found
    cases here : (s.client c).place with
    | send =>
        have full := client_sends setup s stuck c here
        rw [empty, List.length_nil] at full
        omega
    | receive =>
        have balance := sound.balance c
        rw [here, if_neg (by simp), account, Client.received, here, empty, idle] at balance
        have marked : [] ∈ (s.client c).written := by
          have all : (s.client c).written = reply setup c := by
            simpa [underway, MessageQueue.ofKind, Server.owes, requested] using balance
          rw [all, reply]
          simp
        exact sound.written c [] marked rfl
    | returned => exact unserved here
  · obtain ⟨m, left, here, to_⟩ := serving
    have above := setup.above d
    have full := server_sends setup s stuck m left here (by omega)
    have less := requests_lt setup s sound requests d ⟨m, left, here, to_⟩
    omega

/-! How the queue fills up. -/

omit [Fintype Proc] in
theorem full_stuck (setup : Setup Proc) (s : State Proc)
    (full : setup.capacity ≤ s.queue.length) (requests : ∀ m ∈ s.queue, m.mesgType = 1)
    (server : (∃ d, s.server.To (setup.pid d)) ∨ s.server = .receive ∧ s.queue = []) :
    ¬ (machine setup).CanStep s := by
  rintro ⟨action, ⟨after, output⟩, stepped⟩
  have effect := step_effect setup s after action output stepped
  have no_reply : ∀ c m rest,
      MessageQueue.receive Mymesg.mesgType (setup.pid c) s.queue ≠ some (m, rest) := by
    intro c m rest received
    obtain ⟨_, _, _, _, to_, _⟩ := MessageQueue.receive_some _ _ _ _ _ received
    have member := (MessageQueue.receive_perm received).mem_iff.mpr List.mem_cons_self
    exact pid_ne_one setup c ((requests m member).symm.trans to_)
  cases effect with
  | serve m rest here received =>
      rcases server with ⟨d, _, _, sending, _⟩ | ⟨_, empty⟩
      · rw [here] at sending
        cases sending
      · rw [empty] at received
        cases received
  | refused m left here bad =>
      rcases server with ⟨d, _, _, sending, to_⟩ | ⟨idle, _⟩
      · rw [here] at sending
        cases sending
        have above := setup.above d
        omega
      · rw [here] at idle
        cases idle
  | reply m left here room => omega
  | request c here room => omega
  | write c m rest here received data => exact no_reply c m rest received
  | mark c m rest here received empty => exact no_reply c m rest received

omit [Fintype Proc] in
theorem send_all (setup : Setup Proc) (cs : List Proc) (trace : List (Step Proc))
    (s : State Proc) (run : (machine setup).Run trace s) (distinct : cs.Nodup)
    (unsent : ∀ c ∈ cs, (s.client c).place = .send)
    (room : s.queue.length + cs.length ≤ setup.capacity) :
    ∃ longer last, (machine setup).Run longer last ∧
      last.queue = s.queue ++ cs.map setup.request ∧ last.server = s.server ∧
      ∀ c, c ∉ cs → last.client c = s.client c := by
  induction cs generalizing trace s with
  | nil => exact ⟨trace, s, run, by simp, rfl, fun _ _ => rfl⟩
  | cons c cs ih =>
      rw [List.nodup_cons] at distinct
      rw [List.length_cons] at room
      let next : State Proc := { s with
        queue := s.queue ++ [setup.request c]
        client := Function.update s.client c ⟨.receive, (s.client c).written⟩ }
      have able : s.queue.length < setup.capacity := by omega
      have stepped : step setup s (.client c) = some (next, ()) := by
        simp [step, clientStep, unsent c List.mem_cons_self, able, next, Setup.request]
      have away : ∀ d, d ≠ c → next.client d = s.client d :=
        fun d other => Function.update_of_ne other _ _
      let e : Step Proc := ⟨s, .client c, (), next⟩
      have later := ih _ next (run.next e stepped) distinct.2 ?_ ?_
      · obtain ⟨longer, last, ran, queue, server, others⟩ := later
        refine ⟨longer, last, ran, ?_, server, ?_⟩
        · rw [queue, List.map_cons, List.append_assoc]
          rfl
        · intro d absent
          rw [List.mem_cons, not_or] at absent
          rw [others d absent.2, away d absent.1]
      · intro d member
        rw [away d fun same => distinct.1 (same ▸ member)]
        exact unsent d (List.mem_cons_of_mem _ member)
      · simp only [next, List.length_append, List.length_singleton]
        omega

omit [Fintype Proc] in
theorem serving_first (setup : Setup Proc) (d : Proc) (places : 0 < setup.capacity) :
    ∃ trace s, (machine setup).Run trace s ∧ s.queue = [] ∧ s.server.To (setup.pid d) ∧
      (s.client d).place = .receive ∧ ∀ c, c ≠ d → (s.client c).place = .send := by
  have begun : (machine setup).Run [] (start : State Proc) := .start rfl
  let sent : State Proc :=
    ⟨[setup.request d], .receive, Function.update start.client d ⟨.receive, []⟩⟩
  have sends : step setup start (.client d) = some (sent, ()) := by
    simp [step, clientStep, start, places, sent, Setup.request]
  let serving : State Proc :=
    { sent with queue := [], server := serve setup.fopen (setup.request d).mesgData }
  have serves : step setup sent .server = some (serving, ()) := by
    simp [step, serverStep, sent, MessageQueue.receive, request_type, serving]
  let first : Step Proc := ⟨start, .client d, (), sent⟩
  let second : Step Proc := ⟨sent, .server, (), serving⟩
  refine ⟨_, serving, (begun.next first sends).next second serves, rfl,
    (serve_request setup d).1, ?_, ?_⟩
  · simp [serving, sent]
  · intro c other
    simp [serving, sent, start, Function.update_of_ne other]

/-- With more clients than places one client is served, and the requests of
others fill the queue before the first message of its reply. -/
theorem crowded_stuck (setup : Setup Proc) (crowded : setup.capacity < Fintype.card Proc) :
    ∃ trace s, (machine setup).Run trace s ∧ (∃ c, (s.client c).place ≠ .returned) ∧
      ¬ (machine setup).CanStep s := by
  have everyone : (Finset.univ : Finset Proc).toList.length = Fintype.card Proc :=
    Finset.length_toList _
  have distinct : (Finset.univ : Finset Proc).toList.Nodup := Finset.nodup_toList _
  cases clients : (Finset.univ : Finset Proc).toList with
  | nil =>
      rw [clients, List.length_nil] at everyone
      omega
  | cons d rest =>
      rw [clients, List.length_cons] at everyone
      rw [clients, List.nodup_cons] at distinct
      by_cases places : setup.capacity = 0
      · refine ⟨[], start, .start rfl, ⟨d, by simp [start]⟩, ?_⟩
        exact full_stuck setup start (by simp [places]) (by simp [start]) (Or.inr ⟨rfl, rfl⟩)
      · obtain ⟨trace, s, run, empty, serving, waits, unsent⟩ :=
          serving_first setup d (Nat.pos_of_ne_zero places)
        -- as many of the others send as there are places
        have away : ∀ c ∈ rest.take setup.capacity, c ≠ d := by
          rintro c member rfl
          exact distinct.1 (List.mem_of_mem_take member)
        obtain ⟨longer, last, ran, full, same, others⟩ :=
          send_all setup (rest.take setup.capacity) trace s run
            (distinct.2.sublist (List.take_sublist _ _))
            (fun c member => unsent c (away c member)) (by simp [empty])
        rw [empty, List.nil_append] at full
        refine ⟨longer, last, ran, ⟨d, ?_⟩, full_stuck setup last ?_ ?_ ?_⟩
        · rw [others d fun member => away d member rfl, waits]
          simp
        · rw [full, List.length_map, List.length_take]
          omega
        · intro m member
          rw [full] at member
          obtain ⟨c, _, rfl⟩ := List.mem_map.mp member
          exact request_type setup c
        · exact Or.inl ⟨d, same ▸ serving⟩

/-- Every client writes its answer, and everybody is served as long as the
queue has a place for each client; with fewer places there is a run that ends
in a deadlock. -/
theorem svmsgmpx1q_served (setup : Setup Proc) :
    (∀ trace s, (machine setup).Run trace s → ∀ c,
      (s.client c).written.flatten <+: answer setup c ∧
      ((s.client c).place = .returned → (s.client c).written.flatten = answer setup c)) ∧
    ((∀ trace s, (machine setup).Run trace s → (∃ c, (s.client c).place ≠ .returned) →
      (machine setup).CanStep s) ↔ Fintype.card Proc ≤ setup.capacity) := by
  constructor
  · intro trace s run c
    have sound := run_sound setup trace s run
    constructor
    · exact written_prefix setup s sound c
    · intro here
      rw [(returned_account setup s sound c here).1, (body_answer setup c).1]
  constructor
  · intro served
    by_contra crowded
    obtain ⟨trace, s, run, waiting, stuck⟩ := crowded_stuck setup (Nat.lt_of_not_le crowded)
    exact stuck (served trace s run waiting)
  · intro few trace s run waiting
    exact goes_on setup s (run_sound setup trace s run) few waiting

def twoClients (capacity : Nat) : Setup (Fin 2) where
  capacity := capacity
  pid c := c + 2
  stdin c := CText.bytes (if c = 0 then "f\n" else "g\n")
  fopen path :=
    if path = CText.bytes "f" then .ok (CText.bytes "hi\n") else .error (CText.bytes "No such file")
  own := by decide
  above := by decide
  fits := by decide
  text := by
    intro path file opened
    split at opened
    · cases opened
      decide
    · cases opened

theorem both_served : ∃ trace s, (machine (twoClients 2)).Run trace s ∧
    (s.client 0).written.flatten = CText.bytes "hi\n" ∧
    (s.client 1).written.flatten = CText.bytes "g: can't open, No such file\n" ∧
    (∀ c, (s.client c).written.flatten <+: answer (twoClients 2) c) := by
  obtain ⟨trace, s, run, checked⟩ := Machine.run_of_check (M := machine (twoClients 2))
    (s := start) rfl
    [.client 0, .client 1, .server, .server, .client 0, .server, .client 0, .server, .server,
      .server, .client 1, .client 1]
    (fun r => decide ((r.2.client 0).place = .returned ∧ (r.2.client 1).place = .returned ∧
      (r.2.client 0).written.flatten = CText.bytes "hi\n" ∧
      (r.2.client 1).written.flatten = CText.bytes "g: can't open, No such file\n"))
    (by decide +kernel)
  obtain ⟨_, _, first, second⟩ := of_decide_eq_true checked
  exact ⟨trace, s, run, first, second,
    fun c => ((svmsgmpx1q_served (twoClients 2)).1 trace s run c).1⟩

theorem request_fills_queue : ∃ trace s, (machine (twoClients 1)).Run trace s ∧
    (∃ c, (s.client c).place ≠ .returned) ∧ ¬ (machine (twoClients 1)).CanStep s :=
  crowded_stuck (twoClients 1) (by decide)

end NetworkProgramming.SvmsgMpx1q
