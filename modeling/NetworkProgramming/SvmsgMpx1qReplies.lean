import NetworkProgramming.SvmsgMpx1q

/-!
Every reply of the file server in full: what a client has written, what is on
its way to it and what the server still owes it are together the messages of
its reply, in order, whatever else is on the queue.
-/

namespace NetworkProgramming.SvmsgMpx1q

open CText

/-! The reply to a request. -/

/-- The file in the pieces that the server's loop reads. -/
def lines (fp : List UInt8) : List (List UInt8) :=
  match _got : fgets maxmesgdata fp with
  | none => []
  | some (line, rest) => cString line :: lines rest
termination_by fp.length
decreasing_by exact (fgets_some 4078 fp line rest _got).2.2

theorem lines_nil (fp : List UInt8) (over_ : fgets maxmesgdata fp = none) : lines fp = [] := by
  rw [lines]
  split
  · rfl
  · rename_i got
    rw [over_] at got
    cases got

theorem lines_cons (fp line rest : List UInt8) (got : fgets maxmesgdata fp = some (line, rest)) :
    lines fp = cString line :: lines rest := by
  rw [lines]
  split
  · rename_i over_
    rw [got] at over_
    cases over_
  · rename_i again
    rw [got] at again
    cases again
    rfl

/-- Without a NUL in the file nothing of it is lost, and no piece is empty. -/
theorem lines_text (fp : List UInt8) (free : 0 ∉ fp) :
    (lines fp).flatten = fp ∧ ∀ line ∈ lines fp, line ≠ [] := by
  induction size : fp.length using Nat.strongRecOn generalizing fp with
  | ind n ih =>
      cases got : fgets maxmesgdata fp with
      | none =>
          have empty := (fgets_none maxmesgdata fp).mp got
          rw [lines_nil fp got]
          exact ⟨empty.symm, by simp⟩
      | some r =>
          obtain ⟨line, rest⟩ := r
          obtain ⟨whole, inhabited, shorter⟩ := fgets_some 4078 fp line rest got
          rw [← whole, List.mem_append, not_or] at free
          obtain ⟨flat, pieces⟩ := ih rest.length (by omega) rest free.2 rfl
          rw [lines_cons fp line rest got, c_string_whole line free.1]
          constructor
          · rw [List.flatten_cons, flat, whole]
          · intro piece member
            rcases List.mem_cons.mp member with rfl | later
            · exact inhabited
            · exact pieces piece later

def Left.messages : Left → List (List UInt8)
  | .file fp => lines fp ++ [[]]
  | .mark => [[]]
  | .nothing => []

def Server.owes (pid : Int) : Server → List (List UInt8)
  | .send mesg left => if mesg.mesgType = pid then mesg.mesgData :: left.messages else []
  | _ => []

theorem next_line_owes (pid : Int) (fp : List UInt8) :
    (nextLine pid fp).owes pid = lines fp ++ [[]] := by
  rw [nextLine]
  cases got : fgets maxmesgdata fp with
  | none => simp [Server.owes, Left.messages, lines_nil fp got]
  | some r =>
      obtain ⟨line, rest⟩ := r
      simp [Server.owes, Left.messages, lines_cons fp line rest got]

def Server.To (pid : Int) (server : Server) : Prop :=
  ∃ mesg left, server = .send mesg left ∧ mesg.mesgType = pid

theorem Server.To.others {pid other : Int} {server : Server} (to_ : server.To pid)
    (apart : pid ≠ other) : server.owes other = [] := by
  obtain ⟨mesg, left, rfl, rfl⟩ := to_
  exact if_neg apart

theorem next_line_to (pid : Int) (fp : List UInt8) : (nextLine pid fp).To pid := by
  rw [nextLine]
  split <;> exact ⟨_, _, rfl, rfl⟩

theorem next_owes (pid : Int) (left : Left) : (left.next pid).owes pid = left.messages := by
  cases left with
  | file fp => exact next_line_owes pid fp
  | mark => simp [Left.next, Server.owes, Left.messages]
  | nothing => rfl

theorem next_to (pid : Int) (left : Left) :
    (left.next pid).To pid ∨ left.next pid = .receive := by
  cases left with
  | file fp => exact Or.inl (next_line_to pid fp)
  | mark => exact Or.inl ⟨_, _, rfl, rfl⟩
  | nothing => exact Or.inr rfl

variable {Proc : Type*}

def Setup.request (setup : Setup Proc) (c : Proc) : Mymesg :=
  SvmsgMpx1q.request (setup.pid c) (setup.stdin c)

def pathname (pid : Nat) (stdin : List UInt8) : List UInt8 :=
  let line := cString (firstLine (maxmesgdata - (decimal pid ++ [space]).length) stdin)
  if line.getLast? = some newline then line.dropLast else line

theorem start_free (pid : Nat) : 0 ∉ decimal pid ++ [space] := by
  have digits := not_mem_decimal pid 0 rfl
  simp [digits, space]

theorem request_data (pid : Nat) (stdin : List UInt8) (fits : pid < 2 ^ 31) :
    (request pid stdin).mesgData = decimal pid ++ space :: pathname pid stdin := by
  have short := decimal_length pid 10 (by omega) (by omega)
  have whole : snprintf maxmesgdata (decimal pid ++ [space]) = decimal pid ++ [space] := by
    rw [snprintf, List.take_of_length_le]
    simp only [List.length_append, List.length_singleton, maxmesgdata, pipeBuf]
    omega
  simp only [request, whole, pathname]
  rw [c_string_append _ _ (start_free pid)]
  -- both sides as the text before the blank, the blank and the line
  have line : ∀ l : List UInt8,
      (if (decimal pid ++ [space] ++ l).getLast? = some newline then
        (decimal pid ++ [space] ++ l).dropLast else decimal pid ++ [space] ++ l) =
      decimal pid ++ space :: if l.getLast? = some newline then l.dropLast else l := by
    intro l
    rcases List.eq_nil_or_concat l with rfl | ⟨init, b, rfl⟩
    · simp [space, newline]
    · rw [List.concat_eq_append, ← List.append_assoc]
      simp only [List.getLast?_concat, List.dropLast_concat]
      split <;> simp
  exact line _

def errorLine (setup : Setup Proc) (c : Proc) (strerror : List UInt8) : List UInt8 :=
  cString (pathname (setup.pid c) (setup.stdin c) ++
    canNotOpen (maxmesgdata - (setup.request c).mesgData.length) strerror)

/-- What a client is to write to standard output. -/
def answer (setup : Setup Proc) (c : Proc) : List UInt8 :=
  match setup.fopen (pathname (setup.pid c) (setup.stdin c)) with
  | .error strerror => errorLine setup c strerror
  | .ok file => file

/-- The same in the messages of the reply before the one of length 0. -/
def body (setup : Setup Proc) (c : Proc) : List (List UInt8) :=
  match setup.fopen (pathname (setup.pid c) (setup.stdin c)) with
  | .error strerror => [errorLine setup c strerror]
  | .ok file => lines file

def reply (setup : Setup Proc) (c : Proc) : List (List UInt8) := body setup c ++ [[]]

theorem pathname_free (pid : Nat) (stdin : List UInt8) : 0 ∉ pathname pid stdin := by
  have line : ∀ l : List UInt8, 0 ∉ l → 0 ∉ if l.getLast? = some newline then l.dropLast else l := by
    intro l free
    split
    · exact fun member => free (List.dropLast_subset l member)
    · exact free
  exact line _ (c_string_free _)

theorem error_line_ne_nil (setup : Setup Proc) (c : Proc) (strerror : List UInt8) :
    errorLine setup c strerror ≠ [] := by
  have free := pathname_free (setup.pid c) (setup.stdin c)
  rw [errorLine, c_string_append _ _ free]
  intro nothing
  obtain ⟨path, text⟩ := List.append_eq_nil_iff.mp nothing
  -- with an empty pathname there is room for the text
  have short := decimal_length (setup.pid c) 10 (by omega) (by have := setup.fits c; omega)
  have room : maxmesgdata - (setup.request c).mesgData.length - 1 =
      (maxmesgdata - (setup.request c).mesgData.length - 2) + 1 := by
    rw [Setup.request, request_data _ _ (setup.fits c), path]
    simp only [List.length_append, List.length_singleton, maxmesgdata, pipeBuf]
    omega
  have first : bytes ": can't open, " = 58 :: bytes " can't open, " := by decide
  rw [canNotOpen, snprintf, room, first, List.cons_append, List.cons_append, List.take_succ_cons,
    cString, List.takeWhile_cons_of_pos (by decide)] at text
  cases text

theorem body_answer (setup : Setup Proc) (c : Proc) :
    (body setup c).flatten = answer setup c ∧ ∀ line ∈ body setup c, line ≠ [] := by
  rw [body, answer]
  cases opened : setup.fopen (pathname (setup.pid c) (setup.stdin c)) with
  | error strerror =>
      refine ⟨by simp, ?_⟩
      intro line member
      rw [List.mem_singleton.mp member]
      exact error_line_ne_nil setup c strerror
  | ok file => exact lines_text file (setup.text _ file opened)

theorem serve_request (setup : Setup Proc) (c : Proc) :
    (serve setup.fopen (setup.request c).mesgData).To (setup.pid c) ∧
      (serve setup.fopen (setup.request c).mesgData).owes (setup.pid c) = reply setup c := by
  have data := request_data (setup.pid c) (setup.stdin c) (setup.fits c)
  have inhabited : (setup.request c).mesgData ≠ [] := by
    rw [Setup.request, data]
    simp
  have blank := strchr_append space (decimal (setup.pid c))
    (pathname (setup.pid c) (setup.stdin c)) (not_mem_decimal _ _ rfl) (not_mem_decimal _ _ rfl)
  rw [← data] at blank
  have path := c_string_whole _ (pathname_free (setup.pid c) (setup.stdin c))
  rw [reply, body]
  cases opened : setup.fopen (pathname (setup.pid c) (setup.stdin c)) with
  | error strerror =>
      have ran : serve setup.fopen (setup.request c).mesgData =
          .send ⟨setup.pid c, errorLine setup c strerror⟩ .mark := by
        rw [serve, if_neg inhabited]
        simp only [Setup.request, blank, path, opened, atol_decimal, errorLine]
      rw [ran]
      exact ⟨⟨_, _, rfl, rfl⟩, by simp [Server.owes, Left.messages]⟩
  | ok file =>
      have ran : serve setup.fopen (setup.request c).mesgData = nextLine (setup.pid c) file := by
        rw [serve, if_neg inhabited]
        simp only [Setup.request, blank, path, opened, atol_decimal]
      rw [ran]
      exact ⟨next_line_to _ file, next_line_owes _ file⟩

theorem request_type (setup : Setup Proc) (c : Proc) : (setup.request c).mesgType = 1 := rfl

theorem pid_ne_one (setup : Setup Proc) (c : Proc) : (1 : Int) ≠ setup.pid c := by
  have above := setup.above c
  omega

theorem pid_ne (setup : Setup Proc) {c d : Proc} (apart : c ≠ d) :
    (setup.pid c : Int) ≠ setup.pid d := by
  intro same
  exact apart (setup.own (by exact_mod_cast same))

/-- No two clients send the same request: each has its process id in it. -/
theorem request_injective (setup : Setup Proc) : Function.Injective setup.request := by
  intro c d same
  by_contra apart
  obtain ⟨_, left, here, to_⟩ := (serve_request setup c).1
  obtain ⟨_, left', there, to_'⟩ := (serve_request setup d).1
  rw [same] at here
  rw [here] at there
  cases there
  exact pid_ne setup apart (to_.symm.trans to_')

/-! The account of one client. -/

def requested (setup : Setup Proc) (queue : List Mymesg) (c : Proc) : List (List UInt8) :=
  (List.replicate (queue.count (setup.request c)) (reply setup c)).flatten

/-- What is on its way to the client. -/
def underway (setup : Setup Proc) (queue : List Mymesg) (c : Proc) : List (List UInt8) :=
  (MessageQueue.ofKind Mymesg.mesgType (setup.pid c) queue).map Mymesg.mesgData

def Client.received (client : Client) : List (List UInt8) :=
  client.written ++ if client.place = .returned then [[]] else []

def account (setup : Setup Proc) (queue : List Mymesg) (server : Server) (client : Client)
    (c : Proc) : List (List UInt8) :=
  client.received ++ (underway setup queue c ++
    (server.owes (setup.pid c) ++ requested setup queue c))

structure Sound (setup : Setup Proc) (s : State Proc) : Prop where
  balance : ∀ c, account setup s.queue s.server (s.client c) c =
    if (s.client c).place = .send then [] else reply setup c
  written : ∀ c, ∀ line ∈ (s.client c).written, line ≠ []
  queued : ∀ m ∈ s.queue, ∃ c, m = setup.request c ∨ m.mesgType = setup.pid c
  serving : s.server = .receive ∨ ∃ c, s.server.To (setup.pid c)

theorem requested_send (setup : Setup Proc) (queue : List Mymesg) (c : Proc) (m : Mymesg)
    (other : m ≠ setup.request c) :
    requested setup (queue ++ [m]) c = requested setup queue c := by
  rw [requested, List.count_append, List.count_singleton, if_neg (by simpa using other)]
  rfl

theorem requested_receive (setup : Setup Proc) (queue rest : List Mymesg) (c : Proc) (m : Mymesg)
    (perm : queue.Perm (m :: rest)) :
    requested setup queue c =
      (if m = setup.request c then reply setup c else []) ++ requested setup rest c := by
  rw [requested, perm.count_eq, List.count_cons]
  by_cases same : m = setup.request c
  · rw [if_pos (by simpa using same), if_pos same, Nat.add_comm, List.replicate_add,
      List.flatten_append]
    simp [requested]
  · rw [if_neg (by simpa using same), if_neg same]
    rfl

theorem requested_request (setup : Setup Proc) (queue : List Mymesg) (c : Proc) :
    requested setup (queue ++ [setup.request c]) c = requested setup queue c ++ reply setup c := by
  rw [requested, List.count_append, List.count_singleton_self, List.replicate_add,
    List.flatten_append]
  simp [requested]

theorem underway_send (setup : Setup Proc) (queue : List Mymesg) (c : Proc) (m : Mymesg) :
    underway setup (queue ++ [m]) c =
      underway setup queue c ++ if m.mesgType = setup.pid c then [m.mesgData] else [] := by
  rw [underway, MessageQueue.of_kind_send, List.map_append]
  congr 1
  split <;> rfl

theorem underway_receive (setup : Setup Proc) (queue rest : List Mymesg) (c : Proc) (k : Int)
    (m : Mymesg) (received : MessageQueue.receive Mymesg.mesgType k queue = some (m, rest)) :
    underway setup queue c =
      (if m.mesgType = setup.pid c then [m.mesgData] else []) ++ underway setup rest c := by
  rw [underway, MessageQueue.of_kind_receive received, List.map_append]
  congr 1
  split <;> rfl

theorem request_queued (setup : Setup Proc) (s : State Proc) (sound : Sound setup s) (m : Mymesg)
    (member : m ∈ s.queue) (first : m.mesgType = 1) : ∃ c, m = setup.request c := by
  obtain ⟨c, request | reply⟩ := sound.queued m member
  · exact ⟨c, request⟩
  · exact absurd (first.symm.trans reply) (pid_ne_one setup c)

theorem other_request (setup : Setup Proc) (c d : Proc) (m : Mymesg)
    (reply : m.mesgType = setup.pid c) : m ≠ setup.request d := by
  rintro rfl
  exact pid_ne_one setup c reply

theorem serve_account (setup : Setup Proc) (queue rest : List Mymesg) (client : Client)
    (c d : Proc)
    (received : MessageQueue.receive Mymesg.mesgType 1 queue = some (setup.request c, rest)) :
    account setup rest (serve setup.fopen (setup.request c).mesgData) client d =
      account setup queue .receive client d := by
  obtain ⟨to_, owes⟩ := serve_request setup c
  rw [account, account, underway_receive setup _ _ d 1 _ received, request_type,
    if_neg (pid_ne_one setup d),
    requested_receive setup _ _ d _ (MessageQueue.receive_perm received)]
  by_cases same : c = d
  · subst d
    rw [owes, if_pos rfl]
    rfl
  · rw [to_.others (pid_ne setup same), if_neg fun equal => same (request_injective setup equal)]
    rfl

theorem reply_account (setup : Setup Proc) (queue : List Mymesg) (client : Client) (m : Mymesg)
    (left : Left) (c d : Proc) (to_ : m.mesgType = setup.pid c) :
    account setup (queue ++ [m]) (left.next m.mesgType) client d =
      account setup queue (.send m left) client d := by
  rw [account, account, underway_send, requested_send setup _ d m (other_request setup c d m to_),
    Server.owes.eq_def (setup.pid d) (.send m left)]
  by_cases here : m.mesgType = setup.pid d
  · rw [if_pos here, here, next_owes]
    simp [here]
  · have later : (left.next m.mesgType).owes (setup.pid d) = [] := by
      rcases next_to m.mesgType left with sends | idle
      · exact sends.others here
      · rw [idle]
        rfl
    simp [later, here]

theorem request_account (setup : Setup Proc) (queue : List Mymesg) (server : Server)
    (client : Client) (c d : Proc) [Decidable (c = d)] :
    account setup (queue ++ [setup.request c]) server client d =
      account setup queue server client d ++ if c = d then reply setup d else [] := by
  rw [account, account, underway_send, request_type, if_neg (pid_ne_one setup d)]
  by_cases same : c = d
  · subst d
    rw [requested_request, if_pos rfl]
    simp
  · rw [requested_send setup _ d _ fun equal => same (request_injective setup equal), if_neg same]
    simp

theorem receive_account (setup : Setup Proc) (queue rest : List Mymesg) (server : Server)
    (before after : Client) (c d : Proc) (m : Mymesg)
    (received : MessageQueue.receive Mymesg.mesgType (setup.pid c) queue = some (m, rest))
    (grown : after.received = before.received ++
      if m.mesgType = setup.pid d then [m.mesgData] else []) :
    account setup rest server after d = account setup queue server before d := by
  obtain ⟨_, _, _, _, to_, _⟩ := MessageQueue.receive_some _ _ _ _ _ received
  rw [account, account, underway_receive setup _ _ d _ _ received, grown,
    requested_receive setup _ _ d _ (MessageQueue.receive_perm received),
    if_neg (other_request setup c d m to_)]
  simp

/-- What is received after the message of length 0 is nothing. -/
theorem returned_account (setup : Setup Proc) (s : State Proc) (sound : Sound setup s) (c : Proc)
    (here : (s.client c).place = .returned) :
    (s.client c).written = body setup c ∧ underway setup s.queue c = [] := by
  have balance := sound.balance c
  rw [here, if_neg (by simp), reply, account, Client.received, if_pos here, List.append_assoc,
    List.singleton_append] at balance
  rcases Machine.split_snoc balance with ⟨rest, written, _⟩ | ⟨init, _, early⟩
  · exact ⟨written, (List.append_eq_nil_iff.mp rest).1⟩
  · exact absurd rfl ((body_answer setup c).2 [] (by rw [← early]; simp))

theorem written_prefix (setup : Setup Proc) (s : State Proc) (sound : Sound setup s) (c : Proc) :
    (s.client c).written.flatten <+: answer setup c := by
  have balance := sound.balance c
  rw [account, Client.received, List.append_assoc] at balance
  have whole := congrArg List.flatten balance
  rw [List.flatten_append] at whole
  refine List.IsPrefix.trans ⟨_, whole⟩ ?_
  split
  · exact List.nil_prefix
  · rw [reply, List.flatten_append, (body_answer setup c).1]
    simp

variable [DecidableEq Proc]

theorem request_balance (setup : Setup Proc) (s : State Proc) (sound : Sound setup s)
    (c : Proc) (here : (s.client c).place = .send) (d : Proc) :
    account setup (s.queue ++ [setup.request c]) s.server
        (Function.update s.client c ⟨.receive, (s.client c).written⟩ d) d =
      if (Function.update s.client c ⟨.receive, (s.client c).written⟩ d).place = .send then []
      else reply setup d := by
  have earlier := sound.balance d
  rw [request_account]
  by_cases same : d = c
  · subst d
    rw [here, if_pos rfl, account, Client.received, here] at earlier
    obtain ⟨unwritten, unsent, unowed, unrequested⟩ := by simpa using earlier
    rw [account, Client.received, Function.update_self, if_pos rfl]
    simp [unwritten, unsent, unowed, unrequested]
  · rw [Function.update_of_ne same, earlier, if_neg (Ne.symm same), List.append_nil]

theorem receive_balance (setup : Setup Proc) (s : State Proc) (sound : Sound setup s)
    (c : Proc) (m : Mymesg) (rest : List Mymesg) (after : Client)
    (here : (s.client c).place = .receive)
    (received : MessageQueue.receive Mymesg.mesgType (setup.pid c) s.queue = some (m, rest))
    (grown : after.received = (s.client c).written ++ [m.mesgData])
    (sent : after.place ≠ .send) (d : Proc) :
    account setup rest s.server (Function.update s.client c after d) d =
      if (Function.update s.client c after d).place = .send then [] else reply setup d := by
  obtain ⟨_, _, _, _, to_, _⟩ := MessageQueue.receive_some _ _ _ _ _ received
  have earlier := sound.balance d
  by_cases same : d = c
  · subst d
    rw [Function.update_self, if_neg sent]
    rw [here, if_neg (by simp)] at earlier
    rw [← earlier]
    apply receive_account setup _ _ _ _ _ c c m received
    rw [if_pos to_, grown, Client.received, here]
    simp
  · rw [Function.update_of_ne same, ← earlier]
    apply receive_account setup _ _ _ _ _ c d m received
    rw [to_, if_neg (pid_ne setup (Ne.symm same)), List.append_nil]

theorem written_update (client : Proc → Client)
    (kept : ∀ c, ∀ line ∈ (client c).written, line ≠ []) (c : Proc) (after : Client)
    (new : ∀ line ∈ after.written, line ≠ []) (d : Proc) :
    ∀ line ∈ (Function.update client c after d).written, line ≠ [] := by
  by_cases same : d = c
  · subst d
    rwa [Function.update_self]
  · rw [Function.update_of_ne same]
    exact kept d

theorem step_sound (setup : Setup Proc) (s after : State Proc) (action : Action Proc)
    (effect : Effect setup s action after) (sound : Sound setup s) : Sound setup after := by
  cases effect with
  | serve m rest here received =>
      have perm := MessageQueue.receive_perm received
      obtain ⟨_, _, _, _, first, _⟩ := MessageQueue.receive_some _ _ _ _ _ received
      -- the message of type 1 is the request of a client, whose reply begins here
      obtain ⟨c, rfl⟩ := request_queued setup s sound m
        (perm.mem_iff.mpr List.mem_cons_self) first
      constructor
      · intro d
        rw [← sound.balance d, here]
        exact serve_account setup s.queue rest _ c d received
      · exact sound.written
      · intro n member
        exact sound.queued n (perm.mem_iff.mpr (List.mem_cons_of_mem _ member))
      · exact Or.inr ⟨c, (serve_request setup c).1⟩
  | refused m left here bad =>
      obtain idle | ⟨c, _, _, sending, to_⟩ := sound.serving
      · rw [here] at idle
        cases idle
      · rw [here] at sending
        cases sending
        -- a type that the server sends to is the process id of a client, so positive
        have above := setup.above c
        omega
  | reply m left here room =>
      obtain idle | ⟨c, _, _, sending, to_⟩ := sound.serving
      · rw [here] at idle
        cases idle
      · rw [here] at sending
        cases sending
        constructor
        · intro d
          rw [← sound.balance d, here]
          exact reply_account setup s.queue _ m left c d to_
        · exact sound.written
        · intro n member
          rcases List.mem_append.mp member with earlier | last
          · exact sound.queued n earlier
          · rw [List.mem_singleton.mp last]
            exact ⟨c, Or.inr to_⟩
        -- behind this message the server goes on with the same client, or is done with it
        · rcases next_to m.mesgType left with sends | idle
          · exact Or.inr ⟨c, to_ ▸ sends⟩
          · exact Or.inl idle
  | request c here room =>
      constructor
      · exact request_balance setup s sound c here
      · exact written_update s.client sound.written c _ (sound.written c)
      · intro n member
        rcases List.mem_append.mp member with earlier | last
        · exact sound.queued n earlier
        · exact ⟨c, Or.inl (List.mem_singleton.mp last)⟩
      · exact sound.serving
  | write c m rest here received data =>
      have perm := MessageQueue.receive_perm received
      constructor
      · exact receive_balance setup s sound c m rest _ here received (by simp [Client.received])
          (by simp)
      · apply written_update s.client sound.written
        intro line member
        rcases List.mem_append.mp member with earlier | last
        · exact sound.written c line earlier
        · rw [List.mem_singleton.mp last]
          exact data
      · intro n member
        exact sound.queued n (perm.mem_iff.mpr (List.mem_cons_of_mem _ member))
      · exact sound.serving
  | mark c m rest here received empty =>
      have perm := MessageQueue.receive_perm received
      constructor
      · exact receive_balance setup s sound c m rest _ here received
          (by simp [Client.received, empty]) (by simp)
      · exact written_update s.client sound.written c _ (sound.written c)
      · intro n member
        exact sound.queued n (perm.mem_iff.mpr (List.mem_cons_of_mem _ member))
      · exact sound.serving

theorem run_sound (setup : Setup Proc) (trace : List (Step Proc)) (s : State Proc)
    (run : (machine setup).Run trace s) : Sound setup s := by
  apply run.invariant
  · rintro s rfl
    exact ⟨fun c => rfl, fun c line member => absurd member List.not_mem_nil,
      fun m member => absurd member List.not_mem_nil, Or.inl rfl⟩
  · intro e stepped sound
    exact step_sound setup e.before e.after e.action
      (step_effect setup e.before e.after e.action e.output stepped) sound

end NetworkProgramming.SvmsgMpx1q
