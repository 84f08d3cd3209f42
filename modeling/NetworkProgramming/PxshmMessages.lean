import NetworkProgramming.Pxshm

/-!
When the server prints the messages that were reserved. `nstored` counts stored
messages without saying which, so the server takes the count for a prefix: that
is right as long as no client announces its message while the copy of one that
is to be printed by then is still outstanding.
-/

namespace NetworkProgramming.Pxshm

variable {Proc : Type*} [Fintype Proc] [DecidableEq Proc]

/-! The places that count towards each semaphore. -/

def Put.inside : Put → Bool
  | .reserve | .postMutex => true
  | _ => false

/-- Holds a token of `nempty` and has not reserved a slot with it. -/
def Put.claims : Put → Bool
  | .waitMutex | .reserve => true
  | _ => false

/-- Has reserved a slot that `nstored` does not show yet. -/
def Put.unposted : Put → Bool
  | .postMutex | .strcpy | .postNstored => true
  | _ => false

/-- Has reserved a slot and not copied its message there yet. -/
def Put.uncopied : Put → Bool
  | .postMutex | .strcpy => true
  | _ => false

def Put.counting : Put → Bool
  | .overflow | .postOverflow => true
  | _ => false

def Get.inside : Get → Bool
  | .print | .postMutex => true
  | _ => false

def Get.claims : Get → Bool
  | .waitMutex | .print => true
  | _ => false

/-- Has printed a slot that `nempty` does not show yet. -/
def Get.owes : Get → Bool
  | .postMutex | .postNempty => true
  | _ => false

def Get.counting : Get → Bool
  | .fetch | .postOverflow => true
  | _ => false

def clientsAt (s : State Proc) (at_ : Put → Bool) : Nat :=
  Threads.count s.client fun c => at_ c.place

structure Tokens (s : State Proc) : Prop where
  mutex : s.ptr.mutex + clientsAt s Put.inside + s.server.place.inside.toNat = 1
  nempty : s.ptr.nempty + clientsAt s Put.claims + s.history.reserved.length +
    s.server.place.owes.toNat = nmesg + s.history.printed.length
  nstored : s.ptr.nstored + s.server.place.claims.toNat + s.history.printed.length =
    s.history.posts
  posts : s.history.posts + clientsAt s Put.unposted = s.history.reserved.length
  noverflowmutex : s.ptr.noverflowmutex + clientsAt s Put.counting +
    s.server.place.counting.toNat = 1

structure Reserved (s : State Proc) (p : Proc) : Prop where
  before : s.history.ticket p < s.history.reserved.length
  mesg : s.history.reserved[s.history.ticket p]? = some (s.client p).mesg
  offset : (s.client p).offset = s.history.ticket p % nmesg * mesgsize

structure Slots (s : State Proc) : Prop where
  nput : s.ptr.nput = s.history.reserved.length % nmesg
  index : s.server.index = s.history.printed.length % nmesg
  msgoff : ∀ index, s.ptr.msgoff index = index * mesgsize
  held : ∀ p, (s.client p).place.unposted = true → Reserved s p
  apart : ∀ p q, (s.client p).place.uncopied = true → (s.client q).place.uncopied = true →
    s.history.ticket p = s.history.ticket q → p = q
  filled : ∀ k, s.history.printed.length ≤ k → k < s.history.reserved.length →
    (∃ p, (s.client p).place.uncopied = true ∧ s.history.ticket p = k) ∨
      s.history.reserved[k]? = some (s.ptr.msgdata (k % nmesg * mesgsize))

def Due (s : State Proc) : Prop :=
  ∀ p, (s.client p).place.uncopied = true → s.history.posts ≤ s.history.ticket p

def Printed (s : State Proc) : Prop :=
  s.history.printed = s.history.reserved.take s.history.printed.length

/-- The step does not announce a message while the copy of an earlier one, of
those that may be printed after it, is outstanding. -/
def CopiedBefore (e : Step Proc) : Prop :=
  e.output = .posted → ∀ p, (e.before.client p).place.uncopied = true →
    e.before.history.posts < e.before.history.ticket p

omit [Fintype Proc] [DecidableEq Proc] in
theorem uncopied_unposted (place : Put) (here : place.uncopied = true) :
    place.unposted = true := by
  cases place <;> simp_all [Put.uncopied, Put.unposted]

theorem clients_after (s : State Proc) (p : Proc) (ptr : Shmstruct) (next : Client)
    (event : Event) (at_ : Put → Bool) :
    clientsAt (s.afterClient p ptr next event) at_ + (at_ (s.client p).place).toNat =
      clientsAt s at_ + (at_ next.place).toNat :=
  Threads.count_update s.client p next fun c => at_ c.place

theorem client_tokens (pid nloop : Nat) (s : State Proc) (p : Proc) (ptr : Shmstruct)
    (next : Client) (event : Event)
    (did : Client2 pid nloop s.ptr (s.client p) ptr next event) (tokens : Tokens s) :
    Tokens (s.afterClient p ptr next event) := by
  have counts := clients_after s p ptr next event
  have inside := counts Put.inside
  have claims := counts Put.claims
  have unposted := counts Put.unposted
  have counting := counts Put.counting
  obtain ⟨mutex, nempty, nstored, posts, noverflowmutex⟩ := tokens
  generalize s.client p = c at did inside claims unposted counting
  cases did <;>
    simp only [Put.inside, Put.claims, Put.unposted, Put.counting, Bool.toNat_true,
      Bool.toNat_false] at inside claims unposted counting <;>
    constructor <;>
    simp only [State.afterClient, History.record, List.length_append, List.length_singleton] at * <;>
    omega

omit [DecidableEq Proc] in
theorem server_tokens (s : State Proc) (ptr : Shmstruct) (next : Server) (event : Event)
    (did : Server2 s.ptr s.server ptr next event) (tokens : Tokens s) :
    Tokens (s.afterServer ptr next event) := by
  obtain ⟨mutex, nempty, nstored, posts, noverflowmutex⟩ := tokens
  have same : clientsAt (s.afterServer ptr next event) = clientsAt s := rfl
  generalize s.server = server at *
  cases did with
  | report index last temp again event silent =>
      rcases silent with rfl | rfl <;>
        constructor <;> simp_all [Get.inside, Get.owes, Get.claims, Get.counting, History.serve,
          State.afterServer]
  | _ =>
      constructor <;>
        simp_all only [Get.inside, Get.owes, Get.claims, Get.counting, Bool.toNat_true,
          Bool.toNat_false, History.serve, State.afterServer, List.length_append,
          List.length_singleton] <;> omega

omit [Fintype Proc] in
theorem moved_slots (s : State Proc) (p : Proc) (ptr : Shmstruct) (next : Client) (event : Event)
    (data : ptr.nput = s.ptr.nput ∧ ptr.msgoff = s.ptr.msgoff ∧ ptr.msgdata = s.ptr.msgdata)
    (silent : ∀ mesg, event ≠ .reserved mesg)
    (unposted : next.place.unposted = true → (s.client p).place.unposted = true ∧
      next.mesg = (s.client p).mesg ∧ next.offset = (s.client p).offset)
    (uncopied : next.place.uncopied = (s.client p).place.uncopied) (slots : Slots s) :
    Slots (s.afterClient p ptr next event) := by
  have history : (s.history.record p event).reserved = s.history.reserved ∧
      (s.history.record p event).ticket = s.history.ticket ∧
      (s.history.record p event).printed = s.history.printed := by
    cases event with
    | reserved mesg => exact absurd rfl (silent mesg)
    | _ => exact ⟨rfl, rfl, rfl⟩
  have copying (q : Proc) : (Function.update s.client p next q).place.uncopied =
      (s.client q).place.uncopied := by
    by_cases same : q = p
    · rw [same, Function.update_self, uncopied]
    · rw [Function.update_of_ne same]
  obtain ⟨nput, index, msgoff, held, apart, filled⟩ := slots
  constructor <;> simp only [State.afterClient, history, data, copying]
  · exact nput
  · exact index
  · exact msgoff
  · intro q here
    by_cases same : q = p
    · subst q
      simp only [Function.update_self] at here
      obtain ⟨was, mesg, offset⟩ := unposted here
      obtain ⟨before, kept, there⟩ := held p was
      constructor <;> simp only [history, Function.update_self]
      · exact before
      · rw [kept, mesg]
      · rw [offset, there]
    · simp only [Function.update_of_ne same] at here
      obtain ⟨before, kept, there⟩ := held q here
      constructor <;> simp only [history, Function.update_of_ne same]
      · exact before
      · exact kept
      · exact there
  · exact apart
  · exact filled

omit [Fintype Proc] in
theorem reserved_slots (s : State Proc) (p : Proc) (i : Nat) (mesg : Mesg) (offset : Nat)
    (here : s.client p = ⟨.reserve, i, mesg, offset⟩) (slots : Slots s) :
    Slots (s.afterClient p { s.ptr with nput := Ring.next nmesg s.ptr.nput }
      ⟨.postMutex, i, mesg, s.ptr.msgoff s.ptr.nput⟩ (.reserved mesg)) := by
  obtain ⟨nput, index, msgoff, held, apart, filled⟩ := slots
  have older (q : Proc) (other : q ≠ p) (copying : (s.client q).place.uncopied = true) :
      s.history.ticket q ≠ s.history.reserved.length :=
    Nat.ne_of_lt (held q (uncopied_unposted _ copying)).before
  constructor <;> simp only [State.afterClient, History.record, List.length_append,
    List.length_singleton]
  · rw [nput, Ring.next_mod _ _ (by decide)]
  · exact index
  · exact msgoff
  · intro q there
    by_cases same : q = p
    · subst q
      constructor <;> simp [msgoff, nput]
    · simp only [Function.update_of_ne same] at there
      obtain ⟨before, kept, place⟩ := held q there
      constructor <;> simp only [Function.update_of_ne same, List.length_append,
        List.length_singleton]
      · omega
      · rw [List.getElem?_append_left before, kept]
      · exact place
  -- the new number is larger than all that clients still stand for
  · intro q r left right same
    by_cases first : q = p
    · by_cases second : r = p
      · rw [first, second]
      · subst q
        rw [Function.update_self, Function.update_of_ne second] at same
        rw [Function.update_of_ne second] at right
        exact absurd same.symm (older r second right)
    · rw [Function.update_of_ne first] at same left
      by_cases second : r = p
      · subst r
        rw [Function.update_self] at same
        exact absurd same (older q first left)
      · rw [Function.update_of_ne second] at same right
        exact apart q r left right same
  · intro k low high
    by_cases last : k = s.history.reserved.length
    · exact Or.inl ⟨p, by simp [Put.uncopied], by simp [last]⟩
    · have earlier : k < s.history.reserved.length := by omega
      rw [List.getElem?_append_left earlier]
      apply (filled k low earlier).imp_left
      rintro ⟨q, copying, number⟩
      have other : q ≠ p := by
        rintro rfl
        simp [here, Put.uncopied] at copying
      exact ⟨q, by rwa [Function.update_of_ne other], by rwa [Function.update_of_ne other]⟩

theorem copied_slots (s : State Proc) (p : Proc) (i : Nat) (mesg : Mesg) (offset : Nat)
    (here : s.client p = ⟨.strcpy, i, mesg, offset⟩) (tokens : Tokens s) (due : Due s)
    (slots : Slots s) :
    Slots (s.afterClient p
      { s.ptr with msgdata := Function.update s.ptr.msgdata offset mesg }
      ⟨.postNstored, i, mesg, offset⟩ .quiet) := by
  obtain ⟨nput, index, msgoff, held, apart, filled⟩ := slots
  have copying : (s.client p).place.uncopied = true := by rw [here]; rfl
  obtain ⟨before, kept, there⟩ := held p (uncopied_unposted _ copying)
  rw [here] at kept there
  simp only at kept there
  -- the tickets of messages not yet printed span at most nmesg numbers
  have above : s.history.printed.length ≤ s.history.ticket p := by
    have late := due p copying
    have printed := tokens.nstored
    omega
  have window : s.history.reserved.length ≤ nmesg + s.history.printed.length := by
    have account := tokens.nempty
    omega
  constructor <;> simp only [State.afterClient, History.record]
  · exact nput
  · exact index
  · exact msgoff
  · intro q posting
    by_cases same : q = p
    · subst q
      constructor <;> simp only [Function.update_self]
      · exact before
      · exact kept
      · exact there
    · rw [Function.update_of_ne same] at posting
      obtain ⟨early, message, place⟩ := held q posting
      constructor <;> simp only [Function.update_of_ne same]
      · exact early
      · exact message
      · exact place
  · intro q r left right same
    have other (t : Proc) (hold : (Function.update s.client p
        ⟨.postNstored, i, mesg, offset⟩ t).place.uncopied = true) :
        (s.client t).place.uncopied = true := by
      by_cases equal : t = p
      · subst t
        exact copying
      · rwa [Function.update_of_ne equal] at hold
    exact apart q r (other q left) (other r right) same
  · intro k low high
    by_cases mine : k = s.history.ticket p
    · subst k
      exact Or.inr (by rw [there, Function.update_self, kept])
    -- within this span no two numbers share a slot
    · have elsewhere : k % nmesg * mesgsize ≠ offset := by
        rw [there]
        intro same
        have cell : k % nmesg = s.history.ticket p % nmesg :=
          Nat.eq_of_mul_eq_mul_right (by decide) same
        exact mine (Ring.cell_inj nmesg s.history.printed.length _ _ (by omega) (by omega) cell)
      rw [Function.update_of_ne elsewhere]
      apply (filled k low high).imp_left
      rintro ⟨q, copy, number⟩
      have other : q ≠ p := by
        rintro rfl
        exact mine number.symm
      exact ⟨q, by rwa [Function.update_of_ne other], number⟩

theorem client_slots (pid nloop : Nat) (s : State Proc) (p : Proc) (ptr : Shmstruct)
    (next : Client) (event : Event)
    (did : Client2 pid nloop s.ptr (s.client p) ptr next event) (tokens : Tokens s)
    (due : Due s) (slots : Slots s) : Slots (s.afterClient p ptr next event) := by
  generalize here : s.client p = c at did
  cases did with
  | reserve i mesg offset => exact reserved_slots s p i mesg offset here slots
  | copy i mesg offset => exact copied_slots s p i mesg offset here tokens due slots
  | _ =>
      apply moved_slots
      · exact ⟨rfl, rfl, rfl⟩
      · simp
      · simp [here, Put.unposted]
      · simp [here, Put.uncopied]
      · exact slots

omit [DecidableEq Proc] in
theorem print_finds (s : State Proc) (index last temp : Nat)
    (here : s.server = ⟨.print, index, last, temp⟩) (tokens : Tokens s) (due : Due s)
    (slots : Slots s) :
    s.history.reserved[s.history.printed.length]? = some (s.ptr.msgdata (s.ptr.msgoff index)) := by
  have announced := tokens.nstored
  have reserved := tokens.posts
  simp only [here, Get.claims, Bool.toNat_true] at announced
  have expected : index = s.history.printed.length % nmesg := by
    rw [← slots.index, here]
  rcases slots.filled s.history.printed.length (Nat.le_refl _) (by omega) with
    ⟨p, copying, number⟩ | stored
  · have late := due p copying
    omega
  · rw [stored, slots.msgoff, expected]

omit [Fintype Proc] [DecidableEq Proc] in
theorem server_slots (s : State Proc) (ptr : Shmstruct) (next : Server) (event : Event)
    (did : Server2 s.ptr s.server ptr next event) (slots : Slots s) :
    Slots (s.afterServer ptr next event) := by
  obtain ⟨nput, index, msgoff, held, apart, filled⟩ := slots
  have ticket : (s.history.serve event).ticket = s.history.ticket := by cases event <;> rfl
  have reserved : (s.history.serve event).reserved = s.history.reserved := by cases event <;> rfl
  have printed : s.history.printed.length ≤ (s.history.serve event).printed.length := by
    cases event <;> simp [History.serve]
  have data : ptr.nput = s.ptr.nput ∧ ptr.msgoff = s.ptr.msgoff ∧
      ptr.msgdata = s.ptr.msgdata := by
    generalize s.server = server at did
    cases did <;> exact ⟨rfl, rfl, rfl⟩
  have turned : next.index = (s.history.serve event).printed.length % nmesg := by
    generalize s.server = server at did index
    cases did with
    | print i last temp =>
        simp only [History.serve, List.length_append, List.length_singleton] at index ⊢
        rw [index, Ring.next_mod _ _ (by decide)]
    | report i last temp again event silent => rcases silent with rfl | rfl <;> exact index
    | _ => exact index
  constructor <;> simp only [State.afterServer, reserved, ticket, data]
  · exact nput
  · exact turned
  · exact msgoff
  · intro q posting
    obtain ⟨before, kept, there⟩ := held q posting
    constructor <;> simp only [reserved, ticket]
    · exact before
    · exact kept
    · exact there
  · exact apart
  · intro k low high
    exact filled k (by omega) high

theorem step_kept (pid nloop : Proc → Nat) (e : Step Proc)
    (stepped : (machine pid nloop).Stepped e) (tokens : Tokens e.before) (due : Due e.before)
    (slots : Slots e.before) : Tokens e.after ∧ Slots e.after := by
  obtain ⟨s, action, event, after⟩ := e
  cases step_effect pid nloop s after action event stepped with
  | client did =>
      constructor
      · exact client_tokens _ _ s _ _ _ _ did tokens
      · exact client_slots _ _ s _ _ _ _ did tokens due slots
  | server did =>
      constructor
      · exact server_tokens s _ _ _ did tokens
      · exact server_slots s _ _ _ did slots

theorem step_due (pid nloop : Proc → Nat) (e : Step Proc)
    (stepped : (machine pid nloop).Stepped e) (copied : CopiedBefore e)
    (tokens : Tokens e.before) (due : Due e.before) : Due e.after := by
  obtain ⟨s, action, event, after⟩ := e
  have effect := step_effect pid nloop s after action event stepped
  have reserved := tokens.posts
  simp only [CopiedBefore] at *
  cases effect with
  | @client p ptr next _ did =>
      intro q copying
      generalize here : s.client p = c at did
      by_cases same : q = p
      · subst q
        simp only [State.afterClient, Function.update_self] at copying ⊢
        cases did with
        | reserve i mesg offset =>
            simp only [History.record, Function.update_self]
            omega
        | unlock i mesg offset => exact due p (by rw [here]; rfl)
        | _ => simp [Put.uncopied] at copying
      · simp only [State.afterClient, Function.update_of_ne same] at copying ⊢
        cases did with
        | announce i mesg offset => exact copied rfl q copying
        | reserve i mesg offset =>
            simp only [History.record, Function.update_of_ne same]
            exact due q copying
        | _ => exact due q copying
  | @server ptr next _ did =>
      intro q copying
      have later : (s.history.serve event).posts = s.history.posts ∧
          (s.history.serve event).ticket = s.history.ticket := by
        cases event <;> exact ⟨rfl, rfl⟩
      simp only [State.afterServer, later] at copying ⊢
      exact due q copying

theorem step_printed (pid nloop : Proc → Nat) (e : Step Proc)
    (stepped : (machine pid nloop).Stepped e) (tokens : Tokens e.before) (due : Due e.before)
    (slots : Slots e.before) (printed : Printed e.before) : Printed e.after := by
  obtain ⟨s, action, event, after⟩ := e
  have effect := step_effect pid nloop s after action event stepped
  simp only [Printed] at *
  cases effect with
  | @client p ptr next _ did =>
      have short : s.history.printed.length ≤ s.history.reserved.length := by
        have announced := tokens.nstored
        have reserved := tokens.posts
        omega
      cases event with
      | reserved mesg =>
          simp only [State.afterClient, History.record]
          rwa [List.take_append_of_le_length short]
      | _ => exact printed
  | @server ptr next _ did =>
      generalize here : s.server = server at did
      cases did with
      | print index last temp =>
          have found := print_finds s index last temp here tokens due slots
          simp only [State.afterServer, History.serve, List.length_append, List.length_singleton]
          rw [List.take_add_one, found, ← printed, Option.toList_some]
      | report index last temp next event silent => rcases silent with rfl | rfl <;> exact printed
      | _ => exact printed

structure Ordered (s : State Proc) : Prop where
  tokens : Tokens s
  slots : Slots s
  due : Due s
  printed : Printed s

omit [DecidableEq Proc] in
theorem start_ordered : Ordered (start : State Proc) := by
  have nobody (at_ : Put → Bool) (absent : at_ .loop = false) :
      clientsAt (start : State Proc) at_ = 0 :=
    (Threads.count_eq_zero _ _).mpr fun _ => absent
  constructor
  · constructor
    · rw [nobody _ rfl]
      rfl
    · rw [nobody _ rfl]
      rfl
    · rfl
    · rw [nobody _ rfl]
      rfl
    · rw [nobody _ rfl]
      rfl
  · constructor <;> simp [start, Put.unposted, Put.uncopied]
  · intro p copying
    simp [start, Put.uncopied] at copying
  · rfl

theorem step_ordered (pid nloop : Proc → Nat) (e : Step Proc)
    (stepped : (machine pid nloop).Stepped e) (copied : CopiedBefore e)
    (ordered : Ordered e.before) : Ordered e.after := by
  obtain ⟨tokens, slots, due, printed⟩ := ordered
  constructor
  · exact (step_kept pid nloop e stepped tokens due slots).1
  · exact (step_kept pid nloop e stepped tokens due slots).2
  · exact step_due pid nloop e stepped copied tokens due
  · exact step_printed pid nloop e stepped tokens due slots printed

theorem run_ordered (pid nloop : Proc → Nat) (trace : List (Step Proc)) (s : State Proc)
    (run : (machine pid nloop).Run trace s) (copied : ∀ e ∈ trace, CopiedBefore e) :
    Ordered s :=
  run.preserves (C := CopiedBefore) (fun _ first => first ▸ start_ordered)
    (step_ordered pid nloop) copied

/-! Nothing moves any more only when every client has exited and everything
reserved is printed. -/

omit [Fintype Proc] in
theorem stuck_client (pid nloop : Proc → Nat) (s : State Proc)
    (stuck : ¬ (machine pid nloop).CanStep s) (p : Proc) :
    (s.client p).place = .exited ∨
      ((s.client p).place = .waitMutex ∧ s.ptr.mutex = 0) ∨
      ((s.client p).place = .waitOverflow ∧ s.ptr.noverflowmutex = 0) := by
  have refused : client2 (pid p) (nloop p) (s.client p) s.ptr = none := by
    by_contra enabled
    obtain ⟨result, ran⟩ := Option.ne_none_iff_exists'.mp enabled
    exact stuck ⟨.client p, (s.afterClient p result.1 result.2.1 result.2.2, result.2.2),
      by simp [machine, step, ran]⟩
  generalize s.client p = c at refused
  obtain ⟨place, i, mesg, offset⟩ := c
  cases place with
  | loop =>
      simp only [client2] at refused
      split at refused <;> cases refused
  | tryNempty =>
      simp only [client2] at refused
      split at refused <;> cases refused
  | _ => simp_all [client2, Semaphore.wait_none]

omit [Fintype Proc] in
theorem stuck_server (pid nloop : Proc → Nat) (s : State Proc)
    (stuck : ¬ (machine pid nloop).CanStep s) :
    (s.server.place = .waitNstored ∧ s.ptr.nstored = 0) ∨
      (s.server.place = .waitMutex ∧ s.ptr.mutex = 0) ∨
      (s.server.place = .waitOverflow ∧ s.ptr.noverflowmutex = 0) := by
  have refused : server2 s.server s.ptr = none := by
    by_contra enabled
    obtain ⟨result, ran⟩ := Option.ne_none_iff_exists'.mp enabled
    exact stuck ⟨.server, (s.afterServer result.1 result.2.1 result.2.2, result.2.2),
      by simp [machine, step, ran]⟩
  generalize s.server = server at refused
  obtain ⟨place, index, last, temp⟩ := server
  cases place with
  | report =>
      simp only [server2] at refused
      split at refused <;> cases refused
  | _ => simp_all [server2, Semaphore.wait_none]

def Finished (s : State Proc) : Prop :=
  (∀ p, (s.client p).place = .exited) ∧ s.server.place = .waitNstored ∧ s.ptr.nstored = 0

theorem stuck_finished (pid nloop : Proc → Nat) (s : State Proc) (tokens : Tokens s)
    (stuck : ¬ (machine pid nloop).CanStep s) : Finished s := by
  have clients := stuck_client pid nloop s stuck
  have server := stuck_server pid nloop s stuck
  have nobody (at_ : Put → Bool) (absent : at_ .exited = false ∧ at_ .waitMutex = false ∧
      at_ .waitOverflow = false) : clientsAt s at_ = 0 := by
    apply (Threads.count_eq_zero s.client _).mpr
    intro p
    rcases clients p with here | ⟨here, _⟩ | ⟨here, _⟩ <;> simp [here, absent]
  have idle : s.server.place.inside = false ∧ s.server.place.counting = false := by
    rcases server with ⟨here, _⟩ | ⟨here, _⟩ | ⟨here, _⟩ <;> rw [here] <;> exact ⟨rfl, rfl⟩
  have mutex := tokens.mutex
  have noverflowmutex := tokens.noverflowmutex
  rw [nobody _ ⟨rfl, rfl, rfl⟩, idle.1, Bool.toNat_false] at mutex
  rw [nobody _ ⟨rfl, rfl, rfl⟩, idle.2, Bool.toNat_false] at noverflowmutex
  constructor
  · intro p
    rcases clients p with here | ⟨_, locked⟩ | ⟨_, locked⟩
    · exact here
    · omega
    · omega
  · rcases server with here | ⟨_, locked⟩ | ⟨_, locked⟩
    · exact here
    · omega
    · omega

omit [DecidableEq Proc] in
theorem finished_printed (s : State Proc) (ordered : Ordered s) (finished : Finished s) :
    s.history.printed = s.history.reserved := by
  obtain ⟨tokens, _, _, printed⟩ := ordered
  obtain ⟨exited, waits, empty⟩ := finished
  have nobody : clientsAt s Put.unposted = 0 := by
    apply (Threads.count_eq_zero s.client _).mpr
    intro p
    rw [exited p]
    rfl
  have announced := tokens.nstored
  have reserved := tokens.posts
  rw [waits, empty] at announced
  rw [nobody] at reserved
  simp only [Get.claims, Bool.toNat_false] at announced
  rw [printed, List.take_of_length_le (by omega)]

/-- What the server has printed is, in order, what was written by the clients
that made the reservations, as long as announcements follow the copies; and it
is all of it by the time nothing moves any more. -/
theorem messages_intact (pid nloop : Proc → Nat) (trace : List (Step Proc)) (s : State Proc)
    (run : (machine pid nloop).Run trace s) (copied : ∀ e ∈ trace, CopiedBefore e) :
    s.history.printed = s.history.reserved.take s.history.printed.length ∧
    (Finished s → s.history.printed = s.history.reserved) ∧
    (¬ Finished s → (machine pid nloop).CanStep s) := by
  have ordered := run_ordered pid nloop trace s run copied
  constructor
  · exact ordered.printed
  constructor
  · exact finished_printed s ordered
  · intro unfinished
    by_contra stuck
    exact unfinished (stuck_finished pid nloop s ordered.tokens stuck)

/-- Two clients, each with one message. The second announces its message when
the first has a slot but no message in it. -/
def overtaking {Proc : Type*} (first second : Proc) : List (Action Proc) :=
  List.replicate 5 (.client first) ++ List.replicate 7 (.client second) ++
    List.replicate 3 .server

theorem empty_slot_printed :
    ∃ (trace : List (Step (Fin 2))) (last : State (Fin 2)),
      (machine (fun _ => 1) fun _ => 1).Run trace last ∧
      last.history.printed ≠ last.history.reserved.take last.history.printed.length := by
  obtain ⟨trace, last, run, checked⟩ := Machine.run_of_check
    (M := machine (fun _ => 1) fun _ => 1) (s := (start : State (Fin 2))) rfl (overtaking 0 1)
    (fun r => decide (r.2.history.printed ≠
      r.2.history.reserved.take r.2.history.printed.length)) (by decide +kernel)
  exact ⟨trace, last, run, of_decide_eq_true checked⟩

theorem one_message_printed :
    ∃ (trace : List (Step (Fin 2))) (last : State (Fin 2)),
      (machine (fun _ => 1) fun _ => 1).Run trace last ∧ last.history.printed.length = 1 ∧
      last.history.printed = last.history.reserved.take last.history.printed.length := by
  obtain ⟨trace, last, run, checked⟩ := Machine.run_of_check
    (M := machine (fun _ => 1) fun _ => 1) (s := (start : State (Fin 2))) rfl
    (List.replicate 7 (Action.client 0) ++ List.replicate 4 Action.server ++
      List.replicate 4 (Action.client 1))
    (fun r => decide ((∀ e ∈ r.1, e.output = .posted →
      ∀ p, (e.before.client p).place.uncopied = true →
        e.before.history.posts < e.before.history.ticket p) ∧
      r.2.history.printed.length = 1)) (by decide +kernel)
  obtain ⟨copied, once⟩ := of_decide_eq_true checked
  exact ⟨trace, last, run, once, (messages_intact _ _ trace last run copied).1⟩

end NetworkProgramming.Pxshm
