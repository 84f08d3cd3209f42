import NetworkProgramming.Xout3

/-!
The records and the timers of xout3.c belong together: of each record that is in use
there is one active timer, and it knows how often the message has been sent.
-/

namespace NetworkProgramming.Xout3

open DoublyLinked NetworkOrder Tselect

abbrev Event := Tevent Tofunc Record

/-- The messages by the numbers of their reading: the message that each record was filled
with last, and for every sending, ACK and drop the message it was of. -/
structure Account where
  created : Nat
  holder : Record → Nat
  sends : List Nat
  acked : List Nat
  dropped : List Nat

def Account.record (a : Account) (e : Step) : Account :=
  match e.output with
  | .sent mp _ _ =>
      { a with
        created := a.created + 1
        holder := Function.update a.holder mp a.created
        sends := a.sends ++ [a.created] }
  | .resent mp _ => { a with sends := a.sends ++ [a.holder mp] }
  | .acked mp => { a with acked := a.acked ++ [a.holder mp] }
  | .dropped mp => { a with dropped := a.dropped ++ [a.holder mp] }
  | .unknown _ | .illegal | .silent => a

def account (trace : List Step) : Account :=
  trace.foldl Account.record ⟨0, fun _ => 0, [], [], []⟩

theorem account_snoc (trace : List Step) (e : Step) :
    account (trace ++ [e]) = (account trace).record e := by
  rw [account, List.foldl_append]
  rfl

def Tofunc.sends : Tofunc → Nat
  | .lostACK => 1
  | .drop => 2

/-- The active timers are one for each record in use, under the id it holds. -/
structure Linked (mr : Record → Msgrec) (events : List Event) : Prop where
  unique : (events.map Tevent.arg).Nodup
  owned : ∀ r, (mr r).inUse = true ↔ r ∈ events.map Tevent.arg
  ids : ∀ event ∈ events, event.id = (mr event.arg).id

structure Booked (a : Account) (events : List Event) : Prop where
  all : (a.acked ++ a.dropped ++ events.map fun event => a.holder event.arg).Perm
    (List.range a.created)
  waiting : ∀ event ∈ events, a.sends.count (a.holder event.arg) = event.func.sends
  acked : ∀ n ∈ a.acked, a.sends.count n = 1 ∨ a.sends.count n = 2
  dropped : ∀ n ∈ a.dropped, a.sends.count n = 2
  known : ∀ n ∈ a.sends, n < a.created

theorem Linked.perm {mr : Record → Msgrec} {first second : List Event} (linked : Linked mr first)
    (perm : first.Perm second) : Linked mr second := by
  have args := perm.map Tevent.arg
  exact ⟨args.nodup_iff.mp linked.unique, fun r => (linked.owned r).trans args.mem_iff,
    fun event member => linked.ids event (perm.mem_iff.mpr member)⟩

theorem Booked.perm {a : Account} {first second : List Event} (booked : Booked a first)
    (perm : first.Perm second) : Booked a second :=
  ⟨((perm.map _).symm.append_left _).trans booked.all,
    fun event member => booked.waiting event (perm.mem_iff.mpr member), booked.acked,
    booked.dropped, booked.known⟩

theorem Linked.add {mr : Record → Msgrec} {events : List Event} (linked : Linked mr events)
    (event : Event) (r : Msgrec) (unused : (mr event.arg).inUse = false) (used : r.inUse = true)
    (id : event.id = r.id) : Linked (Function.update mr event.arg r) (event :: events) := by
  have new : event.arg ∉ events.map Tevent.arg := by
    rw [← linked.owned, unused]
    exact Bool.false_ne_true
  refine ⟨List.nodup_cons.mpr ⟨new, linked.unique⟩, fun q => ?_, fun other member => ?_⟩
  · rw [List.map_cons, List.mem_cons]
    by_cases same : q = event.arg
    · simp [same, used]
    · rw [Function.update_of_ne same, linked.owned]
      simp [same]
  · rcases List.mem_cons.mp member with rfl | old
    · rw [Function.update_self, id]
    · have apart : other.arg ≠ event.arg :=
        ne_of_mem_of_not_mem (List.mem_map_of_mem old) new
      rw [Function.update_of_ne apart]
      exact linked.ids other old

theorem Linked.remove {mr : Record → Msgrec} {events : List Event} {event : Event}
    (linked : Linked mr (event :: events)) (r : Msgrec) (unused : r.inUse = false) :
    Linked (Function.update mr event.arg r) events := by
  obtain ⟨gone, unique⟩ := List.nodup_cons.mp linked.unique
  refine ⟨unique, fun q => ?_, fun other member => ?_⟩
  · by_cases same : q = event.arg
    · simp only [same, Function.update_self, unused]
      exact ⟨nofun, fun member => absurd member gone⟩
    · rw [Function.update_of_ne same, linked.owned, List.map_cons, List.mem_cons]
      simp [same]
  · have apart : other.arg ≠ event.arg := ne_of_mem_of_not_mem (List.mem_map_of_mem member) gone
    rw [Function.update_of_ne apart]
    exact linked.ids other (List.mem_cons_of_mem event member)

theorem Linked.rearm {mr : Record → Msgrec} {events : List Event} {event : Event}
    (linked : Linked mr (event :: events)) (next : Event) (same : next.arg = event.arg) :
    Linked (Function.update mr event.arg { mr event.arg with id := next.id })
      (next :: events) := by
  have removed := linked.remove { mr event.arg with pkt := { (mr event.arg).pkt with len := free } }
    (by simp [Msgrec.inUse])
  have used : (mr event.arg).inUse = true := (linked.owned event.arg).mpr (by simp)
  have added := removed.add next { mr event.arg with id := next.id }
    (by rw [same, Function.update_self]; simp [Msgrec.inUse]) used rfl
  rwa [same, Function.update_idem] at added

theorem Booked.below {a : Account} {events : List Event} (booked : Booked a events) (n : Nat)
    (member : n ∈ a.acked ++ a.dropped ++ events.map fun event => a.holder event.arg) :
    n < a.created :=
  List.mem_range.mp (booked.all.mem_iff.mp member)

theorem Booked.apart {a : Account} {events : List Event} {event : Event}
    (booked : Booked a (event :: events)) :
    a.holder event.arg ∉ a.acked ++ a.dropped ∧
      a.holder event.arg ∉ events.map fun event => a.holder event.arg := by
  have distinct := booked.all.nodup_iff.mpr List.nodup_range
  obtain ⟨-, unique, apart⟩ := List.nodup_append.mp distinct
  exact ⟨fun ended => apart _ ended _ List.mem_cons_self rfl, (List.nodup_cons.mp unique).1⟩

theorem Booked.sent {a : Account} {events : List Event} (booked : Booked a events) (event : Event)
    (first : event.func = .lostACK) (new : event.arg ∉ events.map Tevent.arg) :
    Booked { a with
      created := a.created + 1
      holder := Function.update a.holder event.arg a.created
      sends := a.sends ++ [a.created] } (event :: events) := by
  have others : ∀ other ∈ events,
      Function.update a.holder event.arg a.created other.arg = a.holder other.arg :=
    fun other member => Function.update_of_ne
      (ne_of_mem_of_not_mem (List.mem_map_of_mem member) new) _ _
  have number : Function.update a.holder event.arg a.created event.arg = a.created :=
    Function.update_self _ _ _
  have unsent : a.sends.count a.created = 0 := by
    rw [List.count_eq_zero]
    exact fun member => lt_irrefl _ (booked.known _ member)
  have same (n : Nat) (old : n < a.created) :
      (a.sends ++ [a.created]).count n = a.sends.count n := by
    rw [List.count_append, List.count_singleton]
    simp [old.ne']
  refine ⟨?_, ?_, ?_, ?_, ?_⟩
  · simp only [List.map_cons, number]
    rw [List.map_congr_left others, List.range_succ]
    refine List.perm_middle.trans ((booked.all.cons _).trans ?_)
    exact (List.perm_append_singleton _ _).symm
  · intro other member
    rcases List.mem_cons.mp member with rfl | old
    · simp only [number]
      rw [List.count_append, unsent, List.count_singleton_self, first]
      rfl
    · simp only [others other old]
      rw [same _ (booked.below _ (List.mem_append_right _
        (List.mem_map_of_mem (f := fun event => a.holder event.arg) old)))]
      exact booked.waiting other old
  · intro n member
    rw [same n (booked.below n (List.mem_append_left _ (List.mem_append_left _ member)))]
    exact booked.acked n member
  · intro n member
    rw [same n (booked.below n (List.mem_append_left _ (List.mem_append_right _ member)))]
    exact booked.dropped n member
  · intro n member
    rcases List.mem_append.mp member with old | new
    · exact (booked.known n old).trans (Nat.lt_succ_self _)
    · rw [List.mem_singleton.mp new]
      exact Nat.lt_succ_self _

theorem Booked.resent {a : Account} {events : List Event} {event : Event}
    (booked : Booked a (event :: events)) (next : Event) (once : event.func = .lostACK)
    (twice : next.func = .drop) (same : next.arg = event.arg) :
    Booked { a with sends := a.sends ++ [a.holder event.arg] } (next :: events) := by
  obtain ⟨running, alone⟩ := booked.apart
  have kept (n : Nat) (other : n ≠ a.holder event.arg) :
      (a.sends ++ [a.holder event.arg]).count n = a.sends.count n := by
    rw [List.count_append, List.count_singleton]
    simp [other.symm]
  refine ⟨?_, ?_, ?_, ?_, ?_⟩
  · simp only [List.map_cons, same]
    exact booked.all
  · intro other member
    rcases List.mem_cons.mp member with rfl | old
    · simp only [same]
      rw [List.count_append, booked.waiting event List.mem_cons_self, List.count_singleton_self,
        once, twice]
      rfl
    · have apart : a.holder other.arg ≠ a.holder event.arg := ne_of_mem_of_not_mem
        (List.mem_map_of_mem (f := fun event => a.holder event.arg) old) alone
      simp only [kept _ apart]
      exact booked.waiting other (List.mem_cons_of_mem event old)
  · intro n member
    rw [kept n (ne_of_mem_of_not_mem (List.mem_append_left _ member) running)]
    exact booked.acked n member
  · intro n member
    rw [kept n (ne_of_mem_of_not_mem (List.mem_append_right _ member) running)]
    exact booked.dropped n member
  · intro n member
    rcases List.mem_append.mp member with old | new
    · exact booked.known n old
    · rw [List.mem_singleton.mp new]
      exact booked.below _ (List.mem_append_right _ (by simp))

theorem Booked.ack {a : Account} {events : List Event} {event : Event}
    (booked : Booked a (event :: events)) :
    Booked { a with acked := a.acked ++ [a.holder event.arg] } events := by
  refine ⟨?_, fun other member => booked.waiting other (List.mem_cons_of_mem event member), ?_,
    booked.dropped, booked.known⟩
  · refine List.Perm.trans ?_ (List.perm_middle.symm.trans booked.all)
    simp only [List.append_assoc, List.singleton_append]
    exact List.perm_middle
  · intro n member
    rcases List.mem_append.mp member with old | new
    · exact booked.acked n old
    · rw [List.mem_singleton.mp new, booked.waiting event List.mem_cons_self]
      cases event.func with
      | lostACK => exact Or.inl rfl
      | drop => exact Or.inr rfl

theorem Booked.drop {a : Account} {events : List Event} {event : Event}
    (booked : Booked a (event :: events)) (twice : event.func = .drop) :
    Booked { a with dropped := a.dropped ++ [a.holder event.arg] } events := by
  refine ⟨?_, fun other member => booked.waiting other (List.mem_cons_of_mem event member),
    booked.acked, ?_, booked.known⟩
  · have all := booked.all
    simp only [List.map_cons] at all
    simpa [List.append_assoc] using all
  · intro n member
    rcases List.mem_append.mp member with old | new
    · exact booked.dropped n old
    · rw [List.mem_singleton.mp new, booked.waiting event List.mem_cons_self, twice]
      rfl

/-! States. -/

def AtPlace (s : State) (active : List Nat) : Prop :=
  match s.place with
  | .top | .socket _ | .input _ => s.timers.place = .caller
  | .tselect => (∃ frame, s.timers.place = .loop frame ∧ frame.now ≤ s.timers.clock) ∨
      ∃ frame tvp, s.timers.place = .select frame tvp
  | .calling func mp => ∃ frame tp rest, s.timers.place = .callback frame ∧ active = tp :: rest ∧
      (s.timers.timers.event tp).func = func ∧ (s.timers.timers.event tp).arg = mp ∧
      timercmp (gettimeofday frame.now) (s.timers.timers.event tp).tv = false ∧
      frame.now ≤ s.timers.clock
  | .exited => True

/-- The cookies of the records in use are distinct. -/
def Distinct (mr : Record → Msgrec) : Prop :=
  ∀ q r, (mr q).inUse = true → (mr r).inUse = true →
    (mr q).pkt.cookie = (mr r).pkt.cookie → q = r

structure Kept (a : Account) (s : State) (active unused : List Nat) : Prop where
  held : Held s.timers.timers active unused
  linked : Linked s.mr (active.map s.timers.timers.event)
  cookies : Distinct s.mr
  booked : Booked a (active.map s.timers.timers.event)
  place : AtPlace s active

theorem kept_start (s : State) (first : machine.start s) : Kept (account []) s [] [] := by
  obtain ⟨⟨noActive, noFree, -, noNode, caller⟩, unused, -, -, top⟩ := first
  refine ⟨held_nil s.timers.timers noActive noFree noNode, ⟨List.nodup_nil, ?_, nofun⟩, ?_,
    ⟨List.Perm.refl [], nofun, nofun, nofun, nofun⟩, ?_⟩
  · intro r
    rw [unused r]
    exact ⟨nofun, nofun⟩
  · intro q r used
    rw [unused q] at used
    cases used
  · rw [AtPlace, top]
    exact caller

theorem arm_cases {s : State} {func : Tofunc} {mp : Record} {ms : Int} {malloc : Bool}
    {now : Option Nat} {onward : State → Result} {r : State × Answer}
    (armed : s.arm func mp ms malloc now onward = some r) {active unused : List Nat}
    (held : Held s.timers.timers active unused) :
    r = s.exit ∨ ∃ (micros : Nat) (timers : Timers Tofunc Record) (tp : Nat) (more : List Nat),
      s.timers.clock ≤ micros ∧ tp ∉ active ∧
      timers.event = Function.update s.timers.timers.event tp
        ⟨expiry (gettimeofday micros) ms, func, mp, s.timers.timers.nextId⟩ ∧
      Held timers (StablePriority.insert (fun p => rank (timers.event p).tv) active tp) more ∧
      onward { s with
        timers := { s.timers with timers := timers, clock := micros }
        mr := Function.update s.mr mp { s.mr mp with id := s.timers.timers.nextId } } = some r := by
  rw [State.arm] at armed
  split at armed
  · rename_i after tp id called
    have moved := step_moves _ _ _ _ called
    cases moved with
    | timeout _ _ _ _ micros timers _ user forward set =>
        obtain ⟨timers', tp', more, set', new, event, -, held'⟩ :=
          held.timeout func mp ms (gettimeofday micros)
        rw [set'] at set
        cases set
        have own : (timers.event tp).id = s.timers.timers.nextId := by
          rw [event, Function.update_self]
        rw [own] at armed
        exact Or.inr ⟨micros, timers, tp, more, forward, new, event, held', armed⟩
  · exact Or.inl (Option.some.inj armed).symm
  · cases armed

theorem back_cases {s : State} {answer : Answer} {r : State × Answer} (back : s.back answer = some r)
    {frame : Frame FdSet} (here : s.timers.place = .callback frame) {tp : Nat}
    {rest unused : List Nat} (held : Held s.timers.timers (tp :: rest) unused) :
    ∃ timers, timers.event = s.timers.timers.event ∧ Held timers rest (tp :: unused) ∧
      r = ({ s with
        timers := { s.timers with timers := timers, place := .loop frame }
        place := .tselect }, answer) := by
  obtain ⟨⟨after, returned⟩, stepped, rfl⟩ := Option.map_eq_some_iff.mp back
  obtain ⟨timers, popped, event, -, held'⟩ := held.retire
  rw [Tselect.step, here] at stepped
  simp only [popped] at stepped
  cases stepped
  exact ⟨timers, event, held', rfl⟩

/-- Nothing is written behind buf, and what has been acknowledged or dropped is not sent. -/
def Lawful (a : Account) (e : Step) : Prop :=
  match e.output with
  | .sent _ _ written => ∀ k ∈ written, k < bufSize
  | .resent mp _ => a.holder mp ∉ a.acked ++ a.dropped
  | _ => True

def Onward (a : Account) (e : Step) : Prop :=
  Lawful a e ∧
    (e.after.place = .exited ∨ ∃ active unused, Kept (a.record e) e.after active unused)

theorem exit_onward (a : Account) (s : State) (action : Action) :
    Onward a ⟨s, action, .silent, s.exit.1⟩ :=
  ⟨trivial, Or.inl rfl⟩

theorem Kept.stay {a : Account} {s after : State} {active unused : List Nat}
    (kept : Kept a s active unused) (same : after.timers.timers = s.timers.timers)
    (records : after.mr = s.mr) (place : AtPlace after active) : Kept a after active unused := by
  obtain ⟨held, linked, cookies, booked, -⟩ := kept
  refine ⟨by rwa [same], ?_, ?_, by rwa [same], place⟩
  · rw [same, records]
    exact linked
  · rw [records]
    exact cookies

theorem enter_kept {a : Account} {s after : State} {answer : Answer} {active unused : List Nat}
    (kept : Kept a s active unused) (now : Option Nat)
    (stepped : step s (.enter now) = some (after, answer)) :
    Onward a ⟨s, .enter now, answer, after⟩ := by
  simp only [step] at stepped
  split at stepped
  · obtain ⟨⟨timers, returned⟩, entered, same⟩ := Option.map_eq_some_iff.mp stepped
    cases same
    have moved := step_moves _ _ _ _ entered
    cases moved with
    | exit => exact ⟨trivial, Or.inl rfl⟩
    | enter sets now _ forward =>
        exact ⟨trivial, Or.inr ⟨active, unused, kept.stay rfl rfl (Or.inl ⟨_, rfl, le_refl _⟩)⟩⟩
  · cases stepped

theorem select_kept {a : Account} {s after : State} {answer : Answer} {active unused : List Nat}
    (kept : Kept a s active unused) (n : Int) (readmask : FdSet) (now : Option Nat)
    (stepped : step s (.select n readmask now) = some (after, answer)) :
    Onward a ⟨s, .select n readmask now, answer, after⟩ := by
  simp only [step] at stepped
  split at stepped
  · split at stepped
    · rename_i timers rc sets returned
      split at stepped
      · cases stepped
        exact exit_onward a s _
      · cases stepped
        have moved := step_moves _ _ _ _ returned
        cases moved with
        | back _ _ _ _ frame tvp _ => exact ⟨trivial, Or.inr ⟨active, unused, kept.stay rfl rfl rfl⟩⟩
    · rename_i timers answered other returned
      cases stepped
      have moved := step_moves _ _ _ _ returned
      cases moved with
      | exit => exact ⟨trivial, Or.inl rfl⟩
      | back => exact absurd rfl (other _ _)
      | again sets now n frame tvp _ forward =>
          exact ⟨trivial, Or.inr ⟨active, unused, kept.stay rfl rfl (Or.inl ⟨_, rfl, le_refl _⟩)⟩⟩
    · cases stepped
  · cases stepped

theorem turn_kept {a : Account} {s after : State} {answer : Answer} {active unused : List Nat}
    (kept : Kept a s active unused) (stepped : step s .turn = some (after, answer)) :
    Onward a ⟨s, .turn, answer, after⟩ := by
  simp only [step] at stepped
  split at stepped
  · rename_i here
    have place := kept.place
    rw [AtPlace, here] at place
    split at stepped
    · rename_i timers tp func mp called
      cases stepped
      have moved := step_moves _ _ _ _ called
      cases moved with
      | call frame _ running due =>
          -- tselect calls the first timer of the list, and only when it has expired
          obtain ⟨first, expired⟩ := Option.filter_eq_some_iff.mp due
          rw [kept.held.first] at first
          obtain ⟨rest, rfl⟩ := List.head?_eq_some_iff.mp first
          refine ⟨trivial, Or.inr ⟨_, unused, kept.stay rfl rfl ?_⟩⟩
          rcases place with ⟨frame', running', read⟩ | ⟨frame', tvp, other⟩
          · obtain rfl : frame = frame' := by simpa [running] using running'
            exact ⟨frame, tp, rest, rfl, rfl, rfl, rfl, by simpa using expired, read⟩
          · rw [running] at other
            cases other
    · rename_i timers quiet
      cases stepped
      have moved := step_moves _ _ _ _ quiet
      cases moved with
      | exit _ reads => cases reads
      | wait frame tp _ _ _ =>
          refine ⟨trivial, Or.inr ⟨active, unused, kept.stay rfl rfl ?_⟩⟩
          rw [AtPlace, here]
          exact Or.inr ⟨_, _, rfl⟩
      | block frame _ _ =>
          refine ⟨trivial, Or.inr ⟨active, unused, kept.stay rfl rfl ?_⟩⟩
          rw [AtPlace, here]
          exact Or.inr ⟨_, _, rfl⟩
    · cases stepped
      exact exit_onward a s _
    · cases stepped
  · cases stepped

theorem timercmp_false (a b : Timeval) :
    timercmp a b = false ↔ b.tvSec < a.tvSec ∨ b.tvSec = a.tvSec ∧ b.tvUsec ≤ a.tvUsec := by
  rw [timercmp]
  by_cases same : a.tvSec = b.tvSec
  · rw [if_pos same, decide_eq_false_iff_not]
    omega
  · rw [if_neg same, decide_eq_false_iff_not]
    omega

/-- A timer of more than a second is later than one whose time has come. -/
theorem expiry_later (ms : Int) (now before : Nat) (tv : Timeval) (some_ : 1000 < ms)
    (small : ms ≤ 2147483) (forward : before ≤ now)
    (come : timercmp (gettimeofday before) tv = false) :
    timercmp (expiry (gettimeofday now) ms) tv = false := by
  have product : int (ms * 1000) = ms * 1000 := by
    rw [int]
    omega
  have above : 1000000 < (gettimeofday now).tvUsec + ms * 1000 := by
    simp only [gettimeofday]
    omega
  rw [timercmp_false] at come ⊢
  rw [expiry, product]
  simp only [above, if_true]
  simp only [gettimeofday] at come ⊢
  omega

theorem map_event_update {events : Nat → Event} {active : List Nat} (tp : Nat) (event : Event)
    (new : tp ∉ active) : active.map (Function.update events tp event) = active.map events :=
  List.map_congr_left fun _ member =>
    Function.update_of_ne (ne_of_mem_of_not_mem member new) _ _

theorem distinct_id {mr : Record → Msgrec} (distinct : Distinct mr) (mp : Record) (id : UInt32) :
    Distinct (Function.update mr mp { mr mp with id := id }) := by
  have same (q : Record) : (Function.update mr mp { mr mp with id := id } q).pkt = (mr q).pkt := by
    by_cases own : q = mp
    · rw [own, Function.update_self]
    · rw [Function.update_of_ne own]
  intro q r
  simp only [Msgrec.inUse, same]
  exact distinct q r

theorem lost_ACK_kept {a : Account} {s after : State} {answer : Answer} {active unused : List Nat}
    (kept : Kept a s active unused) (mp : Record) (sent malloc : Bool) (now : Option Nat)
    (here : s.place = .calling .lostACK mp)
    (called : lost_ACK s mp sent malloc now = some (after, answer)) :
    Onward a ⟨s, .call sent malloc now, answer, after⟩ := by
  have place := kept.place
  rw [AtPlace, here] at place
  obtain ⟨frame, tp, rest, running, rfl, func, rfl, come, read⟩ := place
  rw [lost_ACK] at called
  split at called
  · rcases arm_cases called kept.held with same | ⟨micros, timers, fresh, more, forward, new,
      event, held, back⟩
    · cases same
      exact exit_onward a s _
    · obtain ⟨second, written⟩ : ∃ second : Event, second =
          ⟨expiry (gettimeofday micros) T2, .drop, (s.timers.timers.event tp).arg,
            s.timers.timers.nextId⟩ := ⟨_, rfl⟩
      rw [← written] at event
      have apart : tp ≠ fresh := ne_of_mem_of_not_mem List.mem_cons_self new
      have own : timers.event fresh = second := by rw [event, Function.update_self]
      -- the timer whose function runs stays the first one
      have later : ¬ rank (timers.event tp).tv < rank (timers.event fresh).tv := by
        rw [own, event, Function.update_of_ne apart, ← timercmp_iff, written,
          expiry_later T2 micros frame.now _ (by decide) (by decide) (read.trans forward) come]
        exact Bool.false_ne_true
      rw [StablePriority.insert_later _ tp fresh rest later] at held
      obtain ⟨timers', event', held', same⟩ := back_cases back running held
      cases same
      have out : fresh ∉ rest := fun member => new (List.mem_cons_of_mem tp member)
      have perm : ((StablePriority.insert (fun p => rank (timers.event p).tv) rest fresh).map
          timers'.event).Perm (second :: rest.map s.timers.timers.event) := by
        rw [event']
        refine ((StablePriority.insert_perm _ rest fresh).map timers.event).trans ?_
        rw [List.map_cons, own, event, map_event_update fresh _ out]
      have linked := kept.linked.rearm second (by rw [written])
      rw [show second.id = s.timers.timers.nextId by rw [written]] at linked
      refine ⟨kept.booked.apart.1, Or.inr ⟨_, _, held', linked.perm perm.symm,
        distinct_id kept.cookies _ _, ?_, ?_⟩⟩
      · exact (kept.booked.resent second func (by rw [written]) (by rw [written])).perm perm.symm
      · exact Or.inl ⟨frame, rfl, read.trans forward⟩
  · cases called
    exact exit_onward a s _

theorem free_unused (r : Msgrec) :
    Msgrec.inUse { r with pkt := { r.pkt with len := free } } = false := by
  simp [Msgrec.inUse]

theorem distinct_free {mr : Record → Msgrec} (distinct : Distinct mr) (mp : Record) (r : Msgrec)
    (unused : r.inUse = false) : Distinct (Function.update mr mp r) := by
  intro q q' used used' same
  have apart (x : Record) (used : (Function.update mr mp r x).inUse = true) : x ≠ mp := by
    rintro rfl
    rw [Function.update_self, unused] at used
    cases used
  have first := apart q used
  have second := apart q' used'
  rw [Function.update_of_ne first] at used same
  rw [Function.update_of_ne second] at used' same
  exact distinct q q' used used' same

theorem drop_kept {a : Account} {s after : State} {answer : Answer} {active unused : List Nat}
    (kept : Kept a s active unused) (mp : Record) (action : Action)
    (here : s.place = .calling .drop mp) (called : drop s mp = some (after, answer)) :
    Onward a ⟨s, action, answer, after⟩ := by
  have place := kept.place
  rw [AtPlace, here] at place
  obtain ⟨frame, tp, rest, running, rfl, func, rfl, come, read⟩ := place
  rw [drop] at called
  split at called
  · rename_i mr freed
    rw [freemsgrec] at freed
    split at freed
    · cases freed
      obtain ⟨timers, event, held, same⟩ := back_cases called running kept.held
      cases same
      have none_ := free_unused (s.mr (s.timers.timers.event tp).arg)
      refine ⟨trivial, Or.inr ⟨rest, _, held, ?_, distinct_free kept.cookies _ _ none_, ?_, ?_⟩⟩
      · rw [event]
        exact kept.linked.remove _ none_
      · rw [event]
        exact kept.booked.drop func
      · exact Or.inl ⟨frame, rfl, read⟩
    · cases freed
  · cases called
    exact exit_onward a s _

/-! What has to be met: a message leaves room for its zero byte and gets a cookie that no
record in use has; and where a message is acknowledged, the first timer of its id is its
own. -/

def Met (e : Step) : Bool :=
  let s := e.before
  match s.place, e.action with
  | .socket _, .recv (some bytes) =>
      let ack := s.ack ++ bytes
      if ack.length < ACKSZ then true
      else
        match acknowledged s ack with
        | some (_, some mp) =>
            let timers := s.timers.timers
            (timers.actives.find? fun p => (timers.event p).id == (s.mr mp).id).all fun p =>
              (timers.event p).arg == mp
        | _ => true
  | .input readmask, .read (some bytes) _ _ _ =>
      !readmask.stdin || decide (bytes.length < bufSize) &&
        (List.finRange MRSZ).all fun r => !((s.mr r).inUse && (s.mr r).pkt.cookie == s.msgid)
  | _, _ => true

theorem acknowledged_found {s : State} {ack : List UInt8} {mid : UInt32} {mp : Record}
    (known : acknowledged s ack = some (mid, some mp)) :
    ((s.mr mp).inUse && (s.mr mp).pkt.cookie == mid) = true := by
  rw [acknowledged] at known
  split at known
  · simp only [Option.some.injEq, Prod.mk.injEq] at known
    obtain ⟨rfl, found⟩ := known
    have here := List.find?_some found
    exact here
  · cases known

theorem cancel_own {a : Account} {s : State} {active unused : List Nat}
    (kept : Kept a s active unused) (mp : Record) (used : (s.mr mp).inUse = true)
    (first : ((s.timers.timers.actives.find? fun p =>
      (s.timers.timers.event p).id == (s.mr mp).id).all
        fun p => (s.timers.timers.event p).arg == mp) = true)
    {timers : Timers Tofunc Record} (found : Bool)
    (unset : s.timers.timers.untimeout (s.mr mp).id = some (timers, found)) :
    ∃ tp rest, (s.timers.timers.event tp).arg = mp ∧ Held timers rest (tp :: unused) ∧
      timers.event = s.timers.timers.event ∧
      (active.map s.timers.timers.event).Perm
        (s.timers.timers.event tp :: rest.map s.timers.timers.event) := by
  rcases kept.held.untimeout (s.mr mp).id with ⟨others, -⟩ | ⟨front, tp, back, after, rfl, own, early,
    dropped, event, -, held⟩
  · obtain ⟨event, member, arg⟩ := List.mem_map.mp ((kept.linked.owned mp).mp used)
    have id := kept.linked.ids event member
    rw [arg] at id
    obtain ⟨p, there, rfl⟩ := List.mem_map.mp member
    exact absurd id (others p there)
  · rw [dropped] at unset
    cases unset
    rw [kept.held.actives, List.find?_eq_some_iff_append.mpr ⟨by simpa using own, front, back, rfl,
      fun p member => by simpa using early p member⟩] at first
    refine ⟨tp, front ++ back, by simpa using first, held, event, ?_⟩
    rw [List.map_append, List.map_cons, List.map_append]
    exact List.perm_middle

theorem receive_kept {a : Account} {s after : State} {answer : Answer} {active unused : List Nat}
    (kept : Kept a s active unused) (readmask : FdSet) (bytes : List UInt8) (action : Action)
    (here : s.place = .socket readmask)
    (own : ∀ mid mp, ¬ (s.ack ++ bytes).length < ACKSZ →
      acknowledged s (s.ack ++ bytes) = some (mid, some mp) →
      ((s.timers.timers.actives.find? fun p => (s.timers.timers.event p).id == (s.mr mp).id).all
        fun p => (s.timers.timers.event p).arg == mp) = true)
    (received : receive s readmask bytes = some (after, answer)) :
    Onward a ⟨s, action, answer, after⟩ := by
  have caller := kept.place
  rw [AtPlace, here] at caller
  rw [receive] at received
  split at received
  · cases received
    exact ⟨trivial, Or.inr ⟨active, unused, kept.stay rfl rfl caller⟩⟩
  · rename_i whole
    simp only at received
    split at received
    · cases received
      exact ⟨trivial, Or.inr ⟨active, unused, kept.stay rfl rfl caller⟩⟩
    · cases received
      exact ⟨trivial, Or.inr ⟨active, unused, kept.stay rfl rfl caller⟩⟩
    · rename_i mid mp known
      have first := own mid mp whole known
      obtain ⟨⟨timers, answered⟩, cancelled, same⟩ := Option.map_eq_some_iff.mp received
      have moved := step_moves _ _ _ _ cancelled
      cases moved with
      | exit _ reads => cases reads
      | untimeout _ timers found _ unset =>
          obtain ⟨used, -⟩ := (Bool.and_eq_true _ _).mp (acknowledged_found known)
          -- the id of the record finds its own timer first
          obtain ⟨tp, rest, arg, held, event, perm⟩ := cancel_own kept mp used first found unset
          rw [freemsgrec] at same
          simp only [used, if_true] at same
          cases same
          have none_ := free_unused (s.mr mp)
          have linked := kept.linked.perm perm
          have booked := kept.booked.perm perm
          rw [← arg] at none_
          refine ⟨trivial, Or.inr ⟨rest, _, held, ?_, ?_, ?_, caller⟩⟩
          · rw [event, ← arg]
            exact linked.remove _ none_
          · rw [← arg]
            exact distinct_free kept.cookies _ _ none_
          · rw [event, ← arg]
            exact booked.ack

theorem distinct_add {mr : Record → Msgrec} (distinct : Distinct mr) (mp : Record) (r : Msgrec)
    (fresh : ∀ q, (mr q).inUse = true → (mr q).pkt.cookie ≠ r.pkt.cookie) :
    Distinct (Function.update mr mp r) := by
  intro q q' used used' same
  by_cases first : q = mp
  · by_cases second : q' = mp
    · rw [first, second]
    · rw [first, Function.update_self, Function.update_of_ne second] at same
      rw [Function.update_of_ne second] at used'
      exact absurd same.symm (fresh q' used')
  · by_cases second : q' = mp
    · rw [second, Function.update_self, Function.update_of_ne first] at same
      rw [Function.update_of_ne first] at used
      exact absurd same (fresh q used)
    · rw [Function.update_of_ne first] at used same
      rw [Function.update_of_ne second] at used' same
      exact distinct q q' used used' same

theorem htonl_used (rc : Nat) (fits : rc < bufSize) : htonl (UInt32.ofNat (4 + rc)) ≠ free := by
  intro same
  have back := congrArg ntohl same
  rw [ntohl_htonl] at back
  have number := congrArg UInt32.toNat back
  rw [UInt32.toNat_ofNat', show (ntohl free).toNat = 4294967295 by decide] at number
  have small : rc < 128 := fits
  omega

theorem submit_kept {a : Account} {s after : State} {answer : Answer} {active unused : List Nat}
    (kept : Kept a s active unused) (readmask : FdSet) (bytes : List UInt8) (sent malloc : Bool)
    (now : Option Nat) (mp : Record) (action : Action) (here : s.place = .input readmask)
    (unowned : (s.mr mp).inUse = false) (fits : bytes.length < bufSize)
    (fresh : ∀ r, (s.mr r).inUse = true → (s.mr r).pkt.cookie ≠ s.msgid)
    (submitted : submit s bytes sent malloc now mp = some (after, answer)) :
    Onward a ⟨s, action, answer, after⟩ := by
  have caller := kept.place
  rw [AtPlace, here] at caller
  rw [submit] at submitted
  generalize ((s.mr mp).fill bytes).store bytes.length 0 = filled at submitted
  simp only at submitted
  obtain ⟨r, written⟩ : ∃ r : Msgrec, r = { filled with pkt := { filled.pkt with
      cookie := s.msgid, len := htonl (UInt32.ofNat (4 + bytes.length)) } } := ⟨_, rfl⟩
  rw [← written] at submitted
  have used : r.inUse = true := by
    rw [written]
    simpa [Msgrec.inUse] using htonl_used bytes.length fits
  have cookie : r.pkt.cookie = s.msgid := by rw [written]
  split at submitted
  · rcases arm_cases submitted kept.held with same | ⟨micros, timers, tp, more, forward, new, event,
      held, onward⟩
    · cases same
      exact ⟨trivial, Or.inl rfl⟩
    · cases onward
      obtain ⟨first, timer⟩ : ∃ first : Event, first =
          ⟨expiry (gettimeofday micros) T1, .lostACK, mp, s.timers.timers.nextId⟩ := ⟨_, rfl⟩
      rw [show (⟨expiry (gettimeofday micros) T1, .lostACK, mp, s.timers.timers.nextId⟩ : Event) =
        first from timer.symm] at event
      have arg : first.arg = mp := by rw [timer]
      -- the first timer of the message joins those of the other records in use
      have perm : ((StablePriority.insert (fun p => rank (timers.event p).tv) active tp).map
          timers.event).Perm (first :: active.map s.timers.timers.event) := by
        refine ((StablePriority.insert_perm _ active tp).map timers.event).trans ?_
        rw [List.map_cons, event, Function.update_self, map_event_update tp _ new]
      -- the record was free, so no timer was its
      have absent : first.arg ∉ (active.map s.timers.timers.event).map Tevent.arg := by
        rw [arg, ← kept.linked.owned, unowned]
        exact Bool.false_ne_true
      have inside_buf : ∀ k ∈ List.range bytes.length ++ [bytes.length], k < bufSize := by
        intro k member
        simp only [List.mem_append, List.mem_range, List.mem_singleton] at member
        omega
      have records : Function.update (Function.update s.mr mp r) mp
          { Function.update s.mr mp r mp with id := s.timers.timers.nextId } =
          Function.update s.mr mp { r with id := s.timers.timers.nextId } := by
        rw [Function.update_self, Function.update_idem]
      refine ⟨inside_buf, Or.inr ⟨_, more, held, ?_, ?_, ?_, caller⟩⟩
      · have linked := kept.linked.add first { r with id := s.timers.timers.nextId }
          (by rw [arg]; exact unowned) used (by rw [timer])
        simp only [records]
        rw [arg] at linked
        exact linked.perm perm.symm
      · simp only [records]
        exact distinct_add kept.cookies mp _ fun q other => by rw [cookie]; exact fresh q other
      · have booked := kept.booked.sent first (by rw [timer]) absent
        rw [arg] at booked
        exact booked.perm perm.symm
  · cases submitted
    exact ⟨trivial, Or.inl rfl⟩

theorem recv_kept {a : Account} {s after : State} {answer : Answer} {active unused : List Nat}
    (kept : Kept a s active unused) (bytes : Option (List UInt8))
    (met : Met ⟨s, .recv bytes, answer, after⟩ = true)
    (stepped : step s (.recv bytes) = some (after, answer)) :
    Onward a ⟨s, .recv bytes, answer, after⟩ := by
  simp only [step] at stepped
  split at stepped
  · rename_i readmask here
    have caller := kept.place
    rw [AtPlace, here] at caller
    split at stepped
    · split at stepped
      · cases stepped
        exact ⟨trivial, Or.inl rfl⟩
      · cases stepped
        exact ⟨trivial, Or.inl rfl⟩
      · rename_i chunk _
        split at stepped
        · refine receive_kept kept readmask chunk _ here ?_ stepped
          intro mid mp whole known
          simpa only [Met, here, whole, if_false, known] using met
        · cases stepped
    · cases stepped
      exact ⟨trivial, Or.inr ⟨active, unused, kept.stay rfl rfl caller⟩⟩
  · cases stepped

theorem read_kept {a : Account} {s after : State} {answer : Answer} {active unused : List Nat}
    (kept : Kept a s active unused) (bytes : Option (List UInt8)) (sent malloc : Bool)
    (now : Option Nat) (met : Met ⟨s, .read bytes sent malloc now, answer, after⟩ = true)
    (stepped : step s (.read bytes sent malloc now) = some (after, answer)) :
    Onward a ⟨s, .read bytes sent malloc now, answer, after⟩ := by
  simp only [step] at stepped
  split at stepped
  · rename_i readmask here
    have caller := kept.place
    rw [AtPlace, here] at caller
    split at stepped
    · rename_i ready
      split at stepped
      · cases stepped
        exact ⟨trivial, Or.inl rfl⟩
      · cases stepped
        exact ⟨trivial, Or.inl rfl⟩
      · rename_i mp chunk found
        split at stepped
        · simp only [Met, here, ready, Bool.not_true, Bool.false_or, Bool.and_eq_true,
            decide_eq_true_eq] at met
          obtain ⟨fits, fresh⟩ := met
          rw [getfreerec] at found
          have unowned := List.find?_some found
          refine submit_kept kept readmask chunk sent malloc now mp _ here (by simpa using unowned)
            fits ?_ stepped
          intro r used same
          have other := List.all_eq_true.mp fresh r (List.mem_finRange r)
          simp [used, same] at other
        · cases stepped
    · cases stepped
      exact ⟨trivial, Or.inr ⟨active, unused, kept.stay rfl rfl caller⟩⟩
  · cases stepped

theorem kept_step {a : Account} (e : Step) {active unused : List Nat}
    (kept : Kept a e.before active unused) (met : Met e = true) (stepped : machine.Stepped e) :
    Onward a e := by
  obtain ⟨s, action, answer, after⟩ := e
  change step s action = some (after, answer) at stepped
  cases action with
  | enter now => exact enter_kept kept now stepped
  | turn => exact turn_kept kept stepped
  | call sent malloc now =>
      simp only [step] at stepped
      split at stepped
      · rename_i mp here
        exact lost_ACK_kept kept mp sent malloc now here stepped
      · rename_i mp here
        exact drop_kept kept mp _ here stepped
      · cases stepped
  | select n readmask now => exact select_kept kept n readmask now stepped
  | recv bytes => exact recv_kept kept bytes met stepped
  | read bytes sent malloc now => exact read_kept kept bytes sent malloc now met stepped

theorem exited_stuck (s : State) (action : Action) (here : s.place = .exited) :
    step s action = none := by
  cases action <;> simp [step, here]

variable {trace : List Step} {s : State}

theorem kept_run (run : machine.Run trace s) (met : ∀ e ∈ trace, Met e = true) :
    s.place = .exited ∨ ∃ active unused, Kept (account trace) s active unused := by
  refine run.history (C := fun e => Met e = true) (I := fun trace s =>
    s.place = .exited ∨ ∃ active unused, Kept (account trace) s active unused)
    (fun s first => Or.inr ⟨[], [], kept_start s first⟩) ?_ met
  intro pre e stepped fine before
  rw [account_snoc]
  rcases before with exited | ⟨active, unused, kept⟩
  · have stuck := exited_stuck e.before e.action exited
    rw [show step e.before e.action = _ from stepped] at stuck
    cases stuck
  · exact (kept_step e kept fine stepped).2

theorem kept_before (pre : List Step) (e : Step) (run : machine.Run pre e.before)
    (stepped : machine.Stepped e) (met : ∀ d ∈ pre, Met d = true) :
    ∃ active unused, Kept (account pre) e.before active unused := by
  rcases kept_run run met with exited | kept
  · have stuck := exited_stuck e.before e.action exited
    rw [show step e.before e.action = _ from stepped] at stuck
    cases stuck
  · exact kept

theorem lawful_run (run : machine.Run trace s) (met : ∀ e ∈ trace, Met e = true)
    (pre post : List Step) (e : Step) (whole : trace = pre ++ e :: post) :
    Lawful (account pre) e := by
  subst whole
  obtain ⟨before, stepped⟩ := run.split
  obtain ⟨active, unused, kept⟩ :=
    kept_before pre e before stepped fun d member => met d (List.mem_append_left _ member)
  exact (kept_step e kept (met e (by simp)) stepped).1

theorem Booked.once {a : Account} {events : List Event} (booked : Booked a events) (n : Nat)
    (created : n < a.created) :
    (a.sends.count n = 1 ∨ a.sends.count n = 2) ∧
      ((a.acked ++ a.dropped).count n = 1 ∨ (a.acked ++ a.dropped).count n = 0 ∧
        ∃ event ∈ events, a.holder event.arg = n) := by
  have one := booked.all.count_eq n
  rw [List.count_append, List.count_eq_one_of_mem List.nodup_range (List.mem_range.mpr created)]
    at one
  have somewhere := booked.all.mem_iff.mpr (List.mem_range.mpr created)
  rw [List.mem_append] at somewhere
  rcases somewhere with ended | waits
  · have some_ := List.count_pos_iff.mpr ended
    refine ⟨?_, Or.inl (by omega)⟩
    rcases List.mem_append.mp ended with acked | dropped
    · exact booked.acked n acked
    · exact Or.inr (booked.dropped n dropped)
  · have some_ := List.count_pos_iff.mpr waits
    obtain ⟨event, member, rfl⟩ := List.mem_map.mp waits
    refine ⟨?_, Or.inr ⟨by omega, event, member, rfl⟩⟩
    rw [booked.waiting event member]
    cases event.func with
    | lostACK => exact Or.inl rfl
    | drop => exact Or.inr rfl

theorem Kept.alive {a : Account} {active unused : List Nat} (kept : Kept a s active unused)
    (runs : s.place ≠ .exited) : s.timers.place ≠ .crashed := by
  have place := kept.place
  rw [AtPlace] at place
  intro crashed
  split at place
  · rw [place] at crashed
    cases crashed
  · rw [place] at crashed
    cases crashed
  · rw [place] at crashed
    cases crashed
  · rcases place with ⟨frame, here, -⟩ | ⟨frame, tvp, here⟩
    · rw [here] at crashed
      cases crashed
    · rw [here] at crashed
      cases crashed
  · obtain ⟨frame, tp, rest, here, -⟩ := place
    rw [here] at crashed
    cases crashed
  · rename_i exited
    exact runs exited

/-- As long as the program runs: the records in use and the active timers, the cookies, and
the messages; and what each step writes and sends. -/
theorem messages_kept (run : machine.Run trace s) (met : ∀ e ∈ trace, Met e = true) :
    (s.place ≠ .exited → s.timers.place ≠ .crashed ∧
      (∃ active, Walk s.timers.timers.next s.timers.timers.active active none ∧ active.Nodup ∧
        (active.map fun p => (s.timers.timers.event p).arg).Nodup ∧
        (∀ mp, (s.mr mp).inUse = true → ∃ p ∈ active, (s.timers.timers.event p).arg = mp ∧
          (s.timers.timers.event p).id = (s.mr mp).id) ∧
        ∀ p ∈ active, (s.mr (s.timers.timers.event p).arg).inUse = true) ∧
      (∀ q r, (s.mr q).inUse = true → (s.mr r).inUse = true →
        (s.mr q).pkt.cookie = (s.mr r).pkt.cookie → q = r) ∧
      ∀ n < (account trace).created,
        ((account trace).sends.count n = 1 ∨ (account trace).sends.count n = 2) ∧
        (((account trace).acked ++ (account trace).dropped).count n = 1 ∨
          ((account trace).acked ++ (account trace).dropped).count n = 0 ∧
            ∃ mp, (s.mr mp).inUse = true ∧ (account trace).holder mp = n)) ∧
    (∀ pre e post, trace = pre ++ e :: post → ∀ mp size, e.output = .resent mp size →
      (account pre).holder mp ∉ (account pre).acked ++ (account pre).dropped) ∧
    ∀ e ∈ trace, ∀ mp size written, e.output = .sent mp size written →
      ∀ k ∈ written, k < bufSize := by
  refine ⟨fun runs => ?_, ?_, ?_⟩
  · rcases kept_run run met with exited | ⟨active, unused, kept⟩
    · exact absurd exited runs
    · have owned (mp : Record) : (s.mr mp).inUse = true ↔
          ∃ p ∈ active, (s.timers.timers.event p).arg = mp := by
        rw [kept.linked.owned, List.map_map, List.mem_map]
        rfl
      refine ⟨kept.alive runs, ⟨active, kept.held.activeWalk,
        (List.nodup_append.mp kept.held.distinct).1, ?_, ?_, ?_⟩, kept.cookies, ?_⟩
      · have unique := kept.linked.unique
        rwa [List.map_map] at unique
      · intro mp used
        obtain ⟨p, member, rfl⟩ := (owned mp).mp used
        exact ⟨p, member, rfl, kept.linked.ids _ (List.mem_map_of_mem member)⟩
      · exact fun p member => (owned _).mpr ⟨p, member, rfl⟩
      · intro n created
        obtain ⟨sends, ended⟩ := kept.booked.once n created
        refine ⟨sends, ended.imp_right ?_⟩
        rintro ⟨none_, event, member, same⟩
        exact ⟨none_, event.arg, (kept.linked.owned _).mpr (List.mem_map_of_mem member), same⟩
  · intro pre e post whole mp size resent
    have lawful := lawful_run run met pre post e whole
    rwa [Lawful, resent] at lawful
  · intro e member mp size written sent
    obtain ⟨pre, post, whole⟩ := List.append_of_mem member
    have lawful := lawful_run run met pre post e whole
    rwa [Lawful, sent] at lawful

def fresh : State where
  timers := ⟨⟨fun _ => none, fun _ => ⟨⟨0, 0⟩, .drop, ⟨0, by decide⟩, 0⟩, none, none, 1, 0⟩, .caller, 0⟩
  mr _ := ⟨⟨free, 0, fun _ => 0⟩, 0⟩
  msgid := 0
  ack := []
  place := .top

theorem fresh_starts : machine.start fresh :=
  ⟨⟨rfl, rfl, rfl, rfl, rfl⟩, fun _ => bne_self_eq_false free, rfl, rfl, rfl⟩

def oneMessage (bytes : List UInt8) : List Action :=
  [.enter (some 0), .turn, .select 1 ⟨false, true⟩ none, .recv none,
    .read (some bytes) true true (some 0)]

theorem acked_once : ∃ trace s, machine.Run trace s ∧
    ((account trace).created = 1 ∧ (account trace).acked = [0]) ∧
    ((account trace).sends.count 0 = 1 ∨ (account trace).sends.count 0 = 2) := by
  obtain ⟨trace, s, run, check⟩ := Machine.run_of_check fresh_starts
    (oneMessage [104, 105] ++
      ([.enter (some 0), .turn, .select 0 ⟨false, false⟩ (some 3000000), .turn,
        .call true true (some 3000000), .turn, .select 1 ⟨true, false⟩ none, .recv (some [6, 0, 0]),
        .enter (some 3500000), .turn, .select 1 ⟨true, false⟩ none,
        .recv (some [0, 0])] : List Action))
    (fun r => r.1.all Met && decide (r.2.place ≠ .exited ∧
      (account r.1).created = 1 ∧ (account r.1).acked = [0])) (by decide +kernel)
  obtain ⟨met, found⟩ := (Bool.and_eq_true _ _).mp check
  obtain ⟨runs, created, acked⟩ := of_decide_eq_true found
  have kept := messages_kept run (List.all_eq_true.mp met)
  obtain ⟨-, -, -, messages⟩ := kept.1 runs
  exact ⟨trace, s, run, ⟨created, acked⟩, (messages 0 (by rw [created]; decide)).1⟩

/-- With a message of 128 bytes the zero byte is written behind buf. -/
theorem zero_behind_buf : ∃ trace s, machine.Run trace s ∧ ∃ e ∈ trace, ∃ mp size written,
    e.output = .sent mp size written ∧ bufSize ∈ written := by
  obtain ⟨trace, s, run, check⟩ := Machine.run_of_check fresh_starts
    (oneMessage (List.replicate 128 65))
    (fun r => r.1.any fun e => match e.output with
      | .sent _ _ written => written.contains bufSize
      | _ => false) (by decide +kernel)
  obtain ⟨e, member, behind⟩ := List.any_eq_true.mp check
  refine ⟨trace, s, run, e, member, ?_⟩
  cases output : e.output with
  | sent mp size written =>
      rw [output] at behind
      exact ⟨mp, size, written, rfl, List.contains_iff_mem.mp behind⟩
  | _ => simp [output] at behind

end NetworkProgramming.Xout3
