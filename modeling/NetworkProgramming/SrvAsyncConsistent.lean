import NetworkProgramming.SrvAsync

/-!
What the dictionaries of srv_async.py, the poll object and the numbers of the kernel have to do with
each other, in every state: also where a number that is registered and closed is given to a new
connection. No lookup of serve can fail.
-/

namespace NetworkProgramming.SrvAsync

open Zen State

/-- What poll has said about a number is still so when the loop comes to it. -/
structure Promised (s : State) (event : Event) : Prop where
  registered : s.registered event.fd ≠ none
  client : event.gone = true → s.sockets event.fd ≠ some .listener
  there : event.gone = false → ∃ k, s.sockets event.fd = some k ∧ s.fileno k = some event.fd ∧
    (event.readable = true → s.bytesToSend k = none) ∧
    (event.writable = true → s.bytesToSend k ≠ none)

structure Consistent (s : State) : Prop where
  listening : ∀ n, s.sockets n = some .listener ↔ s.fileno .listener = some n
  stored : ∀ n i, s.sockets n = some (.client i) →
    s.addresses (.client i) = true ∧
      (s.fileno (.client i) = none ∨ s.fileno (.client i) = some n)
  polled : ∀ n, s.registered n ≠ none ↔ s.sockets n ≠ none
  others : ∀ n, s.registered n ≠ none → s.own n = false ∧ n < s.limit
  masks : ∀ n k, s.sockets n = some k → (s.registered n = some .pollout ↔ s.bytesToSend k ≠ none)
  single : ∀ n m k, s.sockets n = some k → s.sockets m = some k → n = m
  numbers : ∀ j k n, s.fileno j = some n → s.fileno k = some n → j = k
  denoted : ∀ k n, s.fileno k = some n → s.registered n ≠ none → s.sockets n = some k
  born : ∀ i, s.addresses (.client i) = true ∨ s.fileno (.client i) ≠ none → i < s.created
  clients : s.addresses .listener = false
  keys : ∀ k, s.bytesReceived k ≠ none ∨ s.bytesToSend k ≠ none → s.addresses k = true
  disjoint : ∀ k, s.bytesReceived k = none ∨ s.bytesToSend k = none
  distinct : (s.batch.map Event.fd).Nodup
  promised : ∀ event ∈ s.batch, Promised s event
  sound : s.raised ≠ some .keyError

theorem used_iff (s : State) (ok : Consistent s) (n : Nat) :
    s.used n = true ↔ s.own n = true ∨ ∃ k, s.fileno k = some n := by
  simp only [used, Bool.or_eq_true, decide_eq_true_eq, List.any_eq_true, List.mem_range, or_assoc]
  constructor
  · rintro (own | listener | ⟨i, _, number⟩)
    · exact Or.inl own
    · exact Or.inr ⟨_, listener⟩
    · exact Or.inr ⟨_, number⟩
  · rintro (own | ⟨k, number⟩)
    · exact Or.inl own
    · cases k with
      | listener => exact Or.inr (Or.inl number)
      | client i =>
          have early := ok.born i (Or.inr (by rw [number]; exact Option.some_ne_none n))
          exact Or.inr (Or.inr ⟨i, early, number⟩)

theorem free_number (s : State) (ok : Consistent s) (n : Nat) (free : s.used n = false) :
    s.own n = false ∧ (∀ k, s.fileno k ≠ some n) ∧ s.sockets n ≠ some .listener := by
  have unused : ¬ (s.own n = true ∨ ∃ k, s.fileno k = some n) := by
    rw [← used_iff s ok n, free]
    exact Bool.false_ne_true
  rw [not_or, not_exists, Bool.not_eq_true] at unused
  exact ⟨unused.1, unused.2, fun listener => unused.2 _ ((ok.listening n).mp listener)⟩

theorem Promised.kept (s s' : State) (event : Event) (promised : Promised s event)
    (registered : s.registered event.fd ≠ none → s'.registered event.fd ≠ none)
    (client : s'.sockets event.fd = some .listener → s.sockets event.fd = some .listener)
    (there : event.gone = false → ∀ k, s.sockets event.fd = some k → s.fileno k = some event.fd →
      s'.sockets event.fd = some k ∧ s'.fileno k = some event.fd ∧
        s'.bytesToSend k = s.bytesToSend k) : Promised s' event where
  registered := registered promised.registered
  client gone listener := promised.client gone (client listener)
  there here := by
    obtain ⟨k, found, number, readable, writable⟩ := promised.there here
    obtain ⟨stored, open_, same⟩ := there here k found number
    exact ⟨k, stored, open_, by rwa [same], by rwa [same]⟩

theorem start_consistent (s : State) (first : machine.start s) : Consistent s := by
  obtain ⟨fd, inside, own, fileno, created, sockets, addresses, received, sending, registered,
    batch, _, raised⟩ := first
  have only : ∀ n k, s.sockets n = some k → n = fd ∧ k = .listener := by
    intro n k found
    rw [sockets, Function.update_apply] at found
    split at found
    · rename_i same
      cases found
      exact ⟨same, rfl⟩
    · cases found
  have open_ : ∀ n k, s.fileno k = some n → n = fd ∧ k = .listener := by
    intro n k number
    rw [fileno, Function.update_apply] at number
    split at number
    · rename_i same
      cases number
      exact ⟨rfl, same⟩
    · cases number
  have listener : s.sockets fd = some .listener := by rw [sockets, Function.update_self]
  have number : s.fileno .listener = some fd := by rw [fileno, Function.update_self]
  have mask : ∀ n, s.registered n = if n = fd then some .pollin else none := by
    intro n
    rw [registered, Function.update_apply]
  exact
    { listening := fun n =>
        ⟨fun found => (only n _ found).1 ▸ number, fun found => (open_ n _ found).1 ▸ listener⟩
      stored := fun n i found => nomatch (only n _ found).2
      polled := fun n => by
        rw [mask, sockets, Function.update_apply]
        split <;> simp
      others := fun n known => by
        rw [mask] at known
        split at known
        · rename_i same
          exact same ▸ ⟨own, inside⟩
        · exact absurd rfl known
      masks := fun n k _ => by
        rw [mask, sending]
        split <;> simp
      single := fun n m k one two => (only n k one).1.trans (only m k two).1.symm
      numbers := fun j k n one two => (open_ n j one).2.trans (open_ n k two).2.symm
      denoted := fun k n open' _ => by
        obtain ⟨rfl, rfl⟩ := open_ n k open'
        exact listener
      born := fun i known => by
        rcases known with known | known
        · rw [addresses] at known
          cases known
        · obtain ⟨n, open'⟩ := Option.ne_none_iff_exists'.mp known
          cases (open_ n _ open').2
      clients := addresses _
      keys := fun k known => by
        rw [received, sending] at known
        simp at known
      disjoint := fun k => Or.inl (received k)
      distinct := by rw [batch]; exact List.nodup_nil
      promised := by rw [batch]; exact fun _ member => absurd member List.not_mem_nil
      sound := by rw [raised]; exact nofun }

/-! poll, and the first line of the loop. -/

theorem ready_promised (s : State) (ok : Consistent s) (event : Event) (ready : s.Ready event) :
    Promised s event := by
  unfold Ready at ready
  cases mask : s.registered event.fd with
  | none =>
      rw [mask] at ready
      exact ready.elim
  | some m =>
      rw [mask] at ready
      dsimp only at ready
      have known : s.registered event.fd ≠ none := by simp [mask]
      split at ready
      · rename_i used
        obtain ⟨_, readable, writable, listener⟩ := ready
        have unowned := (ok.others event.fd known).1
        -- a number in use is that of a socket of the server, stored under it
        obtain ⟨k, number⟩ := ((used_iff s ok event.fd).mp used).resolve_left (by simp [unowned])
        have found := ok.denoted k event.fd number known
        have sends := ok.masks event.fd k found
        rw [mask, Option.some.injEq] at sends
        refine ⟨known, ?_, fun _ => ⟨k, found, number, ?_, ?_⟩⟩
        · intro gone stored
          rw [listener ((ok.listening event.fd).mp stored)] at gone
          cases gone
        · intro read
          rw [readable read] at sends
          simpa using sends
        · intro write
          exact sends.mp (writable write)
      · rename_i unused
        rw [Bool.not_eq_true] at unused
        refine ⟨known, fun _ => (free_number s ok event.fd unused).2.2, ?_⟩
        intro there
        -- a closed number is reported as gone, and nothing else is promised
        rw [ready] at there
        cases there

theorem poll_consistent (s : State) (ok : Consistent s) (events : List Event)
    (polled : s.Polled events) : Consistent { s with batch := events } :=
  { ok with
    distinct := polled.2.1
    promised := fun event member =>
      (ready_promised s ok event (polled.2.2.1 event member)).kept s _ event (fun known => known)
        (fun listener => listener) fun _ _ found number => ⟨found, number, rfl⟩ }

structure Serving (s : State) (k : Sock) (event : Event) : Prop where
  consistent : Consistent s
  promised : Promised s event
  found : s.sockets event.fd = some k
  apart : ∀ other ∈ s.batch, other.fd ≠ event.fd

namespace Serving

variable {s : State} {k : Sock} {event : Event}

theorem elsewhere (at_ : Serving s k event) (n : Nat) (j : Sock) (other : n ≠ event.fd)
    (stored : s.sockets n = some j) : j ≠ k := by
  rintro rfl
  exact other (at_.consistent.single n event.fd j stored at_.found)

/-- An event that does not say gone is about the socket as poll has seen it. -/
theorem seen (at_ : Serving s k event) (there : event.gone = false) :
    s.fileno k = some event.fd ∧ (event.readable = true → s.bytesToSend k = none) ∧
      (event.writable = true → s.bytesToSend k ≠ none) := by
  obtain ⟨j, stored, seen⟩ := at_.promised.there there
  obtain rfl : k = j := Option.some.inj (at_.found.symm.trans stored)
  exact seen

theorem number_here (at_ : Serving s k event) (there : event.gone = false) (fd : Nat)
    (number : s.fileno k = some fd) : fd = event.fd :=
  Option.some.inj (number.symm.trans (at_.seen there).1)

end Serving

theorem batch_found (s : State) (ok : Consistent s) (event : Event) (rest : List Event)
    (batch : s.batch = event :: rest) : s.sockets event.fd ≠ none :=
  (ok.polled event.fd).mp (ok.promised event (by simp [batch])).registered

theorem bind_fileno (s : State) (k : Sock) (rest : List Event) (j : Sock) :
    (s.bind k rest).fileno j = s.fileno j ∨
      (s.bind k rest).fileno j = none ∧ s.held j = false := by
  simp only [State.bind]
  split
  · rename_i lost
    exact Or.inr ⟨rfl, lost.2.2⟩
  · exact Or.inl rfl

theorem bind_number (s : State) (k : Sock) (rest : List Event) (j : Sock) (n : Nat)
    (number : (s.bind k rest).fileno j = some n) : s.fileno j = some n := by
  rcases bind_fileno s k rest j with same | ⟨closed, _⟩
  · rwa [← same]
  · rw [closed] at number
    cases number

theorem bind_held (s : State) (k : Sock) (rest : List Event) (j : Sock) (holds : s.held j = true) :
    (s.bind k rest).fileno j = s.fileno j := by
  rcases bind_fileno s k rest j with same | ⟨_, lost⟩
  · exact same
  · rw [lost] at holds
    cases holds

theorem stored_held (s : State) (ok : Consistent s) (n : Nat) (k : Sock)
    (found : s.sockets n = some k) : s.held k = true := by
  cases k with
  | listener => rfl
  | client i => simp [held, (ok.stored n i found).1]

theorem bind_serving (s : State) (ok : Consistent s) (event : Event) (rest : List Event)
    (k : Sock) (batch : s.batch = event :: rest) (found : s.sockets event.fd = some k) :
    Serving (s.bind k rest) k event := by
  have kept : ∀ other ∈ s.batch, Promised (s.bind k rest) other := by
    intro other member
    refine (ok.promised other member).kept s _ other (fun known => known)
      (fun listener => listener) ?_
    intro _ j stored number
    refine ⟨stored, ?_, rfl⟩
    -- sockets that are stored are held, so none of them is closed
    rw [bind_held s k rest j (stored_held s ok other.fd j stored), number]
  have distinct := ok.distinct
  rw [batch, List.map_cons, List.nodup_cons] at distinct
  refine ⟨?_, kept event (by simp [batch]), found, ?_⟩
  · exact
      { listening := fun n => by
          rw [bind_held s k rest .listener rfl]
          exact ok.listening n
        stored := fun n i stored => by
          rw [bind_held s k rest _ (stored_held s ok n _ stored)]
          exact ok.stored n i stored
        polled := ok.polled
        others := ok.others
        masks := ok.masks
        single := ok.single
        numbers := fun i j n one two =>
          ok.numbers i j n (bind_number s k rest i n one) (bind_number s k rest j n two)
        denoted := fun j n number => ok.denoted j n (bind_number s k rest j n number)
        born := fun i known => by
          refine ok.born i (known.imp_right fun number => ?_)
          obtain ⟨n, number⟩ := Option.ne_none_iff_exists'.mp number
          rw [bind_number s k rest _ n number]
          exact Option.some_ne_none n
        clients := ok.clients
        keys := ok.keys
        disjoint := ok.disjoint
        distinct := distinct.2
        promised := fun other member =>
          kept other (by rw [batch]; exact List.mem_cons_of_mem event member)
        sound := ok.sound }
  · intro other member same
    exact distinct.1 (same ▸ List.mem_map_of_mem member)

/-! The branches of the loop. -/

theorem clean_consistent (s : State) (k : Sock) (event : Event) (at_ : Serving s k event)
    (gone : event.gone = true) : Consistent (s.clean k event.fd) := by
  have elsewhere := at_.elsewhere
  obtain ⟨ok, promised, found, apart⟩ := at_
  have client : k ≠ .listener := by
    rintro rfl
    exact promised.client gone found
  have left : ∀ n j, (s.clean k event.fd).sockets n = some j ↔
      n ≠ event.fd ∧ s.sockets n = some j := by
    intro n j
    simp only [State.clean, Function.update_apply]
    split <;> simp_all
  have known : ∀ n, (s.clean k event.fd).registered n ≠ none ↔
      n ≠ event.fd ∧ s.registered n ≠ none := by
    intro n
    simp only [State.clean, Function.update_apply]
    split <;> simp_all
  have address : ∀ j, (s.clean k event.fd).addresses j = true ↔
      j ≠ k ∧ s.addresses j = true := by
    intro j
    simp only [State.clean, Function.update_apply]
    split <;> simp_all
  exact
    { listening := fun n => by
        rw [left]
        refine ⟨fun stored => (ok.listening n).mp stored.2, fun number => ?_⟩
        have stored := (ok.listening n).mpr number
        refine ⟨?_, stored⟩
        rintro rfl
        exact client (Option.some.inj (found.symm.trans stored))
      stored := fun n i stored => by
        obtain ⟨other, stored⟩ := (left n _).mp stored
        obtain ⟨has, number⟩ := ok.stored n i stored
        exact ⟨(address _).mpr ⟨elsewhere n _ other stored, has⟩, number⟩
      polled := fun n => by
        have same := ok.polled n
        simp only [State.clean, Function.update_apply]
        split
        · simp
        · exact same
      others := fun n registered => ok.others n ((known n).mp registered).2
      masks := fun n j stored => by
        obtain ⟨other, stored⟩ := (left n j).mp stored
        have same := ok.masks n j stored
        simpa only [State.clean, Function.update_of_ne other,
          Function.update_of_ne (elsewhere n j other stored)] using same
      single := fun n m j one two =>
        ok.single n m j ((left n j).mp one).2 ((left m j).mp two).2
      numbers := ok.numbers
      denoted := fun j n number registered => by
        obtain ⟨other, registered⟩ := (known n).mp registered
        exact (left n j).mpr ⟨other, ok.denoted j n number registered⟩
      born := fun i known => ok.born i (known.imp_left fun has => ((address _).mp has).2)
      clients := by
        rw [← Bool.not_eq_true, address, ok.clients]
        simp
      keys := fun j has => by
        rw [address]
        simp only [State.clean, Function.update_apply] at has
        split at has
        · simp at has
        · rename_i other
          exact ⟨other, ok.keys j has⟩
      disjoint := fun j => by
        have apart := ok.disjoint j
        simp only [State.clean, Function.update_apply]
        split
        · exact Or.inl rfl
        · exact apart
      distinct := ok.distinct
      promised := fun other member => by
        have away := apart other member
        refine (ok.promised other member).kept s _ other (fun has => (known _).mpr ⟨away, has⟩)
          (fun stored => ((left _ _).mp stored).2) fun _ j stored number => ?_
        exact ⟨(left _ _).mpr ⟨away, stored⟩, number,
          Function.update_of_ne (elsewhere _ j away stored) _ _⟩
      sound := ok.sound }

theorem fresh (s : State) (ok : Consistent s) : s.addresses (.client s.created) = false ∧
    s.bytesReceived (.client s.created) = none ∧ s.bytesToSend (.client s.created) = none := by
  have unknown : ¬ s.addresses (.client s.created) = true :=
    fun has => Nat.lt_irrefl _ (ok.born _ (Or.inl has))
  have bare : ¬ (_ ∨ _) := fun has => unknown (ok.keys (.client s.created) has)
  rw [not_or, not_not, not_not] at bare
  exact ⟨by simpa using unknown, bare⟩

/-! The number of a new connection may be stored for one that is closed. -/

theorem accepted_sockets (s : State) (fd n : Nat) (k : Sock) :
    (s.accepted fd).sockets n = some k ↔
      n = fd ∧ k = .client s.created ∨ n ≠ fd ∧ s.sockets n = some k := by
  simp only [State.accepted, Function.update_apply]
  split <;> grind

theorem accepted_fileno (s : State) (fd n : Nat) (k : Sock) :
    (s.accepted fd).fileno k = some n ↔
      k = .client s.created ∧ n = fd ∨ k ≠ .client s.created ∧ s.fileno k = some n := by
  simp only [State.accepted, Function.update_apply]
  split <;> grind

section

variable {s : State} (ok : Consistent s) {fd : Nat} (unnumbered : ∀ k, s.fileno k ≠ some fd)

include ok

theorem stored_old (n : Nat) (k : Sock) (stored : s.sockets n = some k) :
    k ≠ .client s.created := by
  rintro rfl
  have has := (ok.stored n _ stored).1
  rw [(fresh s ok).1] at has
  cases has

theorem accepted_stored (n i : Nat) (stored : (s.accepted fd).sockets n = some (.client i)) :
    (s.accepted fd).addresses (.client i) = true ∧
      ((s.accepted fd).fileno (.client i) = none ∨
        (s.accepted fd).fileno (.client i) = some n) := by
  simp only [State.accepted, Function.update_apply]
  rcases (accepted_sockets s fd n _).mp stored with ⟨rfl, same⟩ | ⟨_, stored⟩
  · simp [same]
  · have other := stored_old ok n _ stored
    simp only [other, if_false]
    exact ok.stored n i stored

/-- The mask of the number is that of the new connection, whatever it was before. -/
theorem accepted_masks (n : Nat) (k : Sock) (stored : (s.accepted fd).sockets n = some k) :
    (s.accepted fd).registered n = some .pollout ↔ (s.accepted fd).bytesToSend k ≠ none := by
  simp only [State.accepted, Function.update_apply]
  rcases (accepted_sockets s fd n k).mp stored with ⟨rfl, rfl⟩ | ⟨other, stored⟩
  · simp [(fresh s ok).2.2]
  · simp only [other, if_false]
    exact ok.masks n k stored

theorem accepted_single (n m : Nat) (k : Sock) (one : (s.accepted fd).sockets n = some k)
    (two : (s.accepted fd).sockets m = some k) : n = m := by
  rcases (accepted_sockets s fd n k).mp one with ⟨here, new⟩ | ⟨_, before⟩ <;>
    rcases (accepted_sockets s fd m k).mp two with ⟨here', new'⟩ | ⟨_, before'⟩
  · exact here.trans here'.symm
  · exact absurd new (stored_old ok m k before')
  · exact absurd new' (stored_old ok n k before)
  · exact ok.single n m k before before'

theorem accepted_born (i : Nat) (known : (s.accepted fd).addresses (.client i) = true ∨
    (s.accepted fd).fileno (.client i) ≠ none) : i < (s.accepted fd).created := by
  by_cases new : i = s.created
  · subst new
    exact Nat.lt_succ_self _
  · have other : Sock.client i ≠ .client s.created := fun same => new (Sock.client.inj same)
    simp only [State.accepted, Function.update_of_ne other] at known
    exact Nat.lt_succ_of_lt (ok.born i known)

include unnumbered

theorem accepted_listening (n : Nat) : (s.accepted fd).sockets n = some .listener ↔
    (s.accepted fd).fileno .listener = some n := by
  rw [accepted_sockets, accepted_fileno]
  constructor
  · rintro (⟨_, same⟩ | ⟨_, stored⟩)
    · cases same
    · exact Or.inr ⟨nofun, (ok.listening n).mp stored⟩
  · rintro (⟨same, _⟩ | ⟨_, number⟩)
    · cases same
    · refine Or.inr ⟨?_, (ok.listening n).mpr number⟩
      rintro rfl
      exact unnumbered _ number

theorem accepted_numbers (j k : Sock) (n : Nat) (one : (s.accepted fd).fileno j = some n)
    (two : (s.accepted fd).fileno k = some n) : j = k := by
  rcases (accepted_fileno s fd n j).mp one with ⟨new, here⟩ | ⟨_, before⟩ <;>
    rcases (accepted_fileno s fd n k).mp two with ⟨new', here'⟩ | ⟨_, before'⟩
  · exact new.trans new'.symm
  · exact absurd (here ▸ before') (unnumbered k)
  · exact absurd (here' ▸ before) (unnumbered j)
  · exact ok.numbers j k n before before'

theorem accepted_denoted (k : Sock) (n : Nat) (number : (s.accepted fd).fileno k = some n)
    (registered : (s.accepted fd).registered n ≠ none) :
    (s.accepted fd).sockets n = some k := by
  rw [accepted_sockets]
  rcases (accepted_fileno s fd n k).mp number with ⟨new, here⟩ | ⟨_, before⟩
  · exact Or.inl ⟨here, new⟩
  · have other : n ≠ fd := fun here => unnumbered k (here ▸ before)
    simp only [State.accepted, Function.update_of_ne other] at registered
    exact Or.inr ⟨other, ok.denoted k n before registered⟩

theorem accepted_promised (other : Event) (member : other ∈ s.batch) :
    Promised (s.accepted fd) other := by
  refine (ok.promised other member).kept s _ other ?_ ?_ fun there k stored number => ?_
  · intro has
    simp only [State.accepted, Function.update_apply]
    split
    · exact nofun
    · exact has
  · intro stored
    rcases (accepted_sockets s fd _ _).mp stored with ⟨_, same⟩ | ⟨_, stored⟩
    · cases same
    · exact stored
  -- an event that is promised more than gone has its number in use
  · have away : other.fd ≠ fd := by
      intro same
      exact unnumbered k (same ▸ number)
    exact ⟨(accepted_sockets s fd _ _).mpr (Or.inr ⟨away, stored⟩),
      (accepted_fileno s fd _ _).mpr (Or.inr ⟨stored_old ok _ k stored, number⟩), rfl⟩

end

theorem accepted_consistent (s : State) (ok : Consistent s) (fd : Nat) (inside : fd < s.limit)
    (free : s.used fd = false) : Consistent (s.accepted fd) := by
  obtain ⟨unowned, unnumbered, -⟩ := free_number s ok fd free
  exact
    { listening := accepted_listening ok unnumbered
      stored := accepted_stored ok
      polled := fun n => by
        have same := ok.polled n
        simp only [State.accepted, Function.update_apply]
        split
        · simp
        · exact same
      others := fun n registered => by
        simp only [State.accepted, Function.update_apply] at registered
        split at registered
        · rename_i same
          subst same
          exact ⟨unowned, inside⟩
        · exact ok.others n registered
      masks := accepted_masks ok
      single := accepted_single ok
      numbers := accepted_numbers ok unnumbered
      denoted := accepted_denoted ok unnumbered
      born := accepted_born ok
      clients := by
        rw [State.accepted]
        simpa using ok.clients
      keys := fun k has => by
        simp only [State.accepted, Function.update_apply]
        split
        · rfl
        · exact ok.keys k has
      disjoint := ok.disjoint
      distinct := ok.distinct
      promised := accepted_promised ok unnumbered
      sound := ok.sound }

theorem close_consistent (s : State) (k : Sock) (event : Event) (at_ : Serving s k event)
    (client : k ≠ .listener) : Consistent (s.close k) := by
  have elsewhere := at_.elsewhere
  obtain ⟨ok, promised, found, apart⟩ := at_
  have numbered : ∀ j n, (s.close k).fileno j = some n ↔ j ≠ k ∧ s.fileno j = some n := by
    intro j n
    simp only [State.close, Function.update_apply]
    split <;> simp_all
  exact { ok with
    listening := fun n => by
      rw [numbered]
      exact (ok.listening n).trans (and_iff_right client.symm).symm
    stored := fun n i stored => by
      have old := ok.stored n i stored
      simp only [State.close, Function.update_apply]
      split
      · exact ⟨old.1, Or.inl rfl⟩
      · exact old
    numbers := fun i j n one two =>
      ok.numbers i j n ((numbered i n).mp one).2 ((numbered j n).mp two).2
    denoted := fun j n number => ok.denoted j n ((numbered j n).mp number).2
    born := fun i known => by
      refine ok.born i (known.imp_right fun number => ?_)
      obtain ⟨n, number⟩ := Option.ne_none_iff_exists'.mp number
      rw [((numbered _ n).mp number).2]
      exact Option.some_ne_none n
    promised := fun other member => by
      have away := apart other member
      exact (ok.promised other member).kept s _ other (fun has => has) (fun stored => stored)
        fun _ j stored number =>
          ⟨stored, (numbered j _).mpr ⟨elsewhere _ j away stored, number⟩, rfl⟩ }

def State.exchange (s : State) (k : Sock) (fd : Nat) (received sending : Option (List UInt8))
    (mask : Mask) : State :=
  { s with
    bytesReceived := Function.update s.bytesReceived k received
    bytesToSend := Function.update s.bytesToSend k sending
    registered := Function.update s.registered fd (some mask) }

theorem exchange_consistent (s : State) (k : Sock) (event : Event) (at_ : Serving s k event)
    (client : k ≠ .listener) (received sending : Option (List UInt8)) (mask : Mask)
    (one : received = none ∨ sending = none) (masked : mask = .pollout ↔ sending ≠ none) :
    Consistent (s.exchange k event.fd received sending mask) := by
  have elsewhere := at_.elsewhere
  obtain ⟨ok, promised, found, apart⟩ := at_
  have known : ∀ n, (s.exchange k event.fd received sending mask).registered n ≠ none ↔
      s.registered n ≠ none := by
    intro n
    simp only [State.exchange, Function.update_apply]
    split
    · rename_i here
      simp [here, promised.registered]
    · rfl
  have address : s.addresses k = true := by
    cases k with
    | listener => exact absurd rfl client
    | client i => exact (ok.stored _ i found).1
  exact { ok with
    polled := fun n => (known n).trans (ok.polled n)
    others := fun n registered => ok.others n ((known n).mp registered)
    masks := fun n j stored => by
      by_cases here : n = event.fd
      · subst here
        obtain rfl : k = j := Option.some.inj (found.symm.trans stored)
        simpa [State.exchange] using masked
      · have same := ok.masks n j stored
        simpa only [State.exchange, Function.update_of_ne here,
          Function.update_of_ne (elsewhere n j here stored)] using same
    denoted := fun j n number registered => ok.denoted j n number ((known n).mp registered)
    keys := fun j has => by
      simp only [State.exchange, Function.update_apply] at has
      split at has
      · rename_i same
        exact same ▸ address
      · exact ok.keys j has
    disjoint := fun j => by
      have apart := ok.disjoint j
      simp only [State.exchange, Function.update_apply]
      split
      · exact one
      · exact apart
    promised := fun other member => by
      have away := apart other member
      exact (ok.promised other member).kept s _ other (fun has => (known _).mpr has)
        (fun stored => stored) fun _ j stored number =>
          ⟨stored, number, Function.update_of_ne (elsewhere _ j away stored) _ _⟩ }

theorem raise_consistent (s : State) (ok : Consistent s) (exception : Raised)
    (other : exception ≠ .keyError) : Consistent (s.raise exception) :=
  { ok with
    promised := fun event member => (ok.promised event member).kept s _ event (fun known => known)
      (fun listener => listener) fun _ _ found number => ⟨found, number, rfl⟩
    sound := fun same => other (Option.some.inj same) }

/-! What the loop asks the poll object and the dictionaries for is there. -/

theorem receive_exchange (s : State) (k : Sock) (event : Event) (at_ : Serving s k event)
    (there : event.gone = false) (readable : event.readable = true) (moreData : List UInt8) :
    s.receive k event.fd moreData =
      if ends ((s.bytesReceived k).getD [] ++ moreData) then
        s.exchange k event.fd none (some (getAnswer ((s.bytesReceived k).getD [] ++ moreData)))
          .pollout
      else
        s.exchange k event.fd (some ((s.bytesReceived k).getD [] ++ moreData)) none .pollin := by
  have known := at_.promised.registered
  have unsent := (at_.seen there).2.1 readable
  rw [State.receive]
  split
  · simp [State.modify, State.exchange, known]
  · -- the mask is POLLIN already, and nothing is to be sent
    have mask := at_.consistent.masks event.fd k at_.found
    rw [unsent] at mask
    have pollin : s.registered event.fd = some .pollin := by
      cases m : s.registered event.fd with
      | none => exact absurd m known
      | some m' => cases m' <;> simp_all
    rw [State.exchange, ← pollin, Function.update_eq_self, ← unsent, Function.update_eq_self]

theorem send_exchange (s : State) (k : Sock) (event : Event) (at_ : Serving s k event)
    (data : List UInt8) (waiting : s.bytesToSend k = some data) (n : Nat) :
    s.send k event.fd data n =
      if n < data.length then s.exchange k event.fd none (some (data.drop n)) .pollout
      else s.exchange k event.fd none none .pollin := by
  have known := at_.promised.registered
  have idle : s.bytesReceived k = none :=
    (at_.consistent.disjoint k).resolve_right (by simp [waiting])
  rw [State.send]
  split
  · have mask := (at_.consistent.masks event.fd k at_.found).mpr (by simp [waiting])
    rw [State.exchange, ← mask, Function.update_eq_self, ← idle, Function.update_eq_self]
  · rw [State.exchange, ← idle, Function.update_eq_self]
    simp [State.modify, known]

theorem handles_consistent (s s' : State) (k : Sock) (event : Event) (call : Call)
    (output : Output) (at_ : Serving s k event) (handles : Handles s k event call output s') :
    Consistent s' := by
  cases handles with
  | clean gone _ _ => exact clean_consistent s k event at_ gone
  | unknown gone missing =>
      refine absurd ⟨?_, at_.promised.registered⟩ missing
      cases k with
      | listener => exact absurd at_.found (at_.promised.client gone)
      | client i => exact (at_.consistent.stored _ i at_.found).1
  | accept _ inside free => exact accepted_consistent s at_.consistent _ inside free
  | eof client _ _ _ => exact close_consistent s k event at_ client
  | recv client there readable number _ _ =>
      rw [at_.number_here there _ number, receive_exchange s k event at_ there readable]
      split
      · exact exchange_consistent s k event at_ client _ _ _ (Or.inl rfl) (by simp)
      · exact exchange_consistent s k event at_ client _ _ _ (Or.inr rfl) (by simp)
  | absent _ there writable nothing => exact absurd nothing ((at_.seen there).2.2 writable)
  | send client there _ number waiting _ =>
      rw [at_.number_here there _ number, send_exchange s k event at_ _ waiting]
      split
      · exact exchange_consistent s k event at_ client _ _ _ (Or.inl rfl) (by simp)
      · exact exchange_consistent s k event at_ client _ _ _ (Or.inl rfl) (by simp)
  | fails => exact raise_consistent s at_.consistent .osError nofun
  | quiet => exact at_.consistent

theorem step_consistent (e : Step) (stepped : machine.Stepped e) (ok : Consistent e.before) :
    Consistent e.after := by
  obtain ⟨s, action, output, s'⟩ := e
  obtain ⟨_, does⟩ := step_does _ stepped
  dsimp only at does ok ⊢
  cases does with
  | poll _ polled => exact poll_consistent s ok _ polled
  | lost batch absent => exact absurd absent (batch_found s ok _ _ batch)
  | event batch found handles =>
      exact handles_consistent _ s' _ _ _ _ (bind_serving s ok _ _ _ batch found) handles

theorem run_consistent {trace : List Step} {s : State} (run : machine.Run trace s) :
    Consistent s :=
  run.invariant start_consistent step_consistent

end NetworkProgramming.SrvAsync
