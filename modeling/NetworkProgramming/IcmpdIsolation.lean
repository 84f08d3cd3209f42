import NetworkProgramming.Icmpd

/-!
Who gets the reports of the ICMP daemon. An entry of the table keeps the family
and the port of its last owner, and readable_listen gives it away as it is: the
new connection gets what is meant for the old one until it registers itself.
-/

namespace NetworkProgramming.Icmpd

variable {fdSetsize : Nat}

abbrev Trace (fdSetsize : Nat) := List (Step fdSetsize)

def Enters (e : Step fdSetsize) (i : Fin fdSetsize) : Prop :=
  (e.before.client i).connfd = none ∧ (e.after.client i).connfd ≠ none

def Registered (trace : Trace fdSetsize) (i : Fin fdSetsize) (family : Family)
    (port : UInt16) : Prop :=
  ∃ earlier e later passed, trace = earlier ++ e :: later ∧
    e.action = .conn i (.descriptor passed) true ∧ passed.socket = some (family, port) ∧
    ∀ d ∈ later, ¬ Enters d i

theorem still_registered (trace : Trace fdSetsize) (e : Step fdSetsize) (i : Fin fdSetsize)
    (family : Family) (port : UInt16) (other : ¬ Enters e i)
    (registered : Registered trace i family port) :
    Registered (trace ++ [e]) i family port := by
  obtain ⟨earlier, d, later, passed, rfl, action, socket, since⟩ := registered
  refine ⟨earlier, d, later ++ [e], passed, by simp, action, socket, ?_⟩
  intro c member
  rcases List.mem_append.mp member with before | last
  · exact since c before
  · rw [List.mem_singleton.mp last]
    exact other

theorem entered_unregistered (trace : Trace fdSetsize) (e : Step fdSetsize) (connfd : Nat)
    (i : Fin fdSetsize) (family : Family) (port : UInt16) (listen : e.action = .listen connfd)
    (enters : Enters e i) : ¬ Registered (trace ++ [e]) i family port := by
  rintro ⟨earlier, d, later, passed, whole, action, _, since⟩
  rcases Machine.split_snoc whole.symm with ⟨_, _, rfl⟩ | ⟨init, rfl, _⟩
  · cases listen.symm.trans action
  · exact since e (by simp) enters

/-! Entries that a report can find. -/

def Stale (e : Step fdSetsize) : Prop :=
  ∃ connfd i port, e.action = .listen connfd ∧ available e.before = some i ∧
    (e.before.client i).Names port

def Isolated (trace : Trace fdSetsize) (s : State fdSetsize) : Prop :=
  ∀ i port, (s.client i).connfd ≠ none → (s.client i).Names port →
    Registered trace i (s.client i).family port

theorem kept_isolated (trace : Trace fdSetsize) (e : Step fdSetsize)
    (isolated : Isolated trace e.before) (i : Fin fdSetsize) (port : UInt16)
    (same : e.after.client i = e.before.client i) (used : (e.after.client i).connfd ≠ none)
    (names : (e.after.client i).Names port) :
    Registered (trace ++ [e]) i (e.after.client i).family port := by
  have other : ¬ Enters e i := by
    rintro ⟨free, taken⟩
    rw [same] at taken
    exact taken free
  rw [same] at used names ⊢
  exact still_registered trace e i _ port other (isolated i port used names)

theorem set_isolated (trace : Trace fdSetsize) (e : Step fdSetsize) (i : Fin fdSetsize)
    (client : Client) (changed : e.after.client = Function.update e.before.client i client)
    (now : ∀ port, client.connfd ≠ none → client.Names port →
      Registered (trace ++ [e]) i client.family port)
    (isolated : Isolated trace e.before) : Isolated (trace ++ [e]) e.after := by
  intro j port
  by_cases same : j = i
  · subst j
    rw [changed, Function.update_self]
    exact now port
  · apply kept_isolated trace e isolated j port
    rw [changed, Function.update_of_ne same]

theorem step_isolated (trace : Trace fdSetsize) (s after : State fdSetsize)
    (action : Action fdSetsize) (event : Event fdSetsize) (effect : Effect s action after event)
    (clean : ¬ Stale ⟨s, action, event, after⟩) (isolated : Isolated trace s) :
    Isolated (trace ++ [⟨s, action, event, after⟩]) after := by
  cases effect with
  | quit => exact fun i port => kept_isolated trace ⟨s, _, _, _⟩ isolated i port rfl
  | ignored => exact fun i port => kept_isolated trace ⟨s, _, _, _⟩ isolated i port rfl
  | reported version packet written clients sport err quit some_ =>
      exact fun i port => kept_isolated trace ⟨s, _, _, _⟩ isolated i port rfl
  | accepted connfd i found =>
      refine set_isolated trace _ i _ rfl ?_ isolated
      intro port _ names
      exact absurd ⟨connfd, i, port, rfl, found, names⟩ clean
  | closed i request written client free =>
      refine set_isolated trace _ i client rfl ?_ isolated
      intro port used
      exact absurd free used
  | registered i request used registered =>
      refine set_isolated trace _ i _ rfl ?_ isolated
      intro port _ names
      obtain ⟨passed, rfl, socket⟩ := readable_conn_registered _ request port registered names
      exact ⟨trace, _, [], passed, rfl, rfl, socket, List.forall_mem_nil _⟩

theorem run_isolated (trace : Trace fdSetsize) (s : State fdSetsize)
    (run : (machine fdSetsize).Run trace s) (clean : ∀ e ∈ trace, ¬ Stale e) :
    Isolated trace s := by
  apply run.history (C := fun e => ¬ Stale e) (I := Isolated)
  · rintro s rfl i port used
    exact absurd rfl used
  · rintro trace ⟨s, action, event, after⟩ stepped met isolated
    have effect : Effect s action after event := step_effect s after action event stepped
    exact step_isolated trace s after action event effect met isolated
  · exact clean

theorem version_internet (version : Version) :
    version.family = .inet ∨ version.family = .inet6 := by
  cases version with
  | v4 => exact Or.inl rfl
  | v6 => exact Or.inr rfl

theorem mem_recipients (s : State fdSetsize) (family : Family) (sport : UInt16)
    (i : Fin fdSetsize) : i ∈ recipients s family sport ↔
      (i : Int) ≤ s.maxi ∧ (s.client i).connfd ≠ none ∧ (s.client i).family = family ∧
        (s.client i).lport = sport.toNat := by
  simp [recipients]

theorem step_reported (trace : Trace fdSetsize) (s after : State fdSetsize)
    (action : Action fdSetsize) (clients : List (Fin fdSetsize)) (family : Family)
    (sport : UInt16) (err : IcmpdErr)
    (effect : Effect s action after (.reported clients family sport err))
    (isolated : Isolated trace s) (i : Fin fdSetsize) (member : i ∈ clients) :
    Registered trace i family sport := by
  cases effect with
  | reported version packet written _ _ _ quit some_ =>
      obtain ⟨_, used, same, lport⟩ := (mem_recipients s _ sport i).mp (some_ i member)
      have names : (s.client i).Names sport := by
        constructor
        · rw [same]
          exact version_internet version
        · exact lport
      have registered := isolated i sport used names
      rwa [same] at registered

/-! The next message after a stale entry has been given away. -/

def unreachable (version : Version) (sport : UInt16) : Packet where
  n := 56
  buf k :=
    if k = 48 then UInt8.ofNat (sport.toNat % 256)
    else if k = 49 then UInt8.ofNat (sport.toNat / 256)
    else match version with
      | .v4 =>
          if k = 0 ∨ k = 28 then 0x45
          else if k = 20 then icmpUnreach
          else if k = 21 then icmpUnreachPort
          else if k = 37 then ipprotoUdp
          else 0
      | .v6 =>
          if k = 0 then icmp6DstUnreach
          else if k = 1 then icmp6DstUnreachNoport
          else if k = 14 then ipprotoUdp
          else 0

theorem unreachable_port (version : Version) (sport : UInt16) :
    (unreachable version sport).port 48 = sport := by
  have bound := sport.toNat_lt
  have low : (UInt8.ofNat (sport.toNat % 256)).toNat = sport.toNat % 256 := by
    rw [UInt8.toNat_ofNat']
    omega
  have high : (UInt8.ofNat (sport.toNat / 256)).toNat = sport.toNat / 256 := by
    rw [UInt8.toNat_ofNat']
    omega
  have whole : sport.toNat % 256 + 256 * (sport.toNat / 256) = sport.toNat := by
    omega
  simp only [Packet.port, unreachable, ↓reduceIte, low, Nat.reduceAdd, Nat.reduceEqDiff, high,
    whole, UInt16.ofNat_toNat]

theorem unreachable_quoted (version : Version) (sport : UInt16) :
    ∃ err, version.quoted (unreachable version sport) = .udp sport err := by
  have port := unreachable_port version sport
  have n : (unreachable version sport).n = 56 := rfl
  cases version with
  | v4 =>
      have hlen1 : (unreachable .v4 sport).hlen 0 = 20 := by simp [Packet.hlen, unreachable]
      have hlen2 : (unreachable .v4 sport).hlen 28 = 20 := by simp [Packet.hlen, unreachable]
      have type : (unreachable .v4 sport).buf 20 = icmpUnreach := rfl
      have proto : (unreachable .v4 sport).buf 37 = ipprotoUdp := rfl
      simp only [Version.quoted, quoted4, hlen1, Nat.reduceAdd, hlen2, port, n, Nat.reduceLT,
        type, proto, true_or, ↓reduceIte]
      exact ⟨_, rfl⟩
  | v6 =>
      have type : (unreachable .v6 sport).buf 0 = icmp6DstUnreach := rfl
      have proto : (unreachable .v6 sport).buf 14 = ipprotoUdp := rfl
      simp only [Version.quoted, quoted6, Nat.reduceAdd, port, n, Nat.reduceLT, type, proto,
        true_or, ↓reduceIte]
      exact ⟨_, rfl⟩

theorem version_of (family : Family) (internet : family = .inet ∨ family = .inet6) :
    ∃ version : Version, version.family = family := by
  rcases internet with rfl | rfl
  · exact ⟨.v4, rfl⟩
  · exact ⟨.v6, rfl⟩

theorem stale_reported (trace : Trace fdSetsize) (e : Step fdSetsize)
    (run : (machine fdSetsize).Run trace e.before) (stepped : (machine fdSetsize).Stepped e)
    (stale : Stale e) : ∃ d clients family sport err i,
      (machine fdSetsize).Run (trace ++ [e, d]) d.after ∧
      d.output = .reported clients family sport err ∧ i ∈ clients ∧
      ¬ Registered (trace ++ [e]) i family sport := by
  obtain ⟨s, action, event, after⟩ := e
  obtain ⟨connfd, i, port, listen, found, internet, lport⟩ := stale
  simp only at listen found internet lport
  subst listen
  have first := run.next _ stepped
  simp only [Machine.Stepped, machine, step, readableListen, found, Option.ite_none_right_eq_some,
    Option.some.injEq, Prod.mk.injEq] at stepped
  obtain ⟨⟨running, _⟩, rfl, rfl⟩ := stepped
  obtain ⟨version, same⟩ := version_of _ internet
  obtain ⟨err, quoted⟩ := unreachable_quoted version port
  let next : State fdSetsize :=
    { s.set i { s.client i with connfd := some connfd } with maxi := max s.maxi i }
  refine ⟨⟨next, .icmp version (unreachable version port) none,
    .reported (recipients next version.family port) version.family port err, next⟩, _, _, _, _, i,
    ?_, rfl, ?_, ?_⟩
  · rw [List.append_cons]
    apply first.next
    simp [Machine.Stepped, machine, step, readableIcmp, quoted, next, State.set, running]
  · rw [mem_recipients]
    simp [next, State.set, same, lport]
  · have free := List.find?_some found
    rw [decide_eq_true_eq] at free
    exact entered_unregistered trace _ connfd i _ _ rfl ⟨free, by simp [State.set]⟩

end NetworkProgramming.Icmpd
