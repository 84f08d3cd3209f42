import Mathlib.Algebra.Order.Ring.Nat
import NetworkProgramming.DgSendRecv

/-!
Replies are matched with requests. The sequence number is never reset, so below
2^32 calls a datagram that carries the current one was sent by the current call,
with its payload and with a timestamp from its clock base.
-/

namespace NetworkProgramming.DgSendRecv

/-! Milliseconds of the clock, and what of them a timestamp keeps. -/

def Timeval.ms (tv : Timeval) : Int := tv.sec * 1000 + (tv.usec / 1000 : Nat)

def elapsed (sent now : Timeval) : UInt32 := UInt32.ofInt (now.ms - sent.ms)

theorem of_int_sub (a b : Int) : UInt32.ofInt a - UInt32.ofInt b = UInt32.ofInt (a - b) := by
  have whole : a = (a - b) + b := by omega
  conv => lhs; rw [whole, UInt32.ofInt_add]
  exact UInt32.add_sub_cancel _ _

theorem rtt_ts_sub (ptr : RttInfo) (sent now : Timeval) :
    rttTs ptr now - rttTs ptr sent = elapsed sent now := by
  have cancelled : (now.sec - ptr.base.toNat) * 1000 + (now.usec / 1000 : Nat) -
      ((sent.sec - ptr.base.toNat) * 1000 + (sent.usec / 1000 : Nat)) = now.ms - sent.ms := by
    simp only [Timeval.ms]
    omega
  rw [rttTs, rttTs, of_int_sub, cancelled, elapsed]

theorem word_bytes_length (w : UInt32) : (wordBytes w).length = 4 := rfl

theorem word_at_bytes (before rest : List UInt8) (w : UInt32) :
    wordAt (before ++ (wordBytes w ++ rest)) before.length = w := by
  have small : w.toNat < 2 ^ 32 := w.toNat_lt
  have byte (i : Nat) : (before ++ (wordBytes w ++ rest)).getD (before.length + i) 0 =
      (wordBytes w ++ rest).getD i 0 := by
    rw [List.getD_eq_getElem?_getD, List.getD_eq_getElem?_getD,
      List.getElem?_append_right (by omega), Nat.add_sub_cancel_left]
  apply UInt32.toNat_inj.mp
  simp only [wordAt, byte]
  simp only [wordBytes, List.cons_append, List.nil_append, List.getD_cons_zero,
    List.getD_cons_succ, UInt8.toNat_ofNat', UInt32.toNat_ofNat']
  omega

theorem hdr_bytes_length (h : Hdr) : h.bytes.length = sizeofHdr := rfl

theorem word_at_seq (h : Hdr) (rest : List UInt8) : wordAt (h.bytes ++ rest) 0 = h.seq := by
  have found := word_at_bytes [] (wordBytes h.ts ++ rest) h.seq
  simpa [Hdr.bytes] using found

theorem word_at_ts (h : Hdr) (rest : List UInt8) : wordAt (h.bytes ++ rest) 4 = h.ts := by
  have found := word_at_bytes (wordBytes h.seq) rest h.ts
  rwa [word_bytes_length, ← List.append_assoc] at found

/-! What the call that started last was given, and when it has sent that. -/

structure Attempt where
  payload : List UInt8
  sent : List Timeval

def Attempt.after (a : Attempt) : Action → Attempt
  | .call outbuff _ _ _ => ⟨outbuff, []⟩
  | .send tv => { a with sent := a.sent ++ [tv] }
  | _ => a

def attempt (trace : List Step) : Attempt := trace.foldl (fun a e => a.after e.action) ⟨[], []⟩

def Action.calls : Action → Nat
  | .call .. => 1
  | _ => 0

def calls (trace : List Step) : Nat := (trace.map (·.action.calls)).sum

theorem attempt_snoc (trace : List Step) (e : Step) :
    attempt (trace ++ [e]) = (attempt trace).after e.action := by
  simp [attempt]

theorem calls_snoc (trace : List Step) (e : Step) :
    calls (trace ++ [e]) = calls trace + e.action.calls := by
  simp [calls]

def Fits (e : Step) : Prop :=
  ∀ outbuff inbytes inbuff tv, e.action = .call outbuff inbytes inbuff tv →
    sizeofHdr + outbuff.length ≤ maxline ∧ outbuff.length ≤ inbytes

/-- With the current sequence number a datagram carries the current payload and
the timestamp of one of its transmissions. -/
structure Carries (static : Static) (a : Attempt) (d : Datagram) : Prop where
  short : d.length ≤ maxline
  header : ∃ h payload, d = Hdr.bytes h ++ payload ∧
    h.seq.toNat ≤ static.sendhdr.seq.toNat ∧
    (h.seq = static.sendhdr.seq →
      payload = a.payload ∧ ∃ tv ∈ a.sent, h.ts = rttTs static.rttinfo tv)

structure Answers (static : Static) (args : Args) (a : Attempt) : Prop where
  size : args.n = sizeofHdr + a.payload.length
  bytes : args.inbuff.take a.payload.length = a.payload
  stamped : ∃ tv ∈ a.sent, wordAt static.recvhdr 4 = rttTs static.rttinfo tv

structure Matched (a : Attempt) (s : State) : Prop where
  toPeer : ∀ d ∈ s.toPeer, Carries s.static a d
  toSocket : ∀ d ∈ s.toSocket, Carries s.static a d
  args : s.place ≠ .idle → s.args.outbuff = a.payload ∧
    sizeofHdr + a.payload.length ≤ maxline ∧ a.payload.length ≤ s.args.inbytes
  tested : s.place = .test → sizeofHdr ≤ s.args.n →
    wordAt s.static.recvhdr 0 = s.static.sendhdr.seq → Answers s.static s.args a
  stopped : s.place = .stop → Answers s.static s.args a

theorem Carries.moved {static next : Static} {a : Attempt} {d : Datagram}
    (carries : Carries static a d) (seq : next.sendhdr.seq = static.sendhdr.seq)
    (base : next.rttinfo.base = static.rttinfo.base) : Carries next a d := by
  obtain ⟨short, h, payload, same, known, current⟩ := carries
  constructor
  · exact short
  · refine ⟨h, payload, same, by rwa [seq], ?_⟩
    simpa only [seq, rttTs, base] using current

/-- A new call outdates every datagram in flight. -/
theorem begin_carries (static : Static) (a next : Attempt) (tv : Timeval) (d : Datagram)
    (room : static.sendhdr.seq.toNat + 1 < 2 ^ 32) (carries : Carries static a d) :
    Carries (begin static tv) next d := by
  obtain ⟨short, h, payload, same, known, _⟩ := carries
  have number : (begin static tv).sendhdr.seq.toNat = static.sendhdr.seq.toNat + 1 := by
    have one : (1 : UInt32).toNat = 1 := rfl
    simp only [begin, UInt32.toNat_add, one]
    omega
  constructor
  · exact short
  · refine ⟨h, payload, same, by omega, ?_⟩
    intro current
    rw [current, number] at known
    omega

theorem stamp_carries (static : Static) (a : Attempt) (tv : Timeval) (d : Datagram)
    (carries : Carries static a d) : Carries (stamp static tv) (a.after (.send tv)) d := by
  obtain ⟨short, h, payload, same, known, current⟩ := carries
  constructor
  · exact short
  · refine ⟨h, payload, same, known, ?_⟩
    intro number
    obtain ⟨kept, earlier, member, stamped⟩ := current number
    exact ⟨kept, earlier, by simp [Attempt.after, member], stamped⟩

theorem sent_carries (static : Static) (a : Attempt) (tv : Timeval)
    (fits : sizeofHdr + a.payload.length ≤ maxline) :
    Carries (stamp static tv) (a.after (.send tv))
      ((stamp static tv).sendhdr.bytes ++ a.payload) := by
  constructor
  · rw [List.length_append, hdr_bytes_length]
    exact fits
  · refine ⟨(stamp static tv).sendhdr, a.payload, rfl, Nat.le_refl _, ?_⟩
    intro _
    exact ⟨rfl, tv, by simp [Attempt.after], rfl⟩

theorem echo_carries (static : Static) (a : Attempt) (d : Datagram)
    (carries : Carries static a d) : Carries static a (dgEcho d) := by
  rw [dgEcho, List.take_of_length_le carries.short]
  exact carries

theorem scatter_answers (a : Attempt) (s : State) (d : Datagram)
    (carries : Carries s.static a d) (room : a.payload.length ≤ s.args.inbytes)
    (same : wordAt (scatter s d).static.recvhdr 0 = s.static.sendhdr.seq) :
    Answers (scatter s d).static (scatter s d).args a := by
  obtain ⟨_, h, payload, rfl, _, current⟩ := carries
  have header : (h.bytes ++ payload).take (sizeofHdr + s.args.inbytes) =
      h.bytes ++ payload.take s.args.inbytes := by
    rw [← hdr_bytes_length h, List.take_append, List.take_of_length_le (by omega),
      Nat.add_sub_cancel_left]
  have first : (h.bytes ++ payload.take s.args.inbytes).take sizeofHdr = h.bytes := by
    rw [← hdr_bytes_length h, List.take_left]
  have others : (h.bytes ++ payload.take s.args.inbytes).drop sizeofHdr =
      payload.take s.args.inbytes := by
    rw [← hdr_bytes_length h, List.drop_left]
  simp only [scatter, header, first] at same
  rw [word_at_seq] at same
  obtain ⟨rfl, tv, member, stamped⟩ := current same
  rw [List.take_of_length_le room] at header first others
  constructor <;> simp only [scatter, header, first, others]
  · rw [List.length_append, hdr_bytes_length]
  · rw [List.take_left]
  · exact ⟨tv, member, by rw [word_at_ts, stamped]⟩

theorem Matched.network {a : Attempt} {s : State} (matched : Matched a s)
    {peer socket : Multiset Datagram} (toPeer : ∀ d ∈ peer, Carries s.static a d)
    (toSocket : ∀ d ∈ socket, Carries s.static a d) :
    Matched a { s with toPeer := peer, toSocket := socket } :=
  ⟨toPeer, toSocket, matched.args, matched.tested, matched.stopped⟩

theorem call_matched (a : Attempt) (s : State) (outbuff inbuff : List UInt8) (inbytes : Nat)
    (tv : Timeval) (fits : sizeofHdr + outbuff.length ≤ maxline ∧ outbuff.length ≤ inbytes)
    (room : s.static.sendhdr.seq.toNat + 1 < 2 ^ 32) (matched : Matched a s) :
    Matched ⟨outbuff, []⟩
      { s with
        static := begin s.static tv
        place := .sendagain
        args := ⟨outbuff, inbytes, inbuff, 0⟩ } := by
  constructor
  · intro d member
    exact begin_carries s.static a _ tv d room (matched.toPeer d member)
  · intro d member
    exact begin_carries s.static a _ tv d room (matched.toSocket d member)
  · intro _
    exact ⟨rfl, fits⟩
  · simp
  · simp

theorem send_matched (a : Attempt) (s : State) (tv : Timeval) (here : s.place = .sendagain)
    (matched : Matched a s) :
    Matched (a.after (.send tv))
      { s with
        static := stamp s.static tv
        place := .recvmsg
        toPeer := ((stamp s.static tv).sendhdr.bytes ++ s.args.outbuff) ::ₘ s.toPeer } := by
  have given := matched.args (by simp [here])
  constructor
  · intro d member
    rcases Multiset.mem_cons.mp member with rfl | old
    · rw [given.1]
      exact sent_carries s.static a tv given.2.1
    · exact stamp_carries s.static a tv d (matched.toPeer d old)
  · intro d member
    exact stamp_carries s.static a tv d (matched.toSocket d member)
  · intro _
    exact given
  · simp
  · simp

theorem recvmsg_matched (a : Attempt) (s : State) (d : Datagram) (rest : Multiset Datagram)
    (here : s.place = .recvmsg) (received : Datagrams.receive s.toSocket d = some rest)
    (matched : Matched a s) : Matched a { scatter s d with toSocket := rest } := by
  obtain ⟨member, remains⟩ := Datagrams.receive_mem received
  have given := matched.args (by simp [here])
  constructor
  · intro d' member'
    exact (matched.toPeer d' member').moved rfl rfl
  · intro d' member'
    exact (matched.toSocket d' (remains d' member')).moved rfl rfl
  · intro _
    exact given
  · intro _ _ same
    exact scatter_answers a s d (matched.toSocket d member) given.2.2 same
  · simp [scatter]

theorem step_matched (a : Attempt) (e : Step) (stepped : machine.Stepped e) (fits : Fits e)
    (room : e.before.static.sendhdr.seq.toNat + e.action.calls < 2 ^ 32) (matched : Matched a e.before) :
    Matched (a.after e.action) e.after := by
  obtain ⟨s, action, event, after⟩ := e
  have ⟨toPeer, toSocket, args, tested, stopped⟩ := matched
  have effect : Effect s action after event := step_effect s after action event stepped
  simp only at *
  cases effect with
  | call outbuff inbytes inbuff tv here =>
      exact call_matched a s outbuff inbuff inbytes tv (fits outbuff inbytes inbuff tv rfl) room matched
  | send tv here => exact send_matched a s tv here matched
  | recvmsg d rest here received => exact recvmsg_matched a s d rest here received matched
  | again here =>
      constructor
      · exact toPeer
      · exact toSocket
      · intro _
        exact args (by simp [here])
      · simp
      · simp
  | accept here whole same =>
      constructor
      · exact toPeer
      · exact toSocket
      · intro _
        exact args (by simp [here])
      · simp
      · intro _
        exact tested here whole same
  | stop tv here => constructor <;> simp <;> assumption
  | retransmit here =>
      constructor
      · intro d member
        exact (toPeer d member).moved rfl rfl
      · intro d member
        exact (toSocket d member).moved rfl rfl
      · intro _
        exact args here
      · simp [State.retransmit]
      · simp [State.retransmit]
  | giveUp here =>
      constructor
      · intro d member
        exact (toPeer d member).moved rfl rfl
      · intro d member
        exact (toSocket d member).moved rfl rfl
      · simp [State.giveUp]
      · simp [State.giveUp]
      · simp [State.giveUp]
  | echo d rest received =>
      obtain ⟨member, remains⟩ := Datagrams.receive_mem received
      refine matched.network ?_ ?_
      · intro d' member'
        exact toPeer d' (remains d' member')
      · intro d' member'
        rcases Multiset.mem_cons.mp member' with rfl | old
        · exact echo_carries s.static a d (toPeer d member)
        · exact toSocket d' old
  | disturbToPeer fault rest disturbed =>
      have remains := Datagrams.disturb_mem disturbed
      exact matched.network (fun d member => toPeer d (remains d member)) toSocket
  | disturbToSocket fault rest disturbed =>
      have remains := Datagrams.disturb_mem disturbed
      exact matched.network toPeer fun d member => toSocket d (remains d member)

theorem start_matched : Matched ⟨[], []⟩ start := by
  constructor <;> simp [start]

theorem step_seq (e : Step) (stepped : machine.Stepped e)
    (room : e.before.static.sendhdr.seq.toNat + e.action.calls < 2 ^ 32) :
    e.after.static.sendhdr.seq.toNat = e.before.static.sendhdr.seq.toNat + e.action.calls := by
  obtain ⟨s, action, event, after⟩ := e
  have effect : Effect s action after event := step_effect s after action event stepped
  cases effect with
  | call outbuff inbytes inbuff tv here =>
      have one : (1 : UInt32).toNat = 1 := rfl
      simp only [begin, UInt32.toNat_add, one, Action.calls] at room ⊢
      omega
  | _ => rfl

structure Matching (trace : List Step) (s : State) : Prop where
  seq : s.static.sendhdr.seq.toNat = calls trace
  matched : Matched (attempt trace) s

theorem step_matching (trace : List Step) (e : Step) (stepped : machine.Stepped e)
    (fits : Fits e) (room : calls trace + e.action.calls < 2 ^ 32) (matching : Matching trace e.before) :
    Matching (trace ++ [e]) e.after := by
  obtain ⟨seq, matched⟩ := matching
  rw [← seq] at room
  constructor
  · rw [calls_snoc, step_seq e stepped room, seq]
  · rw [attempt_snoc]
    exact step_matched _ e stepped fits room matched

theorem run_matching (trace : List Step) (s : State) (run : machine.Run trace s)
    (fewer : calls trace < 2 ^ 32) (fits : ∀ e ∈ trace, Fits e) : Matching trace s := by
  -- what is short enough at the end was so all along
  have history := run.history (C := Fits)
    (I := fun trace s => calls trace < 2 ^ 32 → Matching trace s)
    (fun s first _ => by
      cases (first : s = start)
      exact ⟨rfl, start_matched⟩)
    (fun trace e stepped met earlier room => by
      rw [calls_snoc] at room
      exact step_matching trace e stepped met room (earlier (by omega))) fits
  exact history fewer

/-- What a call returns is the payload it was given, and what it hands to
rtt_stop is the time since one of its own transmissions. -/
def Answered (a : Attempt) (event : Event) : Prop :=
  ∀ n bytes ms now, event = .returned n bytes ms now →
    n = a.payload.length ∧ bytes = a.payload ∧ ∃ sent ∈ a.sent, ms = elapsed sent now

theorem step_answered (a : Attempt) (e : Step) (stepped : machine.Stepped e)
    (matched : Matched a e.before) : Answered a e.output := by
  obtain ⟨s, action, event, after⟩ := e
  have effect : Effect s action after event := step_effect s after action event stepped
  cases effect with
  | stop tv here =>
      intro n bytes ms now same
      cases same
      obtain ⟨size, answer, sent, member, stamped⟩ := matched.stopped here
      rw [size, Nat.add_sub_cancel_left]
      constructor
      · rfl
      constructor
      · exact answer
      · exact ⟨sent, member, by rw [stamped, rtt_ts_sub]⟩
  | _ =>
      intro n bytes ms now same
      cases same

/-- Every call that returns with a count returns the echo of its own payload,
whatever the network loses, duplicates, delays or reorders, and whatever calls
before it have given up. -/
theorem dg_send_recv_matches (trace : List Step) (s : State) (run : machine.Run trace s)
    (fewer : calls trace < 2 ^ 32) (fits : ∀ e ∈ trace, Fits e)
    (pre post : List Step) (e : Step) (split : trace = pre ++ e :: post) :
    Answered (attempt pre) e.output := by
  subst split
  obtain ⟨earlier, stepped⟩ := run.split
  have before : calls pre < 2 ^ 32 := by
    simp only [calls, List.map_append, List.sum_append] at fewer
    simp only [calls]
    omega
  have matching := run_matching pre e.before earlier before
    fun d member => fits d (List.mem_append_left _ member)
  exact step_answered _ e stepped matching.matched

def lateReply : List Action :=
  let first := (Hdr.mk 1 0).bytes ++ [104]
  let second := (Hdr.mk 1 3000).bytes ++ [104]
  [.call [104] 1 [0] ⟨7, 0⟩, .send ⟨7, 0⟩, .alarm, .send ⟨10, 0⟩, .echo second, .echo first,
    .disturbToSocket (.duplicate first), .recvmsg first, .test, .stop ⟨11, 5000⟩]

theorem late_reply_matched :
    ∃ (pre : List Step) (e : Step) (s : State), machine.Run (pre ++ [e]) s ∧
      e.output = .returned 1 [104] 4005 ⟨11, 5000⟩ ∧ Answered (attempt pre) e.output := by
  obtain ⟨trace, last, run, checked⟩ := Machine.run_of_check (M := machine) rfl lateReply
    (fun r => decide (calls r.1 = 1 ∧
      (r.1.map (·.action)) = lateReply ∧
      r.1.getLast?.map (·.output) = some (.returned 1 [104] 4005 ⟨11, 5000⟩)))
    (by decide +kernel)
  obtain ⟨once, replayed, ended⟩ := of_decide_eq_true checked
  have fits : ∀ e ∈ trace, Fits e := by
    intro e member outbuff inbytes inbuff tv called
    have listed : e.action ∈ lateReply := by
      rw [← replayed]
      exact List.mem_map_of_mem member
    simp only [called, lateReply, List.mem_cons, Action.call.injEq, reduceCtorEq, List.not_mem_nil,
      or_false] at listed
    obtain ⟨rfl, rfl, _⟩ := listed
    decide
  have fewer : calls trace < 2 ^ 32 := by
    rw [show calls trace = 1 from once]
    decide
  rcases List.eq_nil_or_concat trace with rfl | ⟨pre, e, rfl⟩
  · simp at ended
  · rw [List.concat_eq_append] at run fewer fits ended
    rw [List.getLast?_concat, Option.map_some, Option.some.injEq] at ended
    exact ⟨pre, e, last, run, ended,
      dg_send_recv_matches _ last run fewer fits pre [] e rfl⟩

end NetworkProgramming.DgSendRecv
