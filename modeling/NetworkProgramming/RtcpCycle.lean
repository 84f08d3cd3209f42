import NetworkProgramming.NetworkOrder
import NetworkProgramming.RtpReceived

/-!
The receiver reports of rtcpcycle.c, between the packets that rtpupdate counts. An int
wraps around. Of a report block the counts of packets are kept, and not the times.
-/

namespace NetworkProgramming.RtcpCycle

open NetworkOrder RtpSeq RtpReceived

def RTP_INACTTHRESH : Int := 5

structure Receiver where
  stm : Stream
  stmInactive : Int
  running : Bool
  deriving DecidableEq

/-- The division of C. -/
def quot (a b : Int) : Option Int := if b = 0 then none else some (int (a.tdiv b))

def hton24 (v : UInt32) : UInt32 :=
  (v &&& (0xff : UInt32)) <<< (16 : UInt32) ||| v &&& (0xff00 : UInt32) |||
    (v &&& (0xff0000 : UInt32)) >>> (16 : UInt32)

/-- The local variables, and the fields of the block. -/
structure Report where
  exthiseq : Int
  cumexp : Int
  cycexp : Int
  cyclost : Int
  /-- What is stored in rb_fraclost, `none` if the division traps. -/
  fraction : Option Int
  rbFraclost : Option UInt8
  rbCumlost : UInt32
  rbHiseq : List UInt8
  deriving DecidableEq

def report (stm : Stream) : Report :=
  let cumexp := int (exthiseq stm - stm.stmFirstseq.toNat + 1)
  let cycexp := int (cumexp - stm.stmExpprior)
  let cyclost := max (int (cycexp - int (stm.stmPackets - stm.stmRecprior))) 0
  let fraction := if cycexp = 0 then some 0 else quot (int (cyclost * 2 ^ 8)) cycexp
  let cumlost := max (min (int (cumexp - stm.stmPackets)) 0x7fffff) (-2 ^ 23)
  { exthiseq := exthiseq stm
    cumexp := cumexp
    cycexp := cycexp
    cyclost := cyclost
    fraction := fraction
    rbFraclost := fraction.map UInt8.ofInt
    rbCumlost := hton24 (UInt32.ofInt cumlost)
    rbHiseq := htonl (UInt32.ofInt (exthiseq stm)) }

inductive Action where
  | packet (seq : UInt16)
  /-- rtcprecv takes a sender report. -/
  | heard
  | cycle

inductive Output where
  | updated (status : Status)
  | heard
  | skipped
  | bye
  | reported (r : Report)
  deriving DecidableEq

def rtcpcycle (s : Receiver) : Receiver × Output :=
  if s.stm.stmPackets = s.stm.stmRecprior then
    let s := { s with stmInactive := s.stmInactive + 1 }
    if s.stmInactive = RTP_INACTTHRESH then ({ s with running := false }, .bye) else (s, .skipped)
  else
    let r := report s.stm
    let stm := { s.stm with stmExpprior := r.cumexp, stmRecprior := s.stm.stmPackets }
    ({ s with stm := stm }, .reported r)

def receive (s : Receiver) (seq : UInt16) : Receiver × Output :=
  let r := rtpupdate s.stm seq
  let inactive := if r.2 = .ERROR then s.stmInactive else 0
  ({ s with stm := r.1, stmInactive := inactive }, .updated r.2)

def machine : Machine Receiver Action Output where
  start s := s = ⟨rtpinit, 0, true⟩
  step s action :=
    if s.running then
      match action with
      | .packet seq => some (receive s seq)
      | .heard => some ({ s with stmInactive := 0 }, .heard)
      | .cycle => some (rtcpcycle s)
    else none

abbrev Step := Transition Receiver Action Output

/-! What the counts of a run should be. -/

def Initialises (stm : Stream) (seq : UInt16) : Prop :=
  if stm.stmProbation ≠ 0 then seq.toNat = stm.stmHiseq.toNat + 1 ∧ stm.stmProbation = 1
  else RTP_MAXDROPOUT ≤ (seq - stm.stmHiseq).toNat ∧
    (seq - stm.stmHiseq).toNat ≤ RTP_SEQMOD - RTP_MAXMISORDER ∧ (seq.toNat : Int) = stm.stmBadseq

instance (stm : Stream) (seq : UInt16) : Decidable (Initialises stm seq) :=
  inferInstanceAs (Decidable (ite _ _ _))

def Restarted (e : Step) : Prop :=
  match e.action with
  | .packet seq => Initialises e.before.stm seq
  | _ => False

instance : ∀ e : Step, Decidable (Restarted e)
  | ⟨s, .packet seq, _, _⟩ => inferInstanceAs (Decidable (Initialises s.stm seq))
  | ⟨_, .heard, _, _⟩ => isFalse id
  | ⟨_, .cycle, _, _⟩ => isFalse id

/-- The packets accepted since the last report, or the last initialisation. -/
def received (trace : List Step) : Nat :=
  trace.foldl (fun count e =>
    match e.output with
    | .reported _ => 0
    | .updated .OK => if Restarted e then 1 else count + 1
    | _ => count) 0

def expected (trace : List Step) : Int :=
  trace.foldl (fun sum e =>
    match e.output with
    | .reported r => sum + r.cycexp
    | _ => if Restarted e then 0 else sum) 0

def extended (stm : Stream) : Int := stm.stmRoll * 2 ^ 16 + stm.stmHiseq.toNat

def due (stm : Stream) : Int := extended stm - stm.stmFirstseq.toNat + 1

/-- Few roll-overs, and few packets that a report is the first to expect. -/
structure Bounded (pre : List Step) (e : Step) : Prop where
  rolls : e.before.stm.stmRoll < 2 ^ 15
  cycle : ∀ r, e.output = .reported r → due e.before.stm - expected pre < 2 ^ 23

structure Sound (pre : List Step) (e : Step) (r : Report) : Prop where
  positive : 0 ≤ r.cycexp
  /-- No division by zero, and nothing cut off in the 8 bits. -/
  fraction : ∃ q, r.fraction = some q ∧ q = 256 * r.cyclost / r.cycexp ∧ 0 ≤ q ∧ q < 256 ∧
    ∃ stored, r.rbFraclost = some stored ∧ (stored.toNat : Int) = q
  total : expected pre + r.cycexp = exthiseq e.before.stm - e.before.stm.stmFirstseq.toNat + 1

/-! Arithmetic of ints. -/

theorem int_of_range (n : Int) (low : -2 ^ 31 ≤ n) (high : n < 2 ^ 31) : int n = n := by
  rw [int]
  omega

theorem int_range (n : Int) : -2 ^ 31 ≤ int n ∧ int n < 2 ^ 31 := by
  rw [int]
  omega

theorem int_int (n : Int) : int (int n) = int n :=
  int_of_range _ (int_range n).1 (int_range n).2

theorem int_int_add (a b : Int) : int (int a + b) = int (a + b) := by
  simp only [int]
  omega

theorem int_added_sub (a b : Int) : int (int (a + b) - a) = int b := by
  simp only [int]
  omega

theorem fraction_fits (cycexp cyclost : Int) (positive : 0 ≤ cycexp) (few : cycexp < 2 ^ 23)
    (lost : 0 ≤ cyclost) (less : cycexp ≠ 0 → cyclost < cycexp) :
    ∃ q, (if cycexp = 0 then some 0 else quot (int (cyclost * 2 ^ 8)) cycexp) = some q ∧
      q = 256 * cyclost / cycexp ∧ 0 ≤ q ∧ q < 256 := by
  by_cases zero : cycexp = 0
  · exact ⟨0, if_pos zero, by rw [zero, Int.ediv_zero], Int.le_refl 0, by decide⟩
  · have below := less zero
    have shifted : int (cyclost * 2 ^ 8) = 256 * cyclost := by
      rw [int]
      omega
    have nonneg : 0 ≤ 256 * cyclost / cycexp := Int.ediv_nonneg (by omega) positive
    have small : 256 * cyclost / cycexp < 256 := Int.ediv_lt_of_lt_mul (by omega) (by omega)
    refine ⟨256 * cyclost / cycexp, ?_, rfl, nonneg, small⟩
    rw [if_neg zero, shifted, quot, if_neg zero, Int.tdiv_eq_ediv_of_nonneg (by omega),
      int_of_range _ (by omega) (by omega)]

theorem stored_to_nat (q : Int) (nonneg : 0 ≤ q) (small : q < 256) :
    ((UInt8.ofInt q).toNat : Int) = q := by
  rw [UInt8.ofInt, UInt8.toNat_ofNat']
  omega

/-! What a step can do. -/

inductive Took (stm : Stream) (seq : UInt16) : Prop where
  | initialised : Initialises stm seq →
      rtpupdate stm seq = ({ rtpinitseq stm seq with stmProbation := 0, stmPackets := 1 }, .OK) →
      Took stm seq
  | probing (left : Int) : ¬ Initialises stm seq → stm.stmProbation ≠ 0 →
      rtpupdate stm seq = ({ stm with stmProbation := left, stmHiseq := seq }, .ERROR) →
      Took stm seq
  | ordered : ¬ Initialises stm seq → stm.stmProbation = 0 →
      rtpupdate stm seq = ({ stm with
        stmRoll := if seq < stm.stmHiseq then stm.stmRoll + 1 else stm.stmRoll
        stmHiseq := seq
        stmPackets := int (stm.stmPackets + 1) }, .OK) →
      Took stm seq
  | stray : ¬ Initialises stm seq → stm.stmProbation = 0 →
      rtpupdate stm seq = ({ stm with stmPackets := int (stm.stmPackets + 1) }, .OK) → Took stm seq
  | misordered (bad : Int) : ¬ Initialises stm seq → stm.stmProbation = 0 →
      rtpupdate stm seq = ({ stm with stmBadseq := bad }, .ERROR) → Took stm seq

theorem took_probing (stm : Stream) (seq : UInt16) (probation : stm.stmProbation ≠ 0) :
    Took stm seq := by
  by_cases next : seq.toNat = stm.stmHiseq.toNat + 1
  · by_cases one : stm.stmProbation = 1
    · refine .initialised ?_ ?_
      · rw [Initialises, if_pos probation]
        exact ⟨next, one⟩
      · simp only [rtpupdate, rtpupdateseq, one, next, ne_eq, one_ne_zero, not_false_eq_true,
          if_true, sub_self, reduceCtorEq, if_false]
        rfl
    · have more : stm.stmProbation - 1 ≠ 0 := by omega
      refine .probing (stm.stmProbation - 1) ?_ probation ?_
      · rw [Initialises, if_pos probation]
        exact fun init => one init.2
      · simp only [rtpupdate, rtpupdateseq, probation, next, more, ne_eq, not_false_eq_true,
          if_true, if_false]
  · refine .probing (RTP_MINSEQUENTIAL - 1) ?_ probation ?_
    · rw [Initialises, if_pos probation]
      exact fun init => next init.1
    · simp only [rtpupdate, rtpupdateseq, probation, next, ne_eq, not_false_eq_true, if_true,
        if_false]

theorem took_done (stm : Stream) (seq : UInt16) (done : stm.stmProbation = 0) : Took stm seq := by
  have unprobed : ¬ stm.stmProbation ≠ 0 := not_not.mpr done
  by_cases near : (seq - stm.stmHiseq).toNat < RTP_MAXDROPOUT
  · refine .ordered ?_ done ?_
    · rw [Initialises, if_neg unprobed]
      exact fun init => absurd near (Nat.not_lt.mpr init.1)
    · rw [rtpupdate, update_in_order stm seq done near]
      simp only [reduceCtorEq, if_false]
  · by_cases window : (seq - stm.stmHiseq).toNat ≤ RTP_SEQMOD - RTP_MAXMISORDER
    · by_cases bad : (seq.toNat : Int) = stm.stmBadseq
      · refine .initialised ?_ ?_
        · rw [Initialises, if_neg unprobed]
          exact ⟨Nat.not_lt.mp near, window, bad⟩
        · simp only [rtpupdate, rtpupdateseq, done, near, window, bad, if_true, if_false,
            ne_eq, not_true, rtpinitseq]
          rfl
      · refine .stray ?_ done ?_
        · rw [Initialises, if_neg unprobed]
          exact fun init => bad init.2.2
        · simp only [rtpupdate, rtpupdateseq, unprobed, near, window, bad, if_true, if_false,
            reduceCtorEq]
    · refine .misordered ((seq.toNat + 1) % RTP_SEQMOD : Nat) ?_ done ?_
      · rw [Initialises, if_neg unprobed]
        exact fun init => window init.2.1
      · simp only [rtpupdate, rtpupdateseq, unprobed, near, window, if_true, if_false]

theorem took (stm : Stream) (seq : UInt16) : Took stm seq := by
  by_cases done : stm.stmProbation = 0
  · exact took_done stm seq done
  · exact took_probing stm seq done

theorem received_snoc (trace : List Step) (e : Step) :
    received (trace ++ [e]) =
      match e.output with
      | .reported _ => 0
      | .updated .OK => if Restarted e then 1 else received trace + 1
      | _ => received trace := by
  rw [received, List.foldl_append]
  rfl

theorem expected_snoc (trace : List Step) (e : Step) :
    expected (trace ++ [e]) =
      match e.output with
      | .reported r => expected trace + r.cycexp
      | _ => if Restarted e then 0 else expected trace := by
  rw [expected, List.foldl_append]
  rfl

/-! What a run keeps. -/

/-- The sum of what has been reported is not more than what is expected by now. -/
structure Ranged (stm : Stream) (sum : Int) : Prop where
  probing : stm.stmProbation ≠ 0 → stm.stmRoll = 0 ∧ stm.stmFirstseq = 0 ∧
    stm.stmPackets = stm.stmRecprior ∧ sum = 0
  roll : 0 ≤ stm.stmRoll
  first : (stm.stmFirstseq.toNat : Int) ≤ extended stm
  least : 0 ≤ sum
  most : sum ≤ extended stm - stm.stmFirstseq.toNat + 1

theorem ranged_update (stm : Stream) (seq : UInt16) (sum : Int) (ranged : Ranged stm sum) :
    Ranged (rtpupdate stm seq).1 (if Initialises stm seq then 0 else sum) := by
  obtain ⟨probing, roll, first, least, most⟩ := ranged
  cases took stm seq with
  | initialised init same =>
      rw [same, if_pos init]
      refine ⟨fun left => absurd rfl left, Int.le_refl 0, ?_, Int.le_refl 0, ?_⟩
      · simp [extended, rtpinitseq]
      · simp [extended, rtpinitseq]
  | probing left goes probation same =>
      rw [same, if_neg goes]
      obtain ⟨noRoll, zero, packets, none_⟩ := probing probation
      refine ⟨fun _ => ⟨noRoll, zero, packets, none_⟩, roll, ?_, least, ?_⟩
      · simp [extended, noRoll, zero]
      · simp only [extended, noRoll, zero, none_, UInt16.toNat_zero]
        omega
  | ordered goes done same =>
      rw [same, if_neg goes]
      -- a lower number in the window is one after a roll-over
      have grows : extended stm ≤
          extended { stm with
            stmRoll := if seq < stm.stmHiseq then stm.stmRoll + 1 else stm.stmRoll
            stmHiseq := seq
            stmPackets := int (stm.stmPackets + 1) } := by
        have here := stm.stmHiseq.toNat_lt
        simp only [extended, UInt16.lt_iff_toNat_lt]
        split <;> omega
      refine ⟨fun left => absurd done left, ?_, Int.le_trans first grows, least, ?_⟩
      · dsimp only
        split <;> omega
      · dsimp only
        omega
  | stray goes done same =>
      rw [same, if_neg goes]
      exact ⟨fun left => absurd done left, roll, first, least, most⟩
  | misordered bad goes done same =>
      rw [same, if_neg goes]
      exact ⟨fun left => absurd done left, roll, first, least, most⟩

structure Kept (trace : List Step) (s : Receiver) : Prop where
  ranged : Ranged s.stm (expected trace)
  packets : s.stm.stmPackets = int (s.stm.stmRecprior + received trace)
  recprior : int s.stm.stmRecprior = s.stm.stmRecprior
  expprior : s.stm.stmExpprior = int (expected trace)

/-- What is counted at a report, with fewer than 2^15 roll-overs. -/
theorem report_expected (stm : Stream) (sum : Int) (ranged : Ranged stm sum)
    (prior : stm.stmExpprior = int sum) (rolls : stm.stmRoll < 2 ^ 15)
    (few : due stm - sum < 2 ^ 23) :
    exthiseq stm = extended stm ∧ (report stm).cumexp = int (due stm) ∧
      (report stm).cycexp = due stm - sum := by
  obtain ⟨-, roll, first, least, most⟩ := ranged
  have turns : int (stm.stmRoll * 2 ^ 16) = stm.stmRoll * 2 ^ 16 := by
    apply int_of_range <;> omega
  have whole : exthiseq stm = extended stm := by
    rw [exthiseq, turns, extended]
  have cumexp : (report stm).cumexp = int (due stm) := by
    show int (exthiseq stm - stm.stmFirstseq.toNat + 1) = _
    rw [whole, due]
  refine ⟨whole, cumexp, ?_⟩
  -- both may be cut down at 2^31, and the difference is right
  show int ((report stm).cumexp - stm.stmExpprior) = _
  rw [cumexp, prior]
  simp only [int]
  rw [due] at *
  omega

theorem cycle_reports (s after : Receiver) (r : Report)
    (ran : rtcpcycle s = (after, .reported r)) :
    s.stm.stmPackets ≠ s.stm.stmRecprior ∧ r = report s.stm ∧
      after.stm = { s.stm with stmExpprior := r.cumexp, stmRecprior := s.stm.stmPackets } := by
  rw [rtcpcycle] at ran
  split at ran
  · dsimp only at ran
    split at ran <;> cases ran
  · rename_i other
    cases ran
    exact ⟨other, rfl, rfl⟩

theorem cycle_skips (s after : Receiver) (output : Output) (ran : rtcpcycle s = (after, output))
    (unreported : ∀ r, output ≠ .reported r) :
    after.stm = s.stm ∧ (output = .skipped ∨ output = .bye) := by
  rw [rtcpcycle] at ran
  split at ran
  · dsimp only at ran
    split at ran
    · cases ran
      exact ⟨rfl, Or.inr rfl⟩
    · cases ran
      exact ⟨rfl, Or.inl rfl⟩
  · cases ran
    exact absurd rfl (unreported _)

theorem kept_same (trace : List Step) (e : Step) (kept : Kept trace e.before)
    (same : e.after.stm = e.before.stm) (quiet : e.output = .skipped ∨ e.output = .bye ∨
      e.output = .heard) (unrestarted : ¬ Restarted e) : Kept (trace ++ [e]) e.after := by
  have count : received (trace ++ [e]) = received trace := by
    rw [received_snoc]
    rcases quiet with output | output | output <;> rw [output]
  have sum : expected (trace ++ [e]) = expected trace := by
    rw [expected_snoc, if_neg unrestarted]
    rcases quiet with output | output | output <;> rw [output]
  obtain ⟨ranged, packets, recprior, expprior⟩ := kept
  constructor
  · rwa [same, sum]
  · rwa [same, count]
  · rwa [same]
  · rwa [same, sum]

theorem update_counters (stm : Stream) (seq : UInt16) :
    (Initialises stm seq ∧ (rtpupdate stm seq).2 = .OK ∧ (rtpupdate stm seq).1.stmPackets = 1 ∧
        (rtpupdate stm seq).1.stmRecprior = 0 ∧ (rtpupdate stm seq).1.stmExpprior = 0) ∨
      (¬ Initialises stm seq ∧ (rtpupdate stm seq).1.stmRecprior = stm.stmRecprior ∧
        (rtpupdate stm seq).1.stmExpprior = stm.stmExpprior ∧
        ((rtpupdate stm seq).2 = .OK ∧
            (rtpupdate stm seq).1.stmPackets = int (stm.stmPackets + 1) ∨
          (rtpupdate stm seq).2 = .ERROR ∧ (rtpupdate stm seq).1.stmPackets = stm.stmPackets)) := by
  cases took stm seq with
  | initialised init same =>
      rw [same]
      exact Or.inl ⟨init, rfl, rfl, rfl, rfl⟩
  | probing _ goes _ same =>
      rw [same]
      exact Or.inr ⟨goes, rfl, rfl, Or.inr ⟨rfl, rfl⟩⟩
  | ordered goes _ same =>
      rw [same]
      exact Or.inr ⟨goes, rfl, rfl, Or.inl ⟨rfl, rfl⟩⟩
  | stray goes _ same =>
      rw [same]
      exact Or.inr ⟨goes, rfl, rfl, Or.inl ⟨rfl, rfl⟩⟩
  | misordered _ goes _ same =>
      rw [same]
      exact Or.inr ⟨goes, rfl, rfl, Or.inr ⟨rfl, rfl⟩⟩

theorem kept_packet (trace : List Step) (s : Receiver) (seq : UInt16) (kept : Kept trace s) :
    Kept (trace ++ [⟨s, .packet seq, (receive s seq).2, (receive s seq).1⟩])
      (receive s seq).1 := by
  obtain ⟨ranged, packets, recprior, expprior⟩ := kept
  have still := ranged_update s.stm seq (expected trace) ranged
  have sum : expected (trace ++ [⟨s, .packet seq, (receive s seq).2, (receive s seq).1⟩]) =
      if Initialises s.stm seq then 0 else expected trace :=
    expected_snoc trace ⟨s, .packet seq, (receive s seq).2, (receive s seq).1⟩
  have count : received (trace ++ [⟨s, .packet seq, (receive s seq).2, (receive s seq).1⟩]) =
      if (rtpupdate s.stm seq).2 = .OK then
        if Initialises s.stm seq then 1 else received trace + 1
      else received trace := by
    rw [received_snoc]
    show (match Output.updated (rtpupdate s.stm seq).2 with
      | .reported _ => 0
      | .updated .OK => if Initialises s.stm seq then 1 else received trace + 1
      | _ => received trace) = _
    cases (rtpupdate s.stm seq).2 <;> rfl
  rw [← sum] at still
  -- an initialisation sets all counters; another packet adds to some
  rcases update_counters s.stm seq with ⟨init, ok, one, none_, none'⟩ |
    ⟨goes, recprior', expprior', counted⟩
  · rw [if_pos init] at sum
    rw [if_pos ok, if_pos init] at count
    refine ⟨still, ?_, ?_, ?_⟩
    · show (rtpupdate s.stm seq).1.stmPackets = int ((rtpupdate s.stm seq).1.stmRecprior + _)
      rw [one, none_, count]
      rfl
    · show int (rtpupdate s.stm seq).1.stmRecprior = (rtpupdate s.stm seq).1.stmRecprior
      rw [none_]
      rfl
    · rw [sum]
      exact none'
  · rw [if_neg goes] at sum
    refine ⟨still, ?_, ?_, ?_⟩
    · -- what has come with this packet is counted in both
      show (rtpupdate s.stm seq).1.stmPackets = int ((rtpupdate s.stm seq).1.stmRecprior + _)
      rcases counted with ⟨ok, more⟩ | ⟨error, same⟩
      · rw [more, recprior', count, if_pos ok, if_neg goes, packets, int_int_add, Int.add_assoc]
        rfl
      · have other : (rtpupdate s.stm seq).2 ≠ .OK := by
          rw [error]
          decide
        rw [same, recprior', count, if_neg other, packets]
    · show int (rtpupdate s.stm seq).1.stmRecprior = (rtpupdate s.stm seq).1.stmRecprior
      rw [recprior', recprior]
    · rw [sum]
      exact expprior'.trans expprior

theorem kept_report (trace : List Step) (e : Step) (r : Report) (kept : Kept trace e.before)
    (bounded : Bounded trace e) (ran : rtcpcycle e.before = (e.after, e.output))
    (reported : e.output = .reported r) : Kept (trace ++ [e]) e.after := by
  rw [reported] at ran
  obtain ⟨other, rfl, after⟩ := cycle_reports e.before e.after r ran
  obtain ⟨ranged, packets, recprior, expprior⟩ := kept
  obtain ⟨-, cumexp, cycexp⟩ := report_expected e.before.stm _ ranged expprior bounded.rolls
    (bounded.cycle _ reported)
  have count : received (trace ++ [e]) = 0 := by
    rw [received_snoc, reported]
  have sum : expected (trace ++ [e]) = due e.before.stm := by
    rw [expected_snoc, reported]
    show expected trace + (report e.before.stm).cycexp = _
    rw [cycexp]
    omega
  obtain ⟨probing, roll, first, least, most⟩ := ranged
  rw [← due] at most
  constructor
  · rw [after, sum]
    exact ⟨fun left => absurd (probing left).2.2.1 other, roll, first, Int.le_trans least most,
      Int.le_refl _⟩
  · rw [after, count, packets]
    simp [int_int]
  · rw [after, packets]
    exact int_int _
  · rw [after, sum]
    exact cumexp

theorem kept_step (trace : List Step) (e : Step) (stepped : machine.Stepped e)
    (bounded : Bounded trace e) (kept : Kept trace e.before) : Kept (trace ++ [e]) e.after := by
  obtain ⟨s, action, output, after⟩ := e
  have ran : machine.step s action = some (after, output) := stepped
  dsimp only [machine] at ran
  split at ran
  · cases action with
    | packet seq =>
        cases Option.some.inj ran
        exact kept_packet trace s seq kept
    | heard =>
        cases Option.some.inj ran
        exact kept_same trace _ kept rfl (Or.inr (Or.inr rfl)) id
    | cycle =>
        have turned : rtcpcycle s = (after, output) := Option.some.inj ran
        by_cases reported : ∃ r, output = .reported r
        · obtain ⟨r, same⟩ := reported
          exact kept_report trace _ r kept bounded turned same
        · have skips := cycle_skips s after output turned (not_exists.mp reported)
          exact kept_same trace _ kept skips.1 (skips.2.imp_right Or.inl) id
  · cases ran

theorem kept_run {trace : List Step} {s : Receiver} (run : machine.Run trace s)
    (bounded : ∀ pre e post, trace = pre ++ e :: post → Bounded pre e) : Kept trace s := by
  refine run.along (I := Kept) (C := Bounded) ?_ kept_step bounded
  rintro s rfl
  exact ⟨⟨fun _ => ⟨rfl, rfl, rfl, rfl⟩, Int.le_refl 0, Int.le_refl 0, Int.le_refl 0, by decide⟩,
    rfl, rfl, rfl⟩

theorem report_sound (trace : List Step) (e : Step) (r : Report) (kept : Kept trace e.before)
    (bounded : Bounded trace e) (ran : rtcpcycle e.before = (e.after, .reported r))
    (reported : e.output = .reported r) (few : received trace < 2 ^ 31) :
    Sound trace e r ∧ r.cyclost = max (r.cycexp - received trace) 0 := by
  obtain ⟨other, rfl, -⟩ := cycle_reports e.before e.after r ran
  obtain ⟨ranged, packets, recprior, expprior⟩ := kept
  have small := bounded.cycle _ reported
  obtain ⟨whole, -, cycexp⟩ := report_expected e.before.stm _ ranged expprior bounded.rolls small
  have most := ranged.most
  rw [← due] at most
  have positive : 0 ≤ (report e.before.stm).cycexp := by
    rw [cycexp]
    omega
  -- the packets of this cycle, at least one
  have come : int (e.before.stm.stmPackets - e.before.stm.stmRecprior) = received trace := by
    rw [packets, int_added_sub]
    apply int_of_range <;> omega
  have some_ : received trace ≠ 0 := by
    intro zero
    rw [packets, zero, Nat.cast_zero, Int.add_zero] at other
    exact other recprior
  have lost : (report e.before.stm).cyclost =
      max ((report e.before.stm).cycexp - received trace) 0 := by
    show max (int ((report e.before.stm).cycexp - int (e.before.stm.stmPackets - _))) 0 = _
    rw [come, int_of_range _ (by omega) (by omega)]
  obtain ⟨q, stored, exact_, nonneg, below⟩ := fraction_fits (report e.before.stm).cycexp
    (report e.before.stm).cyclost positive (by omega) (by omega) (by omega)
  have fraction : (report e.before.stm).fraction = some q := stored
  refine ⟨⟨positive, ⟨q, fraction, exact_, nonneg, below, UInt8.ofInt q, ?_, ?_⟩, ?_⟩, lost⟩
  · show (report e.before.stm).fraction.map UInt8.ofInt = _
    rw [fraction]
    rfl
  · exact stored_to_nat q nonneg below
  · rw [cycexp, whole, due]
    omega

/-- With fewer than 2^31 packets in each cycle, every report of every run is sound. -/
theorem reports_sound {trace : List Step} {s : Receiver} (run : machine.Run trace s)
    (bounded : ∀ pre e post, trace = pre ++ e :: post → Bounded pre e)
    (few : ∀ pre e post r, trace = pre ++ e :: post → e.output = .reported r →
      received pre < 2 ^ 31) :
    ∀ pre e post r, trace = pre ++ e :: post → e.output = .reported r →
      Sound pre e r ∧ r.cyclost = max (r.cycexp - received pre) 0 := by
  intro pre e post r whole reported
  have here := bounded pre e post whole
  have count := few pre e post r whole reported
  subst whole
  obtain ⟨before, stepped⟩ := run.split
  have kept := kept_run before fun first d rest cut =>
    bounded first d (rest ++ e :: post) (by simp [cut])
  obtain ⟨s, action, output, after⟩ := e
  dsimp only at reported
  subst reported
  have ran : machine.step s action = some (after, .reported r) := stepped
  dsimp only [machine] at ran
  split at ran
  · cases action with
    | packet seq => cases Option.some.inj ran
    | heard => cases Option.some.inj ran
    | cycle => exact report_sound pre _ r kept here (Option.some.inj ran) rfl count
  · cases ran

theorem gap_reported : ∃ trace s, machine.Run trace s ∧
    (trace.filterMap fun e => match e.output with
      | .reported r => some (r.cycexp, r.cyclost, r.rbFraclost)
      | _ => none) = [(5, 2, some 102), (0, 0, some 0)] ∧
    ∀ pre e post r, trace = pre ++ e :: post → e.output = .reported r →
      Sound pre e r ∧ r.cyclost = max (r.cycexp - received pre) 0 := by
  obtain ⟨trace, s, run, found⟩ := Machine.run_of_check (M := machine) rfl
    [.cycle, .packet 10, .packet 11, .packet 12, .packet 15, .cycle, .cycle, .packet 15, .packet 15,
      .heard, .cycle]
    (fun r => decide ((r.1.filterMap fun e => match e.output with
        | .reported r => some (r.cycexp, r.cyclost, r.rbFraclost)
        | _ => none) = [(5, 2, some 102), (0, 0, some 0)]) &&
      decide (∀ i : Fin r.1.length, (r.1.get i).before.stm.stmRoll < 2 ^ 15 ∧
        due (r.1.get i).before.stm - expected (r.1.take i) < 2 ^ 23 ∧
        received (r.1.take i) < 2 ^ 31))
    (by decide +kernel)
  simp only [Bool.and_eq_true, decide_eq_true_eq] at found
  have each (pre : List Step) (e : Step) (post : List Step) (whole : trace = pre ++ e :: post) :
      e.before.stm.stmRoll < 2 ^ 15 ∧ due e.before.stm - expected pre < 2 ^ 23 ∧
        received pre < 2 ^ 31 := by
    subst whole
    simpa using found.2 ⟨pre.length, by simp⟩
  refine ⟨trace, s, run, found.1, reports_sound run ?_ ?_⟩
  · intro pre e post whole
    obtain ⟨rolls, cycle, -⟩ := each pre e post whole
    exact ⟨rolls, fun _ _ => cycle⟩
  · exact fun pre e post _ whole _ => (each pre e post whole).2.2

def copies (count : Nat) : Receiver :=
  ⟨{ rtpinit with
      stmProbation := 0
      stmFirstseq := 11
      stmHiseq := 11
      stmPackets := int (1 + count) }, 0, true⟩

theorem copies_next (count : Nat) :
    machine.step (copies count) (.packet 11) = some (copies (count + 1), .updated .OK) := by
  have hiseq : (copies count).stm.stmHiseq = 11 := rfl
  have near : (11 - (copies count).stm.stmHiseq).toNat < RTP_MAXDROPOUT := by
    rw [hiseq]
    decide
  have same : rtpupdate (copies count).stm 11 = ((copies (count + 1)).stm, .OK) := by
    rw [rtpupdate, update_in_order _ 11 rfl near]
    simp [copies, int_int_add, Int.add_assoc]
  show some (receive (copies count) 11) = _
  rw [receive, same]
  simp [copies]

theorem first_copy : ∃ trace, machine.Run trace (copies 0) ∧ expected trace = 0 ∧
    ∀ e ∈ trace, e.before.stm.stmRoll = 0 ∧
      e.output ∈ [Output.updated .ERROR, Output.updated .OK] := by
  obtain ⟨trace, last, run, found⟩ := Machine.run_of_check (M := machine) rfl
    [.packet 10, .packet 11]
    (fun r => decide (r.2 = copies 0 ∧ expected r.1 = 0 ∧ ∀ e ∈ r.1,
      e.before.stm.stmRoll = 0 ∧ e.output ∈ [Output.updated .ERROR, Output.updated .OK]))
    (by decide +kernel)
  obtain ⟨same, sum, quiet⟩ := of_decide_eq_true found
  exact ⟨trace, same ▸ run, sum, quiet⟩

theorem duplicates_counted (count : Nat) :
    ∃ trace, machine.Run trace (copies count) ∧ expected trace = 0 ∧
      ∀ pre e post, trace = pre ++ e :: post → Bounded pre e := by
  induction count with
  | zero =>
      obtain ⟨trace, run, sum, quiet⟩ := first_copy
      refine ⟨trace, run, sum, ?_⟩
      intro pre e post whole
      obtain ⟨roll, output⟩ := quiet e (by simp [whole])
      refine ⟨by rw [roll]; decide, fun r reported => ?_⟩
      rw [reported] at output
      simp at output
  | succ count ih =>
      obtain ⟨trace, run, sum, bounded⟩ := ih
      refine ⟨_, run.goes_on (copies_next count), ?_, ?_⟩
      · rw [expected_snoc]
        simp [sum]
      · intro pre e post whole
        rcases Machine.split_snoc whole.symm with ⟨-, rfl, rfl⟩ | ⟨init, -, same⟩
        · exact ⟨show (0 : Int) < 2 ^ 15 by decide, fun r reported => by cases reported⟩
        · exact bounded pre e init same.symm

/-- Of 2^32 - 1 copies of a packet the int counts -1. -/
theorem duplicates_unsound :
    ¬ ∀ (trace : List Step) (s : Receiver), machine.Run trace s →
      (∀ pre e post, trace = pre ++ e :: post → Bounded pre e) →
      ∀ pre e post r, trace = pre ++ e :: post → e.output = .reported r → Sound pre e r := by
  intro claim
  obtain ⟨trace, run, sum, bounded⟩ := duplicates_counted (2 ^ 32 - 2)
  have turned : rtcpcycle (copies (2 ^ 32 - 2)) =
      ((rtcpcycle (copies (2 ^ 32 - 2))).1, .reported (report (copies (2 ^ 32 - 2)).stm)) := by
    decide +kernel
  have went : machine.step (copies (2 ^ 32 - 2)) .cycle = _ := congrArg some turned
  have sound := claim _ _ (run.goes_on went) ?_ trace _ [] _ rfl rfl
  · obtain ⟨q, -, exact_, -, below, -⟩ := sound.fraction
    have large : 256 * (report (copies (2 ^ 32 - 2)).stm).cyclost /
        (report (copies (2 ^ 32 - 2)).stm).cycexp = 512 := by
      decide +kernel
    rw [large] at exact_
    omega
  · intro pre e post whole
    rcases Machine.split_snoc whole.symm with ⟨-, rfl, rfl⟩ | ⟨init, -, same⟩
    · refine ⟨show (0 : Int) < 2 ^ 15 by decide, fun _ _ => ?_⟩
      rw [sum]
      decide +kernel
    · exact bounded pre e init same.symm

end NetworkProgramming.RtcpCycle
