import Mathlib.Algebra.Order.Ring.Int
import NetworkProgramming.Machine

/-!
The sequence numbers of rtpseq.c, packet by packet from rtpinit on. A seq_t is
promoted to an int in the comparisons and cut to 16 bits where it is stored.
-/

namespace NetworkProgramming.RtpSeq

def RTP_MAXDROPOUT : Nat := 3000
def RTP_MAXMISORDER : Nat := 100
def RTP_SEQMOD : Nat := 65536
def RTP_MINSEQUENTIAL : Int := 2

/-- The fields of struct stream for sequence numbers. -/
structure Stream where
  stmPackets : Int
  stmProbation : Int
  stmFirstseq : UInt16
  stmHiseq : UInt16
  stmBadseq : Int
  stmRoll : Int
  stmRecprior : Int
  stmExpprior : Int
  deriving DecidableEq

inductive Status where
  | OK
  | ERROR
  deriving DecidableEq

def rtpinitseq (stm : Stream) (seq : UInt16) : Stream :=
  { stm with
    stmFirstseq := seq
    stmHiseq := seq
    stmRoll := 0
    stmPackets := 0
    stmRecprior := 0
    stmExpprior := 0 }

def rtpupdateseq (stm : Stream) (seq : UInt16) : Stream × Status :=
  let udelta := seq - stm.stmHiseq
  if stm.stmProbation ≠ 0 then
    if seq.toNat = stm.stmHiseq.toNat + 1 then
      let stm := { stm with stmProbation := stm.stmProbation - 1, stmHiseq := seq }
      if stm.stmProbation = 0 then (rtpinitseq stm seq, .OK) else (stm, .ERROR)
    else ({ stm with stmProbation := RTP_MINSEQUENTIAL - 1, stmHiseq := seq }, .ERROR)
  else if udelta.toNat < RTP_MAXDROPOUT then
    let roll := if seq < stm.stmHiseq then stm.stmRoll + 1 else stm.stmRoll
    ({ stm with stmRoll := roll, stmHiseq := seq }, .OK)
  else if udelta.toNat ≤ RTP_SEQMOD - RTP_MAXMISORDER then
    if (seq.toNat : Int) = stm.stmBadseq then (rtpinitseq stm seq, .OK) else (stm, .OK)
  else ({ stm with stmBadseq := ((seq.toNat + 1) % RTP_SEQMOD : Nat) }, .ERROR)

/-- A global variable, of which rtpinit sets stm_probation. -/
def rtpinit : Stream where
  stmPackets := 0
  stmProbation := RTP_MINSEQUENTIAL
  stmFirstseq := 0
  stmHiseq := 0
  stmBadseq := 0
  stmRoll := 0
  stmRecprior := 0
  stmExpprior := 0

def machine : Machine Stream UInt16 Status where
  start stm := stm = rtpinit
  step stm seq := some (rtpupdateseq stm seq)

abbrev Step := Transition Stream UInt16 Status

def int (n : Int) : Int := (n + 2 ^ 31) % 2 ^ 32 - 2 ^ 31

/-- (stm_roll << 16) | stm_hiseq, an int; no bit is set in both. -/
def exthiseq (stm : Stream) : Int := int (stm.stmRoll * 2 ^ 16) + stm.stmHiseq.toNat

/-! What is expected of a packet after probation. -/

def Outside (e : Step) : Prop :=
  e.before.stmProbation = 0 ∧ RTP_MAXDROPOUT ≤ (e.action - e.before.stmHiseq).toNat ∧
    RTP_MAXMISORDER ≤ (e.before.stmHiseq - e.action).toNat

instance (e : Step) : Decidable (Outside e) := inferInstanceAs (Decidable (_ ∧ _))

def lastOutside (trace : List Step) : Option UInt16 :=
  (trace.filter fun e => decide (Outside e)).getLast?.map Transition.action

/-- Two consecutive numbers outside the windows. -/
def Restarts (pre : List Step) (e : Step) : Prop :=
  Outside e ∧ lastOutside pre = some (e.action - 1)

structure Expected (pre : List Step) (e : Step) : Prop where
  misordered : (e.before.stmHiseq - e.action).toNat < RTP_MAXMISORDER →
    e.output = .OK ∧ e.after.stmHiseq = e.before.stmHiseq ∧
      e.after.stmRoll = e.before.stmRoll ∧ e.after.stmBadseq = e.before.stmBadseq
  restart : Restarts pre e → e.output = .OK ∧ e.after = rtpinitseq e.before e.action
  jump : Outside e → ¬ Restarts pre e →
    e.output = .ERROR ∧ e.after = { e.before with stmBadseq := ((e.action + 1).toNat : Int) }
  monotone : ¬ Restarts pre e → exthiseq e.before ≤ exthiseq e.after

/-- Less than RTP_MAXDROPOUT ahead, and not the 2^15-th roll-over, which makes the
shifted int negative. -/
def InOrder (e : Step) : Prop :=
  (e.action - e.before.stmHiseq).toNat < RTP_MAXDROPOUT ∧
    (e.action < e.before.stmHiseq → e.before.stmRoll < 32767)

instance (e : Step) : Decidable (InOrder e) := inferInstanceAs (Decidable (_ ∧ _))

/-! The windows. -/

theorem ahead_eq (seq hiseq : UInt16) :
    (seq - hiseq).toNat = (seq.toNat + 65536 - hiseq.toNat) % 65536 := by
  have small := hiseq.toNat_lt
  rw [UInt16.toNat_sub]
  omega

theorem ahead_behind (seq hiseq : UInt16) :
    (seq - hiseq).toNat = 0 ∧ (hiseq - seq).toNat = 0 ∧ seq = hiseq ∨
      (seq - hiseq).toNat + (hiseq - seq).toNat = 65536 := by
  have here := seq.toNat_lt
  have there := hiseq.toNat_lt
  rw [ahead_eq, ahead_eq]
  by_cases same : seq = hiseq
  · subst seq
    exact Or.inl ⟨by omega, by omega, rfl⟩
  · have other : seq.toNat ≠ hiseq.toNat := fun equal => same (UInt16.toNat_inj.mp equal)
    omega

theorem update_in_order (stm : Stream) (seq : UInt16) (done : stm.stmProbation = 0)
    (near : (seq - stm.stmHiseq).toNat < RTP_MAXDROPOUT) :
    rtpupdateseq stm seq = ({ stm with
      stmRoll := if seq < stm.stmHiseq then stm.stmRoll + 1 else stm.stmRoll
      stmHiseq := seq }, .OK) := by
  rw [rtpupdateseq]
  simp only [done, ne_eq, not_true, if_false, if_pos near]

/-- Outside the window, the branches for a misordered packet and for a jump are the wrong way round. -/
theorem update_outside (stm : Stream) (seq : UInt16) (done : stm.stmProbation = 0)
    (ahead : RTP_MAXDROPOUT ≤ (seq - stm.stmHiseq).toNat)
    (behind : RTP_MAXMISORDER ≤ (stm.stmHiseq - seq).toNat) :
    (rtpupdateseq stm seq).2 = .OK := by
  have far : ¬ (seq - stm.stmHiseq).toNat < RTP_MAXDROPOUT := Nat.not_lt.mpr ahead
  have window : (seq - stm.stmHiseq).toNat ≤ RTP_SEQMOD - RTP_MAXMISORDER := by
    rcases ahead_behind seq stm.stmHiseq with ⟨zero, -⟩ | sum
    · omega
    · rw [RTP_SEQMOD, RTP_MAXMISORDER] at *
      omega
  rw [rtpupdateseq]
  simp only [done, ne_eq, not_true, if_false, if_neg far, if_pos window]
  split <;> rfl

theorem update_misordered (stm : Stream) (seq : UInt16) (done : stm.stmProbation = 0)
    (ahead : RTP_MAXDROPOUT ≤ (seq - stm.stmHiseq).toNat)
    (behind : (stm.stmHiseq - seq).toNat < RTP_MAXMISORDER) :
    rtpupdateseq stm seq =
      ({ stm with stmBadseq := ((seq.toNat + 1) % RTP_SEQMOD : Nat) }, .ERROR) := by
  have far : ¬ (seq - stm.stmHiseq).toNat < RTP_MAXDROPOUT := Nat.not_lt.mpr ahead
  have window : ¬ (seq - stm.stmHiseq).toNat ≤ RTP_SEQMOD - RTP_MAXMISORDER := by
    rcases ahead_behind seq stm.stmHiseq with ⟨zero, -⟩ | sum
    · rw [RTP_MAXDROPOUT] at ahead
      omega
    · rw [RTP_SEQMOD, RTP_MAXMISORDER] at *
      omega
  rw [rtpupdateseq]
  simp only [done, ne_eq, not_true, if_false, if_neg far, if_neg window]

theorem expected_in_order (pre : List Step) (e : Step) (stepped : machine.Stepped e)
    (done : e.before.stmProbation = 0) (positive : 0 ≤ e.before.stmRoll) (near : InOrder e) :
    Expected pre e := by
  obtain ⟨stm, seq, status, after⟩ := e
  obtain ⟨near, few⟩ := near
  simp only at done positive near few
  have ran := Option.some.inj stepped
  rw [update_in_order stm seq done near] at ran
  cases ran
  have inside (pre : List Step) (after : Stream) : ¬ Outside ⟨stm, seq, .OK, after⟩ := by
    rintro ⟨-, far, -⟩
    exact absurd far (Nat.not_le.mpr near)
  constructor
  · -- in order and misordered at once is a duplicate of the last packet
    intro behind
    rcases ahead_behind seq stm.stmHiseq with ⟨-, -, rfl⟩ | sum
    · exact ⟨rfl, rfl, if_neg (UInt16.lt_irrefl _), rfl⟩
    · rw [RTP_MAXDROPOUT] at near
      simp only [RTP_MAXMISORDER] at behind
      omega
  · exact fun restarts => absurd restarts.1 (inside pre _)
  · exact fun outside => absurd outside (inside pre _)
  · intro _
    have here := seq.toNat_lt
    have there := stm.stmHiseq.toNat_lt
    simp only [exthiseq, int]
    by_cases wraps : seq < stm.stmHiseq
    · have bound := few wraps
      rw [if_pos wraps]
      omega
    · have above : stm.stmHiseq.toNat ≤ seq.toNat := by
        rw [UInt16.lt_iff_toNat_lt] at wraps
        omega
      rw [if_neg wraps]
      omega

theorem expected_iff (pre : List Step) (e : Step) (stepped : machine.Stepped e)
    (done : e.before.stmProbation = 0) (positive : 0 ≤ e.before.stmRoll)
    (few : e.before.stmRoll ≤ 32767) (first : lastOutside pre = none) :
    Expected pre e ↔ InOrder e := by
  refine ⟨fun expected => ?_, expected_in_order pre e stepped done positive⟩
  obtain ⟨stm, seq, status, after⟩ := e
  simp only at done positive few
  have ran := Option.some.inj stepped
  have single : ¬ Restarts pre ⟨stm, seq, status, after⟩ := by
    rintro ⟨-, last⟩
    rw [first] at last
    cases last
  by_cases near : (seq - stm.stmHiseq).toNat < RTP_MAXDROPOUT
  · refine ⟨near, fun wraps => ?_⟩
    have grows := expected.monotone single
    rw [update_in_order stm seq done near, if_pos wraps] at ran
    cases ran
    have here : seq.toNat < stm.stmHiseq.toNat := UInt16.lt_iff_toNat_lt.mp wraps
    have there := stm.stmHiseq.toNat_lt
    simp only [exthiseq, int] at grows
    by_contra last
    obtain same : stm.stmRoll = 32767 := by
      simp only at last
      omega
    rw [same] at grows
    omega
  · rw [Nat.not_lt] at near
    by_cases behind : (stm.stmHiseq - seq).toNat < RTP_MAXMISORDER
    · have accepted := (expected.misordered behind).1
      rw [update_misordered stm seq done near behind] at ran
      cases ran
      cases accepted
    · have rejected := (expected.jump ⟨done, near, Nat.not_lt.mp behind⟩ single).1
      have taken := update_outside stm seq done near (Nat.not_lt.mp behind)
      rw [ran] at taken
      simp only at taken rejected
      rw [taken] at rejected
      cases rejected

structure Ordinary (trace : List Step) (stm : Stream) : Prop where
  positive : 0 ≤ stm.stmRoll
  few : stm.stmRoll ≤ 32767
  first : lastOutside trace = none

theorem ordinary_step (pre : List Step) (e : Step) (stepped : machine.Stepped e)
    (near : e.before.stmProbation = 0 → InOrder e) (ordinary : Ordinary pre e.before) :
    Ordinary (pre ++ [e]) e.after := by
  have inside : ¬ Outside e := by
    rintro ⟨done, far, -⟩
    exact absurd far (Nat.not_le.mpr (near done).1)
  have first : lastOutside (pre ++ [e]) = none := by
    rw [lastOutside, Machine.last_filter_snoc, if_neg inside]
    exact ordinary.first
  obtain ⟨stm, seq, status, after⟩ := e
  have ran := Option.some.inj stepped
  have positive := ordinary.positive
  have few := ordinary.few
  by_cases done : stm.stmProbation = 0
  · obtain ⟨close, bound⟩ := near done
    rw [update_in_order stm seq done close] at ran
    cases ran
    by_cases wraps : seq < stm.stmHiseq
    · have last := bound wraps
      simp only at positive last
      exact ⟨by simp only [if_pos wraps]; omega, by simp only [if_pos wraps]; omega, first⟩
    · exact ⟨by simpa only [if_neg wraps] using positive, by simpa only [if_neg wraps] using few,
        first⟩
  · -- in probation the roll-overs stay as they are, or start at 0
    rw [rtpupdateseq] at ran
    simp only [ne_eq, done, not_false_eq_true, if_true] at ran
    split at ran
    · split at ran
      · cases ran
        exact ⟨Int.le_refl 0, show (0 : Int) ≤ 32767 by decide, first⟩
      · cases ran
        exact ⟨positive, few, first⟩
    · cases ran
      exact ⟨positive, few, first⟩

theorem ordinary_run {trace : List Step} {stm : Stream} (run : machine.Run trace stm)
    (near : ∀ e ∈ trace, e.before.stmProbation = 0 → InOrder e) : Ordinary trace stm := by
  refine run.along (I := Ordinary) (C := fun _ e => e.before.stmProbation = 0 → InOrder e)
    ?_ (fun pre e stepped close => ordinary_step pre e stepped close) ?_
  · rintro stm rfl
    exact ⟨Int.le_refl 0, by decide, rfl⟩
  · rintro pre e post rfl
    exact near e (by simp)

/-- In a run every packet after probation gets what is expected, if and only if all of
them are in order. -/
theorem expected_run_iff {trace : List Step} {stm : Stream} (run : machine.Run trace stm) :
    (∀ pre e post, trace = pre ++ e :: post → e.before.stmProbation = 0 → Expected pre e) ↔
      ∀ e ∈ trace, e.before.stmProbation = 0 → InOrder e := by
  constructor
  · intro expected
    -- the packets before it in order, a packet is in order as well
    induction run with
    | start _ => exact List.forall_mem_nil _
    | @next pre e run stepped ih =>
        have earlier := ih fun before d post whole =>
          expected before d (post ++ [e]) (by simp [whole])
        obtain ⟨positive, few, first⟩ := ordinary_run run earlier
        intro d member done
        rcases List.mem_append.mp member with before | last
        · exact earlier d before done
        · obtain rfl := List.mem_singleton.mp last
          exact (expected_iff pre d stepped done positive few first).mp
            (expected pre d [] rfl done)
  · rintro near pre e post rfl done
    obtain ⟨before, stepped⟩ := run.split
    obtain ⟨positive, few, first⟩ := ordinary_run before fun d member =>
      near d (List.mem_append_left _ member)
    exact (expected_iff pre e stepped done positive few first).mpr (near e (by simp) done)

theorem gap_and_rollover : ∃ trace stm, machine.Run trace stm ∧ exthiseq stm = 65537 ∧
    ∀ pre e post, trace = pre ++ e :: post → e.before.stmProbation = 0 → Expected pre e := by
  obtain ⟨trace, stm, run, check⟩ := Machine.run_of_check (M := machine) rfl
    [65000, 65001, 65400, 65400, 1]
    (fun r => decide (exthiseq r.2 = 65537 ∧
      ∀ e ∈ r.1, e.before.stmProbation = 0 → InOrder e)) (by decide +kernel)
  obtain ⟨last, near⟩ := of_decide_eq_true check
  exact ⟨trace, stm, run, last, (expected_run_iff run).mpr near⟩

theorem misordered_rejected : ∃ trace stm, machine.Run trace stm ∧
    trace.map Transition.output = [.ERROR, .OK, .OK, .ERROR, .OK] ∧
    trace.map Transition.action = [10, 11, 12, 11, 5012] ∧ stm.stmHiseq = 12 ∧
    ¬ ∀ pre e post, trace = pre ++ e :: post → e.before.stmProbation = 0 → Expected pre e := by
  obtain ⟨trace, stm, run, check⟩ := Machine.run_of_check (M := machine) rfl
    [10, 11, 12, 11, 5012]
    (fun r => decide (r.1.map Transition.output = [.ERROR, .OK, .OK, .ERROR, .OK] ∧
      r.1.map Transition.action = [10, 11, 12, 11, 5012] ∧ r.2.stmHiseq = 12 ∧
      ∃ e ∈ r.1, e.before.stmProbation = 0 ∧
        (e.before.stmHiseq - e.action).toNat < RTP_MAXMISORDER ∧ e.output = .ERROR))
    (by decide +kernel)
  obtain ⟨outputs, actions, hiseq, e, member, done, behind, rejected⟩ := of_decide_eq_true check
  refine ⟨trace, stm, run, outputs, actions, hiseq, fun expected => ?_⟩
  obtain ⟨pre, post, whole⟩ := List.append_of_mem member
  have accepted := ((expected pre e post whole done).misordered behind).1
  rw [rejected] at accepted
  cases accepted

end NetworkProgramming.RtpSeq
