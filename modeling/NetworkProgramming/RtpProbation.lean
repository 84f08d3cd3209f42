import NetworkProgramming.RtpSeq

/-!
The probation of rtpseq.c. A stream is taken up when enough packets in a row have
come; stm_probation is how many of them are missing, and the last one that came is
in stm_hiseq. Numbers go on after 65535 with 0, and the comparison of the source is
between ints.
-/

namespace NetworkProgramming.RtpProbation

open RtpSeq

def consecutive (last : UInt16) : Nat → List UInt16
  | 0 => []
  | count + 1 => consecutive (last - 1) count ++ [last]

/-- The packet is the last of RTP_MINSEQUENTIAL in a row. -/
def Completes (heard : List UInt16) (seq : UInt16) : Prop :=
  consecutive seq RTP_MINSEQUENTIAL.toNat <:+ heard ++ [seq]

instance (heard : List UInt16) (seq : UInt16) : Decidable (Completes heard seq) :=
  inferInstanceAs (Decidable (_ <:+ _))

def heard (stm : Stream) : List UInt16 :=
  consecutive stm.stmHiseq (RTP_MINSEQUENTIAL - stm.stmProbation).toNat

def Recognises (heard : List UInt16) (stm : Stream) : List UInt16 → Prop
  | [] => True
  | seq :: rest =>
      let r := rtpupdateseq stm seq
      if Completes heard seq then r.2 = .OK ∧ r.1.stmProbation = 0
      else r.2 = .ERROR ∧ 0 < r.1.stmProbation ∧ Recognises (heard ++ [seq]) r.1 rest

def completing (heard : List UInt16) : List UInt16 → Option UInt16
  | [] => none
  | seq :: rest => if Completes heard seq then some seq else completing (heard ++ [seq]) rest

/-- More packets are asked for than RTP_MINSEQUENTIAL, and the first of them go on from
a number that was never received. -/
def Overasked (stm : Stream) (seqs : List UInt16) : Prop :=
  RTP_MINSEQUENTIAL < stm.stmProbation ∧ stm.stmHiseq.toNat + 2 < 65536 ∧
    [stm.stmHiseq + 1, stm.stmHiseq + 2] <+: seqs

theorem completes_iff (heard : List UInt16) (seq : UInt16) :
    Completes heard seq ↔ heard.getLast? = some (seq - 1) := by
  have two : consecutive seq RTP_MINSEQUENTIAL.toNat = [seq - 1] ++ [seq] := rfl
  rw [Completes, two, List.suffix_append_inj_of_length_eq rfl, and_iff_left rfl,
    List.getLast?_eq_some_iff]
  exact exists_congr fun before => eq_comm

/-- As an int, the next number is the next one but after 65535. -/
theorem next_iff (seq hiseq : UInt16) :
    seq.toNat = hiseq.toNat + 1 ↔ hiseq = seq - 1 ∧ seq ≠ 0 := by
  have here := seq.toNat_lt
  have there := hiseq.toNat_lt
  rw [← UInt16.toNat_inj, UInt16.toNat_sub, Ne, ← UInt16.toNat_inj]
  have one : (1 : UInt16).toNat = 1 := rfl
  have zero : (0 : UInt16).toNat = 0 := rfl
  omega

theorem update_gap (stm : Stream) (seq : UInt16) (probation : 0 < stm.stmProbation)
    (gap : seq.toNat ≠ stm.stmHiseq.toNat + 1) :
    rtpupdateseq stm seq = ({ stm with stmProbation := 1, stmHiseq := seq }, .ERROR) := by
  rw [rtpupdateseq]
  simp only [ne_eq, Int.ne_of_gt probation, not_false_eq_true, if_true, if_neg gap]
  rfl

theorem update_last (stm : Stream) (seq : UInt16) (one : stm.stmProbation = 1)
    (next : seq.toNat = stm.stmHiseq.toNat + 1) :
    (rtpupdateseq stm seq).2 = .OK ∧ (rtpupdateseq stm seq).1.stmProbation = 0 := by
  rw [rtpupdateseq]
  simp [one, next, rtpinitseq]

theorem update_more (stm : Stream) (seq : UInt16) (more : 1 < stm.stmProbation)
    (next : seq.toNat = stm.stmHiseq.toNat + 1) :
    rtpupdateseq stm seq =
      ({ stm with stmProbation := stm.stmProbation - 1, stmHiseq := seq }, .ERROR) := by
  have some_ : stm.stmProbation ≠ 0 := by omega
  have left : stm.stmProbation - 1 ≠ 0 := by omega
  rw [rtpupdateseq]
  simp only [ne_eq, some_, not_false_eq_true, if_true, if_pos next, if_neg left]

theorem recognises_one (seqs heard : List UInt16) (stm : Stream) (one : stm.stmProbation = 1)
    (last : heard.getLast? = some stm.stmHiseq) :
    Recognises heard stm seqs ↔ completing heard seqs ≠ some 0 := by
  induction seqs generalizing heard stm with
  | nil => simp [Recognises, completing]
  | cons seq rest ih =>
      have completes := completes_iff heard seq
      rw [last, Option.some.injEq] at completes
      rw [Recognises, completing]
      by_cases next : seq.toNat = stm.stmHiseq.toNat + 1
      · obtain ⟨before, nonzero⟩ := (next_iff seq stm.stmHiseq).mp next
        rw [if_pos (completes.mpr before), if_pos (completes.mpr before)]
        simp [update_last stm seq one next, nonzero]
      · rw [update_gap stm seq (by omega) next]
        by_cases wraps : stm.stmHiseq = seq - 1
        · obtain rfl : seq = 0 := by
            by_contra nonzero
            exact next ((next_iff seq stm.stmHiseq).mpr ⟨wraps, nonzero⟩)
          rw [if_pos (completes.mpr wraps), if_pos (completes.mpr wraps)]
          simp
        · have gap : ¬ Completes heard seq := fun done => wraps (completes.mp done)
          rw [if_neg gap, if_neg gap]
          have later := ih (heard ++ [seq]) { stm with stmProbation := 1, stmHiseq := seq } rfl
            (by simp)
          simpa using later

theorem recognises_gap (seq : UInt16) (seqs heard : List UInt16) (stm : Stream)
    (probation : 0 < stm.stmProbation) (gap : seq.toNat ≠ stm.stmHiseq.toNat + 1)
    (other : ¬ Completes heard seq) :
    Recognises heard stm (seq :: seqs) ↔ completing heard (seq :: seqs) ≠ some 0 := by
  have later := recognises_one seqs (heard ++ [seq]) { stm with stmProbation := 1, stmHiseq := seq }
    rfl (by simp)
  rw [Recognises, completing, update_gap stm seq probation gap, if_neg other, if_neg other]
  simpa using later

/-- Two packets in a row where more are asked for. -/
theorem recognises_overasked (seq : UInt16) (seqs heard : List UInt16) (stm : Stream)
    (more : 1 < stm.stmProbation) (last : heard.getLast? = some stm.stmHiseq) :
    Recognises heard stm (seq :: seqs) ↔
      completing heard (seq :: seqs) ≠ some 0 ∧ seq.toNat ≠ stm.stmHiseq.toNat + 1 := by
  have completes := completes_iff heard seq
  rw [last, Option.some.injEq] at completes
  by_cases next : seq.toNat = stm.stmHiseq.toNat + 1
  · have before := ((next_iff seq stm.stmHiseq).mp next).1
    rw [Recognises, update_more stm seq more next, if_pos (completes.mpr before)]
    simp [next]
  · rw [and_iff_left next]
    by_cases wraps : stm.stmHiseq = seq - 1
    · obtain rfl : seq = 0 := by
        by_contra nonzero
        exact next ((next_iff seq stm.stmHiseq).mpr ⟨wraps, nonzero⟩)
      rw [Recognises, completing, update_gap stm 0 (by omega) next, if_pos (completes.mpr wraps),
        if_pos (completes.mpr wraps)]
      simp
    · exact recognises_gap seq seqs heard stm (by omega) next fun done => wraps (completes.mp done)

theorem overasked_cons (stm : Stream) (seq : UInt16) (seqs : List UInt16) :
    Overasked stm (seq :: seqs) ↔ RTP_MINSEQUENTIAL < stm.stmProbation ∧
      seq.toNat = stm.stmHiseq.toNat + 1 ∧
      ∃ second rest, seqs = second :: rest ∧ second.toNat = seq.toNat + 1 := by
  have there := stm.stmHiseq.toNat_lt
  have one : (stm.stmHiseq + 1).toNat = (stm.stmHiseq.toNat + 1) % 65536 := UInt16.toNat_add _ _
  have two : (stm.stmHiseq + 2).toNat = (stm.stmHiseq.toNat + 2) % 65536 := UInt16.toNat_add _ _
  rw [Overasked]
  refine and_congr_right fun _ => ?_
  constructor
  · rintro ⟨room, rest, whole⟩
    obtain ⟨rfl, rfl⟩ := List.cons.inj whole
    exact ⟨by omega, _, rest, rfl, by omega⟩
  · rintro ⟨first, second, rest, rfl, next⟩
    have small := second.toNat_lt
    refine ⟨by omega, rest, ?_⟩
    have head : stm.stmHiseq + 1 = seq := UInt16.toNat_inj.mp (by omega)
    have tail : stm.stmHiseq + 2 = second := UInt16.toNat_inj.mp (by omega)
    rw [head, tail]
    rfl

theorem recognises_fresh (stm : Stream) (more : 1 < stm.stmProbation) (seqs : List UInt16) :
    Recognises [] stm seqs ↔ completing [] seqs ≠ some 0 ∧ ¬ Overasked stm seqs := by
  cases seqs with
  | nil => simp [Recognises, completing, Overasked]
  | cons seq rest =>
      have single : ¬ Completes [] seq := by simp [completes_iff]
      rw [overasked_cons]
      by_cases next : seq.toNat = stm.stmHiseq.toNat + 1
      · -- the row goes on from the number that is there, as if that had been received
        have here : Recognises [] stm (seq :: rest) ↔ Recognises [seq]
            { stm with stmProbation := stm.stmProbation - 1, stmHiseq := seq } rest := by
          rw [Recognises, update_more stm seq more next, if_neg single]
          simp [more]
        rw [here, completing, if_neg single, List.nil_append]
        by_cases two : stm.stmProbation = 2
        · have usual : ¬ RTP_MINSEQUENTIAL < stm.stmProbation := by
            rw [two]
            decide
          rw [recognises_one rest [seq] _ (by simp [two]) rfl]
          simp [usual]
        · have asked : RTP_MINSEQUENTIAL < stm.stmProbation := by
            rw [RTP_MINSEQUENTIAL]
            omega
          cases rest with
          | nil => simp [Recognises, completing]
          | cons second rest =>
              rw [recognises_overasked second rest [seq] _ (by simp only; omega) rfl]
              simp [asked, next]
      · rw [recognises_gap seq rest [] stm (by omega) next single]
        simp [next]

theorem probation_iff (stm : Stream) (probation : 0 < stm.stmProbation) (seqs : List UInt16) :
    Recognises (heard stm) stm seqs ↔
      completing (heard stm) seqs ≠ some 0 ∧ ¬ Overasked stm seqs := by
  by_cases one : stm.stmProbation = 1
  · have last : heard stm = [stm.stmHiseq] := by
      rw [heard, one]
      rfl
    have usual : ¬ Overasked stm seqs := by
      rintro ⟨more, -⟩
      rw [one] at more
      exact absurd more (by decide)
    rw [and_iff_left usual, last]
    exact recognises_one seqs _ stm one rfl
  · have none_ : heard stm = [] := by
      have left : (RTP_MINSEQUENTIAL - stm.stmProbation).toNat = 0 := by
        rw [RTP_MINSEQUENTIAL]
        omega
      rw [heard, left, consecutive]
    rw [none_]
    exact recognises_fresh stm (by omega) seqs

theorem gap_recognised : Recognises (heard rtpinit) rtpinit [65000, 65002, 65003] := by
  apply (probation_iff rtpinit (by decide) [65000, 65002, 65003]).mpr
  refine ⟨by decide, ?_⟩
  rintro ⟨asked, -⟩
  exact absurd asked (by decide)

/-- The 0 that completes a row after 65535 is taken for the first of the next row. -/
theorem rollover_missed :
    Completes (heard rtpinit ++ [65535]) 0 ∧
    (rtpupdateseq (rtpupdateseq rtpinit 65535).1 0).2 = .ERROR ∧
    ¬ Recognises (heard rtpinit) rtpinit [65535, 0] := by
  refine ⟨by decide, by decide, ?_⟩
  have single : ¬ Completes [] 65535 := by decide
  have completes : Completes [65535] 0 := by decide
  have error : (rtpupdateseq (rtpupdateseq rtpinit 65535).1 0).2 ≠ .OK := by decide
  change ¬ Recognises [] rtpinit [65535, 0]
  rw [Recognises, if_neg single]
  rintro ⟨-, -, later⟩
  rw [Recognises, List.nil_append, if_pos completes] at later
  exact error later.1

end NetworkProgramming.RtpProbation
