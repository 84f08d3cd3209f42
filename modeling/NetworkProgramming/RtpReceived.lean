import NetworkProgramming.RtpQueue
import NetworkProgramming.RtpSeq

/-!
What rtprecv does with the packets of its stream: rtpupdate counts them, and those it
accepts go into the playback queue under an extended number. The times that rtpupdate
keeps for the jitter are left out.
-/

namespace NetworkProgramming.RtpReceived

open RtpSeq

def rtpupdate (stm : Stream) (seq : UInt16) : Stream × Status :=
  let r := rtpupdateseq stm seq
  if r.2 = .ERROR then r else ({ r.1 with stmPackets := int (r.1.stmPackets + 1) }, .OK)

/-- ((stm_roll) << 16) | rtp_seq -/
def rlnSeq (stm : Stream) (seq : UInt16) : UInt32 :=
  UInt32.ofInt stm.stmRoll <<< 16 ||| seq.toUInt32

/-- The rln_seq of each packet, `none` for one that is freed. -/
def rtprecv (stm : Stream) : List UInt16 → List (Option UInt32)
  | [] => []
  | seq :: rest =>
      let r := rtpupdate stm seq
      (if r.2 = .ERROR then none else some (rlnSeq r.1 seq)) :: rtprecv r.1 rest

/-! Packets in order. Their true indices are not bounded, and what is sent of one is
its low 16 bits. -/

/-- The index, counted from the last multiple of 2^16 before the first one. -/
def number (first e : Nat) : UInt32 := UInt32.ofNat (e - (first - first % RTP_SEQMOD))

/-- Less than RTP_MAXDROPOUT ahead of the one before, which may have come twice. -/
def Follows (e next : Nat) : Prop := e ≤ next ∧ next < e + RTP_MAXDROPOUT

structure At (first e : Nat) (stm : Stream) : Prop where
  done : stm.stmProbation = 0
  hiseq : stm.stmHiseq = UInt16.ofNat e
  roll : stm.stmRoll = ((e / RTP_SEQMOD - first / RTP_SEQMOD : Nat) : Int)
  later : first ≤ e

theorem at_init (stm : Stream) (done : stm.stmProbation = 0) (first : Nat) :
    At first first (rtpinitseq stm (UInt16.ofNat first)) := by
  refine ⟨done, rfl, ?_, Nat.le_refl first⟩
  rw [Nat.sub_self]
  rfl

theorem at_next (first e next : Nat) (stm : Stream) (before : At first e stm)
    (follows : Follows e next) :
    (rtpupdate stm (UInt16.ofNat next)).2 = .OK ∧
      At first next (rtpupdate stm (UInt16.ofNat next)).1 := by
  obtain ⟨done, hiseq, roll, later⟩ := before
  obtain ⟨ahead, near⟩ := follows
  have low (n : Nat) : (UInt16.ofNat n).toNat = n % 65536 := UInt16.toNat_ofNat'
  have window : (UInt16.ofNat next - stm.stmHiseq).toNat < RTP_MAXDROPOUT := by
    rw [ahead_eq, hiseq, low, low]
    rw [RTP_MAXDROPOUT] at near ⊢
    omega
  rw [RTP_MAXDROPOUT] at near
  rw [RTP_SEQMOD] at roll
  rw [rtpupdate, update_in_order stm _ done window]
  refine ⟨rfl, done, rfl, ?_, Nat.le_trans later ahead⟩
  simp only [reduceCtorEq, if_false, RTP_SEQMOD, roll, UInt16.lt_iff_toNat_lt, hiseq, low]
  split <;> omega

theorem number_to_nat (first e : Nat) (later : first ≤ e) (near : e < first + 2 ^ 31) :
    (number first e).toNat = e - (first - first % RTP_SEQMOD) := by
  rw [number, UInt32.toNat_ofNat', RTP_SEQMOD]
  omega

theorem rln_seq_number (first e : Nat) (stm : Stream) (here : At first e stm) :
    rlnSeq stm (UInt16.ofNat e) = number first e := by
  obtain ⟨-, -, roll, later⟩ := here
  rw [RTP_SEQMOD] at roll
  have turns : (UInt32.ofInt stm.stmRoll).toNat = (e / 65536 - first / 65536) % 2 ^ 32 := by
    rw [roll, UInt32.ofInt, UInt32.toNat_ofNat']
    omega
  have high : (UInt32.ofInt stm.stmRoll <<< 16).toNat =
      ((e / 65536 - first / 65536) % 65536) <<< 16 := by
    rw [UInt32.toNat_shiftLeft, turns, show (16 : UInt32).toNat % 32 = 16 from rfl,
      Nat.shiftLeft_eq, Nat.shiftLeft_eq]
    omega
  have low : (UInt16.ofNat e).toUInt32.toNat = e % 65536 := by
    rw [UInt16.toNat_toUInt32, UInt16.toNat_ofNat']
  -- no bit is set in both halves
  rw [← UInt32.toNat_inj, rlnSeq, UInt32.toNat_or, high, low,
    ← Nat.shiftLeft_add_eq_or_of_lt (Nat.mod_lt e (by decide)), Nat.shiftLeft_eq, number,
    UInt32.toNat_ofNat', RTP_SEQMOD]
  omega

theorem rtprecv_in_order (first e : Nat) (later : List Nat) (stm : Stream) (here : At first e stm)
    (chain : List.IsChain Follows (e :: later)) :
    rtprecv stm (later.map UInt16.ofNat) = later.map fun e => some (number first e) := by
  induction later generalizing e stm with
  | nil => rfl
  | cons next later ih =>
      obtain ⟨follows, rest⟩ := List.isChain_cons_cons.mp chain
      obtain ⟨accepted, there⟩ := at_next first e next stm here follows
      rw [List.map_cons, rtprecv, List.map_cons, ih next _ there rest]
      simp [accepted, rln_seq_number first next _ there]

theorem number_le_iff (first e f : Nat) (later : first ≤ e) (near : e < first + 2 ^ 31)
    (later' : first ≤ f) (near' : f < first + 2 ^ 31) :
    number first e ≤ number first f ↔ e ≤ f := by
  rw [UInt32.le_iff_toNat_le, number_to_nat first e later near, number_to_nat first f later' near']
  omega

theorem chain_later (first : Nat) (later : List Nat)
    (chain : List.IsChain Follows (first :: later)) :
    ∀ e ∈ first :: later, first ≤ e := by
  have rising : List.IsChain (· ≤ ·) (first :: later) := chain.imp fun _ _ follows => follows.1
  have sorted := List.isChain_iff_pairwise.mp rising
  intro e member
  rcases List.mem_cons.mp member with rfl | behind
  · exact Nat.le_refl e
  · exact (List.pairwise_cons.mp sorted).1 e behind

/-- Whatever calls have made the queue, if its packets are of the run it is in their true
order from the head to the tail. -/
def QueuedInOrder (first : Nat) (indices : List Nat) : Prop :=
  ∀ (Node : Type) [DecidableEq Node] [Fintype Node] (trace : List (RtpQueue.Step Node))
    (s : RtpQueue.Queue Node), (RtpQueue.machine Node).Run trace s → RtpQueue.AllNew trace →
    ∃ cells, DoublyLinked.Walk s.rlnPrev s.stmQhead cells none ∧ ∀ index : Node → Nat,
      (∀ pln ∈ cells, index pln ∈ indices ∧ s.rlnSeq pln = number first (index pln)) →
      cells.Pairwise fun p q => index p ≤ index q

theorem queued_in_order (first : Nat) (indices : List Nat)
    (within : ∀ e ∈ indices, first ≤ e ∧ e < first + 2 ^ 31) : QueuedInOrder first indices := by
  intro Node _ _ trace s run allNew
  obtain ⟨cells, kept⟩ := RtpQueue.kept_run run allNew
  refine ⟨cells, kept.held.forward, fun index numbered => ?_⟩
  apply kept.ordered.imp_of_mem
  intro p q here there ordered
  obtain ⟨member, seq⟩ := numbered p here
  obtain ⟨member', seq'⟩ := numbered q there
  rw [RtpQueue.rank_le, seq, seq'] at ordered
  obtain ⟨later, near⟩ := within _ member
  obtain ⟨later', near'⟩ := within _ member'
  exact (number_le_iff first _ _ later near later' near').mp ordered

/-- Every packet is accepted, and its extended number is its true index, counted from the
multiple of 2^16 before the first one. -/
theorem in_order_extended (stm : Stream) (done : stm.stmProbation = 0) (first : Nat)
    (later : List Nat) (chain : List.IsChain Follows (first :: later))
    (near : ∀ e ∈ first :: later, e < first + 2 ^ 31) :
    rlnSeq (rtpinitseq stm (UInt16.ofNat first)) (UInt16.ofNat first) = number first first ∧
    rtprecv (rtpinitseq stm (UInt16.ofNat first)) (later.map UInt16.ofNat) =
      later.map (fun e => some (number first e)) ∧
    (∀ e ∈ first :: later, (number first e).toNat = e - (first - first % RTP_SEQMOD)) ∧
    QueuedInOrder first (first :: later) := by
  have begun := at_init stm done first
  have after := chain_later first later chain
  refine ⟨rln_seq_number first first _ begun, rtprecv_in_order first first later _ begun chain,
    fun e member => number_to_nat first e (after e member) (near e member), ?_⟩
  exact queued_in_order first _ fun e member => ⟨after e member, near e member⟩

theorem rollover_extended : rtprecv (rtpinitseq { rtpinit with stmProbation := 0 } 65000)
    [65400, 65400, 1] = [some 65400, some 65400, some 65537] := by
  have run := (in_order_extended { rtpinit with stmProbation := 0 } rfl 65000 [65400, 65400, 65537]
    (by simp [Follows, RTP_MAXDROPOUT]) (by decide)).2.1
  exact run

end NetworkProgramming.RtpReceived
