import Mathlib.Algebra.Order.Ring.Int
import Mathlib.Tactic.Common

/-!
What playaudio.c does with the packet it has dequeued, by the media time `mnow`.
The macros of rtp.h substitute their arguments as text, without parentheses, so a
difference with a sum in it is not the difference of the sums.
-/

namespace NetworkProgramming.PlayAudio

def RTP_MINHDRLEN : Int := 12
def RTP_CURRVERS : Nat := 2
def RTP_BPBUFSZ : Int := 2048
def RTP_LEEWAY : UInt32 := 400

-- An int that is negative, compared as an unsigned int.
def RTP_TSWINDOW : UInt32 := 2147483648

/-- sizeof(struct rtpln), with the pointers of 64 bits. -/
def sizeofRtpln : Int := 40

structure Rtpln where
  rlnLen : Int
  rtpCc : Fin 16
  rtpVer : Fin 4
  rtpTime : UInt32
  deriving DecidableEq

/-- What recv can return, and rtprecv does not throw away. -/
structure Accepted (pln : Rtpln) : Prop where
  received : pln.rlnLen ≤ RTP_BPBUFSZ - sizeofRtpln
  header : RTP_MINHDRLEN ≤ pln.rlnLen
  version : (pln.rtpVer : Nat) = RTP_CURRVERS

instance (pln : Rtpln) : Decidable (Accepted pln) :=
  decidable_of_iff (pln.rlnLen ≤ RTP_BPBUFSZ - sizeofRtpln ∧ RTP_MINHDRLEN ≤ pln.rlnLen ∧
      (pln.rtpVer : Nat) = RTP_CURRVERS)
    ⟨fun ⟨received, header, version⟩ => ⟨received, header, version⟩,
      fun ⟨received, header, version⟩ => ⟨received, header, version⟩⟩

/-- The macro, with what becomes of `x-y` and of `y-x`. -/
def rtptsgt (x y xMinusY yMinusX : UInt32) : Bool :=
  if y < x then decide (xMinusY < RTP_TSWINDOW) else !decide (yMinusX < RTP_TSWINDOW)

def rtptsmax (x y : UInt32) : UInt32 := if rtptsgt x y (x - y) (y - x) then x else y

def rtphdrlen (pln : Rtpln) : Int := RTP_MINHDRLEN + pln.rtpCc * 4

def samples (pln : Rtpln) : Int := pln.rlnLen - rtphdrlen pln

/-- rtptsgt(mnow, prtp->rtp_time + samples - 1) -/
def late (pln : Rtpln) (mnow : UInt32) : Bool :=
  let samples := UInt32.ofInt (samples pln)
  rtptsgt mnow (pln.rtpTime + samples - 1) (mnow - pln.rtpTime + samples - 1)
    (pln.rtpTime + samples - 1 - mnow)

def readfrom (pln : Rtpln) (mnow : UInt32) : UInt32 := rtptsmax pln.rtpTime mnow

/-- rtptsgt(readfrom, mnow + RTP_LEEWAY) -/
def early (pln : Rtpln) (mnow : UInt32) : Bool :=
  rtptsgt (readfrom pln mnow) (mnow + RTP_LEEWAY) (readfrom pln mnow - mnow + RTP_LEEWAY)
    (mnow + RTP_LEEWAY - readfrom pln mnow)

def int (n : Int) : Int := (n + 2 ^ 31) % 2 ^ 32 - 2 ^ 31

def offset (pln : Rtpln) (mnow : UInt32) : Int :=
  int ((readfrom pln mnow - pln.rtpTime).toNat : Int)

inductive Decision where
  | free
  | postpone (delay : UInt32)
  /-- write of so many bytes, from this byte of the datagram on. -/
  | write (start count : Int)
  deriving DecidableEq

def playaudio (pln : Rtpln) (mnow : UInt32) : Decision :=
  if late pln mnow then .free
  else if early pln mnow then .postpone (readfrom pln mnow - mnow - RTP_LEEWAY)
  else .write (rtphdrlen pln + offset pln mnow) (samples pln - offset pln mnow)

def Inside (pln : Rtpln) : Decision → Prop
  | .write start count => 0 ≤ count ∧ 0 ≤ start ∧ start + count ≤ pln.rlnLen
  | .free | .postpone _ => True

/-! The tests in terms of how far the packet's time is behind the media time. -/

def behind (time now : Int) : Int := (now - time) % 2 ^ 32

def last (samples time : Int) : Int := (time + samples - 1) % 2 ^ 32

theorem add_value (a b : UInt32) : ((a + b).toNat : Int) = ((a.toNat : Int) + b.toNat) % 2 ^ 32 := by
  rw [UInt32.toNat_add]
  omega

theorem sub_value (a b : UInt32) : ((a - b).toNat : Int) = ((a.toNat : Int) - b.toNat) % 2 ^ 32 := by
  have small := b.toNat_lt
  rw [UInt32.toNat_sub]
  omega

theorem of_int_value (n : Int) : ((UInt32.ofInt n).toNat : Int) = n % 2 ^ 32 := by
  rw [UInt32.ofInt, UInt32.toNat_ofNat']
  omega

theorem rtptsgt_iff (x y xMinusY yMinusX : UInt32) :
    rtptsgt x y xMinusY yMinusX = true ↔
      ((y.toNat : Int) < x.toNat ∧ (xMinusY.toNat : Int) < 2 ^ 31) ∨
        ((x.toNat : Int) ≤ y.toNat ∧ 2 ^ 31 ≤ (yMinusX.toNat : Int)) := by
  have below (word : UInt32) : word < RTP_TSWINDOW ↔ (word.toNat : Int) < 2 ^ 31 := by
    have window : RTP_TSWINDOW.toNat = 2147483648 := rfl
    rw [UInt32.lt_iff_toNat_lt, window]
    omega
  rw [rtptsgt]
  by_cases greater : y < x
  · have more := UInt32.lt_iff_toNat_lt.mp greater
    rw [if_pos greater, decide_eq_true_eq, below]
    omega
  · have most := mt UInt32.lt_iff_toNat_lt.mpr greater
    rw [if_neg greater, Bool.not_eq_true', decide_eq_false_iff_not, below]
    omega

def Late (samples time now : Int) : Prop :=
  (last samples time < now ∧ (behind time now + samples - 1) % 2 ^ 32 < 2 ^ 31) ∨
    (now ≤ last samples time ∧ 2 ^ 31 ≤ (samples - 1 - behind time now) % 2 ^ 32)

theorem late_iff (pln : Rtpln) (mnow : UInt32) :
    late pln mnow = true ↔ Late (samples pln) pln.rtpTime.toNat mnow.toNat := by
  let time : Int := pln.rtpTime.toNat
  let now : Int := mnow.toNat
  have one : ((1 : UInt32).toNat : Int) = 1 := rfl
  have count := of_int_value (samples pln)
  rw [late, rtptsgt_iff]
  simp only [sub_value, add_value, count, one]
  have ends : ((time + samples pln % 2 ^ 32) % 2 ^ 32 - 1) % 2 ^ 32 = last (samples pln) time := by
    rw [last]
    omega
  have first : (((now - time) % 2 ^ 32 + samples pln % 2 ^ 32) % 2 ^ 32 - 1) % 2 ^ 32 =
      (behind time now + samples pln - 1) % 2 ^ 32 := by
    rw [behind]
    omega
  have second : (last (samples pln) time - now) % 2 ^ 32 =
      (samples pln - 1 - behind time now) % 2 ^ 32 := by
    rw [last, behind]
    omega
  rw [ends, first, second, Late]

def FromBeginning (time now : Int) : Prop :=
  2 ^ 31 < behind time now ∨ (behind time now = 2 ^ 31 ∧ time ≤ now)

theorem readfrom_eq (pln : Rtpln) (mnow : UInt32) :
    (FromBeginning pln.rtpTime.toNat mnow.toNat → readfrom pln mnow = pln.rtpTime) ∧
      (¬ FromBeginning pln.rtpTime.toNat mnow.toNat → readfrom pln mnow = mnow) := by
  have time := pln.rtpTime.toNat_lt
  have now := mnow.toNat_lt
  have same : rtptsgt pln.rtpTime mnow (pln.rtpTime - mnow) (mnow - pln.rtpTime) = true ↔
      FromBeginning pln.rtpTime.toNat mnow.toNat := by
    rw [rtptsgt_iff, sub_value, sub_value, FromBeginning, behind]
    omega
  constructor
  · intro first
    rw [readfrom, rtptsmax, if_pos (same.mpr first)]
  · intro second
    rw [readfrom, rtptsmax, if_neg (mt same.mp second)]

/-- A packet put back on the queue: 400 samples ahead, if nothing wraps around. -/
def PutBack (time now : Int) : Prop :=
  (FromBeginning time now ∧
      (((now + 400) % 2 ^ 32 < time ∧ 2 ^ 31 + 400 < behind time now) ∨
        (time ≤ (now + 400) % 2 ^ 32 ∧ behind time now < 2 ^ 32 - 400))) ∨
    (¬ FromBeginning time now ∧ 2 ^ 32 - 400 ≤ now)

theorem early_iff (pln : Rtpln) (mnow : UInt32) :
    early pln mnow = true ↔ PutBack pln.rtpTime.toNat mnow.toNat := by
  have time := pln.rtpTime.toNat_lt
  have now := mnow.toNat_lt
  have leeway : (RTP_LEEWAY.toNat : Int) = 400 := rfl
  obtain ⟨first, second⟩ := readfrom_eq pln mnow
  rw [early, rtptsgt_iff, PutBack]
  by_cases ahead : FromBeginning pln.rtpTime.toNat mnow.toNat
  · rw [first ahead]
    simp only [sub_value, add_value, leeway, ahead, true_and, not_true, false_and, or_false]
    rw [FromBeginning, behind] at ahead
    rw [behind]
    omega
  · rw [second ahead]
    simp only [sub_value, add_value, leeway, ahead, true_and, not_false_eq_true, false_and,
      false_or]
    omega

/-- A packet without a sample, by its CSRC count, that is thrown away as too late. -/
def Dropped (samples time now : Int) : Prop :=
  (last samples time < now ∧ 1 - samples ≤ behind time now ∧
      behind time now ≤ 2 ^ 31 - samples) ∨
    (now ≤ last samples time ∧
      (behind time now < 2 ^ 31 + samples ∨ 2 ^ 32 + samples ≤ behind time now))

theorem offset_eq (pln : Rtpln) (mnow : UInt32) :
    let time : Int := pln.rtpTime.toNat
    let now : Int := mnow.toNat
    (FromBeginning time now → offset pln mnow = 0) ∧
      (¬ FromBeginning time now →
        (behind time now < 2 ^ 31 ∧ offset pln mnow = behind time now) ∨
          (behind time now = 2 ^ 31 ∧ now < time ∧ offset pln mnow = -2 ^ 31)) := by
  intro time now
  obtain ⟨first, second⟩ := readfrom_eq pln mnow
  constructor
  · intro ahead
    rw [offset, int, first ahead, sub_value]
    omega
  · intro reached
    rw [offset, int, second reached, sub_value]
    rw [FromBeginning] at reached
    rw [behind] at reached ⊢
    omega

/-- The samples are at least none, and a packet that lies almost 2^31 behind the media
time does not slip through the test for the late; or it is not played at all. -/
def OnlyReceived (samples time now : Int) : Prop :=
  (0 ≤ samples ∧
      ¬ (2 ^ 31 - samples < behind time now ∧ behind time now < 2 ^ 31 ∧
        last samples time < now ∧ now < 2 ^ 32 - 400) ∧
      ¬ (behind time now = 2 ^ 31 ∧ now < time ∧ (samples = 0 ∨ 2 ^ 32 < time + samples))) ∨
    (samples < 0 ∧ (Dropped samples time now ∨ PutBack time now))

theorem accepted_samples (pln : Rtpln) (accepted : Accepted pln) :
    -60 ≤ samples pln ∧ samples pln ≤ 1996 := by
  obtain ⟨received, header, version⟩ := accepted
  have count := pln.rtpCc.isLt
  rw [RTP_BPBUFSZ, sizeofRtpln] at received
  rw [RTP_MINHDRLEN] at header
  rw [samples, rtphdrlen, RTP_MINHDRLEN]
  omega

section Numbers
variable {samples time now : Int} (least : -60 ≤ samples) (most : samples ≤ 1996)
  (timeWord : 0 ≤ time ∧ time < 2 ^ 32) (nowWord : 0 ≤ now ∧ now < 2 ^ 32)

include least most timeWord nowWord

theorem late_allowed (late : Late samples time now) : OnlyReceived samples time now := by
  rw [OnlyReceived, Dropped]
  rw [Late] at late
  rw [last, behind] at *
  omega

omit least most in
theorem early_allowed (early : PutBack time now) : OnlyReceived samples time now := by
  rw [OnlyReceived]
  by_cases none : samples < 0
  · exact Or.inr ⟨none, Or.inr early⟩
  · refine Or.inl ⟨Int.not_lt.mp none, ?_, ?_⟩
    · rintro ⟨-, reached, -, before⟩
      rcases early with ⟨ahead, -⟩ | ⟨-, end_⟩
      · rw [FromBeginning] at ahead
        omega
      · omega
    · rintro ⟨half, greater, -⟩
      rcases early with ⟨ahead, -⟩ | ⟨-, end_⟩
      · rw [FromBeginning] at ahead
        omega
      · -- half the range before its time, the clock is not in its last 400
        rw [behind] at half
        omega

theorem played_allowed_iff (late : ¬ Late samples time now) (early : ¬ PutBack time now) :
    OnlyReceived samples time now ↔
      0 ≤ samples ∧ (FromBeginning time now ∨ behind time now ≤ samples) := by
  by_cases none : samples < 0
  · have kept : ¬ Dropped samples time now := by
      rw [Dropped]
      rw [Late] at late
      rw [last, behind] at *
      omega
    rw [OnlyReceived]
    simp only [kept, early, or_false, and_false]
    omega
  · rw [OnlyReceived]
    by_cases ahead : FromBeginning time now
    · have first : 2 ^ 31 < behind time now ∨ (behind time now = 2 ^ 31 ∧ time ≤ now) := ahead
      simp only [ahead, true_or, and_true]
      omega
    · have soon : now < 2 ^ 32 - 400 := by
        by_contra end_
        exact early (Or.inr ⟨ahead, Int.not_lt.mp end_⟩)
      rw [Late] at late
      rw [FromBeginning] at *
      rw [last, behind] at *
      omega

end Numbers

theorem played_inside_iff (pln : Rtpln) (mnow : UInt32) (accepted : Accepted pln) :
    Inside pln (playaudio pln mnow) ↔
      OnlyReceived (samples pln) pln.rtpTime.toNat mnow.toNat := by
  obtain ⟨least, most⟩ := accepted_samples pln accepted
  have timeWord : (0 : Int) ≤ pln.rtpTime.toNat ∧ (pln.rtpTime.toNat : Int) < 2 ^ 32 := by
    have small := pln.rtpTime.toNat_lt
    omega
  have nowWord : (0 : Int) ≤ mnow.toNat ∧ (mnow.toNat : Int) < 2 ^ 32 := by
    have small := mnow.toNat_lt
    omega
  have tooLate := late_iff pln mnow
  have tooEarly := early_iff pln mnow
  rw [playaudio]
  by_cases dropped : late pln mnow = true
  · rw [if_pos dropped]
    exact iff_of_true trivial (late_allowed least most timeWord nowWord (tooLate.mp dropped))
  · rw [if_neg dropped]
    by_cases postponed : early pln mnow = true
    · rw [if_pos postponed]
      exact iff_of_true trivial
        (early_allowed timeWord nowWord (tooEarly.mp postponed))
    · rw [if_neg postponed, played_allowed_iff least most timeWord nowWord
        (mt tooLate.mpr dropped) (mt tooEarly.mpr postponed)]
      -- neither late nor early: the offset decides
      have whole : rtphdrlen pln + samples pln = pln.rlnLen := by
        rw [samples]
        omega
      have head : 0 ≤ rtphdrlen pln ∧ rtphdrlen pln ≤ 72 := by
        have count := pln.rtpCc.isLt
        rw [rtphdrlen, RTP_MINHDRLEN]
        omega
      rw [Inside]
      obtain ⟨first, second⟩ := offset_eq pln mnow
      by_cases ahead : FromBeginning pln.rtpTime.toNat mnow.toNat
      · have none := first ahead
        simp only [ahead, true_or, and_true]
        omega
      · simp only [ahead, false_or]
        have nonneg : 0 ≤ behind pln.rtpTime.toNat mnow.toNat := by
          rw [behind]
          omega
        rcases second ahead with ⟨below, same⟩ | ⟨half, greater, same⟩ <;> omega

def counted : Rtpln :=
  { rlnLen := 112, rtpCc := ⟨0, by decide⟩, rtpVer := ⟨RTP_CURRVERS, by decide⟩, rtpTime := 1000 }

theorem counted_played :
    Accepted counted ∧ playaudio counted 1040 = .write 52 60 ∧
      (Inside counted (playaudio counted 1040) ↔ OnlyReceived 100 1000 1040) := by
  have accepted : Accepted counted := by decide
  exact ⟨accepted, by decide, played_inside_iff counted 1040 accepted⟩

-- The same packet almost 2^31 behind: mnow-rtp_time+samples-1 is past the window.
example : playaudio counted 2147484598 = .write 2147483610 (-2147483498) := by decide

def uncounted : Rtpln := { counted with rlnLen := 12, rtpCc := ⟨15, by decide⟩ }

theorem csrcs_not_received :
    Accepted uncounted ∧ playaudio uncounted 1000 = .write 72 (-60) ∧
      ¬ Inside uncounted (playaudio uncounted 1000) := by
  have played : playaudio uncounted 1000 = .write 72 (-60) := by decide
  refine ⟨by decide, played, ?_⟩
  rw [played]
  intro inside
  exact absurd inside.1 (by decide)

end NetworkProgramming.PlayAudio
