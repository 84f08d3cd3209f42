import NetworkProgramming.Machine
import Mathlib.Algebra.Order.Ring.Rat
import Mathlib.Algebra.Order.Floor.Ring
import Mathlib.Data.Rat.Floor
import Mathlib.Tactic.Linarith
import Mathlib.Tactic.Ring
import Mathlib.Tactic.NormNum

/-!
The retransmission timer of lib/rtt.c, with its floats as exact rationals. What
rtt_init and rtt_stop compute goes through rtt_minmax; rtt_timeout doubles the
value in place, and rtt_start returns whatever is there.
-/

namespace NetworkProgramming

theorem smoothed_nonneg {α : Type*} [Field α] [LinearOrder α] [IsStrictOrderedRing α]
    {mean sample gain : α} (mean_nonneg : 0 ≤ mean) (sample_nonneg : 0 ≤ sample)
    (positive : 1 ≤ gain) : 0 ≤ mean + (sample - mean) / gain := by
  have gain_pos : 0 < gain := lt_of_lt_of_le one_pos positive
  have split : mean + (sample - mean) / gain = (mean * (gain - 1) + sample) / gain := by
    field_simp
    ring
  rw [split]
  have weighted : 0 ≤ mean * (gain - 1) := mul_nonneg mean_nonneg (sub_nonneg.mpr positive)
  exact div_nonneg (add_nonneg weighted sample_nonneg) gain_pos.le

namespace Rtt

def rttRxtmin : ℚ := 2
def rttRxtmax : ℚ := 60
def rttMaxnrexmt : Int32 := 3

structure RttInfo where
  rttRtt : ℚ
  rttSrtt : ℚ
  rttRttvar : ℚ
  rttRto : ℚ
  rttNrexmt : Int32
  rttBase : UInt32
  deriving DecidableEq

def rttRtocalc (info : RttInfo) : ℚ := info.rttSrtt + 4 * info.rttRttvar

def rttMinmax (rto : ℚ) : ℚ :=
  if rto < rttRxtmin then rttRxtmin
  else if rto > rttRxtmax then rttRxtmax
  else rto

def rttInit (info : RttInfo) (tvSec : Nat) : RttInfo :=
  let reset := { info with
    rttBase := UInt32.ofNat tvSec, rttRtt := 0, rttSrtt := 0, rttRttvar := 3 / 4 }
  { reset with rttRto := rttMinmax (rttRtocalc reset) }

def rttTs (info : RttInfo) (tvSec tvUsec : Nat) : UInt32 :=
  UInt32.ofInt (((tvSec : Int) - info.rttBase.toNat) * 1000 + ((tvUsec / 1000 : Nat) : Int))

def rttNewpack (info : RttInfo) : RttInfo := { info with rttNrexmt := 0 }

/-- The conversion to int cuts off what follows the point. -/
def truncate (q : ℚ) : Int := if 0 ≤ q then ⌊q⌋ else ⌈q⌉

def rttStart (info : RttInfo) : Int := truncate (info.rttRto + 1 / 2)

def rttStop (info : RttInfo) (ms : UInt32) : RttInfo :=
  let measured := { info with rttRtt := (ms.toNat : ℚ) / 1000 }
  let delta := measured.rttRtt - measured.rttSrtt
  let delta' := if delta < 0 then -delta else delta
  let estimated := { measured with
    rttSrtt := measured.rttSrtt + delta / 8
    rttRttvar := measured.rttRttvar + (delta' - measured.rttRttvar) / 4 }
  { estimated with rttRto := rttMinmax (rttRtocalc estimated) }

def rttTimeout (info : RttInfo) : RttInfo × Int :=
  let next := { info with
    rttRto := info.rttRto * 2
    rttNrexmt := info.rttNrexmt + 1 }
  (next, if next.rttNrexmt > rttMaxnrexmt then -1 else 0)

inductive Call where
  | init (tvSec : Nat)
  | ts (tvSec tvUsec : Nat)
  | newpack
  | start
  | stop (ms : UInt32)
  | timeout
  deriving DecidableEq

inductive Answer where
  | done
  | stamp (ts : UInt32)
  | code (n : Int)
  deriving DecidableEq

def run (info : RttInfo) : Call → RttInfo × Answer
  | .init tvSec => (rttInit info tvSec, .done)
  | .ts tvSec tvUsec => (info, .stamp (rttTs info tvSec tvUsec))
  | .newpack => (rttNewpack info, .done)
  | .start => (info, .code (rttStart info))
  | .stop ms => (rttStop info ms, .done)
  | .timeout => ((rttTimeout info).1, .code (rttTimeout info).2)

def timer : Machine RttInfo Call Answer where
  start info := ∃ found tvSec, info = rttInit found tvSec
  step info call := some (run info call)

abbrev Step := Transition RttInfo Call Answer

theorem after_run {e : Step} (stepped : timer.Stepped e) :
    run e.before e.action = (e.after, e.output) := by
  simpa [Machine.Stepped, timer] using stepped

theorem rttMinmax_bounds (rto : ℚ) : rttRxtmin ≤ rttMinmax rto ∧ rttMinmax rto ≤ rttRxtmax := by
  have order : rttRxtmin ≤ rttRxtmax := by norm_num [rttRxtmin, rttRxtmax]
  unfold rttMinmax
  split
  · exact ⟨le_rfl, order⟩
  · rename_i low
    split
    · exact ⟨order, le_rfl⟩
    · rename_i high
      exact ⟨not_lt.mp low, not_lt.mp high⟩

theorem rttStart_bounds {info : RttInfo} (low : rttRxtmin ≤ info.rttRto)
    (high : info.rttRto ≤ rttRxtmax) :
    rttRxtmin ≤ rttStart info ∧ rttStart info ≤ rttRxtmax := by
  simp only [rttRxtmin, rttRxtmax] at low high ⊢
  have rounded : rttStart info = ⌊info.rttRto + 1 / 2⌋ := if_pos (by linarith)
  rw [rounded]
  constructor
  · have least : 2 ≤ ⌊info.rttRto + 1 / 2⌋ := by
      apply Int.le_floor.mpr
      push_cast
      linarith
    exact_mod_cast least
  · have greatest : ⌊info.rttRto + 1 / 2⌋ < 61 := by
      apply Int.floor_lt.mpr
      push_cast
      linarith
    exact_mod_cast Int.lt_add_one_iff.mp greatest

/-- What holds after every call: estimators that are not negative, and a timeout
that is never below the least one. -/
structure Sound (info : RttInfo) : Prop where
  srtt : 0 ≤ info.rttSrtt
  rttvar : 0 ≤ info.rttRttvar
  rto : rttRxtmin ≤ info.rttRto

theorem rttInit_sound (info : RttInfo) (tvSec : Nat) : Sound (rttInit info tvSec) :=
  ⟨le_rfl, by norm_num [rttInit], (rttMinmax_bounds _).1⟩

theorem rttStop_sound {info : RttInfo} (sound : Sound info) (ms : UInt32) :
    Sound (rttStop info ms) := by
  have measured : (0 : ℚ) ≤ (ms.toNat : ℚ) / 1000 := by positivity
  refine ⟨?_, ?_, (rttMinmax_bounds _).1⟩
  · exact smoothed_nonneg sound.srtt measured (by norm_num)
  · refine smoothed_nonneg sound.rttvar ?_ (by norm_num)
    dsimp only
    split
    · linarith
    · linarith

theorem rttTimeout_sound {info : RttInfo} (sound : Sound info) : Sound (rttTimeout info).1 := by
  refine ⟨sound.srtt, sound.rttvar, ?_⟩
  have positive := sound.rto
  simp only [rttRxtmin] at positive ⊢
  show 2 ≤ info.rttRto * 2
  linarith

theorem run_sound {info : RttInfo} (sound : Sound info) (call : Call) :
    Sound (run info call).1 := by
  cases call with
  | init tvSec => exact rttInit_sound info tvSec
  | ts tvSec tvUsec => exact sound
  | newpack => exact ⟨sound.srtt, sound.rttvar, sound.rto⟩
  | start => exact sound
  | stop ms => exact rttStop_sound sound ms
  | timeout => exact rttTimeout_sound sound

theorem run_states_sound {trace : List Step} {info : RttInfo} (reached : timer.Run trace info) :
    Sound info := by
  refine reached.invariant ?_ ?_
  · rintro _ ⟨found, tvSec, rfl⟩
    exact rttInit_sound found tvSec
  · intro e stepped sound
    have kept := run_sound sound e.action
    rwa [after_run stepped] at kept

def recomputes : Call → Bool
  | .init _ | .stop _ => true
  | _ => false

/-- A timeout found more than half of the greatest value, and no call since then
has computed it anew. -/
def Overdoubled (trace : List Step) : Prop :=
  ∃ before e after, trace = before ++ e :: after ∧ e.action = .timeout ∧
    rttRxtmax / 2 < e.before.rttRto ∧ ∀ d ∈ after, recomputes d.action = false

theorem recomputed_rto (info : RttInfo) {call : Call} (anew : recomputes call = true) :
    (run info call).1.rttRto ≤ rttRxtmax := by
  cases call with
  | init tvSec => exact (rttMinmax_bounds _).2
  | stop ms => exact (rttMinmax_bounds _).2
  | ts _ _ | newpack | start | timeout => cases anew

theorem kept_rto (info : RttInfo) {call : Call} (same : recomputes call = false)
    (other : call ≠ .timeout) : (run info call).1.rttRto = info.rttRto := by
  cases call with
  | init _ | stop _ => cases same
  | ts _ _ | newpack | start => rfl
  | timeout => exact absurd rfl other

theorem Overdoubled.snoc {trace : List Step} (e : Step) :
    Overdoubled (trace ++ [e]) ↔ recomputes e.action = false ∧
      (Overdoubled trace ∨ e.action = .timeout ∧ rttRxtmax / 2 < e.before.rttRto) := by
  constructor
  · rintro ⟨before, d, after, whole, timeout, large, still⟩
    rcases Machine.split_snoc whole.symm with ⟨rfl, rfl, rfl⟩ | ⟨init, rfl, rfl⟩
    · exact ⟨by rw [timeout]; rfl, Or.inr ⟨timeout, large⟩⟩
    · exact ⟨still e (by simp), Or.inl ⟨before, d, init, rfl, timeout, large,
        fun c member => still c (List.mem_append_left _ member)⟩⟩
  · rintro ⟨same, ⟨before, d, after, rfl, timeout, large, still⟩ | ⟨timeout, large⟩⟩
    · refine ⟨before, d, after ++ [e], by simp, timeout, large, ?_⟩
      intro c member
      rcases List.mem_append.mp member with old | new
      · exact still c old
      · exact List.mem_singleton.mp new ▸ same
    · exact ⟨trace, e, [], rfl, timeout, large, by simp⟩

theorem above_iff_overdoubled {trace : List Step} {info : RttInfo}
    (reached : timer.Run trace info) : rttRxtmax < info.rttRto ↔ Overdoubled trace := by
  induction reached with
  | @start info first =>
      obtain ⟨found, tvSec, rfl⟩ := first
      have small : (rttInit found tvSec).rttRto ≤ rttRxtmax := (rttMinmax_bounds _).2
      constructor
      · exact fun large => absurd small (not_le.mpr large)
      · rintro ⟨before, e, after, whole, -⟩
        simp at whole
  | @next trace e earlier stepped ih =>
      have ran := after_run stepped
      have sound := run_states_sound earlier
      rw [Overdoubled.snoc, ← ih]
      cases anew : recomputes e.action with
      | true =>
          have small := recomputed_rto e.before anew
          rw [ran] at small
          simpa using small
      | false =>
          by_cases timeout : e.action = .timeout
          · have doubled : e.after.rttRto = e.before.rttRto * 2 := by
              rw [timeout] at ran
              exact congrArg (fun r => r.1.rttRto) ran.symm
            have low := sound.rto
            simp only [rttRxtmin, rttRxtmax] at low ⊢
            simp only [doubled, timeout, true_and]
            constructor
            · exact fun large => Or.inr (by linarith)
            · rintro (large | large) <;> linarith
          · have same : e.after.rttRto = e.before.rttRto := by
              have kept := kept_rto e.before anew timeout
              rwa [ran] at kept
            simp [same, timeout]

def Bounded (e : Step) : Prop :=
  (rttRxtmin ≤ e.before.rttRto ∧ e.before.rttRto ≤ rttRxtmax) ∧
    ∃ seconds, e.output = .code seconds ∧ rttRxtmin ≤ seconds ∧ seconds ≤ rttRxtmax

def Kept (trace : List Step) (info : RttInfo) : Prop :=
  (∀ e ∈ trace, e.action = .start → Bounded e) ∧
    (∀ e ∈ trace, 0 ≤ e.before.rttSrtt ∧ 0 ≤ e.before.rttRttvar) ∧
    0 ≤ info.rttSrtt ∧ 0 ≤ info.rttRttvar

theorem bounded_iff {trace : List Step} {e : Step} (earlier : timer.Run trace e.before)
    (stepped : timer.Stepped e) (start : e.action = .start) :
    Bounded e ↔ ¬ Overdoubled trace := by
  have ran := after_run stepped
  rw [start] at ran
  have sound := run_states_sound earlier
  rw [← above_iff_overdoubled earlier, not_lt]
  constructor
  · exact fun bounded => bounded.1.2
  · intro high
    exact ⟨⟨sound.rto, high⟩, rttStart e.before, (Prod.mk.inj ran).2.symm,
      rttStart_bounds sound.rto high⟩

/-- The bounds hold in a run exactly when no rtt_start follows a doubling that went
too far before rtt_init or rtt_stop has computed the timeout anew. -/
theorem bounds_kept_iff {trace : List Step} {info : RttInfo} (reached : timer.Run trace info) :
    Kept trace info ↔
      ∀ pre e post, trace = pre ++ e :: post → e.action = .start → ¬ Overdoubled pre := by
  constructor
  · rintro ⟨starts, -⟩ pre e post rfl start
    obtain ⟨earlier, stepped⟩ := reached.split
    exact (bounded_iff earlier stepped start).mp (starts e (by simp) start)
  · intro undone
    have sound := run_states_sound reached
    refine ⟨?_, ?_, sound.srtt, sound.rttvar⟩
    · intro e member start
      obtain ⟨pre, post, rfl⟩ := List.append_of_mem member
      obtain ⟨earlier, stepped⟩ := reached.split
      exact (bounded_iff earlier stepped start).mpr (undone pre e post rfl start)
    · refine reached.each ?_
      intro _ e earlier _
      exact ⟨(run_states_sound earlier).srtt, (run_states_sound earlier).rttvar⟩

/-- A client whose first reply takes 44 seconds, with three timeouts before it, and
whose second request has one: its alarm is set to 104 seconds. -/
def slowReply : List Call :=
  [.newpack, .start, .timeout, .start, .timeout, .start, .timeout, .start, .stop 44000,
    .newpack, .start, .timeout, .start]

theorem slow_reply_alarm : ∃ trace info, timer.Run trace info ∧
    ∃ e ∈ trace, e.action = .start ∧ e.output = .code 104 := by
  obtain ⟨trace, info, reached, found⟩ := Machine.run_of_check
    (M := timer) (s := rttInit ⟨0, 0, 0, 0, 0, 0⟩ 0) ⟨_, 0, rfl⟩ slowReply
    (fun r => r.1.any fun e => decide (e.action = .start ∧ e.output = .code 104))
    (by decide +kernel)
  obtain ⟨e, member, here⟩ := List.any_eq_true.mp found
  exact ⟨trace, info, reached, e, member, of_decide_eq_true here⟩

theorem alarm_too_late {trace : List Step} {info : RttInfo} {e : Step} (member : e ∈ trace)
    (start : e.action = .start) (late : e.output = .code 104) : ¬ Kept trace info := by
  rintro ⟨starts, -⟩
  obtain ⟨-, seconds, answered, -, small⟩ := starts e member start
  cases late.symm.trans answered
  norm_num [rttRxtmax] at small

theorem bounds_not_kept : ¬ ∀ trace info, timer.Run trace info → Kept trace info := by
  intro always
  obtain ⟨trace, info, reached, e, member, start, late⟩ := slow_reply_alarm
  exact alarm_too_late member start late (always trace info reached)

theorem slow_reply_overdoubles : ∃ trace info, timer.Run trace info ∧
    ∃ pre e post, trace = pre ++ e :: post ∧ e.action = .start ∧ Overdoubled pre := by
  obtain ⟨trace, info, reached, e, member, start, late⟩ := slow_reply_alarm
  refine ⟨trace, info, reached, ?_⟩
  by_contra none
  apply alarm_too_late member start late
  apply (bounds_kept_iff reached).mpr
  intro pre d post whole again done
  exact none ⟨pre, d, post, whole, again, done⟩

end Rtt

end NetworkProgramming
