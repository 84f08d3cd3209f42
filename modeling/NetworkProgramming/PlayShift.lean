import NetworkProgramming.PlayAudio

/-!
playaudio.c on a media clock that reads otherwise. The clock and the times of the
packets count modulo 2^32 from whatever they began with, so a constant that is added
to both should make no difference.
-/

namespace NetworkProgramming.PlayShift

open PlayAudio

def shift (pln : Rtpln) (c : UInt32) : Rtpln := { pln with rtpTime := pln.rtpTime + c }

def Unchanged (pln : Rtpln) (mnow : UInt32) : Prop :=
  ∀ c, playaudio (shift pln c) (mnow + c) = playaudio pln mnow

/-- The packet is past, by less than half of the range, or to come after the leeway or
just at its end, by less than that: nothing that is compared lies on both sides of 2^32. -/
def Steady (samples behind : Int) : Prop :=
  (samples ≤ behind ∧ behind ≤ 2 ^ 31 - samples) ∨
    (2 ^ 31 + samples ≤ behind ∧ 2 ^ 31 + 400 < behind ∧ behind ≤ 2 ^ 32 - samples ∧
      behind ≤ 2 ^ 32 - 400)

/-! The tests, by the distance and what the clock reads. -/

section Distance
variable {samples time now : Int}

theorem late_inside (some_ : 0 < samples) (most : samples ≤ 2048) (nowWord : 0 ≤ now ∧ now < 2 ^ 32)
    (inside : behind time now < samples) :
    Late samples time now ↔ 2 ^ 32 ≤ now + (samples - 1 - behind time now) := by
  rw [Late, last]
  rw [behind] at *
  omega

theorem late_past (some_ : 0 < samples) (past : samples ≤ behind time now)
    (half : behind time now ≤ 2 ^ 31 - samples) : Late samples time now := by
  rw [Late, last]
  rw [behind] at *
  omega

theorem late_half (some_ : 0 < samples) (most : samples ≤ 2048) (nowWord : 0 ≤ now ∧ now < 2 ^ 32)
    (past : 2 ^ 31 - samples < behind time now) (half : behind time now < 2 ^ 31 + samples) :
    Late samples time now ↔ now < behind time now - samples + 1 := by
  rw [Late, last]
  rw [behind] at *
  omega

theorem late_ahead (some_ : 0 < samples) (half : 2 ^ 31 + samples ≤ behind time now)
    (ahead : behind time now ≤ 2 ^ 32 - samples) : ¬ Late samples time now := by
  rw [Late, last]
  rw [behind] at *
  omega

theorem late_soon (most : samples ≤ 2048) (soon : 2 ^ 32 - samples < behind time now) :
    Late samples time now ↔ behind time now - samples + 1 ≤ now := by
  rw [Late, last]
  rw [behind] at *
  omega

theorem put_back_reached (nowWord : 0 ≤ now ∧ now < 2 ^ 32) (reached : behind time now < 2 ^ 31) :
    PutBack time now ↔ 2 ^ 32 - 400 ≤ now := by
  rw [PutBack, FromBeginning]
  rw [behind] at *
  omega

theorem put_back_half (timeWord : 0 ≤ time ∧ time < 2 ^ 32) (past : 2 ^ 31 < behind time now)
    (half : behind time now ≤ 2 ^ 31 + 400) :
    PutBack time now ↔ time < 2 ^ 32 - 400 - behind time now := by
  rw [PutBack, FromBeginning]
  rw [behind] at *
  omega

theorem put_back_ahead (half : 2 ^ 31 + 400 < behind time now)
    (ahead : behind time now < 2 ^ 32 - 400) : PutBack time now := by
  rw [PutBack, FromBeginning]
  rw [behind] at *
  omega

theorem put_back_soon (timeWord : 0 ≤ time ∧ time < 2 ^ 32) (nowWord : 0 ≤ now ∧ now < 2 ^ 32)
    (soon : 2 ^ 32 - 400 ≤ behind time now) :
    PutBack time now ↔ 2 ^ 33 - 400 - behind time now ≤ time := by
  rw [PutBack, FromBeginning]
  rw [behind] at *
  omega

end Distance

theorem free_iff (pln : Rtpln) (mnow : UInt32) :
    playaudio pln mnow = .free ↔ Late (samples pln) pln.rtpTime.toNat mnow.toNat := by
  rw [← late_iff, playaudio]
  split
  · rename_i late
    simp [late]
  · rename_i timely
    split <;> simp [timely]

theorem postpone_iff (pln : Rtpln) (mnow : UInt32)
    (timely : ¬ Late (samples pln) pln.rtpTime.toNat mnow.toNat) :
    (∃ delay, playaudio pln mnow = .postpone delay) ↔ PutBack pln.rtpTime.toNat mnow.toNat := by
  rw [← late_iff] at timely
  rw [← early_iff, playaudio, if_neg timely]
  split
  · rename_i early
    simp [early]
  · rename_i due
    simp [due]

theorem playaudio_ahead (pln : Rtpln) (mnow : UInt32)
    (timely : ¬ Late (samples pln) pln.rtpTime.toNat mnow.toNat)
    (ahead : 2 ^ 31 < behind pln.rtpTime.toNat mnow.toNat) :
    playaudio pln mnow = if early pln mnow then .postpone (pln.rtpTime - mnow - RTP_LEEWAY)
      else .write (rtphdrlen pln) (samples pln) := by
  have beginning : FromBeginning pln.rtpTime.toNat mnow.toNat := Or.inl ahead
  rw [← late_iff] at timely
  rw [playaudio, if_neg timely, (readfrom_eq pln mnow).1 beginning, (offset_eq pln mnow).1 beginning,
    Int.add_zero, Int.sub_zero]

/-! The shift. -/

theorem behind_shift (pln : Rtpln) (mnow c : UInt32) :
    behind (shift pln c).rtpTime.toNat (mnow + c).toNat =
      behind pln.rtpTime.toNat mnow.toNat := by
  rw [behind, behind, shift, add_value, add_value]
  omega

theorem shift_reaches (pln : Rtpln) (mnow : UInt32) (n : Int) (word : 0 ≤ n ∧ n < 2 ^ 32) :
    ∃ c, ((mnow + c).toNat : Int) = n ∧
      ((shift pln c).rtpTime.toNat : Int) = (n - behind pln.rtpTime.toNat mnow.toNat) % 2 ^ 32 := by
  refine ⟨UInt32.ofInt (n - mnow.toNat), ?_, ?_⟩
  · rw [add_value, of_int_value]
    omega
  · rw [shift, add_value, of_int_value, behind]
    omega

theorem unchanged_late (pln : Rtpln) (mnow : UInt32) (unchanged : Unchanged pln mnow) (n : Int)
    (word : 0 ≤ n ∧ n < 2 ^ 32) :
    Late (samples pln) ((n - behind pln.rtpTime.toNat mnow.toNat) % 2 ^ 32) n ↔
      Late (samples pln) pln.rtpTime.toNat mnow.toNat := by
  obtain ⟨c, now, time⟩ := shift_reaches pln mnow n word
  have shifted := free_iff (shift pln c) (mnow + c)
  rw [unchanged c, free_iff, now, time] at shifted
  exact shifted.symm

theorem unchanged_put_back (pln : Rtpln) (mnow : UInt32) (unchanged : Unchanged pln mnow)
    (timely : ¬ Late (samples pln) pln.rtpTime.toNat mnow.toNat) (n : Int)
    (word : 0 ≤ n ∧ n < 2 ^ 32) :
    PutBack ((n - behind pln.rtpTime.toNat mnow.toNat) % 2 ^ 32) n ↔
      PutBack pln.rtpTime.toNat mnow.toNat := by
  obtain ⟨c, now, time⟩ := shift_reaches pln mnow n word
  have still : ¬ Late (samples (shift pln c)) (shift pln c).rtpTime.toNat (mnow + c).toNat := by
    rw [now, time]
    exact mt (unchanged_late pln mnow unchanged n word).mp timely
  have shifted := postpone_iff (shift pln c) (mnow + c) still
  rw [unchanged c, postpone_iff pln mnow timely, now, time] at shifted
  exact shifted.symm

theorem behind_at (d n : Int) (word : 0 ≤ d ∧ d < 2 ^ 32) : behind ((n - d) % 2 ^ 32) n = d := by
  rw [behind]
  omega

theorem unchanged_steady (pln : Rtpln) (mnow : UInt32) (some_ : 0 < samples pln)
    (most : samples pln ≤ 2048) (unchanged : Unchanged pln mnow) :
    Steady (samples pln) (behind pln.rtpTime.toNat mnow.toNat) := by
  have word : 0 ≤ behind pln.rtpTime.toNat mnow.toNat ∧
      behind pln.rtpTime.toNat mnow.toNat < 2 ^ 32 := by
    rw [behind]
    omega
  have late := unchanged_late pln mnow unchanged
  have putBack := unchanged_put_back pln mnow unchanged
  generalize behind pln.rtpTime.toNat mnow.toNat = d at *
  have same (n : Int) : behind ((n - d) % 2 ^ 32) n = d := behind_at d n word
  have clock : (0 : Int) ≤ 0 ∧ (0 : Int) < 2 ^ 32 := by decide
  have end_ : (0 : Int) ≤ 2 ^ 32 - 1 ∧ (2 ^ 32 - 1 : Int) < 2 ^ 32 := by decide
  by_contra other
  rw [Steady] at other
  by_cases inside : d < samples pln
  · have start := late_inside some_ most clock (by rw [same]; exact inside)
    rw [same, late 0 clock] at start
    have timely := mt start.mp (by omega)
    have first := put_back_reached clock (by rw [same]; omega)
    have last := put_back_reached end_ (by rw [same]; omega)
    rw [putBack timely 0 clock] at first
    rw [putBack timely _ end_] at last
    exact absurd (first.mp (last.mpr (by decide))) (by decide)
  by_cases half : 2 ^ 31 - samples pln < d ∧ d < 2 ^ 31 + samples pln
  · obtain ⟨past, ahead⟩ := half
    have first := late_half some_ most clock (by rwa [same]) (by rwa [same])
    have last := late_half some_ most end_ (by rwa [same]) (by rwa [same])
    rw [same, late 0 clock] at first
    rw [same, late _ end_] at last
    exact absurd (last.mp (first.mpr (by omega))) (by omega)
  by_cases soon : 2 ^ 32 - samples pln < d
  · have first := @late_soon _ ((0 - d) % 2 ^ 32) 0 most (by rwa [same])
    have last := @late_soon _ ((2 ^ 32 - 1 - d) % 2 ^ 32) (2 ^ 32 - 1) most (by rwa [same])
    rw [same, late 0 clock] at first
    rw [same, late _ end_] at last
    exact absurd (first.mp (last.mpr (by omega))) (by omega)
  have timely : ¬ Late (samples pln) pln.rtpTime.toNat mnow.toNat := by
    rw [← late 0 clock]
    exact late_ahead some_ (by rw [same]; omega) (by rw [same]; omega)
  -- what remains turns on the packet's time, at 0 and just before
  have first := putBack timely d word
  have last := putBack timely ((d - 1) % 2 ^ 32) (by omega)
  have atFirst := same d
  have atLast := same ((d - 1) % 2 ^ 32)
  rw [show (d - d) % 2 ^ 32 = (0 : Int) by omega] at first atFirst
  rw [show ((d - 1) % 2 ^ 32 - d) % 2 ^ 32 = (2 ^ 32 - 1 : Int) by omega] at last atLast
  by_cases near : d ≤ 2 ^ 31 + 400
  · rw [put_back_half clock (by rw [atFirst]; omega) (by rwa [atFirst]), atFirst] at first
    rw [put_back_half end_ (by rw [atLast]; omega) (by rwa [atLast]), atLast] at last
    exact absurd (last.mpr (first.mp (by omega))) (by omega)
  · rw [put_back_soon clock word (by rw [atFirst]; omega), atFirst] at first
    rw [put_back_soon end_ (by omega) (by rw [atLast]; omega), atLast] at last
    exact absurd (first.mpr (last.mp (by omega))) (by omega)

theorem steady_put_back (time time' now now' : Int) (timeWord : 0 ≤ time ∧ time < 2 ^ 32)
    (timeWord' : 0 ≤ time' ∧ time' < 2 ^ 32) (nowWord : 0 ≤ now ∧ now < 2 ^ 32)
    (nowWord' : 0 ≤ now' ∧ now' < 2 ^ 32) (same : behind time' now' = behind time now)
    (half : 2 ^ 31 + 400 < behind time now) (ahead : behind time now ≤ 2 ^ 32 - 400) :
    PutBack time' now' ↔ PutBack time now := by
  by_cases exact_ : behind time now = 2 ^ 32 - 400
  · -- with the leeway up to now, it is played on any clock
    rw [put_back_soon timeWord nowWord (by omega),
      put_back_soon timeWord' nowWord' (by omega), same, exact_]
    omega
  · exact iff_of_true (put_back_ahead (by omega) (by omega)) (put_back_ahead half (by omega))

theorem steady_unchanged (pln : Rtpln) (mnow : UInt32) (some_ : 0 < samples pln)
    (steady : Steady (samples pln) (behind pln.rtpTime.toNat mnow.toNat)) :
    Unchanged pln mnow := by
  intro c
  have same := behind_shift pln mnow c
  have count : samples (shift pln c) = samples pln := rfl
  rcases steady with ⟨past, half⟩ | ⟨half, more, before, leeway⟩
  · have late := late_past some_ past half
    have late' := late_past some_ (same ▸ past) (same ▸ half)
    rw [(free_iff pln mnow).mpr late, (free_iff (shift pln c) (mnow + c)).mpr late']
  · have timely := late_ahead some_ half before
    have timely' := late_ahead some_ (same ▸ half) (same ▸ before)
    have word (n : UInt32) : (0 : Int) ≤ n.toNat ∧ (n.toNat : Int) < 2 ^ 32 := by
      have small := n.toNat_lt
      omega
    have early : early (shift pln c) (mnow + c) = early pln mnow := by
      rw [Bool.eq_iff_iff, early_iff, early_iff]
      exact steady_put_back _ _ _ _ (word _) (word _) (word _) (word _) same more leeway
    have delay : (shift pln c).rtpTime - (mnow + c) = pln.rtpTime - mnow := by
      have left := sub_value (pln.rtpTime + c) (mnow + c)
      have right := sub_value pln.rtpTime mnow
      rw [add_value, add_value] at left
      rw [← UInt32.toNat_inj]
      change (pln.rtpTime + c - (mnow + c)).toNat = (pln.rtpTime - mnow).toNat
      omega
    rw [playaudio_ahead pln mnow timely (by omega),
      playaudio_ahead (shift pln c) (mnow + c) timely' (by omega), early, delay]
    rfl

theorem shift_unchanged_iff (pln : Rtpln) (mnow : UInt32) (some_ : 0 < samples pln)
    (most : samples pln ≤ 2048) :
    Unchanged pln mnow ↔ Steady (samples pln) (behind pln.rtpTime.toNat mnow.toNat) :=
  ⟨unchanged_steady pln mnow some_ most, steady_unchanged pln mnow some_⟩

theorem past_unchanged : Unchanged counted 33000 :=
  (shift_unchanged_iff counted 33000 (by decide) (by decide)).mpr (Or.inl (by decide))

/-- Forty samples behind, the packet is played from there; but it is put back, by six days,
where the clock is in its last 400, and thrown away where the last sample comes after the
clock is back at 0. -/
theorem wrap_changes :
    playaudio counted 1040 = .write 52 60 ∧
    playaudio (shift counted 4294966156) (1040 + 4294966156) = .postpone 4294966896 ∧
    playaudio (shift counted 4294966236) (1040 + 4294966236) = .free ∧
    ¬ Unchanged counted 1040 := by
  have played : playaudio counted 1040 = .write 52 60 := by decide
  have thrown : playaudio (shift counted 4294966236) (1040 + 4294966236) = .free := by decide
  refine ⟨played, by decide, thrown, fun unchanged => ?_⟩
  have same := unchanged 4294966236
  rw [played, thrown] at same
  cases same

end NetworkProgramming.PlayShift
