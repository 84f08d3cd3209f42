import Mathlib.Algebra.Order.Ring.Nat
import NetworkProgramming.AsyncTcpClientGuards

/-!
Which overlaps of a cancelRequest with a handler deadlock: one that finds its session while a
handler that has seen an earlier cancellation has the guard of the session. Without it no run
comes to a cycle of waits. Each callback is called once, when the last handler is done.
-/

namespace NetworkProgramming.AsyncTcpClient

open MutexWaits

variable {Thread Id : Type*} [DecidableEq Thread] [DecidableEq Id]

/-! The condition. -/

/-- A cancelRequest finds a session that has been cancelled before while its guard is taken, or
a handler of such a session takes the guard that a cancelRequest waits for. -/
def overlapsAt (s : State Thread Id) (t : Thread) : Bool :=
  match (s.control t).place with
  | .find id => s.activeSessions id && (s.session id).wasCancelled && (s.cancelGuard id).isSome
  | .check id _ =>
      (s.session id).wasCancelled &&
        s.activeSessionsGuard.any fun u => decide ((s.control u).place = .cancel id)
  | _ => false

def overlaps (e : Step Thread Id) : Bool := overlapsAt e.before e.action.thread

/-- No cancelRequest waits for a guard that a handler has which waits for the map. -/
def Apart (s : State Thread Id) : Prop :=
  ∀ t u id, (s.control t).place = .cancel id → (s.control u).place ≠ .erase id true

def Place.rank : Place Id → Nat
  | .cancel _ => 1
  | .insert _ | .find _ | .erase _ _ => 2
  | .check _ _ => 3
  | _ => 0

omit [DecidableEq Id] in
theorem outside_rank {place : Place Id} (outside : place.inHandler = false) : place.rank ≤ 2 := by
  cases place with
  | check _ _ => cases outside
  | _ => simp [Place.rank]

omit [DecidableEq Thread] in
/-- Whoever has the map waits for a session at most, and whoever has a session then waits for
nothing. -/
theorem apart_free {calls : Id → Nat} {s : State Thread Id} (inv : Inv calls s) (apart : Apart s) :
    ¬ s.Deadlocked := by
  -- by the rank of its place nobody waits for a thread of the same rank or a higher one
  refine no_deadlock (fun t => (s.control t).place.rank) ?_
  rintro t u ⟨guard, wants, owner⟩
  have map (owned : s.activeSessionsGuard = some u) : (s.control u).place.rank ≤ 1 := by
    rcases has_active_places ((inv.active u).mpr owned) with
      ⟨_, here⟩ | ⟨_, here⟩ | ⟨_, here⟩ | here | ⟨_, _, here⟩ <;> rw [here] <;> simp [Place.rank]
  have session (id : Id) (owned : s.cancelGuard id = some u) :
      (s.control u).place.rank = 0 ∨ (s.control u).place = .erase id true ∨
        ∃ locked, (s.control u).callback = some (id, locked) := by
    rcases has_cancel_places ((inv.cancel id u).mpr owned) with here | here | here | here | callback
    · exact Or.inl (by rw [here]; rfl)
    · exact Or.inl (by rw [here]; rfl)
    · exact Or.inr (Or.inl here)
    · exact Or.inl (by rw [here]; rfl)
    · exact Or.inr (Or.inr ⟨true, callback⟩)
  simp only [Control.wants] at wants
  split at wants <;> rename_i here
  · cases wants
    rw [here]
    exact Nat.lt_succ_of_le (map owner)
  · cases wants
    rw [here]
    exact Nat.lt_succ_of_le (map owner)
  · cases wants
    rw [here]
    exact Nat.lt_succ_of_le (map owner)
  · cases wants
    rename_i id
    rcases session id owner with none_ | erase | ⟨locked, callback⟩
    · rw [here, none_]
      exact Nat.one_pos
    -- the one case that the order of the locks does not exclude
    · exact absurd erase (apart t u id here)
    · have gone := inv.gone u id (Or.inr ⟨locked, callback⟩)
      rw [inv.found t id (Or.inl here)] at gone
      cases gone
  · cases wants
    rename_i id _
    rcases session id owner with none_ | erase | ⟨locked, callback⟩
    · rw [here, none_]
      exact Nat.succ_pos 2
    · rw [here, erase]
      exact Nat.lt_succ_self 2
    · -- in a callback there is no handler to come
      have outside : (s.control u).place.inHandler = false := Bool.eq_false_iff.mpr fun inside => by
        rw [inv.handler u inside] at callback
        cases callback
      rw [here]
      exact Nat.lt_succ_of_le (outside_rank outside)
  · cases wants

theorem did_waits {s after : State Thread Id} {t : Thread} {event : Event Id} {u : Thread} {id : Id}
    (did : Did s t after event) (here : (after.control u).place = .cancel id) :
    (u ≠ t ∧ (s.control u).place = .cancel id) ∨
      (u = t ∧ (s.control t).place = .find id ∧ s.activeSessions id = true) := by
  by_cases same : u = t
  · subst same
    cases did with
    | found i at_ _ active =>
        simp only [State.go, Function.update_self, Place.cancel.injEq] at here
        subst here
        exact Or.inr ⟨rfl, at_, active⟩
    | handle i op ec buf at_ _ =>
        simp only [State.setSession, State.go, Function.update_self] at here
        rcases completed_wants i op ec with other | ⟨_, other⟩ <;> rw [other] at here <;> cases here
    | _ => simp [State.setSession, State.setCancelGuard, State.go] at here
  · rw [did_control did u same] at here
    exact Or.inl ⟨same, here⟩

theorem did_apart {calls : Id → Nat} {s after : State Thread Id} {t : Thread} {event : Event Id}
    (inv : Inv calls s) (apart : Apart s) (did : Did s t after event)
    (met : overlapsAt s t = false) : Apart after := by
  intro p q id cancels erases
  rcases did_waits did cancels with ⟨_, waits⟩ | ⟨_, finds, active⟩
  · rcases did_erase did erases with ⟨_, erasing⟩ | ⟨_, ⟨next, checks⟩, seen, _⟩
    · exact apart p q id waits erasing
    · have owner := (inv.active p).mp (cancels_has (Or.inl waits))
      simp [overlapsAt, checks, seen, owner, waits] at met
  · rcases did_erase did erases with ⟨_, erasing⟩ | ⟨_, ⟨next, checks⟩, _⟩
    · have owner := (inv.cancel id q).mp (by simp [Control.hasCancel, erasing, Place.hasCancel])
      simp [overlapsAt, finds, active, inv.seen q id erasing, owner] at met
    · rw [finds] at checks
      cases checks

omit [DecidableEq Thread] in
theorem waits_apart {calls : Id → Nat} {s : State Thread Id} (inv : Inv calls s) {t u : Thread}
    {id : Id} (cancels : (s.control t).place = .cancel id)
    (erases : (s.control u).place = .erase id true) : s.Deadlocked := by
  have has : (s.control u).hasCancel id = true := by
    simp [Control.hasCancel, erases, Place.hasCancel]
  refine deadlock_of_two (t := t) (u := u) ⟨.cancel id, ?_, (inv.cancel id u).mp has⟩
    ⟨.activeSessions, ?_, (inv.active t).mp (cancels_has (Or.inl cancels))⟩
  · simp only [Control.wants, cancels]
  · simp only [Control.wants, erases]

theorem did_overlaps {calls : Id → Nat} {s after : State Thread Id} {t : Thread} {event : Event Id}
    (inv : Inv calls s) (did : Did s t after event) (met : overlapsAt s t = true) :
    after.Deadlocked := by
  have later := did_inv inv did
  unfold overlapsAt at met
  split at met
  · rename_i id here
    obtain ⟨⟨active, seen⟩, taken⟩ := (by simpa [Bool.and_eq_true] using met :
      (s.activeSessions id = true ∧ (s.session id).wasCancelled = true) ∧ (s.cancelGuard id).isSome)
    obtain ⟨u, owner⟩ := Option.isSome_iff_exists.mp taken
    have free : s.activeSessionsGuard = none ∧ (after.control t).place = .cancel id := by
      cases did with
      | found i at_ free _ =>
          rw [here] at at_
          cases at_
          exact ⟨free, by simp [State.go]⟩
      | missed i at_ _ absent =>
          rw [here] at at_
          cases at_
          rw [active] at absent
          cases absent
      | handle _ _ _ _ at_ _ | return_ _ at_ | unlock _ at_ => simp [at_] at here
      | request _ at_ _ | cancelRequest _ at_ | insert _ at_ _ | connect _ at_ | cancel _ at_ _
      | cancelled _ at_ | leave at_ | stop _ _ at_ _ _ | next _ _ at_ _ _ | release _ at_
      | erase _ _ at_ _ | erased _ _ at_ => simp [here] at at_
    have outside : (s.control u).hasActiveSessions = false := Bool.eq_false_iff.mpr fun has => by
      have owns := (inv.active u).mp has
      rw [free.1] at owns
      cases owns
    -- of those that may have the guard of an active session only this one lets go of the map
    have erases : (s.control u).place = .erase id true := by
      rcases has_cancel_places ((inv.cancel id u).mpr owner) with at_ | at_ | at_ | at_ | callback
      · rw [has_active_at at_] at outside
        cases outside
      · have unseen := inv.unseen u id at_
        rw [seen] at unseen
        cases unseen
      · exact at_
      · rw [has_active_at at_] at outside
        cases outside
      · have gone := inv.gone u id (Or.inr ⟨true, callback⟩)
        rw [active] at gone
        cases gone
    have differ : u ≠ t := by
      rintro rfl
      rw [here] at erases
      cases erases
    exact waits_apart later free.2 (by rw [did_control did u differ]; exact erases)
  · rename_i id next here
    obtain ⟨seen, u, _, waits⟩ := (by simpa [Bool.and_eq_true, Option.any_eq_true] using met :
      (s.session id).wasCancelled = true ∧
        ∃ u, s.activeSessionsGuard = some u ∧ (s.control u).place = .cancel id)
    have erases : (after.control t).place = .erase id true := by
      cases did with
      | stop i _ at_ _ _ =>
          rw [here] at at_
          cases at_
          simp [State.setCancelGuard, State.go]
      | next i _ at_ _ unseen =>
          rw [here] at at_
          cases at_
          rw [seen] at unseen
          cases unseen
      | handle _ _ _ _ at_ _ | return_ _ at_ | unlock _ at_ => simp [at_] at here
      | request _ at_ _ | cancelRequest _ at_ | insert _ at_ _ | connect _ at_ | found _ at_ _ _
      | missed _ at_ _ _ | cancel _ at_ _ | cancelled _ at_ | leave at_ | release _ at_
      | erase _ _ at_ _ | erased _ _ at_ => simp [here] at at_
    have differ : u ≠ t := by
      rintro rfl
      rw [here] at waits
      cases waits
    exact waits_apart later (by rw [did_control did u differ]; exact waits) erases
  · cases met

/-! The runs. -/

def calls (trace : List (Step Thread Id)) (id : Id) : Nat :=
  (trace.map fun e => e.output.calls id).sum

def Control.works (id : Id) (c : Control Id) : Prop :=
  c.makes id = true ∨ c.place = .release id ∨ ∃ locked, c.callback = some (id, locked)

def Finished (s : State Thread Id) (id : Id) : Prop :=
  s.requested id = true ∧ (s.session id).pending = none ∧ ∀ t, ¬ (s.control t).works id

def Sound (trace : List (Step Thread Id)) (s : State Thread Id) : Prop :=
  ¬ s.Deadlocked ∧ ∀ id, calls trace id ≤ 1 ∧ (Finished s id → calls trace id = 1)

theorem start_inv {io : Thread → Bool} (s : State Thread Id) (first : (machine Id io).start s) :
    Inv (calls ([] : List (Step Thread Id))) s := by
  obtain ⟨control, map, guards, active, requested, pending⟩ := first
  have none_ (has : Control Id → Bool) (out : has ⟨.free, none⟩ = false) :
      Owned s.control has none := fun t => by simp [control t, out]
  exact {
    active := map ▸ none_ _ rfl
    cancel := fun id => guards id ▸ none_ _ (by simp [Control.hasCancel, Place.hasCancel])
    life := fun id => ⟨none, none_ _ rfl, by simp [calls, pending id, requested id]⟩
    handler := fun t _ => by rw [control t]
    called := fun t id locked callback => by simp [control t] at callback
    gone := fun t id _ => active id
    found := fun t id here => by simp [control t, Place.cancels] at here
    unseen := fun t id here => by simp [control t] at here
    seen := fun t id here => by simp [control t] at here }

omit [DecidableEq Thread] in
theorem calls_next (trace : List (Step Thread Id)) (e : Step Thread Id) :
    calls (trace ++ [e]) = fun id => calls trace id + e.output.calls id := by
  funext id
  simp [calls]

theorem run_inv {io : Thread → Bool} {trace : List (Step Thread Id)} {s : State Thread Id}
    (run : (machine Id io).Run trace s) : Inv (calls trace) s := by
  refine run.history (C := fun _ => True) (I := fun trace s => Inv (calls trace) s)
    start_inv ?_ (fun _ _ => trivial)
  intro trace e stepped _ inv
  rw [calls_next]
  exact did_inv inv (step_did e stepped)

theorem run_apart {io : Thread → Bool} {trace : List (Step Thread Id)} {s : State Thread Id}
    (run : (machine Id io).Run trace s) (met : ∀ e ∈ trace, overlaps e = false) : Apart s := by
  induction run with
  | start first => exact fun t u id here => by simp [first.1 t] at here
  | @next trace e earlier stepped ih =>
      exact did_apart (run_inv earlier) (ih fun d member => met d (List.mem_append_left _ member))
        (step_did e stepped) (met e (by simp))

omit [DecidableEq Thread] in
theorem inv_calls {trace : List (Step Thread Id)} {s : State Thread Id} (inv : Inv (calls trace) s)
    (id : Id) : calls trace id ≤ 1 ∧ (Finished s id → calls trace id = 1) := by
  obtain ⟨maker, owned, balance⟩ := inv.life id
  constructor
  · have most := Bool.toNat_le (s.requested id)
    omega
  · rintro ⟨requested, pending, idle⟩
    have none_ : maker = none := by
      cases maker with
      | none => rfl
      | some t => exact absurd (Or.inl ((owned t).mpr rfl)) (idle t)
    simpa [none_, pending, requested] using balance

theorem deadlock_free_iff (io : Thread → Bool) (trace : List (Step Thread Id)) (s : State Thread Id)
    (run : (machine Id io).Run trace s) :
    (∀ e ∈ trace, overlaps e = false) ↔
      ∀ pre last, pre <+: trace → (machine Id io).Run pre last → Sound pre last := by
  refine Machine.Run.exactly (C := fun e => overlaps e = false) ?_ ?_ run
  · intro trace s run met
    have inv := run_inv run
    exact ⟨apart_free inv (run_apart run met), inv_calls inv⟩
  · intro trace e run _ stepped _ sound
    refine Bool.eq_false_iff.mpr fun met => sound.1 ?_
    exact did_overlaps (run_inv run) (step_did e stepped) met

/-! Thread 0 is the I/O thread, 1 and 2 are the user's. -/

def begun : State Nat Nat where
  control _ := ⟨.free, none⟩
  activeSessionsGuard := none
  cancelGuard _ := none
  activeSessions _ := false
  requested _ := false
  session _ := .new

theorem begun_start : (machine Nat fun t : Nat => t == 0).start begun :=
  ⟨fun _ => rfl, rfl, fun _ => rfl, fun _ => rfl, fun _ => rfl, fun _ => rfl⟩

def oneCancel : List (Action Nat Nat) :=
  [.emulateLongComputationOp 1 7, .proceed 1, .proceed 1, .handle 0 7 .success [],
    .cancelRequest 1 7, .proceed 1, .proceed 1, .proceed 1, .proceed 1, .proceed 0]

theorem one_cancelled : ∃ (trace : List (Step Nat Nat)) (s : State Nat Nat),
    (machine Nat fun t : Nat => t == 0).Run trace s ∧ calls trace 7 = 1 ∧
      ∀ pre last, pre <+: trace → (machine Nat fun t : Nat => t == 0).Run pre last →
        Sound pre last := by
  obtain ⟨trace, s, run, ends⟩ := Machine.run_of_check begun_start
    (oneCancel ++ [.proceed 0, .proceed 0, .proceed 0])
    (fun r => decide (calls r.1 7 = 1 ∧ ∀ e ∈ r.1, overlaps e = false)) (by decide +kernel)
  obtain ⟨once, met⟩ := of_decide_eq_true ends
  exact ⟨trace, s, run, once, (deadlock_free_iff _ trace s run).mp met⟩

theorem two_cancels_deadlock : ∃ (trace : List (Step Nat Nat)) (s : State Nat Nat),
    (machine Nat fun t : Nat => t == 0).Run trace s ∧ s.Deadlocked := by
  obtain ⟨trace, s, run, ends⟩ := Machine.run_of_check begun_start
    (oneCancel ++ [.cancelRequest 2 7, .proceed 2])
    (fun r => decide ((r.2.control 2).place = .cancel 7 ∧ (r.2.control 0).place = .erase 7 true))
    (by decide +kernel)
  obtain ⟨cancels, erases⟩ := of_decide_eq_true ends
  exact ⟨trace, s, run, waits_apart (run_inv run) cancels erases⟩

end NetworkProgramming.AsyncTcpClient
