import NetworkProgramming.AsyncTcpClient

/-!
Who has which guard, and what makes the callback of a request come: one thread, one operation or
the callback itself at a time.
-/

namespace NetworkProgramming.AsyncTcpClient

open MutexWaits

variable {Thread Id : Type*} [DecidableEq Thread] [DecidableEq Id]

inductive Did (s : State Thread Id) (t : Thread) : State Thread Id → Event Id → Prop where
  | request (id : Id) (here : (s.control t).place = .free) (new : s.requested id = false) :
      Did s t ({ s.go t (.insert id) with
        requested := Function.update s.requested id true }.setSession id .new) .quiet
  | cancelRequest (id : Id) (here : (s.control t).place = .free) : Did s t (s.go t (.find id)) .quiet
  | handle (id : Id) (op : Op) (ec : Ec) (buf : List UInt8) (here : s.control t = ⟨.free, none⟩)
      (pending : (s.session id).pending = some op) :
      Did s t ((s.go t (.completed id op ec)).setSession id
        ((s.session id).completed op ec buf)) .quiet
  | insert (id : Id) (here : (s.control t).place = .insert id) (free : s.activeSessionsGuard = none) :
      Did s t { s.go t (.inserted id) with
        activeSessionsGuard := some t
        activeSessions := Function.update s.activeSessions id true } .quiet
  | connect (id : Id) (here : (s.control t).place = .inserted id) :
      Did s t ({ s.go t .free with activeSessionsGuard := none }.setSession id
        { s.session id with pending := some .connect }) .quiet
  | found (id : Id) (here : (s.control t).place = .find id) (free : s.activeSessionsGuard = none)
      (active : s.activeSessions id = true) :
      Did s t { s.go t (.cancel id) with activeSessionsGuard := some t } .quiet
  | missed (id : Id) (here : (s.control t).place = .find id) (free : s.activeSessionsGuard = none)
      (absent : s.activeSessions id = false) :
      Did s t { s.go t .leave with activeSessionsGuard := some t } .quiet
  | cancel (id : Id) (here : (s.control t).place = .cancel id) (free : s.cancelGuard id = none) :
      Did s t (((s.go t (.cancelled id)).setCancelGuard id (some t)).setSession id
        { s.session id with wasCancelled := true }) .quiet
  | cancelled (id : Id) (here : (s.control t).place = .cancelled id) :
      Did s t ((s.go t .leave).setCancelGuard id none) .quiet
  | leave (here : (s.control t).place = .leave) :
      Did s t { s.go t .free with activeSessionsGuard := none } .quiet
  | stop (id : Id) (next : Op) (here : (s.control t).place = .check id next)
      (free : s.cancelGuard id = none) (seen : (s.session id).wasCancelled = true) :
      Did s t ((s.go t (.erase id true)).setCancelGuard id (some t)) .quiet
  | next (id : Id) (next : Op) (here : (s.control t).place = .check id next)
      (free : s.cancelGuard id = none) (unseen : (s.session id).wasCancelled = false) :
      Did s t (((s.go t (.release id)).setCancelGuard id (some t)).setSession id
        { s.session id with pending := some next }) .quiet
  | release (id : Id) (here : (s.control t).place = .release id) :
      Did s t ((s.go t .free).setCancelGuard id none) .quiet
  | erase (id : Id) (locked : Bool) (here : (s.control t).place = .erase id locked)
      (free : s.activeSessionsGuard = none) :
      Did s t { s.go t (.erased id locked) with
        activeSessionsGuard := some t
        activeSessions := Function.update s.activeSessions id false } .quiet
  | erased (id : Id) (locked : Bool) (here : (s.control t).place = .erased id locked) :
      Did s t { s with
        control := Function.update s.control t ⟨.free, some (id, locked)⟩
        activeSessionsGuard := none }
        (.callback id (s.session id).response (s.session id).result)
  | return_ (id : Id) (here : s.control t = ⟨.free, some (id, false)⟩) :
      Did s t { s with control := Function.update s.control t ⟨.free, none⟩ } .quiet
  | unlock (id : Id) (here : s.control t = ⟨.free, some (id, true)⟩) :
      Did s t ({ s with control := Function.update s.control t ⟨.free, none⟩ }.setCancelGuard id none)
        .quiet

def Action.thread : Action Thread Id → Thread
  | .emulateLongComputationOp t _ | .cancelRequest t _ | .handle t _ _ _ | .proceed t => t

theorem proceed_did {s after : State Thread Id} {t : Thread} {event : Event Id}
    (stepped : s.proceed t = some (after, event)) : Did s t after event := by
  unfold State.proceed at stepped
  split at stepped
  · rename_i id here
    obtain ⟨free, same⟩ := Option.ite_none_right_eq_some.mp stepped
    cases same
    exact .insert id here free
  · rename_i id here
    cases stepped
    exact .connect id here
  · rename_i id here
    obtain ⟨free, same⟩ := Option.ite_none_right_eq_some.mp stepped
    cases same
    by_cases active : s.activeSessions id = true
    · rw [if_pos active]
      exact .found id here free active
    · rw [if_neg active]
      exact .missed id here free (Bool.eq_false_iff.mpr active)
  · rename_i id here
    obtain ⟨free, same⟩ := Option.ite_none_right_eq_some.mp stepped
    cases same
    exact .cancel id here free
  · rename_i id here
    cases stepped
    exact .cancelled id here
  · rename_i here
    cases stepped
    exact .leave here
  · rename_i id next here
    obtain ⟨free, same⟩ := Option.ite_none_right_eq_some.mp stepped
    split at same
    · rename_i seen
      cases same
      exact .stop id next here free seen
    · rename_i unseen
      cases same
      exact .next id next here free (Bool.eq_false_iff.mpr unseen)
  · rename_i id here
    cases stepped
    exact .release id here
  · rename_i id locked here
    obtain ⟨free, same⟩ := Option.ite_none_right_eq_some.mp stepped
    cases same
    exact .erase id locked here free
  · rename_i id locked here
    cases stepped
    exact .erased id locked here
  · rename_i here
    split at stepped
    · cases stepped
    · rename_i id locked callback
      have control : s.control t = ⟨.free, some (id, locked)⟩ := by rw [← here, ← callback]
      cases locked with
      | false =>
          cases stepped
          exact .return_ id control
      | true =>
          cases stepped
          exact .unlock id control

omit [DecidableEq Thread] in
theorem calls_free {io : Thread → Bool} {s : State Thread Id} {t : Thread}
    (calls : callsClient io s t = true) : (s.control t).place = .free :=
  of_decide_eq_true (Bool.and_eq_true_iff.mp calls).1

theorem step_did {io : Thread → Bool} (e : Step Thread Id) (stepped : (machine Id io).Stepped e) :
    Did e.before e.action.thread e.after e.output := by
  obtain ⟨s, action, event, after⟩ := e
  change step io s action = some (after, event) at stepped
  cases action with
  | emulateLongComputationOp t id =>
      obtain ⟨⟨calls, new⟩, same⟩ := Option.ite_none_right_eq_some.mp stepped
      cases same
      exact .request id (calls_free calls) new
  | cancelRequest t id =>
      obtain ⟨calls, same⟩ := Option.ite_none_right_eq_some.mp stepped
      cases same
      exact .cancelRequest id (calls_free calls)
  | handle t id ec buf =>
      cases pending : (s.session id).pending with
      | none => simp [step, pending] at stepped
      | some op =>
        simp only [step, pending] at stepped
        obtain ⟨⟨_, here⟩, same⟩ := Option.ite_none_right_eq_some.mp stepped
        cases same
        exact .handle id op ec buf here pending
  | proceed t => exact proceed_did stepped

/-! What is where. -/

def Control.makes (id : Id) (c : Control Id) : Bool :=
  match c.place with
  | .insert i | .inserted i | .check i _ | .erase i _ | .erased i _ => decide (i = id)
  | _ => false

def Place.inHandler : Place Id → Bool
  | .check _ _ | .release _ | .erase _ _ | .erased _ _ => true
  | _ => false

def Control.Gone (id : Id) (c : Control Id) : Prop :=
  (∃ locked, c.place = .erased id locked) ∨ ∃ locked, c.callback = some (id, locked)

def Place.cancels (id : Id) (place : Place Id) : Prop := place = .cancel id ∨ place = .cancelled id

/-- What makes the callback come is one thing at a time: a thread, an operation, the callback. -/
def Life (calls : Nat) (control : Thread → Control Id) (id : Id) (pending : Option Op)
    (requested : Bool) : Prop :=
  ∃ maker, Owned control (Control.makes id) maker ∧
    calls + pending.isSome.toNat + maker.isSome.toNat = requested.toNat

/-- `calls` counts the callbacks so far. -/
structure Inv (calls : Id → Nat) (s : State Thread Id) : Prop where
  active : Owned s.control Control.hasActiveSessions s.activeSessionsGuard
  cancel : ∀ id, Owned s.control (Control.hasCancel id) (s.cancelGuard id)
  life : ∀ id, Life (calls id) s.control id (s.session id).pending (s.requested id)
  handler : ∀ t, (s.control t).place.inHandler = true → (s.control t).callback = none
  called : ∀ t id locked, (s.control t).callback = some (id, locked) → calls id = 1
  gone : ∀ t id, (s.control t).Gone id → s.activeSessions id = false
  found : ∀ t id, (s.control t).place.cancels id → s.activeSessions id = true
  unseen : ∀ t id, (s.control t).place = .release id → (s.session id).wasCancelled = false
  seen : ∀ t id, (s.control t).place = .erase id true → (s.session id).wasCancelled = true

def Event.calls (id : Id) : Event Id → Nat
  | .callback i _ _ => if i = id then 1 else 0
  | .quiet => 0

omit [DecidableEq Id] in
theorem completed_wants (id : Id) (op : Op) (ec : Ec) :
    Place.completed id op ec = .erase id false ∨ ∃ next, Place.completed id op ec = .check id next := by
  unfold Place.completed
  split
  · exact Or.inl rfl
  · cases op with
    | connect => exact Or.inr ⟨.write, rfl⟩
    | write => exact Or.inr ⟨.read, rfl⟩
    | read => exact Or.inl rfl

theorem completed_pending (session : Session) (op : Op) (ec : Ec) (buf : List UInt8) :
    (session.completed op ec buf).pending = none ∧
      (session.completed op ec buf).wasCancelled = session.wasCancelled := by
  unfold Session.completed
  split
  · exact ⟨rfl, rfl⟩
  · split <;> exact ⟨rfl, rfl⟩

omit [DecidableEq Id] in
theorem has_active_at {c : Control Id} {place : Place Id} (here : c.place = place) :
    c.hasActiveSessions = (⟨place, none⟩ : Control Id).hasActiveSessions := by
  subst here
  rfl

theorem did_active {calls : Id → Nat} {s after : State Thread Id} {t : Thread} {event : Event Id}
    (inv : Inv calls s) (did : Did s t after event) :
    Owned after.control Control.hasActiveSessions after.activeSessionsGuard := by
  have owned := inv.active
  cases did with
  | request id here _ => exact owned.moves t _ (has_active_at here).symm
  | cancelRequest id here => exact owned.moves t _ (has_active_at here).symm
  | handle id op ec buf here _ =>
      refine owned.moves t _ ?_
      rw [here]
      rcases completed_wants id op ec with same | ⟨next, same⟩ <;> rw [has_active_at same] <;> rfl
  | insert id here free => exact (free ▸ owned).locks t _ rfl
  | connect id here => exact owned.unlocks t _ (has_active_at here) rfl
  | found id here free _ => exact (free ▸ owned).locks t _ rfl
  | missed id here free _ => exact (free ▸ owned).locks t _ rfl
  | cancel id here _ => exact owned.moves t _ (has_active_at here).symm
  | cancelled id here => exact owned.moves t _ (has_active_at here).symm
  | leave here => exact owned.unlocks t _ (has_active_at here) rfl
  | stop id next here _ _ => exact owned.moves t _ (has_active_at here).symm
  | next id next here _ _ => exact owned.moves t _ (has_active_at here).symm
  | release id here => exact owned.moves t _ (has_active_at here).symm
  | erase id locked here free => exact (free ▸ owned).locks t _ rfl
  | erased id locked here => exact owned.unlocks t _ (has_active_at here) rfl
  | return_ id here => exact owned.moves t _ (by rw [here]; rfl)
  | unlock id here => exact owned.moves t _ (by rw [here]; rfl)

theorem go_has_cancel {id : Id} {c : Control Id} {place old : Place Id} (here : c.place = old)
    (same : place.hasCancel id = old.hasCancel id) :
    ({ c with place := place } : Control Id).hasCancel id = c.hasCancel id := by
  rw [Control.hasCancel, Control.hasCancel, here, same]

omit [DecidableEq Id] in
theorem has_active_places {c : Control Id} (has : c.hasActiveSessions = true) :
    (∃ id, c.place = .inserted id) ∨ (∃ id, c.place = .cancel id) ∨ (∃ id, c.place = .cancelled id) ∨
      c.place = .leave ∨ ∃ id locked, c.place = .erased id locked := by
  unfold Control.hasActiveSessions at has
  split at has <;> rename_i here <;> simp [here] at has ⊢

theorem has_cancel_places {id : Id} {c : Control Id} (has : c.hasCancel id = true) :
    c.place = .cancelled id ∨ c.place = .release id ∨ c.place = .erase id true ∨
      c.place = .erased id true ∨ c.callback = some (id, true) := by
  rcases Bool.or_eq_true_iff.mp has with place | callback
  · unfold Place.hasCancel at place
    split at place <;> rename_i here <;> simp at place <;> simp [here, place]
  · exact Or.inr (Or.inr (Or.inr (Or.inr (of_decide_eq_true callback))))

theorem cancel_locks {control : Thread → Control Id} {guard : Id → Option Thread} {t : Thread}
    {id : Id} {place old : Place Id} (owned : ∀ i, Owned control (Control.hasCancel i) (guard i))
    (free : guard id = none) (here : (control t).place = old)
    (has : ∀ i, place.hasCancel i = decide (id = i)) (had : ∀ i, old.hasCancel i = false) (i : Id) :
    Owned (Function.update control t { control t with place := place }) (Control.hasCancel i)
      (Function.update guard id (some t) i) := by
  by_cases same : i = id
  · subst same
    rw [Function.update_self]
    refine (free ▸ owned i).locks t _ ?_
    simp [Control.hasCancel, has]
  · rw [Function.update_of_ne same]
    refine (owned i).moves t _ (go_has_cancel here ?_)
    rw [has, had]
    exact decide_eq_false (Ne.symm same)

theorem cancel_unlocks {control : Thread → Control Id} {guard : Id → Option Thread} {t : Thread}
    {id : Id} {c : Control Id} (owned : ∀ i, Owned control (Control.hasCancel i) (guard i))
    (had : (control t).hasCancel id = true) (now : c.hasCancel id = false)
    (others : ∀ i, i ≠ id → c.hasCancel i = (control t).hasCancel i) (i : Id) :
    Owned (Function.update control t c) (Control.hasCancel i) (Function.update guard id none i) := by
  by_cases same : i = id
  · subst same
    rw [Function.update_self]
    exact (owned i).unlocks t _ had now
  · rw [Function.update_of_ne same]
    exact (owned i).moves t _ (others i same)

theorem did_cancel {calls : Id → Nat} {s after : State Thread Id} {t : Thread} {event : Event Id}
    (inv : Inv calls s) (did : Did s t after event) (i : Id) :
    Owned after.control (Control.hasCancel i) (after.cancelGuard i) := by
  have owned := inv.cancel
  cases did with
  | request id here _ => exact (owned i).moves t _ (go_has_cancel here rfl)
  | cancelRequest id here => exact (owned i).moves t _ (go_has_cancel here rfl)
  | handle id op ec buf here _ =>
      refine (owned i).moves t _ (go_has_cancel (congrArg Control.place here) ?_)
      rcases completed_wants id op ec with same | ⟨next, same⟩ <;> rw [same] <;> rfl
  | insert id here _ => exact (owned i).moves t _ (go_has_cancel here rfl)
  | connect id here => exact (owned i).moves t _ (go_has_cancel here rfl)
  | found id here _ _ => exact (owned i).moves t _ (go_has_cancel here rfl)
  | missed id here _ _ => exact (owned i).moves t _ (go_has_cancel here rfl)
  | cancel id here free => exact cancel_locks owned free here (fun _ => rfl) (fun _ => rfl) i
  | cancelled id here =>
      -- a request in its callback has left the map, so it is not the one that is cancelled
      have apart : (s.control t).callback ≠ some (id, true) := by
        intro callback
        have gone := inv.gone t id (Or.inr ⟨true, callback⟩)
        rw [inv.found t id (Or.inr here)] at gone
        cases gone
      refine cancel_unlocks owned ?_ ?_ ?_ i
      · simp [Control.hasCancel, here, Place.hasCancel]
      · simp [Control.hasCancel, Place.hasCancel, apart]
      · intro j other
        simp [Control.hasCancel, here, Place.hasCancel, Ne.symm other]
  | leave here => exact (owned i).moves t _ (go_has_cancel here rfl)
  | stop id next here free _ => exact cancel_locks owned free here (fun _ => rfl) (fun _ => rfl) i
  | next id next here free _ => exact cancel_locks owned free here (fun _ => rfl) (fun _ => rfl) i
  | release id here =>
      have none_ := inv.handler t (by rw [here]; rfl)
      refine cancel_unlocks owned ?_ ?_ ?_ i
      · simp [Control.hasCancel, here, Place.hasCancel]
      · simp [Control.hasCancel, Place.hasCancel, none_]
      · intro j other
        simp [Control.hasCancel, here, Place.hasCancel, Ne.symm other]
  | erase id locked here _ => exact (owned i).moves t _ (go_has_cancel here rfl)
  | erased id locked here =>
      have none_ := inv.handler t (by rw [here]; rfl)
      refine (owned i).moves t _ ?_
      simp [Control.hasCancel, here, Place.hasCancel, none_, Bool.and_comm]
  | return_ id here =>
      refine (owned i).moves t _ ?_
      simp [Control.hasCancel, here, Place.hasCancel]
  | unlock id here =>
      refine cancel_unlocks owned ?_ ?_ ?_ i
      · simp [Control.hasCancel, here]
      · simp [Control.hasCancel, Place.hasCancel]
      · intro j other
        simp [Control.hasCancel, here, Place.hasCancel, Ne.symm other]

theorem makes_at {id : Id} {c : Control Id} {place : Place Id} (here : c.place = place) :
    c.makes id = (⟨place, none⟩ : Control Id).makes id := by
  subst here
  rfl

theorem makes_other {id i : Id} {c : Control Id} {place : Place Id} (here : c.place = place)
    (other : i ≠ id) (at_ : place = .free ∨ place = .insert id ∨ place = .inserted id ∨
      (∃ next, place = .check id next) ∨ (∃ locked, place = .erase id locked) ∨
      (∃ locked, place = .erased id locked) ∨ place = .release id) : c.makes i = false := by
  rw [makes_at here]
  have differ : decide (id = i) = false := decide_eq_false (Ne.symm other)
  rcases at_ with rfl | rfl | rfl | ⟨_, rfl⟩ | ⟨_, rfl⟩ | ⟨_, rfl⟩ | rfl <;>
    first | rfl | exact differ

omit [DecidableEq Thread] in
theorem Life.one {calls : Nat} {control : Thread → Control Id} {id : Id} {pending : Option Op}
    {requested : Bool} (life : Life calls control id pending requested) {t : Thread}
    (makes : (control t).makes id = true) :
    calls = 0 ∧ pending = none ∧ requested = true ∧ Owned control (Control.makes id) (some t) := by
  obtain ⟨maker, owned, balance⟩ := life
  have same : maker = some t := (owned t).mp makes
  subst same
  cases pending <;> cases requested <;> simp at balance
  exact ⟨balance, rfl, rfl, owned⟩

theorem Life.ends {calls now : Nat} {control : Thread → Control Id} {id : Id}
    {pending started : Option Op} {requested : Bool}
    (life : Life calls control id pending requested) {t : Thread} {c : Control Id}
    (had : (control t).makes id = true) (out : c.makes id = false)
    (next : calls = 0 → pending = none → now + started.isSome.toNat = 1) :
    Life now (Function.update control t c) id started requested := by
  obtain ⟨none_, idle, rfl, owned⟩ := life.one had
  exact ⟨none, owned.unlocks t c had out, by simp [next none_ idle]⟩

theorem did_life {calls : Id → Nat} {s after : State Thread Id} {t : Thread} {event : Event Id}
    (inv : Inv calls s) (did : Did s t after event) (i : Id) :
    Life (calls i + event.calls i) after.control i (after.session i).pending (after.requested i) := by
  have life := inv.life i
  have ⟨maker, owned, balance⟩ := life
  cases did with
  | request id here new =>
      by_cases same : i = id
      · subst same
        -- a new id has nobody who makes its request yet
        have none_ : maker = none := by
          cases maker with
          | none => rfl
          | some _ => simp [new] at balance
        subst none_
        refine ⟨some t, owned.locks t _ (decide_eq_true rfl), ?_⟩
        simp [new] at balance
        simp [State.setSession, Session.new, Event.calls, balance]
      · refine ⟨maker, owned.moves t _ ?_, ?_⟩
        · rw [makes_other here same (by simp)]
          exact decide_eq_false (Ne.symm same)
        · simpa [State.setSession, State.go, Event.calls, same] using balance
  | cancelRequest id here => exact ⟨maker, owned.moves t _ (makes_at here).symm, balance⟩
  | handle id op ec buf here pending =>
      have free : (s.control t).place = .free := by rw [here]
      have place : ∃ next, Place.completed id op ec = .check id next ∨
          Place.completed id op ec = .erase id false := by
        rcases completed_wants id op ec with same | ⟨next, same⟩
        · exact ⟨op, Or.inr same⟩
        · exact ⟨next, Or.inl same⟩
      obtain ⟨next, place⟩ := place
      by_cases same : i = id
      · subst same
        -- the pending operation is the one share of the balance; the handler takes it over
        have none_ : maker = none ∧ calls i = 0 ∧ s.requested i = true := by
          rw [pending] at balance
          cases maker <;> cases requested : s.requested i <;> simp [requested] at balance
          exact ⟨rfl, balance, rfl⟩
        obtain ⟨rfl, none_, requested⟩ := none_
        refine ⟨some t, owned.locks t _ ?_, ?_⟩
        · rcases place with at_ | at_ <;> rw [makes_at at_] <;> exact decide_eq_true rfl
        · simp [State.setSession, State.go, Event.calls, none_, requested, completed_pending]
      · refine ⟨maker, owned.moves t _ ?_, ?_⟩
        · rw [makes_other free same (by simp)]
          rcases place with at_ | at_ <;> rw [makes_at at_] <;> exact decide_eq_false (Ne.symm same)
        · simpa [State.setSession, State.go, Event.calls, same] using balance
  | insert id here _ => exact ⟨maker, owned.moves t _ (makes_at here).symm, balance⟩
  | connect id here =>
      by_cases same : i = id
      · subst same
        have had : (s.control t).makes i = true := (makes_at here).trans (decide_eq_true rfl)
        exact life.ends had rfl fun none_ _ => by
          simp [State.setSession, State.go, Event.calls, none_]
      · refine ⟨maker, owned.moves t _ ?_, ?_⟩
        · rw [makes_other here same (by simp)]
          rfl
        · simpa [State.setSession, State.go, Event.calls, same] using balance
  | found id here _ _ => exact ⟨maker, owned.moves t _ (makes_at here).symm, balance⟩
  | missed id here _ _ => exact ⟨maker, owned.moves t _ (makes_at here).symm, balance⟩
  | cancel id here _ =>
      refine ⟨maker, owned.moves t _ (makes_at here).symm, ?_⟩
      by_cases same : i = id
      · subst same
        simpa [State.setSession, State.setCancelGuard, State.go, Event.calls] using balance
      · simpa [State.setSession, State.setCancelGuard, State.go, Event.calls, same] using balance
  | cancelled id here => exact ⟨maker, owned.moves t _ (makes_at here).symm, balance⟩
  | leave here => exact ⟨maker, owned.moves t _ (makes_at here).symm, balance⟩
  | stop id next here _ _ => exact ⟨maker, owned.moves t _ (makes_at here).symm, balance⟩
  | next id next here _ _ =>
      by_cases same : i = id
      · subst same
        have had : (s.control t).makes i = true := (makes_at here).trans (decide_eq_true rfl)
        exact life.ends had rfl fun none_ _ => by
          simp [State.setSession, State.setCancelGuard, State.go, Event.calls, none_]
      · refine ⟨maker, owned.moves t _ ?_, ?_⟩
        · rw [makes_other here same (by simp)]
          rfl
        · simpa [State.setSession, State.setCancelGuard, State.go, Event.calls, same] using balance
  | release id here => exact ⟨maker, owned.moves t _ (makes_at here).symm, balance⟩
  | erase id locked here _ => exact ⟨maker, owned.moves t _ (makes_at here).symm, balance⟩
  | erased id locked here =>
      by_cases same : i = id
      · subst same
        have had : (s.control t).makes i = true := (makes_at here).trans (decide_eq_true rfl)
        exact life.ends had rfl fun none_ idle => by
          simp [Event.calls, none_, idle]
      · refine ⟨maker, owned.moves t _ ?_, ?_⟩
        · rw [makes_other here same (by simp)]
          rfl
        · simpa [Event.calls, Ne.symm same] using balance
  | return_ id here => exact ⟨maker, owned.moves t _ (by rw [here]; rfl), balance⟩
  | unlock id here => exact ⟨maker, owned.moves t _ (by rw [here]; rfl), balance⟩

theorem did_control {s after : State Thread Id} {t : Thread} {event : Event Id}
    (did : Did s t after event) (u : Thread) (other : u ≠ t) : after.control u = s.control u := by
  cases did <;> exact Function.update_of_ne other _ _

theorem did_handler {calls : Id → Nat} {s after : State Thread Id} {t : Thread} {event : Event Id}
    (inv : Inv calls s) (did : Did s t after event) (u : Thread)
    (here : (after.control u).place.inHandler = true) : (after.control u).callback = none := by
  by_cases same : u = t
  · subst same
    cases did with
    | handle id op ec buf free _ => simp [State.setSession, State.go, free]
    | stop id next at_ _ _ | next id next at_ _ _ =>
        simpa [State.setSession, State.setCancelGuard, State.go] using
          inv.handler u (by rw [at_]; rfl)
    | erase id locked at_ _ => simpa [State.go] using inv.handler u (by rw [at_]; rfl)
    | request id _ _ | cancelRequest id _ | insert id _ _ | connect id _ | found id _ _ _
    | missed id _ _ _ | cancel id _ _ | cancelled id _ | leave _ | release id _ | erased id locked _
    | return_ id _ | unlock id _ =>
        simp [State.setSession, State.setCancelGuard, State.go, Place.inHandler] at here
  · rw [did_control did u same] at here ⊢
    exact inv.handler u here

theorem did_event {s after : State Thread Id} {t : Thread} {event : Event Id}
    (did : Did s t after event) (i : Id) :
    event.calls i = 0 ∨ event.calls i = 1 ∧ ∃ locked, (s.control t).place = .erased i locked := by
  cases did with
  | erased id locked here =>
      by_cases same : id = i
      · subst same
        exact Or.inr ⟨if_pos rfl, locked, here⟩
      · exact Or.inl (if_neg same)
  | _ => exact Or.inl rfl

theorem did_callback {s after : State Thread Id} {t : Thread} {event : Event Id} {u : Thread}
    {id : Id} {locked : Bool} (did : Did s t after event)
    (here : (after.control u).callback = some (id, locked)) :
    (s.control u).callback = some (id, locked) ∨ u = t ∧ (s.control t).place = .erased id locked ∧
      event.calls id = 1 := by
  by_cases same : u = t
  · subst same
    cases did with
    | erased i lock at_ =>
        simp only [Function.update_self, Option.some.injEq, Prod.mk.injEq] at here
        obtain ⟨rfl, rfl⟩ := here
        exact Or.inr ⟨rfl, at_, if_pos rfl⟩
    | handle i op ec buf free _ =>
        simp [State.setSession, State.go, free] at here
    | return_ i _ | unlock i _ => simp [State.setCancelGuard] at here
    | _ =>
        refine Or.inl ?_
        simpa [State.setSession, State.setCancelGuard, State.go] using here
  · rw [did_control did u same] at here
    exact Or.inl here

theorem did_map {s after : State Thread Id} {t : Thread} {event : Event Id}
    (did : Did s t after event) :
    (after.activeSessions = s.activeSessions ∧ ∀ id locked, (s.control t).place ≠ .erase id locked) ∨
    (∃ id, (s.control t).place = .insert id ∧
      after.activeSessions = Function.update s.activeSessions id true) ∨
    ∃ id locked, (s.control t).place = .erase id locked ∧ s.activeSessionsGuard = none ∧
      after.activeSessions = Function.update s.activeSessions id false := by
  cases did with
  | insert id here _ => exact Or.inr (Or.inl ⟨id, here, rfl⟩)
  | erase id locked here free => exact Or.inr (Or.inr ⟨id, locked, here, free, rfl⟩)
  | handle _ _ _ _ here _ | return_ _ here | unlock _ here =>
      exact Or.inl ⟨rfl, by simp [here]⟩
  | request _ here _ | cancelRequest _ here | connect _ here | found _ here _ _ | missed _ here _ _
  | cancel _ here _ | cancelled _ here | leave here | stop _ _ here _ _ | next _ _ here _ _
  | release _ here | erased _ _ here =>
      exact Or.inl ⟨rfl, by simp [here]⟩

theorem did_flag {s after : State Thread Id} {t : Thread} {event : Event Id}
    (did : Did s t after event) (i : Id) :
    (after.session i).wasCancelled = (s.session i).wasCancelled ∨
    ((after.session i).wasCancelled = false ∧ s.requested i = false) ∨
    (after.session i).wasCancelled = true ∧ (s.control t).place = .cancel i ∧
      s.cancelGuard i = none := by
  cases did with
  | request id _ new =>
      by_cases same : i = id
      · subst same
        exact Or.inr (Or.inl ⟨by simp [State.setSession, Session.new], new⟩)
      · exact Or.inl (by simp [State.setSession, State.go, same])
  | handle id op ec buf _ _ =>
      by_cases same : i = id
      · subst same
        exact Or.inl (by simp [State.setSession, State.go, completed_pending])
      · exact Or.inl (by simp [State.setSession, State.go, same])
  | cancel id here free =>
      by_cases same : i = id
      · subst same
        exact Or.inr (Or.inr ⟨by simp [State.setSession], here, free⟩)
      · exact Or.inl (by simp [State.setSession, State.setCancelGuard, State.go, same])
  | connect id _ | next id _ _ _ _ =>
      by_cases same : i = id
      · subst same
        exact Or.inl (by simp [State.setSession, State.setCancelGuard, State.go])
      · exact Or.inl (by simp [State.setSession, State.setCancelGuard, State.go, same])
  | _ => exact Or.inl rfl

theorem did_called {calls : Id → Nat} {s after : State Thread Id} {t : Thread} {event : Event Id}
    (inv : Inv calls s) (did : Did s t after event) (u : Thread) (id : Id) (locked : Bool)
    (here : (after.control u).callback = some (id, locked)) : calls id + event.calls id = 1 := by
  have makes (lock : Bool) (at_ : (s.control t).place = .erased id lock) : calls id = 0 :=
    ((inv.life id).one ((makes_at at_).trans (decide_eq_true rfl))).1
  rcases did_callback did here with before | ⟨_, at_, once⟩
  · have one := inv.called u id locked before
    rcases did_event did id with none_ | ⟨_, lock, at_⟩
    · rw [one, none_]
    · rw [makes lock at_] at one
      cases one
  · rw [makes locked at_, once]

theorem did_gone {calls : Id → Nat} {s after : State Thread Id} {t : Thread} {event : Event Id}
    (inv : Inv calls s) (did : Did s t after event) (u : Thread) (id : Id)
    (here : (after.control u).Gone id) : after.activeSessions id = false := by
  have before : (s.control u).Gone id ∨ u = t ∧ ∃ locked, (s.control t).place = .erase id locked := by
    rcases here with ⟨locked, at_⟩ | ⟨locked, callback⟩
    · by_cases same : u = t
      · subst same
        cases did with
        | erase i lock free _ =>
            simp only [State.go, Function.update_self, Place.erased.injEq] at at_
            obtain ⟨rfl, rfl⟩ := at_
            exact Or.inr ⟨rfl, lock, free⟩
        | handle i op ec buf free _ =>
            simp only [State.setSession, State.go, Function.update_self] at at_
            rcases completed_wants i op ec with other | ⟨_, other⟩ <;> rw [other] at at_ <;> cases at_
        | _ => simp [State.setSession, State.setCancelGuard, State.go] at at_
      · rw [did_control did u same] at at_
        exact Or.inl (Or.inl ⟨locked, at_⟩)
    · rcases did_callback did callback with before | ⟨rfl, at_, _⟩
      · exact Or.inl (Or.inr ⟨locked, before⟩)
      · exact Or.inl (Or.inl ⟨locked, at_⟩)
  rcases did_map did with ⟨same, other⟩ | ⟨i, inserts, same⟩ | ⟨i, lock, erases, _, same⟩ <;> rw [same]
  · rcases before with gone | ⟨_, locked, at_⟩
    · exact inv.gone u id gone
    · exact absurd at_ (other id locked)
  · rcases before with gone | ⟨_, locked, at_⟩
    · have differ : id ≠ i := by
        rintro rfl
        have one := (inv.life id).one ((makes_at inserts).trans (decide_eq_true rfl))
        rcases gone with ⟨locked, at_⟩ | ⟨locked, callback⟩
        · have same := one.2.2.2.unique ((makes_at at_).trans (decide_eq_true rfl))
            ((makes_at inserts).trans (decide_eq_true rfl))
          rw [same, inserts] at at_
          cases at_
        · have called := inv.called u id locked callback
          rw [one.1] at called
          cases called
      rw [Function.update_of_ne differ]
      exact inv.gone u id gone
    · rw [inserts] at at_
      cases at_
  · by_cases here : id = i
    · rw [here, Function.update_self]
    · rw [Function.update_of_ne here]
      rcases before with gone | ⟨_, locked, at_⟩
      · exact inv.gone u id gone
      · rw [erases] at at_
        cases at_
        exact absurd rfl here

theorem did_cancels {s after : State Thread Id} {t : Thread} {event : Event Id} {u : Thread} {id : Id}
    (did : Did s t after event) (here : (after.control u).place.cancels id) :
    (s.control u).place.cancels id ∨ u = t ∧ (s.control t).place = .find id ∧
      s.activeSessions id = true := by
  by_cases same : u = t
  · subst same
    cases did with
    | found i at_ free active =>
        simp only [State.go, Function.update_self] at here
        rcases here with now | now <;> cases now
        exact Or.inr ⟨rfl, at_, active⟩
    | cancel i at_ _ =>
        simp only [State.setSession, State.setCancelGuard, State.go, Function.update_self] at here
        rcases here with now | now <;> cases now
        exact Or.inl (Or.inl at_)
    | handle i op ec buf at_ _ =>
        simp only [State.setSession, State.go, Function.update_self] at here
        rcases completed_wants i op ec with other | ⟨_, other⟩ <;> rw [other] at here <;>
          rcases here with now | now <;> cases now
    | _ => simp [State.setSession, State.setCancelGuard, State.go, Place.cancels] at here
  · rw [did_control did u same] at here
    exact Or.inl here

omit [DecidableEq Thread] [DecidableEq Id] in
theorem cancels_has {c : Control Id} {id : Id} (here : c.place.cancels id) :
    c.hasActiveSessions = true := by
  rcases here with at_ | at_ <;> rw [has_active_at at_] <;> rfl

theorem did_found {calls : Id → Nat} {s after : State Thread Id} {t : Thread} {event : Event Id}
    (inv : Inv calls s) (did : Did s t after event) (u : Thread) (id : Id)
    (here : (after.control u).place.cancels id) : after.activeSessions id = true := by
  have before := did_cancels did here
  rcases did_map did with ⟨same, _⟩ | ⟨i, _, same⟩ | ⟨i, lock, erases, free, same⟩ <;> rw [same]
  · rcases before with cancels | ⟨_, _, active⟩
    · exact inv.found u id cancels
    · exact active
  · by_cases one : id = i
    · rw [one, Function.update_self]
    · rw [Function.update_of_ne one]
      rcases before with cancels | ⟨_, _, active⟩
      · exact inv.found u id cancels
      · exact active
  · -- the one that erases has the guard, so no other thread is behind its find
    rcases before with cancels | ⟨_, finds, _⟩
    · have owner := (inv.active u).mp (cancels_has cancels)
      rw [free] at owner
      cases owner
    · rw [erases] at finds
      cases finds

theorem did_unseen {calls : Id → Nat} {s after : State Thread Id} {t : Thread} {event : Event Id}
    (inv : Inv calls s) (did : Did s t after event) (u : Thread) (id : Id)
    (here : (after.control u).place = .release id) : (after.session id).wasCancelled = false := by
  have before : (s.control u).place = .release id ∨ (after.session id).wasCancelled = false := by
    by_cases same : u = t
    · subst same
      cases did with
      | next i next at_ _ unseen =>
          simp only [State.setSession, State.setCancelGuard, State.go, Function.update_self,
            Place.release.injEq] at here
          subst here
          exact Or.inr (by simpa [State.setSession, State.setCancelGuard, State.go] using unseen)
      | handle i op ec buf at_ _ =>
          simp only [State.setSession, State.go, Function.update_self] at here
          rcases completed_wants i op ec with other | ⟨_, other⟩ <;> rw [other] at here <;> cases here
      | _ => simp [State.setSession, State.setCancelGuard, State.go] at here
    · rw [did_control did u same] at here
      exact Or.inl here
  rcases before with at_ | now
  · rcases did_flag did id with same | ⟨now, _⟩ | ⟨_, _, free⟩
    · rw [same]
      exact inv.unseen u id at_
    · exact now
    · have owner := (inv.cancel id u).mp (by simp [Control.hasCancel, at_, Place.hasCancel])
      rw [free] at owner
      cases owner
  · exact now

theorem did_erase {s after : State Thread Id} {t : Thread} {event : Event Id} {u : Thread} {id : Id}
    (did : Did s t after event) (here : (after.control u).place = .erase id true) :
    (u ≠ t ∧ (s.control u).place = .erase id true) ∨
      (u = t ∧ (∃ next, (s.control t).place = .check id next) ∧
        (s.session id).wasCancelled = true ∧ (after.session id).wasCancelled = true) := by
  by_cases same : u = t
  · subst same
    cases did with
    | stop i next at_ _ seen =>
        simp only [State.setCancelGuard, State.go, Function.update_self, Place.erase.injEq,
          and_true] at here
        subst here
        exact Or.inr ⟨rfl, ⟨next, at_⟩, seen, seen⟩
    | handle i op ec buf at_ _ =>
        simp only [State.setSession, State.go, Function.update_self] at here
        rcases completed_wants i op ec with other | ⟨_, other⟩ <;> rw [other] at here <;> cases here
    | _ => simp [State.setSession, State.setCancelGuard, State.go] at here
  · rw [did_control did u same] at here
    exact Or.inl ⟨same, here⟩

theorem did_seen {calls : Id → Nat} {s after : State Thread Id} {t : Thread} {event : Event Id}
    (inv : Inv calls s) (did : Did s t after event) (u : Thread) (id : Id)
    (here : (after.control u).place = .erase id true) : (after.session id).wasCancelled = true := by
  rcases did_erase did here with ⟨_, at_⟩ | ⟨_, _, _, now⟩
  · rcases did_flag did id with same | ⟨_, new⟩ | ⟨now, _⟩
    · rw [same]
      exact inv.seen u id at_
    · have one := (inv.life id).one ((makes_at at_).trans (decide_eq_true rfl))
      rw [one.2.2.1] at new
      cases new
    · exact now
  · exact now

theorem did_inv {calls : Id → Nat} {s after : State Thread Id} {t : Thread} {event : Event Id}
    (inv : Inv calls s) (did : Did s t after event) :
    Inv (fun id => calls id + event.calls id) after where
  active := did_active inv did
  cancel := did_cancel inv did
  life := did_life inv did
  handler := did_handler inv did
  called := did_called inv did
  gone := did_gone inv did
  found := did_found inv did
  unseen := did_unseen inv did
  seen := did_seen inv did

end NetworkProgramming.AsyncTcpClient
