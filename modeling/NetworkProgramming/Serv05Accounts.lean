import NetworkProgramming.Serv05
import NetworkProgramming.Threads

/-!
The accounts of the preforked server: `child_status` is what the child has of
the last connection given to it (the connection itself on its way down or in
service, or the byte that says it is done), so `navail` counts the children
that have nothing. The account takes every byte on the way up for such a byte:
it is right in the runs in which no web_child writes an error message.
-/

namespace NetworkProgramming.Serv05

open CText

variable {nchildren : Nat}

abbrev Trace (nchildren : Nat) := List (Step nchildren)

/-- The connection in service; a child that exits there never finishes it. -/
def Child.serving (c : Child) : Nat :=
  match c.place with
  | .readFd | .write => 0
  | .readline _ | .writen _ _ | .exit _ | .exited _ => 1

def Child.unfinished (c : Child) : Nat := c.down.length + c.serving

def Child.bytes (c : Child) : Nat := c.up + if c.place = .write then 1 else 0

def Place.passing (i : Fin nchildren) : Place nchildren → Nat
  | .writeFd j _ _ _ => if j = i then 1 else 0
  | _ => 0

def Place.inHand (conn : Nat) : Place nchildren → Nat
  | .writeFd _ connfd _ _ => if connfd = conn then 1 else 0
  | _ => 0

def passes (trace : Trace nchildren) (conn : Nat) : Nat :=
  trace.countP fun e => match e.output with
    | .passed _ connfd => connfd = conn
    | _ => false

def wrote (trace : Trace nchildren) (i : Fin nchildren) : Nat :=
  trace.countP fun e => e.output = .wrote i

def freed (trace : Trace nchildren) (i : Fin nchildren) : Nat :=
  trace.countP fun e => e.output = .freed i

def Child.ready (c : Child) : Bool := decide (c.childStatus = 0)

def readyChildren (s : State nchildren) : Nat := Threads.count s.child Child.ready

def Orderly : Action nchildren → Prop
  | .web _ (.line line) => 0 < ntowrite line ∧ ntowrite line ≤ MAXN
  | .web _ (.readError _) | .web _ (.writeError _) => False
  | _ => True

instance (action : Action nchildren) : Decidable (Orderly action) := by
  unfold Orderly
  split <;> infer_instance

/-- What a child has is its status. -/
structure Sound (s : State nchildren) : Prop where
  navail : s.navail = readyChildren s
  status : ∀ i, (s.child i).unfinished + (s.child i).bytes + s.place.passing i =
    (s.child i).childStatus
  binary : ∀ i, (s.child i).childStatus ≤ 1
  listening : ∀ rset nsel, s.place = .test rset nsel → rset.listenfd = true → 0 < s.navail
  found : s.place ≠ .noAvailable

theorem Place.Idle.passing {place : Place nchildren} (idle : place.Idle) (i : Fin nchildren) :
    place.passing i = 0 := by
  obtain rfl | ⟨_, _, _, rfl⟩ := idle <;> rfl

theorem Place.Idle.in_hand {place : Place nchildren} (idle : place.Idle) (conn : Nat) :
    place.inHand conn = 0 := by
  obtain rfl | ⟨_, _, _, rfl⟩ := idle <;> rfl

theorem Place.Idle.not_test {place : Place nchildren} (idle : place.Idle)
    (rset : FdSet nchildren) (nsel : Int) : place ≠ .test rset nsel := by
  obtain rfl | ⟨_, _, _, rfl⟩ := idle <;> simp

theorem Place.Idle.found {place : Place nchildren} (idle : place.Idle) :
    place ≠ .noAvailable := by
  obtain rfl | ⟨_, _, _, rfl⟩ := idle <;> simp

theorem available_status (s : State nchildren) (i : Fin nchildren) (found : available s = some i) :
    (s.child i).childStatus = 0 := by
  have test := List.find?_some found
  simpa using test

/-- While `navail` counts the children that are not busy, one of them is found. -/
theorem available_found (s : State nchildren) (left : 0 < readyChildren s) :
    available s ≠ none := by
  intro absent
  obtain ⟨i, ready⟩ := (Threads.count_pos s.child _).mp left
  have test := List.find?_eq_none.mp absent i (List.mem_finRange i)
  exact test ready

theorem Sound.finds {s : State nchildren} (sound : Sound s) (rset : FdSet nchildren) (nsel : Int)
    (here : s.place = .test rset nsel) (listening : rset.listenfd = true) :
    available s ≠ none := by
  have left := sound.listening rset nsel here listening
  have counted := sound.navail
  exact available_found s (by omega)

theorem set_sound (s next : State nchildren) (sound : Sound s) (i : Fin nchildren) (c : Child)
    (place : next.child = Function.update s.child i c)
    (others : ∀ j, j ≠ i → next.place.passing j = s.place.passing j)
    (status : c.unfinished + c.bytes + next.place.passing i = c.childStatus)
    (binary : c.childStatus ≤ 1)
    (navail : next.navail + (s.child i).ready.toNat = s.navail + c.ready.toNat)
    (listening : ∀ rset nsel, next.place = .test rset nsel → rset.listenfd = true →
      0 < next.navail)
    (found : next.place ≠ .noAvailable) : Sound next := by
  constructor
  · have moved := Threads.count_update s.child i c Child.ready
    have before := sound.navail
    rw [readyChildren] at before
    rw [readyChildren, place]
    omega
  · intro j
    rw [place]
    by_cases same : j = i
    · subst j
      rw [Function.update_self]
      exact status
    · rw [Function.update_of_ne same, others j same]
      exact sound.status j
  · intro j
    rw [place]
    by_cases same : j = i
    · subst j
      rw [Function.update_self]
      exact binary
    · rw [Function.update_of_ne same]
      exact sound.binary j
  · exact listening
  · exact found

theorem child_sound (s : State nchildren) (sound : Sound s) (i : Fin nchildren) (c : Child)
    (status : c.childStatus = (s.child i).childStatus)
    (same : c.unfinished + c.bytes = (s.child i).unfinished + (s.child i).bytes) :
    Sound (s.set i c) := by
  refine set_sound s (s.set i c) sound i c rfl (fun _ _ => rfl) ?_ ?_ ?_ sound.listening sound.found
  · rw [status, same]
    exact sound.status i
  · rw [status]
    exact sound.binary i
  · simp [State.set, Child.ready, status]

theorem web_child_keeps (i : Fin nchildren) (c next : Child) (met : Met)
    (went : webChild c met = some next) (orderly : Orderly (.web i met)) :
    next.childStatus = c.childStatus ∧ next.up = c.up ∧
      next.unfinished + next.bytes = c.unfinished + c.bytes := by
  unfold webChild at went
  split at went
  · rename_i conn here
    cases went
    exact ⟨rfl, rfl, by simp only [Child.unfinished, Child.bytes, Child.serving, here, reduceCtorEq,
      if_false, if_true]; omega⟩
  · exact absurd orderly id
  · rename_i conn line here
    have asked : ¬ (ntowrite line ≤ 0 ∨ ntowrite line > MAXN) := by
      obtain ⟨least, most⟩ := orderly
      omega
    rw [if_neg asked] at went
    cases went
    exact ⟨rfl, rfl, by simp only [Child.unfinished, Child.bytes, Child.serving, here, reduceCtorEq]⟩
  · rename_i conn n here
    cases went
    exact ⟨rfl, rfl, by simp only [Child.unfinished, Child.bytes, Child.serving, here, reduceCtorEq]⟩
  · exact absurd orderly id
  · rename_i conn n here
    cases went
    exact ⟨rfl, rfl, by simp only [Child.unfinished, Child.bytes, Child.serving, here, reduceCtorEq]⟩
  · cases went

theorem Child.exited_serving {c : Child} (gone : c.place.Exited) : c.serving = 1 := by
  cases here : c.place with
  | exited conn => simp [Child.serving, here]
  | readFd | readline _ | writen _ _ | write | exit _ =>
      rw [here] at gone
      exact absurd gone id

theorem Sound.not_exited {s : State nchildren} (sound : Sound s) (i : Fin nchildren)
    (connfd : Nat) (rset : FdSet nchildren) (nsel : Int)
    (here : s.place = .writeFd i connfd rset nsel) : ¬ (s.child i).place.Exited := by
  intro gone
  have held := sound.status i
  have least := sound.binary i
  rw [here, Place.passing, if_pos rfl, Child.unfinished, Child.exited_serving gone] at held
  omega

theorem pass_sound (s : State nchildren) (place : Place nchildren) (idle : place.Idle)
    (free : ∀ i connfd rset nsel, s.place ≠ .writeFd i connfd rset nsel) (sound : Sound s) :
    Sound { s with place := place } := by
  refine ⟨sound.navail, ?_, sound.binary, ?_, idle.found⟩
  · intro i
    have before : s.place.passing i = 0 := by
      cases here : s.place with
      | writeFd j connfd rset nsel => exact absurd here (free j connfd rset nsel)
      | _ => rfl
    rw [idle.passing i, ← before]
    exact sound.status i
  · intro rset nsel same
    exact absurd same (idle.not_test rset nsel)

theorem accept_sound (s : State nchildren) (i : Fin nchildren) (rset : FdSet nchildren) (nsel : Int)
    (here : s.place = .test rset nsel) (found : available s = some i) (sound : Sound s) :
    Sound { s.set i { s.child i with childStatus := 1 } with
      navail := s.navail - 1
      accepted := s.accepted + 1
      place := .writeFd i s.accepted rset nsel } := by
  -- a free child has nothing under way
  have nothing := sound.status i
  rw [available_status s i found] at nothing
  apply set_sound s _ sound i _ rfl
  · intro j other
    simp [here, Place.passing, Ne.symm other]
  · simp only [Place.passing, if_pos, Child.unfinished, Child.bytes, Child.serving] at nothing ⊢
    omega
  · exact Nat.le_refl 1
  · simp [Child.ready, available_status s i found]
  · intro rset' nsel' same
    cases same
  · simp

theorem write_fd_sound (s : State nchildren) (i : Fin nchildren) (connfd : Nat)
    (rset : FdSet nchildren) (nsel : Int) (place : Place nchildren)
    (here : s.place = .writeFd i connfd rset nsel) (idle : place.Idle) (sound : Sound s) :
    Sound { s.set i { s.child i with down := (s.child i).down ++ [connfd] } with
      place := place } := by
  -- the descriptor goes from main's hand to the child's pipe
  have held := sound.status i
  rw [here, Place.passing, if_pos rfl] at held
  apply set_sound s _ sound i _ rfl
  · intro j other
    rw [here]
    exact (idle.passing j).trans (if_neg (Ne.symm other)).symm
  · simp only [idle.passing i, Child.unfinished, Child.bytes, Child.serving,
      List.length_append, List.length_singleton] at held ⊢
    omega
  · exact sound.binary i
  · rfl
  · intro rset' nsel' same
    exact absurd same (idle.not_test rset' nsel')
  · exact idle.found

theorem free_sound (s : State nchildren) (i : Fin nchildren) (rset : FdSet nchildren) (nsel : Int)
    (place : Place nchildren) (here : s.place = .scan i rset nsel) (idle : place.Idle)
    (byte : 0 < (s.child i).up) (sound : Sound s) : Sound (free s i place) := by
  -- the byte that main reads is what is left of the child's status
  have held := sound.status i
  have least := sound.binary i
  rw [here] at held
  simp only [Place.passing, Child.bytes] at held
  apply set_sound s _ sound i _ rfl
  · intro j _
    rw [here]
    exact idle.passing j
  · simp only [free, idle.passing i, Child.unfinished, Child.bytes, Child.serving] at held ⊢
    omega
  · exact Nat.zero_le 1
  · have busy : (s.child i).childStatus ≠ 0 := by omega
    simp [free, Child.ready, busy]
  · intro rset' nsel' same
    exact absurd same (idle.not_test rset' nsel')
  · exact idle.found

theorem step_sound (s after : State nchildren) (action : Action nchildren)
    (event : Event nchildren) (effect : Effect s action after event) (orderly : Orderly action)
    (sound : Sound s) : Sound after := by
  cases effect with
  | arrive => exact ⟨sound.navail, sound.status, sound.binary, sound.listening, sound.found⟩
  | select rset here readable =>
      refine ⟨sound.navail, ?_, sound.binary, ?_, by simp⟩
      · simpa [here, Place.passing] using sound.status
      · intro rset' nsel' same listening
        cases same
        exact (readable.1 listening).1
  | pass place idle free => exact pass_sound s place idle free sound
  | noAvailable rset nsel here listening absent =>
      exact absurd absent (sound.finds rset nsel here listening)
  | accept i rset nsel here found => exact accept_sound s i rset nsel here found sound
  | writeFd i connfd rset nsel place here idle =>
      exact write_fd_sound s i connfd rset nsel place here idle sound
  | sigpipe i connfd rset nsel here gone =>
      exact absurd gone (sound.not_exited i connfd rset nsel here)
  | terminated i rset nsel here gone =>
      refine ⟨sound.navail, ?_, sound.binary, by simp, by simp⟩
      simpa [here, Place.passing] using sound.status
  | free i rset nsel place here idle byte =>
      exact free_sound s i rset nsel place here idle byte sound
  | readFd i conn rest here sent =>
      refine child_sound s sound i _ ?_ ?_
      · rfl
      · simp only [Child.unfinished, Child.bytes, Child.serving, here, sent, List.length_cons,
          reduceCtorEq, if_false]
  | write i here =>
      refine child_sound s sound i _ ?_ ?_
      · rfl
      · simp only [Child.unfinished, Child.bytes, Child.serving, here, reduceCtorEq, if_false,
          if_true]
  | exit i conn here =>
      refine child_sound s sound i _ ?_ ?_
      · rfl
      · simp only [Child.unfinished, Child.bytes, Child.serving, here, reduceCtorEq]
  | web i met c went =>
      obtain ⟨status, _, same⟩ := web_child_keeps i (s.child i) c met went orderly
      exact child_sound s sound i c status same

/-! What the steps of a run report. -/

theorem passes_snoc (trace : Trace nchildren) (e : Step nchildren) (conn : Nat) :
    passes (trace ++ [e]) conn = passes trace conn +
      match e.output with
      | .passed _ connfd => if connfd = conn then 1 else 0
      | _ => 0 := by
  rw [passes, List.countP_append, List.countP_singleton, passes]
  cases e.output <;> simp

theorem wrote_snoc (trace : Trace nchildren) (e : Step nchildren) (i : Fin nchildren) :
    wrote (trace ++ [e]) i = wrote trace i + if e.output = .wrote i then 1 else 0 := by
  rw [wrote, List.countP_append, List.countP_singleton, wrote]
  simp

theorem freed_snoc (trace : Trace nchildren) (e : Step nchildren) (i : Fin nchildren) :
    freed (trace ++ [e]) i = freed trace i + if e.output = .freed i then 1 else 0 := by
  rw [freed, List.countP_append, List.countP_singleton, freed]
  simp

def Once (trace : Trace nchildren) (s : State nchildren) : Prop :=
  ∀ conn, passes trace conn + s.place.inHand conn = if conn < s.accepted then 1 else 0

def Told (trace : Trace nchildren) (s : State nchildren) : Prop :=
  ∀ i, wrote trace i = freed trace i + (s.child i).up

theorem step_once (trace : Trace nchildren) (s after : State nchildren)
    (action : Action nchildren) (event : Event nchildren) (effect : Effect s action after event)
    (sound : Sound s) (once : Once trace s) :
    Once (trace ++ [⟨s, action, event, after⟩]) after := by
  intro conn
  have before := once conn
  rw [passes_snoc]
  cases effect with
  | arrive => exact before
  | select rset here readable =>
      rw [here] at before
      exact before
  | pass place idle free =>
      -- outside of writeFd main has no descriptor in hand
      have hand : s.place.inHand conn = 0 := by
        cases here : s.place with
        | writeFd j connfd rset nsel => exact absurd here (free j connfd rset nsel)
        | _ => rfl
      rw [hand] at before
      simpa [idle.in_hand conn] using before
  | noAvailable rset nsel here listening absent =>
      exact absurd absent (sound.finds rset nsel here listening)
  | accept i rset nsel here found =>
      -- the connection accepted has the next number, and goes into the hand of main
      simp only [here, Place.inHand] at before
      simp only [Place.inHand]
      split at before <;> split <;> split <;> omega
  | writeFd i connfd rset nsel place here idle =>
      rw [here] at before
      change passes trace conn + (if connfd = conn then 1 else 0) + place.inHand conn = _
      rw [idle.in_hand conn]
      exact before
  | free i rset nsel place here idle byte =>
      rw [here] at before
      change passes trace conn + 0 + place.inHand conn = _
      rw [idle.in_hand conn]
      exact before
  | sigpipe i connfd rset nsel here gone =>
      exact absurd gone (sound.not_exited i connfd rset nsel here)
  | terminated i rset nsel here gone =>
      rw [here] at before
      exact before
  | readFd i conn rest here sent => exact before
  | write i here => exact before
  | exit i conn here => exact before
  | web i met c went => exact before

/-- One child has changed, and the step reports what became of its bytes. -/
theorem set_told (trace : Trace nchildren) (s next : State nchildren) (e : Step nchildren)
    (i : Fin nchildren) (c : Child) (child : next.child = Function.update s.child i c)
    (quiet : ∀ j, j ≠ i → e.output ≠ .wrote j ∧ e.output ≠ .freed j)
    (up : (s.child i).up + (if e.output = .wrote i then 1 else 0) =
      c.up + if e.output = .freed i then 1 else 0)
    (told : Told trace s) : Told (trace ++ [e]) next := by
  intro j
  have before := told j
  rw [wrote_snoc, freed_snoc, child]
  by_cases same : j = i
  · subst j
    rw [Function.update_self]
    omega
  · rw [Function.update_of_ne same, if_neg (quiet j same).1, if_neg (quiet j same).2]
    omega

theorem step_told (trace : Trace nchildren) (s after : State nchildren)
    (action : Action nchildren) (event : Event nchildren) (effect : Effect s action after event)
    (orderly : Orderly action) (told : Told trace s) :
    Told (trace ++ [⟨s, action, event, after⟩]) after := by
  have still : event = .quiet → after.child = s.child →
      Told (trace ++ [⟨s, action, event, after⟩]) after := by
    rintro rfl same i
    rw [wrote_snoc, freed_snoc, same]
    simpa using told i
  cases effect with
  | arrive => exact still rfl rfl
  | select rset here readable => exact still rfl rfl
  | pass place idle free => exact still rfl rfl
  | noAvailable rset nsel here listening absent => exact still rfl rfl
  | accept i rset nsel here found => exact set_told trace s _ _ i _ rfl (by simp) rfl told
  | writeFd i connfd rset nsel place here idle =>
      exact set_told trace s _ _ i _ rfl (by simp) rfl told
  | free i rset nsel place here idle byte =>
      refine set_told trace s _ _ i _ rfl (by simpa using fun j other => Ne.symm other) ?_ told
      simp only [reduceCtorEq, if_false, if_true]
      omega
  | sigpipe i connfd rset nsel here gone => exact still rfl rfl
  | terminated i rset nsel here gone => exact still rfl rfl
  | readFd i conn rest here sent => exact set_told trace s _ _ i _ rfl (by simp) rfl told
  | write i here =>
      refine set_told trace s _ _ i _ rfl (by simpa using fun j other => Ne.symm other) ?_ told
      simp
  | exit i conn here => exact set_told trace s _ _ i _ rfl (by simp) rfl told
  | web i met c went =>
      obtain ⟨_, up, _⟩ := web_child_keeps i (s.child i) c met went orderly
      exact set_told trace s _ _ i c rfl (by simp) (by simp [up]) told

theorem run_sound (trace : Trace nchildren) (s : State nchildren)
    (run : (machine nchildren).Run trace s) (orderly : ∀ e ∈ trace, Orderly e.action) :
    Sound s ∧ Once trace s ∧ Told trace s := by
  apply run.history (C := fun e => Orderly e.action)
    (I := fun trace s => Sound s ∧ Once trace s ∧ Told trace s)
  · rintro s rfl
    refine ⟨⟨?_, fun i => rfl, fun i => Nat.zero_le 1, by simp [start], by simp [start]⟩,
      fun conn => rfl, fun i => rfl⟩
    have all : readyChildren (start nchildren) = nchildren := by
      simp [readyChildren, Threads.count, Threads.total, start, Child.ready]
    rw [all]
    rfl
  · rintro trace ⟨s, action, event, after⟩ stepped served ⟨sound, once, told⟩
    have effect : Effect s action after event := step_effect s after action event stepped
    exact ⟨step_sound s after action event effect served sound,
      step_once trace s after action event effect sound once,
      step_told trace s after action event effect served told⟩
  · exact orderly

theorem set_status (s next : State nchildren) (i : Fin nchildren) (c : Child)
    (child : next.child = Function.update s.child i c) (j : Fin nchildren) :
    (next.child j).childStatus = if j = i then c.childStatus else (s.child j).childStatus := by
  rw [child]
  by_cases same : j = i
  · subst j
    rw [Function.update_self, if_pos rfl]
  · rw [Function.update_of_ne same, if_neg same]

theorem step_frees (s after : State nchildren) (action : Action nchildren)
    (event : Event nchildren) (effect : Effect s action after event) (orderly : Orderly action)
    (sound : Sound s) (i : Fin nchildren) : event = .freed i ↔
      (s.child i).childStatus ≠ 0 ∧ (after.child i).childStatus = 0 := by
  have other : event ≠ .freed i →
      ((after.child i).childStatus = 0 → (s.child i).childStatus = 0) →
      (event = .freed i ↔ (s.child i).childStatus ≠ 0 ∧ (after.child i).childStatus = 0) :=
    fun quiet kept => ⟨fun same => absurd same quiet, fun change => absurd (kept change.2) change.1⟩
  have kept (next : State nchildren) (j : Fin nchildren) (c : Child)
      (child : next.child = Function.update s.child j c)
      (same : c.childStatus = (s.child j).childStatus) (ready : (next.child i).childStatus = 0) :
      (s.child i).childStatus = 0 := by
    rw [set_status s next j c child i] at ready
    split at ready
    · rename_i here
      rw [here, ← same, ready]
    · exact ready
  cases effect with
  | arrive => exact other (by simp) id
  | select rset here readable => exact other (by simp) id
  | pass place idle free => exact other (by simp) id
  | noAvailable rset nsel here listening absent => exact other (by simp) id
  | accept j rset nsel here found =>
      apply other (by simp)
      rw [set_status s _ j _ rfl i]
      split
      · intro zero
        cases zero
      · exact id
  | free j rset nsel place here idle byte =>
      have held := sound.status j
      rw [set_status s (free s j place) j _ rfl i, Event.freed.injEq]
      constructor
      · rintro rfl
        -- a byte on the way up is there for a busy child only
        refine ⟨?_, if_pos rfl⟩
        rw [Child.bytes] at held
        omega
      · rintro ⟨busy, ready⟩
        by_contra apart
        rw [if_neg (Ne.symm apart)] at ready
        exact busy ready
  | writeFd j connfd rset nsel place here idle => exact other (by simp) (kept _ j _ rfl rfl)
  | sigpipe j connfd rset nsel here gone => exact other (by simp) id
  | terminated j rset nsel here gone => exact other (by simp) id
  | readFd j conn rest here sent => exact other (by simp) (kept _ j _ rfl rfl)
  | write j here => exact other (by simp) (kept _ j _ rfl rfl)
  | exit j conn here => exact other (by simp) (kept _ j _ rfl rfl)
  | web j met c went =>
      exact other (by simp)
        (kept _ j c rfl (web_child_keeps j (s.child j) c met went orderly).1)

/-- Where no web_child reports an error, the accounts of the server hold in every
state of every run. -/
theorem serv05_accounts (trace : Trace nchildren) (s : State nchildren)
    (run : (machine nchildren).Run trace s) (orderly : ∀ e ∈ trace, Orderly e.action) :
    s.navail = readyChildren s ∧
    (∀ i, (s.child i).unfinished ≤ 1) ∧
    (∀ conn, passes trace conn + s.place.inHand conn = if conn < s.accepted then 1 else 0) ∧
    (∀ i, wrote trace i = freed trace i + (s.child i).up) ∧
    (∀ e ∈ trace, ∀ i, e.output = .freed i ↔
      (e.before.child i).childStatus ≠ 0 ∧ (e.after.child i).childStatus = 0) ∧
    s.place ≠ .noAvailable := by
  obtain ⟨sound, once, told⟩ := run_sound trace s run orderly
  refine ⟨sound.navail, ?_, once, told, ?_, sound.found⟩
  · intro i
    have held := sound.status i
    have least := sound.binary i
    omega
  · intro e member i
    obtain ⟨pre, post, rfl⟩ := List.append_of_mem member
    obtain ⟨before, stepped⟩ := run.split
    have earlier := run_sound pre e.before before fun d early =>
      orderly d (List.mem_append_left _ early)
    exact step_frees e.before e.after e.action e.output
      (step_effect e.before e.after e.action e.output stepped) (orderly e member) earlier.1 i

theorem two_connections_passed : ∃ trace s, (machine 2).Run trace s ∧
    (∀ e ∈ trace, Orderly e.action) ∧ s.navail = 1 ∧
    passes trace 0 = 1 ∧ passes trace 1 = 1 ∧ freed trace 0 = 1 ∧
    s.navail = readyChildren s ∧ (∀ i, (s.child i).unfinished ≤ 1) := by
  obtain ⟨trace, s, run, checked⟩ := Machine.run_of_check (M := machine 2) (s := start 2) rfl
    [.arrive, .select ⟨true, ∅⟩, .main, .main, .child 0, .web 0 (.line (bytes "16384\n")), .arrive,
      .select ⟨true, ∅⟩, .web 0 .written, .web 0 .closed, .main, .main, .child 0,
      .select ⟨false, {0}⟩, .main, .main]
    (fun r => decide ((∀ e ∈ r.1, Orderly e.action) ∧ r.2.navail = 1 ∧ passes r.1 0 = 1 ∧
      passes r.1 1 = 1 ∧ freed r.1 0 = 1))
    (by decide +kernel)
  obtain ⟨orderly, navail, first, second, told⟩ := of_decide_eq_true checked
  have accounts := serv05_accounts trace s run orderly
  exact ⟨trace, s, run, orderly, navail, first, second, told, accounts.1, accounts.2.1⟩

/-- The client of the second child asks for 0 bytes. Main takes two bytes of the
message for a child that is done each time, counts two children while one has
been given back, and passes a third connection to the child on its way out. A
fourth one finds no child. -/
theorem message_counted : ∃ trace s, (machine 2).Run trace s ∧ s.place = .noAvailable ∧
    s.navail = 1 ∧ readyChildren s = 0 ∧ (s.child 1).unfinished = 2 ∧
    wrote trace 1 = 0 ∧ freed trace 1 = 2 := by
  obtain ⟨trace, s, run, checked⟩ := Machine.run_of_check (M := machine 2) (s := start 2) rfl
    [.arrive, .select ⟨true, ∅⟩, .main, .main, .arrive, .select ⟨true, ∅⟩, .main, .main,
      .child 1, .web 1 (.line (bytes "0\n")), .select ⟨false, {1}⟩, .main, .main, .main,
      .select ⟨false, {1}⟩, .main, .main, .main, .arrive, .select ⟨true, ∅⟩, .main, .main,
      .arrive, .select ⟨true, ∅⟩, .main]
    (fun r => decide (r.2.place = .noAvailable ∧ r.2.navail = 1 ∧ readyChildren r.2 = 0 ∧
      (r.2.child 1).unfinished = 2 ∧ wrote r.1 1 = 0 ∧ freed r.1 1 = 2))
    (by decide +kernel)
  exact ⟨trace, s, run, of_decide_eq_true checked⟩

end NetworkProgramming.Serv05
