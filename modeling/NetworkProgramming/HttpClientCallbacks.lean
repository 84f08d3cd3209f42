import NetworkProgramming.HttpClient

/-!
The callback of a request. The operations follow one another until one of the handlers calls
on_finish, which gives six ways for each of them to end; only an exception of shutdown and
headers in which no line is empty leave the request without a callback.
-/

namespace NetworkProgramming.HttpClient

open CText TextStream

/-! The loop of on_headers_received. -/

theorem blank_start (b : UInt8) (rest : List UInt8) (other : b ≠ cr) :
    blank true (b :: rest) = blank false (b :: rest) := by
  cases rest with
  | nil => simp [blank, other]
  | cons c rest => rw [blank, blank, if_neg other, if_neg other]

theorem blank_within (b : UInt8) (rest : List UInt8) (other : b ≠ cr) :
    blank false (b :: rest) = blank false rest := by
  cases rest with
  | nil => rfl
  | cons c rest => rw [blank, if_neg other]

theorem blank_line (line rest : List UInt8) (absent : cr ∉ line) :
    blank false (line ++ rest) = blank false rest := by
  induction line with
  | nil => rfl
  | cons b line ih =>
      simp only [List.mem_cons, not_or] at absent
      rw [List.cons_append, blank_within b _ (Ne.symm absent.1), ih absent.2]

theorem blank_some (line rest : List UInt8) (absent : cr ∉ line) (some_ : line ≠ []) :
    blank true (line ++ rest) = blank false rest := by
  cases line with
  | nil => exact absurd rfl some_
  | cons b line =>
      have other : b ≠ cr := fun same => absent (same ▸ List.mem_cons_self)
      rw [List.cons_append, blank_start b _ other, ← List.cons_append]
      exact blank_line (b :: line) rest absent

theorem header_loop_bad (turns : Nat) (text header : List UInt8) (headers : Headers)
    (some_ : header ≠ []) : headerLoop turns ⟨text, false⟩ header headers = none := by
  induction turns generalizing headers with
  | zero => rfl
  | succ turns ih =>
      rw [headerLoop, getline_bad]
      dsimp only
      rw [if_neg some_, get_bad, ih]

theorem header_loop_end (turns : Nat) (text header : List UInt8) (headers : Headers)
    (absent : cr ∉ text) :
    (headerLoop (turns + 1) ⟨text, true⟩ header headers).isSome = decide (text = []) := by
  rw [headerLoop, getline_end cr text header absent]
  dsimp only
  by_cases empty : text = []
  · rw [if_pos empty]
    simp [empty]
  · rw [if_neg empty, get_bad, header_loop_bad _ _ _ _ empty]
    simp [empty]

theorem header_loop_line (turns : Nat) (line rest header : List UInt8) (headers : Headers)
    (absent : cr ∉ line) :
    headerLoop (turns + 1) ⟨line ++ cr :: rest, true⟩ header headers =
      if line = [] then some ((⟨rest, true⟩ : TextStream UInt8).get.text, headers)
      else headerLoop turns (⟨rest, true⟩ : TextStream UInt8).get line (addHeader line headers) := by
  rw [headerLoop, getline_line cr line rest header absent]

theorem header_loop_blank (turns : Nat) (text header : List UInt8) (headers : Headers)
    (enough : text.length < turns) :
    (headerLoop turns ⟨text, true⟩ header headers).isSome = blank true text := by
  induction turns generalizing text header headers with
  | zero => exact absurd enough (Nat.not_lt_zero _)
  | succ turns ih =>
      by_cases member : cr ∈ text
      · obtain ⟨line, rest, rfl, absent⟩ := List.eq_append_cons_of_mem member
        rw [header_loop_line turns line rest header headers absent]
        by_cases empty : line = []
        · subst empty
          rw [if_pos rfl]
          cases rest <;> rfl
        · rw [if_neg empty, blank_some line _ absent empty]
          cases rest with
          | nil => exact congrArg Option.isSome (header_loop_bad _ _ _ _ empty)
          | cons c rest =>
              rw [List.length_append, List.length_cons, List.length_cons] at enough
              exact ih rest line _ (by omega)
      · rw [header_loop_end turns text header headers member]
        cases text with
        | nil => rfl
        | cons b text =>
            have whole := blank_some (b :: text) [] member (List.cons_ne_nil b text)
            rw [List.append_nil] at whole
            rw [whole]
            rfl

theorem header_loop_more (turns : Nat) (stream : TextStream UInt8) (header : List UInt8)
    (headers : Headers) (result : List UInt8 × Headers)
    (ended : headerLoop turns stream header headers = some result) :
    headerLoop (turns + 1) stream header headers = some result := by
  induction turns generalizing stream header headers with
  | zero => cases ended
  | succ turns ih =>
      rw [headerLoop] at ended ⊢
      split at ended
      · rename_i empty
        rw [if_pos empty, ended]
      · rename_i some_
        rw [if_neg some_]
        exact ih _ _ _ ended

/-- The loop ends if and only if a line is empty, and then within the turns that it is given. -/
theorem header_loop_ends (buf header : List UInt8) (headers : Headers) :
    (∃ turns, (headerLoop turns ⟨buf, true⟩ header headers).isSome = true) ↔
      blank true buf = true := by
  constructor
  · rintro ⟨turns, ended⟩
    obtain ⟨result, found⟩ := Option.isSome_iff_exists.mp ended
    have later : headerLoop (turns + (buf.length + 1)) ⟨buf, true⟩ header headers = some result := by
      induction buf.length + 1 with
      | zero => exact found
      | succ more ih => exact header_loop_more _ _ _ _ _ ih
    rw [← header_loop_blank (turns + (buf.length + 1)) buf header headers (by omega), later]
    rfl
  · intro ends
    refine ⟨buf.length + 1, ?_⟩
    rw [header_loop_blank _ _ _ _ (Nat.lt_succ_self _), ends]

/-- A text of pieces, each a line with a carriage return and one more byte behind it, that
comes to an empty line or to its end between two pieces. -/
def Splits (buf : List UInt8) : Prop :=
  ∃ (pieces : List (List UInt8 × UInt8)) (rest : List UInt8),
    buf = (pieces.flatMap fun piece => piece.1 ++ [cr, piece.2]) ++ rest ∧
      (∀ piece ∈ pieces, piece.1 ≠ [] ∧ cr ∉ piece.1) ∧ (rest = [] ∨ rest.head? = some cr)

theorem splits_blank {buf : List UInt8} (splits : Splits buf) : blank true buf = true := by
  obtain ⟨pieces, rest, rfl, lines, ends⟩ := splits
  induction pieces with
  | nil =>
      rcases ends with rfl | first
      · rfl
      · cases rest with
        | nil => cases first
        | cons b more =>
            obtain rfl : b = cr := Option.some.inj first
            cases more <;> rfl
  | cons piece pieces ih =>
      obtain ⟨some_, absent⟩ := lines piece List.mem_cons_self
      have later := ih fun other member => lines other (List.mem_cons_of_mem piece member)
      rw [List.flatMap_cons, List.append_assoc, List.append_assoc,
        blank_some piece.1 _ absent some_, List.cons_append, List.cons_append, blank, if_pos rfl,
        List.nil_append, later]
      rfl

theorem blank_splits (count : Nat) (buf : List UInt8) (short : buf.length ≤ count)
    (ends : blank true buf = true) : Splits buf := by
  -- by the number of bytes, one line at a time
  induction count generalizing buf with
  | zero => exact ⟨[], buf, rfl, List.forall_mem_nil _, Or.inl (List.length_eq_zero_iff.mp (by omega))⟩
  | succ count ih =>
      by_cases member : cr ∈ buf
      · obtain ⟨line, rest, rfl, absent⟩ := List.eq_append_cons_of_mem member
        by_cases empty : line = []
        · exact ⟨[], _, rfl, List.forall_mem_nil _, Or.inr (by rw [empty]; rfl)⟩
        · rw [blank_some line _ absent empty] at ends
          cases rest with
          | nil => cases ends
          | cons c rest =>
              rw [blank, if_pos rfl] at ends
              simp only [List.length_append, List.length_cons] at short
              obtain ⟨pieces, last, rfl, lines, done⟩ := ih rest (by omega) ends
              exact ⟨(line, c) :: pieces, last, by simp,
                List.forall_mem_cons.mpr ⟨⟨empty, absent⟩, lines⟩, done⟩
      · cases buf with
        | nil => exact ⟨[], [], rfl, List.forall_mem_nil _, Or.inl rfl⟩
        | cons b buf =>
            have whole := blank_some (b :: buf) [] member (List.cons_ne_nil b buf)
            rw [List.append_nil, ends] at whole
            cases whole

theorem header_loop_breaks_iff (buf header : List UInt8) (headers : Headers) :
    (∃ turns, (headerLoop turns ⟨buf, true⟩ header headers).isSome = true) ↔ Splits buf := by
  rw [header_loop_ends]
  exact ⟨blank_splits buf.length buf (Nat.le_refl _), splits_blank⟩

/-- "a\r\r\n\r\nxyz": the byte dropped behind the first line is the carriage return of the
delimiter, and the last line is not empty when the stream fails. -/
theorem delimiter_missed : crlf ++ crlf <:+: [97, 13, 13, 10, 13, 10, 120, 121, 122] ∧
    ¬ ∃ turns, (headerLoop turns ⟨[97, 13, 13, 10, 13, 10, 120, 121, 122], true⟩ []
      fun _ => none).isSome = true := by
  rw [header_loop_ends]
  decide

/-! What the user sees. -/

def Answer.call : Answer → List Ec
  | .called ec => [ec]
  | .silent => []

def calls (trace : List Step) : List Ec := trace.flatMap fun e => e.output.call

def Action.own : Action → Bool
  | .cancel _ | .cancelLocks _ | .cancelReturns _ => false
  | _ => true

def Settled (s : State) : Prop :=
  ∀ action result, step s action = some result → ∃ i, action = .cancel i

def CancelledFirst (trace : List Step) : Prop :=
  ∃ pre e post, trace = pre ++ e :: post ∧ e.action = .execute ∧
    ∃ d ∈ pre, ∃ i, d.action = .cancelReturns i

structure Called (trace : List Step) (s : State) : Prop where
  once : (calls trace).length ≤ 1
  settles : trace.countP (fun e => e.action.own) ≤ 17
  settled : s.execute ≠ .uncalled → Settled s → (calls trace).length = 1
  aborted : CancelledFirst trace → ∀ ec ∈ calls trace, ec = .operationAborted

def Met (e : Step) : Bool :=
  match e.action, e.before.pending with
  | .complete ec _ shutdown, some .write => ec != .success || shutdown
  | .complete ec more _, some .headers =>
      ec != .success || blank true (e.before.responseBuf ++ more)
  | _, _ => true

/-! The steps that are left. -/

def Op.left : Op → Nat
  | .resolve => 13
  | .connect => 11
  | .write => 9
  | .statusLine => 7
  | .headers => 5
  | .body => 3

def Execute.left : Execute → Nat
  | .uncalled => 17
  | .checking => 16
  | .started | .finishing => 1
  | .returned => 0

def Handler.left : Handler → Nat
  | .checking op => op.left + 1
  | .finishing _ => 1
  | .idle | .spinning => 0

def State.left (s : State) : Nat :=
  s.execute.left + s.handler.left + (s.pending.map Op.left).getD 0

def Execute.active : Execute → Nat
  | .checking | .finishing => 1
  | .uncalled | .started | .returned => 0

def Handler.active : Handler → Nat
  | .checking _ | .finishing _ => 1
  | .idle | .spinning => 0

def State.active (s : State) : Nat :=
  s.execute.active + s.handler.active + if s.pending.isSome then 1 else 0

structure Same (s s' : State) : Prop where
  execute : s'.execute = s.execute
  mux : s'.cancelMux = s.cancelMux
  flag : s'.wasCancelled = s.wasCancelled
  cancel : s'.cancel = s.cancel

inductive Outcome (s : State) (op : Op) (ec : Ec) (more : List UInt8) (shutdown : Bool)
    (s' : State) : Prop where
  | finished (code : Ec) (handler : s'.handler = .finishing code)
      (alive : s'.terminated = s.terminated)
  | following (op' : Op) (handler : s'.handler = .checking op') (less : op'.left + 1 < op.left)
      (alive : s'.terminated = s.terminated)
  | thrown (here : op = .write) (fine : ec = .success) (throws : shutdown = false)
      (handler : s'.handler = s.handler)
  | lost (here : op = .headers) (fine : ec = .success)
      (endless : blank true (s.responseBuf ++ more) = false) (handler : s'.handler = .spinning)

theorem completed_same (s : State) (op : Op) (ec : Ec) (more : List UInt8) (shutdown : Bool) :
    Same s (s.completed op ec more shutdown) ∧ (s.completed op ec more shutdown).pending = none := by
  simp only [State.completed]
  split
  · exact ⟨⟨rfl, rfl, rfl, rfl⟩, rfl⟩
  · cases op with
    | resolve => exact ⟨⟨rfl, rfl, rfl, rfl⟩, rfl⟩
    | connect => exact ⟨⟨rfl, rfl, rfl, rfl⟩, rfl⟩
    | write => cases shutdown <;> exact ⟨⟨rfl, rfl, rfl, rfl⟩, rfl⟩
    | statusLine =>
        simp only [State.onStatusLineReceived]
        split <;> exact ⟨⟨rfl, rfl, rfl, rfl⟩, rfl⟩
    | headers =>
        simp only [State.onHeadersReceived]
        split <;> exact ⟨⟨rfl, rfl, rfl, rfl⟩, rfl⟩
    | body => exact ⟨⟨rfl, rfl, rfl, rfl⟩, rfl⟩

theorem completed_outcome (s : State) (op : Op) (ec : Ec) (more : List UInt8) (shutdown : Bool) :
    Outcome s op ec more shutdown (s.completed op ec more shutdown) := by
  simp only [State.completed]
  split
  · exact .finished ec rfl rfl
  · rename_i fine
    cases op with
    | resolve => exact .following .connect rfl (by decide) rfl
    | connect => exact .following .write rfl (by decide) rfl
    | write =>
        have success : ec = .success := by simpa using fine
        cases shutdown with
        | true => exact .following .statusLine rfl (by decide) rfl
        | false => exact .thrown rfl success rfl rfl
    | statusLine =>
        simp only [State.onStatusLineReceived]
        split
        · exact .finished .invalidResponse rfl rfl
        · exact .following .headers rfl (by decide) rfl
    | headers =>
        have success : ec = .success := by simpa using fine
        simp only [State.onHeadersReceived]
        split
        · rename_i endless
          refine .lost rfl success ?_ rfl
          rw [← header_loop_blank _ _ [] s.response.headers (Nat.lt_succ_self _)]
          exact congrArg Option.isSome endless
        · exact .following .body rfl (by decide) rfl
    | body => exact .finished _ rfl rfl

theorem left_completed (s : State) (op : Op) (ec : Ec) (more : List UInt8) (shutdown : Bool)
    (now : s.pending = some op) (idle : s.handler = .idle) :
    (s.completed op ec more shutdown).left < s.left := by
  obtain ⟨same, none_⟩ := completed_same s op ec more shutdown
  have outcome := completed_outcome s op ec more shutdown
  have some_ : 1 < op.left := by cases op <;> decide
  have less : (s.completed op ec more shutdown).handler.left < op.left := by
    cases outcome with
    | finished code handler alive =>
        rw [handler]
        exact some_
    | following op' handler less alive =>
        rw [handler]
        exact less
    | thrown here fine throws handler =>
        rw [handler, idle]
        exact Nat.zero_lt_of_lt some_
    | lost here fine endless handler =>
        rw [handler]
        exact Nat.zero_lt_of_lt some_
  rw [State.left, State.left, same.execute, none_, now]
  simp only [Option.map_none, Option.getD_none, Option.map_some, Option.getD_some]
  omega

/-- Each step of the request itself leaves less to do, and a cancel leaves as much. -/
theorem left_step (e : Step) (stepped : machine.Stepped e) :
    e.after.left + (if e.action.own then 1 else 0) ≤ e.before.left := by
  obtain ⟨-, moved⟩ := moves_of_stepped e stepped
  obtain ⟨s, action, output, after⟩ := e
  dsimp only at moved ⊢
  cases moved with
  | execute now =>
      simp only [State.left, now, Action.own, Execute.left, if_true]
      omega
  | checkFirst now free =>
      simp only [State.left, State.checkFirst, now, Action.own]
      split
      · simp only [Execute.left, if_true]
        omega
      · simp only [Execute.left, Option.map_some, Option.getD_some, Op.left, if_true]
        omega
  | executeReturns now =>
      simp only [State.left, now, Action.own, Execute.left, if_true]
      omega
  | complete op ec more shutdown now idle possible =>
      have less := left_completed s op ec more shutdown now idle
      simp only [Action.own, if_true]
      omega
  | check op now free =>
      simp only [State.left, State.check, now, Action.own]
      split
      · simp only [State.finish, Handler.left, if_true]
        cases op <;> simp only [Op.left] <;> omega
      · simp only [Handler.left, Option.map_some, Option.getD_some, if_true]
        omega
  | callback ec now =>
      simp only [State.left, now, Action.own, Handler.left, if_true]
      omega
  | callbackFirst now =>
      simp only [State.left, now, Action.own, Execute.left, if_true]
      omega
  | cancel i now => exact Nat.le_refl _
  | cancelLocks i now free => exact Nat.le_refl _
  | cancelReturns i now => exact Nat.le_refl _

theorem settles_run {trace : List Step} {s : State} (run : machine.Run trace s) :
    trace.countP (fun e => e.action.own) + s.left ≤ 17 := by
  refine run.history (C := fun _ => True)
    (I := fun trace s => trace.countP (fun e => e.action.own) + s.left ≤ 17)
    (fun s first => ?_) (fun trace e stepped _ kept => ?_) fun _ _ => trivial
  · obtain ⟨-, -, execute, handler, pending, -⟩ := first
    simp [State.left, execute, handler, pending, Execute.left, Handler.left]
  · have less := left_step e stepped
    rw [List.countP_append, List.countP_singleton]
    omega

/-! The one call. -/

structure Kept (trace : List Step) (s : State) : Prop where
  alive : s.terminated = false ∧ s.handler ≠ .spinning
  count : (calls trace).length + s.active = if s.execute = .uncalled then 0 else 1
  held : s.cancelMux = some .execute → s.execute = .started
  holds : ∀ i, s.cancelMux = some (.cancel i) → s.cancel i = .inside
  inside : ∀ i, s.cancel i = .inside → s.wasCancelled = true
  heard : (∃ d ∈ trace, ∃ i, d.action = .cancelReturns i) → s.wasCancelled = true

structure Dropped (trace : List Step) (s : State) : Prop where
  flag : s.wasCancelled = true
  called : s.execute ≠ .uncalled
  idle : s.handler = .idle ∧ s.pending = none
  aborted : ∀ ec ∈ calls trace, ec = .operationAborted

theorem calls_snoc (trace : List Step) (e : Step) :
    calls (trace ++ [e]) = calls trace ++ e.output.call := by
  simp [calls]

theorem heard_snoc (trace : List Step) (e : Step)
    (heard : ∃ d ∈ trace ++ [e], ∃ i, d.action = .cancelReturns i) :
    (∃ d ∈ trace, ∃ i, d.action = .cancelReturns i) ∨ ∃ i, e.action = .cancelReturns i := by
  obtain ⟨d, member, i, returns⟩ := heard
  rcases List.mem_append.mp member with old | new
  · exact Or.inl ⟨d, old, i, returns⟩
  · exact Or.inr ⟨i, List.mem_singleton.mp new ▸ returns⟩

theorem heard_none (trace : List Step) (e : Step) (s : State) (kept : Kept trace s)
    (other : ∀ i, e.action ≠ .cancelReturns i)
    (heard : ∃ d ∈ trace ++ [e], ∃ i, d.action = .cancelReturns i) : s.wasCancelled = true := by
  rcases heard_snoc trace e heard with old | ⟨i, returns⟩
  · exact kept.heard old
  · exact absurd returns (other i)

theorem count_same (trace : List Step) (e : Step) (s' : State) (quiet : e.output.call = [])
    (execute : s'.execute = e.before.execute) (active : s'.active = e.before.active)
    (kept : Kept trace e.before) :
    (calls (trace ++ [e])).length + s'.active = if s'.execute = .uncalled then 0 else 1 := by
  rw [calls_snoc, quiet, List.append_nil, active, execute]
  exact kept.count

theorem nothing_pending (trace : List Step) (s : State) (kept : Kept trace s)
    (busy : 0 < s.execute.active + s.handler.active) : s.pending = none := by
  have counted := kept.count
  cases pending : s.pending with
  | none => rfl
  | some op =>
      rw [State.active, pending, Option.isSome_some, if_pos rfl] at counted
      split at counted <;> omega

theorem kept_complete (trace : List Step) (s : State) (op : Op) (ec : Ec) (more : List UInt8)
    (shutdown : Bool) (output : Answer) (quiet : output.call = []) (now : s.pending = some op)
    (idle : s.handler = .idle)
    (met : Met ⟨s, .complete ec more shutdown, output, s.completed op ec more shutdown⟩ = true)
    (kept : Kept trace s) :
    Kept (trace ++ [⟨s, .complete ec more shutdown, output, s.completed op ec more shutdown⟩])
      (s.completed op ec more shutdown) := by
  obtain ⟨same, none_⟩ := completed_same s op ec more shutdown
  have outcome := completed_outcome s op ec more shutdown
  have goes : (s.completed op ec more shutdown).terminated = false ∧
      (s.completed op ec more shutdown).handler ≠ .spinning ∧
      (s.completed op ec more shutdown).handler.active = 1 := by
    cases outcome with
    | finished code handler alive =>
        rw [handler, alive]
        exact ⟨kept.alive.1, nofun, rfl⟩
    | following op' handler less alive =>
        rw [handler, alive]
        exact ⟨kept.alive.1, nofun, rfl⟩
    | thrown here fine throws handler =>
        subst here
        simp [Met, now, fine, throws] at met
    | lost here fine endless handler =>
        subst here
        simp [Met, now, fine, endless] at met
  refine ⟨⟨goes.1, goes.2.1⟩, ?_, fun mux => ?_, fun i mux => ?_, fun i inside => ?_, fun heard => ?_⟩
  · refine count_same trace _ _ quiet same.execute ?_ kept
    rw [State.active, State.active, same.execute, none_, goes.2.2, now, idle]
    rfl
  · rw [same.execute]
    exact kept.held (same.mux ▸ mux)
  · rw [same.cancel]
    exact kept.holds i (same.mux ▸ mux)
  · rw [same.flag]
    exact kept.inside i (same.cancel ▸ inside)
  · rw [same.flag]
    exact heard_none trace ⟨s, .complete ec more shutdown, output, _⟩ s kept
      (fun i (returns : Action.complete ec more shutdown = .cancelReturns i) => nomatch returns) heard

theorem kept_check (trace : List Step) (s : State) (op : Op) (now : s.handler = .checking op)
    (kept : Kept trace s) :
    Kept (trace ++ [⟨s, .check, .silent, s.check op⟩]) (s.check op) := by
  have none_ := nothing_pending trace s kept (by simp [now, Handler.active])
  have heard := heard_none trace ⟨s, .check, .silent, s.check op⟩ s kept fun i => nofun
  rw [State.check] at heard ⊢
  split
  · refine ⟨⟨kept.alive.1, nofun⟩, ?_, kept.held, kept.holds, kept.inside, fun some_ => ‹_›⟩
    refine count_same trace ⟨s, .check, .silent, _⟩ _ rfl rfl ?_ kept
    rw [State.active, State.active, now]
    rfl
  · refine ⟨⟨kept.alive.1, nofun⟩, ?_, kept.held, kept.holds, kept.inside, fun some_ => ?_⟩
    · refine count_same trace ⟨s, .check, .silent, _⟩ _ rfl rfl ?_ kept
      rw [State.active, State.active, now, none_]
      rfl
    · rename_i off
      rw [if_neg off] at heard
      exact heard some_

theorem kept_check_first (trace : List Step) (s : State) (now : s.execute = .checking)
    (free : s.cancelMux = none) (kept : Kept trace s) :
    Kept (trace ++ [⟨s, .checkFirst, .silent, s.checkFirst⟩]) s.checkFirst := by
  have none_ := nothing_pending trace s kept (by simp [now, Execute.active])
  have counted := kept.count
  rw [State.active, now, none_] at counted
  have heard := heard_none trace ⟨s, .checkFirst, .silent, s.checkFirst⟩ s kept fun i => nofun
  rw [State.checkFirst] at heard ⊢
  split
  · refine ⟨kept.alive, ?_, fun mux => ?_, kept.holds, kept.inside, fun _ => ‹_›⟩
    · rw [calls_snoc, State.active, none_]
      simpa [Execute.active, Answer.call] using counted
    · exact absurd (free.symm.trans mux) nofun
  · rename_i off
    rw [if_neg off] at heard
    refine ⟨kept.alive, ?_, fun _ => rfl, fun i mux => ?_, kept.inside, heard⟩
    · rw [calls_snoc, State.active]
      simp only [Execute.active, Option.isSome_none, Bool.false_eq_true, if_false,
        reduceCtorEq] at counted
      simp only [Execute.active, Answer.call, List.append_nil, Option.isSome_some, if_true,
        reduceCtorEq, if_false]
      omega
    · cases mux

theorem kept_step (trace : List Step) (e : Step) (stepped : machine.Stepped e)
    (met : Met e = true) (kept : Kept trace e.before) : Kept (trace ++ [e]) e.after := by
  obtain ⟨-, moved⟩ := moves_of_stepped e stepped
  have counted := kept.count
  have quiet := heard_none trace e e.before kept
  obtain ⟨s, action, output, after⟩ := e
  dsimp only at moved kept counted quiet ⊢
  cases moved with
  | execute now =>
      refine ⟨kept.alive, ?_, fun mux => ?_, kept.holds, kept.inside, quiet fun i => nofun⟩
      · rw [now, State.active, now] at counted
        rw [calls_snoc, State.active]
        simp only [Execute.active, if_true] at counted
        simp only [Execute.active, Answer.call, List.append_nil, reduceCtorEq, if_false]
        omega
      -- execute has not begun, so it does not have the mutex
      · have started := kept.held mux
        rw [now] at started
        cases started
  | checkFirst now free => exact kept_check_first trace s now free kept
  | executeReturns now =>
      refine ⟨kept.alive, ?_, fun mux => ?_, fun i mux => ?_, kept.inside, quiet fun i => nofun⟩
      · rw [State.active, now] at counted
        rw [calls_snoc, State.active]
        simpa [Execute.active, Answer.call] using counted
      · cases mux
      · cases mux
  | complete op ec more shutdown now idle possible =>
      exact kept_complete trace s op ec more shutdown .silent rfl now idle met kept
  | check op now free => exact kept_check trace s op now kept
  | callback ec now =>
      refine ⟨⟨kept.alive.1, nofun⟩, ?_, kept.held, kept.holds, kept.inside, quiet fun i => nofun⟩
      rw [State.active, now] at counted
      rw [calls_snoc, State.active]
      simp only [Handler.active, Answer.call, List.length_append, List.length_singleton] at counted ⊢
      omega
  | callbackFirst now =>
      refine ⟨kept.alive, ?_, fun mux => ?_, kept.holds, kept.inside, quiet fun i => nofun⟩
      · rw [State.active, now] at counted
        rw [calls_snoc, State.active]
        simp only [Execute.active, Answer.call, List.length_append, List.length_singleton,
          reduceCtorEq, if_false] at counted ⊢
        omega
      · have started := kept.held mux
        rw [now] at started
        cases started
  | cancel i now =>
      refine ⟨kept.alive, ?_, kept.held, fun j mux => ?_, fun j inside => ?_, quiet fun i => nofun⟩
      · exact count_same trace ⟨s, _, .silent, _⟩ _ rfl rfl rfl kept
      · have holds := kept.holds j mux
        have other : j ≠ i := by
          rintro rfl
          rw [now] at holds
          cases holds
        exact (Function.update_of_ne other _ _).trans holds
      -- another cancel that has the mutex keeps it; this one only waits for it
      · by_cases mine : j = i
        · subst mine
          have waits : Function.update s.cancel j .waiting j = .waiting := Function.update_self _ _ _
          exact absurd (waits.symm.trans inside) nofun
        · exact kept.inside j ((Function.update_of_ne mine _ _).symm.trans inside)
  | cancelLocks i now free =>
      refine ⟨kept.alive, ?_, fun mux => ?_, fun j mux => ?_, fun _ _ => rfl, fun _ => rfl⟩
      · exact count_same trace ⟨s, _, .silent, _⟩ _ rfl rfl rfl kept
      · cases mux
      · cases mux
        exact Function.update_self _ _ _
  | cancelReturns i now =>
      refine ⟨kept.alive, ?_, fun mux => ?_, fun j mux => ?_, fun j inside => ?_, fun _ => ?_⟩
      · exact count_same trace ⟨s, _, .silent, _⟩ _ rfl rfl rfl kept
      · cases mux
      · cases mux
      · by_cases mine : j = i
        · exact kept.inside i now
        · exact kept.inside j ((Function.update_of_ne mine _ _).symm.trans inside)
      · exact kept.inside i now

theorem kept_start (s : State) (first : machine.start s) : Kept [] s := by
  obtain ⟨flag, mux, execute, handler, pending, cancel, alive⟩ := first
  refine ⟨⟨alive, ?_⟩, ?_, ?_, ?_, ?_, ?_⟩
  · rw [handler]
    exact nofun
  · simp [State.active, execute, handler, pending, Execute.active, Handler.active, calls]
  · rw [mux]
    exact nofun
  · rw [mux]
    exact nofun
  · intro i inside
    rw [cancel i] at inside
    cases inside
  · rintro ⟨d, member, -⟩
    cases member

/-! A request that is cancelled before. -/

theorem cancelled_first_snoc (trace : List Step) (e : Step) (first : CancelledFirst (trace ++ [e])) :
    CancelledFirst trace ∨
      e.action = .execute ∧ ∃ d ∈ trace, ∃ i, d.action = .cancelReturns i := by
  obtain ⟨pre, called, post, whole, executes, heard⟩ := first
  rcases Machine.split_snoc whole.symm with ⟨-, rfl, rfl⟩ | ⟨init, -, same⟩
  · exact Or.inr ⟨executes, heard⟩
  · exact Or.inl ⟨pre, called, init, same.symm, executes, heard⟩

theorem uncalled_idle (trace : List Step) (s : State) (kept : Kept trace s)
    (now : s.execute = .uncalled) : calls trace = [] ∧ s.handler = .idle ∧ s.pending = none := by
  have counted := kept.count
  rw [State.active, now, if_pos rfl] at counted
  have none_ : (calls trace).length = 0 := by omega
  have quiet : s.handler.active = 0 := by omega
  refine ⟨List.eq_nil_of_length_eq_zero none_, ?_, ?_⟩
  · cases handler : s.handler with
    | idle => rfl
    | checking op => rw [handler] at quiet; cases quiet
    | finishing ec => rw [handler] at quiet; cases quiet
    | spinning => exact absurd handler kept.alive.2
  · cases pending : s.pending with
    | none => rfl
    | some op =>
        rw [pending, Option.isSome_some, if_pos rfl] at counted
        omega

theorem dropped_step (trace : List Step) (e : Step) (stepped : machine.Stepped e)
    (dropped : Dropped trace e.before) : Dropped (trace ++ [e]) e.after := by
  obtain ⟨-, moved⟩ := moves_of_stepped e stepped
  obtain ⟨flag, called, ⟨idle, none_⟩, aborted⟩ := dropped
  have quiet (nothing : e.output.call = []) : ∀ ec ∈ calls (trace ++ [e]), ec = .operationAborted := by
    rwa [calls_snoc, nothing, List.append_nil]
  obtain ⟨s, action, output, after⟩ := e
  dsimp only at moved flag called idle none_ quiet ⊢
  cases moved with
  | execute now => exact absurd now called
  | checkFirst now free =>
      rw [State.checkFirst, if_pos flag] at quiet ⊢
      exact ⟨flag, nofun, ⟨idle, none_⟩, quiet rfl⟩
  | executeReturns now => exact ⟨flag, nofun, ⟨idle, none_⟩, quiet rfl⟩
  | complete op ec more shutdown now _ possible => exact absurd (none_.symm.trans now) nofun
  | check op now free => exact absurd (idle.symm.trans now) nofun
  | callback ec now => exact absurd (idle.symm.trans now) nofun
  | callbackFirst now =>
      refine ⟨flag, nofun, ⟨idle, none_⟩, fun ec member => ?_⟩
      rw [calls_snoc] at member
      rcases List.mem_append.mp member with old | new
      · exact aborted ec old
      · exact List.mem_singleton.mp new
  | cancel i now => exact ⟨flag, called, ⟨idle, none_⟩, quiet rfl⟩
  | cancelLocks i now free => exact ⟨rfl, called, ⟨idle, none_⟩, quiet rfl⟩
  | cancelReturns i now => exact ⟨flag, called, ⟨idle, none_⟩, quiet rfl⟩

theorem dropped_execute (trace : List Step) (e : Step) (stepped : machine.Stepped e)
    (kept : Kept trace e.before) (executes : e.action = .execute)
    (heard : ∃ d ∈ trace, ∃ i, d.action = .cancelReturns i) : Dropped (trace ++ [e]) e.after := by
  obtain ⟨-, moved⟩ := moves_of_stepped e stepped
  obtain ⟨s, action, output, after⟩ := e
  dsimp only at moved kept executes
  subst executes
  cases moved with
  | execute now =>
      obtain ⟨none_, idle, pending⟩ := uncalled_idle trace s kept now
      refine ⟨kept.heard heard, nofun, ⟨idle, pending⟩, fun ec member => ?_⟩
      rw [calls_snoc, none_] at member
      cases member

theorem kept_run {trace : List Step} {s : State} (run : machine.Run trace s)
    (met : ∀ e ∈ trace, Met e = true) :
    Kept trace s ∧ (CancelledFirst trace → Dropped trace s) := by
  refine run.history (C := fun e => Met e = true)
    (I := fun trace s => Kept trace s ∧ (CancelledFirst trace → Dropped trace s))
    (fun s first => ⟨kept_start s first, ?_⟩) (fun trace e stepped ok kept => ?_) met
  · rintro ⟨pre, e, post, whole, -⟩
    simp at whole
  · refine ⟨kept_step trace e stepped ok kept.1, fun first => ?_⟩
    rcases cancelled_first_snoc trace e first with earlier | ⟨executes, heard⟩
    · exact dropped_step trace e stepped (kept.2 earlier)
    · exact dropped_execute trace e stepped kept.1 executes heard

/-! As long as there is no call, some step is. -/

theorem step_alive (s : State) (action : Action) (alive : s.terminated = false) :
    step s action = act s action := by
  rw [step, alive]
  rfl

theorem settled_free (trace : List Step) (s : State) (kept : Kept trace s) (settled : Settled s) :
    s.cancelMux = none := by
  cases mux : s.cancelMux with
  | none => rfl
  | some holder =>
      cases holder with
      | execute =>
          have started := kept.held mux
          obtain ⟨i, same⟩ := settled .executeReturns _
            ((step_alive s _ kept.alive.1).trans (if_pos started))
          cases same
      | cancel i =>
          have inside := kept.holds i mux
          obtain ⟨j, same⟩ := settled (.cancelReturns i) _
            ((step_alive s _ kept.alive.1).trans (if_pos inside))
          cases same

theorem settled_active (trace : List Step) (s : State) (kept : Kept trace s)
    (settled : Settled s) : s.active = 0 := by
  have free := settled_free trace s kept settled
  -- a step that could be taken now would be the `cancel` of a user, which none of these is
  have execute : s.execute.active = 0 := by
    cases now : s.execute with
    | uncalled => rfl
    | started => rfl
    | returned => rfl
    | checking =>
        obtain ⟨i, same⟩ := settled .checkFirst _
          ((step_alive s _ kept.alive.1).trans (if_pos ⟨now, free⟩))
        cases same
    | finishing =>
        obtain ⟨i, same⟩ := settled .callbackFirst _
          ((step_alive s _ kept.alive.1).trans (if_pos now))
        cases same
  have handler : s.handler = .idle := by
    cases now : s.handler with
    | idle => rfl
    | checking op =>
        obtain ⟨i, same⟩ := settled .check (s.check op, .silent)
          ((step_alive s _ kept.alive.1).trans (by simp only [act, now, free, if_true]))
        cases same
    | finishing ec =>
        obtain ⟨i, same⟩ := settled .callback ({ s with handler := .idle }, .called ec)
          ((step_alive s _ kept.alive.1).trans (by simp only [act, now]))
        cases same
    | spinning => exact absurd now kept.alive.2
  have pending : s.pending = none := by
    cases now : s.pending with
    | none => rfl
    | some op =>
        have possible : Possible op (.other 0) s.responseBuf [] := by
          cases op <;> simp [Possible]
        obtain ⟨i, same⟩ := settled (.complete (.other 0) [] true)
          (s.completed op (.other 0) [] true, .silent)
          ((step_alive s _ kept.alive.1).trans
            (by simp only [act, now, handler, possible, and_self, if_true]))
        cases same
  rw [State.active, execute, handler, pending]
  rfl

/-- A request calls back once, after all that it has started, if its shutdown does not throw
and its headers come to an empty line. -/
theorem called_once {trace : List Step} {s : State} (run : machine.Run trace s)
    (met : ∀ e ∈ trace, Met e = true) : Called trace s := by
  obtain ⟨kept, dropped⟩ := kept_run run met
  have counted := kept.count
  have steps := settles_run run
  refine ⟨?_, by omega, fun called settled => ?_, fun first => (dropped first).aborted⟩
  · split at counted <;> omega
  · rw [if_neg called, settled_active trace s kept settled] at counted
    exact counted

/-! A request that is answered, and one whose peer has gone. -/

def fresh : State where
  host := bytes "localhost"
  uri := bytes "/index.html"
  requestBuf := []
  responseBuf := []
  response := { statusCode := 0, statusMessage := [], headers := fun _ => none }
  wasCancelled := false
  cancelMux := none
  execute := .uncalled
  handler := .idle
  pending := none
  cancel := fun _ => .uncalled
  terminated := false

theorem fresh_start : machine.start fresh := ⟨rfl, rfl, rfl, rfl, rfl, fun _ => rfl, rfl⟩

def sending : List Action :=
  [.execute, .checkFirst, .executeReturns, .complete .success [] true, .check,
    .complete .success [] true, .check]

theorem answer_called : ∃ trace s, machine.Run trace s ∧ calls trace = [.success] ∧
    Called trace s := by
  obtain ⟨trace, s, run, check⟩ := Machine.run_of_check fresh_start
    (sending ++ ([.cancel 0, .complete .success [] true, .check,
      .complete .success (bytes "HTTP/1.1 200 OK\r\n") true, .check,
      .complete .success (bytes "A: b\r\n\r\n") true, .check, .complete .eof [66] true,
      .callback] : List Action))
    (fun r => decide (calls r.1 = [.success]) && r.1.all Met) (by decide +kernel)
  rw [Bool.and_eq_true] at check
  exact ⟨trace, s, run, of_decide_eq_true check.1,
    called_once run (List.all_eq_true.mp check.2)⟩

theorem shutdown_not_called : ¬ ∀ trace s, machine.Run trace s → Called trace s := by
  intro claim
  obtain ⟨trace, s, run, check⟩ := Machine.run_of_check fresh_start
    (sending ++ ([.complete .success [] false] : List Action))
    (fun r => decide (calls r.1 = [] ∧ r.2.execute ≠ .uncalled ∧ r.2.terminated = true))
    (by decide +kernel)
  obtain ⟨none_, called, terminated⟩ := of_decide_eq_true check
  have settled : Settled s := fun action result stepped => by
    rw [step, terminated] at stepped
    cases stepped
  have one := (claim trace s run).settled called settled
  rw [none_] at one
  cases one

end NetworkProgramming.HttpClient
