import Mathlib.Data.List.Basic

/-!
The transition tables of tnfsm.h, and what fsminit.c compiles them into: for each state
and character the number of the row that applies.
-/

namespace NetworkProgramming.Telnet

def NTSTATES : Nat := 6
def NSSTATES : Nat := 3
def FSINVALID : Nat := 0xff
def NCHRS : Nat := 256
def TCANY : Nat := NCHRS + 1
def TINVALID : Nat := 0xff

structure FsmTrans (Action : Type*) where
  ftState : Nat
  ftChar : Nat
  ftNext : Nat
  ftAction : Action
  deriving DecidableEq

/-- unsigned char fsm[][NCHRS] -/
abbrev Fsm := Nat → Nat → Nat

variable {Action : Type*}

def enter (fsm : Fsm) (ti : Nat) (pt : FsmTrans Action) : Fsm := fun sn cn =>
  if pt.ftChar = TCANY then
    if sn = pt.ftState ∧ cn < NCHRS ∧ fsm sn cn = TINVALID then ti % 256 else fsm sn cn
  else if sn = pt.ftState ∧ cn = pt.ftChar then ti % 256 else fsm sn cn

def enterRows : Nat → List (FsmTrans Action) → Fsm → Fsm × Nat
  | ti, [], fsm => (fsm, ti)
  | ti, pt :: rest, fsm =>
      if pt.ftState = FSINVALID then (fsm, ti) else enterRows (ti + 1) rest (enter fsm ti pt)

def fsminit (fsm : Fsm) (ttab : List (FsmTrans Action)) (nstates : Nat) : Fsm :=
  let cleared : Fsm := fun sn cn => if sn < nstates ∧ cn < NCHRS then TINVALID else fsm sn cn
  let r := enterRows 0 ttab cleared
  fun sn cn => if sn < nstates ∧ cn < NCHRS ∧ r.1 sn cn = TINVALID then r.2 % 256 else r.1 sn cn

/-! Characters that no row names are treated alike. -/

def Unnamed (ttab : List (FsmTrans Action)) (cn : Nat) : Prop :=
  cn < NCHRS ∧ ∀ pt ∈ ttab, pt.ftChar ≠ cn

theorem enter_alike {fsm : Fsm} {pt : FsmTrans Action} {sn cn dn : Nat} (ti : Nat)
    (here : cn < NCHRS ∧ pt.ftChar ≠ cn) (there : dn < NCHRS ∧ pt.ftChar ≠ dn)
    (same : fsm sn cn = fsm sn dn) : enter fsm ti pt sn cn = enter fsm ti pt sn dn := by
  unfold enter
  split
  · simp only [here.1, there.1, same]
  · rw [if_neg fun both => here.2 both.2.symm, if_neg fun both => there.2 both.2.symm]
    exact same

theorem enterRows_alike {ttab : List (FsmTrans Action)} {sn cn dn : Nat} (here : Unnamed ttab cn)
    (there : Unnamed ttab dn) (ti : Nat) {fsm : Fsm} (same : fsm sn cn = fsm sn dn) :
    (enterRows ti ttab fsm).1 sn cn = (enterRows ti ttab fsm).1 sn dn := by
  induction ttab generalizing ti fsm with
  | nil => exact same
  | cons pt rest ih =>
      rw [enterRows]
      split
      · exact same
      · refine ih ⟨here.1, fun q member => here.2 q (List.mem_cons_of_mem pt member)⟩
          ⟨there.1, fun q member => there.2 q (List.mem_cons_of_mem pt member)⟩ (ti + 1) ?_
        exact enter_alike ti ⟨here.1, here.2 pt List.mem_cons_self⟩
          ⟨there.1, there.2 pt List.mem_cons_self⟩ same

theorem fsminit_alike {ttab : List (FsmTrans Action)} {sn cn dn : Nat} (nstates : Nat)
    (here : Unnamed ttab cn) (there : Unnamed ttab dn) {fsm : Fsm} (same : fsm sn cn = fsm sn dn) :
    fsminit fsm ttab nstates sn cn = fsminit fsm ttab nstates sn dn := by
  have cleared : (if sn < nstates ∧ cn < NCHRS then TINVALID else fsm sn cn) =
      if sn < nstates ∧ dn < NCHRS then TINVALID else fsm sn dn := by
    simp only [here.1, there.1, same]
  have rows := @enterRows_alike _ ttab sn cn dn here there 0
    (fun sn cn => if sn < nstates ∧ cn < NCHRS then TINVALID else fsm sn cn) cleared
  simp only [fsminit, here.1, there.1, rows]

/-- A compiled table says what it says for the characters that are named and for one that is not. -/
theorem fsminit_rows {Row : Type*} (ttab : List (FsmTrans Action)) (nstates : Nat)
    (look : Nat → Option Row) (row : Nat → Nat → Row) {dn : Nat} (there : Unnamed ttab dn)
    (alike : ∀ sn cn, (∀ k ∈ ttab.map (·.ftChar), cn ≠ k) → row sn cn = row sn dn)
    (named : ∀ sn < nstates, ∀ cn ∈ dn :: ttab.map (·.ftChar), cn < NCHRS →
      look (fsminit (fun _ _ => 0) ttab nstates sn cn) = some (row sn cn)) :
    ∀ sn < nstates, ∀ cn < NCHRS,
      look (fsminit (fun _ _ => 0) ttab nstates sn cn) = some (row sn cn) := by
  intro sn inside cn small
  by_cases member : cn ∈ ttab.map (·.ftChar)
  · exact named sn inside cn (List.mem_cons_of_mem dn member) small
  · have here : Unnamed ttab cn :=
      ⟨small, fun pt row same => member (List.mem_map.mpr ⟨pt, row, same⟩)⟩
    rw [fsminit_alike nstates here there rfl,
      alike sn cn fun k other same => member (same ▸ other)]
    exact named sn inside dn List.mem_cons_self there.1

/-! Which row an entry is: an explicit row overwrites, and a row for any character fills
what no row has filled yet. -/

def Explicit (sn cn : Nat) (pt : FsmTrans Action) : Prop := pt.ftState = sn ∧ pt.ftChar = cn
def Wild (sn : Nat) (pt : FsmTrans Action) : Prop := pt.ftState = sn ∧ pt.ftChar = TCANY

instance (sn cn : Nat) (pt : FsmTrans Action) : Decidable (Explicit sn cn pt) :=
  inferInstanceAs (Decidable (_ ∧ _))

instance (sn : Nat) (pt : FsmTrans Action) : Decidable (Wild sn pt) :=
  inferInstanceAs (Decidable (_ ∧ _))

/-- The last explicit row, or else the first for any character, or else `unset`. -/
inductive Selects (rows : List (FsmTrans Action)) (sn cn unset : Nat) : Nat → Prop where
  | explicit {before pt later} : rows = before ++ pt :: later → Explicit sn cn pt →
      (∀ q ∈ later, ¬ Explicit sn cn q) → Selects rows sn cn unset before.length
  | wild {before pt later} : (∀ q ∈ rows, ¬ Explicit sn cn q) → rows = before ++ pt :: later →
      Wild sn pt → (∀ q ∈ before, ¬ Wild sn q) → Selects rows sn cn unset before.length
  | unset : (∀ q ∈ rows, ¬ Explicit sn cn q) → (∀ q ∈ rows, ¬ Wild sn q) →
      Selects rows sn cn unset unset

structure FsmTrans.Valid (nstates : Nat) (pt : FsmTrans Action) : Prop where
  state : pt.ftState < nstates ∧ pt.ftState ≠ FSINVALID
  char : pt.ftChar < NCHRS ∨ pt.ftChar = TCANY

theorem not_both {sn cn : Nat} (small : cn < NCHRS) {pt : FsmTrans Action}
    (explicit : Explicit sn cn pt) : ¬ Wild sn pt := by
  rintro ⟨-, any⟩
  rw [explicit.2] at any
  rw [any, TCANY] at small
  exact absurd small (by omega)

theorem none_onto {P : FsmTrans Action → Prop} {pre : List (FsmTrans Action)}
    {pt : FsmTrans Action} (none_ : ∀ q ∈ pre, ¬ P q) (last : ¬ P pt) :
    ∀ q ∈ pre ++ [pt], ¬ P q := by
  intro q member
  rcases List.mem_append.mp member with inside | here
  · exact none_ q inside
  · rwa [List.mem_singleton.mp here]

theorem Selects.kept {pre : List (FsmTrans Action)} {sn cn unset k : Nat} {pt : FsmTrans Action}
    (chosen : Selects pre sn cn unset k) (other : ¬ Explicit sn cn pt)
    (late : k ≠ unset ∨ ¬ Wild sn pt) : Selects (pre ++ [pt]) sn cn unset k := by
  cases chosen with
  | @explicit before p later whole here last =>
      have longer : pre ++ [pt] = before ++ p :: (later ++ [pt]) := by
        rw [whole, List.append_assoc, List.cons_append]
      exact .explicit longer here (none_onto last other)
  | @wild before p later none_ whole here first =>
      have longer : pre ++ [pt] = before ++ p :: (later ++ [pt]) := by
        rw [whole, List.append_assoc, List.cons_append]
      exact .wild (none_onto none_ other) longer here first
  | unset none_ any =>
      exact .unset (none_onto none_ other) (none_onto any (late.resolve_left (by simp)))

/-- The first row for any character; the sentinel is no number of a row before it. -/
theorem Selects.filled {pre : List (FsmTrans Action)} {sn cn unset : Nat} {pt : FsmTrans Action}
    (free : Selects pre sn cn unset unset) (few : pre.length ≤ unset) (other : ¬ Explicit sn cn pt)
    (here : Wild sn pt) : Selects (pre ++ [pt]) sn cn unset pre.length := by
  generalize number : unset = k at free
  rw [number] at few
  cases free with
  | explicit whole =>
      rw [whole, List.length_append, List.length_cons] at few
      omega
  | wild _ whole =>
      rw [whole, List.length_append, List.length_cons] at few
      omega
  | unset none_ any => exact .wild (none_onto none_ other) rfl here any

theorem enter_selects {pre : List (FsmTrans Action)} {fsm : Fsm} {sn cn : Nat}
    (small : cn < NCHRS) (few : pre.length < TINVALID)
    (chosen : Selects pre sn cn TINVALID (fsm sn cn)) (pt : FsmTrans Action) :
    Selects (pre ++ [pt]) sn cn TINVALID (enter fsm pre.length pt sn cn) := by
  have number : pre.length % 256 = pre.length := by
    rw [TINVALID] at few
    omega
  by_cases explicit : Explicit sn cn pt
  · have named : pt.ftChar ≠ TCANY := fun any => not_both small explicit ⟨explicit.1, any⟩
    rw [enter, if_neg named, if_pos ⟨explicit.1.symm, explicit.2.symm⟩, number]
    exact .explicit rfl explicit (List.forall_mem_nil _)
  by_cases wild : Wild sn pt
  · rw [enter, if_pos wild.2]
    by_cases free : fsm sn cn = TINVALID
    · rw [if_pos ⟨wild.1.symm, small, free⟩, number]
      rw [free] at chosen
      exact chosen.filled (Nat.le_of_lt few) explicit wild
    · rw [if_neg fun all => free all.2.2]
      exact chosen.kept explicit (Or.inl free)
  · have entered : enter fsm pre.length pt sn cn = fsm sn cn := by
      rw [enter]
      split
      · rename_i any
        rw [if_neg fun all => wild ⟨all.1.symm, any⟩]
      · rw [if_neg fun both => explicit ⟨both.1.symm, both.2.symm⟩]
    rw [entered]
    exact chosen.kept explicit (Or.inr wild)

theorem enter_rows_selects {pre rest : List (FsmTrans Action)} {stop : FsmTrans Action}
    (after : List (FsmTrans Action)) {fsm : Fsm} {sn cn : Nat} (small : cn < NCHRS)
    (few : (pre ++ rest).length < TINVALID) (valid : ∀ q ∈ rest, q.ftState ≠ FSINVALID)
    (ends : stop.ftState = FSINVALID) (chosen : Selects pre sn cn TINVALID (fsm sn cn)) :
    (enterRows pre.length (rest ++ stop :: after) fsm).2 = (pre ++ rest).length ∧
      Selects (pre ++ rest) sn cn TINVALID
        ((enterRows pre.length (rest ++ stop :: after) fsm).1 sn cn) := by
  induction rest generalizing pre fsm with
  | nil =>
      rw [List.nil_append, enterRows, if_pos ends, List.append_nil]
      exact ⟨rfl, chosen⟩
  | cons pt rest ih =>
      have shorter : pre.length < TINVALID := by
        rw [List.length_append] at few
        omega
      have entered := enter_selects small shorter chosen pt
      have whole : pre ++ pt :: rest = pre ++ [pt] ++ rest := by simp
      have size : pre.length + 1 = (pre ++ [pt]).length := by simp
      rw [List.cons_append, enterRows, if_neg (valid pt List.mem_cons_self), size, whole]
      rw [whole] at few
      exact ih few (fun q member => valid q (List.mem_cons_of_mem pt member)) entered

theorem Selects.ended {rows : List (FsmTrans Action)} {sn cn unset k : Nat}
    (chosen : Selects rows sn cn unset k) (few : rows.length ≤ unset) :
    Selects rows sn cn rows.length (if k = unset then rows.length else k) := by
  cases chosen with
  | explicit whole here last =>
      have short := congrArg List.length whole
      rw [List.length_append, List.length_cons] at short
      rw [if_neg (by omega)]
      exact .explicit whole here last
  | wild none_ whole here first =>
      have short := congrArg List.length whole
      rw [List.length_append, List.length_cons] at short
      rw [if_neg (by omega)]
      exact .wild none_ whole here first
  | unset none_ any =>
      rw [if_pos rfl]
      exact .unset none_ any

theorem fsminit_selects {rows : List (FsmTrans Action)} {stop : FsmTrans Action}
    (after : List (FsmTrans Action)) (nstates : Nat) (fsm : Fsm) (few : rows.length < TINVALID)
    (valid : ∀ q ∈ rows, q.ftState ≠ FSINVALID) (ends : stop.ftState = FSINVALID) {sn cn : Nat}
    (inside : sn < nstates) (small : cn < NCHRS) :
    Selects rows sn cn rows.length (fsminit fsm (rows ++ stop :: after) nstates sn cn) := by
  let cleared : Fsm := fun sn cn => if sn < nstates ∧ cn < NCHRS then TINVALID else fsm sn cn
  have clear : cleared sn cn = TINVALID := if_pos ⟨inside, small⟩
  have none_ : Selects ([] : List (FsmTrans Action)) sn cn TINVALID (cleared sn cn) := by
    rw [clear]
    exact .unset (List.forall_mem_nil _) (List.forall_mem_nil _)
  obtain ⟨count, chosen⟩ := @enter_rows_selects _ [] rows stop after cleared sn cn small few valid
    ends none_
  have number : rows.length % 256 = rows.length := by
    rw [TINVALID] at few
    omega
  have whole : fsminit fsm (rows ++ stop :: after) nstates sn cn =
      if (enterRows 0 (rows ++ stop :: after) cleared).1 sn cn = TINVALID then rows.length
      else (enterRows 0 (rows ++ stop :: after) cleared).1 sn cn := by
    rw [List.nil_append, List.length_nil] at count
    simp only [fsminit, inside, small, true_and]
    rw [← number, ← count]
  rw [whole]
  exact chosen.ended (Nat.le_of_lt few)

def pickRow (rows : List (FsmTrans Action)) (stop : FsmTrans Action) (sn cn : Nat) :
    FsmTrans Action :=
  (((rows.filter fun q => decide (Explicit sn cn q)).getLast?).or
    (rows.filter fun q => decide (Wild sn q)).head?).getD stop

theorem filter_none {P : FsmTrans Action → Prop} [DecidablePred P]
    {rows : List (FsmTrans Action)} (none_ : ∀ q ∈ rows, ¬ P q) :
    (rows.filter fun q => decide (P q)) = [] := by
  rw [List.filter_eq_nil_iff]
  intro q member
  simpa using none_ q member

theorem Selects.row {rows : List (FsmTrans Action)} {sn cn k : Nat} (stop : FsmTrans Action)
    (chosen : Selects rows sn cn rows.length k) :
    (rows ++ [stop])[k]? = some (pickRow rows stop sn cn) := by
  cases chosen with
  | @explicit before pt later whole here last =>
      have explicits : (rows.filter fun q => decide (Explicit sn cn q)).getLast? = some pt := by
        rw [whole, List.filter_append, List.filter_cons_of_pos (by simpa using here),
          filter_none last, List.getLast?_concat]
      rw [pickRow, explicits, whole]
      simp
  | @wild before pt later none_ whole here first =>
      have wilds : (rows.filter fun q => decide (Wild sn q)).head? = some pt := by
        rw [whole, List.filter_append, List.filter_cons_of_pos (by simpa using here),
          filter_none first, List.nil_append, List.head?_cons]
      rw [pickRow, filter_none none_, wilds, whole]
      simp
  | unset none_ any =>
      rw [pickRow, filter_none none_, filter_none any]
      simp

theorem pick_row_congr {rows others : List (FsmTrans Action)} (stop : FsmTrans Action)
    (explicits : (rows.filter fun q => decide (q.ftChar ≠ TCANY)) =
      others.filter fun q => decide (q.ftChar ≠ TCANY))
    (wilds : (rows.filter fun q => decide (q.ftChar = TCANY)) =
      others.filter fun q => decide (q.ftChar = TCANY)) {sn cn : Nat} (small : cn < NCHRS) :
    pickRow rows stop sn cn = pickRow others stop sn cn := by
  have explicit (l : List (FsmTrans Action)) : (l.filter fun q => decide (Explicit sn cn q)) =
      (l.filter fun q => decide (q.ftChar ≠ TCANY)).filter fun q => decide (Explicit sn cn q) := by
    rw [List.filter_filter]
    apply List.filter_congr
    intro q _
    by_cases here : Explicit sn cn q
    · have named : q.ftChar ≠ TCANY := fun any => not_both small here ⟨here.1, any⟩
      simp [here, named]
    · simp [here]
  have wild (l : List (FsmTrans Action)) : (l.filter fun q => decide (Wild sn q)) =
      (l.filter fun q => decide (q.ftChar = TCANY)).filter fun q => decide (Wild sn q) := by
    rw [List.filter_filter]
    apply List.filter_congr
    intro q _
    by_cases here : Wild sn q
    · simp [here, here.2]
    · simp [here]
  rw [pickRow, pickRow, explicit rows, explicit others, wild rows, wild others, explicits, wilds]

theorem same_rows {rows others : List (FsmTrans Action)}
    (explicits : (others.filter fun q => decide (q.ftChar ≠ TCANY)) =
      rows.filter fun q => decide (q.ftChar ≠ TCANY))
    (wilds : (others.filter fun q => decide (q.ftChar = TCANY)) =
      rows.filter fun q => decide (q.ftChar = TCANY)) : others.Perm rows := by
  have parts (l : List (FsmTrans Action)) : ((l.filter fun q => decide (q.ftChar = TCANY)) ++
      l.filter fun q => decide (q.ftChar ≠ TCANY)).Perm l := by
    simpa using List.filter_append_perm (fun q => decide (q.ftChar = TCANY)) l
  have left := parts others
  rw [explicits, wilds] at left
  exact left.symm.trans (parts rows)

/-- What fsminit compiles a table into, and that only the order of the explicit rows among
themselves and that of the others matter. -/
theorem fsminit_compiles (rows : List (FsmTrans Action)) (stop : FsmTrans Action) (nstates : Nat)
    (few : rows.length < 255) (valid : ∀ q ∈ rows, q.Valid nstates)
    (ends : stop.ftState = FSINVALID) (fsm : Fsm) :
    (∀ sn < nstates, ∀ cn < NCHRS,
      Selects rows sn cn rows.length (fsminit fsm (rows ++ [stop]) nstates sn cn)) ∧
    ∀ others : List (FsmTrans Action),
      (others.filter fun q => decide (q.ftChar ≠ TCANY)) =
        (rows.filter fun q => decide (q.ftChar ≠ TCANY)) →
      (others.filter fun q => decide (q.ftChar = TCANY)) =
        (rows.filter fun q => decide (q.ftChar = TCANY)) →
      ∀ sn < nstates, ∀ cn < NCHRS,
        (others ++ [stop])[fsminit fsm (others ++ [stop]) nstates sn cn]? =
          (rows ++ [stop])[fsminit fsm (rows ++ [stop]) nstates sn cn]? := by
  have compiled : ∀ sn < nstates, ∀ cn < NCHRS,
      Selects rows sn cn rows.length (fsminit fsm (rows ++ [stop]) nstates sn cn) :=
    fun sn inside cn small =>
      fsminit_selects [] nstates fsm few (fun q member => (valid q member).state.2) ends inside small
  refine ⟨compiled, fun others explicits wilds sn inside cn small => ?_⟩
  have perm : others.Perm rows := same_rows explicits wilds
  have other : Selects others sn cn others.length
      (fsminit fsm (others ++ [stop]) nstates sn cn) :=
    fsminit_selects [] nstates fsm (perm.length_eq ▸ few)
      (fun q member => (valid q (perm.mem_iff.mp member)).state.2) ends inside small
  rw [other.row stop, (compiled sn inside cn small).row stop,
    pick_row_congr stop explicits wilds small]

def mixed : List (FsmTrans Unit) := [⟨0, TCANY, 0, ()⟩, ⟨0, 255, 1, ()⟩, ⟨0, TCANY, 2, ()⟩]

theorem mixed_compiled : Selects mixed 0 255 3
      (fsminit (fun _ _ => 0) (mixed ++ [⟨FSINVALID, TCANY, FSINVALID, ()⟩]) 1 0 255) ∧
    Selects mixed 0 7 3
      (fsminit (fun _ _ => 0) (mixed ++ [⟨FSINVALID, TCANY, FSINVALID, ()⟩]) 1 0 7) := by
  have valid : ∀ q ∈ mixed, q.Valid 1 := by
    intro q member
    simp only [mixed, List.mem_cons, List.not_mem_nil, or_false] at member
    rcases member with rfl | rfl | rfl
    · exact ⟨by decide, Or.inr rfl⟩
    · exact ⟨by decide, Or.inl (by decide)⟩
    · exact ⟨by decide, Or.inr rfl⟩
  obtain ⟨compiled, -⟩ :=
    fsminit_compiles mixed ⟨FSINVALID, TCANY, FSINVALID, ()⟩ 1 (by decide) valid rfl fun _ _ => 0
  exact ⟨compiled 0 (by decide) 255 (by decide), compiled 0 (by decide) 7 (by decide)⟩

end NetworkProgramming.Telnet
