import Mathlib.Tactic.Common
import NetworkProgramming.Machine

/-!
A group in which each member has a flag that is raised whenever the group changes and lowered
when the member is told. If every change raises all flags, what a member is told is right.
-/

namespace NetworkProgramming.ChangeNotice

variable {Member Reply : Type*}

inductive Event (Member Reply : Type*) where
  | joined (m : Member)
  | changed
  | told (m : Member) (reply : Reply)
  deriving DecidableEq

def Event.Restarts (m : Member) : Event Member Reply → Prop
  | .joined n | .told n _ => n = m
  | .changed => False

/-- The group has changed since `m` was last told, or since it joined. -/
def News (m : Member) (events : List (Event Member Reply)) : Prop :=
  ∃ before after, events = before ++ .changed :: after ∧ ∀ e ∈ after, ¬ e.Restarts m

theorem news_changed (m : Member) (events : List (Event Member Reply)) :
    News m (events ++ [.changed]) :=
  ⟨events, [], rfl, by simp⟩

theorem news_snoc (m : Member) (events : List (Event Member Reply)) (e : Event Member Reply)
    (other : e ≠ .changed) : News m (events ++ [e]) ↔ News m events ∧ ¬ e.Restarts m := by
  constructor
  · rintro ⟨before, after, whole, none_⟩
    rcases Machine.split_snoc whole.symm with ⟨-, -, same⟩ | ⟨init, rfl, same⟩
    · exact absurd same.symm other
    · exact ⟨⟨before, init, same.symm, fun d member => none_ d (List.mem_append_left _ member)⟩,
        none_ e (by simp)⟩
  · rintro ⟨⟨before, after, rfl, none_⟩, here⟩
    refine ⟨before, after ++ [e], by simp, fun d member => ?_⟩
    rcases List.mem_append.mp member with old | new
    · exact none_ d old
    · rwa [List.mem_singleton.mp new]

/-- What every member is told: `changed` if there is news and `ok` if there is none. -/
def Truthful (changed ok : Reply) (events : List (Event Member Reply)) : Prop :=
  ∀ before m reply after, events = before ++ .told m reply :: after →
    (News m before → reply = changed) ∧ (¬ News m before → reply = ok)

theorem truthful_snoc (changed ok : Reply) (events : List (Event Member Reply))
    (e : Event Member Reply) (earlier : Truthful changed ok events)
    (last : ∀ m reply, e = .told m reply →
      (News m events → reply = changed) ∧ (¬ News m events → reply = ok)) :
    Truthful changed ok (events ++ [e]) := by
  intro before m reply after whole
  rcases Machine.split_snoc whole.symm with ⟨-, rfl, same⟩ | ⟨init, -, same⟩
  · exact last m reply same.symm
  · exact earlier before m reply init same.symm

structure Noticed (changed ok : Reply) (events : List (Event Member Reply))
    (present : Member → Prop) (flag : Member → Bool) : Prop where
  truthful : Truthful changed ok events
  tracks : ∀ m, present m → (flag m = true ↔ News m events)

namespace Noticed

variable {changed ok : Reply} {events : List (Event Member Reply)}
  {present present' : Member → Prop} {flag flag' : Member → Bool}

theorem empty (nobody : ∀ m, ¬ present m) :
    Noticed changed ok ([] : List (Event Member Reply)) present flag :=
  ⟨fun before m reply after whole => by simp at whole, fun m here => absurd here (nobody m)⟩

theorem stay (noticed : Noticed changed ok events present flag)
    (same : ∀ m, present' m → present m ∧ flag' m = flag m) :
    Noticed changed ok events present' flag' := by
  refine ⟨noticed.truthful, fun m here => ?_⟩
  obtain ⟨there, equal⟩ := same m here
  rw [equal]
  exact noticed.tracks m there

theorem change (noticed : Noticed changed ok events present flag)
    (raised : ∀ m, present' m → flag' m = true) :
    Noticed changed ok (events ++ [.changed]) present' flag' := by
  refine ⟨truthful_snoc _ _ _ _ noticed.truthful nofun, fun m here => ?_⟩
  exact iff_of_true (raised m here) (news_changed m events)

theorem join (noticed : Noticed changed ok events present flag) (m : Member)
    (lowered : flag' m = false)
    (same : ∀ n, n ≠ m → present' n → present n ∧ flag' n = flag n) :
    Noticed changed ok (events ++ [.joined m]) present' flag' := by
  refine ⟨truthful_snoc _ _ _ _ noticed.truthful nofun, fun n here => ?_⟩
  rw [news_snoc n events (.joined m) nofun]
  by_cases mine : n = m
  · subst mine
    simp [Event.Restarts, lowered]
  · obtain ⟨there, equal⟩ := same n mine here
    rw [equal, noticed.tracks n there]
    simp [Event.Restarts, Ne.symm mine]

theorem tell (noticed : Noticed changed ok events present flag) (m : Member) (here : present m)
    (lowered : flag' m = false)
    (same : ∀ n, n ≠ m → present' n → present n ∧ flag' n = flag n) :
    Noticed changed ok (events ++ [.told m (if flag m then changed else ok)]) present' flag' := by
  refine ⟨truthful_snoc _ _ _ _ noticed.truthful ?_, fun n later => ?_⟩
  · intro n reply told
    cases told
    have raised := noticed.tracks m here
    exact ⟨fun news => if_pos (raised.mpr news), fun none_ => if_neg (mt raised.mp none_)⟩
  · rw [news_snoc n events (.told m _) nofun]
    by_cases mine : n = m
    · subst mine
      simp [Event.Restarts, lowered]
    · obtain ⟨there, equal⟩ := same n mine later
      rw [equal, noticed.tracks n there]
      simp [Event.Restarts, Ne.symm mine]

end Noticed

end NetworkProgramming.ChangeNotice
