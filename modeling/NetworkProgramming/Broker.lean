import Mathlib.Data.List.Nodup
import Mathlib.Data.List.Perm.Basic

/-!
A broker with topics. What is published goes to everyone who is subscribed then; between one
publisher and one subscriber it stays in order, and that is all the order there is.
-/

namespace NetworkProgramming.Broker

variable {Who Message Key : Type*}

structure Flight (Who Message : Type*) where
  publisher : Who
  subscriber : Who
  message : Message

def publish (flights : List (Flight Who Message)) (p : Who) (subscribers : List Who)
    (m : Message) : List (Flight Who Message) :=
  flights ++ subscribers.map fun w => ⟨p, w, m⟩

def next [DecidableEq Who] (p w : Who) :
    List (Flight Who Message) → Option (Message × List (Flight Who Message))
  | [] => none
  | f :: rest =>
      if f.publisher = p ∧ f.subscriber = w then some (f.message, rest)
      else (next p w rest).map fun found => (found.1, f :: found.2)

theorem next_perm [DecidableEq Who] {p w : Who} {flights rest : List (Flight Who Message)}
    {m : Message} (found : next p w flights = some (m, rest)) :
    flights.Perm (⟨p, w, m⟩ :: rest) := by
  induction flights generalizing rest with
  | nil => cases found
  | cons f tail ih =>
      simp only [next] at found
      split at found
      · rename_i here
        obtain ⟨rfl, rfl⟩ := here
        cases found
        exact List.Perm.refl _
      · obtain ⟨⟨first, left⟩, later, same⟩ := Option.map_eq_some_iff.mp found
        cases same
        exact ((ih later).cons f).trans (List.Perm.swap _ _ _)

theorem mem_publish {flights : List (Flight Who Message)} {p : Who} {subscribers : List Who}
    {m : Message} {f : Flight Who Message} (member : f ∈ publish flights p subscribers m) :
    f ∈ flights ∨ f.message = m ∧ f.subscriber ∈ subscribers := by
  rcases List.mem_append.mp member with old | new
  · exact Or.inl old
  · obtain ⟨w, subscribed, rfl⟩ := List.mem_map.mp new
    exact Or.inr ⟨rfl, subscribed⟩

theorem publish_nodup {flights : List (Flight Who Message)} {p : Who} {subscribers : List Who}
    {m : Message} (key : Message → Key) (apart : (flights.map fun f => key f.message).Nodup)
    (new : ∀ f ∈ flights, key f.message ≠ key m) (few : subscribers.length ≤ 1) :
    ((publish flights p subscribers m).map fun f => key f.message).Nodup := by
  cases subscribers with
  | nil => simpa [publish] using apart
  | cons w more =>
      cases more with
      | cons _ _ => simp at few
      | nil =>
          simp only [publish, List.map_append, List.map_cons, List.map_nil]
          refine List.nodup_append.mpr ⟨apart, List.nodup_singleton _, ?_⟩
          intro k member l single
          obtain ⟨f, here, rfl⟩ := List.mem_map.mp member
          rw [List.mem_singleton.mp single]
          exact new f here

theorem one_subscriber {subscribers : List Who} (apart : subscribers.Nodup)
    (same : ∀ u ∈ subscribers, ∀ w ∈ subscribers, u = w) : subscribers.length ≤ 1 := by
  cases subscribers with
  | nil => exact Nat.zero_le _
  | cons u more =>
      cases more with
      | nil => exact Nat.le_refl _
      | cons w rest =>
          have equal := same u (by simp) w (by simp)
          simp [equal] at apart

end NetworkProgramming.Broker
