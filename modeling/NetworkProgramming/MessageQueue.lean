import Mathlib.Data.List.Basic

/-!
Queues whose messages have a kind: the sender puts a message last, a receiver
takes the first one of the kind it asks for. For every kind on its own the
queue is first in, first out.
-/

namespace NetworkProgramming.MessageQueue

variable {Message Kind : Type*} [DecidableEq Kind]

def ofKind (kind : Message → Kind) (k : Kind) (queue : List Message) : List Message :=
  queue.filter fun m => kind m = k

def receive (kind : Message → Kind) (k : Kind) : List Message → Option (Message × List Message)
  | [] => none
  | m :: queue =>
      if kind m = k then some (m, queue)
      else (receive kind k queue).map fun r => (r.1, m :: r.2)

theorem of_kind_send (kind : Message → Kind) (k : Kind) (queue : List Message) (m : Message) :
    ofKind kind k (queue ++ [m]) =
      ofKind kind k queue ++ if kind m = k then [m] else [] := by
  simp only [ofKind, List.filter_append, List.filter_cons, List.filter_nil, decide_eq_true_eq]

theorem mem_of_kind (kind : Message → Kind) (k : Kind) (queue : List Message) (m : Message) :
    m ∈ ofKind kind k queue ↔ m ∈ queue ∧ kind m = k := by
  simp [ofKind]

theorem receive_none (kind : Message → Kind) (k : Kind) (queue : List Message) :
    receive kind k queue = none ↔ ofKind kind k queue = [] := by
  induction queue with
  | nil => simp [receive, ofKind]
  | cons m queue ih =>
      by_cases same : kind m = k
      · simp [receive, ofKind, same]
      · simp only [ofKind] at ih
        simp [receive, ofKind, same, ih]

theorem receive_some (kind : Message → Kind) (k : Kind) (queue rest : List Message) (m : Message)
    (received : receive kind k queue = some (m, rest)) :
    ∃ before after, queue = before ++ m :: after ∧ rest = before ++ after ∧ kind m = k ∧
      ofKind kind k before = [] := by
  induction queue generalizing rest with
  | nil => cases received
  | cons first queue ih =>
      simp only [receive] at received
      split at received
      · rename_i same
        cases received
        exact ⟨[], queue, rfl, rfl, same, rfl⟩
      · rename_i other
        obtain ⟨⟨got, left⟩, later, same⟩ := Option.map_eq_some_iff.mp received
        cases same
        obtain ⟨before, after, rfl, rfl, right, nothing⟩ := ih left later
        refine ⟨first :: before, after, rfl, rfl, right, ?_⟩
        simpa [ofKind, other] using nothing

theorem of_kind_receive {kind : Message → Kind} {k : Kind} {queue rest : List Message}
    {m : Message} (received : receive kind k queue = some (m, rest)) (j : Kind) :
    ofKind kind j queue = (if kind m = j then [m] else []) ++ ofKind kind j rest := by
  obtain ⟨before, after, rfl, rfl, right, nothing⟩ := receive_some kind k queue rest m received
  simp only [ofKind, List.filter_append, List.filter_cons, decide_eq_true_eq] at nothing ⊢
  split
  · rename_i same
    rw [← right.symm.trans same, nothing]
    rfl
  · rfl

theorem receive_perm {kind : Message → Kind} {k : Kind} {queue rest : List Message}
    {m : Message} (received : receive kind k queue = some (m, rest)) :
    queue.Perm (m :: rest) := by
  obtain ⟨before, after, rfl, rfl, _, _⟩ := receive_some kind k queue rest m received
  exact List.perm_middle

end NetworkProgramming.MessageQueue
