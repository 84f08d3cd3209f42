import NetworkProgramming.Telnet

/-!
The data path of the telnet client when both directions are binary: what soputc puts on
the socket, ttwrite prints.
-/

namespace NetworkProgramming.Telnet

structure SpecialChars where
  tFlushc : Int
  tIntrc : Int
  tQuitc : Int
  sgErase : Int
  sgKill : Int

def soputc (special : SpecialChars) (s : Client) (c : UInt8) : List UInt8 :=
  if s.sndbinary then
    if c = TCIAC then [TCIAC, c] else [c]
  else
    let c := c &&& 0x7f
    if (c.toNat : Int) = special.tIntrc ∨ (c.toNat : Int) = special.tQuitc then [TCIAC, TCIP]
    else if (c.toNat : Int) = special.sgErase then [TCIAC, TCEC]
    else if (c.toNat : Int) = special.sgKill then [TCIAC, TCEL]
    else if (c.toNat : Int) = special.tFlushc then [TCIAC, TCAO]
    else [c]

def ttwrites (env : Environment) : (Nat → Bool) → Client → List (List UInt8) →
    Client × List (TtAction × List Output)
  | _, s, [] => (s, [])
  | ok, s, buf :: rest =>
      let r := ttwrite env ok s buf
      let q := ttwrites env (fun i => ok (i + buf.length)) r.1 rest
      (q.1, r.2 ++ q.2)

theorem ttwrite_append (env : Environment) (ok : Nat → Bool) (s : Client)
    (front back : List UInt8) :
    ttwrite env ok s (front ++ back) =
      let r := ttwrite env ok s front
      let q := ttwrite env (fun i => ok (i + front.length)) r.1 back
      (q.1, r.2 ++ q.2) := by
  induction front generalizing ok s with
  | nil => rfl
  | cons c front ih =>
      by_cases running : s.running = true
      · simp only [List.cons_append, ttwrite, if_pos running, ih, List.append_assoc,
          List.length_cons]
        simp only [Nat.add_assoc]
      · simp only [List.cons_append, ttwrite, if_neg running]
        cases back with
        | nil => rfl
        | cons d back => simp only [ttwrite, if_neg running, List.append_nil]

theorem ttwrites_flatten (env : Environment) (ok : Nat → Bool) (s : Client)
    (bufs : List (List UInt8)) : ttwrites env ok s bufs = ttwrite env ok s bufs.flatten := by
  induction bufs generalizing ok s with
  | nil => rfl
  | cons buf rest ih =>
      rw [ttwrites, List.flatten_cons, ttwrite_append, ih]

def printed (log : List (TtAction × List Output)) : List Output := log.flatMap Prod.snd

def DataOnly (log : List (TtAction × List Output)) : Prop :=
  ∀ call ∈ log, call.1 = .ttputc ∨ call.1 = .noOp

section Receiving
variable (env : Environment) (ok : Nat → Bool) {s : Client} (receives : s.rcvbinary = true)
  (data : s.ttstate = TSDATA) (running : s.running = true) (rest : List UInt8)

include receives data running

theorem ttwrite_plain (c : UInt8) (other : c ≠ TCIAC) :
    ttwrite env ok s (c :: rest) =
      let q := ttwrite env (fun i => ok (i + 1)) s rest
      (q.1, (.ttputc, [.xputc c]) :: q.2) := by
  have apart : c.toNat ≠ 255 := fun here => other (UInt8.toNat_inj.mp here)
  have row : ttrow s.ttstate c.toNat = (TSDATA, .ttputc) := by
    rw [data]
    exact if_neg apart
  have prints : ttputc env s c = (s, [.xputc c]) := if_pos receives
  have back : { s with ttstate := TSDATA } = s := by rw [← data]
  rw [ttwrite_cons env ok s c rest running (by rw [data]; decide), row]
  simp only [runAction, prints]
  rw [back]

theorem ttwrite_stuffed :
    ttwrite env ok s (TCIAC :: TCIAC :: rest) =
      let q := ttwrite env (fun i => ok (i + 1 + 1)) s rest
      (q.1, (.noOp, []) :: (.ttputc, [.xputc TCIAC]) :: q.2) := by
  let escaped : Client := { s with ttstate := TSIAC }
  have escapes : ttrow s.ttstate TCIAC.toNat = (TSIAC, .noOp) := by
    rw [data]
    rfl
  have row : ttrow escaped.ttstate TCIAC.toNat = (TSDATA, .ttputc) := rfl
  have prints : ttputc env escaped TCIAC = (escaped, [.xputc TCIAC]) := if_pos receives
  have back : { escaped with ttstate := TSDATA } = s := by rw [← data]
  have second := ttwrite_cons env (fun i => ok (i + 1)) escaped TCIAC rest running
    (show TSIAC < NTSTATES by decide)
  rw [row] at second
  simp only [runAction, prints] at second
  rw [back] at second
  rw [ttwrite_cons env ok s TCIAC _ running (by rw [data]; decide), escapes]
  simp only [runAction]
  rw [second]

theorem ttwrite_binary (special : SpecialChars) (sender : Client)
    (sends : sender.sndbinary = true) (bytes : List UInt8) :
    let r := ttwrite env ok s (bytes.flatMap (soputc special sender))
    r.1 = s ∧ printed r.2 = bytes.map .xputc ∧ DataOnly r.2 := by
  induction bytes generalizing ok with
  | nil => exact ⟨rfl, rfl, by simp [DataOnly, ttwrite]⟩
  | cons c bytes ih =>
      rw [List.flatMap_cons, soputc, if_pos sends]
      by_cases iac : c = TCIAC
      · subst iac
        obtain ⟨same, shown, only⟩ := ih fun i => ok (i + 1 + 1)
        rw [if_pos rfl, List.cons_append, List.singleton_append,
          ttwrite_stuffed env ok receives data running]
        refine ⟨same, ?_, ?_⟩
        · rw [List.map_cons, ← shown]
          rfl
        · simp only [DataOnly, List.forall_mem_cons]
          exact ⟨Or.inr trivial, Or.inl trivial, only⟩
      · obtain ⟨same, shown, only⟩ := ih fun i => ok (i + 1)
        rw [if_neg iac, List.singleton_append, ttwrite_plain env ok receives data running _ c iac]
        refine ⟨same, ?_, ?_⟩
        · rw [List.map_cons, ← shown]
          rfl
        · simp only [DataOnly, List.forall_mem_cons]
          exact ⟨Or.inl trivial, only⟩

end Receiving

theorem binary_transparent (env : Environment) (special : SpecialChars) (sender s : Client)
    (sends : sender.sndbinary = true) (receives : s.rcvbinary = true)
    (data : s.ttstate = TSDATA) (running : s.running = true) (bytes : List UInt8)
    (bufs : List (List UInt8)) (split : bufs.flatten = bytes.flatMap (soputc special sender))
    (ok : Nat → Bool) :
    let r := ttwrites env ok s bufs
    printed r.2 = bytes.map .xputc ∧ DataOnly r.2 ∧ r.1.ttstate = TSDATA ∧ r.1 = s := by
  intro r
  obtain ⟨same, shown, only⟩ :=
    ttwrite_binary env ok receives data running special sender sends bytes
  have whole : r = ttwrite env ok s (bytes.flatMap (soputc special sender)) := by
    rw [← split, ← ttwrites_flatten]
  rw [← whole] at same shown only
  exact ⟨shown, only, by rw [same, data], same⟩

theorem escape_cut :
    let both : Client := { fsmbuild with sndbinary := true, rcvbinary := true }
    let r := ttwrites ⟨none, fun _ => none⟩ (fun _ => true) both [[65, 255], [255, 66]]
    printed r.2 = [.xputc 65, .xputc 255, .xputc 66] ∧ DataOnly r.2 ∧
      r.1.ttstate = TSDATA ∧ r.1 = both := by
  intro both
  exact binary_transparent ⟨none, fun _ => none⟩ ⟨0, 0, 0, 0, 0⟩ both both rfl rfl rfl rfl
    [65, 255, 66] [[65, 255], [255, 66]] (by decide) fun _ => true

end NetworkProgramming.Telnet
