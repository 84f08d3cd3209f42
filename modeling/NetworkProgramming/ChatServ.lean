import Mathlib.Algebra.Order.Ring.Int
import Mathlib.Tactic.Common
import NetworkProgramming.Custody
import NetworkProgramming.Machine

/-!
chat_serv.c: the table of the clients, to which main adds and from which the thread
of a client removes. A thread is given the address of the variable that main accepts
into. What is done while mutx is held is one step.
-/

namespace NetworkProgramming.ChatServ

def BUF_SIZE : Nat := 100
def MAX_CLNT : Nat := 256

/-- In main: the client has been accepted, waits for mutx, is entered, gets its thread. -/
inductive Main where
  | accept
  | insert
  | insertLocked
  | create
  deriving DecidableEq

/-- A message of none is what an error of read leaves, with a length of -1. -/
inductive Thread where
  | absent
  | start
  | reading (clntSock : Int)
  | sending (clntSock : Int) (msg : Option (List UInt8))
  | sendLocked (clntSock : Int) (msg : Option (List UInt8))
  | ended (clntSock : Int)
  | removing (clntSock : Int)
  | closing (clntSock : Int)
  | finished
  deriving DecidableEq

inductive Party where
  | main
  | thread (t : Nat)
  deriving DecidableEq

/-- `clntSock` is the variable of main; `opened` are the descriptors of clients that are
open, oldest first. -/
structure State where
  clntCnt : Int
  clntSocks : Int → Int
  mutx : Option Party
  clntSock : Int
  main : Main
  thread : Nat → Thread
  created : Nat
  opened : List Int

inductive Action where
  | accept (clntSock : Int)
  | lock (who : Party)
  | insert
  | create
  | begin (t : Nat)
  | read (t : Nat) (bytes : Option (List UInt8))
  | send (t : Nat)
  | remove (t : Nat)
  | close (t : Nat)
  deriving DecidableEq

inductive Answer where
  | accepted (clntSock : Int)
  | disconnected (clntSock : Int)
  | wrote (clntSocks : List Int) (msg : Option (List UInt8))
  | silent
  deriving DecidableEq

def State.table (s : State) : List Int :=
  (List.range s.clntCnt.toNat).map fun (i : Nat) => s.clntSocks i

/-- The inner loop, `while(i++<clnt_cnt-1) clnt_socks[i]=clnt_socks[i+1]`, in so many turns at
most. -/
def shift (clntSocks : Int → Int) (clntCnt : Int) : Nat → Int → Int → Int
  | 0, _ => clntSocks
  | turns + 1, i =>
      if i < clntCnt - 1 then
        shift (Function.update clntSocks (i + 1) (clntSocks (i + 1 + 1))) clntCnt turns (i + 1)
      else clntSocks

def removed (clntSocks : Int → Int) (clntCnt clntSock : Int) : Int → Int :=
  match (List.range clntCnt.toNat).find? fun (i : Nat) => clntSock == clntSocks i with
  | some i => shift clntSocks clntCnt clntCnt.toNat i
  | none => clntSocks

namespace State

def go (s : State) (t : Nat) (place : Thread) : State :=
  { s with thread := Function.update s.thread t place }

def accept (s : State) (fd : Int) : State :=
  { s with clntSock := fd, main := .insert, opened := s.opened ++ [fd] }

/-- clnt_socks[clnt_cnt++]=clnt_sock -/
def enter (s : State) : State :=
  { s with
    clntSocks := Function.update s.clntSocks s.clntCnt s.clntSock
    clntCnt := s.clntCnt + 1
    mutx := none
    main := .create }

def spawn (s : State) : State :=
  { s.go s.created .start with created := s.created + 1, main := .accept }

def remove (s : State) (t : Nat) (fd : Int) : State :=
  { s.go t (.closing fd) with
    clntSocks := removed s.clntSocks s.clntCnt fd
    clntCnt := s.clntCnt - 1
    mutx := none }

def close (s : State) (t : Nat) (fd : Int) : State :=
  { s.go t .finished with opened := s.opened.erase fd }

end State

/-- accept returns a descriptor that is not open, and there are never more than MAX_CLNT. -/
def step (s : State) : Action → Option (State × Answer)
  | .accept fd =>
      if s.main = .accept ∧ fd ∉ s.opened ∧ s.opened.length < MAX_CLNT then
        some (s.accept fd, .accepted fd)
      else none
  | .lock .main =>
      if s.main = .insert ∧ s.mutx = none then
        some ({ s with main := .insertLocked, mutx := some .main }, .silent)
      else none
  | .lock (.thread t) =>
      if s.mutx = none then
        match s.thread t with
        | .sending fd msg =>
            some ({ s.go t (.sendLocked fd msg) with mutx := some (.thread t) }, .silent)
        | .ended fd => some ({ s.go t (.removing fd) with mutx := some (.thread t) }, .silent)
        | _ => none
      else none
  | .insert => if s.main = .insertLocked then some (s.enter, .silent) else none
  | .create => if s.main = .create then some (s.spawn, .silent) else none
  | .begin t =>
      match s.thread t with
      | .start => some (s.go t (.reading s.clntSock), .silent)
      | _ => none
  | .read t bytes =>
      match s.thread t with
      | .reading fd =>
          if bytes = some [] then some (s.go t (.ended fd), .disconnected fd)
          else if (bytes.getD []).length ≤ BUF_SIZE then some (s.go t (.sending fd bytes), .silent)
          else none
      | _ => none
  | .send t =>
      match s.thread t with
      | .sendLocked fd msg =>
          some ({ s.go t (.reading fd) with mutx := none }, .wrote s.table msg)
      | _ => none
  | .remove t =>
      match s.thread t with
      | .removing fd => some (s.remove t fd, .silent)
      | _ => none
  | .close t =>
      match s.thread t with
      | .closing fd => some (s.close t fd, .silent)
      | _ => none

abbrev Step := Transition State Action Answer

def machine : Machine State Action Answer where
  start s := s.clntCnt = 0 ∧ s.mutx = none ∧ s.main = .accept ∧ (∀ t, s.thread t = .absent) ∧
    s.created = 0 ∧ s.opened = []
  step := step

/-! What the table should be. -/

def Answer.record (clients : List Int) : Answer → List Int
  | .accepted fd => clients ++ [fd]
  | .disconnected fd => clients.erase fd
  | .wrote _ _ | .silent => clients

def connected (trace : List Step) : List Int :=
  trace.foldl (fun clients e => e.output.record clients) []

def Thread.client (clntSock : Int) : Thread → List Int
  | .absent | .finished => []
  | .start => [clntSock]
  | .reading fd | .sending fd _ | .sendLocked fd _ | .ended fd | .removing fd | .closing fd => [fd]

def Thread.leaving : Thread → Option Int
  | .ended fd | .removing fd => some fd
  | _ => none

def Thread.left : Thread → Option Int
  | .closing fd => some fd
  | _ => none

def State.pending (s : State) : List Int :=
  match s.main with
  | .insert | .insertLocked => [s.clntSock]
  | .accept | .create => []

def State.listed (s : State) : List Int := s.table ++ s.pending

def State.clients (s : State) : Party → List Int
  | .main =>
      match s.main with
      | .accept => []
      | .insert | .insertLocked | .create => [s.clntSock]
  | .thread t => (s.thread t).client s.clntSock

def State.leaving (s : State) (fd : Int) : Bool :=
  (List.range s.created).any fun t => (s.thread t).leaving == some fd

/-- A thread has read its argument before main accepts again, and the client that is removed
is the last of the table. -/
def Met (e : Step) : Bool :=
  let s := e.before
  match e.action with
  | .accept _ => (List.range s.created).all fun t => s.thread t != .start
  | .remove t => (s.thread t).leaving == s.table.getLast?
  | _ => true

structure Kept (clients : List Int) (s : State) : Prop where
  count : 0 ≤ s.clntCnt
  custody : Custody (· ∈ s.opened) s.clients
  nodup : s.opened.Nodup
  distinct : s.listed.Nodup
  listed : ∀ fd, fd ∈ s.listed ↔ fd ∈ s.opened ∧ ∀ t, (s.thread t).left ≠ some fd
  connected : clients = s.listed.filter fun fd => !s.leaving fd
  absent : ∀ t, s.created ≤ t → s.thread t = .absent

theorem kept_start (s : State) (first : machine.start s) : Kept (connected []) s := by
  obtain ⟨count, -, main, threads, -, none_⟩ := first
  have table : s.table = [] := by rw [State.table, count]; rfl
  have listed : s.listed = [] := by rw [State.listed, table, State.pending, main]; rfl
  have nobody (who : Party) : s.clients who = [] := by
    cases who with
    | main => rw [State.clients, main]
    | thread t => rw [State.clients, threads]; rfl
  refine ⟨count.ge, ⟨fun who => ?_, fun who other fd => ?_, fun fd => ?_⟩, ?_, ?_, fun fd => ?_, ?_,
    fun t _ => threads t⟩
  · rw [nobody]
    exact List.nodup_nil
  · rw [nobody]
    exact nofun
  · simp [none_, nobody]
  · rw [none_]
    exact List.nodup_nil
  · rw [listed]
    exact List.nodup_nil
  · simp [listed, none_]
  · rw [listed]
    rfl

theorem leaving_iff (s : State) (fd : Int) :
    s.leaving fd = true ↔ ∃ t < s.created, (s.thread t).leaving = some fd := by
  simp [State.leaving, List.any_eq_true, beq_iff_eq]

theorem Kept.present {clients : List Int} {s : State} (kept : Kept clients s) (t : Nat)
    (some_ : s.thread t ≠ .absent) : t < s.created := by
  by_contra beyond
  exact some_ (kept.absent t (by omega))

theorem leaving_client {place : Thread} {clntSock fd : Int} (leaves : place.leaving = some fd) :
    fd ∈ place.client clntSock := by
  cases place with
  | ended x => exact Option.some.inj leaves ▸ List.mem_singleton_self x
  | removing x => exact Option.some.inj leaves ▸ List.mem_singleton_self x
  | _ => cases leaves

theorem left_client {place : Thread} {clntSock fd : Int} (gone : place.left = some fd) :
    fd ∈ place.client clntSock := by
  cases place with
  | closing x => exact Option.some.inj gone ▸ List.mem_singleton_self x
  | _ => cases gone

theorem go_other {s : State} {t : Nat} {place : Thread} (u : Nat) (other : u ≠ t) :
    (s.go t place).thread u = s.thread u :=
  Function.update_of_ne other _ _

theorem go_self {s : State} {t : Nat} {place : Thread} : (s.go t place).thread t = place :=
  Function.update_self _ _ _

theorem go_clients (s : State) (t : Nat) (place : Thread)
    (client : place.client s.clntSock = (s.thread t).client s.clntSock) :
    (s.go t place).clients = s.clients := by
  funext who
  cases who with
  | main => rfl
  | thread u =>
      by_cases same : u = t
      · rw [same, State.clients, State.clients, go_self, ← client]
        rfl
      · rw [State.clients, State.clients, go_other u same]
        rfl

theorem go_left (s : State) (t : Nat) (place : Thread) (left : place.left = (s.thread t).left)
    (u : Nat) : ((s.go t place).thread u).left = (s.thread u).left := by
  by_cases same : u = t
  · rw [same, go_self, left]
  · rw [go_other u same]

theorem go_leaving (s : State) (t : Nat) (place : Thread)
    (leaving : place.leaving = (s.thread t).leaving) (fd : Int) :
    (s.go t place).leaving fd = s.leaving fd := by
  have same (u : Nat) : ((s.go t place).thread u).leaving = (s.thread u).leaving := by
    by_cases here : u = t
    · rw [here, go_self, leaving]
    · rw [go_other u here]
  simp only [State.leaving, same]
  rfl

theorem go_absent {clients : List Int} {s : State} (kept : Kept clients s) (t : Nat)
    (place : Thread) (present : t < s.created) (u : Nat) (beyond : s.created ≤ u) :
    (s.go t place).thread u = .absent := by
  rw [go_other u (by omega)]
  exact kept.absent u beyond

theorem Kept.go {clients : List Int} {s : State} (kept : Kept clients s) (t : Nat) (place : Thread)
    (mutx : Option Party) (present : t < s.created)
    (client : place.client s.clntSock = (s.thread t).client s.clntSock)
    (leaving : place.leaving = (s.thread t).leaving) (left : place.left = (s.thread t).left) :
    Kept clients { s.go t place with mutx := mutx } := by
  refine ⟨kept.count, ?_, kept.nodup, kept.distinct, fun fd => ?_, ?_,
    fun u beyond => go_absent kept t place present u beyond⟩
  · have custody := kept.custody
    rwa [← go_clients s t place client] at custody
  · refine (kept.listed fd).trans (and_congr_right fun _ => forall_congr' fun u => ?_)
    rw [← go_left s t place left u]
  · refine kept.connected.trans ?_
    apply List.filter_congr
    intro fd _
    rw [← go_leaving s t place leaving fd]
    rfl

theorem accept_kept {clients : List Int} {s : State} (kept : Kept clients s) (fd : Int)
    (main : s.main = .accept) (new : fd ∉ s.opened)
    (started : ∀ t < s.created, s.thread t ≠ .start) :
    Kept (clients ++ [fd]) (s.accept fd) := by
  have listed : (s.accept fd).listed = s.listed ++ [fd] := by
    rw [State.listed, State.listed, State.pending, State.pending, main, List.append_nil]
    rfl
  have fresh : fd ∉ s.listed := fun member => new ((kept.listed fd).mp member).1
  have same (t : Nat) : (s.thread t).client fd = (s.thread t).client s.clntSock := by
    by_cases present : t < s.created
    · have other := started t present
      cases here : s.thread t with
      | start => exact absurd here other
      | _ => rfl
    · rw [kept.absent t (by omega)]
      rfl
  -- who leaves, or has left, has an open descriptor
  have owned (t : Nat) (x : Int) (has : x ∈ (s.thread t).client s.clntSock) : x ≠ fd := by
    rintro rfl
    exact new ((kept.custody.covers x).mpr ⟨.thread t, has⟩)
  have staying : s.leaving fd = false := by
    rw [← Bool.not_eq_true, leaving_iff]
    rintro ⟨t, -, leaves⟩
    exact owned t fd (leaving_client leaves) rfl
  refine ⟨kept.count, ?_, ?_, ?_, fun x => ?_, ?_, kept.absent⟩
  · have custody : Custody (fun x => x = fd ∨ x ∈ s.opened) (s.accept fd).clients := by
      refine kept.custody.add .main fd new ?_ fun who other => ?_
      · rw [State.clients, State.clients, main]
        exact List.Perm.refl _
      · cases who with
        | main => exact absurd rfl other
        | thread t =>
            rw [State.clients, State.clients, ← same t]
            exact List.Perm.refl _
    refine custody.congr fun x => ?_
    rw [State.accept, List.mem_append, List.mem_singleton, or_comm]
  · exact List.nodup_append.mpr ⟨kept.nodup, List.nodup_singleton fd, fun x member y only =>
      ne_of_mem_of_not_mem member (List.mem_singleton.mp only ▸ new)⟩
  · rw [listed]
    exact List.nodup_append.mpr ⟨kept.distinct, List.nodup_singleton fd, fun x member y only =>
      ne_of_mem_of_not_mem member (List.mem_singleton.mp only ▸ fresh)⟩
  · rw [listed, List.mem_append, List.mem_singleton, kept.listed]
    rw [State.accept, List.mem_append, List.mem_singleton]
    constructor
    · rintro (⟨old, stays⟩ | rfl)
      · exact ⟨Or.inl old, stays⟩
      · exact ⟨Or.inr rfl, fun t gone => owned t x (left_client gone) rfl⟩
    · rintro ⟨old | rfl, stays⟩
      · exact Or.inl ⟨old, stays⟩
      · exact Or.inr rfl
  · rw [listed, List.filter_append, kept.connected]
    have last : [fd].filter (fun x => !(s.accept fd).leaving x) = [fd] := by
      have stays : (s.accept fd).leaving fd = false := staying
      rw [List.filter_cons_of_pos (by rw [stays]; rfl), List.filter_nil]
    rw [last]
    rfl

theorem enter_table (s : State) (count : 0 ≤ s.clntCnt) :
    s.enter.table = s.table ++ [s.clntSock] := by
  have one : (s.clntCnt + 1).toNat = s.clntCnt.toNat + 1 := by omega
  rw [State.table, State.enter, one, List.range_succ, List.map_append]
  congr 1
  · apply List.map_congr_left
    intro i member
    rw [List.mem_range] at member
    exact Function.update_of_ne (by omega) _ _
  · simp [Int.toNat_of_nonneg count]

theorem enter_kept {clients : List Int} {s : State} (kept : Kept clients s)
    (main : s.main = .insertLocked) : Kept clients s.enter := by
  have listed : s.enter.listed = s.listed := by
    rw [State.listed, enter_table s kept.count, State.listed, State.pending, State.pending, main]
    exact List.append_nil _
  refine ⟨?_, kept.custody.perm fun who => ?_, kept.nodup, by rw [listed]; exact kept.distinct,
    fun fd => ?_, ?_, kept.absent⟩
  · have count := kept.count
    change 0 ≤ s.clntCnt + 1
    omega
  · cases who with
    | main =>
        rw [State.clients, State.clients, main]
        exact List.Perm.refl _
    | thread t => exact List.Perm.refl _
  · rw [listed]
    exact kept.listed fd
  · rw [listed]
    exact kept.connected

theorem spawn_kept {clients : List Int} {s : State} (kept : Kept clients s)
    (main : s.main = .create) : Kept clients s.spawn := by
  have before := kept.absent s.created (le_refl _)
  have listed : s.spawn.listed = s.listed := by
    rw [State.listed, State.listed, State.pending, State.pending, main]
    rfl
  have left := go_left s s.created .start (by rw [before]; rfl)
  refine ⟨kept.count, ?_, kept.nodup, by rw [listed]; exact kept.distinct, fun fd => ?_, ?_,
    fun t beyond => ?_⟩
  -- the connection goes from main to the new thread
  · refine kept.custody.move .main (.thread s.created) s.clntSock [] nofun ?_ ?_ ?_ ?_
    · rw [State.clients, main]
    · exact List.Perm.refl _
    · rw [State.clients, State.clients, before]
      change ((s.go s.created .start).thread s.created).client s.clntSock |>.Perm _
      rw [go_self]
      exact List.Perm.refl _
    · intro who other own
      cases who with
      | main => exact absurd rfl other
      | thread t =>
          have away : t ≠ s.created := fun same => own (by rw [same])
          rw [State.clients, State.clients]
          change ((s.go s.created .start).thread t).client s.clntSock |>.Perm _
          rw [go_other t away]
  · rw [listed]
    refine (kept.listed fd).trans (and_congr_right fun _ => forall_congr' fun t => ?_)
    rw [← left t]
    exact Iff.rfl
  · rw [listed, kept.connected]
    apply List.filter_congr
    intro fd _
    have same : s.spawn.leaving fd = s.leaving fd := by
      rw [Bool.eq_iff_iff, leaving_iff, leaving_iff]
      constructor
      · rintro ⟨t, below, leaves⟩
        by_cases new : t = s.created
        · rw [new] at leaves
          change ((s.go s.created .start).thread s.created).leaving = some fd at leaves
          rw [go_self] at leaves
          cases leaves
        · change ((s.go s.created .start).thread t).leaving = some fd at leaves
          rw [go_other t new] at leaves
          exact ⟨t, by change t < s.created + 1 at below; omega, leaves⟩
      · rintro ⟨t, below, leaves⟩
        refine ⟨t, below.trans (Nat.lt_succ_self _), ?_⟩
        change ((s.go s.created .start).thread t).leaving = some fd
        rw [go_other t below.ne]
        exact leaves
    rw [same]
  · change (s.go s.created .start).thread t = .absent
    change s.created + 1 ≤ t at beyond
    rw [go_other t (by omega)]
    exact kept.absent t (by omega)

theorem end_kept {clients : List Int} {s : State} (kept : Kept clients s) (t : Nat) (fd : Int)
    (here : s.thread t = .reading fd) : Kept (clients.erase fd) (s.go t (.ended fd)) := by
  have present := kept.present t (by rw [here]; nofun)
  have left := go_left s t (.ended fd) (by rw [here]; rfl)
  refine ⟨kept.count, ?_, kept.nodup, kept.distinct, fun x => ?_, ?_,
    fun u beyond => go_absent kept t _ present u beyond⟩
  · have custody := kept.custody
    rwa [← go_clients s t (.ended fd) (by rw [here]; rfl)] at custody
  · refine (kept.listed x).trans (and_congr_right fun _ => forall_congr' fun u => ?_)
    rw [left u]
  · have leaving (x : Int) : (s.go t (.ended fd)).leaving x = (s.leaving x || x == fd) := by
      rw [Bool.eq_iff_iff, leaving_iff, Bool.or_eq_true, leaving_iff, beq_iff_eq]
      constructor
      · rintro ⟨u, below, leaves⟩
        by_cases same : u = t
        · rw [same, go_self] at leaves
          exact Or.inr (Option.some.inj leaves).symm
        · rw [go_other u same] at leaves
          exact Or.inl ⟨u, below, leaves⟩
      · rintro (⟨u, below, leaves⟩ | rfl)
        · have same : u ≠ t := by
            rintro rfl
            rw [here] at leaves
            cases leaves
          exact ⟨u, below, by rwa [go_other u same]⟩
        · exact ⟨t, present, by rw [go_self]; rfl⟩
    have distinct : (s.listed.filter fun x => !s.leaving x).Nodup := kept.distinct.filter _
    rw [kept.connected, distinct.erase_eq_filter, List.filter_filter]
    apply List.filter_congr
    intro x _
    rw [leaving x, Bool.not_or, Bool.and_comm]
    rfl

theorem table_last (s : State) (fd : Int) (last : s.table.getLast? = some fd) :
    1 ≤ s.clntCnt ∧ s.clntSocks (s.clntCnt - 1) = fd ∧
      s.table = ((List.range (s.clntCnt - 1).toNat).map fun (i : Nat) => s.clntSocks i) ++ [fd] := by
  obtain ⟨n, some_⟩ : ∃ n, s.clntCnt.toNat = n + 1 := by
    cases size : s.clntCnt.toNat with
    | zero => simp [State.table, size] at last
    | succ n => exact ⟨n, rfl⟩
  have value : s.clntSocks n = fd := by
    rw [State.table, some_, List.range_succ, List.map_append] at last
    simpa using last
  have index : s.clntCnt - 1 = n := by omega
  refine ⟨by omega, by rwa [index], ?_⟩
  rw [State.table, some_, List.range_succ, List.map_append, index, Int.toNat_natCast, ← value]
  rfl

theorem removed_last (s : State) (fd : Int) (last : s.table.getLast? = some fd)
    (distinct : s.table.Nodup) : removed s.clntSocks s.clntCnt fd = s.clntSocks := by
  obtain ⟨some_, value, -⟩ := table_last s fd last
  rw [removed]
  split
  · rename_i i found
    have inside := List.mem_of_find?_eq_some found
    have same := List.find?_some found
    rw [beq_iff_eq, ← value] at same
    have apart := (List.nodup_map_iff_inj_on List.nodup_range).mp distinct
    have index := apart (s.clntCnt - 1).toNat (List.mem_range.mpr (by omega)) i inside
      (by rw [Int.toNat_of_nonneg (by omega)]; exact same)
    cases turns : s.clntCnt.toNat with
    | zero => rfl
    | succ n =>
        rw [shift, if_neg]
        omega
  · rfl

theorem remove_kept {clients : List Int} {s : State} (kept : Kept clients s) (t : Nat) (fd : Int)
    (here : s.thread t = .removing fd) (last : s.table.getLast? = some fd) :
    Kept clients (s.remove t fd) := by
  have present := kept.present t (by rw [here]; nofun)
  obtain ⟨some_, -, split⟩ := table_last s fd last
  have unmoved := removed_last s fd last (List.nodup_append.mp kept.distinct).1
  have table : s.table = (s.remove t fd).table ++ [fd] := by
    rw [split, State.table, State.remove, unmoved]
  have pending : (s.remove t fd).pending = s.pending := rfl
  -- the client is not listed any more, and all others are
  have perm : s.listed.Perm (fd :: (s.remove t fd).listed) := by
    rw [State.listed, State.listed, pending, table, List.append_assoc, List.singleton_append]
    exact List.perm_middle
  have whole := perm.nodup_iff.mp kept.distinct
  obtain ⟨gone, distinct⟩ := List.nodup_cons.mp whole
  have place (u : Nat) : (s.remove t fd).thread u = (s.go t (.closing fd)).thread u := rfl
  have alone (u : Nat) (x : Int) (has : x ∈ (s.thread u).client s.clntSock) (same : x = fd) :
      u = t := by
    have mine : fd ∈ s.clients (.thread t) := by
      rw [State.clients, here]
      exact List.mem_singleton_self fd
    have apart := kept.custody.apart (.thread u) (.thread t) fd (same ▸ has) mine
    cases apart
    rfl
  refine ⟨?_, ?_, kept.nodup, distinct, fun x => ?_, ?_,
    fun u beyond => go_absent kept t _ present u beyond⟩
  · change 0 ≤ s.clntCnt - 1
    omega
  · have custody := kept.custody
    rwa [← go_clients s t (.closing fd) (by rw [here]; rfl)] at custody
  · have old : x ∈ s.listed ↔ x = fd ∨ x ∈ (s.remove t fd).listed := by
      rw [perm.mem_iff, List.mem_cons]
    constructor
    · intro member
      obtain ⟨opened, stays⟩ := (kept.listed x).mp (old.mpr (Or.inr member))
      refine ⟨opened, fun u => ?_⟩
      rw [place u]
      by_cases same : u = t
      · rw [same, go_self]
        intro left
        exact gone (Option.some.inj left ▸ member)
      · rw [go_other u same]
        exact stays u
    · rintro ⟨opened, stays⟩
      have other : x ≠ fd := by
        rintro rfl
        exact stays t (by rw [place, go_self]; rfl)
      have listed := (kept.listed x).mpr ⟨opened, fun u left => ?_⟩
      · exact (old.mp listed).resolve_left other
      · have away : u ≠ t := by
          rintro rfl
          rw [here] at left
          cases left
        exact stays u (by rwa [place, go_other u away])
  · have leaves : s.leaving fd = true := (leaving_iff s fd).mpr ⟨t, present, by rw [here]; rfl⟩
    have listed : s.listed = (s.remove t fd).table ++ fd :: (s.remove t fd).pending := by
      rw [State.listed, table, List.append_assoc, pending]
      rfl
    rw [kept.connected, listed, List.filter_append, List.filter_cons_of_neg (by simp [leaves]),
      ← List.filter_append]
    apply List.filter_congr
    intro x member
    have other : x ≠ fd := ne_of_mem_of_not_mem member gone
    have same : (s.remove t fd).leaving x = s.leaving x := by
      rw [Bool.eq_iff_iff, leaving_iff, leaving_iff]
      apply exists_congr
      intro u
      apply and_congr_right
      intro _
      rw [place u]
      by_cases own : u = t
      · rw [own, go_self, here]
        simp only [Thread.leaving, Option.some.injEq]
        exact ⟨nofun, fun same => absurd same.symm other⟩
      · rw [go_other u own]
    rw [same]

theorem close_kept {clients : List Int} {s : State} (kept : Kept clients s) (t : Nat) (fd : Int)
    (here : s.thread t = .closing fd) : Kept clients (s.close t fd) := by
  have present := kept.present t (by rw [here]; nofun)
  have place (u : Nat) : (s.close t fd).thread u = (s.go t .finished).thread u := rfl
  have mine : fd ∈ s.clients (.thread t) := by
    rw [State.clients, here]
    exact List.mem_singleton_self fd
  -- the thread has taken its descriptor off the table before it closes it
  have unlisted : fd ∉ s.listed := fun member =>
    ((kept.listed fd).mp member).2 t (by rw [here]; rfl)
  refine ⟨kept.count, ?_, kept.nodup.erase fd, kept.distinct, fun x => ?_, ?_,
    fun u beyond => go_absent kept t _ present u beyond⟩
  · have custody : Custody (fun x => x ∈ s.opened ∧ x ≠ fd) (s.close t fd).clients := by
      refine kept.custody.drop (.thread t) fd [] ?_ ?_ fun who other => ?_
      · rw [State.clients, here]
        exact List.Perm.refl _
      · rw [State.clients, place, go_self]
        exact List.Perm.refl _
      · cases who with
        | main => exact List.Perm.refl _
        | thread u =>
            rw [State.clients, State.clients, place, go_other u fun same => other (by rw [same])]
            exact List.Perm.refl _
    refine custody.congr fun x => ?_
    rw [State.close, kept.nodup.mem_erase_iff, and_comm]
  · change x ∈ s.listed ↔ _
    rw [kept.listed, State.close, kept.nodup.mem_erase_iff]
    constructor
    · rintro ⟨opened, stays⟩
      have other : x ≠ fd := by
        rintro rfl
        exact stays t (by rw [here]; rfl)
      refine ⟨⟨other, opened⟩, fun u => ?_⟩
      change ((s.go t .finished).thread u).left ≠ some x
      by_cases same : u = t
      · rw [same, go_self]
        exact nofun
      · rw [go_other u same]
        exact stays u
    · rintro ⟨⟨other, opened⟩, stays⟩
      refine ⟨opened, fun u => ?_⟩
      by_cases same : u = t
      · rw [same, here]
        exact fun equal => other (Option.some.inj equal).symm
      · have stay : ((s.go t .finished).thread u).left ≠ some x := stays u
        rwa [go_other u same] at stay
  · rw [kept.connected]
    apply List.filter_congr
    intro x _
    rw [← go_leaving s t .finished (by rw [here]; rfl) x]
    rfl

theorem locked_kept {clients : List Int} {s : State} (kept : Kept clients s)
    (main : s.main = .insert) (mutx : Option Party) :
    Kept clients { s with main := .insertLocked, mutx := mutx } := by
  have listed : State.listed { s with main := .insertLocked, mutx := mutx } = s.listed := by
    rw [State.listed, State.listed, State.pending, State.pending, main]
    rfl
  refine ⟨kept.count, kept.custody.perm fun who => ?_, kept.nodup, by rw [listed]; exact kept.distinct,
    fun fd => ?_, ?_, kept.absent⟩
  · cases who with
    | main =>
        rw [State.clients, State.clients, main]
    | thread t => exact List.Perm.refl _
  · rw [listed]
    exact kept.listed fd
  · rw [listed]
    exact kept.connected

section

variable {clients : List Int} {s after : State} {answer : Answer}

theorem step_accept (kept : Kept clients s) (fd : Int)
    (started : ∀ t < s.created, s.thread t ≠ .start)
    (stepped : step s (.accept fd) = some (after, answer)) :
    Kept (answer.record clients) after := by
  simp only [step] at stepped
  split at stepped
  · rename_i may
    cases stepped
    exact accept_kept kept fd may.1 may.2.1 started
  · cases stepped

theorem step_lock (kept : Kept clients s) (who : Party)
    (stepped : step s (.lock who) = some (after, answer)) : Kept (answer.record clients) after := by
  cases who with
  | main =>
      simp only [step] at stepped
      split at stepped
      · rename_i may
        cases stepped
        exact locked_kept kept may.1 (some .main)
      · cases stepped
  | thread t =>
      simp only [step] at stepped
      split at stepped
      · split at stepped
        · rename_i fd msg here
          cases stepped
          exact kept.go t (.sendLocked fd msg) (some (.thread t))
            (kept.present t (by rw [here]; nofun)) (by rw [here]; rfl) (by rw [here]; rfl)
            (by rw [here]; rfl)
        · rename_i fd here
          cases stepped
          exact kept.go t (.removing fd) (some (.thread t))
            (kept.present t (by rw [here]; nofun)) (by rw [here]; rfl) (by rw [here]; rfl)
            (by rw [here]; rfl)
        · cases stepped
      · cases stepped

theorem step_begin (kept : Kept clients s) (t : Nat)
    (stepped : step s (.begin t) = some (after, answer)) : Kept (answer.record clients) after := by
  simp only [step] at stepped
  split at stepped
  · rename_i here
    cases stepped
    exact kept.go t (.reading s.clntSock) s.mutx (kept.present t (by rw [here]; nofun))
      (by rw [here]; rfl) (by rw [here]; rfl) (by rw [here]; rfl)
  · cases stepped

theorem step_read (kept : Kept clients s) (t : Nat) (bytes : Option (List UInt8))
    (stepped : step s (.read t bytes) = some (after, answer)) :
    Kept (answer.record clients) after := by
  simp only [step] at stepped
  split at stepped
  · rename_i fd here
    split at stepped
    · cases stepped
      exact end_kept kept t fd here
    · split at stepped
      · cases stepped
        exact kept.go t (.sending fd bytes) s.mutx (kept.present t (by rw [here]; nofun))
          (by rw [here]; rfl) (by rw [here]; rfl) (by rw [here]; rfl)
      · cases stepped
  · cases stepped

theorem step_send (kept : Kept clients s) (t : Nat)
    (stepped : step s (.send t) = some (after, answer)) : Kept (answer.record clients) after := by
  simp only [step] at stepped
  split at stepped
  · rename_i fd msg here
    cases stepped
    exact kept.go t (.reading fd) none (kept.present t (by rw [here]; nofun))
      (by rw [here]; rfl) (by rw [here]; rfl) (by rw [here]; rfl)
  · cases stepped

theorem step_remove (kept : Kept clients s) (t : Nat)
    (last : (s.thread t).leaving = s.table.getLast?)
    (stepped : step s (.remove t) = some (after, answer)) : Kept (answer.record clients) after := by
  simp only [step] at stepped
  split at stepped
  · rename_i fd here
    cases stepped
    rw [here] at last
    exact remove_kept kept t fd here last.symm
  · cases stepped

theorem step_close (kept : Kept clients s) (t : Nat)
    (stepped : step s (.close t) = some (after, answer)) : Kept (answer.record clients) after := by
  simp only [step] at stepped
  split at stepped
  · rename_i fd here
    cases stepped
    exact close_kept kept t fd here
  · cases stepped

end

theorem kept_step {clients : List Int} (e : Step) (kept : Kept clients e.before)
    (met : Met e = true) (stepped : machine.Stepped e) : Kept (e.output.record clients) e.after := by
  obtain ⟨s, action, answer, after⟩ := e
  change step s action = some (after, answer) at stepped
  dsimp only at kept ⊢
  cases action with
  | accept fd =>
      refine step_accept kept fd (fun t below starts => ?_) stepped
      have other := List.all_eq_true.mp met t (List.mem_range.mpr below)
      simp [starts] at other
  | lock who => exact step_lock kept who stepped
  | insert =>
      simp only [step] at stepped
      split at stepped
      · rename_i main
        cases stepped
        exact enter_kept kept main
      · cases stepped
  | create =>
      simp only [step] at stepped
      split at stepped
      · rename_i main
        cases stepped
        exact spawn_kept kept main
      · cases stepped
  | begin t => exact step_begin kept t stepped
  | read t bytes => exact step_read kept t bytes stepped
  | send t => exact step_send kept t stepped
  | remove t => exact step_remove kept t (beq_iff_eq.mp met) stepped
  | close t => exact step_close kept t stepped

variable {trace : List Step} {s : State}

theorem kept_run (run : machine.Run trace s) (met : ∀ e ∈ trace, Met e = true) :
    Kept (connected trace) s := by
  refine run.history (C := fun e => Met e = true) (I := fun trace s => Kept (connected trace) s)
    kept_start (fun pre e stepped fine kept => ?_) met
  have after := kept_step e kept fine stepped
  rw [connected, List.foldl_append]
  exact after

theorem wrote_table (e : Step) (stepped : machine.Stepped e) (fds : List Int)
    (msg : Option (List UInt8)) (wrote : e.output = .wrote fds msg) : fds = e.before.table := by
  obtain ⟨s, action, answer, after⟩ := e
  change step s action = some (after, answer) at stepped
  obtain rfl : answer = .wrote fds msg := wrote
  cases action with
  | send t =>
      simp only [step] at stepped
      split at stepped
      · cases stepped
        rfl
      · cases stepped
  | lock who =>
      cases who with
      | main =>
          simp only [step] at stepped
          split at stepped <;> cases stepped
      | thread t =>
          simp only [step] at stepped
          split at stepped
          · split at stepped <;> cases stepped
          · cases stepped
  | read t bytes =>
      simp only [step] at stepped
      split at stepped
      · split at stepped
        · cases stepped
        · split at stepped <;> cases stepped
      · cases stepped
  | _ =>
      simp only [step] at stepped
      split at stepped <;> cases stepped

def joins (fd : Int) (t : Nat) : List Action :=
  [.accept fd, .lock .main, .insert, .create, .begin t]

def empty : State where
  clntCnt := 0
  clntSocks _ := 0
  mutx := none
  clntSock := 0
  main := .accept
  thread _ := .absent
  created := 0
  opened := []

theorem empty_starts : machine.start empty := ⟨rfl, rfl, rfl, fun _ => rfl, rfl, rfl⟩

end NetworkProgramming.ChatServ
