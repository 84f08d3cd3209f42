import NetworkProgramming.CText
import Mathlib.Data.List.GetD

/-!
The loop of get_ifi_info over the buffer that SIOCGIFCONF fills, in the LP64
layout. The kernel's records are all of sizeof(struct ifreq) bytes; the loop steps
from one to the next by the size of the name and of a socket address of the family
it finds. A turn that meets a failing Ioctl or Calloc ends the process.
-/

namespace NetworkProgramming.GetIfiInfo

open CText

def ifnamsiz : Nat := 16
def sizeofIfreq : Nat := 40
def sizeofSockaddr : Nat := 16
def sizeofSockaddrIn : Nat := 16
def sizeofSockaddrIn6 : Nat := 28

def afInet : Nat := 2
def afInet6 : Nat := 10

def iffUp : UInt16 := 0x1
def iffBroadcast : UInt16 := 0x2
def iffPointopoint : UInt16 := 0x10

def ifiAlias : Nat := 1

def colon : UInt8 := 58

/-- A record as the kernel writes it: the name, and the union that starts with the
family of an address. -/
structure Ifreq where
  ifrName : List UInt8
  ifrIfru : List UInt8
  name_length : ifrName.length = 16
  ifru_length : ifrIfru.length = 24

namespace Ifreq

def bytes (r : Ifreq) : List UInt8 := r.ifrName ++ r.ifrIfru

def saFamily (r : Ifreq) : Nat :=
  (r.ifrIfru.getD 0 0).toNat + 256 * (r.ifrIfru.getD 1 0).toNat

end Ifreq

/-- The calls of a turn whose wrappers do not return on an error. -/
inductive Wrapper where
  | siocgifflags
  | callocInfo
  | callocAddr
  | siocgifbrdaddr
  | callocBrdaddr
  | siocgifdstaddr
  | callocDstaddr
  deriving DecidableEq

/-- What the calls of one turn do: whether each returns, the flags, and the bytes
that the union of the copy holds after the two requests for an address. -/
structure Kernel where
  returns : Wrapper → Bool
  ifrFlags : UInt16
  ifrBroadaddr : List UInt8
  ifrDstaddr : List UInt8

structure IfiInfo where
  ifiName : List UInt8
  ifiIndex : Nat
  ifiMtu : Nat
  ifiHlen : Nat
  ifiFlags : UInt16
  ifiMyflags : Nat
  ifiAddr : Option (List UInt8)
  ifiBrdaddr : Option (List UInt8)
  ifiDstaddr : Option (List UInt8)
  deriving DecidableEq

structure Read where
  offset : Nat
  count : Nat
  deriving DecidableEq

structure Turn where
  buf : List UInt8
  lastname : List UInt8
  reads : List Read
  info : Option IfiInfo
  exits : Bool

def familyAt (buf : List UInt8) (ptr : Nat) : Nat :=
  (buf.getD (ptr + 16) 0).toNat + 256 * (buf.getD (ptr + 17) 0).toNat

def copied (buf : List UInt8) (ptr count : Nat) : List UInt8 := (buf.drop ptr).take count

def addrLen (family : Nat) : Nat :=
  if family = afInet6 then sizeofSockaddrIn6 else sizeofSockaddr

/-- The bytes that strchr looks at: as far as the character or the end of the string. -/
def strchrCount (c : UInt8) (text : List UInt8) : Nat :=
  match strchr c text with
  | some (before, _) => before.length + 1
  | none => (cString text).length + 1

def cutColon (buf : List UInt8) (ptr : Nat) : List UInt8 :=
  match strchr colon (buf.drop ptr) with
  | some (before, _) => buf.set (ptr + before.length) 0
  | none => buf

def sameName : Nat → List UInt8 → List UInt8 → Bool
  | n + 1, a :: as, b :: bs => a == b && (a == 0 || sameName n as bs)
  | 0, _, _ => true
  | _ + 1, _, _ => false

def broadcast (k : Kernel) (ifi : IfiInfo) : Option IfiInfo :=
  if k.ifrFlags &&& iffBroadcast = 0 then some ifi
  else if k.returns .siocgifbrdaddr && k.returns .callocBrdaddr then
    some { ifi with ifiBrdaddr := some (k.ifrBroadaddr.take sizeofSockaddrIn) }
  else none

def pointopoint (k : Kernel) (size : Nat) (ifi : IfiInfo) : Option IfiInfo :=
  if k.ifrFlags &&& iffPointopoint = 0 then some ifi
  else if k.returns .siocgifdstaddr && k.returns .callocDstaddr then
    some { ifi with ifiDstaddr := some (k.ifrDstaddr.take size) }
  else none

def addresses (k : Kernel) (buf : List UInt8) (ptr family : Nat) (ifi : IfiInfo) :
    List Read × Option IfiInfo :=
  if family = afInet then
    if k.returns .callocAddr then
      ([⟨ptr + 16, sizeofSockaddrIn⟩],
        (broadcast k { ifi with ifiAddr := some (copied buf (ptr + 16) sizeofSockaddrIn) }).bind
          (pointopoint k sizeofSockaddrIn))
    else ([], none)
  else if family = afInet6 then
    if k.returns .callocAddr then
      ([⟨ptr + 16, sizeofSockaddrIn6⟩],
        pointopoint k sizeofSockaddrIn6
          { ifi with ifiAddr := some (copied buf (ptr + 16) sizeofSockaddrIn6) })
    else ([], none)
  else ([], some ifi)

def turn (family doaliases : Int) (k : Kernel) (ptr : Nat) (buf lastname : List UInt8) : Turn :=
  let found := familyAt buf ptr
  let reads := [Read.mk (ptr + 16) 2]
  if (found : Int) ≠ family then ⟨buf, lastname, reads, none, false⟩
  else
    let cut := cutColon buf ptr
    let reads := reads ++ [⟨ptr, strchrCount colon (buf.drop ptr)⟩, ⟨ptr, ifnamsiz⟩]
    let same := sameName ifnamsiz lastname (cut.drop ptr)
    if same ∧ doaliases = 0 then ⟨cut, lastname, reads, none, false⟩
    else
      let lastname := copied cut ptr ifnamsiz
      let reads := reads ++ [⟨ptr, sizeofIfreq⟩]
      if k.returns .siocgifflags = false then ⟨cut, lastname, reads, none, true⟩
      else if k.ifrFlags &&& iffUp = 0 then ⟨cut, lastname, reads, none, false⟩
      else if k.returns .callocInfo = false then ⟨cut, lastname, reads, none, true⟩
      else
        let ifi : IfiInfo := {
          ifiName := copied cut ptr 15 ++ [0]
          ifiIndex := 0
          ifiMtu := 0
          ifiHlen := 0
          ifiFlags := k.ifrFlags
          ifiMyflags := if same then ifiAlias else 0
          ifiAddr := none
          ifiBrdaddr := none
          ifiDstaddr := none }
        let ended := addresses k cut ptr found ifi
        ⟨cut, lastname, reads ++ ended.1, ended.2, ended.2.isNone⟩

/-- The turns of the loop: where each began, all reads of the buffer, and the list
that is returned unless the process has ended. -/
structure Parse where
  visited : List Nat
  reads : List Read
  infos : Option (List IfiInfo)

def loop (family doaliases : Int) (len : Nat) (kernel : Nat → Kernel) (n ptr : Nat)
    (buf lastname : List UInt8) : Parse :=
  if ptr < len then
    let t := turn family doaliases (kernel n) ptr buf lastname
    if t.exits then ⟨[ptr], t.reads, none⟩
    else
      let rest := loop family doaliases len kernel (n + 1)
        (ptr + (ifnamsiz + addrLen (familyAt buf ptr))) t.buf t.lastname
      ⟨ptr :: rest.visited, t.reads ++ rest.reads, rest.infos.map (t.info.toList ++ ·)⟩
  else ⟨[], [], some []⟩
termination_by len - ptr
decreasing_by
  simp only [ifnamsiz]
  omega

/-- `spare` is the rest of the buffer and `stack` what lies in lastname behind its
first byte. -/
def getIfiInfo (family doaliases : Int) (kernel : Nat → Kernel) (records : List Ifreq)
    (spare stack : List UInt8) : Parse :=
  loop family doaliases (sizeofIfreq * records.length) kernel 0 0
    (records.flatMap Ifreq.bytes ++ spare) (0 :: stack)

def Within (size : Nat) (reads : List Read) : Prop := ∀ r ∈ reads, r.offset + r.count ≤ size

/-- One turn for each record, at its start, and no read outside the records. -/
def Parses (records : List Ifreq) (p : Parse) : Prop :=
  p.visited = (List.range records.length).map (sizeofIfreq * ·) ∧
    Within (sizeofIfreq * records.length) p.reads

@[simp] theorem within_nil (size : Nat) : Within size [] := by simp [Within]

@[simp] theorem within_cons (size : Nat) (r : Read) (reads : List Read) :
    Within size (r :: reads) ↔ r.offset + r.count ≤ size ∧ Within size reads := by
  simp [Within]

@[simp] theorem within_append (size : Nat) (reads more : List Read) :
    Within size (reads ++ more) ↔ Within size reads ∧ Within size more := by
  simp only [Within, List.forall_mem_append]

theorem strchrCount_within (c : UInt8) (a rest : List UInt8) :
    strchrCount c (a ++ rest) ≤ a.length ↔ ∃ b ∈ a, b = 0 ∨ b = c := by
  induction a with
  | nil =>
      simp only [List.nil_append, List.length_nil, List.not_mem_nil, false_and, exists_false,
        iff_false, strchrCount]
      split <;> omega
  | cons b a ih =>
      by_cases found : b = c
      · simp [strchrCount, strchr, found]
      · by_cases nul : b = 0
        · subst nul
          simp [strchrCount, strchr, cString, found]
        · -- the search goes on behind a byte that is neither
          have later : strchrCount c (b :: (a ++ rest)) = strchrCount c (a ++ rest) + 1 := by
            simp only [strchrCount, strchr, if_neg found, if_neg nul]
            cases strchr c (a ++ rest) with
            | none => simp [cString, nul]
            | some r => rfl
          rw [List.cons_append, later, List.length_cons, Nat.add_le_add_iff_right, ih]
          simp [found, nul]

theorem getD_middle (a b rest : List UInt8) {i : Nat} (inside : i < b.length) :
    (a ++ (b ++ rest)).getD (a.length + i) 0 = b.getD i 0 := by
  rw [List.getD_append_right _ _ _ _ (Nat.le_add_right _ _), Nat.add_sub_cancel_left,
    List.getD_append _ _ _ _ inside]

namespace Ifreq

@[simp] theorem bytes_length (r : Ifreq) : r.bytes.length = 40 := by
  simp [bytes, r.name_length, r.ifru_length]

def Terminated (r : Ifreq) : Prop := ∃ b ∈ r.bytes, b = 0 ∨ b = colon

def unnamed (r : Ifreq) : Bool := r.ifrName.getD 0 0 = 0 || r.ifrName.getD 0 0 = colon

theorem family_at (r : Ifreq) (rest : List UInt8) : familyAt (r.bytes ++ rest) 0 = r.saFamily := by
  obtain ⟨name, ifru, named, filled⟩ := r
  have low := getD_middle name ifru rest (i := 0) (by omega)
  have high := getD_middle name ifru rest (i := 1) (by omega)
  rw [named] at low high
  simp only [familyAt, bytes, saFamily, List.append_assoc, Nat.zero_add, low, high]

/-- The high byte of AF_INET6 ends the name at the latest. -/
theorem inet6_terminated {r : Ifreq} (six : r.saFamily = afInet6) : r.Terminated := by
  obtain ⟨name, ifru, named, filled⟩ := r
  match ifru, filled with
  | low :: high :: rest, _ =>
      simp only [saFamily, List.getD_cons_zero, List.getD_cons_succ, afInet6] at six
      have zero : high = 0 := by
        apply UInt8.toNat_inj.mp
        simp only [UInt8.toNat_zero]
        omega
      exact ⟨high, by simp [bytes], Or.inl zero⟩

theorem same_name (r : Ifreq) (rest stack : List UInt8) :
    sameName ifnamsiz (0 :: stack) ((cutColon (r.bytes ++ rest) 0).drop 0) = r.unnamed := by
  obtain ⟨name, ifru, named, filled⟩ := r
  match name, named with
  | b :: name, _ =>
      simp only [bytes, unnamed, cutColon, List.drop_zero, List.cons_append, strchr,
        List.getD_cons_zero, Nat.zero_add]
      by_cases found : b = colon
      · simp [found, sameName, ifnamsiz]
      · by_cases nul : b = 0
        · have other : ¬ (0 : UInt8) = colon := by decide
          simp [other, nul, sameName, ifnamsiz]
        · cases strchr colon (name ++ ifru ++ rest) with
          | none => simp [found, nul, sameName, ifnamsiz, Ne.symm nul]
          | some r => simp [found, nul, sameName, ifnamsiz, Ne.symm nul]

end Ifreq

/-- The record is of the family asked for and not one of the aliases to skip. -/
def Looked (family doaliases : Int) (r : Ifreq) : Prop :=
  r.saFamily = family ∧ ¬ (r.unnamed = true ∧ doaliases = 0)

def shownCalls (flags : UInt16) : List Wrapper :=
  if flags &&& iffBroadcast = 0 then [] else [.siocgifbrdaddr, .callocBrdaddr]

def peerCalls (flags : UInt16) : List Wrapper :=
  if flags &&& iffPointopoint = 0 then [] else [.siocgifdstaddr, .callocDstaddr]

/-- The calls of a turn that looks at an address of this family, in order, as long
as each of them returns. -/
def calls (flags : UInt16) (family : Nat) : List Wrapper :=
  .siocgifflags ::
    if flags &&& iffUp = 0 then []
    else .callocInfo ::
      if family = afInet then .callocAddr :: (shownCalls flags ++ peerCalls flags)
      else if family = afInet6 then .callocAddr :: peerCalls flags
      else []

def Fails (k : Kernel) (made : List Wrapper) : Prop := ∃ call ∈ made, k.returns call = false

@[simp] theorem fails_nil (k : Kernel) : ¬ Fails k [] := by simp [Fails]

@[simp] theorem fails_cons (k : Kernel) (call : Wrapper) (made : List Wrapper) :
    Fails k (call :: made) ↔ k.returns call = false ∨ Fails k made := by
  simp [Fails]

@[simp] theorem fails_append (k : Kernel) (made more : List Wrapper) :
    Fails k (made ++ more) ↔ Fails k made ∨ Fails k more := by
  simp only [Fails, List.mem_append, or_and_right, exists_or]

def CopiesIn6 (k : Kernel) : Prop :=
  k.ifrFlags &&& iffUp ≠ 0 ∧ ¬ Fails k [.siocgifflags, .callocInfo, .callocAddr]

theorem pointopoint_ends (k : Kernel) (size : Nat) (ifi : IfiInfo) :
    pointopoint k size ifi = none ↔ Fails k (peerCalls k.ifrFlags) := by
  unfold pointopoint peerCalls
  split
  · simp
  · cases asked : k.returns .siocgifdstaddr <;> cases room : k.returns .callocDstaddr <;>
      simp [asked, room]

theorem broadcast_ends (k : Kernel) (ifi : IfiInfo) :
    broadcast k ifi = none ↔ Fails k (shownCalls k.ifrFlags) := by
  unfold broadcast shownCalls
  split
  · simp
  · cases asked : k.returns .siocgifbrdaddr <;> cases room : k.returns .callocBrdaddr <;>
      simp [asked, room]

theorem both_end (k : Kernel) (size : Nat) (ifi : IfiInfo) :
    (broadcast k ifi).bind (pointopoint k size) = none ↔
      Fails k (shownCalls k.ifrFlags ++ peerCalls k.ifrFlags) := by
  rw [fails_append, ← broadcast_ends k ifi]
  cases broadcast k ifi with
  | none => simp
  | some shown => simp [pointopoint_ends]

theorem addresses_end (k : Kernel) (buf : List UInt8) (ptr family : Nat) (ifi : IfiInfo)
    (up : ¬ k.ifrFlags &&& iffUp = 0) (flagged : k.returns .siocgifflags = true)
    (room : k.returns .callocInfo = true) :
    (addresses k buf ptr family ifi).2 = none ↔ Fails k (calls k.ifrFlags family) := by
  simp only [addresses, calls, if_neg up, fails_cons, flagged, room]
  by_cases four : family = afInet
  · cases addr : k.returns .callocAddr with
    | true => simp only [four, if_true, fails_cons, addr, both_end]; simp
    | false => simp [four, addr]
  · by_cases six : family = afInet6
    · have other : ¬ afInet6 = afInet := by decide
      cases addr : k.returns .callocAddr with
      | true => simp only [six, other, if_true, if_false, fails_cons, addr, pointopoint_ends]; simp
      | false => simp [six, other, addr]
    · simp [four, six]

theorem addresses_within (k : Kernel) (buf : List UInt8) (family : Nat) (ifi : IfiInfo) :
    Within sizeofIfreq (addresses k buf 0 family ifi).1 ↔
      ¬ (family = afInet6 ∧ k.returns .callocAddr = true) := by
  have other : ¬ afInet = afInet6 := by decide
  unfold addresses
  by_cases four : family = afInet
  · cases addr : k.returns .callocAddr with
    | true => simp [four, other, sizeofSockaddrIn, sizeofIfreq]
    | false => simp [four]
  · by_cases six : family = afInet6
    · cases addr : k.returns .callocAddr with
      | true => simp [six, Ne.symm other, sizeofSockaddrIn6, sizeofIfreq]
      | false => simp [six, Ne.symm other]
    · simp [four, six]

section First

variable (family doaliases : Int) (k : Kernel) (r : Ifreq) (rest stack : List UInt8)

def firstTurn : Turn := turn family doaliases k 0 (r.bytes ++ rest) (0 :: stack)

theorem first_exits : (firstTurn family doaliases k r rest stack).exits = true ↔
    Looked family doaliases r ∧ Fails k (calls k.ifrFlags r.saFamily) := by
  simp only [firstTurn, turn, r.family_at, r.same_name, Looked]
  by_cases wanted : (r.saFamily : Int) = family
  · by_cases skipped : r.unnamed = true ∧ doaliases = 0
    · simp [wanted, skipped]
    · simp only [wanted, ne_eq, not_true_eq_false, if_false, skipped, not_false_eq_true, and_self,
        true_and]
      cases flagged : k.returns .siocgifflags with
      | false => simp [calls, flagged]
      | true =>
          by_cases up : k.ifrFlags &&& iffUp = 0
          · simp [calls, flagged, up]
          · cases room : k.returns .callocInfo with
            | false => simp [calls, flagged, up, room]
            | true => simp [up, addresses_end k _ 0 r.saFamily _ up flagged room]
  · simp [wanted]

theorem first_within : Within sizeofIfreq (firstTurn family doaliases k r rest stack).reads ↔
    (r.saFamily = family → r.Terminated) ∧
      ¬ (r.saFamily = afInet6 ∧ Looked family doaliases r ∧ CopiesIn6 k) := by
  have stops : strchrCount colon (r.bytes ++ rest) ≤ 40 ↔ r.Terminated := by
    rw [Ifreq.Terminated, ← strchrCount_within colon r.bytes rest, r.bytes_length]
  simp only [firstTurn, turn, r.family_at, r.same_name, Looked]
  by_cases wanted : (r.saFamily : Int) = family
  · by_cases skipped : r.unnamed = true ∧ doaliases = 0
    · simp [wanted, skipped, stops, ifnamsiz, sizeofIfreq]
    · simp only [wanted, ne_eq, not_true_eq_false, if_false, skipped, not_false_eq_true, and_self,
        true_and]
      cases flagged : k.returns .siocgifflags with
      | false => simp [CopiesIn6, flagged, stops, ifnamsiz, sizeofIfreq]
      | true =>
          by_cases up : k.ifrFlags &&& iffUp = 0
          · simp [CopiesIn6, up, stops, ifnamsiz, sizeofIfreq]
          · cases room : k.returns .callocInfo with
            | false => simp [CopiesIn6, up, room, stops, ifnamsiz, sizeofIfreq]
            | true =>
                have copy := addresses_within k (cutColon (r.bytes ++ rest) 0) r.saFamily
                simp only [sizeofIfreq] at copy
                simp [CopiesIn6, up, flagged, room, stops, copy, ifnamsiz, sizeofIfreq]
  · simp [wanted, sizeofIfreq]

end First

theorem loop_past {family doaliases : Int} {len ptr : Nat} (kernel : Nat → Kernel) (n : Nat)
    (buf lastname : List UInt8) (past : len ≤ ptr) :
    loop family doaliases len kernel n ptr buf lastname = ⟨[], [], some []⟩ := by
  rw [loop, if_neg (by omega)]

theorem loop_visits (family doaliases : Int) {len ptr : Nat} (kernel : Nat → Kernel) (n : Nat)
    (buf lastname : List UInt8) (inside : ptr < len) :
    ∃ more, (loop family doaliases len kernel n ptr buf lastname).visited = ptr :: more ∧
      ∀ next ∈ more.head?, next = ptr + (ifnamsiz + addrLen (familyAt buf ptr)) := by
  rw [loop, if_pos inside]
  dsimp only
  split
  · exact ⟨[], rfl, by simp⟩
  · refine ⟨_, rfl, ?_⟩
    rw [loop]
    split
    · dsimp only
      split <;> simp
    · simp

theorem stride_misses (family : Nat) : ifnamsiz + addrLen family ≠ sizeofIfreq := by
  unfold addrLen
  split <;> decide

/-- With a second record the loop goes wrong at it: no stride is that of the records. -/
theorem two_not_parsed (family doaliases : Int) (kernel : Nat → Kernel) (r next : Ifreq)
    (records : List Ifreq) (spare stack : List UInt8) :
    ¬ Parses (r :: next :: records)
      (getIfiInfo family doaliases kernel (r :: next :: records) spare stack) := by
  rintro ⟨visited, -⟩
  have inside : 0 < sizeofIfreq * (r :: next :: records).length := by simp [sizeofIfreq]
  obtain ⟨more, began, strides⟩ := loop_visits family doaliases kernel 0
    ((r :: next :: records).flatMap Ifreq.bytes ++ spare) (0 :: stack) inside
  have starts : (List.range (r :: next :: records).length).map (sizeofIfreq * ·) =
      0 :: sizeofIfreq :: (List.range records.length).map (fun i => sizeofIfreq * (i + 1 + 1)) := by
    simp only [List.length_cons, List.range_succ_eq_map, List.map_cons, List.map_map]
    rfl
  rw [getIfiInfo, began, starts] at visited
  cases visited
  exact stride_misses _ ((strides sizeofIfreq (by simp)).trans (Nat.zero_add _)).symm

/-- The one record there is is left as it should be: its family is AF_INET6, which
takes the loop past the records, and its address is not copied; or the process ends
in its turn. -/
def Left (family doaliases : Int) (k : Kernel) (r : Ifreq) : Prop :=
  if r.saFamily = afInet6 then ¬ (Looked family doaliases r ∧ CopiesIn6 k)
  else Looked family doaliases r ∧ r.Terminated ∧ Fails k (calls k.ifrFlags r.saFamily)

theorem one_parsed (family doaliases : Int) (kernel : Nat → Kernel) (r : Ifreq)
    (spare stack : List UInt8) :
    Parses [r] (getIfiInfo family doaliases kernel [r] spare stack) ↔
      Left family doaliases (kernel 0) r := by
  have exits := first_exits family doaliases (kernel 0) r spare stack
  have within := first_within family doaliases (kernel 0) r spare stack
  have whole : [r].flatMap Ifreq.bytes ++ spare = r.bytes ++ spare := by simp
  have begun : 0 < sizeofIfreq * [r].length := by simp [sizeofIfreq]
  rw [getIfiInfo, whole, loop, if_pos begun]
  dsimp only
  rw [r.family_at]
  simp only [firstTurn] at exits within
  generalize turn family doaliases (kernel 0) 0 (r.bytes ++ spare) (0 :: stack) = t at exits within ⊢
  simp only [Left]
  cases ended : t.exits with
  | true =>
      -- an ioctl has failed, and err_sys ends the process
      obtain ⟨looked, fails⟩ := exits.mp ended
      have met : Parses [r] ⟨[0], t.reads, none⟩ ↔ r.Terminated ∧
          ¬ (r.saFamily = afInet6 ∧ Looked family doaliases r ∧ CopiesIn6 (kernel 0)) := by
        simpa [Parses, looked.1] using within
      rw [if_pos rfl]
      refine met.trans ?_
      by_cases six : r.saFamily = afInet6
      · simp [six, Ifreq.inet6_terminated six]
      · simp [six, looked, fails]
  | false =>
      have goes : ¬ (Looked family doaliases r ∧
          Fails (kernel 0) (calls (kernel 0).ifrFlags r.saFamily)) := by
        rw [← exits, ended]
        simp
      rw [if_neg Bool.false_ne_true]
      by_cases six : r.saFamily = afInet6
      · -- the stride of AF_INET6 ends the loop
        have past : sizeofIfreq * [r].length ≤ 0 + (ifnamsiz + addrLen r.saFamily) := by
          simp [six, addrLen, ifnamsiz, sizeofIfreq, sizeofSockaddrIn6]
        rw [loop_past kernel _ _ _ past, if_pos six]
        have met := within
        simp only [six, true_and, Ifreq.inet6_terminated six, implies_true] at met
        simpa [Parses] using met
      -- the stride of any other family is short, and the loop comes to a record that is none
      · have inside : 0 + (ifnamsiz + addrLen r.saFamily) < sizeofIfreq * [r].length := by
          simp [six, addrLen, ifnamsiz, sizeofIfreq, sizeofSockaddr]
        obtain ⟨more, began, -⟩ := loop_visits family doaliases kernel 1
          t.buf t.lastname inside
        rw [if_neg six]
        constructor
        · rintro ⟨visited, -⟩
          dsimp only at visited
          rw [began] at visited
          simp at visited
        · rintro ⟨looked, -, fails⟩
          exact absurd ⟨looked, fails⟩ goes

theorem parses_iff (family doaliases : Int) (kernel : Nat → Kernel) (records : List Ifreq)
    (spare stack : List UInt8) :
    Parses records (getIfiInfo family doaliases kernel records spare stack) ↔
      records = [] ∨ ∃ r, records = [r] ∧ Left family doaliases (kernel 0) r := by
  match records with
  | [] =>
      have none_left : Parses [] (getIfiInfo family doaliases kernel [] spare stack) := by
        rw [getIfiInfo, loop_past kernel 0 _ _ (by simp)]
        exact ⟨rfl, within_nil _⟩
      simp [none_left]
  | [r] =>
      rw [one_parsed]
      simp
  | r :: next :: records =>
      have wrong := two_not_parsed family doaliases kernel r next records spare stack
      simp [wrong]

def inetRecord (name : String) (short : name.length ≤ 16) (addr : List UInt8)
    (four : addr.length = 4) : Ifreq where
  ifrName := bytes name ++ List.replicate (16 - name.length) 0
  ifrIfru := [2, 0, 0, 0] ++ addr ++ List.replicate 16 0
  name_length := by
    simp only [bytes, List.length_append, List.length_map, String.length_toList,
      List.length_replicate]
    omega
  ifru_length := by simp [four]

theorem records_not_parsed : ¬ ∀ (family doaliases : Int) (kernel : Nat → Kernel)
    (records : List Ifreq) (spare stack : List UInt8),
    Parses records (getIfiInfo family doaliases kernel records spare stack) := by
  intro always
  exact two_not_parsed 2 1 (fun _ => ⟨fun _ => true, 1, [], []⟩)
    (inetRecord "lo" (by decide) [127, 0, 0, 1] rfl)
    (inetRecord "eth0" (by decide) [10, 0, 0, 2] rfl) [] [] [] (always _ _ _ _ _ _)

end NetworkProgramming.GetIfiInfo
