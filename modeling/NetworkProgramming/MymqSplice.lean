import NetworkProgramming.MymqLayout

/-!
The two list operations of the message queue. The search of `mymq_send` always
ends and splices the new slot in behind every message of at least its priority;
`mymq_receive` moves the first slot over. In terms of messages, the one inserts
into a stable priority queue and the other takes its first element.
-/

namespace NetworkProgramming.Mymq

structure Relinked (file linked : MappedFile) (cells : List (Option Nat)) : Prop where
  hdr : linked.hdr = { file.hdr with mqhHead := linked.hdr.mqhHead }
  len : ∀ i, (linked.msg i).msgLen = (file.msg i).msgLen
  prio : ∀ i, (linked.msg i).msgPrio = (file.msg i).msgPrio
  byte : linked.byte = file.byte
  next : ∀ q, q ∉ cells → linked.next q = file.next q

theorem next_set_next (file : MappedFile) (p q : Option Nat) (index : Nat) :
    (file.setNext p index).next q = if q = p then index else file.next q := by
  cases p with
  | none => cases q <;> simp [MappedFile.setNext, MappedFile.next]
  | some i =>
      cases q with
      | none => rfl
      | some j =>
          by_cases same : j = i
          · simp [MappedFile.setNext, MappedFile.next, same]
          · simp [MappedFile.setNext, MappedFile.next, same, Function.update_of_ne]

theorem set_next_relinked (file : MappedFile) (p : Option Nat) (index : Nat) :
    Relinked file (file.setNext p index) [p] := by
  refine ⟨?_, ?_, ?_, ?_, ?_⟩
  · cases p <;> rfl
  · intro i
    cases p with
    | none => rfl
    | some j => by_cases same : i = j <;> simp [MappedFile.setNext, same]
  · intro i
    cases p with
    | none => rfl
    | some j => by_cases same : i = j <;> simp [MappedFile.setNext, same]
  · cases p <;> rfl
  · intro q other
    rw [next_set_next, if_neg (by simpa using other)]

theorem Relinked.trans {file linked again : MappedFile} {cells others : List (Option Nat)}
    (first : Relinked file linked cells) (second : Relinked linked again others) :
    Relinked file again (cells ++ others) := by
  refine ⟨by rw [second.hdr, first.hdr], fun i => (second.len i).trans (first.len i),
    fun i => (second.prio i).trans (first.prio i), second.byte.trans first.byte, ?_⟩
  intro q other
  rw [List.mem_append, not_or] at other
  exact (second.next q other.2).trans (first.next q other.1)

theorem Relinked.mono {file linked : MappedFile} {cells others : List (Option Nat)}
    (relinked : Relinked file linked cells) (within : ∀ q ∈ cells, q ∈ others) :
    Relinked file linked others :=
  ⟨relinked.hdr, relinked.len, relinked.prio, relinked.byte,
    fun q other => relinked.next q fun member => other (within q member)⟩

def prioAt (file : MappedFile) (index : Nat) : Nat := (file.msg index).msgPrio.toNat

/-- From a link whose chain is `cells` the search splices the slot into its
place. The induction is on the chain, so it also bounds the steps. -/
theorem place_splices (freeindex : Nat) (fuel : Nat) (file : MappedFile) (p : Option Nat)
    (cells : List Nat) (proper : freeindex ≠ 0) (enough : cells.length < fuel)
    (chain : Chain file.next 0 p cells) (fresh : freeindex ∉ cells) (apart : p ≠ some freeindex)
    (behind : p ∉ cells.map some) (distinct : cells.Nodup) :
    ∃ linked, place freeindex (file.msg freeindex).msgPrio fuel file p (file.next p) =
        some linked ∧
      Relinked file linked (some freeindex :: p :: cells.map some) ∧
      Chain linked.next 0 p (StablePriority.insert (prioAt file) cells freeindex) := by
  induction cells generalizing p fuel with
  | nil =>
      obtain ⟨fuel, rfl⟩ : ∃ n, fuel = n + 1 := ⟨fuel - 1, by simp at enough; omega⟩
      have last : file.next p = 0 := chain
      refine ⟨_, by rw [place, if_pos last], ?_, ?_⟩
      · exact ((set_next_relinked file p freeindex).trans
          (set_next_relinked _ (some freeindex) 0)).mono (by simp)
      · refine ⟨?_, proper, ?_⟩
        · rw [next_set_next, if_neg apart, next_set_next, if_pos rfl]
        · simp only [Chain.nil_iff]
          rw [next_set_next, if_pos rfl]
  | cons x rest ih =>
      obtain ⟨fuel, rfl⟩ : ∃ n, fuel = n + 1 := ⟨fuel - 1, by simp at enough; omega⟩
      obtain ⟨first, nonzero, more⟩ := chain
      rw [List.mem_cons, not_or] at fresh
      rw [List.map_cons, List.mem_cons, not_or] at behind
      obtain ⟨absent, distinct⟩ := List.nodup_cons.mp distinct
      by_cases outranks : prioAt file x < prioAt file freeindex
      · have higher := UInt32.lt_iff_toNat_lt.mpr outranks
        -- the new message goes in front of the first one of lower priority
        refine ⟨_, by rw [place, first, if_neg nonzero, if_pos higher], ?_, ?_⟩
        · exact ((set_next_relinked file (some freeindex) x).trans
            (set_next_relinked _ p freeindex)).mono (by simp)
        · rw [StablePriority.insert_first _ x freeindex rest outranks]
          have whole : Chain file.next 0 p (x :: rest) := ⟨first, nonzero, more⟩
          refine Chain.push p freeindex (x :: rest) proper ?_ ?_ ?_ whole
          · rw [next_set_next, if_pos rfl]
          · rw [next_set_next, if_neg apart.symm, next_set_next, if_pos rfl, first]
          · intro y member
            have notHere : some y ≠ p := by
              rintro rfl
              rcases List.mem_cons.mp member with rfl | later
              · exact behind.1 rfl
              · exact behind.2 (List.mem_map_of_mem later)
            have notNew : some y ≠ some freeindex := by
              rintro same
              rw [Option.some.injEq] at same
              subst y
              rcases List.mem_cons.mp member with same | later
              · exact fresh.1 same
              · exact fresh.2 later
            rw [next_set_next, if_neg notHere, next_set_next, if_neg notNew]
      · obtain ⟨linked, placed, relinked, spliced⟩ := ih fuel (some x) (by simp at enough; omega)
          more fresh.2 (by simpa using Ne.symm fresh.1) (by simpa using absent) distinct
        refine ⟨linked, ?_, relinked.mono (by simp; tauto), ?_⟩
        · rw [place, first, if_neg nonzero, if_neg fun higher => outranks
            (UInt32.lt_iff_toNat_lt.mp higher)]
          exact placed
        · rw [StablePriority.insert_later _ x freeindex rest outranks]
          refine ⟨?_, nonzero, spliced⟩
          rw [relinked.next p, first]
          simp only [List.mem_cons, not_or]
          exact ⟨apart, behind.1, behind.2⟩

structure Counted (file after : MappedFile) (n : Int) : Prop where
  attr : after.hdr.mqhAttr =
    { file.hdr.mqhAttr with mqCurmsgs := file.hdr.mqhAttr.mqCurmsgs + n }
  nwait : after.hdr.mqhNwait = file.hdr.mqhNwait
  pid : after.hdr.mqhPid = file.hdr.mqhPid
  event : after.hdr.mqhEvent = file.hdr.mqhEvent

def Message.rank (m : Message) : Nat := m.prio.toNat

theorem next_add_curmsgs (file : MappedFile) (n : Int) :
    (file.addCurmsgs n).next = file.next := by
  funext q
  cases q <;> rfl

theorem next_fill (file : MappedFile) (m : Message) : (file.fill m).next = file.next := by
  funext q
  cases q with
  | none => rfl
  | some i =>
      by_cases same : i = file.hdr.mqhFree
      · simp [MappedFile.next, MappedFile.fill, same]
      · simp [MappedFile.next, MappedFile.fill, Function.update_of_ne same]

theorem Layout.distinct {file : MappedFile} {queue free : List Nat}
    (layout : Layout file queue free) : (queue ++ free).Nodup :=
  layout.shared_out.nodup_iff.mpr (offsets_nodup _ _ _ (stride_pos _))

theorem Layout.member_slots {file : MappedFile} {queue free : List Nat}
    (layout : Layout file queue free) (i : Nat) (member : i ∈ queue ++ free) :
    i ∈ slots file.hdr.mqhAttr :=
  layout.shared_out.mem_iff.mp member

theorem Layout.curmsgs_le {file : MappedFile} {queue free : List Nat}
    (layout : Layout file queue free) :
    file.hdr.mqhAttr.mqCurmsgs + free.length = file.hdr.mqhAttr.mqMaxmsg := by
  have total := layout.shared_out.length_eq
  simp only [slots, offsets, List.length_append, List.length_map, List.length_range] at total
  have positive := layout.maxmsg_pos
  have count := layout.curmsgs
  omega

theorem message_at_fill (file : MappedFile) (queue rest : List Nat) (f i : Nat) (m : Message)
    (layout : Layout file queue (f :: rest)) (first : file.hdr.mqhFree = f)
    (fits : (m.bytes.length : Int) ≤ file.hdr.mqhAttr.mqMsgsize) (member : i ∈ queue) :
    messageAt (file.fill m) i = messageAt file i := by
  have other : i ≠ f := by
    rintro rfl
    have distinct := layout.distinct
    rw [List.nodup_append] at distinct
    exact distinct.2.2 i member i (by simp) rfl
  have far := offsets_apart _ _ _ i f (layout.member_slots i (by simp [member]))
    (layout.member_slots f (by simp)) other
  have len := layout.lens i member
  have room := le_msg_size file.hdr.mqhAttr.mqMsgsize.toNat
  simp only [messageAt, MappedFile.fill, first, Function.update_of_ne other]
  rw [bytes_at_other]
  simp only [stride] at far
  omega

theorem message_at_filled (file : MappedFile) (m : Message) :
    messageAt (file.fill m) file.hdr.mqhFree = m := by
  simp [messageAt, MappedFile.fill, bytes_at_memcpy]

theorem Relinked.message_at {file linked : MappedFile} {cells : List (Option Nat)}
    (relinked : Relinked file linked cells) (i : Nat) : messageAt linked i = messageAt file i := by
  simp only [messageAt, relinked.byte, relinked.len, relinked.prio]

theorem place_filled (file : MappedFile) (queue rest : List Nat) (f : Nat) (m : Message)
    (layout : Layout file queue (f :: rest)) (first : file.hdr.mqhFree = f) :
    ∃ linked, place f m.prio (file.hdr.mqhAttr.mqMaxmsg.toNat + 1) (file.fill m) none
        file.hdr.mqhHead = some linked ∧
      Relinked (file.fill m) linked (some f :: none :: queue.map some) ∧
      Chain linked.next 0 none (StablePriority.insert (prioAt (file.fill m)) queue f) := by
  have proper : f ≠ 0 := layout.unused.2.1
  have distinct := List.nodup_append.mp layout.distinct
  have fresh : f ∉ queue := fun member => distinct.2.2 f member f (by simp) rfl
  have short : queue.length < file.hdr.mqhAttr.mqMaxmsg.toNat + 1 := by
    have most := layout.curmsgs_le
    have count := layout.curmsgs
    omega
  have chain : Chain (file.fill m).next 0 none queue := by
    rw [next_fill]
    exact layout.queued
  have placed := place_splices f _ (file.fill m) none queue proper short chain fresh (by simp)
    (by simp) distinct.1
  rw [next_fill] at placed
  have prio : ((file.fill m).msg f).msgPrio = m.prio := by
    rw [← first]
    simp [MappedFile.fill]
  rw [prio] at placed
  exact placed

theorem insert_member_split (file : MappedFile) (queue : List Nat) (f i : Nat)
    (member : i ∈ StablePriority.insert (prioAt file) queue f) : i = f ∨ i ∈ queue :=
  (StablePriority.mem_insert_iff _ queue f i).mp member

theorem filled_layout (file linked : MappedFile) (queue rest : List Nat) (f : Nat) (m : Message)
    (layout : Layout file queue (f :: rest)) (first : file.hdr.mqhFree = f)
    (fits : (m.bytes.length : Int) ≤ file.hdr.mqhAttr.mqMsgsize)
    (relinked : Relinked (file.fill m) linked (some f :: none :: queue.map some))
    (spliced : Chain linked.next 0 none
      (StablePriority.insert (prioAt (file.fill m)) queue f)) :
    Layout (linked.addCurmsgs 1) (StablePriority.insert (prioAt (file.fill m)) queue f) rest := by
  have attr : linked.hdr.mqhAttr = file.hdr.mqhAttr := by rw [relinked.hdr]; rfl
  have distinct := List.nodup_append.mp layout.distinct
  have fresh : f ∉ queue := fun member => distinct.2.2 f member f (by simp) rfl
  have permuted := StablePriority.insert_perm (prioAt (file.fill m)) queue f
  have same (i : Nat) (member : i ∈ queue) : (file.fill m).msg i = file.msg i := by
    have other : i ≠ file.hdr.mqhFree := by
      rw [first]
      rintro rfl
      exact fresh member
    simp only [MappedFile.fill, Function.update_of_ne other]
  have counted : linked.hdr.mqhAttr.mqCurmsgs + 1 =
      (StablePriority.insert (prioAt (file.fill m)) queue f).length := by
    rw [permuted.length_eq, attr, layout.curmsgs]
    simp
  refine ⟨?_, ?_, ?_, counted, ?_, ?_, ?_, ?_, ?_⟩
  -- the queue
  · rw [next_add_curmsgs]
    exact spliced
  -- the free list, which starts one slot later
  · obtain ⟨_, _, more⟩ := layout.unused
    have start : linked.hdr.mqhFree = (file.msg f).msgNext := by
      rw [relinked.hdr, ← first]
      rfl
    refine more.restart (some f) none rest ?_ ?_
    · exact start
    intro i member
    have outside : some i ∉ some f :: none :: queue.map some := by
      have distinctFree := List.nodup_cons.mp distinct.2.1
      simp only [List.mem_cons, Option.some.injEq, reduceCtorEq, List.mem_map, exists_eq_right,
        false_or, not_or]
      constructor
      · rintro rfl
        exact distinctFree.1 member
      · exact fun queued => distinct.2.2 i queued i (List.mem_cons_of_mem f member) rfl
    have kept := relinked.next (some i) outside
    rw [next_fill] at kept
    exact kept
  -- the slot has changed lists
  · show List.Perm _ (slots linked.hdr.mqhAttr)
    rw [attr]
    refine (permuted.append_right rest).trans (List.Perm.trans ?_ layout.shared_out)
    exact List.perm_middle.symm
  -- the order of the priorities and the lengths
  · have sorted : queue.Pairwise fun a b =>
        prioAt (file.fill m) b ≤ prioAt (file.fill m) a := by
      apply layout.ordered.imp_of_mem
      intro a b inside there less
      simp only [prioAt, same a inside, same b there]
      exact UInt32.le_iff_toNat_le.mp less
    apply (StablePriority.sorted_insert _ queue f sorted).imp
    intro a b less
    show (linked.msg b).msgPrio ≤ (linked.msg a).msgPrio
    rw [relinked.prio, relinked.prio]
    exact UInt32.le_iff_toNat_le.mpr less
  · intro i member
    show ((linked.msg i).msgLen : Int) ≤ linked.hdr.mqhAttr.mqMsgsize
    rw [relinked.len, attr]
    rcases insert_member_split _ queue f i member with rfl | inside
    · rw [← first]
      simpa [MappedFile.fill] using fits
    · rw [same i inside]
      exact layout.lens i inside
  · exact (congrArg MymqAttr.mqMaxmsg attr).symm ▸ layout.maxmsg_pos
  · exact (congrArg MymqAttr.mqMsgsize attr).symm ▸ layout.msgsize_pos
  · exact (congrArg MymqAttr.mqMsgsize attr).symm ▸ layout.msgsize_max

theorem filled_contents (file linked : MappedFile) (queue rest : List Nat) (f : Nat) (m : Message)
    (layout : Layout file queue (f :: rest)) (first : file.hdr.mqhFree = f)
    (fits : (m.bytes.length : Int) ≤ file.hdr.mqhAttr.mqMsgsize)
    (relinked : Relinked (file.fill m) linked (some f :: none :: queue.map some)) :
    contents (linked.addCurmsgs 1) (StablePriority.insert (prioAt (file.fill m)) queue f) =
      StablePriority.insert Message.rank (contents file queue) m := by
  have here : contents (linked.addCurmsgs 1) = List.map (messageAt (file.fill m)) := by
    funext cells
    exact List.map_congr_left fun i _ => relinked.message_at i
  rw [here, StablePriority.map_insert (prioAt (file.fill m)) Message.rank _ _ _ fun _ _ => rfl,
    ← first, message_at_filled, contents]
  congr 1
  apply List.map_congr_left
  intro i member
  exact message_at_fill file queue rest f i m layout first fits member

theorem send_link_links {Handle : Type*} (shared : Shared Handle) (queue free : List Nat)
    (m : Message) (sigqueued : Option Sigqueue) (layout : Layout shared.file queue free)
    (room : shared.file.hdr.mqhAttr.mqCurmsgs < shared.file.hdr.mqhAttr.mqMaxmsg)
    (fits : (m.bytes.length : Int) ≤ shared.file.hdr.mqhAttr.mqMsgsize) :
    ∃ after queue' free', sendLink m sigqueued shared =
        ⟨{ shared with file := after },
          if shared.file.hdr.mqhAttr.mqCurmsgs = 0 then .signal () else .quiet,
          ⟨.sent, sigqueued⟩, .leave ()⟩ ∧
      Layout after queue' free' ∧ Counted shared.file after 1 ∧
      contents after queue' =
        StablePriority.insert Message.rank (contents shared.file queue) m := by
  cases free with
  | nil =>
      have total := layout.curmsgs_le
      simp only [List.length_nil] at total
      omega
  | cons f rest =>
      have first : shared.file.hdr.mqhFree = f := layout.unused.1
      have proper : f ≠ 0 := layout.unused.2.1
      obtain ⟨linked, placed, relinked, spliced⟩ :=
        place_filled shared.file queue rest f m layout first
      refine ⟨linked.addCurmsgs 1, _, rest, ?_,
        filled_layout shared.file linked queue rest f m layout first fits relinked spliced, ?_,
        filled_contents shared.file linked queue rest f m layout first fits relinked⟩
      · simp only [sendLink, first, if_neg proper, placed]
      · refine ⟨?_, ?_, ?_, ?_⟩ <;> simp only [MappedFile.addCurmsgs] <;> rw [relinked.hdr] <;> rfl

def receipt (priop : Bool) (m : Message) : Reply :=
  .received m.bytes m.bytes.length (if priop then some m.prio else none)

def MappedFile.drop (file : MappedFile) : MappedFile :=
  let index := file.hdr.mqhHead
  let taken : MappedFile :=
    { file with
      hdr := { file.hdr with mqhHead := (file.msg index).msgNext, mqhFree := index }
      msg := Function.update file.msg index { file.msg index with msgNext := file.hdr.mqhFree } }
  taken.addCurmsgs (-1)

theorem drop_msg_other (file : MappedFile) (i : Nat) (other : i ≠ file.hdr.mqhHead) :
    file.drop.msg i = file.msg i :=
  Function.update_of_ne other _ _

theorem message_at_drop (file : MappedFile) (i : Nat) :
    messageAt file.drop i = messageAt file i := by
  by_cases same : i = file.hdr.mqhHead
  · simp [messageAt, MappedFile.drop, MappedFile.addCurmsgs, same]
  · simp only [messageAt, drop_msg_other file i same]
    rfl

theorem drop_layout (file : MappedFile) (i : Nat) (rest free : List Nat)
    (layout : Layout file (i :: rest) free) : Layout file.drop rest (i :: free) := by
  obtain ⟨first, proper, more⟩ := layout.queued
  have head : file.hdr.mqhHead = i := first
  have distinct := List.nodup_append.mp layout.distinct
  have absent := (List.nodup_cons.mp distinct.1).1
  have other (j : Nat) (member : j ∈ rest ++ free) : j ≠ file.hdr.mqhHead := by
    rw [head]
    rintro rfl
    rcases List.mem_append.mp member with queued | unused
    · exact absent queued
    · exact distinct.2.2 j (by simp) j unused rfl
  have kept (j : Nat) (member : j ∈ rest ++ free) :
      (file.drop.msg j).msgNext = (file.msg j).msgNext := by
    rw [drop_msg_other file j (other j member)]
  refine ⟨?_, ?_, ?_, ?_, ?_, ?_, layout.maxmsg_pos, layout.msgsize_pos, layout.msgsize_max⟩
  -- the queue starts where the first slot led to
  · refine more.restart (some i) none rest ?_ ?_
    · show (file.msg file.hdr.mqhHead).msgNext = (file.msg i).msgNext
      rw [head]
    · exact fun j member => kept j (List.mem_append_left free member)
  -- the slot goes in front of the free list
  · refine layout.unused.push none i free proper first ?_ ?_
    · show (file.drop.msg i).msgNext = file.hdr.mqhFree
      simp [MappedFile.drop, MappedFile.addCurmsgs, head]
    · exact fun j member => kept j (List.mem_append_right rest member)
  · exact List.perm_middle.trans layout.shared_out
  · show file.hdr.mqhAttr.mqCurmsgs + -1 = rest.length
    rw [layout.curmsgs, List.length_cons]
    omega
  · apply (List.pairwise_cons.mp layout.ordered).2.imp_of_mem
    intro a b inside there less
    rw [drop_msg_other file a (other a (List.mem_append_left free inside)),
      drop_msg_other file b (other b (List.mem_append_left free there))]
    exact less
  · intro j member
    rw [drop_msg_other file j (other j (List.mem_append_left free member))]
    exact layout.lens j (List.mem_cons_of_mem i member)

theorem receive_take_takes {Handle : Type*} (shared : Shared Handle) (queue free : List Nat)
    (priop : Bool) (layout : Layout shared.file queue free)
    (present : shared.file.hdr.mqhAttr.mqCurmsgs ≠ 0) :
    ∃ m after rest free', receiveTake priop shared =
        ⟨{ shared with file := after },
          if shared.file.hdr.mqhAttr.mqCurmsgs = shared.file.hdr.mqhAttr.mqMaxmsg then .signal ()
          else .quiet, ⟨receipt priop m, none⟩, .leave ()⟩ ∧
      Layout after rest free' ∧ Counted shared.file after (-1) ∧
      contents shared.file queue = m :: contents after rest := by
  cases queue with
  | nil =>
      have empty := layout.curmsgs
      simp at empty
      exact absurd empty present
  | cons i rest =>
      have head : shared.file.hdr.mqhHead = i := layout.queued.1
      have proper : i ≠ 0 := layout.queued.2.1
      refine ⟨messageAt shared.file i, shared.file.drop, rest, i :: free, ?_,
        drop_layout shared.file i rest free layout, ⟨rfl, rfl, rfl, rfl⟩, ?_⟩
      · simp only [receiveTake, head, if_neg proper, receipt, messageAt, bytesAt, MappedFile.drop,
          List.length_map, List.length_range]
      · rw [contents, List.map_cons, contents]
        congr 1
        exact List.map_congr_left fun j _ => (message_at_drop shared.file j).symm

end NetworkProgramming.Mymq
