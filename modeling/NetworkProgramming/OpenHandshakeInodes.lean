import NetworkProgramming.OpenHandshake

/-!
What one step of an opening function does to the inodes. Only the creator of an
inode works on it, its bit goes off once, when everything is written, and never
comes back.
-/

namespace NetworkProgramming.OpenHandshake

variable {Init : Type*}

def Pc.owns : Pc Init → Option Nat
  | .creating _ ino _ => some ino
  | _ => none

def Pc.awaits : Pc Init → Option Nat
  | .opening _ ino _ => some ino
  | .checking _ ino _ => some ino
  | _ => none

inductive Effect (P : Program Init) (fs : FileSystem) (error : Option Errno) (pc : Pc Init) :
    Went Init → Prop where
  | goes (next : Pc Init) (output : Option Outcome) (owns : next.owns = none)
      (awaits : next.awaits = none) (early : ∀ ino rest, next ≠ .finishing ino rest)
      (quiet : ∀ ino, output ≠ some (.created ino) ∧ output ≠ some (.found ino)) :
      Effect P fs error pc (fs, next, output)
  | unlinks (errno : Errno) : Effect P fs error pc (fs.unlink, .idle, some (.failed errno))
  | creates (args : Args Init) (gone : fs.dir = none) :
      Effect P fs error pc (fs.create, .creating args fs.next P.creates, none)
  | stores (args : Args Init) (ino : Nat) (stage : Stage) (rest : List Stage)
      (here : pc = .creating args ino (stage :: rest)) :
      Effect P fs error pc (fs.store ino stage, .creating args ino rest, none)
  | chmods (args : Args Init) (ino : Nat) (here : pc = .creating args ino []) :
      Effect P fs error pc (fs.fchmod ino, .idle, some (.created ino))
  | opens (args : Args Init) (ino : Nat) (named : fs.dir = some ino) :
      Effect P fs error pc (fs, .opening args ino P.opens, none)
  | waits (next : Pc Init) (ino : Nat) (here : pc.awaits = some ino)
      (still : next.awaits = some ino) : Effect P fs error pc (fs, next, none)
  | passes (args : Args Init) (ino i named : Nat) (here : pc = .checking args ino i)
      (looks : error = none) (names : fs.dir = some named)
      (off : (fs.inode named).xusr = false) :
      Effect P fs error pc (fs, .finishing ino P.finishes, none)
  | finishes (ino : Nat) (stage : Stage) (rest : List Stage)
      (here : pc = .finishing ino (stage :: rest)) :
      Effect P fs error pc (fs, .finishing ino rest, none)
  | returns (ino : Nat) (here : pc = .finishing ino []) :
      Effect P fs error pc (fs, .idle, some (.found ino))

theorem fail_effect (P : Program Init) (fs : FileSystem) (error : Option Errno) (pc : Pc Init)
    (errno : Errno) :
    Effect P fs error pc (fail fs errno) :=
  .goes .idle _ rfl rfl (by simp) fun _ => ⟨by simp, by simp⟩

theorem silent_effect (P : Program Init) (fs : FileSystem) (error : Option Errno)
    (pc next : Pc Init) (owns : next.owns = none) (awaits : next.awaits = none)
    (early : ∀ ino rest, next ≠ .finishing ino rest) : Effect P fs error pc (fs, next, none) :=
  .goes next none owns awaits early fun _ => ⟨by simp, by simp⟩

theorem missing_effect (P : Program Init) (fs : FileSystem) (error : Option Errno)
    (pc : Pc Init) (args : Args Init) (errno : Errno) :
    Effect P fs error pc (missing args fs errno) := by
  rw [missing]
  split
  · exact silent_effect P fs error pc (.again args) rfl rfl (by simp)
  · exact fail_effect P fs error pc errno

theorem open_excl_created (fs after : FileSystem) (error : Option Errno) (ino : Nat)
    (opened : fs.openExcl error = .ok (after, ino)) :
    fs.dir = none ∧ after = fs.create ∧ ino = fs.next := by
  cases error with
  | some errno => cases opened
  | none =>
      cases gone : fs.dir with
      | some other => simp [FileSystem.openExcl, gone] at opened
      | none =>
          simp only [FileSystem.openExcl, gone, Except.ok.injEq, Prod.mk.injEq] at opened
          exact ⟨rfl, opened.1.symm, opened.2.symm⟩

theorem lookup_named (fs : FileSystem) (error : Option Errno) (ino : Nat)
    (found : fs.lookup error = .ok ino) : error = none ∧ fs.dir = some ino := by
  cases error with
  | some errno => cases found
  | none =>
      cases named : fs.dir with
      | none => simp [FileSystem.lookup, named] at found
      | some other =>
          simp only [FileSystem.lookup, named, Except.ok.injEq] at found
          exact ⟨rfl, congrArg some found⟩

theorem proceed_effect (P : Program Init) (fs : FileSystem) (error : Option Errno) (pc : Pc Init)
    (went : Went Init) (proceeds : proceed P fs error pc = some went) :
    Effect P fs error pc went := by
  cases pc with
  | idle => cases proceeds
  | again args =>
      simp only [proceed, Option.some.injEq] at proceeds
      subst went
      split
      · rename_i after ino opened
        obtain ⟨gone, rfl, rfl⟩ := open_excl_created fs after error ino opened
        exact .creates args gone
      · split
        · exact silent_effect P fs _ _ (.exists args) rfl rfl (by simp)
        · exact fail_effect P fs _ _ _
  | creating args ino rest =>
      cases rest with
      | nil =>
          simp only [proceed, Option.some.injEq] at proceeds
          subst went
          cases error with
          | none => exact .chmods args ino rfl
          | some errno => exact silent_effect P fs _ _ (.err errno) rfl rfl (by simp)
      | cons stage rest =>
          simp only [proceed] at proceeds
          split at proceeds
          · cases proceeds
            exact .stores args ino stage rest rfl
          · cases proceeds
            exact silent_effect P fs _ _ (.err _) rfl rfl (by simp)
          · split at proceeds
            · cases proceeds
              exact silent_effect P fs _ _ (.err _) rfl rfl (by simp)
            · cases proceeds
          · cases proceeds
  | err errno =>
      simp only [proceed, Option.some.injEq] at proceeds
      subst went
      split
      · exact fail_effect P fs _ _ errno
      · exact .unlinks errno
  | «exists» args =>
      simp only [proceed, Option.some.injEq] at proceeds
      subst went
      split
      · rename_i ino found
        exact .opens args ino (lookup_named fs error ino found).2
      · exact missing_effect P fs _ _ args _
  | opening args ino rest =>
      cases rest with
      | nil =>
          cases proceeds
          exact .waits _ ino rfl rfl
      | cons stage rest =>
          simp only [proceed, Option.some.injEq] at proceeds
          subst went
          cases error with
          | none => exact .waits _ ino rfl rfl
          | some errno => exact fail_effect P fs _ _ errno
  | checking args ino i =>
      simp only [proceed, Option.some.injEq] at proceeds
      subst went
      split
      · rename_i named found
        split
        · rename_i off
          obtain ⟨looks, names⟩ := lookup_named fs error named found
          exact .passes args ino i named rfl looks names off
        · split
          · exact fail_effect P fs _ _ _
          · exact .waits _ ino rfl rfl
      · exact missing_effect P fs _ _ args _
  | finishing ino rest =>
      cases rest with
      | nil =>
          cases proceeds
          exact .returns ino rfl
      | cons stage rest =>
          simp only [proceed, Option.some.injEq] at proceeds
          subst went
          cases error with
          | none => exact .finishes ino stage rest rfl
          | some errno => exact fail_effect P fs _ _ errno

/-! ### What stays true of the inodes -/

/-- `fs` goes on to `after`, at most one inode being worked on, that of `own`. -/
structure Grows (fs after : FileSystem) (own : Option Nat) : Prop where
  next : fs.next ≤ after.next
  others : ∀ ino, ino < fs.next → own ≠ some ino → after.inode ino = fs.inode ino

theorem Grows.refl (fs : FileSystem) (own : Option Nat) : Grows fs fs own :=
  ⟨Nat.le_refl _, fun _ _ _ => rfl⟩

theorem create_grows (fs : FileSystem) (own : Option Nat) : Grows fs fs.create own := by
  constructor
  · exact Nat.le_succ _
  · intro ino old _
    exact Function.update_of_ne (by omega) _ _

theorem set_grows (fs : FileSystem) (ino : Nat) (inode : Inode) :
    Grows fs (fs.set ino inode) (some ino) := by
  constructor
  · exact Nat.le_refl _
  · intro other _ apart
    exact Function.update_of_ne (fun same => apart (congrArg some same.symm)) _ _

theorem effect_grows (P : Program Init) (fs : FileSystem) (error : Option Errno) (pc : Pc Init)
    (went : Went Init) (effect : Effect P fs error pc went) : Grows fs went.1 pc.owns := by
  cases effect with
  | goes next output owns awaits early quiet => exact .refl fs _
  | unlinks errno => exact ⟨Nat.le_refl _, fun _ _ _ => rfl⟩
  | creates args gone => exact create_grows fs _
  | stores args ino stage rest here =>
      subst here
      exact set_grows fs ino _
  | chmods args ino here =>
      subst here
      exact set_grows fs ino _
  | opens args ino named => exact .refl fs _
  | waits next ino here still => exact .refl fs _
  | passes args ino i named here looks names off => exact .refl fs _
  | finishes ino stage rest here => exact .refl fs _
  | returns ino here => exact .refl fs _

structure Fits (P : Program Init) (fs : FileSystem) (pc : Pc Init) : Prop where
  owned : ∀ args ino rest, pc = .creating args ino rest →
    ino < fs.next ∧ (fs.inode ino).xusr = true ∧ (fs.inode ino).contents ++ rest = P.creates
  awaited : ∀ ino, pc.awaits = some ino → ino < fs.next
  mapped : ∀ ino rest, pc = .finishing ino rest → ino < fs.next

theorem fits_without (P : Program Init) (fs : FileSystem) (pc : Pc Init) (owns : pc.owns = none)
    (awaits : pc.awaits = none) (early : ∀ ino rest, pc ≠ .finishing ino rest) :
    Fits P fs pc := by
  constructor
  · rintro args ino rest rfl
    cases owns
  · intro ino here
    cases awaits.symm.trans here
  · intro ino rest here
    exact absurd here (early ino rest)

theorem Fits.grows {P : Program Init} {fs after : FileSystem} {own : Option Nat} {pc : Pc Init}
    (fits : Fits P fs pc) (grows : Grows fs after own)
    (apart : ∀ ino, pc.owns = some ino → own ≠ some ino) : Fits P after pc := by
  constructor
  · rintro args ino rest rfl
    obtain ⟨old, on, stages⟩ := fits.owned args ino rest rfl
    have same := grows.others ino old (apart ino rfl)
    rw [same]
    exact ⟨Nat.lt_of_lt_of_le old grows.next, on, stages⟩
  · intro ino here
    exact Nat.lt_of_lt_of_le (fits.awaited ino here) grows.next
  · intro ino rest here
    exact Nat.lt_of_lt_of_le (fits.mapped ino rest here) grows.next

theorem effect_fits (P : Program Init) (fs : FileSystem) (error : Option Errno) (pc : Pc Init)
    (went : Went Init) (effect : Effect P fs error pc went)
    (entry : ∀ ino, fs.dir = some ino → ino < fs.next)
    (fits : Fits P fs pc) : Fits P went.1 went.2.1 := by
  cases effect with
  | goes next output owns awaits early quiet => exact fits_without P fs next owns awaits early
  | unlinks errno => exact fits_without P _ .idle rfl rfl (by simp)
  | creates args gone =>
      refine ⟨?_, by simp [Pc.awaits], by simp⟩
      intro other ino rest here
      cases here
      refine ⟨Nat.lt_succ_self _, ?_, ?_⟩
      · simp only [FileSystem.create, Function.update_self]
      · simp only [FileSystem.create, Function.update_self, List.nil_append]
  | stores args ino stage rest here =>
      obtain ⟨old, on, stages⟩ := fits.owned args ino (stage :: rest) here
      refine ⟨?_, by simp [Pc.awaits], by simp⟩
      intro other ino' rest' same
      cases same
      refine ⟨old, ?_, ?_⟩
      · simpa only [FileSystem.store, FileSystem.set, Function.update_self] using on
      · simpa only [FileSystem.store, FileSystem.set, Function.update_self, List.append_assoc,
          List.singleton_append] using stages
  | chmods args ino here => exact fits_without P _ .idle rfl rfl (by simp)
  | opens args ino named =>
      refine ⟨by simp, ?_, by simp⟩
      intro other here
      cases here
      -- the inode that the name has was there before
      exact entry ino named
  | waits next ino here still =>
      refine ⟨?_, ?_, ?_⟩
      · rintro args other rest rfl
        cases still
      · intro other awaits
        cases still.symm.trans awaits
        exact fits.awaited ino here
      · rintro other rest rfl
        cases still
  | passes args ino i named here looks names off =>
      refine ⟨by simp, by simp [Pc.awaits], ?_⟩
      intro other rest same
      cases same
      -- the inode that is mapped is the one whose bit was waited for
      exact fits.awaited ino (by rw [here]; rfl)
  | finishes ino stage rest here =>
      refine ⟨by simp, by simp [Pc.awaits], ?_⟩
      intro other rest' same
      cases same
      exact fits.mapped ino (stage :: rest) here
  | returns ino here => exact fits_without P fs .idle rfl rfl (by simp)

def FileSystem.Off (fs : FileSystem) (ino : Nat) : Prop :=
  ino < fs.next ∧ (fs.inode ino).xusr = false

theorem effect_off (P : Program Init) (fs : FileSystem) (error : Option Errno) (pc : Pc Init)
    (went : Went Init) (effect : Effect P fs error pc went) (fits : Fits P fs pc) (ino : Nat) :
    went.1.Off ino ↔ fs.Off ino ∨ went.2.2 = some (.created ino) := by
  cases effect with
  | goes next output owns awaits early quiet => simp [(quiet ino).1]
  | unlinks errno => simp [FileSystem.Off, FileSystem.unlink]
  | creates args gone =>
      by_cases new : ino = fs.next
      · subst new
        simp [FileSystem.Off, FileSystem.create]
      · have old : ino < fs.next + 1 ↔ ino < fs.next := by omega
        simp [FileSystem.Off, FileSystem.create, new, old]
  | stores args own stage rest here =>
      by_cases same : ino = own
      · subst same
        simp [FileSystem.Off, FileSystem.store, FileSystem.set]
      · simp [FileSystem.Off, FileSystem.store, FileSystem.set, same]
  | chmods args own here =>
      by_cases same : ino = own
      · subst same
        have old := (fits.owned args ino [] here).1
        simp [FileSystem.Off, FileSystem.fchmod, FileSystem.set, old]
      · simp [FileSystem.Off, FileSystem.fchmod, FileSystem.set, same, Ne.symm same]
  | opens args own named => simp
  | waits next own here still => simp
  | passes args own i named here looks names off => simp
  | finishes own stage rest here => simp
  | returns own here => simp

/-- Inodes whose bit is off hold all that their creator writes. -/
def Complete (P : Program Init) (fs : FileSystem) : Prop :=
  ∀ ino, fs.Off ino → (fs.inode ino).contents = P.creates

theorem effect_complete (P : Program Init) (fs : FileSystem) (error : Option Errno)
    (pc : Pc Init) (went : Went Init) (effect : Effect P fs error pc went)
    (fits : Fits P fs pc) (complete : Complete P fs) :
    Complete P went.1 := by
  intro ino off
  have grows := effect_grows P fs error pc went effect
  rcases (effect_off P fs error pc went effect fits ino).mp off with already | chmod
  -- an inode whose bit is off has no creator, so the step left it alone
  · have apart : pc.owns ≠ some ino := by
      intro owner
      cases pc with
      | creating args own rest =>
          cases owner
          have on := (fits.owned args ino rest rfl).2.1
          rw [already.2] at on
          cases on
      | _ => cases owner
    rw [grows.others ino already.1 apart]
    exact complete ino already
  -- `fchmod` comes when no stage is left
  · cases effect with
    | chmods args own here =>
        cases chmod
        have stages := (fits.owned args ino [] here).2.2
        simpa [FileSystem.fchmod, FileSystem.set] using stages
    | goes next output owns awaits early quiet => exact absurd chmod (quiet ino).1
    | _ => cases chmod

theorem effect_entry (P : Program Init) (fs : FileSystem) (error : Option Errno) (pc : Pc Init)
    (went : Went Init) (effect : Effect P fs error pc went)
    (entry : ∀ ino, fs.dir = some ino → ino < fs.next) :
    ∀ ino, went.1.dir = some ino → ino < went.1.next := by
  cases effect with
  | unlinks errno => simp [FileSystem.unlink]
  | creates args gone =>
      intro ino named
      cases named
      exact Nat.lt_succ_self _
  | _ => exact entry

theorem effect_owns (P : Program Init) (fs : FileSystem) (error : Option Errno) (pc : Pc Init)
    (went : Went Init) (effect : Effect P fs error pc went) (ino : Nat)
    (owner : went.2.1.owns = some ino) : pc.owns = some ino ∨ ino = fs.next := by
  cases effect with
  | goes next output owns awaits early quiet => cases owns.symm.trans owner
  | creates args gone =>
      cases owner
      exact .inr rfl
  | stores args own stage rest here =>
      cases owner
      exact .inl (by rw [here]; rfl)
  | waits next own here still =>
      cases next with
      | creating args own rest => cases still
      | _ => cases owner
  | _ => cases owner

/-- A process that gets to `finishing` knows that the bit is off, unless the
inode it has seen is not the one it has open. -/
theorem effect_passed (P : Program Init) (fs : FileSystem) (error : Option Errno) (pc : Pc Init)
    (went : Went Init) (effect : Effect P fs error pc went) (fits : Fits P fs pc)
    (beheld : ∀ args ino i named, pc = .checking args ino i → error = none →
      fs.dir = some named → (fs.inode named).xusr = false → (fs.inode ino).xusr = false)
    (passed : ∀ ino rest, pc = .finishing ino rest → fs.Off ino) (ino : Nat) (rest : List Stage)
    (here : went.2.1 = .finishing ino rest) : fs.Off ino := by
  cases effect with
  | goes next output owns awaits early quiet => exact absurd here (early ino rest)
  | waits next own before still =>
      cases next with
      | finishing own rest => cases still
      | _ => cases here
  | passes args own i named before looks names off =>
      cases here
      exact ⟨fits.awaited ino (by rw [before]; rfl), beheld args ino i named before looks names off⟩
  | finishes own stage rest' before =>
      cases here
      exact passed ino _ before
  | _ => cases here

end NetworkProgramming.OpenHandshake
