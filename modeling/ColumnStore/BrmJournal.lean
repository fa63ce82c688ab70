import ColumnStore.RangeProtocol

/-!
# The journal and the snapshots of the first worker

The first worker appends every confirmed command to a journal and now and then saves its tables, to
files with the suffix A or B in turn, names them in the file `_current` and truncates the journal.
After a crash the image that `_current` names is loaded and the journal is replayed on it.

What a command does to the tables is a parameter, and so is when the extent map counts as empty. The
files of an image hold the tables they were written from; `none` stands for a file that is missing,
emptied or half written. Opening a file for writing empties it. A journal record is appended as one
operation. Copy locks are in shared memory only and are left out, as is `BRM_CLEAR`, which is
journalled but not confirmed.
-/

namespace BrmJournal

open List Option
open RangeProtocol (CPEntry)

variable {EM VB VS Cmd : Type}

structure Tables (EM VB VS : Type) where
  em : EM
  vbbm : VB
  vss : VS
  deriving DecidableEq

/-- The three files of an image. -/
structure Files (EM VB VS : Type) where
  em : Option EM
  vbbm : Option VB
  vss : Option VS

/-- `true` stands for the suffix A. -/
abbrev Suffix := Bool

structure Disk (EM VB VS Cmd : Type) where
  current : Option Suffix
  image : Suffix → Files EM VB VS
  journal : List Cmd

/-- The file operations of `do_confirm`. -/
inductive FileOp (EM VB VS Cmd : Type)
  | appendJournal (cmd : Cmd)
  | openCurrent
  | openEm (name : Suffix)
  | writeEm (name : Suffix) (em : EM)
  | openVbbm (name : Suffix)
  | writeVbbm (name : Suffix) (vbbm : VB)
  | openVss (name : Suffix)
  | writeVss (name : Suffix) (vss : VS)
  | writeCurrent (name : Suffix)
  | openJournal

def Disk.setImage (d : Disk EM VB VS Cmd) (name : Suffix) (files : Files EM VB VS) :
    Disk EM VB VS Cmd :=
  { d with image := Function.update d.image name files }

def FileOp.apply (d : Disk EM VB VS Cmd) : FileOp EM VB VS Cmd → Disk EM VB VS Cmd
  | .appendJournal cmd => { d with journal := d.journal ++ [cmd] }
  | .openCurrent => { d with current := none }
  | .openEm name => d.setImage name { d.image name with em := none }
  | .writeEm name em => d.setImage name { d.image name with em := some em }
  | .openVbbm name => d.setImage name { d.image name with vbbm := none }
  | .writeVbbm name vbbm => d.setImage name { d.image name with vbbm := some vbbm }
  | .openVss name => d.setImage name { d.image name with vss := none }
  | .writeVss name vss => d.setImage name { d.image name with vss := some vss }
  | .writeCurrent name => { d with current := some name }
  | .openJournal => { d with journal := [] }

def Disk.perform (d : Disk EM VB VS Cmd) (ops : List (FileOp EM VB VS Cmd)) : Disk EM VB VS Cmd :=
  ops.foldl FileOp.apply d

/-- What the worker does not get from its own files. -/
structure Node (EM VB VS Cmd : Type) where
  exec : Cmd → Tables EM VB VS → Tables EM VB VS
  emptyMap : EM → Bool
  /-- The command creates extents of a system table, after which a snapshot has to exist. -/
  snapshots : Cmd → Bool

structure Worker (EM VB VS Cmd : Type) where
  tables : Tables EM VB VS
  /-- What `undoChanges` goes back to. -/
  before : Tables EM VB VS
  /-- The command that waits for `CONFIRM` or `UNDO`. -/
  delta : Option Cmd
  takeSnapshot : Bool
  doSaveDelta : Bool
  saveFileToggle : Bool
  journalCount : Int

def Worker.init (tables : Tables EM VB VS) : Worker EM VB VS Cmd :=
  ⟨tables, tables, none, false, false, true, 0⟩

variable (node : Node EM VB VS Cmd) (snapshotInterval : Int)

def replay (tables : Tables EM VB VS) (journal : List Cmd) : Tables EM VB VS :=
  journal.foldl (fun tables cmd => node.exec cmd tables) tables

def loadState (files : Files EM VB VS) : Option (Tables EM VB VS) := do
  let em ← files.em
  let vbbm ← files.vbbm
  let vss ← files.vss
  return ⟨em, vbbm, vss⟩

/-- Load the image named by `_current` and replay the journal. -/
def recover (d : Disk EM VB VS Cmd) : Option (Tables EM VB VS) := do
  let name ← d.current
  let tables ← loadState (d.image name)
  return replay node tables d.journal

/-- An empty extent map is not saved; the exception ends the saving and is not reported. -/
def saveState (name : Suffix) (tables : Tables EM VB VS) : List (FileOp EM VB VS Cmd) :=
  if node.emptyMap tables.em then []
  else
    [.openEm name, .writeEm name tables.em, .openVbbm name, .writeVbbm name tables.vbbm,
      .openVss name, .writeVss name tables.vss]

def saveDelta (w : Worker EM VB VS Cmd) : List (FileOp EM VB VS Cmd) :=
  match w.delta with
  | none => []
  | some cmd =>
    if w.doSaveDelta && (w.journalCount < snapshotInterval || snapshotInterval < 0) then
      [.appendJournal cmd]
    else []

/-- The journal's count when the delta has been saved. -/
def countAfter (w : Worker EM VB VS Cmd) : Int :=
  w.journalCount + (saveDelta snapshotInterval w).length

def snapshotDue (w : Worker EM VB VS Cmd) : Bool :=
  w.takeSnapshot || (snapshotInterval ≤ countAfter snapshotInterval w && 0 ≤ snapshotInterval)

def snapshotOps (w : Worker EM VB VS Cmd) : List (FileOp EM VB VS Cmd) :=
  .openCurrent :: saveState node w.saveFileToggle w.tables ++
    [.writeCurrent w.saveFileToggle, .openJournal]

/-- The file operations of `do_confirm`, in order. -/
def confirmOps (w : Worker EM VB VS Cmd) : List (FileOp EM VB VS Cmd) :=
  saveDelta snapshotInterval w ++ if snapshotDue snapshotInterval w then snapshotOps node w else []

/-- The worker when `do_confirm` returns. -/
def confirmed (w : Worker EM VB VS Cmd) : Worker EM VB VS Cmd :=
  let due := snapshotDue snapshotInterval w
  { tables := w.tables
    before := w.tables
    delta := none
    takeSnapshot := false
    doSaveDelta := false
    saveFileToggle := if due then !w.saveFileToggle else w.saveFileToggle
    journalCount := if due then 0 else countAfter snapshotInterval w }

/-- `done` are the tables after all commands whose `do_confirm` has returned. -/
structure State (EM VB VS Cmd : Type) where
  disk : Disk EM VB VS Cmd
  worker : Worker EM VB VS Cmd
  done : Tables EM VB VS

def start (tables : Tables EM VB VS) : State EM VB VS Cmd :=
  ⟨⟨none, fun _ => ⟨none, none, none⟩, []⟩, .init tables, tables⟩

inductive Action (Cmd : Type)
  | command (cmd : Cmd)
  | undo
  | confirm
  | takeSnapshot
  /-- A crash when `count` file operations of the pending `do_confirm` are done, and a restart. -/
  | crash (count : Nat)
  /-- The same while no command is pending and a snapshot is taken on request. -/
  | crashInSnapshot (count : Nat)

/-- The worker that runs `do_confirm` for `TAKE_SNAPSHOT`. -/
def Worker.requested (w : Worker EM VB VS Cmd) : Worker EM VB VS Cmd :=
  { w with takeSnapshot := true }

/-- What is on disk after a crash in `do_confirm`. -/
def crashDisk (d : Disk EM VB VS Cmd) (w : Worker EM VB VS Cmd) (count : Nat) : Disk EM VB VS Cmd :=
  d.perform ((confirmOps node snapshotInterval w).take count)

def restart (d : Disk EM VB VS Cmd) : Option (State EM VB VS Cmd) :=
  (recover node d).map fun tables => ⟨d, .init tables, tables⟩

def confirmStep (s : State EM VB VS Cmd) (w : Worker EM VB VS Cmd) : State EM VB VS Cmd :=
  ⟨s.disk.perform (confirmOps node snapshotInterval w), confirmed snapshotInterval w, w.tables⟩

/-- What a crash leaves on disk; without a pending command no file operation is under way. -/
def crashed (s : State EM VB VS Cmd) : Action Cmd → Option (Disk EM VB VS Cmd)
  | .crash count =>
    some (if s.worker.delta.isSome then crashDisk node snapshotInterval s.disk s.worker count
      else s.disk)
  | .crashInSnapshot count =>
    if s.worker.delta.isNone then
      some (crashDisk node snapshotInterval s.disk s.worker.requested count)
    else none
  | _ => none

def step (s : State EM VB VS Cmd) : Action Cmd → Option (State EM VB VS Cmd)
  | .command cmd =>
    if s.worker.delta.isNone then
      some { s with
        worker := { s.worker with
          tables := node.exec cmd s.worker.tables
          before := s.worker.tables
          delta := some cmd
          takeSnapshot := node.snapshots cmd
          doSaveDelta := !node.snapshots cmd } }
    else none
  | .undo =>
    some { s with
      worker := { s.worker with
        tables := s.worker.before
        delta := none
        takeSnapshot := false
        doSaveDelta := false } }
  | .confirm =>
    if s.worker.delta.isSome then some (confirmStep node snapshotInterval s s.worker) else none
  | .takeSnapshot =>
    if s.worker.delta.isNone then some (confirmStep node snapshotInterval s s.worker.requested)
    else none
  | .crash count => (crashed node snapshotInterval s (.crash count)).bind (restart node)
  | .crashInSnapshot count =>
    (crashed node snapshotInterval s (.crashInSnapshot count)).bind (restart node)

/-- A snapshot that is due is not one of an empty extent map. -/
def SnapshotSaves (w : Worker EM VB VS Cmd) : Prop :=
  snapshotDue snapshotInterval w = true → node.emptyMap w.tables.em = false

/-- The crash comes while `_current` names an image and before the snapshot begins, or after the
snapshot is complete; or only the journal is still to be truncated, and it has no command that
changes the tables again. -/
def CrashSafe (d : Disk EM VB VS Cmd) (w : Worker EM VB VS Cmd) (count : Nat) : Prop :=
  if snapshotDue snapshotInterval w then
    count ≤ (saveDelta snapshotInterval w).length ∧ d.current ≠ none ∨
      (confirmOps node snapshotInterval w).length ≤ count ∨
      (confirmOps node snapshotInterval w).length ≤ count + 1 ∧
        ∀ cmd ∈ (d.perform (saveDelta snapshotInterval w)).journal,
          node.exec cmd w.tables = w.tables
  else d.current ≠ none

def Saves (s : State EM VB VS Cmd) : Action Cmd → Prop
  | .command _ | .undo => True
  | .confirm | .crash _ => SnapshotSaves node snapshotInterval s.worker
  | .takeSnapshot | .crashInSnapshot _ => SnapshotSaves node snapshotInterval s.worker.requested

def Safe (s : State EM VB VS Cmd) : Action Cmd → Prop
  | .crash count =>
    if s.worker.delta.isSome then CrashSafe node snapshotInterval s.disk s.worker count
    else s.disk.current ≠ none
  | .crashInSnapshot count => CrashSafe node snapshotInterval s.disk s.worker.requested count
  | _ => True

def Careful (s : State EM VB VS Cmd) (a : Action Cmd) : Prop :=
  Saves node snapshotInterval s a ∧ Safe node snapshotInterval s a

def whole (tables : Tables EM VB VS) : Files EM VB VS :=
  ⟨some tables.em, some tables.vbbm, some tables.vss⟩

/-- An image that `_current` names is complete. -/
def NamesWhole (d : Disk EM VB VS Cmd) : Prop :=
  ∀ name, d.current = some name → ∃ tables, d.image name = whole tables

/-- The image named by `_current` and the journal give the tables. -/
def Holds (d : Disk EM VB VS Cmd) (tables : Tables EM VB VS) : Prop :=
  ∀ name, d.current = some name →
    ∃ saved, d.image name = whole saved ∧ replay node saved d.journal = tables

variable {node snapshotInterval} {d : Disk EM VB VS Cmd} {w : Worker EM VB VS Cmd}
variable {tables : Tables EM VB VS} {s t : State EM VB VS Cmd}

lemma Holds.namesWhole (holds : Holds node d tables) : NamesWhole d := by
  intro name named
  obtain ⟨saved, image, -⟩ := holds name named
  exact ⟨saved, image⟩

lemma Holds.recover (holds : Holds node d tables) (named : d.current ≠ none) :
    recover node d = some tables := by
  obtain ⟨name, current⟩ := ne_none_iff_exists'.mp named
  obtain ⟨saved, image, rfl⟩ := holds name current
  simp [BrmJournal.recover, current, image, loadState, whole]

lemma Holds.append (holds : Holds node d tables) (cmd : Cmd) :
    Holds node (FileOp.apply d (.appendJournal cmd)) (node.exec cmd tables) := by
  intro name named
  obtain ⟨saved, image, rfl⟩ := holds name named
  exact ⟨saved, image, by simp [replay, FileOp.apply]⟩

lemma holds_of_unnamed (unnamed : d.current = none) : Holds node d tables := by
  intro name named
  cases unnamed.symm.trans named

lemma namesWhole_of_unnamed (unnamed : d.current = none) : NamesWhole d := by
  intro name named
  cases unnamed.symm.trans named

lemma replay_of_unchanged {journal : List Cmd}
    (unchanged : ∀ cmd ∈ journal, node.exec cmd tables = tables) :
    replay node tables journal = tables := by
  induction journal with
  | nil => rfl
  | cons cmd rest ih =>
    obtain ⟨first, later⟩ := forall_mem_cons.mp unchanged
    rw [replay, foldl_cons, first]
    exact ih later

lemma perform_append (d : Disk EM VB VS Cmd) (ops ops' : List (FileOp EM VB VS Cmd)) :
    d.perform (ops ++ ops') = (d.perform ops).perform ops' := foldl_append

/-- How far a snapshot has come after some of its operations. -/
lemma perform_take_snapshotOps (saves : node.emptyMap w.tables.em = false)
    (d : Disk EM VB VS Cmd) (count : Nat) :
    let d' := d.perform ((snapshotOps node w).take count)
    count = 0 ∧ d' = d ∨ d'.current = none ∧ 1 ≤ count ∧ count ≤ 7 ∨
      d'.current = some w.saveFileToggle ∧ d'.image w.saveFileToggle = whole w.tables ∧
        (count = 8 ∧ d'.journal = d.journal ∨ 9 ≤ count ∧ d'.journal = []) := by
  simp only [snapshotOps, saveState, saves]
  match count with
  | 0 => exact .inl ⟨rfl, rfl⟩
  | 1 | 2 | 3 | 4 | 5 | 6 | 7 => exact .inr (.inl ⟨rfl, by omega, by omega⟩)
  | 8 =>
    simp [Disk.perform, FileOp.apply, Disk.setImage, whole]
  | count + 9 =>
    rw [take_of_length_le (by simp)]
    simp [Disk.perform, FileOp.apply, Disk.setImage, whole]

/-- The tables are those of the confirmed commands and the pending one. -/
structure Ready (node : Node EM VB VS Cmd) (w : Worker EM VB VS Cmd) (done : Tables EM VB VS) :
    Prop where
  before : w.before = done
  idle : w.delta = none → w.tables = done
  pending : ∀ cmd, w.delta = some cmd →
    w.tables = node.exec cmd done ∧ w.doSaveDelta = !w.takeSnapshot

lemma saveDelta_cases (snapshotInterval : Int) (w : Worker EM VB VS Cmd) :
    saveDelta snapshotInterval w = [] ∨
      ∃ cmd, w.delta = some cmd ∧ saveDelta snapshotInterval w = [.appendJournal cmd] := by
  unfold saveDelta
  split
  · exact .inl rfl
  rename_i cmd delta
  split_ifs
  · exact .inr ⟨cmd, delta, rfl⟩
  · exact .inl rfl

/-- Where no snapshot is due, a pending command is put into the journal. -/
lemma saveDelta_of_not_due {cmd : Cmd} (delta : w.delta = some cmd)
    (flags : w.doSaveDelta = !w.takeSnapshot) (rests : ¬ snapshotDue snapshotInterval w) :
    saveDelta snapshotInterval w = [.appendJournal cmd] := by
  rcases saveDelta_cases snapshotInterval w with nothing | ⟨cmd', delta', saved⟩
  · simp only [snapshotDue, countAfter, nothing, Bool.or_eq_true, Bool.and_eq_true,
      decide_eq_true_eq, not_or] at rests
    simp only [saveDelta, delta, flags, rests.1] at nothing
    simp only [Bool.not_false, Bool.true_and, Bool.or_eq_true, decide_eq_true_eq, ite_eq_right_iff,
      reduceCtorEq, imp_false] at nothing
    omega
  · cases delta.symm.trans delta'
    exact saved

lemma Ready.holds_take_saveDelta (snapshotInterval : Int) (ready : Ready node w tables)
    (holds : Holds node d tables) (count : Nat) :
    Holds node (d.perform ((saveDelta snapshotInterval w).take count)) tables ∨
      Holds node (d.perform ((saveDelta snapshotInterval w).take count)) w.tables := by
  rcases saveDelta_cases snapshotInterval w with nothing | ⟨cmd, delta, saved⟩
  · rw [nothing, take_nil]
    exact .inl holds
  rw [saved]
  rcases count with _ | count
  · exact .inl holds
  · rw [(ready.pending cmd delta).1]
    exact .inr (by simpa [Disk.perform] using holds.append cmd)

section

variable (ready : Ready node w tables) (holds : Holds node d tables)
  (saves : SnapshotSaves node snapshotInterval w)
include ready holds saves

lemma Ready.crash (count : Nat) :
    NamesWhole (crashDisk node snapshotInterval d w count) ∧
      (CrashSafe node snapshotInterval d w count →
        recover node (crashDisk node snapshotInterval d w count) = some tables ∨
          recover node (crashDisk node snapshotInterval d w count) = some w.tables) := by
  have early := ready.holds_take_saveDelta snapshotInterval holds count
  have same : (d.perform ((saveDelta snapshotInterval w).take count)).current = d.current := by
    rcases saveDelta_cases snapshotInterval w with nothing | ⟨cmd, -, saved⟩
    · rw [nothing, take_nil]
      rfl
    · rw [saved]
      rcases count with _ | count <;> simp [Disk.perform, FileOp.apply]
  have recovered : d.current ≠ none →
      recover node (d.perform ((saveDelta snapshotInterval w).take count)) = some tables ∨
        recover node (d.perform ((saveDelta snapshotInterval w).take count)) = some w.tables :=
    fun named => early.imp (·.recover (same ▸ named)) (·.recover (same ▸ named))
  have wholeEarly := early.elim Holds.namesWhole Holds.namesWhole
  unfold crashDisk CrashSafe confirmOps
  by_cases due : snapshotDue snapshotInterval w
  · have saved := saves due
    have length : (snapshotOps node w).length = 9 := by simp [snapshotOps, saveState, saved]
    simp only [due, if_true, take_append, length_append]
    rw [perform_append]
    rcases perform_take_snapshotOps saved (d.perform ((saveDelta snapshotInterval w).take count))
        (count - (saveDelta snapshotInterval w).length) with
      ⟨zero, unchanged⟩ | ⟨unnamed, first, last⟩ | ⟨named, image, journal⟩
    · rw [unchanged]
      refine ⟨wholeEarly, ?_⟩
      rintro (⟨-, named⟩ | late | ⟨late, -⟩)
      · exact recovered named
      all_goals omega
    · refine ⟨namesWhole_of_unnamed unnamed, ?_⟩
      rintro (⟨early, -⟩ | late | ⟨late, -⟩) <;> omega
    refine ⟨fun name current => ⟨w.tables, ?_⟩, fun safe => .inr ?_⟩
    · cases named.symm.trans current
      exact image
    refine Holds.recover (fun name current => ⟨w.tables, ?_, ?_⟩) (by simp [named])
    · cases named.symm.trans current
      exact image
    rcases journal with ⟨eight, journal⟩ | ⟨-, journal⟩
    · rcases safe with ⟨early, -⟩ | late | ⟨-, again⟩
      · omega
      · omega
      · rw [journal, take_of_length_le (by omega)]
        exact replay_of_unchanged again
    · rw [journal]
      rfl
  · simp only [due, Bool.false_eq_true, if_false, append_nil]
    exact ⟨wholeEarly, recovered⟩

lemma Ready.confirm : Holds node (d.perform (confirmOps node snapshotInterval w)) w.tables := by
  unfold confirmOps
  by_cases due : snapshotDue snapshotInterval w
  · have saved := saves due
    have all : (snapshotOps node w).take 9 = snapshotOps node w :=
      take_of_length_le (by simp [snapshotOps, saveState, saved])
    simp only [due, if_true]
    rw [perform_append]
    rcases perform_take_snapshotOps saved (d.perform (saveDelta snapshotInterval w)) 9 with
      ⟨zero, -⟩ | ⟨-, -, last⟩ | ⟨named, image, journal⟩
    · omega
    · omega
    rw [all] at named image journal
    intro name current
    cases named.symm.trans current
    refine ⟨w.tables, image, ?_⟩
    rw [(journal.resolve_left (by omega)).2]
    rfl
  simp only [due]
  rcases pending : w.delta with _ | cmd
  · rw [ready.idle pending]
    simpa [saveDelta, pending, Disk.perform] using holds
  · obtain ⟨executed, flags⟩ := ready.pending cmd pending
    rw [saveDelta_of_not_due pending flags due, executed]
    exact holds.append cmd

end

structure Invariant (node : Node EM VB VS Cmd) (s : State EM VB VS Cmd) : Prop where
  holds : Holds node s.disk s.done
  ready : Ready node s.worker s.done

lemma ready_init (tables : Tables EM VB VS) : Ready node (.init tables) tables :=
  ⟨rfl, fun _ => rfl, fun _ pending => by cases pending⟩

lemma Ready.requested (ready : Ready node w tables) (idle : w.delta = none) :
    Ready node w.requested tables := by
  refine ⟨ready.before, ready.idle, fun cmd pending => ?_⟩
  cases idle.symm.trans pending

lemma invariant_start (tables : Tables EM VB VS) : Invariant node (start tables) :=
  ⟨holds_of_unnamed rfl, ready_init tables⟩

section

variable (inv : Invariant node s)
include inv

lemma Invariant.confirmStep (ready : Ready node w s.done)
    (saves : SnapshotSaves node snapshotInterval w) :
    Invariant node (confirmStep node snapshotInterval s w) :=
  ⟨ready.confirm inv.holds saves, rfl, fun _ => rfl, fun _ pending => by cases pending⟩

/-- What any crash leaves: images that are named are complete, and a safe crash gives the tables of
the confirmed commands, with or without the pending one. -/
lemma Invariant.crashed {a : Action Cmd}
    (after : crashed node snapshotInterval s a = some d) (saves : Saves node snapshotInterval s a) :
    NamesWhole d ∧ (Safe node snapshotInterval s a →
      ∃ tables, recover node d = some tables ∧
        (tables = s.done ∨ ∃ cmd, s.worker.delta = some cmd ∧ tables = node.exec cmd s.done)) := by
  cases a with
  | crash count =>
    cases after
    unfold Safe
    rcases pending : s.worker.delta with _ | cmd
    · exact ⟨inv.holds.namesWhole, fun named => ⟨_, inv.holds.recover named, .inl rfl⟩⟩
    obtain ⟨whole, recovered⟩ := inv.ready.crash inv.holds saves count
    refine ⟨whole, fun safe => ?_⟩
    rcases recovered safe with without | including
    · exact ⟨_, without, .inl rfl⟩
    · exact ⟨_, including, .inr ⟨cmd, rfl, (inv.ready.pending cmd pending).1⟩⟩
  | crashInSnapshot count =>
    simp only [BrmJournal.crashed] at after
    split_ifs at after with idle
    cases after
    have rests := isNone_iff_eq_none.mp idle
    obtain ⟨whole, recovered⟩ := (inv.ready.requested rests).crash inv.holds saves count
    refine ⟨whole, fun safe => ⟨s.done, ?_, .inl rfl⟩⟩
    have same : s.worker.requested.tables = s.done := inv.ready.idle rests
    exact (recovered safe).elim id fun including => same ▸ including
  | _ => cases after

lemma Invariant.restart {a : Action Cmd}
    (careful : Careful node snapshotInterval s a)
    (taken : (BrmJournal.crashed node snapshotInterval s a).bind (restart node) = some t) :
    Invariant node t := by
  obtain ⟨d, after, loaded⟩ := bind_eq_some_iff.mp taken
  obtain ⟨tables, recovered, rfl⟩ := map_eq_some_iff.mp loaded
  obtain ⟨whole, -⟩ := inv.crashed after careful.1
  refine ⟨fun name named => ?_, ready_init tables⟩
  obtain ⟨saved, image⟩ := whole name named
  refine ⟨saved, image, ?_⟩
  change d.current = some name at named
  simpa [BrmJournal.recover, named, image, loadState, BrmJournal.whole] using recovered

lemma Invariant.step {a : Action Cmd}
    (careful : Careful node snapshotInterval s a)
    (taken : step node snapshotInterval s a = some t) : Invariant node t := by
  cases a with
  | command cmd =>
    simp only [BrmJournal.step] at taken
    split_ifs at taken with idle
    cases taken
    have rests := inv.ready.idle (isNone_iff_eq_none.mp idle)
    refine ⟨inv.holds, rests, fun missing => by simp at missing,
      fun cmd' pending => ?_⟩
    cases pending
    exact ⟨congrArg _ rests, rfl⟩
  | undo =>
    cases taken
    exact ⟨inv.holds, inv.ready.before, fun _ => inv.ready.before,
      fun _ pending => by cases pending⟩
  | confirm =>
    simp only [BrmJournal.step] at taken
    split_ifs at taken
    cases taken
    exact inv.confirmStep inv.ready careful.1
  | takeSnapshot =>
    simp only [BrmJournal.step] at taken
    split_ifs at taken with idle
    cases taken
    exact inv.confirmStep (inv.ready.requested (isNone_iff_eq_none.mp idle)) careful.1
  | crash count | crashInSnapshot count => exact inv.restart careful taken

end

/-- In a run that never snapshots an empty extent map and whose crashes all come at safe points: at
whatever point the next crash comes, `_current` names no incomplete image, and if the point is safe
the tables of all confirmed commands come back, with or without the command in progress. -/
theorem recovers_confirmed_commands {tables : Tables EM VB VS}
    (reached : Runs.Reaches (step node snapshotInterval) (Careful node snapshotInterval)
      (start tables) s)
    {a : Action Cmd} (after : crashed node snapshotInterval s a = some d)
    (saves : Saves node snapshotInterval s a) :
    NamesWhole d ∧ (Safe node snapshotInterval s a →
      ∃ tables, recover node d = some tables ∧
        (tables = s.done ∨ ∃ cmd, s.worker.delta = some cmd ∧ tables = node.exec cmd s.done)) :=
  (reached.invariant (invariant_start tables) fun _ _ _ inv careful taken =>
    inv.step careful taken).crashed after saves

/-- Commands that mark the only extent invalid, as `MARKEXTENTINVALID` does. -/
def marking : Node (List CPEntry) Unit Unit Unit where
  exec _ t := { t with em := t.em.map (CPEntry.markInvalid RangeProtocol.bigintColumn) }
  emptyMap em := em.isEmpty
  snapshots _ := false

def oneExtent : Tables (List CPEntry) Unit Unit :=
  ⟨[⟨⟨0, 0⟩, 0, .invalid⟩], (), ()⟩

def seqNums (t : Tables (List CPEntry) Unit Unit) : List Nat :=
  t.em.map fun entry => entry.sequenceNum

/-- One command is confirmed, which takes a snapshot, and another one is pending. -/
def secondPending : State (List CPEntry) Unit Unit Unit :=
  (Runs.execute (step marking 1) (fun _ _ => True) (start oneExtent)
    [.command (), .confirm, .command ()]).getD (start oneExtent)

lemma secondPending_reached :
    Runs.Reaches (step marking 1) (Careful marking 1) (start oneExtent) secondPending := by
  have first : Careful marking 1 (start oneExtent) (.command ()) := ⟨trivial, trivial⟩
  have second {s} (here : step marking 1 (start oneExtent) (.command ()) = some s) :
      Careful marking 1 s .confirm := by
    cases here
    exact ⟨fun _ => rfl, trivial⟩
  exact .next (a := .command ()) (.next (.next .here first rfl) (second rfl) rfl)
    ⟨trivial, trivial⟩ rfl

/-- A crash right after the journal record of the second command was written. -/
theorem recovers_second_command :
    ∃ tables, recover marking (crashDisk marking 1 secondPending.disk secondPending.worker 1) =
      some tables ∧ (tables = secondPending.done ∨
        ∃ cmd, secondPending.worker.delta = some cmd ∧
          tables = marking.exec cmd secondPending.done) := by
  have result := recovers_confirmed_commands secondPending_reached (a := .crash 1) rfl
    (fun _ => rfl)
  refine result.2 ?_
  exact .inl ⟨Nat.le_refl 1, some_ne_none true⟩

/-- While the second snapshot is written `_current` is empty and nothing can be loaded; until the
journal is truncated, its record is replayed on an image that has the command already. -/
theorem crash_loses_or_repeats :
    Runs.Reaches (step marking 1) (Careful marking 1) (start oneExtent) secondPending ∧
      recover marking (crashDisk marking 1 secondPending.disk secondPending.worker 2) =
        none ∧
      seqNums secondPending.done = [1] ∧
      (recover marking
        (crashDisk marking 1 secondPending.disk secondPending.worker 9)).map seqNums =
        some [3] :=
  ⟨secondPending_reached, rfl, rfl, rfl⟩

end BrmJournal
