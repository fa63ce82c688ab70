import ColumnStore.CopyLockHolds

/-!
# Readers and the worker on the lock table

PrimProc's readers lock a range while they read it, and the worker locks ranges on behalf of a
transaction while their old images are copied. All use one table, each section under its write lock
being one step. A reader has an undo log of its own, which it empties before it gives up the lock.
The worker's log lives as long as its command: between two attempts it gives up the lock of the
table and keeps the records, among them images of the counter.

Beside the table the state says who holds what (`now`) and what would be held if the worker's
command were taken back (`back`). The code reads neither. A command that meets a block locked by
another transaction in the VSS is refused before it touches the table and is left out. Records name
an entry by its index, so what an undo writes after another process has moved the table to a larger
segment is not described.
-/

namespace CopyLockProtocol

open List Runs

open Vss (LBID Ver LBIDRange)
open CopyLock CopyLockHolds
open CopyLockUndo (Full)
open SlaveNode (lockPass heldRanges releaseRanges)
open CopyLockUndo (released)

/-- A call of `DBRM::lockLBIDRange` that has not returned. -/
structure Attempt where
  range : LBIDRange
  retries : Nat

/-- A call of `beginVBCopy` (`copies`) or `dmlLockLBIDRanges` that has not returned, with a flag for
each range it has locked. -/
structure Command where
  copies : Bool
  transID : Ver
  ranges : List (LBIDRange × Bool)
  retries : Nat

/-- Who holds what; `disturbed` when a reader changed the table while records of the worker were
pending. -/
structure Holds where
  now : List Hold
  back : List Hold
  disturbed : Bool

structure State where
  locks : CopyLocks
  calls : Nat → Option Attempt
  command : Option Command
  holds : Holds
  /-- A lock found no empty entry. -/
  failed : Bool

def initial : State :=
  ⟨CopyLock.initial, fun _ => none, none, ⟨[], [], false⟩, false⟩

inductive Action
  | lockLBIDRange (i : Nat) (range : LBIDRange)
  /-- A section of a reader's call: it waits on, or it locks. -/
  | attempt (i : Nat)
  | releaseLBIDRange (i : Nat) (range : LBIDRange)
  | beginVBCopy (transID : Ver) (ranges : List LBIDRange)
  | dmlLockLBIDRanges (ranges : List LBIDRange) (transID : Ver)
  /-- A section of the worker's command; `overflow` when the version buffer cannot take the
  blocks. -/
  | attemptAll (overflow : Bool)
  | endVBCopy (transID : Ver) (ranges : List LBIDRange)
  | dmlReleaseLBIDRanges (transID : Ver) (ranges : List LBIDRange)
  /-- Release the locks of a transaction; `fails` when the version tables refuse what follows. -/
  | vbRollback (transID : Ver) (fails : Bool)

/-- A wait of 50 ms between a reader's attempts, for 30 s. -/
def readerRetries : Nat := 600

def without (l : LBIDRange) (holds : List Hold) : List Hold :=
  holds.filter fun h => !intersects l h.entry

def letGo (party : Party) (holds : List Hold) (l : LBIDRange) : List Hold :=
  holds.filter fun h => !(decide (h.party = party) && intersects l h.entry)

def lose (transID : Ver) (holds : List Hold) : List Hold :=
  holds.filter fun h => !decide (h.party = .transaction transID)

/-- A change of the holds that is not the worker's. -/
def Holds.both (holds : Holds) (f : List Hold → List Hold) (pending : Bool) : Holds :=
  ⟨f holds.now, f holds.back, holds.disturbed || pending⟩

def Holds.confirm (holds : Holds) : Holds :=
  ⟨holds.now, holds.now, false⟩

def Holds.undo (holds : Holds) : Holds :=
  ⟨holds.back, holds.back, false⟩

/-- The worker locks a range; when the table grows the records are gone. -/
def Holds.lock (holds : Holds) (h : Hold) (full : Bool) : Holds :=
  if full then ⟨h :: holds.now, holds.now, false⟩ else { holds with now := h :: holds.now }

/-- The holds along a pass of `lockPass`. -/
def passHolds (transID : Ver) (force : Bool) :
    List (LBIDRange × Bool) → CopyLocks → Holds → Holds
  | [], _, holds => holds
  | (_, true) :: rest, c, holds => passHolds transID force rest c holds
  | (range, false) :: rest, c, holds =>
    if !force && isLocked c range then passHolds transID force rest c holds
    else
      let released := if force then forceRelease c range else c
      let left := if force then { holds with now := without range holds.now } else holds
      match lockRange released range transID with
      | none => left
      | some c' =>
        passHolds transID force rest c'
          (left.lock ⟨.transaction transID, range⟩ (decide (Full released)))

def State.undone (s : State) (c : CopyLocks) (holds : Holds) : State :=
  { s with locks := undoChanges c, command := none, holds := holds.undo }

def State.confirmed (s : State) (c : CopyLocks) (holds : Holds) : State :=
  { s with locks := confirmChanges c, command := none, holds := holds.confirm }

/-- What a reader's section leaves: its own log is emptied, the worker's is not touched. -/
def State.byReader (s : State) (c : CopyLocks) (f : List Hold → List Hold) : State :=
  { s with
    locks := { c with undo := s.locks.undo }
    holds := s.holds.both f (!s.locks.undo.isEmpty) }

def own (c : CopyLocks) : CopyLocks :=
  { c with undo := [] }

def attemptStep (s : State) (i : Nat) (call : Attempt) : State :=
  if isLocked s.locks call.range && call.retries < readerRetries then
    { s with calls := Function.update s.calls i (some { call with retries := call.retries + 1 }) }
  else
    let force := readerRetries ≤ call.retries
    let released := if force then forceRelease (own s.locks) call.range else own s.locks
    let left := fun holds => if force then without call.range holds else holds
    let ended := { s with calls := Function.update s.calls i none }
    match lockRange released call.range (-1) with
    | none => { ended.byReader released left with failed := true }
    | some c => ended.byReader c fun holds => ⟨.reader i, call.range⟩ :: left holds

def attemptAllStep (s : State) (cmd : Command) (overflow : Bool) : State :=
  let force := decide (SlaveNode.maxRetries ≤ cmd.retries)
  let p := lockPass cmd.transID force cmd.ranges s.locks
  let holds := passHolds cmd.transID force cmd.ranges s.locks s.holds
  if p.2.2 then { s.undone (releaseRanges (heldRanges p.2.1) p.1) holds with failed := true }
  else if !p.2.1.all (fun r => r.2) then
    { s with
      locks := p.1
      command := some { cmd with ranges := p.2.1, retries := cmd.retries + 1 }
      holds := holds }
  else if cmd.copies && overflow then s.undone (releaseRanges (heldRanges p.2.1) p.1) holds
  else s.confirmed p.1 holds

def begin (s : State) (copies : Bool) (transID : Ver) (ranges : List LBIDRange) : Option State :=
  if s.command.isNone && ranges.all (fun range => 0 < range.size) then
    some { s with command := some ⟨copies, transID, ranges.map fun range => (range, false), 0⟩ }
  else none

def release (s : State) (transID : Ver) (ranges : List LBIDRange) : Option State :=
  if s.command.isNone then
    some (s.confirmed (releaseRanges ranges s.locks)
      { s.holds with now := ranges.foldl (letGo (.transaction transID)) s.holds.now })
  else none

/-- Ranges are not empty, and the worker runs one command at a time. -/
def step (s : State) : Action → Option State
  | .lockLBIDRange i range =>
    if (s.calls i).isNone && 0 < range.size then
      some { s with calls := Function.update s.calls i (some ⟨range, 0⟩) }
    else none
  | .attempt i => (s.calls i).map (attemptStep s i)
  | .releaseLBIDRange i range =>
    some (s.byReader (releaseRange (own s.locks) range) fun holds => letGo (.reader i) holds range)
  | .beginVBCopy transID ranges => begin s true transID ranges
  | .dmlLockLBIDRanges ranges transID => begin s false transID ranges
  | .attemptAll overflow => s.command.map fun cmd => attemptAllStep s cmd overflow
  | .endVBCopy transID ranges => release s transID ranges
  | .dmlReleaseLBIDRanges transID ranges => release s transID ranges
  | .vbRollback transID fails =>
    if s.command.isNone then
      let c := rollback s.locks transID
      let holds := { s.holds with now := lose transID s.holds.now }
      some (if fails then s.undone c holds else s.confirmed c holds)
    else none

/-- Nobody but the party holds a block of the ranges. -/
def Owned (s : State) (party : Party) (ranges : List LBIDRange) : Prop :=
  ∀ range ∈ ranges, ∀ h ∈ s.holds.now, intersects range h.entry = true → h.party = party
  deriving Decidable

/-- Sizes fit a signed integer, a party releases no block that another holds, and a command is not
undone when a reader has changed the table meanwhile. -/
def Careful (s : State) : Action → Prop
  | .lockLBIDRange _ range => range.size < 2 ^ 31
  | .releaseLBIDRange i range => Owned s (.reader i) [range]
  | .beginVBCopy _ ranges | .dmlLockLBIDRanges ranges _ => ∀ range ∈ ranges, range.size < 2 ^ 31
  | .attemptAll overflow => overflow = true → s.holds.disturbed = false
  | .endVBCopy transID ranges | .dmlReleaseLBIDRanges transID ranges =>
    Owned s (.transaction transID) ranges
  | .attempt _ | .vbRollback _ _ => True

instance (s : State) (a : Action) : Decidable (Careful s a) :=
  match a with
  | .lockLBIDRange _ _ => Nat.decLt ..
  | .beginVBCopy _ ranges | .dmlLockLBIDRanges ranges _ => ranges.decidableBAll _
  | .attemptAll _ => inferInstanceAs (Decidable (_ → _))
  | .releaseLBIDRange .. | .endVBCopy .. | .dmlReleaseLBIDRanges .. =>
    inferInstanceAs (Decidable (Owned ..))
  | .attempt _ | .vbRollback _ _ => .isTrue trivial

variable {c c' : CopyLocks} {holds : Holds} {s t : State}

/-- The table agrees with what is held, and so does the table that undoing would give. -/
structure Tracks (c : CopyLocks) (holds : Holds) : Prop where
  agrees : Agrees c holds.now
  back : holds.disturbed = false → Agrees (undoChanges c) holds.back
  settled : c.undo = [] → holds.back = holds.now

lemma Tracks.confirm (agrees : Agrees c holds.now) : Tracks (confirmChanges c) holds.confirm :=
  have same := agrees.of_same (confirmChanges c) rfl rfl
  ⟨same, fun _ => same, fun _ => rfl⟩

lemma Tracks.undo (agrees : Agrees (undoChanges c) holds.back) :
    Tracks (undoChanges c) holds.undo :=
  ⟨agrees, fun _ => agrees.of_same _ rfl rfl, fun _ => rfl⟩

variable {now : List Hold}

lemma agrees_without {l : LBIDRange} (agrees : Agrees c now) :
    Agrees (forceRelease c l) (without l now) :=
  agrees.releaseWhere fun _ _ => rfl

lemma agrees_letGo {party : Party} {l : LBIDRange} (agrees : Agrees c now)
    (owned : ∀ h ∈ now, intersects l h.entry → h.party = party) :
    Agrees (releaseRange c l) (letGo party now l) := by
  refine agrees.releaseWhere fun h mem => ?_
  rcases hit : intersects l h.entry with _ | _
  · simp
  · simp [owned h mem hit]

variable {transID : Ver}

lemma agrees_lose (agrees : Agrees c now) : Agrees (rollback c transID) (lose transID now) := by
  refine agrees.releaseWhere fun h _ => ?_
  -- no reader is mistaken for the transaction: ids of transactions are not negative
  rcases h with ⟨_ | -, -⟩
  · simp [Hold.entry, Party.txnID]
  · simp only [Party.transaction.injEq]
    exact decide_eq_decide.mpr Int.natCast_inj

variable {ranges : List LBIDRange}

lemma agrees_letGo_all {party : Party} (agrees : Agrees c now)
    (owned : ∀ range ∈ ranges, ∀ h ∈ now, intersects range h.entry → h.party = party) :
    Agrees (releaseRanges ranges c) (ranges.foldl (letGo party) now) := by
  induction ranges generalizing c now with
  | nil => exact agrees
  | cons range ranges ih =>
    obtain ⟨first, others⟩ := forall_mem_cons.mp owned
    refine ih (agrees_letGo agrees first) fun range' mem h held => ?_
    exact others range' mem h (mem_of_mem_filter held)

/-- One lock of the worker, after the locks of others were released by force or not. -/
lemma Tracks.lock {range : LBIDRange} {force : Bool} (tracks : Tracks c holds)
    (sized : Sized range) (go : ¬ (!force && isLocked c range))
    (locked : lockRange (released force c range) range transID = some c') :
    Tracks c' ((if force then { holds with now := without range holds.now } else holds).lock
      ⟨.transaction transID, range⟩ (decide (Full (released force c range)))) := by
  have undo := (CopyLockUndo.undoChanges_lockRange locked)
  rw [CopyLockUndo.undoChanges_released] at undo
  obtain ⟨agrees, free, kept, back⟩ :
      let left := if force then { holds with now := without range holds.now } else holds
      Agrees (released force c range) left.now ∧
        isLocked (released force c range) range = false ∧
        left.disturbed = holds.disturbed ∧ left.back = holds.back := by
    cases force
    · have free : isLocked c range = false := by simpa using go
      exact ⟨tracks.agrees, free, rfl, rfl⟩
    · exact ⟨agrees_without tracks.agrees, isLocked_forceRelease c range, rfl, rfl⟩
  generalize (if force then { holds with now := without range holds.now } else holds) = left
    at agrees kept back ⊢
  have recorded : c'.undo ≠ [] := by
    unfold lockRange at locked
    dsimp only at locked
    split_ifs at locked
    cases locked
    simp
  have now := agrees.lockRange (.transaction transID) sized free locked
  by_cases full : Full (released force c range)
  · rw [if_pos full] at undo
    simp only [full]
    exact ⟨now, fun _ => undo ▸ agrees.growCL, fun settled => absurd settled recorded⟩
  rw [if_neg full] at undo
  simp only [full]
  refine ⟨now, fun calm => ?_, fun settled => absurd settled recorded⟩
  rw [undo]
  exact back ▸ tracks.back (kept ▸ calm)

lemma Tracks.lockPass (transID : Ver) (force : Bool) {ranges : List (LBIDRange × Bool)}
    (holds : Holds) (tracks : Tracks c holds) (sized : ∀ r ∈ ranges, Sized r.1) :
    Tracks (lockPass transID force ranges c).1 (passHolds transID force ranges c holds) := by
  fun_induction SlaveNode.lockPass transID force ranges c generalizing holds with
  | case1 c => exact tracks
  | case2 range rest c _ ih => exact ih holds tracks (forall_mem_cons.mp sized).2
  | case3 range rest c skip _ ih =>
    rw [passHolds, if_pos skip]
    exact ih holds tracks (forall_mem_cons.mp sized).2
  | case4 range rest c _ _ refused =>
    have regular := tracks.agrees.regular.released force range
    exact absurd refused (regular.lockRange_ne_none range transID)
  | case5 range rest c go _ c' locked _ ih =>
    obtain ⟨first, others⟩ := forall_mem_cons.mp sized
    have next := ih _ (tracks.lock first go locked) others
    change lockRange (released force c range) range transID = some c' at locked
    rw [passHolds, if_neg go]
    change Tracks _ (match lockRange (released force c range) range transID with
      | none => _
      | some c' => _)
    rw [locked]
    exact next

lemma lockPass_ranges (transID : Ver) (force : Bool) (ranges : List (LBIDRange × Bool))
    (c : CopyLocks) : (lockPass transID force ranges c).2.1.map Prod.fst = ranges.map Prod.fst := by
  fun_induction SlaveNode.lockPass transID force ranges c with
  | case1 c => rfl
  | case2 range rest c _ ih | case3 range rest c _ _ ih => simpa using ih
  | case4 range rest c => rfl
  | case5 range rest c _ _ c' _ _ ih => simpa using ih

structure Invariant (s : State) : Prop where
  tracks : Tracks s.locks s.holds
  idle : s.command = none → s.locks.undo = []
  calls : ∀ i call, s.calls i = some call → Sized call.range
  ranges : ∀ cmd, s.command = some cmd → ∀ r ∈ cmd.ranges, Sized r.1
  works : s.failed = false

lemma invariant_initial : Invariant initial :=
  have agrees := agrees_initial
  { tracks := ⟨agrees, fun _ => agrees, fun _ => rfl⟩
    idle := fun _ => rfl
    calls := by simp [initial]
    ranges := by simp [initial]
    works := rfl }

lemma Tracks.own (tracks : Tracks c holds) : Agrees (own c) holds.now :=
  tracks.agrees.of_same _ rfl rfl

lemma disturbed_passHolds (transID : Ver) (force : Bool) (ranges : List (LBIDRange × Bool))
    (c : CopyLocks) (holds : Holds) (calm : holds.disturbed = false) :
    (passHolds transID force ranges c holds).disturbed = false := by
  fun_induction passHolds transID force ranges c holds with
  | case1 c holds => exact calm
  | case2 range rest c holds ih | case3 range rest c holds _ ih => exact ih calm
  | case4 range rest c holds => cases force <;> exact calm
  | case5 range rest c holds _ _ _ c' _ ih =>
    refine ih ?_
    unfold Holds.lock
    cases force <;> split_ifs <;> first | rfl | exact calm

section

variable (inv : Invariant s)
include inv

/-- A reader's section: the worker's pending records are stale afterwards. -/
lemma Invariant.byReader {f : List Hold → List Hold} (agrees : Agrees c (f s.holds.now)) :
    Invariant (s.byReader c f) := by
  have same := agrees.of_same { c with undo := s.locks.undo } rfl rfl
  refine ⟨⟨same, fun calm => ?_, fun settled => ?_⟩, inv.idle, inv.calls, inv.ranges, inv.works⟩
  · have settled : s.locks.undo = [] := by
      have := (Bool.or_eq_false_iff.mp calm).2
      simpa using this
    change Agrees (undoChanges { c with undo := s.locks.undo }) (f s.holds.back)
    rw [inv.tracks.settled settled, CopyLockUndo.undoChanges_of_settled (by exact settled)]
    exact same
  · exact congrArg f (inv.tracks.settled settled)

lemma Invariant.endCall (i : Nat) :
    Invariant { s with calls := Function.update s.calls i none } := by
  refine ⟨inv.tracks, inv.idle, fun j call here => ?_, inv.ranges, inv.works⟩
  rcases eq_or_ne j i with rfl | other
  · simp at here
  · exact inv.calls j call (by simpa [other] using here)

lemma Invariant.setCall (i : Nat) {call : Attempt} (sized : Sized call.range) :
    Invariant { s with calls := Function.update s.calls i (some call) } := by
  refine ⟨inv.tracks, inv.idle, fun j call' here => ?_, inv.ranges, inv.works⟩
  rcases eq_or_ne j i with rfl | other
  · cases (Function.update_self ..).symm.trans here
    exact sized
  · exact inv.calls j call' (by simpa [other] using here)

lemma Invariant.attemptStep {i : Nat} {call : Attempt} (sized : Sized call.range) :
    Invariant (attemptStep s i call) := by
  unfold CopyLockProtocol.attemptStep
  split_ifs with waits
  · exact inv.setCall i sized
  by_cases force : readerRetries ≤ call.retries <;> simp only [force]
  · have agrees := agrees_without (l := call.range) inv.tracks.own
    split
    · exact absurd ‹_› (agrees.regular.lockRange_ne_none _ _)
    · rename_i c locked
      exact (inv.endCall i).byReader
        (agrees.lockRange (.reader i) sized (isLocked_forceRelease _ _) locked)
  have free : isLocked s.locks call.range = false := by
    simpa [Nat.lt_of_not_le force] using waits
  split
  · exact absurd ‹_› (inv.tracks.own.regular.lockRange_ne_none _ _)
  · rename_i c locked
    exact (inv.endCall i).byReader
      (inv.tracks.own.lockRange (.reader i) sized free locked)

lemma Invariant.confirmed (agrees : Agrees c holds.now) : Invariant (s.confirmed c holds) :=
  ⟨.confirm agrees, fun _ => rfl, inv.calls, by simp [State.confirmed], inv.works⟩

lemma Invariant.undone (agrees : Agrees (undoChanges c) holds.back) :
    Invariant (s.undone c holds) :=
  ⟨.undo agrees, fun _ => rfl, inv.calls, by simp [State.undone], inv.works⟩

lemma Invariant.attemptAllStep {cmd : Command} {overflow : Bool}
    (pending : s.command = some cmd) (careful : overflow → s.holds.disturbed = false) :
    Invariant (attemptAllStep s cmd overflow) := by
  have sized := inv.ranges cmd pending
  unfold CopyLockProtocol.attemptAllStep
  generalize decide (SlaveNode.maxRetries ≤ cmd.retries) = force
  have tracks := inv.tracks.lockPass cmd.transID force s.holds sized
  have works := (inv.tracks.agrees.regular.lockPass cmd.transID force cmd.ranges).2
  dsimp only
  rw [if_neg (by simp [works])]
  split_ifs with waits overflows
  · refine ⟨tracks, by simp, inv.calls, fun cmd' here r mem => ?_, inv.works⟩
    cases here
    have mem' : r.1 ∈ cmd.ranges.map Prod.fst := by
      rw [← lockPass_ranges cmd.transID force cmd.ranges s.locks]
      exact mem_map_of_mem mem
    obtain ⟨r', before, same⟩ := mem_map.mp mem'
    exact same ▸ sized r' before
  · have calm := disturbed_passHolds cmd.transID force cmd.ranges s.locks s.holds
      (careful (Bool.and_eq_true_iff.mp overflows).2)
    refine inv.undone ?_
    rw [CopyLockUndo.undoChanges_releaseRanges]
    exact tracks.back calm
  · exact inv.confirmed tracks.agrees

lemma Invariant.begin {copies : Bool} (small : ∀ range ∈ ranges, range.size < 2 ^ 31)
    (taken : begin s copies transID ranges = some t) : Invariant t := by
  unfold CopyLockProtocol.begin at taken
  split_ifs at taken with enabled
  cases taken
  simp only [Bool.and_eq_true, all_eq_true, decide_eq_true_eq] at enabled
  refine ⟨inv.tracks, by simp, inv.calls, fun cmd here r mem => ?_, inv.works⟩
  cases here
  obtain ⟨range, listed, rfl⟩ := mem_map.mp mem
  exact ⟨enabled.2 range listed, small range listed⟩

lemma Invariant.release (owned : Owned s (.transaction transID) ranges)
    (taken : release s transID ranges = some t) : Invariant t := by
  unfold CopyLockProtocol.release at taken
  split_ifs at taken
  cases taken
  exact inv.confirmed (agrees_letGo_all inv.tracks.agrees owned)

lemma Invariant.step {a : Action} (careful : Careful s a) (taken : step s a = some t) :
    Invariant t := by
  cases a with
  | lockLBIDRange i range =>
    simp only [CopyLockProtocol.step] at taken
    split_ifs at taken with enabled
    cases taken
    simp only [Bool.and_eq_true, decide_eq_true_eq] at enabled
    exact inv.setCall i ⟨enabled.2, careful⟩
  | attempt i =>
    obtain ⟨call, here, rfl⟩ := Option.map_eq_some_iff.mp taken
    exact inv.attemptStep (inv.calls i call here)
  | releaseLBIDRange i range =>
    cases taken
    exact inv.byReader (agrees_letGo inv.tracks.own (careful range (mem_singleton_self _)))
  | beginVBCopy transID ranges | dmlLockLBIDRanges ranges transID => exact inv.begin careful taken
  | attemptAll overflow =>
    obtain ⟨cmd, pending, rfl⟩ := Option.map_eq_some_iff.mp taken
    exact inv.attemptAllStep pending careful
  | endVBCopy transID ranges
  | dmlReleaseLBIDRanges transID ranges => exact inv.release careful taken
  | vbRollback transID fails =>
    simp only [CopyLockProtocol.step] at taken
    split_ifs at taken with enabled
    · cases taken
      have settled := inv.idle (Option.isNone_iff_eq_none.mp enabled)
      refine inv.undone ?_
      rw [rollback, CopyLockUndo.undoChanges_releaseWhere,
        CopyLockUndo.undoChanges_of_settled settled]
      exact (inv.tracks.settled settled).symm ▸ inv.tracks.agrees
    · cases taken
      exact inv.confirmed (agrees_lose inv.tracks.agrees)

end

/-- As long as sizes fit, nobody releases what another holds and no command is undone after a reader
changed the table meanwhile: the counter is the number of entries in use, these are the ranges held,
no block is held by two parties, and no lock fails for want of an entry. -/
theorem locks_accounted_and_exclusive (reached : Runs.Reaches step Careful initial s) :
    s.locks.currentSize = (used s.locks).length ∧
      (used s.locks).Perm (s.holds.now.map Hold.entry) ∧
      (∀ a ∈ s.holds.now, ∀ b ∈ s.holds.now, a.party ≠ b.party → Apart a.range b.range) ∧
      s.failed = false := by
  have inv := reached.invariant invariant_initial fun s a t inv careful taken =>
    inv.step careful taken
  exact ⟨inv.tracks.agrees.counted, inv.tracks.agrees.entries, inv.tracks.agrees.apart, inv.works⟩

/-- Two readers and the worker: the command waits for one reader, the other comes and goes. -/
def sharedRun : List Action :=
  [.lockLBIDRange 0 ⟨0, 1⟩, .attempt 0, .beginVBCopy 1 [⟨10, 1⟩, ⟨0, 1⟩], .attemptAll false,
    .lockLBIDRange 1 ⟨20, 1⟩, .attempt 1, .releaseLBIDRange 0 ⟨0, 1⟩, .attemptAll false]

theorem locks_accounted_sharedRun :
    ∃ s, Runs.execute step Careful initial sharedRun = some s ∧ s.locks.currentSize = 3 ∧
      s.locks.currentSize = (used s.locks).length := by
  have runs : (execute step Careful initial sharedRun).isSome := by decide +kernel
  obtain ⟨s, done⟩ := Option.isSome_iff_exists.mp runs
  have three : (execute step Careful initial sharedRun).map (fun s => s.locks.currentSize) =
      some 3 := by decide +kernel
  rw [done] at three
  refine ⟨s, done, by simpa using three, ?_⟩
  exact (locks_accounted_and_exclusive (reaches_of_execute done)).1

/-- The command is undone after two other readers have come: its image of the counter is older than
their locks. -/
def staleUndo : List Action :=
  [.lockLBIDRange 0 ⟨0, 1⟩, .attempt 0, .beginVBCopy 1 [⟨10, 1⟩, ⟨0, 1⟩], .attemptAll false,
    .lockLBIDRange 1 ⟨20, 1⟩, .attempt 1, .lockLBIDRange 2 ⟨30, 1⟩, .attempt 2,
    .releaseLBIDRange 0 ⟨0, 1⟩, .attemptAll true]

theorem stale_undo_miscounts :
    ∃ s, Runs.Reaches step (fun _ _ => True) initial s ∧ s.locks.currentSize = 1 ∧
      (used s.locks).length = 2 := by
  have runs : (execute step (fun _ _ => True) initial staleUndo).isSome := by decide +kernel
  obtain ⟨s, done⟩ := Option.isSome_iff_exists.mp runs
  have counts : (execute step (fun _ _ => True) initial staleUndo).map
      (fun s => (s.locks.currentSize, (used s.locks).length)) = some (1, 2) := by decide +kernel
  rw [done, Option.map_some, Option.some_inj, Prod.mk.injEq] at counts
  exact ⟨s, reaches_of_execute done, counts.1, counts.2⟩

end CopyLockProtocol
