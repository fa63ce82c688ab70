import ColumnStore.ExtentRange
import ColumnStore.Runs

/-!
# The value range of an extent under concurrent changes

One extent, its entry in the extent map, transactions that change its blocks and
queries that rescan it. A transaction holds the table lock from before its first
`markInvalid` until after `invalidateUncommittedExtentLBIDs`, so at most one is
active on the extent. A query remembers the sequence number it read and offers
the collected range at its end.

`bumps` and `openedAt` only count the changes of the sequence number; nothing in
a step depends on them.
-/

namespace RangeProtocol

open ColumnTypes CasualPartition ExtentRange

/-- `CP_INVALID`, `CP_UPDATING`, `CP_VALID`. -/
inductive CPState where
  | invalid | updating | valid
  deriving DecidableEq, Repr

def emMaxSeqnum : Nat := 2000000000

def incSeqNum (seqNum : Nat) : Nat :=
  if emMaxSeqnum < seqNum + 1 then 0 else seqNum + 1

/-- `EMCasualPartition_struct`. -/
structure CPEntry where
  range : CPRange
  sequenceNum : Nat
  isValid : CPState

/-- One element of the map given to `setExtentsMaxMin`. -/
structure CPMaxMin where
  range : CPRange
  seqNum : Int

/-- The range with which an extent is marked; it contains nothing. -/
def emptyRange (ct : ColType) : CPRange :=
  if ct.colDataType.isUnsigned then
    if ct.colWidth ≠ 16 then ⟨(BitVec.allOnes 64).setWidth 128, 0⟩ else ⟨BitVec.allOnes 128, 0⟩
  else if ct.colWidth ≠ 16 then ⟨(BitVec.intMax 64).setWidth 128, (BitVec.intMin 64).setWidth 128⟩
  else ⟨BitVec.intMax 128, BitVec.intMin 128⟩

/-- `ExtentMap::_markInvalid` on the entry of the extent. -/
def CPEntry.markInvalid (ct : ColType) (entry : CPEntry) : CPEntry :=
  ⟨emptyRange ct, incSeqNum entry.sequenceNum, .updating⟩

/-- `ExtentMap::setExtentsMaxMin` on the entry of the extent. -/
def CPEntry.setMaxMin (entry : CPEntry) (info : CPMaxMin) : CPEntry :=
  if (entry.sequenceNum : Int) = info.seqNum ∧ entry.isValid = .invalid then
    ⟨info.range, incSeqNum entry.sequenceNum, .valid⟩
  else if info.seqNum = -1 then
    ⟨entry.range, incSeqNum entry.sequenceNum, .invalid⟩
  else if info.seqNum = -2 then
    ⟨info.range, incSeqNum entry.sequenceNum, .invalid⟩
  else if info.seqNum = -3 then
    if entry.isValid = .updating then ⟨info.range, incSeqNum entry.sequenceNum, .invalid⟩
    else { entry with sequenceNum := incSeqNum entry.sequenceNum }
  else entry

/-- `MinMaxPartition`, with the blocks scanned so far. -/
structure MinMaxPartition where
  seq : Nat
  isValid : CPState
  blksScanned : Nat
  range : CPRange
  scanned : List Nat
  openedAt : Nat

/-- The range `GetMinMax` starts to collect from. -/
def startRange (ct : ColType) : CPRange :=
  if ct.colDataType.isUnsigned then ⟨(BitVec.allOnes 64).setWidth 128, 0⟩
  else if ct.colWidth ≠ 16 then ⟨(BitVec.intMax 64).setWidth 128, (BitVec.intMin 64).setWidth 128⟩
  else ⟨BitVec.intMax 128, BitVec.intMin 128⟩

/-- `isMinMaxValid` for a scan of whole blocks. -/
def isMinMaxValid (ct : ColType) : Bool :=
  match ct.colDataType with
  | .char => decide (ct.colWidth < 9)
  | .varchar | .blob | .text => decide (ct.colWidth < 8)
  | .tinyint | .smallint | .medint | .int | .date | .bigint | .datetime | .time | .timestamp
  | .utinyint | .usmallint | .umedint | .uint | .ubigint => true
  | .decimal | .udecimal => decide (ct.colWidth ≤ 16)
  | _ => false

def MinMaxPartition.updateMinMax (cs : Charset) (ct : ColType) (mmp : MinMaxPartition) (block : Nat)
    (bounds : CPRange) (validData : Bool) : MinMaxPartition :=
  let counted := { mmp with blksScanned := mmp.blksScanned + 1, scanned := block :: mmp.scanned }
  if validData = false then { counted with isValid := .updating }
  else if mmp.isValid = .invalid then
    { counted with range := mergeBounds cs ct mmp.range bounds }
  else counted

/-- Where the blocks of one scan message came from: a version in the version buffer or the
main file, and for a table with an auxiliary column the same for its block. -/
structure BlockLoad where
  version : Option Nat
  hasAuxCol : Bool
  auxVersioned : Bool
  deriving DecidableEq

/-- The flag left by `_loadData`: `loadBlocks` clears it first, so the load of the auxiliary
block replaces what the load of the column block reported. -/
def BlockLoad.wasVersioned (load : BlockLoad) : Bool :=
  if load.hasAuxCol then load.auxVersioned else load.version.isSome

/-- How far the holder of the table lock has come on this extent. -/
inductive Phase where
  | locked | marked | ended
  deriving DecidableEq, Repr

/-- The extent, the table lock and the running queries. -/
structure State (ct : ColType) where
  entry : CPEntry
  main : Nat → List (Value ct)
  committed : Nat → List (Value ct)
  versions : Nat → List (List (Value ct))
  tableLock : Option (Nat × Phase)
  queries : Nat → Option MinMaxPartition
  bumps : Nat

inductive Action (ct : ColType) where
  | getTableLock (txn : Nat)
  | markInvalid (txn : Nat)
  | writeBlock (txn block : Nat) (values : List (Value ct))
  | commit (txn : Nat)
  | rollback (txn : Nat)
  | invalidateUncommitted (txn : Nat) (allExtents : Bool)
  | releaseTableLock (txn : Nat)
  | openQuery (query : Nat)
  | scanBlock (query block : Nat) (load : BlockLoad)
  | closeQuery (query : Nat)

section System

variable {ct : ColType} (cs : Charset) (blocks : Nat)

/-- Store a new entry and count a change of the sequence number. -/
def State.setEntry (s : State ct) (entry : CPEntry) : State ct :=
  { s with
    entry := entry
    bumps := if entry.sequenceNum = s.entry.sequenceNum then s.bumps else s.bumps + 1 }

def State.setQuery (s : State ct) (query : Nat) (mmp : Option MinMaxPartition) : State ct :=
  { s with queries := Function.update s.queries query mmp }

/-- What a load returns. -/
def State.readBlock (s : State ct) (block : Nat) (load : BlockLoad) : Option (List (Value ct)) :=
  match load.version with
  | none => some (s.main block)
  | some i => (s.versions block)[i]?

/-- One step of a transaction or a query. -/
def step (s : State ct) : Action ct → Option (State ct)
  | .getTableLock txn =>
    if s.tableLock = none then some { s with tableLock := some (txn, .locked) } else none
  | .markInvalid txn =>
    if s.tableLock = some (txn, .locked) ∨ s.tableLock = some (txn, .marked) then
      some { s.setEntry (s.entry.markInvalid ct) with tableLock := some (txn, .marked) }
    else none
  | .writeBlock txn block values =>
    if s.tableLock = some (txn, .marked) then
      some { s with
        main := Function.update s.main block values
        versions := Function.update s.versions block (s.main block :: s.versions block) }
    else none
  | .commit txn =>
    if s.tableLock = some (txn, .marked) then
      some { s with committed := s.main, tableLock := some (txn, .ended) }
    else none
  | .rollback txn =>
    if s.tableLock = some (txn, .marked) then
      some { s with main := s.committed, tableLock := some (txn, .ended) }
    else none
  | .invalidateUncommitted txn allExtents =>
    if s.tableLock = some (txn, .ended) then
      some { s.setEntry (s.entry.setMaxMin ⟨emptyRange ct, if allExtents then -2 else -3⟩) with
        tableLock := some (txn, .locked) }
    else none
  | .releaseTableLock txn =>
    if s.tableLock = some (txn, .locked) then some { s with tableLock := none } else none
  | .openQuery query =>
    if s.queries query = none then
      if s.entry.isValid = .valid then some s
      else some (s.setQuery query
        (some ⟨s.entry.sequenceNum, s.entry.isValid, 0, startRange ct, [], s.bumps⟩))
    else none
  | .scanBlock query block load =>
    match s.queries query, s.readBlock block load with
    | some mmp, some values =>
      some (s.setQuery query (some (mmp.updateMinMax cs ct block (blockBounds cs values)
        (isMinMaxValid ct && !load.wasVersioned))))
    | _, _ => none
  | .closeQuery query =>
    match s.queries query with
    | some mmp =>
      if ∀ block < blocks, block ∈ mmp.scanned then
        if mmp.isValid = .invalid ∧ 0 < mmp.blksScanned then
          some ((s.setEntry (s.entry.setMaxMin ⟨mmp.range, mmp.seq⟩)).setQuery query none)
        else some (s.setQuery query none)
      else none
    | none => none

/-- A new extent with the given content. -/
def start (content : Nat → List (Value ct)) : State ct where
  entry := ⟨emptyRange ct, 0, .invalid⟩
  main := content
  committed := content
  versions := fun _ => []
  tableLock := none
  queries := fun _ => none
  bumps := 0

/-- A valid range contains every current value of the extent. -/
def RangeCorrect (s : State ct) : Prop :=
  s.entry.isValid = .valid → ∀ block < blocks,
    Covers cs s.entry.range (s.main block) ∧ Covers cs s.entry.range (s.committed block)

/-- Fewer than `EM_MAX_SEQNUM` changes of the sequence number between read and set. -/
def FewBumps (s : State ct) : Action ct → Prop
  | .closeQuery query =>
    match s.queries query with
    | some mmp => s.bumps < mmp.openedAt + emMaxSeqnum
    | none => True
  | _ => True

instance (s : State ct) (a : Action ct) : Decidable (FewBumps s a) := by
  unfold FewBumps
  split
  · split <;> infer_instance
  · infer_instance

/-- A scan step reports a versioned block, and merging its bounds forgets no bound already
collected from other blocks. -/
def CarefulScan (s : State ct) : Action ct → Prop
  | .scanBlock query block load =>
    (load.version.isSome = true → load.wasVersioned = true) ∧
      match s.queries query, s.readBlock block load with
      | some mmp, some values =>
        0 < mmp.blksScanned → ¬ForgetsBound cs ct mmp.range (blockBounds cs values)
      | _, _ => True
  | _ => True

instance (s : State ct) (a : Action ct) : Decidable (CarefulScan cs s a) := by
  unfold CarefulScan
  split
  · refine @instDecidableAnd _ _ inferInstance ?_
    split <;> infer_instance
  · infer_instance

/-- What relates the entry, the lock and the running queries in every state. -/
structure Inv (s : State ct) : Prop where
  sequence : s.entry.sequenceNum = s.bumps % (emMaxSeqnum + 1)
  pending : ∀ txn phase, s.tableLock = some (txn, phase) → phase ≠ .locked →
    s.entry.isValid = .updating
  settled : (∀ txn, s.tableLock ≠ some (txn, .marked)) → s.main = s.committed
  covered : s.entry.isValid = .valid → ∀ block < blocks, Covers cs s.entry.range (s.main block)
  opened : ∀ query mmp, s.queries query = some mmp →
    mmp.openedAt ≤ s.bumps ∧ mmp.seq = mmp.openedAt % (emMaxSeqnum + 1) ∧
      (mmp.blksScanned = 0 → mmp.scanned = [])
  current : ∀ query mmp, s.queries query = some mmp → mmp.isValid = .invalid →
    mmp.openedAt = s.bumps →
      s.entry.isValid = .invalid ∧ ∀ block ∈ mmp.scanned, Covers cs mmp.range (s.main block)

lemma incSeqNum_mod (bumps : Nat) :
    incSeqNum (bumps % (emMaxSeqnum + 1)) = (bumps + 1) % (emMaxSeqnum + 1) := by
  unfold incSeqNum emMaxSeqnum
  split <;> omega

lemma incSeqNum_ne (seqNum : Nat) : incSeqNum seqNum ≠ seqNum := by
  unfold incSeqNum emMaxSeqnum
  split <;> omega

variable {cs blocks}

variable {s : State ct}

/-- A new sequence number leaves no query with a current one. -/
lemma Inv.bump (inv : Inv cs blocks s) {entry : CPEntry} (lock : Option (Nat × Phase))
    (next : entry.sequenceNum = incSeqNum s.entry.sequenceNum)
    (pending : ∀ txn phase, lock = some (txn, phase) → phase ≠ .locked → entry.isValid = .updating)
    (settled : (∀ txn, lock ≠ some (txn, .marked)) → s.main = s.committed)
    (covered : entry.isValid = .valid → ∀ block < blocks, Covers cs entry.range (s.main block)) :
    Inv cs blocks { s.setEntry entry with tableLock := lock } := by
  have counted : (s.setEntry entry).bumps = s.bumps + 1 := by
    have moved : entry.sequenceNum ≠ s.entry.sequenceNum := next ▸ incSeqNum_ne _
    simp [State.setEntry, moved]
  constructor
  case sequence =>
    change entry.sequenceNum = (s.setEntry entry).bumps % (emMaxSeqnum + 1)
    rw [counted, next, inv.sequence, incSeqNum_mod]
  case pending => exact pending
  case settled => exact settled
  case covered => exact covered
  case opened =>
    intro query mmp found
    obtain ⟨before, rest⟩ := inv.opened query mmp found
    refine ⟨?_, rest⟩
    change mmp.openedAt ≤ (s.setEntry entry).bumps
    omega
  case current =>
    intro query mmp found _ now
    obtain ⟨before, -⟩ := inv.opened query mmp found
    have same : mmp.openedAt = (s.setEntry entry).bumps := now
    omega

lemma start_inv (content : Nat → List (Value ct)) : Inv cs blocks (start content) := by
  constructor <;> simp [start]

variable {t : State ct} {txn : Nat}

section

variable (inv : Inv cs blocks s)
include inv

lemma Inv.markInvalid
    (taken : step cs blocks s (.markInvalid txn) = some t) : Inv cs blocks t := by
  simp only [step] at taken
  split at taken
  case isTrue held =>
    cases taken
    refine inv.bump _ rfl ?_ ?_ ?_
    · intro _ _ _ _
      rfl
    · intro unmarked
      exact absurd rfl (unmarked txn)
    · intro valid
      cases valid
  case isFalse => cases taken

/-- While the entry is being updated, no range is taken from it or put into it. -/
lemma Inv.rewrite (held : s.tableLock = some (txn, .marked))
    {main committed : Nat → List (Value ct)}
    {versions : Nat → List (List (Value ct))} {lock : Option (Nat × Phase)}
    (settled : (∀ txn, lock ≠ some (txn, .marked)) → main = committed) :
    Inv cs blocks { s with main, committed, versions, tableLock := lock } := by
  have updating := inv.pending txn .marked held (by simp)
  constructor
  case sequence => exact inv.sequence
  case pending => exact fun _ _ _ _ => updating
  case settled => exact settled
  case covered => exact fun valid => absurd (updating.symm.trans valid) (by simp)
  case opened => exact inv.opened
  case current =>
    intro query mmp found unvetoed now
    have stillInvalid := (inv.current query mmp found unvetoed now).1
    exact absurd (updating.symm.trans stillInvalid) (by simp)

lemma Inv.writeBlock {block : Nat} {values : List (Value ct)}
    (taken : step cs blocks s (.writeBlock txn block values) = some t) : Inv cs blocks t := by
  simp only [step] at taken
  split at taken
  case isTrue held =>
    cases taken
    exact inv.rewrite held fun unmarked => absurd held (unmarked txn)
  case isFalse => cases taken

lemma Inv.invalidateUncommitted {allExtents : Bool}
    (taken : step cs blocks s (.invalidateUncommitted txn allExtents) = some t) :
    Inv cs blocks t := by
  simp only [step] at taken
  split at taken
  case isTrue held =>
    cases taken
    have updating := inv.pending txn .ended held (by simp)
    have cleared : s.entry.setMaxMin ⟨emptyRange ct, if allExtents then -2 else -3⟩ =
        ⟨emptyRange ct, incSeqNum s.entry.sequenceNum, .invalid⟩ := by
      cases allExtents <;> simp [CPEntry.setMaxMin, updating]
    rw [cleared]
    refine inv.bump _ rfl ?_ ?_ ?_
    · intro _ _ same notLocked
      cases same
      exact absurd rfl notLocked
    · intro _
      refine inv.settled ?_
      intro other marked
      rw [held] at marked
      cases marked
    · intro valid
      cases valid
  case isFalse => cases taken

end

variable {query : Nat}

section

variable (inv : Inv cs blocks s)
include inv

lemma Inv.setQuery {mmp : Option MinMaxPartition}
    (opened : ∀ new, mmp = some new → new.openedAt ≤ s.bumps ∧
      new.seq = new.openedAt % (emMaxSeqnum + 1) ∧ (new.blksScanned = 0 → new.scanned = []))
    (current : ∀ new, mmp = some new → new.isValid = .invalid → new.openedAt = s.bumps →
      s.entry.isValid = .invalid ∧ ∀ block ∈ new.scanned, Covers cs new.range (s.main block)) :
    Inv cs blocks (s.setQuery query mmp) := by
  constructor
  case sequence => exact inv.sequence
  case pending => exact inv.pending
  case settled => exact inv.settled
  case covered => exact inv.covered
  case opened =>
    intro other new found
    by_cases same : other = query
    · subst same
      exact opened new (by simpa [State.setQuery] using found)
    · exact inv.opened other new (by simpa [State.setQuery, same] using found)
  case current =>
    intro other new found
    by_cases same : other = query
    · subst same
      exact current new (by simpa [State.setQuery] using found)
    · exact inv.current other new (by simpa [State.setQuery, same] using found)

lemma Inv.openQuery (taken : step cs blocks s (.openQuery query) = some t) : Inv cs blocks t := by
  simp only [step] at taken
  split at taken
  case isTrue =>
    split at taken
    case isTrue =>
      cases taken
      exact inv
    case isFalse =>
      cases taken
      refine inv.setQuery ?_ ?_
      · rintro _ ⟨⟩
        exact ⟨le_rfl, inv.sequence, fun _ => rfl⟩
      · rintro _ ⟨⟩ unvetoed _
        exact ⟨unvetoed, by simp⟩
  case isFalse => cases taken

/-- A block that was not vetoed came from the main file and is covered by the merged range. -/
lemma Inv.scanBlock {block : Nat} {load : BlockLoad} (careful : CarefulScan cs s (.scanBlock
    query block load))
    (taken : step cs blocks s (.scanBlock query block load) = some t) : Inv cs blocks t := by
  simp only [step] at taken
  split at taken
  case h_2 => cases taken
  case h_1 mmp values found loaded =>
    cases taken
    obtain ⟨before, remembered, -⟩ := inv.opened query mmp found
    refine inv.setQuery ?_ ?_
    · rintro _ ⟨⟩
      refine ⟨?_, ?_, ?_⟩ <;> unfold MinMaxPartition.updateMinMax <;> dsimp only <;> split
      · exact before
      · split <;> exact before
      · exact remembered
      · split <;> exact remembered
      · intro h
        cases h
      · split <;> intro h <;> cases h
    rintro _ ⟨⟩ unvetoed now
    unfold MinMaxPartition.updateMinMax at unvetoed now ⊢
    split at unvetoed
    · cases unvetoed
    case isFalse validData =>
      rw [if_neg validData] at now ⊢
      have wasInvalid : mmp.isValid = .invalid := by
        split at unvetoed
        · assumption
        · exact unvetoed
      rw [if_pos wasInvalid] at now ⊢
      obtain ⟨stillInvalid, covers⟩ := inv.current query mmp found wasInvalid now
      have fromMain : values = s.main block := by
        have unversioned : load.wasVersioned = false := by
          cases versioned : load.wasVersioned
          · rfl
          · simp [versioned] at validData
        cases version : load.version with
        | none => simpa [State.readBlock, version] using loaded.symm
        | some i => simp [careful.1 (by simp [version])] at unversioned
      subst fromMain
      refine ⟨stillInvalid, ?_⟩
      intro other member
      rcases List.mem_cons.mp member with rfl | earlier
      · intro v mem present
        exact (within_mergeBounds_block cs mmp.range _).inRange
          ((covers_foldl_includeValue cs _ _).2 v mem present)
      have scannedSome : 0 < mmp.blksScanned := by
        rcases Nat.eq_zero_or_pos mmp.blksScanned with unscanned | scanned
        · rw [(inv.opened query mmp found).2.2 unscanned] at earlier
          simp at earlier
        · exact scanned
      have remembers : ¬ForgetsBound cs ct mmp.range (blockBounds cs (s.main block)) := by
        have remembered := careful.2
        simp only [found, loaded] at remembered
        exact remembered scannedSome
      intro v mem present
      exact (within_mergeBounds_mmp remembers).inRange (covers other earlier v mem present)

/-- A query's range is taken over only if nothing changed since its read. -/
lemma Inv.closeQuery (few : FewBumps s (.closeQuery query))
    (taken : step cs blocks s (.closeQuery query) = some t) : Inv cs blocks t := by
  simp only [step] at taken
  split at taken
  case h_2 => cases taken
  case h_1 mmp found =>
    have closed : ∀ {u : State ct}, Inv cs blocks u → Inv cs blocks (u.setQuery query none) := by
      intro u uinv
      exact uinv.setQuery (by simp) (by simp)
    split at taken
    case isFalse => cases taken
    case isTrue complete =>
      split at taken
      case isFalse =>
        cases taken
        exact closed inv
      case isTrue offers =>
        cases taken
        apply closed
        obtain ⟨before, remembered, -⟩ := inv.opened query mmp found
        have bound : s.bumps < mmp.openedAt + emMaxSeqnum := by simpa [FewBumps, found] using few
        by_cases accepted : (s.entry.sequenceNum : Int) = mmp.seq ∧ s.entry.isValid = .invalid
        · have now : mmp.openedAt = s.bumps := by
            have equal : s.bumps % (emMaxSeqnum + 1) = mmp.openedAt % (emMaxSeqnum + 1) := by
              rw [← inv.sequence, ← remembered]
              exact_mod_cast accepted.1
            unfold emMaxSeqnum at equal bound
            omega
          obtain ⟨-, covers⟩ := inv.current query mmp found offers.1 now
          have taken : s.entry.setMaxMin ⟨mmp.range, mmp.seq⟩ =
              ⟨mmp.range, incSeqNum s.entry.sequenceNum, .valid⟩ := by
            simp [CPEntry.setMaxMin, accepted]
          rw [taken]
          refine inv.bump s.tableLock rfl ?_ inv.settled ?_
          · intro txn phase held notLocked
            have := inv.pending txn phase held notLocked
            simp [accepted.2] at this
          · intro _ block small
            exact covers block (complete block small)
        have kept : s.entry.setMaxMin ⟨mmp.range, mmp.seq⟩ = s.entry := by
          unfold CPEntry.setMaxMin
          rw [if_neg accepted]
          simp only
          rw [if_neg (by omega), if_neg (by omega), if_neg (by omega)]
        rw [kept]
        simpa [State.setEntry] using inv

lemma Inv.step {a : Action ct} (few : FewBumps s a)
    (careful : CarefulScan cs s a) (taken : step cs blocks s a = some t) : Inv cs blocks t := by
  cases a with
  | getTableLock txn =>
    simp only [RangeProtocol.step] at taken
    split at taken
    case isTrue free =>
      cases taken
      refine ⟨inv.sequence, ?_, ?_, inv.covered, inv.opened, inv.current⟩
      · rintro _ _ ⟨⟩ notLocked
        exact absurd rfl notLocked
      · intro _
        exact inv.settled (by simp [free])
    case isFalse => cases taken
  | markInvalid txn => exact inv.markInvalid taken
  | writeBlock txn block values => exact inv.writeBlock taken
  | commit txn =>
    simp only [RangeProtocol.step] at taken
    split at taken
    case isTrue held =>
      cases taken
      exact inv.rewrite held fun _ => rfl
    case isFalse => cases taken
  | rollback txn =>
    simp only [RangeProtocol.step] at taken
    split at taken
    case isTrue held =>
      cases taken
      exact inv.rewrite held fun _ => rfl
    case isFalse => cases taken
  | invalidateUncommitted txn allExtents => exact inv.invalidateUncommitted taken
  | releaseTableLock txn =>
    simp only [RangeProtocol.step] at taken
    split at taken
    case isTrue held =>
      cases taken
      refine ⟨inv.sequence, by simp, ?_, inv.covered, inv.opened, inv.current⟩
      intro _
      exact inv.settled (by simp [held])
    case isFalse => cases taken
  | openQuery query => exact inv.openQuery taken
  | scanBlock query block load => exact inv.scanBlock careful taken
  | closeQuery query => exact inv.closeQuery few taken

lemma Inv.rangeCorrect : RangeCorrect cs blocks s := by
  intro valid block small
  have idle : ∀ txn, s.tableLock ≠ some (txn, .marked) := by
    intro txn held
    have := inv.pending txn .marked held (by simp)
    simp [valid] at this
  have covers := inv.covered valid block small
  exact ⟨covers, inv.settled idle ▸ covers⟩

end

variable (cs blocks) in
/-- In every run whose scans are careful a valid range contains every current value. -/
theorem range_correct_of_careful_scans (content : Nat → List (Value ct)) {s : State ct}
    (reached : Runs.Reaches (step cs blocks) (fun s a => FewBumps s a ∧ CarefulScan cs s a)
      (start content) s) : RangeCorrect cs blocks s := by
  have inv : Inv cs blocks s :=
    reached.invariant (start_inv content) fun _ _ _ inv meets taken =>
      inv.step meets.1 meets.2 taken
  exact inv.rangeCorrect

end System

def bigintColumn : ColType := ⟨.bigint, 8, by decide⟩

/-- An update of the only value from 1 to 9, then a rescan of the block. -/
def updateThenRescan (load : BlockLoad) : List (Action bigintColumn) :=
  [.getTableLock 1, .markInvalid 1, .writeBlock 1 0 [9], .commit 1, .invalidateUncommitted 1 false,
    .releaseTableLock 1, .openQuery 7, .scanBlock 7 0 load, .closeQuery 7]

/-- A query with an older snapshot gets the column block from the version buffer and the
auxiliary block from the main file. -/
def staleRescan : Option (State bigintColumn) :=
  Runs.execute (step numberCharset 1) FewBumps (start fun _ => [1])
    (updateThenRescan ⟨some 0, true, false⟩)

lemma staleRescan_finishes : staleRescan.isSome := by
  decide

/-- The range of the old version is installed as valid and misses the committed value. -/
theorem staleRescan_installs_wrong_range :
    ∃ s, Runs.Reaches (step numberCharset 1) FewBumps
      (start fun _ => [(1 : Value bigintColumn)]) s ∧
      s.entry.isValid = .valid ∧ ¬RangeCorrect numberCharset 1 s := by
  refine ⟨staleRescan.get staleRescan_finishes,
    Runs.reaches_of_execute (Option.some_get staleRescan_finishes).symm, by decide, ?_⟩
  intro correct
  have inside : _ ∧ _ := (correct (by decide) 0 (by decide)).1 9 (by decide) (by decide)
  exact absurd inside (by decide)

/-- The same rescan of the current block. -/
def currentRescan : Option (State bigintColumn) :=
  Runs.execute (step numberCharset 1) (fun s a => FewBumps s a ∧ CarefulScan numberCharset s a)
    (start fun _ => [1]) (updateThenRescan ⟨none, true, false⟩)

lemma currentRescan_finishes : currentRescan.isSome := by
  decide

theorem range_correct_after_currentRescan :
    (currentRescan.get currentRescan_finishes).entry.isValid = .valid ∧
      RangeCorrect numberCharset 1 (currentRescan.get currentRescan_finishes) :=
  ⟨by decide, range_correct_of_careful_scans numberCharset 1 _
    (Runs.reaches_of_execute (Option.some_get currentRescan_finishes).symm)⟩

end RangeProtocol
