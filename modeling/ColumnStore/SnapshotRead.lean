import ColumnStore.VersionHistory

/-!
# Reading a block as of a snapshot

Writers replace blocks of the main file while a query reads them as of the moment it fixed its
snapshot. A writer copies the block's image to a place of the version buffer it was granted, enters
that place in the version tables, overwrites the block in the main file, and commits; or it restores
the images and rolls back. Each of these is a step of its own, so that steps of different writers,
and the reads of the query, may come between them.

The image that was committed last is kept beside the tables, as is the one the query has to see.
A transaction leaves the set of active transactions in the step that commits it or rolls it back.
A command that returns an error is undone by the controller and is not a step of a run. The
semaphore that bounds the number of transactions only makes callers wait and is left out.
-/

namespace SnapshotRead

open ChainedTable BlockHistory
open Vss (LBID Ver VSS VSSData LBIDRange QueryContext Lookup lookup lookupLoop getCurrentVersion
  getHighestVerInVB versions)
open Vbbm (VBBM VBBMData VBRange)
open CopyLock (CopyLocks)
open SlaveNode VersionHistory

abbrev SID := Nat

structure SessionManager where
  verID : Ver
  activeTxns : List (SID × Ver)

namespace SessionManager

def active (m : SessionManager) : List Ver :=
  m.activeTxns.map Prod.snd

/-- The context of a query that starts now. -/
def queryContext (m : SessionManager) : QueryContext :=
  ⟨m.verID, m.active⟩

/-- A session that has a transaction keeps it. -/
def newTxnID (m : SessionManager) (session : SID) : SessionManager :=
  if m.activeTxns.any fun t => t.1 = session then m
  else ⟨m.verID + 1, (session, m.verID + 1) :: m.activeTxns⟩

def finishTransaction (m : SessionManager) (txn : Ver) : SessionManager :=
  { m with activeTxns := m.activeTxns.filter fun t => t.2 ≠ txn }

lemma mem_active_finish {m : SessionManager} {txn t : Ver} :
    t ∈ (m.finishTransaction txn).active ↔ t ∈ m.active ∧ t ≠ txn := by
  simp only [active, finishTransaction, List.mem_map, List.mem_filter, decide_eq_true_eq]
  constructor
  · rintro ⟨e, ⟨mem, other⟩, rfl⟩
    exact ⟨⟨e, mem, rfl⟩, other⟩
  · rintro ⟨⟨e, mem, rfl⟩, other⟩
    exact ⟨e, ⟨mem, other⟩, rfl⟩

end SessionManager

/-- The versions a query takes into account: not those of other transactions that were active, and
none above its `currentScn`. -/
def sees (c : QueryContext) (reader w : Ver) : Prop :=
  ¬ (reader ≠ w ∧ w ∈ c.txns) ∧ w ≤ c.currentScn

/-- The loop finds the greatest version the query sees, if the block has one. -/
lemma lookupLoop_spec {c : QueryContext} {reader : Ver} {best : VSSData}
    (seen : sees c reader best.verID) (listed : List VSSData) (maxEntry : Option VSSData)
    (minVersion : Option Ver) (found : best ∈ listed ∨ maxEntry = some best)
    (greatest : ∀ d ∈ listed, sees c reader d.verID →
      d.verID ≤ best.verID ∧ (d.verID = best.verID → d = best))
    (soFar : ∀ m, maxEntry = some m → m.verID ≤ best.verID ∧ (m.verID = best.verID → m = best)) :
    lookupLoop c reader false listed maxEntry minVersion = .found best.verID best.vbFlag := by
  induction listed generalizing maxEntry minVersion with
  | nil =>
    obtain rfl := found.resolve_left (by simp)
    rfl
  | cons d rest ih =>
    have later : ∀ e ∈ rest, sees c reader e.verID →
        e.verID ≤ best.verID ∧ (e.verID = best.verID → e = best) := fun e mem =>
      greatest e (by simp [mem])
    simp only [lookupLoop, Bool.false_and, Bool.false_eq_true, if_false]
    by_cases other : reader ≠ d.verID ∧ d.verID ∈ c.txns
    · rw [if_pos other]
      refine ih maxEntry minVersion ?_ later soFar
      rcases found with mem | kept
      · refine .inl ((List.mem_cons.mp mem).resolve_left ?_)
        rintro rfl
        exact seen.1 other
      · exact .inr kept
    rw [if_neg other]
    by_cases exactly : c.currentScn = d.verID
    · have visible : sees c reader d.verID := ⟨other, exactly ▸ le_rfl⟩
      have same : d.verID = best.verID :=
        le_antisymm (greatest d (by simp) visible).1 (exactly ▸ seen.2)
      obtain rfl := (greatest d (by simp) visible).2 same
      rw [if_pos exactly]
    rw [if_neg exactly]
    refine ih _ _ ?_ later ?_
    · rcases found with mem | rfl
      · rcases List.mem_cons.mp mem with rfl | mem'
        · right
          have below : best.verID < c.currentScn := lt_of_le_of_ne seen.2 (Ne.symm exactly)
          cases maxEntry with
          | none => simp [below]
          | some m =>
            by_cases less : m.verID < best.verID
            · simp [below, less]
            · have same := le_antisymm (soFar m rfl).1 (Nat.le_of_not_lt less)
              simp [(soFar m rfl).2 same]
        · exact .inl mem'
      right
      refine if_neg fun taken => ?_
      have visible : sees c reader d.verID := ⟨other, taken.1.le⟩
      have above : best.verID < d.verID := by simpa using taken.2
      exact absurd (greatest d (by simp) visible).1 (Nat.not_le_of_lt above)
    intro m kept
    split_ifs at kept with taken
    · cases kept
      exact greatest d (by simp) ⟨other, taken.1.le⟩
    · exact soFar m kept

section Lookup

variable {hasher : LBID → Ver → Nat} {vssHasher : LBID → Nat} {v : VSS}
  {t : Table LBID VBBMData Unit} {hist : History} {lbid : LBID} {c : QueryContext} {reader : Ver}

lemma lookup_of_unchanged (tracks : Tracks hasher vssHasher v t hist) (known : hist lbid = none) :
    lookup vssHasher v lbid c reader false = .notFound := by
  have empty : versions vssHasher v lbid = [] := by
    refine List.eq_nil_iff_forall_not_mem.mpr fun d mem => ?_
    obtain ⟨b, known', -⟩ := tracks.mem_vss_iff.mp ((VssInvariant.mem_versions tracks.vss).mp mem)
    simp [known] at known'
  simp [lookup, empty, lookupLoop]

lemma lookup_of_reads (tracks : Tracks hasher vssHasher v t hist) {b : Block Ver} {w : Ver}
    (known : hist lbid = some b) (reads : Reads (sees c reader) (some b) w) :
    lookup vssHasher v lbid c reader false = .found w (w ∈ b.older) := by
  have mem : ∀ d, d ∈ versions vssHasher v lbid ↔ d ∈ listed b := fun d => by
    rw [VssInvariant.mem_versions tracks.vss, tracks.mem_vss_iff, known]
    simp
  have version : ∀ d ∈ listed b, d.verID ∈ b.versions := fun d here => by
    rcases mem_listed.mp here with rfl | ⟨w', old, rfl⟩
    · exact Block.mem_versions.mpr (.inl rfl)
    · exact Block.mem_versions.mpr (.inr old)
  have best : ∀ d ∈ listed b, d.verID = w →
      lookup vssHasher v lbid c reader false = .found d.verID d.vbFlag := by
    rintro d here rfl
    refine lookupLoop_spec reads.1.2 _ none none (.inl ((mem d).mpr here)) (fun e mem' seen => ?_)
      (by simp)
    have here' := (mem e).mp mem'
    refine ⟨reads.2 ⟨version e here', seen⟩, fun same => ?_⟩
    rcases mem_listed.mp here with rfl | ⟨w, old, rfl⟩
    · rcases mem_listed.mp here' with rfl | ⟨w', old', rfl⟩
      · rfl
      · exact absurd same (b.older_lt w' old').ne
    · rcases mem_listed.mp here' with rfl | ⟨w', old', rfl⟩
      · exact absurd same (b.older_lt w old).ne'
      · exact congrArg older same
  rcases Block.mem_versions.mp reads.1.1 with rfl | old
  · simpa [b.current_notMem_older] using best _ (mem_listed.mpr (.inl rfl)) rfl
  · simpa [old, older] using best _ (mem_listed.mpr (.inr ⟨w, old, rfl⟩)) rfl

end Lookup

/-- An image copied to the version buffer and not yet entered in the tables. -/
structure Copy where
  transID : Ver
  lbid : LBID
  place : Nat × Nat
  deriving DecidableEq

structure State (Image : Type) where
  node : Node
  sessions : SessionManager
  main : LBID → Image
  vb : Nat × Nat → Image
  /-- Places handed out to a transaction and not used yet. -/
  granted : List (Ver × (Nat × Nat))
  copied : List Copy
  /-- The blocks each active transaction has become the writer of. -/
  taken : List (Ver × LBID)
  committed : LBID → Image
  /-- The context of the query and the images it has to see, once it is fixed. -/
  snapshot : Option (QueryContext × (LBID → Image))

/-- Empty version tables over given contents of the files. -/
def start {Image : Type} (main : LBID → Image) (vb : Nat × Nat → Image) : State Image :=
  ⟨initial, ⟨0, []⟩, main, vb, [], [], [], main, none⟩

inductive Action (Image : Type)
  | newTxnID (session : SID)
  | beginVBCopy (meanwhile : Nat → CopyLocks → CopyLocks) (currentFileSize : Nat) (transID : Ver)
      (vbOID : Nat) (ranges : List LBIDRange)
  | copyImage (transID : Ver) (lbid : LBID) (place : Nat × Nat)
  | writeVBEntry (transID : Ver) (lbid : LBID) (place : Nat × Nat)
  | overwrite (transID : Ver) (lbid : LBID) (image : Image)
  | endVBCopy (ranges : List LBIDRange)
  | commit (transID : Ver)
  | restoreImage (transID : Ver) (lbid : LBID)
  | rollback (transID : Ver)
  | fixSnapshot

section System

variable {Image : Type} (hasher : LBID → Ver → Nat) (vssHasher : LBID → Nat) (reader : Ver)

def blocksTaken (s : State Image) (transID : Ver) : List LBID :=
  ((s.taken.filter fun t => t.1 = transID).map Prod.snd).dedup

/-- What remains of a transaction's bookkeeping when it has ended: nothing. -/
def endTransaction (s : State Image) (transID : Ver) : State Image :=
  { s with
    sessions := s.sessions.finishTransaction transID
    granted := s.granted.filter fun g => g.1 ≠ transID
    copied := s.copied.filter fun c => c.transID ≠ transID
    taken := s.taken.filter fun t => t.1 ≠ transID }

def step (s : State Image) : Action Image → Option (State Image)
  | .newTxnID session => some { s with sessions := s.sessions.newTxnID session }
  | .beginVBCopy meanwhile currentFileSize transID vbOID ranges =>
    match beginVBCopy hasher vssHasher s.node meanwhile currentFileSize transID vbOID ranges with
    | some (n, 0, freeList) =>
      some { s with
        node := confirmChanges n
        granted := (VersionBufferSpace.places freeList).map (fun p => (transID, p)) ++ s.granted }
    | _ => none
  | .copyImage transID lbid place =>
    some { s with
      vb := Function.update s.vb place (s.main lbid)
      granted := s.granted.erase (transID, place)
      copied := ⟨transID, lbid, place⟩ :: s.copied }
  | .writeVBEntry transID lbid place =>
    let r := writeVBEntry hasher vssHasher s.node transID lbid place.1 place.2
    if r.2 = 0 then
      some { s with
        node := confirmChanges r.1
        copied := s.copied.filter fun c => c.place ≠ place
        taken := if (getCurrentVersion vssHasher s.node.vss lbid).1 = transID then s.taken
          else (transID, lbid) :: s.taken }
    else none
  | .overwrite _ lbid image => some { s with main := Function.update s.main lbid image }
  | .endVBCopy ranges => some { s with node := confirmChanges (endVBCopy s.node ranges).1 }
  | .commit transID =>
    some { endTransaction s transID with
      node := confirmChanges (vbCommit s.node transID).1
      committed := fun l => if (transID, l) ∈ s.taken then s.main l else s.committed l }
  | .restoreImage transID lbid =>
    (getHighestVerInVB vssHasher s.node.vss lbid transID).bind fun verID =>
      (Vbbm.lookup hasher s.node.vbbm lbid verID).map fun place =>
        { s with main := Function.update s.main lbid (s.vb place) }
  | .rollback transID =>
    let r := vbRollback hasher vssHasher s.node transID (blocksTaken s transID)
    if r.2 = 0 then some { endTransaction s transID with node := confirmChanges r.1 } else none
  | .fixSnapshot =>
    match s.snapshot with
    | none => some { s with snapshot := some (s.sessions.queryContext, s.committed) }
    | some _ => none

/-- The image the query gets for a block; `none` when the read fails. -/
def readBlock (s : State Image) (c : QueryContext) (lbid : LBID) : Option Image :=
  match lookup vssHasher s.node.vss lbid c reader false with
  | .found ver true => (Vbbm.lookup hasher s.node.vbbm lbid ver).map s.vb
  | .found _ false => some (s.main lbid)
  | .notFound => some (s.main lbid)
  | .snapshotTooOld => none

/-- No transaction but `transID` holds the block's lock in the VSS. -/
def FreeFor (s : State Image) (transID : Ver) (lbid : LBID) : Prop :=
  (getCurrentVersion vssHasher s.node.vss lbid).2 = true →
    (getCurrentVersion vssHasher s.node.vss lbid).1 = transID

/-- The main file holds the image that a rollback of the block goes back to. -/
def Restored (s : State Image) (transID : Ver) (lbid : LBID) : Prop :=
  ∀ verID place, getHighestVerInVB vssHasher s.node.vss lbid transID = some verID →
    Vbbm.lookup hasher s.node.vbbm lbid verID = some place → s.main lbid = s.vb place

/-- The order a writer keeps to. Writers of one block take turns: nobody copies a block between
another's copy and its entry in the tables. The query is not one of the writers. -/
def Protocol (s : State Image) : Action Image → Prop
  | .newTxnID _ => True
  | .beginVBCopy _ _ transID _ _ => transID ∈ s.sessions.active
  | .copyImage transID lbid place =>
    transID ∈ s.sessions.active ∧ (transID, place) ∈ s.granted ∧
      FreeFor vssHasher s transID lbid ∧ ∀ c ∈ s.copied, c.lbid ≠ lbid
  | .writeVBEntry transID lbid place =>
    transID ∈ s.sessions.active ∧ transID ≠ reader ∧ ⟨transID, lbid, place⟩ ∈ s.copied ∧
      FreeFor vssHasher s transID lbid
  | .overwrite transID lbid _ => (transID, lbid) ∈ s.taken ∧ ∀ c ∈ s.copied, c.lbid ≠ lbid
  | .endVBCopy _ => True
  | .commit transID => transID ∈ s.sessions.active
  | .restoreImage transID lbid => (transID, lbid) ∈ s.taken ∧ ∀ c ∈ s.copied, c.lbid ≠ lbid
  | .rollback transID =>
    transID ∈ s.sessions.active ∧
      ∀ lbid, (transID, lbid) ∈ s.taken → Restored hasher vssHasher s transID lbid
  | .fixSnapshot => True

/-- The context the query reads under; before it is fixed, the one it would get now. -/
def context (s : State Image) : QueryContext :=
  match s.snapshot with
  | none => s.sessions.queryContext
  | some (c, _) => c

def expected (s : State Image) : LBID → Image :=
  match s.snapshot with
  | none => s.committed
  | some (_, images) => images

/-- A request for space loses no entry in growing and reuses no place that holds the version the
query reads; an image is copied only to a place that no entry and no other copy refers to. -/
def Careful (s : State Image) : Action Image → Prop
  | .beginVBCopy _ currentFileSize _ vbOID ranges =>
    GrowthKeeps hasher s.node.vbbm currentFileSize (sizeSum ranges) vbOID ∧
      ∀ lbid d, (lbid, d) ∈ s.node.vbbm.table.entries →
        Reuses hasher s.node.vbbm currentFileSize (sizeSum ranges) vbOID (d.vbOID, d.vbFBO) →
        lookup vssHasher s.node.vss lbid (context s) reader false ≠ .found d.verID true
  | .copyImage _ _ place =>
    (∀ lbid d, (lbid, d) ∈ s.node.vbbm.table.entries → (d.vbOID, d.vbFBO) ≠ place) ∧
      ∀ c ∈ s.copied, c.place ≠ place
  | _ => True

end System

end SnapshotRead
