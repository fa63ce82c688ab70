import ColumnStore.SnapshotRead

/-!
# The invariant of snapshot reads

Every block has a version that the query reads, and that version's image is the one committed when
the query fixed its snapshot, be it in the main file or in the version buffer. Every step of the
writers keeps this, as long as the version buffer does not give away the place the image is in.
-/

namespace SnapshotInvariant

open ChainedTable.Table BlockHistory Multiset Function Option
open Vss (LBID Ver VSS VSSData LBIDRange QueryContext Lookup lookup getCurrentVersion
  getHighestVerInVB versions)
open Vbbm (VBBM VBBMData VBRange)
open CopyLock (CopyLocks)
open SlaveNode VersionHistory SnapshotRead
open Block (mem_versions)
open SessionManager (active mem_active_finish queryContext)

/-- The query's version of a block has the image it has to see, wherever that version is. -/
def Good {Image : Type} (c : QueryContext) (reader : Ver) (image : Image)
    (h : Option (Block Ver)) (main : Image) (stored : Multiset VBBMData)
    (vb : Nat × Nat → Image) : Prop :=
  ∃ v, Reads (sees c reader) h v ∧ (v = currentVersion h → main = image) ∧
    ∀ d ∈ stored, d.verID = v → vb (d.vbOID, d.vbFBO) = image

variable {place : Nat × Nat}

section OneBlock

variable {Image : Type} {c c' : QueryContext} {reader t : Ver} {image main main' : Image}
  {h h' : Option (Block Ver)} {b : Block Ver} {stored stored' : Multiset VBBMData}
  {vb vb' : Nat × Nat → Image}

lemma Good.ended (same : main = image) : Good c reader image none main 0 vb :=
  ⟨⊥, rfl, fun _ => same, fun d mem => absurd mem (notMem_zero d)⟩

/-- The main file does not matter while a version the query does not see is the current one. -/
lemma Good.of_hidden (good : Good c reader image (some b) main stored vb)
    (hidden : ¬ sees c reader b.current) : Good c reader image (some b) main' stored vb := by
  obtain ⟨v, reads, -, buffered⟩ := good
  refine ⟨v, reads, ?_, buffered⟩
  rintro rfl
  exact absurd reads.1.2 hidden

section

variable (good : Good c reader image h main stored vb)
include good

/-- An entry for the old version is added, with the image of the block. -/
lemma Good.overwrite (least : sees c reader ⊥)
    (newer : currentVersion h < t) (hidden : ¬ sees c reader t) (copy : vb place = main) :
    Good c reader image (some (overwrite h t newer)) main
      (⟨currentVersion h, place.1, place.2⟩ ::ₘ stored) vb := by
  obtain ⟨v, reads, current, buffered⟩ := good
  have reads' := reads.overwrite least newer hidden
  refine ⟨v, reads', fun same => ?_, fun d mem version => ?_⟩
  · have isNew : v = t := same.trans (overwrite_current h t newer)
    exact absurd (isNew ▸ reads'.1.2) hidden
  · rcases mem_cons.mp mem with rfl | old
    · exact copy.trans (current version.symm)
    · exact buffered d old version

lemma Good.congr (same : ∀ b, h = some b → ∀ w ∈ b.versions, sees c reader w ↔ sees c' reader w)
    (images : ∀ d ∈ stored, vb' (d.vbOID, d.vbFBO) = vb (d.vbOID, d.vbFBO)) :
    Good c' reader image h main stored vb' := by
  obtain ⟨v, reads, current, buffered⟩ := good
  exact ⟨v, reads.congr same, current, fun d mem version =>
    (images d mem).trans (buffered d mem version)⟩

lemma Good.less (less : stored' ≤ stored) : Good c reader image h main stored' vb := by
  obtain ⟨v, reads, current, buffered⟩ := good
  exact ⟨v, reads, current, fun d mem => buffered d (mem_of_le less mem)⟩

lemma Good.commit (t : Ver) : Good c reader image (commit t h) main stored vb := by
  obtain ⟨v, reads, current, buffered⟩ := good
  exact ⟨v, reads.commit t, by rwa [currentVersion_commit], buffered⟩

end

/-- A version that becomes visible when it is the current one is read from the main file. -/
lemma Good.of_current (seen : sees c reader b.current)
    (mapped : stored.map VBBMData.verID = b.older.val) : Good c reader main (some b) main stored vb
    := by
  refine ⟨b.current, ⟨⟨mem_versions.mpr (.inl rfl), seen⟩, fun w hw => ?_⟩, fun _ => rfl,
    fun d mem version => ?_⟩
  · rcases mem_versions.mp hw.1 with rfl | old
    · exact le_rfl
    · exact (b.older_lt w old).le
  have old : d.verID ∈ b.older := by
    rw [← Finset.mem_val, ← mapped]
    exact mem_map_of_mem _ mem
  exact absurd (version ▸ old) b.current_notMem_older

lemma Good.aged {gone : Ver → Prop} (good : Good c reader image h main stored vb)
    (aged : Aged gone h h') (kept : ∀ v, Reads (sees c reader) h v → ¬ gone v)
    (less : stored' ≤ stored) (empty : h' = none → stored' = 0) :
    Good c reader image h' main stored' vb := by
  obtain ⟨v, reads, current, buffered⟩ := good
  rcases aged.survives reads (kept v reads) with ⟨reads', same⟩ | ⟨ended, last⟩
  · exact ⟨v, reads', fun here => current (same.mpr here), fun d mem =>
      buffered d (mem_of_le less mem)⟩
  · rw [ended, empty ended]
    exact .ended (current last)

/-- A rollback of a version the query does not see, once the image it goes back to is restored. -/
lemma Good.rollback (good : Good c reader image (some b) main stored vb)
    (hidden : ¬ sees c reader b.current) (mapped : stored.map VBBMData.verID = b.older.val)
    (restored : ∀ nonempty : b.older.Nonempty, ∀ d ∈ stored,
      d.verID = b.older.max' nonempty → main = vb (d.vbOID, d.vbFBO))
    (less : stored' ≤ stored) (empty : b.rollback = none → stored' = 0) :
    Good c reader image b.rollback main stored' vb := by
  obtain ⟨v, reads, -, buffered⟩ := good
  obtain ⟨nonempty, old, outcome⟩ := reads.rollback hidden
  have back : v = b.older.max' nonempty → main = image := fun same => by
    have listed : v ∈ stored.map VBBMData.verID := by rw [mapped]; exact old
    obtain ⟨d, mem, version⟩ := mem_map.mp listed
    exact (restored nonempty d mem (version.trans same)).trans (buffered d mem version)
  rcases outcome with ⟨reads', current⟩ | ⟨ended, last⟩
  · exact ⟨v, reads', fun here => back (current.mp here), fun d mem =>
      buffered d (mem_of_le less mem)⟩
  · rw [ended, empty ended]
    exact .ended (back last)

end OneBlock

section System

variable {Image : Type} {hasher : LBID → Ver → Nat} {vssHasher : LBID → Nat} {reader : Ver}
  {s s' : State Image} {hist : History}

structure Inv (hasher : LBID → Ver → Nat) (vssHasher : LBID → Nat) (reader : Ver)
    (s : State Image) (hist : History) : Prop where
  tracks : Tracks hasher vssHasher s.node.vss s.node.vbbm.table hist
  undo : s.node.vbbm.table.undo = []
  fileUndo : s.node.vbbm.fileUndo = []
  active_range : ∀ t ∈ s.sessions.active, 0 < t ∧ t ≤ s.sessions.verID
  scn_le : (context s).currentScn ≤ s.sessions.verID
  hidden : ∀ t ∈ s.sessions.active, t ∈ (context s).txns ∨ (context s).currentScn < t
  least : 0 ∉ (context s).txns
  current_le : ∀ l b, hist l = some b → b.current ≤ s.sessions.verID
  older_ended : ∀ l b, hist l = some b → ∀ w ∈ b.older, w ∉ s.sessions.active
  locked_iff : ∀ l b, hist l = some b → (b.locked = true ↔ b.current ∈ s.sessions.active)
  taken_iff : ∀ t l, (t, l) ∈ s.taken ↔
    t ∈ s.sessions.active ∧ ∃ b, hist l = some b ∧ b.current = t
  reader_reads : ∀ l, (reader, l) ∉ s.taken
  copies : ∀ c ∈ s.copied, s.vb c.place = s.main c.lbid ∧
    ∀ lbid d, (lbid, d) ∈ s.node.vbbm.table.entries → (d.vbOID, d.vbFBO) ≠ c.place
  good : ∀ l, Good (context s) reader (expected s l) (hist l) (s.main l)
    (slice l s.node.vbbm.table.entries) s.vb

lemma inv_start (main : LBID → Image) (vb : Nat × Nat → Image) :
    Inv hasher vssHasher reader (start main vb) fun _ => none where
  tracks := tracks_initial
  undo := rfl
  fileUndo := rfl
  active_range := by simp [start, active]
  scn_le := le_rfl
  hidden := by simp [start, active]
  least := by simp [start, context, queryContext, active]
  current_le := by simp
  older_ended := by simp
  locked_iff := by simp
  taken_iff := by simp [start]
  reader_reads := by simp [start]
  copies := by simp [start]
  good := fun l => by
    rw [show slice l (start main vb).node.vbbm.table.entries = 0 from
      congrArg (slice l) (entries_empty _ _ _)]
    exact .ended rfl

variable {t : Ver}

lemma Inv.not_sees (inv : Inv hasher vssHasher reader s hist) (running : t ∈ s.sessions.active)
    (other : t ≠ reader) : ¬ sees (context s) reader t := by
  rintro ⟨visible, le⟩
  rcases inv.hidden t running with listed | above
  · exact visible ⟨other.symm, listed⟩
  · exact absurd le (Nat.not_le_of_lt above)

variable {l : LBID}

/-- The context when a transaction has left the active set: it is the same for a query that is
fixed, and one that is not sees the versions of that transaction from now on. -/
lemma context_finish (snapshot : s'.snapshot = s.snapshot)
    (sessions : s'.sessions = s.sessions.finishTransaction t) :
    (context s').currentScn = (context s).currentScn ∧
      (∀ w ≠ t, w ∈ (context s').txns ↔ w ∈ (context s).txns) ∧
      (s.snapshot = none → t ∉ (context s').txns) := by
  unfold context
  rw [snapshot]
  cases fixed : s.snapshot with
  | some known => exact ⟨rfl, fun _ _ => Iff.rfl, by simp⟩
  | none =>
    refine ⟨by rw [sessions]; rfl, fun w other => ?_, fun _ mem => ?_⟩
    · simp only [queryContext]
      rw [sessions, mem_active_finish, and_iff_left other]
    · simp only [queryContext] at mem
      rw [sessions, mem_active_finish] at mem
      exact mem.2 rfl

lemma sees_finish {w : Ver} (snapshot : s'.snapshot = s.snapshot)
    (sessions : s'.sessions = s.sessions.finishTransaction t) (other : w ≠ t) :
    sees (context s) reader w ↔ sees (context s') reader w := by
  obtain ⟨scn, txns, -⟩ := context_finish snapshot sessions
  unfold sees
  rw [scn, txns w other]

lemma mem_blocksTaken {transID : Ver} : l ∈ blocksTaken s transID ↔ (transID, l) ∈ s.taken := by
  simp only [blocksTaken, List.mem_dedup, List.mem_map, List.mem_filter, decide_eq_true_eq]
  constructor
  · rintro ⟨t, ⟨mem, rfl⟩, rfl⟩
    exact mem
  · exact fun mem => ⟨_, ⟨mem, rfl⟩, rfl⟩

section

variable (inv : Inv hasher vssHasher reader s hist)
include inv

lemma Inv.not_sees_taken (mine : (t, l) ∈ s.taken) : ¬ sees (context s) reader t := by
  refine inv.not_sees ((inv.taken_iff t l).mp mine).1 ?_
  rintro rfl
  exact inv.reader_reads l mine

/-- Versions of ended transactions and of the writers of other blocks are all a block has besides
its own writer's. -/
lemma Inv.ne_of_not_taken {w : Ver} {b : Block Ver}
    (running : t ∈ s.sessions.active) (free : (t, l) ∉ s.taken) (known : hist l = some b)
    (mem : w ∈ b.versions) : w ≠ t := by
  rintro rfl
  rcases mem_versions.mp mem with rfl | old
  · exact free ((inv.taken_iff _ _).mpr ⟨running, b, known, rfl⟩)
  · exact inv.older_ended l b known w old running

lemma inv_fixSnapshot (free : s.snapshot = none) :
    Inv hasher vssHasher reader
      { s with snapshot := some (s.sessions.queryContext, s.committed) } hist := by
  have sameContext : context { s with snapshot := some (s.sessions.queryContext, s.committed) } =
      context s := by simp [context, free]
  have sameImages : expected { s with snapshot := some (s.sessions.queryContext, s.committed) } =
      expected s := by simp [expected, free]
  exact { inv with
    scn_le := by rw [sameContext]; exact inv.scn_le
    hidden := by rw [sameContext]; exact inv.hidden
    least := by rw [sameContext]; exact inv.least
    good := by rw [sameContext, sameImages]; exact inv.good }

lemma inv_newTxnID (session : SID) :
    Inv hasher vssHasher reader { s with sessions := s.sessions.newTxnID session } hist := by
  unfold SessionManager.newTxnID
  split_ifs with has
  · exact inv
  set s' : State Image := { s with
    sessions := ⟨s.sessions.verID + 1, (session, s.sessions.verID + 1) :: s.sessions.activeTxns⟩ }
    with s'_eq
  have active : ∀ t, t ∈ s'.sessions.active ↔
      t = s.sessions.verID + 1 ∨ t ∈ s.sessions.active := by
    simp [s'_eq, active]
  have old : ∀ t, t ≤ s.sessions.verID → (t ∈ s'.sessions.active ↔ t ∈ s.sessions.active) := by
    intro t le
    rw [active, or_iff_right (Nat.ne_of_lt (Nat.lt_succ_of_le le))]
  have version_le : ∀ l b, hist l = some b → ∀ w ∈ b.versions, w ≤ s.sessions.verID := by
    intro l b known w mem
    rcases mem_versions.mp mem with rfl | older
    · exact inv.current_le l b known
    · exact (b.older_lt w older).le.trans (inv.current_le l b known)
  have seesSame : ∀ w, w ≤ s.sessions.verID →
      (sees (context s) reader w ↔ sees (context s') reader w) := by
    intro w le
    cases fixed : s.snapshot with
    | some snapshot => simp [context, s'_eq, fixed]
    | none =>
      have listed := old w le
      simp only [sees, context, s'_eq, fixed, queryContext] at listed ⊢
      rw [listed]
      simp only [le, le.trans (Nat.le_succ _)]
  refine { inv with
    active_range := ?_, scn_le := ?_, hidden := ?_, least := ?_, current_le := ?_
    older_ended := ?_, locked_iff := ?_, taken_iff := ?_, good := ?_ }
  · intro t running
    rcases (active t).mp running with rfl | before
    · exact ⟨Nat.succ_pos _, le_rfl⟩
    · exact ⟨(inv.active_range t before).1, (inv.active_range t before).2.trans (Nat.le_succ _)⟩
  · cases fixed : s.snapshot with
    | none => simp [context, s'_eq, fixed, queryContext]
    | some snapshot =>
      have le := inv.scn_le
      simp only [context, fixed] at le
      simp only [s'_eq, fixed]
      exact le.trans (Nat.le_succ _)
  · intro t running
    cases fixed : s.snapshot with
    | none => exact .inl (by simpa [context, s'_eq, fixed, queryContext] using running)
    | some snapshot =>
      have before := inv.hidden
      have le := inv.scn_le
      simp only [context, fixed] at before le
      simp only [s'_eq, fixed]
      rcases (active t).mp running with rfl | earlier
      · exact .inr (Nat.lt_succ_of_le le)
      · exact before t earlier
  · have before := inv.least
    cases fixed : s.snapshot with
    | none =>
      simp only [context, fixed] at before
      simp only [s'_eq, fixed]
      exact fun mem => before ((old 0 (Nat.zero_le _)).mp mem)
    | some snapshot => simpa [context, s'_eq, fixed] using before
  · exact fun l b known => (inv.current_le l b known).trans (Nat.le_succ _)
  · intro l b known w mem running
    exact inv.older_ended l b known w mem
      ((old w (version_le l b known w (mem_versions.mpr (.inr mem)))).mp running)
  · intro l b known
    rw [old b.current (inv.current_le l b known)]
    exact inv.locked_iff l b known
  · intro t l
    rw [inv.taken_iff t l]
    constructor
    · rintro ⟨running, b, known, rfl⟩
      exact ⟨(old _ (inv.current_le l b known)).mpr running, b, known, rfl⟩
    · rintro ⟨running, b, known, rfl⟩
      exact ⟨(old _ (inv.current_le l b known)).mp running, b, known, rfl⟩
  · intro l
    refine (inv.good l).congr (fun b known w mem => ?_) fun _ _ => rfl
    exact seesSame w (version_le l b known w mem)

variable {n : Node}

lemma inv_sameTables (vss : n.vss = s.node.vss)
    (vbbm : n.vbbm = s.node.vbbm) (granted : List (Ver × (Nat × Nat))) :
    Inv hasher vssHasher reader { s with node := confirmChanges n, granted := granted } hist := by
  have tracks : Tracks hasher vssHasher n.vss n.vbbm.table hist := by
    rw [vss, vbbm]
    exact inv.tracks
  have entries : (confirmChanges n).vbbm.table.entries = s.node.vbbm.table.entries := by
    rw [← vbbm]
    rfl
  exact { inv with
    tracks := tracks_confirmChanges tracks
    undo := rfl
    fileUndo := rfl
    copies := fun c mem => ⟨(inv.copies c mem).1, by rw [entries]; exact (inv.copies c mem).2⟩
    good := fun l => by rw [entries]; exact inv.good l }

lemma inv_aged (gone : LBID → Ver → Prop) {hist' : History}
    (tracks : Tracks hasher vssHasher n.vss n.vbbm.table hist')
    (less : n.vbbm.table.entries ≤ s.node.vbbm.table.entries)
    (aged : ∀ l, Aged (gone l) (hist l) (hist' l))
    (kept : ∀ l v, Reads (sees (context s) reader) (hist l) v → ¬ gone l v)
    (granted : List (Ver × (Nat × Nat))) :
    Inv hasher vssHasher reader { s with node := confirmChanges n, granted := granted } hist' := by
  have from_old : ∀ l b', hist' l = some b' → ∃ b, hist l = some b ∧ b'.current = b.current ∧
      b'.locked = b.locked ∧ b'.older ⊆ b.older := fun l b' known =>
    (known ▸ aged l : Aged (gone l) (hist l) (some b')).some_of_some
  refine { inv with
    tracks := tracks_confirmChanges tracks, undo := rfl, fileUndo := rfl
    current_le := ?_, older_ended := ?_, locked_iff := ?_, taken_iff := ?_, copies := ?_
    good := ?_ }
  · intro l b' known
    obtain ⟨b, before, current, -⟩ := from_old l b' known
    rw [current]
    exact inv.current_le l b before
  · intro l b' known w mem
    obtain ⟨b, before, -, -, older⟩ := from_old l b' known
    exact inv.older_ended l b before w (older mem)
  · intro l b' known
    obtain ⟨b, before, current, locked, -⟩ := from_old l b' known
    rw [current, locked]
    exact inv.locked_iff l b before
  · intro t l
    rw [inv.taken_iff t l]
    refine and_congr_right fun running => ⟨?_, ?_⟩
    · rintro ⟨b, before, rfl⟩
      have locked := (inv.locked_iff l b before).mpr running
      obtain ⟨b', known, current⟩ :=
        (before ▸ aged l : Aged (gone l) (some b) (hist' l)).of_locked locked
      exact ⟨b', known, current⟩
    · rintro ⟨b', known, rfl⟩
      obtain ⟨b, before, current, -⟩ := from_old l b' known
      exact ⟨b, before, current.symm⟩
  · exact fun c mem => ⟨(inv.copies c mem).1, fun lbid d listed =>
      (inv.copies c mem).2 lbid d (mem_of_le less listed)⟩
  intro l
  refine (inv.good l).aged (aged l) (kept l) ?_ fun ended => ?_
  · exact map_le_map (filter_le_filter _ less)
  · obtain ⟨-, empty⟩ : Shows none _ _ := ended ▸ tracks.shows l
    exact empty

variable {transID : Ver}

lemma inv_beginVBCopy {meanwhile : Nat → CopyLocks → CopyLocks} {currentFileSize vbOID : Nat}
    {ranges : List LBIDRange} {code : Int} {freeList : List VBRange}
    (careful : Careful hasher vssHasher reader s
      (.beginVBCopy meanwhile currentFileSize transID vbOID ranges))
    (done : beginVBCopy hasher vssHasher s.node meanwhile currentFileSize transID vbOID ranges =
      some (n, code, freeList)) (granted : List (Ver × (Nat × Nat))) :
    ∃ hist', Inv hasher vssHasher reader
      { s with node := confirmChanges n, granted := granted } hist' := by
  obtain ⟨keeps, unread⟩ := careful
  rcases beginVBCopy_cases done with ⟨vss, vbbm, -⟩ | ⟨out, request, -⟩
  · exact ⟨hist, inv_sameTables inv vss vbbm granted⟩
  obtain ⟨less, hist', tracks, aged⟩ := getBlocks_tracks
    (fun l w => ∃ d, (l, d) ∈ s.node.vbbm.table.entries ∧ d.verID = w ∧
      Reuses hasher s.node.vbbm currentFileSize (sizeSum ranges) vbOID (d.vbOID, d.vbFBO))
    ⟨inv.tracks.vbbm, inv.undo, inv.fileUndo⟩ inv.tracks keeps
    (fun l d mem reused => ⟨d, mem, rfl, reused⟩) request
  refine ⟨hist', inv_aged inv _ tracks less aged ?_ granted⟩
  rintro l v reads ⟨d, mem, rfl, reused⟩
  obtain ⟨b, known, old⟩ := inv.tracks.mapped_iff.mp ⟨d, mem, rfl⟩
  rw [known] at reads
  have found := lookup_of_reads inv.tracks known reads
  rw [decide_eq_true old] at found
  exact unread l d mem reused found

variable {lbid : LBID}

lemma inv_copyImage (careful : Careful hasher vssHasher reader s (.copyImage transID lbid place))
    (granted : List (Ver × (Nat × Nat))) :
    Inv hasher vssHasher reader { s with
      vb := update s.vb place (s.main lbid)
      granted := granted
      copied := ⟨transID, lbid, place⟩ :: s.copied } hist := by
  obtain ⟨unreferenced, uncopied⟩ := careful
  refine { inv with copies := ?_, good := ?_ }
  · intro c mem
    rcases List.mem_cons.mp mem with rfl | before
    · exact ⟨update_self .., unreferenced⟩
    · obtain ⟨image, apart⟩ := inv.copies c before
      exact ⟨(update_of_ne (uncopied c before) ..).trans image, apart⟩
  · intro l
    refine (inv.good l).congr (fun _ _ _ _ => Iff.rfl) fun d mem => ?_
    exact update_of_ne (unreferenced l d (mem_slice.mp mem)) ..

/-- The main file's copy of a block that a running transaction has taken may change. -/
lemma inv_setMain (mine : (transID, lbid) ∈ s.taken)
    (uncopied : ∀ c ∈ s.copied, c.lbid ≠ lbid) (image : Image) :
    Inv hasher vssHasher reader { s with main := update s.main lbid image } hist := by
  refine { inv with copies := ?_, good := ?_ }
  · intro c mem
    obtain ⟨same, apart⟩ := inv.copies c mem
    exact ⟨same.trans (update_of_ne (uncopied c mem) ..).symm, apart⟩
  intro l
  have before := inv.good l
  by_cases here : l = lbid
  · subst here
    obtain ⟨-, b, known, rfl⟩ := (inv.taken_iff transID l).mp mine
    rw [known] at before ⊢
    exact before.of_hidden (inv.not_sees_taken mine)
  · dsimp only
    rw [update_of_ne here]
    exact before

lemma inv_writeVBEntry_newer
    (protocol : Protocol hasher vssHasher reader s (.writeVBEntry transID lbid place))
    (newer : currentVersion (hist lbid) < transID)
    (done : (writeVBEntry hasher vssHasher s.node transID lbid place.1 place.2).1 = n) :
    Inv hasher vssHasher reader { s with
        node := confirmChanges n
        copied := s.copied.filter fun c => c.place ≠ place
        taken := (transID, lbid) :: s.taken }
      (update hist lbid (some (overwrite (hist lbid) transID newer))) := by
  obtain ⟨running, notReader, copied, freeFor⟩ := protocol
  have free : ∀ b, hist lbid = some b → b.locked = false := by
    intro b known
    cases held : b.locked with
    | false => rfl
    | true =>
      obtain ⟨inVSS, -⟩ : Shows (some b) _ _ := known ▸ inv.tracks.shows _
      rw [FreeFor, getCurrentVersion_some inv.tracks.vss inVSS] at freeFor
      rw [known] at newer
      exact absurd (freeFor held) (ne_of_lt newer)
  obtain ⟨v, result, tracks⟩ := writeVBEntry_newer inv.tracks newer free place.1 place.2
  obtain ⟨-, entries, -⟩ := VbbmInvariant.insert_spec inv.tracks.vbbm lbid
    ⟨currentVersion (hist lbid), place.1, place.2⟩ false
  rw [result] at done
  subst done
  have ended : ∀ b, hist lbid = some b → b.current ∉ s.sessions.active := by
    intro b known active
    have locked := (inv.locked_iff lbid b known).mpr active
    rw [free b known] at locked
    cases locked
  have zero : (0 : Ver) ∉ s.sessions.active := fun active => absurd (inv.active_range 0 active).1
    (lt_irrefl 0)
  refine { inv with
    tracks := tracks_confirmChanges tracks, undo := rfl, fileUndo := rfl
    current_le := ?_, older_ended := ?_, locked_iff := ?_, taken_iff := ?_, reader_reads := ?_
    copies := ?_, good := ?_ }
  · intro l b known
    rcases known_of_update known with ⟨-, rfl⟩ | before
    · rw [overwrite_current]
      exact (inv.active_range transID running).2
    · exact inv.current_le l b before
  · intro l b known w mem
    rcases known_of_update known with ⟨rfl, rfl⟩ | before
    · rcases mem_older_overwrite mem with rfl | ⟨b, before, old⟩
      · cases before : hist l with
        | none => exact zero
        | some b => exact ended b before
      · exact inv.older_ended l b before w old
    · exact inv.older_ended l b before w mem
  · intro l b known
    rcases known_of_update known with ⟨-, rfl⟩ | before
    · simp [running]
    · exact inv.locked_iff l b before
  · intro t l
    rw [List.mem_cons, inv.taken_iff t l]
    by_cases here : l = lbid
    · subst here
      rw [update_self]
      constructor
      · rintro (same | ⟨active, b, before, rfl⟩)
        · obtain ⟨rfl, -⟩ := Prod.mk.inj same
          exact ⟨running, _, rfl, overwrite_current _ _ _⟩
        · exact absurd active (ended b before)
      · rintro ⟨-, b, known, rfl⟩
        cases known
        exact .inl (by rw [overwrite_current])
    · rw [update_of_ne here, or_iff_right fun same => here (Prod.mk.inj same).2]
  · intro l mem
    rcases List.mem_cons.mp mem with same | before
    · exact notReader (Prod.mk.inj same).1.symm
    · exact inv.reader_reads l before
  · intro c mem
    obtain ⟨before, other⟩ := List.mem_filter.mp mem
    obtain ⟨image, apart⟩ := inv.copies c before
    refine ⟨image, fun l d listed => ?_⟩
    have listed' : (l, d) ∈ (lbid, ⟨currentVersion (hist lbid), place.1, place.2⟩) ::ₘ
        s.node.vbbm.table.entries := entries ▸ listed
    rcases mem_cons.mp listed' with same | old
    · obtain ⟨-, rfl⟩ := Prod.mk.inj same
      exact fun same => (of_decide_eq_true other) same.symm
    · exact apart l d old
  intro l
  have stored : slice l (confirmChanges { s.node with
        vss := v
        vbbm := Vbbm.insert hasher s.node.vbbm lbid
          ⟨currentVersion (hist lbid), place.1, place.2⟩ false }).vbbm.table.entries =
      slice l ((lbid, ⟨currentVersion (hist lbid), place.1, place.2⟩) ::ₘ
        s.node.vbbm.table.entries) := congrArg (slice l) entries
  rw [stored]
  by_cases here : l = lbid
  · subst here
    rw [update_self, slice_cons_self]
    exact (inv.good l).overwrite ⟨fun both => inv.least both.2, Nat.zero_le _⟩ newer
      (inv.not_sees running notReader)
      (inv.copies _ copied).1
  · rw [update_of_ne here, slice_cons_of_ne (Ne.symm here)]
    exact inv.good l

lemma Inv.finish (snapshot : s'.snapshot = s.snapshot)
    (sessions : s'.sessions = s.sessions.finishTransaction t) :
    (∀ u ∈ s'.sessions.active, 0 < u ∧ u ≤ s'.sessions.verID) ∧
      (context s').currentScn ≤ s'.sessions.verID ∧
      (∀ u ∈ s'.sessions.active, u ∈ (context s').txns ∨ (context s').currentScn < u) ∧
      0 ∉ (context s').txns := by
  obtain ⟨scn, txns, ended⟩ := context_finish snapshot sessions
  have verID : s'.sessions.verID = s.sessions.verID := by rw [sessions]; rfl
  rw [scn, verID]
  refine ⟨fun u running => ?_, inv.scn_le, fun u running => ?_, fun mem => ?_⟩
  · rw [sessions, mem_active_finish] at running
    exact inv.active_range u running.1
  · rw [sessions, mem_active_finish] at running
    rw [txns u running.2]
    exact inv.hidden u running.1
  by_cases zero : 0 = t
  · subst zero
    cases fixed : s.snapshot with
    | none => exact ended fixed mem
    | some known =>
      have before := inv.least
      unfold context at before mem
      rw [snapshot, fixed] at mem
      rw [fixed] at before
      exact before mem
  · exact inv.least ((txns 0 zero).mp mem)

lemma inv_commit (running : transID ∈ s.sessions.active) :
    Inv hasher vssHasher reader
      { endTransaction s transID with
        node := confirmChanges (vbCommit s.node transID).1
        committed := fun l => if (transID, l) ∈ s.taken then s.main l else s.committed l }
      fun l => commit transID (hist l) := by
  set s' : State Image := { endTransaction s transID with
    node := confirmChanges (vbCommit s.node transID).1
    committed := fun l => if (transID, l) ∈ s.taken then s.main l else s.committed l } with s'_eq
  have snapshot : s'.snapshot = s.snapshot := rfl
  have sessions : s'.sessions = s.sessions.finishTransaction transID := rfl
  have tracks := tracks_confirmChanges (vbCommit_tracks inv.tracks transID)
  obtain ⟨active_range, scn_le, hidden, least⟩ := inv.finish snapshot sessions
  have still : ∀ u, u ∈ s'.sessions.active ↔ u ∈ s.sessions.active ∧ u ≠ transID := fun u =>
    mem_active_finish
  have from_old : ∀ l b', commit transID (hist l) = some b' →
      ∃ b, hist l = some b ∧ b'.current = b.current ∧ b'.older = b.older ∧
        b'.locked = (b.locked && b.current ≠ transID) := by
    intro l b' known
    obtain ⟨b, before, rfl⟩ := map_eq_some_iff.mp known
    refine ⟨b, before, ?_⟩
    split_ifs with mine
    · simp [Block.unlock, mine]
    · simp [mine]
  refine ⟨tracks, rfl, rfl, active_range, scn_le, hidden, least, ?_, ?_, ?_, ?_, ?_, ?_, ?_⟩
  · intro l b' known
    obtain ⟨b, before, current, -⟩ := from_old l b' known
    rw [current]
    exact inv.current_le l b before
  · intro l b' known w mem active
    obtain ⟨b, before, -, older, -⟩ := from_old l b' known
    exact inv.older_ended l b before w (older ▸ mem) ((still w).mp active).1
  · intro l b' known
    obtain ⟨b, before, current, -, locked⟩ := from_old l b' known
    rw [locked, current, still, ← inv.locked_iff l b before]
    simp
  · intro t l
    rw [show (t, l) ∈ s'.taken ↔ (t, l) ∈ s.taken ∧ t ≠ transID by
      simp [s'_eq, endTransaction], inv.taken_iff t l, still]
    constructor
    · rintro ⟨⟨active, b, before, rfl⟩, other⟩
      exact ⟨⟨active, other⟩, b, by simp [commit, before, other], rfl⟩
    · rintro ⟨⟨active, other⟩, b', known, rfl⟩
      obtain ⟨b, before, current, -⟩ := from_old l b' known
      exact ⟨⟨active, b, before, current.symm⟩, other⟩
  · intro l mem
    exact inv.reader_reads l (List.mem_of_mem_filter mem)
  · intro c mem
    exact inv.copies c (List.mem_of_mem_filter mem)
  intro l
  have kept := (inv.good l).commit transID
  cases fixed : s.snapshot with
  | some known =>
    have sameContext : context s' = context s := by simp [context, s'_eq, endTransaction, fixed]
    have sameImages : expected s' = expected s := by
      simp [expected, s'_eq, endTransaction, fixed]
    rw [sameContext, sameImages]
    exact kept
  | none =>
    have images : expected s' l = if (transID, l) ∈ s.taken then s.main l else expected s l := by
      simp [expected, s'_eq, endTransaction, fixed]
    by_cases mine : (transID, l) ∈ s.taken
    · -- the transaction's version becomes visible, and it is the current one
      obtain ⟨-, b, before, rfl⟩ := (inv.taken_iff transID l).mp mine
      obtain ⟨-, -, ended⟩ := context_finish snapshot sessions
      have seen : sees (context s') reader b.current := by
        refine ⟨fun both => ended fixed both.2, ?_⟩
        simp only [context, s'_eq, endTransaction, fixed]
        exact inv.current_le l b before
      have unlocked : commit b.current (hist l) = some b.unlock := by
        simp [commit, before]
      have mapped : Shows (some b.unlock) _ _ := unlocked ▸ tracks.shows l
      rw [images, if_pos mine, unlocked]
      exact .of_current seen mapped.2
    rw [images, if_neg mine]
    refine kept.congr (fun b' known w mem => ?_) fun _ _ => rfl
    obtain ⟨b, before, current, older, -⟩ := from_old l b' known
    have mem' : w ∈ b.versions := by
      rwa [mem_versions, ← current, ← older, ← mem_versions]
    exact sees_finish snapshot sessions (inv.ne_of_not_taken running mine before mem')

lemma inv_rollback (protocol : Protocol hasher vssHasher reader s (.rollback transID)) :
    ∃ hist', Inv hasher vssHasher reader
      { endTransaction s transID with
        node := confirmChanges
          (vbRollback hasher vssHasher s.node transID (blocksTaken s transID)).1 } hist' := by
  obtain ⟨running, restored⟩ := protocol
  have mine : ∀ l ∈ blocksTaken s transID, ∃ b, hist l = some b ∧ b.current = transID :=
    fun l mem => ((inv.taken_iff transID l).mp (mem_blocksTaken.mp mem)).2
  obtain ⟨-, less, tracks⟩ := rollbackBlocks_tracks
    (n := { s.node with copylocks := CopyLock.rollback s.node.copylocks transID }) inv.tracks
    (blocksTaken s transID) (List.nodup_dedup _)
    (fun l mem => (mine l mem).imp fun b known => ⟨known.1, .inl known.2⟩) []
  set hist' : History := fun l => if l ∈ blocksTaken s transID then
    (hist l).bind fun b => b.undoWrite transID else hist l with hist'_eq
  set s' : State Image := { endTransaction s transID with
    node := confirmChanges
      (vbRollback hasher vssHasher s.node transID (blocksTaken s transID)).1 } with s'_eq
  have snapshot : s'.snapshot = s.snapshot := rfl
  have sessions : s'.sessions = s.sessions.finishTransaction transID := rfl
  obtain ⟨active_range, scn_le, hidden, least⟩ := inv.finish snapshot sessions
  have still : ∀ u, u ∈ s'.sessions.active ↔ u ∈ s.sessions.active ∧ u ≠ transID := fun u =>
    mem_active_finish
  have others : ∀ l, (transID, l) ∉ s.taken → hist' l = hist l := fun l free => by
    simp [hist'_eq, mem_blocksTaken, free]
  have back : ∀ l b, (transID, l) ∈ s.taken → hist l = some b → hist' l = b.rollback :=
    fun l b taken known => by
      obtain ⟨b₀, known₀, current⟩ := mine l (mem_blocksTaken.mpr taken)
      obtain rfl := some.inj (known.symm.trans known₀)
      simp [hist'_eq, mem_blocksTaken, taken, known, Block.undoWrite, current]
  -- a block after the rollback: as before, or back at an older version
  have from_old : ∀ l b', hist' l = some b' →
      (transID, l) ∉ s.taken ∧ hist l = some b' ∨
        (transID, l) ∈ s.taken ∧ ∃ b, hist l = some b ∧ b'.current ∈ b.older ∧
          b'.locked = false ∧ b'.older ⊆ b.older := by
    intro l b' known
    by_cases taken : (transID, l) ∈ s.taken
    · obtain ⟨b, before, -⟩ := mine l (mem_blocksTaken.mpr taken)
      rw [back l b taken before] at known
      exact .inr ⟨taken, b, before, Block.rollback_eq_some known⟩
    · exact .inl ⟨taken, (others l taken).symm.trans known⟩
  have tracks' := tracks_confirmChanges tracks
  refine ⟨hist', tracks', rfl, rfl, active_range, scn_le, hidden, least, ?_, ?_, ?_, ?_, ?_, ?_, ?_⟩
  · intro l b' known
    rcases from_old l b' known with ⟨-, before⟩ | ⟨-, b, before, old, -⟩
    · exact inv.current_le l b' before
    · exact (b.older_lt _ old).le.trans (inv.current_le l b before)
  · intro l b' known w mem active
    rcases from_old l b' known with ⟨-, before⟩ | ⟨-, b, before, -, -, older⟩
    · exact inv.older_ended l b' before w mem ((still w).mp active).1
    · exact inv.older_ended l b before w (older mem) ((still w).mp active).1
  · intro l b' known
    rw [still]
    rcases from_old l b' known with ⟨free, before⟩ | ⟨-, b, before, old, locked, -⟩
    · rw [inv.locked_iff l b' before, and_iff_left]
      exact inv.ne_of_not_taken running free before (mem_versions.mpr (.inl rfl))
    · simp [locked, inv.older_ended l b before _ old]
  · intro t l
    rw [show (t, l) ∈ s'.taken ↔ (t, l) ∈ s.taken ∧ t ≠ transID by
      simp [s'_eq, endTransaction], inv.taken_iff t l, still]
    constructor
    · rintro ⟨⟨active, b, before, rfl⟩, other⟩
      refine ⟨⟨active, other⟩, b, ?_, rfl⟩
      rw [others l, before]
      intro taken
      obtain ⟨b₀, known₀, current⟩ := mine l (mem_blocksTaken.mpr taken)
      obtain rfl := some.inj (before.symm.trans known₀)
      exact other current
    · rintro ⟨⟨active, other⟩, b', known, rfl⟩
      rcases from_old l b' known with ⟨-, before⟩ | ⟨-, b, before, old, -⟩
      · exact ⟨⟨active, b', before, rfl⟩, other⟩
      · exact absurd active (inv.older_ended l b before _ old)
  · intro l mem
    exact inv.reader_reads l (List.mem_of_mem_filter mem)
  · intro c mem
    obtain ⟨image, apart⟩ := inv.copies c (List.mem_of_mem_filter mem)
    exact ⟨image, fun l d listed => apart l d (mem_of_le less listed)⟩
  intro l
  have images : expected s' = expected s := by
    unfold expected
    rw [snapshot]
    rfl
  have seesSame : ∀ b', hist' l = some b' → ∀ w ∈ b'.versions,
      (sees (context s) reader w ↔ sees (context s') reader w) := by
    intro b' known w mem
    refine sees_finish snapshot sessions ?_
    rcases from_old l b' known with ⟨free, before⟩ | ⟨-, b, before, old, -, older⟩
    · exact inv.ne_of_not_taken running free before mem
    have older' : w ∈ b.older := by
      rcases mem_versions.mp mem with rfl | deeper
      · exact old
      · exact older deeper
    rintro rfl
    exact inv.older_ended l b before w older' running
  have lessHere : slice l s'.node.vbbm.table.entries ≤ slice l s.node.vbbm.table.entries :=
    map_le_map (filter_le_filter _ less)
  rw [images]
  refine Good.congr ?_ seesSame fun _ _ => rfl
  by_cases taken : (transID, l) ∈ s.taken
  · obtain ⟨b, before, current⟩ := mine l (mem_blocksTaken.mpr taken)
    have shown : Shows (some b) _ _ := before ▸ inv.tracks.shows l
    have good := inv.good l
    rw [before] at good
    rw [back l b taken before]
    refine good.rollback (current ▸ inv.not_sees_taken taken) shown.2 ?_ lessHere ?_
    · intro nonempty d mem version
      have old : d.verID ∈ b.older := version ▸ b.older.max'_mem nonempty
      refine restored l taken d.verID _ ?_ (inv.tracks.lookup_eq (mem_slice.mp mem))
      refine getHighestVerInVB_eq inv.tracks before old ?_ fun w mem' _ => ?_
      · exact current ▸ (b.older_lt _ old).le
      · exact version ▸ b.older.le_max' w mem'
    · intro ended
      have shown' : Shows (hist' l) _ _ := tracks'.shows l
      rw [back l b taken before, ended] at shown'
      exact shown'.2
  · rw [others l taken]
    exact (inv.good l).less lessHere

lemma inv_step {a : Action Image} (protocol : Protocol hasher vssHasher reader s a)
    (careful : Careful hasher vssHasher reader s a) (taken : step hasher vssHasher s a = some s') :
    ∃ hist', Inv hasher vssHasher reader s' hist' := by
  cases a with
  | newTxnID session =>
    cases taken
    exact ⟨hist, inv_newTxnID inv session⟩
  | beginVBCopy meanwhile currentFileSize transID vbOID ranges =>
    simp only [step] at taken
    split at taken
    case h_1 n freeList done =>
      cases taken
      exact inv_beginVBCopy inv careful done _
    case h_2 => cases taken
  | copyImage transID lbid place =>
    cases taken
    exact ⟨hist, inv_copyImage inv careful _⟩
  | writeVBEntry transID lbid place =>
    simp only [step] at taken
    rw [inv.tracks.currentVersion] at taken
    split_ifs at taken with accepted own
    · cases taken
      rw [writeVBEntry_of_not_newer inv.tracks (Nat.not_lt_of_le own.ge)]
      exact ⟨hist, { inv_sameTables inv rfl rfl s.granted with
        copies := fun c mem => inv.copies c (List.mem_of_mem_filter mem) }⟩
    cases taken
    by_cases newer : currentVersion (hist lbid) < transID
    · exact ⟨_, inv_writeVBEntry_newer inv protocol newer rfl⟩
    · rw [writeVBEntry_of_not_newer inv.tracks newer, if_neg own] at accepted
      cases accepted
  | overwrite transID lbid image =>
    cases taken
    exact ⟨hist, inv_setMain inv protocol.1 protocol.2 image⟩
  | endVBCopy ranges =>
    cases taken
    exact ⟨hist, inv_sameTables (n := (endVBCopy s.node ranges).1) inv rfl rfl s.granted⟩
  | commit transID =>
    cases taken
    exact ⟨_, inv_commit inv protocol⟩
  | restoreImage transID lbid =>
    obtain ⟨verID, -, restored⟩ := bind_eq_some_iff.mp taken
    obtain ⟨place, -, rfl⟩ := map_eq_some_iff.mp restored
    exact ⟨hist, inv_setMain inv protocol.1 protocol.2 _⟩
  | rollback transID =>
    simp only [step] at taken
    split_ifs at taken with done
    cases taken
    exact inv_rollback inv protocol
  | fixSnapshot =>
    simp only [step] at taken
    split at taken
    case h_1 free =>
      cases taken
      exact ⟨hist, inv_fixSnapshot inv free⟩
    case h_2 => cases taken

lemma Inv.readBlock_eq (lbid : LBID) :
    readBlock hasher vssHasher reader s (context s) lbid = some (expected s lbid) := by
  obtain ⟨v, reads, current, buffered⟩ := inv.good lbid
  unfold readBlock
  cases known : hist lbid with
  | none =>
    rw [known] at reads current
    rw [lookup_of_unchanged inv.tracks known]
    exact congrArg some (current reads)
  | some b =>
    rw [known] at reads current
    rw [lookup_of_reads inv.tracks known reads]
    rcases mem_versions.mp reads.1.1 with rfl | old
    · rw [decide_eq_false b.current_notMem_older]
      exact congrArg some (current rfl)
    obtain ⟨d, mem, rfl⟩ := inv.tracks.mapped_iff.mpr ⟨b, known, old⟩
    rw [decide_eq_true old]
    dsimp only
    rw [inv.tracks.lookup_eq mem]
    exact congrArg some (buffered d (mem_slice.mpr mem) rfl)

end

end System

end SnapshotInvariant
