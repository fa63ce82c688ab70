import ColumnStore.VersionHistory
import ColumnStore.VersionUndo

/-!
# Undoing writes of version buffer entries

A write enters one place in the VBBM and one or two versions in the VSS. When a table is full, the
insert copies it into a larger segment, and what the command did to it before can no longer be
undone. Growing at the first change of a table is harmless.
-/

namespace WriteUndo

open ChainedTable ChainedTable.Table BlockHistory List Vbbm VssInvariant VbbmInvariant
open Vss (LBID Ver VSS VSSData)
open SlaveNode VersionHistory VersionUndo

variable {hasher : LBID → Ver → Nat} {vssHasher : LBID → Nat} {transID : Ver} {n n₁ n' : Node}
  {lbid : LBID} {old : Ver}

/-- The tables after a write that moves the version `old` of a block to the version buffer. -/
structure Wrote (hasher : LBID → Ver → Nat) (vssHasher : LBID → Nat) (transID : Ver) (n : Node)
    (lbid : LBID) (old : Ver) (n' : Node) : Prop where
  vss : ∃ v₁,
    (if 0 < old then Vss.setVBFlag vssHasher n.vss lbid old true
      else .ok (Vss.insert vssHasher n.vss lbid ⟨old, true, false⟩ false)) = .ok v₁ ∧
    n'.vss = Vss.insert vssHasher v₁ lbid ⟨transID, false, true⟩ false
  vbbm : ∃ vbOID vbFBO, n'.vbbm = Vbbm.insert hasher n.vbbm lbid ⟨old, vbOID, vbFBO⟩ false
  copylocks : n'.copylocks = n.copylocks

/-- A sequence of such writes. -/
inductive Writes (hasher : LBID → Ver → Nat) (vssHasher : LBID → Nat) (transID : Ver) :
    Node → List (LBID × Ver) → Node → Prop
  | nil (n : Node) : Writes hasher vssHasher transID n [] n
  | cons {n n₁ n' : Node} {lbid : LBID} {old : Ver} {rest : List (LBID × Ver)}
      (first : Wrote hasher vssHasher transID n lbid old n₁)
      (later : Writes hasher vssHasher transID n₁ rest n') :
      Writes hasher vssHasher transID n ((lbid, old) :: rest) n'

/-- The blocks that a command writes, with the versions it moves to the version buffer: a block is
written once, not at all when its current version is the transaction's own, and a block with a
later version ends the command. -/
def written (vssHasher : LBID → Nat) (v : VSS) (transID : Ver) :
    List LBID → List LBID → List (LBID × Ver)
  | _, [] => []
  | seen, lbid :: rest =>
    let old := (Vss.getCurrentVersion vssHasher v lbid).1
    if lbid ∈ seen ∨ old = transID then written vssHasher v transID seen rest
    else if transID < old then []
    else (lbid, old) :: written vssHasher v transID (lbid :: seen) rest

lemma mem_written {v : VSS} {seen lbids : List LBID} {w : LBID × Ver}
    (mem : w ∈ written vssHasher v transID seen lbids) :
    w.2 = (Vss.getCurrentVersion vssHasher v w.1).1 := by
  fun_induction written vssHasher v transID seen lbids with
  | case1 => cases mem
  | case2 seen lbid rest old skip ih => exact ih mem
  | case3 => cases mem
  | case4 seen lbid rest old go notLater ih =>
    rcases mem_cons.mp mem with rfl | later
    · rfl
    · exact ih later

lemma wrote_of_newer {hist : History} (tracks : Tracks hasher vssHasher n.vss n.vbbm.table hist)
    (newer : currentVersion (hist lbid) < transID)
    (free : ∀ b, hist lbid = some b → b.locked = false) (vbOID vbFBO : Nat) :
    (writeVBEntry hasher vssHasher n transID lbid vbOID vbFBO).2 = 0 ∧
      Wrote hasher vssHasher transID n lbid (currentVersion (hist lbid))
        (writeVBEntry hasher vssHasher n transID lbid vbOID vbFBO).1 := by
  obtain ⟨v₁, flagged, -⟩ := vss_overwrite tracks.vss (tracks.shows lbid) newer free
  unfold writeVBEntry
  rw [tracks.currentVersion, if_neg newer.ne, if_neg newer.not_gt]
  simp only [flagged]
  exact ⟨trivial, ⟨v₁, flagged, rfl⟩, ⟨vbOID, vbFBO, rfl⟩, rfl⟩

lemma writes_of_bulkWriteVBEntry {hist : History} {v : VSS} (vbOID : Nat)
    (blocks : List (LBID × Nat)) (seen : List LBID)
    (tracks : Tracks hasher vssHasher n.vss n.vbbm.table hist)
    (notHeld : ∀ e ∈ blocks, NotHeld hist transID e.1)
    (done : ∀ l ∈ seen, currentVersion (hist l) = transID)
    (ahead : ∀ l ∉ seen, (Vss.getCurrentVersion vssHasher v l).1 = currentVersion (hist l)) :
    Writes hasher vssHasher transID n (written vssHasher v transID seen (blocks.map Prod.fst))
      (bulkWriteVBEntry hasher vssHasher transID vbOID blocks n).1 := by
  induction blocks generalizing n hist seen with
  | nil => exact .nil n
  | cons e rest ih =>
    obtain ⟨lbid, vbFBO⟩ := e
    have notHeld' : ∀ e ∈ rest, NotHeld hist transID e.1 := fun e mem =>
      notHeld e (mem_cons_of_mem _ mem)
    have again : currentVersion (hist lbid) = transID →
        writeVBEntry hasher vssHasher n transID lbid vbOID vbFBO = (n, 0) := fun same => by
      rw [writeVBEntry_of_not_newer tracks same.not_lt, if_pos same]
    simp only [bulkWriteVBEntry, map_cons, written]
    by_cases skip : lbid ∈ seen ∨ (Vss.getCurrentVersion vssHasher v lbid).1 = transID
    · have same : currentVersion (hist lbid) = transID := by
        by_cases mem : lbid ∈ seen
        · exact done lbid mem
        · exact (ahead lbid mem).symm.trans (skip.resolve_left mem)
      rw [if_pos skip, again same]
      exact ih seen tracks notHeld' done ahead
    obtain ⟨fresh, other⟩ := not_or.mp skip
    rw [if_neg skip, ahead lbid fresh]
    rw [ahead lbid fresh] at other
    by_cases later : transID < currentVersion (hist lbid)
    · rw [if_pos later, writeVBEntry_of_not_newer tracks later.not_gt, if_neg other]
      exact .nil n
    have newer : currentVersion (hist lbid) < transID :=
      lt_of_le_of_ne (Nat.le_of_not_lt later) other
    have free := (notHeld (lbid, vbFBO) (mem_cons_self ..)).free newer
    obtain ⟨code, wrote⟩ := wrote_of_newer tracks newer free vbOID vbFBO
    obtain ⟨v₁, result, tracks'⟩ := writeVBEntry_newer tracks newer free vbOID vbFBO
    rw [if_neg later, if_pos code]
    refine .cons wrote (ih (lbid :: seen) (by rw [result]; exact tracks')
      (fun e mem => (notHeld' e mem).overwrite newer) ?_ ?_)
    · intro l mem
      by_cases same : l = lbid
      · subst same
        rw [Function.update_self]
        exact overwrite_current ..
      · rw [Function.update_of_ne same]
        exact done l ((mem_cons.mp mem).resolve_left same)
    · intro l mem
      obtain ⟨same, notSeen⟩ := not_or.mp (mt mem_cons.mpr mem)
      rw [Function.update_of_ne same]
      exact ahead l notSeen

variable {writes : List (LBID × Ver)}

lemma Writes.copylocks_eq (done : Writes hasher vssHasher transID n writes n') :
    n'.copylocks = n.copylocks := by
  induction done with
  | nil => rfl
  | cons first _ ih => exact ih.trans first.copylocks

section Substitution

variable {v v₁ : VSS}

/-- The versions a write enters: the old one too when the block had none. -/
def cost (old : Ver) : Nat :=
  if old = 0 then 2 else 1

def insertions (writes : List (LBID × Ver)) : Nat :=
  (writes.map fun w => cost w.2).sum

lemma vss_insert (sound : Sound vssHasher v) (lbid : LBID) (d : VSSData) :
    let v' := Vss.insert vssHasher v lbid d false
    Sound vssHasher v' ∧ v'.header.currentSize = v.header.currentSize + 1 ∧
      (v.header.currentSize < v.header.capacity ∧ v'.undoChanges = v.undoChanges ∧
          v'.header.capacity = v.header.capacity ∨
        Full v ∧ v'.undoChanges = (Vss.growVSS vssHasher v).confirmChanges ∧
          v'.undoChanges.header.currentSize = v.header.currentSize ∧
          v'.header.capacity = v.header.capacity + Vss.storageIncrementCount) := by
  obtain ⟨sound', entries⟩ := insert_spec sound lbid d false
  refine ⟨sound', ?_, ?_⟩
  · rw [sound'.sized, entries, Multiset.card_cons, sound.sized]
  by_cases full : Full v
  · have undone := undoChanges_insert_of_full sound full lbid d
    have header := (growVSS_copied sound full).header
    refine .inr ⟨full, undone, ?_, ?_⟩
    · rw [undone]
      exact (congrArg Header.currentSize header).trans rfl
    have grown : Vss.roomFor vssHasher v = Vss.growVSS vssHasher v := if_pos full
    show (Vss.roomFor vssHasher v).header.capacity = _
    rw [grown]
    exact congrArg Header.capacity header
  have same : Vss.roomFor vssHasher v = v := if_neg full
  refine .inl ⟨lt_of_le_of_ne sound.size_le full,
    (logged_insert vssHasher full lbid d).undoChanges, ?_⟩
  show (Vss.roomFor vssHasher v).header.capacity = _
  rw [same]

lemma vss_setVBFlag {verID : Ver} {vbFlag : Bool}
    (done : Vss.setVBFlag vssHasher v lbid verID vbFlag = .ok v₁) :
    v₁.header = v.header ∧ v₁.undoChanges = v.undoChanges := by
  refine ⟨?_, (logged_setVBFlag done).undoChanges⟩
  unfold Vss.setVBFlag at done
  split at done
  · cases done
  · cases done
    rfl

/-- A write that fits can be undone; another one grows the table, and only if it does so before it
has changed anything, nothing else is left of it. -/
lemma Wrote.vss_undo (sound : Sound vssHasher n.vss)
    (wrote : Wrote hasher vssHasher transID n lbid old n') :
    Sound vssHasher n'.vss ∧
      n'.vss.header.currentSize = n.vss.header.currentSize + cost old ∧
      n.vss.header.capacity ≤ n'.vss.header.capacity ∧
      (n.vss.header.currentSize + cost old ≤ n.vss.header.capacity →
        n'.vss.undoChanges = n.vss.undoChanges ∧
          n'.vss.header.capacity = n.vss.header.capacity) ∧
      (n.vss.header.capacity < n.vss.header.currentSize + cost old →
        n.vss.header.currentSize ≤ n'.vss.undoChanges.header.currentSize ∧
        (old = 0 ∧ Full n.vss ∧ n'.vss.undoChanges = (Vss.growVSS vssHasher n.vss).confirmChanges ∧
            n'.vss.header.capacity = n.vss.header.capacity + Vss.storageIncrementCount ∨
          old = 0 ∧ ¬ Full n.vss ∧
            n'.vss.undoChanges.header.currentSize ≠ n.vss.header.currentSize ∨
          0 < old ∧ ∃ v₁, Vss.setVBFlag vssHasher n.vss lbid old true = .ok v₁ ∧ Full v₁ ∧
            n'.vss.undoChanges = (Vss.growVSS vssHasher v₁).confirmChanges)) := by
  obtain ⟨v₁, flagged, last⟩ := wrote.vss
  rw [last]
  by_cases first : 0 < old
  · rw [if_pos first] at flagged
    obtain ⟨header, undone⟩ := vss_setVBFlag flagged
    obtain ⟨sound₁, -⟩ := setVBFlag_ok sound flagged
    obtain ⟨sound₂, size, outcome⟩ := vss_insert sound₁ lbid ⟨transID, false, true⟩
    have one : cost old = 1 := if_neg (Nat.pos_iff_ne_zero.mp first)
    rw [header, undone] at outcome
    rw [header] at size
    rcases outcome with ⟨room, same, capacity⟩ | ⟨full, grown, kept, capacity⟩
    · exact ⟨sound₂, by omega, by omega, fun _ => ⟨same, capacity⟩, by omega⟩
    · have atEnd : n.vss.header.currentSize = n.vss.header.capacity := header ▸ full
      exact ⟨sound₂, by omega, by omega, by omega,
        fun _ => ⟨kept.ge, .inr (.inr ⟨first, v₁, flagged, full, grown⟩)⟩⟩
  obtain rfl : old = 0 := Nat.eq_zero_of_not_pos first
  cases flagged
  obtain ⟨sound₁, size₁, outcome₁⟩ := vss_insert sound lbid ⟨0, true, false⟩
  obtain ⟨sound₂, size₂, outcome₂⟩ := vss_insert sound₁ lbid ⟨transID, false, true⟩
  have two : cost 0 = 2 := rfl
  have increment : 2 ≤ Vss.storageIncrementCount := by decide
  rcases outcome₁ with ⟨room, same₁, capacity₁⟩ | ⟨full, grown, kept₁, capacity₁⟩ <;>
    rcases outcome₂ with ⟨room₂, same₂, capacity₂⟩ | ⟨full₂, -, kept₂, capacity₂⟩
  · exact ⟨sound₂, by omega, by omega,
      fun _ => ⟨same₂.trans same₁, capacity₂.trans capacity₁⟩, by omega⟩
  · unfold Full at full₂
    exact ⟨sound₂, by omega, by omega, by omega,
      fun _ => ⟨by omega, .inr (.inl ⟨rfl, room.ne, by omega⟩)⟩⟩
  · refine ⟨sound₂, by omega, by omega, fun fits => ?_, fun _ => ⟨same₂ ▸ kept₁.ge,
      .inl ⟨rfl, full, same₂.trans grown, capacity₂.trans capacity₁⟩⟩⟩
    unfold Full at full
    omega
  · unfold Full at full full₂
    omega

section

variable (done : Writes hasher vssHasher transID n writes n')
  (sound : VssInvariant.Sound vssHasher n.vss)
include done sound

/-- Further writes of a command: as long as they fit they can be undone, and once they do not, what
was there before them stays. -/
lemma Writes.vss_undo :
    (n.vss.header.currentSize + insertions writes ≤ n.vss.header.capacity →
        n'.vss.undoChanges = n.vss.undoChanges) ∧
      (n.vss.header.capacity < n.vss.header.currentSize + insertions writes →
        n.vss.header.currentSize ≤ n'.vss.undoChanges.header.currentSize) := by
  induction done with
  | nil n =>
    refine ⟨fun _ => rfl, fun exceeds => ?_⟩
    have := sound.size_le
    simp only [insertions, map_nil, sum_nil] at exceeds
    omega
  | @cons n n₁ n' lbid old rest first later ih =>
    obtain ⟨sound₁, size, -, kept, beyond⟩ := first.vss_undo sound
    obtain ⟨fits, exceeds⟩ := ih sound₁
    have total : insertions ((lbid, old) :: rest) = cost old + insertions rest := sum_cons
    refine ⟨fun room => ?_, fun _ => ?_⟩
    · obtain ⟨undone, -⟩ := kept (by omega)
      exact (fits (by omega)).trans undone
    by_cases late : n₁.vss.header.capacity < n₁.vss.header.currentSize + insertions rest
    · exact (Nat.le.intro size.symm).trans (exceeds late)
    rw [fits (by omega)]
    by_cases now : n.vss.header.capacity < n.vss.header.currentSize + cost old
    · exact (beyond now).1
    · omega

/-- The writes of a command fit into the VSS, or a full VSS grows before anything else changes. -/
def VssFits (v : VSS) (writes : List (LBID × Ver)) : Prop :=
  v.header.currentSize + insertions writes ≤ v.header.capacity ∨
    writes.head?.map Prod.snd = some 0 ∧ Full v ∧ insertions writes ≤ Vss.storageIncrementCount

/-- Writes that fit are undone up to the size of the table; others leave a trace in the size or in
the flag of the first version. -/
lemma Writes.vss_outcome (settled : n.vss.undo = []) :
    (VssFits n.vss writes → n'.vss.undoChanges = n.vss ∨
        Full n.vss ∧ n'.vss.undoChanges = (Vss.growVSS vssHasher n.vss).confirmChanges) ∧
      (¬ VssFits n.vss writes →
        n'.vss.undoChanges.header.currentSize ≠ n.vss.header.currentSize ∨
        ∃ w v₁, writes.head? = some w ∧ 0 < w.2 ∧
          Vss.setVBFlag vssHasher n.vss w.1 w.2 true = .ok v₁ ∧ Full v₁ ∧
          n'.vss.undoChanges = (Vss.growVSS vssHasher v₁).confirmChanges) := by
  have clean : n.vss.undoChanges = n.vss := (Logged.refl _).undoChanges_eq settled
  have whole := done.vss_undo sound
  cases done with
  | nil =>
    refine ⟨fun _ => .inl clean, fun late => absurd (.inl ?_) late⟩
    exact sound.size_le
  | @cons _ n₁ _ lbid old rest first later =>
    obtain ⟨sound₁, size, -, kept, grown⟩ := first.vss_undo sound
    have positive : 0 < cost old := by
      unfold cost
      split_ifs <;> decide
    have total : insertions ((lbid, old) :: rest) = cost old + insertions rest := sum_cons
    obtain ⟨fits, beyond⟩ := later.vss_undo sound₁
    constructor
    · rintro (room | ⟨zero, full, small⟩)
      · exact .inl ((whole.1 room).trans clean)
      obtain rfl : old = 0 := Option.some.inj zero
      have exceeds : n.vss.header.capacity < n.vss.header.currentSize + cost 0 := by
        unfold Full at full
        omega
      rcases (grown exceeds).2 with ⟨-, -, undone, capacity⟩ | ⟨-, room, -⟩ | ⟨pos, -⟩
      · refine .inr ⟨full, (fits ?_).trans undone⟩
        unfold Full at full
        omega
      · exact absurd full room
      · exact absurd pos (Nat.lt_irrefl 0)
    intro late
    obtain ⟨exceeds, notFirst⟩ := not_or.mp late
    by_cases again : n₁.vss.header.capacity < n₁.vss.header.currentSize + insertions rest
    · exact .inl (by omega)
    rw [fits (by omega)]
    have now : n.vss.header.capacity < n.vss.header.currentSize + cost old := by
      by_contra room
      omega
    rcases (grown now).2 with ⟨rfl, full, -, capacity⟩ | ⟨-, -, differs⟩ | ⟨pos, v₁, flagged⟩
    · refine absurd ⟨rfl, full, ?_⟩ notFirst
      unfold Full at full
      omega
    · exact .inl differs
    · exact .inr ⟨(lbid, old), v₁, rfl, pos, flagged⟩

end

end Substitution

section BlockMap

lemma vbbm_insert {b : VBBM} (sound : Sound hasher b.table) (lbid : LBID) (d : VBBMData) :
    let b' := insert hasher b lbid d false
    b'.table.header.currentSize = b.table.header.currentSize + 1 ∧
      (b.table.header.currentSize < b.table.header.capacity ∧
          undoChanges b' = undoChanges b ∧
          b'.table.header.capacity = b.table.header.capacity ∨
        b.table.header.currentSize = b.table.header.capacity ∧
          undoChanges b' = growVBBM hasher b false ∧
          b'.table.header.capacity = b.table.header.capacity + storageIncrementCount) := by
  have undone := undoChanges_insert hasher sound lbid d
  by_cases full : b.table.header.currentSize = b.table.header.capacity
  · have grown : roomFor hasher b = growVBBM hasher b false := if_pos full
    have header := (growVBBM_copied sound false).header
    rw [if_pos full] at undone
    refine ⟨?_, .inr ⟨full, undone, ?_⟩⟩
    · show (roomFor hasher b).table.header.currentSize + 1 = _
      rw [grown, header]
      rfl
    · show (roomFor hasher b).table.header.capacity = _
      rw [grown, header]
      rfl
  · obtain ⟨size, capacity⟩ := insert_header hasher full lbid d false
    rw [if_neg full] at undone
    exact ⟨size, .inl ⟨lt_of_le_of_ne sound.size_le full, undone, capacity⟩⟩

lemma growVBBM_of_full {b : VBBM} (sound : Sound hasher b.table)
    (full : b.table.header.currentSize = b.table.header.capacity) :
    Sound hasher (growVBBM hasher b false).table ∧
      (growVBBM hasher b false).table.entries = b.table.entries :=
  ⟨(growVBBM_spec sound false).1,
    growVBBM_entries_of_compact sound (fun _ inside _ => full ▸ inside) false⟩

variable (done : Writes hasher vssHasher transID n writes n')
include done

lemma Writes.vbbm_undo
    (sound : Sound hasher n.vbbm.table) :
    (n.vbbm.table.header.currentSize + writes.length ≤ n.vbbm.table.header.capacity →
        undoChanges n'.vbbm = undoChanges n.vbbm) ∧
      (n.vbbm.table.header.capacity < n.vbbm.table.header.currentSize + writes.length →
        Sound hasher (undoChanges n'.vbbm).table ∧
          n.vbbm.table.entries ≤ (undoChanges n'.vbbm).table.entries) := by
  induction done with
  | nil n =>
    have := sound.size_le
    exact ⟨fun _ => rfl, fun exceeds => absurd exceeds (by simpa using this)⟩
  | @cons n n₁ n' lbid old rest first later ih =>
    obtain ⟨vbOID, vbFBO, entered⟩ := first.vbbm
    obtain ⟨size, outcome⟩ := vbbm_insert sound lbid ⟨old, vbOID, vbFBO⟩
    obtain ⟨sound₁, entries, -⟩ :=
      insert_spec sound lbid ⟨old, vbOID, vbFBO⟩ false
    rw [← entered] at size outcome sound₁ entries
    obtain ⟨fits, exceeds⟩ := ih sound₁
    rw [length_cons]
    refine ⟨fun room => ?_, fun beyond => ?_⟩
    · rcases outcome with ⟨-, undone, capacity⟩ | ⟨full, -⟩
      · exact (fits (by omega)).trans undone
      · omega
    by_cases late : n₁.vbbm.table.header.capacity <
        n₁.vbbm.table.header.currentSize + rest.length
    · obtain ⟨sound', le⟩ := exceeds late
      exact ⟨sound', (entries ▸ Multiset.le_cons_self ..).trans le⟩
    rw [fits (by omega)]
    rcases outcome with ⟨-, -, capacity⟩ | ⟨full, undone, -⟩
    · omega
    · obtain ⟨sound', same⟩ := growVBBM_of_full sound full
      rw [undone]
      exact ⟨sound', same.ge⟩

/-- The writes of a command fit into the VBBM, or a full VBBM grows before anything else changes. -/
def VbbmFits (b : VBBM) (writes : List (LBID × Ver)) : Prop :=
  b.table.header.currentSize + writes.length ≤ b.table.header.capacity ∨
    b.table.header.currentSize = b.table.header.capacity ∧
      writes.length ≤ Vbbm.storageIncrementCount

/-- Writes that fit are undone up to the size of the table; otherwise the first place entered
stays. -/
lemma Writes.vbbm_outcome
    (settled : VersionBufferSpace.Settled hasher n.vbbm) :
    (VbbmFits n.vbbm writes → undoChanges n'.vbbm = n.vbbm ∨
        n.vbbm.table.header.currentSize = n.vbbm.table.header.capacity ∧
          undoChanges n'.vbbm = growVBBM hasher n.vbbm false) ∧
      (¬ VbbmFits n.vbbm writes → Sound hasher (undoChanges n'.vbbm).table ∧
        ∃ w, writes.head? = some w ∧ ∃ d, d.verID = w.2 ∧
          (w.1, d) ∈ (undoChanges n'.vbbm).table.entries) := by
  have sound := settled.sound
  have clean := settled.undoChanges_eq
  have whole := done.vbbm_undo sound
  cases done with
  | nil => exact ⟨fun _ => .inl clean, fun late => absurd (.inl sound.size_le) late⟩
  | @cons _ n₁ _ lbid old rest first later =>
    obtain ⟨vbOID, vbFBO, entered⟩ := first.vbbm
    obtain ⟨size, outcome⟩ := vbbm_insert sound lbid ⟨old, vbOID, vbFBO⟩
    obtain ⟨sound₁, entries, -⟩ :=
      insert_spec sound lbid ⟨old, vbOID, vbFBO⟩ false
    rw [← entered] at size outcome sound₁ entries
    obtain ⟨fits, beyond⟩ := later.vbbm_undo sound₁
    unfold VbbmFits
    rw [length_cons]
    constructor
    · rintro (room | ⟨full, small⟩)
      · exact .inl ((whole.1 room).trans clean)
      · rcases outcome with ⟨room, -⟩ | ⟨-, undone, capacity⟩
        · omega
        · exact .inr ⟨full, (fits (by omega)).trans undone⟩
    intro late
    have again : n₁.vbbm.table.header.capacity <
        n₁.vbbm.table.header.currentSize + rest.length := by
      rcases outcome with ⟨-, -, capacity⟩ | ⟨full, -, capacity⟩
      · omega
      · omega
    obtain ⟨sound', le⟩ := beyond again
    refine ⟨sound', _, rfl, ⟨old, vbOID, vbFBO⟩, rfl, Multiset.mem_of_le le ?_⟩
    rw [entries]
    exact Multiset.mem_cons_self ..

end BlockMap

end WriteUndo
