import ColumnStore.RowSpill

/-!
# Rows survive a dump

A session is a storage with what its users know: the indices handed out and the value last
written to each column of each row. In every run in which no row group is dumped while its string
table has long strings, `getRow` gives each row with the values last written to it. A long string
is lost with the first dump: it is beside the buffer that reaches the file.
-/

namespace RowSpill

open ByteStrings ByteReaders ByteBuffers StringTable Runs List Nat
open Reads (whole pure bind)
open Option (some bind_eq_some_iff map_eq_some_iff map_some join_some bind_eq_bind bind_some
  ite_none_right_eq_some)

namespace RowGroup

variable {rg : RowGroup} {col col' : Nat} {column column' : Column}

lemma offset_mono (order : col ≤ col') : rg.offset col ≤ rg.offset col' := by
  obtain ⟨-, rfl⟩ := Nat.exists_eq_add_of_le order
  rw [offset, offset, take_add, map_append, List.sum_append_nat]
  omega

section

variable (found : rg.columns[col]? = some column)
include found

lemma offset_succ :
    rg.offset (col + 1) = rg.offset col + rg.fieldWidth column := by
  obtain ⟨within, rfl⟩ := List.getElem?_eq_some_iff.mp found
  rw [offset, offset, take_succ_eq_append_getElem within, map_append, Nat.add_assoc]
  simp

lemma field_le :
    rg.offset col + rg.fieldWidth column ≤ rg.getInternalSize := by
  rw [← offset_succ found]
  exact offset_mono (List.getElem?_eq_some_iff.mp found).1

lemma fields_apart
    (found' : rg.columns[col']? = some column') (other : col ≠ col') :
    rg.offset col + rg.fieldWidth column ≤ rg.offset col' ∨
      rg.offset col' + rg.fieldWidth column' ≤ rg.offset col := by
  rw [← offset_succ found, ← offset_succ found']
  rcases lt_or_gt_of_ne other with before | after
  · exact .inl (offset_mono before)
  · exact .inr (offset_mono after)

end

lemma row_le {rid n : Nat} (below : rid < n) :
    rg.rowPlace rid + rg.getRowSize ≤ rg.getDataSize n := by
  have rows : (rid + 1) * rg.getRowSize ≤ n * rg.getRowSize := Nat.mul_le_mul_right _ below
  rw [Nat.add_mul] at rows
  unfold rowPlace getDataSize
  omega

lemma rows_apart {rid rid' a n b m : Nat} (other : rid ≠ rid') (first : a + n ≤ rg.getRowSize)
    (second : b + m ≤ rg.getRowSize) :
    rg.rowPlace rid + a + n ≤ rg.rowPlace rid' + b ∨
      rg.rowPlace rid' + b + m ≤ rg.rowPlace rid + a := by
  rcases lt_or_gt_of_ne other with before | after
  · have := rg.row_le before
    unfold rowPlace getDataSize at *
    omega
  · have := rg.row_le after
    unfold rowPlace getDataSize at *
    omega

end RowGroup

variable {cfg : Setting} {rgd rgd' : RGData} {rid rid' col col' : Nat} {column : Column}

/-- A row group of the storage. -/
structure Sound (cfg : Setting) (rgd : RGData) : Prop where
  size : rgd.rowData.length = cfg.rowGroupOut.getDataSize cfg.fMaxRows
  table : rgd.strings.isSome = cfg.rowGroupOut.usesStringTable
  wellFormed : ∀ store, rgd.strings = some store → store.WellFormed
  count : rgd.getRowCount ≤ cfg.fMaxRows

/-- A field and the string table hold a value. -/
def Represents (rg : RowGroup) (column : Column) (strings : Option StringStore)
    (field : List Byte) :
    Value → Prop
  | .inside bytes => rg.inStringTable column = false ∧ field = bytes
  | .stored string => rg.inStringTable column = true ∧
      ∃ store, strings = some store ∧ store.Stored (littleEndian field) string

/-- A row of a row group has a value in a column. -/
def HasValue (cfg : Setting) (rgd : RGData) (rid col : Nat) (value : Value) : Prop :=
  ∃ column, cfg.rowGroupOut.columns[col]? = some column ∧ rid < rgd.getRowCount ∧
    Represents cfg.rowGroupOut column rgd.strings
      (rgd.getField cfg.rowGroupOut rid col column) value

lemma HasValue.getColumn {value : Value} (has : HasValue cfg rgd rid col value)
    (found : cfg.rowGroupOut.columns[col]? = some column)
    {read : StringStore → Nat → Option (List Byte)}
    (reads : ∀ store off string, store.Stored off string → read store off = string) :
    rgd.getColumn cfg.rowGroupOut read rid col column = value := by
  obtain ⟨column', found', -, represents⟩ := has
  obtain rfl : column' = column := some.inj (found'.symm.trans found)
  unfold RGData.getColumn
  cases value with
  | inside bytes =>
    obtain ⟨inRow, same⟩ := represents
    simp only [inRow, same]
  | stored string =>
    obtain ⟨inTable, store, isStore, stored⟩ := represents
    simp only [inTable, isStore, reads _ _ _ stored]

/-- A row group keeps the rows of another and its values in the spared cells. -/
structure Keeps (cfg : Setting) (spared : Nat → Nat → Prop) (rgd rgd' : RGData) : Prop where
  sound : Sound cfg rgd'
  rows : rgd.getRowCount ≤ rgd'.getRowCount
  values : ∀ rid col value, spared rid col → HasValue cfg rgd rid col value →
    HasValue cfg rgd' rid col value

lemma Keeps.trans {first second : Nat → Nat → Prop} {rgd'' : RGData}
    (one : Keeps cfg first rgd rgd') (two : Keeps cfg second rgd' rgd'') :
    Keeps cfg (fun rid col => first rid col ∧ second rid col) rgd rgd'' :=
  ⟨two.sound, one.rows.trans two.rows, fun rid col value spared has =>
    two.values rid col value spared.2 (one.values rid col value spared.1 has)⟩

lemma littleEndian_word {n v : Nat} (small : v < 2 ^ (8 * n)) :
    littleEndian (bytes n (BitVec.ofNat (8 * n) v)) = v := by
  rw [littleEndian_bytes, BitVec.toNat_ofNat, mod_eq_of_lt small, mod_eq_of_lt small]

lemma maxRows_lt (cfg : Setting) : cfg.fMaxRows < 2 ^ 32 := by
  have rowSize : 0 < cfg.rowGroupOut.getRowSize := by
    unfold RowGroup.getRowSize RowGroup.getInternalSize RowGroup.offset
    omega
  have := Nat.le_mul_of_pos_right cfg.fMaxRows rowSize
  have fits := cfg.fits
  unfold RowGroup.getDataSize at fits
  omega

lemma getRowCount_new (cfg : Setting) :
    (RGData.new cfg.rowGroupOut cfg.fMaxRows).getRowCount = 0 := by
  have zeros : slice (RGData.new cfg.rowGroupOut cfg.fMaxRows).rowData 0 4 =
      replicate 4 0 := by
    unfold RGData.new slice RowGroup.getDataSize headerSize
    rw [drop_zero, take_replicate, min_eq_left (by omega)]
  rw [RGData.getRowCount, zeros]
  decide

lemma sound_new (cfg : Setting) : Sound cfg (.new cfg.rowGroupOut cfg.fMaxRows) := by
  refine ⟨length_replicate, ?_, ?_, getRowCount_new cfg ▸ zero_le _⟩
  · unfold RGData.new
    split <;> simp_all
  intro store isStore
  unfold RGData.new at isStore
  split at isStore
  · cases isStore
    exact StringStore.wellFormed_new
  · cases isStore

lemma field_le_rowSize (found : cfg.rowGroupOut.columns[col]? = some column) :
    cfg.rowGroupOut.offset col + cfg.rowGroupOut.fieldWidth column ≤
      cfg.rowGroupOut.getRowSize :=
  (RowGroup.field_le found).trans (le_add_right _ _)

section

variable (sound : Sound cfg rgd)
include sound

lemma splice_row (below : rid < cfg.fMaxRows) (a : Nat) (new : List Byte)
    (inside : a + new.length ≤ cfg.rowGroupOut.getRowSize) :
    (splice rgd.rowData (cfg.rowGroupOut.rowPlace rid + a) new).length = rgd.rowData.length ∧
    slice (splice rgd.rowData (cfg.rowGroupOut.rowPlace rid + a) new) 0 4 =
      slice rgd.rowData 0 4 ∧
    slice (splice rgd.rowData (cfg.rowGroupOut.rowPlace rid + a) new)
      (cfg.rowGroupOut.rowPlace rid + a) new.length = new ∧
    ∀ rid' b m, b + m ≤ cfg.rowGroupOut.getRowSize →
      (rid ≠ rid' ∨ a + new.length ≤ b ∨ b + m ≤ a) →
      slice (splice rgd.rowData (cfg.rowGroupOut.rowPlace rid + a) new)
        (cfg.rowGroupOut.rowPlace rid' + b) m =
        slice rgd.rowData (cfg.rowGroupOut.rowPlace rid' + b) m := by
  have room : cfg.rowGroupOut.rowPlace rid + a + new.length ≤ rgd.rowData.length := by
    have := cfg.rowGroupOut.row_le below
    have := sound.size
    omega
  refine ⟨length_splice room, slice_splice_of_apart room (.inl ?_), slice_splice room, ?_⟩
  · unfold RowGroup.rowPlace headerSize
    omega
  intro rid' b m inside' apart
  refine slice_splice_of_apart room ?_
  by_cases same : rid = rid'
  · subst same
    omega
  · exact (RowGroup.rows_apart same inside inside').symm

/-- Bytes are written that no field but the excepted ones has. -/
lemma keeps_of_fields {spared : Nat → Nat → Prop} (strings : rgd.strings = rgd'.strings)
    (size : rgd'.rowData.length = rgd.rowData.length) (rows : rgd.getRowCount ≤ rgd'.getRowCount)
    (count : rgd'.getRowCount ≤ cfg.fMaxRows)
    (fields : ∀ rid col column, spared rid col → cfg.rowGroupOut.columns[col]? = some column →
      rgd'.getField cfg.rowGroupOut rid col column = rgd.getField cfg.rowGroupOut rid col column) :
    Keeps cfg spared rgd rgd' := by
  refine ⟨⟨size.trans sound.size, strings ▸ sound.table, strings ▸ sound.wellFormed, count⟩,
    rows, ?_⟩
  rintro rid col value spares ⟨column, found, inRows, represents⟩
  refine ⟨column, found, inRows.trans_le rows, ?_⟩
  rw [fields rid col column spares found, ← strings]
  exact represents

lemma keeps_setNullMark (below : rid < cfg.fMaxRows)
    (found : cfg.rowGroupOut.columns[col]? = some column) (isNull : Bool) :
    Keeps cfg (fun _ _ => True) rgd (rgd.setNullMark cfg.rowGroupOut rid col isNull) := by
  have within := (List.getElem?_eq_some_iff.mp found).1
  obtain ⟨size, count, -, fields⟩ := splice_row sound below
    (cfg.rowGroupOut.getInternalSize + col) (bytes 1 (BitVec.ofBool isNull)) (by
      rw [length_bytes]
      unfold RowGroup.getRowSize
      omega)
  rw [← Nat.add_assoc] at size count fields
  have sameCount := congrArg littleEndian count
  refine keeps_of_fields sound rfl size sameCount.ge (sameCount.trans_le sound.count)
    fun rid' col' column' _ found' => ?_
  refine fields rid' _ _ (field_le_rowSize found') (.inr (.inr ?_))
  exact (RowGroup.field_le found').trans (le_add_right _ _)

lemma keeps_setField (below : rid < cfg.fMaxRows)
    (found : cfg.rowGroupOut.columns[col]? = some column) {field : List Byte}
    (long : field.length = cfg.rowGroupOut.fieldWidth column) :
    Keeps cfg (fun rid' col' => rid' ≠ rid ∨ col' ≠ col) rgd
        (rgd.setField cfg.rowGroupOut rid col field) ∧
      (rgd.setField cfg.rowGroupOut rid col field).getRowCount = rgd.getRowCount ∧
      (rgd.setField cfg.rowGroupOut rid col field).getField cfg.rowGroupOut rid col column =
        field := by
  obtain ⟨size, count, read, fields⟩ := splice_row sound below
    (cfg.rowGroupOut.offset col) field (long ▸ field_le_rowSize found)
  have sameCount := congrArg littleEndian count
  refine ⟨keeps_of_fields sound rfl size sameCount.ge (sameCount.trans_le sound.count)
    fun rid' col' column' spared found' => ?_, sameCount, ?_⟩
  · refine fields rid' _ _ (field_le_rowSize found') ?_
    rcases spared with otherRow | otherColumn
    · exact .inl otherRow.symm
    · exact .inr (long ▸ RowGroup.fields_apart found found' otherColumn.symm)
  · rw [RGData.getField, ← long]
    exact read

lemma keeps_strings {store store' : StringStore} (isStore : rgd.strings = some store)
    (wellFormed : store'.WellFormed)
    (held : ∀ off value, store.Stored off value → store'.Stored off value) :
    Keeps cfg (fun _ _ => True) rgd { rgd with strings := some store' } := by
  refine ⟨⟨sound.size, ?_, ?_, sound.count⟩, le_refl _, ?_⟩
  · rw [← sound.table, isStore]
    rfl
  · intro other isOther
    cases isOther
    exact wellFormed
  rintro rid col value - ⟨column, found, inRows, represents⟩
  refine ⟨column, found, inRows, ?_⟩
  cases value with
  | inside bytes => exact represents
  | stored string =>
    obtain ⟨inTable, old, isOld, stored⟩ := represents
    obtain rfl : old = store := some.inj (isOld.symm.trans isStore)
    exact ⟨inTable, store', rfl, held _ _ stored⟩

lemma keeps_setStringField (below : rid < cfg.fMaxRows) (inRows : rid < rgd.getRowCount)
    (found : cfg.rowGroupOut.columns[col]? = some column)
    (inTable : cfg.rowGroupOut.inStringTable column) {str : Option (List Byte)}
    (done : rgd.setStringField cfg.rowGroupOut rid col column str = some rgd') :
    Keeps cfg (fun rid' col' => rid' ≠ rid ∨ col' ≠ col) rgd rgd' ∧
      HasValue cfg rgd' rid col (.stored (str.map (·.take column.width))) := by
  obtain ⟨store, isStore, done⟩ := bind_eq_some_iff.mp done
  obtain ⟨⟨off, store'⟩, stores, done⟩ := bind_eq_some_iff.mp done
  cases done
  have marks := keeps_setNullMark sound below found str.isNone
  obtain ⟨wellFormed, stored, held⟩ :=
    StringStore.storeString_spec (sound.wellFormed store isStore) stores
  have tables := keeps_strings marks.sound isStore wellFormed held
  have width : (bytes 8 (BitVec.ofNat 64 off)).length = cfg.rowGroupOut.fieldWidth column := by
    rw [length_bytes, RowGroup.fieldWidth, if_pos inTable]
  obtain ⟨fields, -, read⟩ := keeps_setField tables.sound below found width
  refine ⟨?_, column, found, ?_, inTable, store', rfl, ?_⟩
  · have all := (marks.trans tables).trans fields
    exact ⟨all.sound, all.rows, fun rid' col' value spared =>
      all.values rid' col' value ⟨⟨trivial, trivial⟩, spared⟩⟩
  · exact inRows.trans_le (marks.rows.trans (tables.rows.trans fields.rows))
  · have number := littleEndian_word (n := 8) stored.lt
    rw [← read] at number
    exact number.symm ▸ stored

lemma keeps_incRowCount (room : rgd.getRowCount < cfg.fMaxRows) :
    Keeps cfg (fun _ _ => True) rgd rgd.incRowCount ∧
      rgd.incRowCount.getRowCount = rgd.getRowCount + 1 := by
  have small : rgd.getRowCount + 1 < 2 ^ (8 * 4) := by
    have := maxRows_lt cfg
    omega
  have header : 0 + (bytes 4 (BitVec.ofNat 32 (rgd.getRowCount + 1))).length ≤
      rgd.rowData.length := by
    rw [length_bytes, sound.size]
    unfold RowGroup.getDataSize headerSize
    omega
  have count : rgd.incRowCount.getRowCount = rgd.getRowCount + 1 := by
    exact littleEndian_word small
  refine ⟨keeps_of_fields sound rfl (length_splice header) (by omega) (by omega)
    fun rid col column _ _ => slice_splice_of_apart header (.inr ?_), count⟩
  rw [length_bytes]
  unfold RowGroup.rowPlace headerSize
  omega

/-- The string table has strings that are not in its chunks. -/
def RGData.hasLongStrings (rgd : RGData) : Bool :=
  rgd.strings.any fun store => !store.longStrings.isEmpty

/-- What `loadRG` makes of what `saveRG` writes. -/
def RGData.reloaded (cfg : Setting) (rgd : RGData) : RGData :=
  let amount := cfg.rowGroupOut.getDataSize rgd.getRowCount
  ⟨rgd.rowData.take amount ++
      cfg.fresh (max amount (cfg.rowGroupOut.getDataSize cfg.fMaxRows) - amount),
    rgd.strings.map (·.reloaded [])⟩

lemma amount_le :
    cfg.rowGroupOut.getDataSize rgd.getRowCount ≤ cfg.rowGroupOut.getDataSize cfg.fMaxRows := by
  exact Nat.add_le_add_left (Nat.mul_le_mul_right _ sound.count) _

lemma reads_rgData :
    Reads (RGData.deserialize cfg [] (cfg.rowGroupOut.getDataSize cfg.fMaxRows))
      (rgd.serialize (cfg.rowGroupOut.getDataSize rgd.getRowCount)).buffer (rgd.reloaded cfg) := by
  have fits : cfg.rowGroupOut.getDataSize rgd.getRowCount < 2 ^ (8 * 4) :=
    (amount_le sound).trans_lt cfg.fits
  have number : (BitVec.ofNat (8 * 4) (cfg.rowGroupOut.getDataSize rgd.getRowCount)).toNat =
      cfg.rowGroupOut.getDataSize rgd.getRowCount := by
    rw [BitVec.toNat_ofNat, mod_eq_of_lt fits]
  have taken : (rgd.rowData.take (cfg.rowGroupOut.getDataSize rgd.getRowCount)).length =
      cfg.rowGroupOut.getDataSize rgd.getRowCount := by
    rw [length_take, sound.size, min_eq_left (amount_le sound)]
  unfold RGData.deserialize RGData.serialize RGData.reloaded
  refine (whole 4 _).bind ((whole 4 _).bind ?_)
  rw [number]
  refine (Reads.raw taken).bind ((Reads.word 1 _).bind ?_)
  cases isStore : rgd.strings with
  | none => exact (pure _).bind ((whole 1 _).bind (pure _))
  | some store =>
    refine bind ?_ ((whole 1 _).bind (pure _))
    exact (StringStore.reads_serialize (sound.wellFormed store isStore) []).map

lemma keeps_reloaded (short : rgd.hasLongStrings = false) :
    Keeps cfg (fun _ _ => True) rgd (rgd.reloaded cfg) := by
  have taken : (rgd.rowData.take (cfg.rowGroupOut.getDataSize rgd.getRowCount)).length =
      cfg.rowGroupOut.getDataSize rgd.getRowCount := by
    rw [length_take, sound.size, min_eq_left (amount_le sound)]
  have part : ∀ pos n, pos + n ≤ cfg.rowGroupOut.getDataSize rgd.getRowCount →
      slice (rgd.reloaded cfg).rowData pos n = slice rgd.rowData pos n := by
    intro pos n inside
    rw [RGData.reloaded, slice_append (taken.symm ▸ inside), slice_take inside]
  have sameCount : (rgd.reloaded cfg).getRowCount = rgd.getRowCount :=
    congrArg littleEndian (part 0 4 (by unfold RowGroup.getDataSize headerSize; omega))
  refine ⟨⟨?_, ?_, ?_, sameCount ▸ sound.count⟩, sameCount.ge, ?_⟩
  · have := amount_le sound
    rw [RGData.reloaded, length_append, cfg.length_fresh]
    omega
  · rw [← sound.table, RGData.reloaded, Option.isSome_map]
  · intro store isStore
    obtain ⟨old, isOld, rfl⟩ := map_eq_some_iff.mp isStore
    exact (sound.wellFormed old isOld).reloaded []
  rintro rid col value - ⟨column, found, inRows, represents⟩
  refine ⟨column, found, sameCount ▸ inRows, ?_⟩
  have field : (rgd.reloaded cfg).getField cfg.rowGroupOut rid col column =
      rgd.getField cfg.rowGroupOut rid col column := by
    refine part _ _ ?_
    have := field_le_rowSize found
    have := cfg.rowGroupOut.row_le inRows
    omega
  rw [field]
  cases value with
  | inside bytes => exact represents
  | stored string =>
    obtain ⟨inTable, store, isStore, stored⟩ := represents
    have noLong : store.longStrings = [] := by
      simpa [RGData.hasLongStrings, isStore] using short
    refine ⟨inTable, store.reloaded [], ?_, stored.reloaded (noLong ▸ nil_prefix)⟩
    rw [RGData.reloaded, isStore, map_some]

end

/-- A storage, the row indices handed out, and the value last written to each column. -/
structure Session where
  storage : Storage
  rows : List Nat
  written : Nat → Nat → Option Value

inductive Action where
  | putRow (granted : Bool)
  | getRow (idx : Nat) (granted : Bool)
  | setStringField (idx col : Nat) (str : Option (List Byte))
  | setField (idx col : Nat) (field : List Byte)
  | dump
  | dumpAll
  | saveRG (rgid : Nat)
  | loadRG (rgid : Nat)

namespace Session

/-- The session after a value was written to the row group of a row. -/
def write (s : Session) (rgid idx col : Nat) (rgd : RGData) (value : Value) : Session :=
  { s with
    storage := { s.storage with fRGDatas := s.storage.fRGDatas.set rgid (some rgd) }
    written := fun i c => if i = idx ∧ c = col then some value else s.written i c }

def start (cfg : Setting) (keeps : Bool) : Session := ⟨.new cfg keeps, [], fun _ _ => none⟩

variable (cfg : Setting)

/-- The actions on rows are for indices handed out, and a row is written while its row group is
in memory: the row points into it. -/
def step (s : Session) : Action → Option Session
  | .putRow granted =>
    let put := s.storage.putRow cfg granted
    some { s with storage := put.1, rows := put.2.toList ++ s.rows }
  | .getRow idx granted =>
    if idx ∈ s.rows then
      (s.storage.getRow cfg idx granted).map fun got => { s with storage := got.1 }
    else none
  | .setStringField idx col str =>
    if idx ∈ s.rows then do
      let column ← cfg.rowGroupOut.columns[col]?
      let rgd ← s.storage.inMemory (idx / cfg.fMaxRows)
      if cfg.rowGroupOut.inStringTable column then
        let rgd ← rgd.setStringField cfg.rowGroupOut (idx % cfg.fMaxRows) col column str
        return s.write (idx / cfg.fMaxRows) idx col rgd (.stored (str.map (·.take column.width)))
      else none
    else none
  | .setField idx col field =>
    if idx ∈ s.rows then do
      let column ← cfg.rowGroupOut.columns[col]?
      let rgd ← s.storage.inMemory (idx / cfg.fMaxRows)
      if cfg.rowGroupOut.inStringTable column = false ∧ field.length = column.width then
        return s.write (idx / cfg.fMaxRows) idx col
          (rgd.setField cfg.rowGroupOut (idx % cfg.fMaxRows) col field) (.inside field)
      else none
    else none
  | .dump => some { s with storage := s.storage.dump cfg }
  | .dumpAll => some { s with storage := s.storage.dumpAll cfg }
  | .saveRG rgid => some { s with storage := s.storage.saveRG cfg rgid }
  | .loadRG rgid => (s.storage.loadRG cfg rgid).map fun storage => { s with storage := storage }

end Session

/-- No row group with long strings is dumped. -/
def DumpsShort (s : Session) : Action → Prop
  | .dump => s.storage.fRGDatas.all (·.all (!·.hasLongStrings)) = true
  | .saveRG rgid => (s.storage.inMemory rgid).all (!·.hasLongStrings) = true
  | _ => True

instance (s : Session) (a : Action) : Decidable (DumpsShort s a) :=
  match a with
  | .dump | .saveRG _ => instDecidableEqBool ..
  | .putRow _ | .getRow .. | .setStringField .. | .setField .. | .dumpAll | .loadRG _ =>
    .isTrue trivial

/-- The row group in memory, or else in the file. -/
def Storage.content (cfg : Setting) (s : Storage) (rgid : Nat) : Option RGData :=
  match s.inMemory rgid with
  | some rgd => some rgd
  | none => s.readFile cfg rgid

/-- A row group has the rows handed out and the values written. -/
structure Carries (cfg : Setting) (s : Session) (rgid : Nat) (rgd : RGData) : Prop where
  sound : Sound cfg rgd
  rows : ∀ idx ∈ s.rows, idx / cfg.fMaxRows = rgid → idx % cfg.fMaxRows < rgd.getRowCount
  values : ∀ idx col value, s.written idx col = some value → idx / cfg.fMaxRows = rgid →
    HasValue cfg rgd (idx % cfg.fMaxRows) col value

structure Safe (cfg : Setting) (s : Session) : Prop where
  groups : ∀ rgid < s.storage.fRGDatas.length, ∃ rgd,
    s.storage.content cfg rgid = some rgd ∧ Carries cfg s rgid rgd
  rows : ∀ idx ∈ s.rows, idx / cfg.fMaxRows < s.storage.fRGDatas.length
  written : ∀ idx col value, s.written idx col = some value → idx ∈ s.rows

section Storages

variable {st : Storage} {rgid i : Nat}

lemma content_of_inMemory (loaded : st.inMemory rgid = some rgd) :
    st.content cfg rgid = some rgd := by
  rw [Storage.content, loaded]

lemma content_of_not_inMemory (away : st.inMemory rgid = none) :
    st.content cfg rgid = st.readFile cfg rgid := by
  rw [Storage.content, away]

lemma lt_of_inMemory (loaded : st.inMemory rgid = some rgd) : rgid < st.fRGDatas.length :=
  (List.getElem?_eq_some_iff.mp (Option.join_eq_some_iff.mp loaded)).1

lemma content_congr {other : Storage} (entry : other.fRGDatas[i]? = st.fRGDatas[i]?)
    (file : other.files i = st.files i) : other.content cfg i = st.content cfg i := by
  simp only [Storage.content, Storage.inMemory, Storage.readFile, entry, file]

lemma inMemory_set (within : rgid < st.fRGDatas.length) (lru : LRU) (cur : Nat) :
    Storage.inMemory ⟨st.fRGDatas.set rgid (some rgd), cur, lru, st.files⟩ rgid = some rgd := by
  rw [Storage.inMemory, getElem?_set_self within, join_some]

lemma content_loadRG {other : Storage} (done : st.loadRG cfg rgid = some other) (i : Nat) :
    other.content cfg i = st.content cfg i := by
  unfold Storage.loadRG at done
  split at done
  · cases done
  · cases done
    rfl
  rename_i away
  obtain ⟨rgd, read, rfl⟩ := map_eq_some_iff.mp done
  by_cases same : i = rgid
  · subst same
    have within := (List.getElem?_eq_some_iff.mp away).1
    rw [content_of_inMemory (inMemory_set within _ _), content_of_not_inMemory, read]
    rw [Storage.inMemory, away, join_some]
  · exact content_congr (getElem?_set_ne (Ne.symm same)) rfl

lemma length_loadRG {other : Storage} (done : st.loadRG cfg rgid = some other) :
    other.fRGDatas.length = st.fRGDatas.length := by
  unfold Storage.loadRG at done
  split at done
  · cases done
  · cases done
    rfl
  · obtain ⟨-, -, rfl⟩ := map_eq_some_iff.mp done
    exact length_set

lemma content_dumpAll (i : Nat) : (st.dumpAll cfg).content cfg i = st.content cfg i := by
  cases loaded : st.inMemory i with
  | some rgd =>
    rw [content_of_inMemory loaded]
    exact content_of_inMemory loaded
  | none =>
    refine content_congr rfl ?_
    simp only [Storage.dumpAll, loaded]

/-- The file that `saveRG` writes is read as the row group without its long strings. -/
lemma content_saveRG (loaded : st.inMemory rgid = some rgd) (sound : Sound cfg rgd) :
    (st.saveRG cfg rgid).content cfg rgid = some (rgd.reloaded cfg) := by
  have away : (st.saveRG cfg rgid).inMemory rgid = none := by
    simp only [Storage.saveRG, loaded]
    rw [Storage.inMemory, getElem?_set_self (lt_of_inMemory loaded), join_some]
  have file : (st.saveRG cfg rgid).files rgid = some (Storage.dumped cfg rgd) := by
    simp [Storage.saveRG, loaded]
  rw [content_of_not_inMemory away, Storage.readFile, file]
  simp only [Storage.dumped, cfg.lossless, ByteStream.ofBuffer, bind_eq_bind,
    bind_some, (reads_rgData sound).run]
  rfl

lemma content_saveRG_other (other : i ≠ rgid) :
    (st.saveRG cfg rgid).content cfg i = st.content cfg i := by
  cases loaded : st.inMemory rgid with
  | none => simp only [Storage.saveRG, loaded]
  | some rgd =>
    refine content_congr ?_ ?_
    · simp only [Storage.saveRG, loaded, getElem?_set_ne (Ne.symm other)]
    · simp only [Storage.saveRG, loaded, if_neg other]

lemma length_saveRG : (st.saveRG cfg rgid).fRGDatas.length = st.fRGDatas.length := by
  unfold Storage.saveRG
  split
  · rfl
  · exact length_set

/-- `dump` saves at most one row group; the rest of its work is on the cache. -/
lemma dumpLoop_eq (cfg : Setting) (st : Storage) (moved : Nat) : ∃ lru,
    st.dumpLoop cfg moved = { st with fLRU := lru } ∨
    ∃ rgid, st.dumpLoop cfg moved = Storage.saveRG cfg { st with fLRU := lru } rgid := by
  fun_induction Storage.dumpLoop cfg st moved with
  | case1 st moved empty | case2 st moved rgid rest queue few => exact ⟨st.fLRU, .inl rfl⟩
  | case3 st moved rgid rest queue many away later
  | case4 st moved rgid rest queue many rgd loaded rotates later => exact later
  | case5 st moved rgid rest queue many rgd loaded saves =>
    exact ⟨st.fLRU, .inr ⟨rgid, rfl⟩⟩

end Storages

section Actions

variable {s t : Session} {rgid idx : Nat}

section

variable (safe : Safe cfg s)
include safe

lemma Safe.of_content {storage : Storage}
    (length : storage.fRGDatas.length = s.storage.fRGDatas.length)
    (same : ∀ i, storage.content cfg i = s.storage.content cfg i) :
    Safe cfg { s with storage := storage } := by
  refine ⟨fun i within => ?_, fun idx member => ?_, safe.written⟩
  · obtain ⟨rgd, content, carries⟩ := safe.groups i (length ▸ within)
    exact ⟨rgd, (same i).trans content, carries.sound, carries.rows, carries.values⟩
  · rw [length]
    exact safe.rows idx member

/-- One row group is changed, or a new one is added, and the others are as they were. -/
lemma Safe.update (rgid : Nat) (content : t.storage.content cfg rgid = some rgd)
    (carries : Carries cfg t rgid rgd)
    (longer : s.storage.fRGDatas.length ≤ t.storage.fRGDatas.length)
    (within : rgid < t.storage.fRGDatas.length)
    (others : ∀ i < t.storage.fRGDatas.length, i ≠ rgid →
      i < s.storage.fRGDatas.length ∧ t.storage.content cfg i = s.storage.content cfg i)
    (rows : ∀ idx ∈ t.rows, idx / cfg.fMaxRows ≠ rgid → idx ∈ s.rows)
    (values : ∀ idx col, idx / cfg.fMaxRows ≠ rgid → t.written idx col = s.written idx col)
    (written : ∀ idx col value, t.written idx col = some value → idx ∈ t.rows) : Safe cfg t := by
  refine ⟨fun i inRange => ?_, fun idx member => ?_, written⟩
  · by_cases changed : i = rgid
    · subst changed
      exact ⟨rgd, content, carries⟩
    obtain ⟨before, same⟩ := others i inRange changed
    obtain ⟨old, content, carries⟩ := safe.groups i before
    refine ⟨old, same.trans content, carries.sound, ?_, ?_⟩
    · rintro idx member rfl
      exact carries.rows idx (rows idx member changed) rfl
    · rintro idx col value isWritten rfl
      exact carries.values idx col value (values idx col changed ▸ isWritten) rfl
  · by_cases changed : idx / cfg.fMaxRows = rgid
    · rw [changed]
      exact within
    · exact (safe.rows idx (rows idx member changed)).trans_le longer

lemma Safe.inMemory (loaded : s.storage.inMemory rgid = some rgd) : Carries cfg s rgid rgd := by
  obtain ⟨rgd', content, carries⟩ := safe.groups rgid (lt_of_inMemory loaded)
  rw [content_of_inMemory loaded] at content
  exact some.inj content ▸ carries

lemma Safe.saveRG (rgid : Nat) (short : (s.storage.inMemory rgid).all (!·.hasLongStrings)) :
    Safe cfg { s with storage := s.storage.saveRG cfg rgid } := by
  cases loaded : s.storage.inMemory rgid with
  | none =>
    simp only [Storage.saveRG, loaded]
    exact safe
  | some rgd =>
    have carries := safe.inMemory loaded
    rw [loaded, Option.all_some, Bool.not_eq_true'] at short
    have keeps := keeps_reloaded carries.sound short
    refine safe.update _ (content_saveRG loaded carries.sound) ⟨keeps.sound, ?_, ?_⟩
      length_saveRG.ge (length_saveRG.symm ▸ lt_of_inMemory loaded) ?_ (fun _ member _ => member)
      (fun _ _ _ => rfl) safe.written
    · exact fun idx member here => (carries.rows idx member here).trans_le keeps.rows
    · exact fun idx col value isWritten here =>
        keeps.values _ _ _ trivial (carries.values idx col value isWritten here)
    · exact fun i inRange other => ⟨length_saveRG ▸ inRange, content_saveRG_other other⟩

lemma Safe.dump (short : s.storage.fRGDatas.all (·.all (!·.hasLongStrings))) :
    Safe cfg { s with storage := s.storage.dump cfg } := by
  obtain ⟨lru, onlyCache | ⟨rgid, saved⟩⟩ := dumpLoop_eq cfg s.storage 0
  · rw [Storage.dump, onlyCache]
    exact safe.of_content rfl fun _ => content_congr rfl rfl
  have cached : Safe cfg { s with storage := { s.storage with fLRU := lru } } :=
    safe.of_content rfl fun _ => content_congr rfl rfl
  rw [Storage.dump, saved]
  refine cached.saveRG rgid ?_
  cases loaded : Storage.inMemory { s.storage with fLRU := lru } rgid with
  | none => rfl
  | some rgd =>
    have member := mem_of_getElem? (Option.join_eq_some_iff.mp loaded)
    exact all_eq_true.mp short _ member

lemma Safe.getRow {granted returns : Bool} {storage : Storage}
    (done : s.storage.getRow cfg idx granted = some (storage, returns)) :
    Safe cfg { s with storage := storage } := by
  simp only [Storage.getRow] at done
  rcases entry : s.storage.fRGDatas[idx / cfg.fMaxRows]? with _ | _ | rgd
  · rw [entry] at done
    cases done
  · simp only [entry] at done
    obtain ⟨loaded, loads, done⟩ := map_eq_some_iff.mp done
    have kept := safe.of_content (length_loadRG loads) (content_loadRG loads)
    split at done
    · cases done
      exact kept.of_content rfl fun _ => content_congr rfl rfl
    · cases done
      exact kept
  · rw [entry] at done
    cases done
    exact safe.of_content rfl fun _ => content_congr rfl rfl

lemma Safe.write (member : idx ∈ s.rows)
    (loaded : s.storage.inMemory (idx / cfg.fMaxRows) = some rgd) {value : Value}
    (keeps : Keeps cfg (fun rid' col' => rid' ≠ idx % cfg.fMaxRows ∨ col' ≠ col) rgd rgd')
    (has : HasValue cfg rgd' (idx % cfg.fMaxRows) col value) :
    Safe cfg (s.write (idx / cfg.fMaxRows) idx col rgd' value) := by
  have carries := safe.inMemory loaded
  have within := lt_of_inMemory loaded
  have length : (s.write (idx / cfg.fMaxRows) idx col rgd' value).storage.fRGDatas.length =
      s.storage.fRGDatas.length := length_set
  refine safe.update _ (content_of_inMemory (inMemory_set within _ _)) ⟨keeps.sound, ?_, ?_⟩
    length.ge (length ▸ within) ?_ (fun _ member _ => member) ?_ ?_
  · exact fun i inRows here => (carries.rows i inRows here).trans_le keeps.rows
  · intro i c v isWritten here
    by_cases cell : i = idx ∧ c = col
    · obtain ⟨rfl, rfl⟩ := cell
      simp only [Session.write, and_self, if_true, Option.some_inj] at isWritten
      exact isWritten ▸ has
    simp only [Session.write, if_neg cell] at isWritten
    refine keeps.values _ _ _ ?_ (carries.values i c v isWritten here)
    by_contra sameCell
    rw [not_or, not_not, not_not] at sameCell
    refine cell ⟨?_, sameCell.2⟩
    rw [← div_add_mod i cfg.fMaxRows, here, sameCell.1, div_add_mod]
  · exact fun i inRange other => ⟨length ▸ inRange,
      content_congr (getElem?_set_ne (Ne.symm other)) rfl⟩
  · intro i c other
    refine if_neg ?_
    rintro ⟨rfl, -⟩
    exact other rfl
  intro i c v isWritten
  by_cases cell : i = idx ∧ c = col
  · exact cell.1 ▸ member
  · simp only [Session.write, if_neg cell] at isWritten
    exact safe.written i c v isWritten

lemma Safe.place (loaded : s.storage.inMemory rgid = some rgd)
    (room : rgd.getRowCount < cfg.fMaxRows) :
    Safe cfg { s with
      storage := (s.storage.place cfg rgid rgd).1
      rows := (s.storage.place cfg rgid rgd).2 :: s.rows } := by
  have carries := safe.inMemory loaded
  have within := lt_of_inMemory loaded
  obtain ⟨keeps, count⟩ := keeps_incRowCount carries.sound room
  have length : (s.storage.place cfg rgid rgd).1.fRGDatas.length = s.storage.fRGDatas.length :=
    length_set
  have quotient : (rgid * cfg.fMaxRows + rgd.getRowCount) / cfg.fMaxRows = rgid := by
    rw [Nat.mul_comm, Nat.mul_add_div cfg.someRows, Nat.div_eq_of_lt room, Nat.add_zero]
  have remainder : (rgid * cfg.fMaxRows + rgd.getRowCount) % cfg.fMaxRows = rgd.getRowCount := by
    rw [Nat.mul_comm, Nat.mul_add_mod, Nat.mod_eq_of_lt room]
  refine safe.update _ (content_of_inMemory (inMemory_set within _ _)) ⟨keeps.sound, ?_, ?_⟩
    length.ge (length ▸ within) ?_ ?_ (fun _ _ _ => rfl) ?_
  · intro idx member here
    rcases mem_cons.mp member with rfl | member
    · rw [Storage.place, remainder, count]
      exact lt_succ_self _
    · exact (carries.rows idx member here).trans_le keeps.rows
  · exact fun idx col value isWritten here =>
      keeps.values _ _ _ trivial (carries.values idx col value isWritten here)
  · exact fun i inRange other => ⟨length ▸ inRange,
      content_congr (getElem?_set_ne (Ne.symm other)) rfl⟩
  · intro idx member other
    rcases mem_cons.mp member with rfl | member
    · exact absurd quotient other
    · exact member
  · exact fun idx col value isWritten =>
      mem_cons_of_mem _ (safe.written idx col value isWritten)

lemma Safe.append :
    Safe cfg { s with
      storage := { s.storage with
        fRGDatas := s.storage.fRGDatas ++ [some (.new cfg.rowGroupOut cfg.fMaxRows)] } } := by
  have unused : ∀ idx ∈ s.rows, idx / cfg.fMaxRows ≠ s.storage.fRGDatas.length :=
    fun idx member => Nat.ne_of_lt (safe.rows idx member)
  refine safe.update s.storage.fRGDatas.length (content_of_inMemory ?_)
    ⟨sound_new cfg, ?_, ?_⟩ ?_ ?_ ?_ (fun _ member _ => member) (fun _ _ _ => rfl) safe.written
  · rw [Storage.inMemory, getElem?_concat_length, join_some]
  · exact fun idx member here => absurd here (unused idx member)
  · exact fun idx col value isWritten here =>
      absurd here (unused idx (safe.written idx col value isWritten))
  · exact (prefix_append _ _).length_le
  · rw [length_append]
    exact lt_succ_self _
  · intro i inRange other
    rw [length_append, length_singleton] at inRange
    have before : i < s.storage.fRGDatas.length := by omega
    exact ⟨before, content_congr (getElem?_append_left before) rfl⟩

end

lemma hasRoom_of_chosen {st : Storage} (chosen : st.chosen cfg = some rgid) :
    st.hasRoom cfg rgid := by
  unfold Storage.chosen at chosen
  split at chosen
  · cases chosen
    assumption
  · exact find?_some chosen

lemma room_of_hasRoom {st : Storage} (has : st.hasRoom cfg rgid) :
    ∃ rgd, st.inMemory rgid = some rgd ∧ rgd.getRowCount < cfg.fMaxRows := by
  unfold Storage.hasRoom at has
  cases loaded : st.inMemory rgid with
  | none =>
    rw [loaded] at has
    cases has
  | some rgd =>
    rw [loaded] at has
    exact ⟨rgd, rfl, of_decide_eq_true has⟩

lemma Safe.putRow (safe : Safe cfg s) (granted : Bool) :
    Safe cfg { s with
      storage := (s.storage.putRow cfg granted).1
      rows := (s.storage.putRow cfg granted).2.toList ++ s.rows } := by
  unfold Storage.putRow
  cases chosen : s.storage.chosen cfg with
  | some rgid =>
    obtain ⟨rgd, loaded, room⟩ := room_of_hasRoom (hasRoom_of_chosen chosen)
    simp only [loaded]
    exact safe.place loaded room
  | none =>
    cases granted with
    | false => exact safe
    | true =>
      refine safe.append.place ?_ ?_
      · rw [Storage.inMemory, List.length_append, List.length_singleton, Nat.add_sub_cancel,
          getElem?_concat_length, join_some]
      · rw [getRowCount_new]
        exact cfg.someRows

lemma Safe.step (safe : Safe cfg s) {a : Action} (short : DumpsShort s a)
    (taken : s.step cfg a = some t) : Safe cfg t := by
  cases a with
  | putRow granted =>
    cases taken
    exact safe.putRow granted
  | getRow idx granted =>
    obtain ⟨-, taken⟩ := ite_none_right_eq_some.mp taken
    obtain ⟨⟨storage, returns⟩, got, rfl⟩ := map_eq_some_iff.mp taken
    exact safe.getRow got
  | setStringField idx col str =>
    obtain ⟨member, taken⟩ := ite_none_right_eq_some.mp taken
    obtain ⟨column, found, taken⟩ := bind_eq_some_iff.mp taken
    obtain ⟨rgd, loaded, taken⟩ := bind_eq_some_iff.mp taken
    obtain ⟨inTable, taken⟩ := ite_none_right_eq_some.mp taken
    obtain ⟨rgd', writes, taken⟩ := bind_eq_some_iff.mp taken
    cases taken
    have carries := safe.inMemory loaded
    obtain ⟨keeps, has⟩ := keeps_setStringField carries.sound (mod_lt _ cfg.someRows)
      (carries.rows idx member rfl) found inTable writes
    exact safe.write member loaded keeps has
  | setField idx col field =>
    obtain ⟨member, taken⟩ := ite_none_right_eq_some.mp taken
    obtain ⟨column, found, taken⟩ := bind_eq_some_iff.mp taken
    obtain ⟨rgd, loaded, taken⟩ := bind_eq_some_iff.mp taken
    obtain ⟨⟨inRow, long⟩, taken⟩ := ite_none_right_eq_some.mp taken
    cases taken
    have carries := safe.inMemory loaded
    have width : field.length = cfg.rowGroupOut.fieldWidth column := by
      rw [long, RowGroup.fieldWidth, if_neg (by rw [inRow]; decide)]
    obtain ⟨keeps, count, read⟩ := keeps_setField carries.sound (mod_lt idx cfg.someRows)
      found width
    exact safe.write member loaded keeps
      ⟨column, found, count ▸ carries.rows idx member rfl, inRow, read⟩
  | dump =>
    cases taken
    exact safe.dump short
  | dumpAll =>
    cases taken
    exact safe.of_content rfl content_dumpAll
  | saveRG rgid =>
    cases taken
    exact safe.saveRG rgid short
  | loadRG rgid =>
    obtain ⟨storage, loads, rfl⟩ := map_eq_some_iff.mp taken
    exact safe.of_content (length_loadRG loads) (content_loadRG loads)

end Actions

lemma safe_start (cfg : Setting) (keeps : Bool) : Safe cfg (.start cfg keeps) := by
  refine ⟨?_, nofun, nofun⟩
  intro rgid within
  obtain rfl : rgid = 0 := lt_one_iff.mp within
  exact ⟨_, content_of_inMemory rfl, sound_new cfg, nofun, nofun⟩

/-- `getRow` gives the row of the row group there is, in memory or in the file. -/
lemma getRow_of_content {st : Storage} (idx : Nat)
    (within : idx / cfg.fMaxRows < st.fRGDatas.length)
    (content : st.content cfg (idx / cfg.fMaxRows) = some rgd) (granted : Bool) :
    ∃ storage returns, st.getRow cfg idx granted = some (storage, returns) ∧
      (granted → returns) ∧
      storage.inMemory (idx / cfg.fMaxRows) = some rgd := by
  simp only [Storage.getRow]
  rcases entry : st.fRGDatas[idx / cfg.fMaxRows]? with _ | _ | loaded
  · exact absurd (getElem?_eq_none_iff.mp entry) (not_le.mpr within)
  · have away : st.inMemory (idx / cfg.fMaxRows) = none := by
      rw [Storage.inMemory, entry, join_some]
    rw [content_of_not_inMemory away] at content
    simp only [Storage.loadRG, entry, content]
    cases granted with
    | true => exact ⟨_, _, rfl, fun _ => rfl, inMemory_set within _ _⟩
    | false => exact ⟨_, _, rfl, nofun, inMemory_set within _ _⟩
  · have here : st.inMemory (idx / cfg.fMaxRows) = some loaded := by
      rw [Storage.inMemory, entry, join_some]
    rw [content_of_inMemory here] at content
    exact ⟨_, _, rfl, fun _ => rfl, here.trans content⟩

/-- Row groups of two rows with a string in the table and four bytes in the row. -/
def textAndNumber : Setting where
  rowGroupOut := ⟨[⟨70000, false⟩, ⟨4, false⟩], 20, true⟩
  fMaxRows := 2
  compress := id
  uncompress := id
  fresh n := List.replicate n 0
  lossless _ := rfl
  length_fresh _ := List.length_replicate
  someRows := Nat.two_pos
  fits := by decide

/-- A row group with one row. -/
def oneRow : RGData := (RGData.new textAndNumber.rowGroupOut 2).incRowCount

/-- The row group with the offset of a long string in its row. -/
def longRow (v : List Byte) : RGData :=
  { (oneRow.setNullMark textAndNumber.rowGroupOut 0 0 false).setField textAndNumber.rowGroupOut 0 0
      (bytes 8 (BitVec.ofNat 64 longMark)) with
    strings := some ⟨[], [⟨record v, v.length + 4⟩], false⟩ }

lemma setStringField_long {v : List Byte} (long : chunkSize ≤ v.length + 4)
    (fits : v.length ≤ 70000) :
    oneRow.setStringField textAndNumber.rowGroupOut 0 0 ⟨70000, false⟩ (some v) =
      some (longRow v) := by
  have stores : StringStore.new.storeString (some v) =
      some (longMark, ⟨[], [⟨record v, v.length + 4⟩], false⟩) := by
    unfold StringStore.storeString
    simp only [if_neg (show ¬ 2 ^ 32 ≤ v.length + 4 by omega), if_pos long]
    rfl
  have isStore : (oneRow.setNullMark textAndNumber.rowGroupOut 0 0 (some v).isNone).strings =
      some .new := rfl
  unfold RGData.setStringField
  rw [map_some, take_of_length_le fits]
  simp only [isStore, bind_eq_bind, bind_some, stores]
  rfl

/-- After a dump a long string is read as NULL. -/
lemma long_string_reloaded {v : List Byte} (long : chunkSize ≤ v.length + 4)
    (fits : v.length ≤ 70000) : ∃ (s : Session) (storage : Storage) (rgd : RGData),
    execute (Session.step textAndNumber) (fun _ _ => True) (.start textAndNumber true)
      [.putRow true, .setStringField 0 0 (some v), .saveRG 0] = some s ∧
      s.written 0 0 = some (.stored (some v)) ∧
      s.storage.getRow textAndNumber 0 true = some (storage, true) ∧
      storage.inMemory 0 = some rgd ∧
      rgd.getColumn textAndNumber.rowGroupOut StringStore.getConstString 0 0 ⟨70000, false⟩ =
        .stored none := by
  let before : Session := ⟨⟨[some oneRow], 0, ⟨true, [0]⟩, fun _ => none⟩, [0], fun _ _ => none⟩
  let after : Session := before.write 0 0 0 (longRow v) (.stored (some v))
  have put : (Session.start textAndNumber true).step textAndNumber (.putRow true) = some before :=
    rfl
  have write : before.step textAndNumber (.setStringField 0 0 (some v)) = some after := by
    have unfolded : before.step textAndNumber (.setStringField 0 0 (some v)) =
        (oneRow.setStringField textAndNumber.rowGroupOut 0 0 ⟨70000, false⟩ (some v)).bind
          fun rgd => some (before.write 0 0 0 rgd (.stored (some (v.take 70000)))) := rfl
    rw [unfolded, setStringField_long long (by omega), take_of_length_le (by omega)]
    rfl
  have sound : Sound textAndNumber (longRow v) := by
    have one := keeps_incRowCount (sound_new textAndNumber) (by decide)
    exact (keeps_setStringField one.1.sound (by decide) (by decide) rfl (by decide)
      (setStringField_long long (by omega))).1.sound
  have saved : (after.storage.saveRG textAndNumber 0).content textAndNumber (0 / 2) =
      some ((longRow v).reloaded textAndNumber) := content_saveRG rfl sound
  have within : 0 / textAndNumber.fMaxRows <
      (after.storage.saveRG textAndNumber 0).fRGDatas.length := Nat.one_pos
  obtain ⟨storage, returns, got, granting, loaded⟩ := getRow_of_content 0 within saved true
  refine ⟨{ after with storage := after.storage.saveRG textAndNumber 0 }, storage,
    (longRow v).reloaded textAndNumber, ?_, rfl, granting rfl ▸ got, loaded, ?_⟩
  · simp only [execute, put, write, bind_some]
    rfl
  -- the string is not in the file, so any other would be read in the same way
  have lost : (longRow v).reloaded textAndNumber = (longRow []).reloaded textAndNumber := rfl
  rw [lost]
  decide +kernel

end RowSpill
