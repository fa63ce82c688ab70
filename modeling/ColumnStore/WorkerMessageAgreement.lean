import ColumnStore.WorkerMessages

/-!
# Requests and decoders agree

For each decoder: on the bytes the matching method writes it takes exactly these bytes and calls
`SlaveDBRMNode` with the values of the request. Three methods write wider fields than the
decoder reads, and two leave out fields of their structures; the main result says for which
requests the two sides agree.
-/

namespace WorkerMessages

open ByteStrings ByteReaders List Option Prod Nat Function
open Reads (whole items loop word)
open BitVec (toNat_ofNat ofNat)

lemma reads_u8 (v : BitVec 8) : Reads u8 (bytes 1 v) v := whole 1 v
lemma reads_u16 (v : BitVec 16) : Reads u16 (bytes 2 v) v := whole 2 v
lemma reads_u32 (v : BitVec 32) : Reads u32 (bytes 4 v) v := whole 4 v
lemma reads_u64 (v : BitVec 64) : Reads u64 (bytes 8 v) v := whole 8 v
lemma reads_u128 (v : BitVec 128) : Reads u128 (bytes 16 v) v := whole 16 v

variable {n : Nat}

lemma bytes_ne_nil {w : Nat} (v : BitVec w) : bytes (n + 1) v ≠ [] := by
  intro empty
  have length := length_bytes (n + 1) v
  rw [empty] at length
  cases length

lemma bytes_one (b : Byte) : bytes 1 b = [b] := by
  simp [bytes]

lemma reads_byte (b : Byte) : Reads u8 [b] b := by
  have read := reads_u8 b
  rwa [bytes_one] at read

lemma reads_bool (b : Bool) : Reads readBool (boolByte b) b := by
  have read := (reads_byte (if b then 1 else 0)).map (f := (· != 0))
  cases b <;> exact read

lemma reads_type (type : ColDataType) : Reads readType (typeBytes type) type := by
  have read := (reads_u32 (type.setWidth 32)).map (f := BitVec.setWidth 5)
  rwa [BitVec.setWidth_setWidth_of_le _ (by decide)] at read

@[simp] lemma length_boolByte (b : Bool) : (boolByte b).length = 1 := rfl

@[simp] lemma length_typeBytes (type : ColDataType) : (typeBytes type).length = 4 :=
  length_bytes 4 _

lemma CreateStripeColumnExtentsArgIn.reads (a : CreateStripeColumnExtentsArgIn) :
    Reads read a.memory a :=
  (reads_u32 a.oid).bind ((reads_u32 a.width).bind (reads_type a.colDataType).map)

lemma BulkSetHWMArg.reads (a : BulkSetHWMArg) : Reads read a.memory a :=
  (reads_u32 a.oid).bind ((reads_u32 a.partNum).bind ((reads_u16 a.segNum).bind
    ((reads_u16 a.unused).bind (reads_u32 a.hwm).map)))

lemma BulkUpdateDBRootArg.reads (a : BulkUpdateDBRootArg) : Reads read a.memory a :=
  (reads_u64 a.startLBID).bind ((reads_u16 a.dbRoot).bind (whole 6 a.unused).map)

lemma CPInfo.reads (a : CPInfo) : Reads read a.memory a :=
  (reads_u64 a.firstLbid).bind ((reads_u64 a.max).bind ((reads_u64 a.min).bind
    ((reads_u32 a.seqNum).bind ((reads_u32 a.unused).bind ((reads_u128 a.bigMax).bind
      ((reads_u128 a.bigMin).bind ((reads_bool a.isBinaryColumn).bind
        (whole 15 a.unusedEnd).map)))))))

lemma CPInfoMerge.reads (a : CPInfoMerge) : Reads read a.memory a :=
  (reads_u64 a.startLbid).bind ((reads_u64 a.max).bind ((reads_u64 a.min).bind
    ((reads_u32 a.seqNum).bind ((reads_type a.type).bind ((reads_u32 a.colWidth).bind
      ((reads_bool a.newExtent).bind ((whole 11 a.unused).bind
        ((reads_u128 a.bigMax).bind (reads_u128 a.bigMin).map))))))))

lemma LBIDRange.reads (r : LBIDRange) : Reads deserialize r.serialize r := by
  refine (reads_u64 rangeV2Magic).bind ?_
  exact (reads_u64 r.start).bind (reads_u32 r.size).map

lemma LogicalPartition.reads (p : LogicalPartition) : Reads unserialize p.serialize p :=
  (reads_u16 p.dbroot).bind ((reads_u32 p.pp).bind (reads_u16 p.seg).map)

section Vectors

variable {α : Type} {item : Reader α} (write : α → List Byte)

lemma mul_length_le_flatMap (c : Nat) (long : ∀ a, c ≤ (write a).length) (v : List α) :
    c * v.length ≤ (v.flatMap write).length := by
  induction v with
  | nil => exact le_refl 0
  | cons a v later =>
    have first := long a
    rw [flatMap_cons, length_append, length_cons, mul_succ]
    omega

lemma mul_length_le_counted (c : Nat) (long : ∀ a, c ≤ (write a).length) (v : List α) :
    c * v.length ≤ (counted write v).length := by
  have all := mul_length_le_flatMap write c long v
  rw [counted, length_append]
  omega

variable {write} (nonempty : ∀ a, 1 ≤ (write a).length)
  (one : ∀ a, Reads item (write a) a) {v : List α}

include nonempty one

lemma reads_vector (short : (serializeVector write v).length < 2 ^ 32) :
    Reads (deserializeVector item) (serializeVector write v) v := by
  have all := mul_length_le_flatMap write 1 nonempty v
  rw [serializeVector, length_append] at short
  refine (reads_u64 _).bind ?_
  rw [toNat_ofNat, mod_eq_of_lt (by omega)]
  exact items one v

lemma reads_counted (short : (counted write v).length < 2 ^ 32) :
    Reads (readCounted item) (counted write v) v := by
  have all := mul_length_le_counted write 1 nonempty v
  refine (reads_u32 _).bind ?_
  rw [toNat_ofNat, mod_eq_of_lt (by omega)]
  exact items one v

end Vectors

lemma reads_ranges {ranges : List LBIDRange}
    (short : (serializeVector LBIDRange.serialize ranges).length < 2 ^ 32) :
    Reads (deserializeVector LBIDRange.deserialize)
      (serializeVector LBIDRange.serialize ranges) ranges :=
  reads_vector (fun r => by simp [LBIDRange.serialize]) LBIDRange.reads short

section Maps

variable {K α V W : Type} [DecidableEq K] {key : α → K}

lemma lastWith_cons (a : α) (list : List α) (k : K) :
    lastWith key (a :: list) k = (lastWith key list k).or (if key a = k then some a else none) := by
  simp [lastWith]

/-- Entries put into the map of a state one after the other, seen through a function: for each
key the one put in last. -/
lemma foldl_update {S : Type} {take : S → α → S} (table : S → K → Option V) (f : V → W) (g : α → W)
    (Kept : S → Prop)
    (step : ∀ s a, Kept s → Kept (take s a) ∧
      ∃ v, table (take s a) = update (table s) (key a) (some v) ∧ f v = g a)
    (list : List α) (s : S) (kept : Kept s) (k : K) :
    (table (list.foldl take s) k).map f = ((lastWith key list k).map g).or ((table s k).map f) := by
  induction list generalizing s with
  | nil => rfl
  | cons a list later =>
    obtain ⟨kept', v, taken, shown⟩ := step s a kept
    rw [foldl_cons, later _ kept', lastWith_cons, taken]
    by_cases here : key a = k
    · subst here
      cases lastWith key list (key a) <;> simp [shown]
    · cases lastWith key list k <;> simp [here, update_of_ne (Ne.symm here)]

end Maps

/-- What one round does to the map of column extents. -/
def takeColExtent (m : OID → Option ExtentInfo) (info : ExtentInfo) : OID → Option ExtentInfo :=
  Function.update m info.oid
    (some { info with newFile := ((m info.oid).map ExtentInfo.newFile).getD false })

/-- What one round does to the map of dictionary extents. -/
def takeDictExtent (m : OID → Option ExtentInfo) (info : ExtentInfo) : OID → Option ExtentInfo :=
  Function.update m info.oid (some info)

variable (m : OID → Option ExtentInfo)

lemma reads_colExtent (info : ExtentInfo) :
    Reads (readColExtent m) (writeColExtent info) (takeColExtent m info) :=
  (reads_u32 info.oid).bind ((reads_u32 info.partitionNum).bind ((reads_u16 info.segmentNum).bind
    ((reads_u16 info.dbRoot).bind (reads_u32 info.hwm).map)))

lemma reads_dictExtent (info : ExtentInfo) :
    Reads (readDictExtent m) (writeDictExtent info) (takeDictExtent m info) :=
  (reads_u32 info.oid).bind ((reads_u32 info.partitionNum).bind ((reads_u16 info.segmentNum).bind
    ((reads_u16 info.dbRoot).bind ((reads_u32 info.hwm).bind (reads_bool info.newFile).map))))

/-- What the variable `cpMaxMin` is after a round. -/
def takeCPInfo (state : (LBID → Option CPMaxMin) × CPMaxMin) (info : CPInfo) :
    (LBID → Option CPMaxMin) × CPMaxMin :=
  let cp :=
    if info.isBinaryColumn then
      { state.2 with
        isBinaryColumn := true
        bigMax := info.bigMax
        bigMin := info.bigMin
        seqNum := info.seqNum }
    else
      { state.2 with
        isBinaryColumn := false
        max := info.max
        min := info.min
        seqNum := info.seqNum }
  (Function.update state.1 info.firstLbid (some cp), cp)

lemma reads_cpInfo (state : (LBID → Option CPMaxMin) × CPMaxMin) (info : CPInfo) :
    Reads (readCPInfo state) (writeCPInfo info) (takeCPInfo state info) := by
  unfold readCPInfo writeCPInfo takeCPInfo
  cases info.isBinaryColumn with
  | true =>
    exact (reads_bool true).bind ((reads_u64 info.firstLbid).bind ((reads_u128 info.bigMax).bind
      ((reads_u128 info.bigMin).bind (reads_u32 info.seqNum).map)))
  | false =>
    exact (reads_bool false).bind ((reads_u64 info.firstLbid).bind ((reads_u64 info.max).bind
      ((reads_u64 info.min).bind (reads_u32 info.seqNum).map)))

/-- What is sent of an entry to merge; the rest is what the variable held before. -/
def CPInfoMerge.sent (info : CPInfoMerge) (cp : CPMaxMinMerge) : CPMaxMinMerge :=
  { cp with
    max := info.max, min := info.min, seqNum := info.seqNum, type := info.type
    newExtent := info.newExtent }

/-- What one round does to the map of entries to merge. -/
def takeCPInfoMerge (state : (LBID → Option CPMaxMinMerge) × CPMaxMinMerge) (info : CPInfoMerge) :
    (LBID → Option CPMaxMinMerge) × CPMaxMinMerge :=
  (Function.update state.1 info.startLbid (some (info.sent state.2)), info.sent state.2)

lemma reads_cpInfoMerge (state : (LBID → Option CPMaxMinMerge) × CPMaxMinMerge)
    (info : CPInfoMerge) :
    Reads (readCPInfoMerge state) (writeCPInfoMerge info) (takeCPInfoMerge state info) := by
  have flag : (ofNat 32 info.newExtent.toNat != 0) = info.newExtent := by
    cases info.newExtent <;> rfl
  have read : Reads (readCPInfoMerge state) (writeCPInfoMerge info) _ :=
    (reads_u64 info.startLbid).bind ((reads_u64 info.max).bind ((reads_u64 info.min).bind
      ((reads_u32 info.seqNum).bind ((reads_type info.type).bind (reads_u32 _).map))))
  rwa [flag] at read

variable (list : List ExtentInfo)

lemma takeColExtent_run :
    list.foldl takeColExtent (fun _ => none) = fun oid =>
      (lastWith ExtentInfo.oid list oid).map fun info => { info with newFile := false } := by
  funext oid
  -- no entry of the map is ever marked as a new file
  have entries := @foldl_update _ _ _ _ _ ExtentInfo.oid _ takeColExtent (fun m => m) id
    (fun info => { info with newFile := false })
    (fun m => ∀ oid info, m oid = some info → info.newFile = false) ?_ list (fun _ => none)
    (by simp) oid
  · simpa using entries
  intro m info unmarked
  have old : ((m info.oid).map ExtentInfo.newFile).getD false = false := by
    cases known : m info.oid with
    | none => rfl
    | some entry => exact unmarked _ entry known
  refine ⟨fun oid entry found => ?_, { info with newFile := false }, ?_, rfl⟩
  · by_cases here : oid = info.oid
    · subst here
      rw [takeColExtent, update_self, old] at found
      cases found
      rfl
    · rw [takeColExtent, update_of_ne here] at found
      exact unmarked oid entry found
  · rw [takeColExtent, old]

lemma takeDictExtent_run :
    list.foldl takeDictExtent (fun _ => none) = lastWith ExtentInfo.oid list := by
  funext oid
  have entries := @foldl_update _ _ _ _ _ ExtentInfo.oid _ takeDictExtent (fun m => m) id id
    (fun _ => True) (fun m info _ => ⟨trivial, info, rfl, rfl⟩) list (fun _ => none) trivial oid
  simpa using entries

lemma takeCPInfo_run (list : List CPInfo) (cp : CPMaxMin) (lbid : LBID) :
    ((list.foldl takeCPInfo (fun _ => none, cp)).1 lbid).map CPMaxMin.bounds =
      (lastWith CPInfo.firstLbid list lbid).map CPInfo.bounds := by
  have entries := @foldl_update _ _ _ _ _ CPInfo.firstLbid _ takeCPInfo fst CPMaxMin.bounds
    CPInfo.bounds (fun _ => True) ?_ list (fun _ => none, cp) trivial lbid
  · simpa using entries
  · intro state info _
    refine ⟨trivial, _, rfl, ?_⟩
    cases flag : info.isBinaryColumn <;> simp [CPMaxMin.bounds, CPInfo.bounds, flag]

lemma takeCPInfoMerge_run (list : List CPInfoMerge) (cp : CPMaxMinMerge) (lbid : LBID) :
    (list.foldl takeCPInfoMerge (fun _ => none, cp)).1 lbid =
      (lastWith CPInfoMerge.startLbid list lbid).map (CPInfoMerge.sent · cp) := by
  -- what is not sent stays what it was
  have entries := @foldl_update _ _ _ _ _ CPInfoMerge.startLbid _ takeCPInfoMerge fst id
    (CPInfoMerge.sent · cp) (fun state => ∀ info, CPInfoMerge.sent info state.2 = info.sent cp) ?_
    list (fun _ => none, cp) (fun _ => rfl) lbid
  · simpa using entries
  · intro state info kept
    exact ⟨kept, _, rfl, kept info⟩

lemma reads_loop {S α : Type} {body : S → Reader S} {write : α → List Byte} {take : S → α → S}
    (round : ∀ s a, Reads (body s) (write a) (take s a)) {list : List α} (count : n = list.length)
    (s : S) : Reads (loop body n s) (list.flatMap write) (list.foldl take s) :=
  count ▸ loop round list s

lemma count_eq (short : n < 2 ^ 32) : (ofNat 32 n).toNat = n := by
  rw [toNat_ofNat, mod_eq_of_lt short]

lemma signedCount_eq (short : n < 2 ^ 31) : (ofNat 32 n).toInt.toNat = n := by
  rw [BitVec.toInt_eq_toNat_of_lt] <;> rw [count_eq (by omega)]
  · rfl
  · omega

lemma reads_deleteEmptyColExtents {list : List ExtentInfo}
    (short : (counted writeColExtent list).length < 2 ^ 32) :
    Reads doDeleteEmptyColExtents (counted writeColExtent list) (.deleteEmptyColExtents fun oid =>
      (lastWith ExtentInfo.oid list oid).map fun info => { info with newFile := false }) := by
  have few := mul_length_le_counted writeColExtent 1 (fun a => by simp [writeColExtent]) list
  rw [← takeColExtent_run]
  exact (reads_u32 _).bind (reads_loop reads_colExtent (count_eq (by omega)) fun _ => none).map

lemma reads_deleteEmptyDictStoreExtents {list : List ExtentInfo}
    (short : (counted writeDictExtent list).length < 2 ^ 32) :
    Reads doDeleteEmptyDictStoreExtents (counted writeDictExtent list)
      (.deleteEmptyDictStoreExtents (lastWith ExtentInfo.oid list)) := by
  have few := mul_length_le_counted writeDictExtent 1 (fun a => by simp [writeDictExtent]) list
  rw [← takeDictExtent_run]
  exact (reads_u32 _).bind (reads_loop reads_dictExtent (count_eq (by omega)) fun _ => none).map

lemma reads_setExtentsMaxMin (locals : Locals) {list : List CPInfo}
    (short : (counted writeCPInfo list).length < 2 ^ 32) :
    Reads (doSetExtentsMaxMin locals) (counted writeCPInfo list) (.setExtentsMaxMin fun lbid =>
      (lastWith CPInfo.firstLbid list lbid).map CPInfo.bounds) := by
  have long : ∀ info, 2 ≤ (writeCPInfo info).length := by
    intro info
    unfold writeCPInfo
    split <;> simp
  have few := mul_length_le_counted writeCPInfo 2 long list
  simp only [← takeCPInfo_run list locals.cpMaxMin]
  exact (reads_u32 _).bind (reads_loop reads_cpInfo (signedCount_eq (by omega)) _).map

lemma reads_mergeExtentsMaxMin (locals : Locals) {list : List CPInfoMerge}
    (short : (counted writeCPInfoMerge list).length < 2 ^ 32) :
    Reads (doMergeExtentsMaxMin locals) (counted writeCPInfoMerge list)
      (.mergeExtentsMaxMin fun lbid =>
        (lastWith CPInfoMerge.startLbid list lbid).map
          (CPInfoMerge.sent · locals.cpMaxMinMerge)) := by
  have few := mul_length_le_counted writeCPInfoMerge 2 (fun info => by simp [writeCPInfoMerge]) list
  simp only [← takeCPInfoMerge_run list locals.cpMaxMinMerge]
  exact (reads_u32 _).bind (reads_loop reads_cpInfoMerge (signedCount_eq (by omega)) _).map

lemma reads_markManyExtentsInvalid {lbids : List LBID} {types : List ColDataType}
    (enough : lbids.length ≤ types.length)
    (short : (bytes 4 (ofNat 32 lbids.length) ++ (lbids.zip types).flatMap fun (lbid, type) =>
      bytes 8 lbid ++ typeBytes type).length < 2 ^ 32) :
    Reads doMarkManyExtentsInvalid (bytes 4 (ofNat 32 lbids.length) ++
        (lbids.zip types).flatMap fun (lbid, type) => bytes 8 lbid ++ typeBytes type)
      (.markExtentsInvalid lbids (types.take lbids.length)) := by
  have length : lbids.length = (lbids.zip types).length := by
    rw [length_zip, min_eq_left enough]
  have sent : (lbids.zip types).map snd = types.take lbids.length := by
    rw [zip_eq_zip_take_min, min_eq_left enough, map_snd_zip (by simp)]
  have one : ∀ pair : LBID × ColDataType, Reads (do
      let lbid ← u64
      let colDataType ← readType
      return (lbid, colDataType)) (bytes 8 pair.1 ++ typeBytes pair.2) pair :=
    fun pair => (reads_u64 pair.1).bind (reads_type pair.2).map
  rw [length] at short
  have read : Reads doMarkManyExtentsInvalid _ (.markExtentsInvalid
      ((lbids.zip types).map fst) ((lbids.zip types).map snd)) :=
    (reads_counted (fun pair => by simp) one short).map
  rw [map_fst_zip enough, sent, counted, ← length] at read
  exact read

lemma reads_partitions (call : Finset OID → Finset LogicalPartition → Call) {oids : List OID}
    {partitionNums : List LogicalPartition}
    (short : (writePartitions oids partitionNums).length < 2 ^ 32) :
    Reads (readPartitions call) (writePartitions oids partitionNums)
      (call oids.toFinset partitionNums.toFinset) := by
  rw [writePartitions, length_append] at short
  exact (reads_vector (fun p => by simp [LogicalPartition.serialize]) LogicalPartition.reads
    (by omega)).bind (reads_counted (fun _ => by simp) reads_u32 (by omega)).map

lemma find_command (id : Command) : (Command.all.find? fun c => c.code = id.code) = some id := by
  cases id <;> rfl

variable {id : Command} {arguments : List Byte} {call : Call}

lemma reads_command {locals : Locals} (reads : Reads (id.decoder locals) arguments call) :
    Reads (processCommand locals) (id.code :: arguments) call := by
  refine (reads_byte id.code).bind ?_
  rw [find_command]
  exact reads

/-- The two sides agree on a request: nothing is sent, or the decoder takes exactly the message,
whatever its variables held, and passes on the values of the request. -/
def Request.Agrees (r : Request) : Prop :=
  match r.written with
  | .outOfBounds => False
  | .nothing => True
  | .message m => ∀ locals, (processCommand locals).run m = some (r.call, [])

/-- A byte stream holds fewer than 2^32 bytes. -/
def Request.Fits (r : Request) : Prop :=
  match r.written with
  | .message m => m.length < 2 ^ 32
  | _ => True

variable {r : Request}

lemma Request.length_lt_of_fits (fits : r.Fits) (written : r.written = command id arguments) :
    arguments.length < 2 ^ 32 := by
  unfold Request.Fits at fits
  rw [written] at fits
  exact lt_of_succ_lt fits

lemma Request.agrees_of_reads (written : r.written = command id arguments)
    (reads : ∀ locals, arguments.length < 2 ^ 32 → Reads (id.decoder locals) arguments r.call)
    (fits : r.Fits) : r.Agrees := by
  have short := length_lt_of_fits fits written
  unfold Request.Agrees
  rw [written]
  exact fun locals => (reads_command (reads locals short)).run

lemma Request.not_agrees_of_more {left : List Byte}
    (written : r.written = command id (arguments ++ left)) (more : left ≠ [])
    (reads : ∀ locals, Reads (id.decoder locals) arguments call) (locals : Locals) :
    ¬ r.Agrees := by
  unfold Request.Agrees
  rw [written]
  intro agrees
  have taken := reads_command (reads locals) left
  rw [cons_append, agrees locals] at taken
  exact more (mk.inj (some.inj taken)).2.symm

/-- The requests whose message has all the values, in the widths in which they are read. -/
def Request.Complete : Request → Prop
  | .createStripeColumnExtents _ _ _ => False
  | .createColumnExtentDBroot _ _ _ _ _ _ => False
  | .setExtentMaxMin _ _ _ _ => False
  | .mergeExtentsMaxMin cpInfos => cpInfos = []
  | .deleteEmptyColExtents extentsInfo =>
    ∀ oid info, lastWith ExtentInfo.oid extentsInfo oid = some info → info.newFile = false
  | .markExtentsInvalid lbids colDataTypes => lbids.length = colDataTypes.length
  | _ => True

lemma Request.written_markExtentsInvalid {lbids : List LBID} {types : List ColDataType}
    (enough : lbids.length ≤ types.length) :
    (Request.markExtentsInvalid lbids types).written =
      command .markManyExtentsInvalid (bytes 4 (ofNat 32 lbids.length) ++
        (lbids.zip types).flatMap fun (lbid, type) => bytes 8 lbid ++ typeBytes type) :=
  if_neg (not_lt.mpr enough)

open Request (agrees_of_reads length_lt_of_fits not_agrees_of_more)

lemma agrees_of_complete (complete : r.Complete) (fits : r.Fits) : r.Agrees := by
  revert fits
  cases r with
  | createStripeColumnExtents | createColumnExtentDBroot | setExtentMaxMin => exact complete.elim
  | createColumnExtentExactFile oid colWidth dbRoot partitionNum segmentNum colDataType =>
    refine agrees_of_reads rfl fun _ _ => (reads_u32 oid).bind ((reads_u32 colWidth).bind
      ((reads_u16 dbRoot).bind ((reads_u32 partitionNum).bind ((reads_u16 segmentNum).bind ?_))))
    have read := (reads_u8 (colDataType.setWidth 8)).map (f := fun tmp8 =>
      Call.createColumnExtentExactFile oid colWidth dbRoot partitionNum segmentNum
        (tmp8.setWidth 5))
    rwa [BitVec.setWidth_setWidth_of_le _ (by decide)] at read
  | createDictStoreExtent oid dbRoot partitionNum segmentNum =>
    exact agrees_of_reads rfl fun _ _ => (reads_u32 oid).bind ((reads_u16 dbRoot).bind
      ((reads_u32 partitionNum).bind (reads_u16 segmentNum).map))
  | rollbackColumnExtentsDBroot oid bDeleteAll dbRoot partitionNum segmentNum hwm =>
    exact agrees_of_reads rfl fun _ _ => (reads_u32 oid).bind ((reads_bool bDeleteAll).bind
      ((reads_u16 dbRoot).bind ((reads_u32 partitionNum).bind ((reads_u16 segmentNum).bind
        (reads_u32 hwm).map))))
  | rollbackDictStoreExtentsDBroot oid dbRoot partitionNum segNums hwms =>
    refine agrees_of_reads rfl fun _ short => (reads_u32 oid).bind ((reads_u16 dbRoot).bind
      ((reads_u32 partitionNum).bind ((reads_vector (fun _ => by simp) reads_u16 ?_).bind
        (reads_vector (fun _ => by simp) reads_u32 ?_).map)))
    all_goals simp only [length_append] at short; omega
  | deleteEmptyColExtents extentsInfo =>
    have unmarked : (fun oid => (lastWith ExtentInfo.oid extentsInfo oid).map
        fun info => { info with newFile := false }) = lastWith ExtentInfo.oid extentsInfo := by
      funext oid
      cases last : lastWith ExtentInfo.oid extentsInfo oid with
      | none => rfl
      | some info => exact congrArg some (by rw [← complete oid info last])
    refine agrees_of_reads rfl fun _ short => ?_
    have read := reads_deleteEmptyColExtents short
    rwa [unmarked] at read
  | deleteEmptyDictStoreExtents extentsInfo =>
    exact agrees_of_reads rfl fun _ => reads_deleteEmptyDictStoreExtents
  | deleteOID oid => exact agrees_of_reads rfl fun _ _ => (reads_u32 oid).map
  | deleteOIDs oids | markAllPartitionForDeletion oids =>
    exact agrees_of_reads rfl fun _ short => (reads_counted (fun _ => by simp) reads_u32 short).map
  | setLocalHWM oid partitionNum segmentNum hwm =>
    exact agrees_of_reads rfl fun _ _ => (reads_u32 oid).bind ((reads_u32 partitionNum).bind
      ((reads_u16 segmentNum).bind (reads_u32 hwm).map))
  | bulkSetHWM args transID =>
    refine agrees_of_reads rfl fun _ short =>
      (reads_vector (fun _ => by simp [BulkSetHWMArg.memory])
      BulkSetHWMArg.reads ?_).bind (reads_u32 transID).map
    simp only [length_append] at short
    omega
  | bulkSetHWMAndCP hwmArgs setCPDataArgs mergeCPDataArgs transID =>
    refine agrees_of_reads rfl fun _ short =>
      (reads_vector (fun _ => by simp [BulkSetHWMArg.memory])
      BulkSetHWMArg.reads ?_).bind
      ((reads_vector (fun a => by simp [CPInfo.memory]) CPInfo.reads ?_).bind
        ((reads_vector (fun a => by simp [CPInfoMerge.memory]) CPInfoMerge.reads ?_).bind
          (reads_u32 transID).map))
    all_goals simp only [length_append] at short; omega
  | bulkUpdateDBRoot args =>
    exact agrees_of_reads rfl fun _ short =>
      (reads_vector (fun a => by simp [BulkUpdateDBRootArg.memory]) BulkUpdateDBRootArg.reads
        short).map
  | markExtentInvalid lbid colDataType =>
    exact agrees_of_reads rfl fun _ _ => (reads_u64 lbid).bind (reads_type colDataType).map
  | markExtentsInvalid lbids colDataTypes =>
    have paired : lbids.length = colDataTypes.length := complete
    refine agrees_of_reads (Request.written_markExtentsInvalid (le_of_eq paired)) fun _ short => ?_
    have read := reads_markManyExtentsInvalid (le_of_eq paired) short
    rwa [paired, take_length, ← paired] at read
  | setExtentsMaxMin cpInfos =>
    by_cases empty : cpInfos = []
    · subst empty
      exact fun _ => trivial
    · exact agrees_of_reads (if_neg empty) fun locals => reads_setExtentsMaxMin locals
  | mergeExtentsMaxMin cpInfos =>
    obtain rfl : cpInfos = [] := complete
    exact agrees_of_reads rfl fun locals => reads_mergeExtentsMaxMin locals
  | deletePartition oids partitionNums | markPartitionForDeletion oids partitionNums
  | restorePartition oids partitionNums => exact agrees_of_reads rfl fun _ => reads_partitions _
  | deleteDBRoot dbroot =>
    refine agrees_of_reads rfl fun _ _ => ?_
    have read := (reads_u32 (dbroot.setWidth 32)).map
      (f := fun q => Call.deleteDBRoot (q.setWidth 16))
    rwa [BitVec.setWidth_setWidth_of_le _ (by decide)] at read
  | writeVBEntry transID lbid vbOID vbFBO =>
    exact agrees_of_reads rfl fun _ _ => (reads_u32 transID).bind ((reads_u64 lbid).bind
      ((reads_u32 vbOID).bind (reads_u32 vbFBO).map))
  | bulkWriteVBEntry transID lbids vbOID vbFBOs =>
    refine agrees_of_reads rfl fun _ short => (reads_u32 transID).bind
      ((reads_vector (fun _ => by simp) reads_u64 ?_).bind ((reads_u32 vbOID).bind
        (reads_vector (fun _ => by simp) reads_u32 ?_).map))
    all_goals simp only [length_append] at short; omega
  | beginVBCopy transID dbRoot ranges =>
    refine agrees_of_reads rfl fun _ short => (reads_u32 transID).bind ((reads_u16 dbRoot).bind
      (reads_ranges ?_).map)
    simp only [length_append] at short
    omega
  | endVBCopy transID ranges | vbRollbackRanges transID lbidList =>
    refine agrees_of_reads rfl fun _ short => (reads_u32 transID).bind (reads_ranges ?_).map
    rw [length_append] at short
    omega
  | vbRollback transID lbidList =>
    refine agrees_of_reads rfl fun _ short =>
      (reads_u32 transID).bind (reads_vector (fun _ => by simp) reads_u64 ?_).map
    rw [length_append] at short
    omega
  | vbCommit transID => exact agrees_of_reads rfl fun _ _ => (reads_u32 transID).map
  | dmlLockLBIDRanges ranges txnID =>
    refine agrees_of_reads rfl fun _ short => (reads_ranges ?_).bind (reads_u32 txnID).map
    rw [length_append] at short
    omega
  | dmlReleaseLBIDRanges ranges =>
    exact agrees_of_reads rfl fun _ short => (reads_ranges short).map

lemma lastWith_eq_none {K α : Type} [DecidableEq K] {key : α → K} {list : List α}
    (never : ∀ k, lastWith key list k = none) : list = [] := by
  cases list with
  | nil => rfl
  | cons a list =>
    have here := never (key a)
    rw [lastWith_cons] at here
    cases last : lastWith key list (key a) <;> simp at here

def Locals.zero : Locals := ⟨⟨0, 0, 0, 0, 0, false⟩, ⟨0, 0, 0, 0, 0, false, 0, 0⟩⟩

/-- The upper half of the partition number is left over. -/
lemma createStripeColumnExtents_not_agrees {cols : List CreateStripeColumnExtentsArgIn}
    {dbRoot : BitVec 16} {partitionNum : BitVec 32}
    (fits : (Request.createStripeColumnExtents cols dbRoot partitionNum).Fits) :
    ¬ (Request.createStripeColumnExtents cols dbRoot partitionNum).Agrees := by
  have short := length_lt_of_fits fits rfl
  rw [length_append] at short
  have written : (Request.createStripeColumnExtents cols dbRoot partitionNum).written =
      command .createStripeColumnExtents
        ((serializeVector CreateStripeColumnExtentsArgIn.memory cols ++
        (bytes 2 dbRoot ++ bytes 2 partitionNum)) ++ bytes 2 (partitionNum >>> 16)) := by
    rw [append_assoc]
    rfl
  have reads : Reads doCreateStripeColumnExtents
      (serializeVector CreateStripeColumnExtentsArgIn.memory cols ++
        (bytes 2 dbRoot ++ bytes 2 partitionNum))
      (.createStripeColumnExtents cols dbRoot ((partitionNum.setWidth 16).setWidth 32)) :=
    (reads_vector (fun a => by simp [CreateStripeColumnExtentsArgIn.memory])
      CreateStripeColumnExtentsArgIn.reads (by omega)).bind
        ((reads_u16 dbRoot).bind (word 2 partitionNum).map)
  exact not_agrees_of_more written (bytes_ne_nil _) (fun _ => reads) .zero

/-- Three of the four bytes of the data type are left over. -/
lemma createColumnExtentDBroot_not_agrees {oid : OID} {colWidth : BitVec 32} {dbRoot : BitVec 16}
    {partitionNum : BitVec 32} {segmentNum : BitVec 16} {colDataType : ColDataType} :
    ¬ (Request.createColumnExtentDBroot oid colWidth dbRoot partitionNum segmentNum
        colDataType).Agrees := by
  have written : (Request.createColumnExtentDBroot oid colWidth dbRoot partitionNum segmentNum
      colDataType).written = command .createColumnExtentDBroot
        ((bytes 4 oid ++ (bytes 4 colWidth ++ (bytes 2 dbRoot ++ (bytes 4 partitionNum ++
          (bytes 2 segmentNum ++ bytes 1 ((colDataType.setWidth 8).setWidth 32)))))) ++
          bytes 3 (((colDataType.setWidth 8).setWidth 32) >>> 8)) := by
    rfl
  have reads : Reads doCreateColumnExtentDBroot
      (bytes 4 oid ++ (bytes 4 colWidth ++ (bytes 2 dbRoot ++ (bytes 4 partitionNum ++
          (bytes 2 segmentNum ++ bytes 1 ((colDataType.setWidth 8).setWidth 32)))))) _ :=
    (reads_u32 oid).bind ((reads_u32 colWidth).bind ((reads_u16 dbRoot).bind
      ((reads_u32 partitionNum).bind ((reads_u16 segmentNum).bind (Reads.word 1 _).map))))
  exact not_agrees_of_more written (bytes_ne_nil _) (fun _ => reads) .zero

/-- The upper half of the sequence number, extended to 64 bits, is left over. -/
lemma setExtentMaxMin_not_agrees {lbid : LBID} {max min : BitVec 64} {seqNum : BitVec 32} :
    ¬ (Request.setExtentMaxMin lbid max min seqNum).Agrees := by
  have written : (Request.setExtentMaxMin lbid max min seqNum).written = command .setExtentMaxMin
      ((bytes 8 lbid ++ (bytes 8 max ++ (bytes 8 min ++ bytes 4 (seqNum.signExtend 64)))) ++
        bytes 4 ((seqNum.signExtend 64) >>> 32)) := by
    rfl
  have reads : Reads doSetExtentMaxMin
      (bytes 8 lbid ++ (bytes 8 max ++ (bytes 8 min ++ bytes 4 (seqNum.signExtend 64)))) _ :=
    (reads_u64 lbid).bind ((reads_u64 max).bind ((reads_u64 min).bind (Reads.word 4 _).map))
  exact not_agrees_of_more written (bytes_ne_nil _) (fun _ => reads) .zero

/-- A message whose arguments are read as another call is not agreed on. -/
lemma Request.call_eq_of_agrees (agrees : r.Agrees) (written : r.written = command id arguments)
    (locals : Locals) (reads : Reads (id.decoder locals) arguments call) : r.call = call := by
  unfold Request.Agrees at agrees
  rw [written] at agrees
  have taken := (reads_command reads).run
  rw [agrees locals] at taken
  exact (mk.inj (some.inj taken)).1

lemma complete_of_agrees (agrees : r.Agrees) (fits : r.Fits) : r.Complete := by
  cases r with
  | createStripeColumnExtents => exact createStripeColumnExtents_not_agrees fits agrees
  | createColumnExtentDBroot => exact createColumnExtentDBroot_not_agrees agrees
  | setExtentMaxMin => exact setExtentMaxMin_not_agrees agrees
  | deleteEmptyColExtents extentsInfo =>
    intro oid info last
    have same := Request.call_eq_of_agrees agrees rfl .zero
      (reads_deleteEmptyColExtents (length_lt_of_fits fits rfl))
    have here := congrFun (Call.deleteEmptyColExtents.inj same) oid
    rw [last, map_some, some.injEq] at here
    rw [here]
  | markExtentsInvalid lbids colDataTypes =>
    have enough : lbids.length ≤ colDataTypes.length := by
      refine not_lt.mp fun few => ?_
      have written : (Request.markExtentsInvalid lbids colDataTypes).written = .outOfBounds :=
        if_pos few
      unfold Request.Agrees at agrees
      rwa [written] at agrees
    have written := Request.written_markExtentsInvalid enough
    have same := Request.call_eq_of_agrees agrees written .zero
      (reads_markManyExtentsInvalid enough (length_lt_of_fits fits written))
    have lengths := congrArg length (Call.markExtentsInvalid.inj same).2
    rw [length_take, min_eq_left enough] at lengths
    exact lengths.symm
  | mergeExtentsMaxMin cpInfos =>
    have never : ∀ lbid, lastWith CPInfoMerge.startLbid cpInfos lbid = none := by
      intro lbid
      cases last : lastWith CPInfoMerge.startLbid cpInfos lbid with
      | none => rfl
      | some info =>
        -- whatever the width of the column, the variable may have held another one
        let locals : Locals :=
          ⟨Locals.zero.cpMaxMin, { Locals.zero.cpMaxMinMerge with colWidth := info.colWidth + 1 }⟩
        have same := Request.call_eq_of_agrees agrees rfl locals
          (reads_mergeExtentsMaxMin locals (length_lt_of_fits fits rfl))
        have here := congrFun (Call.mergeExtentsMaxMin.inj same) lbid
        rw [last, map_some, map_some, some.injEq] at here
        have width := congrArg CPMaxMinMerge.colWidth here
        simp [CPInfoMerge.entry, CPInfoMerge.sent, locals] at width
    exact lastWith_eq_none never
  | _ => exact trivial

/-- A request that fits in a byte stream is decoded to the call with the same values, and nothing
is left of the message, exactly when it is complete. -/
theorem decoders_agree_iff (r : Request) (fits : r.Fits) : r.Agrees ↔ r.Complete :=
  ⟨fun agrees => complete_of_agrees agrees fits, fun complete => agrees_of_complete complete fits⟩

/-- Bounds for an extent of a narrow column and for one of a wide column. -/
def narrowAndWide : Request :=
  .setExtentsMaxMin [⟨1024, 9, -5, 3, 0, 0, 0, false, 0⟩, ⟨2048, 0, 0, 4, 0, 2 ^ 100, -7, true, 0⟩]

theorem decoders_agree_narrowAndWide : narrowAndWide.Complete ∧ narrowAndWide.Agrees := by
  have fits : narrowAndWide.Fits := by
    show length _ < 2 ^ 32
    decide
  exact ⟨trivial, (decoders_agree_iff narrowAndWide fits).mpr trivial⟩

/-- A stripe in partition 65536 is created in partition 0, with two bytes of the message unread; a
merged entry of a column 16 bytes wide arrives with whatever width the variable held. -/
theorem decoders_lose_values :
    (∃ m, (Request.createStripeColumnExtents [] 1 65536).written = .message m ∧
      (processCommand .zero).run m = some (.createStripeColumnExtents [] 1 0, [1, 0])) ∧
    (∃ m cpMap, (Request.mergeExtentsMaxMin [⟨1024, 0, 0, 0, 4, 16, false, 0, 9, -9⟩]).written =
        .message m ∧
      (processCommand .zero).run m = some (.mergeExtentsMaxMin cpMap, []) ∧
      cpMap 1024 = some ⟨0, 0, 0, 4, 0, false, 0, 0⟩) :=
  ⟨⟨_, rfl, rfl⟩, ⟨_, _, rfl, rfl, rfl⟩⟩

end WorkerMessages
