import ColumnStore.VectorScan

/-!
# Scanning a block with an auxiliary column

Model of `columnScanAndFilter` of `primitives/linux-port/column.cpp` for a request with
`hasAuxCol`: a row is deleted when its byte of the auxiliary block is the empty marker. The
vectorised form compares sixteen bytes of the auxiliary block at a time, keeps the resulting masks
in an array of their own and reads them again, as many bytes as a vector of the column has lanes.
On the way it moves the pointer `blockAux`, from which the loop over the rest of the slots then
reads.

A read outside the auxiliary block or the masks, and the assertion on an operation without a
SIMD form, stop a scan (`none`). SIMD operations work lane by lane. Besides the message a scan
carries the list of the rows it has written. The bounds of the values, which do not influence
the rows, are those of `BlockScan` and are left out here.
-/

namespace AuxScan

open ByteStrings ColumnTypes BlockFilter BlockScan CasualPartition List Option Nat

variable {ct : ColType}

/-- A character set with the weights that `strnxfrm` writes for a string, as the number the lanes
compare after the swap of the bytes. -/
structure Weights extends Charset where
  strnxfrm : List Byte → Nat
  strnxfrmIsValid : Bool

def auxColEmptyvalue : Byte := 0xFF

/-- A request with an auxiliary block, which has one byte for each row of the data block. -/
structure AuxRequest (ct : ColType) extends Request ct where
  bop : Bop
  args : List (ColArgs ct)
  parsed : parseColumnFilter args bop = some filter
  blockAux : List Byte
  byteEach : blockAux.length = srcArray.length
  inBlock : ∀ rid ∈ toRequest.order, rid < srcArray.length

/-- The rows written so far and the message with them. -/
structure Written (ct : ColType) where
  rows : List Nat
  out : ColResult ct
  deriving DecidableEq

/-- The message before the first row. -/
def Written.start : Written ct := ⟨[], .empty⟩

def Written.write (req : AuxRequest ct) (written : Written ct) (rid : Nat) : Written ct :=
  ⟨written.rows ++ [rid], writeColValue req.toRequest written.out rid⟩

/-- `nextColValue` with an auxiliary column, for a pointer that stands at `base`. -/
def nextColValue (req : AuxRequest ct) (base rid : Nat) : Option (Option Bool) := do
  let aux ← req.blockAux[base + rid]?
  if req.ridArray.isSome || req.outputType.hasRid then
    pure (if aux ≠ auxColEmptyvalue then some false else none)
  else pure (some (decide (aux = auxColEmptyvalue)))

/-- The loop of `scalarFiltering_`. -/
def scalarSlot (cs : Charset) (req : AuxRequest ct) (isNullValueMatches : Bool) (base : Nat)
    (written : Written ct) (rid : Nat) : Option (Written ct) := do
  match ← nextColValue req base rid with
  | none | some true => pure written
  | some false =>
    let curValue := req.slot rid
    if curValue = getNullValue ct then
      pure (if isNullValueMatches then written.write req rid else written)
    else
      pure (if matchingColValue cs false curValue req.filter then written.write req rid
        else written)

/-- `scalarFiltering_`, from slot number `initialRID` of the order on. -/
def scalarFiltering_ (cs : Charset) (req : AuxRequest ct) (isNullValueMatches : Bool)
    (base initialRID : Nat) (written : Written ct) : Option (Written ct) :=
  (req.order.drop initialRID).foldlM (scalarSlot cs req isNullValueMatches base) written

/-- The bytes of a vector, which are the lanes of the auxiliary column. -/
def vectorSizeAux : Nat := 16

/-- `buildAuxColEmptyVal`: the masks of `iterNumberAux` whole vectors of the auxiliary column, and
how far `blockAux` has been moved. -/
def buildAuxColEmptyVal (req : AuxRequest ct) (iterNumberAux : Nat) : Option (List Byte × Nat) := do
  let nonEmptyMaskAux ← (req.order.take (iterNumberAux * vectorSizeAux)).mapM fun rid => do
    let aux ← req.blockAux[rid]?
    pure (if aux ≠ auxColEmptyvalue then (0xFF : Byte) else 0)
  pure (nonEmptyMaskAux, iterNumberAux * vectorSizeAux)

/-- Lane number `i` of a mask made from its bytes, as a number: `maskCtor` doubles the byte for
lanes of two bytes and leaves it in its place for lanes of four. -/
def maskLane (width i : Nat) (byte : Byte) : Nat :=
  match width with
  | 2 => byte.toNat * 0x0101
  | 4 => byte.toNat * 2 ^ (8 * i)
  | _ => byte.toNat

/-- `getNonEmptyMaskAux`: the bytes for vector number `iter`. -/
def getNonEmptyMaskAux (ct : ColType) (nonEmptyMaskAux : List Byte) (iter : Nat) :
    Option (List Nat) :=
  let bytes := (nonEmptyMaskAux.drop (iter * vectorSize ct)).take (vectorSize ct)
  if bytes.length = vectorSize ct then some (bytes.mapIdx (maskLane ct.colWidth)) else none

/-- The weights of a word, for text. -/
def weightsOf (w : Weights) (v : Value ct) : Nat := w.strnxfrm (rtrimZero (bytes ct.colWidth v))

/-- A SIMD comparison, on one lane. -/
def laneCompareKind (w : Weights) (v c : Value ct) (cop : Cop) : Bool :=
  match kind ct with
  | .text => colCompareNoRound_ (weightsOf w v) (weightsOf w c) cop
  | .float =>
    if cop = .nulleq then v == c
    else if ct.colWidth = 4 then
      colCompareNoRound_ (Float32.ofBits ⟨v.setWidth 32⟩) (Float32.ofBits ⟨c.setWidth 32⟩) cop
    else colCompareNoRound_ (Float.ofBits ⟨v.setWidth 64⟩) (Float.ofBits ⟨c.setWidth 64⟩) cop
  | _ => laneCompare v c cop

/-- The loop over the filters, on one lane. -/
def filterLane (w : Weights) (bop : Bop) (args : List (ColArgs ct)) (v : Value ct) : Bool :=
  (args.foldl (fun (masks : Bool × Bool) arg =>
    let filterMask := laneCompareKind w v arg.val arg.cop
    let filterMask := if isOr bop then masks.1 || filterMask else masks.1 && filterMask
    (filterMask, filterMask)) (!isOr bop, true)).2

/-- `writeMask`, on one lane. -/
def writeLane (w : Weights) (req : AuxRequest ct) (isNullValueMatches nonEmpty : Bool)
    (v : Value ct) : Bool :=
  let writeMask := if isNullValueMatches then nonEmpty else nonEmpty && v != getNullValue ct
  writeMask && filterLane w req.bop req.filter.args v

/-- The body of the main loop of `vectorizedFiltering_`. -/
def vectorIteration (w : Weights) (req : AuxRequest ct) (isNullValueMatches : Bool)
    (nonEmptyMaskAux : List Byte) (written : Written ct) (iter : Nat) : Option (Written ct) := do
  let rids := (req.order.drop (iter * vectorSize ct)).take (vectorSize ct)
  let nonEmptyMask ← getNonEmptyMaskAux ct nonEmptyMaskAux iter
  if req.filter.args.all fun arg => decide (arg.cop ∈ vectorCops) then
    pure ((rids.zip nonEmptyMask).foldl (fun written lane =>
      if writeLane w req isNullValueMatches (lane.2 != 0) (req.slot lane.1) then
        written.write req lane.1 else written) written)
  else none

/-- `vectorizedFiltering_`: the masks, the vectors, then the rest of the slots one at a time,
from the pointer that the masks have moved. -/
def vectorizedFiltering_ (w : Weights) (req : AuxRequest ct) (isNullValueMatches : Bool) :
    Option (Written ct) := do
  let iterNumber := req.order.length / vectorSize ct
  let iterNumberAux := req.order.length / vectorSizeAux
  let (nonEmptyMaskAux, base) ← buildAuxColEmptyVal req iterNumberAux
  let written ← (List.range iterNumber).foldlM
    (vectorIteration w req isNullValueMatches nonEmptyMaskAux) .start
  scalarFiltering_ w.toCharset req isNullValueMatches base (iterNumber * vectorSize ct) written

/-- The condition of `filterColumnData` for the vectorised form. -/
def vectorised (w : Weights) (req : AuxRequest ct) : Bool :=
  decide (ct.colWidth < 16) && (kind ct != .text || w.strnxfrmIsValid) &&
    req.filter.args.all fun arg => arg.rf == 0

/-- `columnScanAndFilter` with `hasAuxCol`. -/
def columnScanAndFilter (w : Weights) (req : AuxRequest ct) : Option (Written ct) :=
  let isNullValueMatches := matchingColValue w.toCharset true (getNullValue ct) req.filter
  if vectorised w req then vectorizedFiltering_ w req isNullValueMatches
  else scalarFiltering_ w.toCharset req isNullValueMatches 0 0 .start

/-- The byte at place `i` of the auxiliary block is not the empty marker. -/
def live (req : AuxRequest ct) (i : Nat) : Bool :=
  req.blockAux.getD i auxColEmptyvalue != auxColEmptyvalue

/-- The value of a row matches the filter. -/
def matchesFilter (w : Weights) (req : AuxRequest ct) (rid : Nat) : Bool :=
  slotMatches w.toCharset req.filter (req.slot rid)

/-- The given rows, written one after the other. -/
def writeAll (req : AuxRequest ct) (written : Written ct) (rows : List Nat) : Written ct :=
  rows.foldl (Written.write req) written

/-- The rows a scan has to return. -/
def liveRows (w : Weights) (req : AuxRequest ct) : List Nat :=
  req.order.filter fun rid => live req rid && matchesFilter w req rid

variable (req : AuxRequest ct)

variable (written : Written ct)

lemma writeAll_rows (rows : List Nat) :
    (writeAll req written rows).rows = written.rows ++ rows := by
  induction rows generalizing written with
  | nil => simp [writeAll]
  | cons rid rows later =>
    have next := later (written.write req rid)
    simpa [Written.write, writeAll] using next

variable (rows rows' : List Nat)

lemma writeAll_inj :
    writeAll req .start rows = writeAll req .start rows' ↔ rows = rows' := by
  refine ⟨fun same => ?_, fun same => by rw [same]⟩
  have := congrArg Written.rows same
  rwa [writeAll_rows, writeAll_rows] at this

lemma writeAll_append :
    writeAll req (writeAll req written rows) rows' = writeAll req written (rows ++ rows') :=
  (foldl_append ..).symm

lemma writeAll_lanes {rids lanes : List Nat}
    {mask : Nat → Bool} (masked : lanes.map (· != 0) = rids.map mask) (chosen : Nat → Bool → Bool) :
    (rids.zip lanes).foldl (fun written lane =>
      if chosen lane.1 (lane.2 != 0) then written.write req lane.1 else written) written =
    writeAll req written (rids.filter fun rid => chosen rid (mask rid)) := by
  induction rids generalizing lanes written with
  | nil => rfl
  | cons rid rids later =>
    obtain ⟨lane, lanes, rfl⟩ : ∃ lane rest, lanes = lane :: rest := by
      cases lanes with
      | nil => simp at masked
      | cons lane lanes => exact ⟨lane, lanes, rfl⟩
    obtain ⟨first, rest⟩ : (lane != 0) = mask rid ∧ _ := cons_eq_cons.mp masked
    rw [zip_cons_cons, foldl_cons, later _ rest, filter_cons, first]
    cases chosen rid (mask rid) <;> simp [writeAll]

lemma filter_append_eq_iff (l l' : List Nat) (p q e : Nat → Bool) :
    l.filter p ++ l'.filter q = (l ++ l').filter e ↔
      (∀ x ∈ l, p x = e x) ∧ ∀ x ∈ l', q x = e x := by
  have counted : ∀ (l : List Nat) (p : Nat → Bool) x,
      (l.filter p).count x = if p x then l.count x else 0 := by
    intro l p x
    cases kept : p x
    · simp [count_eq_zero, kept]
    · simp [count_filter kept]
  constructor
  · intro same
    have counts : ∀ x, (if p x then l.count x else 0) + (if q x then l'.count x else 0) =
        if e x then l.count x + l'.count x else 0 := by
      intro x
      have := congrArg (count x) same
      rwa [count_append, counted, counted, counted, count_append] at this
    have decided : ∀ x, (0 < l.count x → p x = e x) ∧ (0 < l'.count x → q x = e x) := by
      intro x
      have sum := counts x
      generalize l.count x = a at sum ⊢
      generalize l'.count x = b at sum ⊢
      revert sum
      cases p x <;> cases q x <;> cases e x <;> simp
      all_goals omega
    exact ⟨fun x member => (decided x).1 (count_pos_iff.mpr member),
      fun x member => (decided x).2 (count_pos_iff.mpr member)⟩
  · rintro ⟨first, second⟩
    rw [filter_append, filter_congr first, filter_congr second]

section Scalar

variable (w : Weights) (req : AuxRequest ct)

/-- What the callers compute for NULL. -/
def nullMatches : Bool := matchingColValue w.toCharset true (getNullValue ct) req.filter

lemma nextColValue_live {base rid : Nat} (within : base + rid < req.blockAux.length) :
    nextColValue req base rid = some (if live req (base + rid) then some false
      else if req.ridArray.isSome || req.outputType.hasRid then none else some true) := by
  have byte : req.blockAux[base + rid]? = some req.blockAux[base + rid] :=
    getElem?_eq_getElem within
  have same : live req (base + rid) = (req.blockAux[base + rid] != auxColEmptyvalue) := by
    simp [live, byte]
  rw [same]
  by_cases empty : req.blockAux[base + rid] = auxColEmptyvalue <;>
    by_cases passes : (req.ridArray.isSome || req.outputType.hasRid) <;>
    simp [nextColValue, byte, empty, passes]

lemma scalarSlot_within {base rid : Nat} (within : base + rid < req.blockAux.length)
    (written : Written ct) :
    scalarSlot w.toCharset req (nullMatches w req) base written rid =
      some (if live req (base + rid) && matchesFilter w req rid then written.write req rid
        else written) := by
  unfold scalarSlot
  rw [nextColValue_live req within]
  cases live req (base + rid)
  · cases (req.ridArray.isSome || req.outputType.hasRid) <;> rfl
  by_cases null : req.slot rid = getNullValue ct
  · cases answer : matchingColValue w.toCharset true (getNullValue ct) req.filter <;>
      simp [matchesFilter, slotMatches, null, nullMatches, answer]
  · simp [matchesFilter, slotMatches, null]

lemma scalarSlot_run (base : Nat) (rids : List Nat) (written : Written ct) :
    rids.foldlM (scalarSlot w.toCharset req (nullMatches w req) base) written =
      if ∀ rid ∈ rids, base + rid < req.blockAux.length then
        some (writeAll req written
          (rids.filter fun rid => live req (base + rid) && matchesFilter w req rid))
      else none := by
  induction rids generalizing written with
  | nil => simp [writeAll]
  | cons rid rids later =>
    rw [foldlM_cons]
    by_cases within : base + rid < req.blockAux.length
    · rw [scalarSlot_within w req within, bind_eq_bind, bind_some, later, filter_cons]
      cases live req (base + rid) && matchesFilter w req rid <;>
        simp [within, writeAll]
    · simp [scalarSlot, nextColValue, within]

end Scalar

section Vectors

variable (w : Weights) (req : AuxRequest ct)

lemma maskLane_ne_zero (width i : Nat) (byte : Byte) :
    (maskLane width i byte != 0) = (byte != 0) := by
  have zero : byte.toNat = 0 ↔ byte = 0 := by
    rw [← BitVec.toNat_inj]
    rfl
  rw [Bool.eq_iff_iff, bne_iff_ne, bne_iff_ne, not_iff_not, ← zero]
  unfold maskLane
  split <;> simp

/-- The mask of one row. -/
def maskByte (rid : Nat) : Byte := if live req rid then 0xFF else 0

lemma maskByte_ne_zero (rid : Nat) : (maskByte req rid != 0) = live req rid := by
  unfold maskByte
  cases live req rid <;> decide

lemma buildAuxColEmptyVal_eq (iterNumberAux : Nat) :
    buildAuxColEmptyVal req iterNumberAux =
      some ((req.order.take (iterNumberAux * vectorSizeAux)).map (maskByte req),
        iterNumberAux * vectorSizeAux) := by
  have bytes : ∀ rids : List Nat, (∀ rid ∈ rids, rid < req.blockAux.length) →
      (rids.mapM fun rid => do
        let aux ← req.blockAux[rid]?
        pure (if aux ≠ auxColEmptyvalue then (0xFF : Byte) else 0)) =
      some (rids.map (maskByte req)) := by
    intro rids
    induction rids with
    | nil => intro _; rfl
    | cons rid rids later =>
      intro within
      have byte := getElem?_eq_getElem (within rid (mem_cons_self ..))
      rw [mapM_cons, later fun rid member => within rid (mem_cons_of_mem _ member)]
      simp [byte, maskByte, live]
  unfold buildAuxColEmptyVal
  rw [bytes _ fun rid member => req.byteEach ▸ req.inBlock rid (mem_of_mem_take member)]
  rfl

/-- What a lane writes a row for. -/
def laneWrites (rid : Nat) : Bool :=
  writeLane w req (nullMatches w req) (live req rid) (req.slot rid)

/-- The slots of vector number `iter`. -/
def vectorSlots (iter : Nat) : List Nat :=
  (req.order.drop (iter * vectorSize ct)).take (vectorSize ct)

/-- Masks of the first `m` slots can be read for the vectors that end there. -/
lemma getNonEmptyMaskAux_eq {m : Nat} (built : m ≤ req.order.length) (iter : Nat) :
    getNonEmptyMaskAux ct ((req.order.take m).map (maskByte req)) iter =
      if (iter + 1) * vectorSize ct ≤ m then
        some (((vectorSlots req iter).map (maskByte req)).mapIdx (maskLane ct.colWidth))
      else none := by
  have size := vectorSize_pos ct
  simp only [getNonEmptyMaskAux, ← map_drop, ← map_take, drop_take, take_take, add_one_mul]
  by_cases within : iter * vectorSize ct + vectorSize ct ≤ m
  · rw [min_eq_left (by omega), if_pos within, if_pos]
    · rfl
    · rw [length_map, length_take_of_le]
      rw [length_drop]
      omega
  · rw [if_neg within, if_neg]
    rw [length_map, length_take]
    omega

lemma mask_lanes (rids : List Nat) :
    ((rids.map (maskByte req)).mapIdx (maskLane ct.colWidth)).map (· != 0) =
      rids.map (live req) := by
  refine ext_getElem (by simp) fun i _ within => ?_
  rw [length_map] at within
  simpa [maskLane_ne_zero] using maskByte_ne_zero req rids[i]

/-- The operations all have a SIMD form. -/
def Compared : Prop := ∀ arg ∈ req.filter.args, arg.cop ∈ vectorCops
  deriving Decidable

lemma vectorIteration_eq {m : Nat} (built : m ≤ req.order.length) (iter : Nat)
    (written : Written ct) :
    vectorIteration w req (nullMatches w req) ((req.order.take m).map (maskByte req)) written iter =
      if (iter + 1) * vectorSize ct ≤ m ∧ Compared req then
        some (writeAll req written ((vectorSlots req iter).filter (laneWrites w req)))
      else none := by
  unfold vectorIteration
  rw [getNonEmptyMaskAux_eq req built]
  by_cases within : (iter + 1) * vectorSize ct ≤ m
  · rw [if_pos within, bind_eq_bind, bind_some]
    by_cases compared : Compared req
    · rw [if_pos (by simpa [Compared] using compared), if_pos ⟨within, compared⟩]
      exact congrArg some (writeAll_lanes req written (mask_lanes req (vectorSlots req iter))
        fun rid nonEmpty => writeLane w req (nullMatches w req) nonEmpty (req.slot rid))
    · rw [if_neg (by simpa [Compared] using compared), if_neg fun both => compared both.2]
  · rw [if_neg within, if_neg fun both => within both.1]
    rfl

lemma vectorLoop_eq {m : Nat} (built : m ≤ req.order.length) (iterNumber : Nat) :
    (range iterNumber).foldlM
        (vectorIteration w req (nullMatches w req) ((req.order.take m).map (maskByte req))) .start =
      if iterNumber = 0 ∨ iterNumber * vectorSize ct ≤ m ∧ Compared req then
        some (writeAll req .start
          ((req.order.take (iterNumber * vectorSize ct)).filter (laneWrites w req)))
      else none := by
  induction iterNumber with
  | zero => simp [writeAll]
  | succ n before =>
    rw [range_succ, foldlM_append, before]
    by_cases reached : n = 0 ∨ n * vectorSize ct ≤ m ∧ Compared req
    · rw [if_pos reached, bind_eq_bind, bind_some, foldlM_cons, vectorIteration_eq w req built]
      by_cases more : (n + 1) * vectorSize ct ≤ m ∧ Compared req
      · rw [if_pos more, if_pos (.inr more), writeAll_append, ← filter_append,
          add_one_mul, take_add]
        rfl
      · rw [if_neg more, if_neg (by simpa using more)]
        rfl
    rw [if_neg reached, if_neg]
    · rfl
    rw [add_one_mul]
    rintro (zero | ⟨within, compared⟩)
    · exact absurd zero (succ_ne_zero n)
    · exact reached (.inr ⟨by omega, compared⟩)

/-- The rows of the whole vectors. -/
def vectorPart : List Nat := req.order.take (req.order.length / vectorSize ct * vectorSize ct)

/-- The rows left for the scalar loop. -/
def scalarPart : List Nat := req.order.drop (req.order.length / vectorSize ct * vectorSize ct)

/-- Where `blockAux` points after the masks have been built. -/
def movedTo : Nat := req.order.length / vectorSizeAux * vectorSizeAux

lemma vectorizedFiltering_eq :
    vectorizedFiltering_ w req (nullMatches w req) =
      if (req.order.length < vectorSize ct ∨
          req.order.length / vectorSize ct * vectorSize ct ≤ movedTo req ∧ Compared req) ∧
          ∀ rid ∈ scalarPart req, movedTo req + rid < req.blockAux.length then
        some (writeAll req .start ((vectorPart req).filter (laneWrites w req) ++
          (scalarPart req).filter fun rid =>
            live req (movedTo req + rid) && matchesFilter w req rid))
      else none := by
  have size := vectorSize_pos ct
  have built : movedTo req ≤ req.order.length := div_mul_le_self ..
  simp only [vectorizedFiltering_, buildAuxColEmptyVal_eq, bind_eq_bind, bind_some]
  rw [← movedTo, vectorLoop_eq w req built]
  simp only [div_eq_zero_iff_lt size]
  by_cases reached : req.order.length < vectorSize ct ∨
      req.order.length / vectorSize ct * vectorSize ct ≤ movedTo req ∧ Compared req
  · rw [if_pos reached, bind_some, scalarFiltering_, scalarSlot_run, ← scalarPart]
    by_cases within : ∀ rid ∈ scalarPart req, movedTo req + rid < req.blockAux.length
    · rw [if_pos within, if_pos ⟨reached, within⟩, writeAll_append, vectorPart]
    · rw [if_neg within, if_neg fun both => within both.2]
  · rw [if_neg reached, if_neg fun both => reached both.1]
    rfl

end Vectors

/-- What a vectorised scan needs to return the live rows that match: there are masks for all its
vectors, the operations have SIMD forms, the lanes decide for the live values as the scalar
comparison does, and the bytes that the scalar loop reads from the moved pointer lie in the block
and say the same as the rows' own. -/
structure AuxReadsRight (w : Weights) (req : AuxRequest ct) : Prop where
  masks : req.order.length % vectorSizeAux < vectorSize ct
  compared : vectorSize ct ≤ req.order.length → ∀ arg ∈ req.args, arg.cop ∈ vectorCops
  lanes : ∀ rid ∈ vectorPart req, live req rid = true →
    writeLane w req (nullMatches w req) true (req.slot rid) = matchesFilter w req rid
  tail : ∀ rid ∈ scalarPart req, movedTo req + rid < req.srcArray.length ∧
    (matchesFilter w req rid = true → live req (movedTo req + rid) = live req rid)

section Whole

variable (w : Weights) (req : AuxRequest ct)

/-- The vectors end where the masks end exactly when the rest is too short for a vector. -/
lemma masks_iff (narrow : ct.colWidth < 16) :
    req.order.length / vectorSize ct * vectorSize ct ≤ movedTo req ↔
      req.order.length % vectorSizeAux < vectorSize ct := by
  have width := ct.colWidth_mem
  simp only [mem_cons, not_mem_nil, or_false] at width
  unfold movedTo vectorSizeAux vectorSize
  rcases width with width | width | width | width | width <;> rw [width] at narrow ⊢ <;> omega

lemma compared_iff : Compared req ↔ ∀ arg ∈ req.args, arg.cop ∈ vectorCops := by
  have kept : ∀ arg : ColArgs ct, prestoredCop arg ∈ vectorCops ↔ arg.cop ∈ vectorCops := by
    intro arg
    refine ⟨fun listed => ?_, prestored_mem⟩
    unfold prestoredCop at listed
    split at listed
    case isTrue isNull => simp [isNull.1, vectorCops]
    case isFalse => exact listed
  simp [Compared, (parsed_cases req.parsed).1, kept]

lemma laneWrites_eq_iff (rid : Nat) :
    laneWrites w req rid = (live req rid && matchesFilter w req rid) ↔
      (live req rid →
        writeLane w req (nullMatches w req) true (req.slot rid) = matchesFilter w req rid) := by
  unfold laneWrites
  cases live req rid with
  | true => simp
  | false => simp [writeLane]

lemma tail_eq_iff (rid : Nat) :
    (live req (movedTo req + rid) && matchesFilter w req rid) =
        (live req rid && matchesFilter w req rid) ↔
      (matchesFilter w req rid → live req (movedTo req + rid) = live req rid) := by
  cases matchesFilter w req rid <;> simp

lemma scalarFiltering_eq :
    scalarFiltering_ w.toCharset req (nullMatches w req) 0 0 .start =
      some (writeAll req .start (liveRows w req)) := by
  rw [scalarFiltering_, scalarSlot_run, if_pos]
  · simp only [zero_add]
    rfl
  · intro rid member
    rw [zero_add, req.byteEach]
    exact req.inBlock rid member

lemma vectorised_returns_iff (narrow : ct.colWidth < 16) :
    vectorizedFiltering_ w req (nullMatches w req) =
      some (writeAll req .start (liveRows w req)) ↔ AuxReadsRight w req := by
  have divided : liveRows w req = (vectorPart req ++ scalarPart req).filter fun rid =>
      live req rid && matchesFilter w req rid := by
    rw [vectorPart, scalarPart, take_append_drop]
    rfl
  rw [vectorizedFiltering_eq, ite_none_right_eq_some, some_inj, writeAll_inj, divided,
    filter_append_eq_iff, masks_iff req narrow, compared_iff, req.byteEach]
  simp only [laneWrites_eq_iff, tail_eq_iff]
  constructor
  · rintro ⟨⟨reached, within⟩, lanes, tail⟩
    refine ⟨?_, fun whole => ?_, lanes, fun rid member => ⟨within rid member, tail rid member⟩⟩
    · rcases reached with short | ⟨masks, -⟩
      · exact lt_of_le_of_lt (mod_le ..) short
      · exact masks
    · rcases reached with short | ⟨-, compared⟩
      · exact absurd whole (Nat.not_le_of_lt short)
      · exact compared
  rintro ⟨masks, compared, lanes, tail⟩
  refine ⟨⟨?_, fun rid member => (tail rid member).1⟩, lanes,
    fun rid member => (tail rid member).2⟩
  rcases lt_or_ge req.order.length (vectorSize ct) with short | whole
  · exact .inl short
  · exact .inr ⟨masks, compared whole⟩

end Whole

/-- Numbers need no weights. -/
def numberWeights : Weights := ⟨numberCharset, fun _ => 0, true⟩

/-- A request for given rows of a block of forty equal values, of which some are deleted. -/
def someRows (ct : ColType) (rids deleted : List Nat) (inBlock : ∀ rid ∈ rids, rid < 40) :
    AuxRequest ct :=
  { srcArray := List.replicate 40 5
    ridArray := some rids
    outputType := .both
    validMinMax := false
    filter := ⟨.alwaysTrue, []⟩
    bop := .and
    args := []
    parsed := rfl
    blockAux := (List.range 40).map fun rid => if rid ∈ deleted then auxColEmptyvalue else 0
    byteEach := by simp
    inBlock := by simpa [Request.order] using inBlock }

def tinyintColumn : ColType := ⟨.tinyint, 1, by decide⟩

end AuxScan
