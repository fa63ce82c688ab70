import ColumnStore.BlockFilter

/-!
# Scanning a block

Model of `scalarFiltering_` and `vectorizedFiltering_` of `primitives/linux-port/column.cpp`
for a column without an auxiliary column. Both read the slots of a block in their order, or
those of a list of RIDs, and put the RIDs and values of the matching slots into a result
message with the bounds of the values read. The vectorised form takes as many slots at a time
as a vector has lanes and hands the rest to the scalar loop.

A mask is the list of its lanes. A block has at most 8192 slots and a list of RIDs fewer than
2^16 elements, so the 16-bit counters of the code do not wrap around and are numbers here. The
arrays of the message are written from their beginning without gaps and are lists.
-/

namespace BlockScan

open ColumnTypes BlockFilter

/-- `OT_RID`, `OT_TOKEN`, `OT_BOTH` and `OT_DATAVALUE`. -/
inductive OutputType where
  | rid | token | both | datavalue
  deriving DecidableEq, Repr

/-- `OutputType & OT_RID`. -/
def OutputType.hasRid : OutputType → Bool
  | .rid | .both => true
  | _ => false

/-- `OutputType & (OT_TOKEN | OT_DATAVALUE)`. -/
def OutputType.hasValue : OutputType → Bool
  | .rid => false
  | _ => true

/-- `getEmptyValue<T>`, by the width of `T`. -/
def emptyPattern (type : ColDataType) (width : Nat) : Nat :=
  match width with
  | 16 => 2 ^ 127 + 1
  | 8 =>
    match type with
    | .double | .udouble => 0xFFFAAAAAAAAAAAAB
    | .char | .varchar | .date | .datetime | .timestamp | .time | .varbinary | .blob
    | .text => 0xFFFFFFFFFFFFFFFF
    | .ubigint => 0xFFFFFFFFFFFFFFFF
    | _ => 0x8000000000000001
  | 4 =>
    match type with
    | .float | .ufloat => 0xFFAAAAAB
    | .char | .varchar | .blob | .text | .date | .datetime | .timestamp | .time => 0xFFFFFFFF
    | .uint | .umedint => 0xFFFFFFFF
    | _ => 0x80000001
  | 2 =>
    match type with
    | .char | .varchar | .blob | .text | .date | .datetime | .timestamp | .time => 0xFFFF
    | .usmallint => 0xFFFF
    | _ => 0x8001
  | _ =>
    match type with
    | .char | .varchar | .blob | .text | .date | .datetime | .timestamp | .time => 0xFF
    | .utinyint => 0xFF
    | _ => 0x81

def getEmptyValue (ct : ColType) : Value ct :=
  BitVec.ofNat _ (emptyPattern ct.colDataType ct.colWidth)

variable {ct : ColType}

/-- The order of the storage type of a column. -/
def laneLt (val1 val2 : Value ct) : Bool :=
  match kind ct with
  | .unsigned => decide (val1.toNat < val2.toNat)
  | _ => decide (val1.toInt < val2.toInt)

/-- `ColResultHeader` with the arrays behind it. -/
structure ColResult (ct : ColType) where
  nvals : Nat
  rids : List Nat
  values : List (Value ct)
  ridFlags : Nat
  minMax : Option (Value ct × Value ct)
  deriving DecidableEq

/-- The message the filtering starts with. -/
def ColResult.empty : ColResult ct := ⟨0, [], [], 0, none⟩

/-- What a request asks for, and the block. -/
structure Request (ct : ColType) where
  srcArray : List (Value ct)
  ridArray : Option (List Nat)
  outputType : OutputType
  validMinMax : Bool
  filter : ParsedColumnFilter ct

namespace Request

/-- The slots in the order in which they are read. -/
def order (req : Request ct) : List Nat := req.ridArray.getD (List.range req.srcArray.length)

/-- `srcArray[rid]`. -/
def slot (req : Request ct) (rid : Nat) : Value ct := req.srcArray.getD rid 0

end Request

/-- What `nextColValue` does with a slot: with RIDs in the request or in the result the empty
slots are passed over, otherwise each slot is returned with the flag `isEmpty`. -/
def nextColValue (req : Request ct) (rid : Nat) : Option Bool :=
  if req.ridArray.isSome || req.outputType.hasRid then
    if req.slot rid ≠ getEmptyValue ct then some false else none
  else some (decide (req.slot rid = getEmptyValue ct))

def writeColValue (req : Request ct) (out : ColResult ct) (rid : Nat) : ColResult ct :=
  { out with
    nvals := out.nvals + 1
    rids := if req.outputType.hasRid then out.rids ++ [rid] else out.rids
    values := if req.outputType.hasValue then out.values ++ [req.slot rid] else out.values
    ridFlags := if req.outputType.hasRid then out.ridFlags ||| 1 <<< (rid >>> 9) else out.ridFlags }

/-- `updateMinMax` for the kinds other than text. -/
def updateMinMax (bounds : Value ct × Value ct) (curValue : Value ct) : Value ct × Value ct :=
  (if laneLt curValue bounds.1 then curValue else bounds.1,
    if laneLt bounds.2 curValue then curValue else bounds.2)

/-- The loop of `scalarFiltering_`: the message and the bounds after one more slot. -/
def scalarSlot (cs : Charset) (req : Request ct) (isNullValueMatches : Bool)
    (state : ColResult ct × (Value ct × Value ct)) (rid : Nat) :
    ColResult ct × (Value ct × Value ct) :=
  let (out, bounds) := state
  match nextColValue req rid with
  | none | some true => state
  | some false =>
    let curValue := req.slot rid
    if curValue = getNullValue ct then
      (if isNullValueMatches then writeColValue req out rid else out, bounds)
    else
      (if matchingColValue cs false curValue req.filter then writeColValue req out rid else out,
        if req.validMinMax then updateMinMax bounds curValue else bounds)

/-- `scalarFiltering_`, from slot number `initialRID` of the order on. -/
def scalarFiltering_ (cs : Charset) (req : Request ct) (isNullValueMatches : Bool)
    (initialRID : Nat) (out : ColResult ct) (bounds : Value ct × Value ct) : ColResult ct :=
  let (out, bounds) :=
    (req.order.drop initialRID).foldl (scalarSlot cs req isNullValueMatches) (out, bounds)
  if req.validMinMax then { out with minMax := some bounds } else out

/-- `VECTOR_SIZE`, for vectors of 16 bytes. -/
def vectorSize (ct : ColType) : Nat := 16 / ct.colWidth

/-- A SIMD comparison, on one lane. The assertion for the other operations is not modelled. -/
def laneCompare (val1 val2 : Value ct) : Cop → Bool
  | .nulleq => val1 == val2
  | .eq => val1 == val2
  | .ge => !laneLt val1 val2
  | .gt => laneLt val2 val1
  | .le => !laneLt val2 val1
  | .lt => laneLt val1 val2
  | .ne => val1 != val2
  | _ => false

/-- `cmp*` of a vector with a constant in all lanes. -/
def simdCompare (dataVec : List (Value ct)) (arg : ColArgs ct) : List Bool :=
  dataVec.map (laneCompare · arg.val arg.cop)

def maskAnd (a b : List Bool) : List Bool := a.zipWith (· && ·) b

def maskOr (a b : List Bool) : List Bool := a.zipWith (· || ·) b

def blend (a b : List (Value ct)) (mask : List Bool) : List (Value ct) :=
  (a.zip b).zipWith (fun lanes chosen => if chosen then lanes.2 else lanes.1) mask

def cmpGt (a b : List (Value ct)) : List Bool := a.zipWith (fun x y => laneLt y x) b

/-- `isOr`: for `BOP_XOR` as for `BOP_OR`. -/
def isOr : Bop → Bool
  | .or | .xor => true
  | _ => false

/-- The loop over the filters; without a filter the mask is true. -/
def filterMask (bop : Bop) (dataVec : List (Value ct)) (args : List (ColArgs ct)) : List Bool :=
  let trueMask := dataVec.map fun _ => true
  let initFilterMask := dataVec.map fun _ => !isOr bop
  (args.foldl (fun (masks : List Bool × List Bool) arg =>
    let filterMask := simdCompare dataVec arg
    let filterMask := if isOr bop then maskOr masks.1 filterMask else maskAnd masks.1 filterMask
    (filterMask, filterMask)) (initFilterMask, trueMask)).2

/-- The pointers into the message and the vectors of bounds between two iterations. -/
structure VectorState (ct : ColType) where
  out : ColResult ct
  simdMin : List (Value ct)
  simdMax : List (Value ct)

/-- `vectWriteColValues` and `vectWriteRIDValues`: the lanes of the mask, one after the other. -/
def vectWrite (req : Request ct) (out : ColResult ct) (rids : List Nat) (writeMask : List Bool) :
    ColResult ct :=
  (rids.zip writeMask).foldl (fun out lane =>
    if lane.2 then writeColValue req out lane.1 else out) out

/-- The body of the main loop of `vectorizedFiltering_`. -/
def vectorIteration (bop : Bop) (req : Request ct) (isNullValueMatches : Bool) (rids : List Nat)
    (state : VectorState ct) : VectorState ct :=
  let dataVec := rids.map req.slot
  let nonEmptyMask := dataVec.map (· != getEmptyValue ct)
  let nonNullMask := dataVec.map (· != getNullValue ct)
  let writeMask := if isNullValueMatches then nonEmptyMask else maskAnd nonEmptyMask nonNullMask
  let nonNullOrEmptyMask := maskAnd nonNullMask nonEmptyMask
  let writeMask := maskAnd writeMask (filterMask bop dataVec req.filter.args)
  { out := vectWrite req state.out rids writeMask
    simdMin :=
      if req.validMinMax then
        blend state.simdMin dataVec (maskAnd (cmpGt state.simdMin dataVec) nonNullOrEmptyMask)
      else state.simdMin
    simdMax :=
      if req.validMinMax then
        blend state.simdMax dataVec (maskAnd (cmpGt dataVec state.simdMax) nonNullOrEmptyMask)
      else state.simdMax }

/-- The main loop: `iterNumber` whole vectors. -/
def vectorLoop (bop : Bop) (req : Request ct) (isNullValueMatches : Bool) :
    Nat → List Nat → VectorState ct → VectorState ct
  | 0, _, state => state
  | iterNumber + 1, order, state =>
    vectorLoop bop req isNullValueMatches iterNumber (order.drop (vectorSize ct))
      (vectorIteration bop req isNullValueMatches (order.take (vectorSize ct)) state)

/-- `std::min_element` and `std::max_element` over the lanes. -/
def extractMinMax (state : VectorState ct) (bounds : Value ct × Value ct) : Value ct × Value ct :=
  (state.simdMin.tail.foldl (fun low x => if laneLt x low then x else low)
      (state.simdMin.headD bounds.1),
    state.simdMax.tail.foldl (fun high x => if laneLt high x then x else high)
      (state.simdMax.headD bounds.2))

/-- `vectorizedFiltering_`: the vectors, then the rest of the slots one at a time. -/
def vectorizedFiltering_ (cs : Charset) (bop : Bop) (req : Request ct) (isNullValueMatches : Bool)
    (bounds : Value ct × Value ct) : ColResult ct :=
  let iterNumber := req.order.length / vectorSize ct
  let start : VectorState ct :=
    ⟨.empty, List.replicate (vectorSize ct) bounds.1, List.replicate (vectorSize ct) bounds.2⟩
  let state := vectorLoop bop req isNullValueMatches iterNumber req.order start
  let bounds := extractMinMax state bounds
  let out := if req.validMinMax then { state.out with minMax := some bounds } else state.out
  scalarFiltering_ cs req isNullValueMatches (iterNumber * vectorSize ct) out bounds

end BlockScan
