import Mathlib.Algebra.Order.Group.Multiset
import Mathlib.Data.BitVec
import Mathlib.Data.Finset.Card
import Mathlib.Data.Multiset.Filter
import Mathlib.Data.Multiset.Range

/-!
# Hash tables chained through a slot array

A table keeps its entries in a flat array of slots and threads each bucket's entries through
the slots' `next` links. A slot is free when it carries no key; freeing a slot keeps its data
and its link, and a low-water mark bounds the free slots from below. Every write can be
preceded by a record of the cell's old image, and undoing replays the records newest first.

The module says what each primitive does to the chains and to the multiset of entries. It
chooses no growth policy and no meaning for the entries.
-/

namespace ChainedTable

open List Function Nat

structure Slot (K D : Type) where
  key : Option K
  data : D
  next : Option Nat

/-- The key and data a slot contributes to the table: nothing when it is free. -/
def Slot.entry {K D : Type} (s : Slot K D) : Option (K × D) :=
  s.key.map fun k => (k, s.data)

structure Header (X : Type) where
  capacity : Nat
  currentSize : Nat
  lowWater : Nat
  numBuckets : Nat
  extra : X

/-- The old contents of one region of the table. A record made before the table moved to
another array is `stranded`: putting it back changes nothing in the table in use. -/
inductive Image (K D X : Type)
  | stranded
  | header (h : Header X)
  | currentSize (n : Nat)
  | head (b : Nat) (i : Option Nat)
  | slot (i : Nat) (s : Slot K D)

structure Table (K D X : Type) where
  header : Header X
  heads : Nat → Option Nat
  slots : Nat → Slot K D
  undo : List (Image K D X)

variable {K D X A : Type}

/-- Following `next` from `start` visits exactly `visited` and then ends. -/
inductive Chain (slots : Nat → Slot K D) : Option Nat → List Nat → Prop
  | nil : Chain slots none []
  | cons {i : Nat} {visited : List Nat} (rest : Chain slots (slots i).next visited) :
      Chain slots (some i) (i :: visited)

/-- The slots a loop over one chain visits, given enough steps. -/
def walk (slots : Nat → Slot K D) : Nat → Option Nat → List Nat
  | 0, _ => []
  | _ + 1, none => []
  | n + 1, some i => i :: walk slots n (slots i).next

/-- The first slot at or after `i` without a key, looking at no more than `n` slots. -/
def firstFree (slots : Nat → Slot K D) : Nat → Nat → Nat
  | 0, i => i
  | n + 1, i => if (slots i).key.isSome then firstFree slots n (i + 1) else i

/-- The first visited slot that satisfies `p`, with the slot visited just before it. -/
def findWithPrev (p : Nat → Bool) : Option Nat → List Nat → Option (Option Nat × Nat)
  | _, [] => none
  | prev, i :: visited => if p i then some (prev, i) else findWithPrev p (some i) visited

namespace Table

def makeUndoRecord (t : Table K D X) (image : Image K D X) : Table K D X :=
  { t with undo := image :: t.undo }

def setHeader (t : Table K D X) (h : Header X) : Table K D X :=
  { t with header := h }

def setHead (t : Table K D X) (b : Nat) (i : Option Nat) : Table K D X :=
  { t with heads := Function.update t.heads b i }

def setSlot (t : Table K D X) (i : Nat) (s : Slot K D) : Table K D X :=
  { t with slots := Function.update t.slots i s }

/-- The slots of bucket `b`, in the order a chain loop visits them. -/
def visited (t : Table K D X) (b : Nat) : List Nat :=
  walk t.slots t.header.capacity (t.heads b)

def entries (t : Table K D X) : Multiset (K × D) :=
  (Multiset.range t.header.capacity).filterMap fun i => (t.slots i).entry

/-- The free slot a search from the low-water mark finds; the capacity when there is none. -/
def freeSlot (t : Table K D X) : Nat :=
  firstFree t.slots (t.header.capacity - t.header.lowWater) t.header.lowWater

/-- Put an entry into slot `i` at the front of bucket `b`. -/
def place (t : Table K D X) (loading : Bool) (lowWater i b : Nat) (k : K) (d : D) :
    Table K D X :=
  let t₁ := if loading then t else t.makeUndoRecord (.header t.header)
  let t₂ := t₁.setHeader { t₁.header with lowWater := lowWater }
  let t₃ := if loading then t₂
    else (t₂.makeUndoRecord (.slot i (t₂.slots i))).makeUndoRecord (.head b (t₂.heads b))
  (t₃.setSlot i ⟨some k, d, t₃.heads b⟩).setHead b (some i)

/-- Put an entry into the first free slot. The low-water mark moves to that slot, or past it. -/
def insertFree (t : Table K D X) (hash : K → D → Nat) (past : Nat) (loading : Bool) (k : K)
    (d : D) : Table K D X :=
  t.place loading (t.freeSlot + past) t.freeSlot (hash k d % t.header.numBuckets) k d

/-- Insert again, into `target`, the entries that stand in the first `n` slots of `t`. -/
def copyUsed (t : Table K D X) (hash : K → D → Nat) (past n : Nat) (target : Table K D X) :
    Table K D X :=
  (List.range n).foldl
    (fun u i =>
      match (t.slots i).key with
      | none => u
      | some k => u.insertFree hash past true k (t.slots i).data)
    target

/-- Free slot `i` of bucket `b` and bridge the chain over it. -/
def unlink (t : Table K D X) (b : Nat) (prev : Option Nat) (i : Nat) : Table K D X :=
  let t₁ := (t.makeUndoRecord (.slot i (t.slots i))).setSlot i { t.slots i with key := none }
  match prev with
  | none => (t₁.makeUndoRecord (.head b (t₁.heads b))).setHead b (t₁.slots i).next
  | some p =>
    (t₁.makeUndoRecord (.slot p (t₁.slots p))).setSlot p
      { t₁.slots p with next := (t₁.slots i).next }

/-- The header counts after slot `i` has been freed. -/
def discount (t : Table K D X) (release : D → X → X) (i : Nat) : Table K D X :=
  t.setHeader
    { t.header with
      currentSize := t.header.currentSize - 1
      extra := release (t.slots i).data t.header.extra
      lowWater := if i < t.header.lowWater then i else t.header.lowWater }

/-- Free every slot with key `k` on the way along bucket `b`. The link of a slot just freed
is still read to find the next one. -/
def removeKey [DecidableEq K] (release : D → X → X) (visit : D → A → A) (k : K) (b : Nat) :
    Nat → Option Nat → Option Nat → Table K D X × A → Table K D X × A
  | 0, _, _, s => s
  | _ + 1, _, none, s => s
  | n + 1, prev, some i, (t, a) =>
    if (t.slots i).key = some k then
      let freed := (t.unlink b prev i).discount release i
      removeKey release visit k b n prev (freed.slots i).next
        (freed, visit (t.slots i).data a)
    else
      removeKey release visit k b n (some i) (t.slots i).next (t, a)

/-- Put back one recorded image. -/
def apply (t : Table K D X) : Image K D X → Table K D X
  | .stranded => t
  | .header h => t.setHeader h
  | .currentSize n => t.setHeader { t.header with currentSize := n }
  | .head b i => t.setHead b i
  | .slot i s => t.setSlot i s

/-- The records `t` leaves behind when its entries move to another array. -/
def strandedUndo (t : Table K D X) : List (Image K D X) :=
  t.undo.map fun _ => .stranded

def undoChanges (t : Table K D X) : Table K D X :=
  { t.undo.foldl apply t with undo := [] }

def confirmChanges (t : Table K D X) : Table K D X :=
  { t with undo := [] }

/-- A table with every slot free and every bucket empty. -/
def empty (h : Header X) (blank : D) (undo : List (Image K D X)) : Table K D X where
  header := h
  heads := fun _ => none
  slots := fun _ => ⟨none, blank, none⟩
  undo := undo

end Table

variable {i n : Nat}

section Chains

variable {slots slots' : Nat → Slot K D} {start : Option Nat} {before after : List Nat}

variable {l : List Nat}

lemma Chain.head_eq (chain : Chain slots start l) : start = l.head? := by
  cases chain <;> rfl

lemma Chain.congr (chain : Chain slots start l) (same : ∀ i ∈ l, (slots' i).next = (slots i).next)
    : Chain slots' start l := by
  induction chain with
  | nil => exact .nil
  | cons rest ih =>
    refine .cons ?_
    rw [same _ (by simp)]
    exact ih fun j hj => same j (by simp [hj])

lemma Chain.suffix (chain : Chain slots start (before ++ after)) :
    Chain slots after.head? after := by
  induction before generalizing start with
  | nil => exact chain.head_eq ▸ chain
  | cons i before ih =>
    cases chain with
    | cons rest => exact ih rest

/-- Redirecting the link of `p` over its successor `i` removes `i` from the chain. -/
lemma Chain.bridge {p : Nat} (chain : Chain slots start (before ++ p :: i :: after))
    (nodup : (before ++ p :: i :: after).Nodup) (link : (slots' p).next = (slots i).next)
    (same : ∀ j, j ≠ p → (slots' j).next = (slots j).next) :
    Chain slots' start (before ++ p :: after) := by
  induction before generalizing start with
  | nil =>
    cases chain with
    | cons rest =>
      refine .cons ?_
      rw [link]
      have next : some i = (slots p).next := (rest.head_eq).symm
      rw [← next] at rest
      cases rest with
      | cons rest =>
        refine rest.congr fun j hj => same j ?_
        rintro rfl
        simp [hj] at nodup
  | cons j before ih =>
    cases chain with
    | cons rest =>
      have distinct : j ≠ p := by
        rintro rfl
        simp at nodup
      refine .cons ?_
      rw [same j distinct]
      exact ih rest (Nodup.of_cons nodup)

lemma walk_eq_of_chain (chain : Chain slots start l) (enough : l.length ≤ n) :
    walk slots n start = l := by
  induction chain generalizing n with
  | nil => cases n <;> rfl
  | cons rest ih =>
    cases n with
    | zero => simp at enough
    | succ n => simp only [walk, ih (by simpa using enough)]

end Chains

variable {prev : Option Nat}

section Search

variable {slots : Nat → Slot K D}

lemma le_firstFree (n i : Nat) : i ≤ firstFree slots n i := by
  induction n generalizing i with
  | zero => simp [firstFree]
  | succ n ih =>
    unfold firstFree
    split
    · exact le_of_succ_le (ih (i + 1))
    · exact le_refl i

lemma used_of_lt_firstFree {j : Nat} (low : i ≤ j) (high : j < firstFree slots n i) :
    (slots j).key.isSome := by
  induction n generalizing i with
  | zero => simp only [firstFree] at high; omega
  | succ n ih =>
    unfold firstFree at high
    split at high
    case isTrue used =>
      rcases eq_or_lt_of_le low with rfl | later
      · exact used
      · exact ih later high
    case isFalse => omega

lemma free_firstFree {j : Nat} (low : i ≤ j) (high : j < i + n) (free : (slots j).key = none) :
    firstFree slots n i ≤ j ∧ (slots (firstFree slots n i)).key = none := by
  induction n generalizing i with
  | zero => omega
  | succ n ih =>
    unfold firstFree
    split
    case isTrue used =>
      have distinct : i ≠ j := by
        rintro rfl
        simp [free] at used
      exact ih (by omega) (by omega)
    case isFalse unused => exact ⟨low, by simpa using unused⟩

lemma findWithPrev_eq_some {p : Nat → Bool} {found : Option Nat} {visited : List Nat}
    (result : findWithPrev p prev visited = some (found, i)) :
    ∃ before after, visited = before ++ i :: after ∧ p i ∧ found = before.getLast?.or prev := by
  induction visited generalizing prev with
  | nil => simp [findWithPrev] at result
  | cons j visited ih =>
    unfold findWithPrev at result
    split at result
    case isTrue holds =>
      obtain ⟨rfl, rfl⟩ : prev = found ∧ j = i := by simpa using result
      exact ⟨[], visited, rfl, holds, by simp⟩
    case isFalse =>
      obtain ⟨before, after, rfl, holds, rfl⟩ := ih result
      refine ⟨j :: before, after, rfl, holds, ?_⟩
      rw [getLast?_cons]
      cases before.getLast? <;> rfl

lemma findWithPrev_eq_none {p : Nat → Bool} {visited : List Nat} :
    findWithPrev p prev visited = none ↔ ∀ i ∈ visited, ¬ p i := by
  induction visited generalizing prev with
  | nil => simp [findWithPrev]
  | cons i visited ih =>
    unfold findWithPrev
    split <;> simp_all

end Search

namespace Table

section Fields

variable (t : Table K D X) (b i j : Nat) (prev : Option Nat)

variable (loading : Bool)

variable (low : Nat)

@[simp] lemma place_header (k : K) (d : D) :
    (t.place loading low i b k d).header = { t.header with lowWater := low } := by
  cases loading <;> rfl

@[simp] lemma place_heads (k : K) (d : D) :
    (t.place loading low i b k d).heads = update t.heads b (some i) := by
  cases loading <;> rfl

@[simp] lemma place_slots (k : K) (d : D) :
    (t.place loading low i b k d).slots =
      update t.slots i ⟨some k, d, t.heads b⟩ := by
  cases loading <;> rfl

@[simp] lemma unlink_header : (t.unlink b prev i).header = t.header := by
  cases prev <;> rfl

lemma unlink_heads :
    (t.unlink b prev i).heads =
      if prev = none then update t.heads b (t.slots i).next else t.heads := by
  cases prev with
  | none => simp [unlink, setHead, setSlot, makeUndoRecord]
  | some p => simp [unlink, setSlot, makeUndoRecord]

lemma unlink_slots :
    (t.unlink b prev i).slots j =
      ⟨if j = i then none else (t.slots j).key, (t.slots j).data,
        if prev = some j then (t.slots i).next else (t.slots j).next⟩ := by
  cases prev with
  | none =>
    by_cases same : j = i <;> simp [unlink, setHead, setSlot, makeUndoRecord, same]
  | some p =>
    by_cases same : j = i <;> by_cases before : p = j <;>
      simp_all [unlink, setSlot, makeUndoRecord, eq_comm]

@[simp] lemma unlink_key :
    ((t.unlink b prev i).slots j).key = if j = i then none else (t.slots j).key := by
  rw [unlink_slots]

@[simp] lemma unlink_data : ((t.unlink b prev i).slots j).data = (t.slots j).data := by
  rw [unlink_slots]

lemma unlink_next :
    ((t.unlink b prev i).slots j).next =
      if prev = some j then (t.slots i).next else (t.slots j).next := by
  rw [unlink_slots]

section

variable (release : D → X → X)
include release

@[simp] lemma discount_heads : (t.discount release i).heads = t.heads :=
  rfl

@[simp] lemma discount_slots : (t.discount release i).slots = t.slots :=
  rfl

@[simp] lemma discount_capacity : (t.discount release i).header.capacity = t.header.capacity :=
  rfl

@[simp] lemma discount_currentSize :
    (t.discount release i).header.currentSize = t.header.currentSize - 1 :=
  rfl

@[simp] lemma discount_lowWater :
    (t.discount release i).header.lowWater =
      if i < t.header.lowWater then i else t.header.lowWater :=
  rfl

@[simp] lemma discount_numBuckets :
    (t.discount release i).header.numBuckets = t.header.numBuckets :=
  rfl

end

end Fields

/-- `chains b` lists the slots reachable from bucket `b`: each once, and exactly the used slots
whose entry hashes to `b`. -/
structure Linked (hash : K → D → Nat) (t : Table K D X) (chains : Nat → List Nat) : Prop where
  buckets_pos : 0 < t.header.numBuckets
  chain : ∀ b < t.header.numBuckets, Chain t.slots (t.heads b) (chains b)
  nodup : ∀ b < t.header.numBuckets, (chains b).Nodup
  mem_iff : ∀ b < t.header.numBuckets, ∀ i, i ∈ chains b ↔
    i < t.header.capacity ∧
      ∃ k, (t.slots i).key = some k ∧ hash k (t.slots i).data % t.header.numBuckets = b

/-- No free slot lies below the low-water mark, and the mark lies inside the array. -/
structure MarkedLow (t : Table K D X) : Prop where
  le_capacity : t.header.lowWater ≤ t.header.capacity
  used_below : ∀ i < t.header.lowWater, (t.slots i).key.isSome

variable {b : Nat}

section Linked

variable {hash : K → D → Nat} {t : Table K D X} {chains : Nat → List Nat}

section

variable (linked : Linked hash t chains)
include linked

lemma Linked.length_le (bucket : b < t.header.numBuckets) :
    (chains b).length ≤ t.header.capacity := by
  have inside : (chains b).toFinset ⊆ Finset.range t.header.capacity := by
    intro i hi
    exact Finset.mem_range.mpr ((linked.mem_iff b bucket i).mp (mem_toFinset.mp hi)).1
  have bound := Finset.card_le_card inside
  rwa [toFinset_card_of_nodup (linked.nodup b bucket), Finset.card_range] at bound

lemma Linked.visited_eq (bucket : b < t.header.numBuckets) : t.visited b = chains b :=
  walk_eq_of_chain (linked.chain b bucket) (linked.length_le bucket)

/-- A slot lies on the chain of the bucket its own entry hashes to, and on no other. -/
lemma Linked.bucket_unique {c : Nat}
    (hb : b < t.header.numBuckets) (hc : c < t.header.numBuckets) (inB : i ∈ chains b)
    (inC : i ∈ chains c) : b = c := by
  obtain ⟨-, k, hk, rfl⟩ := (linked.mem_iff b hb i).mp inB
  obtain ⟨-, k', hk', rfl⟩ := (linked.mem_iff c hc i).mp inC
  obtain rfl : k = k' := by simpa [hk] using hk'
  rfl

lemma Linked.place (loading : Bool) (low : Nat)
    (inside : i < t.header.capacity) (free : (t.slots i).key = none) (k : K) (d : D) :
    Linked hash (t.place loading low i (hash k d % t.header.numBuckets) k d)
      (update chains (hash k d % t.header.numBuckets)
        (i :: chains (hash k d % t.header.numBuckets))) := by
  set home := hash k d % t.header.numBuckets with home_eq
  have absent : ∀ b < t.header.numBuckets, i ∉ chains b := by
    intro b hb hi
    obtain ⟨-, k', hk', -⟩ := (linked.mem_iff b hb i).mp hi
    simp [free] at hk'
  have keep : ∀ b < t.header.numBuckets,
      Chain (t.place loading low i home k d).slots (t.heads b) (chains b) := by
    intro b hb
    refine (linked.chain b hb).congr fun j hj => ?_
    have distinct : j ≠ i := fun same => absent b hb (same ▸ hj)
    simp [distinct]
  refine ⟨by simpa using linked.buckets_pos, ?_, ?_, ?_⟩
  · intro b hb
    replace hb : b < t.header.numBuckets := by simpa using hb
    by_cases here : b = home
    · subst here
      simp only [place_heads, update_self]
      refine .cons ?_
      have link : ((t.place loading low i home k d).slots i).next = t.heads home := by simp
      rw [link]
      exact keep home hb
    · simpa [here] using keep b hb
  · intro b hb
    replace hb : b < t.header.numBuckets := by simpa using hb
    by_cases here : b = home
    · subst here
      simpa using ⟨absent home hb, linked.nodup home hb⟩
    · simpa [here] using linked.nodup b hb
  intro b hb j
  replace hb : b < t.header.numBuckets := by simpa using hb
  by_cases slot : j = i
  · subst slot
    by_cases here : b = home
    · subst here
      simp [inside, ← home_eq]
    · simp [here, absent b hb, ← home_eq, Ne.symm here]
  · by_cases here : b = home
    · subst here
      simp [slot, linked.mem_iff home hb j]
    · simp [slot, here, linked.mem_iff b hb j]

lemma Linked.unlink {before after : List Nat}
    (bucket : b < t.header.numBuckets) (at_i : chains b = before ++ i :: after) :
    Linked hash (t.unlink b before.getLast? i) (update chains b (before ++ after)) := by
  have nodup : (before ++ i :: after).Nodup := at_i ▸ linked.nodup b bucket
  have gone : i ∉ before ++ after := by
    have := (nodup_middle.mp nodup)
    exact (nodup_cons.mp this).1
  have here : i ∈ chains b := by simp [at_i]
  have elsewhere : ∀ c < t.header.numBuckets, c ≠ b → ∀ j ∈ chains c, j ∉ chains b :=
    fun c hc ne j hj hb => ne (linked.bucket_unique hc bucket hj hb)
  refine ⟨by simpa using linked.buckets_pos, ?_, ?_, ?_⟩
  · intro c hc
    replace hc : c < t.header.numBuckets := by simpa using hc
    by_cases same : c = b
    · subst same
      simp only [update_self]
      have chain := linked.chain c bucket
      rw [at_i] at chain
      cases before using reverseRecOn with
      | nil =>
        have start : ((t.unlink c none i).heads c) = (t.slots i).next := by simp [unlink_heads]
        rw [getLast?_nil, start]
        rw [chain.head_eq] at chain
        cases chain with
        | cons rest => exact rest.congr fun j _ => by simp [unlink_next]
      | append_singleton before p =>
        rw [getLast?_concat]
        simp only [append_assoc] at chain nodup ⊢
        refine chain.bridge nodup (by simp [unlink_next]) fun j hj => ?_
        simp [unlink_next, Ne.symm hj]
    have chain := linked.chain c hc
    have heads : (t.unlink b before.getLast? i).heads c = t.heads c := by
      rw [unlink_heads]
      split <;> simp [same]
    simp only [heads, ne_eq, same, not_false_eq_true, update_of_ne]
    refine chain.congr fun j hj => ?_
    have notPrev : before.getLast? ≠ some j := by
      intro last
      refine elsewhere c hc same j hj ?_
      rw [at_i]
      exact mem_append_left _ (mem_of_getLast? last)
    simp [unlink_next, notPrev]
  · intro c hc
    replace hc : c < t.header.numBuckets := by simpa using hc
    by_cases same : c = b
    · subst same
      simpa using (nodup_cons.mp (nodup_middle.mp nodup)).2
    · simpa [same] using linked.nodup c hc
  intro c hc j
  replace hc : c < t.header.numBuckets := by simpa using hc
  by_cases slot : j = i
  · subst slot
    by_cases same : c = b
    · subst same
      simpa using gone
    · have absent : j ∉ chains c := fun hj => elsewhere c hc same j hj here
      simp [same, absent]
  by_cases same : c = b
  · subst same
    have old := linked.mem_iff c bucket j
    rw [at_i] at old
    simp only [unlink_header, unlink_key, slot, if_false, unlink_data]
    rw [← old]
    simp [slot]
  · simpa [same, slot] using linked.mem_iff c hc j

end

end Linked

variable {d : D}

section Entries

variable {t t' : Table K D X}

lemma filterMap_congr_on {α β : Type} {f g : α → Option β} {s : Multiset α}
    (same : ∀ a ∈ s, f a = g a) : s.filterMap f = s.filterMap g := by
  induction s using Quotient.inductionOn with
  | h l => exact congrArg _ (filterMap_congr same)

variable {k : K}

lemma mem_entries :
    (k, d) ∈ t.entries ↔
      ∃ i < t.header.capacity, (t.slots i).key = some k ∧ (t.slots i).data = d := by
  simp only [entries, Multiset.mem_filterMap, Multiset.mem_range, Slot.entry,
    Option.map_eq_some_iff, Prod.mk.injEq]
  constructor
  · rintro ⟨i, inside, k', key, rfl, data⟩
    exact ⟨i, inside, key, data⟩
  · rintro ⟨i, inside, key, data⟩
    exact ⟨i, inside, k, key, rfl, data⟩

lemma card_entries (t : Table K D X) :
    t.entries.card =
      ((Finset.range t.header.capacity).filter fun i => (t.slots i).key.isSome).card := by
  have length : ∀ l : List Nat,
      (l.filterMap fun i => (t.slots i).entry).length =
        (l.filter fun i => (t.slots i).key.isSome).length := by
    intro l
    rw [length_filterMap_eq_countP, countP_eq_length_filter]
    simp [Slot.entry]
  rw [Finset.card_def, Finset.filter_val, Finset.range_val, entries, ← Multiset.coe_range]
  simp [length]

lemma nodup_map_entries_iff {B : Type} (f : K × D → B) :
    (t.entries.map f).Nodup ↔ ∀ i < t.header.capacity, ∀ j < i, ∀ e e',
      (t.slots i).entry = some e → (t.slots j).entry = some e' → f e ≠ f e' := by
  rw [entries, ← Multiset.coe_range, Multiset.filterMap_coe, Multiset.map_coe, Multiset.coe_nodup,
    Nodup, pairwise_map, pairwise_filterMap, pairwise_iff_getElem]
  simp only [length_range, getElem_range]
  constructor
  · intro distinct i hi j hj e e' he he'
    exact (distinct j i (by omega) hi hj e' he' e he).symm
  · intro distinct j i _ hi hj e' he' e he
    exact (distinct i hi j hj e e' he he').symm

/-- Two tables that differ in one slot agree on all the other entries. -/
lemma entries_exchange (t t' : Table K D X) (i : Nat)
    (capacity : t'.header.capacity = t.header.capacity)
    (inside : i < t.header.capacity) (same : ∀ j, j ≠ i → (t'.slots j).entry = (t.slots j).entry) :
    ∃ rest : Multiset (K × D), t.entries = ↑((t.slots i).entry.toList) + rest ∧
      t'.entries = ↑((t'.slots i).entry.toList) + rest := by
  have split : Multiset.range t.header.capacity =
      i ::ₘ (Multiset.range t.header.capacity).erase i :=
    (Multiset.cons_erase (Multiset.mem_range.mpr inside)).symm
  have others : ∀ j ∈ (Multiset.range t.header.capacity).erase i, j ≠ i := by
    rintro j hj rfl
    exact (Multiset.nodup_range _).notMem_erase hj
  have peel : ∀ u : Table K D X, u.header.capacity = t.header.capacity →
      u.entries = ↑((u.slots i).entry.toList) +
        ((Multiset.range t.header.capacity).erase i).filterMap fun j => (u.slots j).entry := by
    intro u hu
    unfold entries
    rw [hu]
    conv_lhs => rw [split]
    rw [Multiset.filterMap_cons]
    cases (u.slots i).entry <;> rfl
  refine ⟨_, peel t rfl, ?_⟩
  rw [peel t' capacity]
  congr 1
  exact filterMap_congr_on fun j hj => same j (others j hj)

lemma entries_place {low : Nat} (loading : Bool) (k : K) (d : D) (inside : i < t.header.capacity)
    (free : (t.slots i).key = none) :
    (t.place loading low i b k d).entries = (k, d) ::ₘ t.entries := by
  obtain ⟨rest, old, new⟩ := entries_exchange t (t.place loading low i b k d) i
    (by simp) inside fun j hj => by simp [hj]
  rw [old, new]
  simp [Slot.entry, free]

lemma entries_unlink (inside : i < t.header.capacity) (key : (t.slots i).key = some k) :
    t.entries = (k, (t.slots i).data) ::ₘ (t.unlink b prev i).entries := by
  obtain ⟨rest, old, new⟩ := entries_exchange t (t.unlink b prev i) i
    (by simp) inside fun j hj => by simp [hj, Slot.entry]
  rw [old, new]
  simp [Slot.entry, key]

lemma entries_setSlot (inside : i < t.header.capacity) (key : (t.slots i).key = some k) :
    ∃ rest : Multiset (K × D), t.entries = (k, (t.slots i).data) ::ₘ rest ∧
      (t.setSlot i { t.slots i with data := d }).entries = (k, d) ::ₘ rest := by
  obtain ⟨rest, old, new⟩ := entries_exchange t
    (t.setSlot i { t.slots i with data := d }) i rfl inside
    fun j hj => by simp [setSlot, hj]
  refine ⟨rest, ?_, ?_⟩
  · rw [old]
    simp [Slot.entry, key]
  · rw [new]
    simp [setSlot, Slot.entry, key]

end Entries

/-- The chains are right and the low-water mark is right. -/
structure Threaded (hash : K → D → Nat) (t : Table K D X) : Prop where
  linked : ∃ chains, Linked hash t chains
  low : MarkedLow t

section Operations

variable {hash : K → D → Nat} {t t' : Table K D X} {chains : Nat → List Nat}

lemma Linked.congr (linked : Linked hash t chains)
    (capacity : t'.header.capacity = t.header.capacity)
    (numBuckets : t'.header.numBuckets = t.header.numBuckets)
    (heads : t'.heads = t.heads) (slots : t'.slots = t.slots) : Linked hash t' chains := by
  obtain ⟨pos, chain, nodup, mem⟩ := linked
  refine ⟨numBuckets ▸ pos, ?_, ?_, ?_⟩
  · rwa [numBuckets, heads, slots]
  · rwa [numBuckets]
  · rwa [numBuckets, capacity, slots]

lemma MarkedLow.discount_unlink (low : MarkedLow t) (release : D → X → X) (b i : Nat)
    (prev : Option Nat) : MarkedLow ((t.unlink b prev i).discount release i) := by
  obtain ⟨le, used⟩ := low
  constructor
  · rw [discount_lowWater, discount_capacity, unlink_header]
    split <;> omega
  intro j hj
  rw [discount_lowWater, unlink_header] at hj
  have bounds : j < t.header.lowWater ∧ j ≠ i := by
    split at hj <;> omega
  simpa [bounds.2] using used j bounds.1

lemma Linked.setData (linked : Linked hash t chains)
    (same : ∀ k, hash k d = hash k (t.slots i).data) :
    Linked hash (t.setSlot i { t.slots i with data := d }) chains := by
  obtain ⟨pos, chain, nodup, mem⟩ := linked
  refine ⟨pos, ?_, nodup, ?_⟩
  · intro b hb
    refine (chain b hb).congr fun j _ => ?_
    by_cases slot : j = i <;> simp [setSlot, slot]
  intro b hb j
  rw [mem b hb j]
  by_cases slot : j = i
  · subst slot
    simp [setSlot, same]
  · simp [setSlot, slot]

variable (threaded : Threaded hash t)
include threaded

lemma Threaded.congr
    (capacity : t'.header.capacity = t.header.capacity)
    (numBuckets : t'.header.numBuckets = t.header.numBuckets)
    (lowWater : t'.header.lowWater = t.header.lowWater)
    (heads : t'.heads = t.heads) (slots : t'.slots = t.slots) : Threaded hash t' := by
  obtain ⟨⟨chains, linked⟩, le, used⟩ := threaded
  exact ⟨⟨chains, linked.congr capacity numBuckets heads slots⟩,
    lowWater ▸ capacity ▸ le, lowWater ▸ slots ▸ used⟩

lemma Threaded.freeSlot_spec
    (room : t.entries.card < t.header.capacity) :
    t.header.lowWater ≤ t.freeSlot ∧ t.freeSlot < t.header.capacity ∧
      (t.slots t.freeSlot).key = none ∧ ∀ j < t.freeSlot, (t.slots j).key.isSome := by
  obtain ⟨-, -, used⟩ := threaded
  obtain ⟨j, inside, free⟩ : ∃ j < t.header.capacity, (t.slots j).key = none := by
    by_contra! full
    rw [card_entries, Finset.filter_true_of_mem, Finset.card_range] at room
    · exact lt_irrefl _ room
    · intro i hi
      exact Option.isSome_iff_ne_none.mpr (full i (Finset.mem_range.mp hi))
  have above : t.header.lowWater ≤ j := by
    by_contra! below
    simpa [free] using used j below
  have window : j < t.header.lowWater + (t.header.capacity - t.header.lowWater) := by omega
  obtain ⟨first_le, first_free⟩ := free_firstFree above window free
  refine ⟨le_firstFree _ _, lt_of_le_of_lt first_le inside, first_free, ?_⟩
  intro i hi
  rcases lt_or_ge i t.header.lowWater with below | reached
  · exact used i below
  · exact used_of_lt_firstFree reached hi

lemma Threaded.insertFree {past : Nat} (past_le : past ≤ 1)
    (loading : Bool) (k : K) (d : D) (room : t.entries.card < t.header.capacity) :
    Threaded hash (t.insertFree hash past loading k d) := by
  obtain ⟨-, inside, free, used⟩ := threaded.freeSlot_spec room
  obtain ⟨chains, linked⟩ := threaded.linked
  refine ⟨⟨_, linked.place loading _ inside free k d⟩, ?_, ?_⟩
  · simp only [Table.insertFree, place_header]
    omega
  intro j hj
  simp only [Table.insertFree, place_header] at hj ⊢
  by_cases slot : j = t.freeSlot
  · simp [slot]
  · simpa [slot] using used j (by omega)

lemma Threaded.entries_insertFree (past : Nat) (loading : Bool)
    (k : K) (d : D) (room : t.entries.card < t.header.capacity) :
    (t.insertFree hash past loading k d).entries = (k, d) ::ₘ t.entries := by
  obtain ⟨-, inside, free, -⟩ := threaded.freeSlot_spec room
  exact entries_place loading k d inside free

lemma Threaded.setData
    (same : ∀ k, hash k d = hash k (t.slots i).data) :
    Threaded hash (t.setSlot i { t.slots i with data := d }) := by
  obtain ⟨⟨chains, linked⟩, le, used⟩ := threaded
  refine ⟨⟨chains, linked.setData same⟩, le, ?_⟩
  intro j hj
  by_cases slot : j = i
  · subst slot
    simpa [setSlot] using used j hj
  · simpa [setSlot, slot] using used j hj

end Operations

/-- What one pass of `removeKey` leaves: right chains, none of bucket `b`'s slots with key `k`,
and the entries that were there without the removed ones, each of which was visited. -/
structure KeyRemoved (hash : K → D → Nat) (visit : D → A → A) (k : K) (b : Nat)
    (t : Table K D X) (a : A) (r : Table K D X × A) : Prop where
  linked : ∃ chains, Linked hash r.1 chains ∧ ∀ j ∈ chains b, (r.1.slots j).key ≠ some k
  low : MarkedLow r.1
  capacity : r.1.header.capacity = t.header.capacity
  numBuckets : r.1.header.numBuckets = t.header.numBuckets
  entries : ∃ removed : List D, t.entries = ↑(removed.map fun d => (k, d)) + r.1.entries ∧
    r.2 = removed.foldl (fun a d => visit d a) a
  sized : ∀ lost, t.header.currentSize = t.entries.card + lost →
    r.1.header.currentSize = r.1.entries.card + lost

section RemoveKey

variable [DecidableEq K] {hash : K → D → Nat} {t : Table K D X} {chains : Nat → List Nat}

/-- Slot `i` of bucket `b` holds an entry of `k` with `p` and can be freed behind `prev`. -/
structure Found (hash : K → D → Nat) (t : Table K D X) (b : Nat) (k : K) (p : D → Prop)
    (prev : Option Nat) (i : Nat) : Prop where
  key : (t.slots i).key = some k
  holds : p (t.slots i).data
  inside : i < t.header.capacity
  freed : ∀ image release,
    Threaded hash (((t.unlink b prev i).makeUndoRecord image).discount release i)

section

variable (threaded : Threaded hash t) (bucket : b < t.header.numBuckets) {k : K} {p : D → Prop}
  [DecidablePred p]
include threaded bucket

lemma Threaded.found
    (found : findWithPrev (fun j => (t.slots j).key = some k ∧ p (t.slots j).data) none
      (t.visited b) = some (prev, i)) : Found hash t b k p prev i := by
  obtain ⟨chains, linked⟩ := threaded.linked
  obtain ⟨before, after, visited, holds, rfl⟩ := findWithPrev_eq_some found
  rw [linked.visited_eq bucket] at visited
  obtain ⟨key, holds⟩ := of_decide_eq_true holds
  refine ⟨key, holds, ((linked.mem_iff _ bucket i).mp (by simp [visited])).1, ?_⟩
  intro image release
  obtain ⟨le, used⟩ := threaded.low.discount_unlink release b i before.getLast?
  rw [Option.or_none]
  exact ⟨⟨_, (linked.unlink bucket visited).congr rfl rfl rfl rfl⟩, le, used⟩

lemma Threaded.notFound_iff (home : ∀ d, p d → hash k d % t.header.numBuckets = b) :
    findWithPrev (fun j => (t.slots j).key = some k ∧ p (t.slots j).data) none (t.visited b) =
      none ↔ ∀ d, (k, d) ∈ t.entries → ¬ p d := by
  obtain ⟨chains, linked⟩ := threaded.linked
  rw [findWithPrev_eq_none, linked.visited_eq bucket]
  constructor
  · intro absent d mem holds
    obtain ⟨i, inside, key, rfl⟩ := mem_entries.mp mem
    exact absent i ((linked.mem_iff _ bucket i).mpr ⟨inside, k, key, home _ holds⟩)
      (decide_eq_true ⟨key, holds⟩)
  · intro absent i hi holds
    obtain ⟨key, holds⟩ := of_decide_eq_true holds
    have inside := ((linked.mem_iff _ bucket i).mp hi).1
    exact absent _ (mem_entries.mpr ⟨i, inside, key, rfl⟩) holds

end

lemma removeKey_spec (release : D → X → X) (visit : D → A → A) (k : K) (a : A)
    {before after : List Nat} (linked : Linked hash t chains) (low : MarkedLow t)
    (bucket : b < t.header.numBuckets) (split : chains b = before ++ after)
    (clean : ∀ j ∈ before, (t.slots j).key ≠ some k) (enough : after.length ≤ n) :
    KeyRemoved hash visit k b t a
      (removeKey release visit k b n before.getLast? after.head? (t, a)) := by
  induction n generalizing t chains before after a with
  | zero =>
    obtain rfl : after = [] := by simpa using enough
    refine ⟨⟨chains, linked, ?_⟩, low, rfl, rfl, ⟨[], by simp [removeKey], rfl⟩, fun _ h => h⟩
    simpa [split, removeKey] using clean
  | succ n ih =>
    cases after with
    | nil =>
      refine ⟨⟨chains, linked, ?_⟩, low, rfl, rfl, ⟨[], by simp [removeKey], rfl⟩, fun _ h => h⟩
      simpa [split, removeKey] using clean
    | cons i after =>
      have chain : Chain t.slots (some i) (i :: after) := by
        have whole := linked.chain b bucket
        rw [split] at whole
        exact whole.suffix
      have next : (t.slots i).next = after.head? := by
        cases chain with
        | cons rest => exact rest.head_eq
      have gone : i ∉ before := by
        have nodup : (before ++ i :: after).Nodup := split ▸ linked.nodup b bucket
        intro earlier
        exact (nodup_cons.mp (nodup_middle.mp nodup)).1 (by simp [earlier])
      have inside : i < t.header.capacity :=
        ((linked.mem_iff b bucket i).mp (by simp [split])).1
      simp only [head?_cons, removeKey]
      split_ifs with key
      · -- the slot is freed: it leaves the chain and the kept part stays as it is
        set freed := (t.unlink b before.getLast? i).discount release i with freed_eq
        have linked' : Linked hash freed (update chains b (before ++ after)) :=
          (linked.unlink bucket split).congr rfl rfl rfl rfl
        have follow : (freed.slots i).next = after.head? := by
          have notPrev : before.getLast? ≠ some i := fun last => gone (mem_of_getLast? last)
          simp [freed_eq, unlink_next, next]
        have dropped : t.entries = (k, (t.slots i).data) ::ₘ freed.entries :=
          entries_unlink inside key
        have clean' : ∀ j ∈ before, (freed.slots j).key ≠ some k := by
          intro j hj
          have distinct : j ≠ i := fun same => gone (same ▸ hj)
          simpa [freed_eq, distinct] using clean j hj
        rw [follow]
        have split' : update chains b (before ++ after) b = before ++ after := by simp
        have rest := ih (visit (t.slots i).data a) linked' (low.discount_unlink release b i _)
          (by simpa [freed_eq] using bucket) split' clean' (by simpa using enough)
        obtain ⟨removed, left, visited⟩ := rest.entries
        refine ⟨rest.linked, rest.low, rest.capacity.trans (by simp [freed_eq]),
          rest.numBuckets.trans (by simp [freed_eq]),
          ⟨(t.slots i).data :: removed, ?_, visited⟩, ?_⟩
        · rw [dropped, left, map_cons, ← Multiset.cons_coe, Multiset.cons_add]
        intro lost sized
        refine rest.sized lost ?_
        rw [dropped, Multiset.card_cons] at sized
        rw [freed_eq, discount_currentSize, unlink_header, ← freed_eq]
        omega
      -- the slot stays and joins the kept part
      have split' : chains b = (before ++ [i]) ++ after := by simp [split]
      have clean' : ∀ j ∈ before ++ [i], (t.slots j).key ≠ some k := by
        intro j hj
        rcases mem_append.mp hj with earlier | here
        · exact clean j earlier
        · rw [mem_singleton.mp here]
          exact key
      have rest := ih a linked low bucket split' clean' (by simpa using enough)
      rw [getLast?_concat] at rest
      rwa [next]

end RemoveKey

section Copy

variable {hash : K → D → Nat} {t target : Table K D X}

lemma threaded_empty (h : Header X) (blank : D) (undo : List (Image K D X))
    (buckets : 0 < h.numBuckets) (low : h.lowWater = 0) : Threaded hash (empty h blank undo) := by
  refine ⟨⟨fun _ => [], buckets, fun _ _ => .nil, by simp, by simp [empty]⟩, ?_, ?_⟩
  · simp [empty, low]
  · simp [empty, low]

@[simp] lemma entries_empty (h : Header X) (blank : D) (undo : List (Image K D X)) :
    (empty h blank undo).entries = 0 := by
  simp [entries, empty, Slot.entry, Multiset.eq_zero_iff_forall_notMem]

/-- What a copy of the first `n` slots leaves in the target. -/
structure Copied (hash : K → D → Nat) (t : Table K D X) (n : Nat) (target r : Table K D X) :
    Prop where
  threaded : Threaded hash r
  header : r.header = { target.header with lowWater := r.header.lowWater }
  undo : r.undo = target.undo
  entries : r.entries =
    (Multiset.range n).filterMap (fun i => (t.slots i).entry) + target.entries
  below : ∀ m, (∀ i, (target.slots i).key.isSome → i < m) → ∀ i, (r.slots i).key.isSome → i < m + n

lemma copyUsed_spec (threaded : Threaded hash target) {past : Nat} (past_le : past ≤ 1) (n : Nat)
    (room : target.entries.card + n ≤ target.header.capacity) :
    Copied hash t n target (t.copyUsed hash past n target) := by
  induction n with
  | zero => exact ⟨threaded, rfl, rfl, by simp [copyUsed], fun _ used => used⟩
  | succ n ih =>
    have sofar := ih (by omega)
    have unfold_last : t.copyUsed hash past (n + 1) target =
        match (t.slots n).key with
        | none => t.copyUsed hash past n target
        | some k => (t.copyUsed hash past n target).insertFree hash past true k
            (t.slots n).data := by
      simp [copyUsed, range_succ]
    rw [unfold_last]
    cases key : (t.slots n).key with
    | none =>
      refine ⟨sofar.threaded, sofar.header, sofar.undo, ?_, fun m used i here =>
        lt_succ_of_lt (sofar.below m used i here)⟩
      rw [sofar.entries, Multiset.range_succ,
        Multiset.filterMap_cons_none n _ (by simp [Slot.entry, key])]
    | some k =>
      have copied_le :
          ((Multiset.range n).filterMap fun i => (t.slots i).entry).card ≤ n := by
        exact (length_filterMap_le _ _).trans (by simp)
      have fits : (t.copyUsed hash past n target).entries.card <
          (t.copyUsed hash past n target).header.capacity := by
        rw [sofar.entries, sofar.header, Multiset.card_add]
        simp only
        omega
      refine ⟨sofar.threaded.insertFree past_le true k _ fits, ?_, ?_, ?_, fun m used i here => ?_⟩
      · simp only [insertFree, place_header]
        rw [sofar.header]
      · simpa [insertFree, place, setSlot, setHead, setHeader] using sofar.undo
      · rw [sofar.threaded.entries_insertFree past true k _ fits, sofar.entries,
          Multiset.range_succ, Multiset.filterMap_cons_some _ n _ (b := (k, (t.slots n).data))
            (by simp [Slot.entry, key]), Multiset.cons_add]
      obtain ⟨-, -, -, before⟩ := sofar.threaded.freeSlot_spec fits
      simp only [insertFree, place_slots] at here
      by_cases slot : i = (t.copyUsed hash past n target).freeSlot
      · by_contra above
        exact lt_irrefl _ (sofar.below m used _ (before (m + n) (by omega)))
      · rw [update_of_ne slot] at here
        exact lt_succ_of_lt (sofar.below m used i here)

end Copy

end Table

end ChainedTable
