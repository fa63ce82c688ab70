import ColumnStore.ByteStrings

/-!
# Reading back what was written

A reader takes values from the front of a byte stream and fails when the stream is too short.
`Reads reader written a` says that the reader, on a stream that begins with the bytes `written`,
returns `a` and leaves the rest of the stream. The rules compose such statements along the
steps of a reader; the rule for loops is by induction over the items written.
-/

namespace ByteReaders

open ByteStrings List

abbrev Reader := StateT (List Byte) Option

/-- A byte string read as a number, last byte leading. -/
def littleEndian : List Byte → Nat
  | [] => 0
  | b :: s => b.toNat + 256 * littleEndian s

/-- A word of `n` bytes. -/
def word (n : Nat) : Reader (BitVec (8 * n)) := fun input =>
  if n ≤ input.length then some (BitVec.ofNat _ (littleEndian (input.take n)), input.drop n)
  else none

/-- A string of `n` bytes. -/
def raw (n : Nat) : Reader (List Byte) := fun input =>
  if n ≤ input.length then some (input.take n, input.drop n) else none

/-- A loop of `n` rounds that carries a state. -/
def loop {σ : Type} (body : σ → Reader σ) : Nat → σ → Reader σ
  | 0, s => pure s
  | n + 1, s => do
      let s ← body s
      loop body n s

/-- `n` items, one after the other. -/
def items {α : Type} (item : Reader α) (n : Nat) : Reader (List α) :=
  loop (fun read => do return read ++ [← item]) n []

lemma littleEndian_append (s t : List Byte) :
    littleEndian (s ++ t) = littleEndian s + 256 ^ s.length * littleEndian t := by
  induction s with
  | nil => simp [littleEndian]
  | cons b s later =>
    simp only [cons_append, littleEndian, later, length_cons, Nat.pow_succ]
    rw [Nat.mul_add, Nat.add_assoc, Nat.mul_comm (256 ^ _) 256, Nat.mul_assoc]

variable {w : Nat}

lemma littleEndian_bytes (n : Nat) (v : BitVec w) :
    littleEndian (bytes n v) = v.toNat % 2 ^ (8 * n) := by
  induction n with
  | zero => simp [bytes, littleEndian, Nat.mod_one]
  | succ n later =>
    have split : bytes (n + 1) v = bytes n v ++ [v.extractLsb' (8 * n) 8] := by
      simp [bytes, range_succ]
    rw [split, littleEndian_append, later, Nat.mul_succ, Nat.pow_add, Nat.mod_mul, show 256 = 2 ^ 8
      from rfl, ← Nat.pow_mul]
    simp [littleEndian, Nat.shiftRight_eq_div_pow]

/-- The reader takes exactly the bytes `written` and returns `a`. -/
def Reads {α : Type} (reader : Reader α) (written : List Byte) (a : α) : Prop :=
  ∀ rest, reader.run (written ++ rest) = some (a, rest)

variable {α β σ : Type}

lemma Reads.pure (a : α) : Reads (pure a) [] a := fun _ => rfl

variable {reader : Reader α} {s : List Byte} {a : α}

lemma Reads.bind {next : α → Reader β} {t : List Byte} {b : β} (first : Reads reader s a)
    (second : Reads (next a) t b) : Reads (reader >>= next) (s ++ t) b := by
  intro rest
  rw [StateT.run_bind, append_assoc, first]
  exact second rest

lemma Reads.map {f : α → β} (first : Reads reader s a) :
    Reads (reader >>= fun x => Pure.pure (f x)) s (f a) := by
  intro rest
  rw [StateT.run_bind, first]
  rfl

lemma Reads.word (n : Nat) (v : BitVec w) :
    Reads (ByteReaders.word n) (bytes n v) (v.setWidth (8 * n)) := by
  intro rest
  have taken : (bytes n v ++ rest).take n = bytes n v := take_left' (length_bytes n v)
  have left : (bytes n v ++ rest).drop n = rest := drop_left' (length_bytes n v)
  have enough : n ≤ (bytes n v ++ rest).length := by simp
  simp only [StateT.run, ByteReaders.word, if_pos enough, taken, left, littleEndian_bytes]
  rw [← BitVec.toNat_setWidth, BitVec.ofNat_toNat, BitVec.setWidth_eq]

lemma Reads.whole (n : Nat) (v : BitVec (8 * n)) : Reads (ByteReaders.word n) (bytes n v) v := by
  have read := Reads.word n v
  rwa [BitVec.setWidth_eq] at read

lemma Reads.raw {n : Nat} (long : s.length = n) : Reads (ByteReaders.raw n) s s := by
  intro rest
  have enough : n ≤ (s ++ rest).length := by
    rw [length_append]
    omega
  simp only [StateT.run, ByteReaders.raw, if_pos enough, take_left' long, drop_left' long]

variable {write : α → List Byte}

lemma Reads.loop {body : σ → Reader σ} {take : σ → α → σ}
    (round : ∀ s a, Reads (body s) (write a) (take s a)) (list : List α) (s : σ) :
    Reads (ByteReaders.loop body list.length s) (list.flatMap write) (list.foldl take s) := by
  induction list generalizing s with
  | nil => exact Reads.pure s
  | cons a list later => exact (round s a).bind (later (take s a))

lemma foldl_concat (read list : List α) :
    list.foldl (fun read a => read ++ [a]) read = read ++ list := by
  induction list generalizing read with
  | nil => simp
  | cons a list later => simp [later]

lemma Reads.items {item : Reader α} (one : ∀ a, Reads item (write a) a) (list : List α) :
    Reads (ByteReaders.items item list.length) (list.flatMap write) list := by
  have round : ∀ (read : List α) (a : α),
      Reads (do return read ++ [← item]) (write a) (read ++ [a]) := fun _ a => (one a).map
  have all := Reads.loop round list []
  rwa [foldl_concat] at all

lemma Reads.items_map {item : Reader β} {f : α → β} (list : List α)
    (one : ∀ a ∈ list, Reads item (write a) (f a)) :
    Reads (ByteReaders.items item list.length) (list.flatMap write) (list.map f) := by
  suffices all : ∀ read : List β,
      Reads (ByteReaders.loop (fun read => do return read ++ [← item]) list.length read)
        (list.flatMap write) (read ++ list.map f) from all []
  induction list with
  | nil =>
    intro read
    rw [map_nil, append_nil]
    exact Reads.pure read
  | cons a list later =>
    intro read
    have round : Reads (do return read ++ [← item]) (write a) (read ++ [f a]) :=
      (one a mem_cons_self).map
    have rest := later (fun b member => one b (mem_cons_of_mem a member)) (read ++ [f a])
    rw [append_assoc] at rest
    exact round.bind rest

lemma Reads.run (reads : Reads reader s a) : reader.run s = some (a, []) := by
  have all := reads []
  rwa [append_nil] at all

end ByteReaders
