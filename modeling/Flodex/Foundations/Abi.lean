import Flodex.Foundations.Bytes

/-!
# The arguments of a contract call

The encoding of the arguments of a call, and their decoder, for integers, words, arrays of integers
of a fixed length, and byte strings. Each argument has its place in the head, where a byte string
has the offset of its tail: its length, its bytes, and zeros up to a full word.

`decode_encode` is the round trip: in front of anything, an encoding decodes to its arguments. The
decoder follows offsets wherever they point, so its invariant (`decodeFrom_layout`) is about a head
whose tails are somewhere behind it.
-/

namespace Flodex.Abi

/-- The types of arguments. -/
inductive Ty
  | uint (bits : ℕ)
  | bytes32
  /-- `uint[n]` -/
  | uints (n bits : ℕ)
  | string
  deriving DecidableEq, Repr

inductive Arg
  | uint (n : ℕ)
  | bytes32 (b : Bytes 32)
  | uints (l : List ℕ)
  | string (s : List UInt8)
  deriving DecidableEq, Repr

/-- The arguments of a type. Integers have at most a word, and lengths are below `2 ^ 64`. -/
def Arg.HasTy : Arg → Ty → Prop
  | .uint n, .uint bits => n < 2 ^ bits ∧ bits ≤ 256
  | .bytes32 _, .bytes32 => True
  | .uints l, .uints n bits => l.length = n ∧ (∀ x ∈ l, x < 2 ^ bits) ∧ bits ≤ 256
  | .string s, .string => s.length < 2 ^ 64
  | _, _ => False

/-! ## The encoder -/

/-- A number as a word. -/
def word (n : ℕ) : List UInt8 := beBytes 32 n

/-- The zeros after a byte string. -/
def padding (length : ℕ) : List UInt8 := .replicate ((32 - length % 32) % 32) 0

namespace Arg

/-- The bytes of an argument in the head. -/
def headSize : Arg → ℕ
  | uint _ | bytes32 _ | string _ => 32
  | uints l => 32 * l.length

/-- An argument in the head, with its tail at `offset`. -/
def head (offset : ℕ) : Arg → List UInt8
  | uint n => word n
  | bytes32 b => b.toList
  | uints l => l.flatMap word
  | string _ => word offset

/-- The tail of an argument. -/
def tail : Arg → List UInt8
  | uint _ | bytes32 _ | uints _ => []
  | string s => word s.length ++ (s ++ padding s.length)

end Arg

/-- The head of arguments whose tails start at `offset`. -/
def heads : ℕ → List Arg → List UInt8
  | _, [] => []
  | offset, a :: as => a.head offset ++ heads (offset + a.tail.length) as

def tails (as : List Arg) : List UInt8 := as.flatMap Arg.tail

def headSize (as : List Arg) : ℕ := (as.map Arg.headSize).sum

/-- The encoding of arguments. -/
def encode (as : List Arg) : List UInt8 := heads (headSize as) as ++ tails as

/-! ## The decoder -/

/-- The bytes from `pos` on, if there are so many. -/
def readBytes (data : List UInt8) (pos length : ℕ) : Option (List UInt8) :=
  if pos + length ≤ data.length then some ((data.drop pos).take length) else none

/-- The integer in the word at `pos`, if it is of its type. -/
def readUint (data : List UInt8) (pos bits : ℕ) : Option ℕ :=
  ((readBytes data pos 32).map beNat).filter fun n => n < 2 ^ bits

/-- The integers in the words from `pos` on. -/
def readUints (data : List UInt8) (bits : ℕ) : ℕ → ℕ → Option (List ℕ)
  | _, 0 => some []
  | pos, n + 1 => do
    let x ← readUint data pos bits
    let l ← readUints data bits (pos + 32) n
    pure (x :: l)

namespace Ty

def headSize : Ty → ℕ
  | uint _ | bytes32 | string => 32
  | uints n _ => 32 * n

/-- The argument whose place in the head is at `pos`. -/
def read (data : List UInt8) (pos : ℕ) : Ty → Option Arg
  | uint bits => (readUint data pos bits).map .uint
  | bytes32 => ((readBytes data pos 32).bind (Bytes.ofList? 32)).map .bytes32
  | uints n bits => (readUints data bits pos n).map .uints
  | string => do
    let offset ← readUint data pos 64
    let length ← readUint data offset 64
    let s ← readBytes data (offset + 32) length
    pure (.string s)

end Ty

def decodeFrom (data : List UInt8) : ℕ → List Ty → Option (List Arg)
  | _, [] => some []
  | pos, t :: ts => do
    let a ← t.read data pos
    let as ← decodeFrom data (pos + t.headSize) ts
    pure (a :: as)

/-- The arguments of the types `ts` in `data`. -/
def decode (ts : List Ty) (data : List UInt8) : Option (List Arg) := decodeFrom data 0 ts

/-! ## Reading what was written -/

theorem tails_cons (a : Arg) (as : List Arg) : tails (a :: as) = a.tail ++ tails as := rfl

variable {a : Arg} {t : Ty} {as : List Arg} {ts : List Ty} {n bits : ℕ} {l r s : List UInt8}

@[simp] theorem length_word (n : ℕ) : (word n).length = 32 := length_beBytes 32 n

theorem length_flatMap_word (l : List ℕ) : (l.flatMap word).length = 32 * l.length := by
  induction l with
  | nil => rfl
  | cons n l ih =>
    rw [List.flatMap_cons, List.length_append, length_word, ih, List.length_cons]
    ring

@[simp] theorem length_head (offset : ℕ) : (a.head offset).length = a.headSize := by
  cases a with
  | uint n => exact length_word n
  | bytes32 b => exact b.length_toList
  | uints l => exact length_flatMap_word l
  | string s => exact length_word offset

@[simp] theorem length_heads (offset : ℕ) (as : List Arg) :
    (heads offset as).length = headSize as := by
  induction as generalizing offset with
  | nil => rfl
  | cons a as ih =>
    rw [heads, List.length_append, length_head, ih]
    rfl

theorem length_encode (as : List Arg) : (encode as).length = headSize as + (tails as).length := by
  rw [encode, List.length_append, length_heads]

/-- The length of an encoding is the sum over its arguments. -/
theorem length_encode_append (as bs : List Arg) :
    (encode (as ++ bs)).length = (encode as).length + (encode bs).length := by
  simp only [length_encode, headSize, tails, List.map_append, List.sum_append, List.flatMap_append,
    List.length_append]
  ring

theorem headSize_of_hasTy (h : a.HasTy t) : a.headSize = t.headSize := by
  cases a <;> cases t <;> simp only [Arg.HasTy] at h <;> try rfl
  simp only [Arg.headSize, Ty.headSize, h.1]

theorem readBytes_append (l s r : List UInt8) :
    readBytes (l ++ (s ++ r)) l.length s.length = some s := by
  rw [readBytes, if_pos (by simp), take_drop_field rfl rfl]

theorem lt_word (hn : n < 2 ^ bits) (hbits : bits ≤ 256) : n < 256 ^ 32 := by
  have hle : 2 ^ bits ≤ 2 ^ 256 := Nat.pow_le_pow_right (by norm_num) hbits
  have hpow : (256 : ℕ) ^ 32 = 2 ^ 256 := by norm_num
  omega

theorem readUint_append (hn : n < 2 ^ bits) (hbits : bits ≤ 256) (l r : List UInt8) :
    readUint (l ++ (word n ++ r)) l.length bits = some n := by
  have hread := readBytes_append l (word n) r
  rw [length_word] at hread
  rw [readUint, hread, Option.map_some, word, beNat_beBytes_of_lt (lt_word hn hbits),
    Option.filter_some, if_pos (by simpa using hn)]

theorem readUints_append {xs : List ℕ} (hxs : ∀ x ∈ xs, x < 2 ^ bits) (hbits : bits ≤ 256)
    (l r : List UInt8) :
    readUints (l ++ (xs.flatMap word ++ r)) bits l.length xs.length = some xs := by
  induction xs generalizing l with
  | nil => rfl
  | cons x xs ih =>
    rw [List.forall_mem_cons] at hxs
    have htail := ih hxs.2 (l ++ word x)
    rw [List.length_append, length_word, List.append_assoc] at htail
    rw [List.flatMap_cons, List.append_assoc, List.length_cons, readUints,
      readUint_append hxs.1 hbits, htail]
    rfl

/-- A byte string is read from its place in the head, with its tail behind it. -/
theorem read_string (hs : s.length < 2 ^ 64) (l m r : List UInt8)
    (hoffset : l.length + 32 + m.length < 2 ^ 64) :
    Ty.string.read (l ++ (word (l.length + 32 + m.length) ++
      (m ++ (word s.length ++ (s ++ padding s.length) ++ r)))) l.length = some (.string s) := by
  have hhead := readUint_append hoffset (by decide) l
    (m ++ (word s.length ++ (s ++ padding s.length) ++ r))
  -- the same bytes, split at the tail and at the bytes of the string
  have hlength := readUint_append hs (by decide) (l ++ (word (l.length + 32 + m.length) ++ m))
    ((s ++ padding s.length) ++ r)
  have hbytes := readBytes_append
    (l ++ (word (l.length + 32 + m.length) ++ (m ++ word s.length))) s (padding s.length ++ r)
  simp only [List.length_append, length_word, List.append_assoc] at hhead hlength hbytes ⊢
  rw [← Nat.add_assoc] at hlength
  rw [show l.length + (32 + (m.length + 32)) = l.length + 32 + m.length + 32 by ring] at hbytes
  simp only [Ty.read, hhead, hlength, hbytes, Option.bind_eq_bind, Option.bind_some]
  rfl

/-- An argument is read from its place in the head, with its tail behind it. -/
theorem read_append (h : a.HasTy t) (l m r : List UInt8)
    (hoffset : l.length + a.headSize + m.length < 2 ^ 64) :
    t.read (l ++ (a.head (l.length + a.headSize + m.length) ++ (m ++ (a.tail ++ r)))) l.length =
      some a := by
  cases a with
  | uint n =>
    cases t <;> simp only [Arg.HasTy] at h
    rw [Ty.read, Arg.head, readUint_append h.1 h.2]
    rfl
  | bytes32 b =>
    cases t <;> simp only [Arg.HasTy] at h
    have hread := readBytes_append l b.toList (m ++ ([] ++ r))
    rw [b.length_toList] at hread
    rw [Ty.read, Arg.head, Arg.tail, hread, Option.bind_some, Bytes.ofList?_toList]
    rfl
  | uints xs =>
    cases t <;> simp only [Arg.HasTy] at h
    obtain ⟨rfl, hxs, hbits⟩ := h
    rw [Ty.read, Arg.head, readUints_append hxs hbits]
    rfl
  | string s =>
    cases t <;> simp only [Arg.HasTy] at h
    exact read_string h l m r hoffset

/-- **The invariant of the decoder**: from a head at the end of `l`, whose tails are behind `m`, it
reads the arguments of the head. -/
theorem decodeFrom_layout (h : List.Forall₂ Arg.HasTy as ts) (l m r : List UInt8)
    (hsize : (l ++ (heads (l.length + headSize as + m.length) as ++ (m ++ tails as))).length <
      2 ^ 64) :
    decodeFrom (l ++ (heads (l.length + headSize as + m.length) as ++ (m ++ (tails as ++ r))))
      l.length ts = some as := by
  induction h generalizing l m with
  | nil => rfl
  | @cons a t as ts ha _ ih =>
    obtain ⟨offset, hoffset⟩ : ∃ offset, offset = l.length + headSize (a :: as) + m.length :=
      ⟨_, rfl⟩
    have hsum : offset = l.length + a.headSize + headSize as + m.length := by
      rw [hoffset, headSize, List.map_cons, List.sum_cons, headSize]
      ring
    rw [← hoffset, heads, tails_cons] at hsize ⊢
    -- the first argument: the rest of the head and the tails so far are in front of its tail
    have hread := read_append ha l (heads (offset + a.tail.length) as ++ m) (tails as ++ r) (by
      simp only [List.length_append, length_head, length_heads] at hsize ⊢
      omega)
    -- the others: its place and its tail are behind them
    have hrest := ih (l ++ a.head offset) (m ++ a.tail) (by
      simp only [List.length_append, length_head, length_heads] at hsize ⊢
      exact lt_of_le_of_lt (by omega) hsize)
    simp only [List.length_append, length_head, length_heads, List.append_assoc] at hread hrest ⊢
    rw [show l.length + a.headSize + (headSize as + m.length) = offset by omega] at hread
    rw [show l.length + a.headSize + headSize as + (m.length + a.tail.length) =
      offset + a.tail.length by omega, headSize_of_hasTy ha] at hrest
    simp only [decodeFrom, hread, hrest, Option.bind_eq_bind, Option.bind_some]
    rfl

/-- **Round trip**: an encoding decodes to its arguments, in front of anything. -/
theorem decode_encode (h : List.Forall₂ Arg.HasTy as ts) (hsize : (encode as).length < 2 ^ 64)
    (r : List UInt8) : decode ts (encode as ++ r) = some as := by
  have hdecode := decodeFrom_layout h [] [] r
  simp only [List.nil_append, List.length_nil, Nat.zero_add, Nat.add_zero] at hdecode
  rw [encode, List.append_assoc]
  exact hdecode hsize

end Flodex.Abi
