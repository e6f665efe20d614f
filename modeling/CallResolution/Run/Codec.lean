import CallResolution.Text.Utf8

/-!
# Codecs

A codec writes values as bytes and reads them back from the front of a byte string. That
reading takes back what was written, and no more, is part of the codec, so codecs built from
codecs have it too.

Files of the result cache are written in a format of a library. The cache takes any format
(`EntryFormat`), and nothing is said of its bytes but that they can be read back; the codecs
make one such format, with which runs can be evaluated.
-/

namespace CallResolution

open Text

/-- A way to write values as bytes. -/
structure Codec (α : Type) where
  /-- The bytes of a value. -/
  write : α → Bytes
  /-- The value at the front of a byte string, and the bytes after it. -/
  read : Bytes → Option (α × Bytes)
  /-- Reading takes back what was written. -/
  read_write : ∀ a rest, read (write a ++ rest) = some (a, rest)

namespace Codec

/-! ## Numbers -/

/-- A number in groups of seven bits, the lowest first; all bytes but the last have the high
bit. -/
def writeNat (n : Nat) : Bytes :=
  if n < 128 then [UInt8.ofNat n] else UInt8.ofNat (n % 128 + 128) :: writeNat (n / 128)

/-- Reads a number. -/
def readNat : Bytes → Option (Nat × Bytes)
  | [] => none
  | b :: r =>
    if b.toNat < 128 then some (b.toNat, r)
    else (readNat r).map fun (n, r) => (b.toNat - 128 + 128 * n, r)

theorem readNat_writeNat (n : Nat) (rest : Bytes) : readNat (writeNat n ++ rest) = some (n, rest) := by
  fun_induction writeNat n with
  | case1 n h =>
    have hb : (UInt8.ofNat n).toNat = n := by simp; omega
    rw [List.singleton_append, readNat, hb, if_pos h]
  | case2 n h ih =>
    have hb : (UInt8.ofNat (n % 128 + 128)).toNat = n % 128 + 128 := by simp; omega
    rw [List.cons_append, readNat, hb, if_neg (by omega), ih]
    simp
    omega

/-- Numbers. -/
def nat : Codec Nat := ⟨writeNat, readNat, readNat_writeNat⟩

/-! ## Building codecs -/

/-- Values that can be told apart by values with a codec. -/
def via {α β : Type} (c : Codec α) (there : β → α) (back : α → β) (back_there : ∀ b, back (there b) = b) : Codec β where
  write b := c.write (there b)
  read s := (c.read s).map fun (a, r) => (back a, r)
  read_write b rest := by simp [c.read_write, back_there]

/-- Pairs. -/
def pair {α β : Type} (c : Codec α) (d : Codec β) : Codec (α × β) where
  write p := c.write p.1 ++ d.write p.2
  read s := do
    let (a, s) ← c.read s
    let (b, s) ← d.read s
    some ((a, b), s)
  read_write p rest := by simp [c.read_write, d.read_write]

/-- The values of a list one after another. -/
def writeAll {α : Type} (c : Codec α) (l : List α) : Bytes :=
  l.flatMap c.write

/-- Reads a number of values. -/
def readMany {α : Type} (c : Codec α) : Nat → Bytes → Option (List α × Bytes)
  | 0, s => some ([], s)
  | n + 1, s => do
    let (a, s) ← c.read s
    let (l, s) ← readMany c n s
    some (a :: l, s)

theorem readMany_writeAll {α : Type} (c : Codec α) (l : List α) (rest : Bytes) :
    readMany c l.length (writeAll c l ++ rest) = some (l, rest) := by
  induction l with
  | nil => rfl
  | cons a l ih =>
    simp only [writeAll] at ih
    simp [readMany, writeAll, c.read_write, ih]

/-- Lists, with their length in front. -/
def list {α : Type} (c : Codec α) : Codec (List α) where
  write l := writeNat l.length ++ writeAll c l
  read s := do
    let (n, s) ← readNat s
    readMany c n s
  read_write l rest := by simp [readNat_writeNat, readMany_writeAll]

/-! ## Simple values -/

/-- Truth values. -/
def bool : Codec Bool :=
  nat.via (fun b => if b then 1 else 0) (· = 1) (by decide)

/-- Characters. -/
def char : Codec Char :=
  nat.via Char.toNat Char.ofNat Char.ofNat_toNat

/-- Texts. -/
def text : Codec String :=
  (list char).via String.toList String.ofList fun _ => String.ofList_toList

/-- Bytes. -/
def byte : Codec UInt8 :=
  nat.via UInt8.toNat UInt8.ofNat fun _ => UInt8.ofNat_toNat

/-- Words of 16 bits. -/
def word16 : Codec UInt16 :=
  nat.via UInt16.toNat UInt16.ofNat fun _ => UInt16.ofNat_toNat

/-- Words of 32 bits. -/
def word32 : Codec UInt32 :=
  nat.via UInt32.toNat UInt32.ofNat fun _ => UInt32.ofNat_toNat

/-- Writes a whole file. -/
def encode {α : Type} (c : Codec α) (a : α) : Bytes :=
  c.write a

/-- Reads a whole file; nothing may be left over. -/
def decode {α : Type} (c : Codec α) (s : Bytes) : Option α :=
  match c.read s with
  | some (a, []) => some a
  | _ => none

end Codec

end CallResolution
