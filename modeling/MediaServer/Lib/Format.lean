import Mathlib.Tactic.Common

/-!
# Byte formats

A format writes a value as bytes and reads it back from the front of an input,
leaving the rest.  Formats of records are put together from formats of their
fields, so a record that is written and read by the same format comes back.
-/

structure Format (α : Type) where
  write : α → List UInt8
  read : List UInt8 → Option (α × List UInt8)
  read_write : ∀ a rest, read (write a ++ rest) = some (a, rest)

namespace Format

variable {α β : Type}

def byte : Format UInt8 where
  write b := [b]
  read
    | [] => none
    | b :: rest => some (b, rest)
  read_write _ _ := rfl

/-- One value after another. -/
def pair (first : Format α) (second : Format β) : Format (α × β) where
  write p := first.write p.1 ++ second.write p.2
  read input := do
    let (a, rest) ← first.read input
    let (b, rest) ← second.read rest
    some ((a, b), rest)
  read_write p rest := by
    rw [List.append_assoc, first.read_write]
    simp [second.read_write]

/-- A value written as another one. -/
def imap (format : Format α) (decode : α → β) (encode : β → α)
    (h : ∀ b, decode (encode b) = b) : Format β where
  write b := format.write (encode b)
  read input := (format.read input).map fun p => (decode p.1, p.2)
  read_write b rest := by
    rw [format.read_write, Option.map_some, h]

/-- A byte says whether the value is there. -/
def option (format : Format α) : Format (Option α) where
  write
    | none => [0]
    | some a => 1 :: format.write a
  read
    | [] => none
    | tag :: rest =>
        if tag = 0 then some (none, rest)
        else (format.read rest).map fun p => (some p.1, p.2)
  read_write value rest := by
    cases value with
    | none => rfl
    | some a => simp [format.read_write]

/-- Each item is announced by a byte; the last byte announces nothing.  The input bounds the
    number of items that are looked for. -/
def readList (format : Format α) : Nat → List UInt8 → Option (List α × List UInt8)
  | 0, _ => none
  | _, [] => none
  | fuel + 1, tag :: rest =>
      if tag = 0 then some ([], rest)
      else do
        let (a, rest) ← format.read rest
        let (items, rest) ← readList format fuel rest
        some (a :: items, rest)

def writeList (format : Format α) : List α → List UInt8
  | [] => [0]
  | a :: items => 1 :: (format.write a ++ writeList format items)

theorem readList_writeList (format : Format α) (items : List α) (rest : List UInt8) {fuel : Nat}
    (h : items.length < fuel) :
    readList format fuel (writeList format items ++ rest) = some (items, rest) := by
  induction items generalizing fuel with
  | nil =>
    cases fuel with
    | zero => cases h
    | succ fuel => rfl
  | cons a items ih =>
    cases fuel with
    | zero => cases h
    | succ fuel =>
      have hrest := ih (Nat.lt_of_succ_lt_succ h)
      simp [writeList, readList, List.append_assoc, format.read_write, hrest]

theorem length_lt_writeList (format : Format α) (items : List α) :
    items.length < (writeList format items).length := by
  induction items with
  | nil => simp [writeList]
  | cons a items ih =>
    simp only [writeList, List.length_cons, List.length_append]
    omega

def list (format : Format α) : Format (List α) where
  write := writeList format
  read input := readList format (input.length + 1) input
  read_write items rest := by
    apply readList_writeList
    have hlength := length_lt_writeList format items
    rw [List.length_append]
    omega

def uint16 : Format UInt16 :=
  (byte.pair byte).imap (fun p => UInt16.ofNat (p.1.toNat * 256 + p.2.toNat))
    (fun x => (UInt8.ofNat (x.toNat / 256), UInt8.ofNat x.toNat)) (by
      intro x
      have hlt := x.toNat_lt
      apply UInt16.toNat_inj.mp
      simp only [UInt8.toNat_ofNat', UInt16.toNat_ofNat']
      omega)

def uint32 : Format UInt32 :=
  (uint16.pair uint16).imap (fun p => UInt32.ofNat (p.1.toNat * 65536 + p.2.toNat))
    (fun x => (UInt16.ofNat (x.toNat / 65536), UInt16.ofNat x.toNat)) (by
      intro x
      have hlt := x.toNat_lt
      apply UInt32.toNat_inj.mp
      simp only [UInt16.toNat_ofNat', UInt32.toNat_ofNat']
      omega)

def uint64 : Format UInt64 :=
  (uint32.pair uint32).imap (fun p => UInt64.ofNat (p.1.toNat * 4294967296 + p.2.toNat))
    (fun x => (UInt32.ofNat (x.toNat / 4294967296), UInt32.ofNat x.toNat)) (by
      intro x
      have hlt := x.toNat_lt
      apply UInt64.toNat_inj.mp
      simp only [UInt32.toNat_ofNat', UInt64.toNat_ofNat']
      omega)

def int8 : Format Int8 :=
  byte.imap UInt8.toInt8 Int8.toUInt8 (by simp)

def char : Format Char :=
  uint32.imap (fun x => Char.ofNat x.toNat) Char.val (by
    intro c
    exact Char.ofNat_toNat c)

def string : Format String := (list char).imap String.ofList String.toList (by simp)

end Format
