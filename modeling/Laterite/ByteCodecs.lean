import Laterite.MachineIntegers
import Mathlib.Data.List.Basic

/-!
# Codecs

A codec writes a value as bytes and reads it back off the front of the bytes. Codecs of numbers
and of fixed lengths of bytes are put side by side and changed along a map with a left inverse, so
a record's codec is read back because its fields' are.
-/

namespace ByteCodecs

structure Codec (α : Type) where
  encode : α → List UInt8
  decode : List UInt8 → Option (α × List UInt8)
  decode_encode (value : α) (rest : List UInt8) : decode (encode value ++ rest) = some (value, rest)

namespace Codec

variable {α β : Type}

/-- The value written at the front of the bytes. -/
def read (codec : Codec α) (bytes : List UInt8) : Option α := (codec.decode bytes).map Prod.fst

theorem read_encode_append (codec : Codec α) (value : α) (rest : List UInt8) :
    codec.read (codec.encode value ++ rest) = some value := by
  rw [read, codec.decode_encode]
  rfl

def bytes (length : ℕ) : Codec (Vector UInt8 length) where
  encode := Vector.toList
  decode input :=
    if h : (input.take length).length = length then
      some (⟨(input.take length).toArray, h⟩, input.drop length)
    else none
  decode_encode value rest := by
    have hlength : value.toList.length = length := Vector.length_toList
    have htake : (value.toList ++ rest).take length = value.toList := List.take_left' hlength
    rw [dif_pos (by rw [htake, hlength]), List.drop_left' hlength]
    congr 2
    apply Vector.toList_inj.mp
    exact htake

/-- A number below the bytes' range, least significant byte first. -/
def number (size : ℕ) : Codec (Fin (256 ^ size)) where
  encode value := LittleEndian.bytes size value
  decode input :=
    if h : (input.take size).length = size then
      some (⟨LittleEndian.toNat (input.take size), lt_of_lt_of_eq (LittleEndian.toNat_lt _) (by rw [h])⟩,
        input.drop size)
    else none
  decode_encode value rest := by
    have hlength : (LittleEndian.bytes size value).length = size := LittleEndian.length_bytes ..
    have htake : (LittleEndian.bytes size value ++ rest).take size = LittleEndian.bytes size value :=
      List.take_left' hlength
    rw [dif_pos (by rw [htake, hlength]), List.drop_left' hlength]
    congr 2
    apply Fin.ext
    change LittleEndian.toNat ((LittleEndian.bytes size value ++ rest).take size) = value
    rw [htake, LittleEndian.toNat_bytes, Nat.mod_eq_of_lt value.isLt]

def pair (first : Codec α) (second : Codec β) : Codec (α × β) where
  encode value := first.encode value.1 ++ second.encode value.2
  decode input := do
    let (a, input) ← first.decode input
    let (b, input) ← second.decode input
    return ((a, b), input)
  decode_encode value rest := by
    rw [List.append_assoc, first.decode_encode]
    simp only [Option.bind_eq_bind, Option.bind_some, second.decode_encode]
    rfl

def along (codec : Codec α) (read : α → Option β) (write : β → α)
    (h : ∀ value, read (write value) = some value) : Codec β where
  encode value := codec.encode (write value)
  decode input := do
    let (a, input) ← codec.decode input
    let b ← read a
    return (b, input)
  decode_encode value rest := by
    rw [codec.decode_encode]
    simp only [Option.bind_eq_bind, Option.bind_some, h]
    rfl

/-- A value written as another that determines it. -/
def map (codec : Codec α) (read : α → β) (write : β → α) (h : ∀ value, read (write value) = value) :
    Codec β := codec.along (fun a => some (read a)) write fun value => congrArg some (h value)

def uint8 : Codec UInt8 :=
  (number 1).map (fun n => UInt8.ofNat n) (fun word => ⟨word.toNat, word.toNat_lt⟩)
    fun _ => UInt8.ofNat_toNat

def uint16 : Codec UInt16 :=
  (number 2).map (fun n => UInt16.ofNat n) (fun word => ⟨word.toNat, word.toNat_lt⟩)
    fun _ => UInt16.ofNat_toNat

def uint64 : Codec UInt64 :=
  (number 8).map (fun n => UInt64.ofNat n) (fun word => ⟨word.toNat, word.toNat_lt⟩)
    fun _ => UInt64.ofNat_toNat

/-- A signed number, in two's complement. -/
def int16 : Codec Int16 := uint16.map UInt16.toInt16 Int16.toUInt16 Int16.toInt16_toUInt16

def int64 : Codec Int64 := uint64.map UInt64.toInt64 Int64.toUInt64 Int64.toInt64_toUInt64

def bool : Codec Bool :=
  uint8.map (fun word => word == 1) (fun value => if value then 1 else 0) fun value => by
    cases value <;> rfl

def enumeration [DecidableEq α] (values : List α) (hlength : values.length ≤ 256)
    (hall : ∀ value : α, value ∈ values) : Codec α :=
  uint8.along (fun word => values[word.toNat]?) (fun value => UInt8.ofNat (values.idxOf value))
    fun value => by
      have hlt := List.idxOf_lt_length_of_mem (hall value)
      rw [UInt8.toNat_ofNat', Nat.mod_eq_of_lt (by omega), List.getElem?_eq_getElem hlt,
        List.getElem_idxOf hlt]

end Codec

end ByteCodecs
