import Mathlib

/-!
The part of the .NET base library that a byte codec stands on: arrays of fixed length with
checked copies, slices taken by `BitConverter`, and the conversion of an `int` result to 32
bits. Arrays are lists, and a failed check is an exception. Allocation itself does not fail.
-/

namespace DotNet

inductive Exception
  | argument
  | argumentOutOfRange
  | overflow
  | nullReference
  | indexOutOfRange
  deriving DecidableEq, Repr

abbrev Result := Except Exception

theorem ok_bind {α β : Type} (value : α) (next : α → Result β) :
    ((Except.ok value : Result α) >>= next) = next value := rfl

theorem bind_eq_ok {α β : Type} {first : Result α} {next : α → Result β} {result : β}
    (done : (first >>= next) = .ok result) :
    ∃ value, first = .ok value ∧ next value = .ok result := by
  cases first with
  | error failure => cases done
  | ok value => exact ⟨value, rfl, done⟩

/-- The value of unchecked `int` arithmetic. -/
def int32 (value : Int) : Int := Int.bmod value 0x100000000

theorem int32_of_fits {value : Int} (lower : -0x80000000 ≤ value) (upper : value < 0x80000000) :
    int32 value = value := by
  apply Int.bmod_eq_of_le_mul_two <;> omega

/-- Where the exact value passes the top of the range, the result is negative. -/
theorem int32_of_overflow {value : Int} (lower : 0x80000000 ≤ value)
    (upper : value < 0x100000000) : int32 value = value - 0x100000000 := by
  rw [int32, ← Int.sub_bmod_right value 0x100000000]
  apply Int.bmod_eq_of_le_mul_two <;> omega

def newBytes (length : Int) : Result (List UInt8) :=
  if length < 0 then .error .overflow else .ok (List.replicate length.toNat 0)

theorem newBytes_natCast (length : Nat) :
    newBytes length = .ok (List.replicate length 0) := by
  rw [newBytes, if_neg (by omega), Int.toNat_natCast]

section Copy

variable {α : Type*}

/-- `Array.Copy`. The two arrays may be one: the values are taken before any is stored. -/
def arrayCopy (source : List α) (sourceIndex : Int) (destination : List α)
    (destinationIndex length : Int) : Result (List α) :=
  if sourceIndex < 0 ∨ destinationIndex < 0 ∨ length < 0 then .error .argumentOutOfRange
  else if source.length < sourceIndex + length ∨
      destination.length < destinationIndex + length then .error .argument
  else
    .ok (destination.take destinationIndex.toNat ++
      (source.drop sourceIndex.toNat).take length.toNat ++
      destination.drop (destinationIndex + length).toNat)

/-- A copy inside both arrays, with each array cut at the ends of the copy. -/
theorem arrayCopy_append (before after front back : List α) {chunk old : List α}
    (same : old.length = chunk.length) :
    arrayCopy (before ++ chunk ++ after) before.length (front ++ old ++ back) front.length
      chunk.length = .ok (front ++ chunk ++ back) := by
  have taken : ((before ++ chunk ++ after).drop before.length).take chunk.length = chunk := by
    rw [List.append_assoc, List.drop_left, List.take_left]
  have kept : (front ++ old ++ back).take front.length = front := by
    rw [List.append_assoc, List.take_left]
  have rest : (front ++ old ++ back).drop (front.length + chunk.length) = back :=
    List.drop_left' (by rw [List.length_append, same])
  have sum : ((front.length : Int) + chunk.length).toNat = front.length + chunk.length := by
    omega
  rw [arrayCopy, if_neg (by omega), if_neg (by simp only [List.length_append]; omega), sum, rest,
    Int.toNat_natCast, Int.toNat_natCast, Int.toNat_natCast, kept, taken]

theorem arrayCopy_take {source destination : List α} {length : Nat} {destinationIndex : Int}
    (inside : length ≤ source.length) :
    arrayCopy (source.take length) 0 destination destinationIndex length =
      arrayCopy source 0 destination destinationIndex length := by
  have taken : (source.take length).length = length := List.length_take_of_le inside
  simp only [arrayCopy, taken, Int.zero_add, Int.toNat_zero, List.drop_zero, Int.toNat_natCast,
    List.take_take, Nat.min_self]
  congr 2
  simp only [eq_iff_iff]
  omega

theorem arrayCopy_eq_ok {source destination result : List α}
    {sourceIndex destinationIndex length : Int}
    (copied : arrayCopy source sourceIndex destination destinationIndex length = .ok result) :
    (0 ≤ length ∧ sourceIndex + length ≤ source.length ∧
        destinationIndex + length ≤ destination.length) ∧
      result = destination.take destinationIndex.toNat ++
        (source.drop sourceIndex.toNat).take length.toNat ++
        destination.drop (destinationIndex + length).toNat := by
  rw [arrayCopy] at copied
  split at copied
  · cases copied
  · split at copied
    · cases copied
    · refine ⟨by omega, ?_⟩
      cases copied
      rfl

theorem arrayCopy_length {source destination result : List α}
    {sourceIndex destinationIndex length : Int}
    (copied : arrayCopy source sourceIndex destination destinationIndex length = .ok result)
    (front : 0 ≤ sourceIndex) (positive : 0 ≤ destinationIndex) :
    result.length = destination.length := by
  obtain ⟨inside, rfl⟩ := arrayCopy_eq_ok copied
  simp only [List.length_append, List.length_take, List.length_drop]
  omega

end Copy

/-- The bytes that a `BitConverter` call looks at. -/
def bitConverter (value : List UInt8) (startIndex width : Nat) : Result (List UInt8) :=
  if value.length ≤ startIndex then .error .argumentOutOfRange
  else if value.length < startIndex + width then .error .argument
  else .ok ((value.drop startIndex).take width)

theorem bitConverter_append (before after : List UInt8) {chunk : List UInt8}
    (some : chunk ≠ []) :
    bitConverter (before ++ chunk ++ after) before.length chunk.length = .ok chunk := by
  have positive : 0 < chunk.length := List.length_pos_of_ne_nil some
  rw [bitConverter, if_neg (by simp only [List.length_append]; omega),
    if_neg (by simp only [List.length_append]; omega), List.append_assoc, List.drop_left,
    List.take_left]

theorem bitConverter_eq_ok {value chunk : List UInt8} {startIndex width : Nat}
    (read : bitConverter value startIndex width = .ok chunk) :
    startIndex + width ≤ value.length ∧ chunk = (value.drop startIndex).take width := by
  rw [bitConverter] at read
  split at read
  · cases read
  · split at read
    · cases read
    · cases read
      exact ⟨by omega, rfl⟩

end DotNet
