import Mathlib

/-!
`MakeMD5` and `CheckMD5` of `_lib/util_file.cpp`. The digest of `_external/md5.h` is a parameter,
and so is what the invalid parameter handler of the C library does.
-/

namespace ProjectPl

/-- An incremental digest. -/
structure Md5 (State : Type) where
  init : State
  append : State → List UInt8 → State
  finish : State → List UInt8
  finish_length : ∀ state, (finish state).length = 16

namespace Md5

variable {State : Type}

def digest (md5 : Md5 State) (content : List UInt8) : List UInt8 :=
  md5.finish (md5.append md5.init content)

end Md5

namespace FileDigest

structure FileRead where
  elements : Nat
  buffer : List UInt8
  rest : List UInt8

/-- The value is the number of complete elements. -/
def freadS (buffer : List UInt8) (elementSize count : Nat) (rest : List UInt8) : FileRead :=
  let read := rest.take (elementSize * count)
  { elements := read.length / elementSize
    buffer := read ++ buffer.drop read.length
    rest := rest.drop (elementSize * count) }

theorem freadS_rest_lt {buffer rest : List UInt8}
    (more : (freadS buffer 1024 1 rest).elements ≠ 0) :
    (freadS buffer 1024 1 rest).rest.length < rest.length := by
  simp only [freadS, List.length_take, List.length_drop] at more ⊢
  omega

/-- The byte ranges that the loop passes to `md5_append`. -/
def appended (buffer rest : List UInt8) : List (List UInt8) :=
  let read := freadS buffer 1024 1 rest
  if _ : read.elements ≠ 0 then
    read.buffer.take read.elements :: appended read.buffer read.rest
  else []
termination_by rest.length
decreasing_by exact freadS_rest_lt ‹_›

def hexDigit (value : Nat) : UInt16 :=
  if value < 10 then UInt16.ofNat (0x30 + value) else UInt16.ofNat (0x57 + value)

def hexByte (byte : UInt8) : List UInt16 :=
  [hexDigit (byte.toNat / 16), hexDigit (byte.toNat % 16)]

def overwrite (text : List UInt16) (index : Nat) (chunk : List UInt16) : List UInt16 :=
  text.take index ++ chunk ++ text.drop (index + chunk.length)

/-- `swprintf_s` into the part of a text that starts at an index. Without room for the NUL behind
the output it empties the buffer and calls the handler, which may end the process. -/
def swprintfS (handlerReturns : Bool) (text : List UInt16) (index sizeOfBuffer : Nat)
    (output : List UInt16) : Option (List UInt16) :=
  if output.length < sizeOfBuffer then some (overwrite text index (output ++ [0]))
  else if handlerReturns then some (overwrite text index [0])
  else none

section Digest

variable {State : Type} (md5 : Md5 State) (handlerReturns : Bool)

def fileDigest (content : List UInt8) : List UInt8 :=
  md5.finish ((appended (List.replicate 1024 0) content).foldl md5.append md5.init)

/-- The error of `_wfopen_s`, or the checksum; `none` if the process ended. -/
def makeMD5 (file : Except Int (List UInt8)) : Option (Except Int (List UInt16)) :=
  match file with
  | .error error => some (.error error)
  | .ok content =>
      let digest := fileDigest md5 content
      let checksum := (List.range 16).foldlM (fun text index =>
        swprintfS handlerReturns text (index * 2) 2 (hexByte (digest.getD index 0)))
        (List.replicate 32 0)
      checksum.map .ok

def checkMD5 (file : Except Int (List UInt8)) (checksum : List UInt16) : Option Bool :=
  (makeMD5 md5 handlerReturns file).map fun made =>
    match made with
    | .error _ => false
    | .ok text => text = checksum

def hexDigest (content : List UInt8) : List UInt16 := (md5.digest content).flatMap hexByte

structure DigestsFile (content : List UInt8) : Prop where
  ranges : (appended (List.replicate 1024 0) content).flatten = content
  checks : ∀ checksum, checkMD5 md5 handlerReturns (.ok content) checksum = some true ↔
    checksum = hexDigest md5 content

end Digest

section Ranges

variable (buffer : List UInt8) {rest : List UInt8}

theorem appended_full (full : 1024 ≤ rest.length) :
    ∃ later, appended buffer rest = [rest.headD 0] :: appended later (rest.drop 1024) := by
  rw [appended]
  have complete : (rest.take 1024).length = 1024 := by rw [List.length_take]; omega
  simp only [freadS, Nat.mul_one, complete]
  refine ⟨rest.take 1024 ++ buffer.drop 1024, ?_⟩
  rw [dif_pos (by decide)]
  cases rest with
  | nil => exact absurd full (by decide)
  | cons byte rest => rfl

theorem appended_short (short : rest.length < 1024) : appended buffer rest = [] := by
  rw [appended]
  simp only [freadS, Nat.mul_one, List.length_take]
  exact dif_neg (by omega)

theorem appended_length (buffer rest : List UInt8) :
    (appended buffer rest).flatten.length = rest.length / 1024 := by
  by_cases full : 1024 ≤ rest.length
  · obtain ⟨later, more⟩ := appended_full buffer full
    rw [more, List.flatten_cons, List.length_append, appended_length later _, List.length_drop,
      List.length_singleton]
    omega
  · rw [appended_short buffer (by omega), Nat.div_eq_of_lt (by omega)]
    rfl
termination_by rest.length
decreasing_by
  rw [List.length_drop]
  omega

theorem appended_flatten_iff (content : List UInt8) :
    (appended buffer content).flatten = content ↔ content = [] := by
  constructor
  · intro same
    have lengths := congrArg List.length same
    rw [appended_length] at lengths
    exact List.length_eq_zero_iff.mp (by omega)
  · rintro rfl
    rw [appended_short _ (by decide)]
    rfl

end Ranges

section Check

variable {State : Type} (md5 : Md5 State) (handlerReturns : Bool) (content : List UInt8)

theorem swprintfS_hexByte (text : List UInt16) (index : Nat) (byte : UInt8) :
    swprintfS handlerReturns text index 2 (hexByte byte) =
      if handlerReturns then some (overwrite text index [0]) else none :=
  if_neg (show ¬(2 : Nat) < 2 by decide)

theorem overwrite_zeros (index : Nat) (inside : index < 32) :
    overwrite (List.replicate 32 0) index [0] = List.replicate 32 0 := by
  refine List.eq_replicate_iff.mpr ⟨?_, ?_⟩
  · simp only [overwrite, List.length_append, List.length_take, List.length_drop,
      List.length_replicate, List.length_singleton]
    omega
  · intro value member
    simp only [overwrite, List.mem_append, List.mem_singleton] at member
    rcases member with (front | here) | back
    · exact List.eq_of_mem_replicate (List.mem_of_mem_take front)
    · exact here
    · exact List.eq_of_mem_replicate (List.mem_of_mem_drop back)

/-- Either the process ends, or the checksum is all NULs. -/
theorem makeMD5_eq : makeMD5 md5 handlerReturns (.ok content) =
    if handlerReturns then some (.ok (List.replicate 32 0)) else none := by
  have filled (indices : List Nat) (inside : ∀ index ∈ indices, index < 16) :
      (indices.foldlM (fun text index => swprintfS true text (index * 2) 2
        (hexByte ((fileDigest md5 content).getD index 0))) (List.replicate 32 0)) =
          some (List.replicate 32 0) := by
    induction indices with
    | nil => rfl
    | cons index rest ih =>
        have bound := inside index List.mem_cons_self
        rw [List.foldlM_cons, swprintfS_hexByte, if_pos rfl, overwrite_zeros _ (by omega)]
        exact ih fun other member => inside other (List.mem_cons_of_mem index member)
  cases handlerReturns with
  | true =>
      exact congrArg (Option.map Except.ok) (filled _ fun index => List.mem_range.mp)
  | false =>
      rw [makeMD5]
      simp only [List.range_succ_eq_map, List.foldlM_cons, swprintfS_hexByte]
      rfl

theorem hexDigit_ne_zero (value : Nat) (digit : value < 16) : hexDigit value ≠ 0 := by
  interval_cases value <;> decide

theorem checkMD5_hexDigest :
    checkMD5 md5 handlerReturns (.ok content) (hexDigest md5 content) ≠ some true := by
  rw [checkMD5, makeMD5_eq]
  cases handlerReturns with
  | false => exact (Option.some_ne_none true).symm
  | true =>
      intro passed
      have same : List.replicate 32 0 = hexDigest md5 content :=
        of_decide_eq_true (Option.some.inj passed)
      obtain ⟨byte, rest, digest⟩ := List.exists_cons_of_length_pos
        (show 0 < (md5.digest content).length by rw [Md5.digest, md5.finish_length]; decide)
      rw [hexDigest, digest, List.flatMap_cons, hexByte] at same
      have bound := byte.toNat_lt
      exact hexDigit_ne_zero (byte.toNat / 16) (by omega) (List.cons.inj same).1.symm

end Check

/-- The ranges are the file only for the empty one, and the check of its digest fails for all. -/
theorem digestsFile_never {State : Type} (md5 : Md5 State) (handlerReturns : Bool)
    (content : List UInt8) :
    ((appended (List.replicate 1024 0) content).flatten = content ↔ content = []) ∧
      ¬DigestsFile md5 handlerReturns content := by
  refine ⟨appended_flatten_iff _ content, ?_⟩
  intro digests
  exact checkMD5_hexDigest md5 handlerReturns content ((digests.checks _).mpr rfl)

/-- A digest that is MD5 for a file without a byte. -/
def ofEmpty : Md5 (List UInt8) where
  init := []
  append state bytes := state ++ bytes
  finish state :=
    if state = [] then
      [0xd4, 0x1d, 0x8c, 0xd9, 0x8f, 0x00, 0xb2, 0x04, 0xe9, 0x80, 0x09, 0x98, 0xec, 0xf8, 0x42,
        0x7e]
    else List.replicate 16 0
  finish_length state := by
    split
    · rfl
    · exact List.length_replicate

theorem digestsFile_never_empty :
    (appended (List.replicate 1024 0) []).flatten = [] ∧ ¬DigestsFile ofEmpty true [] := by
  obtain ⟨ranges, fails⟩ := digestsFile_never ofEmpty true []
  exact ⟨ranges.mpr rfl, fails⟩

theorem appended_oneByte : (appended (List.replicate 1024 0) [0x61]).flatten ≠ [0x61] := by
  rw [appended_short _ (by decide)]
  exact (List.cons_ne_nil _ _).symm

end FileDigest

end ProjectPl
