import Mathlib

/-!
Unicode text on the wire. A string is a list of UTF-16 code units, its encoding a list of UTF-8
bytes. Neither direction fails: a lone surrogate and every maximal part of a byte sequence that
no character starts with are read as the replacement character.
-/

namespace Utf

def replacement : Char := Char.ofNat 0xFFFD

/-! UTF-8. -/

def utf8Encode (text : List Char) : List UInt8 := text.flatMap String.utf8EncodeChar

def continues (byte : UInt8) : Bool := 0x80 ≤ byte && byte ≤ 0xBF

/-- The second bytes that a lead byte of three or four admits. -/
def seconds (lead : UInt8) : UInt8 × UInt8 :=
  if lead = 0xE0 then (0xA0, 0xBF)
  else if lead = 0xED then (0x80, 0x9F)
  else if lead = 0xF0 then (0x90, 0xBF)
  else if lead = 0xF4 then (0x80, 0x8F)
  else (0x80, 0xBF)

/-- The length of the maximal part at the front of bytes that start no character. -/
def malformed : List UInt8 → Nat
  | lead :: second :: third :: _ =>
      let admitted := (seconds lead).1 ≤ second && second ≤ (seconds lead).2
      if 0xF0 ≤ lead && lead ≤ 0xF4 && admitted then if continues third then 3 else 2
      else if 0xE0 ≤ lead && lead ≤ 0xEF && admitted then 2
      else 1
  | [lead, second] =>
      if 0xE0 ≤ lead && lead ≤ 0xF4 && (seconds lead).1 ≤ second && second ≤ (seconds lead).2
      then 2 else 1
  | _ => 1

def utf8DecodeUpTo : Nat → List UInt8 → List Char
  | 0, _ => []
  | _ + 1, [] => []
  | count + 1, byte :: rest =>
      match (byte :: rest).toByteArray.utf8DecodeChar? 0 with
      | some char => char :: utf8DecodeUpTo count ((byte :: rest).drop char.utf8Size)
      | none => replacement :: utf8DecodeUpTo count ((byte :: rest).drop (malformed (byte :: rest)))

def utf8Decode (bytes : List UInt8) : List Char := utf8DecodeUpTo bytes.length bytes

/-! UTF-16. -/

def utf16EncodeChar (char : Char) : List UInt16 :=
  if char.toNat < 0x10000 then [UInt16.ofNat char.toNat]
  else
    [UInt16.ofNat (0xD800 + (char.toNat - 0x10000) / 0x400),
      UInt16.ofNat (0xDC00 + (char.toNat - 0x10000) % 0x400)]

def utf16Encode (text : List Char) : List UInt16 := text.flatMap utf16EncodeChar

def isHigh (unit : UInt16) : Bool := 0xD800 ≤ unit && unit ≤ 0xDBFF

def isLow (unit : UInt16) : Bool := 0xDC00 ≤ unit && unit ≤ 0xDFFF

def utf16Decode : List UInt16 → List Char
  | [] => []
  | [unit] => if isHigh unit || isLow unit then [replacement] else [Char.ofNat unit.toNat]
  | unit :: next :: rest =>
      if isHigh unit && isLow next then
        Char.ofNat (0x10000 + (unit.toNat - 0xD800) * 0x400 + (next.toNat - 0xDC00)) ::
          utf16Decode rest
      else if isHigh unit || isLow unit then replacement :: utf16Decode (next :: rest)
      else Char.ofNat unit.toNat :: utf16Decode (next :: rest)

/-! What was encoded is decoded. -/

theorem utf8EncodeChar_ne_nil (char : Char) : String.utf8EncodeChar char ≠ [] := by
  intro empty
  have size := String.length_utf8EncodeChar char
  rw [empty] at size
  have positive := char.utf8Size_pos
  simp only [List.length_nil] at size
  omega

theorem utf8DecodeUpTo_encode (text : List Char) (count : Nat) (enough : text.length ≤ count) :
    utf8DecodeUpTo count (utf8Encode text) = text := by
  induction text generalizing count with
  | nil => cases count <;> rfl
  | cons char text ih =>
      obtain ⟨count, rfl⟩ : ∃ previous, count = previous + 1 :=
        ⟨count - 1, by simp only [List.length_cons] at enough; omega⟩
      obtain ⟨byte, rest, split⟩ := List.exists_cons_of_ne_nil (utf8EncodeChar_ne_nil char)
      have bytes : utf8Encode (char :: text) = byte :: (rest ++ utf8Encode text) := by
        rw [utf8Encode, List.flatMap_cons, split]
        rfl
      have whole : byte :: (rest ++ utf8Encode text) =
          String.utf8EncodeChar char ++ utf8Encode text := by
        rw [split]
        rfl
      have first : (byte :: (rest ++ utf8Encode text)).toByteArray.utf8DecodeChar? 0 =
          some char := by
        rw [whole, List.toByteArray_append, ByteArray.utf8DecodeChar?_utf8EncodeChar_append]
      have later : (byte :: (rest ++ utf8Encode text)).drop char.utf8Size = utf8Encode text := by
        rw [whole, ← String.length_utf8EncodeChar char, List.drop_left]
      rw [bytes, utf8DecodeUpTo, first]
      dsimp only
      rw [later, ih count (by simpa using enough)]

theorem length_le_utf8Encode (text : List Char) : text.length ≤ (utf8Encode text).length := by
  induction text with
  | nil => exact Nat.le_refl 0
  | cons char text ih =>
      have positive : 0 < (String.utf8EncodeChar char).length :=
        List.length_pos_of_ne_nil (utf8EncodeChar_ne_nil char)
      simp only [utf8Encode, List.flatMap_cons, List.length_append, List.length_cons] at ih ⊢
      omega

theorem utf8Decode_utf8Encode (text : List Char) : utf8Decode (utf8Encode text) = text :=
  utf8DecodeUpTo_encode text _ (length_le_utf8Encode text)

/-! Lengths. A character has at most as many UTF-16 units as UTF-8 bytes, and fewer if it is not
ASCII. -/

theorem utf8Size_of_toNat_lt {char : Char} (ascii : char.toNat < 0x80) : char.utf8Size = 1 := by
  rw [Char.utf8Size_eq_one_iff, UInt32.le_iff_toNat_le]
  exact Nat.le_of_lt_succ ascii

theorem utf16EncodeChar_length_le (char : Char) :
    (utf16EncodeChar char).length ≤ char.utf8Size := by
  have positive := char.utf8Size_pos
  rw [utf16EncodeChar]
  split
  · exact positive
  · next wide =>
      have four : char.utf8Size = 4 := by
        rw [Char.utf8Size_eq_four_iff, UInt32.lt_iff_toNat_lt]
        exact Nat.not_lt.mp wide
      rw [four, List.length_cons, List.length_singleton]
      omega

theorem utf16EncodeChar_length_lt {char : Char} (other : 0x80 ≤ char.toNat) :
    (utf16EncodeChar char).length < char.utf8Size := by
  have more : char.utf8Size ≠ 1 := by
    rw [Ne, Char.utf8Size_eq_one_iff, UInt32.le_iff_toNat_le]
    exact Nat.not_le.mpr other
  have positive := char.utf8Size_pos
  rw [utf16EncodeChar]
  split
  · simp only [List.length_singleton]
    omega
  · next wide =>
      have four : char.utf8Size = 4 := by
        rw [Char.utf8Size_eq_four_iff, UInt32.lt_iff_toNat_lt]
        exact Nat.not_lt.mp wide
      rw [four, List.length_cons, List.length_singleton]
      omega

theorem malformed_pos (bytes : List UInt8) : 1 ≤ malformed bytes := by
  match bytes with
  | [] => exact Nat.le_refl 1
  | [_] => exact Nat.le_refl 1
  | [_, _] => rw [malformed]; split <;> omega
  | _ :: _ :: _ :: _ =>
      rw [malformed]
      split
      · split <;> omega
      · split <;> omega

theorem utf16Encode_decodeUpTo_length (count : Nat) (bytes : List UInt8) :
    (utf16Encode (utf8DecodeUpTo count bytes)).length ≤ bytes.length := by
  induction count generalizing bytes with
  | zero => exact Nat.zero_le _
  | succ count ih =>
      cases bytes with
      | nil => exact Nat.zero_le _
      | cons byte rest =>
          rw [utf8DecodeUpTo]
          split
          · next char read =>
              have inside := ByteArray.le_size_of_utf8DecodeChar?_eq_some read
              have later := ih ((byte :: rest).drop char.utf8Size)
              have here := utf16EncodeChar_length_le char
              rw [List.size_toByteArray] at inside
              rw [List.length_drop] at later
              rw [utf16Encode, List.flatMap_cons, List.length_append, ← utf16Encode]
              omega
          · have later := ih ((byte :: rest).drop (malformed (byte :: rest)))
            have skipped := malformed_pos (byte :: rest)
            have one : (utf16EncodeChar replacement).length = 1 := rfl
            rw [List.length_drop, List.length_cons] at later
            rw [utf16Encode, List.flatMap_cons, List.length_append, ← utf16Encode, one,
              List.length_cons]
            omega

theorem utf16Encode_utf8Decode_length (bytes : List UInt8) :
    (utf16Encode (utf8Decode bytes)).length ≤ bytes.length :=
  utf16Encode_decodeUpTo_length bytes.length bytes

/-- The front of a character's bytes is no character. -/
theorem utf8DecodeChar?_front {char : Char} {front back : List UInt8}
    (split : String.utf8EncodeChar char = front ++ back) (cut : back ≠ []) :
    front.toByteArray.utf8DecodeChar? 0 = none := by
  cases read : front.toByteArray.utf8DecodeChar? 0 with
  | none => rfl
  | some other =>
      have longer := ByteArray.utf8DecodeChar?_append_eq_some read back.toByteArray
      have whole : (String.utf8EncodeChar char).toByteArray.utf8DecodeChar? 0 = some char := by
        rw [← ByteArray.append_empty (b := (String.utf8EncodeChar char).toByteArray),
          ByteArray.utf8DecodeChar?_utf8EncodeChar_append]
      rw [← List.toByteArray_append, ← split, whole] at longer
      cases longer
      have inside := ByteArray.le_size_of_utf8DecodeChar?_eq_some read
      have size := String.length_utf8EncodeChar char
      have positive := List.length_pos_of_ne_nil cut
      rw [List.size_toByteArray] at inside
      rw [split, List.length_append] at size
      omega

theorem utf8DecodeUpTo_enough {count more : Nat} {bytes : List UInt8}
    (enough : bytes.length ≤ count) (also : bytes.length ≤ more) :
    utf8DecodeUpTo count bytes = utf8DecodeUpTo more bytes := by
  induction count generalizing more bytes with
  | zero =>
      obtain rfl := List.eq_nil_of_length_eq_zero (Nat.le_zero.mp enough)
      cases more <;> rfl
  | succ count ih =>
      cases bytes with
      | nil => cases more <;> rfl
      | cons byte rest =>
          obtain ⟨more, rfl⟩ : ∃ previous, more = previous + 1 :=
            ⟨more - 1, by simp only [List.length_cons] at also; omega⟩
          simp only [List.length_cons] at enough also
          rw [utf8DecodeUpTo, utf8DecodeUpTo]
          split
          · next char read =>
              have positive := char.utf8Size_pos
              refine congrArg (char :: ·) (ih ?_ ?_)
              all_goals
                rw [List.length_drop, List.length_cons]
                omega
          · have positive := malformed_pos (byte :: rest)
            refine congrArg (replacement :: ·) (ih ?_ ?_)
            all_goals
              rw [List.length_drop, List.length_cons]
              omega

theorem utf8Decode_append (char : Char) (bytes : List UInt8) :
    utf8Decode (String.utf8EncodeChar char ++ bytes) = char :: utf8Decode bytes := by
  obtain ⟨byte, rest, split⟩ := List.exists_cons_of_ne_nil (utf8EncodeChar_ne_nil char)
  have first : (byte :: (rest ++ bytes)).toByteArray.utf8DecodeChar? 0 = some char := by
    rw [← List.cons_append, ← split, List.toByteArray_append,
      ByteArray.utf8DecodeChar?_utf8EncodeChar_append]
  have later : (byte :: (rest ++ bytes)).drop char.utf8Size = bytes := by
    rw [← List.cons_append, ← split, ← String.length_utf8EncodeChar char, List.drop_left]
  rw [split, List.cons_append, utf8Decode, List.length_cons, utf8DecodeUpTo, first]
  dsimp only
  rw [later, utf8Decode, utf8DecodeUpTo_enough _ (Nat.le_refl _)]
  rw [List.length_append]
  exact Nat.le_add_left _ _

theorem utf8Decode_of_none {bytes : List UInt8} (some : bytes ≠ [])
    (none : bytes.toByteArray.utf8DecodeChar? 0 = none) :
    ∃ later, utf8Decode bytes = replacement :: later := by
  obtain ⟨byte, rest, rfl⟩ := List.exists_cons_of_ne_nil some
  rw [utf8Decode, List.length_cons, utf8DecodeUpTo, none]
  exact ⟨_, rfl⟩

theorem toNat_ofNat {value : Nat} (valid : value.isValidChar) :
    (Char.ofNat value).toNat = value := by
  rw [Char.ofNat, dif_pos valid]
  rfl

theorem isHigh_iff (unit : UInt16) :
    isHigh unit = true ↔ 0xD800 ≤ unit.toNat ∧ unit.toNat ≤ 0xDBFF := by
  rw [isHigh, Bool.and_eq_true, decide_eq_true_eq, decide_eq_true_eq, UInt16.le_iff_toNat_le,
    UInt16.le_iff_toNat_le]
  rfl

theorem isLow_iff (unit : UInt16) :
    isLow unit = true ↔ 0xDC00 ≤ unit.toNat ∧ unit.toNat ≤ 0xDFFF := by
  rw [isLow, Bool.and_eq_true, decide_eq_true_eq, decide_eq_true_eq, UInt16.le_iff_toNat_le,
    UInt16.le_iff_toNat_le]
  rfl

/-- What a unit stands for that is not half of a pair. -/
def alone (unit : UInt16) : Char :=
  if isHigh unit || isLow unit then replacement else Char.ofNat unit.toNat

theorem alone_cases (unit : UInt16) :
    alone unit = replacement ∧ 0xD800 ≤ unit.toNat ∨ (alone unit).toNat = unit.toNat := by
  have bound := unit.toNat_lt
  rw [alone]
  split
  · next either =>
      rw [Bool.or_eq_true, isHigh_iff, isLow_iff] at either
      exact .inl ⟨rfl, by omega⟩
  · next neither =>
      rw [Bool.or_eq_true, isHigh_iff, isLow_iff] at neither
      have valid : unit.toNat.isValidChar := by
        rw [Nat.isValidChar]
        omega
      exact .inr (toNat_ofNat valid)

theorem pair_utf8Size {unit next : UInt16} (high : isHigh unit = true) (low : isLow next = true) :
    (Char.ofNat
      (0x10000 + (unit.toNat - 0xD800) * 0x400 + (next.toNat - 0xDC00))).utf8Size = 4 := by
  rw [isHigh_iff] at high
  rw [isLow_iff] at low
  have valid : (0x10000 + (unit.toNat - 0xD800) * 0x400 + (next.toNat - 0xDC00)).isValidChar := by
    rw [Nat.isValidChar]
    omega
  have value := toNat_ofNat valid
  rw [Char.utf8Size_eq_four_iff, UInt32.lt_iff_toNat_lt]
  change 0xFFFF < Char.toNat _
  omega

theorem utf16Decode_cons (unit : UInt16) (rest : List UInt16) :
    (∃ char next more, rest = next :: more ∧ isHigh unit = true ∧ char.utf8Size = 4 ∧
        utf16Decode (unit :: rest) = char :: utf16Decode more) ∨
      utf16Decode (unit :: rest) = alone unit :: utf16Decode rest := by
  cases rest with
  | nil =>
      refine .inr ?_
      rw [utf16Decode.eq_2, alone]
      split <;> rfl
  | cons next more =>
      rw [utf16Decode, alone]
      split
      · next pair =>
          obtain ⟨high, low⟩ := Bool.and_eq_true_iff.mp pair
          exact .inl ⟨_, next, more, rfl, high, pair_utf8Size high low, rfl⟩
      · refine .inr ?_
        split <;> rfl

theorem utf8Encode_cons (char : Char) (text : List Char) :
    utf8Encode (char :: text) = String.utf8EncodeChar char ++ utf8Encode text := rfl

theorem length_le_utf8Encode_utf16Decode (units : List UInt16) :
    units.length ≤ (utf8Encode (utf16Decode units)).length := by
  induction units using List.twoStepInduction with
  | nil => exact Nat.zero_le _
  | singleton unit =>
      rcases utf16Decode_cons unit [] with ⟨_, _, _, none, -⟩ | single
      · cases none
      · have positive := (alone unit).utf8Size_pos
        rw [single, utf8Encode_cons, List.length_append, String.length_utf8EncodeChar,
          List.length_singleton]
        omega
  | cons_cons unit next more ih also =>
      rcases utf16Decode_cons unit (next :: more) with ⟨_, _, _, same, -, four, pair⟩ | single
      · cases same
        rw [pair, utf8Encode_cons, List.length_append, String.length_utf8EncodeChar, four]
        simp only [List.length_cons]
        omega
      · have positive := (alone unit).utf8Size_pos
        have later := also next
        rw [single, utf8Encode_cons, List.length_append, String.length_utf8EncodeChar,
          List.length_cons]
        omega

/-- Text whose bytes cut down to the number of its units are still its bytes, to a decoder. -/
def Narrow : List UInt16 → Prop
  | [] => True
  | unit :: rest => unit.toNat < 0x80 ∧ Narrow rest ∨ unit = 0xFFFD ∧ rest = []

theorem narrow_of_ascii {unit : UInt16} (ascii : unit.toNat < 0x80) (rest : List UInt16) :
    Narrow (unit :: rest) ↔ Narrow rest := by
  rw [Narrow]
  constructor
  · rintro (⟨-, narrow⟩ | ⟨rfl, rfl⟩)
    · exact narrow
    · trivial
  · exact fun narrow => .inl ⟨ascii, narrow⟩

def cut (units : List UInt16) : List UInt16 :=
  utf16Encode (utf8Decode ((utf8Encode (utf16Decode units)).take units.length))

theorem utf16Decode_of_ascii {unit : UInt16} (ascii : unit.toNat < 0x80) (rest : List UInt16) :
    utf16Decode (unit :: rest) = alone unit :: utf16Decode rest ∧
      (alone unit).toNat = unit.toNat := by
  constructor
  · rcases utf16Decode_cons unit rest with ⟨_, _, _, -, high, -⟩ | single
    · rw [isHigh_iff] at high
      omega
    · exact single
  · rcases alone_cases unit with ⟨-, surrogate⟩ | value
    · omega
    · exact value

theorem utf8Encode_length_of_ascii {units : List UInt16}
    (ascii : ∀ unit ∈ units, unit.toNat < 0x80) :
    (utf8Encode (utf16Decode units)).length = units.length := by
  induction units with
  | nil => rfl
  | cons unit rest ih =>
      have small := ascii unit (by simp)
      obtain ⟨single, value⟩ := utf16Decode_of_ascii small rest
      have others := ih fun other later => ascii other (by simp [later])
      rw [single, utf8Encode_cons, List.length_append, String.length_utf8EncodeChar,
        utf8Size_of_toNat_lt (by omega), others, List.length_cons, Nat.add_comm]

/-- What is decoded from the first bytes of a text starts with its ASCII units. -/
theorem decode_take_of_ascii {unit : UInt16} (ascii : unit.toNat < 0x80) (rest : List UInt16)
    (count : Nat) :
    utf16Encode (utf8Decode ((utf8Encode (utf16Decode (unit :: rest))).take (count + 1))) =
      unit :: utf16Encode (utf8Decode ((utf8Encode (utf16Decode rest)).take count)) := by
  obtain ⟨single, value⟩ := utf16Decode_of_ascii ascii rest
  have one : (String.utf8EncodeChar (alone unit)).length = 1 := by
    rw [String.length_utf8EncodeChar, utf8Size_of_toNat_lt (by omega)]
  have back : utf16EncodeChar (alone unit) = [unit] := by
    rw [utf16EncodeChar, if_pos (by omega), value, UInt16.ofNat_toNat]
  have front : (String.utf8EncodeChar (alone unit) ++ utf8Encode (utf16Decode rest)).take
      (count + 1) = String.utf8EncodeChar (alone unit) ++
        (utf8Encode (utf16Decode rest)).take count := by
    rw [Nat.add_comm, ← one, List.take_length_add_append]
  rw [single, utf8Encode_cons, front, utf8Decode_append, utf16Encode, List.flatMap_cons, back]
  rfl

theorem cut_of_ascii {unit : UInt16} (ascii : unit.toNat < 0x80) (rest : List UInt16) :
    cut (unit :: rest) = unit :: cut rest :=
  decode_take_of_ascii ascii rest rest.length

theorem decode_take_ascii {units : List UInt16} (ascii : ∀ unit ∈ units, unit.toNat < 0x80)
    (count : Nat) :
    utf16Encode (utf8Decode ((utf8Encode (utf16Decode units)).take count)) = units.take count := by
  induction units generalizing count with
  | nil => cases count <;> rfl
  | cons unit rest ih =>
      cases count with
      | zero => rfl
      | succ count =>
          have others := ih (fun other later => ascii other (by simp [later])) count
          rw [decode_take_of_ascii (ascii unit (by simp)), others, List.take_succ_cons]

theorem cut_of_other {unit : UInt16} (other : 0x80 ≤ unit.toNat) {rest : List UInt16}
    (same : cut (unit :: rest) = unit :: rest) : unit = 0xFFFD ∧ rest = [] := by
  obtain ⟨char, text, decoded, wide, single⟩ : ∃ char text,
      utf16Decode (unit :: rest) = char :: text ∧ 0x80 ≤ char.toNat ∧
        (unit = 0xFFFD → char = replacement) := by
    rcases utf16Decode_cons unit rest with ⟨char, _, more, -, high, four, pair⟩ | single
    · rw [Char.utf8Size_eq_four_iff, UInt32.lt_iff_toNat_lt] at four
      have large : 0xFFFF < char.toNat := four
      refine ⟨char, utf16Decode more, pair, by omega, ?_⟩
      rintro rfl
      cases high
    · refine ⟨alone unit, utf16Decode rest, single, ?_, ?_⟩
      · rcases alone_cases unit with ⟨same, -⟩ | value
        · rw [same]
          decide
        · omega
      · rintro rfl
        decide
  rw [cut, decoded, utf8Encode_cons, List.length_cons, List.take_append] at same
  by_cases whole : char.utf8Size ≤ rest.length + 1
  · -- the bytes of the character are more than its units
    rw [List.take_of_length_le (by rwa [String.length_utf8EncodeChar]), utf8Decode_append,
      utf16Encode, List.flatMap_cons, ← utf16Encode] at same
    have fewer := utf16EncodeChar_length_lt wide
    have others := utf16Encode_utf8Decode_length ((utf8Encode text).take
      (rest.length + 1 - (String.utf8EncodeChar char).length))
    have length := congrArg List.length same
    rw [List.length_append, List.length_cons] at length
    rw [List.length_take, String.length_utf8EncodeChar] at others
    rw [String.length_utf8EncodeChar] at length
    omega
  · have none : rest.length + 1 - (String.utf8EncodeChar char).length = 0 := by
      rw [String.length_utf8EncodeChar]
      omega
    rw [none, List.take_zero, List.append_nil] at same
    have cutOff := utf8DecodeChar?_front
      (List.take_append_drop (rest.length + 1) (String.utf8EncodeChar char)).symm (by
        apply List.ne_nil_of_length_pos
        rw [List.length_drop, String.length_utf8EncodeChar]
        omega)
    obtain ⟨later, read⟩ := utf8Decode_of_none (by
      apply List.ne_nil_of_length_pos
      rw [List.length_take, String.length_utf8EncodeChar]
      omega) cutOff
    have first : unit = 0xFFFD := by
      rw [read, utf16Encode, List.flatMap_cons] at same
      exact (List.cons.inj same).1.symm
    refine ⟨first, ?_⟩
    rw [single first] at same whole
    have three : replacement.utf8Size = 3 := by decide
    have two : utf16Encode (utf8Decode ((String.utf8EncodeChar replacement).take 2)) =
        [0xFFFD] := by decide
    match rest with
    | [] => rfl
    | [next] => cases two.symm.trans same
    | _ :: _ :: _ =>
        simp only [List.length_cons] at whole
        omega

theorem cut_eq_iff (units : List UInt16) : cut units = units ↔ Narrow units := by
  induction units with
  | nil => exact iff_of_true rfl trivial
  | cons unit rest ih =>
      by_cases ascii : unit.toNat < 0x80
      · rw [cut_of_ascii ascii, narrow_of_ascii ascii, ← ih, List.cons_inj_right]
      · constructor
        · intro same
          exact .inr (cut_of_other (Nat.not_lt.mp ascii) same)
        · rintro (⟨small, -⟩ | ⟨rfl, rfl⟩)
          · exact absurd small ascii
          · decide
end Utf
