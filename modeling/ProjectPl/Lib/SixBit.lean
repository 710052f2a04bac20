import Mathlib

/-!
Text of six bits a letter. Three bytes are regrouped into four digits below 64, and an alphabet
of 64 different letters writes the digits down. Groups that are not whole are left out.
-/

namespace SixBit

def split (first second third : Nat) : List Nat :=
  [first / 4, first % 4 * 16 + second / 16, second % 16 * 4 + third / 64, third % 64]

def join (first second third fourth : Nat) : List Nat :=
  [first * 4 + second / 16, second % 16 * 16 + third / 4, third % 4 * 64 + fourth]

theorem split_lt {first second third : Nat} (firstByte : first < 256) (secondByte : second < 256)
    (thirdByte : third < 256) : ∀ digit ∈ split first second third, digit < 64 := by
  intro digit member
  simp only [split, List.mem_cons, List.not_mem_nil, or_false] at member
  omega

theorem join_split {first second third : Nat} (secondByte : second < 256)
    (thirdByte : third < 256) :
    join (first / 4) (first % 4 * 16 + second / 16) (second % 16 * 4 + third / 64) (third % 64) =
      [first, second, third] := by
  simp only [join, List.cons.injEq, and_true]
  omega

theorem split_join {first second third fourth : Nat} (secondDigit : second < 64)
    (thirdDigit : third < 64) (fourthDigit : fourth < 64) :
    split (first * 4 + second / 16) (second % 16 * 16 + third / 4) (third % 4 * 64 + fourth) =
      [first, second, third, fourth] := by
  simp only [split, List.cons.injEq, and_true]
  omega

/-- Whether letters are different from each other and from those whose bits are set in `seen`. -/
def distinctFrom (seen : Nat) : List UInt8 → Bool
  | [] => true
  | letter :: rest =>
      !seen.testBit letter.toNat && distinctFrom (seen ||| 2 ^ letter.toNat) rest

theorem distinctFrom_nodup {seen : Nat} {letters : List UInt8}
    (checked : distinctFrom seen letters = true) :
    letters.Nodup ∧ ∀ letter ∈ letters, seen.testBit letter.toNat = false := by
  induction letters generalizing seen with
  | nil => simp
  | cons letter rest ih =>
      rw [distinctFrom, Bool.and_eq_true, Bool.not_eq_true'] at checked
      obtain ⟨restDistinct, unseen⟩ := ih checked.2
      have apart : ∀ other ∈ rest, seen.testBit other.toNat = false ∧ letter ≠ other := by
        intro other member
        have both := unseen other member
        rw [Nat.testBit_or, Bool.or_eq_false_iff, Nat.testBit_two_pow] at both
        refine ⟨both.1, ?_⟩
        rintro rfl
        simp at both
      constructor
      · exact List.nodup_cons.mpr ⟨fun member => (apart letter member).2 rfl, restDistinct⟩
      · intro other member
        rcases List.mem_cons.mp member with rfl | later
        · exact checked.1
        · exact (apart other later).1

structure Alphabet where
  letters : List UInt8
  size : letters.length = 64
  distinct : letters.Nodup

namespace Alphabet

variable (alphabet : Alphabet)

def letter (digit : Nat) : UInt8 := alphabet.letters.getD digit 0

def digit (letter : UInt8) : Nat := alphabet.letters.idxOf letter

theorem digit_lt {letter : UInt8} (known : letter ∈ alphabet.letters) :
    alphabet.digit letter < 64 := by
  rw [← alphabet.size]
  exact List.idxOf_lt_length_of_mem known

theorem letter_digit {letter : UInt8} (known : letter ∈ alphabet.letters) :
    alphabet.letter (alphabet.digit letter) = letter := by
  have bound := List.idxOf_lt_length_of_mem known
  rw [Alphabet.letter, digit, List.getD_eq_getElem _ _ bound]
  exact List.getElem_idxOf bound

theorem letter_mem {digit : Nat} (bound : digit < 64) :
    alphabet.letter digit ∈ alphabet.letters := by
  rw [← alphabet.size] at bound
  rw [letter, List.getD_eq_getElem _ _ bound]
  exact List.getElem_mem bound

theorem digit_letter {digit : Nat} (bound : digit < 64) :
    alphabet.digit (alphabet.letter digit) = digit := by
  rw [← alphabet.size] at bound
  rw [letter, Alphabet.digit, List.getD_eq_getElem _ _ bound]
  exact alphabet.distinct.idxOf_getElem digit bound

def encode : List UInt8 → List UInt8
  | first :: second :: third :: rest =>
      (split first.toNat second.toNat third.toNat).map alphabet.letter ++ encode rest
  | _ => []

def decode : List UInt8 → List UInt8
  | first :: second :: third :: fourth :: rest =>
      (join (alphabet.digit first) (alphabet.digit second) (alphabet.digit third)
        (alphabet.digit fourth)).map UInt8.ofNat ++ decode rest
  | _ => []

/-! Lists without a whole group that consist of whole groups are empty. -/

theorem eq_nil_of_no_three {bytes : List UInt8} (whole : 3 ∣ bytes.length)
    (short : ∀ first second third rest, bytes = first :: second :: third :: rest → False) :
    bytes = [] := by
  rcases bytes with _ | ⟨first, _ | ⟨second, _ | ⟨third, rest⟩⟩⟩
  · rfl
  · simp at whole
  · simp at whole
  · exact absurd rfl (short first second third rest)

theorem eq_nil_of_no_four {text : List UInt8} (whole : 4 ∣ text.length)
    (short : ∀ first second third fourth rest,
      text = first :: second :: third :: fourth :: rest → False) : text = [] := by
  rcases text with _ | ⟨first, _ | ⟨second, _ | ⟨third, _ | ⟨fourth, rest⟩⟩⟩⟩
  · rfl
  · simp at whole
  · simp at whole
  · simp at whole
  · exact absurd rfl (short first second third fourth rest)

theorem encode_append {bytes : List UInt8} (whole : 3 ∣ bytes.length) (more : List UInt8) :
    alphabet.encode (bytes ++ more) = alphabet.encode bytes ++ alphabet.encode more := by
  induction bytes using encode.induct with
  | case1 first second third rest ih =>
      have restWhole : 3 ∣ rest.length := by
        simp only [List.length_cons] at whole
        omega
      simp only [List.cons_append, encode, ih restWhole, List.append_assoc]
  | case2 bytes short =>
      rw [eq_nil_of_no_three whole short]
      rfl

theorem decode_append {text : List UInt8} (whole : 4 ∣ text.length) (more : List UInt8) :
    alphabet.decode (text ++ more) = alphabet.decode text ++ alphabet.decode more := by
  induction text using decode.induct with
  | case1 first second third fourth rest ih =>
      have restWhole : 4 ∣ rest.length := by
        simp only [List.length_cons] at whole
        omega
      simp only [List.cons_append, decode, ih restWhole, List.append_assoc]
  | case2 text short =>
      rw [eq_nil_of_no_four whole short]
      rfl

theorem encode_length {bytes : List UInt8} (whole : 3 ∣ bytes.length) :
    (alphabet.encode bytes).length = bytes.length / 3 * 4 := by
  induction bytes using encode.induct with
  | case1 first second third rest ih =>
      have restWhole : 3 ∣ rest.length := by
        simp only [List.length_cons] at whole
        omega
      simp only [encode, split, List.length_append, List.length_map, List.length_cons,
        List.length_nil, ih restWhole]
      omega
  | case2 bytes short =>
      rw [eq_nil_of_no_three whole short]
      rfl

theorem decode_length {text : List UInt8} (whole : 4 ∣ text.length) :
    (alphabet.decode text).length = text.length / 4 * 3 := by
  induction text using decode.induct with
  | case1 first second third fourth rest ih =>
      have restWhole : 4 ∣ rest.length := by
        simp only [List.length_cons] at whole
        omega
      simp only [decode, join, List.length_append, List.length_map, List.length_cons,
        List.length_nil, ih restWhole]
      omega
  | case2 text short =>
      rw [eq_nil_of_no_four whole short]
      rfl

theorem encode_mem {bytes : List UInt8} :
    ∀ letter ∈ alphabet.encode bytes, letter ∈ alphabet.letters := by
  induction bytes using encode.induct with
  | case1 first second third rest ih =>
      intro letter member
      rw [encode, List.mem_append, List.mem_map] at member
      rcases member with ⟨digit, listed, rfl⟩ | later
      · have bounds := split_lt first.toNat_lt second.toNat_lt third.toNat_lt
        exact alphabet.letter_mem (bounds digit listed)
      · exact ih letter later
  | case2 bytes short =>
      intro letter member
      rw [encode] at member
      · exact absurd member List.not_mem_nil
      · exact short

/-- Whole groups come back. -/
theorem decode_encode {bytes : List UInt8} (whole : 3 ∣ bytes.length) :
    alphabet.decode (alphabet.encode bytes) = bytes := by
  induction bytes using encode.induct with
  | case1 first second third rest ih =>
      have restWhole : 3 ∣ rest.length := by
        simp only [List.length_cons] at whole
        omega
      have bounds := split_lt first.toNat_lt second.toNat_lt third.toNat_lt
      simp only [split, List.mem_cons, List.not_mem_nil, or_false, forall_eq_or_imp,
        forall_eq] at bounds
      obtain ⟨digit1, digit2, digit3, digit4⟩ := bounds
      rw [encode]
      simp only [split, List.map_cons, List.map_nil, List.cons_append, List.nil_append, decode,
        digit_letter, digit1, digit2, digit3, digit4, ih restWhole]
      rw [join_split second.toNat_lt third.toNat_lt]
      simp
  | case2 bytes short =>
      rw [eq_nil_of_no_three whole short]
      rfl

/-- And so does text over the alphabet. -/
theorem encode_decode {text : List UInt8} (whole : 4 ∣ text.length)
    (known : ∀ letter ∈ text, letter ∈ alphabet.letters) :
    alphabet.encode (alphabet.decode text) = text := by
  induction text using decode.induct with
  | case1 first second third fourth rest ih =>
      have restWhole : 4 ∣ rest.length := by
        simp only [List.length_cons] at whole
        omega
      have knownRest := fun letter member => known letter
        (List.mem_cons_of_mem _ (List.mem_cons_of_mem _ (List.mem_cons_of_mem _
          (List.mem_cons_of_mem _ member))))
      have known1 := known first (by simp)
      have known2 := known second (by simp)
      have known3 := known third (by simp)
      have known4 := known fourth (by simp)
      have bound1 := alphabet.digit_lt known1
      have bound2 := alphabet.digit_lt known2
      have bound3 := alphabet.digit_lt known3
      have bound4 := alphabet.digit_lt known4
      have byte : ∀ {value : Nat}, value < 256 → (UInt8.ofNat value).toNat = value :=
        fun small => UInt8.toNat_ofNat_of_lt' small
      rw [decode]
      simp only [join, List.map_cons, List.map_nil, List.cons_append, List.nil_append, encode]
      rw [byte (by omega), byte (by omega), byte (by omega), split_join bound2 bound3 bound4,
        ih restWhole knownRest]
      simp only [List.map_cons, List.map_nil, letter_digit, known1, known2, known3, known4,
        List.cons_append, List.nil_append]
  | case2 text short =>
      rw [eq_nil_of_no_four whole short]
      rfl

end Alphabet

end SixBit
