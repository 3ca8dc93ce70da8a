import SqlBuilder.Wire
import Mathlib.Data.Nat.Digits.Lemmas
import Mathlib.Tactic.Ring

/-!
# Formats of column types

A receiver reads the bytes of a parameter by the type of its column: as an
integer of a certain width, or as a text.  With encoders that write what is
documented of them, integers that are sent for integer columns and texts that
are sent for text columns are read back as they were.  The types of both kinds
are accepted for every parameter, and what is sent across them is never what
the receiver reads.
-/

namespace SqlBuilder

namespace Wire

/-! ## Bytes as numbers -/

/-- The natural number in some bytes, the most significant one first. -/
def readNat (bytes : List UInt8) : Nat :=
  bytes.foldl (fun n b => 256 * n + b.toNat) 0

/-- The integer in two's complement; the upper half of the numbers is negative. -/
def readInteger (bytes : List UInt8) : Int :=
  if 2 * readNat bytes < 256 ^ bytes.length then readNat bytes
  else readNat bytes - 256 ^ bytes.length

/-- The integers that a number of bytes can hold. -/
def Fits (width : Nat) (n : Int) : Prop :=
  -Int.pow 2 (8 * width - 1) ≤ n ∧ n < Int.pow 2 (8 * width - 1)

theorem readNat_concat (bytes : List UInt8) (last : UInt8) :
    readNat (bytes ++ [last]) = 256 * readNat bytes + last.toNat := by
  simp [readNat]

theorem length_bigEndian (width n : Nat) : (bigEndian width n).length = width := by
  induction width generalizing n with
  | zero => rfl
  | succ width ih => rw [bigEndian, List.length_append, ih, List.length_singleton]

theorem readNat_bigEndian (width n : Nat) : readNat (bigEndian width n) = n % 256 ^ width := by
  induction width generalizing n with
  | zero => simp [bigEndian, readNat, Nat.mod_one]
  | succ width ih =>
      rw [bigEndian, readNat_concat, ih, Nat.pow_succ', Nat.mod_mul, UInt8.toNat_ofNat']
      exact Nat.add_comm _ _

theorem bigEndian_readNat (bytes : List UInt8) :
    bigEndian bytes.length (readNat bytes) = bytes := by
  induction bytes using List.reverseRecOn with
  | nil => rfl
  | append_singleton bytes last ih =>
      have small : last.toNat < 256 := last.toNat_lt
      have quotient : (256 * readNat bytes + last.toNat) / 256 = readNat bytes := by omega
      have remainder : UInt8.ofNat (256 * readNat bytes + last.toNat) = last := by
        apply UInt8.toNat_inj.mp
        rw [UInt8.toNat_ofNat']
        omega
      rw [List.length_append, List.length_singleton, bigEndian, readNat_concat, quotient, remainder,
        ih]

theorem readNat_lt (bytes : List UInt8) : readNat bytes < 256 ^ bytes.length := by
  have same := readNat_bigEndian bytes.length (readNat bytes)
  rw [bigEndian_readNat] at same
  rw [same]
  exact Nat.mod_lt _ (Nat.pow_pos (by decide))

theorem readNat_cons (first : UInt8) (bytes : List UInt8) :
    readNat (first :: bytes) = first.toNat * 256 ^ bytes.length + readNat bytes := by
  induction bytes using List.reverseRecOn with
  | nil => simp [readNat]
  | append_singleton bytes last ih =>
      rw [← List.cons_append, readNat_concat, ih, readNat_concat, List.length_append,
        List.length_singleton, Nat.pow_succ]
      ring

/-! ## Two's complement -/

theorem pow_two_eq (width : Nat) : Int.pow 2 (8 * width) = (256 : Int) ^ width :=
  calc Int.pow 2 (8 * width) = (2 : Int) ^ (8 * width) := rfl
    _ = 256 ^ width := by rw [pow_mul]; rfl

theorem pow_eq_two_mul {width : Nat} (positive : 0 < width) :
    (256 : Int) ^ width = 2 * Int.pow 2 (8 * width - 1) := by
  have bits : 8 * width - 1 + 1 = 8 * width := by omega
  calc (256 : Int) ^ width = 2 ^ (8 * width) := (pow_two_eq width).symm
    _ = 2 * 2 ^ (8 * width - 1) := by rw [← pow_succ', bits]

/-- Of the numbers that the bytes can hold, the lower half is positive. -/
theorem fits_iff {width : Nat} (positive : 0 < width) {n : Int} :
    Fits width n ↔ -(256 ^ width) ≤ 2 * n ∧ 2 * n < 256 ^ width := by
  rw [Fits, pow_eq_two_mul positive]
  omega

theorem fits_readInteger {bytes : List UInt8} (positive : 0 < bytes.length) :
    Fits bytes.length (readInteger bytes) := by
  have below : (readNat bytes : Int) < 256 ^ bytes.length := by exact_mod_cast readNat_lt bytes
  rw [fits_iff positive, readInteger]
  split
  · next lower =>
      have lower : 2 * (readNat bytes : Int) < 256 ^ bytes.length := by exact_mod_cast lower
      omega
  · next upper =>
      have upper : ¬ 2 * (readNat bytes : Int) < 256 ^ bytes.length := by exact_mod_cast upper
      omega

theorem readInteger_twosComplement {width : Nat} (positive : 0 < width) {n : Int}
    (fits : Fits width n) : readInteger (twosComplement width n) = n := by
  obtain ⟨least, most⟩ := (fits_iff positive).mp fits
  have size : (256 : Int) ^ width = ((256 ^ width : Nat) : Int) := by push_cast; rfl
  have read : (readNat (twosComplement width n) : Int) = n % 256 ^ width := by
    have bounded := Int.emod_lt_of_pos n (b := (256 : Int) ^ width) (by positivity)
    have natural := Int.emod_nonneg n (b := (256 : Int) ^ width) (by positivity)
    rw [twosComplement, readNat_bigEndian, pow_two_eq, Nat.mod_eq_of_lt (by omega)]
    exact Int.toNat_of_nonneg natural
  have length : (twosComplement width n).length = width := length_bigEndian width _
  rw [readInteger, length]
  rcases lt_or_ge n 0 with negative | natural
  · have wrapped : n % 256 ^ width = n + 256 ^ width := by
      rw [← Int.add_emod_right, Int.emod_eq_of_lt (by omega) (by omega)]
    rw [if_neg (by omega), read, wrapped]
    omega
  · have same : n % 256 ^ width = n := Int.emod_eq_of_lt natural (by omega)
    rw [if_pos (by omega), read, same]

theorem twosComplement_readInteger (bytes : List UInt8) :
    twosComplement bytes.length (readInteger bytes) = bytes := by
  have below : (readNat bytes : Int) < 256 ^ bytes.length := by exact_mod_cast readNat_lt bytes
  have same : (readInteger bytes) % 256 ^ bytes.length = readNat bytes := by
    unfold readInteger
    split
    · exact Int.emod_eq_of_lt (by omega) below
    · rw [Int.sub_emod_right, Int.emod_eq_of_lt (by omega) below]
  rw [twosComplement, pow_two_eq, same, Int.toNat_natCast, bigEndian_readNat]

/-- The bytes of an integer that fits are those from which it is read back. -/
theorem eq_twosComplement_iff {width : Nat} (positive : 0 < width) {n : Int}
    {bytes : List UInt8} :
    Fits width n ∧ bytes = twosComplement width n ↔
      bytes.length = width ∧ readInteger bytes = n := by
  constructor
  · rintro ⟨fits, rfl⟩
    exact ⟨length_bigEndian width _, readInteger_twosComplement positive fits⟩
  · rintro ⟨rfl, rfl⟩
    exact ⟨fits_readInteger positive, (twosComplement_readInteger bytes).symm⟩

theorem narrow_of_fits {width : Nat} {n : Int} (fits : Fits width n) :
    narrow width n = .ok n := by
  obtain ⟨least, most⟩ := fits
  rw [narrow, if_neg (by omega), if_neg (by omega)]

theorem narrow_of_not_fits {width : Nat} {n : Int} (outside : ¬ Fits width n) :
    ∃ fault, narrow width n = .error fault := by
  unfold narrow
  split
  · exact ⟨_, rfl⟩
  · split
    · exact ⟨_, rfl⟩
    · exact absurd ⟨by omega, by omega⟩ outside

/-! ## Texts as bytes -/

/-- The bytes of a text in UTF-8. -/
def utf8 (text : String) : List UInt8 :=
  text.toUTF8.toList

theorem byteArray_toList (bytes : ByteArray) : bytes.toList = bytes.data.toList := by
  have loop (left : Nat) : ∀ (i : Nat) (done : List UInt8), bytes.size - i = left →
      ByteArray.toList.loop bytes i done = done.reverse ++ bytes.data.toList.drop i := by
    induction left with
    | zero =>
        intro i done rest
        have end_ : bytes.data.toList.length ≤ i := by
          rw [Array.length_toList]
          exact Nat.le_of_sub_eq_zero rest
        rw [ByteArray.toList.loop, if_neg (by omega), List.drop_eq_nil_of_le end_, List.append_nil]
    | succ left ih =>
        intro i done rest
        have within : i < bytes.size := by omega
        have inData : i < bytes.data.toList.length := by
          rw [Array.length_toList]
          exact within
        have entry : bytes.get! i = bytes.data.toList[i] := by
          rw [Array.getElem_toList]
          exact getElem!_pos bytes.data i within
        rw [ByteArray.toList.loop, if_pos within, ih (i + 1) _ (by omega), List.reverse_cons,
          List.append_assoc, List.singleton_append, entry, ← List.drop_eq_getElem_cons inData]
  exact loop bytes.size 0 [] rfl

/-- A character of ASCII takes one byte. -/
theorem utf8_of_ascii {cs : List Char} (ascii : ∀ c ∈ cs, c.toNat ≤ 127) :
    utf8 (String.ofList cs) = cs.map fun c => UInt8.ofNat c.toNat := by
  have bytes : cs.flatMap String.utf8EncodeChar = cs.map fun c => UInt8.ofNat c.toNat := by
    rw [← List.flatMap_singleton' (cs.map _), List.flatMap_map]
    refine List.flatMap_congr fun c mem => ?_
    rw [String.utf8EncodeChar]
    exact if_pos (ascii c mem)
  rw [utf8, byteArray_toList, String.toUTF8_eq_toByteArray, String.toByteArray_ofList,
    List.utf8Encode, List.toList_data_toByteArray, bytes]

/-- The value of a digit is less than ten, and its code is between 48 and 57. -/
theorem code_of_isDigit {c : Char} (digit : c.isDigit = true) : 48 ≤ c.toNat ∧ c.toNat ≤ 57 := by
  simpa [Char.isDigit, UInt32.le_iff_toNat_le] using digit

theorem ofDigitChars_lt {cs : List Char} (digits : ∀ c ∈ cs, c.isDigit = true) :
    Nat.ofDigitChars 10 cs 0 < 10 ^ cs.length := by
  induction cs with
  | nil => decide
  | cons c cs ih =>
      have first := code_of_isDigit (digits c List.mem_cons_self)
      have rest := ih fun d mem => digits d (List.mem_cons_of_mem c mem)
      have value : c.toNat - '0'.toNat ≤ 9 := by
        have zero : '0'.toNat = 48 := rfl
        omega
      have leading := Nat.mul_le_mul_left (10 ^ cs.length) value
      rw [Nat.ofDigitChars_cons, Nat.ofDigitChars_eq_ofDigitChars_zero, List.length_cons,
        Nat.pow_succ, Nat.mul_zero, Nat.zero_add]
      omega

/-- Digits, as bytes, are read as a larger number than the one they spell. -/
theorem ofDigitChars_lt_readNat {cs : List Char} (digits : ∀ c ∈ cs, c.isDigit = true)
    (nonempty : cs ≠ []) :
    Nat.ofDigitChars 10 cs 0 < readNat (cs.map fun c => UInt8.ofNat c.toNat) := by
  obtain ⟨c, cs, rfl⟩ := List.exists_cons_of_ne_nil nonempty
  have code := code_of_isDigit (digits c List.mem_cons_self)
  have byte : (UInt8.ofNat c.toNat).toNat = c.toNat := by
    rw [UInt8.toNat_ofNat']
    omega
  rw [List.map_cons, readNat_cons, byte, List.length_map]
  calc Nat.ofDigitChars 10 (c :: cs) 0
    _ < 10 ^ (cs.length + 1) := ofDigitChars_lt digits
    _ = 10 * 10 ^ cs.length := Nat.pow_succ'
    _ ≤ 48 * 256 ^ cs.length :=
      Nat.mul_le_mul (by decide) (Nat.pow_le_pow_left (by decide) cs.length)
    _ ≤ c.toNat * 256 ^ cs.length := Nat.mul_le_mul_right _ code.1
    _ ≤ c.toNat * 256 ^ cs.length + _ := Nat.le_add_right _ _

/-- A number that is too large is not read, and with its first bit set it is negative. -/
theorem readInteger_ne_of_lt {m : Nat} {bytes : List UInt8} (larger : m < readNat bytes) :
    readInteger bytes ≠ m := by
  have below : (readNat bytes : Int) < 256 ^ bytes.length := by exact_mod_cast readNat_lt bytes
  unfold readInteger
  split <;> omega

/-- A first byte of ASCII leaves the sign bit clear. -/
theorem readInteger_nonneg {first : UInt8} (ascii : first.toNat ≤ 127) (bytes : List UInt8) :
    0 ≤ readInteger (first :: bytes) := by
  have below := readNat_lt bytes
  have leading := Nat.mul_le_mul_right (256 ^ bytes.length) ascii
  rw [readInteger, readNat_cons, List.length_cons, Nat.pow_succ, if_pos (by omega)]
  exact Int.natCast_nonneg _

/-- The text of an integer, as bytes, is read as another integer. -/
theorem readInteger_utf8_ne (n : Int) : readInteger (utf8 n.repr) ≠ n := by
  have digits (m : Nat) : ∀ c ∈ Nat.toDigits 10 m, c.isDigit = true := fun c mem =>
    Nat.isDigit_of_mem_toDigits (by decide) (by decide) mem
  have ascii (m : Nat) : ∀ c ∈ Nat.toDigits 10 m, c.toNat ≤ 127 := fun c mem => by
    have code := code_of_isDigit (digits m c mem)
    omega
  cases n with
  | ofNat m =>
      have bytes : utf8 (Int.ofNat m).repr =
          (Nat.toDigits 10 m).map fun c => UInt8.ofNat c.toNat := utf8_of_ascii (ascii m)
      have larger := ofDigitChars_lt_readNat (digits m) Nat.toDigits_ne_nil
      rw [Nat.ofDigitChars_ten_toDigits] at larger
      rw [bytes]
      exact readInteger_ne_of_lt larger
  | negSucc m =>
      have text : (Int.negSucc m).repr = String.ofList ('-' :: Nat.toDigits 10 (m + 1)) := by
        apply String.toList_inj.mp
        simp [Int.repr, Nat.repr]
      have all : ∀ c ∈ '-' :: Nat.toDigits 10 (m + 1), c.toNat ≤ 127 :=
        List.forall_mem_cons.mpr ⟨by decide, ascii (m + 1)⟩
      rw [text, utf8_of_ascii all, List.map_cons]
      have sign : (UInt8.ofNat '-'.toNat).toNat ≤ 127 := by decide
      have natural := readInteger_nonneg sign
        ((Nat.toDigits 10 (m + 1)).map fun c => UInt8.ofNat c.toNat)
      intro same
      rw [same] at natural
      exact absurd natural (by omega)

end Wire

/-! ## Parameters and types -/

/--
What is documented of the encoders.  Texts are taken for the types that hold
text; an integer that fits a width of 2, 4 or 8 bytes is written in them, in
two's complement and most significant byte first, and a text in UTF-8,
whatever the type.
-/
structure Encoders.Documented (encoders : Encoders) : Prop where
  takesText : ∀ type, encoders.takesText type = type.isText
  integer : ∀ type, ∀ width ∈ [2, 4, 8], ∀ n, Wire.Fits width n →
    encoders.integer type width n = Wire.twosComplement width n
  text : ∀ type s, encoders.text type s = Wire.utf8 s

theorem Encoders.standard_documented : standard.Documented where
  takesText _ := rfl
  integer _ _ _ _ _ := rfl
  text _ _ := rfl

/-- The number of bytes an integer takes in a column of this type. -/
def WireType.integerBytes : WireType → Nat
  | .int2 => 2
  | .int4 => 4
  | _ => 8

namespace BoundParameter

/-- The text of a parameter, in decimals if it is an integer. -/
def content : BoundParameter → String
  | .int n => n.toInt.repr
  | .text s => s

/-- The parameter stands for an integer, as such or by the text of it. -/
def Denotes : BoundParameter → Int → Prop
  | .int n, m => n.toInt = m
  | .text s, m => s = m.repr

instance : (p : BoundParameter) → (m : Int) → Decidable (p.Denotes m)
  | .int n, m => inferInstanceAs (Decidable (n.toInt = m))
  | .text s, m => inferInstanceAs (Decidable (s = m.repr))

/-- The parameter is an integer. -/
def isInteger : BoundParameter → Bool
  | .int _ => true
  | .text _ => false

end BoundParameter

/--
The bytes are the format of the type for a parameter.  For an integer type
they are as many as the type has, and the integer that is read from them is
the one that the parameter stands for; for a text type they are its text.
-/
def WireType.Formats (type : WireType) (p : BoundParameter) (bytes : List UInt8) : Prop :=
  if type.isInteger then bytes.length = type.integerBytes ∧ p.Denotes (Wire.readInteger bytes)
  else bytes = Wire.utf8 p.content

instance (type : WireType) (p : BoundParameter) (bytes : List UInt8) :
    Decidable (type.Formats p bytes) :=
  inferInstanceAs (Decidable (if type.isInteger then
    bytes.length = type.integerBytes ∧ p.Denotes (Wire.readInteger bytes)
    else bytes = Wire.utf8 p.content))

namespace BoundParameter

variable {encoders : Encoders} {type : WireType}

theorem integerBytes_mem (type : WireType) : type.integerBytes ∈ [2, 4, 8] := by
  cases type <;> decide

theorem integerBytes_pos (type : WireType) : 0 < type.integerBytes := by
  cases type <;> decide

theorem fits_eight (n : Int64) : Wire.Fits 8 n.toInt :=
  ⟨n.le_toInt, n.toInt_lt⟩

/-- Whatever the type, an integer is narrowed to the width of the type and written. -/
theorem encode_int (encoders : Encoders) (type : WireType) (n : Int64) :
    (int n).encode encoders type = (Wire.narrow type.integerBytes n.toInt).map
      (encoders.integer type type.integerBytes) := by
  have whole : Except.ok (encoders.integer type 8 n.toInt) =
      (Wire.narrow 8 n.toInt).map (encoders.integer type 8) := by
    rw [Wire.narrow_of_fits (fits_eight n)]
    rfl
  cases type with
  | int2 | int4 => rfl
  | _ => exact whole

/-- An integer that fits is sent in two's complement. -/
theorem encode_of_fits (documented : encoders.Documented) {n : Int64}
    (fits : Wire.Fits type.integerBytes n.toInt) :
    (int n).encode encoders type =
      .ok (Wire.twosComplement type.integerBytes n.toInt) := by
  have written := documented.integer type _ (integerBytes_mem type) n.toInt fits
  rw [encode_int, Wire.narrow_of_fits fits, ← written]
  rfl

/-- An integer is refused if and only if it does not fit. -/
theorem encode_error_iff {n : Int64} :
    (∃ fault, (int n).encode encoders type = .error fault) ↔
      ¬ Wire.Fits type.integerBytes n.toInt := by
  rw [encode_int]
  constructor
  · rintro ⟨fault, failed⟩ fits
    rw [Wire.narrow_of_fits fits] at failed
    cases failed
  · intro outside
    obtain ⟨fault, failed⟩ := Wire.narrow_of_not_fits outside
    exact ⟨fault, by rw [failed]; rfl⟩

/-- The bytes that are sent for an integer are those from which it is read back. -/
theorem encode_int_eq_ok_iff (documented : encoders.Documented) {n : Int64}
    {bytes : List UInt8} : (int n).encode encoders type = .ok bytes ↔
      bytes.length = type.integerBytes ∧ Wire.readInteger bytes = n.toInt := by
  rw [← Wire.eq_twosComplement_iff (integerBytes_pos type)]
  constructor
  · intro done
    have fits : Wire.Fits type.integerBytes n.toInt := by
      by_contra outside
      obtain ⟨fault, failed⟩ := encode_error_iff.mpr outside
      cases done.symm.trans failed
    rw [encode_of_fits documented fits] at done
    cases done
    exact ⟨fits, rfl⟩
  · rintro ⟨fits, rfl⟩
    exact encode_of_fits documented fits

/-- An integer for an integer type, or a text for a text type, is sent as the type has it. -/
theorem encode_iff_of_same (documented : encoders.Documented) (p : BoundParameter)
    (same : p.isInteger = type.isInteger) (bytes : List UInt8) :
    p.encode encoders type = .ok bytes ↔ type.Formats p bytes := by
  unfold WireType.Formats
  rw [← same]
  cases p with
  | int n =>
      simp only [isInteger, if_true, Denotes, eq_comm (a := n.toInt)]
      exact encode_int_eq_ok_iff documented
  | text s =>
      simp only [isInteger, Bool.false_eq_true, if_false, content, encode, Except.ok.injEq,
        documented.text]
      exact eq_comm

/-- An accepted type holds text if and only if it does not hold integers. -/
theorem isText_iff_of_accepts (documented : encoders.Documented)
    (accepted : encoders.accepts type = true) :
    type.isText = true ↔ type.isInteger = false := by
  constructor
  · intro text
    cases type <;> first | rfl | cases text
  · intro other
    unfold Encoders.accepts at accepted
    rwa [other, Bool.false_or, documented.takesText] at accepted

/-- Across the two kinds something is always sent, and it is not what the type has. -/
theorem encode_of_other (documented : encoders.Documented) (p : BoundParameter)
    (other : p.isInteger ≠ type.isInteger) :
    ∃ bytes, p.encode encoders type = .ok bytes ∧ ¬ type.Formats p bytes := by
  unfold WireType.Formats
  cases p with
  | int n =>
      have text : type.isInteger = false := by simpa [isInteger] using other
      have eight : type.integerBytes = 8 := by
        cases type <;> first | rfl | cases text
      have fits : Wire.Fits type.integerBytes n.toInt := by
        rw [eight]
        exact fits_eight n
      have read := Wire.readInteger_twosComplement (integerBytes_pos type) fits
      refine ⟨Wire.twosComplement type.integerBytes n.toInt, encode_of_fits documented fits, ?_⟩
      rw [text]
      simp only [Bool.false_eq_true, if_false, content]
      intro same
      rw [same] at read
      exact Wire.readInteger_utf8_ne n.toInt read
  | text s =>
      have integer : type.isInteger = true := by simpa [isInteger] using other.symm
      refine ⟨Wire.utf8 s, congrArg Except.ok (documented.text type s), ?_⟩
      rw [integer]
      simp only [if_true, Denotes]
      rintro ⟨-, same⟩
      have different := Wire.readInteger_utf8_ne (Wire.readInteger (Wire.utf8 s))
      rw [← same] at different
      exact different rfl

/--
An accepted type holds either integers or text.  With encoders that write what
is documented of them, what is sent for its column is in the format of the type
if and only if the parameter is of the kind of the type.  A parameter of that
kind is sent as the bytes that are the format of the type for it, and refused
if there are none, which means that an integer is out of the range of the
type.  A parameter of the other kind is never refused.
-/
theorem sent_in_format_iff (documented : encoders.Documented) (p : BoundParameter)
    (accepted : encoders.accepts type = true) :
    (type.isText = true ↔ type.isInteger = false) ∧
    (∀ bytes, p.encode encoders type = .ok bytes →
      (type.Formats p bytes ↔ p.isInteger = type.isInteger)) ∧
    (p.isInteger = type.isInteger →
      ∀ bytes, p.encode encoders type = .ok bytes ↔ type.Formats p bytes) ∧
    ((∃ fault, p.encode encoders type = .error fault) ↔
      ∃ n, p = .int n ∧ ¬ Wire.Fits type.integerBytes n.toInt) := by
  refine ⟨isText_iff_of_accepts documented accepted,
    fun bytes done => ⟨fun formats => ?_, fun same => ?_⟩, encode_iff_of_same documented p, ?_⟩
  · by_contra other
    obtain ⟨sent, run, wrong⟩ := encode_of_other documented p other
    cases run.symm.trans done
    exact wrong formats
  · exact (encode_iff_of_same documented p same bytes).mp done
  · cases p with
    | int n =>
        simp only [int.injEq, exists_eq_left']
        exact encode_error_iff
    | text s => simp [encode]

theorem sent_in_format_iff_narrow :
    (int (-300)).encode .standard .int2 = .ok [254, 212] ∧
      WireType.int2.Formats (int (-300)) [254, 212] ∧
      ∃ fault, (int 40000).encode .standard .int2 = .error fault := by
  have done : (int (-300)).encode .standard .int2 = .ok [254, 212] := rfl
  have documented := Encoders.standard_documented
  have accepted : Encoders.standard.accepts .int2 = true := rfl
  obtain ⟨-, -, sent, -⟩ := sent_in_format_iff documented (int (-300)) accepted
  obtain ⟨-, -, -, refused⟩ := sent_in_format_iff documented (int 40000) accepted
  have outside : ¬ Wire.Fits WireType.int2.integerBytes 40000 :=
    fun fits => absurd fits.2 (by decide)
  exact ⟨done, (sent rfl _).mp done, refused.mpr ⟨40000, rfl, outside⟩⟩

/-- A text column accepts a number and is sent its eight bytes; an integer column, four digits. -/
theorem sent_across_kinds :
    Encoders.standard.accepts .text = true ∧
      (int 7).encode .standard .text = .ok [0, 0, 0, 0, 0, 0, 0, 7] ∧
      Wire.utf8 (int 7).content = [55] ∧
      ¬ WireType.text.Formats (int 7) [0, 0, 0, 0, 0, 0, 0, 7] ∧
    Encoders.standard.accepts .int4 = true ∧
      (text "1234").encode .standard .int4 = .ok [49, 50, 51, 52] ∧
      Wire.readInteger [49, 50, 51, 52] = 825373492 ∧
      ¬ WireType.int4.Formats (text "1234") [49, 50, 51, 52] := by
  exact ⟨rfl, rfl, by decide +kernel, by decide +kernel, rfl,
    congrArg Except.ok (by decide +kernel), rfl, by decide +kernel⟩

end BoundParameter

end SqlBuilder
