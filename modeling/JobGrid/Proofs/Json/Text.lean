import Mathlib.Data.List.Basic
import Mathlib.Tactic.Tauto
import JobGrid.Json.Reader
import JobGrid.Json.Writer

/-!
# Reading written numbers and strings

The reader finds again what the writer put into a text: the digits of a number, as far as they
reach, and the octets of a string, however they were escaped.
-/

namespace JobGrid

namespace Digits

theorem within_ne_nil {base fuel number : Nat} (enough : number < fuel) :
    within base fuel number ≠ [] := by
  cases fuel with
  | zero => omega
  | succ fuel =>
      unfold within
      split
      · simp
      · simp

/-- No zero stands in front of the other digits of a number. -/
theorem head?_within {base fuel number : Nat} (large : 2 ≤ base) (enough : number < fuel)
    (positive : 0 < number) : (within base fuel number).head? ≠ some 0 := by
  induction fuel generalizing number with
  | zero => omega
  | succ fuel ih =>
      unfold within
      split
      · simp
        omega
      · rename_i wide
        have smaller : number / base < fuel :=
          Nat.lt_of_lt_of_le (Nat.div_lt_self positive large) (by omega)
        have upper : 0 < number / base := Nat.div_pos (by omega) (by omega)
        rw [List.head?_append_of_ne_nil _ (within_ne_nil smaller)]
        exact ih smaller upper

end Digits

namespace Json

/-- The first octet of a text, if there is one, is no digit. -/
def NoDigit (bytes : Bytes) : Prop := ∀ byte ∈ bytes.head?, digit? byte = none

/-- The first octet of a text, if there is one, continues no number. -/
def EndsNumber (bytes : Bytes) : Prop :=
  ∀ byte ∈ bytes.head?, digit? byte = none ∧ byte ≠ 0x2e ∧ byte ≠ 0x65 ∧ byte ≠ 0x45

theorem EndsNumber.noDigit {bytes : Bytes} (ends : EndsNumber bytes) : NoDigit bytes :=
  fun byte first => (ends byte first).1

theorem digit?_digitByte {digit : Nat} (small : digit < 10) :
    digit? (digitByte digit) = some digit := by
  have every : ∀ digit : Fin 10, digit? (digitByte digit) = some digit.val := by decide
  exact every ⟨digit, small⟩

end Json

/-- A number text as it is written: each of its parts has digits, and no zero stands in
front of others. -/
structure NumberText.WellFormed (text : NumberText) : Prop where
  allowed : Json.wholeAllowed text.whole = true
  whole : ∀ digit ∈ text.whole, digit < 10
  fraction : ∀ digits ∈ text.fraction, digits ≠ [] ∧ ∀ digit ∈ digits, digit < 10
  exponent : ∀ exponent ∈ text.exponent,
    exponent.digits ≠ [] ∧ ∀ digit ∈ exponent.digits, digit < 10

theorem NumberText.wellFormed_ofNat (number : Nat) : (NumberText.ofNat number).WellFormed where
  allowed := by
    have enough : number < number + 1 := Nat.lt_succ_self number
    cases digits : Digits.ofNat 10 number with
    | nil => exact absurd digits (Digits.within_ne_nil enough)
    | cons first rest =>
        cases rest with
        | nil => simp [NumberText.ofNat, digits, Json.wholeAllowed]
        | cons second others =>
            have positive : 0 < number := by
              apply Nat.pos_of_ne_zero
              rintro rfl
              simp [Digits.ofNat, Digits.within] at digits
            have front := Digits.head?_within (by decide : 2 ≤ 10) enough positive
            rw [← Digits.ofNat, digits] at front
            simpa [NumberText.ofNat, digits, Json.wholeAllowed] using front
  whole _ member := Digits.lt_of_mem_within (by decide) member
  fraction := by simp [NumberText.ofNat]
  exponent := by simp [NumberText.ofNat]

namespace Json

section Numbers

theorem takeDigits_of_noDigit {bytes : Bytes} (stops : NoDigit bytes) :
    takeDigits bytes = ([], bytes) := by
  cases bytes with
  | nil => rfl
  | cons byte rest =>
      have none : digit? byte = none := stops byte rfl
      simp [takeDigits, none]

theorem takeDigits_writeDigits {digits : List Nat} (small : ∀ digit ∈ digits, digit < 10)
    {rest : Bytes} (stops : NoDigit rest) :
    takeDigits (writeDigits digits ++ rest) = (digits, rest) := by
  induction digits with
  | nil => exact takeDigits_of_noDigit stops
  | cons digit others ih =>
      have first := digit?_digitByte (small digit (by simp))
      have tail := ih fun digit member => small digit (by simp [member])
      rw [writeDigits] at tail
      simp [writeDigits, takeDigits, first, tail]

/-- The text of an exponent, or nothing. -/
def writeExponent : Option ExponentText → Bytes
  | none => []
  | some exponent =>
      0x65 :: ((if exponent.negative then [0x2d] else []) ++ writeDigits exponent.digits)

/-- The text of a fraction, or nothing. -/
def writeFraction : Option (List Nat) → Bytes
  | none => []
  | some digits => 0x2e :: writeDigits digits

theorem writeNumber_eq (text : NumberText) :
    writeNumber text = (if text.negative then [0x2d] else []) ++ (writeDigits text.whole ++
      (writeFraction text.fraction ++ writeExponent text.exponent)) := by
  obtain ⟨negative, whole, fraction, exponent⟩ := text
  simp only [writeNumber, List.append_assoc]
  cases fraction with
  | none => cases exponent <;> rfl
  | some digits => cases exponent <;> rfl

theorem readExponent_writeExponent {exponent : Option ExponentText}
    (wellFormed : ∀ written ∈ exponent,
      written.digits ≠ [] ∧ ∀ digit ∈ written.digits, digit < 10)
    {rest : Bytes} (ends : EndsNumber rest) :
    readExponent (writeExponent exponent ++ rest) = some (exponent, rest) := by
  cases exponent with
  | none =>
      cases rest with
      | nil => rfl
      | cons byte rest =>
          obtain ⟨-, -, lower, upper⟩ := ends byte rfl
          simp [writeExponent, readExponent, lower, upper]
  | some exponent =>
      obtain ⟨nonempty, small⟩ := wellFormed exponent rfl
      obtain ⟨negative, digits⟩ := exponent
      have taken := takeDigits_writeDigits small ends.noDigit
      cases digits with
      | nil => exact absurd rfl nonempty
      | cons digit others =>
          have sign : ∀ digit : Fin 10, digitByte digit ≠ 0x2b ∧ digitByte digit ≠ 0x2d := by
            decide
          obtain ⟨noPlus, noMinus⟩ := sign ⟨digit, small digit (by simp)⟩
          simp only [writeDigits, List.map_cons, List.cons_append] at taken
          cases negative with
          | true => simp [writeExponent, readExponent, writeDigits, taken]
          | false =>
              simp only [] at noPlus noMinus
              simp [writeExponent, readExponent, writeDigits, noPlus, noMinus, taken]

theorem readFraction_writeFraction {fraction : Option (List Nat)}
    (wellFormed : ∀ digits ∈ fraction, digits ≠ [] ∧ ∀ digit ∈ digits, digit < 10)
    {rest : Bytes} (stops : NoDigit rest) (pointless : ∀ byte ∈ rest.head?, byte ≠ 0x2e) :
    readFraction (writeFraction fraction ++ rest) = some (fraction, rest) := by
  cases fraction with
  | none =>
      cases rest with
      | nil => rfl
      | cons byte rest => simp [writeFraction, readFraction, pointless byte rfl]
  | some digits =>
      obtain ⟨nonempty, small⟩ := wellFormed digits rfl
      have taken := takeDigits_writeDigits small stops
      cases digits with
      | nil => exact absurd rfl nonempty
      | cons digit others => simp [writeFraction, readFraction, taken]

/-- What follows the digits of a fraction starts no further digits and no fraction. -/
theorem head?_writeExponent_append (exponent : Option ExponentText) {rest : Bytes}
    (ends : EndsNumber rest) :
    NoDigit (writeExponent exponent ++ rest) ∧
      ∀ byte ∈ (writeExponent exponent ++ rest).head?, byte ≠ 0x2e := by
  cases exponent with
  | none => exact ⟨ends.noDigit, fun byte first => (ends byte first).2.1⟩
  | some exponent =>
      constructor
      · intro byte first
        cases first
        decide
      · intro byte first
        cases first
        decide

theorem noDigit_writeFraction_append (fraction : Option (List Nat)) {rest : Bytes}
    (stops : NoDigit rest) : NoDigit (writeFraction fraction ++ rest) := by
  cases fraction with
  | none => exact stops
  | some digits =>
      intro byte first
      cases first
      decide

/-- A written magnitude is read back, whatever ends the number. -/
theorem readMagnitude_write {text : NumberText} (wellFormed : text.WellFormed) {rest : Bytes}
    (ends : EndsNumber rest) :
    readMagnitude text.negative (writeDigits text.whole ++ (writeFraction text.fraction ++
      writeExponent text.exponent) ++ rest) = some (text, rest) := by
  obtain ⟨stops, pointless⟩ := head?_writeExponent_append text.exponent ends
  have whole := takeDigits_writeDigits wellFormed.whole
    (noDigit_writeFraction_append text.fraction stops)
  have fraction := readFraction_writeFraction wellFormed.fraction stops pointless
  have exponent := readExponent_writeExponent wellFormed.exponent ends
  simp only [List.append_assoc]
  simp [readMagnitude, whole, wellFormed.allowed, fraction, exponent]

end Numbers

section Strings

/-- Whether an octet is written as a sixteen-bit unit: a control character without an
escape of its own. -/
def isUnit (byte : UInt8) : Prop :=
  byte < 0x20 ∧ byte ≠ 0x08 ∧ byte ≠ 0x09 ∧ byte ≠ 0x0a ∧ byte ≠ 0x0c ∧ byte ≠ 0x0d

instance (byte : UInt8) : Decidable (isUnit byte) := by
  unfold isUnit
  infer_instance

/-- The piece of a string that an octet is read back as. -/
def pieceOf (byte : UInt8) : Piece :=
  if isUnit byte then .unit byte.toNat else .byte byte

theorem unit?_control {byte : UInt8} (control : byte < 0x20) :
    unit? 0x30 0x30 (digitByte (byte.toNat / 16)) (digitByte (byte.toNat % 16)) =
      some byte.toNat := by
  have every : ∀ number : Fin 32,
      unit? 0x30 0x30 (digitByte (number.val / 16)) (digitByte (number.val % 16)) =
        some number.val := by decide
  exact every ⟨byte.toNat, UInt8.lt_iff_toNat_lt.1 control⟩

theorem readPieces_quote (rest : Bytes) : readPieces (0x22 :: rest) = some ([], rest) := by
  unfold readPieces
  rfl

theorem readPieces_plain {byte : UInt8} (quote : byte ≠ 0x22) (slash : byte ≠ 0x5c)
    (visible : ¬ byte < 0x20) (rest : Bytes) :
    readPieces (byte :: rest) =
      (readPieces rest).map fun (pieces, rest) => (.byte byte :: pieces, rest) := by
  rw [readPieces.eq_def]
  simp only [if_neg quote, if_neg slash, if_neg visible]

theorem readPieces_escaped {mark byte : UInt8} (letter : mark ≠ 0x75)
    (known : escaped? mark = some byte) (rest : Bytes) :
    readPieces (0x5c :: mark :: rest) =
      (readPieces rest).map fun (pieces, rest) => (.byte byte :: pieces, rest) := by
  have slash : ¬ (0x5c : UInt8) = 0x22 := by decide
  rw [readPieces.eq_def]
  simp only [if_neg slash, if_true, if_neg letter, known]

theorem readPieces_unit {first second third fourth : UInt8} {unit : Nat}
    (known : unit? first second third fourth = some unit) (rest : Bytes) :
    readPieces (0x5c :: 0x75 :: first :: second :: third :: fourth :: rest) =
      (readPieces rest).map fun (pieces, rest) => (.unit unit :: pieces, rest) := by
  have slash : ¬ (0x5c : UInt8) = 0x22 := by decide
  rw [readPieces.eq_def]
  simp only [if_neg slash, if_true, known]

/-- Each octet of a written string is read back. -/
theorem readPieces_escapeByte (byte : UInt8) (rest : Bytes) :
    readPieces (escapeByte byte ++ rest) =
      (readPieces rest).map fun (pieces, rest) => (pieceOf byte :: pieces, rest) := by
  by_cases unit : isUnit byte
  · obtain ⟨control, back, tab, line, page, carriage⟩ := unit
    have quote : byte ≠ 0x22 := by
      rintro rfl
      exact absurd control (by decide)
    have slash : byte ≠ 0x5c := by
      rintro rfl
      exact absurd control (by decide)
    have written : escapeByte byte = [0x5c, 0x75, 0x30, 0x30, digitByte (byte.toNat / 16),
        digitByte (byte.toNat % 16)] := by
      simp [escapeByte, quote, slash, back, tab, line, page, carriage, control]
    rw [written, pieceOf, if_pos ⟨control, back, tab, line, page, carriage⟩]
    exact readPieces_unit (unit?_control control) rest
  · rw [pieceOf, if_neg unit]
    by_cases special : byte = 0x22 ∨ byte = 0x5c
    · have letter : byte ≠ 0x75 := by
        rintro rfl
        exact absurd special (by decide)
      rw [escapeByte, if_pos special]
      exact readPieces_escaped letter (by rw [escaped?, if_pos (by tauto)]) rest
    · by_cases visible : byte < 0x20
      · have short : byte = 0x08 ∨ byte = 0x09 ∨ byte = 0x0a ∨ byte = 0x0c ∨ byte = 0x0d := by
          simp only [isUnit, visible, true_and] at unit
          tauto
        rcases short with rfl | rfl | rfl | rfl | rfl
        · exact readPieces_escaped (by decide) (by decide) rest
        · exact readPieces_escaped (by decide) (by decide) rest
        · exact readPieces_escaped (by decide) (by decide) rest
        · exact readPieces_escaped (by decide) (by decide) rest
        · exact readPieces_escaped (by decide) (by decide) rest
      · have written : escapeByte byte = [byte] := by
          have other : ∀ control : UInt8, control < 0x20 → byte ≠ control :=
            fun control small same => visible (same ▸ small)
          simp [escapeByte, special, visible, other 0x08 (by decide), other 0x09 (by decide),
            other 0x0a (by decide), other 0x0c (by decide), other 0x0d (by decide)]
        rw [written]
        exact readPieces_plain (fun quote => special (.inl quote))
          (fun slash => special (.inr slash)) visible rest

theorem readPieces_write (bytes rest : Bytes) :
    readPieces (bytes.flatMap escapeByte ++ 0x22 :: rest) = some (bytes.map pieceOf, rest) := by
  induction bytes with
  | nil => exact readPieces_quote rest
  | cons byte others ih =>
      rw [List.flatMap_cons, List.append_assoc, readPieces_escapeByte, ih]
      rfl

theorem codePoint_of_lt {number : Nat} (small : number < 32) :
    codePoint number = [UInt8.ofNat number] := by
  have every : ∀ number : Fin 32, codePoint number.val = [UInt8.ofNat number.val] := by decide
  exact every ⟨number, small⟩

theorem assemble_pieceOf (bytes : Bytes) : assemble (bytes.map pieceOf) = some bytes := by
  induction bytes with
  | nil => rfl
  | cons byte rest ih =>
      by_cases unit : isUnit byte
      · have small : byte.toNat < 32 := UInt8.lt_iff_toNat_lt.1 unit.1
        have low : byte.toNat < 0xd800 := by omega
        have piece : pieceOf byte = .unit byte.toNat := if_pos unit
        rw [List.map_cons, piece, assemble.eq_def]
        simp [low, ih, codePoint_of_lt small]
      · have piece : pieceOf byte = .byte byte := if_neg unit
        rw [List.map_cons, piece, assemble, ih]
        rfl

/-- A written string is read back. -/
theorem readString_writeString (text : String) (rest : Bytes) :
    readString ((Bytes.ofString text).flatMap escapeByte ++ 0x22 :: rest) =
      some (some text, rest) := by
  rw [readString, readPieces_write]
  simp [pieceText, assemble_pieceOf]

end Strings

end Json

end JobGrid
