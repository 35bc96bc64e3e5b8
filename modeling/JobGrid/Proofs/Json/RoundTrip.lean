import JobGrid.Proofs.Json.Text

/-!
# Reading written values

The compact text of a value is read back as the value, as long as each of its strings has a text
and its numbers are written as the grammar wants them.
-/

namespace JobGrid

namespace Json

mutual

/-- Whether every string has a text and every number is written by the grammar. -/
def WellFormed : Json → Prop
  | .number text => text.WellFormed
  | .string text => text.isSome = true
  | .array items => WellFormedItems items
  | .object members => WellFormedMembers members
  | _ => True

/-- Whether every value of a list is well-formed. -/
def WellFormedItems : List Json → Prop
  | [] => True
  | item :: rest => WellFormed item ∧ WellFormedItems rest

/-- Whether every name and value of a list of members is well-formed. -/
def WellFormedMembers : List (Option String × Json) → Prop
  | [] => True
  | (name, value) :: rest => name.isSome = true ∧ WellFormed value ∧ WellFormedMembers rest

end

/-- What may follow a value: nothing, or a mark that separates or closes. -/
def Closes (bytes : Bytes) : Prop :=
  ∀ byte ∈ bytes.head?, byte = 0x2c ∨ byte = 0x5d ∨ byte = 0x7d

theorem Closes.endsNumber {bytes : Bytes} (closes : Closes bytes) : EndsNumber bytes := by
  intro byte first
  rcases closes byte first with rfl | rfl | rfl
  · decide
  · decide
  · decide

theorem skipBlanks_cons {byte : UInt8} (visible : isBlank byte = false) (rest : Bytes) :
    skipBlanks (byte :: rest) = byte :: rest := by
  simp [skipBlanks, visible]

section Heads

variable (fuel : Nat) (rest : Bytes)

theorem readValue_null :
    readValue (fuel + 1) (write .null ++ rest) = some (.null, rest) := by
  simp only [write, List.cons_append, List.nil_append]
  rw [readValue.eq_2, skipBlanks_cons (by decide)]
  simp [expect, digit?]

theorem readValue_bool (value : Bool) :
    readValue (fuel + 1) (write (.bool value) ++ rest) = some (.bool value, rest) := by
  cases value with
  | true =>
      simp only [write, List.cons_append, List.nil_append]
      rw [readValue.eq_2, skipBlanks_cons (by decide)]
      simp [expect, digit?]
  | false =>
      simp only [write, List.cons_append, List.nil_append]
      rw [readValue.eq_2, skipBlanks_cons (by decide)]
      simp [expect, digit?]

theorem readValue_string (text : String) :
    readValue (fuel + 1) (writeString text ++ rest) = some (.string (some text), rest) := by
  have found := readString_writeString text rest
  simp only [writeString, List.cons_append, List.append_assoc, List.nil_append]
  rw [readValue.eq_2, skipBlanks_cons (by decide)]
  simp [found]

theorem readValue_bracket {next : UInt8} (visible : isBlank next = false)
    (opens : next ≠ 0x5d) :
    readValue (fuel + 1) (0x5b :: next :: rest) =
      (readItems fuel (next :: rest)).map fun (items, rest) => (.array items, rest) := by
  rw [readValue.eq_2, skipBlanks_cons (by decide)]
  simp [skipBlanks_cons visible, opens]

theorem readValue_brace {next : UInt8} (visible : isBlank next = false) (opens : next ≠ 0x7d) :
    readValue (fuel + 1) (0x7b :: next :: rest) =
      (readMembers fuel (next :: rest)).map fun (members, rest) => (.object members, rest) := by
  rw [readValue.eq_2, skipBlanks_cons (by decide)]
  simp [skipBlanks_cons visible, opens]

/-- The octets of decimal digits stand for nothing else. -/
theorem digitByte_other {digit : Nat} (small : digit < 10) :
    isBlank (digitByte digit) = false ∧ digitByte digit ≠ 0x7b ∧ digitByte digit ≠ 0x5b ∧
      digitByte digit ≠ 0x22 ∧ digitByte digit ≠ 0x2d ∧ digitByte digit ≠ 0x5d := by
  have every : ∀ digit : Fin 10, isBlank (digitByte digit) = false ∧
      digitByte digit ≠ 0x7b ∧ digitByte digit ≠ 0x5b ∧ digitByte digit ≠ 0x22 ∧
      digitByte digit ≠ 0x2d ∧ digitByte digit ≠ 0x5d := by decide
  exact every ⟨digit, small⟩

theorem readValue_number {text : NumberText} (wellFormed : text.WellFormed)
    (ends : EndsNumber rest) :
    readValue (fuel + 1) (writeNumber text ++ rest) = some (.number text, rest) := by
  have magnitude := readMagnitude_write wellFormed ends
  have digits := wellFormed.whole
  have allowed := wellFormed.allowed
  obtain ⟨negative, whole, fraction, exponent⟩ := text
  rw [writeNumber_eq]
  simp only [List.append_assoc] at magnitude ⊢
  cases negative with
  | true =>
      simp only [if_true, List.cons_append, List.nil_append]
      rw [readValue.eq_2, skipBlanks_cons (by decide)]
      simp [magnitude]
  | false =>
      cases whole with
      | nil => cases allowed
      | cons digit others =>
          have small : digit < 10 := digits digit (by simp)
          obtain ⟨visible, brace, bracket, quote, minus, -⟩ := digitByte_other small
          simp only [writeDigits, List.map_cons, Bool.false_eq_true, if_false, List.nil_append,
            List.cons_append] at magnitude ⊢
          rw [readValue.eq_2, skipBlanks_cons visible]
          simp [brace, bracket, quote, minus, digit?_digitByte small, magnitude]

end Heads

/-- A written value starts with something that is no blank and closes no array. -/
theorem exists_head_write {value : Json} (wellFormed : value.WellFormed) :
    ∃ head rest, value.write = head :: rest ∧ isBlank head = false ∧ head ≠ 0x5d := by
  cases value with
  | null => exact ⟨_, _, rfl, by decide, by decide⟩
  | bool value =>
      cases value with
      | true => exact ⟨_, _, rfl, by decide, by decide⟩
      | false => exact ⟨_, _, rfl, by decide, by decide⟩
  | string text => exact ⟨_, _, rfl, by decide, by decide⟩
  | array items => exact ⟨_, _, rfl, by decide, by decide⟩
  | object members => exact ⟨_, _, rfl, by decide, by decide⟩
  | number text =>
      rw [WellFormed] at wellFormed
      have digits := wellFormed.whole
      have allowed := wellFormed.allowed
      obtain ⟨negative, whole, fraction, exponent⟩ := text
      rw [write, writeNumber_eq]
      cases negative with
      | true => exact ⟨_, _, rfl, by decide, by decide⟩
      | false =>
          cases whole with
          | nil => cases allowed
          | cons digit others =>
              obtain ⟨visible, -, -, -, -, opens⟩ :=
                digitByte_other (digits digit (by simp))
              exact ⟨_, _, rfl, visible, opens⟩

theorem exists_head_writeItems {item : Json} {others : List Json}
    (wellFormed : WellFormedItems (item :: others)) :
    ∃ head rest, writeItems (item :: others) = head :: rest ∧ isBlank head = false ∧
      head ≠ 0x5d := by
  obtain ⟨head, tail, written, visible, opens⟩ := exists_head_write wellFormed.1
  cases others with
  | nil => exact ⟨head, tail, written, visible, opens⟩
  | cons second others =>
      refine ⟨head, tail ++ 0x2c :: writeItems (second :: others), ?_, visible, opens⟩
      simp [writeItems, written]

theorem exists_tail_writeMembers (member : Option String × Json)
    (others : List (Option String × Json)) :
    ∃ tail, writeMembers (member :: others) = 0x22 :: tail := by
  cases others with
  | nil => exact ⟨_, rfl⟩
  | cons second others => exact ⟨_, rfl⟩

section Sequences

variable {fuel : Nat} {bytes rest : Bytes} {item value : Json}

theorem readItems_last (found : readValue fuel bytes = some (item, 0x5d :: rest)) :
    readItems (fuel + 1) bytes = some ([item], rest) := by
  rw [readItems, found]
  simp [skipBlanks, isBlank]

theorem readItems_more (found : readValue fuel bytes = some (item, 0x2c :: rest)) :
    readItems (fuel + 1) bytes =
      (readItems fuel rest).map fun (items, rest) => (item :: items, rest) := by
  rw [readItems, found]
  simp [skipBlanks, isBlank]

theorem readMembers_last {name : String}
    (found : readValue fuel bytes = some (value, 0x7d :: rest)) :
    readMembers (fuel + 1) (writeString name ++ 0x3a :: bytes) =
      some ([(some name, value)], rest) := by
  have text := readString_writeString name (0x3a :: bytes)
  simp only [writeString, List.cons_append, List.append_assoc, List.nil_append]
  rw [readMembers, skipBlanks_cons (by decide)]
  simp [text, skipBlanks, isBlank, found]

theorem readMembers_more {name : String}
    (found : readValue fuel bytes = some (value, 0x2c :: rest)) :
    readMembers (fuel + 1) (writeString name ++ 0x3a :: bytes) =
      (readMembers fuel rest).map fun (members, rest) => ((some name, value) :: members, rest) := by
  have text := readString_writeString name (0x3a :: bytes)
  simp only [writeString, List.cons_append, List.append_assoc, List.nil_append]
  rw [readMembers, skipBlanks_cons (by decide)]
  simp [text, skipBlanks, isBlank, found]

end Sequences

/-- A mark that separates or closes may follow a value. -/
theorem closes_cons {mark : UInt8} (known : mark = 0x2c ∨ mark = 0x5d ∨ mark = 0x7d)
    (rest : Bytes) : Closes (mark :: rest) := by
  intro byte first
  cases first
  exact known

mutual

/-- A written value is read back, if the fuel lasts and nothing continues it. -/
theorem readValue_write : ∀ (value : Json), value.WellFormed → ∀ (fuel : Nat) (rest : Bytes),
    2 * value.write.length ≤ fuel → Closes rest →
    readValue fuel (value.write ++ rest) = some (value, rest)
  | value, wellFormed, 0, rest, enough, _ => by
      obtain ⟨head, tail, written, -⟩ := exists_head_write wellFormed
      simp [written] at enough
  | .null, _, fuel + 1, rest, _, _ => readValue_null fuel rest
  | .bool value, _, fuel + 1, rest, _, _ => readValue_bool fuel rest value
  | .number text, wellFormed, fuel + 1, rest, _, closes =>
      readValue_number fuel rest wellFormed closes.endsNumber
  | .string (some text), _, fuel + 1, rest, _, _ => readValue_string fuel rest text
  | .array [], _, fuel + 1, rest, _, _ => by
      simp only [write, writeItems, List.nil_append, List.cons_append]
      rw [readValue.eq_2, skipBlanks_cons (by decide)]
      simp [skipBlanks, isBlank]
  | .array (item :: others), wellFormed, fuel + 1, rest, enough, _ => by
      have read := readItems_write (item :: others) wellFormed fuel rest (by simp)
        (by simp only [write, List.length_cons, List.length_append] at enough; omega)
      obtain ⟨head, tail, written, visible, opens⟩ := exists_head_writeItems wellFormed
      simp only [write, List.cons_append, List.append_assoc, List.nil_append]
      rw [written, List.cons_append] at read ⊢
      rw [readValue_bracket fuel _ visible opens, read]
      rfl
  | .object [], _, fuel + 1, rest, _, _ => by
      simp only [write, writeMembers, List.nil_append, List.cons_append]
      rw [readValue.eq_2, skipBlanks_cons (by decide)]
      simp [skipBlanks, isBlank]
  | .object (member :: others), wellFormed, fuel + 1, rest, enough, _ => by
      have read := readMembers_write (member :: others) wellFormed fuel rest (by simp)
        (by simp only [write, List.length_cons, List.length_append] at enough; omega)
      obtain ⟨tail, written⟩ := exists_tail_writeMembers member others
      simp only [write, List.cons_append, List.append_assoc, List.nil_append]
      rw [written, List.cons_append] at read ⊢
      rw [readValue_brace fuel _ (by decide) (by decide), read]
      rfl

theorem readItems_write : ∀ (items : List Json), WellFormedItems items → ∀ (fuel : Nat)
    (rest : Bytes), items ≠ [] → 2 * (writeItems items).length < fuel →
    readItems fuel (writeItems items ++ 0x5d :: rest) = some (items, rest)
  | _, _, 0, _, _, enough => absurd enough (Nat.not_lt_zero _)
  | [], _, _, _, nonempty, _ => absurd rfl nonempty
  | [item], ⟨head, _⟩, fuel + 1, rest, _, enough => by
      simp only [writeItems] at enough ⊢
      exact readItems_last (readValue_write item head fuel _ (by omega)
        (closes_cons (by decide) rest))
  | item :: second :: others, ⟨head, tail⟩, fuel + 1, rest, _, enough => by
      simp only [writeItems, List.length_append, List.length_cons] at enough
      have first := readValue_write item head fuel
        (0x2c :: (writeItems (second :: others) ++ 0x5d :: rest)) (by omega)
        (closes_cons (by decide) _)
      have later := readItems_write (second :: others) tail fuel rest (by simp)
        (by omega)
      simp only [writeItems, List.append_assoc, List.cons_append]
      rw [readItems_more first, later]
      rfl

theorem readMembers_write : ∀ (members : List (Option String × Json)),
    WellFormedMembers members → ∀ (fuel : Nat) (rest : Bytes), members ≠ [] →
    2 * (writeMembers members).length < fuel →
    readMembers fuel (writeMembers members ++ 0x7d :: rest) = some (members, rest)
  | _, _, 0, _, _, enough => absurd enough (Nat.not_lt_zero _)
  | [], _, _, _, nonempty, _ => absurd rfl nonempty
  | [(some name, value)], ⟨_, head, _⟩, fuel + 1, rest, _, enough => by
      simp only [writeMembers, List.length_append, List.length_cons] at enough
      simp only [writeMembers, List.append_assoc, List.cons_append]
      exact readMembers_last (readValue_write value head fuel _ (by omega)
        (closes_cons (by decide) rest))
  | (some name, value) :: second :: others, ⟨_, head, tail⟩, fuel + 1, rest, _, enough => by
      simp only [writeMembers, List.length_append, List.length_cons] at enough
      have first := readValue_write value head fuel
        (0x2c :: (writeMembers (second :: others) ++ 0x7d :: rest)) (by omega)
        (closes_cons (by decide) _)
      have later := readMembers_write (second :: others) tail fuel rest (by simp)
        (by omega)
      simp only [writeMembers, List.append_assoc, List.cons_append]
      rw [Option.getD_some, readMembers_more first, later]
      rfl

end

/-- The compact text of a well-formed value is read back as the value. -/
theorem parse?_write {value : Json} (wellFormed : value.WellFormed) :
    parse? value.write = some value := by
  have read := readValue_write value wellFormed (2 * value.write.length + 2) [] (by omega)
    (by intro byte first; cases first)
  rw [List.append_nil] at read
  simp [parse?, read, skipBlanks]

end Json

end JobGrid
