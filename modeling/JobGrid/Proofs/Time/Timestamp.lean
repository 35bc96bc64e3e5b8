import Mathlib.Data.List.Induction
import JobGrid.Proofs.Time.Calendar
import JobGrid.Time.Timestamp

/-!
# Reading written time stamps

The text of an instant is read back as the instant, from the year zero on and as long as its
year has instants. The moments of the grid's clock are such instants.
-/

namespace JobGrid

namespace Timestamp

section Digits

variable {digits : List Nat} {limit : Nat} {rest : List Char}

/-- Digits are taken as far as they reach, or as many as are allowed. -/
theorem takeDigits_map_toChar (small : ∀ digit ∈ digits, digit < 10)
    (fits : digits.length ≤ limit)
    (stops : digits.length < limit → ∀ char ∈ rest.head?, Digits.decimal? char = none) :
    takeDigits limit (digits.map Digits.toChar ++ rest) = (digits, rest) := by
  induction digits generalizing limit with
  | nil =>
      cases limit with
      | zero => rfl
      | succ limit =>
          cases rest with
          | nil => rfl
          | cons char rest =>
              have none := stops (by simp) char rfl
              simp [takeDigits, none]
  | cons digit others ih =>
      cases limit with
      | zero => simp at fits
      | succ limit =>
          have first := Digits.decimal?_toChar (small digit (by simp))
          have tail := ih (fun digit member => small digit (by simp [member]))
            (by simpa using fits) (fun shorter => stops (by simpa using shorter))
          simp [takeDigits, first, tail]

theorem readNumber_map_toChar (nonempty : digits ≠ []) (small : ∀ digit ∈ digits, digit < 10)
    (fits : digits.length ≤ limit)
    (stops : digits.length < limit → ∀ char ∈ rest.head?, Digits.decimal? char = none) :
    readNumber limit (digits.map Digits.toChar ++ rest) =
      some (Digits.value 10 digits, rest) := by
  rw [readNumber, takeDigits_map_toChar small fits stops]
  cases digits with
  | nil => exact absurd rfl nonempty
  | cons digit others => rfl

theorem isBlank_toChar {digit : Nat} (small : digit < 10) :
    isBlank (Digits.toChar digit) = false := by
  have every : ∀ digit : Fin 10, isBlank (Digits.toChar digit) = false := by decide
  exact every ⟨digit, small⟩

theorem trimStart_map_toChar (nonempty : digits ≠ []) (small : ∀ digit ∈ digits, digit < 10) :
    trimStart (digits.map Digits.toChar ++ rest) = digits.map Digits.toChar ++ rest := by
  cases digits with
  | nil => exact absurd rfl nonempty
  | cons digit others =>
      have visible := isBlank_toChar (small digit (by simp))
      simp [trimStart, visible]

/-- The characters of a number in so many digits. -/
def shown (width number : Nat) : List Char := (Digits.padded 10 width number).map Digits.toChar

theorem padded_small {width number : Nat} :
    ∀ digit ∈ Digits.padded 10 width number, digit < 10 :=
  fun _ member => Digits.lt_of_mem_padded (by decide) member

theorem padded_ne_nil {width number : Nat} (positive : 0 < width) :
    Digits.padded 10 width number ≠ [] := by
  apply List.ne_nil_of_length_pos
  rw [Digits.length_padded]
  exact positive

/-- A number in two digits is read back. -/
theorem readField_shown {number : Nat} (small : number < 100) :
    readField (shown 2 number ++ rest) = some (number, rest) := by
  have value : Digits.value 10 (Digits.padded 10 2 number) = number := by
    rw [Digits.value_padded]
    exact Nat.mod_eq_of_lt small
  rw [readField, shown, trimStart_map_toChar (padded_ne_nil (by decide)) padded_small,
    readNumber_map_toChar (padded_ne_nil (by decide)) padded_small (by simp) (by simp), value]

theorem readMark_cons {mark : Char} (visible : isBlank mark = false) :
    readMark mark (mark :: rest) = some rest := by
  simp [readMark, trimStart, visible]

end Digits

theorem value_lt {base : Nat} {digits : List Nat} (small : ∀ digit ∈ digits, digit < base) :
    Digits.value base digits < base ^ digits.length := by
  induction digits using List.reverseRecOn with
  | nil => simp
  | append_singleton before last ih =>
      have front := ih fun digit member => small digit (by simp [member])
      have end' : last < base := small last (by simp)
      rw [Digits.value_append_singleton, List.length_append, List.length_singleton, Nat.pow_succ]
      calc Digits.value base before * base + last
          < Digits.value base before * base + base := Nat.add_lt_add_left end' _
        _ = (Digits.value base before + 1) * base := by rw [Nat.add_mul, Nat.one_mul]
        _ ≤ base ^ before.length * base := Nat.mul_le_mul_right base front

theorem toChar_ne_sign {digit : Nat} (small : digit < 10) :
    Digits.toChar digit ≠ '-' ∧ Digits.toChar digit ≠ '+' := by
  have every : ∀ digit : Fin 10, Digits.toChar digit ≠ '-' ∧ Digits.toChar digit ≠ '+' := by
    decide
  exact every ⟨digit, small⟩

/-- A year without a sign is read as at most four digits. -/
theorem readYear_map_toChar {digits : List Nat} {rest : List Char} (nonempty : digits ≠ [])
    (small : ∀ digit ∈ digits, digit < 10) (four : digits.length = 4) :
    readYear (digits.map Digits.toChar ++ rest) = some ((Digits.value 10 digits : Int), rest) := by
  have read : readNumber 4 (digits.map Digits.toChar ++ rest) =
      some (Digits.value 10 digits, rest) :=
    readNumber_map_toChar nonempty small (by omega) (fun shorter => absurd shorter (by omega))
  rw [readYear, trimStart_map_toChar nonempty small]
  cases digits with
  | nil => exact absurd rfl nonempty
  | cons digit others =>
      obtain ⟨minus, plus⟩ := toChar_ne_sign (small digit (by simp))
      rw [List.map_cons, List.cons_append] at read ⊢
      split
      · rename_i same
        exact absurd (List.cons.inj same).1 minus
      · rename_i same
        exact absurd (List.cons.inj same).1 plus
      · rw [read]
        rfl

/-- The year of an instant is read back, unless it lies before the year zero. -/
theorem readYear_yearText {year : Int} (positive : 0 ≤ year) {rest : List Char} :
    readYear ((yearText year).toList ++ '-' :: rest) = some (year, '-' :: rest) := by
  obtain ⟨number, rfl⟩ := Int.eq_ofNat_of_zero_le positive
  have dash : Digits.decimal? '-' = none := by decide
  by_cases short : number ≤ 9999
  · have value : Digits.value 10 (Digits.padded 10 4 number) = number := by
      rw [Digits.value_padded]
      exact Nat.mod_eq_of_lt (by omega)
    have text : (yearText number).toList = (Digits.padded 10 4 number).map Digits.toChar := by
      rw [yearText, if_pos ⟨positive, by omega⟩]
      simp [Digits.paddedText]
    rw [text, readYear_map_toChar (padded_ne_nil (by decide)) padded_small (by simp), value]
  · have small : ∀ digit ∈ Digits.ofNat 10 number, digit < 10 :=
      fun digit member => Digits.lt_of_mem_within (by decide) member
    have value := Digits.value_ofNat (by decide : 2 ≤ 10) number
    have long : 4 < (Digits.ofNat 10 number).length := by
      have bound := value_lt small
      rw [value] at bound
      apply Nat.lt_of_not_le
      intro few
      have power : 10 ^ (Digits.ofNat 10 number).length ≤ 10 ^ 4 :=
        Nat.pow_le_pow_right (by decide) few
      omega
    have nonempty : Digits.ofNat 10 number ≠ [] := by
      apply List.ne_nil_of_length_pos
      omega
    have text : (yearText number).toList =
        '+' :: (Digits.ofNat 10 number).map Digits.toChar := by
      have outside : ¬ (0 ≤ (number : Int) ∧ (number : Int) ≤ 9999) := by omega
      have zeros : 4 - (Digits.decimalText number).length = 0 := by
        rw [Digits.decimalText, String.length_ofList, List.length_map]
        omega
      rw [yearText, if_neg outside, if_neg (by omega), Int.natAbs_natCast]
      simp only [zeros]
      simp [Digits.decimalText]
    have read : readNumber ((Digits.ofNat 10 number).map Digits.toChar ++ '-' :: rest).length
        ((Digits.ofNat 10 number).map Digits.toChar ++ '-' :: rest) =
          some (Digits.value 10 (Digits.ofNat 10 number), '-' :: rest) := by
      apply readNumber_map_toChar nonempty small (by simp)
      intro _ char first
      cases first
      exact dash
    rw [text, List.cons_append, readYear]
    have plus : trimStart ('+' :: ((Digits.ofNat 10 number).map Digits.toChar ++ '-' :: rest)) =
        '+' :: ((Digits.ofNat 10 number).map Digits.toChar ++ '-' :: rest) := by
      rw [trimStart, List.dropWhile_cons_of_neg (by decide)]
    rw [plus]
    simp only [read, value]
    rfl

/-- A fraction of a second is read back, whatever ends it. -/
theorem readFraction_fractionText {nanos : Nat} (small : nanos < second) {rest : List Char}
    (stops : ∀ char ∈ rest.head?, Digits.decimal? char = none ∧ char ≠ '.') :
    readFraction ((fractionText nanos).toList ++ rest) = some (nanos, rest) := by
  have written : ∀ width number : Nat, 0 < width → width ≤ 9 → number < 10 ^ width →
      nanos = number * 10 ^ (9 - width) →
      readFraction (("." ++ Digits.paddedText width number).toList ++ rest) =
        some (nanos, rest) := by
    intro width number positive short fits same
    have value : Digits.value 10 (Digits.padded 10 width number) = number := by
      rw [Digits.value_padded]
      exact Nat.mod_eq_of_lt fits
    have taken : takeDigits 9 ((Digits.padded 10 width number).map Digits.toChar ++ rest) =
        (Digits.padded 10 width number, rest) := by
      apply takeDigits_map_toChar padded_small (by simpa using short)
      intro _ char first
      exact (stops char first).1
    have nothing : rest.dropWhile (fun char => (Digits.decimal? char).isSome) = rest := by
      cases rest with
      | nil => rfl
      | cons char others => simp [(stops char rfl).1]
    have shown : ("." ++ Digits.paddedText width number).toList ++ rest =
        '.' :: ((Digits.padded 10 width number).map Digits.toChar ++ rest) := by
      simp [Digits.paddedText]
    rw [shown, readFraction, taken]
    cases digits : Digits.padded 10 width number with
    | nil => exact absurd digits (padded_ne_nil positive)
    | cons digit others =>
        simp only
        rw [← digits, value, nothing, Digits.length_padded, same]
  have limit : nanos < 1000000000 := small
  by_cases none : nanos = 0
  · have empty : (fractionText nanos).toList = [] := by simp [fractionText, none]
    rw [empty, List.nil_append, none]
    cases rest with
    | nil => rfl
    | cons char others =>
        have point : char ≠ '.' := (stops char rfl).2
        rw [readFraction.eq_def]
        split
        · rename_i same
          exact absurd (List.cons.inj same).1 point
        · rfl
  · by_cases millis : nanos % 1000000 = 0
    · rw [fractionText, if_neg none, if_pos millis]
      exact written 3 _ (by decide) (by decide) (by omega) (by omega)
    · by_cases micros : nanos % 1000 = 0
      · rw [fractionText, if_neg none, if_neg millis, if_pos micros]
        exact written 6 _ (by decide) (by decide) (by omega) (by omega)
      · rw [fractionText, if_neg none, if_neg millis, if_neg micros]
        exact written 9 _ (by decide) (by decide) (by omega) (by omega)

/-- A date on the calendar is read back. -/
theorem readDate_written {date : Date} (valid : date.isValid = true) (positive : 0 ≤ date.year)
    (rest : List Char) :
    readDate ((yearText date.year).toList ++ '-' :: (shown 2 date.month ++
      '-' :: (shown 2 date.day ++ rest))) = some (date, rest) := by
  have bounds := valid
  simp only [Date.isValid, Bool.and_eq_true, decide_eq_true_eq] at bounds
  have length : Date.monthLength date.year date.month ≤ 31 := by
    unfold Date.monthLength
    split
    · split <;> omega
    · split <;> omega
  have dash : isBlank '-' = false := by decide
  simp [readDate, readYear_yearText positive, readMark_cons dash,
    readField_shown (by omega : date.month < 100), readField_shown (by omega : date.day < 100),
    valid]

/-- A time of day is read back. -/
theorem readClock_written {clock nanos : Nat} (inDay : clock < 86400) (plain : nanos < second)
    {rest : List Char} (stops : ∀ char ∈ rest.head?, Digits.decimal? char = none ∧ char ≠ '.') :
    readClock (shown 2 (clock / 3600) ++ ':' :: (shown 2 (clock / 60 % 60) ++
      ':' :: (shown 2 (clock % 60) ++ ((fractionText nanos).toList ++ rest)))) =
        some ((clock, nanos), rest) := by
  have colon : isBlank ':' = false := by decide
  have inRange : ¬ (23 < clock / 3600 ∨ 59 < clock / 60 % 60 ∨ 60 < clock % 60) := by omega
  have noLeap : ¬ clock % 60 = 60 := by omega
  have whole : clock / 3600 * 3600 + clock / 60 % 60 * 60 + min (clock % 60) 59 = clock := by
    omega
  simp [readClock, readField_shown (by omega : clock / 3600 < 100), readMark_cons colon,
    readField_shown (by omega : clock / 60 % 60 < 100),
    readField_shown (by omega : clock % 60 < 100), readFraction_fractionText plain stops,
    inRange, noLeap, whole]

/-- The text of an instant is read back as the instant. -/
theorem ofText?_text {stamp : Timestamp} (plain : stamp.nanos < second)
    (positive : 0 ≤ (Date.ofDayNumber (Int.fdiv stamp.seconds 86400)).year)
    (known : inRange (Int.fdiv stamp.seconds 86400) = true) :
    ofText? stamp.text = some stamp := by
  have lower : 0 ≤ Int.fmod stamp.seconds 86400 := Int.fmod_nonneg_of_pos _ (by decide)
  have upper : Int.fmod stamp.seconds 86400 < 86400 := Int.fmod_lt_of_pos _ (by decide)
  have whole := Int.mul_fdiv_add_fmod stamp.seconds 86400
  have number := Date.dayNumber_ofDayNumber (Int.fdiv stamp.seconds 86400)
  have valid := Date.isValid_ofDayNumber (Int.fdiv stamp.seconds 86400)
  have noLeap : ¬ second ≤ stamp.nanos := by omega
  have time : readClock (shown 2 ((Int.fmod stamp.seconds 86400).toNat / 3600) ++
      ':' :: (shown 2 ((Int.fmod stamp.seconds 86400).toNat / 60 % 60) ++
      ':' :: (shown 2 ((Int.fmod stamp.seconds 86400).toNat % 60) ++
        ((fractionText stamp.nanos).toList ++ ['Z'])))) =
          some (((Int.fmod stamp.seconds 86400).toNat, stamp.nanos), ['Z']) := by
    apply readClock_written (by omega) plain
    intro char first
    cases first
    decide
  have text : stamp.text.toList =
      (yearText (Date.ofDayNumber (Int.fdiv stamp.seconds 86400)).year).toList ++
        '-' :: (shown 2 (Date.ofDayNumber (Int.fdiv stamp.seconds 86400)).month ++
        '-' :: (shown 2 (Date.ofDayNumber (Int.fdiv stamp.seconds 86400)).day ++
        'T' :: (shown 2 ((Int.fmod stamp.seconds 86400).toNat / 3600) ++
        ':' :: (shown 2 ((Int.fmod stamp.seconds 86400).toNat / 60 % 60) ++
        ':' :: (shown 2 ((Int.fmod stamp.seconds 86400).toNat % 60) ++
          ((fractionText stamp.nanos).toList ++ ['Z'])))))) := by
    simp [Timestamp.text, noLeap, Digits.paddedText, shown]
  have seconds : Int.fdiv stamp.seconds 86400 * 86400 +
      ((Int.fmod stamp.seconds 86400).toNat : Int) - 0 = stamp.seconds := by
    omega
  have utc : isBlank 'Z' = false := by decide
  rw [ofText?, text, ofChars?, readDate_written valid positive]
  simp only [bind, Option.bind, readSeparator, time]
  have trimmed : trimStart ['Z'] = ['Z'] := by simp [trimStart, utc]
  simp only [trimmed, readOffset, number]
  have final : ∀ total : Int, total = stamp.seconds →
      (if trimStart [] = [] ∧ inRange (Int.fdiv stamp.seconds 86400) = true ∧
        inRange (Int.fdiv total 86400) = true then some (⟨total, stamp.nanos⟩ : Timestamp)
      else none) = some stamp := by
    rintro total rfl
    simp [trimStart, known]
  exact final _ seconds

end Timestamp

namespace Moment

/-- Whether the grid's clock shows a year that has instants. -/
def HasInstant (moment : Moment) : Prop := Timestamp.inRange (moment / 86400000 : Nat) = true

instance (moment : Moment) : Decidable moment.HasInstant :=
  inferInstanceAs (Decidable (_ = true))

/-- The time of a moment is read back. -/
theorem ofText?_text {moment : Moment} (known : moment.HasInstant) :
    Timestamp.ofText? moment.timestamp.text = some moment.timestamp := by
  have day : Int.fdiv moment.timestamp.seconds 86400 = (moment / 86400000 : Nat) := by
    simp only [timestamp]
    rw [Int.fdiv_eq_ediv_of_nonneg _ (by decide)]
    omega
  apply Timestamp.ofText?_text
  · simp only [timestamp, Timestamp.second]
    omega
  · rw [day]
    exact Date.year_nonneg (Int.natCast_nonneg _)
  · rw [day]
    exact known

end Moment

end JobGrid
