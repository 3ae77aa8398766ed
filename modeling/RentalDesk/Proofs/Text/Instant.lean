import RentalDesk.Proofs.Text.Blank
import RentalDesk.Proofs.Text.Date
import RentalDesk.Time.Text

/-!
# Instants read back

The text of an instant in a stored row or in a line is read back as the instant, leap seconds and
years of more than four digits included. Every number in the text ends where something other than a
digit stands, and a reader skips no blanks, because there are none.
-/

namespace RentalDesk.Instant

open Text

/-! ## Numbers and marks -/

theorem undigited_take {cs : List Char} (h : Undigited cs) (n : Nat) : Undigited (cs.take n) := by
  intro c rest hcs
  cases cs with
  | nil => simp at hcs
  | cons c' cs =>
      cases n with
      | zero => simp at hcs
      | succ n =>
          rw [List.take_succ_cons] at hcs
          obtain ⟨rfl, -⟩ := List.cons.inj hcs
          exact h c' cs rfl

section Digits

variable {digits rest : List Char} (hdigits : ∀ c ∈ digits, c.isDigit = true)

include hdigits

theorem takeWhile_take {limit : Nat} (hlimit : digits.length ≤ limit) (hrest : Undigited rest) :
    ((digits ++ rest).take limit).takeWhile Char.isDigit = digits := by
  rw [List.take_append, List.take_of_length_le hlimit]
  exact takeWhile_digits hdigits (undigited_take hrest _)

theorem readNumber?_digits {limit : Nat} (hlimit : digits.length ≤ limit) (hne : digits ≠ [])
    (hrest : Undigited rest) :
    readNumber? limit (digits ++ rest) = some (natOfDigits digits, rest) := by
  simp only [readNumber?, takeWhile_take hdigits hlimit hrest, List.isEmpty_eq_false_iff.2 hne,
    Bool.false_eq_true, if_false, List.drop_left]

/-- Digits have no blanks in front. -/
theorem trimStart_digits (hne : digits ≠ []) : trimStart (digits ++ rest) = digits ++ rest := by
  cases digits with
  | nil => exact absurd rfl hne
  | cons c digits =>
      exact trimStart_cons_of_not_blank (isBlank_of_isDigit (hdigits c List.mem_cons_self))

end Digits

theorem readNumber?_paddedDigits {limit width n : Nat} {rest : List Char}
    (hlimit : (paddedDigits width n).length ≤ limit) (hrest : Undigited rest) :
    readNumber? limit (paddedDigits width n ++ rest) = some (n, rest) := by
  rw [readNumber?_digits (fun c => isDigit_of_mem_paddedDigits) hlimit (paddedDigits_ne_nil _ _)
    hrest, natOfDigits_paddedDigits]

/-- A field of two digits is read back. -/
theorem readField?_paddedDigits (low high : Nat) {n : Nat} {rest : List Char} (hlow : low ≤ n)
    (hhigh : n ≤ high) (hn : n < 100) (hrest : Undigited rest) :
    readField? low high (paddedDigits 2 n ++ rest) = some (n, rest) := by
  rw [readField?, trimStart_digits (fun c => isDigit_of_mem_paddedDigits) (paddedDigits_ne_nil _ _),
    readNumber?_paddedDigits (length_paddedDigits_of_lt (by decide) hn).le hrest]
  simp [hlow, hhigh]

theorem readMark?_cons {mark : Char} (hmark : isBlank mark = false) (rest : List Char) :
    readMark? mark (mark :: rest) = some rest := by
  rw [readMark?, trimStart_cons_of_not_blank hmark]
  exact if_pos rfl

/-- A year of four digits is written without a sign, which tells it from a longer one. -/
theorem readYear?_yearText (year : Int) {rest : List Char} (hrest : Undigited rest) :
    readYear? (yearText year ++ rest) = some (year, rest) := by
  rw [yearText]
  split
  · next hyear =>
      have hlt : year.toNat < 10000 := by omega
      have hlength : (paddedDigits 4 year.toNat).length = 4 :=
        length_paddedDigits_of_lt (by decide) hlt
      have hdigits : ∀ c ∈ paddedDigits 4 year.toNat, c.isDigit = true :=
        fun c => isDigit_of_mem_paddedDigits
      have hread := readNumber?_paddedDigits hlength.le hrest
      rw [readYear?, trimStart_digits hdigits (paddedDigits_ne_nil _ _)]
      cases hcs : paddedDigits 4 year.toNat with
      | nil => exact absurd hcs (paddedDigits_ne_nil _ _)
      | cons c cs =>
          have hc : c.isDigit = true := hdigits c (hcs ▸ List.mem_cons_self)
          rw [hcs] at hread
          split
          · next heq => exact absurd heq (cons_ne_cons_of_isDigit hc rfl _ _)
          · next heq => exact absurd heq (cons_ne_cons_of_isDigit hc rfl _ _)
          · simp only [hread, Option.map_some, Int.toNat_of_nonneg hyear.1]
  · next hyear =>
      have hread : readNumber? (paddedDigits 4 year.natAbs ++ rest).length
          (paddedDigits 4 year.natAbs ++ rest) = some (year.natAbs, rest) :=
        readNumber?_paddedDigits (by simp) hrest
      by_cases hneg : year < 0
      · rw [if_pos hneg, List.cons_append, readYear?, trimStart_cons_of_not_blank (by decide)]
        simp only [hread, Option.map_some]
        congr 2
        omega
      · rw [if_neg hneg, List.cons_append, readYear?, trimStart_cons_of_not_blank (by decide)]
        simp only [hread, Option.map_some]
        congr 2
        omega

/-! ## The decimals of the second -/

theorem readFraction?_point {width n : Nat} (hwidth : 0 < width) (hnine : width ≤ 9)
    (hn : n < tenPow width) {rest : List Char} (hrest : Undigited rest) :
    readFraction? ('.' :: (paddedDigits width n ++ rest)) =
      some (n * tenPow (9 - width), rest) := by
  have hlength := length_paddedDigits_of_lt hwidth hn
  have hdigits : ∀ c ∈ paddedDigits width n, c.isDigit = true :=
    fun c => isDigit_of_mem_paddedDigits
  have htake := takeWhile_take hdigits (hlength.le.trans hnine) hrest
  have hdrop : rest.dropWhile Char.isDigit = rest := dropWhile_digits (List.forall_mem_nil _) hrest
  simp only [readFraction?, htake, List.isEmpty_eq_false_iff.2 (paddedDigits_ne_nil _ _),
    Bool.false_eq_true, if_false, List.drop_left, natOfDigits_paddedDigits, hdrop]
  rw [hlength]

theorem undigited_fractionText (n : Nat) {rest : List Char} (hrest : Undigited rest) :
    Undigited (fractionText n ++ rest) := by
  rw [fractionText]
  split
  · exact hrest
  · split
    · exact undigited_cons rfl _
    · split <;> exact undigited_cons rfl _

/-- A zone that stands for UTC where it ends a text. -/
structure IsUtc (zone : List Char) : Prop where
  undigited : Undigited zone
  unpointed : readFraction? zone = some (0, zone)
  offset : readOffset? (trimStart zone) = some (0, [])

theorem isUtc_z : IsUtc ['Z'] := ⟨undigited_cons rfl _, rfl, rfl⟩

theorem isUtc_zeroOffset : IsUtc "+00:00".toList := ⟨undigited_cons rfl _, rfl, by decide⟩

theorem readFraction?_fractionText {n : Nat} (hn : n < nanosPerSecond) {zone : List Char}
    (hzone : IsUtc zone) : readFraction? (fractionText n ++ zone) = some (n, zone) := by
  have hlt : n < 1000000000 := hn
  have hnano : ∀ {m}, m = n → some (m, zone) = some (n, zone) := fun h => h ▸ rfl
  rw [fractionText]
  split
  · next hzero =>
      rw [hzero]
      exact hzone.unpointed
  split
  · next hmillis =>
      have hthousand : n / 1000000 < 1000 := by omega
      rw [List.cons_append,
        readFraction?_point (by decide) (by decide) hthousand hzone.undigited]
      exact hnano (Nat.div_mul_cancel (Nat.dvd_of_mod_eq_zero hmillis))
  split
  · next hmicros =>
      have hmillion : n / 1000 < 1000000 := by omega
      rw [List.cons_append,
        readFraction?_point (by decide) (by decide) hmillion hzone.undigited]
      exact hnano (Nat.div_mul_cancel (Nat.dvd_of_mod_eq_zero hmicros))
  · rw [List.cons_append, readFraction?_point (by decide) (by decide) hlt hzone.undigited]
    exact hnano (Nat.mul_one n)

/-! ## Date and time -/

theorem secondOfMinute_of_leap {i : Instant} (h : nanosPerSecond ≤ i.nano) :
    i.secondOfMinute = 60 := by
  have hnano := i.nano_lt
  have hleap := i.leap h
  simp only [secondOfMinute, nanosPerSecond] at *
  omega

theorem secondOfMinute_of_lt {i : Instant} (h : i.nano < nanosPerSecond) :
    i.secondOfMinute = (i.second % 60).toNat := by
  rw [secondOfMinute, Nat.div_eq_of_lt h, Nat.add_zero]

/-- The hour and the minute of a day leave the second of the minute over. -/
theorem second_eq (i : Instant) :
    i.second = i.date.toDay * secondsPerDay + (3600 * (i.timeOfDay.toNat / 3600 : Nat) +
      60 * (i.timeOfDay.toNat / 60 % 60 : Nat) + i.second % 60) := by
  have hday : i.date.toDay = i.second / secondsPerDay := Date.toDay_ofDay _
  rw [hday, timeOfDay, secondsPerDay]
  omega

/-- The parts of an instant make it up again. A second with the number 60 is the leap second after
the one before. -/
theorem ofCivil?_date (i : Instant) :
    ofCivil? i.date (i.timeOfDay.toNat / 3600) (i.timeOfDay.toNat / 60 % 60) i.secondOfMinute
      (i.nano % nanosPerSecond) 0 = some i := by
  have hparts : ofParts? i.second i.nano = some i :=
    dif_pos ⟨i.first_le, i.le_last, i.nano_lt, i.leap⟩
  have hrange : firstSecond ≤ i.second ∧ i.second ≤ lastSecond := ⟨i.first_le, i.le_last⟩
  have hsecond := i.second_eq
  rw [ofCivil?, if_pos ⟨Date.exists_ofDay _, by decide⟩]
  rcases Nat.lt_or_ge i.nano nanosPerSecond with h | h
  · have hlt : (i.second % 60).toNat ≠ 60 := by omega
    have hcast : ((i.second % 60).toNat : Int) = i.second % 60 := by omega
    simp only [secondOfMinute_of_lt h, if_neg hlt, hcast, ← hsecond, if_pos hrange, Int.sub_zero,
      Nat.mod_eq_of_lt h, hparts]
  · have hnano : nanosPerSecond + i.nano % nanosPerSecond = i.nano := by
      have hlt := i.nano_lt
      simp only [nanosPerSecond] at *
      omega
    rw [i.leap h] at hsecond
    simp only [secondOfMinute_of_leap h, if_true, Nat.cast_ofNat, ← hsecond, if_pos hrange,
      Int.sub_zero, hnano, hparts]

/-- An instant is read back from its text with a zone that stands for UTC. -/
theorem read?_write (i : Instant) {zone : List Char} (hzone : IsUtc zone) :
    read? (write 'T' zone i) = some i := by
  obtain ⟨hmonth, hmonth', hday, hday'⟩ : i.date.Exists := Date.exists_ofDay _
  have hdays : Date.daysInMonth i.date.year i.date.month ≤ 31 := by
    rw [Date.daysInMonth]
    repeat' split
    all_goals decide
  have htime : i.timeOfDay.toNat < 86400 := by
    rw [timeOfDay, secondsPerDay]
    omega
  have hsecond : i.secondOfMinute ≤ 60 := by
    rcases Nat.lt_or_ge i.nano nanosPerSecond with h | h
    · rw [secondOfMinute_of_lt h]
      omega
    · exact (secondOfMinute_of_leap h).le
  have hnano : i.nano % nanosPerSecond < nanosPerSecond := Nat.mod_lt _ (by decide)
  have hmark : ∀ (c : Char) (cs : List Char), c.isDigit = false → Undigited (c :: cs) :=
    fun c cs h => undigited_cons h cs
  have reads : ∀ {α : Type} {x : Option α} {a : α} (f : α → Option Instant), x = some a →
      (x >>= f) = f a := fun f h => h ▸ rfl
  simp only [write, List.append_assoc, List.cons_append]
  refine (reads _ (readYear?_yearText _ (hmark '-' _ rfl))).trans ?_
  refine (reads _ (readMark?_cons rfl _)).trans ?_
  refine (reads _ (readField?_paddedDigits 1 12 hmonth hmonth' (by omega)
    (hmark '-' _ rfl))).trans ?_
  refine (reads _ (readMark?_cons rfl _)).trans ?_
  refine (reads _ (readField?_paddedDigits 1 31 hday (hday'.trans hdays) (by omega)
    (hmark 'T' _ rfl))).trans ?_
  refine (reads _ (show readSeparator? ('T' :: _) = some _ from rfl)).trans ?_
  refine (reads _ (readField?_paddedDigits 0 23 (Nat.zero_le _) (by omega) (by omega)
    (hmark ':' _ rfl))).trans ?_
  refine (reads _ (readMark?_cons rfl _)).trans ?_
  refine (reads _ (readField?_paddedDigits 0 59 (Nat.zero_le _) (by omega) (by omega)
    (hmark ':' _ rfl))).trans ?_
  refine (reads _ (readMark?_cons rfl _)).trans ?_
  refine (reads _ (readField?_paddedDigits 0 60 (Nat.zero_le _) hsecond (by omega)
    (undigited_fractionText _ hzone.undigited))).trans ?_
  refine (reads _ (readFraction?_fractionText hnano hzone)).trans ?_
  refine (reads _ hzone.offset).trans ?_
  exact ofCivil?_date i

/-- An instant is read back from the text of a row. -/
theorem ofText?_rowText (i : Instant) : ofText? i.rowText = some i := by
  rw [ofText?, rowText, String.toList_ofList]
  exact i.read?_write isUtc_z

/-- An instant is read back from the line of a record. -/
theorem ofText?_lineText (i : Instant) : ofText? i.lineText = some i := by
  rw [ofText?, lineText, String.toList_ofList]
  exact i.read?_write isUtc_zeroOffset

end RentalDesk.Instant
