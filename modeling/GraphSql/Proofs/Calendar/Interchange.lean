import GraphSql.Calendar.Iso
import GraphSql.Proofs.Number.Digits
import Mathlib.Data.List.TakeWhile

/-!
# Interchange — a date-time that was written is read back

The written parts have a fixed width, but for years outside of 0 to 9999, which have a sign and end
at the dash behind them:

* `number_padded`, `year_yearText`, `fraction_fractionText` — one part each;
* `LeapInsideMinute`, `settled` — leap seconds whose text is that of another time, and that time;
* `date?_text`, `time?_text` — a date in front of other text, and a time of day at the end;
* `ofIso?_iso` — a whole date-time comes back settled.
-/

namespace GraphSql
namespace Iso

open Decimal

/-! ## Parts -/

theorem trimStart_padded (width n : Nat) (rest : List Char) :
    Text.trimStart (padded width n ++ rest) = padded width n ++ rest := by
  rcases exists_padded_cons width n with ⟨d, ds, hpadded, hd⟩
  have hblank : Text.isBlank d = false := Text.isBlank_of_isSpelling (Text.isSpelling_of_isDigit hd)
  rw [hpadded, List.cons_append]
  exact Text.trimStart_cons_kept (by simp [hblank])

theorem number_padded {width n : Nat} (hwidth : 0 < width) (hn : n < Nat.pow 10 width)
    (rest : List Char) : number width (padded width n ++ rest) = some (n, rest) := by
  have hlength : (padded width n).length = width := length_padded hwidth hn
  -- Digits behind the number are left out, since it has its full width already.
  have htake : ((padded width n ++ rest).takeWhile Char.isDigit).take width = padded width n := by
    rw [List.takeWhile_append_of_pos fun _ => isDigit_of_mem_padded]
    exact List.take_left' hlength
  rw [number, trimStart_padded]
  simp [htake, padded_ne_nil, value_padded]

theorem mark_cons {c : Char} (hc : Text.isBlank c = false) (rest : List Char) :
    mark c (c :: rest) = some rest := by
  rw [mark, Text.trimStart_cons_kept (by simp [hc])]
  simp

/-- Without a sign there are four digits. -/
theorem year_padded {n : Nat} (hn : n ≤ 9999) (rest : List Char) :
    year (padded 4 n ++ rest) = some ((n : Int), rest) := by
  have hnumber : number 4 (padded 4 n ++ rest) = some (n, rest) :=
    number_padded (by decide) (Nat.lt_succ_of_le hn) rest
  have hhead : ∀ c cs, padded 4 n ++ rest = c :: cs → c.isDigit = true := by
    intro c cs hcs
    rcases exists_padded_cons 4 n with ⟨d, ds, hpadded, hd⟩
    rw [hpadded, List.cons_append] at hcs
    rwa [← (List.cons.inj hcs).1]
  rw [year, trimStart_padded]
  split
  · rename_i hminus
    exact absurd (hhead _ _ hminus) (by decide)
  · rename_i hplus
    exact absurd (hhead _ _ hplus) (by decide)
  · rw [hnumber]
    rfl

theorem year_yearText (y : Int) (rest : List Char) :
    year (yearText y ++ '-' :: rest) = some (y, '-' :: rest) := by
  have hdigits : digits? (padded 4 y.natAbs ++ '-' :: rest) =
      some (padded 4 y.natAbs, '-' :: rest) :=
    digits?_append (padded_ne_nil _ _) (fun _ => isDigit_of_mem_padded) (by simp)
  have hminus : Text.isBlank '-' = false := by decide
  have hplus : Text.isBlank '+' = false := by decide
  by_cases hrange : 0 ≤ y ∧ y ≤ 9999
  · have habs : (y.toNat : Int) = y := by omega
    rw [yearText, if_pos hrange, year_padded (by omega), habs]
  · rw [yearText, if_neg hrange]
    by_cases hneg : y < 0
    · have habs : -(y.natAbs : Int) = y := by omega
      rw [if_pos hneg, List.cons_append, year, Text.trimStart_cons_kept (by simp [hminus])]
      simp only [hdigits, Option.map_some, value_padded, habs]
    · have habs : (y.natAbs : Int) = y := by omega
      rw [if_neg hneg, List.cons_append, year, Text.trimStart_cons_kept (by simp [hplus])]
      simp only [hdigits, Option.map_some, value_padded, habs]

/-- At the end of the text the places are as many as were written, and the rest are zeros. -/
theorem fraction_padded {width n : Nat} (hwidth : 0 < width) (hnine : width ≤ 9)
    (hn : n < Nat.pow 10 width) :
    fraction ('.' :: padded width n) = some (n * Nat.pow 10 (9 - width), []) := by
  have hlength : (padded width n).length = width := length_padded hwidth hn
  have hall : ∀ c ∈ padded width n, c.isDigit = true := fun _ => isDigit_of_mem_padded
  have htake : (padded width n).takeWhile Char.isDigit = padded width n :=
    List.takeWhile_eq_self_iff.2 hall
  have hdrop : (padded width n).dropWhile Char.isDigit = [] :=
    List.dropWhile_eq_nil_iff.2 hall
  have hnines : (padded width n).take 9 = padded width n :=
    List.take_of_length_le (by omega)
  simp [fraction, htake, hdrop, hnines, padded_ne_nil, value_padded, hlength]

theorem fraction_fractionText {nanos : Nat} (h : nanos < nanosPerSecond) :
    fraction (fractionText nanos) = some (nanos, []) := by
  rw [nanosPerSecond] at h
  unfold fractionText
  split
  · rename_i hzero
    rw [hzero]
    rfl
  split
  · rename_i hmillis
    have hsize : nanos / 1000000 < 1000 := by omega
    rw [fraction_padded (by decide) (by decide) hsize]
    have hnanos : nanos / 1000000 * Nat.pow 10 (9 - 3) = nanos := by
      change nanos / 1000000 * 1000000 = nanos
      omega
    rw [hnanos]
  split
  · rename_i hmicros
    have hsize : nanos / 1000 < 1000000 := by omega
    rw [fraction_padded (by decide) (by decide) hsize]
    have hnanos : nanos / 1000 * Nat.pow 10 (9 - 6) = nanos := by
      change nanos / 1000 * 1000 = nanos
      omega
    rw [hnanos]
  · rw [fraction_padded (by decide) (by decide) h]
    simp

end Iso

/-! ## Leap seconds -/

namespace TimeOfDay

variable {t : TimeOfDay}

/-- A leap second behind any second but the last one of its minute. -/
def LeapInsideMinute (t : TimeOfDay) : Prop :=
  t.isLeap = true ∧ t.second ≠ 59

instance (t : TimeOfDay) : Decidable t.LeapInsideMinute :=
  inferInstanceAs (Decidable (_ ∧ _))

/-- The time that the text of `t` stands for: a leap second inside a minute is written like the
second behind it, and only second 60 is read as a leap second. -/
def settled (t : TimeOfDay) : TimeOfDay :=
  if h : t.LeapInsideMinute then
    { t with
      second := t.second + 1
      nanos := t.nanos - nanosPerSecond
      second_range := by
        have hrange := t.second_range
        have hlast := h.2
        omega
      nanos_range := Nat.lt_of_le_of_lt (Nat.sub_le _ _) t.nanos_range }
  else t

theorem settled_eq_self_iff : t.settled = t ↔ ¬t.LeapInsideMinute := by
  constructor
  · intro h hinside
    have hsecond := congrArg second h
    simp [settled, hinside] at hsecond
  · intro h
    rw [settled, dif_neg h]

theorem not_leapInsideMinute_settled (t : TimeOfDay) : ¬t.settled.LeapInsideMinute := by
  by_cases h : t.LeapInsideMinute
  · intro hsettled
    -- What is left is less than a second, since there were less than two.
    have hleap : nanosPerSecond ≤ t.nanos - nanosPerSecond := by
      simpa [settled, h, isLeap] using hsettled.1
    have hrange := t.nanos_range
    omega
  · rwa [settled_eq_self_iff.2 h]

theorem make?_self (h : ¬t.LeapInsideMinute) :
    make? t.hour t.minute t.second t.nanos = some t := by
  have hleap : nanosPerSecond ≤ t.nanos → t.second = 59 := by
    intro hnanos
    by_contra hsecond
    exact h ⟨by simpa [isLeap] using hnanos, hsecond⟩
  rw [make?, dif_pos ⟨⟨t.hour_range, t.minute_range, t.second_range, t.nanos_range⟩, hleap⟩]

end TimeOfDay

namespace DateTime

def settled (t : DateTime) : DateTime :=
  { t with time := t.time.settled }

theorem settled_eq_self_iff {t : DateTime} : t.settled = t ↔ ¬t.time.LeapInsideMinute := by
  rw [← TimeOfDay.settled_eq_self_iff]
  cases t
  simp [settled]

end DateTime

/-! ## The whole text -/

theorem Date.make?_self (d : Date) : Date.make? d.year d.month d.day = some d := by
  rw [make?, dif_pos d.year_range, dif_pos d.month_range, dif_pos d.day_range]

namespace Iso

theorem date?_text (d : Date) (rest : List Char) : date? (d.text ++ rest) = some (d, rest) := by
  have hmonth : d.month < 100 := by
    have hrange := d.month_range
    omega
  have hday : d.day < 100 := by
    have hrange := d.day_range
    have hlast : daysInMonth d.year d.month ≤ 31 := by
      unfold daysInMonth
      split
      · split <;> omega
      · split <;> omega
    omega
  have hdash : Text.isBlank '-' = false := by decide
  have htext : d.text ++ rest = yearText d.year ++ '-' :: (Decimal.padded 2 d.month ++
      '-' :: (Decimal.padded 2 d.day ++ rest)) := by
    simp [Date.text]
  rw [date?, htext, year_yearText]
  simp [mark_cons hdash, number_padded Nat.zero_lt_two hmonth, number_padded Nat.zero_lt_two hday,
    Date.make?_self]

/-- Second 60 with less than a second on top is a leap second. -/
theorem make?_written (t : TimeOfDay) :
    (if t.writtenSecond = 60 then
        TimeOfDay.make? t.hour t.minute 59 (nanosPerSecond + t.fraction)
      else TimeOfDay.make? t.hour t.minute t.writtenSecond t.fraction) = some t.settled := by
  by_cases hinside : t.LeapInsideMinute
  · -- What is written is the second behind, and that is an ordinary one.
    have hself := TimeOfDay.make?_self t.not_leapInsideMinute_settled
    have hrange := t.second_range
    have hsixty : t.writtenSecond ≠ 60 := by
      rw [TimeOfDay.writtenSecond, if_pos hinside.1]
      have hlast := hinside.2
      omega
    rw [if_neg hsixty]
    simpa [TimeOfDay.settled, hinside, TimeOfDay.writtenSecond, TimeOfDay.fraction, hinside.1]
      using hself
  · have hself := TimeOfDay.make?_self hinside
    rw [TimeOfDay.settled_eq_self_iff.2 hinside]
    by_cases hleap : t.isLeap = true
    · have hlast : t.second = 59 := by
        by_contra hother
        exact hinside ⟨hleap, hother⟩
      have hnanos : nanosPerSecond + (t.nanos - nanosPerSecond) = t.nanos := by
        have hle : nanosPerSecond ≤ t.nanos := by simpa [TimeOfDay.isLeap] using hleap
        omega
      simpa [TimeOfDay.writtenSecond, TimeOfDay.fraction, hleap, hlast, hnanos] using hself
    · have hsixty : t.second ≠ 60 := by
        have hrange := t.second_range
        omega
      simpa [TimeOfDay.writtenSecond, TimeOfDay.fraction, hleap, hsixty] using hself

theorem time?_text (t : TimeOfDay) :
    time? (t.text ++ fractionText t.fraction) = some (t.settled, []) := by
  have hhour : t.hour < 100 := by
    have hrange := t.hour_range
    omega
  have hminute : t.minute < 100 := by
    have hrange := t.minute_range
    omega
  have hsecond : t.writtenSecond < 100 := by
    have hrange := t.second_range
    unfold TimeOfDay.writtenSecond
    split <;> omega
  have hfraction : t.fraction < nanosPerSecond := by
    have hrange := t.nanos_range
    by_cases hleap : nanosPerSecond ≤ t.nanos
    · simp only [TimeOfDay.fraction, TimeOfDay.isLeap, hleap, decide_true, if_true]
      omega
    · have hsmall : t.nanos < nanosPerSecond := Nat.lt_of_not_le hleap
      simpa [TimeOfDay.fraction, TimeOfDay.isLeap, hleap] using hsmall
  have hcolon : Text.isBlank ':' = false := by decide
  have htext : t.text ++ fractionText t.fraction = Decimal.padded 2 t.hour ++
      ':' :: (Decimal.padded 2 t.minute ++ ':' :: (Decimal.padded 2 t.writtenSecond ++
        fractionText t.fraction)) := by
    simp [TimeOfDay.text]
  have hmake := make?_written t
  rw [time?, htext, number_padded Nat.zero_lt_two hhour]
  simp only [bind, Option.bind, pure, mark_cons hcolon, number_padded Nat.zero_lt_two hminute,
    number_padded Nat.zero_lt_two hsecond, fraction_fractionText hfraction]
  by_cases hsixty : t.writtenSecond = 60
  · rw [if_pos hsixty] at hmake
    rw [if_pos hsixty, hmake]
  · rw [if_neg hsixty] at hmake
    rw [if_neg hsixty, hmake]

end Iso

theorem DateTime.ofIso?_iso (t : DateTime) : DateTime.ofIso? t.iso = some t.settled := by
  have hmark : Text.isBlank 'T' = false := by decide
  have htext : t.iso = t.date.text ++ 'T' :: (t.time.text ++ fractionText t.time.fraction) := by
    simp [iso]
  have hend : Text.trimStart [] = [] := rfl
  rw [ofIso?, htext, Iso.date?_text]
  simp only [bind, Option.bind, pure, Iso.mark_cons hmark, Iso.time?_text, hend]
  rfl

end GraphSql
