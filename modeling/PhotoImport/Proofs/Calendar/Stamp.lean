import PhotoImport.Template.Render
import PhotoImport.Proofs.Calendar.Pattern
import PhotoImport.Proofs.Decimal.Padded
import PhotoImport.Proofs.Template.Canonical

/-!
# Time stamps that are read and written again

A camera writes a moment as the pattern `yyyy:MM:dd HH:mm:ss` describes it. What is read as a stamp
and what the pattern writes are two definitions that know nothing of each other, and they agree
(`stamps_survive_rewriting`):

* a moment that is written in the pattern is read back, up to its fraction of a second;
* a text that is read as a moment is what the pattern writes for the moment, but for a sign in front
  and for blanks around it;
* so a marker that asks for a value in this pattern gives the value as it is.

All three follow from what a stamp is, which is said once (`readChars?_eq_some_iff`): a year of four
digits that may have a sign (`YearText`), and behind it the other fields of an existing moment in
two digits each (`behindYear`). For a number in a fixed count of digits is read exactly if it has
been filled up to that count (`number?_eq_some_iff`).
-/

namespace PhotoImport

/-! ### Existing moments -/

namespace DateTime

/-- A moment without its fraction of a second. -/
def wholeSeconds (t : DateTime) : DateTime := { t with nanosecond := 0, nanosecond_lt := by decide }

theorem daysIn_le (year : Int) (month : Nat) : daysIn year month ≤ 31 := by
  unfold daysIn
  split
  · split <;> decide
  all_goals decide

/-- Some fields are those of a moment if there is a moment with these fields. -/
theorem make?_eq_some_iff {t : DateTime} {year : Int}
    {month day hour minute second nanosecond : Nat} :
    make? year month day hour minute second nanosecond = some t ↔
      t.year = year ∧ t.month = month ∧ t.day = day ∧ t.hour = hour ∧ t.minute = minute ∧
        t.second = second ∧ t.nanosecond = nanosecond := by
  unfold make?
  constructor
  · intro h
    split at h
    · cases h
      exact ⟨rfl, rfl, rfl, rfl, rfl, rfl, rfl⟩
    · cases h
  · rintro ⟨rfl, rfl, rfl, rfl, rfl, rfl, rfl⟩
    exact dif_pos ⟨t.month_pos, t.month_le, t.day_pos, t.day_le, t.hour_lt, t.minute_lt,
      t.second_lt, t.nanosecond_lt⟩

end DateTime

namespace Stamp

open Decimal (padded)

variable {t : DateTime} {chars rest : List Char} {n width : Nat}

/-! ### Fields of a stamp -/

theorem digit?_eq_some_iff {c : Char} {d : Nat} :
    digit? c = some d ↔ c.isDigit = true ∧ c.toNat - '0'.toNat = d := by
  unfold digit?
  rw [Template.isDigit_iff]
  split
  · next digit =>
    rw [Option.some.injEq]
    exact ⟨fun h => ⟨digit, h⟩, fun h => h.2⟩
  · next other => exact ⟨nofun, fun h => absurd h.1 other⟩

/-- A number is read from its digits, of which there have to be enough. -/
theorem number?_eq_some_iff_digits {count value : Nat} :
    number? count value chars = some (n, rest) ↔ ∃ digits : List Char,
      chars = digits ++ rest ∧ digits.length = count ∧ (∀ c ∈ digits, c.isDigit = true) ∧
        Nat.ofDigitChars 10 digits value = n := by
  induction count generalizing value chars with
  | zero =>
    constructor
    · intro h
      cases h
      exact ⟨[], rfl, rfl, nofun, rfl⟩
    · rintro ⟨digits, rfl, none, -, rfl⟩
      rw [List.length_eq_zero_iff.1 none]
      rfl
  | succ count ih =>
    cases chars with
    | nil =>
      constructor
      · intro h
        cases h
      · rintro ⟨digits, nothing, some, -, -⟩
        rw [(List.append_eq_nil_iff.1 nothing.symm).1] at some
        cases some
    | cons c chars =>
      show (digit? c).bind (fun d => number? count (value * 10 + d) chars) = _ ↔ _
      rw [Option.bind_eq_some_iff]
      constructor
      · rintro ⟨d, hd, h⟩
        obtain ⟨digit, rfl⟩ := digit?_eq_some_iff.1 hd
        obtain ⟨digits, rfl, rfl, isDigits, rfl⟩ := ih.1 h
        refine ⟨c :: digits, rfl, rfl, List.forall_mem_cons.2 ⟨digit, isDigits⟩, ?_⟩
        rw [Nat.ofDigitChars_cons, Nat.mul_comm]
      · rintro ⟨_ | ⟨d, digits⟩, same, some, isDigits, rfl⟩
        · cases some
        · obtain ⟨rfl, rfl⟩ := List.cons.inj same
          rw [List.forall_mem_cons] at isDigits
          refine ⟨_, digit?_eq_some_iff.2 ⟨isDigits.1, rfl⟩, ih.2 ?_⟩
          refine ⟨digits, rfl, Nat.succ.inj some, isDigits.2, ?_⟩
          rw [Nat.ofDigitChars_cons, Nat.mul_comm]

/-- **A number of a fixed count of digits** is read where it has been filled up to that count. -/
theorem number?_eq_some_iff (pos : 0 < width) :
    number? width 0 chars = some (n, rest) ↔ n < 10 ^ width ∧ chars = padded n width ++ rest := by
  rw [number?_eq_some_iff_digits, ← Decimal.length_digits_le_iff pos]
  constructor
  · rintro ⟨digits, rfl, rfl, isDigits, rfl⟩
    have written := Decimal.padded_ofDigitChars isDigits (List.length_pos_iff.1 pos)
    have hlen := congrArg List.length written
    rw [Decimal.length_padded] at hlen
    exact ⟨by omega, by rw [written]⟩
  · rintro ⟨short, rfl⟩
    refine ⟨padded n width, rfl, ?_, fun _ => Decimal.isDigit_of_mem_padded,
      Decimal.ofDigitChars_padded n width⟩
    rw [Decimal.length_padded]
    omega

theorem expect?_eq_some_iff {c : Char} : expect? c chars = some rest ↔ chars = c :: rest := by
  cases chars with
  | nil => exact ⟨nofun, nofun⟩
  | cons d chars =>
    show (if d = c then some chars else none) = some rest ↔ _
    rw [List.cons.injEq]
    split
    · next same =>
      rw [Option.some.injEq]
      exact ⟨fun h => ⟨same, h⟩, fun h => h.2⟩
    · next other => exact ⟨nofun, fun h => absurd h.1 other⟩

/-! ### Whole stamps -/

/-- **A year in a stamp**: four digits, which may have a sign in front. -/
inductive YearText : Int → List Char → Prop
  | plain {n : Nat} (short : n < 10 ^ 4) : YearText n (padded n 4)
  | plus {n : Nat} (short : n < 10 ^ 4) : YearText n ('+' :: padded n 4)
  | minus {n : Nat} (short : n < 10 ^ 4) : YearText (-n) ('-' :: padded n 4)

/-- **What stands behind the year**: the other fields of a moment, in two digits each. -/
def behindYear (t : DateTime) : List Char :=
  ':' :: (padded t.month 2 ++ ':' :: (padded t.day 2 ++ ' ' :: (padded t.hour 2 ++ ':' ::
    (padded t.minute 2 ++ ':' :: padded t.second 2))))

/-- A text that begins with a number begins with a digit. -/
theorem isDigit_of_padded_append {c : Char} {behind : List Char}
    (h : padded n width ++ rest = c :: behind) : c.isDigit = true := by
  obtain ⟨d, digits, written⟩ := List.exists_cons_of_ne_nil (Decimal.padded_ne_nil n width)
  rw [written, List.cons_append, List.cons.injEq] at h
  have first : c ∈ padded n width := by
    rw [written, h.1]
    exact List.mem_cons_self
  exact Decimal.isDigit_of_mem_padded first

theorem year?_eq_some_iff {year : Int} :
    year? chars = some (year, rest) ↔ ∃ text, YearText year text ∧ chars = text ++ rest := by
  have four : 0 < 4 := by decide
  unfold year?
  constructor
  · intro h
    split at h
    all_goals
      obtain ⟨⟨n, behind⟩, number, result⟩ := Option.map_eq_some_iff.1 h
      cases result
      obtain ⟨short, rfl⟩ := (number?_eq_some_iff four).1 number
    · exact ⟨_, .minus short, rfl⟩
    · exact ⟨_, .plus short, rfl⟩
    · exact ⟨_, .plain short, rfl⟩
  · rintro ⟨text, year, rfl⟩
    cases year with
    | plus short =>
      exact Option.map_eq_some_iff.2 ⟨_, (number?_eq_some_iff four).2 ⟨short, rfl⟩, rfl⟩
    | minus short =>
      exact Option.map_eq_some_iff.2 ⟨_, (number?_eq_some_iff four).2 ⟨short, rfl⟩, rfl⟩
    | plain short =>
      -- neither sign is a digit
      split
      · next signed => exact absurd (isDigit_of_padded_append signed) (by decide)
      · next signed => exact absurd (isDigit_of_padded_append signed) (by decide)
      · exact Option.map_eq_some_iff.2 ⟨_, (number?_eq_some_iff four).2 ⟨short, rfl⟩, rfl⟩

/-- **What a stamp is**: a year, and behind it the other fields of an existing moment. -/
theorem readChars?_eq_some_iff :
    readChars? chars = some t ↔
      t.nanosecond = 0 ∧ ∃ year, YearText t.year year ∧ chars = year ++ behindYear t := by
  have two : 0 < 2 := by decide
  unfold readChars?
  simp only [Option.bind_eq_bind, Option.bind_eq_some_iff, Prod.exists, year?_eq_some_iff,
    expect?_eq_some_iff, number?_eq_some_iff two]
  constructor
  · rintro ⟨year, -, ⟨text, yearText, rfl⟩, -, rfl, month, -, ⟨-, rfl⟩, -, rfl, day, -, ⟨-, rfl⟩,
      -, rfl, hour, -, ⟨-, rfl⟩, -, rfl, minute, -, ⟨-, rfl⟩, -, rfl, second, behind, ⟨-, rfl⟩, h⟩
    split at h
    · next nothing =>
      obtain ⟨rfl, rfl, rfl, rfl, rfl, rfl, whole⟩ := DateTime.make?_eq_some_iff.1 h
      refine ⟨whole, text, yearText, ?_⟩
      rw [nothing, List.append_nil]
      rfl
    · cases h
  · rintro ⟨whole, text, yearText, rfl⟩
    -- every field of a moment has room in two digits
    have day_le : t.day ≤ 31 := t.day_le.trans (DateTime.daysIn_le t.year t.month)
    have room : t.month < 10 ^ 2 ∧ t.day < 10 ^ 2 ∧ t.hour < 10 ^ 2 ∧ t.minute < 10 ^ 2 ∧
        t.second < 10 ^ 2 := by
      have := t.month_le
      have := t.hour_lt
      have := t.minute_lt
      have := t.second_lt
      omega
    obtain ⟨month, day, hour, minute, second⟩ := room
    refine ⟨t.year, _, ⟨text, yearText, rfl⟩, _, rfl, t.month, _, ⟨month, rfl⟩, _, rfl, t.day, _,
      ⟨day, rfl⟩, _, rfl, t.hour, _, ⟨hour, rfl⟩, _, rfl, t.minute, _, ⟨minute, rfl⟩, _, rfl,
      t.second, [], ⟨second, (List.append_nil _).symm⟩, ?_⟩
    rw [if_pos rfl]
    exact DateTime.make?_eq_some_iff.2 ⟨rfl, rfl, rfl, rfl, rfl, rfl, whole⟩

/-! ### Blanks around a stamp -/

theorem isBlank_of_isDigit {c : Char} (h : c.isDigit = true) : isBlank c = false := by
  have bounds : 48 ≤ c.toNat ∧ c.toNat ≤ 57 := Char.isDigit_iff_toNat.1 h
  simp only [isBlank, Bool.or_eq_false_iff, Bool.and_eq_false_iff, decide_eq_false_iff_not,
    beq_eq_false_iff_ne]
  omega

/-- Nothing is taken away from a list that begins and ends with what stays. -/
theorem trimEnds_eq_self {α : Type} {p : α → Bool} {x y : α} {front back : List α}
    (first : p x = false) (last : p y = false) (h : x :: back = front ++ [y]) :
    trimEnds p (x :: back) = x :: back := by
  have begins : (x :: back).dropWhile p = x :: back := by
    rw [List.dropWhile_cons_of_neg]
    rw [first]
    exact Bool.false_ne_true
  have ends : (x :: back).reverse.dropWhile p = (x :: back).reverse := by
    rw [h, List.reverse_append, List.reverse_singleton, List.singleton_append,
      List.dropWhile_cons_of_neg]
    rw [last]
    exact Bool.false_ne_true
  rw [trimEnds, begins, ends, List.reverse_reverse]

/-- There are no blanks around a stamp whose year has no sign. -/
theorem trimEnds_plain (n : Nat) (t : DateTime) :
    trimEnds isBlank (padded n 4 ++ behindYear t) = padded n 4 ++ behindYear t := by
  obtain ⟨x, years, year⟩ := List.exists_cons_of_ne_nil (Decimal.padded_ne_nil n 4)
  obtain ⟨seconds, y, second⟩ :=
    (List.eq_nil_or_concat (padded t.second 2)).resolve_left (Decimal.padded_ne_nil t.second 2)
  have first : x ∈ padded n 4 := by
    rw [year]
    exact List.mem_cons_self
  have last : y ∈ padded t.second 2 := by
    rw [second]
    simp
  have ends : x :: (years ++ behindYear t)
      = (x :: (years ++ ':' :: (padded t.month 2 ++ ':' :: (padded t.day 2 ++ ' ' ::
        (padded t.hour 2 ++ ':' :: (padded t.minute 2 ++ ':' :: seconds)))))) ++ [y] := by
    simp [behindYear, second]
  rw [year, List.cons_append]
  exact trimEnds_eq_self (isBlank_of_isDigit (Decimal.isDigit_of_mem_padded first))
    (isBlank_of_isDigit (Decimal.isDigit_of_mem_padded last)) ends

/-! ### The pattern of a stamp -/

/-- **The pattern of a stamp**, with a year of four digits and two digits for each other field. -/
def pattern : String := "yyyy:MM:dd HH:mm:ss"

theorem format_pattern (t : DateTime) :
    DatePattern.format t pattern = String.ofList (padded t.year 4 ++ behindYear t) := by
  have parts : DatePattern.parts (DatePattern.items false pattern.toList)
      = [.field 'y' 4, .copied ':', .field 'M' 2, .copied ':', .field 'd' 2, .copied ' ',
        .field 'H' 2, .copied ':', .field 'm' 2, .copied ':', .field 's' 2] := by decide
  rw [DatePattern.format, DatePattern.formatChars, parts]
  simp [DatePattern.Part.write, DatePattern.field, behindYear]

/-- **What is written in the pattern is read back**, up to the fraction of a second. -/
theorem read?_format (t : DateTime) (positive : 0 ≤ t.year) (short : t.year ≤ 9999) :
    read? (DatePattern.format t pattern) = some t.wholeSeconds := by
  obtain ⟨n, year⟩ := Int.eq_ofNat_of_zero_le positive
  have room : n < 10 ^ 4 := by omega
  have yearText : YearText t.wholeSeconds.year (padded n 4) := by
    show YearText t.year (padded n 4)
    rw [year]
    exact .plain room
  rw [read?, format_pattern, String.toList_ofList, year, trimEnds_plain]
  exact readChars?_eq_some_iff.2 ⟨rfl, _, yearText, rfl⟩

/-- **A text without a sign in front**, apart from blanks. -/
structure Unsigned (text : String) : Prop where
  plus : ¬ ['+'] <+: (trimBlank text).toList
  minus : ¬ ['-'] <+: (trimBlank text).toList

/-- **What is read is what the pattern writes**, but for blanks around it. -/
theorem format_of_read? {text : String} (unsigned : Unsigned text) (h : read? text = some t) :
    DatePattern.format t pattern = trimBlank text := by
  have trimmed : (trimBlank text).toList = trimEnds isBlank text.toList := String.toList_ofList
  obtain ⟨-, year, yearText, written⟩ := readChars?_eq_some_iff.1 h
  rw [← trimmed] at written
  have plain : year = padded t.year 4 := by
    generalize t.year = y at yearText
    cases yearText with
    | plain short => rfl
    | plus short => exact absurd (written ▸ List.prefix_append ['+'] _) unsigned.plus
    | minus short => exact absurd (written ▸ List.prefix_append ['-'] _) unsigned.minus
  rw [format_pattern, ← plain, ← written, String.ofList_toList]

/-! ### Markers with the pattern -/

/-- A marker is compiled to a token with the whole pattern, colons and all. -/
theorem compile_marker (key : String) (hash : '#' ∉ key.toList) (colon : ':' ∉ key.toList) :
    Template.compile ("#exif:" ++ key ++ ":" ++ pattern ++ "#")
      = .ok ⟨[.metadata key (some pattern)]⟩ := by
  have fine : ∀ chars, some pattern.toList = some chars → chars ≠ [] ∧ '#' ∉ chars := by
    rintro chars ⟨⟩
    decide
  obtain ⟨m, category, parts, body⟩ :=
    Template.exists_marker_of_parts .exif colon hash fine (.inr nofun)
  have stands : m.StandsFor (.metadata key (some pattern)) := by
    have token := Template.Marker.StandsFor.metadata category parts
    rwa [String.ofList_toList] at token
  let cut : Template.Cut := .marker [] m (.text [])
  have leftmost : cut.Leftmost := ⟨Template.markerFree_nil _, Template.markerFree_nil _⟩
  have written : cut.written = ("#exif:" ++ key ++ ":" ++ pattern ++ "#").toList := by
    rw [Template.Cut.written_marker, Template.Cut.written_text, m.written_eq body, category]
    simp [Template.opening, withDetail, String.append_assoc]
  exact (Template.Cut.compile_eq_ok_iff written leftmost).2 (.marker [] stands (.text []))

theorem render_metadata {s : Subject} {key value : String} (h : s.values.lookup key = some value) :
    Template.render ⟨[.metadata key (some pattern)]⟩ s
      = match read? value with
        | some t => DatePattern.format t pattern
        | none => value := by
  have alone : Template.render ⟨[.metadata key (some pattern)]⟩ s
      = s.metadata key (some pattern) := by
    simp [Template.render, String.join, Token.render]
  rw [alone, Subject.metadata, h]
  cases stamp : read? value <;> simp [stamp]

/-! ### There and back -/

/-- **Time stamps survive being written again.** A moment of the years 0 to 9999 is read back from
what the pattern writes for it, up to its fraction of a second. A text without a sign in front that
is read as a moment is what the pattern writes for the moment, apart from blanks. So a marker that
asks for a value in this pattern gives the value, without the blanks around it if it is a stamp, and
as it is if it is none. -/
theorem stamps_survive_rewriting :
    (∀ t : DateTime, 0 ≤ t.year → t.year ≤ 9999 →
      read? (DatePattern.format t pattern) = some t.wholeSeconds) ∧
    (∀ (text : String) (t : DateTime), Unsigned text → read? text = some t →
      DatePattern.format t pattern = trimBlank text) ∧
    ∀ key : String, '#' ∉ key.toList → ':' ∉ key.toList →
      ∃ template, Template.compile ("#exif:" ++ key ++ ":" ++ pattern ++ "#") = .ok template ∧
        ∀ (s : Subject) (value : String), s.values.lookup key = some value → Unsigned value →
          (read? value = none → template.render s = value) ∧
          ((read? value).isSome = true → template.render s = trimBlank value) := by
  refine ⟨read?_format, fun _ _ => format_of_read?, fun key hash colon => ?_⟩
  refine ⟨_, compile_marker key hash colon, fun s value known unsigned => ⟨?_, ?_⟩⟩
  · intro none
    rw [render_metadata known, none]
  · intro some
    obtain ⟨t, stamp⟩ := Option.isSome_iff_exists.1 some
    rw [render_metadata known, stamp]
    exact format_of_read? unsigned stamp

/-- The stamp of a leap day with blanks around it, and a value that is no stamp. -/
theorem stamps_survive_rewriting_of_leap_day :
    let t : DateTime := ⟨2024, 2, 29, 18, 5, 59, 250000000, by decide, by decide, by decide,
      by decide, by decide, by decide, by decide, by decide⟩
    let stamp : String := "\t2024:02:29 18:05:59 "
    let size : String := " 1024x768"
    let s : Subject := { path := .empty, values := [("Size", size), ("DateTimeOriginal", stamp)] }
    (0 ≤ t.year ∧ t.year ≤ 9999 ∧ read? (DatePattern.format t pattern) = some t.wholeSeconds) ∧
    (Unsigned stamp ∧ read? stamp = some t.wholeSeconds ∧
      DatePattern.format t.wholeSeconds pattern = trimBlank stamp) ∧
    ('#' ∉ "DateTimeOriginal".toList ∧ ':' ∉ "DateTimeOriginal".toList ∧
      s.values.lookup "DateTimeOriginal" = some stamp ∧
      ∃ template, Template.compile ("#exif:" ++ "DateTimeOriginal" ++ ":" ++ pattern ++ "#")
        = .ok template ∧ template.render s = "2024:02:29 18:05:59") ∧
    ('#' ∉ "Size".toList ∧ ':' ∉ "Size".toList ∧ s.values.lookup "Size" = some size ∧
      Unsigned size ∧ read? size = none ∧
      ∃ template, Template.compile ("#exif:" ++ "Size" ++ ":" ++ pattern ++ "#") = .ok template ∧
        template.render s = size) := by
  intro t stamp size s
  obtain ⟨written, read, marked⟩ := stamps_survive_rewriting
  have unsigned : Unsigned stamp := ⟨by decide, by decide⟩
  have unsigned' : Unsigned size := ⟨by decide, by decide⟩
  have stamped : read? stamp = some t.wholeSeconds := by decide
  have none : read? size = none := by decide
  refine ⟨⟨by decide, by decide, written t (by decide) (by decide)⟩,
    ⟨unsigned, stamped, read stamp _ unsigned stamped⟩, ⟨by decide, by decide, by decide, ?_⟩,
    ⟨by decide, by decide, by decide, unsigned', none, ?_⟩⟩
  · obtain ⟨template, compiled, renders⟩ := marked "DateTimeOriginal" (by decide) (by decide)
    refine ⟨template, compiled, ?_⟩
    rw [(renders s stamp (by decide) unsigned).2 (by decide)]
    decide
  · obtain ⟨template, compiled, renders⟩ := marked "Size" (by decide) (by decide)
    exact ⟨template, compiled, (renders s size (by decide) unsigned').1 none⟩

end Stamp
end PhotoImport
