import Mathlib.Algebra.GroupWithZero.Nat
import Immutavault.Catalog

/-!
# The order of times and of their texts

Times are stored as texts and compared as texts. The fields of a text have a fixed width, so
that texts are compared field by field, the more significant fields first; the fraction, which
is left out when it is zero, is compared with the sign of the offset, which is before the point
in the alphabet. The fields themselves are ordered as the times are, through the years with and
without a leap day. So texts are ordered as times are, until the end of the year 9999.

What is selected by text is therefore what is selected by time, and the later of two times is
stored when the greater of two texts is.
-/

namespace Immutavault.TimestampTexts

open Values Timestamps Catalog

section Digits

/-- Texts of equal length in front are compared first. -/
theorem append_lt_append_iff {front other : List Char} (rest more : List Char)
    (even : front.length = other.length) :
    front ++ rest < other ++ more ↔ front < other ∨ front = other ∧ rest < more := by
  induction front generalizing other with
  | nil =>
    obtain rfl := List.eq_nil_of_length_eq_zero even.symm
    simp
  | cons first front inductionHypothesis =>
    cases other with
    | nil => cases even
    | cons second other =>
      have shorter : front.length = other.length := by simpa using even
      simp only [List.cons_append, List.cons_lt_cons_iff, inductionHypothesis shorter,
        List.cons.injEq]
      tauto

/-- The last digit of a number stands behind the others. -/
theorem padded_succ {width : ℕ} (positive : 0 < width) (value : ℕ) :
    (padded (width + 1) value).toList =
      (padded width (value / 10)).toList ++ [(value % 10).digitChar] := by
  simp only [padded, String.toList_ofList]
  by_cases small : value < 10
  · have whole : value / 10 = 0 := Nat.div_eq_of_lt small
    obtain ⟨width, rfl⟩ : ∃ fewer, width = fewer + 1 := ⟨width - 1, by omega⟩
    rw [whole, Nat.mod_eq_of_lt small, Nat.toDigits_of_lt_base small,
      Nat.toDigits_zero, List.length_singleton, List.length_singleton, Nat.add_sub_cancel,
      Nat.add_sub_cancel, List.replicate_succ']
  · rw [Nat.toDigits_of_base_le (by decide) (by omega), List.length_append,
      List.length_singleton, Nat.add_sub_add_right, List.append_assoc]

theorem padded_one {value : ℕ} (small : value < 10) :
    (padded 1 value).toList = [value.digitChar] := by
  simp [padded, Nat.toDigits_of_lt_base small]

theorem digitChar_lt {value other : ℕ} (ahead : value < other) (small : other < 10) :
    value.digitChar < other.digitChar := by
  have all : ∀ other < 10, ∀ value < other, value.digitChar < other.digitChar := by decide
  exact all other small value ahead

/-- A number that fits has just as many digits, and smaller numbers have smaller digits. -/
theorem padded_fits (width : ℕ) : (∀ value < 10 ^ (width + 1),
      (padded (width + 1) value).toList.length = width + 1) ∧
    ∀ other < 10 ^ (width + 1), ∀ value < other,
      (padded (width + 1) value).toList < (padded (width + 1) other).toList := by
  induction width with
  | zero =>
    refine ⟨fun value small => by rw [padded_one (by simpa using small)]; rfl, ?_⟩
    intro other small value ahead
    have bound : other < 10 := by simpa using small
    rw [padded_one bound, padded_one (ahead.trans bound), List.cons_lt_cons_iff]
    exact Or.inl (digitChar_lt ahead bound)
  | succ width inductionHypothesis =>
    obtain ⟨lengths, ordered⟩ := inductionHypothesis
    have shorter : ∀ value < 10 ^ (width + 1 + 1), value / 10 < 10 ^ (width + 1) := by
      intro value small
      rw [pow_succ] at small
      omega
    constructor
    · intro value small
      rw [padded_succ (Nat.succ_pos _), List.length_append, lengths _ (shorter value small)]
      rfl
    · intro other small value ahead
      have even := (lengths _ (shorter value (ahead.trans small))).trans
        (lengths _ (shorter other small)).symm
      rw [padded_succ (Nat.succ_pos _), padded_succ (Nat.succ_pos _),
        append_lt_append_iff _ _ even]
      rcases Nat.lt_or_ge (value / 10) (other / 10) with front | front
      · exact Or.inl (ordered _ (shorter other small) _ front)
      · have same : value / 10 = other / 10 := by omega
        refine Or.inr ⟨by rw [same], ?_⟩
        rw [List.cons_lt_cons_iff]
        exact Or.inl (digitChar_lt (by omega) (Nat.mod_lt _ (by decide)))

/-- Texts behind numbers of a fixed width are compared when the numbers are the same. -/
theorem padded_append_lt {width value other : ℕ} {rest more : List Char}
    (fits : value < 10 ^ (width + 1)) (bound : other < 10 ^ (width + 1))
    (ahead : value < other ∨ value = other ∧ rest < more) :
    (padded (width + 1) value).toList ++ rest < (padded (width + 1) other).toList ++ more := by
  obtain ⟨lengths, ordered⟩ := padded_fits width
  rw [append_lt_append_iff _ _ ((lengths _ fits).trans (lengths _ bound).symm)]
  rcases ahead with ahead | ⟨rfl, behind⟩
  · exact Or.inl (ordered _ bound _ ahead)
  · exact Or.inr ⟨rfl, behind⟩

end Digits

section Calendar

/-- A day by its cycle of 400 years, its century, its four years and its year, and the day in
the year, of which only a leap year has 366. -/
theorem civil_parts (ordinal : ℕ) : ∃ cycle century quad year rest,
    civil ordinal = (400 * cycle + 100 * century + 4 * quad + year + 1,
      monthDay (400 * cycle + 100 * century + 4 * quad + year + 1) 1 rest 11) ∧
    ordinal = 146097 * cycle + 36524 * century + 1461 * quad + 365 * year + rest ∧
    century ≤ 3 ∧ quad ≤ 24 ∧ year ≤ 3 ∧ rest ≤ 365 ∧
      (rest = 365 → year = 3 ∧ (quad < 24 ∨ century = 3)) := by
  generalize cycle : ordinal / 146097 = c
  generalize inCycle : ordinal % 146097 = r
  generalize century : min (r / 36524) 3 = k
  generalize inCentury : r - k * 36524 = s
  generalize quad : s / 1461 = q
  generalize inQuad : s % 1461 = u
  generalize year : min (u / 365) 3 = y
  have whole : ordinal = 146097 * c + r ∧ r < 146097 := by omega
  have hundred : k ≤ 3 ∧ r = 36524 * k + s ∧ (s < 36524 ∨ k = 3 ∧ s ≤ 36524) := by omega
  have four : s = 1461 * q + u ∧ q ≤ 24 ∧ u < 1461 ∧ (q = 24 → k ≠ 3 → u < 1460) := by omega
  have one : y ≤ 3 ∧ 365 * y ≤ u ∧ (u - 365 * y ≤ 364 ∨ u = 1460 ∧ y = 3) := by omega
  refine ⟨c, k, q, y, u - y * 365, ?_, by omega, by omega, by omega, by omega, by omega, by omega⟩
  simp only [civil, cycle, inCycle, century, inCentury, quad, inQuad, year]

/-- The days of so many years. -/
def daysOf (years : ℕ) : ℕ := 365 * years + years / 4 - years / 100 + years / 400

/-- A day falls into its year, and has its month and day by the day of the year. -/
theorem civil_year (ordinal : ℕ) : ∃ years rest,
    civil ordinal = (years + 1, monthDay (years + 1) 1 rest 11) ∧
      ordinal = daysOf years + rest ∧ ordinal < daysOf (years + 1) ∧ rest ≤ 365 := by
  obtain ⟨cycle, century, quad, year, rest, same, whole, _, _, _, short, leap⟩ :=
    civil_parts ordinal
  have fours : (400 * cycle + 100 * century + 4 * quad + year) / 4 =
      100 * cycle + 25 * century + quad := by omega
  have hundreds : (400 * cycle + 100 * century + 4 * quad + year) / 100 =
      4 * cycle + century := by omega
  have cycles : (400 * cycle + 100 * century + 4 * quad + year) / 400 = cycle := by omega
  have nextFour : (400 * cycle + 100 * century + 4 * quad + year + 1) / 4 =
      100 * cycle + 25 * century + quad + (year + 1) / 4 := by omega
  have nextHundred : (400 * cycle + 100 * century + 4 * quad + year + 1) / 100 =
      4 * cycle + century + (4 * quad + year + 1) / 100 := by omega
  have nextCycle : (400 * cycle + 100 * century + 4 * quad + year + 1) / 400 =
      cycle + (100 * century + 4 * quad + year + 1) / 400 := by omega
  refine ⟨_, rest, same, ?_, ?_, short⟩
  · rw [daysOf, fours, hundreds, cycles]
    omega
  · rw [daysOf, nextFour, nextHundred, nextCycle]
    clear fours hundreds cycles nextFour nextHundred nextCycle same
    omega

theorem daysOf_mono {years other : ℕ} (ordered : years ≤ other) : daysOf years ≤ daysOf other := by
  induction other, ordered using Nat.le_induction with
  | base => exact le_rfl
  | succ other _ inductionHypothesis =>
    refine inductionHypothesis.trans ?_
    unfold daysOf
    omega

theorem monthDay_bounds (year month offset fuel : ℕ) :
    month ≤ (monthDay year month offset fuel).1 ∧
      (monthDay year month offset fuel).1 ≤ month + fuel ∧
      (monthDay year month offset fuel).2 ≤ max 31 (offset + 1 - 28 * fuel) := by
  induction fuel generalizing month offset with
  | zero => simp [monthDay]
  | succ fuel inductionHypothesis =>
    have days : 28 ≤ daysInMonth year month ∧ daysInMonth year month ≤ 31 := by
      unfold daysInMonth
      split
      · split <;> omega
      · split <;> omega
    rw [monthDay]
    split
    · dsimp only
      omega
    · obtain ⟨low, high, few⟩ := inductionHypothesis (month + 1) (offset - daysInMonth year month)
      refine ⟨by omega, by omega, few.trans ?_⟩
      omega

/-- Later days of a year have a later month, or a later day in the same one. -/
theorem monthDay_lt {offset other : ℕ} (year month fuel : ℕ) (ahead : offset < other) :
    (monthDay year month offset fuel).1 < (monthDay year month other fuel).1 ∨
      (monthDay year month offset fuel).1 = (monthDay year month other fuel).1 ∧
        (monthDay year month offset fuel).2 < (monthDay year month other fuel).2 := by
  induction fuel generalizing month offset other with
  | zero => exact Or.inr ⟨rfl, Nat.succ_lt_succ ahead⟩
  | succ fuel inductionHypothesis =>
    rw [monthDay, monthDay]
    split
    · split
      · exact Or.inr ⟨rfl, Nat.succ_lt_succ ahead⟩
      · exact Or.inl (monthDay_bounds year (month + 1) _ fuel).1
    · rw [if_neg (by omega)]
      exact inductionHypothesis (month + 1) (by omega)

/-- Later days have a later year, or a later month in the same one, or a later day in it. -/
theorem civil_lt {ordinal other : ℕ} (ahead : ordinal < other) :
    (civil ordinal).1 < (civil other).1 ∨ (civil ordinal).1 = (civil other).1 ∧
      ((civil ordinal).2.1 < (civil other).2.1 ∨ (civil ordinal).2.1 = (civil other).2.1 ∧
        (civil ordinal).2.2 < (civil other).2.2) := by
  obtain ⟨years, rest, same, whole, _, _⟩ := civil_year ordinal
  obtain ⟨later, more, equal, entire, bound, _⟩ := civil_year other
  rw [same, equal]
  rcases Nat.lt_trichotomy years later with front | rfl | behind
  · exact Or.inl (Nat.succ_lt_succ front)
  · exact Or.inr ⟨rfl, monthDay_lt _ 1 11 (by omega)⟩
  · have grown : daysOf (later + 1) ≤ daysOf years := daysOf_mono behind
    exfalso
    omega

/-- The fields of a day have their widths until the end of the year 9999. -/
theorem civil_fits {ordinal : ℕ} (early : ordinal < 3652059) :
    (civil ordinal).1 < 10000 ∧ (civil ordinal).2.1 < 100 ∧ (civil ordinal).2.2 < 100 := by
  obtain ⟨years, rest, same, whole, _, short⟩ := civil_year ordinal
  obtain ⟨_, month, date⟩ := monthDay_bounds (years + 1) 1 rest 11
  rw [same]
  refine ⟨?_, by dsimp only; omega, by dsimp only; omega⟩
  by_contra late
  have ordered : daysOf 9999 ≤ daysOf years := daysOf_mono (by dsimp only at late; omega)
  have last : daysOf 9999 = 3652059 := by decide
  omega

end Calendar

section Texts

/-- The text behind the seconds: the fraction, unless it is zero, and the offset. -/
def tailText (fraction : ℕ) : List Char :=
  (if fraction = 0 then [] else '.' :: (padded 6 fraction).toList) ++ "+00:00".toList

theorem tailText_lt {fraction other : ℕ} (ahead : fraction < other) (small : other < second) :
    tailText fraction < tailText other := by
  have bound : other < 10 ^ (5 + 1) := small
  unfold tailText
  rw [if_neg (by omega : ¬ other = 0)]
  split
  · rw [List.nil_append, List.cons_append]
    have sign : "+00:00".toList = '+' :: "00:00".toList := rfl
    rw [sign, List.cons_lt_cons_iff]
    exact Or.inl (by decide)
  · rw [List.cons_append, List.cons_append, List.cons_lt_cons_iff]
    exact Or.inr ⟨rfl, padded_append_lt (ahead.trans bound) bound (Or.inl ahead)⟩

/-- A field with the sign behind it. -/
theorem field_lt {width value other : ℕ} {sign : Char} {rest more : List Char}
    (fits : value < 10 ^ (width + 1)) (bound : other < 10 ^ (width + 1))
    (ahead : value < other ∨ value = other ∧ rest < more) :
    (padded (width + 1) value).toList ++ sign :: rest <
      (padded (width + 1) other).toList ++ sign :: more := by
  refine padded_append_lt fits bound (ahead.imp_right fun behind => ⟨behind.1, ?_⟩)
  rw [List.cons_lt_cons_iff]
  exact Or.inr ⟨rfl, behind.2⟩

theorem isoformat_toList (time : Timestamp) : (isoformat time).toList =
    (padded 4 (civil (time / day)).1).toList ++ '-' ::
    ((padded 2 (civil (time / day)).2.1).toList ++ '-' ::
    ((padded 2 (civil (time / day)).2.2).toList ++ 'T' ::
    ((padded 2 (time / second % 86400 / 3600)).toList ++ ':' ::
    ((padded 2 (time / second % 86400 / 60 % 60)).toList ++ ':' ::
    ((padded 2 (time / second % 86400 % 60)).toList ++ tailText (time % second)))))) := by
  have hyphen : "-".toList = ['-'] := rfl
  have letter : "T".toList = ['T'] := rfl
  have colon : ":".toList = [':'] := rfl
  have point : ".".toList = ['.'] := rfl
  have fraction : (if time % second = 0 then "" else "." ++ padded 6 (time % second)).toList ++
      "+00:00".toList = tailText (time % second) := by
    unfold tailText
    split
    · rfl
    · rw [String.toList_append, point]
      rfl
  have shape : isoformat time = padded 4 (civil (time / day)).1 ++ "-" ++
      padded 2 (civil (time / day)).2.1 ++ "-" ++ padded 2 (civil (time / day)).2.2 ++ "T" ++
      padded 2 (time / second % 86400 / 3600) ++ ":" ++
      padded 2 (time / second % 86400 / 60 % 60) ++ ":" ++
      padded 2 (time / second % 86400 % 60) ++
      (if time % second = 0 then "" else "." ++ padded 6 (time % second)) ++ "+00:00" := rfl
  rw [shape]
  simp only [String.toList_append, List.append_assoc, hyphen, letter, colon, fraction,
    List.cons_append, List.nil_append]

/-- Hours, minutes, seconds and what is behind them are ordered as the seconds of the day. -/
theorem clock_lt {seconds other : ℕ} {rest more : List Char} (bound : seconds < 86400)
    (early : other < 86400)
    (ahead : seconds < other ∨ seconds = other ∧ rest < more) :
    (padded 2 (seconds / 3600)).toList ++ ':' :: ((padded 2 (seconds / 60 % 60)).toList ++ ':' ::
        ((padded 2 (seconds % 60)).toList ++ rest)) <
      (padded 2 (other / 3600)).toList ++ ':' :: ((padded 2 (other / 60 % 60)).toList ++ ':' ::
        ((padded 2 (other % 60)).toList ++ more)) := by
  have fits : ∀ value < 60, value < 10 ^ (1 + 1) := fun value small => by
    rw [pow_succ, pow_one]
    omega
  have order : seconds / 3600 < other / 3600 ∨ seconds / 3600 = other / 3600 ∧
      (seconds / 60 % 60 < other / 60 % 60 ∨ seconds / 60 % 60 = other / 60 % 60 ∧
        (seconds % 60 < other % 60 ∨ seconds % 60 = other % 60 ∧ rest < more)) := by
    rcases ahead with ahead | ⟨rfl, behind⟩
    · omega
    · exact Or.inr ⟨rfl, Or.inr ⟨rfl, Or.inr ⟨rfl, behind⟩⟩⟩
  refine field_lt (fits _ (by omega)) (fits _ (by omega)) (order.imp_right ?_)
  rintro ⟨hours, order⟩
  refine ⟨hours, field_lt (fits _ (by omega)) (fits _ (by omega)) (order.imp_right ?_)⟩
  rintro ⟨minutes, order⟩
  exact ⟨minutes, padded_append_lt (fits _ (by omega)) (fits _ (by omega)) order⟩

/-- Year, month, day and what is behind them are ordered as the days. -/
theorem date_lt {ordinal other : ℕ} {rest more : List Char} (bound : ordinal < 3652059)
    (early : other < 3652059) (ahead : ordinal < other ∨ ordinal = other ∧ rest < more) :
    (padded 4 (civil ordinal).1).toList ++ '-' :: ((padded 2 (civil ordinal).2.1).toList ++ '-' ::
        ((padded 2 (civil ordinal).2.2).toList ++ 'T' :: rest)) <
      (padded 4 (civil other).1).toList ++ '-' :: ((padded 2 (civil other).2.1).toList ++ '-' ::
        ((padded 2 (civil other).2.2).toList ++ 'T' :: more)) := by
  obtain ⟨year, month, date⟩ := civil_fits bound
  obtain ⟨lastYear, lastMonth, lastDate⟩ := civil_fits early
  have order : (civil ordinal).1 < (civil other).1 ∨ (civil ordinal).1 = (civil other).1 ∧
      ((civil ordinal).2.1 < (civil other).2.1 ∨ (civil ordinal).2.1 = (civil other).2.1 ∧
        ((civil ordinal).2.2 < (civil other).2.2 ∨ (civil ordinal).2.2 = (civil other).2.2 ∧
          rest < more)) := by
    rcases ahead with ahead | ⟨rfl, behind⟩
    · rcases civil_lt ahead with years | ⟨years, months | ⟨months, dates⟩⟩
      · exact Or.inl years
      · exact Or.inr ⟨years, Or.inl months⟩
      · exact Or.inr ⟨years, Or.inr ⟨months, Or.inl dates⟩⟩
    · exact Or.inr ⟨rfl, Or.inr ⟨rfl, Or.inr ⟨rfl, behind⟩⟩⟩
  refine field_lt year lastYear (order.imp_right ?_)
  rintro ⟨years, order⟩
  refine ⟨years, field_lt month lastMonth (order.imp_right ?_)⟩
  rintro ⟨months, order⟩
  exact ⟨months, field_lt date lastDate order⟩

/-- A later time has a greater text. -/
theorem isoformat_lt {time other : ℕ} (ahead : time < other)
    (early : other < 3652059 * day) : isoformat time < isoformat other := by
  have micro : second = 1000000 := rfl
  have whole : day = 86400000000 := by decide
  rw [whole] at early
  have order : time / day < other / day ∨ time / day = other / day ∧
      (time / second % 86400 < other / second % 86400 ∨
        time / second % 86400 = other / second % 86400 ∧ time % second < other % second) := by
    rw [whole, micro]
    omega
  rw [String.lt_iff, isoformat_toList, isoformat_toList]
  refine date_lt (by rw [whole]; omega) (by rw [whole]; omega) (order.imp_right ?_)
  rintro ⟨days, order⟩
  refine ⟨days, clock_lt (Nat.mod_lt _ (by decide)) (Nat.mod_lt _ (by decide))
    (order.imp_right ?_)⟩
  rintro ⟨seconds, order⟩
  exact ⟨seconds, tailText_lt order (Nat.mod_lt _ (by decide))⟩

/-- Times that have a text of this form: those until the end of the year 9999. -/
def Instant : Type := {time : ℕ // time < 3652059 * day}

def Instant.text (instant : Instant) : String := isoformat instant.val

/-- Texts are ordered exactly as times are. -/
theorem text_lt_iff (one other : Instant) : one.text < other.text ↔ one.val < other.val := by
  constructor
  · intro ahead
    rcases Nat.lt_trichotomy one.val other.val with front | same | behind
    · exact front
    · rw [Instant.text, Instant.text, same] at ahead
      exact absurd ahead (String.lt_irrefl _)
    · exact absurd (String.lt_trans ahead (isoformat_lt behind one.property)) (String.lt_irrefl _)
  · exact fun ahead => isoformat_lt ahead other.property

end Texts

section Tables

/-- A recovery point as it is stored: what the two queries read of it. -/
structure StoredPoint where
  snapshot_id : String
  immutable_until : String
  expired : Bool

/-- The snapshots that are protected at a moment, which is now when none is given. -/
def protectedSnapshotIds (points : List StoredPoint) (moment : Option String) (utcnow : String) :
    List String :=
  let given := moment.getD ""
  let instant := if given = "" then utcnow else given
  (points.filter fun point => instant < point.immutable_until ∧ point.expired = false).map
    (·.snapshot_id)

/-- The greater of two texts, the first one if they are the same. -/
def greater (current other : String) : String := if current < other then other else current

/-- Extend a point's immutability: what is stored for it, and all points then. -/
def extendImmutability (points : List StoredPoint) (snapshot_id immutable_until : String) :
    Except Exn (String × List StoredPoint) :=
  match points.find? fun point => point.snapshot_id = snapshot_id ∧ point.expired = false with
  | none => .error ⟨.valueError, "unknown recovery point"⟩
  | some row =>
    let new_until := greater row.immutable_until immutable_until
    .ok (new_until, points.map fun point =>
      if point.snapshot_id = snapshot_id then { point with immutable_until := new_until }
      else point)

/-- A recovery point with its time. -/
structure DatedPoint where
  snapshot_id : String
  immutable_until : Instant
  expired : Bool

def DatedPoint.stored (point : DatedPoint) : StoredPoint :=
  ⟨point.snapshot_id, point.immutable_until.text, point.expired⟩

/-- The later of two times. -/
def Instant.later (one other : Instant) : Instant := if one.val < other.val then other else one

/-- The live points whose immutability ends later than a moment. -/
def DatedPoint.protectedAt (points : List DatedPoint) (moment : Instant) : List DatedPoint :=
  points.filter fun point => moment.val < point.immutable_until.val ∧ point.expired = false

/-- The points with the later of two times for one of them. -/
def DatedPoint.extended (points : List DatedPoint) (snapshot_id : String) (new_until : Instant) :
    List DatedPoint :=
  points.map fun point =>
    if point.snapshot_id = snapshot_id then { point with immutable_until := new_until } else point

theorem text_ne_empty (instant : Instant) : instant.text ≠ "" := by
  intro empty
  have texts := isoformat_toList instant.val
  rw [show isoformat instant.val = "" from empty] at texts
  have signs := congrArg (List.elem '-') texts
  simp at signs

theorem greater_text (one other : Instant) :
    greater one.text other.text = (one.later other).text := by
  rw [greater, Instant.later, apply_ite Instant.text]
  simp only [text_lt_iff]

theorem protected_stored (points : List DatedPoint) (moment utcnow : Instant) :
    protectedSnapshotIds (points.map DatedPoint.stored) (some moment.text) utcnow.text =
        (DatedPoint.protectedAt points moment).map (·.snapshot_id) ∧
      protectedSnapshotIds (points.map DatedPoint.stored) none utcnow.text =
        (DatedPoint.protectedAt points utcnow).map (·.snapshot_id) := by
  have selects : ∀ instant : Instant, ((points.map DatedPoint.stored).filter fun point =>
      instant.text < point.immutable_until ∧ point.expired = false).map (·.snapshot_id) =
        (DatedPoint.protectedAt points instant).map (·.snapshot_id) := by
    intro instant
    rw [List.filter_map, List.map_map, DatedPoint.protectedAt]
    refine congrArg (List.map _) (List.filter_congr fun point _ => ?_)
    simp only [Function.comp_apply, DatedPoint.stored, text_lt_iff]
  constructor
  · rw [protectedSnapshotIds, Option.getD_some, if_neg (text_ne_empty moment)]
    exact selects moment
  · rw [protectedSnapshotIds, Option.getD_none, if_pos rfl]
    exact selects utcnow

/-- The later of the two times is stored for a live point. -/
theorem extend_stored (points : List DatedPoint) (snapshot_id : String) (given : Instant) :
    ((points.find? fun point => point.snapshot_id = snapshot_id ∧ point.expired = false) = none →
      extendImmutability (points.map DatedPoint.stored) snapshot_id given.text =
        .error ⟨.valueError, "unknown recovery point"⟩) ∧
    ∀ point, (points.find? fun point => point.snapshot_id = snapshot_id ∧
        point.expired = false) = some point →
      extendImmutability (points.map DatedPoint.stored) snapshot_id given.text =
        .ok ((point.immutable_until.later given).text,
          (DatedPoint.extended points snapshot_id (point.immutable_until.later given)).map
            DatedPoint.stored) := by
  have finds : (points.map DatedPoint.stored).find? (fun point =>
      point.snapshot_id = snapshot_id ∧ point.expired = false) =
        (points.find? fun point => point.snapshot_id = snapshot_id ∧
          point.expired = false).map DatedPoint.stored := by
    rw [List.find?_map]
    rfl
  constructor
  · intro none
    rw [extendImmutability, finds, none]
    rfl
  · intro point found
    rw [extendImmutability, finds, found]
    simp only [Option.map_some, DatedPoint.stored, greater_text, DatedPoint.extended,
      List.map_map]
    refine congrArg (fun points => Except.ok (_, points)) (List.map_congr_left fun other _ => ?_)
    by_cases same : other.snapshot_id = snapshot_id
    · simp [DatedPoint.stored, same]
    · simp [DatedPoint.stored, same]

/-- Texts of times are ordered as the times are. So the snapshots that are protected at any
moment, or now, are the ones of the live points whose immutability ends later, and extending
immutability stores the later of two times. -/
theorem texts_order_times :
    (∀ one other : Instant, one.text < other.text ↔ one.val < other.val) ∧
    (∀ (points : List DatedPoint) (moment utcnow : Instant),
      protectedSnapshotIds (points.map DatedPoint.stored) (some moment.text) utcnow.text =
          (DatedPoint.protectedAt points moment).map (·.snapshot_id) ∧
        protectedSnapshotIds (points.map DatedPoint.stored) none utcnow.text =
          (DatedPoint.protectedAt points utcnow).map (·.snapshot_id)) ∧
    ∀ (points : List DatedPoint) (snapshot_id : String) (given : Instant) (point : DatedPoint),
      (points.find? fun point => point.snapshot_id = snapshot_id ∧ point.expired = false) =
          some point →
        extendImmutability (points.map DatedPoint.stored) snapshot_id given.text =
          .ok ((point.immutable_until.later given).text,
            (DatedPoint.extended points snapshot_id (point.immutable_until.later given)).map
              DatedPoint.stored) :=
  ⟨text_lt_iff, protected_stored, fun points snapshot_id given point =>
    (extend_stored points snapshot_id given).2 point⟩

/-- The first instant of the year 1970, and one microsecond later. -/
def epoch : Instant := ⟨719162 * day, by decide⟩

def epochBehind : Instant := ⟨719162 * day + 1, by decide⟩

/-- A fraction is later than none. -/
theorem held_point : extendImmutability ([⟨"4f1c", epoch, false⟩].map DatedPoint.stored) "4f1c"
    epochBehind.text = .ok (epochBehind.text, [⟨"4f1c", epochBehind.text, false⟩]) :=
  texts_order_times.2.2 [⟨"4f1c", epoch, false⟩] "4f1c" epochBehind ⟨"4f1c", epoch, false⟩ rfl

/-- The points of the catalogue as they are stored. -/
def storedPoints (db : Database) : List StoredPoint :=
  db.points.rows.map fun entry => ⟨entry.1, isoformat entry.2.immutable_until, entry.2.expired⟩

/-- The catalogue, which compares times, selects what is selected by their texts. -/
theorem protected_catalog (db : Database) (now : Instant)
    (early : ∀ entry ∈ db.points.rows, entry.2.immutable_until < 3652059 * day) :
    (Transaction.protectedSnapshotIds now.val).read db =
      protectedSnapshotIds (storedPoints db) none now.text := by
  rw [protectedSnapshotIds, Option.getD_none, if_pos rfl, storedPoints, List.filter_map,
    List.map_map]
  simp only [Transaction.read, Database.livePoints, List.filter_map, List.map_map,
    List.filter_filter]
  refine congrArg (List.map _) (List.filter_congr fun entry member => ?_)
  have order := text_lt_iff now ⟨entry.2.immutable_until, early entry member⟩
  simp only [Instant.text] at order
  simp only [Function.comp_apply, Instant.text, order, Bool.not_eq_true, Bool.decide_and]

end Tables

end Immutavault.TimestampTexts
