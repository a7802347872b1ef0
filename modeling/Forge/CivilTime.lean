import Forge.CloneSweep
import Forge.Library.Gregorian

/-! The creation times of containers as seconds from the beginning of 1970: what the hand-written
calendar computes, and when its words hold it. -/

namespace Forge.CivilTime

open Forge.CloneSweep
open Forge.Library.Gregorian
open Forge.Library.MachineInt
open Forge.Library.Text
open Forge.OrchestrationView (isWhitespace)

section Words

variable {y m d hh mm ss : Int64}

def exactSeconds (day : Int) (hh mm ss : Int64) : Int :=
  day * 86400 + hh.toInt * 3600 + mm.toInt * 60 + ss.toInt

def NamesDay (m d : Int64) : Prop := (1 ≤ m ∧ m ≤ 12) ∧ 1 ≤ d ∧ d ≤ 31

/-- The parts of the sum fit into words, in the order in which they are added. -/
structure Moderate (day : Int) (hh mm ss : Int64) : Prop where
  start : Fits (day * 86400)
  hours : Fits (hh.toInt * 3600)
  hour : Fits (day * 86400 + hh.toInt * 3600)
  minutes : Fits (mm.toInt * 60)
  minute : Fits (day * 86400 + hh.toInt * 3600 + mm.toInt * 60)
  second : Fits (exactSeconds day hh mm ss)

theorem tdiv_era (shifted : Int) :
    (if 0 ≤ shifted then shifted else shifted - 399).tdiv 400 = shifted / 400 := by
  split
  · rename_i nonneg
    exact Int.tdiv_eq_ediv_of_nonneg nonneg
  · rename_i negative
    have flipped : shifted - 399 = -(399 - shifted) := by omega
    rw [flipped, Int.neg_tdiv, Int.tdiv_eq_ediv_of_nonneg (by omega)]
    omega

theorem ite_bind {α β : Type} {condition : Prop} [Decidable condition] (first second : Option α)
    (rest : α → Option β) :
    (if condition then first >>= rest else second >>= rest) =
      (if condition then first else second).bind rest := by
  split
  · rfl
  · rfl

def dayOfYear (build : Build) (d shifted : Int64) : Option Int64 :=
  (mul build 153 shifted).bind fun days => (add build days 2).bind fun days =>
    (div build days 5).bind fun months => (add build months d).bind fun days => sub build days 1

def leapDays (build : Build) (yoe : Int64) : Option Int64 :=
  (mul build yoe 365).bind fun days => (div build yoe 4).bind fun fourths =>
    (add build days fourths).bind fun days => (div build yoe 100).bind fun centuries =>
      sub build days centuries

def clock (build : Build) (days hh mm ss : Int64) : Option Int64 :=
  (mul build days 86400).bind fun start => (mul build hh 3600).bind fun hours =>
    (add build start hours).bind fun hour => (mul build mm 60).bind fun minutes =>
      (add build hour minutes).bind fun minute => add build minute ss

def inEra (build : Build) (d hh mm ss era yoe shifted : Int64) : Option Int64 :=
  (dayOfYear build d shifted).bind fun doy => (leapDays build yoe).bind fun leap =>
    (add build leap doy).bind fun doe => (mul build era 146097).bind fun days =>
      (add build days doe).bind fun days => (sub build days 719468).bind fun days =>
        clock build days hh mm ss

def inYear (build : Build) (m d hh mm ss y raised : Int64) : Option Int64 :=
  (div build raised 400).bind fun era => (mul build era 400).bind fun years =>
    (sub build y years).bind fun yoe =>
      (if 2 < m then sub build m 3 else add build m 9).bind fun shifted =>
        inEra build d hh mm ss era yoe shifted

theorem civil_eq (build : Build) (named : NamesDay m d) :
    civilToUnixSecs build y m d hh mm ss =
      (if m ≤ 2 then sub build y 1 else some y).bind fun y =>
        (if 0 ≤ y then some y else sub build y 399).bind fun raised =>
          inYear build m d hh mm ss y raised := by
  have inside : ¬(¬(1 ≤ m ∧ m ≤ 12) ∨ ¬(1 ≤ d ∧ d ≤ 31)) := by
    rintro (month | day)
    · exact month named.1
    · exact day named.2
  unfold civilToUnixSecs
  rw [if_neg inside]
  refine (ite_bind _ _ _).trans (congrArg (Option.bind _) (funext fun y => ?_))
  refine (ite_bind _ _ _).trans (congrArg (Option.bind _) (funext fun raised => ?_))
  unfold inYear
  refine congrArg (Option.bind _) (funext fun era => ?_)
  refine congrArg (Option.bind _) (funext fun years => ?_)
  refine congrArg (Option.bind _) (funext fun yoe => ?_)
  refine (ite_bind _ _ _).trans (congrArg (Option.bind _) (funext fun shifted => ?_))
  simp only [inEra, dayOfYear, leapDays, clock, Option.bind_assoc]
  rfl

theorem dayOfYear_computes {shifted : Int64} {month : Int} (value : shifted.toInt = month)
    (early : 0 ≤ month) (late : month ≤ 11) (first : 1 ≤ d.toInt) (last : d.toInt ≤ 31) :
    Computes (fun build => dayOfYear build d shifted) True
      ((153 * month + 2) / 5 + d.toInt - 1) := by
  refine Computes.congr (Computes.bind (.mul (x := 153) rfl value) fun days held =>
    Computes.bind (.add (z := 2) held rfl) fun days held =>
      Computes.bind (.div_nonneg (z := 5) (by decide) held rfl (by omega) (by decide))
        fun months held => Computes.bind (.add held rfl) fun days held =>
          .sub (z := 1) held rfl) ?_ rfl
  simp only [Fits, true_and, iff_true]
  omega

theorem leapDays_computes {yoe : Int64} {year : Int} (value : yoe.toInt = year)
    (early : 0 ≤ year) (late : year < 400) :
    Computes (fun build => leapDays build yoe) True (year * 365 + year / 4 - year / 100) := by
  refine Computes.congr (Computes.bind (.mul (z := 365) value rfl) fun days heldDays =>
    Computes.bind (.div_nonneg (z := 4) (by decide) value rfl early (by decide))
      fun fourths heldFourths => Computes.bind (.add heldDays heldFourths) fun days held =>
        Computes.bind (.div_nonneg (z := 100) (by decide) value rfl early (by decide))
          fun centuries heldCenturies => .sub held heldCenturies) ?_ rfl
  simp only [Fits, true_and, iff_true]
  omega

theorem clock_computes {days : Int64} {day : Int} (value : days.toInt = day) :
    Computes (fun build => clock build days hh mm ss) (Moderate day hh mm ss)
      (exactSeconds day hh mm ss) := by
  have computes : Computes (fun build => clock build days hh mm ss) _
      (day * 86400 + hh.toInt * 3600 + mm.toInt * 60 + ss.toInt) :=
    .bind (.mul (z := 86400) value rfl) fun _ heldStart =>
      .bind (.mul (z := 3600) rfl rfl) fun _ heldHours =>
        .bind (.add heldStart heldHours) fun _ heldHour =>
          .bind (.mul (z := 60) rfl rfl) fun _ heldMinutes =>
            .bind (.add heldHour heldMinutes) fun _ heldMinute => .add heldMinute rfl
  refine computes.congr ⟨?_, fun moderate => ?_⟩ rfl
  · rintro ⟨day, hours, hour, minutes, minute, second⟩
    exact ⟨day, hours, hour, minutes, minute, second⟩
  · exact ⟨moderate.start, moderate.hours, moderate.hour, moderate.minutes, moderate.minute,
      moderate.second⟩

theorem Moderate.few {day : Int} (moderate : Moderate day hh mm ss) :
    -2 ^ 47 ≤ day ∧ day < 2 ^ 47 := by
  obtain ⟨least, most⟩ := moderate.start
  omega

theorem moderate_of_early {day : Int} (start : -719162 ≤ day)
    (hour : 0 ≤ hh.toInt ∧ hh.toInt < 24) (minute : 0 ≤ mm.toInt ∧ mm.toInt < 60)
    (second : 0 ≤ ss.toInt ∧ ss.toInt < 60) (early : exactSeconds day hh mm ss < 2 ^ 63) :
    Moderate day hh mm ss := by
  unfold exactSeconds at early
  constructor
  all_goals
    simp only [Fits, exactSeconds]
    omega

theorem inEra_computes {era yoe shifted : Int64} {cycle year month : Int}
    (valueEra : era.toInt = cycle) (valueYear : yoe.toInt = year)
    (valueMonth : shifted.toInt = month) (earlyYear : 0 ≤ year) (lateYear : year < 400)
    (early : 0 ≤ month) (late : month ≤ 11) (first : 1 ≤ d.toInt) (last : d.toInt ≤ 31) :
    Computes (fun build => inEra build d hh mm ss era yoe shifted)
      (Moderate (cycle * 146097 + (year * 365 + year / 4 - year / 100
        + ((153 * month + 2) / 5 + d.toInt - 1)) - 719468) hh mm ss)
      (exactSeconds (cycle * 146097 + (year * 365 + year / 4 - year / 100
        + ((153 * month + 2) / 5 + d.toInt - 1)) - 719468) hh mm ss) := by
  refine Computes.congr
    (Computes.bind (dayOfYear_computes valueMonth early late first last) fun doy heldDoy =>
      Computes.bind (leapDays_computes valueYear earlyYear lateYear) fun leap heldLeap =>
        Computes.bind (.add heldLeap heldDoy) fun doe heldDoe =>
          Computes.bind (.mul (z := 146097) valueEra rfl) fun days held =>
            Computes.bind (.add held heldDoe) fun days held =>
              Computes.bind (.sub (z := 719468) held rfl) fun days held =>
                clock_computes held) ⟨fun fits => ?_, fun moderate => ?_⟩ rfl
  · exact fits.2.2.2.2.2.2
  · have few := moderate.few
    refine ⟨trivial, trivial, ?_, ?_, ?_, ?_, moderate⟩ <;> unfold Fits <;> omega

theorem era_days (year rest : Int) :
    year / 400 * 146097 + ((year - year / 400 * 400) * 365 + (year - year / 400 * 400) / 4
        - (year - year / 400 * 400) / 100 + rest) =
      365 * year + year / 4 - year / 100 + year / 400 + rest := by
  omega

theorem inYear_computes {y raised : Int64} {year : Int} (valueYear : y.toInt = year)
    (value : raised.toInt = if 0 ≤ year then year else year - 399) (named : NamesDay m d) :
    Computes (fun build => inYear build m d hh mm ss y raised)
      (Moderate (365 * year + year / 4 - year / 100 + year / 400
        + marchDay m.toInt + (d.toInt - 1) - 719468) hh mm ss)
      (exactSeconds (365 * year + year / 4 - year / 100 + year / 400
        + marchDay m.toInt + (d.toInt - 1) - 719468) hh mm ss) := by
  have yearFits := fits_toInt y
  rw [valueYear] at yearFits
  have era : (if 0 ≤ year then year else year - 399).tdiv 400
      = year / 400 := tdiv_era _
  have raisedFits := fits_toInt raised
  rw [value] at raisedFits
  obtain ⟨⟨monthFirst, monthLast⟩, first, last⟩ := named
  have monthFirst' : 1 ≤ m.toInt := Int64.le_iff_toInt_le.1 monthFirst
  have monthLast' : m.toInt ≤ 12 := Int64.le_iff_toInt_le.1 monthLast
  have first' : 1 ≤ d.toInt := Int64.le_iff_toInt_le.1 first
  have last' : d.toInt ≤ 31 := Int64.le_iff_toInt_le.1 last
  have shifts : Computes (fun build => if 2 < m then sub build m 3 else add build m 9) True
      (if 2 < m.toInt then m.toInt - 3 else m.toInt + 9) := by
    have two : 2 < m ↔ 2 < m.toInt := Int64.lt_iff_toInt_lt
    by_cases late : 2 < m
    · simp only [late, two.1 late, if_true]
      exact (Computes.sub (z := 3) rfl rfl).congr
        (iff_of_true ⟨by omega, by omega⟩ trivial) rfl
    · simp only [late, mt two.2 late, if_false]
      exact (Computes.add (z := 9) rfl rfl).congr
        (iff_of_true ⟨by omega, by omega⟩ trivial) rfl
  have lateMonth : (if 2 < m.toInt then m.toInt - 3 else m.toInt + 9) ≤ 11 := by
    split
    · omega
    · omega
  have earlyMonth : 0 ≤ if 2 < m.toInt then m.toInt - 3 else m.toInt + 9 := by
    split
    · omega
    · omega
  have bounded : Fits ((if 0 ≤ year then year else year - 399).tdiv 400) ∧
      Fits (year / 400 * 400) := by
    rw [era]
    unfold Fits at yearFits raisedFits ⊢
    split at raisedFits
    · omega
    · omega
  have day : year / 400 * 146097 + ((year - year / 400 * 400) * 365
        + (year - year / 400 * 400) / 4 - (year - year / 400 * 400) / 100
        + (marchDay m.toInt + d.toInt - 1)) - 719468
      = 365 * year + year / 4 - year / 100 + year / 400
        + marchDay m.toInt + (d.toInt - 1) - 719468 := by
    rw [era_days]
    omega
  refine Computes.congr
    (Computes.bind (.div (z := 400) (by decide) value rfl) fun era' heldEra =>
      Computes.bind (.mul (z := 400) (heldEra.trans era) rfl) fun years heldYears =>
        Computes.bind (.sub valueYear heldYears) fun yoe heldYoe =>
          Computes.bind shifts fun shifted heldShifted =>
            inEra_computes (heldEra.trans era) heldYoe heldShifted (by omega) (by omega)
              earlyMonth lateMonth first' last') ⟨fun fits => ?_, fun moderate => ?_⟩ ?_
  · rw [← day]
    exact fits.2.2.2.2
  · rw [← day] at moderate
    refine ⟨bounded.1, bounded.2, ?_, trivial, moderate⟩
    unfold Fits
    omega
  · rw [← day]
    rfl

theorem shifts_computes (y m : Int64) :
    Computes (fun build => if m ≤ 2 then sub build y 1 else some y)
      (Fits (marchYear y.toInt m.toInt)) (marchYear y.toInt m.toInt) := by
  have two : m ≤ 2 ↔ m.toInt ≤ 2 := Int64.le_iff_toInt_le
  unfold marchYear
  by_cases early : m ≤ 2
  · simp only [early, two.1 early, if_true]
    exact Computes.sub (z := 1) rfl rfl
  · simp only [early, mt two.2 early, if_false]
    exact (Computes.word rfl).congr (iff_of_true trivial (fits_toInt y)) rfl

theorem raises_computes {y : Int64} {year : Int} (value : y.toInt = year) :
    Computes (fun build => if 0 ≤ y then some y else sub build y 399)
      (Fits (if 0 ≤ year then year else year - 399)) (if 0 ≤ year then year else year - 399) := by
  subst value
  have zero : 0 ≤ y ↔ 0 ≤ y.toInt := Int64.le_iff_toInt_le
  by_cases positive : 0 ≤ y
  · simp only [positive, zero.1 positive, if_true]
    exact (Computes.word rfl).congr (iff_of_true trivial (fits_toInt y)) rfl
  · simp only [positive, mt zero.2 positive, if_false]
    exact Computes.sub (z := 399) rfl rfl

theorem civil_computes (y hh mm ss : Int64) (named : NamesDay m d) :
    Computes (fun build => civilToUnixSecs build y m d hh mm ss)
      (Moderate (civilDays y.toInt m.toInt d.toInt) hh mm ss)
      (exactSeconds (civilDays y.toInt m.toInt d.toInt) hh mm ss) := by
  simp only [civil_eq _ named]
  have month : 0 ≤ marchDay m.toInt ∧ marchDay m.toInt ≤ 500 := by
    have monthFirst : 1 ≤ m.toInt := Int64.le_iff_toInt_le.1 named.1.1
    have monthLast : m.toInt ≤ 12 := Int64.le_iff_toInt_le.1 named.1.2
    unfold marchDay
    split
    · omega
    · omega
  have first : 1 ≤ d.toInt := Int64.le_iff_toInt_le.1 named.2.1
  have last : d.toInt ≤ 31 := Int64.le_iff_toInt_le.1 named.2.2
  refine Computes.congr (Computes.bind (shifts_computes y m) fun year heldYear =>
    Computes.bind (raises_computes heldYear) fun raised heldRaised =>
      inYear_computes heldYear heldRaised named) ⟨fun fits => fits.2.2, fun moderate => ?_⟩ rfl
  have few := moderate.few
  unfold civilDays at few
  have shifted : Fits (marchYear y.toInt m.toInt) := by
    unfold Fits
    omega
  refine ⟨shifted, ?_, moderate⟩
  unfold Fits
  split
  · omega
  · omega

end Words

section Texts

def padded (width number : Nat) : List Char := (digits 10 width number).map Nat.digitChar

def IsWidth (year width : Nat) : Prop :=
  4 ≤ width ∧ year < 10 ^ width ∧ (width = 4 ∨ 10 ^ (width - 1) ≤ year)

def IsFraction (fraction : List Char) : Prop :=
  fraction = [] ∨ ∃ decimals, decimals ≠ [] ∧ (∀ c ∈ decimals, c.isDigit = true) ∧
    fraction = '.' :: decimals

def IsUtc (zone : List Char) : Prop := zone = "Z".toList ∨ zone = "+00:00".toList

def dateText (width : Nat) (date : Date) : List Char :=
  padded width date.year ++ '-' :: (padded 2 date.month ++ '-' :: padded 2 date.day)

def clockText (time : DateTime) : List Char :=
  padded 2 time.hour ++ ':' :: (padded 2 time.minute ++ ':' :: padded 2 time.second)

def Spells (time : DateTime) (text : List Char) : Prop :=
  ∃ width fraction zone, IsWidth time.year width ∧ IsFraction fraction ∧ IsUtc zone ∧
    text = dateText width time.toDate ++ 'T' :: (clockText time ++ (fraction ++ zone))

theorem isDigit_padded {width number : Nat} {c : Char} (member : c ∈ padded width number) :
    c.isDigit = true := by
  have table : ∀ d < 10, (Nat.digitChar d).isDigit = true := by decide
  obtain ⟨d, inside, rfl⟩ := List.mem_map.1 member
  exact table d (lt_of_mem_digits (by decide) inside)

theorem not_mem_padded {c : Char} (separator : c.isDigit = false) (width number : Nat) :
    c ∉ padded width number := by
  intro member
  rw [isDigit_padded member] at separator
  cases separator

theorem parseI64_padded {width number : Nat} (positive : 0 < width)
    (small : number < 10 ^ width) :
    parseI64 (padded width number) = Build.checked.result number := by
  have blank : ∀ d < 10, isWhitespace (Nat.digitChar d) = false := by decide
  have value : ∀ d < 10, (Nat.digitChar d).toNat - '0'.toNat = d := by decide
  have low : ∀ d ∈ digits 10 width number, d < 10 := fun d => lt_of_mem_digits (by decide)
  have plain : ∀ c ∈ padded width number, isWhitespace c = false := by
    rintro c member
    obtain ⟨d, inside, rfl⟩ := List.mem_map.1 member
    exact blank d (low d inside)
  have some : padded width number ≠ [] := by
    intro empty
    have length := congrArg List.length empty
    rw [padded, List.length_map, length_digits] at length
    exact absurd length (Nat.ne_of_gt positive)
  have same : (padded width number).map (fun c => c.toNat - '0'.toNat) =
      digits 10 width number := by
    rw [padded, List.map_map]
    exact (List.map_congr_left fun d inside => value d (low d inside)).trans (List.map_id _)
  rw [parseI64, strip_of_plain plain, parse_digits some fun c => isDigit_padded, same,
    ofDigits_digits_of_lt small]

theorem splitThree_append {separator : Char} {first second third : List Char}
    (plain : separator ∉ first) (plain' : separator ∉ second) :
    splitThree separator (first ++ separator :: (second ++ separator :: third)) =
      some (first, second, third) := by
  simp [splitThree, splitOnce_append plain, splitOnce_append plain']

theorem takeWhile_stop {keep : Char → Bool} {front rest : List Char} {stop : Char}
    (kept : ∀ c ∈ front, keep c = true) (stops : keep stop = false) :
    (front ++ stop :: rest).takeWhile keep = front := by
  rw [List.takeWhile_append_of_pos kept, List.takeWhile_cons_of_neg (by simp [stops]),
    List.append_nil]

theorem mem_clockText {time : DateTime} {c : Char} (member : c ∈ clockText time) :
    c.isDigit = true ∨ c = ':' := by
  simp only [clockText, List.mem_append, List.mem_cons] at member
  rcases member with hour | rfl | minute | rfl | second
  · exact .inl (isDigit_padded hour)
  · exact .inr rfl
  · exact .inl (isDigit_padded minute)
  · exact .inr rfl
  · exact .inl (isDigit_padded second)

theorem mem_fraction {fraction : List Char} (fractional : IsFraction fraction) {c : Char}
    (member : c ∈ fraction) : c.isDigit = true ∨ c = '.' := by
  rcases fractional with rfl | ⟨decimals, -, decimal, rfl⟩
  · cases member
  · rcases List.mem_cons.1 member with rfl | inside
    · exact .inr rfl
    · exact .inl (decimal c inside)

theorem ne_of_isDigit {c separator : Char} (digit : c.isDigit = true)
    (other : separator.isDigit = false) : c ≠ separator := by
  rintro rfl
  rw [digit] at other
  cases other

theorem timePart_eq {time : DateTime} {fraction zone : List Char}
    (fractional : IsFraction fraction) (utc : IsUtc zone) :
    ((((clockText time ++ (fraction ++ zone)).takeWhile fun c => c ≠ 'Z' ∧ c ≠ '+').takeWhile
      (· ≠ '-')).takeWhile (· ≠ '.')) = clockText time := by
  have clock {separator : Char} (other : separator.isDigit = false) (colon : ':' ≠ separator) :
      ∀ c ∈ clockText time, c ≠ separator := by
    intro c member
    rcases mem_clockText member with digit | rfl
    · exact ne_of_isDigit digit other
    · exact colon
  have decimals {separator : Char} (other : separator.isDigit = false) (point : '.' ≠ separator) :
      ∀ c ∈ fraction, c ≠ separator := by
    intro c member
    rcases mem_fraction fractional member with digit | rfl
    · exact ne_of_isDigit digit other
    · exact point
  have kept : ∀ c ∈ clockText time ++ fraction, (decide (c ≠ 'Z' ∧ c ≠ '+')) = true := by
    intro c member
    rw [decide_eq_true_eq]
    rcases List.mem_append.1 member with early | late
    · exact ⟨clock (by decide) (by decide) c early, clock (by decide) (by decide) c early⟩
    · exact ⟨decimals (by decide) (by decide) c late, decimals (by decide) (by decide) c late⟩
  have zoneless : (clockText time ++ (fraction ++ zone)).takeWhile
      (fun c => c ≠ 'Z' ∧ c ≠ '+') = clockText time ++ fraction := by
    rw [← List.append_assoc]
    rcases utc with rfl | rfl
    · exact takeWhile_stop kept (by decide)
    · exact takeWhile_stop kept (by decide)
  have whole : (clockText time ++ fraction).takeWhile (· ≠ '-') = clockText time ++ fraction := by
    refine List.takeWhile_eq_self_iff.2 fun c member => ?_
    rw [decide_eq_true_eq]
    rcases List.mem_append.1 member with early | late
    · exact clock (by decide) (by decide) c early
    · exact decimals (by decide) (by decide) c late
  have pointless : ∀ c ∈ clockText time, decide (c ≠ '.') = true :=
    fun c member => decide_eq_true (clock (by decide) (by decide) c member)
  rw [zoneless, whole]
  rcases fractional with rfl | ⟨_, -, -, rfl⟩
  · rw [List.append_nil]
    exact List.takeWhile_eq_self_iff.2 pointless
  · exact takeWhile_stop pointless (by decide)

theorem monthLength_le (year month : Nat) : monthLength year month ≤ 31 := by
  unfold monthLength
  split
  · split
    · decide
    · decide
  all_goals decide

theorem parseI64_two {number : Nat} (small : number < 100) :
    parseI64 (padded 2 number) = some (Int64.ofInt number) :=
  (parseI64_padded (by decide) small).trans
    (result_of_fits .checked ⟨by omega, by omega⟩)

theorem not_mem_dateText (width : Nat) (date : Date) : 'T' ∉ dateText width date := by
  simp only [dateText, List.mem_append, List.mem_cons, not_or]
  exact ⟨not_mem_padded (by decide) _ _, by decide, not_mem_padded (by decide) _ _, by decide,
    not_mem_padded (by decide) _ _⟩

theorem readRfc3339_spelled {time : DateTime} {text : List Char} (spells : Spells time text) :
    readRfc3339 text = (Build.checked.result time.year).map fun year =>
      (year, Int64.ofInt time.month, Int64.ofInt time.day, Int64.ofInt time.hour,
        Int64.ofInt time.minute, Int64.ofInt time.second) := by
  obtain ⟨width, fraction, zone, ⟨wide, short, -⟩, fractional, utc, rfl⟩ := spells
  have day := time.day_le.trans (monthLength_le _ _)
  have month := time.month_le
  have hour := time.hour_lt
  have minute := time.minute_lt
  have second := time.second_lt
  have date : splitThree '-' (dateText width time.toDate) =
      some (padded width time.year, padded 2 time.month, padded 2 time.day) :=
    splitThree_append (not_mem_padded (by decide) _ _) (not_mem_padded (by decide) _ _)
  have clock : splitThree ':' (clockText time) =
      some (padded 2 time.hour, padded 2 time.minute, padded 2 time.second) :=
    splitThree_append (not_mem_padded (by decide) _ _) (not_mem_padded (by decide) _ _)
  unfold readRfc3339
  simp only [splitOnce_append (not_mem_dateText width time.toDate), bind, Option.bind_some, date,
    timePart_eq fractional utc, clock, parseI64_padded (Nat.lt_of_lt_of_le (by decide) wide) short,
    parseI64_two (Nat.lt_of_le_of_lt month (by decide)),
    parseI64_two (Nat.lt_of_le_of_lt day (by decide)),
    parseI64_two (Nat.lt_trans hour (by decide)), parseI64_two (Nat.lt_trans minute (by decide)),
    parseI64_two (Nat.lt_trans second (by decide))]
  cases Build.checked.result time.year with
  | none => rfl
  | some year => rfl

end Texts

section Conversion

variable {text : List Char} {time : DateTime}

/-- A text is converted without an overflow, and one of a date and a time to its seconds, which
grow with the time. -/
structure Kept (text : List Char) : Prop where
  returns : ∃ secs, parseRfc3339Secs .checked text = some secs
  exact : ∀ time, Spells time text → ∀ build,
    ∃ secs, parseRfc3339Secs build text = some secs ∧ secs.toInt = time.seconds
  increasing : ∀ time, Spells time text → ∀ earlier before, Spells earlier before →
    earlier.Earlier time → ∀ build secs secs', parseRfc3339Secs build text = some secs →
      parseRfc3339Secs build before = some secs' → secs' < secs

/-- A date and a time are within the seconds of a word, and so is what the numbers of a text come
to, part by part. -/
structure InRange (text : List Char) : Prop where
  time : ∀ time, Spells time text → time.seconds < 2 ^ 63
  numbers : ∀ y m d hh mm ss, readRfc3339 text = some (y, m, d, hh, mm, ss) → NamesDay m d →
    Moderate (civilDays y.toInt m.toInt d.toInt) hh mm ss

theorem toInt_small {number : Nat} (small : number < 100) :
    (Int64.ofInt number).toInt = number := toInt_ofInt ⟨by omega, by omega⟩

theorem namesDay_spelled (time : DateTime) :
    NamesDay (Int64.ofInt time.month) (Int64.ofInt time.day) := by
  have day := time.day_le.trans (monthLength_le _ _)
  have month := time.month_le
  have dayFirst := time.day_pos
  have monthFirst := time.month_pos
  have monthWord := toInt_small (Nat.lt_of_le_of_lt month (by decide))
  have dayWord := toInt_small (Nat.lt_of_le_of_lt day (by decide))
  refine ⟨⟨Int64.le_iff_toInt_le.2 ?_, Int64.le_iff_toInt_le.2 ?_⟩,
    Int64.le_iff_toInt_le.2 ?_, Int64.le_iff_toInt_le.2 ?_⟩
  · rw [monthWord]
    exact Int.ofNat_le.2 monthFirst
  · rw [monthWord]
    exact Int.ofNat_le.2 month
  · rw [dayWord]
    exact Int.ofNat_le.2 dayFirst
  · rw [dayWord]
    exact Int.ofNat_le.2 day

theorem fits_year (early : time.seconds < 2 ^ 63) : Fits time.year := by
  have positive := time.year_pos
  have counted : daysOfYears (time.year - 1) ≤ time.days := by
    unfold Date.days
    omega
  rw [daysOfYears_eq] at counted
  unfold DateTime.seconds at early
  rw [epoch_days] at early
  unfold Fits
  omega

theorem parse_spelled (spells : Spells time text) (early : time.seconds < 2 ^ 63)
    (build : Build) :
    ∃ secs, parseRfc3339Secs build text = some secs ∧ secs.toInt = time.seconds := by
  have hour := toInt_small (Nat.lt_trans time.hour_lt (by decide))
  have minute := toInt_small (Nat.lt_trans time.minute_lt (by decide))
  have second := toInt_small (Nat.lt_trans time.second_lt (by decide))
  have month := toInt_small (Nat.lt_of_le_of_lt time.month_le (by decide))
  have day := toInt_small
    (Nat.lt_of_le_of_lt (time.day_le.trans (monthLength_le _ _)) (by decide))
  have year := toInt_ofInt (fits_year early)
  have read : readRfc3339 text = some (Int64.ofInt time.year, Int64.ofInt time.month,
      Int64.ofInt time.day, Int64.ofInt time.hour, Int64.ofInt time.minute,
      Int64.ofInt time.second) := by
    rw [readRfc3339_spelled spells, result_of_fits _ (fits_year early)]
    rfl
  have computes := civil_computes (Int64.ofInt time.year) (Int64.ofInt time.hour)
    (Int64.ofInt time.minute) (Int64.ofInt time.second) (namesDay_spelled time)
  rw [year, month, day, civilDays_eq] at computes
  have value : exactSeconds ((time.days : Int) - daysOfYears 1969) (Int64.ofInt time.hour)
      (Int64.ofInt time.minute) (Int64.ofInt time.second) = time.seconds := by
    unfold exactSeconds DateTime.seconds DateTime.secondOfDay
    rw [hour, minute, second]
    omega
  have moderate : Moderate ((time.days : Int) - daysOfYears 1969) (Int64.ofInt time.hour)
      (Int64.ofInt time.minute) (Int64.ofInt time.second) := by
    refine moderate_of_early ?_ ?_ ?_ ?_ (value.trans_lt early)
    · rw [epoch_days]
      omega
    · rw [hour]
      exact ⟨Int.natCast_nonneg _, Int.ofNat_lt.2 time.hour_lt⟩
    · rw [minute]
      exact ⟨Int.natCast_nonneg _, Int.ofNat_lt.2 time.minute_lt⟩
    · rw [second]
      exact ⟨Int.natCast_nonneg _, Int.ofNat_lt.2 time.second_lt⟩
  rw [value] at computes
  obtain ⟨secs, computed, exact⟩ := computes.complete moderate build
  refine ⟨secs, ?_, exact⟩
  rw [parseRfc3339Secs, read]
  exact computed

/-- A text is converted as it should be exactly when its numbers are in range. -/
theorem kept_iff (text : List Char) : Kept text ↔ InRange text := by
  constructor
  · intro kept
    constructor
    · intro time spells
      obtain ⟨secs, -, value⟩ := kept.exact time spells .checked
      exact value ▸ secs.toInt_lt
    · intro y m d hh mm ss read named
      obtain ⟨secs, answered⟩ := kept.returns
      rw [parseRfc3339Secs, read] at answered
      exact ((civil_computes y hh mm ss named).sound secs answered).1
  · intro inRange
    refine ⟨?_, fun time spells => parse_spelled spells (inRange.time time spells), ?_⟩
    · cases read : readRfc3339 text with
      | none => exact ⟨0, by rw [parseRfc3339Secs, read]⟩
      | some numbers =>
          obtain ⟨y, m, d, hh, mm, ss⟩ := numbers
          rw [parseRfc3339Secs, read]
          by_cases named : NamesDay m d
          · obtain ⟨secs, computed, -⟩ := (civil_computes y hh mm ss named).complete
              (inRange.numbers y m d hh mm ss read named) .checked
            exact ⟨secs, computed⟩
          · exact ⟨0, if_pos (not_and_or.1 named)⟩
    · intro time spells earlier before spelled order build secs secs' answered answered'
      have later := DateTime.seconds_lt_of_earlier order
      obtain ⟨word, computed, value⟩ := parse_spelled spells (inRange.time time spells) build
      obtain ⟨word', computed', value'⟩ := parse_spelled spelled
        (later.trans (inRange.time time spells)) build
      rw [computed] at answered
      rw [computed'] at answered'
      cases answered
      cases answered'
      rw [Int64.lt_iff_toInt_lt, value, value']
      exact later

theorem distant_year_panics : ¬Kept "9223372036854775807-01-01T00:00:00Z".toList := by
  intro kept
  obtain ⟨secs, answered⟩ := kept.returns
  have panics : parseRfc3339Secs .checked "9223372036854775807-01-01T00:00:00Z".toList = none := by
    decide +kernel
  rw [panics] at answered
  cases answered

end Conversion

end Forge.CivilTime
