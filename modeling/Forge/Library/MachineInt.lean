import Forge.Library.Text
import Mathlib.Algebra.GroupWithZero.Nat

/-! Arithmetic on signed words of 64 bits as a compiled program does it: an operation whose
exact result does not fit panics where the build checks for overflow, and wraps elsewhere. -/

namespace Forge.Library.MachineInt

open Forge.Library.Text

inductive Build where
  | checked | wrapping
deriving DecidableEq

def Fits (exact : Int) : Prop := -2 ^ 63 ≤ exact ∧ exact < 2 ^ 63

instance (exact : Int) : Decidable (Fits exact) := inferInstanceAs (Decidable (_ ∧ _))

/-- What an operation with an exact result answers; `none` is a panic. -/
def Build.result (build : Build) (exact : Int) : Option Int64 :=
  match build with
  | .checked => if Fits exact then some (Int64.ofInt exact) else none
  | .wrapping => some (Int64.ofInt exact)

def sub (build : Build) (a b : Int64) : Option Int64 := build.result (a.toInt - b.toInt)

def abs (build : Build) (a : Int64) : Option Int64 := build.result a.toInt.natAbs

def add (build : Build) (a b : Int64) : Option Int64 := build.result (a.toInt + b.toInt)

def mul (build : Build) (a b : Int64) : Option Int64 := build.result (a.toInt * b.toInt)

def saturatingSub (a b : Int64) : Int64 :=
  Int64.ofInt (max (-2 ^ 63) (min (2 ^ 63 - 1) (a.toInt - b.toInt)))

def div (build : Build) (a b : Int64) : Option Int64 :=
  if b = 0 then none else build.result (a.toInt.tdiv b.toInt)

theorem fits_toInt (a : Int64) : Fits a.toInt := ⟨a.le_toInt, a.toInt_lt⟩

theorem toInt_ofInt {exact : Int} (fits : Fits exact) : (Int64.ofInt exact).toInt = exact :=
  Int64.toInt_ofInt_of_le fits.1 fits.2

theorem result_of_fits (build : Build) {exact : Int} (fits : Fits exact) :
    build.result exact = some (Int64.ofInt exact) := by
  cases build with
  | checked => exact if_pos fits
  | wrapping => rfl

theorem fits_of_checked {exact : Int} {word : Int64}
    (answered : Build.checked.result exact = some word) : Fits exact := by
  by_contra outside
  rw [Build.result, if_neg outside] at answered
  cases answered

section Computations

/-- A computation answers with an exact result, in every build if its parts fit, and where the
build checks for overflow only then. -/
structure Computes (op : Build → Option Int64) (fits : Prop) (exact : Int) : Prop where
  sound : ∀ word, op .checked = some word → fits ∧ word.toInt = exact
  complete : fits → ∀ build, ∃ word, op build = some word ∧ word.toInt = exact

namespace Computes

variable {op : Build → Option Int64} {next : Int64 → Build → Option Int64} {fits fits' : Prop}
  {exact exact' x z : Int} {a b : Int64}

theorem result (exact : Int) : Computes (fun build => build.result exact) (Fits exact) exact where
  sound word answered := by
    have fits := fits_of_checked answered
    rw [result_of_fits _ fits] at answered
    exact ⟨fits, by rw [← Option.some.inj answered, toInt_ofInt fits]⟩
  complete fits build := ⟨_, result_of_fits build fits, toInt_ofInt fits⟩

theorem word (left : a.toInt = x) : Computes (fun _ => some a) True x where
  sound _ same := ⟨trivial, by rw [← Option.some.inj same, left]⟩
  complete _ _ := ⟨a, rfl, left⟩

theorem sub (left : a.toInt = x) (right : b.toInt = z) :
    Computes (fun build => MachineInt.sub build a b) (Fits (x - z)) (x - z) := by
  subst left right
  exact result _

theorem add (left : a.toInt = x) (right : b.toInt = z) :
    Computes (fun build => MachineInt.add build a b) (Fits (x + z)) (x + z) := by
  subst left right
  exact result _

theorem mul (left : a.toInt = x) (right : b.toInt = z) :
    Computes (fun build => MachineInt.mul build a b) (Fits (x * z)) (x * z) := by
  subst left right
  exact result _

theorem div (nonzero : b ≠ 0) (left : a.toInt = x) (right : b.toInt = z) :
    Computes (fun build => MachineInt.div build a b) (Fits (x.tdiv z)) (x.tdiv z) := by
  subst left right
  have divides (build : Build) :
      MachineInt.div build a b = build.result (a.toInt.tdiv b.toInt) := if_neg nonzero
  simpa only [divides] using result (a.toInt.tdiv b.toInt)

theorem bind (first : Computes op fits exact)
    (rest : ∀ word, word.toInt = exact → Computes (next word) fits' exact') :
    Computes (fun build => (op build).bind fun word => next word build) (fits ∧ fits')
      exact' where
  sound answer answered := by
    obtain ⟨word, computed, continued⟩ := Option.bind_eq_some_iff.1 answered
    obtain ⟨holds, value⟩ := first.sound word computed
    obtain ⟨holds', value'⟩ := (rest word value).sound answer continued
    exact ⟨⟨holds, holds'⟩, value'⟩
  complete holds build := by
    obtain ⟨word, computed, value⟩ := first.complete holds.1 build
    obtain ⟨answer, continued, value'⟩ := (rest word value).complete holds.2 build
    exact ⟨answer, by simp only [computed, Option.bind_some, continued], value'⟩

theorem congr (computes : Computes op fits exact) (same : fits ↔ fits') (value : exact = exact') :
    Computes op fits' exact' where
  sound word answered := (computes.sound word answered).imp same.1 fun exact => exact.trans value
  complete holds build := value ▸ computes.complete (same.2 holds) build

theorem div_nonneg (nonzero : b ≠ 0) (left : a.toInt = x) (right : b.toInt = z) (small : 0 ≤ x)
    (positive : 0 ≤ z) : Computes (fun build => MachineInt.div build a b) True (x / z) := by
  have value := Int.tdiv_eq_ediv_of_nonneg (b := z) small
  have inside : x / z ≤ x := Int.ediv_le_self z small
  have below := a.toInt_lt
  have above := Int.ediv_nonneg small positive
  have computes := div nonzero left right
  rw [value] at computes
  refine computes.congr (iff_of_true ⟨?_, ?_⟩ trivial) rfl
  · exact Int.le_trans (by decide) above
  · exact Int.lt_of_le_of_lt (Int.le_trans inside (Int.le_of_eq left.symm)) below

end Computes

end Computations

section Distance

variable {a b : Int64}

def distance (build : Build) (a b : Int64) : Option Int64 :=
  (sub build a b).bind (abs build)

/-- Words that are less than `2 ^ 63` apart have their distance in every build. -/
theorem distance_of_close (build : Build) (close : (a.toInt - b.toInt).natAbs < 2 ^ 63) :
    ∃ word, distance build a b = some word ∧ word.toInt = (a.toInt - b.toInt).natAbs := by
  have difference : Fits (a.toInt - b.toInt) := ⟨by omega, by omega⟩
  have size : Fits (a.toInt - b.toInt).natAbs := ⟨by omega, by omega⟩
  refine ⟨_, ?_, toInt_ofInt size⟩
  rw [distance, sub, result_of_fits build difference, Option.bind_some, abs,
    toInt_ofInt difference, result_of_fits build size]

theorem distance_checked_of_far (far : 2 ^ 63 ≤ (a.toInt - b.toInt).natAbs) :
    distance .checked a b = none := by
  rw [Option.eq_none_iff_forall_ne_some]
  intro word answered
  obtain ⟨difference, subtracted, size⟩ := Option.bind_eq_some_iff.1 answered
  have fits := fits_of_checked subtracted
  rw [sub, result_of_fits _ fits] at subtracted
  have exact : difference.toInt = a.toInt - b.toInt := by
    rw [← Option.some.inj subtracted, toInt_ofInt fits]
  have bound := (fits_of_checked size).2
  rw [exact] at bound
  omega

end Distance

section Parsing

/-- `str::parse::<i64>`: an optional sign and at least one digit. -/
def parse (text : List Char) : Option Int64 :=
  let read (sign : Int) (digits : List Char) : Option Int64 :=
    if digits ≠ [] ∧ digits.all Char.isDigit then
      Build.checked.result (sign * ofDigits 10 (digits.map fun c => c.toNat - '0'.toNat))
    else none
  match text with
  | '-' :: digits => read (-1) digits
  | '+' :: digits => read 1 digits
  | digits => read 1 digits

theorem parse_digits {text : List Char} (some : text ≠ [])
    (digits : ∀ c ∈ text, c.isDigit = true) :
    parse text =
      Build.checked.result (ofDigits 10 (text.map fun c => c.toNat - '0'.toNat)) := by
  have all : text.all Char.isDigit = true := List.all_eq_true.2 digits
  unfold parse
  split
  · exact absurd (digits '-' List.mem_cons_self) (by decide)
  · exact absurd (digits '+' List.mem_cons_self) (by decide)
  · dsimp only
    rw [if_pos ⟨some, all⟩, Int.one_mul]

example : parse "-300".toList = some (-300) := by decide
example : parse "9223372036854775808".toList = none := by decide

end Parsing

end Forge.Library.MachineInt
