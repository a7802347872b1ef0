import Mathlib.Data.List.Basic

/-! Base64 texts in the URL alphabet and without padding. -/

namespace Forge.Library.Base64

def alphabet : List Char :=
  "ABCDEFGHIJKLMNOPQRSTUVWXYZabcdefghijklmnopqrstuvwxyz0123456789-_".toList

def charOf (sextet : Nat) : Char := alphabet[sextet]?.getD 'A'

def sextetOf (c : Char) : Option Nat := alphabet.idxOf? c

def encode : List UInt8 → List Char
  | [] => []
  | [a] => [charOf (a.toNat / 4), charOf (a.toNat % 4 * 16)]
  | [a, b] => [charOf (a.toNat / 4), charOf (a.toNat % 4 * 16 + b.toNat / 16),
      charOf (b.toNat % 16 * 4)]
  | a :: b :: c :: rest => charOf (a.toNat / 4) :: charOf (a.toNat % 4 * 16 + b.toNat / 16)
      :: charOf (b.toNat % 16 * 4 + c.toNat / 64) :: charOf (c.toNat % 64) :: encode rest

/-- A lone character is refused, and so are bits left over that are not zero. -/
def decode : List Char → Option (List UInt8)
  | [] => some []
  | [_] => none
  | [p, q] => do
      let x ← sextetOf p
      let y ← sextetOf q
      if y % 16 = 0 then some [.ofNat (x * 4 + y / 16)] else none
  | [p, q, r] => do
      let x ← sextetOf p
      let y ← sextetOf q
      let z ← sextetOf r
      if z % 4 = 0 then some [.ofNat (x * 4 + y / 16), .ofNat (y % 16 * 16 + z / 4)] else none
  | p :: q :: r :: s :: rest => do
      let x ← sextetOf p
      let y ← sextetOf q
      let z ← sextetOf r
      let w ← sextetOf s
      let others ← decode rest
      some (.ofNat (x * 4 + y / 16) :: .ofNat (y % 16 * 16 + z / 4) :: .ofNat (z % 4 * 64 + w)
        :: others)

theorem sextetOf_charOf {sextet : Nat} (small : sextet < 64) :
    sextetOf (charOf sextet) = some sextet := by
  have table : ∀ sextet < 64, sextetOf (charOf sextet) = some sextet := by decide
  exact table sextet small

theorem ofNat_of_eq {number : Nat} {byte : UInt8} (same : number = byte.toNat) :
    UInt8.ofNat number = byte := by
  rw [same, UInt8.ofNat_toNat]

theorem decode_encode (bytes : List UInt8) : decode (encode bytes) = some bytes := by
  induction bytes using encode.induct with
  | case1 => rfl
  | case2 a =>
      have small := a.toNat_lt
      have first : sextetOf (charOf (a.toNat / 4)) = some (a.toNat / 4) :=
        sextetOf_charOf (by omega)
      have second : sextetOf (charOf (a.toNat % 4 * 16)) = some (a.toNat % 4 * 16) :=
        sextetOf_charOf (by omega)
      simp only [encode, decode, first, second, Option.bind_eq_bind, Option.bind_some]
      rw [if_pos (by omega), @ofNat_of_eq _ a (by omega)]
  | case3 a b =>
      have small := a.toNat_lt
      have small' := b.toNat_lt
      have first : sextetOf (charOf (a.toNat / 4)) = some (a.toNat / 4) :=
        sextetOf_charOf (by omega)
      have second : sextetOf (charOf (a.toNat % 4 * 16 + b.toNat / 16))
          = some (a.toNat % 4 * 16 + b.toNat / 16) := sextetOf_charOf (by omega)
      have third : sextetOf (charOf (b.toNat % 16 * 4)) = some (b.toNat % 16 * 4) :=
        sextetOf_charOf (by omega)
      simp only [encode, decode, first, second, third, Option.bind_eq_bind, Option.bind_some]
      rw [if_pos (by omega), @ofNat_of_eq _ a (by omega), @ofNat_of_eq _ b (by omega)]
  | case4 a b c rest ih =>
      have small := a.toNat_lt
      have small' := b.toNat_lt
      have small'' := c.toNat_lt
      have first : sextetOf (charOf (a.toNat / 4)) = some (a.toNat / 4) :=
        sextetOf_charOf (by omega)
      have second : sextetOf (charOf (a.toNat % 4 * 16 + b.toNat / 16))
          = some (a.toNat % 4 * 16 + b.toNat / 16) := sextetOf_charOf (by omega)
      have third : sextetOf (charOf (b.toNat % 16 * 4 + c.toNat / 64))
          = some (b.toNat % 16 * 4 + c.toNat / 64) := sextetOf_charOf (by omega)
      have fourth : sextetOf (charOf (c.toNat % 64)) = some (c.toNat % 64) :=
        sextetOf_charOf (by omega)
      simp only [encode, decode, first, second, third, fourth, ih, Option.bind_eq_bind,
        Option.bind_some]
      rw [@ofNat_of_eq _ a (by omega), @ofNat_of_eq _ b (by omega), @ofNat_of_eq _ c (by omega)]

section Standard

def toStandard (c : Char) : Char := if c = '-' then '+' else if c = '_' then '/' else c

def fromStandard (c : Char) : Option Char :=
  if c = '-' ∨ c = '_' then none
  else if c = '+' then some '-'
  else if c = '/' then some '_'
  else some c

def padding (length : Nat) : List Char := List.replicate ((4 - length % 4) % 4) '='

def encodeStandard (bytes : List UInt8) : List Char :=
  let text := (encode bytes).map toStandard
  text ++ padding text.length

def decodeStandard (text : List Char) : Option (List UInt8) :=
  let body := text.takeWhile (· ≠ '=')
  if text = body ++ padding body.length then (body.mapM fromStandard).bind decode else none

theorem charOf_mem (sextet : Nat) : charOf sextet ∈ alphabet := by
  rw [charOf]
  cases there : alphabet[sextet]? with
  | none => exact .head _
  | some c => exact List.mem_of_getElem? there

theorem mem_alphabet_of_mem_encode {bytes : List UInt8} {c : Char} (member : c ∈ encode bytes) :
    c ∈ alphabet := by
  induction bytes using encode.induct with
  | case1 => cases member
  | case2 a =>
      simp only [encode, List.mem_cons, List.not_mem_nil, or_false] at member
      rcases member with rfl | rfl <;> exact charOf_mem _
  | case3 a b =>
      simp only [encode, List.mem_cons, List.not_mem_nil, or_false] at member
      rcases member with rfl | rfl | rfl <;> exact charOf_mem _
  | case4 a b c rest ih =>
      simp only [encode, List.mem_cons] at member
      rcases member with rfl | rfl | rfl | rfl | later
      iterate 4 exact charOf_mem _
      exact ih later

theorem standard_of_mem {c : Char} (member : c ∈ alphabet) :
    toStandard c ≠ '=' ∧ fromStandard (toStandard c) = some c := by
  have others : '=' ∉ alphabet ∧ '+' ∉ alphabet ∧ '/' ∉ alphabet := by decide +kernel
  have apart : c ≠ '=' ∧ c ≠ '+' ∧ c ≠ '/' :=
    ⟨fun same => others.1 (same ▸ member), fun same => others.2.1 (same ▸ member),
      fun same => others.2.2 (same ▸ member)⟩
  by_cases minus : c = '-'
  · exact minus ▸ by decide
  by_cases line : c = '_'
  · exact line ▸ by decide
  rw [toStandard, if_neg minus, if_neg line, fromStandard, if_neg (not_or.2 ⟨minus, line⟩),
    if_neg apart.2.1, if_neg apart.2.2]
  exact ⟨apart.1, rfl⟩

theorem decodeStandard_encodeStandard (bytes : List UInt8) :
    decodeStandard (encodeStandard bytes) = some bytes := by
  have plain : ∀ c ∈ (encode bytes).map toStandard, decide (c ≠ '=') = true := by
    intro c member
    obtain ⟨source, listed, rfl⟩ := List.mem_map.1 member
    exact decide_eq_true (standard_of_mem (mem_alphabet_of_mem_encode listed)).1
  have back : ((encode bytes).map toStandard).mapM fromStandard = some (encode bytes) := by
    have all := fun c member => (standard_of_mem (@mem_alphabet_of_mem_encode bytes c member)).2
    generalize encode bytes = text at all
    induction text with
    | nil => rfl
    | cons c rest ih =>
        rw [List.map_cons, List.mapM_cons, all c (.head _), ih fun d later => all d (.tail _ later)]
        rfl
  have stops (count : Nat) : (List.replicate count '=').takeWhile (· ≠ '=') = [] := by
    cases count <;> rfl
  have body : (encodeStandard bytes).takeWhile (· ≠ '=') = (encode bytes).map toStandard := by
    rw [encodeStandard, List.takeWhile_append_of_pos plain, padding, stops, List.append_nil]
  rw [decodeStandard, body]
  exact (if_pos rfl).trans (by rw [back, Option.bind_some, decode_encode])

end Standard

end Forge.Library.Base64
