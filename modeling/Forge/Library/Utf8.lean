import Mathlib.Algebra.GroupWithZero.Nat
import Mathlib.Data.List.Basic
import Mathlib.Tactic.SplitIfs

/-! Texts and their bytes: sizes, cuts at a character boundary, and decoding that replaces what is
not valid. -/

namespace Forge.Library.Utf8

def size (text : List Char) : Nat :=
  (text.map Char.utf8Size).sum

@[simp] theorem size_nil : size [] = 0 := rfl

@[simp] theorem size_cons (c : Char) (text : List Char) :
    size (c :: text) = c.utf8Size + size text := rfl

@[simp] theorem size_append (first second : List Char) :
    size (first ++ second) = size first + size second := by
  simp [size]

theorem size_replicate (n : Nat) (c : Char) : size (List.replicate n c) = n * c.utf8Size := by
  simp [size]

theorem utf8ByteSize_ofList (text : List Char) : (String.ofList text).utf8ByteSize = size text := by
  induction text with
  | nil => rfl
  | cons c rest ih =>
      have split : String.ofList (c :: rest) = String.singleton c ++ String.ofList rest := by
        rw [← String.toList_inj]
        simp
      rw [split, String.utf8ByteSize_append, String.utf8ByteSize_singleton, ih, size_cons]

section Cutting

/-- `is_char_boundary`. -/
def isCharBoundary : List Char → Nat → Bool
  | _, 0 => true
  | [], _ + 1 => false
  | c :: rest, index + 1 => c.utf8Size ≤ index + 1 && isCharBoundary rest (index + 1 - c.utf8Size)

def slice : List Char → Nat → List Char
  | [], _ => []
  | c :: rest, limit => if c.utf8Size ≤ limit then c :: slice rest (limit - c.utf8Size) else []

def floorBoundary (text : List Char) : Nat → Nat
  | 0 => 0
  | limit + 1 => if isCharBoundary text (limit + 1) then limit + 1 else floorBoundary text limit

theorem slice_initial (text : List Char) (limit : Nat) : slice text limit <+: text := by
  induction text generalizing limit with
  | nil => exact List.prefix_rfl
  | cons c rest ih =>
      rw [slice]
      split
      · exact List.cons_prefix_cons.mpr ⟨rfl, ih _⟩
      · exact List.nil_prefix

theorem size_slice_le (text : List Char) (limit : Nat) : size (slice text limit) ≤ limit := by
  induction text generalizing limit with
  | nil => exact Nat.zero_le _
  | cons c rest ih =>
      rw [slice]
      split
      next fits =>
        have := ih (limit - c.utf8Size)
        rw [size_cons]
        omega
      · exact Nat.zero_le _

theorem initial_slice {front text : List Char} {limit : Nat} (isPrefix : front <+: text)
    (fits : size front ≤ limit) : front <+: slice text limit := by
  induction text generalizing front limit with
  | nil => exact isPrefix
  | cons c rest ih =>
      cases front with
      | nil => exact List.nil_prefix
      | cons d others =>
          obtain ⟨rfl, behind⟩ := List.cons_prefix_cons.mp isPrefix
          rw [size_cons] at fits
          rw [slice, if_pos (by omega)]
          exact List.cons_prefix_cons.mpr ⟨rfl, ih behind (by omega)⟩

theorem slice_of_fits {text : List Char} {limit : Nat} (fits : size text ≤ limit) :
    slice text limit = text :=
  (slice_initial text limit).eq_of_length_le (initial_slice List.prefix_rfl fits).length_le

theorem slice_succ {text : List Char} {limit : Nat}
    (between : isCharBoundary text (limit + 1) = false) :
    slice text (limit + 1) = slice text limit := by
  induction text generalizing limit with
  | nil => rfl
  | cons c rest ih =>
      rw [isCharBoundary] at between
      by_cases fits : c.utf8Size ≤ limit + 1
      · rw [decide_eq_true fits, Bool.true_and] at between
        have later : limit + 1 - c.utf8Size ≠ 0 := by
          intro zero
          rw [zero] at between
          cases rest <;> cases between
        obtain ⟨more, isMore⟩ := Nat.exists_eq_succ_of_ne_zero later
        have before : limit - c.utf8Size = more := by omega
        rw [isMore] at between
        rw [slice, slice, if_pos fits, if_pos (by omega), isMore, before, ih between]
      · rw [slice, slice, if_neg fits, if_neg (by omega)]

theorem slice_floorBoundary (text : List Char) (limit : Nat) :
    slice text (floorBoundary text limit) = slice text limit := by
  induction limit with
  | zero => rfl
  | succ limit ih =>
      rw [floorBoundary]
      split
      · rfl
      next between => rw [ih, slice_succ (by simpa using between)]

end Cutting

section Decoding

def replacement : Char := '\uFFFD'

/-- The bytes that may be behind a leading byte; the others are `0x80` to `0xBF`. -/
def secondRange (lead : Nat) : Nat × Nat :=
  if lead = 0xE0 then (0xA0, 0xBF)
  else if lead = 0xED then (0x80, 0x9F)
  else if lead = 0xF0 then (0x90, 0xBF)
  else if lead = 0xF4 then (0x80, 0x8F)
  else (0x80, 0xBF)

def following (lead : Nat) : Option Nat :=
  if lead < 0x80 then some 0
  else if 0xC2 ≤ lead ∧ lead ≤ 0xDF then some 1
  else if 0xE0 ≤ lead ∧ lead ≤ 0xEF then some 2
  else if 0xF0 ≤ lead ∧ lead ≤ 0xF4 then some 3
  else none

/-- The bytes behind a leading byte: the number of the character and what is left, also when they
stop early. -/
def takeTail : Nat → Nat × Nat → Nat → List UInt8 → Option Nat × List UInt8
  | 0, _, value, rest => (some value, rest)
  | _ + 1, _, _, [] => (none, [])
  | count + 1, (low, high), value, byte :: rest =>
      if low ≤ byte.toNat ∧ byte.toNat ≤ high then
        takeTail count (0x80, 0xBF) (64 * value + byte.toNat % 64) rest
      else (none, byte :: rest)

def leadBits (lead count : Nat) : Nat :=
  if count = 0 then lead else lead % 2 ^ (6 - count)

def decodeChar (lead : UInt8) (rest : List UInt8) : Char × List UInt8 :=
  match following lead.toNat with
  | none => (replacement, rest)
  | some count =>
      match takeTail count (secondRange lead.toNat) (leadBits lead.toNat count) rest with
      | (some value, rest) => (.ofNat value, rest)
      | (none, rest) => (replacement, rest)

def decodeLossy : Nat → List UInt8 → List Char
  | 0, _ => []
  | _ + 1, [] => []
  | fuel + 1, byte :: rest => (decodeChar byte rest).1 :: decodeLossy fuel (decodeChar byte rest).2

/-- `String::from_utf8_lossy`: what is no character is replaced, up to where it stops being one. -/
def fromUtf8Lossy (bytes : List UInt8) : List Char :=
  decodeLossy bytes.length bytes

theorem fromUtf8Lossy_replicate_zero (n : Nat) :
    fromUtf8Lossy (List.replicate n 0) = List.replicate n (.ofNat 0) := by
  rw [fromUtf8Lossy, List.length_replicate]
  induction n with
  | zero => rfl
  | succ n ih => rw [List.replicate_succ, List.replicate_succ, decodeLossy, ← ih]; rfl

example : fromUtf8Lossy "añ€𝄞".toUTF8.data.toList = ['a', 'ñ', '€', '𝄞'] := by decide

example : fromUtf8Lossy [0x61, 0xE2, 0x82, 0x62, 0xFF, 0xED, 0xA0, 0x80] =
    ['a', replacement, 'b', replacement, replacement, replacement, replacement] := by decide

end Decoding

section Decoded

variable {count low high value : Nat} {bytes front back : List UInt8} {lead byte : UInt8}

theorem takeTail_suffix : (takeTail count (low, high) value bytes).2 <:+ bytes := by
  induction count generalizing low high value bytes with
  | zero => exact List.suffix_rfl
  | succ count ih =>
      cases bytes with
      | nil => exact List.suffix_rfl
      | cons byte rest =>
          rw [takeTail]
          split
          · exact ih.trans (List.suffix_cons _ _)
          · exact List.suffix_rfl

theorem decodeChar_suffix (lead : UInt8) (bytes : List UInt8) :
    (decodeChar lead bytes).2 <:+ bytes := by
  unfold decodeChar
  split
  · exact List.suffix_rfl
  · rename_i count _
    have inside := @takeTail_suffix count (secondRange lead.toNat).1 (secondRange lead.toNat).2
      (leadBits lead.toNat count) bytes
    split <;> simp_all

theorem length_decodeChar_le (lead : UInt8) (bytes : List UInt8) :
    (decodeChar lead bytes).2.length ≤ bytes.length :=
  (decodeChar_suffix lead bytes).length_le

theorem decodeLossy_fuel {first second : Nat} (enough : bytes.length ≤ first)
    (enough' : bytes.length ≤ second) : decodeLossy first bytes = decodeLossy second bytes := by
  induction first generalizing second bytes with
  | zero =>
      rw [List.length_eq_zero_iff.1 (Nat.le_zero.1 enough)]
      cases second <;> rfl
  | succ first ih =>
      cases bytes with
      | nil => cases second <;> rfl
      | cons lead rest =>
          obtain ⟨second, rfl⟩ := Nat.exists_eq_add_one.2 (Nat.zero_lt_of_lt enough')
          have shorter := length_decodeChar_le lead rest
          rw [List.length_cons] at enough enough'
          rw [decodeLossy, decodeLossy]
          exact congrArg _ (ih (by omega) (by omega))

theorem fromUtf8Lossy_cons (lead : UInt8) (rest : List UInt8) : fromUtf8Lossy (lead :: rest) =
    (decodeChar lead rest).1 :: fromUtf8Lossy (decodeChar lead rest).2 := by
  rw [fromUtf8Lossy, List.length_cons, decodeLossy, fromUtf8Lossy,
    decodeLossy_fuel (length_decodeChar_le lead rest) (Nat.le_refl _)]

theorem secondRange_low (lead : Nat) : 0x80 ≤ (secondRange lead).1 := by
  unfold secondRange
  split_ifs <;> decide

theorem takeTail_stop (behind : 0x80 ≤ low) (plain : byte.toNat < 0x80) :
    takeTail count (low, high) value (front ++ byte :: back) =
      ((takeTail count (low, high) value front).1,
        (takeTail count (low, high) value front).2 ++ byte :: back) := by
  induction count generalizing low high value front with
  | zero => rfl
  | succ count ih =>
      cases front with
      | nil =>
          have outside : ¬ (low ≤ byte.toNat ∧ byte.toNat ≤ high) := by omega
          rw [List.nil_append, takeTail, takeTail, if_neg outside]
          rfl
      | cons next rest =>
          rw [List.cons_append, takeTail, takeTail]
          split
          · exact ih (Nat.le_refl _)
          · rfl

theorem decodeChar_stop (plain : byte.toNat < 0x80) :
    decodeChar lead (front ++ byte :: back) =
      ((decodeChar lead front).1, (decodeChar lead front).2 ++ byte :: back) := by
  unfold decodeChar
  split
  · rfl
  · rename_i count _
    have stop := @takeTail_stop count (secondRange lead.toNat).1 (secondRange lead.toNat).2
      (leadBits lead.toNat count) front back byte (secondRange_low _) plain
    rw [stop]
    generalize takeTail count (secondRange lead.toNat) _ front = taken
    obtain ⟨_ | number, rest⟩ := taken <;> rfl

theorem decodeChar_plain (plain : byte.toNat < 0x80) (rest : List UInt8) :
    decodeChar byte rest = (.ofNat byte.toNat, rest) := by
  rw [decodeChar, following, if_pos plain]
  rfl

theorem fromUtf8Lossy_append_cons (plain : byte.toNat < 0x80) (front back : List UInt8) :
    fromUtf8Lossy (front ++ byte :: back) =
      fromUtf8Lossy front ++ .ofNat byte.toNat :: fromUtf8Lossy back := by
  induction size : front.length using Nat.strongRecOn generalizing front with
  | _ number ih =>
    cases front with
    | nil => rw [List.nil_append, fromUtf8Lossy_cons, decodeChar_plain plain]; rfl
    | cons lead rest =>
        have shorter := length_decodeChar_le lead rest
        rw [List.length_cons] at size
        rw [List.cons_append, fromUtf8Lossy_cons, fromUtf8Lossy_cons, decodeChar_stop plain,
          List.cons_append, ih _ (by omega) _ rfl]

theorem takeTail_bounds {number : Nat} {rest : List UInt8}
    (taken : takeTail count (0x80, 0xBF) value bytes = (some number, rest)) :
    value * 64 ^ count ≤ number ∧ number < (value + 1) * 64 ^ count := by
  induction count generalizing value bytes with
  | zero =>
      rw [takeTail, Prod.mk.injEq, Option.some.injEq] at taken
      omega
  | succ count ih =>
      cases bytes with
      | nil => exact nomatch congrArg Prod.fst taken
      | cons byte later =>
          rw [takeTail] at taken
          split at taken
          · obtain ⟨least, most⟩ := ih taken
            have digit := Nat.mod_lt byte.toNat (Nat.zero_lt_succ 63)
            have power : 64 ^ (count + 1) = 64 * 64 ^ count := Nat.pow_succ'
            have lower : value * 64 * 64 ^ count ≤ (64 * value + byte.toNat % 64) * 64 ^ count :=
              Nat.mul_le_mul_right _ (by omega)
            have upper : (64 * value + byte.toNat % 64 + 1) * 64 ^ count ≤
                (value + 1) * 64 * 64 ^ count := Nat.mul_le_mul_right _ (by omega)
            rw [power, ← Nat.mul_assoc, ← Nat.mul_assoc]
            exact ⟨Nat.le_trans lower least, Nat.lt_of_lt_of_le most upper⟩
          · exact nomatch congrArg Prod.fst taken

theorem takeTail_range {number : Nat} {rest : List UInt8} (least : 0x80 ≤ low) (most : high ≤ 0xBF)
    (taken : takeTail (count + 1) (low, high) value bytes = (some number, rest)) :
    (64 * value + (low - 0x80)) * 64 ^ count ≤ number
    ∧ number < (64 * value + (high - 0x80) + 1) * 64 ^ count := by
  cases bytes with
  | nil => exact nomatch congrArg Prod.fst taken
  | cons byte later =>
      rw [takeTail] at taken
      split at taken
      case isFalse => exact nomatch congrArg Prod.fst taken
      case isTrue inside =>
          obtain ⟨lower, upper⟩ := takeTail_bounds taken
          have below : (64 * value + (low - 0x80)) * 64 ^ count ≤
              (64 * value + byte.toNat % 64) * 64 ^ count := Nat.mul_le_mul_right _ (by omega)
          have above : (64 * value + byte.toNat % 64 + 1) * 64 ^ count ≤
              (64 * value + (high - 0x80) + 1) * 64 ^ count := Nat.mul_le_mul_right _ (by omega)
          exact ⟨Nat.le_trans below lower, Nat.lt_of_lt_of_le upper above⟩

theorem secondRange_high (lead : Nat) : (secondRange lead).2 ≤ 0xBF := by
  unfold secondRange
  split_ifs <;> decide

theorem le_of_following {number : Nat} {rest : List UInt8} (large : 0x80 ≤ lead.toNat)
    (follow : following lead.toNat = some count)
    (taken : takeTail count (secondRange lead.toNat) (leadBits lead.toNat count) bytes =
      (some number, rest)) : 0x80 ≤ number ∧ number.isValidChar := by
  obtain ⟨more, rfl⟩ : ∃ more, count = more + 1 := by
    unfold following at follow
    split_ifs at follow <;> first | omega | exact ⟨_, (Option.some.inj follow).symm⟩
  have range := @takeTail_range more (secondRange lead.toNat).1 (secondRange lead.toNat).2
    (leadBits lead.toNat (more + 1)) bytes number rest (secondRange_low _) (secondRange_high _)
    taken
  unfold following at follow
  unfold secondRange at range
  unfold Nat.isValidChar
  split_ifs at follow
  · omega
  · cases follow
    have bits : leadBits lead.toNat 1 = lead.toNat % 32 := rfl
    rw [bits] at range
    split_ifs at range <;> simp at range <;> omega
  · cases follow
    have bits : leadBits lead.toNat 2 = lead.toNat % 16 := rfl
    rw [bits] at range
    split_ifs at range <;> simp at range <;> omega
  · cases follow
    have bits : leadBits lead.toNat 3 = lead.toNat % 8 := rfl
    rw [bits] at range
    split_ifs at range <;> simp at range <;> omega

theorem le_replacement : 0x80 ≤ replacement.toNat := by decide

theorem toNat_ofNat {number : Nat} (valid : number.isValidChar) :
    (Char.ofNat number).toNat = number := by
  rw [Char.ofNat, dif_pos valid]
  rfl

theorem plain_of_decodeChar (small : (decodeChar lead bytes).1.toNat < 0x80) :
    lead.toNat < 0x80 := by
  by_contra large
  rw [Nat.not_lt] at large
  unfold decodeChar at small
  split at small
  · exact absurd small (Nat.not_lt.2 le_replacement)
  · rename_i count follow
    split at small
    · rename_i number rest taken
      obtain ⟨least, valid⟩ := le_of_following large follow taken
      rw [toNat_ofNat valid] at small
      omega
    · exact absurd small (Nat.not_lt.2 le_replacement)

theorem takeTail_cons (inside : low ≤ byte.toNat ∧ byte.toNat ≤ high) (rest : List UInt8) :
    takeTail (count + 1) (low, high) value (byte :: rest) =
      takeTail count (0x80, 0xBF) (64 * value + byte.toNat % 64) rest := by
  rw [takeTail, if_pos inside]

theorem toNat_byte {number : Nat} (small : number < 256) : (UInt8.ofNat number).toNat = number :=
  Nat.mod_eq_of_lt small

theorem decodeChar_of_takeTail {number : Nat} {rest : List UInt8}
    (follow : following lead.toNat = some count)
    (taken : takeTail count (secondRange lead.toNat) (leadBits lead.toNat count) bytes =
      (some number, rest)) : decodeChar lead bytes = (.ofNat number, rest) := by
  rw [decodeChar, follow]
  simp only
  rw [taken]

variable {v : Nat} (rest : List UInt8)

theorem decodeChar_two (least : 0x80 ≤ v) (most : v ≤ 0x7ff) :
    decodeChar (.ofNat (v / 64 % 0x20 + 0xc0)) (.ofNat (v % 0x40 + 0x80) :: rest) =
      (.ofNat v, rest) := by
  have lead := @toNat_byte (v / 64 % 0x20 + 0xc0) (by omega)
  have second := @toNat_byte (v % 0x40 + 0x80) (by omega)
  have follow : following (v / 64 % 0x20 + 0xc0) = some 1 := by
    rw [following, if_neg (by omega), if_pos (by omega)]
  have range : secondRange (v / 64 % 0x20 + 0xc0) = (0x80, 0xBF) := by
    rw [secondRange, if_neg (by omega), if_neg (by omega), if_neg (by omega), if_neg (by omega)]
  have bits : leadBits (v / 64 % 0x20 + 0xc0) 1 = (v / 64 % 0x20 + 0xc0) % 32 := rfl
  refine decodeChar_of_takeTail (by rw [lead, follow]) ?_
  rw [lead, range, bits, takeTail_cons (by omega), second, takeTail]
  congr 2
  omega

theorem decodeChar_three (least : 0x800 ≤ v) (most : v ≤ 0xffff)
    (valid : v < 0xD800 ∨ 0xDFFF < v) :
    decodeChar (.ofNat (v / 4096 % 0x10 + 0xe0))
      (.ofNat (v / 64 % 0x40 + 0x80) :: .ofNat (v % 0x40 + 0x80) :: rest) = (.ofNat v, rest) := by
  have lead := @toNat_byte (v / 4096 % 0x10 + 0xe0) (by omega)
  have second := @toNat_byte (v / 64 % 0x40 + 0x80) (by omega)
  have third := @toNat_byte (v % 0x40 + 0x80) (by omega)
  have follow : following (v / 4096 % 0x10 + 0xe0) = some 2 := by
    rw [following, if_neg (by omega), if_neg (by omega), if_pos (by omega)]
  have range : (secondRange (v / 4096 % 0x10 + 0xe0)).1 ≤ v / 64 % 0x40 + 0x80
      ∧ v / 64 % 0x40 + 0x80 ≤ (secondRange (v / 4096 % 0x10 + 0xe0)).2 := by
    unfold secondRange
    split_ifs <;> dsimp only <;> omega
  have bits : leadBits (v / 4096 % 0x10 + 0xe0) 2 = (v / 4096 % 0x10 + 0xe0) % 16 := rfl
  rw [← second] at range
  refine decodeChar_of_takeTail (by rw [lead, follow]) ?_
  rw [lead, bits]
  refine (takeTail_cons range _).trans ?_
  rw [takeTail_cons (by omega), second, third, takeTail]
  congr 2
  omega

theorem decodeChar_four (least : 0x10000 ≤ v) (most : v < 0x110000) :
    decodeChar (.ofNat (v / 262144 % 0x08 + 0xf0)) (.ofNat (v / 4096 % 0x40 + 0x80) ::
      .ofNat (v / 64 % 0x40 + 0x80) :: .ofNat (v % 0x40 + 0x80) :: rest) = (.ofNat v, rest) := by
  have lead := @toNat_byte (v / 262144 % 0x08 + 0xf0) (by omega)
  have second := @toNat_byte (v / 4096 % 0x40 + 0x80) (by omega)
  have third := @toNat_byte (v / 64 % 0x40 + 0x80) (by omega)
  have fourth := @toNat_byte (v % 0x40 + 0x80) (by omega)
  have follow : following (v / 262144 % 0x08 + 0xf0) = some 3 := by
    rw [following, if_neg (by omega), if_neg (by omega), if_neg (by omega), if_pos (by omega)]
  have range : (secondRange (v / 262144 % 0x08 + 0xf0)).1 ≤ v / 4096 % 0x40 + 0x80
      ∧ v / 4096 % 0x40 + 0x80 ≤ (secondRange (v / 262144 % 0x08 + 0xf0)).2 := by
    unfold secondRange
    split_ifs <;> dsimp only <;> omega
  have bits : leadBits (v / 262144 % 0x08 + 0xf0) 3 = (v / 262144 % 0x08 + 0xf0) % 8 := rfl
  rw [← second] at range
  refine decodeChar_of_takeTail (by rw [lead, follow]) ?_
  rw [lead, bits]
  refine (takeTail_cons range _).trans ?_
  rw [takeTail_cons (by omega), takeTail_cons (by omega), second, third, fourth, takeTail]
  congr 2
  omega

theorem decodeChar_encode (c : Char) :
    ∃ lead tail, String.utf8EncodeChar c = lead :: tail
    ∧ decodeChar lead (tail ++ rest) = (c, rest) := by
  have valid : c.toNat < 0xD800 ∨ 0xDFFF < c.toNat ∧ c.toNat < 0x110000 := c.valid
  have same : Char.ofNat c.toNat = c := Char.ofNat_toNat c
  unfold String.utf8EncodeChar
  simp only [Char.toNat_val]
  generalize c.toNat = v at valid same ⊢
  rw [← same]
  split
  case isTrue one =>
      have lead := @toNat_byte v (by omega)
      refine ⟨_, _, rfl, ?_⟩
      rw [decodeChar_plain (by omega), lead, List.nil_append]
  split
  case isTrue two => exact ⟨_, _, rfl, decodeChar_two rest (by omega) two⟩
  split
  case isTrue three => exact ⟨_, _, rfl, decodeChar_three rest (by omega) three (by omega)⟩
  case isFalse => exact ⟨_, _, rfl, decodeChar_four rest (by omega) (by omega)⟩

def encode (text : List Char) : List UInt8 := text.flatMap String.utf8EncodeChar

theorem fromUtf8Lossy_encode (text : List Char) : fromUtf8Lossy (encode text) = text := by
  induction text with
  | nil => rfl
  | cons c text ih =>
      obtain ⟨lead, tail, bytes, decoded⟩ := decodeChar_encode (encode text) c
      rw [encode, List.flatMap_cons, bytes, List.cons_append, fromUtf8Lossy_cons, ← encode, decoded,
        ih]

def decode (bytes : List UInt8) : Option (List Char) :=
  if encode (fromUtf8Lossy bytes) = bytes then some (fromUtf8Lossy bytes) else none

theorem decode_encode (text : List Char) : decode (encode text) = some text := by
  rw [decode, fromUtf8Lossy_encode, if_pos rfl]

end Decoded

end Forge.Library.Utf8
