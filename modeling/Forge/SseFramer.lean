import Forge.Library.Framing
import Forge.Library.Utf8
import Forge.LlmStreams

/-! The framer of event streams: bytes that come in pieces are carved into frames, and the payloads
are taken out of the lines of each frame. -/

namespace Forge.SseFramer

open Forge.Library.Framing
open Forge.Library.Text
open Forge.Library.Utf8
open Forge.LlmStreams

section Source

def lineFeed : UInt8 := 0x0A

def carriageReturn : UInt8 := 0x0D

def maxSseBufferBytes : Nat := 4 * 1024 * 1024

def exceeded : LlmError := .parse "SSE frame exceeded maximum buffer size"

def framePayloads (buf : List UInt8) : List String :=
  (lines (fromUtf8Lossy buf)).filterMap fun line =>
    (stripText "data:".toList line).map fun payload => trim (String.ofList payload)

def endsFrame (buf : List UInt8) : Bool := [lineFeed, lineFeed].isSuffixOf buf

def readBytes (buf : List UInt8) : List UInt8 → Payloads × Option (List UInt8)
  | [] => ([], some buf)
  | byte :: rest =>
      if buf.length = maxSseBufferBytes then ([.error exceeded], none)
      else if endsFrame (buf ++ [byte]) then
        let later := readBytes [] rest
        ((framePayloads (buf ++ [byte])).map .ok ++ later.1, later.2)
      else readBytes (buf ++ [byte]) rest

def readChunks (buf : List UInt8) : List (Except String (List UInt8)) → Payloads
  | [] => []
  | .error message :: _ => [.error (.http message)]
  | .ok chunk :: rest =>
      let read := readBytes buf (chunk.filter fun byte => byte ≠ carriageReturn)
      match read.2 with
      | some buf => read.1 ++ readChunks buf rest
      | none => read.1

def sseDataPayloads (bytes : List (Except String (List UInt8))) : Payloads := readChunks [] bytes

end Source

section Statements

def payloadOf (line : List UInt8) : Option String :=
  (stripText "data:".toUTF8.data.toList line).map fun rest =>
    trim (String.ofList (fromUtf8Lossy rest))

def payloadsOf (frame : List UInt8) : List String := (frame.splitOn lineFeed).filterMap payloadOf

def normalized (bytes : List UInt8) : List UInt8 :=
  bytes.filter fun byte => byte ≠ carriageReturn

def withReturns (bytes : List UInt8) : List UInt8 :=
  bytes.flatMap fun byte => if byte = lineFeed then [carriageReturn, lineFeed] else [byte]

def Fits (piece : List UInt8) : Prop := piece.length ≤ maxSseBufferBytes

instance (piece : List UInt8) : Decidable (Fits piece) := Nat.decLe _ _

def expected (frames : List (List UInt8)) (tail : List UInt8) : Payloads :=
  ((frames.takeWhile fun frame => Fits frame).flatMap payloadsOf).map .ok
    ++ if ∀ piece ∈ frames ++ [tail], Fits piece then [] else [.error exceeded]

end Statements

section Payloads

variable {bytes frame : List UInt8} {byte first second : UInt8}

def plainChar (byte : UInt8) : Char := .ofNat byte.toNat

theorem toNat_plainChar (plain : byte.toNat < 0x80) : (plainChar byte).toNat = byte.toNat :=
  toNat_ofNat (.inl (by omega))

theorem plainChar_injective (plain : first.toNat < 0x80) (plain' : second.toNat < 0x80)
    (same : plainChar first = plainChar second) : first = second := by
  have numbers := congrArg Char.toNat same
  rw [toNat_plainChar plain, toNat_plainChar plain'] at numbers
  exact UInt8.toNat_inj.1 numbers

theorem eq_of_decodeChar (plain : first.toNat < 0x80)
    (decoded : (decodeChar byte bytes).1 = plainChar first) : byte = first := by
  have small : byte.toNat < 0x80 := by
    refine @plain_of_decodeChar bytes byte ?_
    rw [decoded, toNat_plainChar plain]
    exact plain
  rw [decodeChar_plain small] at decoded
  exact plainChar_injective small plain decoded

theorem mem_of_mem_fromUtf8Lossy (plain : byte.toNat < 0x80)
    (member : plainChar byte ∈ fromUtf8Lossy bytes) : byte ∈ bytes := by
  induction size : bytes.length using Nat.strongRecOn generalizing bytes with
  | _ number ih =>
    cases bytes with
    | nil => exact absurd member List.not_mem_nil
    | cons lead rest =>
        have shorter := length_decodeChar_le lead rest
        rw [List.length_cons] at size
        rw [fromUtf8Lossy_cons] at member
        rcases List.mem_cons.1 member with here | later
        · exact eq_of_decodeChar plain here.symm ▸ .head _
        · exact .tail _ ((decodeChar_suffix lead rest).mem (ih _ (by omega) later rfl))

theorem splitOn_fromUtf8Lossy (plain : byte.toNat < 0x80) (bytes : List UInt8) :
    (fromUtf8Lossy bytes).splitOn (plainChar byte) =
      (bytes.splitOn byte).map fromUtf8Lossy := by
  induction size : bytes.length using Nat.strongRecOn generalizing bytes with
  | _ number ih =>
    by_cases member : byte ∈ bytes
    · obtain ⟨front, back, rfl, clear⟩ := List.eq_append_cons_of_mem member
      have clear' : plainChar byte ∉ fromUtf8Lossy front :=
        fun inside => clear (mem_of_mem_fromUtf8Lossy plain inside)
      rw [List.length_append, List.length_cons] at size
      rw [fromUtf8Lossy_append_cons plain, ← plainChar,
        List.splitOn_append_cons_self_of_not_mem clear',
        List.splitOn_append_cons_self_of_not_mem clear, ih _ (by omega) _ rfl, List.map_cons]
    · rw [List.splitOn_eq_singleton member, List.splitOn_eq_singleton fun inside =>
        member (mem_of_mem_fromUtf8Lossy plain inside)]
      rfl

theorem stripText_fromUtf8Lossy {front : List UInt8} (plain : ∀ byte ∈ front, byte.toNat < 0x80)
    (bytes : List UInt8) : stripText (front.map plainChar) (fromUtf8Lossy bytes) =
      (stripText front bytes).map fromUtf8Lossy := by
  induction front generalizing bytes with
  | nil => rfl
  | cons first front ih =>
      obtain ⟨small, others⟩ := List.forall_mem_cons.1 plain
      cases bytes with
      | nil => rfl
      | cons lead rest =>
          rw [List.map_cons, fromUtf8Lossy_cons, stripText_cons, stripText_cons]
          by_cases same : first = lead
          · have decoded := decodeChar_plain (same ▸ small) rest
            rw [decoded, ← same, if_pos rfl, ← plainChar, if_pos rfl]
            exact ih others rest
          · rw [if_neg same, if_neg fun equal => same (eq_of_decodeChar small equal.symm).symm]
            rfl

theorem plain_data : ∀ byte ∈ "data:".toUTF8.data.toList, byte.toNat < 0x80 := by
  have all : "data:".toUTF8.data.toList.all (fun byte => decide (byte.toNat < 0x80)) = true := by
    decide
  exact fun byte member => of_decide_eq_true (List.all_eq_true.1 all byte member)

theorem framePayloads_eq (clear : carriageReturn ∉ frame) :
    framePayloads frame = payloadsOf frame := by
  have clear' : '\r' ∉ fromUtf8Lossy frame :=
    fun member => clear (mem_of_mem_fromUtf8Lossy (by decide : carriageReturn.toNat < 0x80) member)
  have split : (fromUtf8Lossy frame).splitOn '\n' = (frame.splitOn lineFeed).map fromUtf8Lossy :=
    splitOn_fromUtf8Lossy (by decide : lineFeed.toNat < 0x80) frame
  have start : "data:".toList = "data:".toUTF8.data.toList.map plainChar := by decide
  rw [framePayloads, filterMap_lines clear' rfl, split, List.filterMap_map, payloadsOf]
  refine List.filterMap_congr fun line _ => ?_
  rw [Function.comp_apply, start, stripText_fromUtf8Lossy plain_data, Option.map_map, payloadOf]
  rfl

end Payloads

section Reading

variable {buf bytes : List UInt8}

theorem readBytes_eq (buf bytes : List UInt8) : readBytes buf bytes =
    (((carve endsFrame maxSseBufferBytes buf bytes).1.flatMap framePayloads).map .ok
      ++ (match (carve endsFrame maxSseBufferBytes buf bytes).2 with
        | none => [.error exceeded]
        | some _ => []),
      (carve endsFrame maxSseBufferBytes buf bytes).2) := by
  induction bytes generalizing buf with
  | nil => rfl
  | cons byte rest ih =>
      rw [readBytes, carve]
      split
      · rfl
      split
      · rw [ih]
        simp only [List.flatMap_cons, List.map_append, List.append_assoc]
      · exact ih _

theorem readBytes_append (more : List UInt8) :
    readBytes buf (bytes ++ more) = match (readBytes buf bytes).2 with
      | none => ((readBytes buf bytes).1, none)
      | some kept => ((readBytes buf bytes).1 ++ (readBytes kept more).1,
          (readBytes kept more).2) := by
  induction bytes generalizing buf with
  | nil => rfl
  | cons byte rest ih =>
      rw [List.cons_append, readBytes, readBytes]
      split
      · rfl
      split
      · rw [ih]
        cases (readBytes [] rest).2 with
        | none => rfl
        | some kept => simp only [List.append_assoc]
      · exact ih

theorem readChunks_eq (buf : List UInt8) (chunks : List (List UInt8)) :
    readChunks buf (chunks.map .ok) = (readBytes buf (normalized chunks.flatten)).1 := by
  induction chunks generalizing buf with
  | nil => rfl
  | cons chunk rest ih =>
      rw [List.flatten_cons, normalized, List.filter_append, ← normalized, ← normalized,
        readBytes_append, List.map_cons, readChunks, ← normalized]
      cases (readBytes buf (normalized chunk)).2 with
      | none => simp only
      | some kept => simp only [ih]

theorem normalized_withReturns (bytes : List UInt8) :
    normalized (withReturns bytes) = normalized bytes := by
  induction bytes with
  | nil => rfl
  | cons byte rest ih =>
      have first : normalized (if byte = lineFeed then [carriageReturn, lineFeed] else [byte]) =
          normalized [byte] := by
        split
        case isTrue feed => subst feed; decide
        case isFalse => rfl
      rw [withReturns, List.flatMap_cons, ← withReturns, normalized, List.filter_append,
        ← normalized, ← normalized, first, ih, normalized, normalized, ← List.filter_append]
      rfl

end Reading

section Results

/-- The stream of some chunks tells the payloads of these frames, whatever the cuts between the
chunks are. -/
structure Framed (chunks frames : List (List UInt8)) (tail : List UInt8) : Prop where
  cut : Cut endsFrame (normalized chunks.flatten) frames tail
  only : ∀ frames' tail', Cut endsFrame (normalized chunks.flatten) frames' tail' →
    frames' = frames ∧ tail' = tail
  told : sseDataPayloads (chunks.map .ok) = expected frames tail
  failed : (∃ earlier, sseDataPayloads (chunks.map .ok) = earlier ++ [.error exceeded]) ↔
    ∃ piece ∈ frames ++ [tail], maxSseBufferBytes < piece.length
  pieces : ∀ others : List (List UInt8),
    others.flatten = chunks.flatten ∨ others.flatten = withReturns chunks.flatten →
      sseDataPayloads (others.map .ok) = sseDataPayloads (chunks.map .ok)
  unaltered : ∀ text, payloadOf (encode "data:".toList ++ encode text) =
    some (trim (String.ofList text))

theorem expected_failed (frames : List (List UInt8)) (tail : List UInt8) :
    (∃ earlier, expected frames tail = earlier ++ [.error exceeded]) ↔
      ∃ piece ∈ frames ++ [tail], maxSseBufferBytes < piece.length := by
  by_cases fits : ∀ piece ∈ frames ++ [tail], Fits piece
  · constructor
    · rintro ⟨earlier, same⟩
      rw [expected, if_pos fits, List.append_nil] at same
      have member : Except.error exceeded ∈ earlier ++ [.error exceeded] :=
        List.mem_append_right _ (.head _)
      rw [← same] at member
      obtain ⟨_, -, other⟩ := List.mem_map.1 member
      exact nomatch other
    · rintro ⟨piece, member, long⟩
      exact absurd (fits piece member) (Nat.not_le.2 long)
  · constructor
    · intro _
      rw [not_forall] at fits
      obtain ⟨piece, long⟩ := fits
      rw [Classical.not_imp] at long
      exact ⟨piece, long.1, Nat.not_le.1 long.2⟩
    · intro _
      exact ⟨_, by rw [expected, if_neg fits]⟩

theorem sseDataPayloads_eq {chunks frames : List (List UInt8)} {tail : List UInt8}
    (cut : Cut endsFrame (normalized chunks.flatten) frames tail) :
    sseDataPayloads (chunks.map .ok) = expected frames tail := by
  have clear : ∀ frame ∈ frames, carriageReturn ∉ frame := by
    intro frame member inside
    have listed : carriageReturn ∈ normalized chunks.flatten := by
      rw [← cut.joined]
      exact List.mem_append_left _ (List.mem_flatten_of_mem member inside)
    exact absurd rfl (of_decide_eq_true (List.mem_filter.1 listed).2)
  have told : (frames.takeWhile fun frame => Fits frame).flatMap framePayloads =
      (frames.takeWhile fun frame => Fits frame).flatMap payloadsOf :=
    List.flatMap_congr fun frame member =>
      framePayloads_eq (clear frame ((List.takeWhile_prefix _).mem member))
  have carved : carve endsFrame maxSseBufferBytes [] (normalized chunks.flatten) =
      (frames.takeWhile fun frame => Fits frame,
        if ∀ piece ∈ frames ++ [tail], Fits piece then some tail else none) :=
    carve_eq cut (cut.rest.of_initial List.nil_prefix) (Nat.zero_le _)
  rw [sseDataPayloads, readChunks_eq, readBytes_eq, carved]
  simp only
  rw [expected, ← told]
  by_cases fits : ∀ piece ∈ frames ++ [tail], Fits piece
  · rw [if_pos fits, if_pos fits]
  · rw [if_neg fits, if_neg fits]

/-- However a stream of bytes is cut into chunks, the payloads of its frames are told, up to the
first frame that is too long. -/
theorem chunks_framed (chunks : List (List UInt8)) : ∃ frames tail, Framed chunks frames tail := by
  have empty : Open endsFrame [] := by
    intro front initial
    rw [List.prefix_nil.1 initial]
    rfl
  obtain ⟨frames, tail, cut⟩ := exists_cut empty (normalized chunks.flatten)
  have told := sseDataPayloads_eq cut
  refine ⟨frames, tail, cut, fun frames' tail' => cut.unique, told, ?_, ?_, ?_⟩
  · rw [told]
    exact expected_failed frames tail
  · intro others same
    rw [sseDataPayloads, sseDataPayloads, readChunks_eq, readChunks_eq]
    rcases same with same | same
    · rw [same]
    · rw [same, normalized_withReturns]
  · intro text
    have start : encode "data:".toList = "data:".toUTF8.data.toList := by decide
    rw [start, payloadOf, stripText_append, Option.map_some, fromUtf8Lossy_encode]

end Results

end Forge.SseFramer
