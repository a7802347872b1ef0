import Forge.EnvelopeSigning
import Forge.Library.Utf8
import Forge.ResultConsumer

/-! What a sidecar keeps of the output of a command, and the envelope in which it publishes it. -/

namespace Forge.ResultWire

open Forge.EnvelopeSigning hiding SignedEnvelope
open Forge.Library.CompactJson
open Forge.Library.Identifier
open Forge.Library.JsonDocument (Json)
open Forge.Library.Utf8
open Forge.OrchestrationView (isWhitespace)
open Forge.ResultConsumer (TaskOutcome TaskResult)

section Output

def maxOutputBytes : Nat := 256 * 1024

def truncationMark : List Char := "\n... [truncated — output exceeded 256KB]".toList

def truncateOutput (text : List Char) : List Char :=
  if size text ≤ maxOutputBytes then text
  else slice text (floorBoundary text maxOutputBytes) ++ truncationMark

def isBlank (text : List Char) : Bool := text.all isWhitespace

inductive ExitStatus where
  | success
  | failure (code : Option Int) (text : String)
deriving DecidableEq

structure Output where
  status : ExitStatus
  stdout : List UInt8
  stderr : List UInt8

def failureOutput (output : Output) (cliTool text : String) : List Char :=
  let stderr := fromUtf8Lossy output.stderr
  let stdout := fromUtf8Lossy output.stdout
  if !isBlank stderr then truncateOutput stderr
  else if !isBlank stdout then truncateOutput stdout
  else ("cli_tool '" ++ cliTool ++ "' exited with " ++ text ++ " without diagnostic output").toList

def runCli (cliTool : String) (output : Output) : TaskOutcome :=
  match output.status with
  | .success => .completed (String.ofList (truncateOutput (fromUtf8Lossy output.stdout)))
  | .failure code text => .failed (String.ofList (failureOutput output cliTool text)) code

end Output

section Wire

variable {format : FloatFormat}

def outcomeValue : TaskOutcome → Value format
  | .completed stdout => .object [("status", .string "completed"), ("stdout", .string stdout)]
  | .failed stderr exitCode => .object
      [("exit_code", exitCode.elim .null .int), ("status", .string "failed"),
        ("stderr", .string stderr)]

/-- `serde_json::to_value` of a result: fields that are none are left out, and the others are
sorted. -/
def toValue (result : TaskResult) : Value format :=
  .object ([("agent_id", .string result.agentId.toText)]
    ++ (result.attempt.map fun attempt => ("attempt", .int attempt)).toList
    ++ (result.deliveryId.map fun id => ("delivery_id", .string id.toText)).toList
    ++ [("outcome", outcomeValue result.outcome), ("task_id", .string result.taskId.toText)])

/-- `serde_json::to_vec` of an envelope. -/
def envelopeText (envelope : EnvelopeSigning.SignedEnvelope format) : List Char :=
  print (.object [("payload", envelope.payload), ("timestamp", .int envelope.timestamp),
    ("agent_id", .string envelope.agentId), ("signature", .string envelope.signature)])

/-- The body of the message in `publish_result`, from the sidecar of the agent. -/
def publishedBody (format : FloatFormat) (mac : Mac) (key : List UInt8) (timestamp : Int)
    (result : TaskResult) : List Char :=
  envelopeText (sign mac key result.agentId.toText timestamp (toValue result : Value format))

def maxPayload : Nat := 1024 * 1024

end Wire

section Sizes

variable {format : FloatFormat}

def isShort (c : Char) : Bool :=
  c = '"' || c = '\\' || c = '\n' || c = '\r' || c = '\t' || c.toNat = 8 || c.toNat = 12

def isLong (c : Char) : Bool :=
  !isShort c && c.toNat < 32

theorem utf8Size_of_lt {c : Char} (small : c.toNat < 128) : c.utf8Size = 1 := by
  have bound : c.val ≤ 127 := by
    rw [UInt32.le_iff_toNat_le]
    exact Nat.lt_succ_iff.mp small
  simp [Char.utf8Size, bound]

theorem size_escapeChar (c : Char) : size (Json.escapeChar c)
    = c.utf8Size + (if isShort c then 1 else 0) + (if isLong c then 5 else 0) := by
  have short {text : List Char} (isShort_ : isShort c = true) (small : c.toNat < 128)
      (two : size text = 2) : size text
        = c.utf8Size + (if isShort c then 1 else 0) + (if isLong c then 5 else 0) := by
    rw [two, utf8Size_of_lt small, isLong, isShort_]
    rfl
  have unicode : ∀ n < 32, size ('\\' :: 'u' :: (Library.Text.digits 16 4 n).map Nat.digitChar)
      = 6 := by decide
  rw [Json.escapeChar]
  split
  next same => exact short (by simp [isShort, same]) (by simp [same]) rfl
  next noQuote =>
  split
  next same => exact short (by simp [isShort, same]) (by simp [same]) rfl
  next noSlash =>
  split
  next same => exact short (by simp [isShort, same]) (by simp [same]) rfl
  next noNewline =>
  split
  next same => exact short (by simp [isShort, same]) (by simp [same]) rfl
  next noReturn =>
  split
  next same => exact short (by simp [isShort, same]) (by simp [same]) rfl
  next noTab =>
  split
  next same => exact short (by simp [isShort, same]) (by omega) rfl
  next noBackspace =>
  split
  next same => exact short (by simp [isShort, same]) (by omega) rfl
  next noFeed =>
  have plain : isShort c = false := by
    simp [isShort, noQuote, noSlash, noNewline, noReturn, noTab, noBackspace, noFeed]
  split
  next control =>
    have long : isLong c = true := by simp [isLong, plain, control]
    rw [unicode c.toNat control, utf8Size_of_lt (by omega), plain, long]
    rfl
  next printable =>
    have notLong : isLong c = false := by simp [isLong, printable]
    rw [plain, notLong]
    rfl

def quotedSize (text : List Char) : Nat :=
  size text + text.countP isShort + 5 * text.countP isLong

theorem size_escaped (text : List Char) :
    size (text.flatMap Json.escapeChar) = quotedSize text := by
  induction text with
  | nil => rfl
  | cons c rest ih =>
      rw [List.flatMap_cons, size_append, ih, size_escapeChar, quotedSize, quotedSize, size_cons,
        List.countP_cons, List.countP_cons]
      split <;> split <;> omega

theorem size_quoted (text : String) : size (quoted text) = 2 + quotedSize text.toList := by
  rw [quoted, size_cons, size_append, size_escaped]
  show 1 + (_ + 1) = _
  omega

def isPlain (c : Char) : Bool :=
  c.utf8Size = 1 && !isShort c && !isLong c

theorem quotedSize_plain {text : List Char} (plain : ∀ c ∈ text, isPlain c = true) :
    quotedSize text = text.length := by
  induction text with
  | nil => rfl
  | cons c rest ih =>
      obtain ⟨first, others⟩ := List.forall_mem_cons.mp plain
      have inner := ih others
      simp only [isPlain, Bool.and_eq_true, Bool.not_eq_true', decide_eq_true_eq] at first
      rw [quotedSize] at inner ⊢
      rw [size_cons, List.countP_cons, List.countP_cons, first.1.1, first.1.2, first.2]
      simp only [Bool.false_eq_true, if_false, List.length_cons]
      omega

theorem isPlain_digitChar {n : Nat} (small : n < 16) : isPlain (Nat.digitChar n) = true := by
  have table : ∀ n < 16, isPlain (Nat.digitChar n) = true := by decide
  exact table n small

theorem size_hexEncode (bytes : List UInt8) :
    size (quoted (hexEncode bytes)) = 2 + 2 * bytes.length := by
  rw [size_quoted, hexEncode, String.toList_ofList, quotedSize_plain]
  · congr 1
    induction bytes with
    | nil => rfl
    | cons byte rest ih =>
        rw [List.flatMap_cons, List.length_append, List.length_map, Library.Text.length_digits, ih,
          List.length_cons]
        omega
  · intro c member
    obtain ⟨byte, _, inByte⟩ := List.mem_flatMap.mp member
    obtain ⟨digit, isDigit, rfl⟩ := List.mem_map.mp inByte
    exact isPlain_digitChar (Library.Text.lt_of_mem_digits (by decide) isDigit)

theorem size_toText (id : Uuid) : size (quoted id.toText) = 38 := by
  have hex : ∀ c ∈ id.hexDigits, isPlain c = true := by
    intro c member
    obtain ⟨digit, isDigit, rfl⟩ := List.mem_map.mp member
    exact isPlain_digitChar (Library.Text.lt_of_mem_digits (by decide) isDigit)
  rw [size_quoted, Uuid.toText, String.toList_ofList, quotedSize_plain,
    Uuid.length_hyphenate id.length_hexDigits]
  have group (count n : Nat) : ∀ c ∈ (id.hexDigits.drop n).take count, isPlain c = true :=
    fun c member => hex c (List.mem_of_mem_drop (List.mem_of_mem_take member))
  intro c member
  simp only [Uuid.hyphenate, List.append_assoc, List.mem_append, List.mem_cons] at member
  rcases member with first | (rfl | second) | (rfl | third) | (rfl | fourth) | rfl | fifth
  · exact hex c (List.mem_of_mem_take first)
  · rfl
  · exact group 4 8 c second
  · rfl
  · exact group 4 12 c third
  · rfl
  · exact group 4 16 c fourth
  · rfl
  · exact hex c (List.mem_of_mem_drop fifth)

def withText : TaskOutcome → String → TaskOutcome
  | .completed _, text => .completed text
  | .failed _ exitCode, text => .failed text exitCode

def textOf : TaskOutcome → String
  | .completed stdout => stdout
  | .failed stderr _ => stderr

theorem punctuation : Char.utf8Size '\x7b' = 1 ∧ Char.utf8Size '\x7d' = 1 ∧ Char.utf8Size ':' = 1
    ∧ Char.utf8Size ',' = 1 := by decide

theorem size_outcomeValue (outcome : TaskOutcome) :
    size (print (outcomeValue outcome : Value format))
      = size (print (outcomeValue (withText outcome "") : Value format))
        + quotedSize (textOf outcome).toList := by
  cases outcome with
  | completed stdout =>
      simp only [outcomeValue, withText, textOf, print, printFields, size_cons, size_append,
        size_quoted]
      have none : quotedSize "".toList = 0 := rfl
      omega
  | failed stderr exitCode =>
      simp only [outcomeValue, withText, textOf, print, printFields, size_cons, size_append,
        size_quoted]
      have none : quotedSize "".toList = 0 := rfl
      omega

theorem size_toValue (result : TaskResult) :
    size (print (toValue result : Value format))
      = size (print (toValue { result with outcome := withText result.outcome "" } : Value format))
        + quotedSize (textOf result.outcome).toList := by
  have inner : size (print (outcomeValue result.outcome : Value format)) = _ :=
    size_outcomeValue result.outcome
  rcases result with ⟨deliveryId, attempt, taskId, agentId, outcome⟩
  cases deliveryId <;> cases attempt <;>
    simp only [toValue, Option.map_none, Option.map_some, Option.toList_none, Option.toList_some,
      List.cons_append, List.nil_append, print, printFields, size_cons, size_append, size_toText,
      size_nil, punctuation] at inner ⊢ <;>
    rw [inner] <;> clear inner <;>
    generalize size (quoted "agent_id") = agentKey, size (quoted "attempt") = attemptKey,
      size (quoted "delivery_id") = deliveryKey, size (quoted "outcome") = outcomeKey,
      size (quoted "task_id") = taskKey, quotedSize (textOf outcome).toList = text <;>
    omega

variable {mac : Mac} {key : List UInt8}

theorem size_publishedBody (digest : ∀ message, (mac key message).length = 32) (timestamp : Int)
    (result : TaskResult) :
    size (publishedBody format mac key timestamp result)
      = size (publishedBody format mac key timestamp
          { result with outcome := withText result.outcome "" })
        + quotedSize (textOf result.outcome).toList := by
  have payload : size (print (toValue result : Value format)) = _ := size_toValue result
  have signature (value : Value format) : size (quoted (computeSignature mac key
      result.agentId.toText timestamp value)) = 66 := by
    rw [computeSignature, size_hexEncode, digest]
  simp only [publishedBody, envelopeText, sign, print, printFields, size_cons, size_append, payload,
    size_nil, signature, punctuation]
  generalize size (quoted "payload") = payloadKey, size (quoted "timestamp") = timeKey,
    size (quoted "agent_id") = agentKey, size (quoted "signature") = signatureKey,
    quotedSize (textOf result.outcome).toList = text, size (decimal timestamp) = time,
    size (quoted result.agentId.toText) = agent,
    size (print (toValue { result with outcome := withText result.outcome "" } : Value format))
      = rest
  omega

end Sizes

section Main

def reportedText (output : Output) : Option (List Char) :=
  match output.status with
  | .success => some (fromUtf8Lossy output.stdout)
  | .failure _ _ =>
      if !isBlank (fromUtf8Lossy output.stderr) then some (fromUtf8Lossy output.stderr)
      else if !isBlank (fromUtf8Lossy output.stdout) then some (fromUtf8Lossy output.stdout)
      else none

/-- What is kept of a text is the text, or as many of its first characters as the limit lets, and a
mark behind them. -/
def KeptOf (text kept : List Char) : Prop :=
  (kept = text ∧ size text ≤ maxOutputBytes)
    ∨ ∃ front, kept = front ++ truncationMark ∧ maxOutputBytes < size text ∧ front <+: text
      ∧ size front ≤ maxOutputBytes
      ∧ ∀ longer, longer <+: text → size longer ≤ maxOutputBytes → longer <+: front

theorem keptOf_truncateOutput (text : List Char) : KeptOf text (truncateOutput text) := by
  rw [truncateOutput]
  split
  next fits => exact .inl ⟨rfl, fits⟩
  next longer =>
    rw [slice_floorBoundary]
    exact .inr ⟨_, rfl, Nat.lt_of_not_le longer, slice_initial _ _, size_slice_le _ _,
      fun _ => initial_slice⟩

def keptSize (cliTool : String) (output : Output) : Nat :=
  match reportedText output, output.status with
  | some text, _ => quotedSize (slice text maxOutputBytes)
      + if size text ≤ maxOutputBytes then 0 else quotedSize truncationMark
  | none, .failure _ text => quotedSize ("cli_tool '" ++ cliTool ++ "' exited with " ++ text
      ++ " without diagnostic output").toList
  | none, .success => 0

theorem quotedSize_append (first second : List Char) :
    quotedSize (first ++ second) = quotedSize first + quotedSize second := by
  rw [quotedSize, quotedSize, quotedSize, size_append, List.countP_append, List.countP_append]
  omega

theorem quotedSize_truncateOutput (text : List Char) : quotedSize (truncateOutput text)
    = quotedSize (slice text maxOutputBytes)
      + if size text ≤ maxOutputBytes then 0 else quotedSize truncationMark := by
  rw [truncateOutput]
  split
  next fits => rw [slice_of_fits fits, Nat.add_zero]
  next => rw [quotedSize_append, slice_floorBoundary]

theorem reported_kept {cliTool : String} {output : Output} {text : List Char}
    (reported : reportedText output = some text) :
    (textOf (runCli cliTool output)).toList = truncateOutput text := by
  rcases output with ⟨status, stdout, stderr⟩
  cases status with
  | success =>
      obtain rfl := Option.some.inj reported
      exact String.toList_ofList
  | failure code display =>
      rw [runCli, textOf, String.toList_ofList, failureOutput]
      rw [reportedText] at reported
      dsimp only at reported ⊢
      split at reported
      next shown =>
        obtain rfl := Option.some.inj reported
        rw [if_pos shown]
      next blank =>
        split at reported
        next shown =>
          obtain rfl := Option.some.inj reported
          rw [if_neg blank, if_pos shown]
        · cases reported

theorem keptSize_eq (cliTool : String) (output : Output) :
    quotedSize (textOf (runCli cliTool output)).toList = keptSize cliTool output := by
  cases reported : reportedText output with
  | some text => rw [reported_kept reported, quotedSize_truncateOutput, keptSize, reported]
  | none =>
      rcases output with ⟨status, stdout, stderr⟩
      cases status with
      | success => cases reported
      | failure code display =>
          rw [keptSize, reported, runCli, textOf, String.toList_ofList, failureOutput]
          rw [reportedText] at reported
          dsimp only at reported ⊢
          split at reported
          · cases reported
          next blank =>
            split at reported
            · cases reported
            next blankToo => rw [if_neg blank, if_neg blankToo]

def resultOf (assignment : TaskResult) (cliTool : String) (output : Output) : TaskResult :=
  { assignment with outcome := runCli cliTool output }

def aroundSize (format : FloatFormat) (mac : Mac) (key : List UInt8) (timestamp : Int)
    (assignment : TaskResult) (output : Output) : Nat :=
  size (publishedBody format mac key timestamp
    { assignment with outcome := withText (runCli "" output) "" })

theorem withText_runCli (cliTool other : String) (output : Output) (text : String) :
    withText (runCli cliTool output) text = withText (runCli other output) text := by
  rcases output with ⟨status, stdout, stderr⟩
  cases status <;> rfl

/-- What is kept is cut at a character, and its envelope is below the limit exactly when the text
leaves room for its escapes. -/
theorem result_fits_iff (format : FloatFormat) (mac : Mac) (key : List UInt8)
    (digest : ∀ message, (mac key message).length = 32) (timestamp : Int) (assignment : TaskResult)
    (cliTool : String) (output : Output) :
    ((∀ text, reportedText output = some text →
        KeptOf text (textOf (runCli cliTool output)).toList)
      ∧ size (publishedBody format mac key timestamp (resultOf assignment cliTool output))
        < maxPayload)
    ↔ keptSize cliTool output + aroundSize format mac key timestamp assignment output
        < maxPayload := by
  have kept (text : List Char) (reported : reportedText output = some text) :
      KeptOf text (textOf (runCli cliTool output)).toList := by
    rw [reported_kept reported]
    exact keptOf_truncateOutput text
  have sizes : size (publishedBody format mac key timestamp (resultOf assignment cliTool output))
      = keptSize cliTool output + aroundSize format mac key timestamp assignment output := by
    have emptied : { resultOf assignment cliTool output with
        outcome := withText (resultOf assignment cliTool output).outcome "" }
        = { assignment with outcome := withText (runCli "" output) "" } := by
      rw [resultOf, withText_runCli cliTool ""]
    have text : quotedSize (textOf (resultOf assignment cliTool output).outcome).toList
        = keptSize cliTool output := keptSize_eq cliTool output
    rw [size_publishedBody digest, emptied, text, aroundSize]
    exact Nat.add_comm ..
  rw [sizes]
  exact and_iff_right kept

def quietResult : TaskResult := ⟨some ⟨1⟩, some 1, ⟨2⟩, ⟨3⟩, .completed ""⟩

/-- A command that prints 262144 zero bytes: each is kept, and is six bytes on the wire. -/
theorem zeros_do_not_fit : ∃ (mac : Mac) (key : List UInt8) (output : Output),
    (∀ message, (mac key message).length = 32)
    ∧ ¬ size (publishedBody scientific mac key 1700000000 (resultOf quietResult "claude" output))
      < maxPayload := by
  refine ⟨fun _ _ => List.replicate 32 0, [], ⟨.success, List.replicate 262144 0, []⟩,
    fun _ => List.length_replicate, ?_⟩
  rw [size_publishedBody (fun _ => List.length_replicate)]
  have zero : (Char.ofNat 0).utf8Size = 1 := rfl
  have kept : (textOf (resultOf quietResult "claude"
      ⟨.success, List.replicate 262144 0, []⟩).outcome).toList
      = List.replicate 262144 (Char.ofNat 0) := by
    have reported : (textOf (runCli "claude" ⟨.success, List.replicate 262144 0, []⟩)).toList
        = truncateOutput (fromUtf8Lossy (List.replicate 262144 0)) := reported_kept rfl
    refine reported.trans ?_
    rw [fromUtf8Lossy_replicate_zero, truncateOutput, size_replicate, zero, if_pos (by decide)]
  have long : isLong (Char.ofNat 0) = true := rfl
  rw [kept, quotedSize, size_replicate, zero, List.countP_replicate, List.countP_replicate,
    if_pos long]
  simp only [maxPayload]
  omega

theorem empty_output_fits : (∀ text, reportedText ⟨.success, [], []⟩ = some text →
      KeptOf text (textOf (runCli "claude" ⟨.success, [], []⟩)).toList)
    ∧ size (publishedBody scientific (fun _ _ => List.replicate 32 0) [] 1700000000
        (resultOf quietResult "claude" ⟨.success, [], []⟩)) < maxPayload :=
  (result_fits_iff scientific (fun _ _ => List.replicate 32 0) []
    (fun _ => List.length_replicate) 1700000000 quietResult "claude" ⟨.success, [], []⟩).mpr (by
      decide +kernel)

end Main

end Forge.ResultWire
