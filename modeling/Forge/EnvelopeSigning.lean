import Forge.Library.CompactJson

/-! Envelopes that are signed for an agent, at a time, with a payload. -/

namespace Forge.EnvelopeSigning

open Forge.Library.CompactJson
open Forge.Library.JsonText (hexValue)
open Forge.Library.Text

/-- The payload is a `serde_json::Value`. -/
structure SignedEnvelope (format : FloatFormat) where
  payload : Value format
  timestamp : Int
  agentId : String
  signature : String

section Signing

variable {format : FloatFormat}

def signData (agentId : String) (timestamp : Int) (payload : Value format) : String :=
  agentId ++ ":" ++ toString timestamp ++ ":" ++ String.ofList (print payload)

/-- `hex::encode`. -/
def hexEncode (bytes : List UInt8) : String :=
  String.ofList (bytes.flatMap fun byte => (digits 16 2 byte.toNat).map Nat.digitChar)

def hexPairs : List Char → Option (List UInt8)
  | [] => some []
  | [_] => none
  | high :: low :: rest => do
      some (.ofNat (16 * (← hexValue high) + (← hexValue low)) :: (← hexPairs rest))

/-- `hex::decode`: digits of either case. -/
def hexDecode (text : String) : Option (List UInt8) :=
  hexPairs text.toList

abbrev Mac := List UInt8 → String → List UInt8

variable (mac : Mac) (key : List UInt8)

def computeSignature (agentId : String) (timestamp : Int) (payload : Value format) : String :=
  hexEncode (mac key (signData agentId timestamp payload))

def sign (agentId : String) (timestamp : Int) (payload : Value format) : SignedEnvelope format :=
  ⟨payload, timestamp, agentId, computeSignature mac key agentId timestamp payload⟩

def verify (envelope : SignedEnvelope format) : Bool :=
  match hexDecode envelope.signature with
  | none => false
  | some bytes => bytes = mac key (signData envelope.agentId envelope.timestamp envelope.payload)

end Signing

section Ambiguity

variable {format : FloatFormat}

theorem no_overhang {agent front surplus : List Char} {timestamp : Int} {first second : Value format}
    (fronts : agent ++ ':' :: decimal timestamp ++ [':'] = front ++ surplus)
    (behind : print first = surplus ++ print second) : surplus = [] := by
  rcases List.eq_nil_or_concat' surplus with none | ⟨before, colon, rfl⟩
  · exact none
  obtain ⟨after, outside⟩ := outside_print first false
  rw [← List.append_assoc] at fronts
  obtain ⟨texts, last⟩ := List.append_inj' fronts rfl
  obtain rfl := List.singleton_injective last
  rw [behind, scan_append, scan_append] at outside
  obtain ⟨mode, reached, ends⟩ := Option.bind_eq_some_iff.mp outside
  obtain ⟨earlier, begins, stepped⟩ := Option.bind_eq_some_iff.mp reached
  have never : mode ≠ .inside := by
    rintro rfl
    obtain ⟨closed, other⟩ := outside_print second false
    exact not_both other ends
  cases earlier with
  | inside => exact absurd (Option.some.inj stepped).symm never
  | escaped => exact absurd (Option.some.inj stepped).symm never
  | outside closed =>
      cases closed with
      | false => cases stepped
      | true =>
          rcases List.eq_nil_or_concat' before with rfl | ⟨others, last, rfl⟩
          · cases begins
          · obtain rfl := quote_of_closed begins
            obtain ⟨digits, digit, text, isDigit⟩ := decimal_last timestamp
            rw [text, ← List.cons_append, ← List.append_assoc, ← List.append_assoc] at texts
            obtain ⟨_, same⟩ := List.append_inj' texts rfl
            rw [List.singleton_injective same] at isDigit
            cases isDigit

theorem front_injective {agent agent' : List Char} {timestamp timestamp' : Int}
    (same : agent ++ ':' :: decimal timestamp = agent' ++ ':' :: decimal timestamp') :
    agent = agent' ∧ timestamp = timestamp' := by
  have noColon (number : Int) : ':' ∉ decimal number := fun member =>
    (plain_of_numeric (numeric_of_mem_decimal member)).2.2 rfl
  have whole (between : List Char) (number number' : Int)
      (same : ':' :: decimal number = between ++ ':' :: decimal number') :
      between = [] ∧ number = number' := by
    cases between with
    | nil => exact ⟨rfl, decimal_injective (List.cons.inj same).2⟩
    | cons c rest =>
        have inside := (List.cons.inj same).2
        exact absurd (inside ▸ List.mem_append_right _ (.head _)) (noColon number)
  rcases List.append_eq_append_iff.mp same with ⟨between, front, behind⟩ | ⟨between, front, behind⟩
  · obtain ⟨rfl, times⟩ := whole between _ _ behind
    exact ⟨by rw [front, List.append_nil], times⟩
  · obtain ⟨rfl, times⟩ := whole between _ _ behind
    exact ⟨by rw [front, List.append_nil], times.symm⟩

theorem signData_toList (agentId : String) (timestamp : Int) (payload : Value format) :
    (signData agentId timestamp payload).toList
      = (agentId.toList ++ ':' :: decimal timestamp ++ [':']) ++ print payload := by
  simp [signData, decimal]

theorem signData_inj {agentId agentId' : String} {timestamp timestamp' : Int}
    {payload payload' : Value format}
    (same : signData agentId timestamp payload = signData agentId' timestamp' payload') :
    agentId = agentId' ∧ timestamp = timestamp' ∧ payload = payload' := by
  have texts := congrArg String.toList same
  rw [signData_toList, signData_toList] at texts
  have fronts : agentId.toList ++ ':' :: decimal timestamp ++ [':']
      = agentId'.toList ++ ':' :: decimal timestamp' ++ [':'] ∧ print payload = print payload' := by
    rcases List.append_eq_append_iff.mp texts with ⟨surplus, front, behind⟩ | ⟨surplus, front, behind⟩
    · obtain rfl := no_overhang front behind
      exact ⟨by simpa using front.symm, behind⟩
    · obtain rfl := no_overhang front behind
      exact ⟨by simpa using front, behind.symm⟩
  obtain ⟨front, payloads⟩ := fronts
  obtain ⟨front, _⟩ := List.append_inj' front rfl
  obtain ⟨agents, times⟩ := front_injective front
  exact ⟨String.toList_injective agents, times, print_injective payloads⟩

end Ambiguity

section Transplants

variable {format : FloatFormat}

theorem hexPairs_encode (bytes : List UInt8) :
    hexPairs (bytes.flatMap fun byte => (digits 16 2 byte.toNat).map Nat.digitChar)
      = some bytes := by
  have nibble : ∀ n < 16, hexValue (Nat.digitChar n) = some n := by decide
  induction bytes with
  | nil => rfl
  | cons byte rest ih =>
      have bound := byte.toNat_lt
      have text : (digits 16 2 byte.toNat).map Nat.digitChar
          = [Nat.digitChar (byte.toNat / 16 % 16), Nat.digitChar (byte.toNat % 16)] := rfl
      have high := nibble (byte.toNat / 16 % 16) (by omega)
      have low := nibble (byte.toNat % 16) (by omega)
      have value : 16 * (byte.toNat / 16 % 16) + byte.toNat % 16 = byte.toNat := by omega
      rw [List.flatMap_cons, text, List.cons_append, List.singleton_append, hexPairs, high, low, ih]
      simp only [Option.bind_eq_bind, Option.bind_some, value, UInt8.ofNat_toNat]

theorem hexDecode_encode (bytes : List UInt8) : hexDecode (hexEncode bytes) = some bytes := by
  rw [hexDecode, hexEncode, String.toList_ofList, hexPairs_encode]

end Transplants

end Forge.EnvelopeSigning
