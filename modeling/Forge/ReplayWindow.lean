import Forge.EnvelopeSigning
import Forge.Library.MachineInt
import Forge.ResultConsumer

/-! The windows around the clock in which a signed message counts as fresh, on the words of the
machine. The timestamp is the sender's, and is looked at before any signature. -/

namespace Forge.ReplayWindow

open Forge.EnvelopeSigning (Mac hexDecode)
open Forge.Library.MachineInt
open Forge.Library.Text (splitOnce)

def timestampReplayWindowSecs : Int64 := 300

def withinReplayWindow (build : Build) (nowSecs timestamp : Int64) : Option Bool := do
  let age ← distance build nowSecs timestamp
  return decide (age ≤ timestampReplayWindowSecs)

section Stripe

def webhookToleranceSeconds : Int64 := 300

/-- The two values of a `Stripe-Signature` header that count. -/
structure SignatureHeader where
  timestamp : Option Int64
  signatures : List (List Char)

def SignatureHeader.read (header : SignatureHeader) (part : List Char) : SignatureHeader :=
  match splitOnce '=' part with
  | none => header
  | some (key, value) =>
      if key = "t".toList then { header with timestamp := parse value }
      else if key = "v1".toList then { header with signatures := header.signatures ++ [value] }
      else header

def readHeader (signature : List Char) : SignatureHeader :=
  (signature.splitOn ',').foldl SignatureHeader.read ⟨none, []⟩

/-- The test of `verify_stripe_signature` on the age of a payload. -/
def outsideTolerance (build : Build) (nowSecs timestamp : Int64) : Option Bool := do
  let age ← distance build nowSecs timestamp
  return decide (webhookToleranceSeconds < age)

inductive StripeError where
  | invalidWebhookSignature
deriving DecidableEq

/-- `none` is a panic. -/
def verifyStripeSignature (mac : Mac) (build : Build) (nowSecs : Int64) (payload : String)
    (signature : List Char) (webhookSecret : List UInt8) : Option (Except StripeError Unit) :=
  let header := readHeader signature
  match header.timestamp with
  | none => some (.error .invalidWebhookSignature)
  | some timestamp => do
      if ← outsideTolerance build nowSecs timestamp then
        return .error .invalidWebhookSignature
      let signedPayload := toString timestamp.toInt ++ "." ++ payload
      return if header.signatures.any fun candidate =>
          hexDecode (String.ofList candidate) = some (mac webhookSecret signedPayload) then .ok ()
        else .error .invalidWebhookSignature

end Stripe

section Windows

variable {build : Build} {nowSecs timestamp : Int64}

def Exact (check : Build → Int64 → Int64 → Option Bool) (window : Nat)
    (nowSecs timestamp : Int64) : Prop :=
  ∀ build, check build nowSecs timestamp =
    some (decide ((nowSecs.toInt - timestamp.toInt).natAbs ≤ window))

def withinTolerance (build : Build) (nowSecs timestamp : Int64) : Option Bool :=
  (outsideTolerance build nowSecs timestamp).map not

theorem le_iff_natAbs_le {age bound : Int64} {apart window : Nat} (size : age.toInt = apart)
    (limit : bound.toInt = window) : age ≤ bound ↔ apart ≤ window := by
  rw [Int64.le_iff_toInt_le, size, limit]
  exact Int.ofNat_le

theorem withinReplayWindow_of_close
    (close : (nowSecs.toInt - timestamp.toInt).natAbs < 2 ^ 63) :
    Exact withinReplayWindow 300 nowSecs timestamp := by
  intro build
  obtain ⟨age, answered, size⟩ := distance_of_close build close
  have bounded := @le_iff_natAbs_le age timestampReplayWindowSecs _ 300 size rfl
  rw [withinReplayWindow, answered]
  exact congrArg some (decide_eq_decide.2 bounded)

theorem withinTolerance_of_close
    (close : (nowSecs.toInt - timestamp.toInt).natAbs < 2 ^ 63) :
    Exact withinTolerance 300 nowSecs timestamp := by
  intro build
  obtain ⟨age, answered, size⟩ := distance_of_close build close
  have bounded := @le_iff_natAbs_le age webhookToleranceSeconds _ 300 size rfl
  rw [withinTolerance, outsideTolerance, answered]
  refine congrArg some ?_
  exact (decide_not).symm.trans (decide_eq_decide.2 (Int64.not_lt.trans bounded))

theorem close_of_exact {check : Build → Int64 → Int64 → Option Bool} {window : Nat}
    (needs : distance .checked nowSecs timestamp = none → check .checked nowSecs timestamp = none)
    (exact : Exact check window nowSecs timestamp) :
    (nowSecs.toInt - timestamp.toInt).natAbs < 2 ^ 63 := by
  by_contra far
  have panics := needs (distance_checked_of_far (Nat.le_of_not_lt far))
  rw [exact .checked] at panics
  cases panics

/-- Both windows are exact for the times that are less than `2 ^ 63` seconds apart. -/
theorem windows_exact_iff (nowSecs timestamp : Int64) :
    (Exact withinReplayWindow 300 nowSecs timestamp ↔
        (nowSecs.toInt - timestamp.toInt).natAbs < 2 ^ 63) ∧
      (Exact withinTolerance 300 nowSecs timestamp ↔
        (nowSecs.toInt - timestamp.toInt).natAbs < 2 ^ 63) := by
  refine ⟨⟨close_of_exact fun none => ?_, withinReplayWindow_of_close⟩,
    ⟨close_of_exact fun none => ?_, withinTolerance_of_close⟩⟩
  · rw [withinReplayWindow, none]
    rfl
  · rw [withinTolerance, outsideTolerance, none]
    rfl

/-- A timestamp `2 ^ 63` seconds before the clock: checked builds panic, and in the others both
windows take it for fresh. -/
theorem ancient_timestamp :
    withinReplayWindow .checked 1700000000 (-9223372035154775808) = none ∧
      withinReplayWindow .wrapping 1700000000 (-9223372035154775808) = some true ∧
      withinTolerance .checked 1700000000 (-9223372035154775808) = none ∧
      withinTolerance .wrapping 1700000000 (-9223372035154775808) = some true ∧
      ¬∀ nowSecs timestamp, Exact withinReplayWindow 300 nowSecs timestamp
        ∧ Exact withinTolerance 300 nowSecs timestamp := by
  refine ⟨by decide +kernel, by decide +kernel, by decide +kernel, by decide +kernel,
    fun all => ?_⟩
  have panics : withinReplayWindow .checked 1700000000 (-9223372035154775808) = none := by
    decide +kernel
  rw [(all _ _).1 .checked] at panics
  cases panics

theorem withinReplayWindow_eq (build : Build)
    (close : (nowSecs.toInt - timestamp.toInt).natAbs < 2 ^ 63) :
    withinReplayWindow build nowSecs timestamp =
      some (ResultConsumer.withinReplayWindow nowSecs.toInt timestamp.toInt) := by
  rw [withinReplayWindow_of_close close build]
  rfl

/-- A payload that is verified carries a timestamp; where the build checks for overflow, or the
timestamp is not `2 ^ 63` seconds away, it is within the tolerance. -/
theorem fresh_of_verified {mac : Mac} {payload : String} {signature : List Char}
    {webhookSecret : List UInt8}
    (verified : verifyStripeSignature mac build nowSecs payload signature webhookSecret =
      some (.ok ())) :
    ∃ timestamp, (readHeader signature).timestamp = some timestamp
      ∧ ((nowSecs.toInt - timestamp.toInt).natAbs < 2 ^ 63 →
        (nowSecs.toInt - timestamp.toInt).natAbs ≤ 300) := by
  rw [verifyStripeSignature] at verified
  split at verified
  case h_1 => cases verified
  case h_2 timestamp read =>
      refine ⟨timestamp, read, fun close => ?_⟩
      have inside := withinTolerance_of_close close build
      obtain ⟨outside, tested, rest⟩ := Option.bind_eq_some_iff.1 verified
      rw [withinTolerance, tested] at inside
      cases outside with
      | true => cases rest
      | false => exact of_decide_eq_true (Option.some.inj inside).symm

end Windows

end Forge.ReplayWindow
