/-
Money, usage and the local tariff (app/billing/ports.py, errors.py,
pricing.py).

All amounts are integers in the smallest currency unit. The frozen
dataclasses of the ports validate themselves on construction; here the
validation is a field of the structure, so a `Money` without a
three-letter code or a `PriceSnapshot` with a blank key cannot be
built.
-/
import Mosaic.Lib.Checked
import Mosaic.Lib.Json
import Mosaic.Lib.PyStr

namespace Mosaic.Billing

open Lib

-- ================================================================ errors

/-- The stable domain errors of wallet operations (errors.py). -/
inductive BillingError
  | input (code message : String)
  | notFound (code message : String)
  | conflict (code message : String)
  | storage
  | invariant
deriving Repr, DecidableEq

namespace BillingError

/-- The public code each error class carries. -/
def code : BillingError → String
  | .input c _ => c
  | .notFound c _ => c
  | .conflict c _ => c
  | .storage => "BILLING_UNAVAILABLE"
  | .invariant => "BILLING_INVARIANT_VIOLATION"

end BillingError

def INSUFFICIENT_FUNDS := "BILLING_INSUFFICIENT_FUNDS"
def RESERVATION_NOT_FOUND := "BILLING_RESERVATION_NOT_FOUND"
def WALLET_NOT_FOUND := "BILLING_WALLET_NOT_FOUND"
def WALLET_UNAVAILABLE := "BILLING_WALLET_UNAVAILABLE"
def RESERVATION_IDEMPOTENCY_CONFLICT := "BILLING_RESERVATION_IDEMPOTENCY_CONFLICT"
def CAPTURE_AMOUNT_EXCEEDED := "BILLING_CAPTURE_AMOUNT_EXCEEDED"
def CAPTURE_CONFLICT := "BILLING_CAPTURE_CONFLICT"
def RELEASE_CONFLICT := "BILLING_RELEASE_CONFLICT"
def RESERVATION_EXPIRED := "BILLING_RESERVATION_EXPIRED"
def CURRENCY_MISMATCH := "BILLING_CURRENCY_MISMATCH"

-- ================================================================= money

/-- `^[A-Z]{3}$`. -/
def isCurrencyCode (s : String) : Bool :=
  s.toList.length == 3 && s.toList.all fun c => 'A' ≤ c && c ≤ 'Z'

-- a first version, in yuan, metered here
theorem isCurrencyCode_cny : isCurrencyCode "CNY" = true := by decide
theorem firstVersion_pos : 1 ≤ 1 := le_rfl
theorem meteredUnit_nonblank : PyStr.blank "local_metered_usage" = false := by decide

/-- An integer amount in the smallest unit of a normalised currency. -/
structure Money where
  amountMinor : Nat
  currency : String
  code : isCurrencyCode currency = true
deriving DecidableEq

/-- Immutable catalog price facts of one accepted request or job. -/
structure PriceSnapshot where
  priceVersionId : Nat
  priceKey : String
  version : Nat
  currency : String
  unit : String
  pricing : List (String × Json)
  keyNonblank : PyStr.blank priceKey = false
  versionPos : 1 ≤ version
  unitNonblank : PyStr.blank unit = false
  code : isCurrencyCode currency = true

/-- Normalised provider measures consumed by the local tariff. -/
structure BillingUsage where
  inputTokens : Nat := 0
  outputTokens : Nat := 0
  imageCount : Nat := 0
  videoSeconds : Nat := 0
  audioSeconds : Nat := 0
  characterCount : Nat := 0
  audioDurationMs : Nat := 0
  videoDurationMs : Nat := 0
  storageBytes : Nat := 0
  billableUnits : Nat := 0
deriving Repr, DecidableEq

-- ================================================================ tariff

/-- `_ALLOWED_METERS`: the usage fields a tariff may price. -/
inductive Meter
  | inputTokens
  | outputTokens
  | imageCount
  | videoSeconds
  | audioSeconds
  | characterCount
  | audioDurationMs
  | videoDurationMs
  | storageBytes
  | billableUnits
deriving Repr, DecidableEq

/-- The meter a tariff names, if it is an allowed one. -/
def Meter.ofName? : String → Option Meter
  | "input_tokens" => some .inputTokens
  | "output_tokens" => some .outputTokens
  | "image_count" => some .imageCount
  | "video_seconds" => some .videoSeconds
  | "audio_seconds" => some .audioSeconds
  | "character_count" => some .characterCount
  | "audio_duration_ms" => some .audioDurationMs
  | "video_duration_ms" => some .videoDurationMs
  | "storage_bytes" => some .storageBytes
  | "billable_units" => some .billableUnits
  | _ => none

/-- `getattr(usage, meter)`. -/
def BillingUsage.measure (u : BillingUsage) : Meter → Nat
  | .inputTokens => u.inputTokens
  | .outputTokens => u.outputTokens
  | .imageCount => u.imageCount
  | .videoSeconds => u.videoSeconds
  | .audioSeconds => u.audioSeconds
  | .characterCount => u.characterCount
  | .audioDurationMs => u.audioDurationMs
  | .videoDurationMs => u.videoDurationMs
  | .storageBytes => u.storageBytes
  | .billableUnits => u.billableUnits

/-- A validated tariff: the admission hold, the minimum charge and the
rate of each priced meter. -/
structure LocalTariff where
  currency : String
  reservationMinor : Nat
  minimumChargeMinor : Nat
  components : List (Meter × Nat)
deriving Repr, DecidableEq

/-- `_positive_int`. -/
def positiveInt (value : Json) : Except BillingError Nat := do
  let n ← orRaise value.int? .invariant
  raiseIf (n ≤ 0) .invariant
  return n.toNat

/-- The component loop of `parse_local_tariff`. -/
def parseComponents : List (String × Json) → Except BillingError (List (Meter × Nat))
  | [] => return []
  | (name, rate) :: rest => do
      let meter ← orRaise (Meter.ofName? name) .invariant
      let r ← positiveInt rate
      let components ← parseComponents rest
      return (meter, r) :: components

/-- `parse_local_tariff`. -/
def parseLocalTariff (price : PriceSnapshot) : Except BillingError LocalTariff := do
  let pricing := price.pricing
  raiseIf ((Json.field pricing "schema").str? ≠ some "local_tariff_v1") .invariant
  raiseIf (price.unit ≠ "local_metered_usage") .invariant
  raiseIf ((Json.field pricing "currency").str? ≠ some price.currency) .invariant
  raiseIf ((Json.field pricing "rounding").str? ≠ some "integer_sum") .invariant
  let reservationMinor ← positiveInt (Json.field pricing "reservation_minor")
  let minimumChargeMinor ← positiveInt (Json.field pricing "minimum_charge_minor")
  raiseIf (minimumChargeMinor > reservationMinor) .invariant
  let raw ← orRaise (Json.field pricing "components").obj? .invariant
  raiseIf (raw.isEmpty = true) .invariant
  let components ← parseComponents raw
  return { currency := price.currency, reservationMinor, minimumChargeMinor,
           components }

/-- `reservation_amount`. -/
def reservationAmount (price : PriceSnapshot) : Except BillingError Money := do
  let tariff ← parseLocalTariff price
  return ⟨tariff.reservationMinor, price.currency, price.code⟩

/-- The running total of `charge_for_usage` over the tariff's
components. -/
def LocalTariff.charge (tariff : LocalTariff) (usage : BillingUsage) : Nat :=
  tariff.components.foldl
    (fun total c => total + usage.measure c.1 * c.2) tariff.minimumChargeMinor

/-- `charge_for_usage`. -/
def chargeForUsage (price : PriceSnapshot) (usage : BillingUsage) :
    Except BillingError Money := do
  let tariff ← parseLocalTariff price
  raiseIf (tariff.charge usage ≤ 0) .invariant
  return ⟨tariff.charge usage, price.currency, price.code⟩

/-- `pricing_version`: the audit label of a price key and version. -/
def pricingVersion (price : PriceSnapshot) : Except BillingError String :=
  let label := price.priceKey ++ "@v" ++ toString price.version
  do
    raiseIf (PyStr.len label > 64) .invariant
    return label

end Mosaic.Billing
