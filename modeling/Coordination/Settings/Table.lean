import Coordination.Failure
import Coordination.Json.Shape
import Coordination.Json.Writer

/-! # Settings

The settings of a deployment with their defaults, and one table that says for each of them what it is called, what
it holds and whether it may be zero.
-/
namespace Coordination

structure Settings where
  storeUrl : String
  /-- The bound on one round trip to the store. -/
  storeTimeoutMs : Nat
  env : String
  rateLimitWindowMs : Nat
  rateLimitBlockDurationMs : Nat
  rateLimitDefaultRetryAfterMs : Nat
  rateLimitFingerprintThreshold : Nat
  rateLimitIpThreshold : Nat
  rateLimitCityThreshold : Nat
  rateLimitCountryThreshold : Nat
  rateLimitWhitelistedCountries : List String
  rateLimitWhitelistedIps : List String
  lockTtlMs : Nat
  idempotencyInFlightTtlMs : Nat
  idempotencyCacheTtlMs : Nat
  idempotencyMaxBodySizeBytes : Nat
  throttleFreeAttempts : Nat
  throttleMaxDelaySecs : Nat
  throttleFailureTtlSecs : Nat
  throttleKnownGoodTtlSecs : Nat
deriving DecidableEq, Repr

namespace Settings

/-- The settings of a deployment that only says where its store is. -/
def standard (storeUrl : String) : Settings where
  storeUrl := storeUrl
  storeTimeoutMs := 500
  env := ""
  rateLimitWindowMs := 60000
  rateLimitBlockDurationMs := 5 * 60000
  rateLimitDefaultRetryAfterMs := 60000
  rateLimitFingerprintThreshold := 120
  rateLimitIpThreshold := 300
  rateLimitCityThreshold := 5000
  rateLimitCountryThreshold := 20000
  rateLimitWhitelistedCountries := []
  rateLimitWhitelistedIps := []
  lockTtlMs := 5 * 60000
  idempotencyInFlightTtlMs := 60000
  idempotencyCacheTtlMs := 24 * 60 * 60000
  idempotencyMaxBodySizeBytes := 1024 * 1024
  throttleFreeAttempts := 3
  throttleMaxDelaySecs := 900
  throttleFailureTtlSecs := 24 * 60 * 60
  throttleKnownGoodTtlSecs := 30 * 24 * 60 * 60

/-- A machine word: its bits and what it is called. -/
structure Word where
  bits : Nat
  name : String

/-- What a setting holds, and how it is got from settings and put into them. -/
inductive Content where
  | text (get : Settings → String) (put : Settings → String → Settings)
  | list (get : Settings → List String) (put : Settings → List String → Settings)
  | number (word : Word) (get : Settings → Nat) (put : Settings → Nat → Settings)

/-- A setting: its name, its content, whether it has to be given, and whether zero is refused. -/
structure Entry where
  name : String
  content : Content
  isRequired : Bool := false
  isPositive : Bool := false

def u32 : Word := ⟨32, "u32"⟩

def u64 : Word := ⟨64, "u64"⟩

def usize : Word := ⟨64, "usize"⟩

/-- All settings in the order in which they are written. -/
def table : List Entry := [
  { name := "redis_url", content := .text storeUrl fun s v => { s with storeUrl := v }, isRequired := true },
  { name := "store_timeout_ms", isPositive := true,
    content := .number u64 storeTimeoutMs fun s v => { s with storeTimeoutMs := v } },
  { name := "env", content := .text env fun s v => { s with env := v } },
  { name := "rate_limit_window_ms", isPositive := true,
    content := .number u64 rateLimitWindowMs fun s v => { s with rateLimitWindowMs := v } },
  { name := "rate_limit_block_duration_ms", isPositive := true,
    content := .number u64 rateLimitBlockDurationMs fun s v => { s with rateLimitBlockDurationMs := v } },
  { name := "rate_limit_default_retry_after_ms", isPositive := true,
    content := .number u64 rateLimitDefaultRetryAfterMs fun s v => { s with rateLimitDefaultRetryAfterMs := v } },
  { name := "rate_limit_fingerprint_threshold",
    content := .number u64 rateLimitFingerprintThreshold fun s v => { s with rateLimitFingerprintThreshold := v } },
  { name := "rate_limit_ip_threshold",
    content := .number u64 rateLimitIpThreshold fun s v => { s with rateLimitIpThreshold := v } },
  { name := "rate_limit_city_threshold",
    content := .number u64 rateLimitCityThreshold fun s v => { s with rateLimitCityThreshold := v } },
  { name := "rate_limit_country_threshold",
    content := .number u64 rateLimitCountryThreshold fun s v => { s with rateLimitCountryThreshold := v } },
  { name := "rate_limit_whitelisted_countries",
    content := .list rateLimitWhitelistedCountries fun s v => { s with rateLimitWhitelistedCountries := v } },
  { name := "rate_limit_whitelisted_ips",
    content := .list rateLimitWhitelistedIps fun s v => { s with rateLimitWhitelistedIps := v } },
  { name := "lock_ttl_ms", isPositive := true,
    content := .number u64 lockTtlMs fun s v => { s with lockTtlMs := v } },
  { name := "idempotency_in_flight_ttl_ms", isPositive := true,
    content := .number u64 idempotencyInFlightTtlMs fun s v => { s with idempotencyInFlightTtlMs := v } },
  { name := "idempotency_cache_ttl_ms", isPositive := true,
    content := .number u64 idempotencyCacheTtlMs fun s v => { s with idempotencyCacheTtlMs := v } },
  { name := "idempotency_max_body_size_bytes",
    content := .number usize idempotencyMaxBodySizeBytes fun s v => { s with idempotencyMaxBodySizeBytes := v } },
  { name := "throttle_free_attempts",
    content := .number u32 throttleFreeAttempts fun s v => { s with throttleFreeAttempts := v } },
  { name := "throttle_max_delay_secs",
    content := .number u64 throttleMaxDelaySecs fun s v => { s with throttleMaxDelaySecs := v } },
  { name := "throttle_failure_ttl_secs", isPositive := true,
    content := .number u64 throttleFailureTtlSecs fun s v => { s with throttleFailureTtlSecs := v } },
  { name := "throttle_known_good_ttl_secs", isPositive := true,
    content := .number u64 throttleKnownGoodTtlSecs fun s v => { s with throttleKnownGoodTtlSecs := v } }]

/-- What the names of environment variables begin with. -/
def variablePrefix : String := "TOLLGATE_"

/-- The name of a setting in the environment. -/
def Entry.variableName (e : Entry) : String := variablePrefix ++ e.name.toUpper

/-- Whether a setting is zero where zero is refused. -/
def Entry.isZeroIn (e : Entry) (s : Settings) : Bool :=
  match e.content with
  | .number _ get _ => e.isPositive && get s == 0
  | _ => false

/-- Every lifetime, window and bound has to be above zero; the first that is not is named. -/
def validate (s : Settings) : Except Failure Unit :=
  match table.find? fun e => e.isZeroIn s with
  | some e => .error (.invalidArgument (.zeroSetting e.variableName))
  | none => .ok ()

def isProduction (s : Settings) : Bool := s.env == "production"

end Settings

end Coordination
