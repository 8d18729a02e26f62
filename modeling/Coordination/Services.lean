import Coordination.Idempotency.Coordinator
import Coordination.Lock
import Coordination.RateLimit.Limiter
import Coordination.Settings.Environment
import Coordination.SignIn.Throttle

/-! # The services of a deployment

The rules of rate limits, idempotency and sign-in throttling that go together over one store.
-/
namespace Coordination

structure Services where
  rateLimit : RateLimit.Rules
  idempotency : Idempotency.Limits
  signIn : SignIn.Rules
deriving DecidableEq, Repr

namespace Settings

def storeTimeout (s : Settings) : Duration := .ofMillis s.storeTimeoutMs

def lockTtl (s : Settings) : Duration := .ofMillis s.lockTtlMs

def rateLimit (s : Settings) : RateLimit.Rules where
  window := .ofMillis s.rateLimitWindowMs
  blockDuration := .ofMillis s.rateLimitBlockDurationMs
  defaultRetryAfter := .ofMillis s.rateLimitDefaultRetryAfterMs
  thresholds := {
    fingerprint := s.rateLimitFingerprintThreshold
    ip := s.rateLimitIpThreshold
    city := s.rateLimitCityThreshold
    country := s.rateLimitCountryThreshold }
  whitelist := { countries := s.rateLimitWhitelistedCountries, ips := s.rateLimitWhitelistedIps }

def idempotency (s : Settings) : Idempotency.Limits where
  inFlightTtl := .ofMillis s.idempotencyInFlightTtlMs
  cacheTtl := .ofMillis s.idempotencyCacheTtlMs
  maxBodyBytes := s.idempotencyMaxBodySizeBytes

def signIn (s : Settings) : SignIn.Rules where
  policy := { freeAttempts := s.throttleFreeAttempts, maxDelay := .ofSeconds s.throttleMaxDelaySecs }
  failureTtl := .ofSeconds s.throttleFailureTtlSecs
  knownGoodTtl := .ofSeconds s.throttleKnownGoodTtlSecs

def services (s : Settings) : Services := ⟨s.rateLimit, s.idempotency, s.signIn⟩

end Settings

namespace Services

def standard : Services := ⟨.standard, .standard, .standard⟩

/-- Whether the store answers. -/
def checkHealth {ω : Type} : Action ω Unit := Action.call .ping

end Services

end Coordination
