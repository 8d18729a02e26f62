import Coordination.Json.Shape
import Coordination.Json.Writer
import Coordination.RateLimit.Limiter

/-! # Rate limits as JSON

The written forms of contexts, thresholds, whitelists and decisions, and their shapes for reading.
-/
namespace Coordination.RateLimit
open Json

/-- `null` or a text. -/
def optionalText : Option String → Value
  | none => .null
  | some s => .text s

def textList (items : List String) : Value := .list (items.map .text)

namespace Dimension

def variants : List (String × Dimension) := all.map fun d => (d.title, d)

def kind : Kind Dimension := Kind.variant variants

def toJson (d : Dimension) : Value := .text d.title

end Dimension

namespace Context

def shape : Shape Context where
  title := "struct RequestContext"
  start := {}
  slots := [
    .nullable "fingerprint" .text fun c v => { c with fingerprint := v },
    .nullable "ip" .text fun c v => { c with ip := v },
    .nullable "city" .text fun c v => { c with city := v },
    .nullable "country" .text fun c v => { c with country := v }]

def toJson (c : Context) : Value := .object [
  ("fingerprint", optionalText c.fingerprint),
  ("ip", optionalText c.ip),
  ("city", optionalText c.city),
  ("country", optionalText c.country)]

end Context

namespace Thresholds

/-- The numbers that thresholds and settings hold. -/
def word : Kind Nat := Kind.natural 64 "u64"

def shape : Shape Thresholds where
  title := "struct Thresholds"
  start := ⟨0, 0, 0, 0⟩
  slots := [
    .required "fingerprint" word fun t n => { t with fingerprint := n },
    .required "ip" word fun t n => { t with ip := n },
    .required "city" word fun t n => { t with city := n },
    .required "country" word fun t n => { t with country := n }]

def toJson (t : Thresholds) : Value := .object [
  ("fingerprint", .integer t.fingerprint),
  ("ip", .integer t.ip),
  ("city", .integer t.city),
  ("country", .integer t.country)]

end Thresholds

namespace Whitelist

def shape : Shape Whitelist where
  title := "struct Whitelist"
  start := {}
  slots := [
    .required "fingerprints" (.list .text) fun w vs => { w with fingerprints := vs },
    .required "ips" (.list .text) fun w vs => { w with ips := vs },
    .required "cities" (.list .text) fun w vs => { w with cities := vs },
    .required "countries" (.list .text) fun w vs => { w with countries := vs }]

def toJson (w : Whitelist) : Value := .object [
  ("fingerprints", textList w.fingerprints),
  ("ips", textList w.ips),
  ("cities", textList w.cities),
  ("countries", textList w.countries)]

end Whitelist

namespace Decision

def shape : Shape Decision where
  title := "struct RateLimitDecision"
  start := .allowed
  slots := [
    .required "isBlocked" .flag fun r b => { r with isBlocked := b },
    .nullable "blockedDimension" Dimension.kind fun r d => { r with blockedBy := d },
    .required "retryAfterMs" Thresholds.word fun r n => { r with retryAfterMs := n }]

def toJson (r : Decision) : Value := .object [
  ("isBlocked", .flag r.isBlocked),
  ("blockedDimension", (r.blockedBy.map Dimension.toJson).getD .null),
  ("retryAfterMs", .integer r.retryAfterMs)]

end Decision

end Coordination.RateLimit
