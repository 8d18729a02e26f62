import Coordination.Proofs.Services.Operation

/-! # What the services are about

An operation is about a lock, about a value in a dimension, about an idempotency key or about a subject of sign-ins. Each has
keys of its own, and no key belongs to two of them, whatever colons a resource, a value or a key contains. A subject of
sign-ins is known by two digests, and those contain none.
-/
namespace Coordination

namespace SignIn

/-- The digests of the subject contain no colon. -/
def Subject.IsPlain (s : Subject) : Prop := ':' ∉ s.identifierHash.toList ∧ ':' ∉ s.identityHash.toList

instance (s : Subject) : Decidable s.IsPlain := inferInstanceAs (Decidable (_ ∧ _))

theorem colon_not_mem_hexDigest (text : String) : ':' ∉ (Digest.Sha256.hexDigest text).toList := by
  have hdigit : ∀ n < 16, ':' ≠ Nat.digitChar n := by decide
  simp only [Digest.Sha256.hexDigest, String.toList_ofList, List.mem_flatMap, not_exists, not_and]
  intro b _ hmem
  have hlt := b.toNat_lt
  rcases List.mem_cons.1 hmem with h | hmem
  · exact hdigit _ (by omega) h
  · exact hdigit _ (Nat.mod_lt _ (by decide)) (List.mem_singleton.1 hmem)

theorem Subject.isPlain_ofRaw (identifier identity : String) : (ofRaw identifier identity).IsPlain :=
  ⟨colon_not_mem_hexDigest identifier, colon_not_mem_hexDigest identity⟩

theorem append_cons_inj_left {α : Type} {x : α} {as as' bs bs' : List α} (h : as ++ x :: bs = as' ++ x :: bs') (has : x ∉ as)
    (has' : x ∉ as') : as = as' ∧ bs = bs' := by
  have hreversed := congrArg List.reverse h
  simp only [List.reverse_append, List.reverse_cons, List.append_assoc, List.singleton_append] at hreversed
  obtain ⟨hbs, has⟩ := RateLimit.append_cons_inj hreversed (by simpa using has) (by simpa using has')
  exact ⟨List.reverse_inj.1 has, List.reverse_inj.1 hbs⟩

theorem Subject.key_eq (s : Subject) (record : String) : s.key record =
    "auth:sign-in-throttle:" ++ s.identifierHash ++ ":" ++ s.identityHash ++ ":" ++ record := rfl

theorem Subject.toList_key (s : Subject) (record : String) : (s.key record).toList = "auth:sign-in-throttle:".toList ++
    (s.identifierHash.toList ++ ':' :: (s.identityHash.toList ++ ':' :: record.toList)) := by
  have hcolon : ∀ cs : List Char, ":".toList ++ cs = ':' :: cs := fun _ => rfl
  rw [key_eq, String.toList_append, String.toList_append, String.toList_append, String.toList_append,
    String.toList_append, List.append_assoc, List.append_assoc, List.append_assoc, List.append_assoc, hcolon, hcolon]

theorem Subject.key_inj {s s' : Subject} {record record' : String} (hs : s.IsPlain) (hs' : s'.IsPlain)
    (h : s.key record = s'.key record') : s = s' := by
  have hlist := congrArg String.toList h
  rw [toList_key, toList_key] at hlist
  have hhashes := List.append_cancel_left hlist
  obtain ⟨hidentifier, hrest⟩ := append_cons_inj_left hhashes hs.1 hs'.1
  obtain ⟨hidentity, _⟩ := append_cons_inj_left hrest hs.2 hs'.2
  obtain ⟨identifier, identity⟩ := s
  obtain ⟨identifier', identity'⟩ := s'
  obtain rfl : identifier = identifier' := String.toList_inj.1 hidentifier
  obtain rfl : identity = identity' := String.toList_inj.1 hidentity
  rfl

end SignIn

namespace RateLimit

def Context.single : Dimension → String → Context
  | .fingerprint, value => { fingerprint := some value }
  | .ip, value => { ip := some value }
  | .city, value => { city := some value }
  | .country, value => { country := some value }

theorem Context.value_single {d d' : Dimension} {value value' : String} (h : (single d value).value d' = some value') :
    d' = d ∧ value' = value := by
  cases d <;> cases d' <;> simp_all [Context.value, Context.given, single, Option.filter]

end RateLimit

namespace Services

/-- What an operation is about. -/
inductive Subject where
  | lock (resource : String)
  | limited (d : RateLimit.Dimension) (value : String)
  | idempotent (key : String)
  | signIn (s : { s : SignIn.Subject // s.IsPlain })
deriving DecidableEq

namespace Subject

def Owns : Subject → String → Prop
  | .lock resource, key => key = Lock.key resource
  | .limited d value, key => key = RateLimit.blockKey d value ∨ ∃ window, key = RateLimit.counterKey d value window
  | .idempotent k, key => key = Idempotency.storeKey k
  | .signIn s, key => ∃ record, key = s.1.key record

def initials : Subject → List Char
  | .lock _ => ['l']
  | .limited .. => ['b', 'r']
  | .idempotent _ => ['i']
  | .signIn _ => ['a']

theorem Owns.initial {s : Subject} {key : String} (h : s.Owns key) : ∃ c ∈ s.initials, key.toList.head? = some c := by
  cases s with
  | lock resource =>
    subst h
    exact ⟨'l', by simp [initials], by simp [Lock.key]⟩
  | limited d value =>
    rcases h with rfl | ⟨window, rfl⟩
    · exact ⟨'b', by simp [initials], by simp [RateLimit.toList_blockKey]⟩
    · exact ⟨'r', by simp [initials], by simp [RateLimit.toList_counterKey]⟩
  | idempotent k =>
    subst h
    exact ⟨'i', by simp [initials], by simp [Idempotency.storeKey]⟩
  | signIn s =>
    obtain ⟨record, rfl⟩ := h
    exact ⟨'a', by simp [initials], by rw [SignIn.Subject.toList_key]; rfl⟩

theorem Owns.unique {s s' : Subject} {key : String} (h : s.Owns key) (h' : s'.Owns key) : s = s' := by
  obtain ⟨c, hc, hhead⟩ := h.initial
  obtain ⟨c', hc', hhead'⟩ := h'.initial
  obtain rfl : c = c' := Option.some.inj (hhead.symm.trans hhead')
  cases s with
  | lock resource =>
    cases s' with
    | lock resource' => exact congrArg _ ((String.append_right_inj _).1 (h.symm.trans h'))
    | _ => simp_all [initials]
  | limited d value =>
    cases s' with
    | limited d' value' =>
      obtain ⟨rfl, rfl⟩ : d = d' ∧ value = value' := by
        rcases h with rfl | ⟨window, rfl⟩ <;> rcases h' with h' | ⟨window', h'⟩
        · exact RateLimit.blockKey_inj h'
        · exact absurd h' (RateLimit.blockKey_ne_counterKey _ _ _ _ _)
        · exact absurd h'.symm (RateLimit.blockKey_ne_counterKey _ _ _ _ _)
        · obtain ⟨hd, hvalue, _⟩ := RateLimit.counterKey_inj h'
          exact ⟨hd, hvalue⟩
      rfl
    | _ => simp_all [initials]
  | idempotent k =>
    cases s' with
    | idempotent k' => exact congrArg _ (Idempotency.storeKey_inj (h.symm.trans h'))
    | _ => simp_all [initials]
  | signIn s =>
    cases s' with
    | signIn s' =>
      obtain ⟨record, rfl⟩ := h
      obtain ⟨record', h'⟩ := h'
      exact congrArg _ (Subtype.ext (SignIn.Subject.key_inj s.2 s'.2 h'))
    | _ => simp_all [initials]

end Subject

/-- An operation about one subject. A ticket is one that was handed out for a claim. -/
inductive Errand where
  | acquire (resource owner : String) (ttl : Duration)
  | giveBack (resource owner : String)
  | runExclusive (resource : String) (ttl : Duration)
  | count (rules : RateLimit.Rules) (d : RateLimit.Dimension) (value : String)
  | countAt (rules : RateLimit.Rules) (d : RateLimit.Dimension) (value : String) (nowMs : Int)
  | claim (limits : Idempotency.Limits) (key : String)
  | inspect (key : String)
  | complete (limits : Idempotency.Limits) (key : String) (response : Idempotency.CachedResponse)
  | giveUp (key token : String) (startedAt : Int) (h : clockBounds.contains startedAt = true)
  | signIn (call : SignIn.Call) (h : call.subject.IsPlain)

namespace Errand

def operation : Errand → Operation
  | .acquire resource owner ttl => .acquire (Lock.key resource) owner ttl
  | .giveBack resource owner => .giveBack (Lock.key resource) owner
  | .runExclusive resource ttl => .runExclusive resource ttl
  | .count rules d value => .count rules (.single d value)
  | .countAt rules d value nowMs => .countAt rules (.single d value) nowMs
  | .claim limits key => .claim limits key
  | .inspect key => .inspect key
  | .complete limits key response => .complete limits key response
  | .giveUp key token startedAt _ => .giveUp ⟨key, Idempotency.claimText token startedAt⟩
  | .signIn call _ => .signIn call

def subject : Errand → Subject
  | .acquire resource _ _ | .giveBack resource _ | .runExclusive resource _ => .lock resource
  | .count _ d value | .countAt _ d value _ => .limited d value
  | .claim _ key | .inspect key | .complete _ key _ | .giveUp key _ _ _ => .idempotent key
  | .signIn call h => .signIn ⟨call.subject, h⟩

theorem owns_of_sentFor {d : RateLimit.Dimension} {value : String} {r : Store.Request}
    (h : RateLimit.SentFor (.single d value) r) : ∃ key, r.key? = some key ∧ (Subject.limited d value).Owns key := by
  obtain ⟨d', value', hvalue, hsent⟩ := h
  obtain ⟨rfl, rfl⟩ := RateLimit.Context.value_single hvalue
  cases hsent with
  | look | wait | mark => exact ⟨_, rfl, .inl rfl⟩
  | count window ttl => exact ⟨_, rfl, .inr ⟨window, rfl⟩⟩

theorem owns_of_sent (errand : Errand) {r : Store.Request} (h : errand.operation.Sent r) :
    ∃ key, r.key? = some key ∧ errand.subject.Owns key := by
  cases errand with
  | acquire | giveBack | runExclusive => cases h <;> exact ⟨_, rfl, rfl⟩
  | count | countAt => exact owns_of_sentFor h
  | claim | inspect | complete | giveUp => cases h <;> exact ⟨_, rfl, rfl⟩
  | signIn => cases h <;> exact ⟨_, rfl, _, rfl⟩

end Errand

end Services

end Coordination
