import Coordination.Time

/-! # Entries with lifetimes

A finite map from keys to values, each with the instant from which on it is gone, if there is one. What can be seen
of it at an instant are the live entries; dropping the others changes nothing that can be seen from then on.
-/
namespace Coordination.Store

/-- A value with the instant from which on it is gone, if there is one. -/
structure Entry where
  value : String
  expiresAt : Option Instant
deriving DecidableEq, Repr

def Entry.isLive (now : Instant) (e : Entry) : Bool :=
  match e.expiresAt with
  | none => true
  | some deadline => now.nanos < deadline.nanos

/-- What lives later lives now. -/
theorem Entry.isLive_of_le {now later : Instant} (h : now.nanos ≤ later.nanos) {e : Entry}
    (he : e.isLive later = true) : e.isLive now = true := by
  unfold Entry.isLive at he ⊢
  split at he
  · rfl
  · simp only [decide_eq_true_eq] at he ⊢
    omega

/-- The entries by key, those written last first. A key occurs once. -/
structure Entries where
  toList : List (String × Entry)
  nodup : (toList.map Prod.fst).Nodup
deriving DecidableEq, Repr

namespace Entries

def empty : Entries := ⟨[], List.nodup_nil⟩

def find? (es : Entries) (key : String) : Option Entry := es.toList.lookup key

/-- The entries that pass a test. -/
def filter (es : Entries) (p : String × Entry → Bool) : Entries where
  toList := es.toList.filter p
  nodup := es.nodup.sublist (List.filter_sublist.map Prod.fst)

def erase (es : Entries) (key : String) : Entries := es.filter fun kv => kv.1 != key

/-- Only the live entries. -/
def keepLive (es : Entries) (now : Instant) : Entries := es.filter fun kv => kv.2.isLive now

theorem not_mem_erase (es : Entries) (key : String) : key ∉ (es.erase key).toList.map Prod.fst := by
  simp [erase, filter]

/-- The entries with the one under a key replaced. -/
def put (es : Entries) (key : String) (e : Entry) : Entries where
  toList := (key, e) :: (es.erase key).toList
  nodup := List.nodup_cons.2 ⟨es.not_mem_erase key, (es.erase key).nodup⟩

/-- The number of live keys. -/
def countLive (es : Entries) (now : Instant) : Nat := (es.keepLive now).toList.length

/-- The live entry under a key. -/
def visible? (es : Entries) (now : Instant) (key : String) : Option Entry :=
  (es.find? key).filter fun e => e.isLive now

/-! ## Lookups -/

theorem lookup_cons (entries : List (String × Entry)) (key other : String) (e : Entry) :
    ((key, e) :: entries).lookup other = if other = key then some e else entries.lookup other := by
  rw [List.lookup_cons]
  by_cases h : other = key
  · simp [h]
  · simp [h, beq_eq_false_iff_ne.2 h]

theorem lookup_eq_none {entries : List (String × Entry)} {key : String} (h : key ∉ entries.map Prod.fst) :
    entries.lookup key = none := by
  induction entries with
  | nil => rfl
  | cons kv rest ih =>
    simp only [List.map_cons, List.mem_cons, not_or] at h
    rw [lookup_cons, if_neg h.1, ih h.2]

theorem lookup_filter {p : String × Entry → Bool} {entries : List (String × Entry)}
    (h : (entries.map Prod.fst).Nodup) (key : String) :
    (entries.filter p).lookup key = (entries.lookup key).filter fun e => p (key, e) := by
  induction entries with
  | nil => rfl
  | cons kv rest ih =>
    obtain ⟨k, e⟩ := kv
    obtain ⟨hk, hrest⟩ := List.nodup_cons.1 h
    rw [List.filter_cons, lookup_cons]
    by_cases hp : p (k, e) = true
    · rw [if_pos hp, lookup_cons, ih hrest]
      split
      · next hkey => subst hkey; simp [Option.filter, hp]
      · rfl
    · rw [if_neg hp, ih hrest]
      split
      · next hkey => subst hkey; simp [Option.filter, hp, lookup_eq_none hk]
      · rfl

theorem find?_filter (es : Entries) (p : String × Entry → Bool) (key : String) :
    (es.filter p).find? key = (es.find? key).filter fun e => p (key, e) :=
  lookup_filter es.nodup key

@[simp] theorem find?_empty (key : String) : empty.find? key = none := rfl

theorem find?_erase (es : Entries) (key other : String) :
    (es.erase key).find? other = if other = key then none else es.find? other := by
  rw [erase, find?_filter]
  split
  · next h => subst h; cases es.find? other <;> simp
  · next h => cases es.find? other <;> simp [h]

theorem find?_put (es : Entries) (key other : String) (e : Entry) :
    (es.put key e).find? other = if other = key then some e else es.find? other := by
  have h : (es.put key e).find? other = if other = key then some e else (es.erase key).find? other :=
    lookup_cons (es.erase key).toList key other e
  rw [h, find?_erase]
  split <;> rfl

/-! ## What can be seen -/

@[simp] theorem visible?_empty (now : Instant) (key : String) : empty.visible? now key = none := rfl

theorem visible?_erase (es : Entries) (now : Instant) (key other : String) :
    (es.erase key).visible? now other = if other = key then none else es.visible? now other := by
  unfold visible?
  rw [find?_erase]
  split <;> rfl

theorem visible?_put (es : Entries) (now : Instant) (key other : String) (e : Entry) :
    (es.put key e).visible? now other =
      if other = key then (some e).filter fun e => e.isLive now else es.visible? now other := by
  unfold visible?
  rw [find?_put]
  split <;> rfl

/-- Dropping what is dead now changes nothing that can be seen from now on. -/
theorem visible?_keepLive (es : Entries) {now later : Instant} (h : now.nanos ≤ later.nanos) (key : String) :
    (es.keepLive now).visible? later key = es.visible? later key := by
  unfold visible?
  rw [keepLive, find?_filter]
  cases es.find? key with
  | none => rfl
  | some e =>
    cases hl : e.isLive later with
    | true => simp [Option.filter, Entry.isLive_of_le h hl, hl]
    | false => cases hn : e.isLive now <;> simp [Option.filter, hn, hl]

/-- So does dropping an entry that is dead now. -/
theorem visible?_erase_dead (es : Entries) {now later : Instant} (h : now.nanos ≤ later.nanos) {key : String}
    (hdead : es.visible? now key = none) (other : String) :
    (es.erase key).visible? later other = es.visible? later other := by
  rw [visible?_erase]
  split
  · next heq =>
    subst heq
    unfold visible? at hdead ⊢
    cases hf : es.find? other with
    | none => rfl
    | some e =>
      rw [hf] at hdead
      cases hl : e.isLive later with
      | true => simp [Option.filter, Entry.isLive_of_le h hl] at hdead
      | false => simp [Option.filter, hl]
  · rfl

end Entries

end Coordination.Store
