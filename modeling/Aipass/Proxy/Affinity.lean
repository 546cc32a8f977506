import Mathlib.Data.List.MinMax
import Aipass.Base.Text
import Aipass.Proxy.Health

/-!
# Sessions bound to targets

A session goes on with the target that served it. The bindings are kept in a map of bounded size,
are dropped when they have not been used for a while, and are cleared for a target that fails.
-/
namespace Aipass.Proxy

/-- `SESSION_AFFINITY_TTL`. -/
def sessionAffinityTtl : ℕ := seconds (30 * 60)

/-- `MAX_SESSION_AFFINITY_ENTRIES`. -/
def maxSessionAffinityEntries : ℕ := 4096

/-- `MAX_SESSION_AFFINITY_KEY_BYTES`. -/
def maxSessionAffinityKeyBytes : ℕ := 512

/-- `SessionAffinity`. -/
structure SessionAffinity where
  targetId : Uuid
  lastUsed : Instant
deriving DecidableEq

/-- The bindings by route and session, in the order in which the map lists them. -/
abbrev Affinities := List ((Uuid × String) × SessionAffinity)

/-- `normalize_session_affinity_key`. -/
def normalizeSessionAffinityKey (value : String) : Option String :=
  let trimmed := String.ofList (Text.trim value.toList)
  if trimmed ≠ "" ∧ trimmed.utf8ByteSize ≤ maxSessionAffinityKeyBytes then some trimmed else none

/-- `entry(key).or_insert(..)`, and the refreshing of an entry that is the target's. -/
def bindSession (affinities : Affinities) (key : Uuid × String) (target : Uuid) (now : Instant) :
    Affinities :=
  if affinities.any fun entry => entry.1 = key then
    affinities.map fun entry =>
      if entry.1 = key ∧ entry.2.targetId = target then (key, ⟨target, now⟩) else entry
  else affinities ++ [(key, ⟨target, now⟩)]

/-- The loop that removes the bindings used longest ago while there are too many. -/
def evictOldest : ℕ → Affinities → Affinities
  | 0, affinities => affinities
  | rounds + 1, affinities =>
    if affinities.length ≤ maxSessionAffinityEntries then affinities
    else match affinities.argmin fun entry => entry.2.lastUsed with
      | some oldest => evictOldest rounds (affinities.filter fun entry => entry.1 ≠ oldest.1)
      | none => affinities

/-- `remember_affinity_target`. -/
def rememberAffinityTarget (affinities : Affinities) (route : Uuid) (session : Option String)
    (target : Uuid) (now : Instant) : Affinities :=
  match session.bind normalizeSessionAffinityKey with
  | none => affinities
  | some session =>
    let bound := bindSession
      (affinities.filter fun entry => now - entry.2.lastUsed < sessionAffinityTtl)
      (route, session) target now
    evictOldest bound.length bound

/-- `clear_affinity_for_target`. -/
def clearAffinityForTarget (affinities : Affinities) (target : Uuid) : Affinities :=
  affinities.filter fun entry => entry.2.targetId ≠ target

/-- Removing the oldest bindings only removes. -/
theorem evictOldest_sublist (rounds : ℕ) (affinities : Affinities) :
    (evictOldest rounds affinities).Sublist affinities := by
  induction rounds generalizing affinities with
  | zero => exact .refl _
  | succ rounds ih =>
    rw [evictOldest]
    split
    · exact .refl _
    · split
      · exact (ih _).trans List.filter_sublist
      · exact .refl _

/-- A binding that is remembered is the target's, or was there before. -/
theorem mem_rememberAffinityTarget {affinities : Affinities} {route : Uuid}
    {session : Option String} {target : Uuid} {now : Instant}
    {entry : (Uuid × String) × SessionAffinity}
    (inside : entry ∈ rememberAffinityTarget affinities route session target now) :
    entry ∈ affinities ∨ entry.2.targetId = target := by
  rw [rememberAffinityTarget] at inside
  split at inside
  · exact Or.inl inside
  · have bound := (evictOldest_sublist _ _).subset inside
    rw [bindSession] at bound
    split at bound
    · obtain ⟨old, kept, rfl⟩ := List.mem_map.mp bound
      split
      · exact Or.inr rfl
      · exact Or.inl (List.mem_filter.mp kept).1
    · rcases List.mem_append.mp bound with kept | fresh
      · exact Or.inl (List.mem_filter.mp kept).1
      · rw [List.mem_singleton.mp fresh]
        exact Or.inr rfl

end Aipass.Proxy
