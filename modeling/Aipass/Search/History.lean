import Mathlib.Algebra.Order.BigOperators.Group.List
import Aipass.Proxy.Health
import Aipass.Search.Wire

/-!
# The memory of hidden rounds

A bounded list of turns that searched. An entry has the messages of a turn twice, as the client
saw them and as the upstream did, each as text. Restoring looks for an entry whose public messages
a request extends, the newest first, and puts its private messages in their place. The counter of
bytes is the size of what is kept.
-/
namespace Aipass.Search

open Proxy (Instant seconds)
open Conversion (ProxyProtocol)

/-- `LIMIT`. -/
def limit : ℕ := 8 * 1024 * 1024

/-- `context`: the fields that two requests of one conversation share. They are kept by a digest,
which is taken to be free of collisions. -/
def context (body : Value) : Value :=
  .array [body.field "model", body.field "system", body.field "instructions",
    body.field "reasoning", body.field "thinking", body.field "output_config"]

/-- `Entry`. -/
structure Entry where
  context : Value
  route : Uuid
  target : Uuid
  publicText : String
  privateText : String
  storedAt : Instant
deriving DecidableEq

/-- The bytes an entry takes. -/
def Entry.size (entry : Entry) : ℕ :=
  entry.publicText.utf8ByteSize + entry.privateText.utf8ByteSize

/-- `History`: the entries, the oldest first. -/
structure History where
  entries : List Entry := []
  bytes : ℕ := 0

/-- The size of the entries. -/
def sizes (entries : List Entry) : ℕ := (entries.map Entry.size).sum

/-- `serde_json::from_slice` of a list of messages. -/
def readMessages (outside : Outside) (text : String) : Option (List Value) :=
  match outside.serde.parse text.toList with
  | .ok (.array items) => some items
  | _ => none

/-- `serde_json::to_vec` of a list of messages. -/
def printMessages (outside : Outside) (messages : List Value) : String :=
  outside.serde.print (.array messages)

namespace History

/-- `retain`. -/
def retain (history : History) (valid : List (Uuid × Uuid)) : History :=
  let entries := history.entries.filter fun entry => valid.contains (entry.route, entry.target)
  ⟨entries, sizes entries⟩

/-- The entries that have not expired. -/
def expire (history : History) (now : Instant) : History :=
  let entries := history.entries.filter fun entry => now - entry.storedAt < seconds 3600
  ⟨entries, sizes entries⟩

/-- The entries of a route and a context. -/
def ofContext (entries : List Entry) (route : Uuid) (context : Value) : List Entry :=
  entries.filter fun entry => entry.route = route ∧ entry.context = context

/-- The loop of `restore` over the entries of a route and a context, the newest first: the entry
found and the messages that replace those of the request. -/
def search (outside : Outside) (incoming : List Value) : List Entry → Option (Entry × List Value)
  | [] => none
  | entry :: older =>
    match readMessages outside entry.publicText with
    | none => none
    | some seen =>
      if seen.isPrefixOf incoming then
        (readMessages outside entry.privateText).map fun hidden =>
          (entry, hidden ++ incoming.drop seen.length)
      else search outside incoming older

/-- `restore`, as far as the entry found and the messages of the request. -/
def lookup (history : History) (outside : Outside) (now : Instant) (route : Uuid)
    (protocol : ProxyProtocol) (original body : Value) : History × Option (Entry × List Value) :=
  let history := history.expire now
  (history, (messages protocol body).bind fun incoming =>
    search outside incoming (ofContext history.entries route (context original)).reverse)

/-- `restore`: the target found and the request with its private messages. -/
def restore (history : History) (outside : Outside) (now : Instant) (route : Uuid)
    (protocol : ProxyProtocol) (original body : Value) : History × Option (Uuid × Value) :=
  let (history, found) := history.lookup outside now route protocol original body
  (history, found.map fun found => (found.1.target, body.set (field protocol) (.array found.2)))

/-- The loop of `remember` that makes room. -/
def evict (size : ℕ) : List Entry → ℕ → History
  | [], bytes => ⟨[], bytes⟩
  | entry :: entries, bytes =>
    if limit < bytes + size ∨ 64 ≤ (entry :: entries).length then
      evict size entries (bytes - entry.size)
    else ⟨entry :: entries, bytes⟩

/-- The entry of a turn: its messages, as the client and as the upstream saw them, and the reply. -/
def entryOf (outside : Outside) (now : Instant) (route target : Uuid) (protocol : ProxyProtocol)
    (original : Value) (seen sent : List Value) (response : Value) : Entry where
  context := context original
  route := route
  target := target
  publicText := printMessages outside (appendReply protocol seen response)
  privateText := printMessages outside (appendReply protocol sent response)
  storedAt := now

/-- `remember`. -/
def remember (history : History) (outside : Outside) (now : Instant) (route target : Uuid)
    (protocol : ProxyProtocol) (original hidden response : Value) : History :=
  match messages protocol original, messages protocol hidden with
  | some seen, some sent =>
    let entry := entryOf outside now route target protocol original seen sent response
    if limit < entry.size then history
    else
      let room := evict entry.size history.entries history.bytes
      ⟨room.entries ++ [entry], room.bytes + entry.size⟩
  | _, _ => history

/-- The counter is the size of the entries, which are few and small. -/
structure Bounded (history : History) : Prop where
  counted : history.bytes = sizes history.entries
  small : history.bytes ≤ limit
  few : history.entries.length ≤ 64

/-- Fewer entries take fewer bytes. -/
theorem sizes_sublist {fewer entries : List Entry} (sub : fewer.Sublist entries) :
    sizes fewer ≤ sizes entries :=
  (sub.map Entry.size).sum_le_sum fun _ _ => Nat.zero_le _

/-- Dropping entries and counting again. -/
theorem Bounded.recount {history : History} (bounded : history.Bounded) {fewer : List Entry}
    (sub : fewer.Sublist history.entries) : Bounded ⟨fewer, sizes fewer⟩ := by
  have upto := sizes_sublist sub
  rw [← bounded.counted] at upto
  exact ⟨rfl, upto.trans bounded.small, sub.length_le.trans bounded.few⟩

/-- Making room drops the oldest entries, until there is room. -/
theorem evict_spec (size : ℕ) (fits : size ≤ limit) (entries : List Entry) :
    (evict size entries (sizes entries)).entries <:+ entries ∧
    (evict size entries (sizes entries)).bytes =
      sizes (evict size entries (sizes entries)).entries ∧
    (evict size entries (sizes entries)).bytes + size ≤ limit ∧
    (evict size entries (sizes entries)).entries.length < 64 := by
  induction entries with
  | nil => exact ⟨List.suffix_rfl, rfl, by simpa [evict, sizes] using fits, by simp [evict]⟩
  | cons entry entries ih =>
    rw [evict]
    split
    · have rest : sizes (entry :: entries) - entry.size = sizes entries := by
        simp [sizes]
      rw [rest]
      exact ⟨ih.1.trans (List.suffix_cons _ _), ih.2⟩
    · rename_i room
      have small : sizes (entry :: entries) + size ≤ limit := by omega
      have few : (entry :: entries).length < 64 := by omega
      exact ⟨List.suffix_rfl, rfl, small, few⟩

/-- A turn is remembered as the newest entry, after the last of the others, or not at all. -/
theorem remember_cases {history : History} (bounded : history.Bounded) (outside : Outside)
    (now : Instant) (route target : Uuid) (protocol : ProxyProtocol) (original hidden response : Value)
    {next : History}
    (remembered : next = history.remember outside now route target protocol original hidden response) :
    next = history ∨ next.Bounded ∧ ∃ seen sent older, messages protocol original = some seen ∧
      messages protocol hidden = some sent ∧ older <:+ history.entries ∧ next.entries =
        older ++ [entryOf outside now route target protocol original seen sent response] := by
  unfold remember at remembered
  split at remembered
  · rename_i seen sent found found'
    simp only at remembered
    split at remembered
    · exact Or.inl remembered
    · rename_i fits
      obtain ⟨older, counted, small, few⟩ := evict_spec _ (not_lt.mp fits) history.entries
      rw [← bounded.counted] at older counted small few
      subst remembered
      refine Or.inr ⟨⟨?_, small, ?_⟩, seen, sent, _, found, found', older, rfl⟩
      · simp only [counted, sizes, List.map_append, List.sum_append, List.map_cons, List.map_nil,
          List.sum_cons, List.sum_nil, Nat.add_zero]
      · simp only [List.length_append, List.length_cons, List.length_nil]
        omega
  · exact Or.inl remembered

end History
end Aipass.Search
