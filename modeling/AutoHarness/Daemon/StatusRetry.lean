import AutoHarness.Foundation.OrderedMap
import AutoHarness.Foundation.Transition

/-! The retries of terminal statuses that no acknowledgement has settled. A tick goes once over the retained statuses
and moves what it sends to the end, so that a long backlog is served in turn. -/

namespace AutoHarness.Daemon.StatusRetry
open Foundation List
open OrderedMap (entries_set_erase insertNew mem_erase)

structure PendingTerminalStatus where
  firstAttemptedAtMs : ℕ
  sending : Bool
deriving DecidableEq, Repr

structure Limits where
  pendingStatusMaxAgeMs : ℕ
  statusRetriesPerTick : ℕ

abbrev Statuses := OrderedMap String PendingTerminalStatus

/-- The map during a tick, and the keys sent in it; `issuedThisTick` is their number. -/
structure Pass where
  pending : Statuses
  issued : List String

def expired (l : Limits) (nowMs : ℕ) (pending : PendingTerminalStatus) : Bool :=
  pending.firstAttemptedAtMs + l.pendingStatusMaxAgeMs < nowMs

/-- One entry of a tick: aged out, already sending, over the limit, or sent and moved to the end. -/
def visit (l : Limits) (nowMs : ℕ) (p : Pass) (e : String × PendingTerminalStatus) : Pass :=
  if expired l nowMs e.2 then { p with pending := p.pending.erase e.1 }
  else if e.2.sending then p
  else if l.statusRetriesPerTick ≤ p.issued.length then p
  else ⟨(p.pending.erase e.1).set e.1 { e.2 with sending := true }, p.issued ++ [e.1]⟩

/-- One tick. The loop goes over a snapshot of the map. -/
def retryPendingTerminalStatuses (l : Limits) (nowMs : ℕ) (pending : Statuses) : Pass :=
  pending.entries.foldl (visit l nowMs) ⟨pending, []⟩

/-- The retained statuses, and the keys whose latest send has not settled. -/
structure State where
  pending : Statuses
  unsettled : List String

/-- `record` is the end of an attempt, whose key is new: it retains the status and sends it. -/
inductive Event where
  | record (key : String) (nowMs : ℕ)
  | settle (key : String)
  | acknowledge (key : String)
  | tick (nowMs : ℕ)

def clearSending (pending : Statuses) (key : String) : Statuses where
  entries := pending.entries.map fun e => if e.1 = key then (e.1, { e.2 with sending := false }) else e
  nodup := by
    have hkeys : (pending.entries.map fun e => if e.1 = key then (e.1, { e.2 with sending := false }) else e).map
        Prod.fst = pending.entries.map Prod.fst := by
      rw [List.map_map]
      refine List.map_congr_left fun e _ => ?_
      by_cases h : e.1 = key <;> simp [h]
    rw [hkeys]
    exact pending.nodup

def afterTick (l : Limits) (nowMs : ℕ) (s : State) : State :=
  let p := retryPendingTerminalStatuses l nowMs s.pending
  ⟨p.pending, p.issued ++ s.unsettled⟩

def step (l : Limits) (s : State) : Event → Option State
  | .record key nowMs =>
    if s.pending.contains key || s.unsettled.contains key then none
    else some ⟨s.pending.insertNew key ⟨nowMs, true⟩, key :: s.unsettled⟩
  | .settle key =>
    if s.unsettled.contains key then some ⟨clearSending s.pending key, s.unsettled.erase key⟩ else none
  | .acknowledge key => some { s with pending := s.pending.erase key }
  | .tick nowMs => some (afterTick l nowMs s)

/-- A send that has not settled is marked in its entry. -/
structure Marked (s : State) : Prop where
  marked : ∀ e ∈ s.pending.entries, e.1 ∈ s.unsettled → e.2.sending = true
  once : s.unsettled.Nodup

/-- Any set of retained statuses may be there first. -/
def system (l : Limits) : System State Event where
  init := Marked
  step s a s' := step l s a = some s'

/-! ## One tick -/

section Tick

variable {l : Limits} {nowMs : ℕ} {key : String} {s s' : State}

structure Sent (l : Limits) (snapshot : List (String × PendingTerminalStatus)) (p : Pass) : Prop where
  few : p.issued.length ≤ l.statusRetriesPerTick
  nodup : p.issued.Nodup
  idle : ∀ key ∈ p.issued, ∃ v, (key, v) ∈ snapshot ∧ v.sending = false
  entries : ∀ e ∈ p.pending.entries, e ∈ snapshot ∨ e.2.sending = true
  marked : ∀ e ∈ p.pending.entries, e.1 ∈ p.issued → e.2.sending = true

theorem sent_foldl {snapshot done rest : List (String × PendingTerminalStatus)} {p : Pass}
    (hsnapshot : snapshot = done ++ rest) (hnodup : (snapshot.map Prod.fst).Nodup) (h : Sent l snapshot p)
    (hnew : ∀ e ∈ rest, e.1 ∉ p.issued) : Sent l snapshot (rest.foldl (visit l nowMs) p) := by
  induction rest generalizing done p with
  | nil => exact h
  | cons e rest ih =>
    have hsplit : snapshot = (done ++ [e]) ++ rest := by rw [hsnapshot, List.append_assoc, singleton_append]
    have hrest : ∀ x ∈ rest, x.1 ≠ e.1 := by
      intro x hx hk
      rw [hsnapshot, map_append, map_cons, nodup_append, nodup_cons] at hnodup
      exact hnodup.2.1.1 (hk ▸ mem_map_of_mem hx)
    have hnew' : ∀ x ∈ rest, x.1 ∉ p.issued := fun x hx => hnew x (mem_cons_of_mem _ hx)
    rw [foldl_cons, visit]
    split
    · refine ih hsplit { h with entries := ?_, marked := ?_ } hnew'
      · exact fun x hx => h.entries x (mem_erase.mp hx).1
      · exact fun x hx => h.marked x (mem_erase.mp hx).1
    split
    · exact ih hsplit h hnew'
    split
    · exact ih hsplit h hnew'
    · rename_i hidle hroom
      have hset : ∀ x, x ∈ ((p.pending.erase e.1).set e.1 { e.2 with sending := true }).entries →
          x = (e.1, { e.2 with sending := true }) ∨ (x ∈ p.pending.entries ∧ x.1 ≠ e.1) := by
        intro x hx
        rw [entries_set_erase, mem_append, mem_singleton] at hx
        obtain hx | rfl := hx
        · exact .inr (mem_erase.mp hx)
        · exact .inl rfl
      refine ih hsplit ⟨?_, ?_, ?_, ?_, ?_⟩ ?_
      · rw [length_append, length_singleton]
        omega
      · refine nodup_append.mpr ⟨h.nodup, nodup_singleton _, fun a ha b hb hab => ?_⟩
        rw [mem_singleton.mp hb] at hab
        exact hnew e mem_cons_self (hab ▸ ha)
      · intro key hkey
        obtain hkey | hkey := mem_append.mp hkey
        · exact h.idle key hkey
        · rw [mem_singleton.mp hkey]
          exact ⟨e.2, by simp [hsnapshot], by simpa using hidle⟩
      · intro x hx
        obtain rfl | ⟨hx, -⟩ := hset x hx
        · exact .inr rfl
        · exact h.entries x hx
      · intro x hx hkey
        obtain rfl | ⟨hx, hne⟩ := hset x hx
        · rfl
        · obtain hkey | hkey := mem_append.mp hkey
          · exact h.marked x hx hkey
          · exact absurd (mem_singleton.mp hkey) hne
      · intro x hx hkey
        obtain hkey | hkey := mem_append.mp hkey
        · exact hnew' x hx hkey
        · exact hrest x hx (mem_singleton.mp hkey)

theorem sent (l : Limits) (nowMs : ℕ) (pending : Statuses) :
    Sent l pending.entries (retryPendingTerminalStatuses l nowMs pending) := by
  refine sent_foldl (nil_append _).symm pending.nodup ⟨Nat.zero_le _, nodup_nil, ?_, ?_, ?_⟩ ?_
  · exact fun key hkey => absurd hkey not_mem_nil
  · exact fun e he => .inl he
  · exact fun e _ hkey => absurd hkey not_mem_nil
  · exact fun e _ => not_mem_nil

end Tick

/-! ## Rounds -/

structure Round where
  nowMs : ℕ
  between : List Event

def State.keys (s : State) : List String := s.pending.entries.map Prod.fst

section Rounds

variable {l : Limits} {nowMs i : ℕ} {s : State}

end Rounds

end AutoHarness.Daemon.StatusRetry
