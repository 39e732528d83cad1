import AutoHarness.Foundation.Replacement
import AutoHarness.Foundation.Transition
import AutoHarness.Foundation.Utf16
import AutoHarness.Store.Rows

/-! The argv of a session as its row stores it: the text around the prompt, which the row keeps only once. -/

namespace AutoHarness.Store.ArgvStorage
open Foundation Foundation.Utf16

inductive StoredArgvElement
  | plain (arg : Text)
  | around (before after : Text)
deriving DecidableEq

def StoredArgvElement.encode (prompt arg : Text) : StoredArgvElement :=
  match indexOf prompt arg with
  | none => plain arg
  | some position => around (arg.take position) (arg.drop (position + prompt.length))

def StoredArgvElement.decode (prompt : Option Text) : StoredArgvElement → Text
  | plain arg => arg
  | around before after => before ++ prompt.getD [] ++ after

/-- An empty prompt is no prompt. -/
def givenPrompt (prompt : Option Text) : Option Text := prompt.filter (· ≠ [])

def encodeStoredArgv (argv : List Text) (prompt : Option Text) : List StoredArgvElement :=
  match givenPrompt prompt with
  | none => argv.map .plain
  | some prompt => argv.map (.encode prompt)

def decodeStoredArgv (stored : List StoredArgvElement) (prompt : Option Text) : List Text :=
  stored.map (StoredArgvElement.decode prompt)

/-- The attributes of a session row that the writes below read or replace. -/
structure ArgvRow where
  status : SessionStatus
  queueExpiresAt : Timestamp
  prompt : Option Text := none
  pinnedHostId : Option String := none
  pinExpiresAt : Option String := none
  resolvedArgv : Option (List StoredArgvElement) := none

/-- The session's part of an assignment, the same for worktrees, the main checkout and workspaces. -/
def assign (now : Timestamp) (argv : List Text) (prompt : Option Text) (row : ArgvRow) : Option ArgvRow :=
  if row.status = .queued ∧ now < row.queueExpiresAt ∧ (givenPrompt prompt).all (row.prompt = some ·) then
    some { row with status := .running, resolvedArgv := some (encodeStoredArgv argv prompt) }
  else none

def clearResumePin (pinnedHostId : String) (pinExpiresAt : Option String) (prompt : Text) (row : ArgvRow) :
    Option ArgvRow :=
  if row.status = .queued ∧ row.pinnedHostId = some pinnedHostId ∧ pinExpiresAt.all (row.pinExpiresAt = some ·) then
    some { row with prompt := some prompt, pinnedHostId := none, pinExpiresAt := none, resolvedArgv := none }
  else none

/-- The argv of a row that repeats its prompt in plain strings. -/
def legacyArgvCompaction (prompt : Option Text) (resolvedArgv : Option (List StoredArgvElement)) :
    Option (Text × List Text) := do
  let prompt ← givenPrompt prompt
  let argv ← (← resolvedArgv).mapM fun | .plain arg => some arg | .around _ _ => none
  if argv.any fun arg => (indexOf prompt arg).isSome then some (prompt, argv) else none

/-- The write of the compaction pass for what it has read of the row. -/
def compact (prompt : Option Text) (resolvedArgv : Option (List StoredArgvElement)) (row : ArgvRow) : Option ArgvRow := do
  let (prompt, argv) ← legacyArgvCompaction prompt resolvedArgv
  if row.prompt = some prompt ∧ row.resolvedArgv = some (argv.map .plain) then
    some { row with resolvedArgv := some (encodeStoredArgv argv (some prompt)) }
  else none

/-- A write, with what its caller has read; other writes leave the prompt and the argv alone. -/
inductive Write
  | assign (now : Timestamp) (argv : List Text) (prompt : Option Text)
  | clearResumePin (pinnedHostId : String) (pinExpiresAt : Option String) (prompt : Text)
  | compact (prompt : Option Text) (resolvedArgv : Option (List StoredArgvElement))
  | other (status : SessionStatus) (queueExpiresAt : Timestamp) (pinnedHostId pinExpiresAt : Option String)

/-- The row, and the argv of the last assignment that committed. -/
structure Stored where
  row : ArgvRow
  assigned : Option (List Text) := none

/-- Rows of earlier versions hold their argv in plain form. -/
def system : System Stored Write where
  init s := s.row.resolvedArgv = s.assigned.map (·.map .plain)
  step s w s' := match w with
    | .assign now argv prompt => ∃ row, assign now argv prompt s.row = some row ∧ s' = ⟨row, some argv⟩
    | .clearResumePin host expires prompt => ∃ row, clearResumePin host expires prompt s.row = some row ∧ s' = { s with row }
    | .compact prompt argv => ∃ row, compact prompt argv s.row = some row ∧ s' = { s with row }
    | .other status queueExpiresAt pinnedHostId pinExpiresAt =>
      s' = { s with row := { s.row with status, queueExpiresAt, pinnedHostId, pinExpiresAt } }

/-! ## The encoding is inverse -/

theorem decode_encode (prompt arg : Text) : (StoredArgvElement.encode prompt arg).decode (some prompt) = arg := by
  unfold StoredArgvElement.encode
  split
  · rfl
  · next position hposition =>
    obtain ⟨after, hafter⟩ := (indexOf_spec hposition).1
    have hdrop : arg.drop (position + prompt.length) = after := by rw [← List.drop_drop, ← hafter, List.drop_left]
    change arg.take position ++ prompt ++ arg.drop (position + prompt.length) = arg
    rw [hdrop, List.append_assoc, hafter, List.take_append_drop]

theorem decode_plain (argv : List Text) (prompt : Option Text) : decodeStoredArgv (argv.map .plain) prompt = argv := by
  rw [decodeStoredArgv, List.map_map]
  exact List.map_id argv

/-- What an assignment stores decodes against the prompt its condition demands. -/
theorem decode_encode_argv {argv : List Text} {prompt stored : Option Text}
    (h : (givenPrompt prompt).all (stored = some ·) = true) :
    decodeStoredArgv (encodeStoredArgv argv prompt) stored = argv := by
  unfold encodeStoredArgv
  cases hp : givenPrompt prompt with
  | none => exact decode_plain argv stored
  | some p =>
    rw [hp, Option.all_some, decide_eq_true_eq] at h
    subst h
    rw [decodeStoredArgv, List.map_map]
    exact (List.map_congr_left fun arg _ => decode_encode p arg).trans (List.map_id argv)

/-! ## Every write keeps it so -/

def Faithful (s : Stored) : Prop :=
  ∀ stored, s.row.resolvedArgv = some stored → s.assigned = some (decodeStoredArgv stored s.row.prompt)

theorem Faithful.step {s s' : Stored} {w : Write} (h : Faithful s) (hs : system.step s w s') : Faithful s' := by
  cases w with
  | assign now argv prompt =>
    obtain ⟨row, hrow, rfl⟩ := hs
    obtain ⟨hguard, ⟨⟩⟩ := Option.ite_none_right_eq_some.mp hrow
    rintro _ ⟨⟩
    exact congrArg some (decode_encode_argv hguard.2.2).symm
  | clearResumePin host expires prompt =>
    obtain ⟨row, hrow, rfl⟩ := hs
    obtain ⟨-, ⟨⟩⟩ := Option.ite_none_right_eq_some.mp hrow
    exact nofun
  | compact prompt argv =>
    obtain ⟨row, hrow, rfl⟩ := hs
    obtain ⟨⟨p, argv⟩, hread, hrow⟩ := Option.bind_eq_some_iff.mp hrow
    obtain ⟨⟨hp, hargv⟩, ⟨⟩⟩ := Option.ite_none_right_eq_some.mp hrow
    rintro _ ⟨⟩
    have hassigned := h _ hargv
    rw [decode_plain] at hassigned
    rw [hassigned, decode_encode_argv]
    simp [givenPrompt, hp, Option.all_filter]
  | other status expires host pin => exact hs ▸ h

/-- **The stored argv decodes to what ran.** However the writes interleave and however stale the prompt or argv of their
callers are, the row has no argv, or one that decodes to the argv of the last assignment. -/
theorem storedArgv_decodes {s : Stored} (h : system.Reachable s) :
    s.row.resolvedArgv = none ∨ s.row.resolvedArgv.map (decodeStoredArgv · s.row.prompt) = s.assigned := by
  have hfaithful : Faithful s := by
    refine h.invariant (fun s hs stored hstored => ?_) fun _ _ _ _ ih hs => ih.step hs
    have hplain : s.assigned.map (·.map .plain) = some stored := hs.symm.trans hstored
    obtain ⟨argv, hargv, rfl⟩ := Option.map_eq_some_iff.mp hplain
    rw [decode_plain, hargv]
  cases hstored : s.row.resolvedArgv with
  | none => exact .inl rfl
  | some stored => exact .inr (hfaithful stored hstored).symm

/-- The compaction of a row of an earlier version. -/
theorem storedArgv_decodes_compacted : ∃ s, system.Reachable s ∧ s.row.resolvedArgv = some [.around [1] [3]] ∧
      s.row.resolvedArgv.map (decodeStoredArgv · s.row.prompt) = some [[1, 2, 3]] := by
  let row : ArgvRow := { status := .running, queueExpiresAt := 0, prompt := some [2], resolvedArgv := some [.plain [1, 2, 3]] }
  have h := System.Reachable.step (M := system) (s := ⟨row, some [[1, 2, 3]]⟩)
    (a := .compact row.prompt row.resolvedArgv) (.init rfl) ⟨_, rfl, rfl⟩
  exact ⟨_, h, rfl, (storedArgv_decodes h).resolve_left nofun⟩

end AutoHarness.Store.ArgvStorage
