import Mathlib.Data.List.Dedup
import Mathlib.Data.List.Lex
import Mathlib.Data.List.Sort
import Mathlib.Order.Fin.Basic
import AutoHarness.Foundation.Utf16

/-! The bounded outcome of a session attempt. The caps on single fields are on raw bytes, the budget of the whole is
on its JSON text, and only the list of files gives way. -/

namespace AutoHarness.Shared
open Foundation.Utf16 List
open Option (map_some map_eq_some_iff toList_some)

/-! ## Values -/

/-- A parsed JSON value. The value of a number is never looked at. -/
inductive Json where
  | null
  | bool (value : Bool)
  | number
  | string (value : Text)
  | array (entries : List Json)
  | object (member : String → Option Json)

inductive SummarySource where
  | agent | harness
deriving DecidableEq, Repr

def SummarySource.text : SummarySource → Text
  | agent => ofString "agent"
  | harness => ofString "harness"

structure SessionResult where
  summary : Text
  summarySource : SummarySource
  summaryTruncated : Bool := false
  branch : Option Text := none
  filesChanged : Option (List Text) := none
  filesChangedTruncated : Bool := false
  pullRequestUrl : Option Text := none
deriving DecidableEq

def MAX_SESSION_RESULT_BYTES : ℕ := 32 * 1024

def MAX_SESSION_RESULT_SUMMARY_BYTES : ℕ := 4 * 1024

def MAX_SESSION_RESULT_BRANCH_BYTES : ℕ := 1024

def MAX_SESSION_RESULT_URL_BYTES : ℕ := 2 * 1024

def MAX_SESSION_RESULT_FILES : ℕ := 256

def MAX_SESSION_RESULT_FILE_BYTES : ℕ := 4 * 1024

/-! ## JSON text -/

def hexDigit (n : ℕ) : CodeUnit := Fin.ofNat _ (if n < 10 then 48 + n else 87 + n)

/-- A unit as `JSON.stringify` writes it; `lone` says that it is a surrogate without a partner. -/
def escapeUnit (lone : Bool) (c : CodeUnit) : Text :=
  match c.val with
  | 0x22 => ofString "\\\""
  | 0x5C => ofString "\\\\"
  | 0x08 => ofString "\\b"
  | 0x09 => ofString "\\t"
  | 0x0A => ofString "\\n"
  | 0x0C => ofString "\\f"
  | 0x0D => ofString "\\r"
  | n =>
    if n < 0x20 || lone then
      ofString "\\u" ++ [hexDigit (n / 4096), hexDigit (n / 256 % 16), hexDigit (n / 16 % 16), hexDigit (n % 16)]
    else [c]

def escapeFrom : Bool → Text → Text
  | _, [] => []
  | afterHigh, c :: rest =>
    escapeUnit (if isHigh c then !rest.head?.any isLow else isLow c && !afterHigh) c ++ escapeFrom (isHigh c) rest

def quote (s : Text) : Text := ofString "\"" ++ escapeFrom false s ++ ofString "\""

def commaJoin : List Text → Text
  | [] => []
  | [x] => x
  | x :: y :: rest => x ++ (ofString "," ++ commaJoin (y :: rest))

def arrayText (xs : List Text) : Text := ofString "[" ++ (commaJoin (xs.map quote) ++ ofString "]")

namespace SessionResult

def members (r : SessionResult) : List Text :=
  [ofString "\"summary\":" ++ quote r.summary, ofString "\"summarySource\":" ++ quote r.summarySource.text] ++
    (if r.summaryTruncated then [ofString "\"summaryTruncated\":true"] else []) ++
    (r.branch.map fun x => ofString "\"branch\":" ++ quote x).toList ++
    (r.pullRequestUrl.map fun x => ofString "\"pullRequestUrl\":" ++ quote x).toList ++
    (r.filesChanged.map fun x => ofString "\"filesChanged\":" ++ arrayText x).toList ++
    (if r.filesChangedTruncated then [ofString "\"filesChangedTruncated\":true"] else [])

/-- The source may set `filesChangedTruncated` before `filesChanged`, which leaves the length alone. -/
def stringify (r : SessionResult) : Text := ofString "\x7b" ++ (commaJoin r.members ++ ofString "\x7d")

def toJson (r : SessionResult) : Json :=
  .object fun
    | "summary" => some (.string r.summary)
    | "summarySource" => some (.string r.summarySource.text)
    | "summaryTruncated" => if r.summaryTruncated then some (.bool true) else none
    | "branch" => r.branch.map .string
    | "filesChanged" => r.filesChanged.map fun files => .array (files.map .string)
    | "filesChangedTruncated" => if r.filesChangedTruncated then some (.bool true) else none
    | "pullRequestUrl" => r.pullRequestUrl.map .string
    | _ => none

end SessionResult

/-! ## Normalisation -/

/-- The longest start of at most `end_` units that fits. -/
def truncateFrom (value : Text) (maxBytes : ℕ) : ℕ → Text
  | 0 => []
  | end_ + 1 => if maxBytes < bytes (value.take (end_ + 1)) then truncateFrom value maxBytes end_ else value.take (end_ + 1)

def truncate (value : Text) (maxBytes : ℕ) : Text :=
  if bytes value ≤ maxBytes then value else truncateFrom value maxBytes (min value.length maxBytes)

def Json.isTrue : Option Json → Bool
  | some (bool true) => true
  | _ => false

def Json.text : Option Json → Option Text
  | some (string s) => some s
  | _ => none

section Parser

-- `new URL(value)` as far as it is looked at: none if it throws, otherwise the protocol
variable (protocol : Text → Option String)

def validHttpUrl (value : Text) : Bool := protocol value == some "http:" || protocol value == some "https:"

def summarySourceOf (value : Option Json) : Option SummarySource :=
  match Json.text value with
  | some s => if s = ofString "agent" then some .agent else if s = ofString "harness" then some .harness else none
  | none => none

def branchOf (value : Option Json) : Option Text :=
  (Json.text value).filter fun s => s ≠ [] && bytes s ≤ MAX_SESSION_RESULT_BRANCH_BYTES

def pullRequestUrlOf (value : Option Json) : Option Text :=
  (Json.text value).filter fun s => bytes s ≤ MAX_SESSION_RESULT_URL_BYTES && validHttpUrl protocol s

/-- The loop over `filesChanged`: the set so far, and whether an oversized name was met. -/
def collectFiles (files : List Text) (oversized : Bool) : List Json → List Text × Bool
  | [] => (files, oversized)
  | .string s :: rest =>
    if s = [] then collectFiles files oversized rest
    else if MAX_SESSION_RESULT_FILE_BYTES < bytes s then collectFiles files true rest
    else
      let files := if s ∈ files then files else files ++ [s]
      if MAX_SESSION_RESULT_FILES ≤ files.length then (files, oversized) else collectFiles files oversized rest
  | _ :: rest => collectFiles files oversized rest

/-- `filesChanged` and `filesChangedTruncated` before the budget is looked at. -/
def filesOf (value truncated : Option Json) : Option (List Text) × Bool :=
  match value with
  | some (.array entries) =>
    let collected := collectFiles [] false entries
    (if collected.1 ≠ [] || entries.isEmpty then some (collected.1.insertionSort (· ≤ ·)) else none,
      collected.2 || MAX_SESSION_RESULT_FILES < entries.length || Json.isTrue truncated)
  | _ => (none, false)

/-- The loop that drops files from the end of the list until the text fits; `fuel` is their number. -/
def trimFiles : ℕ → SessionResult → SessionResult
  | 0, r => r
  | fuel + 1, r =>
    match r.filesChanged with
    | some (f :: rest) =>
      if MAX_SESSION_RESULT_BYTES < bytes r.stringify then
        trimFiles fuel { r with filesChanged := some (f :: rest).dropLast, filesChangedTruncated := true }
      else r
    | _ => r

def collectedResult : Json → Option SessionResult
  | .object member =>
    match summarySourceOf (member "summarySource"), Json.text (member "summary") with
    | some source, some summary =>
      if truncate summary MAX_SESSION_RESULT_SUMMARY_BYTES = [] then none
      else
        let files := filesOf (member "filesChanged") (member "filesChangedTruncated")
        some {
          summary := truncate summary MAX_SESSION_RESULT_SUMMARY_BYTES
          summarySource := source
          summaryTruncated :=
            MAX_SESSION_RESULT_SUMMARY_BYTES < bytes summary || Json.isTrue (member "summaryTruncated")
          branch := branchOf (member "branch")
          pullRequestUrl := pullRequestUrlOf protocol (member "pullRequestUrl")
          filesChanged := files.1
          filesChangedTruncated := files.2 }
    | _, _ => none
  | _ => none

def normalizeSessionResult (value : Json) : Option SessionResult :=
  (collectedResult protocol value).map fun r => trimFiles (r.filesChanged.getD []).length r

def flagOk : Option Json → Bool
  | none => true
  | value => Json.isTrue value

def isSessionResult : Json → Bool
  | .object member =>
    (match Json.text (member "summary") with
      | some s => s ≠ [] && bytes s ≤ MAX_SESSION_RESULT_SUMMARY_BYTES
      | none => false) &&
    (summarySourceOf (member "summarySource")).isSome && flagOk (member "summaryTruncated") &&
    (match member "branch" with
      | none => true
      | value => (Json.text value).any fun s => bytes s ≤ MAX_SESSION_RESULT_BRANCH_BYTES) &&
    (match member "pullRequestUrl" with
      | none => true
      | value => (Json.text value).any fun s => bytes s ≤ MAX_SESSION_RESULT_URL_BYTES && validHttpUrl protocol s) &&
    (match member "filesChanged" with
      | none => true
      | some (.array entries) => entries.length ≤ MAX_SESSION_RESULT_FILES && entries.all fun entry =>
          (Json.text (some entry)).any fun s => s ≠ [] && bytes s ≤ MAX_SESSION_RESULT_FILE_BYTES
      | _ => false) &&
    flagOk (member "filesChangedTruncated")
  | _ => false

end Parser

/-! ## Fields -/

variable {protocol : Text → Option String} {value : Json} {r : SessionResult}

section Fields

variable {value s : Text} {m : ℕ} {files files' names : List Text}

theorem bytes_truncate_le (value : Text) (m : ℕ) : bytes (truncate value m) ≤ m := by
  have hfrom : ∀ n, bytes (truncateFrom value m n) ≤ m := by
    intro n
    induction n with
    | zero => exact Nat.zero_le m
    | succ n ih =>
      unfold truncateFrom
      split
      · exact ih
      · omega
  unfold truncate
  split
  · assumption
  · exact hfrom _

theorem truncate_of_le (h : bytes value ≤ m) : truncate value m = value := if_pos h

def FileOk (s : Text) : Prop := s ≠ [] ∧ bytes s ≤ MAX_SESSION_RESULT_FILE_BYTES

def Unlistable (entries : List Json) : Prop := ∀ s, .string s ∈ entries → ¬ FileOk s

def Oversized (entries : List Json) : Prop := ∃ s, .string s ∈ entries ∧ MAX_SESSION_RESULT_FILE_BYTES < bytes s

/-- A list that the loop over the files leaves, and that the loop leaves as it is. -/
structure Listable (files : List Text) : Prop where
  nodup : files.Nodup
  ok : ∀ s ∈ files, FileOk s
  few : files.length ≤ MAX_SESSION_RESULT_FILES

/-- What the loop guarantees about the set, the flag and the names it passed over. -/
structure Collected (files : List Text) (oversized : Bool) (entries : List Json) (out : List Text × Bool) : Prop where
  listable : Listable out.1
  kept : files ⊆ out.1
  given : ∀ s ∈ out.1, s ∈ files ∨ .string s ∈ entries
  flag : oversized = true → out.2 = true
  oversized : out.2 = true → oversized = true ∨ Oversized entries
  named : ∀ s, .string s ∈ entries → s ≠ [] → s ∈ out.1 ∨
    (MAX_SESSION_RESULT_FILE_BYTES < bytes s ∧ out.2 = true) ∨
    (MAX_SESSION_RESULT_FILES ≤ out.1.length ∧ MAX_SESSION_RESULT_FILES < files.length + entries.length)

/-- One entry is added, passed over as too long, or passed over. -/
theorem Collected.cons {o o' : Bool} {entry : Json} {rest : List Json} {out : List Text × Bool}
    (h : Collected files' o' rest out) (hsub : files ⊆ files') (hlen : files'.length ≤ files.length + 1)
    (hnew : ∀ s ∈ files', s ∈ files ∨ entry = .string s) (hflag : o = true → o' = true)
    (hover : o' = true → o = true ∨ ∃ s, entry = .string s ∧ MAX_SESSION_RESULT_FILE_BYTES < bytes s)
    (hentry : ∀ s, entry = .string s → s ≠ [] → s ∈ files' ∨ (MAX_SESSION_RESULT_FILE_BYTES < bytes s ∧ o' = true)) :
    Collected files o (entry :: rest) out where
  listable := h.listable
  kept s hs := h.kept (hsub hs)
  given s hs := by
    obtain hs | hs := h.given s hs
    · exact (hnew s hs).imp_right fun heq : entry = .string s => heq ▸ mem_cons_self
    · exact .inr (mem_cons_of_mem _ hs)
  flag ho := h.flag (hflag ho)
  oversized ho := by
    obtain ho | ⟨s, hs, hsize⟩ := h.oversized ho
    · exact (hover ho).imp_right fun ⟨s, hs, hsize⟩ => ⟨s, hs ▸ mem_cons_self, hsize⟩
    · exact .inr ⟨s, mem_cons_of_mem _ hs, hsize⟩
  named s hs hne := by
    obtain hs | hs := mem_cons.mp hs
    · obtain hin | ⟨hsize, ho⟩ := hentry s hs.symm hne
      · exact .inl (h.kept hin)
      · exact .inr (.inl ⟨hsize, h.flag ho⟩)
    · obtain hin | hcut | ⟨hfull, hmany⟩ := h.named s hs hne
      · exact .inl hin
      · exact .inr (.inl hcut)
      · exact .inr (.inr ⟨hfull, by rw [length_cons]; omega⟩)

theorem Listable.insert (h : Listable files) (hs : FileOk s)
    (hroom : files.length < MAX_SESSION_RESULT_FILES) : Listable (if s ∈ files then files else files ++ [s]) := by
  split
  · exact h
  · rename_i hnew
    refine ⟨nodup_append.mpr ⟨h.nodup, nodup_singleton s, ?_⟩, fun t ht => ?_, ?_⟩
    · rintro a ha b hb rfl
      exact hnew (mem_singleton.mp hb ▸ ha)
    · obtain ht | ht := mem_append.mp ht
      · exact h.ok t ht
      · exact mem_singleton.mp ht ▸ hs
    · rw [length_append, length_singleton]
      omega

theorem collected (files : List Text) (oversized : Bool) (entries : List Json) (h : Listable files)
    (hroom : files.length < MAX_SESSION_RESULT_FILES) :
    Collected files oversized entries (collectFiles files oversized entries) := by
  induction entries generalizing files oversized with
  | nil => exact ⟨h, fun _ => id, fun _ => .inl, id, .inl, nofun⟩
  | cons entry rest ih =>
    -- an entry that is passed over leaves everything to the rest
    have skip : (∀ s, entry = .string s → s = []) →
        Collected files oversized (entry :: rest) (collectFiles files oversized rest) := fun hentry =>
      (ih files oversized h hroom).cons (fun _ => id) (Nat.le_succ _) (fun _ => .inl) id .inl
        fun s hs hne => absurd (hentry s hs) hne
    cases entry with
    | string s =>
      unfold collectFiles
      split
      · rename_i hs
        exact skip fun t ht => by cases ht; exact hs
      rename_i hne
      split
      · rename_i hsize
        refine (ih files true h hroom).cons (fun _ => id) (Nat.le_succ _) (fun _ => .inl) (fun _ => rfl)
          (fun _ => .inr ⟨s, rfl, hsize⟩) ?_
        rintro _ ⟨⟩ -
        exact .inr ⟨hsize, rfl⟩
      rename_i hsize
      have hlist := h.insert ⟨hne, Nat.le_of_not_lt hsize⟩ hroom
      have hsub : files ⊆ if s ∈ files then files else files ++ [s] := by split <;> simp
      have hmem : s ∈ if s ∈ files then files else files ++ [s] := by split <;> simp [*]
      have hlen : (if s ∈ files then files else files ++ [s]).length ≤ files.length + 1 := by split <;> simp
      have hnew : ∀ t ∈ if s ∈ files then files else files ++ [s], t ∈ files ∨ .string s = Json.string t := by
        intro t ht
        split at ht
        · exact .inl ht
        · simpa [eq_comm] using ht
      dsimp only
      generalize (if s ∈ files then files else files ++ [s]) = files' at hlist hsub hmem hlen hnew ⊢
      split
      · rename_i hfull
        refine ⟨hlist, hsub, fun t ht => (hnew t ht).imp_right ?_, id, .inl, fun t ht _ => ?_⟩
        · exact fun heq => heq ▸ mem_cons_self
        obtain ht | ht := mem_cons.mp ht
        · cases ht
          exact .inl hmem
        · have hpos := length_pos_of_mem ht
          exact .inr (.inr ⟨hfull, by rw [length_cons]; omega⟩)
      · refine (ih files' oversized hlist (by omega)).cons hsub hlen hnew id .inl ?_
        rintro _ ⟨⟩ -
        exact .inl hmem
    | null | bool | number | array | object => exact skip nofun

theorem collected_nil (entries : List Json) : Collected [] false entries (collectFiles [] false entries) :=
  collected [] false entries ⟨.nil, nofun, Nat.zero_le _⟩ (by decide)

theorem collectFiles_listable {oversized : Bool} (h : Listable (files ++ names)) :
    collectFiles files oversized (names.map .string) = (files ++ names, oversized) := by
  induction names generalizing files with
  | nil => simp [collectFiles]
  | cons s rest ih =>
    have hs : FileOk s := h.ok s (by simp)
    have hnew : s ∉ files := fun hin => by
      have := (nodup_append.mp h.nodup).2.2 s hin s (by simp)
      exact this rfl
    have hnext : Listable ((files ++ [s]) ++ rest) := by simpa using h
    have hrest := ih hnext
    simp only [map_cons, collectFiles, hs.1, if_false, Nat.not_lt.mpr hs.2, hnew]
    split
    · rename_i hfull
      have hfew := hnext.few
      rw [length_append] at hfew
      obtain rfl : rest = [] := length_eq_zero_iff.mp (by omega)
      rfl
    · rw [hrest, append_assoc, singleton_append]

theorem unlistable_iff (entries : List Json) : Unlistable entries ↔ (collectFiles [] false entries).1 = [] := by
  have hall := collected_nil entries
  constructor
  · intro h
    refine eq_nil_iff_forall_not_mem.mpr fun s hs => ?_
    obtain hs' | hs' := hall.given s hs
    · cases hs'
    · exact h s hs' (hall.listable.ok s hs)
  · intro hnil s hs hok
    obtain hin | ⟨hsize, -⟩ | ⟨hfull, -⟩ := hall.named s hs hok.1
    · rw [hnil] at hin
      exact absurd hin not_mem_nil
    · exact absurd hok.2 (Nat.not_le.mpr hsize)
    · rw [hnil] at hfull
      exact absurd hfull (by decide)

/-- The loop may stop before a name that is too long, but only in a list that is flagged for its length. -/
theorem flagged_iff (entries : List Json) :
    (collectFiles [] false entries).2 = true ∨ MAX_SESSION_RESULT_FILES < entries.length ↔
      Oversized entries ∨ MAX_SESSION_RESULT_FILES < entries.length := by
  have hall := collected_nil entries
  constructor
  · exact Or.imp_left fun h => (hall.oversized h).resolve_left Bool.false_ne_true
  · rintro (⟨s, hs, hsize⟩ | hmany)
    · have hne : s ≠ [] := by
        rintro rfl
        exact absurd hsize (Nat.not_lt_zero _)
      obtain hin | ⟨-, hflag⟩ | ⟨-, hmany⟩ := hall.named s hs hne
      · exact absurd (hall.listable.ok s hin).2 (Nat.not_le.mpr hsize)
      · exact .inl hflag
      · exact .inr (by simpa using hmany)
    · exact .inr hmany

end Fields

/-! ## Results as values -/

section Values

/-- Every field is one that normalisation keeps. -/
structure FieldsOk (protocol : Text → Option String) (r : SessionResult) : Prop where
  summary : r.summary ≠ [] ∧ bytes r.summary ≤ MAX_SESSION_RESULT_SUMMARY_BYTES
  branch : ∀ s ∈ r.branch, s ≠ [] ∧ bytes s ≤ MAX_SESSION_RESULT_BRANCH_BYTES
  url : ∀ s ∈ r.pullRequestUrl, bytes s ≤ MAX_SESSION_RESULT_URL_BYTES ∧ validHttpUrl protocol s = true
  files : ∀ files ∈ r.filesChanged, Listable files ∧ files.Pairwise (· ≤ ·)

@[simp] theorem isTrue_flag (b : Bool) : Json.isTrue (if b then some (.bool true) else none) = b := by
  cases b <;> rfl

@[simp] theorem text_string (s : Text) : Json.text (some (.string s)) = some s := rfl

@[simp] theorem text_map (s : Option Text) : Json.text (s.map .string) = s := by
  cases s <;> rfl

@[simp] theorem summarySourceOf_text (source : SummarySource) :
    summarySourceOf (some (.string source.text)) = some source := by
  cases source <;> rfl

section

variable (h : FieldsOk protocol r)
include h

theorem filesOf_toJson (truncated : Option Json) :
    filesOf (r.filesChanged.map fun files => .array (files.map .string)) truncated =
      (r.filesChanged, r.filesChanged.isSome && Json.isTrue truncated) := by
  cases hfiles : r.filesChanged with
  | none => rfl
  | some files =>
    obtain ⟨hlist, hsorted⟩ := h.files files hfiles
    have hfew : ¬ MAX_SESSION_RESULT_FILES < files.length := Nat.not_lt.mpr hlist.few
    have hcollect : collectFiles [] false (files.map .string) = (files, false) := collectFiles_listable hlist
    simp [filesOf, hcollect, hsorted.insertionSort_eq, hfew]

theorem collectedResult_toJson : collectedResult protocol r.toJson =
    some { r with filesChangedTruncated := r.filesChanged.isSome && r.filesChangedTruncated } := by
  have hbranch : branchOf (r.branch.map .string) = r.branch := by
    have hok := h.branch
    cases hb : r.branch with
    | none => rfl
    | some s => simpa [branchOf] using hok s hb
  have hurl : pullRequestUrlOf protocol (r.pullRequestUrl.map .string) = r.pullRequestUrl := by
    have hok := h.url
    cases hu : r.pullRequestUrl with
    | none => rfl
    | some s => simpa [pullRequestUrlOf] using hok s hu
  have hsize : ¬ MAX_SESSION_RESULT_SUMMARY_BYTES < bytes r.summary := Nat.not_lt.mpr h.summary.2
  simp [SessionResult.toJson, collectedResult, truncate_of_le h.summary.2, h.summary.1, hsize, hbranch, hurl,
    filesOf_toJson h]

theorem isSessionResult_toJson : isSessionResult protocol r.toJson = true := by
  have hflag : ∀ b : Bool, flagOk (if b then some (.bool true) else none) = true := by decide
  have ⟨hsummary, hbranch, hurl, hfiles⟩ := h
  simp only [SessionResult.toJson, isSessionResult, hflag, Bool.and_true, Bool.and_eq_true]
  refine ⟨⟨⟨⟨?_, ?_⟩, ?_⟩, ?_⟩, ?_⟩
  · simpa using hsummary
  · simp
  · cases hb : r.branch with
    | none => rfl
    | some s => simpa using (hbranch s hb).2
  · cases hu : r.pullRequestUrl with
    | none => rfl
    | some s => simpa using hurl s hu
  · cases hf : r.filesChanged with
    | none => rfl
    | some files =>
      obtain ⟨hlist, -⟩ := hfiles files hf
      simp only [map_some, length_map, hlist.few, decide_true, Bool.true_and, all_eq_true]
      intro entry hentry
      obtain ⟨s, hs, rfl⟩ := mem_map.mp hentry
      simpa [FileOk] using hlist.ok s hs

end

theorem collectedResult_some {value : Json} (h : collectedResult protocol value = some r) : ∃ member summary,
    value = .object member ∧ r.summary = truncate summary MAX_SESSION_RESULT_SUMMARY_BYTES ∧ r.summary ≠ [] ∧
      r.branch = branchOf (member "branch") ∧ r.pullRequestUrl = pullRequestUrlOf protocol (member "pullRequestUrl") ∧
      (r.filesChanged, r.filesChangedTruncated) = filesOf (member "filesChanged") (member "filesChangedTruncated") := by
  unfold collectedResult at h
  split at h
  · rename_i member
    split at h
    · rename_i summary _ _
      split at h
      · cases h
      · rename_i hsummary
        cases h
        exact ⟨member, summary, rfl, rfl, hsummary, rfl, rfl, rfl⟩
    · cases h
  · cases h

theorem fieldsOk_collected {value : Json} (h : collectedResult protocol value = some r) : FieldsOk protocol r := by
  obtain ⟨member, summary, -, hsummary, hne, hbranch, hurl, hfiles⟩ := collectedResult_some h
  refine ⟨⟨hne, hsummary ▸ bytes_truncate_le ..⟩, fun s hs => ?_, fun s hs => ?_, fun files hf => ?_⟩
  · rw [hbranch] at hs
    simpa using (Option.mem_filter_iff.mp hs).2
  · rw [hurl] at hs
    simpa using (Option.mem_filter_iff.mp hs).2
  · have hshown : (filesOf (member "filesChanged") (member "filesChangedTruncated")).1 = some files := by
      rw [← hfiles]
      exact hf
    unfold filesOf at hshown
    split at hshown
    · rename_i entries _
      have hlist := (collected_nil entries).listable
      have hperm := perm_insertionSort (· ≤ ·) (collectFiles [] false entries).1
      simp only [Option.ite_none_right_eq_some, Option.some.injEq] at hshown
      rw [← hshown.2]
      exact ⟨⟨hperm.nodup_iff.mpr hlist.nodup, fun s hs => hlist.ok s (hperm.subset hs),
        hperm.length_eq.trans_le hlist.few⟩, pairwise_insertionSort ..⟩
    · cases hshown

end Values

/-! ## The budget -/

/-- The UTF-8 bytes of a unit as `JSON.stringify` writes it: two for an escape by a letter, six for one by a number. -/
def escapedUnitBytes (lone : Bool) (c : CodeUnit) : ℕ :=
  if c.val ∈ [0x22, 0x5C, 0x08, 0x09, 0x0A, 0x0C, 0x0D] then 2
  else if c.val < 0x20 || lone then 6
  else unitBytes true c

def escapedBytesFrom : Bool → Text → ℕ
  | _, [] => 0
  | afterHigh, c :: rest =>
    escapedUnitBytes (if isHigh c then !rest.head?.any isLow else isLow c && !afterHigh) c +
      escapedBytesFrom (isHigh c) rest

/-- The UTF-8 bytes of a text between its quotes. -/
def escapedBytes (s : Text) : ℕ := escapedBytesFrom false s

def Json.member : Json → String → Option Json
  | object member => member
  | _ => fun _ => none

/-- The room for the members other than the files: the braces, the names, quotes and commas, and the escaped texts. -/
def fixedBytes (summary : Text) (source : SummarySource) (summaryTruncated : Bool) (branch url : Option Text) : ℕ :=
  33 + escapedBytes summary + source.text.length + (if summaryTruncated then 24 else 0) +
    (branch.elim 0 fun s => 12 + escapedBytes s) + (url.elim 0 fun s => 20 + escapedBytes s)

section Room

variable (protocol : Text → Option String) (member : String → Option Json)

/-- The room for the fields of the input other than its files, as far as they are kept. -/
def fieldsBytes : ℕ :=
  let summary := (Json.text (member "summary")).getD []
  fixedBytes (truncate summary MAX_SESSION_RESULT_SUMMARY_BYTES)
    ((summarySourceOf (member "summarySource")).getD .agent)
    (MAX_SESSION_RESULT_SUMMARY_BYTES < bytes summary || Json.isTrue (member "summaryTruncated"))
    (branchOf (member "branch")) (pullRequestUrlOf protocol (member "pullRequestUrl"))

/-- The names of a list that may be kept. -/
def listedNames (entries : List Json) : List Text :=
  (entries.filterMap fun entry => Json.text (some entry)).filter fun s =>
    s ≠ [] && bytes s ≤ MAX_SESSION_RESULT_FILE_BYTES

/-- Whether a list is flagged before any of its names is dropped for the budget. -/
def listFlagged (entries : List Json) (truncated : Option Json) : Bool :=
  (entries.any fun entry => (Json.text (some entry)).any (MAX_SESSION_RESULT_FILE_BYTES < bytes ·)) ||
    MAX_SESSION_RESULT_FILES < entries.length || Json.isTrue truncated

/-- The least room for a list of files and its flag: that of an empty list with the flag, or of all names if they take
less. -/
def listBytes (entries : List Json) (truncated : Option Json) : ℕ :=
  let names := (listedNames entries).dedup
  if names = [] then (if entries.isEmpty then 18 else 0) + (if listFlagged entries truncated then 29 else 0)
  else if listFlagged entries truncated then 18 + 29
  else min (18 + 29) (17 + (names.map fun s => escapedBytes s + 3).sum)

def filesBytes : ℕ :=
  match member "filesChanged" with
  | some (.array entries) => listBytes entries (member "filesChangedTruncated")
  | _ => 0

end Room

section Budget

/-! ### Escaped texts -/

theorem unitBytes_hexDigit {n : ℕ} (h : n < 16) (b : Bool) : unitBytes b (hexDigit n) = 1 := by
  have hall : ∀ n < 16, ∀ b, unitBytes b (hexDigit n) = 1 := by decide
  exact hall n h b

theorem bytesFrom_escapeUnit {b lone : Bool} {c : CodeUnit} (h : isLow c = true → lone = false → b = true) :
    bytesFrom b (escapeUnit lone c) = escapedUnitBytes lone c := by
  unfold escapeUnit
  split
  on_goal 8 =>
    rename_i n hn₁ hn₂ hn₃ hn₄ hn₅ hn₆ hn₇
    have hmem : c.val ∉ [0x22, 0x5C, 0x08, 0x09, 0x0A, 0x0C, 0x0D] := by
      simp only [mem_cons, not_mem_nil, or_false, not_or]
      exact ⟨hn₁, hn₂, hn₃, hn₄, hn₅, hn₆, hn₇⟩
    rw [escapedUnitBytes, if_neg hmem]
    split
    · have hc := c.isLt
      have hstart : bytesFrom b (ofString "\\u") = 2 := by cases b <;> rfl
      rw [bytesFrom_append, hstart]
      simp only [bytesFrom]
      rw [unitBytes_hexDigit (by omega), unitBytes_hexDigit (by omega), unitBytes_hexDigit (by omega),
        unitBytes_hexDigit (by omega)]
    · rename_i hplain
      simp only [Bool.or_eq_true, not_or, Bool.not_eq_true] at hplain
      cases b with
      | true => rfl
      | false =>
        cases hlow : isLow c with
        | true => cases h hlow hplain.2
        | false => simp [bytesFrom, unitBytes, hlow]
  all_goals
    rename_i hval
    rw [escapedUnitBytes, if_pos (by rw [hval]; decide)]
    cases b <;> rfl

theorem escapeUnit_high {c : CodeUnit} (h : isHigh c = true) : escapeUnit false c = [c] := by
  simp only [isHigh, Bool.and_eq_true, decide_eq_true_eq] at h
  unfold escapeUnit
  split
  on_goal 8 => simp; omega
  all_goals omega

/-- A low surrogate at the start counts for what precedes it. -/
theorem bytesFrom_escape {s : Text} {b b' : Bool} (h : s.head?.any isLow = true → b = true → b' = true) :
    bytesFrom b' (escapeFrom b s) = escapedBytesFrom b s := by
  induction s generalizing b b' with
  | nil => rfl
  | cons c rest ih =>
    rw [escapeFrom, escapedBytesFrom, bytesFrom_append, bytesFrom_escapeUnit, ih]
    · intro hlow hhigh
      simp [hhigh, hlow, escapeUnit_high hhigh, endsHigh]
    · intro hlow hlone
      have hhigh : isHigh c = false := by
        simp only [isLow, isHigh, Bool.and_eq_true, decide_eq_true_eq] at hlow ⊢
        simp
        omega
      simp [hhigh, hlow] at hlone
      exact h (by simpa using hlow) hlone

theorem bytes_quote (s : Text) : bytes (quote s) = escapedBytes s + 2 := by
  have hopen : bytesFrom false (ofString "\"") = 1 := rfl
  rw [quote, append_assoc, ← append_assoc, bytes_append (by simp [ofString]; decide)]
  change bytesFrom false (ofString "\"" ++ escapeFrom false s) + 1 = _
  rw [bytesFrom_append, hopen, bytesFrom_escape (by simp), escapedBytes]
  omega

theorem bytes_commaJoin (x : Text) {xs : List Text} (h : ∀ y ∈ xs, y.head?.all fun c => !isLow c) :
    bytes (commaJoin (x :: xs)) + 1 = ((x :: xs).map fun y => bytes y + 1).sum := by
  induction xs generalizing x with
  | nil => simp [commaJoin]
  | cons y rest ih =>
    have hy : (commaJoin (y :: rest)).head?.all fun c => !isLow c := by
      cases rest <;> cases y <;> simp_all [commaJoin, ofString]
      decide
    have hcomma : bytes (ofString ",") = 1 := by decide
    have hrest := ih y fun z hz => h z (mem_cons_of_mem _ hz)
    rw [commaJoin, bytes_append (by simp [ofString]; decide), bytes_append hy, hcomma]
    simp only [map_cons, sum_cons] at hrest ⊢
    omega

theorem head_quote (s : Text) : (quote s).head?.all fun c => !isLow c := by
  simp [quote, ofString]
  decide

theorem bytes_arrayText (files : List Text) : bytes (arrayText files) =
    if files = [] then 2 else 1 + (files.map fun s => escapedBytes s + 3).sum := by
  cases files with
  | nil => rfl
  | cons f rest =>
    have hquotes : ∀ y ∈ rest.map quote, y.head?.all fun c => !isLow c := by
      intro y hy
      obtain ⟨s, -, rfl⟩ := mem_map.mp hy
      exact head_quote s
    have hjoin := bytes_commaJoin (quote f) hquotes
    have hends : bytes (ofString "[") = 1 ∧ bytes (ofString "]") = 1 := by decide
    have hhead : (commaJoin (quote f :: rest.map quote) ++ ofString "]").head?.all fun c => !isLow c := by
      cases rest <;> simp [commaJoin, quote, ofString] <;> decide
    rw [arrayText, map_cons, bytes_append hhead, bytes_append (by simp [ofString]; decide), hends.1, hends.2,
      if_neg (by simp)]
    simp only [map_cons, sum_cons, map_map, Function.comp_def, bytes_quote, Nat.add_assoc, Nat.reduceAdd] at hjoin ⊢
    omega

theorem bytes_stringify (r : SessionResult) : bytes r.stringify = (r.members.map fun m => bytes m + 1).sum + 1 := by
  have hplain : ∀ m ∈ r.members, m.head?.all fun c => !isLow c := by
    intro m hm
    simp only [SessionResult.members, mem_append, mem_cons, not_mem_nil, or_false, Option.mem_toList,
      map_eq_some_iff, mem_ite_nil_right] at hm
    obtain (((((rfl | rfl) | ⟨-, rfl⟩) | ⟨x, -, rfl⟩) | ⟨x, -, rfl⟩) | ⟨x, -, rfl⟩) | ⟨-, rfl⟩ := hm <;>
      simp [ofString] <;> decide
  obtain ⟨m, ms, hms⟩ : ∃ m ms, r.members = m :: ms := ⟨_, _, rfl⟩
  rw [hms] at hplain
  have hjoin := bytes_commaJoin m fun y hy => hplain y (mem_cons_of_mem m hy)
  have hopen : bytes (ofString "\x7b") = 1 := by decide
  have hclose : bytes (ofString "\x7d") = 1 := by decide
  have hhead : (commaJoin (m :: ms) ++ ofString "\x7d").head?.all fun c => !isLow c := by
    cases ms <;> cases m <;> simp_all [commaJoin, ofString] <;> decide
  rw [SessionResult.stringify, hms, bytes_append hhead, bytes_append (by simp [ofString]; decide), hopen, hclose]
  omega

theorem bytes_member (name s : Text) : bytes (name ++ quote s) = bytes name + (escapedBytes s + 2) := by
  rw [bytes_append (head_quote s), bytes_quote]

theorem bytes_optional (name : Text) (field : Option Text) :
    (((field.map fun s => name ++ quote s).toList).map fun m => bytes m + 1).sum =
      field.elim 0 fun s => bytes name + 3 + escapedBytes s := by
  cases field with
  | none => rfl
  | some s =>
    simp [bytes_member]
    omega

theorem bytes_flag (name : Text) (flag : Bool) :
    ((if flag then [name] else []).map fun m => bytes m + 1).sum = if flag then bytes name + 1 else 0 := by
  cases flag <;> rfl

theorem bytes_result (r : SessionResult) : bytes r.stringify =
    fixedBytes r.summary r.summarySource r.summaryTruncated r.branch r.pullRequestUrl +
      (r.filesChanged.elim 0 fun files => 16 + bytes (arrayText files)) + if r.filesChangedTruncated then 29 else 0 := by
  have hsource : escapedBytes r.summarySource.text = r.summarySource.text.length := by
    cases r.summarySource <;> decide
  have hfiles : (((r.filesChanged.map fun x => ofString "\"filesChanged\":" ++ arrayText x).toList).map
      fun m => bytes m + 1).sum = r.filesChanged.elim 0 fun files => 16 + bytes (arrayText files) := by
    cases r.filesChanged with
    | none => rfl
    | some files =>
      have hname : bytes (ofString "\"filesChanged\":") = 15 := by decide
      simp [bytes_append (show (arrayText files).head?.all fun c => !isLow c by simp [arrayText, ofString]; decide), hname]
      omega
  have hnames : bytes (ofString "\"summary\":") = 10 ∧ bytes (ofString "\"summarySource\":") = 16 ∧
      bytes (ofString "\"summaryTruncated\":true") = 23 ∧ bytes (ofString "\"branch\":") = 9 ∧
      bytes (ofString "\"pullRequestUrl\":") = 17 ∧ bytes (ofString "\"filesChangedTruncated\":true") = 28 := by decide
  obtain ⟨h₁, h₂, h₃, h₄, h₅, h₆⟩ := hnames
  rw [bytes_stringify, fixedBytes, SessionResult.members]
  simp only [map_append, sum_append, map_cons, map_nil, sum_cons, sum_nil, bytes_member, bytes_optional, bytes_flag, hsource,
    hfiles, h₁, h₂, h₃, h₄, h₅, h₆, Nat.reduceAdd]
  omega

/-- The result without its files; the flag says so if there were any. -/
def SessionResult.withoutFiles (r : SessionResult) : SessionResult :=
  match r.filesChanged with
  | some (_ :: _) => { r with filesChanged := some [], filesChangedTruncated := true }
  | _ => r

theorem bytes_withoutFiles_le {files kept : List Text} (h : r.filesChanged = some files) (hne : files ≠ []) :
    bytes r.withoutFiles.stringify ≤
      bytes ({ r with filesChanged := some kept, filesChangedTruncated := true } : SessionResult).stringify := by
  obtain ⟨f, rest, rfl⟩ := exists_cons_of_ne_nil hne
  have hempty : r.withoutFiles = { r with filesChanged := some [], filesChangedTruncated := true } := by
    unfold SessionResult.withoutFiles
    rw [h]
  have harray : bytes (arrayText []) ≤ bytes (arrayText kept) := by
    rw [bytes_arrayText, bytes_arrayText]
    cases kept with
    | nil => rfl
    | cons s rest => simp; omega
  rw [hempty, bytes_result, bytes_result]
  simp only [Option.elim_some]
  omega

theorem trimFiles_cases (fuel : ℕ) (r : SessionResult) : trimFiles fuel r = r ∨ ∃ files kept,
    r.filesChanged = some files ∧ files ≠ [] ∧ kept <+: files ∧
      trimFiles fuel r = { r with filesChanged := some kept, filesChangedTruncated := true } := by
  induction fuel generalizing r with
  | zero => exact .inl rfl
  | succ fuel ih =>
    unfold trimFiles
    split
    · rename_i f rest hfiles
      split
      · right
        refine ⟨f :: rest, ?_⟩
        obtain h | ⟨files, kept, hsome, -, hkept, h⟩ :=
          ih { r with filesChanged := some (f :: rest).dropLast, filesChangedTruncated := true }
        · exact ⟨_, hfiles, by simp, dropLast_prefix _, h⟩
        · cases hsome
          exact ⟨kept, hfiles, by simp, hkept.trans (List.dropLast_prefix _), h⟩
      · exact .inl rfl
    · exact .inl rfl

theorem trimFiles_exit (fuel : ℕ) (r : SessionResult) (hfuel : (r.filesChanged.getD []).length ≤ fuel) :
    bytes (trimFiles fuel r).stringify ≤ MAX_SESSION_RESULT_BYTES ∨ (trimFiles fuel r).filesChanged.getD [] = [] := by
  induction fuel generalizing r with
  | zero => exact .inr (length_eq_zero_iff.mp (Nat.le_zero.mp hfuel))
  | succ fuel ih =>
    unfold trimFiles
    split
    · rename_i f rest hfiles
      split
      · refine ih _ ?_
        rw [hfiles] at hfuel
        simp at hfuel ⊢
        omega
      · rename_i hfits
        exact .inl (Nat.le_of_not_lt hfits)
    · rename_i hnone
      right
      cases hfiles : r.filesChanged with
      | none => rfl
      | some files =>
        cases files with
        | nil => rfl
        | cons f rest => exact absurd hfiles (hnone f rest)

theorem trimFiles_of_fits (h : bytes r.stringify ≤ MAX_SESSION_RESULT_BYTES) (fuel : ℕ) : trimFiles fuel r = r := by
  cases fuel with
  | zero => rfl
  | succ fuel =>
    unfold trimFiles
    split
    · rw [if_neg (Nat.not_lt.mpr h)]
    · rfl

theorem trimFiles_withoutFiles (h : r.filesChanged.getD [] = []) (fuel : ℕ) : trimFiles fuel r = r := by
  obtain h' | ⟨files, -, hsome, hne, -⟩ := trimFiles_cases fuel r
  · exact h'
  · rw [hsome] at h
    exact absurd h hne

theorem trimFiles_fits_iff {n : ℕ} (hn : (r.filesChanged.getD []).length = n) :
    bytes (trimFiles n r).stringify ≤ MAX_SESSION_RESULT_BYTES ↔
      bytes r.stringify ≤ MAX_SESSION_RESULT_BYTES ∨ bytes r.withoutFiles.stringify ≤ MAX_SESSION_RESULT_BYTES := by
  have hexit := trimFiles_exit n r hn.le
  constructor
  · intro hfits
    obtain hsame | ⟨files, kept, hfiles, hne, -, hcut⟩ := trimFiles_cases n r
    · rw [hsame] at hfits
      exact .inl hfits
    · rw [hcut] at hfits
      exact .inr ((bytes_withoutFiles_le hfiles hne).trans hfits)
  · intro hfits
    obtain hdone | hempty := hexit
    · exact hdone
    obtain hsame | ⟨files, kept, hfiles, hne, -, hcut⟩ := trimFiles_cases n r
    · rw [hsame] at hempty ⊢
      have hwithout : r.withoutFiles = r := by
        unfold SessionResult.withoutFiles
        split
        · rename_i hfiles
          rw [hfiles] at hempty
          cases hempty
        · rfl
      rw [hwithout, or_self] at hfits
      exact hfits
    · rw [hcut] at hempty ⊢
      obtain rfl : kept = [] := hempty
      obtain hfits | hfits := hfits
      · rw [← hcut, trimFiles_of_fits hfits]
        exact hfits
      · obtain ⟨f, rest, rfl⟩ := exists_cons_of_ne_nil hne
        unfold SessionResult.withoutFiles at hfits
        rw [hfiles] at hfits
        exact hfits

theorem fixedBytes_collected {c : SessionResult} (h : collectedResult protocol value = some c) :
    fixedBytes c.summary c.summarySource c.summaryTruncated c.branch c.pullRequestUrl =
      fieldsBytes protocol value.member := by
  unfold collectedResult at h
  split at h
  · split at h
    · rename_i hsource hsummary
      split at h
      · cases h
      · cases h
        simp [fieldsBytes, Json.member, hsource, hsummary]
    · cases h
  · cases h

theorem mem_listedNames {entries : List Json} {s : Text} : s ∈ listedNames entries ↔ .string s ∈ entries ∧ FileOk s := by
  have htext : ∀ entry, Json.text (some entry) = some s ↔ entry = .string s := by
    intro entry
    cases entry <;> simp [Json.text]
  simp [listedNames, FileOk, htext]

theorem listedNames_eq_nil {entries : List Json} : (listedNames entries).dedup = [] ↔ Unlistable entries := by
  simp only [eq_nil_iff_forall_not_mem, mem_dedup, mem_listedNames, Unlistable, not_and]

theorem any_oversized {entries : List Json} :
    (entries.any fun entry => (Json.text (some entry)).any (MAX_SESSION_RESULT_FILE_BYTES < bytes ·)) = true ↔
      Oversized entries := by
  rw [any_eq_true]
  constructor
  · rintro ⟨entry, hentry, hsize⟩
    cases entry with
    | string s => exact ⟨s, hentry, by simpa using hsize⟩
    | null | bool | number | array | object => cases hsize
  · rintro ⟨s, hs, hsize⟩
    exact ⟨_, hs, by simpa using hsize⟩

/-- Without a flag the loop keeps every name that may be kept, once. -/
theorem collectFiles_perm {entries : List Json} (h : ¬ (Oversized entries ∨ MAX_SESSION_RESULT_FILES < entries.length)) :
    (collectFiles [] false entries).1 ~ (listedNames entries).dedup := by
  have hall := collected_nil entries
  rw [not_or] at h
  refine (perm_ext_iff_of_nodup hall.listable.nodup (nodup_dedup _)).mpr fun s => ?_
  rw [mem_dedup, mem_listedNames]
  constructor
  · intro hs
    exact ⟨(hall.given s hs).resolve_left not_mem_nil, hall.listable.ok s hs⟩
  · rintro ⟨hs, hok⟩
    obtain hin | ⟨hsize, -⟩ | ⟨-, hmany⟩ := hall.named s hs hok.1
    · exact hin
    · exact absurd hok.2 (Nat.not_le.mpr hsize)
    · exact absurd (by simpa using hmany) h.2

theorem flag_collectFiles (entries : List Json) (truncated : Option Json) :
    ((collectFiles [] false entries).2 || decide (MAX_SESSION_RESULT_FILES < entries.length) || Json.isTrue truncated) =
      listFlagged entries truncated := by
  rw [listFlagged, Bool.eq_iff_iff]
  simp only [Bool.or_eq_true, decide_eq_true_eq, flagged_iff, any_oversized]

theorem array_fits_iff {entries : List Json} {truncated : Option Json} {room : ℕ}
    (h : (r.filesChanged, r.filesChangedTruncated) = filesOf (some (.array entries)) truncated)
    (hroom : fixedBytes r.summary r.summarySource r.summaryTruncated r.branch r.pullRequestUrl = room) :
    bytes r.stringify ≤ MAX_SESSION_RESULT_BYTES ∨ bytes r.withoutFiles.stringify ≤ MAX_SESSION_RESULT_BYTES ↔
      room + listBytes entries truncated ≤ MAX_SESSION_RESULT_BYTES := by
  rw [filesOf, Prod.mk.injEq, flag_collectFiles] at h
  obtain ⟨hfiles, hflag⟩ := h
  rw [listBytes]
  by_cases hnames : (listedNames entries).dedup = []
  · have hnone := (unlistable_iff entries).mp (listedNames_eq_nil.mp hnames)
    have hsame : r.withoutFiles = r := by
      rw [SessionResult.withoutFiles, hfiles, hnone]
      cases entries <;> simp
    rw [hsame, or_self, bytes_result, hroom, hfiles, hflag, hnone, if_pos hnames]
    cases entries <;> simp [bytes_arrayText, Nat.add_assoc]
  · have hsome : (collectFiles [] false entries).1 ≠ [] := fun hnil =>
      hnames (listedNames_eq_nil.mpr ((unlistable_iff entries).mpr hnil))
    rw [if_pos (by simp [hsome])] at hfiles
    have hperm := perm_insertionSort (· ≤ ·) (collectFiles [] false entries).1
    generalize hsorted : (collectFiles [] false entries).1.insertionSort (· ≤ ·) = files at hfiles hperm
    have hne : files ≠ [] := fun hnil => hsome (by simpa [hnil] using hperm)
    have hempty : r.withoutFiles = { r with filesChanged := some [], filesChangedTruncated := true } := by
      obtain ⟨f, rest, rfl⟩ := exists_cons_of_ne_nil hne
      rw [SessionResult.withoutFiles, hfiles]
    have hsum : 3 ≤ (files.map fun s => escapedBytes s + 3).sum := by
      obtain ⟨f, rest, rfl⟩ := exists_cons_of_ne_nil hne
      simp
      omega
    rw [hempty, bytes_result, bytes_result, hroom, hfiles, hflag, if_neg hnames]
    simp only [Option.elim_some, bytes_arrayText, hne, if_false, if_true]
    cases hflagged : listFlagged entries truncated with
    | true =>
      simp only [if_true]
      omega
    | false =>
      have hkept : (files.map fun s => escapedBytes s + 3).sum =
          ((listedNames entries).dedup.map fun s => escapedBytes s + 3).sum := by
        refine ((hperm.trans (collectFiles_perm fun hlarge => ?_)).map _).sum_nat
        rw [← flag_collectFiles, Bool.or_eq_false_iff, Bool.eq_false_iff, Ne, Bool.or_eq_true, decide_eq_true_eq,
          flagged_iff] at hflagged
        exact hflagged.1 hlarge
      simp only [hkept, Bool.false_eq_true, if_false]
      omega

/-- **A normalised result fits exactly when the fields of the input leave room** for its files or for an empty list. -/
theorem normalized_fits_iff (h : normalizeSessionResult protocol value = some r) :
    bytes r.stringify ≤ MAX_SESSION_RESULT_BYTES ↔
      fieldsBytes protocol value.member + filesBytes value.member ≤ MAX_SESSION_RESULT_BYTES := by
  obtain ⟨c, hc, rfl⟩ := Option.map_eq_some_iff.mp h
  have hfixed := fixedBytes_collected hc
  obtain ⟨member, -, rfl, -, -, -, -, hfiles⟩ := collectedResult_some hc
  rw [trimFiles_fits_iff rfl]
  cases hmember : member "filesChanged" with
  | none =>
    rw [hmember] at hfiles
    obtain ⟨hnone, hflag⟩ := Prod.mk.inj hfiles
    simp [filesBytes, hmember, hnone, hflag, SessionResult.withoutFiles, Json.member, bytes_result, hfixed]
  | some v =>
    rw [hmember] at hfiles
    cases v with
    | array entries =>
      rw [array_fits_iff hfiles hfixed]
      simp only [Json.member, filesBytes, hmember]
    | null | bool | number | string | object =>
      obtain ⟨hnone, hflag⟩ := Prod.mk.inj hfiles
      simp [filesBytes, hmember, hnone, hflag, SessionResult.withoutFiles, Json.member, bytes_result, hfixed]

/-- A parser for the runs below, which takes what starts as an HTTPS address. -/
def httpsOnly (s : Text) : Option String := if (ofString "https://").isPrefixOf s then some "https:" else none

theorem normalize_toJson (h : FieldsOk protocol r) (hflag : r.filesChangedTruncated = true → r.filesChanged.isSome)
    (hfits : trimFiles (r.filesChanged.getD []).length r = r) : normalizeSessionResult protocol r.toJson = some r := by
  have hsame : (r.filesChanged.isSome && r.filesChangedTruncated) = r.filesChangedTruncated := by
    cases hf : r.filesChangedTruncated with
    | false => rw [Bool.and_false]
    | true => rw [hflag hf, Bool.and_true]
  rw [normalizeSessionResult, collectedResult_toJson h, hsame, map_some, hfits]

def twoFiles : SessionResult where
  summary := ofString "done"
  summarySource := .agent
  filesChanged := some [ofString "a", ofString "b"]

theorem fieldsOk_twoFiles : FieldsOk httpsOnly twoFiles := by
  refine ⟨by decide, nofun, nofun, ?_⟩
  rintro files ⟨⟩
  exact ⟨⟨by decide, by unfold FileOk; decide, by decide⟩, by decide⟩

theorem normalize_twoFiles : normalizeSessionResult httpsOnly twoFiles.toJson = some twoFiles :=
  normalize_toJson fieldsOk_twoFiles nofun (by decide +kernel)

theorem normalized_fits_two_files : normalizeSessionResult httpsOnly twoFiles.toJson = some twoFiles ∧
    bytes twoFiles.stringify ≤ MAX_SESSION_RESULT_BYTES :=
  ⟨normalize_twoFiles, (normalized_fits_iff normalize_twoFiles).mpr (by decide +kernel)⟩

theorem bytes_replicate {c : CodeUnit} (h : c.val < 0x80) (n : ℕ) : bytes (replicate n c) = n := by
  induction n with
  | zero => rfl
  | succ n ih =>
    have hlow : (replicate n c).head?.all fun c => !isLow c := by
      cases n
      · rfl
      · simp only [replicate_succ, head?_cons, Option.all_some, isLow]
        simp
        omega
    have hone : bytes [c] = 1 := by
      simp [bytes, bytesFrom, unitBytes]
      omega
    rw [replicate_succ, ← singleton_append, bytes_append hlow, ih, hone, Nat.add_comm]

theorem length_escape_control (n : ℕ) (b : Bool) : (escapeFrom b (replicate n 1)).length = 6 * n := by
  induction n generalizing b with
  | zero => rfl
  | succ n ih =>
    rw [replicate_succ, escapeFrom, length_append, ih]
    have hone : ∀ lone, (escapeUnit lone 1).length = 6 := by decide
    rw [hone]
    omega

theorem length_le_escape (s : Text) (b : Bool) : s.length ≤ (escapeFrom b s).length := by
  induction s generalizing b with
  | nil => exact Nat.zero_le _
  | cons c rest ih =>
    have hone : ∀ lone, 1 ≤ (escapeUnit lone c).length := by
      intro lone
      unfold escapeUnit
      split <;> first | decide | (split <;> simp)
    have hrest := ih (isHigh c)
    rw [escapeFrom, length_append, length_cons]
    have := hone (if isHigh c then !rest.head?.any isLow else isLow c && !b)
    omega

def controlResult (n m k : ℕ) : SessionResult where
  summary := List.replicate n 1
  summarySource := .agent
  branch := some (List.replicate m 1)
  pullRequestUrl := some (ofString "https://x/" ++ List.replicate k 97)

theorem fieldsOk_controlResult {n m k : ℕ} (hn : 0 < n ∧ n ≤ MAX_SESSION_RESULT_SUMMARY_BYTES)
    (hm : 0 < m ∧ m ≤ MAX_SESSION_RESULT_BRANCH_BYTES) (hk : 10 + k ≤ MAX_SESSION_RESULT_URL_BYTES) :
    FieldsOk httpsOnly (controlResult n m k) := by
  have hfilled : ∀ j : ℕ, 0 < j → replicate j (1 : CodeUnit) ≠ [] := by
    intro j hj
    simpa using hj.ne'
  refine ⟨⟨hfilled n hn.1, (bytes_replicate (by decide) n).trans_le hn.2⟩, ?_, ?_, nofun⟩
  · rintro s ⟨⟩
    exact ⟨hfilled m hm.1, (bytes_replicate (by decide) m).trans_le hm.2⟩
  · rintro s ⟨⟩
    refine ⟨?_, by simp [validHttpUrl, httpsOnly, ofString]⟩
    calc bytes (ofString "https://x/" ++ List.replicate k 97)
        ≤ bytes (ofString "https://x/") + bytes (List.replicate k 97) := bytes_append_le
      _ = 10 + k := by rw [bytes_replicate (by decide)]; rfl
      _ ≤ MAX_SESSION_RESULT_URL_BYTES := hk

theorem bytes_controlResult (n m k : ℕ) : 6 * n + 6 * m + k + 10 < bytes (controlResult n m k).stringify := by
  have hurl := length_le_escape (ofString "https://x/" ++ List.replicate k 97) false
  have hstart : (ofString "https://x/").length = 10 := by decide
  have hopen : (ofString "\x7b").length = 1 := by decide
  refine lt_of_lt_of_le ?_ length_le_bytes
  rw [controlResult]
  simp only [SessionResult.stringify, SessionResult.members, quote, commaJoin, length_append,
    length_escape_control, map_some, toList_some, Option.map_none, Option.toList_none, cons_append,
    nil_append, append_nil, Bool.false_eq_true, if_false]
  rw [length_append, length_replicate] at hurl
  omega

/-- Fields that keep their own caps fill the budget before any file: six bytes stand for each control character. -/
theorem normalized_exceeds_budget : ∃ value r, normalizeSessionResult httpsOnly value = some r ∧
    MAX_SESSION_RESULT_BYTES < bytes r.stringify :=
  ⟨(controlResult 4096 1024 2038).toJson, controlResult 4096 1024 2038,
    normalize_toJson (fieldsOk_controlResult (by decide) (by decide) (by decide)) nofun rfl,
    lt_of_le_of_lt (by decide) (bytes_controlResult 4096 1024 2038)⟩

end Budget

/-! ## Canonical results -/

section Canonical

variable {c : SessionResult}

/-- The list holds no name that can be listed, but something else sets its flag. -/
def FlagWithoutFiles : Json → Prop
  | .object member => ∃ entries, member "filesChanged" = some (.array entries) ∧ entries ≠ [] ∧ Unlistable entries ∧
      (Oversized entries ∨ MAX_SESSION_RESULT_FILES < entries.length ∨
        Json.isTrue (member "filesChangedTruncated") = true)
  | _ => False

theorem flagWithoutFiles_iff (h : collectedResult protocol value = some c) :
    FlagWithoutFiles value ↔ c.filesChanged = none ∧ c.filesChangedTruncated = true := by
  obtain ⟨member, -, rfl, -, -, -, -, hfiles⟩ := collectedResult_some h
  cases hentries : member "filesChanged" with
  | none => simp_all [FlagWithoutFiles, filesOf]
  | some v =>
    cases v with
    | array entries =>
      rw [hentries, filesOf, Prod.mk.injEq] at hfiles
      obtain ⟨hfiles, hflag⟩ := hfiles
      have hnone : c.filesChanged = none ↔ entries ≠ [] ∧ Unlistable entries := by
        rw [hfiles, unlistable_iff]
        cases entries <;> simp
      have hbody : FlagWithoutFiles (.object member) ↔ entries ≠ [] ∧ Unlistable entries ∧ (Oversized entries ∨
          MAX_SESSION_RESULT_FILES < entries.length ∨ Json.isTrue (member "filesChangedTruncated") = true) := by
        simp [FlagWithoutFiles, hentries]
      rw [hbody, hnone, hflag, and_assoc]
      refine and_congr_right fun _ => and_congr_right fun _ => ?_
      simp only [Bool.or_eq_true, decide_eq_true_eq, ← or_assoc, flagged_iff]
    | null | bool | number | string | object => simp_all [FlagWithoutFiles, filesOf]

/-- The names given in `filesChanged`. -/
def Names (value : Json) (s : Text) : Prop :=
  ∃ member entries, value = .object member ∧ member "filesChanged" = some (.array entries) ∧ .string s ∈ entries

section

variable (h : normalizeSessionResult protocol value = some r)
include h

theorem flag_of_missing {s : Text} (hs : Names value s) (hne : s ≠ [])
    (hmissing : s ∉ r.filesChanged.getD []) : r.filesChangedTruncated = true := by
  obtain ⟨c, hc, rfl⟩ := map_eq_some_iff.mp h
  obtain hsame | ⟨files, kept, -, -, -, hcut⟩ := trimFiles_cases (c.filesChanged.getD []).length c
  · rw [hsame] at hmissing ⊢
    obtain ⟨member, -, rfl, -, -, -, -, hfiles⟩ := collectedResult_some hc
    obtain ⟨member', entries, hmember, hentries, hin⟩ := hs
    cases hmember
    rw [hentries, filesOf, Prod.mk.injEq] at hfiles
    obtain ⟨hfiles, hflag⟩ := hfiles
    rw [hflag]
    obtain hlisted | ⟨-, hover⟩ | ⟨-, hmany⟩ := (collected_nil entries).named s hin hne
    · have hsome : (collectFiles [] false entries).1 ≠ [] := ne_nil_of_mem hlisted
      rw [hfiles] at hmissing
      simp [hsome, mem_insertionSort, hlisted] at hmissing
    · simp [hover]
    · have hmany : MAX_SESSION_RESULT_FILES < entries.length := by simpa using hmany
      simp [hmany]
  · rw [hcut]

theorem trimFiles_idem : trimFiles (r.filesChanged.getD []).length r = r := by
  obtain ⟨c, -, rfl⟩ := map_eq_some_iff.mp h
  obtain hfits | hempty := trimFiles_exit (c.filesChanged.getD []).length c le_rfl
  · exact trimFiles_of_fits hfits _
  · exact trimFiles_withoutFiles hempty _

theorem fieldsOk_normalized : FieldsOk protocol r := by
  obtain ⟨c, hc, rfl⟩ := map_eq_some_iff.mp h
  have hok := fieldsOk_collected hc
  obtain hsame | ⟨files, kept, hfiles, -, hkept, hcut⟩ := trimFiles_cases (c.filesChanged.getD []).length c
  · rwa [hsame]
  · obtain ⟨hlist, hsorted⟩ := hok.files files hfiles
    rw [hcut]
    refine ⟨hok.summary, hok.branch, hok.url, ?_⟩
    rintro _ ⟨⟩
    exact ⟨⟨hlist.nodup.sublist hkept.sublist, fun s hs => hlist.ok s (hkept.subset hs),
      hkept.length_le.trans hlist.few⟩, hsorted.sublist hkept.sublist⟩

theorem flag_without_files : FlagWithoutFiles value ↔ r.filesChanged = none ∧ r.filesChangedTruncated = true := by
  obtain ⟨c, hc, rfl⟩ := map_eq_some_iff.mp h
  rw [flagWithoutFiles_iff hc]
  obtain hsame | ⟨files, kept, hfiles, -, -, hcut⟩ := trimFiles_cases (c.filesChanged.getD []).length c
  · rw [hsame]
  · rw [hcut, hfiles]
    simp

end

/-- A result comes out valid, normalised and flagged for what it misses, exactly if its flag does not stand without a list. -/
theorem normalized_canonical_iff (h : normalizeSessionResult protocol value = some r) :
    (isSessionResult protocol r.toJson = true ∧ normalizeSessionResult protocol r.toJson = some r ∧
      ∀ s, Names value s → s ≠ [] → s ∉ r.filesChanged.getD [] → r.filesChangedTruncated = true) ↔
      ¬ FlagWithoutFiles value := by
  have hok := fieldsOk_normalized h
  rw [flag_without_files h]
  constructor
  · rintro ⟨-, hagain, -⟩ ⟨hnone, hflag⟩
    -- the second normalisation reads no list, hence no flag
    obtain ⟨c, hc, hr⟩ := Option.map_eq_some_iff.mp hagain
    rw [collectedResult_toJson hok] at hc
    cases hc
    rw [← hr, hnone] at hflag
    cases hflag
  · intro hflag
    refine ⟨isSessionResult_toJson hok, normalize_toJson hok (fun ht => ?_) (trimFiles_idem h),
      fun s => flag_of_missing h⟩
    cases hfiles : r.filesChanged with
    | none => exact absurd ⟨hfiles, ht⟩ hflag
    | some files => rfl

theorem normalized_canonical_two_files : normalizeSessionResult httpsOnly twoFiles.toJson = some twoFiles ∧
    isSessionResult httpsOnly twoFiles.toJson = true := by
  have hflag : ¬ FlagWithoutFiles twoFiles.toJson := by
    rw [flag_without_files normalize_twoFiles]
    exact nofun
  exact ⟨normalize_twoFiles, ((normalized_canonical_iff normalize_twoFiles).mpr hflag).1⟩

def onlyName (name : Text) : Json :=
  .object fun
    | "summary" => some (.string (ofString "done"))
    | "summarySource" => some (.string (ofString "agent"))
    | "filesChanged" => some (.array [.string name])
    | _ => none

theorem normalize_onlyName {name : Text} (h : MAX_SESSION_RESULT_FILE_BYTES < bytes name) :
    normalizeSessionResult httpsOnly (onlyName name) =
      some { summary := ofString "done", summarySource := .agent, filesChangedTruncated := true } := by
  have hne : name ≠ [] := by
    rintro rfl
    exact absurd h (by decide)
  have hcollect : collectFiles [] false [.string name] = ([], true) := by
    rw [collectFiles, if_neg hne, if_pos h, collectFiles]
  have hfiles : filesOf (some (.array [.string name])) none = (none, true) := by
    rw [filesOf, hcollect]
    rfl
  change (match filesOf (some (.array [.string name])) none with
    | files => some (trimFiles (files.1.getD []).length
        { summary := ofString "done", summarySource := .agent, filesChanged := files.1, filesChangedTruncated := files.2 })) = _
  rw [hfiles]
  rfl

/-- The only name given is too long: the flag stands without a list, and the next normalisation loses it. -/
theorem normalized_again_loses_flag : ∃ value r, normalizeSessionResult httpsOnly value = some r ∧
    r.filesChangedTruncated = true ∧
    normalizeSessionResult httpsOnly r.toJson = some { r with filesChangedTruncated := false } := by
  have hlong : MAX_SESSION_RESULT_FILE_BYTES < bytes (replicate 4097 97) := by
    rw [bytes_replicate (by decide)]
    decide
  exact ⟨onlyName (replicate 4097 97), _, normalize_onlyName hlong, rfl, rfl⟩

end Canonical

end AutoHarness.Shared
