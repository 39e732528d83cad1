import Mathlib.Data.List.Infix
import Mathlib.Data.List.Sublists
import Mathlib.Logic.Function.Basic
import AutoHarness.Foundation.Utf16

/-! The reader that captures the resume reference of a command from its output, chunk by chunk, and redacts the lines
that carry it. A line that a chunk leaves unfinished is held back until it ends or grows too long. -/

namespace AutoHarness.ResumeRef
open Foundation.Utf16 Function List

inductive Stream where
  | stdout | stderr
deriving DecidableEq

def isControl (c : CodeUnit) : Bool := c.val ≤ 0x1F || c.val == 0x7F

/-- A capture policy as it was validated; without a stream it takes either. -/
structure ResumeRefCapture where
  stream : Option Stream
  linePrefix : Text
  nonempty : linePrefix ≠ []
  short : linePrefix.length ≤ 128
  clean : linePrefix.any isControl = false

def MAX_PENDING_LINE_BYTES : ℕ := 4 * 1024

def REDACTED_LINE : Text := ofString "[CLI resume reference redacted]"

def MAX_CLI_RESUME_REF_BYTES : ℕ := 512

def CR : CodeUnit := 13

def LF : CodeUnit := 10

def isBreak (c : CodeUnit) : Bool := c == CR || c == LF

def isValidCliResumeRef (value : Text) : Bool :=
  value ≠ [] && bytes value ≤ MAX_CLI_RESUME_REF_BYTES && !value.any isControl

def isSpace (c : CodeUnit) : Bool :=
  [0x09, 0x0A, 0x0B, 0x0C, 0x0D, 0x20, 0xA0, 0x1680, 0x2028, 0x2029, 0x202F, 0x205F, 0x3000, 0xFEFF].contains c.val ||
    (0x2000 ≤ c.val && c.val ≤ 0x200A)

def trim (s : Text) : Text := ((s.dropWhile isSpace).reverse.dropWhile isSpace).reverse

def acceptsStream (p : ResumeRefCapture) (stream : Stream) : Bool := p.stream.all (· == stream)

structure Reader where
  pending : Stream → Text := fun _ => []
  pendingOrder : Stream → ℕ := fun _ => 0
  trailing : List (Stream × Text) := []
  captured : Option Text := none
  capturedOrder : ℕ := 0
  order : ℕ := 0

def starts (p : ResumeRefCapture) (line : Text) : Bool := p.linePrefix.isPrefixOf line

def captureLine (p : ResumeRefCapture) (r : Reader) (line : Text) (order : ℕ) : Bool × Reader :=
  if starts p line then
    let value := trim (line.drop p.linePrefix.length)
    (true, if isValidCliResumeRef value && r.capturedOrder ≤ order then
      { r with captured := some value, capturedOrder := order } else r)
  else (false, r)

/-- The pieces between CR, LF and CRLF; `cur` is the piece read so far, and `afterCR` says that a CR ended the last one. -/
def splitLines (afterCR : Bool) (cur : Text) : Text → List Text
  | [] => [cur]
  | c :: rest =>
    if afterCR && c == LF then splitLines false cur rest
    else if isBreak c then cur :: splitLines (c == CR) [] rest
    else splitLines false (cur ++ [c]) rest

def captureLines (p : ResumeRefCapture) (order : ℕ) (r : Reader) : List Text → Reader × Text
  | [] => (r, [])
  | line :: rest =>
    let (redacted, r) := captureLine p r line order
    let (r, output) := captureLines p order r rest
    (r, (if redacted then REDACTED_LINE else line) ++ LF :: output)

def push (p : ResumeRefCapture) (r : Reader) (stream : Stream) (content : Text) : Reader × Text :=
  if !acceptsStream p stream then (r, content)
  else
    let order := r.order + 1
    let lines := splitLines false [] (r.pending stream ++ content)
    let pending := lines.getLastD []
    let (r, output) := captureLines p order
      { r with
        order := order, pendingOrder := Function.update r.pendingOrder stream order
        pending := Function.update r.pending stream pending } lines.dropLast
    if MAX_PENDING_LINE_BYTES < bytes pending then
      ({ r with pending := Function.update r.pending stream [] }, output ++ pending)
    else (r, output)

def finishStream (p : ResumeRefCapture) (r : Reader) (stream : Stream) : Reader :=
  if !acceptsStream p stream || (r.pending stream).isEmpty then r
  else
    let (redacted, r') := captureLine p r (r.pending stream) (r.pendingOrder stream)
    { r' with
      trailing := r'.trailing ++ [(stream, if redacted then REDACTED_LINE else r.pending stream)]
      pending := Function.update r'.pending stream [] }

def finish (p : ResumeRefCapture) (r : Reader) : Reader :=
  (if r.pendingOrder .stderr < r.pendingOrder .stdout then [.stderr, .stdout] else [.stdout, .stderr]).foldl (finishStream p) r

def pushAll (p : ResumeRefCapture) (stream : Stream) : Reader → List Text → Reader × Text
  | r, [] => (r, [])
  | r, chunk :: rest =>
    let (r, output) := push p r stream chunk
    let (r, more) := pushAll p stream r rest
    (r, output ++ more)

/-- The captured reference, and the pushed output with the trailing output. -/
def outcome (p : ResumeRefCapture) (stream : Stream) (chunks : List Text) : Option Text × Text :=
  let (r, output) := pushAll p stream {} chunks
  let r := finish p r
  (r.captured, output ++ (r.trailing.map Prod.snd).flatten)

/-! ## One stream -/

section OneStream

variable (p : ResumeRefCapture)

def shown (line : Text) : Text := if starts p line then REDACTED_LINE else line

def reference (line : Text) : Option Text :=
  if starts p line then (some (trim (line.drop p.linePrefix.length))).filter isValidCliResumeRef else none

def emitted (lines : List Text) : Text := lines.flatMap fun line => shown p line ++ [LF]

def refs (cap : Option Text) (lines : List Text) : Option Text := lines.foldl (fun cap line => (reference p line).or cap) cap

/-- The last reference that the lines of a text hold. -/
def latest (t : Text) : Option Text := refs p none (splitLines false [] t)

/-- The pending line and the captured reference. -/
abbrev State := Text × Option Text

abbrev Long (s : Text) : Prop := MAX_PENDING_LINE_BYTES < bytes s

/-- A pending line that is too long goes out as it is. -/
def flushed (s : Text × State) : Text × State := if Long s.2.1 then (s.1 ++ s.2.1, [], s.2.2) else s

/-- One chunk, without the bookkeeping of the order. -/
def pushed (s : State) (c : Text) : Text × State :=
  let lines := splitLines false [] (s.1 ++ c)
  flushed (emitted p lines.dropLast, lines.getLastD [], refs p s.2 lines.dropLast)

def runFrom : State → List Text → Text × State
  | s, [] => ([], s)
  | s, c :: cs =>
    let t := runFrom (pushed p s c).2 cs
    ((pushed p s c).1 ++ t.1, t.2)

def closed (s : Text × State) : Option Text × Text := ((reference p s.2.1).or s.2.2, s.1 ++ shown p s.2.1)

/-- The reader after pushes on one stream only. -/
structure Only (stream : Stream) (s : State) (r : Reader) : Prop where
  pending : r.pending = Function.update (fun _ => []) stream s.1
  trailing : r.trailing = []
  captured : r.captured = s.2
  order : r.capturedOrder ≤ r.order
  latest : r.pendingOrder stream = r.order

variable {p} {r : Reader} {stream : Stream} {s : State} {order : ℕ}

@[simp] theorem shown_nil : shown p [] = [] := if_neg (by simp [starts, p.nonempty])

@[simp] theorem reference_nil : reference p [] = none := if_neg (by simp [starts, p.nonempty])

theorem reference_of_not {line : Text} (h : starts p line = false) : reference p line = none := if_neg (by simp [h])

theorem captureLine_spec (line : Text) (h : r.capturedOrder ≤ order) : ∃ k ≤ order,
    captureLine p r line order = (starts p line, { r with captured := (reference p line).or r.captured, capturedOrder := k }) := by
  unfold captureLine reference
  cases hs : starts p line with
  | false => exact ⟨_, h, by simp⟩
  | true =>
    cases hv : isValidCliResumeRef (trim (line.drop p.linePrefix.length)) with
    | false => exact ⟨_, h, by simp [hv, Option.filter]⟩
    | true => exact ⟨order, le_rfl, by simp [hv, h, Option.filter]⟩

theorem captureLines_spec (h : r.capturedOrder ≤ order) (lines : List Text) : ∃ k ≤ order,
    captureLines p order r lines =
      ({ r with captured := refs p r.captured lines, capturedOrder := k }, emitted p lines) := by
  induction lines generalizing r with
  | nil => exact ⟨_, h, rfl⟩
  | cons line rest ih =>
    obtain ⟨k, hk, hline⟩ := captureLine_spec (p := p) line h
    obtain ⟨k', hk', hrest⟩ := ih (r := { r with captured := (reference p line).or r.captured, capturedOrder := k }) hk
    refine ⟨k', hk', ?_⟩
    simp only [captureLines, hline, hrest]
    simp [refs, emitted, shown]

variable (hs : acceptsStream p stream = true)
include hs

theorem push_spec (c : Text) (h : Only stream s r) :
    (push p r stream c).2 = (pushed p s c).1 ∧ Only stream (pushed p s c).2 (push p r stream c).1 := by
  have hq : r.pending stream = s.1 := by rw [h.pending, update_self]
  unfold push pushed flushed
  simp only [hs, hq, Bool.not_true, Bool.false_eq_true, if_false]
  generalize splitLines false [] (s.1 ++ c) = lines
  obtain ⟨k, hk, hlines⟩ := captureLines_spec (p := p) (r := { r with
    order := r.order + 1, pendingOrder := update r.pendingOrder stream (r.order + 1)
    pending := update r.pending stream (lines.getLastD []) }) (h.order.trans (Nat.le_succ _)) lines.dropLast
  rw [hlines, h.captured]
  split
  all_goals exact ⟨rfl, by simp [h.pending], h.trailing, rfl, hk, by simp⟩

theorem pushAll_spec (chunks : List Text) (h : Only stream s r) :
    (pushAll p stream r chunks).2 = (runFrom p s chunks).1 ∧
      Only stream (runFrom p s chunks).2 (pushAll p stream r chunks).1 := by
  induction chunks generalizing r s with
  | nil => exact ⟨rfl, h⟩
  | cons c cs ih =>
    obtain ⟨hout, honly⟩ := push_spec hs c h
    obtain ⟨hmore, hend⟩ := ih honly
    exact ⟨by simp only [pushAll, runFrom, hout, hmore], hend⟩

theorem outcome_eq (chunks : List Text) : outcome p stream chunks = closed p (runFrom p ([], none) chunks) := by
  have hnew : Only stream ([], none) {} := ⟨by simp, rfl, rfl, le_rfl, rfl⟩
  obtain ⟨hout, honly⟩ := pushAll_spec hs chunks hnew
  simp only [outcome, hout, closed]
  generalize (pushAll p stream {} chunks).1 = r at honly
  generalize runFrom p ([], none) chunks = s at honly
  have hline := captureLine_spec (p := p) (r.pending stream) (honly.order.trans honly.latest.ge)
  -- the other stream has nothing pending, before and after
  have hother : ∀ r' t, r'.pending t = [] → finishStream p r' t = r' := fun r' t hp => by simp [finishStream, hp]
  have hne : ∀ t, t ≠ stream → r.pending t = [] := fun t ht => by rw [honly.pending, update_of_ne ht]
  have hne' : ∀ t, t ≠ stream → (finishStream p r stream).pending t = [] := by
    intro t ht
    unfold finishStream
    split
    · exact hne t ht
    · obtain ⟨k, -, hline⟩ := hline
      simp [hline, update_of_ne ht, hne t ht]
  have hfinish : finish p r = finishStream p r stream := by
    unfold finish
    cases stream with
    | stdout => split <;> simp [hother _ .stderr (hne .stderr (by decide)), hother _ .stderr (hne' .stderr (by decide))]
    | stderr => split <;> simp [hother _ .stdout (hne .stdout (by decide)), hother _ .stdout (hne' .stdout (by decide))]
  have hq : r.pending stream = s.2.1 := by rw [honly.pending, update_self]
  rw [hfinish]
  by_cases hnil : s.2.1 = []
  · simp [finishStream, hq, hnil, honly.captured, honly.trailing]
  · obtain ⟨k, -, hline⟩ := hline
    rw [hq] at hline
    simp [finishStream, hs, hq, hnil, hline, honly.captured, honly.trailing, shown]

end OneStream

/-! ## Texts without CRLF -/

def plain (s : Text) : Bool := s.all fun c => !isBreak c

/-- Empty, or a line break comes last. -/
def ended (s : Text) : Bool := s.getLast?.all isBreak

abbrev NoCRLF (s : Text) : Prop := ¬ [CR, LF] <:+: s

section Walk

variable (p : ResumeRefCapture)

/-- Line after line, as long as no chunk ends. -/
def walk : State → Text → Text × State
  | s, [] => ([], s)
  | s, c :: rest =>
    if isBreak c then
      let t := walk ([], (reference p s.1).or s.2) rest
      (shown p s.1 ++ LF :: t.1, t.2)
    else walk (s.1 ++ [c], s.2) rest

def whole (s : State) (t : Text) : Option Text × Text := closed p (flushed (walk p s t))

def joined (out : Text) (r : Option Text × Text) : Option Text × Text := (r.1, out ++ r.2)

/-- The reference that finished lines leave. -/
def met (u : Text) : Option Text := (walk p ([], none) u).2.2

variable {p} {s : State} {cur t u w : Text} {c : CodeUnit} {f : Bool}

theorem splitLines_ne_nil (f : Bool) (cur t : Text) : splitLines f cur t ≠ [] := by
  fun_induction splitLines f cur t <;> simp_all

theorem splitLines_plain (h : plain w = true) (t : Text) : splitLines false cur (w ++ t) = splitLines false (cur ++ w) t := by
  induction w generalizing cur with
  | nil => simp
  | cons c rest ih =>
    simp only [plain, all_cons, Bool.and_eq_true, Bool.not_eq_true'] at h
    rw [cons_append, splitLines, if_neg (by simp), if_neg (by simp [h.1]), ih h.2, append_assoc, singleton_append]

/-- What follows a line break is read as a new line, also when the break is the LF of a CRLF. -/
theorem splitLines_break (hc : isBreak c = true) (f : Bool) (cur t : Text) (hf : f = true → cur = []) :
    ∃ ls, ∀ w, splitLines f cur (t ++ c :: w) = ls ++ splitLines (c == CR) [] w := by
  induction t generalizing f cur with
  | nil =>
    by_cases hskip : (f && c == LF) = true
    · obtain ⟨hft, hlf⟩ := Bool.and_eq_true_iff.mp hskip
      have hcr : (c == CR) = false := by
        rw [beq_iff_eq.mp hlf]
        decide
      exact ⟨[], fun w => by simp [splitLines, hskip, hf hft, hcr]⟩
    · exact ⟨[cur], fun w => by simp [splitLines, hskip, hc]⟩
  | cons d rest ih =>
    by_cases hskip : (f && d == LF) = true
    · obtain ⟨ls, hls⟩ := ih false cur nofun
      exact ⟨ls, fun w => by simp [splitLines, hskip, hls]⟩
    · by_cases hd : isBreak d = true
      · obtain ⟨ls, hls⟩ := ih (d == CR) [] fun _ => rfl
        exact ⟨cur :: ls, fun w => by simp [splitLines, hskip, hd, hls]⟩
      · obtain ⟨ls, hls⟩ := ih false (cur ++ [d]) nofun
        exact ⟨ls, fun w => by simp [splitLines, hskip, hd, hls]⟩

theorem split_walk (h : NoCRLF t) (hf : f = true → t.head? ≠ some LF) :
    (emitted p (splitLines f s.1 t).dropLast, (splitLines f s.1 t).getLastD [], refs p s.2 (splitLines f s.1 t).dropLast) =
      walk p s t := by
  induction t generalizing f s with
  | nil => rfl
  | cons c rest ih =>
    have hrest : NoCRLF rest := fun hin => h (hin.trans (suffix_cons c rest).isInfix)
    have hfirst : ¬ (f && c == LF) = true := by
      simp only [Bool.and_eq_true, beq_iff_eq, not_and]
      rintro hft rfl
      exact hf hft rfl
    have hnext : (c == CR) = true → rest.head? ≠ some LF := by
      intro hc hhead
      obtain ⟨rest', rfl⟩ := head?_eq_some_iff.mp hhead
      rw [beq_iff_eq] at hc
      exact h (hc ▸ (prefix_append [CR, LF] rest').isInfix)
    rw [splitLines, if_neg hfirst, walk]
    by_cases hc : isBreak c = true
    · obtain ⟨l, ls, hls⟩ := exists_cons_of_ne_nil (splitLines_ne_nil (c == CR) [] rest)
      rw [if_pos hc, ← ih hrest hnext, if_pos hc, hls]
      simp [emitted, refs]
    · rw [if_neg hc, if_neg hc, ← ih (f := false) hrest nofun]

theorem pushed_eq (hq : plain s.1 = true) (h : NoCRLF t) : pushed p s t = flushed (walk p s t) := by
  rw [← split_walk (f := false) h nofun, pushed, splitLines_plain hq, nil_append]

theorem walk_append (s : State) (u v : Text) : walk p s (u ++ v) =
    ((walk p s u).1 ++ (walk p (walk p s u).2 v).1, (walk p (walk p s u).2 v).2) := by
  induction u generalizing s with
  | nil => rfl
  | cons c rest ih =>
    simp only [cons_append, walk]
    split
    · rw [ih]
      simp
    · exact ih ..

theorem walk_plain (h : plain w = true) : walk p s w = ([], s.1 ++ w, s.2) := by
  induction w generalizing s with
  | nil => simp [walk]
  | cons c rest ih =>
    simp only [plain, all_cons, Bool.and_eq_true, Bool.not_eq_true'] at h
    rw [walk, if_neg (by simp [h.1]), ih h.2, append_assoc, singleton_append]

/-- The captured reference is the last one met, or the one there was. -/
theorem walk_captured : walk p s t =
    ((walk p (s.1, none) t).1, (walk p (s.1, none) t).2.1, (walk p (s.1, none) t).2.2.or s.2) := by
  induction t generalizing s with
  | nil => rfl
  | cons c rest ih =>
    simp only [walk]
    split
    · rw [ih, ih (s := ([], (reference p s.1).or none))]
      simp [Option.or_assoc]
    · exact ih

theorem walk_ended (h : ended u = true) :
    (walk p ([], none) u).2 = ([], met p u) ∧ ((walk p ([], none) u).1 = [] ∨ ∃ out, (walk p ([], none) u).1 = out ++ [LF]) := by
  rcases eq_nil_or_concat u with rfl | ⟨u', c, rfl⟩
  · exact ⟨rfl, .inl rfl⟩
  · have hc : isBreak c = true := by simpa [ended] using h
    rw [concat_eq_append, met, walk_append]
    simp only [walk, hc, if_true]
    exact ⟨trivial, .inr ⟨_, (append_assoc ..).symm⟩⟩

theorem latest_eq (h : NoCRLF t) :
    latest p t = (reference p (walk p ([], none) t).2.1).or (walk p ([], none) t).2.2 := by
  obtain ⟨m, w, hlines⟩ := (eq_nil_or_concat (splitLines false [] t)).resolve_left (splitLines_ne_nil false [] t)
  rw [← split_walk (s := ([], none)) (f := false) h nofun, latest, hlines]
  simp [refs]

theorem latest_ended (hu : ended u = true) (h : NoCRLF u) : latest p u = met p u := by
  rw [latest_eq h, (walk_ended hu).1, reference_nil, Option.none_or]

theorem latest_break (hc : isBreak c = true) (h : NoCRLF (c :: t)) : latest p (c :: t) = latest p t := by
  have ht : NoCRLF t := fun hin => h (hin.trans (suffix_cons c t).isInfix)
  rw [latest_eq h, latest_eq ht]
  simp [walk, hc]

theorem whole_append (s : State) (u v : Text) : whole p s (u ++ v) = joined (walk p s u).1 (whole p (walk p s u).2 v) := by
  rw [whole, walk_append]
  unfold whole flushed
  split <;> simp [closed, joined]

theorem whole_captured : whole p s t = ((whole p (s.1, none) t).1.or s.2, (whole p (s.1, none) t).2) := by
  unfold whole
  rw [walk_captured]
  unfold flushed
  split <;> simp [closed, Option.or_assoc]

theorem whole_line (hw : plain w = true) (v : Text) : whole p s (w ++ v) = whole p (s.1 ++ w, s.2) v := by
  rw [whole_append, walk_plain hw]
  rfl

theorem whole_break (hc : isBreak c = true) : whole p s (c :: t) =
    ((whole p ([], none) t).1.or ((reference p s.1).or s.2), shown p s.1 ++ LF :: (whole p ([], none) t).2) := by
  rw [← singleton_append, whole_append]
  simp only [walk, hc, if_true]
  rw [whole_captured]
  simp [joined]

/-- The whole text gives the reference of its last line that has one, if a long last line has none. -/
theorem captured_whole (h : NoCRLF t)
    (hlast : Long (walk p ([], none) t).2.1 → starts p (walk p ([], none) t).2.1 = false) :
    (whole p ([], none) t).1 = latest p t := by
  rw [latest_eq h, whole]
  unfold flushed
  split
  · rename_i hlong
    simp [closed, reference_of_not (hlast hlong)]
  · rfl

theorem whole_nil : whole p s [] = if Long s.1 then (s.2, s.1) else ((reference p s.1).or s.2, shown p s.1) := by
  by_cases h : Long s.1 <;> simp [whole, walk, flushed, closed, h]

end Walk

/-! ## Chunks -/

section Chunks

/-- No CRLF; and a line longer than the reader holds back does not start with the prefix. Where a later part of it does,
and is read as a line of its own, it is the redacted line itself, and its reference, if it is one, is the last one
before it or has one after it. -/
def Steady (p : ResumeRefCapture) (text : Text) : Prop :=
  NoCRLF text ∧ ∀ u a b v, text = u ++ (a ++ (b ++ v)) → ended u = true → plain (a ++ b) = true →
    v.head?.all isBreak = true → Long a → starts p (a ++ b) = false ∧
      (starts p b = true → v ≠ [] ∨ ¬ Long b → b = REDACTED_LINE ∧
        ∀ x, reference p b = some x → latest p v ≠ none ∨ latest p u = some x)

def Redacted (p : ResumeRefCapture) (out : Text) : Prop :=
  ∀ line ∈ splitLines false [] out, starts p line = true → line = REDACTED_LINE

/-- The reader within a text: of the line that `rest` goes on with, `a` is out already and `q` is pending. -/
def Within (text a q rest : Text) : Prop :=
  ∃ u, text = u ++ (a ++ (q ++ rest)) ∧ ended u = true ∧ plain (a ++ q) = true ∧ (a = [] ∨ Long a)

variable {p : ResumeRefCapture} {stream : Stream} {text a b c q rest u v w : Text} {s : State} {cap : Option Text}

theorem plain_append : plain (a ++ b) = true ↔ plain a = true ∧ plain b = true := by
  rw [plain, all_append, Bool.and_eq_true]
  rfl

theorem shown_of_not (h : starts p w = false) : shown p w = w := if_neg (by simp [h])

theorem redacted_short (h : w = REDACTED_LINE) : ¬ Long w := h ▸ by decide +kernel

theorem shown_redacted : shown p REDACTED_LINE = REDACTED_LINE := ite_self _

theorem or_of_same {w r d cap : Option Text} (h : w.or (r.or d) = w.or cap) : w.or (r.or cap) = w.or cap := by
  cases w <;> cases r <;> simp_all

theorem exists_line (t : Text) : ∃ b v, t = b ++ v ∧ plain b = true ∧ v.head?.all isBreak = true := by
  refine ⟨t.takeWhile fun c => !isBreak c, t.dropWhile fun c => !isBreak c, takeWhile_append_dropWhile.symm,
    all_takeWhile, ?_⟩
  cases h : t.dropWhile fun c => !isBreak c with
  | nil => rfl
  | cons c rest =>
    have hc := head?_dropWhile_not (fun c => !isBreak c) t
    rw [h] at hc
    simpa using hc

theorem Within.walk (h : Within text a s.1 (c ++ rest)) :
    ∃ a', (a' = [] ∨ a' = a) ∧ Within text a' (walk p s c).2.1 rest := by
  induction c generalizing a s with
  | nil => exact ⟨a, .inr rfl, h⟩
  | cons x c ih =>
    obtain ⟨u, htext, hu, hplain, ha⟩ := h
    unfold ResumeRef.walk
    split
    · rename_i hx
      obtain ⟨a', ha', hin⟩ := ih (s := ([], (reference p s.1).or s.2)) (a := [])
        ⟨u ++ (a ++ (s.1 ++ [x])), by simp [htext], by simp [ended, hx], rfl, .inl rfl⟩
      exact ⟨a', .inl (ha'.elim id id), hin⟩
    · rename_i hx
      refine ih ⟨u, by simp [htext], hu, ?_, ha⟩
      simp only [plain_append] at hplain ⊢
      exact ⟨hplain.1, hplain.2, by simpa [plain] using hx⟩

theorem long_append (ha : a = [] ∨ Long a) (hq : Long q) : Long (a ++ q) := by
  rcases ha with rfl | ha
  · exact hq
  · exact ha.trans_le bytes_le_append

theorem Within.flush (h : Within text a q rest) (hlong : Long q) : Within text (a ++ q) [] rest := by
  obtain ⟨u, htext, hu, hplain, ha⟩ := h
  exact ⟨u, by simp [htext], hu, by rwa [append_nil], .inr (long_append ha hlong)⟩

theorem plain_flushed (c : Text) : plain (flushed (walk p ([], cap) c)).2.1 = true := by
  have hin : Within (c ++ []) [] [] (c ++ []) := ⟨[], rfl, rfl, rfl, .inl rfl⟩
  obtain ⟨a, -, _, _, _, h, _⟩ := Within.walk (p := p) (s := ([], cap)) hin
  unfold flushed
  split
  · rfl
  · exact (plain_append.mp h).2

theorem plain_shown (h : plain w = true) : plain (shown p w) = true := by
  unfold shown
  split
  · decide +kernel
  · exact h

theorem shown_ok (h : starts p (shown p w) = true) : shown p w = REDACTED_LINE := by
  unfold shown at h ⊢
  split
  · rfl
  · rename_i hw
    exact absurd (by rwa [if_neg hw] at h) hw

theorem redacted_cons (hw : plain w = true) (rest : Text) : Redacted p (w ++ LF :: rest) ↔
    (starts p w = true → w = REDACTED_LINE) ∧ Redacted p rest := by
  unfold Redacted
  rw [splitLines_plain hw, nil_append, splitLines, if_neg (by simp), if_pos (by decide), forall_mem_cons]
  rfl

theorem redacted_line (hw : plain w = true) : Redacted p w ↔ (starts p w = true → w = REDACTED_LINE) := by
  unfold Redacted
  rw [← append_nil w, splitLines_plain hw, nil_append, append_nil, splitLines, forall_mem_singleton]

theorem redacted_tail (hu : u = [] ∨ ∃ out, u = out ++ [LF]) (hw : plain w = true) (h : Redacted p (u ++ w))
    (hstart : starts p w = true) : w = REDACTED_LINE := by
  have hline := (redacted_line (p := p) hw).mp
  rcases hu with rfl | ⟨out, rfl⟩
  · exact hline h hstart
  · obtain ⟨ls, hls⟩ := splitLines_break (c := LF) rfl false [] out nofun
    refine hline (fun line hmem => h line ?_) hstart
    rw [append_assoc, singleton_append, hls]
    exact mem_append_right ls hmem

theorem redacted_whole (hq : plain q = true) (h : ∀ u w, q ++ rest = u ++ w → ended u = true →
    plain w = true → Long w → starts p w = false) : Redacted p (whole p (q, cap) rest).2 := by
  induction rest generalizing q cap with
  | nil =>
    rw [whole_nil]
    split
    · rename_i hlong
      simp [redacted_line hq, h [] q (append_nil q) rfl hq hlong]
    · exact (redacted_line (plain_shown hq)).mpr shown_ok
  | cons x rest ih =>
    by_cases hx : isBreak x = true
    · rw [whole_break hx]
      refine (redacted_cons (plain_shown hq) _).mpr ⟨shown_ok, ih rfl fun u w hcut hu => h (q ++ x :: u) w (by simp_all) ?_⟩
      rw [ended, getLast?_append_of_ne_nil _ (cons_ne_nil x u), getLast?_cons]
      cases hlast : u.getLast? with
      | none => simpa using hx
      | some c => simpa [ended, hlast] using hu
    · have hx' : plain [x] = true := by simpa [plain] using hx
      rw [← singleton_append, whole_line hx']
      exact ih (plain_append.mpr ⟨hq, hx'⟩) (by simpa using h)

theorem pushed_concat {m : List Text} (h : splitLines false [] c = m ++ [w]) :
    pushed p ([], cap) c = flushed (emitted p m, w, refs p cap m) := by
  simp [pushed, h]

theorem NoCRLF.left (h : NoCRLF (u ++ v)) : NoCRLF u := fun hin => h (hin.trans (prefix_append u v).isInfix)

theorem NoCRLF.right (h : NoCRLF (u ++ v)) : NoCRLF v := fun hin => h (hin.trans (suffix_append u v).isInfix)

/-- Long lines do not start with the prefix. -/
def LongLines (p : ResumeRefCapture) (text : Text) : Prop :=
  ∀ u a v, text = u ++ (a ++ v) → ended u = true → plain a = true → v.head?.all isBreak = true → Long a →
    starts p a = false

section Lines

variable (hcrlf : NoCRLF text) (hlong : LongLines p text)
include hcrlf hlong

theorem captured_rest (hu : ended u = true) (htext : text = u ++ v) : (whole p ([], none) v).1 = latest p v := by
  subst htext
  refine captured_whole hcrlf.right fun hlast => ?_
  have hin : Within (u ++ v) [] [] (v ++ []) := ⟨u, by simp, hu, rfl, .inl rfl⟩
  obtain ⟨a, ha, u', htext, hu', hplain, -⟩ := Within.walk (p := p) (s := ([], none)) hin
  obtain rfl : a = [] := ha.elim id id
  exact hlong u' _ [] (by simpa using htext) hu' (by simpa using hplain) rfl hlast

/-- A part of a long line that is read as a line of its own leaves the captured reference alone exactly if its own is
the last one before it or has one after it. -/
theorem captured_part_iff (htext : text = u ++ (a ++ (b ++ v))) (hu : ended u = true) (hplain : plain (a ++ b) = true)
    (hv : v.head?.all isBreak = true) (ha : Long a) (hend : v ≠ [] ∨ ¬ Long b) :
    (whole p (b, met p u) v).1 = (whole p (a ++ b, met p u) v).1 ↔
      ∀ x, reference p b = some x → latest p v ≠ none ∨ latest p u = some x := by
  have hlong' : Long (a ++ b) := ha.trans_le bytes_le_append
  have hstart : starts p (a ++ b) = false := hlong u (a ++ b) v (by simp [htext]) hu hplain hv hlong'
  have hmet : latest p u = met p u := latest_ended hu (htext ▸ hcrlf).left
  rw [hmet]
  cases v with
  | nil =>
    have hnone : latest p ([] : Text) = none := by simp [latest, splitLines, refs]
    rw [whole_nil, whole_nil, if_neg (hend.resolve_left (by simp)), if_pos hlong', hnone]
    cases reference p b <;> simp [eq_comm]
  | cons x v =>
    have hx : isBreak x = true := by simpa using hv
    have hrest : NoCRLF (x :: v) := (show NoCRLF ((u ++ (a ++ b)) ++ (x :: v)) by simpa [← htext] using hcrlf).right
    have hended : ended (u ++ (a ++ (b ++ [x]))) = true := by simp [ended, hx]
    rw [whole_break hx, whole_break hx, reference_of_not hstart, latest_break hx hrest,
      ← captured_rest hcrlf hlong hended (by simp [htext])]
    cases (whole p ([], none) v).1 <;> cases reference p b <;> simp [eq_comm]

end Lines

theorem whole_text (hu : ended u = true) (hplain : plain (a ++ b) = true) :
    whole p ([], none) (u ++ (a ++ (b ++ v))) = joined (walk p ([], none) u).1 (whole p (a ++ b, met p u) v) := by
  rw [whole_append, (walk_ended hu).1, ← append_assoc a, whole_line hplain, nil_append]

section Steady

variable (hsteady : Steady p text)
include hsteady

theorem Steady.longLines : LongLines p text := fun u a v htext hu hplain hv ha => by
  simpa using (hsteady.2 u a [] v (by simpa using htext) hu (by simpa using hplain) hv ha).1

/-- Sending a long pending line ahead changes nothing in a steady text. -/
theorem whole_flush (hin : Within text a s.1 rest) (hlong : Long s.1)
    (hcap : (whole p s rest).1 = (whole p ([], none) text).1) : whole p s rest = joined s.1 (whole p ([], s.2) rest) := by
  have hlines := hsteady.longLines
  obtain ⟨hcrlf, hline⟩ := hsteady
  obtain ⟨q, cap⟩ := s
  obtain ⟨u, htext, hu, hplain, ha⟩ := hin
  obtain ⟨b, v, rfl, hb, hv⟩ := exists_line rest
  have hq : plain (q ++ b) = true := plain_append.mpr ⟨(plain_append.mp hplain).2, hb⟩
  have hcut : text = u ++ (a ++ q ++ (b ++ v)) := by simp [htext]
  have hparts : plain (a ++ q ++ b) = true := plain_append.mpr ⟨hplain, hb⟩
  have hpart : starts p b = true → v ≠ [] ∨ ¬ Long b →
      b = REDACTED_LINE ∧ (whole p (b, met p u) v).1 = (whole p ([], none) text).1 := by
    intro hstart hend
    obtain ⟨hred, href⟩ := (hline u (a ++ q) b v hcut hu hparts hv (long_append ha hlong)).2 hstart hend
    refine ⟨hred, ?_⟩
    rw [(captured_part_iff hcrlf hlines hcut hu hparts hv (long_append ha hlong) hend).mpr href, hcut,
      whole_text hu hparts]
    rfl
  rw [whole_line hb] at hcap ⊢
  rw [whole_line hb, nil_append]
  cases v with
  | nil =>
    have hlong' : Long (q ++ b) := hlong.trans_le bytes_le_append
    rw [whole_nil, if_pos hlong'] at hcap ⊢
    rw [whole_nil] at hpart ⊢
    split
    · rfl
    · rename_i hshort
      cases hstart : starts p b with
      | false => simp [joined, shown_of_not hstart, reference_of_not hstart]
      | true =>
        obtain ⟨rfl, hsame⟩ := hpart hstart (.inr hshort)
        rw [if_neg hshort] at hsame
        exact Prod.ext (or_of_same (w := none) (hsame.trans hcap.symm)).symm (by rw [shown_redacted]; rfl)
  | cons x v =>
    have hx : isBreak x = true := by simpa using hv
    have hwhole : starts p (q ++ b) = false := by
      rcases ha with rfl | ha
      · exact (hline u q b (x :: v) htext hu hq hv hlong).1
      · by_contra hstart
        have hred := (hline u a (q ++ b) (x :: v) (by simp [htext]) hu (plain_append.mpr ⟨(plain_append.mp hplain).1, hq⟩)
          hv ha).2 (by simpa using hstart) (.inl (cons_ne_nil x v))
        exact redacted_short hred.1 (hlong.trans_le bytes_le_append)
    rw [whole_break hx, reference_of_not hwhole, Option.none_or] at hcap
    rw [whole_break hx, whole_break hx, reference_of_not hwhole, shown_of_not hwhole, Option.none_or, append_assoc]
    cases hstart : starts p b with
    | false => simp [joined, shown_of_not hstart, reference_of_not hstart]
    | true =>
      rw [whole_break hx] at hpart
      obtain ⟨rfl, hsame⟩ := hpart hstart (.inl (cons_ne_nil x v))
      exact Prod.ext (or_of_same (hsame.trans hcap.symm)).symm (by rw [shown_redacted]; rfl)

/-- Every way to read a steady text ends as the whole text does. -/
theorem runFrom_whole (chunks : List Text) (hin : Within text a s.1 chunks.flatten)
    (hshort : ¬ Long s.1) (hcap : (whole p s chunks.flatten).1 = (whole p ([], none) text).1) :
    closed p (runFrom p s chunks) = whole p s chunks.flatten := by
  induction chunks generalizing a s with
  | nil => simp [runFrom, whole_nil, hshort, closed]
  | cons c cs ih =>
    obtain ⟨u, htext, hu, hplain, ha⟩ := id hin
    have hc : NoCRLF c := fun h => hsteady.1 (h.trans ⟨u ++ (a ++ s.1), cs.flatten, by simp [htext]⟩)
    rw [flatten_cons] at hin hcap ⊢
    obtain ⟨a', -, hin'⟩ := hin.walk (p := p)
    rw [whole_append] at hcap ⊢
    simp only [runFrom]
    rw [pushed_eq (plain_append.mp hplain).2 hc]
    generalize walk p s c = s' at hin' hcap
    have hrest : joined (flushed s').1 (closed p (runFrom p (flushed s').2 cs)) = joined s'.1 (whole p s'.2 cs.flatten) := by
      unfold flushed
      split
      · rename_i hlong
        have hflush := whole_flush hsteady hin' hlong hcap
        rw [ih (s := ([], s'.2.2)) (hin'.flush hlong) (Nat.not_lt_zero _) (by rw [← hcap, hflush]; rfl), hflush]
        simp [joined]
      · rename_i hfits
        rw [ih hin' hfits hcap]
    rw [← hrest]
    simp [closed, joined]

end Steady

section Accepted

variable (hs : acceptsStream p stream = true)

include hs

theorem whole_two (h : NoCRLF u) (h' : NoCRLF v) : outcome p stream [u, v] =
    joined (flushed (walk p ([], none) u)).1 (whole p (flushed (walk p ([], none) u)).2 v) := by
  rw [outcome_eq hs]
  simp only [runFrom]
  rw [pushed_eq rfl h, pushed_eq (plain_flushed u) h']
  simp [closed, whole, joined]

theorem whole_one (h : NoCRLF u) : outcome p stream [u] = whole p ([], none) u := by
  rw [outcome_eq hs, runFrom, pushed_eq rfl h]
  simp [runFrom, whole]

/-- A CRLF that a chunk boundary cuts gives one more line. -/
theorem outcome_crlf (u v : Text) : outcome p stream [u ++ CR :: LF :: v] ≠ outcome p stream [u ++ [CR], LF :: v] := by
  obtain ⟨ls, hls⟩ := splitLines_break (c := CR) rfl false [] u nofun
  obtain ⟨m, x, hm⟩ := (eq_nil_or_concat (splitLines false [] v)).resolve_left (splitLines_ne_nil false [] v)
  rw [concat_eq_append] at hm
  have hone : splitLines false [] (u ++ CR :: LF :: v) = (ls ++ m) ++ [x] := by
    rw [hls, splitLines, if_pos (by decide), hm, append_assoc]
  have htwo : splitLines false [] (LF :: v) = ([] :: m) ++ [x] := by
    rw [cons_append, ← hm, splitLines, if_neg (by simp), if_pos (by decide)]
    rfl
  intro h
  have hlen := congrArg (fun s => s.2.length) h
  have hfirst : pushed p ([], none) (u ++ [CR]) = (emitted p ls, [], refs p none ls) := pushed_concat (hls [])
  simp only [outcome_eq hs, runFrom, hfirst, pushed_concat hone, pushed_concat htwo] at hlen
  by_cases hx : Long x
  all_goals simp [flushed, closed, emitted, hx] at hlen

theorem whole_cut (h : NoCRLF text) (htext : text = u ++ (a ++ (b ++ v))) (hu : ended u = true)
    (hplain : plain (a ++ b) = true) (ha : Long a) (hcut : outcome p stream [u ++ a, b ++ v] = outcome p stream [text]) :
    whole p (a ++ b, met p u) v = joined a (whole p (b, met p u) v) := by
  obtain ⟨hpa, hpb⟩ := plain_append.mp hplain
  have hwalk : flushed (walk p ([], none) (u ++ a)) = ((walk p ([], none) u).1 ++ a, [], met p u) := by
    rw [walk_append, (walk_ended hu).1, walk_plain hpa]
    simp [flushed, ha]
  rw [whole_two hs (fun hin => h (hin.trans ⟨[], b ++ v, by simp [htext]⟩))
    (fun hin => h (hin.trans ⟨u ++ a, [], by simp [htext]⟩)), hwalk, whole_one hs h, htext, whole_text hu hplain,
    whole_line hpb] at hcut
  simp only [joined, nil_append, Prod.mk.injEq, append_assoc, append_cancel_left_eq] at hcut
  exact Prod.ext hcut.1.symm hcut.2.symm

end Accepted

/-- **Chunking.** Any two ways to cut a text give the same reference and output, with every line of the prefix redacted,
exactly when the text is steady. -/
theorem chunking_iff (hs : acceptsStream p stream = true) (text : Text) :
    (∀ xs ys, xs.flatten = text → ys.flatten = text →
      outcome p stream xs = outcome p stream ys ∧ Redacted p (outcome p stream xs).2) ↔ Steady p text := by
  constructor
  · intro h
    have hcrlf : NoCRLF text := by
      rintro ⟨u, v, rfl⟩
      exact outcome_crlf hs u v (h _ _ (by simp) (by simp)).1
    have hred := (h [text] [text] (by simp) (by simp)).2
    rw [whole_one hs hcrlf] at hred
    have hcut : ∀ u a b v, text = u ++ (a ++ (b ++ v)) → ended u = true → plain (a ++ b) = true → Long a →
        whole p (a ++ b, met p u) v = joined a (whole p (b, met p u) v) := fun u a b v htext hu hplain ha =>
      whole_cut hs hcrlf htext hu hplain ha (h _ _ (by simp [htext]) (by simp)).1
    have hlong : LongLines p text := by
      intro u a v htext hu hplain hv ha
      have hsplit := hcut u a [] v (by simpa using htext) hu (by simpa using hplain) ha
      rw [append_nil] at hsplit
      by_contra hstart
      rw [Bool.not_eq_false] at hstart
      cases v with
      | nil =>
        rw [htext, append_nil, whole_append, (walk_ended hu).1, ← append_nil a, whole_line hplain, nil_append, whole_nil,
          if_pos ha] at hred
        exact redacted_short (redacted_tail (walk_ended hu).2 hplain hred hstart) ha
      | cons x v =>
        rw [whole_break (by simpa using hv), whole_break (by simpa using hv), shown_nil] at hsplit
        have hline : shown p a = a := append_cancel_right (congrArg Prod.snd hsplit)
        rw [shown, if_pos hstart] at hline
        exact redacted_short hline.symm ha
    refine ⟨hcrlf, fun u a b v htext hu hplain hv ha => ?_⟩
    have hwhole : Long (a ++ b) := ha.trans_le bytes_le_append
    have hnot : starts p (a ++ b) = false := hlong u (a ++ b) v (by simp [htext]) hu hplain hv hwhole
    have hsplit := hcut u a b v htext hu hplain ha
    refine ⟨hnot, fun hstart hend => ⟨?_, ?_⟩⟩
    · -- the part goes out redacted in one cut and as it is in the other
      have hline : a ++ b = a ++ shown p b := by
        cases v with
        | nil =>
          rw [whole_nil, whole_nil, if_pos hwhole, if_neg (hend.resolve_left (by simp))] at hsplit
          exact congrArg Prod.snd hsplit
        | cons x v =>
          rw [whole_break (by simpa using hv), whole_break (by simpa using hv), shown_of_not hnot] at hsplit
          exact append_cancel_right ((congrArg Prod.snd hsplit).trans (append_assoc ..).symm)
      rw [append_cancel_left hline, shown, if_pos hstart]
    · exact (captured_part_iff hcrlf hlong htext hu hplain hv ha hend).mp (congrArg Prod.fst hsplit).symm
  · rintro hsteady
    have hwhole : ∀ xs : List Text, xs.flatten = text → outcome p stream xs = whole p ([], none) text := by
      rintro xs rfl
      rw [outcome_eq hs]
      exact runFrom_whole hsteady xs ⟨[], rfl, rfl, rfl, .inl rfl⟩ (Nat.not_lt_zero _) rfl
    intro xs ys hxs hys
    rw [hwhole xs hxs, hwhole ys hys]
    refine ⟨rfl, redacted_whole rfl fun u w hcut hu hw hlong => ?_⟩
    exact hsteady.longLines u w [] (by simpa using hcut) hu hw rfl hlong

end Chunks

def stdoutPolicy : ResumeRefCapture :=
  { stream := some .stdout, linePrefix := ofString "r", nonempty := by decide, short := by decide, clean := by decide }

theorem chunking_short_text : acceptsStream stdoutPolicy .stdout = true ∧ ∀ xs : List Text, xs.flatten = ofString "r7\nok" →
    outcome stdoutPolicy .stdout xs = (some (ofString "7"), ofString "[CLI resume reference redacted]\nok") := by
  have hshort : ∀ a ∈ (ofString "r7\nok").sublists, bytes a ≤ MAX_PENDING_LINE_BYTES := by decide +kernel
  have hsteady : Steady stdoutPolicy (ofString "r7\nok") := by
    refine ⟨by decide +kernel, fun u a b v htext _ _ _ hlong => ?_⟩
    have hsub : a.Sublist (ofString "r7\nok") := List.IsInfix.sublist ⟨u, b ++ v, by simp [htext]⟩
    exact absurd hlong (hshort a (mem_sublists.mpr hsub)).not_gt
  refine ⟨rfl, fun xs h => ?_⟩
  exact ((chunking_iff rfl _).mpr hsteady xs [ofString "r7\nok"] h (by simp)).1.trans (by decide +kernel)

/-- A CRLF cut in two gives an empty line; and a long line goes out with its prefix. -/
theorem chunking_seen :
    outcome stdoutPolicy .stdout [ofString "a\r\nb"] ≠ outcome stdoutPolicy .stdout [ofString "a\r", ofString "\nb"] ∧
      ¬ Redacted stdoutPolicy (outcome stdoutPolicy .stdout [replicate 4097 114]).2 := by
  refine ⟨by decide +kernel, fun hred => ?_⟩
  have hline : (replicate 4097 (114 : CodeUnit)).all (!isBreak ·) = true := by
    rw [all_replicate]
    rfl
  have hlong : Long (replicate 4097 114) := by
    have hlen := length_le_bytes (s := replicate 4097 114)
    rw [length_replicate] at hlen
    exact hlen
  have hcrlf : NoCRLF (replicate 4097 114) := fun h =>
    absurd (eq_of_mem_replicate (h.subset (mem_cons_self ..))) (by decide)
  rw [whole_one rfl hcrlf, ← append_nil (replicate 4097 114), whole_line hline, nil_append, whole_nil,
    if_pos hlong] at hred
  exact redacted_short ((redacted_line hline).mp hred rfl) hlong

end AutoHarness.ResumeRef
