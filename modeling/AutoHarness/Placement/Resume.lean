import Mathlib.Algebra.GroupWithZero.Nat
import Mathlib.Data.List.TakeDrop
import AutoHarness.Store.Rows

/-! Native resume commands: the argv templates of a command, their validation, and their expansion. -/

namespace AutoHarness.Placement
open Store

def MAX_COMMAND_ARGV_ITEMS : ℕ := 64

def MAX_COMMAND_ARG_LENGTH : ℕ := 4096

inductive CaptureStream where
  | stdout | stderr | either
deriving DecidableEq, Repr

structure ResumeRefCapture where
  stream : CaptureStream
  linePrefix : String
deriving DecidableEq, Repr

structure SessionResumeSpec where
  argv : List String
  appendPrompt : Bool := false
  appendPromptSeparator : Bool := false
  resumeArgvTemplate : Option (List String) := none
  resumeRefCapture : Option ResumeRefCapture := none
deriving DecidableEq, Repr

/-! ## Placeholders -/

/-- A text as a pattern of placeholders cuts it: the matches, and the characters between them. -/
inductive Token where
  | placeholder (name : String)
  | char (c : Char)
deriving DecidableEq, Repr

def Token.isPlaceholder : Token → Bool
  | placeholder _ => true
  | char _ => false

def Token.text : Token → List Char
  | placeholder name => '{' :: name.toList ++ ['}']
  | char c => [c]

/-- The scan's pattern `\{([A-Za-z][A-Za-z0-9_]*)\}` at the head of a text: the name, and what follows the match. -/
def placeholderAt : List Char → Option (String × List Char)
  | '{' :: c :: rest =>
    if c.isAlpha then
      match rest.span fun x => x.isAlphanum || x == '_' with
      | (name, '}' :: tail) => some (String.ofList (c :: name), tail)
      | _ => none
    else none
  | _ => none

/-- A pattern of fixed names, `\{(name|..)\}`, at the head of a text. -/
def namedAt (names : List String) (l : List Char) : Option (String × List Char) :=
  (names.find? fun name => (Token.placeholder name).text.isPrefixOf l).map fun name =>
    (name, l.drop (Token.placeholder name).text.length)

/-- The global matches of a pattern from the left, as at most `fuel` tokens. -/
def tokensFrom (pattern : List Char → Option (String × List Char)) : ℕ → List Char → List Token
  | 0, _ => []
  | _ + 1, [] => []
  | fuel + 1, c :: rest =>
    match pattern (c :: rest) with
    | some (name, tail) => .placeholder name :: tokensFrom pattern fuel tail
    | none => .char c :: tokensFrom pattern fuel rest

/-- A text under the scan's pattern. -/
def tokens (text : String) : List Token := tokensFrom placeholderAt text.length text.toList

/-- A text under the pattern that counts references or, with both names, under the one that expands. -/
def namedTokens (names : List String) (text : String) : List Token :=
  tokensFrom (namedAt names) text.length text.toList

/-! ## Validation -/

def hasControlChars (value : String) : Bool :=
  value.toList.any fun c => c.toNat ≤ 0x1f || c.toNat == 0x7f

/-- `value.length` of the source counts UTF-16 code units. -/
def codeUnitLength (value : String) : ℕ :=
  (value.toList.map fun c => if c.toNat < 0x10000 then 1 else 2).sum

/-- The error, if any. -/
def safeArg (value label : String) : Option String :=
  if value = "" then some (label ++ " must contain non-empty strings")
  else if MAX_COMMAND_ARG_LENGTH < codeUnitLength value then
    some (label ++ " entries must be at most " ++ toString MAX_COMMAND_ARG_LENGTH ++ " characters")
  else if hasControlChars value then some (label ++ " entries must not contain control characters")
  else none

inductive CommandExecutableKind where
  | bare | relative
deriving DecidableEq, Repr

def isPathSeparator (c : Char) : Bool := c == '/' || c == '\\'

def validateCommandExecutable (value label : String) : Except String CommandExecutableKind :=
  match safeArg value label with
  | some error => .error error
  | none =>
    let absolute := match value.toList with
      | c :: rest => isPathSeparator c || (c.isAlpha && rest.head? == some ':')
      | [] => false
    if absolute then .error (label ++ " must not be an absolute or drive-qualified path")
    else if (value.toList.splitOnP isPathSeparator).contains ['.', '.'] then
      .error (label ++ " must not contain '..' path segments")
    else .ok (if value.toList.any isPathSeparator then .relative else .bare)

def templateArgError (arg : String) : Option String :=
  match safeArg arg "resumeArgvTemplate" with
  | some error => some error
  | none =>
    let unsupported := (tokens arg).findSome? fun
      | .placeholder name => if name = "prompt" ∨ name = "cliResumeRef" then none else some name
      | .char _ => none
    match unsupported with
    | some name => some ("unsupported resume placeholder: " ++ name)
    | none =>
      if (tokens arg).any fun t => t == .char '{' || t == .char '}' then
        some "resumeArgvTemplate contains malformed placeholders"
      else none

/-- The capture policy, validated beside it when a command is stored, is absent here. -/
def validateCommandResumeSpec (resumeArgvTemplate : List String) : Except String (List String) :=
  if resumeArgvTemplate.length = 0 ∨ MAX_COMMAND_ARGV_ITEMS < resumeArgvTemplate.length then
    .error ("resumeArgvTemplate must contain 1-" ++ toString MAX_COMMAND_ARGV_ITEMS ++ " argv entries")
  else
    match resumeArgvTemplate.findSome? templateArgError with
    | some error => .error error
    | none =>
      let first := resumeArgvTemplate.headD ""
      if (tokens first).any Token.isPlaceholder then
        .error "resumeArgvTemplate[0] must be a fixed executable without placeholders"
      else
        match validateCommandExecutable first "resumeArgvTemplate[0]" with
        | .error error => .error error
        | .ok _ =>
          let cliResumeRefCount :=
            (resumeArgvTemplate.map fun arg => (namedTokens ["cliResumeRef"] arg).countP Token.isPlaceholder).sum
          if cliResumeRefCount = 1 then
            .ok resumeArgvTemplate
          else .error "resumeArgvTemplate must contain exactly one \x7bcliResumeRef\x7d placeholder"

/-! ## Expansion -/

/-- A placeholder that is not the reference is the prompt. -/
def Token.expand (resumeRef prompt : String) : Token → String
  | placeholder name => if name = "cliResumeRef" then resumeRef else prompt
  | char c => String.singleton c

/-- A lone prompt placeholder gets the separator before it. -/
def materializeResumeArgv (template : List String) (resumeRef prompt : String) (appendPromptSeparator : Bool) :
    List String :=
  template.flatMap fun arg =>
    if appendPromptSeparator && arg == "\x7bprompt\x7d" then ["--", prompt]
    else [String.join ((namedTokens ["cliResumeRef", "prompt"] arg).map (Token.expand resumeRef prompt))]

example : validateCommandResumeSpec ["cli", "--resume", "\x7bcliResumeRef\x7d", "\x7bprompt\x7d"] =
    .ok ["cli", "--resume", "\x7bcliResumeRef\x7d", "\x7bprompt\x7d"] := by decide +kernel

/-! ## What the scan finds -/

open List

theorem placeholderAt_eq {l tail : List Char} {name : String} (h : placeholderAt l = some (name, tail)) :
    l = (Token.placeholder name).text ++ tail := by
  unfold placeholderAt at h
  split at h
  · next c rest =>
    split at h
    · rw [span_eq_takeWhile_dropWhile] at h
      split at h
      · next word rest' hspan =>
        obtain ⟨rfl, rfl⟩ := Prod.mk.inj (Option.some.inj h)
        obtain ⟨hword, hrest⟩ := Prod.mk.inj hspan
        have hsplit := takeWhile_append_dropWhile (p := fun x => x.isAlphanum || x == '_') (l := rest)
        rw [hword, hrest] at hsplit
        simp [Token.text, ← hsplit]
      · cases h
    · cases h
  · cases h

variable {fuel : ℕ}

theorem text_tokensFrom {l : List Char} (h : l.length ≤ fuel) :
    (tokensFrom placeholderAt fuel l).flatMap Token.text = l := by
  induction fuel generalizing l with
  | zero => rw [length_eq_zero_iff.mp (Nat.le_zero.mp h)]; rfl
  | succ fuel ih =>
    cases l with
    | nil => rfl
    | cons c rest =>
      rw [tokensFrom]
      split
      · next name tail hplace =>
        have heq := placeholderAt_eq hplace
        have hlength := congrArg length heq
        simp only [Token.text, length_append, length_cons] at hlength h
        rw [flatMap_cons, ih (by omega), ← heq]
      · rw [flatMap_cons, ih (Nat.le_of_succ_le_succ h)]
        rfl

/-- The tokens of a text spell the text: nothing is lost or moved. -/
theorem text_tokens (text : String) : (tokens text).flatMap Token.text = text.toList :=
  text_tokensFrom (String.length_toList ▸ Nat.le_refl _)

/-- What validation leaves of a template: literal text without braces and the two placeholders. -/
def Token.Allowed (t : Token) : Prop :=
  t = placeholder "prompt" ∨ t = placeholder "cliResumeRef" ∨ ∃ c, t = char c ∧ c ≠ '{' ∧ c ≠ '}'

theorem allowed_of_templateArgError {arg : String} (h : templateArgError arg = none) : ∀ t ∈ tokens arg, t.Allowed := by
  unfold templateArgError at h
  split at h
  · cases h
  · dsimp only at h
    split at h
    · cases h
    · next hsupported =>
      split_ifs at h with hbraces
      intro t ht
      cases t with
      | placeholder name =>
        have hname := findSome?_eq_none_iff.mp hsupported _ ht
        simp only [ite_eq_left_iff, reduceCtorEq, imp_false, not_not] at hname
        obtain rfl | rfl := hname
        · exact .inl rfl
        · exact .inr (.inl rfl)
      | char c =>
        refine .inr (.inr ⟨c, rfl, ?_, ?_⟩) <;> rintro rfl <;> exact hbraces (any_eq_true.mpr ⟨_, ht, rfl⟩)

/-! ## What the other two patterns find in an accepted text -/

/-- The pattern of the expansion finds the scan's placeholders, and the pattern that counts references finds those of
the reference. -/
theorem tokensFrom_named {ts : List Token} (h : ∀ t ∈ ts, t.Allowed) (hfuel : (ts.flatMap Token.text).length ≤ fuel) :
    tokensFrom (namedAt ["cliResumeRef", "prompt"]) fuel (ts.flatMap Token.text) = ts ∧
    (tokensFrom (namedAt ["cliResumeRef"]) fuel (ts.flatMap Token.text)).countP Token.isPlaceholder =
      ts.count (.placeholder "cliResumeRef") := by
  induction ts generalizing fuel with
  | nil => cases fuel <;> exact ⟨rfl, rfl⟩
  | cons t ts ih =>
    obtain ⟨ht, hts⟩ := forall_mem_cons.mp h
    have hrest := fun n => @ih n hts
    rw [flatMap_cons, length_append] at hfuel
    rw [flatMap_cons]
    generalize ts.flatMap Token.text = rest at hfuel hrest ⊢
    obtain rfl | rfl | ⟨c, rfl, hc, -⟩ := ht
    · -- the pattern of the references alone passes over the eight characters
      obtain ⟨n, rfl⟩ := Nat.exists_eq_add_of_le' (show 8 ≤ fuel by simp [Token.text] at hfuel; omega)
      simp [Token.text, tokensFrom, namedAt, Token.isPlaceholder] at hfuel ⊢
      exact ⟨(hrest _ (by omega)).1, (hrest _ (by omega)).2⟩
    · obtain ⟨n, rfl⟩ := Nat.exists_eq_add_of_le' (show 1 ≤ fuel by simp [Token.text] at hfuel; omega)
      simp [Token.text, tokensFrom, namedAt, countP_cons, Token.isPlaceholder] at hfuel ⊢
      exact hrest _ (by omega)
    · obtain ⟨n, rfl⟩ := Nat.exists_eq_add_of_le' (show 1 ≤ fuel by simp [Token.text] at hfuel; omega)
      simp [Token.text, tokensFrom, namedAt, Ne.symm hc, Token.isPlaceholder] at hfuel ⊢
      exact hrest _ (by omega)

theorem namedTokens_eq {arg : String} (h : ∀ t ∈ tokens arg, t.Allowed) :
    namedTokens ["cliResumeRef", "prompt"] arg = tokens arg ∧
    (namedTokens ["cliResumeRef"] arg).countP Token.isPlaceholder =
      (tokens arg).count (.placeholder "cliResumeRef") := by
  unfold namedTokens
  rw [← text_tokens arg]
  refine tokensFrom_named h ?_
  simp only [text_tokens, String.length_toList, Nat.le_refl]

theorem accepted_of_validate {template accepted : List String} (h : validateCommandResumeSpec template = .ok accepted) :
    (∀ arg ∈ template, ∀ t ∈ tokens arg, t.Allowed) ∧ (tokens (template.headD "")).any Token.isPlaceholder = false ∧
    (template.flatMap tokens).count (.placeholder "cliResumeRef") = 1 := by
  unfold validateCommandResumeSpec at h
  split at h
  · cases h
  split at h
  · cases h
  next hargs =>
    dsimp only at h
    split at h
    · cases h
    next hfirst =>
      split at h
      · cases h
      split at h
      next hone =>
        have hallowed : ∀ arg ∈ template, ∀ t ∈ tokens arg, t.Allowed := fun arg harg =>
          allowed_of_templateArgError (findSome?_eq_none_iff.mp hargs arg harg)
        refine ⟨hallowed, Bool.eq_false_iff.mpr hfirst, ?_⟩
        rw [count_flatMap, ← hone]
        exact congrArg sum (map_congr_left fun arg harg => (namedTokens_eq (hallowed arg harg)).2.symm)
      · cases h

/-! ## What the expansion inserts -/

/-- What an element of a template consists of. -/
inductive Part where
  | reference
  | prompt
  | literal (c : Char)
deriving DecidableEq, Repr

/-- How the template writes a part. -/
def Part.text : Part → List Char
  | reference => "\x7bcliResumeRef\x7d".toList
  | prompt => "\x7bprompt\x7d".toList
  | literal c => [c]

/-- What stands in the expansion for a part. -/
def Part.value (resumeRef promptText : String) : Part → List Char
  | reference => resumeRef.toList
  | prompt => promptText.toList
  | literal c => [c]

def Token.part : Token → Part
  | placeholder name => if name = "cliResumeRef" then .reference else .prompt
  | char c => .literal c

def partsOf (arg : String) : List Part := (tokens arg).map Token.part

namespace Token

variable {t : Token}

theorem part_text (h : t.Allowed) : t.part.text = t.text := by
  obtain rfl | rfl | ⟨c, rfl, -⟩ := h <;> rfl

theorem part_eq_reference (h : t.Allowed) : t.part = .reference ↔ t = .placeholder "cliResumeRef" := by
  obtain rfl | rfl | ⟨c, rfl, -⟩ := h <;> simp [part]

theorem part_value (h : t.Allowed) (ref prompt : String) : t.part.value ref prompt = (t.expand ref prompt).toList := by
  obtain rfl | rfl | ⟨c, rfl, -⟩ := h <;> simp [part, expand, Part.value]

end Token

section Parts

variable {arg : String} (h : ∀ t ∈ tokens arg, t.Allowed)
include h

theorem text_partsOf : (partsOf arg).flatMap Part.text = arg.toList := by
  rw [partsOf, flatMap_map, ← text_tokens arg]
  exact flatMap_congr fun t ht => Token.part_text (h t ht)

theorem literal_partsOf {c : Char} (hc : .literal c ∈ partsOf arg) : c ≠ '{' ∧ c ≠ '}' := by
  obtain ⟨t, ht, hpart⟩ := mem_map.mp hc
  obtain rfl | rfl | ⟨d, rfl, hd⟩ := h t ht
  · simp [Token.part] at hpart
  · simp [Token.part] at hpart
  · obtain rfl := Part.literal.inj hpart
    exact hd

theorem count_partsOf : (partsOf arg).count .reference = (tokens arg).count (.placeholder "cliResumeRef") := by
  rw [partsOf, count, count, countP_map]
  exact countP_congr fun t ht => by simpa using Token.part_eq_reference (h t ht)

theorem join_expand (ref prompt : String) :
    String.join ((namedTokens ["cliResumeRef", "prompt"] arg).map (Token.expand ref prompt)) =
      String.ofList ((partsOf arg).flatMap (Part.value ref prompt)) := by
  rw [(namedTokens_eq h).1, ← String.toList_inj, String.toList_join, String.toList_ofList, partsOf, flatMap_map,
    flatMap_map]
  exact (flatMap_congr fun t ht => Token.part_value (h t ht) ref prompt).symm

/-- An element is the prompt's placeholder exactly when that is its only part. -/
theorem partsOf_eq_prompt : partsOf arg = [.prompt] ↔ arg = "\x7bprompt\x7d" := by
  constructor
  · intro heq
    have htext := text_partsOf h
    rw [heq] at htext
    exact String.toList_inj.mp htext.symm
  · rintro rfl
    decide +kernel

end Parts

/-- An element without placeholders is kept. -/
theorem expand_of_literal {text : String} (h : ∀ t ∈ tokens text, t.Allowed)
    (hplain : (tokens text).any Token.isPlaceholder = false) (ref prompt : String) :
    String.ofList ((partsOf text).flatMap (Part.value ref prompt)) = text := by
  rw [← String.toList_inj, String.toList_ofList, ← text_partsOf h]
  refine flatMap_congr fun part hpart => ?_
  obtain ⟨t, ht, rfl⟩ := mem_map.mp hpart
  cases t with
  | char c => rfl
  | placeholder name => cases any_eq_false.mp hplain _ ht rfl

theorem length_materialize (template : List String) (ref prompt : String) (separator : Bool) :
    (materializeResumeArgv template ref prompt separator).length =
      template.length + if separator then template.count "\x7bprompt\x7d" else 0 := by
  induction template with
  | nil => simp [materializeResumeArgv]
  | cons arg rest ih =>
    rw [materializeResumeArgv, flatMap_cons, length_append, ← materializeResumeArgv, ih]
    cases separator <;> by_cases harg : arg = "\x7bprompt\x7d" <;> simp [harg] <;> omega

/-- **Expansion is not steered by its inputs.** The elements of an accepted template consist of literal characters other
than braces and of the two placeholders, with one reference in all. In the expansion the reference and the prompt stand
as they are in place of their placeholders, and every literal character stands for itself; an element that is only the
prompt follows a separator. The first element is kept. -/
theorem resumeArgv_not_steered {template accepted : List String}
    (h : validateCommandResumeSpec template = .ok accepted) :
    (∀ arg ∈ template, (partsOf arg).flatMap Part.text = arg.toList ∧
      ∀ c, .literal c ∈ partsOf arg → c ≠ '{' ∧ c ≠ '}') ∧
    (template.flatMap partsOf).count .reference = 1 ∧
    ∀ ref prompt separator,
      materializeResumeArgv template ref prompt separator = (template.flatMap fun arg =>
        if separator ∧ partsOf arg = [.prompt] then ["--", prompt]
        else [String.ofList ((partsOf arg).flatMap (Part.value ref prompt))]) ∧
      (materializeResumeArgv template ref prompt separator).head? = template.head? ∧
      (materializeResumeArgv template ref prompt separator).length =
        template.length + if separator then template.count "\x7bprompt\x7d" else 0 := by
  obtain ⟨hallowed, hfirst, hone⟩ := accepted_of_validate h
  have hexpansion : ∀ ref prompt separator,
      materializeResumeArgv template ref prompt separator = (template.flatMap fun arg =>
        if separator ∧ partsOf arg = [.prompt] then ["--", prompt]
        else [String.ofList ((partsOf arg).flatMap (Part.value ref prompt))]) := by
    intro ref prompt separator
    refine flatMap_congr fun arg harg => ?_
    simp only [partsOf_eq_prompt (hallowed arg harg), join_expand (hallowed arg harg), Bool.and_eq_true, beq_iff_eq]
  refine ⟨fun arg harg => ⟨text_partsOf (hallowed arg harg), fun c => literal_partsOf (hallowed arg harg)⟩, ?_,
    fun ref prompt separator => ⟨hexpansion ref prompt separator, ?_, length_materialize ..⟩⟩
  · rw [count_flatMap, ← hone, count_flatMap]
    exact congrArg sum (map_congr_left fun arg harg => count_partsOf (hallowed arg harg))
  · rw [hexpansion]
    cases template with
    | nil => rfl
    | cons first rest =>
      rw [headD_cons] at hfirst
      have hplain := hallowed first mem_cons_self
      have hprompt : ¬ partsOf first = [.prompt] := by
        rw [partsOf_eq_prompt hplain]
        rintro rfl
        revert hfirst
        decide +kernel
      simp [hprompt, expand_of_literal hplain hfirst]

theorem resumeArgv_not_steered_dashes :
    materializeResumeArgv ["cli", "--resume=\x7bcliResumeRef\x7d", "\x7bprompt\x7d"] "-\x7bprompt\x7d"
      "--x \x7bcliResumeRef\x7d" true = ["cli", "--resume=-\x7bprompt\x7d", "--", "--x \x7bcliResumeRef\x7d"] := by
  have haccepted : validateCommandResumeSpec ["cli", "--resume=\x7bcliResumeRef\x7d", "\x7bprompt\x7d"] =
      .ok ["cli", "--resume=\x7bcliResumeRef\x7d", "\x7bprompt\x7d"] := by decide +kernel
  refine ((resumeArgv_not_steered haccepted).2.2 _ _ _).1.trans ?_
  decide +kernel

end AutoHarness.Placement
