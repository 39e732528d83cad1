import Mathlib.Data.List.Perm.Subperm
import Mathlib.Algebra.Order.BigOperators.Group.List
import AutoHarness.Foundation.TextKeys
import AutoHarness.Logs.Buffer

/-! What is read back of one attempt. A batch stored but reported failed is sent again under another range, so it is
stored twice; only the archive hides that. -/

namespace AutoHarness.Logs
open Foundation List

/-! ## Sort keys -/

variable {t t' seq seq' : ℕ}

theorem formatLogSortKey_inj (h : formatLogSortKey t seq = formatLogSortKey t' seq') : seq = seq' := by
  have hdigits := congrArg Prod.snd (toLex.injective h)
  rw [← value_leftpad seq 10, ← value_leftpad seq' 10]
  exact congrArg (Nat.ofDigitChars 10 · 0) hdigits

theorem formatLogSortKey_lt (ht : t ≤ t') (hseq : seq < seq') (hbound : seq' < 10 ^ 10) :
    formatLogSortKey t seq < formatLogSortKey t' seq' := by
  rw [formatLogSortKey, formatLogSortKey, Prod.Lex.toLex_lt_toLex]
  rcases Nat.lt_or_eq_of_le ht with hlt | heq
  · exact .inl hlt
  · exact .inr ⟨heq, leftpad_lt_leftpad (by decide) hseq hbound⟩

def KeysInOrder (chunks : List SessionLogChunk) : Prop :=
  chunks.Pairwise fun a b => formatLogSortKey a.timestamp a.seq ≤ formatLogSortKey b.timestamp b.seq

instance (chunks : List SessionLogChunk) : Decidable (KeysInOrder chunks) :=
  inferInstanceAs (Decidable (List.Pairwise _ _))

theorem keysInOrder_of_lt {chunks : List SessionLogChunk} (hseq : Increasing (·.seq) chunks)
    (htime : chunks.Pairwise fun a b => a.timestamp ≤ b.timestamp) (hbound : ∀ c ∈ chunks, c.seq < 10 ^ 10) :
    KeysInOrder chunks := by
  refine (hseq.and htime).imp_of_mem fun {a b} _ hb hab => ?_
  exact (formatLogSortKey_lt hab.2 hab.1 (hbound b hb)).le

/-! ## What is stored -/

/-- The objects of the session are the batches PUT so far and, once it is stored, the archive. -/
structure Stored (sessionId : String) (s : LogPartBuffer × LogObjects) : Prop where
  kept : Kept s.1
  entries : ∀ e : LogObjectKey × List SessionLogChunk, e.1.sessionId = sessionId →
    (e ∈ s.2.entries ↔ (∃ batch, Sent s.1 batch ∧ e = (sessionLogPartKey sessionId batch, batch)) ∨
      (s.1.archived = true ∧ e = (sessionLogArchiveKey sessionId, s.1.pushed)))
  archived : s.1.archived = true → Settled s.1

section Stored

variable {sessionId : String} {objects : LogObjects} {s s' : LogPartBuffer × LogObjects}

theorem Stored.start (nextSeq : ℕ) (hempty : ∀ e ∈ objects.entries, e.1.sessionId ≠ sessionId) :
    Stored sessionId ({ nextSeq := nextSeq }, objects) where
  kept := Kept.start nextSeq
  entries := fun e he => by
    constructor
    · intro hmem
      exact absurd he (hempty e hmem)
    · rintro (⟨batch, hsent | hsent, -⟩ | ⟨harch, -⟩)
      · cases hsent
      · cases hsent
      · cases harch
  archived := fun h => nomatch h

theorem Stored.step {event : Event} (h : Stored sessionId s)
    (hs : step sessionId s event = some s') : Stored sessionId s' := by
  obtain ⟨hkept, hmoved⟩ := h.kept.step hs
  generalize upload s.1 event = stored at hmoved
  cases hmoved with
  | still hsent hflag hrest =>
    refine ⟨hkept, fun e he => ?_, fun harch => (hrest (h.archived (hflag ▸ harch))).2⟩
    rw [h.entries e he]
    simp only [hsent, hflag]
    refine or_congr Iff.rfl (and_congr_right fun harch => ?_)
    rw [(hrest (h.archived harch)).1]
  | @part b b' objects batch hb hsent hflag hpushed =>
    have hopen : b.archived = false := by
      rw [← Bool.not_eq_true]
      intro harch
      rw [(h.archived harch).2.1] at hb
      cases hb
    have hbatch : batch ≠ [] ∧ batch <:+: b.pushed := ⟨h.kept.flushing batch hb, h.kept.infix_flushing hb⟩
    refine ⟨hkept, fun e he => ?_, fun harch => absurd (hflag.symm.trans harch) (by simp [hopen])⟩
    have hold := h.entries e he
    simp only [hopen, Bool.false_eq_true, false_and, or_false] at hold
    simp only [hflag, hopen, Bool.false_eq_true, false_and, or_false, hsent]
    rw [putSessionLogPart, OrderedMap.mem_set_iff, hold]
    constructor
    · rintro (rfl | ⟨⟨x, hx, rfl⟩, -⟩)
      · exact ⟨batch, .inr rfl, rfl⟩
      · exact ⟨x, .inl hx, rfl⟩
    · rintro ⟨x, hx | rfl, rfl⟩
      · by_cases hkey : sessionLogPartKey sessionId x = sessionLogPartKey sessionId batch
        · -- one range is one piece of what was pushed
          rw [h.kept.eq_of_partKey_eq (h.kept.sent hx) hbatch hkey]
          exact .inl rfl
        · exact .inr ⟨⟨x, hx, rfl⟩, hkey⟩
      · exact .inl rfl
  | archive hsettled =>
    refine ⟨hkept, fun e he => ?_, fun _ => hsettled⟩
    simp only [true_and]
    rw [putSessionLogArchive, OrderedMap.mem_set_iff, h.entries e he]
    constructor
    · rintro (rfl | ⟨hpart | ⟨-, rfl⟩, -⟩)
      · exact .inr rfl
      · exact .inl hpart
      · exact .inr rfl
    · rintro (⟨batch, hsent, rfl⟩ | rfl)
      · exact .inr ⟨.inl ⟨batch, hsent, rfl⟩, by rintro ⟨⟩⟩
      · exact .inl rfl

theorem Stored.run {events : List Event} (h : Stored sessionId s)
    (hrun : events.foldlM (Logs.step sessionId) s = some s') : Stored sessionId s' := by
  induction events generalizing s with
  | nil =>
    cases hrun
    exact h
  | cons event events ih =>
    obtain ⟨s₁, hs₁, hrun⟩ := Option.bind_eq_some_iff.mp hrun
    exact ih (h.step hs₁) hrun

end Stored

/-! ## What is read -/

section Read

variable {sessionId : String} {b : LogPartBuffer} {objects : LogObjects}

theorem insertionSort_eq_pushed (hinc : Increasing (·.seq) b.pushed) {records : List LogRecord}
    (hperm : records.Perm (b.pushed.map (toLogRecord sessionId))) :
    records.insertionSort recordOrder = b.pushed.map (toLogRecord sessionId) ↔ KeysInOrder b.pushed := by
  have htotal : Std.Total recordOrder := ⟨fun a c => le_total a.timestampSeq c.timestampSeq⟩
  have htrans : IsTrans LogRecord recordOrder := ⟨fun _ _ _ => le_trans⟩
  have hsorted := pairwise_insertionSort recordOrder records
  constructor
  · intro heq
    rw [heq, pairwise_map] at hsorted
    exact hsorted
  · intro hkeys
    have hpushed : (b.pushed.map (toLogRecord sessionId)).Pairwise recordOrder := pairwise_map.mpr hkeys
    refine List.Perm.eq_of_pairwise (fun x y hx hy hxy hyx => ?_) hsorted hpushed
      ((perm_insertionSort recordOrder records).trans hperm)
    -- two records of one sort key are those of one chunk
    obtain ⟨c, hc, rfl⟩ := mem_map.mp (hperm.subset ((mem_insertionSort _).mp hx))
    obtain ⟨d, hd, rfl⟩ := mem_map.mp hy
    have hkey : formatLogSortKey c.timestamp c.seq = formatLogSortKey d.timestamp d.seq := le_antisymm hxy hyx
    rw [hinc.inj hc hd (formatLogSortKey_inj hkey)]

def listedBatches (objects : LogObjects) (sessionId : String) : List (List SessionLogChunk) :=
  ((sessionObjects objects sessionId).insertionSort keyOrder).map Prod.snd

theorem flatMap_parse (sessionId : String) (listed : List (LogObjectKey × List SessionLogChunk)) :
    listed.flatMap (parseGzipJsonlLogs sessionId) = (listed.map Prod.snd).flatten.map (toLogRecord sessionId) := by
  induction listed with
  | nil => rfl
  | cons e listed ih =>
    rw [flatMap_cons, ih, map_cons, flatten_cons, map_append]
    rfl

section

variable (h : Stored sessionId (b, objects)) (hopen : b.archived = false)
include h hopen

theorem Stored.mem_listedBatches
    {batch : List SessionLogChunk} : batch ∈ listedBatches objects sessionId ↔ Sent b batch := by
  have hentry : ∀ e, e ∈ sessionObjects objects sessionId ↔
      ∃ x, Sent b x ∧ e = (sessionLogPartKey sessionId x, x) := by
    intro e
    rw [sessionObjects, mem_filter, decide_eq_true_iff]
    constructor
    · rintro ⟨hmem, hid⟩
      have := (h.entries e hid).mp hmem
      simpa only [hopen, Bool.false_eq_true, false_and, or_false] using this
    · rintro ⟨x, hx, rfl⟩
      exact ⟨(h.entries _ rfl).mpr (.inl ⟨x, hx, rfl⟩), rfl⟩
  rw [listedBatches, mem_map]
  constructor
  · rintro ⟨e, he, rfl⟩
    obtain ⟨x, hx, rfl⟩ := (hentry e).mp ((mem_insertionSort _).mp he)
    exact hx
  · intro hsent
    exact ⟨_, (mem_insertionSort _).mpr ((hentry _).mpr ⟨batch, hsent, rfl⟩), rfl⟩

theorem Stored.nodup_listedBatches : (listedBatches objects sessionId).Nodup := by
  have hkeys : ((sessionObjects objects sessionId).insertionSort keyOrder).Nodup := by
    rw [(perm_insertionSort keyOrder _).nodup_iff]
    exact (List.Nodup.of_map _ objects.nodup).filter _
  rw [listedBatches, nodup_map_iff_inj_on hkeys]
  intro e he e' he' heq
  have hkey : ∀ x ∈ (sessionObjects objects sessionId).insertionSort keyOrder,
      x = (sessionLogPartKey sessionId x.2, x.2) := by
    intro x hx
    obtain ⟨hmem, hid⟩ := mem_filter.mp ((mem_insertionSort _).mp hx)
    have hpart := (h.entries x (of_decide_eq_true hid)).mp hmem
    simp only [hopen, Bool.false_eq_true, false_and, or_false] at hpart
    obtain ⟨y, -, rfl⟩ := hpart
    rfl
  rw [hkey e he, hkey e' he', heq]

theorem Stored.read_of_open : (readSessionLogObjects objects sessionId).getD [] =
      ((listedBatches objects sessionId).flatten.map (toLogRecord sessionId)).insertionSort recordOrder := by
  rw [readObjects_of_parts, flatMap_parse, listedBatches]
  rintro e he hkey
  have hid : e.1.sessionId = sessionId := by rw [hkey]; rfl
  have hpart := (h.entries e hid).mp he
  simp only [hopen, Bool.false_eq_true, false_and, or_false] at hpart
  obtain ⟨x, -, rfl⟩ := hpart
  cases hkey

/-- Without an archive: when the sort keys are in order and no unconfirmed batch is left. -/
theorem Stored.read_open_iff (hflat : b.uploaded.flatten = b.pushed) :
    (readSessionLogObjects objects sessionId).getD [] = b.pushed.map (toLogRecord sessionId) ↔
      KeysInOrder b.pushed ∧ ∀ batch ∈ b.unconfirmed, batch ∈ b.uploaded := by
  rw [h.read_of_open hopen]
  by_cases hleft : ∀ batch ∈ b.unconfirmed, batch ∈ b.uploaded
  · have hperm : (listedBatches objects sessionId).Perm b.uploaded := by
      rw [perm_ext_iff_of_nodup (h.nodup_listedBatches hopen) h.kept.nodup_uploaded]
      intro batch
      rw [h.mem_listedBatches hopen]
      exact ⟨fun hs => hs.elim id (hleft batch), .inl⟩
    have hrecords := (hflat ▸ hperm.flatten).map (toLogRecord sessionId)
    rw [insertionSort_eq_pushed h.kept.increasing hrecords]
    exact ⟨fun hk => ⟨hk, hleft⟩, And.left⟩
  · -- the batch left over is read besides all confirmed ones
    refine ⟨fun heq => absurd heq ?_, fun hr => absurd hr.2 hleft⟩
    obtain ⟨batch, hunconfirmed, hnot⟩ : ∃ batch ∈ b.unconfirmed, batch ∉ b.uploaded := by
      simpa only [not_forall, exists_prop] using hleft
    have hnodup : (batch :: b.uploaded).Nodup := nodup_cons.mpr ⟨hnot, h.kept.nodup_uploaded⟩
    have hsub : batch :: b.uploaded ⊆ listedBatches objects sessionId := by
      intro x hx
      rw [h.mem_listedBatches hopen]
      rcases mem_cons.mp hx with rfl | hx
      · exact .inr hunconfirmed
      · exact .inl hx
    have hlength : ((batch :: b.uploaded).map length).sum ≤
        ((listedBatches objects sessionId).map length).sum := by
      obtain ⟨m, hm, hsublist⟩ := hnodup.subperm hsub
      rw [← (hm.map length).sum_nat]
      exact (hsublist.map length).sum_le_sum fun _ _ => Nat.zero_le _
    have hpos : 0 < batch.length := length_pos_of_ne_nil (h.kept.unconfirmed batch hunconfirmed).1
    intro heq
    have hcount := congrArg length heq
    rw [length_insertionSort, length_map, length_map, length_flatten, ← hflat, length_flatten] at hcount
    rw [map_cons, sum_cons] at hlength
    omega

end

theorem Stored.read_iff (h : Stored sessionId (b, objects)) (hflushing : b.flushing = none) (hpending : b.pending = []) :
    (readSessionLogObjects objects sessionId).getD [] = b.pushed.map (toLogRecord sessionId) ↔
      KeysInOrder b.pushed ∧ (b.archived = true ∨ ∀ batch ∈ b.unconfirmed, batch ∈ b.uploaded) := by
  cases hopen : b.archived with
  | false =>
    rw [h.read_open_iff hopen (h.kept.flatten_uploaded hflushing hpending)]
    simp
  | true =>
    have hentry : (sessionLogArchiveKey sessionId, b.pushed) ∈ objects.entries :=
      (h.entries _ rfl).mpr (.inr ⟨hopen, rfl⟩)
    rw [readObjects_of_archive hentry, Option.getD_some, insertionSort_eq_pushed h.kept.increasing (List.Perm.refl _)]
    simp

end Read

/-- The chunks are read back once each and in order exactly when their sort keys are, and every batch reported failed
was stored again as it was or the archive is stored. -/
theorem read_back_exact_iff (sessionId : String) (nextSeq : ℕ) (objects₀ : LogObjects)
    (hempty : ∀ e ∈ objects₀.entries, e.1.sessionId ≠ sessionId) (events : List Event) (b : LogPartBuffer)
    (objects : LogObjects) (hrun : events.foldlM (step sessionId) ({ nextSeq := nextSeq }, objects₀) = some (b, objects))
    (hflushing : b.flushing = none) (hpending : b.pending = []) :
    (readSessionLogObjects objects sessionId).getD [] = b.pushed.map (toLogRecord sessionId) ↔
      KeysInOrder b.pushed ∧ (b.archived = true ∨ ∀ batch ∈ b.unconfirmed, batch ∈ b.uploaded) :=
  ((Stored.start nextSeq hempty).run hrun).read_iff hflushing hpending

def retriedUpload : List Event :=
  [.push 0 .stdout "a" none, .flush, .answered .lost, .push 0 .stdout "b" none, .flush, .answered .stored]

theorem read_back_exact_retry : ∃ b objects,
    retriedUpload.foldlM (step "s") ({}, OrderedMap.empty) = some (b, objects) ∧ b.pushed.map (·.content) = ["a", "b"] ∧
    (readSessionLogObjects objects "s").getD [] = b.pushed.map (toLogRecord "s") := by
  refine ⟨_, _, rfl, rfl, (read_back_exact_iff "s" 0 OrderedMap.empty (fun _ he => nomatch he) retriedUpload _ _
    rfl rfl rfl).mpr ⟨keysInOrder_of_lt ?_ ?_ ?_, .inr fun _ hb => nomatch hb⟩⟩
  · exact pairwise_pair.mpr (by decide)
  · exact pairwise_pair.mpr (by decide)
  · decide

/-- A PUT that was stored but reported failed leaves its chunk to be read twice when the archive is lost. -/
theorem read_back_duplicates : ∃ b objects,
    [Event.push 0 .stdout "a" none, .flush, .answered .unconfirmed, .push 1 .stdout "b" none, .flush,
      .answered .stored, .flushFinal, .archive .lost].foldlM (step "s") ({}, OrderedMap.empty) = some (b, objects) ∧
    b.flushing = none ∧ b.pending = [] ∧ b.pushed.map (·.content) = ["a", "b"] ∧
    ((readSessionLogObjects objects "s").getD []).map (·.content) = ["a", "a", "b"] :=
  ⟨_, _, rfl, rfl, rfl, rfl, by decide +kernel⟩

end AutoHarness.Logs
