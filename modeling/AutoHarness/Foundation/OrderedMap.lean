import Mathlib.Data.List.Nodup

/-! Maps visited in the order of insertion. A pass visits every key once, so the visits do not disturb each other. -/

namespace AutoHarness.Foundation
open List

universe u v w

structure OrderedMap (κ : Type u) (ν : Type v) where
  entries : List (κ × ν)
  nodup : (entries.map Prod.fst).Nodup

namespace OrderedMap

variable {κ : Type u} {ν : Type v} {before after l : List (κ × ν)} {σ : Type w}

def empty : OrderedMap κ ν := ⟨[], List.nodup_nil⟩

theorem ext_entries {m n : OrderedMap κ ν} (h : m.entries = n.entries) : m = n := by
  cases m
  cases n
  cases h
  rfl

section Ops

variable [DecidableEq κ]

def contains (m : OrderedMap κ ν) (k : κ) : Bool := m.entries.any fun e => e.1 == k

def get? (m : OrderedMap κ ν) (k : κ) : Option ν := (m.entries.find? fun e => e.1 = k).map Prod.snd

def insertNew (m : OrderedMap κ ν) (k : κ) (v : ν) : OrderedMap κ ν :=
  if h : m.contains k = true then m
  else
    { entries := m.entries ++ [(k, v)]
      nodup := by
        have hk : ∀ e ∈ m.entries, e.1 ≠ k := fun e he hek =>
          h (List.any_eq_true.mpr ⟨e, he, beq_iff_eq.mpr hek⟩)
        rw [List.map_append, List.map_singleton, List.nodup_append]
        refine ⟨m.nodup, List.nodup_singleton _, fun a ha b hb => ?_⟩
        obtain ⟨e, he, rfl⟩ := List.mem_map.mp ha
        rw [List.mem_singleton.mp hb]
        exact hk e he }

def erase (m : OrderedMap κ ν) (k : κ) : OrderedMap κ ν where
  entries := m.entries.filter fun e => e.1 != k
  nodup := (List.filter_sublist.map Prod.fst).nodup m.nodup

/-- Give a key a value: a key that is there stays where it is, another one is added at the end. -/
def set (m : OrderedMap κ ν) (k : κ) (v : ν) : OrderedMap κ ν :=
  if m.contains k then
    { entries := m.entries.map fun e => if e.1 = k then (k, v) else e
      nodup := by
        have hkeys : (m.entries.map fun e => if e.1 = k then (k, v) else e).map Prod.fst = m.entries.map Prod.fst := by
          rw [List.map_map]
          refine List.map_congr_left fun e _ => ?_
          by_cases h : e.1 = k <;> simp [h]
        rw [hkeys]
        exact m.nodup }
  else m.insertNew k v

variable {m : OrderedMap κ ν} {k : κ} {e : κ × ν}

theorem mem_erase : e ∈ (m.erase k).entries ↔ e ∈ m.entries ∧ e.1 ≠ k := by
  simp [erase]

variable {v : ν}

theorem get?_eq_some : m.get? k = some v ↔ (k, v) ∈ m.entries := by
  rw [get?, Option.map_eq_some_iff]
  constructor
  · rintro ⟨e, he, rfl⟩
    have hk : e.1 = k := by simpa using find?_some he
    exact hk ▸ mem_of_find?_eq_some he
  · intro h
    cases hfind : m.entries.find? fun e => e.1 = k with
    | none => exact absurd (decide_eq_true rfl) (find?_eq_none.mp hfind _ h)
    | some e =>
      have hk : e.1 = k := by simpa using find?_some hfind
      exact ⟨e, rfl, congrArg Prod.snd (inj_on_of_nodup_map m.nodup (mem_of_find?_eq_some hfind) h hk)⟩

theorem entries_set (h : e ∈ m.entries) (hk : e.1 = k) :
    (m.set k v).entries = m.entries.map fun e => if e.1 = k then (k, v) else e := by
  have hin : m.contains k = true := any_eq_true.mpr ⟨e, h, beq_iff_eq.mpr hk⟩
  rw [set, if_pos hin]

theorem mem_set (h : e ∈ (m.set k v).entries) : e = (k, v) ∨ (e ∈ m.entries ∧ e.1 ≠ k) := by
  unfold set at h
  split at h
  · obtain ⟨x, hx, rfl⟩ := mem_map.mp h
    by_cases hk : x.1 = k
    · simp [hk]
    · simp [hk, hx]
  · rename_i hnot
    have hne : ∀ x ∈ m.entries, x.1 ≠ k := fun x hx hk =>
      hnot (any_eq_true.mpr ⟨x, hx, beq_iff_eq.mpr hk⟩)
    simp only [insertNew, hnot, Bool.false_eq_true, dite_false, mem_append, mem_singleton] at h
    obtain h | rfl := h
    · exact .inr ⟨h, hne e h⟩
    · exact .inl rfl

theorem mem_set_self (m : OrderedMap κ ν) (k : κ) (v : ν) : (k, v) ∈ (m.set k v).entries := by
  unfold set
  split
  · next h =>
    obtain ⟨x, hx, hk⟩ := any_eq_true.mp h
    exact mem_map.mpr ⟨x, hx, if_pos (beq_iff_eq.mp hk)⟩
  · next h =>
    rw [insertNew, dif_neg h]
    exact mem_append_right _ (mem_singleton_self _)

theorem mem_set_of_ne (h : e ∈ m.entries) (hne : e.1 ≠ k) : e ∈ (m.set k v).entries := by
  unfold set
  split
  · exact mem_map.mpr ⟨e, h, if_neg hne⟩
  · next hk =>
    rw [insertNew, dif_neg hk]
    exact mem_append_left _ h

theorem mem_set_iff : e ∈ (m.set k v).entries ↔ e = (k, v) ∨ (e ∈ m.entries ∧ e.1 ≠ k) := by
  refine ⟨mem_set, ?_⟩
  rintro (rfl | ⟨he, hne⟩)
  · exact mem_set_self m k v
  · exact mem_set_of_ne he hne

theorem contains_eq_false : m.contains k = false ↔ ∀ e ∈ m.entries, e.1 ≠ k := by
  simp [contains]

theorem erase_set (m : OrderedMap κ ν) (k : κ) (v : ν) : (m.set k v).erase k = m.erase k := by
  apply ext_entries
  unfold set
  split
  · simp only [erase, filter_map]
    have hkeep : ∀ e : κ × ν, ((fun e => e.1 != k) ∘ fun e => if e.1 = k then (k, v) else e) e = (e.1 != k) := by
      intro e
      by_cases h : e.1 = k <;> simp [h]
    rw [filter_congr fun e _ => hkeep e]
    refine (map_congr_left fun e he => ?_).trans (map_id _)
    exact if_neg (by simpa using of_mem_filter he)
  · next h =>
    rw [insertNew, dif_neg h]
    simp [erase]

theorem entries_set_erase (m : OrderedMap κ ν) (k : κ) (v : ν) :
    ((m.erase k).set k v).entries = (m.entries.filter fun e => e.1 != k) ++ [(k, v)] := by
  have hnot : ¬ (m.erase k).contains k = true := by simp [contains, erase]
  rw [set, if_neg hnot, insertNew, dif_neg hnot]
  rfl

theorem foldl_erase_eq_iff {ks : List κ} : ks.foldl erase m = m ↔ ∀ k ∈ ks, m.contains k = false := by
  have hentries : ∀ (ks : List κ) (m : OrderedMap κ ν),
      (ks.foldl erase m).entries = m.entries.filter fun e => !ks.contains e.1 := by
    intro ks
    induction ks with
    | nil => simp
    | cons k ks ih =>
      intro m
      rw [foldl_cons, ih, erase, filter_filter]
      refine filter_congr fun e _ => ?_
      by_cases h : e.1 = k <;> simp [h]
  constructor
  · intro h k hk
    refine contains_eq_false.mpr fun e he hek => ?_
    rw [← h, hentries] at he
    simpa [hek, hk] using of_mem_filter he
  · intro h
    apply ext_entries
    rw [hentries]
    refine filter_eq_self.mpr fun e he => ?_
    by_contra hmem
    exact contains_eq_false.mp (h e.1 (by simpa using hmem)) e he rfl

end Ops

theorem split_fst_ne (m : OrderedMap κ ν) {k : κ} {v : ν}
    (h : m.entries = before ++ (k, v) :: after) : (∀ e ∈ before, e.1 ≠ k) ∧ ∀ e ∈ after, e.1 ≠ k := by
  have hn := m.nodup
  rw [h, map_append, map_cons, nodup_append, nodup_cons] at hn
  obtain ⟨-, ⟨hafter, -⟩, hbefore⟩ := hn
  exact ⟨fun e he => hbefore _ (mem_map_of_mem he) _ mem_cons_self, fun e he hk => hafter (mem_map.mpr ⟨e, he, hk⟩)⟩

theorem foldl_keeps {visit : σ → κ × ν → σ} {P : σ → Prop} {k : κ} {s : σ}
    (hl : ∀ e ∈ l, e.1 ≠ k) (hvisit : ∀ s e, e.1 ≠ k → P s → P (visit s e)) (hs : P s) : P (l.foldl visit s) :=
  foldlRecOn l visit hs fun s hs e he => hvisit s e (hl e he) hs

theorem foldl_split (visit : σ → κ × ν → σ) {m : OrderedMap κ ν} {e : κ × ν}
    (h : m.entries = before ++ e :: after) (s : σ) :
    m.entries.foldl visit s = after.foldl visit (visit (before.foldl visit s) e) := by
  rw [h, foldl_append, foldl_cons]

end OrderedMap

end AutoHarness.Foundation
