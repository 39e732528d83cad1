import Mathlib.Data.List.Pairwise
import AutoHarness.Daemon.Workspaces

/-! When no two claimed workspaces share a directory. The checks of an inventory do not see the claims whose slots it
no longer lists. -/

namespace AutoHarness.Daemon.Workspaces
open Foundation List

def Apart (p q : Path) : Prop := ¬ p <+: q ∧ ¬ q <+: p

instance (p q : Path) : Decidable (Apart p q) := inferInstanceAs (Decidable (_ ∧ _))

theorem Apart.symm {p q : Path} (h : Apart p q) : Apart q p := ⟨h.2, h.1⟩

theorem apart_iff {p q : Path} : Apart p q ↔ overlaps p q = false := by
  simp [Apart, overlaps, isWithinRoot, isPrefixOf_iff_prefix, ← Bool.not_eq_true]

def FileSystem.directory (fs : FileSystem) (path : String) : Option Path := fs.realpath (fs.resolve path)

/-! ## What the checks say of a path -/

section Checks

variable {fs : FileSystem}

variable {resolved : Path}

theorem realpath_resolveUp {reversed : List String} {missing : Path}
    (h : resolveUp fs reversed missing = .ok resolved) :
    fs.realpath resolved = fs.realpath (reversed.reverse ++ missing) := by
  induction reversed generalizing missing with
  | nil =>
    rw [resolveUp] at h
    split at h
    · next c hc =>
      cases h
      exact (fs.realpath_append [] c missing hc).symm
    · split at h <;> cases h
  | cons name parent ih =>
    rw [resolveUp] at h
    split at h
    · next c hc =>
      cases h
      exact (fs.realpath_append _ c missing hc).symm
    · split at h
      · cases h
      · have hup := ih h
        rwa [reverse_cons, append_assoc]

variable {path : Path}

theorem realpath_resolved (h : resolvePathForRootCheck fs path = .ok resolved) :
    fs.realpath resolved = fs.realpath path := by
  have hup := realpath_resolveUp h
  rwa [reverse_reverse, append_nil] at hup

theorem resolve_of_realpath {c : Path} (h : fs.realpath path = some c) : resolvePathForRootCheck fs path = .ok c := by
  unfold resolvePathForRootCheck
  cases hrev : path.reverse with
  | nil =>
    rw [reverse_eq_nil_iff.mp hrev] at h
    rw [resolveUp, h]
    simp
  | cons name parent =>
    rw [resolveUp, ← hrev, reverse_reverse, h]
    simp

variable {roots : List String}

theorem resolve_of_withinRoots {text : String}
    (h : assertWithinRoots fs path text roots = .ok resolved) : resolvePathForRootCheck fs path = .ok resolved := by
  unfold assertWithinRoots at h
  split at h
  · cases h
  · next r hr =>
    dsimp only at h
    split at h
    · cases h
    · split at h
      · cases h
        exact hr
      · cases h

theorem resolve_of_allowed {path : String} (hroots : roots ≠ [])
    (h : assertPathWithinAllowedRoots fs path roots = .ok resolved) :
    resolvePathForRootCheck fs (fs.resolve path) = .ok resolved := by
  unfold assertPathWithinAllowedRoots at h
  rw [if_neg (by simpa using hroots)] at h
  split at h
  · cases h
  · exact resolve_of_withinRoots h

theorem realpath_of_checkedPath {path : String} {cwd : Path}
    (h : checkedPath fs path roots = .ok cwd) : fs.directory path = some cwd := by
  unfold checkedPath at h
  split at h
  · cases h
  · next hroots =>
    split at h
    · cases h
    · next checked hchecked =>
      dsimp only at h
      split at h
      · cases h
      · unfold assertExistingDirectoryWithinAllowedRoots at h
        split at h
        · cases h
        · next resolved hresolved =>
          split at h
          · cases h
          · next c hc =>
            split at h
            · cases h
              rw [FileSystem.directory, ← realpath_resolved (resolve_of_allowed (by simpa using hroots) hchecked),
                ← realpath_resolved (resolve_of_withinRoots hresolved), hc]
            · cases h

theorem canonical_eq {path : String} {p q : Path} (h : canonical fs roots path = .ok q)
    (hreal : fs.directory path = some p) : q = p := by
  have hresolve : resolvePathForRootCheck fs (fs.resolve path) = .ok q := by
    unfold canonical at h
    split at h
    · exact h
    · next hroots => exact resolve_of_allowed (by simpa using hroots) h
  exact Except.ok.inj (hresolve.symm.trans (resolve_of_realpath hreal))

theorem canonicalSlots_spec {placed : List PlacedSlot} {l : List (PlacedSlot × Path)}
    (h : canonicalSlots fs roots placed = .ok l) :
    l.map Prod.fst = placed ∧ ∀ x ∈ l, canonical fs roots x.1.slot.path = .ok x.2 := by
  induction placed generalizing l with
  | nil =>
    cases h
    exact ⟨rfl, fun _ hx => absurd hx not_mem_nil⟩
  | cons slot rest ih =>
    unfold canonicalSlots at h
    split at h
    · next path paths hpath hpaths =>
      cases h
      obtain ⟨hmap, hall⟩ := ih hpaths
      refine ⟨by rw [map_cons, hmap], fun x hx => ?_⟩
      rcases mem_cons.mp hx with rfl | hx
      · exact hpath
      · exact hall x hx
    · cases h
    · cases h

theorem pairwise_of_slotOverlap {l : List (PlacedSlot × Path)} (h : slotOverlap l = none) :
    l.Pairwise fun a b => Apart a.2 b.2 := by
  induction l with
  | nil => exact List.Pairwise.nil
  | cons slot rest ih =>
    rw [slotOverlap, Option.or_eq_none_iff, findSome?_eq_none_iff] at h
    refine List.Pairwise.cons (fun other hother => apart_iff.mpr ?_) (ih h.2)
    have hnot := h.1 other hother
    rw [← Bool.not_eq_true]
    intro htrue
    rw [if_pos htrue] at hnot
    cases hnot

def SlotsApart (fs : FileSystem) (config : DaemonConfig) : Prop :=
  ∀ s ∈ config.slots, ∀ t ∈ config.slots, s.key ≠ t.key →
    ∀ p ∈ fs.directory s.slot.path, ∀ q ∈ fs.directory t.slot.path, Apart p q

variable {config : DaemonConfig}

theorem slotsApart_of_allowed (h : workspacePathsAllowed fs config roots = .ok ()) : SlotsApart fs config := by
  intro s hs t ht hne p hp q hq
  unfold workspacePathsAllowed at h
  rw [if_neg fun he => ne_nil_of_mem hs (isEmpty_iff.mp he)] at h
  split at h
  · cases h
  · cases h
  · next slots targets hslots htargets =>
    split at h
    · cases h
    · next hnone =>
      obtain ⟨hmap, hcanonical⟩ := canonicalSlots_spec hslots
      have hpairs := pairwise_of_slotOverlap (Option.or_eq_none_iff.mp hnone).2
      rw [← hmap] at hs ht
      obtain ⟨x, hx, rfl⟩ := mem_map.mp hs
      obtain ⟨y, hy, rfl⟩ := mem_map.mp ht
      have hxy : x ≠ y := fun he => hne (by rw [he])
      have hsymm : Std.Symm fun a b : PlacedSlot × Path => Apart a.2 b.2 := ⟨fun _ _ => Apart.symm⟩
      have hapart := hpairs.forall hx hy hxy
      rwa [canonical_eq (hcanonical x hx) hp, canonical_eq (hcanonical y hy) hq] at hapart

theorem slotsApart_of_ensureAll {candidate : DaemonConfig} {busy : List SlotKey}
    (h : ensureAll fs config busy candidate = .ok ()) : SlotsApart fs candidate := by
  unfold ensureAll at h
  split at h
  · cases h
  · next hallowed =>
    unfold assertDaemonPathsAllowed at hallowed
    split at hallowed
    · cases hallowed
    · next hworkspace => exact slotsApart_of_allowed hworkspace

theorem mem_slots_of_find {poolId slotId : String} {slot : WorkspaceSlotConfig}
    (h : config.find poolId slotId = .ok slot) : ⟨poolId, slot⟩ ∈ config.slots ∧ slot.id = slotId := by
  unfold DaemonConfig.find at h
  split at h
  · cases h
  · next pool hpool =>
    split at h
    · cases h
    · next found hfound =>
      cases h
      have hpoolId := find?_some hpool
      have hslotId := find?_some hfound
      refine ⟨mem_flatMap.mpr ⟨pool, mem_of_find?_eq_some hpool, mem_map.mpr
        ⟨slot, mem_of_find?_eq_some hfound, ?_⟩⟩, beq_iff_eq.mp hslotId⟩
      rw [beq_iff_eq.mp hpoolId]

end Checks

/-! ## Claims that keep apart -/

def RootsOutside (fs : FileSystem) (roots : List String) (config : DaemonConfig) (claims : List Claim) : Prop :=
  ∀ root ∈ roots, ∀ r ∈ fs.directory root,
    (∀ s ∈ config.slots, ∀ p ∈ fs.directory s.slot.path, ¬ p <+: r) ∧ ∀ c ∈ claims, c.live = true → ¬ c.cwd <+: r

def OutsideClaims (fs : FileSystem) (config : DaemonConfig) (claims : List Claim) : Prop :=
  ∀ c ∈ claims, c.live = true → ∀ s ∈ config.slots, s.key ≠ c.key → ∀ p ∈ fs.directory s.slot.path, Apart p c.cwd

/-- A new inventory stays clear of the live claims on other slots, no root comes to lie in a workspace, and a slot is
claimed after the releases of its earlier claims. -/
def Careful (fs : FileSystem) (m : WorkspaceManager) : Event → Prop
  | .claim poolId slotId => ∀ c ∈ m.claims, c.key ≠ (poolId, slotId) ∨ c.live = true
  | .apply clearsPolicy => ∀ next ∈ m.candidate, OutsideClaims fs next m.claims ∧
      RootsOutside fs ((if clearsPolicy then none else m.policyRoots).getD next.allowedRoots) next m.claims
  | .setAllowedRootsPolicy roots => RootsOutside fs roots m.config m.claims
  | _ => True

instance (fs : FileSystem) (roots : List String) (config : DaemonConfig) (claims : List Claim) :
    Decidable (RootsOutside fs roots config claims) := by
  unfold RootsOutside
  infer_instance

instance (fs : FileSystem) (config : DaemonConfig) (claims : List Claim) : Decidable (OutsideClaims fs config claims) := by
  unfold OutsideClaims
  infer_instance

instance (fs : FileSystem) (m : WorkspaceManager) (event : Event) : Decidable (Careful fs m event) := by
  unfold Careful
  split <;> infer_instance

structure Inv (fs : FileSystem) (m : WorkspaceManager) : Prop where
  fresh : ∀ c ∈ m.claims, c.number < m.nextNumber
  numbers : ∀ c ∈ m.claims, ∀ d ∈ m.claims, c.number = d.number → c = d
  keys : ∀ c ∈ m.claims, ∀ d ∈ m.claims, c.key = d.key → c = d
  busy : ∀ c ∈ m.claims, c.live = true → c.key ∈ m.busy
  slots : SlotsApart fs m.config
  candidate : ∀ next ∈ m.candidate, SlotsApart fs next
  outside : OutsideClaims fs m.config m.claims
  cwds : ∀ c ∈ m.claims, ∀ d ∈ m.claims, c ≠ d → c.live = true → d.live = true → Apart c.cwd d.cwd
  roots : RootsOutside fs m.roots m.config m.claims

section Inv

variable {fs : FileSystem} {m : WorkspaceManager}

theorem inv_init : Inv fs {} where
  fresh _ h := nomatch h
  numbers _ h := nomatch h
  keys _ h := nomatch h
  busy _ h := nomatch h
  slots _ h := nomatch h
  candidate _ h := nomatch h
  outside _ h := nomatch h
  cwds _ h := nomatch h
  roots _ h := nomatch h

theorem Inv.shrink (h : Inv fs m) {claims : List Claim} {busy : List SlotKey}
    (hfrom : ∀ c ∈ claims, ∃ d ∈ m.claims, c.number = d.number ∧ c.key = d.key ∧ c.cwd = d.cwd ∧
      (c.live = true → d.live = true)) (hnumbers : ∀ c ∈ claims, ∀ d ∈ claims, c.number = d.number → c = d)
    (hbusy : ∀ c ∈ claims, c.live = true → c.key ∈ busy) : Inv fs { m with claims := claims, busy := busy } where
  fresh c hc := by
    obtain ⟨d, hd, e, -⟩ := hfrom c hc
    exact e ▸ h.fresh d hd
  numbers := hnumbers
  keys c hc c' hc' hkey := by
    obtain ⟨d, hd, e, k, -⟩ := hfrom c hc
    obtain ⟨d', hd', e', k', -⟩ := hfrom c' hc'
    have hdd : d = d' := h.keys d hd d' hd' (k.symm.trans (hkey.trans k'))
    exact hnumbers c hc c' hc' (by rw [e, e', hdd])
  busy := hbusy
  slots := h.slots
  candidate := h.candidate
  outside c hc hlive s hs hkey p hp := by
    obtain ⟨d, hd, -, k, w, hl⟩ := hfrom c hc
    rw [w]
    exact h.outside d hd (hl hlive) s hs (k ▸ hkey) p hp
  cwds c hc c' hc' hne hlive hlive' := by
    obtain ⟨d, hd, e, k, w, hl⟩ := hfrom c hc
    obtain ⟨d', hd', e', k', w', hl'⟩ := hfrom c' hc'
    rw [w, w']
    refine h.cwds d hd d' hd' (fun hdd => hne ?_) (hl hlive) (hl' hlive')
    exact hnumbers c hc c' hc' (by rw [e, e', hdd])
  roots root hroot r hr := by
    refine ⟨(h.roots root hroot r hr).1, fun c hc hlive => ?_⟩
    obtain ⟨d, hd, -, -, w, hl⟩ := hfrom c hc
    rw [w]
    exact (h.roots root hroot r hr).2 d hd (hl hlive)

variable {c : Claim}

theorem Inv.setStage (h : Inv fs m) (hc : c ∈ m.claims) (hlive : c.live = true) {stage : Stage}
    {busy : List SlotKey} (hbusy : ∀ d ∈ m.claims, d.live = true → d ≠ c ∨ stage ≠ .destroyed → d.key ∈ busy) :
    Inv fs { m.setStage c.number stage with busy := busy } := by
  have hmem : ∀ c' ∈ (m.setStage c.number stage).claims, ∃ d ∈ m.claims,
      (d = c ∧ c' = { d with stage := stage }) ∨ (d ≠ c ∧ c' = d) := by
    intro c' hc'
    obtain ⟨d, hd, rfl⟩ := mem_map.mp hc'
    refine ⟨d, hd, ?_⟩
    by_cases hn : d.number = c.number
    · exact .inl ⟨h.numbers d hd c hc hn, if_pos hn⟩
    · exact .inr ⟨fun he => hn (by rw [he]), if_neg hn⟩
  refine h.shrink (fun c' hc' => ?_) (fun c' hc' d' hd' hn => ?_) (fun c' hc' hl => ?_)
  · obtain ⟨d, hd, ⟨rfl, rfl⟩ | ⟨-, rfl⟩⟩ := hmem c' hc'
    · exact ⟨d, hd, rfl, rfl, rfl, fun _ => hlive⟩
    · exact ⟨c', hd, rfl, rfl, rfl, id⟩
  · obtain ⟨d, hd, ⟨rfl, rfl⟩ | ⟨hne, rfl⟩⟩ := hmem c' hc'
    · obtain ⟨e, he, ⟨rfl, rfl⟩ | ⟨hne', rfl⟩⟩ := hmem d' hd'
      · rfl
      · exact absurd (h.numbers _ he _ hd hn.symm) hne'
    · obtain ⟨e, he, ⟨rfl, rfl⟩ | ⟨hne', rfl⟩⟩ := hmem d' hd'
      · exact absurd (h.numbers _ hd _ he hn) hne
      · exact h.numbers _ hd _ he hn
  · obtain ⟨d, hd, ⟨rfl, rfl⟩ | ⟨hne, rfl⟩⟩ := hmem c' hc'
    · refine hbusy d hd hlive (.inr fun he => ?_)
      subst he
      cases hl
    · exact hbusy c' hd hl (.inl hne)

theorem Inv.busy_unbusy (h : Inv fs m) {d : Claim} (hc : c ∈ m.claims) (hd : d ∈ m.claims) (hne : d ≠ c)
    (hlive : d.live = true) : d.key ∈ (m.unbusy c.key).busy :=
  mem_filter.mpr ⟨h.busy d hd hlive, decide_eq_true fun hkey => hne (h.keys d hd c hc hkey)⟩

theorem Inv.destroyed (h : Inv fs m) (hc : c ∈ m.claims) (hlive : c.live = true) :
    Inv fs ((m.setStage c.number .destroyed).unbusy c.key) := by
  refine h.setStage hc hlive fun d hd hdlive hor => ?_
  rcases hor with hne | hne
  · exact h.busy_unbusy hc hd hne hdlive
  · exact absurd rfl hne

theorem Inv.released (h : Inv fs m) (hc : c ∈ m.claims) :
    Inv fs ({ m with claims := m.claims.filter fun d => d.number ≠ c.number }.unbusy c.key) := by
  refine h.shrink (fun d hd => ?_) (fun d hd e he hn => ?_) (fun d hd hlive => ?_)
  · exact ⟨d, mem_of_mem_filter hd, rfl, rfl, rfl, id⟩
  · exact h.numbers d (mem_of_mem_filter hd) e (mem_of_mem_filter he) hn
  · obtain ⟨hmem, hn⟩ := mem_filter.mp hd
    exact h.busy_unbusy hc hmem (fun he => of_decide_eq_true hn (by rw [he])) hlive

theorem Inv.claim (h : Inv fs m) {m' : WorkspaceManager} {poolId slotId : String}
    (hok : Careful fs m (.claim poolId slotId)) (hs : m.claim fs poolId slotId = .ok m') : Inv fs m' := by
  unfold WorkspaceManager.claim at hs
  split at hs
  · cases hs
  split at hs
  · cases hs
  next hfree =>
  split at hs
  · cases hs
  next slot hfind =>
  split at hs
  · cases hs
  next cwd hcwd =>
  cases hs
  obtain ⟨hslot, rfl⟩ := mem_slots_of_find hfind
  have hdirectory := realpath_of_checkedPath hcwd
  have hkeys : ∀ c ∈ m.claims, c.key ≠ (poolId, slot.id) := by
    intro c hc hkey
    rcases hok c hc with hne | hlive
    · exact hne hkey
    · exact hfree (hkey ▸ h.busy c hc hlive)
  -- a claim on another slot is apart from the directory of this one
  have hapart : ∀ c ∈ m.claims, c.live = true → Apart cwd c.cwd := fun c hc hlive =>
    h.outside c hc hlive ⟨poolId, slot⟩ hslot (Ne.symm (hkeys c hc)) cwd hdirectory
  refine ⟨fun c hc => ?_, fun c hc d hd hn => ?_, fun c hc d hd hk => ?_, fun c hc hlive => ?_, h.slots, h.candidate,
    fun c hc hlive => ?_, fun c hc d hd hne hl hl' => ?_, fun root hroot r hr => ⟨(h.roots root hroot r hr).1, ?_⟩⟩
  · rcases mem_cons.mp hc with rfl | hc
    · exact Nat.lt_succ_self _
    · exact Nat.lt_succ_of_lt (h.fresh c hc)
  · rcases mem_cons.mp hc with rfl | hc <;> rcases mem_cons.mp hd with rfl | hd
    · rfl
    · exact absurd hn (h.fresh d hd).ne'
    · exact absurd hn (h.fresh c hc).ne
    · exact h.numbers c hc d hd hn
  · rcases mem_cons.mp hc with rfl | hc <;> rcases mem_cons.mp hd with rfl | hd
    · rfl
    · exact absurd hk.symm (hkeys d hd)
    · exact absurd hk (hkeys c hc)
    · exact h.keys c hc d hd hk
  · rcases mem_cons.mp hc with rfl | hc
    · exact mem_cons_self
    · exact mem_cons_of_mem _ (h.busy c hc hlive)
  · rcases mem_cons.mp hc with rfl | hc
    · intro s hs hkey p hp
      exact h.slots s hs ⟨poolId, slot⟩ hslot hkey p hp cwd hdirectory
    · exact h.outside c hc hlive
  · rcases mem_cons.mp hc with rfl | hc <;> rcases mem_cons.mp hd with rfl | hd
    · exact absurd rfl hne
    · exact hapart d hd hl'
    · exact (hapart c hc hl).symm
    · exact h.cwds c hc d hd hne hl hl'
  · intro c hc hlive
    rcases mem_cons.mp hc with rfl | hc
    · exact (h.roots root hroot r hr).1 ⟨poolId, slot⟩ hslot cwd hdirectory
    · exact (h.roots root hroot r hr).2 c hc hlive

theorem mem_of_find {number : ℕ} (h : (m.claims.find? fun c => c.number = number) = some c) :
    c ∈ m.claims ∧ c.number = number := by
  have hn := find?_some h
  exact ⟨mem_of_find?_eq_some h, of_decide_eq_true hn⟩

theorem Inv.step (h : Inv fs m) {m' : WorkspaceManager} {event : Event} (hok : Careful fs m event)
    (hs : m.next fs event = some m') : Inv fs m' := by
  cases event with
  | claim poolId slotId =>
    refine h.claim hok ?_
    cases hclaim : m.claim fs poolId slotId with
    | error error =>
      rw [WorkspaceManager.next, hclaim] at hs
      cases hs
    | ok t =>
      rw [WorkspaceManager.next, hclaim] at hs
      cases hs
      rfl
  | destroyWorkspaceAfter number =>
    simp only [WorkspaceManager.next] at hs
    split at hs
    · next c hfind =>
      obtain ⟨hc, rfl⟩ := mem_of_find hfind
      split at hs
      · next hheld =>
        have hlive : c.live = true := by rw [Claim.live, hheld]; rfl
        split at hs
        · cases hs
          exact h.setStage hc hlive fun d hd hdlive _ => h.busy d hd hdlive
        · cases hs
          exact h.destroyed hc hlive
      · cases hs
    · cases hs
  | remove number =>
    simp only [WorkspaceManager.next] at hs
    split at hs
    · next c hfind =>
      obtain ⟨hc, rfl⟩ := mem_of_find hfind
      split at hs
      · next hchecked =>
        cases hs
        exact h.setStage hc (by rw [Claim.live, hchecked]; rfl) fun d hd hdlive _ => h.busy d hd hdlive
      · cases hs
    · cases hs
  | destroyed number =>
    simp only [WorkspaceManager.next] at hs
    split at hs
    · next c hfind =>
      obtain ⟨hc, rfl⟩ := mem_of_find hfind
      split at hs
      · next hstage =>
        cases hs
        refine h.destroyed hc ?_
        rcases hstage with hstage | hstage <;> rw [Claim.live, hstage] <;> rfl
      · cases hs
    · cases hs
  | release number =>
    simp only [WorkspaceManager.next] at hs
    split at hs
    · next c hfind =>
      obtain ⟨hc, rfl⟩ := mem_of_find hfind
      split at hs
      · cases hs
        exact h.released hc
      · cases hs
    · cases hs
  | beginInventoryUpdate =>
    simp only [WorkspaceManager.next] at hs
    split at hs
    · cases hs
    · cases hs
      exact ⟨h.fresh, h.numbers, h.keys, h.busy, h.slots, h.candidate, h.outside, h.cwds, h.roots⟩
  | ensureAll next =>
    simp only [WorkspaceManager.next] at hs
    split at hs
    · split at hs
      · next hensured =>
        cases hs
        refine ⟨h.fresh, h.numbers, h.keys, h.busy, h.slots, ?_, h.outside, h.cwds, h.roots⟩
        rintro _ ⟨⟩
        exact slotsApart_of_ensureAll hensured
      · cases hs
    · cases hs
  | apply clearsPolicy =>
    simp only [WorkspaceManager.next] at hs
    split at hs
    · next next hcandidate =>
      cases hs
      obtain ⟨houtside, hroots⟩ := hok next hcandidate
      exact ⟨h.fresh, h.numbers, h.keys, h.busy, h.candidate next hcandidate, (fun _ hn => nomatch hn), houtside,
        h.cwds, hroots⟩
    · cases hs
  | endInventoryUpdate =>
    simp only [WorkspaceManager.next] at hs
    split at hs
    · cases hs
      exact ⟨h.fresh, h.numbers, h.keys, h.busy, h.slots, (fun _ hn => nomatch hn), h.outside, h.cwds, h.roots⟩
    · cases hs
  | setAllowedRootsPolicy roots =>
    cases hs
    exact ⟨h.fresh, h.numbers, h.keys, h.busy, h.slots, h.candidate, h.outside, h.cwds, hok⟩

end Inv

/-- In every run of careful steps live claims are apart, and a removal takes neither another claim nor a root with it.
-/
theorem workspace_directories_apart (fs : FileSystem) (m : WorkspaceManager)
    (h : ((WorkspaceManager.system fs).restrict (Careful fs)).Reachable m) :
    (∀ c ∈ m.claims, ∀ d ∈ m.claims, c ≠ d → c.live = true → d.live = true → Apart c.cwd d.cwd) ∧
    ∀ c ∈ m.claims, c.stage = .checked → (∀ d ∈ m.claims, d ≠ c → d.live = true → ¬ c.cwd <+: d.cwd) ∧
      ∀ root ∈ m.roots, ∀ r ∈ fs.directory root, ¬ c.cwd <+: r := by
  have hinv : Inv fs m := by
    refine h.invariant (fun _ hinit => ?_) fun _ _ _ _ hm hs => hm.step hs.1 hs.2
    rw [show _ = _ from hinit]
    exact inv_init
  refine ⟨hinv.cwds, fun c hc hstage => ?_⟩
  have hlive : c.live = true := by rw [Claim.live, hstage]; rfl
  exact ⟨fun d hd hne hdlive => (hinv.cwds d hd c hc hne hdlive hlive).2,
    fun root hroot r hr => (hinv.roots root hroot r hr).2 c hc hlive⟩

def plain : FileSystem where
  isAbsolute text := text.toList.head? == some '/'
  resolve text := ((text.toList.splitOn '/').filter fun name => !name.isEmpty).map String.ofList
  realpath := some
  isDirectory := fun _ => true
  realpath_append := by
    rintro p _ rest ⟨⟩
    rfl

def inventory (allowedRoots : List String) (slots : List WorkspaceSlotConfig) : DaemonConfig where
  allowedRoots := allowedRoots
  workspacePools := [⟨"p", slots⟩]

def update (next : DaemonConfig) : List Event :=
  [.beginInventoryUpdate, .ensureAll next, .apply true, .endInventoryUpdate]

def nextCareful (m : WorkspaceManager) (event : Event) : Option WorkspaceManager :=
  if Careful plain m event then m.next plain event else none

def carefulRun : List Event :=
  update (inventory ["/r"] [⟨"s1", "/r/a"⟩]) ++ [.claim "p" "s1"] ++
  update (inventory ["/r"] [⟨"s1", "/r/a"⟩, ⟨"s2", "/r/b"⟩]) ++ [.claim "p" "s2", .destroyWorkspaceAfter 0]

theorem workspace_directories_apart_added : ∃ m, carefulRun.foldlM nextCareful {} = some m ∧
    m.claims.map (fun c => (c.cwd, c.stage)) = [(["r", "b"], .held), (["r", "a"], .checked)] ∧
    (∀ c ∈ m.claims, ∀ d ∈ m.claims, c ≠ d → c.live = true → d.live = true → Apart c.cwd d.cwd) ∧
    ∀ c ∈ m.claims, c.stage = .checked → (∀ d ∈ m.claims, d ≠ c → d.live = true → ¬ c.cwd <+: d.cwd) ∧
      ∀ root ∈ m.roots, ∀ r ∈ plain.directory root, ¬ c.cwd <+: r := by
  have hsome : (carefulRun.foldlM nextCareful {}).map (fun m => m.claims.map fun c => (c.cwd, c.stage)) =
      some [(["r", "b"], .held), (["r", "a"], .checked)] := by
    decide +kernel
  obtain ⟨m, hm, hclaims⟩ := Option.map_eq_some_iff.mp hsome
  have hstart : ((WorkspaceManager.system plain).restrict (Careful plain)).Reachable {} := .init rfl
  refine ⟨m, hm, hclaims, workspace_directories_apart plain m (hstart.foldlM (fun s event s' hs => ?_) hm)⟩
  unfold nextCareful at hs
  split at hs
  · next hok => exact ⟨hok, hs⟩
  · cases hs

/-- The slot of a claim leaves the inventory, and a later inventory gives its directory to another slot. -/
def reusedDirectory : List Event :=
  update (inventory ["/r"] [⟨"s1", "/r/a"⟩]) ++ [.claim "p" "s1"] ++ update (inventory ["/r"] []) ++
  update (inventory ["/r"] [⟨"s2", "/r/a"⟩]) ++ [.claim "p" "s2"]

def nestedRoot : List Event :=
  update (inventory ["/r", "/r/a/x"] [⟨"s1", "/r/a"⟩]) ++ [.claim "p" "s1", .destroyWorkspaceAfter 0]

theorem workspace_directories_shared : (reusedDirectory.foldlM (WorkspaceManager.next plain) {}).map
      (fun m => m.claims.map fun c => (c.number, c.cwd, c.live)) =
        some [(1, ["r", "a"], true), (0, ["r", "a"], true)] ∧ (nestedRoot.foldlM (WorkspaceManager.next plain) {}).map
      (fun m => (m.claims.map fun c => (c.cwd, c.stage), m.roots.map plain.directory)) =
        some ([(["r", "a"], .checked)], [some ["r"], some ["r", "a", "x"]]) := by
  decide +kernel

end AutoHarness.Daemon.Workspaces
