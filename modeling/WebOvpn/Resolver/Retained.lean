/-
What every step of a call keeps: the files that others have stored are at their
paths or in slots beside them, and a claim is passed once.
-/
import WebOvpn.Resolver.Apply

namespace WebOvpn.Resolver

open Text
open Op (Meets Stable)

variable {job : Job} {w : World} {path slot : Text} {file : File}
    {before : Option (Snapshot × Readings)} {bound : Bool}
  {α β : Type}

def Held (folder : Folder Text File.node) (entry : Text × File) : Prop :=
  folder.get entry.1 = some entry.2 ∨ ∃ slot, IsSlot entry.1 slot ∧ folder.get slot = some entry.2

structure Inv (w : World) : Prop where
  shared : ∀ entry ∈ w.theirs, isPrivate entry.1 = false
  held : ∀ entry ∈ w.theirs, Held w.folder entry
  claimed : w.passed ⊆ w.claims
  once : w.passed.Nodup

/-- Nobody else's file is in the slot. -/
def Mine (slot : Text) (w : World) : Prop := ∀ entry ∈ w.theirs, w.folder.get slot ≠ some entry.2

def Displaced (path slot : Text) (w : World) : Prop :=
  ∀ entry ∈ w.theirs, w.folder.get slot = some entry.2 → entry.1 = path

theorem Mine.displaced (h : Mine slot w) (path : Text) : Displaced path slot w :=
  fun entry hen hsl => absurd hsl (h entry hen)

theorem others_cases (w : World) (move : Move) : others w move = w ∨
      (∃ path file, ∃ h : w.folder.Takes path file, isPrivate path = false ∧
        others w move =
          { w with folder := w.folder.store path file h, theirs :=
          (path, file) :: w.without path }) ∨
      (∃ path, isPrivate path = false ∧
        others w move = { w with folder := w.folder.remove path, theirs := w.without path }) ∨
      (∃ status, others w move = { w with status := status }) ∨
      ∃ claim, claim ∉ w.claims ∧
        others w move = { w with claims := claim :: w.claims, passed := claim :: w.passed } := by
  cases move with
  | store path file =>
    by_cases hpr : isPrivate path = true
    · exact .inl (if_pos hpr)
    · by_cases htk : w.folder.Takes path file
      · refine .inr (.inl ⟨path, file, htk, Bool.eq_false_iff.2 hpr, ?_⟩)
        exact (if_neg hpr).trans (dif_pos htk)
      · exact .inl ((if_neg hpr).trans (dif_neg htk))
  | remove path =>
    by_cases hpr : isPrivate path = true
    · exact .inl (if_pos hpr)
    · exact .inr (.inr (.inl ⟨path, Bool.eq_false_iff.2 hpr, if_neg hpr⟩))
  | status status => exact .inr (.inr (.inr (.inl ⟨status, rfl⟩)))
  | claim claim =>
    by_cases hcl : claim ∈ w.claims
    · exact .inl (if_pos hcl)
    · exact .inr (.inr (.inr (.inr ⟨claim, hcl, if_neg hcl⟩)))

theorem ne_of_private (hpt : isPrivate path = false) (hsl : isPrivate slot = true) : slot ≠ path := by
  rintro rfl
  rw [hpt] at hsl
  cases hsl

theorem Held.elsewhere {folder folder' : Folder Text File.node} {entry : Text × File}
    (h : Held folder entry)
    (hpt : isPrivate path = false) (hgn : folder.get path ≠ some entry.2)
    (hsm : ∀ name, name ≠ path → folder'.get name = folder.get name) : Held folder' entry := by
  rcases h with hget | ⟨slot, hsl, hget⟩
  · apply Or.inl
    rw [hsm]
    · exact hget
    · rintro rfl
      exact hgn hget
  · refine .inr ⟨slot, hsl, ?_⟩
    rw [hsm slot (ne_of_private hpt hsl.1)]
    exact hget

theorem mem_without {entry : Text × File} :
    entry ∈ w.without path ↔ entry ∈ w.theirs ∧ w.folder.get path ≠ some entry.2 := by
  unfold World.without
  rw [List.mem_filter, decide_eq_true_eq]

theorem inv_others (w : World) (move : Move) (h : Inv w) : Inv (others w move) := by
  rcases others_cases w move with heq | ⟨path, file, htk, hpt, heq⟩ | ⟨path, hpt, heq⟩ | ⟨status, heq⟩ |
    ⟨claim, hcl, heq⟩ <;> rw [heq]
  · exact h
  · refine ⟨?_, ?_, h.claimed, h.once⟩
    · intro entry hen
      rcases List.mem_cons.1 hen with rfl | hen
      · exact hpt
      · exact h.shared entry (mem_without.1 hen).1
    · intro entry hen
      rcases List.mem_cons.1 hen with rfl | hen
      · exact .inl (Folder.get_store_self htk)
      · obtain ⟨hmem, hgn⟩ := mem_without.1 hen
        apply (h.held entry hmem).elsewhere hpt hgn
        exact fun name hnm => Folder.get_store_ne htk hnm
  · refine ⟨?_, ?_, h.claimed, h.once⟩
    · exact fun entry hen => h.shared entry (mem_without.1 hen).1
    · intro entry hen
      obtain ⟨hmem, hgn⟩ := mem_without.1 hen
      apply (h.held entry hmem).elsewhere hpt hgn
      exact fun name hnm => Folder.get_remove_ne hnm
  · exact ⟨h.shared, h.held, h.claimed, h.once⟩
  · refine ⟨h.shared, h.held, ?_, ?_⟩
    · exact List.cons_subset_cons claim h.claimed
    · exact List.nodup_cons.2 ⟨fun hps => hcl (h.claimed hps), h.once⟩

theorem slot_others (hsl : isPrivate slot = true) (w : World) (move : Move) :
    (others w move).folder.get slot = w.folder.get slot ∧
      ∀ entry ∈ (others w move).theirs, w.folder.get slot = some entry.2 → entry ∈ w.theirs := by
  rcases others_cases w move with heq | ⟨path, file, htk, hpt, heq⟩ | ⟨path, hpt, heq⟩ | ⟨status, heq⟩ |
    ⟨claim, hcl, heq⟩ <;> rw [heq]
  · exact ⟨rfl, fun entry hen _ => hen⟩
  · have hne := ne_of_private hpt hsl
    refine ⟨Folder.get_store_ne htk hne, ?_⟩
    intro entry hen hget
    rcases List.mem_cons.1 hen with rfl | hen
    · exact absurd rfl (htk.node_ne hget hne)
    · exact (mem_without.1 hen).1
  · refine ⟨Folder.get_remove_ne (ne_of_private hpt hsl), ?_⟩
    exact fun entry hen _ => (mem_without.1 hen).1
  · exact ⟨rfl, fun entry hen _ => hen⟩
  · exact ⟨rfl, fun entry hen _ => hen⟩

theorem mine_others (hsl : isPrivate slot = true) (w : World) (move : Move) (h : Mine slot w) :
    Mine slot (others w move) := by
  obtain ⟨hget, hthe⟩ := slot_others hsl w move
  intro entry hen hfn
  rw [hget] at hfn
  exact h entry (hthe entry hen hfn) hfn

theorem displaced_others (hsl : isPrivate slot = true) (w : World) (move : Move)
    (h : Displaced path slot w) :
    Displaced path slot (others w move) := by
  obtain ⟨hget, hthe⟩ := slot_others hsl w move
  intro entry hen hfn
  rw [hget] at hfn
  exact h entry (hthe entry hen hfn) hfn

/-- The variables of the call are its own. -/
theorem locals_others (w : World) (move : Move) :
    (others w move).before = w.before ∧ (others w move).newInfo = w.newInfo ∧
      (others w move).readings = w.readings ∧ (others w move).observed = w.observed := by
  rcases others_cases w move with heq | ⟨path, file, htk, hpt, heq⟩ | ⟨path, hpt, heq⟩ | ⟨status, heq⟩ |
    ⟨claim, hcl, heq⟩ <;> rw [heq] <;> exact ⟨rfl, rfl, rfl, rfl⟩

theorem Inv.exchange (h : Inv w) (hpt : isPrivate path = false) (hsl : IsSlot path slot)
    (hds : Displaced path slot w) : Inv { w with folder := w.folder.exchange slot path } := by
  refine ⟨h.shared, ?_, h.claimed, h.once⟩
  intro entry hen
  unfold Held
  simp only [Folder.get_exchange]
  have hne := ne_of_private (h.shared entry hen) hsl.1
  rcases h.held entry hen with hget | ⟨other, hoh, hget⟩
  · by_cases hentr : entry.1 = path
    · refine .inr ⟨slot, hentr ▸ hsl, ?_⟩
      rw [Equiv.swap_apply_left, ← hentr]
      exact hget
    · apply Or.inl
      rw [Equiv.swap_apply_of_ne_of_ne hne.symm hentr]
      exact hget
  · by_cases hsm : other = slot
    · subst hsm
      apply Or.inl
      rw [hds entry hen hget, Equiv.swap_apply_right]
      exact hget
    · refine .inr ⟨other, hoh, ?_⟩
      rw [Equiv.swap_apply_of_ne_of_ne hsm (ne_of_private hpt hoh.1)]
      exact hget

theorem Inv.storeSlot (h : Inv w) (hsl : isPrivate slot = true) (hmin : Mine slot w)
    (htk : w.folder.Takes slot file) : Inv { w with folder := w.folder.store slot file htk } := by
  refine ⟨h.shared, ?_, h.claimed, h.once⟩
  intro entry hen
  rcases h.held entry hen with hget | ⟨other, hoh, hget⟩
  · apply Or.inl
    dsimp only
    rw [Folder.get_store_ne htk (ne_of_private (h.shared entry hen) hsl).symm]
    exact hget
  · refine .inr ⟨other, hoh, ?_⟩
    dsimp only
    rw [Folder.get_store_ne htk]
    · exact hget
    · rintro rfl
      exact hmin entry hen hget

theorem Inv.mine_storeSlot (h : Inv w) (hsl : isPrivate slot = true) (hmin : Mine slot w)
    (htk : w.folder.Takes slot file) : Mine slot { w with folder := w.folder.store slot file htk } := by
  intro entry hen hfn
  dsimp only at hfn
  rw [Folder.get_store_self] at hfn
  cases hfn
  rcases h.held entry hen with hget | ⟨other, hoh, hget⟩
  · exact htk.node_ne hget (ne_of_private (h.shared entry hen) hsl).symm rfl
  · apply htk.node_ne hget _ rfl
    rintro rfl
    exact hmin entry hen hget

theorem mine_of_free (h : w.folder.get slot = none) : Mine slot w := by
  intro entry _ hfn
  rw [h] at hfn
  cases hfn

theorem Inv.displaced_exchange (h : Inv w) (hpt : isPrivate path = false) :
    Displaced path slot { w with folder := w.folder.exchange path slot } := by
  intro entry hen hfn
  dsimp only at hfn hen
  rw [Folder.get_exchange, Equiv.swap_apply_right] at hfn
  rcases h.held entry hen with hget | ⟨other, hoh, hget⟩
  · exact Folder.eq_of_node hget hfn rfl
  · exact absurd (Folder.eq_of_node hget hfn rfl) (ne_of_private hpt hoh.1)

/-- The invariant within a call: what its first observation was, and whether
`new_info` is bound. -/
structure Within (before : Option (Snapshot × Readings)) (bound : Bool) (w : World) : Prop where
  inv : Inv w
  before_eq : w.before = before
  bound_some : bound = true → w.newInfo.isSome = true

/-- What holds when a step stops the call. -/
def Fails (before : Option (Snapshot × Readings)) (bound : Bool) (_ : DnsCode) (w : World) : Prop :=
  Within before bound w

theorem stable_within : Stable others (Within before bound) := by
  intro w move h
  obtain ⟨hbf, hin, -, -⟩ := locals_others w move
  refine ⟨inv_others w move h.inv, ?_, ?_⟩
  · rw [hbf]
    exact h.before_eq
  · rw [hin]
    exact h.bound_some

theorem Within.readings (h : Within before bound w)
    (r : Readings) : Within before bound { w with readings := r } :=
  ⟨⟨h.inv.shared, h.inv.held, h.inv.claimed, h.inv.once⟩, h.before_eq, h.bound_some⟩

section

variable {P : World → Prop} {E : DnsCode → World → Prop}

variable {Q : Unit → World → Prop} {code : DnsCode}

theorem meets_pass (hst : Stable others P) (hE : ∀ code w, P w → E code w)
    (hQ : ∀ w, P w → Q () w) : Meets P pass Q E := by
  apply Op.meets_own hst (hE _)
  intro w hw
  cases w.status.refusal with
  | none => exact hQ w hw
  | some code => exact hE code w hw

theorem meets_require {condition : Bool} (hE : ∀ code w, P w → E code w)
    (hQ : ∀ w, condition = true → P w → Q () w) : Meets P (require condition code) Q E := by
  apply Op.meets_raiseIf
  · exact fun w hc hw => hQ w (Bool.eq_true_of_not_eq_false hc) hw
  · exact fun w _ hw => hE _ w hw

theorem meets_runIf {condition : Bool} {m : Step Unit} (hm : condition = true → Meets P m Q E)
    (hQ : condition = false → ∀ w, P w → Q () w) : Meets P (runIf condition m) Q E := by
  unfold runIf
  cases condition with
  | true => exact hm rfl
  | false => exact Op.meets_pure (hQ rfl)

theorem meets_definite {value : Option α} {Q : α → World → Prop} (hE : ∀ code w, P w → E code w)
    (hQ : ∀ a w, value = some a → P w → Q a w) : Meets P (definite value code) Q E := by
  apply Op.meets_lift
  · intro a w hv hw
    cases value with
    | none => cases hv
    | some b =>
      cases hv
      exact hQ a w rfl hw
  · exact fun e w _ hw => hE e w hw

theorem meets_ask {f : Status → Option α} {Q : α → World → Prop} (hst : Stable others P)
    (hE : ∀ code w, P w → E code w) (hQ : ∀ a w, P w → Q a w) : Meets P (ask code f) Q E := by
  apply Op.meets_own hst (hE _)
  intro w hw
  cases f w.status with
  | none => exact hE code w hw
  | some a => exact hQ a w hw

variable {isPrivateFile allowHardlinks : Bool}

theorem meets_readFile {Q : Option File → World → Prop} (hst : Stable others P)
    (hE : ∀ code w, P w → E code w)
    (hQ : ∀ file w, P w → Q file (w.saw path file)) :
      Meets P (readFile job isPrivateFile allowHardlinks path) Q E := by
  apply Op.meets_own_cases hst (hE _)
  · intro w file w' hw h
    split at h
    · cases h
      exact hQ none w hw
    · split at h
      · cases h
      · split at h <;> cases h
        exact hQ _ w hw
  · intro w code w' hw h
    split at h
    · cases h
    · split at h
      · cases h
        exact hE _ w hw
      · split at h <;> cases h
        exact hE _ w hw

theorem meets_readPresent {Q : File → World → Prop} (hst : Stable others P)
    (hE : ∀ code w, P w → E code w)
    (hrd : ∀ w file, P w → E .raised (w.saw path file))
    (hQ : ∀ file w, P w → Q file (w.saw path (some file))) :
    Meets P (readPresent job isPrivateFile allowHardlinks path) Q E := by
  apply Meets.bind (Q := fun file w => E .raised w ∧ ∀ found, file = some found → Q found w)
  · apply meets_readFile hst hE
    intro file w hw
    refine ⟨hrd w file hw, ?_⟩
    rintro found rfl
    exact hQ found w hw
  · intro file
    cases file with
    | none => exact Op.meets_raise fun w hw => hw.1
    | some found => exact Op.meets_pure fun w hw => hw.2 found rfl

theorem meets_readAttributes {Q : Attributes → World → Prop} (hst : Stable others P)
    (hE : ∀ code w, P w → E code w)
    (hQ : ∀ attributes w, P w → Q attributes (w.sawAttributes path attributes)) :
    Meets P (readAttributes path) Q E := by
  apply Op.meets_own_cases hst (hE _)
  · intro w attributes w' hw h
    split at h <;> cases h
    exact hQ _ w hw
  · intro w code w' hw h
    split at h <;> cases h
    exact hE _ w hw

end

structure Steady (before : Option (Snapshot × Readings)) (bound : Bool) (P : World → Prop) : Prop where
  within : ∀ w, P w → Within before bound w
  stable : Stable others P
  reads : ∀ w r, P w → P { w with readings := r }

theorem steady_within : Steady before bound (Within before bound) :=
  ⟨fun _ h => h, stable_within, fun _ r h => h.readings r⟩

theorem steady_mine (hsl : isPrivate slot = true) :
    Steady before bound fun w => Within before bound w ∧ Mine slot w where
  within _ h := h.1
  stable w move h := ⟨stable_within w move h.1, mine_others hsl w move h.2⟩
  reads _ r h := ⟨h.1.readings r, h.2⟩

theorem steady_displaced (hsl : isPrivate slot = true) :
    Steady before bound fun w => Within before bound w ∧ Displaced path slot w where
  within _ h := h.1
  stable w move h := ⟨stable_within w move h.1, displaced_others hsl w move h.2⟩
  reads _ r h := ⟨h.1.readings r, h.2⟩

namespace Steady

variable {P : World → Prop} (hP : Steady before bound P)

include hP

theorem fails (code : DnsCode) (w : World) (hw : P w) : Fails before bound code w := hP.within w hw

theorem pass : Meets P pass (fun _ => P) (Fails before bound) :=
  meets_pass hP.stable hP.fails fun _ hw => hw

theorem require (condition : Bool) (code : DnsCode) :
    Meets P (require condition code) (fun _ w => P w ∧ condition = true) (Fails before bound) :=
  meets_require hP.fails fun _ hc hw => ⟨hw, hc⟩

theorem definite (value : Option α) (code : DnsCode) :
    Meets P (definite value code) (fun _ => P) (Fails before bound) :=
  meets_definite hP.fails fun _ _ _ hw => hw

theorem readPresent (isPrivateFile allowHardlinks : Bool) (path : Text) :
    Meets P (readPresent job isPrivateFile allowHardlinks path) (fun _ => P) (Fails before bound) :=
  meets_readPresent hP.stable hP.fails (fun w _ hw => hP.within _ (hP.reads w _ hw)) fun _ w hw =>
    hP.reads w _ hw

theorem readAttributes (path : Text) : Meets P (readAttributes path) (fun _ => P) (Fails before bound) :=
  meets_readAttributes hP.stable hP.fails fun _ w hw => hP.reads w _ hw

end Steady

end WebOvpn.Resolver
