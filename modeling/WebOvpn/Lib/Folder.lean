/-
A folder of files, each with a node of its own, in which names are exchanged and
others store files. What the others have stored stays unless they store a file
over it, and only a file that is removed by name is lost.
-/
import Mathlib.Data.List.Nodup
import Mathlib.Logic.Equiv.Basic

namespace WebOvpn

open List

structure Folder (ν : Type) {β κ : Type} (node : β → κ) where
  entries : List (ν × β)
  names : (entries.map Prod.fst).Nodup
  nodes : (entries.map fun entry => node entry.2).Nodup

namespace Folder

variable {ν β κ : Type} [DecidableEq ν] {node : β → κ} {d : Folder ν node} {n a b : ν} {f g : β}

/-- The file of a name. -/
def get (d : Folder ν node) (n : ν) : Option β := d.entries.lookup n

def files (d : Folder ν node) : List β := d.entries.map Prod.snd

theorem get_eq_some_iff : d.get n = some f ↔ (n, f) ∈ d.entries := by
  have hna := d.names
  unfold get
  generalize d.entries = entries at hna ⊢
  induction entries with
  | nil => simp
  | cons entry rest ih =>
    obtain ⟨m, g⟩ := entry
    obtain ⟨hfr, hrs⟩ := nodup_cons.1 hna
    rw [lookup_cons]
    by_cases hnm : n = m
    · subst hnm
      simp only [beq_self_eq_true, Option.some.injEq, mem_cons, Prod.mk.injEq, true_and]
      constructor
      · intro h
        exact .inl h.symm
      · rintro (h | h)
        · exact h.symm
        · exact absurd (mem_map_of_mem (f := Prod.fst) h) hfr
    · rw [beq_false_of_ne hnm, mem_cons, Prod.mk.injEq]
      simp only [hnm, false_and, false_or]
      exact ih hrs

theorem get_eq_none_iff : d.get n = none ↔ n ∉ d.entries.map Prod.fst := by
  constructor
  · rintro h hmem
    obtain ⟨⟨m, f⟩, hen, rfl⟩ := mem_map.1 hmem
    rw [get_eq_some_iff.2 hen] at h
    cases h
  · intro h
    cases hget : d.get n with
    | none => rfl
    | some f => exact absurd (mem_map_of_mem (f := Prod.fst) (get_eq_some_iff.1 hget)) h

theorem mem_files_iff : f ∈ d.files ↔ ∃ n, d.get n = some f := by
  constructor
  · intro h
    obtain ⟨⟨n, g⟩, hen, rfl⟩ := mem_map.1 h
    exact ⟨n, get_eq_some_iff.2 hen⟩
  · rintro ⟨n, h⟩
    exact mem_map_of_mem (f := Prod.snd) (get_eq_some_iff.1 h)

theorem eq_of_node (ha : d.get a = some f) (hb : d.get b = some g) (hnd : node f = node g) : a = b := by
  have hen := inj_on_of_nodup_map d.nodes (get_eq_some_iff.1 ha) (get_eq_some_iff.1 hb) hnd
  exact congrArg Prod.fst hen

/-- Two names are exchanged. When one of them is free, the other one is moved to it. -/
def exchange (d : Folder ν node) (a b : ν) : Folder ν node where
  entries := d.entries.map fun entry => (Equiv.swap a b entry.1, entry.2)
  names := by
    rw [List.map_map]
    have hnm := d.names.map (Equiv.swap a b).injective
    rw [List.map_map] at hnm
    exact hnm
  nodes := by
    rw [List.map_map]
    exact d.nodes

@[simp]
theorem files_exchange (d : Folder ν node) (a b : ν) : (d.exchange a b).files = d.files := by
  unfold files exchange
  rw [map_map]
  rfl

@[simp]
theorem get_exchange (d : Folder ν node) (a b n : ν) :
    (d.exchange a b).get n = d.get (Equiv.swap a b n) := by
  cases h : d.get (Equiv.swap a b n) with
  | some f =>
    rw [get_eq_some_iff] at h ⊢
    exact mem_map.2 ⟨_, h, by rw [Equiv.swap_apply_self]⟩
  | none =>
    rw [get_eq_none_iff] at h ⊢
    intro hmem
    obtain ⟨entry, hen, rfl⟩ := mem_map.1 hmem
    obtain ⟨old, hold, rfl⟩ := mem_map.1 hen
    apply h
    rw [Equiv.swap_apply_self]
    exact mem_map_of_mem (f := Prod.fst) hold

theorem filter_sublist (d : Folder ν node) (n : ν) :
    (d.entries.filter fun entry => entry.1 ≠ n).Sublist d.entries :=
  List.filter_sublist

/-- The name is free afterwards. -/
def remove (d : Folder ν node) (n : ν) : Folder ν node where
  entries := d.entries.filter fun entry => entry.1 ≠ n
  names := d.names.sublist ((d.filter_sublist n).map _)
  nodes := d.nodes.sublist ((d.filter_sublist n).map _)

theorem get_remove_ne (h : a ≠ n) : (d.remove n).get a = d.get a := by
  cases hget : d.get a with
  | some f =>
    rw [get_eq_some_iff] at hget ⊢
    exact mem_filter.2 ⟨hget, decide_eq_true h⟩
  | none =>
    rw [get_eq_none_iff] at hget ⊢
    exact fun hmem => hget (((d.filter_sublist n).map _).subset hmem)

@[simp]
theorem get_remove_self (d : Folder ν node) (n : ν) : (d.remove n).get n = none := by
  rw [get_eq_none_iff]
  intro hmem
  obtain ⟨entry, hen, rfl⟩ := mem_map.1 hmem
  exact of_decide_eq_true (mem_filter.1 hen).2 rfl

theorem mem_files_remove (h : f ∈ d.files) (hn : d.get n ≠ some f) : f ∈ (d.remove n).files := by
  obtain ⟨a, ha⟩ := mem_files_iff.1 h
  refine mem_files_iff.2 ⟨a, ?_⟩
  rw [get_remove_ne]
  · exact ha
  · rintro rfl
    exact hn ha

/-- A file may be stored under a name when no other name has its node. -/
def Takes (d : Folder ν node) (n : ν) (f : β) : Prop := ∀ entry ∈ (d.remove n).entries,
    node entry.2 ≠ node f

instance [DecidableEq κ] (d : Folder ν node) (n : ν) (f : β) : Decidable (d.Takes n f) :=
  List.decidableBAll _ _

/-- The file is stored under the name, over the file that has it. -/
def store (d : Folder ν node) (n : ν) (f : β) (h : d.Takes n f) : Folder ν node where
  entries := (d.remove n).entries ++ [(n, f)]
  names := by
    rw [List.map_append, List.map_singleton]
    apply List.nodup_append.2
    refine ⟨(d.remove n).names, List.nodup_singleton _, ?_⟩
    rintro m hm _ hn rfl
    cases List.mem_singleton.1 hn
    exact get_eq_none_iff.1 (d.get_remove_self n) hm
  nodes := by
    rw [List.map_append, List.map_singleton]
    apply List.nodup_append.2
    refine ⟨(d.remove n).nodes, List.nodup_singleton _, ?_⟩
    rintro k hk _ hn rfl
    cases List.mem_singleton.1 hn
    obtain ⟨entry, hen, hnd⟩ := List.mem_map.1 hk
    exact h entry hen hnd

@[simp]
theorem get_store_self (h : d.Takes n f) : (d.store n f h).get n = some f := by
  rw [get_eq_some_iff]
  exact mem_append_right _ (mem_singleton_self _)

theorem get_store_ne (h : d.Takes n f) (hne : a ≠ n) : (d.store n f h).get a = d.get a := by
  have hrem := get_remove_ne (d := d) hne
  rw [← hrem]
  cases hget : (d.remove n).get a with
  | some g =>
    rw [get_eq_some_iff] at hget ⊢
    exact mem_append_left _ hget
  | none =>
    rw [get_eq_none_iff] at hget ⊢
    intro hmem
    rw [show (d.store n f h).entries = (d.remove n).entries ++ [(n, f)] from rfl, map_append] at hmem
    rcases mem_append.1 hmem with hmem | hmem
    · exact hget hmem
    · exact hne (mem_singleton.1 hmem)

theorem mem_files_store (h : d.Takes n f) (hg : g ∈ d.files) (hn : d.get n ≠ some g) :
    g ∈ (d.store n f h).files := by
  obtain ⟨a, ha⟩ := mem_files_iff.1 hg
  refine mem_files_iff.2 ⟨a, ?_⟩
  rw [get_store_ne]
  · exact ha
  · rintro rfl
    exact hn ha

theorem Takes.node_ne (h : d.Takes n f) (ha : d.get a = some g) (hne : a ≠ n) : node g ≠ node f :=
  h (a, g) (mem_filter.2 ⟨get_eq_some_iff.1 ha, decide_eq_true hne⟩)

end Folder

/-- A folder, and the files that others have stored and have not replaced. -/
structure SharedFolder (ν : Type) {β κ : Type} (node : β → κ) where
  folder : Folder ν node
  theirs : List β

namespace SharedFolder

variable {ν β κ : Type} [DecidableEq ν] {node : β → κ} {s : SharedFolder ν node}
  {n a b : ν} {f g : β} {ours : Option β}

section

variable [DecidableEq κ] [DecidableEq β]

/-- Another one stores a file under a name: a new file, or the file of the name edited. -/
def stored (s : SharedFolder ν node) (n : ν) (f : β) : SharedFolder ν node :=
  if h : s.folder.Takes n f then ⟨s.folder.store n f h,
    f :: s.theirs.filter fun g => s.folder.get n ≠ some g⟩ else s

/-- What others have stored is there, except a file that is the own one. -/
def Kept (ours : Option β) (s : SharedFolder ν node) : Prop :=
  ∀ f ∈ s.theirs, f ∈ s.folder.files ∨ ours = some f

theorem get_stored_ne (hne : a ≠ n) : (s.stored n f).folder.get a = s.folder.get a := by
  unfold stored
  split
  · rename_i htk
    exact Folder.get_store_ne htk hne
  · rfl

theorem Kept.stored (h : Kept ours s) : Kept ours (s.stored n f) := by
  unfold SharedFolder.stored
  split
  · rename_i htk
    intro g hg
    rcases mem_cons.1 hg with rfl | hg
    · exact .inl (Folder.mem_files_iff.2 ⟨n, Folder.get_store_self htk⟩)
    · obtain ⟨hmem, hn⟩ := mem_filter.1 hg
      exact (h g hmem).imp_left fun hfl => Folder.mem_files_store htk hfl (of_decide_eq_true hn)
  · exact h

end

theorem Kept.exchange (h : Kept ours s) (a b : ν) :
    Kept ours { s with folder := s.folder.exchange a b } := by
  intro f hf
  rw [Folder.files_exchange]
  exact h f hf

/-- Only the own file is removed. -/
theorem Kept.remove (h : Kept ours s) (hn : ∀ f, s.folder.get n = some f → ours = some f) :
    Kept ours { s with folder := s.folder.remove n } := by
  intro f hf
  by_cases hget : s.folder.get n = some f
  · exact .inr (hn f hget)
  · exact (h f hf).imp_left fun hfl => Folder.mem_files_remove hfl hget

theorem Kept.store {ours' : Option β} (h : Kept ours s) (htk : s.folder.Takes n g)
    (hn : ∀ f ∈ s.theirs, s.folder.get n ≠ some f) (hours : ∀ f ∈ s.theirs, ours ≠ some f) :
    Kept ours' { s with folder := s.folder.store n g htk } := by
  intro f hf
  exact .inl (Folder.mem_files_store htk ((h f hf).resolve_right (hours f hf)) (hn f hf))

end SharedFolder

end WebOvpn
