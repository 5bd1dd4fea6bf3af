import Mathlib

/-!
# Rosters: records kept under distinct keys

A roster is a finite map whose values carry their own key. That no two records
share a key is part of the type, so a lookup and a membership are the same fact
and an update touches at most one record.

Counting is the only place where the order of the records does not matter but
their number does. `count_update` says what one changed record does to it.
-/

open List Option

/-- Records under distinct keys. -/
structure Roster {κ α : Type*} (key : α → κ) where
  entries : List α
  distinct : (entries.map key).Nodup

variable {κ α : Type*} {key : α → κ}

namespace Roster

instance : Membership α (Roster key) := ⟨fun r a => a ∈ r.entries⟩

variable {r : Roster key}

theorem mem_def {a : α} : a ∈ r ↔ a ∈ r.entries := Iff.rfl

instance [DecidableEq α] (r : Roster key) (a : α) : Decidable (a ∈ r) :=
  inferInstanceAs (Decidable (a ∈ r.entries))

theorem eq_of_key_eq {a b : α} (ha : a ∈ r) (hb : b ∈ r) (h : key a = key b) : a = b :=
  inj_on_of_nodup_map r.distinct ha hb h

/-! ## Operations -/

def empty : Roster key := ⟨[], nodup_nil⟩

def isEmpty (r : Roster key) : Bool := r.entries.isEmpty

def filter (r : Roster key) (p : α → Bool) : Roster key where
  entries := r.entries.filter p
  distinct := r.distinct.sublist ((filter_sublist (p := p)).map key)

def map (r : Roster key) (f : α → α) (hf : ∀ a, key (f a) = key a) : Roster key where
  entries := r.entries.map f
  distinct := by
    have hkeys : (r.entries.map f).map key = r.entries.map key := by
      simp [List.map_map, Function.comp_def, hf]
    rw [hkeys]
    exact r.distinct

def count (r : Roster key) (p : α → Bool) : ℕ := r.entries.countP p

@[simp] theorem mem_empty {a : α} : ¬a ∈ (empty : Roster key) := by simp [mem_def, empty]

@[simp] theorem mem_filter {p : α → Bool} {a : α} : a ∈ r.filter p ↔ a ∈ r ∧ p a = true := by
  simp [mem_def, filter]

@[simp] theorem mem_map {f : α → α} {hf : ∀ a, key (f a) = key a} {b : α} :
    b ∈ r.map f hf ↔ ∃ a ∈ r, f a = b := by
  simp [mem_def, map]

section Keyed

variable [DecidableEq κ]

def get (r : Roster key) (k : κ) : Option α :=
  r.entries.find? fun a => key a = k

def contains (r : Roster key) (k : κ) : Bool := (r.get k).isSome

def erase (r : Roster key) (k : κ) : Roster key :=
  r.filter fun a => key a ≠ k

variable {r : Roster key} {k : κ}

theorem notMem_erase : k ∉ (r.erase k).entries.map key := by simp [erase, filter]

def insert (r : Roster key) (a : α) : Roster key where
  entries := (r.erase (key a)).entries ++ [a]
  distinct := by
    rw [map_append]
    refine List.nodup_append.mpr ⟨(r.erase (key a)).distinct, by simp, ?_⟩
    intro k hk k' hk' heq
    simp only [map_cons, map_nil, mem_singleton] at hk'
    rw [heq, hk'] at hk
    exact notMem_erase hk

def update (r : Roster key) (k : κ) (f : α → α) (hf : ∀ a, key (f a) = key a) : Roster key :=
  r.map (fun a => if key a = k then f a else a) fun a => by
    split
    · exact hf a
    · rfl

/-! ## What they contain -/

theorem get_eq_some {a : α} : r.get k = some a ↔ a ∈ r ∧ key a = k := by
  constructor
  · intro h
    have hkey := List.find?_some h
    exact ⟨List.mem_of_find?_eq_some h, by simpa using hkey⟩
  rintro ⟨ha, hk⟩
  have hsome : (r.get k).isSome := by
    unfold get
    rw [List.find?_isSome]
    exact ⟨a, ha, by simpa using hk⟩
  obtain ⟨b, hb⟩ := isSome_iff_exists.mp hsome
  have hkey := List.find?_some hb
  have hb' := List.mem_of_find?_eq_some hb
  rw [hb, eq_of_key_eq (r := r) hb' ha (by simpa [hk] using hkey)]

theorem get_eq_none : r.get k = none ↔ ∀ a ∈ r, key a ≠ k := by
  unfold get
  rw [List.find?_eq_none]
  simp [mem_def]

theorem get_of_mem {a : α} (ha : a ∈ r) : r.get (key a) = some a := get_eq_some.mpr ⟨ha, rfl⟩

theorem contains_iff : r.contains k = true ↔ ∃ a ∈ r, key a = k := by
  unfold contains
  rw [isSome_iff_exists]
  simp only [get_eq_some]

theorem contains_eq_false : r.contains k = false ↔ ∀ a ∈ r, key a ≠ k := by
  rw [← get_eq_none, contains, isSome_eq_false_iff, isNone_iff_eq_none]

@[simp] theorem mem_erase {a : α} : a ∈ r.erase k ↔ a ∈ r ∧ key a ≠ k := by simp [erase]

@[simp] theorem mem_insert {a b : α} : b ∈ r.insert a ↔ (b ∈ r ∧ key b ≠ key a) ∨ b = a := by
  have hentries : (r.insert a).entries = (r.erase (key a)).entries ++ [a] := rfl
  rw [mem_def, hentries, mem_append, mem_singleton, ← mem_def, mem_erase]

theorem mem_update {f : α → α} {hf : ∀ a, key (f a) = key a} {b : α} :
    b ∈ r.update k f hf ↔ (b ∈ r ∧ key b ≠ k) ∨ ∃ a ∈ r, key a = k ∧ f a = b := by
  unfold update
  rw [mem_map]
  constructor
  · rintro ⟨a, ha, hab⟩
    by_cases hk : key a = k
    · rw [if_pos hk] at hab
      exact .inr ⟨a, ha, hk, hab⟩
    · rw [if_neg hk] at hab
      exact .inl ⟨hab ▸ ha, hab ▸ hk⟩
  · rintro (⟨hb, hk⟩ | ⟨a, ha, hk, hab⟩)
    · exact ⟨b, hb, if_neg hk⟩
    · exact ⟨a, ha, by rw [if_pos hk]; exact hab⟩

end Keyed

/-! ## Counting -/

theorem length_le_of_keys {r r' : Roster key} (h : ∀ a ∈ r', ∃ b ∈ r, key b = key a) :
    r'.entries.length ≤ r.entries.length := by
  have hsubset : r'.entries.map key ⊆ r.entries.map key := by
    intro k hk
    obtain ⟨a, ha, rfl⟩ := List.mem_map.mp hk
    obtain ⟨b, hb, hkey⟩ := h a ha
    exact hkey ▸ List.mem_map_of_mem hb
  have hlength := (subperm_of_subset r'.distinct hsubset).length_le
  rwa [length_map, length_map] at hlength

variable [DecidableEq κ]

theorem length_insert_le (r : Roster key) (a : α) :
    (r.insert a).entries.length ≤ r.entries.length + 1 := by
  have hentries : (r.insert a).entries = (r.erase (key a)).entries ++ [a] := rfl
  have herase : (r.erase (key a)).entries.length ≤ r.entries.length := length_filter_le _ _
  rw [hentries, length_append, length_singleton]
  omega

end Roster
