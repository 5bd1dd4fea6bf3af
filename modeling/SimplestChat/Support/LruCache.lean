import Mathlib

/-!
# Least-recently-used caches

A bounded map whose entries stand in the order of their last use, the latest first. An
entry is displaced only by an insertion, and only when as many other keys as the cache
holds have been used since. An implementation is any type whose operations do what these do.
-/

open List

universe u v

variable {κ : Type u} {ν : Type v}

/-- The entries of a cache, each key once and no more of them than it holds. -/
structure LruCache (κ : Type u) (ν : Type v) where
  cap : ℕ
  entries : List (κ × ν)
  positive : 0 < cap
  distinct : (entries.map Prod.fst).Nodup
  bounded : entries.length ≤ cap

namespace LruCache

def new (cap : ℕ) (positive : 0 < cap) : LruCache κ ν :=
  ⟨cap, [], positive, nodup_nil, Nat.zero_le _⟩

variable [DecidableEq κ] (c : LruCache κ ν) {k k' : κ} {v v' : ν}

/-- Looks a key up without using it. -/
def peek (k : κ) : Option ν := (c.entries.find? fun e => e.1 = k).map Prod.snd

def pop (k : κ) : LruCache κ ν := { c with
    entries := c.entries.filter fun e => e.1 ≠ k
    distinct := c.distinct.sublist (filter_sublist.map _)
    bounded := Nat.le_trans (length_filter_le _ _) c.bounded }

/-- Insert or replace, as the latest use. A full cache gives up its oldest entry. -/
def put (k : κ) (v : ν) : LruCache κ ν := { c with
    entries := (k, v) :: ((c.pop k).entries.take (c.cap - 1))
    distinct := by
      refine List.nodup_cons.mpr ⟨?_, (c.pop k).distinct.sublist ((take_sublist _ _).map _)⟩
      intro h
      obtain ⟨e, he, hk⟩ := List.mem_map.mp h
      simpa [hk] using (List.mem_filter.mp (mem_of_mem_take he)).2
    bounded := by
      have := c.positive
      simp only [length_cons, length_take]
      omega }

/-- A lookup that counts as a use. -/
def touch (k : κ) : LruCache κ ν :=
  match c.peek k with
  | some v => c.put k v
  | none => c

variable {c}

theorem peek_eq_some : c.peek k = some v ↔ (k, v) ∈ c.entries := by
  unfold peek
  constructor
  · intro h
    obtain ⟨e, he, rfl⟩ := Option.map_eq_some_iff.mp h
    have hk : e.1 = k := by simpa using List.find?_some he
    exact hk ▸ List.mem_of_find?_eq_some he
  intro h
  cases hfind : c.entries.find? fun e => e.1 = k with
  | none => simpa using List.find?_eq_none.mp hfind _ h
  | some e =>
    have hk : e.1 = k := by simpa using List.find?_some hfind
    have heq := inj_on_of_nodup_map c.distinct (List.mem_of_find?_eq_some hfind) h hk
    rw [heq]
    rfl

theorem mem_pop {e : κ × ν} : e ∈ (c.pop k).entries ↔ e ∈ c.entries ∧ e.1 ≠ k := by simp [pop]

theorem peek_pop_self : (c.pop k).peek k = none := by
  rw [Option.eq_none_iff_forall_ne_some]
  exact fun v hv => (mem_pop.mp (peek_eq_some.mp hv)).2 rfl

theorem mem_of_mem_put {e : κ × ν} (h : e ∈ (c.put k v).entries) :
    e = (k, v) ∨ e ∈ c.entries ∧ e.1 ≠ k := by
  rcases mem_cons.mp h with h | h
  · exact .inl h
  · exact .inr (mem_pop.mp (mem_of_mem_take h))

/-! ## How far back an entry is -/

/-- The cache has the entry, and every key used since is in the set. -/
def Holds (c : LruCache κ ν) (k : κ) (v : ν) (since : Finset κ) : Prop :=
  ∃ later earlier, c.entries = later ++ (k, v) :: earlier ∧ ∀ e ∈ later, e.1 ∈ since

namespace Holds

variable {since since' : Finset κ}

theorem peek (h : c.Holds k v since) : c.peek k = some v := by
  obtain ⟨later, earlier, hentries, -⟩ := h
  exact peek_eq_some.mpr (by simp [hentries])

theorem put_self : (c.put k v).Holds k v ∅ := ⟨[], _, rfl, by simp⟩

omit [DecidableEq κ] in
theorem mono (h : c.Holds k v since) (hsub : since ⊆ since') : c.Holds k v since' := by
  obtain ⟨later, earlier, hentries, hlater⟩ := h
  exact ⟨later, earlier, hentries, fun e he => hsub (hlater e he)⟩

theorem pop (h : c.Holds k v since) (hne : k ≠ k') : (c.pop k').Holds k v since := by
  obtain ⟨later, earlier, hentries, hlater⟩ := h
  refine ⟨later.filter fun e => e.1 ≠ k', earlier.filter fun e => e.1 ≠ k', ?_, ?_⟩
  · simp [LruCache.pop, hentries, hne]
  · exact fun e he => hlater e (mem_of_mem_filter he)

theorem put (h : c.Holds k v since) (hne : k ≠ k') (hcard : (insert k' since).card < c.cap) :
    (c.put k' v').Holds k v (insert k' since) := by
  obtain ⟨later, earlier, hentries, hlater⟩ := h.pop hne
  have hkept : ∀ e ∈ later, e.1 ∈ since.erase k' := by
    intro e he
    have hpop : e ∈ (c.pop k').entries := hentries ▸ mem_append_left _ he
    exact Finset.mem_erase.mpr ⟨(mem_pop.mp hpop).2, hlater e he⟩
  have hlength : later.length < c.cap - 1 := by
    have hnodup : (later.map Prod.fst).Nodup := by
      have := (c.pop k').distinct
      rw [hentries, map_append] at this
      exact (List.nodup_append.mp this).1
    have hle : later.length ≤ (since.erase k').card := by
      rw [← length_map (f := Prod.fst), ← toFinset_card_of_nodup hnodup]
      refine Finset.card_le_card fun x hx => ?_
      obtain ⟨e, he, rfl⟩ := List.mem_map.mp (mem_toFinset.mp hx)
      exact hkept e he
    have hcount : (since.erase k').card = (insert k' since).card - 1 := by
      rw [← Finset.erase_insert_eq_erase, Finset.card_erase_of_mem (by simp)]
    have hpos : 0 < (insert k' since).card := Finset.card_pos.mpr ⟨k', by simp⟩
    omega
  refine ⟨(k', v') :: later, earlier.take (c.cap - 1 - later.length - 1), ?_, ?_⟩
  · obtain ⟨n, hn⟩ := Nat.exists_eq_add_of_lt hlength
    simp only [LruCache.put, hentries, take_append, cons_append]
    rw [take_of_length_le (Nat.le_of_lt hlength)]
    rw [show c.cap - 1 - later.length = n + 1 by omega, take_succ_cons]
    rfl
  · intro e he
    rcases mem_cons.mp he with rfl | he
    · simp
    · exact Finset.mem_insert_of_mem (Finset.mem_of_mem_erase (hkept e he))

end Holds

end LruCache

/-! ## Implementations -/

/-- A type of caches with the operations that a program calls. The laws say what each does to
the cache that a value stands for. -/
structure LruMap (κ : Type u) (ν : Type v) [DecidableEq κ] where
  Map : Type (max u v)
  cache : Map → LruCache κ ν
  new : (cap : ℕ) → 0 < cap → Map
  get : Map → κ → Option ν × Map
  /-- changes the entry of a key, or one that is inserted for it -/
  getOrInsertMut : Map → κ → (Option ν → ν) → Map
  pop : Map → κ → Map
  cache_new : ∀ cap h, cache (new cap h) = .new cap h
  get_value : ∀ m k, (get m k).1 = (cache m).peek k
  cache_get : ∀ m k, cache (get m k).2 = (cache m).touch k
  cache_getOrInsertMut : ∀ m k f,
    cache (getOrInsertMut m k f) = (cache m).put k (f ((cache m).peek k))
  cache_pop : ∀ m k, cache (pop m k) = (cache m).pop k

/-- The caches themselves are an implementation. -/
def LruCache.asMap [DecidableEq κ] : LruMap κ ν where
  Map := LruCache κ ν
  cache c := c
  new := LruCache.new
  get c k := (c.peek k, c.touch k)
  getOrInsertMut c k f := c.put k (f (c.peek k))
  pop := LruCache.pop
  cache_new _ _ := rfl
  get_value _ _ := rfl
  cache_get _ _ := rfl
  cache_getOrInsertMut _ _ _ := rfl
  cache_pop _ _ := rfl
