import SimplestChat.Room.State
import SimplestChat.Support.Rows

/-!
# Favorite and recent rooms

One table holds an account's favorites and the rooms it visited last. Every transaction on
it first locks the account's row, so that those of one account follow one another.
-/

namespace SimplestChat

open Rows List

/-- A row of an account's saved rooms. -/
structure SavedRoom where
  room : RoomId
  favorite : Bool
  lastVisited : Option ℕ
deriving DecidableEq

namespace SavedRoom

def maxFavorites : ℕ := 100

def maxRecent : ℕ := 50

/-- `DESC` puts a row without a visit first. -/
def visit (r : SavedRoom) : WithTop ℕ := r.lastVisited

/-- `ORDER BY last_visited DESC,room_id`. -/
def position (r : SavedRoom) : (WithTop ℕ)ᵒᵈ ×ₗ RoomId := toLex (OrderDual.toDual r.visit, r.room)

def recent (rows : List SavedRoom) : List SavedRoom :=
  (rows.filter fun r => !r.favorite).insertionSort (Order.Preimage position (· ≤ ·))

def trimRecent (rows : List SavedRoom) : List SavedRoom :=
  rows.filter fun r => r.favorite || !((recent rows).drop maxRecent).any fun s => s.room = r.room

/-- `INSERT ... ON CONFLICT DO UPDATE`; the order of the rows does not matter. -/
def upsert (room : RoomId) (change : SavedRoom → SavedRoom) (rows : List SavedRoom) :
    List SavedRoom :=
  change ((rows.find? fun r => r.room = room).getD ⟨room, false, none⟩) ::
    rows.filter fun r => r.room ≠ room

def saveFavorite (rows : List SavedRoom) (room : RoomId) (favorite visible : Bool) :
    Except String (List SavedRoom) :=
  if favorite then
    if !visible then .error "Room unavailable"
    else if maxFavorites ≤ rows.countP fun r => r.favorite && r.room ≠ room then
      .error "Keep at most 100 favorite rooms"
    else .ok (upsert room (fun r => { r with favorite := true }) rows)
  else
    let visited := rows.filter fun r => !(r.room = room && r.lastVisited.isNone)
    .ok (trimRecent
      (update (fun r => r.room = room) (fun r => { r with favorite := false }) visited))

def recordRoomVisit (rows : List SavedRoom) (room : RoomId) (exist : Bool) (now : ℕ) :
    List SavedRoom :=
  trimRecent
    (if exist then upsert room (fun r => { r with lastVisited := some now }) rows else rows)

/-- The tables that the committed transactions of one account lead to. -/
inductive Reached : List SavedRoom → Prop
  | empty : Reached []
  | saved {rows saved : List SavedRoom} {room : RoomId} {favorite visible : Bool}
      (h : Reached rows) (hsave : saveFavorite rows room favorite visible = .ok saved) :
      Reached saved
  | visited {rows : List SavedRoom} (h : Reached rows) (room : RoomId) (exist : Bool) (now : ℕ) :
      Reached (recordRoomVisit rows room exist now)

/-! ## Trimming -/

variable {rows : List SavedRoom} {r s : SavedRoom}

theorem mem_recent : r ∈ recent rows ↔ r ∈ rows ∧ r.favorite = false := by
  simp [recent, mem_insertionSort]

theorem trimRecent_recent : (trimRecent rows).countP (fun r => !r.favorite) ≤ maxRecent := by
  have hperm : (recent rows).Perm (rows.filter fun r => !r.favorite) := perm_insertionSort _ _
  have hkept := length_kept_le SavedRoom.room hperm maxRecent
  rw [filter_filter] at hkept
  rw [trimRecent, countP_filter, countP_eq_length_filter]
  refine le_trans (List.Sublist.length_le (monotone_filter_right _ ?_)) hkept
  intro r
  cases r.favorite <;> simp

/-- Trimming takes away no more than it has to. -/
theorem trimRecent_kept (hkeys : (rows.map SavedRoom.room).Nodup) :
    min maxRecent (rows.countP fun r => !r.favorite) ≤
      (trimRecent rows).countP fun r => !r.favorite := by
  have hperm : (recent rows).Perm (rows.filter fun r => !r.favorite) := perm_insertionSort _ _
  have hrecent : ((recent rows).map SavedRoom.room).Nodup :=
    (hperm.map _).nodup_iff.mpr (nodup_filter hkeys)
  have hsub : ((recent rows).take maxRecent).Subperm
      ((trimRecent rows).filter fun r => !r.favorite) := by
    refine (hrecent.of_map.sublist (take_sublist _ _)).subperm fun r hr => ?_
    obtain ⟨hrow, hfavorite⟩ := mem_recent.mp (mem_of_mem_take hr)
    simp only [trimRecent, mem_filter, hrow, hfavorite, true_and, Bool.false_or, Bool.not_false,
      and_true, Bool.not_eq_true', any_eq_false, decide_eq_true_eq]
    -- a room behind the first ones with the same ID would be the same row
    rw [← take_append_drop maxRecent (recent rows), map_append] at hrecent
    intro s hs hroom
    exact (nodup_append.mp hrecent).2.2 _ (mem_map_of_mem hr) _ (mem_map_of_mem hs) hroom.symm
  rw [countP_eq_length_filter, countP_eq_length_filter, ← hperm.length_eq, ← length_take]
  exact hsub.length_le

/-- The recent rooms that stay were visited no earlier than those that go. -/
theorem visited_le_of_trimmed (hkeys : (rows.map SavedRoom.room).Nodup) (hr : r ∈ trimRecent rows)
    (hrecent : r.favorite = false) (hs : s ∈ rows) (hgone : s ∉ trimRecent rows) :
    s.visit ≤ r.visit := by
  have hsorted : (recent rows).Pairwise (Order.Preimage position (· ≤ ·)) :=
    pairwise_insertionSort _ _
  obtain ⟨hrow, hkept⟩ := mem_filter.mp hr
  simp only [trimRecent, mem_filter, hs, true_and, Bool.not_eq_true, Bool.or_eq_false_iff,
    Bool.not_eq_false', any_eq_true, decide_eq_true_eq] at hgone
  obtain ⟨-, dropped, hdropped, hroom⟩ := hgone
  have hall : dropped ∈ rows := (mem_recent.mp (mem_of_mem_drop hdropped)).1
  rw [eq_of_key hkeys hall hs hroom] at hdropped
  -- `r` is among the first rows of the order and `s` behind them
  have hfirst : r ∈ (recent rows).take maxRecent := by
    have hmem := mem_recent.mpr ⟨hrow, hrecent⟩
    rw [← take_append_drop maxRecent (recent rows), mem_append] at hmem
    refine hmem.resolve_right fun hlast => ?_
    simp only [hrecent, Bool.false_or, Bool.not_eq_true', any_eq_false] at hkept
    exact hkept r hlast (by simp)
  rw [← take_append_drop maxRecent (recent rows), pairwise_append] at hsorted
  have hle : position r ≤ position s := hsorted.2.2 r hfirst s hdropped
  rw [position, position, Prod.Lex.toLex_le_toLex] at hle
  rcases hle with hlt | ⟨heq, -⟩
  · exact (OrderDual.toDual_lt_toDual.mp hlt).le
  · exact (OrderDual.toDual_inj.mp heq).ge

/-! ## The invariant -/

structure Sound (rows : List SavedRoom) : Prop where
  keys : (rows.map SavedRoom.room).Nodup
  favorites : rows.countP (fun r => r.favorite) ≤ maxFavorites
  marked : ∀ r ∈ rows, r.favorite = true ∨ r.lastVisited.isSome = true

/-- Between a change and the trimming only `Sound` holds. -/
structure Inv (rows : List SavedRoom) : Prop extends Sound rows where
  recents : rows.countP (fun r => !r.favorite) ≤ maxRecent

theorem Sound.trimmed (h : Sound rows) : Inv (trimRecent rows) where
  keys := nodup_filter h.keys
  favorites := filter_sublist.countP_le.trans h.favorites
  marked r hr := h.marked r (mem_of_mem_filter hr)
  recents := trimRecent_recent

theorem Sound.upserted (h : Sound rows) {room : RoomId} {change : SavedRoom → SavedRoom}
    (hroom : ∀ r, (change r).room = r.room)
    (hmarked : ∀ r, (change r).favorite = true ∨ (change r).lastVisited.isSome = true)
    (favorites : (upsert room change rows).countP (fun r => r.favorite) ≤ maxFavorites) :
    Sound (upsert room change rows) where
  keys := by
    refine nodup_cons (nodup_filter h.keys) fun r hr => ?_
    have hr := (mem_filter.mp hr).2
    rw [hroom]
    cases hfind : rows.find? fun r => r.room = room with
    | none => simpa using hr
    | some old =>
      have hold := find?_some hfind
      simp_all
  favorites := favorites
  marked r hr := by
    rcases mem_cons.mp hr with rfl | hr
    · exact hmarked _
    · exact h.marked r (mem_of_mem_filter hr)

theorem Inv.star (h : Inv rows) {room : RoomId}
    (hcount : rows.countP (fun r => r.favorite && r.room ≠ room) < maxFavorites) :
    Inv (upsert room (fun r => { r with favorite := true }) rows) where
  toSound := h.upserted (fun _ => rfl) (fun _ => .inl rfl)
    (by simpa [upsert, List.countP_filter] using hcount)
  recents := by simpa [upsert] using filter_sublist.countP_le.trans h.recents

theorem Inv.unstar (h : Inv rows) (room : RoomId) :
    Inv (trimRecent (update (fun r => r.room = room) (fun r => { r with favorite := false })
      (rows.filter fun r => !(r.room = room && r.lastVisited.isNone)))) := by
  refine Sound.trimmed ⟨?_, ?_, fun r hr => ?_⟩
  · rw [map_update (by simp)]
    exact nodup_filter h.keys
  · refine le_trans (countP_update_le fun _ _ _ hr => by cases hr) ?_
    exact filter_sublist.countP_le.trans h.favorites
  · obtain ⟨s, hs, hroom, rfl⟩ | ⟨hr, -⟩ := mem_update.mp hr
    · have hvisited := (mem_filter.mp hs).2
      cases hlast : s.lastVisited <;> simp_all
    · exact h.marked r (mem_of_mem_filter hr)

theorem Inv.visit (h : Inv rows) (room : RoomId) (exist : Bool) (now : ℕ) :
    Inv (recordRoomVisit rows room exist now) := by
  unfold recordRoomVisit
  split
  · refine Sound.trimmed (h.upserted (fun _ => rfl) (fun _ => .inr rfl) (le_trans ?_ h.favorites))
    rw [upsert, countP_cons,
      countP_eq_countP_filter_add rows (fun r => r.favorite) fun r => r.room ≠ room]
    -- the new row is a favorite only if it replaces one
    refine Nat.add_le_add_left ?_ _
    split
    · rename_i hfavorite
      cases hfind : rows.find? fun r => r.room = room with
      | none => simp [hfind] at hfavorite
      | some old =>
        have hold := find?_some hfind
        have hrow : old ∈ rows := mem_of_find?_eq_some hfind
        refine countP_pos_iff.mpr ⟨old, mem_filter.mpr ⟨hrow, ?_⟩, ?_⟩
        · simpa using hold
        · simpa [hfind] using hfavorite
    · exact Nat.zero_le _
  · exact h.trimmed

theorem Inv.save (h : Inv rows) {room : RoomId} {favorite visible : Bool} {saved : List SavedRoom}
    (hsave : saveFavorite rows room favorite visible = .ok saved) : Inv saved := by
  unfold saveFavorite at hsave
  split at hsave
  · split at hsave
    · cases hsave
    split at hsave
    · cases hsave
    · cases hsave
      exact h.star (not_le.mp ‹_›)
  · cases hsave
    exact h.unstar room

/-- In every table that is reached the bounds hold, and whenever a table is trimmed the
favorites stay and so do the rooms visited last, as many as the limit allows. -/
theorem saved_rooms_bounded (h : Reached rows) :
    Inv rows ∧ ∀ rows : List SavedRoom, (rows.map SavedRoom.room).Nodup →
      (∀ r ∈ rows, r.favorite = true → r ∈ trimRecent rows) ∧
      (trimRecent rows).countP (fun r => !r.favorite) =
        min maxRecent (rows.countP fun r => !r.favorite) ∧
      ∀ r ∈ trimRecent rows, r.favorite = false →
        ∀ s ∈ rows, s ∉ trimRecent rows → s.visit ≤ r.visit := by
  refine ⟨?_, fun rows hkeys => ⟨fun r hr hfavorite => ?_, ?_, fun r hr hrecent s =>
    visited_le_of_trimmed hkeys hr hrecent⟩⟩
  · induction h with
    | empty => exact ⟨⟨nodup_nil, Nat.zero_le _, by simp⟩, Nat.zero_le _⟩
    | saved _ hsave ih => exact ih.save hsave
    | visited _ room exist now ih => exact ih.visit room exist now
  · exact mem_filter.mpr ⟨hr, by simp [hfavorite]⟩
  · exact le_antisymm (le_min trimRecent_recent filter_sublist.countP_le) (trimRecent_kept hkeys)

/-! ## An account at both limits -/

def star (rows : List SavedRoom) (room : RoomId) : List SavedRoom :=
  (saveFavorite rows room true true).toOption.getD rows

/-- A hundred favorites, and fifty visits to other rooms. -/
def fullAccount : List SavedRoom :=
  (List.range 50).foldl (fun rows n => recordRoomVisit rows (100 + n) true (n + 1))
    ((List.range 100).foldl star [])

theorem fullAccount_reached : Reached fullAccount := by
  refine List.foldlRecOn _ _ (List.foldlRecOn _ _ .empty fun rows h room _ => ?_)
    fun rows h n _ => h.visited _ true _
  unfold star
  cases hsave : saveFavorite rows room true true with
  | error => exact h
  | ok saved => exact h.saved hsave

/-- The table of one more visit before it is trimmed. -/
def overfullAccount : List SavedRoom :=
  upsert 150 (fun r => { r with lastVisited := some 51 }) fullAccount

/-- Another favorite is refused; another visit takes away the room visited first. -/
theorem fullAccount_bounded :
    saveFavorite fullAccount 150 true true = .error "Keep at most 100 favorite rooms" ∧
    Inv (recordRoomVisit fullAccount 150 true 51) ∧
    (trimRecent overfullAccount).countP (fun r => !r.favorite) = maxRecent ∧
    (⟨100, false, some 1⟩ : SavedRoom) ∉ trimRecent overfullAccount ∧
    ∀ r ∈ trimRecent overfullAccount, r.favorite = false → 1 ≤ r.visit := by
  obtain ⟨hrefused, hkeys, hfull, hrow, hgone⟩ :
      saveFavorite fullAccount 150 true true = .error "Keep at most 100 favorite rooms" ∧
      (overfullAccount.map SavedRoom.room).Nodup ∧
      maxRecent ≤ overfullAccount.countP (fun r => !r.favorite) ∧
      (⟨100, false, some 1⟩ : SavedRoom) ∈ overfullAccount ∧
      (⟨100, false, some 1⟩ : SavedRoom) ∉ trimRecent overfullAccount := by
    decide +kernel
  obtain ⟨-, hcount, hlatest⟩ := (saved_rooms_bounded fullAccount_reached).2 overfullAccount hkeys
  refine ⟨hrefused, (saved_rooms_bounded (fullAccount_reached.visited 150 true 51)).1, ?_, hgone,
    fun r hr hrecent => hlatest r hr hrecent _ hrow hgone⟩
  rw [hcount, min_eq_left hfull]

end SavedRoom

end SimplestChat
