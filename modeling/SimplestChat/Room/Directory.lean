import Mathlib

/-!
# Pages of the room directory

`fetch_directory_page` cuts one page out of two lists: the rooms with people in them,
which are sorted in memory, and all others, of which the database is asked for the part
that the page still needs. `list_window` refuses pages after the thousandth, so a
directory with more rooms than a thousand pages hold is not listed to its end.
-/

open List

/-- Insertion is a stable sort: what the order does not tell apart stays as it was. -/
theorem List.pairwise_insertionSort_stable {α : Type*} {r s : α → α → Prop} [DecidableRel r]
    (total : ∀ a b, r a b ∨ r b a) (trans : ∀ a b c, r a b → r b c → r a c) {l : List α}
    (hl : l.Pairwise s) :
    (l.insertionSort r).Pairwise fun a b => r a b ∧ (r b a → s a b) := by
  induction l with
  | nil => exact List.Pairwise.nil
  | cons a rest ih =>
    obtain ⟨ha, hrest⟩ := pairwise_cons.mp hl
    have hs : ∀ b ∈ rest.insertionSort r, s a b := fun b hb => ha b ((mem_insertionSort r).mp hb)
    rw [insertionSort_cons]
    have hsorted := ih hrest
    generalize rest.insertionSort r = sorted at hs hsorted ⊢
    induction sorted with
    | nil => exact pairwise_singleton _ _
    | cons b sorted ih =>
      obtain ⟨hb, htail⟩ := pairwise_cons.mp hsorted
      rw [orderedInsert_cons]
      split
      · rename_i hab
        refine pairwise_cons.mpr ⟨fun c hc => ⟨?_, fun _ => hs c hc⟩, hsorted⟩
        rcases mem_cons.mp hc with rfl | hc
        · exact hab
        · exact trans a b c hab (hb c hc).1
      · rename_i hab
        refine pairwise_cons.mpr
          ⟨fun c hc => ?_, ih (fun c hc => hs c (mem_cons_of_mem _ hc)) htail⟩
        rcases mem_cons.mp ((perm_orderedInsert r a sorted).mem_iff.mp hc) with rfl | hc
        · exact ⟨(total c b).resolve_left hab, fun h => absurd h hab⟩
        · exact hb c hc

namespace SimplestChat.Directory

structure RoomListRow where
  id : ℕ
  createdAt : ℕ
  secret : Bool
deriving DecidableEq

abbrev LiveCounts := List (ℕ × Option ℕ)

def maxRoomListPage : ℕ := 1000
def maxRoomListLimitInput : ℕ := 1000
def maxRoomListResults : ℕ := 100

def listWindow (page limit : Option ℕ) : Except String (ℕ × ℕ) :=
  let page := page.getD 1
  if ¬(1 ≤ page ∧ page ≤ maxRoomListPage) then .error "Invalid page"
  else
    let requested := limit.getD 20
    if ¬(1 ≤ requested ∧ requested ≤ maxRoomListLimitInput) then .error "Invalid limit"
    else
      let limit := min requested maxRoomListResults
      .ok (limit, (page - 1) * limit)

def busiestFirst : Option ℕ → Option ℕ → Ordering
  | some a, some b => compare b a
  | some _, none => .lt
  | none, some _ => .gt
  | none, none => .eq

/-- `ORDER BY created_at DESC, id DESC`. -/
def newestFirst (a b : RoomListRow) : Prop :=
  toLex (b.createdAt, b.id) ≤ toLex (a.createdAt, a.id)
deriving Decidable

structure PageWindow where
  start : ℕ
  stop : ℕ
  dormantLimit : ℕ
  dormantOffset : ℕ

def pageWindow (liveLen limit offset : ℕ) : PageWindow :=
  let start := min offset liveLen
  let stop := min (offset + limit) liveLen
  ⟨start, stop, limit - (stop - start), offset - liveLen⟩

section Snapshot

/- One snapshot: the saved rooms, the live counts, and the rooms that the search pattern
matches. -/
variable (rows : List RoomListRow) (live : LiveCounts) (matching : RoomListRow → Bool)

def isLive (row : RoomListRow) : Bool := live.any fun entry => entry.1 = row.id

/-- The map that is collected from the counts keeps the last entry of an ID. -/
def count (row : RoomListRow) : Option ℕ := (live.reverse.lookup row.id).join

def listed (row : RoomListRow) : Bool := !row.secret && matching row

/-- At least as busy, as the sort compares. -/
def busier (a b : RoomListRow) : Prop := busiestFirst (count live a) (count live b) ≠ .gt
deriving Decidable

def liveRows : List RoomListRow :=
  ((rows.filter fun row => listed matching row && isLive live row).insertionSort
    newestFirst).insertionSort (busier live)

def dormantRows : List RoomListRow :=
  (rows.filter fun row => listed matching row && !isLive live row).insertionSort newestFirst

def fetchDirectoryPage (limit offset : ℕ) : List RoomListRow :=
  let sorted := liveRows rows live matching
  let window := pageWindow sorted.length limit offset
  let page := (sorted.take window.stop).drop window.start
  if window.dormantLimit = 0 then page
  else
    page ++ ((dormantRows rows live matching).drop window.dormantOffset).take
      window.dormantLimit

def listRooms (page limit : Option ℕ) : Except String (List RoomListRow) :=
  (listWindow page limit).map fun (limit, offset) =>
    fetchDirectoryPage rows live matching limit offset

def listing : List RoomListRow := liveRows rows live matching ++ dormantRows rows live matching

theorem fetchDirectoryPage_eq (limit offset : ℕ) :
    fetchDirectoryPage rows live matching limit offset =
      ((listing rows live matching).drop offset).take limit := by
  unfold fetchDirectoryPage pageWindow listing
  generalize liveRows rows live matching = ahead
  generalize dormantRows rows live matching = behind
  dsimp only
  rw [drop_append, take_append, drop_take, length_drop]
  by_cases hahead : offset ≤ ahead.length
  · rw [min_eq_left hahead]
    by_cases hfull : offset + limit ≤ ahead.length
    · rw [min_eq_left hfull, Nat.add_sub_cancel_left, Nat.sub_self, if_pos rfl]
      simp [Nat.sub_eq_zero_of_le (by omega : limit ≤ ahead.length - offset)]
    have hrest : (ahead.drop offset).length ≤ limit := by
      rw [length_drop]
      omega
    rw [min_eq_right (by omega), if_neg (by omega), take_of_length_le hrest,
      take_of_length_le (by simp)]
  · rw [min_eq_right (by omega), min_eq_right (by omega),
      drop_eq_nil_of_le (by omega : ahead.length ≤ offset)]
    by_cases hzero : limit = 0
    · simp [hzero]
    · simp [hzero, Nat.sub_eq_zero_of_le (by omega : ahead.length ≤ offset)]

/-- `a` was created after `b`, or at the same instant and with a greater ID. -/
def Newer (a b : RoomListRow) : Prop :=
  b.createdAt < a.createdAt ∨ b.createdAt = a.createdAt ∧ b.id ≤ a.id

/-- The directory has every listed room once: the live ones first, by their counts and
then by age, and the others by age. -/
structure Ordered (l ahead behind : List RoomListRow) : Prop where
  split : l = ahead ++ behind
  perm : l.Perm (rows.filter (listed matching))
  visited : ∀ row ∈ ahead, isLive live row = true
  dormant : ∀ row ∈ behind, isLive live row = false
  /-- a greater known count comes first -/
  known : ahead.Pairwise fun a b => ∀ m ∈ count live a, ∀ n ∈ count live b, n ≤ m
  /-- nothing with a known count comes after a room without one -/
  unknown : ahead.Pairwise fun a b => count live a = none → count live b = none
  tied : ahead.Pairwise fun a b => count live a = count live b → Newer a b
  newest : behind.Pairwise Newer

theorem newer_of_newestFirst {a b : RoomListRow} (h : newestFirst a b) : Newer a b :=
  Prod.Lex.toLex_le_toLex.mp h

theorem newestFirst_sort (l : List RoomListRow) :
    (l.insertionSort newestFirst).Pairwise newestFirst := by
  have hsorted := List.pairwise_insertionSort_stable (r := newestFirst)
    (s := fun _ _ => True) (fun a b => le_total _ _) (fun a b c hab hbc => hbc.trans hab)
    (pairwise_of_forall (l := l) fun _ _ => trivial)
  exact hsorted.imp fun h => h.1

theorem busier_total (a b : RoomListRow) : busier live a b ∨ busier live b a := by
  unfold busier
  cases count live a <;> cases count live b <;> simp [busiestFirst, Nat.compare_ne_gt, Nat.le_total]

theorem busier_trans (a b c : RoomListRow) (hab : busier live a b) (hbc : busier live b c) :
    busier live a c := by
  unfold busier at *
  revert hab hbc
  cases count live a <;> cases count live b <;> cases count live c <;>
    simp [busiestFirst, Nat.compare_ne_gt]
  exact fun hab hbc => hbc.trans hab

/-- What the comparator says of two counts. -/
theorem busier_iff (a b : RoomListRow) : busier live a b ↔
    (∀ m ∈ count live a, ∀ n ∈ count live b, n ≤ m) ∧
      (count live a = none → count live b = none) := by
  unfold busier
  cases count live a <;> cases count live b <;> simp [busiestFirst, Nat.compare_ne_gt]

theorem listing_ordered : Ordered rows live matching (listing rows live matching)
    (liveRows rows live matching) (dormantRows rows live matching) := by
  have hlive := (perm_insertionSort (busier live) _).trans (perm_insertionSort newestFirst
      (rows.filter fun row => listed matching row && isLive live row))
  have hdormant := perm_insertionSort newestFirst
    (rows.filter fun row => listed matching row && !isLive live row)
  have hsorted := List.pairwise_insertionSort_stable (busier_total live) (busier_trans live)
    (newestFirst_sort (rows.filter fun row => listed matching row && isLive live row))
  refine ⟨rfl, ?_, fun row hrow => ?_, fun row hrow => ?_, ?_, ?_, ?_,
    (newestFirst_sort _).imp newer_of_newestFirst⟩
  · refine (hlive.append hdormant).trans ?_
    have := filter_append_perm (isLive live) (rows.filter (listed matching))
    simpa only [filter_filter, Bool.and_comm] using this
  · have := (List.mem_filter.mp (hlive.mem_iff.mp hrow)).2
    simp_all
  · have := (List.mem_filter.mp (hdormant.mem_iff.mp hrow)).2
    simp_all
  · exact hsorted.imp fun h => ((busier_iff live _ _).mp h.1).1
  · exact hsorted.imp fun h => ((busier_iff live _ _).mp h.1).2
  · refine hsorted.imp fun h hsame => newer_of_newestFirst (h.2 ?_)
    rw [busier_iff] at h ⊢
    simpa [hsame] using h.1

/-- Page `k + 1` of a directory. -/
def pageOf (l : List RoomListRow) (limit k : ℕ) : List RoomListRow :=
  (l.drop (k * limit)).take limit

theorem flatten_pages (l : List RoomListRow) (limit n : ℕ) :
    ((List.range n).map (pageOf l limit)).flatten = l.take (n * limit) := by
  induction n with
  | zero => simp
  | succ n ih =>
    rw [range_succ, map_append, flatten_append, ih, Nat.succ_mul, take_add]
    simp [pageOf]

theorem flatten_pages_eq_iff {l : List RoomListRow} {limit n : ℕ} :
    ((List.range n).map (pageOf l limit)).flatten = l ↔ l.length ≤ n * limit := by
  rw [flatten_pages]
  exact take_eq_self_iff l

theorem listWindow_refused {k : ℕ} (hk : maxRoomListPage ≤ k) (limit : Option ℕ) :
    listWindow (some (k + 1)) limit = .error "Invalid page" := by
  unfold listWindow
  exact if_pos (by simp only [Option.getD_some]; omega)

/-- The first thousand pages are the consecutive parts of the directory, all of them full
but the last that has anything, and any other page is refused; so they are the directory
exactly if it fits into a thousand pages. -/
theorem directory_pages (requested : ℕ) (hpositive : 1 ≤ requested)
    (hbound : requested ≤ maxRoomListLimitInput) :
    let l := listing rows live matching
    let limit := min requested maxRoomListResults
    Ordered rows live matching l (liveRows rows live matching)
      (dormantRows rows live matching) ∧
    (∀ k < maxRoomListPage, listRooms rows live matching (some (k + 1)) (some requested) =
      .ok (pageOf l limit k)) ∧
    (∀ k ≥ maxRoomListPage, listRooms rows live matching (some (k + 1)) (some requested) =
      .error "Invalid page") ∧
    (∀ n, ((List.range n).map (pageOf l limit)).flatten = l.take (n * limit)) ∧
    (∀ k, pageOf l limit (k + 1) ≠ [] → (pageOf l limit k).length = limit) ∧
    (((List.range maxRoomListPage).map (pageOf l limit)).flatten = l ↔
      l.length ≤ maxRoomListPage * limit) := by
  intro l limit
  refine ⟨listing_ordered rows live matching, fun k hk => ?_, fun k hk => ?_,
    flatten_pages l limit, fun k hnext => ?_, flatten_pages_eq_iff⟩
  · unfold listRooms listWindow
    simp only [Option.getD_some]
    rw [if_neg (by unfold maxRoomListPage at *; omega), if_neg (by omega)]
    exact congrArg _ (fetchDirectoryPage_eq rows live matching _ _)
  · unfold listRooms
    rw [listWindow_refused hk]
    rfl
  · unfold pageOf at *
    have hlong : (k + 1) * limit < l.length := by
      by_contra hshort
      exact hnext (by rw [drop_eq_nil_of_le (by omega), take_nil])
    rw [length_take, length_drop]
    rw [Nat.succ_mul] at hlong
    omega

end Snapshot

def room (n : ℕ) : RoomListRow := ⟨n, n, false⟩

/-- Two live rooms with a count, one without, a dormant one and a secret one. -/
def someRooms : List RoomListRow := [room 1, room 2, room 3, ⟨4, 4, true⟩, room 5]

def someCounts : LiveCounts := [(1, some 3), (2, none), (4, some 9), (5, some 7)]

/-- With two rooms a page, the directory is on two pages. -/
theorem directory_of_five :
    listRooms someRooms someCounts (fun _ => true) (some 1) (some 2) = .ok [room 5, room 1] ∧
    listRooms someRooms someCounts (fun _ => true) (some 2) (some 2) = .ok [room 2, room 3] ∧
    listRooms someRooms someCounts (fun _ => true) (some 1001) (some 2) =
      .error "Invalid page" ∧
    ((List.range maxRoomListPage).map (pageOf (listing someRooms someCounts fun _ => true)
      2)).flatten = [room 5, room 1, room 2, room 3] := by
  obtain ⟨-, hpages, hrefused, -, -, hwhole⟩ :=
    directory_pages someRooms someCounts (fun _ => true) 2 (by decide) (by decide)
  exact ⟨hpages 0 (by decide), hpages 1 (by decide), hrefused 1000 (by decide),
    hwhole.mpr (by decide)⟩

/-- With one room a page, the last of 1001 rooms is on a page that is refused. -/
theorem last_room_unlisted : let rows := (List.range 1001).map room
    (∀ k, listRooms rows [] (fun _ => true) (some (k + 1)) (some 1) ≠ .error "Invalid page" →
      k < 1000) ∧
    ((List.range 1000).map (pageOf (listing rows [] fun _ => true) 1)).flatten.length = 1000 ∧
    (listing rows [] fun _ => true).length = 1001 := by
  intro rows
  have hlength : (listing rows [] fun _ => true).length = 1001 := by
    rw [(listing_ordered rows [] fun _ => true).perm.length_eq]
    simp [rows, filter_eq_self.mpr, listed, room]
  refine ⟨fun k hok => ?_, ?_, hlength⟩
  · by_contra hk
    refine hok ?_
    unfold listRooms
    rw [listWindow_refused (not_lt.mp hk)]
    rfl
  · rw [flatten_pages, length_take, hlength]
    rfl

end SimplestChat.Directory
