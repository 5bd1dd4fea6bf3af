import SimplestChat.Chat.Text
import SimplestChat.Room.State
import SimplestChat.Support.Roster
import SimplestChat.Support.Runs

/-!
# Names in a room

Two names are the same to people if their comparison keys are equal: default
ignorables removed, NFKC, full case folding, NFKC again. A joiner whose name is
taken gets a numeric suffix. Normalization and folding are the two Unicode
tables the server asks ICU for; all the development needs of them is that they
leave a parenthesised number at the end of a text alone.
-/

namespace SimplestChat

open List Option Roster

/-! ## Comparison keys -/

def isSuffixChar (c : Char) : Bool :=
  c = '(' || c = ')' || c.isDigit

/-- The tables behind the comparison key: no character of a parenthesised
number composes with what stands before it, and none is changed by folding. -/
structure Unicode where
  nfkc : Text → Text
  fold : Char → Text
  nfkc_append : ∀ x y : Text, (∀ c ∈ y, isSuffixChar c = true) → nfkc (x ++ y) = nfkc x ++ y
  fold_suffixChar : ∀ c, isSuffixChar c = true → fold c = [c]

namespace Text

def trimStart (text : Text) : Text :=
  text.dropWhile isWhitespace

def trim (text : Text) : Text :=
  trimEnd (trimStart text)

variable (u : Unicode)

def comparisonKey (text : Text) : Text :=
  let visible := text.filter fun c => !isDefaultIgnorable c
  let normalized := u.nfkc (trim visible)
  let folded := normalized.flatMap u.fold
  trim (u.nfkc folded)

def isPlain (text : Text) : Bool :=
  !(comparisonKey u text).isEmpty &&
    !text.any fun c => isControl c || isHiddenFormat c

def isReservedName (name : Text) : Bool :=
  decide (comparisonKey u name = ['y', 'o', 'u'])

/-! ### Keys of suffixed names -/

def numbered (n : ℕ) : Text :=
  '(' :: (Nat.toDigits 10 n ++ [')'])

variable {c : Char}

theorem isSuffixChar_numbered {n : ℕ} (h : c ∈ numbered n) : isSuffixChar c = true := by
  rw [numbered, mem_cons, mem_append, mem_singleton] at h
  rcases h with rfl | hdigit | rfl
  · rfl
  · have hisDigit : c.isDigit = true :=
      Nat.isDigit_of_mem_toDigits (by decide) (by decide) hdigit
    simp [isSuffixChar, hisDigit]
  · rfl

theorem numbered_injective {n m : ℕ} (h : numbered n = numbered m) : n = m := by
  have hdigits : Nat.toDigits 10 n = Nat.toDigits 10 m := append_cancel_right (List.cons.inj h).2
  have hback := congrArg (fun digits => Nat.ofDigitChars 10 digits 0) hdigits
  simpa [Nat.ofDigitChars_toDigits] using hback

theorem isSuffixChar_toNat (h : isSuffixChar c = true) : 40 ≤ c.toNat ∧ c.toNat ≤ 57 := by
  simp only [isSuffixChar, Bool.or_eq_true, decide_eq_true_eq] at h
  rcases h with (rfl | rfl) | hdigit
  · decide
  · decide
  · simp only [Char.isDigit, Bool.and_eq_true, decide_eq_true_eq] at hdigit
    have hlow : 48 ≤ c.toNat := hdigit.1
    have hhigh : c.toNat ≤ 57 := hdigit.2
    omega

theorem not_ignorable_of_suffixChar (h : isSuffixChar c = true) : isDefaultIgnorable c = false := by
  have hrange := isSuffixChar_toNat h
  simp only [isDefaultIgnorable, Bool.or_eq_false_iff, Bool.and_eq_false_iff,
    decide_eq_false_iff_not]
  omega

theorem trimStart_append_numbered (text : Text) (n : ℕ) :
    trimStart (text ++ numbered n) = trimStart text ++ numbered n := by
  rw [trimStart, dropWhile_append]
  have hstop : (numbered n).dropWhile isWhitespace = numbered n := rfl
  split
  · rename_i hempty
    rw [hstop, trimStart, List.isEmpty_iff.mp hempty, nil_append]
  · rfl

theorem trimEnd_append_numbered (text : Text) (n : ℕ) :
    trimEnd (text ++ numbered n) = text ++ numbered n := by
  have hsplit : text ++ numbered n = (text ++ '(' :: Nat.toDigits 10 n) ++ [')'] := by
    simp [numbered]
  have hstop : isWhitespace ')' = false := rfl
  rw [hsplit, trimEnd, reverse_append, reverse_singleton,
    singleton_append, dropWhile_cons_of_neg (by simp [hstop]),
    reverse_cons, reverse_reverse]

theorem trim_append_numbered (text : Text) (n : ℕ) :
    trim (text ++ numbered n) = trimStart text ++ numbered n := by
  rw [trim, trimStart_append_numbered, trimEnd_append_numbered]

theorem flatMap_fold_numbered (n : ℕ) : (numbered n).flatMap u.fold = numbered n := by
  have hfold : ∀ text : Text, (∀ c ∈ text, isSuffixChar c = true) → text.flatMap u.fold = text := by
    intro text htext
    induction text with
    | nil => rfl
    | cons c rest ih =>
      rw [flatMap_cons, u.fold_suffixChar c (htext c mem_cons_self),
        ih fun d hd => htext d (mem_cons_of_mem _ hd), singleton_append]
  exact hfold _ fun c => isSuffixChar_numbered

theorem filter_numbered (n : ℕ) :
    (numbered n).filter (fun c => !isDefaultIgnorable c) = numbered n := by
  apply filter_eq_self.mpr
  intro c hc
  simp [not_ignorable_of_suffixChar (isSuffixChar_numbered hc)]

/-- A number at the end of a text stays at the end of its key, and what stands
before it in the key does not depend on the number. -/
theorem comparisonKey_append_numbered (text : Text) :
    ∃ rest, ∀ n, comparisonKey u (text ++ numbered n) = rest ++ numbered n := by
  refine ⟨trimStart (u.nfkc ((u.nfkc (trimStart
    (text.filter fun c => !isDefaultIgnorable c))).flatMap u.fold)), ?_⟩
  intro n
  have hchars : ∀ c ∈ numbered n, isSuffixChar c = true := fun c => isSuffixChar_numbered
  rw [comparisonKey, filter_append, filter_numbered, trim_append_numbered,
    u.nfkc_append _ _ hchars, flatMap_append, flatMap_fold_numbered,
    u.nfkc_append _ _ hchars, trim_append_numbered]

theorem comparisonKey_numbered_ne_reserved (text : Text) (n : ℕ) :
    comparisonKey u (text ++ numbered n) ≠ ['y', 'o', 'u'] := by
  obtain ⟨rest, hrest⟩ := comparisonKey_append_numbered u text
  rw [hrest]
  intro heq
  have hlast := congrArg List.getLast? heq
  rw [numbered, ← cons_append, ← append_assoc, List.getLast?_concat] at hlast
  simp at hlast

end Text

/-! ## Rooms by name -/

structure Named where
  id : ParticipantId
  name : Text
deriving DecidableEq

/-- The names of a room: its members and those in its lobby. -/
structure NamedRoom where
  participants : Roster Named.id
  lobby : Roster Named.id

/-- `MAX_PARTICIPANT_NAME_LEN`, in bytes. -/
def maxParticipantNameLen : ℕ := 64

namespace NamedRoom

open Text

variable (u : Unicode) (room : NamedRoom)

def people : List Named :=
  room.participants.entries ++ room.lobby.entries

def occupied : List Text :=
  room.people.map fun p => comparisonKey u p.name

/-- Whether someone other than the participant `except` uses the name. -/
def nameInUse (name : Text) (except : ParticipantId) : Bool :=
  ((room.participants.entries.filter fun p => decide (p.id ≠ except)) ++
    room.lobby.entries).any fun p => decide (comparisonKey u p.name = comparisonKey u name)

/-- The part of a taken name that is kept: its first characters. -/
def suffixBase (name : Text) : Text :=
  trimEnd ((trim name).take (maxParticipantNameLen - 6))

def candidate (name : Text) (suffix : ℕ) : Text :=
  suffixBase name ++ [' '] ++ numbered suffix

def searchSuffix (occupied : List Text) (name : Text) : (fuel suffix : ℕ) → Option Text
  | 0, _ => none
  | fuel + 1, suffix =>
    if comparisonKey u (candidate name suffix) ∉ occupied then
      some (candidate name suffix)
    else searchSuffix occupied name fuel (suffix + 1)

/-- The requested name, or the name with the first free suffix from 2 on. The
search ends within one more step than there are taken keys. -/
def uniqueParticipantName (name : Text) : Option Text :=
  if comparisonKey u name ∉ room.occupied u then some name
  else searchSuffix u (room.occupied u) name ((room.occupied u).length + 1) 2

/-- The checks of `JoinRoom`. -/
def acceptsName (name : Text) : Bool :=
  !isBlank name && decide (byteLength name ≤ maxParticipantNameLen) &&
    isPlain u name && !isReservedName u name

def acceptsNickname (nickname : Text) : Bool :=
  !nickname.isEmpty && decide (byteLength nickname ≤ 64) && isPlain u nickname &&
    !isReservedName u nickname

def present (id : ParticipantId) : Bool :=
  room.participants.contains id || room.lobby.contains id

end NamedRoom

/-- What changes the names of a room. -/
inductive NameAction where
  | join (id : ParticipantId) (name : Text) (waits : Bool)
  /-- a moderator admits from the lobby -/
  | admission (id : ParticipantId)
  | changeNickname (id : ParticipantId) (nickname : Text)
  /-- a participant leaves or is removed, or a lobby entry goes away -/
  | depart (id : ParticipantId)
deriving DecidableEq

namespace NamedRoom

open Text

variable (u : Unicode)

def step (room : NamedRoom) : NameAction → Option NamedRoom
  | .join id name waits =>
    if acceptsName u name && !room.present id then
      (room.uniqueParticipantName u name).map fun name =>
        if waits then { room with lobby := room.lobby.insert ⟨id, name⟩ }
        else { room with participants := room.participants.insert ⟨id, name⟩ }
    else none
  | .admission id =>
    (room.lobby.get id).map fun entry =>
      { lobby := room.lobby.erase id
        participants := room.participants.insert entry }
  | .changeNickname id nickname =>
    if room.participants.contains id && acceptsNickname u (trim nickname) &&
        !room.nameInUse u (trim nickname) id then
      some { room with participants := room.participants.insert ⟨id, trim nickname⟩ }
    else none
  | .depart id =>
    some { participants := room.participants.erase id, lobby := room.lobby.erase id }

def empty : NamedRoom := ⟨.empty, .empty⟩

def run (room : NamedRoom) (actions : List NameAction) : Option NamedRoom :=
  Transition.run (step u) room actions

/-! ## The search ends and finds the smallest free suffix -/

section Search

variable {u} {occupied : List Text} {name : Text}

theorem candidate_key_injective {n m : ℕ}
    (h : comparisonKey u (candidate name n) = comparisonKey u (candidate name m)) :
    n = m := by
  obtain ⟨rest, hrest⟩ := comparisonKey_append_numbered u (suffixBase name ++ [' '])
  rw [candidate, candidate, hrest, hrest] at h
  exact numbered_injective (append_cancel_left h)

theorem searchSuffix_eq_some {fuel suffix : ℕ} {chosen : Text}
    (h : searchSuffix u occupied name fuel suffix = some chosen) :
    ∃ n, suffix ≤ n ∧ chosen = candidate name n ∧ comparisonKey u chosen ∉ occupied ∧
      ∀ m, suffix ≤ m → m < n → comparisonKey u (candidate name m) ∈ occupied := by
  induction fuel generalizing suffix with
  | zero => cases h
  | succ fuel ih =>
    rw [searchSuffix] at h
    by_cases hfree : comparisonKey u (candidate name suffix) ∉ occupied
    · rw [if_pos hfree] at h
      cases h
      exact ⟨suffix, Nat.le_refl _, rfl, hfree, fun m hle hlt => by omega⟩
    rw [if_neg hfree] at h
    obtain ⟨n, hle, hchosen, hnot, hbefore⟩ := ih h
    refine ⟨n, by omega, hchosen, hnot, ?_⟩
    intro m hm hlt
    by_cases heq : m = suffix
    · rw [heq]
      exact not_not.mp hfree
    · exact hbefore m (by omega) hlt

theorem searchSuffix_eq_none {fuel suffix : ℕ}
    (h : searchSuffix u occupied name fuel suffix = none) :
    ∀ m, suffix ≤ m → m < suffix + fuel → comparisonKey u (candidate name m) ∈ occupied := by
  induction fuel generalizing suffix with
  | zero =>
    intro m hle hlt
    omega
  | succ fuel ih =>
    rw [searchSuffix] at h
    by_cases hfree : comparisonKey u (candidate name suffix) ∉ occupied
    · rw [if_pos hfree] at h
      cases h
    rw [if_neg hfree] at h
    intro m hle hlt
    by_cases heq : m = suffix
    · rw [heq]
      exact not_not.mp hfree
    · exact ih h m (by omega) (by omega)

/-- Every suffix gives another key, so one more than the taken keys suffice. -/
theorem searchSuffix_isSome (suffix : ℕ) :
    (searchSuffix u occupied name (occupied.length + 1) suffix).isSome = true := by
  rw [isSome_iff_ne_none]
  intro hnone
  have htaken := searchSuffix_eq_none hnone
  let keys := (List.range (occupied.length + 1)).map fun k =>
    comparisonKey u (candidate name (suffix + k))
  have hnodup : keys.Nodup := by
    apply List.Nodup.map _ nodup_range
    intro k l hkl
    have hsame := candidate_key_injective hkl
    omega
  have hsubset : keys ⊆ occupied := by
    intro key hkey
    obtain ⟨k, hk, rfl⟩ := List.mem_map.mp hkey
    have hlt := mem_range.mp hk
    exact htaken _ (by omega) (by omega)
  have hlength := (subperm_of_subset hnodup hsubset).length_le
  simp only [keys, length_map, length_range] at hlength
  omega

end Search

/-- The requested name if it is free, otherwise the one with the smallest free
suffix from 2 on. -/
def Chosen (room : NamedRoom) (name chosen : Text) : Prop :=
  comparisonKey u name ∉ room.occupied u ∧ chosen = name ∨
  comparisonKey u name ∈ room.occupied u ∧ ∃ n, 2 ≤ n ∧ chosen = candidate name n ∧
      comparisonKey u chosen ∉ room.occupied u ∧
      ∀ m, 2 ≤ m → m < n → comparisonKey u (candidate name m) ∈ room.occupied u

variable {room : NamedRoom} {name chosen : Text}

theorem uniqueParticipantName_chosen (h : room.uniqueParticipantName u name = some chosen) :
    Chosen u room name chosen := by
  rw [uniqueParticipantName] at h
  by_cases hfree : comparisonKey u name ∉ room.occupied u
  · rw [if_pos hfree] at h
    exact Or.inl ⟨hfree, (Option.some.inj h).symm⟩
  · rw [if_neg hfree] at h
    exact Or.inr ⟨not_not.mp hfree, searchSuffix_eq_some h⟩

theorem uniqueParticipantName_isSome (room : NamedRoom) (name : Text) :
    ∃ chosen, room.uniqueParticipantName u name = some chosen := by
  rw [uniqueParticipantName]
  by_cases hfree : comparisonKey u name ∉ room.occupied u
  · rw [if_pos hfree]
    exact ⟨name, rfl⟩
  · rw [if_neg hfree]
    exact isSome_iff_exists.mp (searchSuffix_isSome 2)

theorem Chosen.free (h : Chosen u room name chosen) : comparisonKey u chosen ∉ room.occupied u := by
  rcases h with ⟨hfree, rfl⟩ | ⟨-, n, -, -, hfree, -⟩ <;> exact hfree

/-! ## What a step does to the names -/

variable {u}

theorem mem_people {p : Named} : p ∈ room.people ↔ p ∈ room.participants ∨ p ∈ room.lobby :=
  mem_append

theorem mem_occupied {p : Named} (h : p ∈ room.people) : comparisonKey u p.name ∈ room.occupied u :=
  List.mem_map_of_mem h

theorem present_eq_false {id : ParticipantId} :
    room.present id = false ↔ ∀ p ∈ room.people, p.id ≠ id := by
  rw [present, Bool.or_eq_false_iff, contains_eq_false, contains_eq_false]
  constructor
  · rintro ⟨hparticipants, hlobby⟩ p hp
    rcases mem_people.mp hp with hin | hin
    · exact hparticipants p hin
    · exact hlobby p hin
  · intro h
    exact ⟨fun p hp => h p (mem_people.mpr (.inl hp)), fun p hp => h p (mem_people.mpr (.inr hp))⟩

def Apart (room : NamedRoom) : Prop :=
  ∀ p ∈ room.participants, ∀ q ∈ room.lobby, p.id ≠ q.id

inductive NameSource (u : Unicode) (room : NamedRoom) : NameAction → Named → Prop
  | join {id : ParticipantId} {name chosen : Text} {waits : Bool}
      (haccepted : acceptsName u name = true) (habsent : room.present id = false)
      (hchosen : Chosen u room name chosen) :
      NameSource u room (.join id name waits) ⟨id, chosen⟩
  | nickname {id : ParticipantId} {nickname : Text}
      (haccepted : acceptsNickname u (trim nickname) = true)
      (hfree : room.nameInUse u (trim nickname) id = false) :
      NameSource u room (.changeNickname id nickname) ⟨id, trim nickname⟩

section Step

variable {room next : NamedRoom} {a : NameAction}

theorem step_people (hapart : Apart room) (h : room.step u a = some next) :
    (∀ p ∈ next.people, p ∈ room.people) ∨ ∃ entry, NameSource u room a entry ∧
        ∀ p ∈ next.people, p ∈ room.people ∧ p.id ≠ entry.id ∨ p = entry := by
  cases a with
  | join id name waits =>
    rw [step] at h
    split at h
    case isFalse => cases h
    case isTrue hchecks =>
      simp only [Bool.and_eq_true, Bool.not_eq_true'] at hchecks
      obtain ⟨chosen, hchosen, rfl⟩ := map_eq_some_iff.mp h
      have habsent := present_eq_false.mp hchecks.2
      refine .inr ⟨⟨id, chosen⟩, .join hchecks.1 hchecks.2
        (uniqueParticipantName_chosen u hchosen), ?_⟩
      intro p hp
      have hcases : p ∈ room.people ∨ p = ⟨id, chosen⟩ := by
        cases waits with
        | true =>
          rcases mem_people.mp hp with hin | hin
          · exact .inl (mem_people.mpr (.inl hin))
          rcases mem_insert.mp hin with ⟨hold, -⟩ | hnew
          · exact .inl (mem_people.mpr (.inr hold))
          · exact .inr hnew
        | false =>
          rcases mem_people.mp hp with hin | hin
          · rcases mem_insert.mp hin with ⟨hold, -⟩ | hnew
            · exact .inl (mem_people.mpr (.inl hold))
            · exact .inr hnew
          · exact .inl (mem_people.mpr (.inr hin))
      exact hcases.imp_left fun hold => ⟨hold, habsent p hold⟩
  | admission =>
    left
    obtain ⟨entry, hentry, rfl⟩ := map_eq_some_iff.mp h
    have hwaits := (get_eq_some.mp hentry).1
    intro p hp
    rcases mem_people.mp hp with hin | hin
    · rcases mem_insert.mp hin with ⟨hold, -⟩ | rfl
      · exact mem_people.mpr (.inl hold)
      · exact mem_people.mpr (.inr hwaits)
    · exact mem_people.mpr (.inr (mem_erase.mp hin).1)
  | changeNickname id nickname =>
    rw [step] at h
    split at h
    case isFalse => cases h
    case isTrue hchecks =>
      simp only [Bool.and_eq_true, Bool.not_eq_true'] at hchecks
      obtain ⟨⟨hcontains, haccepted⟩, hfree⟩ := hchecks
      cases h
      obtain ⟨self, hself, hid⟩ := contains_iff.mp hcontains
      refine .inr ⟨⟨id, trim nickname⟩, .nickname haccepted hfree, ?_⟩
      intro p hp
      rcases mem_people.mp hp with hin | hin
      · rcases mem_insert.mp hin with ⟨hold, hne⟩ | hnew
        · exact .inl ⟨mem_people.mpr (.inl hold), hne⟩
        · exact .inr hnew
      · refine .inl ⟨mem_people.mpr (.inr hin), ?_⟩
        intro hsame
        exact hapart self hself p hin (hid.trans hsame.symm)
  | depart =>
    left
    cases h
    intro p hp
    rcases mem_people.mp hp with hin | hin
    · exact mem_people.mpr (.inl (mem_erase.mp hin).1)
    · exact mem_people.mpr (.inr (mem_erase.mp hin).1)

theorem step_apart (hapart : Apart room) (h : room.step u a = some next) : Apart next := by
  cases a with
  | join id name waits =>
    rw [step] at h
    split at h
    case isFalse => cases h
    case isTrue hchecks =>
      simp only [Bool.and_eq_true, Bool.not_eq_true'] at hchecks
      obtain ⟨chosen, hchosen, rfl⟩ := map_eq_some_iff.mp h
      have habsent := present_eq_false.mp hchecks.2
      intro p hp q hq
      cases waits with
      | true =>
        rcases mem_insert.mp hq with ⟨hold, -⟩ | rfl
        · exact hapart p hp q hold
        · exact habsent p (mem_people.mpr (.inl hp))
      | false =>
        rcases mem_insert.mp hp with ⟨hold, -⟩ | rfl
        · exact hapart p hold q hq
        · exact (habsent q (mem_people.mpr (.inr hq))).symm
  | admission =>
    obtain ⟨entry, hentry, rfl⟩ := map_eq_some_iff.mp h
    have hid := (get_eq_some.mp hentry).2
    intro p hp q hq
    obtain ⟨hwaits, hne⟩ := mem_erase.mp hq
    rcases mem_insert.mp hp with ⟨hold, -⟩ | rfl
    · exact hapart p hold q hwaits
    · rw [hid]
      exact hne.symm
  | changeNickname id nickname =>
    rw [step] at h
    split at h
    case isFalse => cases h
    case isTrue hchecks =>
      simp only [Bool.and_eq_true] at hchecks
      cases h
      obtain ⟨self, hself, hid⟩ := contains_iff.mp hchecks.1.1
      intro p hp q hq
      rcases mem_insert.mp hp with ⟨hold, -⟩ | rfl
      · exact hapart p hold q hq
      · exact fun hsame => hapart self hself q hq (hid.trans hsame)
  | depart =>
    cases h
    intro p hp q hq
    exact hapart p (mem_erase.mp hp).1 q (mem_erase.mp hq).1

theorem NameSource.free {entry : Named} (h : NameSource u room a entry) :
    ∀ p ∈ room.people, p.id ≠ entry.id → comparisonKey u p.name ≠ comparisonKey u entry.name := by
  intro p hp hother
  cases h with
  | join haccepted habsent hchosen =>
    intro hsame
    exact hchosen.free u (hsame ▸ mem_occupied hp)
  | nickname haccepted hfree =>
    rw [nameInUse, List.any_eq_false] at hfree
    intro hsame
    refine hfree p ?_ (decide_eq_true hsame)
    rcases mem_people.mp hp with hin | hin
    · exact mem_append_left _ (List.mem_filter.mpr ⟨hin, decide_eq_true hother⟩)
    · exact mem_append_right _ hin

theorem NameSource.unreserved {entry : Named} (h : NameSource u room a entry) :
    isReservedName u entry.name = false := by
  cases h with
  | join haccepted habsent hchosen =>
    simp only [acceptsName, Bool.and_eq_true, Bool.not_eq_true'] at haccepted
    rcases hchosen with ⟨-, rfl⟩ | ⟨-, n, -, rfl, -, -⟩
    · exact haccepted.2
    · exact decide_eq_false (comparisonKey_numbered_ne_reserved u _ n)
  | nickname haccepted =>
    simp only [acceptsNickname, Bool.and_eq_true, Bool.not_eq_true'] at haccepted
    exact haccepted.2

/-! ## Distinct names -/

/-- Everyone has a name of their own, and nobody the reserved one. -/
structure WellNamed (u : Unicode) (room : NamedRoom) : Prop where
  apart : Apart room
  distinct : ∀ p ∈ room.people, ∀ q ∈ room.people,
    comparisonKey u p.name = comparisonKey u q.name → p.id = q.id
  unreserved : ∀ p ∈ room.people, isReservedName u p.name = false

theorem empty_wellNamed : WellNamed u empty := by
  have hnobody : ∀ p, ¬p ∈ empty.people := by simp [people, empty, Roster.empty]
  exact
    { apart := fun p hp => absurd (mem_people.mpr (.inl hp)) (hnobody p)
      distinct := fun p hp => absurd hp (hnobody p)
      unreserved := fun p hp => absurd hp (hnobody p) }

theorem WellNamed.step (h : WellNamed u room) (hstep : room.step u a = some next) :
    WellNamed u next := by
  have hapart := step_apart h.apart hstep
  rcases step_people h.apart hstep with hkept | ⟨entry, hsource, hpeople⟩
  · exact
      { apart := hapart
        distinct := fun p hp q hq => h.distinct p (hkept p hp) q (hkept q hq)
        unreserved := fun p hp => h.unreserved p (hkept p hp) }
  refine { apart := hapart, distinct := ?_, unreserved := ?_ }
  · intro p hp q hq hkey
    rcases hpeople p hp with ⟨hp, hpne⟩ | rfl
    · rcases hpeople q hq with ⟨hq, -⟩ | rfl
      · exact h.distinct p hp q hq hkey
      · exact absurd hkey (hsource.free p hp hpne)
    · rcases hpeople q hq with ⟨hq, hqne⟩ | rfl
      · exact absurd hkey.symm (hsource.free q hq hqne)
      · rfl
  · intro p hp
    rcases hpeople p hp with ⟨hp, -⟩ | rfl
    · exact h.unreserved p hp
    · exact hsource.unreserved

end Step

/-! ## Lengths -/

def FirstFree (u : Unicode) (room : NamedRoom) (name : Text) (n : ℕ) : Prop :=
  2 ≤ n ∧ comparisonKey u (candidate name n) ∉ room.occupied u ∧
    ∀ m, 2 ≤ m → m < n → comparisonKey u (candidate name m) ∈ room.occupied u

/-- The name is free, or what is kept of it leaves room for a space, the
parentheses and the number. Characters of one byte always do while the number
has at most three digits; longer ones need not. -/
def Fits (u : Unicode) (room : NamedRoom) (name : Text) : Prop :=
  comparisonKey u name ∉ room.occupied u ∨ ∀ n, FirstFree u room name n →
      byteLength (suffixBase name) + 3 + (Nat.toDigits 10 n).length ≤ maxParticipantNameLen

theorem byteLength_append (x y : Text) : byteLength (x ++ y) = byteLength x + byteLength y := by
  simp [byteLength]

theorem byteLength_suffixChars {text : Text}
    (h : ∀ c ∈ text, isSuffixChar c = true) : byteLength text = text.length := by
  induction text with
  | nil => rfl
  | cons c rest ih =>
    have hsize : c.utf8Size = 1 := by
      have hrange := isSuffixChar_toNat (h c mem_cons_self)
      have hval : c.val ≤ 0x7f := by
        rw [UInt32.le_iff_toNat_le]
        exact Nat.le_trans hrange.2 (by decide)
      simp [Char.utf8Size, hval]
    have hrest := ih fun d hd => h d (mem_cons_of_mem _ hd)
    simp only [byteLength, map_cons, sum_cons, length_cons] at hrest ⊢
    omega

theorem byteLength_candidate (name : Text) (n : ℕ) : byteLength (candidate name n) =
      byteLength (suffixBase name) + 3 + (Nat.toDigits 10 n).length := by
  have hnumbered : byteLength (numbered n) = (Nat.toDigits 10 n).length + 2 := by
    rw [byteLength_suffixChars fun c => isSuffixChar_numbered]
    simp [numbered]
  have hspace : byteLength [' '] = 1 := rfl
  rw [candidate, byteLength_append, byteLength_append, hnumbered, hspace]
  omega

theorem FirstFree.unique {n m : ℕ}
    (hn : FirstFree u room name n) (hm : FirstFree u room name m) : n = m := by
  rcases Nat.lt_trichotomy n m with hlt | heq | hlt
  · exact absurd (hm.2.2 n hn.1 hlt) hn.2.1
  · exact heq
  · exact absurd (hn.2.2 m hm.1 hlt) hm.2.1

theorem Chosen.fits_iff (h : Chosen u room name chosen) :
    Fits u room name ↔ comparisonKey u name ∉ room.occupied u ∨
      byteLength chosen ≤ maxParticipantNameLen := by
  rcases h with ⟨hfree, -⟩ | ⟨htaken, n, hn, rfl, hfree, hbefore⟩
  · exact ⟨fun _ => .inl hfree, fun _ => .inl hfree⟩
  have hfirst : FirstFree u room name n := ⟨hn, hfree, hbefore⟩
  rw [byteLength_candidate]
  refine or_congr_right ⟨fun hfits => hfits n hfirst, fun hle m hm => ?_⟩
  rw [hm.unique hfirst]
  exact hle

theorem Chosen.byteLength_le_iff (h : Chosen u room name chosen)
    (hname : byteLength name ≤ maxParticipantNameLen) :
    byteLength chosen ≤ maxParticipantNameLen ↔ Fits u room name := by
  rw [h.fits_iff]
  constructor
  · exact .inr
  rintro (hfree | hle)
  · rcases h with ⟨-, rfl⟩ | ⟨htaken, -⟩
    · exact hname
    · exact absurd htaken hfree
  · exact hle

instance (u : Unicode) (room : NamedRoom) (name : Text) : Decidable (Fits u room name) :=
  match h : room.uniqueParticipantName u name with
  | some _ => decidable_of_iff _ (uniqueParticipantName_chosen u h).fits_iff.symm
  | none => isFalse fun _ => by
      obtain ⟨chosen, hchosen⟩ := uniqueParticipantName_isSome u room name
      rw [h] at hchosen
      cases hchosen

def NamesFit (u : Unicode) (room : NamedRoom) : NameAction → Prop
  | .join _ name _ => Fits u room name
  | _ => True

instance (u : Unicode) (room : NamedRoom) : ∀ a, Decidable (NamesFit u room a)
  | .join _ name _ => inferInstanceAs (Decidable (Fits u room name))
  | .admission _ | .changeNickname .. | .depart _ => isTrue trivial

def Bounded (room : NamedRoom) : Prop :=
  ∀ p ∈ room.people, byteLength p.name ≤ maxParticipantNameLen

theorem NameSource.bounded {a : NameAction} {entry : Named}
    (h : NameSource u room a entry) (hfits : NamesFit u room a) :
    byteLength entry.name ≤ maxParticipantNameLen := by
  cases h with
  | join haccepted habsent hchosen =>
    simp only [acceptsName, Bool.and_eq_true, decide_eq_true_eq] at haccepted
    exact (hchosen.byteLength_le_iff haccepted.1.1.2).mpr hfits
  | nickname haccepted =>
    simp only [acceptsNickname, Bool.and_eq_true, decide_eq_true_eq] at haccepted
    exact haccepted.1.1.2

theorem Bounded.step {next : NamedRoom} {a : NameAction} (h : Bounded room)
    (hapart : Apart room) (hfits : NamesFit u room a)
    (hstep : room.step u a = some next) : Bounded next := by
  intro p hp
  rcases step_people hapart hstep with hkept | ⟨entry, hsource, hpeople⟩
  · exact h p (hkept p hp)
  rcases hpeople p hp with ⟨hp, -⟩ | rfl
  · exact h p hp
  · exact hsource.bounded hfits

/-! ## Names in every reachable room -/

/-- In every reachable room the names have distinct keys, none of them the
reserved one; the search for a name ends with the requested name or the smallest
free suffix, within the limit exactly if the name `Fits`; and if the names asked
for all fit, every stored name is within the limit. -/
theorem names_distinct_and_bounded (u : Unicode) {actions : List NameAction}
    {room : NamedRoom} (hrun : empty.run u actions = some room) :
    ((∀ p ∈ room.people, ∀ q ∈ room.people,
        comparisonKey u p.name = comparisonKey u q.name → p.id = q.id) ∧
      (∀ p ∈ room.participants, ∀ q ∈ room.lobby, p.id ≠ q.id)) ∧
    (∀ p ∈ room.people, isReservedName u p.name = false) ∧
    (∀ name, ∃ chosen, room.uniqueParticipantName u name = some chosen ∧ Chosen u room name chosen ∧
      (byteLength name ≤ maxParticipantNameLen →
        (byteLength chosen ≤ maxParticipantNameLen ↔ Fits u room name))) ∧
    (Transition.RunMeets (NamedRoom.step u) (NamesFit u) empty actions →
      ∀ p ∈ room.people, byteLength p.name ≤ maxParticipantNameLen) := by
  have hnamed : WellNamed u room :=
    Transition.run_kept (fun _ _ _ h hstep => WellNamed.step h hstep)
      empty_wellNamed hrun
  refine ⟨⟨hnamed.distinct, hnamed.apart⟩, hnamed.unreserved, ?_, ?_⟩
  · intro name
    obtain ⟨chosen, hchosen⟩ := uniqueParticipantName_isSome u room name
    have hspec := uniqueParticipantName_chosen u hchosen
    exact ⟨chosen, hchosen, hspec, hspec.byteLength_le_iff⟩
  intro hmeets
  have hkeeps : ∀ (x : NamedRoom) a y, WellNamed u x ∧ Bounded x → NamesFit u x a →
      x.step u a = some y → WellNamed u y ∧ Bounded y := by
    rintro x a y ⟨hx, hbounded⟩ hfits hstep
    exact ⟨hx.step hstep, hbounded.step hx.apart hfits hstep⟩
  have hempty : Bounded empty := by simp [Bounded, people, empty, Roster.empty]
  exact (Transition.run_invariant hkeeps ⟨empty_wellNamed, hempty⟩ hmeets hrun).2

end NamedRoom

/-- Tables for texts without compatibility characters: basic letters fold to
lower case. -/
def Unicode.simple : Unicode where
  nfkc := id
  fold c := if 65 ≤ c.toNat ∧ c.toNat ≤ 90 then [Char.ofNat (c.toNat + 32)] else [c]
  nfkc_append _ _ _ := rfl
  fold_suffixChar c h := by
    have hrange := Text.isSuffixChar_toNat h
    exact if_neg (by omega)

namespace NamedRoom

open Text

def longName : Text := List.replicate 32 'é'

def renames : List NameAction :=
  [.join 1 ['A', 'd', 'a'] false, .join 2 ['a', 'D', 'a', ' '] true, .admission 2,
    .changeNickname 1 [' ', 'B', 'o'], .join 3 ['A', 'D', 'A'] false]

/-- The first joiner takes another nickname while the second is called `aDa (2)`,
so the third gets the name they ask for. -/
theorem renames_named : ∃ room, empty.run .simple renames = some room ∧
      (∀ p ∈ room.people, byteLength p.name ≤ maxParticipantNameLen) ∧
      room.people.map Named.name =
        [['a', 'D', 'a', ' ', '(', '2', ')'], ['B', 'o'], ['A', 'D', 'A']] := by
  have h : ((empty.run .simple renames).any fun room =>
      decide (room.people.map Named.name =
        [['a', 'D', 'a', ' ', '(', '2', ')'], ['B', 'o'], ['A', 'D', 'A']])) = true := by
    decide +kernel
  obtain ⟨room, hrun, hnames⟩ := (Option.any_eq_true _ _).mp h
  have hfits : Transition.RunMeets (NamedRoom.step .simple) (NamesFit .simple) empty
      renames := by
    decide +kernel
  exact ⟨room, hrun, (names_distinct_and_bounded .simple hrun).2.2.2 hfits,
    of_decide_eq_true hnames⟩

def twoLong : List NameAction := [.join 1 longName false, .join 2 longName false]

/-- Both joiners ask for a name of 64 bytes; the second gets one of 68. -/
theorem twoLong_exceeds : acceptsName .simple longName = true ∧
      ∃ room, empty.run .simple twoLong = some room ∧
        ∃ p ∈ room.people, maxParticipantNameLen < byteLength p.name := by
  have h : ((empty.run .simple twoLong).any fun room =>
      room.people.any fun p => decide (maxParticipantNameLen < byteLength p.name)) = true := by
    decide +kernel
  obtain ⟨room, hrun, hlong⟩ := (Option.any_eq_true _ _).mp h
  obtain ⟨p, hp, hexceeds⟩ := List.any_eq_true.mp hlong
  exact ⟨by decide +kernel, room, hrun, p, hp, of_decide_eq_true hexceeds⟩

end NamedRoom

end SimplestChat
