import SimplestChat.Chat.Excerpts

/-!
# The decoder of account events

A decoder of server-sent events that is fed the text of a response as it arrives.
-/

namespace SimplestChat.Client

open List Text

/-- A field of a parsed record: a string, or what `String` makes of another value. -/
inductive JsonField
  | text (value : Text)
  | other (shown : Text)

/-- An object of the fields it has, or another value. -/
inductive Json
  | record (field : Text → Option JsonField)
  | other

inductive WireUpdate
  | ready
  | change (scope : JsonField) (peerId : Option Text)

def isUuid (id : Text) : Bool :=
  (id.splitOn '-').map length = [8, 4, 4, 4, 12] &&
    id.all fun c => c = '-' || c.isDigit || ('a' ≤ c.toLower && c.toLower ≤ 'f')

/-- The update that the data of an event stands for, unless it is not one. -/
def eventUpdate (parse : Text → Option Json) (data : Text) : Option WireUpdate :=
  match parse data with
  | some (.record field) =>
    match field "type".toList with
    | some (.text type) =>
      if type = "ready".toList then some .ready
      else if type = "change".toList then
        match field "scope".toList, field "peerId".toList with
        | some scope, peerId =>
          let shown := match scope with | .text value => value | .other shown => shown
          if (["inbox", "contacts", "preferences", "notifications"].map String.toList).contains
              shown then
            match peerId with
            | none => some (.change scope none)
            | some (.text id) => if isUuid id then some (.change scope (some id)) else none
            | some (.other _) => none
          else none
        | none, _ => none
      else none
    | _ => none
  | _ => none

/-- The length that JavaScript gives a text. -/
def units (text : Text) : ℕ := (utf16 text).length

/-- The fields of the class, with what it delivered and whether it threw. -/
structure AccountEventDecoder where
  line : Text := []
  data : List Text := []
  size : ℕ := 0
  carriageReturn : Bool := false
  delivered : List WireUpdate := []
  thrown : Bool := false

/-- The rest of a line after `data:` and one blank. -/
def dataField (line : Text) : Option Text :=
  if "data:".toList <+: line then
    some (match line.drop 5 with
      | ' ' :: rest => rest
      | rest => rest)
  else none

namespace AccountEventDecoder

variable (parse : Text → Option Json)

def endLine (d : AccountEventDecoder) : AccountEventDecoder :=
  if d.line = [] then
    if d.data = [] then { d with size := 0 }
    else
      match eventUpdate parse (['\n'].intercalate d.data) with
      | none => { d with thrown := true }
      | some update =>
        { d with delivered := d.delivered ++ [update], data := [], size := 0 }
  else
    match dataField d.line with
    | none => { d with line := [] }
    | some data =>
      let size := d.size + (units data + 1)
      if 8192 < size then { d with line := [], size, thrown := true }
      else { d with line := [], size, data := d.data ++ [data] }

/-- What the loop of `push` does with one character; nothing is pushed after an error. -/
def pushChar (d : AccountEventDecoder) (c : Char) : AccountEventDecoder :=
  if d.thrown then d
  else if c = '\n' ∧ d.carriageReturn then { d with carriageReturn := false }
  else if c ≠ '\r' ∧ c ≠ '\n' then
    { d with
      carriageReturn := false
      line := d.line ++ [c]
      thrown := 8192 < units (d.line ++ [c]) + d.size }
  else endLine parse { d with carriageReturn := c = '\r' }

def push (d : AccountEventDecoder) (chunk : Text) : AccountEventDecoder :=
  chunk.foldl (pushChar parse) d

end AccountEventDecoder

/-- Every line ended by LF alone. -/
def unixLines : Text → Text
  | [] => []
  | '\r' :: '\n' :: rest => '\n' :: unixLines rest
  | c :: rest => (if c = '\r' then '\n' else c) :: unixLines rest

theorem unixLines_concat (s : Text) (c : Char) : unixLines (s ++ [c]) =
    if c = '\n' ∧ s.getLast? = some '\r' then unixLines s
    else unixLines s ++ [if c = '\r' then '\n' else c] := by
  fun_induction unixLines s with
  | case1 => simp [unixLines]
  | case2 rest ih =>
    have hlast : ('\r' :: '\n' :: rest).getLast? = some '\r' ↔ rest.getLast? = some '\r' := by
      cases rest <;> simp
    simp only [cons_append, unixLines, ih, hlast]
    split_ifs <;> rfl
  | case3 d rest hne ih =>
    rcases rest with _ | ⟨e, rest⟩
    · by_cases hd : d = '\r' <;> by_cases hc : c = '\n' <;> simp [unixLines, hd, hc]
    · have hlast : (d :: e :: rest).getLast? = (e :: rest).getLast? := by simp
      rw [hlast, cons_append, unixLines, ih]
      · split_ifs <;> rfl
      · rintro rest' rfl heq
        cases heq
        exact hne _ rfl rfl

section Decoding

variable {parse : Text → Option Json} {s : Text} {d : AccountEventDecoder} {c : Char}

theorem units_append {x y : Text} : units (x ++ y) = units x + units y := by
  simp [units, utf16]

theorem units_dataField {line data : Text} (h : dataField line = some data) :
    units data + 5 ≤ units line := by
  unfold dataField at h
  split_ifs at h with hprefix
  obtain ⟨rest, rfl⟩ := hprefix
  have hname : units "data:".toList = 5 := by decide
  rw [units_append, hname, ← Option.some.inj h, drop_left' (by decide)]
  split
  · next rest => exact (by rw [← singleton_append, units_append]; omega)
  · omega

namespace AccountEventDecoder

theorem endLine_carriageReturn (b : Bool) : endLine parse { d with carriageReturn := b } =
    { endLine parse d with carriageReturn := b } := by
  unfold endLine
  dsimp only
  split_ifs
  · rfl
  · split <;> rfl
  · split
    · rfl
    · split_ifs <;> rfl

/-- While no error is raised, the text held is within the bound. -/
structure Bounded (d : AccountEventDecoder) : Prop where
  size : (d.data.map fun data => units data + 1).sum = d.size
  bounded : units d.line + d.size ≤ 8192

theorem Bounded.endLine (h : d.Bounded) : (endLine parse d).Bounded := by
  have hsize := h.size
  have hbounded := h.bounded
  unfold AccountEventDecoder.endLine
  split_ifs with hline hdata
  · exact ⟨by simp [hdata], by simp [hline, units, utf16]⟩
  · split
    · exact ⟨hsize, hbounded⟩
    · exact ⟨rfl, by simp [hline, units, utf16]⟩
  · split
    · exact ⟨hsize, by simp only [units, utf16, flatMap_nil, length_nil]; omega⟩
    · next data hfield =>
      have hunits := units_dataField hfield
      rw [if_neg (by omega)]
      refine ⟨by simp [hsize], ?_⟩
      simp only [units, utf16, flatMap_nil, length_nil] at *
      omega

/-- A line feed is skipped, a character is added to the line, or the line ends. -/
theorem pushChar_cases (parse : Text → Option Json) (c : Char) (hthrown : d.thrown = false) :
    (c = '\n' ∧ d.carriageReturn = true ∧ pushChar parse d c = { d with carriageReturn := false }) ∨
    (c ≠ '\r' ∧ c ≠ '\n' ∧ pushChar parse d c = { d with
      carriageReturn := false
      line := d.line ++ [c]
      thrown := 8192 < units (d.line ++ [c]) + d.size }) ∨
    ((c = '\r' ∨ c = '\n' ∧ d.carriageReturn = false) ∧
      pushChar parse d c = { endLine parse d with carriageReturn := c = '\r' }) := by
  unfold pushChar
  rw [if_neg (by simp [hthrown])]
  split_ifs with hskip hchar
  · exact .inl ⟨hskip.1, hskip.2, rfl⟩
  · exact .inr (.inl ⟨hchar.1, hchar.2, rfl⟩)
  · exact .inr (.inr ⟨by grind, endLine_carriageReturn _⟩)

/-- What the decoder holds after a text. -/
structure Reads (parse : Text → Option Json) (s : Text) (d : AccountEventDecoder) : Prop where
  unix : push parse {} (unixLines s) = { d with carriageReturn := false }
  bounded : d.thrown = false → d.Bounded
  carriage : d.thrown = false → (d.carriageReturn = true ↔ s.getLast? = some '\r')
  ended : d.thrown = false → d.line = [] → s ≠ [] → ∃ before, unixLines s = before ++ ['\n']

theorem push_concat : push parse d (s ++ [c]) = pushChar parse (push parse d s) c := by
  simp [push]

theorem Reads.pushChar (h : Reads parse s d) (c : Char) :
    Reads parse (s ++ [c]) (pushChar parse d c) := by
  have hunix := unixLines_concat s c
  by_cases hthrown : d.thrown = true
  · have hstop : ∀ b c, AccountEventDecoder.pushChar parse { d with carriageReturn := b } c =
        { d with carriageReturn := b } := fun _ _ => if_pos hthrown
    rw [show AccountEventDecoder.pushChar parse d c = d from hstop _ c]
    refine ⟨?_, by simp [hthrown], by simp [hthrown], by simp [hthrown]⟩
    rw [hunix]
    split_ifs
    · exact h.unix
    · rw [push_concat, h.unix, hstop]
    · rw [push_concat, h.unix, hstop]
  · rw [Bool.not_eq_true] at hthrown
    have hreturn := h.carriage hthrown
    have hbounded := h.bounded hthrown
    rcases pushChar_cases parse c hthrown with ⟨rfl, hskip, heq⟩ |
      ⟨hr, hn, heq⟩ | ⟨hc, heq⟩ <;> rw [heq]
    · rw [if_pos ⟨rfl, hreturn.mp hskip⟩] at hunix
      refine ⟨hunix ▸ h.unix, fun _ => ⟨hbounded.size, hbounded.bounded⟩, by simp, fun _ hline _ => ?_⟩
      rw [hunix]
      refine h.ended hthrown hline ?_
      rintro rfl
      simp at hreturn
      simp [hreturn] at hskip
    · rw [if_neg (by simp [hn]), if_neg hr] at hunix
      refine ⟨?_, fun hfits => ⟨hbounded.size, ?_⟩, by simp [hr], by simp⟩
      · rw [hunix, push_concat, h.unix]
        simp [AccountEventDecoder.pushChar, hthrown, hr, hn]
      · simpa using hfits
    · have hend : unixLines (s ++ [c]) = unixLines s ++ ['\n'] := by
        rw [hunix]
        rcases hc with rfl | ⟨rfl, hfirst⟩
        · simp
        · simp [← hreturn, hfirst]
      refine ⟨?_, fun _ => ⟨hbounded.endLine.size, hbounded.endLine.bounded⟩, by simp,
        fun _ _ _ => ⟨_, hend⟩⟩
      rw [hend, push_concat, h.unix, ← endLine_carriageReturn]
      simp [AccountEventDecoder.pushChar, hthrown]

theorem reads (parse : Text → Option Json) (s : Text) : Reads parse s (push parse {} s) := by
  induction s using reverseRecOn with
  | nil => exact ⟨rfl, fun _ => ⟨rfl, Nat.zero_le _⟩, by simp [push], by simp⟩
  | append_singleton s c ih =>
    rw [push_concat]
    exact ih.pushChar c

/-- A line that is not empty delivers nothing. -/
theorem endLine_delivered (h : (endLine parse d).delivered ≠ d.delivered) :
    d.line = [] ∧ d.data ≠ [] ∧ ∃ update, eventUpdate parse (['\n'].intercalate d.data) =
      some update ∧ (endLine parse d).delivered = d.delivered ++ [update] := by
  unfold endLine at h ⊢
  split_ifs at h ⊢ with hline hdata
  · exact absurd rfl h
  · split at h
    · exact absurd rfl h
    · next update hupdate => exact ⟨hline, hdata, update, by simp [hupdate]⟩
  · split at h
    · exact absurd rfl h
    · dsimp only at h
      split_ifs at h <;> exact absurd rfl h

/-- The decoder does not see how a text is cut or its lines are ended, delivers an event at the
end of a blank line only, and holds a bounded text until it throws. -/
theorem account_events (parse : Text → Option Json) :
    (∀ d (chunks : List Text), chunks.foldl (push parse) d = push parse d chunks.flatten) ∧
    (∀ s, push parse {} (unixLines s) = { push parse {} s with carriageReturn := false }) ∧
    (∀ s c, (push parse {} (s ++ [c])).delivered ≠ (push parse {} s).delivered →
      ∃ before update, unixLines (s ++ [c]) = before ++ ['\n', '\n'] ∧
        eventUpdate parse (['\n'].intercalate (push parse {} s).data) = some update ∧
        (push parse {} (s ++ [c])).delivered = (push parse {} s).delivered ++ [update]) ∧
    ∀ s, (push parse {} s).thrown = false →
      units (push parse {} s).line + ((push parse {} s).data.map fun data => units data + 1).sum ≤
        8192 := by
  refine ⟨fun d chunks => ?_, fun s => (reads parse s).unix, fun s c hnew => ?_, fun s hthrown => ?_⟩
  · rw [push, foldl_flatten]
    rfl
  · have h := reads parse s
    rw [push_concat] at hnew ⊢
    cases hthrown : (push parse {} s).thrown with
    | true => exact absurd (congrArg delivered (if_pos hthrown)) hnew
    | false =>
      rcases pushChar_cases parse c hthrown with ⟨-, -, heq⟩ | ⟨-, -, heq⟩ |
        ⟨hc, heq⟩ <;> rw [heq] at hnew ⊢
      · exact absurd rfl hnew
      · exact absurd rfl hnew
      · obtain ⟨hline, hdata, update, hupdate, hdelivered⟩ := endLine_delivered hnew
        obtain ⟨before, hbefore⟩ := h.ended hthrown hline (by rintro rfl; exact hdata rfl)
        refine ⟨before, update, ?_, hupdate, hdelivered⟩
        rw [unixLines_concat, hbefore]
        rcases hc with rfl | ⟨rfl, hfirst⟩
        · simp
        · simp [← h.carriage hthrown, hfirst]
  · rw [((reads parse s).bounded hthrown).size]
    exact ((reads parse s).bounded hthrown).bounded

end AccountEventDecoder

end Decoding

end SimplestChat.Client
