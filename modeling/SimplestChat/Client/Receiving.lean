import SimplestChat.Support.Ranking

/-!
# What the web client receives

Which videos it asks for and in which layer.
-/

namespace SimplestChat.Client

open List Ranking

inductive ReceiveMode
  | balanced | dataSaver | audioOnly
deriving DecidableEq

def videoReceiveLimits : ReceiveMode → ℕ
  | .balanced => 9
  | .dataSaver => 4
  | .audioOnly => 0

/-- A flag the source makes optional is `false` where it is missing, except for `visible`. -/
structure ReceiveCandidate where
  id : String
  source : Option String
  visible : Option Bool
  pinned : Bool
  hidden : Bool
  pictureInPicture : Bool
  followedSpeaker : Bool

namespace ReceiveCandidate

def eligible (pageActive : Bool) (c : ReceiveCandidate) : Bool :=
  !c.hidden && (c.pictureInPicture ||
    (pageActive && (c.visible ≠ some false || c.pinned || c.followedSpeaker)))

/-- The order but for the current selection. -/
def standing (c : ReceiveCandidate) : Bool ×ₗ Bool ×ₗ Bool ×ₗ Bool ×ₗ Bool :=
  toLex (c.pictureInPicture, toLex (c.pinned,
    toLex (decide (c.visible = some true) || c.followedSpeaker,
      toLex (decide (c.source = some "screen"), c.followedSpeaker))))

def rank (current : Finset String) (c : ReceiveCandidate) :
    (Bool ×ₗ Bool ×ₗ Bool ×ₗ Bool ×ₗ Bool) ×ₗ Bool :=
  toLex (c.standing, decide (c.id ∈ current))

/-- The documented order: what is asked for explicitly, then what is visible or follows the
speaker, shares first, then the followed speaker, then what is received already. -/
def criteria (current : Finset String) : List (ReceiveCandidate → Prop) :=
  [fun c => c.pictureInPicture = true, fun c => c.pinned = true,
    fun c => c.visible = some true ∨ c.followedSpeaker = true, fun c => c.source = some "screen",
    fun c => c.followedSpeaker = true, fun c => c.id ∈ current]

/-- At the first criterion that tells them apart, `c` meets it and `d` does not. -/
def AheadBy (c d : ReceiveCandidate) : List (ReceiveCandidate → Prop) → Prop
  | [] => False
  | p :: rest => p c ∧ ¬ p d ∨ (p c ↔ p d) ∧ AheadBy c d rest

theorem lex_lt_iff {β γ : Type} [LT β] [LT γ] {a b : Bool} {x y : β} {w z : γ} :
    toLex (toLex (b, y), z) < toLex (toLex (a, x), w) ↔
      a = true ∧ ¬ b = true ∨ (a = true ↔ b = true) ∧ toLex (y, z) < toLex (x, w) := by
  cases a <;> cases b <;> simp [Prod.Lex.toLex_lt_toLex]

/-- The comparator sorts by the documented order. -/
theorem rank_lt_iff {current : Finset String} {c d : ReceiveCandidate} :
    d.rank current < c.rank current ↔ AheadBy c d (criteria current) := by
  have hlast : ∀ a b e f : Bool, toLex (b, f) < toLex (a, e) ↔
      a = true ∧ ¬ b = true ∨ (a = true ↔ b = true) ∧ (e = true ∧ ¬ f = true) := by
    decide
  simp only [rank, standing, criteria, AheadBy, lex_lt_iff, hlast, Bool.or_eq_true,
    decide_eq_true_eq, and_false, or_false]

end ReceiveCandidate

section Selection

variable (candidates : List ReceiveCandidate) (mode : ReceiveMode) (pageActive : Bool)
  (current : Finset String)

def received : List ReceiveCandidate :=
  top (ReceiveCandidate.rank current) (videoReceiveLimits mode)
    (candidates.filter (ReceiveCandidate.eligible pageActive))

def selectIncomingVideos : Finset String :=
  if mode = .audioOnly then ∅
  else ((received candidates mode pageActive current).map ReceiveCandidate.id).toFinset

variable {candidates mode pageActive current} {s : String} {c d : ReceiveCandidate}

theorem selectIncomingVideos_eq : selectIncomingVideos candidates mode pageActive current =
    ((received candidates mode pageActive current).map ReceiveCandidate.id).toFinset := by
  unfold selectIncomingVideos
  split_ifs with haudio
  · simp [haudio, received, videoReceiveLimits, top]
  · rfl

theorem mem_selectIncomingVideos : s ∈ selectIncomingVideos candidates mode pageActive current ↔
    ∃ c ∈ received candidates mode pageActive current, c.id = s := by
  rw [selectIncomingVideos_eq, mem_toFinset, mem_map]

theorem mem_of_received (h : c ∈ received candidates mode pageActive current) :
    c ∈ candidates ∧ c.eligible pageActive = true :=
  mem_filter.mp (top_subset h)

theorem id_mem_selectIncomingVideos (hids : (candidates.map ReceiveCandidate.id).Nodup)
    (hc : c ∈ candidates) :
    c.id ∈ selectIncomingVideos candidates mode pageActive current ↔
      c ∈ received candidates mode pageActive current := by
  rw [mem_selectIncomingVideos]
  refine ⟨?_, fun h => ⟨c, h, rfl⟩⟩
  rintro ⟨d, hd, hid⟩
  rwa [← inj_on_of_nodup_map hids (mem_of_received hd).1 hc hid]

/-- Of two of one standing, the one that was selected is ahead the next time. -/
theorem selectIncomingVideos_stable (hids : (candidates.map ReceiveCandidate.id).Nodup) :
    selectIncomingVideos candidates mode pageActive
        (selectIncomingVideos candidates mode pageActive current) =
      selectIncomingVideos candidates mode pageActive current := by
  ext s
  rw [mem_selectIncomingVideos, mem_selectIncomingVideos]
  refine exists_congr fun c => and_congr_left fun _ =>
    mem_top_of_separates (hids.of_map.filter _) fun d hd e he hout hin => ?_
  have hdout := (id_mem_selectIncomingVideos hids (mem_filter.mp hd).1).not.mpr hout
  have hein := (id_mem_selectIncomingVideos hids (mem_filter.mp he).1).mpr hin
  have hle := rank_le_of_top hd hout hin
  simp only [ReceiveCandidate.rank, Prod.Lex.toLex_le_toLex, Prod.Lex.toLex_lt_toLex] at hle ⊢
  rw [decide_eq_false hdout, decide_eq_true hein]
  exact hle.imp_right fun h => ⟨h.1, rfl⟩

/-- The selection is by the documented order among the eligible, as far as the limit goes,
and repeating it changes nothing. -/
theorem incoming_videos (hids : (candidates.map ReceiveCandidate.id).Nodup) :
    let selected := selectIncomingVideos candidates mode pageActive current
    selected.card = min (videoReceiveLimits mode)
      (candidates.countP (ReceiveCandidate.eligible pageActive)) ∧
    (∀ s ∈ selected, ∃ c ∈ candidates, c.id = s) ∧
    (∀ c ∈ candidates, c.id ∈ selected → c.eligible pageActive = true) ∧
    (∀ c ∈ candidates, c.eligible pageActive = true → c.id ∉ selected →
      ∀ d ∈ candidates, d.id ∈ selected →
        ¬ ReceiveCandidate.AheadBy c d (ReceiveCandidate.criteria current)) ∧
    selectIncomingVideos candidates mode pageActive selected = selected := by
  refine ⟨?_, fun s hs => ?_, fun c hc hin => ?_, fun c hc helig hout d hd hin => ?_,
    selectIncomingVideos_stable hids⟩
  · rw [selectIncomingVideos_eq, toFinset_card_of_nodup, length_map, received, length_top,
      countP_eq_length_filter]
    refine (nodup_top (hids.of_map.filter _)).map_on fun c hc d hd hid => ?_
    exact inj_on_of_nodup_map hids (mem_of_received hc).1 (mem_of_received hd).1 hid
  · obtain ⟨c, hc, rfl⟩ := mem_selectIncomingVideos.mp hs
    exact ⟨c, (mem_of_received hc).1, rfl⟩
  · exact (mem_of_received ((id_mem_selectIncomingVideos hids hc).mp hin)).2
  · rw [id_mem_selectIncomingVideos hids hc] at hout
    rw [id_mem_selectIncomingVideos hids hd] at hin
    rw [← ReceiveCandidate.rank_lt_iff]
    exact not_lt.mpr (rank_le_of_top (mem_filter.mpr ⟨hc, helig⟩) hout hin)

end Selection

/-- Two visible cameras, of which the second is received already, then a share, a pinned
tile, picture in picture and a hidden one. -/
def sixCandidates : List ReceiveCandidate :=
  [⟨"f", none, some true, false, false, false, false⟩,
    ⟨"e", none, some true, false, false, false, false⟩,
    ⟨"c", some "screen", some true, false, false, false, false⟩,
    ⟨"b", none, some false, true, false, false, false⟩,
    ⟨"a", none, some false, false, false, true, false⟩,
    ⟨"h", none, some true, true, true, false, false⟩]

/-- The first camera is left out, does not outrank the second one, and stays out. -/
theorem sixCandidates_selected :
    let selected := selectIncomingVideos sixCandidates .dataSaver true {"e"}
    selected = {"a", "b", "c", "e"} ∧ selected.card = 4 ∧
    ¬ ReceiveCandidate.AheadBy ⟨"f", none, some true, false, false, false, false⟩
      ⟨"e", none, some true, false, false, false, false⟩ (ReceiveCandidate.criteria {"e"}) ∧
    selectIncomingVideos sixCandidates .dataSaver true selected = selected := by
  intro selected
  have hselected : selected = {"a", "b", "c", "e"} := by decide +kernel
  obtain ⟨hcard, -, -, hbest, hstable⟩ :=
    @incoming_videos sixCandidates .dataSaver true {"e"} (by decide)
  refine ⟨hselected, hcard.trans (by decide), ?_, hstable⟩
  refine hbest _ (by simp [sixCandidates]) (by decide) ?_ _ (by simp [sixCandidates]) ?_
  · change _ ∉ selected
    rw [hselected]
    decide
  · change _ ∈ selected
    rw [hselected]
    decide

/-! ## Layers -/

def layerWidths : List ℚ := [320, 640, 1280]

/-- The device pixels a tile shows; a pixel ratio of zero counts as one. -/
def neededWidth (renderedWidth pixelRatio : ℚ) : ℚ :=
  max 0 renderedWidth * max 1 (if pixelRatio = 0 then 1 else pixelRatio)

def layerWidth (layer : ℕ) : ℚ := layerWidths.getD layer 1280

/-- The lowest layer that is wide enough, or the top one. -/
def targetLayer (needed : ℚ) : ℕ :=
  (layerWidths.findIdx? fun width => needed ≤ width).getD (layerWidths.length - 1)

/-- The layer of a tile that needs so many pixels and has the layer `current`. -/
def layerFor (needed : ℚ) (current : Option ℤ) : ℕ :=
  let target := targetLayer needed
  match current with
  | none => target
  | some layer =>
    if layer < 0 ∨ layerWidths.length - 1 < layer then target
    else
      let current := layer.toNat
      if current < target then
        if layerWidth current * 1.15 < needed then target else current
      else if target < current then
        if needed < layerWidth target * 0.85 then target else current
      else current

def spatialLayerForRenderedWidth (renderedWidth pixelRatio : ℚ) (current : Option ℤ) : ℕ :=
  layerFor (neededWidth renderedWidth pixelRatio) current

/-- A need that the lowest layer holds, but without the margin, keeps the top layer: the one
between is not looked at. -/
def StaysOnTop (needed : ℚ) (current : Option ℤ) : Prop :=
  current = some 2 ∧ 272 ≤ needed ∧ needed ≤ 320

section Layers

variable {needed narrower : ℚ} {current : Option ℤ}

theorem targetLayer_cases (n : ℚ) : targetLayer n = 0 ∧ n ≤ 320 ∨
    targetLayer n = 1 ∧ 320 < n ∧ n ≤ 640 ∨ targetLayer n = 2 ∧ 640 < n := by
  by_cases h0 : n ≤ 320 <;> by_cases h1 : n ≤ 640 <;> by_cases h2 : n ≤ 1280 <;>
    simp [targetLayer, layerWidths, findIdx?_cons, h0, h1, h2] <;> grind

theorem layerWidth_eq : layerWidth 0 = 320 ∧ layerWidth 1 = 640 := ⟨rfl, rfl⟩

theorem layerFor_eq (n : ℚ) :
    layerFor n none = (if n ≤ 320 then 0 else if n ≤ 640 then 1 else 2) ∧
    layerFor n (some 0) = (if n ≤ 368 then 0 else if n ≤ 640 then 1 else 2) ∧
    layerFor n (some 1) = (if n < 272 then 0 else if n ≤ 736 then 1 else 2) ∧
    layerFor n (some 2) = if n < 272 then 0 else if 320 < n ∧ n < 544 then 1 else 2 := by
  rcases targetLayer_cases n with ⟨h, hn⟩ | ⟨h, hn⟩ | ⟨h, hn⟩ <;>
    norm_num [layerFor, h, layerWidths, layerWidth_eq] <;> grind

/-- What is not a layer counts as none. -/
theorem layerFor_cases (current : Option ℤ) : ∃ layer,
    (layer = none ∨ layer = some 0 ∨ layer = some 1 ∨ layer = some 2 ∧ current = some 2) ∧
      ∀ n, layerFor n current = layerFor n layer := by
  rcases current with _ | layer
  · exact ⟨none, .inl rfl, fun _ => rfl⟩
  by_cases hout : layer < 0 ∨ layerWidths.length - 1 < layer
  · exact ⟨none, .inl rfl, fun _ => if_pos hout⟩
  · refine ⟨some layer, ?_, fun _ => rfl⟩
    simp only [layerWidths, length_cons, length_nil, Option.some.injEq] at hout ⊢
    omega

theorem layerFor_fixed (current : Option ℤ) :
    layerFor needed (some (layerFor needed current)) = layerFor needed current := by
  obtain ⟨layer, rfl | rfl | rfl | ⟨rfl, -⟩, h⟩ := layerFor_cases current <;>
    simp only [h, layerFor_eq] <;> split_ifs <;> norm_num [layerFor_eq] <;> grind

theorem layerFor_wide (current : Option ℤ) : layerFor needed current = layerWidths.length - 1 ∨
    needed / 1.15 ≤ layerWidth (layerFor needed current) := by
  obtain ⟨layer, rfl | rfl | rfl | ⟨rfl, -⟩, h⟩ := layerFor_cases current <;>
    simp only [h, layerFor_eq] <;> split_ifs <;> norm_num [layerWidths, layerWidth_eq] <;> grind

theorem layerFor_tight_iff (current : Option ℤ) :
    (∀ lower, lower + 1 = layerFor needed current → ¬ needed < layerWidth lower * 0.85) ↔
      ¬ StaysOnTop needed current := by
  unfold StaysOnTop
  constructor
  · rintro htight ⟨rfl, hlow, hhigh⟩
    refine htight 1 ?_ ?_
    · rw [(layerFor_eq needed).2.2.2]
      grind
    · norm_num [layerWidth_eq]
      linarith
  · intro hleaves lower hlower
    obtain ⟨layer, rfl | rfl | rfl | ⟨rfl, htop⟩, h⟩ := layerFor_cases current <;>
      simp only [h, layerFor_eq] at hlower <;> grind [layerWidth_eq]

theorem layerFor_le_iff (hle : narrower ≤ needed) (current : Option ℤ) :
    layerFor narrower current ≤ layerFor needed current ↔
      ¬ (StaysOnTop narrower current ∧ 320 < needed ∧ needed < 544) := by
  unfold StaysOnTop
  constructor
  · rintro hlayers ⟨⟨rfl, hlow, hhigh⟩, hwide, hfits⟩
    rw [(layerFor_eq narrower).2.2.2, (layerFor_eq needed).2.2.2] at hlayers
    grind
  · intro hleaves
    obtain ⟨layer, rfl | rfl | rfl | ⟨rfl, htop⟩, h⟩ := layerFor_cases current <;>
      simp only [h, layerFor_eq] <;> grind

theorem neededWidth_mono {renderedWidth pixelRatio : ℚ} (hle : narrower ≤ renderedWidth) :
    neededWidth narrower pixelRatio ≤ neededWidth renderedWidth pixelRatio := by
  unfold neededWidth
  gcongr

/-- The layer follows the width of the tile except from one that goes down to layer 1 to a
narrower one that stays on top, and is no wider than it has to be unless the tile stays on
top. It is always stable, and wide enough but for the margin. -/
theorem layer_hysteresis (renderedWidth pixelRatio : ℚ) (current : Option ℤ) :
    spatialLayerForRenderedWidth renderedWidth pixelRatio
        (some (spatialLayerForRenderedWidth renderedWidth pixelRatio current)) =
      spatialLayerForRenderedWidth renderedWidth pixelRatio current ∧
    (let needed := neededWidth renderedWidth pixelRatio
     let layer := spatialLayerForRenderedWidth renderedWidth pixelRatio current
     (∀ narrower ≤ renderedWidth,
        spatialLayerForRenderedWidth narrower pixelRatio current ≤ layer ↔
          ¬ (StaysOnTop (neededWidth narrower pixelRatio) current ∧
            320 < needed ∧ needed < 544)) ∧
      ((∀ lower, lower + 1 = layer → ¬ needed < layerWidth lower * 0.85) ↔
        ¬ StaysOnTop needed current) ∧
      (layer = layerWidths.length - 1 ∨ needed / 1.15 ≤ layerWidth layer)) := by
  refine ⟨layerFor_fixed current, ?_, layerFor_tight_iff current, layerFor_wide current⟩
  intro narrower hle
  exact layerFor_le_iff (neededWidth_mono hle) current

end Layers

theorem narrower_tile_higher_layer :
    spatialLayerForRenderedWidth 500 1 (some 2) = 1 ∧
    spatialLayerForRenderedWidth 300 1 (some 2) = 2 ∧
    neededWidth 300 1 < layerWidth 1 * 0.85 := by
  decide +kernel

end SimplestChat.Client
