import HarmonyScreen.Extension.VideoContract

namespace HarmonyScreen.Proofs.AutoContract
open Receiver Extension VideoContract

section Scale
variable {maxLongEdge maxShortEdge maxPixels width height : Int}

theorem autoScale_le_one : autoScale maxLongEdge maxShortEdge maxPixels width height ≤ 1 :=
  (min_le_left _ _).trans ((min_le_left _ _).trans (min_le_left _ _))

theorem autoScale_pos (hlong : 0 < maxLongEdge) (hshort : 0 < maxShortEdge) (hpixels : 0 < maxPixels)
    (hwidth : 0 < width) (hheight : 0 < height) :
    0 < autoScale maxLongEdge maxShortEdge maxPixels width height := by
  have hedge : ∀ {a b : Int}, 0 < a → 0 < b → (0 : ℝ) < a / b := by
    intro a b ha hb
    apply div_pos
    · exact Int.cast_pos.mpr ha
    · exact Int.cast_pos.mpr hb
  apply lt_min
  · apply lt_min
    · exact lt_min one_pos (hedge hlong (lt_max_of_lt_left hwidth))
    · exact hedge hshort (lt_min hwidth hheight)
  · exact Real.sqrt_pos.mpr (hedge hpixels (mul_pos hwidth hheight))

theorem autoScale_long (hwidth : 0 < width) :
    (max width height : Int) * autoScale maxLongEdge maxShortEdge maxPixels width height ≤
      maxLongEdge := by
  have hpos : (0 : ℝ) < (max width height : Int) := Int.cast_pos.mpr (lt_max_of_lt_left hwidth)
  have hle : autoScale maxLongEdge maxShortEdge maxPixels width height ≤
      maxLongEdge / (max width height : Int) :=
    (min_le_left _ _).trans ((min_le_left _ _).trans (min_le_right _ _))
  rw [mul_comm]
  exact (le_div_iff₀ hpos).mp hle

theorem autoScale_short (hwidth : 0 < width) (hheight : 0 < height) :
    (min width height : Int) * autoScale maxLongEdge maxShortEdge maxPixels width height ≤
      maxShortEdge := by
  have hpos : (0 : ℝ) < (min width height : Int) := Int.cast_pos.mpr (lt_min hwidth hheight)
  have hle : autoScale maxLongEdge maxShortEdge maxPixels width height ≤
      maxShortEdge / (min width height : Int) :=
    (min_le_left _ _).trans (min_le_right _ _)
  rw [mul_comm]
  exact (le_div_iff₀ hpos).mp hle

theorem autoScale_pixels (hlong : 0 < maxLongEdge) (hshort : 0 < maxShortEdge)
    (hpixels : 0 < maxPixels) (hwidth : 0 < width) (hheight : 0 < height) :
    (width * autoScale maxLongEdge maxShortEdge maxPixels width height) *
      (height * autoScale maxLongEdge maxShortEdge maxPixels width height) ≤ maxPixels := by
  have hscale := autoScale_pos hlong hshort hpixels hwidth hheight
  have harea : (0 : ℝ) < (width * height : Int) := Int.cast_pos.mpr (mul_pos hwidth hheight)
  have hle : autoScale maxLongEdge maxShortEdge maxPixels width height ≤
      Real.sqrt (maxPixels / (width * height : Int)) := min_le_right _ _
  have hsquare := (Real.le_sqrt hscale.le (div_nonneg (Int.cast_nonneg hpixels.le) harea.le)).mp hle
  have hbound := (le_div_iff₀ harea).mp hsquare
  rw [Int.cast_mul] at hbound
  calc _ = autoScale maxLongEdge maxShortEdge maxPixels width height ^ 2 * (width * height) := by ring
    _ ≤ maxPixels := hbound

/-- Tighter bounds make the scale smaller. -/
theorem autoScale_mono {long short pixels : Int} (hlong : long ≤ maxLongEdge)
    (hshort : short ≤ maxShortEdge) (hpixels : pixels ≤ maxPixels) (hwidth : 0 < width)
    (hheight : 0 < height) : autoScale long short pixels width height ≤
      autoScale maxLongEdge maxShortEdge maxPixels width height := by
  have hedge : ∀ {a b c : Int}, a ≤ b → 0 < c → (a : ℝ) / c ≤ b / c := by
    intro a b c hab hc
    have hc : (0 : ℝ) < c := Int.cast_pos.mpr hc
    exact div_le_div_of_nonneg_right (Int.cast_le.mpr hab) hc.le
  apply min_le_min
  · apply min_le_min
    · exact min_le_min le_rfl (hedge hlong (lt_max_of_lt_left hwidth))
    · exact hedge hshort (lt_min hwidth hheight)
  · exact Real.sqrt_le_sqrt (hedge hpixels (mul_pos hwidth hheight))

end Scale

section Even

theorem evenFloor_le (value : ℝ) : (evenFloor value : ℝ) ≤ value := by
  have := Int.floor_le (value / 2)
  rw [evenFloor, Int.cast_mul]
  push_cast
  linarith

theorem lt_evenFloor (value : ℝ) : value - 2 < evenFloor value := by
  have := Int.lt_floor_add_one (value / 2)
  rw [evenFloor, Int.cast_mul]
  push_cast
  linarith

theorem evenFloor_even (value : ℝ) : evenFloor value % 2 = 0 := Int.mul_emod_left _ 2

theorem evenFloor_mono {a b : ℝ} (h : a ≤ b) : evenFloor a ≤ evenFloor b := by
  have := Int.floor_mono (div_le_div_of_nonneg_right h (zero_le_two))
  rw [evenFloor, evenFloor]
  omega

end Even

section Selected
variable {w h : ℝ} {maxLongEdge maxShortEdge maxPixels : Int} {d : Dimensions}

/-- Dimensions as they are selected from a source within bounds. -/
structure Selected (w h : ℝ) (maxLongEdge maxShortEdge maxPixels : Int) (d : Dimensions) : Prop where
  source : 2 ≤ ⌊w⌋ ∧ 2 ≤ ⌊h⌋
  limits : 0 < maxLongEdge ∧ 0 < maxShortEdge ∧ 0 < maxPixels
  scale : d.scale = autoScale maxLongEdge maxShortEdge maxPixels ⌊w⌋ ⌊h⌋
  width : d.width = evenFloor (⌊w⌋ * d.scale)
  height : d.height = evenFloor (⌊h⌋ * d.scale)
  visible : 2 ≤ d.width ∧ 2 ≤ d.height

theorem selected_of_ok {longEdge shortEdge pixels : Int} (hselect : selectAutoDimensions (.finite w) (.finite h)
      ⟨.integer longEdge, .integer shortEdge, .integer pixels⟩ = .ok d) :
    Selected w h longEdge shortEdge pixels d := by
  unfold selectAutoDimensions normalizeSourceSize at hselect
  dsimp only at hselect
  split at hselect
  · cases hselect
  rename_i hsource
  split at hsource
  · cases hsource
  rename_i hsize
  cases hsource
  split at hselect
  · cases hselect
  rename_i hlimits
  split at hselect
  · cases hselect
  rename_i hvisible
  cases hselect
  simp only [not_or, not_lt] at hsize hlimits hvisible
  refine ⟨⟨?_, ?_⟩, by omega, rfl, rfl, rfl, hvisible⟩
  · exact Int.le_floor.mpr (by exact_mod_cast hsize.1)
  · exact Int.le_floor.mpr (by exact_mod_cast hsize.2)

namespace Selected

theorem scale_pos (hd : Selected w h maxLongEdge maxShortEdge maxPixels d) : 0 < d.scale := by
  rw [hd.scale]
  obtain ⟨hlong, hshort, hpixels⟩ := hd.limits
  exact autoScale_pos hlong hshort hpixels (by linarith [hd.source.1]) (by linarith [hd.source.2])

theorem scale_le_one (hd : Selected w h maxLongEdge maxShortEdge maxPixels d) : d.scale ≤ 1 := by
  rw [hd.scale]
  exact autoScale_le_one

/-- Both sides lie within two pixels below the scaled source. -/
theorem scaled (hd : Selected w h maxLongEdge maxShortEdge maxPixels d) :
    (⌊w⌋ * d.scale - 2 < d.width ∧ d.width ≤ ⌊w⌋ * d.scale) ∧
      (⌊h⌋ * d.scale - 2 < d.height ∧ d.height ≤ ⌊h⌋ * d.scale) := by
  rw [hd.width, hd.height]
  exact ⟨⟨lt_evenFloor _, evenFloor_le _⟩, ⟨lt_evenFloor _, evenFloor_le _⟩⟩

theorem inside (hd : Selected w h maxLongEdge maxShortEdge maxPixels d) :
    d.width ≤ ⌊w⌋ ∧ d.height ≤ ⌊h⌋ := by
  obtain ⟨⟨-, hwidth⟩, -, hheight⟩ := hd.scaled
  have hw : (0 : ℝ) ≤ ⌊w⌋ := Int.cast_nonneg (by linarith [hd.source.1])
  have hh : (0 : ℝ) ≤ ⌊h⌋ := Int.cast_nonneg (by linarith [hd.source.2])
  constructor
  · have := hwidth.trans (mul_le_of_le_one_right hw hd.scale_le_one)
    exact_mod_cast this
  · have := hheight.trans (mul_le_of_le_one_right hh hd.scale_le_one)
    exact_mod_cast this

/-- The longer side of the source stays the longer one. -/
theorem upright (hd : Selected w h maxLongEdge maxShortEdge maxPixels d) :
    (h ≤ w → d.height ≤ d.width) ∧ (w ≤ h → d.width ≤ d.height) := by
  rw [hd.width, hd.height]
  constructor
  · intro hle
    apply evenFloor_mono
    exact mul_le_mul_of_nonneg_right (Int.cast_le.mpr (Int.floor_mono hle)) hd.scale_pos.le
  · intro hle
    apply evenFloor_mono
    exact mul_le_mul_of_nonneg_right (Int.cast_le.mpr (Int.floor_mono hle)) hd.scale_pos.le

theorem bounds (hd : Selected w h maxLongEdge maxShortEdge maxPixels d) :
    max d.width d.height ≤ maxLongEdge ∧ min d.width d.height ≤ maxShortEdge ∧
      d.width * d.height ≤ maxPixels := by
  have hw : 0 < ⌊w⌋ := by linarith [hd.source.1]
  have hh : 0 < ⌊h⌋ := by linarith [hd.source.2]
  obtain ⟨hlong, hshort, hpixels⟩ := hd.limits
  obtain ⟨⟨-, hwidth⟩, -, hheight⟩ := hd.scaled
  have hscale := hd.scale_pos
  have hlongest : (max ⌊w⌋ ⌊h⌋ : Int) * d.scale ≤ maxLongEdge := by
    rw [hd.scale]
    exact autoScale_long hw
  have hshortest : (min ⌊w⌋ ⌊h⌋ : Int) * d.scale ≤ maxShortEdge := by
    rw [hd.scale]
    exact autoScale_short hw hh
  have harea : (⌊w⌋ * d.scale) * (⌊h⌋ * d.scale) ≤ maxPixels := by
    rw [hd.scale]
    exact autoScale_pixels hlong hshort hpixels hw hh
  have hbelow : ∀ side other : Int, side ≤ other → side * d.scale ≤ other * d.scale := by
    intro side other hle
    exact mul_le_mul_of_nonneg_right (Int.cast_le.mpr hle) hscale.le
  refine ⟨max_le ?_ ?_, ?_, ?_⟩
  · exact_mod_cast hwidth.trans ((hbelow _ _ (le_max_left _ _)).trans hlongest)
  · exact_mod_cast hheight.trans ((hbelow _ _ (le_max_right _ _)).trans hlongest)
  · rcases le_total ⌊w⌋ ⌊h⌋ with hle | hle
    · rw [min_eq_left hle] at hshortest
      exact (min_le_left _ _).trans (by exact_mod_cast hwidth.trans hshortest)
    · rw [min_eq_right hle] at hshortest
      exact (min_le_right _ _).trans (by exact_mod_cast hheight.trans hshortest)
  · have hpos : (0 : ℝ) ≤ d.height := Int.cast_nonneg (by linarith [hd.visible.2])
    have hproduct := (mul_le_mul hwidth hheight hpos (mul_nonneg (by positivity) hscale.le)).trans harea
    exact_mod_cast hproduct

/-- What is selected within tighter bounds is not larger. -/
theorem smaller {longEdge shortEdge pixels : Int} {small : Dimensions}
    (hd : Selected w h maxLongEdge maxShortEdge maxPixels d)
    (hsmall : Selected w h longEdge shortEdge pixels small) (hlong : longEdge ≤ maxLongEdge)
    (hshort : shortEdge ≤ maxShortEdge) (hpixels : pixels ≤ maxPixels) :
    small.width ≤ d.width ∧ small.height ≤ d.height := by
  have hw : 0 < ⌊w⌋ := by linarith [hd.source.1]
  have hh : 0 < ⌊h⌋ := by linarith [hd.source.2]
  have hscale : small.scale ≤ d.scale := by
    rw [hd.scale, hsmall.scale]
    exact autoScale_mono hlong hshort hpixels hw hh
  rw [hd.width, hd.height, hsmall.width, hsmall.height]
  constructor
  · exact evenFloor_mono (mul_le_mul_of_nonneg_left hscale (Int.cast_nonneg hw.le))
  · exact evenFloor_mono (mul_le_mul_of_nonneg_left hscale (Int.cast_nonneg hh.le))

end Selected

end Selected

section Contract

theorem deriveMaxFps_bounds (rate : Quantity ℝ) : 1 ≤ deriveMaxFps rate ∧ deriveMaxFps rate ≤ 60 := by
  cases rate with
  | other => exact ⟨by decide, by decide⟩
  | finite rate =>
    rw [deriveMaxFps]
    split
    · exact ⟨by decide, by decide⟩
    · exact ⟨le_max_left _ _, max_le (by decide) (min_le_left _ _)⟩

theorem validateMediaContract_iff {width height maxFps : Int} {contract : MediaContract} :
    validateMediaContract ⟨.integer width, .integer height, .integer maxFps⟩ = .ok contract ↔
      (0 < width ∧ 0 < height ∧ width % 2 = 0 ∧ height % 2 = 0 ∧ max width height ≤ 1920 ∧
        min width height ≤ 1080 ∧ width * height ≤ 1920 * 1080 ∧ 0 < maxFps ∧ maxFps ≤ 60) ∧
      contract = ⟨.integer width, .integer height, .integer maxFps⟩ := by
  by_cases hbad : width ≤ 0 ∨ height ≤ 0 ∨ width % 2 ≠ 0 ∨ height % 2 ≠ 0 ∨
      max width height > videoMaxLongEdge ∨ min width height > videoMaxShortEdge ∨
      width * height > videoMaxPixels ∨ maxFps ≤ 0 ∨ maxFps > videoMaxFps
  · rw [validateMediaContract]
    dsimp only
    rw [if_pos hbad]
    simp only [videoMaxLongEdge, videoMaxShortEdge, videoMaxPixels, videoMaxFps] at hbad
    constructor
    · intro h
      cases h
    · rintro ⟨hgood, -⟩
      omega
  · rw [validateMediaContract]
    dsimp only
    rw [if_neg hbad]
    simp only [videoMaxLongEdge, videoMaxShortEdge, videoMaxPixels, videoMaxFps, not_or, not_le, not_lt,
      not_not] at hbad
    constructor
    · intro h
      cases h
      exact ⟨hbad, rfl⟩
    · rintro ⟨-, rfl⟩
      rfl

/-- The two validators agree. -/
theorem validators_agree (width height maxFps : Nat) :
    (∃ contract, validateMediaContract ⟨.integer width, .integer height, .integer maxFps⟩ =
      .ok contract) ↔ Protocol.isValidMediaContract ⟨width, height, maxFps⟩ = true := by
  have hjs : (∃ contract, validateMediaContract ⟨.integer width, .integer height, .integer maxFps⟩ =
      .ok contract) ↔ (0 < (width : Int) ∧ 0 < (height : Int) ∧ (width : Int) % 2 = 0 ∧
        (height : Int) % 2 = 0 ∧ max (width : Int) height ≤ 1920 ∧ min (width : Int) height ≤ 1080 ∧
        (width : Int) * height ≤ 1920 * 1080 ∧ 0 < (maxFps : Int) ∧ (maxFps : Int) ≤ 60) := by
    constructor
    · rintro ⟨contract, h⟩
      exact (validateMediaContract_iff.mp h).1
    · intro h
      exact ⟨_, validateMediaContract_iff.mpr ⟨h, rfl⟩⟩
  have hproduct : (width : Int) * height ≤ 1920 * 1080 ↔ width * height ≤ 1920 * 1080 := by
    exact_mod_cast Iff.rfl
  rw [hjs, hproduct, Protocol.isValidMediaContract]
  dsimp only
  split
  · rename_i hbad
    simp only [Bool.false_eq_true, iff_false]
    omega
  · rename_i hgood
    simp only [decide_eq_true_eq]
    omega

theorem bitrate_bounds {width height maxFps : Number} {bitrate : Int}
    (h : calculateAutoBitrate width height maxFps = .ok bitrate) :
    750000 ≤ bitrate ∧ bitrate ≤ 12000000 := by
  unfold calculateAutoBitrate at h
  split at h
  · cases h
  · cases h
    exact ⟨le_max_left _ _, max_le (by decide) (min_le_left _ _)⟩

theorem createContract_ok {d : Dimensions} {maxFps : Int} {selection : String} {c : AutoContract}
    (h : createContract d maxFps selection = .ok c) :
    c.toMediaContract = ⟨.integer d.width, .integer d.height, .integer maxFps⟩ ∧
      750000 ≤ c.bitrate ∧ c.bitrate ≤ 12000000 := by
  unfold createContract at h
  split at h
  · cases h
  rename_i contract hcontract
  split at h
  · cases h
  rename_i bitrate hbitrate
  cases h
  exact ⟨(validateMediaContract_iff.mp hcontract).2, bitrate_bounds hbitrate⟩

/-- What holds of a contract that was made for a source on its own. -/
structure Bounded (w h : ℝ) (width height maxFps : Nat) (bitrate : Int) : Prop where
  accepted : validateMediaContract ⟨.integer width, .integer height, .integer maxFps⟩ =
    .ok ⟨.integer width, .integer height, .integer maxFps⟩
  received : Protocol.isValidMediaContract ⟨width, height, maxFps⟩ = true
  even : width % 2 = 0 ∧ height % 2 = 0
  inside : (width : Int) ≤ ⌊w⌋ ∧ (height : Int) ≤ ⌊h⌋
  scaled : ∃ scale : ℝ, scale ≤ 1 ∧ (⌊w⌋ * scale - 2 < width ∧ width ≤ ⌊w⌋ * scale) ∧
    (⌊h⌋ * scale - 2 < height ∧ height ≤ ⌊h⌋ * scale)
  upright : (h ≤ w → height ≤ width) ∧ (w ≤ h → width ≤ height)
  bitrate : 750000 ≤ bitrate ∧ bitrate ≤ 12000000

theorem Selected.bounded {w h : ℝ} {longEdge shortEdge pixels maxFps : Int} {d : Dimensions}
    {bitrate : Int} (hd : Selected w h longEdge shortEdge pixels d) (hlong : longEdge ≤ 1920)
    (hshort : shortEdge ≤ 1080) (hpixels : pixels ≤ 1920 * 1080)
    (hfps : 1 ≤ maxFps ∧ maxFps ≤ 60) (hbitrate : 750000 ≤ bitrate ∧ bitrate ≤ 12000000) :
    ∃ width height fps : Nat, d.width = width ∧ d.height = height ∧ maxFps = fps ∧
      Bounded w h width height fps bitrate := by
  obtain ⟨hwidth, hheight⟩ := hd.visible
  obtain ⟨width, hw⟩ := Int.eq_ofNat_of_zero_le (show 0 ≤ d.width by omega)
  obtain ⟨height, hh⟩ := Int.eq_ofNat_of_zero_le (show 0 ≤ d.height by omega)
  obtain ⟨fps, hf⟩ := Int.eq_ofNat_of_zero_le (show 0 ≤ maxFps by omega)
  have heven : d.width % 2 = 0 ∧ d.height % 2 = 0 := by
    rw [hd.width, hd.height]
    exact ⟨evenFloor_even _, evenFloor_even _⟩
  obtain ⟨hlongest, hshortest, harea⟩ := hd.bounds
  have hscaled := hd.scaled
  have hupright := hd.upright
  have hinside := hd.inside
  have hone := hd.scale_le_one
  simp only [hw, hh, hf] at hwidth hheight heven hlongest hshortest harea hscaled hupright hinside hfps
  have haccepted : validateMediaContract ⟨.integer width, .integer height, .integer fps⟩ =
      .ok ⟨.integer width, .integer height, .integer fps⟩ := by
    rw [validateMediaContract_iff]
    exact ⟨⟨by omega, by omega, heven.1, heven.2, by omega, by omega, harea.trans hpixels, by omega,
      by omega⟩, rfl⟩
  refine ⟨width, height, fps, hw, hh, hf, haccepted, ?_, by omega, hinside, ⟨d.scale, hone, ?_⟩, ?_,
    hbitrate⟩
  · rw [← validators_agree]
    exact ⟨_, haccepted⟩
  · exact_mod_cast hscaled
  · exact_mod_cast hupright

/-- Dimensions that are selected make a contract. -/
theorem Selected.created {w h : ℝ} {longEdge shortEdge pixels maxFps : Int} {d : Dimensions}
    (hd : Selected w h longEdge shortEdge pixels d) (hlong : longEdge ≤ 1920)
    (hshort : shortEdge ≤ 1080) (hpixels : pixels ≤ 1920 * 1080) (hfps : 1 ≤ maxFps ∧ maxFps ≤ 60)
    (selection : String) : ∃ c, createContract d maxFps selection = .ok c := by
  obtain ⟨width, height, fps, hw, hh, hf, hbounded⟩ :=
    hd.bounded hlong hshort hpixels hfps (show 750000 ≤ 750000 ∧ 750000 ≤ 12000000 by decide)
  have haccepted := hbounded.accepted
  rw [← hw, ← hh, ← hf] at haccepted
  simp only [createContract, calculateAutoBitrate, haccepted]
  exact ⟨_, rfl⟩

theorem built_of_selected {w h : ℝ} {large small : Dimensions} (rate : Quantity ℝ)
    (hlarge : selectAutoDimensions (.finite w) (.finite h) {} = .ok large)
    (hsmall : selectAutoDimensions (.finite w) (.finite h) fallbackLimits = .ok small) :
    ∃ contracts, buildAutoVideoContractCandidates (.finite w) (.finite h) rate = .ok contracts := by
  have hpreferred : Selected w h 1920 1080 (1920 * 1080) large := selected_of_ok hlarge
  have hfallback : Selected w h 1280 720 (1280 * 720) small := selected_of_ok hsmall
  obtain ⟨first, hfirst⟩ :=
    hpreferred.created le_rfl le_rfl le_rfl (deriveMaxFps_bounds rate) "preferred"
  obtain ⟨second, hsecond⟩ :=
    hfallback.created (by decide) (by decide) (by decide) (deriveMaxFps_bounds rate) "fallback"
  rw [buildAutoVideoContractCandidates, hlarge, hsmall]
  simp only [bind, Except.bind, pure, Except.pure, hfirst, hsecond]
  exact ⟨_, rfl⟩

/-- What is built is one or two contracts; the second is the smaller one and fits 1280x720. -/
theorem built_contracts {w h : ℝ} {rate : Quantity ℝ} {contracts : List AutoContract}
    (hbuilt : buildAutoVideoContractCandidates (.finite w) (.finite h) rate = .ok contracts) :
    ∃ width height maxFps : Nat, ∃ first rest, contracts = first :: rest ∧
      first.toMediaContract = ⟨.integer width, .integer height, .integer maxFps⟩ ∧
      Bounded w h width height maxFps first.bitrate ∧
      ∀ second ∈ rest, rest = [second] ∧ ∃ smallWidth smallHeight : Nat,
        second.toMediaContract = ⟨.integer smallWidth, .integer smallHeight, .integer maxFps⟩ ∧
        Bounded w h smallWidth smallHeight maxFps second.bitrate ∧
        max smallWidth smallHeight ≤ 1280 ∧ min smallWidth smallHeight ≤ 720 ∧
        smallWidth ≤ width ∧ smallHeight ≤ height := by
  unfold buildAutoVideoContractCandidates at hbuilt
  simp only [bind, Except.bind, pure, Except.pure] at hbuilt
  split at hbuilt
  · cases hbuilt
  rename_i large hlarge
  split at hbuilt
  · cases hbuilt
  rename_i first hfirst
  split at hbuilt
  · cases hbuilt
  rename_i small hsmall
  split at hbuilt
  · cases hbuilt
  rename_i second hsecond
  cases hbuilt
  have hpreferred : Selected w h 1920 1080 (1920 * 1080) large := selected_of_ok hlarge
  have hfallback : Selected w h 1280 720 (1280 * 720) small := selected_of_ok hsmall
  obtain ⟨hcontract, hbitrate⟩ := createContract_ok hfirst
  obtain ⟨hcontract', hbitrate'⟩ := createContract_ok hsecond
  have hfps := deriveMaxFps_bounds rate
  obtain ⟨width, height, fps, hw, hh, hf, hbounded⟩ :=
    hpreferred.bounded le_rfl le_rfl le_rfl hfps hbitrate
  obtain ⟨smallWidth, smallHeight, fps', hw', hh', hf', hbounded'⟩ :=
    hfallback.bounded (by decide) (by decide) (by decide) hfps hbitrate'
  obtain rfl : fps = fps' := by omega
  obtain ⟨hlong, hshort, -⟩ := hfallback.bounds
  obtain ⟨hless, hless'⟩ := hpreferred.smaller hfallback (by decide) (by decide) (by decide)
  rw [hw, hh, hf] at hcontract
  rw [hw', hh', hf'] at hcontract'
  have hsmaller : max smallWidth smallHeight ≤ 1280 ∧ min smallWidth smallHeight ≤ 720 ∧
      smallWidth ≤ width ∧ smallHeight ≤ height := by omega
  refine ⟨width, height, fps, first,
    if first.width = second.width ∧ first.height = second.height then [] else [second], ?_, hcontract,
    hbounded, ?_⟩
  · split <;> rfl
  · intro other hmem
    split at hmem
    · cases hmem
    · rename_i hdiffer
      obtain rfl := List.mem_singleton.mp hmem
      rw [if_neg hdiffer]
      exact ⟨rfl, smallWidth, smallHeight, hcontract', hbounded', hsmaller⟩

end Contract

section Integers
variable {side other maxLongEdge maxShortEdge maxPixels : Nat}

/-- A side as it is selected, in whole numbers. -/
def targetSide (maxLongEdge maxShortEdge maxPixels side other : Nat) : Nat :=
  2 * min (min (min (side / 2) (side * maxLongEdge / (2 * max side other)))
    (side * maxShortEdge / (2 * min side other))) (Nat.sqrt (side * maxPixels / (4 * other)))

theorem floor_quotient (a b : Nat) : ⌊(a : ℝ) / b⌋ = (a / b : Nat) := by
  rw [Int.floor_div_natCast, Int.floor_natCast]
  exact (Int.natCast_div a b).symm

theorem floor_sqrt_quotient (a : Nat) {b : Nat} (hb : 0 < b) :
    ⌊Real.sqrt ((a : ℝ) / b)⌋ = Nat.sqrt (a / b) := by
  have hpos : (0 : ℝ) < b := Nat.cast_pos.mpr hb
  rw [Int.floor_eq_iff]
  constructor
  · rw [Int.cast_natCast, Real.le_sqrt (Nat.cast_nonneg _) (by positivity), le_div_iff₀ hpos]
    have hle := Nat.mul_le_mul_right b (Nat.sqrt_le' (a / b))
    exact_mod_cast hle.trans (Nat.div_mul_le_self a b)
  · rw [Int.cast_natCast, Real.sqrt_lt' (by positivity), div_lt_iff₀ hpos]
    have hlt := (Nat.div_lt_iff_lt_mul hb).mp (Nat.lt_succ_sqrt' (a / b))
    exact_mod_cast hlt

/-- The script's arithmetic, rounded once at the end, is the one in whole numbers. -/
theorem evenFloor_autoScale (hside : 0 < side) (hother : 0 < other) :
    evenFloor ((side : Int) * autoScale maxLongEdge maxShortEdge maxPixels side other) =
      targetSide maxLongEdge maxShortEdge maxPixels side other := by
  have hs : (0 : ℝ) < side := Nat.cast_pos.mpr hside
  have ho : (0 : ℝ) < other := Nat.cast_pos.mpr hother
  have hedge : ∀ limit edge : Nat, (side : ℝ) / 2 * (limit / edge) =
      ((side * limit : Nat) : ℝ) / (2 * edge : Nat) := by
    intro limit edge
    push_cast
    ring
  have hroot : (side : ℝ) / 2 * Real.sqrt (maxPixels / (side * other)) =
      Real.sqrt (((side * maxPixels : Nat) : ℝ) / (4 * other : Nat)) := by
    have hhalf : (0 : ℝ) ≤ side / 2 := by positivity
    conv_lhs => rw [← Real.sqrt_sq hhalf]
    rw [← Real.sqrt_mul (by positivity)]
    congr 1
    push_cast
    field_simp
    ring
  have hsplit : (side : ℝ) * autoScale maxLongEdge maxShortEdge maxPixels side other / 2 =
      min (min (min ((side : ℝ) / (2 : Nat))
        (((side * maxLongEdge : Nat) : ℝ) / (2 * max side other : Nat)))
        (((side * maxShortEdge : Nat) : ℝ) / (2 * min side other : Nat)))
        (Real.sqrt (((side * maxPixels : Nat) : ℝ) / (4 * other : Nat))) := by
    have hhalf : (0 : ℝ) ≤ side / 2 := by positivity
    rw [← hedge, ← hedge, ← hroot, mul_div_right_comm, autoScale, mul_min_of_nonneg _ _ hhalf,
      mul_min_of_nonneg _ _ hhalf, mul_min_of_nonneg _ _ hhalf, mul_one]
    push_cast
    rfl
  rw [evenFloor, Int.cast_natCast, hsplit, Int.floor_mono.map_min, Int.floor_mono.map_min,
    Int.floor_mono.map_min, floor_quotient, floor_quotient, floor_quotient,
    floor_sqrt_quotient _ (by omega), targetSide]
  push_cast
  ring

theorem selectAutoDimensions_natCast (sourceWidth sourceHeight longEdge shortEdge pixels : Nat)
    (hwidth : 2 ≤ sourceWidth) (hheight : 2 ≤ sourceHeight)
    (hlimits : 2 ≤ longEdge ∧ 2 ≤ shortEdge ∧ 4 ≤ pixels)
    (hvisible : 2 ≤ targetSide longEdge shortEdge pixels sourceWidth sourceHeight ∧
      2 ≤ targetSide longEdge shortEdge pixels sourceHeight sourceWidth) :
    selectAutoDimensions (.finite sourceWidth) (.finite sourceHeight)
        ⟨.integer longEdge, .integer shortEdge, .integer pixels⟩ =
      .ok ⟨targetSide longEdge shortEdge pixels sourceWidth sourceHeight,
        targetSide longEdge shortEdge pixels sourceHeight sourceWidth, sourceWidth, sourceHeight,
        autoScale longEdge shortEdge pixels sourceWidth sourceHeight⟩ := by
  have hsource : normalizeSourceSize (.finite (sourceWidth : ℝ)) (.finite (sourceHeight : ℝ)) =
      .ok ((sourceWidth : Int), (sourceHeight : Int)) := by
    have hw : ¬(sourceWidth : ℝ) < 2 := not_lt.mpr (by exact_mod_cast hwidth)
    have hh : ¬(sourceHeight : ℝ) < 2 := not_lt.mpr (by exact_mod_cast hheight)
    simp [normalizeSourceSize, hw, hh]
  have hturned : autoScale longEdge shortEdge pixels sourceWidth sourceHeight =
      autoScale longEdge shortEdge pixels sourceHeight sourceWidth := by
    rw [autoScale, autoScale, max_comm, min_comm (sourceWidth : Int), mul_comm (sourceWidth : Int)]
  have htall : evenFloor ((sourceHeight : Int) *
        autoScale longEdge shortEdge pixels sourceHeight sourceWidth) =
      targetSide longEdge shortEdge pixels sourceHeight sourceWidth :=
    evenFloor_autoScale (by omega) (by omega)
  rw [← hturned] at htall
  rw [selectAutoDimensions, hsource]
  dsimp only
  rw [if_neg (by omega), evenFloor_autoScale (by omega) (by omega), htall, if_neg (by omega)]

end Integers

/-- Whatever the source and the frame rate, what is built is one or two contracts within the bounds
of both sides, and the two sides have the same bounds. -/
theorem automatic_contracts (w h : ℝ) (rate : Quantity ℝ) {contracts : List AutoContract}
    (hbuilt : buildAutoVideoContractCandidates (.finite w) (.finite h) rate = .ok contracts) :
    (∃ width height maxFps : Nat, ∃ first rest, contracts = first :: rest ∧
      first.toMediaContract = ⟨.integer width, .integer height, .integer maxFps⟩ ∧
      Bounded w h width height maxFps first.bitrate ∧
      ∀ second ∈ rest, rest = [second] ∧ ∃ smallWidth smallHeight : Nat,
        second.toMediaContract = ⟨.integer smallWidth, .integer smallHeight, .integer maxFps⟩ ∧
        Bounded w h smallWidth smallHeight maxFps second.bitrate ∧
        max smallWidth smallHeight ≤ 1280 ∧ min smallWidth smallHeight ≤ 720 ∧
        smallWidth ≤ width ∧ smallHeight ≤ height) ∧
    ∀ width height maxFps : Nat,
      (∃ contract, validateMediaContract ⟨.integer width, .integer height, .integer maxFps⟩ =
        .ok contract) ↔ Protocol.isValidMediaContract ⟨width, height, maxFps⟩ = true :=
  ⟨built_contracts hbuilt, validators_agree⟩

/-- A source of 2560x1440 that reports no frame rate. -/
theorem automatic_contracts_sample : ∃ contracts,
    buildAutoVideoContractCandidates (.finite (2560 : Nat)) (.finite (1440 : Nat)) .other =
      .ok contracts ∧
    ∃ width height maxFps : Nat, ∃ first rest, contracts = first :: rest ∧
      Bounded (2560 : Nat) (1440 : Nat) width height maxFps first.bitrate := by
  obtain ⟨contracts, hcontracts⟩ := built_of_selected .other
    (selectAutoDimensions_natCast 2560 1440 1920 1080 (1920 * 1080) (by decide) (by decide)
      (by decide) (by decide +kernel))
    (selectAutoDimensions_natCast 2560 1440 1280 720 (1280 * 720) (by decide) (by decide)
      (by decide) (by decide +kernel))
  obtain ⟨⟨width, height, maxFps, first, rest, hfirst, -, hbounded, -⟩, -⟩ :=
    automatic_contracts _ _ _ hcontracts
  exact ⟨contracts, hcontracts, width, height, maxFps, first, rest, hfirst, hbounded⟩

end HarmonyScreen.Proofs.AutoContract
