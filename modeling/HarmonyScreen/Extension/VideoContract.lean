import Mathlib.Analysis.Real.Sqrt
import HarmonyScreen.Extension.ProofMessages

namespace HarmonyScreen.Extension.VideoContract

/-- A number of the script in exact arithmetic, or one that `Number.isFinite` refuses. -/
inductive Quantity (α : Type) where
  | finite (value : α)
  | other

def videoFallbackMaxLongEdge : Int := 1280
def videoFallbackMaxShortEdge : Int := 720
def videoFallbackMaxPixels : Int := 1280 * 720
def videoDimensionStabilityFrames : Int := 3
def videoMinBitrate : Int := 750000
def videoMaxBitrate : Int := 12000000

def bitrateBitsPerPixelFrame : ℚ := 1 / 10
def bitrateRounding : Int := 100000

def normalizeSourceSize {α : Type} [Ring α] [LinearOrder α] [FloorRing α] (width height : Quantity α) :
    Except String (Int × Int) :=
  match width, height with
  | .finite width, .finite height =>
    if width < 2 ∨ height < 2 then .error "捕获画面尺寸无效" else .ok (⌊width⌋, ⌊height⌋)
  | _, _ => .error "捕获画面尺寸无效"

noncomputable section

def evenFloor (value : ℝ) : Int := ⌊value / 2⌋ * 2

/-- The bounds of `selectAutoDimensions` with their defaults. -/
structure Limits where
  maxLongEdge : Number := .integer videoMaxLongEdge
  maxShortEdge : Number := .integer videoMaxShortEdge
  maxPixels : Number := .integer videoMaxPixels

structure Dimensions where
  width : Int
  height : Int
  sourceWidth : Int
  sourceHeight : Int
  scale : ℝ

/-- The scale that keeps all bounds and does not enlarge. -/
def autoScale (maxLongEdge maxShortEdge maxPixels : Int) (width height : Int) : ℝ :=
  min (min (min 1 (maxLongEdge / (max width height : Int))) (maxShortEdge / (min width height : Int)))
    (Real.sqrt (maxPixels / (width * height : Int)))

def selectAutoDimensions (width height : Quantity ℝ) (limits : Limits) : Except String Dimensions :=
  match normalizeSourceSize width height with
  | .error text => .error text
  | .ok (sourceWidth, sourceHeight) =>
    match limits.maxLongEdge, limits.maxShortEdge, limits.maxPixels with
    | .integer maxLongEdge, .integer maxShortEdge, .integer maxPixels =>
      if maxLongEdge < 2 ∨ maxShortEdge < 2 ∨ maxPixels < 4 then .error "自动画面尺寸上限无效"
      else
        let scale := autoScale maxLongEdge maxShortEdge maxPixels sourceWidth sourceHeight
        let targetWidth := evenFloor (sourceWidth * scale)
        let targetHeight := evenFloor (sourceHeight * scale)
        if targetWidth < 2 ∨ targetHeight < 2 then
          .error "捕获画面尺寸过小，无法生成偶数 H.264 画面"
        else .ok ⟨targetWidth, targetHeight, sourceWidth, sourceHeight, scale⟩
    | _, _, _ => .error "自动画面尺寸上限无效"

def deriveMaxFps : Quantity ℝ → Int
  | .finite settingsFrameRate =>
    if settingsFrameRate ≤ 0 then videoMaxFps
    else max 1 (min videoMaxFps ⌊settingsFrameRate + 1 / 2⌋)
  | .other => videoMaxFps

end

def calculateAutoBitrate (width height maxFps : Number) : Except String Int :=
  match validateMediaContract ⟨width, height, maxFps⟩ with
  | .error text => .error text
  | .ok contract =>
    let raw := (contract.width.toInt * contract.height.toInt * contract.maxFps.toInt : Int) *
      bitrateBitsPerPixelFrame
    let rounded := ⌊raw / bitrateRounding + 1 / 2⌋ * bitrateRounding
    .ok (max videoMinBitrate (min videoMaxBitrate rounded))

def codecForContract (contract : MediaContract) : String :=
  if contract.width.toInt * contract.height.toInt * contract.maxFps.toInt >
      1280 * 720 * videoMaxFps then "avc1.42002a"
  else "avc1.420028"

structure AutoContract extends MediaContract where
  codec : String
  bitrate : Int
  sourceWidth : Int
  sourceHeight : Int
  selection : String

def createContract (dimensions : Dimensions) (maxFps : Int) (selection : String) :
    Except String AutoContract :=
  match validateMediaContract
      ⟨.integer dimensions.width, .integer dimensions.height, .integer maxFps⟩ with
  | .error text => .error text
  | .ok contract =>
    match calculateAutoBitrate contract.width contract.height contract.maxFps with
    | .error text => .error text
    | .ok bitrate =>
      .ok { contract with
        codec := codecForContract contract
        bitrate := bitrate
        sourceWidth := dimensions.sourceWidth
        sourceHeight := dimensions.sourceHeight
        selection := selection }

def fallbackLimits : Limits where
  maxLongEdge := .integer videoFallbackMaxLongEdge
  maxShortEdge := .integer videoFallbackMaxShortEdge
  maxPixels := .integer videoFallbackMaxPixels

noncomputable def buildAutoVideoContractCandidates
    (sourceWidth sourceHeight settingsFrameRate : Quantity ℝ) : Except String (List AutoContract) := do
  let maxFps := deriveMaxFps settingsFrameRate
  let preferred ← createContract (← selectAutoDimensions sourceWidth sourceHeight {}) maxFps
    "preferred"
  let fallback ← createContract (← selectAutoDimensions sourceWidth sourceHeight fallbackLimits)
    maxFps "fallback"
  return if preferred.width = fallback.width ∧ preferred.height = fallback.height then [preferred]
    else [preferred, fallback]

section Gate

/-- The last accepted timestamp is in microseconds. -/
structure MaxFrameRateGate where
  maxFps : Number
  lastAcceptedTimestampUs : Option ℚ := none

namespace MaxFrameRateGate

def construct (maxFps : Number) : Except String MaxFrameRateGate :=
  (validateMediaContract ⟨.integer 2, .integer 2, maxFps⟩).map fun contract =>
    { maxFps := contract.maxFps }

def accept (gate : MaxFrameRateGate) (timestampUs : ℚ) : MaxFrameRateGate :=
  { gate with lastAcceptedTimestampUs := some timestampUs }

def minimumIntervalUs (gate : MaxFrameRateGate) : ℚ := 1000000 / gate.maxFps.toInt

def shouldSubmit (gate : MaxFrameRateGate) : Quantity ℚ → Bool × MaxFrameRateGate
  | .other => (true, gate)
  | .finite timestampUs =>
    if timestampUs < 0 then (true, gate)
    else
      match gate.lastAcceptedTimestampUs with
      | none => (true, gate.accept timestampUs)
      | some last =>
        if timestampUs < last then (true, gate.accept timestampUs)
        else if timestampUs = last then (false, gate)
        -- a microsecond is left for the rounding of the timestamps
        else if timestampUs - last + 1 < gate.minimumIntervalUs then (false, gate)
        else (true, gate.accept timestampUs)

end MaxFrameRateGate

end Gate

section Stable

structure StableFrameSizeTracker where
  width : Int
  height : Int
  threshold : Int
  pendingWidth : Int := 0
  pendingHeight : Int := 0
  pendingCount : Int := 0
  triggered : Bool := false
  deriving DecidableEq, Repr

namespace StableFrameSizeTracker

def construct (width height : Quantity ℚ)
    (threshold : Number := .integer videoDimensionStabilityFrames) :
    Except String StableFrameSizeTracker :=
  match normalizeSourceSize width height with
  | .error text => .error text
  | .ok (width, height) =>
    match threshold with
    | .integer threshold =>
      if threshold < 2 then .error "稳定尺寸确认帧数无效" else .ok { width, height, threshold }
    | .other => .error "稳定尺寸确认帧数无效"

def resetPending (t : StableFrameSizeTracker) : StableFrameSizeTracker :=
  { t with pendingWidth := 0, pendingHeight := 0, pendingCount := 0, triggered := false }

/-- The size that has become stable, if one has, and the tracker afterwards. -/
def observe (t : StableFrameSizeTracker) (width height : Quantity ℚ) :
    Except String (Option (Int × Int) × StableFrameSizeTracker) :=
  match normalizeSourceSize width height with
  | .error text => .error text
  | .ok (width, height) =>
    if width = t.width ∧ height = t.height then .ok (none, t.resetPending)
    else if width ≠ t.pendingWidth ∨ height ≠ t.pendingHeight then
      .ok (none, { t with
        pendingWidth := width, pendingHeight := height, pendingCount := 1, triggered := false })
    else
      let t := { t with pendingCount := t.pendingCount + 1 }
      if t.pendingCount < t.threshold ∨ t.triggered then .ok (none, t)
      else .ok (some (t.pendingWidth, t.pendingHeight), { t with triggered := true })

def commit (t : StableFrameSizeTracker) (width height : Quantity ℚ) :
    Except String StableFrameSizeTracker :=
  match normalizeSourceSize width height with
  | .error text => .error text
  | .ok (width, height) => .ok { t with width, height }.resetPending

end StableFrameSizeTracker

end Stable

end HarmonyScreen.Extension.VideoContract
