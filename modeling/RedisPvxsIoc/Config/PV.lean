import RedisPvxsIoc.Config.Parse
import RedisPvxsIoc.Foundations.BinaryFloat
import RedisPvxsIoc.Runtime.Value
import Mathlib.Data.List.ReduceOption

/-!
# Reading a PV

Model of `parsePV` and of the section parsers it calls (`src/config.cpp`), on the tree that
the document library hands over and `validateTree` has passed: the keys of a mapping are
strings and occur once.

How the library reads a number or a truth value from the text of a scalar is left open; it is
the argument `Conversions` of the parsers.

## Main results

- `AcceptedPV`: what acceptance says about the sections of one PV
- `parsePV_accepted`: every accepted PV has it
-/

namespace RedisPvxsIoc.Config

open Foundations
open RedisPvxsIoc.Runtime (Floating hasAlarmRules)

/-! ## Documents -/

inductive Node where
  | null
  | scalar (text : String)
  | sequence (items : List Node)
  | map (entries : List (String × Node))

/-- `as<T>` for the types a PV is made of, on the text of a scalar.  An integer type is given
    by its sign and its width. -/
structure Conversions where
  bool : String → Option Bool
  integer : (signed : Bool) → (bits : Nat) → String → Option Int
  single : String → Option Floating
  double : String → Option Floating

namespace Node

/-- `node[key]`, where `none` is the undefined node. -/
def child? : Node → String → Option Node
  | map entries, key => entries.lookup key
  | _, _ => none

/-- `Scalar()` -/
def text : Node → String
  | scalar text => text
  | _ => ""

/-- `as<T>` -/
def as? {α : Type} (convert : String → Option α) : Node → Option α
  | scalar text => convert text
  | _ => none

/-- `as<T>` with the failure reported under the path. -/
def read {α : Type} (convert : String → Option α) (node : Node) (path : String) :
    Except String α :=
  (node.as? convert).elim (fail path "bad conversion") .ok

end Node

/-- A null is read as the text `null`. -/
def parseString (node : Node) (path : String) : Except String String :=
  match node with
  | .scalar text => .ok text
  | .null => .ok "null"
  | _ => fail path "bad conversion"

def lowerCopy (input : String) : String := input.map Char.toLower

def requireNode (parent : Node) (key path : String) : Except String Node :=
  (parent.child? key).elim (fail path ("missing required key '" ++ key ++ "'")) .ok

def requireMap (node : Node) (path : String) : Except String (List (String × Node)) :=
  match node with
  | .map entries => .ok entries
  | _ => fail path "expected mapping"

def requireSequence (node : Node) (path : String) : Except String (List Node) :=
  match node with
  | .sequence items => .ok items
  | _ => fail path "expected sequence"

def rejectUnknownKeys (node : Node) (path : String) (allowed : List String) :
    Except String Unit := do
  let entries ← requireMap node path
  entries.forM fun entry =>
    check (allowed.contains entry.1) (path ++ "." ++ entry.1) "unknown key"

section
variable {α : Type}

/-- `if (node[key]) target = parse(node[key], path + "." + key)` -/
def readKey (node : Node) (path key : String) (initial : α)
    (parse : Node → String → Except String α) : Except String α :=
  match node.child? key with
  | none => .ok initial
  | some child => parse child (path ++ "." ++ key)

/-- The same for a field that is empty without the key. -/
def readKey? (node : Node) (path key : String) (parse : Node → String → Except String α) :
    Except String (Option α) :=
  readKey node path key none fun child path => some <$> parse child path

end

/-! ## Numbers -/

section
variable (y : Conversions)

/-- The first character that is not white space. -/
def firstVisible (text : String) : Option Char :=
  text.toList.find? fun ch => !(ch == ' ' || ch == '\t' || ch == '\r' || ch == '\n')

/-- `parseNumeric<T>` for an integer type of at least sixteen bits. -/
def parseInteger (signed : Bool) (bits : Nat) (node : Node) (path : String) :
    Except String Int := do
  check (signed || firstVisible node.text != some '-') path "negative unsigned value"
  node.read (y.integer signed bits) path

/-- The specialisations for the types of one byte. -/
def parseByte (signed : Bool) (node : Node) (path : String) : Except String Int := do
  let value ← parseInteger y signed 32 node path
  if signed then check (-128 ≤ value ∧ value ≤ 127) path "outside int8 range"
  else check (value ≤ 255) path "outside uint8 range"
  return value

/-- `parseNumeric<T>` for a floating-point type. -/
def parseFloating (convert : String → Option Floating) (node : Node) (path : String) :
    Except String Rat := do
  match ← node.read convert path with
  | .finite q => return q
  | _ => fail path "must be finite"

/-- Sign and width of the integer types. -/
def integerFormat : PrimitiveType → Option (Bool × Nat)
  | .int8 => some (true, 8)
  | .uint8 => some (false, 8)
  | .int16 => some (true, 16)
  | .uint16 => some (false, 16)
  | .int32 => some (true, 32)
  | .uint32 => some (false, 32)
  | .int64 => some (true, 64)
  | .uint64 => some (false, 64)
  | .boolean | .float32 | .float64 | .string => none

def isNumericType (type : PrimitiveType) : Bool := type != .boolean && type != .string

def isFloatingPointType (type : PrimitiveType) : Bool := type == .float32 || type == .float64

def isArrayElementTypeSupported (type : PrimitiveType) : Bool :=
  type != .boolean && type != .string

/-! ## Enumerations -/

def parsePrimitiveType (node : Node) (path : String) : Except String PrimitiveType := do
  let type := lowerCopy (← parseString node path)
  if type = "bool" ∨ type = "boolean" then return .boolean
  if type = "int8" then return .int8
  if type = "uint8" then return .uint8
  if type = "int16" then return .int16
  if type = "uint16" then return .uint16
  if type = "int32" then return .int32
  if type = "uint32" then return .uint32
  if type = "int64" then return .int64
  if type = "uint64" then return .uint64
  if type = "float32" ∨ type = "float" then return .float32
  if type = "float64" ∨ type = "double" then return .float64
  if type = "string" then return .string
  fail path ("unsupported primitive type '" ++ type ++ "'")

def parseShape (node : Node) (path : String) : Except String Shape := do
  let shape := lowerCopy (← parseString node path)
  if shape = "scalar" then return .scalar
  if shape = "array" then return .array
  fail path ("unsupported shape '" ++ shape ++ "'")

def parseDisplayForm (node : Node) (path : String) : Except String DisplayForm := do
  let form := lowerCopy (← parseString node path)
  if form = "default" then return .default
  if form = "string" then return .string
  if form = "binary" then return .binary
  if form = "decimal" then return .decimal
  if form = "hex" then return .hex
  if form = "exponential" then return .exponential
  if form = "engineering" then return .engineering
  fail path ("unsupported display form '" ++ form ++ "'")

def parseKind (node : Node) (path : String) : Except String PVKind := do
  let kind := lowerCopy (← parseString node path)
  if kind = "ntndarray" then return .ntNDArray
  check (kind = "value" ∨ kind = "scalar" ∨ kind = "array") path
    ("unsupported PV kind '" ++ kind ++ "'")
  return .value

/-! ## Sections of a PV -/

def parseAccessAssignment (node : Node) (path : String) : Except String AccessAssignment := do
  rejectUnknownKeys node path ["asg", "asl"]
  let initial : AccessAssignment := {}
  let asg ← readKey node path "asg" initial.asg parseString
  let asl ← readKey node path "asl" initial.asl (parseInteger y true 32)
  check (asg ≠ "") (path ++ ".asg") "must not be empty"
  check (asl = 0 ∨ asl = 1) (path ++ ".asl") "must be 0 or 1"
  return { asg, asl }

def parseRoute (node : Node) (path : String) : Except String RouteConfig := do
  rejectUnknownKeys node path ["backend", "key"]
  let initial : RouteConfig := {}
  let backend ← readKey node path "backend" initial.backend parseString
  let key ← parseString (← requireNode node "key" path) (path ++ ".key")
  check (key ≠ "") (path ++ ".key") "must not be empty"
  return { backend, key }

def parseConfirm (node : Node) (path : String) : Except String ConfirmConfig := do
  rejectUnknownKeys node path ["backend", "key", "timeout_ms"]
  let initial : ConfirmConfig := {}
  let backend ← readKey node path "backend" initial.backend parseString
  let key ← parseString (← requireNode node "key" path) (path ++ ".key")
  let timeoutMs ← readKey node path "timeout_ms" initial.timeoutMs (parseInteger y true 32)
  check (key ≠ "") (path ++ ".key") "must not be empty"
  check (0 < timeoutMs ∧ timeoutMs ≤ 300000) (path ++ ".timeout_ms") "must be 1..300000"
  return { backend, key, timeoutMs }

/-- The lower limit does not exceed the upper one, where both are given. -/
def LimitConfig.ordered (limits : LimitConfig) : Bool :=
  limits.low.all fun low => limits.high.all fun high => low ≤ high

def parseLimitConfig (node : Option Node) (path : String) (control : Bool) :
    Except String LimitConfig :=
  match node with
  | none => .ok {}
  | some node => do
    rejectUnknownKeys node path
      (if control then ["low", "high", "min_step"] else ["low", "high"])
    let low ← readKey? node path "low" (parseFloating y.double)
    let high ← readKey? node path "high" (parseFloating y.double)
    let limits : LimitConfig := { low, high }
    check limits.ordered path "low must not exceed high"
    return limits

/-- The `min_step` of the section `control` has precedence over the one beside it. -/
def parseMinStep (node : Node) (path : String) : Except String (Option Rat) := do
  let minStep ← readKey? node path "min_step" (parseFloating y.double)
  match node.child? "control" with
  | none => return minStep
  | some control =>
    readKey control (path ++ ".control") "min_step" minStep
      fun child path => some <$> parseFloating y.double child path

def parseMetadata (node : Option Node) (path : String) : Except String MetadataConfig :=
  match node with
  | none => .ok {}
  | some node => do
    rejectUnknownKeys node path
      ["description", "units", "precision", "form", "display", "control", "min_step"]
    let initial : MetadataConfig := {}
    let description ← readKey node path "description" initial.description parseString
    let units ← readKey node path "units" initial.units parseString
    let precision ← readKey? node path "precision" (parseInteger y true 32)
    let form ← readKey? node path "form" parseDisplayForm
    let display ← parseLimitConfig y (node.child? "display") (path ++ ".display") false
    let control ← parseLimitConfig y (node.child? "control") (path ++ ".control") true
    let minStep ← parseMinStep y node path
    check (minStep.all (0 ≤ ·)) (path ++ ".min_step") "must not be negative"
    return { description, units, precision, form, display, control, minStep }

/-- The loop over the thresholds, with the last one that was given. -/
def checkOrdered (path : String) : Option Rat → List (Option Rat) → Except String Unit
  | _, [] => .ok ()
  | previous, none :: rest => checkOrdered path previous rest
  | previous, some threshold :: rest => do
    check (previous.all (· ≤ threshold)) path
      "alarm thresholds must be ordered low_alarm <= low_warning <= high_warning <= high_alarm"
    checkOrdered path (some threshold) rest

/-- The thresholds from the lowest to the highest. -/
def AlarmConfig.thresholds (alarms : AlarmConfig) : List (Option Rat) :=
  [alarms.lowAlarm, alarms.lowWarning, alarms.highWarning, alarms.highAlarm]

def parseAlarmConfig (node : Option Node) (path : String) : Except String AlarmConfig :=
  match node with
  | none => .ok {}
  | some node => do
    rejectUnknownKeys node path
      ["low_alarm", "low_warning", "high_warning", "high_alarm", "hysteresis"]
    let initial : AlarmConfig := {}
    let lowAlarm ← readKey? node path "low_alarm" (parseFloating y.double)
    let lowWarning ← readKey? node path "low_warning" (parseFloating y.double)
    let highWarning ← readKey? node path "high_warning" (parseFloating y.double)
    let highAlarm ← readKey? node path "high_alarm" (parseFloating y.double)
    let hysteresis ← readKey node path "hysteresis" initial.hysteresis (parseFloating y.double)
    check (0 ≤ hysteresis) (path ++ ".hysteresis") "must not be negative"
    let alarms : AlarmConfig := { lowAlarm, lowWarning, highWarning, highAlarm, hysteresis }
    checkOrdered path none alarms.thresholds
    return alarms

/-- `std::isfinite(1.0 / scale)` -/
def finiteInverse (scale : Rat) : Bool := (binary64.round (1 / scale)).isSome

def checkLinear (node : Node) (path : String) : Except String Unit := do
  let kind := lowerCopy (← parseString node path)
  check (kind = "linear") path "only linear transforms are supported"

def parseTransform (node : Option Node) (path : String) :
    Except String (Option LinearTransformConfig) :=
  match node with
  | none => .ok none
  | some node => do
    rejectUnknownKeys node path ["kind", "scale", "offset"]
    readKey node path "kind" () checkLinear
    let initial : LinearTransformConfig := {}
    let scale ← readKey node path "scale" initial.scale (parseFloating y.double)
    let offset ← readKey node path "offset" initial.offset (parseFloating y.double)
    check (scale ≠ 0 && finiteInverse scale) (path ++ ".scale")
      "must be nonzero with a finite inverse"
    return some { scale, offset }

/-- `parseNumeric<T>` for the integer type of a PV. -/
def parseIntegerOf (signed : Bool) (bits : Nat) (node : Node) (path : String) :
    Except String Int :=
  if bits = 8 then parseByte y signed node path else parseInteger y signed bits node path

def parseScalarInitial (type : PrimitiveType) (node : Node) (path : String) :
    Except String TypedValue :=
  match type, integerFormat type with
  | _, some (signed, bits) => .integer type <$> parseIntegerOf y signed bits node path
  | .float32, none => .floating type <$> parseFloating y.single node path
  | .float64, none => .floating type <$> parseFloating y.double node path
  | .string, none => .string <$> parseString node path
  -- `as<bool>` is not wrapped, so its failure names no path
  | _, none => (node.as? y.bool).elim (.error "bad conversion") fun value => .ok (.boolean value)

/-- The elements of a sequence, each read under its own path. -/
def parseElements {α : Type} (node : Node) (path : String)
    (parse : Node → String → Except String α) : Except String (List α) := do
  let items ← requireSequence node path
  items.zipIdx.mapM fun (item, index) => parse item (path ++ "[" ++ toString index ++ "]")

def parseArrayInitial (type : PrimitiveType) (node : Node) (path : String) :
    Except String TypedValue :=
  match type, integerFormat type with
  | _, some (signed, bits) =>
    .integers type <$> parseElements node path (parseIntegerOf y signed bits)
  | .float32, none => .floatings type <$> parseElements node path (parseFloating y.single)
  | .float64, none => .floatings type <$> parseElements node path (parseFloating y.double)
  | _, none => fail path "array initial value is unsupported for this type"

def parseInitialValue (node : Option Node) (type : PrimitiveType) (shape : Shape)
    (path : String) : Except String TypedValue :=
  match node, shape with
  | none, _ => .ok .monostate
  | some node, .scalar => parseScalarInitial y type node path
  | some node, .array => parseArrayInitial y type node path

def parseSourceHealth (node : Node) (path : String) : Except String SourceHealthConfig := do
  rejectUnknownKeys node path ["required", "stale_after_ms"]
  let initial : SourceHealthConfig := {}
  let required ← readKey node path "required" initial.required fun child path =>
    child.read y.bool path
  let staleAfterMs ← readKey node path "stale_after_ms" (initial.staleAfterMs : Int)
    (parseInteger y false 32)
  check (staleAfterMs ≤ 86400000) (path ++ ".stale_after_ms") "must be 0..86400000"
  return { required, staleAfterMs := staleAfterMs.toNat }

def parseAlias (node : Node) (path : String) : Except String String := do
  let name ← parseString node path
  check (name ≠ "") path "must not be empty"
  return name

def parseAliases (node : Node) (path : String) : Except String (List String) := do
  let aliases ← requireSequence node path
  check (!aliases.isEmpty) path "must not be empty"
  parseElements node path parseAlias

/-- What a PV is made of. -/
structure ElementSection where
  type : PrimitiveType
  shape : Shape
  maxFrameBytes : Nat
  maxFrameGap : Nat

/-- An image has fixed elements and bounds of its own; the other PVs name their elements. -/
def parseElement (kind : PVKind) (node : Node) (path : String) :
    Except String ElementSection := do
  let initial : PVConfig := {}
  match kind with
  | .ntNDArray =>
    rejectUnknownKeys node path
      ["name", "aliases", "kind", "read", "max_frame_bytes", "max_frame_gap", "access",
        "source_health"]
    let bytes ← readKey node path "max_frame_bytes" (initial.maxFrameBytes : Int)
      (parseInteger y false 64)
    check (bytes ≠ 0 ∧ bytes ≤ 1024 * 1024 * 1024) (path ++ ".max_frame_bytes")
      "must be 1..1073741824"
    let gap ← readKey node path "max_frame_gap" (initial.maxFrameGap : Int)
      (parseInteger y false 32)
    check (gap ≤ 2147483646) (path ++ ".max_frame_gap") "must be 0..2147483646"
    return { type := .uint8, shape := .array, maxFrameBytes := bytes.toNat,
             maxFrameGap := gap.toNat }
  | .value =>
    check (node.child? "max_frame_bytes").isNone (path ++ ".max_frame_bytes")
      "requires kind: ntndarray"
    check (node.child? "max_frame_gap").isNone (path ++ ".max_frame_gap")
      "requires kind: ntndarray"
    let type ← parsePrimitiveType (← requireNode node "type" path) (path ++ ".type")
    let shape ← parseShape (← requireNode node "shape" path) (path ++ ".shape")
    return { type, shape, maxFrameBytes := initial.maxFrameBytes,
             maxFrameGap := initial.maxFrameGap }

/-- Some limit of the display or of the control is given. -/
def MetadataConfig.hasLimits (metadata : MetadataConfig) : Bool :=
  metadata.display.low.isSome || metadata.display.high.isSome || metadata.control.low.isSome ||
  metadata.control.high.isSome || metadata.minStep.isSome

/-- The checks across the sections of a PV. -/
def checkPV (pv : PVConfig) (path : String) : Except String Unit := do
  check (pv.shape != .array || isArrayElementTypeSupported pv.type) (path ++ ".type")
    "this array element type is unsupported"
  check (pv.transform.isNone || isFloatingPointType pv.type) (path ++ ".transform")
    "linear transforms are only supported for floating-point PVs"
  check (pv.shape != .array || !hasAlarmRules pv.alarms) (path ++ ".alarm")
    "array threshold alarms are unsupported"
  check (isNumericType pv.type || !pv.metadata.hasLimits) (path ++ ".metadata")
    "display/control numeric limits require a numeric type"
  check (isNumericType pv.type || !hasAlarmRules pv.alarms) (path ++ ".alarm")
    "threshold alarms require a numeric type"

def parsePV (node : Node) (path : String) : Except String PVConfig := do
  rejectUnknownKeys node path
    ["name", "aliases", "kind", "max_frame_bytes", "max_frame_gap", "type", "shape", "read",
      "write", "confirm", "metadata", "alarm", "transform", "initial", "access", "source_health"]
  let initial : PVConfig := {}
  let name ← parseString (← requireNode node "name" path) (path ++ ".name")
  check (name ≠ "") (path ++ ".name") "must not be empty"
  let aliases ← readKey node path "aliases" initial.aliases parseAliases
  let kind ← readKey node path "kind" initial.kind parseKind
  let element ← parseElement y kind node path
  let read ← parseRoute (← requireNode node "read" path) (path ++ ".read")
  let write ← readKey? node path "write" parseRoute
  let confirm ← readKey? node path "confirm" fun child path => do
    check write.isSome path "requires a write route"
    parseConfirm y child path
  let metadata ← parseMetadata y (node.child? "metadata") (path ++ ".metadata")
  let alarms ← parseAlarmConfig y (node.child? "alarm") (path ++ ".alarm")
  let transform ← parseTransform y (node.child? "transform") (path ++ ".transform")
  let initialValue ← parseInitialValue y (node.child? "initial") element.type element.shape
    (path ++ ".initial")
  let access ← readKey? node path "access" (parseAccessAssignment y)
  let sourceHealth ← readKey node path "source_health" initial.sourceHealth (parseSourceHealth y)
  let pv : PVConfig :=
    { name, aliases, kind, type := element.type, shape := element.shape, read, write, confirm,
      metadata, alarms, transform, initialValue, access,
      maxFrameBytes := element.maxFrameBytes, maxFrameGap := element.maxFrameGap, sourceHealth }
  checkPV pv path
  return pv

/-! ## What acceptance says about one PV -/

/-- The limits of an accepted PV are ordered, its transform has an inverse, and it asks of its
    elements only what they can do. -/
structure AcceptedPV (pv : PVConfig) : Prop where
  name : pv.name ≠ ""
  confirm : pv.confirm.isSome = true → pv.write.isSome = true
  display : pv.metadata.display.ordered = true
  control : pv.metadata.control.ordered = true
  minStep : ∀ step ∈ pv.metadata.minStep, 0 ≤ step
  hysteresis : 0 ≤ pv.alarms.hysteresis
  thresholds : pv.alarms.thresholds.reduceOption.Pairwise (· ≤ ·)
  transform : ∀ transform ∈ pv.transform,
    transform.scale ≠ 0 ∧ finiteInverse transform.scale = true
  transformed : pv.transform.isSome = true → isFloatingPointType pv.type = true
  arrayElements : pv.shape = .array → isArrayElementTypeSupported pv.type = true
  arrayAlarms : pv.shape = .array → hasAlarmRules pv.alarms = false
  plain : isNumericType pv.type = false →
    pv.metadata.hasLimits = false ∧ hasAlarmRules pv.alarms = false

variable {y} {node : Option Node} {path : String}

theorem parseLimitConfig_ordered {control : Bool} {limits : LimitConfig}
    (h : parseLimitConfig y node path control = .ok limits) : limits.ordered = true := by
  cases node with
  | none =>
    cases h
    rfl
  | some node =>
    simp only [parseLimitConfig, bind_eq_ok, check_ok_iff] at h
    obtain ⟨-, -, low, -, high, -, -, hordered, h⟩ := h
    cases h
    exact hordered

theorem parseMetadata_ok {metadata : MetadataConfig}
    (h : parseMetadata y node path = .ok metadata) :
    metadata.display.ordered = true ∧ metadata.control.ordered = true ∧
      ∀ step ∈ metadata.minStep, 0 ≤ step := by
  cases node with
  | none =>
    cases h
    exact ⟨rfl, rfl, by simp⟩
  | some node =>
    simp only [parseMetadata, bind_eq_ok, check_ok_iff] at h
    obtain ⟨-, -, _, -, _, -, _, -, _, -, display, hdisplay, control, hcontrol, minStep, -, -,
      hstep, h⟩ := h
    cases h
    refine ⟨parseLimitConfig_ordered hdisplay, parseLimitConfig_ordered hcontrol, ?_⟩
    intro step hmem
    cases hmem
    simpa using hstep

/-- The loop compares each threshold with the one given before it, which is enough. -/
theorem checkOrdered_ok_iff (previous : Option Rat) (thresholds : List (Option Rat)) :
    checkOrdered path previous thresholds = .ok () ↔
      (previous.toList ++ thresholds.reduceOption).IsChain (· ≤ ·) := by
  induction thresholds generalizing previous with
  | nil => cases previous <;> simp [checkOrdered, List.reduceOption]
  | cons threshold rest ih =>
    cases threshold with
    | none => simpa [checkOrdered, List.reduceOption_cons_of_none] using ih previous
    | some threshold =>
      cases previous with
      | none => simp [checkOrdered, bind_eq_ok, check_ok_iff, ih, List.reduceOption_cons_of_some]
      | some last =>
        simp [checkOrdered, bind_eq_ok, check_ok_iff, ih, List.reduceOption_cons_of_some]

theorem parseAlarmConfig_ok {alarms : AlarmConfig} (h : parseAlarmConfig y node path = .ok alarms) :
    0 ≤ alarms.hysteresis ∧ alarms.thresholds.reduceOption.Pairwise (· ≤ ·) := by
  cases node with
  | none =>
    cases h
    exact ⟨le_refl _, by simp [AlarmConfig.thresholds, List.reduceOption]⟩
  | some node =>
    simp only [parseAlarmConfig, bind_eq_ok, check_ok_iff] at h
    obtain ⟨-, -, _, -, _, -, _, -, _, -, hysteresis, -, -, hnonneg, _, hordered, h⟩ := h
    cases h
    have hchain := (checkOrdered_ok_iff none _).mp hordered
    exact ⟨by simpa using hnonneg, List.isChain_iff_pairwise.mp hchain⟩

theorem parseTransform_ok {transform : LinearTransformConfig}
    (h : parseTransform y node path = .ok (some transform)) :
    transform.scale ≠ 0 ∧ finiteInverse transform.scale = true := by
  cases node with
  | none => cases h
  | some node =>
    simp only [parseTransform, bind_eq_ok, check_ok_iff] at h
    obtain ⟨-, -, -, -, scale, -, offset, -, -, hscale, h⟩ := h
    cases h
    simpa using hscale

theorem checkPV_ok {pv : PVConfig} (h : checkPV pv path = .ok ()) :
    (pv.transform.isSome = true → isFloatingPointType pv.type = true) ∧
      (pv.shape = .array →
        isArrayElementTypeSupported pv.type = true ∧ hasAlarmRules pv.alarms = false) ∧
      (isNumericType pv.type = false →
        pv.metadata.hasLimits = false ∧ hasAlarmRules pv.alarms = false) := by
  simp only [checkPV, bind_eq_ok, check_ok_iff] at h
  obtain ⟨-, hsupported, -, htransform, -, harray, -, hlimits, halarms⟩ := h
  refine ⟨?_, ?_, ?_⟩
  · intro hsome
    cases hpv : pv.transform with
    | none => simp [hpv] at hsome
    | some transform => simpa [hpv] using htransform
  · intro hshape
    rw [hshape] at hsupported harray
    exact ⟨by simpa using hsupported, by simpa using harray⟩
  · intro hplain
    rw [hplain] at hlimits halarms
    exact ⟨by simpa using hlimits, by simpa using halarms⟩

/-- The route a confirmation is read from is only looked at beside a write route. -/
theorem readConfirm_ok {doc : Node} {write : Option RouteConfig} {confirm : Option ConfirmConfig}
    (h : (readKey? doc path "confirm" fun child path => do
      check write.isSome path "requires a write route"
      parseConfirm y child path) = .ok confirm) (hsome : confirm.isSome = true) :
    write.isSome = true := by
  unfold readKey? readKey at h
  split at h
  · cases h
    cases hsome
  · rename_i child _
    cases hwrite : write.isSome with
    | true => rfl
    | false =>
      rw [hwrite] at h
      cases h

/-- **Every accepted PV** has ordered limits and an invertible transform, and its sections fit
    its type and shape. -/
theorem parsePV_accepted {doc : Node} {pv : PVConfig} (h : parsePV y doc path = .ok pv) :
    AcceptedPV pv := by
  simp only [parsePV, bind_eq_ok, check_ok_iff] at h
  obtain ⟨-, -, _, -, name, -, -, hname, aliases, -, kind, -, element, -, _, -, read, -, write, -,
    confirm, hconfirm, metadata, hmetadata, alarms, halarms, transform, htransform, initialValue,
    -, access, -, sourceHealth, -, _, hcheck, h⟩ := h
  cases h
  obtain ⟨hdisplay, hcontrol, hstep⟩ := parseMetadata_ok hmetadata
  obtain ⟨hhysteresis, hthresholds⟩ := parseAlarmConfig_ok halarms
  obtain ⟨htransformed, harray, hplain⟩ := checkPV_ok hcheck
  exact {
    name := by simpa using hname
    confirm := readConfirm_ok hconfirm
    display := hdisplay
    control := hcontrol
    minStep := hstep
    hysteresis := hhysteresis
    thresholds := hthresholds
    transform := fun transform hmem => parseTransform_ok (htransform.trans (congrArg _ hmem))
    transformed := htransformed
    arrayElements := fun hshape => (harray hshape).1
    arrayAlarms := fun hshape => (harray hshape).2
    plain := hplain }

end

end RedisPvxsIoc.Config
