import RedisPvxsIoc.Config.PV

/-!
# Numbers of a Configuration in the Type of the PV

The configuration keeps its numbers as `double`.  Model of the places where they are converted
to the element type of a PV: the limits that `applyStandardMetadata` and `applyAlarmFields`
store in the served value (`src/util.cpp`), and the scale by which the transforms multiply and
divide (`include/redis_pvxs_ioc/util.h`).

A conversion of a floating-point number to an integer type is undefined when the truncated
number is not a value of the type; it is `none` here.  A conversion to `float` rounds.

## Main results

- `limits_convert_iff`: which accepted PVs are converted without undefined behaviour
- `scale_invertible_iff`: which accepted scales can be divided by in the element type
- `display_limit_undefined`, `scale_vanishes`: accepted PVs that are not, and a scale that
  cannot
-/

namespace RedisPvxsIoc.Runtime

open Foundations Config
open Alarm (AlarmState)

/-! ## Conversions -/

/-- Toward zero. -/
def truncate (q : Rat) : Int := if 0 ≤ q then ⌊q⌋ else ⌈q⌉

/-- The least and the greatest value of an integer type. -/
def integerRange : Bool × Nat → Int × Int
  | (true, bits) => (-2 ^ (bits - 1), 2 ^ (bits - 1) - 1)
  | (false, bits) => (0, 2 ^ bits - 1)

/-- `static_cast` of a `double` to an integer type. -/
def castInteger (range : Int × Int) : Floating → Option Int
  | .finite q =>
    if range.1 ≤ truncate q ∧ truncate q ≤ range.2 then some (truncate q) else none
  | _ => none

/-- `static_cast` of a `double` to a narrower floating-point type. -/
def castFloating (format : BinaryFormat) : Floating → Floating
  | .finite q =>
    (format.round q).elim (if q < 0 then .negInf else .posInf) .finite
  | x => x

/-! ## Limits in the served value -/

/-- What an assignment leaves in a numeric field. -/
inductive NumericField where
  | unchanged
  | integer (value : Int)
  | floating (value : Floating)
  deriving DecidableEq

def assignTypedNumeric (type : PrimitiveType) (input : Option Rat) (initial : Floating) :
    Option NumericField :=
  let scalar := input.elim initial .finite
  match type, integerFormat type with
  | _, some format => (castInteger (integerRange format) scalar).map .integer
  | .float32, none => some (.floating (castFloating binary32 scalar))
  | .float64, none => some (.floating scalar)
  | _, none => some .unchanged

def displayFormIndex : DisplayForm → Int
  | .default => 0
  | .string => 1
  | .binary => 2
  | .decimal => 3
  | .hex => 4
  | .exponential => 5
  | .engineering => 6

def standardDisplayFormChoices : List String :=
  ["Default", "String", "Binary", "Decimal", "Hex", "Exponential", "Engineering"]

/-- The fields `display` and `control` of a numeric value. -/
structure StandardMetadata where
  description : String
  units : String
  displayLow : NumericField
  displayHigh : NumericField
  precision : Int
  formIndex : Int
  formChoices : List String
  controlLow : NumericField
  controlHigh : NumericField
  minStep : NumericField
  deriving DecidableEq

/-- `applyStandardMetadata` on the value of a numeric PV, which has all of the fields. -/
def applyStandardMetadata (pv : PVConfig) : Option StandardMetadata := do
  let metadata := pv.metadata
  let displayLow ← assignTypedNumeric pv.type metadata.display.low (.finite 0)
  let displayHigh ← assignTypedNumeric pv.type metadata.display.high (.finite 0)
  let controlLow ← assignTypedNumeric pv.type metadata.control.low (.finite 0)
  let controlHigh ← assignTypedNumeric pv.type metadata.control.high (.finite 0)
  let minStep ← assignTypedNumeric pv.type metadata.minStep (.finite 0)
  return {
    description := metadata.description, units := metadata.units, displayLow, displayHigh
    precision := metadata.precision.getD 0
    formIndex := displayFormIndex (metadata.form.getD .default)
    formChoices := standardDisplayFormChoices, controlLow, controlHigh, minStep }

/-- The fields `alarm` and `valueAlarm` of a numeric value. -/
structure AlarmFields where
  alarm : AlarmState
  active : Bool
  lowAlarmLimit : NumericField
  lowWarningLimit : NumericField
  highWarningLimit : NumericField
  highAlarmLimit : NumericField
  lowAlarmSeverity : Int
  lowWarningSeverity : Int
  highWarningSeverity : Int
  highAlarmSeverity : Int
  hysteresis : Rat
  deriving DecidableEq

/-- `applyAlarmFields` on the value of a numeric PV. -/
def applyAlarmFields (pv : PVConfig) (alarm : AlarmState) : Option AlarmFields := do
  let alarms := pv.alarms
  let floatingDefault : Floating := if isFloatingPointType pv.type then .nan else .finite 0
  let lowAlarmLimit ← assignTypedNumeric pv.type alarms.lowAlarm floatingDefault
  let lowWarningLimit ← assignTypedNumeric pv.type alarms.lowWarning floatingDefault
  let highWarningLimit ← assignTypedNumeric pv.type alarms.highWarning floatingDefault
  let highAlarmLimit ← assignTypedNumeric pv.type alarms.highAlarm floatingDefault
  return {
    alarm, active := hasAlarmRules alarms, lowAlarmLimit, lowWarningLimit, highWarningLimit
    highAlarmLimit
    lowAlarmSeverity := if alarms.lowAlarm.isSome then epicsSevMajor else epicsSevNone
    lowWarningSeverity := if alarms.lowWarning.isSome then epicsSevMinor else epicsSevNone
    highWarningSeverity := if alarms.highWarning.isSome then epicsSevMinor else epicsSevNone
    highAlarmSeverity := if alarms.highAlarm.isSome then epicsSevMajor else epicsSevNone
    hysteresis := alarms.hysteresis }

/-- The number is less than one away from the range of the type. -/
def Converts (range : Int × Int) (q : Rat) : Prop := (range.1 : Rat) - 1 < q ∧ q < range.2 + 1

/-- Truncation loses less than one, toward zero. -/
theorem truncate_mem_iff {range : Int × Int} (hlow : range.1 ≤ 0) (hhigh : 0 ≤ range.2) (q : Rat) :
    (range.1 ≤ truncate q ∧ truncate q ≤ range.2) ↔ Converts range q := by
  have hlow' : (range.1 : Rat) ≤ 0 := by exact_mod_cast hlow
  have hhigh' : (0 : Rat) ≤ range.2 := by exact_mod_cast hhigh
  unfold truncate Converts
  split_ifs with hq
  · have hfloor : ⌊q⌋ ≤ range.2 ↔ q < range.2 + 1 := by
      rw [← Int.lt_add_one_iff, Int.floor_lt]
      push_cast
      rfl
    have hnonneg : 0 ≤ ⌊q⌋ := Int.floor_nonneg.mpr hq
    rw [hfloor]
    constructor
    · rintro ⟨-, h⟩
      exact ⟨by linarith, h⟩
    · rintro ⟨-, h⟩
      exact ⟨by omega, h⟩
  · push Not at hq
    have hceil : range.1 ≤ ⌈q⌉ ↔ (range.1 : Rat) - 1 < q := by
      rw [← Int.sub_one_lt_iff, Int.lt_ceil]
      push_cast
      rfl
    have hnonpos : ⌈q⌉ ≤ 0 := Int.ceil_le.mpr (by exact_mod_cast hq.le)
    rw [hceil]
    constructor
    · rintro ⟨h, -⟩
      exact ⟨h, by linarith⟩
    · rintro ⟨h, -⟩
      exact ⟨h, by omega⟩

theorem zero_mem_integerRange (format : Bool × Nat) :
    (integerRange format).1 ≤ 0 ∧ 0 ≤ (integerRange format).2 := by
  obtain ⟨signed, bits⟩ := format
  have hpow : ∀ n : Nat, (1 : Int) ≤ 2 ^ n := fun n => one_le_pow₀ (by norm_num)
  cases signed with
  | true =>
    have := hpow (bits - 1)
    exact ⟨by simp only [integerRange]; omega, by simp only [integerRange]; omega⟩
  | false =>
    have := hpow bits
    exact ⟨le_refl _, by simp only [integerRange]; omega⟩

variable {format : Bool × Nat}

/-- An assignment to an integer field is defined when the limit, if there is one, converts. -/
theorem assignTypedNumeric_isSome_iff {type : PrimitiveType}
    (htype : integerFormat type = some format) (input : Option Rat) :
    (assignTypedNumeric type input (.finite 0)).isSome = true ↔
      ∀ q ∈ input, Converts (integerRange format) q := by
  obtain ⟨hlow, hhigh⟩ := zero_mem_integerRange format
  have hcast : ∀ q, (castInteger (integerRange format) (.finite q)).isSome = true ↔
      Converts (integerRange format) q := by
    intro q
    rw [← truncate_mem_iff hlow hhigh]
    simp only [castInteger]
    split_ifs with h <;> simp [h]
  have hassign : assignTypedNumeric type input (.finite 0) =
      (castInteger (integerRange format) (input.elim (.finite 0) .finite)).map .integer := by
    simp only [assignTypedNumeric, htype]
  rw [hassign, Option.isSome_map]
  cases input with
  | none =>
    have hzero : Converts (integerRange format) 0 := by
      rw [← truncate_mem_iff hlow hhigh]
      exact ⟨hlow, hhigh⟩
    simpa using (hcast 0).mpr hzero
  | some q => simpa using hcast q

/-- A sequence of assignments is defined when each of them is. -/
theorem isSome_bind_iff {α β : Type} {x : Option α} {f : α → Option β} {p : Prop}
    (h : ∀ a, (f a).isSome = true ↔ p) : (x >>= f).isSome = true ↔ x.isSome = true ∧ p := by
  cases x with
  | none => simp
  | some a => simpa using h a

variable {pv : PVConfig}

theorem applyStandardMetadata_isSome_iff (htype : integerFormat pv.type = some format) :
    (applyStandardMetadata pv).isSome = true ↔
      (∀ q ∈ pv.metadata.display.low, Converts (integerRange format) q) ∧
      (∀ q ∈ pv.metadata.display.high, Converts (integerRange format) q) ∧
      (∀ q ∈ pv.metadata.control.low, Converts (integerRange format) q) ∧
      (∀ q ∈ pv.metadata.control.high, Converts (integerRange format) q) ∧
      ∀ q ∈ pv.metadata.minStep, Converts (integerRange format) q := by
  simp only [← assignTypedNumeric_isSome_iff htype]
  unfold applyStandardMetadata
  apply isSome_bind_iff
  intro _
  apply isSome_bind_iff
  intro _
  apply isSome_bind_iff
  intro _
  apply isSome_bind_iff
  intro _
  exact (isSome_bind_iff fun _ => iff_of_true rfl trivial).trans (iff_of_eq (and_true _))

theorem applyAlarmFields_isSome_iff (htype : integerFormat pv.type = some format)
    (alarm : AlarmState) :
    (applyAlarmFields pv alarm).isSome = true ↔
      (∀ q ∈ pv.alarms.lowAlarm, Converts (integerRange format) q) ∧
      (∀ q ∈ pv.alarms.lowWarning, Converts (integerRange format) q) ∧
      (∀ q ∈ pv.alarms.highWarning, Converts (integerRange format) q) ∧
      ∀ q ∈ pv.alarms.highAlarm, Converts (integerRange format) q := by
  have hdefault : isFloatingPointType pv.type = false := by
    generalize pv.type = type at htype
    cases type <;> first | rfl | cases htype
  simp only [← assignTypedNumeric_isSome_iff htype, applyAlarmFields, hdefault]
  apply isSome_bind_iff
  intro _
  apply isSome_bind_iff
  intro _
  apply isSome_bind_iff
  intro _
  exact (isSome_bind_iff fun _ => iff_of_true rfl trivial).trans (iff_of_eq (and_true _))

/-- The limits of a PV that are given, but for the step. -/
def limits (pv : PVConfig) : List Rat :=
  [pv.metadata.display.low, pv.metadata.display.high, pv.metadata.control.low,
    pv.metadata.control.high, pv.alarms.lowAlarm, pv.alarms.lowWarning, pv.alarms.highWarning,
    pv.alarms.highAlarm].reduceOption

theorem forall_mem_limits {P : Rat → Prop} :
    (∀ q ∈ limits pv, P q) ↔
      (∀ q ∈ pv.metadata.display.low, P q) ∧ (∀ q ∈ pv.metadata.display.high, P q) ∧
      (∀ q ∈ pv.metadata.control.low, P q) ∧ (∀ q ∈ pv.metadata.control.high, P q) ∧
      (∀ q ∈ pv.alarms.lowAlarm, P q) ∧ (∀ q ∈ pv.alarms.lowWarning, P q) ∧
      (∀ q ∈ pv.alarms.highWarning, P q) ∧ ∀ q ∈ pv.alarms.highAlarm, P q := by
  simp only [limits, List.reduceOption_mem_iff, List.mem_cons, List.not_mem_nil, or_false,
    or_imp, forall_and, Option.mem_def, eq_comm]

/-- **Which limits are converted.**  The numbers of an accepted PV of an integer type are
    converted without undefined behaviour exactly when each of its limits is less than one
    away from the range of the type; the step, which is not negative, only from above. -/
theorem limits_convert_iff {y : Conversions} {node : Node} {path : String} {pv : PVConfig}
    {format : Bool × Nat} (hparse : parsePV y node path = .ok pv)
    (htype : integerFormat pv.type = some format) (alarm : AlarmState) :
    ((applyStandardMetadata pv).isSome = true ∧ (applyAlarmFields pv alarm).isSome = true) ↔
      (∀ q ∈ limits pv, Converts (integerRange format) q) ∧
        ∀ step ∈ pv.metadata.minStep, step < (integerRange format).2 + 1 := by
  -- a step below zero is not accepted, so its lower bound is no condition
  have hstep : (∀ step ∈ pv.metadata.minStep, Converts (integerRange format) step) ↔
      ∀ step ∈ pv.metadata.minStep, step < ((integerRange format).2 : Rat) + 1 := by
    have hlow : ((integerRange format).1 : Rat) ≤ 0 := by
      exact_mod_cast (zero_mem_integerRange format).1
    constructor
    · intro h step hmem
      exact (h step hmem).2
    · intro h step hmem
      have hnonneg := (parsePV_accepted hparse).minStep step hmem
      exact ⟨by linarith, h step hmem⟩
  rw [applyStandardMetadata_isSome_iff htype, applyAlarmFields_isSome_iff htype,
    forall_mem_limits, hstep]
  tauto

/-- A library that reads the numbers of a table. -/
def tableConversions (table : List (String × Rat)) : Conversions where
  bool _ := none
  integer _ _ _ := none
  single _ := none
  double text := (table.lookup text).map .finite

/-- A scalar PV with the given sections. -/
def scalarPV (type : String) (sections : List (String × Node)) : Node :=
  .map ([("name", .scalar "temperature"), ("type", .scalar type), ("shape", .scalar "scalar"),
    ("read", .map [("key", .scalar "temperature:read")])] ++ sections)

def displayHigh (text : String) : List (String × Node) :=
  [("metadata", .map [("display", .map [("high", .scalar text)])])]

/-- **An accepted limit with an undefined conversion**: an upper display limit of a thousand
    million on a PV of one signed byte, and a negative alarm threshold on an unsigned one. -/
theorem display_limit_undefined :
    ((parsePV (tableConversions [("1e9", 1000000000)]) (scalarPV "int8" (displayHigh "1e9"))
        "root.pvs[0]").toOption.map fun pv => (pv.type, applyStandardMetadata pv)) =
      some (.int8, none) ∧
    ((parsePV (tableConversions [("-5", -5)])
        (scalarPV "uint16" [("alarm", .map [("low_alarm", .scalar "-5")])])
        "root.pvs[0]").toOption.map fun pv => (pv.type, applyAlarmFields pv noAlarm)) =
      some (.uint16, none) := by
  constructor
  · decide +kernel
  · decide +kernel

/-- An upper display limit within the type is stored. -/
theorem limits_convert_hundred :
    ∃ pv, parsePV (tableConversions [("100", 100)]) (scalarPV "int8" (displayHigh "100"))
        "root.pvs[0]" = .ok pv ∧
      (applyStandardMetadata pv).isSome = true ∧ (applyAlarmFields pv noAlarm).isSome = true := by
  have hrun : (parsePV (tableConversions [("100", 100)]) (scalarPV "int8" (displayHigh "100"))
      "root.pvs[0]").toOption.map
        (fun pv => (pv.type, limits pv, pv.metadata.minStep)) = some (.int8, [100], none) := by
    decide +kernel
  obtain ⟨pv, hparse, hpv⟩ := Option.map_eq_some_iff.mp hrun
  have hok : parsePV (tableConversions [("100", 100)]) (scalarPV "int8" (displayHigh "100"))
      "root.pvs[0]" = .ok pv := by
    revert hparse
    cases parsePV (tableConversions [("100", 100)]) (scalarPV "int8" (displayHigh "100"))
        "root.pvs[0]" with
    | error e => simp [Except.toOption]
    | ok pv' => simp [Except.toOption]
  simp only [Prod.mk.injEq] at hpv
  obtain ⟨htype, hlimits, hstep⟩ := hpv
  have hformat : integerFormat pv.type = some (true, 8) := by rw [htype]; rfl
  refine ⟨pv, hok, (limits_convert_iff hok hformat noAlarm).mpr ⟨?_, ?_⟩⟩
  · rw [hlimits]
    simp only [List.mem_singleton, forall_eq, Converts, integerRange]
    norm_num
  · rw [hstep]
    simp

/-! ## The scale of a transform -/

/-- `static_cast<T>(config.transform->scale)`, the factor of `applyForwardTransform` and the
    divisor of `applyInverseTransform`. -/
def elementScale (type : PrimitiveType) (transform : LinearTransformConfig) : Floating :=
  match type with
  | .float32 => castFloating binary32 (.finite transform.scale)
  | _ => .finite transform.scale

/-- A number that can be divided by. -/
def Invertible (x : Floating) : Prop := x.isFinite = true ∧ x ≠ .finite 0

theorem castFloating_invertible_iff (format : BinaryFormat) (q : Rat) :
    Invertible (castFloating format (.finite q)) ↔
      (2 : Rat) ^ (format.minExponent - 1) < |q| ∧ |q| < format.overflowLimit := by
  rw [← format.round_isSome_iff, ← not_le, ← format.round_eq_zero_iff, Invertible]
  cases hround : format.round q with
  | none =>
    simp only [castFloating, hround, Option.elim_none]
    split_ifs <;> simp [Floating.isFinite]
  | some r => simp [castFloating, hround, Floating.isFinite]

/-- **Which scales can be divided by** in the element type of the PV: every accepted one for
    `double`, and for `float` those that do not vanish or overflow when they are rounded. -/
theorem scale_invertible_iff {y : Conversions} {node : Option Node} {path : String}
    {transform : LinearTransformConfig} {pv : PVConfig}
    (hparse : parseTransform y node path = .ok (some transform))
    (htype : isFloatingPointType pv.type = true) :
    Invertible (elementScale pv.type transform) ↔
      pv.type = .float64 ∨
        ((2 : Rat) ^ (-150 : Int) < |transform.scale| ∧
          |transform.scale| < 2 ^ (128 : Int) - 2 ^ (103 : Int)) := by
  obtain ⟨hscale, -⟩ := parseTransform_ok hparse
  have hcases : pv.type = .float32 ∨ pv.type = .float64 := by
    simpa [isFloatingPointType] using htype
  rcases hcases with h32 | h64
  · rw [h32, elementScale, castFloating_invertible_iff]
    simp only [reduceCtorEq, false_or]
    exact Iff.rfl
  · simp [h64, elementScale, Invertible, Floating.isFinite, hscale]

def scaleSection (text : String) : Option Node := some (.map [("scale", .scalar text)])

/-- **Accepted scales that cannot be divided by**: `2 ^ (-200)` has a finite inverse as a
    `double` and is zero as a `float`, and `2 ^ 200` is infinite as a `float`. -/
theorem scale_vanishes :
    (parseTransform (tableConversions [("6.223015277861142e-61", 1 / 2 ^ 200)])
        (scaleSection "6.223015277861142e-61") "root.pvs[0].transform").toOption.map
      (Option.map (elementScale .float32)) = some (some (.finite 0)) ∧
    (parseTransform (tableConversions [("1.6069380442589903e+60", 2 ^ 200)])
        (scaleSection "1.6069380442589903e+60") "root.pvs[0].transform").toOption.map
      (Option.map (elementScale .float32)) = some (some .posInf) := by
  constructor
  · decide +kernel
  · decide +kernel

/-- A scale of two on a PV of single precision. -/
theorem scale_invertible_two :
    parseTransform (tableConversions [("2.0", 2)]) (scaleSection "2.0") "root.pvs[0].transform" =
        .ok (some { scale := 2 }) ∧
      Invertible (elementScale .float32 { scale := 2 }) := by
  have hparse : parseTransform (tableConversions [("2.0", 2)]) (scaleSection "2.0")
      "root.pvs[0].transform" = .ok (some { scale := 2 }) := by
    decide +kernel
  have htype : isFloatingPointType ({ type := .float32 } : PVConfig).type = true := rfl
  refine ⟨hparse, (scale_invertible_iff hparse htype).mpr (.inr ⟨?_, ?_⟩)⟩
  · norm_num
  · norm_num

end RedisPvxsIoc.Runtime
