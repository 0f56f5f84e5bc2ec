import RedisPvxsIoc.Alarm.Publisher
import Mathlib.Algebra.Order.Ring.Rat
import Mathlib.Tactic.FieldSimp

/-!
# Values of a PV

Model of the value functions of `include/redis_pvxs_ioc/util.h` and `src/util.cpp`: the
linear transform between the raw value in Redis and the value that clients see, the
comparison used for write confirmations, and the numeric alarm.

A floating-point number is an exact rational or one of the three special values, so the
transform is exact.  The templates of the source are generic in the element type; here
`Element` collects what they ask of it, and `ValueType` is derived for a scalar and for an
array of elements.

## Main results

- `ValueType.forward_inverse`: the value a client has written is presented unchanged when
  the raw value comes back
-/

namespace RedisPvxsIoc.Runtime

open Config
open Alarm (AlarmState StoredState)

/-! ## Floating-point numbers -/

/-- A number of a floating-point type, without rounding. -/
inductive Floating where
  | finite (q : Rat)
  | posInf
  | negInf
  | nan
  deriving DecidableEq, Repr

namespace Floating

/-- `std::isfinite` -/
def isFinite : Floating → Bool
  | finite _ => true
  | _ => false

/-- Product with a finite factor. -/
def mul : Floating → Rat → Floating
  | finite x, q => finite (x * q)
  | posInf, q => if 0 < q then posInf else if q < 0 then negInf else nan
  | negInf, q => if 0 < q then negInf else if q < 0 then posInf else nan
  | nan, _ => nan

/-- Quotient by a finite divisor; a zero divisor is a positive zero. -/
def div : Floating → Rat → Floating
  | finite x, q =>
    if q ≠ 0 then finite (x / q)
    else if 0 < x then posInf else if x < 0 then negInf else nan
  | posInf, q => if q < 0 then negInf else posInf
  | negInf, q => if q < 0 then posInf else negInf
  | nan, _ => nan

/-- Sum with a finite summand. -/
def add : Floating → Rat → Floating
  | finite x, q => finite (x + q)
  | x, _ => x

def forward (transform : LinearTransformConfig) (raw : Floating) : Floating :=
  (raw.mul transform.scale).add transform.offset

def inverse (transform : LinearTransformConfig) (present : Floating) : Floating :=
  (present.add (-transform.offset)).div transform.scale

/-- `valuesEqual` with the machine epsilon of the type.  The tolerance grows with the larger
    magnitude, so an infinity is within its own infinite tolerance of every number but NaN
    and itself. -/
def valuesEqual (epsilon : Rat) : Floating → Floating → Bool
  | finite x, finite y => decide (|x - y| ≤ epsilon * max 1 (max |x| |y|) * 8)
  | nan, _ => false
  | _, nan => false
  | posInf, posInf => false
  | negInf, negInf => false
  | _, _ => true

theorem forward_inverse {transform : LinearTransformConfig} (hscale : transform.scale ≠ 0)
    (present : Floating) : forward transform (inverse transform present) = present := by
  -- the special values keep or swap their sign twice, according to the sign of the scale
  rcases lt_or_gt_of_ne hscale with hneg | hpos
  · have hnot : ¬0 < transform.scale := not_lt.mpr hneg.le
    cases present <;> simp [inverse, forward, mul, add, div, hneg, hnot, hscale]
  · have hnot : ¬transform.scale < 0 := not_lt.mpr hpos.le
    cases present <;> simp [inverse, forward, mul, add, div, hpos, hnot, hscale]

end Floating

/-! ## Element types -/

/-- What the runtime template asks of its element type `T`. -/
class Element (T : Type) where
  forward : LinearTransformConfig → T → T
  inverse : LinearTransformConfig → T → T
  valuesEqual : T → T → Bool
  /-- `static_cast<double>` for an arithmetic type other than `bool`. -/
  toDouble : T → Option Floating
  /-- The bytes charged for one element of a client's payload. -/
  bytes : T → Nat
  /-- Only a floating-point type is transformed, by an invertible map. -/
  forward_inverse : ∀ (transform : LinearTransformConfig), transform.scale ≠ 0 →
    ∀ present, forward transform (inverse transform present) = present

/-- An element type that is not floating: the transform does not apply to it. -/
@[reducible] def plainElement {T : Type} [DecidableEq T] (toDouble : T → Option Floating)
    (bytes : T → Nat) : Element T where
  forward _ raw := raw
  inverse _ present := present
  valuesEqual lhs rhs := lhs == rhs
  toDouble := toDouble
  bytes := bytes
  forward_inverse _ _ _ := rfl

@[reducible] def floatingElement (epsilon : Rat) (bytes : Nat) : Element Floating where
  forward := Floating.forward
  inverse := Floating.inverse
  valuesEqual := Floating.valuesEqual epsilon
  toDouble := some
  bytes _ := bytes
  forward_inverse _ hscale present := Floating.forward_inverse hscale present

/-- `float` -/
def Binary32 : Type := Floating

/-- `double` -/
def Binary64 : Type := Floating

instance : Element Binary32 := floatingElement (1 / 2 ^ 23) 4

instance : Element Binary64 := floatingElement (1 / 2 ^ 52) 8

instance : Element Bool := plainElement (fun _ => none) (fun _ => 1)

instance : Element String := plainElement (fun _ => none) String.utf8ByteSize

/-- A fixed-width integer of `bytes` bytes; the runtime never calculates with it. -/
@[reducible] def integerElement (bytes : Nat) : Element Int :=
  plainElement (fun value => some (.finite value)) (fun _ => bytes)

/-! ## Scalars and arrays -/

/-- `ValueType` of the runtime template with the functions that are overloaded on it.  The
    transform argument is `config.transform`. -/
class ValueType (V : Type) where
  forward : Option LinearTransformConfig → V → V
  inverse : Option LinearTransformConfig → V → V
  valuesEqual : V → V → Bool
  /-- The number that numeric alarm rules look at; `none` when they do not apply. -/
  alarmValue : V → Option Floating
  bytes : V → Nat
  forward_inverse : ∀ (transform : Option LinearTransformConfig),
    (∀ t, transform = some t → t.scale ≠ 0) →
    ∀ present, forward transform (inverse transform present) = present

instance scalarValue {T : Type} [Element T] : ValueType T where
  forward transform raw := match transform with
    | some t => Element.forward t raw
    | none => raw
  inverse transform present := match transform with
    | some t => Element.inverse t present
    | none => present
  valuesEqual := Element.valuesEqual
  alarmValue := Element.toDouble
  bytes := Element.bytes
  forward_inverse transform hscale present := by
    cases transform with
    | none => rfl
    | some t => exact Element.forward_inverse t (hscale t rfl) present

/-- The loop over two vectors of equal size. -/
def valuesEqualList {T : Type} [Element T] : List T → List T → Bool
  | [], [] => true
  | x :: xs, y :: ys => Element.valuesEqual x y && valuesEqualList xs ys
  | _, _ => false

instance arrayValue {T : Type} [Element T] : ValueType (List T) where
  forward transform raw := match transform with
    | some t => raw.map (Element.forward t)
    | none => raw
  inverse transform present := match transform with
    | some t => present.map (Element.inverse t)
    | none => present
  valuesEqual := valuesEqualList
  alarmValue _ := none
  bytes values := (values.map Element.bytes).sum
  forward_inverse transform hscale present := by
    cases transform with
    | none => rfl
    | some t =>
      show (present.map (Element.inverse t)).map (Element.forward t) = present
      have hid : Element.forward t ∘ Element.inverse t = (id : T → T) := by
        funext x
        exact Element.forward_inverse t (hscale t rfl) x
      rw [List.map_map, hid, List.map_id]

/-! ## Alarm evaluation -/

def epicsSevNone : Int := 0
def epicsSevMinor : Int := 1
def epicsSevMajor : Int := 2
def epicsSevInvalid : Int := 3

def epicsAlarmNone : Int := 0
def epicsAlarmHiHi : Int := 3
def epicsAlarmHigh : Int := 4
def epicsAlarmLoLo : Int := 5
def epicsAlarmLow : Int := 6
def epicsAlarmUDF : Int := 17

/-- An alarm with the bytes of a text as its message. -/
def alarmOf (severity status : Int) (text : String) : AlarmState :=
  { severity := severity, status := status, message := text.toUTF8.toList }

def noAlarm : AlarmState := { severity := epicsSevNone, status := epicsAlarmNone }

/-- The alarm of a source that cannot be trusted. -/
def invalidAlarm (text : String) : AlarmState := alarmOf epicsSevInvalid epicsAlarmUDF text

def hasAlarmRules (alarms : AlarmConfig) : Bool :=
  alarms.lowAlarm.isSome || alarms.lowWarning.isSome || alarms.highWarning.isSome ||
  alarms.highAlarm.isSome

/-- `threshold && holds(*threshold)` -/
def meets (threshold : Option Rat) (holds : Rat → Bool) : Bool := threshold.any holds

/-- The ladder of `evaluateNumericAlarm` for a finite value: current major conditions, major
    conditions kept by hysteresis, current warnings, warnings kept by hysteresis. -/
def evaluateRules (alarms : AlarmConfig) (value : Rat) (priorStatus : Int) : AlarmState :=
  let hyst := alarms.hysteresis
  if meets alarms.highAlarm fun t => t ≤ value then
    alarmOf epicsSevMajor epicsAlarmHiHi "High alarm"
  else if meets alarms.lowAlarm fun t => value ≤ t then
    alarmOf epicsSevMajor epicsAlarmLoLo "Low alarm"
  else if priorStatus == epicsAlarmHiHi && meets alarms.highAlarm fun t => t - hyst ≤ value then
    alarmOf epicsSevMajor epicsAlarmHiHi "High alarm"
  else if priorStatus == epicsAlarmLoLo && meets alarms.lowAlarm fun t => value ≤ t + hyst then
    alarmOf epicsSevMajor epicsAlarmLoLo "Low alarm"
  else if meets alarms.highWarning fun t => t ≤ value then
    alarmOf epicsSevMinor epicsAlarmHigh "High warning"
  else if meets alarms.lowWarning fun t => value ≤ t then
    alarmOf epicsSevMinor epicsAlarmLow "Low warning"
  else if priorStatus == epicsAlarmHigh &&
      meets alarms.highWarning fun t => t - hyst ≤ value then
    alarmOf epicsSevMinor epicsAlarmHigh "High warning"
  else if priorStatus == epicsAlarmLow && meets alarms.lowWarning fun t => value ≤ t + hyst then
    alarmOf epicsSevMinor epicsAlarmLow "Low warning"
  else noAlarm

def evaluateNumericAlarm (config : PVConfig) (value : Floating) (priorStatus : Int) :
    AlarmState :=
  match value with
  | .finite q =>
    if hasAlarmRules config.alarms then evaluateRules config.alarms q priorStatus else noAlarm
  | _ => invalidAlarm "Non-finite source value"

/-! ## The alarm registration of a runtime -/

/-- A registration at an alarm publisher. -/
structure Registration where
  publisher : Nat
  latest : StoredState
  active : Bool := false
  retired : Bool := false
  deriving DecidableEq, Repr

/-- The registrations that a runtime and its prepared updates refer to, and
    `alarmPublisher_`, `alarmRegistration_` of the runtime. -/
structure AlarmLink where
  registrations : List Registration := []
  alarmPublisher : Option Nat := none
  alarmRegistration : Option Nat := none
  deriving DecidableEq, Repr

namespace AlarmLink

def modifyCurrent (l : AlarmLink) (f : Registration → Registration) : AlarmLink :=
  match l.alarmRegistration with
  | some id => { l with registrations := l.registrations.modify id f }
  | none => l

/-- `registration->update(state)`, then `activate()` when the runtime is serving.  A retired
    registration does neither. -/
def publish (l : AlarmLink) (serving : Bool) (state : AlarmState) : AlarmLink :=
  l.modifyCurrent fun r =>
    if r.retired then r
    else { r with latest := (Alarm.encode state).1, active := r.active || serving }

def retire (l : AlarmLink) : AlarmLink :=
  l.modifyCurrent fun r => { r with active := false, retired := true }

def activate (l : AlarmLink) : AlarmLink :=
  l.modifyCurrent fun r => if r.retired then r else { r with active := true }

/-- The registration a prepared update will use: the current one when the publisher stays,
    otherwise a new one that is not active yet. -/
def prepare (l : AlarmLink) (publisher : Option Nat) (state : AlarmState) :
    AlarmLink × Option Nat :=
  match publisher with
  | some target =>
    if l.alarmPublisher = some target then (l, l.alarmRegistration)
    else
      ({ l with registrations := l.registrations ++
          [{ publisher := target, latest := (Alarm.encode state).1 }] },
        some l.registrations.length)
  | none => (l, l.alarmRegistration)

/-- The registration part of a commit. -/
def commit (l : AlarmLink) (publisher alarm : Option Nat) : AlarmLink :=
  if alarm ≠ l.alarmRegistration then
    { l.retire with alarmPublisher := publisher, alarmRegistration := alarm }
  else l

/-- The registration made while a runtime is constructed. -/
def start (publisher : Option Nat) (state : AlarmState) : AlarmLink :=
  match publisher with
  | some target =>
    { registrations := [{ publisher := target, latest := (Alarm.encode state).1 }]
      alarmPublisher := some target
      alarmRegistration := some 0 }
  | none => {}

end AlarmLink

end RedisPvxsIoc.Runtime
