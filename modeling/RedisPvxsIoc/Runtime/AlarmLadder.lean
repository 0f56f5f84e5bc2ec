import RedisPvxsIoc.Foundations.Hysteresis
import RedisPvxsIoc.Runtime.Value
import Mathlib.Algebra.Field.Rat

/-!
# The Numeric Alarm as a Ladder

`evaluateNumericAlarm` tests the thresholds of a PV in a fixed order.  Over any field with a
linear order these tests are a ladder with hysteresis: the alarms above the warnings, in each
tier the high threshold before the low one.

## Main results

- `evaluateNumericAlarm_eq`: the numeric alarm of a finite value is the ladder over the
  rational numbers
- `numericAlarm_hysteresis`: the laws of the hysteresis
-/

namespace RedisPvxsIoc.Runtime

open Config Foundations
open Alarm (AlarmState)

section Ladder

variable {K : Type} [Field K] [LinearOrder K]

/-- The thresholds of an alarm configuration over a field. -/
structure Thresholds (K : Type) where
  lowAlarm : Option K
  lowWarning : Option K
  highWarning : Option K
  highAlarm : Option K
  hysteresis : K

/-- A threshold that a value must not reach from below. -/
def highRule (status : Int) (threshold : Option K) (hyst : K) : Hysteresis.Rule K Int where
  status := status
  applies v := threshold.any fun t => t ≤ v
  keeps v := threshold.any fun t => t - hyst ≤ v

/-- A threshold that a value must not reach from above. -/
def lowRule (status : Int) (threshold : Option K) (hyst : K) : Hysteresis.Rule K Int where
  status := status
  applies v := threshold.any fun t => v ≤ t
  keeps v := threshold.any fun t => v ≤ t + hyst

namespace Thresholds

def alarmTier (t : Thresholds K) : List (Hysteresis.Rule K Int) :=
  [highRule epicsAlarmHiHi t.highAlarm t.hysteresis,
   lowRule epicsAlarmLoLo t.lowAlarm t.hysteresis]

def warningTier (t : Thresholds K) : List (Hysteresis.Rule K Int) :=
  [highRule epicsAlarmHigh t.highWarning t.hysteresis,
   lowRule epicsAlarmLow t.lowWarning t.hysteresis]

def tiers (t : Thresholds K) : List (List (Hysteresis.Rule K Int)) := [t.alarmTier, t.warningTier]

end Thresholds

/-- The text of an alarm, by its status. -/
def alarmText (status : Int) : String :=
  if status = epicsAlarmHiHi then "High alarm"
  else if status = epicsAlarmLoLo then "Low alarm"
  else if status = epicsAlarmHigh then "High warning"
  else "Low warning"

/-- The alarm of a report: the rank of the tier is the severity. -/
def reportedAlarm : Option (Nat × Int) → AlarmState
  | none => noAlarm
  | some (rank, status) => alarmOf rank status (alarmText status)

def Thresholds.evaluate (t : Thresholds K) (value : K) (priorStatus : Int) : AlarmState :=
  reportedAlarm (Hysteresis.evaluate t.tiers value priorStatus)

/-! ## The model is the ladder over the rational numbers -/

def thresholdsOf (alarms : AlarmConfig) : Thresholds Rat :=
  { lowAlarm := alarms.lowAlarm
    lowWarning := alarms.lowWarning
    highWarning := alarms.highWarning
    highAlarm := alarms.highAlarm
    hysteresis := alarms.hysteresis }

end Ladder

theorem evaluateRules_eq (alarms : AlarmConfig) (value : Rat) (priorStatus : Int) :
    evaluateRules alarms value priorStatus =
      (thresholdsOf alarms).evaluate value priorStatus := by
  have hstatus : ∀ status : Int, (priorStatus == status) = decide (status = priorStatus) := by
    intro status
    rw [Bool.beq_eq_decide_eq, decide_eq_decide]
    exact eq_comm
  simp only [Thresholds.evaluate, Thresholds.tiers, Thresholds.alarmTier, Thresholds.warningTier,
    Hysteresis.evaluate_pair, apply_ite reportedAlarm, evaluateRules, hstatus]
  rfl

/-- Without a threshold no rule applies. -/
theorem evaluateRules_without {alarms : AlarmConfig} (h : hasAlarmRules alarms = false)
    (value : Rat) (priorStatus : Int) : evaluateRules alarms value priorStatus = noAlarm := by
  simp only [hasAlarmRules, Bool.or_eq_false_iff, Option.isSome_eq_false_iff,
    Option.isNone_iff_eq_none] at h
  obtain ⟨⟨⟨hlow, hlowWarning⟩, hhighWarning⟩, hhigh⟩ := h
  simp [evaluateRules, meets, hlow, hlowWarning, hhighWarning, hhigh]

theorem evaluateNumericAlarm_eq (config : PVConfig) (value : Rat) (priorStatus : Int) :
    evaluateNumericAlarm config (.finite value) priorStatus =
      (thresholdsOf config.alarms).evaluate value priorStatus := by
  rw [← evaluateRules_eq]
  cases h : hasAlarmRules config.alarms with
  | true => simp [evaluateNumericAlarm, h]
  | false => simp [evaluateNumericAlarm, h, evaluateRules_without h]

/-! ## The laws of the hysteresis -/

section Laws

variable {K : Type} [Field K] [LinearOrder K] (t : Thresholds K) (v : K) (p : Int)

/-- What hysteresis may do to the alarm of a value `v` with the prior status `p`. -/
structure HysteresisLaws : Prop where
  /-- It never lowers the severity, -/
  raised : (t.evaluate v epicsAlarmNone).severity ≤ (t.evaluate v p).severity
  /-- raises it only by keeping the prior status, -/
  keepsPrior : (t.evaluate v epicsAlarmNone).severity < (t.evaluate v p).severity →
    (t.evaluate v p).status = p
  /-- and holds a severity as long as the value stays within the band of its threshold. -/
  holdsHiHi : p = epicsAlarmHiHi → ∀ x ∈ t.highAlarm, x - t.hysteresis ≤ v →
    epicsSevMajor ≤ (t.evaluate v p).severity
  holdsLoLo : p = epicsAlarmLoLo → ∀ x ∈ t.lowAlarm, v ≤ x + t.hysteresis →
    epicsSevMajor ≤ (t.evaluate v p).severity
  holdsHigh : p = epicsAlarmHigh → ∀ x ∈ t.highWarning, x - t.hysteresis ≤ v →
    epicsSevMinor ≤ (t.evaluate v p).severity
  holdsLow : p = epicsAlarmLow → ∀ x ∈ t.lowWarning, v ≤ x + t.hysteresis →
    epicsSevMinor ≤ (t.evaluate v p).severity
  /-- A band of width zero has no effect. -/
  withoutBand : t.hysteresis = 0 → t.evaluate v p = t.evaluate v epicsAlarmNone
  /-- An alarm is stable under its own status. -/
  stable : t.evaluate v (t.evaluate v p).status = t.evaluate v p

theorem reportedAlarm_severity (report : Option (Nat × Int)) :
    (reportedAlarm report).severity = Hysteresis.rank report := by
  cases report with
  | none => rfl
  | some report => rfl

theorem reportedAlarm_status (report : Option (Nat × Int)) :
    (reportedAlarm report).status = Hysteresis.statusOr epicsAlarmNone report := by
  cases report with
  | none => rfl
  | some report => rfl

theorem tiers_fresh : Hysteresis.Fresh t.tiers epicsAlarmNone := by
  simp [Hysteresis.Fresh, Thresholds.tiers, Thresholds.alarmTier, Thresholds.warningTier, highRule, lowRule, epicsAlarmNone, epicsAlarmHiHi,
    epicsAlarmLoLo, epicsAlarmHigh, epicsAlarmLow]

theorem tiers_distinct :
    t.tiers.Pairwise fun x y => ∀ r ∈ x, ∀ r' ∈ y, r.status ≠ r'.status := by
  simp [Thresholds.tiers, Thresholds.alarmTier, Thresholds.warningTier, highRule, lowRule,
    epicsAlarmHiHi, epicsAlarmLoLo, epicsAlarmHigh, epicsAlarmLow]

/-- A rule that keeps the value holds the severity of its tier. -/
theorem severity_of_keeps (upper : List (List (Hysteresis.Rule K Int)))
    {lower : List (List (Hysteresis.Rule K Int))} {tier : List (Hysteresis.Rule K Int)} (htiers : t.tiers = upper ++ tier :: lower)
    {r : Hysteresis.Rule K Int} (hr : r ∈ tier) (hkeeps : r.keeps v = true) :
    ((lower.length + 1 : Nat) : Int) ≤ (t.evaluate v r.status).severity := by
  rw [Thresholds.evaluate, reportedAlarm_severity, htiers]
  exact_mod_cast Hysteresis.le_rank_of_kept hr hkeeps

theorem keeps_highRule {status : Int} {threshold : Option K} {hyst x : K} (hx : x ∈ threshold)
    (hband : x - hyst ≤ v) : (highRule status threshold hyst).keeps v = true := by
  rw [Option.mem_def] at hx
  simpa [highRule, hx] using hband

theorem keeps_lowRule {status : Int} {threshold : Option K} {hyst x : K} (hx : x ∈ threshold)
    (hband : v ≤ x + hyst) : (lowRule status threshold hyst).keeps v = true := by
  rw [Option.mem_def] at hx
  simpa [lowRule, hx] using hband

/-- Without a band a rule keeps only what it applies to. -/
theorem applies_of_keeps (h : t.hysteresis = 0) :
    ∀ tier ∈ t.tiers, ∀ r ∈ tier, r.keeps v = true → r.applies v = true := by
  simp [Thresholds.tiers, Thresholds.alarmTier, Thresholds.warningTier, highRule, lowRule, h]

theorem hysteresisLaws : HysteresisLaws t v p where
  raised := by
    simp only [Thresholds.evaluate, reportedAlarm_severity]
    exact_mod_cast Hysteresis.rank_fresh_le (tiers_fresh t)
  keepsPrior := by
    simp only [Thresholds.evaluate, reportedAlarm_severity, reportedAlarm_status]
    intro hlt
    exact Hysteresis.status_of_rank_lt (tiers_fresh t) (by exact_mod_cast hlt)
  holdsHiHi := by
    rintro rfl x hx hband
    exact severity_of_keeps t v [] rfl List.mem_cons_self (keeps_highRule v hx hband)
  holdsLoLo := by
    rintro rfl x hx hband
    exact severity_of_keeps t v [] rfl (List.mem_cons_of_mem _ List.mem_cons_self)
      (keeps_lowRule v hx hband)
  holdsHigh := by
    rintro rfl x hx hband
    exact severity_of_keeps t v [t.alarmTier] rfl List.mem_cons_self
      (keeps_highRule v hx hband)
  holdsLow := by
    rintro rfl x hx hband
    exact severity_of_keeps t v [t.alarmTier] rfl
      (List.mem_cons_of_mem _ List.mem_cons_self) (keeps_lowRule v hx hband)
  withoutBand := by
    intro h
    rw [Thresholds.evaluate, Hysteresis.evaluate_eq_fresh (tiers_fresh t) (applies_of_keeps t v h)]
    rfl
  stable := by
    rw [Thresholds.evaluate, Thresholds.evaluate, reportedAlarm_status,
      Hysteresis.evaluate_idempotent (tiers_fresh t) (tiers_distinct t)]

end Laws

/-- **Hysteresis of the numeric alarm**: the alarm of a finite value is the ladder of its
    thresholds, and over every field with a linear order the ladder obeys the laws, whatever
    the thresholds, the value and the prior status are. -/
theorem numericAlarm_hysteresis :
    (∀ (config : PVConfig) (value : Rat) (priorStatus : Int),
      evaluateNumericAlarm config (.finite value) priorStatus =
        (thresholdsOf config.alarms).evaluate value priorStatus) ∧
    ∀ {K : Type} [Field K] [LinearOrder K] (t : Thresholds K) (v : K) (p : Int),
      HysteresisLaws t v p :=
  ⟨evaluateNumericAlarm_eq, hysteresisLaws⟩

end RedisPvxsIoc.Runtime
