import RedisPvxsIoc.Foundations.AtomicBudget
import RedisPvxsIoc.Alarm.Publisher
import RedisPvxsIoc.Config.Parse

/-!
# The Alarm Budget

The state of the alarm publisher is bounded by `alarm_state_bytes`: its ring and every
registration reserve their bytes before they are built (`Budget` and `Reservation` in
`src/alarm_worker.cpp`).  `parseConfig` makes the same calculation in advance, by consuming a
remainder in the order of the configuration.

All sizes are `size_t`, so the reductions modulo 2⁶⁴ are written out; `wordSize` is their
modulus.  A registration that is dropped gives its reservation back.

## Main results

- `foldlM_reserveAlarm`, `foldlM_prepare`: both calculations compare a sum with the limit
- `alarmBudget_agrees`: they agree, in whatever order the registrations are prepared, and the
  budget holds in every interleaving of the threads
-/

namespace RedisPvxsIoc.Alarm

open Foundations Config

def wordSize : Nat := 2 ^ 64

/-- `size_t` arithmetic. -/
def addSize (x y : Nat) : Nat := (x + y) % wordSize

def mulSize (x y : Nat) : Nat := x * y % wordSize

def subSize (x y : Nat) : Nat := (x + wordSize - y) % wordSize

/-! ## The publisher -/

/-- The options that `buildAlarmPublisher` sets. -/
def publisherOptions (limits : OperationLimitsConfig) : AlarmPublisherOptions :=
  { queueEntries := limits.alarmQueueEntries, stateBytes := limits.alarmStateBytes }

/-- The constructor of a `Reservation`. -/
def reserve (budget : AtomicBudget.State) (bytes : Nat) : Except String AtomicBudget.State :=
  (AtomicBudget.acquire wordSize budget bytes).elim
    (.error "alarm state budget exceeded during preparation") .ok

/-- The constructor of the publisher, with the reservation of the ring. -/
def construct (options : AlarmPublisherOptions) : Except String AtomicBudget.State :=
  if options.queueEntries = 0 ∨ options.ioTimeoutMs = 0 ∨ options.retryMs = 0 ∨
      options.heartbeatMs = 0 ∨ options.stateBytes / kAlarmQueueEntryBytes < options.queueEntries then
    .error "alarm queue must fit within a positive state budget"
  else reserve { limit := options.stateBytes } (mulSize options.queueEntries kAlarmQueueEntryBytes)

/-- The reservation of `AlarmPublisher::prepare`. -/
def prepare (budget : AtomicBudget.State) (name : String) : Except String AtomicBudget.State :=
  if (wordSize - 1 - 1024) / 2 < name.length then .error "alarm name too large"
  else reserve budget (addSize 1024 (mulSize 2 name.length))

/-- A publisher is constructed and prepares one registration after the other. -/
def prepareAll (options : AlarmPublisherOptions) (names : List String) :
    Except String AtomicBudget.State := do
  let budget ← construct options
  names.foldlM prepare budget

/-- The publisher in use: any number of threads in `prepare`, and registrations that are
    dropped. -/
def budgetMachine (options : AlarmPublisherOptions) :
    Machine AtomicBudget.State AtomicBudget.Label :=
  AtomicBudget.machine wordSize fun s => construct options = .ok s

/-! ## The loop of `parseConfig` -/

def reserveAlarms (limits : OperationLimitsConfig) (names : List String) : Except String Nat :=
  names.foldlM (fun alarmBytes name => reserveAlarm alarmBytes name.length)
    (limits.alarmStateBytes - limits.alarmQueueEntries * kAlarmQueueEntryBytes)

/-- One turn of the loop in `size_t` arithmetic. -/
def reserveAlarmWord (alarmBytes nameBytes : Nat) : Except String Nat :=
  if alarmBytes < 1024 ∨ subSize alarmBytes 1024 / 2 < nameBytes then
    fail "root.limits.alarm_state_bytes" "must cover the reserved alarm queue and current PV states"
  else .ok (subSize alarmBytes (addSize 1024 (mulSize 2 nameBytes)))

def reserveAlarmsWord (limits : OperationLimitsConfig) (names : List String) : Except String Nat :=
  names.foldlM (fun alarmBytes name => reserveAlarmWord alarmBytes name.length)
    (subSize limits.alarmStateBytes (mulSize limits.alarmQueueEntries kAlarmQueueEntryBytes))

/-! ## The remainder -/

/-- The bytes of a registration, as a natural number. -/
def slotBytes (name : String) : Nat := 1024 + 2 * name.length

theorem subSize_eq {x y : Nat} (hx : x < wordSize) (hle : y ≤ x) : subSize x y = x - y := by
  unfold subSize
  rw [show x + wordSize - y = x - y + wordSize by omega, Nat.add_mod_right,
    Nat.mod_eq_of_lt (by omega)]

/-- A registration that is not too large for the address space. -/
theorem slotSize_eq {nameBytes : Nat} (h : 1024 + 2 * nameBytes < wordSize) :
    addSize 1024 (mulSize 2 nameBytes) = 1024 + 2 * nameBytes := by
  unfold addSize mulSize
  rw [Nat.mod_eq_of_lt (a := 2 * nameBytes) (by omega), Nat.mod_eq_of_lt h]

theorem reserveAlarm_eq (alarmBytes : Nat) (name : String) :
    reserveAlarm alarmBytes name.length =
      if slotBytes name ≤ alarmBytes then .ok (alarmBytes - slotBytes name)
      else fail "root.limits.alarm_state_bytes"
        "must cover the reserved alarm queue and current PV states" := by
  unfold reserveAlarm slotBytes
  split_ifs <;> first | rfl | omega

theorem reserveAlarmWord_eq {alarmBytes : Nat} (h : alarmBytes < wordSize) (nameBytes : Nat) :
    reserveAlarmWord alarmBytes nameBytes = reserveAlarm alarmBytes nameBytes := by
  unfold reserveAlarmWord reserveAlarm
  by_cases hsmall : alarmBytes < 1024
  · rw [if_pos (.inl hsmall), if_pos (.inl hsmall)]
  · rw [subSize_eq h (by omega)]
    split_ifs with hfits
    · rfl
    · -- a name that fits leaves no room for an overflow
      rw [slotSize_eq (by omega), subSize_eq h (by omega)]

/-- The loop is exact in `size_t` arithmetic: what is left only gets smaller. -/
theorem foldlM_reserveAlarmWord (names : List String) {alarmBytes : Nat}
    (h : alarmBytes < wordSize) :
    names.foldlM (fun alarmBytes name => reserveAlarmWord alarmBytes name.length) alarmBytes =
      names.foldlM (fun alarmBytes name => reserveAlarm alarmBytes name.length) alarmBytes := by
  induction names generalizing alarmBytes with
  | nil => simp only [List.foldlM_nil]
  | cons name names ih =>
    simp only [List.foldlM_cons, reserveAlarmWord_eq h]
    refine bind_congr_ok fun left hleft => ih ?_
    rw [reserveAlarm_eq] at hleft
    split_ifs at hleft
    · have := Except.ok.inj hleft
      omega
    · cases hleft

/-- The loop compares the sum of all registrations with what it starts from. -/
theorem foldlM_reserveAlarm (names : List String) (alarmBytes : Nat) :
    (∃ left, names.foldlM (fun alarmBytes name => reserveAlarm alarmBytes name.length)
      alarmBytes = .ok left) ↔ (names.map slotBytes).sum ≤ alarmBytes := by
  induction names generalizing alarmBytes with
  | nil => exact iff_of_true ⟨alarmBytes, rfl⟩ (Nat.zero_le _)
  | cons name names ih =>
    rw [List.map_cons, List.sum_cons]
    simp only [List.foldlM_cons, reserveAlarm_eq alarmBytes name]
    split_ifs with hfirst
    · exact (ih _).trans (by omega)
    · refine iff_of_false ?_ (by omega)
      rintro ⟨left, hleft⟩
      cases hleft

/-! ## The reservations -/

section Reservations

variable {budget budget' : AtomicBudget.State}

theorem reserve_ok {bytes : Nat} : reserve budget bytes = .ok budget' ↔
    AtomicBudget.acquire wordSize budget bytes = some budget' := by
  unfold reserve
  cases AtomicBudget.acquire wordSize budget bytes <;> simp

theorem prepare_ok (h : AtomicBudget.Sound wordSize budget) {name : String} :
    prepare budget name = .ok budget' ↔
      budget.used + slotBytes name ≤ budget.limit ∧
        AtomicBudget.acquire wordSize budget (slotBytes name) = some budget' := by
  have hlimit := h.limit_lt
  have hword : wordSize = 18446744073709551616 := rfl
  unfold prepare
  split_ifs with hlarge
  · -- such a name does not fit into any limit
    refine iff_of_false (fun herror => by cases herror) fun hfits => ?_
    have := hfits.1
    unfold slotBytes at this
    omega
  · rw [slotSize_eq (by omega), reserve_ok]
    exact ⟨fun hs' => ⟨((AtomicBudget.acquire_ok h _).mp hs').1, hs'⟩, And.right⟩

/-- All registrations are prepared exactly if all of them fit into what is left. -/
theorem foldlM_prepare (names : List String) (h : AtomicBudget.Sound wordSize budget) :
    (∃ budget', names.foldlM prepare budget = .ok budget') ↔
      budget.used + (names.map slotBytes).sum ≤ budget.limit := by
  induction names generalizing budget with
  | nil => exact iff_of_true ⟨_, rfl⟩ h.used_le
  | cons name names ih =>
    simp only [List.foldlM_cons, bind_eq_ok, List.map_cons, List.sum_cons]
    constructor
    · rintro ⟨budget', mid, hmid, hrest⟩
      obtain ⟨-, hacquired⟩ := (prepare_ok h).mp hmid
      have hsum := (ih (h.acquire hacquired)).mp ⟨budget', hrest⟩
      obtain ⟨-, rfl⟩ := (AtomicBudget.acquire_ok h _).mp hacquired
      dsimp only at hsum
      omega
    · intro hsum
      have hacquired := (AtomicBudget.acquire_ok h (slotBytes name)).mpr ⟨by omega, rfl⟩
      obtain ⟨budget', hrest⟩ := (ih (h.acquire hacquired)).mpr (by dsimp only; omega)
      exact ⟨budget', _, (prepare_ok h).mpr ⟨by omega, hacquired⟩, hrest⟩

/-- Preparing one registration after the other is one of the runs. -/
theorem prepare_reachable {options : AlarmPublisherOptions} (names : List String)
    (h : (budgetMachine options).Reachable budget) (halone : budget.acquires = [])
    (hrun : names.foldlM prepare budget = .ok budget') :
    (budgetMachine options).Reachable budget' := by
  induction names generalizing budget with
  | nil =>
    cases hrun
    exact h
  | cons name names ih =>
    rw [List.foldlM_cons, bind_eq_ok] at hrun
    obtain ⟨mid, hmid, hrest⟩ := hrun
    unfold prepare at hmid
    split_ifs at hmid
    obtain ⟨hreach, halone'⟩ := AtomicBudget.acquire_reachable h halone (reserve_ok.mp hmid)
    exact ih hreach halone' hrest

end Reservations

/-! ## Accepted limits -/

theorem boundedLimit_ok {key : String} {value : Option Nat} {default low high out : Nat}
    (h : boundedLimit key value default low high = .ok out) : low ≤ out ∧ out ≤ high := by
  unfold boundedLimit at h
  dsimp only at h
  split_ifs at h with hrange
  · cases h
  · have := Except.ok.inj h
    omega

/-- What the section `limits` guarantees about the alarms. -/
structure AlarmLimits (limits : OperationLimitsConfig) : Prop where
  entries : 0 < limits.alarmQueueEntries
  bytes : limits.alarmStateBytes ≤ gibibyte
  ring : limits.alarmQueueEntries * kAlarmQueueEntryBytes ≤ limits.alarmStateBytes

theorem alarmLimits_of_accepted {node : Option LimitsSection} {limits : OperationLimitsConfig}
    (h : parseOperationLimits node = .ok limits) : AlarmLimits limits := by
  cases node with
  | none =>
    cases h
    exact ⟨by decide, by decide, by decide⟩
  | some node =>
    simp only [parseOperationLimits, bind_eq_ok, check_ok_iff, decide_eq_true_eq] at h
    obtain ⟨_, -, _, -, _, -, _, -, _, -, _, -, _, -, entries, hentries, bytes, hbytes, _, hring, _,
      -, h⟩ := h
    cases h
    exact ⟨(boundedLimit_ok hentries).1, (boundedLimit_ok hbytes).2,
      (Nat.le_div_iff_mul_le (by decide)).mp hring⟩

/-- With accepted limits the publisher can be built, and it holds its ring. -/
theorem construct_ok {limits : OperationLimitsConfig} (h : AlarmLimits limits) :
    construct (publisherOptions limits) = .ok
        { limit := limits.alarmStateBytes
          used := limits.alarmQueueEntries * kAlarmQueueEntryBytes
          peak := limits.alarmQueueEntries * kAlarmQueueEntryBytes
          live := [limits.alarmQueueEntries * kAlarmQueueEntryBytes] } ∧
      AtomicBudget.Sound wordSize
        { limit := limits.alarmStateBytes
          used := limits.alarmQueueEntries * kAlarmQueueEntryBytes
          peak := limits.alarmQueueEntries * kAlarmQueueEntryBytes
          live := [limits.alarmQueueEntries * kAlarmQueueEntryBytes] } := by
  obtain ⟨hentries, hbytes, hring⟩ := h
  have hword : gibibyte < wordSize := by decide
  have hsound : AtomicBudget.Sound wordSize { limit := limits.alarmStateBytes } :=
    ⟨by show limits.alarmStateBytes < wordSize; omega, rfl, Nat.zero_le _⟩
  have hacquired := (AtomicBudget.acquire_ok hsound
    (limits.alarmQueueEntries * kAlarmQueueEntryBytes)).mpr ⟨by dsimp only; omega, rfl⟩
  simp only [Nat.zero_add, Nat.zero_max, List.nil_append] at hacquired
  refine ⟨?_, hsound.acquire hacquired⟩
  have hguard : ¬(limits.alarmQueueEntries = 0 ∨ 500 = 0 ∨ 1000 = 0 ∨ 1000 = 0 ∨
      limits.alarmStateBytes / kAlarmQueueEntryBytes < limits.alarmQueueEntries) := by
    have := (Nat.le_div_iff_mul_le (show 0 < kAlarmQueueEntryBytes by decide)).mpr hring
    omega
  refine (if_neg hguard).trans (reserve_ok.mpr ?_)
  rw [← hacquired]
  exact congrArg _ (Nat.mod_eq_of_lt (by show limits.alarmQueueEntries * _ < wordSize; omega))

/-- **The two calculations agree.**  With accepted limits and for any names, the loop of
    `parseConfig` accepts exactly if a publisher with these limits can be built and prepares a
    registration for each name, in any order; the loop does not wrap.  Preparing them is a run
    of the machine, and in every run, whatever threads prepare and drop registrations, the budget is the sum of the reservations that are held, and
    within the limit. -/
theorem alarmBudget_agrees {node : Option LimitsSection} {limits : OperationLimitsConfig}
    (haccepted : parseOperationLimits node = .ok limits) :
    (∀ names order : List String, order.Perm names →
      ((∃ left, reserveAlarms limits names = .ok left) ↔
        ∃ budget, prepareAll (publisherOptions limits) order = .ok budget)) ∧
    (∀ names, reserveAlarmsWord limits names = reserveAlarms limits names) ∧
    (∀ names budget, prepareAll (publisherOptions limits) names = .ok budget →
      (budgetMachine (publisherOptions limits)).Reachable budget) ∧
    ∀ s, (budgetMachine (publisherOptions limits)).Reachable s →
      s.used = s.live.sum ∧ s.used ≤ limits.alarmStateBytes := by
  have h := alarmLimits_of_accepted haccepted
  obtain ⟨hconstruct, hsound⟩ := construct_ok h
  have hring := h.ring
  have hbytes : limits.alarmStateBytes < wordSize := hsound.limit_lt
  refine ⟨?_, ?_, ?_, ?_⟩
  · intro names order hperm
    have hsum := (hperm.map slotBytes).sum_eq
    unfold reserveAlarms prepareAll
    rw [foldlM_reserveAlarm, hconstruct]
    refine Iff.trans ?_ (foldlM_prepare order hsound).symm
    dsimp only
    omega
  · intro names
    have hmul : mulSize limits.alarmQueueEntries kAlarmQueueEntryBytes =
        limits.alarmQueueEntries * kAlarmQueueEntryBytes := Nat.mod_eq_of_lt (by omega)
    unfold reserveAlarmsWord reserveAlarms
    rw [hmul, subSize_eq hbytes hring]
    exact foldlM_reserveAlarmWord names (by omega)
  · intro names budget hall
    unfold prepareAll at hall
    rw [hconstruct] at hall
    exact prepare_reachable names (Machine.Reachable.of_start hconstruct) rfl hall
  · intro s hs
    have hstart : ∀ u, construct (publisherOptions limits) = .ok u →
        u.limit = limits.alarmStateBytes ∧ AtomicBudget.Sound wordSize u := by
      intro u hu
      cases hconstruct.symm.trans hu
      exact ⟨rfl, hsound⟩
    have hs' := AtomicBudget.sound_reachable (fun u hu => (hstart u hu).2) hs
    refine ⟨hs'.used_eq, hs'.used_le.trans (le_of_eq ?_)⟩
    exact AtomicBudget.limit_reachable (fun u hu => (hstart u hu).1) hs

/-- The default limits, with two names in both orders. -/
theorem alarmBudget_agrees_default :
    parseOperationLimits none = .ok {} ∧
    ((∃ left, reserveAlarms {} ["a:temperature", "b"] = .ok left) ↔
      ∃ budget, prepareAll (publisherOptions {}) ["b", "a:temperature"] = .ok budget) :=
  ⟨rfl, (alarmBudget_agrees (show parseOperationLimits none = .ok {} from rfl)).1 _ _ (.swap _ _ _)⟩

end RedisPvxsIoc.Alarm
