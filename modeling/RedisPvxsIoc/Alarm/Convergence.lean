import RedisPvxsIoc.Alarm.Publisher

/-!
# Convergence: a Ready Publisher Has a Current Sink

A slot that is current and not pending is *settled*: the last event on the stream for its
name carries its latest state.  What makes this an invariant is the bookkeeping around
the one request that may be on its way: whoever is current for its name still owes a
delivery until the answer has been booked (`FlightOk`), and the ring holds only revisions
that are newer than what has been delivered.

The invariant holds for runs in which the activated registrations of a name are retired
in the order of their identifiers (`retiresInOrder`).

## Main results

- `Impl.current_iff`: what it means to be the current slot of a name
- `tracked_exec`: the invariant at the end of every such run
- `ready_sink_current`: a ready publisher has a current sink
-/

namespace RedisPvxsIoc.Alarm

open Foundations

/-! ## The current slot of a name -/

/-- Searching a sorted list from its end finds the greatest element with the property. -/
theorem find?_reverse_eq_some_iff {p : Nat → Bool} {l : List Nat} (h : l.Pairwise (· < ·)) {x : Nat} :
    l.reverse.find? p = some x ↔ x ∈ l ∧ p x = true ∧ ∀ y ∈ l, p y = true → y ≤ x := by
  induction l with
  | nil => simp
  | cons a l ih =>
    obtain ⟨hhead, htail⟩ := List.pairwise_cons.mp h
    rw [List.reverse_cons, List.find?_append, Option.or_eq_some_iff, ih htail,
      List.find?_eq_none, List.find?_singleton]
    simp only [List.mem_reverse, List.mem_cons]
    grind

/-- `slots` and `names` list the same registrations, and every serving slot is listed. -/
structure Registered (s : Impl) : Prop where
  sorted : ∀ name ids, s.names.find? name = some ids → ids.Pairwise (· < ·)
  named : ∀ name ids, s.names.find? name = some ids → ∀ id ∈ ids,
    (s.heap id).name = name ∧ id ∈ s.slots
  listed : ∀ id ∈ s.slots, ∃ ids, s.names.find? (s.heap id).name = some ids ∧ id ∈ ids
  nodup : s.slots.Nodup
  bound : ∀ id ∈ s.slots, id ≤ s.nextId
  serving : ∀ id, s.serving id = true → id ∈ s.slots

variable {s : Impl}

/-- **Who is current**: the serving slot with the greatest identifier of its name. -/
theorem Impl.current_iff (h : Registered s) (id : SlotId) : s.current id = true ↔
    s.serving id = true ∧ ∀ id', s.serving id' = true → (s.heap id').name = (s.heap id).name →
      id' ≤ id := by
  unfold Impl.current
  cases hserving : s.serving id with
  | false => simp
  | true =>
    obtain ⟨ids, hfind, hid⟩ := h.listed id (h.serving id hserving)
    have hsorted := h.sorted _ ids hfind
    have hmem : ∀ id', s.serving id' = true → (s.heap id').name = (s.heap id).name → id' ∈ ids := by
      intro id' hs' hname
      obtain ⟨ids', hfind', hid'⟩ := h.listed id' (h.serving id' hs')
      rw [hname, hfind] at hfind'
      cases hfind'
      exact hid'
    simp only [hfind, Bool.not_true, Bool.false_eq_true, if_false, true_and]
    refine Iff.trans (b := ids.reverse.find? s.serving = some id) ?_
      ((find?_reverse_eq_some_iff hsorted).trans ?_)
    · cases ids.reverse.find? s.serving <;> simp
    constructor
    · rintro ⟨-, -, hmax⟩ id' hs' hname
      exact hmax id' (hmem id' hs' hname) hs'
    · intro hmax
      exact ⟨hid, hserving, fun y hy hpy => hmax y hpy (h.named _ ids hfind y hy).1⟩

variable {id' : SlotId}

variable {id : SlotId}

/-- A name has at most one current slot. -/
theorem Registered.current_unique (h : Registered s) (hid : s.current id = true)
    (hid' : s.current id' = true) (hname : (s.heap id).name = (s.heap id').name) : id = id' := by
  obtain ⟨hs, hmax⟩ := (Impl.current_iff h id).mp hid
  obtain ⟨hs', hmax'⟩ := (Impl.current_iff h id').mp hid'
  exact le_antisymm (hmax' id hs hname) (hmax id' hs' hname.symm)

theorem Registered.current_bound (h : Registered s) (hid : s.current id = true) : id ≤ s.nextId :=
  h.bound id (h.serving id ((Impl.current_iff h id).mp hid).1)

/-! ## `Registered` along the steps -/

variable {s' : Impl}

/-- `Registered` reads names, flags, the two indexes and the identifier counter only. -/
theorem Registered.congr (h : Registered s) (hnames : s'.names = s.names)
    (hslots : s'.slots = s.slots) (hnext : s'.nextId = s.nextId)
    (hname : ∀ id, (s'.heap id).name = (s.heap id).name)
    (hserving : ∀ id, s'.serving id = true → s.serving id = true ∨ id ∈ s.slots) :
    Registered s' := by
  refine ⟨?_, ?_, ?_, ?_, ?_, ?_⟩
  · rw [hnames]
    exact h.sorted
  · simp only [hnames, hname, hslots]
    exact h.named
  · simp only [hnames, hname, hslots]
    exact h.listed
  · rw [hslots]
    exact h.nodup
  · rw [hslots, hnext]
    exact h.bound
  · intro id hid
    rw [hslots]
    rcases hserving id hid with hs | hmem
    · exact h.serving id hs
    · exact hmem

theorem Registered.setSlot (h : Registered s) {slot : Slot} (hname : slot.name = (s.heap id).name)
    (hid : id ∈ s.slots) :
    Registered (s.setSlot id slot) := by
  refine h.congr rfl rfl rfl ?_ ?_
  · intro id'
    by_cases heq : id' = id <;> simp [Impl.setSlot, heq, hname]
  · intro id' hs'
    by_cases heq : id' = id
    · exact .inr (heq ▸ hid)
    · exact .inl (by simpa [Impl.serving, Impl.setSlot, heq] using hs')

theorem Registered.prepare (h : Registered s) (name : String) (state : AlarmState) :
    Registered (s.prepare name state) := by
  unfold Impl.prepare
  split
  · exact h
  · set id := s.nextId + 1
    obtain ⟨hsorted, hnamed, hlisted, hnodup, hbound, hserving⟩ := h
    have hfind := s.names.find?_insert name
    -- the identifiers that are already listed for the name
    have hids : ∀ id' ∈ (s.names.find? name).getD [], (s.heap id').name = name ∧ id' ∈ s.slots := by
      intro id' hid'
      cases hold : s.names.find? name with
      | none => simp [hold] at hid'
      | some ids => exact hnamed name ids hold id' (by simpa [hold] using hid')
    have hpairs : ((s.names.find? name).getD []).Pairwise (· < ·) := by
      cases hold : s.names.find? name with
      | none => simp
      | some ids => exact hsorted name ids hold
    dsimp only
    constructor
    · intro name' ids hids'
      dsimp only at hids'
      rw [hfind] at hids'
      split at hids'
      · cases hids'
        refine List.pairwise_append.mpr ⟨hpairs, by simp, ?_⟩
        grind
      · exact hsorted name' ids hids'
    · intro name' ids hids' id' hid'
      dsimp only at hids' ⊢
      rw [hfind] at hids'
      grind
    · intro id' hid'
      dsimp only at hid' ⊢
      rw [hfind]
      grind
    · grind
    · grind
    · simp only [Impl.serving] at *
      grind

theorem Registered.remove (h : Registered s) (hid : id ∈ s.slots) :
    Registered (s.remove id) := by
  obtain ⟨ids, hids, hmem⟩ := h.listed id hid
  obtain ⟨hsorted, hnamed, hlisted, hnodup, hbound, hserving⟩ := h
  have hnodup' : ids.Nodup := (hsorted _ ids hids).imp fun hlt => Nat.ne_of_lt hlt
  have hname : ∀ id', ((s.remove id).heap id').name = (s.heap id').name := by
    intro id'
    by_cases heq : id' = id <;> simp [Impl.remove, Impl.retire, Impl.setSlot, heq]
  have hserving' : ∀ id', (s.remove id).serving id' = true → id' ≠ id ∧ s.serving id' = true := by
    intro id'
    by_cases heq : id' = id <;>
      simp [Impl.serving, Impl.remove, Impl.retire, Impl.setSlot, heq]
  -- the names after the removal, looked up
  have hfind : ∀ name, (s.remove id).names.find? name =
      if name = (s.heap id).name then (if (ids.erase id).isEmpty then none else some (ids.erase id))
      else s.names.find? name := by
    intro name
    have hfound : (s.retire id).names.find? (s.heap id).name = some ids := hids
    simp only [Impl.remove, hfound]
    by_cases hempty : (ids.erase id).isEmpty = true
    · simp only [hempty, if_true]
      exact FinMap.find?_erase _ _ _
    · simp only [hempty]
      exact FinMap.find?_insert _ _ _ _
  have hmemErase : ∀ id', id' ∈ ids.erase id ↔ id' ≠ id ∧ id' ∈ ids := fun _ => hnodup'.mem_erase_iff
  have hslots : ∀ id', id' ∈ (s.remove id).slots ↔ id' ≠ id ∧ id' ∈ s.slots :=
    fun _ => hnodup.mem_erase_iff
  constructor
  · intro name ids' hids'
    rw [hfind] at hids'
    have hsub := (hsorted _ ids hids).sublist (List.erase_sublist (a := id))
    grind
  · intro name ids' hids' id' hid'
    rw [hfind] at hids'
    rw [hname, hslots]
    grind
  · intro id' hid'
    rw [hname, hfind]
    grind
  · exact hnodup.erase id
  · intro id' hid'
    exact hbound id' ((hslots id').mp hid').2
  · intro id' hs'
    grind

/-! ## The invariant -/

/-- The state carried by the last event on the stream for a name. -/
def lastFor (sink : List SinkEvent) (name : String) : Option StoredState :=
  ((sink.filter fun e => e.name = name).getLast?).map SinkEvent.state

theorem lastFor_append (sink : List SinkEvent) (e : SinkEvent) (name : String) :
    lastFor (sink ++ [e]) name = if e.name = name then some e.state else lastFor sink name := by
  unfold lastFor
  by_cases h : e.name = name <;> simp [h]

/-- An event in the ring or on its way: its revision is known to its slot, and the newest
    revision carries the latest state. -/
structure EventOk (s : Impl) (e : Event) : Prop where
  known : e.slot ≤ s.nextId
  revision : e.revision ≤ (s.heap e.slot).revision
  state : e.revision = (s.heap e.slot).revision → e.state = (s.heap e.slot).latest

/-- What holds while event `e` is on its way. -/
structure FlightOk (s : Impl) (flight : Flight) (e : Event) : Prop where
  event : EventOk s e
  fresh : (s.heap e.slot).delivered ≤ e.revision
  epoch : flight.epoch ≤ s.epoch
  ahead : ∀ e' ∈ s.ring.toList, e'.slot = e.slot → e.revision < e'.revision
  /-- The slot of the event owes a delivery until the answer is booked. -/
  owed : (s.heap e.slot).force = true ∨ (s.heap e.slot).deliveredEpoch < s.epoch ∨
    (s.heap e.slot).delivered < e.revision
  /-- Whoever has replaced the slot meanwhile has delivered nothing yet. -/
  others : ∀ id, s.current id = true → (s.heap id).name = (s.heap e.slot).name → id ≠ e.slot →
    (s.heap id).force = true
  landed : flight.appended = true → lastFor s.sink (s.heap e.slot).name = some e.state

/-- **The delivery invariant.** -/
structure Tracked (s : Impl) : Prop where
  registered : Registered s
  delivered : ∀ id, (s.heap id).delivered ≤ (s.heap id).revision
  epoch : ∀ id, (s.heap id).deliveredEpoch ≤ s.epoch
  queued : ∀ e ∈ s.ring.toList, EventOk s e ∧ (s.heap e.slot).delivered < e.revision
  order : s.ring.toList.Pairwise fun e e' => e.slot = e'.slot → e.revision < e'.revision
  flight : ∀ flight e, s.worker = .sending flight → flight.selected = some e → FlightOk s flight e
  settled : ∀ id, s.current id = true → s.pending id = false →
    lastFor s.sink (s.heap id).name = some (s.heap id).latest

theorem tracked_start (h : machine.start s) : Tracked s := by
  obtain ⟨options, hvalid, now, rfl⟩ := h
  have hreg : Registered (Impl.init options hvalid now) := by
    constructor <;> simp [Impl.init, Impl.serving, default]
  refine ⟨hreg, ?_, ?_, ?_, ?_, ?_, ?_⟩
  · intro id
    simp [Impl.init, default]
  · intro id
    simp [Impl.init, default]
  · simp [Impl.init]
  · simp [Impl.init]
  · simp [Impl.init]
  · intro id hid
    have := ((Impl.current_iff hreg id).mp hid).1
    simp [Impl.init, Impl.serving, default] at this

/-- The slot keeps its name, its books and its latest state, and `force` is not taken
    back. -/
structure SameBooks (slot slot' : Slot) : Prop where
  name : slot'.name = slot.name
  revision : slot'.revision = slot.revision
  delivered : slot'.delivered = slot.delivered
  deliveredEpoch : slot'.deliveredEpoch = slot.deliveredEpoch
  latest : slot'.latest = slot.latest
  force : slot.force = true → slot'.force = true

theorem SameBooks.refl (slot : Slot) : SameBooks slot slot :=
  ⟨rfl, rfl, rfl, rfl, rfl, id⟩

theorem pending_eq_false_iff (s : Impl) (id : SlotId) : s.pending id = false ↔
    (s.heap id).force = false ∧ (s.heap id).deliveredEpoch = s.epoch ∧
      (s.heap id).revision ≤ (s.heap id).delivered := by
  simp [Impl.pending, and_assoc]

/-- Steps of the registrations that only move flags: the books stay, and a slot that
    becomes current by the step has `force` set. -/
theorem Tracked.of_flags (hs : Tracked s) (hreg : Registered s')
    (hsame : ∀ id, id ≤ s.nextId → SameBooks (s.heap id) (s'.heap id))
    (hdelivered : ∀ id, (s'.heap id).delivered ≤ (s'.heap id).revision)
    (hepochs : ∀ id, (s'.heap id).deliveredEpoch ≤ s'.epoch) (hnext : s.nextId ≤ s'.nextId)
    (hring : s'.ring = s.ring) (hsink : s'.sink = s.sink) (hworker : s'.worker = s.worker)
    (hepoch : s'.epoch = s.epoch)
    (hcurrent : ∀ id, s'.current id = true → s.current id = true ∨ (s'.heap id).force = true) :
    Tracked s' := by
  have hevent : ∀ e, EventOk s e → EventOk s' e := by
    rintro e ⟨hknown, hrevision, hstate⟩
    have hbooks := hsame e.slot hknown
    exact ⟨hknown.trans hnext, by rwa [hbooks.revision], by rwa [hbooks.revision, hbooks.latest]⟩
  refine ⟨hreg, hdelivered, hepochs, ?_, hring ▸ hs.order, ?_, ?_⟩
  · intro e he
    rw [hring] at he
    obtain ⟨hok, hlt⟩ := hs.queued e he
    rw [(hsame e.slot hok.known).delivered]
    exact ⟨hevent e hok, hlt⟩
  · intro flight e hw he
    rw [hworker] at hw
    have hf := hs.flight flight e hw he
    have hbooks := hsame e.slot hf.event.known
    refine ⟨hevent e hf.event, hbooks.delivered ▸ hf.fresh, hepoch ▸ hf.epoch, hring ▸ hf.ahead,
      ?_, ?_, ?_⟩
    · rw [hbooks.deliveredEpoch, hbooks.delivered, hepoch]
      exact hf.owed.imp_left hbooks.force
    · intro id hid hname hne
      rcases hcurrent id hid with hold | hforce
      · have hidBooks := hsame id (hs.registered.current_bound hold)
        rw [hidBooks.name, hbooks.name] at hname
        exact hidBooks.force (hf.others id hold hname hne)
      · exact hforce
    · rw [hsink, hbooks.name]
      exact hf.landed
  · intro id hid hpending
    obtain ⟨hforce, hep, hrev⟩ := (pending_eq_false_iff s' id).mp hpending
    rcases hcurrent id hid with hold | hforced
    · obtain ⟨hname, hrevision, hdel, hdelEpoch, hlatest, hforced⟩ :=
        hsame id (hs.registered.current_bound hold)
      rw [hsink, hname, hlatest]
      refine hs.settled id hold ((pending_eq_false_iff s id).mpr ?_)
      grind
    · rw [hforced] at hforce
      cases hforce

/-! ## Registrations -/

/-- **The order of retirement**: a serving registration is retired or removed only when no
    older one of the same name is serving. -/
def retiresInOrder (s : Impl) : Label → Prop
  | .retire id | .remove id => s.serving id = true →
      ∀ id', id' < id → s.serving id' = true → (s.heap id').name ≠ (s.heap id).name
  | _ => True

instance (s : Impl) (a : Label) : Decidable (retiresInOrder s a) := by
  cases a <;> unfold retiresInOrder <;> infer_instance

/-- Steps that leave heap, indexes, ring, stream, worker and epoch alone. -/
theorem Tracked.of_same (hs : Tracked s) (hheap : s'.heap = s.heap) (hnames : s'.names = s.names)
    (hslots : s'.slots = s.slots) (hnext : s'.nextId = s.nextId) (hring : s'.ring = s.ring)
    (hsink : s'.sink = s.sink) (hworker : s'.worker = s.worker) (hepoch : s'.epoch = s.epoch) :
    Tracked s' := by
  have hserving : ∀ id, s'.serving id = s.serving id := by
    intro id
    simp [Impl.serving, hheap]
  have hreg : Registered s' :=
    hs.registered.congr hnames hslots hnext (fun id => by rw [hheap])
      (fun id h => .inl ((hserving id).symm.trans h))
  refine hs.of_flags hreg ?_ ?_ ?_ hnext.ge hring hsink hworker hepoch ?_
  · intro id _
    rw [hheap]
    exact SameBooks.refl _
  · rw [hheap]
    exact hs.delivered
  · rw [hheap, hepoch]
    exact hs.epoch
  · intro id hid
    left
    rw [Impl.current_iff hreg] at hid
    rw [Impl.current_iff hs.registered]
    simpa only [hserving, hheap] using hid

theorem setSlot_heap (s : Impl) (id : SlotId) (slot : Slot) (id' : SlotId) :
    (s.setSlot id slot).heap id' = if id' = id then slot else s.heap id' :=
  Function.update_apply ..

theorem setSlot_serving (s : Impl) (id : SlotId) (slot : Slot) (id' : SlotId) :
    (s.setSlot id slot).serving id' =
      if id' = id then slot.active && !slot.retired else s.serving id' := by
  unfold Impl.serving
  rw [setSlot_heap]
  split <;> rfl

/-- Replacing a slot by one with the same books. -/
theorem Tracked.setSlot (hs : Tracked s) {slot : Slot} (hid : id ∈ s.slots)
    (hbooks : SameBooks (s.heap id) slot)
    (hcurrent : ∀ id', (s.setSlot id slot).current id' = true → s.current id' = true ∨
      ((s.setSlot id slot).heap id').force = true) : Tracked (s.setSlot id slot) := by
  have hsame : ∀ id', SameBooks (s.heap id') ((s.setSlot id slot).heap id') := by
    intro id'
    rw [setSlot_heap]
    split
    · exact ‹id' = id› ▸ hbooks
    · exact SameBooks.refl _
  refine hs.of_flags (hs.registered.setSlot hbooks.name hid) (fun id' _ => hsame id') ?_ ?_
    (le_refl _) rfl rfl rfl rfl hcurrent
  · intro id'
    rw [(hsame id').delivered, (hsame id').revision]
    exact hs.delivered id'
  · intro id'
    rw [(hsame id').deliveredEpoch]
    exact hs.epoch id'

theorem tracked_activate (hs : Tracked s) (hid : id ∈ s.slots) :
    Tracked (s.activate id) := by
  unfold Impl.activate
  dsimp only
  split
  · rename_i hidle
    have hbooks : SameBooks (s.heap id) { s.heap id with active := true, force := true } :=
      ⟨rfl, rfl, rfl, rfl, rfl, fun _ => rfl⟩
    have hreg := hs.registered.setSlot hbooks.name hid
    refine hs.setSlot hid hbooks fun id' hcur => ?_
    rw [Impl.current_iff hreg] at hcur
    rw [Impl.current_iff hs.registered]
    -- more slots serve than before, so the greatest one was the greatest already
    have hinactive : s.serving id = false := by simp_all [Impl.serving]
    simp only [setSlot_serving, setSlot_heap] at *
    grind
  · exact hs

/-- After an orderly retirement nobody becomes current who was not. -/
theorem current_of_retired (hreg : Registered s) (hreg' : Registered s')
    (hname : ∀ id', (s'.heap id').name = (s.heap id').name)
    (hserving : ∀ id', s'.serving id' = if id' = id then false else s.serving id')
    (horder : s.serving id = true → ∀ id', id' < id → s.serving id' = true →
      (s.heap id').name ≠ (s.heap id).name) (hcur : s'.current id' = true) :
    s.current id' = true := by
  rw [Impl.current_iff hreg'] at hcur
  rw [Impl.current_iff hreg]
  simp only [hname, hserving] at hcur
  grind

theorem retire_books (s : Impl) (id id' : SlotId) :
    SameBooks (s.heap id') ((s.retire id).heap id') := by
  unfold Impl.retire
  rw [setSlot_heap]
  split
  · rename_i heq
    rw [heq]
    exact ⟨rfl, rfl, rfl, rfl, rfl, fun h => h⟩
  · exact SameBooks.refl _

theorem retire_serving (s : Impl) (id id' : SlotId) :
    (s.retire id).serving id' = if id' = id then false else s.serving id' := by
  unfold Impl.retire
  rw [setSlot_serving]
  rfl

theorem tracked_retire (hs : Tracked s) (hid : id ∈ s.slots)
    (horder : retiresInOrder s (.retire id)) : Tracked (s.retire id) := by
  have hreg : Registered (s.retire id) := hs.registered.setSlot rfl hid
  refine hs.setSlot hid ⟨rfl, rfl, rfl, rfl, rfl, fun h => h⟩ ?_
  intro id' hcur
  left
  exact current_of_retired hs.registered hreg (fun j => (retire_books s id j).name)
    (retire_serving s id) horder hcur

theorem tracked_remove (hs : Tracked s) (hid : id ∈ s.slots)
    (horder : retiresInOrder s (.remove id)) : Tracked (s.remove id) := by
  have hreg := hs.registered.remove hid
  refine hs.of_flags hreg (fun id' _ => retire_books s id id') ?_ ?_ (le_refl _) rfl rfl rfl rfl ?_
  · intro id'
    have hbooks := retire_books s id id'
    show ((s.retire id).heap id').delivered ≤ ((s.retire id).heap id').revision
    rw [hbooks.delivered, hbooks.revision]
    exact hs.delivered id'
  · intro id'
    show ((s.retire id).heap id').deliveredEpoch ≤ s.epoch
    rw [(retire_books s id id').deliveredEpoch]
    exact hs.epoch id'
  · intro id' hcur
    left
    exact current_of_retired hs.registered hreg (fun j => (retire_books s id j).name)
      (retire_serving s id) horder hcur

theorem tracked_prepare (hs : Tracked s) (name : String) (state : AlarmState) :
    Tracked (s.prepare name state) := by
  have hreg := hs.registered.prepare name state
  by_cases hstop : s.stopping = true
  · simpa [Impl.prepare, hstop] using hs
  · have hheap : ∀ id, (s.prepare name state).heap id = if id = s.nextId + 1 then
        { name := name, latest := (encode state).1 } else s.heap id := by
      simp [Impl.prepare, hstop, Function.update_apply]
    have hnextId : (s.prepare name state).nextId = s.nextId + 1 := by simp [Impl.prepare, hstop]
    have hepoch : (s.prepare name state).epoch = s.epoch := by simp [Impl.prepare, hstop]
    have hold : ∀ id, id ≤ s.nextId → (s.prepare name state).heap id = s.heap id :=
      fun id hid => (hheap id).trans (if_neg (Nat.ne_of_lt (Nat.lt_succ_of_le hid)))
    have hdelivered := hs.delivered
    have hepochs := hs.epoch
    refine hs.of_flags hreg ?_ (by grind) (by grind) (hnextId ▸ Nat.le_succ _)
      (by simp [Impl.prepare, hstop]) (by simp [Impl.prepare, hstop])
      (by simp [Impl.prepare, hstop]) hepoch ?_
    · intro id hid
      rw [hold id hid]
      exact SameBooks.refl _
    · -- the new slot does not serve
      intro id hcur
      left
      rw [Impl.current_iff hreg] at hcur
      rw [Impl.current_iff hs.registered]
      have hserving : ∀ j, s.serving j = true → (s.prepare name state).heap j = s.heap j :=
        fun j hj => hold j (hs.registered.bound j (hs.registered.serving j hj))
      unfold Impl.serving at *
      grind

/-! ## `update` -/

/-- The ring is emptied and a new epoch begins: everything is owed again. -/
theorem Tracked.restart (hs : Tracked s) (hheap : s'.heap = s.heap) (hnames : s'.names = s.names)
    (hslots : s'.slots = s.slots) (hnext : s'.nextId = s.nextId) (hring : s'.ring.toList = [])
    (hsink : s'.sink = s.sink)
    (hworker : ∀ flight, s'.worker = .sending flight → s.worker = .sending flight)
    (hepoch : s'.epoch = s.epoch + 1) : Tracked s' := by
  have hserving : ∀ id, s'.serving id = s.serving id := by simp [Impl.serving, hheap]
  have hreg : Registered s' :=
    hs.registered.congr hnames hslots hnext (fun id => by rw [hheap])
      (fun id h => .inl ((hserving id).symm.trans h))
  have hold : ∀ id, (s.heap id).deliveredEpoch < s'.epoch :=
    fun id => hepoch ▸ Nat.lt_succ_of_le (hs.epoch id)
  have hcurrent : ∀ id, s'.current id = s.current id := by
    intro id
    unfold Impl.current Impl.serving
    rw [hheap, hnames]
  refine ⟨hreg, hheap ▸ hs.delivered, fun id => hheap ▸ (hold id).le, by simp [hring],
    by simp [hring], ?_, ?_⟩
  · intro flight e hw he
    obtain ⟨⟨hknown, hrevision, hstate⟩, hfresh, hep, -, -, hothers, hlanded⟩ :=
      hs.flight flight e (hworker flight hw) he
    refine ⟨⟨hnext ▸ hknown, hheap ▸ hrevision, hheap ▸ hstate⟩, hheap ▸ hfresh,
      hep.trans (hepoch ▸ Nat.le_succ _), by simp [hring], .inr (.inl (hheap ▸ hold e.slot)), ?_,
      hsink ▸ hheap ▸ hlanded⟩
    simp only [hheap, hcurrent]
    exact hothers
  · intro id _ hpending
    obtain ⟨-, hep, -⟩ := (pending_eq_false_iff s' id).mp hpending
    exact absurd hep (Nat.ne_of_lt (hheap ▸ hold id))

/-- A new state of a slot, before it is recorded. -/
def Impl.bump (s : Impl) (id : SlotId) (latest : StoredState) : Impl :=
  s.setSlot id { s.heap id with latest := latest, revision := (s.heap id).revision + 1 }

variable {e : Event}

section Bump

variable {s : Impl} {id : SlotId} {latest : StoredState}

theorem bump_serving (id' : SlotId) : (s.bump id latest).serving id' = s.serving id' := by
  unfold Impl.bump
  rw [setSlot_serving]
  split
  · rename_i heq
    rw [heq]
    rfl
  · rfl

theorem bump_heap_ne (h : id' ≠ id) : (s.bump id latest).heap id' = s.heap id' := by
  unfold Impl.bump
  rw [setSlot_heap, if_neg h]

theorem bump_heap_self : (s.bump id latest).heap id =
    { s.heap id with latest := latest, revision := (s.heap id).revision + 1 } := by
  unfold Impl.bump
  rw [setSlot_heap, if_pos rfl]

/-- Only `latest` and `revision` of the one slot move. -/
theorem bump_frame (s : Impl) (id : SlotId) (latest : StoredState) (id' : SlotId) :
    ((s.bump id latest).heap id').name = (s.heap id').name ∧
    ((s.bump id latest).heap id').delivered = (s.heap id').delivered ∧
    ((s.bump id latest).heap id').deliveredEpoch = (s.heap id').deliveredEpoch ∧
    ((s.bump id latest).heap id').force = (s.heap id').force ∧
    (s.heap id').revision ≤ ((s.bump id latest).heap id').revision := by
  by_cases h : id' = id
  · subst h
    rw [bump_heap_self]
    exact ⟨rfl, rfl, rfl, rfl, Nat.le_succ _⟩
  · rw [bump_heap_ne h]
    exact ⟨rfl, rfl, rfl, rfl, le_refl _⟩

theorem bump_current (hreg : Registered s) (hid : id ∈ s.slots) (id' : SlotId) :
    (s.bump id latest).current id' = s.current id' := by
  have hreg' : Registered (s.bump id latest) := hreg.setSlot rfl hid
  rw [Bool.eq_iff_iff, Impl.current_iff hreg', Impl.current_iff hreg]
  simp only [bump_serving, (bump_frame s id latest _).1]

theorem bump_event (h : EventOk s e) : EventOk (s.bump id latest) e := by
  refine ⟨h.known, h.revision.trans (bump_frame s id latest e.slot).2.2.2.2, ?_⟩
  by_cases heq : e.slot = id
  · intro hrev
    have hle := h.revision
    rw [heq] at hle
    rw [heq, bump_heap_self] at hrev
    exact absurd hrev (Nat.ne_of_lt (Nat.lt_succ_of_le hle))
  · rw [bump_heap_ne heq]
    exact h.state

theorem tracked_bump (hs : Tracked s) (hid : id ∈ s.slots) : Tracked (s.bump id latest) := by
  have hcurrent : ∀ id', (s.bump id latest).current id' = s.current id' :=
    bump_current hs.registered hid
  have hframe := bump_frame s id latest
  have hreg : Registered (s.bump id latest) := hs.registered.setSlot rfl hid
  refine ⟨hreg, ?_, ?_, ?_, hs.order, ?_, ?_⟩
  · intro id'
    obtain ⟨-, hdel, -, -, hrev⟩ := hframe id'
    rw [hdel]
    exact (hs.delivered id').trans hrev
  · intro id'
    rw [(hframe id').2.2.1]
    exact hs.epoch id'
  · intro e he
    obtain ⟨hok, hlt⟩ := hs.queued e he
    rw [(hframe e.slot).2.1]
    exact ⟨bump_event hok, hlt⟩
  · intro flight e hw he
    have hf := hs.flight flight e hw he
    refine ⟨bump_event hf.event, ?_, hf.epoch, hf.ahead, ?_, ?_, ?_⟩ <;>
      simp only [hframe, hcurrent]
    · exact hf.fresh
    · exact hf.owed
    · exact hf.others
    · exact hf.landed
  · intro id' hcur hpending
    rw [hcurrent] at hcur
    obtain ⟨hforce, hep, hrev⟩ := (pending_eq_false_iff _ id').mp hpending
    by_cases heq : id' = id
    · -- the new revision has not been delivered
      subst heq
      rw [bump_heap_self] at hrev
      exact absurd (hrev.trans (hs.delivered id')) (Nat.not_succ_le_self _)
    · rw [bump_heap_ne heq] at hforce hep hrev ⊢
      exact hs.settled id' hcur ((pending_eq_false_iff s id').mpr ⟨hforce, hep, hrev⟩)

end Bump

/-- Recording a revision that is newer than anything seen of its slot. -/
theorem tracked_record (hs : Tracked s) (hid : id ∈ s.slots)
    (hdelivered : (s.heap id).delivered < (s.heap id).revision)
    (hring : ∀ e ∈ s.ring.toList, e.slot = id → e.revision < (s.heap id).revision)
    (hflight : ∀ flight e, s.worker = .sending flight → flight.selected = some e →
      e.slot = id → e.revision < (s.heap id).revision) (stamp : Int) :
    Tracked (s.record id stamp) := by
  unfold Impl.record
  split
  · rename_i hroom
    simp only [Bool.and_eq_true, decide_eq_true_eq] at hroom
    set e : Event := s.snapshot id stamp with he
    have hlist : (s.ring.push e).toList = s.ring.toList ++ [e] := s.ring.toList_push e hroom.2
    obtain ⟨hreg, hdel, hep, hqueued, horder, hfl, hsettled⟩ := hs
    refine ⟨{ hreg with }, hdel, hep, ?_, ?_, ?_, hsettled⟩
    · rw [hlist, List.forall_mem_append, List.forall_mem_singleton]
      refine ⟨fun e' he' => ⟨{ (hqueued e' he').1 with }, (hqueued e' he').2⟩, ?_, hdelivered⟩
      exact ⟨hreg.bound id hid, le_refl _, fun _ => rfl⟩
    · rw [hlist]
      refine List.pairwise_append.mpr ⟨horder, List.pairwise_singleton _ _, fun a ha => ?_⟩
      rw [List.forall_mem_singleton]
      exact hring a ha
    · intro flight e₀ hw he₀
      have hf := hfl flight e₀ hw he₀
      refine { hf with event := { hf.event with }, ahead := ?_ }
      rw [hlist, List.forall_mem_append, List.forall_mem_singleton]
      exact ⟨hf.ahead, fun hslot => hflight flight e₀ hw he₀ hslot.symm⟩
  · dsimp only
    split
    · exact hs.restart rfl rfl rfl rfl (by simp [Impl.discardQueue]) rfl (fun _ h => h) rfl
    · exact hs.of_same rfl rfl rfl rfl rfl rfl rfl rfl

theorem tracked_update (hs : Tracked s) (hid : id ∈ s.slots) (state : AlarmState) (stamp : Int) :
    Tracked (s.update id state stamp) := by
  unfold Impl.update
  dsimp only
  split
  · exact hs
  · -- the bumped state, with the truncation counter moved or not
    have hbumped : ∀ counters, Tracked { s.bump id (encode state).1 with counters := counters } :=
      fun _ => (tracked_bump hs hid).of_same rfl rfl rfl rfl rfl rfl rfl rfl
    have hself : (s.bump id (encode state).1).heap id = _ := bump_heap_self
    have hrecord : ∀ counters,
        Tracked ({ s.bump id (encode state).1 with counters := counters }.record id stamp) := by
      intro counters
      apply tracked_record (hbumped counters) hid
      · show ((s.bump id (encode state).1).heap id).delivered < _
        rw [hself]
        exact Nat.lt_succ_of_le (hs.delivered id)
      · intro e he hslot
        show e.revision < ((s.bump id (encode state).1).heap id).revision
        rw [hself]
        have := (hs.queued e he).1.revision
        rw [hslot] at this
        exact Nat.lt_succ_of_le this
      · intro flight e hw he hslot
        show e.revision < ((s.bump id (encode state).1).heap id).revision
        rw [hself]
        have := (hs.flight flight e hw he).event.revision
        rw [hslot] at this
        exact Nat.lt_succ_of_le this
    split_ifs
    · exact hrecord _
    · exact hbumped _
    · exact hrecord _
    · exact hbumped _

/-! ## The worker's turn -/

/-- A publisher that differs at most in its ring, its counters and its worker's notes. -/
structure SameSlots (s s' : Impl) : Prop where
  heap : s'.heap = s.heap
  names : s'.names = s.names
  slots : s'.slots = s.slots
  nextId : s'.nextId = s.nextId
  sink : s'.sink = s.sink
  epoch : s'.epoch = s.epoch

theorem SameSlots.refl (s : Impl) : SameSlots s s := ⟨rfl, rfl, rfl, rfl, rfl, rfl⟩

theorem SameSlots.current (h : SameSlots s s') (id : SlotId) :
    s'.current id = s.current id := by
  unfold Impl.current Impl.serving
  rw [h.heap, h.names]

theorem SameSlots.registered (h : SameSlots s s') (hs : Registered s) :
    Registered s' := by
  refine hs.congr h.names h.slots h.nextId (fun id => by rw [h.heap]) ?_
  intro id hid
  left
  simpa [Impl.serving, h.heap] using hid

theorem SameSlots.event (h : SameSlots s s') (he : EventOk s e) :
    EventOk s' e :=
  ⟨h.nextId ▸ he.known, h.heap ▸ he.revision, h.heap ▸ he.state⟩

/-- Steps of the worker that leave the slots alone and shorten the ring: what remains to
    be shown is the request that is on its way afterwards. -/
theorem Tracked.of_worker (hs : Tracked s) (h : SameSlots s s')
    (hring : s'.ring.toList.Sublist s.ring.toList)
    (hflight : ∀ flight e, s'.worker = .sending flight → flight.selected = some e →
      FlightOk s' flight e) : Tracked s' := by
  refine ⟨h.registered hs.registered, h.heap ▸ hs.delivered, h.heap ▸ h.epoch ▸ hs.epoch, ?_,
    hs.order.sublist hring, hflight, ?_⟩
  · intro e he
    obtain ⟨hok, hlt⟩ := hs.queued e (hring.subset he)
    exact ⟨h.event hok, h.heap ▸ hlt⟩
  · intro id hid hpending
    rw [h.current] at hid
    rw [pending_eq_false_iff, h.heap, h.epoch, ← pending_eq_false_iff] at hpending
    rw [h.sink, h.heap]
    exact hs.settled id hid hpending

/-- The popping loop, by induction on the entries it may still look at. -/
theorem takeCurrent_spec {n : Nat} (hn : s.ring.count ≤ n) :
    SameSlots s (Impl.takeCurrent n s).1 ∧ (Impl.takeCurrent n s).1.worker = s.worker ∧
    (∀ e, (Impl.takeCurrent n s).2 = some e → s.current e.slot = true ∧
      ∃ dropped, s.ring.toList = dropped ++ e :: (Impl.takeCurrent n s).1.ring.toList) ∧
    ((Impl.takeCurrent n s).2 = none → (Impl.takeCurrent n s).1.ring.toList = []) := by
  induction n generalizing s with
  | zero =>
    refine ⟨SameSlots.refl s, rfl, by simp [Impl.takeCurrent], fun _ => ?_⟩
    exact (s.ring.toList_eq_nil_iff).mpr (Nat.le_zero.mp hn)
  | succ n ih =>
    unfold Impl.takeCurrent
    cases hpop : s.ring.pop with
    | none =>
      refine ⟨SameSlots.refl s, rfl, by simp, fun _ => ?_⟩
      exact (s.ring.toList_eq_nil_iff).mpr ((s.ring.pop_eq_none_iff).mp hpop)
    | some out =>
      obtain ⟨e, ring⟩ := out
      have hlist := RingBuffer.toList_pop hpop
      have hcount := RingBuffer.count_pop hpop
      dsimp only
      split
      · rename_i hcurrent
        refine ⟨⟨rfl, rfl, rfl, rfl, rfl, rfl⟩, rfl, ?_, by simp⟩
        intro e' he'
        cases he'
        exact ⟨hcurrent, [], hlist⟩
      · -- the slot of this event has been replaced: drop it and go on
        obtain ⟨hsame, hworker, hsome, hnone⟩ := ih (s := { s with
          ring := ring
          counters := { s.counters with
            discardedTransitions := s.counters.discardedTransitions + 1 } }) (by
            show ring.count ≤ n
            omega)
        refine ⟨⟨hsame.heap, hsame.names, hsame.slots, hsame.nextId, hsame.sink, hsame.epoch⟩,
          hworker, ?_, hnone⟩
        intro e' he'
        obtain ⟨hcurrent, dropped, hdropped⟩ := hsome e' he'
        refine ⟨hcurrent, e :: dropped, ?_⟩
        rw [hlist]
        exact congrArg (List.cons e) hdropped

/-- An event selected for its current slot finds nobody else current for the name. -/
theorem others_of_current (hs : Registered s) (hcurrent : s.current e.slot = true) (id : SlotId)
    (hid : s.current id = true) (hname : (s.heap id).name = (s.heap e.slot).name)
    (hne : id ≠ e.slot) :
    (s.heap id).force = true :=
  absurd (hs.current_unique hid hcurrent hname) hne

theorem tracked_reconcile (hs : Tracked s) (hempty : s.ring.toList = []) (now : Time)
    (stamp : Int) : Tracked (s.reconcile now stamp) := by
  unfold Impl.reconcile
  split
  · rename_i id hfound
    have hselected := List.find?_some hfound
    simp only [Bool.and_eq_true] at hselected
    obtain ⟨hcurrent, hpending⟩ := hselected
    refine hs.of_worker (s := s) ⟨rfl, rfl, rfl, rfl, rfl, rfl⟩ (List.Sublist.refl _) ?_
    intro flight e hw he
    cases hw
    cases he
    refine ⟨⟨hs.registered.current_bound hcurrent, le_refl _, fun _ => rfl⟩, hs.delivered id,
      le_refl _, ?_, ?_, ?_, by simp⟩
    · intro e' he'
      change e' ∈ s.ring.toList at he'
      rw [hempty] at he'
      cases he'
    · -- a pending slot owes a delivery for one of three reasons
      simp only [Impl.pending, Bool.or_eq_true, bne_iff_ne, decide_eq_true_eq] at hpending
      rcases hpending with (hforce | hepoch) | hrevision
      · exact .inl hforce
      · exact .inr (.inl (lt_of_le_of_ne (hs.epoch id) hepoch))
      · exact .inr (.inr hrevision)
    · have hothers := others_of_current (e := s.snapshot id stamp) hs.registered hcurrent
      exact hothers
  · dsimp only
    have hnone : ∀ recovering, Tracked { s with recovering := recovering } :=
      fun _ => hs.of_same rfl rfl rfl rfl rfl rfl rfl rfl
    have hping : ∀ recovering, Tracked ({ s with recovering := recovering }.launch none false) := by
      intro recovering
      refine hs.of_worker ⟨rfl, rfl, rfl, rfl, rfl, rfl⟩ (List.Sublist.refl _) ?_
      intro flight e hw he
      cases hw
      cases he
    split_ifs
    · exact hnone false
    · exact hping false
    · exact hs
    · exact hping s.recovering

theorem tracked_turn (hs : Tracked s) {now now' : Time} {stamp : Int}
    (h : s.turn now now' stamp = some s') : Tracked s' := by
  unfold Impl.turn at h
  split at h
  · rename_i hlooping
    split_ifs at h
    · cases h
      refine hs.of_worker ⟨rfl, rfl, rfl, rfl, rfl, rfl⟩ (List.Sublist.refl _) ?_
      intro flight e hw
      cases hw
    · cases h
      exact hs
    · obtain ⟨hsame, hworker, hsome, hnone⟩ := takeCurrent_spec (le_refl s.ring.count)
      generalize Impl.takeCurrent s.ring.count s = popped at h hsame hworker hsome hnone
      obtain ⟨t, event⟩ := popped
      dsimp only at h hsame hworker hsome hnone
      cases event with
      | some e =>
        cases h
        obtain ⟨hcurrent, dropped, hlist⟩ := hsome e rfl
        have hsub : (e :: t.ring.toList).Sublist s.ring.toList := by
          rw [hlist]
          exact List.sublist_append_right _ _
        have hlaunch : SameSlots s (t.launch (some e) false) :=
          ⟨hsame.heap, hsame.names, hsame.slots, hsame.nextId, hsame.sink, hsame.epoch⟩
        refine hs.of_worker hlaunch ((List.sublist_cons_self _ _).trans hsub) ?_
        intro flight e' hw he'
        cases hw
        cases he'
        obtain ⟨hok, hfresh⟩ := hs.queued e (hsub.subset List.mem_cons_self)
        have horder := hs.order.sublist hsub
        rw [List.pairwise_cons] at horder
        refine ⟨hlaunch.event hok, ?_, le_refl _, ?_, .inr (.inr ?_), ?_, by simp⟩
        · rw [hlaunch.heap]
          exact hfresh.le
        · intro e' he' hslot
          exact horder.1 e' he' hslot.symm
        · rw [hlaunch.heap]
          exact hfresh
        · exact others_of_current (hlaunch.registered hs.registered)
            ((hlaunch.current e.slot).trans hcurrent)
      | none =>
        cases h
        have hempty := hnone rfl
        have htracked : Tracked t := by
          refine hs.of_worker hsame (by rw [hempty]; exact List.nil_sublist _) ?_
          intro flight e hw
          rw [hworker, hlooping] at hw
          cases hw
        exact tracked_reconcile htracked hempty now' stamp
  · cases h

/-! ## The answer -/

theorem tracked_append (hs : Tracked s) (h : s.append = some s') : Tracked s' := by
  unfold Impl.append at h
  split at h
  · rename_i flight hworker
    split at h
    · rename_i e hselected happended
      cases h
      have hf := hs.flight flight e hworker hselected
      set name := (s.heap e.slot).name
      -- whoever is current for this name is pending, so no settled slot loses its last event
      have howed : ∀ id, s.current id = true → (s.heap id).name = name → s.pending id = true := by
        intro id hid hname
        by_contra hnot
        have hpending := (pending_eq_false_iff s id).mp (by simpa using hnot)
        have hothers := hf.others id hid hname
        have howes := hf.owed
        have hrevision := hf.event.revision
        grind
      obtain ⟨hreg, hdel, hep, hqueued, horder, hfl, hsettled⟩ := hs
      refine ⟨{ hreg with }, hdel, hep, ?_, horder, ?_, ?_⟩
      · intro e' he'
        exact ⟨{ (hqueued e' he').1 with }, (hqueued e' he').2⟩
      · intro flight' e' hw he'
        cases hw
        dsimp only at he'
        rw [hselected] at he'
        cases he'
        exact { hf with
          event := { hf.event with }
          landed := fun _ => (lastFor_append _ _ _).trans (if_pos rfl) }
      · intro id hid hpending
        refine (lastFor_append _ _ _).trans ?_
        split
        · rename_i hname
          have hnot : s.pending id = false := hpending
          rw [howed id hid hname.symm] at hnot
          cases hnot
        · exact hsettled id hid hpending
    · cases h
  · cases h

/-- Booking an accepted event on its slot.  If nothing is owed afterwards, the event
    carried the latest state. -/
theorem tracked_markDelivered (hs : Tracked s) (hidle : ∀ flight, s.worker ≠ .sending flight)
    {epoch : Nat} (hok : EventOk s e) (hfresh : (s.heap e.slot).delivered ≤ e.revision)
    (hepoch : epoch ≤ s.epoch)
    (hahead : ∀ e' ∈ s.ring.toList, e'.slot = e.slot → e.revision < e'.revision)
    (hcurrent : s.current e.slot = true)
    (hlast : lastFor s.sink (s.heap e.slot).name = some e.state) :
    Tracked (s.markDelivered e epoch) := by
  set t := s.markDelivered e epoch with ht
  have hid : e.slot ∈ s.slots :=
    hs.registered.serving _ ((Impl.current_iff hs.registered _).mp hcurrent).1
  have hreg : Registered t := hs.registered.setSlot rfl hid
  have hheap : ∀ id, t.heap id = if id = e.slot then { s.heap e.slot with
      delivered := e.revision, deliveredEpoch := epoch, force := false } else s.heap id := by
    intro id
    refine (setSlot_heap s e.slot _ id).trans ?_
    rw [max_eq_right hfresh]
  have hframe : ∀ id, (t.heap id).name = (s.heap id).name ∧
      (t.heap id).revision = (s.heap id).revision ∧ (t.heap id).latest = (s.heap id).latest ∧
      t.serving id = s.serving id := by
    intro id
    unfold Impl.serving
    by_cases heq : id = e.slot <;> simp [hheap, heq]
  have hcur : ∀ id, t.current id = s.current id := by
    intro id
    rw [Bool.eq_iff_iff, Impl.current_iff hreg, Impl.current_iff hs.registered]
    simp only [(hframe _).1, (hframe _).2.2.2]
  have hdelivered := hs.delivered
  have hepochs := hs.epoch
  have hsink : t.sink = s.sink := rfl
  have hepoch' : t.epoch = s.epoch := rfl
  have hrevision := hok.revision
  refine ⟨hreg, by grind, by grind, ?_, hs.order, fun flight _ hw => absurd hw (hidle flight), ?_⟩
  · intro e' he'
    obtain ⟨⟨hknown, hrev, hstate⟩, hlt⟩ := hs.queued e' he'
    have hnewer := hahead e' he'
    exact ⟨⟨hknown, by grind, by grind⟩, by grind⟩
  · intro id hid' hpending
    rw [pending_eq_false_iff] at hpending
    rw [hcur] at hid'
    have hold := hs.settled id hid'
    have hstate := hok.state
    rw [pending_eq_false_iff] at hold
    grind

theorem tracked_book (hs : Tracked s) {flight : Flight} (hworker : s.worker = .sending flight)
    (happended : flight.allows .accepted = true) {t : Impl} (hsame : SameSlots s t)
    (hring : t.ring = s.ring) (hlooping : t.worker = .looping) :
    Tracked (t.book flight) := by
  have ht : Tracked t := by
    refine hs.of_worker hsame (by rw [hring]) ?_
    intro flight' e hw
    rw [hlooping] at hw
    cases hw
  unfold Impl.book
  split
  · exact ht
  · rename_i e hselected
    have hf := hs.flight flight e hworker hselected
    have hlanded : lastFor s.sink (s.heap e.slot).name = some e.state := by
      apply hf.landed
      simpa [Flight.allows, hselected] using happended
    have hcounted : Tracked (t.countSent flight.reconciliation) :=
      ht.of_same rfl rfl rfl rfl rfl rfl rfl rfl
    have hsame' : SameSlots s (t.countSent flight.reconciliation) :=
      ⟨hsame.heap, hsame.names, hsame.slots, hsame.nextId, hsame.sink, hsame.epoch⟩
    dsimp only
    split
    · rename_i hcurrent
      apply tracked_markDelivered hcounted
      · intro flight' hw
        cases hlooping.symm.trans hw
      · exact hsame'.event hf.event
      · rw [hsame'.heap]
        exact hf.fresh
      · rw [hsame'.epoch]
        exact hf.epoch
      · intro e' he'
        have he'' : e' ∈ s.ring.toList := hring ▸ he'
        exact hf.ahead e' he''
      · exact hcurrent
      · rw [hsame'.sink, hsame'.heap]
        exact hlanded
    · exact hcounted

theorem tracked_reply (hs : Tracked s) {result : SendResult} {now now' : Time}
    (h : s.reply result now now' = some s') : Tracked s' := by
  unfold Impl.reply at h
  split at h
  · rename_i flight hworker
    split at h
    · rename_i hallowed
      have hfail : ∀ rejected, Tracked (Impl.fail { s with
          worker := .looping, heartbeat := now + s.options.heartbeatMs } rejected now') := by
        intro rejected
        cases rejected
        all_goals
          refine hs.restart rfl rfl rfl rfl (by simp [Impl.fail, Impl.discardQueue]) rfl ?_ rfl
          intro flight' hw
          cases hw
      cases result with
      | accepted =>
        cases h
        exact tracked_book hs hworker hallowed ⟨rfl, rfl, rfl, rfl, rfl, rfl⟩ rfl rfl
      | rejected =>
        cases h
        exact hfail true
      | unavailable =>
        cases h
        exact hfail false
    · cases h
  · cases h

/-! ## Runs -/

theorem tracked_step {a : Label} (hs : Tracked s) (horder : retiresInOrder s a)
    (h : step s a = some s') : Tracked s' := by
  cases a with
  | enable =>
    cases h
    exact hs.of_same rfl rfl rfl rfl rfl rfl rfl rfl
  | prepare name state =>
    cases h
    exact tracked_prepare hs name state
  | activate id =>
    simp only [step] at h
    split at h <;> cases h
    exact tracked_activate hs ‹_›
  | update id state stamp =>
    simp only [step] at h
    split at h <;> cases h
    exact tracked_update hs ‹_› state stamp
  | retire id =>
    simp only [step] at h
    split at h <;> cases h
    exact tracked_retire hs ‹_› horder
  | remove id =>
    simp only [step] at h
    split at h <;> cases h
    exact tracked_remove hs ‹_› horder
  | turn now now' stamp => exact tracked_turn hs h
  | append => exact tracked_append hs h
  | reply result now now' => exact tracked_reply hs h
  | stop =>
    cases h
    exact hs.of_same rfl rfl rfl rfl rfl rfl rfl rfl

theorem tracked_exec {as : List Label} (hs : machine.start s)
    (horder : machine.Guarded retiresInOrder s as) (h : machine.exec s as = some s') :
    Tracked s' :=
  machine.exec_guarded_invariant (fun _ _ _ => tracked_step) (tracked_start hs) horder h

/-- A ready publisher owes nothing to a current slot. -/
theorem Impl.pending_of_ready (hs : Registered s) (hready : s.state = .ready)
    (hid : s.current id = true) : s.pending id = false := by
  unfold Impl.state at hready
  split_ifs at hready with h1 h2 h3 h4 h5
  simp only [ne_eq, Bool.or_eq_true, decide_eq_true_eq, not_or, not_not] at h5
  have hzero := List.countP_eq_zero.mp h5.1.2
  have hmem := hs.serving id ((Impl.current_iff hs id).mp hid).1
  have := hzero id hmem
  simpa [hid] using this

/-- **Convergence.**  At the end of every run in which registrations of one name are
    retired in order, if the publisher reports `ready` then for every current slot the last
    event on the stream for its name carries the slot's latest state. -/
theorem ready_sink_current {s s' : Impl} {as : List Label} (hs : machine.start s)
    (horder : machine.Guarded retiresInOrder s as) (h : machine.exec s as = some s')
    (hready : s'.state = .ready) (id : SlotId) (hid : s'.current id = true) :
    lastFor s'.sink (s'.heap id).name = some (s'.heap id).latest := by
  have htracked := tracked_exec hs horder h
  exact htracked.settled id hid (Impl.pending_of_ready htracked.registered hready hid)

/-- A registration takes over a name and its first delivery fails after the server has
    appended the event; the publisher becomes ready with the second attempt. -/
theorem ready_sink_current_replaced : ∃ s as s', machine.start s ∧
    machine.Guarded retiresInOrder s as ∧ machine.exec s as = some s' ∧ s'.state = .ready ∧
    s'.current 2 = true ∧ s'.sink.length = 2 ∧
    lastFor s'.sink (s'.heap 2).name = some (s'.heap 2).latest := by
  let s : Impl := Impl.init { queueEntries := 2 }
    ⟨by decide, by decide, by decide, by decide, by decide⟩ 0
  let as : List Label := [.enable, .prepare "pv" {}, .activate 1, .prepare "pv" { severity := 2 },
    .activate 2, .retire 1, .turn 1 1 0, .append, .reply .unavailable 2 2, .turn 2000 2000 0,
    .append, .reply .accepted 2001 2001, .turn 2002 2002 0]
  have hstart : machine.start s := ⟨_, _, _, rfl⟩
  have hguard : machine.Guarded retiresInOrder s as := by decide
  have hrun : (machine.exec s as).map (fun s' => (s'.state, s'.current 2, s'.sink.length)) =
      some (.ready, true, 2) := by decide
  obtain ⟨s', hs', hend⟩ := Option.map_eq_some_iff.mp hrun
  simp only [Prod.mk.injEq] at hend
  obtain ⟨hready, hcurrent, hlength⟩ := hend
  exact ⟨s, as, s', hstart, hguard, hs', hready, hcurrent, hlength,
    ready_sink_current hstart hguard hs' hready 2 hcurrent⟩

end RedisPvxsIoc.Alarm
