import RedisPvxsIoc.Config.Endpoints
import RedisPvxsIoc.Foundations.Wire

/-!
# The Discovery Catalog

Model of `prepareDiscoveryCatalog` in `src/discovery.cpp`: the records that a server
advertises are validated and written into one byte string, message by message.  The reader of
that string is not part of the program; `decode` is one for its layout.

Every function of the source appends a list of items if it succeeds, and it succeeds if each item
passes its checks (`Writes`).  What is to be known about a catalog is then a matter of its items.

One character stands for one byte.

## Main results

- `prepareDiscoveryCatalog_roundTrip`: which catalogs can be prepared, and that they are read back
- `prepareDiscoveryCatalog_ok`: the names on the wire are those of the records and their
  aliases, none of them twice, and the counters count them
- `prepareDiscoveryCatalog_distinct`: records without a shared name never fail as duplicates
-/

namespace RedisPvxsIoc.Discovery

open Foundations Config

/-! ## Data -/

structure DiscoveryRecord where
  name : String
  type : String
  aliases : List String := []
  properties : FinMap String String := ∅

structure DiscoveryCatalog where
  generation : Nat := 0
  records : Nat := 0
  aliases : Nat := 0
  wire : Bytes := []

/-! ## Messages -/

def magic : Nat := 0x5243

/-- `append16` -/
def bytes16 (value : Nat) : Bytes := word 2 value

/-- `append32` -/
def bytes32 (value : Nat) : Bytes := word 4 value

def validateText (value : String) (maximum : Nat) (field : String) (allowEmpty : Bool := false) :
    Except String Unit :=
  if (!allowEmpty ∧ value = "") ∨ maximum < value.length ∨ '\x00' ∈ value.toList then
    .error ("discovery " ++ field ++ " is empty, too long, or contains NUL")
  else .ok ()

structure Message where
  id : Nat
  body : Bytes
  deriving DecidableEq, Repr

def Message.write (m : Message) : Bytes :=
  bytes16 magic ++ (bytes16 m.id ++ (bytes32 m.body.length ++ m.body))

def message (wire : Bytes) (id : Nat) (body : Bytes) (maximum : Nat) : Except String Bytes :=
  if maximum < wire.length ∨ maximum - wire.length < body.length + 8 then
    .error "discovery catalog exceeds max_bytes"
  else .ok (wire ++ (Message.mk id body).write)

def infoBody (id : Nat) (key value : String) : Bytes :=
  bytes32 id ++ (word 1 key.length ++ (word 1 0 ++ (bytes16 value.length ++
    (key.toList ++ value.toList))))

def info (wire : Bytes) (id : Nat) (key value : String) (maximum : Nat) : Except String Bytes := do
  validateText key 255 "property name"
  validateText value 65535 "property value" true
  if key.toList.any (fun ch => 128 ≤ ch.toNat) then
    throw "discovery property names must be ASCII"
  else message wire 6 (infoBody id key value) maximum

/-- The body of a record; an alias has kind 1 and no type. -/
def recordBody (id kind : Nat) (type name : String) : Bytes :=
  bytes32 id ++ (word 1 kind ++ (word 1 type.length ++ (bytes16 name.length ++
    (type.toList ++ name.toList))))

/-! ## The catalog -/

/-- The variables of the loop over the records. -/
structure Staging where
  catalog : DiscoveryCatalog
  names : NameSet := ∅
  id : Nat := 0

/-- The check at the top of both loops. -/
def checkRecords (limits : DiscoveryConfig) (st : Staging) : Except String Unit :=
  if limits.maxRecords ≤ st.catalog.records + st.catalog.aliases then
    .error "discovery catalog exceeds max_records"
  else .ok ()

/-- `names.insert(..).second` or failure -/
def insertName (names : NameSet) (name : String) : Except String NameSet :=
  if names.contains name then .error ("duplicate discovery PV: " ++ name)
  else .ok (names.insert name ())

def addAlias (limits : DiscoveryConfig) (st : Staging) (name : String) : Except String Staging := do
  checkRecords limits st
  validateText name 65535 "alias"
  let names ← insertName st.names name
  let wire ← message st.catalog.wire 3 (recordBody st.id 1 "" name) limits.maxBytes
  return { st with
    names := names
    catalog := { st.catalog with wire := wire, aliases := st.catalog.aliases + 1 } }

def addProperty (limits : DiscoveryConfig) (st : Staging) (property : String × String) :
    Except String Staging := do
  let wire ← info st.catalog.wire st.id property.1 property.2 limits.maxBytes
  return { st with catalog := { st.catalog with wire := wire } }

def addRecord (limits : DiscoveryConfig) (st : Staging) (record : DiscoveryRecord) :
    Except String Staging := do
  checkRecords limits st
  validateText record.name 65535 "PV name"
  validateText record.type 255 "type"
  let names ← insertName st.names record.name
  let id := st.id + 1
  let wire ← message st.catalog.wire 3 (recordBody id 0 record.type record.name) limits.maxBytes
  let st := {
    names := names
    id := id
    catalog := { st.catalog with wire := wire, records := st.catalog.records + 1 } }
  let st ← record.aliases.foldlM (addAlias limits) st
  record.properties.entries.foldlM (addProperty limits) st

def prepareDiscoveryCatalog (limits : DiscoveryConfig) (generation : Nat)
    (identity : FinMap String String) (records : List DiscoveryRecord) :
    Except String DiscoveryCatalog := do
  let st ← identity.entries.foldlM (addProperty limits)
    { catalog := { generation := generation } }
  let st ← records.foldlM (addRecord limits) st
  let wire ← message st.catalog.wire 5 (bytes32 0) limits.maxBytes
  return { st.catalog with wire := wire }

/-! ## Items -/

/-- What one message tells. -/
inductive Item where
  | info (id : Nat) (key value : String)
  | pv (id : Nat) (type name : String)
  | pvAlias (id : Nat) (name : String)
  | done
  deriving DecidableEq, Repr

namespace Item

def message : Item → Message
  | .info id key value => ⟨6, infoBody id key value⟩
  | .pv id type name => ⟨3, recordBody id 0 type name⟩
  | .pvAlias id name => ⟨3, recordBody id 1 "" name⟩
  | .done => ⟨5, bytes32 0⟩

def write (item : Item) : Bytes := item.message.write

/-- The name that is advertised. -/
def name? : Item → Option String
  | .pv _ _ name | .pvAlias _ name => some name
  | _ => none

/-- The number of the record that the item belongs to. -/
def number : Item → Nat
  | .info id _ _ | .pv id _ _ | .pvAlias id _ => id
  | .done => 0

/-- The checks of the texts. -/
def Valid : Item → Prop
  | .info _ key value => validateText key 255 "property name" = .ok () ∧
      validateText value 65535 "property value" true = .ok () ∧ ∀ ch ∈ key.toList, ch.toNat < 128
  | .pv _ type name => validateText name 65535 "PV name" = .ok () ∧
      validateText type 255 "type" = .ok ()
  | .pvAlias _ name => validateText name 65535 "alias" = .ok ()
  | .done => True

/-- No field of the layout is too narrow. -/
def Fits : Item → Prop
  | .info id key value => id < 2 ^ 32 ∧ key.length < 2 ^ 8 ∧ value.length < 2 ^ 16
  | .pv id type name => id < 2 ^ 32 ∧ type.length < 2 ^ 8 ∧ name.length < 2 ^ 16
  | .pvAlias id name => id < 2 ^ 32 ∧ name.length < 2 ^ 16
  | .done => True

end Item

def recordItems (id : Nat) (record : DiscoveryRecord) : List Item :=
  .pv id record.type record.name ::
    (record.aliases.map (.pvAlias id) ++ record.properties.entries.map fun p => .info id p.1 p.2)

/-- The records are numbered from `id + 1` on. -/
def recordsItems : Nat → List DiscoveryRecord → List Item
  | _, [] => []
  | id, record :: records => recordItems (id + 1) record ++ recordsItems (id + 1) records

def catalogItems (identity : FinMap String String) (records : List DiscoveryRecord) : List Item :=
  identity.entries.map (fun p => .info 0 p.1 p.2) ++ (recordsItems 0 records ++ [.done])

/-- The names that a list of records advertises. -/
def recordNames (records : List DiscoveryRecord) : List String :=
  records.flatMap fun record => record.name :: record.aliases

theorem length_le_recordNames (records : List DiscoveryRecord) :
    records.length ≤ (recordNames records).length := by
  induction records with
  | nil => exact le_refl _
  | cons record records ih =>
    simp only [recordNames, List.flatMap_cons, List.length_append, List.length_cons] at ih ⊢
    omega

theorem recordNames_append (done : List DiscoveryRecord) (record : DiscoveryRecord) :
    recordNames (done ++ [record]) = recordNames done ++ record.name :: record.aliases := by
  simp [recordNames]

theorem filterMap_name_recordItems (id : Nat) (record : DiscoveryRecord) :
    (recordItems id record).filterMap Item.name? = record.name :: record.aliases := by
  have hinfo : (record.properties.entries.map fun p => Item.info id p.1 p.2).filterMap
      Item.name? = [] := by simp [List.filterMap_eq_nil_iff, Item.name?]
  simp [recordItems, List.filterMap_append, hinfo, List.filterMap_map, Function.comp_def,
    Item.name?]

theorem filterMap_name_recordsItems (id : Nat) (records : List DiscoveryRecord) :
    (recordsItems id records).filterMap Item.name? = recordNames records := by
  induction records generalizing id with
  | nil => rfl
  | cons record records ih =>
    rw [recordsItems, List.filterMap_append, filterMap_name_recordItems, ih]
    rfl

theorem filterMap_name_catalogItems (identity : FinMap String String)
    (records : List DiscoveryRecord) :
    (catalogItems identity records).filterMap Item.name? = recordNames records := by
  have hinfo : (identity.entries.map fun p => Item.info 0 p.1 p.2).filterMap Item.name? = [] := by
    simp [List.filterMap_eq_nil_iff, Item.name?]
  simp [catalogItems, List.filterMap_append, hinfo, filterMap_name_recordsItems, Item.name?]

/-! ## Reading the wire -/

def Message.read (bytes : Bytes) : Option (Message × Bytes) := do
  let (found, rest) ← splitWord 2 bytes
  if found = magic then
    let (id, rest) ← splitWord 2 rest
    let (length, rest) ← splitWord 4 rest
    let (body, rest) ← splitBytes length rest
    return (⟨id, body⟩, rest)
  else none

/-- The common layout of the bodies: a number, a byte with two meanings, two lengths and two
    texts; nothing may be left over. -/
def Item.fields (body : Bytes) : Option (Nat × Nat × Nat × Nat × Bytes) := do
  let (id, rest) ← splitWord 4 body
  let (first, rest) ← splitWord 1 rest
  let (second, rest) ← splitWord 1 rest
  let (length, rest) ← splitWord 2 rest
  return (id, first, second, length, rest)

/-- Two texts of known lengths, and nothing else. -/
def Item.texts (first second : Nat) (bytes : Bytes) : Option (String × String) := do
  let (front, rest) ← splitBytes first bytes
  if rest.length = second then return (String.ofList front, String.ofList rest) else none

def Item.read (m : Message) : Option Item :=
  if m.id = 6 then do
    let (id, keyLength, _, valueLength, rest) ← Item.fields m.body
    let (key, value) ← Item.texts keyLength valueLength rest
    return .info id key value
  else if m.id = 3 then do
    let (id, kind, typeLength, nameLength, rest) ← Item.fields m.body
    let (type, name) ← Item.texts typeLength nameLength rest
    return if kind = 0 then .pv id type name else .pvAlias id name
  else if m.id = 5 ∧ m.body = bytes32 0 then some .done
  else none

def itemFormat : FrameFormat Item where
  write := Item.write
  read bytes := do
    let (m, rest) ← Message.read bytes
    let item ← Item.read m
    return (item, rest)

def decode (wire : Bytes) : Option (List Item) := unframe itemFormat wire.length wire

/-- The names of the records and aliases on the wire, in order. -/
def catalogNames (wire : Bytes) : Option (List String) :=
  (decode wire).map (List.filterMap Item.name?)

theorem read_write {m : Message} (hid : m.id < 2 ^ 16) (hbody : m.body.length < 2 ^ 32)
    (rest : Bytes) : Message.read (m.write ++ rest) = some (m, rest) := by
  have hid : m.id % 256 ^ 2 = m.id := Nat.mod_eq_of_lt hid
  have hbody : m.body.length % 256 ^ 4 = m.body.length := Nat.mod_eq_of_lt hbody
  have hmagic : magic % 256 ^ 2 = magic := rfl
  simp only [Message.read, Message.write, bytes16, bytes32, List.append_assoc, splitWord_append,
    Option.bind_eq_bind, Option.bind_some, hid, hbody, hmagic, if_true, splitBytes_append]
  rfl

theorem texts_append (front back : String) :
    Item.texts front.length back.length (front.toList ++ back.toList) = some (front, back) := by
  simp only [Item.texts, splitBytes_append (String.length_toList (s := front)),
    Option.bind_eq_bind, Option.bind_some, String.length_toList, if_true, String.ofList_toList]
  rfl

theorem fields_append {id first second length : Nat} (hid : id < 2 ^ 32) (hfirst : first < 2 ^ 8)
    (hsecond : second < 2 ^ 8) (hlength : length < 2 ^ 16) (rest : Bytes) :
    Item.fields (bytes32 id ++ (word 1 first ++ (word 1 second ++ (bytes16 length ++ rest)))) =
      some (id, first, second, length, rest) := by
  have hid : id % 256 ^ 4 = id := Nat.mod_eq_of_lt hid
  have hfirst : first % 256 ^ 1 = first := Nat.mod_eq_of_lt hfirst
  have hsecond : second % 256 ^ 1 = second := Nat.mod_eq_of_lt hsecond
  have hlength : length % 256 ^ 2 = length := Nat.mod_eq_of_lt hlength
  simp only [Item.fields, bytes16, bytes32, splitWord_append, Option.bind_eq_bind,
    Option.bind_some, hid, hfirst, hsecond, hlength]
  rfl

variable {item : Item}

theorem read_message (h : item.Fits) : Item.read item.message = some item := by
  cases item with
  | info id key value =>
    simp only [Item.read, Item.message, infoBody, if_true,
      fields_append h.1 h.2.1 (show 0 < 2 ^ 8 by decide) h.2.2, Option.bind_eq_bind,
      Option.bind_some, texts_append]
    rfl
  | pv id type name =>
    simp only [Item.read, Item.message, recordBody, Nat.reduceEqDiff, if_false, if_true,
      fields_append h.1 (show 0 < 2 ^ 8 by decide) h.2.1 h.2.2, Option.bind_eq_bind,
      Option.bind_some, texts_append]
    rfl
  | pvAlias id name =>
    simp only [Item.read, Item.message, recordBody, Nat.reduceEqDiff, if_false, if_true,
      fields_append h.1 (show 1 < 2 ^ 8 by decide) (show "".length < 2 ^ 8 by decide) h.2,
      Option.bind_eq_bind, Option.bind_some, texts_append]
    rfl
  | done => rfl

theorem faithful_item (h : item.Fits) : itemFormat.Faithful item := by
  have hid : item.message.id < 2 ^ 16 := by cases item <;> simp [Item.message]
  have hbody : item.message.body.length < 2 ^ 32 := by
    cases item <;> simp only [Item.Fits] at h <;>
      simp only [Item.message, infoBody, recordBody, bytes32, bytes16, List.length_append,
        length_word, String.length_toList, String.length_empty] <;> omega
  refine ⟨fun hnil => ?_, fun rest => ?_⟩
  · have hlength := congrArg List.length hnil
    simp [itemFormat, Item.write, Message.write, bytes16, bytes32] at hlength
  · simp only [itemFormat, Item.write, read_write hid hbody, Option.bind_eq_bind,
      Option.bind_some, read_message h]
    rfl

/-! ## What is written -/

theorem validateText_ok {value field : String} {maximum : Nat} {allowEmpty : Bool} {u : Unit}
    (h : validateText value maximum field allowEmpty = .ok u) : value.length ≤ maximum := by
  unfold validateText at h
  split at h
  · cases h
  · rename_i hcond
    rw [not_or, not_or] at hcond
    exact Nat.le_of_not_lt hcond.2.1

@[simp] theorem length_write (m : Message) : m.write.length = m.body.length + 8 := by
  simp [Message.write, bytes16, bytes32]
  omega

theorem message_ok_iff {wire wire' body : Bytes} {id maximum : Nat} :
    message wire id body maximum = .ok wire' ↔
      wire.length + (Message.mk id body).write.length ≤ maximum ∧
        wire ++ (Message.mk id body).write = wire' := by
  unfold message
  rw [length_write]
  split
  · rename_i hfull
    simp only [reduceCtorEq, false_iff, not_and]
    omega
  · rename_i hroom
    simp only [Except.ok.injEq, iff_and_self]
    omega

theorem insertName_ok_iff {names names' : NameSet} {name : String} :
    insertName names name = .ok names' ↔ name ∉ names.keys ∧ names.insert name () = names' := by
  unfold insertName
  rw [FinMap.mem_keys_iff_contains]
  split <;> simp_all

theorem checkRecords_ok_iff {limits : DiscoveryConfig} {st : Staging} {u : Unit} :
    checkRecords limits st = .ok u ↔ st.catalog.records + st.catalog.aliases < limits.maxRecords := by
  unfold checkRecords
  split <;> simp <;> omega

/-- The variables of the loop after one more item. -/
def Staging.put (st : Staging) (item : Item) : Staging :=
  let wire := st.catalog.wire ++ item.write
  match item with
  | .info _ _ _ | .done => { st with catalog := { st.catalog with wire := wire } }
  | .pv id _ name => {
      names := st.names.insert name ()
      id := id
      catalog := { st.catalog with wire := wire, records := st.catalog.records + 1 } }
  | .pvAlias _ name => { st with
      names := st.names.insert name ()
      catalog := { st.catalog with wire := wire, aliases := st.catalog.aliases + 1 } }

/-- All checks of an item. -/
def Accepts (limits : DiscoveryConfig) (st : Staging) (item : Item) : Prop :=
  item.Valid ∧ st.catalog.wire.length + item.write.length ≤ limits.maxBytes ∧
    ∀ name, item.name? = some name → name ∉ st.names.keys ∧
      st.catalog.records + st.catalog.aliases < limits.maxRecords

def AcceptsAll (limits : DiscoveryConfig) : Staging → List Item → Prop
  | _, [] => True
  | st, item :: items => Accepts limits st item ∧ AcceptsAll limits (st.put item) items

/-- A computation that appends some items, or fails if one of them does not pass its checks. -/
def Writes (limits : DiscoveryConfig) (st : Staging) (items : List Item)
    (x : Except String Staging) : Prop :=
  ∀ st', x = .ok st' ↔ AcceptsAll limits st items ∧ items.foldl Staging.put st = st'

section Loops

variable {limits : DiscoveryConfig} {st st' : Staging} {items items' : List Item}
  {x : Except String Staging}

theorem acceptsAll_append : AcceptsAll limits st (items ++ items') ↔
    AcceptsAll limits st items ∧ AcceptsAll limits (items.foldl Staging.put st) items' := by
  induction items generalizing st with
  | nil => simp [AcceptsAll]
  | cons item items ih => simp [AcceptsAll, ih, and_assoc]

theorem Writes.bind {f : Staging → Except String Staging} (h : Writes limits st items x)
    (hf : Writes limits (items.foldl Staging.put st) items' (f (items.foldl Staging.put st))) :
    Writes limits st (items ++ items') (x >>= f) := by
  intro st'
  rw [bind_eq_ok, acceptsAll_append, List.foldl_append, and_assoc, ← hf st']
  constructor
  · rintro ⟨st₁, hx, hst'⟩
    obtain ⟨haccepts, rfl⟩ := (h st₁).mp hx
    exact ⟨haccepts, hst'⟩
  · rintro ⟨haccepts, hst'⟩
    exact ⟨_, (h _).mpr ⟨haccepts, rfl⟩, hst'⟩

/-- A loop whose turns write one item each and leave the number of the record alone. -/
theorem writes_foldlM {α : Type} {f : Staging → α → Except String Staging} {g : Nat → α → Item}
    (hf : ∀ st a, Writes limits st [g st.id a] (f st a))
    (hid : ∀ (st : Staging) a, (st.put (g st.id a)).id = st.id) (l : List α) (st : Staging) :
    Writes limits st (l.map (g st.id)) (l.foldlM f st) := by
  induction l generalizing st with
  | nil => simp [Writes, AcceptsAll, pure, Except.pure]
  | cons a l ih =>
    have hrest := ih (st.put (g st.id a))
    rw [hid] at hrest
    rw [List.foldlM_cons, List.map_cons]
    exact (hf st a).bind hrest

theorem foldl_put_id (h : ∀ item ∈ items, ∀ st : Staging, (st.put item).id = st.id) :
    (items.foldl Staging.put st).id = st.id := by
  induction items generalizing st with
  | nil => rfl
  | cons item items ih =>
    rw [List.foldl_cons, ih fun i hi => h i (List.mem_cons_of_mem _ hi),
      h item List.mem_cons_self]

theorem writes_addProperty (st : Staging) (property : String × String) :
    Writes limits st [.info st.id property.1 property.2] (addProperty limits st property) := by
  intro st'
  have hascii : property.1.toList.any (fun ch => 128 ≤ ch.toNat) = false ↔
      ∀ ch ∈ property.1.toList, ch.toNat < 128 := by simp
  simp only [addProperty, info, bind_eq_ok, AcceptsAll, Accepts, Item.Valid, Item.name?,
    List.foldl_cons, List.foldl_nil, ← hascii]
  constructor
  · rintro ⟨wire, ⟨_, hkey, _, hvalue, hmessage⟩, hdone⟩
    split at hmessage
    · cases hmessage
    · rename_i hany
      obtain ⟨hroom, rfl⟩ := message_ok_iff.mp hmessage
      exact ⟨⟨⟨⟨hkey, hvalue, Bool.eq_false_iff.mpr hany⟩, hroom, by simp⟩, trivial⟩,
        Except.ok.inj hdone⟩
  · rintro ⟨⟨⟨⟨hkey, hvalue, hany⟩, hroom, -⟩, -⟩, rfl⟩
    refine ⟨_, ⟨(), hkey, (), hvalue, ?_⟩, rfl⟩
    rw [if_neg (by simp [hany])]
    exact message_ok_iff.mpr ⟨hroom, rfl⟩

theorem writes_addAlias (st : Staging) (name : String) :
    Writes limits st [.pvAlias st.id name] (addAlias limits st name) := by
  intro st'
  simp only [addAlias, bind_eq_ok, AcceptsAll, Accepts, Item.Valid, Item.name?, List.foldl_cons,
    List.foldl_nil, checkRecords_ok_iff, insertName_ok_iff, message_ok_iff, Option.some.injEq]
  constructor
  · rintro ⟨-, hcount, _, hvalid, _, ⟨hnew, rfl⟩, _, ⟨hroom, rfl⟩, hdone⟩
    refine ⟨⟨⟨hvalid, hroom, ?_⟩, trivial⟩, Except.ok.inj hdone⟩
    rintro _ rfl
    exact ⟨hnew, hcount⟩
  · rintro ⟨⟨⟨hvalid, hroom, hname⟩, -⟩, rfl⟩
    obtain ⟨hnew, hcount⟩ := hname name rfl
    exact ⟨(), hcount, (), hvalid, _, ⟨hnew, rfl⟩, _, ⟨hroom, rfl⟩, rfl⟩

theorem writes_addRecord (st : Staging) (record : DiscoveryRecord) :
    Writes limits st (recordItems (st.id + 1) record) (addRecord limits st record) := by
  let st₁ := st.put (.pv (st.id + 1) record.type record.name)
  have hloops : Writes limits st₁ (record.aliases.map (.pvAlias (st.id + 1)) ++
      record.properties.entries.map fun p => .info (st.id + 1) p.1 p.2)
      (record.aliases.foldlM (addAlias limits) st₁ >>= fun st =>
        record.properties.entries.foldlM (addProperty limits) st) := by
    refine (writes_foldlM (g := .pvAlias) writes_addAlias (fun _ _ => rfl) record.aliases st₁).bind ?_
    have hkeeps : ((record.aliases.map (Item.pvAlias (st.id + 1))).foldl Staging.put st₁).id =
        st.id + 1 := foldl_put_id (List.forall_mem_map.mpr fun _ _ _ => rfl)
    have hinfo : Writes limits _ _ _ := writes_foldlM
      (g := fun id (p : String × String) => .info id p.1 p.2) writes_addProperty (fun _ _ => rfl)
      record.properties.entries
      ((record.aliases.map (Item.pvAlias (st.id + 1))).foldl Staging.put st₁)
    rwa [hkeeps] at hinfo
  intro st'
  rw [recordItems, AcceptsAll, List.foldl_cons, and_assoc, ← hloops st']
  simp only [addRecord, bind_eq_ok, Accepts, Item.Valid, Item.name?, checkRecords_ok_iff,
    insertName_ok_iff, message_ok_iff, Option.some.injEq]
  constructor
  · rintro ⟨-, hcount, _, hname, _, htype, _, ⟨hnew, rfl⟩, _, ⟨hroom, rfl⟩, hrest⟩
    refine ⟨⟨⟨hname, htype⟩, hroom, ?_⟩, hrest⟩
    rintro _ rfl
    exact ⟨hnew, hcount⟩
  · rintro ⟨⟨⟨hname, htype⟩, hroom, hfree⟩, hrest⟩
    obtain ⟨hnew, hcount⟩ := hfree record.name rfl
    exact ⟨(), hcount, (), hname, (), htype, _, ⟨hnew, rfl⟩, _, ⟨hroom, rfl⟩, hrest⟩

theorem writes_records (records : List DiscoveryRecord) (st : Staging) :
    Writes limits st (recordsItems st.id records) (records.foldlM (addRecord limits) st) := by
  induction records generalizing st with
  | nil => simp [Writes, recordsItems, AcceptsAll, pure, Except.pure]
  | cons record records ih =>
    have hid : ((recordItems (st.id + 1) record).foldl Staging.put st).id = st.id + 1 := by
      rw [recordItems, List.foldl_cons]
      exact foldl_put_id (List.forall_mem_append.mpr
        ⟨List.forall_mem_map.mpr fun _ _ _ => rfl, List.forall_mem_map.mpr fun _ _ _ => rfl⟩)
    have hrest := ih ((recordItems (st.id + 1) record).foldl Staging.put st)
    rw [hid] at hrest
    rw [List.foldlM_cons, recordsItems]
    exact (writes_addRecord st record).bind hrest

theorem prepareDiscoveryCatalog_iff {generation : Nat} {identity : FinMap String String}
    {records : List DiscoveryRecord} {catalog : DiscoveryCatalog} :
    prepareDiscoveryCatalog limits generation identity records = .ok catalog ↔
      AcceptsAll limits { catalog := { generation := generation } }
          (catalogItems identity records) ∧
        ((catalogItems identity records).foldl Staging.put
          { catalog := { generation := generation } }).catalog = catalog := by
  let start : Staging := { catalog := { generation := generation } }
  have hinfo : Writes limits start (identity.entries.map fun p => .info 0 p.1 p.2)
      (identity.entries.foldlM (addProperty limits) start) :=
    writes_foldlM (g := fun id (p : String × String) => .info id p.1 p.2) writes_addProperty
      (fun _ _ => rfl) _ start
  have hid : ((identity.entries.map fun p => Item.info 0 p.1 p.2).foldl Staging.put start).id = 0 :=
    foldl_put_id (List.forall_mem_map.mpr fun _ _ _ => rfl)
  have hrecords : Writes limits _ _ _ := writes_records records
    ((identity.entries.map fun p => Item.info 0 p.1 p.2).foldl Staging.put start)
  rw [hid] at hrecords
  have hboth := hinfo.bind (f := fun st => records.foldlM (addRecord limits) st) hrecords
  -- what is left is the message at the end
  rw [catalogItems, ← List.append_assoc]
  generalize (identity.entries.map fun p => Item.info 0 p.1 p.2) ++ recordsItems 0 records = front
    at hboth ⊢
  rw [acceptsAll_append, List.foldl_append]
  simp only [prepareDiscoveryCatalog, AcceptsAll, Accepts, Item.Valid, Item.name?, and_true,
    true_and, List.foldl_cons, List.foldl_nil, reduceCtorEq, false_implies, implies_true]
  constructor
  · intro h
    obtain ⟨st, hidentity, hrest⟩ := bind_eq_ok.mp h
    obtain ⟨st', hloop, hrest⟩ := bind_eq_ok.mp hrest
    obtain ⟨wire, hmessage, hdone⟩ := bind_eq_ok.mp hrest
    obtain ⟨haccepts, rfl⟩ := (hboth st').mp (bind_eq_ok.mpr ⟨st, hidentity, hloop⟩)
    obtain ⟨hroom, rfl⟩ := message_ok_iff.mp hmessage
    exact ⟨⟨haccepts, hroom⟩, Except.ok.inj hdone⟩
  · rintro ⟨⟨haccepts, hroom⟩, rfl⟩
    obtain ⟨st, hidentity, hloop⟩ := bind_eq_ok.mp ((hboth _).mpr ⟨haccepts, rfl⟩)
    exact bind_eq_ok.mpr ⟨st, hidentity, bind_eq_ok.mpr ⟨_, hloop,
      bind_eq_ok.mpr ⟨_, message_ok_iff.mpr ⟨hroom, rfl⟩, rfl⟩⟩⟩

/-! ## The checks of all items together -/

@[simp] theorem put_wire (st : Staging) (item : Item) :
    (st.put item).catalog.wire = st.catalog.wire ++ item.write := by
  cases item <;> rfl

theorem put_count (st : Staging) (item : Item) :
    (st.put item).catalog.records + (st.put item).catalog.aliases =
      st.catalog.records + st.catalog.aliases + item.name?.toList.length := by
  cases item <;> simp [Staging.put, Item.name?] <;> omega

theorem mem_put_keys {name : String} :
    name ∈ (st.put item).names.keys ↔ name ∈ st.names.keys ∨ item.name? = some name := by
  cases item <;> simp [Staging.put, Item.name?, FinMap.mem_keys_insert, eq_comm]

/-- What a list of items leaves behind. -/
theorem foldl_put (items : List Item) (st : Staging) :
    (items.foldl Staging.put st).catalog.wire = st.catalog.wire ++ items.flatMap Item.write ∧
    (items.foldl Staging.put st).catalog.records + (items.foldl Staging.put st).catalog.aliases =
      st.catalog.records + st.catalog.aliases + (items.filterMap Item.name?).length ∧
    (items.foldl Staging.put st).catalog.generation = st.catalog.generation := by
  induction items generalizing st with
  | nil => simp
  | cons item items ih =>
    obtain ⟨hwire, hcount, hgeneration⟩ := ih (st.put item)
    rw [List.foldl_cons, hwire, hcount, hgeneration, put_count]
    refine ⟨by simp, ?_, by cases item <;> rfl⟩
    cases hname : item.name? <;> simp [hname]
    omega

/-- The checks along the way come to checks of the whole. -/
theorem acceptsAll_iff (hcount : st.catalog.records + st.catalog.aliases ≤ limits.maxRecords)
    (hwire : st.catalog.wire.length ≤ limits.maxBytes) : AcceptsAll limits st items ↔
      (∀ item ∈ items, item.Valid) ∧ (items.filterMap Item.name?).Nodup ∧
      (∀ name ∈ items.filterMap Item.name?, name ∉ st.names.keys) ∧
      st.catalog.records + st.catalog.aliases + (items.filterMap Item.name?).length ≤
        limits.maxRecords ∧
      st.catalog.wire.length + (items.flatMap Item.write).length ≤ limits.maxBytes := by
  induction items generalizing st with
  | nil => simp [AcceptsAll, hcount, hwire]
  | cons item items ih =>
    have hput := put_count st item
    simp only [AcceptsAll, Accepts, List.forall_mem_cons, List.flatMap_cons, List.length_append]
    cases hname : item.name? with
    | none =>
      rw [hname] at hput
      have hkeys (name : String) : name ∈ (st.put item).names.keys ↔ name ∈ st.names.keys := by
        simp [mem_put_keys, hname]
      rw [List.filterMap_cons_none hname]
      constructor
      · rintro ⟨⟨hvalid, hroom, -⟩, hrest⟩
        have hrest := (ih (by simpa [hput] using hcount) (by simpa using hroom)).mp hrest
        simp only [hkeys, hput, put_wire, List.length_append] at hrest
        exact ⟨⟨hvalid, hrest.1⟩, hrest.2.1, hrest.2.2.1, by simpa using hrest.2.2.2.1,
          by simpa [Nat.add_assoc] using hrest.2.2.2.2⟩
      · rintro ⟨⟨hvalid, hall⟩, hdistinct, hfree, hnames, hroom⟩
        refine ⟨⟨hvalid, by omega, by simp⟩, (ih (by simpa [hput] using hcount) ?_).mpr ?_⟩
        · rw [put_wire, List.length_append]
          omega
        · simp only [hkeys, hput, put_wire, List.length_append]
          exact ⟨hall, hdistinct, hfree, by simpa using hnames, by omega⟩
    | some name =>
      rw [hname] at hput
      have hkeys (n : String) :
          n ∈ (st.put item).names.keys ↔ n ∈ st.names.keys ∨ n = name := by
        simp [mem_put_keys, hname, eq_comm]
      rw [List.filterMap_cons_some hname]
      simp only [Option.some.injEq, forall_eq', List.nodup_cons, List.forall_mem_cons,
        List.length_cons]
      simp only [Option.toList_some, List.length_singleton] at hput
      constructor
      · rintro ⟨⟨hvalid, hroom, hnew, hlt⟩, hrest⟩
        have hrest := (ih (by omega) (by simpa using hroom)).mp hrest
        simp only [hkeys, hput, put_wire, List.length_append, not_or] at hrest
        obtain ⟨hall, hdistinct, hfree, hnames, hbytes⟩ := hrest
        exact ⟨⟨hvalid, hall⟩, ⟨fun hmem => (hfree name hmem).2 rfl, hdistinct⟩,
          ⟨hnew, fun n hn => (hfree n hn).1⟩, by omega, by omega⟩
      · rintro ⟨⟨hvalid, hall⟩, ⟨hout, hdistinct⟩, ⟨hnew, hfree⟩, hnames, hroom⟩
        refine ⟨⟨hvalid, by omega, hnew, by omega⟩, (ih (by omega) ?_).mpr ?_⟩
        · rw [put_wire, List.length_append]
          omega
        · simp only [hkeys, hput, put_wire, List.length_append, not_or]
          exact ⟨hall, hdistinct, fun n hn => ⟨hfree n hn, fun heq => hout (heq ▸ hn)⟩, by omega,
            by omega⟩

end Loops

/-! ## Prepared catalogs -/

section Catalog

variable {limits : DiscoveryConfig} {generation : Nat} {identity : FinMap String String}
  {records : List DiscoveryRecord} {catalog : DiscoveryCatalog}

/-- The conditions on the input under which a catalog can be prepared. -/
def Preparable (limits : DiscoveryConfig) (identity : FinMap String String)
    (records : List DiscoveryRecord) : Prop :=
  (∀ item ∈ catalogItems identity records, item.Valid) ∧ (recordNames records).Nodup ∧
    (recordNames records).length ≤ limits.maxRecords ∧
    ((catalogItems identity records).flatMap Item.write).length ≤ limits.maxBytes

theorem acceptsAll_catalogItems :
    AcceptsAll limits { catalog := { generation := generation } } (catalogItems identity records) ↔
      Preparable limits identity records := by
  rw [acceptsAll_iff (by simp) (by simp), filterMap_name_catalogItems]
  simp [Preparable, FinMap.keys]

theorem recordsItems_id (id : Nat) (h : item ∈ recordsItems id records) :
    item.number ≤ id + records.length := by
  induction records generalizing id with
  | nil => simp [recordsItems] at h
  | cons record records ih =>
    rw [List.length_cons]
    rcases List.mem_append.mp h with hown | hrest
    · have hid : item.number = id + 1 := by
        simp only [recordItems, List.mem_cons, List.mem_append, List.mem_map] at hown
        rcases hown with rfl | ⟨name, -, rfl⟩ | ⟨p, -, rfl⟩ <;> rfl
      omega
    · have := ih (id + 1) hrest
      omega

/-- The texts are checked against the widths, and the limit of records is a 32 bit number. -/
theorem fits_catalogItems (hlimits : limits.maxRecords < 2 ^ 32)
    (h : Preparable limits identity records) :
    ∀ item ∈ catalogItems identity records, item.Fits := by
  obtain ⟨hvalid, -, hcount, -⟩ := h
  have hrecords := length_le_recordNames records
  intro item hitem
  have hid : item.number < 2 ^ 32 := by
    simp only [catalogItems, List.mem_append, List.mem_map, List.mem_singleton] at hitem
    rcases hitem with ⟨p, -, rfl⟩ | hrest | rfl
    · exact show 0 < 2 ^ 32 by decide
    · have := recordsItems_id 0 hrest
      omega
    · exact show 0 < 2 ^ 32 by decide
  have hitem := hvalid item hitem
  cases item with
  | info id key value =>
    exact ⟨hid, Nat.lt_succ_of_le (validateText_ok hitem.1),
      Nat.lt_succ_of_le (validateText_ok hitem.2.1)⟩
  | pv id type name =>
    exact ⟨hid, Nat.lt_succ_of_le (validateText_ok hitem.2),
      Nat.lt_succ_of_le (validateText_ok hitem.1)⟩
  | pvAlias id name => exact ⟨hid, Nat.lt_succ_of_le (validateText_ok hitem)⟩
  | done => trivial

theorem decode_flatMap {items : List Item} (h : ∀ item ∈ items, item.Fits) :
    decode (items.flatMap Item.write) = some items :=
  unframe_flatMap (fun item hitem => faithful_item (h item hitem)) (le_refl _)

/-- **The catalog round-trips on the wire**: it can be prepared exactly under the stated
    conditions, the reader finds its items in order and nothing else, and no field is truncated. -/
theorem prepareDiscoveryCatalog_roundTrip (hlimits : limits.maxRecords < 2 ^ 32) :
    ((∃ catalog, prepareDiscoveryCatalog limits generation identity records = .ok catalog) ↔
      Preparable limits identity records) ∧
    ∀ catalog, prepareDiscoveryCatalog limits generation identity records = .ok catalog →
      decode catalog.wire = some (catalogItems identity records) ∧
      ∀ item ∈ catalogItems identity records, item.Fits := by
  simp only [prepareDiscoveryCatalog_iff, acceptsAll_catalogItems]
  refine ⟨⟨fun ⟨_, h, _⟩ => h, fun h => ⟨_, h, rfl⟩⟩, ?_⟩
  rintro catalog ⟨hprepared, rfl⟩
  have hfits := fits_catalogItems hlimits hprepared
  refine ⟨?_, hfits⟩
  rw [(foldl_put _ _).1]
  exact decode_flatMap hfits

theorem prepareDiscoveryCatalog_roundTrip_oneRecord :
    ∃ catalog, prepareDiscoveryCatalog {} 1 (FinMap.ofList [("host", "a")])
        [{ name := "pv", type := "ai", aliases := ["x"] }] = .ok catalog ∧
      decode catalog.wire =
        some [.info 0 "host" "a", .pv 1 "ai" "pv", .pvAlias 1 "x", .done] := by
  have hok : (prepareDiscoveryCatalog {} 1 (FinMap.ofList [("host", "a")])
      [{ name := "pv", type := "ai", aliases := ["x"] }]).toOption.isSome = true := by decide
  cases h : prepareDiscoveryCatalog {} 1 (FinMap.ofList [("host", "a")])
      [{ name := "pv", type := "ai", aliases := ["x"] }] with
  | error message =>
    rw [h] at hok
    cases hok
  | ok catalog =>
    exact ⟨catalog, rfl, ((prepareDiscoveryCatalog_roundTrip (by decide)).2 catalog h).1⟩

/-- **A prepared catalog** advertises exactly the names of its records, each once. -/
theorem prepareDiscoveryCatalog_ok (hlimits : limits.maxRecords < 2 ^ 32)
    (h : prepareDiscoveryCatalog limits generation identity records = .ok catalog) :
    catalogNames catalog.wire = some (recordNames records) ∧ (recordNames records).Nodup ∧
      catalog.records + catalog.aliases = (recordNames records).length ∧
      catalog.generation = generation := by
  rw [prepareDiscoveryCatalog_iff, acceptsAll_catalogItems] at h
  obtain ⟨hprepared, rfl⟩ := h
  obtain ⟨hwire, hcount, hgeneration⟩ := foldl_put (catalogItems identity records)
    { catalog := { generation := generation } }
  rw [filterMap_name_catalogItems] at hcount
  refine ⟨?_, hprepared.2.1, by simpa using hcount, hgeneration⟩
  rw [catalogNames, hwire]
  show (decode ((catalogItems identity records).flatMap Item.write)).map _ = _
  rw [decode_flatMap (fits_catalogItems hlimits hprepared), Option.map_some,
    filterMap_name_catalogItems]

end Catalog

/-! ## Failures -/

/-- The message of the duplicate checks. -/
def duplicateError (name : String) : String := "duplicate discovery PV: " ++ name

/-- All other messages begin differently. -/
theorem discovery_ne_duplicate (text name : String) :
    "discovery " ++ text ≠ duplicateError name := by
  intro h
  have hleft : ("discovery " ++ text).toList = 'd' :: 'i' :: ("scovery ".toList ++ text.toList) :=
    String.toList_append
  have hright : (duplicateError name).toList =
      'd' :: 'u' :: ("plicate discovery PV: ".toList ++ name.toList) := String.toList_append
  have hchars := hleft.symm.trans ((congrArg String.toList h).trans hright)
  exact absurd (List.cons.inj (List.cons.inj hchars).2).1 (by decide)

section Failures

variable {limits : DiscoveryConfig} {st : Staging} {names : List String} {name : String}

theorem validateText_ne_duplicate (value : String) (maximum : Nat) (field : String)
    (allowEmpty : Bool) : validateText value maximum field allowEmpty ≠ .error (duplicateError name) := by
  unfold validateText
  split
  · intro h
    rw [String.append_assoc] at h
    exact discovery_ne_duplicate _ _ (Except.error.inj h)
  · intro h
    cases h

theorem message_ne_duplicate (wire : Bytes) (id : Nat) (body : Bytes) (maximum : Nat) :
    message wire id body maximum ≠ .error (duplicateError name) := by
  unfold message
  split
  · intro h
    exact discovery_ne_duplicate "catalog exceeds max_bytes" name (Except.error.inj h)
  · intro h
    cases h

theorem checkRecords_ne_duplicate (st : Staging) :
    checkRecords limits st ≠ .error (duplicateError name) := by
  unfold checkRecords
  split
  · intro h
    exact discovery_ne_duplicate "catalog exceeds max_records" name (Except.error.inj h)
  · intro h
    cases h

theorem addProperty_ne_duplicate (st : Staging) (property : String × String) :
    addProperty limits st property ≠ .error (duplicateError name) := by
  refine bind_ne_error ?_ fun _ _ h => by cases h
  refine bind_ne_error (validateText_ne_duplicate _ _ _ _) fun _ _ => ?_
  refine bind_ne_error (validateText_ne_duplicate _ _ _ _) fun _ _ => ?_
  split
  · intro h
    exact discovery_ne_duplicate "property names must be ASCII" name (Except.error.inj h)
  · exact message_ne_duplicate _ _ _ _

/-- The names inserted so far are among `names`. -/
def Within (names : List String) (st : Staging) : Prop := ∀ n ∈ st.names.keys, n ∈ names

theorem insertName_ne_duplicate {added : String} (h : Within names st) (hnew : added ∉ names) :
    insertName st.names added ≠ .error (duplicateError name) := by
  unfold insertName
  rw [if_neg]
  · intro h
    cases h
  · rw [← FinMap.mem_keys_iff_contains]
    exact fun hmem => hnew (h added hmem)

theorem addAlias_ne_duplicate {added : String} (h : Within names st) (hnew : added ∉ names) :
    addAlias limits st added ≠ .error (duplicateError name) := by
  refine bind_ne_error (checkRecords_ne_duplicate st) fun _ _ => ?_
  refine bind_ne_error (validateText_ne_duplicate _ _ _ _) fun _ _ => ?_
  refine bind_ne_error (insertName_ne_duplicate h hnew) fun _ _ => ?_
  exact bind_ne_error (message_ne_duplicate _ _ _ _) fun _ _ h => by cases h

/-- One more item, one more name at most. -/
theorem Within.put (h : Within names st) (item : Item) :
    Within (names ++ item.name?.toList) (st.put item) := by
  intro n hn
  rcases mem_put_keys.mp hn with hold | hown
  · exact List.mem_append_left _ (h n hold)
  · exact List.mem_append_right _ (by simp [hown])

theorem Within.puts (h : Within names st) (items : List Item) :
    Within (names ++ items.filterMap Item.name?) (items.foldl Staging.put st) := by
  induction items generalizing names st with
  | nil => simpa using h
  | cons item items ih =>
    have hrest := ih (h.put item)
    rw [List.foldl_cons]
    cases hname : item.name? <;> simpa [hname] using hrest

theorem addRecord_ne_duplicate {record : DiscoveryRecord} (h : Within names st)
    (hnew : (names ++ record.name :: record.aliases).Nodup) :
    addRecord limits st record ≠ .error (duplicateError name) := by
  obtain ⟨-, -, hdisjoint⟩ := List.nodup_append.mp hnew
  refine bind_ne_error (checkRecords_ne_duplicate st) fun _ _ => ?_
  refine bind_ne_error (validateText_ne_duplicate _ _ _ _) fun _ _ => ?_
  refine bind_ne_error (validateText_ne_duplicate _ _ _ _) fun _ _ => ?_
  refine bind_ne_error (insertName_ne_duplicate h
    fun hmem => hdisjoint _ hmem _ List.mem_cons_self rfl) fun names' hinsert => ?_
  refine bind_ne_error (message_ne_duplicate _ _ _ _) fun wire hmessage => ?_
  obtain ⟨-, rfl⟩ := insertName_ok_iff.mp hinsert
  obtain ⟨-, rfl⟩ := message_ok_iff.mp hmessage
  refine bind_ne_error ?_ fun stA _ => ?_
  · -- before each alias the names inserted are a proper part of the names that are distinct
    refine foldlM_ne_error (P := fun done acc => Within (names ++ record.name :: done) acc) ?_ ?_ ?_
    · intro done added rest acc acc' _ hacc hstep
      obtain ⟨-, rfl⟩ := (writes_addAlias acc added acc').mp hstep
      simpa [Item.name?] using hacc.put (.pvAlias acc.id added)
    · intro done added rest acc hsplit hacc
      refine addAlias_ne_duplicate hacc fun hmem => ?_
      have hall : (names ++ record.name :: done ++ added :: rest).Nodup := by
        rw [hsplit] at hnew
        simpa using hnew
      exact (List.nodup_append.mp hall).2.2 _ hmem _ List.mem_cons_self rfl
    · exact h.put (.pv (st.id + 1) record.type record.name)
  · exact foldlM_ne_error (P := fun _ _ => True) (fun _ _ _ _ _ _ _ _ => trivial)
      (fun _ property _ acc _ _ => addProperty_ne_duplicate acc property) trivial

/-- **Distinct names are never refused as duplicates.** -/
theorem prepareDiscoveryCatalog_distinct {generation : Nat} {identity : FinMap String String}
    {records : List DiscoveryRecord} (hdistinct : (recordNames records).Nodup) :
    prepareDiscoveryCatalog limits generation identity records ≠ .error (duplicateError name) := by
  refine bind_ne_error ?_ fun st hidentity => ?_
  · exact foldlM_ne_error (P := fun _ _ => True) (fun _ _ _ _ _ _ _ _ => trivial)
      (fun _ property _ acc _ _ => addProperty_ne_duplicate acc property) trivial
  · obtain ⟨-, rfl⟩ := (writes_foldlM (g := fun id (p : String × String) => .info id p.1 p.2)
      writes_addProperty (fun _ _ => rfl) _ _ st).mp hidentity
    refine bind_ne_error ?_ fun _ _ =>
      bind_ne_error (message_ne_duplicate _ _ _ _) fun _ _ h => by cases h
    refine foldlM_ne_error (P := fun done acc => Within (recordNames done) acc) ?_ ?_ ?_
    · intro done record rest acc acc' _ hacc hstep
      obtain ⟨-, rfl⟩ := (writes_addRecord acc record acc').mp hstep
      rw [recordNames_append, ← filterMap_name_recordItems]
      exact hacc.puts _
    · intro done record rest acc hsplit hacc
      refine addRecord_ne_duplicate hacc ?_
      rw [← recordNames_append]
      rw [hsplit, List.append_cons, recordNames, List.flatMap_append] at hdistinct
      exact (List.nodup_append.mp hdistinct).1
    · have hnone : (identity.entries.map fun p => Item.info 0 p.1 p.2).filterMap Item.name? = [] := by
        simp [List.filterMap_eq_nil_iff, Item.name?]
      have hstart : Within [] { catalog := { generation := generation } } := by
        simp [Within, FinMap.keys]
      have hputs := hstart.puts (identity.entries.map fun p => Item.info 0 p.1 p.2)
      rwa [hnone] at hputs

end Failures

end RedisPvxsIoc.Discovery
