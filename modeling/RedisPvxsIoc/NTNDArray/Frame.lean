import RedisPvxsIoc.NTNDArray.Shape
import RedisPvxsIoc.Runtime.NDArray
import Mathlib.Algebra.Order.BigOperators.GroupWithZero.List

/-!
# Reading a Frame

Model of `parseNDArrayFrame` in `src/ntndarray.cpp`: an entry of the stream is a map from field
names to byte strings, and a frame is accepted when its fields fit together.  The byte order of
the host is an argument, because the payload is converted to it.

The sizes are computed in 64-bit arithmetic behind guards that divide.

## Main results

- `guardedProduct_eq`, `countElements_eq`: no multiplication wraps
- `parseNDArrayFrame_ok`: the frames that are accepted
- `frame_accepted_iff_consistent`: both together
-/

namespace RedisPvxsIoc.NTNDArray

open Foundations
open Config (PrimitiveType)
open Runtime.NDArray (NDArrayFrame)

/-! ## Data -/

abbrev NDArrayAttrs := FinMap String Bytes

def kNTNDArrayRedisSchema : String := "fermi-ad/redis-adapter/ntndarray:1"

def kNTNDArrayPayloadField : String := "_"

inductive NDColorMode where
  | mono | rgb1 | rgb2 | rgb3
  deriving DecidableEq, Repr

inductive NDTimeSource where
  | unknown | host | cameraCorrelated | ptp | externalTrigger
  deriving DecidableEq, Repr

structure NDTimeProvenance where
  source : NDTimeSource := .unknown
  uncertaintyNs : Option Nat := none
  cameraTimestamp : Option Nat := none
  cameraTimestampHz : Option Nat := none
  deriving DecidableEq, Repr

/-- What a frame carries besides its `uniqueId`. -/
structure FrameContent where
  dataType : PrimitiveType
  shape : List Nat
  colorMode : NDColorMode
  payload : Bytes
  dataTimestampNs : Nat
  provenance : NDTimeProvenance
  deriving DecidableEq, Repr

/-! ## Fields -/

/-- `if (!condition) throw std::runtime_error(message)` -/
def demand (condition : Prop) [Decidable condition] (message : String) : Except String Unit :=
  if condition then .ok () else .error message

def required (attrs : NDArrayAttrs) (name : String) : Except String Bytes :=
  (attrs.find? name).elim (.error ("missing field '" ++ name ++ "'")) .ok

/-- `parseSigned<int64_t>` -/
def parseSigned (value : Bytes) (name : String) : Except String Int :=
  match fromCharsSigned 63 value with
  | some (result, []) => .ok result
  | _ => .error ("invalid signed integer in '" ++ name ++ "'")

/-- The element types in the order of their numbers. -/
def dataTypes : List PrimitiveType :=
  [.int8, .uint8, .int16, .uint16, .int32, .uint32, .int64, .uint64, .float32, .float64]

def parseDataType (text : Bytes) : Except String PrimitiveType := do
  let number ← parseUnsigned 32 text "data_type"
  (dataTypes[number]?).elim (.error "unsupported numeric data_type") .ok

def colorModes : List (Bytes × NDColorMode) :=
  [("mono".toList, .mono), ("rgb1".toList, .rgb1), ("rgb2".toList, .rgb2), ("rgb3".toList, .rgb3)]

def parseColorMode (text : Bytes) : Except String NDColorMode :=
  (colorModes.lookup text).elim (.error "unsupported color_mode") .ok

def timeSources : List (Bytes × NDTimeSource) :=
  [("unknown".toList, .unknown), ("host".toList, .host),
    ("camera_correlated".toList, .cameraCorrelated), ("ptp".toList, .ptp),
    ("external_trigger".toList, .externalTrigger)]

def parseTimeSource (value : Bytes) : Except String NDTimeSource :=
  (timeSources.lookup value).elim
    (.error ("unsupported time_source '" ++ String.ofList value ++ "'")) .ok

/-- `parseOptionalUnsigned<uint64_t>` -/
def parseOptionalUnsigned (attrs : NDArrayAttrs) (name : String) : Except String (Option Nat) :=
  match attrs.find? name with
  | none => .ok none
  | some value => some <$> parseUnsigned 64 value name

/-- The dimension that holds the three channels of a colour mode. -/
def NDColorMode.channelDimension : NDColorMode → Option Nat
  | .mono => none
  | .rgb1 => some 0
  | .rgb2 => some 1
  | .rgb3 => some 2

def validateColorShape (mode : NDColorMode) (shape : List Nat) : Except String Unit :=
  match mode.channelDimension with
  | none => .ok ()
  | some channel =>
    demand (shape[channel]? = some 3)
      "RGB color mode requires a size-3 channel dimension in the matching layout"

def elementSize : PrimitiveType → Except String Nat
  | .int8 | .uint8 => .ok 1
  | .int16 | .uint16 => .ok 2
  | .int32 | .uint32 | .float32 => .ok 4
  | .int64 | .uint64 | .float64 => .ok 8
  | .boolean | .string => .error "non-numeric NTNDArray element type"

/-! ## Sizes -/

/-- A product in 64-bit arithmetic, behind the guard of the source. -/
def guardedProduct (x y : Nat) (message : String) : Except String Nat :=
  if (2 ^ 64 - 1) / y < x then .error message else .ok (x * y % 2 ^ 64)

def countElements (shape : List Nat) : Except String Nat :=
  shape.foldlM (fun elements dimension =>
    guardedProduct elements dimension "shape element-count overflow") 1

def countBytes (elements width : Nat) : Except String Nat :=
  guardedProduct elements width "frame byte-count overflow"

/-- Turn around each of the first `count` elements. -/
def reverseElements (width : Nat) : (count : Nat) → Bytes → Bytes
  | 0, payload => payload
  | count + 1, payload =>
    (payload.take width).reverse ++ reverseElements width count (payload.drop width)

/-- The payload in the byte order of the host. -/
def hostOrder (littleEndian : Bool) (width : Nat) (payload : Bytes) : Bytes :=
  if 1 < width ∧ littleEndian = false then reverseElements width (payload.length / width) payload
  else payload

/-! ## The frame -/

def parseUniqueId (text : Bytes) : Except String (BitVec 32) := do
  let uniqueId ← parseSigned text "unique_id"
  demand (-2 ^ 31 ≤ uniqueId ∧ uniqueId < 2 ^ 31) "unique_id exceeds NTNDArray int32 range"
  return BitVec.ofInt 32 uniqueId

def parseProvenanceSource (attrs : NDArrayAttrs) : Except String NDTimeSource :=
  match attrs.find? "time_source" with
  | none => .ok .unknown
  | some value => parseTimeSource value

def parseProvenance (attrs : NDArrayAttrs) : Except String NDTimeProvenance := do
  let source ← parseProvenanceSource attrs
  let uncertaintyNs ← parseOptionalUnsigned attrs "time_uncertainty_ns"
  let cameraTimestamp ← parseOptionalUnsigned attrs "camera_timestamp"
  let cameraTimestampHz ← parseOptionalUnsigned attrs "camera_timestamp_hz"
  return { source, uncertaintyNs, cameraTimestamp, cameraTimestampHz }

def parseNDArrayFrame (littleEndian : Bool) (attrs : NDArrayAttrs) (streamTimestampNs : Int)
    (maxFrameBytes : UInt64) : Except String (NDArrayFrame FrameContent) := do
  let schema ← required attrs "schema"
  demand (schema = kNTNDArrayRedisSchema.toList) "unsupported schema"
  demand (0 < streamTimestampNs) "Redis Stream ID is outside the supported POSIX range"
  let dataType ← parseDataType (← required attrs "data_type")
  let shape ← parseShape (← required attrs "shape")
  let colorMode ← parseColorMode (← required attrs "color_mode")
  validateColorShape colorMode shape
  let uniqueId ← parseUniqueId (← required attrs "unique_id")
  let provenance ← parseProvenance attrs
  let elements ← countElements shape
  let width ← elementSize dataType
  let expectedBytes ← countBytes elements width
  demand (expectedBytes ≤ maxFrameBytes.toNat) "frame exceeds max_frame_bytes"
  let payload ← required attrs kNTNDArrayPayloadField
  demand (payload.length = expectedBytes) "payload length does not match data_type and shape"
  return {
    uniqueId
    content := {
      dataType, shape, colorMode, provenance
      dataTimestampNs := streamTimestampNs.toNat
      payload := hostOrder littleEndian width payload } }

/-! ## No multiplication wraps -/

variable {x : Nat}

/-- Behind its guard a product is exact, and the guard fails only where it is not. -/
theorem guardedProduct_eq {y : Nat} (hy : 0 < y) (message : String) :
    guardedProduct x y message = if x * y < 2 ^ 64 then .ok (x * y) else .error message := by
  have hguard : (2 ^ 64 - 1) / y < x ↔ ¬ x * y < 2 ^ 64 := by
    rw [Nat.div_lt_iff_lt_mul hy]
    omega
  unfold guardedProduct
  split_ifs with hbig hfits hfits
  · exact absurd hfits (hguard.mp hbig)
  · rfl
  · rw [Nat.mod_eq_of_lt hfits]
  · exact absurd (hguard.mpr hfits) hbig

variable {message : String}

theorem guardedProduct_exact {y z : Nat} (h : guardedProduct x y message = .ok z) : z = x * y := by
  rcases Nat.eq_zero_or_pos y with rfl | hy
  · unfold guardedProduct at h
    split_ifs at h
    exact (Except.ok.inj h).symm
  · rw [guardedProduct_eq hy] at h
    split_ifs at h
    exact (Except.ok.inj h).symm

variable {shape : List Nat}

theorem foldlM_guardedProduct (hshape : ∀ d ∈ shape, 0 < d) (message : String) (hx : x < 2 ^ 64) :
    shape.foldlM (fun elements dimension => guardedProduct elements dimension message) x =
      if x * shape.prod < 2 ^ 64 then .ok (x * shape.prod) else .error message := by
  induction shape generalizing x with
  | nil => rw [List.prod_nil, Nat.mul_one, if_pos hx, List.foldlM_nil]; rfl
  | cons d shape ih =>
    obtain ⟨hd, hrest⟩ := List.forall_mem_cons.mp hshape
    have hprod : 0 < shape.prod := List.prod_pos fun n hn => hrest n hn
    rw [List.foldlM_cons, guardedProduct_eq hd, List.prod_cons, ← Nat.mul_assoc]
    split_ifs with hfirst hall hall
    · exact (ih hrest hfirst).trans (if_pos hall)
    · exact (ih hrest hfirst).trans (if_neg hall)
    · -- the product grows with every dimension, so an overflow is not undone by later ones
      exact absurd (lt_of_le_of_lt (Nat.le_mul_of_pos_right _ hprod) hall) hfirst
    · rfl

theorem countElements_eq (hshape : ∀ d ∈ shape, 0 < d) :
    countElements shape = if shape.prod < 2 ^ 64 then .ok shape.prod
      else .error "shape element-count overflow" := by
  have hloop := foldlM_guardedProduct hshape "shape element-count overflow" (x := 1) (by decide)
  rwa [Nat.one_mul] at hloop

variable {text : Bytes}

theorem parseShape_pos (h : parseShape text = .ok shape) :
    ∀ d ∈ shape, 0 < d := by
  obtain ⟨a, -, hshape, -, rfl⟩ := parseShape_ok_iff.mp h
  exact fun d hd => (hshape.2 d hd).1

theorem elementSize_pos {type : PrimitiveType} {width : Nat} (h : elementSize type = .ok width) :
    0 < width := by
  cases type <;> cases h <;> decide

/-! ## What each field says -/

theorem demand_ok {condition : Prop} [Decidable condition] {u : Unit} :
    demand condition message = .ok u ↔ condition := by
  unfold demand
  split_ifs with h <;> simp [h]

theorem elim_ok {α : Type} {x : Option α} {a : α} :
    (x.elim (.error message) .ok : Except String α) = .ok a ↔ x = some a := by
  cases x <;> simp

variable {attrs : NDArrayAttrs} {name : String}

theorem required_ok {value : Bytes} :
    required attrs name = .ok value ↔ attrs.find? name = some value :=
  elim_ok

theorem parseSigned_ok {value : Bytes} {n : Int} :
    parseSigned value name = .ok n ↔ IsSigned value n ∧ -2 ^ 63 ≤ n ∧ n < 2 ^ 63 := by
  rw [← fromCharsSigned_all]
  unfold parseSigned
  split
  · rename_i result hread
    rw [hread]
    simp
  · rename_i hread
    simpa using hread n

theorem parseDataType_ok {type : PrimitiveType} :
    parseDataType text = .ok type ↔ IsDigits text ∧ dataTypes[decimal text]? = some type := by
  unfold parseDataType
  simp only [bind_eq_ok, parseUnsigned_ok, elim_ok]
  constructor
  · rintro ⟨n, ⟨hdigits, rfl, -⟩, htype⟩
    exact ⟨hdigits, htype⟩
  · rintro ⟨hdigits, htype⟩
    obtain ⟨hlt, -⟩ := List.getElem?_eq_some_iff.mp htype
    have hten : dataTypes.length = 10 := rfl
    exact ⟨_, ⟨hdigits, rfl, by omega⟩, htype⟩

theorem validateColorShape_ok {mode : NDColorMode} {u : Unit} :
    validateColorShape mode shape = .ok u ↔
      ∀ channel ∈ mode.channelDimension, shape[channel]? = some 3 := by
  unfold validateColorShape
  cases mode.channelDimension with
  | none => simp
  | some channel => simp [demand_ok]

theorem parseUniqueId_ok {id : BitVec 32} :
    parseUniqueId text = .ok id ↔ IsSigned text id.toInt := by
  unfold parseUniqueId
  simp only [bind_eq_ok, parseSigned_ok, demand_ok]
  constructor
  · rintro ⟨n, ⟨hsigned, -⟩, _, ⟨hlow, hhigh⟩, hid⟩
    have htoInt : id.toInt = n := by
      rw [← Except.ok.inj hid, BitVec.toInt_ofInt]
      exact Int.bmod_eq_of_le (by omega) (by omega)
    rwa [htoInt]
  · intro hsigned
    have hlow := BitVec.le_toInt id
    have hhigh := BitVec.toInt_lt (x := id)
    refine ⟨id.toInt, ⟨hsigned, by omega, by omega⟩, (), ⟨by omega, by omega⟩, ?_⟩
    rw [BitVec.ofInt_toInt]
    rfl

/-- An optional field is absent, or the text of an unsigned number of 64 bits. -/
def OptionalUnsigned (attrs : NDArrayAttrs) (name : String) (value : Option Nat) : Prop :=
  (attrs.find? name = none ∧ value = none) ∨
    ∃ text, attrs.find? name = some text ∧ IsDigits text ∧ decimal text < 2 ^ 64 ∧
      value = some (decimal text)

theorem parseOptionalUnsigned_ok {value : Option Nat} :
    parseOptionalUnsigned attrs name = .ok value ↔ OptionalUnsigned attrs name value := by
  unfold parseOptionalUnsigned OptionalUnsigned
  cases attrs.find? name with
  | none => simp [eq_comm]
  | some text =>
    have hmap : (some <$> parseUnsigned 64 text name : Except String (Option Nat)) = .ok value ↔
        ∃ n, parseUnsigned 64 text name = .ok n ∧ value = some n := by
      cases parseUnsigned 64 text name <;> simp [eq_comm, Functor.map, Except.map]
    simp only [hmap, parseUnsigned_ok]
    constructor
    · rintro ⟨n, ⟨hdigits, rfl, hfits⟩, rfl⟩
      exact .inr ⟨text, rfl, hdigits, hfits, rfl⟩
    · rintro (⟨habsent, -⟩ | ⟨_, htext, hdigits, hfits, rfl⟩)
      · cases habsent
      · cases htext
        exact ⟨_, ⟨hdigits, rfl, hfits⟩, rfl⟩

/-- The source of the acquisition time that an entry names. -/
def TimeSourceOf (attrs : NDArrayAttrs) (source : NDTimeSource) : Prop :=
  (attrs.find? "time_source" = none ∧ source = .unknown) ∨
    ∃ text, attrs.find? "time_source" = some text ∧ timeSources.lookup text = some source

theorem parseProvenanceSource_ok {source : NDTimeSource} :
    parseProvenanceSource attrs = .ok source ↔ TimeSourceOf attrs source := by
  unfold parseProvenanceSource TimeSourceOf
  cases attrs.find? "time_source" with
  | none => simp [eq_comm]
  | some text => simp [parseTimeSource, elim_ok]

/-- The provenance that the optional fields of an entry tell. -/
structure ProvenanceOf (attrs : NDArrayAttrs) (p : NDTimeProvenance) : Prop where
  source : TimeSourceOf attrs p.source
  uncertaintyNs : OptionalUnsigned attrs "time_uncertainty_ns" p.uncertaintyNs
  cameraTimestamp : OptionalUnsigned attrs "camera_timestamp" p.cameraTimestamp
  cameraTimestampHz : OptionalUnsigned attrs "camera_timestamp_hz" p.cameraTimestampHz

theorem parseProvenance_ok {p : NDTimeProvenance} :
    parseProvenance attrs = .ok p ↔ ProvenanceOf attrs p := by
  unfold parseProvenance
  simp only [bind_eq_ok, parseOptionalUnsigned_ok, parseProvenanceSource_ok]
  constructor
  · rintro ⟨_, hsource, _, huncertainty, _, hcamera, _, hhz, hp⟩
    cases hp
    exact ⟨hsource, huncertainty, hcamera, hhz⟩
  · rintro ⟨hsource, huncertainty, hcamera, hhz⟩
    exact ⟨_, hsource, _, huncertainty, _, hcamera, _, hhz, rfl⟩

/-! ## Acceptance -/

/-- The fields of an entry are those of the frame and fit together. -/
structure Consistent (littleEndian : Bool) (attrs : NDArrayAttrs) (streamTimestampNs : Int)
    (maxFrameBytes : UInt64) (frame : NDArrayFrame FrameContent) : Prop where
  schema : attrs.find? "schema" = some kNTNDArrayRedisSchema.toList
  timestamp : 0 < streamTimestampNs ∧ frame.content.dataTimestampNs = streamTimestampNs.toNat
  dataType : ∃ text, attrs.find? "data_type" = some text ∧ IsDigits text ∧
    dataTypes[decimal text]? = some frame.content.dataType
  shape : ∃ text, attrs.find? "shape" = some text ∧ parseShape text = .ok frame.content.shape
  colorMode : ∃ text, attrs.find? "color_mode" = some text ∧
    colorModes.lookup text = some frame.content.colorMode
  channels : ∀ channel ∈ frame.content.colorMode.channelDimension,
    frame.content.shape[channel]? = some 3
  uniqueId : ∃ text, attrs.find? "unique_id" = some text ∧ IsSigned text frame.uniqueId.toInt
  provenance : ProvenanceOf attrs frame.content.provenance
  /-- The payload has the size that shape and type ask for, as a product of natural numbers. -/
  size : ∃ width payload, elementSize frame.content.dataType = .ok width ∧
    attrs.find? kNTNDArrayPayloadField = some payload ∧
    frame.content.shape.prod * width = payload.length ∧ payload.length ≤ maxFrameBytes.toNat ∧
    frame.content.payload = hostOrder littleEndian width payload

theorem parseNDArrayFrame_ok {littleEndian : Bool} {streamTimestampNs : Int}
    {maxFrameBytes : UInt64} {frame : NDArrayFrame FrameContent} :
    parseNDArrayFrame littleEndian attrs streamTimestampNs maxFrameBytes = .ok frame ↔
      Consistent littleEndian attrs streamTimestampNs maxFrameBytes frame := by
  have hmax : maxFrameBytes.toNat < 2 ^ 64 := maxFrameBytes.toNat_lt
  unfold parseNDArrayFrame
  simp only [bind_eq_ok, required_ok, demand_ok, parseDataType_ok, parseColorMode, elim_ok,
    validateColorShape_ok, parseUniqueId_ok, parseProvenance_ok]
  constructor
  · rintro ⟨_, hschema, _, rfl, _, htimestamp, _, htype, type, hdataType, _, hshapeText, shape,
      hshape, _, hmode, mode, hcolorMode, _, hchannels, _, hid, id, hsigned, provenance,
      hprovenance, elements, helements, width, hwidth, bytes, hbytes, _, hlimit, payload, hpayload,
      _, hlength, hframe⟩
    cases hframe
    rw [countElements_eq (parseShape_pos hshape)] at helements
    split_ifs at helements with hfew
    cases helements
    rw [countBytes, guardedProduct_eq (elementSize_pos hwidth)] at hbytes
    split_ifs at hbytes with hsmall
    cases hbytes
    exact {
      schema := hschema
      timestamp := ⟨htimestamp, rfl⟩
      dataType := ⟨_, htype, hdataType⟩
      shape := ⟨_, hshapeText, hshape⟩
      colorMode := ⟨_, hmode, hcolorMode⟩
      channels := hchannels
      uniqueId := ⟨_, hid, hsigned⟩
      provenance := hprovenance
      size := ⟨width, payload, hwidth, hpayload, hlength.symm, hlength ▸ hlimit, rfl⟩ }
  · intro h
    obtain ⟨_, htype, hdataType⟩ := h.dataType
    obtain ⟨_, hshapeText, hshape⟩ := h.shape
    obtain ⟨_, hmode, hcolorMode⟩ := h.colorMode
    obtain ⟨_, hid, hsigned⟩ := h.uniqueId
    obtain ⟨width, payload, hwidth, hpayload, hproduct, hlimit, hcontent⟩ := h.size
    -- the bytes fit a frame, so they and the elements fit 64 bits
    have hwidthPos := elementSize_pos hwidth
    have hbytes : frame.content.shape.prod * width < 2 ^ 64 := by omega
    have helements : frame.content.shape.prod < 2 ^ 64 :=
      lt_of_le_of_lt (Nat.le_mul_of_pos_right _ hwidthPos) hbytes
    refine ⟨_, h.schema, (), rfl, (), h.timestamp.1, _, htype, _, hdataType, _, hshapeText, _,
      hshape, _, hmode, _, hcolorMode, (), h.channels, _, hid, _, hsigned, _, h.provenance, _,
      (countElements_eq (parseShape_pos hshape)).trans (if_pos helements), width, hwidth, _,
      (guardedProduct_eq hwidthPos _).trans (if_pos hbytes), (), by omega, payload, hpayload, (),
      hproduct.symm, ?_⟩
    rw [← hcontent, ← h.timestamp.2]
    rfl

@[simp] theorem hostOrder_littleEndian (width : Nat) (payload : Bytes) :
    hostOrder true width payload = payload := by
  simp [hostOrder]

/-- **A frame is accepted exactly when its fields fit together**, with the size as an exact
    product: every multiplication that the parser makes is exact.  On a little-endian host the
    payload is taken over as it is. -/
theorem frame_accepted_iff_consistent (attrs : NDArrayAttrs) (streamTimestampNs : Int)
    (maxFrameBytes : UInt64) :
    (∀ littleEndian frame,
      parseNDArrayFrame littleEndian attrs streamTimestampNs maxFrameBytes = .ok frame ↔
        Consistent littleEndian attrs streamTimestampNs maxFrameBytes frame) ∧
      (∀ x y z message, guardedProduct x y message = .ok z → z = x * y) ∧
      ∀ frame, Consistent true attrs streamTimestampNs maxFrameBytes frame →
        attrs.find? kNTNDArrayPayloadField = some frame.content.payload := by
  refine ⟨fun _ _ => parseNDArrayFrame_ok, fun _ _ _ _ => guardedProduct_exact, ?_⟩
  intro frame h
  obtain ⟨width, payload, -, hpayload, -, -, hcontent⟩ := h.size
  rw [hpayload, hcontent, hostOrder_littleEndian]

/-! ## The entry of a runtime -/

/-- What a runtime sees of an entry: the frame, or the first 512 bytes of the error. -/
def streamEntry {Id : Type} (littleEndian : Bool) (maxFrameBytes : UInt64) (id : Id)
    (attrs : NDArrayAttrs) (streamTimestampNs : Int) :
    Runtime.NDArray.StreamEntry FrameContent Id :=
  { id
    frame := (parseNDArrayFrame littleEndian attrs streamTimestampNs maxFrameBytes).mapError
      fun message => String.ofList (message.toList.take 512) }

/-- The runtime posts exactly the consistent frames. -/
theorem streamEntry_frame_ok {Id : Type} {littleEndian : Bool} {maxFrameBytes : UInt64} {id : Id}
    {streamTimestampNs : Int} {frame : NDArrayFrame FrameContent} :
    (streamEntry littleEndian maxFrameBytes id attrs streamTimestampNs).frame = .ok frame ↔
      Consistent littleEndian attrs streamTimestampNs maxFrameBytes frame := by
  rw [← parseNDArrayFrame_ok, streamEntry]
  cases parseNDArrayFrame littleEndian attrs streamTimestampNs maxFrameBytes <;>
    simp [Except.mapError]

end RedisPvxsIoc.NTNDArray
