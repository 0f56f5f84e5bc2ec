import RedisPvxsIoc.Foundations.Scan
import RedisPvxsIoc.Foundations.Effect

/-!
# The Shape of an Image

Model of `parseShape` in `src/ntndarray.cpp`.  The scanner of the source moves a position
through the text; here it hands on the text behind the position.

The scanner takes a closing bracket wherever a dimension may begin, so also behind a comma,
and it reads the digits of a dimension without looking at the first one.

## Main results

- `parseShape_ok_iff`: the texts that the scanner accepts, and what it returns
- `ArrayText.text_injective`: a text is spelled in one way
- `parseShape_json_iff`: the texts on which that is what JSON says
-/

namespace RedisPvxsIoc.NTNDArray

open Foundations

/-! ## The scanner -/

/-- `parseUnsigned<T>` for a type of `bits` bits. -/
def parseUnsigned (bits : Nat) (value : Bytes) (name : String) : Except String Nat :=
  match fromChars bits value with
  | some (result, []) => .ok result
  | _ => .error ("invalid unsigned integer in '" ++ name ++ "'")

def isSpace (c : Char) : Bool := c == ' ' || c == '\t' || c == '\r' || c == '\n'

def skipWhitespace (text : Bytes) : Bytes := text.dropWhile isSpace

/-- The dimension at the front of a text: its size and what follows its digits. -/
def parseDimension (text : Bytes) : Except String (Nat × Bytes) :=
  let digits := text.takeWhile Char.isDigit
  if digits = [] then .error "shape dimensions must be positive integers"
  else do
    let size ← parseUnsigned 64 digits "shape dimension"
    if size = 0 ∨ 2147483647 < size then .error "shape dimension is zero or exceeds int32"
    else .ok (size, text.dropWhile Char.isDigit)

/-- The loop of `parseShape`: the dimensions and the text behind the closing bracket.  There
    is `room` for that many more dimensions. -/
def parseDimensions (room : Nat) (text : Bytes) : Except String (List Nat × Bytes) :=
  let text := skipWhitespace text
  if text.head? = some ']' then .ok ([], text.tail)
  else match room with
    | 0 => .error "shape must contain one to three dimensions"
    | room + 1 => do
      let (size, rest) ← parseDimension text
      let rest := skipWhitespace rest
      if rest.head? = some ',' then do
        -- the next turn may meet the closing bracket at once
        let (shape, rest) ← parseDimensions room rest.tail
        .ok (size :: shape, rest)
      else if rest.head? = some ']' then .ok ([size], rest.tail)
      else .error "invalid shape JSON"

def parseShape (value : Bytes) : Except String (List Nat) :=
  let text := skipWhitespace value
  if text.head? = some '[' then do
    let (shape, rest) ← parseDimensions 3 text.tail
    if skipWhitespace rest ≠ [] then .error "invalid shape JSON"
    else if shape = [] then .error "shape must contain one to three dimensions"
    else .ok shape
  else .error "shape must be a JSON array"

/-! ## Arrays of integers -/

def Spaces (text : Bytes) : Prop := ∀ c ∈ text, isSpace c = true

/-- An integer in an array, with the white space around it. -/
structure Item where
  before : Bytes
  digits : Bytes
  after : Bytes

namespace Item

def text (item : Item) (rest : Bytes) : Bytes :=
  item.before ++ (item.digits ++ (item.after ++ rest))

def value (item : Item) : Nat := decimal item.digits

structure Wf (item : Item) : Prop where
  before : Spaces item.before
  digits : IsDigits item.digits
  after : Spaces item.after

/-- An integer of JSON has no zero in front of another digit. -/
def Canonical (item : Item) : Prop := item.digits = ['0'] ∨ item.digits.head? ≠ some '0'

instance (item : Item) : Decidable item.Canonical := inferInstanceAs (Decidable (_ ∨ _))

end Item

/-- The items of an array with single commas between them, and what follows. -/
def itemsText (first : Item) : List Item → Bytes → Bytes
  | [], rest => first.text rest
  | second :: more, rest => first.text (',' :: itemsText second more rest)

/-- The end of an array: its bracket, or a comma, white space and the bracket. -/
def closing : Option Bytes → Bytes → Bytes
  | none, rest => ']' :: rest
  | some spaces, rest => ',' :: (spaces ++ ']' :: rest)

/-- An array of integers as it is written.  `trailing` is the white space behind a comma that
    follows the last item. -/
structure ArrayText where
  before : Bytes
  first : Item
  more : List Item
  trailing : Option Bytes
  after : Bytes

namespace ArrayText

def items (a : ArrayText) : List Item := a.first :: a.more

def text (a : ArrayText) : Bytes :=
  a.before ++ '[' :: itemsText a.first a.more (closing a.trailing a.after)

def values (a : ArrayText) : List Nat := a.items.map Item.value

structure Wf (a : ArrayText) : Prop where
  before : Spaces a.before
  items : ∀ item ∈ a.items, item.Wf
  trailing : ∀ spaces ∈ a.trailing, Spaces spaces
  after : Spaces a.after

/-- One to three dimensions, each a positive `int32_t`. -/
def IsShape (a : ArrayText) : Prop :=
  a.items.length ≤ 3 ∧ ∀ n ∈ a.values, 1 ≤ n ∧ n ≤ 2147483647

instance (a : ArrayText) : Decidable a.IsShape := inferInstanceAs (Decidable (_ ∧ _))

/-- What JSON asks of the commas and of the integers. -/
def IsJson (a : ArrayText) : Prop := a.trailing = none ∧ ∀ item ∈ a.items, item.Canonical

end ArrayText

/-! ## What the scanner reads -/

theorem parseUnsigned_ok {bits : Nat} {value : Bytes} {name : String} {n : Nat} :
    parseUnsigned bits value name = .ok n ↔ IsDigits value ∧ n = decimal value ∧ n < 2 ^ bits := by
  rw [← fromChars_all]
  unfold parseUnsigned
  split
  · rename_i result hread
    rw [hread]
    simp
  · rename_i hread
    simpa using hread n

variable {rest : Bytes}

theorem skipWhitespace_eq {spaces : Bytes} (hspaces : Spaces spaces) (hstop : Stops isSpace rest) :
    skipWhitespace (spaces ++ rest) = rest :=
  dropWhile_run hspaces hstop

/-- White space is skipped to something that is not white space. -/
theorem exists_skipped (text : Bytes) :
    ∃ spaces, Spaces spaces ∧ Stops isSpace (skipWhitespace text) ∧
      text = spaces ++ skipWhitespace text :=
  ⟨text.takeWhile isSpace, forall_mem_takeWhile text, stops_dropWhile text,
    List.takeWhile_append_dropWhile.symm⟩

variable {c : Char}

theorem skipWhitespace_head {text : Bytes} (hc : isSpace c = false) :
    (skipWhitespace text).head? = some c ↔ ∃ spaces, Spaces spaces ∧
      text = spaces ++ c :: (skipWhitespace text).tail := by
  constructor
  · intro h
    obtain ⟨spaces, hspaces, -, htext⟩ := exists_skipped text
    refine ⟨spaces, hspaces, ?_⟩
    rwa [List.eq_cons_of_mem_head? h] at htext
  · rintro ⟨spaces, hspaces, htext⟩
    rw [htext, skipWhitespace_eq hspaces (stops_cons.mpr hc)]
    rfl

theorem parseDimension_ok {text : Bytes} {size : Nat} :
    parseDimension text = .ok (size, rest) ↔
      ∃ digits, IsDigits digits ∧ Stops Char.isDigit rest ∧ text = digits ++ rest ∧
        size = decimal digits ∧ 1 ≤ size ∧ size ≤ 2147483647 := by
  unfold parseDimension
  constructor
  · intro h
    dsimp only at h
    split_ifs at h with hempty
    obtain ⟨n, hn, h⟩ := bind_eq_ok.mp h
    split_ifs at h with hrange
    obtain ⟨rfl, rfl⟩ := Prod.mk.inj (Except.ok.inj h)
    obtain ⟨hdigits, hvalue, -⟩ := parseUnsigned_ok.mp hn
    exact ⟨_, hdigits, stops_dropWhile text, List.takeWhile_append_dropWhile.symm, hvalue,
      by omega, by omega⟩
  · rintro ⟨digits, hdigits, hstop, rfl, rfl, hlow, hhigh⟩
    have hparse : parseUnsigned 64 digits "shape dimension" = .ok (decimal digits) :=
      parseUnsigned_ok.mpr ⟨hdigits, rfl, by omega⟩
    rw [takeWhile_run hdigits.2 hstop, dropWhile_run hdigits.2 hstop]
    dsimp only
    rw [if_neg hdigits.1, hparse]
    exact if_neg (by omega)

theorem isDigit_of_isSpace (h : isSpace c = true) : c.isDigit = false := by
  simp only [isSpace, Bool.or_eq_true, beq_iff_eq] at h
  rcases h with ((rfl | rfl) | rfl) | rfl <;> decide

theorem isSpace_of_isDigit (h : c.isDigit = true) : isSpace c = false := by
  cases hspace : isSpace c with
  | false => rfl
  | true => rw [isDigit_of_isSpace hspace] at h; cases h

namespace Item

variable {item : Item} {c : Char} {rest : Bytes}

theorem Wf.stops_digits (h : item.Wf) (rest : Bytes) : Stops isSpace (item.digits ++ rest) :=
  stops_append (fun c hc => isSpace_of_isDigit (h.digits.2 c hc))
    fun hempty => absurd hempty h.digits.1

theorem Wf.stops_after (h : item.Wf) (hdigit : c.isDigit = false) :
    Stops Char.isDigit (item.after ++ c :: rest) :=
  stops_append (fun x hx => isDigit_of_isSpace (h.after x hx)) fun _ => stops_cons.mpr hdigit

end Item

/-- One turn of the loop reads an item, up to the comma or bracket behind it. -/
theorem readsItem {text : Bytes} {size : Nat} (hspace : isSpace c = false)
    (hdigit : c.isDigit = false) :
    (∃ mid, parseDimension (skipWhitespace text) = .ok (size, mid) ∧
        skipWhitespace mid = c :: rest) ↔
      ∃ item : Item, item.Wf ∧ text = item.text (c :: rest) ∧ size = item.value ∧
        1 ≤ size ∧ size ≤ 2147483647 := by
  constructor
  · rintro ⟨mid, hparse, hmid⟩
    obtain ⟨before, hbefore, -, htext⟩ := exists_skipped text
    obtain ⟨after, hafter, -, hmid'⟩ := exists_skipped mid
    obtain ⟨digits, hdigits, -, hskipped, hsize, hlow, hhigh⟩ := parseDimension_ok.mp hparse
    refine ⟨⟨before, digits, after⟩, ⟨hbefore, hdigits, hafter⟩, ?_, hsize, hlow, hhigh⟩
    rw [htext, hskipped, hmid', hmid]
    rfl
  · rintro ⟨item, hwf, rfl, rfl, hlow, hhigh⟩
    refine ⟨item.after ++ c :: rest, ?_, skipWhitespace_eq hwf.after (stops_cons.mpr hspace)⟩
    rw [Item.text, skipWhitespace_eq hwf.before (hwf.stops_digits _)]
    exact parseDimension_ok.mpr
      ⟨item.digits, hwf.digits, hwf.stops_after hdigit, rfl, rfl, hlow, hhigh⟩

/-- In front of an item the loop does not see the closing bracket. -/
theorem Item.Wf.not_closing {item : Item} (h : item.Wf) (rest : Bytes) :
    (skipWhitespace (item.text rest)).head? ≠ some ']' := by
  rw [Item.text, skipWhitespace_eq h.before (h.stops_digits _)]
  obtain ⟨hempty, hdigits⟩ := h.digits
  cases hcase : item.digits with
  | nil => exact absurd hcase hempty
  | cons d digits =>
    rw [List.cons_append, List.head?_cons]
    intro hbracket
    have hd : d.isDigit = true := hdigits d (hcase ▸ List.mem_cons_self)
    rw [Option.some.inj hbracket] at hd
    cases hd

variable {shape : List Nat}

/-- A turn of the loop: it meets the closing bracket, or reads an item with the bracket or a
    comma behind it. -/
theorem parseDimensions_succ {room : Nat} {text : Bytes} :
    parseDimensions (room + 1) text = .ok (shape, rest) ↔
      (∃ spaces, Spaces spaces ∧ text = spaces ++ ']' :: rest ∧ shape = []) ∨
      ∃ item : Item, item.Wf ∧ (1 ≤ item.value ∧ item.value ≤ 2147483647) ∧
        ((text = item.text (']' :: rest) ∧ shape = [item.value]) ∨
          ∃ tail shape', text = item.text (',' :: tail) ∧ shape = item.value :: shape' ∧
            parseDimensions room tail = .ok (shape', rest)) := by
  have hbracket : isSpace ']' = false := by decide
  constructor
  · intro h
    rw [parseDimensions] at h
    dsimp only at h
    split_ifs at h with hclose
    · obtain ⟨rfl, rfl⟩ := Prod.mk.inj (Except.ok.inj h)
      obtain ⟨spaces, hspaces, htext⟩ := (skipWhitespace_head hbracket).mp hclose
      exact .inl ⟨spaces, hspaces, htext, rfl⟩
    · obtain ⟨⟨size, mid⟩, hdim, h⟩ := bind_eq_ok.mp h
      dsimp only at h
      split_ifs at h with hcomma hlast
      · obtain ⟨⟨shape', rest'⟩, hrec, h⟩ := bind_eq_ok.mp h
        obtain ⟨rfl, rfl⟩ := Prod.mk.inj (Except.ok.inj h)
        obtain ⟨item, hwf, htext, rfl, hrange⟩ := (readsItem (by decide) (by decide)).mp
          ⟨mid, hdim, List.eq_cons_of_mem_head? hcomma⟩
        exact .inr ⟨item, hwf, hrange, .inr ⟨_, shape', htext, rfl, hrec⟩⟩
      · obtain ⟨rfl, rfl⟩ := Prod.mk.inj (Except.ok.inj h)
        obtain ⟨item, hwf, htext, rfl, hrange⟩ := (readsItem (by decide) (by decide)).mp
          ⟨mid, hdim, List.eq_cons_of_mem_head? hlast⟩
        exact .inr ⟨item, hwf, hrange, .inl ⟨htext, rfl⟩⟩
  · rintro (⟨spaces, hspaces, rfl, rfl⟩ | ⟨item, hwf, hrange, hnext⟩)
    · rw [parseDimensions, skipWhitespace_eq hspaces (stops_cons.mpr hbracket)]
      rfl
    · rcases hnext with ⟨htext, rfl⟩ | ⟨tail, shape', htext, rfl, hrec⟩
      · obtain ⟨mid, hdim, hmid⟩ := (readsItem (by decide) (by decide)).mpr
          ⟨item, hwf, htext, rfl, hrange⟩
        rw [parseDimensions, if_neg (htext ▸ hwf.not_closing _), hdim]
        simp only [bind, Except.bind, hmid]
        rfl
      · obtain ⟨mid, hdim, hmid⟩ := (readsItem (by decide) (by decide)).mpr
          ⟨item, hwf, htext, rfl, hrange⟩
        rw [parseDimensions, if_neg (htext ▸ hwf.not_closing _), hdim]
        simp only [bind, Except.bind, hmid, List.head?_cons, if_true, List.tail_cons, hrec]

/-- **The loop** accepts the items of an array up to its end: white space and the bracket at
    once, or items with single commas between them and possibly one behind the last. -/
theorem parseDimensions_ok {room : Nat} {text : Bytes} :
    parseDimensions room text = .ok (shape, rest) ↔
      (∃ spaces, Spaces spaces ∧ text = spaces ++ ']' :: rest ∧ shape = []) ∨
      ∃ first more trailing, (∀ item ∈ first :: more, item.Wf) ∧
        (∀ spaces ∈ trailing, Spaces spaces) ∧ (first :: more).length ≤ room ∧
        text = itemsText first more (closing trailing rest) ∧
        shape = (first :: more).map Item.value ∧ ∀ n ∈ shape, 1 ≤ n ∧ n ≤ 2147483647 := by
  induction room generalizing text shape with
  | zero =>
    have hbracket : isSpace ']' = false := by decide
    rw [parseDimensions]
    constructor
    · intro h
      split_ifs at h with hclose
      obtain ⟨rfl, rfl⟩ := Prod.mk.inj (Except.ok.inj h)
      obtain ⟨spaces, hspaces, htext⟩ := (skipWhitespace_head hbracket).mp hclose
      exact .inl ⟨spaces, hspaces, htext, rfl⟩
    · rintro (⟨spaces, hspaces, rfl, rfl⟩ | ⟨first, more, trailing, -, -, hlength, -⟩)
      · rw [skipWhitespace_eq hspaces (stops_cons.mpr hbracket)]
        rfl
      · simp at hlength
  | succ room ih =>
    rw [parseDimensions_succ]
    refine or_congr_right ⟨?_, ?_⟩
    · rintro ⟨item, hwf, hrange, ⟨rfl, rfl⟩ | ⟨tail, shape', rfl, rfl, hrec⟩⟩
      · exact ⟨item, [], none, by simpa using hwf, by simp, by simp, rfl, rfl, by simpa using hrange⟩
      · -- what the next turns read is the white space behind a trailing comma, or more items
        rcases ih.mp hrec with ⟨spaces, hspaces, rfl, rfl⟩ |
          ⟨first, more, trailing, hitems, htrailing, hlength, rfl, rfl, hsizes⟩
        · exact ⟨item, [], some spaces, by simpa using hwf, by simpa using hspaces, by simp, rfl,
            rfl, by simpa using hrange⟩
        · refine ⟨item, first :: more, trailing, ?_, htrailing, ?_, rfl, rfl, ?_⟩
          · exact List.forall_mem_cons.mpr ⟨hwf, hitems⟩
          · simpa using hlength
          · exact List.forall_mem_cons.mpr ⟨hrange, hsizes⟩
    · rintro ⟨first, more, trailing, hitems, htrailing, hlength, rfl, rfl, hsizes⟩
      obtain ⟨hwf, hitems⟩ := List.forall_mem_cons.mp hitems
      obtain ⟨hrange, hsizes⟩ := List.forall_mem_cons.mp hsizes
      refine ⟨first, hwf, hrange, ?_⟩
      cases more with
      | nil =>
        cases trailing with
        | none => exact .inl ⟨rfl, rfl⟩
        | some spaces =>
          exact .inr ⟨_, [], rfl, rfl, ih.mpr (.inl ⟨spaces, htrailing spaces rfl, rfl, rfl⟩)⟩
      | cons second more =>
        exact .inr ⟨_, _, rfl, rfl, ih.mpr (.inr ⟨second, more, trailing, hitems, htrailing,
          by simpa using hlength, rfl, rfl, hsizes⟩)⟩

/-- **The texts that are accepted**: arrays of one to three positive integers of 32 bits, where
    a comma may follow the last one and zeros may precede the digits. -/
theorem parseShape_ok_iff {value : Bytes} :
    parseShape value = .ok shape ↔
      ∃ a : ArrayText, a.Wf ∧ a.IsShape ∧ value = a.text ∧ shape = a.values := by
  have hbracket : isSpace '[' = false := by decide
  unfold parseShape
  constructor
  · intro h
    dsimp only at h
    split_ifs at h with hopen
    obtain ⟨before, hbefore, htext⟩ := (skipWhitespace_head hbracket).mp hopen
    obtain ⟨⟨shape', rest⟩, hloop, h⟩ := bind_eq_ok.mp h
    dsimp only at h
    split_ifs at h with hrest hempty
    obtain rfl := Except.ok.inj h
    obtain ⟨after, hafter, -, hsplit⟩ := exists_skipped rest
    rw [not_not.mp hrest, List.append_nil] at hsplit
    rcases parseDimensions_ok.mp hloop with ⟨-, -, -, rfl⟩ |
      ⟨first, more, trailing, hitems, htrailing, hlength, hbody, rfl, hsizes⟩
    · exact absurd rfl hempty
    · refine ⟨⟨before, first, more, trailing, after⟩, ⟨hbefore, hitems, htrailing, hafter⟩,
        ⟨hlength, hsizes⟩, ?_, rfl⟩
      rw [htext, hbody, hsplit]
      rfl
  · rintro ⟨a, hwf, ⟨hlength, hsizes⟩, rfl, rfl⟩
    have hloop : parseDimensions 3 (itemsText a.first a.more (closing a.trailing a.after)) =
        .ok (a.values, a.after) :=
      parseDimensions_ok.mpr (.inr ⟨a.first, a.more, a.trailing, hwf.items, hwf.trailing, hlength,
        rfl, rfl, hsizes⟩)
    have hafter : skipWhitespace a.after = [] := List.dropWhile_eq_nil_iff.mpr hwf.after
    rw [ArrayText.text, skipWhitespace_eq hwf.before (stops_cons.mpr hbracket)]
    simp only [List.head?_cons, if_true, List.tail_cons, hloop, bind, Except.bind, hafter]
    rfl

/-! ## A text is spelled in one way -/

variable {rest' : Bytes}

theorem Item.text_unique {item item' : Item} (h : item.Wf) (h' : item'.Wf) {c' : Char}
    (hc : isSpace c = false ∧ c.isDigit = false) (hc' : isSpace c' = false ∧ c'.isDigit = false)
    (heq : item.text (c :: rest) = item'.text (c' :: rest')) :
    item = item' ∧ c :: rest = c' :: rest' := by
  obtain ⟨hbefore, hfrom⟩ :=
    run_unique h.before h'.before (h.stops_digits _) (h'.stops_digits _) heq
  obtain ⟨hdigits, hbehind⟩ :=
    run_unique h.digits.2 h'.digits.2 (h.stops_after hc.2) (h'.stops_after hc'.2) hfrom
  obtain ⟨hafter, htails⟩ :=
    run_unique h.after h'.after (stops_cons.mpr hc.1) (stops_cons.mpr hc'.1) hbehind
  refine ⟨?_, htails⟩
  cases item
  cases item'
  cases hbefore
  cases hdigits
  cases hafter
  rfl

theorem closing_eq_cons (trailing : Option Bytes) (rest : Bytes) :
    ∃ c tail, closing trailing rest = c :: tail ∧ isSpace c = false ∧ c.isDigit = false := by
  cases trailing with
  | none => exact ⟨']', rest, rfl, by decide, by decide⟩
  | some spaces => exact ⟨',', _, rfl, by decide, by decide⟩

theorem itemsText_eq_text (first : Item) (more : List Item) (rest : Bytes) :
    ∃ tail, itemsText first more rest = first.text tail := by
  cases more with
  | nil => exact ⟨rest, rfl⟩
  | cons second more => exact ⟨_, rfl⟩

variable {trailing : Option Bytes}

/-- Behind the last item there is no further item, not even behind a trailing comma. -/
theorem closing_ne_itemsText {first : Item} {more : List Item} {tail : Bytes}
    (htrailing : ∀ spaces ∈ trailing, Spaces spaces) (hfirst : first.Wf) :
    closing trailing rest ≠ ',' :: itemsText first more tail := by
  intro heq
  cases trailing with
  | none => exact absurd (List.cons.inj heq).1 (by decide)
  | some spaces =>
    obtain ⟨tail', htail⟩ := itemsText_eq_text first more tail
    have hitem : spaces ++ ']' :: rest = first.text tail' := htail ▸ (List.cons.inj heq).2
    have hclose := hfirst.not_closing tail'
    rw [← hitem, skipWhitespace_eq (htrailing spaces rfl) (stops_cons.mpr (by decide))] at hclose
    exact hclose rfl

theorem closing_unique {trailing' : Option Bytes} (h : ∀ spaces ∈ trailing, Spaces spaces)
    (h' : ∀ spaces ∈ trailing', Spaces spaces)
    (heq : closing trailing rest = closing trailing' rest') :
    trailing = trailing' ∧ rest = rest' := by
  have hstop : ∀ rest, Stops isSpace (']' :: rest) := fun rest => stops_cons.mpr (by decide)
  cases trailing with
  | none =>
    cases trailing' with
    | none => exact ⟨rfl, (List.cons.inj heq).2⟩
    | some spaces' => exact absurd (List.cons.inj heq).1 (by decide)
  | some spaces =>
    cases trailing' with
    | none => exact absurd (List.cons.inj heq).1 (by decide)
    | some spaces' =>
      obtain ⟨rfl, hrest⟩ := run_unique (h spaces rfl) (h' spaces' rfl) (hstop rest) (hstop rest')
        (List.cons.inj heq).2
      exact ⟨rfl, (List.cons.inj hrest).2⟩

theorem itemsText_unique {first first' : Item} {more more' : List Item} {trailing' : Option Bytes}
    (hitems : ∀ item ∈ first :: more, item.Wf) (hitems' : ∀ item ∈ first' :: more', item.Wf)
    (htrailing : ∀ spaces ∈ trailing, Spaces spaces)
    (htrailing' : ∀ spaces ∈ trailing', Spaces spaces)
    (heq : itemsText first more (closing trailing rest) =
      itemsText first' more' (closing trailing' rest')) :
    first = first' ∧ more = more' ∧ trailing = trailing' ∧ rest = rest' := by
  have hcomma : isSpace ',' = false ∧ ','.isDigit = false := by decide
  induction more generalizing first first' more' with
  | nil =>
    obtain ⟨c, tail, hclosing, hc⟩ := closing_eq_cons trailing rest
    have hwf := hitems first List.mem_cons_self
    have hwf' := hitems' first' List.mem_cons_self
    rw [itemsText] at heq
    cases more' with
    | nil =>
      obtain ⟨c', tail', hclosing', hc'⟩ := closing_eq_cons trailing' rest'
      rw [itemsText, hclosing, hclosing'] at heq
      obtain ⟨rfl, htails⟩ := Item.text_unique hwf hwf' hc hc' heq
      rw [← hclosing, ← hclosing'] at htails
      obtain ⟨rfl, rfl⟩ := closing_unique htrailing htrailing' htails
      exact ⟨rfl, rfl, rfl, rfl⟩
    | cons second' more' =>
      rw [itemsText, hclosing] at heq
      obtain ⟨-, htails⟩ := Item.text_unique hwf hwf' hc hcomma heq
      have hsecond : second'.Wf := hitems' second' (by simp)
      exact absurd (hclosing.trans htails) (closing_ne_itemsText htrailing hsecond)
  | cons second more ih =>
    obtain ⟨hwf, hitems⟩ := List.forall_mem_cons.mp hitems
    have hwf' := hitems' first' List.mem_cons_self
    rw [itemsText] at heq
    cases more' with
    | nil =>
      obtain ⟨c', tail', hclosing', hc'⟩ := closing_eq_cons trailing' rest'
      rw [itemsText, hclosing'] at heq
      obtain ⟨-, htails⟩ := Item.text_unique hwf hwf' hcomma hc' heq
      have hsecond : second.Wf := hitems second List.mem_cons_self
      exact absurd (hclosing'.trans htails.symm) (closing_ne_itemsText htrailing' hsecond)
    | cons second' more' =>
      rw [itemsText] at heq
      obtain ⟨rfl, htails⟩ := Item.text_unique hwf hwf' hcomma hcomma heq
      obtain ⟨rfl, rfl, rfl, rfl⟩ := ih hitems (List.forall_mem_cons.mp hitems').2
        (List.cons.inj htails).2
      exact ⟨rfl, rfl, rfl, rfl⟩

theorem ArrayText.text_injective {a b : ArrayText} (ha : a.Wf) (hb : b.Wf)
    (heq : a.text = b.text) : a = b := by
  have hstop : ∀ rest, Stops isSpace ('[' :: rest) := fun rest => stops_cons.mpr (by decide)
  obtain ⟨hbefore, hbody⟩ := run_unique ha.before hb.before (hstop _) (hstop _) heq
  obtain ⟨hfirst, hmore, htrailing, hafter⟩ := itemsText_unique ha.items hb.items ha.trailing
    hb.trailing (List.cons.inj hbody).2
  cases a
  cases b
  cases hbefore
  cases hfirst
  cases hmore
  cases htrailing
  cases hafter
  rfl

/-! ## JSON -/

/-- The text is, up to white space between tokens, a JSON array of one to three integers that
    are positive and fit `int32_t`. -/
def IsJsonShape (text : Bytes) (shape : List Nat) : Prop :=
  ∃ a : ArrayText, a.Wf ∧ a.IsJson ∧ a.IsShape ∧ text = a.text ∧ shape = a.values

/-- The text is such an array but for a comma behind its last integer or for zeros in front of
    the digits of one. -/
def Sloppy (text : Bytes) : Prop :=
  ∃ a : ArrayText, a.Wf ∧ a.IsShape ∧ text = a.text ∧
    (a.trailing.isSome ∨ ∃ item ∈ a.items, ¬ item.Canonical)

theorem ArrayText.isJson_or_sloppy {a : ArrayText} :
    a.IsJson ∨ (a.trailing.isSome ∨ ∃ item ∈ a.items, ¬ item.Canonical) := by
  by_cases hjson : a.IsJson
  · exact .inl hjson
  · refine .inr ?_
    unfold IsJson at hjson
    cases htrailing : a.trailing with
    | some spaces => exact .inl rfl
    | none => simpa [htrailing] using hjson

theorem isJsonShape_not_sloppy {text : Bytes} (h : IsJsonShape text shape) :
    ¬ Sloppy text := by
  rintro ⟨b, hb, -, htext, hsloppy⟩
  obtain ⟨a, ha, ⟨htrailing, hitems⟩, -, htext', -⟩ := h
  obtain rfl := ArrayText.text_injective ha hb (htext'.symm.trans htext)
  rcases hsloppy with hsome | ⟨item, hitem, hzero⟩
  · simp [htrailing] at hsome
  · exact hzero (hitems item hitem)

/-- **Where the scanner agrees with JSON**: on every text that is not accepted because of a
    trailing comma or of leading zeros. -/
theorem parseShape_json_iff (text : Bytes) :
    (∀ shape, parseShape text = .ok shape ↔ IsJsonShape text shape) ↔ ¬ Sloppy text := by
  constructor
  · rintro hagree ⟨a, hwf, hshape, rfl, hsloppy⟩
    have haccepted : parseShape a.text = .ok a.values :=
      parseShape_ok_iff.mpr ⟨a, hwf, hshape, rfl, rfl⟩
    exact isJsonShape_not_sloppy ((hagree _).mp haccepted) ⟨a, hwf, hshape, rfl, hsloppy⟩
  · intro hstrict shape
    rw [parseShape_ok_iff]
    constructor
    · rintro ⟨a, hwf, hshape, htext, hvalues⟩
      rcases a.isJson_or_sloppy with hjson | hsloppy
      · exact ⟨a, hwf, hjson, hshape, htext, hvalues⟩
      · exact absurd ⟨a, hwf, hshape, htext, hsloppy⟩ hstrict
    · rintro ⟨a, hwf, -, hshape, htext, hvalues⟩
      exact ⟨a, hwf, hshape, htext, hvalues⟩

/-- `[1,]` and `[01]` are accepted and are not JSON. -/
theorem parseShape_accepts_sloppy :
    parseShape "[1,]".toList = .ok [1] ∧ (∀ shape, ¬ IsJsonShape "[1,]".toList shape) ∧
      parseShape "[01]".toList = .ok [1] ∧ ∀ shape, ¬ IsJsonShape "[01]".toList shape := by
  have hone : Spaces [] := by simp [Spaces]
  refine ⟨by decide, fun shape h => isJsonShape_not_sloppy h ?_, by decide,
    fun shape h => isJsonShape_not_sloppy h ?_⟩
  · refine ⟨⟨[], ⟨[], ['1'], []⟩, [], some [], []⟩, ⟨hone, ?_, ?_, hone⟩, ?_, by decide, .inl rfl⟩
    · simpa [ArrayText.items] using (⟨hone, by simp [IsDigits], hone⟩ : Item.Wf ⟨[], ['1'], []⟩)
    · simpa using hone
    · decide
  · refine ⟨⟨[], ⟨[], ['0', '1'], []⟩, [], none, []⟩, ⟨hone, ?_, by simp, hone⟩, ?_, by decide,
      .inr ⟨_, List.mem_cons_self, by decide⟩⟩
    · simpa [ArrayText.items] using (⟨hone, by simp [IsDigits], hone⟩ : Item.Wf ⟨[], ['0', '1'], []⟩)
    · decide

end RedisPvxsIoc.NTNDArray
