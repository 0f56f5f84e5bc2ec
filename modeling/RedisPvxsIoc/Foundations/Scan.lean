import RedisPvxsIoc.Foundations.Wire
import Mathlib.Data.List.TakeWhile

/-!
# Scanning Text

A hand-written scanner takes the longest run of characters of one class and goes on with what
follows.  A text that is a run followed by something else is cut at exactly that place.

Numbers are read the way `std::from_chars` reads them: the longest run of digits, no sign
other than a minus in front of a signed number, and an error when the type cannot hold it.

## Main results

- `takeWhile_run`, `dropWhile_run`, `run_unique`: where a text is cut
- `fromChars_all`, `fromCharsSigned_all`: the texts that are a number from end to end
-/

namespace RedisPvxsIoc.Foundations

/-! ## Runs of one class -/

section Runs

variable {α : Type} {p : α → Bool}

/-- The list does not go on with an element of the class. -/
def Stops (p : α → Bool) (rest : List α) : Prop := ∀ c ∈ rest.head?, p c = false

@[simp] theorem stops_nil : Stops p [] := by simp [Stops]

variable {rest : List α}

@[simp] theorem stops_cons {c : α} : Stops p (c :: rest) ↔ p c = false := by
  simp [Stops]

variable {run : List α}

theorem stops_append (hrun : ∀ c ∈ run, p c = false) (hrest : run = [] → Stops p rest) :
    Stops p (run ++ rest) := by
  cases run with
  | nil => exact hrest rfl
  | cons c run => exact stops_cons.mpr (hrun c List.mem_cons_self)

theorem takeWhile_run (hrun : ∀ c ∈ run, p c) (hstop : Stops p rest) :
    (run ++ rest).takeWhile p = run := by
  rw [List.takeWhile_append_of_pos hrun]
  cases rest with
  | nil => simp
  | cons c rest => simp [stops_cons.mp hstop]

theorem dropWhile_run (hrun : ∀ c ∈ run, p c) (hstop : Stops p rest) :
    (run ++ rest).dropWhile p = rest := by
  rw [List.dropWhile_append_of_pos hrun]
  cases rest with
  | nil => rfl
  | cons c rest => simp [stops_cons.mp hstop]

theorem stops_dropWhile (text : List α) : Stops p (text.dropWhile p) := by
  induction text with
  | nil => simp
  | cons c text ih =>
    by_cases hc : p c
    · simpa [List.dropWhile_cons, hc] using ih
    · simp [hc]

theorem forall_mem_takeWhile (text : List α) : ∀ c ∈ text.takeWhile p, p c :=
  fun _ hc => List.mem_takeWhile_imp hc

/-- A text can be cut in only one way into a run of the class and something that does not go
    on with it. -/
theorem run_unique {run' rest' : List α} (hrun : ∀ c ∈ run, p c) (hrun' : ∀ c ∈ run', p c)
    (hstop : Stops p rest) (hstop' : Stops p rest') (heq : run ++ rest = run' ++ rest') :
    run = run' ∧ rest = rest' := by
  have hruns : run = run' := by
    rw [← takeWhile_run hrun hstop, heq, takeWhile_run hrun' hstop']
  subst hruns
  exact ⟨rfl, List.append_cancel_left heq⟩

end Runs

/-! ## Decimal numbers -/

/-- The number that a sequence of digits stands for. -/
def decimal (digits : Bytes) : Nat :=
  digits.foldl (fun acc c => acc * 10 + (c.toNat - '0'.toNat)) 0

/-- Nothing but digits, and at least one. -/
def IsDigits (text : Bytes) : Prop := text ≠ [] ∧ ∀ c ∈ text, c.isDigit = true

instance (text : Bytes) : Decidable (IsDigits text) := inferInstanceAs (Decidable (_ ∧ _))

/-- The number at the front of a text and the rest of it; nothing without a digit or when the
    number does not fit. -/
def readNumber {β : Type} (value : Nat → β) (fits : β → Prop) [DecidablePred fits]
    (text : Bytes) : Option (β × Bytes) :=
  let digits := text.takeWhile Char.isDigit
  if digits = [] then none
  else if fits (value (decimal digits)) then
    some (value (decimal digits), text.dropWhile Char.isDigit)
  else none

/-- `std::from_chars` for an unsigned type of `bits` bits. -/
def fromChars (bits : Nat) (text : Bytes) : Option (Nat × Bytes) :=
  readNumber (fun n => n) (· < 2 ^ bits) text

/-- `std::from_chars` for a signed type of `bits + 1` bits. -/
def fromCharsSigned (bits : Nat) (text : Bytes) : Option (Int × Bytes) :=
  if text.head? = some '-' then
    readNumber (fun n => -(n : Int)) (fun n => -2 ^ bits ≤ n ∧ n < 2 ^ bits) text.tail
  else
    readNumber (fun n => (n : Int)) (fun n => -2 ^ bits ≤ n ∧ n < 2 ^ bits) text

variable {text : Bytes}

/-- A text is read to its end exactly when it is made of digits and the number fits. -/
theorem readNumber_all {β : Type} {value : Nat → β} {fits : β → Prop} [DecidablePred fits] {n : β} :
    readNumber value fits text = some (n, []) ↔
      IsDigits text ∧ n = value (decimal text) ∧ fits n := by
  have hsplit := List.takeWhile_append_dropWhile (p := Char.isDigit) (l := text)
  unfold readNumber IsDigits
  constructor
  · intro h
    dsimp only at h
    split_ifs at h with hempty hfits
    obtain ⟨rfl, hrest⟩ := Prod.mk.inj (Option.some.inj h)
    rw [hrest, List.append_nil] at hsplit
    rw [hsplit] at hempty hfits ⊢
    exact ⟨⟨hempty, hsplit ▸ forall_mem_takeWhile text⟩, rfl, hfits⟩
  · rintro ⟨⟨hempty, hdigits⟩, rfl, hfits⟩
    have htake : text.takeWhile Char.isDigit = text := List.takeWhile_eq_self_iff.mpr hdigits
    have hdrop : text.dropWhile Char.isDigit = [] := List.dropWhile_eq_nil_iff.mpr hdigits
    simp only [htake, hdrop, if_neg hempty, if_pos hfits]

theorem fromChars_all {bits : Nat} {n : Nat} :
    fromChars bits text = some (n, []) ↔ IsDigits text ∧ n = decimal text ∧ n < 2 ^ bits :=
  readNumber_all

/-- The text of a signed number: digits, or a minus in front of digits. -/
def IsSigned (text : Bytes) (n : Int) : Prop :=
  (IsDigits text ∧ n = decimal text) ∨
    ∃ digits, text = '-' :: digits ∧ IsDigits digits ∧ n = -decimal digits

theorem fromCharsSigned_all {bits : Nat} {n : Int} :
    fromCharsSigned bits text = some (n, []) ↔ IsSigned text n ∧ -2 ^ bits ≤ n ∧ n < 2 ^ bits := by
  unfold fromCharsSigned IsSigned
  cases text with
  | nil =>
    rw [if_neg (by simp), readNumber_all]
    simp [IsDigits]
  | cons c rest =>
    by_cases hminus : c = '-'
    · subst hminus
      -- a minus is not a digit, so only the second form is left
      have hnot : ¬ IsDigits ('-' :: rest) := by
        rintro ⟨-, hdigits⟩
        exact absurd (hdigits '-' List.mem_cons_self) (by decide)
      rw [if_pos List.head?_cons, List.tail_cons, readNumber_all]
      simp [hnot, and_assoc]
    · rw [if_neg (by simpa using hminus), readNumber_all]
      simp [hminus, and_assoc]

end RedisPvxsIoc.Foundations
